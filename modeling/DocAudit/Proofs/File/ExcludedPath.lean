import DocAudit.Proofs.File.Discovery
import DocAudit.Proofs.File.ExcludeForm
import Mathlib.Data.List.TakeWhile

/-!
Excluding a file by its own path. One more exclude entry leaves out what lies at or below its cleaned
path and nothing else. That is the file alone when the path has no blank at its beginning and no
backslash; otherwise the file stays.
-/

set_option autoImplicit false

namespace DocAudit.File

/-! ### One more entry -/

-- Whether a path is the one that an entry cleans to, or lies below it.
def covers (entry path : String) : Bool := (components (cleanEntry entry)).isPrefixOf (components path)

theorem covers_iff (entry path : String) :
    covers entry path = true ↔ components (cleanEntry entry) <+: components path :=
  List.isPrefixOf_iff_prefix

theorem keeps_normalized (entries : List String) (p : String) : keeps (normalizeExcludes entries) p = true ↔
    ∀ e ∈ entries, cleanEntry e ≠ "" → covers e p = false := by
  simp only [keeps_iff, Bool.eq_false_iff, ne_eq, covers_iff]
  constructor
  · intro kept e member filled begins
    refine kept _ (components_filled _) begins ((normalized_iff entries _).mpr ?_)
    rw [joined_components]
    exact ⟨filled, e, member, rfl⟩
  · intro kept front filled begins member
    obtain ⟨named, e, listed, same⟩ := (normalized_iff entries _).mp member
    have apart : ∀ name ∈ front, '/' ∉ name.toList := fun name inside =>
      components_apart p name (begins.subset inside)
    refine kept e listed (same ▸ named) ?_
    rwa [same, components_joined front filled apart]

theorem keeps_append (first second : List String) (p : String) :
    keeps (normalizeExcludes (first ++ second)) p =
      (keeps (normalizeExcludes first) p && keeps (normalizeExcludes second) p) := by
  rw [Bool.eq_iff_iff, Bool.and_eq_true, keeps_normalized, keeps_normalized, keeps_normalized, List.forall_mem_append]

theorem keeps_one (entry p : String) (filled : cleanEntry entry ≠ "") :
    keeps (normalizeExcludes [entry]) p = !covers entry p := by
  rw [Bool.eq_iff_iff, keeps_normalized, List.forall_mem_singleton, Bool.not_eq_true']
  exact ⟨fun kept => kept filled, fun apart _ => apart⟩

-- A directory that is none or a folder is either for every exclude list.
theorem discover_cases (fs : System) (root : Path) (exclude found : List String)
    (listed : fs.discover root exclude = .ok found) :
    (found = [] ∧ ∀ other, fs.discover root other = .ok []) ∨
      ∃ place entries, fs.node? place = some (.folder entries) ∧ ∀ other, fs.discover root other = .ok
        ((Node.folder entries).sources fs { exclude := normalizeExcludes other } (root.walked.below []) (folderText [])) := by
  cases folder : fs.folder? root with
  | error cause => simp [System.discover, System.sources, folder] at listed
  | ok result =>
      cases result with
      | none =>
          have nothing : ∀ other, fs.discover root other = .ok [] := by simp [System.discover, System.sources, folder]
          exact .inl ⟨Except.ok.inj (listed.symm.trans (nothing exclude)), nothing⟩
      | some place =>
          obtain ⟨-, entries, node⟩ := folder_place fs root place folder
          exact .inr ⟨place, entries, node, fun other => discover_sources fs root other place _ folder node⟩

theorem discover_more (fs : System) (proper : fs.root.Proper) (root : Path) (exclude more found : List String)
    (listed : fs.discover root exclude = .ok found) :
    fs.discover root (exclude ++ more) = .ok (found.filter (keeps (normalizeExcludes more))) := by
  rcases discover_cases fs root exclude found listed with ⟨rfl, nothing⟩ | ⟨place, entries, node, sources⟩
  · exact nothing (exclude ++ more)
  · have below := (descend_proper fs.root proper place _ node).1
    rw [sources, found_filtered fs _ _ _ below] at listed ⊢
    rw [← Except.ok.inj listed, List.filter_filter]
    refine congrArg Except.ok (List.filter_congr fun p _ => ?_)
    rw [keeps_append, Bool.and_comm]

/-! ### Paths that cleaning leaves as they are -/

structure Verbatim (path : String) : Prop where
  starts : ∀ c ∈ path.toList.head?, Text.blank c = false
  plain : '\\' ∉ path.toList

-- A text that is repeated from behind some of its own beginning consists of that beginning.
theorem own_tail_chars (front tail : List Char) (filled : front ≠ []) (overlaps : tail <+: front ++ tail) :
    ∀ c ∈ tail, c ∈ front := by
  rcases Nat.le_total tail.length front.length with short | long
  · exact (List.prefix_of_prefix_length_le overlaps (List.prefix_append front tail) short).subset
  · obtain ⟨rest, rfl⟩ := List.prefix_of_prefix_length_le (List.prefix_append front tail) overlaps long
    have shorter : rest.length < (front ++ rest).length := by
      rw [List.length_append]
      exact Nat.lt_add_of_pos_left (List.length_pos_iff.mpr filled)
    intro c member
    rcases List.mem_append.mp member with here | later
    · exact here
    · exact own_tail_chars front rest filled ((List.prefix_append_right_inj front).mp overlaps) c later
termination_by tail.length

section

variable (s : List Char) (ends : s.getLast? = some 'p')

include ends

-- Nothing is cut off at the end, so cleaning is about the beginning alone.
theorem clean_beginning : cleanChars s = withoutDot ((s.dropWhile Text.blank).map slashed) := by
  have last : ∀ c ∈ (s.dropWhile Text.blank).getLast?, c = 'p' := by
    intro c here
    rw [← List.takeWhile_append_dropWhile (p := Text.blank) (l := s), List.getLast?_append] at ends
    rw [Option.mem_def] at here
    rw [here] at ends
    exact Option.some.inj ends
  have trimmed : Text.trimChars s = s.dropWhile Text.blank := by
    refine drop_end_self Text.blank _ fun c here => ?_
    rw [last c here]
    decide
  rw [clean_chars_eq, ended, trimmed, drop_end_self]
  intro c here
  rw [List.getLast?_map] at here
  obtain ⟨d, there, rfl⟩ := Option.map_eq_some_iff.mp here
  rw [last d there]
  decide

theorem last_after_blanks : 'p' ∈ s.dropWhile Text.blank := by
  have member := List.mem_of_getLast? ends
  rw [← List.takeWhile_append_dropWhile (p := Text.blank) (l := s), List.mem_append] at member
  refine member.resolve_left fun early => ?_
  exact absurd (List.mem_takeWhile_imp early) (by decide)

theorem clean_keeps_last : 'p' ∈ cleanChars s := by
  have member := List.mem_map_of_mem (f := slashed) (last_after_blanks s ends)
  rw [clean_beginning s ends]
  unfold withoutDot
  split
  · rename_i rest shape
    rw [shape] at member
    exact (List.mem_append (s := ['.', '/'])).mp member |>.resolve_left (by decide)
  · exact member

-- With a dot in front the rest would be repeated from behind blanks, the dot and a slash.
theorem clean_own_undotted (begins : cleanChars s <+: s) : ¬ ['.', '/'] <+: (s.dropWhile Text.blank).map slashed := by
  rintro ⟨rest, whole⟩
  have cleaned : cleanChars s = rest := by
    rw [clean_beginning s ends, ← whole]
    rfl
  have last : 'p' ∈ rest := cleaned ▸ clean_keeps_last s ends
  rw [cleaned] at begins
  have plain : '\\' ∉ rest := by
    intro backslash
    obtain ⟨c, -, same⟩ := List.mem_map.mp (whole ▸ List.mem_append_right ['.', '/'] backslash)
    exact slashed_other c same
  have mapped : s.map slashed = ((s.takeWhile Text.blank).map slashed ++ ['.', '/']) ++ rest := by
    rw [List.append_assoc, whole, ← List.map_append, List.takeWhile_append_dropWhile]
  have overlaps : rest <+: ((s.takeWhile Text.blank).map slashed ++ ['.', '/']) ++ rest := by
    have image := begins.map slashed
    rwa [mapped, slashed_self rest plain] at image
  rcases List.mem_append.mp (own_tail_chars _ rest (by simp) overlaps 'p' last) with blanks | dot
  · obtain ⟨c, early, same⟩ := List.mem_map.mp blanks
    have blank := List.mem_takeWhile_imp early
    rw [← blank_slashed, same] at blank
    exact absurd blank (by decide)
  · exact absurd dot (by decide)

theorem clean_own_front (begins : cleanChars s <+: s) :
    (∀ c ∈ s.head?, Text.blank c = false) ∧ '\\' ∉ s := by
  have undotted := clean_own_undotted s ends begins
  rw [clean_beginning s ends, without_dot_self _ undotted] at begins
  have starts : ∀ c ∈ s.head?, Text.blank c = false := by
    intro c head
    obtain ⟨d, rest, later⟩ := List.exists_cons_of_ne_nil (List.ne_nil_of_mem (last_after_blanks s ends))
    have stops := List.head?_dropWhile_not Text.blank s
    rw [later] at stops begins
    obtain ⟨more, rfl⟩ := begins
    rw [← Option.some.inj head, blank_slashed]
    exact stops
  rw [drop_while_self Text.blank s starts] at begins
  have same : s.map slashed = s := begins.eq_of_length (List.length_map slashed)
  refine ⟨starts, fun backslash => ?_⟩
  obtain ⟨c, -, image⟩ := List.mem_map.mp (same.symm ▸ backslash)
  exact slashed_other c image

end

theorem clean_verbatim (path : String) (ends : path.toList.getLast? = some 'p') (undotted : ¬ ['.', '/'] <+: path.toList)
    (verbatim : Verbatim path) : cleanEntry path = path := by
  refine clean_entry_self path ⟨?_, verbatim.plain, ?_⟩ ⟨⟨verbatim.starts, ?_⟩, undotted⟩
  · rintro rfl
    cases ends
  · rw [ends]
    decide
  · intro c last
    rw [ends] at last
    exact Option.some.inj last ▸ by decide

theorem clean_source_filled (path : String) (ends : path.toList.getLast? = some 'p') : cleanEntry path ≠ "" := by
  intro empty
  have last := clean_keeps_last path.toList ends
  rw [← clean_entry_chars, empty] at last
  cases last

theorem changed_uncovered (path : String) (ends : path.toList.getLast? = some 'p') (changed : ¬ Verbatim path) :
    covers path path = false := by
  rw [Bool.eq_false_iff, Ne, covers_iff]
  rintro ⟨more, whole⟩
  have begins := joined_begins (components (cleanEntry path)) more (components_filled _)
  rw [whole, joined_components, joined_components, clean_entry_chars] at begins
  obtain ⟨starts, plain⟩ := clean_own_front path.toList ends begins
  exact changed ⟨starts, plain⟩

/-! ### Found paths -/

theorem source_name_last (name : String) (source : SourceName name) : name.toList.getLast? = some 'p' := by
  obtain ⟨stem, rfl, -⟩ := source
  rw [String.toList_append, List.getLast?_append]
  rfl

theorem source_path_last (path : String) (folders : List String) (name : String)
    (parts : components path = folders ++ [name]) (source : SourceName name) : path.toList.getLast? = some 'p' := by
  rw [← joined_components path, parts, joined_append folders _ (by simp), joined_one, String.toList_append,
    List.getLast?_append, source_name_last name source]
  rfl

theorem undotted_path (path : String) (undotted : ∀ name ∈ components path, name ≠ ".") :
    ¬ ['.', '/'] <+: path.toList := by
  rintro ⟨rest, whole⟩
  have pieces : components path = "." :: (Text.splitChars '/' rest).map String.ofList := by
    rw [components, Text.split, ← whole]
    exact congrArg (List.map String.ofList) (split_chars_cons '/' ['.'] rest (by decide))
  exact undotted "." (pieces ▸ List.mem_cons_self) rfl

structure FoundAt (fs : System) (root : Path) (top : Node) (path : String) : Prop where
  entry : ∃ node, top.descend (components path) = some node ∧ IsFile fs (root.below (components path)) node
  ends : path.toList.getLast? = some 'p'
  undotted : ¬ ['.', '/'] <+: path.toList

theorem discover_found (fs : System) (proper : fs.root.Proper) (undotted : fs.root.Undotted) (root : Path)
    (exclude found : List String) (listed : fs.discover root exclude = .ok found) :
    ∃ top, ∀ p ∈ found, FoundAt fs root.walked top p := by
  rcases discover_cases fs root exclude found listed with ⟨rfl, -⟩ | ⟨place, entries, node, sources⟩
  · exact ⟨fs.root, by simp⟩
  · have below := (descend_proper fs.root proper place _ node).1
    have within := (descend_undotted fs.root undotted place _ node).1
    rw [sources, Except.ok.injEq] at listed
    refine ⟨.folder entries, fun p member => ?_⟩
    rw [← listed, found_iff fs _ _ _ below] at member
    obtain ⟨wanted, -⟩ := member
    obtain ⟨leaf, here, file⟩ := wanted.entry
    obtain ⟨folders, name, parts, source⟩ := wanted.source
    refine ⟨⟨leaf, here, file⟩, source_path_last p folders name parts source, undotted_path p ?_⟩
    exact (descend_undotted _ within _ leaf here).2

-- What is no folder has nothing below it.
theorem file_childless (fs : System) (path : Path) (top leaf : Node) (names more : List String)
    (found : top.descend names = some leaf) (file : IsFile fs path leaf) (filled : more ≠ []) :
    top.descend (names ++ more) = none := by
  obtain ⟨name, more, rfl⟩ := List.exists_cons_of_ne_nil filled
  rw [descend_append, found, Option.bind_some]
  cases leaf with
  | folder entries => cases file
  | file bytes => rfl
  | link target => rfl

-- Nothing is found below a found path.
theorem found_apart (fs : System) (root : Path) (top : Node) (p q : String) (first : FoundAt fs root top p)
    (second : FoundAt fs root top q) (begins : components p <+: components q) : q = p := by
  obtain ⟨leaf, here, file⟩ := first.entry
  obtain ⟨node, there, -⟩ := second.entry
  obtain ⟨more, whole⟩ := begins
  have none_left : more = [] := by
    by_contra filled
    rw [← whole, file_childless fs _ top leaf _ more here file filled] at there
    cases there
  rw [none_left, List.append_nil] at whole
  rw [← joined_components q, ← whole, joined_components]

theorem covers_itself (fs : System) (root : Path) (top : Node) (p q : String) (first : FoundAt fs root top p)
    (second : FoundAt fs root top q) (verbatim : Verbatim p) : covers p q = (q == p) := by
  rw [Bool.eq_iff_iff, covers_iff, clean_verbatim p first.ends first.undotted verbatim, beq_iff_eq]
  constructor
  · exact found_apart fs root top p q first second
  · rintro rfl
    exact List.prefix_refl _

theorem excluding_found_path (fs : System) (proper : fs.root.Proper) (undotted : fs.root.Undotted) (root : Path)
    (exclude found : List String) (listed : fs.discover root exclude = .ok found) (p : String) (member : p ∈ found) :
    fs.discover root (exclude ++ [p]) = .ok (found.filter (!covers p ·)) ∧
      (Verbatim p → fs.discover root (exclude ++ [p]) = .ok (found.filter (· != p))) ∧
      (¬ Verbatim p → ∃ rest, fs.discover root (exclude ++ [p]) = .ok rest ∧ p ∈ rest) := by
  obtain ⟨top, places⟩ := discover_found fs proper undotted root exclude found listed
  have ends := (places p member).ends
  have rest : fs.discover root (exclude ++ [p]) = .ok (found.filter (!covers p ·)) := by
    rw [discover_more fs proper root exclude [p] found listed]
    exact congrArg _ (List.filter_congr fun q _ => keeps_one p q (clean_source_filled p ends))
  refine ⟨rest, fun verbatim => ?_, fun changed => ⟨_, rest, List.mem_filter.mpr ⟨member, ?_⟩⟩⟩
  · rw [rest]
    refine congrArg _ (List.filter_congr fun q inside => ?_)
    rw [covers_itself fs _ top p q (places p member) (places q inside) verbatim]
    rfl
  · rw [changed_uncovered p ends changed]
    rfl

theorem excluding_found_path_below :
    let fs : System := ⟨.folder [("a.php", .file []), ("d", .folder [("c.php", .file [])])], []⟩
    fs.root.Proper ∧ fs.root.Undotted ∧ fs.discover .here ["x"] = .ok ["a.php", "d/c.php"] ∧ Verbatim "d/c.php" ∧
      fs.discover .here ["x", "d/c.php"] = .ok (["a.php", "d/c.php"].filter (· != "d/c.php")) := by
  intro fs
  have proper : fs.root.Proper := by
    refine .folder _ (by decide) (by decide) (List.forall_mem_cons.mpr ⟨.file _, List.forall_mem_singleton.mpr ?_⟩)
    exact .folder _ (by decide) (by decide) (List.forall_mem_singleton.mpr (.file _))
  have undotted : fs.root.Undotted := by
    refine .folder _ (by decide) (List.forall_mem_cons.mpr ⟨.file _, List.forall_mem_singleton.mpr ?_⟩)
    exact .folder _ (by decide) (List.forall_mem_singleton.mpr (.file _))
  have found : fs.discover .here ["x"] = .ok ["a.php", "d/c.php"] := by decide +kernel
  have verbatim : Verbatim "d/c.php" := ⟨fun c head => Option.some.inj head ▸ by decide, by decide⟩
  obtain ⟨-, alone, -⟩ := excluding_found_path fs proper undotted .here ["x"] _ found "d/c.php" (by simp)
  exact ⟨proper, undotted, found, verbatim, alone verbatim⟩

-- A path that cleans to that of another file, which is left out in its place, and a path that cleans to that of none.
theorem excluding_changed_paths :
    let fs : System := ⟨.folder [("b\\c.php", .file []), ("b", .folder [("c.php", .file [])])], []⟩
    let blank : System := ⟨.folder [(" a.php", .file [])], []⟩
    (fs.root.Proper ∧ fs.root.Undotted ∧ fs.discover .here [] = .ok ["b\\c.php", "b/c.php"] ∧
      fs.discover .here ([] ++ ["b\\c.php"]) = .ok ["b\\c.php"] ∧
      fs.discover .here ([] ++ ["b\\c.php"]) ≠ .ok (["b\\c.php", "b/c.php"].filter (· != "b\\c.php"))) ∧
    blank.root.Proper ∧ blank.root.Undotted ∧ blank.discover .here [] = .ok [" a.php"] ∧
      blank.discover .here ([] ++ [" a.php"]) = .ok [" a.php"] ∧
      blank.discover .here ([] ++ [" a.php"]) ≠ .ok ([" a.php"].filter (· != " a.php")) := by
  intro fs blank
  refine ⟨⟨?_, ?_, ?_, ?_, ?_⟩, ?_, ?_, ?_, ?_, ?_⟩
  · refine .folder _ (by decide) (by decide) (List.forall_mem_cons.mpr ⟨.file _, List.forall_mem_singleton.mpr ?_⟩)
    exact .folder _ (by decide) (by decide) (List.forall_mem_singleton.mpr (.file _))
  · refine .folder _ (by decide) (List.forall_mem_cons.mpr ⟨.file _, List.forall_mem_singleton.mpr ?_⟩)
    exact .folder _ (by decide) (List.forall_mem_singleton.mpr (.file _))
  rotate_left 3
  · exact .folder _ (by decide) (by decide) (List.forall_mem_singleton.mpr (.file _))
  · exact .folder _ (by decide) (List.forall_mem_singleton.mpr (.file _))
  all_goals decide +kernel

end DocAudit.File
