import DocAudit.Proofs.File.Tree

/-!
What a walk finds. The source files below a directory are said by their paths alone: where they
stand, how they are named, and what is left out.
-/

set_option autoImplicit false

namespace DocAudit.File

/-! ### Names of sources -/

theorem take_while_dotless (ext stem : List Char) (dotless : '.' ∉ ext) :
    (ext ++ '.' :: stem).takeWhile (· != '.') = ext := by
  have passed : ∀ c ∈ ext, (c != '.') = true := by
    intro c member
    rw [bne_iff_ne]
    rintro rfl
    exact dotless member
  rw [List.takeWhile_append_of_pos passed]
  simp

theorem drop_past (front : List Char) (c : Char) (rest : List Char) :
    (front ++ c :: rest).drop (front.length + 1) = rest := by
  rw [List.drop_append, List.drop_eq_nil_of_le (by omega)]
  simp

theorem extension_chars_iff (name ext : List Char) (dotless : '.' ∉ ext) :
    extensionChars name = '.' :: ext ↔ ∃ stem, name = stem ++ '.' :: ext ∧ ∃ c ∈ stem, c ≠ '.' := by
  constructor
  · intro found
    rw [extensionChars] at found
    split at found
    · rename_i filled
      obtain ⟨-, rfl⟩ := List.cons.inj found
      obtain ⟨c, member, other⟩ := List.any_eq_true.mp filled
      have split := List.takeWhile_append_dropWhile (p := (· != '.')) (l := name.reverse)
      generalize tailEq : name.reverse.takeWhile (· != '.') = tail at *
      cases rest : name.reverse.dropWhile (· != '.') with
      | nil =>
          rw [rest, List.append_nil] at split
          rw [← split, List.drop_eq_nil_of_le (by simp)] at member
          cases member
      | cons d stem =>
          have dot : d = '.' := by
            have stops := List.head?_dropWhile_not (· != '.') name.reverse
            simpa [rest] using stops
          rw [rest, dot] at split
          rw [← split, drop_past] at member
          refine ⟨stem.reverse, ?_, c, ?_, by simpa using other⟩
          · rw [← List.reverse_reverse name, ← split]
            simp
          · simpa using member
    · cases found
  · rintro ⟨stem, rfl, c, member, other⟩
    have reversed : (stem ++ '.' :: ext).reverse = ext.reverse ++ '.' :: stem.reverse := by simp
    have taken : (stem ++ '.' :: ext).reverse.takeWhile (· != '.') = ext.reverse := by
      rw [reversed, take_while_dotless ext.reverse stem.reverse (by simpa using dotless)]
    have dropped : (stem ++ '.' :: ext).reverse.drop (ext.reverse.length + 1) = stem.reverse := by
      rw [reversed, drop_past]
    rw [extensionChars, taken, dropped, if_pos (List.any_eq_true.mpr ⟨c, by simpa using member, by simpa using other⟩),
      List.reverse_reverse]

-- Something besides dots stands before the last dot, and `php` behind it.
def SourceName (name : String) : Prop := ∃ stem, name = stem ++ ".php" ∧ ∃ c ∈ stem.toList, c ≠ '.'

theorem extension_source (name : String) : extension name = ".php" ↔ SourceName name := by
  have chars := extension_chars_iff name.toList ['p', 'h', 'p'] (by decide)
  have dotted : ".php".toList = ['.', 'p', 'h', 'p'] := by decide
  rw [extension, ← String.toList_inj, String.toList_ofList, dotted, chars]
  constructor
  · rintro ⟨stem, text, filled⟩
    refine ⟨String.ofList stem, ?_, by simpa using filled⟩
    rw [← String.toList_inj, String.toList_append, String.toList_ofList, dotted, text]
  · rintro ⟨stem, rfl, filled⟩
    exact ⟨stem.toList, by rw [String.toList_append, dotted], filled⟩

/-! ### Folders and what is below them -/

def Path.below (path : Path) (names : List String) : Path := ⟨path.anchor, path.parts ++ names⟩

theorem child_below (path : Path) (up : List String) (name : String) :
    (path.below up).child name = path.below (up ++ [name]) := by
  simp [Path.below, Path.child]

-- The text of a folder in front of the names in it.
def folderText (up : List String) : String := if up = [] then "" else joined up ++ "/"

theorem joined_append (up names : List String) (filled : names ≠ []) :
    joined (up ++ names) = folderText up ++ joined names := by
  induction up with
  | nil => simp [folderText]
  | cons name up ih =>
      rw [List.cons_append, joined_cons name (up ++ names) (by simp [filled]), ih]
      cases up with
      | nil => simp [folderText, joined_one]
      | cons next up => simp [folderText, joined_cons, String.append_assoc]

theorem joined_begins (front more : List String) (filled : front ≠ []) :
    (joined front).toList <+: (joined (front ++ more)).toList := by
  cases more with
  | nil => simp
  | cons name more =>
      rw [joined_append front _ (by simp), folderText, if_neg filled, String.append_assoc, String.toList_append]
      exact List.prefix_append _ _

theorem folder_text_name (up : List String) (name : String) :
    folderText up ++ name = joined (up ++ [name]) := by
  rw [joined_append up [name] (by simp), joined_one]

theorem folder_text_child (up : List String) (name : String) :
    folderText up ++ name ++ "/" = folderText (up ++ [name]) := by
  rw [folder_text_name, folderText, if_neg (by simp)]

theorem folder_text_below (up : List String) (name : String) (names : List String) (filled : names ≠ []) :
    folderText (up ++ [name]) ++ joined names = folderText up ++ joined (name :: names) := by
  rw [← joined_append _ _ filled, ← joined_append _ _ (by simp), List.append_assoc]
  rfl

-- The names from a folder to a file that the search lists, each folder on the way being entered.
inductive Listed (fs : System) (search : Search) (root : Path) : List String → Node → List String → Prop where
  | file (up : List String) (entries : Entries) (name : String) (node : Node)
      (short : tooLong (root.below up) = false) (member : (name, node) ∈ entries)
      (plain : fs.isPlain (root.below (up ++ [name])) node = true)
      (lists : search.lists (folderText up) name = true) :
      Listed fs search root up (.folder entries) [name]
  | deeper (up : List String) (entries : Entries) (name : String) (node : Node) (names : List String)
      (short : tooLong (root.below up) = false) (member : (name, node) ∈ entries)
      (folder : node.isFolder = true) (enters : search.enters (folderText up) name = true)
      (inner : Listed fs search root (up ++ [name]) node names) :
      Listed fs search root up (.folder entries) (name :: names)

section

variable (fs : System) (search : Search) (root : Path)

theorem listed_filled (up : List String) (node : Node) (names : List String)
    (listed : Listed fs search root up node names) : names ≠ [] := by
  cases listed <;> simp

theorem subfolder_sources_eq (path : Path) (folder : String) (entries : Entries) :
    subfolderSources fs search path folder entries =
      (entries.filter fun e => e.2.isFolder && search.enters folder e.1).map fun e =>
        (e.1, e.2.sources fs search (path.child e.1) (folder ++ e.1 ++ "/")) := by
  induction entries with
  | nil => rfl
  | cons first entries ih =>
      rw [subfolderSources, ih, List.filter_cons]
      split <;> rfl

def subfolders (folder : String) (entries : Entries) : Entries :=
  (entries.filter fun e => e.2.isFolder && search.enters folder e.1).mergeSort fun a b => a.1 ≤ b.1

theorem sources_folder (up : List String) (entries : Entries) :
    (Node.folder entries).sources fs search (root.below up) (folderText up) =
      if tooLong (root.below up) then []
      else
        plainFiles fs search (root.below up) (folderText up) entries ++
          (subfolders search (folderText up) entries).flatMap fun e =>
            e.2.sources fs search (root.below (up ++ [e.1])) (folderText (up ++ [e.1])) := by
  rw [Node.sources, subfolder_sources_eq, ← List.map_mergeSort (by intros; rfl), List.flatMap_map]
  simp only [child_below, folder_text_child]
  rfl

theorem plain_file_iff (up : List String) (entries : Entries) (p : String) :
    p ∈ plainFiles fs search (root.below up) (folderText up) entries ↔
      ∃ name node, p = folderText up ++ name ∧ (name, node) ∈ entries ∧
        fs.isPlain (root.below (up ++ [name])) node = true ∧ search.lists (folderText up) name = true := by
  simp only [plainFiles, child_below, List.mem_map, List.mem_filter, List.mem_mergeSort]
  constructor
  · rintro ⟨name, ⟨⟨⟨same, node⟩, ⟨member, plain⟩, rfl⟩, lists⟩, rfl⟩
    exact ⟨same, node, rfl, member, plain, lists⟩
  · rintro ⟨name, node, rfl, member, plain, lists⟩
    exact ⟨name, ⟨⟨(name, node), ⟨member, plain⟩, rfl⟩, lists⟩, rfl⟩

theorem subfolder_iff (folder : String) (entries : Entries) (e : String × Node) :
    e ∈ subfolders search folder entries ↔
      e ∈ entries ∧ e.2.isFolder = true ∧ search.enters folder e.1 = true := by
  rw [subfolders, List.mem_mergeSort, List.mem_filter, Bool.and_eq_true]

theorem sources_iff (node : Node) (proper : node.Proper) (up : List String) (p : String) :
    p ∈ node.sources fs search (root.below up) (folderText up) ↔
      ∃ names, p = folderText up ++ joined names ∧ Listed fs search root up node names := by
  induction proper generalizing up with
  | file bytes =>
      constructor
      · rw [Node.sources]
        intro member
        cases member
      · rintro ⟨names, -, ⟨⟩⟩
  | link target =>
      constructor
      · rw [Node.sources]
        intro member
        cases member
      · rintro ⟨names, -, ⟨⟩⟩
  | folder entries distinct valid nodes ih =>
      rw [sources_folder]
      constructor
      · intro member
        split at member
        · cases member
        · rename_i short
          rw [Bool.not_eq_true] at short
          rcases List.mem_append.mp member with plain | deeper
          · obtain ⟨name, node, rfl, member, plain, lists⟩ := (plain_file_iff fs search root up entries p).mp plain
            exact ⟨[name], by rw [joined_one], .file up entries name node short member plain lists⟩
          · obtain ⟨⟨name, node⟩, entered, inner⟩ := List.mem_flatMap.mp deeper
            obtain ⟨inside, folder, enters⟩ := (subfolder_iff search _ entries _).mp entered
            obtain ⟨names, rfl, listed⟩ := (ih (name, node) inside (up ++ [name])).mp inner
            have filled := listed_filled fs search root _ node names listed
            exact ⟨name :: names, folder_text_below up name names filled,
              .deeper up entries name node names short inside folder enters listed⟩
      · rintro ⟨names, rfl, listed⟩
        cases listed with
        | file _ _ name node short member plain lists =>
            rw [short, if_neg (by simp), List.mem_append, joined_one]
            exact .inl ((plain_file_iff fs search root up entries _).mpr ⟨name, node, rfl, member, plain, lists⟩)
        | deeper _ _ name node names short member folder enters inner =>
            rw [short, if_neg (by simp), List.mem_append]
            have entered := (subfolder_iff search (folderText up) entries (name, node)).mpr ⟨member, folder, enters⟩
            refine .inr (List.mem_flatMap.mpr ⟨(name, node), entered, ?_⟩)
            have filled := listed_filled fs search root _ node names inner
            exact (ih (name, node) member (up ++ [name])).mpr
              ⟨names, (folder_text_below up name names filled).symm, inner⟩

/-! ### The files found, in closed form -/

structure Admitted (up : List String) (node : Node) (names : List String) : Prop where
  entry : ∃ leaf, node.descend names = some leaf ∧ fs.isPlain (root.below (up ++ names)) leaf = true
  source : ∃ name ∈ names.getLast?, search.extensions.contains (extension name) = true
  entered : ∀ name ∈ names.dropLast, search.ignoredFolders.contains name = false
  kept : ∀ front, front ≠ [] → front <+: names → search.exclude.contains (joined (up ++ front)) = false
  short : ∀ front, front <+: names → front ≠ names → tooLong (root.below (up ++ front)) = false

theorem lists_iff (up : List String) (name : String) :
    search.lists (folderText up) name = true ↔
      search.exclude.contains (joined (up ++ [name])) = false ∧
        search.extensions.contains (extension name) = true := by
  rw [Search.lists, folder_text_name, Bool.and_eq_true, Bool.not_eq_true']

theorem enters_iff (up : List String) (name : String) :
    search.enters (folderText up) name = true ↔
      search.ignoredFolders.contains name = false ∧
        search.exclude.contains (joined (up ++ [name])) = false := by
  rw [Search.enters, folder_text_name, Bool.and_eq_true, Bool.not_eq_true', Bool.not_eq_true']

theorem listed_admitted (up : List String) (node : Node) (names : List String) (proper : node.Proper)
    (listed : Listed fs search root up node names) : Admitted fs search root up node names := by
  induction listed with
  | file up entries name node short member plain lists =>
      obtain ⟨kept, source⟩ := (lists_iff search up name).mp lists
      cases proper with
      | folder _ distinct valid nodes =>
          refine ⟨⟨node, ?_, plain⟩, ⟨name, rfl, source⟩, by simp, ?_, ?_⟩
          · simp [Node.descend, entry_get entries distinct name node member]
          · intro front filled begins
            obtain ⟨rest, rfl, tail⟩ := (List.prefix_cons_iff.mp begins).resolve_left filled
            exact List.prefix_nil.mp tail ▸ kept
          · intro front begins other
            rcases List.prefix_cons_iff.mp begins with rfl | ⟨rest, rfl, tail⟩
            · simpa using short
            · exact absurd (List.prefix_nil.mp tail ▸ rfl) other
  | deeper up entries name node names short member folder enters inner ih =>
      obtain ⟨plainName, kept⟩ := (enters_iff search up name).mp enters
      have filled := listed_filled fs search root _ node names inner
      cases proper with
      | folder _ distinct valid nodes =>
          obtain ⟨⟨leaf, found, plain⟩, source, entered, keeps, shorts⟩ := ih (nodes (name, node) member)
          simp only [List.append_assoc, List.singleton_append] at plain keeps shorts
          refine ⟨⟨leaf, ?_, plain⟩, ?_, ?_, ?_, ?_⟩
          · simp [Node.descend, entry_get entries distinct name node member, found]
          · rw [List.getLast?_cons_of_ne_nil filled]
            exact source
          · rw [List.dropLast_cons_of_ne_nil filled, List.forall_mem_cons]
            exact ⟨plainName, entered⟩
          · intro front nonempty begins
            obtain ⟨rest, rfl, tail⟩ := (List.prefix_cons_iff.mp begins).resolve_left nonempty
            by_cases one : rest = []
            · exact one ▸ kept
            · exact keeps rest one tail
          · intro front begins other
            rcases List.prefix_cons_iff.mp begins with rfl | ⟨rest, rfl, tail⟩
            · simpa using short
            · exact shorts rest tail (fun same => other (congrArg (List.cons name) same))

theorem admitted_listed (up : List String) (node : Node) (names : List String)
    (admitted : Admitted fs search root up node names) : Listed fs search root up node names := by
  induction names generalizing up node with
  | nil =>
      obtain ⟨name, last, -⟩ := admitted.source
      cases last
  | cons name names ih =>
      obtain ⟨⟨leaf, found, plain⟩, source, entered, kept, short⟩ := admitted
      have within : tooLong (root.below up) = false := by
        have here := short [] List.nil_prefix (by simp)
        simpa using here
      cases node with
      | file bytes => cases found
      | link target => cases found
      | folder entries =>
          obtain ⟨node, here, further⟩ := Option.bind_eq_some_iff.mp found
          have member := get_entry entries name node here
          have free := kept [name] (by simp) (by simp)
          by_cases last : names = []
          · subst last
            cases further
            obtain ⟨_, ⟨⟩, php⟩ := source
            exact .file up entries name leaf within member plain ((lists_iff search up name).mpr ⟨free, php⟩)
          · rw [List.dropLast_cons_of_ne_nil last, List.forall_mem_cons] at entered
            have enters := (enters_iff search up name).mpr ⟨entered.1, free⟩
            have folder : node.isFolder = true := by
              cases node with
              | folder inner => rfl
              | file bytes =>
                  obtain ⟨next, rest, rfl⟩ := List.exists_cons_of_ne_nil last
                  cases further
              | link target =>
                  obtain ⟨next, rest, rfl⟩ := List.exists_cons_of_ne_nil last
                  cases further
            apply Listed.deeper up entries name node names within member folder enters
            apply ih
            refine ⟨⟨leaf, further, ?_⟩, ?_, entered.2, ?_, ?_⟩
            · simpa using plain
            · rwa [List.getLast?_cons_of_ne_nil last] at source
            · intro front filled begins
              have free := kept (name :: front) (by simp) (List.prefix_cons_inj name |>.mpr begins)
              simpa using free
            · intro front begins other
              have here := short (name :: front) (List.prefix_cons_inj name |>.mpr begins) (by simpa using other)
              simpa using here

/-! ### The order of the files found -/

theorem sorted_by_name {α : Type} (key : α → String) (l : List α) (distinct : (l.map key).Nodup) :
    (l.mergeSort fun a b => key a ≤ key b).Pairwise fun a b => key a < key b := by
  have sorted : (l.mergeSort fun a b => key a ≤ key b).Pairwise fun a b => decide (key a ≤ key b) = true := by
    apply List.pairwise_mergeSort
    · intro a b c first second
      rw [decide_eq_true_eq] at *
      exact first.trans second
    · intro a b
      simpa using le_total (key a) (key b)
  have different : ((l.mergeSort fun a b => key a ≤ key b).map key).Nodup :=
    ((List.mergeSort_perm l _).map key).nodup_iff.mpr distinct
  rw [List.Nodup, List.pairwise_map] at different
  apply (sorted.and different).imp
  rintro a b ⟨le, ne⟩
  exact lt_of_le_of_ne (of_decide_eq_true le) ne

def ProperNames (names : List String) : Prop := ∀ name ∈ names, properName name = true

def InOrder (up : List String) (p q : String) : Prop :=
  ∃ a b, p = folderText up ++ joined a ∧ q = folderText up ++ joined b ∧ ProperNames a ∧ ProperNames b ∧
    Precedes a b

theorem plain_files_ordered (up : List String) (entries : Entries) (distinct : (entries.map (·.1)).Nodup)
    (valid : ∀ e ∈ entries, properName e.1 = true) :
    (plainFiles fs search (root.below up) (folderText up) entries).Pairwise (InOrder up) := by
  rw [plainFiles, List.pairwise_map]
  apply List.Pairwise.filter
  have names := sorted_by_name id
    ((entries.filter fun e => fs.isPlain ((root.below up).child e.1) e.2).map (·.1))
    (by rw [List.map_id]; exact distinct.sublist (List.filter_sublist.map _))
  have proper : ∀ name ∈ ((entries.filter fun e => fs.isPlain ((root.below up).child e.1) e.2).map
      (·.1)).mergeSort (fun a b => id a ≤ id b), ProperNames [name] := by
    intro name member
    obtain ⟨e, inside, rfl⟩ := List.mem_map.mp (List.mem_mergeSort.mp member)
    exact List.forall_mem_singleton.mpr (valid e (List.mem_of_mem_filter inside))
  refine List.Pairwise.imp_of_mem ?_ names
  intro a b first second less
  exact ⟨[a], [b], by rw [joined_one], by rw [joined_one], proper a first, proper b second, less⟩

theorem in_order_below (up : List String) (name p q : String) (valid : properName name = true)
    (ordered : InOrder (up ++ [name]) p q) : InOrder up p q := by
  obtain ⟨a, b, rfl, rfl, proper, also, first⟩ := ordered
  obtain ⟨filled, nonempty⟩ := precedes_filled a b first
  exact ⟨name :: a, name :: b, folder_text_below up name a filled, folder_text_below up name b nonempty,
    List.forall_mem_cons.mpr ⟨valid, proper⟩, List.forall_mem_cons.mpr ⟨valid, also⟩,
    precedes_cons name a b first⟩

theorem listed_proper (up : List String) (node : Node) (names : List String) (proper : node.Proper)
    (listed : Listed fs search root up node names) : ProperNames names := by
  obtain ⟨leaf, found, -⟩ := (listed_admitted fs search root up node names proper listed).entry
  exact (descend_proper node proper names leaf found).2

theorem sources_ordered (node : Node) (proper : node.Proper) (up : List String) :
    (node.sources fs search (root.below up) (folderText up)).Pairwise (InOrder up) := by
  induction proper generalizing up with
  | file bytes =>
      rw [Node.sources]
      exact .nil
  | link target =>
      rw [Node.sources]
      exact .nil
  | folder entries distinct valid nodes ih =>
      -- what is below a subfolder, by its names from here on
      have inside : ∀ e ∈ subfolders search (folderText up) entries, ∀ p ∈
          e.2.sources fs search (root.below (up ++ [e.1])) (folderText (up ++ [e.1])),
          ∃ next names, p = folderText up ++ joined (e.1 :: next :: names) ∧
            ProperNames (e.1 :: next :: names) := by
        intro e entered p member
        have inside := ((subfolder_iff search _ entries e).mp entered).1
        obtain ⟨names, rfl, listed⟩ := (sources_iff fs search root e.2 (nodes e inside) (up ++ [e.1]) p).mp member
        have filled := listed_filled fs search root _ e.2 names listed
        have proper := listed_proper fs search root _ e.2 names (nodes e inside) listed
        obtain ⟨next, rest, rfl⟩ := List.exists_cons_of_ne_nil filled
        exact ⟨next, rest, folder_text_below up e.1 _ filled, List.forall_mem_cons.mpr ⟨valid e inside, proper⟩⟩
      rw [sources_folder]
      split
      · exact .nil
      rw [List.pairwise_append, List.pairwise_flatMap]
      refine ⟨plain_files_ordered fs search root up entries distinct valid, ⟨?_, ?_⟩, ?_⟩
      · intro e entered
        have member := ((subfolder_iff search _ entries e).mp entered).1
        exact (ih e member (up ++ [e.1])).imp fun {p q} => in_order_below up e.1 p q (valid e member)
      · have names := sorted_by_name (fun e : String × Node => e.1)
          (entries.filter fun e => e.2.isFolder && search.enters (folderText up) e.1)
          (distinct.sublist (List.filter_sublist.map _))
        refine List.Pairwise.imp_of_mem ?_ names
        intro a b first second less p here q there
        obtain ⟨next, names, rfl, proper⟩ := inside a first p here
        obtain ⟨other, others, rfl, also⟩ := inside b second q there
        exact ⟨_, _, rfl, rfl, proper, also, .inl less⟩
      · intro p plain q deeper
        obtain ⟨name, node, rfl, here, -⟩ := (plain_file_iff fs search root up entries p).mp plain
        obtain ⟨e, entered, member⟩ := List.mem_flatMap.mp deeper
        obtain ⟨next, names, rfl, proper⟩ := inside e entered q member
        exact ⟨[name], _, by rw [joined_one], rfl, List.forall_mem_singleton.mpr (valid (name, node) here),
          proper, trivial⟩

end

end DocAudit.File
