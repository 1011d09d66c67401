import DocAudit.Proofs.File.Walk
import Mathlib.Algebra.GroupWithZero.Nat
import Mathlib.Data.List.Infix

/-!
Discovery returns the source files below a directory that no exclude entry and no hidden folder
covers, each once and in the order of the walk, as far as the paths of their folders can be used.
-/

set_option autoImplicit false

namespace DocAudit.File

-- A file, or a link that does not lead to a folder.
def IsFile (fs : System) (path : Path) : Node → Prop
  | .file _ => True
  | .folder _ => False
  | .link _ => ¬ ∃ place, fs.resolve path = .ok place ∧ fs.isFolderAt place = true

theorem is_plain_iff (fs : System) (path : Path) (node : Node) :
    fs.isPlain path node = true ↔ IsFile fs path node := by
  cases node with
  | file bytes => simp [System.isPlain, IsFile]
  | folder entries => simp [System.isPlain, IsFile]
  | link target =>
      rw [System.isPlain, IsFile]
      cases fs.resolve path <;> simp

structure Wanted (fs : System) (excluded : List String) (root : Path) (top : Node) (names : List String) :
    Prop where
  entry : ∃ node, top.descend names = some node ∧ IsFile fs (root.below names) node
  source : ∃ folders name, names = folders ++ [name] ∧ SourceName name
  unhidden : ∀ name ∈ names.dropLast, name ∉ [".git", ".hg", ".svn"]
  kept : ∀ front, front ≠ [] → front <+: names → joined front ∉ excluded

-- Every folder on the way has a path that is short enough to be listed by.
def Reachable (root : Path) (names : List String) : Prop :=
  ∀ front, front <+: names → front ≠ names → Text.Utf8.size (root.below front).text < pathLimit

-- No part of the path from its beginning is excluded.
def keeps (excluded : List String) (path : String) : Bool :=
  (components path).inits.all fun front => front.isEmpty || !excluded.contains (joined front)

theorem keeps_iff (excluded : List String) (p : String) : keeps excluded p = true ↔
    ∀ front, front ≠ [] → front <+: components p → joined front ∉ excluded := by
  simp only [keeps, List.all_eq_true, List.mem_inits, Bool.or_eq_true, List.isEmpty_iff, Bool.not_eq_true',
    List.contains_eq_mem, decide_eq_false_iff_not]
  constructor
  · intro all front filled begins
    exact (all front begins).resolve_left filled
  · intro all front begins
    exact or_iff_not_imp_left.mpr fun filled => all front filled begins

section

variable (fs : System) (excluded : List String) (root : Path) (top : Node)

theorem admitted_wanted (names : List String) :
    Admitted fs { exclude := excluded } root [] top names ↔
      Wanted fs excluded root top names ∧ Reachable root names := by
  have short : ∀ path : Path, tooLong path = false ↔ Text.Utf8.size path.text < pathLimit := by
    intro path
    rw [tooLong, decide_eq_false_iff_not, Nat.not_le]
  have source : (∃ name ∈ names.getLast?, [".php"].contains (extension name) = true) ↔
      ∃ folders name, names = folders ++ [name] ∧ SourceName name := by
    constructor
    · rintro ⟨name, last, php⟩
      obtain ⟨folders, rfl⟩ := List.getLast?_eq_some_iff.mp last
      exact ⟨folders, name, rfl, (extension_source name).mp (by simpa using php)⟩
    · rintro ⟨folders, name, rfl, php⟩
      exact ⟨name, by simp, by simpa using (extension_source name).mpr php⟩
  constructor
  · intro admitted
    obtain ⟨node, found, plain⟩ := admitted.entry
    refine ⟨⟨⟨node, found, (is_plain_iff fs _ node).mp plain⟩, source.mp admitted.source, ?_, ?_⟩, ?_⟩
    · intro name member
      simpa using admitted.entered name member
    · intro front filled begins
      simpa using admitted.kept front filled begins
    · intro front begins other
      exact (short _).mp (admitted.short front begins other)
  · rintro ⟨wanted, reachable⟩
    obtain ⟨node, found, file⟩ := wanted.entry
    refine ⟨⟨node, found, (is_plain_iff fs _ node).mpr file⟩, source.mpr wanted.source, ?_, ?_, ?_⟩
    · intro name member
      simpa using wanted.unhidden name member
    · intro front filled begins
      simpa using wanted.kept front filled begins
    · intro front begins other
      exact (short _).mpr (reachable front begins other)

variable (proper : top.Proper)

include proper

theorem found_iff (p : String) :
    p ∈ top.sources fs { exclude := excluded } (root.below []) (folderText []) ↔
      Wanted fs excluded root top (components p) ∧ Reachable root (components p) := by
  rw [sources_iff fs _ root top proper []]
  constructor
  · rintro ⟨names, text, listed⟩
    have admitted := listed_admitted fs _ root [] top names proper listed
    have slashless : ∀ name ∈ names, '/' ∉ name.toList := fun name member =>
      proper_name_slash name (listed_proper fs _ root [] top names proper listed name member)
    have same : components p = names := by
      rw [text, folderText, if_pos rfl, String.empty_append]
      exact components_joined names (listed_filled fs _ root [] top names listed) slashless
    rw [same]
    exact (admitted_wanted fs excluded root top names).mp admitted
  · intro wanted
    refine ⟨components p, ?_, ?_⟩
    · rw [folderText, if_pos rfl, String.empty_append, joined_components]
    · exact admitted_listed fs _ root [] top _ ((admitted_wanted fs excluded root top _).mpr wanted)

theorem found_ordered :
    (top.sources fs { exclude := excluded } (root.below []) (folderText [])).Pairwise fun p q =>
      Precedes (components p) (components q) := by
  apply (sources_ordered fs _ root top proper []).imp
  rintro p q ⟨a, b, rfl, rfl, first, second, ordered⟩
  obtain ⟨filled, also⟩ := precedes_filled a b ordered
  rw [folderText, if_pos rfl, String.empty_append, String.empty_append,
    components_joined a filled fun name member => proper_name_slash name (first name member),
    components_joined b also fun name member => proper_name_slash name (second name member)]
  exact ordered

theorem found_nodup : (top.sources fs { exclude := excluded } (root.below []) (folderText [])).Nodup := by
  apply (found_ordered fs excluded root top proper).imp
  rintro p q ordered rfl
  exact precedes_asymm _ _ ordered ordered

-- Both walks go in the one order, so it is enough that they find the same.
theorem found_filtered :
    top.sources fs { exclude := excluded } (root.below []) (folderText []) =
      (top.sources fs {} (root.below []) (folderText [])).filter (keeps excluded) := by
  have ordered := found_ordered fs excluded root top proper
  have all := (found_ordered fs [] root top proper).filter (keeps excluded)
  refine List.Perm.eq_of_pairwise ?_ ordered all ?_
  · intro p q _ _ first second
    exact absurd second (precedes_asymm _ _ first)
  · apply (List.perm_ext_iff_of_nodup (found_nodup fs excluded root top proper)
      ((found_nodup fs [] root top proper).filter _)).mpr
    intro p
    rw [List.mem_filter, found_iff fs excluded root top proper, found_iff fs [] root top proper, keeps_iff]
    constructor
    · rintro ⟨wanted, reachable⟩
      exact ⟨⟨⟨wanted.entry, wanted.source, wanted.unhidden, by simp⟩, reachable⟩, wanted.kept⟩
    · rintro ⟨⟨wanted, reachable⟩, kept⟩
      exact ⟨⟨wanted.entry, wanted.source, wanted.unhidden, kept⟩, reachable⟩

end

/-! ### Discovery -/

theorem folder_place (fs : System) (root : Path) (place : List String)
    (folder : fs.folder? root = .ok (some place)) :
    root.hasNul = false ∧ ∃ entries, fs.node? place = some (.folder entries) := by
  rw [System.folder?] at folder
  split at folder
  · cases folder
  rename_i nulless
  refine ⟨Bool.eq_false_iff.mpr nulless, ?_⟩
  cases resolved : fs.resolve root with
  | error cause =>
      rw [resolved] at folder
      cases cause <;> cases folder
  | ok found =>
      rw [resolved] at folder
      dsimp only at folder
      split at folder
      · rename_i isFolder
        cases folder
        obtain ⟨node, here, folder⟩ := (Option.any_eq_true _ _).mp isFolder
        cases node with
        | folder entries => exact ⟨entries, here⟩
        | file bytes => cases folder
        | link target => cases folder
      · cases folder

theorem discover_sources (fs : System) (root : Path) (exclude place : List String) (top : Node)
    (folder : fs.folder? root = .ok (some place)) (node : fs.node? place = some top) :
    fs.discover root exclude = .ok
      (top.sources fs { exclude := normalizeExcludes exclude } (root.walked.below []) (folderText [])) := by
  have path : root.walked.below [] = root.walked := by simp [Path.below]
  rw [System.discover, System.sources, folder]
  dsimp only
  rw [node, path]
  rfl

theorem size_append (a b : String) : Text.Utf8.size (a ++ b) = Text.Utf8.size a + Text.Utf8.size b := by
  simp [Text.Utf8.size, Text.Utf8.encode, Text.Utf8.encodeChars]

theorem relative_text (parts : List String) (filled : 0 < Text.Utf8.size (joined parts)) :
    Path.text ⟨.relative, parts⟩ = joined parts := by
  have text : Anchor.relative.text ++ String.intercalate "/" parts = joined parts := by
    simp [Anchor.text, joined]
  rw [Path.text]
  dsimp only
  rw [text, if_neg]
  intro empty
  rw [empty] at filled
  exact absurd filled (by decide)

-- As long as a name can be.
def longName : String := String.ofList (List.replicate nameLimit 'n')

theorem long_name_size : Text.Utf8.size longName = nameLimit := by
  have one : (Text.Utf8.encodeChar 'n').length = 1 := by decide
  simp [longName, Text.Utf8.size, Text.Utf8.encode, Text.Utf8.encodeChars, List.flatMap_replicate, one]

theorem long_name_proper : properName longName = true := by
  have only : ∀ c, c ≠ 'n' → c ∉ longName.toList := by
    intro c other
    rw [longName, String.toList_ofList, List.mem_replicate]
    exact fun member => other member.2
  simp [properName, only '/' (by decide), only Path.nul (by decide)]

end DocAudit.File
