import DocAudit.File.Discovery
import Mathlib.Data.String.Basic

/-!
Trees as a file system holds them, the paths of what is in them, and the order in which a walk
comes upon these paths.
-/

set_option autoImplicit false

namespace DocAudit.File

def properName (name : String) : Bool := !name.toList.contains '/' && !name.toList.contains Path.nul

-- Every folder names each of its entries once.
inductive Node.Proper : Node → Prop where
  | file (bytes : List UInt8) : Proper (.file bytes)
  | link (target : String) : Proper (.link target)
  | folder (entries : List (String × Node)) (distinct : (entries.map (·.1)).Nodup)
      (names : ∀ e ∈ entries, properName e.1 = true) (nodes : ∀ e ∈ entries, Proper e.2) :
      Proper (.folder entries)

theorem proper_name_slash (name : String) (proper : properName name = true) : '/' ∉ name.toList := by
  rw [properName, Bool.and_eq_true] at proper
  simpa using proper.1

theorem proper_name_nul (name : String) (proper : properName name = true) : Path.nul ∉ name.toList := by
  rw [properName, Bool.and_eq_true] at proper
  simpa using proper.2

theorem get_entry (entries : Entries) (name : String) (node : Node)
    (found : Entries.get? entries name = some node) : (name, node) ∈ entries := by
  obtain ⟨⟨other, same⟩, first, rfl⟩ := Option.map_eq_some_iff.mp found
  have named := List.find?_some first
  have member := List.mem_of_find?_eq_some first
  rw [beq_iff_eq] at named
  exact named ▸ member

theorem entry_get (entries : Entries) (distinct : (entries.map (·.1)).Nodup) (name : String) (node : Node)
    (member : (name, node) ∈ entries) : Entries.get? entries name = some node := by
  induction entries with
  | nil => cases member
  | cons first rest ih =>
      rw [List.map_cons, List.nodup_cons] at distinct
      rcases List.mem_cons.mp member with rfl | later
      · simp [Entries.get?]
      · have other : first.1 ≠ name := by
          rintro rfl
          exact distinct.1 (List.mem_map_of_mem (f := (·.1)) later)
        have found := ih distinct.2 later
        rw [Entries.get?] at found ⊢
        rw [List.find?_cons_of_neg (by simpa using other)]
        exact found

theorem descend_proper (node : Node) (proper : node.Proper) (names : List String) (inner : Node)
    (found : node.descend names = some inner) :
    inner.Proper ∧ ∀ name ∈ names, properName name = true := by
  induction proper generalizing names with
  | file bytes =>
      cases names with
      | nil => exact ⟨Option.some.inj found ▸ .file bytes, by simp⟩
      | cons name names => cases found
  | link target =>
      cases names with
      | nil => exact ⟨Option.some.inj found ▸ .link target, by simp⟩
      | cons name names => cases found
  | folder entries distinct valid nodes ih =>
      cases names with
      | nil => exact ⟨Option.some.inj found ▸ .folder entries distinct valid nodes, by simp⟩
      | cons name names =>
          obtain ⟨node, here, further⟩ := Option.bind_eq_some_iff.mp found
          have member := get_entry entries name node here
          obtain ⟨proper, rest⟩ := ih (name, node) member names further
          exact ⟨proper, List.forall_mem_cons.mpr ⟨valid (name, node) member, rest⟩⟩

-- No entry has a name that stands for a folder itself or for the folder around it.
inductive Node.Undotted : Node → Prop where
  | file (bytes : List UInt8) : Undotted (.file bytes)
  | link (target : String) : Undotted (.link target)
  | folder (entries : List (String × Node)) (names : ∀ e ∈ entries, e.1 ≠ "." ∧ e.1 ≠ "..")
      (nodes : ∀ e ∈ entries, Undotted e.2) : Undotted (.folder entries)

theorem descend_undotted (node : Node) (undotted : node.Undotted) (names : List String) (inner : Node)
    (found : node.descend names = some inner) : inner.Undotted ∧ ∀ name ∈ names, name ≠ "." := by
  induction undotted generalizing names with
  | file bytes =>
      cases names with
      | nil => exact ⟨Option.some.inj found ▸ .file bytes, by simp⟩
      | cons name names => cases found
  | link target =>
      cases names with
      | nil => exact ⟨Option.some.inj found ▸ .link target, by simp⟩
      | cons name names => cases found
  | folder entries valid nodes ih =>
      cases names with
      | nil => exact ⟨Option.some.inj found ▸ .folder entries valid nodes, by simp⟩
      | cons name names =>
          obtain ⟨node, here, further⟩ := Option.bind_eq_some_iff.mp found
          have member := get_entry entries name node here
          obtain ⟨undotted, rest⟩ := ih (name, node) member names further
          exact ⟨undotted, List.forall_mem_cons.mpr ⟨(valid (name, node) member).1, rest⟩⟩

theorem descend_append (node : Node) (front back : List String) :
    node.descend (front ++ back) = (node.descend front).bind (·.descend back) := by
  induction front generalizing node with
  | nil => rfl
  | cons name front ih =>
      cases node with
      | folder entries =>
          rw [List.cons_append, Node.descend, Node.descend, Option.bind_assoc]
          exact congrArg _ (funext fun node => ih node)
      | file bytes => rfl
      | link target => rfl

/-! ### Paths and their components -/

def joined (names : List String) : String := String.intercalate "/" names

def components (path : String) : List String := Text.split '/' path

theorem joined_one (name : String) : joined [name] = name := String.intercalate_singleton

theorem joined_cons (name : String) (names : List String) (filled : names ≠ []) :
    joined (name :: names) = name ++ "/" ++ joined names := by
  cases names with
  | nil => exact absurd rfl filled
  | cons next names => exact String.intercalate_cons_cons

theorem split_chars_ne_nil (sep : Char) (s : List Char) : Text.splitChars sep s ≠ [] := by
  cases s with
  | nil => simp [Text.splitChars]
  | cons c s =>
      rw [Text.splitChars]
      split
      · simp
      · split <;> simp

theorem split_chars_apart (sep : Char) (s : List Char) : ∀ piece ∈ Text.splitChars sep s, sep ∉ piece := by
  induction s with
  | nil => simp [Text.splitChars]
  | cons c s ih =>
      rw [Text.splitChars]
      split
      · exact List.forall_mem_cons.mpr ⟨List.not_mem_nil, ih⟩
      · rename_i other
        cases pieces : Text.splitChars sep s with
        | nil => exact absurd pieces (split_chars_ne_nil sep s)
        | cons piece rest =>
            rw [pieces, List.forall_mem_cons] at ih
            refine List.forall_mem_cons.mpr ⟨?_, ih.2⟩
            rw [List.mem_cons, not_or]
            exact ⟨Ne.symm other, ih.1⟩

theorem split_chars_one (sep : Char) (s : List Char) (absent : sep ∉ s) : Text.splitChars sep s = [s] := by
  induction s with
  | nil => rfl
  | cons c s ih =>
      rw [List.mem_cons, not_or] at absent
      rw [Text.splitChars, if_neg (Ne.symm absent.1), ih absent.2]

theorem split_chars_cons (sep : Char) (s rest : List Char) (absent : sep ∉ s) :
    Text.splitChars sep (s ++ sep :: rest) = s :: Text.splitChars sep rest := by
  induction s with
  | nil => simp [Text.splitChars]
  | cons c s ih =>
      rw [List.mem_cons, not_or] at absent
      rw [List.cons_append, Text.splitChars, if_neg (Ne.symm absent.1), ih absent.2]

theorem split_chars_intercalate (sep : Char) (pieces : List (List Char)) (filled : pieces ≠ [])
    (absent : ∀ piece ∈ pieces, sep ∉ piece) : Text.splitChars sep ([sep].intercalate pieces) = pieces := by
  induction pieces with
  | nil => exact absurd rfl filled
  | cons piece pieces ih =>
      rw [List.forall_mem_cons] at absent
      cases pieces with
      | nil => rw [List.intercalate_singleton, split_chars_one sep piece absent.1]
      | cons next pieces =>
          rw [List.intercalate_cons_cons, List.append_assoc, List.singleton_append, split_chars_cons sep _ _ absent.1,
            ih (by simp) absent.2]

theorem split_intercalate (sep : Char) (between : String) (texts : List String) (single : between.toList = [sep])
    (filled : texts ≠ []) (absent : ∀ text ∈ texts, sep ∉ text.toList) :
    Text.split sep (String.intercalate between texts) = texts := by
  have pieces := split_chars_intercalate sep (texts.map String.toList) (by simpa using filled)
    (List.forall_mem_map.mpr absent)
  rw [Text.split, String.toList_intercalate, single, pieces, List.map_map]
  have same : String.ofList ∘ String.toList = id := funext fun _ => String.ofList_toList
  rw [same, List.map_id]

theorem components_joined (names : List String) (filled : names ≠ [])
    (slashless : ∀ name ∈ names, '/' ∉ name.toList) : components (joined names) = names :=
  split_intercalate '/' "/" names rfl filled slashless

theorem components_apart (path : String) : ∀ name ∈ components path, '/' ∉ name.toList := by
  intro name member
  obtain ⟨piece, inside, rfl⟩ := List.mem_map.mp member
  rw [String.toList_ofList]
  exact split_chars_apart '/' path.toList piece inside

theorem components_filled (path : String) : components path ≠ [] := by
  rw [components, Text.split, Ne, List.map_eq_nil_iff]
  exact split_chars_ne_nil '/' path.toList

theorem intercalate_split (sep : Char) (s : List Char) :
    [sep].intercalate (Text.splitChars sep s) = s := by
  induction s with
  | nil => rfl
  | cons c s ih =>
      rw [Text.splitChars]
      cases pieces : Text.splitChars sep s with
      | nil => exact absurd pieces (split_chars_ne_nil sep s)
      | cons piece rest =>
          rw [pieces] at ih
          split
          · rename_i same
            rw [List.intercalate_cons_cons, ih, same]
            rfl
          · cases rest with
            | nil =>
                rw [List.intercalate_singleton] at ih ⊢
                rw [ih]
            | cons next rest =>
                rw [List.intercalate_cons_cons] at ih ⊢
                rw [← ih]
                rfl

theorem joined_components (path : String) : joined (components path) = path := by
  have text : (joined (components path)).toList = path.toList := by
    rw [joined, components, Text.split, String.toList_intercalate, List.map_map]
    have same : String.toList ∘ String.ofList = id := funext fun _ => String.toList_ofList
    rw [same, List.map_id]
    exact intercalate_split '/' path.toList
  exact String.toList_inj.mp text

/-! ### The order of a walk -/

-- The files of a folder come first, in the order of their names, and then all that is in its
-- subfolders, in the order of theirs.
def Precedes : List String → List String → Prop
  | [a], [b] => a < b
  | [_], _ :: _ :: _ => True
  | a :: c :: as, b :: d :: bs => a < b ∨ a = b ∧ Precedes (c :: as) (d :: bs)
  | _, _ => False

theorem precedes_asymm (a b : List String) (first : Precedes a b) : ¬ Precedes b a := by
  fun_induction Precedes a b with
  | case1 a b =>
      rw [Precedes]
      exact lt_asymm first
  | case2 a b d bs =>
      intro last
      exact last
  | case3 a c as b d bs ih =>
      rw [Precedes, not_or, not_and]
      rcases first with less | ⟨same, rest⟩
      · exact ⟨lt_asymm less, fun same => absurd less (same ▸ lt_irrefl a)⟩
      · exact ⟨same ▸ lt_irrefl a, fun _ => ih rest⟩
  | case4 => cases first

theorem precedes_cons (name : String) (a b : List String) (first : Precedes a b) :
    Precedes (name :: a) (name :: b) := by
  cases a with
  | nil => cases b <;> cases first
  | cons c a =>
      cases b with
      | nil => cases a <;> cases first
      | cons d b => exact .inr ⟨rfl, first⟩

theorem precedes_filled (a b : List String) (first : Precedes a b) : a ≠ [] ∧ b ≠ [] := by
  cases a with
  | nil => cases b <;> cases first
  | cons c a =>
      cases b with
      | nil => cases a <;> cases first
      | cons d b => simp

end DocAudit.File
