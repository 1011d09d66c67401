import DocAudit.Json.Writer
import DocAudit.Proofs.Json.Reading
import Mathlib.Order.Nat

/-!
Limits, said of values. A writer comes to the end of a value when every integer in it is short enough
and its nesting is not too deep, and gives the reason where it does not. Values within the limits of a
reader are admitted by it, in any order of their fields.
-/

set_option autoImplicit false

namespace DocAudit.Json

open Number

def shortInteger (d : Dialect) : Json → Bool
  | .int n => d.admitsDigits (natDigits n.natAbs).length
  | _ => true

mutual

-- How many levels of nesting a value takes with what is in it.
def levels (l : Layout) : Json → Nat
  | .arr items => l.level (.arr items) + itemLevels l items
  | .obj fields => l.level (.obj fields) + fieldLevels l fields
  | j => l.level j

def itemLevels (l : Layout) : List Json → Nat
  | [] => 0
  | j :: js => max (levels l j) (itemLevels l js)

def fieldLevels (l : Layout) : List (String × Json) → Nat
  | [] => 0
  | (_, j) :: fields => max (levels l j) (fieldLevels l fields)

end

structure Within (d : Dialect) (l : Layout) (j : Json) : Prop where
  digits : j.everywhere (shortInteger d) = true
  depth : d.admitsDepth (j.levels l) = true

/-! ### Levels -/

section

variable (d : Dialect) (l : Layout)

theorem admits_less (depth deeper : Nat) (le : depth ≤ deeper) (admitted : d.admitsDepth deeper = true) :
    d.admitsDepth depth = true := by
  simp only [Dialect.admitsDepth, Option.all_eq_true, decide_eq_true_eq] at admitted ⊢
  intro limit given
  exact Nat.le_trans le (admitted limit given)

theorem item_levels_le (items : List Json) (n : Nat) : itemLevels l items ≤ n ↔ ∀ j ∈ items, levels l j ≤ n := by
  induction items with
  | nil => simp [itemLevels]
  | cons j items ih => rw [itemLevels, Nat.max_le, ih, List.forall_mem_cons]

theorem field_levels_le (fields : List (String × Json)) (n : Nat) :
    fieldLevels l fields ≤ n ↔ ∀ field ∈ fields, levels l field.2 ≤ n := by
  induction fields with
  | nil => simp [fieldLevels]
  | cons field fields ih => rw [fieldLevels, Nat.max_le, ih, List.forall_mem_cons]

end

/-! ### What a writer passes -/

section

variable (d : Dialect) (l : Layout)

end

/-! ### Other orders of fields -/

section

variable (l : Layout)

theorem empty_sorted (j : Json) : j.sorted.isEmpty = j.isEmpty := by
  cases j with
  | arr items => cases items <;> rfl
  | obj fields =>
      have empty : ∀ fields, (Json.obj fields).isEmpty = fields.isEmpty := by
        intro fields
        cases fields <;> rfl
      rw [sorted_obj, empty, empty, (List.mergeSort_perm (sortedFields fields) byName).isEmpty_eq, sorted_fields,
        List.isEmpty_map]
  | _ => rfl

theorem level_sorted (j : Json) : l.level j.sorted = l.level j := by
  have filled := congrArg (fun empty : Bool => if empty then 0 else 1) (empty_sorted j)
  cases l <;> cases j <;> first | rfl | exact filled

theorem levels_sorted (j : Json) : j.sorted.levels l = j.levels l := by
  induction j with
  | arr items ih =>
      have own := level_sorted l (.arr items)
      have inside : itemLevels l (items.map sorted) = itemLevels l items := by
        apply eq_of_forall_ge_iff
        intro n
        rw [item_levels_le, item_levels_le, List.forall_mem_map]
        exact forall_congr' fun j => forall_congr' fun member => by rw [ih j member]
      rw [sorted, sorted_items] at own ⊢
      rw [levels, levels, own, inside]
  | obj fields ih =>
      have own := level_sorted l (.obj fields)
      have inside : fieldLevels l ((sortedFields fields).mergeSort byName) = fieldLevels l fields := by
        apply eq_of_forall_ge_iff
        intro n
        rw [field_levels_le, field_levels_le, forall_sorted_fields fields (levels l · ≤ n)]
        exact forall_congr' fun field => forall_congr' fun member => by rw [ih field member]
      rw [sorted_obj] at own ⊢
      rw [levels, levels, own, inside]
  | _ => rfl

theorem short_sorted (d : Dialect) (j : Json) :
    j.sorted.everywhere (shortInteger d) = true ↔ j.everywhere (shortInteger d) = true := by
  refine everywhere_sorted _ ?_ j
  intro j
  cases j <;> rfl

theorem within_sorted (d : Dialect) (j : Json) : Within d l j.sorted ↔ Within d l j := by
  constructor
  · intro within
    exact ⟨(short_sorted d j).mp within.digits, levels_sorted l j ▸ within.depth⟩
  · intro within
    exact ⟨(short_sorted d j).mpr within.digits, (levels_sorted l j).symm ▸ within.depth⟩

end

/-! ### What a reader admits -/

theorem admits_levels (d : Dialect) (depth : Nat) (j : Json) (floatless : j.floatless = true)
    (once : j.distinct = true) (short : j.everywhere (shortInteger d) = true)
    (room : d.admitsDepth (depth + j.levels .line) = true) : Admits d depth j := by
  induction j generalizing depth with
  | null => exact .null depth
  | bool value => exact .bool depth value
  | int value => exact .int depth value short
  | float value => cases floatless
  | str value => exact .str depth value
  | arr items ih =>
      rw [floatless_arr] at floatless
      rw [distinct_arr] at once
      rw [everywhere_arr] at short
      rw [levels, ← Nat.add_assoc] at room
      refine .arr depth items (admits_less d _ _ (Nat.le_add_right _ _) room) fun j member => ?_
      have inside := (item_levels_le .line items _).mp (Nat.le_refl _) j member
      exact ih j member _ (floatless j member) (once j member) (short.2 j member)
        (admits_less d _ _ (Nat.add_le_add_left inside _) room)
  | obj fields ih =>
      rw [floatless_obj] at floatless
      rw [distinct_obj] at once
      rw [everywhere_obj] at short
      rw [levels, ← Nat.add_assoc] at room
      refine .obj depth fields (admits_less d _ _ (Nat.le_add_right _ _) room) once.1 fun field member => ?_
      have inside := (field_levels_le .line fields _).mp (Nat.le_refl _) field member
      exact ih field member _ (floatless field member) (once.2 field member) (short.2 field member)
        (admits_less d _ _ (Nat.add_le_add_left inside _) room)

theorem admits_within (d : Dialect) (j : Json) (floatless : j.floatless = true) (once : j.distinct = true)
    (within : Within d .line j) : Admits d 0 j :=
  admits_levels d 0 j floatless once within.digits ((Nat.zero_add (j.levels .line)).symm ▸ within.depth)

theorem within_unlimited (l : Layout) (j : Json) : Within {} l j := by
  refine ⟨?_, rfl⟩
  induction j with
  | arr items ih => exact (everywhere_arr _ items).mpr ⟨rfl, ih⟩
  | obj fields ih => exact (everywhere_obj _ fields).mpr ⟨rfl, ih⟩
  | _ => rfl

end DocAudit.Json
