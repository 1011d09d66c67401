import DocAudit.Json.Basic
import Mathlib.Data.List.Forall2
import Mathlib.Data.List.Nodup

/-!
JSON values apart from the order of their fields. Two values are the same when every name has the
same value in both; sorting the fields takes a value to one that is the same, and where no name
stands twice, to the only sorted one.
-/

set_option autoImplicit false

namespace DocAudit.Json

@[elab_as_elim, induction_eliminator]
theorem induct {motive : Json → Prop} (null : motive .null) (bool : ∀ value, motive (.bool value))
    (int : ∀ value, motive (.int value)) (float : ∀ value, motive (.float value))
    (str : ∀ value, motive (.str value)) (arr : ∀ items, (∀ j ∈ items, motive j) → motive (.arr items))
    (obj : ∀ fields, (∀ field ∈ fields, motive field.2) → motive (.obj fields)) (j : Json) : motive j := by
  refine @Json.rec motive (fun items => ∀ j ∈ items, motive j) (fun fields => ∀ field ∈ fields, motive field.2)
    (fun field => motive field.2) null bool int float str arr obj ?_ ?_ ?_ ?_ (fun _ _ holds => holds) j
  · simp
  · intro j items first others
    exact List.forall_mem_cons.mpr ⟨first, others⟩
  · simp
  · intro field fields first others
    exact List.forall_mem_cons.mpr ⟨first, others⟩

/-! ### Tests on all that is in a value -/

mutual

def everywhere (p : Json → Bool) : Json → Bool
  | .arr items => p (.arr items) && everywhereItems p items
  | .obj fields => p (.obj fields) && everywhereFields p fields
  | j => p j

def everywhereItems (p : Json → Bool) : List Json → Bool
  | [] => true
  | j :: js => everywhere p j && everywhereItems p js

def everywhereFields (p : Json → Bool) : List (String × Json) → Bool
  | [] => true
  | (_, j) :: fields => everywhere p j && everywhereFields p fields

end

def isFloat : Json → Bool
  | .float _ => true
  | _ => false

def floatless (j : Json) : Bool := j.everywhere (!·.isFloat)

def namesOnce : Json → Bool
  | .obj fields => (fields.map (·.1)).Nodup
  | _ => true

-- No two fields of an object have one name.
def distinct (j : Json) : Bool := j.everywhere namesOnce

section

variable (p : Json → Bool)

theorem everywhere_items (items : List Json) :
    everywhereItems p items = true ↔ ∀ j ∈ items, everywhere p j = true := by
  induction items with
  | nil => simp [everywhereItems]
  | cons j items ih => rw [everywhereItems, Bool.and_eq_true, ih, List.forall_mem_cons]

theorem everywhere_fields (fields : List (String × Json)) :
    everywhereFields p fields = true ↔ ∀ field ∈ fields, everywhere p field.2 = true := by
  induction fields with
  | nil => simp [everywhereFields]
  | cons field fields ih => rw [everywhereFields, Bool.and_eq_true, ih, List.forall_mem_cons]

@[simp] theorem everywhere_arr (items : List Json) :
    everywhere p (.arr items) = true ↔ p (.arr items) = true ∧ ∀ j ∈ items, everywhere p j = true := by
  rw [everywhere, Bool.and_eq_true, everywhere_items]

@[simp] theorem everywhere_obj (fields : List (String × Json)) :
    everywhere p (.obj fields) = true ↔
      p (.obj fields) = true ∧ ∀ field ∈ fields, everywhere p field.2 = true := by
  rw [everywhere, Bool.and_eq_true, everywhere_fields]

end

theorem floatless_arr (items : List Json) :
    floatless (.arr items) = true ↔ ∀ j ∈ items, floatless j = true := by
  simp [floatless, isFloat]

theorem floatless_obj (fields : List (String × Json)) :
    floatless (.obj fields) = true ↔ ∀ field ∈ fields, floatless field.2 = true := by
  simp [floatless, isFloat]

theorem distinct_arr (items : List Json) : distinct (.arr items) = true ↔ ∀ j ∈ items, distinct j = true := by
  simp [distinct, namesOnce]

theorem distinct_obj (fields : List (String × Json)) :
    distinct (.obj fields) = true ↔ (fields.map (·.1)).Nodup ∧ ∀ field ∈ fields, distinct field.2 = true := by
  simp [distinct, namesOnce]

/-! ### Values of names -/

theorem lookup_cons (key name : String) (j : Json) (fields : List (String × Json)) :
    lookup key ((name, j) :: fields) = (lookup key fields).or (if name = key then some j else none) := by
  rw [lookup, List.reverse_cons, List.find?_append, Option.map_or, lookup]
  congr 1
  by_cases same : name = key <;> simp [same]

theorem lookup_none (key : String) (fields : List (String × Json)) :
    lookup key fields = none ↔ key ∉ fields.map (·.1) := by
  simp only [lookup, Option.map_eq_none_iff, List.find?_eq_none, List.mem_reverse, beq_iff_eq, List.mem_map,
    not_exists, not_and]

theorem lookup_member (key : String) (fields : List (String × Json)) (j : Json)
    (found : lookup key fields = some j) : (key, j) ∈ fields := by
  obtain ⟨⟨name, value⟩, here, rfl⟩ := Option.map_eq_some_iff.mp found
  have same : name = key := by simpa using List.find?_some here
  exact same ▸ List.mem_reverse.mp (List.mem_of_find?_eq_some here)

theorem lookup_iff (fields : List (String × Json)) (once : (fields.map (·.1)).Nodup) (key : String) (j : Json) :
    lookup key fields = some j ↔ (key, j) ∈ fields := by
  refine ⟨lookup_member key fields j, ?_⟩
  induction fields with
  | nil => simp
  | cons field fields ih =>
      obtain ⟨fresh, others⟩ := List.nodup_cons.mp once
      intro member
      rw [lookup_cons]
      rcases List.mem_cons.mp member with rfl | later
      · rw [(lookup_none key fields).mpr fresh, if_pos rfl, Option.none_or]
      · rw [ih others later, Option.some_or]

/-! ### The same value -/

def isScalar : Json → Bool
  | .arr _ | .obj _ => false
  | _ => true

-- Of fields with one name the last counts, as it does for a reader.
inductive Same : Json → Json → Prop
  | null : Same .null .null
  | bool (value : Bool) : Same (.bool value) (.bool value)
  | int (value : Int) : Same (.int value) (.int value)
  | float (value : Number.Binary64) : Same (.float value) (.float value)
  | str (value : String) : Same (.str value) (.str value)
  | arr (items others : List Json) (each : List.Forall₂ Same items others) : Same (.arr items) (.arr others)
  | obj (fields others : List (String × Json))
      (each : ∀ key, Option.Rel Same (lookup key fields) (lookup key others)) : Same (.obj fields) (.obj others)

theorem same_arr (items others : List Json) :
    Same (.arr items) (.arr others) ↔ List.Forall₂ Same items others :=
  ⟨by rintro ⟨⟩; assumption, .arr items others⟩

theorem same_obj (fields others : List (String × Json)) :
    Same (.obj fields) (.obj others) ↔ ∀ key, Option.Rel Same (lookup key fields) (lookup key others) :=
  ⟨by rintro ⟨⟩; assumption, .obj fields others⟩

theorem same_refl (j : Json) : Same j j := by
  induction j with
  | null => exact .null
  | bool value => exact .bool value
  | int value => exact .int value
  | float value => exact .float value
  | str value => exact .str value
  | arr items ih => exact .arr items items (List.forall₂_same.mpr ih)
  | obj fields ih =>
      refine .obj fields fields ?_
      intro key
      cases found : lookup key fields with
      | none => exact .none
      | some j => exact .some (ih (key, j) (lookup_member key fields j found))

theorem same_scalar (j k : Json) (scalar : j.isScalar = true ∨ k.isScalar = true) : Same j k ↔ j = k := by
  constructor
  · intro same
    cases same with
    | arr => simp [isScalar] at scalar
    | obj => simp [isScalar] at scalar
    | _ => rfl
  · rintro rfl
    exact same_refl j

/-! ### Sorted fields -/

theorem sorted_items (items : List Json) : sortedItems items = items.map sorted := by
  induction items with
  | nil => rfl
  | cons j items ih => rw [sortedItems, ih, List.map_cons]

theorem sorted_fields (fields : List (String × Json)) :
    sortedFields fields = fields.map fun field => (field.1, field.2.sorted) := by
  induction fields with
  | nil => rfl
  | cons field fields ih => rw [sortedFields, ih, List.map_cons]

theorem sorted_fields_names (fields : List (String × Json)) :
    (sortedFields fields).map (·.1) = fields.map (·.1) := by
  rw [sorted_fields, List.map_map]
  rfl

theorem lookup_sorted_fields (key : String) (fields : List (String × Json)) :
    lookup key (sortedFields fields) = (lookup key fields).map sorted := by
  rw [sorted_fields, lookup, lookup, ← List.map_reverse, List.find?_map, Option.map_map, Option.map_map]
  rfl

def byName (a b : String × Json) : Bool := a.1 ≤ b.1

theorem sorted_obj (fields : List (String × Json)) :
    sorted (.obj fields) = .obj ((sortedFields fields).mergeSort byName) := rfl

theorem ordered_by_name (fields : List (String × Json)) :
    (fields.mergeSort byName).Pairwise fun a b => byName a b = true := by
  apply List.pairwise_mergeSort
  · simp only [byName, decide_eq_true_eq]
    intro a b c
    exact String.le_trans
  · simp only [byName, Bool.or_eq_true, decide_eq_true_eq]
    intro a b
    exact String.le_total a.1 b.1

section

variable (fields others : List (String × Json)) (once : (fields.map (·.1)).Nodup)
  (othersOnce : (others.map (·.1)).Nodup)

include once othersOnce

theorem perm_lookup : fields.Perm others ↔ ∀ key, lookup key fields = lookup key others := by
  rw [List.perm_ext_iff_of_nodup (List.Nodup.of_map _ once) (List.Nodup.of_map _ othersOnce)]
  constructor
  · intro members key
    apply Option.ext
    intro j
    rw [lookup_iff fields once, lookup_iff others othersOnce, members]
  · rintro found ⟨key, j⟩
    rw [← lookup_iff fields once, ← lookup_iff others othersOnce, found]

-- Names are ordered strictly, so that what stands on them is settled.
theorem sort_perm : fields.mergeSort byName = others.mergeSort byName ↔ fields.Perm others := by
  constructor
  · intro same
    exact (List.mergeSort_perm fields byName).symm.trans (same ▸ List.mergeSort_perm others byName)
  · intro perm
    have sorts : (fields.mergeSort byName).Perm (others.mergeSort byName) :=
      (List.mergeSort_perm fields byName).trans (perm.trans (List.mergeSort_perm others byName).symm)
    refine List.Perm.eq_of_pairwise ?_ (ordered_by_name fields) (ordered_by_name others) sorts
    rintro ⟨key, j⟩ ⟨name, k⟩ first second before after
    simp only [byName, decide_eq_true_eq] at before after
    have same : key = name := String.le_antisymm before after
    subst same
    have here := (lookup_iff fields once key j).mpr (List.mem_mergeSort.mp first)
    have there := (lookup_iff others othersOnce key k).mpr (List.mem_mergeSort.mp second)
    rw [(perm_lookup fields others once othersOnce).mp perm key, there] at here
    rw [Option.some.inj here]

end

theorem sorted_scalar (j k : Json) (scalar : j.isScalar = true) : j.sorted = k.sorted ↔ j = k := by
  cases j with
  | arr => cases scalar
  | obj => cases scalar
  | _ => cases k <;> simp [sorted]

-- Both sides speak of the values of each name, the one up to sameness and the other sorted.
theorem same_values (fields others : List (String × Json))
    (each : ∀ key j k, lookup key fields = some j → lookup key others = some k →
      (Same j k ↔ j.sorted = k.sorted)) :
    Same (.obj fields) (.obj others) ↔
      ∀ key, lookup key (sortedFields fields) = lookup key (sortedFields others) := by
  rw [same_obj]
  apply forall_congr'
  intro key
  rw [lookup_sorted_fields, lookup_sorted_fields]
  cases here : lookup key fields with
  | none => cases lookup key others <;> simp [Option.rel_none_none]
  | some j =>
      cases there : lookup key others with
      | none => simp
      | some k => simp [each key j k here there]

theorem same_iff_sorted (j k : Json) (once : distinct j = true) (otherOnce : distinct k = true) :
    Same j k ↔ j.sorted = k.sorted := by
  induction j generalizing k with
  | arr items ih =>
      cases k with
      | arr others =>
          rw [distinct_arr] at once otherOnce
          rw [same_arr, sorted, sorted, Json.arr.injEq, sorted_items, sorted_items, ← List.forall₂_eq_eq_eq,
            List.forall₂_map_left_iff, List.forall₂_map_right_iff, List.forall₂_iff_zip, List.forall₂_iff_zip]
          refine and_congr_right fun _ => forall_congr' fun j => forall_congr' fun k => ?_
          refine forall_congr' fun member => ?_
          obtain ⟨here, there⟩ := List.of_mem_zip member
          exact ih j here k (once j here) (otherOnce k there)
      | _ => exact iff_of_false (by rintro ⟨⟩) (by simp [sorted])
  | obj fields ih =>
      cases k with
      | obj others =>
          rw [distinct_obj] at once otherOnce
          rw [sorted_obj, sorted_obj, Json.obj.injEq,
            sort_perm _ _ (sorted_fields_names fields ▸ once.1) (sorted_fields_names others ▸ otherOnce.1),
            perm_lookup _ _ (sorted_fields_names fields ▸ once.1) (sorted_fields_names others ▸ otherOnce.1)]
          apply same_values
          intro key j k here there
          have member := lookup_member key fields j here
          exact ih (key, j) member k (once.2 _ member) (otherOnce.2 _ (lookup_member key others k there))
      | _ => exact iff_of_false (by rintro ⟨⟩) (by simp [sorted])
  | _ => rw [same_scalar _ k (.inl rfl), sorted_scalar _ k rfl]

theorem sorted_sorted (j : Json) : j.sorted.sorted = j.sorted := by
  induction j with
  | arr items ih =>
      rw [sorted, sorted, sorted_items, sorted_items, List.map_map]
      exact congrArg Json.arr (List.map_congr_left ih)
  | obj fields ih =>
      have again : sortedFields (sortedFields fields) = sortedFields fields := by
        rw [sorted_fields, sorted_fields, List.map_map]
        apply List.map_congr_left
        intro field member
        exact congrArg (Prod.mk field.1) (ih field member)
      have moved : sortedFields ((sortedFields fields).mergeSort byName) =
          (sortedFields (sortedFields fields)).mergeSort byName := by
        rw [sorted_fields, sorted_fields (sortedFields fields)]
        exact List.map_mergeSort fun _ _ _ _ => rfl
      rw [sorted_obj, sorted_obj, moved, again, List.mergeSort_of_pairwise (ordered_by_name _)]
  | _ => rfl

theorem forall_sorted_fields (fields : List (String × Json)) (P : Json → Prop) :
    (∀ field ∈ (sortedFields fields).mergeSort byName, P field.2) ↔ ∀ field ∈ fields, P field.2.sorted := by
  simp only [List.mem_mergeSort, sorted_fields, List.forall_mem_map]

-- A test that sorting does not change on any value holds everywhere in a value as in the sorted one.
theorem everywhere_sorted (p : Json → Bool) (same : ∀ j : Json, p j.sorted = p j) (j : Json) :
    j.sorted.everywhere p = true ↔ j.everywhere p = true := by
  induction j with
  | arr items ih =>
      have here := same (.arr items)
      rw [sorted, sorted_items] at here ⊢
      rw [everywhere_arr, everywhere_arr, here, List.forall_mem_map]
      exact and_congr_right fun _ => forall_congr' fun j => forall_congr' fun member => ih j member
  | obj fields ih =>
      have here := same (.obj fields)
      rw [sorted_obj] at here ⊢
      rw [everywhere_obj, everywhere_obj, here, forall_sorted_fields fields (everywhere p · = true)]
      exact and_congr_right fun _ => forall_congr' fun field => forall_congr' fun member => ih field member
  | _ => rfl

theorem sorted_floatless (j : Json) (floatless : j.floatless = true) : j.sorted.floatless = true := by
  refine (everywhere_sorted _ ?_ j).mpr floatless
  intro j
  cases j <;> rfl

theorem sorted_distinct (j : Json) (once : j.distinct = true) : j.sorted.distinct = true := by
  refine (everywhere_sorted namesOnce ?_ j).mpr once
  intro j
  cases j with
  | obj fields =>
      have names := (List.mergeSort_perm (sortedFields fields) byName).map (·.1)
      rw [sorted_obj, namesOnce, namesOnce, decide_eq_decide, names.nodup_iff, sorted_fields_names]
  | _ => rfl

theorem same_sorted (j : Json) (once : j.distinct = true) : Same j.sorted j :=
  (same_iff_sorted j.sorted j (sorted_distinct j once) once).mpr (sorted_sorted j)

end DocAudit.Json
