import DocAudit.Schema.Basic

/-!
When a value keeps a schema, rule by rule.
-/

set_option autoImplicit false

namespace DocAudit

@[simp] theorem breach_unless_none (kept : Bool) (breach : Breach) : breachUnless kept breach = [] ↔ kept = true := by
  cases kept <;> simp [breachUnless]

@[simp] theorem all_kept_nil (j : Json) : allViolations [] j = [] := rfl

@[simp] theorem all_kept_cons (rule : Rule) (rules : List Rule) (j : Json) :
    allViolations (rule :: rules) j = [] ↔ rule.violations j = [] ∧ allViolations rules j = [] :=
  List.append_eq_nil_iff

@[simp] theorem type_kept (expected : JsonType) (j : Json) :
    (Rule.type expected).violations j = [] ↔ expected.has j = true := breach_unless_none ..

@[simp] theorem one_of_kept (values : List String) (s : String) :
    (Rule.oneOf values).violations (.str s) = [] ↔ s ∈ values :=
  (breach_unless_none ..).trans List.contains_iff_mem

@[simp] theorem exactly_kept (value s : String) : (Rule.exactly value).violations (.str s) = [] ↔ s = value :=
  (breach_unless_none ..).trans beq_iff_eq

@[simp] theorem min_length_kept (length : Nat) (s : String) :
    (Rule.minLength length).violations (.str s) = [] ↔ length ≤ s.length :=
  (breach_unless_none ..).trans decide_eq_true_iff

@[simp] theorem minimum_kept (bound n : Int) : (Rule.minimum bound).violations (.int n) = [] ↔ bound ≤ n := by
  have breach : (Rule.minimum bound).violations (.int n) =
      breachUnless (!decide (n < bound)) (.minimum (.int n) bound) := rfl
  rw [breach, breach_unless_none, Bool.not_eq_true', decide_eq_false_iff_not, Int.not_lt]

@[simp] theorem required_kept (keys : List String) (fields : List (String × Json)) :
    (Rule.required keys).violations (.obj fields) = [] ↔ ∀ key ∈ keys, (Json.lookup key fields).isSome = true := by
  have breach : (Rule.required keys).violations (.obj fields) =
      (missingKeys keys fields).map fun key => ⟨[], .required key⟩ := rfl
  rw [breach, List.map_eq_nil_iff, missingKeys, List.filter_eq_nil_iff]
  simp only [Option.isNone_iff_eq_none, Option.isSome_iff_ne_none, ne_eq]

@[simp] theorem fields_kept_nil (fields : List (String × Json)) : fieldViolations [] fields = [] := rfl

@[simp] theorem fields_kept_cons (key : String) (rules : List Rule) (others : List (String × List Rule))
    (fields : List (String × Json)) :
    fieldViolations ((key, rules) :: others) fields = [] ↔
      (∀ j, Json.lookup key fields = some j → allViolations rules j = []) ∧ fieldViolations others fields = [] := by
  rw [fieldViolations, List.append_eq_nil_iff]
  cases Json.lookup key fields <;> simp

@[simp] theorem properties_kept (rules : List (String × List Rule)) (fields : List (String × Json)) :
    (Rule.properties rules false).violations (.obj fields) = [] ↔ fieldViolations rules fields = [] := by
  have breach : (Rule.properties rules false).violations (.obj fields) = fieldViolations rules fields ++ [] := rfl
  rw [breach, List.append_nil]

@[simp] theorem closed_properties_kept (rules : List (String × List Rule)) (fields : List (String × Json)) :
    (Rule.properties rules true).violations (.obj fields) = [] ↔
      fieldViolations rules fields = [] ∧ ∀ field ∈ fields, field.1 ∈ rules.map (·.1) := by
  have breach : (Rule.properties rules true).violations (.obj fields) = fieldViolations rules fields ++
      breachUnless ((fields.map (·.1)).filter fun key => !(rules.map (·.1)).contains key).isEmpty
        (.extra ((fields.map (·.1)).filter fun key => !(rules.map (·.1)).contains key)) := rfl
  rw [breach, List.append_eq_nil_iff, breach_unless_none, List.isEmpty_iff, List.filter_eq_nil_iff]
  simp

@[simp] theorem items_kept (rules : List Rule) (js : List Json) :
    (Rule.items rules).violations (.arr js) = [] ↔ ∀ j ∈ js, allViolations rules j = [] := by
  have breach : (Rule.items rules).violations (.arr js) =
      js.zipIdx.flatMap fun entry => (allViolations rules entry.1).map (·.under (.index entry.2)) := rfl
  rw [breach, List.flatMap_eq_nil_iff]
  constructor
  · intro kept j member
    obtain ⟨i, bound, rfl⟩ := List.getElem_of_mem member
    have entry := kept (js[i], i) (List.mem_zipIdx_iff_getElem?.mpr (List.getElem?_eq_getElem bound))
    exact List.map_eq_nil_iff.mp entry
  · intro kept entry member
    exact List.map_eq_nil_iff.mpr (kept entry.1 (List.fst_mem_of_mem_zipIdx member))

@[simp] theorem conditional_kept (test whenKept whenBroken : List Rule) (j : Json) :
    (Rule.conditional test whenKept whenBroken).violations j = [] ↔
      (allViolations test j = [] → allViolations whenKept j = []) ∧
        (allViolations test j ≠ [] → allViolations whenBroken j = []) := by
  have breach : (Rule.conditional test whenKept whenBroken).violations j =
      if (allViolations test j).isEmpty then allViolations whenKept j else allViolations whenBroken j := rfl
  rw [breach]
  cases allViolations test j <;> simp

@[simp] theorem broken_kept (rules : List Rule) (j : Json) :
    (Rule.broken rules).violations j = [] ↔ allViolations rules j ≠ [] := by
  have breach : (Rule.broken rules).violations j = breachUnless (!(allViolations rules j).isEmpty) .kept := rfl
  rw [breach, breach_unless_none]
  cases allViolations rules j <;> simp

end DocAudit
