import DocAudit.Proofs.Json.Equality
import DocAudit.Proofs.ReportValidity

/-!
The language of reports. The rules of the schema accept the records that findings are written as,
and nothing else.
-/

set_option autoImplicit false

namespace DocAudit

open Json

/-! ### What single rules accept -/

theorem one_of_iff (values : List String) (j : Json) :
    (Rule.oneOf values).violations j = [] ↔ ∃ s ∈ values, j = .str s := by
  cases j with
  | str s => simp
  | _ => exact iff_of_false (by rintro ⟨⟩) (by simp)

theorem exactly_iff (value : String) (j : Json) : (Rule.exactly value).violations j = [] ↔ j = .str value := by
  cases j with
  | str s => simp
  | _ => exact iff_of_false (by rintro ⟨⟩) (by simp)

theorem non_empty_string_iff (j : Json) : allViolations nonEmptyString j = [] ↔ ∃ s, s ≠ "" ∧ j = .str s := by
  cases j with
  | str s => simp [non_empty_string_kept]
  | _ => exact iff_of_false (by simp [nonEmptyString, JsonType.has]) (by simp)

theorem line_iff (j : Json) (floatless : j.floatless = true) :
    allViolations [.type .integer, .minimum 1] j = [] ↔ ∃ n, 1 ≤ n ∧ j = .int n := by
  cases j with
  | int n => simp [JsonType.has]
  | float x => cases floatless
  | _ => exact iff_of_false (by simp [JsonType.has]) (by simp)

/-! ### Records by their fields -/

def recordNames : List String := ["type", "file", "class", "method", "line"]

theorem names_listed (names : List String) (fields : List (String × Json)) :
    (∀ field ∈ fields, field.1 ∈ names) ↔ ∀ key, key ∉ names → lookup key fields = none := by
  simp only [lookup_none, List.mem_map, not_exists, not_and]
  constructor
  · rintro listed _ unlisted field member rfl
    exact unlisted (listed field member)
  · intro listed field member
    by_contra unlisted
    exact listed field.1 unlisted field member rfl

-- No value in a record has values in it.
theorem record_flat (f : Finding) :
    ∃ fields, f.record = .obj fields ∧ (∀ field ∈ fields, field.2.isScalar = true) ∧
      ∀ field ∈ fields, field.1 ∈ recordNames := by
  cases kind : f.kind <;> cases owner : f.className <;>
    simp [-Prod.forall, Finding.record, kind, owner, ofOption, isScalar, recordNames]

theorem same_record (fields : List (String × Json)) (f : Finding) :
    Same (.obj fields) f.record ↔ ∀ key, lookup key fields = f.record.get? key := by
  obtain ⟨others, record, flat, -⟩ := record_flat f
  rw [record, same_obj]
  apply forall_congr'
  intro key
  rw [get?]
  cases there : lookup key others with
  | none => cases lookup key fields <;> simp
  | some k =>
      cases lookup key fields with
      | none => simp
      | some j => simp [same_scalar j k (.inr (flat _ (lookup_member key others k there)))]

theorem same_record_named (fields : List (String × Json)) (f : Finding)
    (listed : ∀ field ∈ fields, field.1 ∈ recordNames)
    (agree : ∀ key ∈ recordNames, lookup key fields = f.record.get? key) : Same (.obj fields) f.record := by
  obtain ⟨others, record, -, othersListed⟩ := record_flat f
  rw [same_record]
  intro key
  by_cases named : key ∈ recordNames
  · exact agree key named
  · rw [record, get?, (names_listed _ _).mp listed key named, (names_listed _ _).mp othersListed key named]

theorem record_rules_congr (fields others : List (String × Json))
    (agree : ∀ key, lookup key fields = lookup key others) :
    allViolations recordRules (.obj fields) = [] ↔ allViolations recordRules (.obj others) = [] := by
  simp only [recordRules, all_kept_cons, type_kept, required_kept, closed_properties_kept, properties_kept,
    conditional_kept, broken_kept, fields_kept_cons, fields_kept_nil, all_kept_nil, ne_eq, names_listed, agree,
    JsonType.has]

theorem record_accepted (fields : List (String × Json)) (f : Finding) (reportable : Reportable f)
    (same : Same (.obj fields) f.record) : allViolations recordRules (.obj fields) = [] := by
  obtain ⟨others, record, -⟩ := record_flat f
  have agree := (same_record fields f).mp same
  have kept := record_kept f reportable
  rw [record] at agree kept
  exact (record_rules_congr fields others agree).mpr kept

theorem required_text (value : Option Json) (present : value.isSome = true)
    (kept : ∀ j, value = some j → allViolations nonEmptyString j = []) : ∃ s, s ≠ "" ∧ value = some (.str s) := by
  obtain ⟨j, rfl⟩ := Option.isSome_iff_exists.mp present
  obtain ⟨s, filled, rfl⟩ := (non_empty_string_iff j).mp (kept j rfl)
  exact ⟨s, filled, rfl⟩

theorem accepted_record (fields : List (String × Json)) (floatless : ∀ field ∈ fields, field.2.floatless = true)
    (accepted : allViolations recordRules (.obj fields) = []) :
    ∃ f, Reportable f ∧ Same (.obj fields) f.record := by
  simp only [recordRules, all_kept_cons, required_kept, closed_properties_kept, properties_kept,
    conditional_kept, broken_kept, fields_kept_cons, List.forall_mem_singleton, List.forall_mem_cons, one_of_iff,
    exactly_iff, fields_kept_nil, all_kept_nil, and_true, ne_eq] at accepted
  obtain ⟨-, ⟨type, file, owner, line⟩, ⟨⟨kind, path, className, method, number⟩, listed⟩, named, unnamed⟩ := accepted
  obtain ⟨path, pathFilled, pathFound⟩ := required_text _ file path
  obtain ⟨owner, ownerFilled, ownerFound⟩ := required_text _ owner className
  obtain ⟨j, lineFound⟩ := Option.isSome_iff_exists.mp line
  obtain ⟨n, positive, rfl⟩ := (line_iff j (floatless _ (lookup_member "line" fields j lineFound))).mp
    (by simpa using number j lineFound)
  obtain ⟨j, typeFound⟩ := Option.isSome_iff_exists.mp type
  obtain ⟨s, choice, rfl⟩ := kind j typeFound
  rcases List.mem_pair.mp choice with rfl | rfl
  · have absent : lookup "method" fields = none := by
      have other : ¬ ∀ j, lookup "type" fields = some j → j = .str "method" := by
        intro all
        exact absurd (all _ typeFound) (by simp)
      simpa using unnamed other
    refine ⟨⟨.classDecl, path, none, owner, n⟩, ⟨pathFilled, ownerFilled, positive, fun other => absurd rfl other⟩, ?_⟩
    apply same_record_named fields _ listed
    simp only [recordNames, List.forall_mem_cons, typeFound, pathFound, ownerFound, lineFound, absent]
    exact ⟨rfl, rfl, rfl, rfl, rfl, by simp⟩
  · have present : (lookup "method" fields).isSome = true := by
      apply named
      intro j found
      exact Option.some.inj (found.symm.trans typeFound)
    obtain ⟨name, nameFilled, nameFound⟩ := required_text _ present method
    refine ⟨⟨.method, path, some owner, name, n⟩, ⟨pathFilled, nameFilled, positive, fun _ => ⟨owner, rfl, ownerFilled⟩⟩, ?_⟩
    apply same_record_named fields _ listed
    simp only [recordNames, List.forall_mem_cons, typeFound, pathFound, ownerFound, lineFound, nameFound]
    exact ⟨rfl, rfl, rfl, rfl, rfl, by simp⟩

/-! ### Whole reports -/

theorem record_rules_iff (j : Json) (floatless : j.floatless = true) :
    allViolations recordRules j = [] ↔ ∃ f, Reportable f ∧ Same j f.record := by
  cases j with
  | obj fields =>
      constructor
      · exact accepted_record fields ((floatless_obj fields).mp floatless)
      · rintro ⟨f, reportable, same⟩
        exact record_accepted fields f reportable same
  | _ =>
      refine iff_of_false (by simp [recordRules, JsonType.has]) ?_
      rintro ⟨f, -, same⟩
      obtain ⟨fields, record, -⟩ := record_flat f
      rw [record] at same
      cases same

theorem items_recorded (items : List Json) (floatless : ∀ j ∈ items, j.floatless = true) :
    (∀ j ∈ items, allViolations recordRules j = []) ↔
      ∃ fs : List Finding, (∀ f ∈ fs, Reportable f) ∧ List.Forall₂ Same items (fs.map (·.record)) := by
  induction items with
  | nil => exact iff_of_true (by simp) ⟨[], by simp, .nil⟩
  | cons j items ih =>
      rw [List.forall_mem_cons] at floatless ⊢
      rw [record_rules_iff j floatless.1, ih floatless.2]
      constructor
      · rintro ⟨⟨f, reportable, same⟩, fs, others, each⟩
        exact ⟨f :: fs, List.forall_mem_cons.mpr ⟨reportable, others⟩, .cons same each⟩
      · rintro ⟨_ | ⟨f, fs⟩, reportable, each⟩
        · cases each
        · rw [List.forall_mem_cons] at reportable
          rw [List.map_cons, List.forall₂_cons] at each
          exact ⟨⟨f, reportable.1, each.1⟩, fs, reportable.2, each.2⟩

theorem accepted_report (j : Json) (floatless : j.floatless = true) :
    reportSchema.accepts j = true ↔
      ∃ fs : List Finding, (∀ f ∈ fs, Reportable f) ∧ Same j (.arr (fs.map (·.record))) := by
  rw [Schema.accepts, List.isEmpty_iff, Schema.violations, reportSchema, all_kept_cons, all_kept_cons, type_kept]
  cases j with
  | arr items =>
      rw [items_kept, items_recorded items ((floatless_arr items).mp floatless)]
      simp [JsonType.has, same_arr]
  | _ =>
      refine iff_of_false (by simp [JsonType.has]) ?_
      rintro ⟨fs, -, same⟩
      cases same

theorem report_schema_language (j : Json) (floatless : j.floatless = true) :
    ∃ schema, bundledSchemas.load "report.schema.json" = .ok schema ∧
      (schema.accepts j = true ↔
        ∃ fs : List Finding, (∀ f ∈ fs, Reportable f) ∧ Same j (.arr (fs.map (·.record)))) :=
  ⟨reportSchema, rfl, accepted_report j floatless⟩

-- A record in another order of fields is one of a finding; with a truth value for its line it is none.
theorem report_schema_language_reordered :
    let record (line : Json) := Json.arr [.obj [("line", line), ("method", .str "f"), ("type", .str "method"),
      ("class", .str "A"), ("file", .str "a.php")]]
    ((record (.int 3)).floatless = true ∧
      ∃ fs : List Finding, (∀ f ∈ fs, Reportable f) ∧ Same (record (.int 3)) (.arr (fs.map (·.record)))) ∧
    (record (.bool true)).floatless = true ∧
      ¬ ∃ fs : List Finding, (∀ f ∈ fs, Reportable f) ∧ Same (record (.bool true)) (.arr (fs.map (·.record))) := by
  intro record
  obtain ⟨schema, loaded, accepted⟩ := report_schema_language (record (.int 3)) rfl
  obtain ⟨again, reloaded, refused⟩ := report_schema_language (record (.bool true)) rfl
  have loads : bundledSchemas.load "report.schema.json" = .ok reportSchema := rfl
  cases loads.symm.trans loaded
  cases loads.symm.trans reloaded
  exact ⟨⟨rfl, accepted.mp rfl⟩, rfl, fun findings => absurd (refused.mpr findings) (by decide)⟩

end DocAudit
