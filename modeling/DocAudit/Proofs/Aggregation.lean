import DocAudit.Report
import Mathlib.Algebra.GroupWithZero.Nat
import Mathlib.Order.MinMax

/-!
What a run adds up to. Reports are added to a run in any number of batches; every total of the run
is the sum of the totals of its parts, the totals agree with one another, and none of them depends
on the order of the reports.
-/

set_option autoImplicit false

namespace DocAudit

open Php

/-! ### Sessions -/

-- The run after a sequence of additions.
def session (additions : List (List FileReport)) : Run := additions.foldl Run.add {}

theorem add_all_files (additions : List (List FileReport)) (run : Run) :
    (additions.foldl Run.add run).files = run.files ++ additions.flatten := by
  induction additions generalizing run with
  | nil => simp
  | cons reports additions ih => rw [List.foldl_cons, ih, Run.add, List.flatten_cons, List.append_assoc]

theorem session_files (additions : List (List FileReport)) : (session additions).files = additions.flatten :=
  add_all_files additions {}

theorem session_append (first second : List (List FileReport)) :
    session (first ++ second) = (session first).add (session second).files := by
  have files : (session (first ++ second)).files = (session first).files ++ (session second).files := by
    rw [session_files, session_files, session_files, List.flatten_append]
  exact congrArg Run.mk files

/-! ### Lists of findings, failures and records -/

def Run.countKind (run : Run) (kind : DeclarationKind) : Nat := run.findings.countP (·.kind == kind)

section

variable (run : Run) (reports : List FileReport)

theorem add_findings : (run.add reports).findings = run.findings ++ (Run.mk reports).findings :=
  List.flatMap_append

theorem add_failed : (run.add reports).failed = run.failed ++ (Run.mk reports).failed := List.filter_append ..

theorem add_records : (run.add reports).records = run.records ++ (Run.mk reports).records := by
  rw [Run.records, add_findings, List.map_append]
  rfl

theorem add_clean_classes :
    (run.add reports).cleanClasses = run.cleanClasses + (Run.mk reports).cleanClasses := by
  rw [Run.cleanClasses, Run.add, List.flatMap_append, List.countP_append]
  rfl

theorem add_count_kind (kind : DeclarationKind) :
    (run.add reports).countKind kind = run.countKind kind + (Run.mk reports).countKind kind := by
  rw [Run.countKind, add_findings, List.countP_append]
  rfl

end

/-! ### Kinds -/

-- The count that a summary lists for a kind. Kinds that do not occur are left out.
def Summary.ofKind (summary : Summary) (kind : DeclarationKind) : Nat := (summary.byKind.lookup kind).getD 0

-- Counting from a table of earlier counts.
theorem fold_count (findings : List Finding) (t : Tally) (kind : DeclarationKind) :
    findings.foldl (fun t f => t.count f.kind) t kind =
      if findings.countP (·.kind == kind) = 0 then t kind
      else some ((t kind).getD 0 + findings.countP (·.kind == kind)) := by
  induction findings generalizing t with
  | nil => rfl
  | cons f findings ih =>
      rw [List.foldl_cons, ih, List.countP_cons, Tally.count]
      by_cases own : f.kind = kind
      · subst own
        by_cases last : findings.countP (·.kind == f.kind) = 0
        · simp [last]
        · simp [last]
          omega
      · simp [own, Ne.symm own]

theorem tally_count (findings : List Finding) (kind : DeclarationKind) :
    tally findings kind =
      if findings.countP (·.kind == kind) = 0 then none else some (findings.countP (·.kind == kind)) := by
  rw [tally, fold_count]
  simp [Tally.empty]

-- The loop lists every kind with its count, save those that do not occur.
theorem by_kind_counts (run : Run) :
    run.summary.byKind = (DeclarationKind.all.map fun kind => (kind, run.countKind kind)).filter (·.2 != 0) := by
  have entry : ∀ kind, (tally run.findings kind).map (fun count => (kind, count)) =
      Option.guard (fun entry : DeclarationKind × Nat => entry.2 != 0) (kind, run.countKind kind) := by
    intro kind
    rw [tally_count, ← Run.countKind]
    by_cases zero : run.countKind kind = 0
    · simp [zero, Option.guard]
    · simp [zero, Option.guard]
  rw [← List.filterMap_eq_filter, List.filterMap_map]
  exact congrArg (List.filterMap · DeclarationKind.all) (funext entry)

theorem count_kind_pos (run : Run) (kind : DeclarationKind) :
    run.countKind kind ≠ 0 ↔ ∃ f ∈ run.findings, f.kind = kind := by
  rw [Run.countKind, ← Nat.pos_iff_ne_zero, List.countP_pos_iff]
  simp only [beq_iff_eq]

theorem listed_kind (run : Run) (kind : DeclarationKind) :
    kind ∈ run.summary.byKind.map (·.1) ↔ ∃ f ∈ run.findings, f.kind = kind := by
  rw [← count_kind_pos, by_kind_counts, List.mem_map]
  constructor
  · rintro ⟨⟨_, count⟩, listed, rfl⟩
    obtain ⟨counted, occurs⟩ := List.mem_filter.mp listed
    obtain ⟨kind, -, same⟩ := List.mem_map.mp counted
    obtain ⟨rfl, rfl⟩ := Prod.mk.inj same
    simpa using occurs
  · intro occurs
    have every : kind ∈ DeclarationKind.all := by cases kind <;> decide
    refine ⟨(kind, run.countKind kind), List.mem_filter.mpr ⟨List.mem_map_of_mem every, ?_⟩, rfl⟩
    simpa using occurs

theorem listed_once (run : Run) : (run.summary.byKind.map (·.1)).Nodup := by
  have kinds : ((DeclarationKind.all.map fun kind => (kind, run.countKind kind)).map (·.1)).Nodup := by
    rw [List.map_map]
    exact (by decide : DeclarationKind.all.Nodup)
  rw [by_kind_counts]
  exact kinds.sublist (List.filter_sublist.map _)

-- What a table without its zero entries still tells: every count, and their sum.
theorem lookup_nonzero (count : DeclarationKind → Nat) (kinds : List DeclarationKind) (kind : DeclarationKind)
    (inside : kind ∈ kinds) :
    (((kinds.map fun kind => (kind, count kind)).filter (·.2 != 0)).lookup kind).getD 0 = count kind := by
  by_cases zero : count kind = 0
  · have absent : ((kinds.map fun kind => (kind, count kind)).filter (·.2 != 0)).lookup kind = none := by
      rw [List.lookup_eq_none_iff]
      intro entry listed
      obtain ⟨counted, occurs⟩ := List.mem_filter.mp listed
      obtain ⟨other, -, rfl⟩ := List.mem_map.mp counted
      rw [bne_iff_ne]
      rintro rfl
      exact absurd zero (by simpa using occurs)
    rw [absent, zero]
    rfl
  · induction kinds with
    | nil => cases inside
    | cons first kinds ih =>
        rw [List.map_cons, List.filter_cons]
        by_cases same : kind = first
        · subst same
          simp [zero]
        · have later := ih ((List.mem_cons.mp inside).resolve_left same)
          split
          · rw [List.lookup_cons, beq_false_of_ne same]
            exact later
          · exact later

theorem sum_nonzero (count : DeclarationKind → Nat) (kinds : List DeclarationKind) :
    (((kinds.map fun kind => (kind, count kind)).filter (·.2 != 0)).map (·.2)).sum = (kinds.map count).sum := by
  induction kinds with
  | nil => rfl
  | cons kind kinds ih =>
      rw [List.map_cons, List.filter_cons, List.map_cons, List.sum_cons]
      by_cases zero : count kind = 0
      · rw [if_neg (by simp [zero]), ih, zero, Nat.zero_add]
      · rw [if_pos (by simp [zero]), List.map_cons, List.sum_cons, ih]

theorem of_kind_count (run : Run) (kind : DeclarationKind) : run.summary.ofKind kind = run.countKind kind := by
  rw [Summary.ofKind, by_kind_counts]
  exact lookup_nonzero run.countKind DeclarationKind.all kind (by cases kind <;> decide)

-- Every finding is counted under exactly one kind.
theorem kinds_counted (findings : List Finding) :
    (DeclarationKind.all.map fun kind => findings.countP (·.kind == kind)).sum = findings.length := by
  induction findings with
  | nil => rfl
  | cons f findings ih =>
      simp only [DeclarationKind.all, List.map_cons, List.map_nil, List.sum_cons, List.sum_nil, List.countP_cons,
        List.length_cons] at ih ⊢
      cases f.kind <;> simp <;> omega

theorem by_kind_sum (run : Run) : (run.summary.byKind.map (·.2)).sum = run.summary.findingsTotal := by
  rw [by_kind_counts]
  exact (sum_nonzero run.countKind DeclarationKind.all).trans (kinds_counted run.findings)

/-! ### Exit codes -/

-- Findings weigh more than failures, and failures more than nothing.
def ExitCode.rank : ExitCode → Nat
  | .success => 0
  | .error => 1
  | .violation => 2

theorem rank_injective : Function.Injective ExitCode.rank := by
  intro first second same
  cases first <;> cases second <;> first | rfl | cases same

instance : LinearOrder ExitCode := LinearOrder.lift' ExitCode.rank rank_injective

theorem no_findings (run : Run) : run.findings = [] ↔ ∀ r ∈ run.files, r.findings = [] := List.flatMap_eq_nil_iff

theorem none_failed (run : Run) : run.failed = [] ↔ ∀ r ∈ run.files, r.failure = none := by
  rw [Run.failed, List.filter_eq_nil_iff]
  simp only [Bool.not_eq_true, Option.isSome_eq_false_iff, Option.isNone_iff_eq_none]

-- The code of a run is the least that is no less than what any report of it asks for.
theorem exit_code_le (run : Run) (code : ExitCode) :
    run.exitCode ≤ code ↔ ∀ r ∈ run.files,
      (r.findings ≠ [] → .violation ≤ code) ∧ (r.failure ≠ none → .error ≤ code) := by
  have asked : (∀ r ∈ run.files, (r.findings ≠ [] → .violation ≤ code) ∧ (r.failure ≠ none → .error ≤ code)) ↔
      (run.findings ≠ [] → .violation ≤ code) ∧ (run.failed ≠ [] → .error ≤ code) := by
    rw [Ne, Ne, no_findings, none_failed]
    push Not
    constructor
    · intro each
      exact ⟨fun ⟨r, inside, found⟩ => (each r inside).1 found, fun ⟨r, inside, failed⟩ => (each r inside).2 failed⟩
    · intro whole r inside
      exact ⟨fun found => whole.1 ⟨r, inside, found⟩, fun failed => whole.2 ⟨r, inside, failed⟩⟩
  rw [asked, Run.exitCode]
  cases run.findings with
  | cons f findings => cases run.failed <;> cases code <;> simp <;> decide
  | nil => cases run.failed <;> cases code <;> simp <;> decide

theorem add_exit_code (run : Run) (reports : List FileReport) :
    (run.add reports).exitCode = max run.exitCode (Run.mk reports).exitCode := by
  apply eq_of_forall_ge_iff
  intro code
  rw [max_le_iff, exit_code_le, exit_code_le, exit_code_le, Run.add, List.forall_mem_append]

theorem exit_code_success (run : Run) :
    run.exitCode = .success ↔ ∀ r ∈ run.files, r.failure = none ∧ r.findings = [] := by
  have least : run.exitCode = .success ↔ run.exitCode ≤ .success := by cases run.exitCode <;> decide
  have above : ¬ ExitCode.violation ≤ .success ∧ ¬ ExitCode.error ≤ .success := by decide
  rw [least, exit_code_le]
  simp only [above.1, above.2, imp_false, not_not, and_comm]

/-! ### Totals -/

theorem session_reordered (first second : List (List FileReport)) (same : first.flatten.Perm second.flatten) :
    (session first).summary = (session second).summary ∧ (session first).exitCode = (session second).exitCode := by
  have files : (session first).files.Perm (session second).files := by
    rw [session_files, session_files]
    exact same
  have findings : (session first).findings.Perm (session second).findings := files.flatMap_right _
  have failed : (session first).failed.Perm (session second).failed := files.filter _
  constructor
  · have kinds : tally (session first).findings = tally (session second).findings := by
      funext kind
      rw [tally_count, tally_count, findings.countP_eq]
    have clean : (session first).cleanClasses = (session second).cleanClasses := (files.flatMap_right _).countP_eq _
    rw [Run.summary, Run.summary, files.length_eq, failed.length_eq, findings.length_eq, kinds, clean]
  · apply eq_of_forall_ge_iff
    intro code
    rw [exit_code_le, exit_code_le]
    exact forall_congr' fun r => imp_congr_left files.mem_iff

structure Summary.IsSum (whole first second : Summary) : Prop where
  filesScanned : whole.filesScanned = first.filesScanned + second.filesScanned
  filesFailed : whole.filesFailed = first.filesFailed + second.filesFailed
  findingsTotal : whole.findingsTotal = first.findingsTotal + second.findingsTotal
  ofKind : ∀ kind, whole.ofKind kind = first.ofKind kind + second.ofKind kind
  cleanClasses : whole.cleanClasses = first.cleanClasses + second.cleanClasses

theorem add_summary (run : Run) (reports : List FileReport) :
    (run.add reports).summary.IsSum run.summary (Run.mk reports).summary := by
  refine ⟨List.length_append, ?_, ?_, ?_, add_clean_classes run reports⟩
  · exact (congrArg List.length (add_failed run reports)).trans List.length_append
  · exact (congrArg List.length (add_findings run reports)).trans List.length_append
  · intro kind
    rw [of_kind_count, of_kind_count, of_kind_count, add_count_kind]

-- The totals of a run agree with one another and with what it holds.
structure Run.Consistent (run : Run) : Prop where
  kinds : ∀ kind, kind ∈ run.summary.byKind.map (·.1) ↔ ∃ f ∈ run.findings, f.kind = kind
  once : (run.summary.byKind.map (·.1)).Nodup
  counts : (run.summary.byKind.map (·.2)).sum = run.summary.findingsTotal
  records : run.summary.findingsTotal = run.records.length
  cleanClasses : run.summary.cleanClasses = (run.files.map fun r => (r.classes.filter (·.clean)).length).sum

theorem run_consistent (run : Run) : run.Consistent := by
  refine ⟨listed_kind run, listed_once run, by_kind_sum run, ?_, ?_⟩
  · rw [Run.records, List.length_map]
    rfl
  · rw [Run.summary, Run.cleanClasses, List.countP_flatMap]
    simp only [Function.comp_def, List.countP_eq_length_filter]

theorem runs_add_up (first second : List (List FileReport)) :
    let before := session first
    let behind := session second
    let whole := session (first ++ second)
    (whole.findings = before.findings ++ behind.findings ∧ whole.failed = before.failed ++ behind.failed ∧
      whole.records = before.records ++ behind.records) ∧
    whole.summary.IsSum before.summary behind.summary ∧ whole.Consistent ∧
    whole.exitCode = max before.exitCode behind.exitCode ∧
    (whole.exitCode = .success ↔ ∀ r ∈ (first ++ second).flatten, r.failure = none ∧ r.findings = []) ∧
    ∀ other : List (List FileReport), other.flatten.Perm (first ++ second).flatten →
      (session other).summary = whole.summary ∧ (session other).exitCode = whole.exitCode := by
  intro before behind whole
  have joined : whole = before.add behind.files := session_append first second
  refine ⟨?_, ?_, run_consistent whole, ?_, ?_, ?_⟩
  · rw [joined]
    exact ⟨add_findings before behind.files, add_failed before behind.files, add_records before behind.files⟩
  · rw [joined]
    exact add_summary before behind.files
  · rw [joined]
    exact add_exit_code before behind.files
  · rw [exit_code_success, session_files]
  · intro other same
    exact session_reordered other (first ++ second) same

-- A failed report with a finding, and a failure without a text.
theorem runs_add_up_hand_made :
    let found : FileReport := ⟨"a.php", [⟨.method, "a.php", some "A", "f", 3⟩], [⟨"A", 2, true⟩], some (.noted "late")⟩
    let silent : FileReport := ⟨"b.php", [], [], some (.noted "")⟩
    [[silent], [found]].flatten.Perm [[found], [silent]].flatten ∧
      (session [[silent], [found]]).summary = ⟨2, 2, 1, [(.method, 1)], 1⟩ ∧
      (session [[silent]]).exitCode = .error ∧ (session [[silent], [found]]).exitCode = .violation := by
  intro found silent
  have swapped : [[silent], [found]].flatten.Perm [[found], [silent]].flatten := List.Perm.swap ..
  obtain ⟨summary, code⟩ := (runs_add_up [[found]] [[silent]]).2.2.2.2.2 [[silent], [found]] swapped
  refine ⟨swapped, ?_, rfl, ?_⟩
  · rw [summary]
    rfl
  · rw [code]
    rfl

end DocAudit
