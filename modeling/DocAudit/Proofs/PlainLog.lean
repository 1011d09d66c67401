import DocAudit.CommandLine.Command
import DocAudit.Proofs.Batch
import DocAudit.Proofs.Php.LineCount
import DocAudit.Proofs.Php.Scanning
import Mathlib.Data.List.Basic

/-!
The plain log against the records of a run. Declarations are found in the order of their lines, so
sorting by line leaves both the missing docblocks and the clean classes of a file in the order in
which they were found, and only shuffles the two together.
-/

set_option autoImplicit false

namespace DocAudit.Php

/-! ### Lines of declarations -/

section

variable (ts : List Token) (taken : Nat → Bool) (k : Nat) (d : Declaration)

theorem function_line (t : Token) (declared : functionAt ts taken k t = some d) : d.line = lineAt ts k := by
  rw [functionAt] at declared
  split at declared
  · cases declared
    rfl
  split at declared
  · cases declared
    rfl
  · cases declared

theorem declaration_line (declared : declarationAt ts taken k = some d) : d.line = lineAt ts k := by
  rw [declarationAt] at declared
  split at declared
  · obtain ⟨t, -, function⟩ := Option.bind_eq_some_iff.mp declared
    exact function_line ts taken k d t function
  · obtain ⟨t, -, rfl⟩ := Option.map_eq_some_iff.mp declared
    rfl

end

theorem line_at_le (source : String) (j k : Nat) (before : j < k) (inside : k < (tokenize source).tokens.length) :
    lineAt (tokenize source).tokens j ≤ lineAt (tokenize source).tokens k := by
  have split := List.take_append_drop j (tokenize source).tokens
  rw [List.drop_eq_getElem_cons (by omega), ← List.take_append_drop (k - (j + 1)) (List.drop (j + 1) _),
    List.drop_drop, Nat.add_sub_cancel' before, List.drop_eq_getElem_cons inside] at split
  simp only [lineAt, List.getElem?_eq_getElem inside, List.getElem?_eq_getElem (Nat.lt_trans before inside)]
  exact token_line_le source _ _ _ _ _ split.symm

theorem declarations_ordered (source : String) :
    (declarations (tokenize source).tokens).Pairwise fun d e => d.line ≤ e.line := by
  rw [declarations_by_position _ (tokenize_well_spelled source)]
  have positions : (List.range (tokenize source).tokens.length).Pairwise fun j k =>
      lineAt (tokenize source).tokens j ≤ lineAt (tokenize source).tokens k := by
    refine List.pairwise_lt_range.imp_of_mem ?_
    intro j k _ last before
    exact line_at_le source j k before (List.mem_range.mp last)
  refine positions.filterMap _ ?_
  intro j k le d first e second
  rw [declaration_line _ _ j d first, declaration_line _ _ k e second]
  exact le

end DocAudit.Php

namespace DocAudit

open Php File CommandLine

-- What is found in a file is found in the order of the lines.
structure Ordered (report : FileReport) : Prop where
  findings : report.findings.Pairwise fun f g => f.line ≤ g.line
  classes : report.classes.Pairwise fun c d => c.line ≤ d.line

theorem ordered_failure (path : String) (failure : Option Failure) : Ordered { path, failure } :=
  ⟨.nil, .nil⟩

theorem summaries_ordered (ds missed : List Declaration) (ordered : ds.Pairwise fun d e => d.line ≤ e.line) :
    (summaries ds missed).Pairwise fun c d => c.line ≤ d.line := by
  have lines : (classDeclarations ds).zipIdx.Pairwise fun a b => a.1.line ≤ b.1.line := by
    rw [← List.pairwise_map (f := Prod.fst) (R := fun d e : Declaration => d.line ≤ e.line), List.zipIdx_map_fst]
    exact ordered.filter _
  exact List.pairwise_map.mpr lines

theorem check_source_ordered (flags : SkipFlags) (path source : String) :
    Ordered (checkSource flags path source) := by
  rw [checkSource, tokens?]
  cases (tokenize source).error with
  | some e => exact ordered_failure path _
  | none =>
      have ordered := declarations_ordered source
      dsimp only
      rw [scan_composed]
      exact ⟨List.pairwise_map.mpr (ordered.filter _), summaries_ordered _ _ ordered⟩

theorem check_file_ordered (fs : System) (flags : SkipFlags) (halves : Text.Halves) (base : Path) (path : String)
    (report : FileReport) (checked : checkFile fs flags halves base path = .ok report) : Ordered report := by
  obtain ⟨shown, rfl⟩ := check_file_read fs flags halves base path report checked
  cases fs.read ((base.join (.ofString path)).spelled halves) with
  | error cause => exact ordered_failure path _
  | ok bytes => exact check_source_ordered flags path _

theorem scan_ordered (fs : System) (request : Request) (run : Run) (scanned : request.scan fs = .ok run) :
    ∀ report ∈ run.files, Ordered report := by
  obtain ⟨paths, -, each⟩ := scanned_alone fs request run scanned
  intro report member
  obtain ⟨path, checked⟩ := each report member
  exact check_file_ordered fs request.flags _ _ path report checked

/-! ### Entries of a log -/

inductive LogEntry where
  | finding (f : Finding)
  | clean (c : ClassSummary)
deriving DecidableEq, Repr

namespace LogEntry

def line : LogEntry → Int
  | finding f => f.line
  | clean c => c.line

def text : LogEntry → String
  | finding f => f.message
  | clean c => c.name ++ " OK"

def isFinding : LogEntry → Bool
  | finding _ => true
  | clean _ => false

-- On one line the findings come first.
def Precedes (a b : LogEntry) : Prop :=
  a.line < b.line ∨ a.line = b.line ∧ (a.isFinding = true ∨ b.isFinding = false)

end LogEntry

def FileReport.cleanClasses (report : FileReport) : List ClassSummary := report.classes.filter (·.clean)

-- The entries as they were found, and by line.
def FileReport.entries (report : FileReport) : List LogEntry :=
  report.findings.map .finding ++ report.cleanClasses.map .clean

def FileReport.entriesByLine (report : FileReport) : List LogEntry :=
  report.entries.mergeSort fun a b => a.line ≤ b.line

theorem log_lines_by_line (report : FileReport) : logLines report = report.entriesByLine.map (·.text) := by
  have keyed : report.entriesByLine.map (fun e => (e.line, e.text)) =
      (report.entries.map fun e => (e.line, e.text)).mergeSort fun a b => a.1 ≤ b.1 :=
    List.map_mergeSort fun a _ b _ => rfl
  have listed : report.entries.map (fun e => (e.line, e.text)) =
      report.findings.map (fun f => (f.line, f.message)) ++
        (report.classes.filter (·.clean)).map fun c => (c.line, c.name ++ " OK") := by
    simp only [FileReport.entries, FileReport.cleanClasses, List.map_append, List.map_map]
    rfl
  rw [logLines, ← listed, ← keyed, List.map_map]
  rfl

-- A stable sort leaves what is in order already as it is.
theorem merge_sort_filter {α : Type} (le : α → α → Bool) (trans : ∀ a b c, le a b → le b c → le a c)
    (total : ∀ a b, le a b || le b a) (xs : List α) (p : α → Bool) (ordered : (xs.filter p).Pairwise (le · ·)) :
    (xs.mergeSort le).filter p = xs.filter p := by
  have within := List.sublist_mergeSort trans total ordered List.filter_sublist
  have kept := within.filter p
  rw [List.filter_eq_self.mpr fun _ member => (List.mem_filter.mp member).2] at kept
  exact (kept.eq_of_length ((List.mergeSort_perm xs le).filter p).length_eq.symm).symm

theorem line_le_trans (a b c : LogEntry) (first : decide (a.line ≤ b.line) = true)
    (second : decide (b.line ≤ c.line) = true) : decide (a.line ≤ c.line) = true :=
  decide_eq_true (Int.le_trans (of_decide_eq_true first) (of_decide_eq_true second))

theorem line_le_total (a b : LogEntry) : (decide (a.line ≤ b.line) || decide (b.line ≤ a.line)) = true := by
  simpa using Int.le_total a.line b.line

theorem by_line_filter (report : FileReport) (p : LogEntry → Bool)
    (ordered : (report.entries.filter p).Pairwise fun a b => a.line ≤ b.line) :
    report.entriesByLine.filter p = report.entries.filter p := by
  apply merge_sort_filter _ line_le_trans line_le_total
  simpa using ordered

theorem finding_entry (fs : List Finding) : ∀ e ∈ fs.map LogEntry.finding, e.isFinding = true := by
  simp [LogEntry.isFinding]

theorem clean_entry (cs : List ClassSummary) : ∀ e ∈ cs.map LogEntry.clean, e.isFinding = false := by
  simp [LogEntry.isFinding]

theorem entries_findings (report : FileReport) :
    report.entries.filter (·.isFinding) = report.findings.map .finding := by
  have none : (report.cleanClasses.map LogEntry.clean).filter (·.isFinding) = [] :=
    List.filter_eq_nil_iff.mpr fun e member => by simp [clean_entry _ e member]
  rw [FileReport.entries, List.filter_append, none, List.filter_eq_self.mpr (finding_entry _), List.append_nil]

theorem entries_clean (report : FileReport) :
    report.entries.filter (!·.isFinding) = report.cleanClasses.map .clean := by
  have none : (report.findings.map LogEntry.finding).filter (!·.isFinding) = [] :=
    List.filter_eq_nil_iff.mpr fun e member => by simp [finding_entry _ e member]
  have all : ∀ e ∈ report.cleanClasses.map LogEntry.clean, (!e.isFinding) = true :=
    fun e member => by simp [clean_entry _ e member]
  rw [FileReport.entries, List.filter_append, none, List.filter_eq_self.mpr all, List.nil_append]

theorem entries_findings_first (report : FileReport) :
    report.entries.Pairwise fun a b => a.isFinding = true ∨ b.isFinding = false := by
  rw [FileReport.entries, List.pairwise_append]
  refine ⟨?_, ?_, ?_⟩
  · exact List.pairwise_of_forall_mem_list fun a first _ _ => .inl (finding_entry _ a first)
  · exact List.pairwise_of_forall_mem_list fun _ _ b second => .inr (clean_entry _ b second)
  · exact fun a first _ _ => .inl (finding_entry _ a first)

-- Entries of one line stay as they were found.
theorem by_line_level (report : FileReport) (n : Int) :
    report.entriesByLine.filter (·.line = n) = report.entries.filter (·.line = n) := by
  apply by_line_filter
  refine List.pairwise_of_forall_mem_list ?_
  intro a first b second
  have here : a.line = n := of_decide_eq_true (List.mem_filter.mp first).2
  have there : b.line = n := of_decide_eq_true (List.mem_filter.mp second).2
  omega

theorem by_line_sorted (report : FileReport) : report.entriesByLine.Pairwise fun a b => a.line ≤ b.line := by
  have sorted := List.pairwise_mergeSort line_le_trans line_le_total report.entries
  exact sorted.imp of_decide_eq_true

theorem by_line_precedes (report : FileReport) : report.entriesByLine.Pairwise LogEntry.Precedes := by
  have ties : ∀ n, report.entriesByLine.Pairwise fun a b =>
      a.line = n → b.line = n → a.isFinding = true ∨ b.isFinding = false := by
    intro n
    have first := (entries_findings_first report).filter (·.line = n)
    rw [← by_line_level, List.pairwise_filter] at first
    simpa using first
  have sorted := by_line_sorted report
  rw [List.pairwise_iff_forall_sublist] at sorted ⊢
  intro a b pair
  rcases Int.lt_or_eq_of_le (sorted pair) with less | same
  · exact .inl less
  · have tie := List.pairwise_iff_forall_sublist.mp (ties b.line) pair
    exact .inr ⟨same, tie same rfl⟩

-- The log of a file: sorted, with the findings and the clean classes each in the order of the source.
structure Logs (report : FileReport) (log : List LogEntry) : Prop where
  texts : logLines report = log.map (·.text)
  sorted : log.Pairwise LogEntry.Precedes
  findings : log.filter (·.isFinding) = report.findings.map .finding
  cleanClasses : log.filter (!·.isFinding) = report.cleanClasses.map .clean

theorem by_line_logs (report : FileReport) (ordered : Ordered report) : Logs report report.entriesByLine := by
  refine ⟨log_lines_by_line report, by_line_precedes report, ?_, ?_⟩
  · rw [by_line_filter, entries_findings]
    rw [entries_findings]
    exact List.pairwise_map.mpr ordered.findings
  · rw [by_line_filter, entries_clean]
    rw [entries_clean]
    exact List.pairwise_map.mpr (ordered.classes.filter _)

theorem log_lines_perm (report : FileReport) : (logLines report).Perm
    (report.findings.map (·.message) ++ report.cleanClasses.map (·.name ++ " OK")) := by
  have perm : report.entriesByLine.Perm report.entries := List.mergeSort_perm _ _
  have texts := perm.map (·.text)
  rw [FileReport.entries, List.map_append, List.map_map, List.map_map] at texts
  rw [log_lines_by_line]
  exact texts

/-! ### The log of a run -/

def endsInOk (text : String) : Bool := " OK".toList.isSuffixOf text.toList

theorem entry_ends_in_ok (e : LogEntry) : endsInOk e.text = !e.isFinding := by
  cases e with
  | clean c =>
      have suffix : " OK".toList <:+ (c.name ++ " OK").toList := ⟨c.name.toList, by simp⟩
      exact List.isSuffixOf_iff_suffix.mpr suffix
  | finding f =>
      -- A message ends in a full stop, whatever path and names are in it.
      refine Bool.eq_false_iff.mpr ?_
      intro ends
      obtain ⟨front, whole⟩ := List.isSuffixOf_iff_suffix.mp ends
      have last := congrArg List.getLast? whole
      rw [List.getLast?_append, LogEntry.text, Finding.message, String.toList_append, List.getLast?_append] at last
      simp at last

theorem log_lines_without_ok (report : FileReport) (ordered : Ordered report) :
    (logLines report).filter (!endsInOk ·) = report.findings.map (·.message) := by
  have logs := by_line_logs report ordered
  rw [logs.texts, List.filter_map]
  simp only [Function.comp_def, entry_ends_in_ok, Bool.not_not]
  rw [logs.findings, List.map_map]
  rfl

theorem run_log_without_ok (run : Run) (ordered : ∀ report ∈ run.files, Ordered report) :
    (run.files.flatMap logLines).filter (!endsInOk ·) = run.findings.map (·.message) := by
  rw [List.filter_flatMap, Run.findings, List.map_flatMap]
  exact List.flatMap_congr fun report member => log_lines_without_ok report (ordered report member)

theorem plain_log_agrees (fs : System) (request : Request) (run : Run) (scanned : request.scan fs = .ok run) :
    (∀ report ∈ run.files,
      (report.findings.Pairwise fun f g => f.line ≤ g.line) ∧
      (report.classes.Pairwise fun c d => c.line ≤ d.line) ∧
      (logLines report).Perm
        (report.findings.map (·.message) ++ report.cleanClasses.map (·.name ++ " OK")) ∧
      ∃ log, Logs report log) ∧
    (run.files.flatMap logLines).filter (!endsInOk ·) = run.findings.map (·.message) ∧
    ((run.files.flatMap logLines).filter (!endsInOk ·)).zip run.records =
      run.findings.map (fun f => (f.message, f.record)) ∧
    ∀ o : Options, o.json = false → o.output run = .ok (lines (run.files.flatMap logLines)) := by
  have ordered := scan_ordered fs request run scanned
  have messages := run_log_without_ok run ordered
  refine ⟨?_, messages, ?_, ?_⟩
  · intro report member
    have here := ordered report member
    exact ⟨here.findings, here.classes, log_lines_perm report, _, by_line_logs report here⟩
  · rw [messages, Run.records, List.zip_map']
  · intro o plain
    simp [Options.output, plain]

-- Two classes on one line, the clean one first.
theorem plain_log_agrees_on_one_line :
    let source : List UInt8 :=
      [60, 63, 112, 104, 112, 32, 47, 42, 42, 32, 42, 47, 32, 99, 108, 97, 115, 115, 32, 66, 32, 123,
      125, 32, 99, 108, 97, 115, 115, 32, 65, 32, 123, 125]
    let fs : System := ⟨.folder [("a.php", .file source)], []⟩
    let request : Request := { files := ["a.php"] }
    let message := "a.php: 1 - Class A is missing a docblock."
    let a : FileReport := ⟨"a.php", [⟨.classDecl, "a.php", none, "A", 1⟩], [⟨"B", 1, true⟩, ⟨"A", 1, false⟩], none⟩
    let run : Run := ⟨[a]⟩
    request.scan fs = .ok run ∧ run.files.flatMap logLines = [message, "B OK"] ∧
      run.findings.map (·.message) = [message] ∧ Options.output {} run = .ok (lines [message, "B OK"]) := by
  intro source fs request message a run
  have scanned : request.scan fs = .ok run := by decide +kernel
  have log : run.files.flatMap logLines = [message, "B OK"] := by
    rw [List.flatMap_singleton, logLines, List.mergeSort_of_pairwise (by decide)]
    decide +kernel
  obtain ⟨-, messages, -, printed⟩ := plain_log_agrees fs request run scanned
  rw [log] at messages printed
  have kept : [message, "B OK"].filter (!endsInOk ·) = [message] := by decide
  exact ⟨scanned, log, messages.symm.trans kept, printed {} rfl⟩

end DocAudit
