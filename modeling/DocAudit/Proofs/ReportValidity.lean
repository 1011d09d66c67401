import DocAudit.CommandLine.Command
import DocAudit.Proofs.Batch
import DocAudit.Proofs.Php.LineCount
import DocAudit.Proofs.Php.Scanning
import DocAudit.Proofs.SchemaRules

/-!
Reports keep their schema. Every finding of a scan has a name and a line, a method has a named class
around it, and a file that was read has a path that is not empty; that is what the rules ask for.
-/

set_option autoImplicit false

namespace DocAudit.Php

/-! ### What a declaration says -/

section

variable (ts : List Token) (taken : Nat → Bool)

theorem awaits_line (head : Head) (k : Nat) (awaits : awaitsName ts taken head k = true) :
    ∃ t ∈ ts, lineAt ts k = t.line := by
  obtain ⟨t, here, -, -⟩ := awaits_keyword ts taken head k awaits
  exact ⟨t, List.mem_of_getElem? here, by rw [lineAt, here]; rfl⟩

variable (filled : ∀ t ∈ ts, t.text ≠ "")

include filled

theorem head_named (k : Nat) (scope : Scope) (head : headAt ts taken k = some scope) : scope.name ≠ "" := by
  rw [headAt] at head
  split at head
  · cases head
    decide
  · obtain ⟨t, named, rfl⟩ := Option.map_eq_some_iff.mp head
    exact filled t (class_name_member ts taken k t named).2

theorem enclosing_named (k : Nat) (scope : Scope) (inside : enclosingAt ts taken k = some scope) :
    scope.name ≠ "" := by
  obtain ⟨b, -, owner⟩ := List.exists_of_findSome?_eq_some inside
  obtain ⟨h, -, head⟩ := Option.bind_eq_some_iff.mp owner
  exact head_named ts taken filled h scope head

theorem function_described (k : Nat) (t : Token) (d : Declaration) (member : t ∈ ts)
    (inside : (enclosingAt ts taken k).isSome = true) (declared : functionAt ts taken k t = some d) :
    d.name ≠ "" ∧ d.line = lineAt ts k ∧ ∃ owner, d.enclosing = some owner ∧ owner ≠ "" := by
  obtain ⟨scope, enclosing⟩ := Option.isSome_iff_exists.mp inside
  have owned : ∃ owner, (enclosingAt ts taken k).map Scope.name = some owner ∧ owner ≠ "" :=
    ⟨scope.name, by rw [enclosing]; rfl, enclosing_named ts taken filled k scope enclosing⟩
  rw [functionAt] at declared
  split at declared
  · cases declared
    exact ⟨filled t member, rfl, owned⟩
  split at declared
  · cases declared
    have closure : closureName ≠ "" := by decide
    exact ⟨closure, rfl, owned⟩
  · cases declared

theorem declaration_described (k : Nat) (d : Declaration) (declared : declarationAt ts taken k = some d) :
    d.name ≠ "" ∧ (∃ t ∈ ts, d.line = t.line) ∧
      (d.kind ≠ .classDecl → ∃ owner, d.enclosing = some owner ∧ owner ≠ "") := by
  rw [declarationAt] at declared
  split at declared
  · rename_i awaits
    have inside : (enclosingAt ts taken k).isSome = true := by
      simp only [awaitsName, Bool.and_eq_true] at awaits
      exact awaits.2
    obtain ⟨t, next, function⟩ := Option.bind_eq_some_iff.mp declared
    obtain ⟨name, line, owner⟩ := function_described ts taken filled k t d
      (next_token_member ts .ofFunction k t next) inside function
    exact ⟨name, line ▸ awaits_line ts taken .ofFunction k awaits, fun _ => owner⟩
  · obtain ⟨t, named, rfl⟩ := Option.map_eq_some_iff.mp declared
    obtain ⟨awaits, member⟩ := class_name_member ts taken k t named
    exact ⟨filled t member, awaits_line ts taken .ofClass k awaits, fun other => absurd rfl other⟩

end

theorem token_line_positive (source : String) (t : Token) (member : t ∈ (tokenize source).tokens) : 1 ≤ t.line := by
  obtain ⟨before, after, split⟩ := List.append_of_mem member
  rw [token_line source before after t split]
  omega

end DocAudit.Php

namespace DocAudit

open Php File

/-! ### Records and their rules -/

theorem non_empty_string_kept (s : String) : allViolations nonEmptyString (.str s) = [] ↔ s ≠ "" := by
  have length : 1 ≤ s.length ↔ s ≠ "" := by
    rw [Nat.one_le_iff_ne_zero, ne_eq, ne_eq, String.length_eq_zero_iff]
  simp [nonEmptyString, JsonType.has, length]

theorem owner_kept (className : Option String) :
    allViolations nonEmptyString (.ofOption className) = [] ↔ ∃ owner, className = some owner ∧ owner ≠ "" := by
  cases className with
  | none => simp [Json.ofOption, nonEmptyString, JsonType.has]
  | some owner => simp [Json.ofOption, non_empty_string_kept]

theorem class_record_kept (path name : String) (line : Int) :
    allViolations recordRules (.obj [("type", .str "class"), ("file", .str path), ("class", .str name),
      ("line", .int line)]) = [] ↔ path ≠ "" ∧ name ≠ "" ∧ 1 ≤ line := by
  rw [← non_empty_string_kept path, ← non_empty_string_kept name]
  simp [recordRules, Json.lookup, JsonType.has]

theorem method_record_kept (path name : String) (className : Json) (line : Int) :
    allViolations recordRules (.obj [("type", .str "method"), ("file", .str path), ("class", className),
      ("method", .str name), ("line", .int line)]) = [] ↔
        path ≠ "" ∧ allViolations nonEmptyString className = [] ∧ name ≠ "" ∧ 1 ≤ line := by
  rw [← non_empty_string_kept path, ← non_empty_string_kept name]
  simp [recordRules, Json.lookup, JsonType.has]

-- A finding whose record has all that the rules ask for.
structure Reportable (f : Finding) : Prop where
  path : f.path ≠ ""
  name : f.name ≠ ""
  line : 1 ≤ f.line
  owner : f.kind ≠ .classDecl → ∃ owner, f.className = some owner ∧ owner ≠ ""

theorem record_kept (f : Finding) (reportable : Reportable f) : allViolations recordRules f.record = [] := by
  obtain ⟨path, name, line, owner⟩ := reportable
  have member : f.kind ≠ .classDecl → allViolations nonEmptyString (.ofOption f.className) = [] :=
    fun other => (owner_kept f.className).mpr (owner other)
  cases kind : f.kind with
  | classDecl =>
      rw [Finding.record, Finding.recordType, kind]
      exact (class_record_kept f.path f.name f.line).mpr ⟨path, name, line⟩
  | method =>
      rw [Finding.record, Finding.recordType, kind]
      exact (method_record_kept f.path f.name _ f.line).mpr ⟨path, member (by simp [kind]), name, line⟩
  | closure =>
      rw [Finding.record, Finding.recordType, kind]
      exact (method_record_kept f.path f.name _ f.line).mpr ⟨path, member (by simp [kind]), name, line⟩

theorem records_accepted (fs : List Finding) (reportable : ∀ f ∈ fs, Reportable f) :
    reportSchema.accepts (.arr (fs.map (·.record))) = true := by
  rw [Schema.accepts, List.isEmpty_iff, Schema.violations, reportSchema, all_kept_cons, all_kept_cons, type_kept,
    items_kept]
  refine ⟨rfl, ?_, rfl⟩
  intro j member
  obtain ⟨f, inside, rfl⟩ := List.mem_map.mp member
  exact record_kept f (reportable f inside)

/-! ### Findings -/

theorem check_source_reportable (flags : SkipFlags) (path source : String) (named : path ≠ "") :
    ∀ f ∈ (checkSource flags path source).findings, Reportable f := by
  intro f member
  have filled := tokenize_nonempty source
  cases read : tokens? source with
  | error e => simp [checkSource, read] at member
  | ok tokens =>
      have whole : tokens = (tokenize source).tokens := by
        rw [tokens?] at read
        split at read <;> cases read
        rfl
      subst whole
      simp only [checkSource, read, findings_by_position source flags path] at member
      obtain ⟨k, -, found⟩ := List.mem_filterMap.mp member
      obtain ⟨d, declared, rfl⟩ := Option.map_eq_some_iff.mp found
      obtain ⟨name, ⟨t, inside, line⟩, owner⟩ :=
        declaration_described _ _ filled k d (Option.filter_eq_some_iff.mp declared).1
      have positive : 1 ≤ d.line := line ▸ token_line_positive source t inside
      exact ⟨named, name, positive, owner⟩

/-! ### Files -/

theorem join_empty (base : Path) : base.join (.ofString "") = base := by
  have empty : Path.ofString "" = .here := by decide
  rw [empty, Path.join, if_pos (by rfl : Path.here.anchor = .relative), Path.here, List.append_nil]

section

variable (fs : System)

theorem folder_unreadable (root : Path) (place : List String) (folder : fs.folder? root = .ok (some place)) :
    ∀ bytes, fs.read root ≠ .ok bytes := by
  intro bytes read
  rw [System.folder?] at folder
  split at folder
  · cases folder
  cases resolved : fs.resolve root with
  | error cause =>
      rw [resolved] at folder
      cases cause <;> cases folder
  | ok found =>
      rw [resolved] at folder
      dsimp only at folder
      split at folder
      · rename_i inFolder
        obtain ⟨node, here, isFolder⟩ := (Option.any_eq_true _ _).mp inFolder
        rw [System.read, resolved] at read
        dsimp only at read
        rw [here] at read
        cases node with
        | folder entries => cases read
        | file => cases isFolder
        | link => cases isFolder
      · cases folder

theorem here_unreadable (workdir : ∀ bytes, fs.node? fs.cwd ≠ some (.file bytes)) :
    ∀ bytes, fs.read .here ≠ .ok bytes := by
  intro bytes read
  have short : ¬ pathLimit ≤ Text.Utf8.size Path.here.text := by decide
  have resolved : fs.resolve .here = .ok fs.cwd := by
    rw [System.resolve, System.spot, if_neg short, if_pos (by rfl : Path.here.anchor = .relative), System.follow]
    rfl
  rw [System.read, resolved] at read
  dsimp only at read
  split at read
  · rename_i contents here
    exact workdir contents here
  · cases read
  · cases read

variable (flags : SkipFlags) (halves : Text.Halves) (base : Path)
variable (unreadable : ∀ bytes, fs.read (base.spelled halves) ≠ .ok bytes)

include unreadable

-- The empty path is the base itself, and that cannot be read.
theorem check_file_reportable (path : String) (report : FileReport)
    (checked : checkFile fs flags halves base path = .ok report) : ∀ f ∈ report.findings, Reportable f := by
  obtain ⟨shown, rfl⟩ := check_file_read fs flags halves base path report checked
  cases read : fs.read ((base.join (.ofString path)).spelled halves) with
  | error cause =>
      intro f member
      cases member
  | ok bytes =>
      have named : path ≠ "" := by
        rintro rfl
        rw [join_empty] at read
        exact unreadable bytes read
      exact check_source_reportable flags path _ named

end

theorem base_unreadable (fs : System) (workdir : ∀ bytes, fs.node? fs.cwd ≠ some (.file bytes))
    (request : Request) (paths : List String) (listed : request.paths fs = .ok paths) :
    ∀ bytes, fs.read ((request.directory.getD .here).spelled request.halves) ≠ .ok bytes := by
  cases directory : request.directory with
  | none => exact here_unreadable fs workdir
  | some root =>
      rw [Request.paths, directory] at listed
      dsimp only at listed
      split at listed
      · cases listed
      · cases listed
      · rename_i place folder
        exact folder_unreadable fs _ place (spelled_folder_place fs request root place folder).2

theorem scan_reportable (fs : System) (workdir : ∀ bytes, fs.node? fs.cwd ≠ some (.file bytes))
    (request : Request) (run : Run) (scanned : request.scan fs = .ok run) :
    ∀ f ∈ run.findings, Reportable f := by
  obtain ⟨paths, listed, each⟩ := scanned_alone fs request run scanned
  have unreadable := base_unreadable fs workdir request paths listed
  intro f member
  obtain ⟨report, inside, found⟩ := List.mem_flatMap.mp member
  obtain ⟨path, checked⟩ := each report inside
  exact check_file_reportable fs request.flags _ _ unreadable path report checked f found

/-! ### The command -/

theorem output_valid (o : CommandLine.Options) (run : Run)
    (accepted : reportSchema.accepts (.arr run.records) = true) : ∃ text, o.output run = .ok text := by
  have kept : reportSchema.violations (.arr run.records) = [] := List.isEmpty_iff.mp accepted
  rw [CommandLine.Options.output]
  split
  · dsimp only
    rw [kept]
    exact ⟨_, rfl⟩
  · exact ⟨_, rfl⟩

theorem perform_valid (fs : System) (workdir : ∀ bytes, fs.node? fs.cwd ≠ some (.file bytes))
    (o : CommandLine.Options) (violations : List Violation) :
    o.perform fs ≠ .error (.invalidReport violations) := by
  intro failed
  rw [CommandLine.Options.perform] at failed
  split at failed
  · cases failed
  split at failed
  · cases failed
  cases scanned : o.request.scan fs with
  | error e =>
      rw [scanned] at failed
      cases e <;> cases failed
  | ok run =>
      have accepted := records_accepted run.findings (scan_reportable fs workdir o.request run scanned)
      obtain ⟨text, written⟩ := output_valid o run accepted
      rw [scanned] at failed
      dsimp only at failed
      rw [written] at failed
      cases failed

theorem command_valid (fs : System) (workdir : ∀ bytes, fs.node? fs.cwd ≠ some (.file bytes)) (argv : List String)
    (violations : List Violation) : CommandLine.run argv fs ≠ .error (.invalidReport violations) := by
  rw [CommandLine.run]
  cases CommandLine.readOptions argv with
  | error stop => simp
  | ok o => exact perform_valid fs workdir o violations

theorem reports_keep_schema (fs : System) (workdir : ∀ bytes, fs.node? fs.cwd ≠ some (.file bytes)) :
    (∀ (request : Request) (run : Run), request.scan fs = .ok run →
      reportSchema.accepts (.arr run.records) = true) ∧
    (∀ argv violations, CommandLine.run argv fs ≠ .error (.invalidReport violations)) ∧
    ∀ (flags : SkipFlags) (path : String), path ≠ "" →
      (∀ source, reportSchema.accepts (.arr (Run.records ⟨[checkSource flags path source]⟩)) = true) ∧
      ∀ bytes, reportSchema.accepts (.arr (Run.records ⟨[checkBytes flags path bytes]⟩)) = true := by
  have alone : ∀ (flags : SkipFlags) (path source : String), path ≠ "" →
      reportSchema.accepts (.arr (Run.records ⟨[checkSource flags path source]⟩)) = true := by
    intro flags path source named
    apply records_accepted
    intro f member
    exact check_source_reportable flags path source named f (by simpa [Run.findings] using member)
  refine ⟨?_, ?_, ?_⟩
  · intro request run scanned
    exact records_accepted run.findings (scan_reportable fs workdir request run scanned)
  · exact command_valid fs workdir
  · intro flags path named
    exact ⟨fun source => alone flags path source named, fun bytes => alone flags path _ named⟩

-- A directory with one source, and the empty path after it.
theorem reports_keep_schema_after_empty_path :
    let source : List UInt8 := [60, 63, 112, 104, 112, 32, 99, 108, 97, 115, 115, 32, 65]
    let fs : System := ⟨.folder [("p", .folder [("a.php", .file source)])], ["p"]⟩
    let request : Request := { directory := some .here, files := [""] }
    (∃ run, request.scan fs = .ok run ∧ run.findings = [⟨.classDecl, "a.php", none, "A", 1⟩] ∧
      reportSchema.accepts (.arr run.records) = true) ∧
    reportSchema.accepts (.arr (Run.records ⟨[checkBytes {} "a.php" source]⟩)) = true := by
  intro source fs request
  have valid := reports_keep_schema fs (by rintro bytes ⟨⟩)
  have found : (request.scan fs).toOption.map (·.findings) = some [⟨.classDecl, "a.php", none, "A", 1⟩] := by
    decide +kernel
  refine ⟨?_, (valid.2.2 {} "a.php" (by decide)).2 source⟩
  cases scanned : request.scan fs with
  | error e =>
      rw [scanned] at found
      cases found
  | ok run =>
      rw [scanned] at found
      exact ⟨run, rfl, Option.some.inj found, valid.1 request run scanned⟩

end DocAudit
