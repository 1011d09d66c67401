import DocAudit.Proofs.CommandLine.Arguments
import DocAudit.Proofs.Json.RoundTrip
import DocAudit.Proofs.ReportValidity
import DocAudit.Proofs.Service.ScanRequest

/-!
The command and the service, asked the same. Both come to one scan: whatever the texts look like, the
command line and the body of the request are read back to what was asked for, and both answers tell
what the scan found.
-/

set_option autoImplicit false

namespace DocAudit

open File Service CommandLine

/-! ### The command line of a question -/

def Service.ScanBody.arguments (body : ScanBody) : List String :=
  (body.directory.map ("--directory=" ++ ·)).toList ++
  (if body.exclude = [] then [] else ["--exclude=" ++ String.intercalate "," body.exclude]) ++
  (if body.flags.classes then ["--skip-classes"] else []) ++
  (if body.flags.methods then ["--skip-methods"] else []) ++
  (if body.flags.closures then ["--skip-anonymous-functions"] else []) ++
  "--json" :: "--" :: body.files

def Service.ScanBody.settings (body : ScanBody) : List Setting :=
  (body.directory.map fun directory => (Switch.directory, some directory)).toList ++
  (if body.exclude = [] then [] else [(.exclude, some (String.intercalate "," body.exclude))]) ++
  (if body.flags.classes then [(.skipClasses, none)] else []) ++
  (if body.flags.methods then [(.skipMethods, none)] else []) ++
  (if body.flags.closures then [(.skipClosures, none)] else []) ++ [(.json, none)]

def Service.ScanBody.options (body : ScanBody) : Options where
  directory := body.directory
  exclude := if body.exclude = [] then none else some (String.intercalate "," body.exclude)
  flags := body.flags
  json := true
  files := some body.files

section

variable (body : ScanBody)

theorem arguments_spelled_out : body.arguments = spelledOut body.settings body.files := by
  have directory (d : String) : Setting.text (.directory, some d) = "--directory=" ++ d :=
    congrArg (· ++ d) (by decide : Switch.directory.longName ++ "=" = "--directory=")
  have exclude (e : String) : Setting.text (.exclude, some e) = "--exclude=" ++ e :=
    congrArg (· ++ e) (by decide : Switch.exclude.longName ++ "=" = "--exclude=")
  have flag (on : Bool) (switch : Switch) : (if on then [(switch, none)] else []).map Setting.text =
      if on then [switch.longName] else [] := by
    cases on <;> rfl
  have directories : (body.directory.map fun d => (Switch.directory, some d)).toList.map Setting.text =
      (body.directory.map ("--directory=" ++ ·)).toList := by
    cases body.directory with
    | none => rfl
    | some d => exact congrArg ([·]) (directory d)
  simp only [spelledOut, ScanBody.settings, ScanBody.arguments, List.map_append, directories, flag,
    apply_ite (List.map Setting.text), List.map_cons, List.map_nil, exclude, List.append_assoc]
  rfl

theorem settings_complete : ∀ setting ∈ body.settings, setting.Complete := by
  have flag (on : Bool) (switch : Switch) (plain : switch.takesValue = false) :
      ∀ setting ∈ (if on then [(switch, none)] else []), Setting.Complete setting := by
    cases on <;> simp [Setting.Complete, plain]
  simp only [ScanBody.settings, List.forall_mem_append]
  refine ⟨⟨⟨⟨⟨?_, ?_⟩, flag _ _ rfl⟩, flag _ _ rfl⟩, flag _ _ rfl⟩, by simp [Setting.Complete, Switch.takesValue]⟩
  · cases body.directory <;> simp [Setting.Complete, Switch.takesValue]
  · split <;> simp [Setting.Complete, Switch.takesValue]

theorem settings_applied (other : String.intercalate "," body.exclude ≠ separatorText) :
    Options.applyAll {} body.settings = .ok { body.options with files := none } := by
  obtain ⟨⟨classes, methods, closures⟩, directory, files, exclude⟩ := body
  have kept : Options.excludeOf (some (String.intercalate "," exclude)) = some (String.intercalate "," exclude) :=
    if_neg fun same => other (Option.some.inj same)
  by_cases none : exclude = []
  · subst none
    cases directory <;> cases classes <;> cases methods <;> cases closures <;> rfl
  · cases directory <;> cases classes <;> cases methods <;> cases closures <;>
      simp [ScanBody.settings, ScanBody.options, none, Options.applyAll, Options.apply, kept]

theorem read_arguments (other : String.intercalate "," body.exclude ≠ separatorText) :
    readOptions body.arguments = .ok body.options := by
  rw [arguments_spelled_out]
  exact read_spelled_out _ _ _ (settings_complete body) (settings_applied body other) rfl rfl

-- Excluding the empty text excludes nothing.
theorem options_exclude (commaless : ∀ entry ∈ body.exclude, ',' ∉ entry.toList) :
    normalizeExcludes body.options.excludes = normalizeExcludes body.exclude := by
  by_cases none : body.exclude = []
  · rw [Options.excludes, ScanBody.options, if_pos none, none]
  have split := split_intercalate ',' "," body.exclude rfl none commaless
  by_cases empty : String.intercalate "," body.exclude = ""
  · have nothing : normalizeExcludes [""] = normalizeExcludes [] := by decide +kernel
    rw [empty] at split
    rw [Options.excludes, ScanBody.options, if_neg none, empty, ← split]
    exact nothing.symm
  · rw [Options.excludes, ScanBody.options, if_neg none]
    split
    · rename_i absent
      cases absent
    · rename_i same
      exact absurd (Option.some.inj same) empty
    · rename_i text _ same
      rw [← Option.some.inj same, split]

end

/-! ### What is printed and what is answered -/

def nothingToScan : Result :=
  { code := .error, stderr := lines ["error: nothing to scan; pass --directory and/or files"] }

def missingDirectory (path : Path) : Result :=
  { code := .error, stderr := lines ["error: " ++ (ProjectError.noDirectory path).message] }

def printedRun (run : Run) : Result :=
  { code := run.exitCode, stdout := (Json.arr run.records).text (.block 2),
    stderr := lines (run.files.flatMap (traceLines false)) }

def Answers (answer : Except Service.Fault Response) (status : Nat) : Prop :=
  ∃ response, answer = .ok response ∧ response.status = status

-- What the command printed and returned, against the document that the service answered with.
structure Tells (result : Result) (document report : Json) (status : String) (errors : List Json) : Prop where
  reportField : document.get? "report" = some report
  statusField : document.get? "status" = some (.str status)
  errorsField : document.get? "errors" = some (.arr errors)
  printed : ∃ value, Json.read? result.stdout = some value ∧ Json.Same value report
  returned : result.exited = false
  violation : result.code.toNat = 1 ↔ status = "violations"
  failure : result.code.toNat = 2 ↔ status = "clean" ∧ errors ≠ []
  success : result.code.toNat = 0 ↔ status = "clean" ∧ errors = []

structure Agree (directory : Option String) (command : Except CommandLine.Fault Result)
    (answer : Except Service.Fault Response) : Prop where
  nothing : command = .ok nothingToScan ↔ Answers answer 422
  missing : (∃ d, directory = some d ∧ command = .ok (missingDirectory (.ofString d))) ↔ Answers answer 404
  scanned : ¬ Answers answer 422 → ¬ Answers answer 404 →
    ∃ result document, command = .ok result ∧ answer = .ok (.ofJson 200 document) ∧
      ∃ report status errors, Tells result document report status errors

theorem record_plain (f : Finding) : f.record.floatless = true ∧ f.record.distinct = true := by
  obtain ⟨kind, path, owner, name, line⟩ := f
  cases kind <;> cases owner <;> exact ⟨rfl, rfl⟩

theorem records_plain (run : Run) :
    (Json.arr run.records).floatless = true ∧ (Json.arr run.records).distinct = true := by
  rw [Json.floatless_arr, Json.distinct_arr, Run.records, List.forall_mem_map, List.forall_mem_map]
  exact ⟨fun f _ => (record_plain f).1, fun f _ => (record_plain f).2⟩

theorem exit_code_cases (run : Run) :
    (run.exitCode = .violation ∧ runStatus run = "violations") ∨
    (run.exitCode = .error ∧ runStatus run = "clean" ∧ run.failed ≠ []) ∨
    (run.exitCode = .success ∧ runStatus run = "clean" ∧ run.failed = []) := by
  by_cases found : run.findings = []
  · by_cases failed : run.failed = [] <;> simp [Run.exitCode, runStatus, found, failed]
  · simp [Run.exitCode, runStatus, found]

theorem run_tells (run : Run) :
    Tells (printedRun run) (runJson run) (.arr run.records) (runStatus run) (run.failed.map failureJson) := by
  obtain ⟨floatless, once⟩ := records_plain run
  have read := Json.read_text (.block 2) _ floatless once
  have returned : (printedRun run).code = run.exitCode := rfl
  refine ⟨rfl, rfl, rfl, ⟨_, read, Json.same_sorted _ once⟩, rfl, ?_, ?_, ?_⟩ <;>
    rcases exit_code_cases run with ⟨code, status⟩ | ⟨code, status, failed⟩ | ⟨code, status, failed⟩ <;>
    simp [ExitCode.toNat, *]

theorem lines_one (text : String) : lines [text] = text ++ "\n" := by
  simp [lines]

-- The two messages differ behind the word that both begin with.
theorem nothing_not_missing (path : Path) : nothingToScan ≠ missingDirectory path := by
  intro same
  have texts : lines ["error: nothing to scan; pass --directory and/or files"] =
      lines ["error: " ++ ("scan_project: directory does not exist: " ++ path.text)] := congrArg Result.stderr same
  have chars := congrArg String.toList texts
  simp only [lines_one, String.toList_append] at chars
  have eighth : some 'n' = some 's' := congrArg (·[7]?) chars
  cases eighth

/-! ### One scan -/

theorem scan_normalized (fs : System) (first second : DocAudit.Request) (halves : first.halves = second.halves)
    (directory : first.directory = second.directory) (files : first.files = second.files) (flags : first.flags = second.flags)
    (exclude : normalizeExcludes first.exclude = normalizeExcludes second.exclude) : first.scan fs = second.scan fs := by
  have discovered (root : Path) : fs.discover root first.exclude = fs.discover root second.exclude := by
    rw [System.discover, System.discover, exclude]
  have paths : first.paths fs = second.paths fs := by
    simp only [Request.paths, halves, directory, files, discovered]
  rw [Request.scan, Request.scan, paths, halves, directory, flags]

theorem nameable_empty (path : String) (plain : Path.nul ∉ path.toList) : nameable .empty path = true := by
  rw [nameable_iff, List.any_eq_false]
  exact ⟨fun c _ => by simp [isStray, half_empty], plain⟩

theorem scan_outcome (fs : System) (proper : fs.root.Proper) (request : DocAudit.Request)
    (whole : request.halves = .empty) (plain : ∀ file ∈ request.files, Path.nul ∉ file.toList) :
    (∃ root, request.directory = some root ∧ request.scan fs = .error (.noDirectory root)) ∨
    (∃ root, request.directory = some root ∧ fs.folder? root = .error .nameTooLong ∧
      request.scan fs = .error (.unusable .nameTooLong (Text.quoted root.text))) ∨
    ∃ run, request.scan fs = .ok run := by
  have apart : fs.root.Apart request.halves := by
    rw [whole]
    exact fun c _ => half_empty c
  rcases directory_cases fs request with
    ⟨root, directory, -, stopped⟩ | ⟨root, directory, folder, stopped⟩ | ⟨found, discovered, clear, listed⟩
  · exact .inl ⟨root, directory, by rw [Request.scan, stopped]⟩
  · rw [whole, spelled_folder_empty] at folder
    refine .inr (.inl ⟨root, directory, folder, ?_⟩)
    rw [Request.scan, stopped, whole, quoted_empty]
  · have named : ∀ path ∈ found ++ request.files, nameable request.halves path = true := by
      rw [List.forall_mem_append]
      refine ⟨discovered_nameable fs request proper apart found discovered, fun file member => ?_⟩
      rw [whole]
      exact nameable_empty file (plain file member)
    obtain ⟨run, scanned, -⟩ := scan_nameable fs request _ listed clear named
    exact .inr (.inr ⟨run, scanned⟩)

-- A question that both can be asked in the same words.
structure Askable (body : ScanBody) : Prop where
  files : ∀ file ∈ body.files, Path.nul ∉ file.toList
  exclude : ∀ entry ∈ body.exclude, ',' ∉ entry.toList
  directory : body.directory ≠ some "--"
  joined : String.intercalate "," body.exclude ≠ "--"

def Service.ScanBody.asksNothing (body : ScanBody) : Bool := body.directory.isNone && body.files.isEmpty

section

variable (fs : System) (body : ScanBody) (askable : Askable body)

include askable

theorem command_performs : CommandLine.run body.arguments fs = body.options.perform fs := by
  rw [CommandLine.run, read_arguments body askable.joined]

theorem command_nothing (nothing : body.asksNothing = true) :
    CommandLine.run body.arguments fs = .ok nothingToScan := by
  have plain : ¬ body.options.directory = some separatorText := askable.directory
  have asks : body.options.nothingToScan = true := nothing
  rw [command_performs fs body askable, Options.perform, if_neg plain, if_pos asks]
  rfl

theorem command_scan (workdir : ∀ bytes, fs.node? fs.cwd ≠ some (.file bytes)) (asks : body.asksNothing = false) :
    CommandLine.run body.arguments fs =
      match body.plainRequest.scan fs with
      | .error (.noDirectory path) => .ok (missingDirectory path)
      | .error e => .error (.project e)
      | .ok run => .ok (printedRun run) := by
  have plain : ¬ body.options.directory = some separatorText := askable.directory
  have nothing : body.options.nothingToScan = false := asks
  have same : body.options.request.scan fs = body.plainRequest.scan fs :=
    scan_normalized fs _ _ rfl rfl rfl rfl (options_exclude body askable.exclude)
  rw [command_performs fs body askable, Options.perform, if_neg plain, nothing, if_neg (by simp), same]
  cases scanned : body.plainRequest.scan fs with
  | error e => cases e <;> rfl
  | ok run =>
      -- The schema refuses no report, so nothing stands in the way of printing it.
      have accepted := records_accepted run.findings (scan_reportable fs workdir _ run scanned)
      have kept : reportSchema.violations (.arr run.records) = [] := List.isEmpty_iff.mp accepted
      have output : body.options.output run = .ok ((Json.arr run.records).text (.block 2)) := by
        rw [Options.output, if_pos (by rfl)]
        dsimp only
        rw [kept]
      dsimp only
      rw [output]
      rfl

end

section

variable (context : Context) (body : ScanBody) (layout : Json.Layout) (server : String)

theorem answer_nothing (nothing : body.asksNothing = true) :
    handle context (body.post layout server) = .ok (.detail 422 "Provide a directory and/or files") := by
  rw [handle_post, scanFiles, ← ScanBody.asksNothing, if_pos nothing]

theorem answer_scan (defaults : context.settings.defaultExclude = []) (asks : body.asksNothing = false) :
    handle context (body.post layout server) =
      match body.plainRequest.scan context.fs with
      | .error (.noDirectory path) => .ok (.detail 404 (ProjectError.noDirectory path).message)
      | .error e => .error (.project e)
      | .ok run => .ok (.ofJson 200 (runJson run)) := by
  rw [handle_post, scanFiles, ← ScanBody.asksNothing, asks, if_neg (by simp), plain_request body _ defaults]
  cases body.plainRequest.scan context.fs with
  | ok run => exact report_whole run
  | error e =>
      cases e with
      | noDirectory path => exact sending_whole _ _ rfl
      | unusable cause shown => rfl
      | unencodable run => rfl
      | nulInPath => rfl

end

/-! ### Agreement -/

theorem answers_status (response : Response) (status : Nat) :
    Answers (.ok response) status ↔ response.status = status := by
  constructor
  · rintro ⟨other, same, found⟩
    exact Except.ok.inj same ▸ found
  · exact fun found => ⟨response, rfl, found⟩

theorem nothing_agrees (directory : Option String) (text : String) :
    Agree directory (.ok nothingToScan) (.ok (.detail 422 text)) := by
  refine ⟨?_, ?_, ?_⟩
  · exact iff_of_true rfl ((answers_status _ _).mpr rfl)
  · refine iff_of_false ?_ ?_
    · rintro ⟨d, -, same⟩
      exact nothing_not_missing _ (Except.ok.inj same)
    · rw [answers_status]
      exact (by decide : (422 : Nat) ≠ 404)
  · exact fun other => absurd ((answers_status _ _).mpr rfl) other

theorem missing_agrees (d : String) (text : String) :
    Agree (some d) (.ok (missingDirectory (.ofString d))) (.ok (.detail 404 text)) := by
  refine ⟨?_, ?_, ?_⟩
  · refine iff_of_false ?_ ?_
    · intro same
      exact nothing_not_missing _ (Except.ok.inj same).symm
    · rw [answers_status]
      exact (by decide : (404 : Nat) ≠ 422)
  · exact iff_of_true ⟨d, rfl, rfl⟩ ((answers_status _ _).mpr rfl)
  · exact fun _ other => absurd ((answers_status _ _).mpr rfl) other

theorem printed_filled (run : Run) : (printedRun run).stdout ≠ "" := by
  rw [printedRun, Json.text_body]
  simp

theorem run_agrees (directory : Option String) (run : Run) :
    Agree directory (.ok (printedRun run)) (.ok (.ofJson 200 (runJson run))) := by
  have filled := printed_filled run
  refine ⟨?_, ?_, ?_⟩
  · refine iff_of_false ?_ ?_
    · intro same
      exact filled (congrArg Result.stdout (Except.ok.inj same))
    · rw [answers_status]
      exact (by decide : (200 : Nat) ≠ 422)
  · refine iff_of_false ?_ ?_
    · rintro ⟨d, -, same⟩
      exact filled (congrArg Result.stdout (Except.ok.inj same))
    · rw [answers_status]
      exact (by decide : (200 : Nat) ≠ 404)
  · exact fun _ _ => ⟨_, _, rfl, rfl, _, _, _, run_tells run⟩

theorem command_and_service_agree (context : Context) (proper : context.fs.root.Proper)
    (workdir : ∀ bytes, context.fs.node? context.fs.cwd ≠ some (.file bytes))
    (defaults : context.settings.defaultExclude = []) (body : ScanBody) (askable : Askable body)
    (layout : Json.Layout) (server : String) :
    (∃ d, body.directory = some d ∧ context.fs.folder? (.ofString d) = .error .nameTooLong ∧
      CommandLine.run body.arguments context.fs =
        .error (.project (.unusable .nameTooLong (Text.quoted (Path.ofString d).text))) ∧
      handle context (body.post layout server) =
        .error (.project (.unusable .nameTooLong (Text.quoted (Path.ofString d).text)))) ∨
    Agree body.directory (CommandLine.run body.arguments context.fs)
      (handle context (body.post layout server)) := by
  cases asks : body.asksNothing with
  | true =>
      rw [command_nothing context.fs body askable asks, answer_nothing context body layout server asks]
      exact .inr (nothing_agrees _ _)
  | false =>
      rw [command_scan context.fs body askable workdir asks,
        answer_scan context body layout server defaults asks]
      rcases scan_outcome context.fs proper body.plainRequest rfl askable.files with
        ⟨root, directory, scanned⟩ | ⟨root, directory, folder, scanned⟩ | ⟨run, scanned⟩
      · obtain ⟨d, given, rfl⟩ := Option.map_eq_some_iff.mp directory
        rw [scanned, given]
        exact .inr (missing_agrees d _)
      · obtain ⟨d, given, rfl⟩ := Option.map_eq_some_iff.mp directory
        rw [scanned]
        exact .inl ⟨d, given, folder, rfl, rfl⟩
      · rw [scanned]
        exact .inr (run_agrees _ run)

-- Files that look like switches, and an empty entry among the excluded ones.
theorem command_and_service_agree_on_dashes :
    let source : List UInt8 := [60, 63, 112, 104, 112, 32, 99, 108, 97, 115, 115, 32, 65, 32, 123, 125]
    let folder : Node := .folder [("a.php", .file source), ("b.php", .file source)]
    let context : Context := { fs := ⟨.folder [("p", folder)], []⟩ }
    let body : ScanBody := ⟨{ methods := true }, some "p", ["--", "-x=1"], ["", "b.php"]⟩
    context.fs.root.Proper ∧ Askable body ∧ context.fs.folder? (.ofString "p") = .ok (some ["p"]) ∧
      body.arguments = ["--directory=p", "--exclude=,b.php", "--skip-methods", "--json", "--", "--", "-x=1"] ∧
      Agree (some "p") (CommandLine.run body.arguments context.fs)
        (handle context (body.post .compact "testserver")) := by
  intro source folder context body
  have proper : context.fs.root.Proper := by
    refine .folder _ (by decide) (by decide) (List.forall_mem_singleton.mpr ?_)
    refine .folder _ (by decide) (by decide) ?_
    rw [List.forall_mem_cons, List.forall_mem_singleton]
    exact ⟨.file _, .file _⟩
  have askable : Askable body := ⟨by decide, by decide, by decide, by decide⟩
  have found : context.fs.folder? (.ofString "p") = .ok (some ["p"]) := by decide +kernel
  have spelled : body.arguments =
      ["--directory=p", "--exclude=,b.php", "--skip-methods", "--json", "--", "--", "-x=1"] := by decide
  refine ⟨proper, askable, found, spelled, ?_⟩
  rcases command_and_service_agree context proper (by rintro bytes ⟨⟩) rfl body askable .compact "testserver" with
    ⟨d, given, unusable, -⟩ | agree
  · cases given
    cases found.symm.trans unusable
  · exact agree

theorem of_string_name (name : String) (slashless : '/' ∉ name.toList) (filled : name ≠ "") (other : name ≠ ".") :
    Path.ofString name = ⟨.relative, [name]⟩ := by
  have anchor : Path.anchorOf name.toList = .relative := by
    cases chars : name.toList with
    | nil => rfl
    | cons c s =>
        rw [chars, List.mem_cons, not_or] at slashless
        rw [Path.anchorOf, List.takeWhile_cons_of_neg (by simpa using Ne.symm slashless.1)]
        rfl
  have parts : Text.split '/' name = [name] := by
    rw [Text.split, split_chars_one '/' _ slashless, List.map_singleton, String.ofList_toList]
  simp [Path.ofString, anchor, parts, filled, other]

theorem overlong_directory_stops_both :
    let context : Context := { fs := ⟨.folder [], []⟩ }
    let body : ScanBody := ⟨{}, some (longName ++ "n"), [], []⟩
    context.fs.root.Proper ∧ (∀ bytes, context.fs.node? context.fs.cwd ≠ some (.file bytes)) ∧
      context.settings.defaultExclude = [] ∧ Askable body ∧
      ¬ Agree body.directory (CommandLine.run body.arguments context.fs)
        (handle context (body.post .compact "testserver")) := by
  intro context body
  have proper : context.fs.root.Proper := .folder [] (by decide) (by decide) (by simp)
  have workdir : ∀ bytes, context.fs.node? context.fs.cwd ≠ some (.file bytes) := by rintro bytes ⟨⟩
  have other : ∀ name, Text.Utf8.size name ≠ nameLimit + 1 → longName ++ "n" ≠ name := by
    rintro name short rfl
    rw [size_append, long_name_size] at short
    exact short (by decide)
  have askable : Askable body := by
    refine ⟨by simp [body], by simp [body], ?_, by decide⟩
    exact fun same => other "--" (by decide) (Option.some.inj same)
  have slashless : '/' ∉ (longName ++ "n").toList := by
    simp [proper_name_slash longName long_name_proper]
  have path : Path.ofString (longName ++ "n") = overlongPath :=
    of_string_name _ slashless (other "" (by decide)) (other "." (by decide))
  have scanned := scan_overlong context.fs [] rfl body.plainRequest (congrArg some path) rfl
  refine ⟨proper, workdir, rfl, askable, ?_⟩
  rw [command_scan context.fs body askable workdir rfl, answer_scan context body _ _ rfl rfl, scanned]
  intro agree
  obtain ⟨result, document, finished, -⟩ := agree.scanned (by rintro ⟨response, ⟨⟩, -⟩) (by rintro ⟨response, ⟨⟩, -⟩)
  cases finished

end DocAudit
