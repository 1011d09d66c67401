import DocAudit.Project
import DocAudit.Proofs.File.Discovery
import DocAudit.Proofs.File.Naming
import Mathlib.Data.List.Forall2

/-!
A batch of files. Whatever is wrong with a file is written into its own report, and a scan gives
one report for each path, with three exceptions: a directory that is none, a directory whose path
is too long, and a text that is no path, for a NUL in it or for half a pair that is no byte.
-/

set_option autoImplicit false

namespace DocAudit

open File Php

-- What is raised for a text that is no path. Half a pair is found before a NUL is.
def Misnamed (halves : Text.Halves) (path : String) : ProjectError → Prop
  | .unencodable _ => path.toList.any (isStray halves) = true
  | .nulInPath => path.toList.any (isStray halves) = false ∧ Path.nul ∈ path.toList
  | _ => False

theorem discovered_chars (fs : System) (proper : fs.root.Proper) (root : Path) (exclude found : List String)
    (discovered : fs.discover root exclude = .ok found) :
    ∀ p ∈ found, ∀ c ∈ p.toList, c = '/' ∨ c ≠ Path.nul ∧ c ∈ fs.root.chars := by
  intro p member c held
  by_cases slash : c = '/'
  · exact .inl slash
  rw [System.discover, System.sources] at discovered
  cases folder : fs.folder? root with
  | error cause =>
      rw [folder] at discovered
      cases discovered
  | ok result =>
      cases result with
      | none =>
          rw [folder] at discovered
          cases discovered
          cases member
      | some place =>
          obtain ⟨-, entries, node⟩ := folder_place fs root place folder
          have below := (descend_proper fs.root proper place _ node).1
          have sources := discover_sources fs root exclude place _ folder node
          rw [System.discover, System.sources, discovered] at sources
          cases sources
          obtain ⟨wanted, -⟩ := (found_iff fs _ root.walked _ below p).mp member
          obtain ⟨leaf, found, -⟩ := wanted.entry
          obtain ⟨name, inside, also⟩ := (mem_components c p slash).mp held
          have valid := (descend_proper _ below _ leaf found).2 name inside
          have kept := descend_chars _ _ leaf found c (.inl ⟨name, inside, also⟩)
          refine .inr ⟨?_, descend_chars fs.root place _ node c (.inr kept)⟩
          rintro rfl
          exact proper_name_nul name valid also

/-! ### Files one by one -/

section

variable (fs : System) (flags : SkipFlags) (halves : Text.Halves) (base : Path)

theorem check_source_failed (path source : String) :
    (checkSource flags path source).path = path ∧
      ((checkSource flags path source).failure ≠ none →
        (checkSource flags path source).findings = [] ∧ (checkSource flags path source).classes = []) := by
  rw [checkSource]
  cases tokens? source with
  | error e => exact ⟨rfl, fun _ => ⟨rfl, rfl⟩⟩
  | ok tokens => exact ⟨rfl, fun failed => absurd rfl failed⟩

theorem check_file_read (path : String) (report : FileReport)
    (checked : checkFile fs flags halves base path = .ok report) :
    ∃ shown, checkRead flags path shown (fs.read ((base.join (Path.ofString path)).spelled halves)) = report := by
  simp only [checkFile] at checked
  split at checked
  · cases checked
  split at checked
  · cases checked
  exact ⟨_, Except.ok.inj checked⟩

theorem check_file_failed (path : String) (report : FileReport)
    (checked : checkFile fs flags halves base path = .ok report) :
    report.path = path ∧ (report.failure ≠ none → report.findings = [] ∧ report.classes = []) := by
  obtain ⟨shown, rfl⟩ := check_file_read fs flags halves base path report checked
  cases fs.read ((base.join (Path.ofString path)).spelled halves) with
  | error cause => exact ⟨rfl, fun _ => ⟨rfl, rfl⟩⟩
  | ok bytes => exact check_source_failed flags path _

theorem checked_alone (paths : List String) :
    ∀ report ∈ (checkFiles fs flags halves base paths).reports,
      ∃ path, checkFile fs flags halves base path = .ok report := by
  induction paths with
  | nil =>
      intro report member
      cases member
  | cons path paths ih =>
      rw [checkFiles]
      cases checked : checkFile fs flags halves base path with
      | error e =>
          intro report member
          cases member
      | ok first => exact List.forall_mem_cons.mpr ⟨⟨path, checked⟩, ih⟩

variable (clear : base.Nameable halves)

include clear

theorem check_file_nameable (path : String) (named : nameable halves path = true) :
    ∃ report, checkFile fs flags halves base path = .ok report := by
  obtain ⟨strayless, nulless⟩ := (nameable_iff halves path).mp named
  have run := (join_run halves base clear path).mpr strayless
  have clean := mt (join_nul halves base clear path).mp nulless
  simp only [checkFile, run, if_neg clean]
  exact ⟨_, rfl⟩

theorem check_file_misnamed (path : String) (misnamed : nameable halves path = false) :
    ∃ cause, Misnamed halves path cause ∧ checkFile fs flags halves base path = .error cause := by
  by_cases strayless : path.toList.any (isStray halves) = false
  · have run := (join_run halves base clear path).mpr strayless
    have nul : Path.nul ∈ path.toList := by
      by_contra nulless
      rw [(nameable_iff halves path).mpr ⟨strayless, nulless⟩] at misnamed
      cases misnamed
    have dirty := (join_nul halves base clear path).mpr nul
    exact ⟨.nulInPath, ⟨strayless, nul⟩, by simp only [checkFile, run, if_pos dirty]⟩
  · obtain ⟨run, found⟩ := Option.ne_none_iff_exists'.mp (mt (join_run halves base clear path).mp strayless)
    exact ⟨.unencodable run, eq_true_of_ne_false strayless, by simp only [checkFile, found]⟩

-- The first text that is no path decides.
theorem check_files_outcome (paths : List String) :
    match paths.find? fun path => !nameable halves path with
    | some path => ∃ cause, Misnamed halves path cause ∧
        (checkFiles fs flags halves base paths).stopped = some cause
    | none => (checkFiles fs flags halves base paths).stopped = none ∧
        List.Forall₂ (fun path report => checkFile fs flags halves base path = .ok report) paths
          (checkFiles fs flags halves base paths).reports := by
  induction paths with
  | nil => exact ⟨rfl, .nil⟩
  | cons path paths ih =>
      rw [checkFiles]
      cases named : nameable halves path with
      | false =>
          obtain ⟨cause, misnamed, checked⟩ := check_file_misnamed fs flags halves base clear path named
          rw [List.find?_cons_of_pos (by simp [named]), checked]
          exact ⟨cause, misnamed, rfl⟩
      | true =>
          obtain ⟨report, checked⟩ := check_file_nameable fs flags halves base clear path named
          rw [List.find?_cons_of_neg (by simp [named]), checked]
          cases stops : paths.find? fun path => !nameable halves path with
          | some other =>
              rw [stops] at ih
              exact ih
          | none =>
              rw [stops] at ih
              exact ⟨ih.1, .cons checked ih.2⟩

end

/-! ### Whole scans -/

-- What is found in the directory, when there is one to look into.
def Discovered (fs : System) (request : Request) (found : List String) : Prop :=
  match request.directory with
  | none => found = []
  | some root => (∃ place, fs.spelledFolder? request.halves root = .ok (some place)) ∧
      fs.discover (root.spelled request.halves) request.exclude = .ok found

-- One report for each path in turn, the one that the path gets alone.
structure Reports (fs : System) (request : Request) (paths : List String) (run : Run) : Prop where
  named : run.files.map (·.path) = paths
  alone : List.Forall₂ (fun path report =>
    checkFile fs request.flags request.halves (request.directory.getD .here) path = .ok report) paths run.files
  failed : ∀ report ∈ run.files, report.failure ≠ none → report.findings = [] ∧ report.classes = []

theorem reports_alone (fs : System) (request : Request) (paths : List String) (reports : List FileReport)
    (alone : List.Forall₂ (fun path report =>
      checkFile fs request.flags request.halves (request.directory.getD .here) path = .ok report) paths reports) :
    Reports fs request paths ⟨reports⟩ := by
  have each : reports.map (·.path) = paths ∧
      ∀ report ∈ reports, report.failure ≠ none → report.findings = [] ∧ report.classes = [] := by
    induction alone with
    | nil => exact ⟨rfl, by simp⟩
    | cons checked _ ih =>
        obtain ⟨path, failed⟩ := check_file_failed _ _ _ _ _ _ checked
        exact ⟨congrArg₂ List.cons path ih.1, List.forall_mem_cons.mpr ⟨failed, ih.2⟩⟩
  exact ⟨each.1, alone, each.2⟩

section

variable (fs : System) (request : Request)

-- Whatever holds of each file that is checked holds of each report of a scan.
theorem scanned_alone (run : Run) (scanned : request.scan fs = .ok run) :
    ∃ paths, request.paths fs = .ok paths ∧ ∀ report ∈ run.files, ∃ path,
      checkFile fs request.flags request.halves (request.directory.getD .here) path = .ok report := by
  rw [Request.scan] at scanned
  split at scanned
  · cases scanned
  · rename_i paths listed
    dsimp only at scanned
    split at scanned
    · cases scanned
    · rw [← Except.ok.inj scanned]
      exact ⟨paths, listed, checked_alone fs request.flags request.halves _ paths⟩

theorem folder_error (root : Path) (cause : AccessError) (failed : fs.folder? root = .error cause) :
    cause = .nameTooLong := by
  rw [System.folder?] at failed
  split at failed
  · cases failed
  · split at failed <;> cases failed
    rfl

theorem spelled_folder_error (root : Path) (cause : AccessError)
    (failed : fs.spelledFolder? request.halves root = .error cause) : cause = .nameTooLong := by
  rw [System.spelledFolder?] at failed
  split at failed
  · cases failed
  · exact folder_error fs _ cause failed

theorem spelled_folder_place (root : Path) (place : List String)
    (folder : fs.spelledFolder? request.halves root = .ok (some place)) :
    root.Nameable request.halves ∧ fs.folder? (root.spelled request.halves) = .ok (some place) := by
  rw [System.spelledFolder?] at folder
  split at folder
  · cases folder
  rename_i strayless
  rw [Bool.not_eq_true, Option.isSome_eq_false_iff, Option.isNone_iff_eq_none, path_run_none] at strayless
  obtain ⟨nulless, -⟩ := folder_place fs _ place folder
  refine ⟨fun c held => ?_, folder⟩
  constructor
  · rw [Bool.eq_false_iff]
    intro stray
    obtain ⟨slash, dot, -⟩ := stray_far _ c stray
    simp [strayless c ((mem_path_text c slash dot root).mpr held)] at stray
  · rintro rfl
    rw [(nul_spelled_path request.halves root).mpr held] at nulless
    cases nulless

theorem paths_unusable (root : Path) (cause : AccessError) (directory : request.directory = some root)
    (folder : fs.spelledFolder? request.halves root = .error cause) :
    request.paths fs = .error (.unusable cause (request.halves.quoted root.text)) := by
  rw [Request.paths, directory]
  dsimp only
  rw [folder]

-- What the directory comes to: a folder with the files found in it, or none, or a path too long.
theorem directory_cases :
    (∃ root, request.directory = some root ∧ fs.spelledFolder? request.halves root = .ok none ∧
      request.paths fs = .error (.noDirectory root)) ∨
    (∃ root, request.directory = some root ∧ fs.spelledFolder? request.halves root = .error .nameTooLong ∧
      request.paths fs = .error (.unusable .nameTooLong (request.halves.quoted root.text))) ∨
    ∃ found, Discovered fs request found ∧ (request.directory.getD .here).Nameable request.halves ∧
      request.paths fs = .ok (found ++ request.files) := by
  cases directory : request.directory with
  | none =>
      refine .inr (.inr ⟨[], ?_, ?_, ?_⟩)
      · rw [Discovered, directory]
      · rintro c ⟨part, ⟨⟩, -⟩
      · rw [Request.paths, directory]
        rfl
  | some root =>
      cases folder : fs.spelledFolder? request.halves root with
      | error cause =>
          obtain rfl := spelled_folder_error fs request root cause folder
          exact .inr (.inl ⟨root, rfl, folder, paths_unusable fs request root _ directory folder⟩)
      | ok result =>
          cases result with
          | none =>
              refine .inl ⟨root, rfl, folder, ?_⟩
              rw [Request.paths, directory]
              dsimp only
              rw [folder]
          | some place =>
              obtain ⟨clear, spelled⟩ := spelled_folder_place fs request root place folder
              obtain ⟨-, entries, node⟩ := folder_place fs _ place spelled
              obtain ⟨found, discovered⟩ :
                  ∃ found, fs.discover (root.spelled request.halves) request.exclude = .ok found :=
                ⟨_, discover_sources fs _ request.exclude place _ spelled node⟩
              refine .inr (.inr ⟨found, ?_, clear, ?_⟩)
              · rw [Discovered, directory]
                exact ⟨⟨place, folder⟩, discovered⟩
              · rw [Request.paths, directory]
                dsimp only
                rw [folder]
                dsimp only
                rw [discovered]

theorem scan_nameable (paths : List String) (listed : request.paths fs = .ok paths)
    (clear : (request.directory.getD .here).Nameable request.halves)
    (named : ∀ path ∈ paths, nameable request.halves path = true) :
    ∃ run, request.scan fs = .ok run ∧ Reports fs request paths run := by
  have outcome := check_files_outcome fs request.flags _ _ clear paths
  have passed : (paths.find? fun path => !nameable request.halves path) = none :=
    List.find?_eq_none.mpr fun path member => by simp [named path member]
  rw [passed] at outcome
  refine ⟨_, ?_, reports_alone fs request paths _ outcome.2⟩
  rw [Request.scan, listed]
  dsimp only
  rw [outcome.1]

theorem scan_misnamed (paths : List String) (listed : request.paths fs = .ok paths)
    (clear : (request.directory.getD .here).Nameable request.halves) (path : String)
    (first : (paths.find? fun path => !nameable request.halves path) = some path) :
    ∃ cause, Misnamed request.halves path cause ∧ request.scan fs = .error cause := by
  have outcome := check_files_outcome fs request.flags _ _ clear paths
  rw [first] at outcome
  obtain ⟨cause, misnamed, stopped⟩ := outcome
  refine ⟨cause, misnamed, ?_⟩
  rw [Request.scan, listed]
  dsimp only
  rw [stopped]

variable (proper : fs.root.Proper) (apart : fs.root.Apart request.halves)

include proper apart

theorem discovered_nameable (found : List String) (discovered : Discovered fs request found) :
    ∀ p ∈ found, nameable request.halves p = true := by
  rw [Discovered] at discovered
  cases directory : request.directory with
  | none =>
      rw [directory] at discovered
      intro p member
      rw [discovered] at member
      cases member
  | some root =>
      rw [directory] at discovered
      intro p member
      have chars := discovered_chars fs proper _ request.exclude found discovered.2 p member
      rw [nameable_iff, List.any_eq_false]
      constructor
      · intro c held stray
        obtain ⟨slash, -⟩ := stray_far _ c stray
        have inside := ((chars c held).resolve_left slash).2
        simp [isStray, apart c inside] at stray
      · intro held
        exact ((chars _ held).resolve_left (by decide)).1 rfl

end

theorem scan_reports_each_path (fs : System) (proper : fs.root.Proper) (request : Request)
    (apart : fs.root.Apart request.halves) :
    (∃ root, request.directory = some root ∧ fs.spelledFolder? request.halves root = .ok none ∧
      request.scan fs = .error (.noDirectory root)) ∨
    (∃ root, request.directory = some root ∧ fs.spelledFolder? request.halves root = .error .nameTooLong ∧
      request.scan fs = .error (.unusable .nameTooLong (request.halves.quoted root.text))) ∨
    ∃ found, Discovered fs request found ∧
      ((∃ path cause, (request.files.find? fun path => !nameable request.halves path) = some path ∧
          Misnamed request.halves path cause ∧ request.scan fs = .error cause) ∨
        (∀ path ∈ request.files, nameable request.halves path = true) ∧
          ∃ run, request.scan fs = .ok run ∧ Reports fs request (found ++ request.files) run) := by
  rcases directory_cases fs request with
    ⟨root, directory, folder, stopped⟩ | ⟨root, directory, folder, stopped⟩ | ⟨found, discovered, clear, listed⟩
  · refine .inl ⟨root, directory, folder, ?_⟩
    rw [Request.scan, stopped]
  · refine .inr (.inl ⟨root, directory, folder, ?_⟩)
    rw [Request.scan, stopped]
  · refine .inr (.inr ⟨found, discovered, ?_⟩)
    have before := discovered_nameable fs request proper apart found discovered
    cases first : request.files.find? fun path => !nameable request.halves path with
    | some path =>
        have passed : (found.find? fun path => !nameable request.halves path) = none :=
          List.find?_eq_none.mpr fun path member => by simp [before path member]
        have all : ((found ++ request.files).find? fun path => !nameable request.halves path) = some path := by
          rw [List.find?_append, passed, first, Option.none_or]
        obtain ⟨cause, misnamed, stopped⟩ := scan_misnamed fs request _ listed clear path all
        exact .inl ⟨path, cause, rfl, misnamed, stopped⟩
    | none =>
        have after : ∀ path ∈ request.files, nameable request.halves path = true := by
          simpa using List.find?_eq_none.mp first
        exact .inr ⟨after, scan_nameable fs request _ listed clear (List.forall_mem_append.mpr ⟨before, after⟩)⟩

-- One character, for the first half of all.
def firstHalfOnly : Text.Halves where
  standIns := [Char.ofNat Text.Halves.firstStandIn]
  apart := List.forall_mem_singleton.mpr (by decide)

-- A source that ends in a string, the directory itself in the place of a file, and a missing file.
theorem scan_reports_each_bad_file :
    let fs : System := ⟨.folder [("p", .folder [("a.php", .file [60, 63, 112, 104, 112, 32, 39])])], ["p"]⟩
    let request : Request := { halves := firstHalfOnly, directory := some .here, files := ["", "nope.php"] }
    fs.root.Proper ∧ fs.root.Apart request.halves ∧
      ∃ run, request.scan fs = .ok run ∧ Reports fs request ["a.php", "", "nope.php"] run := by
  intro fs request
  have proper : fs.root.Proper := by
    refine .folder _ (by decide) (by decide) (List.forall_mem_singleton.mpr ?_)
    exact .folder _ (by decide) (by decide) (List.forall_mem_singleton.mpr (.file _))
  have apart : fs.root.Apart request.halves := by
    intro c member
    have near : fs.root.chars.all (fun c => c.toNat < Text.Halves.firstStandIn) = true := by decide +kernel
    exact stand_in_far _ c (of_decide_eq_true (List.all_eq_true.mp near c member))
  have here : fs.spelledFolder? firstHalfOnly .here = .ok (some ["p"]) := by decide +kernel
  have listed : fs.discover (Path.here.spelled firstHalfOnly) [] = .ok ["a.php"] := by decide +kernel
  have named : (request.files.find? fun path => !nameable firstHalfOnly path) = none := by decide +kernel
  refine ⟨proper, apart, ?_⟩
  rcases scan_reports_each_path fs proper request apart with
    ⟨root, directory, folder, -⟩ | ⟨root, directory, folder, -⟩ | ⟨found, discovered, outcome⟩
  · cases directory
    cases here.symm.trans folder
  · cases directory
    cases here.symm.trans folder
  · cases listed.symm.trans discovered.2
    rcases outcome with ⟨path, cause, stops, -⟩ | ⟨-, reported⟩
    · cases named.symm.trans stops
    · exact reported

/-! ### What stops a batch -/

-- Either there is no directory, or each path has its report.
def Completes (fs : System) (request : Request) : Prop :=
  (∃ root, request.directory = some root ∧ fs.spelledFolder? request.halves root = .ok none ∧
    request.scan fs = .error (.noDirectory root)) ∨
  ∃ found run, Discovered fs request found ∧ request.scan fs = .ok run ∧
    Reports fs request (found ++ request.files) run

theorem stopped_incomplete (fs : System) (request : Request) (cause : ProjectError)
    (stopped : request.scan fs = .error cause) (other : ∀ root, cause ≠ .noDirectory root) :
    ¬ Completes fs request := by
  rintro (⟨root, -, -, failed⟩ | ⟨found, run, -, done, -⟩)
  · exact other root (Except.error.inj (stopped.symm.trans failed))
  · cases stopped.symm.trans done

def overlongPath : Path := ⟨.relative, [longName ++ "n"]⟩

theorem overlong_folder (fs : System) (entries : Entries) (cwd : fs.node? fs.cwd = some (.folder entries)) :
    fs.folder? overlongPath = .error .nameTooLong := by
  have one : Text.Utf8.size "n" = 1 := by decide
  have size : Text.Utf8.size (longName ++ "n") = nameLimit + 1 := by rw [size_append, long_name_size, one]
  have other : ∀ name, Text.Utf8.size name < nameLimit → longName ++ "n" ≠ name := by
    intro name short same
    rw [same] at size
    omega
  have text : overlongPath.text = longName ++ "n" := by
    rw [overlongPath, relative_text _ (by rw [joined_one]; omega), joined_one]
  have fits : ¬ pathLimit ≤ Text.Utf8.size overlongPath.text := by
    rw [text, size]
    decide
  have nulless : overlongPath.hasNul = false := by
    have proper := proper_name_nul longName long_name_proper
    have last : Path.nul ≠ 'n' := by decide
    simp [overlongPath, Path.hasNul, proper, last]
  have refused : fs.advance fs.cwd overlongPath.parts = .failed .nameTooLong := by
    rw [overlongPath, System.advance, cwd]
    dsimp only
    rw [if_neg (other "." (by decide)), if_neg (other ".." (by decide)), if_pos (by omega)]
  have resolved : fs.resolve overlongPath = .error .nameTooLong := by
    rw [System.resolve, System.spot, if_neg fits, if_pos (by rfl), System.follow, refused]
  rw [System.folder?, nulless, if_neg (by simp), resolved]

theorem scan_overlong (fs : System) (entries : Entries) (cwd : fs.node? fs.cwd = some (.folder entries))
    (request : Request) (directory : request.directory = some overlongPath) (whole : request.halves = .empty) :
    request.scan fs = .error (.unusable .nameTooLong (Text.quoted overlongPath.text)) := by
  have folder : fs.spelledFolder? request.halves overlongPath = .error .nameTooLong := by
    rw [whole, spelled_folder_empty]
    exact overlong_folder fs entries cwd
  rw [Request.scan, paths_unusable fs request overlongPath .nameTooLong directory folder, whole, quoted_empty]

-- A NUL, half a pair that is no byte, and a directory whose name is too long.
theorem bad_names_stop_batch :
    let fs : System := ⟨.folder [("a.php", .file [])], []⟩
    let stray := String.ofList (firstHalfOnly.text [0xD800, 46, 112, 104, 112])
    fs.root.Proper ∧ ¬ Completes fs { files := ["b\x00.php", "a.php"] } ∧
      ¬ Completes fs { halves := firstHalfOnly, files := [stray, "a.php"] } ∧
      ¬ Completes fs { directory := some overlongPath } := by
  intro fs stray
  refine ⟨?_, ?_, ?_, ?_⟩
  · exact .folder _ (by decide) (by decide) (List.forall_mem_singleton.mpr (.file _))
  · apply stopped_incomplete fs _ .nulInPath (by decide +kernel)
    intro root same
    cases same
  · apply stopped_incomplete fs _ (.unencodable ⟨0, [0xD800]⟩) (by decide +kernel)
    intro root same
    cases same
  · apply stopped_incomplete fs _ _ (scan_overlong fs _ rfl _ rfl rfl)
    intro root same
    cases same

end DocAudit
