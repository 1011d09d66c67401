import DocAudit.File.Discovery
import DocAudit.File.Naming
import DocAudit.Report

/-!
Scans of a directory and of files named one by one.
-/

set_option autoImplicit false

namespace DocAudit

open File

-- Why a scan was given up: no directory, or a name that no file can have. A file that cannot be
-- read is reported instead.
inductive ProjectError where
  | noDirectory (path : Path)
  | unusable (cause : AccessError) (shown : String)
  | unencodable (run : Text.HalfRun)
  | nulInPath
deriving DecidableEq, Repr

def ProjectError.message : ProjectError → String
  | .noDirectory path => "scan_project: directory does not exist: " ++ path.text
  | .unusable cause shown => cause.messageAbout shown
  | .unencodable run => run.message
  | .nulInPath => "embedded null byte"

section

variable (fs : System) (flags : SkipFlags) (halves : Text.Halves) (base : Path)

def checkFile (path : String) : Except ProjectError FileReport :=
  let file := base.join (Path.ofString path)
  match halves.pathRun? file.text.toList with
  | some run => .error (.unencodable run)
  | none =>
    let named := file.spelled halves
    if named.hasNul then .error .nulInPath
    else .ok (checkRead flags path (halves.quoted file.text) (fs.read named))

structure Batch where
  reports : List FileReport
  stopped : Option ProjectError
deriving DecidableEq, Repr

def checkFiles : List String → Batch
  | [] => ⟨[], none⟩
  | path :: paths =>
    match checkFile fs flags halves base path with
    | .error e => ⟨[], some e⟩
    | .ok report =>
      let batch := checkFiles paths
      ⟨report :: batch.reports, batch.stopped⟩

end

-- What to scan. Files are relative to the directory, when there is one. The characters that stand
-- for halves in the texts are in no name of the tree.
structure Request where
  halves : Text.Halves := .empty
  directory : Option Path := none
  files : List String := []
  exclude : List String := []
  flags : SkipFlags := {}
deriving DecidableEq, Repr

def Request.paths (request : Request) (fs : System) : Except ProjectError (List String) :=
  match request.directory with
  | none => .ok request.files
  | some root =>
    match fs.spelledFolder? request.halves root with
    | .error cause => .error (.unusable cause (request.halves.quoted root.text))
    | .ok none => .error (.noDirectory root)
    | .ok (some _) =>
      match fs.discover (root.spelled request.halves) request.exclude with
      | .error cause => .error (.unusable cause (request.halves.quoted root.text))
      | .ok found => .ok (found ++ request.files)

def Request.scan (request : Request) (fs : System) : Except ProjectError Run :=
  match request.paths fs with
  | .error e => .error e
  | .ok paths =>
    let base := request.directory.getD .here
    let batch := checkFiles fs request.flags request.halves base paths
    match batch.stopped with
    | some e => .error e
    | none => .ok ⟨batch.reports⟩

end DocAudit
