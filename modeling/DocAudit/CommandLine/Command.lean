import DocAudit.CommandLine.Options
import DocAudit.Json.Writer
import DocAudit.Program
import DocAudit.Project
import DocAudit.Schema.Report
import DocAudit.Text.Split

/-!
The command: what it prints, and the code it ends with.
-/

set_option autoImplicit false

namespace DocAudit.CommandLine

def lines (texts : List String) : String := String.join (texts.map (· ++ "\n"))

def usageLines : List String :=
  ["usage: docblock-checker [-h] [-d DIRECTORY] [-x EXCLUDE] [--skip-classes]",
   "                        [--skip-methods] [--skip-anonymous-functions] [-j]",
   "                        [--debug] [--version]",
   "                        [files ...]"]

def helpLines : List String :=
  usageLines ++
  ["",
   "Check PHP files within a directory for appropriate use of Docblocks.",
   "",
   "positional arguments:",
   "  files                 Files to scan (relative to --directory when given).",
   "",
   "options:",
   "  -h, --help            show this help message and exit",
   "  -d DIRECTORY, --directory DIRECTORY",
   "                        Directory to scan.",
   "  -x EXCLUDE, --exclude EXCLUDE",
   "                        Comma-separated files and directories to exclude.",
   "  --skip-classes        Don't check classes for docblocks.",
   "  --skip-methods        Don't check methods (or anonymous functions) for",
   "                        docblocks.",
   "  --skip-anonymous-functions",
   "                        Don't check anonymous functions for docblocks.",
   "  -j, --json            Output JSON instead of a log.",
   "  --debug               Log every scanned file to stderr.",
   "  --version             show program's version number and exit"]

structure Result where
  code : ExitCode
  exited : Bool := false
  stdout : String := ""
  stderr : String := ""
deriving DecidableEq, Repr

inductive Fault where
  | separatorAsDirectory
  | project (error : ProjectError)
  | invalidReport (violations : List Violation)

def Stop.result : Stop → Result
  | .help => { code := .success, exited := true, stdout := lines helpLines }
  | .version =>
    { code := .success, exited := true, stdout := lines [programName ++ " " ++ programVersion] }
  | .usage e =>
    { code := .error, exited := true,
      stderr := lines (usageLines ++ [programName ++ ": error: " ++ e.message]) }

-- One line for each missing docblock and for each clean class, in the order of the source.
def logLines (report : FileReport) : List String :=
  let missing := report.findings.map fun f => (f.line, f.message)
  let clean := (report.classes.filter (·.clean)).map fun c => (c.line, c.name ++ " OK")
  ((missing ++ clean).mergeSort fun a b => a.1 ≤ b.1).map (·.2)

def traceLines (debug : Bool) (report : FileReport) : List String :=
  (if debug then ["DEBUG: Scanning " ++ report.path] else []) ++
    (report.failure.map fun failure =>
      "WARNING: Skipping " ++ report.path ++ ": " ++ failure.message).toList

namespace Options

-- Without text an exclude list is empty.
def excludes (o : Options) : List String :=
  match o.exclude with
  | none => []
  | some "" => []
  | some text => Text.split ',' text

def request (o : Options) : Request where
  directory := o.directory.map File.Path.ofString
  files := o.files.getD []
  exclude := o.excludes
  flags := o.flags

def nothingToScan (o : Options) : Bool := o.directory.isNone && (o.files.getD []).isEmpty

def output (o : Options) (run : Run) : Except Fault String :=
  if o.json then
    let report := Json.arr run.records
    match reportSchema.violations report with
    | [] => .ok (report.text (.block 2))
    | violations => .error (.invalidReport violations)
  else .ok (lines (run.files.flatMap logLines))

-- The separator, attached to its switch, is no directory.
def perform (o : Options) (fs : File.System) : Except Fault Result :=
  if o.directory = some separatorText then .error .separatorAsDirectory
  else if o.nothingToScan then
    .ok { code := .error,
          stderr := lines ["error: nothing to scan; pass --directory and/or files"] }
  else
    match o.request.scan fs with
    | .error (.noDirectory path) =>
      .ok { code := .error,
            stderr := lines ["error: " ++ (ProjectError.noDirectory path).message] }
    | .error e => .error (.project e)
    | .ok run =>
      match o.output run with
      | .error fault => .error fault
      | .ok stdout =>
        .ok { code := run.exitCode, stdout,
              stderr := lines (run.files.flatMap (traceLines o.debug)) }

end Options

def run (argv : List String) (fs : File.System) : Except Fault Result :=
  match readOptions argv with
  | .error stop => .ok stop.result
  | .ok o => o.perform fs

end DocAudit.CommandLine
