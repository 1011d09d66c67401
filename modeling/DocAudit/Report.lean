import DocAudit.File.System
import DocAudit.Json.Basic
import DocAudit.Pass
import DocAudit.Php.Tokenization

/-!
Reports of single files, and of the runs that collect them.
-/

set_option autoImplicit false

namespace DocAudit

open Php

inductive Failure where
  | unparsed (error : ParseError)
  | unread (cause : File.AccessError) (shown : String)
  | noted (text : String)
deriving DecidableEq, Repr

def Failure.message : Failure → String
  | .unparsed e => e.message
  | .unread cause shown => cause.messageAbout shown
  | .noted text => text

structure FileReport where
  path : String
  findings : List Finding := []
  classes : List ClassSummary := []
  failure : Option Failure := none
deriving DecidableEq, Repr

-- Scans a source. Nothing is reported of one that cannot be read to its end.
def checkSource (flags : SkipFlags) (path source : String) : FileReport :=
  match tokens? source with
  | .error e => { path, failure := some (.unparsed e) }
  | .ok tokens =>
    let outcome := scan flags tokens path
    { path, findings := outcome.findings, classes := outcome.classes }

def checkBytes (flags : SkipFlags) (path : String) (bytes : List UInt8) : FileReport :=
  checkSource flags path (Text.Utf8.decode bytes)

def checkRead (flags : SkipFlags) (path shown : String) :
    Except File.AccessError (List UInt8) → FileReport
  | .ok bytes => checkBytes flags path bytes
  | .error cause => { path, failure := some (.unread cause shown) }

namespace Finding

-- In records a closure is a method.
def recordType (f : Finding) : String :=
  match f.kind with
  | .classDecl => "class"
  | .method | .closure => "method"

def record (f : Finding) : Json :=
  match f.kind with
  | .classDecl =>
    .obj [("type", .str f.recordType), ("file", .str f.path), ("class", .str f.name),
      ("line", .int f.line)]
  | .method | .closure =>
    .obj [("type", .str f.recordType), ("file", .str f.path), ("class", .ofOption f.className),
      ("method", .str f.name), ("line", .int f.line)]

end Finding

-- How many findings there are of a kind. One that does not occur has no entry.
def Tally : Type := DeclarationKind → Option Nat

namespace Tally

def empty : Tally := fun _ => none

def count (t : Tally) (kind : DeclarationKind) : Tally := fun other =>
  if other = kind then some ((t kind).getD 0 + 1) else t other

def entries (t : Tally) : List (DeclarationKind × Nat) :=
  DeclarationKind.all.filterMap fun kind => (t kind).map (kind, ·)

end Tally

def tally (findings : List Finding) : Tally := findings.foldl (fun t f => t.count f.kind) .empty

structure Summary where
  filesScanned : Nat
  filesFailed : Nat
  findingsTotal : Nat
  byKind : List (DeclarationKind × Nat)
  cleanClasses : Nat
deriving DecidableEq, Repr

def Summary.json (s : Summary) : Json :=
  .obj [("files_scanned", .int s.filesScanned), ("files_failed", .int s.filesFailed),
    ("findings_total", .int s.findingsTotal),
    ("by_type", .obj (s.byKind.map fun (kind, count) => (kind.name, .int count))),
    ("clean_classes", .int s.cleanClasses)]

inductive ExitCode where
  | success
  | violation
  | error
deriving DecidableEq, Repr

def ExitCode.toNat : ExitCode → Nat
  | .success => 0
  | .violation => 1
  | .error => 2

structure Run where
  files : List FileReport := []
deriving DecidableEq, Repr

namespace Run

def add (run : Run) (reports : List FileReport) : Run := ⟨run.files ++ reports⟩

def findings (run : Run) : List Finding := run.files.flatMap (·.findings)

def failed (run : Run) : List FileReport := run.files.filter (·.failure.isSome)

def records (run : Run) : List Json := run.findings.map (·.record)

def cleanClasses (run : Run) : Nat :=
  (run.files.flatMap (·.classes)).countP (·.clean)

def summary (run : Run) : Summary where
  filesScanned := run.files.length
  filesFailed := run.failed.length
  findingsTotal := run.findings.length
  byKind := (tally run.findings).entries
  cleanClasses := run.cleanClasses

-- Findings weigh more than failures.
def exitCode (run : Run) : ExitCode :=
  if !run.findings.isEmpty then .violation
  else if !run.failed.isEmpty then .error
  else .success

end Run

end DocAudit
