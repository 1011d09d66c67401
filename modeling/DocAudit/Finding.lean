import DocAudit.Number.Numeral
import DocAudit.Php.Declaration

/-!
Missing docblocks. Which declarations need one is a choice of skip flags.
-/

set_option autoImplicit false

namespace DocAudit

open Php

-- What is left unchecked. Closures go unchecked with methods too.
structure SkipFlags where
  classes : Bool := false
  methods : Bool := false
  closures : Bool := false
deriving DecidableEq, Repr

def SkipFlags.checks (flags : SkipFlags) : DeclarationKind → Bool
  | .classDecl => !flags.classes
  | .method => !flags.methods
  | .closure => !(flags.methods || flags.closures)

structure Finding where
  kind : DeclarationKind
  path : String
  className : Option String
  name : String
  line : Int
deriving DecidableEq, Repr

def Finding.ofDeclaration (path : String) (d : Declaration) : Finding where
  kind := d.kind
  path := path
  className := d.enclosing
  name := d.name
  line := d.line

def Finding.subject (f : Finding) : String :=
  match f.kind with
  | .classDecl => "Class " ++ f.name
  | .method | .closure => "Method " ++ f.className.getD "None" ++ "::" ++ f.name

def Finding.message (f : Finding) : String :=
  f.path ++ ": " ++ Number.numeral f.line ++ " - " ++ f.subject ++ " is missing a docblock."

structure ClassSummary where
  name : String
  line : Int
  clean : Bool
deriving DecidableEq, Repr

structure Outcome where
  findings : List Finding
  classes : List ClassSummary
deriving DecidableEq, Repr

def SkipFlags.misses (flags : SkipFlags) (d : Declaration) : Bool :=
  d.docblock.isNone && flags.checks d.kind

def missing (flags : SkipFlags) (ds : List Declaration) : List Declaration :=
  ds.filter flags.misses

def classDeclarations (ds : List Declaration) : List Declaration :=
  ds.filter (·.kind == .classDecl)

-- A class is clean when nothing missing is charged to it.
def summaries (ds missed : List Declaration) : List ClassSummary :=
  (classDeclarations ds).zipIdx.map fun (d, ordinal) =>
    ⟨d.name, d.line, !missed.any (·.charged == some ordinal)⟩

end DocAudit
