import DocAudit.Php.Docblock

/-!
The declarations of a token stream that may need a docblock: classes, and the methods and closures
inside class bodies. One pass follows the nesting of braces; every open brace is a frame, and the
frame of a class body belongs to its class.
-/

set_option autoImplicit false

namespace DocAudit.Php

inductive DeclarationKind where
  | classDecl
  | method
  | closure
deriving DecidableEq, Repr

def DeclarationKind.name : DeclarationKind → String
  | .classDecl => "class"
  | .method => "method"
  | .closure => "anonymous_function"

def DeclarationKind.all : List DeclarationKind := [.classDecl, .method, .closure]

def DeclarationKind.ofName? (name : String) : Option DeclarationKind :=
  all.find? (·.name == name)

theorem DeclarationKind.ofName?_name (k : DeclarationKind) : ofName? k.name = some k := by
  cases k <;> decide

def closureName : String := "anonymous function"

def anonymousClassName : String := "class@anonymous"

structure Declaration where
  kind : DeclarationKind
  name : String
  line : Int
  enclosing : Option String
  docblock : Option Token
  -- Which of the named classes, counted from zero, answers for a missing docblock.
  charged : Option Nat
deriving DecidableEq, Repr

-- A class that owns frames. An anonymous class has no ordinal.
structure Scope where
  name : String
  ordinal : Option Nat
deriving DecidableEq, Repr

inductive Head where
  | ofClass
  | ofFunction
deriving DecidableEq, Repr

structure Pending where
  head : Head
  line : Int
  docblock : Option Token
deriving DecidableEq, Repr

structure Scan where
  -- The tokens read, nearest first.
  before : List Token := []
  -- The open braces, innermost first.
  frames : List (Option Scope) := []
  -- The class whose body the next open brace begins.
  body : Option Scope := none
  pending : Option Pending := none
  named : Nat := 0
deriving DecidableEq, Repr

namespace Scan

def enclosing (st : Scan) : Option Scope := st.frames.findSome? id

def significantBefore (st : Scan) : Option Token := st.before.find? (!·.trivia)

-- Directly after `use`, `function` imports a name.
def afterUse (st : Scan) : Bool := st.significantBefore.any (·.lower == "use")

def awaitName (st : Scan) (head : Head) (t : Token) : Scan :=
  { st with pending := some ⟨head, t.line, docblock t.line st.before⟩ }

def enter (st : Scan) (t : Token) : Scan :=
  match t.kind with
  | .openBrace => { st with frames := st.body :: st.frames, body := none }
  | .closeBrace => { st with frames := st.frames.tail }
  | .keyword =>
    if t.lower = "class" then
      if followsNew st.before then { st with body := some ⟨anonymousClassName, none⟩ }
      else st.awaitName .ofClass t
    else if t.lower = "function" ∧ st.afterUse = false ∧ st.enclosing.isSome then
      st.awaitName .ofFunction t
    else st
  | _ => st

def declareClass (st : Scan) (p : Pending) (name : String) : Declaration where
  kind := .classDecl
  name := name
  line := p.line
  enclosing := st.enclosing.map (·.name)
  docblock := p.docblock
  charged := some st.named

-- Functions outside every class declare nothing.
def declareFunction (st : Scan) (p : Pending) (name : String) : Option Declaration :=
  st.enclosing.map fun owner =>
    { kind := if name = closureName then .closure else .method
      name := name
      line := p.line
      enclosing := some owner.name
      docblock := p.docblock
      charged := owner.ordinal }

def read (st : Scan) (t : Token) : Scan × Option Declaration :=
  match st.pending with
  | none => (st.enter t, none)
  | some p =>
    let idle := { st with pending := none }
    match p.head with
    | .ofFunction =>
      if t.text = "&" then (st, none)
      else if t.kind.isLabel then (idle, st.declareFunction p t.text)
      else if t.text = "(" then (idle.enter t, st.declareFunction p closureName)
      else (idle.enter t, none)
    | .ofClass =>
      if t.kind.isLabel then
        ({ idle with body := some ⟨t.text, some st.named⟩, named := st.named + 1 },
          some (st.declareClass p t.text))
      else (idle.enter t, none)

def step (st : Scan) (t : Token) : Scan × Option Declaration :=
  let (next, declared) := if t.trivia then (st, none) else st.read t
  ({ next with before := t :: next.before }, declared)

def declarations (st : Scan) : List Token → List Declaration
  | [] => []
  | t :: ts => (st.step t).2.toList ++ (st.step t).1.declarations ts

end Scan

def declarations (tokens : List Token) : List Declaration :=
  Scan.declarations {} tokens

end DocAudit.Php
