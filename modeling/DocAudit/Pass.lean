import DocAudit.Finding

/-!
The pass that finds what is missing. It reads every token once, and decides about a declaration where
it is made: a finding is noted and counted for the class that answers for it.
-/

set_option autoImplicit false

namespace DocAudit

open Php

-- A class that owns frames, and how much it has to answer for so far.
structure ClassScope where
  name : String
  line : Int
  anonymous : Bool := false
  findings : Nat := 0
deriving DecidableEq, Repr

namespace ClassScope

def charge (s : ClassScope) : ClassScope := { s with findings := s.findings + 1 }

def summary (s : ClassScope) : ClassSummary := ⟨s.name, s.line, s.findings == 0⟩

end ClassScope

structure Pass where
  -- The tokens read, nearest first.
  history : List Token := []
  -- The last of them that is not trivia.
  previous : Option Token := none
  -- The open braces, innermost first. The body of a class has the number of its class.
  frames : List (Option Nat) := []
  -- All classes begun so far. Numbers of classes count them from zero.
  scopes : List ClassScope := []
  -- The class whose body the next open brace begins.
  body : Option Nat := none
  pending : Option Pending := none
  findings : List Finding := []
deriving DecidableEq, Repr

namespace Pass

def innermost (p : Pass) : Option Nat := p.frames.findSome? id

def enclosing (p : Pass) : Option ClassScope := p.innermost.bind (p.scopes[·]?)

def afterUse (p : Pass) : Bool := p.previous.any (·.lower == "use")

def begin (p : Pass) (s : ClassScope) : Pass :=
  { p with body := some p.scopes.length, scopes := p.scopes ++ [s] }

def awaitName (p : Pass) (head : Head) (t : Token) : Pass :=
  { p with pending := some ⟨head, t.line, docblock t.line p.history⟩ }

def enter (p : Pass) (t : Token) : Pass :=
  match t.kind with
  | .openBrace => { p with frames := p.body :: p.frames, body := none }
  | .closeBrace => { p with frames := p.frames.tail }
  | .keyword =>
    if t.lower = "class" then
      if followsNew p.history then
        p.begin { name := anonymousClassName, line := t.line, anonymous := true }
      else p.awaitName .ofClass t
    else if t.lower = "function" ∧ p.afterUse = false ∧ p.innermost.isSome then
      p.awaitName .ofFunction t
    else p
  | _ => p

-- Nothing is noted of what has a docblock or goes unchecked.
def evaluate (p : Pass) (flags : SkipFlags) (docblock : Option Token) (f : Finding) (owner : Nat) : Pass :=
  if docblock.isSome || !flags.checks f.kind then p
  else { p with findings := p.findings ++ [f], scopes := p.scopes.modify owner ClassScope.charge }

section

variable (flags : SkipFlags) (path : String)

def declareClass (p : Pass) (w : Pending) (name : String) : Pass :=
  (p.begin { name, line := w.line }).evaluate flags w.docblock
    ⟨.classDecl, path, p.enclosing.map (·.name), name, w.line⟩ p.scopes.length

-- Functions outside every class are never checked.
def declareFunction (p : Pass) (w : Pending) (name : String) : Pass :=
  match p.innermost with
  | none => p
  | some owner =>
    let kind := if name = closureName then .closure else .method
    p.evaluate flags w.docblock ⟨kind, path, p.enclosing.map (·.name), name, w.line⟩ owner

def read (p : Pass) (t : Token) : Pass :=
  match p.pending with
  | none => p.enter t
  | some w =>
    let idle := { p with pending := none }
    match w.head with
    | .ofFunction =>
      if t.text = "&" then p
      else if t.kind.isLabel then idle.declareFunction flags path w t.text
      else if t.text = "(" then (idle.declareFunction flags path w closureName).enter t
      else idle.enter t
    | .ofClass =>
      if t.kind.isLabel then idle.declareClass flags path w t.text
      else idle.enter t

def step (p : Pass) (t : Token) : Pass :=
  let next := if t.trivia then p else { p.read flags path t with previous := some t }
  { next with history := t :: next.history }

end

def outcome (p : Pass) : Outcome :=
  ⟨p.findings, (p.scopes.filter (!·.anonymous)).map (·.summary)⟩

end Pass

def scan (flags : SkipFlags) (tokens : List Token) (path : String) : Outcome :=
  (tokens.foldl (Pass.step flags path) {}).outcome

end DocAudit
