import DocAudit.Php.Lexeme

/-!
The lexemes of a whole source. Reading goes on through regions of markup, code and trailing data,
and stops early at a construct without an end; what was read before it is kept.
-/

set_option autoImplicit false

namespace DocAudit.Php

inductive Region where
  | markup
  | code
  | data
deriving DecidableEq, Repr

-- What the reading of the next lexeme depends on besides the text: the region, the last
-- significant code lexeme, and whether the compiler has been told to halt.
structure Mode where
  region : Region := .markup
  last : String := ""
  halting : Bool := false
deriving DecidableEq, Repr

structure Step where
  lexeme : Lexeme
  rest : List Char
  mode : Mode
deriving DecidableEq, Repr

def Mode.settle (m : Mode) (shape : Shape) (text : String) : Shape :=
  if shape = .name ∧ isReserved text m.last then .keyword else shape

def Mode.afterCode (m : Mode) (shape : Shape) (text : String) : Mode :=
  let halting := m.halting || shape == .keyword && Text.lower text == "__halt_compiler"
  { region :=
      if shape = .closeTag then .markup
      else if halting ∧ text = ";" then .data
      else .code
    last := if shape.trivia then m.last else text
    halting }

def Mode.step (m : Mode) (c : Char) (s : List Char) : Except Unterminated Step :=
  match m.region with
  | .data => .ok ⟨⟨.data, c :: s⟩, [], m⟩
  | .markup =>
    match readOpenTag (c :: s) with
    | some cut => .ok ⟨⟨.openTag, cut.text⟩, cut.rest, { m with region := .code }⟩
    | none => .ok ⟨⟨.markup, ((toOpenTag s).cons c).text⟩, (toOpenTag s).rest, m⟩
  | .code =>
    match readCode c s with
    | .error e => .error e
    | .ok (shape, cut) =>
      let text := String.ofList cut.text
      let settled := m.settle shape text
      .ok ⟨⟨settled, cut.text⟩, cut.rest, m.afterCode settled text⟩

-- A step reads something, and nothing is lost by it.
theorem Mode.whole_step {m : Mode} {c : Char} {s : List Char} {step : Step}
    (h : m.step c s = .ok step) :
    step.lexeme.text ++ step.rest = c :: s ∧ step.lexeme.text ≠ [] := by
  unfold Mode.step at h
  split at h
  · simp at h
    simp [← h]
  · split at h
    · rename_i cut found
      simp at h
      simpa [← h, Cut.whole] using whole_readOpenTag found
    · simp at h
      have := whole_toOpenTag s
      rw [Cut.whole] at this
      simp [← h, Cut.cons, this]
  · split at h
    · simp at h
    · rename_i shape cut found
      simp at h
      simpa [← h, Cut.whole] using whole_readCode found

theorem Mode.length_rest_lt {m : Mode} {c : Char} {s : List Char} {step : Step}
    (h : m.step c s = .ok step) : step.rest.length < (c :: s).length := by
  have := List.length_pos_iff.2 (whole_step h).2
  rw [← (whole_step h).1, List.length_append]
  omega

structure Lexing where
  lexemes : List Lexeme
  failure : Option Unterminated
deriving DecidableEq, Repr

def Lexing.cons (l : Lexeme) (lexing : Lexing) : Lexing :=
  ⟨l :: lexing.lexemes, lexing.failure⟩

def Mode.lex (m : Mode) (s : List Char) : Lexing :=
  match s with
  | [] => ⟨[], none⟩
  | c :: s =>
    match _read : m.step c s with
    | .error e => ⟨[], some e⟩
    | .ok step => (step.mode.lex step.rest).cons step.lexeme
termination_by s.length
decreasing_by exact Mode.length_rest_lt _read

def lex (s : List Char) : Lexing := Mode.lex {} s

end DocAudit.Php
