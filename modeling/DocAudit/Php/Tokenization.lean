import DocAudit.Number.Numeral
import DocAudit.Php.Lexing

/-!
The tokens of a source, each with the line it begins on, and the error that cut them short.
-/

set_option autoImplicit false

namespace DocAudit.Php

-- The line that a lexeme leaves the count on, when it begins on `line`. The count passes over
-- opening tags, which stay on their line, and over data, which nothing follows.
def Lexeme.lineAfter (l : Lexeme) (line : Int) : Int :=
  match l.shape with
  | .openTag | .data => line
  | _ => line + l.text.count '\n'

def numbered (line : Int) : List Lexeme → List Token
  | [] => []
  | l :: ls => ⟨l.shape.kind, String.ofList l.text, line⟩ :: numbered (l.lineAfter line) ls

def lineAfterAll (line : Int) : List Lexeme → Int
  | [] => line
  | l :: ls => lineAfterAll (l.lineAfter line) ls

structure ParseError where
  construct : Unterminated
  line : Int
deriving DecidableEq, Repr

def ParseError.reason (e : ParseError) : String :=
  match e.construct with
  | .comment => "unterminated comment"
  | .string => "unterminated string"
  | .heredoc => "unterminated heredoc"

def ParseError.message (e : ParseError) : String :=
  e.reason ++ " starting on line " ++ Number.numeral e.line

structure Tokenization where
  tokens : List Token
  error : Option ParseError
deriving DecidableEq, Repr

def Lexing.tokenization (lexing : Lexing) : Tokenization where
  tokens := numbered 1 lexing.lexemes
  error := lexing.failure.map fun construct => ⟨construct, lineAfterAll 1 lexing.lexemes⟩

def tokenize (source : String) : Tokenization :=
  (lex source.toList).tokenization

def tokens? (source : String) : Except ParseError (List Token) :=
  let t := tokenize source
  match t.error with
  | some e => .error e
  | none => .ok t.tokens

end DocAudit.Php
