import DocAudit.Text.LowerCase

/-!
Tokens of PHP source: a kind, a text, and the line on which the text begins.
-/

set_option autoImplicit false

namespace DocAudit.Php

inductive TokenKind where
  | keyword
  | identifier
  | openBrace
  | closeBrace
  | docComment
  | lineComment
  | blockComment
  | whitespace
  | other
deriving DecidableEq, Repr

def TokenKind.name : TokenKind → String
  | .keyword => "keyword"
  | .identifier => "identifier"
  | .openBrace => "open_brace"
  | .closeBrace => "close_brace"
  | .docComment => "doc_comment"
  | .lineComment => "line_comment"
  | .blockComment => "block_comment"
  | .whitespace => "whitespace"
  | .other => "other"

def TokenKind.all : List TokenKind :=
  [.keyword, .identifier, .openBrace, .closeBrace, .docComment, .lineComment, .blockComment,
   .whitespace, .other]

def TokenKind.ofName? (name : String) : Option TokenKind :=
  all.find? (·.name == name)

theorem TokenKind.ofName?_name (k : TokenKind) : ofName? k.name = some k := by
  cases k <;> decide

def TokenKind.isComment : TokenKind → Bool
  | .docComment | .lineComment | .blockComment => true
  | _ => false

def TokenKind.isLabel : TokenKind → Bool
  | .keyword | .identifier => true
  | _ => false

def TokenKind.isBrace : TokenKind → Bool
  | .openBrace | .closeBrace => true
  | _ => false

structure Token where
  kind : TokenKind
  text : String
  line : Int
deriving DecidableEq, Repr

namespace Token

def trivia (t : Token) : Bool := t.kind == .whitespace || t.kind.isComment

def lower (t : Token) : String := Text.lower t.text

def endLine (t : Token) : Int := t.line + t.text.toList.count '\n'

def isKeyword (t : Token) (word : String) : Bool :=
  t.kind == .keyword && t.lower == word

end Token

end DocAudit.Php
