import DocAudit.Text.LowerCase

/-!
Labels and the words reserved among them.
-/

set_option autoImplicit false

namespace DocAudit.Php

def asciiLabelStart (c : Char) : Bool := c.isLower || c.isUpper || c == '_'

-- Every character outside ASCII may stand in a label.
def labelStart (c : Char) : Bool := asciiLabelStart c || 0x80 ≤ c.toNat

def labelChar (c : Char) : Bool := labelStart c || c.isDigit

theorem labelChar_of_labelStart {c : Char} (h : labelStart c = true) : labelChar c = true := by
  simp [labelChar, h]

def reservedWords : List String :=
  ["__halt_compiler", "abstract", "and", "array", "as", "break", "callable", "case", "catch",
   "class", "clone", "const", "continue", "declare", "default", "die", "do", "echo", "else",
   "elseif", "empty", "enddeclare", "endfor", "endforeach", "endif", "endswitch", "endwhile",
   "eval", "exit", "extends", "final", "finally", "fn", "for", "foreach", "function", "global",
   "goto", "if", "implements", "include", "include_once", "instanceof", "insteadof", "interface",
   "isset", "list", "match", "namespace", "new", "or", "print", "private", "protected", "public",
   "readonly", "require", "require_once", "return", "static", "switch", "throw", "trait", "try",
   "unset", "use", "var", "while", "xor", "yield"]

-- What makes the label after it a name, whatever the label reads.
def nameContexts : List String := ["->", "?->", "::", "const"]

-- Reserved words are reserved in any case, but not after a name context.
def isReserved (word before : String) : Bool :=
  reservedWords.contains (Text.lower word) && !nameContexts.contains (Text.lower before)

end DocAudit.Php
