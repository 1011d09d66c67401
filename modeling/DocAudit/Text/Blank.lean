import DocAudit.Text.Ranges

/-!
Blank characters of every script, and texts without blanks at their ends.
-/

set_option autoImplicit false

namespace DocAudit.Text

def blankRanges : List Range :=
  [(0x9, 0xD), (0x1C, 0x20), (0x85, 0x85), (0xA0, 0xA0), (0x1680, 0x1680), (0x2000, 0x200A),
   (0x2028, 0x2029), (0x202F, 0x202F), (0x205F, 0x205F), (0x3000, 0x3000)]

def blank (c : Char) : Bool := inRanges blankRanges c

def dropEnd (p : Char → Bool) (s : List Char) : List Char :=
  (s.reverse.dropWhile p).reverse

def trimChars (s : List Char) : List Char :=
  dropEnd blank (s.dropWhile blank)

def trim (s : String) : String :=
  String.ofList (trimChars s.toList)

end DocAudit.Text
