/-!
Text in units of 16 bits. A character beyond the first 65536 is written as a pair of halves; half
a pair by itself is a code point, and no character.
-/

set_option autoImplicit false

namespace DocAudit.Text

def firstHalf : Nat := 0xD800

def isHighUnit (n : Nat) : Bool := 0xD800 ≤ n && n < 0xDC00
def isLowUnit (n : Nat) : Bool := 0xDC00 ≤ n && n < 0xE000
def isHalf (n : Nat) : Bool := isHighUnit n || isLowUnit n

def pairValue (high low : Nat) : Nat := 0x10000 + (high - 0xD800) * 0x400 + (low - 0xDC00)

-- The code points of units, where a half is paired with the one after it.
def joinPairs : List Nat → List Nat
  | [] => []
  | [unit] => [unit]
  | high :: low :: units =>
    if isHighUnit high && isLowUnit low then pairValue high low :: joinPairs units
    else high :: joinPairs (low :: units)

end DocAudit.Text
