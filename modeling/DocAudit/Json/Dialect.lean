import DocAudit.Json.Basic
import DocAudit.Text.Halves

/-!
Limits of readers and writers of JSON.
-/

set_option autoImplicit false

namespace DocAudit.Json

-- What a reader or a writer admits: the depth of nesting and the number of digits of an integer,
-- where there is an end to them, and for a reader the characters that stand for halves of pairs.
structure Dialect where
  depth : Option Nat := none
  digits : Option Nat := none
  halves : Text.Halves := .empty
deriving DecidableEq, Repr

def Dialect.admitsDepth (d : Dialect) (depth : Nat) : Bool := d.depth.all (depth ≤ ·)

def Dialect.admitsDigits (d : Dialect) (count : Nat) : Bool := d.digits.all (count ≤ ·)

end DocAudit.Json
