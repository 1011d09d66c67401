import DocAudit.Number.Numeral
import DocAudit.Text.Quoted
import DocAudit.Text.Split
import DocAudit.Text.Utf8

/-!
Hosts: a name or an address between brackets, perhaps with a port; and the addresses of paths on
them.
-/

set_option autoImplicit false

namespace DocAudit.Service

def isHexDigit (c : Char) : Bool :=
  c.isDigit || 'a' ≤ c && c ≤ 'f' || 'A' ≤ c && c ≤ 'F'

def unreserved (c : Char) : Bool := c.isAlphanum || ['-', '.', '_', '~'].contains c

def isDelimiter (c : Char) : Bool :=
  ['!', '$', '&', '\'', '(', ')', '*', '+', ',', ';', '='].contains c

/-! ### Numeric addresses -/

def isOctet (s : List Char) : Bool :=
  !s.isEmpty && s.all Char.isDigit && (s.head? != some '0' || s.length == 1) &&
    Number.natValue s < 256

def isDottedQuad (s : List Char) : Bool :=
  let octets := Text.splitChars '.' s
  octets.length == 4 && octets.all isOctet

def isGroup (s : List Char) : Bool := !s.isEmpty && s.length ≤ 4 && s.all isHexDigit

-- The number of groups that pieces stand for. A dotted quad may be the last piece of the address,
-- and stands for two.
def groupCount? (isLast : Bool) : List (List Char) → Option Nat
  | [] => some 0
  | [piece] =>
    if isGroup piece then some 1 else if isLast && isDottedQuad piece then some 2 else none
  | piece :: pieces => if isGroup piece then (groupCount? isLast pieces).map (· + 1) else none

def partGroups? (isLast : Bool) (s : List Char) : Option Nat :=
  if s.isEmpty then some 0 else groupCount? isLast (Text.splitChars ':' s)

def splitAtGap : List Char → Option (List Char × List Char)
  | [] => none
  | ':' :: ':' :: s => some ([], s)
  | c :: s => (splitAtGap s).map fun (before, after) => (c :: before, after)

-- Eight groups, or fewer with a gap for the others.
def isNumericAddress (s : List Char) : Bool :=
  match splitAtGap s with
  | none => groupCount? true (Text.splitChars ':' s) == some 8
  | some (before, after) =>
    match partGroups? false before, partGroups? true after with
    | some m, some n => m + n < 8
    | _, _ => false

-- An address of a version to come: `v`, the version, a point and a text.
def isFutureAddress : List Char → Bool
  | 'v' :: s =>
    let version := s.takeWhile isHexDigit
    match s.drop version.length with
    | '.' :: text =>
      !version.isEmpty && !text.isEmpty &&
        text.all fun c => unreserved c || isDelimiter c || c == ':'
    | _ => false
  | _ => false

/-! ### Hosts -/

def portLimit : Nat := 65535

def isPort : List Char → Bool
  | [] => true
  | c :: digits =>
    c == ':' && !digits.isEmpty && digits.all Char.isDigit && Number.natValue digits ≤ portLimit

def nameChar (c : Char) : Bool := unreserved c || isDelimiter c || c == '%'

def isHost (s : List Char) : Bool :=
  match s with
  | '[' :: s =>
    let address := s.takeWhile (· != ']')
    (isNumericAddress address || isFutureAddress address) &&
      address.length < s.length && isPort (s.drop (address.length + 1))
  | s =>
    let name := s.takeWhile (· != ':')
    !name.isEmpty && name.all nameChar && isPort (s.drop name.length)

/-! ### Addresses of paths -/

def addressChar (c : Char) : Bool :=
  unreserved c ||
    [':', '/', '%', '#', '?', '=', '@', '[', ']', '!', '$', '&', '\'', '(', ')', '*', '+',
      ','].contains c

def upperHexDigits (b : UInt8) : List Char := (Text.hexDigits 2 b.toNat).map Char.toUpper

def escapeAddress (s : List Char) : List Char :=
  s.flatMap fun c =>
    if addressChar c then [c] else (Text.Utf8.encodeChar c).flatMap fun b => '%' :: upperHexDigits b

def location (host path : String) : String :=
  String.ofList (escapeAddress ("http://" ++ host ++ path).toList)

end DocAudit.Service
