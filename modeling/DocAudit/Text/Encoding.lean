import DocAudit.Text.Units
import DocAudit.Text.Utf8

/-!
Encodings told apart by where the first bytes are zero. A text that begins with an ASCII character
shows by them how many bytes its characters have, and in which order they stand.
-/

set_option autoImplicit false

namespace DocAudit.Text

inductive ByteOrder where
  | bigEndian
  | littleEndian
deriving DecidableEq, Repr

inductive Encoding where
  | utf8
  | utf16 (order : ByteOrder)
  | utf32 (order : ByteOrder)
deriving DecidableEq, Repr

namespace Encoding

-- The encoding of bytes that begin with an ASCII character.
def guess : List UInt8 → Encoding
  | [a, b] =>
    if a = 0 then .utf16 .bigEndian else if b = 0 then .utf16 .littleEndian else .utf8
  | a :: b :: c :: d :: _ =>
    if a = 0 then if b = 0 then .utf32 .bigEndian else .utf16 .bigEndian
    else if b = 0 then if c = 0 ∧ d = 0 then .utf32 .littleEndian else .utf16 .littleEndian
    else .utf8
  | _ => .utf8

def bigEndianValue (bytes : List UInt8) : Nat :=
  bytes.foldl (fun n b => n * 256 + b.toNat) 0

def ByteOrder.value (order : ByteOrder) (bytes : List UInt8) : Nat :=
  match order with
  | .bigEndian => bigEndianValue bytes
  | .littleEndian => bigEndianValue bytes.reverse

def pairs? (order : ByteOrder) : List UInt8 → Option (List Nat)
  | [] => some []
  | [_] => none
  | a :: b :: bytes => (pairs? order bytes).map (ByteOrder.value order [a, b] :: ·)

def quads? (order : ByteOrder) : List UInt8 → Option (List Nat)
  | [] => some []
  | a :: b :: c :: d :: bytes => (quads? order bytes).map (ByteOrder.value order [a, b, c, d] :: ·)
  | _ => none

-- The code points of bytes, where they make up whole characters; halves of pairs are let through.
def points? (encoding : Encoding) (bytes : List UInt8) : Option (List Nat) :=
  match encoding with
  | .utf8 => some ((Utf8.decodeChars bytes).map Char.toNat)
  | .utf16 order => (pairs? order bytes).map joinPairs
  | .utf32 order => (quads? order bytes).filter (·.all (· ≤ 0x10FFFF))

end Encoding

end DocAudit.Text
