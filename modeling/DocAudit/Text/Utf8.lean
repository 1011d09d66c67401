/-!
Bytes and text. Every text has an encoding; any bytes can be decoded, and each longest piece that
begins no valid sequence reads as one replacement character.
-/

set_option autoImplicit false

namespace DocAudit.Text.Utf8

def tailByte (n place : Nat) : UInt8 :=
  UInt8.ofNat (0x80 + n / Nat.pow 64 place % 64)

def encodeChar (c : Char) : List UInt8 :=
  let n := c.toNat
  if n < 0x80 then [UInt8.ofNat n]
  else if n < 0x800 then [UInt8.ofNat (0xC0 + n / 64), tailByte n 0]
  else if n < 0x10000 then [UInt8.ofNat (0xE0 + n / Nat.pow 64 2), tailByte n 1, tailByte n 0]
  else [UInt8.ofNat (0xF0 + n / Nat.pow 64 3), tailByte n 2, tailByte n 1, tailByte n 0]

def encodeChars (s : List Char) : List UInt8 := s.flatMap encodeChar

def encode (s : String) : List UInt8 := encodeChars s.toList

-- A sequence that has begun: its bits so far, the tail bytes still to come, and the bounds of
-- the next one.
structure Begun where
  bits : Nat
  more : Nat
  low : Nat := 0x80
  high : Nat := 0xBF
deriving DecidableEq

def replacement : Char := Char.ofNat 0xFFFD

def first (b : UInt8) : List Char × Option Begun :=
  let n := b.toNat
  if n < 0x80 then ([Char.ofNat n], none)
  else if n < 0xC2 then ([replacement], none)
  else if n < 0xE0 then ([], some { bits := n - 0xC0, more := 0 })
  else if n = 0xE0 then ([], some { bits := 0, more := 1, low := 0xA0 })
  else if n = 0xED then ([], some { bits := 13, more := 1, high := 0x9F })
  else if n < 0xF0 then ([], some { bits := n - 0xE0, more := 1 })
  else if n = 0xF0 then ([], some { bits := 0, more := 2, low := 0x90 })
  else if n = 0xF4 then ([], some { bits := 4, more := 2, high := 0x8F })
  else if n < 0xF4 then ([], some { bits := n - 0xF0, more := 2 })
  else ([replacement], none)

-- Reads one byte. A byte that cannot go on with the sequence ends it as a replacement and
-- begins anew.
def next (state : Option Begun) (b : UInt8) : List Char × Option Begun :=
  match state with
  | none => first b
  | some p =>
    if p.low ≤ b.toNat ∧ b.toNat ≤ p.high then
      let bits := p.bits * 64 + (b.toNat - 0x80)
      match p.more with
      | 0 => ([Char.ofNat bits], none)
      | more + 1 => ([], some { bits, more })
    else (replacement :: (first b).1, (first b).2)

def decodeFrom (state : Option Begun) : List UInt8 → List Char
  | [] => if state.isSome then [replacement] else []
  | b :: bs => (next state b).1 ++ decodeFrom (next state b).2 bs

def decodeChars (bytes : List UInt8) : List Char := decodeFrom none bytes

def decode (bytes : List UInt8) : String := String.ofList (decodeChars bytes)

def size (s : String) : Nat := (encode s).length

end DocAudit.Text.Utf8
