import DocAudit.Json.Dialect
import DocAudit.Number.Numeral

/-!
Reads JSON text. Beside the values of the format, the names of infinities and of the number that
is none are read. Of fields with one name the last counts. A reader may have limits; the first
flaw of a text decides, whether it is one of form or a limit that was passed.
-/

set_option autoImplicit false

namespace DocAudit.Json

open Number

inductive Flaw where
  | noValue
  | noName
  | noColon
  | noComma
  | extraText
  | openString
  | controlCharacter
  | unknownEscape
  | badUnit
deriving DecidableEq, Repr

def Flaw.message : Flaw → String
  | .noValue => "Expecting value"
  | .noName => "Expecting property name enclosed in double quotes"
  | .noColon => "Expecting ':' delimiter"
  | .noComma => "Expecting ',' delimiter"
  | .extraText => "Extra data"
  | .openString => "Unterminated string starting at"
  | .controlCharacter => "Invalid control character at"
  | .unknownEscape => "Invalid \\escape"
  | .badUnit => "Invalid \\uXXXX escape"

-- Why a text cannot be read. A flaw stands so many characters before the end of the text.
inductive ReadError where
  | malformed (flaw : Flaw) (left : Nat)
  | tooDeep
  | tooLong
deriving DecidableEq, Repr

structure Mistake where
  flaw : Flaw
  line : Nat
  column : Nat
  offset : Nat
deriving DecidableEq, Repr

def Mistake.ofLeft (text : List Char) (flaw : Flaw) (left : Nat) : Mistake :=
  let before := text.take (text.length - left)
  { flaw, line := before.count '\n' + 1
    column := (before.reverse.takeWhile (· != '\n')).length + 1, offset := before.length }

def Mistake.message (m : Mistake) : String :=
  m.flaw.message ++ ": line " ++ Number.numeral m.line ++ " column " ++ Number.numeral m.column ++
    " (char " ++ Number.numeral m.offset ++ ")"

abbrev Reading (α : Type) := Except ReadError (α × List Char)

def malformed {α : Type} (flaw : Flaw) (rest : List Char) : Reading α :=
  .error (.malformed flaw rest.length)

def blank (c : Char) : Bool := c == ' ' || c == '\t' || c == '\n' || c == '\r'

def skipBlanks (s : List Char) : List Char := s.dropWhile blank

def hexDigitValue? (c : Char) : Option Nat :=
  if c.isDigit then some (c.toNat - 48)
  else if 'a' ≤ c ∧ c ≤ 'f' then some (c.toNat - 87)
  else if 'A' ≤ c ∧ c ≤ 'F' then some (c.toNat - 55)
  else none

def unitValue? (a b c d : Char) : Option Nat := do
  let a ← hexDigitValue? a
  let b ← hexDigitValue? b
  let c ← hexDigitValue? c
  let d ← hexDigitValue? d
  some (((a * 16 + b) * 16 + c) * 16 + d)

def escaped? (c : Char) : Option Char :=
  if c = '"' ∨ c = '\\' ∨ c = '/' then some c
  else if c = 'b' then some (Char.ofNat 8)
  else if c = 'f' then some (Char.ofNat 12)
  else if c = 'n' then some '\n'
  else if c = 'r' then some '\r'
  else if c = 't' then some '\t'
  else none

def consUnit (unit : Nat) (read : Reading (List Nat)) : Reading (List Nat) :=
  read.map fun (units, rest) => (unit :: units, rest)

-- Reads the rest of a string as code points, and what follows its closing quote. The string
-- begins at `start`. The digits of an escape are read only where something follows them.
def readUnits (start : List Char) : List Char → Reading (List Nat)
  | [] => malformed .openString start
  | '"' :: s => .ok ([], s)
  | ['\\'] => malformed .openString start
  | '\\' :: 'u' :: a :: b :: c :: d :: e :: s =>
    match unitValue? a b c d with
    | some unit => consUnit unit (readUnits start (e :: s))
    | none => malformed .badUnit ('u' :: a :: b :: c :: d :: e :: s)
  | '\\' :: 'u' :: s => malformed .badUnit ('u' :: s)
  | '\\' :: c :: s =>
    match escaped? c with
    | some c => consUnit c.toNat (readUnits start s)
    | none => malformed .unknownEscape ('\\' :: c :: s)
  | c :: s =>
    if c.toNat < 0x20 then malformed .controlCharacter (c :: s)
    else consUnit c.toNat (readUnits start s)

def readString (d : Dialect) (s : List Char) : Reading String :=
  (readUnits ('"' :: s) s).map fun (units, rest) =>
    (String.ofList (d.halves.text (Text.joinPairs units)), rest)

def denotedUnits : List Char → List Nat
  | [] => []
  | '\\' :: 'u' :: a :: b :: c :: d :: s =>
    (unitValue? a b c d).toList ++ denotedUnits s
  | '\\' :: c :: s => c.toNat :: denotedUnits s
  | c :: s => c.toNat :: denotedUnits s

def readDigits (s : List Char) : Option (List Char × List Char) :=
  match s.takeWhile Char.isDigit with
  | [] => none
  | digits => some (digits, s.dropWhile Char.isDigit)

-- Reads the digits of an integer: a lone zero, or digits that begin with none.
def readWhole : List Char → Option (List Char × List Char)
  | '0' :: s => some (['0'], s)
  | s => readDigits s

def readFraction : List Char → Option (List Char × List Char)
  | '.' :: s => readDigits s
  | _ => none

def readExponentDigits : List Char → Option (Int × List Char)
  | '-' :: s => (readDigits s).map fun (digits, s) => (-Int.ofNat (natValue digits), s)
  | '+' :: s => (readDigits s).map fun (digits, s) => (Int.ofNat (natValue digits), s)
  | s => (readDigits s).map fun (digits, s) => (Int.ofNat (natValue digits), s)

def readExponent : List Char → Option (Int × List Char)
  | c :: s => if c = 'e' ∨ c = 'E' then readExponentDigits s else none
  | [] => none

def signed (negative : Bool) (n : Nat) : Int := if negative then -Int.ofNat n else Int.ofNat n

def readUnsigned (d : Dialect) (negative : Bool) (s : List Char) : Reading Json :=
  match readWhole s with
  | none => malformed .noValue s
  | some (whole, s) =>
    match readFraction s, readExponent s with
    | none, none =>
      if d.admitsDigits whole.length then .ok (.int (signed negative (natValue whole)), s)
      else .error .tooLong
    | none, some (e, s) =>
      .ok (.float (.ofDecimal negative (natValue whole) whole.length e), s)
    | some (fraction, s), _ =>
      let digits := whole ++ fraction
      let (e, s) := (readExponent s).getD (0, s)
      .ok (.float (.ofDecimal negative (natValue digits) digits.length (e - fraction.length)), s)

def readNumber (d : Dialect) : List Char → Reading Json
  | '-' :: s =>
    if (readWhole s).isSome then readUnsigned d true s else malformed .noValue ('-' :: s)
  | s => readUnsigned d false s

def names : List (List Char × Json) :=
  [(['n', 'u', 'l', 'l'], .null), (['t', 'r', 'u', 'e'], .bool true),
   (['f', 'a', 'l', 's', 'e'], .bool false), (['N', 'a', 'N'], .float .nan),
   (['I', 'n', 'f', 'i', 'n', 'i', 't', 'y'], .float (.infinite false)),
   (['-', 'I', 'n', 'f', 'i', 'n', 'i', 't', 'y'], .float (.infinite true))]

def readScalar (d : Dialect) (s : List Char) : Reading Json :=
  match s with
  | '"' :: s => (readString d s).map fun (value, rest) => (.str value, rest)
  | s =>
    match names.find? (·.1.isPrefixOf s) with
    | some (name, value) => .ok (value, s.drop name.length)
    | none => readNumber d s

def readKey (d : Dialect) : List Char → Reading String
  | '"' :: s =>
    match readString d s with
    | .ok (key, s) =>
      match skipBlanks s with
      | ':' :: s => .ok (key, skipBlanks s)
      | s => malformed .noColon s
    | .error e => .error e
  | s => malformed .noName s

mutual

-- Reads a value inside `depth` others. No text takes more steps than two for each character, so
-- with so much fuel it does not run out.
def readValue (d : Dialect) : Nat → Nat → List Char → Reading Json
  | 0, _, s => malformed .noValue s
  | fuel + 1, depth, '[' :: s =>
    if d.admitsDepth (depth + 1) then
      match skipBlanks s with
      | ']' :: s => .ok (.arr [], s)
      | s => (readItems d fuel (depth + 1) s).map fun (items, rest) => (.arr items, rest)
    else .error .tooDeep
  | fuel + 1, depth, '{' :: s =>
    if d.admitsDepth (depth + 1) then
      match skipBlanks s with
      | '}' :: s => .ok (.obj [], s)
      | s =>
        (readFields d fuel (depth + 1) [] s).map fun (fields, rest) => (.obj fields, rest)
    else .error .tooDeep
  | _ + 1, _, s => readScalar d s

def readItems (d : Dialect) : Nat → Nat → List Char → Reading (List Json)
  | 0, _, s => malformed .noValue s
  | fuel + 1, depth, s =>
    match readValue d fuel depth s with
    | .error e => .error e
    | .ok (item, s) =>
      match skipBlanks s with
      | ',' :: s =>
        (readItems d fuel depth (skipBlanks s)).map fun (items, rest) => (item :: items, rest)
      | ']' :: s => .ok ([item], s)
      | s => malformed .noComma s

def readFields (d : Dialect) : Nat → Nat → List (String × Json) → List Char →
    Reading (List (String × Json))
  | 0, _, _, s => malformed .noName s
  | fuel + 1, depth, before, s =>
    match readKey d s with
    | .error e => .error e
    | .ok (key, s) =>
      match readValue d fuel depth s with
      | .error e => .error e
      | .ok (value, s) =>
        let fields := setField key value before
        match skipBlanks s with
        | ',' :: s => readFields d fuel depth fields (skipBlanks s)
        | '}' :: s => .ok (fields, s)
        | s => malformed .noComma s

end

def read (d : Dialect) (text : List Char) : Except ReadError Json :=
  let s := skipBlanks text
  match readValue d (2 * s.length + 1) 0 s with
  | .error e => .error e
  | .ok (value, rest) =>
    match skipBlanks rest with
    | [] => .ok value
    | rest => .error (.malformed .extraText rest.length)

def read? (text : String) : Option Json :=
  match read {} text.toList with
  | .ok value => some value
  | .error _ => none

end DocAudit.Json
