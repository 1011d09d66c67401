import DocAudit.Number.Numeral
import DocAudit.Text.Quoted
import DocAudit.Text.Units
import DocAudit.Text.Utf8

/-!
Texts with halves of pairs in them. Such a text is kept with a character in the place of each
half, one that the text does not have otherwise.
-/

set_option autoImplicit false

namespace DocAudit.Text

namespace Halves

-- The characters from here on are no letters, digits or blanks, as a half is none.
def firstStandIn : Nat := 0x40000

def pointLimit : Nat := 0x110000

def halfCount : Nat := 0x800

def fresh (points : List Nat) : List Char :=
  let taken := points.filter (firstStandIn ≤ ·)
  let free := (List.range' firstStandIn (halfCount + taken.length)).filter fun point =>
    !points.contains point && point < pointLimit
  (free.take halfCount).map Char.ofNat

theorem fresh_apart (points : List Nat) (c : Char) (member : c ∈ fresh points) :
    firstStandIn ≤ c.toNat ∧ c.toNat ∉ points := by
  obtain ⟨point, taken, rfl⟩ := List.mem_map.mp member
  obtain ⟨inRange, free⟩ := List.mem_filter.mp (List.mem_of_mem_take taken)
  rw [Bool.and_eq_true, decide_eq_true_eq] at free
  have least : firstStandIn ≤ point := by
    rw [List.mem_range'_1] at inRange
    exact inRange.1
  have valid : point.isValidChar := .inr ⟨Nat.lt_of_lt_of_le (by decide) least, free.2⟩
  have same : (Char.ofNat point).toNat = point := by
    rw [Char.ofNat, dif_pos valid]
    rfl
  rw [same]
  exact ⟨least, by simpa using free.1⟩

end Halves

-- The characters that stand for halves, in the order of the halves. There are none where no text
-- has a half.
structure Halves where
  standIns : List Char
  apart : ∀ c ∈ standIns, Halves.firstStandIn ≤ c.toNat
deriving DecidableEq, Repr

-- Halves side by side in a text, the first of them at a position. No bytes encode them.
structure HalfRun where
  position : Nat
  halves : List Nat
deriving DecidableEq, Repr

namespace Halves

def empty : Halves := ⟨[], by simp⟩

-- Stand-ins that are not among some code points.
def apartFrom (points : List Nat) : Halves where
  standIns := fresh points
  apart c member := (fresh_apart points c member).1

-- The character for a code point. A half that nothing stands for is replaced.
def char (halves : Halves) (point : Nat) : Char :=
  if isHalf point then halves.standIns.getD (point - firstHalf) Utf8.replacement
  else Char.ofNat point

def text (halves : Halves) (points : List Nat) : List Char := points.map halves.char

def half? (halves : Halves) (c : Char) : Option Nat :=
  (halves.standIns.idxOf? c).map (firstHalf + ·)

def occursIn (halves : Halves) (s : String) : Bool := s.toList.any fun c => (halves.half? c).isSome

def leading (halves : Halves) : List Char → List Nat
  | [] => []
  | c :: s =>
    match halves.half? c with
    | some half => half :: halves.leading s
    | none => []

def firstRun? (halves : Halves) (p : Nat → Bool) (position : Nat) : List Char → Option HalfRun
  | [] => none
  | c :: s =>
    if (halves.half? c).any p then some ⟨position, halves.leading (c :: s)⟩
    else halves.firstRun? p (position + 1) s

def run? (halves : Halves) (s : List Char) : Option HalfRun :=
  halves.firstRun? (fun _ => true) 0 s

def quoted (halves : Halves) (s : String) : String :=
  let q := quoteFor s.toList
  let shown := s.toList.flatMap fun c =>
    match halves.half? c with
    | some half => '\\' :: 'u' :: hexDigits 4 half
    | none => quoteChar q c
  String.ofList (q :: (shown ++ [q]))

-- In the name of a file a half may stand for a byte that is no text.
def isByteHalf (half : Nat) : Bool := 0xDC80 ≤ half && half < 0xDD00

-- Unfolded by its name alone, and not wherever a path is looked at.
@[irreducible]
def pathRun? (halves : Halves) (s : List Char) : Option HalfRun :=
  halves.firstRun? (!isByteHalf ·) 0 s

end Halves

def HalfRun.message (run : HalfRun) : String :=
  let position := Number.numeral run.position
  let subject := match run.halves with
    | [half] => "character '\\u" ++ String.ofList (hexDigits 4 half) ++ "' in position " ++ position
    | halves =>
      "characters in position " ++ position ++ "-" ++
        Number.numeral (run.position + halves.length - 1)
  "'utf-8' codec can't encode " ++ subject ++ ": surrogates not allowed"

end DocAudit.Text
