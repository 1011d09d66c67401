import DocAudit.Php.Lexeme
import DocAudit.Text.Digit

/-!
Reading code by patterns that can fail. Three readings rely on a match that they do not look at:
whitespace, line comments and numbers. No text makes one of them fail.
-/

set_option autoImplicit false

namespace DocAudit.Php

-- Superscripts, circled digits and the like: a test for digits accepts them, a pattern that
-- asks for a decimal digit does not.
def dressedDigitRanges : List Text.Range :=
  [(0xB2, 0xB3), (0xB9, 0xB9), (0x1369, 0x1371), (0x19DA, 0x19DA), (0x2070, 0x2070),
   (0x2074, 0x2079), (0x2080, 0x2089), (0x2460, 0x2468), (0x2474, 0x247C), (0x2488, 0x2490),
   (0x24EA, 0x24EA), (0x24F5, 0x24FD), (0x24FF, 0x24FF), (0x2776, 0x277E), (0x2780, 0x2788),
   (0x278A, 0x2792), (0x10A40, 0x10A43), (0x10E60, 0x10E68), (0x11052, 0x1105A),
   (0x1F100, 0x1F10A)]

def digitTest (c : Char) : Bool := Text.decimalDigit c || Text.inRanges dressedDigitRanges c

def matchRun (first more : Char → Bool) : List Char → Option Cut
  | [] => none
  | c :: s => if first c then some ((Cut.run more s).cons c) else none

def matchLineComment : List Char → Option Cut
  | '/' :: '/' :: s => some (((toLineEnd s).cons '/').cons '/')
  | '#' :: s => some ((toLineEnd s).cons '#')
  | _ => none

-- The order of the tests is that of `readCode` and `readPlain`. The outer none denotes a match
-- that was relied on and is not there.
def readCodeChecked (c : Char) (s : List Char) : Option (Except Unterminated (Shape × Cut)) :=
  if layout c then (matchRun layout layout (c :: s)).map fun cut => .ok (.whitespace, cut)
  else if (c = '?' ∧ s.head? = some '>') ∨ (c = '/' ∧ s.head? = some '*') then
    some (readCode c s)
  else if (c = '/' ∧ s.head? = some '/') ∨ (c = '#' ∧ s.head? ≠ some '[') then
    (matchLineComment (c :: s)).map fun cut => .ok (.lineComment, cut)
  else if isQuote c ∨ (readOpener (c :: s)).isSome ∨ c = '{' ∨ c = '}' ∨ c = '$' ∨ labelStart c then
    some (readCode c s)
  else if digitTest c then
    (matchRun Text.decimalDigit numberChar (c :: s)).map fun cut => .ok (.number, cut)
  else some (.ok (.symbol, readSymbol c s))

theorem in_ranges_ascii (ranges : List Text.Range) (c : Char) (ascii : c.toNat < 0x80)
    (above : ∀ r ∈ ranges, 0x80 ≤ r.1) : Text.inRanges ranges c = false := by
  rw [Bool.eq_false_iff]
  intro found
  obtain ⟨r, member, low, -⟩ := (Text.inRanges_iff ranges c).mp found
  have bound := above r member
  omega

theorem label_start_ascii (c : Char) (other : ¬ labelStart c = true) : c.toNat < 0x80 := by
  simp only [labelStart, Bool.or_eq_true, decide_eq_true_eq, not_or, Nat.not_le] at other
  exact other.2

-- Every digit beyond ASCII begins a label, and labels are tried first.
theorem decimal_digit_ascii (c : Char) (ascii : c.toNat < 0x80) :
    Text.decimalDigit c = c.isDigit := by
  rw [Text.decimalDigit, in_ranges_ascii Text.digitRanges c ascii (by decide), Bool.or_false]

theorem digit_test_ascii (c : Char) (ascii : c.toNat < 0x80) : digitTest c = c.isDigit := by
  rw [digitTest, decimal_digit_ascii c ascii,
    in_ranges_ascii dressedDigitRanges c ascii (by decide), Bool.or_false]

theorem match_line_comment (c : Char) (s : List Char)
    (opens : (c = '/' ∧ s.head? = some '/') ∨ (c = '#' ∧ s.head? ≠ some '[')) :
    matchLineComment (c :: s) = some ((toLineEnd s).cons c) := by
  rcases opens with ⟨rfl, slash⟩ | ⟨rfl, -⟩
  · rw [head?_eq_some slash]
    simp [matchLineComment, toLineEnd]
  · rfl

theorem read_code_checked (c : Char) (s : List Char) :
    readCodeChecked c s = some (readCode c s) := by
  unfold readCodeChecked
  split
  · rename_i blank
    simp [matchRun, readCode, blank]
  rename_i notLayout
  split
  · rfl
  rename_i notClosing
  rw [not_or] at notClosing
  split
  · rename_i comment
    rw [match_line_comment c s comment, readCode, if_neg notLayout, if_neg notClosing.1,
      if_neg notClosing.2, if_pos comment]
    rfl
  rename_i notComment
  split
  · rfl
  rename_i plain
  simp only [not_or] at plain
  obtain ⟨notQuote, noOpener, notOpen, notClose, notVariable, notLabel⟩ := plain
  have ascii := label_start_ascii c notLabel
  have opener : readOpener (c :: s) = none := by simpa using noOpener
  have read : readCode c s = .ok (readPlain c s) := by
    rw [readCode, if_neg notLayout, if_neg notClosing.1, if_neg notClosing.2, if_neg notComment,
      if_neg notQuote, opener]
  rw [read, digit_test_ascii c ascii]
  unfold readPlain
  rw [if_neg notOpen, if_neg notClose, if_neg notVariable, if_neg notLabel]
  by_cases digit : c.isDigit = true
  · simp [matchRun, decimal_digit_ascii c ascii, digit]
  · simp [digit]

end DocAudit.Php
