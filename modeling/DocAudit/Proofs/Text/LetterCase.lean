import DocAudit.Text.LowerCase
import DocAudit.Text.WordChar

/-!
Texts that are equal but for the case of ASCII letters. A class of characters that holds both cases
of each letter, or neither, does not tell such texts apart, and no more does lowering them.
-/

set_option autoImplicit false

namespace DocAudit.Text

def SameLetters (s v : List Char) : Prop := s.map lowerAscii = v.map lowerAscii

instance (s v : List Char) : Decidable (SameLetters s v) :=
  inferInstanceAs (Decidable (s.map lowerAscii = v.map lowerAscii))

-- A class that does not see the case of ASCII letters.
def Caseless (p : Char → Bool) : Prop := ∀ c, p (lowerAscii c) = p c

/-! ### Characters -/

theorem upper_to_nat (c : Char) (upper : c.isUpper = true) : 65 ≤ c.toNat ∧ c.toNat ≤ 90 := by
  obtain ⟨low, high⟩ := of_decide_eq_true upper
  exact ⟨UInt32.le_iff_toNat_le.mp low, UInt32.le_iff_toNat_le.mp high⟩

theorem lower_to_nat (c : Char) (lower : c.isLower = true) : 97 ≤ c.toNat ∧ c.toNat ≤ 122 := by
  obtain ⟨low, high⟩ := (Bool.and_eq_true _ _).mp lower
  exact ⟨UInt32.le_iff_toNat_le.mp (of_decide_eq_true low), UInt32.le_iff_toNat_le.mp (of_decide_eq_true high)⟩

-- Only the letters have to be looked at, one by one.
theorem caseless_of_letters (p : Char → Bool)
    (letters : ∀ n < 26, p (Char.ofNat (n + 65 + 32)) = p (Char.ofNat (n + 65))) : Caseless p := by
  intro c
  by_cases upper : c.isUpper = true
  · have bounds := upper_to_nat c upper
    have here := letters (c.toNat - 65) (by omega)
    rw [Nat.sub_add_cancel bounds.1, Char.ofNat_toNat] at here
    rwa [lowerAscii, if_pos upper]
  · rw [lowerAscii, if_neg upper]

theorem caseless_same (p : Char → Bool) (caseless : Caseless p) (c d : Char)
    (same : lowerAscii c = lowerAscii d) : p c = p d := by
  rw [← caseless c, ← caseless d, same]

theorem letter_caseless : Caseless Char.isAlpha := caseless_of_letters _ (by decide)

theorem letter_to_nat (c : Char) (letter : c.isAlpha = true) :
    (65 ≤ c.toNat ∧ c.toNat ≤ 90) ∨ (97 ≤ c.toNat ∧ c.toNat ≤ 122) :=
  ((Bool.or_eq_true _ _).mp letter).imp (upper_to_nat c) (lower_to_nat c)

theorem lower_ascii_plain (c : Char) (plain : c.isAlpha = false) : lowerAscii c = c := by
  have small : c.isUpper = false := (Bool.or_eq_false_iff.mp plain).1
  rw [lowerAscii, if_neg (Bool.eq_false_iff.mp small)]

-- What is no letter has one case.
theorem same_letter_plain (c d : Char) (plain : c.isAlpha = false) (same : lowerAscii c = lowerAscii d) : d = c := by
  have also : d.isAlpha = false := caseless_same _ letter_caseless c d same ▸ plain
  rw [lower_ascii_plain c plain, lower_ascii_plain d also] at same
  exact same.symm

theorem same_letter_mark (mark c d : Char) (plain : mark.isAlpha = false) (same : lowerAscii c = lowerAscii d) :
    d = mark ↔ c = mark := by
  constructor
  · rintro rfl
    exact same_letter_plain d c plain same.symm
  · rintro rfl
    exact same_letter_plain c d plain same

-- Ranges that hold no letter.
theorem in_ranges_caseless (ranges : List Range)
    (apart : ∀ r ∈ ranges, r.2 < 65 ∨ (90 < r.1 ∧ r.2 < 97) ∨ 122 < r.1) : Caseless (inRanges ranges) := by
  have outside : ∀ c : Char, c.isAlpha = true → inRanges ranges c = false := by
    intro c letter
    rw [Bool.eq_false_iff]
    intro found
    obtain ⟨r, member, low, high⟩ := (inRanges_iff ranges c).mp found
    have bounds := letter_to_nat c letter
    have between := apart r member
    omega
  intro c
  by_cases letter : c.isAlpha = true
  · rw [outside c letter, outside (lowerAscii c) ((letter_caseless c).trans letter)]
  · rw [lower_ascii_plain c (Bool.eq_false_iff.mpr letter)]

/-! ### Texts -/

theorem same_letters_nil (v : List Char) (same : SameLetters [] v) : v = [] := List.map_eq_nil_iff.mp same.symm

theorem same_letters_cons (c d : Char) (s v : List Char) :
    SameLetters (c :: s) (d :: v) ↔ lowerAscii c = lowerAscii d ∧ SameLetters s v := by
  rw [SameLetters, List.map_cons, List.map_cons, List.cons.injEq]
  rfl

theorem same_letters_first (c : Char) (s v : List Char) (same : SameLetters (c :: s) v) :
    ∃ d w, v = d :: w ∧ lowerAscii c = lowerAscii d ∧ SameLetters s w := by
  obtain ⟨d, w, rfl, first, rest⟩ := List.map_eq_cons_iff.mp same.symm
  exact ⟨d, w, rfl, first.symm, rest.symm⟩

theorem same_letters_append (a b s v : List Char) (front : SameLetters a s) (back : SameLetters b v) :
    SameLetters (a ++ b) (s ++ v) := by
  rw [SameLetters, List.map_append, List.map_append, front, back]

theorem same_letters_split (a b v : List Char) (same : SameLetters (a ++ b) v) :
    ∃ front back, v = front ++ back ∧ SameLetters a front ∧ SameLetters b back := by
  rw [SameLetters, List.map_append] at same
  obtain ⟨front, back, whole, first, second⟩ := List.map_eq_append_iff.mp same.symm
  exact ⟨front, back, whole, first.symm, second.symm⟩

theorem same_letters_plain (s v : List Char) (plain : s.any Char.isAlpha = false) (same : SameLetters s v) : v = s := by
  induction s generalizing v with
  | nil => exact same_letters_nil v same
  | cons c s ih =>
      obtain ⟨d, v, rfl, first, rest⟩ := same_letters_first c s v same
      rw [List.any_cons, Bool.or_eq_false_iff] at plain
      rw [same_letter_plain c d plain.1 first, ih v plain.2 rest]

theorem same_letters_mark (mark s v : List Char) (plain : mark.any Char.isAlpha = false) (same : SameLetters s v) :
    v = mark ↔ s = mark := by
  constructor
  · rintro rfl
    exact same_letters_plain v s plain same.symm
  · rintro rfl
    exact same_letters_plain s v plain same

theorem same_letters_head (mark : Char) (s v : List Char) (plain : mark.isAlpha = false) (same : SameLetters s v) :
    v.head? = some mark ↔ s.head? = some mark := by
  cases s with
  | nil => rw [same_letters_nil v same]
  | cons c s =>
      obtain ⟨d, v, rfl, first, -⟩ := same_letters_first c s v same
      simpa using same_letter_mark mark c d plain first

-- What is the same of a text and of the lowered text.
theorem same_letters_seen {α : Type} (f : List Char → α) (lowered : ∀ s, f (s.map lowerAscii) = f s)
    (s v : List Char) (same : SameLetters s v) : f s = f v := by
  rw [← lowered s, ← lowered v, same]

section

variable (p : Char → Bool) (caseless : Caseless p) (s v : List Char) (same : SameLetters s v)

include caseless same

theorem same_letters_all : s.all p = v.all p := by
  apply same_letters_seen (List.all · p) _ s v same
  intro text
  rw [List.all_map]
  exact congrArg text.all (funext caseless)

theorem same_letters_any_head : s.head?.any p = v.head?.any p := by
  apply same_letters_seen (Option.any p ·.head?) _ s v same
  intro text
  rw [List.head?_map, Option.any_map]
  exact congrArg (Option.any · text.head?) (funext caseless)

theorem same_letters_head_class (b : Bool) (here : ∀ c ∈ s.head?, p c = b) : ∀ c ∈ v.head?, p c = b := by
  cases s with
  | nil =>
      rw [same_letters_nil v same]
      exact here
  | cons c s =>
      obtain ⟨d, v, rfl, first, -⟩ := same_letters_first c s v same
      intro e head
      obtain rfl : d = e := Option.some.inj head
      rw [← caseless_same p caseless c d first]
      exact here c rfl

theorem same_letters_count : s.countP p = v.countP p := by
  apply same_letters_seen (List.countP p) _ s v same
  intro text
  rw [List.countP_map]
  exact congrArg (List.countP · text) (funext caseless)

theorem same_letters_drop : SameLetters (s.dropWhile p) (v.dropWhile p) := by
  have lowered : ∀ text : List Char, (text.dropWhile p).map lowerAscii = (text.map lowerAscii).dropWhile p := by
    intro text
    rw [List.dropWhile_map]
    exact congrArg (fun q => (text.dropWhile q).map lowerAscii) (funext caseless).symm
  rw [SameLetters, lowered, lowered, same]

end

/-! ### Lower case -/

theorem cased_caseless : Caseless cased := caseless_of_letters _ (by decide)

theorem case_ignorable_caseless : Caseless caseIgnorable := in_ranges_caseless _ (by decide +kernel)

theorem leads_cased_same (s v : List Char) (same : SameLetters s v) : leadsCased s = leadsCased v := by
  have drop := same_letters_drop caseIgnorable case_ignorable_caseless s v same
  have heads : ∀ text, leadsCased text = (text.dropWhile caseIgnorable).head?.any cased := by
    intro text
    rw [leadsCased]
    cases text.dropWhile caseIgnorable <;> rfl
  rw [heads, heads, same_letters_any_head cased cased_caseless _ _ drop]

theorem lower_char_same (c d : Char) (same : lowerAscii c = lowerAscii d) : lowerChar c = lowerChar d := by
  by_cases letter : c.isAlpha = true
  · have also : d.isAlpha = true := caseless_same _ letter_caseless c d same ▸ letter
    have first := letter_to_nat c letter
    have second := letter_to_nat d also
    rw [lowerChar, lowerChar, if_pos (by omega), if_pos (by omega), same]
  · rw [same_letter_plain c d (Bool.eq_false_iff.mpr letter) same]

-- A sigma looks at the letters around it, but not at their case.
theorem lower_after_same (before earlier s v : List Char) (back : SameLetters before earlier)
    (same : SameLetters s v) : lowerAfter before s = lowerAfter earlier v := by
  induction s generalizing before earlier v with
  | nil =>
      rw [same_letters_nil v same]
      rfl
  | cons c s ih =>
      obtain ⟨d, v, rfl, first, rest⟩ := same_letters_first c s v same
      have sigma := same_letter_mark capitalSigma c d (by decide) first
      have further := ih (c :: before) (d :: earlier) v ((same_letters_cons c d before earlier).mpr ⟨first, back⟩) rest
      rw [lowerAfter, lowerAfter, further, lower_char_same c d first, leads_cased_same before earlier back,
        leads_cased_same s v rest]
      simp only [sigma]

theorem lower_same_letters (s v : String) (same : SameLetters s.toList v.toList) : lower s = lower v := by
  rw [lower, lower, lowerChars, lowerChars, lower_after_same [] [] _ _ rfl same]

end DocAudit.Text
