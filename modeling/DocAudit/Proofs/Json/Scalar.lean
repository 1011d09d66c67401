import DocAudit.Json.Reader
import DocAudit.Json.Writer

/-!
Strings and numerals read back. Escapes name no halves of pairs, and a numeral ends where nothing
behind it goes on with it.
-/

set_option autoImplicit false

namespace DocAudit.Json

open Number

/-! ### Strings -/

theorem char_not_half (c : Char) : Text.isHalf c.toNat = false := by
  have valid := c.valid
  simp only [Text.isHalf, Text.isHighUnit, Text.isLowUnit, Bool.or_eq_false_iff, Bool.and_eq_false_iff,
    decide_eq_false_iff_not]
  have value : c.toNat.isValidChar := valid
  simp only [Nat.isValidChar] at value
  omega

theorem join_pairs_whole (units : List Nat) (whole : ∀ unit ∈ units, Text.isHalf unit = false) :
    Text.joinPairs units = units := by
  fun_induction Text.joinPairs units with
  | case1 => rfl
  | case2 unit => rfl
  | case3 high low units pair ih =>
      have first := whole high List.mem_cons_self
      simp only [Text.isHalf, Bool.or_eq_false_iff] at first
      simp [first.1] at pair
  | case4 high low units pair ih => rw [ih (fun unit member => whole unit (List.mem_cons_of_mem high member))]

theorem halves_text (halves : Text.Halves) (s : List Char) : halves.text (s.map Char.toNat) = s := by
  have same : ∀ c : Char, halves.char c.toNat = c := by
    intro c
    rw [Text.Halves.char, char_not_half, if_neg (by simp), Char.ofNat_toNat]
  rw [Text.Halves.text, List.map_map]
  exact List.map_id'' same s

theorem control_digits : ∀ n, n < 0x20 →
    Text.hexDigits 4 n = ['0', '0', Text.hexDigit (n / 16), Text.hexDigit (n % 16)] ∧
      unitValue? '0' '0' (Text.hexDigit (n / 16)) (Text.hexDigit (n % 16)) = some n := by
  decide

-- How a character is written in a string: as it is, by a letter, or by its number.
inductive Escape (c : Char) : List Char → Prop
  | plain (quote : c ≠ '"') (escape : c ≠ '\\') (visible : ¬ c.toNat < 0x20) : Escape c [c]
  | pair (e : Char) (other : e ≠ 'u') (known : escaped? e = some c) : Escape c ['\\', e]
  | control (control : c.toNat < 0x20) : Escape c ('\\' :: 'u' :: Text.hexDigits 4 c.toNat)

theorem escape_cases (c : Char) : Escape c (escapeChar c) := by
  have code : ∀ n, c.toNat = n → c = Char.ofNat n := by
    rintro n rfl
    rw [Char.ofNat_toNat]
  rw [escapeChar]
  split
  · rename_i same
    exact .pair '"' (by decide) (by rw [same]; rfl)
  split
  · rename_i same
    exact .pair '\\' (by decide) (by rw [same]; rfl)
  split
  · rename_i same
    exact .pair 'n' (by decide) (same ▸ rfl)
  split
  · rename_i same
    exact .pair 'r' (by decide) (same ▸ rfl)
  split
  · rename_i same
    exact .pair 't' (by decide) (same ▸ rfl)
  split
  · rename_i same
    exact .pair 'b' (by decide) (code 8 same ▸ rfl)
  split
  · rename_i same
    exact .pair 'f' (by decide) (code 12 same ▸ rfl)
  split
  · rename_i control
    exact .control control
  · rename_i quote escape _ _ _ _ _ visible
    exact .plain quote escape visible

section

variable (start : List Char)

theorem read_units_plain (c : Char) (s : List Char) (quote : c ≠ '"') (escape : c ≠ '\\')
    (visible : ¬ c.toNat < 0x20) : readUnits start (c :: s) = consUnit c.toNat (readUnits start s) := by
  rw [readUnits, if_neg visible]
  · exact quote
  all_goals simp [escape]

theorem read_units_pair (e c : Char) (s : List Char) (other : e ≠ 'u') (known : escaped? e = some c) :
    readUnits start ('\\' :: e :: s) = consUnit c.toNat (readUnits start s) := by
  rw [readUnits, known]
  all_goals simp [other]

theorem read_units_control (n : Nat) (s : List Char) (control : n < 0x20) (filled : s ≠ []) :
    readUnits start ('\\' :: 'u' :: (Text.hexDigits 4 n ++ s)) = consUnit n (readUnits start s) := by
  obtain ⟨digits, value⟩ := control_digits n control
  obtain ⟨e, rest, rfl⟩ := List.exists_cons_of_ne_nil filled
  rw [digits]
  simp only [List.cons_append, List.nil_append, readUnits, value]

-- The digits of an escape are read only where something follows them.
theorem read_units_escape (c : Char) (s : List Char) (filled : s ≠ []) :
    readUnits start (escapeChar c ++ s) = consUnit c.toNat (readUnits start s) := by
  have written := escape_cases c
  generalize escapeChar c = text at written ⊢
  cases written with
  | plain quote escape visible => exact read_units_plain start c s quote escape visible
  | pair e other known => exact read_units_pair start e c s other known
  | control control => exact read_units_control start c.toNat s control filled

theorem read_units_string (s rest : List Char) :
    readUnits start (s.flatMap escapeChar ++ '"' :: rest) = .ok (s.map Char.toNat, rest) := by
  induction s with
  | nil => simp [readUnits]
  | cons c s ih =>
      rw [List.flatMap_cons, List.append_assoc, read_units_escape start c _ (by simp), ih]
      rfl

end

theorem read_string (d : Dialect) (s : String) (rest : List Char) :
    readString d (s.toList.flatMap escapeChar ++ '"' :: rest) = .ok (s, rest) := by
  have whole : Text.joinPairs (s.toList.map Char.toNat) = s.toList.map Char.toNat := by
    apply join_pairs_whole
    rw [List.forall_mem_map]
    exact fun c _ => char_not_half c
  rw [readString, read_units_string]
  simp only [Except.map, whole, halves_text, String.ofList_toList]

/-! ### Numerals -/

theorem nat_digits_digit (n : Nat) : ∀ c ∈ natDigits n, c.isDigit = true := by
  have digit : ∀ d, d < 10 → (digitChar d).isDigit = true := by decide
  fun_induction natDigits n with
  | case1 n small => simpa using digit n small
  | case2 n large ih =>
      rw [List.forall_mem_append, List.forall_mem_singleton]
      exact ⟨ih, digit (n % 10) (by omega)⟩

theorem nat_digits_first (n : Nat) (positive : n ≠ 0) : ∃ c s, natDigits n = c :: s ∧ c ≠ '0' := by
  have other : ∀ d, d < 10 → d ≠ 0 → digitChar d ≠ '0' := by decide
  fun_induction natDigits n with
  | case1 n small => exact ⟨digitChar n, [], rfl, other n small positive⟩
  | case2 n large ih =>
      obtain ⟨c, s, digits, first⟩ := ih (by omega)
      exact ⟨c, s ++ [digitChar (n % 10)], by rw [digits, List.cons_append], first⟩

-- What stands behind a number goes on with it in no way.
def Delimited (rest : List Char) : Prop :=
  ∀ c ∈ rest.head?, c.isDigit = false ∧ c ≠ '.' ∧ c ≠ 'e' ∧ c ≠ 'E'

section

variable (rest : List Char) (delimited : Delimited rest)

include delimited

theorem delimited_digits : rest.takeWhile Char.isDigit = [] ∧ rest.dropWhile Char.isDigit = rest := by
  cases rest with
  | nil => exact ⟨rfl, rfl⟩
  | cons c rest =>
      have other := (delimited c rfl).1
      simp [other]

theorem delimited_fraction : readFraction rest = none := by
  cases rest with
  | nil => rfl
  | cons c rest =>
      have other := (delimited c rfl).2.1
      rw [readFraction]
      rintro s ⟨⟩
      exact other rfl

theorem delimited_exponent : readExponent rest = none := by
  cases rest with
  | nil => rfl
  | cons c rest =>
      obtain ⟨-, -, small, capital⟩ := delimited c rfl
      rw [readExponent, if_neg (by simp [small, capital])]

theorem read_whole (n : Nat) : readWhole (natDigits n ++ rest) = some (natDigits n, rest) := by
  by_cases zero : n = 0
  · subst zero
    simp [natDigits, readWhole, digitChar]
  · obtain ⟨c, s, digits, first⟩ := nat_digits_first n zero
    have all := nat_digits_digit n
    have stop := delimited_digits rest delimited
    have read : readDigits (natDigits n ++ rest) = some (natDigits n, rest) := by
      rw [readDigits, List.takeWhile_append_of_pos all, List.dropWhile_append_of_pos all, stop.1, stop.2,
        List.append_nil, digits]
    rw [← read, digits, List.cons_append, readWhole]
    rintro s ⟨⟩
    exact first rfl

theorem read_unsigned (d : Dialect) (negative : Bool) (n : Nat) (short : d.admitsDigits (natDigits n).length = true) :
    readUnsigned d negative (natDigits n ++ rest) = .ok (.int (signed negative n), rest) := by
  rw [readUnsigned, read_whole rest delimited n]
  simp only [delimited_fraction rest delimited, delimited_exponent rest delimited, short, natValue_natDigits, if_true]

end

theorem nat_digits_cons (n : Nat) : ∃ c s, natDigits n = c :: s ∧ ∀ e, e.isDigit = false → e ≠ c := by
  have filled : natDigits n ≠ [] := by
    rw [natDigits]
    split <;> simp
  obtain ⟨c, s, digits⟩ := List.exists_cons_of_ne_nil filled
  have digit := nat_digits_digit n c (digits ▸ List.mem_cons_self)
  refine ⟨c, s, digits, ?_⟩
  rintro e other rfl
  exact absurd digit (by simp [other])

section

variable (d : Dialect) (n : Int) (rest : List Char)

theorem numeral_unnamed : names.find? (·.1.isPrefixOf (intDigits n ++ rest)) = none := by
  cases n with
  | ofNat n =>
      obtain ⟨c, s, digits, other⟩ := nat_digits_cons n
      simp [intDigits, digits, names, other]
  | negSucc n =>
      obtain ⟨c, s, digits, other⟩ := nat_digits_cons (n + 1)
      simp [intDigits, digits, names, other]

variable (short : d.admitsDigits (natDigits n.natAbs).length = true) (delimited : Delimited rest)

include short delimited

theorem read_number : readNumber d (intDigits n ++ rest) = .ok (.int n, rest) := by
  cases n with
  | ofNat n =>
      obtain ⟨c, s, digits, other⟩ := nat_digits_cons n
      rw [intDigits, readNumber, read_unsigned rest delimited d false n short]
      · rfl
      · rw [digits]
        rintro t ⟨⟩
        exact other '-' rfl rfl
  | negSucc n =>
      rw [intDigits, List.cons_append, readNumber, read_whole rest delimited, Option.isSome_some, if_pos rfl,
        read_unsigned rest delimited d true (n + 1) short]
      rfl

end

theorem int_digits_cons (n : Int) :
    ∃ c s, intDigits n = c :: s ∧ ∀ e, e.isDigit = false → e ≠ '-' → e ≠ c := by
  cases n with
  | ofNat n =>
      obtain ⟨c, s, digits, other⟩ := nat_digits_cons n
      exact ⟨c, s, digits, fun e digit _ => other e digit⟩
  | negSucc n => exact ⟨'-', natDigits (n + 1), rfl, fun e _ minus => minus⟩

theorem int_digits_other (n : Int) (c : Char) (digit : c.isDigit = false) (minus : c ≠ '-') : c ∉ intDigits n := by
  have other : ∀ n, c ∉ natDigits n := by
    intro n member
    rw [nat_digits_digit n c member] at digit
    cases digit
  cases n with
  | ofNat n => exact other n
  | negSucc n =>
      rw [intDigits, List.mem_cons, not_or]
      exact ⟨minus, other (n + 1)⟩

end DocAudit.Json
