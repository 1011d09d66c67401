import DocAudit.Proofs.Json.Reading

/-!
Texts that name no half of a pair. What is written names none: only control characters are written by
their numbers.
-/

set_option autoImplicit false

namespace DocAudit.Json

open Number

def Whole (text : List Char) : Prop := ∀ unit ∈ denotedUnits text, Text.isHalf unit = false

theorem whole_nil : Whole [] := by
  rintro unit ⟨⟩

theorem whole_cons (c : Char) (s : List Char) (plain : c ≠ '\\') (whole : Whole s) : Whole (c :: s) := by
  have units : denotedUnits (c :: s) = c.toNat :: denotedUnits s := by
    rw [denotedUnits]
    all_goals simp [plain]
  rw [Whole, units, List.forall_mem_cons]
  exact ⟨char_not_half c, whole⟩

theorem whole_append (front s : List Char) (plain : '\\' ∉ front) (whole : Whole s) : Whole (front ++ s) := by
  induction front with
  | nil => exact whole
  | cons c front ih =>
      rw [List.mem_cons, not_or] at plain
      exact whole_cons c _ (Ne.symm plain.1) (ih plain.2)

theorem whole_pair (e : Char) (s : List Char) (other : e ≠ 'u') (whole : Whole s) : Whole ('\\' :: e :: s) := by
  have units : denotedUnits ('\\' :: e :: s) = e.toNat :: denotedUnits s := by
    rw [denotedUnits]
    all_goals simp [other]
  rw [Whole, units, List.forall_mem_cons]
  exact ⟨char_not_half e, whole⟩

theorem whole_control (n : Nat) (s : List Char) (control : n < 0x20) (whole : Whole s) :
    Whole ('\\' :: 'u' :: (Text.hexDigits 4 n ++ s)) := by
  obtain ⟨digits, value⟩ := control_digits n control
  have units : denotedUnits ('\\' :: 'u' :: (Text.hexDigits 4 n ++ s)) = n :: denotedUnits s := by
    rw [digits]
    simp [denotedUnits, value]
  have small : Text.isHalf n = false := by
    simp [Text.isHalf, Text.isHighUnit, Text.isLowUnit]
    omega
  rw [Whole, units, List.forall_mem_cons]
  exact ⟨small, whole⟩

theorem whole_escape (c : Char) (s : List Char) (whole : Whole s) : Whole (escapeChar c ++ s) := by
  have written := escape_cases c
  generalize escapeChar c = text at written ⊢
  cases written with
  | plain quote escape visible => exact whole_cons c s escape whole
  | pair e other known => exact whole_pair e s other whole
  | control control => exact whole_control c.toNat s control whole

theorem whole_string (value : String) (rest : List Char) (whole : Whole rest) : Whole (writeString value rest) := by
  refine whole_cons '"' _ (by decide) ?_
  induction value.toList with
  | nil => exact whole_cons '"' rest (by decide) whole
  | cons c s ih =>
      rw [List.flatMap_cons, List.append_assoc]
      exact whole_escape c _ ih

/-! ### Values -/

section

variable (l : Layout)

theorem blanks_plain (gap : List Char) (blanks : ∀ c ∈ gap, blank c = true) : '\\' ∉ gap := by
  intro member
  exact absurd (blanks _ member) (by decide)

theorem whole_margin (level : Nat) (s : List Char) (whole : Whole s) : Whole (l.margin level ++ s) :=
  whole_append _ s (blanks_plain _ (margin_blank l level)) whole

theorem whole_separator (level : Nat) (s : List Char) (whole : Whole s) : Whole (l.separator level ++ s) := by
  obtain ⟨gap, comma, blanks⟩ := separator_comma l level
  rw [comma]
  exact whole_cons ',' _ (by decide) (whole_append gap s (blanks_plain gap blanks) whole)

theorem whole_colon (s : List Char) (whole : Whole s) : Whole (l.colon ++ s) := by
  obtain ⟨gap, colon, blanks⟩ := colon_gap l
  rw [colon]
  exact whole_cons ':' _ (by decide) (whole_append gap s (blanks_plain gap blanks) whole)

theorem whole_items (level : Nat) (items : List Json)
    (each : ∀ j ∈ items, ∀ rest, Whole rest → Whole (write l level j rest)) (rest : List Char) (whole : Whole rest) :
    Whole (writeItems l level items rest) := by
  induction items with
  | nil => exact whole
  | cons j items ih =>
      rw [List.forall_mem_cons] at each
      exact whole_separator l level _ (each.1 _ (ih each.2))

theorem whole_field (level : Nat) (field : String × Json) (rest : List Char)
    (value : Whole (write l level field.2 rest)) : Whole (writeField l level field rest) :=
  whole_string field.1 _ (whole_colon l _ value)

theorem whole_fields (level : Nat) (fields : List (String × Json))
    (each : ∀ field ∈ fields, ∀ rest, Whole rest → Whole (write l level field.2 rest)) (rest : List Char)
    (whole : Whole rest) : Whole (writeFields l level fields rest) := by
  induction fields with
  | nil => exact whole
  | cons field fields ih =>
      rw [List.forall_mem_cons] at each
      exact whole_separator l level _ (whole_field l level field _ (each.1 _ (ih each.2)))

theorem whole_write (d : Dialect) (depth level : Nat) (j : Json) (admitted : Admits d depth j) (rest : List Char)
    (whole : Whole rest) : Whole (write l level j rest) := by
  induction admitted generalizing level rest with
  | null => exact whole_append ['n', 'u', 'l', 'l'] rest (by decide) whole
  | bool depth value =>
      cases value with
      | true => exact whole_append ['t', 'r', 'u', 'e'] rest (by decide) whole
      | false => exact whole_append ['f', 'a', 'l', 's', 'e'] rest (by decide) whole
  | int depth value short => exact whole_append _ rest (int_digits_other value '\\' rfl (by decide)) whole
  | str depth value => exact whole_string value rest whole
  | arr depth items deep each ih =>
      cases items with
      | nil => exact whole_append ['[', ']'] rest (by decide) whole
      | cons j items =>
          rw [List.forall_mem_cons] at ih
          have close := whole_margin l level _ (whole_cons ']' rest (by decide) whole)
          have others := whole_items l (level + 1) items (fun k member => ih.2 k member (level + 1)) _ close
          exact whole_cons '[' _ (by decide) (whole_margin l (level + 1) _ (ih.1 (level + 1) _ others))
  | obj depth fields deep once each ih =>
      cases fields with
      | nil => exact whole_append ['{', '}'] rest (by decide) whole
      | cons field fields =>
          rw [List.forall_mem_cons] at ih
          have close := whole_margin l level _ (whole_cons '}' rest (by decide) whole)
          have others := whole_fields l (level + 1) fields (fun k member => ih.2 k member (level + 1)) _ close
          have first := whole_field l (level + 1) field _ (ih.1 (level + 1) _ others)
          rw [write_obj]
          exact whole_cons '{' _ (by decide) (whole_margin l (level + 1) _ first)

end

end DocAudit.Json
