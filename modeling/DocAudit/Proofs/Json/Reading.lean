import DocAudit.Proofs.Json.Equality
import DocAudit.Proofs.Json.Scalar

/-!
What a reader makes of a text that was written. Every value within the limits of the reader is
read back from its text, in every layout, and what stands behind it is left.
-/

set_option autoImplicit false

namespace DocAudit.Json

open Number

/-! ### Blanks -/

theorem skip_blanks (gap s : List Char) (blanks : ∀ c ∈ gap, blank c = true) (first : ∀ c ∈ s.head?, blank c = false) :
    skipBlanks (gap ++ s) = s := by
  rw [skipBlanks, List.dropWhile_append_of_pos blanks]
  cases s with
  | nil => rfl
  | cons c s => rw [List.dropWhile_cons_of_neg (by simp [first c rfl])]

section

variable (l : Layout) (level : Nat)

theorem margin_blank : ∀ c ∈ l.margin level, blank c = true := by
  cases l with
  | block width =>
      simp +contextual [Layout.margin, blank]
  | _ => simp [Layout.margin]

theorem separator_comma : ∃ gap, l.separator level = ',' :: gap ∧ ∀ c ∈ gap, blank c = true := by
  cases l with
  | compact => exact ⟨[], rfl, by simp⟩
  | line => exact ⟨[' '], rfl, List.forall_mem_singleton.mpr rfl⟩
  | block width => exact ⟨_, rfl, margin_blank _ level⟩

theorem colon_gap : ∃ gap, l.colon = ':' :: gap ∧ ∀ c ∈ gap, blank c = true := by
  cases l with
  | compact => exact ⟨[], rfl, by simp⟩
  | _ => exact ⟨[' '], rfl, List.forall_mem_singleton.mpr rfl⟩

end

/-! ### Written texts -/

section

variable (l : Layout) (more : List Char)

theorem write_items_append (level : Nat) (items : List Json)
    (each : ∀ j ∈ items, ∀ rest, write l level j (rest ++ more) = write l level j rest ++ more) (rest : List Char) :
    writeItems l level items (rest ++ more) = writeItems l level items rest ++ more := by
  induction items with
  | nil => rfl
  | cons j items ih =>
      rw [List.forall_mem_cons] at each
      rw [writeItems, writeItems, ih each.2, each.1, List.append_assoc]

theorem write_fields_append (level : Nat) (fields : List (String × Json))
    (each : ∀ field ∈ fields, ∀ rest, write l level field.2 (rest ++ more) = write l level field.2 rest ++ more)
    (rest : List Char) : writeFields l level fields (rest ++ more) = writeFields l level fields rest ++ more := by
  induction fields with
  | nil => rfl
  | cons field fields ih =>
      rw [List.forall_mem_cons] at each
      simp only [writeFields, writeString, ih each.2, each.1, List.append_assoc, List.cons_append]

theorem write_append (level : Nat) (j : Json) (rest : List Char) :
    write l level j (rest ++ more) = write l level j rest ++ more := by
  induction j generalizing level rest with
  | null => rfl
  | bool value => cases value <;> rfl
  | int value => simp [write]
  | float value => simp [write]
  | str value => simp [write, writeString]
  | arr items ih =>
      cases items with
      | nil => rfl
      | cons j items =>
          rw [List.forall_mem_cons] at ih
          have items := write_items_append l more (level + 1) items (fun k member => ih.2 k member (level + 1))
          simp only [write, List.append_assoc, List.cons_append, ← items, ← ih.1]
  | obj fields ih =>
      cases fields with
      | nil => rfl
      | cons field fields =>
          rw [List.forall_mem_cons] at ih
          have fields := write_fields_append l more (level + 1) fields (fun k member => ih.2 k member (level + 1))
          simp only [write, writeString, List.append_assoc, List.cons_append, ← fields, ← ih.1]

theorem write_length (level : Nat) (j : Json) : more.length ≤ (write l level j more).length := by
  have split := write_append l more level j []
  rw [List.nil_append] at split
  rw [split, List.length_append]
  omega

end

/-! ### Values -/

-- The values that a reader gives back: within its limits, without floats, with each name once.
inductive Admits (d : Dialect) : Nat → Json → Prop
  | null (depth : Nat) : Admits d depth .null
  | bool (depth : Nat) (value : Bool) : Admits d depth (.bool value)
  | int (depth : Nat) (value : Int) (short : d.admitsDigits (natDigits value.natAbs).length = true) :
      Admits d depth (.int value)
  | str (depth : Nat) (value : String) : Admits d depth (.str value)
  | arr (depth : Nat) (items : List Json) (deep : d.admitsDepth (depth + 1) = true)
      (each : ∀ j ∈ items, Admits d (depth + 1) j) : Admits d depth (.arr items)
  | obj (depth : Nat) (fields : List (String × Json)) (deep : d.admitsDepth (depth + 1) = true)
      (once : (fields.map (·.1)).Nodup) (each : ∀ field ∈ fields, Admits d (depth + 1) field.2) :
      Admits d depth (.obj fields)

section

variable (d : Dialect) (l : Layout)

-- Two steps for each character are enough, as the next value always begins behind one.
def ReadBack (depth : Nat) (j : Json) : Prop :=
  ∀ level fuel rest, Delimited rest → 2 * (write l level j rest).length < fuel →
    readValue d fuel depth (write l level j rest) = .ok (j, rest)

theorem write_first (depth level : Nat) (j : Json) (rest : List Char) (admitted : Admits d depth j) :
    ∃ c s, write l level j rest = c :: s ∧ blank c = false ∧ c ≠ ']' := by
  cases admitted with
  | null => exact ⟨'n', _, rfl, by decide⟩
  | bool _ value => cases value <;> exact ⟨_, _, rfl, by decide⟩
  | int _ value short =>
      obtain ⟨c, s, digits, other⟩ := int_digits_cons value
      refine ⟨c, s ++ rest, by rw [write, digits, List.cons_append], ?_, ?_⟩
      · simp [blank, (other ' ' rfl (by decide)).symm, (other '\t' rfl (by decide)).symm,
          (other '\n' rfl (by decide)).symm, (other '\r' rfl (by decide)).symm]
      · exact (other ']' rfl (by decide)).symm
  | str _ value => exact ⟨'"', _, rfl, by decide⟩
  | arr _ items deep each => cases items <;> exact ⟨'[', _, rfl, by decide⟩
  | obj _ fields deep once each => cases fields <;> exact ⟨'{', _, rfl, by decide⟩

theorem write_visible (depth level : Nat) (j : Json) (rest : List Char) (admitted : Admits d depth j) :
    ∀ c ∈ (write l level j rest).head?, blank c = false := by
  obtain ⟨c, s, start, visible, -⟩ := write_first d l depth level j rest admitted
  rw [start]
  rintro c ⟨⟩
  exact visible

theorem scalar_read_back (depth : Nat) (j : Json)
    (read : ∀ level rest, Delimited rest → readScalar d (write l level j rest) = .ok (j, rest))
    (first : ∀ level rest c, c ∈ (write l level j rest).head? → c ≠ '[' ∧ c ≠ '{') : ReadBack d l depth j := by
  intro level fuel rest delimited enough
  cases fuel with
  | zero => omega
  | succ fuel =>
      rw [readValue, read level rest delimited]
      · rintro s opens
        exact (first level rest '[' (by rw [opens]; rfl)).1 rfl
      · rintro s opens
        exact (first level rest '{' (by rw [opens]; rfl)).2 rfl

theorem delimited_margin (level : Nat) (c : Char) (rest : List Char) (closes : c = ']' ∨ c = '}') :
    Delimited (l.margin level ++ c :: rest) := by
  have other : c.isDigit = false ∧ c ≠ '.' ∧ c ≠ 'e' ∧ c ≠ 'E' := by
    rcases closes with rfl | rfl <;> decide
  cases l with
  | block width =>
      rintro e ⟨⟩
      decide
  | _ =>
      rintro e ⟨⟩
      exact other

theorem delimited_separator (level : Nat) (rest : List Char) : Delimited (l.separator level ++ rest) := by
  obtain ⟨gap, comma, -⟩ := separator_comma l level
  rw [comma]
  rintro c ⟨⟩
  decide

theorem skip_margin (level : Nat) (s : List Char) (first : ∀ c ∈ s.head?, blank c = false) :
    skipBlanks (l.margin level ++ s) = s := skip_blanks _ s (margin_blank l level) first

section

variable (fuel depth : Nat) (s rest next : List Char) (j : Json)

theorem read_array (deep : d.admitsDepth (depth + 1) = true) (start : skipBlanks s = next)
    (filled : ∀ t, next ≠ ']' :: t) :
    readValue d (fuel + 1) depth ('[' :: s) =
      (readItems d fuel (depth + 1) next).map fun (items, rest) => (.arr items, rest) := by
  rw [readValue, if_pos deep, start]
  split
  · rename_i t
    exact absurd rfl (filled t)
  · rfl

theorem read_object (deep : d.admitsDepth (depth + 1) = true) (start : skipBlanks s = next)
    (filled : ∀ t, next ≠ '}' :: t) :
    readValue d (fuel + 1) depth ('{' :: s) =
      (readFields d fuel (depth + 1) [] next).map fun (fields, rest) => (.obj fields, rest) := by
  rw [readValue, if_pos deep, start]
  split
  · rename_i t
    exact absurd rfl (filled t)
  · rfl

theorem read_items_last (first : readValue d fuel depth s = .ok (j, rest)) (closed : skipBlanks rest = ']' :: next) :
    readItems d (fuel + 1) depth s = .ok ([j], next) := by
  rw [readItems, first]
  dsimp only
  rw [closed]
  rfl

theorem read_items_next (items : List Json) (after : List Char) (first : readValue d fuel depth s = .ok (j, rest))
    (comma : skipBlanks rest = ',' :: next)
    (others : readItems d fuel depth (skipBlanks next) = .ok (items, after)) :
    readItems d (fuel + 1) depth s = .ok (j :: items, after) := by
  rw [readItems, first]
  dsimp only
  rw [comma]
  simp only [others]
  rfl

variable (key : String) (before : List (String × Json)) (t : List Char)

theorem read_fields_last (named : readKey d s = .ok (key, t)) (first : readValue d fuel depth t = .ok (j, rest))
    (closed : skipBlanks rest = '}' :: next) :
    readFields d (fuel + 1) depth before s = .ok (setField key j before, next) := by
  rw [readFields, named]
  dsimp only
  rw [first]
  dsimp only
  rw [closed]
  rfl

theorem read_fields_next (named : readKey d s = .ok (key, t)) (first : readValue d fuel depth t = .ok (j, rest))
    (comma : skipBlanks rest = ',' :: next) :
    readFields d (fuel + 1) depth before s = readFields d fuel depth (setField key j before) (skipBlanks next) := by
  rw [readFields, named]
  dsimp only
  rw [first]
  dsimp only
  rw [comma]
  rfl

end

-- What stands behind a comma, past the blanks, has fewer characters than the text that the comma is in.
theorem behind_comma (level : Nat) (j : Json) (s : List Char) (visible : ∀ c ∈ s.head?, blank c = false) :
    ∃ next, skipBlanks (l.separator level ++ s) = ',' :: next ∧ skipBlanks next = s ∧
      s.length < (write l level j (l.separator level ++ s)).length := by
  obtain ⟨gap, comma, blanks⟩ := separator_comma l level
  have shorter := write_length l (l.separator level ++ s) level j
  refine ⟨gap ++ s, ?_, skip_blanks gap s blanks visible, ?_⟩
  · rw [comma]
    exact skip_blanks [] _ (by simp) (by rintro c ⟨⟩; decide)
  · refine Nat.lt_of_lt_of_le ?_ shorter
    rw [comma, List.cons_append, List.length_cons, List.length_append]
    omega

theorem read_items_back (depth level outer : Nat) (j : Json) (items : List Json) (rest : List Char) (fuel : Nat)
    (admitted : ∀ k ∈ j :: items, Admits d depth k) (back : ∀ k ∈ j :: items, ReadBack d l depth k)
    (enough : 2 * (write l level j (writeItems l level items (l.margin outer ++ ']' :: rest))).length < fuel) :
    readItems d (fuel + 1) depth (write l level j (writeItems l level items (l.margin outer ++ ']' :: rest))) =
      .ok (j :: items, rest) := by
  rw [List.forall_mem_cons] at back
  induction items generalizing j fuel with
  | nil =>
      have first := back.1 level fuel _ (delimited_margin l outer ']' rest (.inl rfl)) enough
      exact read_items_last d fuel depth _ _ rest j first (skip_margin l outer _ (by rintro c ⟨⟩; decide))
  | cons k items ih =>
      have first := back.1 level fuel _ (delimited_separator l level _) enough
      rw [List.forall_mem_cons] at admitted back
      obtain ⟨next, comma, start, shorter⟩ := behind_comma l level j
        (write l level k (writeItems l level items (l.margin outer ++ ']' :: rest)))
        (write_visible d l depth level k _ (admitted.2 k List.mem_cons_self))
      rw [writeItems] at enough
      refine read_items_next d fuel depth _ _ next j _ rest first comma ?_
      rw [start]
      cases fuel with
      | zero => omega
      | succ fuel => exact ih k fuel admitted.2 back.2 (by omega)

def writeField (level : Nat) (field : String × Json) (rest : List Char) : List Char :=
  writeString field.1 (l.colon ++ write l level field.2 rest)

theorem write_fields_cons (level : Nat) (field : String × Json) (fields : List (String × Json)) (rest : List Char) :
    writeFields l level (field :: fields) rest =
      l.separator level ++ writeField l level field (writeFields l level fields rest) := rfl

theorem write_obj (level : Nat) (field : String × Json) (fields : List (String × Json)) (rest : List Char) :
    write l level (.obj (field :: fields)) rest = '{' :: (l.margin (level + 1) ++
      writeField l (level + 1) field (writeFields l (level + 1) fields (l.margin level ++ '}' :: rest))) := rfl

theorem write_field_length (level : Nat) (field : String × Json) (rest : List Char) :
    (write l level field.2 rest).length < (writeField l level field rest).length := by
  simp only [writeField, writeString, List.length_cons, List.length_append]
  omega

theorem read_key (depth level : Nat) (field : String × Json) (rest : List Char) (admitted : Admits d depth field.2) :
    readKey d (writeField l level field rest) = .ok (field.1, write l level field.2 rest) := by
  obtain ⟨gap, colon, blanks⟩ := colon_gap l
  have value := skip_blanks gap _ blanks (write_visible d l depth level field.2 rest admitted)
  have mark : skipBlanks (l.colon ++ write l level field.2 rest) = ':' :: (gap ++ write l level field.2 rest) := by
    rw [colon]
    exact skip_blanks [] _ (by simp) (by rintro c ⟨⟩; decide)
  rw [writeField, writeString, readKey, read_string]
  dsimp only
  rw [mark]
  simp only [value]

theorem set_field_fresh (key : String) (j : Json) (fields : List (String × Json)) (fresh : key ∉ fields.map (·.1)) :
    setField key j fields = fields ++ [(key, j)] := by
  induction fields with
  | nil => rfl
  | cons field fields ih =>
      rw [List.map_cons, List.mem_cons, not_or] at fresh
      rw [setField, if_neg (Ne.symm fresh.1), ih fresh.2, List.cons_append]

theorem set_field_next (field : String × Json) (before fields : List (String × Json))
    (once : ((before ++ field :: fields).map (·.1)).Nodup) : setField field.1 field.2 before = before ++ [field] := by
  apply set_field_fresh
  rw [List.map_append, List.map_cons, List.nodup_append] at once
  intro member
  exact once.2.2 field.1 member field.1 List.mem_cons_self rfl

theorem read_field_value (depth level fuel : Nat) (field : String × Json) (rest : List Char)
    (back : ReadBack d l depth field.2) (delimited : Delimited rest)
    (enough : 2 * (writeField l level field rest).length < fuel) :
    readValue d fuel depth (write l level field.2 rest) = .ok (field.2, rest) := by
  have shorter := write_field_length l level field rest
  exact back level fuel rest delimited (by omega)

theorem read_fields_back (depth level outer : Nat) (field : String × Json) (before fields : List (String × Json))
    (rest : List Char) (fuel : Nat) (admitted : ∀ f ∈ field :: fields, Admits d depth f.2)
    (back : ∀ f ∈ field :: fields, ReadBack d l depth f.2) (once : ((before ++ field :: fields).map (·.1)).Nodup)
    (enough : 2 * (writeField l level field (writeFields l level fields (l.margin outer ++ '}' :: rest))).length < fuel) :
    readFields d (fuel + 1) depth before
        (writeField l level field (writeFields l level fields (l.margin outer ++ '}' :: rest))) =
      .ok (before ++ field :: fields, rest) := by
  rw [List.forall_mem_cons] at back
  induction fields generalizing field before fuel with
  | nil =>
      have key := read_key d l depth level field (l.margin outer ++ '}' :: rest) (admitted field List.mem_cons_self)
      have value := read_field_value d l depth level fuel field _ back.1
        (delimited_margin l outer '}' rest (.inr rfl)) enough
      rw [← set_field_next field before [] once]
      exact read_fields_last d fuel depth _ _ rest field.2 field.1 before _ key value
        (skip_margin l outer _ (by rintro c ⟨⟩; decide))
  | cons next fields ih =>
      rw [write_fields_cons] at enough ⊢
      have key := read_key d l depth level field (l.separator level ++
        writeField l level next (writeFields l level fields (l.margin outer ++ '}' :: rest)))
        (admitted field List.mem_cons_self)
      have value := read_field_value d l depth level fuel field _ back.1 (delimited_separator l level _) enough
      obtain ⟨text, comma, start, shorter⟩ := behind_comma l level field.2
        (writeField l level next (writeFields l level fields (l.margin outer ++ '}' :: rest)))
        (by rintro c ⟨⟩; decide)
      have within := Nat.lt_trans shorter (write_field_length l level field _)
      rw [List.forall_mem_cons] at admitted back
      rw [read_fields_next d fuel depth _ _ text field.2 field.1 before _ key value comma, start,
        set_field_next field before _ once]
      rw [List.append_cons before field (next :: fields)] at once ⊢
      cases fuel with
      | zero => omega
      | succ fuel => exact ih next (before ++ [field]) fuel admitted.2 back.2 once (by omega)

theorem read_value_back (depth : Nat) (j : Json) (admitted : Admits d depth j) : ReadBack d l depth j := by
  induction admitted with
  | null depth =>
      apply scalar_read_back
      · intro level rest _
        rfl
      · rintro level rest c ⟨⟩
        decide
  | bool depth value =>
      apply scalar_read_back
      · intro level rest _
        cases value <;> rfl
      · intro level rest c
        cases value <;> rintro ⟨⟩ <;> decide
  | int depth value short =>
      obtain ⟨c, s, digits, other⟩ := int_digits_cons value
      apply scalar_read_back
      · intro level rest delimited
        rw [write, readScalar, numeral_unnamed]
        · exact read_number d value rest short delimited
        · rw [digits]
          rintro t ⟨⟩
          exact other '"' rfl (by decide) rfl
      · intro level rest c
        rw [write, digits]
        rintro ⟨⟩
        exact ⟨(other '[' rfl (by decide)).symm, (other '{' rfl (by decide)).symm⟩
  | str depth value =>
      apply scalar_read_back
      · intro level rest _
        rw [write, writeString, readScalar, read_string]
        rfl
      · rintro level rest c ⟨⟩
        decide
  | arr depth items deep each ih =>
      intro level fuel rest delimited enough
      obtain ⟨fuel, rfl⟩ : ∃ n, fuel = n + 1 := ⟨fuel - 1, by omega⟩
      cases items with
      | nil =>
          rw [write, readValue, if_pos deep]
          rfl
      | cons j items =>
          rw [write, List.length_cons, List.length_append] at enough
          obtain ⟨fuel, rfl⟩ : ∃ n, fuel = n + 1 := ⟨fuel - 1, by omega⟩
          have first := each j List.mem_cons_self
          obtain ⟨c, s, start, -, other⟩ := write_first d l (depth + 1) (level + 1) j
            (writeItems l (level + 1) items (l.margin level ++ ']' :: rest)) first
          have read := read_items_back d l (depth + 1) (level + 1) level j items rest fuel each ih (by omega)
          rw [write, read_array d (fuel + 1) depth _ _ deep (skip_margin l _ _ (write_visible d l _ _ j _ first)) ?_, read]
          · rfl
          · rw [start]
            rintro t ⟨⟩
            exact other rfl
  | obj depth fields deep once each ih =>
      intro level fuel rest delimited enough
      obtain ⟨fuel, rfl⟩ : ∃ n, fuel = n + 1 := ⟨fuel - 1, by omega⟩
      cases fields with
      | nil =>
          rw [write, readValue, if_pos deep]
          rfl
      | cons field fields =>
          rw [write_obj, List.length_cons, List.length_append] at enough
          obtain ⟨fuel, rfl⟩ : ∃ n, fuel = n + 1 := ⟨fuel - 1, by omega⟩
          have read := read_fields_back d l (depth + 1) (level + 1) level field [] fields rest fuel each ih once (by omega)
          rw [write_obj, read_object d (fuel + 1) depth _ _ deep (skip_margin l _ _ (by rintro c ⟨⟩; decide)) ?_, read]
          · rfl
          · rintro t ⟨⟩

theorem read_written (j : Json) (tail : List Char) (admitted : Admits d 0 j) (blanks : ∀ c ∈ tail, blank c = true) :
    read d (write l 0 j tail) = .ok j := by
  have start := skip_blanks [] _ (by simp) (write_visible d l 0 0 j tail admitted)
  have delimited : Delimited tail := by
    intro c first
    have some := blanks c (List.mem_of_mem_head? first)
    simp only [blank, Bool.or_eq_true, beq_iff_eq] at some
    rcases some with ((rfl | rfl) | rfl) | rfl <;> decide
  have value := read_value_back d l 0 j admitted 0 _ tail delimited (Nat.lt_succ_self _)
  have done := skip_blanks tail [] blanks (by simp)
  rw [List.nil_append] at start
  rw [List.append_nil] at done
  simp only [read, start, value, done]

end

end DocAudit.Json
