import DocAudit.Proofs.Php.LineCount
import DocAudit.Proofs.Php.LineEnding
import DocAudit.Proofs.Text.LetterCase

/-!
What the lexer sees of the text behind a lexeme: its first character but for the case of letters, a
mark of two characters, and whether an opener or a tag reaches into it. In front of texts that agree
in this, the same lexemes are read.
-/

set_option autoImplicit false

namespace DocAudit.Php

open Text (SameLetters Caseless)

/-! ### Classes of characters -/

theorem layout_caseless : Caseless layout := Text.caseless_of_letters _ (by decide)

theorem label_start_caseless : Caseless labelStart := Text.caseless_of_letters _ (by decide)

theorem label_char_caseless : Caseless labelChar := Text.caseless_of_letters _ (by decide)

theorem number_char_caseless : Caseless numberChar := Text.caseless_of_letters _ (by decide)

theorem blank_caseless : Caseless Text.blank := Text.in_ranges_caseless _ (by decide)

theorem line_end_caseless : Caseless fun c => c == '\r' || c == '\n' := Text.caseless_of_letters _ (by decide)

/-! ### Texts that look the same ahead -/

-- Both texts give the same answers to all that the lexer asks of the text behind a lexeme.
structure SameAhead (x y : List Char) : Prop where
  first : SameLetters (x.take 1) (y.take 1)
  pair : ∀ c ∈ ['-', '?'], (y.take 2 = [c, '>'] ↔ x.take 2 = [c, '>'])
  opener : ∀ text, (readOpener (text ++ y)).isSome = (readOpener (text ++ x)).isSome
  tag : ∀ text, (readOpenTag (text ++ y)).isSome = (readOpenTag (text ++ x)).isSome

theorem head_take_one (s : List Char) : (s.take 1).head? = s.head? := by cases s <;> rfl

section

variable (x y : List Char) (ahead : SameAhead x y)

include ahead

theorem ahead_nil (ended : x = []) : y = [] := by
  have first := ahead.first
  rw [ended] at first
  exact (List.take_eq_nil_iff.mp (Text.same_letters_nil _ first)).resolve_left (by decide)

theorem ahead_any (p : Char → Bool) (caseless : Caseless p) : x.head?.any p = y.head?.any p := by
  have same := Text.same_letters_any_head p caseless _ _ ahead.first
  rwa [head_take_one, head_take_one] at same

theorem ahead_mark (mark : Char) (plain : mark.isAlpha = false) : y.head? = some mark ↔ x.head? = some mark := by
  have same := Text.same_letters_head mark _ _ plain ahead.first
  rwa [head_take_one, head_take_one] at same

theorem ahead_class (p : Char → Bool) (caseless : Caseless p) (b : Bool) (here : ∀ c ∈ x.head?, p c = b) :
    ∀ c ∈ y.head?, p c = b := by
  have same := Text.same_letters_head_class p caseless _ _ ahead.first b
  rw [head_take_one, head_take_one] at same
  exact same here

theorem ahead_cons (c : Char) : SameAhead (c :: x) (c :: y) := by
  refine ⟨rfl, ?_, ?_, ?_⟩
  · intro d _
    have angle := Text.same_letters_mark ['>'] _ _ (by decide) ahead.first
    rw [List.take_succ_cons, List.take_succ_cons, List.cons.injEq, List.cons.injEq, angle]
  · intro text
    simpa using ahead.opener (text ++ [c])
  · intro text
    simpa using ahead.tag (text ++ [c])

theorem ahead_append (text : List Char) : SameAhead (text ++ x) (text ++ y) := by
  induction text with
  | nil => exact ahead
  | cons c text ih => exact ahead_cons (text ++ x) (text ++ y) ih c

end

/-! ### Comments, strings and runs -/

theorem cut_cons_inj (c : Char) (t z : List Char) (cut : Cut) (same : cut.cons c = ⟨c :: t, z⟩) :
    cut = ⟨t, z⟩ := by
  obtain ⟨text, rest⟩ := cut
  obtain ⟨begins, rfl⟩ := Cut.mk.inj same
  obtain ⟨-, rfl⟩ := List.cons.inj begins
  rfl

theorem past_comment_end_again (t z y : List Char) (found : pastCommentEnd (t ++ z) = some ⟨t, z⟩) :
    t ≠ [] ∧ pastCommentEnd (t ++ y) = some ⟨t, y⟩ := by
  generalize whole : t ++ z = s at found
  fun_induction pastCommentEnd s generalizing t with
  | case1 => cases found
  | case2 s =>
      obtain ⟨rfl, rfl⟩ := Cut.mk.inj (Option.some.inj found)
      exact ⟨by simp, rfl⟩
  | case3 c s other ih =>
      obtain ⟨⟨inner, rest⟩, ends, same⟩ := Option.map_eq_some_iff.mp found
      obtain ⟨rfl, rfl⟩ := Cut.mk.inj same
      obtain ⟨-, rfl⟩ := List.cons.inj whole
      obtain ⟨filled, further⟩ := ih inner rfl ends
      refine ⟨by simp, ?_⟩
      rw [List.cons_append, past_comment_end_other, further]
      · rfl
      · intro star slash
        obtain ⟨d, inner, rfl⟩ := List.exists_cons_of_ne_nil filled
        exact other _ star (congrArg (· :: _) (Option.some.inj slash))

theorem past_quote_again (q : Char) (quote : isQuote q = true) (t z y : List Char)
    (found : pastQuote q (t ++ z) = some ⟨t, z⟩) : t ≠ [] ∧ pastQuote q (t ++ y) = some ⟨t, y⟩ := by
  generalize whole : t ++ z = s at found
  fun_induction pastQuote q s generalizing t with
  | case1 => cases found
  | case2 c s ih =>
      obtain ⟨⟨inner, rest⟩, ends, same⟩ := Option.map_eq_some_iff.mp found
      obtain ⟨rfl, rfl⟩ := Cut.mk.inj same
      obtain ⟨-, rfl⟩ := List.cons.inj (List.cons.inj whole).2
      obtain ⟨-, further⟩ := ih inner rfl ends
      refine ⟨by simp, ?_⟩
      rw [Cut.cons, List.cons_append, List.cons_append, pastQuote, further]
      rfl
  | case3 s =>
      obtain ⟨rfl, rfl⟩ := Cut.mk.inj (Option.some.inj found)
      refine ⟨by simp, ?_⟩
      rw [List.singleton_append, past_quote_other, if_pos rfl]
      exact fun backslash => absurd backslash (quote_not_backslash q quote)
  | case4 c s unpaired other ih =>
      obtain ⟨⟨inner, rest⟩, ends, same⟩ := Option.map_eq_some_iff.mp found
      obtain ⟨rfl, rfl⟩ := Cut.mk.inj same
      obtain ⟨-, rfl⟩ := List.cons.inj whole
      obtain ⟨filled, further⟩ := ih inner rfl ends
      refine ⟨by simp, ?_⟩
      rw [List.cons_append, past_quote_other, if_neg other, further]
      · rfl
      · intro backslash
        obtain ⟨d, inner, rfl⟩ := List.exists_cons_of_ne_nil filled
        exact absurd rfl (unpaired d _ backslash)

theorem run_stops (p : Char → Bool) (s : List Char) : ∀ c ∈ (Cut.run p s).rest.head?, p c = false := by
  intro c head
  have outside := List.head?_dropWhile_not p s
  rw [Cut.run, Option.mem_def] at head
  rw [head] at outside
  exact outside

theorem run_exact (p : Char → Bool) (text rest : List Char) (inside : ∀ c ∈ text, p c = true)
    (stops : ∀ c ∈ rest.head?, p c = false) : Cut.run p (text ++ rest) = ⟨text, rest⟩ := by
  rw [Cut.run, List.takeWhile_append_of_pos inside, List.dropWhile_append_of_pos inside]
  cases rest with
  | nil => simp
  | cons c rest => simp [stops c rfl]

theorem run_cons_ahead (p : Char → Bool) (caseless : Caseless p) (c : Char) (t x y : List Char) (ahead : SameAhead x y)
    (found : (Cut.run p (t ++ x)).cons c = ⟨c :: t, x⟩) : (Cut.run p (t ++ y)).cons c = ⟨c :: t, y⟩ := by
  have run := cut_cons_inj c t x _ found
  have inside := run_class p (t ++ x)
  have stops := run_stops p (t ++ x)
  rw [run] at inside stops
  rw [run_exact p t y inside (ahead_class x y ahead p caseless false stops)]
  rfl

-- Nothing is read where a line ends.
theorem to_line_end_here (s : List Char) : toLineEnd s = ⟨[], s⟩ ↔
    (∀ c ∈ s.head?, (c == '\r' || c == '\n') = true) ∨ s.take 2 = ['?', '>'] := by
  cases s with
  | nil => simp [toLineEnd]
  | cons c s =>
      by_cases close : c = '?' ∧ s.head? = some '>'
      · obtain ⟨rfl, follows⟩ := close
        rw [head?_eq_some follows]
        exact ⟨fun _ => .inr rfl, fun _ => rfl⟩
      · have apart : (c :: s).take 2 ≠ ['?', '>'] := by
          intro tag
          obtain ⟨rfl, follows⟩ := List.cons.inj tag
          rw [← head_take_one, follows] at close
          exact close ⟨rfl, rfl⟩
        rw [to_line_end_other c s (fun question follows => close ⟨question, follows⟩)]
        constructor
        · intro here
          split at here
          · rename_i lineEnd
            exact .inl (by simpa using lineEnd)
          · cases congrArg Cut.text here
        · rintro (lineEnd | tag)
          · rw [if_pos (by simpa using lineEnd c rfl)]
          · exact absurd tag apart

theorem to_line_end_ahead (t x y : List Char) (ahead : SameAhead x y) (found : toLineEnd (t ++ x) = ⟨t, x⟩) :
    toLineEnd (t ++ y) = ⟨t, y⟩ := by
  induction t with
  | nil =>
      rw [List.nil_append, to_line_end_here] at found ⊢
      rcases found with lineEnd | close
      · exact .inl (ahead_class x y ahead _ line_end_caseless true lineEnd)
      · exact .inr ((ahead.pair '?' (by simp)).mpr close)
  | cons c t ih =>
      have angle := ahead_mark _ _ (ahead_append x y ahead t) '>' (by decide)
      rw [List.cons_append] at found ⊢
      by_cases close : c = '?' ∧ (t ++ x).head? = some '>'
      · obtain ⟨rfl, follows⟩ := close
        rw [head?_eq_some follows] at found
        cases congrArg Cut.text found
      · rw [to_line_end_other c _ (fun question follows => close ⟨question, follows⟩)] at found
        split at found
        · cases congrArg Cut.text found
        · rename_i inside
          rw [to_line_end_other c, if_neg inside, ih (cut_cons_inj c t _ _ found)]
          · rfl
          · exact fun question follows => close ⟨question, angle.mp follows⟩

/-! ### Heredocs -/

-- A beginning without a character that the text holds ends before that character.
theorem beginning_within (a b u x : List Char) (d : Char) (inside : d ∈ u) (outside : d ∉ a)
    (same : a ++ b = u ++ x) : ∃ w, d ∈ w ∧ u = a ++ w ∧ b = w ++ x := by
  rcases List.append_eq_append_iff.mp same with ⟨w, rfl, rfl⟩ | ⟨w, rfl, rfl⟩
  · exact ⟨w, (List.mem_append.mp inside).resolve_left outside, rfl, rfl⟩
  · exact absurd (List.mem_append_left w inside) outside

theorem read_heredoc_label_complete (label rest : List Char) (valid : HeredocLabel label)
    (ends : ∀ c ∈ rest.head?, Text.wordChar c = false) :
    readHeredocLabel (label ++ rest) = some ⟨label, rest⟩ := by
  obtain ⟨c, w, rfl, start, word⟩ := valid
  rw [List.cons_append, readHeredocLabel, if_pos start, run_exact Text.wordChar w rest word ends]
  rfl

theorem read_opener_label_complete (label form rest : List Char) (valid : HeredocLabel label)
    (written : LabelForm label form) (ends : ∀ c ∈ rest.head?, Text.wordChar c = false) :
    readOpenerLabel (form ++ rest) = some ⟨label, ⟨form, rest⟩⟩ := by
  have quotes : Text.wordChar '"' = false ∧ Text.wordChar '\'' = false := by decide +kernel
  have quoted : ∀ q, Text.wordChar q = false →
      readQuotedLabel q (label ++ ([q] ++ rest)) = some ⟨label, ⟨q :: (label ++ [q]), rest⟩⟩ := by
    intro q plain
    rw [readQuotedLabel, read_heredoc_label_complete label ([q] ++ rest) valid]
    · simp
    · intro c head
      obtain rfl : q = c := Option.some.inj head
      exact plain
  cases written with
  | bare =>
      have start : (label ++ rest).head?.any asciiLabelStart = true := by
        obtain ⟨c, w, rfl, start, -⟩ := valid
        exact start
      rw [read_opener_label_bare, read_heredoc_label_complete label rest valid ends]
      · rfl
      · intro double
        rw [double] at start
        cases start
      · intro single
        rw [single] at start
        cases start
  | double => simpa [readOpenerLabel] using quoted '"' quotes.1
  | single => simpa [readOpenerLabel] using quoted '\'' quotes.2

theorem label_form_start (label form rest : List Char) (valid : HeredocLabel label)
    (written : LabelForm label form) : ∃ c tail, form ++ rest = c :: tail ∧ indent c = false := by
  cases written with
  | bare => exact heredoc_label_not_indented label rest valid
  | double => exact ⟨'"', _, rfl, rfl⟩
  | single => exact ⟨'\'', _, rfl, rfl⟩

theorem read_opener_complete (label gap form lineEnd body : List Char) (valid : HeredocLabel label)
    (blanks : ∀ c ∈ gap, indent c = true) (written : LabelForm label form) (breaks : LineBreak lineEnd) :
    readOpener ('<' :: '<' :: '<' :: (gap ++ (form ++ (lineEnd ++ body)))) =
      some ⟨label, ⟨'<' :: '<' :: '<' :: (gap ++ (form ++ lineEnd)), body⟩⟩ := by
  have ends : ∀ c ∈ (lineEnd ++ body).head?, Text.wordChar c = false := by
    intro c head
    cases breaks with
    | lf => exact Option.some.inj head ▸ word_char_line_ending.2
    | crlf => exact Option.some.inj head ▸ word_char_line_ending.1
  have broken : readLineBreak (lineEnd ++ body) = some ⟨lineEnd, body⟩ := by cases breaks <;> rfl
  have run : Cut.run indent (gap ++ (form ++ (lineEnd ++ body))) = ⟨gap, form ++ (lineEnd ++ body)⟩ := by
    obtain ⟨c, tail, begins, start⟩ := label_form_start label form (lineEnd ++ body) valid written
    rw [Cut.run, List.takeWhile_append_of_pos blanks, List.dropWhile_append_of_pos blanks, begins]
    simp [start]
  simp only [readOpener, run, read_opener_label_complete label form (lineEnd ++ body) valid written ends,
    broken, Option.map_some, Cut.after, List.cons_append, List.append_assoc]

-- An opener is read in front of any body.
theorem read_opener_again (s : List Char) (opener : Opener) (found : readOpener s = some opener) (body : List Char) :
    readOpener (opener.cut.text ++ body) = some ⟨opener.label, ⟨opener.cut.text, body⟩⟩ := by
  obtain ⟨valid, gap, form, lineEnd, rfl, blanks, written, breaks⟩ := read_opener s opener found
  have complete := fun body =>
    read_opener_complete opener.label gap form lineEnd body valid blanks written breaks
  have text : opener.cut.text = '<' :: '<' :: '<' :: (gap ++ (form ++ lineEnd)) :=
    congrArg (·.cut.text) (Option.some.inj (found.symm.trans (complete _)))
  rw [text]
  simpa using complete body

-- What closes a heredoc ends on a later line than the one it is looked for on.
theorem past_closing_later (label : List Char) (s : List Char) (cut : Cut)
    (found : pastClosing label false s = some cut) : '\n' ∈ cut.text := by
  induction s generalizing cut with
  | nil => cases found
  | cons c s ih =>
      rw [pastClosing] at found
      obtain ⟨inner, further, rfl⟩ := Option.map_eq_some_iff.mp found
      by_cases lineEnd : c = '\n'
      · simp [Cut.cons, lineEnd]
      · rw [beq_false_of_ne lineEnd] at further
        exact List.mem_cons_of_mem c (ih inner further)

theorem read_closing_some (label s : List Char) (cut : Cut) (found : readClosing label s = some cut) :
    ∃ gap, cut.text = gap ++ label ∧ (∀ c ∈ gap, indent c = true) ∧
      ∀ c ∈ cut.rest.head?, labelChar c = false := by
  by_cases front : ∃ after, (Cut.run indent s).rest = label ++ after
  · obtain ⟨after, rest⟩ := front
    rw [read_closing_front label s after rest] at found
    split at found
    · cases found
    · rename_i alone
      cases found
      refine ⟨_, rfl, run_class indent s, ?_⟩
      intro c head
      simpa [Option.mem_def.mp head] using alone
  · rw [read_closing_absent label s (fun after same => front ⟨after, same⟩)] at found
    cases found

theorem closing_one_line (label gap : List Char) (valid : HeredocLabel label)
    (blanks : ∀ c ∈ gap, indent c = true) : '\n' ∉ gap ++ label := by
  intro inside
  rcases List.mem_append.mp inside with inGap | inLabel
  · cases blanks '\n' inGap
  · exact (heredoc_label_one_line label valid).1 inLabel

theorem read_closing_again (label : List Char) (valid : HeredocLabel label) (t z y : List Char)
    (stops : ∀ c ∈ y.head?, labelChar c = false) (found : readClosing label (t ++ z) = some ⟨t, z⟩) :
    readClosing label (t ++ y) = some ⟨t, y⟩ := by
  obtain ⟨gap, rfl, blanks, -⟩ := read_closing_some label (t ++ z) ⟨t, z⟩ found
  rw [List.append_assoc]
  exact read_closing_found label gap y valid blanks stops

theorem read_closing_none_again (label : List Char) (valid : HeredocLabel label) (t z y : List Char)
    (broken : '\n' ∈ t) (absent : readClosing label (t ++ z) = none) : readClosing label (t ++ y) = none := by
  cases found : readClosing label (t ++ y) with
  | none => rfl
  | some cut =>
      obtain ⟨gap, text, blanks, ends⟩ := read_closing_some label (t ++ y) cut found
      have oneLine := closing_one_line label gap valid blanks
      have whole := whole_readClosing found
      rw [Cut.whole, text] at whole
      obtain ⟨w, inside, rfl, rest⟩ := beginning_within _ _ t y '\n' broken oneLine whole
      have also : ∀ c ∈ (w ++ z).head?, labelChar c = false := by
        obtain ⟨d, w, rfl⟩ := List.exists_cons_of_ne_nil (List.ne_nil_of_mem inside)
        rw [rest] at ends
        exact ends
      rw [List.append_assoc, List.append_assoc, read_closing_found label gap (w ++ z) valid blanks also] at absent
      cases absent

theorem past_closing_again (label : List Char) (valid : HeredocLabel label) (lineStart : Bool)
    (t z y : List Char) (stops : ∀ c ∈ y.head?, labelChar c = false)
    (found : pastClosing label lineStart (t ++ z) = some ⟨t, z⟩) :
    pastClosing label lineStart (t ++ y) = some ⟨t, y⟩ := by
  induction t generalizing lineStart with
  | nil =>
      cases z with
      | nil => cases found
      | cons c s =>
          rw [List.nil_append, pastClosing] at found
          split at found
          · rename_i cut closing
            cases found
            split at closing
            · obtain ⟨gap, text, -⟩ := read_closing_some label _ _ closing
              obtain ⟨c, w, rfl, -⟩ := valid
              simp at text
            · cases closing
          · obtain ⟨inner, -, same⟩ := Option.map_eq_some_iff.mp found
            cases congrArg Cut.text same
  | cons c t ih =>
      rw [List.cons_append, pastClosing] at found ⊢
      split at found
      · rename_i cut closing
        cases found
        split at closing
        · rename_i atStart
          rw [if_pos atStart, ← List.cons_append, read_closing_again label valid (c :: t) z y stops closing]
        · cases closing
      · rename_i missing
        obtain ⟨inner, further, same⟩ := Option.map_eq_some_iff.mp found
        obtain rfl := cut_cons_inj c t z inner same
        have still : (if lineStart then readClosing label (c :: (t ++ y)) else none) = none := by
          split at missing
          · by_cases lineEnd : c = '\n'
            · rw [lineEnd, read_closing_at_break label (t ++ y) '\n' valid rfl rfl]
              split <;> rfl
            · -- the closing line is a later one, so this line ends inside what is read
              rw [beq_false_of_ne lineEnd] at further
              have broken := past_closing_later label (t ++ z) ⟨t, z⟩ further
              have here := read_closing_none_again label valid (c :: t) z y (List.mem_cons_of_mem c broken) missing
              rw [← List.cons_append, here]
              split <;> rfl
          · rename_i inside
            rw [if_neg inside]
        rw [still, ih (c == '\n') further]
        rfl

theorem past_closing_stops (label : List Char) (lineStart : Bool) (s : List Char) (cut : Cut)
    (found : pastClosing label lineStart s = some cut) : ∀ c ∈ cut.rest.head?, labelChar c = false := by
  fun_induction pastClosing label lineStart s generalizing cut with
  | case1 => cases found
  | case2 lineStart c s inner closing =>
      cases found
      split at closing
      · obtain ⟨-, -, -, stops⟩ := read_closing_some label _ _ closing
        exact stops
      · cases closing
  | case3 lineStart c s missing ih =>
      obtain ⟨inner, further, rfl⟩ := Option.map_eq_some_iff.mp found
      exact ih inner further

/-! ### Symbols, names and numbers -/

section

variable (c : Char) (t x y : List Char) (ahead : SameAhead x y)

include ahead

theorem read_symbol_ahead (found : readSymbol c (t ++ x) = ⟨c :: t, x⟩) : readSymbol c (t ++ y) = ⟨c :: t, y⟩ := by
  have whole := ahead_append x y ahead t
  have mark := ahead_mark _ _ whole
  revert found
  simp only [readSymbol, whole.pair '-' (by simp), mark '>' (by decide), mark ':' (by decide), mark '[' (by decide)]
  repeat' split
  all_goals
    intro found
    obtain ⟨first, rfl⟩ := List.cons.inj (Cut.mk.inj found).1
    rw [first]
    rfl

theorem read_plain_ahead (shape : Shape) (found : readPlain c (t ++ x) = (shape, ⟨c :: t, x⟩)) :
    readPlain c (t ++ y) = (shape, ⟨c :: t, y⟩) := by
  have start := ahead_any _ _ (ahead_append x y ahead t) labelStart label_start_caseless
  have single : (⟨[c], t ++ x⟩ : Cut) = ⟨c :: t, x⟩ → (⟨[c], t ++ y⟩ : Cut) = ⟨c :: t, y⟩ := by
    intro same
    obtain ⟨-, rfl⟩ := List.cons.inj (Cut.mk.inj same).1
    rfl
  revert found
  simp only [readPlain, ← start]
  repeat' split
  all_goals
    intro found
    obtain ⟨rfl, cut⟩ := Prod.mk.inj found
    congr 1
  · exact single cut
  · exact single cut
  · exact run_cons_ahead labelChar label_char_caseless c t x y ahead cut
  · exact single cut
  · exact run_cons_ahead labelChar label_char_caseless c t x y ahead cut
  · exact run_cons_ahead numberChar number_char_caseless c t x y ahead cut
  · exact read_symbol_ahead c t x y ahead cut

/-! ### Code and markup -/

theorem read_heredoc_ahead (opener : Opener) (inner : Cut) (opens : readOpener (c :: (t ++ x)) = some opener)
    (ends : pastClosing opener.label true opener.cut.rest = some inner)
    (cut : inner.after opener.cut.text = ⟨c :: t, x⟩) :
    readOpener (c :: (t ++ y)) = some ⟨opener.label, ⟨opener.cut.text, inner.text ++ y⟩⟩ ∧
      pastClosing opener.label true (inner.text ++ y) = some ⟨inner.text, y⟩ := by
  have valid := (read_opener _ opener opens).label_form
  have stops := past_closing_stops _ _ _ _ ends
  obtain ⟨text, rest⟩ := inner
  obtain ⟨whole, rfl⟩ := Cut.mk.inj cut
  constructor
  · have again := read_opener_again _ opener opens (text ++ y)
    rw [← List.append_assoc, whole] at again
    exact again
  · have body := whole_pastClosing ends
    rw [← body, Cut.whole] at ends
    have also := ahead_class _ y ahead labelChar label_char_caseless false stops
    exact past_closing_again opener.label valid true text _ y also ends

theorem read_code_ahead (shape : Shape) (found : readCode c (t ++ x) = .ok (shape, ⟨c :: t, x⟩)) :
    readCode c (t ++ y) = .ok (shape, ⟨c :: t, y⟩) := by
  have mark := ahead_mark _ _ (ahead_append x y ahead t)
  revert found
  simp only [readCode, ne_eq, mark '>' (by decide), mark '*' (by decide), mark '/' (by decide), mark '[' (by decide)]
  split
  · intro found
    obtain ⟨rfl, cut⟩ := Prod.mk.inj (Except.ok.inj found)
    rw [run_cons_ahead layout layout_caseless c t x y ahead cut]
  split
  · intro found
    obtain ⟨rfl, cut⟩ := Prod.mk.inj (Except.ok.inj found)
    obtain ⟨rfl, rfl⟩ := List.cons.inj (Cut.mk.inj cut).1
    rfl
  split
  · intro found
    split at found
    · rename_i inner ends
      obtain ⟨rfl, cut⟩ := Prod.mk.inj (Except.ok.inj found)
      obtain ⟨text, rest⟩ := inner
      obtain ⟨whole, rfl⟩ := Cut.mk.inj cut
      obtain ⟨rfl, rfl⟩ := List.cons.inj whole
      have closes := (past_comment_end_again text rest y ends).2
      dsimp only [Cut.cons, List.cons_append, List.tail_cons]
      rw [closes]
    · cases found
  split
  · intro found
    obtain ⟨rfl, cut⟩ := Prod.mk.inj (Except.ok.inj found)
    rw [to_line_end_ahead t x y ahead (cut_cons_inj c t _ _ cut)]
    rfl
  split
  · rename_i quote
    intro found
    split at found
    · rename_i inner ends
      obtain ⟨rfl, cut⟩ := Prod.mk.inj (Except.ok.inj found)
      obtain rfl := cut_cons_inj c t _ inner cut
      rw [(past_quote_again c quote t x y ends).2]
      rfl
    · cases found
  · intro found
    split at found
    · rename_i opener opens
      split at found
      · rename_i inner ends
        obtain ⟨rfl, cut⟩ := Prod.mk.inj (Except.ok.inj found)
        obtain ⟨still, closes⟩ := read_heredoc_ahead c t x y ahead opener inner opens ends cut
        have text : opener.cut.text ++ inner.text = c :: t := congrArg Cut.text cut
        simp only [still, closes, Cut.after, text]
      · cases found
    · rename_i absent
      have still : readOpener (c :: (t ++ y)) = none := by
        rw [← Option.not_isSome_iff_eq_none] at absent ⊢
        rwa [← List.cons_append, ahead.opener]
      rw [still]
      exact congrArg Except.ok (read_plain_ahead c t x y ahead shape (Except.ok.inj found))

end

theorem read_open_tag_complete (tag rest : List Char) (opens : OpensCode tag rest) :
    readOpenTag (tag ++ rest) = some ⟨tag, rest⟩ := by
  rcases opens with rfl | ⟨spelled, blank⟩
  · rfl
  · obtain ⟨front, name, rfl, angle, letters⟩ := List.map_eq_cons_iff.mp spelled
    obtain ⟨back, name, rfl, question, word⟩ := List.map_eq_cons_iff.mp letters
    obtain rfl := Text.same_letter_plain '<' front (by decide) angle.symm
    obtain rfl := Text.same_letter_plain '?' back (by decide) question.symm
    have all : rest.head?.all Text.blank = true := by
      rw [Option.all_eq_true]
      exact blank
    have tag := read_open_tag_php name rest word
    rw [if_pos all] at tag
    exact tag

theorem read_open_tag_ahead (tag x y : List Char) (ahead : SameAhead x y)
    (found : readOpenTag (tag ++ x) = some ⟨tag, x⟩) : readOpenTag (tag ++ y) = some ⟨tag, y⟩ := by
  apply read_open_tag_complete
  rcases read_open_tag_opens _ _ found with rfl | ⟨spelled, blank⟩
  · exact .inl rfl
  · exact .inr ⟨spelled, ahead_class x y ahead Text.blank blank_caseless true blank⟩

theorem read_open_tag_none_ahead (x y : List Char) (ahead : SameAhead x y) (absent : readOpenTag x = none) :
    readOpenTag y = none := by
  rw [← Option.not_isSome_iff_eq_none] at absent ⊢
  rwa [← List.nil_append y, ahead.tag]

theorem to_open_tag_here (s : List Char) (found : (readOpenTag s).isSome = true) : toOpenTag s = ⟨[], s⟩ := by
  cases s with
  | nil => rfl
  | cons c s => rw [toOpenTag, if_pos found]

theorem to_open_tag_ahead (t x y : List Char) (ahead : SameAhead x y) (found : toOpenTag (t ++ x) = ⟨t, x⟩) :
    toOpenTag (t ++ y) = ⟨t, y⟩ := by
  induction t with
  | nil =>
      cases x with
      | nil =>
          rw [ahead_nil [] y ahead rfl]
          rfl
      | cons c s =>
          rw [List.nil_append, toOpenTag] at found
          split at found
          · rename_i tag
            exact to_open_tag_here y ((ahead.tag []).trans tag)
          · cases congrArg Cut.text found
  | cons c t ih =>
      rw [List.cons_append, toOpenTag] at found ⊢
      split at found
      · cases congrArg Cut.text found
      · rename_i absent
        have still := read_open_tag_none_ahead _ _ (ahead_append x y ahead (c :: t))
          (Option.not_isSome_iff_eq_none.mp absent)
        rw [List.cons_append] at still
        rw [still, ih (cut_cons_inj c t _ _ found)]
        rfl

/-! ### Steps -/

theorem step_of_case (m : Mode) (c : Char) (s : List Char) (step : Step) (read : StepCase m c s step) :
    m.step c s = .ok step := by
  cases read with
  | data region => simp only [Mode.step, region]
  | markup region absent => simp only [Mode.step, region, absent, Cut.cons]
  | openTag region cut found => simp only [Mode.step, region, found]
  | code region shape cut found => simp only [Mode.step, region, found]

theorem step_ahead (m next : Mode) (c : Char) (t x y : List Char) (shape : Shape) (ahead : SameAhead x y)
    (read : m.step c (t ++ x) = .ok ⟨⟨shape, c :: t⟩, x, next⟩) :
    m.step c (t ++ y) = .ok ⟨⟨shape, c :: t⟩, y, next⟩ := by
  generalize result : (⟨⟨shape, c :: t⟩, x, next⟩ : Step) = step at read
  apply step_of_case
  cases step_cases m c _ step read with
  | data region =>
      obtain ⟨lexeme, rfl, rfl⟩ := Step.mk.inj result
      obtain ⟨rfl, -⟩ := Lexeme.mk.inj lexeme
      rw [ahead_nil [] y ahead rfl, List.append_nil]
      exact .data region
  | markup region absent =>
      obtain ⟨lexeme, rest, rfl⟩ := Step.mk.inj result
      obtain ⟨rfl, text⟩ := Lexeme.mk.inj lexeme
      have cut : (toOpenTag (t ++ x)).cons c = ⟨c :: t, x⟩ := by rw [Cut.cons, ← text, ← rest]
      have still := read_open_tag_none_ahead _ _ (ahead_append x y ahead (c :: t)) absent
      have again := StepCase.markup region (s := t ++ y) still
      rw [to_open_tag_ahead t x y ahead (cut_cons_inj c t _ _ cut)] at again
      exact again
  | openTag region cut found =>
      obtain ⟨lexeme, rest, rfl⟩ := Step.mk.inj result
      obtain ⟨rfl, text⟩ := Lexeme.mk.inj lexeme
      have whole : cut = ⟨c :: t, x⟩ := by rw [text, rest]
      subst whole
      exact .openTag region _ (read_open_tag_ahead (c :: t) x y ahead found)
  | code region shape cut found =>
      obtain ⟨lexeme, rest, rfl⟩ := Step.mk.inj result
      obtain ⟨rfl, text⟩ := Lexeme.mk.inj lexeme
      have whole : cut = ⟨c :: t, x⟩ := by rw [text, rest]
      subst whole
      exact .code region shape _ (read_code_ahead c t x y ahead shape found)

end DocAudit.Php
