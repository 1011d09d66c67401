import DocAudit.Proofs.Php.Markup

/-!
Heredocs as single tokens. One is read whole when its label begins with an ASCII letter or `_` and
goes on in word characters. Any other label opens nothing, and what follows it is read as code.
-/

set_option autoImplicit false

namespace DocAudit.Php

/-! ### Code positions -/

-- Reading arrives in front of `s`, in code, with the tokens `before` behind it.
def CodeAt (source : String) (before : List Token) (s : List Char) : Prop :=
  ∃ ls m, Reads {} source.toList ls m s ∧ m.region = .code ∧ numbered 1 ls = before

-- A lexeme of code is at a code position.
theorem code_at_lexeme (source : String) (ls : List Lexeme) (l : Lexeme) (s : List Char)
    (lexed : ls ++ [l] <+: (lex source.toList).lexemes) (code : l.shape.region = .code)
    (whole : lexemeText ls ++ s = source.toList) : CodeAt source (numbered 1 ls) s := by
  obtain ⟨last, rest, run, -⟩ := source_reads source.toList
  obtain ⟨more, lexemes⟩ := lexed
  rw [← lexemes, List.append_assoc, List.singleton_append] at run
  obtain ⟨middle, text, early, late⟩ := reads_append _ last _ rest ls (l :: more) run
  have left := reads_text _ middle _ text ls early
  have same : text = s := List.append_cancel_left (left.trans whole.symm)
  exact ⟨ls, middle, same ▸ early, reads_code_first middle last text rest l more late code, rfl⟩

-- What is read at a code position is the next token.
theorem code_token (source : String) (before : List Token) (c : Char) (s : List Char) (shape : Shape) (cut : Cut)
    (code : CodeAt source before (c :: s)) (found : readCode c s = .ok (shape, cut)) (plain : shape ≠ .name) :
    ∃ after left, (tokenize source).tokens =
        before ++ ⟨shape.kind, String.ofList cut.text, 1 + newlines (tokenText before)⟩ :: after ∧
      tokenText after ++ left = cut.rest := by
  obtain ⟨ls, m, run, region, rfl⟩ := code
  have settled : m.settle shape (String.ofList cut.text) = shape := if_neg fun name => plain name.1
  have step : m.step c s = .ok ⟨⟨shape, cut.text⟩, cut.rest, m.afterCode shape (String.ofList cut.text)⟩ := by
    simp only [Mode.step, region, found, settled]
  generalize m.afterCode shape (String.ofList cut.text) = next at step
  have lexed : (lex source.toList).lexemes = ls ++ ⟨shape, cut.text⟩ :: (next.lex cut.rest).lexemes := by
    rw [lex, reads_lex _ m _ (c :: s) ls run, lex_cons, step]
    rfl
  have tokens : (tokenize source).tokens = numbered 1 (ls ++ ⟨shape, cut.text⟩ :: (next.lex cut.rest).lexemes) :=
    congrArg (numbered 1) lexed
  rw [numbered_append, numbered, reads_line _ m _ (c :: s) ls 1 run (by simp), ← numbered_text 1 ls] at tokens
  obtain ⟨last, left, later, -⟩ := lex_reads next cut.rest
  refine ⟨_, left, tokens, ?_⟩
  rw [numbered_text]
  exact reads_text next last cut.rest left _ later

/-! ### The text of a heredoc -/

-- What stands between the opening line and the closing one: nothing, or lines that do not close.
inductive HeredocBody (label : List Char) : List Char → Prop where
  | empty : HeredocBody label []
  | lines (lines : List Char) (still : ¬ HasClosingLine label lines) : HeredocBody label (lines ++ ['\n'])

inductive HeredocText (label : List Char) : List Char → Prop where
  | written (gap form lineEnd body margin : List Char) (blanks : ∀ c ∈ gap, indent c = true)
      (written : LabelForm label form) (breaks : LineBreak lineEnd) (inner : HeredocBody label body)
      (indented : ∀ c ∈ margin, indent c = true) :
      HeredocText label ('<' :: '<' :: '<' :: (gap ++ (form ++ (lineEnd ++ (body ++ (margin ++ label))))))

/-! ### The closing line -/

theorem closes_within_cons (label : List Char) (lineStart : Bool) (c : Char) (s : List Char)
    (closes : ClosesWithin label (c == '\n') s) : ClosesWithin label lineStart (c :: s) := by
  obtain ⟨before, gap, after, rfl, line, blanks, ends⟩ := closes
  refine ⟨c :: before, gap, after, rfl, .inr ?_, blanks, ends⟩
  rcases line with ⟨rfl, lineEnd⟩ | ⟨earlier, rfl⟩
  · exact ⟨[], by rw [beq_iff_eq.mp lineEnd]; rfl⟩
  · exact ⟨c :: earlier, rfl⟩

section

variable (label : List Char) (valid : HeredocLabel label)

include valid

-- The line that closes ends before the next line begins.
theorem read_closing_within (lines x : List Char) (cut : Cut)
    (found : readClosing label (lines ++ '\n' :: x) = some cut) : ClosesWithin label true lines := by
  obtain ⟨gap, text, blanks, ends⟩ := read_closing_some label _ cut found
  have oneLine := closing_one_line label gap valid blanks
  have whole := whole_readClosing found
  rw [Cut.whole, text] at whole
  rcases List.append_eq_append_iff.mp whole with ⟨after, rfl, rest⟩ | ⟨beyond, outside, rest⟩
  · refine ⟨[], gap, after, List.append_assoc gap label after, .inl ⟨rfl, rfl⟩, blanks, ?_⟩
    intro c head
    have filled : after ≠ [] := List.ne_nil_of_mem (List.mem_of_head? head)
    rw [rest, List.head?_append_of_ne_nil after filled] at ends
    exact ends c head
  · cases beyond with
    | nil =>
        rw [List.append_nil] at outside
        exact ⟨[], gap, [], by simp [outside], .inl ⟨rfl, rfl⟩, blanks, by simp⟩
    | cons d beyond =>
        obtain ⟨rfl, -⟩ := List.cons.inj rest
        rw [outside] at oneLine
        exact absurd (List.mem_append_right lines List.mem_cons_self) oneLine

theorem past_closing_here (gap rest : List Char) (blanks : ∀ c ∈ gap, indent c = true)
    (ends : ∀ c ∈ rest.head?, labelChar c = false) :
    pastClosing label true (gap ++ (label ++ rest)) = some ⟨gap ++ label, rest⟩ := by
  have found := read_closing_found label gap rest valid blanks ends
  have filled : gap ++ (label ++ rest) ≠ [] := by
    obtain ⟨c, w, rfl, -⟩ := valid
    simp
  obtain ⟨c, s, begins⟩ := List.exists_cons_of_ne_nil filled
  rw [begins] at found ⊢
  rw [pastClosing, if_pos rfl, found]

-- Lines that do not close are passed over, up to the closing line behind them.
theorem past_closing_lines (lines margin rest : List Char) (lineStart : Bool)
    (still : ¬ ClosesWithin label lineStart lines) (indented : ∀ c ∈ margin, indent c = true)
    (ends : ∀ c ∈ rest.head?, labelChar c = false) :
    pastClosing label lineStart (lines ++ '\n' :: (margin ++ (label ++ rest))) =
      some ⟨lines ++ '\n' :: (margin ++ label), rest⟩ := by
  induction lines generalizing lineStart with
  | nil =>
      have absent := read_closing_at_break label (margin ++ (label ++ rest)) '\n' valid rfl rfl
      rw [List.nil_append, pastClosing, absent, ite_self, beq_self_eq_true,
        past_closing_here label valid margin rest indented ends]
      rfl
  | cons c lines ih =>
      have absent : ∀ x, (if lineStart then readClosing label (c :: (lines ++ '\n' :: x)) else none) = none := by
        intro x
        by_cases atStart : lineStart = true
        · rw [if_pos atStart]
          cases found : readClosing label (c :: (lines ++ '\n' :: x)) with
          | none => rfl
          | some cut => exact absurd (atStart ▸ read_closing_within label valid (c :: lines) x cut found) still
        · rw [if_neg atStart]
      have later : ¬ ClosesWithin label (c == '\n') lines := by
        intro closes
        exact still (closes_within_cons label lineStart c lines closes)
      rw [List.cons_append, pastClosing, absent, ih (c == '\n') later]
      rfl

theorem past_closing_body (body margin rest : List Char) (inner : HeredocBody label body)
    (indented : ∀ c ∈ margin, indent c = true) (ends : ∀ c ∈ rest.head?, labelChar c = false) :
    pastClosing label true (body ++ (margin ++ (label ++ rest))) = some ⟨body ++ (margin ++ label), rest⟩ := by
  cases inner with
  | empty => exact past_closing_here label valid margin rest indented ends
  | lines lines still =>
      rw [has_closing_line_iff] at still
      rw [List.append_assoc, List.append_assoc]
      exact past_closing_lines label valid lines margin rest true still indented ends

end

/-! ### The opening line -/

theorem word_char_label (c : Char) (word : Text.wordChar c = true) : labelChar c = true := by
  by_cases ascii : c.toNat < 0x80
  · rw [Text.wordChar, if_pos ascii, Text.asciiAlphanumeric] at word
    simp only [labelChar, labelStart, asciiLabelStart, Bool.or_eq_true] at word ⊢
    tauto
  · exact labelChar_of_labelStart (by simp [labelStart, Nat.le_of_not_lt ascii])

theorem heredoc_label_is_label (label : List Char) (valid : HeredocLabel label) : IsLabel label := by
  obtain ⟨c, w, rfl, start, words⟩ := valid
  exact ⟨c, w, rfl, by rw [labelStart, start]; rfl, fun d member => word_char_label d (words d member)⟩

def firstLabel (s : List Char) : List Char := (s.dropWhile (!labelChar ·)).takeWhile labelChar

theorem first_label_here (label s : List Char) (isLabel : IsLabel label)
    (ends : ∀ c ∈ s.head?, labelChar c = false) : firstLabel (label ++ s) = label := by
  obtain ⟨c, w, rfl, start, rest⟩ := isLabel
  have whole : ∀ d ∈ c :: w, labelChar d = true := by
    intro d member
    rcases List.mem_cons.mp member with rfl | later
    · exact labelChar_of_labelStart start
    · exact rest d later
  have stops : s.takeWhile labelChar = [] := by
    cases s with
    | nil => rfl
    | cons d s => rw [List.takeWhile_cons_of_neg]; simp [ends d rfl]
  rw [firstLabel, List.cons_append, List.dropWhile_cons_of_neg (by simp [whole c List.mem_cons_self]),
    ← List.cons_append, List.takeWhile_append_of_pos whole, stops, List.append_nil]

theorem first_label_after (c : Char) (s : List Char) (other : labelChar c = false) :
    firstLabel (c :: s) = firstLabel s := by
  rw [firstLabel, List.dropWhile_cons_of_pos (by simp [other])]
  rfl

-- The first label behind the opening is the label of the heredoc, in every form.
theorem first_label_opening (label gap form lineEnd body : List Char) (isLabel : IsLabel label)
    (blanks : ∀ c ∈ gap, indent c = true) (written : LabelForm label form) (breaks : LineBreak lineEnd) :
    firstLabel (gap ++ (form ++ (lineEnd ++ body))) = label := by
  induction gap with
  | nil =>
      have ends : ∀ c ∈ (lineEnd ++ body).head?, labelChar c = false := by
        intro c head
        cases breaks with
        | lf => exact Option.some.inj head ▸ rfl
        | crlf => exact Option.some.inj head ▸ rfl
      have quoted : ∀ q, labelChar q = false → firstLabel (q :: (label ++ [q]) ++ (lineEnd ++ body)) = label := by
        intro q quote
        rw [List.cons_append, first_label_after q _ quote, List.append_assoc]
        exact first_label_here label _ isLabel fun c head => Option.some.inj head ▸ quote
      cases written with
      | bare => exact first_label_here label _ isLabel ends
      | double => exact quoted '"' rfl
      | single => exact quoted '\'' rfl
  | cons c gap ih =>
      have blank : labelChar c = false := by
        have indented := blanks c List.mem_cons_self
        simp only [indent, Bool.or_eq_true, beq_iff_eq] at indented
        rcases indented with rfl | rfl <;> rfl
      rw [List.cons_append, first_label_after c _ blank]
      exact ih fun d member => blanks d (List.mem_cons_of_mem c member)

theorem read_opener_foreign (label gap form lineEnd body : List Char) (isLabel : IsLabel label)
    (foreign : ¬ HeredocLabel label) (blanks : ∀ c ∈ gap, indent c = true) (written : LabelForm label form)
    (breaks : LineBreak lineEnd) :
    readOpener ('<' :: '<' :: '<' :: (gap ++ (form ++ (lineEnd ++ body)))) = none := by
  cases found : readOpener ('<' :: '<' :: '<' :: (gap ++ (form ++ (lineEnd ++ body)))) with
  | none => rfl
  | some opener =>
      obtain ⟨valid, gap', form', lineEnd', same, blanks', written', breaks'⟩ := read_opener _ opener found
      have theirs := first_label_opening opener.label gap' form' lineEnd' opener.cut.rest
        (heredoc_label_is_label opener.label valid) blanks' written' breaks'
      have ours := first_label_opening label gap form lineEnd body isLabel blanks written breaks
      have tails : gap ++ (form ++ (lineEnd ++ body)) = gap' ++ (form' ++ (lineEnd' ++ opener.cut.rest)) := by
        simpa using same
      rw [tails, theirs] at ours
      exact absurd (ours ▸ valid) foreign

/-! ### Whole or not at all -/

theorem read_code_angle (s : List Char) :
    readCode '<' s = match readOpener ('<' :: s) with
      | some opener => match pastClosing opener.label true opener.cut.rest with
        | some cut => .ok (.heredoc, cut.after opener.cut.text)
        | none => .error .heredoc
      | none => .ok (.symbol, ⟨['<'], s⟩) := rfl

theorem read_code_heredoc (label text rest : List Char) (isLabel : IsLabel label) (heredoc : HeredocText label text)
    (ends : ∀ c ∈ rest.head?, labelChar c = false) :
    ∃ s, text ++ rest = '<' :: s ∧ (HeredocLabel label → readCode '<' s = .ok (.heredoc, ⟨text, rest⟩)) ∧
      (¬ HeredocLabel label → readCode '<' s = .ok (.symbol, ⟨['<'], s⟩)) := by
  obtain ⟨gap, form, lineEnd, body, margin, blanks, written, breaks, inner, indented⟩ := heredoc
  refine ⟨'<' :: '<' :: (gap ++ (form ++ (lineEnd ++ (body ++ (margin ++ (label ++ rest)))))), ?_, ?_, ?_⟩
  · simp only [List.cons_append, List.append_assoc]
  · intro valid
    rw [read_code_angle, read_opener_complete label gap form lineEnd _ valid blanks written breaks]
    dsimp only
    rw [past_closing_body label valid body margin rest inner indented ends]
    simp only [Cut.after, List.cons_append, List.append_assoc]
  · intro foreign
    rw [read_code_angle, read_opener_foreign label gap form lineEnd _ isLabel foreign blanks written breaks]

theorem heredoc_whole_for_word_labels (source : String) (before : List Token) (label text rest : List Char)
    (isLabel : IsLabel label) (heredoc : HeredocText label text) (ends : ∀ c ∈ rest.head?, labelChar c = false)
    (code : CodeAt source before (text ++ rest)) :
    let line := 1 + newlines (tokenText before)
    (HeredocLabel label → ∃ after left,
      (tokenize source).tokens = before ++ ⟨.other, String.ofList text, line⟩ :: after ∧
        tokenText after ++ left = rest) ∧
    (¬ HeredocLabel label → ∃ after left,
      (tokenize source).tokens = before ++ ⟨.other, "<", line⟩ :: after ∧
        '<' :: (tokenText after ++ left) = text ++ rest) := by
  obtain ⟨s, begins, whole, foreign⟩ := read_code_heredoc label text rest isLabel heredoc ends
  rw [begins] at code ⊢
  refine ⟨fun valid => ?_, fun other => ?_⟩
  · exact code_token source before '<' s .heredoc ⟨text, rest⟩ code (whole valid) (by decide)
  · obtain ⟨after, left, tokens, text⟩ :=
      code_token source before '<' s .symbol ⟨['<'], s⟩ code (foreign other) (by decide)
    exact ⟨after, left, tokens, congrArg (List.cons '<') text⟩

-- A brace and a longer word that begins with the label in the body, and an indented closing line.
theorem heredoc_whole_for_indented_label :
    let source := "<?php <<<\"EOT\"\n\x7b\n EOTX\n  EOT;"
    let text := "<<<\"EOT\"\n\x7b\n EOTX\n  EOT".toList
    let before : List Token := [⟨.other, "<?php", 1⟩, ⟨.whitespace, " ", 1⟩]
    CodeAt source before (text ++ [';']) ∧ HeredocText "EOT".toList text ∧
      ∃ after left, (tokenize source).tokens = before ++ ⟨.other, String.ofList text, 1⟩ :: after ∧
        tokenText after ++ left = [';'] := by
  intro source text before
  have code : CodeAt source before (text ++ [';']) :=
    code_at_lexeme source [⟨.openTag, "<?php".toList⟩, ⟨.whitespace, [' ']⟩] ⟨.heredoc, text⟩ _ (by decide +kernel)
      rfl (by decide)
  have words : ['O', 'T'].all Text.wordChar = true := by decide +kernel
  have valid : HeredocLabel "EOT".toList := ⟨'E', ['O', 'T'], by decide, by decide, List.all_eq_true.mp words⟩
  have heredoc : HeredocText "EOT".toList text := by
    refine .written [] "\"EOT\"".toList ['\n'] "\x7b\n EOTX\n".toList [' ', ' '] (by simp) .double .lf
      (.lines "\x7b\n EOTX".toList ?_) (by simp [indent])
    rw [has_closing_line_iff]
    exact past_closing_none "EOT".toList true _ valid (by decide +kernel)
  have isLabel := heredoc_label_is_label _ valid
  have ends : ∀ c ∈ [';'].head?, labelChar c = false := fun c head => Option.some.inj head ▸ rfl
  have whole := heredoc_whole_for_word_labels source before _ text [';'] isLabel heredoc ends code
  exact ⟨code, heredoc, whole.1 valid⟩

-- With the label `é` the brace of the body is a brace of the code.
theorem accented_label_opens_nothing :
    let source := "<?php <<<é\n\x7b\né;"
    let text := "<<<é\n\x7b\né".toList
    let before : List Token := [⟨.other, "<?php", 1⟩, ⟨.whitespace, " ", 1⟩]
    (IsLabel ['é'] ∧ HeredocText ['é'] text ∧ CodeAt source before (text ++ [';'])) ∧
      (tokenize source).error = none ∧
      (tokenize source).tokens = before ++
        [⟨.other, "<", 1⟩, ⟨.other, "<", 1⟩, ⟨.other, "<", 1⟩, ⟨.identifier, "é", 1⟩, ⟨.whitespace, "\n", 1⟩,
          ⟨.openBrace, "\x7b", 2⟩, ⟨.whitespace, "\n", 2⟩, ⟨.identifier, "é", 3⟩, ⟨.other, ";", 3⟩] := by
  intro source text before
  have heredoc : HeredocText ['é'] text := by
    refine .written [] ['é'] ['\n'] "\x7b\n".toList [] (by simp) .bare .lf (.lines ['\x7b'] ?_) (by simp)
    rintro ⟨front, gap, after, split, -⟩
    have inside : 'é' ∈ ['\x7b'] := by simp [split]
    exact absurd inside (by decide)
  have code : CodeAt source before (text ++ [';']) :=
    code_at_lexeme source [⟨.openTag, "<?php".toList⟩, ⟨.whitespace, [' ']⟩] ⟨.symbol, ['<']⟩ _ (by decide +kernel)
      rfl (by decide)
  exact ⟨⟨⟨'é', [], rfl, by decide, by simp⟩, heredoc, code⟩, by decide +kernel⟩

end DocAudit.Php
