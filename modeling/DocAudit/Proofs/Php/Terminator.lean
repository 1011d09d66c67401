import DocAudit.Php.Lexeme

/-!
Constructs that need an end, said by their text alone. A reader that gives up on one of them has
met its opening, and no end of it follows.
-/

set_option autoImplicit false

namespace DocAudit.Php

def HasCommentEnd (s : List Char) : Prop := ∃ u v, s = u ++ '*' :: '/' :: v

theorem past_comment_end_none (s : List Char) (absent : pastCommentEnd s = none) :
    ¬ HasCommentEnd s := by
  rintro ⟨u, v, split⟩
  fun_induction pastCommentEnd s generalizing u with
  | case1 => simp at split
  | case2 s => simp at absent
  | case3 c s other ih =>
      cases u with
      | nil =>
          obtain ⟨rfl, rfl⟩ := List.cons.inj split
          exact other v rfl rfl
      | cons d u =>
          obtain ⟨-, tail⟩ := List.cons.inj split
          exact ih (Option.map_eq_none_iff.mp absent) u tail

/-! ### Strings -/

def trailingBackslashes (u : List Char) : Nat := (u.reverse.takeWhile (· == '\\')).length

-- A quote ends a string when an even number of backslashes stands right before it.
def HasStringEnd (q : Char) (s : List Char) : Prop :=
  ∃ u v, s = u ++ q :: v ∧ trailingBackslashes u % 2 = 0

-- A run of backslashes at the end does not reach past another character.
theorem trailing_backslashes_after (w : List Char) (c : Char) (u : List Char) (other : c ≠ '\\') :
    trailingBackslashes (w ++ c :: u) = trailingBackslashes u := by
  unfold trailingBackslashes
  rw [List.reverse_append, List.reverse_cons, List.append_assoc, List.takeWhile_append]
  split
  · rename_i full
    simp [other, full]
  · rfl

theorem trailing_backslashes_pair (c : Char) (u : List Char) :
    trailingBackslashes ('\\' :: c :: u) % 2 = trailingBackslashes u % 2 := by
  by_cases backslash : c = '\\'
  · subst backslash
    unfold trailingBackslashes
    rw [List.reverse_cons, List.reverse_cons, List.append_assoc, List.takeWhile_append]
    split
    · rename_i full
      simp [full]
    · rfl
  · exact congrArg (· % 2) (trailing_backslashes_after ['\\'] c u backslash)

theorem past_quote_none (q : Char) (s : List Char) (plain : q ≠ '\\')
    (absent : pastQuote q s = none) : ¬ HasStringEnd q s := by
  rintro ⟨u, v, split, even⟩
  fun_induction pastQuote q s generalizing u with
  | case1 => simp at split
  | case2 c s ih =>
      -- an escaped pair holds no end: its second character has one backslash before it
      cases u with
      | nil => exact plain (List.cons.inj split).1.symm
      | cons d u =>
          obtain ⟨rfl, rest⟩ := List.cons.inj split
          cases u with
          | nil => exact absurd even (by decide)
          | cons e u =>
              obtain ⟨rfl, tail⟩ := List.cons.inj rest
              rw [trailing_backslashes_pair] at even
              exact ih (Option.map_eq_none_iff.mp absent) u tail even
  | case3 s => simp at absent
  | case4 c s unpaired other ih =>
      cases u with
      | nil => exact other (List.cons.inj split).1
      | cons d u =>
          obtain ⟨rfl, tail⟩ := List.cons.inj split
          by_cases backslash : c = '\\'
          · cases s with
            | nil => simp at tail
            | cons e s => exact unpaired e s backslash rfl
          · have before : trailingBackslashes u % 2 = 0 :=
              (congrArg (· % 2) (trailing_backslashes_after [] c u backslash)).symm.trans even
            exact ih (Option.map_eq_none_iff.mp absent) u tail before

theorem quote_not_backslash (q : Char) (quote : isQuote q = true) : q ≠ '\\' := by
  rintro rfl
  exact absurd quote (by decide)

/-! ### Heredocs -/

def HeredocLabel (label : List Char) : Prop :=
  ∃ c w, label = c :: w ∧ asciiLabelStart c = true ∧ ∀ d ∈ w, Text.wordChar d = true

-- The label bare, in double quotes or in single quotes.
inductive LabelForm (label : List Char) : List Char → Prop where
  | bare : LabelForm label label
  | double : LabelForm label ('"' :: (label ++ ['"']))
  | single : LabelForm label ('\'' :: (label ++ ['\'']))

inductive LineBreak : List Char → Prop where
  | lf : LineBreak ['\n']
  | crlf : LineBreak ['\r', '\n']

structure HeredocOpening (label body s : List Char) : Prop where
  label_form : HeredocLabel label
  opens : ∃ gap form lineEnd, s = '<' :: '<' :: '<' :: (gap ++ (form ++ (lineEnd ++ body))) ∧
    (∀ c ∈ gap, indent c = true) ∧ LabelForm label form ∧ LineBreak lineEnd

-- Some line of the body is blanks and the label, and no label character follows.
def HasClosingLine (label body : List Char) : Prop :=
  ∃ before gap after, body = before ++ (gap ++ (label ++ after)) ∧
    (before = [] ∨ ∃ earlier, before = earlier ++ ['\n']) ∧
    (∀ c ∈ gap, indent c = true) ∧ ∀ c ∈ after.head?, labelChar c = false

-- The same of a text that may begin inside a line, which then cannot close.
def ClosesWithin (label : List Char) (lineStart : Bool) (s : List Char) : Prop :=
  ∃ before gap after, s = before ++ (gap ++ (label ++ after)) ∧
    ((before = [] ∧ lineStart = true) ∨ ∃ earlier, before = earlier ++ ['\n']) ∧
    (∀ c ∈ gap, indent c = true) ∧ ∀ c ∈ after.head?, labelChar c = false

theorem has_closing_line_iff (label body : List Char) : HasClosingLine label body ↔ ClosesWithin label true body := by
  simp only [HasClosingLine, ClosesWithin, and_true]

theorem run_class (p : Char → Bool) (s : List Char) : ∀ c ∈ (Cut.run p s).text, p c = true := by
  have all : (s.takeWhile p).all p = true := List.all_takeWhile
  exact List.all_eq_true.mp all

theorem read_heredoc_label (s : List Char) (cut : Cut) (found : readHeredocLabel s = some cut) :
    HeredocLabel cut.text := by
  cases s with
  | nil => simp [readHeredocLabel] at found
  | cons c s =>
      by_cases start : asciiLabelStart c = true
      · simp only [readHeredocLabel, start, if_true, Option.some.injEq] at found
        subst found
        exact ⟨c, (Cut.run Text.wordChar s).text, rfl, start, run_class Text.wordChar s⟩
      · simp [readHeredocLabel, start] at found

theorem read_quoted_label (q : Char) (s : List Char) (opener : Opener)
    (found : readQuotedLabel q s = some opener) :
    HeredocLabel opener.label ∧ opener.cut.text = q :: (opener.label ++ [q]) := by
  unfold readQuotedLabel at found
  cases label : readHeredocLabel s with
  | none => simp [label] at found
  | some cut =>
      simp only [label] at found
      split at found
      · split at found
        · cases found
          exact ⟨read_heredoc_label s cut label, rfl⟩
        · simp at found
      · simp at found

theorem read_opener_label (s : List Char) (opener : Opener)
    (found : readOpenerLabel s = some opener) :
    HeredocLabel opener.label ∧ LabelForm opener.label opener.cut.text := by
  unfold readOpenerLabel at found
  split at found
  · obtain ⟨label, text⟩ := read_quoted_label '"' _ opener found
    exact ⟨label, text ▸ .double⟩
  · obtain ⟨label, text⟩ := read_quoted_label '\'' _ opener found
    exact ⟨label, text ▸ .single⟩
  · obtain ⟨cut, label, rfl⟩ := Option.map_eq_some_iff.mp found
    exact ⟨read_heredoc_label _ cut label, .bare⟩

theorem read_line_break (s : List Char) (cut : Cut) (found : readLineBreak s = some cut) :
    LineBreak cut.text := by
  unfold readLineBreak at found
  split at found
  · cases found
    exact .lf
  · cases found
    exact .crlf
  · simp at found

theorem read_opener (s : List Char) (opener : Opener) (found : readOpener s = some opener) :
    HeredocOpening opener.label opener.cut.rest s := by
  unfold readOpener at found
  split at found
  · rename_i s
    cases labelled : readOpenerLabel (Cut.run indent s).rest with
    | none => simp [labelled] at found
    | some name =>
        simp only [labelled] at found
        obtain ⟨lineEnd, ended, rfl⟩ := Option.map_eq_some_iff.mp found
        obtain ⟨label, form⟩ := read_opener_label _ name labelled
        refine ⟨label, (Cut.run indent s).text, name.cut.text, lineEnd.text, ?_,
          run_class indent s, form, read_line_break _ lineEnd ended⟩
        have gapWhole := Cut.whole_run indent s
        have nameWhole := whole_readOpenerLabel labelled
        have lineWhole := whole_readLineBreak ended
        rw [Cut.whole] at gapWhole nameWhole lineWhole
        dsimp only [Cut.after]
        rw [lineWhole, nameWhole, gapWhole]
  · simp at found

theorem heredoc_label_not_indented (label after : List Char) (valid : HeredocLabel label) :
    ∃ c rest, label ++ after = c :: rest ∧ indent c = false := by
  obtain ⟨c, w, rfl, start, -⟩ := valid
  refine ⟨c, w ++ after, rfl, ?_⟩
  by_cases blank : c = ' ' ∨ c = '\t'
  · rcases blank with rfl | rfl <;> exact absurd start (by decide)
  · rw [not_or] at blank
    simp [indent, blank.1, blank.2]

theorem read_closing_found (label gap after : List Char) (valid : HeredocLabel label)
    (blanks : ∀ c ∈ gap, indent c = true) (ends : ∀ c ∈ after.head?, labelChar c = false) :
    readClosing label (gap ++ (label ++ after)) = some ⟨gap ++ label, after⟩ := by
  obtain ⟨c, rest, labelled, start⟩ := heredoc_label_not_indented label after valid
  have taken : (gap ++ (label ++ after)).takeWhile indent = gap := by
    rw [List.takeWhile_append_of_pos blanks, labelled]
    simp [start]
  have dropped : (gap ++ (label ++ after)).dropWhile indent = label ++ after := by
    rw [List.dropWhile_append_of_pos blanks, labelled]
    simp [start]
  have alone : after.head?.any labelChar = false := by
    cases head : after.head? with
    | none => rfl
    | some d => exact ends d (by simp [head])
  simp [readClosing, Cut.run, taken, dropped, alone]

theorem past_closing_none (label : List Char) (lineStart : Bool) (s : List Char) (valid : HeredocLabel label)
    (absent : pastClosing label lineStart s = none) : ¬ ClosesWithin label lineStart s := by
  fun_induction pastClosing label lineStart s with
  | case1 lineStart =>
      rintro ⟨before, gap, after, split, -⟩
      obtain ⟨c, w, rfl, -⟩ := valid
      simp at split
  | case2 lineStart c s cut found => simp at absent
  | case3 lineStart c s missing ih =>
      rintro ⟨before, gap, after, split, line, blanks, ends⟩
      cases before with
      | nil =>
          rcases line with ⟨-, rfl⟩ | ⟨earlier, impossible⟩
          · -- the line would have been read as the closing one
            have found := read_closing_found label gap after valid blanks ends
            rw [List.nil_append] at split
            rw [← split] at found
            simp [found] at missing
          · simp at impossible
      | cons d before =>
          obtain ⟨rfl, tail⟩ := List.cons.inj split
          refine ih (Option.map_eq_none_iff.mp absent) ⟨before, gap, after, tail, ?_, blanks, ends⟩
          rcases line with ⟨impossible, -⟩ | ⟨earlier, same⟩
          · simp at impossible
          · cases earlier with
            | nil =>
                obtain ⟨rfl, rfl⟩ := List.cons.inj same
                exact .inl ⟨rfl, rfl⟩
            | cons e earlier => exact .inr ⟨earlier, (List.cons.inj same).2⟩

/-! ### What a reader gives up on -/

def Unclosed : Unterminated → List Char → Prop
  | .comment, s => ∃ body, s = '/' :: '*' :: body ∧ ¬ HasCommentEnd body
  | .string, s => ∃ q body, s = q :: body ∧ isQuote q = true ∧ ¬ HasStringEnd q body
  | .heredoc, s => ∃ label body, HeredocOpening label body s ∧ ¬ HasClosingLine label body

theorem read_code_error (c : Char) (s : List Char) (e : Unterminated)
    (failed : readCode c s = .error e) : Unclosed e (c :: s) := by
  unfold readCode at failed
  split at failed
  · simp at failed
  split at failed
  · simp at failed
  split at failed
  · rename_i opening
    split at failed
    · simp at failed
    · rename_i absent
      cases failed
      refine ⟨s.tail, ?_, past_comment_end_none s.tail absent⟩
      rw [opening.1, ← head?_eq_some opening.2]
  split at failed
  · simp at failed
  split at failed
  · rename_i quote
    split at failed
    · simp at failed
    · rename_i absent
      cases failed
      exact ⟨c, s, rfl, quote, past_quote_none c s (quote_not_backslash c quote) absent⟩
  split at failed
  · rename_i opener found
    split at failed
    · simp at failed
    · rename_i absent
      cases failed
      have opening := read_opener (c :: s) opener found
      refine ⟨opener.label, opener.cut.rest, opening, ?_⟩
      rw [has_closing_line_iff]
      exact past_closing_none opener.label true opener.cut.rest opening.label_form absent
  · simp at failed

end DocAudit.Php
