import DocAudit.Proofs.Php.Crlf
import DocAudit.Proofs.Php.Terminator

/-!
Line endings and readers. Each reader cuts a text with `\r\n` at its line breaks where it cuts the
same text with `\n`.
-/

set_option autoImplicit false

namespace DocAudit.Php

/-! ### Comments -/

theorem past_comment_end_other (c : Char) (s : List Char) (other : c = '*' → s.head? ≠ some '/') :
    pastCommentEnd (c :: s) = (pastCommentEnd s).map (·.cons c) := by
  rw [pastCommentEnd]
  rintro v rfl rfl
  exact other rfl rfl

theorem past_comment_end_crlf (s : List Char) :
    pastCommentEnd (crlf s) = (pastCommentEnd s).map Cut.crlf := by
  fun_induction pastCommentEnd s with
  | case1 => rfl
  | case2 s => simp [crlf_cons, pastCommentEnd, Cut.crlf]
  | case3 c s other ih =>
      by_cases lineEnd : c = '\n'
      · subst lineEnd
        rw [crlf_break, past_comment_end_other _ _ (fun star => absurd star (by decide)),
          past_comment_end_other _ _ (fun star => absurd star (by decide)), ih]
        simp [Function.comp_def]
      · rw [crlf_cons c s lineEnd, past_comment_end_other, ih]
        · simp [Function.comp_def, Cut.crlf_cons c _ lineEnd]
        · intro star slash
          rw [crlf_head_iff s '/' (by decide) (by decide)] at slash
          exact other s.tail star (head?_eq_some slash)

theorem comment_shape_eq (text : List Char) :
    commentShape text =
      if text.head? = some '*' ∧ text.tail.head?.any layout then .docComment else .blockComment := by
  unfold commentShape
  split
  · simp
  · rename_i other
    rw [if_neg]
    rintro ⟨star, following⟩
    obtain ⟨c, here, -⟩ := (Option.any_eq_true _ _).mp following
    apply other c text.tail.tail
    rw [← head?_eq_some here, ← head?_eq_some star]

theorem comment_shape_crlf (text : List Char) : commentShape (crlf text) = commentShape text := by
  have star := crlf_head_iff text '*' (by decide) (by decide)
  rw [comment_shape_eq, comment_shape_eq]
  by_cases head : text.head? = some '*'
  · have other : text.head? ≠ some '\n' := by
      rw [head]
      decide
    rw [crlf_tail text other, crlf_head_any layout rfl, star.mpr head, head]
  · rw [if_neg (fun both => head (star.mp both.1)), if_neg (fun both => head both.1)]

theorem to_line_end_other (c : Char) (s : List Char) (other : c = '?' → s.head? ≠ some '>') :
    toLineEnd (c :: s) = if c = '\r' ∨ c = '\n' then ⟨[], c :: s⟩ else (toLineEnd s).cons c := by
  rw [toLineEnd]
  rintro v rfl rfl
  exact other rfl rfl

theorem to_line_end_crlf (s : List Char) : toLineEnd (crlf s) = (toLineEnd s).crlf := by
  fun_induction toLineEnd s with
  | case1 => rfl
  | case2 s => simp [crlf_cons, toLineEnd, Cut.crlf]
  | case3 c s other ending =>
      rcases ending with rfl | rfl
      · simp [crlf_cons, toLineEnd, Cut.crlf]
      · simp [toLineEnd, Cut.crlf]
  | case4 c s other inside ih =>
      have lineEnd : c ≠ '\n' := fun same => inside (.inr same)
      rw [crlf_cons c s lineEnd, to_line_end_other, if_neg inside, ih, Cut.crlf_cons c _ lineEnd]
      intro question close
      rw [crlf_head_iff s '>' (by decide) (by decide)] at close
      exact other s.tail question (head?_eq_some close)

/-! ### Strings -/

theorem past_quote_other (q c : Char) (s : List Char) (other : c = '\\' → s = []) :
    pastQuote q (c :: s) = if c = q then some ⟨[c], s⟩ else (pastQuote q s).map (·.cons c) := by
  rw [pastQuote]
  intro d v backslash pair
  rw [other backslash] at pair
  cases pair

theorem past_quote_crlf (q : Char) (quote : isQuote q = true) (s : List Char) :
    pastQuote q (crlf s) = (pastQuote q s).map Cut.crlf := by
  have unbroken : q ≠ '\n' ∧ q ≠ '\r' := by
    constructor
    · rintro rfl
      exact absurd quote (by decide)
    · rintro rfl
      exact absurd quote (by decide)
  have skip : ∀ v, pastQuote q ('\n' :: v) = (pastQuote q v).map (·.cons '\n') := by
    intro v
    rw [past_quote_other q '\n' v (fun backslash => absurd backslash (by decide)), if_neg (Ne.symm unbroken.1)]
  fun_induction pastQuote q s with
  | case1 => rfl
  | case2 c s ih =>
      by_cases lineEnd : c = '\n'
      · subst lineEnd
        rw [crlf_cons '\\' _ (by decide), crlf_break, pastQuote, skip, ih]
        simp [Function.comp_def, Cut.crlf_cons]
      · rw [crlf_cons '\\' _ (by decide), crlf_cons c s lineEnd, pastQuote, ih]
        simp [Function.comp_def, Cut.crlf_cons, lineEnd]
  | case3 s =>
      rw [crlf_cons q s unbroken.1, past_quote_other, if_pos rfl]
      · simp [Cut.crlf, crlf_cons q _ unbroken.1]
      · intro backslash
        exact absurd backslash (quote_not_backslash q quote)
  | case4 c s unpaired other ih =>
      by_cases lineEnd : c = '\n'
      · subst lineEnd
        rw [crlf_break, past_quote_other _ _ _ (fun backslash => absurd backslash (by decide)),
          if_neg (Ne.symm unbroken.2), skip, ih]
        simp [Function.comp_def]
      · rw [crlf_cons c s lineEnd, past_quote_other, if_neg other, ih]
        · simp [Function.comp_def, Cut.crlf_cons c _ lineEnd]
        · intro backslash
          cases s with
          | nil => rfl
          | cons d s => exact absurd rfl (unpaired d s backslash)

/-! ### Heredocs -/

theorem word_char_line_ending : Text.wordChar '\r' = false ∧ Text.wordChar '\n' = false := by
  decide +kernel

theorem heredoc_label_one_line (label : List Char) (valid : HeredocLabel label) :
    '\n' ∉ label ∧ '\r' ∉ label := by
  obtain ⟨c, w, rfl, start, rest⟩ := valid
  constructor
  · intro inside
    rcases List.mem_cons.mp inside with rfl | later
    · exact absurd start (by decide)
    · have word := rest _ later
      rw [word_char_line_ending.2] at word
      cases word
  · intro inside
    rcases List.mem_cons.mp inside with rfl | later
    · exact absurd start (by decide)
    · have word := rest _ later
      rw [word_char_line_ending.1] at word
      cases word

def Opener.crlf (opener : Opener) : Opener := ⟨opener.label, opener.cut.crlf⟩

theorem read_line_break_crlf (s : List Char) (plain : '\r' ∉ s) :
    readLineBreak (crlf s) = (readLineBreak s).map Cut.crlf := by
  cases s with
  | nil => rfl
  | cons c s =>
      rw [List.mem_cons, not_or] at plain
      by_cases lineEnd : c = '\n'
      · subst lineEnd
        rfl
      · have absent : ∀ v, readLineBreak (c :: v) = none := by
          intro v
          unfold readLineBreak
          split
          · rename_i same
            exact absurd (List.cons.inj same).1 lineEnd
          · rename_i same
            exact absurd (List.cons.inj same).1 (Ne.symm plain.1)
          · rfl
        rw [crlf_cons c s lineEnd, absent, absent]
        rfl

theorem read_heredoc_label_crlf (s : List Char) :
    readHeredocLabel (crlf s) = (readHeredocLabel s).map Cut.crlf := by
  cases s with
  | nil => rfl
  | cons c s =>
      by_cases lineEnd : c = '\n'
      · subst lineEnd
        rfl
      · have same : Text.wordChar '\r' = Text.wordChar '\n' := by
          rw [word_char_line_ending.1, word_char_line_ending.2]
        rw [crlf_cons c s lineEnd, readHeredocLabel, readHeredocLabel, Cut.run_crlf Text.wordChar same]
        split
        · rw [Option.map_some, Cut.crlf_cons c _ lineEnd]
        · rfl

theorem read_quoted_label_crlf (q : Char) (unbroken : q ≠ '\n' ∧ q ≠ '\r') (s : List Char) :
    readQuotedLabel q (crlf s) = (readQuotedLabel q s).map Opener.crlf := by
  rw [readQuotedLabel, readQuotedLabel, read_heredoc_label_crlf]
  cases found : readHeredocLabel s with
  | none => rfl
  | some label =>
      have oneLine := crlf_one_line _ (heredoc_label_one_line _ (read_heredoc_label s label found)).1
      have written : crlf (q :: (label.text ++ [q])) = q :: (label.text ++ [q]) := by
        simp [crlf_cons, unbroken.1, oneLine]
      dsimp only [Option.map_some, Cut.crlf]
      cases label.rest with
      | nil => rfl
      | cons c rest =>
          by_cases lineEnd : c = '\n'
          · subst lineEnd
            simp [Ne.symm unbroken.1, Ne.symm unbroken.2]
          · rw [crlf_cons c rest lineEnd]
            by_cases closes : c = q
            · simp [closes, Opener.crlf, Cut.crlf, written, oneLine]
            · simp [closes]

theorem read_opener_label_bare (s : List Char) (double : s.head? ≠ some '"') (single : s.head? ≠ some '\'') :
    readOpenerLabel s = (readHeredocLabel s).map fun cut => ⟨cut.text, cut⟩ := by
  unfold readOpenerLabel
  split
  · exact absurd rfl double
  · exact absurd rfl single
  · rfl

theorem read_opener_label_crlf (s : List Char) :
    readOpenerLabel (crlf s) = (readOpenerLabel s).map Opener.crlf := by
  have doubleHead := crlf_head_iff s '"' (by decide) (by decide)
  have singleHead := crlf_head_iff s '\'' (by decide) (by decide)
  by_cases double : s.head? = some '"'
  · rw [head?_eq_some double, crlf_cons _ _ (by decide)]
    exact read_quoted_label_crlf '"' (by decide) s.tail
  · by_cases single : s.head? = some '\''
    · rw [head?_eq_some single, crlf_cons _ _ (by decide)]
      exact read_quoted_label_crlf '\'' (by decide) s.tail
    · rw [read_opener_label_bare s double single, read_opener_label_bare (crlf s)
        (fun head => double (doubleHead.mp head)) (fun head => single (singleHead.mp head)),
        read_heredoc_label_crlf]
      cases found : readHeredocLabel s with
      | none => rfl
      | some label =>
          have oneLine := crlf_one_line _ (heredoc_label_one_line _ (read_heredoc_label s label found)).1
          simp [Opener.crlf, Cut.crlf, oneLine]

theorem read_opener_absent (s : List Char) (absent : ∀ v, s ≠ ['<', '<', '<'] ++ v) : readOpener s = none := by
  unfold readOpener
  split
  · rename_i v
    exact absurd rfl (absent v)
  · rfl

theorem read_opener_crlf (s : List Char) (plain : '\r' ∉ s) :
    readOpener (crlf s) = (readOpener s).map Opener.crlf := by
  by_cases opens : ∃ v, s = ['<', '<', '<'] ++ v
  · obtain ⟨v, rfl⟩ := opens
    have opening : crlf (['<', '<', '<'] ++ v) = '<' :: '<' :: '<' :: crlf v := by simp [crlf_cons]
    rw [opening, List.cons_append, List.cons_append, List.cons_append, List.nil_append, readOpener, readOpener,
      Cut.run_crlf indent rfl]
    dsimp only [Cut.crlf]
    rw [read_opener_label_crlf]
    cases found : readOpenerLabel (Cut.run indent v).rest with
    | none => rfl
    | some opener =>
        have left : '\r' ∉ opener.cut.rest := by
          intro inside
          have whole := whole_readOpenerLabel found
          have rest : '\r' ∈ (Cut.run indent v).rest := by
            rw [← whole]
            exact List.mem_append_right _ inside
          exact plain (List.mem_append_right _ ((List.dropWhile_sublist indent).mem rest))
        dsimp only [Option.map_some, Opener.crlf, Cut.crlf]
        rw [read_line_break_crlf opener.cut.rest left]
        cases readLineBreak opener.cut.rest with
        | none => rfl
        | some br => simp [Opener.crlf, Cut.crlf, Cut.after, crlf_cons]
  · have absent : ∀ v, crlf s ≠ ['<', '<', '<'] ++ v := by
      intro v same
      obtain ⟨w, front, -⟩ := crlf_front ['<', '<', '<'] s v (by decide) (by decide) same
      exact opens ⟨w, front⟩
    rw [read_opener_absent (crlf s) absent, read_opener_absent s (fun v same => opens ⟨v, same⟩)]
    rfl

theorem read_closing_front (label s after : List Char) (front : (Cut.run indent s).rest = label ++ after) :
    readClosing label s =
      if after.head?.any labelChar then none else some ⟨(Cut.run indent s).text ++ label, after⟩ := by
  cases further : after.head?.any labelChar <;> simp [readClosing, front, further]

theorem read_closing_absent (label s : List Char) (absent : ∀ after, (Cut.run indent s).rest ≠ label ++ after) :
    readClosing label s = none := by
  rw [readClosing, if_neg]
  rintro ⟨front, -⟩
  obtain ⟨after, same⟩ := List.isPrefixOf_iff_prefix.mp front
  exact absent after same.symm

theorem read_closing_crlf (label s : List Char) (valid : HeredocLabel label) :
    readClosing label (crlf s) = (readClosing label s).map Cut.crlf := by
  obtain ⟨oneLine, plain⟩ := heredoc_label_one_line label valid
  have gap := Cut.run_crlf indent rfl s
  by_cases front : ∃ after, (Cut.run indent s).rest = label ++ after
  · obtain ⟨after, rest⟩ := front
    have also : (Cut.run indent (crlf s)).rest = label ++ crlf after := by
      rw [gap, Cut.crlf, rest, crlf_append, crlf_one_line label oneLine]
    rw [read_closing_front label s after rest, read_closing_front label (crlf s) (crlf after) also,
      crlf_head_any labelChar rfl, gap]
    split
    · rfl
    · simp [Cut.crlf, crlf_one_line label oneLine]
  · have absent : ∀ after, (Cut.run indent (crlf s)).rest ≠ label ++ after := by
      intro after same
      rw [gap] at same
      obtain ⟨w, rest, -⟩ := crlf_front label _ after oneLine plain same
      exact front ⟨w, rest⟩
    rw [read_closing_absent label (crlf s) absent,
      read_closing_absent label s (fun after same => front ⟨after, same⟩)]
    rfl

theorem read_closing_at_break (label v : List Char) (c : Char) (valid : HeredocLabel label)
    (blank : indent c = false) (ending : asciiLabelStart c = false) : readClosing label (c :: v) = none := by
  obtain ⟨d, w, rfl, start, -⟩ := valid
  apply read_closing_absent
  intro after same
  simp only [Cut.run, List.dropWhile_cons, blank, Bool.false_eq_true, if_false, List.cons_append] at same
  rw [(List.cons.inj same).1, start] at ending
  cases ending

theorem past_closing_crlf (label : List Char) (valid : HeredocLabel label) (lineStart : Bool) (s : List Char) :
    pastClosing label lineStart (crlf s) = (pastClosing label lineStart s).map Cut.crlf := by
  induction s generalizing lineStart with
  | nil => rfl
  | cons c s ih =>
      by_cases lineEnd : c = '\n'
      · subst lineEnd
        -- neither character of the line ending begins a closing line
        have here := read_closing_at_break label s '\n' valid rfl rfl
        have there := read_closing_at_break label ('\n' :: crlf s) '\r' valid rfl rfl
        rw [crlf_break, pastClosing, pastClosing, pastClosing, here, there]
        simp [ih true, Function.comp_def]
      · have closing : (if lineStart then readClosing label (c :: crlf s) else none) =
            (if lineStart then readClosing label (c :: s) else none).map Cut.crlf := by
          rw [← crlf_cons c s lineEnd, read_closing_crlf label (c :: s) valid]
          split <;> rfl
        rw [crlf_cons c s lineEnd, pastClosing, pastClosing, closing, ih]
        cases (if lineStart then readClosing label (c :: s) else none) with
        | some cut => rfl
        | none => simp [Function.comp_def, Cut.crlf_cons c _ lineEnd]

/-! ### Symbols, names and numbers -/

theorem crlf_arrow (s : List Char) : (crlf s).take 2 = ['-', '>'] ↔ s.take 2 = ['-', '>'] := by
  constructor
  · intro found
    have front : crlf s = ['-', '>'] ++ (crlf s).drop 2 := by rw [← found, List.take_append_drop]
    obtain ⟨w, rfl, -⟩ := crlf_front ['-', '>'] s _ (by decide) (by decide) front
    rfl
  · intro found
    have front : s = ['-', '>'] ++ s.drop 2 := by rw [← found, List.take_append_drop]
    rw [front]
    simp [crlf_cons]

theorem read_symbol_crlf (c : Char) (s : List Char) (other : c ≠ '\n') :
    readSymbol c (crlf s) = (readSymbol c s).crlf := by
  simp only [readSymbol, crlf_arrow, crlf_head_iff s '>' (by decide) (by decide),
    crlf_head_iff s ':' (by decide) (by decide), crlf_head_iff s '[' (by decide) (by decide)]
  split
  · rename_i arrow
    have front : s = '-' :: '>' :: s.drop 2 := by
      rw [← List.take_append_drop 2 s, arrow.2]
      rfl
    rw [front]
    simp [crlf_cons, Cut.crlf]
  split
  · rename_i arrow
    simp [Cut.crlf, crlf_cons, crlf_tail s (by rw [arrow.2]; decide)]
  split
  · rename_i colons
    simp [Cut.crlf, crlf_cons, crlf_tail s (by rw [colons.2]; decide)]
  split
  · rename_i group
    simp [Cut.crlf, crlf_cons, crlf_tail s (by rw [group.2]; decide)]
  · simp [Cut.crlf, crlf_cons, other]

theorem read_plain_crlf (c : Char) (s : List Char) (other : c ≠ '\n') :
    readPlain c (crlf s) = ((readPlain c s).1, (readPlain c s).2.crlf) := by
  have single : (⟨[c], crlf s⟩ : Cut) = Cut.crlf ⟨[c], s⟩ := by simp [Cut.crlf, crlf_cons, other]
  simp only [readPlain, crlf_head_any labelStart rfl, Cut.run_crlf labelChar rfl, Cut.run_crlf numberChar rfl,
    ← Cut.crlf_cons c _ other, read_symbol_crlf c s other, single]
  repeat' split
  all_goals rfl

/-! ### Code and markup -/

def readImage (result : Shape × Cut) : Shape × Cut := (result.1, result.2.crlf)

theorem read_code_break_crlf (s : List Char) :
    readCode '\r' ('\n' :: crlf s) = (readCode '\n' s).map readImage := by
  have run : Cut.run layout ('\n' :: crlf s) = (Cut.run layout s).crlf.cons '\n' := by
    rw [← Cut.run_crlf layout rfl]
    rfl
  have here : readCode '\n' s = .ok (.whitespace, (Cut.run layout s).cons '\n') := rfl
  have there : readCode '\r' ('\n' :: crlf s) =
      .ok (.whitespace, (Cut.run layout ('\n' :: crlf s)).cons '\r') := rfl
  rw [here, there, run]
  rfl

theorem read_code_other_crlf (c : Char) (s : List Char) (other : c ≠ '\n') (plain : '\r' ∉ c :: s) :
    readCode c (crlf s) = (readCode c s).map readImage := by
  simp only [readCode, crlf_head_iff s '>' (by decide) (by decide), crlf_head_iff s '*' (by decide) (by decide),
    crlf_head_iff s '/' (by decide) (by decide), crlf_head_iff s '[' (by decide) (by decide), ne_eq]
  split
  · rw [Cut.run_crlf layout rfl, ← Cut.crlf_cons c _ other]
    rfl
  split
  · rename_i close
    rw [crlf_tail s (by rw [close.2]; decide)]
    rfl
  split
  · rename_i opening
    rw [crlf_tail s (by rw [opening.2]; decide), past_comment_end_crlf]
    cases pastCommentEnd s.tail with
    | none => rfl
    | some cut =>
        dsimp only [Option.map_some, Except.map, readImage]
        rw [Cut.crlf_cons '/' _ (by decide), Cut.crlf_cons '*' _ (by decide)]
        exact congrArg _ (congrArg (·, _) (comment_shape_crlf cut.text))
  split
  · rw [to_line_end_crlf, ← Cut.crlf_cons c _ other]
    rfl
  split
  · rename_i quote
    rw [past_quote_crlf c quote]
    cases pastQuote c s with
    | none => rfl
    | some cut =>
        dsimp only [Option.map_some, Except.map, readImage]
        rw [Cut.crlf_cons c _ other]
  · rw [← crlf_cons c s other, read_opener_crlf (c :: s) plain]
    cases opens : readOpener (c :: s) with
    | none =>
        dsimp only [Option.map_none, Except.map, readImage]
        rw [read_plain_crlf c s other]
    | some opener =>
        have valid := (read_opener (c :: s) opener opens).label_form
        dsimp only [Option.map_some, Opener.crlf, Cut.crlf]
        rw [past_closing_crlf opener.label valid]
        cases pastClosing opener.label true opener.cut.rest with
        | none => rfl
        | some cut =>
            dsimp only [Option.map_some, Except.map, readImage]
            rw [Cut.crlf_after]

-- The reader takes a first character and the rest, so the image of a text is taken apart too.
theorem read_code_crlf (c d : Char) (s v : List Char) (plain : '\r' ∉ c :: s) (image : crlf (c :: s) = d :: v) :
    readCode d v = (readCode c s).map readImage := by
  by_cases lineEnd : c = '\n'
  · subst lineEnd
    obtain ⟨rfl, rfl⟩ := List.cons.inj image
    exact read_code_break_crlf s
  · rw [crlf_cons c s lineEnd] at image
    obtain ⟨rfl, rfl⟩ := List.cons.inj image
    exact read_code_other_crlf c s lineEnd plain

theorem read_open_tag_absent (s : List Char) (echo : ∀ v, s ≠ ['<', '?', '='] ++ v)
    (php : ∀ name v, name.map Text.lowerAscii = ['p', 'h', 'p'] → s ≠ '<' :: '?' :: name ++ v) :
    readOpenTag s = none := by
  unfold readOpenTag
  split
  · rename_i v
    exact absurd rfl (echo v)
  · rename_i p h q v _
    rw [if_neg]
    rintro ⟨name, -⟩
    exact php [p, h, q] v name rfl
  · rfl

theorem php_name_one_line (name : List Char) (spelled : name.map Text.lowerAscii = ['p', 'h', 'p']) :
    '\n' ∉ name ∧ '\r' ∉ name := by
  have lowered : ∀ c ∈ name, Text.lowerAscii c ∈ ['p', 'h', 'p'] := by
    intro c inside
    rw [← spelled]
    exact List.mem_map_of_mem inside
  exact ⟨fun inside => absurd (lowered _ inside) (by decide), fun inside => absurd (lowered _ inside) (by decide)⟩

theorem read_open_tag_php (name v : List Char) (spelled : name.map Text.lowerAscii = ['p', 'h', 'p']) :
    readOpenTag ('<' :: '?' :: name ++ v) =
      if v.head?.all Text.blank then some ⟨'<' :: '?' :: name, v⟩ else none := by
  have letters := spelled
  obtain ⟨p, rest, rfl, first, letters⟩ := List.map_eq_cons_iff.mp letters
  obtain ⟨h, rest, rfl, -, letters⟩ := List.map_eq_cons_iff.mp letters
  obtain ⟨q, rest, rfl, -, letters⟩ := List.map_eq_cons_iff.mp letters
  obtain rfl := List.map_eq_nil_iff.mp letters
  have plain : p ≠ '=' := by
    rintro rfl
    exact absurd first (by decide)
  simp only [List.cons_append, List.nil_append]
  rw [readOpenTag]
  · simp [spelled]
  · exact plain

theorem read_open_tag_crlf (s : List Char) : readOpenTag (crlf s) = (readOpenTag s).map Cut.crlf := by
  by_cases echo : ∃ v, s = ['<', '?', '='] ++ v
  · obtain ⟨v, rfl⟩ := echo
    rw [crlf_append]
    rfl
  · by_cases php : ∃ name v, name.map Text.lowerAscii = ['p', 'h', 'p'] ∧ s = '<' :: '?' :: name ++ v
    · obtain ⟨name, v, spelled, rfl⟩ := php
      have oneLine : crlf ('<' :: '?' :: name) = '<' :: '?' :: name := by
        simp [crlf_cons, crlf_one_line name (php_name_one_line name spelled).1]
      have blank : (crlf v).head?.all Text.blank = v.head?.all Text.blank := by
        simpa [Option.all_map, Function.comp_def] using
          congrArg (Option.all id) (crlf_head_test Text.blank rfl v)
      rw [crlf_append, oneLine, read_open_tag_php name v spelled, read_open_tag_php name (crlf v) spelled, blank]
      split
      · simp [Cut.crlf, oneLine]
      · rfl
    · rw [read_open_tag_absent s (fun v same => echo ⟨v, same⟩)
        (fun name v spelled same => php ⟨name, v, spelled, same⟩), read_open_tag_absent]
      · rfl
      · intro v same
        obtain ⟨w, front, -⟩ := crlf_front ['<', '?', '='] s v (by decide) (by decide) same
        exact echo ⟨w, front⟩
      · intro name v spelled same
        obtain ⟨oneLine, plain⟩ := php_name_one_line name spelled
        obtain ⟨w, front, -⟩ := crlf_front ('<' :: '?' :: name) s v (by simp [oneLine]) (by simp [plain]) same
        exact php ⟨name, w, spelled, front⟩

theorem to_open_tag_crlf (s : List Char) : toOpenTag (crlf s) = (toOpenTag s).crlf := by
  induction s with
  | nil => rfl
  | cons c s ih =>
      by_cases lineEnd : c = '\n'
      · subst lineEnd
        have here : toOpenTag ('\n' :: s) = (toOpenTag s).cons '\n' := rfl
        have there : toOpenTag ('\r' :: '\n' :: crlf s) = ((toOpenTag (crlf s)).cons '\n').cons '\r' := rfl
        rw [crlf_break, here, there, ih, Cut.crlf_break]
      · rw [crlf_cons c s lineEnd, toOpenTag, toOpenTag, ← crlf_cons c s lineEnd, read_open_tag_crlf,
          Option.isSome_map, ih, ← Cut.crlf_cons c _ lineEnd]
        split <;> rfl

end DocAudit.Php
