import DocAudit.Proofs.Php.NameContext
import DocAudit.Proofs.Text.LetterCase

/-!
Keywords in another case. The lexer compares words in lower case and cuts texts at characters that
are no letters, so a source with some letters of its keywords in the other case is cut at the same
places, into lexemes of the same shapes.
-/

set_option autoImplicit false

namespace DocAudit.Php

open Text (SameLetters Caseless)

theorem ascii_label_start_caseless : Caseless asciiLabelStart := Text.caseless_of_letters _ (by decide)

theorem word_char_caseless : Caseless Text.wordChar := Text.caseless_of_letters _ (by decide +kernel)

theorem all_same (p : Char → Bool) (caseless : Caseless p) (s v : List Char) (same : SameLetters s v)
    (inside : ∀ c ∈ s, p c = true) : ∀ c ∈ v, p c = true := by
  have all := Text.same_letters_all p caseless s v same
  rw [List.all_eq_true.mpr inside] at all
  exact List.all_eq_true.mp all.symm

/-! ### Openers and tags -/

theorem heredoc_label_recased (label other : List Char) (same : SameLetters label other) (valid : HeredocLabel label) :
    HeredocLabel other := by
  obtain ⟨c, w, rfl, start, word⟩ := valid
  obtain ⟨d, v, rfl, first, rest⟩ := Text.same_letters_first c w other same
  refine ⟨d, v, rfl, ?_, all_same Text.wordChar word_char_caseless w v rest word⟩
  exact Text.caseless_same asciiLabelStart ascii_label_start_caseless c d first ▸ start

theorem label_form_recased (label form other : List Char) (same : SameLetters form other) (valid : HeredocLabel label)
    (written : LabelForm label form) : ∃ also, HeredocLabel also ∧ LabelForm also other := by
  have quoted : ∀ q : Char, q.isAlpha = false → SameLetters (q :: (label ++ [q])) other →
      ∃ also, HeredocLabel also ∧ other = q :: (also ++ [q]) := by
    intro q plain letters
    obtain ⟨d, v, rfl, first, rest⟩ := Text.same_letters_first q _ other letters
    obtain ⟨also, back, rfl, front, last⟩ := Text.same_letters_split label [q] v rest
    obtain rfl := Text.same_letter_plain q d plain first
    obtain rfl := Text.same_letters_plain [d] back (by simp [plain]) last
    exact ⟨also, heredoc_label_recased label also front valid, rfl⟩
  cases written with
  | bare => exact ⟨other, heredoc_label_recased label other same valid, .bare⟩
  | double =>
      obtain ⟨also, label, rfl⟩ := quoted '"' (by decide) same
      exact ⟨also, label, .double⟩
  | single =>
      obtain ⟨also, label, rfl⟩ := quoted '\'' (by decide) same
      exact ⟨also, label, .single⟩

theorem read_opener_recased (s v : List Char) (same : SameLetters s v) (found : (readOpener s).isSome = true) :
    (readOpener v).isSome = true := by
  obtain ⟨opener, opens⟩ := Option.isSome_iff_exists.mp found
  obtain ⟨valid, gap, form, lineEnd, rfl, blanks, written, breaks⟩ := read_opener s opener opens
  have blank : gap.any Char.isAlpha = false := by
    rw [List.any_eq_false]
    intro c inside
    have indented := blanks c inside
    simp only [indent, Bool.or_eq_true, beq_iff_eq] at indented
    rcases indented with rfl | rfl <;> decide
  have plain : lineEnd.any Char.isAlpha = false := by cases breaks <;> rfl
  obtain ⟨angles, rest, rfl, first, same⟩ := Text.same_letters_split ['<', '<', '<'] _ v same
  obtain ⟨gap', rest, rfl, second, same⟩ := Text.same_letters_split gap _ rest same
  obtain ⟨other, rest, rfl, third, same⟩ := Text.same_letters_split form _ rest same
  obtain ⟨lineEnd', body, rfl, fourth, -⟩ := Text.same_letters_split lineEnd _ rest same
  obtain rfl := Text.same_letters_plain _ angles (by decide) first
  obtain rfl := Text.same_letters_plain gap gap' blank second
  obtain rfl := Text.same_letters_plain lineEnd lineEnd' plain fourth
  obtain ⟨label, also, form⟩ := label_form_recased opener.label form other third valid written
  have again := read_opener_complete label gap' other lineEnd' body also blanks form breaks
  rw [List.cons_append, List.cons_append, List.cons_append, List.nil_append, again]
  rfl

theorem opens_code_recased (tag rest other behind : List Char) (name : SameLetters tag other)
    (same : SameLetters rest behind) (opens : OpensCode tag rest) : OpensCode other behind := by
  rcases opens with rfl | ⟨spelled, blank⟩
  · exact .inl (Text.same_letters_plain _ other (by decide) name)
  · have blanks := Text.same_letters_head_class Text.blank blank_caseless rest behind same true blank
    exact .inr ⟨name.symm.trans spelled, blanks⟩

theorem read_open_tag_recased (s v : List Char) (same : SameLetters s v) (found : (readOpenTag s).isSome = true) :
    (readOpenTag v).isSome = true := by
  obtain ⟨cut, tag⟩ := Option.isSome_iff_exists.mp found
  rw [← (whole_readOpenTag tag).1] at same
  obtain ⟨other, behind, rfl, name, rest⟩ := Text.same_letters_split cut.text cut.rest v same
  have opens := opens_code_recased _ _ other behind name rest (read_open_tag_opens s cut tag)
  rw [read_open_tag_complete other behind opens]
  rfl

-- The lexer looks ahead at no case of letters.
theorem letters_ahead (x y : List Char) (same : SameLetters x y) : SameAhead x y := by
  have front : ∀ n, SameLetters (x.take n) (y.take n) := by
    intro n
    rw [SameLetters, List.map_take, List.map_take, same]
  refine ⟨front 1, ?_, ?_, ?_⟩
  · intro c mark
    have plain : [c, '>'].any Char.isAlpha = false := by
      simp only [List.mem_cons, List.not_mem_nil, or_false] at mark
      rcases mark with rfl | rfl <;> rfl
    exact Text.same_letters_mark [c, '>'] _ _ plain (front 2)
  · intro text
    have whole := Text.same_letters_append text x text y rfl same
    rw [Bool.eq_iff_iff]
    exact ⟨read_opener_recased _ _ whole.symm, read_opener_recased _ _ whole⟩
  · intro text
    have whole := Text.same_letters_append text x text y rfl same
    rw [Bool.eq_iff_iff]
    exact ⟨read_open_tag_recased _ _ whole.symm, read_open_tag_recased _ _ whole⟩

/-! ### Names -/

theorem read_code_label (c : Char) (s : List Char) (start : labelStart c = true) :
    readCode c s = .ok (.name, (Cut.run labelChar s).cons c) := by
  have other : ∀ m, labelStart m = false → c ≠ m := by
    rintro m no rfl
    rw [start] at no
    cases no
  have blank : layout c = false := by
    simp [layout, other ' ' rfl, other '\t' rfl, other '\r' rfl, other '\n' rfl]
  have quote : isQuote c = false := by
    simp [isQuote, other '\'' rfl, other '"' rfl, other backtick rfl]
  have opener : readOpener (c :: s) = none := by
    rw [readOpener]
    intro rest same
    exact absurd (List.cons.inj same).1 (other '<' rfl)
  simp [readCode, readPlain, blank, quote, opener, start, other '?' rfl, other '/' rfl, other '#' rfl, other '{' rfl,
    other '}' rfl, other '$' rfl]

-- A name is read in any case.
theorem read_name_recased (c : Char) (s : List Char) (cut : Cut) (found : readCode c s = .ok (.name, cut))
    (text other : List Char) (label : SameLetters cut.text text) (same : SameLetters cut.rest other) :
    ∃ d v, text ++ other = d :: v ∧ readCode d v = .ok (.name, ⟨text, other⟩) := by
  obtain ⟨first, w, begins, start, inside⟩ := (read_code_written c s .name cut found).spelling
  have whole := (whole_readCode found).1
  rw [Cut.whole, begins, List.cons_append] at whole
  obtain rfl := (List.cons.inj whole).1
  have stops := run_stops labelChar s
  rw [read_code_label first s start] at found
  obtain ⟨-, rfl⟩ := Prod.mk.inj (Except.ok.inj found)
  rw [begins] at label
  obtain ⟨d, v, rfl, letter, letters⟩ := Text.same_letters_first first w text label
  refine ⟨d, v ++ other, rfl, ?_⟩
  have also : labelStart d = true := Text.caseless_same labelStart label_start_caseless first d letter ▸ start
  rw [read_code_label d _ also, run_exact labelChar v other]
  · rfl
  · exact all_same labelChar label_char_caseless w v letters inside
  · exact Text.same_letters_head_class labelChar label_char_caseless _ other same false stops

/-! ### Steps and runs -/

-- The same lexeme, but for the case of letters in a keyword.
structure Lexeme.Recased (l k : Lexeme) : Prop where
  shape : k.shape = l.shape
  text : k.text = l.text ∨ (l.shape = .keyword ∧ SameLetters l.text k.text)

theorem recased_letters (l k : Lexeme) (recased : l.Recased k) : SameLetters l.text k.text := by
  rcases recased.text with same | ⟨-, letters⟩
  · rw [same]
    rfl
  · exact letters

-- The lexer keeps the last word in the case it was read in, and compares it lowered.
structure Mode.Recased (m n : Mode) : Prop where
  region : n.region = m.region
  halting : n.halting = m.halting
  last : Text.lower n.last = Text.lower m.last

section

variable (m n : Mode) (modes : m.Recased n) (shape : Shape) (text other : List Char) (same : SameLetters text other)

include same

theorem lower_recased : Text.lower (String.ofList other) = Text.lower (String.ofList text) := by
  apply Text.lower_same_letters
  rw [String.toList_ofList, String.toList_ofList]
  exact same.symm

include modes

theorem settle_recased : n.settle shape (String.ofList other) = m.settle shape (String.ofList text) := by
  rw [Mode.settle, Mode.settle, isReserved, isReserved, lower_recased text other same, modes.last]

theorem after_code_recased :
    Mode.Recased (m.afterCode shape (String.ofList text)) (n.afterCode shape (String.ofList other)) := by
  have semicolon : String.ofList other = ";" ↔ String.ofList text = ";" := by
    have chars : ";" = String.ofList [';'] := rfl
    rw [chars, String.ofList_inj, String.ofList_inj]
    exact Text.same_letters_mark [';'] text other (by decide) same
  have lower := lower_recased text other same
  refine ⟨?_, ?_, ?_⟩
  · simp only [Mode.afterCode, modes.halting, lower, semicolon]
  · simp only [Mode.afterCode, modes.halting, lower]
  · simp only [Mode.afterCode]
    split
    · exact modes.last
    · exact lower

end

-- A mode that differs in the case of the last word reads the same.
theorem step_mode_recased (m n : Mode) (modes : m.Recased n) (c : Char) (s : List Char) (step : Step)
    (read : m.step c s = .ok step) :
    ∃ next, n.step c s = .ok ⟨step.lexeme, step.rest, next⟩ ∧ step.mode.Recased next := by
  cases step_cases m c s step read with
  | data region => exact ⟨n, step_of_case n c s _ (.data (modes.region.trans region)), modes⟩
  | markup region absent => exact ⟨n, step_of_case n c s _ (.markup (modes.region.trans region) absent), modes⟩
  | openTag region cut found =>
      have again := step_of_case n c s _ (.openTag (modes.region.trans region) cut found)
      exact ⟨_, again, rfl, modes.halting, modes.last⟩
  | code region shape cut found =>
      have again := step_of_case n c s _ (.code (modes.region.trans region) shape cut found)
      rw [settle_recased m n modes shape cut.text cut.text rfl] at again
      exact ⟨_, again, after_code_recased m n modes _ cut.text cut.text rfl⟩

theorem step_keyword_recased (m n : Mode) (modes : m.Recased n) (c : Char) (s text other : List Char) (step : Step)
    (read : m.step c s = .ok step) (keyword : step.lexeme.shape = .keyword)
    (letters : SameLetters step.lexeme.text text) (same : SameLetters step.rest other) :
    ∃ d v next, text ++ other = d :: v ∧ n.step d v = .ok ⟨⟨step.lexeme.shape, text⟩, other, next⟩ ∧
      step.mode.Recased next := by
  cases step_cases m c s step read with
  | data region => cases keyword
  | markup region absent => cases keyword
  | openTag region cut found => cases keyword
  | code region shape cut found =>
      have name : shape = .name := by
        by_contra no
        dsimp only at keyword
        rw [Mode.settle, if_neg (fun both => no both.1)] at keyword
        exact read_code_unreserved c s shape cut found keyword
      subst name
      obtain ⟨d, v, begins, found⟩ := read_name_recased c s cut found text other letters same
      have again := step_of_case n d v _ (.code (modes.region.trans region) .name _ found)
      rw [settle_recased m n modes .name cut.text text letters] at again
      exact ⟨d, v, _, begins, again, after_code_recased m n modes _ cut.text text letters⟩

-- A keyword is read again in its new case, and all else as it was.
theorem step_recased (m n : Mode) (c : Char) (s other : List Char) (step : Step) (k : Lexeme) (modes : m.Recased n)
    (read : m.step c s = .ok step) (recased : step.lexeme.Recased k) (same : SameLetters step.rest other) :
    ∃ d v next, k.text ++ other = d :: v ∧ n.step d v = .ok ⟨k, other, next⟩ ∧ step.mode.Recased next := by
  obtain ⟨whole, filled⟩ := Mode.whole_step read
  obtain ⟨shape, text⟩ := k
  obtain ⟨rfl, unchanged | ⟨keyword, letters⟩⟩ := recased
  · obtain ⟨⟨shape, front⟩, rest, after⟩ := step
    obtain rfl : text = front := unchanged
    obtain ⟨d, t, rfl⟩ := List.exists_cons_of_ne_nil filled
    obtain ⟨rfl, rfl⟩ := List.cons.inj whole
    have again := step_ahead m after d t rest other shape (letters_ahead rest other same) read
    obtain ⟨next, read, modes⟩ := step_mode_recased m n modes d (t ++ other) _ again
    exact ⟨d, t ++ other, next, rfl, read, modes⟩
  · exact step_keyword_recased m n modes c s text other step read keyword letters same

theorem lexeme_text_recased (ls ks : List Lexeme) (recased : List.Forall₂ Lexeme.Recased ls ks) :
    SameLetters (lexemeText ls) (lexemeText ks) := by
  induction recased with
  | nil => rfl
  | cons first rest ih =>
      rw [lexeme_text_cons, lexeme_text_cons]
      exact Text.same_letters_append _ _ _ _ (recased_letters _ _ first) ih

-- A whole run is read again, keyword by keyword in the new case.
theorem reads_recased (m last n : Mode) (s rest : List Char) (ls ks : List Lexeme) (run : Reads m s ls last rest)
    (modes : m.Recased n) (recased : List.Forall₂ Lexeme.Recased ls ks) :
    ∃ final, Reads n (lexemeText ks ++ rest) ks final rest := by
  induction run generalizing n ks with
  | stop m s =>
      cases recased
      exact ⟨n, .stop n s⟩
  | next m last c s rest step ls read run ih =>
      cases recased with
      | cons first later =>
          rename_i k ks
          have same : SameLetters step.rest (lexemeText ks ++ rest) := by
            rw [← reads_text _ _ _ _ ls run]
            exact Text.same_letters_append _ _ _ _ (lexeme_text_recased ls ks later) rfl
          obtain ⟨d, v, next, whole, again, modes⟩ := step_recased m n c s _ step k modes read first same
          obtain ⟨final, further⟩ := ih next ks modes later
          refine ⟨final, ?_⟩
          rw [lexeme_text_cons, List.append_assoc, whole]
          exact .next n final d v rest _ ks again further

/-! ### Tokens -/

-- The same token, but for the case of letters in a keyword.
structure Token.Recased (t u : Token) : Prop where
  kind : u.kind = t.kind
  line : u.line = t.line
  text : u.text = t.text ∨ (t.kind = .keyword ∧ SameLetters t.text.toList u.text.toList)

instance (t u : Token) : Decidable (t.Recased u) :=
  decidable_of_iff (u.kind = t.kind ∧ u.line = t.line ∧
      (u.text = t.text ∨ (t.kind = .keyword ∧ SameLetters t.text.toList u.text.toList)))
    ⟨fun h => ⟨h.1, h.2.1, h.2.2⟩, fun h => ⟨h.kind, h.line, h.text⟩⟩

abbrev Recased : List Token → List Token → Prop := List.Forall₂ Token.Recased

theorem keyword_shape (shape : Shape) (keyword : shape.kind = .keyword) : shape = .keyword := by
  cases shape <;> first | rfl | cases keyword

theorem newline_caseless : Caseless (· == '\n') := Text.caseless_of_letters _ (by decide)

theorem line_after_recased (l k : Lexeme) (line : Int) (recased : l.Recased k) :
    k.lineAfter line = l.lineAfter line := by
  have count : k.text.count '\n' = l.text.count '\n' :=
    (Text.same_letters_count _ newline_caseless _ _ (recased_letters l k recased)).symm
  rw [Lexeme.lineAfter, Lexeme.lineAfter, recased.shape, count]

theorem numbered_recased (line : Int) (ls : List Lexeme) (us : List Token)
    (recased : Recased (numbered line ls) us) :
    ∃ ks, us = numbered line ks ∧ List.Forall₂ Lexeme.Recased ls ks := by
  induction ls generalizing line us with
  | nil =>
      cases recased
      exact ⟨[], rfl, .nil⟩
  | cons l ls ih =>
      cases recased with
      | cons first rest =>
          rename_i u us
          have here : l.Recased ⟨l.shape, u.text.toList⟩ := by
            refine ⟨rfl, ?_⟩
            rcases first.text with same | ⟨keyword, letters⟩
            · exact .inl (by rw [same, String.toList_ofList])
            · rw [String.toList_ofList] at letters
              exact .inr ⟨keyword_shape l.shape keyword, letters⟩
          have token : u = ⟨l.shape.kind, String.ofList u.text.toList, line⟩ := by
            rw [String.ofList_toList]
            exact congr (congrArg (Token.mk · u.text) first.kind) first.line
          obtain ⟨ks, rfl, later⟩ := ih _ us rest
          refine ⟨⟨l.shape, u.text.toList⟩ :: ks, ?_, .cons here later⟩
          rw [numbered, line_after_recased l _ line here, ← token]

theorem tokenize_recased (source other : String) (us : List Token) (complete : (tokenize source).error = none)
    (recased : Recased (tokenize source).tokens us) (written : other.toList = tokenText us) :
    tokenize other = ⟨us, none⟩ := by
  obtain ⟨last, rest, run, ended⟩ := source_reads source.toList
  obtain ⟨ks, rfl, lexemes⟩ := numbered_recased 1 _ us recased
  rw [Option.map_eq_none_iff.mp complete] at ended
  obtain rfl : rest = [] := ended
  obtain ⟨final, again⟩ := reads_recased {} last {} _ [] _ ks run ⟨rfl, rfl, rfl⟩ lexemes
  have lexed := reads_lex {} final _ [] ks again
  rw [List.append_nil, ← numbered_text 1, ← written] at lexed
  rw [tokenize, lex, lexed, Lexing.tokenization, Mode.lex, List.append_nil]
  rfl

end DocAudit.Php
