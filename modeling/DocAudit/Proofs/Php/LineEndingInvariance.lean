import DocAudit.Proofs.Php.LineEnding
import DocAudit.Proofs.Php.Resemblance
import DocAudit.Proofs.Php.Scanning
import DocAudit.Report

/-!
Sources with `\r\n` for `\n` are read alike: token for token, line for line, and to the same
report.
-/

set_option autoImplicit false

namespace DocAudit.Php

def crlfText (s : String) : String := String.ofList (crlf s.toList)

@[simp] theorem crlf_text_of_list (s : List Char) : crlfText (String.ofList s) = String.ofList (crlf s) := by
  simp [crlfText]

theorem crlf_text_one_line (s : String) (line : '\n' ∉ s.toList) : crlfText s = s := by
  rw [crlfText, crlf_one_line _ line, String.ofList_toList]

theorem crlf_break_mem (s : List Char) (broken : '\n' ∈ s) : '\n' ∈ crlf s := by
  rw [← List.count_pos_iff, crlf_newlines]
  exact List.count_pos_iff.mpr broken

-- A word on one line, in any case, is found in both texts or in neither.
theorem crlf_text_lower_mem (words : List String) (lines : ∀ w ∈ words, '\n' ∉ w.toList) (s : String) :
    Text.lower (crlfText s) ∈ words ↔ Text.lower s ∈ words := by
  by_cases broken : '\n' ∈ s.toList
  · have lowered : ∀ v : String, '\n' ∈ v.toList → Text.lower v ∉ words := by
      intro v inside word
      exact lines _ word (Text.mem_lower (by decide) inside)
    refine iff_of_false (lowered _ ?_) (lowered s broken)
    simpa [crlfText] using crlf_break_mem _ broken
  · rw [crlf_text_one_line s broken]

theorem crlf_text_eq (word s : String) (line : '\n' ∉ word.toList) : crlfText s = word ↔ s = word := by
  by_cases broken : '\n' ∈ s.toList
  · refine iff_of_false ?_ ?_
    · rintro rfl
      apply line
      simpa [crlfText] using crlf_break_mem _ broken
    · rintro rfl
      exact line broken
  · rw [crlf_text_one_line s broken]

/-! ### Modes and runs -/

def Mode.crlf (m : Mode) : Mode := { m with last := crlfText m.last }

def Lexeme.crlf (l : Lexeme) : Lexeme := ⟨l.shape, Php.crlf l.text⟩

def Step.crlf (step : Step) : Step := ⟨step.lexeme.crlf, Php.crlf step.rest, step.mode.crlf⟩

theorem name_contexts_one_line : ∀ w ∈ nameContexts, '\n' ∉ w.toList := by decide

theorem is_reserved_crlf (word before : String) : isReserved word (crlfText before) = isReserved word before := by
  have same : nameContexts.contains (Text.lower (crlfText before)) = nameContexts.contains (Text.lower before) := by
    rw [Bool.eq_iff_iff, List.contains_iff_mem, List.contains_iff_mem]
    exact crlf_text_lower_mem nameContexts name_contexts_one_line before
  rw [isReserved, isReserved, same]

theorem label_one_line (text : List Char) (label : IsLabel text) : '\n' ∉ text := by
  obtain ⟨c, w, rfl, start, rest⟩ := label
  intro inside
  rcases List.mem_cons.mp inside with rfl | later
  · exact absurd start (by decide)
  · exact absurd (rest _ later) (by decide)

theorem settle_crlf (m : Mode) (shape : Shape) (text : List Char) (spelled : Spelling shape text) :
    m.crlf.settle shape (String.ofList (crlf text)) = m.settle shape (String.ofList text) := by
  rw [Mode.settle, Mode.settle]
  by_cases name : shape = .name
  · subst name
    rw [crlf_one_line text (label_one_line text spelled)]
    simp only [Mode.crlf, is_reserved_crlf]
  · rw [if_neg (fun both => name both.1), if_neg (fun both => name both.1)]

theorem after_code_crlf (m : Mode) (shape : Shape) (text : List Char) (spelled : Spelling shape text) :
    m.crlf.afterCode shape (String.ofList (crlf text)) = (m.afterCode shape (String.ofList text)).crlf := by
  have semicolon : String.ofList (crlf text) = ";" ↔ String.ofList text = ";" := by
    rw [← crlf_text_of_list]
    exact crlf_text_eq ";" _ (by decide)
  have halting : (shape == .keyword && Text.lower (String.ofList (crlf text)) == "__halt_compiler") =
      (shape == .keyword && Text.lower (String.ofList text) == "__halt_compiler") := by
    by_cases keyword : shape = .keyword
    · subst keyword
      rw [crlf_one_line text (label_one_line text spelled)]
    · rw [beq_false_of_ne keyword, Bool.false_and, Bool.false_and]
  have last : (if shape.trivia then crlfText m.last else String.ofList (crlf text)) =
      crlfText (if shape.trivia then m.last else String.ofList text) := by
    split
    · rfl
    · rw [crlf_text_of_list]
  simp only [Mode.afterCode, Mode.crlf, semicolon, halting, last]

theorem markup_crlf (c d : Char) (s v : List Char) (image : crlf (c :: s) = d :: v) :
    (toOpenTag v).cons d = ((toOpenTag s).cons c).crlf := by
  by_cases lineEnd : c = '\n'
  · subst lineEnd
    rw [crlf_break] at image
    obtain ⟨rfl, rfl⟩ := List.cons.inj image
    have skip : toOpenTag ('\n' :: crlf s) = (toOpenTag (crlf s)).cons '\n' := rfl
    rw [skip, to_open_tag_crlf, Cut.crlf_break]
  · rw [crlf_cons c s lineEnd] at image
    obtain ⟨rfl, rfl⟩ := List.cons.inj image
    rw [to_open_tag_crlf, Cut.crlf_cons c _ lineEnd]

theorem step_crlf (m : Mode) (c d : Char) (s v : List Char) (plain : '\r' ∉ c :: s)
    (image : crlf (c :: s) = d :: v) : m.crlf.step d v = (m.step c s).map Step.crlf := by
  have region : m.crlf.region = m.region := rfl
  rw [Mode.step, Mode.step, region]
  cases m.region with
  | data =>
      dsimp only
      rw [← image]
      rfl
  | markup =>
      dsimp only
      rw [← image, read_open_tag_crlf]
      cases readOpenTag (c :: s) with
      | some cut => rfl
      | none =>
          have markup := markup_crlf c d s v image
          have text : ((toOpenTag v).cons d).text = crlf ((toOpenTag s).cons c).text := congrArg Cut.text markup
          have rest : (toOpenTag v).rest = crlf (toOpenTag s).rest := congrArg Cut.rest markup
          dsimp only [Option.map_none]
          rw [text, rest]
          rfl
  | code =>
      dsimp only
      rw [read_code_crlf c d s v plain image]
      cases found : readCode c s with
      | error e => rfl
      | ok result =>
          obtain ⟨shape, cut⟩ := result
          have written := read_code_written c s shape cut found
          have settled := settle_written m shape (String.ofList cut.text) cut.text .code written
          dsimp only [Except.map, readImage, Cut.crlf]
          rw [settle_crlf m shape cut.text written.spelling, after_code_crlf m _ cut.text settled.spelling]
          rfl

def Lexing.crlf (lexing : Lexing) : Lexing := ⟨lexing.lexemes.map Lexeme.crlf, lexing.failure⟩

theorem lex_cons (m : Mode) (c : Char) (s : List Char) :
    m.lex (c :: s) =
      match m.step c s with
      | .error e => ⟨[], some e⟩
      | .ok step => (step.mode.lex step.rest).cons step.lexeme := by
  rw [Mode.lex]
  split <;> simp_all

theorem lex_crlf (m : Mode) (s : List Char) (plain : '\r' ∉ s) : m.crlf.lex (crlf s) = (m.lex s).crlf := by
  induction size : s.length using Nat.strongRecOn generalizing m s with
  | _ n ih =>
      subst size
      cases s with
      | nil => simp [Mode.lex, Lexing.crlf]
      | cons c s =>
          cases image : crlf (c :: s) with
          | nil => exact absurd image (crlf_cons_ne_nil c s)
          | cons d v =>
              rw [lex_cons, lex_cons, step_crlf m c d s v plain image]
              cases read : m.step c s with
              | error e => rfl
              | ok step =>
                  have whole := (Mode.whole_step read).1
                  have left : '\r' ∉ step.rest := by
                    intro inside
                    apply plain
                    rw [← whole]
                    exact List.mem_append_right _ inside
                  dsimp only [Except.map, Step.crlf]
                  rw [ih step.rest.length (Mode.length_rest_lt read) step.mode step.rest left rfl]
                  rfl

/-! ### Tokens -/

def Token.crlf (t : Token) : Token := { t with text := crlfText t.text }

theorem line_after_crlf (l : Lexeme) (line : Int) : l.crlf.lineAfter line = l.lineAfter line := by
  rw [Lexeme.lineAfter, Lexeme.lineAfter, Lexeme.crlf, crlf_newlines]

theorem numbered_crlf (line : Int) (ls : List Lexeme) :
    numbered line (ls.map Lexeme.crlf) = (numbered line ls).map Token.crlf := by
  induction ls generalizing line with
  | nil => rfl
  | cons l ls ih =>
      rw [List.map_cons, numbered, numbered, line_after_crlf, ih, List.map_cons]
      congr 1
      simp [Token.crlf, Lexeme.crlf]

theorem line_after_all_crlf (line : Int) (ls : List Lexeme) :
    lineAfterAll line (ls.map Lexeme.crlf) = lineAfterAll line ls := by
  induction ls generalizing line with
  | nil => rfl
  | cons l ls ih => rw [List.map_cons, lineAfterAll, lineAfterAll, line_after_crlf, ih]

theorem tokenize_crlf (source : String) (plain : '\r' ∉ source.toList) :
    tokenize (crlfText source) = ⟨(tokenize source).tokens.map Token.crlf, (tokenize source).error⟩ := by
  have start : ({} : Mode).crlf = {} := rfl
  have lexed : lex (crlfText source).toList = (lex source.toList).crlf := by
    have run := lex_crlf {} source.toList plain
    rw [start] at run
    simpa [crlfText, lex] using run
  rw [tokenize, tokenize, lexed, Lexing.tokenization, Lexing.tokenization, Lexing.crlf, numbered_crlf]
  simp only [line_after_all_crlf]

/-! ### Scans -/

theorem crlf_alike (t : Token) (spelled : t.kind.isLabel = true → '\n' ∉ t.text.toList) : Alike t t.crlf := by
  refine ⟨rfl, rfl, ?_, ?_, ?_, ?_⟩
  · simp [Token.endLine, Token.crlf, crlfText, crlf_newlines]
  · intro label
    exact (crlf_text_one_line t.text (spelled label)).symm
  · intro m mark
    have line : ∀ m ∈ marks, '\n' ∉ m.toList := by decide
    exact (crlf_text_eq m t.text (line m mark)).symm
  · have word := crlf_text_lower_mem ["use"] (by decide) t.text
    simpa [Token.lower, Token.crlf] using word.symm

theorem token_label_one_line (source : String) (t : Token) (member : t ∈ (tokenize source).tokens)
    (label : t.kind.isLabel = true) : '\n' ∉ t.text.toList := by
  obtain ⟨text, spelled, isLabel⟩ := token_label source t member label
  rw [spelled, String.toList_ofList]
  exact label_one_line text isLabel

theorem scan_crlf (flags : SkipFlags) (path source : String) :
    scan flags ((tokenize source).tokens.map Token.crlf) path = scan flags (tokenize source).tokens path := by
  symm
  apply scan_alike
  rw [List.forall₂_map_right_iff, List.forall₂_same]
  intro t member
  exact crlf_alike t (token_label_one_line source t member)

theorem line_ending_invariance (source : String) (plain : '\r' ∉ source.toList) :
    tokenize (crlfText source) = ⟨(tokenize source).tokens.map Token.crlf, (tokenize source).error⟩ ∧
    ∀ (flags : SkipFlags) (path : String),
      checkSource flags path (crlfText source) = checkSource flags path source := by
  have read := tokenize_crlf source plain
  refine ⟨read, ?_⟩
  intro flags path
  rw [checkSource, checkSource, tokens?, tokens?, read]
  cases failed : (tokenize source).error with
  | some e => rfl
  | none =>
      dsimp only
      rw [scan_crlf flags path source]

theorem line_ending_invariance_open_comment :
    let source := "<?php\n/** A */\nclass A \x7b\n/* open\n"
    '\r' ∉ source.toList ∧ (tokenize (crlfText source)).error = some ⟨.comment, 4⟩ := by
  intro source
  have plain : '\r' ∉ source.toList := by decide
  have failed : (tokenize source).error = some ⟨.comment, 4⟩ := by decide +kernel
  refine ⟨plain, ?_⟩
  rw [(line_ending_invariance source plain).1]
  exact failed

end DocAudit.Php
