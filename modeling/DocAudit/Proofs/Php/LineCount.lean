import DocAudit.Proofs.Php.Spelling

/-!
Line numbers. The count that the tokenizer keeps passes over some lexemes, and yet it always
stands at one more than the line breaks in front of the next token.
-/

set_option autoImplicit false

namespace DocAudit.Php

def newlines (s : List Char) : Nat := s.count '\n'

theorem lexeme_text_cons (l : Lexeme) (ls : List Lexeme) : lexemeText (l :: ls) = l.text ++ lexemeText ls := by
  simp [lexemeText]

theorem line_after_counts (l : Lexeme) (line : Int) (spelling : Spelling l.shape l.text)
    (followed : l.shape ≠ .data) : l.lineAfter line = line + newlines l.text := by
  unfold Lexeme.lineAfter
  split
  · rename_i tag
    rw [tag] at spelling
    have none : newlines l.text = 0 := List.count_eq_zero_of_not_mem spelling
    simp [none]
  · rename_i data
    exact absurd data followed
  · rfl

-- The count is short only by trailing data, so it is right wherever the run is not at an end in
-- data: in front of any further lexeme, and at an error.
theorem reads_line (m last : Mode) (s rest : List Char) (ls : List Lexeme) (line : Int)
    (run : Reads m s ls last rest) (left : rest ≠ []) :
    lineAfterAll line ls = line + newlines (lexemeText ls) := by
  induction run generalizing line with
  | stop m s => simp [lineAfterAll, lexemeText, newlines]
  | next m last c s rest step ls read run ih =>
      have followed : step.lexeme.shape ≠ .data := by
        intro data
        have written := step_written m c s step read
        rw [data] at written
        cases step_cases m c s step read with
        | data region =>
            cases run with
            | stop => exact left rfl
        | markup region absent => exact absurd (written.region_eq.trans region) (by decide)
        | openTag region cut found => exact absurd (written.region_eq.trans region) (by decide)
        | code region shape cut found => exact absurd (written.region_eq.trans region) (by decide)
      have counted := line_after_counts step.lexeme line (step_written m c s step read).spelling followed
      rw [lineAfterAll, ih _ left, counted, lexeme_text_cons]
      simp only [newlines, List.count_append]
      omega

theorem reads_split (m last : Mode) (s rest : List Char) (before : List Lexeme) (l : Lexeme)
    (after : List Lexeme) (run : Reads m s (before ++ l :: after) last rest) :
    ∃ middle c text, Reads m s before middle (c :: text) := by
  induction before generalizing m s with
  | nil =>
      cases run with
      | next m last c s rest step ls read run => exact ⟨m, c, s, .stop m (c :: s)⟩
  | cons first before ih =>
      cases run with
      | next m last c s rest step ls read run =>
          obtain ⟨middle, d, text, early⟩ := ih step.mode step.rest run
          exact ⟨middle, d, text, .next m middle c s (d :: text) step before read early⟩

theorem numbered_split (line : Int) (ls : List Lexeme) (before after : List Token) (t : Token)
    (split : numbered line ls = before ++ t :: after) :
    ∃ first l rest, ls = first ++ l :: rest ∧ before = numbered line first ∧
      t.line = lineAfterAll line first := by
  induction before generalizing line ls with
  | nil =>
      cases ls with
      | nil => simp [numbered] at split
      | cons l ls => exact ⟨[], l, ls, rfl, rfl, congrArg Token.line (List.cons.inj split).1.symm⟩
  | cons u before ih =>
      cases ls with
      | nil => simp [numbered] at split
      | cons k ls =>
          obtain ⟨head, tail⟩ := List.cons.inj split
          obtain ⟨first, l, rest, rfl, rfl, place⟩ := ih (k.lineAfter line) ls tail
          exact ⟨k :: first, l, rest, rfl, congrArg (· :: _) head.symm, place⟩

theorem token_line (source : String) (before after : List Token) (t : Token)
    (split : (tokenize source).tokens = before ++ t :: after) :
    t.line = 1 + newlines (tokenText before) := by
  obtain ⟨last, rest, run, -⟩ := source_reads source.toList
  obtain ⟨first, l, later, lexemes, rfl, place⟩ := numbered_split 1 _ before after t split
  rw [lexemes] at run
  obtain ⟨middle, c, text, early⟩ := reads_split _ last _ rest first l later run
  rw [place, reads_line _ middle _ _ first 1 early (by simp), numbered_text]

theorem error_line (source : String) (e : ParseError) (failed : (tokenize source).error = some e) :
    e.line = 1 + newlines (tokenText (tokenize source).tokens) := by
  obtain ⟨last, rest, run, ended⟩ := source_reads source.toList
  obtain ⟨construct, failure, rfl⟩ := Option.map_eq_some_iff.mp failed
  rw [failure] at ended
  obtain ⟨c, s, rfl, -⟩ := ended
  have counted := reads_line _ last _ _ _ 1 run (by simp)
  rw [← numbered_text 1] at counted
  exact counted

theorem token_text_append (a b : List Token) : tokenText (a ++ b) = tokenText a ++ tokenText b := by
  simp [tokenText]

theorem token_end_line (source : String) (before after : List Token) (t next : Token)
    (split : (tokenize source).tokens = before ++ t :: next :: after) : t.endLine = next.line := by
  have here := token_line source before (next :: after) t split
  have there := token_line source (before ++ [t]) after next (by simpa using split)
  rw [there, token_text_append]
  simp only [Token.endLine, here, newlines, tokenText, List.count_append, List.flatMap_cons,
    List.flatMap_nil, List.append_nil]
  omega

theorem token_line_le (source : String) (before between after : List Token) (t u : Token)
    (split : (tokenize source).tokens = before ++ t :: (between ++ u :: after)) : t.line ≤ u.line := by
  have early := token_line source before (between ++ u :: after) t split
  have late := token_line source (before ++ t :: between) after u (by simpa using split)
  rw [early, late, token_text_append]
  simp only [newlines, List.count_append]
  omega

theorem tokenize_line_numbers (source : String) :
    (∀ (before after : List Token) (t : Token), (tokenize source).tokens = before ++ t :: after →
      t.line = 1 + newlines (tokenText before) ∧ 1 ≤ t.line) ∧
    (∀ (before between after : List Token) (t u : Token),
      (tokenize source).tokens = before ++ t :: (between ++ u :: after) → t.line ≤ u.line) ∧
    (∀ (before after : List Token) (t next : Token),
      (tokenize source).tokens = before ++ t :: next :: after → t.endLine = next.line) ∧
    ∀ e : ParseError, (tokenize source).error = some e →
      e.line = 1 + newlines (tokenText (tokenize source).tokens) := by
  refine ⟨?_, token_line_le source, token_end_line source, error_line source⟩
  intro before after t split
  have line := token_line source before after t split
  exact ⟨line, by omega⟩

theorem tokenize_line_numbers_after_comment :
    let source := "a\n<?php /*\n*/ '"
    let tag : Token := ⟨.other, "<?php", 2⟩
    let comment : Token := ⟨.blockComment, "/*\n*/", 2⟩
    let blank : Token := ⟨.whitespace, " ", 3⟩
    let before : List Token := [⟨.other, "a\n", 1⟩, tag, ⟨.whitespace, " ", 2⟩]
    tokenize source = ⟨before ++ [comment, blank], some ⟨.string, 3⟩⟩ ∧
      comment.line = 1 + newlines (tokenText before) ∧ tag.line ≤ blank.line ∧
      comment.endLine = blank.line ∧
      (3 : Int) = 1 + newlines (tokenText (tokenize source).tokens) := by
  intro source tag comment blank before
  have read : tokenize source = ⟨before ++ [comment, blank], some ⟨.string, 3⟩⟩ := by decide +kernel
  obtain ⟨lines, growing, ends, failing⟩ := tokenize_line_numbers source
  have tokens := congrArg Tokenization.tokens read
  refine ⟨read, (lines before [blank] comment tokens).1, ?_, ends before [] comment blank tokens, ?_⟩
  · exact growing [⟨.other, "a\n", 1⟩] [⟨.whitespace, " ", 2⟩, comment] [] tag blank tokens
  · exact failing ⟨.string, 3⟩ (congrArg Tokenization.error read)

end DocAudit.Php
