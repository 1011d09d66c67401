import DocAudit.Proofs.Php.CheckedReading
import DocAudit.Proofs.Php.Run
import DocAudit.Proofs.Php.Terminator

/-!
Tokens and source. The tokens of a source spell it from its beginning, up to its end or to a
construct in code that has none.
-/

set_option autoImplicit false

namespace DocAudit.Php

def tokenText (ts : List Token) : List Char := ts.flatMap (·.text.toList)

theorem numbered_text (line : Int) (ls : List Lexeme) : tokenText (numbered line ls) = lexemeText ls := by
  induction ls generalizing line with
  | nil => rfl
  | cons l ls ih =>
      have rest : (numbered (l.lineAfter line) ls).flatMap (·.text.toList) = ls.flatMap (·.text) :=
        ih (l.lineAfter line)
      simp [tokenText, lexemeText, numbered, rest]

theorem numbered_append (line : Int) (a b : List Lexeme) :
    numbered line (a ++ b) = numbered line a ++ numbered (lineAfterAll line a) b := by
  induction a generalizing line with
  | nil => rfl
  | cons l a ih => exact congrArg (List.cons _) (ih (l.lineAfter line))

theorem numbered_member (line : Int) (ls : List Lexeme) (t : Token) (member : t ∈ numbered line ls) :
    ∃ l ∈ ls, t.kind = l.shape.kind ∧ t.text = String.ofList l.text := by
  induction ls generalizing line with
  | nil => simp [numbered] at member
  | cons l ls ih =>
      rcases List.mem_cons.mp member with same | later
      · subst same
        exact ⟨l, List.mem_cons_self, rfl, rfl⟩
      · obtain ⟨source, inside, kind, text⟩ := ih _ later
        exact ⟨source, List.mem_cons_of_mem _ inside, kind, text⟩

/-! ### Code regions -/

-- `<?=`, or `<?php` in any case in front of a blank or of the end.
def OpensCode (tag following : List Char) : Prop :=
  tag = ['<', '?', '='] ∨
    (tag.map Text.lowerAscii = ['<', '?', 'p', 'h', 'p'] ∧
      ∀ c ∈ following.head?, Text.blank c = true)

-- The text after these tokens lies in code: behind an opening tag with no `?>` since.
def CodeFollows (ts : List Token) (rest : List Char) : Prop :=
  ∃ before tag after, ts = before ++ tag :: after ∧
    OpensCode tag.text.toList (tokenText after ++ rest) ∧ ∀ t ∈ after, t.text ≠ "?>"

theorem read_open_tag_opens (s : List Char) (cut : Cut) (found : readOpenTag s = some cut) :
    OpensCode cut.text cut.rest := by
  unfold readOpenTag at found
  split at found
  · cases found
    exact .inl rfl
  · split at found
    · rename_i spelled
      cases found
      refine .inr ⟨?_, ?_⟩
      · exact congrArg (fun name => '<' :: '?' :: name) spelled.1
      · intro c head
        simpa [Option.mem_def.mp head] using spelled.2
    · simp at found
  · simp at found

theorem read_code_close_tag (c : Char) (s : List Char) (shape : Shape) (cut : Cut)
    (found : readCode c s = .ok (shape, cut)) (text : cut.text = ['?', '>']) : shape = .closeTag := by
  have whole := (whole_readCode found).1
  rw [Cut.whole, text] at whole
  obtain ⟨rfl, rfl⟩ := List.cons.inj whole
  simp [readCode, layout] at found
  exact found.1.symm

theorem settle_close_tag (m : Mode) (text : String) : m.settle .closeTag text = .closeTag := by
  simp [Mode.settle]

-- Read from the end: the last switch into code is an opening tag, unless the run began in code.
theorem reads_code_region (m last : Mode) (s rest : List Char) (ls : List Lexeme)
    (run : Reads m s ls last rest) (code : last.region = .code) :
    (m.region = .code ∧ ∀ l ∈ ls, l.text ≠ ['?', '>']) ∨
      ∃ before tag after, ls = before ++ tag :: after ∧
        OpensCode tag.text (lexemeText after ++ rest) ∧ ∀ l ∈ after, l.text ≠ ['?', '>'] := by
  induction run with
  | stop m s => exact .inl ⟨code, by simp⟩
  | next m last c s rest step ls read run ih =>
      rcases ih code with ⟨region, none⟩ | ⟨before, tag, after, rfl, opens, none⟩
      · cases step_cases m c s step read with
        | data data => rw [data] at region; cases region
        | markup markup absent => rw [markup] at region; cases region
        | openTag markup cut found =>
            refine .inr ⟨[], _, ls, rfl, ?_, none⟩
            rw [reads_text _ last _ rest ls run]
            exact read_open_tag_opens (c :: s) cut found
        | code inCode shape cut found =>
            refine .inl ⟨inCode, ?_⟩
            intro l member
            rcases List.mem_cons.mp member with same | later
            · subst same
              intro text
              have closing := read_code_close_tag c s shape cut found text
              simp [closing, settle_close_tag, Mode.afterCode] at region
            · exact none l later
      · exact .inr ⟨step.lexeme :: before, tag, after, rfl, opens, none⟩

theorem numbered_code_follows (line : Int) (before after : List Lexeme) (tag : Lexeme) (rest : List Char)
    (opens : OpensCode tag.text (lexemeText after ++ rest))
    (none : ∀ l ∈ after, l.text ≠ ['?', '>']) :
    CodeFollows (numbered line (before ++ tag :: after)) rest := by
  refine ⟨numbered line before, _, _, numbered_append line before (tag :: after), ?_, ?_⟩
  · rw [numbered_text]
    simpa using opens
  · intro t member text
    obtain ⟨l, inside, -, spelled⟩ := numbered_member _ after t member
    refine none l inside ?_
    simpa using congrArg String.toList (spelled.symm.trans text)

/-! ### The whole source -/

theorem tokenize_complete (source : String) (done : (tokenize source).error = none) :
    tokenText (tokenize source).tokens = source.toList := by
  obtain ⟨last, rest, run, ended⟩ := source_reads source.toList
  have failure : (lex source.toList).failure = none := Option.map_eq_none_iff.mp done
  rw [failure] at ended
  have text := reads_text _ last _ rest _ run
  rw [show rest = [] from ended, List.append_nil] at text
  exact (numbered_text 1 _).trans text

theorem tokenize_stuck (source : String) (e : ParseError) (failed : (tokenize source).error = some e) :
    ∃ rest, rest ≠ [] ∧ tokenText (tokenize source).tokens ++ rest = source.toList ∧
      CodeFollows (tokenize source).tokens rest ∧ Unclosed e.construct rest := by
  obtain ⟨last, rest, run, ended⟩ := source_reads source.toList
  obtain ⟨construct, failure, rfl⟩ := Option.map_eq_some_iff.mp failed
  rw [failure] at ended
  obtain ⟨c, s, rfl, stuck⟩ := ended
  obtain ⟨region, refused⟩ := step_error last c s construct stuck
  have text := reads_text _ last _ _ _ run
  refine ⟨c :: s, by simp, ?_, ?_, read_code_error c s construct refused⟩
  · exact (congrArg (· ++ c :: s) (numbered_text 1 _)).trans text
  · rcases reads_code_region _ last _ _ _ run region with ⟨start, -⟩ | ⟨before, tag, after, split, opens, none⟩
    · cases start
    · have follows := numbered_code_follows 1 before after tag (c :: s) opens none
      rw [← split] at follows
      exact follows

-- What holds of the lexeme of any step holds of a lexeme behind every token.
theorem tokenize_each (P : Lexeme → Prop)
    (one : ∀ (m : Mode) (c : Char) (s : List Char) (step : Step), m.step c s = .ok step → P step.lexeme)
    (source : String) (t : Token) (member : t ∈ (tokenize source).tokens) :
    ∃ l, P l ∧ t.kind = l.shape.kind ∧ t.text = String.ofList l.text := by
  obtain ⟨last, rest, run, -⟩ := source_reads source.toList
  obtain ⟨l, inside, kind, text⟩ := numbered_member 1 _ t member
  exact ⟨l, reads_each P one _ last _ rest _ run l inside, kind, text⟩

theorem tokenize_nonempty (source : String) : ∀ t ∈ (tokenize source).tokens, t.text ≠ "" := by
  intro t member empty
  obtain ⟨l, filled, -, spelled⟩ := tokenize_each (·.text ≠ []) (fun _ _ _ _ read => (Mode.whole_step read).2)
    source t member
  exact filled (by simpa using congrArg String.toList (spelled.symm.trans empty))

theorem tokenize_conserves_source (source : String) :
    (∀ c rest, readCodeChecked c rest = some (readCode c rest)) ∧
    (∀ t ∈ (tokenize source).tokens, t.text ≠ "") ∧
    match (tokenize source).error with
    | none => tokenText (tokenize source).tokens = source.toList
    | some e =>
        ∃ rest, rest ≠ [] ∧ tokenText (tokenize source).tokens ++ rest = source.toList ∧
          CodeFollows (tokenize source).tokens rest ∧
          ((e.reason = "unterminated comment" ∧ Unclosed .comment rest) ∨
            (e.reason = "unterminated string" ∧ Unclosed .string rest) ∨
            (e.reason = "unterminated heredoc" ∧ Unclosed .heredoc rest)) := by
  refine ⟨read_code_checked, tokenize_nonempty source, ?_⟩
  cases failed : (tokenize source).error with
  | none => exact tokenize_complete source failed
  | some e =>
      obtain ⟨rest, left, text, code, unclosed⟩ := tokenize_stuck source e failed
      refine ⟨rest, left, text, code, ?_⟩
      rcases e with ⟨construct, line⟩
      cases construct with
      | comment => exact .inl ⟨rfl, unclosed⟩
      | string => exact .inr (.inl ⟨rfl, unclosed⟩)
      | heredoc => exact .inr (.inr ⟨rfl, unclosed⟩)

theorem tokenize_conserves_open_heredoc :
    (tokenize "<?php\n$x = <<<EOT\nabc\n").error = some ⟨.heredoc, 2⟩ ∧
      ∃ rest, tokenText (tokenize "<?php\n$x = <<<EOT\nabc\n").tokens ++ rest =
          "<?php\n$x = <<<EOT\nabc\n".toList ∧ Unclosed .heredoc rest := by
  have failed : (tokenize "<?php\n$x = <<<EOT\nabc\n").error = some ⟨.heredoc, 2⟩ := by decide +kernel
  have conserved := (tokenize_conserves_source "<?php\n$x = <<<EOT\nabc\n").2.2
  rw [failed] at conserved
  obtain ⟨rest, -, text, -, unclosed⟩ := conserved
  refine ⟨failed, rest, text, ?_⟩
  rcases unclosed with ⟨other, -⟩ | ⟨other, -⟩ | ⟨-, heredoc⟩
  · exact absurd other (by decide)
  · exact absurd other (by decide)
  · exact heredoc

end DocAudit.Php
