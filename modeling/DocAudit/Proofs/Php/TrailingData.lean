import DocAudit.Proofs.Php.Markup

/-!
Data behind `__halt_compiler`. From the `;` of its statement on the source is data: whatever stands
there is one token, and it changes nothing in front of it and nothing in the report.
-/

set_option autoImplicit false

namespace DocAudit.Php

def Lexeme.haltsCompiler (l : Lexeme) : Prop :=
  l.shape = .keyword ∧ Text.lower (String.ofList l.text) = "__halt_compiler"

-- A `;` of code. In markup the same text is a chunk.
def Lexeme.endsStatement (l : Lexeme) : Prop := l.shape.region = .code ∧ l.text = [';']

-- A source that is read to its end, and ends with the first `;` behind a `__halt_compiler`.
structure HaltsAtEnd (source : String) : Prop where
  read : (tokenize source).error = none
  halted : ∃ before halt between last, (lex source.toList).lexemes = before ++ halt :: (between ++ [last]) ∧
    halt.haltsCompiler ∧ last.endsStatement ∧ ∀ l ∈ between, ¬ l.endsStatement

/-! ### Halting -/

theorem step_halting (m : Mode) (c : Char) (s : List Char) (step : Step) (read : m.step c s = .ok step)
    (halts : m.halting = true ∨ step.lexeme.haltsCompiler) : step.mode.halting = true := by
  cases step_cases m c s step read with
  | data region => exact halts.resolve_right fun word => nomatch word.1
  | markup region absent => exact halts.resolve_right fun word => nomatch word.1
  | openTag region cut found => exact halts.resolve_right fun word => nomatch word.1
  | code region shape cut found =>
      rcases halts with halting | ⟨keyword, word⟩
      · simp [Mode.afterCode, halting]
      · dsimp only at keyword word
        simp [Mode.afterCode, keyword, word]

theorem reads_halting (m last : Mode) (s rest : List Char) (ls : List Lexeme) (run : Reads m s ls last rest)
    (halts : m.halting = true ∨ ∃ l ∈ ls, l.haltsCompiler) : last.halting = true := by
  induction run with
  | stop m s => simpa using halts
  | next m last c s rest step ls read run ih =>
      apply ih
      rcases halts with halting | ⟨l, member, word⟩
      · exact .inl (step_halting m c s step read (.inl halting))
      · rcases List.mem_cons.mp member with rfl | later
        · exact .inl (step_halting m c s step read (.inr word))
        · exact .inr ⟨l, later, word⟩

/-! ### The last statement -/

theorem semicolon_step (m : Mode) (s : List Char) (region : m.region = .code) (halting : m.halting = true) :
    m.step ';' s = .ok ⟨⟨.symbol, [';']⟩, s, ⟨.data, ";", true⟩⟩ := by
  have read : readCode ';' s = .ok (.symbol, ⟨[';'], s⟩) := rfl
  have settled : m.settle .symbol (String.ofList [';']) = .symbol := rfl
  simp only [Mode.step, region, read, settled, Mode.afterCode, halting]
  rfl

theorem lex_data (m : Mode) (s : List Char) (region : m.region = .data) :
    m.lex s = ⟨if s = [] then [] else [⟨.data, s⟩], none⟩ := by
  cases s with
  | nil => rw [Mode.lex]; rfl
  | cons c s =>
      rw [lex_cons, Mode.step, region]
      dsimp only
      rw [Mode.lex]
      rfl

-- The run up to the last `;`, which does not depend on what stands behind it.
theorem halted_run (source : String) (halts : HaltsAtEnd source) :
    ∃ ls m, source.toList = lexemeText ls ++ [';'] ∧ m.region = .code ∧ m.halting = true ∧
      ∀ data, Reads {} (source.toList ++ data) ls m (';' :: data) := by
  obtain ⟨before, halt, between, last, lexemes, halted, ends, -⟩ := halts.halted
  obtain ⟨final, rest, run, ended⟩ := source_reads source.toList
  have failure : (lex source.toList).failure = none := Option.map_eq_none_iff.mp halts.read
  rw [failure] at ended
  obtain rfl : rest = [] := ended
  have split : before ++ halt :: (between ++ [last]) = (before ++ halt :: between) ++ [last] := by simp
  rw [lexemes, split] at run
  obtain ⟨m, text, early, late⟩ := reads_append _ final _ [] _ [last] run
  obtain rfl : text = [';'] := by
    have spelled := reads_text m final text [] [last] late
    simpa [lexemeText, ends.2] using spelled.symm
  have whole := reads_text _ m _ [';'] _ early
  refine ⟨before ++ halt :: between, m, whole.symm, ?_, ?_, ?_⟩
  · exact reads_code_first m final _ [] last [] late ends.1
  · exact reads_halting _ m _ _ _ early (.inr ⟨halt, by simp, halted⟩)
  · intro data
    have longer := reads_local _ m _ [';'] [] data _ rfl early
    rw [← whole, List.append_assoc]
    exact longer

def dataLexemes (data : List Char) : List Lexeme := if data = [] then [] else [⟨.data, data⟩]

theorem halted_lex (source : String) (halts : HaltsAtEnd source) :
    ∃ front, lexemeText (front ++ [⟨.symbol, [';']⟩]) = source.toList ∧
      ∀ data, lex (source.toList ++ data) = ⟨front ++ [⟨.symbol, [';']⟩] ++ dataLexemes data, none⟩ ∧
        (data ≠ [] → lineAfterAll 1 (front ++ [⟨.symbol, [';']⟩]) = 1 + newlines source.toList) := by
  obtain ⟨front, m, text, region, halting, run⟩ := halted_run source halts
  have whole : lexemeText (front ++ [⟨.symbol, [';']⟩]) = source.toList := by simp [text, lexemeText]
  refine ⟨front, whole, ?_⟩
  intro data
  have last := semicolon_step m data region halting
  have all := reads_trans _ m _ _ _ data _ _ (run data) (.next m _ ';' data data _ [] last (.stop _ data))
  constructor
  · rw [lex, reads_lex _ _ _ data _ all, lex_data _ data rfl]
    rfl
  · intro left
    rw [reads_line _ _ _ data _ 1 all left, whole]

/-! ### Tokens and reports -/

-- One token, or none, on the line on which the source ends.
def dataTokens (source data : String) : List Token :=
  if data = "" then [] else [⟨.other, data, 1 + newlines source.toList⟩]

theorem halted_tokens (source : String) (halts : HaltsAtEnd source) :
    ∃ front line, (tokenize source).tokens = front ++ [⟨.other, ";", line⟩] ∧
      ∀ data, tokenize (source ++ data) = ⟨(tokenize source).tokens ++ dataTokens source data, none⟩ := by
  obtain ⟨front, whole, lexed⟩ := halted_lex source halts
  have own : (tokenize source).tokens = numbered 1 (front ++ [⟨.symbol, [';']⟩]) := by
    have here := (lexed []).1
    rw [List.append_nil] at here
    rw [tokenize, here, dataLexemes, if_pos rfl, List.append_nil]
    rfl
  refine ⟨numbered 1 front, lineAfterAll 1 front, by rw [own, numbered_append]; rfl, ?_⟩
  intro data
  obtain ⟨here, line⟩ := lexed data.toList
  have tokens : numbered 1 (front ++ [⟨.symbol, [';']⟩] ++ dataLexemes data.toList) =
      (tokenize source).tokens ++ dataTokens source data := by
    rw [numbered_append, own, dataLexemes, dataTokens]
    by_cases empty : data = ""
    · simp [empty, numbered]
    · have filled : data.toList ≠ [] := by simpa using empty
      rw [if_neg filled, if_neg empty, numbered, numbered, line filled, String.ofList_toList]
      rfl
  rw [tokenize, String.toList_append, here, Lexing.tokenization, tokens]
  rfl

-- Behind a statement no keyword waits, and a token of no kind of its own begins nothing.
theorem data_undeclared (front : List Token) (line : Int) (source data : String) :
    declarations (front ++ [⟨.other, ";", line⟩] ++ dataTokens source data) =
      declarations (front ++ [⟨.other, ";", line⟩]) := by
  rw [dataTokens]
  split
  · rw [List.append_nil]
  · rw [declarations, declarations, declarations_append, List.foldl_append]
    have plain : ";" ≠ "&" := by decide
    have idle := tag_step_idle (front.foldl (fun st t => (st.step t).1) {}) ⟨.other, ";", line⟩ rfl plain
    rw [List.foldl_cons, List.foldl_nil, Scan.declarations, Scan.declarations, idle_step _ _ idle rfl]
    simp

theorem data_after_halt_inert (source : String) (halts : HaltsAtEnd source) (data : String) :
    tokenize (source ++ data) = ⟨(tokenize source).tokens ++ dataTokens source data, none⟩ ∧
    ∀ (flags : SkipFlags) (path : String),
      checkSource flags path (source ++ data) = checkSource flags path source := by
  obtain ⟨front, line, own, extended⟩ := halted_tokens source halts
  refine ⟨extended data, ?_⟩
  intro flags path
  rw [checkSource, checkSource, tokens?, tokens?, extended data, halts.read]
  dsimp only
  rw [scan_composed, scan_composed, own, data_undeclared]

-- Markup that reads `;` between the word and the end of its statement, and data with a string, a
-- comment and a class that do not end.
theorem data_after_halt_inert_across_markup :
    let source := "<?php class A \x7b\x7d __HALT_compiler ?>;<?=\n();"
    let data := "' /* <?php class B \x7b"
    HaltsAtEnd source ∧
      (tokenize (source ++ data)).tokens = (tokenize source).tokens ++ [⟨.other, data, 2⟩] ∧
      checkSource {} "a.php" (source ++ data) = checkSource {} "a.php" source := by
  intro source data
  have halts : HaltsAtEnd source := by
    refine ⟨by decide +kernel, (lex source.toList).lexemes.take 9, ⟨.keyword, "__HALT_compiler".toList⟩,
      [⟨.whitespace, [' ']⟩, ⟨.closeTag, ['?', '>']⟩, ⟨.markup, [';']⟩, ⟨.openTag, ['<', '?', '=']⟩,
        ⟨.whitespace, ['\n']⟩, ⟨.symbol, ['(']⟩, ⟨.symbol, [')']⟩], ⟨.symbol, [';']⟩, ?_, ?_, ?_, ?_⟩
    · decide +kernel
    · exact ⟨rfl, by decide +kernel⟩
    · exact ⟨rfl, rfl⟩
    · simp [Lexeme.endsStatement, Shape.region]
  obtain ⟨tokens, reports⟩ := data_after_halt_inert source halts data
  refine ⟨halts, ?_, reports {} "a.php"⟩
  rw [tokens]
  decide +kernel

end DocAudit.Php
