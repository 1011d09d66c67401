import DocAudit.Proofs.Php.Exchange
import DocAudit.Proofs.Php.LineEndingInvariance
import DocAudit.Proofs.Php.Locality

/-!
Markup is inert, but for the texts that a walk back compares whatever kind of token has them: a
chunk that reads `;` or a bracket counts as one.
-/

set_option autoImplicit false

namespace DocAudit.Php

/-! ### Runs -/

theorem reads_append (m last : Mode) (s rest : List Char) (a b : List Lexeme)
    (run : Reads m s (a ++ b) last rest) :
    ∃ middle text, Reads m s a middle text ∧ Reads middle text b last rest := by
  induction a generalizing m s with
  | nil => exact ⟨m, s, .stop m s, run⟩
  | cons l a ih =>
      cases run with
      | next m last c s rest step ls read run =>
          obtain ⟨middle, text, early, late⟩ := ih step.mode step.rest run
          exact ⟨middle, text, .next m middle c s text step a read early, late⟩

theorem reads_trans (m middle last : Mode) (s text rest : List Char) (a b : List Lexeme)
    (early : Reads m s a middle text) (late : Reads middle text b last rest) : Reads m s (a ++ b) last rest := by
  induction early with
  | stop m s => exact late
  | next m middle c s text step ls read run ih => exact .next m last c s rest step _ read (ih late)

theorem reads_lex (m last : Mode) (s rest : List Char) (ls : List Lexeme) (run : Reads m s ls last rest) :
    m.lex s = ⟨ls ++ (last.lex rest).lexemes, (last.lex rest).failure⟩ := by
  induction run with
  | stop m s => rfl
  | next m last c s rest step ls read run ih =>
      rw [lex_cons, read]
      dsimp only
      rw [ih]
      rfl

theorem reads_empty (m last : Mode) (s rest : List Char) (run : Reads m s [] last rest) :
    last = m ∧ rest = s := by
  cases run
  exact ⟨rfl, rfl⟩

theorem reads_first (m last : Mode) (s rest : List Char) (l : Lexeme) (ls : List Lexeme)
    (run : Reads m s (l :: ls) last rest) :
    ∃ c t step, s = c :: t ∧ m.step c t = .ok step ∧ step.lexeme = l := by
  cases run with
  | next _ _ c t _ step _ read run => exact ⟨c, t, step, rfl, read, rfl⟩

-- A lexeme of code is read in code.
theorem reads_code_first (m last : Mode) (s rest : List Char) (l : Lexeme) (ls : List Lexeme)
    (run : Reads m s (l :: ls) last rest) (code : l.shape.region = .code) : m.region = .code := by
  obtain ⟨c, t, step, -, read, rfl⟩ := reads_first m last s rest l ls run
  exact (step_written m c t step read).region_eq.symm.trans code

theorem lexeme_text_empty (ls : List Lexeme) (filled : ∀ l ∈ ls, l.text ≠ []) (empty : lexemeText ls = []) :
    ls = [] := by
  cases ls with
  | nil => rfl
  | cons l ls =>
      rw [lexeme_text_cons] at empty
      exact absurd (List.append_eq_nil_iff.mp empty).1 (filled l List.mem_cons_self)

theorem reads_nothing (m last : Mode) (s : List Char) (ls : List Lexeme) (run : Reads m s ls last s) :
    ls = [] ∧ last = m := by
  have text := reads_text m last s s ls run
  have none : ls = [] := lexeme_text_empty ls (reads_nonempty m last s s ls run) (List.append_left_eq_self.mp text)
  subst none
  exact ⟨rfl, (reads_empty m last s s run).1⟩

-- Reading is determined by the text it leaves.
theorem reads_unique (m last other : Mode) (s rest : List Char) (ls ks : List Lexeme)
    (run : Reads m s ls last rest) (again : Reads m s ks other rest) : ls = ks ∧ last = other := by
  induction run generalizing ks with
  | stop m s =>
      obtain ⟨rfl, rfl⟩ := reads_nothing m other s ks again
      exact ⟨rfl, rfl⟩
  | next m last c s rest step ls read run ih =>
      cases again with
      | stop => cases (reads_nothing _ last _ _ (.next _ last c s _ step ls read run)).1
      | next _ _ _ _ _ step ks readAgain run =>
          obtain rfl := Except.ok.inj (read.symm.trans readAgain)
          obtain ⟨rfl, rfl⟩ := ih ks run
          exact ⟨rfl, rfl⟩

/-! ### The tag in front of a chunk and the tag behind it -/

theorem to_open_tag_stops (s : List Char) :
    (toOpenTag s).rest = [] ∨ (readOpenTag (toOpenTag s).rest).isSome = true := by
  fun_induction toOpenTag s with
  | case1 => exact .inl rfl
  | case2 c s tag => exact .inr tag
  | case3 c s absent ih => exact ih

theorem read_plain_shape (c : Char) (s : List Char) : (readPlain c s).1 ≠ .closeTag := by
  unfold readPlain
  repeat' split
  all_goals simp

theorem read_code_closes (c : Char) (s : List Char) (cut : Cut)
    (found : readCode c s = .ok (.closeTag, cut)) : c = '?' ∧ cut.text = ['?', '>'] ∧ s = '>' :: cut.rest := by
  unfold readCode at found
  split at found
  · cases found
  split at found
  · rename_i close
    cases found
    exact ⟨close.1, rfl, head?_eq_some close.2⟩
  split at found
  · split at found
    · have shape := (Prod.mk.inj (Except.ok.inj found)).1
      rw [comment_shape_eq] at shape
      split at shape <;> cases shape
    · cases found
  split at found
  · cases found
  split at found
  · split at found
    · cases found
    · cases found
  split at found
  · split at found
    · cases found
    · cases found
  · exact absurd (congrArg Prod.fst (Except.ok.inj found)) (read_plain_shape c s)

theorem settle_closes (m : Mode) (shape : Shape) (text : String) (closes : m.settle shape text = .closeTag) :
    shape = .closeTag := by
  unfold Mode.settle at closes
  split at closes
  · cases closes
  · exact closes

theorem close_tag_step (m : Mode) (rest : List Char) (region : m.region = .code) :
    m.step '?' ('>' :: rest) = .ok ⟨⟨.closeTag, ['?', '>']⟩, rest, m.afterCode .closeTag "?>"⟩ := by
  have read : readCode '?' ('>' :: rest) = .ok (.closeTag, ⟨['?', '>'], rest⟩) := rfl
  simp only [Mode.step, region, read, settle_close_tag]

-- Markup that no tag begins stands at the start of the source or behind `?>`.
theorem markup_behind_tag (m last : Mode) (s rest : List Char) (ls : List Lexeme)
    (run : Reads m s ls last rest) (region : last.region = .markup) (left : rest ≠ [])
    (absent : readOpenTag rest = none) :
    ls = [] ∨ ∃ earlier middle, ls = earlier ++ [⟨.closeTag, ['?', '>']⟩] ∧
      Reads m s earlier middle ('?' :: '>' :: rest) ∧ middle.region = .code ∧
      last = middle.afterCode .closeTag "?>" := by
  induction run with
  | stop m s => exact .inl rfl
  | next m last c s rest step ls read run ih =>
      right
      rcases ih region left absent with rfl | ⟨earlier, middle, rfl, early, code, mode⟩
      · obtain ⟨rfl, rfl⟩ := reads_empty _ last _ rest run
        cases step_cases m c s step read with
        | data inData => exact absurd rfl left
        | markup inMarkup none =>
            rcases to_open_tag_stops s with empty | tag
            · exact absurd empty left
            · dsimp only at absent
              rw [absent] at tag
              cases tag
        | openTag inMarkup cut found => cases region
        | code inCode shape cut found =>
            have closes : m.settle shape (String.ofList cut.text) = .closeTag := by
              by_contra other
              simp only [Mode.afterCode, if_neg other] at region
              split at region <;> cases region
            obtain rfl := settle_closes m shape _ closes
            obtain ⟨rfl, text, rfl⟩ := read_code_closes c s cut found
            refine ⟨[], m, ?_, .stop m _, inCode, ?_⟩
            · rw [closes, text]
              rfl
            · rw [closes, text]
      · exact ⟨step.lexeme :: earlier, middle, rfl, .next m middle c s _ step earlier read early, code, mode⟩

-- So the run up to the chunk is the same for any chunk.
theorem reads_markup_local (m last : Mode) (s x y : List Char) (ls : List Lexeme)
    (run : Reads m s ls last x) (region : last.region = .markup) (left : x ≠ [])
    (absent : readOpenTag x = none) : Reads m (lexemeText ls ++ y) ls last y := by
  rcases markup_behind_tag m last s x ls run region left absent with
    rfl | ⟨earlier, middle, rfl, early, code, rfl⟩
  · obtain ⟨rfl, -⟩ := reads_empty m last s x run
    exact .stop last y
  · have again := reads_local m middle s ['?', '>'] x y earlier rfl early
    have tag := close_tag_step middle y code
    have text : lexemeText (earlier ++ [⟨.closeTag, ['?', '>']⟩]) ++ y =
        lexemeText earlier ++ (['?', '>'] ++ y) := by simp [lexemeText]
    rw [text]
    exact reads_trans _ _ _ _ _ _ _ _ again (.next middle _ '?' ('>' :: y) y _ [] tag (.stop _ y))

/-! ### Sources that differ in one chunk -/

-- `chunk` is read as one lexeme of markup between `front` and `back`, so it is not empty.
def MarkupAt (front chunk back : String) : Prop :=
  let ls := (lex (front ++ chunk ++ back).toList).lexemes
  ∃ i, ls[i]? = some ⟨.markup, chunk.toList⟩ ∧ lexemeText (ls.take i) = front.toList

-- The mode in front of a chunk, and what the chunk leaves to read.
structure ReadsMarkup (m : Mode) (chunk back : List Char) : Prop where
  region : m.region = .markup
  filled : chunk ++ back ≠ []
  absent : readOpenTag (chunk ++ back) = none
  lexed : m.lex (chunk ++ back) = (m.lex back).cons ⟨.markup, chunk⟩
  tagged : back = [] ∨ (readOpenTag back).isSome = true

theorem markup_step (m : Mode) (chunk back : List Char) (c : Char) (s : List Char) (step : Step)
    (text : c :: s = chunk ++ back) (read : m.step c s = .ok step) (lexeme : step.lexeme = ⟨.markup, chunk⟩) :
    ReadsMarkup m chunk back := by
  have region : m.region = .markup := by
    have written := (step_written m c s step read).region_eq
    rw [lexeme] at written
    exact written.symm
  have whole := (Mode.whole_step read).1
  rw [lexeme, text] at whole
  have rest : step.rest = back := List.append_cancel_left whole
  cases step_cases m c s step read with
  | data inData => cases lexeme
  | openTag inMarkup cut found => cases lexeme
  | code inCode shape cut found => cases region.symm.trans inCode
  | markup inMarkup absent =>
      refine ⟨region, ?_, ?_, ?_, ?_⟩
      · rw [← text]
        exact List.cons_ne_nil c s
      · rw [← text]
        exact absent
      · rw [← text, lex_cons, read]
        dsimp only at rest lexeme ⊢
        rw [rest, lexeme]
      · rw [← rest]
        exact to_open_tag_stops s

theorem markup_read (front chunk back : String) (here : MarkupAt front chunk back) :
    ∃ before m, lexemeText before = front.toList ∧
      Reads {} (front ++ chunk ++ back).toList before m (chunk.toList ++ back.toList) ∧
      ReadsMarkup m chunk.toList back.toList := by
  obtain ⟨i, found, text⟩ := here
  obtain ⟨last, rest, run, -⟩ := source_reads (front ++ chunk ++ back).toList
  generalize (lex (front ++ chunk ++ back).toList).lexemes = ls at found text run
  have split : ls = ls.take i ++ ⟨.markup, chunk.toList⟩ :: ls.drop (i + 1) := by
    obtain ⟨inside, here⟩ := List.getElem?_eq_some_iff.mp found
    rw [← here, ← List.drop_eq_getElem_cons inside, List.take_append_drop]
  rw [split] at run
  obtain ⟨m, left, early, late⟩ := reads_append _ last _ rest _ _ run
  have whole := reads_text _ m _ left _ early
  have leaves : left = chunk.toList ++ back.toList := by
    rw [text] at whole
    simpa using whole
  subst leaves
  refine ⟨ls.take i, m, text, early, ?_⟩
  obtain ⟨c, t, step, begins, read, lexeme⟩ := reads_first m last _ rest _ _ late
  exact markup_step m _ _ c t step begins.symm read lexeme

-- Two sources that differ in a chunk have the same lexemes before it and behind it.
theorem markup_lexed (front back first second : String) (here : MarkupAt front first back)
    (there : MarkupAt front second back) :
    ∃ before m, ReadsMarkup m first.toList back.toList ∧
      (before = [] ∨ ∃ earlier, before = earlier ++ [⟨.closeTag, ['?', '>']⟩]) ∧
      ∀ chunk ∈ [first, second], lex (front ++ chunk ++ back).toList =
        ⟨before ++ ⟨.markup, chunk.toList⟩ :: (m.lex back.toList).lexemes, (m.lex back.toList).failure⟩ := by
  obtain ⟨before, m, text, run, chunk⟩ := markup_read front first back here
  obtain ⟨also, n, spelled, again, other⟩ := markup_read front second back there
  have moved := reads_markup_local _ m _ _ (second.toList ++ back.toList) before run chunk.region
    chunk.filled chunk.absent
  have joined : lexemeText before ++ (second.toList ++ back.toList) = (front ++ second ++ back).toList := by
    simp [text]
  rw [joined] at moved
  obtain ⟨rfl, rfl⟩ := reads_unique _ n m _ _ also before again moved
  refine ⟨also, n, chunk, ?_, ?_⟩
  · rcases markup_behind_tag _ n _ _ also run chunk.region chunk.filled chunk.absent with
      empty | ⟨earlier, middle, tagged, -⟩
    · exact .inl empty
    · exact .inr ⟨earlier, tagged⟩
  · intro text member
    simp only [List.mem_cons, List.not_mem_nil, or_false] at member
    rcases member with rfl | rfl
    · rw [lex, reads_lex _ n _ _ also run, chunk.lexed]
      rfl
    · rw [lex, reads_lex _ n _ _ also again, other.lexed]
      rfl

/-! ### Tokens and reports -/

theorem line_after_all_append (line : Int) (a b : List Lexeme) :
    lineAfterAll line (a ++ b) = lineAfterAll (lineAfterAll line a) b := by
  induction a generalizing line with
  | nil => rfl
  | cons l a ih => exact ih (l.lineAfter line)

theorem open_tag_follows (m : Mode) (chunk back : List Char) (reads : ReadsMarkup m chunk back) (l : Lexeme)
    (head : l ∈ (m.lex back).lexemes.head?) : l.shape = .openTag := by
  cases back with
  | nil =>
      rw [Mode.lex] at head
      cases head
  | cons c s =>
      obtain ⟨cut, tag⟩ := Option.isSome_iff_exists.mp (reads.tagged.resolve_left (List.cons_ne_nil c s))
      have read := step_of_case m c s _ (.openTag reads.region cut tag)
      rw [lex_cons, read] at head
      exact Option.some.inj head ▸ rfl

theorem numbered_head (line : Int) (ls : List Lexeme) (t : Token) (head : t ∈ (numbered line ls).head?) :
    ∃ l ∈ ls.head?, t.kind = l.shape.kind := by
  cases ls with
  | nil => cases head
  | cons l ls => exact ⟨l, rfl, Option.some.inj head ▸ rfl⟩

theorem numbered_last (line : Int) (ls : List Lexeme) (l : Lexeme) (t : Token)
    (last : t ∈ (numbered line (ls ++ [l])).getLast?) :
    t.kind = l.shape.kind ∧ t.text = String.ofList l.text := by
  rw [numbered_append, numbered, numbered, List.getLast?_append] at last
  exact Option.some.inj last ▸ ⟨rfl, rfl⟩

theorem markup_tokenization (before after : List Lexeme) (failure : Option Unterminated) (chunk : String) :
    Lexing.tokenization ⟨before ++ ⟨.markup, chunk.toList⟩ :: after, failure⟩ =
      let line := lineAfterAll 1 before
      let next := line + newlines chunk.toList
      ⟨numbered 1 before ++ ⟨.other, chunk, line⟩ :: numbered next after,
        failure.map fun construct => ⟨construct, lineAfterAll next after⟩⟩ := by
  simp only [Lexing.tokenization, numbered_append, line_after_all_append, numbered, lineAfterAll,
    String.ofList_toList]
  rfl

theorem markup_declarations (before after : List Lexeme) (first second : String)
    (lines : newlines first.toList = newlines second.toList) (marks : ∀ m ∈ walkMarks, first = m ↔ second = m)
    (behind : before = [] ∨ ∃ earlier, before = earlier ++ [⟨.closeTag, ['?', '>']⟩])
    (follows : ∀ l ∈ after.head?, l.shape = .openTag) (line next : Int) :
    declarations (numbered 1 before ++ ⟨.other, first, line⟩ :: numbered next after) =
      declarations (numbered 1 before ++ ⟨.other, second, line⟩ :: numbered next after) := by
  apply exchanged_scan
  · exact ⟨⟨rfl, rfl⟩, congrArg (fun n : Nat => line + (n : Int)) lines, marks⟩
  · intro t last
    rcases behind with rfl | ⟨earlier, rfl⟩
    · cases last
    · obtain ⟨kind, text⟩ := numbered_last 1 earlier _ t last
      refine ⟨kind, ?_⟩
      rw [text]
      decide
  · intro t head
    obtain ⟨l, first, kind⟩ := numbered_head next after t head
    rw [kind, follows l first]
    rfl

theorem markup_inert (front back first second : String) (here : MarkupAt front first back)
    (there : MarkupAt front second back) (lines : newlines first.toList = newlines second.toList)
    (marks : ∀ m ∈ walkMarks, first = m ↔ second = m) (flags : SkipFlags) (path : String) :
    checkSource flags path (front ++ first ++ back) = checkSource flags path (front ++ second ++ back) := by
  obtain ⟨before, m, chunk, behind, lexed⟩ := markup_lexed front back first second here there
  have follows := open_tag_follows m _ _ chunk
  have same := markup_declarations before _ first second lines marks behind follows (lineAfterAll 1 before)
    (lineAfterAll 1 before + newlines first.toList)
  rw [checkSource, checkSource, tokens?, tokens?, tokenize, tokenize, lexed first (by simp), lexed second (by simp),
    markup_tokenization, markup_tokenization, ← lines]
  cases (m.lex back.toList).failure with
  | some construct => rfl
  | none =>
      dsimp only [Option.map_none]
      rw [scan_composed, scan_composed, same]

theorem markup_inert_with_declaration :
    let front := "<?php /** A */ ?>"
    let back := "<?php class A \x7b\x7d"
    MarkupAt front "class B \x7b" back ∧ MarkupAt front "<p>&" back ∧
      checkSource {} "a.php" (front ++ "class B \x7b" ++ back) =
        checkSource {} "a.php" (front ++ "<p>&" ++ back) := by
  intro front back
  have here : MarkupAt front "class B \x7b" back := ⟨5, by decide +kernel, by decide +kernel⟩
  have there : MarkupAt front "<p>&" back := ⟨5, by decide +kernel, by decide +kernel⟩
  refine ⟨here, there, markup_inert front back _ _ here there ?_ ?_ {} "a.php"⟩
  · decide
  · decide

-- A chunk that reads as a mark is taken for code: a `;` cuts a class off from its docblock, and a
-- bracket breaks an attribute that reaches across the tags.
theorem markup_mark_counts :
    let documented := "<?php /** A */ ?>"
    let head := "<?php class A \x7b\x7d"
    let group := "<?php /** A */\n#[B ?>"
    let rest := "<?php\n] class A \x7b\x7d"
    (MarkupAt documented ";" head ∧ MarkupAt documented "x" head ∧
      checkSource {} "a.php" (documented ++ ";" ++ head) ≠ checkSource {} "a.php" (documented ++ "x" ++ head)) ∧
    ∀ bracket ∈ ["[", "]", "#["], MarkupAt group bracket rest ∧ MarkupAt group "x" rest ∧
      checkSource {} "a.php" (group ++ bracket ++ rest) ≠ checkSource {} "a.php" (group ++ "x" ++ rest) := by
  intro documented head group rest
  have semicolon : MarkupAt documented ";" head := ⟨5, by decide +kernel, by decide +kernel⟩
  have letter : MarkupAt documented "x" head := ⟨5, by decide +kernel, by decide +kernel⟩
  have inside : MarkupAt group "x" rest := ⟨8, by decide +kernel, by decide +kernel⟩
  refine ⟨⟨semicolon, letter, by decide +kernel⟩, ?_⟩
  intro bracket listed
  simp only [List.mem_cons, List.not_mem_nil, or_false] at listed
  rcases listed with rfl | rfl | rfl
  · exact ⟨⟨8, by decide +kernel, by decide +kernel⟩, inside, by decide +kernel⟩
  · exact ⟨⟨8, by decide +kernel, by decide +kernel⟩, inside, by decide +kernel⟩
  · exact ⟨⟨8, by decide +kernel, by decide +kernel⟩, inside, by decide +kernel⟩

end DocAudit.Php
