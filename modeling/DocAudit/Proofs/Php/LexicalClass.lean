import DocAudit.Proofs.Php.Markup

/-!
Token kinds as lexical classes. A token is spelled as its kind asks and goes on as far as its kind
allows, and what is read as more than other text stands in code.
-/

set_option autoImplicit false

namespace DocAudit.Php

-- Of the class, where no longer text of the class begins.
def Longest (ofClass : List Char → Prop) (text rest : List Char) : Prop :=
  ofClass text ∧ ∀ more, more ≠ [] → more <+: rest → ¬ ofClass (text ++ more)

def IsLayout (text : List Char) : Prop := text ≠ [] ∧ ∀ c ∈ text, layout c = true

-- A line comment ends in front of a line break, of `?>` or of the end.
def EndsLine (rest : List Char) : Prop :=
  rest = [] ∨ rest.head? = some '\r' ∨ rest.head? = some '\n' ∨ ['?', '>'] <+: rest

def WithinLine (text : List Char) : Prop := '\r' ∉ text ∧ '\n' ∉ text ∧ ¬ ['?', '>'] <:+: text

structure IsLineComment (text rest : List Char) : Prop where
  opens : ∃ more, text = '/' :: '/' :: more ∨ text = '#' :: more ∧ (more ++ rest).head? ≠ some '['
  within : WithinLine text
  ends : EndsLine rest

-- From `/*` through the first `*/` behind it.
def IsComment (text : List Char) : Prop :=
  ∃ inner, text = '/' :: '*' :: (inner ++ ['*', '/']) ∧ ¬ HasCommentEnd (inner ++ ['*'])

def OpensDocblock (text : List Char) : Prop :=
  ∃ c more, text = '/' :: '*' :: '*' :: c :: more ∧ layout c = true

-- The class of each kind, in front of the rest of the source.
def LexicalClass (text rest : List Char) : TokenKind → Prop
  | .whitespace => Longest IsLayout text rest
  | .lineComment => IsLineComment text rest
  | .docComment => IsComment text ∧ OpensDocblock text
  | .blockComment => IsComment text ∧ ¬ OpensDocblock text
  | .openBrace => text = ['{']
  | .closeBrace => text = ['}']
  | .keyword => Longest IsLabel text rest ∧ Text.lower (String.ofList text) ∈ reservedWords
  | .identifier => Longest IsLabel text rest
  | .other => True

/-! ### Runs of characters -/

-- A text of `p` alone goes on no further than to the first character that is not of `p`.
theorem longest_run (ofClass : List Char → Prop) (p : Char → Bool) (text rest : List Char)
    (only : ∀ more, ofClass more → ∀ c ∈ more, p c = true) (here : ofClass text)
    (stops : ∀ c ∈ rest.head?, p c = false) : Longest ofClass text rest := by
  refine ⟨here, ?_⟩
  intro more filled begins longer
  obtain ⟨c, more, rfl⟩ := List.exists_cons_of_ne_nil filled
  obtain ⟨left, rfl⟩ := begins
  have inside := only _ longer c (by simp)
  rw [stops c rfl] at inside
  cases inside

theorem label_chars (text : List Char) (label : IsLabel text) : ∀ c ∈ text, labelChar c = true := by
  obtain ⟨first, w, rfl, start, rest⟩ := label
  exact List.forall_mem_cons.mpr ⟨labelChar_of_labelStart start, rest⟩

theorem read_layout (c : Char) (s : List Char) (blank : layout c = true) :
    Longest IsLayout ((Cut.run layout s).cons c).text ((Cut.run layout s).cons c).rest := by
  apply longest_run IsLayout layout
  · exact fun more here => here.2
  · exact ⟨by simp, List.forall_mem_cons.mpr ⟨blank, run_class layout s⟩⟩
  · exact run_stops layout s

theorem read_label (c : Char) (s : List Char) (start : labelStart c = true) :
    Longest IsLabel ((Cut.run labelChar s).cons c).text ((Cut.run labelChar s).cons c).rest := by
  apply longest_run IsLabel labelChar
  · exact label_chars
  · exact ⟨c, (Cut.run labelChar s).text, rfl, start, run_class labelChar s⟩
  · exact run_stops labelChar s

/-! ### Comments -/

theorem past_comment_end_first (s : List Char) (cut : Cut) (found : pastCommentEnd s = some cut) :
    ∃ inner, cut.text = inner ++ ['*', '/'] ∧ ¬ HasCommentEnd (inner ++ ['*']) := by
  fun_induction pastCommentEnd s generalizing cut with
  | case1 => cases found
  | case2 s =>
      cases found
      refine ⟨[], rfl, ?_⟩
      rintro ⟨u, v, split⟩
      have length := congrArg List.length split
      simp at length
      omega
  | case3 c s other ih =>
      obtain ⟨shorter, ended, rfl⟩ := Option.map_eq_some_iff.mp found
      obtain ⟨inner, text, first⟩ := ih shorter ended
      refine ⟨c :: inner, congrArg (List.cons c) text, ?_⟩
      rintro ⟨u, v, split⟩
      cases u with
      | cons d u => exact first ⟨u, v, (List.cons.inj split).2⟩
      | nil =>
          -- the end would have been met in front of this one
          obtain ⟨rfl, slash⟩ := List.cons.inj split
          have whole := whole_pastCommentEnd ended
          rw [Cut.whole, text] at whole
          cases inner with
          | nil => simp at slash
          | cons d inner =>
              obtain ⟨rfl, -⟩ := List.cons.inj slash
              exact other _ rfl whole.symm

theorem comment_shape_cases (body : List Char) :
    commentShape body = .docComment ∧ OpensDocblock ('/' :: '*' :: body) ∨
      commentShape body = .blockComment ∧ ¬ OpensDocblock ('/' :: '*' :: body) := by
  have opens : OpensDocblock ('/' :: '*' :: body) ↔ body.head? = some '*' ∧ body.tail.head?.any layout = true := by
    constructor
    · rintro ⟨c, more, text, blank⟩
      obtain rfl := (List.cons.inj (List.cons.inj text).2).2
      exact ⟨rfl, blank⟩
    · rintro ⟨star, following⟩
      obtain ⟨c, here, blank⟩ := (Option.any_eq_true _ _).mp following
      exact ⟨c, body.tail.tail, by rw [← head?_eq_some here, ← head?_eq_some star], blank⟩
  rw [comment_shape_eq, opens]
  by_cases star : body.head? = some '*' ∧ body.tail.head?.any layout = true
  · exact .inl ⟨if_pos star, star⟩
  · exact .inr ⟨if_neg star, star⟩

theorem read_comment (body : List Char) (cut : Cut) (found : pastCommentEnd body = some cut) (rest : List Char) :
    LexicalClass ('/' :: '*' :: cut.text) rest (commentShape cut.text).kind := by
  obtain ⟨inner, text, first⟩ := past_comment_end_first body cut found
  have comment : IsComment ('/' :: '*' :: cut.text) := ⟨inner, by rw [text], first⟩
  rcases comment_shape_cases cut.text with ⟨shape, opens⟩ | ⟨shape, plain⟩
  · rw [shape]
    exact ⟨comment, opens⟩
  · rw [shape]
    exact ⟨comment, plain⟩

theorem within_line_cons (c : Char) (text : List Char) (within : WithinLine text)
    (other : ¬ (c = '\r' ∨ c = '\n')) (mark : c = '?' → text.head? ≠ some '>') : WithinLine (c :: text) := by
  obtain ⟨cr, lf, tag⟩ := within
  rw [not_or] at other
  refine ⟨by simp [cr, Ne.symm other.1], by simp [lf, Ne.symm other.2], ?_⟩
  intro inside
  rcases List.infix_cons_iff.mp inside with ⟨more, begins⟩ | later
  · obtain ⟨rfl, rfl⟩ := List.cons.inj begins
    exact mark rfl rfl
  · exact tag later

theorem to_line_end_within (s : List Char) : WithinLine (toLineEnd s).text ∧ EndsLine (toLineEnd s).rest := by
  have empty : WithinLine [] := ⟨by simp, by simp, by simp⟩
  fun_induction toLineEnd s with
  | case1 => exact ⟨empty, .inl rfl⟩
  | case2 s => exact ⟨empty, .inr (.inr (.inr ⟨s, rfl⟩))⟩
  | case3 c s _ breaks =>
      refine ⟨empty, ?_⟩
      rcases breaks with rfl | rfl
      · exact .inr (.inl rfl)
      · exact .inr (.inr (.inl rfl))
  | case4 c s noTag other ih =>
      refine ⟨within_line_cons c _ ih.1 other ?_, ih.2⟩
      rintro rfl closes
      have whole := whole_toLineEnd s
      rw [Cut.whole, head?_eq_some closes] at whole
      exact noTag _ rfl whole.symm

theorem read_line_comment (c : Char) (s : List Char)
    (opens : (c = '/' ∧ s.head? = some '/') ∨ (c = '#' ∧ s.head? ≠ some '[')) :
    IsLineComment (c :: (toLineEnd s).text) (toLineEnd s).rest := by
  obtain ⟨within, ends⟩ := to_line_end_within s
  have whole := whole_toLineEnd s
  rw [Cut.whole] at whole
  rcases opens with ⟨rfl, slash⟩ | ⟨rfl, bracket⟩
  · refine ⟨⟨(toLineEnd s.tail).text, .inl ?_⟩, ?_, ends⟩
    · rw [head?_eq_some slash, to_line_end_other '/' s.tail (fun mark => absurd mark (by decide)), if_neg (by decide)]
      rfl
    · exact within_line_cons '/' _ within (by decide) fun mark => absurd mark (by decide)
  · refine ⟨⟨(toLineEnd s).text, .inr ⟨rfl, ?_⟩⟩, ?_, ends⟩
    · rw [whole]
      exact bracket
    · exact within_line_cons '#' _ within (by decide) fun mark => absurd mark (by decide)

/-! ### One step -/

theorem read_plain_class (c : Char) (s : List Char) :
    LexicalClass (readPlain c s).2.text (readPlain c s).2.rest (readPlain c s).1.kind := by
  unfold readPlain
  split
  · rename_i brace
    exact congrArg (fun d => [d]) brace
  split
  · rename_i brace
    exact congrArg (fun d => [d]) brace
  split
  · split <;> trivial
  split
  · rename_i start
    exact read_label c s start
  split <;> trivial

-- The ways in which a lexeme of code can be read, with all that is known of each.
inductive CodeCase (c : Char) (s : List Char) : Shape → Cut → Prop where
  | whitespace (blank : layout c = true) : CodeCase c s .whitespace ((Cut.run layout s).cons c)
  | closeTag (mark : c = '?' ∧ s.head? = some '>') : CodeCase c s .closeTag ⟨['?', '>'], s.tail⟩
  | comment (opens : c = '/' ∧ s.head? = some '*') (cut : Cut) (ended : pastCommentEnd s.tail = some cut) :
      CodeCase c s (commentShape cut.text) ((cut.cons '*').cons '/')
  | lineComment (opens : (c = '/' ∧ s.head? = some '/') ∨ (c = '#' ∧ s.head? ≠ some '[')) :
      CodeCase c s .lineComment ((toLineEnd s).cons c)
  | quoted (quote : isQuote c = true) (cut : Cut) (ended : pastQuote c s = some cut) :
      CodeCase c s .quoted (cut.cons c)
  | heredoc (opener : Opener) (opens : readOpener (c :: s) = some opener) (cut : Cut)
      (ended : pastClosing opener.label true opener.cut.rest = some cut) :
      CodeCase c s .heredoc (cut.after opener.cut.text)
  | plain (absent : readOpener (c :: s) = none) : CodeCase c s (readPlain c s).1 (readPlain c s).2

theorem read_code_cases (c : Char) (s : List Char) (shape : Shape) (cut : Cut)
    (found : readCode c s = .ok (shape, cut)) : CodeCase c s shape cut := by
  unfold readCode at found
  split at found
  · rename_i blank
    cases found
    exact .whitespace blank
  split at found
  · rename_i mark
    cases found
    exact .closeTag mark
  split at found
  · rename_i opens
    split at found
    · rename_i inner ended
      cases found
      exact .comment opens inner ended
    · cases found
  split at found
  · rename_i opens
    cases found
    exact .lineComment opens
  split at found
  · rename_i quote
    split at found
    · rename_i inner ended
      cases found
      exact .quoted quote inner ended
    · cases found
  split at found
  · rename_i opener opens
    split at found
    · rename_i inner ended
      cases found
      exact .heredoc opener opens inner ended
    · cases found
  · rename_i absent
    have plain : CodeCase c s (readPlain c s).1 (readPlain c s).2 := .plain absent
    rw [Except.ok.inj found] at plain
    exact plain

theorem read_code_class (c : Char) (s : List Char) (shape : Shape) (cut : Cut)
    (found : readCode c s = .ok (shape, cut)) : LexicalClass cut.text cut.rest shape.kind := by
  cases read_code_cases c s shape cut found with
  | whitespace blank => exact read_layout c s blank
  | closeTag mark => trivial
  | comment opens cut ended => exact read_comment s.tail cut ended cut.rest
  | lineComment opens => exact read_line_comment c s opens
  | quoted quote cut ended => trivial
  | heredoc opener opens cut ended => trivial
  | plain absent => exact read_plain_class c s

theorem settle_class (m : Mode) (shape : Shape) (text rest : List Char) (here : LexicalClass text rest shape.kind) :
    LexicalClass text rest (m.settle shape (String.ofList text)).kind := by
  unfold Mode.settle
  split
  · rename_i reserved
    obtain ⟨rfl, word⟩ := reserved
    rw [isReserved, Bool.and_eq_true] at word
    exact ⟨here, List.contains_iff_mem.mp word.1⟩
  · exact here

theorem step_class (m : Mode) (c : Char) (s : List Char) (step : Step) (read : m.step c s = .ok step) :
    LexicalClass step.lexeme.text step.rest step.lexeme.shape.kind := by
  cases step_cases m c s step read with
  | data region => trivial
  | markup region absent => trivial
  | openTag region cut found => trivial
  | code region shape cut found => exact settle_class m shape cut.text cut.rest (read_code_class c s shape cut found)

theorem region_of_kind (shape : Shape) (special : shape.kind ≠ .other) : shape.region = .code := by
  cases shape <;> first | rfl | exact absurd rfl special

/-! ### All tokens of a source -/

-- The step that reads a lexeme, behind the run that reads those before it.
theorem reads_step (m last : Mode) (s rest : List Char) (before after : List Lexeme) (l : Lexeme)
    (run : Reads m s (before ++ l :: after) last rest) :
    ∃ middle c t step, Reads m s before middle (c :: t) ∧ middle.step c t = .ok step ∧ step.lexeme = l ∧
      Reads step.mode step.rest after last rest := by
  obtain ⟨middle, text, early, late⟩ := reads_append m last s rest before (l :: after) run
  cases late with
  | next _ _ c t _ step _ read run => exact ⟨middle, c, t, step, early, read, rfl, run⟩

theorem numbered_token (line : Int) (ls : List Lexeme) (before after : List Token) (t : Token)
    (split : numbered line ls = before ++ t :: after) :
    ∃ first l later, ls = first ++ l :: later ∧ before = numbered line first ∧
      t.kind = l.shape.kind ∧ t.text.toList = l.text := by
  obtain ⟨first, l, later, rfl, rfl, -⟩ := numbered_split line ls before after t split
  rw [numbered_append, numbered] at split
  obtain ⟨rfl, -⟩ := List.cons.inj (List.append_cancel_left split)
  exact ⟨first, l, later, rfl, rfl, rfl, by simp⟩

-- The step behind a token of a source.
theorem token_step (source : String) (before after : List Token) (t : Token)
    (split : (tokenize source).tokens = before ++ t :: after) :
    ∃ first middle c s step, Reads {} source.toList first middle (c :: s) ∧ middle.step c s = .ok step ∧
      before = numbered 1 first ∧ t.kind = step.lexeme.shape.kind ∧ t.text.toList = step.lexeme.text := by
  obtain ⟨last, rest, run, -⟩ := source_reads source.toList
  obtain ⟨first, l, later, lexemes, rfl, kind, text⟩ := numbered_token 1 _ before after t split
  rw [lexemes] at run
  obtain ⟨middle, c, s, step, early, read, rfl, -⟩ := reads_step _ last _ rest first later l run
  exact ⟨first, middle, c, s, step, early, read, rfl, kind, text⟩

theorem token_class (source : String) (before after : List Token) (t : Token)
    (split : (tokenize source).tokens = before ++ t :: after) :
    ∃ rest, tokenText before ++ (t.text.toList ++ rest) = source.toList ∧
      LexicalClass t.text.toList rest t.kind ∧
      (t.kind ≠ .other → CodeFollows before (t.text.toList ++ rest)) := by
  obtain ⟨first, middle, c, s, step, early, read, rfl, kind, text⟩ := token_step source before after t split
  have whole := (Mode.whole_step read).1
  refine ⟨step.rest, ?_, ?_, ?_⟩
  · rw [numbered_text, text, whole]
    exact reads_text _ middle _ _ first early
  · rw [text, kind]
    exact step_class middle c s step read
  · intro special
    rw [kind] at special
    have region := (step_written middle c s step read).region_eq.symm.trans (region_of_kind _ special)
    rw [text, whole]
    rcases reads_code_region _ middle _ _ first early region with ⟨start, -⟩ | ⟨front, tag, back, rfl, opens, none⟩
    · cases start
    · exact numbered_code_follows 1 front back tag (c :: s) opens none

-- A token of the same class would have been read as part of the one before it.
theorem adjacent_apart (ofClass : List Char → Prop) (source : String) (before after : List Token) (t u : Token)
    (split : (tokenize source).tokens = before ++ t :: u :: after)
    (here : ∀ rest, LexicalClass t.text.toList rest t.kind → Longest ofClass t.text.toList rest)
    (joins : ∀ rest, LexicalClass u.text.toList rest u.kind → ofClass t.text.toList →
      ofClass (t.text.toList ++ u.text.toList)) : False := by
  obtain ⟨rest, whole, first, -⟩ := token_class source before (u :: after) t split
  obtain ⟨left, again, second, -⟩ := token_class source (before ++ [t]) after u (by simpa using split)
  have filled : u.text.toList ≠ [] := by
    have nonempty := tokenize_nonempty source u (by simp [split])
    simpa using nonempty
  have begins : rest = u.text.toList ++ left := by
    rw [← again, token_text_append] at whole
    simpa [tokenText] using whole
  obtain ⟨member, longest⟩ := here rest first
  exact longest u.text.toList filled ⟨left, begins.symm⟩ (joins left second member)

theorem label_class (text rest : List Char) (kind : TokenKind) (label : kind.isLabel = true)
    (here : LexicalClass text rest kind) : Longest IsLabel text rest := by
  cases kind with
  | keyword => exact here.1
  | identifier => exact here
  | _ => cases label

theorem layout_apart (source : String) (before after : List Token) (t u : Token)
    (split : (tokenize source).tokens = before ++ t :: u :: after) :
    ¬ (t.kind = .whitespace ∧ u.kind = .whitespace) := by
  rintro ⟨first, second⟩
  refine adjacent_apart IsLayout source before after t u split ?_ ?_
  · rw [first]
    exact fun rest here => here
  · rw [second]
    rintro rest ⟨here, -⟩ earlier
    exact ⟨by simp [earlier.1], List.forall_mem_append.mpr ⟨earlier.2, here.2⟩⟩

theorem labels_apart (source : String) (before after : List Token) (t u : Token)
    (split : (tokenize source).tokens = before ++ t :: u :: after) :
    ¬ (t.kind.isLabel = true ∧ u.kind.isLabel = true) := by
  rintro ⟨first, second⟩
  refine adjacent_apart IsLabel source before after t u split ?_ ?_
  · exact fun rest here => label_class _ rest _ first here
  · rintro rest here ⟨c, w, text, start, chars⟩
    have label := label_chars _ (label_class _ rest _ second here).1
    exact ⟨c, w ++ u.text.toList, by rw [text, List.cons_append], start, List.forall_mem_append.mpr ⟨chars, label⟩⟩

theorem tokens_of_lexical_class (source : String) :
    (∀ (before after : List Token) (t : Token), (tokenize source).tokens = before ++ t :: after →
      ∃ rest, tokenText before ++ (t.text.toList ++ rest) = source.toList ∧
        LexicalClass t.text.toList rest t.kind ∧
        (t.kind ≠ .other → CodeFollows before (t.text.toList ++ rest))) ∧
    ∀ (before after : List Token) (t u : Token), (tokenize source).tokens = before ++ t :: u :: after →
      ¬ (t.kind = .whitespace ∧ u.kind = .whitespace) ∧ ¬ (t.kind.isLabel = true ∧ u.kind.isLabel = true) := by
  refine ⟨token_class source, ?_⟩
  intro before after t u split
  exact ⟨layout_apart source before after t u split, labels_apart source before after t u split⟩

-- A keyword in the second code region, a docblock behind it, and a string without an end.
theorem tokens_of_lexical_class_after_markup :
    let source := "<?= 1 ?>a<?PHP\tclass/** b */'"
    let word : Token := ⟨.keyword, "class", 1⟩
    let comment : Token := ⟨.docComment, "/** b */", 1⟩
    let rest := "/** b */'".toList
    let before : List Token := [⟨.other, "<?=", 1⟩, ⟨.whitespace, " ", 1⟩, ⟨.other, "1", 1⟩, ⟨.whitespace, " ", 1⟩,
      ⟨.other, "?>", 1⟩, ⟨.other, "a", 1⟩, ⟨.other, "<?PHP", 1⟩, ⟨.whitespace, "\t", 1⟩]
    (tokenize source).tokens = before ++ [word, comment] ∧
      Longest IsLabel word.text.toList rest ∧ CodeFollows before (word.text.toList ++ rest) ∧
      IsComment comment.text.toList ∧ OpensDocblock comment.text.toList ∧
      ¬ (word.kind.isLabel = true ∧ comment.kind.isLabel = true) := by
  intro source word comment rest before
  have read : (tokenize source).tokens = before ++ [word, comment] := by decide +kernel
  obtain ⟨classes, apart⟩ := tokens_of_lexical_class source
  obtain ⟨left, whole, label, code⟩ := classes before [comment] word read
  obtain ⟨behind, -, block, -⟩ := classes (before ++ [word]) [] comment read
  have same : left = rest := by
    have chars : source.toList = tokenText before ++ (word.text.toList ++ rest) := by decide
    rw [chars] at whole
    exact List.append_cancel_left (List.append_cancel_left whole)
  subst same
  exact ⟨read, label.1, code (by decide), block.1, block.2, (apart before [] word comment read).2⟩

end DocAudit.Php
