import DocAudit.Proofs.Php.LineCount
import DocAudit.Proofs.Php.Resemblance

/-!
Strings, heredocs and comments are inert. No text of one of them is a text that a scan looks for,
so a change inside them that keeps the line breaks changes no finding and no summary.
-/

set_option autoImplicit false

namespace DocAudit.Php

def Shape.literal : Shape → Bool
  | .quoted | .heredoc | .docComment | .blockComment | .lineComment => true
  | _ => false

-- How a literal or a comment begins. A `#` in front of a `[` begins no comment.
def opensLiteral (c : Char) (rest : List Char) : Prop :=
  isQuote c = true ∨ c = '<' ∨ c = '/' ∨ (c = '#' ∧ rest.head? ≠ some '[')
deriving Decidable

theorem read_code_first (c : Char) (s : List Char) (shape : Shape) (cut : Cut)
    (found : readCode c s = .ok (shape, cut)) : ∃ rest, cut.text = c :: rest ∧ rest ++ cut.rest = s := by
  obtain ⟨whole, filled⟩ := whole_readCode found
  rw [Cut.whole] at whole
  cases text : cut.text with
  | nil => exact absurd text filled
  | cons d rest =>
      rw [text, List.cons_append] at whole
      obtain ⟨rfl, rfl⟩ := List.cons.inj whole
      exact ⟨rest, rfl, rfl⟩

theorem read_plain_not_literal (c : Char) (s : List Char) : (readPlain c s).1.literal = false := by
  unfold readPlain
  repeat' split
  all_goals rfl

theorem read_code_opens (c : Char) (s : List Char) (shape : Shape) (cut : Cut)
    (found : readCode c s = .ok (shape, cut)) (literal : shape.literal = true) : opensLiteral c s := by
  unfold readCode at found
  split at found
  · cases found
    cases literal
  split at found
  · cases found
    cases literal
  split at found
  · rename_i opening
    exact .inr (.inr (.inl opening.1))
  split at found
  · rename_i opening
    rcases opening with slashes | hash
    · exact .inr (.inr (.inl slashes.1))
    · exact .inr (.inr (.inr hash))
  split at found
  · rename_i quote
    exact .inl quote
  split at found
  · rename_i opener opens
    obtain ⟨gap, form, lineEnd, text, -⟩ := (read_opener (c :: s) opener opens).opens
    exact .inr (.inl (List.cons.inj text).1)
  · have plain := read_plain_not_literal c s
    rw [Except.ok.inj found, literal] at plain
    cases plain

theorem settle_literal (m : Mode) (shape : Shape) (text : String)
    (literal : (m.settle shape text).literal = true) : shape.literal = true := by
  unfold Mode.settle at literal
  split at literal
  · cases literal
  · exact literal

theorem step_opens (m : Mode) (c : Char) (s : List Char) (step : Step) (read : m.step c s = .ok step)
    (literal : step.lexeme.shape.literal = true) :
    ∃ d rest, step.lexeme.text = d :: rest ∧ opensLiteral d rest := by
  cases step_cases m c s step read with
  | data region => cases literal
  | markup region absent => cases literal
  | openTag region cut found => cases literal
  | code region shape cut found =>
      obtain ⟨rest, text, whole⟩ := read_code_first c s shape cut found
      refine ⟨c, rest, text, ?_⟩
      rcases read_code_opens c s shape cut found (settle_literal m shape _ literal) with quote | angle | slash | hash
      · exact .inl quote
      · exact .inr (.inl angle)
      · exact .inr (.inr (.inl slash))
      · refine .inr (.inr (.inr ⟨hash.1, ?_⟩))
        intro bracket
        apply hash.2
        rw [← whole, List.head?_append, bracket]
        rfl

theorem reads_literals (m last : Mode) (s rest : List Char) (ls : List Lexeme)
    (run : Reads m s ls last rest) :
    ∀ l ∈ ls, l.shape.literal = true → ∃ c rest, l.text = c :: rest ∧ opensLiteral c rest :=
  reads_each (fun l => l.shape.literal = true → ∃ c rest, l.text = c :: rest ∧ opensLiteral c rest) step_opens
    m last s rest ls run

/-! ### Texts that a scan does not look for -/

theorem literal_char (c : Char) (rest : List Char) (opens : opensLiteral c rest) :
    c ∈ ['\'', '"', backtick, '<', '/', '#'] := by
  rcases opens with quote | angle | slash | hash
  · simp only [isQuote, Bool.or_eq_true, beq_iff_eq] at quote
    rcases quote with (single | double) | back
    · simp [single]
    · simp [double]
    · simp [back]
  · simp [angle]
  · simp [slash]
  · simp [hash.1]

theorem marked_chars : marks.map String.toList = [['['], [']'], ['#', '['], [';'], ['&'], ['(']] := by
  decide

theorem literal_unmarked (c : Char) (rest : List Char) (opens : opensLiteral c rest) :
    String.ofList (c :: rest) ∉ marks := by
  intro mark
  have chars := List.mem_map_of_mem (f := String.toList) mark
  rw [String.toList_ofList, marked_chars] at chars
  simp only [List.mem_cons, List.cons.injEq, List.not_mem_nil, or_false] at chars
  have initial := literal_char c rest opens
  rcases chars with ⟨rfl, -⟩ | ⟨rfl, -⟩ | ⟨rfl, rfl⟩ | ⟨rfl, -⟩ | ⟨rfl, -⟩ | ⟨rfl, -⟩
  · exact absurd initial (by decide)
  · exact absurd initial (by decide)
  · exact absurd opens (by decide)
  · exact absurd initial (by decide)
  · exact absurd initial (by decide)
  · exact absurd initial (by decide)

theorem literal_not_use (c : Char) (rest : List Char) (opens : opensLiteral c rest) :
    Text.lower (String.ofList (c :: rest)) ≠ "use" := by
  intro use
  have initial := literal_char c rest opens
  have plain : (['\'', '"', backtick, '<', '/', '#'].all fun d =>
      decide (d.toNat < 0x80 ∧ Text.lowerAscii d ∉ "use".toList)) = true := by decide
  obtain ⟨ascii, outside⟩ := of_decide_eq_true (List.all_eq_true.mp plain c initial)
  apply outside
  rw [← use]
  exact Text.mem_lower ascii (by simp)

/-! ### Sources that differ in literals -/

theorem numbered_at (line : Int) (ls : List Lexeme) (i : Nat) (t : Token)
    (here : (numbered line ls)[i]? = some t) :
    ∃ l, ls[i]? = some l ∧ t.kind = l.shape.kind ∧ t.text = String.ofList l.text := by
  induction ls generalizing line i with
  | nil => simp [numbered] at here
  | cons l ls ih =>
      cases i with
      | zero =>
          have same : _ = t := Option.some.inj here
          subst same
          exact ⟨l, rfl, rfl, rfl⟩
      | succ i => exact ih _ i here

theorem literal_not_label (shape : Shape) (literal : shape.literal = true) : shape.kind.isLabel = false := by
  cases shape <;> first | rfl | cases literal

-- The token at `i` is a string, a heredoc or a comment.
def literalAt (source : String) (i : Nat) : Bool := (lex source.toList).lexemes[i]?.any (·.shape.literal)

theorem literal_at_opens (source : String) (i : Nat) (t : Token)
    (here : (tokenize source).tokens[i]? = some t) (literal : literalAt source i = true) :
    t.kind.isLabel = false ∧ ∃ c rest, t.text = String.ofList (c :: rest) ∧ opensLiteral c rest := by
  obtain ⟨last, left, run, -⟩ := source_reads source.toList
  obtain ⟨l, lexeme, shape⟩ := (Option.any_eq_true _ _).mp literal
  obtain ⟨k, found, kind, text⟩ := numbered_at 1 _ i t here
  have same : l = k := Option.some.inj (lexeme.symm.trans found)
  subst same
  obtain ⟨c, rest, chars, opens⟩ := reads_literals _ last _ left _ run l (List.mem_of_getElem? lexeme) shape
  refine ⟨?_, c, rest, by rw [text, chars], opens⟩
  rw [kind]
  exact literal_not_label l.shape shape

-- Literals may differ in all but their line breaks.
def SameToken (first second : String) (i : Nat) (t u : Token) : Prop :=
  t.kind = u.kind ∧ t.line = u.line ∧
    (t.text = u.text ∨
      literalAt first i ∧ literalAt second i ∧ newlines t.text.toList = newlines u.text.toList)
deriving Decidable

structure SameOutsideLiterals (first second : String) : Prop where
  length : (tokenize first).tokens.length = (tokenize second).tokens.length
  token : ∀ i < (tokenize first).tokens.length, ∀ t ∈ (tokenize first).tokens[i]?,
    ∀ u ∈ (tokenize second).tokens[i]?, SameToken first second i t u

theorem literal_alike (first second : String) (i : Nat) (t u : Token)
    (here : (tokenize first).tokens[i]? = some t) (there : (tokenize second).tokens[i]? = some u)
    (same : SameToken first second i t u) : Alike t u := by
  obtain ⟨kind, line, text | ⟨literal, also, breaks⟩⟩ := same
  · have equal : t = u := by
      rcases t with ⟨_, _, _⟩
      rcases u with ⟨_, _, _⟩
      simp_all
    exact equal ▸ alike_refl t
  · obtain ⟨unlabelled, c, rest, text, opens⟩ := literal_at_opens first i t here literal
    obtain ⟨-, d, left, other, alsoOpens⟩ := literal_at_opens second i u there also
    refine ⟨kind, line, ?_, ?_, ?_, ?_⟩
    · have counted : (t.text.toList.count '\n' : Int) = u.text.toList.count '\n' := congrArg Nat.cast breaks
      rw [Token.endLine, Token.endLine, line, counted]
    · intro label
      rw [unlabelled] at label
      cases label
    · intro m mark
      refine iff_of_false ?_ ?_
      · rintro rfl
        exact literal_unmarked c rest opens (text ▸ mark)
      · rintro rfl
        exact literal_unmarked d left alsoOpens (other ▸ mark)
    · refine iff_of_false ?_ ?_
      · rw [Token.lower, text]
        exact literal_not_use c rest opens
      · rw [Token.lower, other]
        exact literal_not_use d left alsoOpens

theorem literals_inert (first second : String) (same : SameOutsideLiterals first second)
    (flags : SkipFlags) (path : String) :
    scan flags (tokenize first).tokens path = scan flags (tokenize second).tokens path := by
  apply scan_alike
  rw [List.forall₂_iff_get]
  refine ⟨same.length, ?_⟩
  intro i inside also
  have here := List.getElem?_eq_getElem inside
  have there := List.getElem?_eq_getElem also
  exact literal_alike first second i _ _ here there (same.token i inside _ here _ there)

theorem literals_inert_with_braces :
    let first := "<?php class A\x7b/*class*/function f()\x7breturn 'a';\x7d\x7d"
    let second := "<?php class A\x7b/*\x7d#[;]*/function f()\x7breturn '\x7dfunction';\x7d\x7d"
    SameOutsideLiterals first second ∧
      scan {} (tokenize first).tokens "a.php" = scan {} (tokenize second).tokens "a.php" := by
  intro first second
  have same : SameOutsideLiterals first second := ⟨by decide +kernel, by decide +kernel⟩
  exact ⟨same, literals_inert first second same {} "a.php"⟩

end DocAudit.Php
