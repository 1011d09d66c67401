import DocAudit.Proofs.Php.Literal
import DocAudit.Proofs.Php.Markup
import DocAudit.Proofs.Php.Relocation

/-!
Line breaks in front of a source. They join the markup in front of the first opening tag, and what
is behind it is read as before, so many lines further down. Only markup that reads `#[` is taken
for code there, and with a line break in front it no longer reads so.
-/

set_option autoImplicit false

namespace DocAudit.Php

/-! ### Reading -/

theorem to_open_tag_breaks (k : Nat) (s : List Char) :
    toOpenTag (List.replicate k '\n' ++ s) = (toOpenTag s).after (List.replicate k '\n') := by
  induction k with
  | zero => rfl
  | succ k ih =>
      have absent : ¬ (readOpenTag ('\n' :: (List.replicate k '\n' ++ s))).isSome = true := Bool.false_ne_true
      rw [List.replicate_succ, List.cons_append, toOpenTag, if_neg absent, ih]
      rfl

-- The lexeme that markup in front of an opening tag makes, when there is any.
def chunk (text : List Char) : List Lexeme := if text = [] then [] else [⟨.markup, text⟩]

theorem lex_from_tag (s : List Char) :
    lex s = ⟨chunk (toOpenTag s).text ++ (lex (toOpenTag s).rest).lexemes, (lex (toOpenTag s).rest).failure⟩ := by
  cases s with
  | nil => rfl
  | cons c s =>
      cases tag : readOpenTag (c :: s) with
      | some cut =>
          rw [toOpenTag, tag]
          rfl
      | none =>
          have read := step_of_case {} c s _ (.markup rfl tag)
          have text : toOpenTag (c :: s) = (toOpenTag s).cons c := by
            rw [toOpenTag, tag]
            rfl
          rw [text, lex, lex_cons, read]
          rfl

theorem line_after_chunk (text : List Char) : lineAfterAll 1 (chunk text) = 1 + newlines text := by
  rw [chunk]
  split
  · rename_i empty
    rw [empty]
    rfl
  · rfl

theorem line_after_relocated (r : Relocation) (l : Lexeme) (line : Int) :
    l.lineAfter (line + r.lines) = l.lineAfter line + r.lines := by
  rw [Lexeme.lineAfter, Lexeme.lineAfter]
  split
  · rfl
  · rfl
  · omega

theorem numbered_relocated (r : Relocation) (line : Int) (ls : List Lexeme) :
    numbered (line + r.lines) ls = (numbered line ls).map (Token.relocate r) := by
  induction ls generalizing line with
  | nil => rfl
  | cons l ls ih =>
      rw [numbered, numbered, line_after_relocated, ih]
      rfl

theorem line_after_all_relocated (r : Relocation) (line : Int) (ls : List Lexeme) :
    lineAfterAll (line + r.lines) ls = lineAfterAll line ls + r.lines := by
  induction ls generalizing line with
  | nil => rfl
  | cons l ls ih => rw [lineAfterAll, lineAfterAll, line_after_relocated, ih]

def ParseError.relocate (r : Relocation) (e : ParseError) : ParseError := { e with line := e.line + r.lines }

-- The tokens behind the markup that a source begins with.
def tokensFromTag (source : String) : List Token :=
  let front := toOpenTag source.toList
  numbered (1 + newlines front.text) (lex front.rest).lexemes

theorem tokenize_from_tag (source : String) :
    tokenize source =
      let front := toOpenTag source.toList
      let ls := (lex front.rest).lexemes
      ⟨numbered 1 (chunk front.text) ++ tokensFromTag source,
        (lex front.rest).failure.map fun construct => ⟨construct, lineAfterAll (1 + newlines front.text) ls⟩⟩ := by
  rw [tokenize, lex_from_tag, Lexing.tokenization]
  dsimp only
  rw [numbered_append, line_after_all_append, line_after_chunk]
  rfl

theorem tokenize_shifted (k : Nat) (source : String) :
    tokenize (String.ofList (List.replicate k '\n') ++ source) =
      ⟨numbered 1 (chunk (List.replicate k '\n' ++ (toOpenTag source.toList).text)) ++
          (tokensFromTag source).map (Token.relocate { lines := k }),
        (tokenize source).error.map (ParseError.relocate { lines := k })⟩ := by
  have front : toOpenTag (String.ofList (List.replicate k '\n') ++ source).toList =
      (toOpenTag source.toList).after (List.replicate k '\n') := by
    rw [String.toList_append, String.toList_ofList, to_open_tag_breaks]
  have count : (1 + newlines (List.replicate k '\n' ++ (toOpenTag source.toList).text) : Int) =
      1 + newlines (toOpenTag source.toList).text + k := by
    simp only [newlines, List.count_append, List.count_replicate_self]
    omega
  have lines := numbered_relocated { lines := k } (1 + newlines (toOpenTag source.toList).text)
  have last := line_after_all_relocated { lines := k } (1 + newlines (toOpenTag source.toList).text)
  rw [tokenize_from_tag, tokenize_from_tag source]
  simp only [tokensFromTag, front, Cut.after, count, lines, last, Option.map_map]
  rfl

/-! ### Markup at the start -/

theorem unopened_group (w : List Token) (unopened : ∀ t ∈ w, t.text ≠ "#[") (depth : Nat) :
    beforeGroup depth w = none := by
  induction w generalizing depth with
  | nil => exact dead_end_nil.group depth
  | cons t w ih =>
      obtain ⟨plain, rest⟩ := List.forall_mem_cons.mp unopened
      by_cases closes : t.text = "]"
      · rw [before_group_close depth t w closes, ih rest]
      by_cases opens : t.opensGroup
      · cases depth with
        | zero => rw [before_group_end t w opens, if_neg plain]
        | succ depth => rw [before_group_open depth t w opens, ih rest]
      · rw [before_group_plain depth t w closes opens, ih rest]

theorem unopened_attribute (t : Token) (w : List Token) (unopened : ∀ u ∈ w, u.text ≠ "#[") :
    beforeAttribute t w = none := by
  rw [beforeAttribute, unopened_group w unopened, ite_self]

theorem others_follow_nothing (w : List Token) (others : ∀ t ∈ w, t.kind = .other)
    (unopened : ∀ t ∈ w, t.text ≠ "#[") : followsNew w = false := by
  cases w with
  | nil => exact dead_end_nil.new
  | cons t w =>
      have other := others t List.mem_cons_self
      have word := other_not_word t other
      rw [follows_new_cons, other_not_trivia t other, word.modifier, word.keyword,
        unopened_attribute t w (List.forall_mem_cons.mp unopened).2]
      rfl

theorem others_undocumented (w : List Token) (others : ∀ t ∈ w, t.kind = .other)
    (unopened : ∀ t ∈ w, t.text ≠ "#[") (line : Int) : docblock line w = none := by
  induction w with
  | nil => exact dead_end_nil.docblock line
  | cons t w ih =>
      obtain ⟨other, otherwise⟩ := List.forall_mem_cons.mp others
      obtain ⟨-, rest⟩ := List.forall_mem_cons.mp unopened
      rw [docblock_cons, other, (other_not_word t other).modifier, unopened_attribute t w rest, ih otherwise rest]
      simp [TokenKind.isComment]

-- In tokens of no kind of their own a walk back finds nothing, unless a bracket opens there.
theorem others_dead_end (w : List Token) (others : ∀ t ∈ w, t.kind = .other) (unopened : ∀ t ∈ w, t.text ≠ "#[")
    (use : ∀ t ∈ w.head?, t.lower ≠ "use") : DeadEnd w := by
  refine ⟨unopened_group w unopened, others_follow_nothing w others unopened,
    others_undocumented w others unopened, ?_⟩
  cases w with
  | nil => rfl
  | cons t w => simp [other_not_trivia t (others t List.mem_cons_self), use t rfl]

-- A scan that waits for nothing goes past such tokens.
theorem others_passed (front ts : List Token) (st : Scan) (idle : st.pending = none)
    (others : ∀ t ∈ front, t.kind = .other) :
    st.declarations (front ++ ts) = (st.behind (front.reverse ++ st.before)).declarations ts := by
  induction front generalizing st with
  | nil => rfl
  | cons t front ih =>
      obtain ⟨other, rest⟩ := List.forall_mem_cons.mp others
      rw [List.cons_append, Scan.declarations, idle_step st t idle other]
      dsimp only
      rw [ih (st.behind (t :: st.before)) idle rest, List.reverse_cons, List.append_assoc]
      rfl

theorem chunk_token (text : List Char) (t : Token) (member : t ∈ numbered 1 (chunk text)) :
    t = ⟨.other, String.ofList text, 1⟩ := by
  rw [chunk] at member
  split at member
  · cases member
  · exact List.mem_singleton.mp member

structure OpeningTag (t : Token) : Prop where
  other : t.kind = .other
  bracket : t.text ≠ "#["
  use : t.lower ≠ "use"

theorem read_open_tag_angle (s : List Char) (cut : Cut) (found : readOpenTag s = some cut) :
    ∃ name, cut.text = '<' :: name := by
  unfold readOpenTag at found
  split at found
  · cases found
    exact ⟨_, rfl⟩
  · split at found
    · cases found
      exact ⟨_, rfl⟩
    · cases found
  · cases found

theorem read_open_tag_token (s : List Char) (cut : Cut) (found : readOpenTag s = some cut) (line : Int) :
    OpeningTag ⟨.other, String.ofList cut.text, line⟩ := by
  obtain ⟨name, text⟩ := read_open_tag_angle s cut found
  have opens : opensLiteral '<' name := .inr (.inl rfl)
  rw [text]
  refine ⟨rfl, ?_, literal_not_use '<' name opens⟩
  intro bracket
  apply literal_unmarked '<' name opens
  dsimp only at bracket
  rw [bracket]
  decide

theorem tag_first (source : String) : ∀ t ∈ (tokensFromTag source).head?, OpeningTag t := by
  intro t head
  rw [tokensFromTag] at head
  have stops := to_open_tag_stops source.toList
  cases rest : (toOpenTag source.toList).rest with
  | nil =>
      rw [rest, lex, Mode.lex] at head
      cases head
  | cons c s =>
      rw [rest] at stops
      obtain ⟨cut, found⟩ := Option.isSome_iff_exists.mp (stops.resolve_left (List.cons_ne_nil c s))
      have read := step_of_case {} c s _ (.openTag rfl cut found)
      rw [rest, lex, lex_cons, read] at head
      obtain rfl := Option.some.inj head
      exact read_open_tag_token (c :: s) cut found _

-- An opening tag follows markup that reads `#[`.
def BeginsWithBracket (source : String) : Prop :=
  (toOpenTag source.toList).text = ['#', '['] ∧ (toOpenTag source.toList).rest ≠ []
deriving Decidable

-- Markup, then a tag: tokens that a scan passes and that no walk back gets through.
theorem tag_dead_end (text : List Char) (t : Token) (tag : OpeningTag t) (plain : text ≠ ['#', '[']) :
    (∀ u ∈ numbered 1 (chunk text) ++ [t], u.kind = .other) ∧ DeadEnd (numbered 1 (chunk text) ++ [t]).reverse := by
  have others : ∀ u ∈ numbered 1 (chunk text) ++ [t], u.kind = .other := by
    intro u member
    rcases List.mem_append.mp member with markup | last
    · rw [chunk_token text u markup]
    · rw [List.mem_singleton.mp last]
      exact tag.other
  refine ⟨others, others_dead_end _ (fun u member => others u (List.mem_reverse.mp member)) ?_ ?_⟩
  · intro u member bracket
    rcases List.mem_append.mp (List.mem_reverse.mp member) with markup | last
    · rw [chunk_token text u markup] at bracket
      exact plain (by simpa using congrArg String.toList bracket)
    · rw [List.mem_singleton.mp last] at bracket
      exact tag.bracket bracket
  · rw [List.reverse_append]
    intro u head
    obtain rfl := Option.some.inj head
    exact tag.use

theorem declarations_from_tag (front ts : List Token) (others : ∀ t ∈ front, t.kind = .other) :
    declarations (front ++ ts) = Scan.declarations (Scan.behind {} front.reverse) ts := by
  have passed := others_passed front ts {} rfl others
  rw [List.append_nil] at passed
  exact passed

theorem declarations_shifted (k : Nat) (first second : List Char) (ts : List Token)
    (tagged : ∀ t ∈ ts.head?, OpeningTag t) (plain : ts ≠ [] → first ≠ ['#', '['] ∧ second ≠ ['#', '[']) :
    declarations (numbered 1 (chunk second) ++ ts.map (Token.relocate { lines := k })) =
      (declarations (numbered 1 (chunk first) ++ ts)).map (Declaration.relocate { lines := k }) := by
  -- The scans meet behind the tag: both are idle there, and nothing behind them can be found.
  cases ts with
  | nil =>
      have silent : ∀ text, declarations (numbered 1 (chunk text) ++ []) = [] := fun text =>
        declarations_from_tag _ [] fun t member => chunk_token text t member ▸ rfl
      rw [List.map_nil, silent, silent]
      rfl
  | cons t ts =>
      have tag := tagged t rfl
      have moved : OpeningTag (t.relocate { lines := k }) := ⟨tag.other, tag.bracket, tag.use⟩
      obtain ⟨here, there⟩ := plain (List.cons_ne_nil t ts)
      obtain ⟨others, ending⟩ := tag_dead_end first t tag here
      obtain ⟨movedOthers, movedEnding⟩ := tag_dead_end second _ moved there
      have run := declarations_relocated { lines := k } _ _ ending movedEnding ts _ (stream_relocated _ ts)
        (Scan.behind {} (numbered 1 (chunk first) ++ [t]).reverse) _ .front
      rw [List.map_cons, List.append_cons _ t ts, List.append_cons _ (t.relocate _), declarations_from_tag _ _ others,
        declarations_from_tag _ _ movedOthers]
      exact run

end DocAudit.Php

/-! ### Reports -/

namespace DocAudit

open Php

def Failure.relocate (r : Relocation) : Failure → Failure
  | .unparsed e => .unparsed (e.relocate r)
  | failure => failure

def FileReport.relocate (r : Relocation) (report : FileReport) : FileReport :=
  { report with
    findings := report.findings.map (Finding.relocate r)
    classes := report.classes.map (ClassSummary.relocate r)
    failure := report.failure.map (Failure.relocate r) }

theorem report_stays (report : FileReport) : report.relocate {} = report := by
  have failure : Failure.relocate {} = id := by
    funext failure
    cases failure <;> simp [Failure.relocate, ParseError.relocate]
  simp [FileReport.relocate, failure]

theorem scan_relocated (lines : Int) (flags : SkipFlags) (path : String) (ts us : List Token)
    (declared : declarations us = (declarations ts).map (Declaration.relocate { lines })) :
    scan flags us path =
      ⟨(scan flags ts path).findings.map (Finding.relocate { lines }),
        (scan flags ts path).classes.map (ClassSummary.relocate { lines })⟩ := by
  rw [scan_composed flags path ts]
  exact scan_joined { lines } flags path us [] (declarations ts) declared rfl (by simp)

end DocAudit

namespace DocAudit.Php

theorem tokens_from_tag_read (source : String) (left : tokensFromTag source ≠ []) :
    (toOpenTag source.toList).rest ≠ [] := by
  intro empty
  apply left
  rw [tokensFromTag, empty, lex, Mode.lex]
  rfl

theorem line_shift (source : String) (k : Nat)
    (plain : k = 0 ∨ (tokenize source).error.isSome = true ∨ ¬ BeginsWithBracket source) (flags : SkipFlags)
    (path : String) :
    checkSource flags path (String.ofList (List.replicate k '\n') ++ source) =
      (checkSource flags path source).relocate { lines := k } := by
  cases k with
  | zero => exact (congrArg (checkSource flags path) (String.empty_append)).trans (report_stays _).symm
  | succ k =>
      have read := tokenize_shifted (k + 1) source
      have whole : (tokenize source).tokens = numbered 1 (chunk (toOpenTag source.toList).text) ++ tokensFromTag source :=
        congrArg Tokenization.tokens (tokenize_from_tag source)
      rw [checkSource, checkSource, tokens?, tokens?]
      dsimp only
      rw [read]
      cases failed : (tokenize source).error with
      | some e => rfl
      | none =>
          have free : ¬ BeginsWithBracket source := by simpa [failed] using plain
          have declared := declarations_shifted (k + 1) (toOpenTag source.toList).text
            (List.replicate (k + 1) '\n' ++ (toOpenTag source.toList).text) (tokensFromTag source) (tag_first source)
            fun left => ⟨fun text => free ⟨text, tokens_from_tag_read source left⟩, by simp [List.replicate_succ]⟩
          dsimp only [Option.map_none]
          rw [whole, scan_relocated _ flags path _ _ declared]
          rfl

-- Any other markup may stand at the start, a `;` too.
theorem line_shift_after_semicolon :
    let source := ";<?php /** A */\n#[B]\nclass A\x7bfunction f()\x7b\x7d\x7d"
    ¬ BeginsWithBracket source ∧
      checkSource {} "a.php" (String.ofList (List.replicate 2 '\n') ++ source) =
        { path := "a.php", findings := [⟨.method, "a.php", some "A", "f", 5⟩], classes := [⟨"A", 5, false⟩] } := by
  intro source
  have plain : ¬ BeginsWithBracket source := by decide +kernel
  refine ⟨plain, (line_shift source 2 (.inr (.inr plain)) {} "a.php").trans ?_⟩
  decide +kernel

-- Markup that reads `#[` is taken for the start of an attribute, which here has a docblock inside. With a
-- line break in front it reads otherwise, and the docblock is found.
theorem line_break_loses_bracket :
    let source := "#[<?php /** A */ ] class A \x7b\x7d"
    let broken := String.ofList (List.replicate 1 '\n') ++ source
    checkSource {} "a.php" source =
        { path := "a.php", findings := [⟨.classDecl, "a.php", none, "A", 1⟩], classes := [⟨"A", 1, false⟩] } ∧
      checkSource {} "a.php" broken = { path := "a.php", classes := [⟨"A", 2, true⟩] } ∧
      checkSource {} "a.php" broken ≠ (checkSource {} "a.php" source).relocate { lines := (1 : Nat) } := by
  intro source broken
  have here : checkSource {} "a.php" source =
      { path := "a.php", findings := [⟨.classDecl, "a.php", none, "A", 1⟩], classes := [⟨"A", 1, false⟩] } := by
    decide +kernel
  have there : checkSource {} "a.php" broken = { path := "a.php", classes := [⟨"A", 2, true⟩] } := by decide +kernel
  refine ⟨here, there, ?_⟩
  rw [here, there]
  decide

end DocAudit.Php
