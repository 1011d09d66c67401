import DocAudit.Proofs.Php.LexicalClass
import DocAudit.Proofs.Php.LineShift
import DocAudit.Proofs.Php.QualifiedName

/-!
Keywords and names. The lexer keeps the last significant lexeme of code, and keeps it through markup
and opening tags. It is a name context exactly when the nearest significant token of the stream is
one, so the stream alone decides which labels are keywords.
-/

set_option autoImplicit false

namespace DocAudit.Php

def isNameContext (text : String) : Bool := nameContexts.contains (Text.lower text)

-- The nearest of these tokens that is neither whitespace nor a comment.
def lastSignificant (ts : List Token) : Option Token := ts.reverse.find? (!·.trivia)

theorem last_significant_append (ts : List Token) (t : Token) :
    lastSignificant (ts ++ [t]) = if t.trivia then lastSignificant ts else some t := by
  rw [lastSignificant, List.reverse_append, List.reverse_singleton, List.singleton_append, List.find?_cons]
  cases t.trivia <;> rfl

/-! ### What the lexer keeps -/

-- Behind the tokens `ts`. In markup what is kept does not matter, but it is carried into the next
-- code, where an opening tag is nearer.
structure Keeps (ts : List Token) (m : Mode) : Prop where
  markup : m.region = .markup → isNameContext m.last = false
  code : m.region = .code → isNameContext m.last = (lastSignificant ts).any fun t => isNameContext t.text

theorem angle_not_context (text : String) (angle : '<' ∈ text.toList) : isNameContext text = false := by
  rw [Bool.eq_false_iff]
  intro context
  have listed : ∀ w ∈ nameContexts, '<' ∉ w.toList := by decide
  exact listed _ (List.contains_iff_mem.mp context) (Text.mem_lower (by decide) angle)

theorem close_tag_not_context : isNameContext "?>" = false := by decide +kernel

theorem after_code_markup (m : Mode) (c : Char) (s : List Char) (shape : Shape) (cut : Cut)
    (found : readCode c s = .ok (shape, cut))
    (markup : (m.afterCode (m.settle shape (String.ofList cut.text)) (String.ofList cut.text)).region = .markup) :
    (m.afterCode (m.settle shape (String.ofList cut.text)) (String.ofList cut.text)).last = "?>" := by
  have closes : m.settle shape (String.ofList cut.text) = .closeTag := by
    by_contra other
    simp only [Mode.afterCode, if_neg other] at markup
    split at markup <;> cases markup
  obtain rfl := settle_closes m shape _ closes
  obtain ⟨-, text, -⟩ := read_code_closes c s cut found
  rw [closes, text]
  rfl

theorem step_keeps (m : Mode) (c : Char) (s : List Char) (step : Step) (ts : List Token) (t : Token)
    (read : m.step c s = .ok step) (kind : t.kind = step.lexeme.shape.kind)
    (text : t.text = String.ofList step.lexeme.text) (keeps : Keeps ts m) : Keeps (ts ++ [t]) step.mode := by
  have trivia := token_trivia t step.lexeme kind
  cases step_cases m c s step read with
  | data region =>
      constructor
      · intro markup
        cases region.symm.trans markup
      · intro code
        cases region.symm.trans code
  | markup region absent =>
      refine ⟨keeps.markup, fun code => ?_⟩
      cases region.symm.trans code
  | openTag region cut found =>
      obtain ⟨name, angle⟩ := read_open_tag_angle (c :: s) cut found
      have other : isNameContext t.text = false := angle_not_context t.text (by simp [text, angle])
      constructor
      · intro markup
        cases markup
      · intro _
        rw [last_significant_append, trivia, if_neg (by simp [Shape.trivia]), Option.any_some, other]
        exact keeps.markup region
  | code region shape cut found =>
      constructor
      · intro markup
        rw [after_code_markup m c s shape cut found markup]
        exact close_tag_not_context
      · intro _
        rw [last_significant_append, trivia, Mode.afterCode]
        by_cases passed : (m.settle shape (String.ofList cut.text)).trivia = true
        · rw [if_pos passed]
          dsimp only
          rw [if_pos passed]
          exact keeps.code region
        · rw [if_neg passed]
          dsimp only
          rw [if_neg passed, Option.any_some, text]

theorem reads_keeps (m last : Mode) (s rest : List Char) (ls : List Lexeme) (ts : List Token) (line : Int)
    (run : Reads m s ls last rest) (keeps : Keeps ts m) : Keeps (ts ++ numbered line ls) last := by
  induction run generalizing ts line with
  | stop m s => simpa [numbered] using keeps
  | next m last c s rest step ls read run ih =>
      have here := step_keeps m c s step ts ⟨step.lexeme.shape.kind, String.ofList step.lexeme.text, line⟩ read rfl rfl
        keeps
      have later := ih _ (step.lexeme.lineAfter line) here
      rwa [List.append_assoc, List.singleton_append] at later

/-! ### Which labels are keywords -/

theorem read_plain_unreserved (c : Char) (s : List Char) : (readPlain c s).1 ≠ .keyword := by
  unfold readPlain
  repeat' split
  all_goals simp

theorem read_code_unreserved (c : Char) (s : List Char) (shape : Shape) (cut : Cut)
    (found : readCode c s = .ok (shape, cut)) : shape ≠ .keyword := by
  cases read_code_cases c s shape cut found with
  | comment opens cut ended => rcases comment_shape_cases cut.text with ⟨shape, -⟩ | ⟨shape, -⟩ <;> simp [shape]
  | plain absent => exact read_plain_unreserved c s
  | _ => simp

-- A label is read as a name, and settled by what it reads and by what the lexer keeps.
theorem step_label (m : Mode) (c : Char) (s : List Char) (step : Step) (read : m.step c s = .ok step)
    (label : step.lexeme.shape.kind.isLabel = true) :
    m.region = .code ∧
      (step.lexeme.shape.kind = .keyword ↔ isReserved (String.ofList step.lexeme.text) m.last = true) := by
  cases step_cases m c s step read with
  | data region => cases label
  | markup region absent => cases label
  | openTag region cut found => cases label
  | code region shape cut found =>
      refine ⟨region, ?_⟩
      have unsettled := read_code_unreserved c s shape cut found
      dsimp only [Mode.settle] at label ⊢
      split at label
      · rename_i reserved
        rw [if_pos reserved]
        exact iff_of_true rfl reserved.2
      · rename_i kept
        rw [if_neg kept]
        obtain rfl := (label_shape shape label).resolve_left unsettled
        refine iff_of_false (by decide) fun reserved => kept ⟨rfl, reserved⟩

theorem keyword_by_stream (source : String) (before after : List Token) (t : Token)
    (split : (tokenize source).tokens = before ++ t :: after) (label : t.kind.isLabel = true) :
    t.kind = .keyword ↔
      t.lower ∈ reservedWords ∧ ∀ p ∈ lastSignificant before, p.lower ∉ nameContexts := by
  obtain ⟨first, middle, c, s, step, early, read, rfl, kind, text⟩ := token_step source before after t split
  obtain ⟨region, keyword⟩ := step_label middle c s step read (kind ▸ label)
  have start : Keeps [] {} := ⟨fun _ => by decide +kernel, fun code => by cases code⟩
  have kept := (reads_keeps {} middle source.toList (c :: s) first [] 1 early start).code region
  have spelled : String.ofList step.lexeme.text = t.text := by rw [← text, String.ofList_toList]
  rw [List.nil_append] at kept
  rw [kind, keyword, spelled, isReserved, Bool.and_eq_true, List.contains_iff_mem, Bool.not_eq_true',
    ← isNameContext, kept, Option.any_eq_false]
  simp [isNameContext, Token.lower]

-- A context in front of `?>`, markup that reads as one, and a context in front of a comment.
theorem keyword_by_stream_across_markup :
    let source := "<?php A:: ?>const<?php CLASS $b->/* */new"
    let word : Token := ⟨.keyword, "CLASS", 1⟩
    let name : Token := ⟨.identifier, "new", 1⟩
    let before : List Token := [⟨.other, "<?php", 1⟩, ⟨.whitespace, " ", 1⟩, ⟨.identifier, "A", 1⟩, ⟨.other, "::", 1⟩,
      ⟨.whitespace, " ", 1⟩, ⟨.other, "?>", 1⟩, ⟨.other, "const", 1⟩, ⟨.other, "<?php", 1⟩, ⟨.whitespace, " ", 1⟩]
    let between : List Token := [⟨.whitespace, " ", 1⟩, ⟨.other, "$b", 1⟩, ⟨.other, "->", 1⟩,
      ⟨.blockComment, "/* */", 1⟩]
    (tokenize source).tokens = before ++ word :: (between ++ [name]) ∧
      (word.lower ∈ reservedWords ∧ ∀ p ∈ lastSignificant before, p.lower ∉ nameContexts) ∧
      name.lower ∈ reservedWords ∧ ∃ p ∈ lastSignificant (before ++ word :: between), p.lower ∈ nameContexts := by
  intro source word name before between
  have read : (tokenize source).tokens = before ++ word :: (between ++ [name]) := by decide +kernel
  have keyword := keyword_by_stream source before (between ++ [name]) word read rfl
  have identifier := keyword_by_stream source (before ++ word :: between) [] name (by simpa using read) rfl
  have reserved : name.lower ∈ reservedWords := by decide +kernel
  have other : ¬ name.kind = .keyword := by decide
  refine ⟨read, keyword.mp rfl, reserved, ?_⟩
  rw [identifier, not_and] at other
  have context := other reserved
  push Not at context
  exact context

end DocAudit.Php
