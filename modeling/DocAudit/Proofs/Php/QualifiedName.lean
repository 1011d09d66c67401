import DocAudit.Proofs.Php.AnonymousClass
import DocAudit.Proofs.Php.Charge
import DocAudit.Proofs.Php.Literal
import DocAudit.Proofs.Php.Markup

/-!
Reserved words behind a namespace separator. The separator is no name context, so `class` and
`function` stay keywords behind it, and what follows them decides whether they declare.
-/

set_option autoImplicit false

namespace DocAudit.Php

def separator : String := "\\"

-- The nearest significant token before `k` is a separator, at `p`.
structure QualifiedAt (ts : List Token) (p k : Nat) : Prop where
  less : p < k
  separator : ∃ t, ts[p]? = some t ∧ t.trivia = false ∧ t.text = separator
  gap : Passed ts Token.trivia p k

theorem adjacent_qualified (ts : List Token) (p : Nat) (t : Token) (found : ts[p]? = some t)
    (significant : t.trivia = false) (text : t.text = separator) : QualifiedAt ts p (p + 1) :=
  ⟨Nat.lt_succ_self p, ⟨t, found, significant, text⟩, fun i u after before _ => by omega⟩

/-! ### The words stay keywords -/

theorem shape_trivia (shape : Shape) (trivia : shape.trivia = true) : shape.region = .code := by
  cases shape <;> simp_all [Shape.trivia, Shape.region]

-- Trivia leaves the last significant lexeme as it is.
theorem reads_trivia (m last : Mode) (s rest : List Char) (ls : List Lexeme) (run : Reads m s ls last rest)
    (trivia : ∀ l ∈ ls, l.shape.trivia = true) : last.last = m.last := by
  induction run with
  | stop m s => rfl
  | next m last c s rest step ls read run ih =>
      have kept : step.mode.last = m.last := by
        have here := trivia step.lexeme List.mem_cons_self
        cases step_cases m c s step read with
        | data region => rfl
        | markup region absent => rfl
        | openTag region cut found => rfl
        | code region shape cut found => simp only [Mode.afterCode, if_pos here]
      rw [ih fun l member => trivia l (List.mem_cons_of_mem _ member), kept]

theorem step_separator (m : Mode) (c : Char) (s : List Char) (step : Step) (read : m.step c s = .ok step)
    (text : step.lexeme.text = separator.toList) (code : step.mode.region = .code) : step.mode.last = separator := by
  cases step_cases m c s step read with
  | data region => cases region.symm.trans code
  | markup region absent => cases region.symm.trans code
  | openTag region cut found =>
      have tag : cut.text = separator.toList := text
      rcases read_open_tag_opens (c :: s) cut found with short | ⟨spelled, -⟩
      · rw [tag] at short
        exact absurd short (by decide)
      · rw [tag] at spelled
        exact absurd spelled (by decide)
  | code region shape cut found =>
      obtain rfl := read_code_symbol '\\' (fun _ => rfl) c s shape cut found text
      exact congrArg String.ofList text

theorem step_name (m : Mode) (c : Char) (s : List Char) (step : Step) (read : m.step c s = .ok step)
    (name : step.lexeme.shape = .name) : isReserved (String.ofList step.lexeme.text) m.last = false := by
  cases step_cases m c s step read with
  | data region => cases name
  | markup region absent => cases name
  | openTag region cut found => cases name
  | code region shape cut found =>
      dsimp only [Mode.settle] at name
      split at name
      · cases name
      · rename_i kept
        rw [not_and, Bool.not_eq_true] at kept
        exact kept name

theorem reads_qualified (m last : Mode) (s rest : List Char) (mark l : Lexeme) (gap after : List Lexeme)
    (run : Reads m s (mark :: (gap ++ l :: after)) last rest) (text : mark.text = separator.toList)
    (trivia : ∀ u ∈ gap, u.shape.trivia = true) (name : l.shape = .name) :
    isReserved (String.ofList l.text) separator = false := by
  cases run with
  | next _ _ c t _ step _ read run =>
      have code : step.mode.region = .code := by
        cases gap with
        | nil => exact reads_code_first _ last _ rest l after run (by rw [name]; rfl)
        | cons u gap =>
            exact reads_code_first _ last _ rest u _ run (shape_trivia u.shape (trivia u List.mem_cons_self))
      obtain ⟨middle, left, early, late⟩ := reads_append _ last _ rest gap (l :: after) run
      obtain ⟨d, w, next, -, again, rfl⟩ := reads_first middle last left rest l after late
      have kept := step_name middle d w next again name
      rw [reads_trivia _ middle _ left gap early trivia, step_separator m c t step read text code] at kept
      exact kept

theorem token_trivia (t : Token) (l : Lexeme) (kind : t.kind = l.shape.kind) : t.trivia = l.shape.trivia := by
  rw [Token.trivia, kind]
  cases l.shape <;> rfl

theorem lexemes_trivia (source : String) (p k : Nat) (inside : k ≤ (tokenize source).tokens.length)
    (gap : Passed (tokenize source).tokens Token.trivia p k) :
    ∀ l ∈ ((lex source.toList).lexemes.take k).drop (p + 1), l.shape.trivia = true := by
  intro l member
  obtain ⟨i, bound, same⟩ := List.mem_iff_getElem.mp member
  rw [List.length_drop, List.length_take] at bound
  rw [List.getElem_drop, List.getElem_take] at same
  have token := List.getElem?_eq_getElem (show p + 1 + i < (tokenize source).tokens.length by omega)
  obtain ⟨v, found, kind, -⟩ := numbered_at 1 _ (p + 1 + i) _ token
  rw [List.getElem?_eq_getElem (by omega), same] at found
  obtain rfl := Option.some.inj found
  rw [← token_trivia _ l kind]
  exact gap _ _ (by omega) (by omega) token

-- The run of the lexer from the separator to the label and on.
theorem qualified_run (source : String) (p k : Nat) (t : Token) (here : (tokenize source).tokens[k]? = some t)
    (qualified : QualifiedAt (tokenize source).tokens p k) :
    ∃ m last s rest mark gap l after, Reads m s (mark :: (gap ++ l :: after)) last rest ∧
      mark.text = separator.toList ∧ (∀ u ∈ gap, u.shape.trivia = true) ∧
      t.kind = l.shape.kind ∧ t.text = String.ofList l.text := by
  obtain ⟨l, atLabel, kind, spelled⟩ := numbered_at 1 _ k t here
  obtain ⟨u, found, -, reads⟩ := qualified.separator
  obtain ⟨mark, atMark, -, marked⟩ := numbered_at 1 _ p u found
  have trivia := lexemes_trivia source p k (Nat.le_of_lt (List.getElem?_eq_some_iff.mp here).1) qualified.gap
  obtain ⟨last, rest, run, -⟩ := source_reads source.toList
  generalize (lex source.toList).lexemes = ls at atLabel atMark trivia run
  have split : ls = ls.take p ++ mark :: ((ls.take k).drop (p + 1) ++ l :: ls.drop (k + 1)) := by
    obtain ⟨bound, same⟩ := List.getElem?_eq_some_iff.mp atLabel
    have front := take_split p k ls mark qualified.less atMark
    rw [← List.cons_append, ← List.append_assoc, ← front, ← same, ← List.drop_eq_getElem_cons bound,
      List.take_append_drop]
  rw [split] at run
  obtain ⟨middle, left, -, late⟩ := reads_append _ last _ rest (ls.take p) _ run
  have text : mark.text = separator.toList := by rw [← reads, marked, String.toList_ofList]
  exact ⟨middle, last, left, rest, mark, _, l, _, late, text, trivia, kind, spelled⟩

theorem qualified_keyword (source : String) (p k : Nat) (t : Token) (here : (tokenize source).tokens[k]? = some t)
    (label : t.kind.isLabel = true) (qualified : QualifiedAt (tokenize source).tokens p k)
    (reserved : t.lower ∈ reservedWords) : t.kind = .keyword := by
  obtain ⟨m, last, s, rest, mark, gap, l, after, run, text, trivia, kind, spelled⟩ :=
    qualified_run source p k t here qualified
  rcases label_shape l.shape (kind ▸ label) with word | name
  · rw [kind, word]
    rfl
  · have kept := reads_qualified m last s rest mark l gap after run text trivia name
    have context : nameContexts.contains (Text.lower separator) = false := by decide +kernel
    have listed : reservedWords.contains (Text.lower (String.ofList l.text)) = true := by
      rw [← spelled]
      exact List.contains_iff_mem.mpr reserved
    rw [isReserved, context, listed] at kept
    cases kept

/-! ### What the scan makes of them -/

theorem lower_separator : Text.lower separator = separator := by decide +kernel

section

variable (ts : List Token) (p k : Nat) (t : Token) (here : ts[k]? = some t) (qualified : QualifiedAt ts p k)

include here qualified

-- A walk back that passes over trivia comes to the separator.
theorem qualified_walk {α : Type} (walk : List Token → α)
    (skips : ∀ u w, u.trivia = true → walk (u :: w) = walk w) :
    ∃ mark w, mark.trivia = false ∧ mark.lower = separator ∧ mark.text = separator ∧
      walk (beforeAt ts k) = walk (mark :: w) := by
  obtain ⟨mark, found, significant, text⟩ := qualified.separator
  refine ⟨mark, beforeAt ts p, significant, by rw [Token.lower, text, lower_separator], text, ?_⟩
  rw [← before_at_succ ts p mark found]
  refine constant_stretch (fun n => walk (beforeAt ts n)) (p + 1) k qualified.less fun i after before => ?_
  have inside := (List.getElem?_eq_some_iff.mp here).1
  have token := List.getElem?_eq_getElem (show i < ts.length by omega)
  rw [before_at_succ ts i _ token]
  exact skips _ _ (qualified.gap i _ after before token)

theorem qualified_not_new : followsNew (beforeAt ts k) = false := by
  have skips : ∀ u w, u.trivia = true → followsNew (u :: w) = followsNew w := by
    intro u w trivia
    rw [follows_new_cons, trivia]
    rfl
  obtain ⟨mark, w, significant, lower, text, walked⟩ := qualified_walk ts p k t here qualified followsNew skips
  have plain : mark.isModifier = false := by rw [Token.isModifier, lower, Bool.and_eq_false_imp]; intro; decide
  have closed : beforeAttribute mark w = none := by rw [beforeAttribute, text, if_neg (by decide)]
  rw [walked, follows_new_cons, significant, plain, closed]
  simp [Token.isKeyword, lower, separator]

theorem qualified_not_use : afterUseAt ts k = false := by
  have skips : ∀ u (w : List Token), u.trivia = true →
      ((u :: w).find? (!·.trivia)).any (·.lower == "use") = (w.find? (!·.trivia)).any (·.lower == "use") := by
    intro u w trivia
    rw [List.find?_cons_of_neg (by simp [trivia])]
  obtain ⟨mark, w, significant, lower, -, walked⟩ := qualified_walk ts p k t here qualified
    (fun w => (w.find? (!·.trivia)).any (·.lower == "use")) skips
  rw [afterUseAt, walked, List.find?_cons_of_pos (by simp [significant]), Option.any_some, lower]
  decide

end

section

variable (ts : List Token) (p k : Nat) (t : Token)

-- No keyword waits across the separator, and neither it nor trivia waits for a name.
theorem qualified_free (qualified : QualifiedAt ts p k) : takenAt ts k = false := by
  obtain ⟨mark, found, significant, text⟩ := qualified.separator
  refine settled_free ts (takenAt ts) (taken_at_is_name ts) k fun head j early awaits passed => ?_
  obtain ⟨u, there, word, -⟩ := awaits_keyword ts (takenAt ts) head j awaits
  rcases Nat.lt_trichotomy j p with before | same | after
  · have passes := passed p mark before qualified.less found
    cases head <;> simp [Head.passes, significant, text, separator] at passes
  · rw [same, found] at there
    rw [← Option.some.inj there, Token.isKeyword, Token.lower, text, lower_separator] at word
    cases head <;> simp [Head.word, separator] at word
  · have inert := trivia_inert u (qualified.gap j u after early there)
    rw [inert.keyword head] at word
    cases word

-- The word reads `class`, and a label follows it.
def BeginsClass : Prop :=
  t.lower = "class" ∧ ∃ name, nextToken ts .ofClass k = some name ∧ name.kind.isLabel = true

-- The word reads `function`, a class is around it, and a label or a parenthesis follows it.
def BeginsFunction : Prop :=
  t.lower = "function" ∧ (enclosingAt ts (takenAt ts) k).isSome = true ∧
    ∃ next, nextToken ts .ofFunction k = some next ∧ (next.kind.isLabel = true ∨ next.text = "(")

theorem function_declares (taken : Nat → Bool) :
    (functionAt ts taken k t).isSome = true ↔ t.kind.isLabel = true ∨ t.text = "(" := by
  rw [functionAt]
  by_cases label : t.kind.isLabel = true
  · simp [label]
  · by_cases paren : t.text = "("
    · simp [label, paren]
    · simp [label, paren]

section

variable (here : ts[k]? = some t) (qualified : QualifiedAt ts p k) (keyword : t.kind = .keyword)

include here qualified keyword

theorem qualified_live (word : String) : liveAt ts (takenAt ts) word k = (t.lower == word) := by
  rw [liveAt, wordAt, here, qualified_free ts p k qualified, Option.any_some, Token.isKeyword, keyword]
  simp

theorem qualified_class_name : (classNameAt ts (takenAt ts) k).isSome = true ↔ BeginsClass ts k t := by
  rw [classNameAt, namesClassAt, qualified_live ts p k t here qualified keyword,
    qualified_not_new ts p k t here qualified, Bool.not_false, Bool.and_true, BeginsClass]
  by_cases word : t.lower = "class"
  · rw [if_pos (beq_iff_eq.mpr word), Option.isSome_filter, Option.any_eq_true]
    exact (and_iff_right word).symm
  · rw [if_neg (mt beq_iff_eq.mp word)]
    simp [word]

theorem qualified_head : (headAt ts (takenAt ts) k).isSome = true ↔ BeginsClass ts k t := by
  rw [← qualified_class_name ts p k t here qualified keyword, headAt, qualified_not_new ts p k t here qualified,
    Bool.and_false, if_neg Bool.false_ne_true, Option.isSome_map]

theorem qualified_frame (b : Nat) :
    headBefore ts (takenAt ts) b = some k ↔ BeginsClass ts k t ∧ k < b ∧ ClearHeader ts k b := by
  have head := qualified_head ts p k t here qualified keyword
  constructor
  · intro found
    obtain ⟨less, some, -, -⟩ := (head_before_iff ts (takenAt ts) b k).mp found
    exact ⟨head.mp some, less, header_clear ts k b found⟩
  · rintro ⟨begins, less, clear⟩
    have still := (label_still ts k t here (by rw [keyword]; rfl)).1
    exact clear_head_before ts k b less (head.mpr begins) still clear

theorem qualified_declaration :
    (declarationAt ts (takenAt ts) k).isSome = true ↔ BeginsClass ts k t ∨ BeginsFunction ts k t := by
  have awaits : awaitsName ts (takenAt ts) .ofFunction k =
      (t.lower == "function" && (enclosingAt ts (takenAt ts) k).isSome) := by
    rw [awaitsName, qualified_live ts p k t here qualified keyword, qualified_not_use ts p k t here qualified,
      Bool.not_false, Bool.and_true]
  rw [declarationAt, awaits]
  by_cases function : (t.lower == "function" && (enclosingAt ts (takenAt ts) k).isSome) = true
  · obtain ⟨word, around⟩ := Bool.and_eq_true_iff.mp function
    have lower := beq_iff_eq.mp word
    have other : ¬ BeginsClass ts k t := by
      intro begins
      exact absurd (lower.symm.trans begins.1) (by decide)
    rw [if_pos function, or_iff_right other, BeginsFunction, and_iff_right lower, and_iff_right around,
      Option.isSome_bind, Option.any_eq_true]
    simp only [function_declares]
  · have other : ¬ BeginsFunction ts k t := by
      intro begins
      exact function (Bool.and_eq_true_iff.mpr ⟨beq_iff_eq.mpr begins.1, begins.2.1⟩)
    rw [if_neg function, or_iff_left other, Option.isSome_map]
    exact qualified_class_name ts p k t here qualified keyword

end

end

theorem named_heads_iff (ts : List Token) (k : Nat) :
    k ∈ namedHeads ts ↔ (classNameAt ts (takenAt ts) k).isSome = true := by
  rw [namedHeads, namedBelow, List.mem_filter]
  exact and_iff_right_of_imp fun named => List.mem_range.mpr (named_inside ts k named)

theorem declaration_words_reserved : ∀ word ∈ declarationWords, word ∈ reservedWords := by decide

theorem qualified_words_declare (source : String) (flags : SkipFlags) (path : String) (p k : Nat) (t : Token)
    (here : (tokenize source).tokens[k]? = some t) (label : t.kind.isLabel = true)
    (word : t.lower ∈ declarationWords) (qualified : QualifiedAt (tokenize source).tokens p k) :
    let ts := (tokenize source).tokens
    let outcome := scan flags ts path
    t.kind = .keyword ∧
    (outcome.findings = (List.range ts.length).filterMap (findingAt flags path ts) ∧
      List.Forall₂ (SumsUp flags path ts) (namedHeads ts) outcome.classes ∧
      ∀ n ≤ ts.length, (scanAfter (ts.take n)).frames = (openBraces ts n).map (ownerAt ts (takenAt ts))) ∧
    (k ∈ namedHeads ts ↔ BeginsClass ts k t) ∧
    (∀ b, headBefore ts (takenAt ts) b = some k ↔ BeginsClass ts k t ∧ k < b ∧ ClearHeader ts k b) ∧
    ((declarationAt ts (takenAt ts) k).isSome = true ↔ BeginsClass ts k t ∨ BeginsFunction ts k t) ∧
    (¬ BeginsClass ts k t → ¬ BeginsFunction ts k t → findingAt flags path ts k = none) := by
  intro ts outcome
  have spelled := tokenize_well_spelled source
  have keyword := qualified_keyword source p k t here label qualified (declaration_words_reserved _ word)
  have declares := qualified_declaration ts p k t here qualified keyword
  refine ⟨keyword, ⟨findings_by_position source flags path, classes_summed_up flags path ts spelled,
    scan_frames_by_position ts spelled⟩, ?_, ?_, declares, ?_⟩
  · rw [named_heads_iff]
    exact qualified_class_name ts p k t here qualified keyword
  · intro b
    exact qualified_frame ts p k t here qualified keyword b
  · intro unnamed undeclared
    have silent : declarationAt ts (takenAt ts) k = none := by
      rw [← Option.not_isSome_iff_eq_none, declares]
      exact not_or_intro unnamed undeclared
    rw [findingAt, silent]
    rfl

theorem qualified_words_declare_parent :
    let ts := (tokenize "<?php\n/** A */\nclass A extends Base\\Class implements I \x7b\x7d").tokens
    QualifiedAt ts 11 12 ∧ ts[12]? = some ⟨.keyword, "Class", 3⟩ ∧ 12 ∈ namedHeads ts ∧
      headBefore ts (takenAt ts) 18 = some 12 := by
  intro ts
  obtain ⟨mark, here, next, clear⟩ :
      ts[11]? = some ⟨.other, separator, 3⟩ ∧ ts[12]? = some ⟨.keyword, "Class", 3⟩ ∧
      nextToken ts .ofClass 12 = some ⟨.keyword, "implements", 3⟩ ∧
      ∀ i < 18, 12 < i → opensAt ts i = false ∧ headAt ts (takenAt ts) i = none := by decide +kernel
  have qualified := adjacent_qualified ts 11 _ mark rfl rfl
  have begins : BeginsClass ts 12 ⟨.keyword, "Class", 3⟩ := ⟨by decide +kernel, _, next, rfl⟩
  obtain ⟨-, -, summary, frame, -, -⟩ :=
    qualified_words_declare _ {} "a.php" 11 12 _ here rfl (by decide +kernel) qualified
  refine ⟨qualified, here, summary.mpr begins, (frame 18).mpr ⟨begins, by decide, ?_⟩⟩
  exact fun i after before => clear i before after

-- A documented class whose parent is called `Class`: a second class is reported, and takes the body.
theorem qualified_class_reported :
    let source := "<?php\n/** A */\nclass A extends Base\\Class implements I \x7b\x7d"
    let ts := (tokenize source).tokens
    let outcome := scan {} ts "a.php"
    QualifiedAt ts 11 12 ∧ (tokenize source).error = none ∧ ts[12]? = some ⟨.keyword, "Class", 3⟩ ∧
      outcome.findings = [⟨.classDecl, "a.php", none, "implements", 3⟩] ∧
      outcome.classes = [⟨"A", 3, true⟩, ⟨"implements", 3, false⟩] ∧
      (scanAfter (ts.take 19)).frames = [some ⟨"implements", some 1⟩] := by
  intro source ts outcome
  have mark : ts[11]? = some ⟨.other, separator, 3⟩ := by decide +kernel
  exact ⟨adjacent_qualified ts 11 _ mark rfl rfl, by decide +kernel⟩

end DocAudit.Php
