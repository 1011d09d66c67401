import DocAudit.Proofs.Php.AttributeGroup

/-!
Walks back over two histories. A walk tells tokens apart by their kinds, their lines and a few
texts, so it goes the same way over histories that agree in these, and it stops at every
declaration keyword, whatever is behind it.
-/

set_option autoImplicit false

namespace DocAudit.Php

-- The texts that are compared whatever the kind of the token.
def marks : List String := ["[", "]", "#[", ";", "&", "("]

-- Two tokens that no test of a scan tells apart.
structure Alike (t u : Token) : Prop where
  kind : t.kind = u.kind
  line : t.line = u.line
  endLine : t.endLine = u.endLine
  label : t.kind.isLabel = true → t.text = u.text
  mark : ∀ m ∈ marks, t.text = m ↔ u.text = m
  use : t.lower = "use" ↔ u.lower = "use"

theorem alike_refl (t : Token) : Alike t t :=
  ⟨rfl, rfl, rfl, fun _ => rfl, fun _ _ => Iff.rfl, Iff.rfl⟩

section

variable (t u : Token) (alike : Alike t u)

include alike

theorem alike_trivia : t.trivia = u.trivia := by
  rw [Token.trivia, Token.trivia, alike.kind]

theorem alike_keyword (test : String → Bool) :
    (t.kind == .keyword && test t.lower) = (u.kind == .keyword && test u.lower) := by
  by_cases keyword : t.kind = .keyword
  · have text := alike.label (by rw [keyword]; rfl)
    rw [Token.lower, Token.lower, text, alike.kind]
  · have other : u.kind ≠ .keyword := alike.kind ▸ keyword
    rw [beq_false_of_ne keyword, beq_false_of_ne other, Bool.false_and, Bool.false_and]

theorem alike_modifier : t.isModifier = u.isModifier :=
  alike_keyword t u alike modifierWords.contains

theorem alike_declaration_word : t.isDeclarationWord = u.isDeclarationWord :=
  alike_keyword t u alike declarationWords.contains

theorem alike_is_keyword (word : String) : t.isKeyword word = u.isKeyword word :=
  alike_keyword t u alike (· == word)

theorem alike_mark (m : String) (mark : m ∈ marks) : (t.text == m) = (u.text == m) := by
  rw [Bool.eq_iff_iff, beq_iff_eq, beq_iff_eq]
  exact alike.mark m mark

theorem alike_boundary : t.isBoundary = u.isBoundary := by
  rw [Token.isBoundary, Token.isBoundary, alike.kind, alike_mark t u alike ";" (by decide),
    alike_declaration_word t u alike]

theorem alike_after_use : (t.lower == "use") = (u.lower == "use") := by
  rw [Bool.eq_iff_iff, beq_iff_eq, beq_iff_eq]
  exact alike.use

end

/-! ### Walks back -/

theorem follows_new_cons (t : Token) (before : List Token) :
    followsNew (t :: before) =
      if t.trivia || t.isModifier then followsNew before
      else (beforeAttribute t before).elim (t.isKeyword "new") followsNew := by
  rw [followsNew]
  split
  · rfl
  · split <;> simp_all

theorem docblock_cons (line : Int) (t : Token) (before : List Token) :
    docblock line (t :: before) =
      if t.kind = .whitespace then docblock line before
      else if t.kind.isComment then if t.kind = .docComment then some t else none
      else if t.isBoundary then none
      else if t.isModifier then docblock line before
      else (beforeAttribute t before).elim (if t.endLine = line then docblock line before else none)
        (docblock line) := by
  rw [docblock]
  split
  · rfl
  split
  · rfl
  split
  · rfl
  split
  · rfl
  · split <;> simp_all

-- Histories in step: both at an end, both with a token that the walks go past or jump over to
-- histories in step, or both at a declaration keyword, where every walk stops.
inductive InStep (H : List Token → List Token → Prop) : List Token → List Token → Prop where
  | start : InStep H [] []
  | past (t u : Token) (w v : List Token) (alike : Alike t u) (rest : H w v)
      (group : Option.Rel H (beforeGroup 0 w) (beforeGroup 0 v)) : InStep H (t :: w) (u :: v)
  | stop (t u : Token) (w v : List Token) (alike : Alike t u) (word : t.isDeclarationWord = true) :
      InStep H (t :: w) (u :: v)

theorem declaration_word_kind (t : Token) (word : t.isDeclarationWord = true) :
    t.kind = .keyword ∧ (t.lower = "class" ∨ t.lower = "function") := by
  simpa [Token.isDeclarationWord, declarationWords] using word

theorem declaration_word_text (t : Token) (word : t.isDeclarationWord = true) : t.text ∉ marks := by
  intro mark
  have lowered : t.lower ∈ marks.map Text.lower := List.mem_map_of_mem mark
  have same : marks.map Text.lower = marks := by decide +kernel
  rw [same] at lowered
  rcases (declaration_word_kind t word).2 with lower | lower <;>
    exact absurd (lower ▸ lowered) (by decide)

theorem declaration_word_follows_new (t : Token) (w : List Token) (word : t.isDeclarationWord = true) :
    followsNew (t :: w) = false := by
  obtain ⟨kind, lower⟩ := declaration_word_kind t word
  have stays : (t.trivia || t.isModifier) = false := by
    rcases lower with lower | lower <;>
      simp [Token.trivia, Token.isModifier, TokenKind.isComment, modifierWords, kind, lower]
  have plain : t.text ≠ "]" := fun closes => declaration_word_text t word (by rw [closes]; decide)
  rw [follows_new_cons, stays, beforeAttribute, if_neg plain]
  rcases lower with lower | lower <;> simp [Token.isKeyword, lower]

theorem declaration_word_docblock (line : Int) (t : Token) (w : List Token)
    (word : t.isDeclarationWord = true) : docblock line (t :: w) = none := by
  have kind := (declaration_word_kind t word).1
  have boundary : t.isBoundary = true := by simp [Token.isBoundary, word]
  simp [docblock_cons, kind, boundary, TokenKind.isComment]

def SameVerdict (d e : Option Token) : Prop := d.isSome = e.isSome

theorem elim_related {α : Type} (H : List Token → List Token → Prop) (P : α → α → Prop)
    (a b : Option (List Token)) (c d : α) (f g : List Token → α) (related : Option.Rel H a b) (none : P c d)
    (some : ∀ w v, a = some w → H w v → P (f w) (g v)) : P (a.elim c f) (b.elim d g) := by
  cases related with
  | none => exact none
  | some related => exact some _ _ rfl related

section

variable (H : List Token → List Token → Prop)

-- Tokens that are the same bracket or none, in front of histories whose brackets match in step.
theorem before_group_cons_related (t u : Token) (w v : List Token)
    (same : ∀ m ∈ ["[", "]", "#["], t.text = m ↔ u.text = m) (rest : H w v)
    (deeper : ∀ depth, Option.Rel H (beforeGroup depth w) (beforeGroup depth v)) (depth : Nat) :
    Option.Rel H (beforeGroup depth (t :: w)) (beforeGroup depth (u :: v)) := by
  have closing := same "]" (by decide)
  have opening : t.opensGroup ↔ u.opensGroup := or_congr (same "[" (by decide)) (same "#[" (by decide))
  by_cases closes : t.text = "]"
  · rw [before_group_close depth t w closes, before_group_close depth u v (closing.mp closes)]
    exact deeper (depth + 1)
  · by_cases opens : t.opensGroup
    · cases depth with
      | zero =>
          have hashes := same "#[" (by decide)
          rw [before_group_end t w opens, before_group_end u v (opening.mp opens)]
          by_cases hash : t.text = "#["
          · rw [if_pos hash, if_pos (hashes.mp hash)]
            exact .some rest
          · rw [if_neg hash, if_neg (fun text => hash (hashes.mpr text))]
            exact .none
      | succ depth =>
          rw [before_group_open depth t w opens, before_group_open depth u v (opening.mp opens)]
          exact deeper depth
    · rw [before_group_plain depth t w closes opens, before_group_plain depth u v
        (fun text => closes (closing.mpr text)) (fun text => opens (opening.mpr text))]
      exact deeper depth

theorem before_group_cons_in_step (t u : Token) (w v : List Token) (alike : Alike t u) (rest : H w v)
    (deeper : ∀ depth, Option.Rel H (beforeGroup depth w) (beforeGroup depth v)) (depth : Nat) :
    Option.Rel H (beforeGroup depth (t :: w)) (beforeGroup depth (u :: v)) := by
  have brackets : ["[", "]", "#["] ⊆ marks := by decide
  exact before_group_cons_related H t u w v (fun m bracket => alike.mark m (brackets bracket)) rest deeper depth

theorem before_attribute_in_step (t u : Token) (w v : List Token) (alike : Alike t u)
    (group : Option.Rel H (beforeGroup 0 w) (beforeGroup 0 v)) :
    Option.Rel H (beforeAttribute t w) (beforeAttribute u v) := by
  have same := alike.mark "]" (by decide)
  by_cases closes : t.text = "]"
  · rw [beforeAttribute, beforeAttribute, if_pos closes, if_pos (same.mp closes)]
    exact group
  · rw [beforeAttribute, beforeAttribute, if_neg closes, if_neg (fun text => closes (same.mpr text))]
    exact .none

variable (inStep : ∀ w v, H w v → InStep H w v)

include inStep

theorem follows_new_in_step (w v : List Token) (related : H w v) : followsNew w = followsNew v := by
  induction size : w.length using Nat.strongRecOn generalizing w v with
  | _ n ih =>
      subst size
      cases inStep w v related with
      | start => rfl
      | stop t u w v alike word =>
          have also : u.isDeclarationWord = true := alike_declaration_word t u alike ▸ word
          rw [declaration_word_follows_new t w word, declaration_word_follows_new u v also]
      | past t u w v alike rest group =>
          rw [follows_new_cons, follows_new_cons, ← alike_trivia t u alike, ← alike_modifier t u alike,
            ← alike_is_keyword t u alike, ih w.length (by simp) w v rest rfl]
          congr 1
          apply elim_related H Eq _ _ _ _ _ _ (before_attribute_in_step H t u w v alike group) rfl
          intro earlier later found jump
          have shorter := length_beforeAttribute found
          exact ih earlier.length (by simp; omega) earlier later jump rfl

theorem docblock_in_step (line : Int) (w v : List Token) (related : H w v) :
    SameVerdict (docblock line w) (docblock line v) := by
  induction size : w.length using Nat.strongRecOn generalizing w v with
  | _ n ih =>
      subst size
      cases inStep w v related with
      | start => rfl
      | stop t u w v alike word =>
          have also : u.isDeclarationWord = true := alike_declaration_word t u alike ▸ word
          rw [declaration_word_docblock line t w word, declaration_word_docblock line u v also]
          rfl
      | past t u w v alike rest group =>
          have further := ih w.length (by simp) w v rest rfl
          rw [docblock_cons, docblock_cons, ← alike.kind, ← alike_boundary t u alike,
            ← alike_modifier t u alike, ← alike.endLine]
          split
          · exact further
          split
          · split <;> rfl
          split
          · rfl
          split
          · exact further
          · apply elim_related H SameVerdict _ _ _ _ _ _ (before_attribute_in_step H t u w v alike group)
            · split
              · exact further
              · rfl
            · intro earlier later found jump
              have shorter := length_beforeAttribute found
              exact ih earlier.length (by simp; omega) earlier later jump rfl

theorem after_use_in_step (w v : List Token) (related : H w v) :
    (w.find? (!·.trivia)).any (·.lower == "use") = (v.find? (!·.trivia)).any (·.lower == "use") := by
  induction size : w.length using Nat.strongRecOn generalizing w v with
  | _ n ih =>
      subst size
      cases inStep w v related with
      | start => rfl
      | stop t u w v alike word =>
          have trivia : t.trivia = false := by
            simp [Token.trivia, TokenKind.isComment, (declaration_word_kind t word).1]
          simp [← alike_trivia t u alike, trivia, alike_after_use t u alike]
      | past t u w v alike rest group =>
          have further := ih w.length (by simp) w v rest rfl
          cases trivia : t.trivia with
          | true => simpa [← alike_trivia t u alike, trivia] using further
          | false => simp [← alike_trivia t u alike, trivia, alike_after_use t u alike]

end

end DocAudit.Php
