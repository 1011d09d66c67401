import DocAudit.Proofs.Php.Position

/-!
Stretches of tokens: the way from a keyword to its name, and tokens that leave nesting and class
heads as they are.
-/

set_option autoImplicit false

namespace DocAudit.Php

/-! ### From a keyword to its name -/

def Passed (ts : List Token) (passes : Token → Bool) (j k : Nat) : Prop :=
  ∀ i t, j < i → i < k → ts[i]? = some t → passes t = true

theorem passed_succ (ts : List Token) (passes : Token → Bool) (j k : Nat) (t : Token)
    (passed : Passed ts passes j k) (here : ts[k]? = some t) (passing : passes t = true) :
    Passed ts passes j (k + 1) := by
  intro i u after before found
  by_cases last : i = k
  · subst last
    have same := Option.some.inj (here.symm.trans found)
    exact same ▸ passing
  · exact passed i u after (by omega) found

theorem next_at_found (ts : List Token) (passes : Token → Bool) (j k : Nat) (t : Token) (early : j < k)
    (passed : Passed ts passes j k) (here : ts[k]? = some t) (stops : passes t = false) :
    nextAt ts passes j = some k := by
  obtain ⟨bound, atK⟩ := List.getElem?_eq_some_iff.mp here
  have found : (ts.drop (j + 1)).findIdx? (!passes ·) = some (k - (j + 1)) := by
    rw [List.findIdx?_eq_some_iff_getElem]
    have position : j + 1 + (k - (j + 1)) = k := by omega
    refine ⟨by rw [List.length_drop]; omega, ?_, ?_⟩
    · simp [position, atK, stops]
    · intro i less
      have inner : j + 1 + i < ts.length := by omega
      have passing := passed (j + 1 + i) ts[j + 1 + i] (by omega) (by omega) (List.getElem?_eq_getElem inner)
      simp [passing]
  rw [nextAt, found, Option.map_some]
  congr 1
  omega

theorem next_at_passed (ts : List Token) (passes : Token → Bool) (j k : Nat)
    (next : nextAt ts passes j = some k) : Passed ts passes j k := by
  obtain ⟨i, found, rfl⟩ := Option.map_eq_some_iff.mp next
  obtain ⟨bound, -, earlier⟩ := List.findIdx?_eq_some_iff_getElem.mp found
  rw [List.length_drop] at bound
  intro n t after before here
  obtain ⟨inside, same⟩ := List.getElem?_eq_some_iff.mp here
  have passing := earlier (n - (j + 1)) (by omega)
  have position : j + 1 + (n - (j + 1)) = n := by omega
  simpa [position, same] using passing

theorem next_at_end (ts : List Token) (passes : Token → Bool) (j : Nat)
    (passed : Passed ts passes j ts.length) : nextAt ts passes j = none := by
  rw [nextAt, Option.map_eq_none_iff, List.findIdx?_eq_none_iff]
  intro t member
  obtain ⟨i, bound, rfl⟩ := List.mem_iff_getElem.mp member
  rw [List.length_drop] at bound
  have inner : j + 1 + i < ts.length := by omega
  have passing := passed (j + 1 + i) ts[j + 1 + i] (by omega) inner (List.getElem?_eq_getElem inner)
  simp [passing]

theorem before_at_succ (ts : List Token) (k : Nat) (t : Token) (here : ts[k]? = some t) :
    beforeAt ts (k + 1) = t :: beforeAt ts k := by
  simp [beforeAt, List.take_add_one, here]

section

variable {α : Type}

theorem take_at (c : Nat) (xs front inner : List α) (x : α) (taken : xs.take c = front ++ x :: inner) :
    front.length < c ∧ xs[front.length]? = some x ∧ xs.take front.length = front ∧
      (xs.take c).drop (front.length + 1) = inner := by
  have less : front.length < c := by
    have size := congrArg List.length taken
    rw [List.length_take, List.length_append, List.length_cons] at size
    omega
  refine ⟨less, ?_, ?_, ?_⟩
  · rw [← List.getElem?_take_of_lt less, taken, List.getElem?_append_right (Nat.le_refl _), Nat.sub_self]
    rfl
  · rw [← Nat.min_eq_left (Nat.le_of_lt less), ← List.take_take, taken, List.take_left]
  · rw [taken, List.drop_append, List.drop_eq_nil_of_le (Nat.le_succ _), Nat.add_sub_cancel_left]
    rfl

theorem take_split (o c : Nat) (xs : List α) (x : α) (less : o < c) (here : xs[o]? = some x) :
    xs.take c = xs.take o ++ x :: (xs.take c).drop (o + 1) := by
  have front : (xs.take c)[o]? = some x := by rw [List.getElem?_take_of_lt less, here]
  obtain ⟨bound, same⟩ := List.getElem?_eq_some_iff.mp front
  have taken : (xs.take c).take o = xs.take o := by rw [List.take_take, Nat.min_eq_left (Nat.le_of_lt less)]
  rw [← same, ← List.drop_eq_getElem_cons bound, ← taken, List.take_append_drop]

end

/-! ### Tokens that change nothing -/

-- What the scan relies on about the texts of tokens, whatever their kind.
structure WellSpelled (t : Token) : Prop where
  brace : t.kind.isBrace = true → t.text ≠ "&"
  label : t.kind.isLabel = true → t.text ≠ closureName

structure Inert (t : Token) : Prop where
  brace : t.kind.isBrace = false
  keyword : ∀ head : Head, t.isKeyword head.word = false

theorem trivia_inert (t : Token) (trivia : t.trivia = true) : Inert t := by
  rcases t with ⟨kind, text, line⟩
  cases kind with
  | whitespace => exact ⟨rfl, fun _ => rfl⟩
  | docComment => exact ⟨rfl, fun _ => rfl⟩
  | lineComment => exact ⟨rfl, fun _ => rfl⟩
  | blockComment => exact ⟨rfl, fun _ => rfl⟩
  | keyword => simp [Token.trivia, TokenKind.isComment] at trivia
  | identifier => simp [Token.trivia, TokenKind.isComment] at trivia
  | openBrace => simp [Token.trivia, TokenKind.isComment] at trivia
  | closeBrace => simp [Token.trivia, TokenKind.isComment] at trivia
  | other => simp [Token.trivia, TokenKind.isComment] at trivia

theorem lower_ampersand : Text.lower "&" = "&" := by decide +kernel

theorem passes_inert (head : Head) (t : Token) (spelled : WellSpelled t) (passing : head.passes t = true) :
    Inert t := by
  by_cases trivia : t.trivia = true
  · exact trivia_inert t trivia
  · cases head with
    | ofClass => exact absurd passing trivia
    | ofFunction =>
        have text : t.text = "&" := by simpa [Head.passes, trivia] using passing
        refine ⟨?_, ?_⟩
        · rw [Bool.eq_false_iff]
          intro brace
          exact spelled.brace brace text
        · intro other
          have lower : t.lower = "&" := by rw [Token.lower, text, lower_ampersand]
          cases other <;> simp [Token.isKeyword, Head.word, lower]

theorem constant_stretch {α : Type} (f : Nat → α) (j k : Nat) (le : j ≤ k)
    (same : ∀ i, j ≤ i → i < k → f (i + 1) = f i) : f k = f j := by
  induction k with
  | zero => rw [Nat.le_zero.mp le]
  | succ k ih =>
      by_cases last : j = k + 1
      · rw [last]
      · rw [same k (by omega) (by omega)]
        exact ih (by omega) (fun i after before => same i after (by omega))

section

variable (ts : List Token) (taken : Nat → Bool)

theorem inert_words (k : Nat) (t : Token) (here : ts[k]? = some t) (inert : Inert t) (head : Head) :
    liveAt ts taken head.word k = false := by
  simp [liveAt, wordAt, here, inert.keyword head]

theorem inert_braces (k : Nat) (t : Token) (here : ts[k]? = some t) (inert : Inert t) :
    opensAt ts k = false ∧ closesAt ts k = false := by
  have brace := inert.brace
  cases kind : t.kind <;> simp_all [opensAt, closesAt, TokenKind.isBrace]

theorem dead_class (k : Nat) (dead : liveAt ts taken "class" k = false) :
    classNameAt ts taken k = none ∧ headAt ts taken k = none := by
  have nameless : classNameAt ts taken k = none := by simp [classNameAt, namesClassAt, dead]
  exact ⟨nameless, by simp [headAt, dead, nameless]⟩

theorem dead_awaits (k : Nat) (head : Head) (dead : liveAt ts taken head.word k = false) :
    awaitsName ts taken head k = false := by
  cases head with
  | ofClass => simp [awaitsName, namesClassAt, show liveAt ts taken "class" k = false from dead]
  | ofFunction => simp [awaitsName, show liveAt ts taken "function" k = false from dead]

theorem silent_declares (k : Nat) (silent : awaitsName ts taken .ofFunction k = false)
    (nameless : classNameAt ts taken k = none) : declarationAt ts taken k = none := by
  simp [declarationAt, silent, nameless]

theorem dead_declares (k : Nat) (dead : ∀ head : Head, liveAt ts taken head.word k = false) :
    declarationAt ts taken k = none :=
  silent_declares ts taken k (dead_awaits ts taken k .ofFunction (dead .ofFunction))
    (dead_class ts taken k (dead .ofClass)).1

theorem taken_dead (k : Nat) (word : String) (name : taken k = true) : liveAt ts taken word k = false := by
  simp [liveAt, name]

theorem head_none_nameless (k : Nat) (headless : headAt ts taken k = none) :
    classNameAt ts taken k = none := by
  unfold headAt at headless
  split at headless
  · simp at headless
  · exact Option.map_eq_none_iff.mp headless

/-! ### Stretches without braces and heads -/

theorem braces_step (k : Nat) (still : opensAt ts k = false ∧ closesAt ts k = false) :
    openBraces ts (k + 1) = openBraces ts k := by
  simp [openBraces, still.1, still.2]

theorem owner_step (k : Nat) (closed : opensAt ts k = false) (headless : headAt ts taken k = none) :
    ownerAt ts taken (k + 1) = ownerAt ts taken k := by
  simp [ownerAt, headBefore, closed, headless]

theorem ordinal_step (k : Nat) (nameless : classNameAt ts taken k = none) :
    ordinalAt ts taken (k + 1) = ordinalAt ts taken k := by
  simp [ordinalAt, List.range_succ, nameless]

theorem owner_head (k : Nat) (scope : Scope) (closed : opensAt ts k = false)
    (head : headAt ts taken k = some scope) : ownerAt ts taken (k + 1) = some scope := by
  simp [ownerAt, headBefore, closed, head]

theorem braces_stretch (j k : Nat) (le : j ≤ k)
    (still : ∀ i, j ≤ i → i < k → opensAt ts i = false ∧ closesAt ts i = false) :
    openBraces ts k = openBraces ts j :=
  constant_stretch (openBraces ts) j k le fun i after before => braces_step ts i (still i after before)

theorem owner_stretch (j k : Nat) (le : j ≤ k) (closed : ∀ i, j ≤ i → i < k → opensAt ts i = false)
    (headless : ∀ i, j ≤ i → i < k → headAt ts taken i = none) :
    ownerAt ts taken k = ownerAt ts taken j :=
  constant_stretch (ownerAt ts taken) j k le fun i after before =>
    owner_step ts taken i (closed i after before) (headless i after before)

theorem ordinal_stretch (j k : Nat) (le : j ≤ k)
    (headless : ∀ i, j ≤ i → i < k → headAt ts taken i = none) :
    ordinalAt ts taken k = ordinalAt ts taken j :=
  constant_stretch (ordinalAt ts taken) j k le fun i after before =>
    ordinal_step ts taken i (head_none_nameless ts taken i (headless i after before))

end

end DocAudit.Php
