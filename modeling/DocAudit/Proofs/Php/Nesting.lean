import DocAudit.Proofs.Php.Stretch

/-!
Brackets that nest. A stretch of tokens in which every bracket is closed by its own kind leaves
the open braces around it as they were.
-/

set_option autoImplicit false

namespace DocAudit.Php

inductive Bracket where
  | paren
  | square
  | brace
deriving DecidableEq, Repr

def Token.opening (t : Token) : Option Bracket :=
  match t.kind with
  | .openBrace => some .brace
  | .closeBrace => none
  | _ =>
      if t.text = "(" then some .paren
      else if t.text = "[" ∨ t.text = "#[" then some .square
      else none

def Token.closing (t : Token) : Option Bracket :=
  match t.kind with
  | .openBrace => none
  | .closeBrace => some .brace
  | _ => if t.text = ")" then some .paren else if t.text = "]" then some .square else none

-- The brackets open after a stretch of tokens, innermost first; none when one is closed by
-- another kind.
def leftOpen : List Bracket → List Token → Option (List Bracket)
  | stack, [] => some stack
  | stack, t :: ts =>
      match t.opening, t.closing with
      | some b, _ => leftOpen (b :: stack) ts
      | none, some b => if stack.head? = some b then leftOpen stack.tail ts else none
      | none, none => leftOpen stack ts

def Nested (ts : List Token) : Prop := leftOpen [] ts = some []

instance (ts : List Token) : Decidable (Nested ts) := inferInstanceAs (Decidable (leftOpen [] ts = some []))

theorem other_not_brace (t : Token) (opens : t.kind ≠ .openBrace) (closes : t.kind ≠ .closeBrace) :
    t.opening ≠ some .brace ∧ t.closing ≠ some .brace := by
  unfold Token.opening Token.closing
  refine ⟨?_, ?_⟩
  · split
    · rename_i kind
      exact absurd kind opens
    · simp
    · split
      · simp
      · split <;> simp
  · split
    · simp
    · rename_i kind
      exact absurd kind closes
    · split
      · simp
      · split <;> simp

-- The ways in which one token changes the open brackets, with what it does to the braces.
inductive BracketStep (stack : List Bracket) (t : Token) : List Bracket → Prop where
  | push (kind : t.kind = .openBrace) : BracketStep stack t (.brace :: stack)
  | pop (kind : t.kind = .closeBrace) (rest : List Bracket) (top : stack = .brace :: rest) :
      BracketStep stack t rest
  | keep (opens : t.kind ≠ .openBrace) (closes : t.kind ≠ .closeBrace) (next : List Bracket)
      (same : next.count .brace = stack.count .brace) : BracketStep stack t next

theorem left_open_step (stack left : List Bracket) (t : Token) (ts : List Token)
    (remains : leftOpen stack (t :: ts) = some left) :
    ∃ next, BracketStep stack t next ∧ leftOpen next ts = some left := by
  rw [leftOpen] at remains
  by_cases opens : t.kind = .openBrace
  · have opening : t.opening = some .brace := by simp [Token.opening, opens]
    rw [opening] at remains
    exact ⟨.brace :: stack, .push opens, remains⟩
  by_cases closes : t.kind = .closeBrace
  · have opening : t.opening = none := by simp [Token.opening, closes]
    have closing : t.closing = some .brace := by simp [Token.closing, closes]
    simp only [opening, closing] at remains
    split at remains
    · rename_i top
      cases stack with
      | nil => simp at top
      | cons b rest =>
          have same : b = .brace := Option.some.inj top
          exact ⟨rest, .pop closes rest (same ▸ rfl), remains⟩
    · simp at remains
  obtain ⟨notOpening, notClosing⟩ := other_not_brace t opens closes
  cases opening : t.opening with
  | some b =>
      rw [opening] at remains notOpening
      have different : b ≠ .brace := fun same => notOpening (congrArg some same)
      exact ⟨b :: stack, .keep opens closes _ (List.count_cons_of_ne different), remains⟩
  | none =>
      cases closing : t.closing with
      | none =>
          simp only [opening, closing] at remains
          exact ⟨stack, .keep opens closes stack rfl, remains⟩
      | some b =>
          simp only [opening, closing] at remains
          rw [closing] at notClosing
          have different : b ≠ .brace := fun same => notClosing (congrArg some same)
          split at remains
          · rename_i top
            cases stack with
            | nil => simp at top
            | cons c rest =>
                have same : c = b := Option.some.inj top
                refine ⟨rest, .keep opens closes rest ?_, remains⟩
                exact (List.count_cons_of_ne (same ▸ different)).symm
          · simp at remains

theorem left_open_braces (ts w post : List Token) (i : Nat) (stack left : List Bracket) (inner base : List Nat)
    (here : ts.drop i = w ++ post) (remains : leftOpen stack w = some left)
    (braces : openBraces ts i = inner ++ base) (depth : inner.length = stack.count .brace) :
    ∃ after, openBraces ts (i + w.length) = after ++ base ∧ after.length = left.count .brace := by
  induction w generalizing i stack inner with
  | nil =>
      have same : stack = left := Option.some.inj remains
      exact ⟨inner, braces, same ▸ depth⟩
  | cons t w ih =>
      have found : ts[i]? = some t := by
        have head := congrArg List.head? here
        simpa using head
      have next : ts.drop (i + 1) = w ++ post := by
        rw [List.drop_add_one_eq_tail_drop, here]
        rfl
      have total : i + (t :: w).length = i + 1 + w.length := by simp only [List.length_cons]; omega
      obtain ⟨rest, step, remains⟩ := left_open_step stack left t w remains
      rw [total]
      cases step with
      | push kind =>
          have opens : opensAt ts i = true := by simp [opensAt, found, kind]
          refine ih (i + 1) _ (i :: inner) next remains ?_ ?_
          · simp [openBraces, opens, braces]
          · simp [depth]
      | pop kind rest top =>
          have closed : opensAt ts i = false := by simp [opensAt, found, kind]
          have closes : closesAt ts i = true := by simp [closesAt, found, kind]
          rw [top, List.count_cons_self] at depth
          cases inner with
          | nil => simp at depth
          | cons first inner =>
              refine ih (i + 1) _ inner next remains ?_ ?_
              · simp [openBraces, closed, closes, braces]
              · simpa using depth
      | keep opens closes rest same =>
          refine ih (i + 1) _ inner next remains ?_ (depth.trans same.symm)
          rw [braces_step ts i (by simp [opensAt, closesAt, found, opens, closes])]
          exact braces

theorem nested_open_braces (ts w post : List Token) (i : Nat) (here : ts.drop i = w ++ post) (nested : Nested w) :
    openBraces ts (i + w.length) = openBraces ts i := by
  obtain ⟨after, braces, depth⟩ := left_open_braces ts w post i [] [] [] (openBraces ts i) here nested rfl rfl
  rw [braces, List.length_eq_zero_iff.mp depth]
  rfl

-- Where no brace is open and none opens, none can close.
theorem left_open_closes (w : List Token) (stack left : List Bracket) (remains : leftOpen stack w = some left)
    (shut : stack.count .brace = 0) (closed : ∀ t ∈ w, t.kind ≠ .openBrace) :
    ∀ t ∈ w, t.kind ≠ .closeBrace := by
  induction w generalizing stack with
  | nil => simp
  | cons t w ih =>
      obtain ⟨next, step, remains⟩ := left_open_step stack left t w remains
      have later := fun u member => closed u (List.mem_cons_of_mem t member)
      cases step with
      | push kind => exact absurd kind (closed t List.mem_cons_self)
      | pop kind rest top => simp [top] at shut
      | keep opens closes rest same =>
          intro u member
          rcases List.mem_cons.mp member with first | rest
          · exact first ▸ closes
          · exact ih next remains (same.trans shut) later u rest

-- Below an open brace lie the braces that were open in front of it.
theorem open_braces_below (ts : List Token) (p b : Nat) (inner outer : List Nat)
    (braces : openBraces ts p = inner ++ b :: outer) : outer = openBraces ts b := by
  induction p generalizing inner with
  | zero => simp [openBraces] at braces
  | succ p ih =>
      rw [openBraces] at braces
      split at braces
      · cases inner with
        | nil =>
            obtain ⟨rfl, rest⟩ := List.cons.inj braces
            exact rest.symm
        | cons first inner => exact ih inner (List.cons.inj braces).2
      · split at braces
        · cases top : openBraces ts p with
          | nil => simp [top] at braces
          | cons first rest =>
              rw [top, List.tail_cons] at braces
              exact ih (first :: inner) (by rw [top, braces]; rfl)
        · exact ih inner braces

end DocAudit.Php
