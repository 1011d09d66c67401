import DocAudit.Proofs.Php.AttributeGroup
import DocAudit.Proofs.Php.Nesting
import DocAudit.Proofs.Php.Scanning

/-!
The scope of an anonymous class. Its frame belongs to the brace of its body exactly when no other
brace opens, and no other class begins, between the keyword and that brace. A brace among the
constructor arguments takes the scope away.
-/

set_option autoImplicit false

namespace DocAudit.Php

theorem declaration_enclosing (ts : List Token) (taken : Nat → Bool) (k : Nat) (d : Declaration)
    (declared : declarationAt ts taken k = some d) :
    d.enclosing = (enclosingAt ts taken k).map (·.name) ∧ (d.kind ≠ .classDecl → d.enclosing ≠ none) := by
  unfold declarationAt at declared
  split at declared
  · rename_i awaits
    obtain ⟨t, -, function⟩ := Option.bind_eq_some_iff.mp declared
    have same : d.enclosing = (enclosingAt ts taken k).map (·.name) := by
      unfold functionAt at function
      split at function
      · cases function
        rfl
      · split at function
        · cases function
          rfl
        · simp at function
    refine ⟨same, fun _ => ?_⟩
    simp only [awaitsName, Bool.and_eq_true] at awaits
    obtain ⟨owner, enclosing⟩ := Option.isSome_iff_exists.mp awaits.2
    simp [same, enclosing]
  · obtain ⟨t, -, rfl⟩ := Option.map_eq_some_iff.mp declared
    exact ⟨rfl, fun function => absurd rfl function⟩

/-! ### Anonymous classes -/

def between (ts : List Token) (i j : Nat) : List Token := (ts.take j).drop (i + 1)

def parenDepth (w : List Token) : Int := w.countP (·.text == "(") - w.countP (·.text == ")")

-- A `class` after `new`, with the brace that opens its body: the first one after the keyword at
-- the keyword's depth of parentheses. The header in between, arguments and all, is nested.
structure AnonymousClass (ts : List Token) (keyword body : Nat) : Prop where
  live : liveAt ts (takenAt ts) "class" keyword = true
  new : NewHead (ts.take keyword)
  early : keyword < body
  opens : opensAt ts body = true
  header : Nested (between ts keyword body)
  first : ∀ i, i < body → keyword < i → opensAt ts i = true → parenDepth (between ts keyword i) ≠ 0

instance (ts : List Token) (keyword body : Nat) : Decidable (AnonymousClass ts keyword body) :=
  decidable_of_iff
    (liveAt ts (takenAt ts) "class" keyword = true ∧ NewHead (ts.take keyword) ∧
      keyword < body ∧ opensAt ts body = true ∧ Nested (between ts keyword body) ∧
      ∀ i, i < body → keyword < i → opensAt ts i = true → parenDepth (between ts keyword i) ≠ 0)
    ⟨fun ⟨live, new, early, opens, header, first⟩ => ⟨live, new, early, opens, header, first⟩,
      fun h => ⟨h.live, h.new, h.early, h.opens, h.header, h.first⟩⟩

-- No brace and no class between the keyword and the body.
def ClearHeader (ts : List Token) (keyword body : Nat) : Prop :=
  ∀ i, keyword < i → i < body → opensAt ts i = false ∧ headAt ts (takenAt ts) i = none

def directlyIn (ts : List Token) (body k : Nat) : Prop := (openBraces ts k).head? = some body

instance (ts : List Token) (body k : Nat) : Decidable (directlyIn ts body k) :=
  inferInstanceAs (Decidable ((openBraces ts k).head? = some body))

-- The body has the frame of the class, and only the body: what is declared in it is inside the
-- anonymous class, and what is declared before it is where the `new` is.
structure ScopeAtBody (ts : List Token) (keyword body : Nat) : Prop where
  frame : headBefore ts (takenAt ts) body = some keyword
  members : ∀ k d, directlyIn ts body k → declarationAt ts (takenAt ts) k = some d →
    d.enclosing = some anonymousClassName
  arguments : ∀ k d, keyword < k → k < body → declarationAt ts (takenAt ts) k = some d →
    d.enclosing = (enclosingAt ts (takenAt ts) keyword).map (·.name) ∧
      (enclosingAt ts (takenAt ts) keyword = none → d.kind = .classDecl)

theorem header_clear (ts : List Token) (keyword body : Nat)
    (found : headBefore ts (takenAt ts) body = some keyword) : ClearHeader ts keyword body := by
  obtain ⟨-, -, shut, none⟩ := (head_before_iff ts (takenAt ts) body keyword).mp found
  intro i after before
  exact ⟨shut i (Nat.le_of_lt after) before, none i after before⟩

theorem clear_head_before (ts : List Token) (keyword body : Nat) (after : keyword < body)
    (head : (headAt ts (takenAt ts) keyword).isSome = true) (closed : opensAt ts keyword = false)
    (clear : ClearHeader ts keyword body) : headBefore ts (takenAt ts) body = some keyword := by
  rw [head_before_iff]
  refine ⟨after, head, ?_, fun i late early => (clear i late early).2⟩
  intro i late early
  by_cases first : i = keyword
  · exact first ▸ closed
  · exact (clear i (by omega) early).1

section

variable (ts : List Token) (keyword body : Nat) (anonymous : AnonymousClass ts keyword body)

include anonymous

theorem anonymous_head : headAt ts (takenAt ts) keyword = some ⟨anonymousClassName, none⟩ := by
  have follows : followsNew (beforeAt ts keyword) = true := (new_head_iff _).mp anonymous.new
  simp [headAt, anonymous.live, follows]

theorem anonymous_closed : opensAt ts keyword = false ∧ closesAt ts keyword = false := by
  have live := anonymous.live
  simp only [liveAt, wordAt, Bool.and_eq_true] at live
  obtain ⟨t, here, word⟩ := (Option.any_eq_true _ _).mp live.1
  simp only [Token.isKeyword, Bool.and_eq_true, beq_iff_eq] at word
  simp [opensAt, closesAt, here, word.1]

theorem header_head (a : Nat) (after : keyword < a) (clear : ClearHeader ts keyword a) :
    headBefore ts (takenAt ts) a = some keyword := by
  have head := anonymous_head ts keyword body anonymous
  exact clear_head_before ts keyword a after (by rw [head]; rfl) (anonymous_closed ts keyword body anonymous).1 clear

theorem header_drop : ts.drop (keyword + 1) = between ts keyword body ++ ts.drop body := by
  have early := anonymous.early
  have whole := (List.take_append_drop (body - (keyword + 1)) (ts.drop (keyword + 1))).symm
  rw [List.drop_drop, List.take_drop, show keyword + 1 + (body - (keyword + 1)) = body by omega] at whole
  exact whole

theorem header_length : keyword + 1 + (between ts keyword body).length = body := by
  have opens := anonymous.opens
  have early := anonymous.early
  obtain ⟨t, here, -⟩ := (Option.any_eq_true _ _).mp opens
  obtain ⟨bound, -⟩ := List.getElem?_eq_some_iff.mp here
  simp only [between, List.length_drop, List.length_take]
  omega

theorem header_open_braces : openBraces ts body = openBraces ts keyword := by
  have kept := nested_open_braces ts _ _ (keyword + 1) (header_drop ts keyword body anonymous) anonymous.header
  rw [header_length ts keyword body anonymous,
    braces_step ts keyword (anonymous_closed ts keyword body anonymous)] at kept
  exact kept

theorem header_no_close (clear : ClearHeader ts keyword body) (i : Nat) (after : keyword < i) (before : i < body) :
    closesAt ts i = false := by
  have tokens : ∀ t ∈ between ts keyword body, t.kind ≠ .openBrace := by
    intro t member opens
    obtain ⟨n, bound, rfl⟩ := List.mem_iff_getElem.mp member
    have length := header_length ts keyword body anonymous
    have here : ts[keyword + 1 + n]? = some (between ts keyword body)[n] := by
      rw [← List.getElem?_drop, header_drop ts keyword body anonymous, List.getElem?_append_left bound,
        List.getElem?_eq_getElem bound]
    have shut := (clear (keyword + 1 + n) (by omega) (by omega)).1
    simp [opensAt, here, opens] at shut
  have none := left_open_closes _ [] [] anonymous.header rfl tokens
  cases here : ts[i]? with
  | none => simp [closesAt, here]
  | some t =>
      have member : t ∈ between ts keyword body := by
        rw [between, List.mem_iff_getElem?]
        refine ⟨i - (keyword + 1), ?_⟩
        rw [List.getElem?_drop, show keyword + 1 + (i - (keyword + 1)) = i by omega,
          List.getElem?_take_of_lt before, here]
      simp [closesAt, here, none t member]

theorem argument_enclosing (clear : ClearHeader ts keyword body) (k : Nat) (after : keyword < k) (before : k < body) :
    enclosingAt ts (takenAt ts) k = enclosingAt ts (takenAt ts) keyword := by
  have still : ∀ i, keyword ≤ i → i < k → opensAt ts i = false ∧ closesAt ts i = false := by
    intro i late early
    by_cases first : i = keyword
    · exact first ▸ anonymous_closed ts keyword body anonymous
    · exact ⟨(clear i (by omega) (by omega)).1,
        header_no_close ts keyword body anonymous clear i (by omega) (by omega)⟩
  rw [enclosingAt, enclosingAt, braces_stretch ts keyword k (Nat.le_of_lt after) still]

theorem member_enclosing (k : Nat) (inside : directlyIn ts body k) :
    enclosingAt ts (takenAt ts) k =
      (ownerAt ts (takenAt ts) body).or (enclosingAt ts (takenAt ts) keyword) := by
  cases braces : openBraces ts k with
  | nil => simp [directlyIn, braces] at inside
  | cons b outer =>
      have same : b = body := by simpa [directlyIn, braces] using inside
      subst same
      have below := open_braces_below ts k b [] outer braces
      rw [enclosingAt, braces, below, List.findSome?_cons, header_open_braces ts keyword b anonymous]
      cases ownerAt ts (takenAt ts) b <;> rfl

theorem clear_scope (clear : ClearHeader ts keyword body) : ScopeAtBody ts keyword body := by
  have frame := header_head ts keyword body anonymous body anonymous.early clear
  refine ⟨frame, ?_, ?_⟩
  · intro k d inside declared
    have enclosing := (declaration_enclosing ts (takenAt ts) k d declared).1
    rw [member_enclosing ts keyword body anonymous k inside, ownerAt, frame, Option.bind_some,
      anonymous_head ts keyword body anonymous] at enclosing
    exact enclosing
  · intro k d after before declared
    obtain ⟨enclosing, function⟩ := declaration_enclosing ts (takenAt ts) k d declared
    rw [argument_enclosing ts keyword body anonymous clear k after before] at enclosing
    refine ⟨enclosing, ?_⟩
    intro none
    rw [none] at enclosing
    by_cases kind : d.kind = .classDecl
    · exact kind
    · exact absurd enclosing (function kind)

-- With a brace in the header and no class after it, the body is nobody's.
theorem lost_scope (i : Nat) (before : i < body) (opens : opensAt ts i = true)
    (headless : ∀ j, i < j → j < body → headAt ts (takenAt ts) j = none) (k : Nat) (d : Declaration)
    (inside : directlyIn ts body k) (declared : declarationAt ts (takenAt ts) k = some d) :
    d.enclosing = (enclosingAt ts (takenAt ts) keyword).map (·.name) := by
  have enclosing := (declaration_enclosing ts (takenAt ts) k d declared).1
  rw [member_enclosing ts keyword body anonymous k inside, ownerAt,
    head_before_none ts (takenAt ts) body i before opens headless] at enclosing
  exact enclosing

end

theorem anonymous_scope_at_body_iff (source : String) (keyword body : Nat)
    (anonymous : AnonymousClass (tokenize source).tokens keyword body) :
    let ts := (tokenize source).tokens
    (∀ k, k ≤ ts.length →
      (scanAfter (ts.take k)).frames = (openBraces ts k).map (ownerAt ts (takenAt ts))) ∧
    declarations ts = (List.range ts.length).filterMap (declarationAt ts (takenAt ts)) ∧
    (ScopeAtBody ts keyword body ↔ ClearHeader ts keyword body) ∧
    ∀ i, keyword < i → i < body → opensAt ts i = true →
      (ClearHeader ts keyword i → headBefore ts (takenAt ts) i = some keyword) ∧
      ((∀ j, i < j → j < body → headAt ts (takenAt ts) j = none) →
        ∀ k d, directlyIn ts body k → declarationAt ts (takenAt ts) k = some d →
          d.enclosing = (enclosingAt ts (takenAt ts) keyword).map (·.name)) := by
  intro ts
  have spelled := tokenize_well_spelled source
  refine ⟨scan_frames_by_position ts spelled, declarations_by_position ts spelled, ⟨?_, ?_⟩, ?_⟩
  · intro scope
    exact header_clear ts keyword body scope.frame
  · exact clear_scope ts keyword body anonymous
  · intro i after before opens
    refine ⟨header_head ts keyword body anonymous i after, ?_⟩
    intro headless k d
    exact lost_scope ts keyword body anonymous i before opens headless k d

-- A call stands in the arguments, and the whole expression in a method of `A`.
theorem anonymous_scope_with_arguments :
    let ts := (tokenize "<?php class A{function f(){new class(g(1)){function h(){}};}}").tokens
    AnonymousClass ts 14 21 ∧ ScopeAtBody ts 14 21 ∧ directlyIn ts 21 22 ∧
      (declarationAt ts (takenAt ts) 22).map (fun d => (d.name, d.enclosing)) =
        some ("h", some anonymousClassName) := by
  intro ts
  obtain ⟨anonymous, arguments, inside, method⟩ :
      AnonymousClass ts 14 21 ∧ (∀ i < 21, 14 < i → opensAt ts i = false ∧ headAt ts (takenAt ts) i = none) ∧
      directlyIn ts 21 22 ∧ (declarationAt ts (takenAt ts) 22).map (·.name) = some "h" := by
    decide +kernel
  have scope : ScopeAtBody ts 14 21 :=
    (anonymous_scope_at_body_iff _ 14 21 anonymous).2.2.1.mpr fun i after before => arguments i before after
  obtain ⟨d, declared, name⟩ := Option.map_eq_some_iff.mp method
  refine ⟨anonymous, scope, inside, ?_⟩
  rw [declared, Option.map_some, name, scope.members 22 d inside declared]

theorem closure_argument_takes_scope :
    let ts := (tokenize "<?php class A{function f(){new class(function(){}){function g(){}};}}").tokens
    (Nested ts ∧ AnonymousClass ts 14 22 ∧ directlyIn ts 22 23 ∧ wordAt ts "function" 23 = true ∧
      (scan {} ts "p").findings.map (fun f => (f.name, f.className)) =
        [("A", none), ("f", some "A"), (closureName, some "A"), ("g", some "A")]) ∧
      ¬ ScopeAtBody ts 14 22 := by
  intro ts
  -- The brace of the closure, in the same evaluation as the rest.
  refine And.imp_right ?_ (show _ ∧ opensAt ts 19 = true by decide +kernel)
  intro argument scope
  have clear := header_clear ts 14 22 scope.frame 19 (by decide) (by decide)
  rw [clear.1] at argument
  cases argument

end DocAudit.Php
