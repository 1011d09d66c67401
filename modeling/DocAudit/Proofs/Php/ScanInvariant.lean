import DocAudit.Proofs.Php.Stretch

/-!
What the scan has in hand after the first `k` tokens, said by position, and how a token that
names nothing changes it.
-/

set_option autoImplicit false

namespace DocAudit.Php

section

variable (ts : List Token) (taken : Nat → Bool)

/-! ### The invariant -/

structure Tracks (k : Nat) (st : Scan) : Prop where
  before : st.before = beforeAt ts k
  frames : st.frames = (openBraces ts k).map (ownerAt ts taken)

-- Nothing waits: every keyword before `k` that waited has met a token that it does not pass over.
structure Idle (k : Nat) (st : Scan) : Prop extends Tracks ts taken k st where
  pending : st.pending = none
  body : st.body = ownerAt ts taken k
  named : st.named = ordinalAt ts taken k
  settled : ∀ head j, j < k → awaitsName ts taken head j = true → ¬ Passed ts head.passes j k

-- The keyword at `j` waits. What it names counts from its own position, so the rest of the state
-- still stands there.
structure Waits (k j : Nat) (head : Head) (st : Scan) : Prop extends Tracks ts taken k st where
  early : j < k
  awaits : awaitsName ts taken head j = true
  passed : Passed ts head.passes j k
  pending : st.pending = some ⟨head, lineAt ts j, docblockAt ts j⟩
  body : st.body = ownerAt ts taken j
  named : st.named = ordinalAt ts taken j

def Follows (k : Nat) : Option (Nat × Head) → Scan → Prop
  | none, st => Idle ts taken k st
  | some (j, head), st => Waits ts taken k j head st

def waitingDeclaration (waiting : Option (Nat × Head)) : Option Declaration :=
  waiting.bind fun keyword => declarationAt ts taken keyword.1

-- Nothing waits past the token at `k`, which has yet to take its effect.
structure Ready (k : Nat) (st : Scan) : Prop extends Tracks ts taken k st where
  pending : st.pending = none
  body : st.body = ownerAt ts taken k
  named : st.named = ordinalAt ts taken k
  settled : ∀ head j, j < k → awaitsName ts taken head j = true → ¬ Passed ts head.passes j (k + 1)

theorem tracks_enclosing (k : Nat) (st : Scan) (tracks : Tracks ts taken k st) :
    st.enclosing = enclosingAt ts taken k := by
  rw [Scan.enclosing, tracks.frames, List.findSome?_map, enclosingAt]
  rfl

theorem tracks_after_use (k : Nat) (st : Scan) (tracks : Tracks ts taken k st) :
    st.afterUse = afterUseAt ts k := by
  rw [Scan.afterUse, Scan.significantBefore, tracks.before, afterUseAt]

theorem passed_shorten (passes : Token → Bool) (j k : Nat) (passed : Passed ts passes j (k + 1)) :
    Passed ts passes j k := by
  intro i t after before found
  exact passed i t after (by omega) found

theorem idle_ready (k : Nat) (st : Scan) (idle : Idle ts taken k st) : Ready ts taken k st := by
  refine ⟨idle.toTracks, idle.pending, idle.body, idle.named, ?_⟩
  intro head j early awaits passed
  exact idle.settled head j early awaits (passed_shorten ts head.passes j k passed)

theorem ready_idle (k : Nat) (st next : Scan) (ready : Ready ts taken k st)
    (silent : ∀ head, awaitsName ts taken head k = false) (tracks : Tracks ts taken (k + 1) next)
    (pending : next.pending = none) (body : next.body = ownerAt ts taken (k + 1))
    (named : next.named = ordinalAt ts taken (k + 1)) : Idle ts taken (k + 1) next := by
  refine ⟨tracks, pending, body, named, ?_⟩
  intro head j early awaits
  by_cases last : j = k
  · rw [last, silent head] at awaits
    cases awaits
  · exact ready.settled head j (by omega) awaits

-- A token that is no brace and begins nothing.
theorem ready_inert (k : Nat) (t : Token) (st : Scan) (here : ts[k]? = some t) (ready : Ready ts taken k st)
    (still : opensAt ts k = false ∧ closesAt ts k = false)
    (silent : ∀ head, awaitsName ts taken head k = false) (headless : headAt ts taken k = none) :
    Idle ts taken (k + 1) { st with before := t :: st.before } := by
  refine ready_idle ts taken k st _ ready silent ⟨?_, ?_⟩ ready.pending ?_ ?_
  · rw [before_at_succ ts k t here, ← ready.before]
  · rw [braces_step ts k still]
    exact ready.frames
  · rw [owner_step ts taken k still.1 headless]
    exact ready.body
  · rw [ordinal_step ts taken k (head_none_nameless ts taken k headless)]
    exact ready.named

theorem other_kind_dead (k : Nat) (t : Token) (here : ts[k]? = some t) (other : t.kind ≠ .keyword)
    (word : String) : liveAt ts taken word k = false := by
  simp [liveAt, wordAt, here, Token.isKeyword, other]

theorem enter_open_brace (k : Nat) (t : Token) (st : Scan) (here : ts[k]? = some t)
    (ready : Ready ts taken k st) (kind : t.kind = .openBrace) :
    Idle ts taken (k + 1) { st.enter t with before := t :: (st.enter t).before } := by
  have dead : ∀ head : Head, liveAt ts taken head.word k = false := fun head =>
    other_kind_dead ts taken k t here (by simp [kind]) head.word
  have opens : opensAt ts k = true := by simp [opensAt, here, kind]
  obtain ⟨nameless, headless⟩ := dead_class ts taken k (dead .ofClass)
  simp only [Scan.enter, kind]
  refine ready_idle ts taken k st _ ready (fun head => dead_awaits ts taken k head (dead head))
    ⟨?_, ?_⟩ ready.pending ?_ ?_
  · rw [before_at_succ ts k t here, ← ready.before]
  · simp [openBraces, opens, ready.body, ready.frames]
  · simp [ownerAt, headBefore, opens]
  · rw [ordinal_step ts taken k nameless]
    exact ready.named

theorem enter_close_brace (k : Nat) (t : Token) (st : Scan) (here : ts[k]? = some t)
    (ready : Ready ts taken k st) (kind : t.kind = .closeBrace) :
    Idle ts taken (k + 1) { st.enter t with before := t :: (st.enter t).before } := by
  have dead : ∀ head : Head, liveAt ts taken head.word k = false := fun head =>
    other_kind_dead ts taken k t here (by simp [kind]) head.word
  have closed : opensAt ts k = false := by simp [opensAt, here, kind]
  have closes : closesAt ts k = true := by simp [closesAt, here, kind]
  obtain ⟨nameless, headless⟩ := dead_class ts taken k (dead .ofClass)
  simp only [Scan.enter, kind]
  refine ready_idle ts taken k st _ ready (fun head => dead_awaits ts taken k head (dead head))
    ⟨?_, ?_⟩ ready.pending ?_ ?_
  · rw [before_at_succ ts k t here, ← ready.before]
  · simp [openBraces, closed, closes, ready.frames, List.map_tail]
  · rw [owner_step ts taken k closed headless]
    exact ready.body
  · rw [ordinal_step ts taken k nameless]
    exact ready.named

theorem keyword_still (k : Nat) (t : Token) (here : ts[k]? = some t) (kind : t.kind = .keyword) :
    opensAt ts k = false ∧ closesAt ts k = false := by
  simp [opensAt, closesAt, here, kind]

theorem keyword_live (k : Nat) (t : Token) (here : ts[k]? = some t) (kind : t.kind = .keyword)
    (free : taken k = false) (word : String) : liveAt ts taken word k = (t.lower == word) := by
  simp [liveAt, wordAt, here, Token.isKeyword, kind, free]

theorem await_name_waits (k : Nat) (t : Token) (st : Scan) (head : Head) (here : ts[k]? = some t)
    (ready : Ready ts taken k st) (kind : t.kind = .keyword) (awaits : awaitsName ts taken head k = true) :
    Waits ts taken (k + 1) k head { st.awaitName head t with before := t :: (st.awaitName head t).before } := by
  refine ⟨⟨?_, ?_⟩, Nat.lt_succ_self k, awaits, ?_, ?_, ready.body, ready.named⟩
  · rw [before_at_succ ts k t here, ← ready.before]
    rfl
  · rw [braces_step ts k (keyword_still ts k t here kind)]
    exact ready.frames
  · intro i u after before found
    omega
  · have line : lineAt ts k = t.line := by simp [lineAt, here]
    simp only [Scan.awaitName, docblockAt, line, ready.before]

theorem enter_anonymous (k : Nat) (t : Token) (st : Scan) (here : ts[k]? = some t)
    (ready : Ready ts taken k st) (kind : t.kind = .keyword) (free : taken k = false)
    (word : t.lower = "class") (anonymous : followsNew st.before = true) :
    Idle ts taken (k + 1) { st with body := some ⟨anonymousClassName, none⟩, before := t :: st.before } ∧
      declarationAt ts taken k = none := by
  have live : liveAt ts taken "class" k = true := by simp [keyword_live ts taken k t here kind free, word]
  have dead : liveAt ts taken "function" k = false := by
    simp [keyword_live ts taken k t here kind free, word]
  have new : followsNew (beforeAt ts k) = true := ready.before ▸ anonymous
  have nameless : classNameAt ts taken k = none := by simp [classNameAt, namesClassAt, new]
  have head : headAt ts taken k = some ⟨anonymousClassName, none⟩ := by simp [headAt, live, new]
  have silent : ∀ head, awaitsName ts taken head k = false := by
    intro head
    cases head with
    | ofClass => simp [awaitsName, namesClassAt, new]
    | ofFunction => exact dead_awaits ts taken k .ofFunction dead
  have still := keyword_still ts k t here kind
  refine ⟨?_, silent_declares ts taken k (silent .ofFunction) nameless⟩
  refine ready_idle ts taken k st _ ready silent ⟨?_, ?_⟩ ready.pending ?_ ?_
  · rw [before_at_succ ts k t here, ← ready.before]
  · rw [braces_step ts k still]
    exact ready.frames
  · exact (owner_head ts taken k _ still.1 head).symm
  · rw [ordinal_step ts taken k nameless]
    exact ready.named

theorem enter_keyword (k : Nat) (t : Token) (st : Scan) (here : ts[k]? = some t)
    (ready : Ready ts taken k st) (kind : t.kind = .keyword) (free : taken k = false) :
    ∃ waiting, Follows ts taken (k + 1) waiting { st.enter t with before := t :: (st.enter t).before } ∧
      waitingDeclaration ts taken waiting = declarationAt ts taken k := by
  have live := keyword_live ts taken k t here kind free
  simp only [Scan.enter, kind]
  by_cases isClass : t.lower = "class"
  · rw [if_pos isClass]
    by_cases anonymous : followsNew st.before = true
    · rw [if_pos anonymous]
      obtain ⟨idle, undeclared⟩ := enter_anonymous ts taken k t st here ready kind free isClass anonymous
      exact ⟨none, idle, undeclared.symm⟩
    · rw [if_neg anonymous]
      have awaits : awaitsName ts taken .ofClass k = true := by
        simp [awaitsName, namesClassAt, live, isClass, ← ready.before, anonymous]
      exact ⟨some (k, .ofClass), await_name_waits ts taken k t st .ofClass here ready kind awaits, rfl⟩
  · rw [if_neg isClass]
    have headless := (dead_class ts taken k (by simp [live, isClass])).2
    have awaitsIff : awaitsName ts taken .ofFunction k = true ↔
        t.lower = "function" ∧ st.afterUse = false ∧ st.enclosing.isSome = true := by
      rw [tracks_after_use ts taken k st ready.toTracks, tracks_enclosing ts taken k st ready.toTracks]
      simp [awaitsName, live, and_assoc]
    by_cases isFunction : t.lower = "function" ∧ st.afterUse = false ∧ st.enclosing.isSome = true
    · rw [if_pos isFunction]
      exact ⟨some (k, .ofFunction),
        await_name_waits ts taken k t st .ofFunction here ready kind (awaitsIff.mpr isFunction), rfl⟩
    · rw [if_neg isFunction]
      have silent : ∀ head, awaitsName ts taken head k = false := by
        intro head
        cases head with
        | ofClass => exact dead_awaits ts taken k .ofClass (by simp [Head.word, live, isClass])
        | ofFunction => exact Bool.eq_false_iff.mpr (fun awaits => isFunction (awaitsIff.mp awaits))
      refine ⟨none, ready_inert ts taken k t st here ready (keyword_still ts k t here kind) silent headless, ?_⟩
      exact (silent_declares ts taken k (silent .ofFunction) (head_none_nameless ts taken k headless)).symm

theorem enter_follows (k : Nat) (t : Token) (st : Scan) (here : ts[k]? = some t)
    (ready : Ready ts taken k st) (free : taken k = false) :
    ∃ waiting, Follows ts taken (k + 1) waiting { st.enter t with before := t :: (st.enter t).before } ∧
      waitingDeclaration ts taken waiting = declarationAt ts taken k := by
  by_cases keyword : t.kind = .keyword
  · exact enter_keyword ts taken k t st here ready keyword free
  · have dead := other_kind_dead ts taken k t here keyword
    refine ⟨none, ?_, (dead_declares ts taken k fun head => dead head.word).symm⟩
    cases kind : t.kind with
    | openBrace => exact enter_open_brace ts taken k t st here ready kind
    | closeBrace => exact enter_close_brace ts taken k t st here ready kind
    | keyword => exact absurd kind keyword
    | _ =>
        simp only [Scan.enter, kind]
        exact ready_inert ts taken k t st here ready (by simp [opensAt, closesAt, here, kind])
          (fun head => dead_awaits ts taken k head (dead head.word)) (dead_class ts taken k (dead "class")).2

end

end DocAudit.Php
