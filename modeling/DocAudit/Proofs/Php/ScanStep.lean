import DocAudit.Proofs.Php.ScanInvariant

/-!
One token of the scan. A keyword waits until a token that it does not pass over; then the scan
declares what the positions declare at that keyword.
-/

set_option autoImplicit false

namespace DocAudit.Php

section

variable (ts : List Token) (taken : Nat → Bool)

theorem awaits_keyword (head : Head) (j : Nat) (awaits : awaitsName ts taken head j = true) :
    ∃ u, ts[j]? = some u ∧ u.isKeyword head.word = true ∧ taken j = false := by
  have live : liveAt ts taken head.word j = true := by
    rw [← Bool.not_eq_false]
    intro dead
    rw [dead_awaits ts taken j head dead] at awaits
    cases awaits
  simp only [liveAt, wordAt, Bool.and_eq_true, Bool.not_eq_true'] at live
  obtain ⟨u, here, word⟩ := (Option.any_eq_true _ _).mp live.1
  exact ⟨u, here, word, live.2⟩

theorem awaits_one_head (head other : Head) (j : Nat) (awaits : awaitsName ts taken head j = true)
    (also : awaitsName ts taken other j = true) : head = other := by
  obtain ⟨u, here, word, -⟩ := awaits_keyword ts taken head j awaits
  obtain ⟨v, there, different, -⟩ := awaits_keyword ts taken other j also
  have same := Option.some.inj (here.symm.trans there)
  subst same
  simp only [Token.isKeyword, Bool.and_eq_true, beq_iff_eq] at word different
  have words : head.word = other.word := word.2.symm.trans different.2
  cases head <;> cases other <;> simp_all [Head.word]

theorem class_not_function (j : Nat) (awaits : awaitsName ts taken .ofClass j = true) :
    awaitsName ts taken .ofFunction j = false := by
  rw [Bool.eq_false_iff]
  intro also
  have heads := awaits_one_head ts taken .ofClass .ofFunction j awaits also
  cases heads

theorem passed_not_awaiting (head other : Head) (j : Nat) (t : Token) (here : ts[j]? = some t)
    (spelled : WellSpelled t) (passing : head.passes t = true) : awaitsName ts taken other j = false :=
  dead_awaits ts taken j other
    (inert_words ts taken j t here (passes_inert head t spelled passing) other)

theorem waits_next_token (k j : Nat) (head : Head) (st : Scan) (t : Token) (waits : Waits ts taken k j head st)
    (here : ts[k]? = some t) (stops : head.passes t = false) : nextToken ts head j = some t := by
  rw [nextToken, next_at_found ts head.passes j k t waits.early waits.passed here stops]
  exact here

section

variable (k j : Nat) (head : Head) (st : Scan) (t : Token)
variable (spelled : ∀ u ∈ ts, WellSpelled u) (waits : Waits ts taken k j head st) (here : ts[k]? = some t)

include spelled waits

theorem waits_between (i : Nat) (after : j < i) (before : i < k) :
    (opensAt ts i = false ∧ closesAt ts i = false) ∧ headAt ts taken i = none := by
  cases found : ts[i]? with
  | none =>
      have outside : wordAt ts "class" i = false := by simp [wordAt, found]
      refine ⟨by simp [opensAt, closesAt, found], (dead_class ts taken i ?_).2⟩
      simp [liveAt, outside]
  | some u =>
      have inert := passes_inert head u (spelled u (List.mem_of_getElem? found)) (waits.passed i u after before found)
      exact ⟨inert_braces ts i u found inert,
        (dead_class ts taken i (inert_words ts taken i u found inert .ofClass)).2⟩

theorem waits_still (i : Nat) (after : j ≤ i) (before : i < k) : opensAt ts i = false ∧ closesAt ts i = false := by
  by_cases first : i = j
  · subst first
    obtain ⟨u, found, word, -⟩ := awaits_keyword ts taken head i waits.awaits
    simp only [Token.isKeyword, Bool.and_eq_true, beq_iff_eq] at word
    exact keyword_still ts i u found word.1
  · exact (waits_between ts taken k j head st spelled waits i (by omega) before).1

theorem waits_enclosing : st.enclosing = enclosingAt ts taken j := by
  rw [tracks_enclosing ts taken k st waits.toTracks, enclosingAt, enclosingAt,
    braces_stretch ts j k (Nat.le_of_lt waits.early) (waits_still ts taken k j head st spelled waits)]

include here

-- No keyword waits past a token that the latest of them does not pass over.
theorem waits_settled (stops : head.passes t = false) (other : Head) (i : Nat) (early : i < k)
    (awaits : awaitsName ts taken other i = true) : ¬ Passed ts other.passes i (k + 1) := by
  intro passed
  obtain ⟨u, atJ, word, -⟩ := awaits_keyword ts taken head j waits.awaits
  have uSpelled := spelled u (List.mem_of_getElem? atJ)
  rcases Nat.lt_trichotomy i j with less | same | greater
  · have passing := passed j u less (Nat.lt_succ_of_lt waits.early) atJ
    have silent := passed_not_awaiting ts taken other head j u atJ uSpelled passing
    rw [waits.awaits] at silent
    cases silent
  · subst same
    have heads := awaits_one_head ts taken head other i waits.awaits awaits
    subst heads
    rw [passed k t waits.early (Nat.lt_succ_self k) here] at stops
    cases stops
  · obtain ⟨v, atI, -, -⟩ := awaits_keyword ts taken other i awaits
    have passing := waits.passed i v greater early atI
    have silent := passed_not_awaiting ts taken head other i v atI (spelled v (List.mem_of_getElem? atI)) passing
    rw [awaits] at silent
    cases silent

theorem waits_pass (passing : head.passes t = true) :
    Waits ts taken (k + 1) j head { st with before := t :: st.before } := by
  have inert := passes_inert head t (spelled t (List.mem_of_getElem? here)) passing
  refine ⟨⟨?_, ?_⟩, Nat.lt_succ_of_lt waits.early, waits.awaits,
    passed_succ ts head.passes j k t waits.passed here passing, waits.pending, waits.body, waits.named⟩
  · rw [before_at_succ ts k t here, ← waits.before]
  · rw [braces_step ts k (inert_braces ts k t here inert)]
    exact waits.frames

-- The keyword has no class of its own, and the token after it takes its usual effect.
theorem waits_ready (stops : head.passes t = false) (headless : headAt ts taken j = none) :
    Ready ts taken k { st with pending := none } := by
  have headlessAll : ∀ i, j ≤ i → i < k → headAt ts taken i = none := by
    intro i after before
    by_cases first : i = j
    · exact first ▸ headless
    · exact (waits_between ts taken k j head st spelled waits i (by omega) before).2
  have closed := fun i after before => (waits_still ts taken k j head st spelled waits i after before).1
  have le := Nat.le_of_lt waits.early
  refine ⟨⟨waits.before, waits.frames⟩, rfl, ?_, ?_, waits_settled ts taken k j head st t spelled waits here stops⟩
  · exact waits.body.trans (owner_stretch ts taken j k le closed headlessAll).symm
  · exact waits.named.trans (ordinal_stretch ts taken j k le headlessAll).symm

end

theorem label_still (k : Nat) (t : Token) (here : ts[k]? = some t) (label : t.kind.isLabel = true) :
    opensAt ts k = false ∧ closesAt ts k = false := by
  cases kind : t.kind <;> simp_all [opensAt, closesAt, TokenKind.isLabel]

theorem waits_taken (fixed : ∀ n, taken n = isName ts taken n) (k j : Nat) (head : Head) (st : Scan) (t : Token)
    (waits : Waits ts taken k j head st) (here : ts[k]? = some t) (label : t.kind.isLabel = true)
    (stops : head.passes t = false) : taken k = true := by
  have next := next_at_found ts head.passes j k t waits.early waits.passed here stops
  have awaits := waits.awaits
  rw [fixed, isName, here]
  simp only [Option.any_some, label, Bool.true_and, List.any_eq_true, List.mem_range]
  refine ⟨j, waits.early, ?_⟩
  cases head with
  | ofClass => simp [awaits, next]
  | ofFunction => simp [awaits, next]

-- A label that no keyword reaches is free.
theorem settled_free (fixed : ∀ n, taken n = isName ts taken n) (k : Nat)
    (settled : ∀ head j, j < k → awaitsName ts taken head j = true → ¬ Passed ts head.passes j k) :
    taken k = false := by
  rw [fixed, Bool.eq_false_iff]
  intro name
  simp only [isName, Bool.and_eq_true, List.any_eq_true, List.mem_range, Bool.or_eq_true, beq_iff_eq] at name
  obtain ⟨-, j, early, ⟨awaits, next⟩ | ⟨awaits, next⟩⟩ := name
  · exact settled .ofClass j early awaits (next_at_passed ts _ j k next)
  · exact settled .ofFunction j early awaits (next_at_passed ts _ j k next)

theorem idle_free (fixed : ∀ n, taken n = isName ts taken n) (k : Nat) (st : Scan) (idle : Idle ts taken k st) :
    taken k = false :=
  settled_free ts taken fixed k idle.settled

theorem function_headless (j : Nat) (awaits : awaitsName ts taken .ofFunction j = true) :
    headAt ts taken j = none := by
  obtain ⟨u, here, word, -⟩ := awaits_keyword ts taken .ofFunction j awaits
  simp only [Token.isKeyword, Head.word, Bool.and_eq_true, beq_iff_eq] at word
  refine (dead_class ts taken j ?_).2
  simp [liveAt, wordAt, here, Token.isKeyword, word.2]

theorem next_token_member (head : Head) (k : Nat) (t : Token) (next : nextToken ts head k = some t) : t ∈ ts := by
  rw [nextToken, Option.bind_eq_some_iff] at next
  obtain ⟨n, -, here⟩ := next
  exact List.mem_of_getElem? here

theorem class_name_member (k : Nat) (t : Token) (named : classNameAt ts taken k = some t) :
    awaitsName ts taken .ofClass k = true ∧ t ∈ ts := by
  rw [classNameAt] at named
  split at named
  · rename_i awaits
    exact ⟨awaits, next_token_member ts .ofClass k t (Option.filter_eq_some_iff.mp named).1⟩
  · cases named

theorem class_named (j : Nat) (t : Token) (awaits : awaitsName ts taken .ofClass j = true)
    (next : nextToken ts .ofClass j = some t) :
    classNameAt ts taken j = if t.kind.isLabel then some t else none := by
  have names : namesClassAt ts taken j = true := awaits
  cases label : t.kind.isLabel <;> simp [classNameAt, names, next, Option.filter, label]

theorem class_head (j : Nat) (awaits : awaitsName ts taken .ofClass j = true) :
    headAt ts taken j = (classNameAt ts taken j).map fun t => ⟨t.text, some (ordinalAt ts taken j)⟩ := by
  have names : namesClassAt ts taken j = true := awaits
  simp only [namesClassAt, Bool.and_eq_true, Bool.not_eq_true'] at names
  simp [headAt, names.2]

theorem declared_function (spelled : ∀ u ∈ ts, WellSpelled u) (k j : Nat) (st : Scan)
    (waits : Waits ts taken k j .ofFunction st) (name : String) :
    st.declareFunction ⟨.ofFunction, lineAt ts j, docblockAt ts j⟩ name =
      some (declaredAt ts taken j (if name = closureName then .closure else .method) name
        ((enclosingAt ts taken j).bind (·.ordinal))) := by
  have inside : (enclosingAt ts taken j).isSome = true := by
    have awaits := waits.awaits
    simp only [awaitsName, Bool.and_eq_true] at awaits
    exact awaits.2
  obtain ⟨owner, enclosing⟩ := Option.isSome_iff_exists.mp inside
  have same := waits_enclosing ts taken k j .ofFunction st spelled waits
  simp [Scan.declareFunction, same, declaredAt, enclosing]

theorem declared_class (spelled : ∀ u ∈ ts, WellSpelled u) (k j : Nat) (st : Scan)
    (waits : Waits ts taken k j .ofClass st) (name : String) :
    st.declareClass ⟨.ofClass, lineAt ts j, docblockAt ts j⟩ name =
      declaredAt ts taken j .classDecl name (some (ordinalAt ts taken j)) := by
  have same := waits_enclosing ts taken k j .ofClass st spelled waits
  simp [Scan.declareClass, same, declaredAt, waits.named]

theorem read_idle (fixed : ∀ n, taken n = isName ts taken n) (k : Nat) (st : Scan) (t : Token)
    (idle : Idle ts taken k st) (here : ts[k]? = some t) (significant : t.trivia = false) :
    ∃ next, Follows ts taken (k + 1) next (st.step t).1 ∧
      (st.step t).2.toList ++ (waitingDeclaration ts taken next).toList = (declarationAt ts taken k).toList := by
  have free := idle_free ts taken fixed k st idle
  obtain ⟨next, follows, declared⟩ := enter_follows ts taken k t st here (idle_ready ts taken k st idle) free
  simp only [Scan.step, significant, Scan.read, idle.pending, Bool.false_eq_true, if_false]
  exact ⟨next, follows, by simp [declared]⟩

theorem other_not_taken (fixed : ∀ n, taken n = isName ts taken n) (k : Nat) (t : Token)
    (here : ts[k]? = some t) (other : t.kind.isLabel = false) : taken k = false := by
  simp [fixed k, isName, here, other]

section

variable (fixed : ∀ n, taken n = isName ts taken n) (spelled : ∀ u ∈ ts, WellSpelled u)

include fixed spelled

theorem named_idle (k j : Nat) (head : Head) (st next : Scan) (t : Token) (waits : Waits ts taken k j head st)
    (here : ts[k]? = some t) (label : t.kind.isLabel = true) (stops : head.passes t = false)
    (before : next.before = t :: st.before) (frames : next.frames = st.frames) (pending : next.pending = none)
    (body : next.body = ownerAt ts taken (k + 1)) (named : next.named = ordinalAt ts taken (k + 1)) :
    Idle ts taken (k + 1) next := by
  have name := waits_taken ts taken fixed k j head st t waits here label stops
  refine ⟨⟨?_, ?_⟩, pending, body, named, ?_⟩
  · rw [before_at_succ ts k t here, before, waits.before]
  · rw [braces_step ts k (label_still ts k t here label), frames, waits.frames]
  · intro other i early awaits
    by_cases last : i = k
    · rw [last, dead_awaits ts taken k other (taken_dead ts taken k other.word name)] at awaits
      cases awaits
    · exact waits_settled ts taken k j head st t spelled waits here stops other i (by omega) awaits

theorem function_named (k j : Nat) (st : Scan) (t : Token) (waits : Waits ts taken k j .ofFunction st)
    (here : ts[k]? = some t) (label : t.kind.isLabel = true) (stops : Head.ofFunction.passes t = false) :
    Idle ts taken (k + 1) { st with pending := none, before := t :: st.before } := by
  have name := waits_taken ts taken fixed k j .ofFunction st t waits here label stops
  have ready := waits_ready ts taken k j .ofFunction st t spelled waits here stops
    (function_headless ts taken j waits.awaits)
  obtain ⟨nameless, headless⟩ := dead_class ts taken k (taken_dead ts taken k "class" name)
  refine named_idle ts taken fixed spelled k j .ofFunction st _ t waits here label stops rfl rfl rfl ?_ ?_
  · rw [owner_step ts taken k (label_still ts k t here label).1 headless]
    exact ready.body
  · rw [ordinal_step ts taken k nameless]
    exact ready.named

theorem class_named_idle (k j : Nat) (st : Scan) (t : Token) (waits : Waits ts taken k j .ofClass st)
    (here : ts[k]? = some t) (label : t.kind.isLabel = true) (stops : Head.ofClass.passes t = false) :
    Idle ts taken (k + 1)
      { st with pending := none, body := some ⟨t.text, some st.named⟩, named := st.named + 1,
                before := t :: st.before } := by
  have name := waits_taken ts taken fixed k j .ofClass st t waits here label stops
  have next := waits_next_token ts taken k j .ofClass st t waits here stops
  have className := class_named ts taken j t waits.awaits next
  rw [if_pos label] at className
  have head := class_head ts taken j waits.awaits
  rw [className, Option.map_some] at head
  have still := waits_still ts taken k j .ofClass st spelled waits
  have between := waits_between ts taken k j .ofClass st spelled waits
  obtain ⟨nameless, headless⟩ := dead_class ts taken k (taken_dead ts taken k "class" name)
  refine named_idle ts taken fixed spelled k j .ofClass st _ t waits here label stops rfl rfl rfl ?_ ?_
  · calc
      some (Scope.mk t.text (some st.named)) = ownerAt ts taken (j + 1) := by
        rw [owner_head ts taken j _ (still j (Nat.le_refl j) waits.early).1 head, waits.named]
      _ = ownerAt ts taken k :=
        (owner_stretch ts taken (j + 1) k waits.early
          (fun i after before => (still i (by omega) before).1)
          (fun i after before => (between i (by omega) before).2)).symm
      _ = ownerAt ts taken (k + 1) :=
        (owner_step ts taken k (label_still ts k t here label).1 headless).symm
  · calc
      st.named + 1 = ordinalAt ts taken (j + 1) := by
        simp [waits.named, ordinalAt, List.range_succ, className]
      _ = ordinalAt ts taken k :=
        (ordinal_stretch ts taken (j + 1) k waits.early
          (fun i after before => (between i (by omega) before).2)).symm
      _ = ordinalAt ts taken (k + 1) := (ordinal_step ts taken k nameless).symm

/-! ### One token -/

theorem read_function (k j : Nat) (st : Scan) (t : Token) (waits : Waits ts taken k j .ofFunction st)
    (here : ts[k]? = some t) (significant : t.trivia = false) :
    ∃ next, Follows ts taken (k + 1) next (st.step t).1 ∧
      (st.step t).2.toList ++ (waitingDeclaration ts taken next).toList =
        (declarationAt ts taken j).toList ++ (declarationAt ts taken k).toList := by
  have wellSpelled := spelled t (List.mem_of_getElem? here)
  simp only [Scan.step, significant, Scan.read, waits.pending, Bool.false_eq_true, if_false]
  by_cases ampersand : t.text = "&"
  · have passing : Head.ofFunction.passes t = true := by simp [Head.passes, ampersand]
    have dead := inert_words ts taken k t here (passes_inert .ofFunction t wellSpelled passing)
    refine ⟨some (j, .ofFunction), ?_, ?_⟩
    · simp only [ampersand, if_true]
      exact waits_pass ts taken k j .ofFunction st t spelled waits here passing
    · simp [ampersand, waitingDeclaration, dead_declares ts taken k dead]
  · have stops : Head.ofFunction.passes t = false := by simp [Head.passes, significant, ampersand]
    have next := waits_next_token ts taken k j .ofFunction st t waits here stops
    have declared : declarationAt ts taken j = functionAt ts taken j t := by
      simp [declarationAt, waits.awaits, next]
    by_cases label : t.kind.isLabel = true
    · have name := waits_taken ts taken fixed k j .ofFunction st t waits here label stops
      have undeclared := dead_declares ts taken k fun head => taken_dead ts taken k head.word name
      refine ⟨none, ?_, ?_⟩
      · simp only [ampersand, label, if_false, if_true]
        exact function_named ts taken fixed spelled k j st t waits here label stops
      · simp [ampersand, label, declared_function ts taken spelled k j st waits, declared, functionAt, undeclared,
          waitingDeclaration, wellSpelled.label label]
    · have other : t.kind.isLabel = false := Bool.eq_false_iff.mpr label
      have ready := waits_ready ts taken k j .ofFunction st t spelled waits here stops
        (function_headless ts taken j waits.awaits)
      have free := other_not_taken ts taken fixed k t here other
      obtain ⟨after, follows, entered⟩ := enter_follows ts taken k t _ here ready free
      by_cases closure : t.text = "("
      · refine ⟨after, ?_, ?_⟩
        · simp only [other, closure, Bool.false_eq_true, if_false, if_true]
          exact follows
        · simp [other, closure, declared_function ts taken spelled k j st waits, declared, functionAt, entered]
      · refine ⟨after, ?_, ?_⟩
        · simp only [ampersand, other, closure, Bool.false_eq_true, if_false]
          exact follows
        · simp [ampersand, other, closure, declared, functionAt, entered]

theorem read_class (k j : Nat) (st : Scan) (t : Token) (waits : Waits ts taken k j .ofClass st)
    (here : ts[k]? = some t) (significant : t.trivia = false) :
    ∃ next, Follows ts taken (k + 1) next (st.step t).1 ∧
      (st.step t).2.toList ++ (waitingDeclaration ts taken next).toList =
        (declarationAt ts taken j).toList ++ (declarationAt ts taken k).toList := by
  have stops : Head.ofClass.passes t = false := significant
  have next := waits_next_token ts taken k j .ofClass st t waits here stops
  have className := class_named ts taken j t waits.awaits next
  have silent := class_not_function ts taken j waits.awaits
  simp only [Scan.step, significant, Scan.read, waits.pending, Bool.false_eq_true, if_false]
  by_cases label : t.kind.isLabel = true
  · have name := waits_taken ts taken fixed k j .ofClass st t waits here label stops
    have undeclared := dead_declares ts taken k fun head => taken_dead ts taken k head.word name
    have declared : declarationAt ts taken j =
        some (declaredAt ts taken j .classDecl t.text (some (ordinalAt ts taken j))) := by
      simp [declarationAt, silent, className, label]
    refine ⟨none, ?_, ?_⟩
    · simp only [label, if_true]
      exact class_named_idle ts taken fixed spelled k j st t waits here label stops
    · simp [label, declared_class ts taken spelled k j st waits, declared, undeclared, waitingDeclaration]
  · have other : t.kind.isLabel = false := Bool.eq_false_iff.mpr label
    rw [other] at className
    have headless : headAt ts taken j = none := by
      rw [class_head ts taken j waits.awaits, className]
      rfl
    have ready := waits_ready ts taken k j .ofClass st t spelled waits here stops headless
    have free := other_not_taken ts taken fixed k t here other
    obtain ⟨after, follows, entered⟩ := enter_follows ts taken k t _ here ready free
    refine ⟨after, ?_, ?_⟩
    · simp only [other, Bool.false_eq_true, if_false]
      exact follows
    · simp [other, entered, silent_declares ts taken j silent className]

theorem step_follows (k : Nat) (waiting : Option (Nat × Head)) (st : Scan) (t : Token)
    (follows : Follows ts taken k waiting st) (here : ts[k]? = some t) :
    ∃ next, Follows ts taken (k + 1) next (st.step t).1 ∧
      (st.step t).2.toList ++ (waitingDeclaration ts taken next).toList =
        (waitingDeclaration ts taken waiting).toList ++ (declarationAt ts taken k).toList := by
  by_cases trivia : t.trivia = true
  · have inert := trivia_inert t trivia
    have dead := inert_words ts taken k t here inert
    have undeclared := dead_declares ts taken k dead
    refine ⟨waiting, ?_, by simp [Scan.step, trivia, undeclared]⟩
    simp only [Scan.step, trivia, if_true]
    cases waiting with
    | none =>
        exact ready_inert ts taken k t st here (idle_ready ts taken k st follows)
          (inert_braces ts k t here inert) (fun head => dead_awaits ts taken k head (dead head))
          (dead_class ts taken k (dead .ofClass)).2
    | some pending =>
        obtain ⟨j, head⟩ := pending
        have passing : head.passes t = true := by cases head <;> simp [Head.passes, trivia]
        exact waits_pass ts taken k j head st t spelled follows here passing
  · have significant : t.trivia = false := Bool.eq_false_iff.mpr trivia
    cases waiting with
    | none => exact read_idle ts taken fixed k st t follows here significant
    | some pending =>
        obtain ⟨j, head⟩ := pending
        cases head with
        | ofFunction => exact read_function ts taken fixed spelled k j st t follows here significant
        | ofClass => exact read_class ts taken fixed spelled k j st t follows here significant

end

end

end DocAudit.Php
