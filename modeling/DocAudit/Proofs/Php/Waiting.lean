import DocAudit.Proofs.Php.Resemblance
import DocAudit.Proofs.Php.Scanning

/-!
Where a scan stops waiting. The token that ends a wait brings the declaration of the keyword that
waited, so a second scan that waits with another docblock differs in that declaration alone.
-/

set_option autoImplicit false

namespace DocAudit.Php

/-! ### The end of a wait -/

section

variable (ts : List Token) (taken : Nat → Bool)

theorem settled_declares (k : Nat) (next : Option (Nat × Head)) (st : Scan)
    (follows : Follows ts taken (k + 1) next st)
    (settled : ∀ head j, j < k → awaitsName ts taken head j = true → ¬ Passed ts head.passes j (k + 1)) :
    waitingDeclaration ts taken next = declarationAt ts taken k := by
  match next with
  | some (j, head) =>
      by_cases last : j = k
      · rw [last]
        rfl
      · have early := follows.early
        exact absurd follows.passed (settled head j (by omega) follows.awaits)
  | none =>
      have silent : ∀ head, awaitsName ts taken head k = false := by
        intro head
        rw [Bool.eq_false_iff]
        intro awaits
        apply follows.settled head k (Nat.lt_succ_self k) awaits
        intro i t after before
        omega
      have unnamed : namesClassAt ts taken k = false := silent .ofClass
      exact (silent_declares ts taken k (silent .ofFunction) (by simp [classNameAt, unnamed])).symm

section

variable (fixed : ∀ n, taken n = isName ts taken n) (spelled : ∀ u ∈ ts, WellSpelled u)

include fixed spelled

-- A token that is not passed over ends the wait, and what waited declares then.
theorem stop_declares (k : Nat) (waiting : Option (Nat × Head)) (st : Scan) (t : Token)
    (follows : Follows ts taken k waiting st) (here : ts[k]? = some t) (stops : st.passes t = false) :
    (st.step t).2 = waitingDeclaration ts taken waiting ∧
      ∃ next, Follows ts taken (k + 1) next (st.step t).1 ∧
        waitingDeclaration ts taken next = declarationAt ts taken k := by
  have settled : ∀ head j, j < k → awaitsName ts taken head j = true → ¬ Passed ts head.passes j (k + 1) := by
    match waiting with
    | none => exact (idle_ready ts taken k st follows).settled
    | some (j, head) =>
        have halts : head.passes t = false := by
          rw [Scan.passes, follows.pending, Bool.or_eq_false_iff] at stops
          exact stops.2
        exact waits_settled ts taken k j head st t spelled follows here halts
  obtain ⟨next, after, declared⟩ := step_follows ts taken fixed spelled k waiting st t follows here
  have fresh := settled_declares ts taken k next _ after settled
  rw [fresh] at declared
  have same := congrArg List.head? (List.append_cancel_right declared)
  exact ⟨by simpa using same, next, after, fresh⟩

end

end

/-! ### Before and after a position -/

theorem declarations_append (st : Scan) (a b : List Token) :
    st.declarations (a ++ b) =
      st.declarations a ++ (a.foldl (fun st t => (st.step t).1) st).declarations b := by
  induction a generalizing st with
  | nil => rfl
  | cons t a ih =>
      rw [List.cons_append, Scan.declarations, Scan.declarations, ih, List.append_assoc]
      rfl

theorem filter_map_single {α β : Type} (f : α → Option β) (a : α) : [a].filterMap f = (f a).toList := by
  rw [List.filterMap_cons]
  cases f a <;> rfl

theorem range_at (k n : Nat) (le : k ≤ n) : List.range n = List.range k ++ List.range' k (n - k) := by
  have joined : List.range' 0 k ++ List.range' (0 + k) (n - k) = List.range' 0 (k + (n - k)) :=
    List.range'_append_1
  rw [Nat.zero_add, Nat.add_sub_cancel' le] at joined
  rw [List.range_eq_range', List.range_eq_range', joined]

theorem declared_before (ts : List Token) (spelled : ∀ u ∈ ts, WellSpelled u) (k : Nat) (le : k ≤ ts.length)
    (waiting : Option (Nat × Head)) (follows : Follows ts (takenAt ts) k waiting (scanAfter (ts.take k))) :
    declarations (ts.take k) ++ (waitingDeclaration ts (takenAt ts) waiting).toList =
      (List.range k).filterMap (declarationAt ts (takenAt ts)) := by
  have whole := declarations_by_position ts spelled
  have rest := run_declarations ts (takenAt ts) (taken_at_is_name ts) spelled (ts.length - k) k waiting _
    (by omega) follows
  have joined : declarations ts = declarations (ts.take k) ++ (scanAfter (ts.take k)).declarations (ts.drop k) := by
    conv_lhs => rw [← List.take_append_drop k ts]
    exact declarations_append {} (ts.take k) (ts.drop k)
  rw [joined, rest, range_at k ts.length le, List.filterMap_append, ← List.append_assoc] at whole
  exact List.append_cancel_right whole

/-! ### Two scans, one of which waits with another docblock -/

-- What a second scan declares where the first declares `ds`: what waited is answered with a docblock
-- of its own, and everything after it is judged alike.
def Answers (docs : Option Token → Option Token → Prop) (waited : Option Declaration)
    (ds es : List Declaration) : Prop :=
  ∃ answer rest others, Option.Rel (Declaration.Matches docs) waited answer ∧ ds = waited.toList ++ rest ∧
    es = answer.toList ++ others ∧ List.Forall₂ (Declaration.Matches SameVerdict) rest others

section

variable (H : List Token → List Token → Prop) (simulates : Simulates Eq H)
variable (docs : Option Token → Option Token → Prop) (st su : Scan) (matching : Scan.Matches docs st su)
variable (related : H st.before su.before)

include simulates matching related

theorem idle_answers (idle : st.pending = none) (us : List Token) :
    Answers docs none (st.declarations us) (su.declarations us) := by
  have alike : Scan.Matches SameVerdict st su := by
    rcases matches_pending docs st su matching with ⟨unset, also⟩ | ⟨p, q, set, -⟩
    · exact ⟨matching.frames, matching.body, matching.named, by rw [unset, also]; exact .none⟩
    · rw [idle] at set
      cases set
  have tokens : List.Forall₂ Eq us us := List.forall₂_eq_eq_eq ▸ rfl
  exact ⟨none, _, _, .none, rfl, rfl, declarations_match Eq H simulates us us tokens st su alike related⟩

theorem stop_answers (t : Token) (us : List Token) (stops : st.passes t = false) :
    Answers docs (st.step t).2 (st.declarations (t :: us)) (su.declarations (t :: us)) := by
  obtain ⟨answered, next⟩ := step_matches H simulates.inStep st su t t (alike_refl t) related docs matching stops
  have grown : H (st.step t).1.before (su.step t).1.before := by
    rw [before_step, before_step]
    exact simulates.grow t t st.before su.before rfl related
  have tokens : List.Forall₂ Eq us us := List.forall₂_eq_eq_eq ▸ rfl
  exact ⟨_, _, _, answered, rfl, rfl, declarations_match Eq H simulates us us tokens _ _ next grown⟩

end

section

variable (ts : List Token) (taken : Nat → Bool)
variable (fixed : ∀ n, taken n = isName ts taken n) (spelled : ∀ u ∈ ts, WellSpelled u)

include fixed spelled

theorem waiting_answers (H : List Token → List Token → Prop) (simulates : Simulates Eq H)
    (docs : Option Token → Option Token → Prop) (j : Nat) (head : Head) (n k : Nat) (st su : Scan)
    (total : k + n = ts.length) (waits : Waits ts taken k j head st) (matching : Scan.Matches docs st su)
    (related : H st.before su.before) :
    Answers docs (declarationAt ts taken j) (st.declarations (ts.drop k)) (su.declarations (ts.drop k)) := by
  induction n generalizing k st su with
  | zero =>
      have atEnd : k = ts.length := total
      subst atEnd
      have undeclared : declarationAt ts taken j = none := end_undeclared ts taken (some (j, head)) st waits
      rw [undeclared, List.drop_length]
      exact ⟨none, [], [], .none, rfl, rfl, .nil⟩
  | succ n ih =>
      have bound : k < ts.length := by omega
      have here : ts[k]? = some ts[k] := List.getElem?_eq_getElem bound
      rw [List.drop_eq_getElem_cons bound]
      by_cases passed : st.passes ts[k] = true
      · have also := matches_passes docs st su ts[k] ts[k] matching (alike_refl ts[k]) ▸ passed
        have passes : head.passes ts[k] = true := by
          rw [Scan.passes, waits.pending, Bool.or_eq_true] at passed
          rcases passed with trivia | passes
          · cases head <;> simp [Head.passes, trivia]
          · exact passes
        rw [Scan.declarations, Scan.declarations, step_passed st ts[k] passed, step_passed su ts[k] also]
        exact ih (k + 1) _ _ (by omega) (waits_pass ts taken k j head st ts[k] spelled waits here passes)
          ⟨matching.frames, matching.body, matching.named, matching.pending⟩
          (simulates.grow ts[k] ts[k] st.before su.before rfl related)
      · have stops : st.passes ts[k] = false := Bool.eq_false_iff.mpr passed
        have declared := (stop_declares ts taken fixed spelled k (some (j, head)) st ts[k] waits here stops).1
        have answers := stop_answers H simulates docs st su matching related ts[k] (ts.drop (k + 1)) stops
        rw [declared] at answers
        exact answers

-- A second scan of the same tokens, whose waiting keyword has another docblock.
theorem scan_answers (H : List Token → List Token → Prop) (simulates : Simulates Eq H)
    (docs : Option Token → Option Token → Prop) (k : Nat) (waiting : Option (Nat × Head)) (st su : Scan)
    (le : k ≤ ts.length) (follows : Follows ts taken k waiting st) (matching : Scan.Matches docs st su)
    (related : H st.before su.before) :
    Answers docs (waitingDeclaration ts taken waiting) (st.declarations (ts.drop k))
      (su.declarations (ts.drop k)) := by
  match waiting with
  | none => exact idle_answers H simulates docs st su matching related follows.pending (ts.drop k)
  | some (j, head) =>
      exact waiting_answers ts taken fixed spelled H simulates docs j head (ts.length - k) k st su (by omega)
        follows matching related

end

end DocAudit.Php
