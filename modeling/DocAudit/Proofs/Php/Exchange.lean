import DocAudit.Proofs.Php.Relocation
import DocAudit.Proofs.Php.Waiting

/-!
Token streams that differ in one token between tags. The walks back see a token of no kind of its
own by the line it ends on and by the few texts they compare, so a scan goes the same way past any
other that agrees in these.
-/

set_option autoImplicit false

namespace DocAudit.Php

/-! ### Histories that differ in one token -/

-- What a walk back compares with the text of a token of any kind.
def walkMarks : List String := [";", "[", "]", "#["]

structure Exchangeable (a b : Token) : Prop where
  other : a.kind = .other ∧ b.kind = .other
  endLine : a.endLine = b.endLine
  mark : ∀ m ∈ walkMarks, a.text = m ↔ b.text = m

inductive Swapped (a b : Token) : List Token → List Token → Prop where
  | same (w : List Token) : Swapped a b w w
  | here (w : List Token) : Swapped a b (a :: w) (b :: w)
  | past (t : Token) (w v : List Token) (rest : Swapped a b w v) : Swapped a b (t :: w) (t :: v)

theorem other_not_trivia (t : Token) (other : t.kind = .other) : t.trivia = false := by
  rw [Token.trivia, other]
  rfl

structure NotWord (t : Token) : Prop where
  modifier : t.isModifier = false
  declaration : t.isDeclarationWord = false
  keyword : t.isKeyword "new" = false

theorem other_not_word (t : Token) (other : t.kind = .other) : NotWord t := by
  have unkeyed : (t.kind == .keyword) = false := by rw [other]; rfl
  constructor
  · rw [Token.isModifier, unkeyed, Bool.false_and]
  · rw [Token.isDeclarationWord, unkeyed, Bool.false_and]
  · rw [Token.isKeyword, unkeyed, Bool.false_and]

section

variable (a b : Token) (exchangeable : Exchangeable a b)

include exchangeable

theorem exchanged_attribute (w : List Token) : beforeAttribute a w = beforeAttribute b w := by
  simp only [beforeAttribute, exchangeable.mark "]" (by decide)]

theorem exchanged_group (depth : Nat) (w : List Token) :
    beforeGroup depth (a :: w) = beforeGroup depth (b :: w) := by
  simp only [beforeGroup, exchangeable.mark "]" (by decide), exchangeable.mark "[" (by decide),
    exchangeable.mark "#[" (by decide)]

theorem exchanged_follows_new (w : List Token) : followsNew (a :: w) = followsNew (b :: w) := by
  obtain ⟨here, there⟩ := exchangeable.other
  rw [follows_new_cons, follows_new_cons, exchanged_attribute a b exchangeable w, other_not_trivia a here,
    other_not_trivia b there, (other_not_word a here).modifier, (other_not_word b there).modifier,
    (other_not_word a here).keyword, (other_not_word b there).keyword]

theorem exchanged_docblock (line : Int) (w : List Token) : docblock line (a :: w) = docblock line (b :: w) := by
  obtain ⟨here, there⟩ := exchangeable.other
  have semicolon : (a.text == ";") = (b.text == ";") := by
    rw [Bool.eq_iff_iff, beq_iff_eq, beq_iff_eq]
    exact exchangeable.mark ";" (by decide)
  have ends : a.isBoundary = b.isBoundary := by
    rw [Token.isBoundary, Token.isBoundary, semicolon, here, there, (other_not_word a here).declaration,
      (other_not_word b there).declaration]
  rw [docblock_cons, docblock_cons, exchanged_attribute a b exchangeable w, exchangeable.endLine, ends, here, there,
    (other_not_word a here).modifier, (other_not_word b there).modifier]
  rfl

theorem swapped_group (w v : List Token) (swapped : Swapped a b w v) (depth : Nat) :
    Option.Rel (Swapped a b) (beforeGroup depth w) (beforeGroup depth v) := by
  have same : ∀ o : Option (List Token), Option.Rel (Swapped a b) o o := by
    intro o
    cases o with
    | none => exact .none
    | some w => exact .some (.same w)
  induction swapped generalizing depth with
  | same w => exact same _
  | here w => exact exchanged_group a b exchangeable depth w ▸ same _
  | past t w v rest ih => exact before_group_cons_in_step (Swapped a b) t t w v (alike_refl t) rest ih depth

theorem swapped_jump {α : Type} (f : List Token → α) (o : α) (t : Token) (w v : List Token)
    (rest : Swapped a b w v)
    (shorter : ∀ earlier later, earlier.length < w.length → Swapped a b earlier later → f earlier = f later) :
    (beforeAttribute t w).elim o f = (beforeAttribute t v).elim o f := by
  have group := before_attribute_in_step (Swapped a b) t t w v (alike_refl t)
    (swapped_group a b exchangeable w v rest 0)
  apply elim_related (Swapped a b) Eq _ _ _ _ _ _ group rfl
  intro earlier later found jump
  exact shorter earlier later (length_beforeAttribute found) jump

theorem swapped_follows_new (w v : List Token) (swapped : Swapped a b w v) : followsNew w = followsNew v := by
  induction size : w.length using Nat.strongRecOn generalizing w v with
  | _ n ih =>
      subst size
      cases swapped with
      | same => rfl
      | here w => exact exchanged_follows_new a b exchangeable w
      | past t w v rest =>
          have jumps := fun o => swapped_jump a b exchangeable followsNew o t w v rest
            (fun earlier later less jump => ih earlier.length (Nat.lt_succ_of_lt less) earlier later jump rfl)
          rw [follows_new_cons, follows_new_cons, ih w.length (Nat.lt_succ_self _) w v rest rfl, jumps]

theorem swapped_docblock (line : Int) (w v : List Token) (swapped : Swapped a b w v) :
    docblock line w = docblock line v := by
  induction size : w.length using Nat.strongRecOn generalizing w v with
  | _ n ih =>
      subst size
      cases swapped with
      | same => rfl
      | here w => exact exchanged_docblock a b exchangeable line w
      | past t w v rest =>
          have jumps := fun o => swapped_jump a b exchangeable (docblock line) o t w v rest
            (fun earlier later less jump => ih earlier.length (Nat.lt_succ_of_lt less) earlier later jump rfl)
          rw [docblock_cons, docblock_cons, ih w.length (Nat.lt_succ_self _) w v rest rfl, jumps]

/-! ### Scans of them -/

-- The same scan with other tokens behind it.
def Scan.behind (st : Scan) (v : List Token) : Scan := { st with before := v }

theorem swapped_walks (w v : List Token) (swapped : Swapped a b w v)
    (significant : w.find? (!·.trivia) = v.find? (!·.trivia)) : SameWalks {} w v := by
  refine ⟨(swapped_follows_new a b exchangeable w v swapped).symm, fun line => ?_, by rw [significant]⟩
  rw [token_stays, Option.map_id_fun, Int.add_zero]
  exact (swapped_docblock a b exchangeable line w v swapped).symm

theorem swapped_step (st : Scan) (v : List Token) (t : Token) (swapped : Swapped a b st.before v)
    (significant : st.before.find? (!·.trivia) = v.find? (!·.trivia)) :
    (st.behind v).step t = ((st.step t).1.behind (t :: v), (st.step t).2) := by
  have step := step_relocated {} st v t (swapped_walks a b exchangeable st.before v swapped significant)
  rw [scan_stays, scan_stays, token_stays, declaration_stays, Option.map_id_fun] at step
  exact step

theorem swapped_declarations (ts : List Token) (st : Scan) (v : List Token) (swapped : Swapped a b st.before v)
    (significant : st.before.find? (!·.trivia) = v.find? (!·.trivia)) :
    (st.behind v).declarations ts = st.declarations ts := by
  induction ts generalizing st v with
  | nil => rfl
  | cons t ts ih =>
      rw [Scan.declarations, Scan.declarations, swapped_step a b exchangeable st v t swapped significant]
      dsimp only
      rw [ih]
      · rw [before_step]
        exact .past t _ _ swapped
      · rw [before_step, List.find?_cons, List.find?_cons, significant]

end

theorem enter_other (st : Scan) (t : Token) (other : t.kind = .other) : st.enter t = st := by
  rw [Scan.enter, other]

-- No keyword waits past a tag.
theorem tag_read_idle (st : Scan) (t : Token) (other : t.kind = .other) (plain : t.text ≠ "&") :
    (st.read t).1.pending = none := by
  have unlabelled : ¬ t.kind.isLabel = true := by rw [other]; decide
  rw [Scan.read]
  cases pending : st.pending with
  | none => exact (congrArg Scan.pending (enter_other st t other)).trans pending
  | some p =>
      dsimp only
      rw [enter_other _ t other]
      cases p.head with
      | ofClass =>
          dsimp only
          rw [if_neg unlabelled]
      | ofFunction =>
          dsimp only
          rw [if_neg plain, if_neg unlabelled]
          split <;> rfl

theorem tag_step_idle (st : Scan) (t : Token) (other : t.kind = .other) (plain : t.text ≠ "&") :
    (st.step t).1.pending = none := by
  rw [Scan.step, other_not_trivia t other]
  exact tag_read_idle st t other plain

theorem idle_step (st : Scan) (t : Token) (idle : st.pending = none) (other : t.kind = .other) :
    st.step t = (st.behind (t :: st.before), none) := by
  have read : st.read t = (st, none) := by
    rw [Scan.read, idle]
    exact congrArg (·, none) (enter_other st t other)
  rw [Scan.step, other_not_trivia t other]
  dsimp only
  rw [if_neg Bool.false_ne_true, read]
  rfl

-- A chunk of markup stands between tags, where no keyword waits and none begins.
theorem exchanged_declarations (a b : Token) (exchangeable : Exchangeable a b) (st : Scan)
    (idle : st.pending = none) (post : List Token) (tagged : ∀ t ∈ post.head?, t.kind = .other) :
    st.declarations (a :: post) = st.declarations (b :: post) := by
  obtain ⟨here, there⟩ := exchangeable.other
  rw [Scan.declarations, Scan.declarations, idle_step st a idle here, idle_step st b idle there]
  cases post with
  | nil => rfl
  | cons t post =>
      have other := tagged t rfl
      have tag : ∀ u : Token, (st.behind (u :: st.before)).step t = (st.behind (t :: u :: st.before), none) :=
        fun u => idle_step (st.behind (u :: st.before)) t idle other
      rw [Scan.declarations, Scan.declarations, tag a, tag b]
      have found : ∀ w : List Token, (t :: w).find? (!·.trivia) = some t := by
        intro w
        rw [List.find?_cons, other_not_trivia t other]
        rfl
      exact (swapped_declarations a b exchangeable post (st.behind (t :: a :: st.before)) (t :: b :: st.before)
        (.past t _ _ (.here st.before)) ((found _).trans (found _).symm)).symm

theorem exchanged_scan (pre post : List Token) (a b : Token) (exchangeable : Exchangeable a b)
    (opened : ∀ t ∈ pre.getLast?, t.kind = .other ∧ t.text ≠ "&")
    (tagged : ∀ t ∈ post.head?, t.kind = .other) :
    declarations (pre ++ a :: post) = declarations (pre ++ b :: post) := by
  rw [declarations, declarations, declarations_append, declarations_append]
  congr 1
  apply exchanged_declarations a b exchangeable _ _ post tagged
  rcases List.eq_nil_or_concat pre with rfl | ⟨earlier, t, rfl⟩
  · rfl
  · obtain ⟨other, plain⟩ := opened t (by simp)
    rw [List.concat_eq_append, List.foldl_append]
    exact tag_step_idle _ t other plain

end DocAudit.Php
