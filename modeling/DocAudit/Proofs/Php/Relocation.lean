import DocAudit.Proofs.Php.Resemblance

/-!
A scan in another place: further down, behind other tokens, after other classes, and with or
without white space. The walks back see nothing of the place, so the scan declares the same, with
its lines and its classes counted from there.
-/

set_option autoImplicit false

namespace DocAudit.Php

structure Relocation where
  -- Added to every line.
  lines : Int := 0
  -- The named classes in front.
  classes : Nat := 0

def Token.relocate (r : Relocation) (t : Token) : Token := { t with line := t.line + r.lines }

def Scope.relocate (r : Relocation) (scope : Scope) : Scope :=
  { scope with ordinal := scope.ordinal.map (· + r.classes) }

def Pending.relocate (r : Relocation) (p : Pending) : Pending :=
  { p with line := p.line + r.lines, docblock := p.docblock.map (Token.relocate r) }

def Declaration.relocate (r : Relocation) (d : Declaration) : Declaration :=
  { d with
    line := d.line + r.lines
    docblock := d.docblock.map (Token.relocate r)
    charged := d.charged.map (· + r.classes) }

-- The same scan in its new place, with `v` behind it.
def Scan.relocate (r : Relocation) (v : List Token) (st : Scan) : Scan where
  before := v
  frames := st.frames.map (Option.map (Scope.relocate r))
  body := st.body.map (Scope.relocate r)
  pending := st.pending.map (Pending.relocate r)
  named := st.named + r.classes

-- Where no line is added tokens stay as they are, and without classes in front declarations do too.
@[simp] theorem token_stays (classes : Nat) : Token.relocate ⟨0, classes⟩ = id := by
  funext t
  simp [Token.relocate]

@[simp] theorem declaration_stays : Declaration.relocate {} = id := by
  funext d
  simp [Declaration.relocate]

theorem scan_stays (v : List Token) (st : Scan) : st.relocate {} v = { st with before := v } := by
  have scope : Scope.relocate {} = id := by
    funext scope
    simp [Scope.relocate]
  have pending : Pending.relocate {} = id := by
    funext p
    simp [Pending.relocate]
  simp [Scan.relocate, scope, pending]

/-! ### One token -/

-- What the walks back from one place and from the other find.
structure SameWalks (r : Relocation) (w v : List Token) : Prop where
  new : followsNew v = followsNew w
  docblock : ∀ line, docblock (line + r.lines) v = (docblock line w).map (Token.relocate r)
  use : (v.find? (!·.trivia)).any (·.lower == "use") = (w.find? (!·.trivia)).any (·.lower == "use")

theorem enclosing_relocated (r : Relocation) (v : List Token) (st : Scan) :
    (st.relocate r v).enclosing = st.enclosing.map (Scope.relocate r) := by
  rw [Scan.enclosing, Scan.enclosing, Scan.relocate]
  induction st.frames with
  | nil => rfl
  | cons frame frames ih =>
      cases frame with
      | none => exact ih
      | some scope => rfl

theorem declare_function_relocated (r : Relocation) (v : List Token) (st : Scan) (p : Pending) (name : String) :
    (st.relocate r v).declareFunction (p.relocate r) name =
      (st.declareFunction p name).map (Declaration.relocate r) := by
  rw [Scan.declareFunction, Scan.declareFunction, enclosing_relocated]
  cases st.enclosing <;> rfl

theorem declare_class_relocated (r : Relocation) (v : List Token) (st : Scan) (p : Pending) (name : String) :
    (st.relocate r v).declareClass (p.relocate r) name = (st.declareClass p name).relocate r := by
  have enclosing : (st.relocate r v).enclosing.map Scope.name = st.enclosing.map Scope.name := by
    rw [enclosing_relocated, Option.map_map]
    rfl
  rw [Scan.declareClass, Scan.declareClass, enclosing]
  rfl

section

variable (r : Relocation) (st : Scan) (v : List Token) (t : Token) (same : SameWalks r st.before v)

include same

theorem await_name_relocated (head : Head) :
    (st.relocate r v).awaitName head (t.relocate r) = (st.awaitName head t).relocate r v := by
  have documented : docblock (t.relocate r).line (st.relocate r v).before =
      (docblock t.line st.before).map (Token.relocate r) := same.docblock t.line
  rw [Scan.awaitName, Scan.awaitName, documented]
  rfl

theorem enter_relocated : (st.relocate r v).enter (t.relocate r) = (st.enter t).relocate r v := by
  have awaits := await_name_relocated r st v t same
  have new : followsNew (st.relocate r v).before = followsNew st.before := same.new
  have use : (st.relocate r v).afterUse = st.afterUse := same.use
  have inside : (st.relocate r v).enclosing.isSome = st.enclosing.isSome := by
    rw [enclosing_relocated, Option.isSome_map]
  have kind : (t.relocate r).kind = t.kind := rfl
  have lower : (t.relocate r).lower = t.lower := rfl
  rw [Scan.enter, Scan.enter, kind]
  cases t.kind with
  | closeBrace =>
      dsimp only [Scan.relocate]
      rw [List.map_tail]
  | keyword =>
      dsimp only
      rw [lower, new, use, inside, awaits, awaits]
      repeat' split
      all_goals rfl
  | _ => rfl

theorem read_relocated :
    (st.relocate r v).read (t.relocate r) =
      ((st.read t).1.relocate r v, (st.read t).2.map (Declaration.relocate r)) := by
  have entered := enter_relocated r st v t same
  have idle := enter_relocated r { st with pending := none } v t same
  have kind : (t.relocate r).kind = t.kind := rfl
  have text : (t.relocate r).text = t.text := rfl
  have waiting : (st.relocate r v).pending = st.pending.map (Pending.relocate r) := rfl
  rw [Scan.read, Scan.read, waiting]
  cases st.pending with
  | none =>
      dsimp only [Option.map_none]
      rw [entered]
  | some p =>
      have head : (p.relocate r).head = p.head := rfl
      have cleared : { st.relocate r v with pending := none } = Scan.relocate r v { st with pending := none } := rfl
      dsimp only [Option.map_some]
      rw [head, kind, text, cleared, idle, declare_function_relocated, declare_function_relocated,
        declare_class_relocated]
      repeat' split
      · rfl
      · rfl
      · rfl
      · rfl
      · dsimp only [Scan.relocate, Option.map_some, Option.map_none, Scope.relocate]
        rw [Nat.add_right_comm]
      · rfl

theorem step_relocated :
    (st.relocate r v).step (t.relocate r) =
      ((st.step t).1.relocate r (t.relocate r :: v), (st.step t).2.map (Declaration.relocate r)) := by
  have trivia : (t.relocate r).trivia = t.trivia := rfl
  rw [Scan.step, Scan.step, trivia, read_relocated r st v t same]
  cases t.trivia <;> rfl

end

/-! ### Histories in another place -/

-- White space that is no bracket.
structure Token.IsLayout (t : Token) : Prop where
  blank : t.kind = .whitespace
  closed : t.text ≠ "]"
  shut : ¬ t.opensGroup

-- The tokens of one place in the other: each is moved, white space may be left out, and what
-- was `a` is `b` there.
inductive Relocated (r : Relocation) (a b : List Token) : List Token → List Token → Prop where
  | front : Relocated r a b a b
  | token (t : Token) (w v : List Token) (rest : Relocated r a b w v) :
      Relocated r a b (t :: w) (t.relocate r :: v)
  | blank (t : Token) (w v : List Token) (layout : t.IsLayout) (rest : Relocated r a b w v) :
      Relocated r a b (t :: w) v

-- No walk back finds anything in these tokens.
structure DeadEnd (w : List Token) : Prop where
  group : ∀ depth, beforeGroup depth w = none
  new : followsNew w = false
  docblock : ∀ line, docblock line w = none
  use : (w.find? (!·.trivia)).any (·.lower == "use") = false

theorem dead_end_nil : DeadEnd [] := by
  refine ⟨fun depth => ?_, ?_, fun line => ?_, rfl⟩
  · rw [beforeGroup]
  · rw [followsNew]
  · rw [docblock]

theorem end_line_relocated (r : Relocation) (t : Token) (line : Int) :
    (t.relocate r).endLine = line + r.lines ↔ t.endLine = line := by
  simp only [Token.endLine, Token.relocate]
  omega

theorem layout_trivia (t : Token) (layout : t.IsLayout) : t.trivia = true := by
  rw [Token.trivia, layout.blank]
  rfl

section

variable (r : Relocation) (a b : List Token) (here : DeadEnd a) (there : DeadEnd b)

include here there

theorem before_group_relocated (w v : List Token) (related : Relocated r a b w v) (depth : Nat) :
    Option.Rel (Relocated r a b) (beforeGroup depth w) (beforeGroup depth v) := by
  induction related generalizing depth with
  | front =>
      rw [here.group, there.group]
      exact .none
  | token t w v rest ih =>
      exact before_group_cons_related _ t (t.relocate r) w v (fun _ _ => Iff.rfl) rest ih depth
  | blank t w v layout rest ih =>
      rw [before_group_plain depth t w layout.closed layout.shut]
      exact ih depth

theorem before_attribute_relocated (t : Token) (w v : List Token) (related : Relocated r a b w v) :
    Option.Rel (Relocated r a b) (beforeAttribute t w) (beforeAttribute (t.relocate r) v) := by
  have text : (t.relocate r).text = t.text := rfl
  rw [beforeAttribute, beforeAttribute, text]
  split
  · exact before_group_relocated r a b here there w v related 0
  · exact .none

-- The induction of every walk: on to the next token, or over a group to the tokens before it.
theorem relocated_induction (P : List Token → List Token → Prop) (front : P a b)
    (token : ∀ t w v, P w v → Option.Rel P (beforeAttribute t w) (beforeAttribute (t.relocate r) v) →
      P (t :: w) (t.relocate r :: v))
    (blank : ∀ t w v, t.IsLayout → P w v → P (t :: w) v) (w v : List Token) (related : Relocated r a b w v) :
    P w v := by
  induction size : w.length using Nat.strongRecOn generalizing w v with
  | _ n ih =>
      subst size
      cases related with
      | front => exact front
      | blank t w v layout rest => exact blank t w v layout (ih w.length (Nat.lt_succ_self _) w v rest rfl)
      | token t w v rest =>
          apply token t w v (ih w.length (Nat.lt_succ_self _) w v rest rfl)
          have jumps := before_attribute_relocated r a b here there t w v rest
          have shorter : ∀ earlier, beforeAttribute t w = some earlier → earlier.length < w.length :=
            fun _ found => length_beforeAttribute found
          generalize beforeAttribute t w = near, beforeAttribute (t.relocate r) v = far at jumps shorter ⊢
          cases jumps with
          | none => exact .none
          | some jump => exact .some (ih _ (Nat.lt_succ_of_lt (shorter _ rfl)) _ _ jump rfl)

theorem follows_new_relocated (w v : List Token) (related : Relocated r a b w v) : followsNew v = followsNew w := by
  apply relocated_induction r a b here there (fun w v => followsNew v = followsNew w) _ _ _ w v related
  · rw [here.new, there.new]
  · intro t w v rest group
    have passes : ((t.relocate r).trivia || (t.relocate r).isModifier) = (t.trivia || t.isModifier) := rfl
    rw [follows_new_cons, follows_new_cons, passes, rest]
    congr 1
    exact elim_related _ (fun near far => far = near) _ _ _ _ _ _ group rfl fun _ _ _ jump => jump
  · intro t w v layout rest
    rw [follows_new_cons, layout_trivia t layout, Bool.true_or, if_pos rfl]
    exact rest

theorem docblock_relocated (w v : List Token) (related : Relocated r a b w v) (line : Int) :
    docblock (line + r.lines) v = (docblock line w).map (Token.relocate r) := by
  apply relocated_induction r a b here there
    (fun w v => docblock (line + r.lines) v = (docblock line w).map (Token.relocate r)) _ _ _ w v related
  · rw [here.docblock, there.docblock]
    rfl
  · intro t w v rest group
    have kind : (t.relocate r).kind = t.kind := rfl
    have boundary : (t.relocate r).isBoundary = t.isBoundary := rfl
    have modifier : (t.relocate r).isModifier = t.isModifier := rfl
    rw [docblock_cons, docblock_cons, kind, boundary, modifier, rest]
    simp only [end_line_relocated]
    split
    · rfl
    split
    · split <;> rfl
    split
    · rfl
    split
    · rfl
    · apply elim_related _ (fun near far : Option Token => far = near.map (Token.relocate r)) _ _ _ _ _ _ group
      · split <;> rfl
      · exact fun _ _ _ jump => jump
  · intro t w v layout rest
    rw [docblock_cons, if_pos layout.blank]
    exact rest

theorem after_use_relocated (w v : List Token) (related : Relocated r a b w v) :
    (v.find? (!·.trivia)).any (·.lower == "use") = (w.find? (!·.trivia)).any (·.lower == "use") := by
  induction related with
  | front => rw [here.use, there.use]
  | token t w v rest ih =>
      have trivia : (t.relocate r).trivia = t.trivia := rfl
      rw [List.find?_cons, List.find?_cons, trivia]
      cases t.trivia with
      | true => exact ih
      | false => rfl
  | blank t w v layout rest ih =>
      rw [List.find?_cons, layout_trivia t layout]
      exact ih

theorem relocated_walks (w v : List Token) (related : Relocated r a b w v) : SameWalks r w v :=
  ⟨follows_new_relocated r a b here there w v related, docblock_relocated r a b here there w v related,
    after_use_relocated r a b here there w v related⟩

theorem declarations_relocated (ts us : List Token) (stream : Relocated r [] [] ts us) (st : Scan) (v : List Token)
    (related : Relocated r a b st.before v) :
    (st.relocate r v).declarations us = (st.declarations ts).map (Declaration.relocate r) := by
  induction stream generalizing st v with
  | front => rfl
  | token t ts us rest ih =>
      have same := relocated_walks r a b here there st.before v related
      have behind : Relocated r a b (st.step t).1.before (t.relocate r :: v) := by
        rw [before_step]
        exact .token t st.before v related
      rw [Scan.declarations, Scan.declarations, step_relocated r st v t same, List.map_append, ← ih _ _ behind]
      cases (st.step t).2 <;> rfl
  | blank t ts us layout rest ih =>
      have passed : st.passes t = true := by rw [Scan.passes, layout_trivia t layout, Bool.true_or]
      rw [Scan.declarations, step_passed st t passed]
      exact ih { st with before := t :: st.before } v (.blank t st.before v layout related)

end

theorem stream_relocated (r : Relocation) (ts : List Token) :
    Relocated r [] [] ts (ts.map (Token.relocate r)) := by
  induction ts with
  | nil => exact .front
  | cons t ts ih => exact .token t ts _ ih

end DocAudit.Php

/-! ### Outcomes -/

namespace DocAudit

open Php

def Finding.relocate (r : Relocation) (f : Finding) : Finding := { f with line := f.line + r.lines }

def ClassSummary.relocate (r : Relocation) (c : ClassSummary) : ClassSummary :=
  { c with line := c.line + r.lines }

@[simp] theorem finding_stays (classes : Nat) : Finding.relocate ⟨0, classes⟩ = id := by
  funext f
  simp [Finding.relocate]

@[simp] theorem summary_stays (classes : Nat) : ClassSummary.relocate ⟨0, classes⟩ = id := by
  funext c
  simp [ClassSummary.relocate]

section

variable (r : Relocation)

theorem missing_relocated (flags : SkipFlags) (ds : List Declaration) :
    missing flags (ds.map (Declaration.relocate r)) = (missing flags ds).map (Declaration.relocate r) := by
  have misses : flags.misses ∘ Declaration.relocate r = flags.misses := by
    funext d
    simp [SkipFlags.misses, Declaration.relocate]
  rw [missing, missing, List.filter_map, misses]

theorem findings_relocated (path : String) (ds : List Declaration) :
    (ds.map (Declaration.relocate r)).map (Finding.ofDeclaration path) =
      (ds.map (Finding.ofDeclaration path)).map (Finding.relocate r) := by
  rw [List.map_map, List.map_map]
  rfl

theorem classes_relocated (ds : List Declaration) :
    classDeclarations (ds.map (Declaration.relocate r)) = (classDeclarations ds).map (Declaration.relocate r) := by
  rw [classDeclarations, classDeclarations, List.filter_map]
  rfl

-- Nothing of the new place is charged to a class in front of it.
theorem charged_in_front (missed : List Declaration) (ordinal : Nat) (early : ordinal < r.classes) :
    (missed.map (Declaration.relocate r)).any (·.charged == some ordinal) = false := by
  rw [List.any_map, List.any_eq_false]
  intro d _ charged
  obtain ⟨n, -, moved⟩ := Option.map_eq_some_iff.mp (beq_iff_eq.mp charged)
  omega

theorem charged_relocated (missed : List Declaration) (ordinal : Nat) :
    (missed.map (Declaration.relocate r)).any (·.charged == some (ordinal + r.classes)) =
      missed.any (·.charged == some ordinal) := by
  rw [List.any_map]
  congr 1
  funext d
  cases charged : d.charged <;> simp [Declaration.relocate, charged]

-- The classes of two places, where the first has all the classes that the second counts in front.
theorem summaries_joined (ds es missed others : List Declaration) (count : (classDeclarations ds).length = r.classes)
    (bounded : ∀ d ∈ missed, ∀ n ∈ d.charged, n < r.classes) :
    summaries (ds ++ es.map (Declaration.relocate r)) (missed ++ others.map (Declaration.relocate r)) =
      summaries ds missed ++ (summaries es others).map (ClassSummary.relocate r) := by
  have late : ∀ ordinal, missed.any (·.charged == some (ordinal + r.classes)) = false := by
    intro ordinal
    rw [List.any_eq_false]
    intro d member charged
    have bound := bounded d member _ (beq_iff_eq.mp charged)
    omega
  rw [summaries, class_declarations_append, classes_relocated, List.zipIdx_append, List.map_append]
  congr 1
  · apply List.map_congr_left
    rintro ⟨d, ordinal⟩ member
    have early : ordinal < r.classes := count ▸ List.snd_lt_of_mem_zipIdx member
    dsimp only
    rw [List.any_append, charged_in_front r others ordinal early, Bool.or_false]
  · rw [count, Nat.zero_add, List.zipIdx_map, List.zipIdx_eq_map_add, List.map_map, List.map_map, summaries, List.map_map]
    apply List.map_congr_left
    rintro ⟨d, ordinal⟩ _
    dsimp only [Function.comp, Prod.map, id]
    rw [Nat.add_comm, List.any_append, late, Bool.false_or, charged_relocated]
    rfl

theorem scan_joined (flags : SkipFlags) (path : String) (ts : List Token) (ds es : List Declaration)
    (declared : declarations ts = ds ++ es.map (Declaration.relocate r))
    (count : (classDeclarations ds).length = r.classes)
    (bounded : ∀ d ∈ ds, ∀ n ∈ d.charged, n < r.classes) :
    scan flags ts path =
      ⟨(missing flags ds).map (Finding.ofDeclaration path) ++
          ((missing flags es).map (Finding.ofDeclaration path)).map (Finding.relocate r),
        summaries ds (missing flags ds) ++ (summaries es (missing flags es)).map (ClassSummary.relocate r)⟩ := by
  have missed : missing flags (declarations ts) =
      missing flags ds ++ (missing flags es).map (Declaration.relocate r) := by
    rw [declared, missing_append, missing_relocated]
  rw [scan_composed, missed, List.map_append, findings_relocated, declared, summaries_joined r ds es _ _ count]
  intro d member
  exact bounded d (List.mem_of_mem_filter member)

end

end DocAudit
