import DocAudit.Pass
import Mathlib.Data.List.Basic

/-!
The pass against the declarations. At every token the pass stands where the scan for declarations
stands, and its findings and counters are those of what is missing so far. At the end it has noted of the
missing declarations, and summed up the classes by what is charged to them.
-/

set_option autoImplicit false

namespace DocAudit

open Php

/-! ### Classes by number -/

section

variable (scopes : List ClassScope)

def namedScopes : List ClassScope := scopes.filter (!·.anonymous)

-- The number of named classes in front of the class numbered `n`.
def ordinalOf (n : Nat) : Nat := (namedScopes (scopes.take n)).length

def scopeOf (n : Nat) : Option Scope :=
  scopes[n]?.map fun s => ⟨s.name, if s.anonymous then none else some (ordinalOf scopes n)⟩

theorem scope_of_begun (s : ClassScope) (n : Nat) (early : n < scopes.length) :
    scopeOf (scopes ++ [s]) n = scopeOf scopes n := by
  rw [scopeOf, scopeOf, ordinalOf, ordinalOf, List.getElem?_append_left early,
    List.take_append_of_le_length (Nat.le_of_lt early)]

theorem scope_of_new (s : ClassScope) :
    scopeOf (scopes ++ [s]) scopes.length =
      some ⟨s.name, if s.anonymous then none else some (namedScopes scopes).length⟩ := by
  rw [scopeOf, ordinalOf, List.take_left, List.getElem?_concat_length, Option.map_some]

theorem scope_of_inside (n : Nat) (inside : n < scopes.length) : (scopeOf scopes n).isSome = true := by
  rw [scopeOf, Option.isSome_map, List.getElem?_eq_getElem inside, Option.isSome_some]

-- A charge to an anonymous class counts for no summary.
theorem named_scopes_charged (n : Nat) (s : ClassScope) (here : scopes[n]? = some s) :
    namedScopes (scopes.modify n ClassScope.charge) =
      if s.anonymous then namedScopes scopes
      else (namedScopes scopes).modify (ordinalOf scopes n) ClassScope.charge := by
  induction scopes generalizing n with
  | nil => cases here
  | cons first scopes ih =>
      cases n with
      | zero =>
          have same : first = s := Option.some.inj here
          subst same
          cases anonymous : first.anonymous <;>
            simp [namedScopes, ordinalOf, ClassScope.charge, anonymous]
      | succ n =>
          have rest := ih n here
          simp only [namedScopes, ordinalOf] at rest ⊢
          cases anonymous : first.anonymous <;> cases own : s.anonymous <;>
            simp_all

theorem ordinal_charged (k n : Nat) : ordinalOf (scopes.modify k ClassScope.charge) n = ordinalOf scopes n := by
  induction scopes generalizing k n with
  | nil => simp
  | cons first scopes ih =>
      cases n with
      | zero => rfl
      | succ n =>
          cases k with
          | zero =>
              cases anonymous : first.anonymous <;>
                simp [namedScopes, ordinalOf, ClassScope.charge, anonymous]
          | succ k =>
              have rest := ih k n
              simp only [namedScopes, ordinalOf] at rest ⊢
              cases anonymous : first.anonymous <;> simp_all

theorem scope_of_charged (k : Nat) : scopeOf (scopes.modify k ClassScope.charge) = scopeOf scopes := by
  funext n
  rw [scopeOf, scopeOf, ordinal_charged, List.getElem?_modify]
  cases scopes[n]? with
  | none => rfl
  | some s => by_cases same : k = n <;> simp [same, ClassScope.charge]

theorem named_charged (k : Nat) :
    (namedScopes (scopes.modify k ClassScope.charge)).length = (namedScopes scopes).length := by
  have ordinals := ordinal_charged scopes k scopes.length
  rwa [ordinalOf, ordinalOf, List.take_length, List.take_of_length_le (by simp)] at ordinals

theorem ordinal_inside (n : Nat) (s : ClassScope) (here : scopes[n]? = some s) (named : s.anonymous = false) :
    ordinalOf scopes n < (namedScopes scopes).length := by
  obtain ⟨inside, same⟩ := List.getElem?_eq_some_iff.mp here
  have split := congrArg namedScopes (List.take_append_drop n scopes)
  rw [List.drop_eq_getElem_cons inside, same, namedScopes, List.filter_append,
    List.filter_cons_of_pos (by simp [named])] at split
  rw [ordinalOf, ← split, List.length_append, List.length_cons, namedScopes]
  omega

end

/-! ### The pass as a scan -/

def Pass.view (p : Pass) : Scan where
  before := p.history
  frames := p.frames.map (·.bind (scopeOf p.scopes))
  body := p.body.bind (scopeOf p.scopes)
  pending := p.pending
  named := (namedScopes p.scopes).length

structure Pass.Sound (p : Pass) : Prop where
  frames : ∀ n, some n ∈ p.frames → n < p.scopes.length
  body : ∀ n, p.body = some n → n < p.scopes.length
  previous : p.previous = p.history.find? (!·.trivia)

theorem innermost_frame (scopes : List ClassScope) (frames : List (Option Nat))
    (inside : ∀ n, some n ∈ frames → n < scopes.length) :
    (frames.map (·.bind (scopeOf scopes))).findSome? id = (frames.findSome? id).bind (scopeOf scopes) := by
  induction frames with
  | nil => rfl
  | cons frame frames ih =>
      have rest := ih fun n member => inside n (List.mem_cons_of_mem _ member)
      cases frame with
      | none => simpa using rest
      | some n =>
          have named := scope_of_inside scopes n (inside n List.mem_cons_self)
          obtain ⟨owner, found⟩ := Option.isSome_iff_exists.mp named
          simp [found]

section

variable (p : Pass) (sound : p.Sound)

include sound

theorem view_enclosing : p.view.enclosing = p.innermost.bind (scopeOf p.scopes) :=
  innermost_frame p.scopes p.frames sound.frames

theorem innermost_inside (n : Nat) (found : p.innermost = some n) : n < p.scopes.length := by
  obtain ⟨frame, member, own⟩ := List.exists_of_findSome?_eq_some found
  exact sound.frames n (own ▸ member)

theorem view_enclosing_some : p.view.enclosing.isSome = p.innermost.isSome := by
  rw [view_enclosing p sound]
  cases found : p.innermost with
  | none => rfl
  | some n => exact scope_of_inside p.scopes n (innermost_inside p sound n found)

theorem view_enclosing_name : p.view.enclosing.map (·.name) = p.enclosing.map (·.name) := by
  rw [view_enclosing p sound, Pass.enclosing]
  cases p.innermost with
  | none => rfl
  | some n =>
      rw [Option.bind_some, Option.bind_some, scopeOf, Option.map_map]
      rfl

theorem view_after_use : p.view.afterUse = p.afterUse := by
  rw [Scan.afterUse, Pass.afterUse, sound.previous]
  rfl

theorem view_begin (s : ClassScope) :
    (p.begin s).view =
      { p.view with
        body := some ⟨s.name, if s.anonymous then none else some p.view.named⟩
        named := p.view.named + if s.anonymous then 0 else 1 } := by
  have frames : p.frames.map (·.bind (scopeOf (p.scopes ++ [s]))) = p.frames.map (·.bind (scopeOf p.scopes)) := by
    apply List.map_congr_left
    intro frame member
    cases frame with
    | none => rfl
    | some n => exact scope_of_begun p.scopes s n (sound.frames n member)
  simp only [Pass.view, Pass.begin, frames, Option.bind_some, scope_of_new]
  cases anonymous : s.anonymous <;> simp [namedScopes, anonymous]

theorem sound_begin (s : ClassScope) : (p.begin s).Sound := by
  refine ⟨?_, ?_, sound.previous⟩
  · intro n member
    have := sound.frames n member
    simp only [Pass.begin, List.length_append, List.length_singleton]
    omega
  · intro n begun
    cases Option.some.inj begun
    simp [Pass.begin]

end

section

variable (flags : SkipFlags) (docblock : Option Token) (f : Finding) (owner : Nat) (p : Pass)

theorem view_evaluate : (p.evaluate flags docblock f owner).view = p.view := by
  rw [Pass.evaluate]
  split
  · rfl
  · simp only [Pass.view, named_charged, scope_of_charged]

theorem sound_evaluate (sound : p.Sound) : (p.evaluate flags docblock f owner).Sound := by
  rw [Pass.evaluate]
  split
  · exact sound
  · refine ⟨?_, ?_, sound.previous⟩
    · intro n member
      rw [List.length_modify]
      exact sound.frames n member
    · intro n begun
      rw [List.length_modify]
      exact sound.body n begun

end

theorem view_enter (p : Pass) (sound : p.Sound) (t : Token) : (p.enter t).view = p.view.enter t := by
  cases kind : t.kind with
  | openBrace =>
      simp only [Pass.enter, Scan.enter, kind]
      rfl
  | closeBrace =>
      simp only [Pass.enter, Scan.enter, kind, Pass.view, List.map_tail]
  | keyword =>
      simp only [Pass.enter, Scan.enter, kind, view_after_use p sound, view_enclosing_some p sound]
      by_cases isClass : t.lower = "class"
      · rw [if_pos isClass, if_pos isClass]
        by_cases anonymous : followsNew p.history = true
        · rw [if_pos anonymous, if_pos (show followsNew p.view.before = true from anonymous), view_begin p sound]
          rfl
        · rw [if_neg anonymous, if_neg (show ¬ followsNew p.view.before = true from anonymous)]
          rfl
      · rw [if_neg isClass, if_neg isClass]
        split
        · rfl
        · rfl
  | _ => simp only [Pass.enter, Scan.enter, kind]

theorem sound_enter (p : Pass) (sound : p.Sound) (t : Token) : (p.enter t).Sound := by
  cases kind : t.kind with
  | openBrace =>
      simp only [Pass.enter, kind]
      refine ⟨?_, ?_, sound.previous⟩
      · intro n member
        rcases List.mem_cons.mp member with own | outer
        · exact sound.body n own.symm
        · exact sound.frames n outer
      · intro n begun
        cases begun
  | closeBrace =>
      simp only [Pass.enter, kind]
      exact ⟨fun n member => sound.frames n (List.mem_of_mem_tail member), sound.body, sound.previous⟩
  | keyword =>
      simp only [Pass.enter, kind]
      by_cases isClass : t.lower = "class"
      · rw [if_pos isClass]
        by_cases anonymous : followsNew p.history = true
        · rw [if_pos anonymous]
          exact sound_begin p sound _
        · rw [if_neg anonymous]
          exact ⟨sound.frames, sound.body, sound.previous⟩
      · rw [if_neg isClass]
        split
        · exact ⟨sound.frames, sound.body, sound.previous⟩
        · exact sound
  | _ =>
      simp only [Pass.enter, kind]
      exact sound

section

variable (flags : SkipFlags) (path : String) (p : Pass) (sound : p.Sound)

include sound

theorem view_declare_class (w : Pending) (name : String) :
    (p.declareClass flags path w name).view =
      { p.view with body := some ⟨name, some p.view.named⟩, named := p.view.named + 1 } := by
  rw [Pass.declareClass, view_evaluate, view_begin p sound]
  rfl

theorem sound_declare_class (w : Pending) (name : String) : (p.declareClass flags path w name).Sound :=
  sound_evaluate flags _ _ _ _ (sound_begin p sound _)

omit sound in
theorem view_declare_function (w : Pending) (name : String) :
    (p.declareFunction flags path w name).view = p.view := by
  rw [Pass.declareFunction]
  split
  · rfl
  · rw [view_evaluate]

theorem sound_declare_function (w : Pending) (name : String) : (p.declareFunction flags path w name).Sound := by
  rw [Pass.declareFunction]
  split
  · exact sound
  · exact sound_evaluate flags _ _ _ _ sound

theorem read_refines (t : Token) :
    (p.read flags path t).Sound ∧ (p.read flags path t).view = (p.view.read t).1 := by
  cases waiting : p.pending with
  | none =>
      have idle : p.view.pending = none := waiting
      simp only [Pass.read, Scan.read, waiting, idle]
      exact ⟨sound_enter p sound t, view_enter p sound t⟩
  | some w =>
      have waits : p.view.pending = some w := waiting
      have idle : Pass.Sound { p with pending := none } := ⟨sound.frames, sound.body, sound.previous⟩
      cases head : w.head with
      | ofFunction =>
          simp only [Pass.read, Scan.read, waiting, waits, head]
          by_cases reference : t.text = "&"
          · simp only [if_pos reference]
            exact ⟨sound, trivial⟩
          · simp only [if_neg reference]
            by_cases label : t.kind.isLabel = true
            · simp only [if_pos label]
              exact ⟨sound_declare_function flags path _ idle w t.text,
                view_declare_function flags path _ w t.text⟩
            · simp only [if_neg label]
              by_cases closure : t.text = "("
              · simp only [if_pos closure]
                have declared := sound_declare_function flags path _ idle w closureName
                refine ⟨sound_enter _ declared t, ?_⟩
                rw [view_enter _ declared t, view_declare_function]
                rfl
              · simp only [if_neg closure]
                exact ⟨sound_enter _ idle t, view_enter _ idle t⟩
      | ofClass =>
          simp only [Pass.read, Scan.read, waiting, waits, head]
          by_cases label : t.kind.isLabel = true
          · simp only [if_pos label]
            exact ⟨sound_declare_class flags path _ idle w t.text, view_declare_class flags path _ idle w t.text⟩
          · simp only [if_neg label]
            exact ⟨sound_enter _ idle t, view_enter _ idle t⟩

end

/-! ### What the pass has noted of -/

-- The named classes with what is charged to each of them.
def scored (cs missed : List Declaration) : List ClassScope :=
  cs.zipIdx.map fun (d, ordinal) => ⟨d.name, d.line, false, missed.countP (·.charged == some ordinal)⟩

theorem summaries_scored (ds missed : List Declaration) :
    (scored (classDeclarations ds) missed).map (·.summary) = summaries ds missed := by
  rw [scored, summaries, List.map_map]
  apply List.map_congr_left
  intro entry _
  simp only [Function.comp, ClassScope.summary, ClassSummary.mk.injEq, true_and]
  rw [Bool.eq_iff_iff, beq_iff_eq, List.countP_eq_zero, Bool.not_eq_true', List.any_eq_false]

-- What a pass has written down of the named classes so far and of the declarations that lack a docblock.
structure Recorded (path : String) (p : Pass) (cs missed : List Declaration) : Prop where
  findings : p.findings = missed.map (Finding.ofDeclaration path)
  scopes : namedScopes p.scopes = scored cs missed
  charged : ∀ d ∈ missed, ∀ ordinal, d.charged = some ordinal → ordinal < cs.length

section

variable (path : String) (cs missed : List Declaration)

theorem scored_class (d : Declaration)
    (charged : ∀ m ∈ missed, ∀ ordinal, m.charged = some ordinal → ordinal < cs.length) :
    scored (cs ++ [d]) missed = scored cs missed ++ [⟨d.name, d.line, false, 0⟩] := by
  have fresh : missed.countP (·.charged == some cs.length) = 0 := by
    rw [List.countP_eq_zero]
    intro m member own
    exact Nat.lt_irrefl _ (charged m member cs.length (beq_iff_eq.mp own))
  rw [scored, scored, List.zipIdx_append, List.map_append]
  simp [fresh]

theorem scored_charge (d : Declaration) (ordinal : Nat) (charged : d.charged = some ordinal) :
    scored cs (missed ++ [d]) = (scored cs missed).modify ordinal ClassScope.charge := by
  apply List.ext_getElem?
  intro k
  rw [List.getElem?_modify, scored, scored, List.getElem?_map, List.getElem?_map, List.getElem?_zipIdx]
  cases cs[k]? with
  | none => rfl
  | some c =>
      by_cases own : ordinal = k
      · subst own
        simp [List.countP_append, charged, ClassScope.charge]
      · simp [List.countP_append, charged, own]

theorem scored_unnamed (d : Declaration) (anonymous : d.charged = none) :
    scored cs (missed ++ [d]) = scored cs missed := by
  simp [scored, List.countP_append, anonymous]

variable (p : Pass) (recorded : Recorded path p cs missed)

include recorded

theorem begin_named_recorded (d : Declaration) (s : ClassScope) (fresh : s = ⟨d.name, d.line, false, 0⟩) :
    Recorded path (p.begin s) (cs ++ [d]) missed := by
  refine ⟨recorded.findings, ?_, ?_⟩
  · rw [scored_class cs missed d recorded.charged, ← recorded.scopes, ← fresh]
    simp [Pass.begin, namedScopes, List.filter_append, fresh]
  · intro m member ordinal charged
    rw [List.length_append]
    exact Nat.lt_add_right _ (recorded.charged m member ordinal charged)

theorem begin_anonymous_recorded (s : ClassScope) (anonymous : s.anonymous = true) :
    Recorded path (p.begin s) cs missed := by
  refine ⟨recorded.findings, ?_, recorded.charged⟩
  rw [← recorded.scopes]
  simp [Pass.begin, namedScopes, List.filter_append, anonymous]

theorem enter_recorded (t : Token) : Recorded path (p.enter t) cs missed := by
  have same := recorded
  obtain ⟨findings, scopes, charged⟩ := recorded
  cases kind : t.kind with
  | keyword =>
      simp only [Pass.enter, kind]
      by_cases isClass : t.lower = "class"
      · rw [if_pos isClass]
        split
        · exact begin_anonymous_recorded path cs missed p same _ rfl
        · exact ⟨findings, scopes, charged⟩
      · rw [if_neg isClass]
        split
        · exact ⟨findings, scopes, charged⟩
        · exact same
  | _ =>
      simp only [Pass.enter, kind]
      exact ⟨findings, scopes, charged⟩

-- A charge to a class by its number is one to its ordinal.
theorem charge_scored (d : Declaration) (n : Nat) (owner : Scope) (found : scopeOf p.scopes n = some owner)
    (charged : d.charged = owner.ordinal) :
    namedScopes (p.scopes.modify n ClassScope.charge) = scored cs (missed ++ [d]) := by
  obtain ⟨s, here, rfl⟩ := Option.map_eq_some_iff.mp found
  rw [named_scopes_charged p.scopes n s here, recorded.scopes]
  cases anonymous : s.anonymous with
  | true =>
      simp only [anonymous, if_true] at charged ⊢
      exact (scored_unnamed cs missed d charged).symm
  | false =>
      simp only [anonymous, Bool.false_eq_true, if_false] at charged ⊢
      exact (scored_charge cs missed d _ charged).symm

theorem charge_inside (d : Declaration) (n : Nat) (owner : Scope) (found : scopeOf p.scopes n = some owner)
    (charged : d.charged = owner.ordinal) (ordinal : Nat) (own : d.charged = some ordinal) :
    ordinal < cs.length := by
  obtain ⟨s, here, rfl⟩ := Option.map_eq_some_iff.mp found
  have count : (namedScopes p.scopes).length = cs.length := by
    rw [recorded.scopes, scored, List.length_map, List.length_zipIdx]
  cases anonymous : s.anonymous with
  | true =>
      simp only [anonymous, if_true] at charged
      cases charged.symm.trans own
  | false =>
      simp only [anonymous, Bool.false_eq_true, if_false] at charged
      have inside := ordinal_inside p.scopes n s here anonymous
      rw [Option.some.inj (charged.symm.trans own), count] at inside
      exact inside

-- A declaration is noted when it is missed, and then its class answers for one more.
theorem evaluate_recorded (flags : SkipFlags) (d : Declaration) (n : Nat) (owner : Scope)
    (found : scopeOf p.scopes n = some owner) (charged : d.charged = owner.ordinal) :
    Recorded path (p.evaluate flags d.docblock (Finding.ofDeclaration path d) n) cs
      (missed ++ missing flags [d]) := by
  have passed : (d.docblock.isSome || !flags.checks (Finding.ofDeclaration path d).kind) = !flags.misses d := by
    rw [SkipFlags.misses, Bool.not_and, Option.not_isNone]
    rfl
  rw [Pass.evaluate, passed]
  by_cases noted : flags.misses d = true
  · have one : missing flags [d] = [d] := List.filter_cons_of_pos noted
    rw [if_neg (by simp [noted]), one]
    refine ⟨?_, charge_scored path cs missed p recorded d n owner found charged, ?_⟩
    · rw [List.map_append, ← recorded.findings]
      rfl
    · intro m member ordinal own
      rcases List.mem_append.mp member with earlier | last
      · exact recorded.charged m earlier ordinal own
      · cases List.mem_singleton.mp last
        exact charge_inside path cs missed p recorded d n owner found charged ordinal own
  · have none : missing flags [d] = [] := List.filter_cons_of_neg noted
    rw [if_pos (by simp [noted]), none, List.append_nil]
    exact recorded

end

section

variable (flags : SkipFlags) (path : String) (p : Pass) (ds : List Declaration) (sound : p.Sound)
variable (recorded : Recorded path p (classDeclarations ds) (missing flags ds))

include sound recorded

theorem declare_class_recorded (w : Pending) (name : String) :
    let d := p.view.declareClass w name
    Recorded path (p.declareClass flags path w name) (classDeclarations (ds ++ [d])) (missing flags (ds ++ [d])) := by
  intro d
  have classes : classDeclarations (ds ++ [d]) = classDeclarations ds ++ [d] := List.filter_append ..
  have missed : missing flags (ds ++ [d]) = missing flags ds ++ missing flags [d] := List.filter_append ..
  have finding : Finding.ofDeclaration path d = ⟨.classDecl, path, p.enclosing.map (·.name), name, w.line⟩ := by
    rw [← view_enclosing_name p sound]
    rfl
  have begun := begin_named_recorded path _ _ p recorded d ⟨name, w.line, false, 0⟩ rfl
  rw [classes, missed, Pass.declareClass, ← finding]
  exact evaluate_recorded path _ _ _ begun flags d p.scopes.length ⟨name, some p.view.named⟩
    (scope_of_new p.scopes _) rfl

theorem declare_function_recorded (w : Pending) (name : String) :
    let more := (p.view.declareFunction w name).toList
    Recorded path (p.declareFunction flags path w name) (classDeclarations (ds ++ more))
      (missing flags (ds ++ more)) := by
  intro more
  cases found : p.innermost with
  | none =>
      have outside : more = [] := by
        simp [more, Scan.declareFunction, view_enclosing p sound, found]
      rw [outside, List.append_nil, Pass.declareFunction, found]
      exact recorded
  | some n =>
      obtain ⟨owner, named⟩ := Option.isSome_iff_exists.mp
        (scope_of_inside p.scopes n (innermost_inside p sound n found))
      have enclosing : p.view.enclosing = some owner := by
        rw [view_enclosing p sound, found]
        exact named
      let d : Declaration :=
        { kind := if name = closureName then .closure else .method
          name := name
          line := w.line
          enclosing := some owner.name
          docblock := w.docblock
          charged := owner.ordinal }
      have declared : more = [d] := by simp [more, d, Scan.declareFunction, enclosing]
      have classes : classDeclarations (ds ++ [d]) = classDeclarations ds := by
        have inner : d.kind ≠ .classDecl := by
          by_cases closure : name = closureName <;> simp [d, closure]
        simp [classDeclarations, List.filter_append, inner]
      have missed : missing flags (ds ++ [d]) = missing flags ds ++ missing flags [d] := List.filter_append ..
      have className : p.enclosing.map (·.name) = some owner.name := by
        rw [← view_enclosing_name p sound, enclosing]
        rfl
      rw [declared, classes, missed, Pass.declareFunction, found, className]
      exact evaluate_recorded path _ _ p recorded flags d n owner named rfl

theorem read_recorded (t : Token) :
    let more := (p.view.read t).2.toList
    Recorded path (p.read flags path t) (classDeclarations (ds ++ more)) (missing flags (ds ++ more)) := by
  intro more
  cases waiting : p.pending with
  | none =>
      have idle : p.view.pending = none := waiting
      have silent : more = [] := by simp [more, Scan.read, idle]
      rw [silent, List.append_nil, Pass.read, waiting]
      exact enter_recorded path _ _ p recorded t
  | some w =>
      have waits : p.view.pending = some w := waiting
      have idle : Pass.Sound { p with pending := none } := ⟨sound.frames, sound.body, sound.previous⟩
      have noted : Recorded path { p with pending := none } (classDeclarations ds) (missing flags ds) :=
        ⟨recorded.findings, recorded.scopes, recorded.charged⟩
      cases head : w.head with
      | ofFunction =>
          simp only [more, Pass.read, Scan.read, waiting, waits, head]
          by_cases reference : t.text = "&"
          · simp only [if_pos reference, Option.toList_none, List.append_nil]
            exact recorded
          · simp only [if_neg reference]
            by_cases label : t.kind.isLabel = true
            · simp only [if_pos label]
              exact declare_function_recorded flags path _ ds idle noted w t.text
            · simp only [if_neg label]
              by_cases closure : t.text = "("
              · simp only [if_pos closure]
                exact enter_recorded path _ _ _ (declare_function_recorded flags path _ ds idle noted w closureName) t
              · simp only [if_neg closure, Option.toList_none, List.append_nil]
                exact enter_recorded path _ _ _ noted t
      | ofClass =>
          simp only [more, Pass.read, Scan.read, waiting, waits, head]
          by_cases label : t.kind.isLabel = true
          · simp only [if_pos label]
            exact declare_class_recorded flags path _ ds idle noted w t.text
          · simp only [if_neg label, Option.toList_none, List.append_nil]
            exact enter_recorded path _ _ _ noted t

end

section

variable (flags : SkipFlags) (path : String)

-- The pass stands where the scan stands, and has noted of what is missing among `ds`.
structure Accounted (p : Pass) (st : Scan) (ds : List Declaration) : Prop where
  sound : p.Sound
  view : p.view = st
  recorded : Recorded path p (classDeclarations ds) (missing flags ds)

theorem start_accounted : Accounted flags path {} {} [] := by
  refine ⟨⟨?_, ?_, rfl⟩, rfl, ⟨rfl, rfl, ?_⟩⟩
  · intro n member
    cases member
  · intro n begun
    cases begun
  · intro m member
    cases member

theorem step_accounted (p : Pass) (st : Scan) (ds : List Declaration) (t : Token)
    (accounted : Accounted flags path p st ds) :
    Accounted flags path (p.step flags path t) (st.step t).1 (ds ++ (st.step t).2.toList) := by
  obtain ⟨sound, rfl, recorded⟩ := accounted
  rw [Pass.step, Scan.step]
  by_cases trivia : t.trivia = true
  · rw [if_pos trivia, if_pos trivia, Option.toList_none, List.append_nil]
    refine ⟨⟨sound.frames, sound.body, ?_⟩, rfl, recorded.findings, recorded.scopes, recorded.charged⟩
    rw [List.find?_cons_of_neg (by simp [trivia])]
    exact sound.previous
  · rw [if_neg trivia, if_neg trivia]
    obtain ⟨read, view⟩ := read_refines flags path p sound t
    have noted := read_recorded flags path p ds sound recorded t
    refine ⟨⟨read.frames, read.body, ?_⟩, ?_, noted.findings, noted.scopes, noted.charged⟩
    · rw [List.find?_cons_of_pos (by simp [trivia])]
    · exact congrArg (fun st : Scan => { st with before := t :: st.before }) view

theorem run_accounted (p : Pass) (st : Scan) (ds : List Declaration) (ts : List Token)
    (accounted : Accounted flags path p st ds) :
    ∃ last, Accounted flags path (ts.foldl (Pass.step flags path) p) last (ds ++ st.declarations ts) := by
  induction ts generalizing p st ds with
  | nil => exact ⟨st, by simpa [Scan.declarations] using accounted⟩
  | cons t ts ih =>
      rw [Scan.declarations, ← List.append_assoc]
      exact ih _ _ _ (step_accounted flags path p st ds t accounted)

theorem scan_composed (ts : List Token) :
    scan flags ts path =
      ⟨(missing flags (declarations ts)).map (Finding.ofDeclaration path),
        summaries (declarations ts) (missing flags (declarations ts))⟩ := by
  obtain ⟨last, -, -, recorded⟩ := run_accounted flags path {} {} [] ts (start_accounted flags path)
  rw [scan, Pass.outcome, recorded.findings, ← namedScopes, recorded.scopes, summaries_scored]
  rfl

theorem scan_findings (ts : List Token) :
    (scan flags ts path).findings = (missing flags (declarations ts)).map (Finding.ofDeclaration path) :=
  congrArg Outcome.findings (scan_composed flags path ts)

theorem scan_classes (ts : List Token) :
    (scan flags ts path).classes = summaries (declarations ts) (missing flags (declarations ts)) :=
  congrArg Outcome.classes (scan_composed flags path ts)

end

end DocAudit
