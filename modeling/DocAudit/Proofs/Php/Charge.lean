import DocAudit.Proofs.Php.DocblockInsertion

/-!
Who answers for a finding. A class answers for itself and for what is declared where its frame is
the innermost; its summary is clean when it has nothing to answer for.
-/

set_option autoImplicit false

namespace DocAudit.Php

/-! ### Named classes by number -/

section

variable (ts : List Token) (taken : Nat → Bool)

def namedBelow (n : Nat) : List Nat := (List.range n).filter fun k => (classNameAt ts taken k).isSome

-- The ordinal of a class is its place among the named classes.
theorem named_below_ordinal (n h : Nat) (inside : h < n) (named : (classNameAt ts taken h).isSome = true) :
    (namedBelow ts taken n)[ordinalAt ts taken h]? = some h := by
  have here : n - h = n - (h + 1) + 1 := by omega
  rw [namedBelow, range_at h n (Nat.le_of_lt inside), List.filter_append, ordinalAt, List.countP_eq_length_filter,
    List.getElem?_append_right (Nat.le_refl _), Nat.sub_self, here, List.range'_succ,
    List.filter_cons_of_pos (by exact named)]
  rfl

theorem ordinal_injective (g h : Nat) (first : (classNameAt ts taken g).isSome = true)
    (second : (classNameAt ts taken h).isSome = true) (same : ordinalAt ts taken g = ordinalAt ts taken h) : g = h := by
  have left := named_below_ordinal ts taken (g + h + 1) g (by omega) first
  have right := named_below_ordinal ts taken (g + h + 1) h (by omega) second
  rw [same] at left
  exact Option.some.inj (left.symm.trans right)

theorem named_below_at (n i h : Nat) (found : (namedBelow ts taken n)[i]? = some h) :
    h < n ∧ (classNameAt ts taken h).isSome = true ∧ ordinalAt ts taken h = i := by
  obtain ⟨inside, named⟩ := List.mem_filter.mp (List.mem_of_getElem? found)
  have less := List.mem_range.mp inside
  have again := named_below_ordinal ts taken n h less named
  refine ⟨less, named, ?_⟩
  obtain ⟨bound, -⟩ := List.getElem?_eq_some_iff.mp again
  exact (List.getElem?_inj bound (List.nodup_range.filter _)).mp (again.trans found.symm)

/-! ### Class heads -/

theorem named_head (h : Nat) (name : Token) (named : classNameAt ts taken h = some name) :
    headAt ts taken h = some ⟨name.text, some (ordinalAt ts taken h)⟩ := by
  rw [class_head ts taken h (class_name_member ts taken h name named).1, named]
  rfl

theorem head_cases (h : Nat) (scope : Scope) (head : headAt ts taken h = some scope) :
    scope = ⟨anonymousClassName, none⟩ ∨
      ∃ name, classNameAt ts taken h = some name ∧ scope = ⟨name.text, some (ordinalAt ts taken h)⟩ := by
  rw [headAt] at head
  split at head
  · exact .inl (Option.some.inj head).symm
  · obtain ⟨name, named, rfl⟩ := Option.map_eq_some_iff.mp head
    exact .inr ⟨name, named, rfl⟩

-- The head of the class whose frame is the innermost at `k`.
def innermostHead (k : Nat) : Option Nat := (openBraces ts k).findSome? (headBefore ts taken)

theorem enclosing_head (k : Nat) : enclosingAt ts taken k = (innermostHead ts taken k).bind (headAt ts taken) := by
  rw [enclosingAt, innermostHead]
  induction openBraces ts k with
  | nil => rfl
  | cons b braces ih =>
      rw [List.findSome?_cons, List.findSome?_cons, ownerAt]
      cases found : headBefore ts taken b with
      | none => exact ih
      | some h =>
          obtain ⟨scope, head⟩ := Option.isSome_iff_exists.mp ((head_before_iff ts taken b h).mp found).2.1
          simp [head]

/-! ### What is declared, and who answers -/

structure ClassDeclared (k : Nat) (d : Declaration) (name : Token) : Prop where
  kind : d.kind = .classDecl
  named : classNameAt ts taken k = some name
  label : d.name = name.text
  line : d.line = lineAt ts k
  charged : d.charged = some (ordinalAt ts taken k)

structure FunctionDeclared (k : Nat) (d : Declaration) (h : Nat) (scope : Scope) : Prop where
  kind : d.kind ≠ .classDecl
  innermost : innermostHead ts taken k = some h
  head : headAt ts taken h = some scope
  enclosing : d.enclosing = some scope.name
  charged : d.charged = scope.ordinal

theorem function_declared (k : Nat) (d : Declaration) (t : Token) (scope : Scope)
    (enclosing : enclosingAt ts taken k = some scope) (function : functionAt ts taken k t = some d) :
    d.kind ≠ .classDecl ∧ d.enclosing = some scope.name ∧ d.charged = scope.ordinal := by
  simp only [functionAt, declaredAt, enclosing] at function
  split at function
  · cases function
    exact ⟨by simp, rfl, rfl⟩
  split at function
  · cases function
    exact ⟨by simp, rfl, rfl⟩
  · cases function

theorem declaration_cases (k : Nat) (d : Declaration) (declared : declarationAt ts taken k = some d) :
    (∃ name, ClassDeclared ts taken k d name) ∨ ∃ h scope, FunctionDeclared ts taken k d h scope := by
  rw [declarationAt] at declared
  split at declared
  · rename_i awaits
    obtain ⟨t, -, function⟩ := Option.bind_eq_some_iff.mp declared
    rw [awaitsName, Bool.and_eq_true] at awaits
    obtain ⟨scope, enclosing⟩ := Option.isSome_iff_exists.mp awaits.2
    obtain ⟨kind, name, charged⟩ := function_declared ts taken k d t scope enclosing function
    rw [enclosing_head] at enclosing
    obtain ⟨h, innermost, head⟩ := Option.bind_eq_some_iff.mp enclosing
    exact .inr ⟨h, scope, kind, innermost, head, name, charged⟩
  · obtain ⟨name, named, rfl⟩ := Option.map_eq_some_iff.mp declared
    exact .inl ⟨name, rfl, named, rfl, rfl, rfl⟩

-- What is declared at `k` is charged to the class with its head at `h`.
structure ChargedTo (k : Nat) (kind : DeclarationKind) (h : Nat) : Prop where
  head : (headAt ts taken h).isSome = true
  itself : kind = .classDecl → h = k
  around : kind ≠ .classDecl → innermostHead ts taken k = some h

theorem class_charged (k : Nat) (d : Declaration) (name : Token) (own : ClassDeclared ts taken k d name) (h : Nat) :
    ChargedTo ts taken k d.kind h ↔ h = k := by
  constructor
  · exact fun charged => charged.itself own.kind
  · rintro rfl
    have head := named_head ts taken h name own.named
    exact ⟨by rw [head]; rfl, fun _ => rfl, fun function => absurd own.kind function⟩

theorem function_charged_to (k : Nat) (d : Declaration) (g : Nat) (scope : Scope)
    (inner : FunctionDeclared ts taken k d g scope) (h : Nat) : ChargedTo ts taken k d.kind h ↔ h = g := by
  constructor
  · intro charged
    exact Option.some.inj ((charged.around inner.kind).symm.trans inner.innermost)
  · rintro rfl
    exact ⟨by rw [inner.head]; rfl, fun kind => absurd kind inner.kind, fun _ => inner.innermost⟩

theorem declaration_charged_once (k : Nat) (d : Declaration) (declared : declarationAt ts taken k = some d) :
    ∃! h, ChargedTo ts taken k d.kind h := by
  rcases declaration_cases ts taken k d declared with ⟨name, own⟩ | ⟨g, scope, inner⟩
  · simp only [class_charged ts taken k d name own, existsUnique_eq]
  · simp only [function_charged_to ts taken k d g scope inner, existsUnique_eq]

-- The number that a declaration is charged under is that of the class it is charged to.
theorem charged_iff (k : Nat) (d : Declaration) (declared : declarationAt ts taken k = some d) (h : Nat)
    (named : (classNameAt ts taken h).isSome = true) :
    d.charged = some (ordinalAt ts taken h) ↔ ChargedTo ts taken k d.kind h := by
  rcases declaration_cases ts taken k d declared with ⟨name, own⟩ | ⟨g, scope, inner⟩
  · have here : (classNameAt ts taken k).isSome = true := by rw [own.named]; rfl
    rw [class_charged ts taken k d name own, own.charged, Option.some.injEq]
    constructor
    · exact fun same => (ordinal_injective ts taken k h here named same).symm
    · exact fun same => same ▸ rfl
  · rw [function_charged_to ts taken k d g scope inner, inner.charged]
    obtain ⟨label, found⟩ := Option.isSome_iff_exists.mp named
    constructor
    · intro charged
      rcases head_cases ts taken g scope inner.head with rfl | ⟨name, owner, rfl⟩
      · cases charged
      · have there : (classNameAt ts taken g).isSome = true := by rw [owner]; rfl
        exact ordinal_injective ts taken h g named there (Option.some.inj charged).symm
    · rintro rfl
      have head := (named_head ts taken h label found).symm.trans inner.head
      rw [← Option.some.inj head]

end

/-! ### Findings -/

theorem finding_at_iff (flags : SkipFlags) (path : String) (ts : List Token) (k : Nat) (f : Finding) :
    findingAt flags path ts k = some f ↔ ∃ d, declarationAt ts (takenAt ts) k = some d ∧ flags.misses d = true ∧
      Finding.ofDeclaration path d = f := by
  rw [findingAt, Option.map_eq_some_iff]
  simp only [Option.filter_eq_some_iff, and_assoc]
  rfl

theorem declaration_inside (ts : List Token) (taken : Nat → Bool) (k : Nat) (d : Declaration)
    (declared : declarationAt ts taken k = some d) : k < ts.length := by
  by_contra outside
  have absent : ts[k]? = none := List.getElem?_eq_none (Nat.le_of_not_gt outside)
  rw [dead_declares ts taken k fun head => by rw [liveAt, wordAt, absent]; rfl] at declared
  cases declared

section

variable (flags : SkipFlags) (path : String) (ts : List Token) (spelled : ∀ u ∈ ts, WellSpelled u)

include spelled

theorem missing_iff (d : Declaration) :
    d ∈ missing flags (declarations ts) ↔ flags.misses d = true ∧ ∃ k, declarationAt ts (takenAt ts) k = some d := by
  rw [missing, List.mem_filter, declarations_by_position ts spelled, List.mem_filterMap, and_comm]
  refine and_congr_right fun _ => exists_congr fun k => and_iff_right_of_imp fun declared => ?_
  exact List.mem_range.mpr (declaration_inside ts (takenAt ts) k d declared)

-- Something is missing under the number of a class when a finding is charged to that class.
theorem missing_charged (h : Nat) (named : (classNameAt ts (takenAt ts) h).isSome = true) :
    (missing flags (declarations ts)).any (·.charged == some (ordinalAt ts (takenAt ts) h)) = true ↔
      ∃ k f, findingAt flags path ts k = some f ∧ ChargedTo ts (takenAt ts) k f.kind h := by
  rw [List.any_eq_true]
  constructor
  · rintro ⟨d, member, charged⟩
    obtain ⟨misses, k, declared⟩ := (missing_iff flags ts spelled d).mp member
    refine ⟨k, Finding.ofDeclaration path d, ?_, ?_⟩
    · exact (finding_at_iff flags path ts k _).mpr ⟨d, declared, misses, rfl⟩
    · exact (charged_iff ts (takenAt ts) k d declared h named).mp (beq_iff_eq.mp charged)
  · rintro ⟨k, f, found, charged⟩
    obtain ⟨d, declared, misses, rfl⟩ := (finding_at_iff flags path ts k f).mp found
    refine ⟨d, (missing_iff flags ts spelled d).mpr ⟨misses, k, declared⟩, beq_iff_eq.mpr ?_⟩
    exact (charged_iff ts (takenAt ts) k d declared h named).mpr charged

end

/-! ### Summaries -/

def namedHeads (ts : List Token) : List Nat := namedBelow ts (takenAt ts) ts.length

-- `c` is the summary of the class with its head at `h`.
structure SumsUp (flags : SkipFlags) (path : String) (ts : List Token) (h : Nat) (c : ClassSummary) : Prop where
  name : (classNameAt ts (takenAt ts) h).map (·.text) = some c.name
  line : c.line = lineAt ts h
  clean : c.clean = true ↔
    ∀ k f, findingAt flags path ts k = some f → ¬ ChargedTo ts (takenAt ts) k f.kind h

def classAt (ts : List Token) (k : Nat) : Option Declaration :=
  (declarationAt ts (takenAt ts) k).filter (·.kind == .classDecl)

theorem class_at_declared (ts : List Token) (k : Nat) (d : Declaration) (declared : classAt ts k = some d) :
    ∃ name, ClassDeclared ts (takenAt ts) k d name := by
  obtain ⟨declared, kind⟩ := Option.filter_eq_some_iff.mp declared
  rcases declaration_cases ts (takenAt ts) k d declared with own | ⟨h, scope, inner⟩
  · exact own
  · exact absurd (beq_iff_eq.mp kind) inner.kind

theorem class_at_named (ts : List Token) (k : Nat) :
    (classAt ts k).isSome = (classNameAt ts (takenAt ts) k).isSome := by
  cases named : classNameAt ts (takenAt ts) k with
  | some name =>
      have silent := class_not_function ts (takenAt ts) k (class_name_member ts (takenAt ts) k name named).1
      rw [classAt, declarationAt, if_neg (Bool.eq_false_iff.mp silent), named]
      rfl
  | none =>
      rw [Option.isSome_none, Option.isSome_eq_false_iff, Option.isNone_iff_eq_none,
        Option.eq_none_iff_forall_ne_some]
      intro d declared
      obtain ⟨name, own⟩ := class_at_declared ts k d declared
      cases named.symm.trans own.named

theorem named_inside (ts : List Token) (h : Nat) (named : (classNameAt ts (takenAt ts) h).isSome = true) :
    h < ts.length := by
  rw [← class_at_named] at named
  obtain ⟨d, declared⟩ := Option.isSome_iff_exists.mp named
  exact declaration_inside ts (takenAt ts) h d (Option.filter_eq_some_iff.mp declared).1

theorem kept_by_position {α β : Type} (f : α → Option β) (positions : List α) :
    List.Forall₂ (fun k d => f k = some d) (positions.filter fun k => (f k).isSome) (positions.filterMap f) := by
  induction positions with
  | nil => exact .nil
  | cons k positions ih =>
      cases found : f k with
      | none =>
          rw [List.filterMap_cons_none found, List.filter_cons_of_neg (by simp [found])]
          exact ih
      | some d =>
          rw [List.filterMap_cons_some found, List.filter_cons_of_pos (by simp [found])]
          exact .cons found ih

section

variable (flags : SkipFlags) (path : String) (ts : List Token) (spelled : ∀ u ∈ ts, WellSpelled u)

include spelled

theorem classes_by_position :
    List.Forall₂ (fun h d => classAt ts h = some d) (namedHeads ts) (classDeclarations (declarations ts)) := by
  have kept := kept_by_position (classAt ts) (List.range ts.length)
  rw [classDeclarations, declarations_by_position ts spelled, List.filter_filterMap]
  simp only [class_at_named] at kept
  exact kept

theorem summed_up (i h : Nat) (c : ClassSummary) (head : (namedHeads ts)[i]? = some h)
    (summary : (scan flags ts path).classes[i]? = some c) : SumsUp flags path ts h c := by
  obtain ⟨-, named, rfl⟩ := named_below_at ts (takenAt ts) ts.length i h head
  rw [scan_classes] at summary
  obtain ⟨d, declared, rfl⟩ := summary_at _ _ _ c summary
  obtain ⟨near, atHead⟩ := List.getElem?_eq_some_iff.mp head
  obtain ⟨far, atClass⟩ := List.getElem?_eq_some_iff.mp declared
  have own := (classes_by_position ts spelled).get near far
  rw [List.get_eq_getElem, List.get_eq_getElem, atHead, atClass] at own
  obtain ⟨name, own⟩ := class_at_declared ts h d own
  refine ⟨by rw [own.named, own.label]; rfl, own.line, ?_⟩
  rw [Bool.not_eq_true', ← Bool.not_eq_true, missing_charged flags path ts spelled h named]
  simp only [not_exists, not_and]

theorem classes_summed_up : List.Forall₂ (SumsUp flags path ts) (namedHeads ts) (scan flags ts path).classes := by
  have length : (namedHeads ts).length = (scan flags ts path).classes.length := by
    rw [(classes_by_position ts spelled).length_eq, scan_classes, summaries, List.length_map, List.length_zipIdx]
  rw [List.forall₂_iff_get]
  refine ⟨length, fun i near far => ?_⟩
  exact summed_up flags path ts spelled i _ _ (List.getElem?_eq_getElem near) (List.getElem?_eq_getElem far)

-- When every named class is clean, what is left to answer for is inside anonymous classes.
theorem clean_leaves_anonymous (clean : ∀ c ∈ (scan flags ts path).classes, c.clean = true) (k : Nat) (f : Finding)
    (found : findingAt flags path ts k = some f) :
    f.kind ≠ .classDecl ∧ f.className = some anonymousClassName := by
  -- A named class that answers has a summary, and this one says that it does not.
  have unnamed : ∀ h, ChargedTo ts (takenAt ts) k f.kind h → classNameAt ts (takenAt ts) h = none := by
    intro h charged
    by_contra other
    have named := Option.isSome_iff_ne_none.mpr other
    have head := named_below_ordinal ts (takenAt ts) ts.length h (named_inside ts h named) named
    obtain ⟨near, -⟩ := List.getElem?_eq_some_iff.mp head
    have far := (classes_summed_up flags path ts spelled).length_eq ▸ near
    have summary := List.getElem?_eq_getElem far
    have sums := summed_up flags path ts spelled _ h _ head summary
    exact sums.clean.mp (clean _ (List.mem_of_getElem? summary)) k f found charged
  obtain ⟨d, declared, -, rfl⟩ := (finding_at_iff flags path ts k f).mp found
  rcases declaration_cases ts (takenAt ts) k d declared with ⟨name, own⟩ | ⟨h, scope, inner⟩
  · have none := unnamed k ((class_charged ts (takenAt ts) k d name own k).mpr rfl)
    cases none.symm.trans own.named
  · have none := unnamed h ((function_charged_to ts (takenAt ts) k d h scope inner h).mpr rfl)
    refine ⟨inner.kind, ?_⟩
    rcases head_cases ts (takenAt ts) h scope inner.head with rfl | ⟨name, named, -⟩
    · exact inner.enclosing
    · cases none.symm.trans named

end

theorem findings_charged_once (source : String) (flags : SkipFlags) (path : String) :
    let ts := (tokenize source).tokens
    let outcome := scan flags ts path
    (∀ k ≤ ts.length, (scanAfter (ts.take k)).frames = (openBraces ts k).map (ownerAt ts (takenAt ts))) ∧
    outcome.findings = (List.range ts.length).filterMap (findingAt flags path ts) ∧
    (∀ k f, findingAt flags path ts k = some f → ∃! h, ChargedTo ts (takenAt ts) k f.kind h) ∧
    List.Forall₂ (SumsUp flags path ts) (namedHeads ts) outcome.classes ∧
    ((∀ c ∈ outcome.classes, c.clean = true) →
      ∀ f ∈ outcome.findings, f.kind ≠ .classDecl ∧ f.className = some anonymousClassName) := by
  intro ts outcome
  have spelled := tokenize_well_spelled source
  have findings := findings_by_position source flags path
  refine ⟨scan_frames_by_position ts spelled, findings, ?_, classes_summed_up flags path ts spelled, ?_⟩
  · intro k f found
    obtain ⟨d, declared, -, rfl⟩ := (finding_at_iff flags path ts k f).mp found
    exact declaration_charged_once ts (takenAt ts) k d declared
  · intro clean f member
    rw [findings] at member
    obtain ⟨k, -, found⟩ := List.mem_filterMap.mp member
    exact clean_leaves_anonymous flags path ts spelled clean k f found

-- Two classes of one name, both clean, and an undocumented method in an anonymous class.
theorem findings_charged_once_inside_class :
    let ts := (tokenize
      "<?php /** */class A\x7b/** */function f()\x7bnew class\x7bfunction g()\x7b\x7d\x7d;\x7d\x7d/** */class A\x7b\x7d").tokens
    let outcome := scan {} ts "a.php"
    outcome.classes = [⟨"A", 1, true⟩, ⟨"A", 1, true⟩] ∧
      (findingAt {} "a.php" ts 18 = some ⟨.method, "a.php", some anonymousClassName, "g", 1⟩ ∧
        ∃! h, ChargedTo ts (takenAt ts) 18 .method h) ∧
      ∀ f ∈ outcome.findings, f.kind ≠ .classDecl ∧ f.className = some anonymousClassName := by
  intro ts outcome
  have classes : outcome.classes = [⟨"A", 1, true⟩, ⟨"A", 1, true⟩] := by decide +kernel
  have found : findingAt {} "a.php" ts 18 = some ⟨.method, "a.php", some anonymousClassName, "g", 1⟩ := by
    decide +kernel
  obtain ⟨-, -, once, -, anonymous⟩ := findings_charged_once _ {} "a.php"
  refine ⟨classes, ⟨found, once 18 _ found⟩, anonymous ?_⟩
  rw [classes]
  decide

end DocAudit.Php
