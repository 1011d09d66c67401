import DocAudit.Proofs.Pass
import DocAudit.Proofs.Php.Position
import DocAudit.Proofs.Php.Walk
import Mathlib.Data.List.Forall2

/-!
Two scans side by side. Over tokens that are alike, and histories that the walks back go over in
step, two scans declare the same up to the docblocks themselves, and so give the same outcome.
-/

set_option autoImplicit false

namespace DocAudit.Php

/-! ### States in step -/

-- Equal but for the docblocks.
structure Pending.Matches (docs : Option Token → Option Token → Prop) (p q : Pending) : Prop where
  head : p.head = q.head
  line : p.line = q.line
  docblock : docs p.docblock q.docblock

structure Declaration.Matches (docs : Option Token → Option Token → Prop) (d e : Declaration) : Prop where
  kind : d.kind = e.kind
  name : d.name = e.name
  line : d.line = e.line
  enclosing : d.enclosing = e.enclosing
  charged : d.charged = e.charged
  docblock : docs d.docblock e.docblock

structure Scan.Matches (docs : Option Token → Option Token → Prop) (st su : Scan) : Prop where
  frames : st.frames = su.frames
  body : st.body = su.body
  named : st.named = su.named
  pending : Option.Rel (Pending.Matches docs) st.pending su.pending

-- Trivia, and whatever a waiting keyword passes over.
def Scan.passes (st : Scan) (t : Token) : Bool := t.trivia || st.pending.any (·.head.passes t)

theorem step_passed (st : Scan) (t : Token) (passed : st.passes t = true) :
    st.step t = ({ st with before := t :: st.before }, none) := by
  by_cases trivia : t.trivia = true
  · simp [Scan.step, trivia]
  · simp only [Scan.passes, trivia, Bool.false_or] at passed
    obtain ⟨p, pending, passes⟩ := (Option.any_eq_true _ _).mp passed
    cases head : p.head with
    | ofClass => simp [head, Head.passes, trivia] at passes
    | ofFunction =>
        have ampersand : t.text = "&" := by simpa [head, Head.passes, trivia] using passes
        simp [Scan.step, trivia, Scan.read, pending, head, ampersand]

section

variable (docs : Option Token → Option Token → Prop) (st su : Scan) (t u : Token)
variable (matching : Scan.Matches docs st su) (alike : Alike t u)

include matching

theorem matches_pending : (st.pending = none ∧ su.pending = none) ∨
    ∃ p q, st.pending = some p ∧ su.pending = some q ∧ Pending.Matches docs p q := by
  have related := matching.pending
  generalize st.pending = a, su.pending = b at related ⊢
  cases related with
  | none => exact .inl ⟨rfl, rfl⟩
  | some same => exact .inr ⟨_, _, rfl, rfl, same⟩

theorem matches_enclosing : st.enclosing = su.enclosing := by
  rw [Scan.enclosing, Scan.enclosing, matching.frames]

theorem declare_class_matches (p q : Pending) (same : Pending.Matches docs p q) (name : String) :
    Declaration.Matches docs (st.declareClass p name) (su.declareClass q name) := by
  refine ⟨rfl, rfl, same.line, ?_, ?_, same.docblock⟩
  · exact congrArg (Option.map Scope.name) (matches_enclosing docs st su matching)
  · exact congrArg some matching.named

theorem declare_function_matches (p q : Pending) (same : Pending.Matches docs p q) (name : String) :
    Option.Rel (Declaration.Matches docs) (st.declareFunction p name) (su.declareFunction q name) := by
  rw [Scan.declareFunction, Scan.declareFunction, matches_enclosing docs st su matching]
  cases su.enclosing with
  | none => exact .none
  | some owner => exact .some ⟨rfl, rfl, same.line, rfl, rfl, same.docblock⟩

include alike

theorem matches_passes : st.passes t = su.passes u := by
  have ampersand := alike_mark t u alike "&" (by decide)
  rw [Scan.passes, Scan.passes, alike_trivia t u alike]
  rcases matches_pending docs st su matching with ⟨unset, also⟩ | ⟨p, q, set, also, same⟩
  · rw [unset, also]
    rfl
  · rw [set, also, Option.any_some, Option.any_some, same.head]
    cases q.head with
    | ofClass => rw [Head.passes, Head.passes, alike_trivia t u alike]
    | ofFunction => rw [Head.passes, Head.passes, alike_trivia t u alike, ampersand]

end

section

variable (H : List Token → List Token → Prop) (inStep : ∀ w v, H w v → InStep H w v)
variable (st su : Scan) (t u : Token) (alike : Alike t u) (related : H st.before su.before)

include inStep alike related

theorem await_name_matches (matching : Scan.Matches SameVerdict st su) (head : Head) :
    Scan.Matches SameVerdict (st.awaitName head t) (su.awaitName head u) := by
  refine ⟨matching.frames, matching.body, matching.named, .some ⟨rfl, alike.line, ?_⟩⟩
  rw [← alike.line]
  exact docblock_in_step H inStep t.line st.before su.before related

theorem enter_matches (matching : Scan.Matches SameVerdict st su) :
    Scan.Matches SameVerdict (st.enter t) (su.enter u) := by
  obtain ⟨frames, body, named, pending⟩ := matching
  rw [Scan.enter, Scan.enter, ← alike.kind]
  cases kind : t.kind with
  | openBrace => exact ⟨by rw [frames, body], rfl, named, pending⟩
  | closeBrace => exact ⟨by rw [frames], body, named, pending⟩
  | keyword =>
      have lower : t.lower = u.lower := by rw [Token.lower, Token.lower, alike.label (by rw [kind]; rfl)]
      have new := follows_new_in_step H inStep st.before su.before related
      have use : st.afterUse = su.afterUse := after_use_in_step H inStep st.before su.before related
      have enclosing : st.enclosing = su.enclosing := by rw [Scan.enclosing, Scan.enclosing, frames]
      dsimp only
      rw [lower, new, use, enclosing]
      split
      · split
        · exact ⟨frames, rfl, named, pending⟩
        · exact await_name_matches H inStep st su t u alike related ⟨frames, body, named, pending⟩ .ofClass
      split
      · exact await_name_matches H inStep st su t u alike related ⟨frames, body, named, pending⟩ .ofFunction
      · exact ⟨frames, body, named, pending⟩
  | _ => exact ⟨frames, body, named, pending⟩

-- A waiting keyword is answered with its own docblock; what the token then begins is judged alike.
theorem read_matches (docs : Option Token → Option Token → Prop) (matching : Scan.Matches docs st su)
    (stops : st.passes t = false) :
    Option.Rel (Declaration.Matches docs) (st.read t).2 (su.read u).2 ∧
      Scan.Matches SameVerdict (st.read t).1 (su.read u).1 := by
  have parenthesis := alike.mark "(" (by decide)
  have idle : Scan.Matches SameVerdict { st with pending := none } { su with pending := none } :=
    ⟨matching.frames, matching.body, matching.named, .none⟩
  have entered := enter_matches H inStep { st with pending := none } { su with pending := none } t u alike
    related idle
  rcases matches_pending docs st su matching with ⟨unset, also⟩ | ⟨p, q, set, also, same⟩
  · rw [Scan.read, Scan.read, unset, also]
    refine ⟨.none, enter_matches H inStep st su t u alike related ?_⟩
    exact ⟨matching.frames, matching.body, matching.named, by rw [unset, also]; exact .none⟩
  · rw [Scan.read, Scan.read, set, also]
    dsimp only
    rw [← same.head, ← alike.kind]
    cases head : p.head with
    | ofFunction =>
        have plain : t.text ≠ "&" := by
          intro ampersand
          simp [Scan.passes, set, head, Head.passes, ampersand] at stops
        have also : u.text ≠ "&" := fun text => plain ((alike.mark "&" (by decide)).mpr text)
        dsimp only
        rw [if_neg plain, if_neg also]
        by_cases label : t.kind.isLabel = true
        · rw [if_pos label, if_pos label, alike.label label]
          exact ⟨declare_function_matches docs st su matching p q same u.text, idle⟩
        · rw [if_neg label, if_neg label]
          by_cases closure : t.text = "("
          · rw [if_pos closure, if_pos (parenthesis.mp closure)]
            exact ⟨declare_function_matches docs st su matching p q same closureName, entered⟩
          · rw [if_neg closure, if_neg (fun text => closure (parenthesis.mpr text))]
            exact ⟨.none, entered⟩
    | ofClass =>
        dsimp only
        by_cases label : t.kind.isLabel = true
        · rw [if_pos label, if_pos label, alike.label label]
          refine ⟨.some (declare_class_matches docs st su matching p q same u.text), ?_⟩
          exact ⟨matching.frames, by rw [matching.named], by rw [matching.named], .none⟩
        · rw [if_neg label, if_neg label]
          exact ⟨.none, entered⟩

theorem step_matches (docs : Option Token → Option Token → Prop) (matching : Scan.Matches docs st su)
    (stops : st.passes t = false) :
    Option.Rel (Declaration.Matches docs) (st.step t).2 (su.step u).2 ∧
      Scan.Matches SameVerdict (st.step t).1 (su.step u).1 := by
  have significant : t.trivia = false := by
    rw [Scan.passes, Bool.or_eq_false_iff] at stops
    exact stops.1
  have also : u.trivia = false := alike_trivia t u alike ▸ significant
  obtain ⟨declared, frames, body, named, pending⟩ :=
    read_matches H inStep st su t u alike related docs matching stops
  simp only [Scan.step, significant, also, Bool.false_eq_true, if_false]
  exact ⟨declared, frames, body, named, pending⟩

end

/-! ### Whole streams -/

-- Tokens related by `R` are alike, and histories related by `H` are in step and stay so.
structure Simulates (R : Token → Token → Prop) (H : List Token → List Token → Prop) : Prop where
  alike : ∀ t u, R t u → Alike t u
  inStep : ∀ w v, H w v → InStep H w v
  grow : ∀ t u w v, R t u → H w v → H (t :: w) (u :: v)

theorem before_enter (st : Scan) (t : Token) : (st.enter t).before = st.before := by
  rw [Scan.enter]
  repeat' split
  all_goals rfl

theorem before_read (st : Scan) (t : Token) : (st.read t).1.before = st.before := by
  rw [Scan.read]
  repeat' split
  all_goals first | rfl | rw [before_enter]

theorem before_step (st : Scan) (t : Token) : (st.step t).1.before = t :: st.before := by
  by_cases trivia : t.trivia = true
  · simp [Scan.step, trivia]
  · simp [Scan.step, trivia, before_read]

theorem rel_to_list {α : Type} (P : α → α → Prop) (a b : Option α) (related : Option.Rel P a b) :
    List.Forall₂ P a.toList b.toList := by
  cases related with
  | none => exact .nil
  | some related => exact .cons related .nil

theorem declarations_match (R : Token → Token → Prop) (H : List Token → List Token → Prop)
    (simulates : Simulates R H) (ts us : List Token) (tokens : List.Forall₂ R ts us) (st su : Scan)
    (matching : Scan.Matches SameVerdict st su) (related : H st.before su.before) :
    List.Forall₂ (Declaration.Matches SameVerdict) (st.declarations ts) (su.declarations us) := by
  induction tokens generalizing st su with
  | nil => exact .nil
  | cons same rest ih =>
      rename_i t u ts us
      have alike := simulates.alike t u same
      have grown := simulates.grow t u st.before su.before same related
      rw [Scan.declarations, Scan.declarations]
      by_cases passed : st.passes t = true
      · have also := matches_passes SameVerdict st su t u matching alike ▸ passed
        rw [step_passed st t passed, step_passed su u also]
        exact ih _ _ ⟨matching.frames, matching.body, matching.named, matching.pending⟩ grown
      · have stops : st.passes t = false := Bool.eq_false_iff.mpr passed
        obtain ⟨declared, next⟩ :=
          step_matches H simulates.inStep st su t u alike related SameVerdict matching stops
        apply List.rel_append (rel_to_list _ _ _ declared)
        apply ih _ _ next
        rw [before_step, before_step]
        exact grown

/-! ### Streams that are alike token by token -/

theorem before_group_alike (w v : List Token) (alike : List.Forall₂ Alike w v) (depth : Nat) :
    Option.Rel (List.Forall₂ Alike) (beforeGroup depth w) (beforeGroup depth v) := by
  induction alike generalizing depth with
  | nil => exact .none
  | cons same rest ih => exact before_group_cons_in_step (List.Forall₂ Alike) _ _ _ _ same rest ih depth

theorem alike_simulates : Simulates Alike (List.Forall₂ Alike) := by
  refine ⟨fun t u alike => alike, ?_, fun t u w v alike rest => .cons alike rest⟩
  intro w v alike
  cases alike with
  | nil => exact .start
  | cons same rest => exact .past _ _ _ _ same rest (before_group_alike _ _ rest 0)

end DocAudit.Php

namespace DocAudit

open Php

theorem missing_append (flags : SkipFlags) (ds es : List Declaration) :
    missing flags (ds ++ es) = missing flags ds ++ missing flags es := List.filter_append ..

theorem class_declarations_append (ds es : List Declaration) :
    classDeclarations (ds ++ es) = classDeclarations ds ++ classDeclarations es := List.filter_append ..

theorem misses_match (flags : SkipFlags) (d e : Declaration) (same : Declaration.Matches SameVerdict d e) :
    flags.misses d = flags.misses e := by
  have verdict : d.docblock.isNone = e.docblock.isNone := by
    rw [← Option.not_isSome, ← Option.not_isSome, same.docblock]
  rw [SkipFlags.misses, SkipFlags.misses, verdict, same.kind]

section

variable (docs : Option Token → Option Token → Prop) (ds es : List Declaration)

theorem filter_match (p : Declaration → Bool) (blind : ∀ d e, Declaration.Matches docs d e → p d = p e)
    (same : List.Forall₂ (Declaration.Matches docs) ds es) :
    List.Forall₂ (Declaration.Matches docs) (ds.filter p) (es.filter p) :=
  List.rel_filter (fun d e same => Eq.to_iff (congrArg (· = true) (blind d e same))) same

theorem map_match {α : Type} (f : Declaration → α) (blind : ∀ d e, Declaration.Matches docs d e → f d = f e)
    (same : List.Forall₂ (Declaration.Matches docs) ds es) : ds.map f = es.map f := by
  induction same with
  | nil => rfl
  | cons first rest ih => rw [List.map_cons, List.map_cons, blind _ _ first, ih]

theorem findings_match (path : String) (same : List.Forall₂ (Declaration.Matches docs) ds es) :
    ds.map (Finding.ofDeclaration path) = es.map (Finding.ofDeclaration path) := by
  apply map_match docs ds es _ _ same
  intro d e same
  rw [Finding.ofDeclaration, Finding.ofDeclaration, same.kind, same.name, same.line, same.enclosing]

theorem classes_match (same : List.Forall₂ (Declaration.Matches docs) ds es) :
    (classDeclarations ds).map (fun d => (d.name, d.line)) =
      (classDeclarations es).map fun d => (d.name, d.line) := by
  apply map_match docs
  · intro d e same
    rw [same.name, same.line]
  · apply filter_match docs ds es _ _ same
    intro d e same
    rw [same.kind]

theorem any_charged_match (ordinal : Option Nat) (same : List.Forall₂ (Declaration.Matches docs) ds es) :
    ds.any (·.charged == ordinal) = es.any (·.charged == ordinal) := by
  have charged := map_match docs ds es (·.charged) (fun _ _ same => same.charged) same
  simpa only [List.any_map, Function.comp_def] using congrArg (·.any (· == ordinal)) charged

end

theorem missing_match (flags : SkipFlags) (ds es : List Declaration)
    (same : List.Forall₂ (Declaration.Matches SameVerdict) ds es) :
    List.Forall₂ (Declaration.Matches SameVerdict) (missing flags ds) (missing flags es) :=
  filter_match SameVerdict ds es flags.misses (misses_match flags) same

-- Names and lines come from the declarations, and what is missing decides the rest.
theorem summaries_eq (ds missed : List Declaration) :
    summaries ds missed = ((classDeclarations ds).map fun d => (d.name, d.line)).zipIdx.map
      fun (c, ordinal) => ⟨c.1, c.2, !missed.any (·.charged == some ordinal)⟩ := by
  rw [List.zipIdx_map, List.map_map]
  rfl

theorem scan_match (flags : SkipFlags) (path : String) (ts us : List Token)
    (same : List.Forall₂ (Declaration.Matches SameVerdict) (declarations ts) (declarations us)) :
    scan flags ts path = scan flags us path := by
  have missed := missing_match flags _ _ same
  have clean : summaries (declarations ts) (missing flags (declarations ts)) =
      summaries (declarations us) (missing flags (declarations us)) := by
    rw [summaries_eq, summaries_eq, classes_match SameVerdict _ _ same]
    simp only [any_charged_match SameVerdict _ _ _ missed]
  rw [scan_composed, scan_composed, clean, findings_match SameVerdict _ _ path missed]

theorem scan_alike (flags : SkipFlags) (path : String) (ts us : List Token)
    (alike : List.Forall₂ Alike ts us) : scan flags ts path = scan flags us path := by
  apply scan_match flags path ts us
  exact declarations_match Alike (List.Forall₂ Alike) alike_simulates ts us alike {} {}
    ⟨rfl, rfl, rfl, .none⟩ .nil

end DocAudit
