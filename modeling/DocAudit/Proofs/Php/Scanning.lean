import DocAudit.Proofs.Pass
import DocAudit.Proofs.Php.ScanStep
import DocAudit.Proofs.Php.Spelling

/-!
The scan of a whole token stream. It finds the declarations that the positions give, in the order
of their keywords; the findings are those among them that are checked and have no docblock.
-/

set_option autoImplicit false

namespace DocAudit.Php

section

variable (ts : List Token) (taken : Nat → Bool)

theorem end_undeclared (waiting : Option (Nat × Head)) (st : Scan)
    (follows : Follows ts taken ts.length waiting st) : waitingDeclaration ts taken waiting = none := by
  match waiting with
  | none => rfl
  | some (j, head) =>
      have absent : nextToken ts head j = none := by
        rw [nextToken, next_at_end ts head.passes j follows.passed]
        rfl
      cases head with
      | ofFunction => simp [waitingDeclaration, declarationAt, follows.awaits, absent]
      | ofClass =>
          have nameless : classNameAt ts taken j = none := by simp [classNameAt, absent]
          exact silent_declares ts taken j (class_not_function ts taken j follows.awaits) nameless

section

variable (fixed : ∀ n, taken n = isName ts taken n) (spelled : ∀ u ∈ ts, WellSpelled u)

include fixed spelled

theorem run_declarations (n k : Nat) (waiting : Option (Nat × Head)) (st : Scan) (total : k + n = ts.length)
    (follows : Follows ts taken k waiting st) :
    st.declarations (ts.drop k) = (waitingDeclaration ts taken waiting).toList ++
      (List.range' k n).filterMap (declarationAt ts taken) := by
  induction n generalizing k waiting st with
  | zero =>
      have atEnd : k = ts.length := total
      subst atEnd
      simp [Scan.declarations, end_undeclared ts taken waiting st follows]
  | succ n ih =>
      have bound : k < ts.length := by omega
      have here : ts[k]? = some ts[k] := List.getElem?_eq_getElem bound
      obtain ⟨next, after, declared⟩ := step_follows ts taken fixed spelled k waiting st ts[k] follows here
      rw [List.drop_eq_getElem_cons bound, Scan.declarations, ih (k + 1) next _ (by omega) after,
        ← List.append_assoc, declared, List.append_assoc, List.range'_succ]
      cases found : declarationAt ts taken k <;> simp [found]

end

theorem start_follows : Follows ts taken 0 none {} := by
  refine ⟨⟨rfl, rfl⟩, rfl, rfl, rfl, ?_⟩
  intro head j early
  omega

end

theorem declarations_by_position (ts : List Token) (spelled : ∀ u ∈ ts, WellSpelled u) :
    declarations ts = (List.range ts.length).filterMap (declarationAt ts (takenAt ts)) := by
  have run := run_declarations ts (takenAt ts) (taken_at_is_name ts) spelled ts.length 0 none {}
    (Nat.zero_add _) (start_follows ts (takenAt ts))
  rw [List.range_eq_range']
  exact run

-- The state after all of these tokens.
def scanAfter (ts : List Token) : Scan := ts.foldl (fun st t => (st.step t).1) {}

theorem scan_after_follows (ts : List Token) (spelled : ∀ u ∈ ts, WellSpelled u) (k : Nat) (le : k ≤ ts.length) :
    ∃ waiting, Follows ts (takenAt ts) k waiting (scanAfter (ts.take k)) := by
  induction k with
  | zero => exact ⟨none, start_follows ts (takenAt ts)⟩
  | succ k ih =>
      obtain ⟨waiting, follows⟩ := ih (by omega)
      have here : ts[k]? = some ts[k] := List.getElem?_eq_getElem le
      obtain ⟨next, after, -⟩ := step_follows ts (takenAt ts) (taken_at_is_name ts) spelled k waiting _ ts[k] follows here
      refine ⟨next, ?_⟩
      rw [List.take_add_one, here, Option.toList_some, scanAfter, List.foldl_append]
      exact after

theorem scan_frames_by_position (ts : List Token) (spelled : ∀ u ∈ ts, WellSpelled u) (k : Nat)
    (le : k ≤ ts.length) :
    (scanAfter (ts.take k)).frames = (openBraces ts k).map (ownerAt ts (takenAt ts)) := by
  obtain ⟨waiting, follows⟩ := scan_after_follows ts spelled k le
  cases waiting with
  | none => exact follows.frames
  | some pending => exact follows.frames

/-! ### Tokens of a source -/

theorem label_not_closure_name (text : List Char) (label : IsLabel text) : String.ofList text ≠ closureName := by
  intro same
  obtain ⟨c, w, rfl, start, rest⟩ := label
  have chars : c :: w = closureName.toList := by simpa using congrArg String.toList same
  have blank : ' ' ∈ w := by
    have inside : ' ' ∈ c :: w := by
      rw [chars]
      decide
    rcases List.mem_cons.mp inside with first | later
    · subst first
      exact absurd start (by decide)
    · exact later
  exact absurd (rest ' ' blank) (by decide)

theorem brace_shape (shape : Shape) (brace : shape.kind.isBrace = true) :
    shape = .openBrace ∨ shape = .closeBrace := by
  cases shape <;> simp_all [Shape.kind, TokenKind.isBrace]

theorem label_shape (shape : Shape) (label : shape.kind.isLabel = true) :
    shape = .keyword ∨ shape = .name := by
  cases shape <;> simp_all [Shape.kind, TokenKind.isLabel]

theorem token_label (source : String) (t : Token) (member : t ∈ (tokenize source).tokens)
    (label : t.kind.isLabel = true) : ∃ text, t.text = String.ofList text ∧ IsLabel text := by
  obtain ⟨l, spelling, kind, text⟩ := tokenize_spelling source t member
  refine ⟨l.text, text, ?_⟩
  rcases label_shape l.shape (kind ▸ label) with shape | shape
  · rw [shape] at spelling
    exact spelling
  · rw [shape] at spelling
    exact spelling

theorem tokenize_well_spelled (source : String) : ∀ t ∈ (tokenize source).tokens, WellSpelled t := by
  intro t member
  refine ⟨?_, ?_⟩
  · intro brace ampersand
    obtain ⟨l, spelling, kind, text⟩ := tokenize_spelling source t member
    rw [text] at ampersand
    have chars : l.text = "&".toList := by simpa using congrArg String.toList ampersand
    rcases brace_shape l.shape (kind ▸ brace) with shape | shape
    · rw [shape, chars] at spelling
      have impossible : "&".toList = ['{'] := spelling
      exact absurd impossible (by decide)
    · rw [shape, chars] at spelling
      have impossible : "&".toList = ['}'] := spelling
      exact absurd impossible (by decide)
  · intro label
    obtain ⟨text, spelled, isLabel⟩ := token_label source t member label
    exact spelled ▸ label_not_closure_name text isLabel

def findingAt (flags : SkipFlags) (path : String) (ts : List Token) (k : Nat) : Option Finding :=
  ((declarationAt ts (takenAt ts) k).filter fun d => d.docblock.isNone && flags.checks d.kind).map
    (Finding.ofDeclaration path)

theorem missing_by_position (flags : SkipFlags) (path : String) (ts : List Token) (positions : List Nat) :
    (missing flags (positions.filterMap (declarationAt ts (takenAt ts)))).map (Finding.ofDeclaration path) =
      positions.filterMap (findingAt flags path ts) := by
  rw [missing, List.filter_filterMap, List.map_filterMap]
  rfl

theorem findings_by_position (source : String) (flags : SkipFlags) (path : String) :
    (scan flags (tokenize source).tokens path).findings =
      (List.range (tokenize source).tokens.length).filterMap (findingAt flags path (tokenize source).tokens) := by
  rw [← missing_by_position flags path, ← declarations_by_position _ (tokenize_well_spelled source), scan_findings]

theorem scan_findings_by_position (source : String) (flags : SkipFlags) (path : String) :
    (∀ n, takenAt (tokenize source).tokens n =
      isName (tokenize source).tokens (takenAt (tokenize source).tokens) n) ∧
    (scan flags (tokenize source).tokens path).findings =
      (List.range (tokenize source).tokens.length).filterMap
        (findingAt flags path (tokenize source).tokens) :=
  ⟨taken_at_is_name _, findings_by_position source flags path⟩

end DocAudit.Php
