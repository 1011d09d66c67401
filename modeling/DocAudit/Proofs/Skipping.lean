import DocAudit.Php.Tokenization
import DocAudit.Proofs.Php.Resemblance

/-!
Skip flags only filter. The pass looks at them where it notes a finding and nowhere else. What is
declared, which class answers for it and what documents it are the same for any flags, so flags take
findings away and add none.
-/

set_option autoImplicit false

namespace DocAudit

open Php

theorem default_checks (kind : DeclarationKind) : SkipFlags.checks {} kind = true := by
  cases kind <;> rfl

theorem misses_checked (flags : SkipFlags) (d : Declaration) :
    flags.misses d = (SkipFlags.misses {} d && flags.checks d.kind) := by
  rw [SkipFlags.misses, SkipFlags.misses, default_checks, Bool.and_true]

section

variable (flags : SkipFlags) (ds : List Declaration)

theorem missing_checked : missing flags ds = (missing {} ds).filter fun d => flags.checks d.kind := by
  rw [missing, missing, List.filter_filter]
  apply List.filter_congr
  intro d _
  rw [misses_checked, Bool.and_comm]

theorem findings_checked (path : String) :
    (missing flags ds).map (Finding.ofDeclaration path) =
      ((missing {} ds).map (Finding.ofDeclaration path)).filter fun f => flags.checks f.kind := by
  rw [missing_checked, List.filter_map]
  rfl

-- What nothing missing is charged to is charged with nothing when less is missing.
theorem unskipped_charges (ordinal : Option Nat)
    (clean : (missing {} ds).any (·.charged == ordinal) = false) :
    (missing flags ds).any (·.charged == ordinal) = false := by
  rw [List.any_eq_false] at clean ⊢
  intro d member
  rw [missing_checked] at member
  exact clean d (List.mem_of_mem_filter member)

end

-- The same class, clean at least where it was.
def NoDirtier (c d : ClassSummary) : Prop :=
  d.name = c.name ∧ d.line = c.line ∧ (c.clean = true → d.clean = true)
deriving Decidable

theorem summaries_no_dirtier (ds missed fewer : List Declaration)
    (kept : ∀ ordinal : Option Nat, missed.any (·.charged == ordinal) = false →
      fewer.any (·.charged == ordinal) = false) :
    List.Forall₂ NoDirtier (summaries ds missed) (summaries ds fewer) := by
  rw [summaries, summaries, List.forall₂_map_left_iff, List.forall₂_map_right_iff, List.forall₂_same]
  rintro ⟨d, ordinal⟩ _
  refine ⟨rfl, rfl, ?_⟩
  intro clean
  have none := kept (some ordinal) ((Bool.not_eq_true' _).mp clean)
  exact (Bool.not_eq_true' _).mpr none

theorem missing_narrowed (narrow wide : SkipFlags)
    (skips : ∀ kind, wide.checks kind = true → narrow.checks kind = true) (ds : List Declaration) :
    (missing wide ds).Sublist (missing narrow ds) := by
  apply List.monotone_filter_right
  intro d missed
  rw [misses_checked, Bool.and_eq_true] at missed ⊢
  exact ⟨missed.1, skips d.kind missed.2⟩

theorem skip_flags_filter (flags : SkipFlags) (tokens : List Token) (path : String) :
    (scan flags tokens path).findings =
        (scan {} tokens path).findings.filter (fun f => flags.checks f.kind) ∧
      List.Forall₂ NoDirtier (scan {} tokens path).classes (scan flags tokens path).classes ∧
      ∀ wide : SkipFlags, (∀ kind, wide.checks kind = true → flags.checks kind = true) →
        (scan wide tokens path).findings.Sublist (scan flags tokens path).findings := by
  refine ⟨?_, ?_, ?_⟩
  · rw [scan_findings, scan_findings]
    exact findings_checked flags (declarations tokens) path
  · rw [scan_classes, scan_classes]
    apply summaries_no_dirtier
    exact unskipped_charges flags (declarations tokens)
  · intro wide skips
    rw [scan_findings, scan_findings]
    exact (missing_narrowed flags wide skips (declarations tokens)).map (Finding.ofDeclaration path)

-- A class with a method and a closure: without closures the method stays, without methods nothing.
theorem skip_flags_filter_closure :
    let tokens := (tokenize "<?php class A \x7bfunction f() \x7breturn function () \x7b\x7d;\x7d\x7d").tokens
    let closures : SkipFlags := { closures := true }
    let methods : SkipFlags := { classes := true, methods := true }
    (scan {} tokens "a.php").findings.map (·.kind) = [.classDecl, .method, .closure] ∧
      (scan closures tokens "a.php").findings.map (·.kind) = [.classDecl, .method] ∧
      (scan closures tokens "a.php").findings =
        (scan {} tokens "a.php").findings.filter (fun f => closures.checks f.kind) ∧
      (scan methods tokens "a.php").findings.Sublist (scan closures tokens "a.php").findings := by
  intro tokens closures methods
  have filtered := skip_flags_filter closures tokens "a.php"
  have skips : ∀ kind, methods.checks kind = true → closures.checks kind = true := by
    intro kind
    cases kind <;> decide
  exact ⟨by decide +kernel, by decide +kernel, filtered.1, filtered.2.2 methods skips⟩

end DocAudit
