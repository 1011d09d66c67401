import DocAudit.Php.Tokenization
import DocAudit.Proofs.Php.Relocation

/-!
Layout does not count. A scan of the tokens without the white space among them declares the same,
so its outcome is the same.
-/

set_option autoImplicit false

namespace DocAudit.Php

def withoutLayout (ts : List Token) : List Token := ts.filter (·.kind != .whitespace)

theorem plain_layout (t : Token) (blank : t.kind = .whitespace) (plain : t.text ∉ ["[", "]", "#["]) :
    t.IsLayout := by
  simp only [List.mem_cons, List.not_mem_nil, or_false, not_or] at plain
  exact ⟨blank, plain.2.1, fun opens => opens.elim plain.1 plain.2.2⟩

theorem without_layout_relocated (ts : List Token)
    (plain : ∀ t ∈ ts, t.kind = .whitespace → t.text ∉ ["[", "]", "#["]) :
    Relocated {} [] [] ts (withoutLayout ts) := by
  induction ts with
  | nil => exact .front
  | cons t ts ih =>
      have rest := ih fun u member => plain u (List.mem_cons_of_mem t member)
      by_cases blank : t.kind = .whitespace
      · have left : withoutLayout (t :: ts) = withoutLayout ts := by simp [withoutLayout, blank]
        rw [left]
        exact .blank t ts _ (plain_layout t blank (plain t List.mem_cons_self blank)) rest
      · have kept : withoutLayout (t :: ts) = t.relocate {} :: withoutLayout ts := by simp [withoutLayout, blank]
        rw [kept]
        exact .token t ts _ rest

theorem layout_independence (tokens : List Token)
    (plain : ∀ t ∈ tokens, t.kind = .whitespace → t.text ∉ ["[", "]", "#["]) (flags : SkipFlags) (path : String) :
    scan flags tokens path = scan flags (withoutLayout tokens) path := by
  have stream := without_layout_relocated tokens plain
  have declared : declarations (withoutLayout tokens) = declarations tokens := by
    have run := declarations_relocated {} [] [] dead_end_nil dead_end_nil tokens _ stream {} [] .front
    rw [declaration_stays, List.map_id] at run
    exact run
  rw [scan_composed, scan_composed, declared]

-- White space in an attribute, between a function and its name and in front of an anonymous class.
theorem layout_independence_attribute :
    let tokens := (tokenize
      "<?php /** A */ #[B( [ 1 ] )]\nclass A\x7bfunction & f()\x7bnew \n class\x7bfunction g()\x7b\x7d\x7d;\x7d\x7d").tokens
    (∀ t ∈ tokens, t.kind = .whitespace → t.text ∉ ["[", "]", "#["]) ∧
      scan {} tokens "a.php" = scan {} (withoutLayout tokens) "a.php" ∧
      (withoutLayout tokens).length + 12 = tokens.length ∧
      (scan {} tokens "a.php").findings.map (fun f => (f.className, f.name)) =
        [(some "A", "f"), (some anonymousClassName, "g")] := by
  intro tokens
  have plain : ∀ t ∈ tokens, t.kind = .whitespace → t.text ∉ ["[", "]", "#["] := by decide +kernel
  exact ⟨plain, layout_independence tokens plain {} "a.php", by decide +kernel⟩

end DocAudit.Php
