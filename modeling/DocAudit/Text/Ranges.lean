/-!
Character classes given as ranges of code points.
-/

set_option autoImplicit false

namespace DocAudit.Text

abbrev Range := Nat × Nat

def inRanges (ranges : List Range) (c : Char) : Bool :=
  ranges.any fun r => r.1 ≤ c.toNat && c.toNat ≤ r.2

theorem inRanges_iff (ranges : List Range) (c : Char) :
    inRanges ranges c = true ↔ ∃ r ∈ ranges, r.1 ≤ c.toNat ∧ c.toNat ≤ r.2 := by
  simp [inRanges]

end DocAudit.Text
