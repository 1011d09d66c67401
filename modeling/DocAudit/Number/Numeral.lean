/-!
Decimal numerals of integers.
-/

set_option autoImplicit false

namespace DocAudit.Number

def digitChar (d : Nat) : Char := Char.ofNat (48 + d)

def digitValue (c : Char) : Nat := c.toNat - 48

def natDigits (n : Nat) : List Char :=
  if n < 10 then [digitChar n] else natDigits (n / 10) ++ [digitChar (n % 10)]
termination_by n

def natValue (digits : List Char) : Nat :=
  digits.foldl (fun n c => 10 * n + digitValue c) 0

def intDigits : Int → List Char
  | .ofNat n => natDigits n
  | .negSucc n => '-' :: natDigits (n + 1)

def numeral (n : Int) : String := String.ofList (intDigits n)

theorem digitValue_digitChar {d : Nat} (h : d < 10) : digitValue (digitChar d) = d := by
  have : ∀ d, d < 10 → digitValue (digitChar d) = d := by decide
  exact this d h

theorem natValue_natDigits (n : Nat) : natValue (natDigits n) = n := by
  fun_induction natDigits n with
  | case1 n h => simp [natValue, digitValue_digitChar h]
  | case2 n h ih =>
    have := digitValue_digitChar (show n % 10 < 10 by omega)
    simp only [natValue, List.foldl_append, List.foldl_cons, List.foldl_nil, this] at ih ⊢
    omega

end DocAudit.Number
