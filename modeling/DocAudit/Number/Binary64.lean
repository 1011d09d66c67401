/-!
Numbers of 64 bits with a binary point. A decimal stands for the nearest of them, and of two that
are equally near for the even one.
-/

set_option autoImplicit false

namespace DocAudit.Number

-- A finite number is `mantissa * 2 ^ exponent`, up to its sign.
inductive Binary64 where
  | nan
  | infinite (negative : Bool)
  | finite (negative : Bool) (mantissa : Nat) (exponent : Int)
deriving DecidableEq, Repr

-- A power whose exponent may be negative, as a numerator and a denominator.
def powerRatio (base : Nat) : Int → Nat × Nat
  | .ofNat e => (base.pow e, 1)
  | .negSucc e => (1, base.pow (e + 1))

-- The nearest integer to a quotient; a tie goes to the even one.
def roundDiv (num den : Nat) : Nat :=
  let q := num / den
  let r := num % den
  if 2 * r < den then q
  else if den < 2 * r then q + 1
  else if q % 2 = 0 then q else q + 1

def leastExponent : Int := -1074
def greatestExponent : Int := 971

def precision : Nat := 53

-- The exponent at which `num / den` has a mantissa of full precision, or the least one.
def exponentOf (num den : Nat) : Int :=
  let guess : Int := Int.ofNat num.log2 - Int.ofNat den.log2 - (precision - 1)
  let (n, d) := powerRatio 2 (-guess)
  let exponent := if num * n < Nat.pow 2 (precision - 1) * (den * d) then guess - 1 else guess
  max exponent leastExponent

namespace Binary64

def ofRatio (negative : Bool) (num den : Nat) : Binary64 :=
  let exponent := exponentOf num den
  let (n, d) := powerRatio 2 (-exponent)
  let mantissa := roundDiv (num * n) (den * d)
  if mantissa = Nat.pow 2 precision then
    if greatestExponent ≤ exponent then .infinite negative
    else .finite negative (Nat.pow 2 (precision - 1)) (exponent + 1)
  else if greatestExponent < exponent then .infinite negative
  else .finite negative mantissa exponent

-- Ten to this power is beyond every finite number, and its inverse is nearest to zero.
def farPower : Int := 400

def ofDecimal (negative : Bool) (digits places : Nat) (exponent : Int) : Binary64 :=
  if digits = 0 ∨ places + exponent < -farPower then .finite negative 0 leastExponent
  else if farPower < exponent then .infinite negative
  else
    let (n, d) := powerRatio 10 exponent
    ofRatio negative (digits * n) d

def isFinite : Binary64 → Bool
  | .finite _ _ _ => true
  | _ => false

def toInt? : Binary64 → Option Int
  | .finite negative mantissa exponent =>
    let (n, d) := powerRatio 2 exponent
    if mantissa * n % d = 0 then
      let size : Int := Int.ofNat (mantissa * n / d)
      some (if negative then -size else size)
    else none
  | _ => none

def lessThan (x : Binary64) (bound : Int) : Bool :=
  match x with
  | .nan => false
  | .infinite negative => negative
  | .finite negative mantissa exponent =>
    let (n, d) := powerRatio 2 exponent
    let size : Int := Int.ofNat (mantissa * n)
    (if negative then -size else size) < bound * d

end Binary64

end DocAudit.Number
