import DocAudit.Number.Binary64
import DocAudit.Number.Numeral

/-!
The fewest decimal digits that stand for a binary number, and how they are laid out.
-/

set_option autoImplicit false

namespace DocAudit.Number

-- The decimal `0.d₁d₂…` times ten to the power `point`.
structure Decimal where
  digits : List Char
  point : Int
deriving DecidableEq, Repr

-- The decimals that read as one positive number, in quarters of its last place.
structure Neighbourhood where
  low : Nat
  value : Nat
  high : Nat
  closed : Bool
  exponent : Int

-- Below a power of two the neighbours lie closer; a tie reads as the even neighbour.
def neighbourhood (mantissa : Nat) (exponent : Int) : Neighbourhood where
  low := if mantissa = Nat.pow 2 (precision - 1) ∧ leastExponent < exponent then 4 * mantissa - 1
    else 4 * mantissa - 2
  value := 4 * mantissa
  high := 4 * mantissa + 2
  closed := mantissa % 2 == 0
  exponent := exponent - 2

def Neighbourhood.factors (nb : Neighbourhood) (place : Int) : Nat × Nat :=
  let (n10, d10) := powerRatio 10 place
  let (n2, d2) := powerRatio 2 nb.exponent
  (n10 * d2, d10 * n2)

def Neighbourhood.holds (nb : Neighbourhood) (place : Int) (c : Nat) : Bool :=
  let (p, q) := nb.factors place
  if nb.closed then nb.low * q ≤ c * p && c * p ≤ nb.high * q
  else nb.low * q < c * p && c * p < nb.high * q

-- On the grid of multiples of `10 ^ place`, the nearest neighbour of the value that reads as
-- it.
def Neighbourhood.onGrid (nb : Neighbourhood) (place : Int) : Option Nat :=
  let (p, q) := nb.factors place
  let below := nb.value * q / p
  let nearest := roundDiv (nb.value * q) p
  let other := if nearest = below then below + 1 else below
  if nb.holds place nearest then some nearest
  else if nb.holds place other then some other
  else none

-- The place of the leading digit, counted so that `0.1` has place zero.
def leadingPlace (mantissa : Nat) (exponent : Int) : Int :=
  let (n, d) := powerRatio 2 exponent
  Int.ofNat (natDigits (mantissa * n * Nat.pow 10 400 / d)).length - 400

-- Seventeen digits always suffice.
def digitLimit : Nat := 17

def shortest (mantissa : Nat) (exponent : Int) : Decimal :=
  let nb := neighbourhood mantissa exponent
  let lead := leadingPlace mantissa exponent
  let found := (List.range digitLimit).findSome? fun (n : Nat) =>
    let place := lead - Int.ofNat (n + 1)
    (nb.onGrid place).map fun c => ⟨natDigits c, place + (natDigits c).length⟩
  found.getD ⟨natDigits mantissa, 0⟩

def stripZeros (digits : List Char) : List Char :=
  (digits.reverse.dropWhile (· == '0')).reverse

-- Numbers from a ten-thousandth to below ten to the sixteenth have no exponent.
def leastPlainPoint : Int := -3
def greatestPlainPoint : Int := 16

def zeros (n : Nat) : List Char := List.replicate n '0'

def exponentText (e : Int) : List Char :=
  let digits := natDigits e.natAbs
  (if e < 0 then '-' else '+') :: (zeros (2 - digits.length) ++ digits)

def Decimal.layout (d : Decimal) : List Char :=
  let digits := stripZeros d.digits
  if d.point < leastPlainPoint ∨ greatestPlainPoint < d.point then
    let fraction := digits.drop 1
    digits.take 1 ++ (if fraction.isEmpty then [] else '.' :: fraction)
      ++ 'e' :: exponentText (d.point - 1)
  else
    match d.point with
    | .ofNat 0 => '0' :: '.' :: digits
    | .negSucc n => '0' :: '.' :: (zeros (n + 1) ++ digits)
    | .ofNat places =>
      if digits.length ≤ places then digits ++ zeros (places - digits.length) ++ ['.', '0']
      else digits.take places ++ '.' :: digits.drop places

def Binary64.text : Binary64 → String
  | .nan => "nan"
  | .infinite negative => if negative then "-inf" else "inf"
  | .finite negative mantissa exponent =>
    let size := if mantissa = 0 then ['0', '.', '0'] else (shortest mantissa exponent).layout
    String.ofList (if negative then '-' :: size else size)

end DocAudit.Number
