import ProofDump.Decimal.Nearest

/-!
# Decimal numbers of a dump

A number with a point or an exponent is held as the nearest size of fifty-three binary digits, with a
sign. Comparing it with other numbers and cutting it off at its point are exact. Its text is the
shortest one that leads back to it: positional while the point stands near the digits, with an exponent
elsewhere.
-/

namespace ProofDump

/-- A number with a point: a finite one, or one of the three values that are not finite. -/
inductive Decimal where
  | finite (negative : Bool) (size : Size)
  | infinite (negative : Bool)
  | undefined
  deriving DecidableEq, Repr

/-- Where a number lies: at a quotient, beyond all of them, or nowhere. -/
inductive Place where
  | quotient (numerator : Int) (denominator : Nat)
  | infinite (negative : Bool)
  | undefined

/-- How a place compares with another; nothing compares with nowhere. -/
def Place.compare? : Place → Place → Option Ordering
  | undefined, _ => none
  | _, undefined => none
  | infinite a, infinite b => some (Ord.compare (!a).toNat (!b).toNat)
  | infinite negative, quotient .. => some (if negative then .lt else .gt)
  | quotient .., infinite negative => some (if negative then .gt else .lt)
  | quotient a b, quotient c d => some (Ord.compare (a * d) (c * b))

namespace Decimal

/-- The number of a size, or an infinite one where the size is too large. -/
def ofSize (negative : Bool) : Option Size → Decimal
  | some size => finite negative size
  | none => infinite negative

/-- The number written as `digits * 10 ^ exponent` with the given sign. -/
def ofDigits (negative : Bool) (digits : Nat) (exponent : Int) : Decimal :=
  ofSize negative (Size.ofDecimal? digits exponent)

/-- The number nearest to a quotient. -/
def ofQuotient (numerator : Int) (denominator : Nat) : Decimal :=
  ofSize (numerator < 0) (Size.nearest? numerator.natAbs denominator)

/-- Where a number lies. -/
def place : Decimal → Place
  | finite negative size =>
    let (numerator, denominator) := size.quotient
    .quotient (if negative then -(numerator : Int) else numerator) denominator
  | infinite negative => .infinite negative
  | undefined => .undefined

/-- The integer part, towards zero. -/
def truncate? (number : Decimal) : Option Int :=
  match number.place with
  | .quotient numerator denominator => some (numerator.tdiv denominator)
  | _ => none

/-- The sum of a number and a natural one. -/
def plus (number : Decimal) (amount : Nat) : Decimal :=
  match number.place with
  | .quotient numerator denominator => ofQuotient (numerator + amount * denominator) denominator
  | _ => number

def isZero : Decimal → Bool
  | finite _ size => size.multiple == 0
  | _ => false

/-- Positional text of `digits` with the point after the first `point` of them. -/
def positional (digits : List Char) (point : Int) : List Char :=
  if point ≤ 0 then ['0', '.'] ++ List.replicate (-point).toNat '0' ++ digits
  else if digits.length ≤ point.toNat then
    digits ++ List.replicate (point.toNat - digits.length) '0' ++ ['.', '0']
  else digits.take point.toNat ++ ['.'] ++ digits.drop point.toNat

/-- Text with an exponent, which has a sign and at least two digits. -/
def scientific (digits : List Char) (point : Int) : List Char :=
  let mantissa := match digits with
    | [] => []
    | [d] => [d]
    | d :: rest => d :: '.' :: rest
  let power := point - 1
  let size := (Nat.toDigits 10 power.natAbs)
  mantissa ++ ['e', if power < 0 then '-' else '+'] ++
    (if size.length < 2 then '0' :: size else size)

/-- The text of a number: positional when the point falls from three places before the digits to
sixteen after the first, with an exponent otherwise. -/
def text : Decimal → String
  | finite negative size =>
    let (digits, exponent) := size.shortest
    let figures := Nat.toDigits 10 digits
    let point := exponent + figures.length
    let body := if digits = 0 then ['0', '.', '0']
      else if -4 < point ∧ point ≤ 16 then positional figures point
      else scientific figures point
    String.ofList (if negative then '-' :: body else body)
  | infinite negative => if negative then "-inf" else "inf"
  | undefined => "nan"

end Decimal

end ProofDump
