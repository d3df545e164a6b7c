/-!
# Sizes of fifty-three binary digits

A number with a point is held with fifty-three binary digits: its size is the nearest multiple of a
power of two with so many, a tie going to the even multiple. The power has a least value, at which the
digits get fewer, and there is a largest size. In decimal digits a size is written with the fewest that
lead back to it, and of those with the nearest.
-/

namespace ProofDump

/-- The size `multiple * 2 ^ power`. -/
structure Size where
  multiple : Nat
  power : Int
  deriving DecidableEq, Repr

namespace Size

/-- The least power of two. -/
def leastPower : Int := -1074

/-- The number that multiples stay below. -/
def multipleBound : Nat := 1 <<< 53

/-- The size of nothing. -/
def zero : Size := ⟨0, leastPower⟩

/-- A quotient to the nearest integer, a tie to the even one. -/
def roundedQuotient (numerator denominator : Nat) : Nat :=
  let quotient := numerator / denominator
  let twice := 2 * (numerator % denominator)
  if twice < denominator ∨ (twice = denominator ∧ quotient % 2 = 0) then quotient
  else quotient + 1

/-- A quotient divided by a power of a base, as a quotient. -/
def scaled (base numerator denominator : Nat) (power : Int) : Nat × Nat :=
  if 0 ≤ power then (numerator, denominator * Nat.pow base power.toNat)
  else (numerator * Nat.pow base (-power).toNat, denominator)

/-- The power of two whose multiples a quotient is rounded to. -/
def powerFor (numerator denominator : Nat) : Int :=
  let guess : Int := (numerator.log2 : Int) - denominator.log2 - 53
  let (above, below) := scaled 2 numerator denominator guess
  max leastPower (if above / below < multipleBound then guess else guess + 1)

/-- A multiple of a power of two as a size, unless it is larger than the largest. -/
def ofMultiple? (multiple : Nat) (power : Int) : Option Size :=
  let size := if multiple = multipleBound then ⟨multipleBound / 2, power + 1⟩ else ⟨multiple, power⟩
  if 971 < size.power then none else some size

/-- The size nearest to a quotient, unless that is too large. -/
def nearest? (numerator denominator : Nat) : Option Size :=
  if numerator = 0 then some zero
  else
    let power := powerFor numerator denominator
    let (above, below) := scaled 2 numerator denominator power
    ofMultiple? (roundedQuotient above below) power

/-- A size as a quotient. -/
def quotient (size : Size) : Nat × Nat := scaled 2 size.multiple 1 (-size.power)

/-- The number of decimal digits of an integer. -/
def places (n : Nat) : Nat := (Nat.toDigits 10 n).length

/-- The size nearest to `digits * 10 ^ exponent`, unless that is too large. Exponents far outside the
range of sizes are decided without computing their powers. -/
def ofDecimal? (digits : Nat) (exponent : Int) : Option Size :=
  if digits = 0 then some zero
  else if 400 < exponent + places digits then none
  else if exponent + places digits < -400 then some zero
  else
    let (numerator, denominator) := scaled 10 digits 1 (-exponent)
    nearest? numerator denominator

/-- The power of ten of the first decimal digit of a size that is not zero. -/
def leading (size : Size) : Int :=
  let (numerator, denominator) := size.quotient
  if denominator ≤ numerator then (places (numerator / denominator) : Int) - 1
  else -(places (denominator / numerator) : Int)

/-- Digits and exponent of the decimal number with this many digits that is nearest to a size among
those that lead back to it. -/
def digitsOf? (size : Size) (count : Nat) : Option (Nat × Int) :=
  let exponent := size.leading - count + 1
  let (numerator, denominator) := size.quotient
  let (above, below) := scaled 10 numerator denominator exponent
  let near := roundedQuotient above below
  let far := if near = above / below then near + 1 else near - 1
  ([near, far].find? fun digits => ofDecimal? digits exponent = some size).map fun digits =>
    if digits = Nat.pow 10 count then (1, exponent + count) else (digits, exponent)

/-- The fewest decimal digits that lead back to a size, with their exponent. Seventeen digits always
do. -/
def shortest (size : Size) : Nat × Int :=
  if size.multiple = 0 then (0, 0)
  else (((List.range 17).findSome? fun count => digitsOf? size (count + 1)).getD (0, 0))

end Size

end ProofDump
