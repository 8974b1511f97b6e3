/-! # The shortest decimal of a binary number

A finite binary floating-point number stands for a dyadic fraction `m · 2 ^ q`; every real of the
interval half-way to its neighbours is read back as the same number. The **shortest decimal** is
the decimal with the fewest digits in that interval, and of those the nearest to the number.

`Binary` is such a number with its interval; `Binary.shortest` walks through the grids of decimals
with 1, 2, … 17 digits and takes the first grid that meets the interval. All arithmetic is exact. -/

namespace Telecontrol

/-- A positive **binary number** `mantissa · 2 ^ exponent`. -/
structure Binary where
  mantissa : Nat
  exponent : Int
  /-- The number below is only half as far away: the mantissa is the smallest of its exponent. -/
  narrowBelow : Bool
  deriving DecidableEq, Repr

/-- A **decimal** `digits · 10 ^ exponent`. -/
structure Decimal where
  digits : Nat
  exponent : Int
  deriving DecidableEq, Repr

/-- The number of decimal digits of a natural number, at least one. -/
def digitCount (n : Nat) : Nat := (Nat.toDigits 10 n).length

namespace Binary

/-- The numerators of the lower end, the value and the upper end of the interval over the common
denominator `4 · 2 ^ (-exponent)` (or over `4`, when the exponent is not negative). -/
def bounds (b : Binary) : Nat × Nat × Nat :=
  let scale := Nat.pow 2 b.exponent.toNat
  let value := 4 * b.mantissa * scale
  (value - (if b.narrowBelow then 1 else 2) * scale, value, value + 2 * scale)

/-- The common denominator of the interval's ends. -/
def denominator (b : Binary) : Nat := 4 * Nat.pow 2 (-b.exponent).toNat

/-- The fraction `num / den` on the grid of `10 ^ e`: numerator and denominator of its quotient. -/
def onGrid (num den : Nat) (e : Int) : Nat × Nat :=
  (num * Nat.pow 10 (-e).toNat, den * Nat.pow 10 e.toNat)

/-- Whether `n · 10 ^ e` lies in the interval; its ends belong to it when the mantissa is even. -/
def covers (b : Binary) (n : Nat) (e : Int) : Bool :=
  let (low, _, high) := b.bounds
  let (low, den) := onGrid low b.denominator e
  let (high, _) := onGrid high b.denominator e
  if b.mantissa % 2 == 0 then low ≤ n * den && n * den ≤ high
  else low < n * den && n * den < high

/-- The better of the two neighbours of the number on the grid of `10 ^ e`, if one is covered. -/
def nearestOn (b : Binary) (e : Int) : Option Nat :=
  let (num, den) := onGrid b.bounds.2.1 b.denominator e
  let below := num / den
  let above := below + 1
  -- both neighbours may be covered: the nearer one counts, of two as near the greater one
  match b.covers below e && below != 0, b.covers above e with
  | true, true => some (if 2 * (num % den) < den then below else above)
  | true, false => some below
  | false, true => some above
  | false, false => none

/-- The place of the first digit: the largest `e` with `10 ^ e` not above the number. -/
def magnitude (b : Binary) : Int :=
  let (num, den) := (b.bounds.2.1, b.denominator)
  if den ≤ num then digitCount (num / den) - 1
  else
    -- the number is below one: count the places until the first digit
    let k : Int := digitCount (den / num)
    if num * Nat.pow 10 (k - 1).toNat < den then -k else -(k - 1)

/-- Search the grids of the magnitude `place` with `digits`, `digits + 1`, … digits. -/
def search (b : Binary) (place : Int) (digits : Nat) : Nat → Decimal
  | 0 => ⟨b.mantissa, 0⟩
  | tries + 1 =>
    let e := place + 1 - digits
    match b.nearestOn e with
    | some n => ⟨n, e⟩
    | none => search b place (digits + 1) tries

/-- The shortest decimal that reads back as the number; seventeen digits always suffice. -/
def shortest (b : Binary) : Decimal := b.search b.magnitude 1 17

end Binary

/-- Strip zeros from the end of a decimal's digits. -/
def Decimal.normalize (d : Decimal) : Decimal :=
  let ds := (Nat.toDigits 10 d.digits).reverse
  let zeros := (ds.takeWhile (· == '0')).length
  if d.digits == 0 then d else ⟨d.digits / Nat.pow 10 zeros, d.exponent + zeros⟩

/-- The number of a binary64 bit pattern without its sign; `none` for zero, the infinities and the
values that are not numbers. -/
def Binary.ofBits? (bits : UInt64) : Option Binary :=
  let fraction := (bits &&& 0xFFFFFFFFFFFFF).toNat
  let biased := ((bits >>> 52) &&& 0x7FF).toNat
  if biased == 0x7FF then none
  else if biased == 0 then
    if fraction == 0 then none else some ⟨fraction, -1074, false⟩
  else some ⟨fraction + 0x10000000000000, biased - 1075, fraction == 0 && 1 < biased⟩

end Telecontrol
