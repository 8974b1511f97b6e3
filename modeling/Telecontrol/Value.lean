import Telecontrol.Decimal.Shortest

/-! # Values

The **value** of a point is a binary64 number. A controlled station passes values through and never
computes with them, so a value is its bit pattern, and two values are equal when all their bits are,
payloads of not-a-numbers included. -/

namespace Telecontrol

/-- A **value**: the 64 bits of a binary floating-point number. -/
structure Value where
  bits : UInt64
  deriving DecidableEq, Repr, Inhabited

namespace Value

/-- Positive zero. -/
def zero : Value := ⟨0⟩

/-- How a shortest decimal is written: positional from `smallest` up to below `largest` (as powers
of ten of the first digit), else with an exponent. -/
structure Layout where
  smallest : Int
  largest : Int

/-- A value is written positionally from 0.0001 up to below 10 ^ 16. -/
def shown : Layout := ⟨-4, 16⟩

/-- The digits of a decimal with its point; `places` counts the digits before the point. -/
def positional (digits : List Char) (places : Int) : String :=
  if places ≤ 0 then
    "0." ++ String.ofList (List.replicate (-places).toNat '0' ++ digits)
  else
    let whole := digits.take places.toNat
    let rest := digits.drop places.toNat
    String.ofList (whole ++ List.replicate (places.toNat - whole.length) '0') ++ "." ++
      (if rest.isEmpty then "0" else String.ofList rest)

/-- One digit before the point, an exponent behind. -/
def scientific (digits : List Char) (exponent : Int) : String :=
  let fraction := digits.drop 1
  String.ofList (digits.take 1) ++
    (if fraction.isEmpty then "" else "." ++ String.ofList fraction) ++
    "e" ++ toString exponent

/-- The text of a value: the fewest digits that read back as the value. -/
def text (v : Value) : String :=
  let sign := if v.bits >>> 63 == 1 then "-" else ""
  if (v.bits >>> 52) &&& 0x7FF == 0x7FF then
    if v.bits &&& 0xFFFFFFFFFFFFF == 0 then sign ++ "inf" else "NaN"
  else
    match Binary.ofBits? v.bits with
    | none => sign ++ "0.0"
    | some b =>
      let d := b.shortest.normalize
      let digits := Nat.toDigits 10 d.digits
      let first : Int := digits.length - 1 + d.exponent
      sign ++ if shown.smallest ≤ first && first < shown.largest then
        positional digits (first + 1)
      else scientific digits first

end Value

end Telecontrol
