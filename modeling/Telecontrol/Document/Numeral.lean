/-! # Numerals

A **numeral** is a number as it is written: a sign, digits, a fraction and an exponent. The formats
of documents differ in which numerals they admit; this module holds what they share.

Main statement: `Numeral.digits?_append`, the place-value law of a row of digits. -/

namespace Telecontrol

/-- A number as it is written. -/
structure Numeral where
  /-- The sign, if there is one. -/
  sign : Option Char
  /-- The digits before the point. -/
  whole : List Char
  /-- The digits after the point, if there is a point. -/
  fraction : Option (List Char)
  exponent : Option Int
  deriving DecidableEq, Repr

namespace Numeral

/-- The value of a digit. -/
def digit? (radix : Nat) (c : Char) : Option Nat :=
  let value :=
    if c.isDigit then c.toNat - 48
    else if 'a' ≤ c && c ≤ 'f' then c.toNat - 87
    else if 'A' ≤ c && c ≤ 'F' then c.toNat - 55
    else radix
  if value < radix then some value else none

/-- Read a row of digits after a number that was already read. -/
def digitsFrom? (radix : Nat) : Nat → List Char → Option Nat
  | n, [] => some n
  | n, c :: cs => (digit? radix c).bind fun d => digitsFrom? radix (n * radix + d) cs

/-- The value of a row of digits, which must not be empty. -/
def digits? (radix : Nat) : List Char → Option Nat
  | [] => none
  | cs => digitsFrom? radix 0 cs

/-- Digits that follow others are read after them. -/
theorem digits?_append (radix n : Nat) (cs ds : List Char) :
    digitsFrom? radix n (cs ++ ds) = (digitsFrom? radix n cs).bind (digitsFrom? radix · ds) := by
  induction cs generalizing n with
  | nil => rfl
  | cons c cs ih => cases h : digit? radix c <;> simp [digitsFrom?, h, ih]

/-- A leading sign and what follows it. -/
def splitSign : List Char → Option Char × List Char
  | '-' :: cs => (some '-', cs)
  | '+' :: cs => (some '+', cs)
  | cs => (none, cs)

/-- The value of digits after a sign. -/
def signed? (radix : Nat) (cs : List Char) : Option Int :=
  let (sign, cs) := splitSign cs
  (digits? radix cs).map fun n => if sign = some '-' then -n else n

/-- Read what follows the digits: nothing, or an exponent. -/
def exponent? : List Char → Option (Option Int)
  | [] => some none
  | c :: cs => if c = 'e' ∨ c = 'E' then (signed? 10 cs).map some else none

/-- Read a numeral. It has a digit before or after the point. -/
def read? (cs : List Char) : Option Numeral :=
  let (sign, cs) := splitSign cs
  let whole := cs.takeWhile Char.isDigit
  match cs.dropWhile Char.isDigit with
  | '.' :: rest =>
    let fraction := rest.takeWhile Char.isDigit
    if whole.isEmpty && fraction.isEmpty then none
    else (exponent? (rest.dropWhile Char.isDigit)).map (⟨sign, whole, some fraction, ·⟩)
  | rest => if whole.isEmpty then none else (exponent? rest).map (⟨sign, whole, none, ·⟩)

/-- Whether a numeral has neither fraction nor exponent. -/
def isWhole (n : Numeral) : Bool := n.fraction.isNone && n.exponent.isNone

/-- Whether the digits begin with a zero that could be left out. -/
def hasLeadingZero (n : Numeral) : Bool := n.whole.head? == some '0' && 1 < n.whole.length

/-- The number before the point. -/
def value (n : Numeral) : Int :=
  let digits := (digits? 10 n.whole).getD 0
  if n.sign = some '-' then -digits else digits

/-- Whether a numeral is too large for a binary number of double precision: it would be rounded to
`2 ^ 1024` or more. -/
def isTooLarge (n : Numeral) : Bool :=
  let fraction := n.fraction.getD []
  let digits := (digits? 10 (n.whole ++ fraction)).getD 0
  let exponent := n.exponent.getD 0 - fraction.length
  if digits = 0 then false
  else if 308 < exponent then true
  else if exponent + (n.whole ++ fraction).length < 300 then false
  else
    (Nat.pow 2 1024 - Nat.pow 2 970) * Nat.pow 10 (-exponent).toNat ≤
      digits * Nat.pow 10 exponent.toNat

end Numeral

end Telecontrol
