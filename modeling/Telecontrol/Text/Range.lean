/-! # Ranges of characters

A property of characters that no rule describes is a list of **ranges**, each with its first and its
last character.

Main statement: `CharRanges.contains_iff`. -/

namespace Telecontrol

/-- Ranges of characters, by the numbers of their first and last ones. -/
abbrev CharRanges := List (Nat × Nat)

namespace CharRanges

/-- Whether a character lies in one of the ranges. -/
def contains (r : CharRanges) (c : Char) : Bool :=
  r.any fun (low, high) => low ≤ c.toNat && c.toNat ≤ high

/-- A character is in ranges exactly when it lies between the ends of one of them. -/
theorem contains_iff {r : CharRanges} {c : Char} :
    r.contains c = true ↔ ∃ e ∈ r, e.1 ≤ c.toNat ∧ c.toNat ≤ e.2 := by
  simp [contains]

end CharRanges

end Telecontrol
