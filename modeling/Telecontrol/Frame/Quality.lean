/-! # Quality descriptors

A value is sent with a **quality descriptor**: one octet with five flags. The other three bits of
the octet carry nothing; reading drops them. Main statements: `Quality.ofByte_toByte` and
`Quality.toByte_ofByte`. -/

namespace Telecontrol

/-- The flags of a **quality descriptor**. -/
structure Quality where
  /-- The value is beyond its range. -/
  overflow : Bool := false
  /-- A local lock blocks the transmission. -/
  blocked : Bool := false
  /-- An operator or an automatic source supplied the value. -/
  substituted : Bool := false
  /-- The value was not renewed in the last period. -/
  notTopical : Bool := false
  /-- The value is not valid. -/
  invalid : Bool := false
  deriving DecidableEq, Repr, Inhabited

namespace Quality

/-- The quality without a flag. -/
def good : Quality := {}

/-- The bit of a flag, if it is set. -/
def bit (flag : Bool) (mask : UInt8) : UInt8 := if flag then mask else 0

/-- The octet of a descriptor. -/
def toByte (q : Quality) : UInt8 :=
  bit q.overflow 0x01 ||| bit q.blocked 0x10 ||| bit q.substituted 0x20 |||
    bit q.notTopical 0x40 ||| bit q.invalid 0x80

/-- The descriptor of an octet; bits without a meaning are dropped. -/
def ofByte (b : UInt8) : Quality where
  overflow := b &&& 0x01 != 0
  blocked := b &&& 0x10 != 0
  substituted := b &&& 0x20 != 0
  notTopical := b &&& 0x40 != 0
  invalid := b &&& 0x80 != 0

/-- Whether no flag is set. -/
def isGood (q : Quality) : Bool := q.toByte == 0

/-- Reading what was written gives the descriptor back. -/
@[simp] theorem ofByte_toByte (q : Quality) : ofByte q.toByte = q := by
  obtain ⟨a, b, c, d, e⟩ := q
  cases a <;> cases b <;> cases c <;> cases d <;> cases e <;> rfl

/-- Writing what was read keeps the five meaningful bits. -/
theorem toByte_ofByte (b : UInt8) : (ofByte b).toByte = b &&& 0xF1 := by
  have key : ∀ n : Fin 256, (ofByte (UInt8.ofFin n)).toByte = UInt8.ofFin n &&& 0xF1 := by
    decide +kernel
  exact key b.toFin

/-- A descriptor is good exactly when it has no flag. -/
theorem isGood_iff (q : Quality) : q.isGood = true ↔ q = good := by
  obtain ⟨a, b, c, d, e⟩ := q
  cases a <;> cases b <;> cases c <;> cases d <;> cases e <;> decide

end Quality

end Telecontrol
