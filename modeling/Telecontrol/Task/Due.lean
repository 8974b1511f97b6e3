/-! # When a task is due

A task is due **immediately** or **at** an instant. Immediate tasks come before all timed ones;
timed tasks come in the order of their instants. -/

namespace Telecontrol

/-- When a task may start. -/
inductive Due where
  /-- At once, before any timed task. -/
  | immediate
  /-- Once the clock has reached the instant. -/
  | timed (time : Int)
  deriving DecidableEq, Repr

namespace Due

/-- A negative delay means at once. -/
def ofDelay (delay : Int) (now : Int) : Due :=
  if delay < 0 then .immediate else .timed (now + delay)

/-- The earlier of two dues. -/
def Earlier : Due → Due → Prop
  | .immediate, .timed _ => True
  | .timed s, .timed t => s < t
  | _, .immediate => False

instance : LT Due := ⟨Earlier⟩

instance decidableEarlier : (d e : Due) → Decidable (d < e)
  | .immediate, .timed _ => .isTrue trivial
  | .timed s, .timed t => inferInstanceAs (Decidable (s < t))
  | .immediate, .immediate => .isFalse id
  | .timed _, .immediate => .isFalse id

/-- What is due at once comes before what is due at a time. -/
@[simp] theorem immediate_lt_timed (t : Int) : (immediate : Due) < .timed t := trivial

/-- Nothing comes before what is due at once. -/
@[simp] theorem not_lt_immediate (d : Due) : ¬ d < immediate := by
  cases d <;> exact id

/-- The earlier of two times comes first. -/
@[simp] theorem timed_lt_timed (s t : Int) : (Due.timed s < Due.timed t) ↔ s < t := Iff.rfl

/-- Which of two dues comes first. -/
def compare (d e : Due) : Ordering := if d < e then .lt else if e < d then .gt else .eq

/-- Whether the task may start. -/
def isReady : Due → Int → Bool
  | .immediate, _ => true
  | .timed t, now => t ≤ now

/-- How late a task starts; an immediate task is never late. -/
def lateness : Due → Int → Nat
  | .immediate, _ => 0
  | .timed t, now => (now - t).toNat

/-- Whether the task is not tied to an instant. -/
def isImmediate : Due → Bool
  | .immediate => true
  | .timed _ => false

/-- What comes before the first of two comes before the second. -/
theorem lt_trans {a b c : Due} (h : a < b) (h' : b < c) : a < c := by
  cases a <;> cases b <;> cases c <;> simp_all
  omega

/-- Nothing comes before itself. -/
theorem lt_irrefl (d : Due) : ¬ d < d := by
  cases d <;> simp

/-- Of two different dues one comes before the other. -/
theorem eq_of_not_lt {a b : Due} (h : ¬ a < b) (h' : ¬ b < a) : a = b := by
  cases a <;> cases b <;> simp_all
  omega

/-- What a due is compared to: with the earlier one ready, so is the task. -/
theorem isReady_of_lt {a b : Due} {now : Int} (h : a < b) (hb : b.isReady now = true) :
    a.isReady now = true := by
  cases a <;> cases b <;> simp_all [isReady]
  omega

end Due

end Telecontrol
