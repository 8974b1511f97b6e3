import Mathlib.Algebra.Group.Int.Defs
import Telecontrol.Proofs.Deadlines
import Telecontrol.Proofs.Staffing

/-! # Instants that are spaced

What happens now and then in a run has **instants**. When it happens only after an interval has
passed since a mark, and then moves the mark to the present, the mark is the last instant at any
time, and the instants are an interval apart. Whether the interval has passed is then known from the
instants alone.

Main statements: `Server.Spaced.concat` (one more step) and `Server.Spaced.passed_iff`. -/

namespace Telecontrol

/-- An interval of a clock has passed since each of some instants. -/
def Overdue (interval : UInt64) (now : Int) (instants : List Int) : Prop :=
  0 < interval ∧ ∀ t ∈ instants, t + interval.toNat ≤ now

/-- The clock as a count is the clock while that is a number of 64 bits. -/
theorem toNat_clockCount {now : Int} (h : 0 ≤ now) (hlt : now < 2 ^ 64) :
    ((clockCount now).toNat : Int) = now := by
  rw [clockCount, Nat.toUInt64, UInt64.toNat_ofNat_of_lt' (by simp only [UInt64.size]; omega)]
  exact Int.toNat_of_nonneg h

namespace Server

variable {s : Server} {n : Server → Input → Nat} {inp : Input} {before inputs : List Input}
  {interval mark : UInt64}

/-! ## Instants -/

/-- The instants at which something happens in the steps of a run, each as often as it happens, the
earliest first. -/
def instants (s : Server) (n : Server → Input → Nat) : List Input → List Int
  | [] => []
  | inp :: rest => List.replicate (n s inp) s.now ++ (s.step inp).instants n rest

/-- The last input of a run adds its instants at the end. -/
theorem instants_concat (s : Server) (before : List Input) (inp : Input) :
    s.instants n (before ++ [inp]) =
      s.instants n before ++ List.replicate (n (s.run before) inp) (s.run before).now := by
  induction before generalizing s with
  | nil => exact List.append_nil _
  | cons first rest ih =>
    rw [List.cons_append, instants, ih, instants, List.append_assoc]
    rfl

/-- The last of the instants, or the beginning of the run. -/
def latest (s : Server) (n : Server → Input → Nat) (inputs : List Input) : Int :=
  (s.instants n inputs).getLastD s.now

/-- The last instant is one of them, or the beginning of the run. -/
theorem latest_mem (s : Server) (n : Server → Input → Nat) (inputs : List Input) :
    s.latest n inputs ∈ s.now :: s.instants n inputs := List.getLastD_mem_cons ..

/-! ## Spaced instants -/

/-- What happens in a run is **spaced** by an interval: the instants are that far apart, the
beginning among them, and the mark is the last one. -/
structure Spaced (n : Server → Input → Nat) (interval mark : UInt64) (s : Server)
    (inputs : List Input) : Prop where
  mark_eq : mark = clockCount (s.latest n inputs)
  apart : (s.now :: s.instants n inputs).Pairwise fun t t' : Int => t + interval.toNat ≤ t'
  le_latest : ∀ t ∈ s.now :: s.instants n inputs, t ≤ s.latest n inputs
  latest_le : s.latest n inputs ≤ (s.run inputs).now

/-- Nothing has happened at the beginning. -/
theorem spaced_nil (s : Server) (n : Server → Input → Nat) (interval : UInt64) :
    Spaced n interval (clockCount s.now) s [] where
  mark_eq := rfl
  apart := List.pairwise_singleton ..
  le_latest t ht := by
    rw [List.mem_singleton.mp ht]
    exact Int.le_refl _
  latest_le := Int.le_refl _

/-- The interval has passed since the mark when it has passed since all instants. -/
theorem Spaced.passed_iff (h : Spaced n interval mark s inputs) (hstart : 0 ≤ s.now)
    (hclock : (s.run inputs).now < 2 ^ 64) :
    Point.Passed mark interval (s.run inputs).now ↔
      Overdue interval (s.run inputs).now (s.now :: s.instants n inputs) := by
  have hfirst := h.le_latest s.now List.mem_cons_self
  have hlast := h.latest_le
  have hmark : (mark.toNat : Int) = s.latest n inputs := by
    rw [h.mark_eq, toNat_clockCount (by omega) (by omega)]
  have hnow : ((clockCount (s.run inputs).now).toNat : Int) = (s.run inputs).now :=
    toNat_clockCount (by omega) hclock
  refine and_congr_right fun _ => ⟨fun hle t ht => ?_, fun hall => ?_⟩
  · have ht := h.le_latest t ht
    omega
  · have hle := hall _ (s.latest_mem n inputs)
    omega

/-- One more step: if it happens now, the interval has passed and the mark is moved. -/
theorem Spaced.concat (h : Spaced n interval mark s before) {happens : Bool}
    (hn : n (s.run before) inp = if happens then 1 else 0)
    (hdue : happens = true →
      Overdue interval (s.run before).now (s.now :: s.instants n before))
    (hle : (s.run before).now ≤ (s.run (before ++ [inp])).now) :
    Spaced n interval (if happens then clockCount (s.run before).now else mark) s
      (before ++ [inp]) := by
  have hinstants := s.instants_concat (n := n) before inp
  rw [hn] at hinstants
  cases happens with
  | false =>
    have hsame : s.instants n (before ++ [inp]) = s.instants n before :=
      hinstants.trans (List.append_nil _)
    have hlast : s.latest n (before ++ [inp]) = s.latest n before := by rw [latest, hsame, latest]
    exact ⟨hlast ▸ h.mark_eq, hsame ▸ h.apart, hsame ▸ hlast ▸ h.le_latest,
      hlast ▸ Int.le_trans h.latest_le hle⟩
  | true =>
    obtain ⟨-, hall⟩ := hdue rfl
    have hmore : s.instants n (before ++ [inp]) = s.instants n before ++ [(s.run before).now] :=
      hinstants
    have hlast : s.latest n (before ++ [inp]) = (s.run before).now := by
      rw [latest, hmore, List.getLastD_concat]
    -- the new instant is the last one, and an interval away from all before it
    refine ⟨congrArg clockCount hlast.symm, ?_, fun t ht => ?_, hlast ▸ hle⟩
    · rw [hmore, ← List.cons_append, List.pairwise_append]
      exact ⟨h.apart, List.pairwise_singleton .., fun t ht u hu =>
        List.mem_singleton.mp hu ▸ hall t ht⟩
    · rw [hlast]
      rw [hmore, ← List.cons_append, List.mem_append, List.mem_singleton] at ht
      rcases ht with ht | rfl
      · exact Int.le_trans (h.le_latest t ht) h.latest_le
      · exact Int.le_refl _

end Server

end Telecontrol
