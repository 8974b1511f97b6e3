import Telecontrol.Proofs.Deferred
import Telecontrol.Proofs.Operate

/-! # Selections that expire

A selection expires once, after its timeout, and does not stand from then on. Its holder is told
once: the tasks that wait to tell it and those that have told it together are as many as the journal
has expiries.

Main statements: `Server.Visited.timeout_le` and `Server.Visited.expiries_le_one` (a selection
expires once, after its timeout) and `Server.Books.move` (every move enters what it tells into the
books). -/

namespace Telecontrol

namespace Server

variable {s s' : Server} {g : Selection}

/-! ## Expiries in the journal -/

/-- A selection has expired when the timeout of the server has passed. -/
theorem Chronicled.isExpired_iff (h : s.Chronicled) :
    s.selections.isExpired s.now g = true ↔ g.created + s.options.selectTimeout ≤ s.now := by
  rw [SelectionTable.isExpired_iff (h.timeout ▸ h.timeout_pos), h.timeout]

/-- A selection expires after its timeout. -/
theorem Visited.timeout_le (h : s.Visited) {u : Int} (hmem : ⟨u, .ended g .expired⟩ ∈ s.journal) :
    g.created + s.options.selectTimeout ≤ u := by
  obtain ⟨newer, older, hj⟩ := List.append_of_mem hmem
  rcases h.recorded hj with he | ⟨v, after, before, hv, hvs, hjust, hu, -⟩
  · cases he
  · obtain ⟨-, hexp⟩ := hjust.ended (List.mem_append_right _ List.mem_cons_self)
    have hu : u = v.now := hu
    rw [hu, hvs.2.1]
    exact hv.chronicled.isExpired_iff.mp (hexp rfl)

/-- What expires was granted before. -/
theorem Visited.granted_of_expired (h : s.Visited) {u : Int}
    (hmem : ⟨u, .ended g .expired⟩ ∈ s.journal) : ∃ t, ⟨t, .granted g⟩ ∈ s.journal := by
  obtain ⟨newer, older, hj⟩ := List.append_of_mem hmem
  rcases h.recorded hj with he | ⟨v, after, before, hv, -, hjust, -, holder, -⟩
  · cases he
  · obtain ⟨hfind, -⟩ := hjust.ended (List.mem_append_right _ List.mem_cons_self)
    have hstands : standing? g.key v.journal = some g :=
      (hv.chronicled.table g.key).symm.trans hfind
    obtain ⟨-, n, t, o, hgrant, -⟩ := (Telecontrol.standing?_eq_some_iff ..).mp hstands
    refine ⟨t, ?_⟩
    rw [hj, holder, hgrant]
    simp

/-- What has expired does not stand any more. -/
theorem Visited.not_standing_of_expired (h : s.Visited) {newer older : List Entry}
    (hj : s.journal = newer ++ older) {u : Int} (hmem : ⟨u, .ended g .expired⟩ ∈ older) :
    standing? g.key older ≠ some g := by
  intro hstands
  obtain ⟨-, n, t, o, holder, hn⟩ := (Telecontrol.standing?_eq_some_iff ..).mp hstands
  have hgrant : s.journal = (newer ++ n) ++ ⟨t, .granted g⟩ :: o := by
    rw [hj, holder, List.append_assoc]
  have hcreated := (h.granted hgrant).1
  have htimeout := h.timeout_le (hj ▸ List.mem_append_right _ hmem)
  have hpos := h.chronicled.timeout_pos
  have hordered : older.Pairwise fun a b => b.time ≤ a.time :=
    (List.pairwise_append.mp (hj ▸ h.chronicled.ordered)).2.1
  rw [holder] at hmem hordered
  rcases List.mem_append.mp hmem with hmem | hmem
  -- an expiry after the grant supersedes it
  · have hnot := hn _ hmem
    simp [Event.supersedes] at hnot
  -- an expiry before the grant would be before the timeout
  · rcases List.mem_cons.mp hmem with he | hmem
    · cases he
    · have hle : u ≤ t := (List.pairwise_cons.mp (List.pairwise_append.mp hordered).2.1).1 _ hmem
      omega

/-- A selection expires when the journal says so. -/
theorem expiries_pos_iff {journal : List Entry} :
    0 < expiries g journal ↔ ∃ u, ⟨u, .ended g .expired⟩ ∈ journal := by
  rw [expiries, List.countP_pos_iff]
  constructor
  · rintro ⟨⟨u, e⟩, hmem, hexp⟩
    obtain rfl := Event.isExpiryOf_iff.mp hexp
    exact ⟨u, hmem⟩
  · rintro ⟨u, hmem⟩
    exact ⟨_, hmem, Event.isExpiryOf_iff.mpr rfl⟩

/-- A selection expires at most once. -/
theorem Visited.expiries_le_one (h : s.Visited) (g : Selection) : expiries g s.journal ≤ 1 := by
  induction h with
  | new h =>
    obtain rfl := new_eq_ok h
    exact Nat.zero_le 1
  | @move s s' d hs hm ih =>
    obtain ⟨events, hrec, hjust⟩ := hm.history hs.chronicled.keyed
    rw [hrec.journal, expiries_append, expiries, List.countP_map]
    by_cases hpos : 0 < expiries g s.journal
    · -- it has expired before, so it is not stored any more and does not expire again
      obtain ⟨u, hmem⟩ := expiries_pos_iff.mp hpos
      have hnone : events.countP (Event.isExpiryOf g) = 0 := by
        refine Event.countP_isExpiryOf_eq_zero fun he => ?_
        refine hs.not_standing_of_expired (List.nil_append s.journal).symm hmem ?_
        exact (hs.chronicled.table g.key).symm.trans (hjust.ended he).1
      show events.countP (Event.isExpiryOf g) + _ ≤ 1
      omega
    · show events.countP (Event.isExpiryOf g) + _ ≤ 1
      have hle := hjust.expired g
      omega

/-! ## The books -/

/-- The **books** of a selection: how often its holder was told, as against its expiries. -/
structure Books (g : Selection) (told : Nat) (s : Server) : Prop where
  le : told + s.awaiting g ≤ expiries g s.journal
  eq : s.executor.running = true → told + s.awaiting g = expiries g s.journal

/-- The books of a new server are empty. -/
theorem books_new {options : Options} {transport : Transport} {now : Int}
    (h : Server.new options transport now = .ok s) (g : Selection) : Books g 0 s := by
  obtain rfl := new_eq_ok h
  exact ⟨Nat.le_refl _, fun _ => rfl⟩

/-- A move enters what it tells into the books. -/
theorem Books.move {d : Deed} {told : Nat} (h : Books g told s) (hs : s.Visited)
    (hm : Move d s s') : Books g (told + (d.tells g).toNat) s' := by
  have hrequeues := hm.requeues hs.wellFormed hs.chronicled.keyed
  constructor
  · have hle := h.le
    have htold := hrequeues.told_le g
    omega
  · intro hrun
    have heq := h.eq (hrequeues.running hrun)
    have htold := hrequeues.told_eq hrun g
    omega

/-- Moves that take no task leave the books as they are. -/
theorem Books.moves {told : Nat} (h : Books g told s) (hs : s.Visited)
    (hm : Moves {d | d.IsIdle} s s') : Books g told s' := by
  refine (hm.induction (P := fun u => u.Visited ∧ Books g told u) (fun hd hm hu => ?_) ⟨hs, h⟩).2
  have hbooks := hu.2.move hu.1 hm
  rw [Deed.tells_of_isIdle hd] at hbooks
  exact ⟨hu.1.move hm, hbooks⟩

end Server

end Telecontrol
