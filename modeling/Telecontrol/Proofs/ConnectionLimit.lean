import Mathlib.Data.Set.Card
import Telecontrol.Proofs.Bookkeeping
import Telecontrol.Proofs.Effects

/-! # The limit of connections

A peer asks before it connects, and a server with a limit refuses when as many connections are open.
A connection that was accepted counts only from its first event on. Between the two its place is
**reserved**, but nobody looks at that: other peers are accepted meanwhile.

A history of requests and events is **orderly** when the first event of each connection opens it
after a request of its own was accepted, and nothing is heard of a connection that was closed. At
the end of an orderly history the limit can be exceeded by events alone exactly when more places are
reserved than there are; and that comes from nothing else than accepting a peer while as many places
as there are were reserved.

Main statements: `Server.Orderly.subset_reserved` (open connections have reserved places),
`Server.Orderly.opens_all` (all reserved places may be taken), `Server.encard_reserved_le` and
`Server.limit_law`. -/

namespace Telecontrol

/-- What reaches a server from its transport: a peer asks for a connection, or something happens to
a connection. -/
inductive Arrival where
  | request (connection : ConnectionId) (peer : String)
  | event (connection : ConnectionId) (event : ConnectionEvent)

namespace Arrival

/-- An arrival as an input. -/
def input : Arrival → Input
  | .request _ peer => .request peer
  | .event c e => .connection c e

/-- Whether an arrival is an event. -/
def IsEvent : Arrival → Prop
  | .request .. => False
  | .event .. => True

end Arrival

namespace Server

variable {s : Server} {h later : List Arrival} {c d : ConnectionId}

/-! ## Histories -/

/-- The state after a history. -/
def meet (s : Server) (h : List Arrival) : Server := s.run (h.map Arrival.input)

/-- Whether a peer may connect. -/
def accepts (s : Server) (peer : String) : Bool := (s.onRequest peer).2

/-- A request for a connection was **accepted**. -/
def Accepted (s : Server) (h : List Arrival) (c : ConnectionId) : Prop :=
  ∃ before peer, before ++ [.request c peer] <+: h ∧ (s.meet before).accepts peer = true

/-- Something was **heard** of a connection. -/
def Heard (h : List Arrival) (c : ConnectionId) : Prop := ∃ e, .event c e ∈ h

/-- A history is **orderly** when the first event of each connection opens it after a request of its
own was accepted, and nothing is heard of a connection that was closed. -/
def Orderly (s : Server) (h : List Arrival) : Prop :=
  ∀ before c e, before ++ [.event c e] <+: h →
    .event c .closed ∉ before ∧ (¬ Heard before c → e = .opened ∧ s.Accepted before c)

/-- The connections with a **reserved** place: accepted and not closed. -/
def reserved (s : Server) (h : List Arrival) : Set ConnectionId :=
  {c | s.Accepted h c ∧ .event c .closed ∉ h}

/-- The last arrival is met last. -/
theorem meet_concat (s : Server) (h : List Arrival) (x : Arrival) :
    s.meet (h ++ [x]) = (s.meet h).step x.input := by
  rw [meet, List.map_append, run_append]
  rfl

/-- What comes before the last arrival of a prefix. -/
theorem concat_prefix_concat {before : List Arrival} {x y : Arrival} :
    before ++ [x] <+: h ++ [y] ↔ (before = h ∧ x = y) ∨ before ++ [x] <+: h := by
  rw [List.prefix_concat_iff]
  refine or_congr_left ⟨fun heq => ?_, fun ⟨hb, hx⟩ => by rw [hb, hx]⟩
  obtain ⟨hb, hx⟩ := List.append_inj' heq rfl
  exact ⟨hb, List.singleton_inj.mp hx⟩

/-- Who was accepted stays so. -/
theorem Accepted.mono (ha : s.Accepted h c) (hpre : h <+: later) : s.Accepted later c := by
  obtain ⟨before, peer, hbefore, hacc⟩ := ha
  exact ⟨before, peer, hbefore.trans hpre, hacc⟩

/-- Nobody is accepted before the first arrival. -/
theorem not_accepted_nil : ¬ s.Accepted [] c := by
  rintro ⟨before, peer, hbefore, -⟩
  exact List.append_ne_nil_of_right_ne_nil before (List.cons_ne_nil _ [])
    (List.prefix_nil.mp hbefore)

/-- A request accepts its connection or nobody. -/
theorem accepted_request {peer : String} : s.Accepted (h ++ [.request d peer]) c ↔
    s.Accepted h c ∨ d = c ∧ (s.meet h).accepts peer = true := by
  constructor
  · rintro ⟨before, peer', hbefore, hacc⟩
    rcases concat_prefix_concat.mp hbefore with ⟨rfl, heq⟩ | hbefore
    · obtain ⟨rfl, rfl⟩ := Arrival.request.inj heq
      exact .inr ⟨rfl, hacc⟩
    · exact .inl ⟨before, peer', hbefore, hacc⟩
  · rintro (ha | ⟨rfl, hacc⟩)
    · exact ha.mono (List.prefix_append ..)
    · exact ⟨h, peer, List.prefix_refl _, hacc⟩

/-- An event accepts nobody. -/
theorem accepted_event {e : ConnectionEvent} :
    s.Accepted (h ++ [.event d e]) c ↔ s.Accepted h c := by
  refine ⟨fun ⟨before, peer, hbefore, hacc⟩ => ?_, fun ha => ha.mono (List.prefix_append ..)⟩
  rcases concat_prefix_concat.mp hbefore with ⟨-, heq⟩ | hbefore
  · cases heq
  · exact ⟨before, peer, hbefore, hacc⟩

/-- Events accept nobody. -/
theorem accepted_append (hlater : ∀ x ∈ later, x.IsEvent) :
    s.Accepted (h ++ later) c ↔ s.Accepted h c := by
  induction later using List.reverseRecOn with
  | nil => rw [List.append_nil]
  | append_singleton later x ih =>
    cases x with
    | request => exact (hlater _ (List.mem_append_right _ List.mem_cons_self)).elim
    | event d e =>
      rw [← List.append_assoc, accepted_event,
        ih fun x hx => hlater x (List.mem_append_left _ hx)]

/-- No arrivals are orderly. -/
theorem orderly_nil (s : Server) : s.Orderly [] := fun before _ _ hbefore =>
  absurd (List.prefix_nil.mp hbefore)
    (List.append_ne_nil_of_right_ne_nil before (List.cons_ne_nil _ []))

/-- What came before in an orderly history is orderly. -/
theorem Orderly.of_prefix (ho : s.Orderly later) (hpre : h <+: later) : s.Orderly h :=
  fun before c e hbefore => ho before c e (hbefore.trans hpre)

/-- A peer may ask at any time. -/
theorem Orderly.request (ho : s.Orderly h) (c : ConnectionId) (peer : String) :
    s.Orderly (h ++ [.request c peer]) := by
  intro before d e hbefore
  rcases concat_prefix_concat.mp hbefore with ⟨-, heq⟩ | hbefore
  · cases heq
  · exact ho before d e hbefore

/-- What may be heard next of a connection. -/
theorem Orderly.event (ho : s.Orderly h) {e : ConnectionEvent} (hclosed : .event c .closed ∉ h)
    (hfirst : ¬ Heard h c → e = .opened ∧ s.Accepted h c) : s.Orderly (h ++ [.event c e]) := by
  intro before d e' hbefore
  rcases concat_prefix_concat.mp hbefore with ⟨rfl, heq⟩ | hbefore
  · obtain ⟨rfl, rfl⟩ := Arrival.event.inj heq
    exact ⟨hclosed, hfirst⟩
  · exact ho before d e' hbefore

/-- What was heard of was accepted. -/
theorem Orderly.accepted_of_heard (ho : s.Orderly h) (hc : Heard h c) : s.Accepted h c := by
  induction h using List.reverseRecOn with
  | nil =>
    obtain ⟨e, he⟩ := hc
    cases he
  | append_singleton h x ih =>
    have hpre : h <+: h ++ [x] := List.prefix_append ..
    by_cases hheard : Heard h c
    · exact (ih (ho.of_prefix hpre) hheard).mono hpre
    · obtain ⟨e, he⟩ := hc
      rcases List.mem_append.mp he with he | he
      · exact absurd ⟨e, he⟩ hheard
      · obtain rfl := List.mem_singleton.mp he
        exact ((ho h c e (List.prefix_refl _)).2 hheard).2.mono hpre

/-! ## Open connections -/

/-- A request changes neither the connections nor what decides about later ones. -/
theorem step_request (s : Server) (peer : String) :
    (s.step (.request peer)).connections = s.connections ∧
      (s.step (.request peer)).options = s.options ∧
      (s.step (.request peer)).callbacks = s.callbacks := by
  rcases s.step_request_cases peer with h | h | h
  · rw [h]
    exact ⟨rfl, rfl, rfl⟩
  · rw [h]
    exact ⟨rfl, rfl, rfl⟩
  · rw [h]
    exact ⟨rfl, rfl, rfl⟩

/-- Neither the limit nor who is let in is changed by a history. -/
theorem meet_fields (s : Server) (h : List Arrival) :
    (s.meet h).options = s.options ∧ (s.meet h).callbacks = s.callbacks := by
  induction h using List.reverseRecOn with
  | nil => exact ⟨rfl, rfl⟩
  | append_singleton h x ih =>
    rw [meet_concat]
    cases x with
    | request c peer =>
      obtain ⟨-, hoptions, hcallbacks⟩ := (s.meet h).step_request peer
      exact ⟨hoptions.trans ih.1, hcallbacks.trans ih.2⟩
    | event c e =>
      show ((s.meet h).onConnectionEvent c e).options = _ ∧
        ((s.meet h).onConnectionEvent c e).callbacks = _
      rw [onConnectionEvent_eq]
      exact ih

/-- A peer is let in when the callback that is asked lets it in; if there is none, every peer is. -/
def LetsIn (s : Server) (peer : String) : Prop :=
  ∀ admission, s.callbacks.admission = some admission → admission.admits peer = true

/-- A peer is accepted when fewer connections are open than there may be, and it is let in. -/
theorem accepts_iff {peer : String} (hm : 0 < s.options.maxOpen) : s.accepts peer = true ↔
    s.connections.openCount < s.options.maxOpen ∧ s.LetsIn peer := by
  rw [accepts, onRequest, LetsIn]
  by_cases hfull : s.options.maxOpen ≤ s.connections.openCount
  · simp [hm, hfull]
  · cases hadm : s.callbacks.admission with
    | none => simp [hfull, Nat.lt_of_not_le hfull]
    | some admission => simp [hfull, Nat.lt_of_not_le hfull]

/-- In an orderly history a connection is open from its first event until it is closed. -/
theorem Orderly.isOpen_iff (ho : s.Orderly h) (hs : s.connections = .none) :
    (s.meet h).connections.isOpen c = true ↔ Heard h c ∧ .event c .closed ∉ h := by
  induction h using List.reverseRecOn with
  | nil =>
    show s.connections.isOpen c = true ↔ _
    rw [hs]
    constructor
    · intro hopen
      cases hopen
    · rintro ⟨⟨e, he⟩, -⟩
      cases he
  -- one arrival more
  | append_singleton h x ih =>
    have ih := ih (ho.of_prefix (List.prefix_append ..))
    rw [meet_concat]
    cases x with
    | request d peer =>
      rw [show (Arrival.request d peer).input = .request peer from rfl, (step_request ..).1, ih]
      simp [Heard]
    | event d e =>
      show ((s.meet h).onConnectionEvent d e).connections.isOpen c = true ↔ _
      rw [onConnectionEvent_eq, Connections.isOpen_iff, Connections.state?_onEvent]
      -- a connection that was closed is heard of no more, so its last event decides
      by_cases hc : c = d
      · subst hc
        have hclosed := (ho h c e (List.prefix_refl _)).1
        rw [if_pos rfl, Connections.isSome_stateAfter]
        simp [Heard, hclosed, eq_comm]
      · rw [if_neg hc, ← Connections.isOpen_iff, ih]
        simp [Heard, hc]

/-- Open connections have reserved places. -/
theorem Orderly.subset_reserved (ho : s.Orderly h) (hs : s.connections = .none) :
    ((s.meet h).connections.openOnes : Set ConnectionId) ⊆ s.reserved h := by
  intro c hc
  obtain ⟨hheard, hclosed⟩ := (ho.isOpen_iff hs).mp (Connections.mem_openOnes.mp hc)
  exact ⟨ho.accepted_of_heard hheard, hclosed⟩

/-- As many connections are open as the table counts. -/
theorem encard_openOnes (s : Server) :
    (s.connections.openOnes : Set ConnectionId).encard = s.connections.openCount := by
  rw [Set.encard_coe_eq_coe_finsetCard, Connections.card_openOnes]

/-- No more connections are open than have a reserved place. -/
theorem Orderly.openCount_le (ho : s.Orderly h) (hs : s.connections = .none) :
    ((s.meet h).connections.openCount : ℕ∞) ≤ (s.reserved h).encard :=
  encard_openOnes (s.meet h) ▸ Set.encard_le_encard (ho.subset_reserved hs)

/-! ## Reserved places -/

/-- Only finitely many places are ever reserved. -/
theorem finite_reserved (s : Server) (h : List Arrival) : (s.reserved h).Finite := by
  refine Set.Finite.subset (s := {c | s.Accepted h c}) ?_ fun c hc => hc.1
  induction h using List.reverseRecOn with
  | nil => exact Set.Finite.subset Set.finite_empty fun c hc => (not_accepted_nil hc).elim
  | append_singleton h x ih =>
    cases x with
    | event d e => exact ih.subset fun c hc => accepted_event.mp hc
    | request d peer =>
      refine (ih.insert d).subset fun c hc => ?_
      exact (accepted_request.mp hc).elim .inr fun ⟨heq, _⟩ => .inl heq.symm

/-- Connections that were accepted and of which nothing was heard may open, one after the other. -/
theorem Orderly.opens (ho : s.Orderly h) {pending : List ConnectionId} (hnodup : pending.Nodup)
    (hpending : ∀ c ∈ pending, s.Accepted h c ∧ ¬ Heard h c) :
    s.Orderly (h ++ pending.map (.event · .opened)) := by
  induction pending generalizing h with
  | nil => rwa [List.map_nil, List.append_nil]
  | cons c pending ih =>
    obtain ⟨hnot, hnodup⟩ := List.nodup_cons.mp hnodup
    obtain ⟨hacc, hunheard⟩ := hpending c List.mem_cons_self
    have hnext : s.Orderly (h ++ [.event c .opened]) :=
      ho.event (fun hclosed => hunheard ⟨_, hclosed⟩) fun _ => ⟨rfl, hacc⟩
    rw [List.map_cons, ← List.singleton_append, ← List.append_assoc]
    refine ih hnext hnodup fun d hd => ?_
    obtain ⟨hacc, hunheard⟩ := hpending d (List.mem_cons_of_mem _ hd)
    refine ⟨accepted_event.mpr hacc, fun ⟨e, he⟩ => ?_⟩
    rcases List.mem_append.mp he with he | he
    · exact hunheard ⟨e, he⟩
    · obtain ⟨rfl, -⟩ := Arrival.event.inj (List.mem_singleton.mp he)
      exact hnot hd

/-- All reserved places may be taken: some events are orderly, and afterwards everybody with a
reserved place is there. -/
theorem Orderly.opens_all (ho : s.Orderly h) (hs : s.connections = .none) :
    ∃ later, (∀ x ∈ later, x.IsEvent) ∧ s.Orderly (h ++ later) ∧
      (s.reserved h).encard ≤ (s.meet (h ++ later)).connections.openCount := by
  classical
  -- those who have a place and were not heard of yet open now
  let pending := ((s.finite_reserved h).toFinset.filter fun c => ¬ Heard h c).toList
  have hmem {c : ConnectionId} : c ∈ pending ↔ c ∈ s.reserved h ∧ ¬ Heard h c := by
    simp [pending]
  have hopens : s.Orderly (h ++ pending.map (.event · .opened)) :=
    ho.opens (Finset.nodup_toList _) fun c hc => ⟨(hmem.mp hc).1.1, (hmem.mp hc).2⟩
  refine ⟨pending.map (.event · .opened), fun x hx => ?_, hopens, ?_⟩
  · obtain ⟨c, -, rfl⟩ := List.mem_map.mp hx
    trivial
  · rw [← encard_openOnes]
    refine Set.encard_le_encard fun c hc => ?_
    refine Connections.mem_openOnes.mpr ((hopens.isOpen_iff hs).mpr ⟨?_, fun hclosed => ?_⟩)
    · by_cases hheard : Heard h c
      · obtain ⟨e, he⟩ := hheard
        exact ⟨e, List.mem_append_left _ he⟩
      · exact ⟨.opened, List.mem_append_right _
          (List.mem_map_of_mem (f := (Arrival.event · .opened)) (hmem.mpr ⟨hc, hheard⟩))⟩
    · rcases List.mem_append.mp hclosed with hclosed | hclosed
      · exact hc.2 hclosed
      · obtain ⟨d, -, heq⟩ := List.mem_map.mp hclosed
        cases heq

/-- If peers are accepted only while fewer places are reserved than there are, no more are ever
reserved. -/
theorem encard_reserved_le {m : ℕ∞}
    (hspare : ∀ before c peer, before ++ [.request c peer] <+: h →
      (s.meet before).accepts peer = true → (s.reserved before).encard < m) :
    (s.reserved h).encard ≤ m := by
  induction h using List.reverseRecOn with
  | nil =>
    rw [show s.reserved [] = ∅ from Set.eq_empty_of_forall_notMem fun c hc => not_accepted_nil hc.1,
      Set.encard_empty]
    exact zero_le
  | append_singleton h x ih =>
    have hpre : h <+: h ++ [x] := List.prefix_append ..
    have ih := ih fun before c peer hbefore => hspare before c peer (hbefore.trans hpre)
    have hclosed {c : ConnectionId} (hc : .event c .closed ∉ h ++ [x]) : .event c .closed ∉ h :=
      fun hin => hc (List.mem_append_left _ hin)
    cases x with
    -- an event reserves nothing
    | event d e =>
      have hsub : s.reserved (h ++ [.event d e]) ⊆ s.reserved h := fun c hc =>
        ⟨accepted_event.mp hc.1, hclosed hc.2⟩
      exact (Set.encard_le_encard hsub).trans ih
    | request d peer =>
      -- one place more, and there was one to spare
      by_cases hacc : (s.meet h).accepts peer = true
      · have hsub : s.reserved (h ++ [.request d peer]) ⊆ insert d (s.reserved h) := fun c hc =>
          (accepted_request.mp hc.1).elim (fun ha => .inr ⟨ha, hclosed hc.2⟩)
            fun ⟨heq, _⟩ => .inl heq.symm
        calc (s.reserved (h ++ [.request d peer])).encard
            ≤ (insert d (s.reserved h)).encard := Set.encard_le_encard hsub
          _ ≤ (s.reserved h).encard + 1 := Set.encard_insert_le _ _
          _ ≤ m := Order.add_one_le_of_lt (hspare h d peer (List.prefix_refl _) hacc)
      · -- the peer is refused
        have hsub : s.reserved (h ++ [.request d peer]) ⊆ s.reserved h := fun c hc =>
          ⟨(accepted_request.mp hc.1).resolve_right fun hnew => hacc hnew.2, hclosed hc.2⟩
        exact (Set.encard_le_encard hsub).trans ih

/-! ## The limit -/

/-- **What the limit of connections limits.** At a server with a limit and no connections, after
every orderly history of requests and events: a peer is accepted exactly when fewer connections are
open than the limit allows and the callback lets it in, whoever else was accepted and is not there
yet. So events alone can exceed the limit exactly when more places are reserved than there are. The
limit holds if every peer was accepted while fewer places were reserved than there are, and in
particular if nobody was accepted while another peer was still expected. -/
theorem limit_law (hs : s.connections = .none) (hm : 0 < s.options.maxOpen) (ho : s.Orderly h) :
    (∀ peer, (s.meet h).accepts peer = true ↔
      (s.meet h).connections.openCount < s.options.maxOpen ∧ s.LetsIn peer) ∧
    ((∃ later, (∀ x ∈ later, x.IsEvent) ∧ s.Orderly (h ++ later) ∧
        s.options.maxOpen < (s.meet (h ++ later)).connections.openCount) ↔
      s.options.maxOpen < (s.reserved h).encard) ∧
    ((∀ before c peer, before ++ [.request c peer] <+: h → (s.meet before).accepts peer = true →
        (s.reserved before).encard < s.options.maxOpen) →
      (s.meet h).connections.openCount ≤ s.options.maxOpen) ∧
    ((∀ before c peer, before ++ [.request c peer] <+: h → (s.meet before).accepts peer = true →
        ∀ d, s.Accepted before d → Heard before d) →
      (s.meet h).connections.openCount ≤ s.options.maxOpen) := by
  have haccepts (h : List Arrival) (peer : String) : (s.meet h).accepts peer = true ↔
      (s.meet h).connections.openCount < s.options.maxOpen ∧ s.LetsIn peer := by
    obtain ⟨hoptions, hcallbacks⟩ := s.meet_fields h
    rw [accepts_iff (by rwa [hoptions]), hoptions, LetsIn, hcallbacks, LetsIn]
  have hspare : (∀ before c peer, before ++ [.request c peer] <+: h →
      (s.meet before).accepts peer = true → (s.reserved before).encard < s.options.maxOpen) →
      (s.meet h).connections.openCount ≤ s.options.maxOpen := fun hspare => by
    exact_mod_cast (ho.openCount_le hs).trans (encard_reserved_le hspare)
  refine ⟨haccepts h, ⟨?_, fun hover => ?_⟩, hspare, fun hserial => hspare ?_⟩
  · rintro ⟨later, hevents, ho', hover⟩
    have hsub : s.reserved (h ++ later) ⊆ s.reserved h := fun c hc =>
      ⟨(accepted_append hevents).mp hc.1, fun hin => hc.2 (List.mem_append_left _ hin)⟩
    calc (s.options.maxOpen : ℕ∞)
        < (s.meet (h ++ later)).connections.openCount := by exact_mod_cast hover
      _ ≤ (s.reserved (h ++ later)).encard := ho'.openCount_le hs
      _ ≤ (s.reserved h).encard := Set.encard_le_encard hsub
  · obtain ⟨later, hevents, ho', hall⟩ := ho.opens_all hs
    exact ⟨later, hevents, ho', by exact_mod_cast hover.trans_le hall⟩
  · -- whoever has a reserved place is there already
    intro before c peer hbefore hacc
    have hob : s.Orderly before := ho.of_prefix ((List.prefix_append ..).trans hbefore)
    have hthere : s.reserved before ⊆ (s.meet before).connections.openOnes := fun d hd =>
      Connections.mem_openOnes.mpr
        ((hob.isOpen_iff hs).mpr ⟨hserial before c peer hbefore hacc d hd.1, hd.2⟩)
    calc (s.reserved before).encard
        ≤ ((s.meet before).connections.openOnes : Set ConnectionId).encard :=
          Set.encard_le_encard hthere
      _ = (s.meet before).connections.openCount := encard_openOnes _
      _ < s.options.maxOpen := by exact_mod_cast ((haccepts before peer).mp hacc).1

/-- A server for one connection. -/
def sampleNarrow : Server :=
  init { tickRate := 100, selectTimeout := 1000, maxOpen := 1 } (.recording {}) 0

/-- Two peers ask before either of them is there. -/
def sampleAsked : List Arrival := [.request ⟨1⟩ "a", .request ⟨2⟩ "b"]

/-- Both are there. -/
def sampleOpened : List Arrival := [.event ⟨1⟩ .opened, .event ⟨2⟩ .opened]

/-- Both peers are accepted, two places are reserved, and both connections open in order; only the
third peer is refused. -/
theorem sample_limit_exceeded :
    sampleNarrow.options.maxOpen = 1 ∧ sampleNarrow.Orderly (sampleAsked ++ sampleOpened) ∧
      (sampleNarrow.options.maxOpen < (sampleNarrow.reserved sampleAsked).encard) ∧
      (sampleNarrow.meet (sampleAsked ++ sampleOpened)).connections.openCount = 2 ∧
      (sampleNarrow.meet (sampleAsked ++ sampleOpened)).accepts "c" = false := by
  have hasked : sampleNarrow.Orderly sampleAsked :=
    ((orderly_nil _).request ⟨1⟩ "a").request ⟨2⟩ "b"
  have haccepted : ∀ c ∈ [ConnectionId.mk 1, ⟨2⟩], sampleNarrow.Accepted sampleAsked c ∧
      ¬ Heard sampleAsked c := by
    have hunheard (c : ConnectionId) : ¬ Heard sampleAsked c := by simp [Heard, sampleAsked]
    intro c hc
    refine ⟨?_, hunheard c⟩
    rcases List.mem_pair.mp hc with rfl | rfl
    · exact ⟨[], "a", ⟨[.request ⟨2⟩ "b"], rfl⟩, rfl⟩
    · exact ⟨[.request ⟨1⟩ "a"], "b", List.prefix_refl _, rfl⟩
  have hopens : sampleNarrow.Orderly (sampleAsked ++ sampleOpened) :=
    hasked.opens (by decide) haccepted
  have hover : (sampleNarrow.meet (sampleAsked ++ sampleOpened)).connections.openCount = 2 := rfl
  refine ⟨rfl, hopens, ?_, hover, ?_⟩
  · -- the law says that more places than the limit are reserved when both open
    refine (limit_law rfl Nat.one_pos hasked).2.1.mp ⟨sampleOpened, ?_, hopens, ?_⟩
    · intro x hx
      rcases List.mem_pair.mp hx with rfl | rfl <;> trivial
    · rw [hover]
      exact Nat.one_lt_two
  · rw [Bool.eq_false_iff, Ne, (limit_law rfl Nat.one_pos hopens).1, hover]
    rintro ⟨hlt, -⟩
    exact absurd hlt (by decide)

end Server

end Telecontrol
