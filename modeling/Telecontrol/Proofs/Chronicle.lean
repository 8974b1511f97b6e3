import Telecontrol.Proofs.History

/-! # The chronicle of a run

A move **records** events: the journal grows by them, and the table of selections follows them. The
server that makes the move **justifies** what they say. Since every entry of a journal was recorded
by a move, whatever a journal says was so when it was written.

Main statements: `Move.history` (every move records events that are justified), `Visited.chronicled`
(the table holds what stands, the entries are in order) and `Visited.recorded` (every entry goes
back to a move). -/

namespace Telecontrol

/-! ## What a move records -/

/-- Events that claim nothing about selections and commands. -/
def Event.isNeutral : Event → Bool
  | .granted _ | .ended .. | .applied .. | .notice (.selectRejected ..) => false
  | .sent f => f.concluded?.isNone
  | _ => true

/-- Quiet events are neutral. -/
theorem Event.isNeutral_of_isQuiet {e : Event} (h : e.isQuiet = true) : e.isNeutral = true := by
  unfold isNeutral
  split <;> first | rfl | exact h

/-- Events that neither let a selection expire nor conclude an execute. -/
def Event.isMild : Event → Bool
  | .ended _ .expired => false
  | .sent f => f.concluded?.isNone
  | _ => true

/-- Quiet events are mild. -/
theorem Event.isMild_of_isQuiet {e : Event} (h : e.isQuiet = true) : e.isMild = true := by
  unfold isMild
  split <;> first | rfl | exact h

/-- Whether an event is the expiry of a selection. -/
def Event.isExpiryOf (g : Selection) : Event → Bool
  | .ended held .expired => held == g
  | _ => false

/-- The expiry of a selection is the one event that says so. -/
theorem Event.isExpiryOf_iff {g : Selection} {e : Event} :
    e.isExpiryOf g = true ↔ e = .ended g .expired := by
  unfold isExpiryOf
  split
  · rw [beq_iff_eq, Event.ended.injEq, and_iff_left rfl]
  · rename_i hne
    exact ⟨nofun, fun h => absurd h (hne g)⟩

/-- A selection that does not expire has no expiries. -/
theorem Event.countP_isExpiryOf_eq_zero {g : Selection} {events : List Event}
    (h : .ended g .expired ∉ events) : events.countP (Event.isExpiryOf g) = 0 := by
  refine List.countP_eq_zero.mpr fun e he hexp => h ?_
  rwa [← Event.isExpiryOf_iff.mp hexp]

namespace Server

/-- A server **records** the events of a deed, the latest first: its journal grows by them, its
table of selections follows them, and so does its queue where an execute is concluded. -/
structure Records (d : Deed) (s s' : Server) (events : List Event) : Prop where
  journal : s'.journal = events.map (Entry.mk s.now) ++ s.journal
  table : ∀ k : CommonAddress × ObjectAddress, s'.selections.find? k.1 k.2 =
    events.foldr (fun e held => e.revise k held) (s.selections.find? k.1 k.2)
  timeout : s'.selections.timeout = s.selections.timeout
  /-- Only the sweep lets selections expire. -/
  swept : ∀ {g}, .ended g .expired ∈ events → d = .work (some (.duty .sweep))
  /-- When an execute is concluded, the release of the stored selection is deferred. -/
  released : ∀ {f k g}, .sent f ∈ events → f.concluded? = some k →
    s.selections.find? k.1 k.2 = some g → s'.executor.running = true →
    ∃ t ∈ s'.executor.queue, t.due = .timed (s.now + releaseDelay) ∧ t.work = .once g.releaseJob

/-- A server **justifies** the events that it records: what they say about selections and commands
is so. -/
structure Justifies (s : Server) (events : List Event) : Prop where
  /-- Selections are granted to the sender of a select, which is confirmed right after. -/
  granted : ∀ {g}, .granted g ∈ events → ∃ m : Message,
    events = [.sent (.returned g.connection (m.confirmation false)), .granted g] ∧
      m.cause = .activation ∧ m.isSelect = true ∧ g = m.selection g.connection s.now
  /-- Only stored selections end, and they expire only when their timeout has passed. -/
  ended : ∀ {g why}, .ended g why ∈ events → s.selections.find? g.station g.address = some g ∧
    (why = .expired → s.selections.isExpired s.now g = true)
  /-- A selection expires once. -/
  expired : ∀ g, events.countP (Event.isExpiryOf g) ≤ 1
  /-- Commands are applied to points, in select-and-execute mode for the holder of the point. -/
  applied : ∀ {c o id station address}, .applied c o id station address ∈ events →
    events = [.applied c o id station address] ∧ ∃ p, s.point? id = some p ∧
      (p.mode = .selectAndExecute →
        ∃ held, s.selections.live? s.now station address = some held ∧
          held.connection = c ∧ held.originator = o)
  /-- No select is rejected because of its type. -/
  accepted : ∀ {address error}, .notice (.selectRejected address error) ∉ events
  /-- Only executes that were just confirmed are concluded. -/
  concluded : ∀ {f k}, .sent f ∈ events → f.concluded? = some k →
    (∃ rest, events = rest ++ [.sent f] ∧ ∀ e ∈ rest, e.isQuiet = true) ∧
      ∃ c m, f = .returned c m.termination ∧ k = (m.station, m.address) ∧ s.HasConfirmed c m

variable {d : Deed} {s s' : Server} {events : List Event}

/-- Mild events ask nothing of the queue. -/
theorem Records.of_mild (hj : s'.journal = events.map (Entry.mk s.now) ++ s.journal)
    (htable : ∀ k : CommonAddress × ObjectAddress, s'.selections.find? k.1 k.2 =
      events.foldr (fun e held => e.revise k held) (s.selections.find? k.1 k.2))
    (htimeout : s'.selections.timeout = s.selections.timeout)
    (hm : ∀ e ∈ events, e.isMild = true) : s.Records d s' events where
  journal := hj
  table := htable
  timeout := htimeout
  swept h := nomatch hm _ h
  released h hf := by
    have := hm _ h
    rw [Event.isMild, hf] at this
    cases this

/-- Quiet events leave the table alone. -/
theorem Records.of_quiet (hj : s'.journal = events.map (Entry.mk s.now) ++ s.journal)
    (hsel : s'.selections = s.selections) (hq : ∀ e ∈ events, e.isQuiet = true) :
    s.Records d s' events := by
  refine .of_mild hj (fun k => ?_) (by rw [hsel]) fun e he => Event.isMild_of_isQuiet (hq e he)
  rw [hsel]
  clear hj
  induction events with
  | nil => rfl
  | cons e rest ih =>
    rw [List.foldr_cons, Event.revise_of_isQuiet (hq e List.mem_cons_self)]
    exact ih fun e' he' => hq e' (List.mem_cons_of_mem e he')

/-- The termination of an execute is the first event of its move. -/
theorem Justifies.eq_nil_of_concluded {after before : List Event} {f : Sent}
    {k : CommonAddress × ObjectAddress} (h : s.Justifies (after ++ .sent f :: before))
    (hf : f.concluded? = some k) : before = [] := by
  obtain ⟨⟨rest, hrest, hquiet⟩, -⟩ :=
    h.concluded (List.mem_append_right _ List.mem_cons_self) hf
  have hnot : Event.sent f ∉ rest := fun hmem => by
    have hq := hquiet _ hmem
    rw [Event.isQuiet, hf] at hq
    cases hq
  exact ((List.append_cons_inj_of_notMem hnot List.not_mem_nil).mp hrest.symm).2.2.symm

/-- Ends of stored selections are justified, and neutral events need no justification. -/
theorem Justifies.of_ended (hkeyed : s.selections.Keyed) {l : List Selection} (why : SelectionEnd)
    (hl : ∀ g ∈ l, g ∈ s.selections.entries.values ∧
      (why = .expired → s.selections.isExpired s.now g = true)) (hnodup : l.Nodup)
    (newer older : List Event) (hnewer : ∀ e ∈ newer, e.isNeutral = true)
    (holder : ∀ e ∈ older, e.isNeutral = true) :
    s.Justifies (newer ++ (l.map fun g => .ended g why) ++ older) := by
  have hmem {e : Event} (h : e ∈ newer ++ (l.map fun g => .ended g why) ++ older) :
      e.isNeutral = true ∨ ∃ g ∈ l, e = .ended g why := by
    rcases List.mem_append.mp h with h | h
    · rcases List.mem_append.mp h with h | h
      · exact .inl (hnewer e h)
      · obtain ⟨g, hg, rfl⟩ := List.mem_map.mp h
        exact .inr ⟨g, hg, rfl⟩
    · exact .inl (holder e h)
  have hnone {events : List Event} (hn : ∀ e ∈ events, e.isNeutral = true) (g : Selection) :
      events.countP (Event.isExpiryOf g) = 0 :=
    Event.countP_isExpiryOf_eq_zero fun h => by cases hn _ h
  -- no selection is stored twice, so none ends twice
  have hended (g : Selection) :
      (l.map fun g => Event.ended g why).countP (Event.isExpiryOf g) ≤ 1 := by
    refine Nat.le_trans ?_ (List.nodup_iff_count_le_one.mp hnodup g)
    rw [List.countP_map, List.count]
    refine List.countP_mono_left fun g' _ he => ?_
    cases why with
    | expired => exact he
    | _ => cases he
  constructor
  · intro g h
    rcases hmem h with h | ⟨_, _, h⟩ <;> cases h
  -- what ends is one of the selections listed
  · intro g why' h
    rcases hmem h with h | ⟨g', hg, h⟩
    · cases h
    · obtain ⟨rfl, rfl⟩ := Event.ended.inj h
      exact ⟨hkeyed.mem_values.mp (hl _ hg).1, (hl _ hg).2⟩
  · intro g
    rw [List.countP_append, List.countP_append, hnone hnewer, hnone holder]
    have := hended g
    omega
  · intro c o id station address h
    rcases hmem h with h | ⟨_, _, h⟩ <;> cases h
  · intro address error h
    rcases hmem h with h | ⟨_, _, h⟩ <;> cases h
  · intro f k h hf
    rcases hmem h with h | ⟨_, _, h⟩
    · rw [Event.isNeutral, hf] at h
      cases h
    · cases h

/-- Quiet events need no justification. -/
theorem Justifies.of_quiet (hkeyed : s.selections.Keyed) (hq : ∀ e ∈ events, e.isQuiet = true) :
    s.Justifies events := by
  have h := of_ended hkeyed (l := []) .stopped (fun _ h => absurd h List.not_mem_nil) .nil events []
    (fun e he => Event.isNeutral_of_isQuiet (hq e he)) fun _ h => absurd h List.not_mem_nil
  rwa [List.map_nil, List.append_nil, List.append_nil] at h

/-! ## The history of a move -/

/-- Ends of stored selections leave those that pass a test. -/
theorem Records.of_ended (hkeyed : s.selections.Keyed) (p : Selection → Bool) {l : List Selection}
    (hl : ∀ g, g ∈ l ↔ g ∈ s.selections.entries.values ∧ p g = false) (why : SelectionEnd)
    (htable : ∀ k : CommonAddress × ObjectAddress,
      s'.selections.find? k.1 k.2 = (s.selections.find? k.1 k.2).filter p)
    (htimeout : s'.selections.timeout = s.selections.timeout)
    (hj : s'.journal = (l.map fun g => ⟨s.now, .ended g why⟩) ++ s.journal)
    (hd : why = .expired → d = .work (some (.duty .sweep))) :
    s.Records d s' (l.map fun g => .ended g why) where
  journal := by rw [hj, List.map_map]; rfl
  table k := by rw [htable, hkeyed.foldr_revise p hl]
  timeout := htimeout
  swept h := by
    obtain ⟨_, -, he⟩ := List.mem_map.mp h
    exact hd (Event.ended.inj he).2
  released h := by
    obtain ⟨_, -, he⟩ := List.mem_map.mp h
    cases he

/-- The end of one stored selection. -/
theorem history_of_ended (hkeyed : s.selections.Keyed) {g : Selection}
    (hg : s.selections.find? g.station g.address = some g) (why : SelectionEnd)
    (hwhy : why ≠ .expired)
    (hsel : s'.selections = s.selections.remove g.station g.address)
    (hj : s'.journal = ⟨s.now, .ended g why⟩ :: s.journal) :
    ∃ events, s.Records d s' events ∧ s.Justifies events := by
  refine ⟨[.ended g why], ?_, ?_⟩
  · refine .of_ended hkeyed (fun g' => g' != g) (l := [g]) (fun g' => ?_) why (fun k => ?_)
      (by rw [hsel]; rfl) hj fun h => absurd h hwhy
    · rw [List.mem_singleton, bne_eq_false_iff_eq]
      constructor
      · rintro rfl
        exact ⟨hkeyed.mem_values.mpr hg, rfl⟩
      · exact fun h => h.2
    · -- the table has lost the selection at its place and nothing else
      rw [hsel, SelectionTable.find?_remove]
      by_cases hk : (k.1, k.2) = (g.station, g.address)
      · obtain ⟨h₁, h₂⟩ := Prod.mk.inj hk
        rw [if_pos hk, h₁, h₂, hg, Option.filter_some_neg (by simp)]
      · rw [if_neg hk]
        cases hf : s.selections.find? k.1 k.2 with
        | none => rfl
        | some g' =>
          rw [Option.filter_some_pos]
          refine bne_iff_ne.mpr fun h => hk ?_
          rw [← h]
          exact (hkeyed hf).symm
  · refine .of_ended hkeyed why (l := [g]) (fun g' hg' => ?_) (List.nodup_singleton g) [] []
      (fun _ h => absurd h List.not_mem_nil) fun _ h => absurd h List.not_mem_nil
    rw [List.mem_singleton.mp hg']
    exact ⟨hkeyed.mem_values.mpr hg, fun h => absurd h hwhy⟩

/-- An event of a connection records the ends of the selections held through a closed one. -/
theorem history_onConnectionEvent (hkeyed : s.selections.Keyed) (c : ConnectionId) :
    ∃ events, s.Records d (s.onConnectionEvent c .closed) events ∧ s.Justifies events := by
  have hmem (g : Selection) : g ∈ (s.selections.heldThrough c).reverse ↔
      g ∈ s.selections.entries.values ∧ (g.connection != c) = false := by
    rw [List.mem_reverse, SelectionTable.heldThrough, List.mem_filter, bne_eq_false_iff_eq,
      beq_iff_eq]
  let n := (s.connections.onEvent c .closed).activeCount
  refine ⟨.notice (.connection c .closed n) ::
    ((s.selections.heldThrough c).reverse.map fun g => .ended g .closed),
    .of_mild ?_ (fun k => ?_) ?_ (fun e he => ?_), ?_⟩
  · rw [onConnectionEvent_eq, List.map_cons, List.map_map]
    rfl
  · -- the record drops the selections held through the connection, and so does the table
    rw [onConnectionEvent_eq, List.foldr_cons, hkeyed.foldr_revise _ hmem]
    show (s.selections.removeConnection c).find? k.1 k.2 = Option.filter _ _
    rw [SelectionTable.find?_removeConnection, Option.filter_filter]
    simp
  · rw [onConnectionEvent_eq]
    rfl
  · rcases List.mem_cons.mp he with rfl | he
    · rfl
    · obtain ⟨g, -, rfl⟩ := List.mem_map.mp he
      rfl
  · have hj := Justifies.of_ended hkeyed .closed (l := (s.selections.heldThrough c).reverse)
      (fun g hg => ⟨((hmem g).mp hg).1, fun h => nomatch h⟩)
      (List.nodup_reverse.mpr (hkeyed.nodup_values.filter _))
      [.notice (.connection c .closed n)] []
      (fun e he => by rw [List.mem_singleton.mp he]; rfl) fun _ h => absurd h List.not_mem_nil
    rwa [List.append_nil] at hj

/-- Stopping records the ends of all selections. -/
theorem history_stop (hkeyed : s.selections.Keyed) (hrun : s.running = true) :
    ∃ events, s.Records d s.stop events ∧ s.Justifies events := by
  refine ⟨[.notice .stopped] ++ (s.selections.entries.values.reverse.map fun g => .ended g .stopped)
    ++ s.connections.list.reverse.map .closed, .of_mild ?_ (fun k => ?_) ?_ (fun e he => ?_), ?_⟩
  · rw [stop_eq hrun]
    simp [Function.comp_def]
  · rw [stop_eq hrun]
    rfl
  · rw [stop_eq hrun]
    rfl
  · -- neither the notice nor the closed connections touch selections
    rcases List.mem_append.mp he with he | he
    · rcases List.mem_cons.mp he with rfl | he
      · rfl
      · obtain ⟨g, -, rfl⟩ := List.mem_map.mp he
        rfl
    · obtain ⟨c, -, rfl⟩ := List.mem_map.mp he
      rfl
  · refine .of_ended hkeyed .stopped (fun g hg => ⟨List.mem_reverse.mp hg, fun h => nomatch h⟩)
      (List.nodup_reverse.mpr hkeyed.nodup_values) _ _ (fun e he => ?_) fun e he => ?_
    · rw [List.mem_singleton.mp he]
      rfl
    · obtain ⟨c, -, rfl⟩ := List.mem_map.mp he
      rfl

/-- Dropping the expired selections records that they expired. -/
theorem history_dropExpired (hkeyed : s.selections.Keyed) (hrun : s.executor.running = true) :
    ∃ events, s.Records (.work (some (.duty .sweep))) s.dropExpired events ∧
      s.Justifies events := by
  obtain ⟨e, tasks, hdrop, -⟩ := dropExpired_eq hrun
  have hmem (g : Selection) :
      g ∈ (Selection.byConnection (s.selections.expired s.now)).reverse ↔
        -- what has expired is what does not live any more
        g ∈ s.selections.entries.values ∧ s.selections.isLive s.now g = false := by
    rw [List.mem_reverse, Selection.mem_byConnection, SelectionTable.expired, List.mem_filter,
      SelectionTable.isLive, Bool.not_eq_false']
  refine ⟨_, .of_ended hkeyed (s.selections.isLive s.now) hmem .expired (fun k => ?_) ?_ ?_
    (fun _ => rfl), ?_⟩
  · rw [hdrop, SelectionTable.find?_sweep]
    rfl
  · rw [hdrop]
    rfl
  · rw [hdrop]
  · have hnodup : (Selection.byConnection (s.selections.expired s.now)).reverse.Nodup :=
      List.nodup_reverse.mpr ((Selection.byConnection_perm _).nodup_iff.mpr
        (hkeyed.nodup_values.filter _))
    have hj := Justifies.of_ended hkeyed .expired (fun g hg => ⟨((hmem g).mp hg).1, fun _ => ?_⟩)
      hnodup [] [] (fun _ h => absurd h List.not_mem_nil) fun _ h => absurd h List.not_mem_nil
    · rwa [List.nil_append, List.append_nil] at hj
    · simpa [SelectionTable.isLive] using ((hmem g).mp hg).2

/-- The termination of a confirmed execute ends it. -/
theorem HasConfirmed.concluded? {c : ConnectionId} {m : Message} (h : s.HasConfirmed c m) :
    (Sent.returned c m.termination).concluded? = some (m.station, m.address) :=
  Sent.concluded?_termination_of_isCommand h.frame h.command

/-- The termination of a confirmed execute is justified. -/
theorem Justifies.of_concluded {c : ConnectionId} {m : Message} (hconf : s.HasConfirmed c m)
    (rest : List Event) (hrest : ∀ e ∈ rest, e.isQuiet = true) :
    s.Justifies (rest ++ [.sent (.returned c m.termination)]) := by
  have hsent {e : Event} (he : e ∈ rest ++ [Event.sent (.returned c m.termination)]) :
      e.isQuiet = true ∨ e = .sent (.returned c m.termination) :=
    (List.mem_append.mp he).imp (hrest e) List.mem_singleton.mp
  have hnone (g : Selection) :
      (rest ++ [Event.sent (.returned c m.termination)]).countP (Event.isExpiryOf g) = 0 :=
    Event.countP_isExpiryOf_eq_zero fun h => by rcases hsent h with h | h <;> cases h
  refine ⟨fun h => ?_, fun h => ?_, fun g => ?_, fun h => ?_, fun h => ?_, fun {f' k'} h hf' => ?_⟩
  · rcases hsent h with h | h <;> cases h
  · rcases hsent h with h | h <;> cases h
  · rw [hnone g]
    exact Nat.zero_le 1
  · rcases hsent h with h | h <;> cases h
  · rcases hsent h with h | h <;> cases h
  · rcases hsent h with h | h
    · rw [Event.isQuiet, hf'] at h
      cases h
    · obtain rfl := Event.sent.inj h
      -- the termination itself ends the execute that was just confirmed
      exact ⟨⟨rest, rfl, hrest⟩, c, m, rfl,
        (Option.some.inj (hconf.concluded?.symm.trans hf')).symm, hconf⟩

/-- The conclusion of an execute records its termination, and defers the release of the selection
that is stored. -/
theorem history_concludeExecute (hkeyed : s.selections.Keyed) {c : ConnectionId} {m : Message}
    (hconf : s.HasConfirmed c m) :
    ∃ events, s.Records d (s.concludeExecute c m) events ∧ s.Justifies events := by
  have hf := hconf.concluded?
  have hone : s.Justifies [.sent (.returned c m.termination)] :=
    .of_concluded hconf [] fun _ h => absurd h List.not_mem_nil
  rw [concludeExecute_eq hconf.station]
  cases hheld : s.selections.find? m.station m.address with
  | none =>
    -- no selection is stored, so there is nothing to release
    refine ⟨_, ⟨rfl, fun _ => rfl, rfl, fun h => by simp at h, fun h hf' hg => ?_⟩, hone⟩
    obtain rfl := Event.sent.inj (List.mem_singleton.mp h)
    obtain rfl := Option.some.inj (hf.symm.trans hf')
    rw [hheld] at hg
    cases hg
  | some held =>
    dsimp only
    rw [defer_eq]
    split
    · refine ⟨_, ⟨rfl, fun _ => rfl, rfl, fun h => by simp at h, fun h hf' hg _ => ?_⟩, hone⟩
      obtain rfl := Event.sent.inj (List.mem_singleton.mp h)
      obtain rfl := Option.some.inj (hf.symm.trans hf')
      obtain rfl := Option.some.inj (hheld.symm.trans hg)
      obtain ⟨hs, ha⟩ := Prod.mk.inj (hkeyed hheld)
      refine ⟨_, Executor.mem_push.mpr (.inl rfl), rfl, ?_⟩
      rw [Selection.releaseJob, hs, ha]
    · -- the executor is stopped: the release is rejected, which is reported
      rename_i hrun
      refine ⟨[.notice (.task .rejected), .sent (.returned c m.termination)],
        ⟨rfl, fun _ => rfl, rfl, fun h => by simp at h, fun _ _ _ hrun' => absurd hrun' hrun⟩, ?_⟩
      exact .of_concluded hconf [.notice (.task .rejected)] fun e he => by
        rw [List.mem_singleton.mp he]
        rfl

/-- What writes nothing into the journal and leaves the table alone records no events. -/
theorem history_silent (hkeyed : s.selections.Keyed) (hj : s'.journal = s.journal)
    (hsel : s'.selections = s.selections) :
    ∃ events, s.Records d s' events ∧ s.Justifies events :=
  ⟨[], .of_quiet hj hsel fun _ h => absurd h List.not_mem_nil,
    .of_quiet hkeyed fun _ h => absurd h List.not_mem_nil⟩

/-- What writes one quiet event into the journal and leaves the table alone records that event. -/
theorem history_quiet (hkeyed : s.selections.Keyed) (e : Event) (he : e.isQuiet = true)
    (hj : s'.journal = ⟨s.now, e⟩ :: s.journal) (hsel : s'.selections = s.selections) :
    ∃ events, s.Records d s' events ∧ s.Justifies events := by
  have hq : ∀ e' ∈ [e], e'.isQuiet = true := fun e' he' => by rw [List.mem_singleton.mp he', he]
  exact ⟨[e], .of_quiet hj hsel hq, .of_quiet hkeyed hq⟩

/-- A grant records that it was made and confirmed. -/
theorem history_grant {c : ConnectionId} {m : Message} (hm : m.cause = .activation)
    (hs : m.isSelect = true) :
    ∃ events, s.Records d ((s.grant (m.selection c s.now)).sendBack c (m.confirmation false))
      events ∧ s.Justifies events := by
  have hconf : (Sent.returned c (m.confirmation false)).concluded? = none := by
    refine Sent.concluded?_answer m.frame ?_ m.frame.station
    split <;> decide
  refine ⟨[.sent (.returned c (m.confirmation false)), .granted (m.selection c s.now)],
    .of_mild rfl (fun k => ?_) rfl (fun e he => ?_), ?_⟩
  · show (s.selections.replace (m.selection c s.now)).find? k.1 k.2 =
      if (m.selection c s.now).key = k then some (m.selection c s.now) else _
    rw [SelectionTable.find?_replace]
    exact if_congr eq_comm rfl rfl
  · rcases List.mem_cons.mp he with rfl | he
    · rw [Event.isMild, hconf]
      rfl
    · rw [List.mem_singleton.mp he]
      rfl
  · refine ⟨fun {g} hg => ?_, fun h => ?_, fun g => ?_, fun h => ?_, fun h => ?_,
      fun {f k} h hf => ?_⟩
    · obtain rfl : g = m.selection c s.now := by simpa using hg
      exact ⟨m, rfl, hm, hs, rfl⟩
    · simp at h
    · exact Nat.zero_le 1
    · simp at h
    · simp at h
    · -- a confirmation concludes nothing
      obtain rfl : f = .returned c (m.confirmation false) := by simpa using h
      rw [hconf] at hf
      cases hf

/-- A release by the holder records the end of the selection. -/
theorem history_deactivate (hkeyed : s.selections.Keyed) {held : Selection}
    (h : s.selections.isHeldBy s.now held = true) :
    ∃ events, s.Records d (s.deactivate held).1 events ∧ s.Justifies events := by
  obtain ⟨g, hlive, -⟩ := SelectionTable.isHeldBy_iff.mp h
  have hf := (SelectionTable.live?_eq_some_iff.mp hlive).1
  obtain ⟨hstation, haddress⟩ : g.station = held.station ∧ g.address = held.address :=
    Prod.mk.inj (hkeyed hf)
  have heq := deactivate_eq h hf
  rw [← hstation, ← haddress] at hf heq
  rw [heq]
  exact history_of_ended hkeyed hf .deactivated (by simp) rfl rfl

/-- The application of a command records what it was applied to. -/
theorem history_applied {c : ConnectionId} {m : Message} {station : StationId} {id : PointId}
    {p : Point} (ht : s.target m = .ok (station, id, p))
    (hheld : p.mode = .selectAndExecute →
      s.selections.isHeldBy s.now (m.selection c s.now) = true) :
    ∃ events, s.Records d (s.applied c m id) events ∧ s.Justifies events := by
  refine ⟨[.applied c m.originator id m.station m.address],
    .of_mild rfl (fun _ => rfl) rfl (fun e he => by rw [List.mem_singleton.mp he]; rfl), ?_⟩
  refine ⟨fun h => ?_, fun h => ?_, fun g => Nat.zero_le 1, fun h => ?_, fun h => ?_,
    fun h => ?_⟩
  · simp at h
  · simp at h
  · obtain ⟨rfl, rfl, rfl, rfl, rfl⟩ := Event.applied.inj (List.mem_singleton.mp h)
    exact ⟨rfl, p, (target_eq_ok_iff.mp ht).2.2, fun hmode =>
      SelectionTable.isHeldBy_iff.mp (hheld hmode)⟩
  · simp at h
  · simp at h

/-- A release of an executed command records the end of the selection that it drops, if any. -/
theorem history_releaseExecuted (hkeyed : s.selections.Keyed) (station : CommonAddress)
    (address : ObjectAddress) (created : Int) :
    ∃ events, s.Records d (s.releaseExecuted station address created) events ∧
      s.Justifies events := by
  rw [releaseExecuted]
  cases hc : s.selections.createdAt? station address created with
  | none =>
    refine history_silent hkeyed rfl ?_
    show s.selections.removeIf station address created = _
    rw [SelectionTable.removeIf, hc]
    rfl
  | some held =>
    obtain ⟨hf, -⟩ := Option.filter_eq_some_iff.mp hc
    obtain ⟨rfl, rfl⟩ : held.station = station ∧ held.address = address :=
      Prod.mk.inj (hkeyed hf)
    refine history_of_ended hkeyed hf .executed (by simp) ?_ rfl
    show s.selections.removeIf _ _ created = _
    rw [SelectionTable.removeIf, hc]
    rfl

/-- What the worker records when it undertakes the job of a task. -/
theorem history_undertake (hkeyed : s.selections.Keyed) (hrun : s.executor.running = true)
    (job : Option Job) :
    ∃ events, s.Records (.work job) (s.undertake job) events ∧ s.Justifies events := by
  unfold undertake
  split
  · exact history_releaseExecuted hkeyed ..
  · exact history_quiet hkeyed _ rfl rfl rfl
  · exact history_dropExpired hkeyed hrun
  · exact history_silent hkeyed rfl rfl

/-- The executor has no part in what a server justifies. -/
theorem Justifies.of_executor {e : Executor Job}
    (h : Justifies { s with executor := e } events) : s.Justifies events where
  granted := h.granted
  ended := h.ended
  expired := h.expired
  applied := h.applied
  accepted := h.accepted
  concluded hmem hf := by
    obtain ⟨hrest, c, m, hfm, hk, hc⟩ := h.concluded hmem hf
    exact ⟨hrest, c, m, hfm, hk, ⟨hc.frame, hc.command, hc.execute, hc.station, hc.applied,
      hc.confirmed⟩⟩

end Server

/-- Every move records events that the server it starts from justifies. -/
theorem Move.history {d : Deed} {s s' : Server} (h : Move d s s') (hkeyed : s.selections.Keyed) :
    ∃ events, s.Records d s' events ∧ s.Justifies events := by
  cases h with
  | @note _ e he =>
    refine Server.history_quiet hkeyed e ?_ rfl rfl
    cases e with
    | sent => cases he
    | _ => exact he
  | @handOver _ f hf =>
    exact Server.history_quiet hkeyed (.sent f) (by rw [Event.isQuiet, hf]; rfl) rfl rfl
  | defer _ delay =>
    rw [Server.defer_eq]
    split
    · exact Server.history_silent hkeyed rfl rfl
    · exact Server.history_quiet hkeyed (.notice (.task .rejected)) rfl rfl rfl
  | write | plant | attach | callbacks | pass => exact Server.history_silent hkeyed rfl rfl
  | connection _ c e =>
    cases e with
    | closed => exact Server.history_onConnectionEvent hkeyed c
    | _ => exact Server.history_quiet hkeyed _ rfl rfl rfl
  | start h =>
    obtain rfl | ⟨_, _, _, _, -, -, rfl⟩ := Server.start_cases h
    · exact Server.history_silent hkeyed rfl rfl
    · exact Server.history_quiet hkeyed (.notice (.started s.options.tickRate)) rfl rfl rfl
  | stop =>
    cases hrun : s.running with
    | false =>
      rw [Server.stop_of_not_running hrun]
      exact Server.history_silent hkeyed rfl rfl
    | true => exact Server.history_stop hkeyed hrun
  | stopExecutor =>
    rw [Server.stopExecutor]
    split
    · exact Server.history_quiet hkeyed (.notice (.task .stopped)) rfl rfl rfl
    · exact Server.history_silent hkeyed rfl rfl
  | @take _ task e h =>
    -- taking the task changes the executor only, which has no part in what is recorded
    let u : Server := { s with executor := (e.launch s.now task).1 }
    have hrun : u.executor.running = true := by
      obtain ⟨hrun, -, -, -, -, -, he⟩ := (Executor.next?_eq_some_iff ..).mp h
      exact (Executor.running_launch ..).trans (he.trans hrun)
    obtain ⟨events, hrec, hjust⟩ := u.history_undertake hkeyed hrun (e.launch s.now task).2
    exact ⟨events, ⟨hrec.journal, hrec.table, hrec.timeout, hrec.swept, hrec.released⟩,
      hjust.of_executor⟩
  | grant hm hs => exact Server.history_grant hm hs
  | deactivate h => exact Server.history_deactivate hkeyed h
  | apply _ _ ht _ hheld => exact Server.history_applied ht hheld
  | conclude h => exact Server.history_concludeExecute hkeyed h

/-! ## The history of a run -/

namespace Server

/-- What the journal of a server tells: the table of selections holds what stands, and the entries
are in the order of their times. -/
structure Chronicled (s : Server) : Prop where
  table : ∀ k : CommonAddress × ObjectAddress,
    s.selections.find? k.1 k.2 = standing? k s.journal
  past : ∀ e ∈ s.journal, e.time ≤ s.now
  ordered : s.journal.Pairwise fun a b => b.time ≤ a.time
  timeout : s.selections.timeout = s.options.selectTimeout
  timeout_pos : 0 < s.options.selectTimeout

/-- Selections that stand are stored at their points. -/
theorem Chronicled.keyed {s : Server} (h : s.Chronicled) : s.selections.Keyed := by
  intro station address g hg
  rw [h.table (station, address)] at hg
  exact key_of_standing? hg

/-- A new server is chronicled. -/
theorem chronicled_new {options : Options} {transport : Transport} {now : Int} {s : Server}
    (h : Server.new options transport now = .ok s) : s.Chronicled := by
  have hpos : options.selectTimeout ≠ 0 := by
    intro h0
    rw [Server.new, if_pos h0] at h
    split at h <;> cases h
  obtain rfl := new_eq_ok h
  refine ⟨fun _ => rfl, fun e he => ?_, List.pairwise_singleton _ _, rfl,
    Nat.pos_of_ne_zero hpos⟩
  rw [List.mem_singleton.mp he]
  exact Int.le_refl _

end Server

/-- The clock is never put back. -/
theorem Move.now_le {d : Deed} {s s' : Server} (h : Move d s s') : s.now ≤ s'.now := by
  by_cases hd : d = .time
  · subst hd
    cases h with
    | pass _ ms => exact Int.le_add_of_nonneg_right (Int.natCast_nonneg ms)
  · rw [h.alters.now hd]

/-- Every move keeps a server chronicled. -/
theorem Move.chronicled {d : Deed} {s s' : Server} (h : Move d s s') (hs : s.Chronicled) :
    s'.Chronicled := by
  obtain ⟨events, hrec, -⟩ := h.history hs.keyed
  have hnew {e : Entry} (he : e ∈ events.map (Entry.mk s.now)) : e.time = s.now := by
    obtain ⟨_, -, rfl⟩ := List.mem_map.mp he
    rfl
  refine ⟨fun k => ?_, fun e he => ?_, ?_, ?_, ?_⟩
  -- the table and what stands follow the same events
  · rw [hrec.table, hrec.journal, hs.table, standing?, standing?, List.foldr_append, List.foldr_map]
  · rw [hrec.journal, List.mem_append] at he
    rcases he with he | he
    · rw [hnew he]
      exact h.now_le
    · exact Int.le_trans (hs.past e he) h.now_le
  -- new entries are of one instant, and no older entry is later
  · rw [hrec.journal, List.pairwise_append]
    refine ⟨List.pairwise_map.mpr (List.pairwise_of_forall fun _ _ => Int.le_refl _),
      hs.ordered, fun a ha b hb => ?_⟩
    rw [hnew ha]
    exact hs.past b hb
  · rw [hrec.timeout, h.alters.options, hs.timeout]
  · rw [h.alters.options]
    exact hs.timeout_pos

namespace Server

/-- Every visited server is chronicled. -/
theorem Visited.chronicled {s : Server} (h : s.Visited) : s.Chronicled := by
  induction h with
  | new h => exact chronicled_new h
  | move _ hm ih => exact hm.chronicled ih

/-- The points of one server are still there in another, what was fixed when they were made
unchanged. -/
def Precedes (u s : Server) : Prop :=
  u.now ≤ s.now ∧ s.options = u.options ∧
    ∀ {id p}, u.point? id = some p → ∃ q, s.point? id = some q ∧ p.SameAs q

/-- A server precedes itself. -/
theorem Precedes.refl (s : Server) : s.Precedes s :=
  ⟨Int.le_refl _, rfl, fun {_ p} hp => ⟨p, hp, .refl p⟩⟩

/-- Going on by a move. -/
theorem Precedes.move {d : Deed} {u s s' : Server} (h : u.Precedes s) (hm : Move d s s') :
    u.Precedes s' := by
  refine ⟨Int.le_trans h.1 hm.now_le, hm.alters.options.trans h.2.1, fun hp => ?_⟩
  obtain ⟨q, hq, hpq⟩ := h.2.2 hp
  obtain ⟨r, hr, hqr, -⟩ := hm.alters.follows.kept hq
  exact ⟨r, hr, hpq.trans hqr⟩

/-- Every entry of a journal was recorded by a move, from a server that was visited before and that
justified it together with the entries of the same move. -/
theorem Visited.recorded {s : Server} (h : s.Visited) {newer older : List Entry} {x : Entry}
    (hj : s.journal = newer ++ x :: older) :
    x.event = .notice (.task .started) ∨
      ∃ (u : Server) (after before : List Event), u.Visited ∧ u.Precedes s ∧
        u.Justifies (after ++ x.event :: before) ∧ x.time = u.now ∧
        older = before.map (Entry.mk u.now) ++ u.journal ∧
        ∃ rest, newer = rest ++ after.map (Entry.mk u.now) := by
  induction h generalizing newer with
  | new h =>
    obtain rfl := new_eq_ok h
    -- the journal of a new server has a single entry
    cases newer with
    | nil =>
      obtain ⟨rfl, -⟩ := List.cons.inj hj
      exact .inl rfl
    | cons _ newer => exact absurd (List.cons.inj hj).2 (by simp [init])
  | @move u s' d hu hm ih =>
    obtain ⟨events, hrec, hjust⟩ := hm.history hu.chronicled.keyed
    rw [hrec.journal, List.append_eq_append_iff] at hj
    -- the entry is an earlier one or one of those that the move recorded
    have hearlier (newer' : List Entry) (h : u.journal = newer' ++ x :: older)
        (hnewer : newer = events.map (Entry.mk u.now) ++ newer') :
        x.event = .notice (.task .started) ∨
          ∃ (v : Server) (after before : List Event), v.Visited ∧ v.Precedes s' ∧
            v.Justifies (after ++ x.event :: before) ∧ x.time = v.now ∧
            older = before.map (Entry.mk v.now) ++ v.journal ∧
            ∃ rest, newer = rest ++ after.map (Entry.mk v.now) := by
      refine (ih h).imp_right fun hold => ?_
      obtain ⟨v, after, before, hv, hvu, hvj, ht, holder, rest, hrest⟩ := hold
      exact ⟨v, after, before, hv, hvu.move hm, hvj, ht, holder,
        events.map (Entry.mk u.now) ++ rest, by rw [hnewer, hrest, List.append_assoc]⟩
    rcases hj with ⟨newer', hnewer, hold⟩ | ⟨mid, hnew, hold⟩
    · exact hearlier newer' hold hnewer
    · cases mid with
      | nil => exact hearlier [] hold.symm (by rw [hnew, List.append_nil, List.append_nil])
      | cons y before =>
        obtain ⟨rfl, rfl⟩ := List.cons.inj hold
        obtain ⟨after, rest, rfl, hafter, hrest⟩ := List.map_eq_append_iff.mp hnew
        obtain ⟨e, before', rfl, rfl, rfl⟩ := List.map_eq_cons_iff.mp hrest
        exact .inr ⟨u, after, before', hu, (Precedes.refl u).move hm, hjust, rfl, rfl, [], by
          rw [← hafter, List.nil_append]⟩

end Server

end Telecontrol
