import Telecontrol.Proofs.Idling

/-! # What the transport has been handed

The journal of a server tells which frames the server has handed over, and most of what is proved of
a server is read off its journal. The transport keeps its own account: a recording one keeps every
frame, a counting one their numbers. Both accounts **agree**, whatever happens at the server.

Main statements: `Server.Move.tallies` (what is written is handed over, and nothing else) and
`Server.took_run` with `Server.frames_run` and `Server.counts_run`. -/

namespace Telecontrol

/-! ## Transports -/

namespace Transport

/-- What a transport is like that **took** some frames, the latest first: the frames of a recording
transport, or the numbers of a counting one, have grown by them. Connections may have been closed
meanwhile; their parameters stay. -/
def Took (fs : List Sent) : Transport → Transport → Prop
  | .recording r, t => ∃ closed, t = .recording { r with frames := fs ++ r.frames, closed }
  | .counting sent queued, t =>
    t = .counting (sent + fs.countP fun f => !f.isQueued) (queued + fs.countP (·.isQueued))

variable {t t' t'' : Transport} {fs fs' : List Sent}

/-- A transport that was left alone took nothing. -/
theorem Took.refl (t : Transport) : t.Took [] t := by
  cases t with
  | recording r => exact ⟨r.closed, rfl⟩
  | counting sent queued => rfl

/-- What was taken first lies below what was taken later. -/
theorem Took.trans (h : t.Took fs t') (h' : t'.Took fs' t'') : t.Took (fs' ++ fs) t'' := by
  cases t with
  | recording r =>
    obtain ⟨closed, rfl⟩ := h
    obtain ⟨closed', rfl⟩ := h'
    exact ⟨closed', by rw [List.append_assoc]⟩
  | counting sent queued =>
    obtain rfl : t' = _ := h
    refine Eq.trans h' ?_
    simp only [List.countP_append, counting.injEq]
    omega

/-- A transport takes the frame that is handed over. -/
theorem took_accept (t : Transport) (f : Sent) : t.Took [f] (t.accept f) := by
  cases t with
  | recording r => exact ⟨r.closed, rfl⟩
  | counting sent queued =>
    show (if f.isQueued then _ else _) = _
    cases hf : f.isQueued <;> simp [hf]

/-- Closing connections hands nothing over. -/
theorem took_close (t : Transport) (cs : List ConnectionId) : t.Took [] (cs.foldl close t) := by
  have hclose (u : Transport) (c : ConnectionId) : u.Took [] (u.close c) := by
    cases u with
    | recording r => exact ⟨c :: r.closed, rfl⟩
    | counting sent queued => rfl
  exact List.foldlRecOn (motive := t.Took []) cs close (.refl t) fun u hu c _ =>
    hu.trans (hclose u c)

/-- A recording transport holds what it took above what it held. -/
theorem Took.frames (h : t.Took fs t') {r : Recording} (ht : t = .recording r) :
    t'.record.frames = fs ++ r.frames := by
  subst ht
  obtain ⟨closed, rfl⟩ := h
  rfl

/-- A counting transport has counted what it took. -/
theorem Took.counts (h : t.Took fs t') {sent queued : Nat} (ht : t = .counting sent queued) :
    t'.counts = (sent + fs.countP fun f => !f.isQueued, queued + fs.countP (·.isQueued)) := by
  subst ht
  obtain rfl : t' = _ := h
  rfl

end Transport

/-! ## Servers -/

namespace Server

open Transport (Took)

variable {s s' s'' : Server} {fs : List Sent}

/-- One server leads to another one while its journal and its transport go on to **agree**: what is
written as handed over is what the transport took. -/
def Tallies (s s' : Server) : Prop :=
  ∃ fs, s'.handed = fs ++ s.handed ∧ s.transport.Took fs s'.transport

/-- A server that is left alone agrees with itself. -/
theorem Tallies.refl (s : Server) : s.Tallies s := ⟨[], rfl, .refl _⟩

/-- Accounts that agree may go on to agree. -/
theorem Tallies.trans (h : s.Tallies s') (h' : s'.Tallies s'') : s.Tallies s'' := by
  obtain ⟨fs, hhanded, htook⟩ := h
  obtain ⟨fs', hhanded', htook'⟩ := h'
  exact ⟨fs' ++ fs, by rw [hhanded', hhanded, List.append_assoc], htook.trans htook'⟩

/-- What is done mutely is in neither account. -/
theorem Mute.tallies (h : s.Mute s') : s.Tallies s' := ⟨[], h.handed, h.transport ▸ .refl _⟩

/-- A frame that is handed over is in both accounts. -/
theorem tallies_handOver (s : Server) (f : Sent) : s.Tallies (s.handOver f) :=
  ⟨[f], rfl, s.transport.took_accept f⟩

/-- Stopping closes connections and hands nothing over. -/
theorem tallies_stop (s : Server) : s.Tallies s.stop := by
  refine ⟨[], s.stop_fields.2.2, ?_⟩
  cases hrun : s.running with
  | false =>
    rw [stop_of_not_running hrun]
    exact .refl _
  | true =>
    rw [stop_eq hrun]
    exact s.transport.took_close _

/-- So does giving the executor up. -/
theorem tallies_stopExecutor (s : Server) : s.Tallies s.stopExecutor := by
  rw [stopExecutor]
  split
  · exact (Mute.note { s with executor := s.executor.stop } rfl).tallies
  · exact .refl s

/-- Starting hands nothing over. -/
theorem tallies_start (h : s.start = .ok s') : s.Tallies s' := by
  rcases start_cases h with hsame | ⟨e₁, e₂, c₁, c₂, -, -, rfl⟩
  · exact hsame ▸ .refl s
  · exact ⟨[], rfl, .refl _⟩

/-- The worker hands over a frame when it tells a holder, and otherwise none at once. -/
theorem tallies_undertake (s : Server) (job : Option Job) : s.Tallies (s.undertake job) := by
  match job with
  | some (.release station address created) =>
    exact (Mute.releaseExecuted s station address created).tallies
  | some (.unselect held) => exact s.tallies_handOver _
  | some (.duty .sweep) => exact (Mute.dropExpired s).tallies
  | none | some (.duty .inventory) | some (.autoReturn _) | some (.pointTimer _)
  | some (.octets ..) => exact .refl s

/-- A termination is handed over before the release of the selection is deferred. -/
theorem tallies_concludeExecute {c : ConnectionId} {m : Message} (h : m.station ≠ globalAddress) :
    s.Tallies (s.concludeExecute c m) := by
  rw [concludeExecute_eq h]
  have hback : s.Tallies (s.sendBack c m.termination) := s.tallies_handOver _
  cases s.selections.find? m.station m.address with
  | none => exact hback
  | some held => exact hback.trans (Mute.defer ..).tallies

/-- Releasing a selection hands nothing over. -/
theorem Mute.deactivate (s : Server) (held : Selection) : s.Mute (s.deactivate held).1 := by
  rw [Server.deactivate]
  split
  · cases s.selections.find? held.station held.address with
    | none => exact ⟨rfl, rfl, rfl⟩
    | some g => exact .noted rfl rfl rfl rfl
  · exact .refl s

/-- A plain event hands nothing over. -/
theorem sent?_of_isPlain {e : Event} (h : e.isPlain = true) : e.sent? = none := by
  cases e with
  | sent f => cases h
  | _ => rfl

end Server

open Server

/-- After every move the journal and the transport agree. -/
theorem Move.tallies {s s' : Server} {d : Deed} (h : Move d s s') : s.Tallies s' := by
  cases h with
  | note s hplain => exact (Mute.note s (sent?_of_isPlain hplain)).tallies
  | handOver hf => exact s.tallies_handOver _
  | defer delay hjob => exact (Mute.defer ..).tallies
  | write | plant | attach | callbacks | pass => exact (⟨rfl, rfl, rfl⟩ : s.Mute _).tallies
  | connection => exact (Mute.onConnectionEvent ..).tallies
  | start hstart => exact tallies_start hstart
  | stop => exact s.tallies_stop
  | stopExecutor => exact s.tallies_stopExecutor
  | take hnext => exact .trans (⟨rfl, rfl, rfl⟩ : s.Mute _).tallies (tallies_undertake ..)
  | grant =>
    have hgrant (held : Selection) : s.Mute (s.grant held) := .noted rfl rfl rfl rfl
    exact (hgrant _).tallies.trans (tallies_handOver ..)
  | deactivate hheld => exact (Mute.deactivate s _).tallies
  | apply => exact (Mute.note (s.modifyPoint _ _) rfl).tallies
  | conclude hconfirmed => exact tallies_concludeExecute hconfirmed.station

namespace Server

variable {s : Server} {options : Options} {t : Transport} {now : Int}

/-- The transport of a new server takes exactly the frames that the journal shows as handed over,
whatever happens at the server. -/
theorem took_run (h : Server.new options t now = .ok s) (inputs : List Input) :
    t.Took (s.run inputs).handed (s.run inputs).transport := by
  have hs := Visited.new h
  obtain ⟨fs, hhanded, htook⟩ : s.Tallies (s.run inputs) :=
    (hs.moves_run inputs).induction (fun _ hmove hu => hu.trans hmove.tallies) (.refl s)
  -- a new server has handed nothing over
  obtain ⟨htransport, hnone⟩ : s.transport = t ∧ s.handed = [] := by
    rw [new] at h
    split at h
    · cases h
    · split at h
      · cases h
      · obtain rfl := Except.ok.inj h
        exact ⟨rfl, rfl⟩
  rw [hhanded, hnone, List.append_nil]
  exact htransport ▸ htook

/-- A recording transport holds the frames that were handed over, above those that it held. -/
theorem frames_run {r : Recording} (h : Server.new options (.recording r) now = .ok s)
    (inputs : List Input) :
    (s.run inputs).transport.record.frames = (s.run inputs).handed ++ r.frames :=
  (took_run h inputs).frames rfl

/-- A counting transport has counted the frames that were handed over, those for one connection and
those for the queue apart. -/
theorem counts_run {sent queued : Nat} (h : Server.new options (.counting sent queued) now = .ok s)
    (inputs : List Input) :
    (s.run inputs).transport.counts =
      (sent + (s.run inputs).handed.countP (fun f => !f.isQueued),
        queued + (s.run inputs).handed.countP (·.isQueued)) :=
  (took_run h inputs).counts rfl

end Server

end Telecontrol
