import Telecontrol.Proofs.Backing
import Telecontrol.Proofs.Unselect

/-! # The silence of a stopped server

A stopped server drops the frames of its clients, and neither reports nor interrogations are sent
from it. Deferred work goes on, though, and one kind of it does not ask whether the server runs:
whoever was waiting to be told of an expired selection when the server was stopped is still told.
Nobody else is, since a stopped server has no selections that could expire.

Main statements: `Server.mute_step` (no step of a stopped server hands over a frame, but the task of
telling a holder), `Server.told_le_of_stopped` (the tasks of telling a holder were waiting when the
server was stopped) and `Server.stopped_silent`. -/

namespace Telecontrol

/-- The frame that an event hands over, if it hands over one. -/
def Event.sent? : Event → Option Sent
  | .sent f => some f
  | _ => none

namespace Server

/-- The frames that a server has handed over, the latest first. -/
def handed (s : Server) : List Sent := s.journal.filterMap fun e => e.event.sent?

variable {s s' s'' : Server} {inlet : Inlet}

/-! ## Mute operations -/

/-- One server leads to another one **mutely** when no frame is handed over, no connection is closed
at the transport, and the server neither starts nor stops. -/
structure Mute (s s' : Server) : Prop where
  running : s'.running = s.running
  transport : s'.transport = s.transport
  handed : s'.handed = s.handed

namespace Mute

/-- A server that stays as it is does so mutely. -/
theorem refl (s : Server) : s.Mute s := ⟨rfl, rfl, rfl⟩

/-- Mute ways follow each other. -/
theorem trans (h : s.Mute s') (h' : s'.Mute s'') : s.Mute s'' :=
  ⟨h'.running.trans h.running, h'.transport.trans h.transport, h'.handed.trans h.handed⟩

/-- Only the journal tells what was handed over. -/
theorem of_journal (new : List Entry) (hrun : s'.running = s.running)
    (htransport : s'.transport = s.transport) (hj : s'.journal = new ++ s.journal)
    (hnew : ∀ e ∈ new, e.event.sent? = none) : s.Mute s' := by
  refine ⟨hrun, htransport, ?_⟩
  rw [Server.handed, hj, List.filterMap_append, List.filterMap_eq_nil_iff.mpr hnew]
  rfl

/-- An event that is noted is mute unless it hands over a frame. -/
theorem noted {e : Entry} (hrun : s'.running = s.running) (htransport : s'.transport = s.transport)
    (hj : s'.journal = e :: s.journal) (he : e.event.sent? = none) : s.Mute s' :=
  of_journal [e] hrun htransport hj fun _ hx => (List.mem_singleton.mp hx) ▸ he

/-- Noting an event is mute unless it hands over a frame. -/
theorem note (s : Server) {e : Event} (he : e.sent? = none) : s.Mute (s.note e) :=
  noted rfl rfl rfl he

/-- Deferring work is mute. -/
theorem defer (s : Server) (delay : Int) (job : Job) : s.Mute (s.defer delay job) := by
  rw [defer_eq]
  split
  · exact ⟨rfl, rfl, rfl⟩
  · exact note s rfl

/-- What happens to connections is mute. -/
theorem onConnectionEvent (s : Server) (c : ConnectionId) (e : ConnectionEvent) :
    s.Mute (s.onConnectionEvent c e) := by
  rw [onConnectionEvent_eq]
  by_cases he : e = .closed
  · simp only [if_pos he]
    refine of_journal (_ :: List.map _ _) rfl rfl rfl fun x hx => ?_
    rcases List.mem_cons.mp hx with rfl | hx
    · rfl
    · obtain ⟨_, -, rfl⟩ := List.mem_map.mp hx
      rfl
  · simp only [if_neg he]
    exact noted rfl rfl rfl rfl

/-- The release of an executed selection is mute. -/
theorem releaseExecuted (s : Server) (station : CommonAddress) (address : ObjectAddress)
    (created : Int) : s.Mute (s.releaseExecuted station address created) := by
  rw [Server.releaseExecuted]
  cases s.selections.createdAt? station address created with
  | none => exact ⟨rfl, rfl, rfl⟩
  | some held => exact noted rfl rfl rfl rfl

/-- Dropping expired selections is mute. -/
theorem dropExpired (s : Server) : s.Mute s.dropExpired :=
  dropExpired_induction s ⟨rfl, rfl, rfl⟩ fun u _ _ hu =>
    hu.trans ((note u rfl).trans (defer _ _ _))

/-- Serving the timer of a point is mute. -/
theorem serveTimer (s : Server) (h : Handle) : s.Mute (s.serveTimer h) := by
  rw [Server.serveTimer]
  split
  · exact refl s
  · split
    · exact (show s.Mute (s.modifyPoint _ _) from ⟨rfl, rfl, rfl⟩).trans (defer _ _ _)
    · exact refl s

/-- A sweep is mute. -/
theorem sweep (s : Server) : s.Mute s.sweep := by
  rw [Server.sweep, Server.serveTimers]
  refine List.foldlRecOn (motive := Mute s) _ _ (dropExpired s) fun u hu id _ => ?_
  exact List.foldlRecOn (motive := Mute s) _ _ hu fun v hv h _ => hv.trans (serveTimer v h)

/-- Removing a point is mute. -/
theorem removePointAt (s : Server) (station : CommonAddress) (address : ObjectAddress) :
    s.Mute (s.removePointAt station address).1 := by
  rw [Server.removePointAt]
  split <;> exact ⟨rfl, rfl, rfl⟩

end Mute

/-! ## What a stopped server refuses -/

/-- A stopped server cannot send. -/
theorem canSend_of_stopped (hs : s.running = false) : s.canSend = false := by
  rw [canSend, hs]
  rfl

/-- A stopped server does not transmit points. -/
theorem transmit_of_stopped (hs : s.running = false) (p : Point) (cause : Cause)
    (receiver : Option ConnectionId) : (s.transmit p cause receiver).1 = s := by
  rw [transmit, send_eq_self (canSend_of_stopped hs)]
  split <;> rfl

/-- A stopped server does not transmit a point by its number either. -/
theorem transmitPoint_of_stopped (hs : s.running = false) (id : PointId) (cause : Cause)
    (receiver : Option ConnectionId) : (s.transmitPoint id cause receiver).1 = s := by
  rw [transmitPoint]
  split
  · rfl
  · exact transmit_of_stopped hs _ cause receiver

/-- A stopped server does not answer interrogations. -/
theorem interrogate_of_stopped (hs : s.running = false) (inlet : Inlet) (cause : Cause)
    (station : CommonAddress) (receiver : Option ConnectionId) :
    interrogate inlet cause station receiver s = .ok 0 s := by
  show (if s.canSend then _ else _ : Act Nat) s = _
  rw [canSend_of_stopped hs]
  rfl

/-- A stopped server drops frames. -/
theorem receive_of_stopped (hs : s.running = false) (inlet : Inlet) (c : ConnectionId)
    (f : WireFrame) : receive inlet c f s = .ok ⟨⟩ s := by
  show (if s.running then _ else _ : Act Unit) s = _
  rw [hs]
  rfl

/-- What is done with frames **drops** them while the server is stopped. -/
def Drops (inlet : Inlet) : Prop :=
  ∀ (c : ConnectionId) (f : WireFrame) (s : Server), s.running = false → inlet c f s = .ok ⟨⟩ s

/-- The handling of frames drops them while the server is stopped. -/
theorem drops_onFrame : Drops onFrame := fun c f _ hs => receive_of_stopped hs _ c f

end Server

/-! ## Mute acts -/

namespace Act

variable {α β : Type} {s s' : Server}

/-- An act is **mute** from a server when it leads to what it leaves mutely. -/
def IsMute (act : Act α) (s : Server) : Prop := s.Mute (act.after s)

/-- An act that only returns a value is mute. -/
theorem isMute_pure (a : α) : (pure a : Act α).IsMute s := .refl s

/-- An act that changes nothing is mute. -/
theorem isMute_of_ok {act : Act α} {a : α} (h : act s = .ok a s) : act.IsMute s := by
  rw [IsMute, after_ok h]
  exact .refl s

/-- An act is mute when it changes the server mutely. -/
theorem isMute_modify {f : Server → Server} (h : s.Mute (f s)) : (modify f : Act Unit).IsMute s := h

/-- Reading the server is mute when what follows is. -/
theorem isMute_get_bind {f : Server → Act β} (h : (f s).IsMute s) :
    (get >>= f : Act β).IsMute s := h

/-- Writing the server is mute when the way there and what follows are. -/
theorem isMute_set_bind {f : PUnit → Act β} (h : s.Mute s') (hf : (f ⟨⟩).IsMute s') :
    (set s' >>= f : Act β).IsMute s := h.trans hf

/-- One mute act after the other; the second starts from a server that still runs or stands. -/
theorem isMute_bind {x : Act α} {f : α → Act β} (hx : x.IsMute s)
    (hf : ∀ a s', s'.running = s.running → (f a).IsMute s') : (x >>= f).IsMute s := by
  obtain hb | ⟨a, -, hb⟩ := after_bind x f s
  · rw [IsMute, hb]
    exact hx
  · rw [IsMute, hb]
    exact Server.Mute.trans hx (hf a _ hx.running)

/-- A task whose act is mute is mute: a panic is only reported. -/
theorem IsMute.guard {act : Act Unit} (h : act.IsMute s) : s.Mute (s.guard act) := by
  obtain hg | ⟨text, hg⟩ := s.guard_cases act
  · rw [hg]
    exact h
  · rw [hg]
    exact Server.Mute.trans h (.note _ rfl)

/-- What a mute act does from outside is mute. -/
theorem IsMute.outside {act : Act Unit} (h : act.IsMute s) : s.Mute (s.outside act) := by
  rw [Server.outside_eq_after]
  exact h

end Act

/-! ## Callbacks and jobs -/

namespace Server

open Act

variable {s : Server} {inlet : Inlet}

/-- An inlet that drops frames is mute at a stopped server. -/
theorem Drops.isMute (hin : Drops inlet) (hs : s.running = false) (c : ConnectionId)
    (f : WireFrame) : (inlet c f).IsMute s := isMute_of_ok (hin c f s hs)

/-- What an action does at a stopped server is mute. -/
theorem isMute_perform (hin : Drops inlet) (hs : s.running = false) (own : Option PointId)
    (a : Action) : (perform inlet own a).IsMute s := by
  have hwrite (f : Point → Point) : s.Mute (own.elim s fun id => s.modifyPoint id f) := by
    cases own <;> exact ⟨rfl, rfl, rfl⟩
  cases a with
  | setValue value => exact isMute_modify (hwrite _)
  | setQuality quality => exact isMute_modify (hwrite _)
  | setReportInterval ms => exact isMute_modify (hwrite _)
  -- a stopped server transmits nothing, but the result is noted
  | transmit cause =>
    obtain ⟨f, hf, hcases⟩ := perform_transmit inlet own cause
    rw [hf]
    refine isMute_modify ?_
    rcases hcases s with hsame | ⟨id, result, -, hsent⟩
    · exact hsame.symm ▸ .refl s
    · rw [hsent, transmitPoint_of_stopped hs]
      exact .note s rfl
  | removePoint station address =>
    exact isMute_modify ((Mute.removePointAt s station address).trans (.note _ rfl))
  | connection c e => exact isMute_modify (.onConnectionEvent s c e)
  | inbound c f => exact hin.isMute hs c f
  | stop =>
    refine isMute_modify ?_
    rw [stop_of_not_running hs]
    exact .refl s
  | panic message => exact .refl s

/-- What a callback does at a stopped server is mute. -/
theorem isMute_performAll (hin : Drops inlet) (hs : s.running = false) (own : Option PointId)
    (actions : List Action) : (performAll inlet own actions).IsMute s := by
  induction actions generalizing s with
  | nil => exact isMute_pure _
  | cons a rest ih =>
    exact isMute_bind (isMute_perform hin hs own a) fun _ _ hrun => ih (hrun.trans hs)

/-- A callback of a point is mute while the server is stopped. -/
theorem isMute_call (hin : Drops inlet) (hs : s.running = false) (kind : PointCallback)
    (id : PointId) : (call inlet kind id).IsMute s := by
  refine isMute_get_bind ?_
  cases s.point? id with
  | none => exact isMute_pure _
  | some p =>
    cases hc : p.callbacks.get? kind with
    | none =>
      simp only [hc]
      exact isMute_pure _
    | some callback =>
      simp only [hc]
      exact isMute_bind (isMute_modify (.note s rfl)) fun _ _ hrun =>
        isMute_performAll hin (hrun.trans hs) id callback.actions

/-- So is the inventory of the points. -/
theorem isMute_inventory (hs : s.running = false) : (inventory inlet).IsMute s := by
  refine isMute_get_bind ?_
  split
  · exact isMute_of_ok (bind_ok (interrogate_of_stopped hs inlet .periodic globalAddress none))
  · exact isMute_pure _

/-- So is a timer callback. -/
theorem isMute_fireTimer (hin : Drops inlet) (hs : s.running = false) (h : Handle) :
    (fireTimer inlet h).IsMute s := by
  refine isMute_get_bind ?_
  split
  · exact isMute_pure _
  · exact isMute_call hin hs .timer _

/-- So is showing octets to their callback. -/
theorem isMute_showOctets (hin : Drops inlet) (hs : s.running = false) (sent : Bool)
    (c : ConnectionId) (data : List UInt8) : (showOctets inlet sent c data).IsMute s := by
  refine isMute_get_bind ?_
  split
  · exact isMute_pure _
  · have hnote : s.Mute (s.note (.octets sent c data)) := .note s rfl
    exact isMute_set_bind hnote (isMute_performAll hin (hnote.running.trans hs) none _)

/-- A stopped server does not transmit a point that returns; it only reports that. -/
theorem mute_returnPoint (hs : s.running = false) (h : Handle) : s.Mute (s.returnPoint h) := by
  rw [returnPoint]
  split
  · exact .refl s
  · rename_i p _
    have ht := transmit_of_stopped hs p .returnInfoRemote none
    split
    · rename_i u hu
      rw [hu] at ht
      exact ht ▸ .refl _
    · rename_i u e hu
      rw [hu] at ht
      obtain rfl := ht
      exact .note _ rfl

/-- A job of a stopped server is mute, unless it is to tell the holder of a selection. -/
theorem isMute_doJob (hin : Drops inlet) (hs : s.running = false) {job : Job}
    (hjob : ∀ g, job ≠ .unselect g) : (doJob inlet job).IsMute s := by
  cases job with
  | duty d =>
    cases d with
    | inventory => exact isMute_inventory hs
    | sweep => exact isMute_modify (.sweep s)
  | release station address created => exact isMute_modify (.releaseExecuted s ..)
  | autoReturn h => exact isMute_modify (mute_returnPoint hs h)
  | unselect g => exact absurd rfl (hjob g)
  | pointTimer h => exact isMute_fireTimer hin hs h
  | octets sent c data => exact isMute_showOctets hin hs sent c data

/-! ## Steps -/

/-- Taking a task is mute. -/
theorem mute_taking (s : Server) (task : Task Job) (e : Executor Job) :
    s.Mute (s.taking task e) := by
  rw [taking, noteLateness_eq]
  split
  · exact .noted rfl rfl rfl rfl
  · exact ⟨rfl, rfl, rfl⟩

/-- The worker of a stopped server is mute, unless it tells the holder of a selection. -/
theorem mute_work (hs : s.running = false) (hjob : ∀ g, s.nextJob? ≠ some (.unselect g)) :
    s.Mute (s.step .work) := by
  show s.Mute (s.work?.getD s)
  cases hnext : s.executor.next? s.now with
  | none =>
    rw [work?, hnext]
    exact .refl s
  | some found =>
    obtain ⟨task, e⟩ := found
    have htaking := s.mute_taking task e
    rw [(work?_eq hnext).2]
    show s.Mute (s.nextJob?.elim (s.taking task e) _)
    cases hnextJob : s.nextJob? with
    | none => exact htaking
    | some job =>
      have hdo : (doJob onFrame job).IsMute (s.taking task e) :=
        isMute_doJob drops_onFrame (htaking.running.trans hs) fun g heq => hjob g (heq ▸ hnextJob)
      exact htaking.trans hdo.guard

/-- Every step of a stopped server is mute, unless it starts the server or the worker tells the
holder of a selection. -/
theorem mute_step (hs : s.running = false) {i : Input} (hi : i ≠ .start)
    (hjob : i = .work → ∀ g, s.nextJob? ≠ some (.unselect g)) : s.Mute (s.step i) := by
  cases i with
  -- the two inputs that were excluded, then those in the order of the definition
  | work => exact mute_work hs (hjob rfl)
  | start => exact absurd rfl hi
  | pass | keepStation | vacate | write | setCallbacks => exact ⟨rfl, rfl, rfl⟩
  | releaseStation | removePoint => exact ⟨rfl, rfl, rfl⟩
  | stop =>
    show s.Mute s.stop
    rw [stop_of_not_running hs]
    exact .refl s
  | shutDown =>
    show s.Mute s.shutDown
    rw [shutDown, stop_of_not_running hs, stopExecutor]
    split
    · exact .noted rfl rfl rfl rfl
    · exact ⟨rfl, rfl, rfl⟩
  | request peer =>
    rcases s.step_request_cases peer with h | h | h
    · exact h.symm ▸ .refl s
    · exact h ▸ .note s rfl
    · exact h ▸ .note s rfl
  | connection c e => exact .onConnectionEvent s c e
  | frame c f => exact (drops_onFrame.isMute hs c f).outside
  | octets c data sent =>
    rcases s.step_octets_cases c data sent with h | h
    · exact h.symm ▸ .refl s
    · exact h ▸ .defer s _ _
  | addStation station =>
    rcases s.step_addStation_cases station with h | ⟨q, id, -, h⟩
    · exact h.symm ▸ .refl s
    · exact h ▸ .noted rfl rfl rfl rfl
  | removeStation station =>
    rcases s.step_removeStation_cases station with h | ⟨q, -, h⟩
    · exact h.symm ▸ .refl s
    · exact h ▸ .noted rfl rfl rfl rfl
  | addPoint id spec =>
    rcases s.step_addPoint_cases id spec with h | ⟨q, _, -, h⟩
    · exact h.symm ▸ .refl s
    · exact h ▸ ⟨rfl, rfl, rfl⟩
  | send f receiver =>
    show s.Mute (s.send f receiver).1
    rw [send_eq_self (canSend_of_stopped hs)]
    exact .refl s
  | sendBatch b receiver =>
    show s.Mute (s.sendBatch b receiver).1
    rw [sendBatch_eq_self (canSend_of_stopped hs)]
    exact .refl s
  | transmit id cause =>
    show s.Mute (s.transmitPoint id cause none).1
    rw [transmitPoint_of_stopped hs]
    exact .refl s
  | interrogate cause station receiver =>
    have hnone : discard (interrogate onFrame cause station receiver) s = .ok ⟨⟩ s :=
      bind_ok (interrogate_of_stopped hs onFrame cause station receiver)
    exact (isMute_of_ok hnone).outside

/-- A stopped server drops every frame of its clients. -/
theorem step_frame_of_stopped (hs : s.running = false) (c : ConnectionId) (f : WireFrame) :
    s.step (.frame c f) = s := by
  show s.outside (onFrame c f) = s
  rw [outside, drops_onFrame c f s hs]

/-! ## Telling holders -/

end Server

/-- The selection whose holder a job tells, if it tells one. -/
def Job.addressee? : Job → Option Selection
  | .unselect g => some g
  | _ => none

/-- A frame handed over tells the holder of a selection, on its connection, that it has expired. -/
def Sent.Tells (f : Sent) (g : Selection) : Prop :=
  ∃ frame, g.IsToldBy frame ∧ f = .direct g.connection frame

namespace Server

variable {s s' s'' : Server} {inputs : List Input} {g : Selection}

/-- The selections whose holders the worker tells in a run, the earliest first. -/
def addressees (s : Server) (inputs : List Input) : List Selection :=
  (s.jobs inputs).filterMap fun j => j.2.addressee?

/-- A server **tells** holders of selections and hands over nothing else: one frame for each. -/
structure TellsOnly (s s' : Server) (gs : List Selection) : Prop where
  running : s'.running = s.running
  frames : ∃ fs, List.Forall₂ Sent.Tells fs gs ∧ s'.handed = fs.reverse ++ s.handed ∧
    s'.transport = fs.foldl Transport.accept s.transport

namespace TellsOnly

/-- On a mute way nobody is told. -/
theorem of_mute (h : s.Mute s') : s.TellsOnly s' [] :=
  ⟨h.running, [], .nil, h.handed, h.transport⟩

/-- Who is told on one way and who on the next are told on both. -/
theorem trans {gs gs' : List Selection} (h : s.TellsOnly s' gs) (h' : s'.TellsOnly s'' gs') :
    s.TellsOnly s'' (gs ++ gs') := by
  obtain ⟨fs, hfs, hhanded, htransport⟩ := h.frames
  obtain ⟨fs', hfs', hhanded', htransport'⟩ := h'.frames
  refine ⟨h'.running.trans h.running, fs ++ fs', List.rel_append hfs hfs', ?_, ?_⟩
  · rw [hhanded', hhanded, List.reverse_append, List.append_assoc]
  · rw [htransport', htransport, List.foldl_append]

end TellsOnly

/-- A step of a stopped server tells the holder that its job is to tell, and nobody else. -/
theorem tellsOnly_step (hs : s.running = false) {i : Input} (hi : i ≠ .start) :
    s.TellsOnly (s.step i) ((i.job? s).toList.filterMap fun j => j.2.addressee?) := by
  by_cases htells : i = .work ∧ ∃ g, s.nextJob? = some (.unselect g)
  · obtain ⟨rfl, g, hjob⟩ := htells
    obtain ⟨task, e, f, hf, hstep⟩ := step_unselect_eq hjob
    have htaking := s.mute_taking task e
    rw [Input.job?, hjob, hstep]
    refine ⟨htaking.running, [.direct g.connection f], .cons ⟨f, hf, rfl⟩ .nil, ?_, ?_⟩
    · exact congrArg (.direct g.connection f :: ·) htaking.handed
    · exact congrArg (·.accept (.direct g.connection f)) htaking.transport
  · -- no other step has an addressee
    have hjob : ((i.job? s).toList.filterMap fun j => j.2.addressee?) = [] := by
      rw [List.filterMap_eq_nil_iff]
      intro j hj
      by_cases hwork : i = .work
      · subst hwork
        obtain ⟨job, hjob, rfl⟩ := Option.map_eq_some_iff.mp (Option.mem_toList.mp hj)
        cases job with
        | unselect g => exact absurd ⟨rfl, g, hjob⟩ htells
        | _ => rfl
      · rw [Input.job?_eq_none hwork] at hj
        cases hj
    rw [hjob]
    exact .of_mute (mute_step hs hi fun hwork g hg => htells ⟨hwork, g, hg⟩)

/-- A run of a stopped server tells the holders that its jobs are to tell, and nobody else. -/
theorem tellsOnly_run (hs : s.running = false) (hinputs : .start ∉ inputs) :
    s.TellsOnly (s.run inputs) (s.addressees inputs) := by
  induction inputs generalizing s with
  | nil => exact .of_mute (.refl s)
  | cons i rest ih =>
    obtain ⟨hi, hrest⟩ := not_or.mp (List.mem_cons.not.mp hinputs)
    have hstep := tellsOnly_step hs (Ne.symm hi)
    rw [addressees, jobs, List.filterMap_append]
    exact hstep.trans (ih (hstep.running.trans hs) hrest)

/-! ## Who is still told -/

/-- No selection expires at a stopped server. -/
theorem Reachable.expiries_step (h : s.Reachable) (hs : s.running = false) (g : Selection)
    (i : Input) : expiries g (s.step i).journal = expiries g s.journal := by
  have hafter := (h.step i).visited.expiries_le_one g
  have hmono : 0 < expiries g s.journal → 0 < expiries g (s.step i).journal := by
    rw [expiries_pos_iff, expiries_pos_iff]
    exact fun ⟨u, hu⟩ => ⟨u, (moves_step h.visited.wellFormed i).journal.subset hu⟩
  by_cases hexp : 0 < expiries g s.journal
  · have := hmono hexp
    have := h.visited.expiries_le_one g
    omega
  · suffices ¬ 0 < expiries g (s.step i).journal by omega
    intro hnew
    -- a selection that expires is stored, but a stopped server has none
    obtain ⟨-, -, s₁, s₂, h₁, hm, -, -, hsel, -, hbefore, hswept⟩ :=
      h.visited.sweeps_of_step (fun hold => hexp (expiries_pos_iff.mpr hold))
        (expiries_pos_iff.mp hnew)
    obtain ⟨events, -, hjust, hevent⟩ := h₁.records_expiry hm hbefore hswept
    have hstored := (hjust.ended hevent).1
    rw [hsel] at hstored
    rw [h.running_of_stored _ _ _ hstored] at hs
    cases hs

/-- Once the server is stopped, no selections expire until it is started again. -/
theorem Reachable.expiries_run (h : s.Reachable) (hs : s.running = false)
    (hinputs : .start ∉ inputs) (g : Selection) :
    expiries g (s.run inputs).journal = expiries g s.journal := by
  induction inputs generalizing s with
  | nil => rfl
  | cons i rest ih =>
    obtain ⟨hi, hrest⟩ := not_or.mp (List.mem_cons.not.mp hinputs)
    have hstep := (tellsOnly_step hs (Ne.symm hi)).running.trans hs
    exact (ih (h.step i) hstep hrest).trans (h.expiries_step hs g i)

/-- The books of every state that a run leads to are kept. -/
theorem Reachable.books (h : s.Reachable) (g : Selection) : ∃ n, Books g n s := by
  induction h with
  | new h => exact ⟨0, books_new h g⟩
  | step h i ih =>
    obtain ⟨n, hn⟩ := ih
    exact ⟨_, hn.step h.visited i⟩

/-- Whoever a stopped server tells was waiting to be told when it was stopped. -/
theorem told_le_of_stopped (h : s.Reachable) (hs : s.running = false) (hinputs : .start ∉ inputs)
    (g : Selection) : s.told inputs g + (s.run inputs).awaiting g ≤ s.awaiting g := by
  obtain ⟨n, hn⟩ := h.books g
  have hle := hn.le
  -- reckon from what has been told when the server is stopped: every expiry but those that wait
  have hbooks : Books g (expiries g s.journal - s.awaiting g) s :=
    ⟨by omega, fun _ => by omega⟩
  have hrun := (hbooks.run h.visited inputs).le
  rw [h.expiries_run hs hinputs] at hrun
  omega

/-- Everybody who is told is among those told. -/
theorem told_pos (hg : g ∈ s.addressees inputs) : 0 < s.told inputs g := by
  obtain ⟨⟨u, job⟩, hjob, haddressee⟩ := List.mem_filterMap.mp hg
  refine List.countP_pos_iff.mpr ⟨_, hjob, ?_⟩
  cases job with
  | unselect held =>
    obtain rfl := Option.some.inj haddressee
    exact beq_self_eq_true held
  | _ => cases haddressee

/-- Octets that are observed reach neither points nor selections; they are put into the queue for
the callback that wants to see them. -/
theorem step_octets (s : Server) (c : ConnectionId) (data : List UInt8) (sent : Bool) :
    (s.step (.octets c data sent)).plant = s.plant ∧
      (s.step (.octets c data sent)).selections = s.selections ∧
      (∀ t ∈ (s.step (.octets c data sent)).executor.queue,
        t ∈ s.executor.queue ∨ t.work = .once (.octets sent c data)) ∧
      (s.callbacks.octets sent = none → s.step (.octets c data sent) = s) := by
  show (s.onOctets c data sent).plant = _ ∧ (s.onOctets c data sent).selections = _ ∧
    (∀ t ∈ (s.onOctets c data sent).executor.queue, _) ∧ (_ → s.onOctets c data sent = s)
  rw [onOctets]
  split
  · rename_i hsome
    refine ⟨(Keeps.defer s _ _).plant, selections_defer .., fun t ht => ?_, fun hnone => ?_⟩
    · exact (mem_queue_defer s _ _ ht).symm.imp_right (·.2)
    · rw [hnone] at hsome
      cases hsome
  · exact ⟨rfl, rfl, fun _ ht => .inl ht, fun _ => rfl⟩

/-- **The silence of a stopped server.** From any state of a run in which the server is stopped, and
until it is started again, whatever comes: it drops every frame of its clients, so that nothing at
all changes, and octets that are observed reach neither points nor selections, though a callback for
them is put into the queue. It hands over nothing but the frames of tasks that tell the holders of
expired selections, one each, and each of these tasks was waiting when the server was stopped; if
none was, the transport is left alone. -/
theorem stopped_silent (h : s.Reachable) (hs : s.running = false) (hinputs : .start ∉ inputs) :
    (s.run inputs).running = false ∧
    (∀ (c : ConnectionId) (f : WireFrame), (s.run inputs).step (.frame c f) = s.run inputs) ∧
    (∀ (c : ConnectionId) (data : List UInt8) (sent : Bool),
      ((s.run inputs).step (.octets c data sent)).plant = (s.run inputs).plant ∧
      ((s.run inputs).step (.octets c data sent)).selections = (s.run inputs).selections ∧
      (∀ t ∈ ((s.run inputs).step (.octets c data sent)).executor.queue,
        t ∈ (s.run inputs).executor.queue ∨ t.work = .once (.octets sent c data)) ∧
      ((s.run inputs).callbacks.octets sent = none →
        (s.run inputs).step (.octets c data sent) = s.run inputs)) ∧
    (∃ fs, List.Forall₂ Sent.Tells fs (s.addressees inputs) ∧
      (s.run inputs).handed = fs.reverse ++ s.handed ∧
      (s.run inputs).transport = fs.foldl Transport.accept s.transport) ∧
    (∀ g, s.told inputs g + (s.run inputs).awaiting g ≤ s.awaiting g) ∧
    ((∀ g, s.awaiting g = 0) →
      (s.run inputs).handed = s.handed ∧ (s.run inputs).transport = s.transport) := by
  have htells := tellsOnly_run hs hinputs
  have hrun := htells.running.trans hs
  refine ⟨hrun, step_frame_of_stopped hrun, (s.run inputs).step_octets, htells.frames,
    told_le_of_stopped h hs hinputs, fun hnone => ?_⟩
  -- without a task that waits nobody is told, so no frame is handed over
  have hnobody : s.addressees inputs = [] := by
    refine List.eq_nil_iff_forall_not_mem.mpr fun g hg => ?_
    have hpos := told_pos hg
    have hle := told_le_of_stopped h hs hinputs g
    have hzero := hnone g
    omega
  obtain ⟨fs, hfs, hhanded, htransport⟩ := htells.frames
  rw [hnobody] at hfs
  cases hfs
  exact ⟨hhanded, htransport⟩

end Server

namespace Sample

/-- The selection of the sample site expires, and the server is stopped before its holder is
told. -/
def stopped : Server := site.run (setUp ++ [select, .pass 1000, .work, .work, .stop])

end Sample

namespace Server

/-- The client of the sample site is told by the stopped server. -/
theorem sample_told_by_stopped :
    Sample.stopped.running = false ∧
      Sample.stopped.addressees [.work] = [Sample.grant 0] ∧
      ∃ f, Sent.Tells f (Sample.grant 0) ∧
        (Sample.stopped.run [.work]).handed = f :: Sample.stopped.handed := by
  have hreachable : Sample.stopped.Reachable := (Reachable.new Sample.new_site).run _
  have hstopped : Sample.stopped.running = false := rfl
  have haddressees : Sample.stopped.addressees [.work] = [Sample.grant 0] := by decide +kernel
  have hinputs : Input.start ∉ [Input.work] := by nofun
  obtain ⟨-, -, -, ⟨fs, hfs, hhanded, -⟩, -⟩ := stopped_silent hreachable hstopped hinputs
  rw [haddressees] at hfs
  obtain ⟨f, rest, hf, hrest, rfl⟩ := List.forall₂_cons_right_iff.mp hfs
  cases hrest
  rw [List.reverse_singleton, List.singleton_append] at hhanded
  exact ⟨hstopped, haddressees, f, hf, hhanded⟩

end Server

end Telecontrol
