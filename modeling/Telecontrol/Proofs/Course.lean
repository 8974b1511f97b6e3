import Telecontrol.Proofs.Passage

/-! # Runs are made of moves

Handling a frame, doing a job and every input of a run come about by moves. The worker takes at most
one task for an input, and everything else that an input does is free of it.

Main statements: `Server.passes_onFrame` (a frame leads to the deeds of its command and of the
callbacks), `Server.workThrough?_cases` (the course of one task), `Server.step_moves` and
`Server.Reachable.visited` (a run leads to visited states). -/

namespace Telecontrol

namespace Server

open Act

variable {deeds : Set Deed} {r : Regime} {inlet : Inlet} {c : ConnectionId} {f : WireFrame}
  {m : Message}

/-! ## Frames -/

/-- The answer to an interrogation passes. -/
theorem passes_answerInterrogation (hin : inlet.Passes r)
    (hf : Message.ofFrame f = .ok m) (hty : m.type.isCommand = false) (cause : Cause) (s : Server) :
    (answerInterrogation inlet c m cause).Passes r s := by
  refine passes_bind (passes_modify fun _ => r.plainly (s.plain_confirm c m false))
    fun _ s' _ => ?_
  refine passes_bind (passes_bind
    (passes_interrogate hin cause m.station c s') fun _ _ _ => passes_pure _)
    fun _ u _ => ?_
  exact passes_modify fun _ => r.plainly (u.plain_terminate c hf hty)

/-- The refusal of a group passes. -/
theorem passes_refuseGroup (hin : inlet.Passes r) (s : Server) :
    (refuseGroup inlet c m).Passes r s :=
  passes_bind (passes_modify fun _ => r.plainly (s.plain_confirm c m true))
    fun _ s' _ => passes_reject hin c m.frame _ s'

/-- An interrogation passes. -/
theorem passes_onInterrogation (hin : inlet.Passes r) (hf : Message.ofFrame f = .ok m)
    (hty : m.type.isCommand = false) (s : Server) : (onInterrogation inlet c m).Passes r s := by
  rw [onInterrogation]
  split
  · exact passes_modify fun _ => r.plainly (s.plain_confirm c m false)
  · split
    · exact passes_refuseGroup hin s
    · exact passes_answerInterrogation hin hf hty _ s

/-- A counter interrogation passes. -/
theorem passes_onCounterInterrogation (hin : inlet.Passes r)
    (hf : Message.ofFrame f = .ok m) (hty : m.type.isCommand = false) (s : Server) :
    (onCounterInterrogation inlet c m).Passes r s := by
  rw [onCounterInterrogation]
  split
  · exact passes_refuseGroup hin s
  · exact passes_answerInterrogation hin hf hty _ s

/-- A read command passes. -/
theorem passes_onRead (hin : inlet.Passes r) (s : Server) : (onRead inlet c m).Passes r s := by
  refine passes_get_bind ?_
  cases s.target m with
  | error why => exact passes_reject hin c m.frame why s
  | ok found =>
    obtain ⟨station, id, p⟩ := found
    dsimp only
    split
    · refine passes_bind (passes_call hin .beforeRead id s) fun _ s' _ => ?_
      refine passes_modify fun _ => r.plainly ?_
      have ht := s'.plain_transmitPoint id .request (some c)
      split
      · rename_i u e hu
        rw [hu] at ht
        exact ht.trans (u.plain_report rfl)
      · rename_i u _ _ hu
        rw [hu] at ht
        exact ht
    · exact passes_reject hin c m.frame _ s

/-- A command passes, given a regime that admits its sender. -/
theorem passes_onCommand (hin : inlet.Passes r) (hf : Message.ofFrame f = .ok m)
    (hcause : m.type.isCommand = true → m.cause = .activation ∨ m.cause = .deactivation)
    {s : Server} (hadmits : r.Admits c m.originator s) : (onCommand inlet c m).Passes r s := by
  intro hs
  rw [after, onCommand_eq]
  cases ht : s.commandTarget m with
  | error why =>
    refine passes_bind (passes_modify fun _ => ?_) (fun _ s' _ => ?_) hs
    · exact r.plainly (s.plain_confirmAs c m .failure)
    · exact passes_reject hin c m.frame why s'
  | ok found =>
    obtain ⟨station, id, p⟩ := found
    have hty := (commandTarget_eq_ok_iff.mp ht).1
    have hm : Message.ofFrame m.frame = .ok m := by rw [Message.frame_of_ofFrame hf, hf]
    exact passes_handleCommand hin hadmits hm (hcause hty) ht hs

/-- Whatever a message asks for passes. -/
theorem passes_dispatch (hin : inlet.Passes r) (hf : Message.ofFrame f = .ok m)
    (hcause : m.type.isCommand = true → m.cause = .activation ∨ m.cause = .deactivation)
    {s : Server} (hadmits : r.Admits c m.originator s) : (dispatch inlet c m).Passes r s := by
  rw [dispatch]
  split
  · rename_i h
    exact passes_onInterrogation hin hf (by rw [h]; rfl) s
  · rename_i h
    exact passes_onCounterInterrogation hin hf (by rw [h]; rfl) s
  · exact passes_onRead hin s
  · exact passes_modify fun _ => r.plainly (s.plain_onClock c m)
  · exact passes_onCommand hin hf hcause hadmits

/-- A frame passes when its command is admitted while the server runs, whatever its type. -/
theorem passes_receive (hin : inlet.Passes r) {s : Server}
    (hadmits : s.running = true → r.Admits c f.originator s) : (receive inlet c f).Passes r s := by
  refine passes_get_bind ?_
  split
  · rename_i hrun
    cases hf : Message.ofFrame f with
    | error why => exact passes_reject hin c f why s
    | ok m =>
      dsimp only
      cases hr : s.refusal? m with
      | some why =>
        dsimp only
        split
        · exact passes_bind (passes_modify fun _ => r.plainly (s.plain_confirm c m true))
            fun _ s' _ => passes_reject hin c f why s'
        · exact passes_reject hin c f why s
      | none =>
        -- a command of another cause would have been refused
        have hcause (hty : m.type.isCommand = true) :
            m.cause = .activation ∨ m.cause = .deactivation := by
          refine (Message.hasValidCause_of_isCommand hty).mp ?_
          cases hv : m.hasValidCause with
          | true => rfl
          | false =>
            rw [refusal?, Message.isControl, hty, hv] at hr
            cases hr
        have horiginator : m.originator = f.originator := by
          rw [Message.originator, Message.frame_of_ofFrame hf]
        exact passes_dispatch hin hf hcause (horiginator ▸ hadmits hrun)
  · exact passes_pure _

/-- Frames pass for their commands, however deep they are nested. -/
theorem passes_receiveWithin (hscope : Deed.Scope deeds) (depth : Nat) :
    Inlet.Passes (.free hscope) (receiveWithin depth) := by
  induction depth with
  | zero => exact fun _ _ _ _ => passes_pure _
  | succ depth ih =>
    exact fun _ _ hcmd _ => passes_receive ih fun _ => Regime.free_admits hscope hcmd

/-- The handling of frames passes for their commands. -/
theorem passes_onFrame (hscope : Deed.Scope deeds) : Inlet.Passes (.free hscope) onFrame :=
  passes_receiveWithin hscope nesting

/-! ## The worker -/

/-- The cyclic reports pass. -/
theorem passes_inventory (hin : inlet.Passes r) (s : Server) : (inventory inlet).Passes r s := by
  refine passes_get_bind ?_
  split
  · exact passes_bind (passes_interrogate hin _ _ _ s) fun _ _ _ => passes_pure _
  · exact passes_pure _

/-- The timer of a point passes. -/
theorem passes_fireTimer (hin : inlet.Passes r) (h : Handle) (s : Server) :
    (fireTimer inlet h).Passes r s := by
  refine passes_get_bind ?_
  split
  · exact passes_pure _
  · exact passes_call hin _ _ s

/-- The callback that is shown octets passes. -/
theorem passes_showOctets (hin : inlet.Passes r) (sent : Bool) (c : ConnectionId)
    (data : List UInt8) (s : Server) : (showOctets inlet sent c data).Passes r s := by
  intro hs
  refine passes_get_bind ?_ hs
  cases ha : s.callbacks.octets sent with
  | none => exact passes_pure _
  | some actions =>
    exact passes_set_bind (fun _ => r.plainly (s.plain_note rfl))
      (passes_performAll hin none (hs.hooked.octets ha) _)

/-- A panic in a task is only reported. -/
theorem guard_cases (s : Server) (act : Act Unit) :
    s.guard act = act.after s ∨
      ∃ text, s.guard act = (act.after s).report (.task (.panicked text)) := by
  rw [guard]
  cases hact : act s with
  | ok a s' => exact .inl (after_ok hact).symm
  | error e s' => exact .inr ⟨e.message, by rw [after_error hact]⟩

/-- A panic leads nowhere else. -/
theorem leads_guard {s : Server} {act : Act Unit} (h : r.leads s (act.after s)) :
    r.leads s (s.guard act) := by
  obtain hg | ⟨text, hg⟩ := s.guard_cases act
  · rw [hg]
    exact h
  · rw [hg]
    exact r.trans h (r.plainly ((act.after s).plain_report rfl))

/-- What a job still does once the worker has undertaken it. -/
theorem leads_doJob (hin : inlet.Passes r) {s : Server} (hs : s.Ready r.deeds) (job : Job) :
    r.leads (s.undertake (some job)) (s.guard (doJob inlet job)) := by
  cases job with
  | duty d =>
    cases d with
    | inventory => exact leads_guard (passes_inventory hin s hs)
    | sweep => exact r.plainly s.dropExpired.plain_serveTimers
  | release station address created => exact r.refl _
  | autoReturn h => exact r.plainly (s.plain_returnPoint h)
  | unselect held => exact r.refl _
  | pointTimer h => exact leads_guard (passes_fireTimer hin h s hs)
  | octets sent c data => exact leads_guard (passes_showOctets hin sent c data s hs)

/-- The job that the worker does next. -/
def nextJob? (s : Server) : Option Job := do
  let (task, executor) ← s.executor.next? s.now
  (executor.launch s.now task).2

/-- A task that starts late is reported. -/
theorem noteLateness_eq (s : Server) (t : Task Job) :
    s.noteLateness t =
      if TaskNotice.latenessThreshold < t.due.lateness s.now then
        s.report (.task (.late (t.due.lateness s.now) t.seq))
      else s := rfl

/-- Noting that a task is late is plain. -/
theorem plain_noteLateness (s : Server) (t : Task Job) : Moves {.plain} s (s.noteLateness t) := by
  rw [noteLateness_eq]
  split
  · exact s.plain_report rfl
  · exact .refl s

/-- Noting that a task is late changes the journal only. -/
theorem noteLateness_fields (s : Server) (t : Task Job) :
    (s.noteLateness t).now = s.now ∧ (s.noteLateness t).plant = s.plant ∧
      (s.noteLateness t).selections = s.selections ∧
      (s.noteLateness t).executor = s.executor := by
  rw [noteLateness_eq]
  split <;> exact ⟨rfl, rfl, rfl, rfl⟩

/-- Whether a task is late does not depend on the executor. -/
theorem noteLateness_executor (s : Server) (e : Executor Job) (t : Task Job) :
    { s with executor := e }.noteLateness t = { s.noteLateness t with executor := e } := by
  rw [noteLateness_eq, noteLateness_eq]
  dsimp only
  split <;> rfl

/-- The server with which the worker begins a task that it has taken. -/
def taking (s : Server) (task : Task Job) (e : Executor Job) : Server :=
  { s.noteLateness task with executor := (e.launch s.now task).1 }

/-- The worker takes a task and does its job. -/
theorem work?_eq {s : Server} {task : Task Job} {e : Executor Job}
    (h : s.executor.next? s.now = some (task, e)) :
    s.nextJob? = (e.launch s.now task).2 ∧
      s.work? = some (s.nextJob?.elim (s.taking task e) fun job =>
        (s.taking task e).guard (doJob onFrame job)) := by
  have hjob : s.nextJob? = (e.launch s.now task).2 := by
    show (s.executor.next? s.now).bind _ = _
    rw [h]
    rfl
  refine ⟨hjob, ?_⟩
  have hnow := (s.noteLateness_fields task).1
  rw [work?, h, hjob, taking]
  dsimp only
  rw [noteLateness_executor, ← congrArg (fun now => e.launch now task) hnow]

/-- The worker takes the next task and does its job, if a task is ready. Frames that callbacks hand
in are delivered **through** an inlet. -/
def workThrough? (inlet : Inlet) (s : Server) : Option Server :=
  match s.executor.next? s.now with
  | none => none
  | some (task, e) =>
    some (s.nextJob?.elim (s.taking task e) fun job => (s.taking task e).guard (doJob inlet job))

/-- The worker delivers frames like those of clients. -/
theorem workThrough?_onFrame (s : Server) : s.workThrough? onFrame = s.work? := by
  cases hnext : s.executor.next? s.now with
  | none => rw [workThrough?, work?, hnext]
  | some r =>
    rw [workThrough?, hnext]
    exact (work?_eq hnext).2.symm

/-- The course of one task: its lateness is noted, it is taken, and then what it calls runs. -/
theorem workThrough?_cases {s s' : Server} (hs : s.Ready r.deeds) (hin : inlet.Passes r)
    (h : s.workThrough? inlet = some s') :
    ∃ s₁ s₂, Moves {.plain} s s₁ ∧ Move (.work s.nextJob?) s₁ s₂ ∧ r.leads s₂ s' ∧
      s₁.now = s.now ∧ s₁.selections = s.selections ∧ s₁.executor = s.executor := by
  cases hnext : s.executor.next? s.now with
  | none =>
    rw [workThrough?, hnext] at h
    cases h
  | some found =>
    obtain ⟨task, e⟩ := found
    obtain ⟨hnow, -, hsel, hexec⟩ := s.noteLateness_fields task
    obtain ⟨hjob, -⟩ := work?_eq hnext
    have hnext' : (s.noteLateness task).executor.next? (s.noteLateness task).now =
        some (task, e) := by rw [hexec, hnow, hnext]
    -- noting the lateness writes the journal only, so the task is taken from the same queue
    have hnoted := r.ready (r.plainly (s.plain_noteLateness task)) hs
    have hready : (s.taking task e).Ready r.deeds :=
      ⟨⟨hnoted.wellFormed.global, hnoted.wellFormed.selectable,
        Executor.routine_launch hnext hs.wellFormed.routine⟩,
        ⟨hnoted.hooked.points, hnoted.hooked.unexpected, hnoted.hooked.octets⟩⟩
    have htake : Move (.work s.nextJob?) (s.noteLateness task)
        ((s.taking task e).undertake s.nextJob?) := by
      have hlaunch : e.launch (s.noteLateness task).now task = e.launch s.now task := by rw [hnow]
      have hmove := Move.take hnext'
      rw [hlaunch, ← hjob] at hmove
      exact hmove
    refine ⟨_, _, s.plain_noteLateness task, htake, ?_, hnow, hsel, hexec⟩
    rw [workThrough?, hnext] at h
    obtain rfl := Option.some.inj h
    cases s.nextJob? with
    | none => exact r.refl _
    | some job => exact leads_doJob hin hready job

/-- One piece of work is a plain beginning, the taking of the task and the moves of its job. -/
theorem work?_cases {s s' : Server} (hs : s.WellFormed) (h : s.work? = some s') :
    ∃ s₁ s₂, Moves {.plain} s s₁ ∧ Move (.work s.nextJob?) s₁ s₂ ∧
      Moves {d | d.IsInner} s₂ s' ∧ s₁.now = s.now ∧ s₁.selections = s.selections ∧
      s₁.executor = s.executor :=
  workThrough?_cases ⟨hs, hooked_inner s⟩ (passes_onFrame Deed.scope_inner)
    (s.workThrough?_onFrame.trans h)

end Server

/-! ## Inputs -/

/-- Deeds that take no task. -/
def Deed.IsIdle : Deed → Prop
  | .work _ => False
  | _ => True

/-- Deeds that take no task and do not stop the executor. -/
def Deed.IsOrdinary : Deed → Prop
  | .work _ | .shutDown => False
  | _ => True

/-- Deeds that neither concern clients nor stop the server. -/
def Deed.IsDirect : Deed → Prop
  | .plain | .attach | .start | .time => True
  | _ => False

/-- Direct deeds are ordinary. -/
theorem Deed.IsDirect.isOrdinary {d : Deed} (h : d.IsDirect) : d.IsOrdinary := by
  cases d <;> trivial

/-- What callbacks do is ordinary. -/
theorem Deed.IsInner.isOrdinary {d : Deed} (h : d.IsInner) : d.IsOrdinary := by
  cases d <;> trivial

/-- Ordinary deeds take no task. -/
theorem Deed.IsOrdinary.isIdle {d : Deed} (h : d.IsOrdinary) : d.IsIdle := by
  cases d <;> trivial

/-- An input is **direct** when it calls no callback, reports no event of a connection and does not
stop the server. -/
def Input.IsDirect : Input → Prop
  | .work | .stop | .shutDown | .connection .. | .frame .. | .interrogate .. => False
  | _ => True

/-- What callbacks do takes no task. -/
theorem Deed.IsInner.isIdle {d : Deed} (h : d.IsInner) : d.IsIdle := h.isOrdinary.isIdle

namespace Server

open Act

/-- The next job is that of the next task. -/
theorem next?_of_nextJob? {s : Server} {job : Job} (h : s.nextJob? = some job) :
    ∃ task e, s.executor.next? s.now = some (task, e) ∧ (e.launch s.now task).2 = some job := by
  cases hnext : s.executor.next? s.now with
  | none =>
    rw [nextJob?, hnext] at h
    cases h
  | some r => exact ⟨r.1, r.2, rfl, (work?_eq hnext).1.symm.trans h⟩

/-- Plain moves are ordinary. -/
theorem ordinarily {s s' : Server} (h : Moves {.plain} s s') : Moves {d | d.IsOrdinary} s s' :=
  ((Regime.free Deed.scope_inner).plainly h).mono fun _ hd => hd.isOrdinary

/-- Plain moves take no task. -/
theorem idly {s s' : Server} (h : Moves {.plain} s s') : Moves {d | d.IsIdle} s s' :=
  (ordinarily h).mono fun _ hd => hd.isIdle

/-- A move for a deed other than a task. -/
theorem idle_move {d : Deed} {s s' : Server} (h : Move d s s') (hd : d.IsIdle) :
    Moves {d | d.IsIdle} s s' := .single hd h

/-- A move for an ordinary deed. -/
theorem ordinary_move {d : Deed} {s s' : Server} (h : Move d s s') (hd : d.IsOrdinary) :
    Moves {d | d.IsOrdinary} s s' := .single hd h

/-- From outside, an act leaves what it leaves, be it completed or cut short. -/
theorem outside_eq_after (s : Server) (act : Act Unit) : s.outside act = act.after s := by
  rw [outside, after]
  cases act s <;> rfl

/-- An act that passes is ordinary. -/
theorem ordinary_outside {s : Server} {act : Act Unit} (hs : s.Ready r.deeds)
    (h : act.Passes r s) : Moves {d | d.IsOrdinary} s (s.outside act) := by
  rw [outside_eq_after]
  exact (r.moves (h hs)).mono fun d hd => (r.scope.inner d hd).isOrdinary

/-- Plain moves are direct. -/
theorem directly {s s' : Server} (h : Moves {.plain} s s') : Moves {d | d.IsDirect} s s' :=
  h.mono fun d hd => by rw [Set.mem_singleton_iff.mp hd]; trivial

/-- A move for a direct deed. -/
theorem direct_move {d : Deed} {s s' : Server} (h : Move d s s') (hd : d.IsDirect) :
    Moves {d | d.IsDirect} s s' := .single hd h

/-- Writing to a point from outside is direct. -/
theorem direct_writePoint (s : Server) (id : PointId) (w : PointWrite) :
    Moves {d | d.IsDirect} s (s.writePoint id w) := by
  cases w with
  | callback kind callback => exact direct_move (.attach s id kind callback) trivial
  | value | quality | reportInterval | reported | timer =>
    exact directly (s.plain_modifyPoint id (fun _ => ⟨rfl, rfl, rfl, rfl, rfl, rfl⟩) fun _ => rfl)

/-- Direct inputs lead to direct deeds. -/
theorem step_direct (s : Server) {i : Input} (hi : i.IsDirect) :
    Moves {d | d.IsDirect} s (s.step i) := by
  have hplant {q : Plant} (hq : s.plant.Change s.now q) :
      Moves {d | d.IsDirect} s { s with plant := q } := direct_move (.plant s hq) trivial
  cases i with
  | work | stop | shutDown | connection | frame | interrogate => exact hi.elim
  | pass ms => exact direct_move (.pass s ms) trivial
  -- an input that fails leaves the server as it is, and one that succeeds is one move and perhaps a
  -- notice
  | start =>
    show Moves {d | d.IsDirect} s (s.orSame s.start)
    cases h : s.start with
    | ok s' => exact direct_move (.start h) trivial
    | error e => exact .refl s
  | request peer =>
    rcases s.step_request_cases peer with h | h | h
    · exact h.symm ▸ .refl s
    · exact h ▸ directly (s.plain_report rfl)
    · exact h ▸ directly (s.plain_note rfl)
  | octets c data sent =>
    rcases s.step_octets_cases c data sent with h | h
    · exact h.symm ▸ .refl s
    · exact h ▸ direct_move (.defer s _ rfl) trivial
  | addStation station =>
    rcases s.step_addStation_cases station with h | ⟨q, id, ha, h⟩
    · exact h.symm ▸ .refl s
    · exact h ▸ (hplant (.addStation ha)).trans (directly (plain_report _ rfl))
  | removeStation station =>
    rcases s.step_removeStation_cases station with h | ⟨q, hr, h⟩
    · exact h.symm ▸ .refl s
    · exact h ▸ (hplant (.removeStation hr)).trans (directly (plain_report _ rfl))
  | keepStation id => exact hplant (.keep _ id)
  | releaseStation id => exact hplant (.release _ id)
  | addPoint id spec =>
    rcases s.step_addPoint_cases id spec with h | ⟨q, _, ha, h⟩
    · exact h.symm ▸ .refl s
    · exact h ▸ hplant (.addPoint ha)
  | removePoint id address => exact hplant (.removePoint _ id address)
  | vacate h => exact hplant (.vacate _ h)
  | write id w => exact s.direct_writePoint id w
  | setCallbacks callbacks => exact direct_move (.callbacks s callbacks) trivial
  | send f receiver => exact directly (s.plain_send f receiver)
  | sendBatch b receiver => exact directly (s.plain_sendBatch b receiver)
  | transmit id cause => exact directly (s.plain_transmitPoint id cause none)

/-- Every input is ordinary, apart from the worker's and the one that gives the server up. -/
theorem step_ordinary {s : Server} (hs : s.WellFormed) {i : Input} (hi : i ≠ .work)
    (hkeep : i ≠ .shutDown) : Moves {d | d.IsOrdinary} s (s.step i) := by
  have hready : s.Ready {d | d.IsInner} := ⟨hs, hooked_inner s⟩
  by_cases hdirect : i.IsDirect
  · exact (s.step_direct hdirect).mono fun _ hd => hd.isOrdinary
  cases i with
  | work => exact absurd rfl hi
  | shutDown => exact absurd rfl hkeep
  | stop => exact ordinary_move (.stop s) trivial
  | connection c e => exact ordinary_move (.connection s c e) trivial
  | frame c f =>
    exact ordinary_outside hready (passes_onFrame Deed.scope_inner c f trivial s)
  | interrogate cause station receiver =>
    exact ordinary_outside hready (passes_bind (passes_interrogate
      (passes_onFrame Deed.scope_inner) cause station receiver s) fun _ _ _ => passes_pure _)
  | _ => exact absurd trivial hdirect

/-- Every input but the worker's takes no task. -/
theorem step_moves {s : Server} (hs : s.WellFormed) {i : Input} (hi : i ≠ .work) :
    Moves {d | d.IsIdle} s (s.step i) := by
  by_cases hkeep : i = .shutDown
  · -- the server stops first, then the executor, and then the plant is dissolved
    rw [hkeep]
    have hstop := idle_move (Move.stop s) trivial
    have hexec := idle_move (Move.stopExecutor s.stop) trivial
    exact (hstop.trans hexec).trans (idle_move (.plant _ (.dissolve _)) trivial)
  · exact (step_ordinary hs hi hkeep).mono fun _ hd => hd.isIdle

/-- A step of a run is made of moves. -/
theorem moves_step {s : Server} (hs : s.WellFormed) (i : Input) : Moves Set.univ s (s.step i) := by
  by_cases hi : i = .work
  · rw [hi]
    show Moves Set.univ s (s.work?.getD s)
    cases hw : s.work? with
    | none => exact .refl s
    | some s' =>
      obtain ⟨s₁, s₂, hnote, htake, hrest, -⟩ := work?_cases hs hw
      exact ((hnote.mono (Set.subset_univ _)).trans (.single (Set.mem_univ _) htake)).trans
        (hrest.mono (Set.subset_univ _))
  · exact (step_moves hs hi).mono (Set.subset_univ _)

/-- A step of a run leads from visited states to visited states. -/
theorem Visited.step {s : Server} (h : s.Visited) (i : Input) : (s.step i).Visited :=
  h.moves (moves_step h.wellFormed i)

/-- The state after an input, when frames are delivered through an inlet: those of clients and those
that callbacks hand in. -/
def stepThrough (inlet : Inlet) (s : Server) : Input → Server
  | .work => (s.workThrough? inlet).getD s
  | .frame c f => s.outside (inlet c f)
  | .interrogate cause station receiver =>
    s.outside (discard <| interrogate inlet cause station receiver)
  | i => s.step i

/-- A step delivers frames as they come. -/
theorem stepThrough_onFrame (s : Server) (i : Input) : s.stepThrough onFrame i = s.step i := by
  cases i with
  | work =>
    show (s.workThrough? onFrame).getD s = s.work?.getD s
    rw [workThrough?_onFrame]
  | _ => rfl

/-- Direct inputs deliver no frame. -/
theorem stepThrough_direct (inlet : Inlet) (s : Server) {i : Input} (hi : i.IsDirect) :
    s.stepThrough inlet i = s.step i := by
  cases i <;> first | rfl | exact hi.elim

/-- What every move but those of commands keeps, and whatever a regime allows, is kept by a step
through an inlet that passes. -/
theorem stepThrough_induction {P : Server → Prop}
    (hmove : ∀ {d : Deed} {u u' : Server}, Move d u u' → ¬ d.IsCommand → P u → P u')
    (hleads : ∀ {u u' : Server}, r.leads u u' → P u → P u') {s : Server} (hs : s.WellFormed)
    (hdeeds : r.deeds = {d | d.IsInner}) (hin : inlet.Passes r) (h : P s) (i : Input) :
    P (s.stepThrough inlet i) := by
  have hready : s.Ready r.deeds := ⟨hs, hdeeds ▸ hooked_inner s⟩
  have houtside {act : Act Unit} (hact : act.Passes r s) : P (s.outside act) := by
    rw [outside_eq_after]
    exact hleads (hact hready) h
  by_cases hdirect : i.IsDirect
  · rw [stepThrough_direct inlet s hdirect]
    refine (s.step_direct hdirect).induction (fun {u u' d} hd hm => hmove hm ?_) h
    cases d with
    | command => exact hd.elim
    | _ => exact not_false
  -- the inputs that are not direct, each with what it consists of
  cases i with
  | work =>
    show P ((s.workThrough? inlet).getD s)
    cases hw : s.workThrough? inlet with
    | none => exact h
    | some s' =>
      obtain ⟨s₁, s₂, hnote, htake, hrest, -⟩ := workThrough?_cases hready hin hw
      exact hleads hrest (hmove htake not_false (hleads (r.plainly hnote) h))
  | frame c f =>
    have hcmd : .command c f.originator ∈ r.deeds := by rw [hdeeds]; trivial
    exact houtside (hin c f hcmd s)
  | interrogate cause station receiver =>
    exact houtside (passes_bind (passes_interrogate hin cause station receiver s)
      fun _ _ _ => passes_pure _)
  | stop => exact hmove (.stop s) not_false h
  | shutDown =>
    -- the server stops, then its worker, and then the plant is dissolved
    have hexec := hmove (.stopExecutor s.stop) not_false (hmove (.stop s) not_false h)
    exact hmove (.plant s.stop.stopExecutor (.dissolve _)) not_false hexec
  | connection c e => exact hmove (.connection s c e) not_false h
  | _ => exact absurd trivial hdirect

/-- A run is made of moves. -/
theorem Visited.moves_run {s : Server} (h : s.Visited) (inputs : List Input) :
    Moves Set.univ s (s.run inputs) := by
  induction inputs generalizing s with
  | nil => exact .refl s
  | cons i rest ih => exact (moves_step h.wellFormed i).trans (ih (h.step i))

/-- A run leads to visited states. -/
theorem Reachable.visited {s : Server} (h : s.Reachable) : s.Visited := by
  induction h with
  | new h => exact .new h
  | step _ i ih => exact ih.step i

end Server

end Telecontrol
