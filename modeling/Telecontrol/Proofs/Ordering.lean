import Telecontrol.Proofs.Onward

/-! # Commands that order a return

A command **orders** that a point return when it executes a point that asks for it, succeeds, and
finds the related address listed once the receive callback has answered. Then exactly one task is
put into the queue for it. Apart from that every frame relays: nothing else has a point return but
the frames that callbacks hand in, and for those the same holds.

Main statements: `Server.relays_receive` and `Server.receive_of_orders`, and for the states of runs
`Server.Reachable.executor_running` (a server that runs can defer work). -/

namespace Telecontrol

/-! ## The executor of a running server -/

/-- Chains are begun by an executor that runs. -/
theorem Executor.running_of_addPeriodic {β : Type} {e e' : Executor β} {now : Int} {interval : Nat}
    {body : β} {chain : ChainId} (h : e.addPeriodic now interval body = .ok (e', chain)) :
    e.running = true := by
  rw [addPeriodic] at h
  split at h
  · cases h
  · split at h
    · assumption
    · cases h

/-- Only giving a server up stops its executor, and it takes one that runs to start the server. -/
theorem Move.executor_running {d : Deed} {s s' : Server} (h : Move d s s') (hd : d ≠ .shutDown) :
    s'.executor.running = s.executor.running ∧
      (s'.running = true → s.running = true ∨ s.executor.running = true) := by
  -- what a move does to the duties of the server says what it does to the executor
  rcases h.duties_cases hd with hsteady | hbegins | hends | ⟨t, e, hnext, hsteady⟩
  · exact ⟨hsteady.gains.running, fun hrun => .inl (hsteady.running.symm.trans hrun)⟩
  · obtain ⟨e₁, c₁, c₂, h₁, h₂, -⟩ := hbegins.chains
    have hrunning := (Executor.queue_addPeriodic h₂).1.trans (Executor.queue_addPeriodic h₁).1
    exact ⟨hrunning, fun _ => .inr (Executor.running_of_addPeriodic h₁)⟩
  · refine ⟨by rw [hends.executor, Executor.running_foldl_cancel], fun hrun => ?_⟩
    rw [hends.after] at hrun
    cases hrun
  · obtain ⟨-, -, -, -, -, -, he⟩ := (Executor.next?_eq_some_iff ..).mp hnext
    exact ⟨hsteady.gains.running.trans ((Executor.running_launch ..).trans he),
      fun hrun => .inl (hsteady.running.symm.trans hrun)⟩

/-- Unless the worker is shut down, it runs on or not, as before. -/
theorem Moves.executor_running {s s' : Server} (h : Moves {d | d ≠ .shutDown} s s') :
    s'.executor.running = s.executor.running :=
  h.induction (P := fun u => u.executor.running = s.executor.running)
    (fun hd hm hu => (hm.executor_running hd).1.trans hu) rfl

/-- A server that runs goes on with an executor that runs. -/
theorem Moves.executor_running_of_running {s s' : Server} (h : Moves {d | d ≠ .shutDown} s s')
    (hs : s.running = true → s.executor.running = true) (hrun : s'.running = true) :
    s'.executor.running = true := by
  refine h.induction (P := fun u => u.running = true → u.executor.running = true)
    (fun hd hm hu hrun => ?_) hs hrun
  obtain ⟨hsame, hbefore⟩ := hm.executor_running hd
  exact hsame.trans ((hbefore hrun).elim hu id)

namespace Server

/-- The executor of a server that runs is running, in every state that a run leads to. -/
theorem Reachable.executor_running {s : Server} (h : s.Reachable) (hrun : s.running = true) :
    s.executor.running = true := by
  induction h with
  | new h =>
    obtain rfl := new_eq_ok h
    cases hrun
  | @step s h i ih =>
    by_cases hi : i = .shutDown
    · -- a server that is given up is stopped first
      have hstopped : s.stop.running = false := by
        cases hs : s.running with
        | false => rw [stop_of_not_running hs, hs]
        | true => rw [stop_eq hs]
      rw [hi] at hrun
      have hrun : s.stop.stopExecutor.running = true := hrun
      rw [stopExecutor] at hrun
      split at hrun <;> exact absurd hrun (by rw [Bool.not_eq_true]; exact hstopped)
    · exact (moves_of_step h.visited.wellFormed hi).executor_running_of_running ih hrun

open Act

variable {inlet : Inlet} (hin : inlet.Passes (.free Deed.scope_inner)) {c : ConnectionId}
  {f : WireFrame} {m : Message} {s u : Server} {station : StationId} {id : PointId} {p : Point}
  {h : Handle}

/-! ## Orders -/

/-- A command that was executed has a point return if its own point asks for that and the related
address is listed in the station. -/
theorem returnTarget_eq_some_iff : s.returnTarget station p = some h ↔
    p.autoReturn = true ∧ ∃ a, p.related = some a ∧ s.plant.handle? station a = some h := by
  rw [returnTarget, Option.ite_none_right_eq_some, Option.bind_eq_some_iff]

/-- A command **orders** that a point return, which a station lists when the answer is given: it
executes a point that asks for that, and it succeeds. -/
structure Orders (inlet : Inlet) (c : ConnectionId) (m : Message) (s u : Server) (h : Handle) :
    Prop where
  activation : m.cause = .activation
  execute : m.isSelect = false
  succeeds : ∃ station id p a, s.commandTarget m = .ok (station, id, p) ∧
    arbitrate inlet c m id p s = .ok .success u ∧
    p.autoReturn = true ∧ p.related = some a ∧ u.plant.handle? station a = some h

/-- A command that succeeds orders the return of the point that the callback has left listed. -/
theorem orders_iff (ht : s.commandTarget m = .ok (station, id, p))
    (ha : arbitrate inlet c m id p s = .ok .success u) :
    s.Orders inlet c m u h ↔ m.isExecute = true ∧ u.returnTarget station p = some h := by
  have hexec : m.isExecute = true ↔ m.cause = .activation ∧ m.isSelect = false := by
    simp [Message.isExecute]
  rw [hexec, returnTarget_eq_some_iff]
  constructor
  · rintro ⟨hact, hsel, station', id', p', a, ht', -, hreturn⟩
    obtain ⟨rfl, -, rfl⟩ : station = station' ∧ id = id' ∧ p = p' := by
      cases ht.symm.trans ht'
      exact ⟨rfl, rfl, rfl⟩
    exact ⟨⟨hact, hsel⟩, hreturn.1, a, hreturn.2⟩
  · rintro ⟨⟨hact, hsel⟩, hauto, a, hreturn⟩
    exact ⟨hact, hsel, station, id, p, a, ht, ha, hauto, hreturn⟩

/-! ## Settling a command -/

/-- Ending an execute has no point return. -/
theorem concludeExecute_returns (hst : m.station ≠ globalAddress) (s : Server) :
    (s.concludeExecute c m).returns = s.returns ∧
      (s.concludeExecute c m).executor.running = s.executor.running ∧
      (s.concludeExecute c m).now = s.now := by
  have hback : (s.sendBack c m.termination).returns = s.returns := rfl
  rw [concludeExecute_eq hst]
  split
  · exact ⟨rfl, rfl, rfl⟩
  · rw [returns_defer _ _ rfl, defer_eq]
    split <;> exact ⟨hback, rfl, rfl⟩

/-- Settling a command has no point return unless it was executed and its point asks for that. -/
theorem returns_settleCommand_of_none (hst : m.station ≠ globalAddress) {answer : Answer}
    (hnone : answer = .success → m.isExecute = true → s.returnTarget station p = none) :
    (s.settleCommand c m station p answer).returns = s.returns := by
  have hrelated : (if answer = .success && m.isExecute then s.returnTarget station p else none) =
      none := by
    split
    · rename_i hexecuted
      obtain ⟨ha, hexec⟩ : answer = .success ∧ m.isExecute = true := by simpa using hexecuted
      exact hnone ha hexec
    · rfl
  have hconfirm := (Sends.confirmAs s c m answer).returns
  rw [settleCommand, hrelated]
  show (if _ then _ else _ : Server).returns = _
  split
  · exact (concludeExecute_returns hst _).1.trans hconfirm
  · exact hconfirm

/-- Settling a command that was executed has the related point return at once. -/
theorem returns_settleCommand_of_some (hst : m.station ≠ globalAddress)
    (hrun : s.executor.running = true) (hexec : m.isExecute = true)
    (hsome : s.returnTarget station p = some h) :
    ∃ t : Task Job, t.due = .timed s.now ∧ t.work = .once (.autoReturn h) ∧
      (s.settleCommand c m station p .success).returns.Perm (t :: s.returns) := by
  -- what comes before the order leaves the clock, the worker and the returns as they are
  obtain ⟨v, hv, hvrun, hvnow, hsettle⟩ : ∃ v : Server, v.returns = s.returns ∧
      v.executor.running = true ∧ v.now = s.now ∧
      s.settleCommand c m station p .success = v.defer 0 (.autoReturn h) := by
    obtain ⟨transport, journal, hconfirm⟩ := Sends.confirmAs s c m .success
    have hsent := (Sends.confirmAs s c m .success).returns
    obtain ⟨hreturns, hrunning, hnow⟩ :=
      concludeExecute_returns (c := c) hst (s.confirmAs c m .success)
    rw [settleCommand, hexec, hsome]
    refine ⟨_, ?_, ?_, ?_, rfl⟩
    · split
      · exact hreturns.trans hsent
      · exact hsent
    · split
      · rw [hrunning, hconfirm]
        exact hrun
      · rw [hconfirm]
        exact hrun
    · split
      · rw [hnow, hconfirm]
      · rw [hconfirm]
  refine ⟨⟨.timed s.now, v.executor.nextSeq, .once (.autoReturn h)⟩, rfl, rfl, ?_⟩
  rw [hsettle, defer_eq, if_pos hvrun, ← hv]
  -- an order without delay is due at once, behind the tasks that are immediate
  have hdue : Due.ofDelay 0 v.now = .timed s.now := by
    rw [hvnow]
    exact congrArg Due.timed (Int.add_zero s.now)
  have hperm := (Executor.push_perm v.executor (.ofDelay 0 v.now) (.once (.autoReturn h))).filter
    fun t => t.work.body.isReturn
  rw [hdue] at hperm ⊢
  exact hperm

/-! ## Commands -/

include hin

/-- A command that is applied relays what its receive callback does. -/
theorem relays_applyCommand (hp : s.point? id = some p)
    (happly : Move (.command c m.originator) s (s.applied c m id)) :
    (applyCommand inlet c m id).Relays inlet s := by
  have hquiet : s.Quiet (s.applied c m id) :=
    ⟨.single (show (Deed.command c m.originator).IsInner from trivial) happly, rfl⟩
  have hask (u : Server) : (askReceiver inlet m id p (p.apply s.now m)).Relays inlet u := by
    rw [askReceiver]
    split
    · exact relays_pure _
    · refine relays_bind hin (relays_modify (.note u rfl)) fun _ v => ?_
      exact relays_bind hin (relays_performAll hin id _ v) fun _ _ => relays_pure _
  intro hs
  have hafter : (applyCommand inlet c m id).after s =
      (askReceiver inlet m id p (p.apply s.now m)).after (s.applied c m id) := by
    rw [after, applyCommand_eq hp, after]
  rw [hafter]
  exact .trans hquiet.relays (hask _ (hquiet.moves.wellFormed hs))

/-- A command that was applied is settled by moves that callbacks may make. -/
theorem moves_settleCommand (hs : s.WellFormed) (hm : Message.ofFrame m.frame = .ok m)
    (ht : s.commandTarget m = .ok (station, id, p))
    (happly : Move (.command c m.originator) s (s.applied c m id)) {answer : Answer}
    (h : applyCommand inlet c m id s = .ok answer u) :
    Moves {d | d.IsInner} u (u.settleCommand c m station p answer) := by
  obtain ⟨hty, htarget, -⟩ := commandTarget_eq_ok_iff.mp ht
  have hst := station_ne_global hs.global htarget
  have hp := (target_eq_ok_iff.mp htarget).2.2
  have hcmd : (Deed.command c m.originator).IsInner := trivial
  have hrelays := relays_applyCommand hin hp happly hs
  rw [after_ok h] at hrelays
  obtain ⟨q, hq, hpq⟩ := (hrelays.moves hin hs).kept hp
  have happ := appliedEntry_mem hin ⟨hs, hooked_inner s⟩ hp (.single hcmd happly) h
  exact leads_settleCommand (r := .free Deed.scope_inner) hcmd hm hty hst happ hq hpq answer

/-- A command that is applied relays, unless it orders a return. -/
theorem relays_of_applied (hm : Message.ofFrame m.frame = .ok m) (hd : m.cause ≠ .deactivation)
    (hsel : m.isSelect = false) (ht : s.commandTarget m = .ok (station, id, p))
    (hheld : p.mode = .selectAndExecute →
      s.selections.isHeldBy s.now (m.selection c s.now) = true)
    (hnone : ∀ u h, ¬ s.Orders inlet c m u h) :
    (handleCommand inlet c m station id p).Relays inlet s := by
  intro hs
  obtain ⟨-, htarget, hptype⟩ := commandTarget_eq_ok_iff.mp ht
  have hst := station_ne_global hs.global htarget
  have happly : Move (.command c m.originator) s (s.applied c m id) :=
    .apply hd hsel htarget hptype hheld
  have harb : arbitrate inlet c m id p s = _ := arbitrate_apply hd hsel hheld
  have hrelays := relays_applyCommand hin (target_eq_ok_iff.mp htarget).2.2 happly hs
  cases h : applyCommand inlet c m id s with
  | error e u =>
    rw [after_error (handleCommand_of_error (harb.trans h)), ← after_error h]
    exact hrelays
  | ok answer u =>
    rw [after_ok h] at hrelays
    rw [after_ok (handleCommand_of_ok (harb.trans h))]
    -- the answer orders no return, so settling it has no point return
    refine hrelays.trans (Quiet.relays ⟨moves_settleCommand hin hs hm ht happly h,
      returns_settleCommand_of_none hst fun ha hexec => ?_⟩)
    subst ha
    exact Option.eq_none_iff_forall_ne_some.mpr fun h' hreturn =>
      hnone u h' ((orders_iff ht (harb.trans h)).mpr ⟨hexec, hreturn⟩)

/-- A command for a point relays, unless it orders a return. -/
theorem relays_handleCommand (hm : Message.ofFrame m.frame = .ok m)
    (hcause : m.cause = .activation ∨ m.cause = .deactivation)
    (ht : s.commandTarget m = .ok (station, id, p)) (hnone : ∀ u h, ¬ s.Orders inlet c m u h) :
    (handleCommand inlet c m station id p).Relays inlet s := by
  intro hs
  obtain ⟨-, htarget, hptype⟩ := commandTarget_eq_ok_iff.mp ht
  have hst := station_ne_global hs.global htarget
  have hcmd : (Deed.command c m.originator).IsInner := trivial
  have hfailure (harb : arbitrate inlet c m id p s = .ok .failure s) :
      Relays inlet s ((handleCommand inlet c m station id p).after s) := by
    rw [after_ok (handleCommand_of_failure hst hcause harb), ← confirm_eq hst]
    exact (Quiet.confirm s c m true).relays
  by_cases hd : m.cause = .deactivation
  · -- a deactivation releases what its sender holds and is confirmed
    have hexec : m.isExecute = false := by rw [Message.isExecute, hd]; rfl
    rw [after_ok (handleCommand_of_ok (arbitrate_deactivation hd)), settleCommand_eq fun _ => hexec]
    refine (Quiet.trans ⟨?_, returns_eq (by rw [executor_deactivate])⟩ (.confirmAs _ c m _)).relays
    by_cases hheld : s.selections.isHeldBy s.now (m.selection c s.now) = true
    · exact .single hcmd (.deactivate hheld)
    · rw [deactivate, if_neg hheld]
      exact .refl s
  · have hact : m.cause = .activation := hcause.resolve_right hd
    cases hsel : m.isSelect with
    | true =>
      -- a select is granted or refused, and neither is an execute
      cases hmode : p.mode with
      | direct => exact hfailure (arbitrate_direct_select hd hmode hsel)
      | selectAndExecute =>
        rw [after_ok (handleCommand_select hst hact hmode hsel)]
        by_cases htaken : s.selections.isTaken s.now (m.selection c s.now) = true
        · rw [if_pos htaken, ← confirm_eq hst]
          exact (Quiet.confirm s c m true).relays
        · rw [if_neg htaken]
          exact Quiet.relays ⟨.single hcmd
            (.grant hact hsel htarget hptype hmode (by simpa using htaken)), rfl⟩
    | false =>
      by_cases hheld : p.mode = .selectAndExecute →
          s.selections.isHeldBy s.now (m.selection c s.now) = true
      · exact relays_of_applied hin hm hd hsel ht hheld hnone hs
      · obtain ⟨hmode, hheld⟩ := Classical.not_imp.mp hheld
        exact hfailure (arbitrate_refused hd hmode hsel (by simpa using hheld))

/-! ## Every frame -/

/-- A command relays, unless it orders a point to return. -/
theorem relays_onCommand (hm : Message.ofFrame m.frame = .ok m)
    (hcause : m.type.isCommand = true → m.cause = .activation ∨ m.cause = .deactivation)
    (hnone : ∀ u h, ¬ s.Orders inlet c m u h) : (onCommand inlet c m).Relays inlet s := by
  intro hs
  rw [after, onCommand_eq]
  cases ht : s.commandTarget m with
  | error why =>
    exact relays_bind hin (relays_modify (.confirmAs s c m .failure))
      (fun _ s' => relays_reject hin c m.frame why s') hs
  | ok found =>
    obtain ⟨station, id, p⟩ := found
    have hty := (commandTarget_eq_ok_iff.mp ht).1
    exact relays_handleCommand hin hm (hcause hty) ht hnone hs

/-- So does any message that orders no point to return. -/
theorem relays_dispatch (hf : Message.ofFrame f = .ok m)
    (hcause : m.type.isCommand = true → m.cause = .activation ∨ m.cause = .deactivation)
    (hnone : ∀ u h, ¬ s.Orders inlet c m u h) : (dispatch inlet c m).Relays inlet s := by
  rw [dispatch]
  split
  · rename_i h
    exact relays_onInterrogation hin hf (by rw [h]; rfl) s
  · rename_i h
    exact relays_onCounterInterrogation hin hf (by rw [h]; rfl) s
  · exact relays_onRead hin s
  · exact relays_modify (.sending (s.plain_onClock c m) (.onClock s c m))
  · exact relays_onCommand hin (by rw [Message.frame_of_ofFrame hf, hf]) hcause hnone

/-- **Every frame** relays, unless it is a command that orders a return. -/
theorem relays_receive
    (hnone : s.running = true → ∀ m u h, Message.ofFrame f = .ok m → ¬ s.Orders inlet c m u h) :
    (receive inlet c f).Relays inlet s := by
  refine relays_get_bind ?_
  split
  · rename_i hrun
    cases hf : Message.ofFrame f with
    | error why => exact relays_reject hin c f why s
    | ok m =>
      dsimp only
      cases hr : s.refusal? m with
      | some why =>
        dsimp only
        split
        · exact relays_bind hin (relays_modify (.confirm s c m true)) fun _ s' =>
            relays_reject hin c f why s'
        · exact relays_reject hin c f why s
      | none =>
        -- only a command can order a return
        have hcause (hty : m.type.isCommand = true) :
            m.cause = .activation ∨ m.cause = .deactivation :=
          (Message.hasValidCause_of_isCommand hty).mp
            (hasValidCause_of_accepted hr (by rw [Message.isControl, hty]; rfl))
        exact relays_dispatch hin hf hcause fun u h => hnone hrun m u h hf
  · exact relays_pure _

/-- What a command that orders a return does: it relays until its answer is given, and then one task
is put into the queue that has the point return at once. -/
theorem receive_of_orders (hs : s.WellFormed) (hrun : s.running = true)
    (hexecutor : s.executor.running = true) (hf : Message.ofFrame f = .ok m)
    (ho : s.Orders inlet c m u h) :
    Relays inlet s u ∧ Moves {d | d.IsInner} u ((receive inlet c f).after s) ∧
      ∃ t : Task Job, t.due = .timed u.now ∧ t.work = .once (.autoReturn h) ∧
        ((receive inlet c f).after s).returns.Perm (t :: u.returns) := by
  obtain ⟨hact, hsel, station, id, p, a, ht, harb, -⟩ := id ho
  obtain ⟨hexec, hreturn⟩ := (orders_iff ht harb).mp ho
  obtain ⟨-, htarget, hptype⟩ := commandTarget_eq_ok_iff.mp ht
  have hd : m.cause ≠ .deactivation := by rw [hact]; decide
  have hm : Message.ofFrame m.frame = .ok m := by rw [Message.frame_of_ofFrame hf, hf]
  -- what succeeds without being a select was applied
  have hheld : p.mode = .selectAndExecute →
      s.selections.isHeldBy s.now (m.selection c s.now) = true := by
    intro hmode
    by_contra hheld
    cases (arbitrate_refused hd hmode hsel (by simpa using hheld)).symm.trans harb
  have happly : Move (.command c m.originator) s (s.applied c m id) :=
    .apply hd hsel htarget hptype hheld
  have h' : applyCommand inlet c m id s = .ok .success u :=
    (arbitrate_apply hd hsel hheld).symm.trans harb
  have hrelays := relays_applyCommand hin (target_eq_ok_iff.mp htarget).2.2 happly hs
  rw [after_ok h'] at hrelays
  have hafter : (receive inlet c f).after s = u.settleCommand c m station p .success :=
    after_ok ((receive_command hrun hf (.inl hact) ht).trans (handleCommand_of_ok harb))
  rw [hafter]
  have hmoves : Moves {d | d ≠ .shutDown} s u :=
    (hrelays.moves hin hs).mono fun _ hd => hd.isOrdinary.ne_shutDown
  have hurun := hmoves.executor_running.trans hexecutor
  exact ⟨hrelays, moves_settleCommand hin hs hm ht happly h',
    returns_settleCommand_of_some (station_ne_global hs.global htarget) hurun hexec hreturn⟩

end Server

end Telecontrol
