import Telecontrol.Proofs.Protocol

/-! # From a command to its confirmation

A command is **weighed**, then confirmed as the answer says, and then the rest follows: the
rejection of a command for no point, or what an executed command entails. Weighing sends nothing
back, and it writes to the server in three cases only: a selection is released, a selection is
granted, or the command is applied to its point, whose receive callback then answers.

Main statements: `Server.receive_eq_weigh` (every command goes this way), `Server.Weighed.of_weigh`
(the cases of an answer) and the rules of `Server.Sends` (what only sends leaves everything else as
it is). -/

namespace Telecontrol

namespace Server

/-! ## Sending only -/

/-- One server goes over into another one that differs in nothing but what was sent and noted. -/
def Sends (s s' : Server) : Prop := ∃ transport journal, s' = { s with transport, journal }

namespace Sends

variable {s s' s'' : Server}

/-- A server that stays as it is sends nothing. -/
theorem refl (s : Server) : s.Sends s := ⟨s.transport, s.journal, rfl⟩

/-- What is sent on two ways is sent one after the other. -/
theorem trans (h : s.Sends s') (h' : s'.Sends s'') : s.Sends s'' := by
  obtain ⟨_, _, rfl⟩ := h
  obtain ⟨transport, journal, rfl⟩ := h'
  exact ⟨transport, journal, rfl⟩

/-- Sending a frame back sends at most. -/
theorem sendBack (s : Server) (c : ConnectionId) (f : WireFrame) : s.Sends (s.sendBack c f) :=
  ⟨_, _, rfl⟩

/-- Answering a frame sends, once or for every station. -/
theorem reply (s : Server) (c : ConnectionId) (f : WireFrame) : s.Sends (s.reply c f) := by
  rw [Server.reply]
  split
  · exact List.foldlRecOn (motive := s.Sends) _ _ (.refl s) fun u hu station _ =>
      hu.trans (.sendBack u c _)
  · exact .sendBack s c f

/-- Confirming a message sends at most. -/
theorem confirmAs (s : Server) (c : ConnectionId) (m : Message) (answer : Answer) :
    s.Sends (s.confirmAs c m answer) := by
  rw [Server.confirmAs]
  split
  · exact .reply s c _
  · exact .refl s

end Sends

/-! ## Weighing -/

/-- How a command is **weighed**: one that is for no point fails, and the mode of the point and the
selections decide about any other. -/
def weigh (inlet : Inlet) (c : ConnectionId) (m : Message) : Act Answer := do
  match (← get).commandTarget m with
  | .error _ => return .failure
  | .ok (_, id, p) => arbitrate inlet c m id p

/-- What a command for a point entails once it is confirmed: an execute is concluded, and the
related point returns. -/
def followUp (s : Server) (c : ConnectionId) (m : Message) (station : StationId) (p : Point)
    (answer : Answer) : Server :=
  let executed := answer = .success && m.isExecute
  let related := if executed then s.returnTarget station p else none
  let s := if executed && p.mode == .selectAndExecute then s.concludeExecute c m else s
  related.elim s fun h => s.defer 0 (.autoReturn h)

/-- What is left to do once a command is confirmed. -/
def sequel (inlet : Inlet) (c : ConnectionId) (m : Message) (answer : Answer) :
    Except Rejection (StationId × PointId × Point) → Act Unit
  | .error why => reject inlet c m.frame why
  | .ok (station, _, p) => modify (·.followUp c m station p answer)

variable {s u : Server} {inlet : Inlet} {c : ConnectionId} {m : Message} {station : StationId}
  {id : PointId} {p : Point} {answer : Answer}

/-- A command is settled by its confirmation and what follows from it. -/
theorem settleCommand_eq_followUp (s : Server) (c : ConnectionId) (m : Message)
    (station : StationId) (p : Point) (answer : Answer) :
    s.settleCommand c m station p answer =
      (s.confirmAs c m answer).followUp c m station p answer := by
  obtain ⟨transport, journal, h⟩ := Sends.confirmAs s c m answer
  have hreturn : (s.confirmAs c m answer).returnTarget station p = s.returnTarget station p := by
    rw [h]; rfl
  rw [settleCommand, followUp, hreturn]

/-- Nothing follows from a command that was not executed. -/
theorem followUp_of_not_executed (h : answer = .success → m.isExecute = false) :
    s.followUp c m station p answer = s := by
  have hexec : (decide (answer = .success) && m.isExecute) = false := by
    by_cases ha : answer = .success
    · rw [h ha, Bool.and_false]
    · rw [decide_eq_false ha, Bool.false_and]
  rw [followUp, hexec]
  rfl

/-- A command that is for no point fails. -/
theorem weigh_of_error {why : Rejection} (h : s.commandTarget m = .error why) :
    weigh inlet c m s = .ok .failure s := by
  rw [weigh, Act.get_bind, h]
  rfl

/-- A command that is for a point is left to the mode of the point and the selections. -/
theorem weigh_of_ok (h : s.commandTarget m = .ok (station, id, p)) :
    weigh inlet c m s = arbitrate inlet c m id p s := by
  rw [weigh, Act.get_bind, h]

/-- A message that is refused before it is looked at is confirmed negatively and rejected. -/
theorem receive_of_refusal (hrun : s.running = true) (hf : Message.ofFrame m.frame = .ok m)
    (hneeds : m.needsConfirmation = true) {why : Rejection} (hwhy : s.refusal? m = some why) :
    receive inlet c m.frame s = refuseCommand inlet c m why s := by
  have hreceive : receive inlet c m.frame s =
      (do modify (·.confirm c m true); reject inlet c m.frame why : Act Unit) s := by
    show (if s.running then _ else _ : Act Unit) s = _
    simp only [if_pos hrun, hf, hwhy, if_pos hneeds]
  rw [hreceive, confirm_reject_eq_refuseCommand hneeds]

/-- A command that is not refused is handled as a command. -/
theorem receive_of_accepted (hrun : s.running = true) (hf : Message.ofFrame m.frame = .ok m)
    (hty : m.type.isCommand = true) (hnone : s.refusal? m = none) :
    receive inlet c m.frame s = onCommand inlet c m s := by
  have hreceive : receive inlet c m.frame s = dispatch inlet c m s := by
    show (if s.running then _ else _ : Act Unit) s = _
    simp only [if_pos hrun, hf, hnone]
  have hdispatch : dispatch inlet c m = onCommand inlet c m := by
    unfold dispatch
    split <;> first | rfl | (rename_i h; rw [h] at hty; cases hty)
  rw [hreceive, hdispatch]

/-- A command with a valid cause reaches a running server as a command, also when the server does
not know the station. -/
theorem receive_eq_onCommand (hrun : s.running = true) (hf : Message.ofFrame m.frame = .ok m)
    (hty : m.type.isCommand = true) (hc : m.cause = .activation ∨ m.cause = .deactivation) :
    receive inlet c m.frame s = onCommand inlet c m s := by
  have hcause : m.hasValidCause = true := (Message.hasValidCause_of_isCommand hty).mpr hc
  cases hanswers : s.plant.answersTo m.station with
  | true =>
    have hnone : s.refusal? m = none := by rw [refusal?, hcause, hanswers]; simp
    exact receive_of_accepted hrun hf hty hnone
  | false =>
    have hneeds : m.needsConfirmation = true := by
      rcases hc with hc | hc <;> (rw [Message.needsConfirmation, hc]; rfl)
    have hunknown : s.refusal? m = some .unknownStation := by
      rw [refusal?, hcause, hanswers]; simp
    have hfind : s.plant.find? m.station = none := by
      rw [Plant.answersTo, Bool.or_eq_false_iff] at hanswers
      exact Option.not_isSome_iff_eq_none.mp (Bool.eq_false_iff.mp hanswers.2)
    have htarget : s.commandTarget m = .error .unknownStation := by
      rw [commandTarget, hty, target, hfind]
      rfl
    rw [receive_of_refusal hrun hf hneeds hunknown, onCommand_eq, htarget]

/-- **Every command** that reaches a running server is weighed first, then confirmed as the answer
says, and then the rest follows. -/
theorem receive_eq_weigh (hrun : s.running = true) (hf : Message.ofFrame m.frame = .ok m)
    (hty : m.type.isCommand = true) (hc : m.cause = .activation ∨ m.cause = .deactivation) :
    receive inlet c m.frame s =
      (do
        let answer ← weigh inlet c m
        modify (·.confirmAs c m answer)
        sequel inlet c m answer (s.commandTarget m) : Act Unit) s := by
  rw [receive_eq_onCommand hrun hf hty hc, onCommand_eq]
  cases ht : s.commandTarget m with
  | error why => rw [Act.bind_ok (weigh_of_error ht)]; rfl
  | ok found =>
    obtain ⟨station, id, p⟩ := found
    cases hw : arbitrate inlet c m id p s with
    | error e u =>
      dsimp only
      rw [handleCommand_of_error hw, Act.bind_error ((weigh_of_ok ht).trans hw)]
    | ok answer u =>
      dsimp only
      rw [handleCommand_of_ok hw, Act.bind_ok ((weigh_of_ok ht).trans hw),
        settleCommand_eq_followUp]
      rfl

/-- A rejected frame is sent back if its rejection has a cause, and then the application is told. -/
theorem reject_eq_tellRejected (inlet : Inlet) (c : ConnectionId) (f : WireFrame) (why : Rejection)
    (s : Server) : ∃ v, s.Sends v ∧ reject inlet c f why s = tellRejected inlet c f why v := by
  rw [reject]
  cases why.answerCause with
  | none => exact ⟨s, .refl s, rfl⟩
  | some cause => exact ⟨_, .sendBack s c (f.mirror cause), rfl⟩

section Handling

variable (hrun : s.running = true) (hf : Message.ofFrame m.frame = .ok m)
  (hty : m.type.isCommand = true) (hc : m.cause = .activation ∨ m.cause = .deactivation)
include hrun hf hty hc

/-- A command that got its answer is confirmed by it, and the rest follows. -/
theorem receive_of_weigh (h : weigh inlet c m s = .ok answer u) :
    receive inlet c m.frame s =
      sequel inlet c m answer (s.commandTarget m) (u.confirmAs c m answer) := by
  rw [receive_eq_weigh hrun hf hty hc, Act.bind_ok h]
  rfl

/-- A command for a point that fails is confirmed negatively, and nothing follows. -/
theorem receive_of_failure (ht : s.commandTarget m = .ok (station, id, p))
    (h : weigh inlet c m s = .ok .failure u) :
    receive inlet c m.frame s = .ok ⟨⟩ (u.confirmAs c m .failure) := by
  have hnothing : (u.confirmAs c m .failure).followUp c m station p .failure =
      u.confirmAs c m .failure := followUp_of_not_executed fun ha => by cases ha
  rw [receive_of_weigh hrun hf hty hc h, ht]
  exact congrArg (EStateM.Result.ok PUnit.unit) hnothing

/-- A command for no point is confirmed negatively, and nothing has changed when the application is
told of the rejection. -/
theorem receive_of_commandTarget_error {why : Rejection} (h : s.commandTarget m = .error why) :
    ∃ v, (s.confirmAs c m .failure).Sends v ∧
      receive inlet c m.frame s = tellRejected inlet c m.frame why v := by
  obtain ⟨v, hsends, hreject⟩ :=
    reject_eq_tellRejected inlet c m.frame why (s.confirmAs c m .failure)
  refine ⟨v, hsends, ?_⟩
  rw [receive_of_weigh hrun hf hty hc (weigh_of_error h), h, ← hreject]
  rfl

end Handling

/-! ## Where an answer comes from -/

/-- Where the answer to a command comes from, and the server it leaves. -/
inductive Weighed (inlet : Inlet) (c : ConnectionId) (m : Message) (s : Server) :
    Answer → Server → Prop
  /-- The server refuses the command, and nothing has changed. -/
  | refused (h : ∀ station id p, s.commandTarget m = .ok (station, id, p) →
      s.applies c m p = false) : Weighed inlet c m s .failure s
  /-- A deactivation has released the selection of its sender. -/
  | released (h : m.cause = .deactivation) :
      Weighed inlet c m s .success (s.deactivate (m.selection c s.now)).1
  /-- A select was granted. -/
  | granted (h : m.isSelect = true) :
      Weighed inlet c m s .success (s.grant (m.selection c s.now))
  /-- The command was applied to its point, and the receive callback has answered. -/
  | applied {station : StationId} {id : PointId} {p : Point} {answer : Answer} {u : Server}
      (ht : s.commandTarget m = .ok (station, id, p)) (happ : s.applies c m p = true)
      (h : applyCommand inlet c m id s = .ok answer u) : Weighed inlet c m s answer u

/-- A deactivation applies nothing. -/
theorem applies_of_deactivation (h : m.cause = .deactivation) (p : Point) :
    s.applies c m p = false := by
  rw [applies, h]
  rfl

/-- Neither does a select. -/
theorem applies_of_isSelect (h : m.isSelect = true) (p : Point) : s.applies c m p = false := by
  rw [applies, h, Bool.not_true, Bool.and_false, Bool.false_and]

/-- What is applied needs no selection, or its sender holds one. -/
theorem applies_iff (hd : m.cause ≠ .deactivation) (hsel : m.isSelect = false) (p : Point) :
    s.applies c m p = true ↔
      (p.mode = .selectAndExecute → s.selections.isHeldBy s.now (m.selection c s.now) = true) := by
  rw [applies, hsel, bne_iff_ne.mpr hd]
  cases p.mode <;> simp

/-- Every answer to a command has one of these sources. -/
theorem Weighed.of_weigh (h : weigh inlet c m s = .ok answer u) : Weighed inlet c m s answer u := by
  cases ht : s.commandTarget m with
  | error why =>
    cases (weigh_of_error ht).symm.trans h
    exact .refused fun station id p hok => by cases ht.symm.trans hok
  | ok found =>
    obtain ⟨station, id, p⟩ := found
    rw [weigh_of_ok ht] at h
    -- the point is the only one that the command can be for
    have hrefused (hp : s.applies c m p = false) : Weighed inlet c m s .failure s :=
      .refused fun station' id' p' hok => by cases ht.symm.trans hok; exact hp
    by_cases hd : m.cause = .deactivation
    · cases (arbitrate_deactivation hd).symm.trans h
      by_cases hheld : s.selections.isHeldBy s.now (m.selection c s.now) = true
      · have hok : (s.deactivate (m.selection c s.now)).2 = .success := by
          rw [deactivate, if_pos hheld]
        rw [hok]
        exact .released hd
      · have hfail : s.deactivate (m.selection c s.now) = (s, .failure) := by
          rw [deactivate, if_neg hheld]
        rw [hfail]
        exact hrefused (applies_of_deactivation hd p)
    · cases hsel : m.isSelect with
      | true =>
        cases hmode : p.mode with
        | direct =>
          cases (arbitrate_direct_select hd hmode hsel).symm.trans h
          exact hrefused (applies_of_isSelect hsel p)
        | selectAndExecute =>
          rw [arbitrate_select hd hmode hsel] at h
          split at h
          · cases h
            exact hrefused (applies_of_isSelect hsel p)
          · cases h
            exact .granted hsel
      | false =>
        cases happ : s.applies c m p with
        | true =>
          rw [arbitrate_apply hd hsel ((applies_iff hd hsel p).mp happ)] at h
          exact .applied ht happ h
        | false =>
          have hmode : p.mode = .selectAndExecute ∧
              s.selections.isHeldBy s.now (m.selection c s.now) = false := by
            rw [Bool.eq_false_iff, Ne, applies_iff hd hsel] at happ
            simpa using happ
          cases (arbitrate_refused hd hmode.1 hsel hmode.2).symm.trans h
          exact hrefused happ

/-! ## Applying -/

/-- A command that is applied writes its value and its time to the point, and nothing else. -/
theorem point?_applied (c : ConnectionId) (m : Message) (hp : s.point? id = some p) (i : PointId) :
    (s.applied c m id).point? i =
      if i = id then some { p with value := m.value, updated := some (m.time.getD s.now) }
      else s.point? i := by
  have hmodify : (s.applied c m id).point? i =
      if id = i then (s.point? i).map (·.apply s.now m) else s.point? i :=
    PointStore.point?_modify ..
  rw [hmodify]
  by_cases hi : i = id
  · subst hi
    rw [if_pos rfl, if_pos rfl, hp]
    rfl
  · rw [if_neg (Ne.symm hi), if_neg hi]

/-- The server with which the receive callback is called. -/
def calledBack (s : Server) (c : ConnectionId) (m : Message) (id : PointId) (p : Point) : Server :=
  (s.applied c m id).note (.received p.station p.address p.snapshot m.value
    (some (m.time.getD s.now)) m.cause m.qualifier)

/-- A command that is applied succeeds, or its point has a receive callback that answers. -/
theorem applyCommand_eq_ok (hp : s.point? id = some p)
    (h : applyCommand inlet c m id s = .ok answer u) :
    (p.callbacks.receive = none ∧ answer = .success ∧ u = s.applied c m id) ∨
      ∃ callback, p.callbacks.receive = some callback ∧ answer = callback.answer ∧
        performAll inlet id callback.actions (s.calledBack c m id p) = .ok ⟨⟩ u := by
  rw [applyCommand_eq hp, askReceiver] at h
  have hsame : (p.apply s.now m).callbacks.receive = p.callbacks.receive := rfl
  cases hrec : p.callbacks.receive with
  | none =>
    rw [hsame, hrec] at h
    cases h
    exact .inl ⟨rfl, rfl, rfl⟩
  | some callback =>
    rw [hsame, hrec] at h
    obtain ⟨_, _, hnote, h⟩ := Act.bind_eq_ok h
    cases hnote
    obtain ⟨_, _, hperform, h⟩ := Act.bind_eq_ok h
    cases h
    exact .inr ⟨callback, rfl, rfl, hperform⟩

end Server

end Telecontrol
