import Telecontrol.Proofs.Effects

/-! # What becomes of a command

A command for an existing point of its type is weighed against the mode of the point. Each outcome
is an equation here: what the point's mode, the selections and the message decide about the answer,
and the server that is left.

Main statements: `Server.receive_command` (a command for an existing point reaches the point), the
equations `Server.arbitrate_select`, `Server.arbitrate_refused` and `Server.arbitrate_apply` for its
answer, and `Server.handleCommand_select` and `Server.handleCommand_of_failure` for what is sent. -/

namespace Telecontrol

namespace Message

/-- A select is of a type that can be selected. -/
theorem isSelectable_of_isSelect {m : Message} (h : m.isSelect = true) :
    m.type.isSelectable = true := (Bool.and_eq_true_iff.mp h).1

/-- A command is an activation or a deactivation. -/
theorem hasValidCause_of_isCommand {m : Message} (h : m.type.isCommand = true) :
    m.hasValidCause = true ↔ m.cause = .activation ∨ m.cause = .deactivation := by
  rw [hasValidCause, if_pos h, Bool.or_eq_true_iff, beq_iff_eq, beq_iff_eq]

end Message

namespace Act

variable {α β : Type} {x : Act α} {f : α → Act β} {s s' : Server}

/-- An act that reads the server goes on from it as it stands. -/
theorem get_bind (f : Server → Act β) (s : Server) : (get >>= f : Act β) s = f s s := rfl

/-- An act goes on from where the one before was completed. -/
theorem bind_ok {a : α} (h : x s = .ok a s') : (x >>= f) s = f a s' := by
  show EStateM.bind x f s = _
  rw [EStateM.bind, h]

/-- A panic cuts short whatever comes afterwards. -/
theorem bind_error {e : Panic} (h : x s = .error e s') : (x >>= f) s = .error e s' := by
  show EStateM.bind x f s = _
  rw [EStateM.bind, h]

end Act

namespace Server

variable {s : Server} {inlet : Inlet} {c : ConnectionId} {f : WireFrame} {m : Message}
  {station : StationId} {id : PointId} {p : Point}

/-! ## The point that a message is about -/

/-- The point that a message is about is listed at its address. -/
theorem target_eq_ok_iff :
    s.target m = .ok (station, id, p) ↔
      s.plant.find? m.station = some station ∧ s.plant.pointId? station m.address = some id ∧
        s.point? id = some p := by
  rw [target]
  constructor
  · intro h
    split at h
    · cases h
    · rename_i hs
      split at h
      · cases h
      · rename_i hi
        split at h
        · cases h
        · rename_i hp
          cases h
          exact ⟨hs, hi, hp⟩
  · rintro ⟨hs, hi, hp⟩
    simp only [hs, hi, hp]

/-- No point is at the global address. -/
theorem station_ne_global (hglobal : s.plant.find? globalAddress = none)
    (ht : s.target m = .ok (station, id, p)) : m.station ≠ globalAddress := by
  intro h
  have hs := (target_eq_ok_iff.mp ht).1
  rw [h, hglobal] at hs
  cases hs

/-- A message for one station is confirmed by one frame. -/
theorem confirm_eq (hst : m.station ≠ globalAddress) (negative : Bool) :
    s.confirm c m negative = s.sendBack c (m.confirmation negative) := if_neg hst

/-- An activation or deactivation for one station gets one confirmation. -/
theorem confirmAs_eq (hst : m.station ≠ globalAddress)
    (hc : m.cause = .activation ∨ m.cause = .deactivation) {answer : Answer}
    (ha : answer ≠ .none) :
    s.confirmAs c m answer = s.sendBack c (m.confirmation (answer == .failure)) := by
  have hn : m.needsConfirmation = true := by
    rw [Message.needsConfirmation, Bool.or_eq_true_iff, beq_iff_eq, beq_iff_eq]
    exact hc
  rw [confirmAs, hn, Bool.and_true, if_pos (decide_eq_true ha), confirm_eq hst]

/-! ## The way of a frame to its point -/

/-- The point that a command is for, or why there is none: the point a message is about, if the
message is a command and of the type of the point. -/
def commandTarget (s : Server) (m : Message) : Except Rejection (StationId × PointId × Point) := do
  unless m.type.isCommand do throw .invalidTypeId
  let found ← s.target m
  unless found.2.2.type = m.type do throw .mismatchedTypeId
  return found

/-- A command is for an existing point of its type. -/
theorem commandTarget_eq_ok_iff :
    s.commandTarget m = .ok (station, id, p) ↔
      m.type.isCommand = true ∧ s.target m = .ok (station, id, p) ∧ p.type = m.type := by
  rw [commandTarget]
  cases hty : m.type.isCommand with
  | false => exact ⟨fun h => (by cases h), fun h => by cases h.1⟩
  | true =>
    cases s.target m with
    | error why => exact ⟨fun h => (by cases h), fun h => by cases h.2.1⟩
    | ok found =>
      -- the target exists, and its type decides
      by_cases hp : found.2.2.type = m.type
      · simp only [hp, bind, Except.bind, pure, Except.pure, if_true, true_and]
        constructor
        · intro h
          obtain rfl := Except.ok.inj h
          exact ⟨rfl, hp⟩
        · exact fun h => h.1
      · simp only [hp, bind, Except.bind, pure, Except.pure, if_true, if_false, true_and]
        constructor
        · intro h
          cases h
        · rintro ⟨h, hty'⟩
          rw [Except.ok.inj h] at hp
          exact absurd hty' hp

/-- What is done with a command that is for no point. -/
def refuseCommand (inlet : Inlet) (c : ConnectionId) (m : Message) (why : Rejection) :
    Act Unit := do
  modify (·.confirmAs c m .failure)
  reject inlet c m.frame why

/-- What is done with a command for a point. -/
def handleCommand (inlet : Inlet) (c : ConnectionId) (m : Message) (station : StationId)
    (id : PointId) (p : Point) : Act Unit := do
  let answer ← arbitrate inlet c m id p
  modify (·.settleCommand c m station p answer)

/-- What is done with a command depends on its target only. -/
theorem onCommand_eq (inlet : Inlet) (c : ConnectionId) (m : Message) (s : Server) :
    onCommand inlet c m s =
      match s.commandTarget m with
      | .error why => refuseCommand inlet c m why s
      | .ok (station, id, p) => handleCommand inlet c m station id p s := by
  show (match s.commandTarget m with
    | .error why => refuseCommand inlet c m why
    | .ok (station, id, p) => handleCommand inlet c m station id p : Act Unit) s = _
  cases s.commandTarget m <;> rfl

/-- A command with a valid cause, for an existing point of its type, reaches the point while the
server runs. -/
theorem receive_command (hrun : s.running = true) (hf : Message.ofFrame f = .ok m)
    (hc : m.cause = .activation ∨ m.cause = .deactivation)
    (ht : s.commandTarget m = .ok (station, id, p)) :
    receive inlet c f s = handleCommand inlet c m station id p s := by
  obtain ⟨hty, htarget, -⟩ := commandTarget_eq_ok_iff.mp ht
  have hcause : m.hasValidCause = true := (Message.hasValidCause_of_isCommand hty).mpr hc
  have hanswers : s.plant.answersTo m.station = true := by
    rw [Plant.answersTo, Table.contains, ← Plant.find?, (target_eq_ok_iff.mp htarget).1]
    exact Bool.or_true _
  -- nothing is wrong with the frame, so it is dispatched by its type
  have hnone : s.refusal? m = none := by
    rw [refusal?, hcause, hanswers]
    simp
  have hdispatch : dispatch inlet c m = onCommand inlet c m := by
    unfold dispatch
    split <;> first | rfl | (rename_i h; rw [h] at hty; cases hty)
  have hreceive : receive inlet c f s = dispatch inlet c m s := by
    show (if s.running then _ else _ : Act Unit) s = _
    simp only [if_pos hrun, hf, hnone]
  rw [hreceive, hdispatch, onCommand_eq, ht]

/-! ## The answer to a command -/

/-- A deactivation releases the selection of its sender, whatever the mode of the point. -/
theorem arbitrate_deactivation (hc : m.cause = .deactivation) :
    arbitrate inlet c m id p s =
      .ok (s.deactivate (m.selection c s.now)).2 (s.deactivate (m.selection c s.now)).1 := by
  show (if m.cause = .deactivation then _ else _ : Act Answer) s = _
  rw [if_pos hc]
  rfl

/-- A select of a point in direct mode fails. -/
theorem arbitrate_direct_select (hc : m.cause ≠ .deactivation) (hmode : p.mode = .direct)
    (hsel : m.isSelect = true) : arbitrate inlet c m id p s = .ok .failure s := by
  show (if m.cause = .deactivation then _ else _ : Act Answer) s = _
  rw [if_neg hc, hmode, hsel]
  rfl

/-- The server right after a selection was granted. -/
def grant (s : Server) (g : Selection) : Server :=
  { s with selections := s.selections.replace g }.note (.granted g)

/-- A select of a point in select-and-execute mode is granted unless another client holds the
point. -/
theorem arbitrate_select (hc : m.cause ≠ .deactivation) (hmode : p.mode = .selectAndExecute)
    (hsel : m.isSelect = true) :
    arbitrate inlet c m id p s =
      if s.selections.isTaken s.now (m.selection c s.now) = true then .ok .failure s
      else .ok .success (s.grant (m.selection c s.now)) := by
  have hadd := (s.selections.add_eq_ok_iff s.now (m.selection c s.now) _).mpr
    ⟨Message.isSelectable_of_isSelect hsel, rfl⟩
  have harb : arbitrate inlet c m id p s =
      .ok (s.select p (m.selection c s.now)).2 (s.select p (m.selection c s.now)).1 := by
    show (if m.cause = .deactivation then _ else _ : Act Answer) s = _
    rw [if_neg hc, hmode, hsel]
    rfl
  rw [harb, select, hadd]
  cases s.selections.isTaken s.now (m.selection c s.now) <;> rfl

/-- An execute of a point in select-and-execute mode fails without a selection. -/
theorem arbitrate_refused (hc : m.cause ≠ .deactivation) (hmode : p.mode = .selectAndExecute)
    (hsel : m.isSelect = false)
    (hheld : s.selections.isHeldBy s.now (m.selection c s.now) = false) :
    arbitrate inlet c m id p s = .ok .failure s := by
  show (if m.cause = .deactivation then _ else _ : Act Answer) s = _
  rw [if_neg hc, hmode, hsel]
  show (if s.selections.isHeldBy s.now (m.selection c s.now) then _ else _ : Act Answer) s = _
  rw [hheld]
  rfl

/-- Any other command is applied. -/
theorem arbitrate_apply (hc : m.cause ≠ .deactivation) (hsel : m.isSelect = false)
    (hheld : p.mode = .selectAndExecute →
      s.selections.isHeldBy s.now (m.selection c s.now) = true) :
    arbitrate inlet c m id p s = applyCommand inlet c m id s := by
  show (if m.cause = .deactivation then _ else _ : Act Answer) s = _
  rw [if_neg hc, hsel]
  cases hmode : p.mode with
  | direct => rfl
  | selectAndExecute =>
    show (if s.selections.isHeldBy s.now (m.selection c s.now) then _ else _ : Act Answer) s = _
    rw [if_pos (hheld hmode)]

/-! ## Applying a command -/

/-- What is done once a command is applied: the receive callback of the point is asked. -/
def askReceiver (inlet : Inlet) (m : Message) (id : PointId) (before after : Point) : Act Answer :=
  match after.callbacks.receive with
  | none => return .success
  | some callback => do
    modify (·.note (.received after.station after.address before.snapshot after.value
      after.updated m.cause m.qualifier))
    performAll inlet id callback.actions
    return callback.answer

/-- The server right after a command was applied. -/
def applied (s : Server) (c : ConnectionId) (m : Message) (id : PointId) : Server :=
  (s.modifyPoint id (·.apply s.now m)).note (.applied c m.originator id m.station m.address)

/-- A command is applied to its point before the callback is asked. -/
theorem applyCommand_eq (hp : s.point? id = some p) :
    applyCommand inlet c m id s =
      askReceiver inlet m id p (p.apply s.now m) (s.applied c m id) := by
  rw [applyCommand, Act.get_bind, hp]
  rfl

/-! ## Settling a command -/

/-- A command that was not executed is only confirmed. -/
theorem settleCommand_eq {answer : Answer} (h : answer = .success → m.isExecute = false) :
    s.settleCommand c m station p answer = s.confirmAs c m answer := by
  -- only an execute that succeeded is concluded
  have hexec : (decide (answer = .success) && m.isExecute) = false := by
    by_cases ha : answer = .success
    · rw [h ha, Bool.and_false]
    · rw [decide_eq_false ha, Bool.false_and]
  rw [settleCommand, hexec]
  rfl

/-- A command that is weighed is settled. -/
theorem handleCommand_of_ok {answer : Answer} {s' : Server}
    (h : arbitrate inlet c m id p s = .ok answer s') :
    handleCommand inlet c m station id p s =
      .ok ⟨⟩ (s'.settleCommand c m station p answer) := Act.bind_ok h

/-- A command that a panic cuts short is not settled. -/
theorem handleCommand_of_error {e : Panic} {s' : Server}
    (h : arbitrate inlet c m id p s = .error e s') :
    handleCommand inlet c m station id p s = .error e s' := Act.bind_error h

/-- What fails without being executed is answered by one negative confirmation. -/
theorem handleCommand_of_failure (hst : m.station ≠ globalAddress)
    (hc : m.cause = .activation ∨ m.cause = .deactivation)
    (h : arbitrate inlet c m id p s = .ok .failure s) :
    handleCommand inlet c m station id p s = .ok ⟨⟩ (s.sendBack c (m.confirmation true)) := by
  rw [handleCommand_of_ok h, settleCommand_eq fun ha => (by cases ha),
    confirmAs_eq hst hc (by decide)]
  rfl

/-- A select of a point in select-and-execute mode gets one confirmation, which is positive exactly
when no other client holds the point; it is then granted. -/
theorem handleCommand_select (hst : m.station ≠ globalAddress) (hc : m.cause = .activation)
    (hmode : p.mode = .selectAndExecute) (hsel : m.isSelect = true) :
    handleCommand inlet c m station id p s =
      .ok ⟨⟩ (if s.selections.isTaken s.now (m.selection c s.now) = true then
        s.sendBack c (m.confirmation true)
      else (s.grant (m.selection c s.now)).sendBack c (m.confirmation false)) := by
  have harb : arbitrate inlet c m id p s = _ := arbitrate_select (by rw [hc]; decide) hmode hsel
  by_cases htaken : s.selections.isTaken s.now (m.selection c s.now) = true
  · rw [if_pos htaken] at harb ⊢
    rw [handleCommand_of_failure hst (.inl hc) harb]
  · have hexec : m.isExecute = false := by rw [Message.isExecute, hsel]; exact Bool.and_false _
    rw [if_neg htaken] at harb ⊢
    rw [handleCommand_of_ok harb, settleCommand_eq fun _ => hexec,
      confirmAs_eq hst (.inl hc) (by decide)]
    rfl

end Server

end Telecontrol
