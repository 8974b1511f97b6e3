import Telecontrol.Proofs.Coverage

/-! # What a refused command leaves behind

A command is refused by the server or by the receive callback of its point. What the server refuses
never reaches the point, and nothing changes but what is sent and noted. The receive callback is
asked after the command was applied: when it refuses, the point keeps the value and the time of the
command, and nothing else has changed but by the callback itself.

Main statement: `Server.refused_leaves`; `Server.refused_after_write` shows that a point may have
changed. -/

namespace Telecontrol

namespace Server

variable {s u : Server} {inlet : Inlet} {c : ConnectionId} {m : Message}

/-- **The server refuses a command**: nothing has changed when its negative confirmation is sent,
and nothing else is done afterwards but to tell the application of a rejection. -/
structure RefusedOutright (inlet : Inlet) (c : ConnectionId) (m : Message) (s u : Server) :
    Prop where
  unchanged : u = s
  confirmed : ∃ v, s.Sends (s.confirmAs c m .failure) ∧ (s.confirmAs c m .failure).Sends v ∧
    (receive inlet c m.frame s = .ok ⟨⟩ v ∨
      ∃ why, s.commandTarget m = .error why ∧
        receive inlet c m.frame s = tellRejected inlet c m.frame why v)

/-- **The receive callback refuses a command** that was applied to its point: the callback found the
value and the time of the command written and nothing else changed, and the negative confirmation is
sent when it is done. -/
structure RefusedByCallback (inlet : Inlet) (c : ConnectionId) (m : Message) (s u : Server)
    (station : StationId) (id : PointId) (p : Point) (callback : Callback) : Prop where
  target : s.commandTarget m = .ok (station, id, p)
  applies : s.applies c m p = true
  attached : p.callbacks.receive = some callback
  answer : callback.answer = .failure
  /-- Only the point and the journal differ from before when the callback is called. -/
  kept : ∃ journal, s.calledBack c m id p =
    { s with plant := s.plant.modifyPoint id (·.apply s.now m), journal }
  /-- The point has the value and the time of the command and its old quality. -/
  written : ∀ i, (s.calledBack c m id p).point? i =
    if i = id then some { p with value := m.value, updated := some (m.time.getD s.now) }
    else s.point? i
  performed : performAll inlet id callback.actions (s.calledBack c m id p) = .ok ⟨⟩ u
  confirmed : receive inlet c m.frame s = .ok ⟨⟩ (u.sendBack c (m.confirmation true))

/-- A command that the server refuses leaves everything as it is. -/
theorem refusedOutright (hrun : s.running = true) (hf : Message.ofFrame m.frame = .ok m)
    (hty : m.type.isCommand = true) (hc : m.cause = .activation ∨ m.cause = .deactivation)
    (h : weigh inlet c m s = .ok .failure s) : RefusedOutright inlet c m s s := by
  have hsends := Sends.confirmAs s c m .failure
  refine ⟨rfl, ?_⟩
  cases ht : s.commandTarget m with
  | error why =>
    obtain ⟨v, hv, htell⟩ := receive_of_commandTarget_error hrun hf hty hc ht
    exact ⟨v, hsends, hv, .inr ⟨why, rfl, htell⟩⟩
  | ok found =>
    exact ⟨_, hsends, .refl _, .inl (receive_of_failure hrun hf hty hc ht h)⟩

/-- A command that the receive callback refuses stays applied. -/
theorem refusedByCallback (hglobal : s.plant.find? globalAddress = none) (hrun : s.running = true)
    (hf : Message.ofFrame m.frame = .ok m) (hty : m.type.isCommand = true)
    (hc : m.cause = .activation ∨ m.cause = .deactivation) {station : StationId} {id : PointId}
    {p : Point} (ht : s.commandTarget m = .ok (station, id, p)) (happ : s.applies c m p = true)
    (hw : weigh inlet c m s = .ok .failure u)
    (h : applyCommand inlet c m id s = .ok .failure u) :
    ∃ callback, RefusedByCallback inlet c m s u station id p callback := by
  obtain ⟨-, htarget, -⟩ := commandTarget_eq_ok_iff.mp ht
  have hp := (target_eq_ok_iff.mp htarget).2.2
  obtain ⟨-, ha, -⟩ | ⟨callback, hattached, hanswer, hperformed⟩ := applyCommand_eq_ok hp h
  · cases ha
  · have hconfirm : u.confirmAs c m .failure = u.sendBack c (m.confirmation true) :=
      confirmAs_eq (station_ne_global hglobal htarget) hc (by decide)
    exact ⟨callback, ht, happ, hattached, hanswer.symm, ⟨_, rfl⟩, point?_applied c m hp,
      hperformed, hconfirm ▸ receive_of_failure hrun hf hty hc ht hw⟩

/-- **Refused commands.** In every state that a run passes through, whatever becomes of the frames
that callbacks hand in: a command that is confirmed negatively was refused by the server, and then
nothing has changed, or by the receive callback of its point, and then the point has the value and
the time of the command. In either case no selection is touched and nothing is deferred but by a
callback. -/
theorem refused_leaves (h : s.Visited) (hrun : s.running = true)
    (hf : Message.ofFrame m.frame = .ok m) (hty : m.type.isCommand = true)
    (hc : m.cause = .activation ∨ m.cause = .deactivation)
    (hw : weigh inlet c m s = .ok .failure u) :
    RefusedOutright inlet c m s u ∨
      ∃ station id p callback, RefusedByCallback inlet c m s u station id p callback := by
  cases Weighed.of_weigh hw with
  | refused => exact .inl (refusedOutright hrun hf hty hc hw)
  | @applied station id p _ _ ht happ happly =>
    exact .inr ⟨station, id, p,
      refusedByCallback h.wellFormed.global hrun hf hty hc ht happ hw happly⟩

end Server

namespace Sample

/-- The sample site with a point in direct mode whose receive callback refuses every command. -/
def refusing : Server := site.run
  [.start, .addStation 1, .addPoint 0 { address := 100, type := .C_SC_NA_1 },
    .write 0 (.callback .receive { answer := .failure }), .connection client .opened]

end Sample

namespace Server

/-- At the sample site the server refuses to select a point in direct mode, and the receive callback
refuses an execute. -/
theorem sample_refused :
    (RefusedOutright onFrame Sample.client (Sample.command true) Sample.refusing Sample.refusing ∨
      ∃ station id p callback, RefusedByCallback onFrame Sample.client (Sample.command true)
        Sample.refusing Sample.refusing station id p callback) ∧
    ∃ u station id p callback, RefusedByCallback onFrame Sample.client (Sample.command false)
      Sample.refusing u station id p callback := by
  have hvisited : Sample.refusing.Visited := Sample.visited _
  refine ⟨refused_leaves hvisited rfl rfl rfl (.inl rfl) rfl, ?_⟩
  have hw : ∃ u, weigh onFrame Sample.client (Sample.command false) Sample.refusing =
      .ok .failure u ∧ u.journal.length = Sample.refusing.journal.length + 2 := ⟨_, rfl, rfl⟩
  obtain ⟨u, hw, hlength⟩ := hw
  obtain hout | hcallback := refused_leaves hvisited rfl rfl rfl (.inl rfl) hw
  -- the command and the call of the callback are in the journal
  · rw [hout.unchanged] at hlength
    omega
  · exact ⟨u, hcallback⟩

/-- A refused command may have changed its point: a receive callback that writes nothing refuses an
execute, and the point has been updated. -/
theorem refused_after_write :
    ¬ ∀ {s u : Server} {c : ConnectionId} {m : Message}, s.Visited → s.running = true →
      Message.ofFrame m.frame = .ok m → m.type.isCommand = true → m.cause = .activation →
      weigh onFrame c m s = .ok .failure u →
      (∀ id p callback, s.point? id = some p → p.callbacks.receive = some callback →
        callback.actions = []) →
      ∀ id, (u.point? id).map (·.snapshot) = (s.point? id).map (·.snapshot) := by
  intro hclaim
  have hvisited : Sample.refusing.Visited := Sample.visited _
  have hsame := @hclaim _ _ Sample.client (Sample.command false) hvisited rfl rfl rfl rfl rfl
    (fun id p callback hp hrec => by
      match id, hp with
      | 0, hp =>
        obtain rfl := Option.some.inj hp
        obtain rfl := Option.some.inj hrec
        rfl
      | _ + 1, hp => cases hp) 0
  cases hsame

end Server

end Telecontrol
