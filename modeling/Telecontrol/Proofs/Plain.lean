import Telecontrol.Proofs.WellFormed

/-! # Plain moves

The operations of a server that concern neither selections nor callbacks are made of plain moves:
confirmations, reports, the frames of an interrogation, what the timers do, and every change of the
plant.

Main statements: one lemma `Moves {.plain} s (s.operation ..)` for each operation, from
`Server.plain_confirm` to `Server.plain_serveTimers`. -/

namespace Telecontrol

/-! ## Frames that end no execute -/

namespace Sent

/-- A returned frame ends no execute unless it is the termination of a command. -/
theorem concluded?_eq_none {c : ConnectionId} {f : WireFrame}
    (h : ∀ m, Message.ofFrame f = .ok m → m.cause = .activationTermination →
      m.type.isCommand = false) : (Sent.returned c f).concluded? = none := by
  rw [concluded?]
  cases hm : Message.ofFrame f with
  | error => rfl
  | ok m =>
    by_cases hc : m.cause = .activationTermination
    · simp [h m hm hc]
    · simp [hc]

/-- An answer of another cause than a termination ends no execute. -/
theorem concluded?_answer {c : ConnectionId} (f : WireFrame) {cause : Cause} {negative : Bool}
    (h : cause ≠ .activationTermination) (station : CommonAddress) :
    (Sent.returned c { f.answer cause negative with station }).concluded? = none := by
  refine concluded?_eq_none fun m hm hc => absurd ?_ h
  obtain ⟨-, -, hcode⟩ := (Message.ofFrame_eq_ok_iff _ _).mp hm
  exact (Cause.code_injective hcode).trans hc

/-- The termination of what is no command ends no execute. -/
theorem concluded?_termination {c : ConnectionId} {f : WireFrame} {m : Message}
    (hm : Message.ofFrame f = .ok m) (h : m.type.isCommand = false) (station : CommonAddress) :
    (Sent.returned c { m.termination with station }).concluded? = none := by
  refine concluded?_eq_none fun n hn _ => ?_
  obtain ⟨-, hn, -⟩ := (Message.ofFrame_eq_ok_iff _ _).mp hn
  obtain ⟨rfl, ht, -⟩ := (Message.ofFrame_eq_ok_iff _ _).mp hm
  rw [← TypeId.code_injective (ht.symm.trans hn)]
  exact h

/-- The termination of a command ends its execute. -/
theorem concluded?_termination_of_isCommand {c : ConnectionId} {m : Message}
    (hm : Message.ofFrame m.frame = .ok m) (h : m.type.isCommand = true) :
    (Sent.returned c m.termination).concluded? = some (m.station, m.address) := by
  obtain ⟨-, ht, -⟩ := (Message.ofFrame_eq_ok_iff _ _).mp hm
  have hn : Message.ofFrame m.termination =
      .ok ⟨m.termination, m.type, .activationTermination⟩ :=
    (Message.ofFrame_eq_ok_iff _ _).mpr ⟨rfl, ht, rfl⟩
  rw [concluded?, hn]
  simp only [h, beq_self_eq_true, Bool.and_self, if_true]
  rfl

end Sent

namespace Server

/-- A single plain move. -/
theorem plain_move {s s' : Server} (h : Move .plain s s') : Moves {.plain} s s' := .single rfl h

variable (s : Server)

/-! ## Journal and transport -/

/-- Noting a plain event is plain. -/
theorem plain_note {e : Event} (h : e.isPlain = true) : Moves {.plain} s (s.note e) :=
  plain_move (.note s h)

/-- Reporting a plain notice is plain. -/
theorem plain_report {n : Notice} (h : n.isPlain = true) : Moves {.plain} s (s.report n) :=
  s.plain_note h

/-- Delivering a frame is plain. -/
theorem plain_deliver (f : Frame) (receiver : Option ConnectionId) :
    Moves {.plain} s (s.deliver f receiver) := by
  unfold deliver
  split
  · split <;> exact plain_move (.handOver s rfl)
  · exact plain_move (.handOver s rfl)

/-- Answering a frame is plain when none of the answers ends an execute. -/
theorem plain_reply {c : ConnectionId} {f : WireFrame}
    (h : ∀ station, (Sent.returned c { f with station }).concluded? = none) :
    Moves {.plain} s (s.reply c f) := by
  rw [reply]
  split
  · refine List.foldlRecOn (motive := Moves {.plain} s) _ _ (.refl s) fun u hu station _ => ?_
    exact hu.trans (plain_move (.handOver u (h station)))
  · exact plain_move (.handOver s (h f.station))

/-- Confirming a message is plain. -/
theorem plain_confirm (c : ConnectionId) (m : Message) (negative : Bool) :
    Moves {.plain} s (s.confirm c m negative) := by
  refine s.plain_reply fun station => Sent.concluded?_answer _ ?_ station
  split <;> decide

/-- So is confirming it with an answer. -/
theorem plain_confirmAs (c : ConnectionId) (m : Message) (answer : Answer) :
    Moves {.plain} s (s.confirmAs c m answer) := by
  rw [confirmAs]
  split
  · exact s.plain_confirm c m _
  · exact .refl s

/-- Terminating is plain when the message is no command, so that nothing is concluded. -/
theorem plain_terminate (c : ConnectionId) {f : WireFrame} {m : Message}
    (hm : Message.ofFrame f = .ok m) (h : m.type.isCommand = false) :
    Moves {.plain} s (s.terminate c m) :=
  s.plain_reply (Sent.concluded?_termination hm h)

/-- Sending a rejected frame back with a negative cause is plain. -/
theorem plain_mirror (c : ConnectionId) (f : WireFrame) {why : Rejection} {cause : Cause}
    (h : why.answerCause = some cause) : Moves {.plain} s (s.sendBack c (f.mirror cause)) := by
  refine plain_move (.handOver s (Sent.concluded?_answer f ?_ f.station))
  rintro rfl
  cases why <;> cases h

/-! ## Points and plant -/

/-- Writing to a point what no callback and no fixed part of it depends on is plain. -/
theorem plain_modifyPoint (id : PointId) {f : Point → Point} (h : ∀ p : Point, p.SameAs (f p))
    (hc : ∀ p : Point, (f p).callbacks = p.callbacks) : Moves {.plain} s (s.modifyPoint id f) :=
  plain_move (.write s id h hc)

/-- Removing a point is plain. -/
theorem plain_removePointAt (station : CommonAddress) (address : ObjectAddress) :
    Moves {.plain} s (s.removePointAt station address).1 := by
  rw [removePointAt]
  split
  · exact .refl s
  · exact plain_move (.plant s (.removePoint s.plant _ address))

/-! ## Sending -/

/-- Sending a frame is plain. -/
theorem plain_send (f : Frame) (receiver : Option ConnectionId) :
    Moves {.plain} s (s.send f receiver).1 := by
  rw [send]
  split
  · exact s.plain_deliver _ _
  · exact .refl s

/-- Transmitting a point is plain. -/
theorem plain_transmit (p : Point) (cause : Cause) (receiver : Option ConnectionId) :
    Moves {.plain} s (s.transmit p cause receiver).1 := by
  rw [transmit]
  split
  · exact s.plain_send _ _
  · exact .refl s

/-- So is transmitting it by its number. -/
theorem plain_transmitPoint (id : PointId) (cause : Cause) (receiver : Option ConnectionId) :
    Moves {.plain} s (s.transmitPoint id cause receiver).1 := by
  rw [transmitPoint]
  split
  · exact .refl s
  · exact s.plain_transmit _ _ _

/-- Sending a frame built of a batch is plain. -/
theorem plain_buildBatch (b : Batch) (originator : Originator) :
    Moves {.plain} s (s.buildBatch b originator).1 := by
  rw [buildBatch]
  cases b.type? with
  | none => exact .refl s
  | some type =>
    refine List.foldlRecOn (motive := Moves {.plain} s) _ _ (.refl s) fun u hu a _ => ?_
    exact hu.trans (u.plain_report rfl)

/-- Sending a batch is plain. -/
theorem plain_sendBatch (b : Batch) (receiver : Option ConnectionId) :
    Moves {.plain} s (s.sendBatch b receiver).1 := by
  rw [sendBatch]
  split
  · refine List.foldlRecOn (motive := Moves {.plain} s) _ _ (s.plain_buildBatch b _)
      fun u hu f _ => ?_
    exact hu.trans (u.plain_deliver f receiver)
  · exact .refl s

/-- So is sending several batches. -/
theorem plain_sendBatches (receiver : Option ConnectionId) (batches : List Batch) :
    Moves {.plain} s (s.sendBatches receiver batches).1 := by
  induction batches generalizing s with
  | nil => exact .refl s
  | cons b rest ih => exact (s.plain_sendBatch b receiver).trans (ih _)

/-- Collecting a point for a batch is plain. -/
theorem plain_collect (cause : Cause) (groups : Table TypeId Batch) (p : Point) (h : Handle) :
    Moves {.plain} s (s.collect cause groups p h).1 := by
  rw [collect]
  split
  · exact .refl s
  · exact s.plain_report rfl

/-! ## The clock of the application and the timers -/

/-- Answering a clock command is plain. -/
theorem plain_onClock (c : ConnectionId) (m : Message) :
    Moves {.plain} s ((s.setClock c m).1.confirmAs c m (s.setClock c m).2) := by
  refine .trans ?_ (plain_confirmAs _ c m _)
  rw [setClock]
  split
  · exact .refl s
  · split
    · exact .refl s
    · exact s.plain_note rfl

/-- Serving the timer of one point is plain. -/
theorem plain_serveTimer (h : Handle) : Moves {.plain} s (s.serveTimer h) := by
  rw [serveTimer]
  split
  · exact .refl s
  · split
    · have hwrite (id : PointId) : Moves {.plain} s
          (s.modifyPoint id (·.markTimer (clockCount s.now))) :=
        s.plain_modifyPoint id (fun _ => ⟨rfl, rfl, rfl, rfl, rfl, rfl⟩) fun _ => rfl
      exact (hwrite _).trans (plain_move (.defer _ _ rfl))
    · exact .refl s

/-- So is serving the timers of all points. -/
theorem plain_serveTimers : Moves {.plain} s s.serveTimers := by
  rw [serveTimers]
  refine List.foldlRecOn (motive := Moves {.plain} s) _ _ (.refl s) fun u hu id _ => ?_
  refine List.foldlRecOn (motive := Moves {.plain} s) _ _ hu fun v hv h _ => ?_
  exact hv.trans (v.plain_serveTimer h)

/-- The return of a point is plain. -/
theorem plain_returnPoint (h : Handle) : Moves {.plain} s (s.returnPoint h) := by
  rw [returnPoint]
  cases s.plant.points.get? h with
  | none => exact .refl s
  | some p =>
    have ht := s.plain_transmit p .returnInfoRemote none
    dsimp only
    split
    · rename_i u _ hu
      rw [hu] at ht
      exact ht
    · rename_i u e hu
      rw [hu] at ht
      exact ht.trans (u.plain_report rfl)

end Server

end Telecontrol
