import Telecontrol.Proofs.Staffing
import Telecontrol.Proofs.Weighing

/-! # What a frame passes on

The handling of a frame calls callbacks, and these may hand in further frames. A server **relays**
when it passes on to such frames whatever it does of a certain kind: here, when it puts no task into
the queue itself that has a point return. Callbacks relay, and so do interrogations, reads and the
clock.

Main statements: `Server.Relays.returns` (what relaying comes to when no frame that is handed in has
a point return), the rules for acts from `Act.relays_pure` to `Act.relays_bind`, and
`Server.relays_performAll`, `Server.relays_reject` and `Server.relays_interrogate`. -/

namespace Telecontrol

/-- Jobs that have a point return. -/
def Job.isReturn : Job → Bool
  | .autoReturn _ => true
  | _ => false

/-- A task is passed over where others are looked for, wherever it is placed. -/
theorem Task.filter_place {β : Type} {P : Task β → Bool} {t : Task β} (h : P t = false)
    (l : List (Task β)) : (place t l).filter P = l.filter P := by
  have hpass (l : List (Task β)) : (t :: l).filter P = l.filter P :=
    List.filter_cons_of_neg (by rw [h]; exact Bool.false_ne_true)
  induction l with
  | nil => exact hpass []
  | cons u rest ih =>
    rw [place]
    split
    · exact hpass _
    · rw [List.filter_cons, List.filter_cons, ih]

namespace Server

variable {s s' s'' : Server}

/-- The tasks that wait to have a point return. -/
def returns (s : Server) : List (Task Job) :=
  s.executor.queue.filter fun t => t.work.body.isReturn

/-- With the same queue, the same points are to return. -/
theorem returns_eq (h : s'.executor.queue = s.executor.queue) : s'.returns = s.returns := by
  rw [returns, h, returns]

/-- Work of another kind that is deferred has no point return. -/
theorem returns_defer (s : Server) (delay : Int) {job : Job} (h : job.isReturn = false) :
    (s.defer delay job).returns = s.returns := by
  rw [defer_eq]
  split
  · exact Task.filter_place h _
  · rfl

/-! ## Quiet operations -/

/-- One server goes over into another one **quietly** when it moves as callbacks may, and the same
points are to return as before. -/
structure Quiet (s s' : Server) : Prop where
  moves : Moves {d | d.IsInner} s s'
  returns : s'.returns = s.returns

namespace Sends

/-- What only sends leaves the queue as it is. -/
theorem returns (h : s.Sends s') : s'.returns = s.returns := by
  obtain ⟨_, _, rfl⟩ := h
  rfl

/-- Noting an event only sends. -/
theorem note (s : Server) (e : Event) : s.Sends (s.note e) := ⟨_, _, rfl⟩

/-- Delivering a frame only sends. -/
theorem deliver (s : Server) (f : Frame) (receiver : Option ConnectionId) :
    s.Sends (s.deliver f receiver) := by
  unfold Server.deliver
  split <;> exact ⟨_, _, rfl⟩

/-- Transmitting a point only sends. -/
theorem transmit (s : Server) (p : Point) (cause : Cause) (receiver : Option ConnectionId) :
    s.Sends (s.transmit p cause receiver).1 := by
  rw [Server.transmit]
  split
  · show s.Sends (s.send _ receiver).1
    rw [send]
    split
    · exact .deliver s _ receiver
    · exact .refl s
  · exact .refl s

/-- So does transmitting it by its number. -/
theorem transmitPoint (s : Server) (id : PointId) (cause : Cause)
    (receiver : Option ConnectionId) : s.Sends (s.transmitPoint id cause receiver).1 := by
  rw [Server.transmitPoint]
  split
  · exact .refl s
  · exact .transmit s _ cause receiver

/-- Sending a frame built of a batch only sends. -/
theorem buildBatch (s : Server) (b : Batch) (originator : Originator) :
    s.Sends (s.buildBatch b originator).1 := by
  rw [Server.buildBatch]
  cases b.type? with
  | none => exact .refl s
  | some type =>
    exact List.foldlRecOn (motive := s.Sends) _ _ (.refl s) fun u hu _ _ => hu.trans (.note u _)

/-- Sending batches only sends. -/
theorem sendBatches (s : Server) (receiver : Option ConnectionId) (batches : List Batch) :
    s.Sends (s.sendBatches receiver batches).1 := by
  have hbatch (u : Server) (b : Batch) : u.Sends (u.sendBatch b receiver).1 := by
    rw [sendBatch]
    split
    · exact List.foldlRecOn (motive := u.Sends) _ _ (.buildBatch u b _) fun v hv f _ =>
        hv.trans (.deliver v f receiver)
    · exact .refl u
  induction batches generalizing s with
  | nil => exact .refl s
  | cons b rest ih => exact (hbatch s b).trans (ih _)

/-- Collecting a point for a batch sends at most. -/
theorem collect (s : Server) (cause : Cause) (groups : Table TypeId Batch) (p : Point)
    (h : Handle) : s.Sends (s.collect cause groups p h).1 := by
  rw [Server.collect]
  split
  · exact .refl s
  · exact .note s _

/-- Answering a clock command only sends. -/
theorem onClock (s : Server) (c : ConnectionId) (m : Message) :
    s.Sends ((s.setClock c m).1.confirmAs c m (s.setClock c m).2) := by
  refine .trans ?_ (.confirmAs _ c m _)
  rw [setClock]
  split
  · exact .refl s
  · split
    · exact .refl s
    · exact .note s _

end Sends

namespace Quiet

/-- A server that stays as it is does so quietly. -/
theorem refl (s : Server) : s.Quiet s := ⟨.refl s, rfl⟩

/-- Quiet ways follow each other. -/
theorem trans (h : s.Quiet s') (h' : s'.Quiet s'') : s.Quiet s'' :=
  ⟨h.moves.trans h'.moves, h'.returns.trans h.returns⟩

/-- Plain moves are quiet when the same points are to return. -/
theorem plainly (h : Moves {.plain} s s') (hr : s'.returns = s.returns) : s.Quiet s' :=
  ⟨(Regime.free Deed.scope_inner).plainly h, hr⟩

/-- So is what only sends. -/
theorem sending (h : Moves {.plain} s s') (hs : s.Sends s') : s.Quiet s' := plainly h hs.returns

/-- Noting a plain event is quiet. -/
theorem note (s : Server) {e : Event} (h : e.isPlain = true) : s.Quiet (s.note e) :=
  plainly (s.plain_note h) rfl

/-- Confirming a message is quiet. -/
theorem confirm (s : Server) (c : ConnectionId) (m : Message) (negative : Bool) :
    s.Quiet (s.confirm c m negative) := sending (s.plain_confirm c m negative) (.reply s c _)

/-- So is confirming it with an answer. -/
theorem confirmAs (s : Server) (c : ConnectionId) (m : Message) (answer : Answer) :
    s.Quiet (s.confirmAs c m answer) := sending (s.plain_confirmAs c m answer) (.confirmAs s ..)

/-- Changing a point is quiet when it stays the same point with the same callbacks. -/
theorem modifyPoint (s : Server) (id : PointId) {f : Point → Point}
    (h : ∀ p : Point, p.SameAs (f p)) (hc : ∀ p : Point, (f p).callbacks = p.callbacks) :
    s.Quiet (s.modifyPoint id f) := plainly (s.plain_modifyPoint id h hc) rfl

/-- Transmitting a point is quiet. -/
theorem transmitPoint (s : Server) (id : PointId) (cause : Cause)
    (receiver : Option ConnectionId) : s.Quiet (s.transmitPoint id cause receiver).1 :=
  sending (s.plain_transmitPoint id cause receiver) (.transmitPoint s id cause receiver)

/-- Removing a point is quiet. -/
theorem removePointAt (s : Server) (station : CommonAddress) (address : ObjectAddress) :
    s.Quiet (s.removePointAt station address).1 := by
  refine plainly (s.plain_removePointAt station address) (returns_eq ?_)
  rw [Server.removePointAt]
  split <;> rfl

/-- What happens to connections is quiet. -/
theorem onConnectionEvent (s : Server) (c : ConnectionId) (e : ConnectionEvent) :
    s.Quiet (s.onConnectionEvent c e) :=
  ⟨.single (show (Deed.connection c e).IsInner from trivial) (.connection s c e),
    returns_eq (by rw [executor_onConnectionEvent])⟩

/-- Stopping the server is quiet. -/
theorem stop (s : Server) : s.Quiet s.stop :=
  ⟨.single (show Deed.stop.IsInner from trivial) (.stop s), returns_eq (queue_stop s)⟩

end Quiet

/-! ## Relaying -/

/-- One server **relays** through an inlet to another one: what it does on the way is quiet, or it
handles frames that are handed in. -/
def Relays (inlet : Inlet) : Server → Server → Prop :=
  Relation.ReflTransGen fun s s' => s.Quiet s' ∨ ∃ c f, s' = (inlet c f).after s

variable {inlet : Inlet}

/-- A quiet way relays. -/
theorem Quiet.relays (h : s.Quiet s') : Relays inlet s s' := .single (.inl h)

/-- What is relayed comes about by moves. -/
theorem Relays.moves (hin : inlet.Passes (.free Deed.scope_inner)) (h : Relays inlet s s')
    (hs : s.WellFormed) : Moves {d | d.IsInner} s s' := by
  induction h with
  | refl => exact .refl s
  | tail _ hstep ih =>
    rcases hstep with hquiet | ⟨c, f, rfl⟩
    · exact ih.trans hquiet.moves
    · exact ih.trans (hin c f trivial _ ⟨ih.wellFormed hs, hooked_inner _⟩)

/-- Where no frame that is handed in has a point return, the same points are to return as before. -/
theorem Relays.returns (h : Relays inlet s s')
    (hinlet : ∀ c f v, ((inlet c f).after v).returns = v.returns) : s'.returns = s.returns := by
  induction h with
  | refl => rfl
  | tail _ hstep ih =>
    rcases hstep with hquiet | ⟨c, f, rfl⟩
    · exact hquiet.returns.trans ih
    · exact (hinlet c f _).trans ih

end Server

/-! ## Acts -/

namespace Act

variable {α β : Type} {inlet : Inlet} {s s' : Server}

/-- An act **relays** from a well-formed server when it relays to what it leaves. -/
def Relays (inlet : Inlet) (act : Act α) (s : Server) : Prop :=
  s.WellFormed → Server.Relays inlet s (act.after s)

/-- An act that only returns a value relays. -/
theorem relays_pure (a : α) : (pure a : Act α).Relays inlet s := fun _ => .refl

/-- An act relays when it changes the server quietly. -/
theorem relays_modify {f : Server → Server} (h : s.Quiet (f s)) :
    (modify f : Act Unit).Relays inlet s := fun _ => h.relays

/-- A frame that is handed in is relayed. -/
theorem relays_inlet (c : ConnectionId) (f : WireFrame) (s : Server) :
    (inlet c f).Relays inlet s := fun _ => .single (.inr ⟨c, f, rfl⟩)

/-- Reading the server relays what follows. -/
theorem relays_get_bind {f : Server → Act β} (h : (f s).Relays inlet s) :
    (get >>= f : Act β).Relays inlet s := h

/-- Writing the server relays when the way there is quiet and what follows relays. -/
theorem relays_set_bind {f : PUnit → Act β} (h : s.Quiet s') (hf : (f ⟨⟩).Relays inlet s') :
    (set s' >>= f : Act β).Relays inlet s :=
  fun hs => .trans h.relays (hf (h.moves.wellFormed hs))

/-- One act after the other. -/
theorem relays_bind (hin : inlet.Passes (.free Deed.scope_inner)) {x : Act α} {f : α → Act β}
    (hx : x.Relays inlet s) (hf : ∀ a s', (f a).Relays inlet s') :
    (x >>= f).Relays inlet s := by
  intro hs
  have hm := hx hs
  obtain hb | ⟨a, -, hb⟩ := after_bind x f s
  · rw [hb]
    exact hm
  · rw [hb]
    exact hm.trans (hf a _ ((hm.moves hin hs).wellFormed hs))

/-- The same act for each item of a list. -/
theorem relays_forM (hin : inlet.Passes (.free Deed.scope_inner)) {f : α → Act PUnit} {l : List α}
    (h : ∀ a s', (f a).Relays inlet s') : (l.forM f : Act PUnit).Relays inlet s := by
  induction l generalizing s with
  | nil => exact relays_pure _
  | cons a rest ih => exact relays_bind hin (h a s) fun _ _ => ih

end Act

namespace Server

open Act

variable {inlet : Inlet} (hin : inlet.Passes (.free Deed.scope_inner)) {c : ConnectionId}
  {f : WireFrame} {m : Message} {s : Server}

/-! ## Callbacks -/

/-- An action relays: only a frame that it hands in may do more. -/
theorem relays_perform (own : Option PointId) (a : Action) (s : Server) :
    (perform inlet own a).Relays inlet s := by
  have hwrite (f : Point → Point) (h : ∀ p : Point, p.SameAs (f p))
      (hc : ∀ p : Point, (f p).callbacks = p.callbacks) :
      s.Quiet (own.elim s fun id => s.modifyPoint id f) := by
    cases own with
    | none => exact .refl s
    | some id => exact .modifyPoint s id h hc
  cases a with
  | setValue value =>
    exact relays_modify <|
      hwrite (·.setValue s.now value) (fun _ => ⟨rfl, rfl, rfl, rfl, rfl, rfl⟩) fun _ => rfl
  | setQuality quality =>
    exact relays_modify <|
      hwrite (·.setQuality quality) (fun _ => ⟨rfl, rfl, rfl, rfl, rfl, rfl⟩) fun _ => rfl
  | setReportInterval ms =>
    exact relays_modify <|
      hwrite (·.setReportInterval ms) (fun _ => ⟨rfl, rfl, rfl, rfl, rfl, rfl⟩) fun _ => rfl
  | transmit cause =>
    obtain ⟨f, hf, hcases⟩ := perform_transmit inlet own cause
    rw [hf]
    refine relays_modify ?_
    rcases hcases s with hsame | ⟨id, result, -, hsent⟩
    · exact hsame.symm ▸ .refl s
    · exact hsent ▸ (Quiet.transmitPoint s id cause none).trans (.note _ rfl)
  | removePoint station address =>
    exact relays_modify ((Quiet.removePointAt s station address).trans (.note _ rfl))
  | connection c e => exact relays_modify (.onConnectionEvent s c e)
  -- the frame that is handed in, whatever becomes of it
  | inbound c f => exact relays_inlet c f s
  | stop => exact relays_modify (.stop s)
  | panic message => exact fun _ => .refl

include hin

/-- The actions of a callback relay. -/
theorem relays_performAll (own : Option PointId) (actions : List Action) (s : Server) :
    (performAll inlet own actions).Relays inlet s := relays_forM hin (relays_perform own)

/-- A callback of a point relays. -/
theorem relays_call (kind : PointCallback) (id : PointId) (s : Server) :
    (call inlet kind id).Relays inlet s := by
  refine relays_get_bind ?_
  cases s.point? id with
  | none => exact relays_pure _
  | some p =>
    cases hc : p.callbacks.get? kind with
    | none =>
      simp only [hc]
      exact relays_pure _
    | some callback =>
      simp only [hc]
      exact relays_bind hin (relays_modify (.note s rfl)) fun _ s' =>
        relays_performAll hin id callback.actions s'

/-- The rejection of a frame relays. -/
theorem relays_reject (c : ConnectionId) (f : WireFrame) (why : Rejection) (s : Server) :
    (reject inlet c f why).Relays inlet s := by
  have htell (u : Server) : (tellRejected inlet c f why).Relays inlet u := by
    refine relays_get_bind ?_
    cases u.callbacks.unexpected with
    | none => exact relays_pure _
    | some actions =>
      exact relays_set_bind (.note u rfl) (relays_performAll hin none actions _)
  unfold reject
  cases hw : why.answerCause with
  | none => exact htell s
  | some cause =>
    exact relays_bind hin
      (relays_modify (.sending (s.plain_mirror c f hw) (.sendBack s c _))) fun _ s' => htell s'

/-! ## Interrogation, reading and the clock -/

/-- Preparing a point relays. -/
theorem relays_prepare (cause : Cause) (id : PointId) (s : Server) :
    (prepare inlet cause id).Relays inlet s := by
  rw [prepare]
  split
  · exact relays_bind hin (relays_call hin _ id s) fun _ s' => relays_modify <|
      .modifyPoint s' id (fun _ => ⟨rfl, rfl, rfl, rfl, rfl, rfl⟩) fun _ => rfl
  · exact relays_call hin _ id s

/-- Preparing the points of a station and collecting them relays. -/
theorem relays_scan (cause : Cause) (handles : List Handle) (groups : Table TypeId Batch)
    (s : Server) : (scan inlet cause handles groups).Relays inlet s := by
  induction handles generalizing groups s with
  | nil => exact relays_pure _
  | cons h rest ih =>
    rw [scan]
    refine relays_get_bind ?_
    dsimp only
    split
    · exact ih groups s
    · rename_i id p _
      refine relays_bind hin (relays_prepare hin cause id s) fun _ s' => relays_get_bind ?_
      exact relays_set_bind
        (.sending (s'.plain_collect cause groups p h) (.collect s' cause groups p h)) (ih _ _)

/-- The interrogation of a station relays. -/
theorem relays_interrogateStation (cause : Cause) (receiver : Option ConnectionId)
    (id : StationId) (s : Server) :
    (interrogateStation inlet cause receiver id).Relays inlet s := by
  rw [interrogateStation]
  refine relays_get_bind (relays_bind hin (relays_scan hin cause _ _ s) fun groups s' => ?_)
  exact relays_get_bind (relays_set_bind (.sending (s'.plain_sendBatches receiver groups.values)
    (.sendBatches s' receiver groups.values)) (relays_pure _))

/-- So does the interrogation of several stations. -/
theorem relays_interrogateStations (cause : Cause) (receiver : Option ConnectionId)
    (ids : List StationId) (s : Server) :
    (interrogateStations inlet cause receiver ids).Relays inlet s := by
  induction ids generalizing s with
  | nil => exact relays_pure _
  | cons id rest ih =>
    exact relays_bind hin (relays_interrogateStation hin cause receiver id s) fun _ s' =>
      relays_bind hin (ih s') fun _ _ => relays_pure _

/-- An interrogation relays. -/
theorem relays_interrogate (cause : Cause) (station : CommonAddress)
    (receiver : Option ConnectionId) (s : Server) :
    (interrogate inlet cause station receiver).Relays inlet s := by
  rw [interrogate]
  refine relays_get_bind ?_
  split
  · exact relays_interrogateStations hin cause receiver _ s
  · exact relays_pure _

/-- So does the answer to an interrogation, when its message is no command. -/
theorem relays_answerInterrogation (hf : Message.ofFrame f = .ok m)
    (hty : m.type.isCommand = false) (cause : Cause) (s : Server) :
    (answerInterrogation inlet c m cause).Relays inlet s := by
  refine relays_bind hin (relays_modify (.confirm s c m false)) fun _ s' => ?_
  refine relays_bind hin (relays_bind hin (relays_interrogate hin cause m.station c s')
    fun _ _ => relays_pure _) fun _ u => ?_
  exact relays_modify (.sending (u.plain_terminate c hf hty) (.reply u c _))

/-- The refusal of a group relays. -/
theorem relays_refuseGroup (s : Server) : (refuseGroup inlet c m).Relays inlet s :=
  relays_bind hin (relays_modify (.confirm s c m true)) fun _ s' =>
    relays_reject hin c m.frame _ s'

/-- A general interrogation relays. -/
theorem relays_onInterrogation (hf : Message.ofFrame f = .ok m) (hty : m.type.isCommand = false)
    (s : Server) : (onInterrogation inlet c m).Relays inlet s := by
  rw [onInterrogation]
  split
  · exact relays_modify (.confirm s c m false)
  · split
    · exact relays_refuseGroup hin s
    · exact relays_answerInterrogation hin hf hty _ s

/-- A counter interrogation relays. -/
theorem relays_onCounterInterrogation (hf : Message.ofFrame f = .ok m)
    (hty : m.type.isCommand = false) (s : Server) :
    (onCounterInterrogation inlet c m).Relays inlet s := by
  rw [onCounterInterrogation]
  split
  · exact relays_refuseGroup hin s
  · exact relays_answerInterrogation hin hf hty _ s

/-- A read command relays. -/
theorem relays_onRead (s : Server) : (onRead inlet c m).Relays inlet s := by
  refine relays_get_bind ?_
  cases s.target m with
  | error why => exact relays_reject hin c m.frame why s
  | ok found =>
    obtain ⟨station, id, p⟩ := found
    dsimp only
    split
    · refine relays_bind hin (relays_call hin .beforeRead id s) fun _ s' => relays_modify ?_
      have ht := Quiet.transmitPoint s' id .request (some c)
      split
      · rename_i u e hu
        rw [hu] at ht
        exact ht.trans (.note u rfl)
      · rename_i u _ _ hu
        rw [hu] at ht
        exact ht
    · exact relays_reject hin c m.frame _ s

end Server

end Telecontrol
