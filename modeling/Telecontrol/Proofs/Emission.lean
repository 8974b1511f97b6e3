import Telecontrol.Proofs.Undisturbed

/-! # What acts send

The **output** of a server is the frames it hands over and the rejections it tells the application.
An act **emits** a script, a set of outputs, when all that it puts out is one of them, or the
beginning of one when a panic cuts it short. Scripts follow one another as acts do. Frames that do
not go back to the sender of a frame are **data**: whatever an interrogation, a read or a callback
sends is data, so those acts never answer a frame.

Main statements: `Act.emits_bind` (scripts follow one another), `Server.emits_performAll` and
`Server.emits_interrogate` (what callbacks and interrogations put out is data). -/

namespace Telecontrol

/-! ## Outputs and scripts -/

/-- Whether a frame goes back to where it came from. -/
def Sent.isReturned : Sent → Bool
  | .returned .. => true
  | _ => false

/-- Whether an event is a frame handed over or a rejection told. -/
def Event.isOutput : Event → Bool
  | .sent _ | .rejected .. => true
  | _ => false

/-- Whether an event is a frame handed over that answers no frame. -/
def Event.isData : Event → Bool
  | .sent f => !f.isReturned
  | _ => false

/-- The outputs among the entries of a journal, the earliest first. -/
def outputs (entries : List Entry) : List Event :=
  (entries.reverse.map (·.event)).filter (·.isOutput)

/-- The outputs of two parts of a journal are those of the older one and then those of the newer
one. -/
@[simp] theorem outputs_append (newer older : List Entry) :
    outputs (newer ++ older) = outputs older ++ outputs newer := by
  simp [outputs]

/-- A **script**: the outputs that are foreseen. -/
abbrev Script := Set (List Event)

namespace Script

/-- Any number of data frames. -/
def data : Script := {w | ∀ e ∈ w, e.isData = true}

/-- One script after the other. -/
def andThen (L M : Script) : Script := {w | ∃ u ∈ L, ∃ v ∈ M, w = u ++ v}

/-- No output is data. -/
theorem nil_mem_data : [] ∈ data := fun _ h => absurd h List.not_mem_nil

/-- Data after data is data. -/
theorem andThen_data : data.andThen data ⊆ data := by
  rintro _ ⟨u, hu, v, hv, rfl⟩ e he
  exact (List.mem_append.mp he).elim (hu e) (hv e)

/-- One output after the other. -/
theorem singleton_andThen (u v : List Event) : andThen {u} {v} = {u ++ v} := by
  ext w
  constructor
  · rintro ⟨_, rfl, _, rfl, rfl⟩; rfl
  · rintro rfl; exact ⟨u, rfl, v, rfl, rfl⟩

/-- What a callback may put out: data if it belongs to a point, and nothing otherwise. -/
def ofOwner : Option PointId → Script
  | none => {[]}
  | some _ => data

/-- A callback may put out nothing. -/
theorem nil_mem_ofOwner (own : Option PointId) : [] ∈ ofOwner own := by
  cases own with
  | none => rfl
  | some _ => exact nil_mem_data

/-- What a callback may put out it may put out twice. -/
theorem andThen_ofOwner (own : Option PointId) :
    (ofOwner own).andThen (ofOwner own) ⊆ ofOwner own := by
  cases own with
  | none => rintro _ ⟨u, rfl, v, rfl, rfl⟩; rfl
  | some _ => exact andThen_data

end Script

/-! ## Callbacks that return -/

/-- An action that does not give up. -/
def Action.Returns : Action → Prop
  | .panic _ => False
  | _ => True

/-- Callbacks that **return**: none of those that a frame may call gives up. -/
structure Server.HooksReturn (s : Server) : Prop where
  points : ∀ {id p}, s.point? id = some p → ∀ kind callback,
    p.callbacks.get? kind = some callback → ∀ a ∈ callback.actions, a.Returns
  unexpected : ∀ {actions}, s.callbacks.unexpected = some actions → ∀ a ∈ actions, a.Returns

namespace Server

/-- One server **yields** another with new entries in its journal: roster and callbacks stay. -/
structure Yields (s s' : Server) (new : List Entry) : Prop where
  journal : s'.journal = new ++ s.journal
  roster : s'.plant.roster = s.plant.roster
  callbacks : s'.callbacks = s.callbacks
  hooks : ∀ id, (s'.point? id).map (·.callbacks) = (s.point? id).map (·.callbacks)

namespace Yields

variable {s s' s'' : Server} {new newer : List Entry}

/-- Doing nothing yields no entries. -/
theorem refl (s : Server) : s.Yields s [] := ⟨rfl, rfl, rfl, fun _ => rfl⟩

/-- Entries that are yielded one after the other come one after the other. -/
theorem trans (h : s.Yields s' new) (h' : s'.Yields s'' newer) :
    s.Yields s'' (newer ++ new) where
  journal := by rw [h'.journal, h.journal, List.append_assoc]
  roster := h'.roster.trans h.roster
  callbacks := h'.callbacks.trans h.callbacks
  hooks id := (h'.hooks id).trans (h.hooks id)

/-- A point whose callbacks are looked at has not changed them. -/
theorem point (h : s.Yields s' new) {id : PointId} {p : Point} (hp : s'.point? id = some p) :
    ∃ q, s.point? id = some q ∧ q.callbacks = p.callbacks := by
  have hid := h.hooks id
  rw [hp, Option.map_some] at hid
  exact Option.map_eq_some_iff.mp hid.symm

/-- Callbacks that stay do so afterwards. -/
theorem hooksStay (h : s.Yields s' new) (hs : s.HooksStay) : s'.HooksStay where
  points hp := by
    obtain ⟨q, hq, hc⟩ := h.point hp
    exact hc ▸ hs.points hq
  unexpected := by rw [h.callbacks]; exact hs.unexpected
  octets := by rw [h.callbacks]; exact hs.octets

/-- Callbacks return exactly when they did before. -/
theorem hooksReturn_iff (h : s.Yields s' new) : s'.HooksReturn ↔ s.HooksReturn := by
  have hpoint {id : PointId} {p : Point} (hp : s.point? id = some p) :
      ∃ q, s'.point? id = some q ∧ q.callbacks = p.callbacks := by
    have hid := h.hooks id
    rw [hp, Option.map_some] at hid
    exact Option.map_eq_some_iff.mp hid
  constructor
  · refine fun hs => ⟨fun hp => ?_, by rw [← h.callbacks]; exact hs.unexpected⟩
    obtain ⟨q, hq, hc⟩ := hpoint hp
    exact hc ▸ hs.points hq
  · refine fun hs => ⟨fun hp => ?_, by rw [h.callbacks]; exact hs.unexpected⟩
    obtain ⟨q, hq, hc⟩ := h.point hp
    exact hc ▸ hs.points hq

end Yields

/-- One server yields another and puts out `w` meanwhile. -/
def Says (s s' : Server) (w : List Event) : Prop := ∃ new, s.Yields s' new ∧ outputs new = w

namespace Says

variable {s s' s'' : Server} {w w' : List Event}

/-- Doing nothing puts out nothing. -/
theorem refl (s : Server) : s.Says s [] := ⟨[], .refl s, rfl⟩

/-- One after the other, outputs follow each other. -/
theorem trans (h : s.Says s' w) (h' : s'.Says s'' w') : s.Says s'' (w ++ w') := by
  obtain ⟨new, hy, rfl⟩ := h
  obtain ⟨newer, hy', rfl⟩ := h'
  exact ⟨newer ++ new, hy.trans hy', outputs_append ..⟩

/-- What says nothing may come before. -/
theorem after_nil (h : s.Says s' []) (h' : s'.Says s'' w) : s.Says s'' w := h.trans h'

/-- What says nothing may come afterwards. -/
theorem before_nil (h : s.Says s' w) (h' : s'.Says s'' []) : s.Says s'' w :=
  List.append_nil w ▸ h.trans h'

end Says

/-- One server yields another and puts out nothing but data. -/
def Aside (s s' : Server) : Prop := ∃ w ∈ Script.data, s.Says s' w

namespace Aside

variable {s s' s'' : Server}

/-- Doing nothing puts out nothing but data. -/
theorem refl (s : Server) : s.Aside s := ⟨[], Script.nil_mem_data, .refl s⟩

/-- What puts out nothing puts out nothing but data. -/
theorem of_nil (h : s.Says s' []) : s.Aside s' := ⟨[], Script.nil_mem_data, h⟩

/-- Data may follow data. -/
theorem trans (h : s.Aside s') (h' : s'.Aside s'') : s.Aside s'' := by
  obtain ⟨w, hw, h⟩ := h
  obtain ⟨w', hw', h'⟩ := h'
  exact ⟨w ++ w', Script.andThen_data ⟨w, hw, w', hw', rfl⟩, h.trans h'⟩

end Aside

end Server

/-! ## Acts -/

namespace Act

variable {α β : Type}

/-- An act **completes** when no panic cuts it short. -/
def Completes (act : Act α) (s : Server) : Prop := ∃ a s', act s = .ok a s'

/-- An act **emits** a script from a server whose callbacks stay: its output is one that is
foreseen, or the beginning of one if a callback gives up. -/
def Emits (L : Script) (act : Act α) (s : Server) : Prop :=
  s.HooksStay → ∃ new, s.Yields (act.after s) new ∧
    (∃ w ∈ L, outputs new <+: w ∧ (act.Completes s → outputs new = w)) ∧
    (s.HooksReturn → act.Completes s)

variable {L M : Script} {s : Server}

/-- What emits a script emits any wider one. -/
theorem Emits.mono {act : Act α} (h : act.Emits L s) (hsub : L ⊆ M) : act.Emits M s := by
  intro hs
  obtain ⟨new, hy, ⟨w, hw, hout⟩, hret⟩ := h hs
  exact ⟨new, hy, ⟨w, hsub hw, hout⟩, hret⟩

/-- What an act puts out depends on nothing but what it does. -/
theorem Emits.of_eq {act act' : Act α} (h : act.Emits L s) (heq : act' s = act s) :
    act'.Emits L s := by
  rw [Emits, after, Completes, heq]
  exact h

/-- Two acts complete one after the other. -/
theorem bind_eq_ok {x : Act α} {f : α → Act β} {b : β} {s'' : Server}
    (h : (x >>= f) s = .ok b s'') : ∃ a s', x s = .ok a s' ∧ f a s' = .ok b s'' := by
  cases hx : x s with
  | ok a s' =>
    rw [bind_ok hx] at h
    exact ⟨a, s', rfl, h⟩
  | error e s' =>
    rw [bind_error hx] at h
    cases h

/-- An act that is completed in any case puts out what it puts out. -/
theorem emits_of_ok {act : Act α} {a : α} {s' : Server} (hact : act s = .ok a s')
    {w : List Event} (h : s.Says s' w) (hw : w ∈ L) : act.Emits L s := by
  obtain ⟨new, hy, rfl⟩ := h
  intro _
  rw [after_ok hact]
  exact ⟨new, hy, ⟨_, hw, List.prefix_refl _, fun _ => rfl⟩, fun _ => ⟨a, s', hact⟩⟩

/-- A value emits nothing. -/
theorem emits_pure (a : α) (h : [] ∈ L) : (pure a : Act α).Emits L s :=
  emits_of_ok rfl (.refl s) h

/-- A change emits what it puts out. -/
theorem emits_modify {f : Server → Server} {w : List Event} (h : s.Says (f s) w) (hw : w ∈ L) :
    (modify f : Act Unit).Emits L s := emits_of_ok rfl h hw

/-- A change of the server that puts out nothing but data. -/
theorem emits_aside {f : Server → Server} (h : s.Aside (f s)) :
    (modify f : Act Unit).Emits .data s :=
  let ⟨_, hw, h⟩ := h
  emits_modify h hw

/-- Reading the server changes nothing. -/
theorem emits_get_bind {f : Server → Act β} (h : (f s).Emits L s) :
    (get >>= f : Act β).Emits L s := h

/-- One act after the other; the second one starts where the first one was completed. -/
theorem emits_bind {x : Act α} {f : α → Act β} (hx : x.Emits L s) (hM : M.Nonempty)
    (hf : ∀ a s' new, x s = .ok a s' → s.Yields s' new → (f a).Emits M s') :
    (x >>= f).Emits (L.andThen M) s := by
  intro hs
  obtain ⟨new, hy, ⟨u, hu, hpre, hdone⟩, hret⟩ := hx hs
  cases h : x s with
  | error e s' =>
    -- a panic cuts the whole act short
    have hb : (x >>= f) s = .error e s' := bind_error h
    rw [after_error h] at hy
    rw [after_error hb]
    have hnot : ¬ x.Completes s := by rintro ⟨a, u, hok⟩; rw [h] at hok; cases hok
    obtain ⟨v, hv⟩ := hM
    refine ⟨new, hy, ⟨u ++ v, ⟨u, hu, v, hv, rfl⟩, hpre.trans (List.prefix_append u v), ?_⟩,
      fun hr => absurd (hret hr) hnot⟩
    rintro ⟨b, u, hok⟩
    rw [hb] at hok
    cases hok
  | ok a s' =>
    have hb : (x >>= f) s = f a s' := bind_ok h
    have hafter : (x >>= f).after s = (f a).after s' := by rw [after, hb, after]
    have hcompletes : (x >>= f).Completes s ↔ (f a).Completes s' := by
      rw [Completes, hb, Completes]
    rw [after_ok h] at hy
    obtain ⟨newer, hy', ⟨v, hv, hpre', hdone'⟩, hret'⟩ := hf a s' new h hy (hy.hooksStay hs)
    rw [hafter]
    obtain rfl := hdone ⟨a, s', h⟩
    refine ⟨newer ++ new, hy.trans hy', ⟨_, ⟨_, hu, v, hv, rfl⟩, ?_, fun hc => ?_⟩, fun hr => ?_⟩
    · rw [outputs_append]
      exact (List.prefix_append_right_inj _).mpr hpre'
    · rw [outputs_append, hdone' (hcompletes.mp hc)]
    · exact hcompletes.mpr (hret' (hy.hooksReturn_iff.mpr hr))

/-- Data follows data. -/
theorem emits_data_bind {x : Act α} {f : α → Act β} (hx : x.Emits .data s)
    (hf : ∀ a s' new, x s = .ok a s' → s.Yields s' new → (f a).Emits .data s') :
    (x >>= f).Emits .data s :=
  (emits_bind hx ⟨_, Script.nil_mem_data⟩ hf).mono Script.andThen_data

/-- What is said exactly follows what is said exactly. -/
theorem emits_singleton_bind {x : Act α} {f : α → Act β} {u v : List Event}
    (hx : x.Emits {u} s)
    (hf : ∀ a s' new, x s = .ok a s' → s.Yields s' new → (f a).Emits {v} s') :
    (x >>= f).Emits {u ++ v} s :=
  (emits_bind hx (Set.singleton_nonempty v) hf).mono (Script.singleton_andThen u v).le

/-- A change of the server puts out what it says. -/
theorem emits_said {f : Server → Server} {w : List Event} (h : s.Says (f s) w) :
    (modify f : Act Unit).Emits {w} s := emits_modify h rfl

/-- Writing the server, then going on from what was written. -/
theorem emits_set_bind {s' : Server} {f : PUnit → Act β} {u v : List Event} (h : s.Says s' u)
    (hf : (f ⟨⟩).Emits {v} s') : (set s' >>= f : Act β).Emits {u ++ v} s :=
  have hset : (set s' : Act PUnit).Emits {u} s := emits_of_ok rfl h rfl
  emits_singleton_bind hset fun _ _ _ heq _ => by cases heq; exact hf

end Act

/-! ## The operations of a server -/

namespace Server

variable (s : Server)

/-- A note of anything else puts out nothing. -/
theorem says_note {e : Event} (h : e.isOutput = false) : s.Says (s.note e) [] :=
  ⟨[⟨s.now, e⟩], ⟨rfl, rfl, rfl, fun _ => rfl⟩, by simp [outputs, h]⟩

/-- A callback that is called for a rejected frame has been told. -/
theorem says_rejected (c : ConnectionId) (why : Rejection) (f : WireFrame) :
    s.Says (s.note (.rejected c why f)) [.rejected c why f] :=
  ⟨[⟨s.now, .rejected c why f⟩], ⟨rfl, rfl, rfl, fun _ => rfl⟩, rfl⟩

/-- Handing over a frame puts out that frame. -/
theorem says_handOver (f : Sent) : s.Says (s.handOver f) [.sent f] :=
  ⟨[⟨s.now, .sent f⟩], ⟨rfl, rfl, rfl, fun _ => rfl⟩, rfl⟩

/-- A report puts out nothing. -/
theorem says_report (n : Notice) : s.Says (s.report n) [] := s.says_note rfl

/-- Deferring a job puts out nothing. -/
theorem says_defer (delay : Int) (job : Job) : s.Says (s.defer delay job) [] := by
  rw [defer_eq]
  split
  · exact ⟨[], ⟨rfl, rfl, rfl, fun _ => rfl⟩, rfl⟩
  · exact s.says_report _

/-- Writing to a point says nothing. -/
theorem says_modifyPoint (id : PointId) {f : Point → Point}
    (hf : ∀ p : Point, (f p).callbacks = p.callbacks) : s.Says (s.modifyPoint id f) [] := by
  refine ⟨[], ⟨rfl, rfl, rfl, fun id' => ?_⟩, rfl⟩
  show ((s.plant.points.modify id f).point? id').map (·.callbacks) =
    (s.plant.points.point? id').map (·.callbacks)
  rw [PointStore.point?_modify]
  split
  · cases s.plant.points.point? id' with
    | none => rfl
    | some p => exact congrArg some (hf p)
  · rfl

/-- Removing a point puts out nothing. -/
theorem says_removePointAt (station : CommonAddress) (address : ObjectAddress) :
    s.Says (s.removePointAt station address).1 [] := by
  rw [removePointAt]
  split
  · exact .refl s
  · dsimp only [removePoint, Plant.removePoint]
    split <;> exact ⟨[], ⟨rfl, rfl, rfl, fun _ => rfl⟩, rfl⟩

/-! ## Data -/

/-- Handing over a frame that answers none puts out data. -/
theorem aside_handOver {f : Sent} (h : f.isReturned = false) : s.Aside (s.handOver f) := by
  refine ⟨_, fun e he => ?_, s.says_handOver f⟩
  obtain rfl := List.mem_singleton.mp he
  rw [Event.isData, h]
  rfl

/-- Delivering a frame puts out data. -/
theorem aside_deliver (f : Frame) (receiver : Option ConnectionId) :
    s.Aside (s.deliver f receiver) := by
  unfold deliver
  split
  · split <;> exact s.aside_handOver rfl
  · exact s.aside_handOver rfl

/-- Sending a frame puts out data. -/
theorem aside_send (f : Frame) (receiver : Option ConnectionId) :
    s.Aside (s.send f receiver).1 := by
  rw [send]
  split
  · exact s.aside_deliver _ _
  · exact .refl s

/-- Sending what a point says puts out data. -/
theorem aside_transmit (p : Point) (cause : Cause) (receiver : Option ConnectionId) :
    s.Aside (s.transmit p cause receiver).1 := by
  rw [transmit]
  split
  · exact s.aside_send _ _
  · exact .refl s

/-- Sending what a point says by its identity puts out data. -/
theorem aside_transmitPoint (id : PointId) (cause : Cause) (receiver : Option ConnectionId) :
    s.Aside (s.transmitPoint id cause receiver).1 := by
  rw [transmitPoint]
  split
  · exact .refl s
  · exact s.aside_transmit _ _ _

/-- Building the frames of a batch puts out data at most. -/
theorem aside_buildBatch (b : Batch) (originator : Originator) :
    s.Aside (s.buildBatch b originator).1 := by
  rw [buildBatch]
  cases b.type? with
  | none => exact .refl s
  | some type =>
    refine List.foldlRecOn (motive := s.Aside) _ _ (.refl s) fun u hu a _ => ?_
    exact hu.trans (.of_nil (u.says_report _))

/-- Sending a batch puts out data. -/
theorem aside_sendBatch (b : Batch) (receiver : Option ConnectionId) :
    s.Aside (s.sendBatch b receiver).1 := by
  rw [sendBatch]
  split
  · refine List.foldlRecOn (motive := s.Aside) _ _ (s.aside_buildBatch b _) fun u hu f _ => ?_
    exact hu.trans (u.aside_deliver f receiver)
  · exact .refl s

/-- Sending batches puts out data. -/
theorem aside_sendBatches (receiver : Option ConnectionId) (batches : List Batch) :
    s.Aside (s.sendBatches receiver batches).1 := by
  induction batches generalizing s with
  | nil => exact .refl s
  | cons b rest ih => exact (s.aside_sendBatch b receiver).trans (ih _)

/-- Collecting a point puts out nothing. -/
theorem says_collect (cause : Cause) (groups : Table TypeId Batch) (p : Point) (h : Handle) :
    s.Says (s.collect cause groups p h).1 [] := by
  rw [collect]
  split
  · exact .refl s
  · exact s.says_report _

end Server

/-! ## Callbacks and interrogations -/

namespace Server

open Act

variable {inlet : Inlet} {s : Server}

/-- An action of a callback that stays puts out data at most, and nothing at all if it belongs to no
point. Only giving up cuts it short. -/
theorem emits_perform (own : Option PointId) {a : Action} (ha : a.Within {Deed.plain})
    (hret : s.HooksReturn → a.Returns) : (perform inlet own a).Emits (.ofOwner own) s := by
  have hnil {f : Server → Server} (h : s.Says (f s) []) :
      (modify f : Act Unit).Emits (.ofOwner own) s := emits_modify h (Script.nil_mem_ofOwner own)
  have hwrite (f : Point → Point) (hf : ∀ p : Point, (f p).callbacks = p.callbacks) :
      s.Says (own.elim s fun id => s.modifyPoint id f) [] := by
    cases own with
    | none => exact .refl s
    | some id => exact s.says_modifyPoint id hf
  cases a with
  | setValue value => exact hnil (hwrite (·.setValue s.now value) fun _ => rfl)
  | setQuality quality => exact hnil (hwrite (·.setQuality quality) fun _ => rfl)
  | setReportInterval ms => exact hnil (hwrite (·.setReportInterval ms) fun _ => rfl)
  | removePoint station address =>
    exact hnil ((s.says_removePointAt station address).trans (says_note _ rfl))
  -- only this action hands over data, and only for the point that it belongs to
  | transmit cause =>
    obtain ⟨f, hf, hcases⟩ := perform_transmit inlet own cause
    rw [hf]
    rcases hcases s with hsame | ⟨id, result, rfl, hsent⟩
    · exact hnil (hsame.symm ▸ .refl s)
    · exact emits_aside
        (hsent ▸ (s.aside_transmitPoint id cause none).trans (.of_nil (says_note _ rfl)))
  -- a callback that stays never does these three
  | connection c e => cases ha
  | inbound c f => cases ha
  | stop => cases ha
  -- a panic puts nothing out, and no callback that returns reaches it
  | panic message =>
    intro _
    have hnot : ¬ (perform inlet own (.panic message)).Completes s := by rintro ⟨_, _, h⟩; cases h
    exact ⟨[], .refl s, ⟨[], Script.nil_mem_ofOwner own, List.prefix_refl _,
      fun h => absurd h hnot⟩, fun h => (hret h).elim⟩

/-- Actions emit what their owner may put out. -/
theorem emits_performAll (own : Option PointId) {actions : List Action}
    (hstay : ∀ a ∈ actions, a.Within {Deed.plain})
    (hret : s.HooksReturn → ∀ a ∈ actions, a.Returns) :
    (performAll inlet own actions).Emits (.ofOwner own) s := by
  induction actions generalizing s with
  | nil => exact emits_pure _ (Script.nil_mem_ofOwner own)
  | cons a rest ih =>
    refine (emits_bind (emits_perform own (hstay a List.mem_cons_self)
      fun h => hret h a List.mem_cons_self) ⟨_, Script.nil_mem_ofOwner own⟩
      fun _ u _ _ hy => ?_).mono (Script.andThen_ofOwner own)
    -- the callbacks are what they were, so they still return
    exact ih (fun b hb => hstay b (List.mem_cons_of_mem a hb))
      fun h b hb => hret (hy.hooksReturn_iff.mp h) b (List.mem_cons_of_mem a hb)

/-- The callback of a point puts out data. -/
theorem emits_call (kind : PointCallback) (id : PointId) : (call inlet kind id).Emits .data s := by
  refine fun hs => emits_get_bind ?_ hs
  cases hp : s.point? id with
  | none => exact emits_pure _ Script.nil_mem_data
  | some p =>
    cases hc : p.callbacks.get? kind with
    | none =>
      simp only [hc]
      exact emits_pure _ Script.nil_mem_data
    | some callback =>
      simp only [hc]
      refine emits_data_bind (emits_aside (.of_nil (s.says_note rfl))) fun _ u _ _ hy => ?_
      exact emits_performAll (some id) (hs.points hp kind callback hc)
        fun h => (hy.hooksReturn_iff.mp h).points hp kind callback hc

/-- Preparing a point emits data. -/
theorem emits_prepare (cause : Cause) (id : PointId) :
    (prepare inlet cause id).Emits .data s := by
  rw [prepare]
  split
  · exact emits_data_bind (emits_call _ id) fun _ u _ _ _ =>
      emits_aside (.of_nil (u.says_modifyPoint id fun _ => rfl))
  · exact emits_call _ id

/-- Looking through points emits data. -/
theorem emits_scan (cause : Cause) (handles : List Handle) (groups : Table TypeId Batch) :
    (scan inlet cause handles groups).Emits .data s := by
  induction handles generalizing groups s with
  | nil => exact emits_pure _ Script.nil_mem_data
  | cons h rest ih =>
    rw [scan]
    refine emits_get_bind ?_
    dsimp only
    split
    · exact ih groups
    · rename_i id p _
      refine emits_data_bind (emits_prepare cause id) fun _ u _ _ _ => ?_
      refine emits_get_bind ?_
      exact emits_data_bind (emits_of_ok rfl (u.says_collect cause groups p h)
        Script.nil_mem_data) fun _ _ _ _ _ => ih _

/-- Interrogating a station emits data. -/
theorem emits_interrogateStation (cause : Cause) (receiver : Option ConnectionId)
    (id : StationId) : (interrogateStation inlet cause receiver id).Emits .data s := by
  rw [interrogateStation]
  refine emits_get_bind (emits_data_bind (emits_scan cause _ _) fun groups u _ _ _ => ?_)
  refine emits_get_bind ?_
  obtain ⟨w, hw, h⟩ := u.aside_sendBatches receiver groups.values
  exact emits_data_bind (emits_of_ok rfl h hw) fun _ _ _ _ _ =>
    emits_pure _ Script.nil_mem_data

/-- Interrogating stations one after the other emits data. -/
theorem emits_interrogateStations (cause : Cause) (receiver : Option ConnectionId)
    (ids : List StationId) : (interrogateStations inlet cause receiver ids).Emits .data s := by
  induction ids generalizing s with
  | nil => exact emits_pure _ Script.nil_mem_data
  | cons id rest ih =>
    exact emits_data_bind (emits_interrogateStation cause receiver id) fun _ _ _ _ _ =>
      emits_data_bind ih fun _ _ _ _ _ => emits_pure _ Script.nil_mem_data

/-- An interrogation puts out data. -/
theorem emits_interrogate (cause : Cause) (station : CommonAddress)
    (receiver : Option ConnectionId) :
    (interrogate inlet cause station receiver).Emits .data s := by
  rw [interrogate]
  refine emits_get_bind ?_
  split
  · exact emits_interrogateStations cause receiver _
  · exact emits_pure _ Script.nil_mem_data

end Server

end Telecontrol
