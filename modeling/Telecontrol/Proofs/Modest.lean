import Telecontrol.Proofs.Delivery
import Telecontrol.Proofs.Onward
import Telecontrol.Proofs.Silence

/-! # Modest callbacks

A callback is **modest** when it writes values and qualities of points and does nothing else. While
all callbacks are modest, the handling of a frame does not touch what the pace of a point depends
on: its marks, the calls of timer callbacks that wait, and the cyclic reports that were sent. The
server **bides** the time of the points. An interrogation may bide it as well, but for the cyclic
reports.

Main statements: the rules for acts from `Act.bides_pure` to `Act.bides_bind`,
`Server.bides_interrogate` and `Server.bides_receive`. -/

namespace Telecontrol

/-! ## Modesty -/

/-- An action that only writes the value or the quality of the point of its callback. -/
def Action.IsModest : Action → Prop
  | .setValue _ | .setQuality _ => True
  | _ => False

instance (a : Action) : Decidable a.IsModest :=
  match a with
  | .setValue _ | .setQuality _ => isTrue trivial
  | .setReportInterval _ | .transmit _ | .removePoint .. | .connection .. | .inbound .. | .stop
  | .panic _ => isFalse id

/-- A modest action stays with the points. -/
theorem Action.IsModest.isLocal {a : Action} (h : a.IsModest) : a.IsLocal := by
  cases a with
  | setValue | setQuality => trivial
  | _ => cases h

namespace Server

/-- A server is **modest** when all callbacks are, those of its points and its own. -/
structure Modest (s : Server) : Prop where
  points : ∀ {j p kind callback}, s.point? j = some p → p.callbacks.get? kind = some callback →
    ∀ a ∈ callback.actions, a.IsModest
  unexpected : ∀ {actions}, s.callbacks.unexpected = some actions → ∀ a ∈ actions, a.IsModest
  octets : ∀ {sent actions}, s.callbacks.octets sent = some actions → ∀ a ∈ actions, a.IsModest

/-- The callbacks of a modest server stay with the points. -/
theorem Modest.hooksLocal {s : Server} (h : s.Modest) (kind : PointCallback) :
    s.plant.HooksLocal kind := fun hp hcallback a ha => (h.points hp hcallback a ha).isLocal

/-- A server with the same callbacks is as modest. -/
theorem Modest.of_callbacks {s s' : Server} (h : s.Modest) (hcallbacks : s'.callbacks = s.callbacks)
    (hhooks : ∀ j, (s'.point? j).map (·.callbacks) = (s.point? j).map (·.callbacks)) :
    s'.Modest where
  points {j p kind callback} hp hcallback := by
    have hj := hhooks j
    rw [hp, Option.map_some] at hj
    obtain ⟨q, hq, hcall⟩ := Option.map_eq_some_iff.mp hj.symm
    exact h.points hq (hcall ▸ hcallback)
  unexpected hactions := h.unexpected (hcallbacks ▸ hactions)
  octets hactions := h.octets (hcallbacks ▸ hactions)

end Server

/-! ## What the pace of a point depends on -/

/-- When the timer of a point ran out last. -/
def Plant.timerAt? (p : Plant) (i : PointId) : Option UInt64 := (p.points.point? i).map (·.timerAt)

/-- Jobs that call the timer callback of a point. -/
def Job.isTimer : Job → Bool
  | .pointTimer _ => true
  | _ => false

/-- The frame that is handed over, unless it goes back to where another one came from. -/
def Sent.frame? : Sent → Option Frame
  | .direct _ f | .queued f => some f
  | .returned .. => none

/-- What a frame that is handed over reports cyclically. -/
def Sent.cyclicItems (f : Sent) : List Item :=
  match f.frame? with
  | none => []
  | some f => if f.cause = .periodic then f.items else []

/-- A frame with another cause reports nothing cyclically. -/
theorem Sent.cyclicItems_eq_nil {f : Sent} (h : ∀ g, f.frame? = some g → g.cause ≠ .periodic) :
    f.cyclicItems = [] := by
  rw [cyclicItems]
  split
  · rfl
  · rename_i g hg
    exact if_neg (h g hg)

namespace Server

/-- The calls of timer callbacks that wait. -/
def timings (s : Server) : List (Task Job) :=
  s.executor.queue.filter fun t => t.work.body.isTimer

/-- What was reported cyclically, the latest frame first. -/
def cyclicItems (s : Server) : List Item := s.handed.flatMap (·.cyclicItems)

/-- One server **bides** the time of its points on its way to another one: neither the connections
nor the callbacks nor the handles change, the marks of the timers stay, and no call of a timer
callback joins the queue or leaves it. Unless the way may be a cyclic one, the marks of the last
reports stay too, and no cyclic report is sent. -/
structure Bides (cyclic : Bool) (s s' : Server) : Prop where
  connections : s'.connections = s.connections
  registry : s'.plant.points.registry = s.plant.points.registry
  callbacks : s'.callbacks = s.callbacks
  hooks : ∀ j, (s'.point? j).map (·.callbacks) = (s.point? j).map (·.callbacks)
  timer : ∀ i, s'.plant.timerAt? i = s.plant.timerAt? i
  mark : cyclic = false → ∀ i, s'.plant.reportedAt? i = s.plant.reportedAt? i
  timings : s'.timings = s.timings
  reports : cyclic = false → s'.cyclicItems = s.cyclicItems

variable {cyclic : Bool} {s s' s'' : Server}

namespace Bides

/-- A server that stays as it is bides. -/
theorem refl (s : Server) : s.Bides cyclic s :=
  ⟨rfl, rfl, rfl, fun _ => rfl, fun _ => rfl, fun _ _ => rfl, rfl, fun _ => rfl⟩

/-- Ways that bide follow each other. -/
theorem trans (h : s.Bides cyclic s') (h' : s'.Bides cyclic s'') : s.Bides cyclic s'' where
  connections := h'.connections.trans h.connections
  registry := h'.registry.trans h.registry
  callbacks := h'.callbacks.trans h.callbacks
  hooks j := (h'.hooks j).trans (h.hooks j)
  timer i := (h'.timer i).trans (h.timer i)
  mark hc i := (h'.mark hc i).trans (h.mark hc i)
  timings := h'.timings.trans h.timings
  reports hc := (h'.reports hc).trans (h.reports hc)

/-- The callbacks stay modest. -/
theorem modest (h : s.Bides cyclic s') (hs : s.Modest) : s'.Modest :=
  hs.of_callbacks h.callbacks h.hooks

/-- A way on which nothing but the journal, the transport and the selections changes, and no cyclic
report is sent. -/
theorem of_handed (fs : List Sent) (hconnections : s'.connections = s.connections)
    (hplant : s'.plant = s.plant) (hcallbacks : s'.callbacks = s.callbacks)
    (hqueue : s'.timings = s.timings) (hhanded : s'.handed = fs ++ s.handed)
    (hfs : cyclic = false → ∀ f ∈ fs, ∀ g, f.frame? = some g → g.cause ≠ .periodic) :
    s.Bides cyclic s' where
  connections := hconnections
  registry := by rw [hplant]
  callbacks := hcallbacks
  hooks j := by rw [point?, hplant]; rfl
  timer _ := by rw [hplant]
  mark _ _ := by rw [hplant]
  timings := hqueue
  reports hc := by
    have hnil : fs.flatMap (·.cyclicItems) = [] :=
      List.flatMap_eq_nil_iff.mpr fun f hf => Sent.cyclicItems_eq_nil (hfs hc f hf)
    rw [cyclicItems, hhanded, List.flatMap_append, hnil, List.nil_append, cyclicItems]

/-- What hands over nothing, and only writes the journal. -/
theorem note (s : Server) {e : Event} (he : e.sent? = none) : s.Bides cyclic (s.note e) :=
  of_handed [] rfl rfl rfl rfl (Mute.note s he).handed fun _ _ hf => nomatch hf

/-- A notice that is reported bides. -/
theorem report (s : Server) (n : Notice) : s.Bides cyclic (s.report n) := note s rfl

/-- Handing over a frame that is no cyclic report. -/
theorem handOver (s : Server) {f : Sent}
    (hf : cyclic = false → ∀ g, f.frame? = some g → g.cause ≠ .periodic) :
    s.Bides cyclic (s.handOver f) :=
  of_handed [f] rfl rfl rfl rfl rfl fun hc _ hg => (List.mem_singleton.mp hg) ▸ hf hc

/-- A frame that is sent back is no cyclic report. -/
theorem sendBack (s : Server) (c : ConnectionId) (f : WireFrame) :
    s.Bides cyclic (s.sendBack c f) := handOver s fun _ _ hg => nomatch hg

/-- So are all the copies of a reply. -/
theorem reply (s : Server) (c : ConnectionId) (f : WireFrame) : s.Bides cyclic (s.reply c f) := by
  rw [Server.reply]
  split
  · exact List.foldlRecOn (motive := s.Bides cyclic) _ _ (refl s) fun u hu _ _ =>
      hu.trans (sendBack u c _)
  · exact sendBack s c f

/-- So is the confirmation of a message. -/
theorem confirmAs (s : Server) (c : ConnectionId) (m : Message) (answer : Answer) :
    s.Bides cyclic (s.confirmAs c m answer) := by
  rw [Server.confirmAs]
  split
  · exact reply s c _
  · exact refl s

/-- Other work is deferred. -/
theorem defer (s : Server) (delay : Int) {job : Job} (hjob : job.isTimer = false) :
    s.Bides cyclic (s.defer delay job) := by
  rw [defer_eq]
  split
  · exact of_handed [] rfl rfl rfl (Task.filter_place hjob _) rfl fun _ _ hf => nomatch hf
  · exact report s _

/-- The selections concern no point's time. -/
theorem selections (s : Server) (selections : SelectionTable) :
    s.Bides cyclic { s with selections } :=
  of_handed [] rfl rfl rfl rfl rfl fun _ _ hf => nomatch hf

/-- Writing to a point neither its marks nor its callbacks. -/
theorem modifyPoint (s : Server) (id : PointId) {f : Point → Point}
    (htimer : ∀ p : Point, (f p).timerAt = p.timerAt)
    (hcall : ∀ p : Point, (f p).callbacks = p.callbacks)
    (hmark : cyclic = false → ∀ p : Point, (f p).reportedAt = p.reportedAt) :
    s.Bides cyclic (s.modifyPoint id f) := by
  have hmap {α : Type} (g : Point → α) (hg : ∀ p, g (f p) = g p) (j : PointId) :
      ((s.modifyPoint id f).point? j).map g = (s.point? j).map g := by
    show ((s.plant.points.modify id f).point? j).map g = (s.plant.points.point? j).map g
    rw [PointStore.point?_modify]
    split
    · rw [Option.map_map]
      exact Option.map_congr fun p _ => hg p
    · rfl
  exact ⟨rfl, rfl, rfl, hmap _ hcall, hmap _ htimer, fun hc => hmap _ (hmark hc), rfl, fun _ => rfl⟩

end Bides

end Server

/-! ## Acts -/

namespace Act

variable {α β : Type} {cyclic : Bool} {s s' : Server}

/-- An act **bides** the time of a point when it does so on the way to what it leaves, from a server
whose callbacks are modest. -/
def Bides (cyclic : Bool) (act : Act α) (s : Server) : Prop :=
  s.Modest → s.Bides cyclic (act.after s)

/-- An act that only returns a value bides. -/
theorem bides_pure (a : α) : (pure a : Act α).Bides cyclic s := fun _ => .refl s

/-- An act bides when it changes the server in a way that does. -/
theorem bides_modify {f : Server → Server} (h : s.Bides cyclic (f s)) :
    (modify f : Act Unit).Bides cyclic s := fun _ => h

/-- Reading the server changes nothing. -/
theorem bides_get_bind {f : Server → Act β} (h : (f s).Bides cyclic s) :
    (get >>= f : Act β).Bides cyclic s := h

/-- Writing the server, then going on from what was written. -/
theorem bides_set_bind {f : PUnit → Act β} (h : s.Bides cyclic s')
    (hf : (f ⟨⟩).Bides cyclic s') : (set s' >>= f : Act β).Bides cyclic s :=
  fun hs => h.trans (hf (h.modest hs))

/-- One act after the other; the second starts where the first was completed. -/
theorem bides_bind {x : Act α} {f : α → Act β} (hx : x.Bides cyclic s)
    (hf : ∀ a s', x s = .ok a s' → (f a).Bides cyclic s') : (x >>= f).Bides cyclic s := by
  intro hs
  obtain hb | ⟨a, hok, hb⟩ := after_bind x f s
  · rw [hb]
    exact hx hs
  · rw [hb]
    exact (hx hs).trans (hf a _ hok ((hx hs).modest hs))

/-- A task whose act bides the time: a panic is only reported. -/
theorem Bides.guard {act : Act Unit} (h : act.Bides cyclic s) (hs : s.Modest) :
    s.Bides cyclic (s.guard act) := by
  obtain hg | ⟨text, hg⟩ := s.guard_cases act
  · rw [hg]
    exact h hs
  · rw [hg]
    exact (h hs).trans (.report _ _)

/-- An act from outside that bides the time. -/
theorem Bides.outside {act : Act Unit} (h : act.Bides cyclic s) (hs : s.Modest) :
    s.Bides cyclic (s.outside act) := by
  rw [Server.outside_eq_after]
  exact h hs

end Act

namespace Server

open Act

variable {cyclic : Bool} {s : Server} {inlet : Inlet} {cause : Cause}
  {receiver : Option ConnectionId}

/-! ## Callbacks -/

/-- A modest action bides the time. -/
theorem bides_perform (own : Option PointId) {a : Action} (ha : a.IsModest) :
    (perform inlet own a).Bides cyclic s := by
  have hwrite (f : Point → Point) (htimer : ∀ p : Point, (f p).timerAt = p.timerAt)
      (hcall : ∀ p : Point, (f p).callbacks = p.callbacks)
      (hmark : ∀ p : Point, (f p).reportedAt = p.reportedAt) :
      s.Bides cyclic (own.elim s fun id => s.modifyPoint id f) := by
    cases own with
    | none => exact .refl s
    | some id => exact .modifyPoint s id htimer hcall fun _ => hmark
  cases a with
  | setValue value =>
    exact bides_modify (hwrite (·.setValue s.now value) (fun _ => rfl) (fun _ => rfl) fun _ => rfl)
  | setQuality quality =>
    exact bides_modify (hwrite (·.setQuality quality) (fun _ => rfl) (fun _ => rfl) fun _ => rfl)
  | _ => cases ha

/-- Modest actions bide, whatever the frames do that they hand in. -/
theorem bides_performAll (own : Option PointId) {actions : List Action}
    (h : ∀ a ∈ actions, a.IsModest) : (performAll inlet own actions).Bides cyclic s := by
  induction actions generalizing s with
  | nil => exact bides_pure _
  | cons a rest ih =>
    exact bides_bind (bides_perform own (h a List.mem_cons_self)) fun _ _ _ =>
      ih fun b hb => h b (List.mem_cons_of_mem a hb)

/-- Calling a callback of a point. -/
theorem bides_call (kind : PointCallback) (id : PointId) :
    (call inlet kind id).Bides cyclic s := by
  intro hs
  refine bides_get_bind ?_ hs
  cases hp : s.point? id with
  | none => exact bides_pure _
  | some p =>
    cases hc : p.callbacks.get? kind with
    | none =>
      simp only [hc]
      exact bides_pure _
    | some callback =>
      simp only [hc]
      exact bides_bind (bides_modify (.note s rfl)) fun _ _ _ =>
        bides_performAll id (hs.points hp hc)

/-- Applying a command writes a value, and the receive callback is modest. -/
theorem bides_applyCommand (c : ConnectionId) (m : Message) (id : PointId) :
    (applyCommand inlet c m id).Bides cyclic s := by
  intro hs
  refine bides_get_bind ?_ hs
  cases hp : s.point? id with
  | none => exact bides_pure _
  | some before =>
    have happly : s.Bides cyclic (s.modifyPoint id fun p => p.apply s.now m) :=
      .modifyPoint s id (fun _ => rfl) (fun _ => rfl) fun _ _ => rfl
    refine bides_set_bind (happly.trans (.note _ rfl)) ?_
    cases hc : (before.apply s.now m).callbacks.receive with
    | none => exact bides_pure _
    | some callback =>
      have hreceive : before.callbacks.get? .receive = some callback := hc
      refine bides_bind (bides_modify (.note _ rfl)) fun _ _ _ => ?_
      exact bides_bind (bides_performAll id (hs.points hp hreceive)) fun _ _ _ => bides_pure _

/-- Rejecting a frame. -/
theorem bides_reject (c : ConnectionId) (f : WireFrame) (why : Rejection) :
    (reject inlet c f why).Bides cyclic s := by
  have htell (u : Server) : (tellRejected inlet c f why).Bides cyclic u := by
    intro hu
    refine bides_get_bind ?_ hu
    cases ha : u.callbacks.unexpected with
    | none => exact bides_pure _
    | some actions =>
      exact bides_set_bind (.note u rfl) (bides_performAll none (hu.unexpected ha))
  unfold reject
  cases why.answerCause with
  | none => exact htell s
  | some cause => exact bides_bind (bides_modify (.sendBack s c _)) fun _ u _ => htell u

/-! ## Interrogations -/

/-- What is delivered is the frame. -/
theorem frame?_toward (f : Frame) (receiver : Option ConnectionId) :
    (f.toward receiver).frame? = some f := by
  unfold Frame.toward
  split
  · split <;> rfl
  · rfl

/-- Delivering a frame that is no cyclic report. -/
theorem Bides.deliver (s : Server) {f : Frame} (hf : cyclic = false → f.cause ≠ .periodic)
    (receiver : Option ConnectionId) : s.Bides cyclic (s.deliver f receiver) := by
  rw [deliver_eq]
  refine .handOver s fun hc g hg => ?_
  obtain rfl := Option.some.inj ((frame?_toward f receiver).symm.trans hg)
  exact hf hc

/-- Sending a point with another cause than that of the cyclic reports. -/
theorem Bides.transmit (s : Server) (p : Point) (receiver : Option ConnectionId)
    (hc : cause ≠ .periodic) : s.Bides cyclic (s.transmit p cause receiver).1 := by
  have hframe : (s.frameOf p cause).cause = cause := by
    rw [frameOf, Frame.tryAdd_of_empty rfl]
    rfl
  rw [Server.transmit]
  split
  · show s.Bides cyclic (s.send _ receiver).1
    rw [send]
    split
    · exact .deliver s (fun _ => hframe.symm ▸ hc) receiver
    · exact .refl s
  · exact .refl s

/-- A point that is sent with a cause of another kind is no cyclic report. -/
theorem Bides.transmitPoint (s : Server) (id : PointId) (receiver : Option ConnectionId)
    (hc : cause ≠ .periodic) : s.Bides cyclic (s.transmitPoint id cause receiver).1 := by
  rw [Server.transmitPoint]
  split
  · exact .refl s
  · exact .transmit s _ receiver hc

/-- Preparing a point bides; only a cyclic interrogation moves its mark. -/
theorem bides_prepare (hc : cyclic = false → cause ≠ .periodic) (id : PointId) :
    (prepare inlet cause id).Bides cyclic s := by
  rw [prepare]
  split
  · rename_i hcause
    refine bides_bind (bides_call _ id) fun _ u _ => bides_modify ?_
    exact .modifyPoint u id (fun _ => rfl) (fun _ => rfl) fun hfalse => absurd hcause (hc hfalse)
  · exact bides_call _ id

/-- Collecting a point for a batch bides. -/
theorem Bides.collect (s : Server) (groups : Table TypeId Batch) (p : Point) (h : Handle) :
    s.Bides cyclic (s.collect cause groups p h).1 := by
  rw [Server.collect]
  split
  · exact .refl s
  · exact .report s _

/-- Preparing the points of a station and collecting them bides. -/
theorem bides_scan (hc : cyclic = false → cause ≠ .periodic) (handles : List Handle)
    (groups : Table TypeId Batch) : (scan inlet cause handles groups).Bides cyclic s := by
  induction handles generalizing groups s with
  | nil => exact bides_pure _
  | cons h rest ih =>
    rw [scan]
    refine bides_get_bind ?_
    dsimp only
    split
    · exact ih groups
    · rename_i id p _
      refine bides_bind (bides_prepare hc id) fun _ u _ => bides_get_bind ?_
      exact bides_set_bind (.collect u groups p h) (ih _)

/-- A point goes into a batch for the cause. -/
theorem cause_of_collect {groups : Table TypeId Batch} {p : Point} {h : Handle}
    (hgroups : ∀ {type b}, groups.find? type = some b → b.cause = cause) {type : TypeId} {b : Batch}
    (hb : (s.collect cause groups p h).2.find? type = some b) : b.cause = cause := by
  -- the batch that the point goes into was opened for the cause, or is opened now
  have hold : ((groups.find? p.type).getD { cause }).cause = cause := by
    cases hfind : groups.find? p.type with
    | none => rfl
    | some old => exact hgroups hfind
  have hput {new : Batch} (hnew : new.cause = cause)
      (hb : (groups.insert p.type new).find? type = some b) : b.cause = cause := by
    rw [Table.find?_insert] at hb
    split at hb
    · exact Option.some.inj hb ▸ hnew
    · exact hgroups hb
  rw [Server.collect] at hb
  cases hadd : ((groups.find? p.type).getD { cause }).add s.plant.points h with
  | ok new =>
    rw [hadd] at hb
    obtain ⟨_, -, -, rfl⟩ := (Batch.add_eq_ok_iff ..).mp hadd
    refine hput ?_ hb
    exact hold
  | error e =>
    rw [hadd] at hb
    exact hput hold hb

/-- The batches that a scan fills are for its cause. -/
theorem cause_of_scan {handles : List Handle} {groups groups' : Table TypeId Batch} {s' : Server}
    (hok : scan inlet cause handles groups s = .ok groups' s')
    (hgroups : ∀ {type b}, groups.find? type = some b → b.cause = cause) {type : TypeId} {b : Batch}
    (hb : groups'.find? type = some b) : b.cause = cause := by
  induction handles generalizing groups s with
  | nil =>
    cases hok
    exact hgroups hb
  | cons h rest ih =>
    rw [scan_cons] at hok
    cases hx : s.plant.look? cause s.now h with
    | none =>
      rw [hx] at hok
      exact ih hok hgroups
    | some x =>
      rw [hx] at hok
      obtain ⟨_, u, -, hok⟩ := bind_eq_ok hok
      have hrest : scan inlet cause rest (u.collect cause groups x.point h).2
        (u.collect cause groups x.point h).1 = .ok groups' s' := hok
      exact ih hrest (cause_of_collect hgroups)

/-- Sending a batch with another cause than that of the cyclic reports. -/
theorem Bides.sendBatch (s : Server) {b : Batch} (hb : cyclic = false → b.cause ≠ .periodic)
    (receiver : Option ConnectionId) : s.Bides cyclic (s.sendBatch b receiver).1 := by
  have hbuild (originator : Originator) : s.Bides cyclic (s.buildBatch b originator).1 := by
    rw [buildBatch]
    cases b.type? with
    | none => exact .refl s
    | some type =>
      exact List.foldlRecOn (motive := s.Bides cyclic) _ _ (.refl s) fun u hu _ _ =>
        hu.trans (.report u _)
  have hframes (originator : Originator) :
      ∀ f ∈ (s.buildBatch b originator).2, cyclic = false → f.cause ≠ .periodic := by
    show ∀ f ∈ (b.frames s.plant.points s.now originator).1, _
    cases hkind : b.kind with
    | none =>
      rw [Batch.frames, hkind]
      intro f hf
      cases hf
    | some kind =>
      -- each frame of a batch has the cause of the batch
      intro f hf hc
      have hcause := ((Batch.frames_spec hkind s.plant.points s.now originator).2.2 f hf).2.2.2.2.1
      exact hcause ▸ hb hc
  rw [Server.sendBatch]
  split
  · exact List.foldlRecOn (motive := s.Bides cyclic) _ _ (hbuild _) fun u hu f hf =>
      hu.trans (.deliver u (hframes _ f hf) receiver)
  · exact .refl s

/-- Batches with causes of another kind hold no cyclic reports. -/
theorem Bides.sendBatches (s : Server) {bs : List Batch}
    (hbs : ∀ b ∈ bs, cyclic = false → b.cause ≠ .periodic) (receiver : Option ConnectionId) :
    s.Bides cyclic (s.sendBatches receiver bs).1 := by
  induction bs generalizing s with
  | nil => exact .refl s
  | cons b rest ih =>
    exact (Bides.sendBatch s (hbs b List.mem_cons_self) receiver).trans
      (ih _ fun c hc => hbs c (List.mem_cons_of_mem b hc))

/-- The interrogation of a station bides. -/
theorem bides_interrogateStation (hc : cyclic = false → cause ≠ .periodic) (id : StationId) :
    (interrogateStation inlet cause receiver id).Bides cyclic s := by
  rw [interrogateStation]
  refine bides_get_bind (bides_bind (bides_scan hc _ _) fun groups u hok => ?_)
  have hgroups : ∀ b ∈ groups.values, cyclic = false → b.cause ≠ .periodic := by
    intro b hb hfalse
    obtain ⟨⟨type, _⟩, he, rfl⟩ := List.mem_map.mp hb
    rw [cause_of_scan hok (fun hnone => by cases hnone) ((Table.mem_iff_find? ..).mp he)]
    exact hc hfalse
  exact bides_get_bind (bides_set_bind (.sendBatches u hgroups receiver) (bides_pure _))

/-- So does the interrogation of several stations. -/
theorem bides_interrogateStations (hc : cyclic = false → cause ≠ .periodic)
    (ids : List StationId) : (interrogateStations inlet cause receiver ids).Bides cyclic s := by
  induction ids generalizing s with
  | nil => exact bides_pure _
  | cons id rest ih =>
    exact bides_bind (bides_interrogateStation hc id) fun _ _ _ =>
      bides_bind ih fun _ _ _ => bides_pure _

/-- An interrogation bides the time; if it asks for cyclic reports, it may mark and
send them. -/
theorem bides_interrogate (hc : cyclic = false → cause ≠ .periodic) (station : CommonAddress) :
    (interrogate inlet cause station receiver).Bides cyclic s := by
  rw [interrogate]
  refine bides_get_bind ?_
  split
  · exact bides_interrogateStations hc _
  · exact bides_pure _

/-! ## Frames -/

variable {c : ConnectionId} {f : WireFrame} {m : Message}

/-- So does the answer to an interrogation. -/
theorem bides_answerInterrogation (hc : cause ≠ .periodic) :
    (answerInterrogation inlet c m cause).Bides cyclic s :=
  bides_bind (bides_modify (.reply s c _)) fun _ _ _ =>
    bides_bind (bides_bind (bides_interrogate (fun _ => hc) m.station) fun _ _ _ => bides_pure _)
      fun _ u _ => bides_modify (.reply u c _)

/-- The refusal of a group bides. -/
theorem bides_refuseGroup : (refuseGroup inlet c m).Bides cyclic s :=
  bides_bind (bides_modify (.reply s c _)) fun _ _ _ => bides_reject c m.frame _

/-- A general interrogation bides. -/
theorem bides_onInterrogation : (onInterrogation inlet c m).Bides cyclic s := by
  rw [onInterrogation]
  split
  · exact bides_modify (.reply s c _)
  · split
    · exact bides_refuseGroup
    · exact bides_answerInterrogation (by decide)

/-- A counter interrogation bides. -/
theorem bides_onCounterInterrogation : (onCounterInterrogation inlet c m).Bides cyclic s := by
  rw [onCounterInterrogation]
  split
  · exact bides_refuseGroup
  · exact bides_answerInterrogation (by decide)

/-- A read command bides. -/
theorem bides_onRead : (onRead inlet c m).Bides cyclic s := by
  refine bides_get_bind ?_
  cases s.target m with
  | error why => exact bides_reject c m.frame why
  | ok found =>
    obtain ⟨station, id, p⟩ := found
    dsimp only
    split
    · refine bides_bind (bides_call .beforeRead id) fun _ u _ => bides_modify ?_
      have ht : u.Bides cyclic (u.transmitPoint id .request (some c)).1 :=
        .transmitPoint u id (some c) nofun
      split
      · rename_i v e hv
        rw [hv] at ht
        exact ht.trans (.report v _)
      · rename_i v _ _ hv
        rw [hv] at ht
        exact ht
    · exact bides_reject c m.frame _

/-- A clock command bides. -/
theorem bides_onClock : (onClock c m).Bides cyclic s := by
  have hset : s.Bides cyclic (s.setClock c m).1 := by
    rw [setClock]
    split
    · exact .refl s
    · split
      · exact .refl s
      · exact .note s rfl
  exact bides_modify (hset.trans (.confirmAs _ c m _))

/-- Releasing a selection. -/
theorem Bides.deactivate (s : Server) (held : Selection) :
    s.Bides cyclic (s.deactivate held).1 := by
  rw [Server.deactivate]
  split
  · refine Bides.trans ?_ (.selections _ _)
    cases s.selections.find? held.station held.address with
    | none => exact .refl s
    | some ended => exact .note s rfl
  · exact .refl s

/-- A selection that is asked for bides. -/
theorem Bides.select (s : Server) (p : Point) (wanted : Selection) :
    s.Bides cyclic (s.select p wanted).1 := by
  rw [Server.select]
  split
  · exact .report s _
  · exact .refl s
  · exact (Bides.selections s _).trans (.note _ rfl)

/-- The decision on a command bides, the receive callback of its point included. -/
theorem bides_arbitrate (id : PointId) (p : Point) :
    (arbitrate inlet c m id p).Bides cyclic s := by
  refine bides_get_bind ?_
  dsimp only
  split
  · exact bides_set_bind (.deactivate s _) (bides_pure _)
  · split
    · exact bides_pure _
    · exact bides_applyCommand c m id
    · exact bides_set_bind (.select s p _) (bides_pure _)
    · split
      · exact bides_applyCommand c m id
      · exact bides_pure _

/-- The conclusion of an execute bides. -/
theorem Bides.concludeExecute (s : Server) (c : ConnectionId) (m : Message) :
    s.Bides cyclic (s.concludeExecute c m) := by
  have hback : s.Bides cyclic (s.terminate c m) := .reply s c m.termination
  rw [Server.concludeExecute]
  cases (s.terminate c m).selections.find? m.station m.address with
  | none => exact hback
  | some held => exact hback.trans (.defer _ _ rfl)

/-- What follows the verdict on a command bides. -/
theorem Bides.settleCommand (s : Server) (c : ConnectionId) (m : Message) (station : StationId)
    (p : Point) (answer : Answer) : s.Bides cyclic (s.settleCommand c m station p answer) := by
  have hreturn (u : Server) (related : Option Handle) :
      u.Bides cyclic (related.elim u fun h => u.defer 0 (.autoReturn h)) := by
    cases related with
    | none => exact .refl u
    | some h => exact .defer u 0 rfl
  rw [Server.settleCommand]
  refine Bides.trans ?_ (hreturn _ _)
  split
  · exact (Bides.confirmAs s c m answer).trans (.concludeExecute _ c m)
  · exact .confirmAs s c m answer

/-- A command bides. -/
theorem bides_onCommand : (onCommand inlet c m).Bides cyclic s := by
  refine bides_get_bind ?_
  dsimp only
  split
  · exact bides_bind (bides_modify (.confirmAs s c m _)) fun _ _ _ => bides_reject c m.frame _
  · exact bides_bind (bides_arbitrate _ _) fun _ u _ => bides_modify (.settleCommand u c m _ _ _)

/-- Handling a message bides, whatever its kind is. -/
theorem bides_dispatch : (dispatch inlet c m).Bides cyclic s := by
  unfold dispatch
  split
  · exact bides_onInterrogation
  · exact bides_onCounterInterrogation
  · exact bides_onRead
  · exact bides_onClock
  · exact bides_onCommand

/-- The handling of a frame bides the time, whatever is done with the frames that
callbacks hand in: modest callbacks hand in none. -/
theorem bides_receive (c : ConnectionId) (f : WireFrame) :
    (receive inlet c f).Bides cyclic s := by
  refine bides_get_bind ?_
  split
  · cases Message.ofFrame f with
    | error why => exact bides_reject c f why
    | ok m =>
      dsimp only
      cases s.refusal? m with
      | some why =>
        dsimp only
        split
        · exact bides_bind (bides_modify (.reply s c _)) fun _ _ _ => bides_reject c f why
        · exact bides_reject c f why
      | none => exact bides_dispatch
  · exact bides_pure _

/-! ## Jobs -/

/-- Calling the timer callback of a point. -/
theorem bides_fireTimer (h : Handle) : (fireTimer inlet h).Bides cyclic s := by
  refine bides_get_bind ?_
  split
  · exact bides_pure _
  · exact bides_call .timer _

/-- Showing octets to their callback bides. -/
theorem bides_showOctets (sent : Bool) (c : ConnectionId) (data : List UInt8) :
    (showOctets inlet sent c data).Bides cyclic s := by
  intro hs
  refine bides_get_bind ?_ hs
  cases ha : s.callbacks.octets sent with
  | none => exact bides_pure _
  | some actions => exact bides_set_bind (.note s rfl) (bides_performAll none (hs.octets ha))

/-- The release of an executed selection bides. -/
theorem Bides.releaseExecuted (s : Server) (station : CommonAddress) (address : ObjectAddress)
    (created : Int) : s.Bides cyclic (s.releaseExecuted station address created) := by
  rw [Server.releaseExecuted]
  refine Bides.trans ?_ (.selections _ _)
  cases s.selections.createdAt? station address created with
  | none => exact .refl s
  | some held => exact .note s rfl

/-- An unselect bides. -/
theorem Bides.sendUnselect (s : Server) (g : Selection) :
    s.Bides cyclic (s.sendUnselect g) := by
  obtain ⟨f, hf, hsend⟩ := s.sendUnselect_eq g
  rw [hsend]
  refine .handOver s fun _ g' hg' => ?_
  obtain rfl := Option.some.inj hg'
  rw [hf.cause]
  nofun

/-- A point that returns is no cyclic report. -/
theorem Bides.returnPoint (s : Server) (h : Handle) : s.Bides cyclic (s.returnPoint h) := by
  rw [Server.returnPoint]
  split
  · exact .refl s
  · rename_i p _
    have ht : s.Bides cyclic (s.transmit p .returnInfoRemote none).1 :=
      .transmit s p none (by decide)
    split
    · rename_i u hu
      rw [hu] at ht
      exact ht
    · rename_i u e hu
      rw [hu] at ht
      exact ht.trans (.report u _)

/-- A job that is no duty bides the time. -/
theorem bides_doJob {job : Job} (hjob : ∀ d, job ≠ .duty d) :
    (doJob inlet job).Bides cyclic s := by
  cases job with
  | duty d => exact absurd rfl (hjob d)
  | release station address created => exact bides_modify (.releaseExecuted s ..)
  | autoReturn h => exact bides_modify (.returnPoint s h)
  | unselect g => exact bides_modify (.sendUnselect s g)
  | pointTimer h => exact bides_fireTimer h
  | octets sent c data => exact bides_showOctets sent c data

end Server

end Telecontrol
