import Telecontrol.Proofs.Emission
import Telecontrol.Proofs.Gathering

/-! # What an interrogation of a station does

When callbacks stay with the points, an interrogation of a station panics nowhere and changes
nothing but the plant, the transport and the journal. Its **trace** is what others notice of it, in
order: first the callbacks of the points that are found, then the frames of the batches. The frames
say what the live points are by then, in the order of types and addresses.

Main statements: `Server.comesTo_scan` (looking at the points is a survey and gathers what is
found), `Server.carries_sendBatch` and `Server.comesTo_interrogateStation`. -/

namespace Telecontrol

/-! ## Traces -/

/-- Whether an event is a callback called or a frame handed over. -/
def Event.isNoticed : Event → Bool
  | .sent _ | .called .. => true
  | _ => false

/-- The callbacks called and the frames handed over among the entries of a journal, the earliest
first. -/
def trace (entries : List Entry) : List Event :=
  (entries.reverse.map (·.event)).filter (·.isNoticed)

/-- The trace of two parts of a journal is that of the older one and then that of the newer one. -/
theorem trace_append (newer older : List Entry) :
    trace (newer ++ older) = trace older ++ trace newer := by
  simp [trace]

/-- The call of a callback of a point, if the point has it. -/
def Point.calls (p : Point) (kind : PointCallback) : List Event :=
  (p.callbacks.get? kind).toList.map fun _ => .called kind p.station p.address

/-- How a frame is handed over to a receiver: directly, or into the queue if its cause is of low
priority or there is no receiver in particular. -/
def Frame.toward (f : Frame) (receiver : Option ConnectionId) : Sent :=
  match receiver with
  | some c => if f.cause.isLowPriority then .queued f else .direct c f
  | none => .queued f

namespace Server

/-- One server **carries on** as another with a plant and a trace: nothing but the plant, the
transport and the journal changes, and the originators stay. -/
def Carries (s : Server) (q : Plant) (w : List Event) (s' : Server) : Prop :=
  ∃ transport new, s' = { s with plant := q, transport, journal := new ++ s.journal } ∧
    (∀ c, transport.originator? c = s.transport.originator? c) ∧ trace new = w

/-- The originator address of the frames that a receiver is sent. -/
def originatorOf (s : Server) (receiver : Option ConnectionId) : Originator :=
  (receiver.bind s.transport.originator?).getD 0

namespace Carries

variable {s s' s'' : Server} {q r : Plant} {w v : List Event}

/-- Doing nothing carries on with the same plant and no trace. -/
theorem refl (s : Server) : s.Carries s.plant [] s := ⟨_, [], rfl, fun _ => rfl, rfl⟩

/-- One after the other, traces follow each other. -/
theorem trans (h : s.Carries q w s') (h' : s'.Carries r v s'') : s.Carries r (w ++ v) s'' := by
  obtain ⟨transport, new, rfl, horig, rfl⟩ := h
  obtain ⟨transport', newer, rfl, horig', rfl⟩ := h'
  refine ⟨transport', newer ++ new, ?_, fun c => (horig' c).trans (horig c), trace_append ..⟩
  rw [List.append_assoc]

/-- What nobody notices may come afterwards. -/
theorem quietly (h : s.Carries q w s') (h' : s'.Carries s'.plant [] s'') : s.Carries q w s'' := by
  obtain ⟨_, _, rfl, -, -⟩ := id h
  have hboth := h.trans h'
  rwa [List.append_nil] at hboth

/-- The plant is the one that it is said to be. -/
theorem plant (h : s.Carries q w s') : s'.plant = q := by
  obtain ⟨_, _, rfl, -, -⟩ := h
  rfl

/-- No time passes. -/
theorem now (h : s.Carries q w s') : s'.now = s.now := by
  obtain ⟨_, _, rfl, -, -⟩ := h
  rfl

/-- Whether a server can send does not change. -/
theorem canSend (h : s.Carries q w s') : s'.canSend = s.canSend := by
  obtain ⟨_, _, rfl, -, -⟩ := h
  rfl

/-- The originators of the frames stay what they were. -/
theorem originatorOf (h : s.Carries q w s') (receiver : Option ConnectionId) :
    s'.originatorOf receiver = s.originatorOf receiver := by
  obtain ⟨_, _, rfl, horig, -⟩ := h
  cases receiver with
  | none => rfl
  | some c => exact congrArg (·.getD 0) (horig c)

end Carries

end Server

/-! ## Acts -/

namespace Act

variable {α β : Type} {s s' : Server} {q r : Plant} {w v : List Event}

/-- An act **comes to** an answer, a plant and a trace: it is completed with them. -/
def ComesTo (act : Act α) (s : Server) (a : α) (q : Plant) (w : List Event) : Prop :=
  ∃ s', act s = .ok a s' ∧ s.Carries q w s'

/-- A value comes to itself. -/
theorem comesTo_pure (a : α) : (pure a : Act α).ComesTo s a s.plant [] := ⟨s, rfl, .refl s⟩

/-- A change comes to what it carries on with. -/
theorem comesTo_modify {f : Server → Server} (h : s.Carries q w (f s)) :
    (modify f : Act Unit).ComesTo s ⟨⟩ q w := ⟨_, rfl, h⟩

/-- Reading the server changes nothing. -/
theorem comesTo_get_bind {f : Server → Act β} {b : β} (h : (f s).ComesTo s b q w) :
    (get >>= f : Act β).ComesTo s b q w := h

/-- One act after the other. -/
theorem comesTo_bind {x : Act α} {f : α → Act β} {a : α} {b : β} (hx : x.ComesTo s a q w)
    (hf : ∀ s', x s = .ok a s' → s.Carries q w s' → (f a).ComesTo s' b r v) :
    (x >>= f).ComesTo s b r (w ++ v) := by
  obtain ⟨s', hok, h⟩ := hx
  obtain ⟨s'', hok', h'⟩ := hf s' hok h
  exact ⟨s'', (bind_ok hok).trans hok', h.trans h'⟩

end Act

/-! ## Callbacks that stay with the points -/

namespace Server

open Act

variable {s : Server} {inlet : Inlet} {cause : Cause} {i : PointId} {p : Point}

/-- A note that nobody notices leaves no trace. -/
theorem carries_note {e : Event} (h : e.isNoticed = false) : s.Carries s.plant [] (s.note e) :=
  ⟨_, [⟨s.now, e⟩], rfl, fun _ => rfl, by simp [trace, h]⟩

/-- The note of a call is its trace. -/
theorem carries_called (kind : PointCallback) (station : CommonAddress) (address : ObjectAddress) :
    s.Carries s.plant [.called kind station address] (s.note (.called kind station address)) :=
  ⟨_, [⟨s.now, _⟩], rfl, fun _ => rfl, rfl⟩

/-- A change of the plant is not noticed. -/
theorem carries_plant (s : Server) (q : Plant) : s.Carries q [] { s with plant := q } :=
  ⟨_, [], rfl, fun _ => rfl, rfl⟩

/-- An action that stays with the points changes the plant. -/
theorem comesTo_perform (i : PointId) {a : Action} (ha : a.IsLocal) :
    (perform inlet (some i) a).ComesTo s ⟨⟩ (s.plant.act s.now i a) [] := by
  cases a with
  | setValue | setQuality | setReportInterval => exact comesTo_modify (s.carries_plant _)
  | removePoint station address =>
    refine comesTo_modify ?_
    have hremove : (s.removePointAt station address).1 =
        { s with plant := s.plant.act s.now i (.removePoint station address) } := by
      rw [removePointAt, Plant.act]
      cases s.plant.find? station <;> rfl
    have hcarries := s.carries_plant (s.plant.act s.now i (.removePoint station address))
    rw [← hremove] at hcarries
    exact hcarries.quietly (carries_note rfl)
  | _ => cases ha

/-- Local actions come to what they do to the plant, and leave no trace. -/
theorem comesTo_performAll (i : PointId) {actions : List Action} (h : ∀ a ∈ actions, a.IsLocal) :
    (performAll inlet (some i) actions).ComesTo s ⟨⟩ (s.plant.actAll s.now i actions) [] := by
  induction actions generalizing s with
  | nil => exact comesTo_pure _
  | cons a rest ih =>
    refine comesTo_bind (comesTo_perform i (h a List.mem_cons_self)) fun s' _ hs => ?_
    obtain ⟨_, _, rfl, -, -⟩ := hs
    exact ih fun b hb => h b (List.mem_cons_of_mem a hb)

/-- Calling a callback of a point that stays with the points. -/
theorem comesTo_call {kind : PointCallback} (hl : s.plant.HooksLocal kind)
    (hp : s.point? i = some p) :
    (call inlet kind i).ComesTo s ⟨⟩ (s.plant.afterCall s.now kind i) (p.calls kind) := by
  have hpoint : s.plant.points.point? i = some p := hp
  refine comesTo_get_bind ?_
  rw [hp, Point.calls, Plant.afterCall, hpoint, Option.bind_some]
  cases hc : p.callbacks.get? kind with
  | none =>
    simp only [hc]
    exact comesTo_pure _
  | some callback =>
    simp only [hc]
    have hcalled : (modify (·.note (.called kind p.station p.address)) : Act Unit).ComesTo s ⟨⟩
        s.plant [.called kind p.station p.address] := comesTo_modify (carries_called ..)
    refine comesTo_bind hcalled fun s' _ hs => ?_
    obtain ⟨_, _, rfl, -, -⟩ := hs
    exact comesTo_performAll i (hl hpoint hc)

/-- Preparing a point for an interrogation. -/
theorem comesTo_prepare (hl : s.plant.HooksLocal cause.hook) (hp : s.point? i = some p) :
    (prepare inlet cause i).ComesTo s ⟨⟩ (s.plant.prepared cause s.now i)
      (p.calls cause.hook) := by
  have hcall : (call inlet cause.hook i).ComesTo s ⟨⟩ (s.plant.afterCall s.now cause.hook i)
      (p.calls cause.hook) := comesTo_call hl hp
  rw [prepare, Plant.prepared]
  by_cases hc : cause = .periodic
  · rw [if_pos hc, if_pos hc, ← List.append_nil (p.calls _)]
    obtain rfl := hc
    refine comesTo_bind hcall fun s' _ hs => comesTo_modify ?_
    obtain ⟨_, _, rfl, -, -⟩ := hs
    exact carries_plant _ _
  · have hhook : cause.hook = .beforeRead := if_neg hc
    rw [if_neg hc, if_neg hc, ← hhook]
    exact hcall

/-- Collecting a point leaves no trace. -/
theorem carries_collect (groups : Table TypeId Batch) (h : Handle) :
    s.Carries s.plant [] (s.collect cause groups p h).1 := by
  rw [collect]
  split
  · exact .refl s
  · exact carries_note rfl

/-! ## Looking at the points of a station -/

/-- Looking at a point prepares and collects it if an interrogation finds it. -/
theorem scan_cons (h : Handle) (rest : List Handle) (groups : Table TypeId Batch) (s : Server) :
    scan inlet cause (h :: rest) groups s =
      (match s.plant.look? cause s.now h with
      | none => scan inlet cause rest groups
      | some x => do
        prepare inlet cause x.id
        let (s, groups) := (← get).collect cause groups x.point h
        set s
        scan inlet cause rest groups) s := by
  rw [scan, get_bind, Plant.look?]
  cases hr : s.plant.points.resolve? h with
  | none => rfl
  | some id =>
    simp only [Option.bind_eq_bind, Option.bind_some, point?]
    cases hp : s.plant.points.point? id with
    | none => rfl
    | some p =>
      simp only [Option.bind_some]
      by_cases hasked : p.isAskedFor cause s.now = true
      · rw [if_pos hasked, if_pos hasked]
      · rw [if_neg hasked, if_neg hasked]

/-- After a point was prepared and collected, the points that follow it are looked at. -/
theorem scan_of_found {h : Handle} {rest : List Handle} {groups groups' : Table TypeId Batch}
    {x : Find} {s₁ s₂ : Server} (hx : s.plant.look? cause s.now h = some x)
    (hok : prepare inlet cause x.id s = .ok ⟨⟩ s₁)
    (hcollect : s₁.collect cause groups x.point h = (s₂, groups')) :
    scan inlet cause (h :: rest) groups s = scan inlet cause rest groups' s₂ := by
  rw [scan_cons, hx]
  refine (bind_ok hok).trans ?_
  show (match s₁.collect cause groups x.point h with
    | (s, groups) => (do
      set s
      scan inlet cause rest groups)) s₁ = _
  rw [hcollect]
  rfl

/-- Looking at points is a survey: the callbacks of the points that are found are called, and what
is found is gathered. -/
theorem comesTo_scan (inlet : Inlet) {station : CommonAddress} {xs : List Find}
    {groups : Table TypeId Batch} {hs : List Handle} (hl : s.plant.HooksLocal cause.hook)
    (hg : Gathers cause station xs s.plant.points groups)
    (hfinds : ∀ x ∈ (s.plant.survey cause s.now hs).1, x.point.station = station ∧
      x.point.type.isMonitoring = true)
    (hnew : (xs ++ (s.plant.survey cause s.now hs).1).Pairwise fun x y =>
      x.point.address ≠ y.point.address) :
    ∃ groups', (scan inlet cause hs groups).ComesTo s groups' (s.plant.survey cause s.now hs).2
        ((s.plant.survey cause s.now hs).1.flatMap (·.point.calls cause.hook)) ∧
      Gathers cause station (xs ++ (s.plant.survey cause s.now hs).1)
        (s.plant.survey cause s.now hs).2.points groups' := by
  induction hs generalizing s xs groups with
  | nil => exact ⟨groups, comesTo_pure _, (List.append_nil xs).symm ▸ hg⟩
  | cons h rest ih =>
    cases hx : s.plant.look? cause s.now h with
    -- what is not found is passed over
    | none =>
      rw [Plant.survey_cons_none rest hx] at hfinds hnew ⊢
      obtain ⟨groups', ⟨s', hok, hs'⟩, hgather⟩ := ih hl hg hfinds hnew
      exact ⟨groups', ⟨s', by rw [scan_cons, hx]; exact hok, hs'⟩, hgather⟩
    -- what is found is prepared, which may change the plant, and collected; the rest follows from
    -- there
    | some x =>
      obtain ⟨rfl, hxid, hxpt, -⟩ := Plant.look?_eq_some_iff.mp hx
      have htends := Plant.tends_prepared hl s.now x.id
      have hprepare : (prepare inlet cause x.id).ComesTo s ⟨⟩ (s.plant.prepared cause s.now x.id)
          (x.point.calls cause.hook) := comesTo_prepare hl hxpt
      obtain ⟨s₁, hok₁, hs₁⟩ := hprepare
      rw [Plant.survey_cons_some rest hx] at hfinds hnew ⊢
      dsimp only at hfinds hnew ⊢
      rw [List.append_cons] at hnew ⊢
      have hbefore : ∀ y ∈ xs, y.point.address ≠ x.point.address := fun y hy =>
        (List.pairwise_append.mp (List.pairwise_append.mp hnew).1).2.2 y hy x (by simp)
      obtain ⟨hst, hmon⟩ := hfinds x List.mem_cons_self
      have hg₁ : Gathers cause station (xs ++ [x]) s₁.plant.points
          (s₁.collect cause groups x.point x.handle).2 :=
        hg.collect_of_tends (hs₁.plant ▸ htends) hbefore hst hmon hxid hxpt
      have hcollect : s₁.Carries s₁.plant [] (s₁.collect cause groups x.point x.handle).1 :=
        carries_collect groups x.handle
      cases hc : s₁.collect cause groups x.point x.handle with
      | mk s₂ groups₂ =>
        rw [hc] at hg₁ hcollect
        have hs₂ := hs₁.quietly hcollect
        rw [← hs₂.plant, ← hs₂.now] at hfinds hnew ⊢
        rw [← hcollect.plant] at hg₁
        obtain ⟨groups', ⟨s', hok', hs'⟩, hgather⟩ := ih (hs₂.plant ▸ htends.hooksLocal hl) hg₁
          (fun y hy => hfinds y (List.mem_cons_of_mem x hy)) hnew
        exact ⟨groups', ⟨s', (scan_of_found hx hok₁ hc).trans hok', hs₂.trans hs'⟩, hgather⟩

/-! ## Sending the batches -/

/-- The trace of handing over a frame is that frame. -/
theorem carries_handOver (f : Sent) : s.Carries s.plant [.sent f] (s.handOver f) := by
  refine ⟨_, [⟨s.now, .sent f⟩], rfl, fun c => ?_, rfl⟩
  cases s.transport with
  | recording record => rfl
  | counting sent queued =>
    rw [Transport.accept]
    split <;> rfl

/-- To deliver a frame is to hand it over toward its receiver. -/
theorem deliver_eq (s : Server) (f : Frame) (receiver : Option ConnectionId) :
    s.deliver f receiver = s.handOver (f.toward receiver) := by
  cases receiver <;> rfl

/-- The trace of delivering frames is those frames in their order. -/
theorem carries_deliverAll (fs : List Frame) (receiver : Option ConnectionId) :
    s.Carries s.plant (fs.map fun f => .sent (f.toward receiver)) (s.deliverAll fs receiver) := by
  induction fs generalizing s with
  | nil => exact .refl s
  | cons f rest ih =>
    rw [deliverAll, List.foldl_cons, deliver_eq]
    exact (carries_handOver _).trans ih

variable {station : CommonAddress} {type : TypeId} {b : Batch}

/-- Sending a batch hands over frames that say what its live points are. -/
theorem carries_sendBatch (hsend : s.canSend = true) (hb : b.IsFor cause station type)
    (hpoints : ∀ pt ∈ b.points s.plant.points, pt.type = type ∧ pt.station = station)
    (receiver : Option ConnectionId) :
    ∃ fs : List Frame, (s.sendBatch b receiver).2 = fs.length ∧
      s.Carries s.plant (fs.map fun f => .sent (f.toward receiver)) (s.sendBatch b receiver).1 ∧
      fs.flatMap (·.items) = b.items s.plant.points s.now ∧
      ∀ f ∈ fs, f.Reports cause station (s.originatorOf receiver) := by
  obtain ⟨hlost, hitems, hreports⟩ := hb.frames hpoints s.now (s.originatorOf receiver)
  -- without live points there is nothing to send
  cases hhas : b.hasPoints s.plant.points with
  | false =>
    have hsame : s.sendBatch b receiver = (s, 0) := by rw [sendBatch, hhas, Bool.and_false]; rfl
    rw [hsame]
    refine ⟨[], rfl, .refl s, ?_, fun _ hf => absurd hf List.not_mem_nil⟩
    rw [Batch.items, Batch.points_eq_nil hhas]
    rfl
  | true =>
    cases hframes : b.frames s.plant.points s.now (s.originatorOf receiver) with
    | mk frames lost =>
      rw [hframes] at hlost hitems hreports
      obtain rfl : lost = [] := hlost
      -- no frame is lost, so nothing is noted while the frames are built
      have hbuild : s.buildBatch b (s.originatorOf receiver) = (s, frames) := by
        rw [buildBatch, hframes]
        cases b.type? <;> rfl
      have hall : s.sendBatch b receiver = (s.deliverAll frames receiver, frames.length) := by
        rw [sendBatch, hhas, hsend, Bool.and_true, if_pos rfl]
        dsimp only
        rw [← originatorOf, hbuild]
      rw [hall]
      exact ⟨frames, rfl, carries_deliverAll frames receiver, hitems, hreports⟩

/-- Sending several batches hands over the frames of one after the other. -/
theorem carries_sendBatches (hsend : s.canSend = true) {bs : List Batch}
    (hbs : ∀ b ∈ bs, ∃ type, b.IsFor cause station type ∧
      ∀ pt ∈ b.points s.plant.points, pt.type = type ∧ pt.station = station)
    (receiver : Option ConnectionId) :
    ∃ fs : List Frame, (s.sendBatches receiver bs).2 = fs.length ∧
      s.Carries s.plant (fs.map fun f => .sent (f.toward receiver)) (s.sendBatches receiver bs).1 ∧
      fs.flatMap (·.items) = bs.flatMap (·.items s.plant.points s.now) ∧
      ∀ f ∈ fs, f.Reports cause station (s.originatorOf receiver) := by
  induction bs generalizing s with
  | nil => exact ⟨[], rfl, .refl s, rfl, fun _ hf => absurd hf List.not_mem_nil⟩
  | cons b rest ih =>
    obtain ⟨type, hb, hpoints⟩ := hbs b List.mem_cons_self
    obtain ⟨fs, hcount, hs, hitems, hreports⟩ := carries_sendBatch hsend hb hpoints receiver
    rw [sendBatches]
    cases hfirst : s.sendBatch b receiver with
    | mk s₁ n =>
      -- the first batch leaves plant and clock as they are, so the others say what they would have
      -- said
      rw [hfirst] at hcount hs
      obtain ⟨fs', hcount', hs', hitems', hreports'⟩ := ih (hs.canSend.trans hsend)
        (hs.plant.symm ▸ fun c hc => hbs c (List.mem_cons_of_mem b hc))
      rw [hs.plant, hs.now] at hitems'
      rw [hs.originatorOf] at hreports'
      refine ⟨fs ++ fs', ?_, ?_, ?_, fun f hf => ?_⟩
      · rw [List.length_append, ← hcount, ← hcount']
      · rw [List.map_append]
        exact hs.plant ▸ hs.trans hs'
      · rw [List.flatMap_append, hitems, hitems', List.flatMap_cons]
      · exact (List.mem_append.mp hf).elim (hreports f) (hreports' f)

end Server

/-! ## Rounds -/

/-- A **round**: what an interrogation of one station comes to. -/
structure Round where
  station : CommonAddress
  /-- The points that were found eligible, in the order in which they were prepared. -/
  finds : List Find
  /-- The plant when the frames were built. -/
  plant : Plant
  /-- The frames that were handed over, in order. -/
  frames : List Frame

namespace Round

/-- What the frames of a round say. -/
def items (r : Round) : List Item := r.frames.flatMap (·.items)

/-- What others notice of a round: the callbacks of the points that are found, then the frames. -/
def trace (r : Round) (cause : Cause) (receiver : Option ConnectionId) : List Event :=
  r.finds.flatMap (·.point.calls cause.hook) ++ r.frames.map fun f => .sent (f.toward receiver)

/-- The frames of a round **tell** what was found: they say what the points are that were found and
still live when the frames were built, each once and in order, and nothing else. -/
structure Tells (r : Round) (cause : Cause) (now : Int) (originator : Originator) : Prop where
  ordered : r.items.Pairwise Item.Before
  mem_items : ∀ item, item ∈ r.items ↔ ∃ x ∈ r.finds, ∃ p,
    r.plant.points.resolve? x.handle = some x.id ∧ r.plant.points.point? x.id = some p ∧
      item = p.item now
  reports : ∀ f ∈ r.frames, f.Reports cause r.station originator

end Round

namespace Server

open Act

variable {s : Server} {cause : Cause} {station : CommonAddress}

/-- Interrogating a station that owns its points comes to a round. -/
theorem comesTo_interrogateStation (inlet : Inlet) {id : StationId}
    (hl : s.plant.HooksLocal cause.hook)
    (ho : s.plant.Owns station (s.plant.station id).points.entries) (hsend : s.canSend = true)
    (receiver : Option ConnectionId) :
    ∃ r : Round, r.station = station ∧
      s.plant.survey cause s.now (s.plant.station id).points.values = (r.finds, r.plant) ∧
      r.Tells cause s.now (s.originatorOf receiver) ∧
      (interrogateStation inlet cause receiver id).ComesTo s r.frames.length r.plant
        (r.trace cause receiver) := by
  have hes := (s.plant.station id).points.ascending
  have hfind (x : Find) (hx : x ∈ (s.plant.survey cause s.now
      (s.plant.station id).points.values).1) := Plant.Owns.mem_survey ho hl hes hx
  have htends : s.plant.Tends _ (s.plant.survey cause s.now _).2 :=
    Plant.tends_survey hl (s.plant.station id).points.values
  -- addresses ascend along a survey, so no two finds share one
  have hdistinct : (s.plant.survey cause s.now (s.plant.station id).points.values).1.Pairwise
      fun x y => x.point.address ≠ y.point.address :=
    (Plant.Owns.pairwise_survey ho hl hes).imp fun hlt heq => by
      rw [heq] at hlt
      exact Nat.lt_irrefl _ hlt
  have hscan := comesTo_scan inlet hl .empty
    (fun x hx => ⟨(hfind x hx).2.2.2.1, (hfind x hx).2.2.2.2.isMonitoring⟩) hdistinct
  cases hsurvey : s.plant.survey cause s.now (s.plant.station id).points.values with
  | mk finds q =>
    rw [hsurvey] at hfind htends hscan
    obtain ⟨groups, ⟨s₁, hok, hs₁⟩, hgather⟩ := hscan
    -- who was found stays the point it is until the frames are built
    have hstays : ∀ x ∈ finds, x.Stays q.points := fun x hx =>
      htends.stays (hfind x hx).2.1 (hfind x hx).2.2.1
    have hst : ∀ x ∈ finds, x.point.station = station := fun x hx => (hfind x hx).2.2.2.1
    have hbatch : ∀ b ∈ groups.values, ∃ type, b.IsFor cause station type ∧
        ∀ p ∈ b.points s₁.plant.points, p.type = type ∧ p.station = station := by
      -- a batch holds points of its own type only, all of them of the station
      intro b hb
      obtain ⟨⟨type, _⟩, he, rfl⟩ := List.mem_map.mp hb
      have hfound := (Table.mem_iff_find? ..).mp he
      rw [hs₁.plant]
      exact ⟨type, hgather.isFor hfound, fun p => hgather.type_station hstays hst hfound⟩
    obtain ⟨fs, hcount, hs₂, hitems, hreports⟩ :=
      carries_sendBatches (hs₁.canSend.trans hsend) hbatch receiver
    rw [hs₁.plant, hs₁.now] at hitems
    rw [hs₁.originatorOf] at hreports
    refine ⟨⟨station, finds, q, fs⟩, rfl, rfl, ⟨?_, fun item => ?_, hreports⟩, ?_⟩
    · show (fs.flatMap (·.items)).Pairwise _
      rw [hitems]
      exact hgather.pairwise_items hstays hst
    · show item ∈ fs.flatMap (·.items) ↔ _
      rw [hitems]
      exact hgather.mem_items hstays
    · refine ⟨_, ?_, hs₁.trans (hs₁.plant ▸ hs₂)⟩
      rw [interrogateStation, get_bind, bind_ok hok, ← hcount]
      rfl

end Server

end Telecontrol
