import Telecontrol.Proofs.Tenure
import Telecontrol.Proofs.Weighing

/-! # What a positive confirmation covers

A command carries its value in its first information object, and that object is the only one that is
looked at. A positive confirmation of an execute therefore says that the first object was applied:
the point at its address has received its value. The confirmation repeats the whole frame, with any
further objects, and says nothing about these.

Main statements: `Server.weigh_withObjects` (further objects do not matter) and
`Server.execute_coversFirst`; `Server.confirmed_beyond_first` shows that more is not covered. -/

namespace Telecontrol

namespace Message

/-- A message with other information objects. -/
def withObjects (m : Message) (objects : List InformationObject) : Message :=
  { m with frame := { m.frame with objects } }

/-- An execute is an activation. -/
theorem cause_of_isExecute {m : Message} (h : m.isExecute = true) : m.cause = .activation :=
  beq_iff_eq.mp (Bool.and_eq_true_iff.mp h).1

/-- An execute has no select bit. -/
theorem isSelect_of_isExecute {m : Message} (h : m.isExecute = true) : m.isSelect = false := by
  simpa using (Bool.and_eq_true_iff.mp h).2

end Message

namespace Server

variable {s u : Server} {inlet : Inlet} {c : ConnectionId} {m : Message} {answer : Answer}

/-- Only the first object of a command is looked at. -/
theorem weigh_withObjects (inlet : Inlet) (c : ConnectionId) {o : InformationObject}
    {rest : List InformationObject} (h : m.frame.objects = o :: rest)
    (others : List InformationObject) :
    weigh inlet c (m.withObjects (o :: others)) = weigh inlet c m := by
  have hfirst : m.first? = some o := by rw [Message.first?, h]; rfl
  obtain ⟨⟨typeCode, causeCode, station, originator, test, negative, sequence, objects⟩, type,
    cause⟩ := m
  obtain rfl : objects = o :: rest := h
  rfl

/-- **A positive confirmation covers the first object** of a command, and no more. -/
structure CoversFirst (inlet : Inlet) (c : ConnectionId) (m : Message) (s : Server) : Prop where
  /-- The command is weighed, and then confirmed as the answer says, before anything else goes back
  to its sender. -/
  handled : receive inlet c m.frame s =
    (do
      let answer ← weigh inlet c m
      modify (·.confirmAs c m answer)
      sequel inlet c m answer (s.commandTarget m) : Act Unit) s
  /-- When it is confirmed positively, the point at the address of the first object in the addressed
  station has received the value of that object, and the confirmation repeats the whole frame. -/
  covers : ∀ u, weigh inlet c m s = .ok .success u → ∀ o rest, m.frame.objects = o :: rest →
    ∃ station id p, s.plant.find? m.station = some station ∧
      s.plant.pointId? station o.address = some id ∧ s.point? id = some p ∧ p.type = m.type ∧
      applyCommand inlet c m id s = .ok .success u ∧
      (s.applied c m id).point? id =
        some { p with value := o.value, updated := some (o.time.getD s.now) } ∧
      (s.applied c m id).journal =
        ⟨s.now, .applied c m.originator id m.station o.address⟩ :: s.journal ∧
      u.confirmAs c m .success = u.sendBack c { m.frame with
        causeCode := Cause.activationConfirmation.code
        negative := false }
  /-- Further objects make no difference to the answer and to the server. -/
  first : ∀ o rest others, m.frame.objects = o :: rest →
    weigh inlet c (m.withObjects (o :: others)) s = weigh inlet c m s
  /-- When it was not applied, it is confirmed negatively, and nothing has changed. -/
  unapplied : ∀ answer u, weigh inlet c m s = .ok answer u →
    (∀ station id p, s.commandTarget m = .ok (station, id, p) → s.applies c m p = false) →
    answer = .failure ∧ u = s
  /-- Without objects, and with no point of its type at address zero, it is confirmed negatively,
  and nothing has changed when the application is told of the rejection. -/
  empty : m.frame.objects = [] →
    (∀ station id p, s.plant.find? m.station = some station →
      s.plant.pointId? station 0 = some id → s.point? id = some p → p.type ≠ m.type) →
    weigh inlet c m s = .ok .failure s ∧
      ∃ why v, s.Sends v ∧ receive inlet c m.frame s = tellRejected inlet c m.frame why v

/-- The target of a message is listed at the address of its first object. -/
theorem listed_of_commandTarget {o : InformationObject} {rest : List InformationObject}
    (h : m.frame.objects = o :: rest) {station : StationId} {id : PointId} {p : Point}
    (ht : s.commandTarget m = .ok (station, id, p)) :
    s.plant.find? m.station = some station ∧ s.plant.pointId? station o.address = some id ∧
      s.point? id = some p ∧ p.type = m.type := by
  obtain ⟨-, htarget, htype⟩ := commandTarget_eq_ok_iff.mp ht
  obtain ⟨hstation, hid, hp⟩ := target_eq_ok_iff.mp htarget
  have haddress : m.address = o.address := by rw [Message.address, Message.first?, h]; rfl
  exact ⟨hstation, haddress ▸ hid, hp, htype⟩

/-- **What an execute is confirmed for.** In every state that a run passes through, whatever becomes
of the frames that callbacks hand in: a positive confirmation of an execute covers its first
object. -/
theorem execute_coversFirst (h : s.Visited) (hrun : s.running = true) (inlet : Inlet)
    (c : ConnectionId) (hf : Message.ofFrame m.frame = .ok m) (hty : m.type.isCommand = true)
    (hexec : m.isExecute = true) : CoversFirst inlet c m s := by
  have hact := Message.cause_of_isExecute hexec
  have hsel := Message.isSelect_of_isExecute hexec
  have hnd : m.cause ≠ .deactivation := by rw [hact]; decide
  refine ⟨receive_eq_weigh hrun hf hty (.inl hact), fun u hu o rest ho => ?_,
    fun o rest others ho => by rw [weigh_withObjects inlet c ho], fun answer u hu hnone => ?_,
    fun hempty hnone => ?_⟩
  · -- confirmed positively: the execute was applied, to the point of the first object
    cases Weighed.of_weigh hu with
    | released hd => exact absurd hd hnd
    | granted hs => rw [hsel] at hs; cases hs
    | @applied station id p _ _ ht happ happly =>
      obtain ⟨hstation, hid, hp, htype⟩ := listed_of_commandTarget ho ht
      have hfirst : m.first? = some o := by rw [Message.first?, ho]; rfl
      have hst := station_ne_global h.wellFormed.global (commandTarget_eq_ok_iff.mp ht).2.1
      refine ⟨station, id, p, hstation, hid, hp, htype, happly, ?_, ?_, ?_⟩
      · rw [point?_applied c m hp, if_pos rfl, Message.value, Message.time, hfirst]
        rfl
      · have haddress : m.address = o.address := by rw [Message.address, hfirst]; rfl
        rw [← haddress]
        rfl
      · rw [confirmAs_eq hst (.inl hact) (by decide), Message.confirmation, if_neg hnd]
        rfl
  · -- confirmed negatively: no select or deactivation can have led here
    cases Weighed.of_weigh hu with
    | refused => exact ⟨rfl, rfl⟩
    | released hd => exact absurd hd hnd
    | granted hs => rw [hsel] at hs; cases hs
    | applied ht happ => rw [hnone _ _ _ ht] at happ; cases happ
  · -- without objects the address is 0
    have haddress : m.address = 0 := by rw [Message.address, Message.first?, hempty]; rfl
    cases ht : s.commandTarget m with
    | error why =>
      obtain ⟨v, hsends, htell⟩ := receive_of_commandTarget_error hrun hf hty (.inl hact) ht
      exact ⟨weigh_of_error ht, why, v, (Sends.confirmAs s c m .failure).trans hsends, htell⟩
    | ok found =>
      obtain ⟨station, id, p⟩ := found
      obtain ⟨-, htarget, htype⟩ := commandTarget_eq_ok_iff.mp ht
      obtain ⟨hstation, hid, hp⟩ := target_eq_ok_iff.mp htarget
      exact absurd htype (hnone station id p hstation (haddress ▸ hid) hp)

end Server

namespace Sample

/-- The sample site with two more points in direct mode, one of them at address zero. -/
def pair : Server := site.run
  [.start, .addStation 1, .addPoint 0 { address := 0, type := .C_SC_NA_1 },
    .addPoint 0 { address := 100, type := .C_SC_NA_1 }, .connection client .opened]

/-- An execute with an object for each of the two points. -/
def both : Message := (command false).withObjects [{ address := 100 }, { address := 0 }]

end Sample

namespace Server

/-- At the sample site with two points, an execute for both is confirmed positively, for the first
of them. -/
theorem sample_both_covered :
    (∃ u, weigh onFrame Sample.client Sample.both Sample.pair = .ok .success u) ∧
      CoversFirst onFrame Sample.client Sample.both Sample.pair :=
  ⟨⟨_, rfl⟩, execute_coversFirst (Sample.visited _) rfl onFrame Sample.client rfl rfl rfl⟩

/-- A positive confirmation covers neither every object of a frame nor at least one: at the sample
site with two points, an execute for both is applied to the first one only, and an execute without
objects is applied to the point at address zero. -/
theorem confirmed_beyond_first :
    (¬ ∀ {s u : Server} {c : ConnectionId} {m : Message}, s.Visited → s.running = true →
      Message.ofFrame m.frame = .ok m → m.type.isCommand = true → m.isExecute = true →
      weigh onFrame c m s = .ok .success u → ∀ o ∈ m.frame.objects, ∃ id,
        ⟨s.now, .applied c m.originator id m.station o.address⟩ ∈ u.journal) ∧
    ¬ ∀ {s u : Server} {c : ConnectionId} {m : Message}, s.Visited → s.running = true →
      Message.ofFrame m.frame = .ok m → m.type.isCommand = true → m.isExecute = true →
      weigh onFrame c m s = .ok .success u → m.frame.objects ≠ [] := by
  have hvisited : Sample.pair.Visited := Sample.visited _
  constructor
  · intro hclaim
    have hboth : ∀ o ∈ Sample.both.frame.objects, ∃ id,
        ⟨0, .applied Sample.client 1 id 1 o.address⟩ ∈
          (Sample.pair.applied Sample.client Sample.both 1).journal :=
      hclaim hvisited rfl rfl rfl rfl rfl
    obtain ⟨id, hmem⟩ := hboth { address := 0 } (.tail _ (.head _))
    -- only the application to the first object is in the journal
    have hnone : Sample.pair.journal.all (fun e => !e.event.isApplication) = true := rfl
    rcases List.mem_cons.mp hmem with heq | hold
    · exact absurd (Event.applied.inj (congrArg Entry.event heq)).2.2.2.2 (by decide)
    · cases List.all_eq_true.mp hnone _ hold
  · intro hclaim
    have hblank := @hclaim _ _ Sample.client ((Sample.command false).withObjects []) hvisited
      rfl rfl rfl rfl rfl
    exact hblank rfl

end Server

end Telecontrol
