import Telecontrol.Proofs.Command
import Telecontrol.Proofs.Plain

/-! # What acts are made of

An act may be cut short by a panic, and what it has done until then stays done. Either way it leaves
a server, and it **passes** when it comes there as a regime allows. A **regime** allows moves for
some deeds, those of the frames that an act is given and of the callbacks it calls; it may ask
something of the commands among them, since these alone grant selections.

Main statements: `Server.passes_interrogate` (an interrogation passes whenever what it calls does)
and `Server.passes_handleCommand` (a command passes for a client that the regime admits). -/

namespace Telecontrol

/-! ## Regimes -/

/-- Deeds that clients do by a command. -/
def Deed.IsCommand : Deed → Prop
  | .command .. => True
  | _ => False

/-- A **regime** for a part of a run while no time passes: for which deeds it moves, and what it may
lead from one server to. All moves for these deeds are allowed but those of commands, of which only
the conclusion of an execute is allowed always. -/
structure Regime where
  deeds : Set Deed
  scope : Deed.Scope deeds
  leads : Server → Server → Prop
  refl (s : Server) : leads s s
  trans {s s' s'' : Server} : leads s s' → leads s' s'' → leads s s''
  moves {s s' : Server} : leads s s' → Moves deeds s s'
  move {d : Deed} {s s' : Server} : d ∈ deeds → ¬ d.IsCommand → Move d s s' → leads s s'
  conclude {s : Server} {c : ConnectionId} {m : Message} : .command c m.originator ∈ deeds →
    s.HasConfirmed c m → leads s (s.concludeExecute c m)

namespace Regime

variable {deeds : Set Deed} {r : Regime} {s s' : Server}

/-- The regime that allows whatever moves for some deeds lead to. -/
def free (hscope : Deed.Scope deeds) : Regime where
  deeds
  scope := hscope
  leads := Moves deeds
  refl := .refl
  trans := .trans
  moves h := h
  move hd _ h := .single hd h
  conclude hd h := .single hd (.conclude h)

/-- A regime **admits** the command of a client when it allows all that the command does at once. -/
structure Admits (r : Regime) (c : ConnectionId) (o : Originator) (s : Server) : Prop where
  mem : .command c o ∈ r.deeds
  leads : ∀ {s'}, Move (.command c o) s s' → r.leads s s'

/-- The free regime admits the commands among its deeds. -/
theorem free_admits (hscope : Deed.Scope deeds) {c : ConnectionId} {o : Originator}
    (h : .command c o ∈ deeds) : (free hscope).Admits c o s := ⟨h, .single h⟩

/-- What is known of a server and its callbacks stays known. -/
theorem ready (h : r.leads s s') (hs : s.Ready r.deeds) : s'.Ready r.deeds :=
  (r.moves h).ready r.scope hs

/-- No time passes. -/
theorem now_eq (h : r.leads s s') : s'.now = s.now := (r.moves h).now_eq r.scope

/-- Plain moves are always allowed. -/
theorem plainly (r : Regime) {s s' : Server} (h : Moves {.plain} s s') : r.leads s s' := by
  refine h.induction (P := r.leads s) (fun hd hm hs => ?_) (r.refl s)
  rw [Set.mem_singleton_iff] at hd
  subst hd
  exact r.trans hs (r.move r.scope.plain not_false hm)

end Regime

/-! ## Acts in general -/

namespace Act

variable {α β : Type}

/-- The server that an act leaves, be it completed or cut short. -/
def after (act : Act α) (s : Server) : Server :=
  match act s with
  | .ok _ s' => s'
  | .error _ s' => s'

/-- An act that completes leaves the server that it returns. -/
theorem after_ok {act : Act α} {s s' : Server} {a : α} (h : act s = .ok a s') :
    act.after s = s' := by
  rw [after, h]

/-- An act that is cut short leaves the server it has come to. -/
theorem after_error {act : Act α} {s s' : Server} {e : Panic} (h : act s = .error e s') :
    act.after s = s' := by
  rw [after, h]

/-- Of two acts, the second starts from what the first one leaves, unless a panic cuts both short.
-/
theorem after_bind (x : Act α) (f : α → Act β) (s : Server) :
    (x >>= f).after s = x.after s ∨
      ∃ a, x s = .ok a (x.after s) ∧ (x >>= f).after s = (f a).after (x.after s) := by
  cases h : x s with
  | error e s' =>
    rw [after_error h, after_error (bind_error h)]
    exact .inl rfl
  | ok a s' =>
    rw [after_ok h]
    exact .inr ⟨a, rfl, by rw [after, bind_ok h, after]⟩

/-- An act **passes** from a server when it leaves it as a regime allows. -/
def Passes (r : Regime) (act : Act α) (s : Server) : Prop :=
  s.Ready r.deeds → r.leads s (act.after s)

variable {r : Regime} {s : Server}

/-- An act that only returns a value passes. -/
theorem passes_pure (a : α) : (pure a : Act α).Passes r s := fun _ => r.refl s

/-- A panic passes, since it leaves the server as it is. -/
theorem passes_throw (e : Panic) : (throw e : Act α).Passes r s := fun _ => r.refl s

/-- An act passes when it changes the server as the regime allows. -/
theorem passes_modify {f : Server → Server} (h : s.Ready r.deeds → r.leads s (f s)) :
    (modify f : Act Unit).Passes r s := h

/-- Reading the server changes nothing. -/
theorem passes_get_bind {f : Server → Act β} (h : (f s).Passes r s) :
    (get >>= f : Act β).Passes r s := h

/-- Writing the server, then going on from what was written. -/
theorem passes_set_bind {s' : Server} {f : PUnit → Act β} (h : s.Ready r.deeds → r.leads s s')
    (hf : (f ⟨⟩).Passes r s') : (set s' >>= f : Act β).Passes r s :=
  fun hs => r.trans (h hs) (hf (r.ready (h hs) hs))

/-- One act after the other; the second starts where the first was completed. -/
theorem passes_bind {x : Act α} {f : α → Act β} (hx : x.Passes r s)
    (hf : ∀ a s', x s = .ok a s' → (f a).Passes r s') : (x >>= f).Passes r s := by
  intro hs
  have hm := hx hs
  obtain hb | ⟨a, h, hb⟩ := after_bind x f s
  · rw [hb]
    exact hm
  · rw [hb]
    exact r.trans hm (hf a _ h (r.ready hm hs))

/-- An act that is completed leaves the clock alone and lengthens the journal. -/
theorem Passes.of_ok {act : Act α} (h : act.Passes r s) (hs : s.Ready r.deeds) {a : α} {s' : Server}
    (hact : act s = .ok a s') : s'.now = s.now ∧ s.journal <:+ s'.journal := by
  have hm := h hs
  rw [after_ok hact] at hm
  exact ⟨r.now_eq hm, (r.moves hm).journal⟩

/-- The same act for each item of a list. -/
theorem passes_forM {f : α → Act PUnit} {l : List α}
    (h : ∀ a ∈ l, ∀ s', (f a).Passes r s') : (l.forM f : Act PUnit).Passes r s := by
  induction l generalizing s with
  | nil => exact passes_pure _
  | cons a rest ih =>
    exact passes_bind (h a List.mem_cons_self s) fun _ s' _ =>
      ih fun b hb => h b (List.mem_cons_of_mem a hb)

end Act

/-! ## Callbacks -/

/-- What is done with frames passes for their commands. -/
def Inlet.Passes (r : Regime) (inlet : Inlet) : Prop :=
  ∀ (c : ConnectionId) (f : WireFrame), .command c f.originator ∈ r.deeds →
    ∀ s, (inlet c f).Passes r s

namespace Server

open Act

variable {r : Regime} {inlet : Inlet}

/-- An action leads to its deed only. -/
theorem passes_perform (hin : inlet.Passes r) (own : Option PointId) {a : Action}
    (ha : a.Within r.deeds) (s : Server) : (perform inlet own a).Passes r s := by
  -- an action that belongs to no point writes nothing
  have hwrite (f : Point → Point) (h : ∀ p : Point, p.SameAs (f p))
      (hc : ∀ p : Point, (f p).callbacks = p.callbacks) :
      Moves {.plain} s (own.elim s fun id => s.modifyPoint id f) := by
    cases own with
    | none => exact .refl s
    | some id => exact s.plain_modifyPoint id h hc
  cases a with
  | setValue value =>
    exact passes_modify fun _ => r.plainly <|
      hwrite (·.setValue s.now value) (fun _ => ⟨rfl, rfl, rfl, rfl, rfl, rfl⟩) fun _ => rfl
  | setQuality quality =>
    exact passes_modify fun _ => r.plainly <|
      hwrite (·.setQuality quality) (fun _ => ⟨rfl, rfl, rfl, rfl, rfl, rfl⟩) fun _ => rfl
  | setReportInterval ms =>
    exact passes_modify fun _ => r.plainly <|
      hwrite (·.setReportInterval ms) (fun _ => ⟨rfl, rfl, rfl, rfl, rfl, rfl⟩) fun _ => rfl
  | transmit cause =>
    obtain ⟨f, hf, hcases⟩ := perform_transmit inlet own cause
    rw [hf]
    refine passes_modify fun _ => r.plainly ?_
    rcases hcases s with hsame | ⟨id, result, -, hsent⟩
    · exact hsame.symm ▸ .refl s
    · exact hsent ▸ (s.plain_transmitPoint id cause none).trans (plain_note _ rfl)
  | removePoint station address =>
    refine passes_modify fun _ => r.plainly ?_
    exact (s.plain_removePointAt station address).trans (plain_note _ rfl)
  | connection c e => exact passes_modify fun _ => r.move ha not_false (.connection s c e)
  | inbound c f => exact hin c f ha s
  | stop => exact passes_modify fun _ => r.move ha not_false (.stop s)
  | panic message => exact passes_throw _

/-- The actions of a callback pass when each of them is within the deeds of the regime. -/
theorem passes_performAll (hin : inlet.Passes r)
    (own : Option PointId) {actions : List Action} (h : ∀ a ∈ actions, a.Within r.deeds)
    (s : Server) : (performAll inlet own actions).Passes r s :=
  passes_forM fun a ha s' => passes_perform hin own (h a ha) s'

/-- A callback of a point passes. -/
theorem passes_call (hin : inlet.Passes r) (kind : PointCallback)
    (id : PointId) (s : Server) : (call inlet kind id).Passes r s := by
  intro hs
  refine passes_get_bind ?_ hs
  cases hp : s.point? id with
  | none => exact passes_pure _
  | some p =>
    cases hc : p.callbacks.get? kind with
    | none =>
      simp only [hc]
      exact passes_pure _
    | some callback =>
      simp only [hc]
      refine passes_bind (passes_modify fun _ => r.plainly (s.plain_note rfl))
        fun _ s' _ => ?_
      exact passes_performAll hin id (hs.hooked.points hp kind callback hc) s'

/-- The last part of rejecting a frame: the callback for rejected frames is told. -/
def tellRejected (inlet : Inlet) (c : ConnectionId) (f : WireFrame) (why : Rejection) :
    Act Unit := do
  let s ← get
  match s.callbacks.unexpected with
  | none => return
  | some actions =>
    set (s.note (.rejected c why f))
    performAll inlet none actions

/-- Telling the unexpected callback of a rejection passes. -/
theorem passes_tellRejected (hin : inlet.Passes r) (c : ConnectionId) (f : WireFrame)
    (why : Rejection) (s : Server) : (tellRejected inlet c f why).Passes r s := by
  intro hs
  refine passes_get_bind ?_ hs
  cases ha : s.callbacks.unexpected with
  | none => exact passes_pure _
  | some actions =>
    exact passes_set_bind (fun _ => r.plainly (s.plain_note rfl))
      (passes_performAll hin none (hs.hooked.unexpected ha) _)

/-- Rejecting a frame is plain but for the callback for rejected frames. -/
theorem passes_reject (hin : inlet.Passes r) (c : ConnectionId)
    (f : WireFrame) (why : Rejection) (s : Server) : (reject inlet c f why).Passes r s := by
  unfold reject
  cases hw : why.answerCause with
  | none => exact passes_tellRejected hin c f why s
  | some cause =>
    have hmirror := r.plainly (s.plain_mirror c f hw)
    exact passes_bind (passes_modify fun _ => hmirror) fun _ s' _ =>
      passes_tellRejected hin c f why s'

/-! ## Interrogation, reading and the clock -/

/-- Preparing a point passes. -/
theorem passes_prepare (hin : inlet.Passes r) (cause : Cause)
    (id : PointId) (s : Server) : (prepare inlet cause id).Passes r s := by
  rw [prepare]
  split
  · refine passes_bind (passes_call hin _ id s) fun _ s' _ => ?_
    refine passes_modify fun _ => r.plainly ?_
    exact s'.plain_modifyPoint id (fun _ => ⟨rfl, rfl, rfl, rfl, rfl, rfl⟩) fun _ => rfl
  · exact passes_call hin _ id s

/-- Preparing the points of a station and collecting them passes. -/
theorem passes_scan (hin : inlet.Passes r) (cause : Cause) (handles : List Handle)
    (groups : Table TypeId Batch) (s : Server) : (scan inlet cause handles groups).Passes r s := by
  induction handles generalizing groups s with
  | nil => exact passes_pure _
  | cons h rest ih =>
    rw [scan]
    refine passes_get_bind ?_
    dsimp only
    split
    · exact ih groups s
    · rename_i id p _
      refine passes_bind (passes_prepare hin cause id s) fun _ s' _ => ?_
      refine passes_get_bind ?_
      exact passes_set_bind (fun _ => r.plainly (s'.plain_collect cause groups p h))
        (ih _ _)

/-- The interrogation of a station passes. -/
theorem passes_interrogateStation (hin : inlet.Passes r)
    (cause : Cause) (receiver : Option ConnectionId) (id : StationId) (s : Server) :
    (interrogateStation inlet cause receiver id).Passes r s := by
  rw [interrogateStation]
  refine passes_get_bind ?_
  refine passes_bind (passes_scan hin cause _ _ s) fun groups s' _ => ?_
  refine passes_get_bind ?_
  exact passes_set_bind
    (fun _ => r.plainly (s'.plain_sendBatches receiver groups.values)) (passes_pure _)

/-- So does the interrogation of several stations. -/
theorem passes_interrogateStations (hin : inlet.Passes r)
    (cause : Cause) (receiver : Option ConnectionId) (ids : List StationId) (s : Server) :
    (interrogateStations inlet cause receiver ids).Passes r s := by
  induction ids generalizing s with
  | nil => exact passes_pure _
  | cons id rest ih =>
    refine passes_bind (passes_interrogateStation hin cause receiver id s)
      fun _ s' _ => ?_
    exact passes_bind (ih s') fun _ _ _ => passes_pure _

/-- An interrogation passes for plain deeds and for what callbacks do. -/
theorem passes_interrogate (hin : inlet.Passes r) (cause : Cause)
    (station : CommonAddress) (receiver : Option ConnectionId) (s : Server) :
    (interrogate inlet cause station receiver).Passes r s := by
  rw [interrogate]
  refine passes_get_bind ?_
  split
  · exact passes_interrogateStations hin cause receiver _ s
  · exact passes_pure _

/-! ## Commands -/

variable {c : ConnectionId} {m : Message} {station : StationId} {id : PointId} {p : Point}

/-- Asking the receive callback passes when its actions are within the deeds of the regime. -/
theorem passes_askReceiver (hin : inlet.Passes r)
    {before after : Point} (h : after.callbacks.Within r.deeds) (s : Server) :
    (askReceiver inlet m id before after).Passes r s := by
  rw [askReceiver]
  cases hc : after.callbacks.receive with
  | none => exact passes_pure _
  | some callback =>
    refine passes_bind (passes_modify fun _ => r.plainly (s.plain_note rfl))
      fun _ u _ => ?_
    exact passes_bind (passes_performAll hin id (h .receive callback hc) u)
      fun _ _ _ => passes_pure _

/-- The entry that a command leaves in the journal when it is applied now. -/
def appliedEntry (s : Server) (c : ConnectionId) (m : Message) (id : PointId) : Entry :=
  ⟨s.now, .applied c m.originator id m.station m.address⟩

/-- A command that may be applied passes for itself and for what the receive callback does. -/
theorem passes_applyCommand (hin : inlet.Passes r) {s : Server} (hp : s.point? id = some p)
    (happly : r.leads s (s.applied c m id)) : (applyCommand inlet c m id).Passes r s := by
  intro hs
  have hwithin : (p.apply s.now m).callbacks.Within r.deeds :=
    show p.callbacks.Within r.deeds from hs.hooked.points hp
  have hask : (askReceiver inlet m id p (p.apply s.now m)).Passes r (s.applied c m id) :=
    passes_askReceiver hin hwithin _
  have hafter : (applyCommand inlet c m id).after s =
      (askReceiver inlet m id p (p.apply s.now m)).after (s.applied c m id) := by
    rw [after, applyCommand_eq hp, after]
  rw [hafter]
  exact r.trans happly (hask (r.ready happly hs))

/-- A command that was applied is in the journal when its callback has answered. -/
theorem appliedEntry_mem (hin : inlet.Passes r) {s : Server} (hs : s.Ready r.deeds)
    (hp : s.point? id = some p) (happly : r.leads s (s.applied c m id)) {answer : Answer}
    {s' : Server} (h : applyCommand inlet c m id s = .ok answer s') :
    s'.appliedEntry c m id ∈ s'.journal := by
  have hwithin : (p.apply s.now m).callbacks.Within r.deeds :=
    show p.callbacks.Within r.deeds from hs.hooked.points hp
  rw [applyCommand_eq hp] at h
  obtain ⟨hnow, hjournal⟩ :=
    (passes_askReceiver hin hwithin _).of_ok (r.ready happly hs) h
  rw [appliedEntry, hnow]
  exact hjournal.subset List.mem_cons_self

/-- A command is settled by plain moves and, if it was an execute by selection, by the conclusion of
the execute. -/
theorem leads_settleCommand (hcmd : .command c m.originator ∈ r.deeds)
    (hm : Message.ofFrame m.frame = .ok m) (hty : m.type.isCommand = true)
    (hst : m.station ≠ globalAddress) {s : Server} (happ : s.appliedEntry c m id ∈ s.journal)
    {q : Point} (hq : s.point? id = some q) (hpq : p.SameAs q) (answer : Answer) :
    r.leads s (s.settleCommand c m station p answer) := by
  have hconfirm := r.plainly (s.plain_confirmAs c m answer)
  have hreturn (u : Server) (related : Option Handle) :
      r.leads u (related.elim u fun h => u.defer 0 (.autoReturn h)) := by
    cases related with
    | none => exact r.refl u
    | some h => exact r.plainly (plain_move (.defer u 0 rfl))
  rw [settleCommand]
  refine r.trans ?_ (hreturn _ _)
  split
  · rename_i hexecuted
    obtain ⟨⟨hanswer, hexec⟩, hmode⟩ :
        (answer = .success ∧ m.isExecute = true) ∧ p.mode = .selectAndExecute := by
      simpa using hexecuted
    -- the mode and the type of a point are fixed, so what was checked before still holds
    obtain ⟨q', hq', hqq'⟩ := (r.moves hconfirm).kept hq
    have hcause : m.cause = .activation ∧ m.isSelect = false := by
      simpa [Message.isExecute] using hexec
    have heq : s.confirmAs c m answer = s.sendBack c (m.confirmation false) := by
      rw [hanswer, confirmAs_eq hst (.inl hcause.1) (by decide)]
      rfl
    refine r.trans hconfirm (r.conclude hcmd ⟨hm, hty, hexec, hst,
      ⟨id, q', ?_, hq', hqq'.mode.trans (hpq.mode.trans hmode)⟩, ?_⟩)
    · rw [r.now_eq hconfirm]
      exact (r.moves hconfirm).journal.subset happ
    · rw [heq]
      exact ⟨s.journal, rfl⟩
  · exact hconfirm

/-- A command for an existing point passes, once it is admitted, whenever callbacks do. -/
theorem passes_handleCommand (hin : inlet.Passes r) {s : Server}
    (hadmits : r.Admits c m.originator s) (hm : Message.ofFrame m.frame = .ok m)
    (hcause : m.cause = .activation ∨ m.cause = .deactivation)
    (ht : s.commandTarget m = .ok (station, id, p)) :
    (handleCommand inlet c m station id p).Passes r s := by
  intro hs
  obtain ⟨hty, htarget, hptype⟩ := commandTarget_eq_ok_iff.mp ht
  have hst := station_ne_global hs.wellFormed.global htarget
  have hp := (target_eq_ok_iff.mp htarget).2.2
  have hfailure (harb : arbitrate inlet c m id p s = .ok .failure s) :
      r.leads s ((handleCommand inlet c m station id p).after s) := by
    rw [after_ok (handleCommand_of_failure hst hcause harb), ← confirm_eq hst]
    exact r.plainly (s.plain_confirm c m true)
  by_cases hd : m.cause = .deactivation
  · -- a deactivation releases what its sender holds and is confirmed
    have hexec : m.isExecute = false := by rw [Message.isExecute, hd]; rfl
    rw [after_ok (handleCommand_of_ok (arbitrate_deactivation hd)), settleCommand_eq fun _ => hexec]
    refine r.trans ?_ (r.plainly (plain_confirmAs _ c m _))
    by_cases hheld : s.selections.isHeldBy s.now (m.selection c s.now) = true
    · exact hadmits.leads (.deactivate hheld)
    · rw [deactivate, if_neg hheld]
      exact r.refl s
  · have hact : m.cause = .activation := hcause.resolve_right hd
    cases hsel : m.isSelect with
    | true =>
      cases hmode : p.mode with
      | direct => exact hfailure (arbitrate_direct_select hd hmode hsel)
      | selectAndExecute =>
        rw [after_ok (handleCommand_select hst hact hmode hsel)]
        by_cases htaken : s.selections.isTaken s.now (m.selection c s.now) = true
        · rw [if_pos htaken, ← confirm_eq hst]
          exact r.plainly (s.plain_confirm c m true)
        · rw [if_neg htaken]
          exact hadmits.leads (.grant hact hsel htarget hptype hmode (by simpa using htaken))
    | false =>
      by_cases hheld : p.mode = .selectAndExecute →
          s.selections.isHeldBy s.now (m.selection c s.now) = true
      · have hleads : r.leads s (s.applied c m id) :=
          hadmits.leads (.apply hd hsel htarget hptype hheld)
        have harb : arbitrate inlet c m id p s = _ := arbitrate_apply hd hsel hheld
        have happly := passes_applyCommand hin hp hleads hs
        cases h : applyCommand inlet c m id s with
        | error e s' =>
          rw [after_error (handleCommand_of_error (harb.trans h)), ← after_error h]
          exact happly
        | ok answer s' =>
          rw [after_ok h] at happly
          obtain ⟨q, hq, hpq⟩ := (r.moves happly).kept hp
          rw [after_ok (handleCommand_of_ok (harb.trans h))]
          exact r.trans happly (leads_settleCommand hadmits.mem hm hty hst
            (appliedEntry_mem hin hs hp hleads h) hq hpq answer)
      · obtain ⟨hmode, hheld⟩ := Classical.not_imp.mp hheld
        exact hfailure (arbitrate_refused hd hmode hsel (by simpa using hheld))

end Server

end Telecontrol
