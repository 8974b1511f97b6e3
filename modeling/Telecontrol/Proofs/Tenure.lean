import Telecontrol.Proofs.Operate
import Telecontrol.Proofs.Ownership
import Telecontrol.Proofs.Protocol

/-! # How long a selection lasts

A selection belongs to an address, not to the point that it was granted for. It stems from a grant
for the point that was registered at its address then, and a client that executes under it reaches
that very point, unless the address was vacant for a moment since. If it was, the client reaches
whatever point is registered there now.

A run is followed here move by move, along the **trail** of the states it passes through.

Main statements: `Trail.stems` (where a stored selection stems from), `Trail.registered?_eq` (a
point stays registered until its address is vacant) and `Server.selection_tenure`. -/

namespace Telecontrol

/-! ## Moves that neither grant nor apply -/

/-- Whether an event is the application of a command. -/
def Event.isApplication : Event → Bool
  | .applied .. => true
  | _ => false

/-- A selection **is granted** by a server for a point: a point in select-and-execute mode and of
the type of the selection is registered at its address. -/
structure Selection.GrantedBy (g : Selection) (s : Server) (i : PointId) : Prop where
  created : g.created = s.now
  registered : s.plant.registered? g.key = some i
  point : ∃ p, s.point? i = some p ∧ p.type = g.type ∧ p.mode = .selectAndExecute

namespace Server

variable {s s' s'' : Server} {c : ConnectionId} {m : Message} {station : StationId} {i : PointId}
  {p : Point}

/-- A server goes over into another one **calmly** when no selection is granted and no command is
applied. -/
structure Calm (s s' : Server) : Prop where
  stored : ∀ {station address g}, s'.selections.find? station address = some g →
    s.selections.find? station address = some g
  quiet : ∃ new, s'.journal = new ++ s.journal ∧ ∀ e ∈ new, e.event.isApplication = false

namespace Calm

/-- A server that stays as it is does so calmly. -/
theorem refl (s : Server) : s.Calm s :=
  ⟨fun h => h, [], rfl, fun _ h => absurd h List.not_mem_nil⟩

/-- Calm ways follow each other. -/
theorem trans (h : s.Calm s') (h' : s'.Calm s'') : s.Calm s'' := by
  refine ⟨fun hg => h.stored (h'.stored hg), ?_⟩
  obtain ⟨new, hnew, hquiet⟩ := h.quiet
  obtain ⟨new', hnew', hquiet'⟩ := h'.quiet
  refine ⟨new' ++ new, by rw [hnew', hnew, List.append_assoc], fun e he => ?_⟩
  exact (List.mem_append.mp he).elim (hquiet' e) (hquiet e)

/-- What touches neither the selections nor the journal is calm. -/
theorem of_eq (hsel : s'.selections = s.selections) (hj : s'.journal = s.journal) : s.Calm s' :=
  ⟨fun hg => hsel ▸ hg, [], hj, fun _ h => absurd h List.not_mem_nil⟩

/-- Noting an event is calm unless a command is applied by it. -/
theorem note (s : Server) {e : Event} (he : e.isApplication = false) : s.Calm (s.note e) :=
  ⟨fun hg => hg, [⟨s.now, e⟩], rfl, fun _ h => List.mem_singleton.mp h ▸ he⟩

/-- Handing over a frame is calm. -/
theorem handOver (s : Server) (f : Sent) : s.Calm (s.handOver f) :=
  ⟨fun hg => hg, [⟨s.now, .sent f⟩], rfl, fun _ h => List.mem_singleton.mp h ▸ rfl⟩

/-- Deferring work is calm. -/
theorem defer (s : Server) (delay : Int) (job : Job) : s.Calm (s.defer delay job) := by
  rw [defer_eq]
  split
  · exact of_eq rfl rfl
  · exact note s rfl

/-- Selections end, and their ends are noted among other things. -/
theorem of_ended {t : Server} (new : List Entry) (hquiet : ∀ e ∈ new, e.event.isApplication = false)
    (hstored : ∀ {station address g}, t.selections.find? station address = some g →
      s.selections.find? station address = some g)
    (hj : t.journal = new ++ s.journal) : s.Calm t := ⟨hstored, new, hj, hquiet⟩

/-- What happens to connections is calm. -/
theorem onConnectionEvent (s : Server) (c : ConnectionId) (e : ConnectionEvent) :
    s.Calm (s.onConnectionEvent c e) := by
  rw [onConnectionEvent_eq]
  by_cases he : e = .closed
  · simp only [if_pos he]
    refine of_ended (_ :: List.map _ _) (fun x hx => ?_) (fun {station address g} hg => ?_) rfl
    · rcases List.mem_cons.mp hx with rfl | hx
      · rfl
      · obtain ⟨_, -, rfl⟩ := List.mem_map.mp hx
        rfl
    · rw [SelectionTable.find?_removeConnection] at hg
      exact (Option.filter_eq_some_iff.mp hg).1
  · simp only [if_neg he]
    exact ⟨fun hg => hg, [_], rfl, fun _ hx => by rw [List.mem_singleton.mp hx]; rfl⟩

/-- Starting the server is calm. -/
theorem start (h : s.start = .ok s') : s.Calm s' := by
  obtain rfl | ⟨_, _, _, _, -, -, rfl⟩ := start_cases h
  · exact refl _
  · exact ⟨fun hg => hg, [_], rfl, fun _ hx => by rw [List.mem_singleton.mp hx]; rfl⟩

/-- Stopping it is calm as well. -/
theorem stop (s : Server) : s.Calm s.stop := by
  cases hrun : s.running with
  | false => rw [stop_of_not_running hrun]; exact refl s
  | true =>
    rw [stop_eq hrun]
    refine of_ended (_ :: (List.map _ _ ++ List.map _ _)) (fun x hx => ?_) (fun hg => nomatch hg)
      (congrArg _ (List.append_assoc ..).symm)
    rcases List.mem_cons.mp hx with rfl | hx
    · rfl
    · rcases List.mem_append.mp hx with hx | hx <;>
      · obtain ⟨_, -, rfl⟩ := List.mem_map.mp hx
        rfl

/-- So is stopping its worker. -/
theorem stopExecutor (s : Server) : s.Calm s.stopExecutor := by
  rw [Server.stopExecutor]
  split
  · exact ⟨fun hg => hg, [_], rfl, fun _ hx => by rw [List.mem_singleton.mp hx]; rfl⟩
  · exact refl s

/-- The release of an executed selection is calm. -/
theorem releaseExecuted (s : Server) (station : CommonAddress) (address : ObjectAddress)
    (created : Int) : s.Calm (s.releaseExecuted station address created) := by
  have hstored {station' address' g}
      (hg : (s.selections.removeIf station address created).find? station' address' = some g) :
      s.selections.find? station' address' = some g := by
    rw [SelectionTable.find?_removeIf] at hg
    split at hg
    · exact (Option.filter_eq_some_iff.mp hg).1
    · exact hg
  rw [Server.releaseExecuted]
  cases s.selections.createdAt? station address created with
  | none => exact ⟨hstored, [], rfl, fun _ h => absurd h List.not_mem_nil⟩
  | some held => exact ⟨hstored, [_], rfl, fun _ hx => by rw [List.mem_singleton.mp hx]; rfl⟩

/-- Dropping expired selections is calm. -/
theorem dropExpired (s : Server) : s.Calm s.dropExpired := by
  refine dropExpired_induction s ⟨fun {station address g} hg => ?_, [], rfl,
    fun _ h => absurd h List.not_mem_nil⟩ fun u held _ hu =>
      hu.trans ((note u rfl).trans (defer _ _ _))
  rw [show SelectionTable.find? _ _ _ = _ from s.selections.find?_sweep ..] at hg
  exact (Option.filter_eq_some_iff.mp hg).1

/-- Beginning work is calm. -/
theorem undertake (s : Server) (job : Option Job) : s.Calm (s.undertake job) := by
  unfold Server.undertake
  split
  · exact releaseExecuted ..
  · exact handOver ..
  · exact dropExpired s
  · exact refl s

/-- Ending a selection on request is calm. -/
theorem deactivate (s : Server) (held : Selection) : s.Calm (s.deactivate held).1 := by
  have hstored {station address g}
      (hg : (s.selections.remove held.station held.address).find? station address = some g) :
      s.selections.find? station address = some g := by
    rw [SelectionTable.find?_remove] at hg
    split at hg
    · cases hg
    · exact hg
  rw [Server.deactivate]
  split
  · cases s.selections.find? held.station held.address with
    | none => exact ⟨hstored, [], rfl, fun _ h => absurd h List.not_mem_nil⟩
    | some ended => exact ⟨hstored, [_], rfl, fun _ hx => by rw [List.mem_singleton.mp hx]; rfl⟩
  · exact refl s

/-- The conclusion of an execute is calm when it is not sent to all stations. -/
theorem concludeExecute (s : Server) (c : ConnectionId) (hst : m.station ≠ globalAddress) :
    s.Calm (s.concludeExecute c m) := by
  rw [concludeExecute_eq hst]
  split
  · exact handOver ..
  · exact (handOver ..).trans (defer ..)

end Calm

/-- The point that a message is about is the one registered at its address. -/
theorem registered?_of_target (ht : s.target m = .ok (station, i, p)) :
    s.plant.registered? (m.station, m.address) = some i := by
  obtain ⟨hst, hi, -⟩ := target_eq_ok_iff.mp ht
  rw [Plant.registered?, hst]
  exact hi

end Server

/-- A move is calm, grants its client a selection for the point registered at its address, or
applies a command to the point registered there. -/
theorem Move.calm_cases {d : Deed} {s s' : Server} (h : Move d s s') :
    s.Calm s' ∨
      (∃ g i, d = .command g.connection g.originator ∧ g.GrantedBy s i ∧
        s'.selections = s.selections.replace g ∧
        ∃ new, s'.journal = new ++ s.journal ∧ ∀ e ∈ new, e.event.isApplication = false) ∨
      ∃ c m i p, s.plant.registered? (m.station, m.address) = some i ∧ s.point? i = some p ∧
        (p.mode = .selectAndExecute →
          s.selections.isHeldBy s.now (m.selection c s.now) = true) ∧
        s' = s.applied c m i := by
  cases h with
  | @note _ e he =>
    refine .inl (.note s ?_)
    cases e with
    | applied => cases he
    | _ => rfl
  | handOver => exact .inl (.handOver ..)
  | defer => exact .inl (.defer ..)
  | write | plant | attach | callbacks | pass => exact .inl (.of_eq rfl rfl)
  | connection => exact .inl (.onConnectionEvent ..)
  | start h => exact .inl (.start h)
  | stop => exact .inl (.stop s)
  | stopExecutor => exact .inl (.stopExecutor s)
  | @take _ task e =>
    -- taking the task changes the executor only
    have htake : s.Calm { s with executor := (e.launch s.now task).1 } := .of_eq rfl rfl
    exact .inl (htake.trans (.undertake ..))
  | @grant _ c m _ i p _ _ ht hty hmode =>
    refine .inr (.inl ⟨m.selection c s.now, i, rfl, ⟨rfl, Server.registered?_of_target ht, p,
      (Server.target_eq_ok_iff.mp ht).2.2, hty, hmode⟩, rfl, [_, _], rfl, fun e he => ?_⟩)
    rcases List.mem_cons.mp he with rfl | he
    · rfl
    · rw [List.mem_singleton.mp he]
      rfl
  | deactivate => exact .inl (.deactivate ..)
  | @apply _ c m _ i p _ _ ht _ hheld =>
    exact .inr (.inr ⟨c, m, i, p, Server.registered?_of_target ht,
      (Server.target_eq_ok_iff.mp ht).2.2, hheld, rfl⟩)
  | conclude h => exact .inl (.concludeExecute _ _ h.station)

/-! ## Trails -/

/-- A **trail**: the states that a run of a new server passes through, the latest first. -/
inductive Trail : List Server → Prop where
  | new {options : Options} {transport : Transport} {now : Int} {s : Server}
      (h : Server.new options transport now = .ok s) : Trail [s]
  | move {s s' : Server} {past : List Server} {d : Deed} (h : Trail (s :: past))
      (hm : Move d s s') : Trail (s' :: s :: past)

/-- Every visited server is at the end of a trail. -/
theorem Server.Visited.trail {s : Server} (h : s.Visited) : ∃ past, Trail (s :: past) := by
  induction h with
  | new h => exact ⟨[], .new h⟩
  | move _ hm ih =>
    obtain ⟨past, htrail⟩ := ih
    exact ⟨_, htrail.move hm⟩

namespace Trail

variable {s u : Server} {past recent older : List Server} {k : CommonAddress × ObjectAddress}
  {g : Selection} {i : PointId}

/-- A trail leads through visited servers. -/
theorem visited (h : Trail (s :: past)) : s.Visited := by
  generalize htrail : s :: past = trail at h
  induction h generalizing s past with
  | new h =>
    obtain ⟨rfl, -⟩ := List.cons.inj htrail
    exact .new h
  | move _ hm ih =>
    obtain ⟨rfl, -⟩ := List.cons.inj htrail
    exact (ih rfl).move hm

/-- Where a trail came from is a trail. -/
theorem tail (h : Trail (s :: u :: past)) : Trail (u :: past) := by
  cases h with
  | move h => exact h

/-- The last move of a trail. -/
theorem last (h : Trail (s :: u :: past)) : ∃ d, Move d u s := by
  cases h with
  | move _ hm => exact ⟨_, hm⟩

/-- A stored selection **stems** from a grant: it was stored ever since. -/
theorem stems (h : Trail (s :: past)) (hg : s.selections.find? k.1 k.2 = some g) :
    ∃ recent u older i, past = recent ++ u :: older ∧ g.GrantedBy u i ∧ g.key = k ∧
      ∀ w ∈ s :: recent, w.selections.find? k.1 k.2 = some g := by
  induction past generalizing s with
  | nil =>
    cases h with
    | new h =>
      obtain rfl := Server.new_eq_ok h
      -- a new server stores no selections
      cases hg
  | cons v past ih =>
    obtain ⟨d, hm⟩ := h.last
    -- stored before the last move too, so it stems from a grant in the past
    have hearlier (hv : v.selections.find? k.1 k.2 = some g) :
        ∃ recent u older i, v :: past = recent ++ u :: older ∧ g.GrantedBy u i ∧ g.key = k ∧
          ∀ w ∈ s :: recent, w.selections.find? k.1 k.2 = some g := by
      obtain ⟨recent, u, older, i, rfl, hgrant, hkey, hstored⟩ := ih h.tail hv
      exact ⟨v :: recent, u, older, i, rfl, hgrant, hkey, List.forall_mem_cons.mpr ⟨hg, hstored⟩⟩
    rcases hm.calm_cases with hcalm | ⟨g', i, -, hgrant, hsel, -⟩ | ⟨c, m, i, p, -, -, -, rfl⟩
    · exact hearlier (hcalm.stored hg)
    · rw [hsel, SelectionTable.find?_replace] at hg
      split at hg
      · -- granted by the last move itself
        rename_i hkey
        obtain rfl := Option.some.inj hg
        refine ⟨[], v, past, i, rfl, hgrant, hkey.symm, fun w hw => ?_⟩
        obtain rfl := List.mem_singleton.mp hw
        rw [hsel, SelectionTable.find?_replace, if_pos hkey]
      · exact hearlier hg
    · exact hearlier hg

/-- What a state has and every later move keeps, all later states have. -/
theorem recent_induction {P : Server → Prop} (h : Trail (recent ++ u :: older)) (hu : P u)
    (hP : ∀ {v w d}, v.Visited → Move d v w → w ∈ recent → P v → P w) : ∀ w ∈ recent, P w := by
  induction recent with
  | nil => exact fun _ hw => absurd hw List.not_mem_nil
  | cons s recent ih =>
    -- the state before the last move is the next one, or the state we start from
    obtain ⟨v, past, hv⟩ : ∃ v past, recent ++ u :: older = v :: past := by
      cases recent <;> exact ⟨_, _, rfl⟩
    rw [List.cons_append, hv] at h
    obtain ⟨d, hm⟩ := h.last
    have hall := ih (hv ▸ h.tail) fun hvisited hm hw => hP hvisited hm (List.mem_cons_of_mem _ hw)
    have hbefore : P v := by
      cases recent with
      | nil => exact (List.cons.inj hv).1 ▸ hu
      | cons w rest => exact (List.cons.inj hv).1 ▸ hall w List.mem_cons_self
    exact List.forall_mem_cons.mpr ⟨hP h.tail.visited hm List.mem_cons_self hbefore, hall⟩

/-- A point stays registered until its address is vacant. -/
theorem registered?_eq (h : Trail (recent ++ u :: older)) (hu : u.plant.registered? k = some i)
    (hheld : ∀ w ∈ recent, w.plant.registered? k ≠ none) :
    ∀ w ∈ recent, w.plant.registered? k = some i := by
  refine h.recent_induction hu fun {v w d} hv hm hw hbefore => ?_
  rcases hm.plant_cases with heq | ⟨_, _, -, heq⟩ | hchange
  · rw [heq]
    exact hbefore
  · rw [heq]
    exact hbefore
  · exact (hchange.registered? hv.sound hbefore).resolve_left (hheld w hw)

/-- What was fixed when a point was made stays so along a trail. -/
theorem kept (h : Trail (recent ++ u :: older)) {p : Point} (hp : u.point? i = some p) :
    ∀ w ∈ recent, ∃ q, w.point? i = some q ∧ p.SameAs q := by
  refine h.recent_induction ⟨p, hp, .refl p⟩ fun {v w d} _ hm _ hbefore => ?_
  obtain ⟨q, hq, hpq⟩ := hbefore
  obtain ⟨r, hr, hqr, -⟩ := hm.alters.follows.kept hq
  exact ⟨r, hr, hpq.trans hqr⟩

/-- A command that is applied is applied to the point registered at its address, and for the holder
of the live selection there if the point is in select-and-execute mode. -/
theorem applied (h : Trail (s :: u :: past)) {t : Int} {c : ConnectionId} {o : Originator}
    {p : Point} (hj : s.journal = ⟨t, .applied c o i k.1 k.2⟩ :: u.journal)
    (hp : u.point? i = some p) (hmode : p.mode = .selectAndExecute) :
    u.plant.registered? k = some i ∧ ∃ g, u.selections.live? u.now k.1 k.2 = some g ∧
      g.connection = c ∧ g.originator = o := by
  obtain ⟨d, hm⟩ := h.last
  have hquiet {new : List Entry} (hnew : s.journal = new ++ u.journal)
      (hno : ∀ e ∈ new, e.event.isApplication = false) : False := by
    rw [hj] at hnew
    obtain rfl : [_] = new := List.append_cancel_right hnew
    cases hno _ List.mem_cons_self
  rcases hm.calm_cases with
    hcalm | ⟨_, _, -, -, -, new, hnew, hno⟩ | ⟨c', m, i', q, hreg, hq, hheld, rfl⟩
  · obtain ⟨new, hnew, hno⟩ := hcalm.quiet
    exact (hquiet hnew hno).elim
  · exact (hquiet hnew hno).elim
  · obtain ⟨rfl, rfl, rfl, hst, haddr⟩ :=
      Event.applied.inj (congrArg Entry.event (List.cons.inj hj).1)
    obtain rfl : (m.station, m.address) = k := Prod.ext hst haddr
    obtain rfl := Option.some.inj (hq.symm.trans hp)
    exact ⟨hreg, SelectionTable.isHeldBy_iff.mp (hheld hmode)⟩

end Trail

/-! ## Selections and the plant -/

/-- Inputs that add and remove stations and points. -/
def Input.isSiting : Input → Bool
  | .addStation _ | .removeStation _ | .keepStation _ | .releaseStation _ | .addPoint ..
  | .removePoint .. | .vacate _ => true
  | _ => false

namespace Server

variable {s : Server} {c : ConnectionId} {f : WireFrame} {m : Message} {station : StationId}
  {i : PointId} {p : Point}

/-- What is done to the plant leaves the selections alone, and the clock. -/
theorem selections_step_of_isSiting (s : Server) {i : Input} (h : i.isSiting = true) :
    (s.step i).selections = s.selections ∧ (s.step i).now = s.now := by
  cases i with
  | addStation station =>
    cases ha : s.plant.addStation station <;> simp [step, addStation, ha, orSame, bind, Except.bind,
      Except.map, pure, Except.pure, report, note]
  | removeStation station =>
    rw [step, removeStation]
    cases s.plant.removeStation station <;> exact ⟨rfl, rfl⟩
  | addPoint id spec =>
    cases ha : s.plant.addPoint id s.now spec <;> simp [step, addPoint, ha, orSame, bind,
      Except.bind, pure, Except.pure]
  | keepStation | releaseStation | removePoint | vacate => exact ⟨rfl, rfl⟩
  | _ => cases h

/-- An execute under a live selection is applied to the point registered at its address. -/
theorem execute_of_isHeldBy (h : s.Visited) (hrun : s.running = true)
    (hf : Message.ofFrame f = .ok m) (hexec : m.isExecute = true)
    (ht : s.commandTarget m = .ok (station, i, p))
    (hheld : s.selections.isHeldBy s.now (m.selection c s.now) = true) :
    s.appliedEntry c m i :: s.journal <:+ ((onFrame c f).after s).journal := by
  obtain ⟨hact, hsel⟩ : m.cause = .activation ∧ m.isSelect = false := by
    simpa [Message.isExecute] using hexec
  obtain ⟨-, htarget, hptype⟩ := commandTarget_eq_ok_iff.mp ht
  have hp := (target_eq_ok_iff.mp htarget).2.2
  have hne : m.cause ≠ .deactivation := by rw [hact]; decide
  let inlet : Inlet := receiveWithin (nesting - 1)
  have harb : arbitrate inlet c m i p s =
      askReceiver inlet m i p (p.apply s.now m) (s.applied c m i) :=
    (arbitrate_apply hne hsel fun _ => hheld).trans (applyCommand_eq hp)
  have hreceive : onFrame c f s = handleCommand inlet c m station i p s :=
    receive_command hrun hf (.inl hact) ht
  -- asking the callback and settling the command only add to the journal
  have hready : (s.applied c m i).Ready {d | d.IsInner} :=
    ⟨(h.move (.apply hne hsel htarget hptype fun _ => hheld)).wellFormed, hooked_inner _⟩
  have hgrow : (s.applied c m i).journal <:+
      ((askReceiver inlet m i p (p.apply s.now m)).after (s.applied c m i)).journal :=
    (passes_askReceiver (passes_receiveWithin Deed.scope_inner _)
      (fun _ _ _ a _ => a.within_inner) _ hready).journal
  rw [Act.after, hreceive]
  cases hask : askReceiver inlet m i p (p.apply s.now m) (s.applied c m i) with
  | error e u =>
    rw [handleCommand_of_error (harb.trans hask)]
    rw [Act.after_error hask] at hgrow
    exact hgrow
  | ok answer u =>
    rw [handleCommand_of_ok (harb.trans hask)]
    rw [Act.after_ok hask] at hgrow
    obtain ⟨new, hy, -⟩ := u.says_settleCommand c m station p answer
    refine hgrow.trans ?_
    rw [hy.journal]
    exact List.suffix_append _ _

/-- An execute without a live selection is answered by one negative confirmation. -/
theorem execute_of_not_isHeldBy (h : s.Visited) (hrun : s.running = true)
    (hf : Message.ofFrame f = .ok m) (hexec : m.isExecute = true)
    (ht : s.commandTarget m = .ok (station, i, p)) (hmode : p.mode = .selectAndExecute)
    (hheld : s.selections.isHeldBy s.now (m.selection c s.now) = false) :
    onFrame c f s = .ok ⟨⟩ (s.sendBack c (m.confirmation true)) := by
  obtain ⟨hact, hsel⟩ : m.cause = .activation ∧ m.isSelect = false := by
    simpa [Message.isExecute] using hexec
  have hst := station_ne_global h.wellFormed.global (commandTarget_eq_ok_iff.mp ht).2.1
  exact (receive_command hrun hf (.inl hact) ht).trans (handleCommand_of_failure hst (.inl hact)
    (arbitrate_refused (by rw [hact]; decide) hmode hsel hheld))

/-- A command for an address where no point is registered is rejected. -/
theorem rejection?_of_vacant (hf : Message.ofFrame f = .ok m) (hty : m.type.isCommand = true)
    (hvacant : s.plant.registered? (m.station, m.address) = none) :
    ∃ why, s.rejection? f = some why ∧ s.verdict c m = .failure := by
  have hkind : m.type.kind = .command := by
    cases hm : m.type <;> first | rfl | (rw [hm] at hty; cases hty)
  obtain ⟨why, hwhy⟩ : ∃ why, s.complaint? m = some why := by
    rw [complaint?, hkind]
    cases s.refusal? m with
    | some why => exact ⟨why, rfl⟩
    | none =>
      cases ht : s.commandTarget m with
      | error why => exact ⟨why, rfl⟩
      | ok found =>
        have hreg := registered?_of_target (commandTarget_eq_ok_iff.mp ht).2.1
        rw [hvacant] at hreg
        cases hreg
  exact ⟨why, by rw [rejection?, hf]; exact hwhy, (verdict_of_complaint hwhy).2⟩

end Server

/-! ## A site whose point is made again -/

namespace Sample

/-- The client has selected the point, which is then removed, and a point of another type is added
at its address. -/
def recreated : Server := site.run (setUp ++ [select, .removePoint 0 100,
  .addPoint 0 { address := 100, type := .C_SE_NC_1, mode := .selectAndExecute }])

/-- The execute of a command of the other type. -/
def setpoint : Message where
  frame := {
    typeCode := 50
    causeCode := 6
    station := 1
    originator := 1
    objects := [{ address := 100 }] }
  type := .C_SE_NC_1
  cause := .activation

end Sample

namespace Server

/-- Executes reach points for which no selection was granted: a client that has selected a point
executes the one that has taken its place. -/
theorem setpoint_of_recreated : ¬ ∀ {s s' : Server} {past : List Server} {t : Int}
    {c : ConnectionId} {o : Originator} {i : PointId} {station : CommonAddress}
    {address : ObjectAddress} {p : Point}, Trail (s' :: s :: past) →
    s'.journal = ⟨t, .applied c o i station address⟩ :: s.journal →
    s.point? i = some p → p.mode = .selectAndExecute →
    ∃ g, s.selections.live? s.now station address = some g ∧ g.connection = c ∧
      g.originator = o ∧ ∃ recent u older, past = recent ++ u :: older ∧ g.GrantedBy u i := by
  intro hclaim
  obtain ⟨past, htrail⟩ := (Sample.visited _ : Sample.recreated.Visited).trail
  have ht : Sample.recreated.target Sample.setpoint =
      .ok (0, 1, (Sample.recreated.point? 1).get rfl) := rfl
  have happly : Trail (Sample.recreated.applied Sample.client Sample.setpoint 1 ::
      Sample.recreated :: past) := htrail.move (.apply nofun rfl ht rfl fun _ => rfl)
  obtain ⟨g, hlive, -, -, recent, u, older, rfl, hgrant⟩ := hclaim happly rfl rfl rfl
  obtain rfl : Sample.grant 0 = g := Option.some.inj hlive
  -- the selection is of the type of the first point, and a point never changes its type
  obtain ⟨q, hq, hqtype, -⟩ := hgrant.point
  have hpast : Trail ((Sample.recreated :: recent) ++ u :: older) := htrail
  obtain ⟨r, hr, hqr⟩ := hpast.kept hq _ List.mem_cons_self
  have hrtype : r.type = .C_SC_NA_1 := hqr.type.trans hqtype
  obtain rfl := Option.some.inj hr
  cases hrtype

/-- **The tenure of a selection.** A selection belongs to an address. Along every trail, a command
that is applied to a point in select-and-execute mode is applied to the point registered at its
address, under a live selection of the client that was granted there for the point registered then,
and stored ever since; that is the same point, unless no point was registered there at some moment
in between. Adding and removing stations and points leaves all selections as they are. An execute
that finds a point in select-and-execute mode of its type is applied to it if the client holds a
live selection of the address, whatever point it was granted for, and is otherwise answered by a
negative confirmation; where no point is registered, it is rejected. -/
theorem selection_tenure :
    (∀ {s s' : Server} {past : List Server} {t : Int} {c : ConnectionId} {o : Originator}
      {i : PointId} {station : CommonAddress} {address : ObjectAddress} {p : Point},
      Trail (s' :: s :: past) →
      s'.journal = ⟨t, .applied c o i station address⟩ :: s.journal →
      s.point? i = some p → p.mode = .selectAndExecute →
      s.plant.registered? (station, address) = some i ∧
      ∃ g, s.selections.live? s.now station address = some g ∧ g.connection = c ∧
        g.originator = o ∧ g.key = (station, address) ∧
        ∃ recent u older j, past = recent ++ u :: older ∧ g.GrantedBy u j ∧
          (∀ w ∈ s :: recent, w.selections.find? station address = some g) ∧
          (j = i ∧ p.type = g.type ∨
            ∃ w ∈ recent, w.plant.registered? (station, address) = none)) ∧
    (∀ (s : Server) (i : Input), i.isSiting = true →
      (s.step i).selections = s.selections ∧ (s.step i).now = s.now) ∧
    (∀ {s : Server} {c : ConnectionId} {f : WireFrame} {m : Message} {station : StationId}
      {i : PointId} {p : Point}, s.Visited → s.running = true → Message.ofFrame f = .ok m →
      m.isExecute = true → s.commandTarget m = .ok (station, i, p) → p.mode = .selectAndExecute →
      if s.selections.isHeldBy s.now (m.selection c s.now) then
        s.appliedEntry c m i :: s.journal <:+ ((onFrame c f).after s).journal
      else onFrame c f s = .ok ⟨⟩ (s.sendBack c (m.confirmation true))) ∧
    ∀ {s : Server} {c : ConnectionId} {f : WireFrame} {m : Message}, Message.ofFrame f = .ok m →
      m.type.isCommand = true → s.plant.registered? (m.station, m.address) = none →
      ∃ why, s.rejection? f = some why ∧ s.verdict c m = .failure := by
  refine ⟨?_, selections_step_of_isSiting, ?_, rejection?_of_vacant⟩
  · intro s s' past t c o i station address p h hj hp hmode
    obtain ⟨hreg, g, hlive, hc, ho⟩ := h.applied (k := (station, address)) hj hp hmode
    have hfind := (SelectionTable.live?_eq_some_iff.mp hlive).1
    obtain ⟨recent, u, older, j, rfl, hgrant, hkey, hstored⟩ :=
      h.tail.stems (k := (station, address)) hfind
    refine ⟨hreg, g, hlive, hc, ho, hkey, recent, u, older, j, rfl, hgrant, hstored, ?_⟩
    by_cases hvacant : ∃ w ∈ recent, w.plant.registered? (station, address) = none
    · exact .inr hvacant
    -- the address was never vacant, so the point is still the one selected
    have hheld : ∀ w ∈ s :: recent, w.plant.registered? (station, address) ≠ none := by
      refine List.forall_mem_cons.mpr ⟨by rw [hreg]; nofun, fun w hw hnone => ?_⟩
      exact hvacant ⟨w, hw, hnone⟩
    have htrail : Trail ((s :: recent) ++ u :: older) := h.tail
    have hsame := htrail.registered?_eq (hkey ▸ hgrant.registered) hheld s List.mem_cons_self
    obtain rfl := Option.some.inj (hsame.symm.trans hreg)
    obtain ⟨q, hq, hqtype, -⟩ := hgrant.point
    obtain ⟨r, hr, hqr⟩ := htrail.kept hq s List.mem_cons_self
    obtain rfl := Option.some.inj (hr.symm.trans hp)
    exact .inl ⟨rfl, hqr.type.trans hqtype⟩
  · intro s c f m station i p h hrun hf hexec ht hmode
    split
    · rename_i hheld
      exact execute_of_isHeldBy h hrun hf hexec ht hheld
    · rename_i hheld
      exact execute_of_not_isHeldBy h hrun hf hexec ht hmode (Bool.eq_false_iff.mpr hheld)

/-- At the sample site the client executes the very point that it has selected; when another point
has taken its place, the setpoint of that one is applied under the old selection. -/
theorem sample_tenure :
    (∃ past recent u older j, Trail (Sample.selected :: past) ∧ past = recent ++ u :: older ∧
      (Sample.grant 0).GrantedBy u j ∧
      (∀ w ∈ Sample.selected :: recent, w.selections.find? 1 100 = some (Sample.grant 0)) ∧
      (j = 0 ∨ ∃ w ∈ recent, w.plant.registered? (1, 100) = none)) ∧
    Sample.recreated.appliedEntry Sample.client Sample.setpoint 1 :: Sample.recreated.journal <:+
      ((onFrame Sample.client Sample.setpoint.frame).after Sample.recreated).journal := by
  constructor
  · obtain ⟨past, htrail⟩ := (Sample.visited _ : Sample.selected.Visited).trail
    have ht : Sample.selected.target (Sample.command false) =
        .ok (0, 0, (Sample.selected.point? 0).get rfl) := rfl
    have happly : Trail (Sample.selected.applied Sample.client (Sample.command false) 0 ::
        Sample.selected :: past) := htrail.move (.apply nofun rfl ht rfl fun _ => rfl)
    obtain ⟨-, g, hlive, -, -, -, recent, u, older, j, hpast, hgrant, hstored, hj⟩ :=
      selection_tenure.1 happly rfl rfl rfl
    obtain rfl : Sample.grant 0 = g := Option.some.inj hlive
    exact ⟨past, recent, u, older, j, htrail, hpast, hgrant, hstored, hj.imp_left And.left⟩
  · have ht : Sample.recreated.commandTarget Sample.setpoint =
        .ok (0, 1, (Sample.recreated.point? 1).get rfl) := rfl
    exact selection_tenure.2.2.1 (c := Sample.client) (Sample.visited _ : Sample.recreated.Visited)
      rfl (rfl : Message.ofFrame Sample.setpoint.frame = .ok Sample.setpoint) rfl ht rfl

end Server

end Telecontrol
