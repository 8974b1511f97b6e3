import Telecontrol.Proofs.Tenure

/-! # What stored selections rest on

A selection is stored by a grant and by nothing else, and a grant is made as soon as its frame comes
in, before any callback runs. So what holds of a selection at the server whenever a frame of its
connection comes in, and goes on to hold as long as the selection is stored, **backs** it: it holds
of every stored selection in every state that a run leads to.

Main statements: `Move.stored` (where a stored selection comes from), `Backs.passes_receive` (what
backs selections admits frames), `Backs.stepThrough` (a step leaves every stored selection backed)
and `Server.backs_running` (stopping leaves no selection stored). -/

namespace Telecontrol

/-! ## What moves leave alone -/

/-- A stored selection was stored before or is granted by the command of its client. -/
theorem Move.stored {d : Deed} {s s' : Server} (h : Move d s s') {station : CommonAddress}
    {address : ObjectAddress} {g : Selection}
    (hg : s'.selections.find? station address = some g) :
    s.selections.find? station address = some g ∨ d = .command g.connection g.originator := by
  rcases h.calm_cases with hcalm | ⟨g', i, hd, -, hsel, -⟩ | ⟨c, m, i, p, -, -, -, rfl⟩
  · exact .inl (hcalm.stored hg)
  · rw [hsel, SelectionTable.find?_replace] at hg
    split at hg
    · obtain rfl := Option.some.inj hg
      exact .inr hd
    · exact .inl hg
  · exact .inl hg

/-- Deeds that concern neither the connections of a server nor whether it runs. -/
def Deed.IsInternal : Deed → Prop
  | .connection .. | .start | .stop => False
  | _ => True

/-- A move for an internal deed leaves the server running as it was and its connections alone. -/
theorem Move.internal {d : Deed} {s s' : Server} (h : Move d s s') (hd : d.IsInternal) :
    s'.running = s.running ∧ s'.connections = s.connections := by
  have hdefer (u : Server) (delay : Int) (job : Job) :
      (u.defer delay job).running = u.running ∧
        (u.defer delay job).connections = u.connections := by
    rw [Server.defer_eq]
    split <;> exact ⟨rfl, rfl⟩
  cases h with
  | connection | start | stop => exact hd.elim
  | note | handOver | write | plant | attach | callbacks | pass | grant | apply => exact ⟨rfl, rfl⟩
  | defer => exact hdefer ..
  | stopExecutor =>
    rw [Server.stopExecutor]
    split <;> exact ⟨rfl, rfl⟩
  -- of the jobs, only the sweep defers work, once for each expired selection
  | take =>
    unfold Server.undertake
    split
    · rw [Server.releaseExecuted]
      cases SelectionTable.createdAt? _ _ _ _ <;> exact ⟨rfl, rfl⟩
    · exact ⟨rfl, rfl⟩
    · refine Server.dropExpired_induction
        (P := fun u => u.running = s.running ∧ u.connections = s.connections) _ ⟨rfl, rfl⟩
        fun u held _ hu => ?_
      obtain ⟨hrun, hconn⟩ := hdefer (u.note (.ended held .expired)) (-1) (.unselect held)
      exact ⟨hrun.trans hu.1, hconn.trans hu.2⟩
    · exact ⟨rfl, rfl⟩
  | deactivate h =>
    obtain ⟨g, hlive, -⟩ := SelectionTable.isHeldBy_iff.mp h
    rw [Server.deactivate_eq h (SelectionTable.live?_eq_some_iff.mp hlive).1]
    exact ⟨rfl, rfl⟩
  | conclude h =>
    rw [Server.concludeExecute_eq h.station]
    split
    · exact ⟨rfl, rfl⟩
    · exact hdefer (s.sendBack _ _) _ _

/-! ## Backed selections -/

/-- A property of a selection at a server **backs** selections when no move takes it from a
selection that stays stored. -/
def Backs (Q : Server → Selection → Prop) : Prop :=
  ∀ {d : Deed} {s s' : Server}, Move d s s' →
    ∀ (station : CommonAddress) (address : ObjectAddress) (g : Selection),
      s'.selections.find? station address = some g → Q s g → Q s' g

/-- Every stored selection, live or expired, is **backed** by a property. -/
def Server.Backed (Q : Server → Selection → Prop) (s : Server) : Prop :=
  ∀ (station : CommonAddress) (address : ObjectAddress) (g : Selection),
    s.selections.find? station address = some g → Q s g

namespace Backs

variable {Q : Server → Selection → Prop} {s s' : Server} {c : ConnectionId} {f : WireFrame}
  {inlet : Inlet}

/-- A move keeps selections backed unless it is the command of a client whose grant would not be. -/
theorem move (hQ : Backs Q) {d : Deed} (hm : Move d s s')
    (hd : ∀ c o, d = .command c o → ∀ g : Selection, g.connection = c → Q s g)
    (hs : s.Backed Q) : s'.Backed Q := by
  intro station address g hg
  refine hQ hm station address g hg ?_
  rcases hm.stored hg with hold | hgrant
  · exact hs station address g hold
  · exact hd _ _ hgrant g rfl

/-- A move that is no command keeps selections backed. -/
theorem move_other (hQ : Backs Q) {d : Deed} (hm : Move d s s') (hd : ¬ d.IsCommand)
    (hs : s.Backed Q) : s'.Backed Q :=
  hQ.move hm (fun _ _ hcmd => absurd (by rw [hcmd]; trivial) hd) hs

/-- The regime that keeps selections backed. -/
def regime (hQ : Backs Q) : Regime where
  deeds := {d | d.IsInner}
  scope := Deed.scope_inner
  leads s s' := Moves {d | d.IsInner} s s' ∧ (s.Backed Q → s'.Backed Q)
  refl s := ⟨.refl s, fun h => h⟩
  trans h h' := ⟨h.1.trans h'.1, fun hs => h'.2 (h.2 hs)⟩
  moves h := h.1
  move hd hne hm := ⟨.single hd hm, hQ.move_other hm hne⟩
  conclude hd h :=
    ⟨.single hd (.conclude h), fun hs _ _ _ hg => hQ (.conclude h) _ _ _ hg
      (hs _ _ _ ((Server.Calm.concludeExecute _ _ h.station).stored hg))⟩

/-- A client is admitted when what it may be granted is backed. -/
theorem admits (hQ : Backs Q) (o : Originator) (hc : ∀ g : Selection, g.connection = c → Q s g) :
    hQ.regime.Admits c o s where
  mem := trivial
  leads hm := by
    have hinner : (Deed.command c o).IsInner := trivial
    refine ⟨.single hinner hm, hQ.move hm fun c' o' hcmd => ?_⟩
    obtain ⟨rfl, -⟩ := Deed.command.inj hcmd
    exact hc

/-- A frame passes when what its sender may be granted is backed. -/
theorem passes_receive (hQ : Backs Q) (hin : inlet.Passes hQ.regime)
    (hc : s.running = true → ∀ g : Selection, g.connection = c → Q s g) :
    (Server.receive inlet c f).Passes hQ.regime s :=
  Server.passes_receive hin fun hrun => hQ.admits f.originator (hc hrun)

/-- A step through an inlet that passes keeps selections backed. -/
theorem stepThrough (hQ : Backs Q) (hin : inlet.Passes hQ.regime) (hwell : s.WellFormed)
    (hs : s.Backed Q) (i : Input) : (s.stepThrough inlet i).Backed Q :=
  Server.stepThrough_induction (r := hQ.regime) hQ.move_other (fun hleads => hleads.2) hwell rfl hin
    hs i

/-- What two properties back, both together back. -/
theorem and (hQ : Backs Q) {R : Server → Selection → Prop} (hR : Backs R) :
    Backs fun s g => Q s g ∧ R s g :=
  fun hm station address g hg h => ⟨hQ hm station address g hg h.1, hR hm station address g hg h.2⟩

end Backs

/-- A server with a stored selection goes on running: stopping drops all of them. -/
theorem Server.backs_running : Backs fun s _ => s.running = true := by
  intro d s s' hm station address g hg hrun
  by_cases hd : d.IsInternal
  · exact (hm.internal hd).1.trans hrun
  cases hm with
  | connection =>
    rw [onConnectionEvent_eq]
    exact hrun
  | start h =>
    rw [start_of_running hrun] at h
    obtain rfl := Except.ok.inj h
    exact hrun
  | stop =>
    rw [stop_eq hrun] at hg
    cases hg
  | _ => exact absurd trivial hd

/-- The selections of a new server are backed: there are none. -/
theorem Server.backed_new {Q : Server → Selection → Prop} {options : Options}
    {transport : Transport} {now : Int} {s : Server}
    (h : Server.new options transport now = .ok s) : s.Backed Q := by
  obtain rfl := new_eq_ok h
  exact fun _ _ _ hg => nomatch hg

/-- Frames pass at a running server, however deep they are nested. -/
theorem Server.passes_receiveWithin_running (depth : Nat) :
    Inlet.Passes backs_running.regime (receiveWithin depth) := by
  induction depth with
  | zero => exact fun _ _ _ _ => Act.passes_pure _
  | succ depth ih => exact fun _ _ _ _ => backs_running.passes_receive ih fun hrun _ _ => hrun

/-- A stopped server that a run leads to has no selections. -/
theorem Server.Reachable.running_of_stored {s : Server} (h : s.Reachable) :
    s.Backed fun s _ => s.running = true := by
  induction h with
  | new h => exact backed_new h
  | @step s h i ih =>
    rw [← stepThrough_onFrame]
    exact backs_running.stepThrough (passes_receiveWithin_running nesting) h.visited.wellFormed ih i

end Telecontrol
