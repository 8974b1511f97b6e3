import Telecontrol.Proofs.Backing
import Telecontrol.Proofs.Undisturbed

/-! # Selections of open connections

A transport that **attends** to its connections delivers frames of open connections only. With such
a transport every stored selection belongs to an open connection, in every state that a run leads
to: a connection takes its selections along when it closes, and stopping closes all of them.

Main statements: `Server.backs_isOpen` (a connection with a stored selection stays open),
`Server.Attended.anchored` and `Server.selections_attended`. -/

namespace Telecontrol

namespace Server

/-! ## Runs that are attended to -/

/-- Handle a frame, and the frames that callbacks hand in meanwhile, to a depth; frames of
connections that are not open do not come in. -/
def attendWithin : Nat → Inlet
  | 0 => fun _ _ => return
  | depth + 1 => fun c f => do
    if (← get).connections.isOpen c then receive (attendWithin depth) c f

/-- Handle a frame of a client whose connection is open. -/
def attend : Inlet := attendWithin nesting

/-- A server **attends** to an input when each frame that it brings in, from a client or from a
callback, comes on an open connection: the frames of others might as well be dropped. -/
def Attends (s : Server) (i : Input) : Prop := s.step i = s.stepThrough attend i

/-- The states that a run of a new server leads to when all its inputs are attended to. -/
inductive Attended : Server → Prop where
  | new {options : Options} {transport : Transport} {now : Int} {s : Server}
      (h : Server.new options transport now = .ok s) : Attended s
  | step {s : Server} (h : Attended s) {i : Input} (hi : s.Attends i) : Attended (s.step i)

/-- An input that brings in no frame is attended to. -/
theorem attends_of_direct {s : Server} {i : Input} (hi : i.IsDirect) : s.Attends i :=
  (stepThrough_direct attend s hi).symm

/-- A frame that is attended to changes nothing unless its connection is open. -/
theorem Attends.frame {s : Server} {c : ConnectionId} {f : WireFrame} (h : s.Attends (.frame c f))
    (hc : s.connections.isOpen c = false) : s.step (.frame c f) = s := by
  rw [h]
  show s.outside (do if (← get).connections.isOpen c then _ : Act Unit) = s
  rw [outside, Act.get_bind, hc]
  rfl

/-- A server attends to all inputs of a run. -/
def AttendsAll (s : Server) : List Input → Prop
  | [] => True
  | i :: rest => s.Attends i ∧ (s.step i).AttendsAll rest

variable {s : Server}

/-- A run whose inputs are attended to leads to states that are. -/
theorem Attended.run (h : s.Attended) {inputs : List Input} (hinputs : s.AttendsAll inputs) :
    (s.run inputs).Attended := by
  induction inputs generalizing s with
  | nil => exact h
  | cons i rest ih => exact ih (h.step hinputs.1) hinputs.2

/-- States that are attended to are visited. -/
theorem Attended.visited (h : s.Attended) : s.Visited := by
  induction h with
  | new h => exact .new h
  | step _ _ ih => exact ih.step _

/-! ## Open connections back selections -/

/-- An event of a connection leaves the connections of stored selections open: one that closes takes
its selections along. -/
theorem isOpen_onConnectionEvent {c : ConnectionId} {e : ConnectionEvent} {station : CommonAddress}
    {address : ObjectAddress} {g : Selection}
    (hg : (s.onConnectionEvent c e).selections.find? station address = some g)
    (hopen : s.connections.isOpen g.connection = true) :
    (s.onConnectionEvent c e).connections.isOpen g.connection = true := by
  rw [onConnectionEvent_eq] at hg ⊢
  rw [Connections.isOpen_iff] at hopen ⊢
  rw [Connections.state?_onEvent]
  by_cases hc : g.connection = c
  · rw [if_pos hc]
    cases e with
    | closed =>
      have hstored : (s.selections.removeConnection c).find? station address = some g := hg
      rw [SelectionTable.find?_removeConnection] at hstored
      exact absurd hc (bne_iff_ne.mp (Option.filter_eq_some_iff.mp hstored).2)
    | _ => rfl
  · rw [if_neg hc]
    exact hopen

/-- A connection with a stored selection stays open, whatever the server does. -/
theorem backs_isOpen : Backs fun s g => s.connections.isOpen g.connection = true := by
  intro d s s' hm station address g hg hopen
  by_cases hd : d.IsInternal
  · rw [(hm.internal hd).2]
    exact hopen
  cases hm with
  | connection => exact isOpen_onConnectionEvent hg hopen
  | start h =>
    obtain rfl | ⟨_, _, _, _, -, -, rfl⟩ := start_cases h <;> exact hopen
  | stop =>
    cases hrun : s.running with
    | false =>
      rw [stop_of_not_running hrun]
      exact hopen
    | true =>
      rw [stop_eq hrun] at hg
      cases hg
  | _ => exact absurd trivial hd

/-- A selection is **anchored** at a running server at which its connection is open. -/
def Anchors (s : Server) (g : Selection) : Prop :=
  s.running = true ∧ s.connections.isOpen g.connection = true

/-- Stored selections stay anchored. -/
theorem backs_anchors : Backs Anchors := backs_running.and backs_isOpen

/-- Frames of open connections pass, however deep they are nested. -/
theorem passes_attendWithin (depth : Nat) :
    Inlet.Passes backs_anchors.regime (attendWithin depth) := by
  induction depth with
  | zero => exact fun _ _ _ _ => Act.passes_pure _
  | succ depth ih =>
    intro c f _ s
    refine Act.passes_get_bind ?_
    split
    · rename_i hopen
      exact backs_anchors.passes_receive ih fun hrun g hg => ⟨hrun, hg ▸ hopen⟩
    · exact Act.passes_pure _

/-- Every stored selection is anchored. -/
theorem Attended.anchored (h : s.Attended) : s.Backed Anchors := by
  induction h with
  | new h => exact backed_new h
  | step h hi ih =>
    rw [hi]
    exact backs_anchors.stepThrough (passes_attendWithin nesting) h.visited.wellFormed ih _

/-! ## Closing -/

/-- Closing a connection drops its selections and no other. -/
theorem find?_closed_iff (s : Server) (c : ConnectionId) (station : CommonAddress)
    (address : ObjectAddress) (g : Selection) :
    (s.step (.connection c .closed)).selections.find? station address = some g ↔
      s.selections.find? station address = some g ∧ g.connection ≠ c := by
  show (s.onConnectionEvent c .closed).selections.find? station address = some g ↔ _
  rw [onConnectionEvent_eq]
  show (s.selections.removeConnection c).find? station address = some g ↔ _
  rw [SelectionTable.find?_removeConnection, Option.filter_eq_some_iff, bne_iff_ne]

/-- A select of a point that nobody has selected is granted and confirmed. -/
theorem step_select {c : ConnectionId} {f : WireFrame} {m : Message} {station : StationId}
    {id : PointId} {p : Point} (h : s.Visited) (hrun : s.running = true)
    (hf : Message.ofFrame f = .ok m) (hact : m.cause = .activation) (hsel : m.isSelect = true)
    (ht : s.commandTarget m = .ok (station, id, p)) (hmode : p.mode = .selectAndExecute)
    (hfree : s.selections.find? m.station m.address = none) :
    s.step (.frame c f) =
      (s.grant (m.selection c s.now)).sendBack c (m.confirmation false) := by
  have hst := station_ne_global h.wellFormed.global (commandTarget_eq_ok_iff.mp ht).2.1
  have htaken : s.selections.isTaken s.now (m.selection c s.now) = false := by
    rw [Bool.eq_false_iff]
    intro htaken
    obtain ⟨held, hlive, -⟩ := SelectionTable.isTaken_iff.mp htaken
    have hfind : s.selections.find? m.station m.address = some held :=
      (SelectionTable.live?_eq_some_iff.mp hlive).1
    rw [hfree] at hfind
    cases hfind
  show s.outside (receive (receiveWithin (nesting - 1)) c f) = _
  rw [outside, receive_command hrun hf (.inl hact) ht, handleCommand_select hst hact hmode hsel,
    htaken]
  rfl

/-- **No selection without its connection.** In every state of a run that is attended to, each
stored selection, live or expired, belongs to a connection that is open at the running server. When
a connection closes, its selections go and no other; a point that it had selected can be selected at
once by any client, who then holds the point for the whole timeout. -/
theorem selections_attended (h : s.Attended) :
    (∀ (station : CommonAddress) (address : ObjectAddress) (g : Selection),
      s.selections.find? station address = some g →
        s.running = true ∧ s.connections.isOpen g.connection = true) ∧
    (∀ (c : ConnectionId) (station : CommonAddress) (address : ObjectAddress) (g : Selection),
      (s.step (.connection c .closed)).selections.find? station address = some g ↔
        s.selections.find? station address = some g ∧ g.connection ≠ c) ∧
    (∀ (c : ConnectionId) (f : WireFrame) (m : Message) (station : StationId) (id : PointId)
      (p : Point) (g : Selection), s.selections.find? m.station m.address = some g →
      Message.ofFrame f = .ok m → m.cause = .activation → m.isSelect = true →
      s.commandTarget m = .ok (station, id, p) → p.mode = .selectAndExecute →
      (s.run [.connection g.connection .closed, .frame c f]) =
        ((s.step (.connection g.connection .closed)).grant (m.selection c s.now)).sendBack c
          (m.confirmation false) ∧
      ∀ now, s.now ≤ now → now < s.now + s.options.selectTimeout →
        (s.run [.connection g.connection .closed, .frame c f]).selections.live? now m.station
          m.address = some (m.selection c s.now)) := by
  refine ⟨h.anchored, s.find?_closed_iff, ?_⟩
  intro c f m station id p g hg hf hact hsel ht hmode
  let u := s.step (.connection g.connection .closed)
  have hu : u.Visited := h.visited.step _
  have hclosed : u = s.onConnectionEvent g.connection .closed := rfl
  have hurun : u.running = true := by
    rw [hclosed, onConnectionEvent_eq]
    exact (h.anchored _ _ g hg).1
  -- the event changes neither the plant nor the clock
  have hkeeps : s.Keeps u := .onConnectionEvent s g.connection .closed
  have hut : u.commandTarget m = .ok (station, id, p) := by
    rw [← ht, commandTarget, commandTarget, target, target, hkeeps.plant]
    simp only [point?, hkeeps.plant]
  have hfree : u.selections.find? m.station m.address = none := by
    rw [Option.eq_none_iff_forall_ne_some]
    intro g' hg'
    obtain ⟨hstored, hne⟩ := (s.find?_closed_iff ..).mp hg'
    rw [hg] at hstored
    exact hne (Option.some.inj hstored ▸ rfl)
  have hrun : s.run [.connection g.connection .closed, .frame c f] =
      (u.grant (m.selection c s.now)).sendBack c (m.confirmation false) := by
    rw [← hkeeps.now]
    exact step_select hu hurun hf hact hsel hut hmode hfree
  refine ⟨hrun, fun now hfrom hto => ?_⟩
  rw [hrun]
  rw [← hkeeps.now, ← hkeeps.options] at hto
  exact live?_grant hu (m.selection c s.now) hkeeps.now.symm (hkeeps.now ▸ hfrom) hto

/-- The sample site attends to its set-up and to the select of its client. -/
theorem attended_selected : Sample.selected.Attended := by
  have hattends : Sample.site.AttendsAll (Sample.setUp ++ [Sample.select]) :=
    ⟨attends_of_direct trivial, attends_of_direct trivial, attends_of_direct trivial, rfl, rfl,
      trivial⟩
  exact (Attended.new Sample.new_site).run hattends

/-- The client of the sample site leaves, and another one selects the point at once. -/
theorem sample_selected_at_once :
    Sample.selected.connections.isOpen Sample.client = true ∧
      (Sample.selected.step (.connection Sample.client .closed)).selections.find? 1 100 = none ∧
      (Sample.selected.run [.connection Sample.client .closed,
        .frame ⟨2⟩ (Sample.command true).frame]).selections.live? 999 1 100 =
          some ((Sample.command true).selection ⟨2⟩ 0) := by
  obtain ⟨hopen, hclosed, hselect⟩ := selections_attended attended_selected
  have hheld : Sample.selected.selections.find? 1 100 = some (Sample.grant 0) := by
    decide +kernel
  refine ⟨(hopen 1 100 _ hheld).2, ?_, ?_⟩
  · rw [Option.eq_none_iff_forall_ne_some]
    intro g hg
    obtain ⟨hstored, hne⟩ := (hclosed Sample.client 1 100 g).mp hg
    rw [hheld] at hstored
    exact hne (Option.some.inj hstored ▸ rfl)
  · exact (hselect ⟨2⟩ (Sample.command true).frame (Sample.command true) 0 0 _ (Sample.grant 0)
      hheld rfl rfl rfl rfl rfl).2 999 (show (0 : Int) ≤ 999 by decide)
      (show (999 : Int) < 0 + (1000 : Nat) by decide)

end Server

end Telecontrol
