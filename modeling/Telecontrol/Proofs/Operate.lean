import Telecontrol.Proofs.Chronicle

/-! # Select before operate

A command is applied to a point in select-and-execute mode only on behalf of a client whose select
was granted and confirmed less than the timeout ago, and only while nothing has superseded the
grant. An execute without such a grant changes nothing and is answered by one negative confirmation.

Main statements: `Server.Visited.standing?_eq_some_iff` (what stands was granted to the sender of a
select) and `Server.select_before_operate`. -/

namespace Telecontrol

/-- A selection **stands in** a journal: it was granted to the sender of a select, the grant was
confirmed right away, and nothing has superseded it since. -/
def Selection.StandsIn (g : Selection) (journal : List Entry) : Prop :=
  ∃ (newer older : List Entry) (m : Message),
    journal = newer ++ ⟨g.created, .sent (.returned g.connection (m.confirmation false))⟩ ::
      ⟨g.created, .granted g⟩ :: older ∧
    m.cause = .activation ∧ m.isSelect = true ∧ g = m.selection g.connection g.created ∧
    ∀ e ∈ newer, e.event.supersedes g = false

/-- A client's grant **covers** a point at an instant: it stands and its timeout has not passed. -/
structure Selection.Covers (g : Selection) (timeout : Nat) (journal : List Entry) (now : Int)
    (c : ConnectionId) (o : Originator) (station : CommonAddress) (address : ObjectAddress) :
    Prop where
  stands : g.StandsIn journal
  connection : g.connection = c
  originator : g.originator = o
  station : g.station = station
  address : g.address = address
  fresh : now - g.created < timeout

/-- A selection has expired when its timeout has passed. -/
theorem SelectionTable.isExpired_iff {t : SelectionTable} (h : 0 < t.timeout) (now : Int)
    (g : Selection) : t.isExpired now g = true ↔ g.created + t.timeout ≤ now := by
  rw [isExpired, decide_eq_true_eq]
  omega

/-- A selection is fresh until its timeout has passed. -/
theorem SelectionTable.isExpired_eq_false_iff {t : SelectionTable} (h : 0 < t.timeout) (now : Int)
    (g : Selection) : t.isExpired now g = false ↔ now - g.created < t.timeout := by
  rw [← Bool.not_eq_true, isExpired_iff h]
  omega

namespace Server

variable {s : Server}

/-! ## Grants -/

/-- Every grant of a journal was given to the sender of a select and confirmed at once. -/
theorem Visited.granted (h : s.Visited) {newer older : List Entry} {t : Int} {g : Selection}
    (hj : s.journal = newer ++ ⟨t, .granted g⟩ :: older) :
    g.created = t ∧ ∃ (rest : List Entry) (m : Message),
      newer = rest ++ [⟨t, .sent (.returned g.connection (m.confirmation false))⟩] ∧
        m.cause = .activation ∧ m.isSelect = true ∧ g = m.selection g.connection t := by
  rcases h.recorded hj with he | ⟨u, after, before, -, -, hjust, ht, -, rest, hrest⟩
  · cases he
  · obtain ⟨m, hevents, hcause, hselect, hg⟩ := hjust.granted (List.mem_append_right _
      List.mem_cons_self)
    have ht : t = u.now := ht
    -- the move recorded the grant and its confirmation, and nothing else
    have hafter : after = [.sent (.returned g.connection (m.confirmation false))] := by
      rcases after with _ | ⟨a, _ | ⟨b, rest⟩⟩
      · cases hevents
      · rw [(List.cons.inj hevents).1]
      · have hlength := congrArg List.length hevents
        simp at hlength
    rw [← ht] at hg
    refine ⟨congrArg Selection.created hg, rest, m, ?_, hcause, hselect, hg⟩
    rw [hrest, hafter, ht]
    rfl

/-- What stands was granted to the sender of a select, and the other way round. -/
theorem Visited.standing?_eq_some_iff (h : s.Visited) (k : CommonAddress × ObjectAddress)
    (g : Selection) : standing? k s.journal = some g ↔ g.key = k ∧ g.StandsIn s.journal := by
  rw [Telecontrol.standing?_eq_some_iff]
  refine and_congr_right fun _ => ⟨?_, ?_⟩
  -- the confirmation follows the grant, and supersedes nothing
  · rintro ⟨newer, t, older, hj, hnewer⟩
    obtain ⟨rfl, rest, m, rfl, hcause, hselect, hg⟩ := h.granted hj
    refine ⟨rest, older, m, ?_, hcause, hselect, hg, fun e he => ?_⟩
    · rw [hj, List.append_assoc]
      rfl
    · exact hnewer e (List.mem_append_left _ he)
  · rintro ⟨newer, older, m, hj, -, -, -, hnewer⟩
    refine ⟨newer ++ [⟨g.created, .sent (.returned g.connection (m.confirmation false))⟩],
      g.created, older, ?_, fun e he => ?_⟩
    · rw [hj, List.append_assoc]
      rfl
    · rcases List.mem_append.mp he with he | he
      · exact hnewer e he
      · rw [List.mem_singleton.mp he]
        rfl

/-- The live selections of a visited server are the grants that cover their points. -/
theorem Visited.live?_iff (h : s.Visited) (c : ConnectionId) (o : Originator)
    (station : CommonAddress) (address : ObjectAddress) :
    (∃ held, s.selections.live? s.now station address = some held ∧
      held.connection = c ∧ held.originator = o) ↔
    ∃ g : Selection, g.Covers s.options.selectTimeout s.journal s.now c o station address := by
  have hchron := h.chronicled
  have hpos : 0 < s.selections.timeout := by rw [hchron.timeout]; exact hchron.timeout_pos
  refine exists_congr fun g => ?_
  rw [SelectionTable.live?_eq_some_iff, hchron.table (station, address),
    h.standing?_eq_some_iff, SelectionTable.isExpired_eq_false_iff hpos, hchron.timeout]
  constructor
  · rintro ⟨⟨⟨hk, hstands⟩, hfresh⟩, hc, ho⟩
    obtain ⟨hs, ha⟩ := Prod.mk.inj hk
    exact ⟨hstands, hc, ho, hs, ha, hfresh⟩
  · rintro ⟨hstands, hc, ho, hs, ha, hfresh⟩
    exact ⟨⟨⟨by rw [Selection.key, hs, ha], hstands⟩, hfresh⟩, hc, ho⟩

/-- A command was applied to a point in select-and-execute mode while a grant covered the point. -/
theorem Visited.covers_of_applied (h : s.Visited) {newer older : List Entry} {t : Int}
    {c : ConnectionId} {o : Originator} {id : PointId} {station : CommonAddress}
    {address : ObjectAddress} {p : Point}
    (hj : s.journal = newer ++ ⟨t, .applied c o id station address⟩ :: older)
    (hp : s.point? id = some p) (hmode : p.mode = .selectAndExecute) :
    ∃ g : Selection, g.Covers s.options.selectTimeout older t c o station address := by
  rcases h.recorded hj with he | ⟨u, after, before, hu, hus, hjust, ht, holder, -⟩
  · cases he
  · obtain ⟨hevents, q, hq, hlive⟩ := hjust.applied (List.mem_append_right _ List.mem_cons_self)
    -- the journal before the entry is that of the server that applied the command
    have hbefore : before = [] := by
      have hlength := congrArg List.length hevents
      simp only [List.length_append, List.length_cons, List.length_nil] at hlength
      exact List.eq_nil_of_length_eq_zero (by omega)
    have hqmode : q.mode = .selectAndExecute := by
      obtain ⟨p', hp', hsame⟩ := hus.2.2 hq
      rw [hp] at hp'
      rw [← hsame.mode, ← Option.some.inj hp', hmode]
    have ht : t = u.now := ht
    rw [holder, hbefore, List.map_nil, List.nil_append, ht, hus.2.1]
    exact (hu.live?_iff c o station address).mp (hlive hqmode)

/-! ## A site with one point -/

end Server

namespace Sample

/-- The parameters of the sample site: its duties and its selections last one second. -/
def options : Options := { tickRate := 1000, selectTimeout := 1000 }

/-- The sample site, when it is new. -/
def site : Server := (Server.init options (.recording {}) 0).report (.task .started)

/-- The sample site is what its parameters make. -/
theorem new_site : Server.new options (.recording {}) 0 = .ok site := rfl

/-- The client of the sample site. -/
def client : ConnectionId := ⟨1⟩

/-- The command to the point of the sample site: a select or an execute. -/
def command (select : Bool) : Message where
  frame := {
    typeCode := 45
    causeCode := 6
    station := 1
    originator := 1
    objects := [{ address := 100, select }] }
  type := .C_SC_NA_1
  cause := .activation

/-- The sample site is started, gets a point in select-and-execute mode, and the client connects. -/
def setUp : List Input :=
  [.start, .addStation 1,
    .addPoint 0 { address := 100, type := .C_SC_NA_1, mode := .selectAndExecute },
    .connection client .opened]

/-- The client selects the point, or renews its selection. -/
def select : Input := .frame client (command true).frame

/-- The client executes the command. -/
def execute : Input := .frame client (command false).frame

/-- The sample site with its point selected at once. -/
def selected : Server := site.run (setUp ++ [select])

/-- The selection that the client gets at an instant. -/
def grant (now : Int) : Selection := (command true).selection client now

/-- The states of the sample site are visited. -/
theorem visited (inputs : List Input) : (site.run inputs).Visited :=
  ((Server.Reachable.new new_site).run inputs).visited

end Sample

namespace Server

variable {s : Server}

/-! ## Operating -/

/-- **Select before operate.** In every state that a run passes through, also while callbacks run:
whenever a client's command was applied to a point in select-and-execute mode, a select of the same
client for the same address had been granted and confirmed less than the timeout before, and nothing
had superseded the grant. An execute without such a grant is answered by one negative confirmation,
and nothing else of the server changes. -/
theorem select_before_operate (h : s.Visited) :
    (∀ (newer older : List Entry) (t : Int) (c : ConnectionId) (o : Originator) (id : PointId)
      (station : CommonAddress) (address : ObjectAddress) (p : Point),
      s.journal = newer ++ ⟨t, .applied c o id station address⟩ :: older →
      s.point? id = some p → p.mode = .selectAndExecute →
      ∃ g : Selection, g.Covers s.options.selectTimeout older t c o station address) ∧
    (∀ (inlet : Inlet) (c : ConnectionId) (f : WireFrame) (m : Message) (station : StationId)
      (id : PointId) (p : Point),
      s.running = true → Message.ofFrame f = .ok m → m.isExecute = true →
      s.commandTarget m = .ok (station, id, p) → p.mode = .selectAndExecute →
      (¬ ∃ g : Selection, g.Covers s.options.selectTimeout s.journal s.now c m.originator
        m.station m.address) →
      receive inlet c f s = .ok ⟨⟩ (s.sendBack c (m.confirmation true))) := by
  constructor
  · intro newer older t c o id station address p hj hp hmode
    exact h.covers_of_applied hj hp hmode
  · intro inlet c f m station id p hrun hf hexec ht hmode hnone
    obtain ⟨hty, htarget, -⟩ := commandTarget_eq_ok_iff.mp ht
    obtain ⟨hact, hsel⟩ : m.cause = .activation ∧ m.isSelect = false := by
      simpa [Message.isExecute] using hexec
    have hst := station_ne_global h.wellFormed.global htarget
    -- who holds the point has a grant that covers it
    have hheld : s.selections.isHeldBy s.now (m.selection c s.now) = false := by
      rw [Bool.eq_false_iff]
      intro hheld
      exact hnone ((h.live?_iff c m.originator m.station m.address).mp
        (SelectionTable.isHeldBy_iff.mp hheld))
    rw [receive_command hrun hf (.inl hact) ht]
    exact handleCommand_of_failure hst (.inl hact)
      (arbitrate_refused (by rw [hact]; decide) hmode hsel hheld)

/-- An execute at the sample site 50 ms after the select, and one without a select. -/
theorem sample_executed_under_grant :
    (∃ g : Selection, g.Covers 1000 Sample.selected.journal 50 Sample.client 1 1 100) ∧
    receive onFrame Sample.client (Sample.command false).frame (Sample.site.run Sample.setUp) =
      .ok ⟨⟩ ((Sample.site.run Sample.setUp).sendBack Sample.client
        ((Sample.command false).confirmation true)) := by
  constructor
  · let executed := Sample.site.run (Sample.setUp ++ [Sample.select, .pass 50, Sample.execute])
    have hp : executed.point? 0 = some ((executed.point? 0).get rfl) := rfl
    exact (select_before_operate (Sample.visited _)).1 (executed.journal.take 2) _ 50 Sample.client
      1 0 1 100 _ rfl hp rfl
  · have hvisited := Sample.visited Sample.setUp
    refine (select_before_operate hvisited).2 onFrame Sample.client (Sample.command false).frame
      (Sample.command false) 0 0 _ rfl rfl rfl rfl rfl fun hcovers => ?_
    obtain ⟨held, hlive, -⟩ := (hvisited.live?_iff ..).mpr hcovers
    cases hlive

end Server

end Telecontrol
