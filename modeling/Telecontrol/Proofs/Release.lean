import Telecontrol.Proofs.Deferred
import Telecontrol.Proofs.Operate

/-! # The delayed release

A successful execute consumes the selection that stands when it is terminated, and defers the
release of that selection. The release knows its selection by the instant of the grant alone. So it
leaves every selection that is granted after the execute, unless all three, the consumed grant, the
execute and the later grant, fall on one instant.

Main statements: `Server.Visited.release_deferred`, `Server.Visited.release_waits` and
`Server.delayed_release`. -/

namespace Telecontrol

/-! ## Executions -/

/-- An **execution**: a client's command that was executed by selection. -/
structure Execution where
  time : Int
  connection : ConnectionId
  message : Message
  /-- The selection that it consumed. -/
  selection : Selection
  /-- The journal since the execute was terminated. -/
  newer : List Entry
  /-- The journal before the execute was confirmed. -/
  older : List Entry

namespace Execution

/-- The positive confirmation of an execution. -/
def confirmed (x : Execution) : Entry :=
  ⟨x.time, .sent (.returned x.connection (x.message.confirmation false))⟩

/-- The termination of an execution. -/
def terminated (x : Execution) : Entry :=
  ⟨x.time, .sent (.returned x.connection x.message.termination)⟩

/-- A journal tells of an execution: a command was confirmed positively and terminated right after,
while the selection stood at its point. -/
structure IsIn (x : Execution) (journal : List Entry) : Prop where
  journal : journal = x.newer ++ x.terminated :: x.confirmed :: x.older
  frame : Message.ofFrame x.message.frame = .ok x.message
  command : x.message.type.isCommand = true
  execute : x.message.isExecute = true
  key : x.selection.key = (x.message.station, x.message.address)
  stands : standing? x.selection.key x.older = some x.selection

/-- A task is the release that an execution deferred. -/
def IsReleasedBy (x : Execution) (t : Task Job) : Prop :=
  t.due = .timed (x.time + releaseDelay) ∧ t.work = .once x.selection.releaseJob

/-- An execution was applied **under** a grant: the grant covered the point when the command was
applied, at the instant of the execution, and it was consumed unless something superseded it while
the receive callback ran. -/
def IsUnder (x : Execution) (timeout : Nat) (g : Selection) : Prop :=
  ∃ (newer older : List Entry) (id : PointId),
    x.older = newer ++ ⟨x.time, .applied x.connection x.message.originator id x.message.station
      x.message.address⟩ :: older ∧
    g.Covers timeout older x.time x.connection x.message.originator x.message.station
      x.message.address ∧
    ((∀ e ∈ newer, e.event.supersedes g = false) → x.selection = g)

/-- An execution as a longer journal tells of it. -/
def later (x : Execution) (events : List Entry) : Execution := { x with newer := events ++ x.newer }

variable {x : Execution} {events journal : List Entry}

/-- A longer journal tells of the same executions. -/
theorem IsIn.later (h : x.IsIn journal) : (x.later events).IsIn (events ++ journal) where
  journal := by
    rw [h.journal]
    exact (List.append_assoc events x.newer _).symm
  frame := h.frame
  command := h.command
  execute := h.execute
  key := h.key
  stands := h.stands

/-- An execution was told of before, or it was terminated since. -/
theorem IsIn.of_append (h : x.IsIn (events ++ journal)) :
    (∃ y : Execution, y.IsIn journal ∧ x = y.later events) ∨
      ∃ before, events = x.newer ++ x.terminated :: before ∧
        before ++ journal = x.confirmed :: x.older := by
  rcases List.append_eq_append_iff.mp h.journal with ⟨newer, hnewer, hj⟩ | ⟨rest, hevents, hj⟩
  · exact .inl ⟨{ x with newer }, ⟨hj, h.frame, h.command, h.execute, h.key, h.stands⟩, by
      rw [Execution.later, ← hnewer]⟩
  · cases rest with
    | nil =>
      refine .inl ⟨{ x with newer := [] }, ⟨hj.symm, h.frame, h.command, h.execute, h.key,
        h.stands⟩, ?_⟩
      rw [List.append_nil] at hevents
      rw [Execution.later, hevents, List.append_nil]
    | cons e before =>
      obtain ⟨rfl, hbefore⟩ := List.cons.inj hj
      exact .inr ⟨before, hevents, hbefore.symm⟩

/-- The termination of an execution ends it. -/
theorem IsIn.concluded? (h : x.IsIn journal) :
    (Sent.returned x.connection x.message.termination).concluded? = some x.selection.key := by
  rw [h.key]
  exact Sent.concluded?_termination_of_isCommand h.frame h.command

/-- What stands after an execution is the selection it consumed or was granted since. -/
theorem IsIn.granted_of_standing? (h : x.IsIn journal) {g : Selection}
    (hg : standing? x.selection.key journal = some g) :
    (∃ t, ⟨t, .granted g⟩ ∈ x.newer) ∨ g = x.selection := by
  rw [h.journal, standing?_append] at hg
  rcases Event.granted_of_foldr_revise hg with hmem | hold
  · obtain ⟨⟨t, e⟩, he, rfl⟩ := List.mem_map.mp hmem
    exact .inl ⟨t, he⟩
  · refine .inr (Option.some.inj (hold.symm.trans ?_))
    exact h.stands

end Execution

namespace Server

variable {s : Server} {x : Execution}

/-- A selection is consumed no earlier than it was granted. -/
theorem Visited.consumed_le (h : s.Visited) (hx : x.IsIn s.journal) :
    x.selection.created ≤ x.time := by
  -- the grant is an older entry than the termination, so no later
  obtain ⟨-, newer, t, older, holder, -⟩ :=
    (Telecontrol.standing?_eq_some_iff ..).mp hx.stands
  have hj : s.journal = (x.newer ++ x.terminated :: x.confirmed :: newer) ++
      ⟨t, .granted x.selection⟩ :: older := by
    rw [hx.journal, holder]
    simp
  rw [(h.granted hj).1]
  have hordered := h.chronicled.ordered
  rw [hx.journal] at hordered
  refine (List.pairwise_cons.mp (List.pairwise_append.mp hordered).2.1).1 ⟨t, .granted x.selection⟩
    (List.mem_cons_of_mem _ ?_)
  rw [holder]
  exact List.mem_append_right _ List.mem_cons_self

/-- A selection granted after an execution is no older than it. -/
theorem Visited.le_granted (h : s.Visited) (hx : x.IsIn s.journal) {t : Int} {g : Selection}
    (hg : ⟨t, .granted g⟩ ∈ x.newer) : x.time ≤ g.created := by
  obtain ⟨newer, older, hnewer⟩ := List.append_of_mem hg
  have hj := hx.journal
  rw [hnewer, List.append_assoc] at hj
  rw [(h.granted hj).1]
  have hordered := h.chronicled.ordered
  rw [hx.journal] at hordered
  exact (List.pairwise_append.mp hordered).2.2 _ hg _ List.mem_cons_self

/-- The command of an execution was applied before, at the same instant, to a point in
select-and-execute mode. -/
theorem Visited.applied_of_isIn (h : s.Visited) (hx : x.IsIn s.journal) :
    ∃ id q, ⟨x.time, .applied x.connection x.message.originator id x.message.station
      x.message.address⟩ ∈ x.older ∧ s.point? id = some q ∧ q.mode = .selectAndExecute := by
  rcases h.recorded hx.journal with he | ⟨u, after, before, hu, hus, hjust, ht, holder, -⟩
  · cases he
  · obtain ⟨-, c, m, hf, -, hconf⟩ :=
      hjust.concluded (List.mem_append_right _ List.mem_cons_self) hx.concluded?
    obtain rfl := hjust.eq_nil_of_concluded hx.concluded?
    -- the message that was confirmed agrees with that of the execution where it matters
    obtain ⟨rfl, hframe⟩ := Sent.returned.inj hf
    have hstation : x.message.termination.station = m.termination.station := by rw [hframe]
    have horiginator : x.message.termination.originator = m.termination.originator := by rw [hframe]
    have hobjects : x.message.termination.objects = m.termination.objects := by rw [hframe]
    have haddress : x.message.address = m.address :=
      congrArg (fun l => ((l.head?.map InformationObject.address).getD 0)) hobjects
    obtain ⟨id, p, happ, hp, hmode⟩ := hconf.applied
    obtain ⟨q, hq, hpq⟩ := hus.2.2 hp
    refine ⟨id, q, ?_, hq, hpq.mode.trans hmode⟩
    rw [show x.message.station = m.station from hstation, haddress,
      show x.message.originator = m.originator from horiginator, show x.time = u.now from ht]
    rw [show u.journal = x.confirmed :: x.older from holder.symm] at happ
    exact (List.mem_cons.mp happ).resolve_left fun he => by cases (Entry.mk.inj he).2

/-- Every execution was applied under a grant. -/
theorem Visited.exists_isUnder (h : s.Visited) (hx : x.IsIn s.journal) :
    ∃ g, x.IsUnder s.options.selectTimeout g := by
  obtain ⟨id, q, hmem, hq, hmode⟩ := h.applied_of_isIn hx
  obtain ⟨newer, older, hsplit⟩ := List.append_of_mem hmem
  have hj := hx.journal
  rw [hsplit, ← List.cons_append, ← List.cons_append, ← List.append_assoc] at hj
  obtain ⟨g, hg⟩ := h.covers_of_applied hj hq hmode
  refine ⟨g, newer, older, id, hsplit, hg, fun hnone => ?_⟩
  -- if nothing superseded the grant while the callback ran, it is what stood at the end
  obtain ⟨n, o, m', hgrant, -, -, -, hn⟩ := hg.stands
  have hkey : x.selection.key = g.key := by
    rw [hx.key, Selection.key, hg.station, hg.address]
  have hstands : standing? g.key x.older = some g := by
    rw [hgrant, ← List.cons_append, ← List.append_assoc, List.append_cons] at hsplit
    refine (Telecontrol.standing?_eq_some_iff ..).mpr ⟨rfl, _, g.created, o, hsplit,
      fun e he => ?_⟩
    simp only [List.mem_append, List.mem_cons, List.not_mem_nil, or_false] at he
    rcases he with (he | rfl | he) | rfl
    · exact hnone e he
    · rfl
    · exact hn e he
    · rfl
  exact Option.some.inj (hx.stands.symm.trans (hkey ▸ hstands))

/-! ## Where releases come from -/

/-- Every release that waits was deferred by an execution. -/
theorem Visited.release_deferred (h : s.Visited) {t : Task Job} (ht : t ∈ s.executor.queue)
    (hrel : t.work.body.isRelease = true) :
    ∃ x : Execution, x.IsIn s.journal ∧ x.IsReleasedBy t := by
  induction h with
  | new h =>
    obtain rfl := new_eq_ok h
    cases ht
  | @move s s' d hs hm ih =>
    rcases (hm.requeues hs.wellFormed hs.chronicled.keyed).release t ht hrel with
      ht | ⟨c, m, g, hconf, hg, hj, hdue, hwork⟩
    · obtain ⟨x, hx, hxt⟩ := ih ht
      obtain ⟨events, hevents⟩ := hm.alters.journal
      exact ⟨x.later events, hevents ▸ hx.later, hxt⟩
    · obtain ⟨older, holder⟩ := hconf.confirmed
      have hkey : g.key = (m.station, m.address) := hs.chronicled.keyed hg
      -- the move just made terminated the execution
      refine ⟨⟨s.now, c, m, g, [], older⟩,
        ⟨?_, hconf.frame, hconf.command, hconf.execute, hkey, ?_⟩, hdue, hwork⟩
      · rw [hj, holder]
        rfl
      · have hstands := hs.chronicled.table (m.station, m.address)
        rw [hg, holder, ← hkey] at hstands
        exact hstands.symm

/-! ## What a release does -/

/-- A release drops the selection of one point if it was granted at one instant. -/
theorem find?_releaseExecuted (s : Server) (g : Selection) (station : CommonAddress)
    (address : ObjectAddress) :
    (s.releaseExecuted g.station g.address g.created).selections.find? station address =
      if (station, address) = g.key then
        (s.selections.find? station address).filter fun held => held.created != g.created
      else s.selections.find? station address := by
  have hsel : (s.releaseExecuted g.station g.address g.created).selections =
      s.selections.removeIf g.station g.address g.created := by
    rw [releaseExecuted]
    cases s.selections.createdAt? g.station g.address g.created <;> rfl
  rw [hsel, SelectionTable.find?_removeIf]
  rfl

/-- The worker takes a release. -/
theorem find?_step_release {t : Task Job} {e : Executor Job}
    (h : s.executor.next? s.now = some (t, e)) (hx : x.IsReleasedBy t) (station : CommonAddress)
    (address : ObjectAddress) :
    (s.step .work).selections.find? station address =
      if (station, address) = x.selection.key then
        (s.selections.find? station address).filter fun g => g.created != x.selection.created
      else s.selections.find? station address := by
  obtain ⟨hjob, hwork⟩ := work?_eq h
  rw [Executor.launch_once e s.now hx.2] at hjob
  have hstep : s.step .work = (s.taking t e).releaseExecuted x.selection.station
      x.selection.address x.selection.created := by
    show s.work?.getD s = _
    rw [hwork, hjob]
    rfl
  have hsel : (s.taking t e).selections = s.selections := (s.noteLateness_fields t).2.2.1
  rw [hstep, find?_releaseExecuted, hsel]

/-- The release of an execution waits. -/
def Awaits (s : Server) (x : Execution) : Prop := ∃ t ∈ s.executor.queue, x.IsReleasedBy t

/-- The time for the release of an execution has come, and no selection of its point is stored that
was granted when the consumed one was. -/
def HasReleased (s : Server) (x : Execution) : Prop :=
  x.time + releaseDelay ≤ s.now ∧ ∀ g,
    s.selections.find? x.selection.station x.selection.address = some g →
      g.created ≠ x.selection.created

/-- A release that waits is taken or goes on waiting. -/
theorem Awaits.move {d : Deed} {s' : Server} (h : s.Awaits x) (hs : s.Visited) (hm : Move d s s')
    (hrun : s'.executor.running = true) : s'.Awaits x ∨ s'.HasReleased x := by
  obtain ⟨t, ht, hxt⟩ := h
  rcases (hm.requeues hs.wellFormed hs.chronicled.keyed).stays t ht hrun with ht | ⟨e, hnext, hs'⟩
  · exact .inl ⟨t, ht, hxt⟩
  · have hready := ((Executor.next?_eq_some_iff ..).mp hnext).2.1
    rw [hxt.1] at hready
    refine .inr ⟨Int.le_trans (of_decide_eq_true hready) hm.now_le, fun g hg => ?_⟩
    rw [Executor.launch_once e s.now hxt.2] at hs'
    have hfind := find?_releaseExecuted { s with executor := e } x.selection x.selection.station
      x.selection.address
    have hkey : (x.selection.station, x.selection.address) = x.selection.key := rfl
    rw [if_pos hkey] at hfind
    rw [hs'] at hg
    exact bne_iff_ne.mp (Option.filter_eq_some_iff.mp (hfind.symm.trans hg)).2

/-- What is granted after a release is younger than what was released. -/
theorem HasReleased.move {d : Deed} {s' : Server} (h : s.HasReleased x) (hs : s.Visited)
    (hx : x.IsIn s.journal) (hm : Move d s s') : s'.HasReleased x := by
  refine ⟨Int.le_trans h.1 hm.now_le, fun g hg => ?_⟩
  obtain ⟨events, hrec, hjust⟩ := hm.history hs.chronicled.keyed
  have hfind := (hrec.table x.selection.key).symm.trans hg
  rcases Event.granted_of_foldr_revise hfind with hmem | hold
  · -- the clock has gone on since the consumed selection was granted
    obtain ⟨m, -, -, -, hgranted⟩ := hjust.granted hmem
    have hnow : g.created = s.now := congrArg Selection.created hgranted
    have hconsumed := hs.consumed_le hx
    have hpast := h.1
    have hdelay : 0 < releaseDelay := by decide
    omega
  · exact h.2 g hold

/-- The move that terminates an execution defers its release. -/
theorem Records.awaits {d : Deed} {s' : Server} {events : List Event} {before : List Entry}
    (hrec : s.Records d s' events) (hjust : s.Justifies events) (hs : s.Visited)
    (hx : x.IsIn s'.journal)
    (hevents : events.map (Entry.mk s.now) = x.newer ++ x.terminated :: before)
    (hbefore : before ++ s.journal = x.confirmed :: x.older)
    (hrun : s'.executor.running = true) : s'.Awaits x := by
  obtain ⟨after, tail, rfl, -, htail⟩ := List.map_eq_append_iff.mp hevents
  obtain ⟨e, before, rfl, hterminated, rfl⟩ := List.map_eq_cons_iff.mp htail
  obtain ⟨htime, rfl⟩ := Entry.mk.inj hterminated
  obtain rfl := hjust.eq_nil_of_concluded hx.concluded?
  have hfind : s.selections.find? x.selection.key.1 x.selection.key.2 = some x.selection := by
    rw [hs.chronicled.table, show s.journal = x.confirmed :: x.older from hbefore]
    exact hx.stands
  obtain ⟨t, ht, hdue, hwork⟩ := hrec.released (List.mem_append_right _ List.mem_cons_self)
    hx.concluded? hfind hrun
  exact ⟨t, ht, by rw [hdue, htime], hwork⟩

/-- While the executor runs, the release of an execution waits, until it has done its work. -/
theorem Visited.release_waits (h : s.Visited) (hx : x.IsIn s.journal)
    (hrun : s.executor.running = true) : s.Awaits x ∨ s.HasReleased x := by
  induction h generalizing x with
  | new h =>
    obtain rfl := new_eq_ok h
    have hlength := congrArg List.length hx.journal
    simp only [report, note, init, List.length_append, List.length_cons, List.length_nil] at hlength
    omega
  | @move s s' d hs hm ih =>
    obtain ⟨events, hrec, hjust⟩ := hm.history hs.chronicled.keyed
    -- the execution is an earlier one, or this move terminated it
    rcases (hrec.journal ▸ hx).of_append with ⟨y, hy, rfl⟩ | ⟨before, hevents, hbefore⟩
    · show s'.Awaits y ∨ s'.HasReleased y
      have hrequeues := hm.requeues hs.wellFormed hs.chronicled.keyed
      rcases ih hy (hrequeues.running hrun) with hwaits | hreleased
      · exact hwaits.move hs hm hrun
      · exact .inr (hreleased.move hs hy hm)
    · exact .inl (hrec.awaits hjust hs hx hevents hbefore hrun)

/-! ## The release is delayed -/

/-- **The delayed release.** In every state that a run passes through, every release that waits was
deferred by an execution; every execution was applied under a grant, and its release waits until it
has done its work. When it is taken, it leaves each selection that was granted after the execution,
unless the consumed selection, the execution and that grant are of one instant: then the selection
is lost. If the point was not selected again, it is not held any more. The selections of other
points stay. -/
theorem delayed_release (h : s.Visited) :
    (∀ t ∈ s.executor.queue, t.work.body.isRelease = true →
      ∃ x : Execution, x.IsIn s.journal ∧ x.IsReleasedBy t) ∧
    (∀ x : Execution, x.IsIn s.journal → (∃ g, x.IsUnder s.options.selectTimeout g) ∧
      (s.executor.running = true → s.Awaits x ∨ s.HasReleased x)) ∧
    (∀ (x : Execution) (t : Task Job) (e : Executor Job), x.IsIn s.journal → x.IsReleasedBy t →
      s.executor.next? s.now = some (t, e) →
      (∀ (u : Int) (held : Selection), ⟨u, .granted held⟩ ∈ x.newer →
        s.selections.find? held.station held.address = some held →
        (s.step .work).selections.find? held.station held.address =
          if held.key = x.selection.key ∧ x.selection.created = x.time ∧ held.created = x.time
          then none else some held) ∧
      ((∀ (u : Int) (held : Selection), ⟨u, .granted held⟩ ∈ x.newer →
          held.key ≠ x.selection.key) →
        (s.step .work).selections.find? x.selection.station x.selection.address = none) ∧
      (∀ (station : CommonAddress) (address : ObjectAddress),
        (station, address) ≠ x.selection.key →
        (s.step .work).selections.find? station address =
          s.selections.find? station address)) := by
  refine ⟨fun t ht hrel => h.release_deferred ht hrel,
    fun x hx => ⟨h.exists_isUnder hx, fun hrun => h.release_waits hx hrun⟩,
    fun x t e hx hxt hnext => ⟨?_, ?_, ?_⟩⟩
  · intro u held hgranted hheld
    rw [find?_step_release hnext hxt, hheld]
    by_cases hkey : held.key = x.selection.key
    · -- the consumed grant, the execution and the later grant are in the order of their times
      have hconsumed := h.consumed_le hx
      have hlater := h.le_granted hx hgranted
      rw [if_pos (show (held.station, held.address) = x.selection.key from hkey)]
      by_cases hinstant : held.created = x.selection.created
      · rw [Option.filter_some_neg (by simpa using hinstant), if_pos ⟨hkey, by omega, by omega⟩]
      · rw [Option.filter_some, if_pos (bne_iff_ne.mpr hinstant), if_neg]
        rintro ⟨-, hc, hg⟩
        exact hinstant (hg.trans hc.symm)
    · rw [if_neg (show (held.station, held.address) ≠ x.selection.key from hkey),
        if_neg fun hall => hkey hall.1]
  · intro hnone
    rw [find?_step_release hnext hxt,
      if_pos (show (x.selection.station, x.selection.address) = x.selection.key from rfl)]
    -- what is stored stands, and nothing was granted since, so it is what was consumed
    refine Option.filter_eq_none_iff.mpr fun g hg => ?_
    have hstands : standing? x.selection.key s.journal = some g :=
      (h.chronicled.table x.selection.key).symm.trans hg
    rcases hx.granted_of_standing? hstands with ⟨u, hgranted⟩ | rfl
    · exact absurd (key_of_standing? hstands) (hnone u g hgranted)
    · simp
  · intro station address hne
    rw [find?_step_release hnext hxt, if_neg hne]

end Server

/-- The client of the sample site selects, executes and selects again at one instant. -/
def Sample.hasty : Server :=
  site.run (setUp ++ [select, execute, select, .pass 100])

/-- The execution of the hasty client. -/
def Sample.hastyExecution : Execution where
  time := 0
  connection := client
  message := command false
  selection := grant 0
  newer := hasty.journal.take 2
  older := hasty.journal.drop 4

namespace Server

/-- The hasty client loses its second selection by the release of the first one. -/
theorem sample_reselect_lost :
    Sample.hasty.selections.find? 1 100 = some (Sample.grant 0) ∧
      (Sample.hasty.step .work).selections.find? 1 100 = none := by
  have hvisited : Sample.hasty.Visited := Sample.visited _
  have hx : Sample.hastyExecution.IsIn Sample.hasty.journal := ⟨rfl, rfl, rfl, rfl, rfl, rfl⟩
  obtain ⟨t, e, hnext, hxt⟩ : ∃ t e, Sample.hasty.executor.next? Sample.hasty.now = some (t, e) ∧
      Sample.hastyExecution.IsReleasedBy t := ⟨_, _, rfl, rfl, rfl⟩
  obtain ⟨hleft, -, -⟩ := (delayed_release hvisited).2.2 _ t e hx hxt hnext
  have hgranted : ⟨0, .granted (Sample.grant 0)⟩ ∈ Sample.hastyExecution.newer :=
    List.mem_cons_of_mem _ List.mem_cons_self
  have hstored : Sample.hasty.selections.find? 1 100 = some (Sample.grant 0) := by decide +kernel
  exact ⟨hstored, (hleft 0 (Sample.grant 0) hgranted hstored).trans (if_pos ⟨rfl, rfl, rfl⟩)⟩

end Server

end Telecontrol
