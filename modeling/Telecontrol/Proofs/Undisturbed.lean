import Telecontrol.Proofs.Operate

/-! # Clients do not disturb each other

The live selection of a client is its own: no frame of another client and no event of another
connection touches it, and a select succeeds exactly when it would take no other client's selection
away.

Main statements: `Move.find?_of_other` (what another client's command does to a live selection),
`Server.frame_of_other` and `Server.clients_undisturbed`. -/

namespace Telecontrol

/-! ## Moves of another client -/

/-- A plain move leaves the selections alone. -/
theorem Move.selections_eq_of_plain {s s' : Server} (h : Move .plain s s') :
    s'.selections = s.selections := by
  cases h with
  | note | handOver | write | plant => rfl
  | defer => exact Server.selections_defer ..

/-- A command of another client leaves a live selection where it is. -/
theorem Move.find?_of_other {c : ConnectionId} {o : Originator} {s s' : Server}
    (h : Move (.command c o) s s') {station : CommonAddress} {address : ObjectAddress}
    {held : Selection} (hlive : s.selections.live? s.now station address = some held)
    (hother : ¬ (held.connection = c ∧ held.originator = o)) :
    s'.selections.find? station address = some held := by
  have hfind := (SelectionTable.live?_eq_some_iff.mp hlive).1
  cases h with
  | @grant _ c m _ _ _ _ _ _ _ _ hfree =>
    show (s.selections.replace (m.selection c s.now)).find? station address = some held
    rw [SelectionTable.find?_replace, if_neg]
    · exact hfind
    · -- a free point has no live selection of another client
      intro hk
      obtain ⟨rfl, rfl⟩ := Prod.mk.inj hk
      rw [SelectionTable.isTaken_iff.mpr ⟨held, hlive, hother⟩] at hfree
      cases hfree
  | @deactivate _ own h =>
    obtain ⟨g, hg, hgc, hgo⟩ := SelectionTable.isHeldBy_iff.mp h
    have hf := (SelectionTable.live?_eq_some_iff.mp hg).1
    rw [Server.deactivate_eq h hf]
    show (s.selections.remove own.station own.address).find? station address = some held
    rw [SelectionTable.find?_remove, if_neg]
    · exact hfind
    · -- the selection released is its sender's, so it is not this one
      intro hk
      obtain ⟨rfl, rfl⟩ := Prod.mk.inj hk
      rw [hlive] at hg
      obtain rfl := Option.some.inj hg
      exact hother ⟨hgc, hgo⟩
  | apply => exact hfind
  | conclude h =>
    rw [Server.concludeExecute_eq h.station]
    split
    · exact hfind
    · rw [Server.selections_defer]
      exact hfind

namespace Server

/-- Callbacks that **stay** at their points: they hand in no frames, report no events of connections
and do not stop the server. -/
def HooksStay (s : Server) : Prop := s.Hooked {Deed.plain}

variable {s : Server}

/-- The deeds of a frame whose callbacks stay: plain ones and its own command. -/
theorem scope_frame (c : ConnectionId) (o : Originator) :
    Deed.Scope {d | d = .plain ∨ d = .command c o} :=
  ⟨.inl rfl, fun d hd => by rcases hd with rfl | rfl <;> trivial⟩

/-- Callbacks that stay do nothing but plain deeds. -/
theorem HooksStay.hooked (h : s.HooksStay) (c : ConnectionId) (o : Originator) :
    s.Hooked {d | d = .plain ∨ d = .command c o} := by
  have hmono {a : Action} (ha : a.Within {Deed.plain}) :
      a.Within {d | d = .plain ∨ d = .command c o} := by
    cases a with
    | connection | inbound | stop => exact .inl ha
    | _ => trivial
  exact ⟨fun hp kind callback hc a ha => hmono (h.points hp kind callback hc a ha),
    fun hu a ha => hmono (h.unexpected hu a ha), fun ho a ha => hmono (h.octets ho a ha)⟩

/-- A frame of another client leaves a live selection where it is. -/
theorem frame_of_other (hs : s.Visited) (hstay : s.HooksStay) {c : ConnectionId} {f : WireFrame}
    {station : CommonAddress} {address : ObjectAddress} {held : Selection}
    (hlive : s.selections.live? s.now station address = some held)
    (hother : ¬ (held.connection = c ∧ held.originator = f.originator)) :
    (s.step (.frame c f)).selections.find? station address = some held := by
  have hscope := scope_frame c f.originator
  obtain ⟨hfind, hfresh⟩ := SelectionTable.live?_eq_some_iff.mp hlive
  -- neither the clock nor the timeout changes, so the selection stays live from move to move
  have hkeep (u : Server) (hu : Moves {d | d = .plain ∨ d = .command c f.originator} s u) :
      u.Chronicled ∧ u.now = s.now ∧ u.options = s.options ∧
        u.selections.find? station address = some held := by
    refine hu.induction (P := fun u => u.Chronicled ∧ u.now = s.now ∧ u.options = s.options ∧
      u.selections.find? station address = some held) (fun {v w d} hd hm ⟨hv, hnow, hopt, hf⟩ => ?_)
      ⟨hs.chronicled, rfl, rfl, hfind⟩
    refine ⟨hm.chronicled hv, ?_, hm.alters.options.trans hopt, ?_⟩
    · refine (hm.alters.now ?_).trans hnow
      rcases hd with rfl | rfl <;> nofun
    · have hvlive : v.selections.live? v.now station address = some held := by
        refine SelectionTable.live?_eq_some_iff.mpr ⟨hf, ?_⟩
        rw [SelectionTable.isExpired, hv.timeout, hopt, hnow, ← hs.chronicled.timeout]
        exact hfresh
      rcases hd with rfl | rfl
      · rw [hm.selections_eq_of_plain]
        exact hf
      · exact hm.find?_of_other hvlive hother
  have hmoves := passes_onFrame hscope c f (.inr rfl) s ⟨hs.wellFormed, hstay.hooked c f.originator⟩
  rw [show s.step (.frame c f) = Act.after (onFrame c f) s from outside_eq_after s _]
  exact (hkeep _ hmoves).2.2.2

/-- An event of another connection leaves a selection where it is. -/
theorem connection_of_other {c : ConnectionId} (e : ConnectionEvent) {station : CommonAddress}
    {address : ObjectAddress} {held : Selection}
    (hfind : s.selections.find? station address = some held) (hother : held.connection ≠ c) :
    (s.step (.connection c e)).selections.find? station address = some held := by
  show (s.onConnectionEvent c e).selections.find? station address = some held
  rw [onConnectionEvent_eq]
  show (if e = .closed then s.selections.removeConnection c
    else s.selections).find? station address = some held
  split
  · rw [SelectionTable.find?_removeConnection, hfind]
    exact Option.filter_some_pos (bne_iff_ne.mpr hother)
  · exact hfind

/-! ## Grants -/

/-- A new selection lives for its whole timeout. -/
theorem live?_grant (hs : s.Visited) (g : Selection) (hg : g.created = s.now) {now : Int}
    (hfrom : s.now ≤ now) (hto : now < s.now + s.options.selectTimeout) :
    (s.grant g).selections.live? now g.station g.address = some g := by
  have htimeout : (s.selections.replace g).timeout = s.options.selectTimeout :=
    hs.chronicled.timeout
  refine SelectionTable.live?_eq_some_iff.mpr ⟨?_, ?_⟩
  · show (s.selections.replace g).find? g.station g.address = some g
    rw [SelectionTable.find?_replace]
    exact if_pos rfl
  · show (s.selections.replace g).isExpired now g = false
    rw [SelectionTable.isExpired, htimeout, hg, decide_eq_false_iff_not]
    omega

/-- No select was ever rejected because its type cannot be selected. -/
theorem Visited.not_selectRejected (h : s.Visited) (address : ObjectAddress) (error : ServerError) :
    ∀ e ∈ s.journal, e.event ≠ .notice (.selectRejected address error) := by
  intro e he heq
  obtain ⟨newer, older, hj⟩ := List.append_of_mem he
  rcases h.recorded hj with hstart | ⟨_, after, before, -, -, hjust, -⟩
  · rw [heq] at hstart
    cases hstart
  · exact hjust.accepted (List.mem_append_right after (by rw [← heq]; exact List.mem_cons_self))

/-- **No client disturbs another, and grants are exact.** In every state that a run passes through,
also while callbacks run: a live selection is left as it is by every frame of another client whose
callbacks do not call back into the server, and by every event of another connection. A select of a
point in select-and-execute mode is confirmed positively exactly when no other client has a live
selection of the point, and its sender then holds the point for the whole timeout. No select is ever
rejected because of its type. -/
theorem clients_undisturbed (h : s.Visited) :
    (∀ (station : CommonAddress) (address : ObjectAddress) (held : Selection),
      s.selections.live? s.now station address = some held →
      (∀ (c : ConnectionId) (f : WireFrame), s.HooksStay →
        ¬ (held.connection = c ∧ held.originator = f.originator) →
        (s.step (.frame c f)).selections.find? station address = some held) ∧
      (∀ (c : ConnectionId) (e : ConnectionEvent), held.connection ≠ c →
        (s.step (.connection c e)).selections.find? station address = some held)) ∧
    (∀ (inlet : Inlet) (c : ConnectionId) (f : WireFrame) (m : Message) (station : StationId)
      (id : PointId) (p : Point),
      s.running = true → Message.ofFrame f = .ok m → m.cause = .activation → m.isSelect = true →
      s.commandTarget m = .ok (station, id, p) → p.mode = .selectAndExecute →
      ∃ (negative : Bool) (s' : Server), receive inlet c f s = .ok ⟨⟩ s' ∧
        s' = (if negative then s else s.grant (m.selection c s.now)).sendBack c
          (m.confirmation negative) ∧
        (negative = false ↔ ¬ ∃ held, s.selections.live? s.now m.station m.address = some held ∧
          ¬ (held.connection = c ∧ held.originator = m.originator)) ∧
        (negative = false → ∀ now, s.now ≤ now → now < s.now + s.options.selectTimeout →
          s'.selections.live? now m.station m.address = some (m.selection c s.now))) ∧
    (∀ (address : ObjectAddress) (error : ServerError), ∀ e ∈ s.journal,
      e.event ≠ .notice (.selectRejected address error)) := by
  refine ⟨fun station address held hlive => ⟨fun c f hstay hother => ?_, fun c e hother => ?_⟩,
    fun inlet c f m station id p hrun hf hact hsel ht hmode => ?_, h.not_selectRejected⟩
  · exact frame_of_other h hstay hlive hother
  · exact connection_of_other e (SelectionTable.live?_eq_some_iff.mp hlive).1 hother
  · have hst := station_ne_global h.wellFormed.global (commandTarget_eq_ok_iff.mp ht).2.1
    have htaken : s.selections.isTaken s.now (m.selection c s.now) = true ↔
        ∃ held, s.selections.live? s.now m.station m.address = some held ∧
          ¬ (held.connection = c ∧ held.originator = m.originator) := SelectionTable.isTaken_iff
    -- the answer is negative exactly when the point is taken
    refine ⟨s.selections.isTaken s.now (m.selection c s.now), _, ?_, rfl, ?_, ?_⟩
    · rw [receive_command hrun hf (.inl hact) ht, handleCommand_select hst hact hmode hsel]
      split
      · rename_i h'
        rw [h']
      · rename_i h'
        rw [Bool.not_eq_true] at h'
        rw [h']
    · rw [← htaken, Bool.not_eq_true]
    · intro hfree now hfrom hto
      rw [hfree]
      exact live?_grant h (m.selection c s.now) rfl hfrom hto

/-- At the sample site a second client selects in vain, and leaves. -/
theorem sample_select_refused :
    (Sample.selected.step (.frame ⟨2⟩ (Sample.command true).frame)).selections.find? 1 100 =
        some (Sample.grant 0) ∧
      (Sample.selected.step (.connection ⟨2⟩ .closed)).selections.find? 1 100 =
        some (Sample.grant 0) ∧
      receive onFrame ⟨2⟩ (Sample.command true).frame Sample.selected =
        .ok ⟨⟩ (Sample.selected.sendBack ⟨2⟩ ((Sample.command true).confirmation true)) := by
  have hvisited : Sample.selected.Visited := Sample.visited _
  have hundisturbed := clients_undisturbed hvisited
  have hstay : Sample.selected.HooksStay := by
    refine ⟨fun {id p} hp kind callback hc => ?_, nofun, fun {sent actions} ho => ?_⟩
    · -- the only point of the site has no callbacks
      match id, hp with
      | 0, hp =>
        obtain rfl := Option.some.inj hp
        cases kind <;> cases hc
      | _ + 1, hp => cases hp
    · cases sent <;> cases ho
  obtain ⟨hframe, hconnection⟩ := hundisturbed.1 1 100 (Sample.grant 0) rfl
  refine ⟨hframe _ _ hstay (by decide), hconnection _ _ (by decide), ?_⟩
  obtain ⟨negative, s', hreceive, hs', hfree, -⟩ := hundisturbed.2.1 onFrame ⟨2⟩
    (Sample.command true).frame (Sample.command true) 0 0 _ rfl rfl rfl rfl rfl rfl
  -- the selection of the first client is live, so the answer is negative
  have hnegative : negative = true := by
    rw [← Bool.not_eq_false]
    exact fun h => hfree.mp h ⟨Sample.grant 0, rfl, by decide⟩
  rw [hreceive, hs', hnegative]
  rfl

end Server

end Telecontrol
