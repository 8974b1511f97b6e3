import Telecontrol.Proofs.Reply

/-! # The handlers keep to the protocol

For each kind of frame, the handler that takes it puts out the protocol of the frame: rejections
first, then commands, where the receive callback of the point may put out data before its verdict,
then interrogations, reads and the clock.

Main statement: `Server.reply_protocol` (the protocol is what is put out, for every frame). -/

namespace Telecontrol

namespace Server

open Act

variable {s s' : Server} {inlet : Inlet} {c : ConnectionId} {f : WireFrame} {m : Message}
  {station : StationId} {id : PointId} {p : Point}

/-! ## Rejections -/

/-- A rejected message is nobody's business, and its verdict is negative. -/
theorem verdict_of_complaint {why : Rejection} (h : s.complaint? m = some why) :
    s.asked? c m = none ∧ s.verdict c m = .failure := by
  have hasked : s.asked? c m = none := by rw [asked?, h]; rfl
  refine ⟨hasked, ?_⟩
  rw [verdict, hasked, permits, h]
  rfl

/-- The application is told of a rejection once, and its callback puts nothing out. -/
theorem emits_tellRejected (why : Rejection) :
    (tellRejected inlet c f why).Emits {s.toldOf c f why} s := by
  intro hs
  refine emits_get_bind ?_ hs
  rw [toldOf]
  cases ha : s.callbacks.unexpected with
  | none => exact emits_pure _ rfl
  | some actions =>
    have hall : (performAll inlet none actions).Emits {[]} (s.note (.rejected c why f)) :=
      emits_performAll none (hs.unexpected ha) fun h => h.unexpected ha
    exact emits_set_bind (s.says_rejected c why f) hall

/-- What rejecting a frame puts out: the mirror and the word to the application. -/
theorem emits_reject (why : Rejection) :
    (reject inlet c f why).Emits
      {sentBack c (f.mirrorFor? why).toList ++ s.toldOf c f why} s := by
  rw [f.mirrorFor?_eq]
  unfold reject
  cases why.answerCause with
  | none => exact emits_tellRejected why
  | some cause =>
    refine emits_singleton_bind (emits_said (s.says_sendBack c (f.mirror cause)))
      fun _ u _ _ hy => ?_
    have htold : u.toldOf c f why = s.toldOf c f why := by rw [toldOf, toldOf, hy.callbacks]
    exact htold ▸ emits_tellRejected why

/-- What is foreseen for a message that is rejected. -/
theorem refused_mem_protocol (hf : Message.ofFrame f = .ok m) {why : Rejection}
    (h : s.complaint? m = some why) :
    sentBack c (s.confirmationsAs m .failure) ++
      (sentBack c (f.mirrorFor? why).toList ++ s.toldOf c f why) ∈ s.protocol c f := by
  have hrej : s.rejection? f = some why := by rw [rejection?, hf]; exact h
  have hmem := s.answer_mem_protocol c f
  rw [confirmations_eq hf, (verdict_of_complaint h).2, conclusion, hrej, complaints, hrej,
    List.append_assoc] at hmem
  exact hmem

/-- A message that is rejected is confirmed negatively, sent back and reported. -/
theorem emits_refuseCommand (hf : Message.ofFrame f = .ok m) {why : Rejection}
    (h : s.complaint? m = some why) :
    (refuseCommand inlet c m why).Emits (s.protocol c f) s := by
  have hconfirm : (modify (·.confirmAs c m .failure) : Act Unit).Emits
      {sentBack c (s.confirmationsAs m .failure)} s := emits_said (s.says_confirmAs c m .failure)
  refine (emits_singleton_bind hconfirm fun _ u _ _ hy => ?_).mono
    (Set.singleton_subset_iff.mpr (refused_mem_protocol hf h))
  have htold : u.toldOf c f why = s.toldOf c f why := by rw [toldOf, toldOf, hy.callbacks]
  rw [Message.frame_of_ofFrame hf]
  exact htold ▸ emits_reject why

/-- A message that wants a confirmation is confirmed as its verdict says. -/
theorem confirm_eq_confirmAs (hn : m.needsConfirmation = true) (negative : Bool) :
    s.confirm c m negative = s.confirmAs c m (if negative then .failure else .success) := by
  rw [confirmAs, hn]
  cases negative <;> rfl

/-- Refusing a message without confirming it, when it wants no confirmation. -/
theorem reject_eq_refuseCommand (hn : m.needsConfirmation = false) (why : Rejection) :
    reject inlet c m.frame why s = refuseCommand inlet c m why s := by
  have hconfirm : (fun u : Server => u.confirmAs c m .failure) = id := by
    funext u
    rw [confirmAs, hn]
    rfl
  rw [refuseCommand, hconfirm]
  rfl

/-- Refusing a message that wants a confirmation. -/
theorem confirm_reject_eq_refuseCommand (hn : m.needsConfirmation = true) (why : Rejection) :
    (do modify (·.confirm c m true); reject inlet c m.frame why : Act Unit) =
      refuseCommand inlet c m why := by
  have hconfirm : (fun u : Server => u.confirm c m true) = (·.confirmAs c m .failure) := by
    funext u
    exact confirm_eq_confirmAs hn true
  rw [refuseCommand, hconfirm]

/-! ## Commands -/

/-- Ending a selection on request puts nothing out. -/
theorem says_deactivate (s : Server) (held : Selection) : s.Says (s.deactivate held).1 [] := by
  rw [deactivate]
  split
  · cases s.selections.find? held.station held.address with
    | none => exact ⟨[], ⟨rfl, rfl, rfl, fun _ => rfl⟩, rfl⟩
    | some ended =>
      exact ⟨[⟨s.now, .ended ended .deactivated⟩], ⟨rfl, rfl, rfl, fun _ => rfl⟩, rfl⟩
  · exact .refl s

/-- Granting a selection puts nothing out. -/
theorem says_grant (s : Server) (g : Selection) : s.Says (s.grant g) [] :=
  ⟨[⟨s.now, .granted g⟩], ⟨rfl, rfl, rfl, fun _ => rfl⟩, rfl⟩

/-- Applying a command puts nothing out. -/
theorem says_applied (s : Server) (c : ConnectionId) (m : Message) (id : PointId) :
    s.Says (s.applied c m id) [] := by
  have hwrite : s.Says (s.modifyPoint id (·.apply s.now m)) [] :=
    s.says_modifyPoint id fun _ => rfl
  exact hwrite.trans (says_note _ rfl)

/-- A message that is for a point is of valid cause and not rejected. -/
structure IsCommandFor (s : Server) (m : Message) (station : StationId) (id : PointId)
    (p : Point) : Prop where
  kind : m.type.kind = .command
  accepted : s.refusal? m = none
  target : s.commandTarget m = .ok (station, id, p)

namespace IsCommandFor

variable (h : s.IsCommandFor m station id p)
include h

/-- A message that is for a point leaves nothing to complain about. -/
theorem complaint? : s.complaint? m = none := by
  rw [Server.complaint?, h.accepted, h.kind, h.target]

/-- The receive callback of the point is asked when the command is applied. -/
theorem asked? : s.asked? c m =
    if s.applies c m p then p.callbacks.receive.map (·.answer) else none := by
  rw [Server.asked?, h.complaint?, h.kind, h.target]
  rfl

/-- A deactivation is permitted to the holder of the selection, a select to whom none is in the way,
and an execute when it is applied. -/
theorem permits : s.permits c m =
    if m.cause = .deactivation then s.selections.isHeldBy s.now (m.selection c s.now)
    else if m.isSelect then
      p.mode == .selectAndExecute && !s.selections.isTaken s.now (m.selection c s.now)
    else s.applies c m p := by
  rw [Server.permits, h.complaint?, h.kind, h.target]
  rfl

/-- A message that is for a point finds the point. -/
theorem point? : s.point? id = some p :=
  (target_eq_ok_iff.mp (commandTarget_eq_ok_iff.mp h.target).2.1).2.2

/-- A command that is not applied is decided by the server, which says nothing yet. -/
theorem arbitrate_of_not_applies (happ : s.applies c m p = false) :
    ∃ s', arbitrate inlet c m id p s = .ok (s.verdict c m) s' ∧ s.Says s' [] := by
  have hverdict : s.verdict c m = if s.permits c m then .success else .failure := by
    rw [verdict, h.asked?, happ]; rfl
  rw [hverdict, h.permits]
  -- a deactivation first, then a select in either mode, and an execute that is refused
  by_cases hd : m.cause = .deactivation
  · refine ⟨_, ?_, s.says_deactivate (m.selection c s.now)⟩
    rw [arbitrate_deactivation hd, if_pos hd, deactivate]
    split <;> rfl
  · rw [if_neg hd]
    cases hsel : m.isSelect with
    | true =>
      cases hmode : p.mode with
      | direct => exact ⟨s, arbitrate_direct_select hd hmode hsel, .refl s⟩
      | selectAndExecute =>
        rw [arbitrate_select hd hmode hsel]
        cases s.selections.isTaken s.now (m.selection c s.now) with
        | true => exact ⟨s, rfl, .refl s⟩
        | false => exact ⟨_, rfl, s.says_grant _⟩
    | false =>
      have hheld : p.mode = .selectAndExecute ∧
          s.selections.isHeldBy s.now (m.selection c s.now) = false := by
        rw [applies, hsel, bne_iff_ne.mpr hd] at happ
        cases hmode : p.mode <;> simp_all
      -- an execute is refused only by selection, and only when the client holds none
      refine ⟨s, ?_, .refl s⟩
      rw [arbitrate_refused hd hheld.1 hsel hheld.2, happ]
      rfl

/-- A command that is applied waits for the answer of the receive callback, if there is one. -/
theorem arbitrate_of_applies (happ : s.applies c m p = true) :
    arbitrate inlet c m id p s = askReceiver inlet m id p (p.apply s.now m) (s.applied c m id) := by
  simp only [applies, Bool.and_eq_true, bne_iff_ne, Bool.not_eq_true', Bool.or_eq_true,
    beq_iff_eq] at happ
  obtain ⟨⟨hd, hsel⟩, hheld⟩ := happ
  rw [arbitrate_apply hd hsel fun hmode => hheld.resolve_left (by rw [hmode]; decide),
    applyCommand_eq h.point?]

omit h in
/-- The receive callback decides about a command that is applied. -/
theorem answer_of_askReceiver {before after : Point} {answer : Answer}
    (hok : askReceiver inlet m id before after s = .ok answer s') :
    answer = (after.callbacks.receive.map (·.answer)).getD .success := by
  rw [askReceiver] at hok
  cases hrec : after.callbacks.receive with
  | none =>
    rw [hrec] at hok
    cases hok
    rfl
  | some callback =>
    rw [hrec] at hok
    obtain ⟨_, _, _, hok⟩ := bind_eq_ok hok
    obtain ⟨_, _, _, hok⟩ := bind_eq_ok hok
    cases hok
    rfl

/-- A command that is applied is permitted. -/
theorem permits_of_applies (happ : s.applies c m p = true) : s.permits c m = true := by
  have hparts := happ
  simp only [applies, Bool.and_eq_true, bne_iff_ne, Bool.not_eq_true'] at hparts
  obtain ⟨⟨hd, hsel⟩, -⟩ := hparts
  rw [h.permits, if_neg hd, hsel]
  exact happ

/-- A command that is weighed gets its verdict. -/
theorem answer_of_arbitrate {answer : Answer}
    (hok : arbitrate inlet c m id p s = .ok answer s') : answer = s.verdict c m := by
  cases happ : s.applies c m p with
  | false =>
    obtain ⟨_, hu, -⟩ := h.arbitrate_of_not_applies happ
    cases hok.symm.trans hu
    rfl
  | true =>
    rw [h.arbitrate_of_applies happ] at hok
    rw [answer_of_askReceiver hok, verdict, h.asked?, happ, h.permits_of_applies happ]
    rfl

omit h in
/-- What is put out while the receive callback is asked: data. -/
theorem emits_askReceiver {u : Server} {before after : Point} {callback : Callback}
    (hrec : after.callbacks.receive = some callback)
    (hstay : ∀ a ∈ callback.actions, a.Within {Deed.plain})
    (hret : u.HooksReturn → ∀ a ∈ callback.actions, a.Returns) :
    (askReceiver inlet m id before after).Emits .data u := by
  rw [askReceiver, hrec]
  refine emits_data_bind (emits_aside (.of_nil (says_note _ rfl))) fun _ v _ _ hy => ?_
  exact emits_data_bind (emits_performAll (some id) hstay fun hr => hret (hy.hooksReturn_iff.mp hr))
    fun _ _ _ _ _ => emits_pure _ Script.nil_mem_data

/-- What is put out before the verdict on a command: data, if a callback is asked. -/
theorem emits_arbitrate :
    (arbitrate inlet c m id p).Emits
      {w | w ∈ Script.data ∧ (w ≠ [] → (s.asked? c m).isSome)} s := by
  cases happ : s.applies c m p with
  | false =>
    obtain ⟨s', hok, hsaid⟩ := h.arbitrate_of_not_applies happ
    exact emits_of_ok hok hsaid ⟨Script.nil_mem_data, fun hne => absurd rfl hne⟩
  | true =>
    have hact : arbitrate inlet c m id p s =
        (set (s.applied c m id) >>= fun _ =>
          askReceiver inlet m id p (p.apply s.now m) : Act Answer) s := h.arbitrate_of_applies happ
    have hsaid := s.says_applied c m id
    cases hrec : p.callbacks.receive with
    | none =>
      have hask : askReceiver inlet m id p (p.apply s.now m) = pure .success := by
        rw [askReceiver, show (p.apply s.now m).callbacks.receive = none from hrec]
      rw [hask] at hact
      exact emits_of_ok hact hsaid ⟨Script.nil_mem_data, fun hne => absurd rfl hne⟩
    -- the callback is asked, so data may come before the verdict
    | some callback =>
      have hasked : (s.asked? c m).isSome := by rw [h.asked?, happ, hrec]; rfl
      refine Emits.mono (L := .data) (fun hs => ?_) fun w hw => ⟨hw, fun _ => hasked⟩
      have hset : (set (s.applied c m id) : Act PUnit).Emits .data s :=
        emits_of_ok rfl hsaid Script.nil_mem_data
      refine (emits_data_bind hset fun _ u _ _ hy => ?_).of_eq hact hs
      exact emits_askReceiver hrec (hs.points h.point? .receive callback hrec)
        fun hr => (hy.hooksReturn_iff.mp hr).points h.point? .receive callback hrec

end IsCommandFor

/-- What settling a command puts out: its confirmation, and the termination of an execute by
selection. -/
theorem says_settleCommand (s : Server) (c : ConnectionId) (m : Message) (station : StationId)
    (p : Point) (answer : Answer) :
    s.Says (s.settleCommand c m station p answer) (sentBack c (s.confirmationsAs m answer) ++
      if answer = .success ∧ m.isExecute = true ∧ p.mode = .selectAndExecute then
        sentBack c (s.copies m.termination)
      else []) := by
  -- a return is a task for later, so it says nothing now
  have hreturn (u : Server) (related : Option Handle) :
      u.Says (related.elim u fun h => u.defer 0 (.autoReturn h)) [] := by
    cases related with
    | none => exact .refl u
    | some h => exact u.says_defer 0 _
  have hconclude (u : Server) :
      u.Says (u.concludeExecute c m) (sentBack c (u.copies m.termination)) := by
    rw [concludeExecute]
    have hterm := u.says_reply c m.termination
    split
    · exact hterm
    · exact hterm.before_nil (says_defer _ _ _)
  have hconfirm := s.says_confirmAs c m answer
  rw [settleCommand]
  refine Says.before_nil ?_ (hreturn _ _)
  by_cases hexec : answer = .success ∧ m.isExecute = true ∧ p.mode = .selectAndExecute
  · -- the copies are for the stations of now, which are those of before the confirmation
    rw [if_pos hexec, if_pos (by simp [hexec])]
    rw [← hconfirm.copies_eq]
    exact hconfirm.trans (hconclude _)
  · rw [if_neg hexec, if_neg (by simpa [and_assoc] using hexec), List.append_nil]
    exact hconfirm

/-- What a command for a point ends with. -/
theorem conclusion_of_command (hf : Message.ofFrame f = .ok m)
    (h : s.IsCommandFor m station id p) :
    sentBack c (s.conclusion c f) =
      if s.verdict c m = .success ∧ m.isExecute = true ∧ p.mode = .selectAndExecute then
        sentBack c (s.copies m.termination)
      else [] := by
  have hrej : s.rejection? f = none := by rw [rejection?, hf]; exact h.complaint?
  have hcond : (s.verdict c m = .success ∧ s.concludes m = true) ↔
      s.verdict c m = .success ∧ m.isExecute = true ∧ p.mode = .selectAndExecute := by
    rw [concludes, h.kind, h.target, Message.isExecute]
    simp only [Bool.and_eq_true, beq_iff_eq]
    tauto
  rw [conclusion, hrej, hf, Message.termination_eq hf]
  simp only [hcond]
  split <;> rfl

/-- A command for a point is answered by the protocol. -/
theorem emits_handleCommand (hf : Message.ofFrame f = .ok m)
    (h : s.IsCommandFor m station id p) :
    (handleCommand inlet c m station id p).Emits (s.protocol c f) s := by
  have hrej : s.rejection? f = none := by rw [rejection?, hf]; exact h.complaint?
  refine (emits_bind (M := {sentBack c (s.confirmations c f) ++ sentBack c (s.conclusion c f)})
    h.emits_arbitrate (Set.singleton_nonempty _) fun answer u _ hok hy => ?_).mono ?_
  · obtain rfl := h.answer_of_arbitrate hok
    have hsettle := u.says_settleCommand c m station p (s.verdict c m)
    rw [hy.confirmationsAs_eq, hy.copies_eq, ← confirmations_eq hf,
      ← conclusion_of_command hf h] at hsettle
    exact emits_modify hsettle rfl
  · rintro _ ⟨early, ⟨hdata, hearly⟩, _, rfl, rfl⟩
    refine ⟨early, hdata, [], Script.nil_mem_data, fun hne => ?_, fun _ => hrej, ?_⟩
    · obtain ⟨answer, hanswer⟩ := Option.isSome_iff_exists.mp (hearly hne)
      exact ⟨m, answer, hf, hanswer⟩
    · rw [complaints, hrej]
      simp

/-! ## Interrogations, reading and the clock -/

/-- A message of a controlled type that is not refused has a valid cause. -/
theorem hasValidCause_of_accepted (hr : s.refusal? m = none) (hc : m.isControl = true) :
    m.hasValidCause = true := by
  cases hv : m.hasValidCause with
  | true => rfl
  | false =>
    rw [refusal?, hc, hv] at hr
    cases hr

/-- What is foreseen for a message that is accepted and about which nobody is asked. -/
theorem accepted_parts (hf : Message.ofFrame f = .ok m) (h : s.complaint? m = none)
    (hkind : m.type.kind = .interrogation ∨ m.type.kind = .counters ∨ m.type.kind = .read) :
    s.rejection? f = none ∧ s.confirmations c f = s.confirmationsAs m .success ∧
      s.conclusion c f = if s.concludes m then s.copies m.termination else [] := by
  have hrej : s.rejection? f = none := by rw [rejection?, hf]; exact h
  have hverdict : s.verdict c m = .success := by
    rw [verdict, asked?, permits, h]
    rcases hkind with hk | hk | hk <;> rw [hk] <;> rfl
  refine ⟨hrej, by rw [confirmations_eq hf, hverdict], ?_⟩
  rw [conclusion, hrej, hf, Message.termination_eq hf]
  simp only [hverdict, true_and]

/-- An interrogation that is carried out: its confirmation, the data and its termination. -/
theorem emits_answerInterrogation (hf : Message.ofFrame f = .ok m) (h : s.complaint? m = none)
    (hkind : m.type.kind = .interrogation ∨ m.type.kind = .counters)
    (hact : m.cause = .activation) (cause : Cause) :
    (answerInterrogation inlet c m cause).Emits (s.protocol c f) s := by
  have hn : m.needsConfirmation = true := by rw [Message.needsConfirmation, hact]; rfl
  obtain ⟨hrej, hconf, hconc⟩ := accepted_parts (c := c) hf h
    (hkind.imp_right fun hk => .inl hk)
  have hends : s.concludes m = true := by
    rw [concludes, hact]
    rcases hkind with hk | hk <;> rw [hk] <;> rfl
  rw [hends, if_pos rfl] at hconc
  -- the confirmation comes first, and the hooks that are called after it put out data only
  have hfirst : (modify (·.confirm c m false) : Act Unit).Emits
      {sentBack c (s.confirmations c f)} s := by
    refine emits_said ?_
    rw [confirm_eq_confirmAs hn, hconf]
    exact s.says_confirmAs c m _
  refine (emits_bind (M := Script.data.andThen {sentBack c (s.conclusion c f)}) hfirst
    ⟨_, [], Script.nil_mem_data, _, rfl, rfl⟩ fun _ u _ _ hy => ?_).mono ?_
  · refine emits_bind (emits_data_bind (emits_interrogate cause m.station (some c))
      fun _ _ _ _ _ => emits_pure _ Script.nil_mem_data) (Set.singleton_nonempty _)
      fun _ v _ _ hy' => emits_said ?_
    rw [hconc, ← hy.copies_eq, ← hy'.copies_eq]
    exact v.says_reply c _
  · -- data after the confirmation is allowed, since the frame is not rejected
    rintro _ ⟨_, rfl, _, ⟨late, hlate, _, rfl, rfl⟩, rfl⟩
    rw [← List.append_assoc]
    exact data_mem_protocol hrej hlate

/-- An interrogation of a group that does not exist. -/
theorem emits_refuseGroup (hf : Message.ofFrame f = .ok m)
    (h : s.complaint? m = some .unimplementedGroup) (hn : m.needsConfirmation = true) :
    (refuseGroup inlet c m).Emits (s.protocol c f) s := by
  rw [refuseGroup, confirm_reject_eq_refuseCommand hn]
  exact emits_refuseCommand hf h

/-- A general interrogation keeps to the protocol. -/
theorem emits_onInterrogation (hf : Message.ofFrame f = .ok m) (hr : s.refusal? m = none)
    (hty : m.type = .C_IC_NA_1) : (onInterrogation inlet c m).Emits (s.protocol c f) s := by
  have hkind : m.type.kind = .interrogation := by rw [hty]; rfl
  have hvalid := hasValidCause_of_accepted hr (by rw [Message.isControl, hty]; rfl)
  have hn : m.needsConfirmation = true := by
    rw [Message.hasValidCause, hty] at hvalid
    exact hvalid
  have hcomplaint : s.complaint? m =
      if m.cause ≠ .deactivation ∧ m.qualifier ≠ stationInterrogation then
        some .unimplementedGroup else none := by rw [complaint?, hr, hkind]
  rw [onInterrogation]
  split
  · rename_i hd
    rw [if_neg fun hne => hne.1 hd] at hcomplaint
    obtain ⟨hrej, hconf, hconc⟩ := accepted_parts (c := c) hf hcomplaint (.inl hkind)
    have hends : s.concludes m = false := by rw [concludes, hd]; rfl
    rw [hends] at hconc
    have hsaid : s.Says (s.confirm c m false) (sentBack c (s.confirmations c f)) := by
      rw [confirm_eq_confirmAs hn, hconf]
      exact s.says_confirmAs c m _
    -- a deactivation has nothing to interrupt and ends with its confirmation
    have hmem := s.answer_mem_protocol c f
    rw [hconc, complaints, hrej] at hmem
    exact emits_modify hsaid (by simpa [sentBack] using hmem)
  · rename_i hd
    split
    · rename_i hq
      rw [if_pos ⟨hd, hq⟩] at hcomplaint
      exact emits_refuseGroup hf hcomplaint hn
    · rename_i hq
      rw [if_neg fun hne => hq hne.2] at hcomplaint
      refine emits_answerInterrogation hf hcomplaint (.inl hkind) ?_ _
      simpa [Message.needsConfirmation, hd] using hn

/-- A counter interrogation keeps to the protocol. -/
theorem emits_onCounterInterrogation (hf : Message.ofFrame f = .ok m) (hr : s.refusal? m = none)
    (hty : m.type = .C_CI_NA_1) :
    (onCounterInterrogation inlet c m).Emits (s.protocol c f) s := by
  have hkind : m.type.kind = .counters := by rw [hty]; rfl
  have hvalid := hasValidCause_of_accepted hr (by rw [Message.isControl, hty]; rfl)
  have hact : m.cause = .activation := by
    rw [Message.hasValidCause, hty] at hvalid
    exact beq_iff_eq.mp hvalid
  have hcomplaint : s.complaint? m =
      if m.qualifier &&& counterRequestMask ≠ generalCounterRequest then
        some .unimplementedGroup else none := by rw [complaint?, hr, hkind]
  rw [onCounterInterrogation]
  split
  · rename_i hq
    rw [if_pos hq] at hcomplaint
    exact emits_refuseGroup hf hcomplaint (by rw [Message.needsConfirmation, hact]; rfl)
  · rename_i hq
    rw [if_neg hq] at hcomplaint
    exact emits_answerInterrogation hf hcomplaint (.inr hkind) hact _

/-- A read command keeps to the protocol. -/
theorem emits_onRead (hf : Message.ofFrame f = .ok m) (hr : s.refusal? m = none)
    (hty : m.type = .C_RD_NA_1) : (onRead inlet c m).Emits (s.protocol c f) s := by
  have hkind : m.type.kind = .read := by rw [hty]; rfl
  have hvalid := hasValidCause_of_accepted hr (by rw [Message.isControl, hty]; rfl)
  have hcause : m.cause = .request := by
    rw [Message.hasValidCause, hty] at hvalid
    exact beq_iff_eq.mp hvalid
  -- a request is not confirmed, whatever becomes of it
  have hunconfirmed (answer : Answer) : s.confirmationsAs m answer = [] := by
    rw [confirmationsAs, Message.needsConfirmation, hcause]
    simp
  have hreject {why : Rejection} (h : s.complaint? m = some why) :
      (reject inlet c m.frame why).Emits (s.protocol c f) s := by
    have hmem := refused_mem_protocol (c := c) hf h
    rw [hunconfirmed] at hmem
    rw [Message.frame_of_ofFrame hf]
    exact (emits_reject why).mono (Set.singleton_subset_iff.mpr hmem)
  refine emits_get_bind ?_
  cases ht : s.target m with
  | error why => exact hreject (by rw [complaint?, hr, hkind, ht])
  | ok found =>
    obtain ⟨station, id, p⟩ := found
    dsimp only
    split
    · rename_i hread
      have hnone : s.complaint? m = none := by
        rw [complaint?, hr, hkind, ht]
        exact if_pos hread
      obtain ⟨hrej, hconf, hconc⟩ := accepted_parts (c := c) hf hnone (.inr (.inr hkind))
      have hends : s.concludes m = false := by rw [concludes, hcause]; rfl
      rw [hends] at hconc
      refine (emits_data_bind (emits_call .beforeRead id) fun _ u _ _ _ =>
        emits_aside ?_).mono fun w hw => ?_
      · have hsend := u.aside_transmitPoint id .request (some c)
        split
        · rename_i v e hv
          rw [hv] at hsend
          exact hsend.trans (.of_nil (v.says_report _))
        · rename_i v _ _ hv
          rw [hv] at hsend
          exact hsend
      · have hmem := data_mem_protocol (c := c) hrej hw
        rw [hconf, hunconfirmed, hconc] at hmem
        simpa [sentBack] using hmem
    · rename_i hread
      exact hreject (by rw [complaint?, hr, hkind, ht]; exact if_neg hread)

/-- The verdict on a clock synchronisation is what setting the clock answers. -/
theorem verdict_of_clock (hkind : m.type.kind = .clock) (h : s.complaint? m = none) :
    s.verdict c m = (s.setClock c m).2 := by
  rw [verdict, asked?, permits, h, hkind, setClock]
  cases m.time with
  | none => rfl
  | some time => cases s.callbacks.clock <;> rfl

/-- A clock command keeps to the protocol. -/
theorem emits_onClock (hf : Message.ofFrame f = .ok m) (hr : s.refusal? m = none)
    (hty : m.type = .C_CS_NA_1) : (onClock c m).Emits (s.protocol c f) s := by
  have hkind : m.type.kind = .clock := by rw [hty]; rfl
  have hnone : s.complaint? m = none := by rw [complaint?, hr, hkind]
  have hrej : s.rejection? f = none := by rw [rejection?, hf]; exact hnone
  have hset : s.Says (s.setClock c m).1 [] := by
    rw [setClock]
    split
    · exact .refl s
    · split
      · exact .refl s
      · exact s.says_note rfl
  have hsaid := hset.after_nil (says_confirmAs _ c m (s.setClock c m).2)
  have hconf : (s.setClock c m).1.confirmationsAs m (s.setClock c m).2 = s.confirmations c f := by
    obtain ⟨_, hy, _⟩ := hset
    rw [hy.confirmationsAs_eq, confirmations_eq hf, verdict_of_clock hkind hnone]
  -- a clock command is never concluded
  have hconc : s.conclusion c f = [] := by
    have hends : s.concludes m = false := by rw [concludes, hkind]; exact Bool.and_false _
    rw [conclusion, hrej, hf]
    exact if_neg fun h => by rw [hends] at h; cases h.2
  have hmem := s.answer_mem_protocol c f
  rw [hconc, complaints, hrej] at hmem
  rw [hconf] at hsaid
  exact emits_modify hsaid (by simpa [sentBack] using hmem)

/-- A command keeps to the protocol. -/
theorem emits_onCommand (hf : Message.ofFrame f = .ok m) (hr : s.refusal? m = none)
    (hkind : m.type.kind = .command) : (onCommand inlet c m).Emits (s.protocol c f) s := by
  have heq := onCommand_eq inlet c m s
  cases ht : s.commandTarget m with
  | error why =>
    rw [ht] at heq
    have hcomplaint : s.complaint? m = some why := by rw [complaint?, hr, hkind, ht]
    exact (emits_refuseCommand hf hcomplaint).of_eq heq
  | ok found =>
    obtain ⟨station, id, p⟩ := found
    rw [ht] at heq
    exact (emits_handleCommand hf ⟨hkind, hr, ht⟩).of_eq heq

/-! ## Every frame -/

/-- A message that is not refused keeps to the protocol, whatever its kind is. -/
theorem emits_dispatch (hf : Message.ofFrame f = .ok m) (hr : s.refusal? m = none) :
    (dispatch inlet c m).Emits (s.protocol c f) s := by
  rw [dispatch]
  split
  · rename_i h; exact emits_onInterrogation hf hr h
  · rename_i h; exact emits_onCounterInterrogation hf hr h
  · rename_i h; exact emits_onRead hf hr h
  · rename_i h; exact emits_onClock hf hr h
  · refine emits_onCommand hf hr ?_
    unfold TypeId.kind
    split <;> first | contradiction | rfl

/-- A frame that reaches a running server is answered by the protocol. -/
theorem emits_receive (hrun : s.running = true) :
    (receive inlet c f).Emits (s.protocol c f) s := by
  refine emits_get_bind ?_
  rw [if_pos hrun]
  cases hf : Message.ofFrame f with
  -- a frame that is no message is sent back with its cause
  | error why =>
    have hrej : s.rejection? f = some why := by rw [rejection?, hf]
    have hmem := s.answer_mem_protocol c f
    rw [confirmations, hf, conclusion, hrej, complaints, hrej] at hmem
    exact (emits_reject why).mono (Set.singleton_subset_iff.mpr hmem)
  | ok m =>
    dsimp only
    cases hr : s.refusal? m with
    | none => exact emits_dispatch hf hr
    -- refused, with a negative confirmation if the message wants one
    | some why =>
      have hcomplaint : s.complaint? m = some why := by rw [complaint?, hr]
      have hrefuse : (refuseCommand inlet c m why).Emits (s.protocol c f) s :=
        emits_refuseCommand hf hcomplaint
      obtain rfl := Message.frame_of_ofFrame hf
      dsimp only
      split
      · rename_i hn
        exact hrefuse.of_eq (congrFun (confirm_reject_eq_refuseCommand hn why) s)
      · rename_i hn
        exact hrefuse.of_eq (reject_eq_refuseCommand (Bool.not_eq_true _ ▸ hn) why)

/-- **The reply protocol.** Whatever frame reaches a running server whose callbacks stay at their
points, what is put out for it is its protocol: the confirmation round, then data, then the
termination round or the negative mirror, and the application is told once of a rejection. A
callback that gives up leaves a beginning of that, and no other callback does. All that goes back
goes to the sender and repeats its frame, and a round for all stations is in ascending order. -/
theorem reply_protocol (hrun : s.running = true) (hstay : s.HooksStay) (c : ConnectionId)
    (f : WireFrame) :
    (∃ new, ((onFrame c f).after s).journal = new ++ s.journal ∧
      ∃ w ∈ s.protocol c f, outputs new <+: w ∧ ((onFrame c f).Completes s → outputs new = w)) ∧
    (s.HooksReturn → (onFrame c f).Completes s) ∧
    (∀ g ∈ s.confirmations c f ++ s.conclusion c f, g.Repeats f) ∧
    s.plant.roster.keys.Pairwise (· < ·) := by
  have hemits : (onFrame c f).Emits (s.protocol c f) s := emits_receive hrun
  obtain ⟨new, hy, hout, hret⟩ := hemits hstay
  refine ⟨⟨new, hy.journal, hout⟩, hret, fun g hg => repeats_of_mem_answer hg, ?_⟩
  exact List.pairwise_map.mpr s.plant.roster.ascending

/-- At the sample site an execute by selection is confirmed and terminated. -/
theorem sample_execute_replied :
    (Sample.selected.confirmations Sample.client (Sample.command false).frame =
        [{ typeCode := 45, causeCode := 7, station := 1, originator := 1,
           objects := [{ address := 100 }] }] ∧
      Sample.selected.conclusion Sample.client (Sample.command false).frame =
        [{ typeCode := 45, causeCode := 10, station := 1, originator := 1,
           objects := [{ address := 100 }] }]) ∧
    ∃ new, ((onFrame Sample.client (Sample.command false).frame).after Sample.selected).journal =
        new ++ Sample.selected.journal ∧
      outputs new ∈ Sample.selected.protocol Sample.client (Sample.command false).frame ∧
      outputs new = sentBack Sample.client
        (Sample.selected.confirmations Sample.client (Sample.command false).frame ++
          Sample.selected.conclusion Sample.client (Sample.command false).frame) := by
  -- the only point of the sample site has no callbacks
  have hpoints {id : PointId} {p : Point} (hp : Sample.selected.point? id = some p)
      (kind : PointCallback) : p.callbacks.get? kind = none := by
    match id, hp with
    | 0, hp =>
      obtain rfl := Option.some.inj hp
      cases kind <;> rfl
    | _ + 1, hp => cases hp
  have hstay : Sample.selected.HooksStay := by
    refine ⟨fun hp kind callback hc => ?_, nofun, fun {sent actions} ho => ?_⟩
    · rw [hpoints hp kind] at hc
      cases hc
    · cases sent <;> cases ho
  have hreturn : Sample.selected.HooksReturn := by
    refine ⟨fun hp kind callback hc => ?_, nofun⟩
    rw [hpoints hp kind] at hc
    cases hc
  obtain ⟨⟨new, hjournal, w, hw, -, hdone⟩, hcompletes, -⟩ :=
    reply_protocol rfl hstay Sample.client (Sample.command false).frame
  have hout : outputs Sample.selected.journal ++ outputs new =
      outputs Sample.selected.journal ++ sentBack Sample.client
        (Sample.selected.confirmations Sample.client (Sample.command false).frame ++
          Sample.selected.conclusion Sample.client (Sample.command false).frame) := by
    rw [← outputs_append, ← hjournal]
    rfl
  exact ⟨⟨rfl, rfl⟩, new, hjournal, hdone (hcompletes hreturn) ▸ hw, List.append_cancel_left hout⟩

end Server

end Telecontrol
