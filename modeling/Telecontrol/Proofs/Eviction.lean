import Telecontrol.Proofs.History

/-! # When expired selections are dropped

A selection that has expired stays stored until a sweep drops it or another one takes its place.
Whether and when the sweep comes is not noticed by those who select points and ask for selections:
an expired selection is in nobody's way and is nobody's any more.

Two tables **agree** when their live selections are the same, whatever else is stored in them. Every
call keeps the agreement, and a sweep agrees with doing nothing.

Main statements: `SelectionTable.Clocked.observations_eq` (sweeps may be left out of a sequence of
calls), `SelectionTable.Clocked.stays` (what is not displaced and has not expired stays) and
`SelectionTable.expiry_unnoticed`. -/

namespace Telecontrol

namespace SelectionTable

/-! ## Live selections -/

section Live

variable {t t' : SelectionTable} {now : Int} {station : CommonAddress} {address : ObjectAddress}

/-- What has expired stays expired. -/
theorem isExpired_mono {now' : Int} (h : now ≤ now') {g : Selection}
    (hg : t.isExpired now g = true) : t.isExpired now' g = true := by
  rw [isExpired, decide_eq_true_eq] at hg ⊢
  omega

/-- Only the timeout says which selections live. -/
theorem isLive_congr (h : t'.timeout = t.timeout) (now : Int) : t'.isLive now = t.isLive now := by
  funext g
  rw [isLive, isLive, isExpired, isExpired, h]

/-- After a selection was put in, it is what is live at its point while it lasts. -/
theorem live?_replace (s : Selection) :
    (t.replace s).live? now station address =
      if (station, address) = s.key then (some s).filter (t.isLive now)
      else t.live? now station address := by
  rw [live?, find?_replace]
  split <;> rfl

/-- After a selection was removed nothing is live at its point. -/
theorem live?_remove (station' : CommonAddress) (address' : ObjectAddress) :
    (t.remove station' address').live? now station address =
      if (station, address) = (station', address') then none
      else t.live? now station address := by
  rw [live?, find?_remove]
  split <;> rfl

/-- After a selection of an instant was removed the one that is live at its point is of another
instant. -/
theorem live?_removeIf (station' : CommonAddress) (address' : ObjectAddress) (created : Int) :
    (t.removeIf station' address' created).live? now station address =
      if (station, address) = (station', address') then
        (t.live? now station address).filter fun s => s.created != created
      else t.live? now station address := by
  have hlive : (t.removeIf station' address' created).isLive now = t.isLive now :=
    isLive_congr (by rw [removeIf]; split <;> rfl) now
  rw [live?, hlive, find?_removeIf]
  -- asking for the age and then for the time of creation is the same as the other way round
  split
  · rw [live?, Option.filter_filter, Option.filter_filter]
    exact congrArg (Option.filter · _) (funext fun s => Bool.and_comm ..)
  · rfl

/-- After a connection was removed what is live is held by others. -/
theorem live?_removeConnection (connection : ConnectionId) :
    (t.removeConnection connection).live? now station address =
      (t.live? now station address).filter fun s => s.connection != connection := by
  rw [live?, find?_removeConnection, live?, Option.filter_filter, Option.filter_filter]
  exact congrArg (Option.filter · _) (funext fun s => Bool.and_comm ..)

/-- Dropping what has expired leaves what lives. -/
theorem live?_sweep : (t.sweep now).live? now station address = t.live? now station address := by
  rw [live?, find?_sweep, live?, Option.filter_filter]
  exact congrArg (Option.filter · _) (funext fun s => Bool.and_self _)

/-- Of what lives now, some lives later, and nothing else. -/
theorem live?_later (ms : Nat) :
    t.live? (now + ms) station address =
      (t.live? now station address).filter (t.isLive (now + ms)) := by
  have hmono (g : Selection) :
      (t.isLive now g && t.isLive (now + ms) g) = t.isLive (now + ms) g := by
    cases hlive : t.isLive (now + ms) g with
    | false => exact Bool.and_false _
    | true =>
      rw [Bool.and_true, isLive, Bool.not_eq_true', Bool.eq_false_iff]
      intro hexp
      rw [isLive, isExpired_mono (by omega) hexp] at hlive
      cases hlive
  rw [live?, live?, Option.filter_filter]
  exact congrArg (Option.filter · _) (funext fun g => (hmono g).symm)

/-- The live selections are those that a sweep leaves. -/
theorem activeCount_eq_size (t : SelectionTable) (now : Int) :
    t.activeCount now = (t.sweep now).entries.size := by
  rw [activeCount, Table.values, List.filter_map, List.length_map]
  rfl

end Live

/-! ## Calls -/

/-- A **call** to a table of selections. -/
inductive Call where
  | add (wanted : Selection)
  | replace (wanted : Selection)
  | remove (station : CommonAddress) (address : ObjectAddress)
  | removeIf (station : CommonAddress) (address : ObjectAddress) (created : Int)
  | removeConnection (connection : ConnectionId)
  | clear
  | isHeldBy (asked : Selection)
  | holder (station : CommonAddress) (address : ObjectAddress)
  | activeCount
  | sweep
  /-- Time passes. -/
  | wait (ms : Nat)

/-- What a call answers. -/
inductive Reply where
  | added (granted : Except ServerError Bool)
  | released (held : Option Selection)
  | dropped (ended : List Selection)
  | held (answer : Bool)
  | holder (originator : Option Originator)
  | count (live : Nat)
  | done

namespace Call

/-- Whether a call sweeps. -/
def isSweep : Call → Bool
  | .sweep => true
  | _ => false

/-- Whether a call is answered to somebody who selects a point or asks for selections. -/
def isObserved : Call → Bool
  | .add _ | .isHeldBy _ | .holder .. | .activeCount => true
  | _ => false

end Call

/-- A table of selections and the clock it is read by. -/
structure Clocked where
  now : Int
  table : SelectionTable

namespace Clocked

variable {s s' : Clocked} {g : Selection}

/-- A new table. -/
def opened (timeout : Nat) (now : Int) : Clocked := ⟨now, .new timeout⟩

/-- What a call does and answers. -/
def call (s : Clocked) : Call → Clocked × Reply
  | .add wanted =>
    match s.table.add s.now wanted with
    | .ok (table, granted) => ({ s with table }, .added (.ok granted))
    | .error e => (s, .added (.error e))
  | .replace wanted => ({ s with table := s.table.replace wanted }, .done)
  | .remove station address =>
    ({ s with table := s.table.remove station address },
      .released (s.table.find? station address))
  | .removeIf station address created =>
    ({ s with table := s.table.removeIf station address created },
      .released (s.table.createdAt? station address created))
  | .removeConnection connection =>
    ({ s with table := s.table.removeConnection connection },
      .dropped (s.table.heldThrough connection))
  | .clear => ({ s with table := s.table.clear }, .done)
  | .isHeldBy asked => (s, .held (s.table.isHeldBy s.now asked))
  | .holder station address => (s, .holder (s.table.holder? s.now station address))
  | .activeCount => (s, .count (s.table.activeCount s.now))
  | .sweep => ({ s with table := s.table.sweep s.now }, .dropped (s.table.expired s.now))
  | .wait ms => ({ s with now := s.now + ms }, .done)

/-- What several calls leave. -/
def after (s : Clocked) (calls : List Call) : Clocked := calls.foldl (fun s k => (s.call k).1) s

/-- What is answered to those who select points and ask for selections. -/
def observations (s : Clocked) : List Call → List Reply
  | [] => []
  | k :: ks => (if k.isObserved then [(s.call k).2] else []) ++ (s.call k).1.observations ks

/-- Without calls a table stays as it is. -/
@[simp] theorem after_nil (s : Clocked) : s.after [] = s := rfl

/-- The first call is made, and then the others. -/
@[simp] theorem after_cons (s : Clocked) (k : Call) (ks : List Call) :
    s.after (k :: ks) = (s.call k).1.after ks := rfl

/-- What is observed first comes first. -/
@[simp] theorem observations_cons (s : Clocked) (k : Call) (ks : List Call) :
    s.observations (k :: ks) =
      (if k.isObserved then [(s.call k).2] else []) ++ (s.call k).1.observations ks := rfl

/-- What a call to add a selection does. -/
theorem call_add (s : Clocked) (wanted : Selection) :
    s.call (.add wanted) =
      if wanted.type.isSelectable then
        if s.table.isTaken s.now wanted then (s, .added (.ok false))
        else ({ s with table := s.table.replace wanted }, .added (.ok true))
      else (s, .added (.error (.invalidArgument (.notSelectable wanted.type)))) := by
  rw [call, SelectionTable.add]
  by_cases hsel : wanted.type.isSelectable = true
  · rw [if_pos hsel, if_pos hsel]
    by_cases htaken : s.table.isTaken s.now wanted = true
    · rw [if_pos htaken, if_pos htaken]
    · rw [if_neg htaken, if_neg htaken]
  · rw [if_neg hsel, if_neg hsel]

/-- No call changes the timeout. -/
theorem timeout_call (s : Clocked) (k : Call) :
    (s.call k).1.table.timeout = s.table.timeout := by
  cases k with
  | add wanted =>
    rw [call_add]
    split
    · split <;> rfl
    · rfl
  | removeIf station address created =>
    show (s.table.removeIf station address created).timeout = _
    rw [removeIf]
    split <;> rfl
  | _ => rfl

/-- No call moves the clock back. -/
theorem now_le_call (s : Clocked) (k : Call) : s.now ≤ (s.call k).1.now := by
  cases k with
  | add wanted =>
    rw [call_add]
    split
    · split <;> exact Int.le_refl _
    · exact Int.le_refl _
  | wait ms => exact Int.le_add_of_nonneg_right (Int.natCast_nonneg ms)
  | _ => exact Int.le_refl _

/-- No calls change the timeout. -/
theorem timeout_after (s : Clocked) (ks : List Call) :
    (s.after ks).table.timeout = s.table.timeout := by
  induction ks generalizing s with
  | nil => rfl
  | cons k ks ih => exact (ih _).trans (s.timeout_call k)

/-- No calls move the clock back. -/
theorem now_le_after (s : Clocked) (ks : List Call) : s.now ≤ (s.after ks).now := by
  induction ks generalizing s with
  | nil => exact Int.le_refl _
  | cons k ks ih => exact Int.le_trans (s.now_le_call k) (ih _)

/-! ## Agreement -/

/-- Two tables **agree** when they have the same clock and timeout and the same live selections. -/
structure Agrees (s s' : Clocked) : Prop where
  now : s'.now = s.now
  timeout : s'.table.timeout = s.table.timeout
  live : ∀ station address,
    s'.table.live? s.now station address = s.table.live? s.now station address

/-- A table agrees with itself. -/
theorem Agrees.refl (s : Clocked) : s.Agrees s := ⟨rfl, rfl, fun _ _ => rfl⟩

/-- A table agrees with what a sweep leaves of it. -/
theorem Agrees.of_sweep (h : s.Agrees s') : (s.call .sweep).1.Agrees s' :=
  ⟨h.now, h.timeout, fun station address => (h.live station address).trans live?_sweep.symm⟩

/-- Tables that agree have the same number of live selections. -/
theorem Agrees.activeCount (h : s.Agrees s') :
    s'.table.activeCount s.now = s.table.activeCount s.now := by
  rw [activeCount_eq_size, activeCount_eq_size]
  refine congrArg Table.size (Table.ext_find? fun k => ?_)
  have hlive := h.live k.1 k.2
  rw [← find?_sweep, ← find?_sweep] at hlive
  exact hlive

/-- The same is stored in tables that agree. -/
theorem Agrees.replace (h : s.Agrees s') (wanted : Selection) :
    Agrees { s with table := s.table.replace wanted }
      { s' with table := s'.table.replace wanted } := by
  refine ⟨h.now, h.timeout, fun station address => ?_⟩
  show (s'.table.replace wanted).live? s.now _ _ = (s.table.replace wanted).live? s.now _ _
  rw [live?_replace, live?_replace, h.live, isLive_congr h.timeout]

/-- Every call keeps the agreement, and those that are observed are answered alike. -/
theorem Agrees.call (h : s.Agrees s') (k : Call) :
    (s.call k).1.Agrees (s'.call k).1 ∧
      (k.isObserved = true → (s'.call k).2 = (s.call k).2) := by
  have hnow := h.now
  cases k with
  | add wanted =>
    -- only a live selection of somebody else is in the way
    have htaken : s'.table.isTaken s'.now wanted = s.table.isTaken s.now wanted := by
      rw [isTaken, isTaken, hnow, h.live]
    rw [call_add, call_add, htaken]
    split
    · split
      · exact ⟨h, fun _ => rfl⟩
      · exact ⟨h.replace wanted, fun _ => rfl⟩
    · exact ⟨h, fun _ => rfl⟩
  | replace wanted => exact ⟨h.replace wanted, fun ho => absurd ho Bool.false_ne_true⟩
  | remove station address =>
    refine ⟨⟨hnow, h.timeout, fun station' address' => ?_⟩, fun ho => absurd ho Bool.false_ne_true⟩
    show (s'.table.remove _ _).live? s.now _ _ = (s.table.remove _ _).live? s.now _ _
    rw [live?_remove, live?_remove, h.live]
  | removeIf station address created =>
    refine ⟨⟨hnow, ?_, fun station' address' => ?_⟩, fun ho => absurd ho Bool.false_ne_true⟩
    · rw [timeout_call, timeout_call, h.timeout]
    · show (s'.table.removeIf _ _ _).live? s.now _ _ = (s.table.removeIf _ _ _).live? s.now _ _
      rw [live?_removeIf, live?_removeIf, h.live]
  | removeConnection connection =>
    refine ⟨⟨hnow, h.timeout, fun station' address' => ?_⟩, fun ho => absurd ho Bool.false_ne_true⟩
    show (s'.table.removeConnection _).live? s.now _ _ =
      (s.table.removeConnection _).live? s.now _ _
    rw [live?_removeConnection, live?_removeConnection, h.live]
  | clear => exact ⟨⟨hnow, h.timeout, fun _ _ => rfl⟩, fun ho => absurd ho Bool.false_ne_true⟩
  | isHeldBy asked =>
    refine ⟨h, fun _ => congrArg Reply.held ?_⟩
    rw [isHeldBy, isHeldBy, hnow, h.live]
  | holder station address =>
    refine ⟨h, fun _ => congrArg Reply.holder ?_⟩
    rw [holder?, holder?, hnow, h.live]
  | activeCount => exact ⟨h, fun _ => congrArg Reply.count (hnow ▸ h.activeCount)⟩
  | sweep =>
    refine ⟨⟨hnow, h.timeout, fun station address => ?_⟩, fun ho => absurd ho Bool.false_ne_true⟩
    show (s'.table.sweep s'.now).live? s.now _ _ = (s.table.sweep s.now).live? s.now _ _
    rw [hnow, live?_sweep, live?_sweep, h.live]
  | wait ms =>
    refine ⟨⟨congrArg (· + (ms : Int)) hnow, h.timeout, fun station address => ?_⟩,
      fun ho => absurd ho Bool.false_ne_true⟩
    show s'.table.live? (s.now + ms) _ _ = s.table.live? (s.now + ms) _ _
    rw [live?_later, live?_later, h.live, isLive_congr h.timeout]

/-- What is observed of a table is observed without its sweeps of one that agrees. -/
theorem Agrees.observations_eq (h : s.Agrees s') (ks : List Call) :
    s.observations ks = s'.observations (ks.filter (!·.isSweep)) := by
  induction ks generalizing s s' with
  | nil => rfl
  | cons k ks ih =>
    by_cases hk : k = .sweep
    · -- a sweep is left out on the other side, where the table stays as it is
      subst hk
      exact ih h.of_sweep
    · have hkeep : (!k.isSweep) = true := by cases k <;> first | rfl | exact absurd rfl hk
      obtain ⟨hagree, hreply⟩ := h.call k
      rw [List.filter_cons, if_pos hkeep, observations_cons, observations_cons, ih hagree]
      refine congrArg (· ++ _) ?_
      split
      · rename_i ho
        rw [hreply ho]
      · rfl

/-- Sequences of calls that differ in nothing but sweeps are answered alike. -/
theorem observations_eq (s : Clocked) {ks ks' : List Call}
    (h : ks.filter (!·.isSweep) = ks'.filter (!·.isSweep)) :
    s.observations ks = s.observations ks' := by
  rw [(Agrees.refl s).observations_eq ks, (Agrees.refl s).observations_eq ks', h]

/-! ## What is stored -/

/-- Whether a call puts another selection in the place of a stored one, or takes it out of the table
on somebody's order. -/
def Displaces (s : Clocked) (g : Selection) : Call → Prop
  | .add wanted => wanted.key = g.key ∧ (s.call (.add wanted)).2 = .added (.ok true)
  | .replace wanted => wanted.key = g.key
  | .remove station address => (station, address) = g.key
  | .removeIf station address created => (station, address) = g.key ∧ created = g.created
  | .removeConnection connection => connection = g.connection
  | .clear => True
  | _ => False

/-- A call leaves a stored selection where it is, unless it displaces it or sweeps it. -/
theorem find?_call (hg : s.table.find? g.station g.address = some g) {k : Call}
    (hk : ¬ s.Displaces g k) (hlive : s.table.isExpired s.now g = false) :
    (s.call k).1.table.find? g.station g.address = some g := by
  -- what replaces another key leaves this one alone
  have hreplace {wanted : Selection} (hne : wanted.key ≠ g.key) :
      (s.table.replace wanted).find? g.station g.address = some g := by
    rw [find?_replace, hg]
    exact if_neg (Ne.symm hne)
  cases k with
  | add wanted =>
    rw [Displaces, call_add] at hk
    rw [call_add]
    -- not a type that can be selected: refused
    split at hk
    · rename_i hsel
      rw [if_pos hsel]
      -- the point is taken: refused
      split at hk
      · rename_i htaken
        rw [if_pos htaken]
        exact hg
      · -- granted, so for another point
        rename_i htaken
        rw [if_neg htaken]
        exact hreplace fun hkey => hk ⟨hkey, rfl⟩
    · rename_i hsel
      rw [if_neg hsel]
      exact hg
  | replace wanted => exact hreplace hk
  | remove station address =>
    show (s.table.remove _ _).find? _ _ = _
    rw [find?_remove, hg]
    exact if_neg (Ne.symm hk)
  | removeIf station address created =>
    show (s.table.removeIf _ _ _).find? _ _ = _
    rw [find?_removeIf, hg]
    -- at the key of the selection: it was created at another instant
    split
    · rename_i hkey
      refine Option.filter_some_pos (bne_iff_ne.mpr fun hc => hk ⟨?_, hc.symm⟩)
      exact Eq.symm (show g.key = _ from hkey)
    · rfl
  | removeConnection connection =>
    show (s.table.removeConnection _).find? _ _ = _
    rw [find?_removeConnection, hg]
    exact Option.filter_some_pos (bne_iff_ne.mpr (Ne.symm hk))
  | clear => exact absurd trivial hk
  | sweep =>
    show (s.table.sweep s.now).find? _ _ = _
    -- the sweep drops expired selections, and this one is live
    rw [find?_sweep, live?_eq_some_iff]
    exact ⟨hg, hlive⟩
  | _ => exact hg

/-- A stored selection that has not expired when several calls are done, and was displaced by none
of them, is still stored. -/
theorem stays (hg : s.table.find? g.station g.address = some g) {ks : List Call}
    (hlive : (s.after ks).table.isExpired (s.after ks).now g = false)
    (hks : ∀ earlier k later, ks = earlier ++ k :: later → ¬ (s.after earlier).Displaces g k) :
    (s.after ks).table.find? g.station g.address = some g := by
  induction ks generalizing s with
  | nil => exact hg
  | cons k ks ih =>
    -- it has not expired at the end, so it had not expired when the first call was made
    have hfresh : s.table.isExpired s.now g = false := by
      refine Bool.eq_false_iff.mpr fun hexp => ?_
      have hlater := isExpired_mono (s.now_le_after (k :: ks)) hexp
      rw [isExpired, ← s.timeout_after (k :: ks)] at hlater
      exact absurd (hlater.symm.trans hlive) (by decide)
    refine ih (find?_call hg (hks [] k ks rfl) hfresh) hlive fun earlier k' later he => ?_
    exact hks (k :: earlier) k' later (congrArg (k :: ·) he)

/-- Every selection stays stored at the point that it is for. -/
theorem keyed_call (h : s.table.Keyed) (k : Call) : (s.call k).1.table.Keyed := by
  -- a selection is put under its own key
  have hreplace (wanted : Selection) : (s.table.replace wanted).Keyed := by
    intro station address g hg
    rw [find?_replace] at hg
    split at hg
    · rename_i hkey
      rw [← Option.some.inj hg, hkey]
    · exact h hg
  -- as for the rest, whoever is found was found there before
  have hless {t : SelectionTable} (hfound : ∀ {station address g},
      t.find? station address = some g → s.table.find? station address = some g) : t.Keyed :=
    fun hg => h (hfound hg)
  cases k with
  | add wanted =>
    rw [call_add]
    split
    · split
      · exact @h
      · exact @hreplace wanted
    · exact @h
  | replace wanted => exact @hreplace wanted
  | remove station address =>
    refine @hless (s.table.remove station address) fun hg => ?_
    rw [find?_remove] at hg
    split at hg
    · cases hg
    · exact hg
  | removeIf station address created =>
    refine @hless (s.table.removeIf station address created) fun hg => ?_
    rw [find?_removeIf] at hg
    split at hg
    · exact (Option.filter_eq_some_iff.mp hg).1
    · exact hg
  | removeConnection connection =>
    refine @hless (s.table.removeConnection connection) fun hg => ?_
    rw [find?_removeConnection] at hg
    exact (Option.filter_eq_some_iff.mp hg).1
  | clear =>
    intro station address g hg
    cases hg
  | sweep =>
    refine @hless (s.table.sweep s.now) fun hg => ?_
    rw [find?_sweep] at hg
    exact (Option.filter_eq_some_iff.mp hg).1
  | _ => exact @h

/-- After any calls each selection is stored at its own point. -/
theorem keyed_after (timeout : Nat) (now : Int) (ks : List Call) :
    ((opened timeout now).after ks).table.Keyed := by
  have hkeyed : (opened timeout now).table.Keyed := by
    intro station address g hg
    cases hg
  generalize opened timeout now = s at hkeyed ⊢
  induction ks generalizing s with
  | nil => exact @hkeyed
  | cons k ks ih => exact @ih _ (keyed_call @hkeyed k)

/-! ## Expiry -/

/-- **Expired selections are dropped at nobody's cost.** -/
structure Evicts (timeout : Nat) (s : Clocked) : Prop where
  /-- Sequences of calls that differ in nothing but sweeps are answered alike. -/
  unnoticed : ∀ {ks ks'}, ks.filter (!·.isSweep) = ks'.filter (!·.isSweep) →
    s.observations ks = s.observations ks'
  /-- A sweep answers with the stored selections whose timeout has passed, each once, and leaves the
  others. -/
  swept : ∃ ended, (s.call .sweep).2 = .dropped ended ∧ ended.Nodup ∧
    (∀ g, g ∈ ended ↔
      s.table.find? g.station g.address = some g ∧ timeout ≤ (s.now - g.created).toNat) ∧
    ∀ station address g, (s.call .sweep).1.table.find? station address = some g ↔
      s.table.find? station address = some g ∧ ¬ timeout ≤ (s.now - g.created).toNat
  /-- What is stored, has not expired and was not displaced stays. -/
  stays : ∀ {g ks}, s.table.find? g.station g.address = some g →
    ¬ timeout ≤ ((s.after ks).now - g.created).toNat →
    (∀ earlier k later, ks = earlier ++ k :: later → ¬ (s.after earlier).Displaces g k) →
    (s.after ks).table.find? g.station g.address = some g
  /-- A type that cannot be selected is an error, and nothing changes. -/
  refused : ∀ wanted, wanted.type.isSelectable = false → s.call (.add wanted) =
    (s, .added (.error (.invalidArgument (.notSelectable wanted.type))))

end Clocked

open Clocked

/-- **Lazy and eager expiry agree.** Whatever was called before, from a new table on: when expired
selections are dropped is not noticed, a sweep drops them and nothing else, and nothing else is
lost. -/
theorem expiry_unnoticed (timeout : Nat) (now : Int) (calls : List Call) :
    ((opened timeout now).after calls).Evicts timeout := by
  have hkeyed : ((opened timeout now).after calls).table.Keyed := keyed_after timeout now calls
  have htimeout : ((opened timeout now).after calls).table.timeout = timeout := timeout_after ..
  generalize (opened timeout now).after calls = s at hkeyed htimeout ⊢
  subst htimeout
  refine ⟨s.observations_eq, ⟨_, rfl, hkeyed.nodup_values.filter _, fun g => ?_,
    fun station address g => ?_⟩, fun {g ks} hg hlive hks => ?_, fun wanted hsel => ?_⟩
  · rw [expired, List.mem_filter, hkeyed.mem_values, isExpired, decide_eq_true_eq]
  · show (s.table.sweep s.now).find? station address = some g ↔ _
    rw [find?_sweep, live?_eq_some_iff, isExpired, decide_eq_false_iff_not]
  · refine Clocked.stays hg ?_ hks
    rw [isExpired, timeout_after, decide_eq_false_iff_not]
    exact hlive
  · rw [call_add, hsel]
    rfl

/-- A client's selection of a point, as granted at a time. -/
def sampleSelection (connection : ConnectionId) (created : Int) : Selection :=
  { connection, originator := 3, station := 1, address := 100, type := .C_SC_NA_1, created }

/-- One client's selection expires, and another client selects the point. -/
theorem sample_expiry_unnoticed :
    let expired := (opened 50 0).after [.add (sampleSelection ⟨1⟩ 0), .wait 50]
    let later : List Call := [.activeCount, .add (sampleSelection ⟨2⟩ 50), .holder 1 100]
    expired.table.entries.size = 1 ∧ (expired.call .sweep).1.table.entries.size = 0 ∧
      expired.observations later = [.count 0, .added (.ok true), .holder (some 3)] ∧
      expired.observations (.sweep :: later) = expired.observations later :=
  ⟨by decide +kernel, by decide +kernel, by rfl, (expiry_unnoticed 50 0 _).unnoticed rfl⟩

end SelectionTable

end Telecontrol
