import Mathlib.Data.Set.Card
import Telecontrol.Connection

/-! # Bookkeeping of connections

A table of connections is told of events and now and then to forget everything. Nothing is promised
of the events: they may be missing, come twice, or come for a connection that was closed.

What the table says of a connection goes back to the **last event** of that connection since
everything was forgotten. The counter of active connections is moved step by step, by what each
event finds; it is **true** when it is the number of the connections that the table says are active.
Every call keeps it true, so nothing is ever taken from a counter that stands at zero.

Main statements: `Connections.state?_after` (the last event decides the state),
`Connections.counted_after` (the counter is true), `Connections.onEvent_comm` (events of different
connections may change places) and `Connections.bookkeeping`. -/

namespace Telecontrol

namespace Connections

/-! ## Calls -/

/-- What a table of connections is told. -/
inductive Call where
  | event (connection : ConnectionId) (event : ConnectionEvent)
  | clear
  deriving DecidableEq

/-- The event that a call brings a connection. -/
def Call.event? (connection : ConnectionId) : Call → Option ConnectionEvent
  | .event c e => if c = connection then some e else Option.none
  | .clear => Option.none

/-- The table after a call. -/
def call (t : Connections) : Call → Connections
  | .event c e => t.onEvent c e
  | .clear => t.clear.1

/-- The table after calls, in turn. -/
def after (t : Connections) (calls : List Call) : Connections := calls.foldl call t

/-- The **last event** of a connection since everything was forgotten. -/
def lastEvent? (connection : ConnectionId) (calls : List Call) : Option ConnectionEvent :=
  (calls.reverse.takeWhile (· ≠ .clear)).findSome? (Call.event? connection)

/-- Calls one after the other are taken as one sequence. -/
theorem after_append (t : Connections) (calls later : List Call) :
    t.after (calls ++ later) = (t.after calls).after later := List.foldl_append ..

/-- The last call is taken last. -/
theorem after_concat (t : Connections) (calls : List Call) (k : Call) :
    t.after (calls ++ [k]) = (t.after calls).call k := after_append ..

/-- An event is the last one of its connection and of no other. -/
theorem lastEvent?_event (c d : ConnectionId) (e : ConnectionEvent) (calls : List Call) :
    lastEvent? c (calls ++ [.event d e]) = if d = c then some e else lastEvent? c calls := by
  by_cases h : d = c <;> simp [lastEvent?, Call.event?, h]

/-- After everything was forgotten no connection has a last event. -/
@[simp] theorem lastEvent?_clear (c : ConnectionId) (calls : List Call) :
    lastEvent? c (calls ++ [.clear]) = Option.none := by
  simp [lastEvent?]

/-! ## The last event decides -/

/-- The state of a connection is the one in which its last event left it. -/
theorem state?_after (c : ConnectionId) (calls : List Call) :
    (none.after calls).state? c = (lastEvent? c calls).bind stateAfter := by
  induction calls using List.reverseRecOn with
  | nil => rfl
  | append_singleton calls k ih =>
    rw [after_concat]
    cases k with
    | event d e =>
      rw [call, state?_onEvent, lastEvent?_event, ih]
      by_cases h : c = d
      · simp [h]
      · simp [h, Ne.symm h]
    | clear => simp [call, clear]

/-- A connection is active after its activation only. -/
theorem stateAfter_eq_some_true {e : ConnectionEvent} :
    stateAfter e = some true ↔ e = .activated := by
  cases e <;> simp [stateAfter]

/-- A connection is known after every event but its end. -/
theorem isSome_stateAfter {e : ConnectionEvent} : (stateAfter e).isSome = true ↔ e ≠ .closed := by
  cases e <;> simp [stateAfter]

/-- A connection is open exactly when its last event did not close it. -/
theorem isOpen_after_iff (c : ConnectionId) (calls : List Call) :
    (none.after calls).isOpen c = true ↔ ∃ e, lastEvent? c calls = some e ∧ e ≠ .closed := by
  rw [isOpen_iff, state?_after, Option.isSome_bind]
  cases lastEvent? c calls with
  | none => simp
  | some e => simpa using isSome_stateAfter

/-- A connection is active exactly when its last event activated it. -/
theorem isActive_after_iff (c : ConnectionId) (calls : List Call) :
    (none.after calls).isActive c = true ↔ lastEvent? c calls = some .activated := by
  rw [isActive_iff, state?_after, Option.bind_eq_some_iff]
  simp only [stateAfter_eq_some_true, exists_eq_right]

/-! ## The counters -/

/-- The open connections. -/
def openOnes (t : Connections) : Finset ConnectionId := t.list.toFinset

/-- The active connections. -/
def activeOnes (t : Connections) : Finset ConnectionId := t.openOnes.filter (t.isActive ·)

/-- The open ones are those that are open. -/
@[simp] theorem mem_openOnes {t : Connections} {c : ConnectionId} :
    c ∈ t.openOnes ↔ t.isOpen c = true := by
  simp [openOnes, list, Table.mem_keys, isOpen, Table.contains]

/-- The active ones are those that are active. -/
@[simp] theorem mem_activeOnes {t : Connections} {c : ConnectionId} :
    c ∈ t.activeOnes ↔ t.isActive c = true := by
  rw [activeOnes, Finset.mem_filter, mem_openOnes, and_iff_right_iff_imp, isActive_iff, isOpen_iff]
  intro h
  rw [h]
  rfl

/-- The table lists the open connections, and each of them once. -/
theorem card_openOnes (t : Connections) : t.openOnes.card = t.openCount := by
  have hnodup : t.list.Nodup := by
    refine List.pairwise_map.mpr (t.receivers.ascending.imp fun {a b} h e => ?_)
    rw [e] at h
    exact Nat.lt_irrefl _ h
  rw [openOnes, List.toFinset_card_of_nodup hnodup, list, Table.keys, List.length_map]
  rfl

/-- An activation adds its connection to the active ones, and every other event takes it out. -/
theorem activeOnes_onEvent (t : Connections) (c : ConnectionId) (e : ConnectionEvent) :
    (t.onEvent c e).activeOnes =
      if e = .activated then insert c t.activeOnes else t.activeOnes.erase c := by
  ext d
  have hiff : (t.onEvent c e).isActive d = true ↔
      if d = c then e = .activated else t.isActive d = true := by
    rw [isActive_iff, state?_onEvent]
    split
    · exact stateAfter_eq_some_true
    · exact (isActive_iff t d).symm
  rw [mem_activeOnes, hiff]
  by_cases hd : d = c <;> by_cases he : e = .activated <;> simp [hd, he]

/-- The counter is **true**: it is the number of active connections. -/
def Counted (t : Connections) : Prop := t.activeOnes.card = t.activeCount

section Counted

variable {t t' : Connections} {c d : ConnectionId} {e f : ConnectionEvent}

/-- In an empty table the counter is right. -/
theorem counted_none : none.Counted := rfl

/-- An active connection has been counted, so that it can be taken off again. -/
theorem Counted.activeCount_pos (h : t.Counted) (hc : t.isActive c = true) : 0 < t.activeCount :=
  h ▸ Finset.card_pos.mpr ⟨c, mem_activeOnes.mpr hc⟩

/-- What an event adds and what it takes away. Nothing is taken from a counter at zero. -/
theorem Counted.balance (h : t.Counted) (c : ConnectionId) (e : ConnectionEvent) :
    (t.onEvent c e).activeCount + (if t.isActive c = true then 1 else 0) =
      t.activeCount + (if e = .activated then 1 else 0) := by
  rw [activeCount_onEvent]
  by_cases hc : t.isActive c = true
  · have hpos := h.activeCount_pos hc
    by_cases he : e = .activated
    · simp [hc, he]
    · simp only [hc, he, if_true, if_false]
      omega
  · by_cases he : e = .activated <;> simp [hc, he]

/-- The active connections are as many more or less as the counter is moved. -/
theorem card_activeOnes_onEvent (t : Connections) (c : ConnectionId) (e : ConnectionEvent) :
    (t.onEvent c e).activeOnes.card + (if t.isActive c = true then 1 else 0) =
      t.activeOnes.card + (if e = .activated then 1 else 0) := by
  rw [activeOnes_onEvent]
  by_cases hc : t.isActive c = true
  · have hmem : c ∈ t.activeOnes := mem_activeOnes.mpr hc
    by_cases he : e = .activated
    · simp [hc, he, Finset.insert_eq_of_mem hmem]
    · simpa [hc, he] using Finset.card_erase_add_one hmem
  · have hmem : c ∉ t.activeOnes := fun h => hc (mem_activeOnes.mp h)
    by_cases he : e = .activated
    · simp [hc, he, Finset.card_insert_of_notMem hmem]
    · simp [hc, he]

/-- An event keeps the counter true. -/
theorem Counted.onEvent (h : t.Counted) (c : ConnectionId) (e : ConnectionEvent) :
    (t.onEvent c e).Counted := by
  have hbalance := h.balance c e
  have hcard := card_activeOnes_onEvent t c e
  rw [Counted] at h ⊢
  omega

/-- Tables with a true counter that say the same of every connection are the same. -/
theorem Counted.ext_state? (h : t.Counted) (h' : t'.Counted)
    (heq : ∀ c, t.state? c = t'.state? c) : t = t' := by
  have hreceivers : t.receivers = t'.receivers := Table.ext_find? heq
  have hactive : t.activeOnes = t'.activeOnes := Finset.ext fun c => by
    rw [mem_activeOnes, mem_activeOnes, isActive_iff, isActive_iff, heq]
  have hcount : t.activeCount = t'.activeCount := by rw [← h, ← h', hactive]
  cases t
  cases t'
  simp_all

/-- Events of different connections may change places. -/
theorem Counted.onEvent_comm (h : t.Counted) (hne : c ≠ d) :
    (t.onEvent c e).onEvent d f = (t.onEvent d f).onEvent c e := by
  refine ((h.onEvent c e).onEvent d f).ext_state? ((h.onEvent d f).onEvent c e) fun x => ?_
  simp only [state?_onEvent]
  by_cases hd : x = d
  · rw [if_pos hd, if_neg (hd ▸ hne.symm), if_pos hd]
  · rw [if_neg hd, if_neg hd]

/-- After any calls the counter is right. -/
theorem counted_after (calls : List Call) : (none.after calls).Counted := by
  induction calls using List.reverseRecOn with
  | nil => exact counted_none
  | append_singleton calls k ih =>
    rw [after_concat]
    cases k with
    | event c e => exact ih.onEvent c e
    | clear => exact counted_none

end Counted

/-! ## Every sequence of calls -/

/-- A connection is **open** exactly when it had an event since everything was forgotten and its
last one is not its end, and **active** exactly when its last event is an activation. The two
numbers count the open and the active connections, and the listing names the open ones. An event
takes one from the counter only where it finds an active connection, and then the counter was not at
zero.

So the table depends on the last event of each connection alone, and events of different connections
may change places wherever they stand. -/
theorem bookkeeping (calls : List Call) :
    (∀ c, (none.after calls).isOpen c = true ↔
      ∃ e, lastEvent? c calls = some e ∧ e ≠ .closed) ∧
    (∀ c, (none.after calls).isActive c = true ↔ lastEvent? c calls = some .activated) ∧
    {c | (none.after calls).isOpen c = true}.encard = (none.after calls).openCount ∧
    {c | (none.after calls).isActive c = true}.encard = (none.after calls).activeCount ∧
    (∀ c, c ∈ (none.after calls).list ↔ (none.after calls).isOpen c = true) ∧
    (∀ c e, (none.after (calls ++ [.event c e])).activeCount +
        (if (none.after calls).isActive c = true then 1 else 0) =
      (none.after calls).activeCount + (if e = .activated then 1 else 0)) ∧
    (∀ others : List Call, (∀ c, lastEvent? c others = lastEvent? c calls) →
      none.after others = none.after calls) ∧
    ∀ c d e f, c ≠ d → ∀ later : List Call,
      none.after (calls ++ .event c e :: .event d f :: later) =
        none.after (calls ++ .event d f :: .event c e :: later) := by
  have hcounted := counted_after calls
  have hopen : {c | (none.after calls).isOpen c = true} = ↑(none.after calls).openOnes :=
    Set.ext fun c => mem_openOnes.symm
  have hactive : {c | (none.after calls).isActive c = true} = ↑(none.after calls).activeOnes :=
    Set.ext fun c => mem_activeOnes.symm
  refine ⟨fun c => isOpen_after_iff c calls, fun c => isActive_after_iff c calls, ?_, ?_,
    fun c => Table.mem_keys .., fun c e => ?_, fun others h => ?_, fun c d e f hne later => ?_⟩
  · rw [hopen, Set.encard_coe_eq_coe_finsetCard, card_openOnes]
  · rw [hactive, Set.encard_coe_eq_coe_finsetCard, hcounted]
  · rw [after_concat]
    exact hcounted.balance c e
  · -- two tables that count their active ones right are equal when they agree on every connection
    exact (counted_after others).ext_state? hcounted fun c => by
      rw [state?_after, state?_after, h]
  · rw [after_append, after_append]
    exact congrArg (after · later) (hcounted.onEvent_comm hne)

/-- A connection that is opened again is muted, and its end may come twice. -/
example :
    let t := none.after [.event ⟨1⟩ .activated, .event ⟨2⟩ .activated, .event ⟨1⟩ .opened,
      .event ⟨2⟩ .closed, .event ⟨2⟩ .closed]
    t.list = [⟨1⟩] ∧ t.openCount = 1 ∧ t.activeCount = 0 := by decide

end Connections

end Telecontrol
