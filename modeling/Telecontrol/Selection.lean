import Telecontrol.Error

/-! # Selections

A command point in select-and-execute mode takes an execute only from the client that **selected**
it. A selection belongs to a connection and an originator, and it expires when it is not renewed
within the timeout. At most one selection is stored for each point, expired or not: an expired one
stays until it is replaced or swept.

Main statements: one lemma for each operation says what it does to `SelectionTable.find?`. -/

namespace Telecontrol

/-- A **selection** of the point at an address of a station. -/
structure Selection where
  connection : ConnectionId
  originator : Originator
  station : CommonAddress
  address : ObjectAddress
  /-- The type of the command that selected the point. -/
  type : TypeId
  /-- When the selection was granted or renewed. -/
  created : Int
  deriving DecidableEq, Repr

namespace Selection

/-- Where a selection is stored. -/
def key (s : Selection) : CommonAddress × ObjectAddress := (s.station, s.address)

/-- Whether two selections belong to one holder: one originator on one connection. -/
def sameHolder (s t : Selection) : Bool :=
  s.connection == t.connection && s.originator == t.originator

/-- Two selections have one holder exactly when connection and originator agree. -/
theorem sameHolder_iff (s t : Selection) :
    s.sameHolder t = true ↔ s.connection = t.connection ∧ s.originator = t.originator := by
  simp [sameHolder]

/-- Put a selection before all those of its own and of later connections. -/
def placeByConnection (s : Selection) : List Selection → List Selection
  | [] => [s]
  | t :: rest =>
    if s.connection.number ≤ t.connection.number then s :: t :: rest
    else t :: placeByConnection s rest

/-- The selections in the order of their connections, those of one connection as they were. -/
def byConnection (l : List Selection) : List Selection := l.foldr placeByConnection []

/-- What is put into a list is in it, with what was there. -/
@[simp] theorem mem_placeByConnection {s t : Selection} {l : List Selection} :
    t ∈ placeByConnection s l ↔ t = s ∨ t ∈ l := by
  induction l with
  | nil => simp [placeByConnection]
  | cons x rest ih =>
    simp only [placeByConnection]
    split
    · simp
    · simp only [List.mem_cons, ih]
      exact ⟨fun h => by rcases h with h | h | h <;> simp [h],
        fun h => by rcases h with h | h | h <;> simp [h]⟩

/-- The order of the connections leaves the selections what they are. -/
@[simp] theorem mem_byConnection {t : Selection} {l : List Selection} :
    t ∈ byConnection l ↔ t ∈ l := by
  induction l with
  | nil => simp [byConnection]
  | cons x rest ih =>
    simp only [byConnection, List.foldr_cons, mem_placeByConnection, List.mem_cons] at ih ⊢
    rw [ih]

end Selection

/-- The **selections** of a server. -/
structure SelectionTable where
  /-- How long a selection lives, in milliseconds. -/
  timeout : Nat
  entries : Table (CommonAddress × ObjectAddress) Selection

namespace SelectionTable

/-- No selections yet. -/
def new (timeout : Nat) : SelectionTable := ⟨timeout, .empty⟩

/-- The stored selection of a point, expired or not. -/
def find? (t : SelectionTable) (station : CommonAddress) (address : ObjectAddress) :
    Option Selection := t.entries.find? (station, address)

/-- A selection has expired once its timeout has passed. -/
def isExpired (t : SelectionTable) (now : Int) (s : Selection) : Bool :=
  t.timeout ≤ (now - s.created).toNat

/-- A selection is live until it expires. -/
def isLive (t : SelectionTable) (now : Int) (s : Selection) : Bool := !t.isExpired now s

/-- The live selection of a point. -/
def live? (t : SelectionTable) (now : Int) (station : CommonAddress) (address : ObjectAddress) :
    Option Selection := (t.find? station address).filter (t.isLive now)

/-- Whether a selection is refused: another holder has a live one of the point. -/
def isTaken (t : SelectionTable) (now : Int) (s : Selection) : Bool :=
  (t.live? now s.station s.address).any fun held => !held.sameHolder s

/-- Store a selection, whoever holds the point. -/
def replace (t : SelectionTable) (s : Selection) : SelectionTable :=
  { t with entries := t.entries.insert s.key s }

/-- Select a point or renew its selection. The answer is false when another holder has a live
selection; a type that cannot be selected is an error. -/
def add (t : SelectionTable) (now : Int) (s : Selection) :
    Except ServerError (SelectionTable × Bool) :=
  if s.type.isSelectable then
    -- the holder may renew its selection, and anyone may replace an expired one
    .ok (if t.isTaken now s then (t, false) else (t.replace s, true))
  else .error (.invalidArgument (.notSelectable s.type))

/-- Release a selection. -/
def remove (t : SelectionTable) (station : CommonAddress) (address : ObjectAddress) :
    SelectionTable := { t with entries := t.entries.erase (station, address) }

/-- The stored selection of a point, if it was created at the given instant. -/
def createdAt? (t : SelectionTable) (station : CommonAddress) (address : ObjectAddress)
    (created : Int) : Option Selection :=
  (t.find? station address).filter fun s => s.created == created

/-- Release a selection while it is still the one created at the given instant: one that was
renewed since then stays. -/
def removeIf (t : SelectionTable) (station : CommonAddress) (address : ObjectAddress)
    (created : Int) : SelectionTable :=
  if (t.createdAt? station address created).isSome then t.remove station address else t

/-- Whether the holder of a selection has a live one of the same point. -/
def isHeldBy (t : SelectionTable) (now : Int) (s : Selection) : Bool :=
  (t.live? now s.station s.address).any fun held => held.sameHolder s

/-- The originator that holds a live selection of a point. -/
def holder? (t : SelectionTable) (now : Int) (station : CommonAddress)
    (address : ObjectAddress) : Option Originator :=
  (t.live? now station address).map (·.originator)

/-- The expired selections, in the order of their points. -/
def expired (t : SelectionTable) (now : Int) : List Selection :=
  t.entries.values.filter (t.isExpired now)

/-- Drop the expired selections. -/
def sweep (t : SelectionTable) (now : Int) : SelectionTable :=
  { t with entries := t.entries.filter fun _ s => t.isLive now s }

/-- The selections that a connection holds, live or expired. -/
def heldThrough (t : SelectionTable) (connection : ConnectionId) : List Selection :=
  t.entries.values.filter fun s => s.connection == connection

/-- Drop every selection that a connection holds. -/
def removeConnection (t : SelectionTable) (connection : ConnectionId) : SelectionTable :=
  { t with entries := t.entries.filter fun _ s => s.connection != connection }

/-- The number of live selections. -/
def activeCount (t : SelectionTable) (now : Int) : Nat :=
  (t.entries.values.filter (t.isLive now)).length

/-- Drop every selection. -/
def clear (t : SelectionTable) : SelectionTable := { t with entries := .empty }

/-! ## What the operations do to the stored selection of a point -/

variable (t : SelectionTable) (station : CommonAddress) (address : ObjectAddress)

/-- A selection that is put in takes the place of the one at its point, and all others stay. -/
theorem find?_replace (s : Selection) :
    (t.replace s).find? station address =
      if (station, address) = s.key then some s else t.find? station address := by
  simp only [find?, replace]
  by_cases h : (station, address) = s.key
  · rw [if_pos h, h, Table.find?_insert_self]
  · rw [if_neg h, Table.find?_insert_of_ne _ _ h]

/-- The selection at a point is removed, and all others stay. -/
theorem find?_remove (station' : CommonAddress) (address' : ObjectAddress) :
    (t.remove station' address').find? station address =
      if (station, address) = (station', address') then none else t.find? station address := by
  simp only [find?, remove]
  by_cases h : (station, address) = (station', address')
  · rw [if_pos h, h, Table.find?_erase_self]
  · rw [if_neg h, Table.find?_erase_of_ne _ h]

/-- The selection at a point is removed if it was made at the instant, and all others stay. -/
theorem find?_removeIf (station' : CommonAddress) (address' : ObjectAddress) (created : Int) :
    (t.removeIf station' address' created).find? station address =
      if (station, address) = (station', address') then
        (t.find? station address).filter fun s => s.created != created
      else t.find? station address := by
  rw [removeIf]
  by_cases h : (station, address) = (station', address')
  · obtain ⟨rfl, rfl⟩ := Prod.mk.inj h
    rw [if_pos rfl, createdAt?]
    cases hf : t.find? station address with
    | none => simp [hf]
    | some s =>
      by_cases hc : s.created = created
      · simp [Option.filter_some, hc, find?_remove]
      · simp [Option.filter_some, hc, hf]
  · rw [if_neg h]
    split
    · rw [find?_remove, if_neg h]
    · rfl

/-- After a sweep there is what was live before it. -/
theorem find?_sweep (now : Int) :
    (t.sweep now).find? station address = t.live? now station address :=
  Table.find?_filter ..

/-- The selections of a connection are removed, and all others stay. -/
theorem find?_removeConnection (connection : ConnectionId) :
    (t.removeConnection connection).find? station address =
      (t.find? station address).filter fun s => s.connection != connection :=
  Table.find?_filter ..

/-- Adding succeeds exactly for selectable types, and then as `isTaken` says. -/
theorem add_eq_ok_iff (now : Int) (s : Selection) (r : SelectionTable × Bool) :
    t.add now s = .ok r ↔
      s.type.isSelectable = true ∧
        r = if t.isTaken now s = true then (t, false) else (t.replace s, true) := by
  unfold add
  split
  · rename_i h
    exact ⟨fun e => ⟨h, (Except.ok.inj e).symm⟩, fun e => congrArg _ e.2.symm⟩
  · rename_i h
    exact ⟨fun e => (by cases e), fun e => absurd e.1 h⟩

end SelectionTable

end Telecontrol
