import Telecontrol.Document.Basic
import Telecontrol.Document.Escape
import Telecontrol.Document.Json.Token

/-! # Values of JSON

The reader takes one token at a time and keeps the containers that are still open, so a nesting of
any depth needs no recursion. It is limited all the same.

Main statements: `Json.Reader.depth_le_of_step?` (nothing is opened beyond the limit) and
`Json.Reader.proper_of_foldlM` (what is read is proper). -/

namespace Telecontrol.Json

/-! ## Scalars -/

/-- The escapes of JSON strings. -/
def escapes : EscapeRule where
  short
    | '"' => some '"'
    | '\\' => some '\\'
    | '/' => some '/'
    | 'b' => some '\x08'
    | 'f' => some '\x0c'
    | 'n' => some '\n'
    | 'r' => some '\r'
    | 't' => some '\t'
    | _ => none
  digits
    | 'u' => some 4
    | _ => none
  pairs := true
  admits c := 0x20 ≤ c.toNat

/-- Whether a numeral is one of JSON: no plus sign, no superfluous zero, and digits on both sides of
a point. -/
def admits (n : Numeral) : Bool :=
  n.sign != some '+' && !n.whole.isEmpty && !n.hasLeadingZero && n.fraction != some [] &&
    !n.isTooLarge

/-- The document of a numeral. A negative zero is kept as a number with a fraction, since no whole
number is one. -/
def number (n : Numeral) : Document :=
  if n.isWhole && !(n.sign == some '-' && n.value == 0) then .whole n.value else .fractional

/-- The document of a scalar. -/
def scalar? : Token → Option Document
  | .quoted cs => (escapes.decode? cs).map .text
  | .bare cs =>
    match String.ofList cs with
    | "null" => some .null
    | "true" => some (.bool true)
    | "false" => some (.bool false)
    | _ => ((Numeral.read? cs).filter admits).map number
  | _ => none

/-- The key of a scalar. -/
def key? : Token → Option String
  | .quoted cs => escapes.decode? cs
  | _ => none

/-! ## Containers -/

/-- How many containers may be open at a time. -/
def maxDepth : Nat := 127

/-- A container that is not closed yet. -/
inductive OpenContainer where
  /-- A list, the latest item first. -/
  | list (items : List Document)
  /-- A map, and the key whose value is awaited. -/
  | map (fields : Document.Fields) (key : Option String)

/-- An open container is **proper** when what it holds so far is. -/
def OpenContainer.Proper : OpenContainer → Prop
  | .list items => ∀ d ∈ items, d.Proper
  | .map fields _ => Document.ProperFields fields

/-- What may come next. -/
inductive Slot where
  | value
  /-- A value, or the end of the list. -/
  | item
  | key
  /-- A key, or the end of the map. -/
  | entry
  | colon
  /-- A comma, or the end of the container. -/
  | next
  /-- Nothing: the document is complete. -/
  | complete (document : Document)

/-- A document that is being read. -/
structure Reader where
  /-- The open containers, the innermost first. -/
  containers : List OpenContainer
  slot : Slot

namespace Reader

/-- A reader before the first token. -/
def start : Reader := ⟨[], .value⟩

/-- Put a value where one is awaited. -/
def fill (containers : List OpenContainer) (d : Document) : Option Reader :=
  match containers with
  | [] => some ⟨[], .complete d⟩
  | .list items :: rest => some ⟨.list (d :: items) :: rest, .next⟩
  | .map fields (some key) :: rest => some ⟨.map (Document.put key d fields) none :: rest, .next⟩
  | .map _ none :: _ => none

/-- Close the innermost container. -/
def close (containers : List OpenContainer) (t : Token) : Option Reader :=
  match containers, t with
  | .list items :: rest, .closeList => fill rest (.list items.reverse)
  | .map fields none :: rest, .closeMap => fill rest (.map fields)
  | _, _ => none

/-- Open a container. -/
def open? (r : Reader) (c : OpenContainer) (slot : Slot) : Option Reader :=
  if r.containers.length < maxDepth then some ⟨c :: r.containers, slot⟩ else none

/-- Read the beginning of a value. -/
def value? (r : Reader) : Token → Option Reader
  | .openList => r.open? (.list []) .item
  | .openMap => r.open? (.map [] none) .entry
  | t => (scalar? t).bind (fill r.containers)

/-- Read a key. -/
def key? (r : Reader) (t : Token) : Option Reader :=
  match r.containers, Json.key? t with
  | .map fields _ :: rest, some key => some ⟨.map fields (some key) :: rest, .colon⟩
  | _, _ => none

/-- Go on after a comma. -/
def afterComma (r : Reader) : Option Reader :=
  match r.containers with
  | .list _ :: _ => some { r with slot := .value }
  | .map .. :: _ => some { r with slot := .key }
  | [] => none

/-- Read a token. -/
def step? (r : Reader) (t : Token) : Option Reader :=
  match r.slot with
  | .value => r.value? t
  | .item => if t = .closeList then close r.containers t else r.value? t
  | .key => r.key? t
  | .entry => if t = .closeMap then close r.containers t else r.key? t
  | .colon => if t = .colon then some { r with slot := .value } else none
  | .next => if t = .comma then r.afterComma else close r.containers t
  | .complete _ => none

/-- The document, if it is complete. -/
def document? (r : Reader) : Option Document :=
  match r.slot with
  | .complete d => some d
  | _ => none

/-! ## The limit of nesting -/

/-- How many containers are open. -/
def depth (r : Reader) : Nat := r.containers.length

/-- Putting a value opens nothing. -/
theorem depth_fill {containers : List OpenContainer} {d : Document} {r : Reader}
    (h : fill containers d = some r) : r.depth = containers.length := by
  unfold fill at h
  split at h <;> cases h <;> rfl

/-- Closing a container opens nothing. -/
theorem depth_close {containers : List OpenContainer} {t : Token} {r : Reader}
    (h : close containers t = some r) : r.depth ≤ containers.length := by
  unfold close at h
  split at h
  · simp [depth_fill h]
  · simp [depth_fill h]
  · cases h

/-- A container is opened within the limit only. -/
theorem depth_open? {r s : Reader} {c : OpenContainer} {slot : Slot}
    (h : r.open? c slot = some s) : s.depth ≤ maxDepth := by
  unfold open? at h
  split at h
  · rename_i hlt
    cases h
    exact hlt
  · cases h

/-- A value stays within the limit. -/
theorem depth_value? {r s : Reader} {t : Token} (h : r.value? t = some s)
    (hr : r.depth ≤ maxDepth) : s.depth ≤ maxDepth := by
  unfold value? at h
  split at h
  · exact depth_open? h
  · exact depth_open? h
  · obtain ⟨d, _, hf⟩ := Option.bind_eq_some_iff.mp h
    exact depth_fill hf ▸ hr

/-- A key opens nothing. -/
theorem depth_key? {r s : Reader} {t : Token} (h : r.key? t = some s) : s.depth = r.depth := by
  unfold key? at h
  split at h
  · rename_i hc _
    cases h
    simp [depth, hc]
  · cases h

/-- A comma opens nothing. -/
theorem depth_afterComma {r s : Reader} (h : r.afterComma = some s) : s.depth = r.depth := by
  unfold afterComma at h
  split at h <;> cases h <;> rfl

/-- No token opens a container beyond the limit. -/
theorem depth_le_of_step? {r s : Reader} {t : Token} (h : r.step? t = some s)
    (hr : r.depth ≤ maxDepth) : s.depth ≤ maxDepth := by
  unfold step? at h
  split at h
  · -- one case for each state of the reader and token; only values open containers
    exact depth_value? h hr
  · split at h
    · exact Nat.le_trans (depth_close h) hr
    · exact depth_value? h hr
  · exact depth_key? h ▸ hr
  · split at h
    · exact Nat.le_trans (depth_close h) hr
    · exact depth_key? h ▸ hr
  · split at h
    · cases h
      exact hr
    · cases h
  · split at h
    · exact depth_afterComma h ▸ hr
    · exact Nat.le_trans (depth_close h) hr
  · cases h

/-! ## What is read -/

/-- A reader is **proper** when its open containers are, and the document when it is complete. -/
structure Proper (r : Reader) : Prop where
  containers : ∀ c ∈ r.containers, c.Proper
  document : ∀ d, r.slot = .complete d → d.Proper

variable {r s : Reader} {t : Token} {c : OpenContainer} {rest : List OpenContainer} {d : Document}
  {slot : Slot}

/-- A scalar is proper. -/
theorem proper_scalar? (h : scalar? t = some d) : d.Proper := by
  have hnumber (n : Numeral) : (number n).Proper := by
    rw [number]
    split
    · exact .whole _
    · exact .fractional
  unfold scalar? at h
  split at h
  · obtain ⟨s, -, rfl⟩ := Option.map_eq_some_iff.mp h
    exact .text s
  · split at h
    · exact Option.some.inj h ▸ .null
    · exact Option.some.inj h ▸ .bool true
    · exact Option.some.inj h ▸ .bool false
    · obtain ⟨n, -, rfl⟩ := Option.map_eq_some_iff.mp h
      exact hnumber n
  · cases h

/-- A reader that stays among proper containers is proper while nothing is complete. -/
theorem proper_mk (hc : c.Proper) (hrest : ∀ c ∈ rest, c.Proper) (hslot : ∀ d, slot ≠ .complete d) :
    Proper ⟨c :: rest, slot⟩ :=
  ⟨List.forall_mem_cons.mpr ⟨hc, hrest⟩, fun d hd => absurd hd (hslot d)⟩

/-- A proper value is put where one is awaited. -/
theorem proper_fill (hd : d.Proper) (hrest : ∀ c ∈ rest, c.Proper) (h : fill rest d = some r) :
    r.Proper := by
  unfold fill at h
  split at h
  · exact Option.some.inj h ▸
      ⟨hrest, fun d' hd' => Slot.complete.inj hd' ▸ hd⟩
  · obtain ⟨hitems, hothers⟩ := List.forall_mem_cons.mp hrest
    exact Option.some.inj h ▸
      proper_mk (List.forall_mem_cons.mpr ⟨hd, hitems⟩) hothers fun _ => Slot.noConfusion
  · obtain ⟨hfields, hothers⟩ := List.forall_mem_cons.mp hrest
    exact Option.some.inj h ▸
      proper_mk (Document.ProperFields.put hfields hd _) hothers fun _ => Slot.noConfusion
  · cases h

/-- A container that is closed is a proper document. -/
theorem proper_close (hrest : ∀ c ∈ rest, c.Proper) (h : close rest t = some r) : r.Proper := by
  unfold close at h
  split at h
  · obtain ⟨hitems, hothers⟩ := List.forall_mem_cons.mp hrest
    exact proper_fill (.list fun d hd => hitems d (List.mem_reverse.mp hd)) hothers h
  · obtain ⟨hfields, hothers⟩ := List.forall_mem_cons.mp hrest
    exact proper_fill (Document.ProperFields.proper hfields) hothers h
  · cases h

/-- An empty container is proper. -/
theorem Proper.open? (hr : r.Proper) (hc : c.Proper) (hslot : ∀ d, slot ≠ .complete d)
    (h : r.open? c slot = some s) : s.Proper := by
  unfold Reader.open? at h
  split at h
  · exact Option.some.inj h ▸ proper_mk hc hr.containers hslot
  · cases h

/-- The beginning of a value is proper. -/
theorem Proper.value? (hr : r.Proper) (h : r.value? t = some s) : s.Proper := by
  have hlist : (OpenContainer.list []).Proper := fun _ hd => absurd hd List.not_mem_nil
  have hmap : (OpenContainer.map [] none).Proper := Document.properFields_nil
  unfold Reader.value? at h
  split at h
  · exact hr.open? hlist (fun _ => Slot.noConfusion) h
  · exact hr.open? hmap (fun _ => Slot.noConfusion) h
  · obtain ⟨d, hd, hfill⟩ := Option.bind_eq_some_iff.mp h
    exact proper_fill (proper_scalar? hd) hr.containers hfill

/-- A key leaves the entries of its map as they are. -/
theorem Proper.key? (hr : r.Proper) (h : r.key? t = some s) : s.Proper := by
  unfold Reader.key? at h
  split at h
  · rename_i hcontainers _
    obtain ⟨hfields, hothers⟩ := List.forall_mem_cons.mp (hcontainers ▸ hr.containers)
    exact Option.some.inj h ▸ proper_mk hfields hothers fun _ => Slot.noConfusion
  · cases h

/-- A comma changes nothing but what may come next. -/
theorem Proper.afterComma (hr : r.Proper) (h : r.afterComma = some s) : s.Proper := by
  unfold Reader.afterComma at h
  split at h
  · exact Option.some.inj h ▸ ⟨hr.containers, fun _ => Slot.noConfusion⟩
  · exact Option.some.inj h ▸ ⟨hr.containers, fun _ => Slot.noConfusion⟩
  · cases h

/-- Every token leaves a reader proper. -/
theorem Proper.step? (hr : r.Proper) (h : r.step? t = some s) : s.Proper := by
  unfold Reader.step? at h
  split at h
  · exact hr.value? h
  · split at h
    · exact proper_close hr.containers h
    · exact hr.value? h
  · exact hr.key? h
  · split at h
    · exact proper_close hr.containers h
    · exact hr.key? h
  · split at h
    · exact Option.some.inj h ▸ ⟨hr.containers, fun _ => Slot.noConfusion⟩
    · cases h
  · split at h
    · exact hr.afterComma h
    · exact proper_close hr.containers h
  · cases h

/-- So do all tokens one after the other. -/
theorem proper_of_foldlM {tokens : List Token} (hr : r.Proper)
    (h : tokens.foldlM Reader.step? r = some s) : s.Proper := by
  induction tokens generalizing r with
  | nil => exact Option.some.inj h ▸ hr
  | cons t rest ih =>
    obtain ⟨u, hu, hrest⟩ := Option.bind_eq_some_iff.mp h
    exact ih (hr.step? hu) hrest

end Reader

end Telecontrol.Json
