import Telecontrol.Document.Basic
import Telecontrol.Document.Yaml.Node

/-! # Values of YAML

What the nodes of YAML say. The tag of a scalar tells what it is; a plain scalar without a tag is
whatever its text looks like, and any other scalar is a text. Tags of one's own have no meaning.

Main statement: `Yaml.proper_root?` (what a root says is proper). -/

namespace Telecontrol.Yaml

/-! ## Scalars -/

/-- Whether a text is a row of digits with a superfluous zero before it. -/
def hasLeadingZero (cs : List Char) : Bool :=
  let digits := (Numeral.splitSign cs).2
  1 < digits.length && digits.head? = some '0' && digits.all Char.isDigit

/-- The digits after a mark of their radix. -/
def radix? : List Char → Option Nat
  | '0' :: 'x' :: cs => Numeral.digits? 16 cs
  | '0' :: 'o' :: cs => Numeral.digits? 8 cs
  | '0' :: 'b' :: cs => Numeral.digits? 2 cs
  | _ => none

/-- A whole number in decimal, hexadecimal, octal or binary digits. It has 128 bits at most, and a
superfluous zero makes a text of it. -/
def whole? (cs : List Char) : Option Int :=
  let (sign, digits) := Numeral.splitSign cs
  let number := (radix? digits).or
    (if hasLeadingZero cs then none else Numeral.digits? 10 digits)
  number.bind fun n =>
    if sign = some '-' then if n ≤ Nat.pow 2 127 then some (-n) else none
    else if n < Nat.pow 2 128 then some n else none

/-- Whether a text is a number as a fraction or with an exponent, or one of the special values. -/
def isFractional (cs : List Char) : Bool :=
  [".inf", ".Inf", ".INF"].contains (String.ofList (Numeral.splitSign cs).2) ||
    [".nan", ".NaN", ".NAN"].contains (String.ofList cs) ||
    (Numeral.read? cs).any (!·.isTooLarge)

/-- Whether a text is a word for the absence of a value. -/
def isNull (text : String) : Bool := ["null", "Null", "NULL", "~"].contains text

/-- Read a truth value. -/
def bool? (text : String) : Option Bool :=
  if ["true", "True", "TRUE"].contains text then some true
  else if ["false", "False", "FALSE"].contains text then some false
  else none

/-- What a plain scalar looks like. -/
def plain (text : String) : Document :=
  if text.isEmpty || isNull text then .null
  else match bool? text, whole? text.toList with
    | some b, _ => .bool b
    | none, some n => .whole n
    | none, none =>
      if !hasLeadingZero text.toList && isFractional text.toList then .fractional else .text text

/-- Whether a tag is one's own. -/
def isOwn (tag : Option String) : Bool := tag.any fun t => t.toList.head? = some '!'

/-- The document of a scalar. -/
def scalar? (tag : Option String) (isPlain : Bool) (text : String) : Option Document :=
  match tag with
  | none => some (if isPlain then plain text else .text text)
  | some "tag:yaml.org,2002:bool" => (bool? text).map .bool
  | some "tag:yaml.org,2002:int" => (whole? text.toList).map .whole
  | some "tag:yaml.org,2002:float" => if isFractional text.toList then some .fractional else none
  | some "tag:yaml.org,2002:null" => if isNull text then some .null else none
  | tag => if isOwn tag then none else some (.text text)

/-! ## Nodes -/

/-- How many lists and maps may stand within one another. -/
def maxDepth : Nat := 128

/-- Follow a reference. The state says how many more may be followed, so that a short text cannot
stand for a huge document. -/
def follow? (r : NodeReader) : Node → StateT Nat Option Node
  | .reference number => fun left => do
    let node ← r.target? number
    if 0 < left then some (node, left - 1) else none
  | node => pure node

/-- The key that a node is: the text of a scalar, whatever it looks like. -/
def key? (r : NodeReader) (node : Node) : StateT Nat Option String := do
  match ← follow? r node with
  | .scalar _ _ text => pure text
  | _ => failure

/-- The entries of a map whose values are read by `value?`. A key that comes twice has its last
value. -/
def fields? (r : NodeReader) (value? : Node → StateT Nat Option Document)
    (entries : List (Node × Node)) : StateT Nat Option Document.Fields :=
  entries.foldlM (fun fields (k, v) => do
    let key ← key? r k
    return Document.put key (← value? v) fields) []

/-- The document of a node that holds no others. -/
def leaf? : Node → StateT Nat Option Document
  | .scalar tag isPlain text => fun left => (scalar? tag isPlain text).map (·, left)
  | _ => failure

/-- The document of a node, in which `depth` lists and maps may stand within one another. -/
def document? (r : NodeReader) : Nat → Node → StateT Nat Option Document
  | 0, node => do leaf? (← follow? r node)
  | depth + 1, node => do
    match ← follow? r node with
    | .list tag items =>
      if isOwn tag then failure else .list <$> items.mapM (document? r depth)
    | .map tag entries =>
      if isOwn tag then failure else .map <$> fields? r (document? r depth) entries
    | node => leaf? node

/-- The entries of the root, which is a map with any tag, or empty. For every beginning and end of
a node a hundred references may be followed. -/
def root? (r : NodeReader) : Node → Option Document
  | .map _ entries => (fields? r (document? r (maxDepth - 1)) entries (100 * r.size)).map (.map ·.1)
  | .scalar _ true "" => some (.map [])
  | _ => none

/-! ## What nodes say is proper -/

variable {r : NodeReader} {left left' : Nat} {d : Document}

/-- A plain scalar is proper. -/
theorem proper_plain (text : String) : (plain text).Proper := by
  rw [plain]
  split
  · exact .null
  · split
    · exact .bool _
    · exact .whole _
    · split
      · exact .fractional
      · exact .text _

/-- Every scalar is proper. -/
theorem proper_scalar? {tag : Option String} {isPlain : Bool} {text : String}
    (h : scalar? tag isPlain text = some d) : d.Proper := by
  rw [scalar?.eq_def] at h
  -- without a tag the text decides, unless it was quoted; each known tag asks for its own kind
  split at h
  · split at h
    · exact Option.some.inj h ▸ proper_plain text
    · exact Option.some.inj h ▸ .text text
  · obtain ⟨b, -, rfl⟩ := Option.map_eq_some_iff.mp h
    exact .bool b
  · obtain ⟨n, -, rfl⟩ := Option.map_eq_some_iff.mp h
    exact .whole n
  · split at h
    · exact Option.some.inj h ▸ .fractional
    · cases h
  · split at h
    · exact Option.some.inj h ▸ .null
    · cases h
  · split at h
    · cases h
    · exact Option.some.inj h ▸ .text text

/-- What two steps come to, one after the other, while references are counted. -/
theorem bind_eq_some_iff {α β : Type} {x : StateT Nat Option α} {f : α → StateT Nat Option β}
    {b : β} : (x >>= f) left = some (b, left') ↔
      ∃ a between, x left = some (a, between) ∧ f a between = some (b, left') := by
  simp [bind, StateT.bind, Option.bind_eq_some_iff]

/-- What a step comes to whose result is changed. -/
theorem map_eq_some_iff {α β : Type} {x : StateT Nat Option α} {f : α → β} {b : β} :
    (f <$> x) left = some (b, left') ↔ ∃ a, x left = some (a, left') ∧ f a = b := by
  simp [Functor.map, StateT.map, Option.bind_eq_some_iff]

/-- The entries of a map are proper when their values are. -/
theorem proper_fields? {value? : Node → StateT Nat Option Document}
    (hvalue : ∀ node left d left', value? node left = some (d, left') → d.Proper)
    {entries : List (Node × Node)} {fields : Document.Fields}
    (h : fields? r value? entries left = some (fields, left')) : Document.ProperFields fields := by
  -- generalised over the fields that were read before
  have hfrom (es : List (Node × Node)) (before : Document.Fields) (left : Nat) :
      Document.ProperFields before → (es.foldlM (fun fields (k, v) => do
        let key ← key? r k
        return Document.put key (← value? v) fields) before : StateT Nat Option _) left =
          some (fields, left') → Document.ProperFields fields := by
    induction es generalizing before left with
    | nil =>
      intro hbefore h
      cases h
      exact hbefore
    | cons e es ih =>
      intro hbefore h
      rw [List.foldlM_cons] at h
      obtain ⟨next, between, hnext, h⟩ := bind_eq_some_iff.mp h
      obtain ⟨key, after, -, hnext⟩ := bind_eq_some_iff.mp hnext
      obtain ⟨d, later, hd, hnext⟩ := bind_eq_some_iff.mp hnext
      cases hnext
      exact ih _ _ (hbefore.put (hvalue _ _ _ _ hd) key) h
  exact hfrom entries [] left Document.properFields_nil h

/-- The items of a list are proper when each of them is. -/
theorem proper_items? {value? : Node → StateT Nat Option Document}
    (hvalue : ∀ node left d left', value? node left = some (d, left') → d.Proper)
    {items : List Node} {ds : List Document}
    (h : items.mapM value? left = some (ds, left')) : ∀ d ∈ ds, d.Proper := by
  induction items generalizing left ds left' with
  | nil =>
    cases h
    exact fun _ hd => absurd hd List.not_mem_nil
  | cons node items ih =>
    rw [List.mapM_cons] at h
    obtain ⟨d, between, hd, h⟩ := bind_eq_some_iff.mp h
    obtain ⟨rest, later, hrest, h⟩ := bind_eq_some_iff.mp h
    cases h
    exact List.forall_mem_cons.mpr ⟨hvalue _ _ _ _ hd, ih hrest⟩

/-- What a node says that holds no others is proper. -/
theorem proper_leaf? {node : Node} (h : leaf? node left = some (d, left')) : d.Proper := by
  cases node with
  | scalar tag isPlain text =>
    obtain ⟨d', hd, h⟩ := Option.map_eq_some_iff.mp h
    exact (Prod.mk.inj h).1 ▸ proper_scalar? hd
  | _ => cases h

/-- What a node says is proper. -/
theorem proper_document? {depth : Nat} {node : Node}
    (h : document? r depth node left = some (d, left')) : d.Proper := by
  induction depth generalizing node left d left' with
  | zero =>
    obtain ⟨n, between, -, h⟩ := bind_eq_some_iff.mp h
    exact proper_leaf? h
  | succ depth ih =>
    obtain ⟨n, between, -, h⟩ := bind_eq_some_iff.mp h
    split at h
    · split at h
      · cases h
      · obtain ⟨ds, hds, rfl⟩ := map_eq_some_iff.mp h
        exact .list (proper_items? (fun _ _ _ _ h => ih h) hds)
    · split at h
      · cases h
      · obtain ⟨fields, hfields, rfl⟩ := map_eq_some_iff.mp h
        exact (proper_fields? (fun _ _ _ _ h => ih h) hfields).proper
    · exact proper_leaf? h

/-- What a root says is proper. -/
theorem proper_root? {node : Node} (h : root? r node = some d) : d.Proper := by
  rw [root?.eq_def] at h
  split at h
  · obtain ⟨⟨fields, left⟩, hfields, rfl⟩ := Option.map_eq_some_iff.mp h
    exact (proper_fields? (fun _ _ _ _ h => proper_document? h) hfields).proper
  · exact Option.some.inj h ▸ Document.properFields_nil.proper
  · cases h

end Telecontrol.Yaml
