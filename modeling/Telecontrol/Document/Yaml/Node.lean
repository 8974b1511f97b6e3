import Telecontrol.Document.Yaml.Token

/-! # Nodes of YAML

A document of YAML is a tree of **nodes**. A node may be anchored, that is given a name, and a
reference stands for the anchored node. What is left out, such as the value of a key that has none,
is an empty plain scalar.

Anchors are numbered by how many names were in use before. A name that is given a second time
therefore may share its number with a later one, and a number means the node that got it last.

Main statement: `NodeReader.number?_name` (a name that was just given is known). -/

namespace Telecontrol.Yaml

/-- A **node** of a document. -/
inductive Node where
  | scalar (tag : Option String) (plain : Bool) (text : String)
  | list (tag : Option String) (items : List Node)
  | map (tag : Option String) (entries : List (Node × Node))
  /-- The anchored node of a number. -/
  | reference (number : Nat)
  deriving Repr

namespace Node

instance : Inhabited Node := ⟨.scalar none true ""⟩

/-- What is left out. -/
def empty : Node := .scalar none true ""

/-- The node of a scalar. A single exclamation mark only says that the scalar has no tag. -/
def ofScalar (tag : Option String) (plain : Bool) (text : String) : Node :=
  .scalar (tag.filter (· ≠ "!")) plain text

end Node

/-- Tokens that are being joined to nodes. -/
structure NodeReader where
  /-- The tokens that come next. -/
  tokens : List Token
  /-- What the handles of tags stand for. -/
  handles : List (String × String)
  /-- The names in use and their numbers. -/
  names : List (String × Nat)
  /-- Which of the anchored nodes a number means, the latest first. -/
  targets : List (Nat × Nat)
  /-- The anchored nodes that are complete, by the order in which they began. -/
  anchored : List (Nat × Node)
  /-- How many beginnings and ends of nodes there were. -/
  size : Nat

namespace NodeReader

/-- A reader before the first token. -/
def start (tokens : List Token) : NodeReader := ⟨tokens, Tag.handles, [], [], [], 0⟩

/-- Go on with other tokens. -/
def goOn (r : NodeReader) (tokens : List Token) : NodeReader := { r with tokens }

/-- Count beginnings and ends of nodes. -/
def grow (r : NodeReader) (n : Nat) : NodeReader := { r with size := r.size + n }

/-! ## Anchors -/

/-- The number of a name. -/
def number? (r : NodeReader) (name : String) : Option Nat := r.names.lookup name

/-- Give a name to the node that begins here. -/
def name (r : NodeReader) (name : String) : NodeReader :=
  { r with
    names := (name, r.names.length) :: r.names.filter (·.1 ≠ name)
    targets := (r.names.length, r.targets.length) :: r.targets }

/-- A name that was just given is known. -/
theorem number?_name (r : NodeReader) (name : String) :
    (r.name name).number? name = some r.names.length := by
  simp [number?, NodeReader.name]

/-- Keep a node that began as the one of an order. -/
def keep (r : NodeReader) (order : Nat) (node : Node) : NodeReader :=
  { r with anchored := (order, node) :: r.anchored }

/-- The anchored node of a number. -/
def target? (r : NodeReader) (number : Nat) : Option Node :=
  (r.targets.lookup number).bind (r.anchored.lookup ·)

/-! ## Nodes -/

/-- Read the anchor and the tag of a node, in either order. -/
def properties (r : NodeReader) : Option String × Option Tag × NodeReader :=
  match r.tokens with
  | .anchor name :: .tag tag :: rest => (some name, some tag, r.goOn rest)
  | .tag tag :: .anchor name :: rest => (some name, some tag, r.goOn rest)
  | .anchor name :: rest => (some name, none, r.goOn rest)
  | .tag tag :: rest => (none, some tag, r.goOn rest)
  | _ => (none, none, r)

/-- Whether a node in lines is left out before a token. -/
def endsEntry : Token → Bool
  | .key | .value | .blockEnd => true
  | _ => false

/-- Whether an item in lines is left out before a token. -/
def endsItem : Token → Bool
  | .item | .blockEnd => true
  | _ => false

/-- Whether a value in square brackets is left out before a token. -/
def endsListValue : Token → Bool
  | .comma | .closeList => true
  | _ => false

/-- Whether a value in braces is left out before a token. -/
def endsMapValue : Token → Bool
  | .comma | .closeMap => true
  | _ => false

/-- Where a node stands. -/
inductive Position where
  /-- In brackets. -/
  | flow
  /-- In lines. -/
  | block
  /-- In lines after a key or a colon, where a list needs no indentation. -/
  | entry
  deriving DecidableEq, Repr

mutual

/-- Read a node. -/
def node? (fuel : Nat) (position : Position) (r : NodeReader) : Option (Node × NodeReader) :=
  match fuel, r.tokens with
  | 0, _ => none
  | _ + 1, .reference name :: rest =>
    (r.number? name).map fun number => (.reference number, (r.goOn rest).grow 1)
  | fuel + 1, _ => do
    let (anchor, tag, r) := r.properties
    let text ← match tag with
      | some t => (t.text? r.handles).map some
      | none => some none
    let order := r.targets.length
    let (node, r) ← content? fuel position (anchor.isSome || tag.isSome) text
      (anchor.elim r r.name)
    return (node, if anchor.isSome then r.keep order node else r)

/-- Read what a node is; one with an anchor or a tag may be left out. -/
def content? (fuel : Nat) (position : Position) (mayBeEmpty : Bool) (tag : Option String)
    (r : NodeReader) : Option (Node × NodeReader) :=
  match fuel with
  | 0 => none
  | fuel + 1 =>
    match position, r.tokens with
    | .entry, .item :: _ =>
      (looseItems? fuel [] (r.grow 2)).map fun (items, r) => (.list tag items, r)
    | _, .scalar plain text :: rest => some (.ofScalar tag plain text, (r.goOn rest).grow 1)
    | _, .openList :: rest =>
      (flowItems? fuel true [] ((r.goOn rest).grow 2)).map fun (items, r) => (.list tag items, r)
    | _, .openMap :: rest =>
      (flowEntries? fuel true [] ((r.goOn rest).grow 2)).map fun (entries, r) =>
        (.map tag entries, r)
    | .flow, _ | _, [] => if mayBeEmpty then some (.scalar tag true "", r.grow 1) else none
    | _, .listStart :: rest =>
      (items? fuel [] ((r.goOn rest).grow 2)).map fun (items, r) => (.list tag items, r)
    | _, .mapStart :: rest =>
      (entries? fuel [] ((r.goOn rest).grow 2)).map fun (entries, r) => (.map tag entries, r)
    | _, _ => if mayBeEmpty then some (.scalar tag true "", r.grow 1) else none

/-- Read a node, unless it is left out. -/
def optional? (fuel : Nat) (position : Position) (ends : Token → Bool) (r : NodeReader) :
    Option (Node × NodeReader) :=
  match fuel with
  | 0 => none
  | fuel + 1 =>
    if r.tokens.head?.any ends then some (.empty, r.grow 1) else node? fuel position r

/-- Read a value after its colon, or none. -/
def value? (fuel : Nat) (position : Position) (ends : Token → Bool) (r : NodeReader) :
    Option (Node × NodeReader) :=
  match fuel, r.tokens with
  | 0, _ => none
  | fuel + 1, .value :: rest => optional? fuel position ends (r.goOn rest)
  | _ + 1, _ => some (.empty, r.grow 1)

/-- Read the items of a list in lines. -/
def items? (fuel : Nat) (items : List Node) (r : NodeReader) : Option (List Node × NodeReader) :=
  match fuel, r.tokens with
  | fuel + 1, .item :: rest => do
    let (node, r) ← optional? fuel .block endsItem (r.goOn rest)
    items? fuel (node :: items) r
  | _ + 1, .blockEnd :: rest => some (items.reverse, r.goOn rest)
  | _, _ => none

/-- Read the items of a list that has no indentation of its own, up to another token. -/
def looseItems? (fuel : Nat) (items : List Node) (r : NodeReader) :
    Option (List Node × NodeReader) :=
  match fuel, r.tokens with
  | 0, _ => none
  | fuel + 1, .item :: rest => do
    let (node, r) ← optional? fuel .block (fun t => endsItem t || endsEntry t) (r.goOn rest)
    looseItems? fuel (node :: items) r
  | _ + 1, _ => some (items.reverse, r)

/-- Read the entries of a map in lines. -/
def entries? (fuel : Nat) (entries : List (Node × Node)) (r : NodeReader) :
    Option (List (Node × Node) × NodeReader) :=
  match fuel, r.tokens with
  | fuel + 1, .key :: rest => do
    let (key, r) ← optional? fuel .entry endsEntry (r.goOn rest)
    let (value, r) ← value? fuel .entry endsEntry r
    entries? fuel ((key, value) :: entries) r
  | _ + 1, .blockEnd :: rest => some (entries.reverse, r.goOn rest)
  | _, _ => none

/-- Read the items of a list in brackets; all but the first come after a comma. A key among them
makes a map of one entry. -/
def flowItems? (fuel : Nat) (first : Bool) (items : List Node) (r : NodeReader) :
    Option (List Node × NodeReader) :=
  match fuel, first, r.tokens with
  | 0, _, _ => none
  | _ + 1, _, .closeList :: rest => some (items.reverse, r.goOn rest)
  | fuel + 1, false, .comma :: rest =>
    match rest with
    | .closeList :: rest => some (items.reverse, r.goOn rest)
    | _ => flowItem? fuel items (r.goOn rest)
  | _ + 1, false, _ => none
  | fuel + 1, true, _ => flowItem? fuel items r

/-- Read an item in brackets and the items after it. -/
def flowItem? (fuel : Nat) (items : List Node) (r : NodeReader) :
    Option (List Node × NodeReader) :=
  match fuel, r.tokens with
  | 0, _ => none
  | fuel + 1, .key :: rest =>
    match rest with
    | .value :: rest | .comma :: rest | .closeList :: rest => do
      -- the token by which a key is seen to be missing does not count any more
      let (value, r) ← value? fuel .flow endsListValue ((r.goOn rest).grow 3)
      flowItems? fuel false (.map none [(.empty, value)] :: items) r
    | rest => do
      let (key, r) ← node? fuel .flow ((r.goOn rest).grow 2)
      let (value, r) ← value? fuel .flow endsListValue r
      flowItems? fuel false (.map none [(key, value)] :: items) r
  | fuel + 1, _ => do
    let (node, r) ← node? fuel .flow r
    flowItems? fuel false (node :: items) r

/-- Read the entries of a map in braces; all but the first come after a comma. -/
def flowEntries? (fuel : Nat) (first : Bool) (entries : List (Node × Node)) (r : NodeReader) :
    Option (List (Node × Node) × NodeReader) :=
  match fuel, first, r.tokens with
  | 0, _, _ => none
  | _ + 1, _, .closeMap :: rest => some (entries.reverse, r.goOn rest)
  | fuel + 1, false, .comma :: rest =>
    match rest with
    | .closeMap :: rest => some (entries.reverse, r.goOn rest)
    | _ => flowEntry? fuel entries (r.goOn rest)
  | _ + 1, false, _ => none
  | fuel + 1, true, _ => flowEntry? fuel entries r

/-- Read an entry in braces and the entries after it. Without a colon the value is left out. -/
def flowEntry? (fuel : Nat) (entries : List (Node × Node)) (r : NodeReader) :
    Option (List (Node × Node) × NodeReader) :=
  match fuel, r.tokens with
  | 0, _ => none
  | fuel + 1, .key :: rest => do
    let (key, r) ← optional? fuel .flow (fun t => t = .value || endsMapValue t) (r.goOn rest)
    let (value, r) ← value? fuel .flow endsMapValue r
    flowEntries? fuel false ((key, value) :: entries) r
  | fuel + 1, _ => do
    let (key, r) ← node? fuel .flow r
    flowEntries? fuel false ((key, .empty) :: entries) (r.grow 1)

end

/-! ## Documents -/

/-- Read the directives at the head of a document: one version, which must be known, and handles
that differ from one another. -/
def directives? (hasVersion : Bool) (handles : List (String × String)) :
    List Token → Option (List (String × String) × List Token)
  | .directive (.version major minor) :: rest =>
    if !hasVersion && major = 1 && (minor = 1 || minor = 2) then directives? true handles rest
    else none
  | .directive (.handle short long) :: rest =>
    if (handles.lookup short).isNone then directives? hasVersion ((short, long) :: handles) rest
    else none
  | rest => some (handles, rest)

/-- Read the root of a document with a head. -/
def explicit? (tokens : List Token) : Option (Node × NodeReader) := do
  let (handles, rest) ← directives? false [] tokens
  match rest with
  | .documentStart :: rest =>
    let r := { start rest with handles := handles ++ Tag.handles }
    match rest with
    | [] | .documentStart :: _ | .documentEnd :: _ | .directive _ :: _ => some (.empty, r.grow 1)
    | rest => node? (5 * rest.length + 5) .block r
  | _ => none

/-- Read the root of the only document in a text; a text without tokens has none. -/
def root? (tokens : List Token) : Option (Option (Node × NodeReader)) :=
  match tokens with
  | [] => some none
  | t :: rest => do
    let (node, r) ← match t with
      | .documentStart | .directive _ => explicit? (t :: rest)
      | _ => node? (5 * (rest.length + 1) + 5) .block (start (t :: rest))
    if r.tokens.all (· = .documentEnd) then some (some (node, r)) else none

end NodeReader

end Telecontrol.Yaml
