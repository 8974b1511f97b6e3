/-! # Places of a machine

A **path** leads from directory to directory to a place. The module says what a machine with given
places answers when a path is followed, and when the directories of a path are to be made.

Main statement: `Places.make_of_follow?`: where a path leads to a directory there is nothing to
make, and where it leads to a file none is made. -/

namespace Telecontrol

/-- Why a directory cannot be made. -/
inductive PlaceFault where
  | notFound
  | notDirectory
  | alreadyThere
  | nameTooLong
  | readOnly
  | zeroCharacter
  deriving DecidableEq, Repr

/-- The fault in words. -/
def PlaceFault.text : PlaceFault → String
  | .notFound => "No such file or directory (os error 2)"
  | .notDirectory => "Not a directory (os error 20)"
  | .alreadyThere => "File exists (os error 17)"
  | .nameTooLong => "File name too long (os error 36)"
  | .readOnly => "Read-only file system (os error 30)"
  | .zeroCharacter => "file name contained an unexpected NUL byte"

/-- What is at a place. -/
inductive PlaceKind where
  | file
  /-- A directory, and why nothing can be made in it, if nothing can. -/
  | directory (refusal : Option PlaceFault)
  deriving DecidableEq, Repr

/-- The names that lead to a place from the root. -/
abbrev Location := List String

/-- The **places** of a machine. -/
structure Places where
  /-- The places beside the root. -/
  entries : List (Location × PlaceKind)
  /-- Where a path begins that does not begin at the root. -/
  current : Location
  deriving Repr

namespace Places

/-- What is at a location. -/
def kind? (p : Places) (l : Location) : Option PlaceKind :=
  if l.isEmpty then some (.directory none) else p.entries.lookup l

/-- The places with one more. -/
def put (p : Places) (l : Location) (kind : PlaceKind) : Places :=
  { p with entries := (l, kind) :: p.entries }

/-- The names in a path. -/
def names (path : String) : List String := (path.splitOn "/").filter fun name => name ≠ ""

/-- Where a path begins. -/
def origin (p : Places) (path : String) : Location :=
  if path.startsWith "/" then [] else p.current

/-- Go on from a location by a name: the location, and whether something is there. -/
def step (p : Places) (l : Location) (name : String) : Except PlaceFault (Location × Bool) :=
  match p.kind? l with
  | none => .error .notFound
  | some .file => .error .notDirectory
  | some (.directory _) =>
    if name = "." then .ok (l, true)
    else if name = ".." then .ok (l.dropLast, true)
    else if 255 < name.utf8ByteSize then .error .nameTooLong
    else .ok (l ++ [name], (p.kind? (l ++ [name])).isSome)

/-- The place at the end of names. -/
def follow? (p : Places) (l : Location) : List String → Option PlaceKind
  | [] => p.kind? l
  | name :: rest =>
    match p.step l name with
    | .ok (next, true) => p.follow? next rest
    | _ => none

/-- Whether a path leads to a place. After a slash at its end there must be a directory. -/
def has (p : Places) (path : String) : Bool :=
  if path.isEmpty || path.contains '\x00' then false
  else match p.follow? (p.origin path) (names path) with
    | none => false
    | some .file => !path.endsWith "/"
    | some (.directory _) => true

/-- Make the directories that names lead through, where they are missing. -/
def make (p : Places) (l : Location) : List String → Except PlaceFault Unit
  | [] => if p.kind? l = some .file then .error .alreadyThere else .ok ()
  | name :: rest => do
    let (next, found) ← p.step l name
    if found then p.make next rest
    else match p.kind? l with
      | some (.directory (some fault)) => .error fault
      | _ => (p.put next (.directory none)).make next rest

/-- Where names lead to a place the directories on the way are there: nothing is made, and a file
at the end is in the way. -/
theorem make_of_follow? {p : Places} {l : Location} {names : List String} {kind : PlaceKind}
    (h : p.follow? l names = some kind) :
    p.make l names = if kind = .file then .error .alreadyThere else .ok () := by
  induction names generalizing l with
  | nil =>
    rw [follow?] at h
    rw [make, h]
    cases kind <;> rfl
  | cons name names ih =>
    rw [follow?] at h
    split at h
    · rename_i next hstep
      rw [make, hstep]
      exact ih h
    · cases h

/-- Why the directories of a path cannot be made, if they cannot. -/
def fault? (p : Places) (path : String) : Option PlaceFault :=
  if path.contains '\x00' then some .zeroCharacter
  else if 4096 ≤ path.utf8ByteSize then some .nameTooLong
  else if path.isEmpty then none
  else match p.make (p.origin path) (names path) with
    | .error fault => some fault
    | .ok () => none

/-- The places of a machine on which nothing was ever put. -/
def usual : Places where
  entries :=
    let directories := ["bin", "boot", "dev", "etc", "home", "lib", "lib64", "media", "mnt", "opt",
      "root", "run", "sbin", "srv", "tmp", "usr", "var"]
    let inner := [("dev", ["pts", "shm"]), ("usr", ["bin", "lib", "local", "sbin", "share"]),
      ("var", ["cache", "lib", "log", "run", "tmp"])]
    let files := [("dev", ["null", "zero", "full", "random", "urandom", "stdin", "stdout",
      "stderr", "tty"]), ("etc", ["passwd", "group", "hosts", "hostname", "resolv.conf"])]
    -- the system itself fills these two, so nobody makes anything there
    let system := [(["proc"], PlaceFault.notFound), (["proc", "self"], .notFound),
      (["sys"], .readOnly)]
    directories.map (fun name => ([name], .directory none)) ++
      inner.flatMap (fun (name, rest) => rest.map fun r => ([name, r], .directory none)) ++
      files.flatMap (fun (name, rest) => rest.map fun r => ([name, r], .file)) ++
      system.map fun (l, fault) => (l, .directory (some fault))
  current := ["root"]

end Places

end Telecontrol
