/-
TableMapper.Files.Disk — a disk as a value: what stands at each place,
and how paths lead to places.

A place is the list of names from the root to it. A path is followed
part by part from the root or from a working directory, and every part
has to be looked up in a directory that is there.
-/
import TableMapper.Files.Access
import TableMapper.Location

namespace TableMapper

/-! ## 1. Disks -/

/-- A place on a disk: the names from the root to it. -/
abbrev Place := List String

/-- What can stand at a place. -/
inductive Entry where
  | file (content : ByteArray)
  | directory

/-- What stands at the places of a disk other than the root, which is
a directory. -/
structure Disk where
  entries : List (Place × Entry) := []

namespace Disk

/-- Finds the entry of a place. -/
def find? (place : Place) : List (Place × Entry) → Option Entry
  | [] => none
  | (p, e) :: rest => if p = place then some e else find? place rest

/-- Sets the entry of a place: the one that is there, or a new one. -/
def put (place : Place) (entry : Entry) : List (Place × Entry) → List (Place × Entry)
  | [] => [(place, entry)]
  | (p, e) :: rest => if p = place then (p, entry) :: rest else (p, e) :: put place entry rest

/-- What stands at a place. -/
def get? (d : Disk) (place : Place) : Option Entry :=
  if place.isEmpty then some .directory else find? place d.entries

/-- Whether a directory stands at a place. -/
def isDirectory (d : Disk) (place : Place) : Bool :=
  match d.get? place with
  | some .directory => true
  | _ => false

/-- Sets what stands at a place other than the root. -/
def set (place : Place) (entry : Entry) (d : Disk) : Disk :=
  ⟨put place entry d.entries⟩

theorem find?_put (place : Place) (entry : Entry) (other : Place) :
    ∀ entries, find? other (put place entry entries) =
      if other = place then some entry else find? other entries
  | [] => by
    by_cases h : other = place
    · simp [put, find?, h]
    · simp [put, find?, h, Ne.symm h]
  | (p, e) :: rest => by
    by_cases hp : p = place
    · by_cases h : other = place
      · simp [put, find?, hp, h]
      · have h' : ¬ place = other := Ne.symm h
        simp [put, find?, hp, h, h']
    · have ih := find?_put place entry other rest
      by_cases h : p = other
      · have h' : ¬ other = place := fun e => hp (h.trans e)
        simp [put, find?, h, h']
      · simp [put, find?, hp, h, ih]

/-- Setting a place changes what stands there and nothing else. -/
theorem get?_set (place : Place) (entry : Entry) (d : Disk) (h : place ≠ []) (other : Place) :
    (d.set place entry).get? other = if other = place then some entry else d.get? other := by
  cases other with
  | nil => simp [get?, Ne.symm h]
  | cons n rest => simp [get?, set, find?_put]

/-! ## 2. Following paths -/

/-- A path as it is followed: where it starts, its parts, and whether a
slash after them asks for a directory. -/
structure Route where
  rooted : Bool
  parts : List String
  closed : Bool
deriving DecidableEq, Repr

/-- Reads a path, which is not empty. -/
def Route.ofString? (path : String) : Option Route :=
  let cs := path.toList
  let parts := (Text.splitOn '/' cs).filter (!·.isEmpty)
  if cs.isEmpty then none
  else some ⟨cs.head? = some '/', parts.map String.ofList, cs.getLast? = some '/'⟩

/-- Follows parts from a place. -/
def follow (d : Disk) : Place → List String → Except FileError Place
  | place, [] => .ok place
  | place, part :: rest =>
    if !d.isDirectory place then .error .notDirectory
    else if part = "." then follow d place rest
    else if part = ".." then follow d place.dropLast rest
    else match d.get? (place ++ [part]) with
      | none => .error .missing
      | some _ => follow d (place ++ [part]) rest

/-- The place where a route starts. -/
def Route.start (base : Place) (r : Route) : Place := if r.rooted then [] else base

/-- What a path leads to from a working directory. -/
def lookUp (d : Disk) (base : Place) (path : String) : Except FileError Entry := do
  match Route.ofString? path with
  | none => .error .missing
  | some r =>
    match d.get? (← d.follow (r.start base) r.parts) with
    | none => .error .missing
    | some .directory => .ok .directory
    | some (.file content) => if r.closed then .error .notDirectory else .ok (.file content)

/-- The place of the file that a path names for writing: all parts but
the last have to lead to a directory, and the last is the name of a
file or of nothing. -/
def target (d : Disk) (base : Place) (path : String) : Except FileError Place := do
  match Route.ofString? path with
  | none => .error .missing
  | some r =>
    match r.parts.getLast? with
    | none => .error .isDirectory
    | some name =>
      let parent ← d.follow (r.start base) r.parts.dropLast
      if !d.isDirectory parent then .error .notDirectory
      else if name = "." || name = ".." || r.closed || d.isDirectory (parent ++ [name]) then
        .error .isDirectory
      else .ok (parent ++ [name])

/-! ## 3. Access -/

/-- The bytes of the file that a path leads to. -/
def read (d : Disk) (base : Place) (path : String) : Except FileError ByteArray := do
  match ← d.lookUp base path with
  | .file content => .ok content
  | .directory => .error .isDirectory

/-- Whether a path leads anywhere. Only that something is missing means
that it does not; a file in place of a directory is a failure. -/
def hasEntry (d : Disk) (base : Place) (path : String) : Except FileError Bool :=
  match d.lookUp base path with
  | .ok _ => .ok true
  | .error .missing => .ok false
  | .error e => .error e

/-- The disk after a file is written. -/
def write (d : Disk) (base : Place) (path content : String) : Except FileError Disk :=
  (d.target base path).map fun place => d.set place (.file content.toUTF8)

/-- Access to a disk from a working directory. -/
def access (base : Place) : FileAccess (StateM Disk) where
  read path := return (← get).read base path
  hasEntry path := return (← get).hasEntry base path
  write path content := do
    match (← get).write base path content with
    | .ok d =>
      StateT.set d
      return .ok ()
    | .error e => return .error e

/-! ## 4. Setting a disk up -/

/-- The place of a path as it is written, whatever stands on the
disk. -/
def placeOf (base : Place) (path : String) : Place :=
  let l := (Location.join ⟨true, base.map .name⟩ (.ofString path)).normalize
  l.steps.filterMap fun
    | .name s => some s
    | _ => none

/-- All beginnings of a list but the empty one, from short to long. -/
def beginnings (place : Place) : List Place :=
  (List.range place.length).map fun n => place.take (n + 1)

/-- Makes a directory, and those around it. -/
def makeDirectory (place : Place) (d : Disk) : Disk :=
  (beginnings place).foldl (fun d p => if (d.get? p).isSome then d else d.set p .directory) d

/-- Makes a file, and the directories around it. -/
def makeFile (place : Place) (content : ByteArray) (d : Disk) : Disk :=
  (d.makeDirectory place.dropLast).set place (.file content)

/-- Removes what stands at a place and inside it. -/
def remove (place : Place) (d : Disk) : Disk :=
  ⟨d.entries.filter fun (p, _) => !place.isPrefixOf p⟩

/-- What is inside a directory, with the places as they are seen from
there. -/
def contents (base : Place) (d : Disk) : List (Place × Entry) :=
  d.entries.filterMap fun (p, e) =>
    if base.isPrefixOf p && p ≠ base then some (p.drop base.length, e) else none

end Disk

end TableMapper
