import VideoRemap.Fault
import VideoRemap.Path

namespace VideoRemap

structure Content where
  bytes ::
  data : List UInt8
  deriving DecidableEq

inductive Entry where
  | directory
  | file (content : Content)
  deriving DecidableEq

abbrev Location := List String

structure Disk where
  workplace : Location
  entries : List (Location × Entry)
  deriving DecidableEq

namespace Disk

def bare (workplace : Location) : Disk :=
  ⟨workplace, (List.range workplace.length).map fun k => (workplace.take (k + 1), .directory)⟩

def entry? (d : Disk) (l : Location) : Option Entry :=
  if l = [] then some .directory else d.entries.lookup l

def put (l : Location) (e : Entry) (d : Disk) : Disk :=
  { d with entries := (l, e) :: d.entries.filter (·.1 ≠ l) }

def walk (d : Disk) (l : Location) : List Move → Except OsError Location
  | [] => .ok l
  | m :: ms =>
    match d.entry? l with
    | some .directory =>
      match m with
      | .stay => d.walk l ms
      | .up => d.walk l.dropLast ms
      | .into n => if (d.entry? (l ++ [n])).isSome then d.walk (l ++ [n]) ms else .error .notFound
    | some (.file _) => .error .notDirectory
    | none => .error .notFound

def start (d : Disk) (p : Path) : Location := if p.IsAbsolute then [] else d.workplace

def locate (d : Disk) (p : Path) : Except OsError Location :=
  if p.text = "" then .error .notFound else d.walk (d.start p) p.moves

def at? (d : Disk) (p : Path) : Option Entry :=
  match d.locate p with
  | .ok l => d.entry? l
  | .error _ => none

def Exists (d : Disk) (p : Path) : Prop := (d.at? p).isSome

instance (d : Disk) (p : Path) : Decidable (d.Exists p) := inferInstanceAs (Decidable (_ = true))

def file? (d : Disk) (p : Path) : Option Content :=
  match d.at? p with
  | some (.file c) => some c
  | _ => none

def child (d : Disk) (l : Location) (before : List Move) (n : String) : Except OsError Location := do
  let parent ← d.walk l before
  match d.entry? parent with
  | some .directory => return parent ++ [n]
  | _ => .error .notDirectory

abbrev Route := List Move

def isDirectory (d : Disk) (l : Location) (r : Route) : Bool :=
  match d.walk l r.reverse with
  | .ok l => d.entry? l = some .directory
  | .error _ => false

def makeDirectory (l : Location) (r : Route) (d : Disk) : Except OsError Disk :=
  match r with
  | .into n :: before => do
    let place ← d.child l before.reverse n
    if (d.entry? place).isSome then .error .exists else return d.put place .directory
  | _ => do
    let _ ← d.walk l r.reverse
    .error .exists

def makeDirectories (l : Location) : Route → Disk → Except OsError Unit × Disk
  | [], d => (.ok (), d)
  | m :: before, d =>
    let settle (d : Disk) : Except OsError Disk → Except OsError Unit × Disk
      | .ok d => (.ok (), d)
      | .error e => if d.isDirectory l (m :: before) then (.ok (), d) else (.error e, d)
    match d.makeDirectory l (m :: before) with
    | .error .notFound =>
      match d.makeDirectories l before with
      | (.error e, d) => (.error e, d)
      | (.ok (), d) => settle d (d.makeDirectory l (m :: before))
    | r => settle d r

def makeParent (p : Path) (d : Disk) : Step Disk Unit :=
  match p.parent? with
  | none => (.ok (), d)
  | some q =>
    if q.text = "" then (.ok (), d)
    else
      match d.makeDirectories (d.start q) q.moves.reverse with
      | (.ok (), d) => (.ok (), d)
      | (.error e, d) => (.error (.directory q.text e), d)

def write? (p : Path) (c : Content) (d : Disk) : Option Disk :=
  match p.moves.reverse with
  | .into n :: before =>
    match d.child (d.start p) before.reverse n with
    | .ok place => if d.entry? place = some .directory then none else some (d.put place (.file c))
    | .error _ => none
  | _ => none

def placeFile (c : Content) (l : Location) : List Move → Disk → Disk
  | [], d => d.put l (.file c)
  | m :: ms, d =>
    let d := if l = [] then d else d.put l .directory
    match m with
    | .stay => placeFile c l ms d
    | .up => placeFile c l.dropLast ms d
    | .into n => placeFile c (l ++ [n]) ms d

end Disk

end VideoRemap
