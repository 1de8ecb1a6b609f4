import VideoRemap.CommandLine.Report

/-!
The program: finds the files that its words name, does what the words say, and leaves the file that
comes out of it. It starts no other program.
-/

namespace VideoRemap.CommandLine

def lookUp (p : Path) (d : Disk) : IO Disk := do
  try
    let bytes ← IO.FS.readBinFile p.text
    return d.placeFile (.bytes bytes.data.toList) (d.start p) p.moves
  catch _ => return d

def above (p : Path) : Nat → List Path
  | 0 => []
  | n + 1 =>
    match p.parent? with
    | some q => q :: above q n
    | none => []

def hostOf (j : Job) : IO Host := do
  let here : Path := ⟨toString (← IO.currentDir)⟩
  let names := here.moves.filterMap fun m => match m with | .into n => some n | _ => none
  let mut disk := Disk.bare names
  for p in j.source :: j.target :: above j.target j.target.moves.length do
    disk ← lookUp p disk
  return ⟨disk, ⟨none, none⟩, []⟩

def leave (j : Job) (before after : Disk) : IO Bool := do
  try
    match j.target.parent? with
    | some q => if q.text ≠ "" ∧ after.Exists q then IO.FS.createDirAll q.text
    | none => pure ()
    match after.file? j.target with
    | none => return true
    | some content =>
      if before.file? j.target = some content then return true
      if content.data.isEmpty ∨ j.target.pictureFormat? = some .bmp then
        IO.FS.writeBinFile j.target.text ⟨content.data.toArray⟩
        return true
      else return false
  catch _ => return false

def report (r : Report) : IO UInt32 := do
  (← IO.getStdout).putStr r.output
  (← IO.getStderr).putStr r.errors
  return r.code.toUInt32

end VideoRemap.CommandLine

open VideoRemap CommandLine in
def main (words : List String) : IO UInt32 := do
  match Request.ofWords words with
  | .error _ => report (run words ⟨.bare [], ⟨none, none⟩, []⟩).1
  | .ok request =>
    let host ← hostOf request.job
    let (r, after) := request.run host
    if ← leave request.job host.disk after.disk then report r
    else report ⟨1, "", failure request.job (.imageWrite request.job.target.text)⟩
