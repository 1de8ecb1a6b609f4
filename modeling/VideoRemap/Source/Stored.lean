import VideoRemap.Source.Basic

namespace VideoRemap

def rgbFormat : String := "rgb24"

structure MemorySource where
  info : SourceInfo
  frames : List Frame
  position : Nat
  rewinds : Nat

namespace MemorySource

def firstUneven? (e : Extent) (frames : List Frame) : Option Nat :=
  frames.findIdx? fun f => f.extent ≠ e

def ofFrames (frames : List Frame) (rate : FrameRate) : Except Fault MemorySource :=
  match frames with
  | [] => .error .noFrames
  | first :: _ =>
    match firstUneven? first.extent frames with
    | some i =>
      .error (.unevenFrames i ((frames[i]?.map Frame.extent).getD first.extent) first.extent)
    | none =>
      .ok ⟨⟨first.width, first.height, rate, frames.length, rgbFormat⟩, frames, 0, 0⟩

def reporting (s : MemorySource) (frameCount : Nat) : MemorySource :=
  { s with info := { s.info with frameCount := frameCount } }

instance : Source MemorySource where
  info := info
  next s :=
    match s.frames[s.position]? with
    | some f => (.ok (some f), { s with position := s.position + 1 })
    | none => (.ok none, s)
  rewind s := (.ok (), { s with position := 0, rewinds := s.rewinds + 1 })

end MemorySource

structure StillSource where
  frame : Frame
  consumed : Bool

namespace StillSource

def ofFrame (f : Frame) : Except Fault StillSource :=
  if f.width = 0 ∨ f.height = 0 then .error .emptyStill else .ok ⟨f, false⟩

instance : Source StillSource where
  info s := ⟨s.frame.width, s.frame.height, .standard, 1, rgbFormat⟩
  next s := if s.consumed then (.ok none, s) else (.ok (some s.frame), { s with consumed := true })
  rewind s := (.ok (), { s with consumed := false })

end StillSource

structure ScriptedSource where
  info : SourceInfo
  items : List (Except Fault Frame)
  rewindFault : Option Fault
  position : Nat

instance : Source ScriptedSource where
  info := ScriptedSource.info
  next s :=
    match s.items[s.position]? with
    | some (.ok f) => (.ok (some f), { s with position := s.position + 1 })
    | some (.error e) => (.error e, { s with position := s.position + 1 })
    | none => (.ok none, s)
  rewind s :=
    match s.rewindFault with
    | some e => (.error e, s)
    | none => (.ok (), { s with position := 0 })

end VideoRemap
