import VideoRemap.Source.Basic
import VideoRemap.FrameRange

/-!
The frames at hand, in front of a source that only goes forward. A frame behind the position of the
source comes back by rewinding the source and reading on from the first frame.
-/

namespace VideoRemap

structure Counters where
  decoded : Nat
  skipped : Nat
  rewinds : Nat
  evicted : Nat
  peak : Nat
  deriving DecidableEq

/-- The frames are in ascending order of their indices. -/
structure Cache (σ : Type) where
  source : σ
  frames : List (Nat × Frame)
  position : Nat
  /-- As reported by the source, or fewer once the source has ended early. -/
  frameCount : Nat
  extent : Extent
  counters : Counters

namespace Cache

variable {σ : Type}

def start [Source σ] (s : σ) : Cache σ where
  source := s
  frames := []
  position := 0
  frameCount := (Source.info s).frameCount
  extent := (Source.info s).extent
  counters := ⟨0, 0, 0, 0, 0⟩

def indices (c : Cache σ) : List Nat := c.frames.map (·.1)

def frame? (c : Cache σ) (i : Nat) : Option Frame := c.frames.lookup i

def holds (c : Cache σ) (i : Nat) : Bool := (c.frame? i).isSome

def insertFrame (i : Nat) (f : Frame) : List (Nat × Frame) → List (Nat × Frame)
  | [] => [(i, f)]
  | (j, g) :: rest =>
    if i < j then (i, f) :: (j, g) :: rest
    else if i = j then (i, f) :: rest
    else (j, g) :: insertFrame i f rest

def firstMissing (c : Cache σ) (i stop : Nat) : Nat :=
  if i < stop ∧ c.holds i then c.firstMissing (i + 1) stop else i
termination_by stop - i

def shrink (c : Cache σ) : Cache σ :=
  if c.position < c.frameCount then { c with frameCount := c.position } else c

def skip (c : Cache σ) : Cache σ :=
  { c with
    position := c.position + 1
    counters := { c.counters with skipped := c.counters.skipped + 1 } }

def keep (c : Cache σ) (f : Frame) : Cache σ :=
  { c with
    frames := insertFrame c.position f c.frames
    position := c.position + 1
    counters := { c.counters with decoded := c.counters.decoded + 1 } }

def readUpTo [Source σ] (stop first : Nat) (c : Cache σ) : Step (Cache σ) Unit :=
  if _h : c.position < stop then
    match Source.next c.source with
    | (.error e, s) => (.error e, { c with source := s })
    | (.ok none, s) => (.ok (), { c with source := s }.shrink)
    | (.ok (some f), s) =>
      if c.position < first || c.holds c.position then
        readUpTo stop first { c with source := s }.skip
      else if f.extent ≠ c.extent then
        (.error (.frameExtent c.position f.extent c.extent),
          { c with source := s, position := c.position + 1 })
      else readUpTo stop first ({ c with source := s }.keep f)
  else (.ok (), c)
termination_by stop - c.position
decreasing_by
  · simp only [skip]; omega
  · simp only [keep]; omega

def rewindFor [Source σ] (i : Nat) (c : Cache σ) : Step (Cache σ) Unit :=
  if i < c.position then
    match Source.rewind c.source with
    | (.error e, s) => (.error e, { c with source := s })
    | (.ok (), s) =>
      (.ok (), { c with
        source := s
        position := 0
        counters := { c.counters with rewinds := c.counters.rewinds + 1 } })
  else (.ok (), c)

def notePeak (c : Cache σ) : Cache σ :=
  { c with counters := { c.counters with peak := max c.counters.peak c.frames.length } }

def load [Source σ] (r : FrameRange) (c : Cache σ) : Step (Cache σ) Unit :=
  let r := r.below c.frameCount
  let first := c.firstMissing r.start r.stop
  if r.stop ≤ first then (.ok (), c)
  else
    match c.rewindFor first with
    | (.error e, c) => (.error e, c)
    | (.ok (), c) =>
      match c.readUpTo r.stop first with
      | (.error e, c) => (.error e, c)
      | (.ok (), c) => (.ok (), c.notePeak)

def loadFrame [Source σ] (i : Nat) (c : Cache σ) : Step (Cache σ) Unit := c.load ⟨i, i + 1⟩

def evictOutside (r : FrameRange) (c : Cache σ) : Cache σ :=
  let kept := c.frames.filter (·.1 ∈ r)
  { c with
    frames := kept
    counters := { c.counters with
      evicted := c.counters.evicted + (c.frames.length - kept.length) } }

end Cache

end VideoRemap
