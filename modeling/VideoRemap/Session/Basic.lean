import VideoRemap.Plan
import VideoRemap.Session.Options
import VideoRemap.Session.OutputSize

/-!
A session: coordinate expressions made ready to run against a source.
-/

namespace VideoRemap

inductive Precision where
  | int
  | float
  deriving DecidableEq

def Precision.of (isExact : Bool) : Precision := if isExact then .int else .float

structure Session where
  coords : Triplet
  source : SourceInfo
  size : OutputSize
  options : Options
  xy : Precision
  t : Precision

namespace Session

def clampTo (n : Int32) (e : Expr) : Expr := .clamp 0 (n - 1) e

def ofCoords (source : SourceInfo) (coords : Triplet) (size : OutputSize) (options : Options) :
    Except Fault Session := do
  options.validate
  let c ← Constants.ofInfo source
  if c.width = 0 ∨ c.height = 0 ∨ c.length = 0 then
    .error (.emptyInput source.extent source.frameCount)
  else if size.width = 0 ∨ size.height = 0 ∨ size.frames = 0 then
    .error (.emptyOutput size.extent size.frames)
  else
    return {
      coords := ⟨clampTo c.width coords.x, clampTo c.height coords.y, clampTo c.length coords.t⟩
      source := source
      size := size
      options := options
      xy := .of (coords.x.isExact && coords.y.isExact)
      t := .of coords.t.isExact }

def ofText (source : SourceInfo) (coords : String) (size : Option String) (options : Options) :
    Except Fault Session := do
  let c ← Constants.ofInfo source
  let coords ← (Triplet.parse c coords).mapError Fault.expression
  let size ← match size with
    | some text => OutputSize.parse c text
    | none => .ok ⟨source.width, source.height, source.frameCount⟩
  ofCoords source coords size options

def planIn (ε : Type) [Endpoint ε] (s : Session) : Plan :=
  .ofExpr ε s.coords.t s.size.width s.size.height s.source.frameCount
    (s.options.maxFrames.getD s.source.frameCount) s.options.batchSize

def plan (s : Session) : Plan := s.planIn Float

end Session

end VideoRemap
