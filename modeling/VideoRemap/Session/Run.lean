import VideoRemap.Sample.Frame
import VideoRemap.Session.Basic
import VideoRemap.Sink.Basic

/-!
Running a session: batch by batch, the planned source frames are loaded, the output frames are
rendered and delivered, and what the plan no longer needs is dropped. A source frame that the plan
missed is loaded before it is read.
-/

namespace VideoRemap

structure Stats where
  framesOut : Nat
  framesDecoded : Nat
  framesSkipped : Nat
  rewinds : Nat
  evicted : Nat
  peakResident : Nat
  deriving DecidableEq

structure Work (σ τ : Type) where
  cache : Cache σ
  sink : τ
  written : Array Nat

def Cache.loadMissing {σ : Type} [Source σ] : List Nat → Cache σ → Step (Cache σ) Unit
  | [], c => (.ok (), c)
  | i :: is, c =>
    if c.holds i then c.loadMissing is
    else
      match c.loadFrame i with
      | (.error e, c) => (.error e, c)
      | (.ok (), c) => c.loadMissing is

namespace Session

variable {σ τ : Type} [Source σ] [Sink τ]

def renderIn (α β : Type) [Scalar α] [Scalar β] (s : Session) (f : Nat) (c : Cache σ) :
    Step (Cache σ) Frame :=
  let grid : Grid α := .ofSize s.size.width s.size.height f
  let coords : Except Fault (Span α × Span α × Span β) := do
    return (← s.coords.x.evaluate grid, ← s.coords.y.evaluate grid,
      ← s.coords.t.evaluate (.ofSize s.size.width s.size.height f))
  match coords with
  | .error e => (.error e, c)
  | .ok (xs, ys, ts) =>
    match c.loadMissing (referencedFrames ts c.frameCount) with
    | (.error e, c) => (.error e, c)
    | (.ok (), c) => (c.sampleFrame xs ys ts s.size.width s.size.height, c)

def render (s : Session) (f : Nat) (c : Cache σ) : Step (Cache σ) Frame :=
  match s.xy, s.t with
  | .int, .int => s.renderIn Int32 Int32 f c
  | .int, .float => s.renderIn Int32 Float32 f c
  | .float, .int => s.renderIn Float32 Int32 f c
  | .float, .float => s.renderIn Float32 Float32 f c

def write (s : Session) (f : Nat) (w : Work σ τ) : Step (Work σ τ) Unit :=
  match s.render f w.cache with
  | (.error e, c) => (.error e, { w with cache := c })
  | (.ok frame, c) =>
    match Sink.push f frame w.sink with
    | (.error e, sink) => (.error e, { w with cache := c, sink := sink })
    | (.ok (), sink) => (.ok (), { cache := c, sink := sink, written := w.written.push f })

def writeFrames (s : Session) (f : Nat) : Nat → Work σ τ → Step (Work σ τ) Unit
  | 0, w => (.ok (), w)
  | n + 1, w =>
    match s.write f w with
    | (.error e, w) => (.error e, w)
    | (.ok (), w) => s.writeFrames (f + 1) n w

def writeBatch (s : Session) (p : Plan) (r : FrameRange) (w : Work σ τ) : Step (Work σ τ) Unit :=
  match w.cache.load (p.cover r) with
  | (.error e, c) => (.error e, { w with cache := c })
  | (.ok (), c) =>
    match s.writeFrames r.start r.size { w with cache := c } with
    | (.error e, w) => (.error e, w)
    | (.ok (), w) =>
      (.ok (), { w with cache := w.cache.evictOutside (p.keep ⟨r.stop, s.size.frames⟩) })

def batchAt (s : Session) (p : Plan) (f : Nat) : FrameRange := ⟨f, min (f + p.batch) s.size.frames⟩

def writeFrom (s : Session) (p : Plan) (f : Nat) (w : Work σ τ) : Step (Work σ τ) Unit :=
  if _h : f < s.size.frames then
    match s.writeBatch p (s.batchAt p f) w with
    | (.error e, w) => (.error e, w)
    | (.ok (), w) => s.writeFrom p (s.batchAt p f).stop w
  else (.ok (), w)
termination_by s.size.frames - f
decreasing_by
  have := p.batch_pos
  simp only [batchAt]
  omega

def stats (s : Session) (c : Counters) : Stats :=
  ⟨s.size.frames, c.decoded, c.skipped, c.rewinds, c.evicted, c.peak⟩

def config (s : Session) (rate : FrameRate) : SinkConfig :=
  ⟨s.size.width, s.size.height, rate, s.size.frames⟩

/-- The run under a given plan. A source of another size than the session is for is refused before
anything else happens. -/
def runWith (s : Session) (p : Plan) (source : σ) (sink : τ) : Step (Work σ τ) Stats :=
  let info := Source.info source
  let w : Work σ τ := ⟨.start source, sink, #[]⟩
  if info.extent ≠ s.source.extent then (.error (.otherSource info.extent s.source.extent), w)
  else
    match Sink.begin (s.config info.rate) w.sink with
    | (.error e, sink) => (.error e, { w with sink := sink })
    | (.ok (), sink) =>
      match s.writeFrom p 0 { w with sink := sink } with
      | (.error e, w) => (.error e, w)
      | (.ok (), w) =>
        match Sink.finish w.sink with
        | (.error e, sink) => (.error e, { w with sink := sink })
        | (.ok (), sink) => (.ok (s.stats w.cache.counters), { w with sink := sink })

def run (s : Session) (source : σ) (sink : τ) : Step (Work σ τ) Stats := s.runWith s.plan source sink

end Session

end VideoRemap
