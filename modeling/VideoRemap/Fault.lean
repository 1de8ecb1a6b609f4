import VideoRemap.Expr.Token

/-!
Everything that can go wrong, as causes. The wording is in `Fault.message` alone.
-/

namespace VideoRemap

open Number

inductive FaultKind where
  | parse
  | io
  | validation
  | evaluation
  | other
  deriving DecidableEq

inductive Dimension where
  | width
  | height
  | frames
  deriving DecidableEq

def Dimension.name : Dimension → String
  | .width => "width"
  | .height => "height"
  | .frames => "frame count"

inductive OsError where
  | notFound
  | exists
  | notDirectory
  | isDirectory
  deriving DecidableEq

def OsError.message : OsError → String
  | .notFound => "No such file or directory (os error 2)"
  | .exists => "File exists (os error 17)"
  | .notDirectory => "Not a directory (os error 20)"
  | .isDirectory => "Is a directory (os error 21)"

structure Extent where
  width : Nat
  height : Nat
  deriving DecidableEq

def Extent.text (e : Extent) : String := s!"{e.width}x{e.height}"

inductive Fault where
  | expression (e : ExprError)
  -- per-pixel values
  | boundaryStart
  | boundaryCount (boundaries runs : Nat)
  | boundaryOrder
  | invertedClamp (low high : Int32)
  | zeroDivisor (op : Quotient) (e : Expr)
  | noOperands
  | notExact (e : Expr)
  | noValue (e : Expr)
  -- frames and rates
  | zeroRateDenominator
  | zeroRateNumerator
  | badRate (text : String)
  | byteCount (got expected : Nat)
  | outsideFrame (x y : Nat)
  -- sources
  | noFrames
  | unevenFrames (index : Nat) (got expected : Extent)
  | emptyStill
  | emptySource
  | frameExtent (index : Nat) (got expected : Extent)
  | missingSource (path : String)
  | undecodable (path : String)
  | emptyStream (path : String)
  | decoderStart (e : OsError)
  | decoderFailed (path : String) (code : Nat) (log : Option String)
  | proberStart (e : OsError)
  | proberFailed (path log : String)
  | badProbe
  | noVideoStream (path : String)
  | noStreamWidth
  | noStreamHeight
  -- sampling
  | spanLengths (xs ys ts expected : Nat)
  | notResident (index : Nat)
  -- sessions
  | zeroBatch
  | zeroBudget
  | sourceTooLarge (d : Dimension)
  | emptyInput (e : Extent) (frames : Nat)
  | emptyOutput (e : Extent) (frames : Nat)
  | otherSource (got expected : Extent)
  | sizeBelowOne (d : Dimension) (e : Expr) (v : Float)
  | sizeTooLarge (d : Dimension)
  -- sinks
  | emptyImage
  | noImageFormat (path : String)
  | imageWithoutFrames
  | imageBytes
  | imageWrite (path : String)
  | directory (path : String) (e : OsError)
  | zeroRate
  | emptyVideo
  | outputExists (path : String)
  | noEncoder
  | encoderStart (e : OsError)
  | encoderFailed (code : Nat) (log : String)
  | encoderNotStarted
  | frameOrder (index : Nat)
  | pushedExtent (got expected : Extent)
  | reported (kind : FaultKind) (text : String)

namespace Fault

def kind : Fault → FaultKind
  | expression _ => .parse
  | boundaryStart | boundaryCount .. | boundaryOrder => .validation
  | invertedClamp .. | zeroDivisor .. | noOperands | notExact _ | noValue _ => .evaluation
  | zeroRateDenominator | zeroRateNumerator | badRate _ | byteCount .. => .validation
  | outsideFrame .. => .evaluation
  | noFrames | unevenFrames .. | emptyStill => .validation
  | emptySource | frameExtent .. | missingSource _ | undecodable _ | emptyStream _ => .io
  | decoderStart _ | decoderFailed .. | proberStart _ | proberFailed .. | badProbe => .io
  | noVideoStream _ | noStreamWidth | noStreamHeight => .io
  | spanLengths .. | notResident _ => .evaluation
  | zeroBatch | zeroBudget | sourceTooLarge _ | emptyInput .. | emptyOutput .. => .validation
  | otherSource .. | sizeBelowOne .. | sizeTooLarge _ => .validation
  | emptyImage => .validation
  | noImageFormat _ => .io
  | imageWithoutFrames => .evaluation
  | imageBytes => .validation
  | imageWrite _ => .io
  | directory .. => .other
  | zeroRate | emptyVideo => .validation
  | outputExists _ | noEncoder | encoderStart _ | encoderFailed .. => .io
  | encoderNotStarted | frameOrder _ => .evaluation
  | pushedExtent .. => .validation
  | reported k _ => k

def detail : Fault → String
  | expression e => e.message
  | boundaryStart => "span offsets must start at 0"
  | boundaryCount n runs => s!"span has {n} boundaries for {runs} runs"
  | boundaryOrder => "span offsets must be strictly increasing"
  | invertedClamp low high => s!"clamp bounds are inverted: {low.toInt} > {high.toInt}"
  | zeroDivisor op e => "integer '" ++ op.symbol.toString ++ "' by zero in " ++ e.text
  | noOperands => "empty sum or product"
  | notExact e => e.text ++ " is not integer-exact; evaluate it on the float pipeline"
  | noValue e => e.text ++ " produced no value"
  | zeroRateDenominator => "Fps den must be > 0"
  | zeroRateNumerator => "Fps num must be > 0"
  | badRate text => "invalid frame rate '" ++ text ++ "'"
  | byteCount got expected => s!"rgb8 frame size mismatch: got {got} bytes, expected {expected}"
  | outsideFrame x y => s!"pixel ({x}, {y}) is outside the frame"
  | noFrames => "in-memory source needs at least one frame"
  | unevenFrames i got expected =>
    s!"in-memory frame {i} is " ++ got.text ++ ", expected " ++ expected.text
  | emptyStill => "still image has zero size"
  | emptySource => "source produced no frames"
  | frameExtent i got expected =>
    s!"source frame {i} is " ++ got.text ++ ", expected " ++ expected.text
  | missingSource path => "source '" ++ path ++ "' does not exist"
  | undecodable path => "failed to decode image '" ++ path ++ "':"
  | emptyStream path => "'" ++ path ++ "' reports a zero-sized video stream"
  | decoderStart e =>
    "failed to spawn ffmpeg (is it installed and on PATH?): " ++ e.message
  | decoderFailed path code log =>
    "ffmpeg failed decoding '" ++ path ++ s!"' (exit status: {code}): " ++
      log.getD "no diagnostics"
  | proberStart e => "failed to run ffprobe: " ++ e.message
  | proberFailed path log => "ffprobe failed for '" ++ path ++ "': " ++ log
  | badProbe => "ffprobe json parse failed:"
  | noVideoStream path => "no video stream in '" ++ path ++ "'"
  | noStreamWidth => "missing video width from ffprobe"
  | noStreamHeight => "missing video height from ffprobe"
  | spanLengths xs ys ts n => s!"coordinate spans cover {xs}/{ys}/{ts} pixels, expected {n}"
  | notResident i => s!"source frame {i} is not resident"
  | zeroBatch => "batch_size must be >= 1"
  | zeroBudget => "max_frames must be >= 1"
  | sourceTooLarge d => "source " ++ d.name ++ " is too large"
  | emptyInput e frames => "source is empty (" ++ e.text ++ s!", {frames} frames)"
  | emptyOutput e frames => "output size must be non-zero, got " ++ e.text ++ s!"x{frames}"
  | otherSource got expected =>
    "source is " ++ got.text ++ ", session was built for " ++ expected.text
  | sizeBelowOne d e v =>
    "output " ++ d.name ++ " must be >= 1, `" ++ e.text ++ "` evaluates to " ++
      String.ofList (plainNotation.double v)
  | sizeTooLarge d => "output " ++ d.name ++ " is too large"
  | emptyImage => "image sink width/height must be non-zero"
  | noImageFormat path => "cannot write image '" ++ path ++ "':"
  | imageWithoutFrames => "image sink received no frames"
  | imageBytes => "frame buffer does not match its size"
  | imageWrite path => "failed to write image '" ++ path ++ "':"
  | directory path _ => "failed to create output directory '" ++ path ++ "'"
  | zeroRate => "fps must be non-zero"
  | emptyVideo => "ffmpeg sink width/height must be non-zero"
  | outputExists path => "output file '" ++ path ++ "' already exists"
  | noEncoder => "ffmpeg is required for video output, but was not found on PATH"
  | encoderStart e => "failed to spawn ffmpeg: " ++ e.message
  | encoderFailed code log => s!"ffmpeg exited with exit status: {code}: " ++ log
  | encoderNotStarted => "ffmpeg sink not started"
  | frameOrder i => s!"ffmpeg sink received frame {i} out of order"
  | pushedExtent got expected =>
    "frame size mismatch: got " ++ got.text ++ ", expected " ++ expected.text
  | reported _ text => text

end Fault

def FaultKind.heading : FaultKind → String
  | .parse => "parse error: "
  | .io => "io error: "
  | .validation => "validation error: "
  | .evaluation => "evaluation error: "
  | .other => ""

def Fault.message (f : Fault) : String := f.kind.heading ++ f.detail

def Fault.chain (f : Fault) : List String :=
  match f with
  | .directory _ e => [f.message, e.message]
  | f => [f.message]

/-- What an action on a state of type `σ` gives, and the state it leaves, also when it fails. -/
abbrev Step (σ α : Type) := Except Fault α × σ

def Step.within {σ τ α : Type} (wrap : σ → τ) (s : Step σ α) : Step τ α := (s.1, wrap s.2)

end VideoRemap
