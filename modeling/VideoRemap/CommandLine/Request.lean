import VideoRemap.Number.Reading
import VideoRemap.Session.File

namespace VideoRemap.CommandLine

inductive Flag where
  | stats
  | verbose
  | help
  | version
  deriving DecidableEq

inductive Setting where
  | size
  | batchSize
  | maxFrames
  deriving DecidableEq

inductive Switch where
  | flag (f : Flag)
  | setting (s : Setting)

def long? : String → Option Switch
  | "stats" => some (.flag .stats)
  | "verbose" => some (.flag .verbose)
  | "help" => some (.flag .help)
  | "version" => some (.flag .version)
  | "size" => some (.setting .size)
  | "batch-size" => some (.setting .batchSize)
  | "max-frames" => some (.setting .maxFrames)
  | _ => none

def short? : Char → Option Switch
  | 'v' => some (.flag .verbose)
  | 'h' => some (.flag .help)
  | 'V' => some (.flag .version)
  | 's' => some (.setting .size)
  | _ => none

inductive Stop where
  | usage
  | help
  | version
  deriving DecidableEq

structure Words where
  placed : List String
  size : Option String
  batchSize : Option Nat
  maxFrames : Option Nat
  stats : Bool
  verbose : Bool

namespace Words

def start : Words := ⟨[], none, none, none, false, false⟩

def place (word : String) (w : Words) : Except Stop Words :=
  if 3 ≤ w.placed.length ∨ (w.placed.length < 2 ∧ word = "") then .error .usage
  else .ok { w with placed := word :: w.placed }

def give (s : Setting) (value : String) (w : Words) : Except Stop Words :=
  let number := Number.naturalBelow? UInt64.size value.toList
  match s, number with
  | .size, _ => if w.size.isSome then .error .usage else .ok { w with size := some value }
  | .batchSize, some n =>
    if w.batchSize.isSome then .error .usage else .ok { w with batchSize := some n }
  | .maxFrames, some n =>
    if w.maxFrames.isSome then .error .usage else .ok { w with maxFrames := some n }
  | _, none => .error .usage

def raise (f : Flag) (w : Words) : Except Stop Words :=
  match f with
  | .help => .error .help
  | .version => .error .version
  | .stats => if w.stats then .error .usage else .ok { w with stats := true }
  | .verbose => if w.verbose then .error .usage else .ok { w with verbose := true }

def letters (w : Words) : List Char → Except Stop (Words × Option Setting)
  | [] => .ok (w, none)
  | c :: cs =>
    match short? c, cs with
    | some (.flag f), _ => do (← w.raise f).letters cs
    | some (.setting s), [] => .ok (w, some s)
    | some (.setting s), '=' :: value => do return (← w.give s (String.ofList value), none)
    | some (.setting s), value => do return (← w.give s (String.ofList value), none)
    | none, _ => .error .usage

def named (w : Words) (cs : List Char) : Except Stop (Words × Option Setting) :=
  match long? (String.ofList (cs.takeWhile (· ≠ '='))), cs.dropWhile (· ≠ '=') with
  | some (.flag f), [] => do return (← w.raise f, none)
  | some (.setting s), [] => .ok (w, some s)
  | some (.setting s), _ :: value => do return (← w.give s (String.ofList value), none)
  | _, _ => .error .usage

def word (w : Words) (text : String) : Except Stop (Words × Option Setting) :=
  match text.toList with
  | '-' :: '-' :: cs => w.named cs
  | '-' :: c :: cs => w.letters (c :: cs)
  | _ => do return (← w.place text, none)

def IsValue (text : String) : Prop := text.toList.head? ≠ some '-' ∨ text = "-"

instance (text : String) : Decidable (IsValue text) := inferInstanceAs (Decidable (_ ∨ _))

def read (w : Words) : List String → Except Stop Words
  | [] => .ok w
  | "--" :: rest => rest.foldlM (fun w word => w.place word) w
  | text :: rest => do
    match ← w.word text, rest with
    | (w, none), rest => w.read rest
    | (w, some s), value :: rest =>
      if IsValue value then (← w.give s value).read rest else .error .usage
    | (_, some _), [] => .error .usage

end Words

structure Request where
  job : Job
  stats : Bool

def Request.ofWords (words : List String) : Except Stop Request := do
  let w ← Words.start.read words
  match w.placed with
  | [coords, target, source] =>
    let options : Options := ⟨w.batchSize.getD Options.standard.batchSize, w.maxFrames⟩
    return ⟨⟨⟨source⟩, ⟨target⟩, coords, w.size, options⟩, w.stats⟩
  | _ => .error .usage

end VideoRemap.CommandLine
