import VideoRemap.CommandLine.Request
import VideoRemap.Json.Printer
import VideoRemap.Picture.Uncompressed
import VideoRemap.Session.Record
import VideoRemap.Source.Report

namespace VideoRemap.CommandLine

structure Report where
  code : Nat
  output : String
  errors : String

def usageLine : String := "Usage: filmwarp [OPTIONS] <SOURCE> <DEST> <EXPR>\n"

def listed (rows : List (String × String)) : String :=
  let width := rows.foldl (fun n r => max n r.1.length) 0
  String.join (rows.map fun (name, meaning) =>
    let gap := String.ofList (List.replicate (width - name.length + 2) ' ')
    "  " ++ name ++ gap ++ meaning ++ "\n")

def helpText : String :=
  "Remap video through coordinate expressions\n\n" ++ usageLine ++ "\nArguments:\n" ++
  listed [
    ("<SOURCE>", "Source video or still image"),
    ("<DEST>", "Destination file; the container is chosen from the extension"),
    ("<EXPR>", "Coordinate triplet, e.g. `[w-1-x;y;t]`")] ++
  "\nOptions:\n" ++
  listed [
    ("-s, --size <SIZE>",
      "Output size triplet `[width;height;frames]`, evaluated against the source constants"),
    ("    --batch-size <BATCH_SIZE>",
      "Output frames produced per planning batch [default: 24]"),
    ("    --max-frames <MAX_FRAMES>",
      "Resident source frame budget (defaults to the source frame count)"),
    ("    --stats", "Print run statistics as JSON on stdout"),
    ("-v, --verbose", "Log planning details (`debug` level) unless `RUST_LOG` is set"),
    ("-h, --help", "Print help"),
    ("-V, --version", "Print version")]

def versionText : String := "filmwarp 0.1.0\n"

def usageText : String := usageLine ++ "\nFor more information, try '--help'.\n"

def hanging (first : String) (text : String) : String :=
  let margin := '\n' :: List.replicate first.length ' '
  first ++ String.ofList (text.toList.flatMap fun c => if c = '\n' then margin else [c])

def causes : List String → String
  | [cause] => "\n" ++ hanging "    " cause
  | cs => String.join (cs.zipIdx.map fun (c, i) => "\n" ++ hanging s!"    {i}: " c)

def failure (j : Job) (e : Fault) : String :=
  "Error: warp '" ++ j.source.text ++ "' -> '" ++ j.target.text ++ "'\n\nCaused by:" ++
    causes e.chain ++ "\n"

def Request.run (r : Request) (host : Host) : Report × Host :=
  match r.job.options.validate with
  | .error e => (⟨1, "", "Error: " ++ e.message ++ "\n"⟩, host)
  | .ok () =>
    match r.job.run host with
    | (.error e, host) => (⟨1, "", failure r.job e⟩, host)
    | (.ok stats, host) =>
      let output := if r.stats then Json.indented 0 (Record.toJson stats) ++ "\n" else ""
      (⟨0, output, "wrote " ++ r.job.target.text ++ "\n"⟩, host)

def run (words : List String) (host : Host) : Report × Host :=
  match Request.ofWords words with
  | .error .help => (⟨0, helpText, ""⟩, host)
  | .error .version => (⟨0, versionText, ""⟩, host)
  | .error .usage => (⟨2, "", usageText⟩, host)
  | .ok r => r.run host

end VideoRemap.CommandLine
