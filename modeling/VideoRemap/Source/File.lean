import VideoRemap.Picture
import VideoRemap.Source.Probe
import VideoRemap.Source.Stream

namespace VideoRemap

inductive FileSource where
  | still (s : StillSource)
  | stream (s : StreamSource)

namespace FileSource

def ofPath [PictureLibrary] [ReportReader] (p : Path) (host : Host) : Except Fault FileSource :=
  if ¬ host.disk.Exists p then .error (.missingSource p.text)
  else if p.IsStill then
    match PictureLibrary.read? p host.disk with
    | some f => do return still (← StillSource.ofFrame (← Frame.ofBytes f.width f.height f.bytes))
    | none => .error (.undecodable p.text)
  else do
    let info ← host.tools.describe p
    stream <$> StreamSource.start p info host.tools.codec

instance : Source FileSource where
  info
    | still s => Source.info s
    | stream s => Source.info s
  next
    | still s => (Source.next s).within still
    | stream s => (Source.next s).within stream
  rewind
    | still s => (Source.rewind s).within still
    | stream s => (Source.rewind s).within stream

end FileSource

end VideoRemap
