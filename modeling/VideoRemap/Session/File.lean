import VideoRemap.Session.Run
import VideoRemap.Sink.File
import VideoRemap.Source.File

namespace VideoRemap

structure Job where
  source : Path
  target : Path
  coords : String
  size : Option String
  options : Options

def Job.run [PictureLibrary] [ReportReader] (j : Job) (host : Host) : Step Host Stats :=
  let prepared : Except Fault (FileSource × Session) := do
    let source ← FileSource.ofPath j.source host
    return (source, ← Session.ofText (Source.info source) j.coords j.size j.options)
  match prepared with
  | .error e => (.error e, host)
  | .ok (source, session) =>
    let sink := FileSink.ofPath j.target session.size.frames host
    (session.run source sink).within fun w => w.sink.host host

end VideoRemap
