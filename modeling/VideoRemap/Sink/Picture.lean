import VideoRemap.Picture
import VideoRemap.Sink.Basic

namespace VideoRemap

structure PictureSink where
  path : Path
  last : Option Frame
  disk : Disk

namespace PictureSink

def ofPath (p : Path) (d : Disk) : PictureSink := ⟨p, none, d⟩

variable [PictureLibrary]

def start (c : SinkConfig) (s : PictureSink) : Step PictureSink Unit :=
  if c.width = 0 ∨ c.height = 0 then (.error .emptyImage, s)
  else if (PictureLibrary.format? s.path).isNone then (.error (.noImageFormat s.path.text), s)
  else
    match s.disk.makeParent s.path with
    | (.error e, d) => (.error e, { s with disk := d })
    | (.ok (), d) => (.ok (), { s with last := none, disk := d })

def save (s : PictureSink) : Step PictureSink Unit :=
  match s.last with
  | none => (.error .imageWithoutFrames, s)
  | some f =>
    let size := Frame.byteCount f.width f.height
    if f.bytes.size < size then (.error .imageBytes, { s with last := none })
    else
      match PictureLibrary.save s.path { f with bytes := f.bytes.take size } s.disk with
      | (true, d) => (.ok (), { s with last := none, disk := d })
      | (false, d) => (.error (.imageWrite s.path.text), { s with last := none, disk := d })

instance : Sink PictureSink where
  begin := start
  push _ f s := (.ok (), { s with last := some f })
  finish := save

end PictureSink

end VideoRemap
