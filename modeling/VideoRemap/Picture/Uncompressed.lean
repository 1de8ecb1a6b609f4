import VideoRemap.Picture
import VideoRemap.Picture.Bitmap

/-!
A picture library for hosts that have no other. Bitmaps are what they are everywhere. A picture in any
other format keeps its pixels as they are, behind the number of the format and its own size.
-/

namespace VideoRemap

inductive PictureFormat where
  | avif
  | jpeg
  | png
  | gif
  | webp
  | tiff
  | tga
  | dds
  | bmp
  | ico
  | hdr
  | exr
  | pnm
  | farbfeld
  | qoi
  deriving DecidableEq

namespace PictureFormat

def extensions : PictureFormat → List String
  | avif => ["avif"]
  | jpeg => ["jpg", "jpeg", "jfif"]
  | png => ["png", "apng"]
  | gif => ["gif"]
  | webp => ["webp"]
  | tiff => ["tif", "tiff"]
  | tga => ["tga"]
  | dds => ["dds"]
  | bmp => ["bmp"]
  | ico => ["ico"]
  | hdr => ["hdr"]
  | exr => ["exr"]
  | pnm => ["pbm", "pam", "ppm", "pgm", "pnm"]
  | farbfeld => ["ff"]
  | qoi => ["qoi"]

def all : List PictureFormat :=
  [avif, jpeg, png, gif, webp, tiff, tga, dds, bmp, ico, hdr, exr, pnm, farbfeld, qoi]

def IsWritable (f : PictureFormat) : Prop := f ≠ dds

instance (f : PictureFormat) : Decidable f.IsWritable := inferInstanceAs (Decidable (_ ≠ _))

def CanHold (f : PictureFormat) (e : Extent) : Prop :=
  match f with
  | png => 0 < e.width ∧ 0 < e.height
  | jpeg => e.width < UInt16.size ∧ e.height < UInt16.size
  | bmp => True
  | _ => False

instance (f : PictureFormat) (e : Extent) : Decidable (f.CanHold e) := by
  unfold CanHold
  split <;> infer_instance

def mark (f : PictureFormat) : List UInt8 := [0x70, 0x69, 0x78, (all.idxOf f).toUInt8]

end PictureFormat

def Path.pictureFormat? (p : Path) : Option PictureFormat := do
  let e ← p.kind?
  PictureFormat.all.find? fun f => f.extensions.contains e

namespace Content

def picture (format : PictureFormat) (frame : Frame) : Content :=
  if format = .bmp then bytes (Bitmap.encode frame)
  else
    bytes (format.mark ++ Bitmap.littleEndian 4 frame.width ++ Bitmap.littleEndian 4 frame.height ++
      frame.bytes.toList)

def picture? (format : PictureFormat) (c : Content) : Option Frame := do
  if format = .bmp then Bitmap.decode? c.data.toArray
  else if c.data.take 4 ≠ format.mark then none
  else
    let size := (c.data.drop 4).take 8
    return ⟨← Bitmap.number? size.toArray 0 4, ← Bitmap.number? size.toArray 4 4,
      (c.data.drop 12).toArray⟩

end Content

namespace Disk

def picture? (d : Disk) (p : Path) : Option Frame := do
  (← d.file? p).picture? (← p.pictureFormat?)

def savePicture (p : Path) (frame : Frame) (d : Disk) : Bool × Disk :=
  match p.pictureFormat? with
  | none => (false, d)
  | some format =>
    let holds := decide (format.CanHold frame.extent)
    match d.write? p (if holds then .picture format frame else .bytes []) with
    | none => (false, d)
    | some d => (holds, d)

end Disk

instance uncompressed : PictureLibrary where
  Format := PictureFormat
  format? := Path.pictureFormat?
  writes f := f.IsWritable
  read? p d := d.picture? p
  encode := .picture
  save := Disk.savePicture

end VideoRemap
