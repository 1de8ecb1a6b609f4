import VideoRemap.Picture.Uncompressed
import VideoRemap.Proofs.Disk

namespace VideoRemap

/-- What a picture library says of its writing: the file at the path then holds the picture, in the format
that the path asks for, and no directory is harmed. -/
class LawfulPictureLibrary [PictureLibrary] : Prop where
  file?_of_save {p : Path} {frame : Frame} {d d' : Disk} : frame.WellFormed →
    PictureLibrary.save p frame d = (true, d') → ∃ format, PictureLibrary.format? p = some format ∧
      d'.file? p = some (PictureLibrary.encode format frame)
  isTree_save {d : Disk} (p : Path) (frame : Frame) : d.IsTree → (PictureLibrary.save p frame d).2.IsTree

namespace Disk

variable {d d' : Disk} {p : Path} {frame : Frame}

lemma IsTree.savePicture (h : d.IsTree) (p : Path) (frame : Frame) : (d.savePicture p frame).2.IsTree := by
  simp only [Disk.savePicture]
  split
  · exact h
  split
  · exact h
  rename_i hwrite
  exact h.write? hwrite

lemma file?_of_savePicture (h : d.savePicture p frame = (true, d')) :
    ∃ format, p.pictureFormat? = some format ∧ d'.file? p = some (.picture format frame) := by
  simp only [savePicture] at h
  split at h
  · cases h
  rename_i format hformat
  split at h
  · cases h
  rename_i now hwrite
  obtain ⟨hholds, rfl⟩ := Prod.mk.inj h
  rw [if_pos hholds] at hwrite
  exact ⟨format, hformat, file?_of_write? hwrite⟩

end Disk

instance : LawfulPictureLibrary where
  file?_of_save _ h := Disk.file?_of_savePicture h
  isTree_save p frame h := h.savePicture p frame

end VideoRemap
