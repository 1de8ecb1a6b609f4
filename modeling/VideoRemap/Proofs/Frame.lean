import Mathlib.Tactic.Lemma
import VideoRemap.Frame

namespace VideoRemap.Frame

lemma exists_pixel? {f : Frame} (hf : f.WellFormed) {x y : Nat} (hx : x < f.width)
    (hy : y < f.height) : ∃ p, f.pixel? x y = some p := by
  have hrow : y * f.width + x + 1 ≤ f.width * f.height :=
    calc y * f.width + x + 1 ≤ y * f.width + f.width := by omega
      _ = (y + 1) * f.width := (Nat.succ_mul ..).symm
      _ ≤ f.height * f.width := Nat.mul_le_mul_right _ hy
      _ = f.width * f.height := Nat.mul_comm ..
  have hsize : f.offset x y + 2 < f.bytes.size := by
    rw [hf, byteCount, offset]
    omega
  have hget (k : Nat) (hk : k ≤ 2) : ∃ b, f.bytes[f.offset x y + k]? = some b :=
    ⟨_, Array.getElem?_eq_getElem (by omega)⟩
  obtain ⟨r, hr⟩ := hget 0 (by omega)
  obtain ⟨g, hg⟩ := hget 1 (by omega)
  obtain ⟨b, hb⟩ := hget 2 (by omega)
  rw [Nat.add_zero] at hr
  exact ⟨⟨r, g, b⟩, by simp only [pixel?, hr, hg, hb]; rfl⟩

lemma getElem?_bytes (pixels : List Rgb) (i : Nat) :
    (pixels.flatMap fun p => [p.r, p.g, p.b])[i * 3]? = pixels[i]?.map Rgb.r ∧
    (pixels.flatMap fun p => [p.r, p.g, p.b])[i * 3 + 1]? = pixels[i]?.map Rgb.g ∧
    (pixels.flatMap fun p => [p.r, p.g, p.b])[i * 3 + 2]? = pixels[i]?.map Rgb.b := by
  induction pixels generalizing i with
  | nil => exact ⟨rfl, rfl, rfl⟩
  | cons p pixels ih =>
    rw [List.flatMap_cons]
    cases i with
    | zero => exact ⟨rfl, rfl, rfl⟩
    | succ i =>
      rw [Nat.succ_mul, List.getElem?_cons_succ]
      exact ih i

lemma pixel?_ofPixels (width height : Nat) (pixels : List Rgb) (i : Nat) :
    (ofPixels width height pixels).pixel? (i % width) (i / width) = pixels[i]? := by
  obtain ⟨hr, hg, hb⟩ := getElem?_bytes pixels i
  simp only [pixel?, offset, ofPixels, Nat.div_add_mod', List.getElem?_toArray, hr, hg, hb]
  cases pixels[i]? <;> rfl

lemma wellFormed_ofPixels {width height : Nat} {pixels : List Rgb}
    (h : pixels.length = width * height) : (ofPixels width height pixels).WellFormed := by
  have hbytes (pixels : List Rgb) :
      (pixels.flatMap fun p => [p.r, p.g, p.b]).length = pixels.length * 3 := by
    induction pixels with
    | nil => rfl
    | cons p pixels ih =>
      simp only [List.flatMap_cons, List.length_append, ih, List.length_cons, List.length_nil]
      omega
  simp only [WellFormed, ofPixels, byteCount, List.size_toArray, hbytes, h]

end VideoRemap.Frame
