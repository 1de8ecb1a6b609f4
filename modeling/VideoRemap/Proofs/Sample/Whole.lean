import VideoRemap.Proofs.Frame
import VideoRemap.Sample.Frame

namespace VideoRemap

namespace Texel

lemma toUInt8_ofNat (v : UInt8) : (Float32.ofNat v.toNat).toUInt8 = v := by
  have hbytes : ∀ i : Fin 256, (Float32.ofNat i).toUInt8 = UInt8.ofNat i := by decide +kernel
  have hv := hbytes ⟨v.toNat, v.toNat_lt⟩
  rwa [UInt8.ofNat_toNat] at hv

@[simp] lemma toRgb_ofRgb (p : Rgb) : (ofRgb p).toRgb = p := by
  simp only [toRgb, ofRgb, toUInt8_ofNat]

end Texel

namespace Tap

lemma not_zero_lt_zero : ¬ (0 : Float32) < 0 := by decide +kernel

lemma blend_of_near (i : Nat) (read : Nat → Except Fault Texel) : blend ⟨i, i, 0⟩ read = read i := by
  simp only [blend, not_zero_lt_zero, if_false, bind_pure]

lemma of_inside {n : Nat} {v : Int32} (h : v.toInt.toNat < n) (hn : n ≤ UInt32.size) :
    of n v = ⟨v.toInt.toNat, v.toInt.toNat, 0⟩ := by
  have hlast : (n - 1) % UInt32.size = n - 1 := Nat.mod_eq_of_lt (by omega)
  have hindex : Scalar.index ((n - 1) % UInt32.size) v = v.toInt.toNat := by
    rw [hlast]
    exact Nat.min_eq_left (by omega)
  have hweight : ¬ 0 < Scalar.fraction v := not_zero_lt_zero
  simp only [of, hindex, hweight, false_and, if_false]

end Tap

lemma Frame.colour_inside {f : Frame} {x y : Int32} {p : Rgb}
    (hx : x.toInt.toNat < f.width) (hwidth : f.width ≤ UInt32.size)
    (hy : y.toInt.toNat < f.height) (hheight : f.height ≤ UInt32.size)
    (hp : f.pixel? x.toInt.toNat y.toInt.toNat = some p) :
    f.colour (.of f.width x) (.of f.height y) = .ok (.ofRgb p) := by
  rw [colour, Tap.of_inside hx hwidth, Tap.of_inside hy hheight, Tap.blend_of_near, Tap.blend_of_near]
  simp only [texel, hp]

lemma Cache.sample_inside {σ : Type} {c : Cache σ} {f : Frame} {x y t : Int32} {p : Rgb}
    (ht : t.toInt.toNat < c.frameCount) (hcount : c.frameCount ≤ UInt32.size)
    (hf : c.frame? t.toInt.toNat = some f)
    (hx : x.toInt.toNat < f.width) (hwidth : f.width ≤ UInt32.size)
    (hy : y.toInt.toNat < f.height) (hheight : f.height ≤ UInt32.size)
    (hp : f.pixel? x.toInt.toNat y.toInt.toNat = some p) : c.sample x y t = .ok p := by
  have hresident : c.resident t.toInt.toNat = .ok f := by simp only [resident, hf]
  have hcolour := Frame.colour_inside hx hwidth hy hheight hp
  simp only [sample, Tap.of_inside ht hcount, Tap.blend_of_near, hresident]
  change (f.colour (.of f.width x) (.of f.height y)) >>= _ = _
  rw [hcolour]
  exact congrArg Except.ok (Texel.toRgb_ofRgb p)

end VideoRemap
