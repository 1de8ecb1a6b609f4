import VideoRemap.Proofs.Source.Reel
import VideoRemap.Source.Stream

/-!
A decoded video answers like frames in memory. What comes depends on the bytes and the exit of the
decoder, not on the reads that the bytes come in.
-/

namespace VideoRemap

structure Footage where
  info : SourceInfo
  path : Path
  bytes : List UInt8
  ending : Ending

/-- What is asked of a stream. A decoder that is started again gives its bytes in reads of its own. -/
inductive StreamCall where
  | next
  | rewind (output : Pipe)

namespace Footage

variable (v : Footage)

def frameBytes : Nat := Frame.byteCount v.info.width v.info.height

def frameAt (k : Nat) : Frame :=
  ⟨v.info.width, v.info.height, ((v.bytes.drop (k * v.frameBytes)).take v.frameBytes).toArray⟩

def frames : List Frame := (List.range (v.bytes.length / v.frameBytes)).map v.frameAt

def ended : Except Fault (Option Frame) :=
  if v.ending.IsClean then .ok none
  else
    .error (.decoderFailed v.path.text v.ending.code
      (if v.ending.diagnostics = "" then none else some v.ending.diagnostics))

/-- The answer after `k` others since the last start. The first that finds no frame tells how the
decoder ended. -/
def reply (k : Nat) : Except Fault (Option Frame) :=
  if (k + 1) * v.frameBytes ≤ v.bytes.length then .ok (some (v.frameAt k))
  else if k * v.frameBytes ≤ v.bytes.length then v.ended
  else .ok none

def replies (v : Footage) : Nat → List StreamCall → List (Except Fault (Option Frame))
  | _, [] => []
  | k, .next :: calls => v.reply k :: v.replies (k + 1) calls
  | _, .rewind _ :: calls => .ok none :: v.replies 0 calls

end Footage

namespace StreamSource

def answer (s : StreamSource) : StreamCall → Step StreamSource (Option Frame)
  | .next => Source.next s
  | .rewind output =>
    let (outcome, s) := Source.rewind { s with codec := { s.codec with output := output } }
    (outcome.map fun () => none, s)

def answers (s : StreamSource) : List StreamCall → List (Except Fault (Option Frame))
  | [] => []
  | call :: calls => (s.answer call).1 :: (s.answer call).2.answers calls

structure IsAt (v : Footage) (k : Nat) (s : StreamSource) : Prop where
  info : s.info = v.info
  path : s.path = v.path
  ending : s.codec.decoding = v.ending
  output : s.codec.output.contents = v.bytes
  left : ∀ p, s.pipe = some p →
    k * v.frameBytes ≤ v.bytes.length ∧ p.contents = v.bytes.drop (k * v.frameBytes)
  closed : s.pipe = none → v.bytes.length < k * v.frameBytes

variable {v : Footage} {k : Nat} {s : StreamSource}

lemma IsAt.frameBytes_eq (h : s.IsAt v k) : s.frameBytes = v.frameBytes := by
  rw [frameBytes, h.info, Footage.frameBytes]

lemma IsAt.finish_eq (h : s.IsAt v k) : s.finish = (v.ended, { s with pipe := none }) := by
  simp only [finish, Footage.ended, h.ending, h.path]
  split <;> rfl

lemma IsAt.close (h : s.IsAt v k) (hshort : v.bytes.length < (k + 1) * v.frameBytes) :
    IsAt v (k + 1) { s with pipe := none } :=
  ⟨h.info, h.path, h.ending, h.output, nofun, fun _ => hshort⟩

lemma IsAt.next (h : s.IsAt v k) :
    (Source.next s).1 = v.reply k ∧ (Source.next s).2.IsAt v (k + 1) := by
  have hsucc : (k + 1) * v.frameBytes = k * v.frameBytes + v.frameBytes := Nat.succ_mul _ _
  cases hpipe : s.pipe with
  | none =>
    have hclosed := h.closed hpipe
    simp only [Source.next, hpipe, Footage.reply]
    -- requests behind the end are counted, too, so the end stays behind
    rw [if_neg (by omega), if_neg (by omega)]
    exact ⟨rfl, h.info, h.path, h.ending, h.output, by simp [hpipe], fun _ => by omega⟩
  | some p =>
    obtain ⟨hle, hcontents⟩ := h.left p hpipe
    have hbytes : (p.fill v.frameBytes).1 = (v.bytes.drop (k * v.frameBytes)).take v.frameBytes := by
      rw [Pipe.fill_fst, hcontents]
    have hrest : (p.fill v.frameBytes).2.contents = v.bytes.drop ((k + 1) * v.frameBytes) := by
      rw [Pipe.fill_snd, hcontents, List.drop_drop, hsucc]
    have hlength : (p.fill v.frameBytes).1.length = min v.frameBytes (v.bytes.length - k * v.frameBytes) := by
      rw [hbytes, List.length_take, List.length_drop]
    simp only [Source.next, hpipe, h.frameBytes_eq, Footage.reply]
    by_cases hfits : (k + 1) * v.frameBytes ≤ v.bytes.length
    · rw [if_neg (by omega), if_pos hfits]
      refine ⟨?_, h.info, h.path, h.ending, h.output, ?_, nofun⟩
      · rw [hbytes, h.info, Footage.frameAt]
      · rintro _ ⟨⟩
        exact ⟨hfits, hrest⟩
    · rw [if_pos (by omega), if_neg hfits, if_pos hle, h.finish_eq]
      exact ⟨rfl, h.close (by omega)⟩

lemma isAt_zero {codec : Codec} (houtput : codec.output.contents = v.bytes)
    (hending : codec.decoding = v.ending) : IsAt v 0 ⟨v.info, v.path, codec, some codec.output⟩ := by
  refine ⟨rfl, rfl, hending, houtput, ?_, nofun⟩
  rintro _ ⟨⟩
  rw [Nat.zero_mul, List.drop_zero]
  exact ⟨Nat.zero_le _, houtput⟩

lemma IsAt.rewind (h : s.IsAt v k) {output : Pipe} (houtput : output.contents = v.bytes) :
    (s.answer (.rewind output)).1 = .ok none ∧ (s.answer (.rewind output)).2.IsAt v 0 := by
  obtain ⟨info, path, codec, pipe⟩ := s
  obtain ⟨rfl, rfl, hending, -, -, -⟩ := h
  exact ⟨rfl, isAt_zero houtput hending⟩

lemma IsAt.answers_eq {calls : List StreamCall} (h : s.IsAt v k)
    (hcalls : ∀ output, .rewind output ∈ calls → output.contents = v.bytes) :
    s.answers calls = v.replies k calls := by
  induction calls generalizing k s with
  | nil => rfl
  | cons call calls ih =>
    have hrest : ∀ output, .rewind output ∈ calls → output.contents = v.bytes :=
      fun output hmem => hcalls output (List.mem_cons_of_mem _ hmem)
    rw [answers]
    cases call with
    | next =>
      rw [Footage.replies, ← h.next.1, ← ih h.next.2 hrest]
      rfl
    | rewind output =>
      have hagain := h.rewind (hcalls output List.mem_cons_self)
      rw [Footage.replies, hagain.1, ih hagain.2 hrest]

lemma start_eq (hframe : 0 < v.frameBytes) (codec : Codec) :
    start v.path v.info (some codec) = .ok ⟨v.info, v.path, codec, some codec.output⟩ :=
  if_neg (Nat.ne_of_gt hframe)

lemma reply_of_clean (hframe : 0 < v.frameBytes) (hclean : v.ending.IsClean) (k : Nat) :
    v.reply k = .ok v.frames[k]? := by
  have hfits : (k + 1) * v.frameBytes ≤ v.bytes.length ↔ k < v.bytes.length / v.frameBytes :=
    (Nat.le_div_iff_mul_le hframe).symm
  rw [Footage.reply, Footage.ended, if_pos hclean, ite_self, Footage.frames]
  by_cases hk : k < v.bytes.length / v.frameBytes
  · rw [if_pos (hfits.mpr hk), List.getElem?_map, List.getElem?_range hk]
    rfl
  · rw [if_neg fun h => hk (hfits.mp h), List.getElem?_eq_none]
    rw [List.length_map, List.length_range]
    exact Nat.le_of_not_lt hk

lemma isReel (hframe : 0 < v.frameBytes) (hclean : v.ending.IsClean) :
    IsReel v.info v.frames fun i (s : StreamSource) => ∃ k, min k v.frames.length = i ∧ s.IsAt v k where
  info_eq h := by
    obtain ⟨k, -, hk⟩ := h
    exact hk.info
  next_frame {i s} hi h := by
    obtain ⟨k, hmin, hk⟩ := h
    obtain rfl : k = i := by omega
    refine ⟨(Source.next s).2, Prod.ext ?_ rfl, k + 1, by omega, hk.next.2⟩
    rw [hk.next.1, reply_of_clean hframe hclean, List.getElem?_eq_getElem hi]
  next_end {s} h := by
    obtain ⟨k, hmin, hk⟩ := h
    refine ⟨(Source.next s).2, Prod.ext ?_ rfl, k + 1, by omega, hk.next.2⟩
    rw [hk.next.1, reply_of_clean hframe hclean, List.getElem?_eq_none (by omega)]
  rewind {i s} h := by
    obtain ⟨k, -, hk⟩ := h
    exact ⟨_, rfl, 0, Nat.zero_min _, (hk.rewind hk.output).2⟩

lemma kind_of_reply {e : Fault} (h : v.reply k = .error e) : e.kind = .io := by
  simp only [Footage.reply, Footage.ended] at h
  split at h
  · exact nomatch h
  split at h
  · split at h
    · exact nomatch h
    · cases h
      rfl
  · exact nomatch h

lemma kind_of_replies {calls : List StreamCall} {e : Fault} (h : .error e ∈ v.replies k calls) :
    e.kind = .io := by
  induction calls generalizing k with
  | nil => exact nomatch h
  | cons call calls ih =>
    cases call with
    | next =>
      rcases List.mem_cons.mp h with hreply | hmem
      · exact kind_of_reply hreply.symm
      · exact ih hmem
    | rewind output =>
      rcases List.mem_cons.mp h with hreply | hmem
      · exact nomatch hreply
      · exact ih hmem

theorem answers_of_start (hframe : 0 < v.frameBytes) (codec : Codec)
    (houtput : codec.output.contents = v.bytes) (hending : codec.decoding = v.ending)
    (calls : List StreamCall) (hcalls : ∀ output, .rewind output ∈ calls → output.contents = v.bytes) :
    ∃ s, start v.path v.info (some codec) = .ok s ∧ s.answers calls = v.replies 0 calls ∧
      ∀ e, .error e ∈ s.answers calls → e.kind = .io := by
  have hanswers := (isAt_zero houtput hending).answers_eq hcalls
  refine ⟨_, start_eq hframe codec, hanswers, fun e he => ?_⟩
  rw [hanswers] at he
  exact kind_of_replies he

theorem answers_of_broken_video :
    let v : Footage := ⟨⟨1, 1, .standard, 3, rgbFormat⟩, ⟨"/v.mp4"⟩, [1, 2, 3, 4, 5, 6, 7], ⟨1, " cut\n"⟩⟩
    let output : Pipe := [.bytes 1 [2], .interrupted, .bytes 3 [4, 5, 6, 7]]
    let again : Pipe := [.interrupted, .bytes 1 [2, 3, 4, 5], .bytes 6 [], .bytes 7 []]
    ∃ s, start v.path v.info (some ⟨⟨0, ""⟩, output, v.ending, ⟨0, ""⟩⟩) = .ok s ∧
      s.answers [.next, .rewind again, .next, .next, .next, .next] =
        [.ok (some ⟨1, 1, #[1, 2, 3]⟩), .ok none, .ok (some ⟨1, 1, #[1, 2, 3]⟩),
          .ok (some ⟨1, 1, #[4, 5, 6]⟩), .error (.decoderFailed "/v.mp4" 1 (some "cut")), .ok none] := by
  intro v output again
  obtain ⟨s, hs, hanswers, -⟩ := answers_of_start (v := v) (by decide)
    ⟨⟨0, ""⟩, output, v.ending, ⟨0, ""⟩⟩ rfl rfl [.next, .rewind again, .next, .next, .next, .next]
    (by simp [again, v, Pipe.contents, Chunk.toList])
  refine ⟨s, hs, hanswers.trans ?_⟩
  clear hs hanswers
  subst v output again
  rfl

end StreamSource

end VideoRemap
