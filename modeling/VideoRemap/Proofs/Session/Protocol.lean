import VideoRemap.Proofs.Session.Stage
import VideoRemap.Proofs.Sample.Resident
import VideoRemap.Sink.Memory
import VideoRemap.Sink.Recording

/-!
The calls that a run makes on its sink. They follow one sequence, and the first call that fails is the
last. What is proved of the calls that a recording sink writes down holds of the sink behind it, since
a run in front of the one is a run in front of the other.
-/

namespace VideoRemap

def SinkEvent.call : SinkEvent → SinkCall
  | begin _ => .begin
  | push i _ => .push i
  | finish => .finish

def SinkEvent.taken? : SinkEvent × Bool → Option Nat
  | (push i _, true) => some i
  | _ => none

def SinkCall.opening (n : Nat) : List SinkCall := .begin :: (List.range n).map .push

def SinkCall.sequence (n : Nat) : List SinkCall := opening n ++ [.finish]

namespace RecordingSink

variable {τ : Type}

def fresh (sink : τ) : RecordingSink τ := ⟨sink, []⟩

def calls (s : RecordingSink τ) : List SinkCall := s.events.map fun e => e.1.call

def taken (s : RecordingSink τ) : List Nat := s.events.filterMap SinkEvent.taken?

lemma failed_of_recorded {event : SinkEvent} {act : τ → Step τ Unit} {s after : RecordingSink τ} {e : Fault}
    (h : s.recorded event act = (.error e, after)) : (event, false) ∈ after.events := by
  rcases hact : act s.inner with ⟨outcome, inner⟩
  simp only [recorded, hact] at h
  obtain ⟨rfl, rfl⟩ := Prod.mk.inj h
  exact List.mem_concat_self

lemma failed_of_refuses [Sink τ] {e : Fault} {after : RecordingSink τ} (h : Sink.Refuses e after) :
    ∃ event, (event, false) ∈ after.events := by
  cases h with
  | begin h => exact ⟨_, failed_of_recorded h⟩
  | push h => exact ⟨_, failed_of_recorded h⟩
  | finish h => exact ⟨_, failed_of_recorded h⟩

end RecordingSink

variable {σ τ : Type}

def Work.unrecorded (w : Work σ (RecordingSink τ)) : Work σ τ := ⟨w.cache, w.sink.inner, w.written⟩

namespace SinkCall

lemma opening_succ (n : Nat) : opening (n + 1) = opening n ++ [.push n] := by
  simp [opening, List.range_succ]

lemma length_opening (n : Nat) : (opening n).length = n + 1 := by
  simp [opening]

lemma opening_isPrefix {n m : Nat} (h : n ≤ m) : opening n <+: opening m := by
  induction h with
  | refl => exact List.prefix_refl _
  | step _ ih =>
    rw [opening_succ]
    exact ih.trans (List.prefix_append _ _)

lemma opening_isPrefix_sequence {n m : Nat} (h : n ≤ m) : opening n <+: sequence m :=
  (opening_isPrefix h).trans (List.prefix_append _ _)

end SinkCall

namespace Session

variable (s : Session)

def Makes (f : Frame) : Prop := f.extent = s.size.extent ∧ f.WellFormed

structure Accepted (n : Nat) (w : Work σ (RecordingSink τ)) : Prop where
  calls : w.sink.calls = SinkCall.opening n
  succeeded : ∀ e ∈ w.sink.events, e.2 = true
  frames : ∀ i f b, (.push i f, b) ∈ w.sink.events → s.Makes f
  reported : w.written.toList = w.sink.taken

inductive Stopped (w : Work σ (RecordingSink τ)) : Prop
  | elsewhere {n} : n ≤ s.size.frames → s.Accepted n w → Stopped w
  | refused {n frame} {w' : Work σ (RecordingSink τ)} : n < s.size.frames → s.Accepted n w' →
      s.Makes frame → w.sink.events = w'.sink.events ++ [(.push n frame, false)] →
      w.written = w'.written → Stopped w

/-- A step of a run that brings a recording sink to `n` frames, and does the same in front of the sink
behind it. -/
structure Records (n : Nat) (r : Step (Work σ (RecordingSink τ)) Unit) (r' : Step (Work σ τ) Unit) :
    Prop where
  same : r' = r.within Work.unrecorded
  accepted : r.1 = .ok () → s.Accepted n r.2
  stopped : ∀ e, r.1 = .error e → s.Stopped r.2

variable {s} {n m : Nat} {w : Work σ (RecordingSink τ)}

lemma Records.ok (h : s.Accepted n w) : s.Records n (.ok (), w) (.ok (), w.unrecorded) :=
  ⟨rfl, fun _ => h, nofun⟩

lemma Records.error (h : s.Stopped w) (e : Fault) :
    s.Records n (.error e, w) (.error e, w.unrecorded) :=
  ⟨rfl, nofun, fun _ _ => h⟩

lemma Records.andThen {r : Step (Work σ (RecordingSink τ)) Unit} {r' : Step (Work σ τ) Unit}
    {k : Work σ (RecordingSink τ) → Step (Work σ (RecordingSink τ)) Unit}
    {k' : Work σ τ → Step (Work σ τ) Unit} (h : s.Records n r r')
    (hk : ∀ w, s.Accepted n w → s.Records m (k w) (k' w.unrecorded)) :
    s.Records m (r.andThen k) (r'.andThen k') := by
  obtain ⟨outcome, w⟩ := r
  obtain ⟨rfl, haccepted, hstopped⟩ := h
  cases outcome with
  | error e => exact .error (hstopped e rfl) e
  | ok _ => exact hk w (haccepted rfl)

section

variable {α β : Type} [Scalar α] [Scalar β] [Source σ] {c : Cache σ} {frame : Frame}

lemma renderIn_makes {f : Nat} (h : (s.renderIn α β f c).1 = .ok frame) : s.Makes frame := by
  simp only [renderIn] at h
  split at h
  · cases h
  split at h
  · cases h
  · exact Cache.extent_of_sampleFrame h

lemma render_makes {f : Nat} (h : (s.render f c).1 = .ok frame) : s.Makes frame := by
  rw [render] at h
  split at h <;> exact renderIn_makes h

end

lemma Accepted.withCache (h : s.Accepted n w) (c : Cache σ) : s.Accepted n { w with cache := c } :=
  ⟨h.calls, h.succeeded, h.frames, h.reported⟩

lemma Accepted.push {frame : Frame} (h : s.Accepted n w) (hframe : s.Makes frame) (c : Cache σ) (sink : τ) :
    s.Accepted (n + 1) ⟨c, ⟨sink, w.sink.events ++ [(.push n frame, true)]⟩, w.written.push n⟩ := by
  refine ⟨?_, ?_, ?_, ?_⟩
  · rw [SinkCall.opening_succ, ← h.calls, RecordingSink.calls, List.map_append]
    rfl
  · exact List.forall_mem_append.mpr ⟨h.succeeded, List.forall_mem_singleton.mpr rfl⟩
  · intro i f b hmem
    rcases List.mem_append.mp hmem with hmem | hmem
    · exact h.frames i f b hmem
    · cases List.mem_singleton.mp hmem
      exact hframe
  · rw [Array.toList_push, h.reported, RecordingSink.taken, RecordingSink.taken, List.filterMap_append]
    rfl

variable [Source σ] [Sink τ]

lemma write_records (hn : n < s.size.frames) (h : s.Accepted n w) :
    s.Records (n + 1) (s.write n w) (s.write n w.unrecorded) := by
  simp only [write, Work.unrecorded]
  rcases hrender : s.render n w.cache with ⟨_ | frame, c⟩
  · exact .error (.elsewhere (Nat.le_of_lt hn) (h.withCache c)) _
  · have hmakes : s.Makes frame := render_makes (congrArg Prod.fst hrender)
    simp only [Sink.push, RecordingSink.recorded]
    rcases Sink.push n frame w.sink.inner with ⟨_ | ⟨⟩, sink⟩
    · apply Records.error
      exact .refused hn h hmakes rfl rfl
    · exact .ok (h.push hmakes c sink)

lemma writeFrames_records (hm : n + m ≤ s.size.frames) (h : s.Accepted n w) :
    s.Records (n + m) (s.writeFrames n m w) (s.writeFrames n m w.unrecorded) := by
  induction m generalizing n w with
  | zero => exact .ok h
  | succ m ih =>
    rw [writeFrames_succ, writeFrames_succ, Nat.add_succ, ← Nat.succ_add]
    exact (write_records (by omega) h).andThen fun w hw => ih (by omega) hw

lemma writeBatch_records (p : Plan) (hn : n < s.size.frames) (h : s.Accepted n w) :
    s.Records (s.batchAt p n).stop (s.writeBatch p (s.batchAt p n) w)
      (s.writeBatch p (s.batchAt p n) w.unrecorded) := by
  obtain ⟨hstop, -, hle⟩ := s.batchAt_start_add_size hn p
  rcases hload : w.cache.load (p.cover (s.batchAt p n)) with ⟨_ | ⟨⟩, c⟩
  · simp only [writeBatch, Work.unrecorded, hload]
    exact .error (.elsewhere (Nat.le_of_lt hn) (h.withCache c)) _
  · rw [writeBatch_of_load hload, writeBatch_of_load (w := w.unrecorded) hload]
    have hframes := writeFrames_records (m := (s.batchAt p n).size) (hstop.symm ▸ hle) (h.withCache c)
    rw [hstop] at hframes
    exact hframes.andThen fun w hw => .ok (hw.withCache _)

lemma writeFrom_records (p : Plan) (hn : n ≤ s.size.frames) (h : s.Accepted n w) :
    s.Records s.size.frames (s.writeFrom p n w) (s.writeFrom p n w.unrecorded) := by
  induction hk : s.size.frames - n using Nat.strongRecOn generalizing n w with
  | ind k ih =>
    subst hk
    by_cases hlt : n < s.size.frames
    · obtain ⟨-, hpos, hle⟩ := s.batchAt_start_add_size hlt p
      rw [s.writeFrom_of_lt hlt, s.writeFrom_of_lt hlt]
      exact (writeBatch_records p hlt h).andThen fun w hw => ih _ (by omega) hle hw rfl
    · obtain rfl : n = s.size.frames := by omega
      rw [s.writeFrom_of_ge hlt, s.writeFrom_of_ge hlt]
      exact .ok h

inductive Accepting (s : Session) : Stage σ (RecordingSink τ) → Prop
  | batch {f w} : f ≤ s.size.frames → s.Accepted f w → Accepting s (.batch f w)
  | frame {stop f w} : f ≤ stop → stop ≤ s.size.frames → s.Accepted f w → Accepting s (.frame stop f w)

section

variable {p : Plan} {a b : Stage σ (RecordingSink τ)} {e : Fault}

omit [Source σ] [Sink τ] in
lemma accepted_begin (c : Cache σ) (config : SinkConfig) (begun : τ) :
    s.Accepted 0 ⟨c, ⟨begun, [(.begin config, true)]⟩, #[]⟩ :=
  ⟨rfl, by simp, by simp, rfl⟩

omit [Source σ] [Sink τ] in
lemma Accepting.accepted (h : s.Accepting a) :
    a.sink.calls = SinkCall.opening a.delivered ∧ ∀ c ∈ a.sink.events, c.2 = true := by
  cases h with
  | batch _ hw => exact ⟨hw.calls, hw.succeeded⟩
  | frame _ _ hw => exact ⟨hw.calls, hw.succeeded⟩

lemma Accepting.advance (h : s.Accepting a) (hstep : s.Advances p a b) : s.Accepting b := by
  cases hstep with
  | @load f w c hf _ =>
    obtain ⟨hstop, hpos, hle⟩ := s.batchAt_start_add_size hf p
    cases h with
    | batch _ hw => exact .frame (Nat.le_of_lt hpos) hle (hw.withCache c)
  | @write stop f w w' hf hwrite =>
    cases h with
    | frame _ hstop hw =>
      have haccepted := (write_records (Nat.lt_of_lt_of_le hf hstop) hw).accepted
      rw [hwrite] at haccepted
      exact .frame hf hstop (haccepted rfl)
  | @evict stop f w hf =>
    cases h with
    | frame hle hstop hw =>
      obtain rfl : f = stop := Nat.le_antisymm hle (Nat.not_lt.mp hf)
      exact .batch hstop (hw.withCache _)

lemma Accepting.reaches (h : s.Accepting a) (hreach : Relation.ReflTransGen (s.Advances p) a b) :
    s.Accepting b := by
  induction hreach with
  | refl => exact h
  | tail _ hstep ih => exact ih.advance hstep

lemma Stalls.accepting {source : σ} {sink : τ} (h : s.Stalls p source (RecordingSink.fresh sink) e a) :
    s.Accepting a := by
  obtain ⟨begun, hbegin, hreach⟩ := h.reached
  have hbegun : s.Accepted 0 (⟨.start source, begun, #[]⟩ : Work σ (RecordingSink τ)) := by
    simp only [Sink.begin, RecordingSink.recorded, RecordingSink.fresh, List.nil_append] at hbegin
    obtain ⟨hok, rfl⟩ := Prod.mk.inj hbegin
    rw [hok]
    exact accepted_begin (.start source) (s.config (Source.info source).rate) _
  exact (Accepting.batch (Nat.zero_le _) hbegun).reaches hreach

end

structure Orderly (s : Session) (w : Work σ (RecordingSink τ)) (succeeded : Bool) : Prop where
  calls : w.sink.calls <+: SinkCall.sequence s.size.frames
  stops : ∀ before e after, w.sink.events = before ++ (e, false) :: after → after = []
  complete : succeeded = true ↔
    w.sink.calls = SinkCall.sequence s.size.frames ∧ ∀ e ∈ w.sink.events, e.2 = true
  frames : ∀ i f b, (.push i f, b) ∈ w.sink.events → s.Makes f
  reported : w.written.toList = w.sink.taken

section

omit [Source σ] [Sink τ]

lemma Accepted.orderly (h : s.Accepted n w) (hn : n ≤ s.size.frames) : s.Orderly w false where
  calls := h.calls ▸ SinkCall.opening_isPrefix_sequence hn
  stops before e after heq := by
    have hfailed := h.succeeded (e, false) (by simp [heq])
    exact nomatch hfailed
  complete := by
    refine ⟨nofun, fun hcomplete => ?_⟩
    have hlength := congrArg List.length (h.calls.symm.trans hcomplete.1)
    rw [SinkCall.sequence, List.length_append, SinkCall.length_opening, SinkCall.length_opening,
      List.length_singleton] at hlength
    omega
  frames := h.frames
  reported := h.reported

lemma orderly_of_last (earlier : List (SinkEvent × Bool)) {last : SinkEvent} {succeeded : Bool}
    (hevents : w.sink.events = earlier ++ [(last, succeeded)]) (hearlier : ∀ e ∈ earlier, e.2 = true)
    (hcalls : w.sink.calls <+: SinkCall.sequence s.size.frames)
    (hwhole : succeeded = true → w.sink.calls = SinkCall.sequence s.size.frames)
    (hframes : ∀ i f b, (.push i f, b) ∈ w.sink.events → s.Makes f)
    (hreported : w.written.toList = w.sink.taken) : s.Orderly w succeeded where
  calls := hcalls
  stops before e after heq := by
    rw [hevents] at heq
    rcases List.eq_nil_or_concat after with rfl | ⟨after, a, rfl⟩
    · rfl
    · -- with something behind it, the failed call would be among the earlier ones
      rw [List.concat_eq_append, ← List.cons_append, ← List.append_assoc] at heq
      have hfailed := hearlier (e, false) (by simp [(List.append_inj' heq rfl).1])
      exact nomatch hfailed
  complete := by
    constructor
    · rintro rfl
      refine ⟨hwhole rfl, ?_⟩
      rw [hevents]
      exact List.forall_mem_append.mpr ⟨hearlier, List.forall_mem_singleton.mpr rfl⟩
    · intro hcomplete
      exact hcomplete.2 (last, succeeded) (by simp [hevents])
  frames := hframes
  reported := hreported

lemma Accepted.orderly_of_call (h : s.Accepted n w) {w' : Work σ (RecordingSink τ)} {last : SinkEvent}
    {succeeded : Bool} (hevents : w'.sink.events = w.sink.events ++ [(last, succeeded)])
    (hwritten : w'.written = w.written)
    (hcalls : SinkCall.opening n ++ [last.call] <+: SinkCall.sequence s.size.frames)
    (hwhole : succeeded = true → SinkCall.opening n ++ [last.call] = SinkCall.sequence s.size.frames)
    (hframes : ∀ i f, last = .push i f → s.Makes f) (htaken : SinkEvent.taken? (last, succeeded) = none) :
    s.Orderly w' succeeded := by
  have hall : w'.sink.calls = SinkCall.opening n ++ [last.call] := by
    rw [← h.calls, RecordingSink.calls, RecordingSink.calls, hevents, List.map_append]
    rfl
  apply orderly_of_last w.sink.events hevents h.succeeded
  · rwa [hall]
  · rwa [hall]
  · intro i f b hmem
    rw [hevents] at hmem
    rcases List.mem_append.mp hmem with hmem | hmem
    · exact h.frames i f b hmem
    · obtain ⟨hlast, -⟩ := Prod.mk.inj (List.mem_singleton.mp hmem)
      exact hframes i f hlast.symm
  · rw [hwritten, h.reported, RecordingSink.taken, RecordingSink.taken, hevents, List.filterMap_append,
      List.filterMap_cons_none htaken, List.filterMap_nil, List.append_nil]

lemma Stopped.orderly (h : s.Stopped w) : s.Orderly w false := by
  cases h with
  | elsewhere hn haccepted => exact haccepted.orderly hn
  | @refused n frame w' hn haccepted hmakes hevents hwritten =>
    apply haccepted.orderly_of_call hevents hwritten
    · rw [SinkEvent.call, ← SinkCall.opening_succ]
      exact SinkCall.opening_isPrefix_sequence hn
    · exact nofun
    · rintro i f ⟨⟩
      exact hmakes
    · rfl

lemma Accepted.finish {w' : Work σ (RecordingSink τ)} {succeeded : Bool}
    (h : s.Accepted s.size.frames w) (hevents : w'.sink.events = w.sink.events ++ [(.finish, succeeded)])
    (hwritten : w'.written = w.written) : s.Orderly w' succeeded :=
  h.orderly_of_call hevents hwritten (List.prefix_refl _) (fun _ => rfl) nofun rfl

lemma orderly_untouched (c : Cache σ) (sink : τ) : s.Orderly ⟨c, .fresh sink, #[]⟩ false where
  calls := List.nil_prefix
  stops _ _ _ heq := nomatch (List.append_eq_nil_iff.mp heq.symm).2
  complete := ⟨nofun, fun h => nomatch h.1⟩
  frames := nofun
  reported := rfl

lemma orderly_unbegun (c : Cache σ) (config : SinkConfig) (sink : τ) :
    s.Orderly ⟨c, ⟨sink, [(.begin config, false)]⟩, #[]⟩ false :=
  orderly_of_last [] rfl nofun (List.prefix_append [SinkCall.begin] _) nofun (by simp) rfl

end

lemma runWith_orderly (s : Session) (p : Plan) (source : σ) (sink : τ) :
    s.runWith p source sink = (s.runWith p source (RecordingSink.fresh sink)).within Work.unrecorded ∧
      s.Orderly (s.runWith p source (RecordingSink.fresh sink)).2
        (s.runWith p source (RecordingSink.fresh sink)).1.isOk := by
  simp only [runWith]
  split
  · exact ⟨rfl, orderly_untouched _ _⟩
  simp only [Sink.begin, RecordingSink.recorded, RecordingSink.fresh, List.nil_append]
  rcases Sink.begin (s.config (Source.info source).rate) sink with ⟨_ | ⟨⟩, begun⟩
  · exact ⟨rfl, orderly_unbegun _ _ _⟩
  obtain ⟨hsame, haccepted, hstopped⟩ := writeFrom_records p (Nat.zero_le _)
    (accepted_begin (s := s) (.start source) (s.config (Source.info source).rate) begun)
  simp only [Work.unrecorded] at hsame
  simp only [hsame, Except.isOk, Except.toBool]
  generalize (⟨.start source, ⟨begun, [(.begin (s.config (Source.info source).rate), true)]⟩, #[]⟩ :
    Work σ (RecordingSink τ)) = w at haccepted hstopped ⊢
  rcases hw : s.writeFrom p 0 w with ⟨e | ⟨⟩, w⟩ <;> rw [hw] at haccepted hstopped
  · exact ⟨rfl, (hstopped e rfl).orderly⟩
  simp only [Step.within, Work.unrecorded, Sink.finish, RecordingSink.recorded]
  rcases Sink.finish w.sink.inner with ⟨_ | ⟨⟩, sink⟩
  · exact ⟨rfl, (haccepted rfl).finish rfl rfl⟩
  · exact ⟨rfl, (haccepted rfl).finish rfl rfl⟩

lemma runWith_otherSource (p : Plan) {source : σ} (h : (Source.info source).extent ≠ s.source.extent)
    (sink : τ) : (s.runWith p source sink).1 = .error (.otherSource (Source.info source).extent s.source.extent) ∧
      (s.runWith p source sink).2.sink = sink := by
  simp only [runWith, h, ne_eq, not_false_eq_true, if_true, and_self]

theorem run_calls_in_order (s : Session) (source : σ) (sink : τ) :
    let r := s.run source (RecordingSink.fresh sink)
    s.run source sink = r.within Work.unrecorded ∧
    r.2.sink.calls <+: SinkCall.sequence s.size.frames ∧
    (∀ before e after, r.2.sink.events = before ++ (e, false) :: after → after = []) ∧
    (∀ e a, s.Stalls s.plan source (RecordingSink.fresh sink) e a →
      r.1 = .error e ∧ r.2.sink = a.sink ∧ r.2.sink.calls = SinkCall.opening a.delivered ∧
      ∀ c ∈ r.2.sink.events, c.2 = true) ∧
    (∀ e, r.1 = .error e → (∀ c ∈ r.2.sink.events, c.2 = true) →
      (Source.info source).extent ≠ s.source.extent ∨
      ∃ a, s.Stalls s.plan source (RecordingSink.fresh sink) e a) ∧
    ((∃ stats, r.1 = .ok stats) ↔
      r.2.sink.calls = SinkCall.sequence s.size.frames ∧ ∀ e ∈ r.2.sink.events, e.2 = true) ∧
    r.2.written.toList = r.2.sink.taken ∧
    (∀ i f b, (.push i f, b) ∈ r.2.sink.events →
      f.extent = s.size.extent ∧ f.bytes.size = Frame.byteCount s.size.width s.size.height) ∧
    ((Source.info source).extent ≠ s.source.extent →
      r.1 = .error (.otherSource (Source.info source).extent s.source.extent) ∧ r.2.sink.events = []) := by
  obtain ⟨hsame, horderly⟩ := s.runWith_orderly s.plan source sink
  refine ⟨hsame, horderly.calls, horderly.stops, ?_, ?_, ?_, horderly.reported, ?_, ?_⟩
  · intro e a hstalls
    obtain ⟨herror, hsink⟩ := hstalls.runWith
    rw [run, hsink]
    exact ⟨herror, rfl, hstalls.accepting.accepted⟩
  · intro e herror hsucceeded
    by_cases hextent : (Source.info source).extent = s.source.extent
    · rcases stalls_or_refuses hextent herror with hstalls | hrefuses
      · exact Or.inr hstalls
      · obtain ⟨event, hfailed⟩ := RecordingSink.failed_of_refuses hrefuses
        exact absurd (hsucceeded _ hfailed) Bool.false_ne_true
    · exact Or.inl hextent
  · apply Iff.trans _ horderly.complete
    rw [run]
    cases (s.runWith s.plan source (RecordingSink.fresh sink)).1 with
    | error e => exact ⟨nofun, nofun⟩
    | ok stats => exact ⟨fun _ => rfl, fun _ => ⟨stats, rfl⟩⟩
  · intro i f b hmem
    obtain ⟨hextent, hgood⟩ := horderly.frames i f b hmem
    obtain ⟨hwidth, hheight⟩ := Extent.mk.inj hextent
    exact ⟨hextent, by rw [hgood, hwidth, hheight]⟩
  · intro hother
    obtain ⟨herror, hsink⟩ := runWith_otherSource s.plan hother (RecordingSink.fresh sink)
    rw [run, hsink]
    exact ⟨herror, rfl⟩

example :
    let input := MemorySource.shades 3 3
    let sink : FailingSink MemorySink := ⟨.empty, some (.push 1, .missingSource "sink")⟩
    ((ofCoords input.info ⟨.var .x, .var .y, .var .t⟩ ⟨1, 1, 3⟩ ⟨2, none⟩).toOption.map fun s =>
      (s.run input (RecordingSink.fresh sink)).2.sink.calls) = some [.begin, .push 0, .push 1] := by
  decide +kernel

example :
    let input := MemorySource.shades 3 3
    let t : Expr := .quotient .remainder (.var .x) (.sum [.var .t, .literal (.int (-1))])
    ((ofCoords input.info ⟨.var .x, .var .y, t⟩ ⟨1, 1, 3⟩ ⟨2, none⟩).toOption.map fun s =>
      let r := s.run input (RecordingSink.fresh MemorySink.empty)
      (r.1.isOk, r.2.sink.events.map fun e => (e.1.call, e.2))) =
      some (false, [(.begin, true), (.push 0, true)]) := by
  decide +kernel

end Session

end VideoRemap
