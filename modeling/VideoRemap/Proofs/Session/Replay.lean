import VideoRemap.Proofs.Session.Protocol
import VideoRemap.Proofs.Sink.Encoder

/-!
What a run does to its sink. Whatever all calls preserve, a run preserves, and so the calls that a
recording sink writes down lead from the sink behind it, as it was, to that sink as it is left.
-/

namespace VideoRemap

variable {σ τ : Type}

def SinkEvent.replay [Sink τ] (sink : τ) (events : List (SinkEvent × Bool)) : τ :=
  events.foldl (fun t e => (e.1.perform t).2) sink

lemma SinkEvent.replay_concat [Sink τ] (sink : τ) (events : List (SinkEvent × Bool))
    (e : SinkEvent × Bool) :
    replay sink (events ++ [e]) = (e.1.perform (replay sink events)).2 := by
  rw [replay, List.foldl_append]
  rfl

/-- The calls have led from `sink` to the sink behind the recording one, and ended as written down. -/
structure RecordingSink.Replays [Sink τ] (sink : τ) (s : RecordingSink τ) : Prop where
  inner : s.inner = SinkEvent.replay sink s.events
  outcomes : ∀ before e after, s.events = before ++ e :: after →
    e.2 = (e.1.perform (SinkEvent.replay sink before)).1.isOk

namespace SinkCall

lemma exists_of_map_eq_sequence {n : Nat} {events : List (SinkEvent × Bool)}
    (h : events.map (·.1.call) = sequence (n + 1)) :
    ∃ earlier frame b b', events = earlier ++ [(.push n frame, b)] ++ [(.finish, b')] ∧
      earlier.map (·.1.call) = opening n := by
  rw [sequence, opening_succ] at h
  obtain ⟨firsts, lasts, rfl, hfirsts, hlasts⟩ := List.map_eq_append_iff.mp h
  obtain ⟨earlier, pushed, rfl, hearlier, hpushed⟩ := List.map_eq_append_iff.mp hfirsts
  obtain ⟨⟨push, b⟩, rfl, hpush⟩ := List.map_eq_singleton_iff.mp hpushed
  obtain ⟨⟨last, b'⟩, rfl, hlast⟩ := List.map_eq_singleton_iff.mp hlasts
  cases last with
  | finish =>
    cases push with
    | push i frame =>
      obtain rfl : i = n := push.inj hpush
      exact ⟨earlier, frame, b, b', rfl, hearlier⟩
    | _ => cases hpush
  | _ => cases hlast

end SinkCall

namespace RecordingSink

variable [Sink τ] {sink : τ} {s : RecordingSink τ}

lemma replays_fresh (sink : τ) : Replays sink (fresh sink) :=
  ⟨rfl, fun _ _ _ heq => nomatch (List.append_eq_nil_iff.mp heq.symm).2⟩

lemma Replays.recorded (h : Replays sink s) (e : SinkEvent) : Replays sink (s.recorded e e.perform).2 where
  inner := by
    change (e.perform s.inner).2 = SinkEvent.replay sink (s.events ++ [_])
    rw [SinkEvent.replay_concat, h.inner]
  outcomes before e' after heq := by
    change s.events ++ [(e, (e.perform s.inner).1.isOk)] = _ at heq
    rcases List.eq_nil_or_concat after with rfl | ⟨after, last, rfl⟩
    · obtain ⟨rfl, hlast⟩ := List.append_inj' heq rfl
      obtain rfl := List.head_eq_of_cons_eq hlast
      rw [h.inner]
    · rw [List.concat_eq_append, ← List.cons_append, ← List.append_assoc] at heq
      exact h.outcomes before e' after (List.append_inj' heq rfl).1

end RecordingSink

namespace Session

variable [Source σ] [Sink τ] {s : Session} {P : τ → Prop}

omit [Source σ] [Sink τ] in
lemma andThen_sink {r : Step (Work σ τ) Unit} {k : Work σ τ → Step (Work σ τ) Unit} (h : P r.2.sink)
    (hk : ∀ w, P w.sink → P (k w).2.sink) : P (r.andThen k).2.sink := by
  rcases r with ⟨_ | ⟨⟩, w⟩
  · exact h
  · exact hk w h

variable {w : Work σ τ}

section

variable (hpush : ∀ i f t, P t → P (Sink.push i f t).2)

include hpush

lemma write_sink (n : Nat) (h : P w.sink) : P (s.write n w).2.sink := by
  unfold write
  rcases s.render n w.cache with ⟨_ | frame, c⟩
  · exact h
  · have hpushed := hpush n frame w.sink h
    simp only
    rcases hsink : Sink.push n frame w.sink with ⟨_ | ⟨⟩, sink⟩ <;> rwa [hsink] at hpushed

lemma writeFrames_sink (n m : Nat) (h : P w.sink) : P (s.writeFrames n m w).2.sink := by
  induction m generalizing n w with
  | zero => exact h
  | succ m ih =>
    rw [writeFrames_succ]
    exact andThen_sink (write_sink hpush n h) fun w hw => ih (n + 1) hw

lemma writeBatch_sink (p : Plan) (r : FrameRange) (h : P w.sink) : P (s.writeBatch p r w).2.sink := by
  rcases hload : w.cache.load (p.cover r) with ⟨_ | ⟨⟩, c⟩
  · simp only [writeBatch, hload]
    exact h
  · rw [writeBatch_of_load hload]
    exact andThen_sink (writeFrames_sink hpush _ _ h) fun w hw => hw

lemma writeFrom_sink (p : Plan) (n : Nat) (h : P w.sink) : P (s.writeFrom p n w).2.sink := by
  induction hk : s.size.frames - n using Nat.strongRecOn generalizing n w with
  | ind k ih =>
    subst hk
    by_cases hlt : n < s.size.frames
    · obtain ⟨-, hpos, -⟩ := s.batchAt_start_add_size hlt p
      rw [s.writeFrom_of_lt hlt]
      exact andThen_sink (writeBatch_sink hpush p _ h) fun w hw => ih _ (by omega) _ hw rfl
    · rw [s.writeFrom_of_ge hlt]
      exact h

end

lemma runWith_sink (hcall : ∀ (e : SinkEvent) t, P t → P (e.perform t).2) (s : Session) (p : Plan)
    (source : σ) {sink : τ} (h : P sink) : P (s.runWith p source sink).2.sink := by
  simp only [runWith]
  split
  · exact h
  have hbegun := hcall (.begin (s.config (Source.info source).rate)) sink h
  rcases hbegin : Sink.begin (s.config (Source.info source).rate) sink with ⟨_ | ⟨⟩, begun⟩
  all_goals
    simp only [SinkEvent.perform, hbegin] at hbegun
  · exact hbegun
  have hwritten : P (s.writeFrom p 0 ⟨.start source, begun, #[]⟩).2.sink :=
    writeFrom_sink (fun i f => hcall (.push i f)) p 0 hbegun
  simp only
  rcases hwrite : s.writeFrom p 0 ⟨.start source, begun, #[]⟩ with ⟨_ | ⟨⟩, w⟩ <;>
    rw [hwrite] at hwritten
  · exact hwritten
  have hfinished := hcall .finish w.sink hwritten
  simp only [SinkEvent.perform] at hfinished ⊢
  rcases hfinish : Sink.finish w.sink with ⟨_ | ⟨⟩, sink⟩ <;> rwa [hfinish] at hfinished

lemma runWith_replays (s : Session) (p : Plan) (source : σ) (sink : τ) :
    RecordingSink.Replays sink (s.runWith p source (RecordingSink.fresh sink)).2.sink := by
  apply runWith_sink (P := RecordingSink.Replays sink) _ s p source (RecordingSink.replays_fresh sink)
  intro e t ht
  cases e with
  | begin c => exact ht.recorded (.begin c)
  | push i f => exact ht.recorded (.push i f)
  | finish => exact ht.recorded .finish

omit [Source σ] [Sink τ] in
lemma Orderly.of_sequence {s : Session} {w : Work σ (RecordingSink τ)} {succeeded : Bool}
    {earlier : List (SinkEvent × Bool)} {last : SinkEvent × Bool} (h : s.Orderly w succeeded)
    (hcalls : w.sink.calls = SinkCall.sequence s.size.frames) (hevents : w.sink.events = earlier ++ [last]) :
    succeeded = last.2 ∧ ∀ e ∈ earlier, e.2 = true := by
  have hearlier : ∀ e ∈ earlier, e.2 = true := by
    rintro ⟨e, b⟩ hmem
    obtain ⟨before, after, rfl⟩ := List.append_of_mem hmem
    cases b with
    | true => rfl
    | false =>
      have hstops := h.stops before e (after ++ [last]) (by rw [hevents, List.append_assoc]; rfl)
      exact absurd hstops (List.concat_ne_nil last after)
  refine ⟨Bool.eq_iff_iff.mpr (h.complete.trans ?_), hearlier⟩
  rw [hevents, List.forall_mem_append, List.forall_mem_singleton]
  exact ⟨fun hall => hall.2.2, fun hlast => ⟨hcalls, hearlier, hlast⟩⟩

end Session

end VideoRemap
