import Mathlib.Tactic.Lemma
import VideoRemap.Sink.Encoder
import VideoRemap.Sink.Recording

/-!
What encoders are given. Each gets the bytes of the frames that its sink has accepted since it was
started, and nothing else, in whatever order the sink is called and however encoders end.
-/

namespace VideoRemap

def SinkEvent.perform {τ : Type} [Sink τ] : SinkEvent → τ → Step τ Unit
  | begin c => Sink.begin c
  | push i f => Sink.push i f
  | finish => Sink.finish

/-- What an encoder is meant for: how it was begun, the frames accepted since, in order, and whether it
still waits for more. -/
structure Take where
  config : SinkConfig
  frames : List (Nat × Frame)
  isOpen : Bool

namespace Take

def indices (t : Take) : List Nat := t.frames.map (·.1)

def bytes (t : Take) : List UInt8 := t.frames.flatMap fun f => f.2.bytes.toList

def add (i : Nat) (f : Frame) (t : Take) : Take := { t with frames := t.frames ++ [(i, f)] }

def close (t : Take) : Take := { t with isOpen := false }

def record : List Take → SinkEvent × Bool → List Take
  | ts, (.begin c, true) => ⟨c, [], true⟩ :: ts
  | t :: ts, (.push i f, true) => t.add i f :: ts
  | t :: ts, (.finish, _) => t.close :: ts
  | ts, _ => ts

def ofEvents (events : List (SinkEvent × Bool)) : List Take := events.foldl record []

def Takes (t : Take) (i : Nat) (f : Frame) : Prop :=
  t.isOpen ∧ (∀ j ∈ t.indices, j < i) ∧ f.extent = t.config.extent

instance (t : Take) (i : Nat) (f : Frame) : Decidable (t.Takes i f) :=
  inferInstanceAs (Decidable (_ ∧ _))

structure Sound (t : Take) : Prop where
  ascending : t.indices.Pairwise (· < ·)
  sized : ∀ f ∈ t.frames, f.2.extent = t.config.extent

variable {t : Take} {i : Nat} {f : Frame}

lemma indices_add (t : Take) (i : Nat) (f : Frame) : (t.add i f).indices = t.indices ++ [i] := by
  simp [indices, add]

lemma bytes_add (t : Take) (i : Nat) (f : Frame) : (t.add i f).bytes = t.bytes ++ f.bytes.toList := by
  simp [bytes, add]

lemma Sound.add (h : t.Sound) (hf : t.Takes i f) : (t.add i f).Sound where
  ascending := by
    rw [indices_add, List.pairwise_append]
    refine ⟨h.ascending, List.pairwise_singleton _ _, fun j hj k hk => ?_⟩
    obtain rfl := List.mem_singleton.mp hk
    exact hf.2.1 j hj
  sized := List.forall_mem_append.mpr ⟨h.sized, List.forall_mem_singleton.mpr hf.2.2⟩

lemma Sound.lt_iff (h : t.Sound) : (∀ j ∈ t.indices.getLast?, j < i) ↔ ∀ j ∈ t.indices, j < i := by
  rcases List.eq_nil_or_concat t.indices with hnil | ⟨before, last, hlast⟩
  · simp [hnil]
  · have hascending := h.ascending
    rw [hlast, List.concat_eq_append] at hascending ⊢
    have hbefore (j) (hj : j ∈ before) : j < last :=
      (List.pairwise_append.mp hascending).2.2 j hj last List.mem_cons_self
    rw [List.getLast?_concat, List.forall_mem_append, List.forall_mem_singleton]
    constructor
    · intro hlt
      exact ⟨fun j hj => Nat.lt_trans (hbefore j hj) (hlt last rfl), hlt last rfl⟩
    · rintro ⟨-, hlt⟩ _ ⟨⟩
      exact hlt

end Take

namespace EncoderSink

structure Request where
  event : SinkEvent
  disk : Disk
  ending : Ending

def meeting (r : Request) (s : EncoderSink) : EncoderSink :=
  { s with disk := r.disk, codec := s.codec.map fun c => { c with encoding := r.ending } }

def answer (s : EncoderSink) (r : Request) : Step EncoderSink Unit := r.event.perform (s.meeting r)

def after (s : EncoderSink) (rs : List Request) : EncoderSink :=
  rs.foldl (fun s r => (s.answer r).2) s

def events (s : EncoderSink) : List Request → List (SinkEvent × Bool)
  | [] => []
  | r :: rs => (r.event, (s.answer r).1.isOk) :: (s.answer r).2.events rs

structure Unmoved (s s' : EncoderSink) : Prop where
  running : s'.running = s.running
  ended : s'.ended = s.ended
  config : s'.config = s.config
  last : s'.last = s.last

section

variable (s : EncoderSink)

lemma start_cases (c : SinkConfig) :
    (∃ e d, s.start c = (.error e, { s with disk := d })) ∨
    ∃ d, s.start c = (.ok (), { s with
      disk := d
      running := some ⟨arguments c s.path s.overwrite, #[]⟩
      ended := s.runs
      config := some c
      last := none }) := by
  simp only [start]
  split
  · exact .inl ⟨_, s.disk, rfl⟩
  split
  · exact .inl ⟨_, s.disk, rfl⟩
  rcases s.disk.makeParent s.path with ⟨_ | ⟨⟩, d⟩
  · exact .inl ⟨_, d, rfl⟩
  simp only
  split
  · exact .inl ⟨_, d, rfl⟩
  split
  · exact .inl ⟨_, d, rfl⟩
  · exact .inr ⟨d, rfl⟩

lemma any_le_iff (last : Option Nat) (i : Nat) :
    last.any (i ≤ ·) = true ↔ ¬ ∀ j ∈ last, j < i := by
  cases last <;> simp

lemma accept_cases (i : Nat) (f : Frame) :
    (∃ e, s.accept i f = (.error e, s) ∧ ∀ c run, s.config = some c → s.running = some run →
      ¬ ((∀ j ∈ s.last, j < i) ∧ f.extent = c.extent)) ∨
    ∃ c run, s.config = some c ∧ s.running = some run ∧ (∀ j ∈ s.last, j < i) ∧
      f.extent = c.extent ∧ s.accept i f = (.ok (), { s with
        running := some { run with input := run.input ++ f.bytes }
        last := some i }) := by
  simp only [accept]
  split
  case h_1 c run hconfig hrunning =>
    split
    case isTrue h =>
      exact .inl ⟨_, rfl, fun _ _ _ _ htakes => (any_le_iff s.last i).mp h htakes.1⟩
    case isFalse hlate =>
      have horder : ∀ j ∈ s.last, j < i := Classical.byContradiction fun h => hlate ((any_le_iff s.last i).mpr h)
      by_cases hsize : f.extent = c.extent
      · exact .inr ⟨c, run, hconfig, hrunning, horder, hsize, if_neg fun h => h hsize⟩
      · refine .inl ⟨_, if_pos hsize, fun c' run' hc _ htakes => hsize ?_⟩
        obtain rfl := Option.some.inj (hconfig.symm.trans hc)
        exact htakes.2
  case h_2 hstopped => exact .inl ⟨_, rfl, fun c run hc hrun => (hstopped c run hc hrun).elim⟩

lemma close_of_stopped (h : s.running = none) : s.close = (.error .encoderNotStarted, s) := by
  simp only [close, h]

lemma close_of_running {run : EncoderRun} {codec : Codec} (hrun : s.running = some run)
    (hcodec : s.codec = some codec) : ∃ outcome config,
      s.close = (outcome, { s with running := none, ended := run :: s.ended, config := config }) := by
  simp only [close, hrun, hcodec]
  split
  · exact ⟨_, _, rfl⟩
  · exact ⟨_, _, rfl⟩

end

/-- An encoder was started for each of the takes and has been given the bytes of its frames. As long as
the latest take is open, its encoder runs, and the sink remembers how it was begun and how far it is. -/
structure Follows (p : Path) (ow : Bool) (takes : List Take) (s : EncoderSink) : Prop where
  path : s.path = p
  overwrite : s.overwrite = ow
  codec : ∃ c, s.codec = some c ∧ c.version.IsClean
  runs : s.runs.map (fun r => (r.arguments, r.input.toList)) =
    takes.map fun t => (arguments t.config p ow, t.bytes)
  sound : ∀ t ∈ takes, t.Sound
  running : s.running.isSome = takes.head?.any Take.isOpen
  remembers : ∀ t ∈ takes.head?, t.isOpen → s.config = some t.config ∧ s.last = t.indices.getLast?

lemma follows_ofPath (p : Path) (ow : Bool) (d : Disk) {codec : Codec} (h : codec.version.IsClean) :
    Follows p ow [] (ofPath p ow d (some codec)) :=
  ⟨rfl, rfl, ⟨codec, rfl, h⟩, rfl, nofun, rfl, nofun⟩

namespace Follows

variable {p : Path} {ow : Bool} {takes : List Take} {s : EncoderSink}

lemma meeting (h : s.Follows p ow takes) (r : Request) : (s.meeting r).Follows p ow takes := by
  obtain ⟨c, hc, hclean⟩ := h.codec
  have hcodec : (s.meeting r).codec = some { c with encoding := r.ending } := by
    simp only [EncoderSink.meeting, hc, Option.map_some]
  exact ⟨h.path, h.overwrite, ⟨_, hcodec, hclean⟩, h.runs, h.sound, h.running, h.remembers⟩

lemma exists_open (h : s.Follows p ow takes) {run : EncoderRun} (hrun : s.running = some run) :
    ∃ t ts, takes = t :: ts ∧ t.isOpen ∧ s.config = some t.config ∧ s.last = t.indices.getLast? ∧
      run.arguments = arguments t.config p ow ∧ run.input.toList = t.bytes ∧
      s.ended.map (fun r => (r.arguments, r.input.toList)) =
        ts.map fun t => (arguments t.config p ow, t.bytes) := by
  have hopen := h.running
  have hruns := h.runs
  cases takes with
  | nil => simp [hrun] at hopen
  | cons t ts =>
    simp only [hrun, Option.isSome_some, List.head?_cons, Option.any_some] at hopen
    simp only [EncoderSink.runs, hrun, Option.toList_some, List.singleton_append, List.map_cons,
      List.cons.injEq, Prod.mk.injEq] at hruns
    obtain ⟨hconfig, hlast⟩ := h.remembers t rfl hopen.symm
    exact ⟨t, ts, rfl, hopen.symm, hconfig, hlast, hruns.1.1, hruns.1.2, hruns.2⟩

lemma takes_iff (h : s.Follows p ow takes) (i : Nat) (f : Frame) :
    (s.accept i f).1 = .ok () ↔ ∃ t ∈ takes.head?, t.Takes i f := by
  rcases s.accept_cases i f with ⟨e, haccept, hrefused⟩ | ⟨c, run, hconfig, hrun, hlt, hsize, haccept⟩
  · rw [haccept]
    refine ⟨nofun, fun ⟨t, ht, hopen, hindices, hsize⟩ => ?_⟩
    obtain ⟨run, hrun⟩ : ∃ run, s.running = some run := by
      rw [← Option.isSome_iff_exists, h.running, ht]
      exact hopen
    obtain ⟨hconfig, hlast⟩ := h.remembers t ht hopen
    have hsound := h.sound t (List.mem_of_mem_head? ht)
    exact (hrefused _ run hconfig hrun ⟨hlast ▸ hsound.lt_iff.mpr hindices, hsize⟩).elim
  · rw [haccept]
    refine ⟨fun _ => ?_, fun _ => rfl⟩
    obtain ⟨t, ts, rfl, hopen, hconfig', hlast, -⟩ := h.exists_open hrun
    obtain rfl := Option.some.inj (hconfig.symm.trans hconfig')
    exact ⟨t, rfl, hopen, (h.sound t List.mem_cons_self).lt_iff.mp (hlast ▸ hlt), hsize⟩

lemma start (h : s.Follows p ow takes) (c : SinkConfig) :
    (s.start c).2.Follows p ow (Take.record takes (.begin c, (s.start c).1.isOk)) := by
  rcases s.start_cases c with ⟨e, d, hstart⟩ | ⟨d, hstart⟩ <;> rw [hstart]
  · have hsame : Take.record takes (.begin c, false) = takes := by cases takes <;> rfl
    change Follows p ow (Take.record takes (.begin c, false)) _
    rw [hsame]
    exact ⟨h.path, h.overwrite, h.codec, h.runs, h.sound, h.running, h.remembers⟩
  · refine ⟨h.path, h.overwrite, h.codec, ?_, ?_, rfl, ?_⟩
    · change (arguments c s.path s.overwrite, []) :: s.runs.map _ = _ :: takes.map _
      rw [h.runs, h.path, h.overwrite]
      rfl
    · exact List.forall_mem_cons.mpr ⟨⟨List.Pairwise.nil, nofun⟩, h.sound⟩
    · rintro _ ⟨⟩ -
      exact ⟨rfl, rfl⟩

lemma accept (h : s.Follows p ow takes) (i : Nat) (f : Frame) :
    (s.accept i f).2.Follows p ow (Take.record takes (.push i f, (s.accept i f).1.isOk)) := by
  have htakes := h.takes_iff i f
  rcases s.accept_cases i f with ⟨e, haccept, -⟩ | ⟨c, run, -, hrun, -, -, haccept⟩ <;>
    rw [haccept] at htakes ⊢
  · have hsame : Take.record takes (.push i f, false) = takes := by cases takes <;> rfl
    change Follows p ow (Take.record takes (.push i f, false)) _
    rwa [hsame]
  · obtain ⟨t, ts, rfl, hopen, hconfig, -, harguments, hinput, hended⟩ := h.exists_open hrun
    obtain ⟨_, ⟨⟩, hnext⟩ := htakes.mp rfl
    obtain ⟨hsound, hsounds⟩ := List.forall_mem_cons.mp h.sound
    refine ⟨h.path, h.overwrite, h.codec, ?_, ?_, hopen.symm, ?_⟩
    · change (run.arguments, (run.input ++ f.bytes).toList) :: s.ended.map _ =
        (arguments t.config p ow, (t.add i f).bytes) :: ts.map _
      rw [harguments, Array.toList_append, hinput, hended, Take.bytes_add]
    · exact List.forall_mem_cons.mpr ⟨hsound.add hnext, hsounds⟩
    · rintro _ ⟨⟩ -
      exact ⟨hconfig, by rw [Take.indices_add, List.getLast?_concat]⟩

lemma close (h : s.Follows p ow takes) :
    s.close.2.Follows p ow (Take.record takes (.finish, s.close.1.isOk)) := by
  obtain ⟨c, hc, -⟩ := h.codec
  cases hrun : s.running with
  | none =>
    have hclosed := h.running
    rw [close_of_stopped s hrun]
    cases takes with
    | nil => exact h
    | cons t ts =>
      simp only [hrun, Option.isSome_none, List.head?_cons, Option.any_some] at hclosed
      obtain ⟨config, frames, isOpen⟩ := t
      obtain rfl : false = isOpen := hclosed
      exact h
  | some run =>
    obtain ⟨outcome, config, hclose⟩ := close_of_running s hrun hc
    obtain ⟨t, ts, rfl, -, -, -, harguments, hinput, hended⟩ := h.exists_open hrun
    obtain ⟨hsound, hsounds⟩ := List.forall_mem_cons.mp h.sound
    rw [hclose]
    refine ⟨h.path, h.overwrite, h.codec, ?_, ?_, rfl, ?_⟩
    · change (run.arguments, run.input.toList) :: s.ended.map _ = (_, t.bytes) :: ts.map _
      rw [harguments, hinput, hended]
      rfl
    · exact List.forall_mem_cons.mpr ⟨⟨hsound.ascending, hsound.sized⟩, hsounds⟩
    · rintro _ ⟨⟩ hopen
      exact nomatch hopen

end Follows

lemma answer_follows {p : Path} {ow : Bool} {takes : List Take} {s : EncoderSink}
    (h : s.Follows p ow takes) (r : Request) :
    (s.answer r).2.Follows p ow (Take.record takes (r.event, (s.answer r).1.isOk)) := by
  obtain ⟨event, d, e⟩ := r
  cases event with
  | begin c => exact (h.meeting _).start c
  | push i f => exact (h.meeting _).accept i f
  | finish => exact (h.meeting _).close

lemma after_follows {p : Path} {ow : Bool} {takes : List Take} {s : EncoderSink}
    (h : s.Follows p ow takes) (rs : List Request) :
    (s.after rs).Follows p ow ((s.events rs).foldl Take.record takes) := by
  induction rs generalizing s takes with
  | nil => exact h
  | cons r rs ih => exact ih (answer_follows h r)

lemma unmoved_of_error {s : EncoderSink} {r : Request} {e : Fault} (h : (s.answer r).1 = .error e)
    (hevent : r.event ≠ .finish) : s.Unmoved (s.answer r).2 := by
  obtain ⟨event, d, ending⟩ := r
  cases event with
  | begin c =>
    simp only [answer, SinkEvent.perform, Sink.begin] at h ⊢
    rcases start_cases (s.meeting _) c with ⟨e, d, hstart⟩ | ⟨d, hstart⟩ <;> rw [hstart] at h ⊢
    · exact ⟨rfl, rfl, rfl, rfl⟩
    · exact nomatch h
  | push i f =>
    simp only [answer, SinkEvent.perform, Sink.push] at h ⊢
    rcases accept_cases (s.meeting _) i f with ⟨e, haccept, -⟩ | ⟨c, run, -, -, -, -, haccept⟩ <;>
      rw [haccept] at h ⊢
    · exact ⟨rfl, rfl, rfl, rfl⟩
    · exact nomatch h
  | finish => exact (hevent rfl).elim

section

variable {s : EncoderSink}

lemma answer_of_stopped (h : s.running = none) {r : Request} (hevent : ∀ c, r.event ≠ .begin c) :
    s.answer r = (.error .encoderNotStarted, s.meeting r) := by
  obtain ⟨event, d, e⟩ := r
  cases event with
  | begin c => exact (hevent c rfl).elim
  | push i f =>
    simp only [answer, SinkEvent.perform, Sink.push, accept, meeting, h]
    split
    case h_1 hrun => exact nomatch hrun
    case h_2 => rfl
  | finish => exact close_of_stopped _ h

lemma after_of_stopped (h : s.running = none) {rs : List Request}
    (hbegin : ∀ c, (.begin c, true) ∉ s.events rs) : (s.after rs).running = none := by
  induction rs generalizing s with
  | nil => exact h
  | cons r rs ih =>
    have hstopped : (s.answer r).2.running = none := by
      by_cases hevent : ∃ c, r.event = .begin c
      · obtain ⟨c, hc⟩ := hevent
        rcases start_cases (s.meeting r) c with ⟨e, d, hstart⟩ | ⟨d, hstart⟩
        · simp only [answer, hc, SinkEvent.perform, Sink.begin, hstart]
          exact h
        · refine (hbegin c (List.mem_cons.mpr (.inl ?_))).elim
          simp only [answer, hc, SinkEvent.perform, Sink.begin, hstart]
          rfl
      · rw [answer_of_stopped h fun c hc => hevent ⟨c, hc⟩]
        exact h
    exact ih hstopped fun c hmem => hbegin c (List.mem_cons_of_mem _ hmem)

lemma finish_stops {c : Codec} (hcodec : s.codec = some c) (d : Disk) (e : Ending) :
    (s.answer ⟨.finish, d, e⟩).2.running = none := by
  cases hrun : s.running with
  | none =>
    rw [answer_of_stopped hrun fun _ heq => SinkEvent.noConfusion heq]
    exact hrun
  | some run =>
    have hmet : (s.meeting ⟨.finish, d, e⟩).codec = some { c with encoding := e } := by
      simp only [meeting, hcodec, Option.map_some]
    obtain ⟨outcome, config, hclose⟩ := close_of_running (s.meeting ⟨.finish, d, e⟩) hrun hmet
    simp only [answer, SinkEvent.perform, Sink.finish, hclose]

end

theorem runs_of_requests (p : Path) (ow : Bool) (d : Disk) {codec : Codec}
    (hversion : codec.version.IsClean) (requests : List Request) :
    let sink := ofPath p ow d (some codec)
    let takes := Take.ofEvents (sink.events requests)
    let s := sink.after requests
    s.runs.map (fun r => (r.arguments, r.input.toList)) =
      takes.map (fun t => (arguments t.config p ow, t.bytes)) ∧
    (∀ t ∈ takes, t.indices.Pairwise (· < ·) ∧ ∀ f ∈ t.frames, f.2.extent = t.config.extent) ∧
    (∀ i f d e, (s.answer ⟨.push i f, d, e⟩).1 = .ok () ↔ ∃ t ∈ takes.head?, t.Takes i f) ∧
    (∀ r e, (s.answer r).1 = .error e → r.event ≠ .finish → s.Unmoved (s.answer r).2) ∧
    ∀ d e between, let ended := (s.answer ⟨.finish, d, e⟩).2
      (∀ c, (.begin c, true) ∉ ended.events between) →
      ∀ r, (∀ c, r.event ≠ .begin c) → ((ended.after between).answer r).1 = .error .encoderNotStarted := by
  intro sink takes s
  have h : s.Follows p ow takes := after_follows (follows_ofPath p ow d hversion) requests
  obtain ⟨c, hcodec, -⟩ := h.codec
  refine ⟨h.runs, fun t ht => ⟨(h.sound t ht).ascending, (h.sound t ht).sized⟩, ?_, ?_, ?_⟩
  · intro i f d e
    exact (h.meeting _).takes_iff i f
  · exact fun r e => unmoved_of_error
  · intro d e between ended hbegin r hevent
    rw [answer_of_stopped (after_of_stopped (finish_stops hcodec d e) hbegin) hevent]

theorem runs_of_failing_encoder :
    let codec : Codec := ⟨⟨0, ""⟩, [], ⟨0, ""⟩, ⟨0, ""⟩⟩
    let sink := ofPath ⟨"v.mkv"⟩ true (.bare ["w"]) (some codec)
    let request (event : SinkEvent) : Request := ⟨event, .bare ["w"], ⟨1, "disk full"⟩⟩
    let c : SinkConfig := ⟨1, 1, .standard, 2⟩
    let black : Frame := ⟨1, 1, #[0, 0, 0]⟩
    let white : Frame := ⟨1, 1, #[255, 255, 255]⟩
    let requests := [.begin c, .push 4 white, .push 4 black, .push 5 ⟨1, 2, #[]⟩, .begin ⟨0, 1, .standard, 2⟩,
      .push 7 black, .finish, .push 8 black, .begin c, .push 0 black].map request
    codec.version.IsClean ∧
    (sink.after requests).runs.map (·.input.toList) = [[0, 0, 0], [255, 255, 255, 0, 0, 0]] ∧
    ((sink.after requests).answer (request (.push 0 white))).1 ≠ .ok () ∧
    (((sink.after requests).answer (request .finish)).2.answer (request (.push 9 white))).1 =
      .error .encoderNotStarted := by
  intro codec sink request c black white requests
  have hversion : codec.version.IsClean := rfl
  obtain ⟨hruns, -, htakes, -, hended⟩ := runs_of_requests ⟨"v.mkv"⟩ true (.bare ["w"]) hversion requests
  refine ⟨hversion, ?_, ?_, ?_⟩
  · have hinputs := congrArg (List.map Prod.snd) hruns
    rw [List.map_map, List.map_map] at hinputs
    exact hinputs.trans (by decide +kernel)
  · exact fun h => absurd ((htakes 0 white _ _).mp h) (by decide +kernel)
  · exact hended (.bare ["w"]) ⟨1, "disk full"⟩ [] (fun _ => nofun) _ fun _ => nofun

end EncoderSink

end VideoRemap
