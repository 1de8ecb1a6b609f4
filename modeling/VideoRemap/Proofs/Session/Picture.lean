import VideoRemap.Proofs.Picture
import VideoRemap.Proofs.Session.Basic
import VideoRemap.Proofs.Session.Replay
import VideoRemap.Session.File
import VideoRemap.Source.Report

/-!
When a run writes its picture. Of the calls on the sink only the last one saves, and what it saves is the
frame of the call before. Up to then a run makes directories at most.
-/

namespace VideoRemap

section

variable [PictureLibrary]

namespace PictureSink

variable {p : Path} {d : Disk}

lemma start_keeps (htree : d.IsTree) (last : Option Frame) (c : SinkConfig) :
    ∃ last' disk, ((⟨p, last, d⟩ : PictureSink).start c).2 = ⟨p, last', disk⟩ ∧ d.Keeps p disk := by
  simp only [start]
  split
  · exact ⟨last, d, rfl, .refl d p⟩
  split
  · exact ⟨last, d, rfl, .refl d p⟩
  have hkeeps := Disk.keeps_makeParent htree p
  rcases hmade : d.makeParent p with ⟨_ | ⟨⟩, disk⟩ <;> rw [hmade] at hkeeps
  · exact ⟨last, disk, rfl, hkeeps⟩
  · exact ⟨none, disk, rfl, hkeeps⟩

lemma save_of_wellFormed {f : Frame} (h : f.WellFormed) {saved : Bool} {disk : Disk}
    (hsave : PictureLibrary.save p f d = (saved, disk)) :
    ∃ outcome, (⟨p, some f, d⟩ : PictureSink).save = (outcome, ⟨p, none, disk⟩) ∧ outcome.isOk = saved := by
  have hbytes : { f with bytes := f.bytes.take (Frame.byteCount f.width f.height) } = f := by
    rw [← h, Array.take_eq_extract, Array.extract_size]
  have hsize : ¬ f.bytes.size < Frame.byteCount f.width f.height := Nat.not_lt.mpr (Nat.le_of_eq h.symm)
  simp only [save, hbytes, if_neg hsize, hsave]
  cases saved <;> exact ⟨_, rfl, rfl⟩

lemma replay_pushes (last : Option Frame) {events : List (SinkEvent × Bool)}
    (h : ∀ e ∈ events, ∃ i, e.1.call = .push i) :
    ∃ last', SinkEvent.replay (FileSink.picture ⟨p, last, d⟩) events = .picture ⟨p, last', d⟩ := by
  induction events generalizing last with
  | nil => exact ⟨last, rfl⟩
  | cons e events ih =>
    obtain ⟨⟨i, hi⟩, hevents⟩ := List.forall_mem_cons.mp h
    obtain ⟨event, b⟩ := e
    cases event with
    | push _ f => exact ih (some f) hevents
    | _ => cases hi

lemma replay_opening (htree : d.IsTree) {n : Nat} {events : List (SinkEvent × Bool)}
    (h : events.map (·.1.call) <+: SinkCall.opening n) :
    ∃ last disk, SinkEvent.replay (FileSink.picture (.ofPath p d)) events = .picture ⟨p, last, disk⟩ ∧
      d.Keeps p disk := by
  cases events with
  | nil => exact ⟨none, d, rfl, .refl d p⟩
  | cons e events =>
    obtain ⟨event, b⟩ := e
    obtain ⟨hbegin, hpushes⟩ := List.cons_prefix_cons.mp h
    have hcalls : ∀ e ∈ events, ∃ i, e.1.call = .push i := by
      intro e he
      obtain ⟨i, -, hi⟩ := List.mem_map.mp (hpushes.subset (List.mem_map_of_mem he))
      exact ⟨i, hi.symm⟩
    cases event with
    | begin c =>
      obtain ⟨last, disk, hstart, hkeeps⟩ := start_keeps (p := p) htree none c
      obtain ⟨last', hreplay⟩ := replay_pushes (p := p) (d := disk) last hcalls
      refine ⟨last', disk, ?_, hkeeps⟩
      change SinkEvent.replay (FileSink.picture ((ofPath p d).start c).2) events = _
      rw [ofPath, hstart, hreplay]
    | _ => cases hbegin

end PictureSink

namespace Session

lemma runWith_picture {σ : Type} [Source σ] {s : Session} (hframes : 0 < s.size.frames) (p : Plan)
    (source : σ) (path : Path) {d : Disk} (htree : d.IsTree) :
    let r := s.runWith p source (RecordingSink.fresh (FileSink.picture (.ofPath path d)))
    ∃ last disk, r.2.sink.inner = .picture ⟨path, last, disk⟩ ∧
      ((∀ b, (.finish, b) ∉ r.2.sink.events) ∧ r.1.isOk = false ∧ d.Keeps path disk ∨
      ∃ earlier frame before saved, d.Keeps path before ∧ frame.WellFormed ∧
        PictureLibrary.save path frame before = (saved, disk) ∧
        r.2.sink.events = earlier ++ [(.push (s.size.frames - 1) frame, true), (.finish, saved)] ∧
        r.1.isOk = saved) := by
  intro r
  obtain ⟨-, horderly⟩ := s.runWith_orderly p source (FileSink.picture (.ofPath path d))
  have hreplays := s.runWith_replays p source (FileSink.picture (.ofPath path d))
  change s.Orderly r.2 r.1.isOk at horderly
  change RecordingSink.Replays _ r.2.sink at hreplays
  rcases List.prefix_concat_iff.mp horderly.calls with hwhole | hopening
  · obtain ⟨n, hn⟩ := Nat.exists_eq_succ_of_ne_zero (Nat.ne_of_gt hframes)
    have hsequence := hwhole
    change _ = SinkCall.sequence s.size.frames at hwhole hsequence
    rw [hn] at hsequence
    obtain ⟨earlier, frame, b, b', hevents, hcalls⟩ := SinkCall.exists_of_map_eq_sequence hsequence
    obtain ⟨hlast, hsucceeded⟩ := horderly.of_sequence hwhole hevents
    obtain rfl : b = true := hsucceeded (.push n frame, b) (by simp)
    have hmakes := horderly.frames n frame true (by simp [hevents])
    obtain ⟨last, before, hreplay, hkeeps⟩ := PictureSink.replay_opening (p := path) (d := d) htree
      ⟨[], (List.append_nil _).trans hcalls⟩
    -- what is saved is the frame pushed last
    have hpushed : SinkEvent.replay (FileSink.picture (.ofPath path d))
        (earlier ++ [(.push n frame, true)]) = .picture ⟨path, some frame, before⟩ := by
      rw [SinkEvent.replay_concat, hreplay]
      rfl
    rcases hsaved : PictureLibrary.save path frame before with ⟨saved, disk⟩
    obtain ⟨outcome, hsave, hok⟩ := PictureSink.save_of_wellFormed hmakes.2 hsaved
    have houtcome := hreplays.outcomes (earlier ++ [(.push n frame, true)]) (.finish, b') [] hevents
    have hinner := hreplays.inner
    rw [hevents, SinkEvent.replay_concat, hpushed] at hinner
    rw [hpushed] at houtcome
    simp only [SinkEvent.perform, Sink.finish, hsave, hok, Step.within] at hinner houtcome
    refine ⟨none, disk, hinner, .inr ⟨earlier, frame, before, saved, hkeeps, hmakes.2, hsaved, ?_, ?_⟩⟩
    · rw [hevents, hn, houtcome, List.append_assoc]
      rfl
    · rw [hlast, houtcome]
  · obtain ⟨last, disk, hreplay, hkeeps⟩ := PictureSink.replay_opening (p := path) htree hopening
    have hunfinished : .finish ∉ r.2.sink.calls := fun hmem => by
      simpa [SinkCall.opening] using hopening.subset hmem
    refine ⟨last, disk, hreplays.inner.trans hreplay, .inl ⟨fun b hmem => ?_, ?_, hkeeps⟩⟩
    · exact hunfinished (List.mem_map_of_mem hmem)
    · refine Bool.eq_false_iff.mpr fun hok => hunfinished ?_
      rw [(horderly.complete.mp hok).1]
      exact List.mem_concat_self

end Session

end

namespace Session

lemma frames_pos_of_ofText {source : SourceInfo} {coords : String} {size : Option String} {o : Options}
    {s : Session} (h : ofText source coords size o = .ok s) : 0 < s.size.frames := by
  obtain ⟨c, -, h⟩ := Traversal.bind_eq_ok_iff.mp h
  obtain ⟨coords, -, h⟩ := Traversal.bind_eq_ok_iff.mp h
  obtain ⟨size, h⟩ : ∃ size, ofCoords source coords size o = .ok s := by
    cases size with
    | none => exact ⟨_, h⟩
    | some text =>
      obtain ⟨size, -, h⟩ := Traversal.bind_eq_ok_iff.mp h
      exact ⟨size, h⟩
  obtain ⟨c, hadmits⟩ := admits_of_ofCoords h
  rw [hadmits.eq]
  exact Nat.pos_of_ne_zero hadmits.output.2.2

end Session

lemma EncoderSink.perform_isTree {s : EncoderSink} (h : s.disk.IsTree) (e : SinkEvent) :
    (e.perform s).2.disk.IsTree := by
  cases e with
  | begin c =>
    simp only [SinkEvent.perform, Sink.begin, start]
    split
    · exact h
    split
    · exact h
    have hmade := h.makeParent s.path
    split <;> rename_i hresult <;> rw [hresult] at hmade
    · exact hmade
    split
    · exact hmade
    · split <;> exact hmade
  | push i f =>
    simp only [SinkEvent.perform, Sink.push]
    rcases s.accept_cases i f with ⟨e, haccept, -⟩ | ⟨c, run, -, -, -, -, haccept⟩ <;> rwa [haccept]
  | finish =>
    simp only [SinkEvent.perform, Sink.finish, close]
    split
    · split <;> exact h
    · exact h

section

variable [PictureLibrary] [LawfulPictureLibrary]

lemma PictureSink.perform_isTree {s : PictureSink} (h : s.disk.IsTree) (e : SinkEvent) :
    (e.perform s).2.disk.IsTree := by
  cases e with
  | begin c =>
    simp only [SinkEvent.perform, Sink.begin, start]
    split
    · exact h
    split
    · exact h
    have hmade := h.makeParent s.path
    split <;> rename_i hresult <;> rwa [hresult] at hmade
  | push i f => exact h
  | finish =>
    simp only [SinkEvent.perform, Sink.finish, save]
    split
    · exact h
    split
    · exact h
    rename_i f _ _
    have hsaved := LawfulPictureLibrary.isTree_save s.path
      { f with bytes := f.bytes.take (Frame.byteCount f.width f.height) } h
    split <;> rename_i hresult <;> rwa [hresult] at hsaved

lemma FileSink.perform_isTree (host : Host) (e : SinkEvent) (s : FileSink) (h : (s.host host).disk.IsTree) :
    ((e.perform s).2.host host).disk.IsTree := by
  cases s with
  | picture s =>
    have hsink := PictureSink.perform_isTree (s := s) h e
    cases e <;> exact hsink
  | encoder s =>
    have hsink := EncoderSink.perform_isTree (s := s) h e
    cases e <;> exact hsink

end

namespace Job

section

variable [PictureLibrary] [ReportReader]

def prepare (j : Job) (host : Host) : Except Fault (FileSource × Session) := do
  let source ← FileSource.ofPath j.source host
  return (source, ← Session.ofText (Source.info source) j.coords j.size j.options)

variable {j : Job} {host : Host} {source : FileSource} {session : Session}

lemma run_eq (j : Job) (host : Host) : j.run host =
    match j.prepare host with
    | .error e => (.error e, host)
    | .ok (source, session) =>
      (session.run source (FileSink.ofPath j.target session.size.frames host)).within
        fun w => w.sink.host host := rfl

lemma frames_pos_of_prepare (h : j.prepare host = .ok (source, session)) : 0 < session.size.frames := by
  obtain ⟨source', -, h⟩ := Traversal.bind_eq_ok_iff.mp h
  obtain ⟨session', hsession, h⟩ := Traversal.bind_eq_ok_iff.mp h
  obtain ⟨-, rfl⟩ := Prod.mk.inj (Except.ok.inj h)
  exact Session.frames_pos_of_ofText hsession

variable [LawfulPictureLibrary]

theorem run_isTree (j : Job) (h : host.disk.IsTree) : (j.run host).2.disk.IsTree := by
  rw [run_eq]
  cases j.prepare host with
  | error e => exact h
  | ok prepared =>
    obtain ⟨source, session⟩ := prepared
    apply Session.runWith_sink (P := fun s => (FileSink.host host s).disk.IsTree)
      (FileSink.perform_isTree host) session session.plan source
    change (FileSink.host host (if _ then _ else _)).disk.IsTree
    split <;> exact h

theorem picture_kept_until_saved (j : Job) (host : Host) (htree : host.disk.IsTree) :
    (∀ e, j.prepare host = .error e → j.run host = (.error e, host)) ∧
    ∀ source session, j.prepare host = .ok (source, session) →
      FileSink.MakesPicture j.target session.size.frames →
      let sink := FileSink.ofPath j.target session.size.frames host
      let recorded := session.run source (RecordingSink.fresh sink)
      let events := recorded.2.sink.events
      let last := session.size.frames - 1
      let r := j.run host
      let disk := r.2.disk
      r = (recorded.1, { host with disk := disk }) ∧
      ((∀ b, (.finish, b) ∉ events) → r.1.isOk = false ∧ host.disk.Keeps j.target disk) ∧
      (∀ b, (.finish, b) ∈ events → ∃ earlier frame before saved,
        events = earlier ++ [(.push last frame, true), (.finish, saved)] ∧
        host.disk.Keeps j.target before ∧ PictureLibrary.save j.target frame before = (saved, disk) ∧
        r.1.isOk = saved) ∧
      (r.1.isOk = true → ∃ earlier frame format,
        events = earlier ++ [(.push last frame, true), (.finish, true)] ∧
        PictureLibrary.format? j.target = some format ∧
        disk.file? j.target = some (PictureLibrary.encode format frame)) := by
  refine ⟨fun e he => by rw [run_eq, he], ?_⟩
  intro source session hprepared hpicture sink recorded events last r disk
  have hsink : sink = .picture (.ofPath j.target host.disk) := if_pos hpicture
  have hsame : session.run source sink = recorded.within Work.unrecorded :=
    (session.runWith_orderly session.plan source sink).1
  obtain ⟨latest, disk', hinner, hends⟩ := Session.runWith_picture (frames_pos_of_prepare hprepared)
    session.plan source j.target htree
  rw [← hsink] at hinner hends
  change recorded.2.sink.inner = _ at hinner
  have hr : r = (recorded.1, { host with disk := disk' }) := by
    change j.run host = _
    rw [run_eq, hprepared]
    change (session.run source sink).within _ = _
    rw [hsame]
    simp only [Step.within, Work.unrecorded, hinner, FileSink.host]
  obtain rfl : disk = disk' := congrArg (·.2.disk) hr
  have houtcome : r.1 = recorded.1 := congrArg Prod.fst hr
  refine ⟨hr, ?_⟩
  rw [houtcome]
  rcases hends with ⟨hunfinished, hfailed, hkeeps⟩ |
    ⟨earlier, frame, before, saved, hkeeps, hgood, hsaved, hevents, hok⟩
  · refine ⟨fun _ => ⟨hfailed, hkeeps⟩, fun b hmem => absurd hmem (hunfinished b), fun hok => ?_⟩
    exact absurd (hfailed.symm.trans hok) Bool.false_ne_true
  · have hfinish : (.finish, saved) ∈ recorded.2.sink.events := hevents ▸ by simp
    refine ⟨fun hunfinished => absurd hfinish (hunfinished _), ?_, fun hsucceeded => ?_⟩
    · exact fun _ _ => ⟨earlier, frame, before, saved, hevents, hkeeps, hsaved, hok⟩
    · obtain rfl : saved = true := hok.symm.trans hsucceeded
      obtain ⟨format, hformat, hfile⟩ := LawfulPictureLibrary.file?_of_save hgood hsaved
      exact ⟨earlier, frame, format, hevents, hformat, hfile⟩

end

theorem picture_kept_by_division_by_zero :
    let black : Frame := ⟨1, 1, #[0, 0, 0]⟩
    let white : Frame := ⟨1, 1, #[255, 255, 255]⟩
    let disk := (Disk.bare ["w"]).put ["w", "a.bmp"] (.file (.picture .bmp black))
    let host : Host := ⟨disk.put ["w", "b.bmp"] (.file (.picture .bmp white)), ⟨none, none⟩, []⟩
    let failing : Job := ⟨⟨"a.bmp"⟩, ⟨"./b.bmp"⟩, "[x#0;y;t]", none, .standard⟩
    let saving : Job := { failing with coords := "[x;y;t]" }
    host.disk.IsTree ∧
    (failing.run host).1.isOk = false ∧
    (failing.run host).2.disk.at? ⟨"./b.bmp"⟩ = host.disk.at? ⟨"./b.bmp"⟩ ∧
    (saving.run host).1.isOk = true ∧
    ∃ frame format,
      (saving.run host).2.disk.file? ⟨"./b.bmp"⟩ = some (PictureLibrary.encode format frame) := by
  intro black white disk host failing saving
  have htree : host.disk.IsTree := by decide +kernel
  have hsaved : (saving.run host).1.isOk = true := by decide +kernel
  have hcalls : (failing.prepare host).toOption.map (fun (source, session) =>
      (session.run source (RecordingSink.fresh
        (FileSink.ofPath failing.target session.size.frames host))).2.sink.calls) = some [.begin] := by
    decide +kernel
  have hready : (saving.prepare host).isOk = true := by decide +kernel
  have hstill : Path.IsStill ⟨"./b.bmp"⟩ := by decide +kernel
  rcases hfailing : failing.prepare host with e | ⟨source, session⟩
  · exact nomatch hfailing ▸ hcalls
  rcases hsaving : saving.prepare host with e | ⟨source', session'⟩
  · exact nomatch hsaving ▸ hready
  obtain ⟨-, hkept, -⟩ := (picture_kept_until_saved failing host htree).2 source session hfailing
    (.inl hstill)
  obtain ⟨-, -, -, hpicture⟩ := (picture_kept_until_saved saving host htree).2 source' session' hsaving
    (.inl hstill)
  rw [hfailing] at hcalls
  have hbegun : RecordingSink.calls _ = [.begin] := Option.some.inj hcalls
  obtain ⟨hfailed, hkeeps⟩ := hkept fun b hmem => by
    have hfinish : .finish ∈ RecordingSink.calls _ := List.mem_map_of_mem hmem
    rw [hbegun] at hfinish
    exact absurd hfinish (by decide)
  obtain ⟨-, frame, format, -, -, hfile⟩ := hpicture hsaved
  refine ⟨htree, hfailed, hkeeps.target ?_, hsaved, frame, format, hfile⟩
  exact ⟨[], _, _, rfl, rfl, by decide +kernel⟩

theorem directory_made_at_target :
    let black : Frame := ⟨1, 1, #[0, 0, 0]⟩
    let disk := (Disk.bare ["w"]).put ["w", "a.bmp"] (.file (.picture .bmp black))
    let host : Host := ⟨disk, ⟨none, none⟩, []⟩
    let j : Job := ⟨⟨"a.bmp"⟩, ⟨"d.png/../d.png"⟩, "[x#0;y;t]", none, .standard⟩
    host.disk.IsTree ∧
    ((j.prepare host).toOption.map fun (source, session) =>
      (decide (FileSink.MakesPicture j.target session.size.frames), (session.run source
        (RecordingSink.fresh (FileSink.ofPath j.target session.size.frames host))).2.sink.calls)) =
      some (true, [.begin]) ∧
    (j.run host).1.isOk = false ∧ host.disk.at? j.target = none ∧
    (j.run host).2.disk.at? j.target = some .directory := by
  decide +kernel

end Job

end VideoRemap
