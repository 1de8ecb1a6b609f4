import Mathlib.Data.List.Induction
import VideoRemap.Proofs.Lookup
import VideoRemap.Proofs.Path
import VideoRemap.Proofs.Traversal
import VideoRemap.Disk

namespace VideoRemap.Disk

variable {d d' : Disk} {l l' place : Location} {ms : List Move}

def IsTree (d : Disk) : Prop := ∀ e ∈ d.entries, d.entry? e.1.dropLast = some .directory

instance (d : Disk) : Decidable d.IsTree := inferInstanceAs (Decidable (∀ e ∈ d.entries, _))

lemma entry?_of_ne_nil (h : l ≠ []) : d.entry? l = d.entries.lookup l := if_neg h

lemma IsTree.parent (h : d.IsTree) {n : String} (hsome : (d.entry? (l ++ [n])).isSome) :
    d.entry? l = some .directory := by
  rw [entry?_of_ne_nil (List.concat_ne_nil n l)] at hsome
  obtain ⟨e, he⟩ := Option.isSome_iff_exists.mp hsome
  obtain ⟨before, after, hentries, -⟩ := List.lookup_eq_some_iff.mp he
  have hparent := h (l ++ [n], e) (by simp [hentries])
  rwa [List.dropLast_concat] at hparent

lemma IsTree.isSome_above (h : d.IsTree) (hsome : (d.entry? l').isSome) (hl : l <+: l') :
    (d.entry? l).isSome := by
  obtain ⟨names, rfl⟩ := hl
  induction names using List.reverseRecOn with
  | nil => rwa [List.append_nil] at hsome
  | append_singleton names n ih =>
    rw [← List.append_assoc] at hsome
    exact ih (Option.isSome_of_eq_some (h.parent hsome))

lemma IsTree.dropLast (h : d.IsTree) (hsome : (d.entry? l).isSome) :
    d.entry? l.dropLast = some .directory := by
  rcases List.eq_nil_or_concat l with rfl | ⟨l, n, rfl⟩
  · rfl
  · rw [List.concat_eq_append] at hsome ⊢
    rw [List.dropLast_concat]
    exact h.parent hsome

lemma entry?_put (h : l ≠ []) (e : Entry) (d : Disk) (l' : Location) :
    Disk.entry? (d.put l e) l' = if l' = l then some e else d.entry? l' := by
  by_cases hroot : l' = []
  · rw [hroot, if_neg h.symm]
    rfl
  rw [entry?_of_ne_nil hroot, entry?_of_ne_nil hroot, put, lookup_cons_ite]
  by_cases heq : l' = l
  · rw [if_pos heq, if_pos heq]
  · rw [if_neg heq, if_neg heq, lookup_filter fun k => decide (k ≠ l), if_pos (decide_eq_true heq)]

def Onward (d : Disk) (l : Location) (ms : List Move) (l' : Location) : Move → Prop
  | .stay => d.walk l ms = .ok l'
  | .up => d.walk l.dropLast ms = .ok l'
  | .into n => (d.entry? (l ++ [n])).isSome ∧ d.walk (l ++ [n]) ms = .ok l'

lemma walk_cons_eq_ok {m : Move} :
    d.walk l (m :: ms) = .ok l' ↔ d.entry? l = some .directory ∧ d.Onward l ms l' m := by
  simp only [walk]
  split
  case h_1 hdir =>
    rw [hdir]
    cases m with
    | stay => simp only [Onward, true_and]
    | up => simp only [Onward, true_and]
    | into n =>
      dsimp only [Onward]
      split <;> simp [*]
  all_goals simp [*]

lemma walk_append_eq_ok {ms' : List Move} :
    d.walk l (ms ++ ms') = .ok l' ↔
      ∃ between, d.walk l ms = .ok between ∧ d.walk between ms' = .ok l' := by
  induction ms generalizing l with
  | nil => simp [walk]
  | cons m ms ih =>
    rw [List.cons_append, walk_cons_eq_ok]
    simp only [walk_cons_eq_ok]
    cases m with
    | stay => simp only [Onward, ih, and_assoc, exists_and_left]
    | up => simp only [Onward, ih, and_assoc, exists_and_left]
    | into n => simp only [Onward, ih, and_assoc, exists_and_left]

lemma walk_steps (h : d.walk l ms = .ok l') : d.walk l (Move.steps ms) = .ok l' := by
  induction ms generalizing l with
  | nil => exact h
  | cons m ms ih =>
    obtain ⟨hdir, hrest⟩ := walk_cons_eq_ok.mp h
    cases m with
    | stay => exact ih hrest
    | up => exact walk_cons_eq_ok.mpr ⟨hdir, ih hrest⟩
    | into n => exact walk_cons_eq_ok.mpr ⟨hdir, hrest.1, ih hrest.2⟩

lemma walk_mono (hdir : ∀ l, d.entry? l = some .directory → d'.entry? l = some .directory)
    (hsome : ∀ l, (d.entry? l).isSome → (d'.entry? l).isSome) (h : d.walk l ms = .ok l') :
    d'.walk l ms = .ok l' := by
  induction ms generalizing l with
  | nil => exact h
  | cons m ms ih =>
    obtain ⟨hl, hrest⟩ := walk_cons_eq_ok.mp h
    apply walk_cons_eq_ok.mpr ⟨hdir l hl, _⟩
    cases m with
    | stay => exact ih hrest
    | up => exact ih hrest
    | into n => exact ⟨hsome _ hrest.1, ih hrest.2⟩

lemma walk_down (h : d.walk l ms = .ok l') (hup : .up ∉ ms) :
    l <+: l' ∧ l'.length = l.length + (Move.steps ms).length := by
  induction ms generalizing l with
  | nil =>
    obtain rfl := Except.ok.inj h
    exact ⟨List.prefix_refl _, rfl⟩
  | cons m ms ih =>
    obtain ⟨hne, hms⟩ := not_or.mp (List.mem_cons.not.mp hup)
    obtain ⟨-, hrest⟩ := walk_cons_eq_ok.mp h
    cases m with
    | stay => exact ih hrest hms
    | up => exact absurd rfl hne
    | into n =>
      obtain ⟨hfront, hlength⟩ := ih hrest.2 hms
      refine ⟨(List.prefix_append l [n]).trans hfront, ?_⟩
      change _ = l.length + (.into n :: Move.steps ms).length
      rw [hlength, List.length_append, List.length_singleton, List.length_cons]
      omega

lemma IsTree.isSome_of_walk (h : d.IsTree) (hl : (d.entry? l).isSome) (hwalk : d.walk l ms = .ok l') :
    (d.entry? l').isSome := by
  induction ms generalizing l with
  | nil =>
    obtain rfl := Except.ok.inj hwalk
    exact hl
  | cons m ms ih =>
    obtain ⟨-, hrest⟩ := walk_cons_eq_ok.mp hwalk
    cases m with
    | stay => exact ih hl hrest
    | up => exact ih (Option.isSome_of_eq_some (h.dropLast hl)) hrest
    | into n => exact ih hrest.1 hrest.2

structure Extends (P : Location → Prop) (d d' : Disk) : Prop where
  workplace : d'.workplace = d.workplace
  entry : ∀ l, d'.entry? l = d.entry? l ∨ d.entry? l = none ∧ d'.entry? l = some .directory ∧ P l

namespace Extends

variable {P : Location → Prop}

lemma refl (P : Location → Prop) (d : Disk) : Extends P d d := ⟨rfl, fun _ => .inl rfl⟩

lemma put (h : Extends P d d') (hroot : place ≠ []) (hnone : d'.entry? place = none) (hP : P place) :
    Extends P d (d'.put place .directory) := by
  refine ⟨h.workplace, fun l => ?_⟩
  rw [entry?_put hroot]
  split
  · subst l
    rcases h.entry place with heq | ⟨-, hdir, -⟩
    · exact .inr ⟨heq ▸ hnone, rfl, hP⟩
    · exact nomatch hnone.symm.trans hdir
  · exact h.entry l

lemma directory (h : Extends P d d') (hdir : d.entry? l = some .directory) :
    d'.entry? l = some .directory := by
  rcases h.entry l with heq | ⟨-, hnew, -⟩
  · exact heq.trans hdir
  · exact hnew

lemma isSome (h : Extends P d d') (hsome : (d.entry? l).isSome) : (d'.entry? l).isSome := by
  rcases h.entry l with heq | ⟨-, hnew, -⟩
  · rwa [heq]
  · rw [hnew, Option.isSome_some]

lemma walk (h : Extends P d d') (hwalk : d.walk l ms = .ok l') : d'.walk l ms = .ok l' :=
  walk_mono (fun _ => h.directory) (fun _ => h.isSome) hwalk

lemma walk_back (h : Extends P d d') (htree : d.IsTree) (hwalk : d'.walk l ms = .ok l')
    (hup : .up ∉ ms) (hsome : (d.entry? l').isSome) : d.walk l ms = .ok l' := by
  have hsame : ∀ l, l <+: l' → d.entry? l = d'.entry? l := by
    intro l hl
    rcases h.entry l with heq | ⟨hnone, -⟩
    · exact heq.symm
    · exact nomatch hnone ▸ htree.isSome_above hsome hl
  induction ms generalizing l with
  | nil => exact hwalk
  | cons m ms ih =>
    have hl := (walk_down hwalk hup).1
    obtain ⟨hne, hms⟩ := not_or.mp (List.mem_cons.not.mp hup)
    obtain ⟨hdir, hrest⟩ := walk_cons_eq_ok.mp hwalk
    refine walk_cons_eq_ok.mpr ⟨(hsame l hl).trans hdir, ?_⟩
    cases m with
    | stay => exact ih hrest hms
    | up => exact absurd rfl hne
    | into n => exact ⟨hsame _ (walk_down hrest.2 hms).1 ▸ hrest.1, ih hrest.2 hms⟩

end Extends

section Directories

variable {P : Location → Prop} {r : Route}

lemma child_eq_ok {before : List Move} {n : String} (h : d.child l before n = .ok place) :
    ∃ parent, d.walk l before = .ok parent ∧ d.entry? parent = some .directory ∧
      place = parent ++ [n] := by
  obtain ⟨parent, hwalk, h⟩ := Traversal.bind_eq_ok_iff.mp h
  split at h
  · exact ⟨parent, hwalk, ‹_›, (Except.ok.inj h).symm⟩
  · cases h

def Allows (P : Location → Prop) (d : Disk) (l : Location) (r : Route) : Prop :=
  ∀ d' n before place, Extends P d d' → .into n :: before <:+ r →
    d'.child l before.reverse n = .ok place → d'.entry? place = none → P place

lemma Allows.above {before : Route} (h : Allows P d l r) (hbefore : before <:+ r) : Allows P d l before :=
  fun d' n route place hd' hsuffix => h d' n route place hd' (hsuffix.trans hbefore)

lemma Extends.makeDirectory {now next : Disk} (h : Extends P d now) (hallows : Allows P d l r)
    (hmade : now.makeDirectory l r = .ok next) : Extends P d next := by
  unfold Disk.makeDirectory at hmade
  split at hmade
  case h_1 n before =>
    obtain ⟨place, hchild, hmade⟩ := Traversal.bind_eq_ok_iff.mp hmade
    split at hmade
    · cases hmade
    obtain rfl := Except.ok.inj hmade
    obtain ⟨parent, -, -, rfl⟩ := child_eq_ok hchild
    have hnone := Option.not_isSome_iff_eq_none.mp ‹_›
    exact h.put (List.concat_ne_nil _ _) hnone
      (hallows now n before _ h (List.suffix_refl _) hchild hnone)
  case h_2 =>
    obtain ⟨_, -, hmade⟩ := Traversal.bind_eq_ok_iff.mp hmade
    cases hmade

lemma makeDirectories_keeps {Q : Disk → Prop}
    (hone : ∀ before now next, before <:+ r → Q now → now.makeDirectory l before = .ok next → Q next)
    (h : Q d) : Q (d.makeDirectories l r).2 := by
  induction r with
  | nil => exact h
  | cons m before ih =>
    have hrest : Q (d.makeDirectories l before).2 :=
      ih fun above now next hsuffix => hone above now next (hsuffix.trans (List.suffix_cons m before))
    have hlast : ∀ {now next}, Q now → now.makeDirectory l (m :: before) = .ok next → Q next :=
      hone (m :: before) _ _ (List.suffix_refl _)
    simp only [makeDirectories]
    split
    · -- what lies above is made first, and then this one is tried again
      split
      · rename_i hmade
        rwa [hmade] at hrest
      rename_i hmade
      rw [hmade] at hrest
      split
      · exact hlast hrest ‹_›
      · split <;> exact hrest
    · split
      · exact hlast h ‹_›
      · split <;> exact h

lemma Extends.makeDirectories (hallows : Allows P d l r) : Extends P d (d.makeDirectories l r).2 :=
  makeDirectories_keeps (fun _ _ _ hsuffix hnow => hnow.makeDirectory (hallows.above hsuffix)) (.refl P d)

lemma IsTree.put (h : d.IsTree) {e : Entry} (hroot : place ≠ [])
    (hparent : d.entry? place.dropLast = some .directory)
    (hfile : d.entry? place = some .directory → e = .directory) : (d.put place e).IsTree := by
  have hdirectory : ∀ l, d.entry? l = some .directory → Disk.entry? (d.put place e) l = some .directory := by
    intro l hl
    rw [entry?_put hroot]
    split
    · subst l
      rw [hfile hl]
    · exact hl
  intro entry hmem
  rcases List.mem_cons.mp hmem with rfl | hmem
  · exact hdirectory _ hparent
  · exact hdirectory _ (h entry (List.mem_filter.mp hmem).1)

lemma IsTree.makeDirectory (h : d.IsTree) (hmade : d.makeDirectory l r = .ok d') : d'.IsTree := by
  unfold Disk.makeDirectory at hmade
  split at hmade
  case h_1 n before =>
    obtain ⟨place, hchild, hmade⟩ := Traversal.bind_eq_ok_iff.mp hmade
    split at hmade
    · cases hmade
    obtain rfl := Except.ok.inj hmade
    obtain ⟨parent, -, hdir, rfl⟩ := child_eq_ok hchild
    refine h.put (List.concat_ne_nil _ _) ?_ fun _ => rfl
    rwa [List.dropLast_concat]
  case h_2 =>
    obtain ⟨_, -, hmade⟩ := Traversal.bind_eq_ok_iff.mp hmade
    cases hmade

lemma IsTree.makeParent (h : d.IsTree) (p : Path) : (d.makeParent p).2.IsTree := by
  rw [Disk.makeParent]
  split
  · exact h
  rename_i q _
  split
  · exact h
  have hmade : (d.makeDirectories (d.start q) q.moves.reverse).2.IsTree :=
    makeDirectories_keeps (fun _ _ _ _ => IsTree.makeDirectory) h
  split <;> rename_i hresult <;> rwa [hresult] at hmade

end Directories

section Target

variable {p q : Path} {before after : List Move}

/-- No step up on the path stands behind a directory that is missing. Wherever something is at the path,
this is so. -/
def Descends (d : Disk) (p : Path) : Prop :=
  ∃ before after l, p.moves = before ++ after ∧ d.walk (d.start p) before = .ok l ∧ .up ∉ after

/-- Nothing has changed but that some directories were made, none of them at the path. -/
structure Keeps (d : Disk) (p : Path) (d' : Disk) : Prop where
  workplace : d'.workplace = d.workplace
  entry : ∀ l, d'.entry? l = d.entry? l ∨ d.entry? l = none ∧ d'.entry? l = some .directory
  target : d.Descends p → d'.at? p = d.at? p

lemma Keeps.refl (d : Disk) (p : Path) : d.Keeps p d := ⟨rfl, fun _ => .inl rfl, fun _ => rfl⟩

lemma Extends.at?_eq (h : Extends (fun place => place.length < l.length + (Move.steps after).length) d d')
    (htree : d.IsTree) (hmoves : p.moves = before ++ after) (hbefore : d.walk (d.start p) before = .ok l)
    (hup : .up ∉ after) : d'.at? p = d.at? p := by
  have hstart : d'.start p = d.start p := by rw [start, start, h.workplace]
  rw [at?, at?, locate, locate, hstart]
  by_cases htext : p.text = ""
  · rw [if_pos htext, if_pos htext]
  rw [if_neg htext, if_neg htext]
  rcases hwalk : d.walk (d.start p) p.moves with e | place
  · rcases hwalk' : d'.walk (d.start p) p.moves with e' | place
    · rfl
    -- a place that is only now reached has no entry
    change d'.entry? place = none
    rw [hmoves, walk_append_eq_ok] at hwalk'
    obtain ⟨l', hl', hafter⟩ := hwalk'
    obtain rfl := Except.ok.inj ((h.walk hbefore).symm.trans hl')
    rcases h.entry place with heq | ⟨-, -, hlt⟩
    · rw [heq]
      by_contra hne
      have hback := h.walk_back htree hafter hup (Option.isSome_iff_ne_none.mpr hne)
      rw [hmoves, walk_append_eq_ok.mpr ⟨l, hbefore, hback⟩] at hwalk
      cases hwalk
    · exact absurd (walk_down hafter hup).2 (Nat.ne_of_lt hlt)
  · rw [h.walk hwalk]
    obtain ⟨m, ms, hcons⟩ := List.exists_cons_of_ne_nil p.moves_ne_nil
    have hroot := (walk_cons_eq_ok.mp (hcons ▸ hwalk)).1
    rcases h.entry place with heq | ⟨hnone, -⟩
    · exact heq
    · exact nomatch hnone ▸ htree.isSome_of_walk (Option.isSome_of_eq_some hroot) hwalk

lemma allows_parent {m : Move} (hsteps : Move.steps p.moves = Move.steps q.moves ++ [m])
    (hmoves : p.moves = before ++ after) (hbefore : d.walk (d.start p) before = .ok l)
    (hup : .up ∉ after) :
    Allows (fun place => place.length < l.length + (Move.steps after).length) d (d.start p)
      q.moves.reverse := by
  intro d' n route place hd' hsuffix hchild hnone
  obtain ⟨parent, hwalk, hdir, rfl⟩ := child_eq_ok hchild
  have hreach := walk_steps (hd'.walk hbefore)
  have hroute : Move.steps route.reverse ++ [.into n] <+: Move.steps q.moves := by
    have hfront := List.reverse_suffix.mp ((List.reverse_reverse (Move.into n :: route)).symm ▸ hsuffix)
    rw [List.reverse_cons] at hfront
    have hsteps := Move.steps_isPrefix hfront
    rwa [Move.steps_append] at hsteps
  rw [hmoves, Move.steps_append] at hsteps
  have hwhole : Move.steps route.reverse ++ [.into n] <+: Move.steps before ++ Move.steps after :=
    hsteps ▸ hroute.trans (List.prefix_append _ _)
  -- before the missing part of the path everything is there, so nothing is made
  have hbehind : ¬ Move.steps route.reverse ++ [.into n] <+: Move.steps before := by
    rintro ⟨rest, hrest⟩
    obtain ⟨_, hinto, -⟩ := walk_append_eq_ok.mp (hrest ▸ hreach)
    obtain ⟨parent', hparent, hinto⟩ := walk_append_eq_ok.mp hinto
    obtain rfl := Except.ok.inj ((walk_steps hwalk).symm.trans hparent)
    have hsome : (d'.entry? (parent ++ [n])).isSome := (walk_cons_eq_ok.mp hinto).2.1
    exact nomatch hnone ▸ hsome
  have hpast : Move.steps before <+: Move.steps route.reverse := by
    rcases List.prefix_or_prefix_of_prefix hwhole (List.prefix_append _ _) with h | h
    · exact absurd h hbehind
    rcases List.prefix_concat_iff.mp h with h | h
    · exact absurd (h ▸ List.prefix_refl _) hbehind
    · exact h
  obtain ⟨further, hfurther⟩ := hpast
  rw [← hfurther, List.append_assoc, List.prefix_append_right_inj] at hwhole
  have hdown : .up ∉ further := fun hmem =>
    hup (List.mem_filter.mp (hwhole.subset (List.mem_append_left _ hmem))).1
  obtain ⟨l', hl', hwalk⟩ := walk_append_eq_ok.mp (hfurther ▸ walk_steps hwalk)
  obtain rfl := Except.ok.inj (hreach.symm.trans hl')
  have hlength := (walk_down hwalk hdown).2
  have hle : (Move.steps further).length ≤ further.length := List.length_filter_le ..
  have hlast := hroute.length_le
  have htotal := congrArg List.length hsteps
  rw [← hfurther] at hlast
  simp only [List.length_append, List.length_singleton] at hlast htotal ⊢
  omega

lemma keeps_makeParent (htree : d.IsTree) (p : Path) : d.Keeps p (d.makeParent p).2 := by
  rw [makeParent]
  split
  · exact .refl d p
  rename_i q hparent
  split
  · exact .refl d p
  rename_i htext
  obtain ⟨habsolute, m, hsteps⟩ := (Path.steps_parent hparent).resolve_left htext
  have hstart : d.start q = d.start p := by simp only [start, habsolute]
  have hkeeps : d.Keeps p (d.makeDirectories (d.start q) q.moves.reverse).2 := by
    rw [hstart]
    have hmade : Extends (fun _ => True) d (d.makeDirectories (d.start p) q.moves.reverse).2 :=
      .makeDirectories fun _ _ _ _ _ _ _ _ => trivial
    refine ⟨hmade.workplace, fun l => ?_, ?_⟩
    · exact (hmade.entry l).imp id fun h => ⟨h.1, h.2.1⟩
    · rintro ⟨before, after, l, hmoves, hbefore, hup⟩
      exact (Extends.makeDirectories (allows_parent hsteps hmoves hbefore hup)).at?_eq htree hmoves hbefore hup
  split <;> rename_i hmade <;> rwa [hmade] at hkeeps

end Target

section Writing

variable {p : Path}

lemma directory_put (hroot : place ≠ []) (hfile : d.entry? place ≠ some .directory) (c : Content)
    (hdir : d.entry? l = some .directory) : Disk.entry? (d.put place (.file c)) l = some .directory := by
  have hne : l ≠ place := fun heq => hfile (heq ▸ hdir)
  rw [entry?_put hroot, if_neg hne, hdir]

lemma walk_put (hroot : place ≠ []) (hfile : d.entry? place ≠ some .directory) (c : Content)
    (h : d.walk l ms = .ok l') : (d.put place (.file c)).walk l ms = .ok l' := by
  refine walk_mono (fun l => directory_put hroot hfile c) (fun l hsome => ?_) h
  rw [entry?_put hroot]
  split
  · rfl
  · exact hsome

lemma file?_of_write? {c : Content} (h : d.write? p c = some d') : d'.file? p = some c := by
  unfold write? at h
  split at h
  case h_2 => cases h
  case h_1 n before hmoves =>
  split at h
  case h_2 => cases h
  case h_1 place hchild =>
  split at h
  · cases h
  rename_i hfile
  obtain rfl := Option.some.inj h
  obtain ⟨parent, hwalk, hdir, rfl⟩ := child_eq_ok hchild
  have htext : p.text ≠ "" := by
    intro hempty
    obtain ⟨text⟩ := p
    obtain rfl : text = "" := hempty
    cases hmoves
  have hmoves : p.moves = before.reverse ++ [.into n] := by
    rw [← List.reverse_reverse p.moves, hmoves, List.reverse_cons]
  have hroot := List.concat_ne_nil n parent
  have hend : Disk.entry? (d.put (parent ++ [n]) (.file c)) (parent ++ [n]) = some (.file c) := by
    rw [entry?_put hroot, if_pos rfl]
  have hlocate : (d.put (parent ++ [n]) (.file c)).locate p = .ok (parent ++ [n]) := by
    rw [locate, if_neg htext, hmoves]
    refine walk_append_eq_ok.mpr ⟨parent, walk_put hroot hfile c hwalk, ?_⟩
    exact walk_cons_eq_ok.mpr ⟨directory_put hroot hfile c hdir, by rw [hend]; rfl, rfl⟩
  rw [file?, at?, hlocate]
  dsimp only
  rw [hend]

lemma IsTree.write? (h : d.IsTree) {c : Content} (hwrite : d.write? p c = some d') : d'.IsTree := by
  unfold Disk.write? at hwrite
  split at hwrite
  case h_2 => cases hwrite
  case h_1 =>
  split at hwrite
  case h_2 => cases hwrite
  case h_1 hchild =>
  split at hwrite
  · cases hwrite
  rename_i hfile
  obtain rfl := Option.some.inj hwrite
  obtain ⟨parent, -, hdir, rfl⟩ := child_eq_ok hchild
  refine h.put (List.concat_ne_nil _ _) ?_ fun hdirectory => absurd hdirectory hfile
  rwa [List.dropLast_concat]

end Writing

end VideoRemap.Disk
