import GameDemoLearn.Util.Log

/-!
What the rotations of `HtmlFormatSink` keep. The names are computed anew in every rotation, so
that a file is moved on only while the clock gives the time that is in its name. Where it does
for every file, the closed files are a shelf that a rotation shifts by one; where it does not
for the open file, `reopen` empties that file in its place.
-/

namespace GameDemoLearn.Log

open Transition

namespace Rotation

/-- The formatted time in the name that turn `i` looks for. -/
def srcStr (c : SinkConfig) (r : Rotation) (i : Nat) : Bytes := c.timeStr (r.srcTime i)

/-- The formatted time in the name that turn `i` gives. -/
def targetStr (c : SinkConfig) (r : Rotation) (i : Nat) : Bytes := c.timeStr (r.targetTime i)

/-- The readings of the clock, in their order. -/
def readings (r : Rotation) : Nat → List Nat
  | 0 => []
  | i + 1 => r.srcTime (i + 1) :: r.targetTime (i + 1) :: r.readings i

end Rotation

section Files

variable {c : SinkConfig} {r : Rotation} {fs : Files} {src target : Bytes} {o : RenameOutcome}

/-- After a failure a second attempt still renames as the first one would have done. -/
theorem renameFile_cases (hne : target ≠ src) (fs : Files) (o : RenameOutcome) :
    renameFile fs src target o = (Shelf.move fs src target, true) ∨
      ∃ fs', renameFile fs src target o = (fs', false) ∧
        Shelf.move fs' src target = Shelf.move fs src target := by
  cases o with
  | renamed => exact .inl rfl
  | failed removed =>
      refine .inr ⟨_, rfl, ?_⟩
      cases removed with
      | false => rfl
      | true => exact Shelf.move_removed hne

/-- A rotation that gets to its end is a shift of the shelf. -/
theorem rotateFiles_eq_shift {n : Nat} (hdone : (rotateFiles c r n fs).2 = true) :
    (rotateFiles c r n fs).1 = Shelf.shift c.fileName (r.srcStr c) (r.targetStr c) n fs := by
  induction n generalizing fs with
  | zero => rfl
  | succ n ih =>
      let src := c.calcFilename (r.srcTime (n + 1)) n
      let target := c.calcFilename (r.targetTime (n + 1)) (n + 1)
      have hne : target ≠ src := fun h =>
        absurd (c.numbered_fileName _ _ _ _ h) (Nat.succ_ne_self n)
      have hturn : Shelf.turn c.fileName (r.srcStr c) (r.targetStr c) fs n
          = if fs src = none then fs else Shelf.move fs src target := rfl
      rw [Shelf.shift, hturn]
      unfold rotateFiles at hdone ⊢
      by_cases hsrc : fs src = none
      · rw [if_pos hsrc] at hdone ⊢
        rw [if_pos hsrc]
        exact ih hdone
      · rw [if_neg hsrc] at hdone ⊢
        rw [if_neg hsrc]
        rcases renameFile_cases hne fs (r.firstTry (n + 1)) with hfirst | ⟨fs', hfirst, hmove⟩
        · simp only [src, target] at hfirst
          simp only [hfirst] at hdone ⊢
          exact ih hdone
        · rcases renameFile_cases hne fs' (r.secondTry (n + 1)) with hsecond | ⟨fs'', hsecond, -⟩
          · rw [hmove] at hsecond
            simp only [src, target] at hfirst hsecond
            simp only [hfirst, hsecond] at hdone ⊢
            exact ih hdone
          · simp only [src, target] at hfirst hsecond
            simp only [hfirst, hsecond] at hdone
            cases hdone

end Files

/-- The closed files, the last one first, after a rotation has closed one more. -/
def shelve (c : SinkConfig) (r : Rotation) (content : Bytes) (files : List (Bytes × Bytes)) :
    List (Bytes × Bytes) :=
  (content :: files.map Prod.snd).mapIdx fun j bytes => (r.targetStr c (j + 1), bytes)

/-- The turns of a rotation look for the open file and for the closed ones, as far as they are
kept, under the times that are in their names. -/
def LooksFor (c : SinkConfig) (opened : Bytes) (files : List (Bytes × Bytes)) (r : Rotation) :
    Prop :=
  ∀ j < c.maxFiles, ∀ time, (opened :: files.map Prod.fst)[j]? = some time →
    r.srcStr c (j + 1) = time

theorem getElem?_shelve {c : SinkConfig} {r : Rotation} {content bytes time : Bytes}
    {files : List (Bytes × Bytes)} {j : Nat} :
    (shelve c r content files)[j]? = some (time, bytes) ↔
      (content :: files.map Prod.snd)[j]? = some bytes ∧ r.targetStr c (j + 1) = time := by
  rw [shelve, List.getElem?_mapIdx, Option.map_eq_some_iff]
  simp only [Prod.mk.injEq]
  constructor
  · rintro ⟨_, hget, rfl, rfl⟩
    exact ⟨hget, rfl⟩
  · rintro ⟨hget, rfl⟩
    exact ⟨bytes, hget, rfl, rfl⟩

theorem map_snd_shelve (c : SinkConfig) (r : Rotation) (content : Bytes)
    (files : List (Bytes × Bytes)) :
    (shelve c r content files).map Prod.snd = content :: files.map Prod.snd := by
  refine List.ext_getElem? fun j => ?_
  rw [shelve, List.getElem?_map, List.getElem?_mapIdx, Option.map_map]
  exact Option.map_id'

namespace HtmlFormatSink

/-- The closed files of a run, with the formatted times in their names. -/
def archived (c : SinkConfig) (tr : List (HtmlFormatSink × LogCall)) : List (Bytes × Bytes) :=
  tr.foldl (fun files p =>
    if p.1.Rotates c p.2 then shelve c p.2.rotation p.1.content files else files) []

/-- Every rotation of a run looks for the files under the times that are in their names. -/
def FindsAll (c : SinkConfig) (opened : Bytes) (tr : List (HtmlFormatSink × LogCall)) : Prop :=
  ∀ before x call after, tr = before ++ (x, call) :: after → x.Rotates c call →
    LooksFor c opened (archived c before) call.rotation

/-- The open file has kept its name, and each closed file that is not past the last index is
under its index. -/
structure Shelved (c : SinkConfig) (opened : Bytes) (files : List (Bytes × Bytes))
    (s : HtmlFormatSink) : Prop where
  filename_eq : s.filename = c.fileName opened 0
  held : ∀ j < c.maxFiles, ∀ time bytes, files[j]? = some (time, bytes) →
    s.fs (c.fileName time (j + 1)) = some bytes

section Calls

variable {c : SinkConfig} {s : HtmlFormatSink} {call : LogCall} {opened time : Bytes}
  {files : List (Bytes × Bytes)} {j : Nat}

theorem filename_rotate (c : SinkConfig) (s : HtmlFormatSink) (r : Rotation) :
    (s.rotate c r).1.filename = s.filename := by
  unfold rotate
  rcases rotateFiles c r c.maxFiles s.fs with ⟨fs, _ | _⟩
  · rfl
  · rfl

theorem filename_sinkIt (c : SinkConfig) (s : HtmlFormatSink) (call : LogCall) :
    (s.sinkIt c call).filename = s.filename := by
  have hname := filename_rotate c s call.rotation
  unfold sinkIt
  split
  · rcases hrotate : s.rotate c call.rotation with ⟨s', _ | _⟩
    · rw [hrotate] at hname
      exact hname
    · rw [hrotate] at hname
      exact hname
  · rfl

/-- The content of a file that has any. -/
theorem fs_filename (hsize : 0 < s.content.length) : s.fs s.filename = some s.content := by
  unfold content at hsize ⊢
  cases hheld : s.fs s.filename with
  | none => simp [hheld] at hsize
  | some bytes => rfl

theorem fs_sinkIt_kept (hname : s.filename = c.fileName opened 0) (hkeep : ¬ s.Rotates c call) :
    (s.sinkIt c call).fs (c.fileName time (j + 1)) = s.fs (c.fileName time (j + 1)) := by
  have hne : c.fileName time (j + 1) ≠ s.filename := fun h =>
    absurd (c.numbered_fileName _ _ _ _ (h.trans hname)) (Nat.succ_ne_zero j)
  rw [sinkIt, if_neg hkeep]
  exact Function.update_of_ne hne _ _

/-- A rotation that returns has shifted the files with an index. -/
theorem fs_sinkIt_rotated (hname : s.filename = c.fileName opened 0)
    (hrotates : s.Rotates c call) (hdone : ¬ s.Throws c call) :
    (s.sinkIt c call).fs (c.fileName time (j + 1))
      = Shelf.shift c.fileName (call.rotation.srcStr c) (call.rotation.targetStr c) c.maxFiles s.fs
          (c.fileName time (j + 1)) := by
  have hne : c.fileName time (j + 1) ≠ s.filename := fun h =>
    absurd (c.numbered_fileName _ _ _ _ (h.trans hname)) (Nat.succ_ne_zero j)
  have hreturns := rotate_returns hrotates hdone
  rw [sinkIt, if_pos hrotates]
  have hshift := @rotateFiles_eq_shift c call.rotation s.fs c.maxFiles
  unfold rotate at hreturns ⊢
  rcases hfiles : rotateFiles c call.rotation c.maxFiles s.fs with ⟨fs, _ | _⟩
  · rw [hfiles] at hreturns
    cases hreturns
  · rw [hfiles] at hshift
    rw [← hshift rfl]
    simp only [write, reopen, Function.update_of_ne hne]

/-- The step: a rotation that looks for every file under its name shelves the open one. -/
theorem Shelved.sinkIt (hs : s.Shelved c opened files) (hdone : ¬ s.Throws c call)
    (hlooks : s.Rotates c call → LooksFor c opened files call.rotation) :
    (s.sinkIt c call).Shelved c opened
      (if s.Rotates c call then shelve c call.rotation s.content files else files) := by
  refine ⟨(filename_sinkIt c s call).trans hs.filename_eq, fun j hj time bytes hget => ?_⟩
  by_cases hrotates : s.Rotates c call
  · rw [if_pos hrotates, getElem?_shelve] at hget
    obtain ⟨hget, rfl⟩ := hget
    rw [fs_sinkIt_rotated hs.filename_eq hrotates hdone]
    have hlook := hlooks hrotates
    refine Shelf.shift_found c.numbered_fileName (fun i hi held hheld => ?_) j hj bytes hget
    cases i with
    | zero =>
        obtain rfl : s.content = held := by simpa using hheld
        rw [hlook 0 hi opened rfl, ← hs.filename_eq]
        exact fs_filename hrotates.2
    | succ i =>
        rw [List.getElem?_cons_succ, List.getElem?_map, Option.map_eq_some_iff] at hheld
        obtain ⟨⟨time, bytes⟩, hfile, rfl⟩ := hheld
        rw [hlook (i + 1) hi time (by simp [hfile])]
        exact hs.held i (by omega) time bytes hfile
  · rw [if_neg hrotates] at hget
    rw [fs_sinkIt_kept hs.filename_eq hrotates]
    exact hs.held j hj time bytes hget

/-- When no other file has the bytes of the open one, a rotation keeps them under index 1
exactly when its last turn looks for the open file under the time in its name. -/
theorem open_file_held_iff (hname : s.filename = c.fileName opened 0) (hfiles : 1 ≤ c.maxFiles)
    (honly : ∀ y ≠ s.filename, s.fs y ≠ some s.content) (hrotates : s.Rotates c call)
    (hdone : ¬ s.Throws c call) :
    (∃ time, (s.sinkIt c call).fs (c.fileName time 1) = some s.content) ↔
      call.rotation.srcStr c 1 = opened := by
  simp only [fs_sinkIt_rotated hname hrotates hdone]
  constructor
  · rintro ⟨time, hheld⟩
    by_contra hother
    have hmissed : ∀ i < c.maxFiles,
        c.fileName (call.rotation.srcStr c (i + 1)) i ≠ s.filename := by
      rintro i - heq
      rw [hname] at heq
      obtain rfl := c.numbered_fileName _ _ _ _ heq
      exact hother (c.fileName_time_inj heq)
    have hne : c.fileName time 1 ≠ s.filename := fun h =>
      absurd (c.numbered_fileName _ _ _ _ (h.trans hname)) Nat.one_ne_zero
    obtain ⟨z, hz, hsame⟩ := Shelf.exists_of_shift hmissed hne hheld
    exact honly z hz hsame
  · intro hlook
    have hfound : ∀ i < c.maxFiles, ∀ held, [s.content][i]? = some held →
        s.fs (c.fileName (call.rotation.srcStr c (i + 1)) i) = some held := by
      intro i hi held hheld
      cases i with
      | zero =>
          obtain rfl : s.content = held := by simpa using hheld
          rw [hlook, ← hname]
          exact fs_filename hrotates.2
      | succ i => cases hheld
    exact ⟨_, Shelf.shift_found c.numbered_fileName hfound 0 hfiles s.content rfl⟩

end Calls

section Runs

variable {c : SinkConfig} {s₀ s : HtmlFormatSink} {tr : List (HtmlFormatSink × LogCall)}
  {fs : Files} {now : Nat} {r : Rotation} {opened : Bytes}

theorem filename_construct (hopen : construct c fs now r = some s₀) :
    s₀.filename = c.fileName (c.timeStr now) 0 := by
  simp only [construct, Option.ite_none_left_eq_some] at hopen
  obtain ⟨-, -, hopen⟩ := hopen
  generalize hs : (openFile fs (c.calcFilename now 0)).write htmlHeader = s at hopen
  have hname : s.filename = c.fileName (c.timeStr now) 0 := by
    rw [← hs]
    rfl
  have hrotated := filename_rotate c { s with currentSize := s.content.length } r
  split at hopen
  · split at hopen
    · next s' hrotate =>
        cases hopen
        rw [hrotate] at hrotated
        exact hrotated.trans hname
    · cases hopen
  · cases hopen
    exact hname

theorem archived_snoc (tr : List (HtmlFormatSink × LogCall)) (x : HtmlFormatSink)
    (call : LogCall) :
    archived c (tr ++ [(x, call)])
      = if x.Rotates c call then shelve c call.rotation x.content (archived c tr)
        else archived c tr := by
  rw [archived, List.foldl_append]
  rfl

theorem FindsAll.prior {rest : List (HtmlFormatSink × LogCall)}
    (hfinds : FindsAll c opened (tr ++ rest)) : FindsAll c opened tr := by
  intro before x call after htr
  exact hfinds before x call (after ++ rest) (by simp [htr])

/-- After a run that has looked for every file under its name the closed files are a shelf. -/
theorem run_shelved (hname : s₀.filename = c.fileName opened 0) (hrun : Run (system c s₀) tr s)
    (hdone : ∀ p ∈ tr, ¬ p.1.Throws c p.2) (hfinds : FindsAll c opened tr) :
    s.Shelved c opened (archived c tr) := by
  induction hrun with
  | start hinit =>
      obtain rfl : _ = s₀ := hinit
      exact ⟨hname, fun j _ time bytes hget => by cases hget⟩
  | @snoc tr s s' call hprior hstep ih =>
      obtain rfl : s.sinkIt c call = s' := hstep
      rw [List.forall_mem_append, List.forall_mem_singleton] at hdone
      rw [archived_snoc]
      exact (ih hdone.1 hfinds.prior).sinkIt hdone.2 (hfinds tr s call [] rfl)

/-- Every record of a run without a throw is in the open file or in a closed one. -/
theorem record_written (hrun : Run (system c s₀) tr s) (hdone : ∀ p ∈ tr, ¬ p.1.Throws c p.2) :
    ∀ p ∈ tr, p.2.formatted <:+: s.content ∨
      ∃ bytes ∈ (archived c tr).map Prod.snd, p.2.formatted <:+: bytes := by
  induction hrun with
  | start => exact List.forall_mem_nil _
  | @snoc tr s s' call hprior hstep ih =>
      obtain rfl : s.sinkIt c call = s' := hstep
      rw [List.forall_mem_append, List.forall_mem_singleton] at hdone ⊢
      have hwritten := ih hdone.1
      rw [archived_snoc]
      by_cases hrotates : s.Rotates c call
      · have hreturns := rotate_returns hrotates hdone.2
        rw [if_pos hrotates, map_snd_shelve, (sinkIt_rotated hrotates hreturns).1]
        refine ⟨fun p hp => .inr ?_, .inl (List.suffix_append _ _).isInfix⟩
        rcases hwritten p hp with hopen | ⟨bytes, hbytes, hclosed⟩
        · exact ⟨s.content, List.mem_cons_self, hopen⟩
        · exact ⟨bytes, List.mem_cons_of_mem _ hbytes, hclosed⟩
      · rw [if_neg hrotates, (sinkIt_kept hrotates).1]
        refine ⟨fun p hp => ?_, .inl (List.suffix_append _ _).isInfix⟩
        exact (hwritten p hp).imp_left fun hopen => hopen.trans (List.prefix_append _ _).isInfix

theorem time_archived (hput : ∀ p ∈ tr, ∀ i, p.2.rotation.targetStr c i = opened) :
    ∀ file ∈ archived c tr, file.1 = opened := by
  induction tr using List.reverseRecOn with
  | nil => exact List.forall_mem_nil _
  | append_singleton tr p ih =>
      obtain ⟨x, call⟩ := p
      rw [List.forall_mem_append, List.forall_mem_singleton] at hput
      rw [archived_snoc]
      split
      · rintro ⟨time, bytes⟩ hfile
        obtain ⟨j, hget⟩ := List.mem_iff_getElem?.mp hfile
        rw [← (getElem?_shelve.mp hget).2]
        exact hput.2 (j + 1)
      · exact ih hput.1

/-- While the clock gives the time at which the file was opened, every file is found. -/
theorem findsAll_of_sameTime (hlook : ∀ p ∈ tr, ∀ i, p.2.rotation.srcStr c i = opened)
    (hput : ∀ p ∈ tr, ∀ i, p.2.rotation.targetStr c i = opened) : FindsAll c opened tr := by
  rintro before x call after rfl - j - time htime
  rw [List.forall_mem_append] at hlook hput
  have hold : ∀ time ∈ (archived c before).map Prod.fst, time = opened :=
    List.forall_mem_map.mpr (time_archived hput.1)
  rw [hlook.2 _ List.mem_cons_self (j + 1)]
  rcases List.mem_cons.mp (List.mem_of_getElem? htime) with rfl | hmem
  · rfl
  · exact (hold time hmem).symm

/-- While every rotation looks for the files under the times in their names, the bytes of the
open file are under index 1 after it, and a record is lost only when its file has been pushed
past the last index. -/
theorem records_kept (hfiles : 1 ≤ c.maxFiles) (hopen : construct c fs now r = some s₀)
    (hrun : Run (system c s₀) tr s) (hdone : ∀ p ∈ tr, ¬ p.1.Throws c p.2)
    (hfinds : FindsAll c (c.timeStr now) tr) :
    (∀ before x call after, tr = before ++ (x, call) :: after → x.Rotates c call →
      (x.sinkIt c call).fs (c.calcFilename (call.rotation.targetTime 1) 1) = some x.content) ∧
    ∀ p ∈ tr, p.2.formatted <:+: s.content ∨
      ∃ j time bytes, (archived c tr)[j]? = some (time, bytes) ∧ p.2.formatted <:+: bytes ∧
        (j < c.maxFiles → s.fs (c.fileName time (j + 1)) = some bytes) := by
  have hname := filename_construct hopen
  constructor
  · rintro before x call after rfl hrotates
    have hprior := hrun.before rfl
    rw [List.forall_mem_append, List.forall_mem_cons] at hdone
    have hshelved := run_shelved hname hprior hdone.1 hfinds.prior
    have hnext := hshelved.sinkIt hdone.2.1 fun h => hfinds before x call after rfl h
    rw [if_pos hrotates] at hnext
    refine hnext.held 0 hfiles _ x.content (getElem?_shelve.mpr ⟨rfl, rfl⟩)
  · intro p hp
    have hshelved := run_shelved hname hrun hdone hfinds
    refine (record_written hrun hdone p hp).imp_right ?_
    rintro ⟨bytes, hbytes, hclosed⟩
    obtain ⟨⟨time, bytes⟩, hfile, rfl⟩ := List.mem_map.mp hbytes
    obtain ⟨j, hget⟩ := List.mem_iff_getElem?.mp hfile
    exact ⟨j, time, bytes, hget, hclosed, fun hj => hshelved.held j hj time bytes hget⟩

theorem run_secondSink (call : LogCall) :
    Run (system smallConfig smallSink) [(smallSink, smallCall), (secondSink, call)]
      (secondSink.sinkIt smallConfig call) :=
  Run.snoc (Run.snoc (a := smallCall) (.start rfl) rfl) rfl

theorem records_kept_secondSink :
    (secondSink.sinkIt smallConfig smallCall).fs
        (smallConfig.calcFilename (smallCall.rotation.targetTime 1) 1)
      = some secondSink.content := by
  have hdone : ∀ p ∈ [(smallSink, smallCall), (secondSink, smallCall)],
      ¬ p.1.Throws smallConfig p.2 := by
    simp only [List.forall_mem_cons]
    exact ⟨not_throws_of_renamed fun _ => rfl, not_throws_of_renamed fun _ => rfl,
      List.forall_mem_nil _⟩
  have hfinds : FindsAll smallConfig (smallConfig.timeStr 0)
      [(smallSink, smallCall), (secondSink, smallCall)] := by
    refine findsAll_of_sameTime ?_ ?_
    · simp only [List.forall_mem_cons]
      exact ⟨fun _ => rfl, fun _ => rfl, List.forall_mem_nil _⟩
    · simp only [List.forall_mem_cons]
      exact ⟨fun _ => rfl, fun _ => rfl, List.forall_mem_nil _⟩
  have hrotates : secondSink.Rotates smallConfig smallCall := secondSink_rotates length_smallCall
  have hkept := records_kept (by decide) construct_smallSink (run_secondSink smallCall) hdone hfinds
  exact hkept.1 [(smallSink, smallCall)] secondSink smallCall [] rfl hrotates

/-- The clock does not go back from the opening of the file on. -/
def ClockOrdered (c : SinkConfig) (now : Nat) (r : Rotation)
    (tr : List (HtmlFormatSink × LogCall)) : Prop :=
  (now :: (r.readings c.maxFiles ++ tr.flatMap fun p => p.2.rotation.readings c.maxFiles)).Pairwise
    (· ≤ ·)

instance (c : SinkConfig) (now : Nat) (r : Rotation) (tr : List (HtmlFormatSink × LogCall)) :
    Decidable (ClockOrdered c now r tr) :=
  inferInstanceAs (Decidable (List.Pairwise _ _))

/-- The record of `smallCall`, one second later. -/
def laterCall : LogCall := { smallCall with rotation := .smooth 1 }

theorem fs_secondSink {y : Bytes} (hy : y ≠ secondSink.filename) : secondSink.fs y = none := by
  have hname : y ≠ smallSink.filename := by
    rwa [secondSink, filename_sinkIt] at hy
  have hopened : y ≠ smallConfig.calcFilename 0 0 := hname
  rw [secondSink, sinkIt, if_neg smallSink_not_rotates]
  simp only [write, Function.update_of_ne hname]
  simp only [smallSink, openFile, write, Function.update_of_ne hopened]

/-- The file was opened in one second and is looked for in the next one. -/
theorem open_file_lost :
    ¬ ∀ (c : SinkConfig) (fs : Files) (now : Nat) (r : Rotation) (s₀ s : HtmlFormatSink)
        (tr : List (HtmlFormatSink × LogCall)), 1 ≤ c.maxFiles → construct c fs now r = some s₀ →
        Run (system c s₀) tr s → ClockOrdered c now r tr →
        (∀ p ∈ tr, ∀ i, p.2.rotation.firstTry i = .renamed) →
          ∀ before x call, tr = before ++ [(x, call)] → x.Rotates c call →
            ∃ time, s.fs (c.fileName time 1) = some x.content := by
  intro hheld
  have hrenamed : ∀ p ∈ [(smallSink, smallCall), (secondSink, laterCall)], ∀ i,
      p.2.rotation.firstTry i = .renamed := by
    simp only [List.forall_mem_cons]
    exact ⟨fun _ => rfl, fun _ => rfl, List.forall_mem_nil _⟩
  have hlater : secondSink.Rotates smallConfig laterCall := secondSink_rotates length_smallCall
  have hlost := hheld _ _ _ _ _ _ _ (by decide) construct_smallSink (run_secondSink laterCall)
    (by decide) hrenamed [(smallSink, smallCall)] secondSink laterCall rfl hlater
  have hname : secondSink.filename = smallConfig.fileName (smallConfig.timeStr 0) 0 :=
    (filename_sinkIt _ _ _).trans (filename_construct construct_smallSink)
  have honly : ∀ y ≠ secondSink.filename, secondSink.fs y ≠ some secondSink.content := by
    intro y hy
    rw [fs_secondSink hy]
    exact (Option.some_ne_none _).symm
  have hrenames : ¬ secondSink.Throws smallConfig laterCall := not_throws_of_renamed fun _ => rfl
  have hfound := (open_file_held_iff hname (by decide) honly hlater hrenames).mp hlost
  have hticked : smallConfig.timeStr 1 ≠ smallConfig.timeStr 0 := by decide +kernel
  exact hticked hfound

end Runs

end HtmlFormatSink

end GameDemoLearn.Log
