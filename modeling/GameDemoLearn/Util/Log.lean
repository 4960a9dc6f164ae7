import GameDemoLearn.Lib.Lines
import GameDemoLearn.Lib.Shelf
import GameDemoLearn.Lib.Transition
import GameDemoLearn.Util.Util

/-!
`HtmlFormatSink` (`Log.cpp`) over a file system that maps names to contents. The file helper
appends to the file that it has open, `reopen(true)` empties that file, and `size` counts all
of its bytes. An exception that leaves `sink_it_` ends the call in the state it has left.
-/

namespace GameDemoLearn.Log

open Transition

abbrev Files := Bytes → Option Bytes

/-- The enumerators of `spdlog::level`. -/
inductive Level
  | trace
  | debug
  | info
  | warn
  | err
  | critical
  | off
  | nLevels

def getLogLevelHtmlPrefix : Level → Bytes
  | .trace => Bytes.ofString "<font color=\" #DCDFE4\">"
  | .debug => Bytes.ofString "<font color=\" #56B6C2\">"
  | .info => Bytes.ofString "<font color=\" #98C379\">"
  | .warn => Bytes.ofString "<font color=\" #E5C07B\">"
  | .err => Bytes.ofString "<font color=\" #E06C75\">"
  | .critical => Bytes.ofString "<font color=\" #DCDFE4\" style=\"background-color:#E06C75;\">"
  | .off | .nLevels => []

def htmlHeader : Bytes :=
  Bytes.ofString "<html>\n                <head>\n"
    ++ Bytes.ofString "                <meta http-equiv=\"content-type\""
    ++ Bytes.ofString " content=\"text/html; charset-gb2312\">\n"
    ++ Bytes.ofString "                <title>Html Output</title>\n                </head>\n"
    ++ Bytes.ofString "                <body>\n"
    ++ Bytes.ofString "                <font face=\"Fixedsys\" size=\"2\" color=\"#0000FF\">"

/-- The arguments of the constructor, with the two parts of the base file name
(`split_by_extension`) and what `std::format` makes of a reading of the clock. -/
structure SinkConfig where
  basename : Bytes
  ext : Bytes
  maxSize : Nat
  maxFiles : Nat
  rotateOnOpen : Bool
  timeStr : Nat → Bytes
  maxSize_lt : maxSize < 2 ^ 64

namespace SinkConfig

/-- The name with a formatted time and an index. -/
def fileName (c : SinkConfig) (time : Bytes) (index : Nat) : Bytes :=
  c.basename ++ time ++ [46] ++ Util.toChars index ++ c.ext

/-- `calc_filename`, called when the clock reads `now`. -/
def calcFilename (c : SinkConfig) (now index : Nat) : Bytes := c.fileName (c.timeStr now) index

theorem numbered_fileName (c : SinkConfig) : Shelf.Numbered c.fileName := by
  intro time time' i j heq
  have hdot : ∀ n, (46 : UInt8) ∉ Util.toChars n := fun n hmem =>
    absurd (List.all_eq_true.mp (Util.all_toChars n) 46 hmem) (by decide)
  unfold fileName at heq
  rw [List.append_cancel_right_eq] at heq
  simp only [List.append_assoc, List.singleton_append] at heq
  rw [← List.append_assoc, ← List.append_assoc] at heq
  have hchars := Lines.behind_last_inj (hdot i) (hdot j) heq
  have hvalue := congrArg Util.digitsValue hchars
  rwa [Util.digitsValue_toChars, Util.digitsValue_toChars, Option.some.injEq] at hvalue

theorem fileName_time_inj (c : SinkConfig) {time time' : Bytes} {index : Nat}
    (heq : c.fileName time index = c.fileName time' index) : time = time' := by
  unfold fileName at heq
  simpa only [List.append_assoc, List.append_cancel_left_eq, List.append_cancel_right_eq] using heq

end SinkConfig

/-- How `rename_file_` ends; where it fails, it may have removed the target. -/
inductive RenameOutcome
  | renamed
  | failed (removed : Bool)

/-- What a rotation meets in its turn `i`: the readings of the clock for the two names, and
how the attempts to rename end. -/
structure Rotation where
  srcTime : Nat → Nat
  targetTime : Nat → Nat
  firstTry : Nat → RenameOutcome
  secondTry : Nat → RenameOutcome

/-- Every file is renamed at the first attempt, at the given time. -/
def Rotation.smooth (now : Nat) : Rotation :=
  ⟨fun _ => now, fun _ => now, fun _ => .renamed, fun _ => .renamed⟩

/-- A turn below `n` finds its file, and both of its attempts to rename it fail. -/
def Rotation.Fails (c : SinkConfig) (r : Rotation) (n : Nat) (fs : Files) : Prop :=
  ∃ i < n, fs (c.calcFilename (r.srcTime (i + 1)) i) ≠ none ∧ r.firstTry (i + 1) ≠ .renamed ∧
    r.secondTry (i + 1) ≠ .renamed

def renameFile (fs : Files) (src target : Bytes) : RenameOutcome → Files × Bool
  | .renamed => (Shelf.move fs src target, true)
  | .failed removed => (if removed then Function.update fs target none else fs, false)

/-- The loop of `rotate_`, with whether it got to its end. -/
def rotateFiles (c : SinkConfig) (r : Rotation) : Nat → Files → Files × Bool
  | 0, fs => (fs, true)
  | i + 1, fs =>
      let src := c.calcFilename (r.srcTime (i + 1)) i
      if fs src = none then
        rotateFiles c r i fs
      else
        let target := c.calcFilename (r.targetTime (i + 1)) (i + 1)
        match renameFile fs src target (r.firstTry (i + 1)) with
        | (fs, true) => rotateFiles c r i fs
        | (fs, false) =>
            match renameFile fs src target (r.secondTry (i + 1)) with
            | (fs, true) => rotateFiles c r i fs
            | (fs, false) => (fs, false)

theorem renameFile_other {fs : Files} {src target y : Bytes} (hsrc : y ≠ src)
    (htarget : y ≠ target) (o : RenameOutcome) : (renameFile fs src target o).1 y = fs y := by
  cases o with
  | renamed => exact Shelf.move_other hsrc htarget
  | failed removed =>
      cases removed with
      | false => rfl
      | true => exact Function.update_of_ne htarget _ _

/-- No turn touches the file that a later one looks for. -/
theorem rotateFiles_fails_iff {c : SinkConfig} {r : Rotation} {n : Nat} {fs : Files} :
    (rotateFiles c r n fs).2 = false ↔ r.Fails c n fs := by
  induction n generalizing fs with
  | zero => simp [rotateFiles, Rotation.Fails]
  | succ n ih =>
      have hlater : ∀ {fs' : Files}, (∀ i < n, ∀ time, fs' (c.fileName time i)
          = fs (c.fileName time i)) → ((rotateFiles c r n fs').2 = false ↔ r.Fails c n fs) := by
        intro fs' hsame
        rw [ih]
        refine exists_congr fun i => and_congr_right fun hi => ?_
        rw [SinkConfig.calcFilename, hsame i hi]
      have hother : ∀ i < n, ∀ time, c.fileName time i ≠ c.calcFilename (r.srcTime (n + 1)) n ∧
          c.fileName time i ≠ c.calcFilename (r.targetTime (n + 1)) (n + 1) := by
        intro i hi time
        refine ⟨fun h => ?_, fun h => ?_⟩
        · exact absurd (c.numbered_fileName _ _ _ _ h) (by omega)
        · exact absurd (c.numbered_fileName _ _ _ _ h) (by omega)
      rw [Rotation.Fails, Nat.exists_lt_succ_right, ← Rotation.Fails, rotateFiles]
      by_cases hsrc : fs (c.calcFilename (r.srcTime (n + 1)) n) = none
      · rw [if_pos hsrc, hlater fun _ _ _ => rfl, or_iff_left fun h => h.1 hsrc]
      · rw [if_neg hsrc]
        cases hfirst : r.firstTry (n + 1) with
        | renamed =>
            rw [or_iff_left fun h => h.2.1 rfl]
            exact hlater fun i hi time =>
              renameFile_other (hother i hi time).1 (hother i hi time).2 .renamed
        | failed removed =>
            cases hsecond : r.secondTry (n + 1) with
            | renamed =>
                rw [or_iff_left fun h => h.2.2 rfl]
                refine hlater fun i hi time => ?_
                obtain ⟨hsource, htarget⟩ := hother i hi time
                exact (renameFile_other hsource htarget .renamed).trans
                  (renameFile_other hsource htarget (.failed removed))
            | failed => exact iff_of_true rfl (.inr ⟨hsrc, by simp, by simp⟩)

/-- The file system, the name of the open file, and `_currentSize`. -/
structure HtmlFormatSink where
  fs : Files
  filename : Bytes
  currentSize : Nat

/-- A call of `sink_it_`: the level, the formatted message, and what a rotation meets. -/
structure LogCall where
  level : Level
  text : Bytes
  rotation : Rotation

def LogCall.formatted (call : LogCall) : Bytes :=
  getLogLevelHtmlPrefix call.level ++ call.text ++ Bytes.ofString "<br></font>"

namespace HtmlFormatSink

/-- The bytes of the open file. -/
def content (s : HtmlFormatSink) : Bytes := (s.fs s.filename).getD []

/-- `file_helper::open`. -/
def openFile (fs : Files) (filename : Bytes) : HtmlFormatSink :=
  ⟨Function.update fs filename (some ((fs filename).getD [])), filename, 0⟩

/-- `file_helper::write`. -/
def write (s : HtmlFormatSink) (buf : Bytes) : HtmlFormatSink :=
  { s with fs := Function.update s.fs s.filename (some (s.content ++ buf)) }

/-- `file_helper::reopen(true)`. -/
def reopen (s : HtmlFormatSink) : HtmlFormatSink :=
  { s with fs := Function.update s.fs s.filename (some []) }

/-- `rotate_`, with whether it returns; where it does not, it throws. -/
def rotate (c : SinkConfig) (s : HtmlFormatSink) (r : Rotation) : HtmlFormatSink × Bool :=
  match rotateFiles c r c.maxFiles s.fs with
  | (fs, true) => (({ s with fs }.reopen).write htmlHeader, true)
  | (fs, false) => ({ { s with fs }.reopen with currentSize := 0 }, false)

/-- The constructor, which throws for two of its arguments and where its rotation does. -/
def construct (c : SinkConfig) (fs : Files) (now : Nat) (r : Rotation) : Option HtmlFormatSink :=
  if c.maxSize = 0 then
    none
  else if 200000 < c.maxFiles then
    none
  else
    let s := (openFile fs (c.calcFilename now 0)).write htmlHeader
    let s := { s with currentSize := s.content.length }
    if c.rotateOnOpen ∧ 0 < s.currentSize then
      match s.rotate c r with
      | (s, true) => some { s with currentSize := 0 }
      | (_, false) => none
    else
      some s

/-- `newSize`, a `size_t`. -/
def newSize (s : HtmlFormatSink) (call : LogCall) : Nat :=
  (s.currentSize + call.formatted.length) % 2 ^ 64

/-- The condition under which `sink_it_` rotates. -/
def Rotates (c : SinkConfig) (s : HtmlFormatSink) (call : LogCall) : Prop :=
  c.maxSize < s.newSize call ∧ 0 < s.content.length

instance (c : SinkConfig) (s : HtmlFormatSink) (call : LogCall) : Decidable (s.Rotates c call) :=
  inferInstanceAs (Decidable (_ ∧ _))

/-- `sink_it_`. -/
def sinkIt (c : SinkConfig) (s : HtmlFormatSink) (call : LogCall) : HtmlFormatSink :=
  if s.Rotates c call then
    match s.rotate c call.rotation with
    | (s, true) => { s.write call.formatted with currentSize := call.formatted.length }
    | (s, false) => s
  else
    { s.write call.formatted with currentSize := s.newSize call }

/-- The calls of `sink_it_` on a sink that was constructed in the given state. -/
def system (c : SinkConfig) (s₀ : HtmlFormatSink) : System HtmlFormatSink LogCall where
  init s := s = s₀
  step s call s' := s.sinkIt c call = s'

/-- `_currentSize` is the size of the open file, which is within the limit. -/
def Tracked (c : SinkConfig) (s : HtmlFormatSink) : Prop :=
  s.currentSize = s.content.length ∧ s.content.length ≤ c.maxSize

instance (c : SinkConfig) (s : HtmlFormatSink) : Decidable (s.Tracked c) :=
  inferInstanceAs (Decidable (_ ∧ _))

/-- The record has room in the open file. -/
def Fits (c : SinkConfig) (s : HtmlFormatSink) (call : LogCall) : Prop :=
  s.currentSize + call.formatted.length ≤ c.maxSize

/-- The call throws out of its rotation, for a file cannot be renamed. -/
def Throws (c : SinkConfig) (s : HtmlFormatSink) (call : LogCall) : Prop :=
  s.Rotates c call ∧ call.rotation.Fails c c.maxFiles s.fs

section Calls

variable {c : SinkConfig} {s : HtmlFormatSink} {call : LogCall} {r : Rotation}

@[simp] theorem content_write (s : HtmlFormatSink) (buf : Bytes) :
    (s.write buf).content = s.content ++ buf := by
  simp [content, write]

@[simp] theorem content_openFile (fs : Files) (filename : Bytes) :
    (openFile fs filename).content = (fs filename).getD [] := by
  simp [content, openFile]

theorem content_currentSize (s : HtmlFormatSink) (size : Nat) :
    { s with currentSize := size }.content = s.content := rfl

@[simp] theorem content_reopen (s : HtmlFormatSink) : s.reopen.content = [] := by
  simp [content, reopen]

/-- A rotation that returns leaves the header, and one that throws an empty file. -/
theorem rotate_cases (c : SinkConfig) (s : HtmlFormatSink) (r : Rotation) :
    ((s.rotate c r).2 = true ∧ (s.rotate c r).1.content = htmlHeader) ∨
      ((s.rotate c r).2 = false ∧ (s.rotate c r).1.content = [] ∧
        (s.rotate c r).1.currentSize = 0) := by
  unfold rotate
  rcases rotateFiles c r c.maxFiles s.fs with ⟨fs, _ | _⟩
  · exact .inr ⟨rfl, content_reopen { s with fs }, rfl⟩
  · refine .inl ⟨rfl, ?_⟩
    rw [content_write, content_reopen, List.nil_append]

theorem rotate_fails_iff : (s.rotate c r).2 = false ↔ r.Fails c c.maxFiles s.fs := by
  rw [← rotateFiles_fails_iff]
  unfold rotate
  rcases rotateFiles c r c.maxFiles s.fs with ⟨fs, _ | _⟩
  · rfl
  · rfl

theorem rotate_returns (hrotates : s.Rotates c call) (hdone : ¬ s.Throws c call) :
    (s.rotate c call.rotation).2 = true := by
  rw [← Bool.not_eq_false, rotate_fails_iff]
  exact fun hfails => hdone ⟨hrotates, hfails⟩

theorem not_throws_of_renamed (hrenamed : ∀ i, call.rotation.firstTry i = .renamed) :
    ¬ s.Throws c call := by
  rintro ⟨-, i, -, -, hfirst, -⟩
  exact hfirst (hrenamed (i + 1))

theorem sinkIt_kept (hkeep : ¬ s.Rotates c call) :
    (s.sinkIt c call).content = s.content ++ call.formatted ∧
      (s.sinkIt c call).currentSize = s.newSize call := by
  rw [sinkIt, if_neg hkeep]
  exact ⟨content_write s call.formatted, rfl⟩

theorem sinkIt_rotated (hrotates : s.Rotates c call) (hdone : (s.rotate c call.rotation).2 = true) :
    (s.sinkIt c call).content = htmlHeader ++ call.formatted ∧
      (s.sinkIt c call).currentSize = call.formatted.length := by
  have hcases := rotate_cases c s call.rotation
  rw [sinkIt, if_pos hrotates]
  rcases hrotate : s.rotate c call.rotation with ⟨s', _ | _⟩
  · rw [hrotate] at hdone
    cases hdone
  · rw [hrotate] at hcases
    simp only [true_and, Bool.true_eq_false, false_and, or_false] at hcases
    refine ⟨?_, rfl⟩
    rw [← hcases]
    exact content_write s' call.formatted

theorem sinkIt_thrown (hthrows : s.Throws c call) :
    (s.sinkIt c call).content = [] ∧ (s.sinkIt c call).currentSize = 0 := by
  have hcases := rotate_cases c s call.rotation
  rw [sinkIt, if_pos hthrows.1]
  rcases hrotate : s.rotate c call.rotation with ⟨s', _ | _⟩
  · rw [hrotate] at hcases
    simpa using hcases
  · have hthrown := rotate_fails_iff.mpr hthrows.2
    rw [hrotate] at hthrown
    cases hthrown

theorem length_htmlHeader : htmlHeader.length = 268 := by
  decide +kernel

theorem length_htmlHeader_pos : 0 < htmlHeader.length := by
  rw [length_htmlHeader]
  exact Nat.succ_pos 267

/-- A call on a sink that knows the size of its file leaves it so within the limit exactly
when the record fits or the call throws. -/
theorem sinkIt_tracked_iff (hsize : s.currentSize = s.content.length) :
    (s.sinkIt c call).Tracked c ↔ s.Fits c call ∨ s.Throws c call := by
  have hheader := length_htmlHeader_pos
  have hlt := c.maxSize_lt
  by_cases hfits : s.Fits c call
  · have hnew : s.newSize call = s.currentSize + call.formatted.length :=
      Nat.mod_eq_of_lt (Nat.lt_of_le_of_lt hfits hlt)
    have hkeep : ¬ s.Rotates c call := by
      rintro ⟨hover, -⟩
      rw [hnew] at hover
      exact absurd hfits (Nat.not_le.mpr hover)
    obtain ⟨hcontent, hcurrent⟩ := sinkIt_kept hkeep
    refine iff_of_true ?_ (.inl hfits)
    rw [Tracked, hcontent, hcurrent, hnew, hsize, List.length_append, ← hsize]
    exact ⟨rfl, hfits⟩
  · rw [or_iff_right hfits]
    unfold Fits at hfits
    by_cases hrotates : s.Rotates c call
    · rcases rotate_cases c s call.rotation with ⟨hdone, -⟩ | ⟨hfails, -⟩
      · obtain ⟨hcontent, hcurrent⟩ := sinkIt_rotated hrotates hdone
        refine iff_of_false ?_ ?_
        · rintro ⟨htracked, -⟩
          rw [hcontent, hcurrent, List.length_append] at htracked
          omega
        · rintro ⟨-, hfails⟩
          rw [rotate_fails_iff.mpr hfails] at hdone
          cases hdone
      · obtain ⟨hcontent, hcurrent⟩ := sinkIt_thrown ⟨hrotates, rotate_fails_iff.mp hfails⟩
        refine iff_of_true ?_ ⟨hrotates, rotate_fails_iff.mp hfails⟩
        rw [Tracked, hcontent, hcurrent]
        exact ⟨rfl, Nat.zero_le _⟩
    · -- The sum has wrapped around.
      obtain ⟨hcontent, hcurrent⟩ := sinkIt_kept hrotates
      refine iff_of_false ?_ fun hthrows => hrotates hthrows.1
      rintro ⟨htracked, hwithin⟩
      rw [hcontent, List.length_append] at hwithin
      omega

end Calls

section Runs

variable {c : SinkConfig} {s₀ s : HtmlFormatSink} {tr : List (HtmlFormatSink × LogCall)}
  {fs : Files} {now : Nat} {r : Rotation}

/-- The states that the calls of a run have led to. -/
theorem tail_visited_snoc (tr : List (HtmlFormatSink × LogCall)) (s s' : HtmlFormatSink)
    (call : LogCall) :
    (visited (tr ++ [(s, call)]) s').tail = (visited tr s).tail ++ [s'] := by
  cases tr <;> simp [visited]

/-- From a sink that knows the size of its file, the sizes are right exactly as long as every
record fits or its call throws. -/
theorem run_tracked_iff (hsize : s₀.currentSize = s₀.content.length)
    (hrun : Run (system c s₀) tr s) :
    (∀ x ∈ (visited tr s).tail, x.Tracked c) ↔ ∀ p ∈ tr, p.1.Fits c p.2 ∨ p.1.Throws c p.2 := by
  have hinit : ∀ x, (system c s₀).init x → x.currentSize = x.content.length := by
    rintro x rfl
    exact hsize
  have hkeep : ∀ x call x', x.currentSize = x.content.length →
      (x.Fits c call ∨ x.Throws c call) → (system c s₀).step x call x' →
        x'.currentSize = x'.content.length := by
    rintro x call x' hx hcall rfl
    exact ((sinkIt_tracked_iff hx).mpr hcall).1
  induction hrun with
  | start => simp [visited]
  | @snoc tr s s' call hprior hstep ih =>
      have hlast := hprior.guarded (fun x => x.currentSize = x.content.length)
        (fun x call => x.Fits c call ∨ x.Throws c call) hinit hkeep
      obtain rfl : s.sinkIt c call = s' := hstep
      rw [tail_visited_snoc, List.forall_mem_append, List.forall_mem_singleton,
        List.forall_mem_append, List.forall_mem_singleton]
      exact (and_congr_left' ih).trans
        (and_congr_right fun htr => sinkIt_tracked_iff (hlast htr))

/-- A sink that has rotated when it was opened does not count its header. -/
theorem construct_cases (hopen : construct c fs now r = some s₀) :
    (c.rotateOnOpen = false ∧ s₀.currentSize = s₀.content.length) ∨
      (c.rotateOnOpen = true ∧ s₀.currentSize = 0 ∧ s₀.content = htmlHeader) := by
  have hheader := length_htmlHeader_pos
  simp only [construct, Option.ite_none_left_eq_some] at hopen
  obtain ⟨-, -, hopen⟩ := hopen
  generalize hs : (openFile fs (c.calcFilename now 0)).write htmlHeader = s at hopen
  have hpos : 0 < s.content.length := by
    rw [← hs, content_write, List.length_append]
    omega
  cases hrotate : c.rotateOnOpen with
  | false =>
      rw [if_neg (by simp [hrotate])] at hopen
      cases hopen
      exact .inl ⟨rfl, rfl⟩
  | true =>
      rw [if_pos ⟨hrotate, hpos⟩] at hopen
      have hcases := rotate_cases c { s with currentSize := s.content.length } r
      split at hopen
      · next s' hrotated =>
          rw [hrotated] at hcases
          cases hopen
          simp only [true_and, Bool.true_eq_false, false_and, or_false] at hcases
          exact .inr ⟨rfl, rfl, hcases⟩
      · cases hopen

/-- The first record is counted without the header that is in front of it. -/
theorem exists_not_tracked (hsize : s₀.currentSize = 0) (hcontent : s₀.content = htmlHeader)
    (hrun : Run (system c s₀) tr s)
    (hsmall : ∀ p ∈ tr, p.2.formatted.length + htmlHeader.length ≤ c.maxSize) (hne : tr ≠ []) :
    ∃ x ∈ (visited tr s).tail, ¬ x.Tracked c := by
  have hheader := length_htmlHeader_pos
  have hlt := c.maxSize_lt
  induction hrun with
  | start => exact absurd rfl hne
  | @snoc tr s s' call hprior hstep ih =>
      obtain rfl : s.sinkIt c call = s' := hstep
      rw [tail_visited_snoc]
      rw [List.forall_mem_append, List.forall_mem_singleton] at hsmall
      cases hprior with
      | start hinit =>
          obtain rfl : s = s₀ := hinit
          have hlength : call.formatted.length + htmlHeader.length ≤ c.maxSize := hsmall.2
          refine ⟨_, List.mem_append_right _ (List.mem_singleton_self _), ?_⟩
          have hnew : s.newSize call = call.formatted.length := by
            rw [newSize, hsize, Nat.zero_add, Nat.mod_eq_of_lt (by omega)]
          have hkeep : ¬ s.Rotates c call := by
            rintro ⟨hover, -⟩
            omega
          obtain ⟨hgrown, hcurrent⟩ := sinkIt_kept hkeep
          rintro ⟨htracked, -⟩
          rw [hcurrent, hgrown, hnew, hcontent, List.length_append] at htracked
          omega
      | snoc =>
          obtain ⟨x, hx, hnot⟩ := ih hsmall.1 (by simp)
          exact ⟨x, List.mem_append_left _ hx, hnot⟩

/-- After every call `_currentSize` is the size of the file and within the limit exactly when
there is no call, or the sink was not rotated when it was opened and every record fits or
its call throws. -/
theorem tracked_iff (hopen : construct c fs now r = some s₀) (hrun : Run (system c s₀) tr s)
    (hsmall : ∀ p ∈ tr, p.2.formatted.length + htmlHeader.length ≤ c.maxSize) :
    (∀ x ∈ (visited tr s).tail, x.Tracked c) ↔
      tr = [] ∨ c.rotateOnOpen = false ∧ ∀ p ∈ tr, p.1.Fits c p.2 ∨ p.1.Throws c p.2 := by
  rcases construct_cases hopen with ⟨hopened, hsize⟩ | ⟨hopened, hsize, hcontent⟩
  · rw [run_tracked_iff hsize hrun]
    refine ⟨fun hcalls => .inr ⟨hopened, hcalls⟩, ?_⟩
    rintro (rfl | ⟨-, hcalls⟩)
    · exact List.forall_mem_nil _
    · exact hcalls
  · rw [hopened]
    simp only [Bool.true_eq_false, false_and, or_false]
    constructor
    · intro htracked
      by_contra hne
      obtain ⟨x, hx, hnot⟩ := exists_not_tracked hsize hcontent hrun hsmall hne
      exact hnot (htracked x hx)
    · rintro rfl
      simp [visited]

/-- A sink of 400 bytes, by a clock that reads the seconds of a minute. -/
def smallConfig : SinkConfig where
  basename := Bytes.ofString "Server"
  ext := Bytes.ofString ".html"
  maxSize := 400
  maxFiles := 2
  rotateOnOpen := false
  timeStr now := Bytes.ofString "2024_01_05_17_36_0" ++ Util.toChars now
  maxSize_lt := by decide

/-- A record of 71 bytes. -/
def smallCall : LogCall := ⟨.off, List.replicate 60 46, .smooth 0⟩

def smallSink : HtmlFormatSink :=
  let s := (openFile (fun _ => none) (smallConfig.calcFilename 0 0)).write htmlHeader
  { s with currentSize := s.content.length }

theorem construct_smallSink :
    construct smallConfig (fun _ => none) 0 (.smooth 0) = some smallSink := rfl

theorem length_smallCall : smallCall.formatted.length = 71 := by
  decide +kernel

theorem formatted_of_smallCall {tr : List (HtmlFormatSink × LogCall)}
    (hcalls : ∀ p ∈ tr, p.2 = smallCall) :
    ∀ p ∈ tr, p.2.formatted.length + htmlHeader.length ≤ smallConfig.maxSize := by
  intro p hp
  rw [hcalls p hp, length_smallCall, length_htmlHeader]
  decide

theorem size_smallSink : smallSink.currentSize = 268 ∧ smallSink.content.length = 268 := by
  rw [smallSink, content_currentSize, content_write, content_openFile, Option.getD_none,
    List.nil_append]
  exact ⟨length_htmlHeader, length_htmlHeader⟩

theorem smallSink_not_rotates : ¬ smallSink.Rotates smallConfig smallCall := by
  rintro ⟨hover, -⟩
  rw [newSize, size_smallSink.1, length_smallCall] at hover
  exact absurd hover (by decide)

/-- The sink after its first record. -/
def secondSink : HtmlFormatSink := smallSink.sinkIt smallConfig smallCall

theorem size_secondSink : secondSink.currentSize = 339 ∧ secondSink.content.length = 339 := by
  obtain ⟨hcontent, hcurrent⟩ := sinkIt_kept smallSink_not_rotates
  obtain ⟨hsize, hlength⟩ := size_smallSink
  constructor
  · rw [secondSink, hcurrent, newSize, hsize, length_smallCall]
    decide
  · rw [secondSink, hcontent, List.length_append, hlength, length_smallCall]

/-- A second record of that length makes the sink rotate. -/
theorem secondSink_rotates {call : LogCall} (hrecord : call.formatted.length = 71) :
    secondSink.Rotates smallConfig call := by
  obtain ⟨hsize, hlength⟩ := size_secondSink
  rw [Rotates, newSize, hsize, hlength, hrecord]
  decide

theorem tracked_iff_smallCall :
    (∀ x ∈ (visited [(smallSink, smallCall)] (smallSink.sinkIt smallConfig smallCall)).tail,
        x.Tracked smallConfig) ↔
      [(smallSink, smallCall)] = [] ∨ smallConfig.rotateOnOpen = false ∧
        ∀ p ∈ [(smallSink, smallCall)], p.1.Fits smallConfig p.2 ∨ p.1.Throws smallConfig p.2 := by
  have hrun : Run (system smallConfig smallSink) [(smallSink, smallCall)]
      (smallSink.sinkIt smallConfig smallCall) := Run.snoc (.start rfl) rfl
  exact tracked_iff construct_smallSink hrun (formatted_of_smallCall (by simp))

/-- The second record makes the sink rotate, and the size is off by the header. -/
theorem header_not_counted :
    ¬ ∀ (c : SinkConfig) (fs : Files) (now : Nat) (r : Rotation) (s₀ s : HtmlFormatSink)
        (tr : List (HtmlFormatSink × LogCall)), construct c fs now r = some s₀ →
        Run (system c s₀) tr s →
        (∀ p ∈ tr, p.2.formatted.length + htmlHeader.length ≤ c.maxSize) →
          ∀ x ∈ (visited tr s).tail, x.Tracked c := by
  intro htracked
  have hrun : Run (system smallConfig smallSink) [(smallSink, smallCall), (secondSink, smallCall)]
      (secondSink.sinkIt smallConfig smallCall) :=
    Run.snoc (Run.snoc (a := smallCall) (.start rfl) rfl) rfl
  have hlast := htracked _ _ _ _ _ _ _ construct_smallSink hrun
    (formatted_of_smallCall (by simp))
  obtain ⟨hsize, -⟩ := hlast (secondSink.sinkIt smallConfig smallCall) (by simp [visited])
  have hrotates := secondSink_rotates length_smallCall
  have hdone := rotate_returns hrotates (not_throws_of_renamed fun _ => rfl)
  obtain ⟨hcontent, hcurrent⟩ := sinkIt_rotated hrotates hdone
  rw [hcontent, hcurrent, List.length_append, length_htmlHeader] at hsize
  omega

end Runs

end HtmlFormatSink

end GameDemoLearn.Log
