import GameDemoLearn.Coroutine.AwaitBoard
import GameDemoLearn.Coroutine.FinalContinuation
import GameDemoLearn.Coroutine.NestedCalls

/-!
The rules for the use of tasks, each about one step and what is there before it. Under them
every step of a program is a move on the board of the waits (`Sound.moves`), whichever
coroutine takes it.
-/

namespace GameDemoLearn.Coroutine

variable {V E : Type}

/-- A body as it is written: only `co_await` calls `await_resume`. -/
def Body.Written : Body V E → Prop
  | .coReturn _ => True
  | .throw _ => True
  | .call child rest => child.Written ∧ ∀ n, (rest n).Written
  | .coAwait _ _ rest => ∀ result, (rest result).Written
  | .awaitResume _ _ => False
  | .suspend rest => rest.Written

/-- What is left of a body, from the middle of a `co_await` or not. -/
def Body.Left : Body V E → Prop
  | .awaitResume _ rest => ∀ result, (rest result).Written
  | body => body.Written

namespace Frame

def status (frame : Frame V E) : Status :=
  match frame.phase with
  | .suspended (.awaitResume task _) => .waits task
  | .suspended _ => .idle
  | .running (.awaitResume task _) => .takes task
  | .running _ => .runs
  | .final => .done

/-- Its body was written, and where it is at its end there is a result. -/
def Proper (frame : Frame V E) : Prop :=
  match frame.phase with
  | .suspended body => body.Left
  | .running body => body.Left
  | .final => frame.result ≠ .monostate

end Frame

section Frames

variable {body : Body V E} (continueCoro : Option Handle) (result : Result V E)

theorem Body.Written.left (hbody : body.Written) : body.Left := by
  cases body with
  | awaitResume => exact hbody.elim
  | _ => exact hbody

theorem Body.Written.suspended (hbody : body.Written) :
    Frame.status ⟨.suspended body, continueCoro, result⟩ = .idle := by
  cases body with
  | awaitResume => exact hbody.elim
  | _ => rfl

theorem Body.Written.running (hbody : body.Written) :
    Frame.status ⟨.running body, continueCoro, result⟩ = .runs := by
  cases body with
  | awaitResume => exact hbody.elim
  | _ => rfl

namespace Frame

variable {frame : Frame V E} {task : Nat}

theorem status_eq_waits :
    frame.status = .waits task ↔ ∃ rest, frame.phase = .suspended (.awaitResume task rest) := by
  obtain ⟨(body | body | _), continueCoro, result⟩ := frame
  all_goals try cases body
  all_goals simp [status]

theorem status_eq_takes :
    frame.status = .takes task ↔ ∃ rest, frame.phase = .running (.awaitResume task rest) := by
  obtain ⟨(body | body | _), continueCoro, result⟩ := frame
  all_goals try cases body
  all_goals simp [status]

theorem status_eq_done : frame.status = .done ↔ frame.phase = .final := by
  obtain ⟨(body | body | _), continueCoro, result⟩ := frame
  all_goals try cases body
  all_goals simp [status]

/-- A coroutine that was resumed and neither waits nor is idle is running. -/
theorem exists_running (hruns : frame.status = .runs ∨ ∃ task, frame.status = .takes task) :
    ∃ body, frame.phase = .running body := by
  obtain ⟨(body | body | _), continueCoro, result⟩ := frame
  · cases body <;> simp [status] at hruns
  · exact ⟨body, rfl⟩
  · simp [status] at hruns

theorem Proper.written_of_idle (hproper : frame.Proper) (hidle : frame.status = .idle) :
    ∃ body, frame.phase = .suspended body ∧ body.Written := by
  obtain ⟨(body | body | _), continueCoro, result⟩ := frame
  · refine ⟨body, rfl, ?_⟩
    cases body with
    | awaitResume => cases hidle
    | _ => exact hproper
  · cases body <;> cases hidle
  · cases hidle

end Frame

end Frames

namespace World

def status (w : World V E) (n : Nat) : Status := (w.frames n).elim .absent Frame.status

def board (w : World V E) : Board := ⟨w.status, w.continuation⟩

def Proper (w : World V E) : Prop := ∀ n frame, w.frames n = some frame → frame.Proper

/-- A task that may be awaited: it is done, or nobody else waits for it and it is not
running. An empty one may be, where it is an lvalue. -/
def Awaitable (w : World V E) (moved : Bool) : Option Nat → Prop
  | none => moved = false
  | some task => w.status task = .done ∨ (w.status task = .idle ∧ w.board.Free task)

/-- The rules for the use of tasks. -/
def Permits (w : World V E) : Action V E → Prop
  | .call body => body.Written
  | .setContinuation n handle => (∃ k, handle = some (.foreign k)) ∧ w.board.Free n
  | .resume n => w.status n = .idle ∧ w.continuation n ≠ none
  | .run n => ∀ frame moved task rest, w.frames n = some frame →
      frame.phase = .running (.coAwait moved task rest) → w.Awaitable moved task
  | .destroy n => (w.status n = .idle ∨ w.status n = .done) ∧ w.board.Free n ∧
      ∀ m, w.status m ≠ .takes n

/-- The coroutine runs, or it may be resumed. -/
def Ready (w : World V E) (n : Nat) : Prop :=
  (∃ w', w.step (.run n) = some w') ∨ w.Permits (.resume n)

/-- What holds in a program that keeps to the rules. -/
structure Sound (w : World V E) : Prop where
  alive : w.crashed = false
  fresh : w.Fresh
  proper : w.Proper
  linked : w.board.Linked

section Board

variable {w : World V E} {n m task : Nat} {frame frame' : Frame V E}

theorem status_of_frame (hframe : w.frames n = some frame) : w.status n = frame.status := by
  rw [status, hframe, Option.elim_some]

theorem status_eq_absent : w.status n = .absent ↔ w.frames n = none := by
  rw [status]
  rcases w.frames n with _ | ⟨phase, continueCoro, result⟩
  · exact iff_of_true rfl rfl
  · refine iff_of_false ?_ nofun
    rcases phase with (_ | _ | _ | _ | _ | _) | (_ | _ | _ | _ | _ | _) | _
    all_goals nofun

theorem board_setFrame (w : World V E) (n : Nat) (frame : Frame V E) :
    (w.setFrame n frame).board = w.board.put n frame.status frame.continueCoro := by
  refine Board.ext (funext fun m => ?_) (funext fun m => ?_)
  · rcases eq_or_ne m n with rfl | hne
    · rw [Board.status_put_self]
      exact status_of_frame (frames_setFrame_self ..)
    · rw [Board.status_put_of_ne hne]
      change status _ m = status _ m
      rw [status, status, frames_setFrame_of_ne w frame hne]
  · rcases eq_or_ne m n with rfl | hne
    · rw [Board.continuation_put_self]
      exact continuation_of_frame (frames_setFrame_self ..)
    · rw [Board.continuation_put_of_ne hne]
      change continuation _ m = continuation _ m
      rw [continuation, continuation, frames_setFrame_of_ne w frame hne]

theorem board_call (w : World V E) {body : Body V E} (hbody : body.Written) :
    (w.call body).board = w.board.put w.next .idle none := by
  rw [← hbody.suspended none .monostate]
  exact board_setFrame w w.next (Frame.create body)

theorem board_destroy (w : World V E) (n : Nat) :
    (w.destroy n).board = w.board.put n .absent none := by
  refine Board.ext (funext fun m => ?_) (funext fun m => ?_)
  · rcases eq_or_ne m n with rfl | hne
    · rw [Board.status_put_self]
      exact status_eq_absent.mpr (frames_destroy_self w m)
    · rw [Board.status_put_of_ne hne]
      change status _ m = status _ m
      rw [status, status, frames_destroy_of_ne w hne]
  · rcases eq_or_ne m n with rfl | hne
    · rw [Board.continuation_put_self]
      exact (continuation_destroy w m m).trans (if_pos rfl)
    · rw [Board.continuation_put_of_ne hne]
      exact (continuation_destroy w n m).trans (if_neg hne)

theorem Proper.setFrame (hproper : w.Proper) (hframe : frame.Proper) :
    (w.setFrame n frame).Proper := by
  intro m frame' hm
  rcases eq_or_ne m n with rfl | hne
  · rw [frames_setFrame_self] at hm
    obtain rfl := Option.some.inj hm
    exact hframe
  · rw [frames_setFrame_of_ne w frame hne] at hm
    exact hproper m frame' hm

theorem Proper.destroy (hproper : w.Proper) (n : Nat) : (w.destroy n).Proper := by
  intro m frame hframe
  rcases eq_or_ne m n with rfl | hne
  · rw [frames_destroy_self] at hframe
    cases hframe
  · rw [frames_destroy_of_ne w hne] at hframe
    exact hproper m frame hframe

theorem exists_frame {s : Status} (hn : w.status n = s) (hthere : s ≠ .absent) :
    ∃ frame, w.frames n = some frame ∧ frame.status = s := by
  cases hframe : w.frames n with
  | none => exact absurd (hn.symm.trans (status_eq_absent.mpr hframe)) hthere
  | some frame => exact ⟨frame, rfl, (status_of_frame hframe).symm.trans hn⟩

/-- A coroutine that waits is suspended before the `await_resume` of its task. -/
theorem exists_of_waits (hn : w.status n = .waits task) : ∃ frame rest,
    w.frames n = some frame ∧ frame.phase = .suspended (.awaitResume task rest) := by
  obtain ⟨frame, hframe, hstatus⟩ := exists_frame hn (by simp)
  obtain ⟨rest, hphase⟩ := Frame.status_eq_waits.mp hstatus
  exact ⟨frame, rest, hframe, hphase⟩

theorem exists_of_idle (hproper : w.Proper) (hn : w.status n = .idle) : ∃ frame body,
    w.frames n = some frame ∧ frame.phase = .suspended body ∧ body.Written := by
  obtain ⟨frame, hframe, hstatus⟩ := exists_frame hn (by simp)
  obtain ⟨body, hphase, hbody⟩ := (hproper n frame hframe).written_of_idle hstatus
  exact ⟨frame, body, hframe, hphase, hbody⟩

theorem exists_of_done (hn : w.status n = .done) :
    ∃ frame, w.frames n = some frame ∧ frame.phase = .final := by
  obtain ⟨frame, hframe, hstatus⟩ := exists_frame hn (by simp)
  exact ⟨frame, hframe, Frame.status_eq_done.mp hstatus⟩

end Board

/-- A step to `w'` is a move, and the program stays well formed; a coroutine that comes to
its end leaves its result and passes control to its continuation. -/
structure Moves (w : World V E) (ended : Option (Nat × Except (Exn E) V)) (w' : World V E) :
    Prop where
  move : Board.Move w.board (ended.map Prod.fst) w'.board
  proper : w'.Proper
  alive : w'.crashed = false
  left : ∀ n result, ended = some (n, result) →
    w.event n = some (.finishes n result (w.continuation n)) ∧
      ∃ frame, w'.frames n = some frame ∧ frame.result = .ofExcept result

section Step

variable {w w' : World V E} {n m task : Nat} {frame frame' : Frame V E}

/-- A move in which no coroutine comes to its end. -/
theorem Moves.of_move (hmove : Board.Move w.board none w'.board) (hproper : w'.Proper)
    (halive : w'.crashed = false) : Moves w none w' where
  move := hmove
  proper := hproper
  alive := halive
  left := by
    intro n result hended
    cases hended

theorem Moves.quiet {P : Nat → Prop} (hmoves : Moves w none w') :
    ∃ ended, Moves w ended w' ∧ ∀ n result, ended = some (n, result) → P n := by
  refine ⟨none, hmoves, ?_⟩
  intro n result hended
  cases hended

namespace Sound

/-- Where the rules are kept, no coroutine runs without a continuation. -/
theorem continueCoro_ne_none (hsound : w.Sound) (hframe : w.frames n = some frame)
    (hstarted : frame.status.Started) : frame.continueCoro ≠ none := by
  rw [← continuation_of_frame hframe]
  apply hsound.linked.guided n
  rw [← status_of_frame hframe] at hstarted
  exact hstarted

theorem goOn (hsound : w.Sound) (hframe : w.frames n = some frame)
    (hactive : frame.status.Active) (hcontinuation : frame.continueCoro ≠ none)
    (hsame : frame'.continueCoro = frame.continueCoro) (hproper : frame'.Proper)
    (hstill : frame'.status.Active)
    (hready : ∀ task, frame'.status = .takes task → w.status task = .done) :
    Moves w none (w.setFrame n frame') := by
  rw [← status_of_frame hframe] at hactive
  rw [← continuation_of_frame hframe] at hcontinuation hsame
  refine Moves.of_move ?_ (hsound.proper.setFrame hproper) hsound.alive
  rw [board_setFrame, hsame]
  exact Board.Move.goOn (b := w.board) hactive hcontinuation hstill hready

/-- It goes on running, with the rest of its body. -/
theorem goOnRunning (hsound : w.Sound) (hframe : w.frames n = some frame)
    (hactive : frame.status.Active) (hcontinuation : frame.continueCoro ≠ none)
    {rest : Body V E} (hrest : rest.Written) : Moves w none (w.goOn n frame rest) := by
  have hstatus := hrest.running frame.continueCoro frame.result
  refine hsound.goOn hframe hactive hcontinuation rfl hrest.left ?_ ?_
  · rw [hstatus]
    trivial
  · intro task htakes
    cases hstatus.symm.trans htakes

/-- A continuation among the tasks is suspended before the `await_resume`. -/
theorem exists_waiting (hsound : w.Sound) (hn : w.status n = .runs) {parent : Nat}
    (hcontinuation : w.continuation n = some (.task parent)) :
    parent ≠ n ∧ ∃ rest continueCoro stored,
      w.frames parent = some ⟨.suspended (.awaitResume n rest), continueCoro, stored⟩ := by
  have hopen : w.status n ≠ .done := by simp [hn]
  have hwaits : w.status parent = .waits n :=
    (hsound.linked.continued parent n hcontinuation).resolve_left hopen
  obtain ⟨⟨phase, continueCoro, stored⟩, rest, hparent, hphase⟩ := exists_of_waits hwaits
  subst hphase
  exact ⟨Board.ne_of_status (b := w.board) hwaits hn (by simp), rest, continueCoro, stored, hparent⟩

/-- The end of a body: control goes to the coroutine that waits, or out of the tasks. -/
theorem finish (hsound : w.Sound) (hframe : w.frames n = some frame)
    {result : Except (Exn E) V} (hphase : frame.phase = .running (.ofResult result)) :
    Moves w (some (n, result)) (w.finish n frame (.ofExcept result)) := by
  have hruns : frame.status = .runs := by
    rw [Frame.status, hphase]
    cases result <;> rfl
  have hn : w.board.status n = .runs := (status_of_frame hframe).trans hruns
  have hcontinuation : w.board.continuation n = frame.continueCoro :=
    continuation_of_frame hframe
  have hevent : w.event n = some (.finishes n result (w.continuation n)) := by
    obtain ⟨phase, continueCoro, stored⟩ := frame
    subst hphase
    rw [event_ofResult hframe, continuation_of_frame hframe]
  let final : Frame V E := ⟨.final, frame.continueCoro, .ofExcept result⟩
  let ended := w.setFrame n final
  have hended : ended.board = w.board.put n .done (w.board.continuation n) := by
    rw [hcontinuation]
    exact board_setFrame w n final
  have hself : ended.frames n = some final := frames_setFrame_self ..
  have hproper : ended.Proper := by
    apply hsound.proper.setFrame
    cases result <;> nofun
  change Moves w _ (ended.transfer frame.continueCoro)
  -- the rules leave no null handle here
  rcases hhandle : frame.continueCoro with _ | parent | k
  · have hstarted : frame.status.Started := by
      rw [hruns]
      trivial
    exact absurd hhandle (hsound.continueCoro_ne_none hframe hstarted)
  · rw [hhandle] at hcontinuation
    obtain ⟨hne, rest, continueCoro, stored, hparent⟩ := hsound.exists_waiting hn hcontinuation
    have hparent' : ended.frames parent
        = some ⟨.suspended (.awaitResume n rest), continueCoro, stored⟩ :=
      (frames_setFrame_of_ne w _ hne).trans hparent
    change Moves w _ (ended.resume (.task parent))
    rw [resume_of_suspended hparent']
    constructor
    · rw [board_setFrame, hended]
      have hmove := Board.Move.handOver hn hcontinuation
      have hparentContinuation : w.board.continuation parent = continueCoro :=
        continuation_of_frame hparent
      rw [hparentContinuation] at hmove
      exact hmove
    · have hleft : ∀ result, (rest result).Written := hsound.proper parent _ hparent
      exact hproper.setFrame hleft
    · exact hsound.alive
    · rintro _ _ ⟨⟩
      exact ⟨hevent, final, (frames_setFrame_of_ne ended _ hne.symm).trans hself, rfl⟩
  · rw [hhandle] at hcontinuation
    constructor
    · change Board.Move w.board _ ended.board
      rw [hended]
      exact Board.Move.leave hn hcontinuation
    · exact hproper
    · exact hsound.alive
    · rintro _ _ ⟨⟩
      exact ⟨hevent, final, hself, rfl⟩

/-- `co_await` of a task that is done goes on, and of another one starts it. -/
theorem coAwait (hsound : w.Sound) (hframe : w.frames n = some frame)
    (hruns : frame.status = .runs) {moved : Bool} (hawaitable : w.Awaitable moved (some task))
    {rest : Except (Exn E) V → Body V E} (hrest : ∀ result, (rest result).Written) :
    Moves w none (w.coAwait n frame task rest) := by
  rcases hawaitable with hdone | ⟨hidle, hfree⟩
  · obtain ⟨child, hchild, hphase⟩ := exists_of_done hdone
    have hready : child.done = true := by rw [Frame.done, hphase]
    have hgoes : w.coAwait n frame task rest = w.goOn n frame (.awaitResume task rest) := by
      simp only [World.coAwait, hchild, hready, if_true]
    have hactive : frame.status.Active := by
      rw [hruns]
      trivial
    have hstarted : frame.status.Started := by
      rw [hruns]
      trivial
    rw [hgoes]
    refine hsound.goOn hframe hactive (hsound.continueCoro_ne_none hframe hstarted) rfl hrest
      trivial ?_
    intro other htakes
    rw [← Status.takes.inj htakes]
    exact hdone
  · obtain ⟨⟨phase, continueCoro, stored⟩, body, hchild, hphase, hbody⟩ :=
      exists_of_idle hsound.proper hidle
    subst hphase
    have hn : w.board.status n = .runs := (status_of_frame hframe).trans hruns
    have hne : task ≠ n := Board.ne_of_status hidle hn (by simp)
    rw [coAwait_of_suspended frame hne hchild]
    apply Moves.of_move
    · rw [board_setFrame, board_setFrame, hbody.running]
      have hmove := Board.Move.coAwait hn hidle hfree
      have hcontinuation : w.board.continuation n = frame.continueCoro :=
        continuation_of_frame hframe
      rw [hcontinuation] at hmove
      exact hmove
    · have hwaiting : Frame.Proper
          ⟨.suspended (.awaitResume task rest), frame.continueCoro, frame.result⟩ := hrest
      exact (hsound.proper.setFrame hwaiting).setFrame hbody.left
    · exact hsound.alive

theorem call (hsound : w.Sound) {body : Body V E} (hbody : body.Written) :
    Moves w none (w.call body) := by
  refine Moves.of_move ?_ (hsound.proper.setFrame hbody.left) hsound.alive
  rw [board_call w hbody]
  exact Board.Move.create (status_eq_absent.mpr (hsound.fresh w.next (Nat.le_refl _)))

theorem runCall (hsound : w.Sound) (hframe : w.frames n = some frame) {child : Body V E}
    {rest : Nat → Body V E} (hphase : frame.phase = .running (.call child rest))
    (hchild : child.Written) (hrest : (rest w.next).Written) :
    Moves w none (w.run n frame (.call child rest)) := by
  have hn : w.board.status n = .runs :=
    (status_of_frame hframe).trans (by rw [Frame.status, hphase])
  have hne : n ≠ w.next := Nat.ne_of_lt (hsound.fresh.lt_next hframe)
  have hstatus : (w.call child).board.status n = .runs := by
    rw [board_call w hchild, Board.status_put_of_ne hne, hn]
  have hkept : (w.call child).board.continuation n = frame.continueCoro := by
    rw [board_call w hchild, Board.continuation_put_of_ne hne]
    exact continuation_of_frame hframe
  have hsame : (w.run n frame (.call child rest)).board = (w.call child).board := by
    change ((w.call child).setFrame n _).board = _
    rw [board_setFrame, hrest.running, ← hstatus, ← hkept, Board.put_same]
  have hcall := hsound.call hchild
  refine Moves.of_move ?_ (hcall.proper.setFrame hrest.left) hsound.alive
  rw [hsame]
  exact hcall.move

/-- A coroutine that runs makes a move, whatever it does next. -/
theorem run (hsound : w.Sound) (hframe : w.frames n = some frame) {body : Body V E}
    (hphase : frame.phase = .running body) (hpermits : w.Permits (.run n)) :
    ∃ ended, Moves w ended (w.run n frame body) ∧
      ∀ m result, ended = some (m, result) → m = n := by
  have hleft : body.Left := by
    have hproper := hsound.proper n frame hframe
    rw [Frame.Proper, hphase] at hproper
    exact hproper
  have hactive : frame.status.Active := by
    rw [Frame.status, hphase]
    cases body <;> trivial
  have hcontinuation : frame.continueCoro ≠ none := by
    apply hsound.continueCoro_ne_none hframe
    rw [Frame.status, hphase]
    cases body <;> trivial
  cases body with
  | coReturn value =>
      have hend : frame.phase = .running (.ofResult (.ok value)) := hphase
      refine ⟨_, hsound.finish hframe hend, ?_⟩
      rintro _ _ ⟨⟩
      rfl
  | throw error =>
      have hend : frame.phase = .running (.ofResult (.error error)) := hphase
      refine ⟨_, hsound.finish hframe hend, ?_⟩
      rintro _ _ ⟨⟩
      rfl
  | call child rest =>
      obtain ⟨hchild, hrest⟩ := hleft
      exact (hsound.runCall hframe hphase hchild (hrest w.next)).quiet
  | coAwait moved task rest =>
      have hawaitable := hpermits frame moved task rest hframe hphase
      cases task with
      | none =>
          obtain rfl : moved = false := hawaitable
          exact (hsound.goOnRunning hframe hactive hcontinuation (hleft _)).quiet
      | some task =>
          rw [run_coAwait]
          have hruns : frame.status = .runs := by rw [Frame.status, hphase]
          exact (hsound.coAwait hframe hruns hawaitable hleft).quiet
  | awaitResume task rest =>
      have htakes : w.board.status n = .takes task :=
        (status_of_frame hframe).trans (Frame.status_eq_takes.mpr ⟨rest, hphase⟩)
      obtain ⟨child, hchild, -⟩ := exists_of_done (hsound.linked.taken n task htakes)
      simp only [World.run, hchild]
      exact (hsound.goOnRunning hframe hactive hcontinuation (hleft _)).quiet
  | suspend rest =>
      have hrest : rest.Written := hleft
      have hstatus := hrest.suspended frame.continueCoro frame.result
      apply Moves.quiet
      refine hsound.goOn hframe hactive hcontinuation rfl hrest.left ?_ ?_
      · rw [hstatus]
        trivial
      · intro task htakes
        cases hstatus.symm.trans htakes

/-- A program that keeps to the rules stays on the board. -/
theorem moves (hsound : w.Sound) {a : Action V E} (hpermits : w.Permits a)
    (hstep : w.step a = some w') : ∃ ended, Moves w ended w' ∧
      ∀ n result, ended = some (n, result) → a = .run n := by
  unfold World.step at hstep
  rw [hsound.alive, if_neg Bool.false_ne_true] at hstep
  cases a with
  | call body =>
      cases hstep
      exact (hsound.call hpermits).quiet
  | setContinuation n handle =>
      obtain ⟨⟨k, rfl⟩, hfree⟩ := hpermits
      obtain ⟨frame, hframe, rfl⟩ := Option.map_eq_some_iff.mp hstep
      have hthere : w.board.status n ≠ .absent := by
        intro habsent
        rw [status_eq_absent.mp habsent] at hframe
        cases hframe
      have hn : w.board.status n = frame.status := status_of_frame hframe
      have hmove := Board.Move.setContinuation (k := k) hthere hfree
      have hboard : (w.setContinuation n frame (some (.foreign k))).board
          = w.board.put n (w.board.status n) (some (.foreign k)) := by
        rw [hn]
        exact board_setFrame w n _
      apply Moves.quiet
      refine Moves.of_move ?_ (hsound.proper.setFrame (hsound.proper n frame hframe)) hsound.alive
      rw [hboard]
      exact hmove
  | resume n =>
      obtain ⟨hidle, hcontinuation⟩ := hpermits
      obtain ⟨⟨phase, continueCoro, result⟩, body, hframe, hphase, hbody⟩ :=
        exists_of_idle hsound.proper hidle
      subst hphase
      simp only [hframe, Option.some.injEq] at hstep
      obtain rfl := hstep
      rw [continuation_of_frame hframe] at hcontinuation
      rw [resume_of_suspended hframe]
      have hactive : (Frame.status ⟨.suspended body, continueCoro, result⟩).Active := by
        rw [hbody.suspended]
        trivial
      exact (hsound.goOnRunning hframe hactive hcontinuation hbody).quiet
  | run n =>
      obtain ⟨frame, body, hframe, hphase, rfl⟩ := stepRun_eq_some.mp hstep
      obtain ⟨ended, hmoves, hself⟩ := hsound.run hframe hphase hpermits
      exact ⟨ended, hmoves, fun m result hended => by rw [hself m result hended]⟩
  | destroy n =>
      obtain ⟨hleft, hfree, htaken⟩ := hpermits
      have hmoves : Moves w none (w.destroy n) := by
        refine Moves.of_move ?_ (hsound.proper.destroy n) hsound.alive
        rw [board_destroy]
        exact Board.Move.destroy hleft hfree htaken
      dsimp only at hstep
      split at hstep
      · cases hstep
        exact hmoves.quiet
      · cases hstep
        exact hmoves.quiet
      · cases hstep

end Sound

end Step

end World

end GameDemoLearn.Coroutine
