import GameDemoLearn.Lib.Transition
import GameDemoLearn.Net.Buffer
import GameDemoLearn.Util.ProducerConsumerQueue

/-!
The sending side of a session (`Session.cpp`): any number of threads call
`SendMsg` and `CloseSession` while `WriteLoop` runs on the net thread. The timer
never expires by itself, its expiry is the end of time, and it wakes `WriteLoop`
only through `cancel_one`. The socket stays open as long as the session exists,
so the loop condition `_socket.is_open()` holds throughout.
-/

namespace GameDemoLearn.Net

open Transition

/-- Where `WriteLoop` stands. -/
inductive WriterPhase
  | loopHead
  | beforeWait
  | waiting (cancelled : Bool)
  | checkClosed (packet : MessageBuffer)
  | writing (packet : MessageBuffer)
  | returned
  deriving DecidableEq

/-- The state shared by the callers and the loop. `sending t` holds while thread
`t` is in `SendMsg` between its `Push` and its `cancel_one`. -/
structure WriteSide (τ : Type) where
  writeBufferQueue : ProducerConsumerQueue MessageBuffer
  closed : Bool
  sending : τ → Bool
  writer : WriterPhase
  socket : Bytes

/-- The steps of `WriteLoop`. -/
inductive LoopAction
  | pop
  | startWait
  | wake
  | checkClosed
  | asyncWrite (failedAfter : Option Nat)

inductive WriteAction (τ : Type)
  | sendMsg (t : τ) (message : MessageBuffer)
  | cancelOne (t : τ)
  | closeSession
  | loop (a : LoopAction)

variable {τ : Type}

/-- `_timer.cancel_one()`. -/
def WriterPhase.cancelOne : WriterPhase → WriterPhase
  | .waiting _ => .waiting true
  | phase => phase

def loopStep (s : WriteSide τ) : LoopAction → Option (WriteSide τ)
  | .pop =>
      match s.writer with
      | .loopHead =>
          match s.writeBufferQueue.pop with
          | (some packet, queue) =>
              some { s with writeBufferQueue := queue, writer := .checkClosed packet }
          | (none, _) => some { s with writer := .beforeWait }
      | _ => none
  | .startWait =>
      match s.writer with
      | .beforeWait => some { s with writer := .waiting false }
      | _ => none
  | .wake =>
      match s.writer with
      | .waiting true =>
          -- `packet` is still the empty buffer of this turn
          some { s with writer := .checkClosed (.create MessageBuffer.INITIAL_BUFFER_SIZE) }
      | _ => none
  | .checkClosed =>
      match s.writer with
      | .checkClosed packet =>
          some { s with writer := if s.closed then .returned else .writing packet }
      | _ => none
  | .asyncWrite failedAfter =>
      match s.writer with
      | .writing packet =>
          match failedAfter with
          | none => some { s with writer := .loopHead, socket := s.socket ++ packet.readable }
          | some length =>
              some { s with
                writer := .returned
                closed := true
                socket := s.socket ++ packet.readable.take length }
      | _ => none

/-- What each step of `WriteLoop` does, by where it stands. -/
inductive LoopStep (s : WriteSide τ) : LoopAction → WriteSide τ → Prop
  | popped {packet : MessageBuffer} {queue : ProducerConsumerQueue MessageBuffer}
      (hwriter : s.writer = .loopHead) (hpop : s.writeBufferQueue.pop = (some packet, queue)) :
      LoopStep s .pop { s with writeBufferQueue := queue, writer := .checkClosed packet }
  | popFailed (hwriter : s.writer = .loopHead) (hpop : s.writeBufferQueue.pop.1 = none) :
      LoopStep s .pop { s with writer := .beforeWait }
  | waits (hwriter : s.writer = .beforeWait) :
      LoopStep s .startWait { s with writer := .waiting false }
  | woken (hwriter : s.writer = .waiting true) :
      LoopStep s .wake
        { s with writer := .checkClosed (.create MessageBuffer.INITIAL_BUFFER_SIZE) }
  | returns {packet : MessageBuffer} (hwriter : s.writer = .checkClosed packet)
      (hclosed : s.closed = true) : LoopStep s .checkClosed { s with writer := .returned }
  | writes {packet : MessageBuffer} (hwriter : s.writer = .checkClosed packet)
      (hclosed : s.closed = false) : LoopStep s .checkClosed { s with writer := .writing packet }
  | wrote {packet : MessageBuffer} (hwriter : s.writer = .writing packet) :
      LoopStep s (.asyncWrite none)
        { s with writer := .loopHead, socket := s.socket ++ packet.readable }
  | failed {packet : MessageBuffer} {length : Nat} (hwriter : s.writer = .writing packet) :
      LoopStep s (.asyncWrite (some length))
        { s with
          writer := .returned
          closed := true
          socket := s.socket ++ packet.readable.take length }

theorem loopStep_cases {s s' : WriteSide τ} {a : LoopAction} (hstep : loopStep s a = some s') :
    LoopStep s a s' := by
  cases a with
  | pop =>
      simp only [loopStep] at hstep
      split at hstep
      · next hwriter =>
          split at hstep
          · next packet queue hpop =>
              cases hstep
              exact .popped hwriter hpop
          · next hpop =>
              cases hstep
              exact .popFailed hwriter (congrArg Prod.fst hpop)
      · cases hstep
  | startWait =>
      simp only [loopStep] at hstep
      split at hstep
      · next hwriter =>
          cases hstep
          exact .waits hwriter
      · cases hstep
  | wake =>
      simp only [loopStep] at hstep
      split at hstep
      · next hwriter =>
          cases hstep
          exact .woken hwriter
      · cases hstep
  | checkClosed =>
      simp only [loopStep] at hstep
      split at hstep
      · next packet hwriter =>
          cases hstep
          split
          · next hclosed => exact .returns hwriter hclosed
          · next hclosed => exact .writes hwriter (Bool.not_eq_true _ ▸ hclosed)
      · cases hstep
  | asyncWrite failedAfter =>
      simp only [loopStep] at hstep
      split at hstep
      · next packet hwriter =>
          cases failedAfter with
          | none =>
              cases hstep
              exact .wrote hwriter
          | some length =>
              cases hstep
              exact .failed hwriter
      · cases hstep

/-- One atomic step of the callers or of `WriteLoop`. -/
def writeStep [DecidableEq τ] (s : WriteSide τ) : WriteAction τ → Option (WriteSide τ)
  | .sendMsg t message =>
      if s.sending t then
        none
      else if message.readableBytes = 0 then
        some s
      else
        some { s with
          writeBufferQueue := s.writeBufferQueue.push message
          sending := Function.update s.sending t true }
  | .cancelOne t =>
      if s.sending t then
        some { s with
          writer := s.writer.cancelOne
          sending := Function.update s.sending t false }
      else
        none
  | .closeSession => some { s with closed := true }
  | .loop a => loopStep s a

/-- A session as `StartSession` leaves it. -/
def WriteInit (s : WriteSide τ) : Prop :=
  s.writeBufferQueue = .create ∧ s.closed = false ∧ (∀ t, s.sending t = false) ∧
    s.writer = .loopHead ∧ s.socket = []

def writeSystem (τ : Type) [DecidableEq τ] : System (WriteSide τ) (WriteAction τ) :=
  System.ofStep WriteInit writeStep

/-- `WriteLoop` waits, and no `cancel_one` has reached or is about to reach its
wait. -/
def WriteSide.Asleep (s : WriteSide τ) : Prop :=
  s.writer = .waiting false ∧ ∀ t, s.sending t = false

/-- Nothing is left for `WriteLoop` to do. -/
def WriteSide.Idle (s : WriteSide τ) : Prop :=
  s.writeBufferQueue.queue = [] ∧ s.closed = false

/-- No lost wake-up. -/
def WriteSide.Wakeful (s : WriteSide τ) : Prop :=
  s.Asleep → s.Idle

/-- The steps that lose no wake-up: a wait starts with nothing to do or with a
`cancel_one` still to come, and a session is not closed while its `WriteLoop`
sleeps. -/
def KeepsWakeful (s : WriteSide τ) : WriteAction τ → Prop
  | .loop .startWait => s.Idle ∨ ∃ t, s.sending t = true
  | .closeSession => ¬ s.Asleep
  | _ => True

theorem WriteSide.wakeful_of_not_waiting {s : WriteSide τ} (hwriter : s.writer ≠ .waiting false) :
    s.Wakeful :=
  fun hasleep => absurd hasleep.1 hwriter

theorem WriteSide.wakeful_of_sending {s : WriteSide τ} {t : τ} (hsending : s.sending t = true) :
    s.Wakeful := by
  intro hasleep
  rw [hasleep.2 t] at hsending
  exact Bool.noConfusion hsending

theorem WriterPhase.cancelOne_ne_waiting (phase : WriterPhase) :
    phase.cancelOne ≠ .waiting false := by
  cases phase <;> simp [WriterPhase.cancelOne]

theorem WriteSide.Wakeful.loopStep {s s' : WriteSide τ} {a : LoopAction}
    (hstart : a = .startWait → s.Idle ∨ ∃ t, s.sending t = true)
    (hstep : loopStep s a = some s') : s'.Wakeful := by
  cases loopStep_cases hstep with
  | waits =>
      rcases hstart rfl with hidle | ⟨t, hsending⟩
      · exact fun _ => hidle
      · exact wakeful_of_sending hsending
  | _ => exact wakeful_of_not_waiting nofun

variable [DecidableEq τ]

/-- The steps named above keep the sleeping `WriteLoop` idle. -/
theorem WriteSide.Wakeful.step {s s' : WriteSide τ} {a : WriteAction τ} (hwakeful : s.Wakeful)
    (hkeeps : KeepsWakeful s a) (hstep : writeStep s a = some s') : s'.Wakeful := by
  cases a with
  | sendMsg t message =>
      simp only [writeStep] at hstep
      split at hstep
      · cases hstep
      · split at hstep
        · cases hstep
          exact hwakeful
        · cases hstep
          apply wakeful_of_sending (t := t)
          simp only [Function.update_self]
  | cancelOne t =>
      simp only [writeStep] at hstep
      split at hstep
      · cases hstep
        exact wakeful_of_not_waiting s.writer.cancelOne_ne_waiting
      · cases hstep
  | closeSession =>
      simp only [writeStep, Option.some.injEq] at hstep
      subst hstep
      intro hasleep
      exact absurd hasleep hkeeps
  | loop a =>
      apply WriteSide.Wakeful.loopStep _ hstep
      rintro rfl
      exact hkeeps

/-- Every other step loses one. -/
theorem not_wakeful_of_not_keepsWakeful {s s' : WriteSide τ} {a : WriteAction τ}
    (hloses : ¬ KeepsWakeful s a) (hstep : writeStep s a = some s') : ¬ s'.Wakeful := by
  cases a with
  | loop a =>
      cases a with
      | startWait =>
          have hloop : loopStep s .startWait = some s' := hstep
          cases loopStep_cases hloop
          simp only [KeepsWakeful, not_or, not_exists, Bool.not_eq_true] at hloses
          intro hwakeful
          exact hloses.1 (hwakeful ⟨rfl, hloses.2⟩)
      | _ => exact absurd trivial hloses
  | closeSession =>
      simp only [writeStep, Option.some.injEq] at hstep
      subst hstep
      simp only [KeepsWakeful, not_not] at hloses
      intro hwakeful
      exact Bool.noConfusion (hwakeful hloses).2
  | _ => exact absurd trivial hloses

/-- In a run, `WriteLoop` never sleeps with something to do exactly when every
step of the run keeps it from that. -/
theorem writeLoop_wakeful_iff {tr : List (WriteSide τ × WriteAction τ)} {s : WriteSide τ}
    (hrun : Run (writeSystem τ) tr s) :
    (∀ x ∈ visited tr s, x.Wakeful) ↔ ∀ p ∈ tr, KeepsWakeful p.1 p.2 := by
  apply hrun.exact WriteSide.Wakeful WriteSide.Wakeful KeepsWakeful
  · intro x hinit
    apply WriteSide.wakeful_of_not_waiting
    rw [hinit.2.2.2.1]
    simp
  · intro x hwakeful
    exact hwakeful
  · intro x a y hwakeful hkeeps hstep
    exact hwakeful.step hkeeps hstep
  · intro x a y _ hloses hstep
    exact not_wakeful_of_not_keepsWakeful hloses hstep

def startedSession (τ : Type) : WriteSide τ :=
  ⟨.create, false, fun _ => false, .loopHead, []⟩

def helloMessage : MessageBuffer := ⟨0, 2, [104, 105]⟩

/-- A message sent while `WriteLoop` waits wakes it and is written. -/
def sentWhileWaiting : List (WriteAction Unit) :=
  [.loop .pop, .loop .startWait, .sendMsg () helloMessage, .cancelOne (), .loop .wake,
    .loop .checkClosed, .loop (.asyncWrite none), .loop .pop, .loop .checkClosed,
    .loop (.asyncWrite none)]

theorem writeLoop_wakeful_iff_sent :
    ∃ tr s, Run (writeSystem Unit) tr s ∧ s.socket = [104, 105] ∧
      ((∀ x ∈ visited tr s, x.Wakeful) ↔ ∀ p ∈ tr, KeepsWakeful p.1 p.2) := by
  have hinit : WriteInit (startedSession Unit) := ⟨rfl, rfl, fun _ => rfl, rfl, rfl⟩
  have hexec : exec writeStep (startedSession Unit) sentWhileWaiting = some _ := rfl
  exact ⟨_, _, run_of_exec hinit hexec, rfl, writeLoop_wakeful_iff (run_of_exec hinit hexec)⟩

/-- The whole of `SendMsg` between a failed `Pop` and the wait that follows:
`WriteLoop` sleeps on a message. -/
def sentBeforeWait : List (WriteAction Unit) :=
  [.loop .pop, .sendMsg () helloMessage, .cancelOne (), .loop .startWait]

theorem writeLoop_sleeps_on_message :
    ∃ tr s, Run (writeSystem Unit) tr s ∧ s.Asleep ∧
      s.writeBufferQueue.queue = [helloMessage] ∧ ¬ s.Wakeful := by
  have hinit : WriteInit (startedSession Unit) := ⟨rfl, rfl, fun _ => rfl, rfl, rfl⟩
  have hexec : exec writeStep (startedSession Unit) sentBeforeWait = some _ := rfl
  refine ⟨_, _, run_of_exec hinit hexec, ⟨rfl, fun _ => rfl⟩, rfl, ?_⟩
  intro hwakeful
  have hidle := hwakeful ⟨rfl, fun _ => rfl⟩
  exact List.cons_ne_nil _ _ hidle.1

end GameDemoLearn.Net
