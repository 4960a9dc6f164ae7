import GameDemoLearn.Lib.Fifo
import GameDemoLearn.Net.WriteLoop

/-!
The bytes of a session on their way from `SendMsg` to the socket. They wait in the write
queue and then in the packet that `WriteLoop` holds. A wait that ends leaves it with an
empty packet, so the write that follows adds nothing.
-/

namespace GameDemoLearn.Net

open Transition Fifo

variable {τ : Type}

/-- The message that a step of `SendMsg` pushes. -/
def pushedMessage : WriteSide τ × WriteAction τ → List MessageBuffer
  | (_, .sendMsg _ message) => if message.readableBytes = 0 then [] else [message]
  | _ => []

/-- The bytes of the messages, in the order in which `SendMsg` pushed them. -/
def sentBytes (tr : List (WriteSide τ × WriteAction τ)) : Bytes :=
  (tr.flatMap pushedMessage).flatMap MessageBuffer.readable

/-- The bytes that a step of `WriteLoop` puts on the socket. -/
def writtenBytes (s : WriteSide τ) : LoopAction → Bytes
  | .asyncWrite failedAfter =>
      match s.writer, failedAfter with
      | .writing packet, none => packet.readable
      | .writing packet, some length => packet.readable.take length
      | _, _ => []
  | _ => []

def writtenByStep : WriteSide τ × WriteAction τ → Bytes
  | (s, .loop a) => writtenBytes s a
  | _ => []

/-- The bytes of the packet in the hands of `WriteLoop`. -/
def WriterPhase.heldBytes : WriterPhase → Bytes
  | .checkClosed packet | .writing packet => packet.readable
  | _ => []

/-- The bytes on their way. -/
def WriteSide.unwritten (s : WriteSide τ) : Bytes :=
  s.writer.heldBytes ++ s.writeBufferQueue.queue.flatMap MessageBuffer.readable

theorem WriterPhase.heldBytes_cancelOne (phase : WriterPhase) :
    phase.cancelOne.heldBytes = phase.heldBytes := by
  cases phase <;> rfl

theorem WriterPhase.cancelOne_eq_returned {phase : WriterPhase} :
    phase.cancelOne = .returned ↔ phase = .returned := by
  cases phase <;> simp [WriterPhase.cancelOne]

/-- How a step moves the bytes: what it pushes gets behind those on their way, and what it
writes comes from their front. -/
structure BytesMove (s s' : WriteSide τ) (pushed written : Bytes) : Prop where
  socket : s'.socket = s.socket ++ written
  kept : s'.writer ≠ .returned →
    s.writer ≠ .returned ∧ written ++ s'.unwritten = s.unwritten ++ pushed
  ended : s'.writer = .returned →
    written <+: s.unwritten ∧ (s.writer = .returned → written = [])

/-- A step of `WriteLoop` after which it goes on. -/
theorem BytesMove.of_running {s s' : WriteSide τ} {written : Bytes}
    (hrunning : s.writer ≠ .returned) (hsocket : s'.socket = s.socket ++ written)
    (hkept : written ++ s'.unwritten = s.unwritten) : BytesMove s s' [] written := by
  refine ⟨hsocket, fun _ => ⟨hrunning, ?_⟩, fun _ => ⟨?_, fun h => absurd h hrunning⟩⟩
  · rw [List.append_nil]
    exact hkept
  · rw [← hkept]
    exact List.prefix_append _ _

/-- A step of `WriteLoop` with which it returns. -/
theorem BytesMove.of_returned {s s' : WriteSide τ} {written : Bytes}
    (hrunning : s.writer ≠ .returned) (hreturned : s'.writer = .returned)
    (hsocket : s'.socket = s.socket ++ written) (hfront : written <+: s.unwritten) :
    BytesMove s s' [] written :=
  ⟨hsocket, fun h => absurd hreturned h, fun _ => ⟨hfront, fun h => absurd h hrunning⟩⟩

/-- A step of a caller. -/
theorem BytesMove.of_caller {s s' : WriteSide τ} {pushed : Bytes}
    (hsocket : s'.socket = s.socket) (hwriter : s'.writer = .returned ↔ s.writer = .returned)
    (hpushed : s'.unwritten = s.unwritten ++ pushed) : BytesMove s s' pushed [] := by
  refine ⟨?_, fun h => ⟨fun hs => h (hwriter.mpr hs), hpushed⟩, ?_⟩
  · rw [hsocket, List.append_nil]
  · exact fun _ => ⟨List.nil_prefix, fun _ => rfl⟩

/-- A step that moves `WriteLoop` on with the same bytes in hand. -/
theorem BytesMove.of_heldBytes {s : WriteSide τ} {phase : WriterPhase}
    (hrunning : s.writer ≠ .returned) (hheld : phase.heldBytes = s.writer.heldBytes) :
    BytesMove s { s with writer := phase } [] [] := by
  refine .of_running hrunning (List.append_nil _).symm ?_
  rw [WriteSide.unwritten, WriteSide.unwritten, hheld, List.nil_append]

theorem loopStep_moves {s s' : WriteSide τ} {a : LoopAction} (hstep : loopStep s a = some s') :
    BytesMove s s' [] (writtenBytes s a) := by
  cases loopStep_cases hstep with
  | @popped packet queue hwriter hpop =>
      have hqueue := s.writeBufferQueue.toList_pop_append
      rw [hpop] at hqueue
      refine .of_running (hwriter ▸ nofun) (List.append_nil _).symm ?_
      rw [WriteSide.unwritten, WriteSide.unwritten, hwriter, ← hqueue]
      rfl
  | popFailed hwriter hpop => exact .of_heldBytes (hwriter ▸ nofun) (hwriter ▸ rfl)
  | waits hwriter => exact .of_heldBytes (hwriter ▸ nofun) (hwriter ▸ rfl)
  | woken hwriter =>
      refine .of_heldBytes (hwriter ▸ nofun) ?_
      rw [hwriter]
      exact MessageBuffer.readable_create _
  | returns hwriter hclosed =>
      exact .of_returned (hwriter ▸ nofun) rfl (List.append_nil _).symm List.nil_prefix
  | writes hwriter hclosed => exact .of_heldBytes (hwriter ▸ nofun) (hwriter ▸ rfl)
  | wrote hwriter =>
      simp only [writtenBytes, hwriter]
      refine .of_running (hwriter ▸ nofun) rfl ?_
      rw [WriteSide.unwritten, WriteSide.unwritten, hwriter]
      rfl
  | @failed packet length hwriter =>
      simp only [writtenBytes, hwriter]
      refine .of_returned (hwriter ▸ nofun) rfl rfl ?_
      rw [WriteSide.unwritten, hwriter]
      exact (List.take_prefix length packet.readable).trans (List.prefix_append _ _)

variable [DecidableEq τ]

theorem writeStep_moves {s s' : WriteSide τ} {a : WriteAction τ}
    (hstep : writeStep s a = some s') :
    BytesMove s s' ((pushedMessage (s, a)).flatMap MessageBuffer.readable)
      (writtenByStep (s, a)) := by
  cases a with
  | sendMsg t message =>
      simp only [writeStep] at hstep
      split at hstep
      · cases hstep
      · split at hstep
        · next hempty =>
            cases hstep
            rw [pushedMessage, if_pos hempty]
            exact .of_caller rfl Iff.rfl (List.append_nil _).symm
        · next hbytes =>
            cases hstep
            rw [pushedMessage, if_neg hbytes]
            refine .of_caller rfl Iff.rfl ?_
            simp only [WriteSide.unwritten, ProducerConsumerQueue.push, List.flatMap_append,
              List.append_assoc]
  | cancelOne t =>
      simp only [writeStep] at hstep
      split at hstep
      · cases hstep
        refine .of_caller rfl WriterPhase.cancelOne_eq_returned ?_
        rw [WriteSide.unwritten, WriterPhase.heldBytes_cancelOne]
        exact (List.append_nil _).symm
      · cases hstep
  | closeSession =>
      cases hstep
      exact .of_caller rfl Iff.rfl (List.append_nil _).symm
  | loop b => exact loopStep_moves hstep

/-- The bytes pass through the session until `WriteLoop` returns. -/
def wirePassage (τ : Type) [DecidableEq τ] : Passage (writeSystem τ) UInt8 where
  live s := s.writer ≠ .returned
  content := WriteSide.unwritten
  input p := (pushedMessage p).flatMap MessageBuffer.readable
  output := writtenByStep
  content_init s hinit := by
    rw [WriteSide.unwritten, hinit.1, hinit.2.2.2.1]
    rfl
  kept s a s' hstep hlive := (writeStep_moves hstep).kept hlive
  ended s a s' hstep hended := by
    obtain ⟨hfront, hnone⟩ := (writeStep_moves hstep).ended (not_not.mp hended)
    exact ⟨hfront, fun h => hnone (not_not.mp h)⟩

section Runs

variable {tr : List (WriteSide τ × WriteAction τ)} {s : WriteSide τ}

/-- The socket has what the steps of `WriteLoop` wrote. -/
theorem socket_eq_written (hrun : Run (writeSystem τ) tr s) :
    s.socket = tr.flatMap writtenByStep := by
  induction hrun with
  | start hinit => exact hinit.2.2.2.2
  | snoc _ hstep ih =>
      rw [List.flatMap_append, List.flatMap_singleton, ← ih]
      exact (writeStep_moves hstep).socket

/-- Whatever the order of the callers and `WriteLoop`, the socket gets the bytes that were
sent, in their order and without a gap, also within a write. -/
theorem socket_in_order (hrun : Run (writeSystem τ) tr s) :
    s.socket <+: sentBytes tr ∧
      ∀ packet length, s.writer = .writing packet →
        s.socket ++ packet.readable.take length <+: sentBytes tr := by
  obtain ⟨hlive, hbefore⟩ := (wirePassage τ).in_order hrun
  have hsent : (wirePassage τ).inputs tr = sentBytes tr := by
    rw [sentBytes, List.flatMap_assoc, Passage.inputs]
    rfl
  have hsocket : (wirePassage τ).outputs tr = s.socket := (socket_eq_written hrun).symm
  rw [hsocket, hsent] at hlive hbefore
  refine ⟨hbefore, ?_⟩
  intro packet length hwriter
  have hunwritten : s.unwritten
      = packet.readable ++ s.writeBufferQueue.queue.flatMap MessageBuffer.readable := by
    rw [WriteSide.unwritten, hwriter]
    rfl
  have hfront : packet.readable.take length <+: s.unwritten := by
    rw [hunwritten]
    exact (List.take_prefix length packet.readable).trans (List.prefix_append _ _)
  have hrunning : s.writer ≠ .returned := by
    intro hreturned
    rw [hwriter] at hreturned
    cases hreturned
  rw [← hlive hrunning]
  exact (List.prefix_append_right_inj _).mpr hfront

end Runs

/-- Two messages, the second of which is cut off by an error and closes the session. -/
def cutOffMessages : List (WriteAction Unit) :=
  sentWhileWaiting ++ [.sendMsg () ⟨0, 3, [97, 98, 99]⟩, .cancelOne (), .loop .pop,
    .loop .checkClosed, .loop (.asyncWrite (some 1)), .sendMsg () helloMessage]

theorem socket_in_order_cut_off :
    ∃ tr s, Run (writeSystem Unit) tr s ∧ s.writer = .returned ∧ s.socket = [104, 105, 97] ∧
      sentBytes tr = [104, 105, 97, 98, 99, 104, 105] ∧ s.socket <+: sentBytes tr := by
  have hinit : WriteInit (startedSession Unit) := ⟨rfl, rfl, fun _ => rfl, rfl, rfl⟩
  have hexec : exec writeStep (startedSession Unit) cutOffMessages = some (_, _) := rfl
  have hrun := run_of_exec hinit hexec
  exact ⟨_, _, hrun, rfl, rfl, rfl, (socket_in_order hrun).1⟩

end GameDemoLearn.Net
