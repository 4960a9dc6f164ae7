import GameDemoLearn.Net.WriteLoop

/-!
The lifetime of sessions (`Session.cpp`, `Server.cpp`, `HttpSession.cpp`). The
entry in `_sessions` is a session's only owner: none of its three coroutines
holds a `shared_ptr` to it. The steps below allow every order that the net
thread and the logic thread can produce, whether `co_spawn` starts a coroutine
at once or posts its start.
-/

namespace GameDemoLearn.Net

open Transition

/-- A session is `removed` once its `Update` returned false and until
`_sessions.erase` releases it. -/
inductive Lifetime
  | absent
  | listed
  | removed
  | destroyed
  deriving DecidableEq

inductive ReaderPhase
  | spawned
  | reading
  | returned
  deriving DecidableEq

/-- One run of `CoReadHandler`, which suspends only in the registered handler
that `Route` awaits. -/
inductive HandlerPhase
  | scheduled
  | suspended
  | finished
  deriving DecidableEq

/-- A session with its `ReadLoop`, its `WriteLoop` and its `CoReadHandler` runs.
`SendMsg` is called on the logic thread only, so the write side has no other
callers. -/
structure SessionState where
  lifetime : Lifetime
  readBufferQueue : ProducerConsumerQueue MessageBuffer
  reader : ReaderPhase
  write : WriteSide Empty
  handlers : List HandlerPhase

/-- Completion of `async_read_some`. -/
inductive ReadOutcome
  | received (data : Bytes)
  | failed

/-- What the registered handler does when it is run or resumed. -/
inductive HandlerOutcome
  | suspends
  | responds (message : MessageBuffer)

inductive CoroutineAction
  | readStart
  | readDone (outcome : ReadOutcome)
  | writeLoop (a : LoopAction)
  | handlerStart (run : Nat) (outcome : HandlerOutcome)
  | handlerResume (run : Nat) (outcome : HandlerOutcome)

/-- The whole of `SendMsg`. -/
def WriteSide.sendMsg (s : WriteSide Empty) (message : MessageBuffer) : WriteSide Empty :=
  if message.readableBytes = 0 then
    s
  else
    { s with
      writeBufferQueue := s.writeBufferQueue.push message
      writer := s.writer.cancelOne }

namespace SessionState

def setHandler (x : SessionState) (run : Nat) (phase : HandlerPhase) : SessionState :=
  { x with handlers := x.handlers.set run phase }

/-- `CoReadHandler` from the `co_await` on. -/
def handlerOutcome (x : SessionState) (run : Nat) : HandlerOutcome → SessionState
  | .suspends => x.setHandler run .suspended
  | .responds message => { x with write := x.write.sendMsg message }.setHandler run .finished

/-- The steps of the three coroutines. -/
def coroutineStep (x : SessionState) : CoroutineAction → Option SessionState
  | .readStart =>
      match x.reader with
      | .spawned => some { x with reader := .reading }
      | _ => none
  | .readDone outcome =>
      match x.reader, outcome with
      | .reading, .received data =>
          if x.lifetime = .destroyed then
            none
          else
            ((MessageBuffer.create MessageBuffer.INITIAL_BUFFER_SIZE).copyToWritPointer data).map
              fun buffer => { x with
                readBufferQueue := x.readBufferQueue.push (buffer.writeDone data.length) }
      | .reading, .failed =>
          some { x with reader := .returned, write := { x.write with closed := true } }
      | _, _ => none
  | .writeLoop a => (loopStep x.write a).map fun write => { x with write }
  | .handlerStart run outcome =>
      match x.handlers[run]? with
      | some .scheduled =>
          match x.readBufferQueue.pop with
          | (none, _) => some (x.setHandler run .finished)
          | (some packet, queue) =>
              if packet.readableBytes = 0 then
                some ({ x with readBufferQueue := queue }.setHandler run .finished)
              else
                some ({ x with readBufferQueue := queue }.handlerOutcome run outcome)
      | _ => none
  | .handlerResume run outcome =>
      match x.handlers[run]? with
      | some .suspended => some (x.handlerOutcome run outcome)
      | _ => none

/-- What each step of a coroutine does, by where it stands. -/
inductive CoroutineStep (x : SessionState) : CoroutineAction → SessionState → Prop
  | reads (hreader : x.reader = .spawned) :
      CoroutineStep x .readStart { x with reader := .reading }
  | received {data : Bytes} {buffer : MessageBuffer}
      (hbuffer : (MessageBuffer.create MessageBuffer.INITIAL_BUFFER_SIZE).copyToWritPointer data
        = some buffer) :
      CoroutineStep x (.readDone (.received data))
        { x with readBufferQueue := x.readBufferQueue.push (buffer.writeDone data.length) }
  | readFailed (hreader : x.reader = .reading) :
      CoroutineStep x (.readDone .failed)
        { x with reader := .returned, write := { x.write with closed := true } }
  | writes {a : LoopAction} {write : WriteSide Empty} (hwrite : loopStep x.write a = some write) :
      CoroutineStep x (.writeLoop a) { x with write }
  | popFailed {run : Nat} {outcome : HandlerOutcome} (hpop : x.readBufferQueue.pop.1 = none) :
      CoroutineStep x (.handlerStart run outcome) (x.setHandler run .finished)
  | poppedEmpty {run : Nat} {outcome : HandlerOutcome} {packet : MessageBuffer}
      {queue : ProducerConsumerQueue MessageBuffer}
      (hpop : x.readBufferQueue.pop = (some packet, queue)) :
      CoroutineStep x (.handlerStart run outcome)
        ({ x with readBufferQueue := queue }.setHandler run .finished)
  | popped {run : Nat} {outcome : HandlerOutcome} {packet : MessageBuffer}
      {queue : ProducerConsumerQueue MessageBuffer}
      (hpop : x.readBufferQueue.pop = (some packet, queue)) :
      CoroutineStep x (.handlerStart run outcome)
        ({ x with readBufferQueue := queue }.handlerOutcome run outcome)
  | resumed {run : Nat} {outcome : HandlerOutcome} (hrun : x.handlers[run]? = some .suspended) :
      CoroutineStep x (.handlerResume run outcome) (x.handlerOutcome run outcome)

theorem coroutineStep_cases {x y : SessionState} {a : CoroutineAction}
    (hstep : x.coroutineStep a = some y) : x.CoroutineStep a y := by
  cases a with
  | readStart =>
      simp only [coroutineStep] at hstep
      split at hstep
      · next hreader =>
          cases hstep
          exact .reads hreader
      · cases hstep
  | readDone outcome =>
      simp only [coroutineStep] at hstep
      split at hstep
      · split at hstep
        · cases hstep
        · obtain ⟨buffer, hbuffer, rfl⟩ := Option.map_eq_some_iff.mp hstep
          exact .received hbuffer
      · next hreader =>
          cases hstep
          exact .readFailed hreader
      · cases hstep
  | writeLoop a =>
      obtain ⟨write, hwrite, rfl⟩ := Option.map_eq_some_iff.mp hstep
      exact .writes hwrite
  | handlerStart run outcome =>
      simp only [coroutineStep] at hstep
      split at hstep
      · split at hstep
        · next hpop =>
            cases hstep
            exact .popFailed (congrArg Prod.fst hpop)
        · next packet queue hpop =>
            split at hstep
            · cases hstep
              exact .poppedEmpty hpop
            · cases hstep
              exact .popped hpop
      · cases hstep
  | handlerResume run outcome =>
      simp only [coroutineStep] at hstep
      split at hstep
      · next hrun =>
          cases hstep
          exact .resumed hrun
      · cases hstep

/-- A session that `OnScoketAccepted` has started and added. -/
def accepted : SessionState :=
  ⟨.listed, .create, .spawned, ⟨.create, false, nofun, .loopHead, []⟩, []⟩

/-- The destructor: the pending waits complete with an error. -/
def destroy (x : SessionState) : SessionState :=
  { x with
    lifetime := .destroyed
    write := { x.write with writer := x.write.writer.cancelOne } }

end SessionState

/-- All sessions ever accepted, and the one whose `ISession::Update` is under
way on the logic thread. -/
structure ServerState (ι : Type) where
  sessions : ι → SessionState
  updating : Option ι

inductive ServerAction (ι : Type)
  | accept (i : ι)
  | closeSession (i : ι)
  | readHandler (i : ι)
  | checkClosed (i : ι)
  | erase (i : ι)
  | coroutine (i : ι) (a : CoroutineAction)

variable {ι : Type} [DecidableEq ι]

def ServerState.setSession (s : ServerState ι) (i : ι) (x : SessionState) : ServerState ι :=
  { s with sessions := Function.update s.sessions i x }

/-- The steps of the server. A tick of `IServer::Update` calls `Update` of each
listed session, `readHandler` and then `checkClosed`, and erases those that
returned false. A session has coroutines from the time it is accepted. -/
def serverStep (s : ServerState ι) : ServerAction ι → Option (ServerState ι)
  | .accept i =>
      if (s.sessions i).lifetime = .absent then some (s.setSession i .accepted) else none
  | .closeSession i =>
      let x := s.sessions i
      if x.lifetime = .listed then
        some (s.setSession i { x with write := { x.write with closed := true } })
      else
        none
  | .readHandler i =>
      let x := s.sessions i
      if x.lifetime = .listed ∧ s.updating = none then
        some { s.setSession i { x with handlers := x.handlers ++ [.scheduled] } with
          updating := some i }
      else
        none
  | .checkClosed i =>
      let x := s.sessions i
      if x.lifetime = .listed ∧ s.updating = some i then
        if x.write.closed then
          some { s.setSession i { x with lifetime := .removed } with updating := none }
        else
          some { s with updating := none }
      else
        none
  | .erase i =>
      let x := s.sessions i
      if x.lifetime = .removed then some (s.setSession i x.destroy) else none
  | .coroutine i a =>
      if (s.sessions i).lifetime = .absent then
        none
      else
        ((s.sessions i).coroutineStep a).map fun x => s.setSession i x

/-- What each step of the server does to the sessions. -/
inductive ServerStep (s : ServerState ι) : ServerAction ι → ServerState ι → Prop
  | accepts {i : ι} (habsent : (s.sessions i).lifetime = .absent) :
      ServerStep s (.accept i) (s.setSession i .accepted)
  | closes {i : ι} (hlisted : (s.sessions i).lifetime = .listed) :
      ServerStep s (.closeSession i)
        (s.setSession i
          { s.sessions i with write := { (s.sessions i).write with closed := true } })
  | handles {i : ι} (hlisted : (s.sessions i).lifetime = .listed) :
      ServerStep s (.readHandler i)
        { s.setSession i
            { s.sessions i with handlers := (s.sessions i).handlers ++ [.scheduled] } with
          updating := some i }
  | removes {i : ι} (hlisted : (s.sessions i).lifetime = .listed) :
      ServerStep s (.checkClosed i)
        { s.setSession i { s.sessions i with lifetime := .removed } with updating := none }
  | keeps {i : ι} : ServerStep s (.checkClosed i) { s with updating := none }
  | erases {i : ι} (hremoved : (s.sessions i).lifetime = .removed) :
      ServerStep s (.erase i) (s.setSession i (s.sessions i).destroy)
  | runs {i : ι} {a : CoroutineAction} {y : SessionState}
      (haccepted : (s.sessions i).lifetime ≠ .absent)
      (hrun : (s.sessions i).coroutineStep a = some y) :
      ServerStep s (.coroutine i a) (s.setSession i y)

theorem serverStep_cases {s s' : ServerState ι} {a : ServerAction ι}
    (hstep : serverStep s a = some s') : ServerStep s a s' := by
  cases a with
  | accept i =>
      obtain ⟨habsent, hstep⟩ := Option.ite_none_right_eq_some.mp hstep
      cases hstep
      exact .accepts habsent
  | closeSession i =>
      obtain ⟨hlisted, hstep⟩ := Option.ite_none_right_eq_some.mp hstep
      cases hstep
      exact .closes hlisted
  | readHandler i =>
      obtain ⟨hlisted, hstep⟩ := Option.ite_none_right_eq_some.mp hstep
      cases hstep
      exact .handles hlisted.1
  | checkClosed i =>
      obtain ⟨hlisted, hstep⟩ := Option.ite_none_right_eq_some.mp hstep
      split at hstep
      · cases hstep
        exact .removes hlisted.1
      · cases hstep
        exact .keeps
  | erase i =>
      obtain ⟨hremoved, hstep⟩ := Option.ite_none_right_eq_some.mp hstep
      cases hstep
      exact .erases hremoved
  | coroutine i a =>
      obtain ⟨haccepted, hstep⟩ := Option.ite_none_left_eq_some.mp hstep
      obtain ⟨y, hrun, rfl⟩ := Option.map_eq_some_iff.mp hstep
      exact .runs haccepted hrun

def ServerInit (s : ServerState ι) : Prop :=
  (∀ i, (s.sessions i).lifetime = .absent) ∧ s.updating = none

/-- A server with the sessions `ι`, accepted in any order. -/
def serverSystem (ι : Type) [DecidableEq ι] : System (ServerState ι) (ServerAction ι) :=
  System.ofStep ServerInit serverStep

/-- The step runs a coroutine of a session that was destroyed. -/
def UsesDestroyed (s : ServerState ι) : ServerAction ι → Prop
  | .coroutine i _ => (s.sessions i).lifetime = .destroyed
  | _ => False

/-- No step that can come next runs a coroutine of a destroyed session. -/
def ServerState.Safe (s : ServerState ι) : Prop :=
  ∀ a s', serverStep s a = some s' → ¬ UsesDestroyed s a

/-- All three kinds of coroutines of the session have returned. -/
structure SessionState.Finished (x : SessionState) : Prop where
  reader : x.reader = .returned
  writer : x.write.writer = .returned
  handlers : ∀ phase ∈ x.handlers, phase = .finished

/-- A session is erased only after its coroutines have returned. -/
def ErasesFinished (s : ServerState ι) : ServerAction ι → Prop
  | .erase i => (s.sessions i).Finished
  | _ => True

/-- The invariant: a destroyed session has no coroutine left. -/
def ServerState.Settled (s : ServerState ι) : Prop :=
  ∀ i, (s.sessions i).lifetime = .destroyed → (s.sessions i).Finished

theorem loopStep_returned {s : WriteSide Empty} (hreturned : s.writer = .returned)
    (a : LoopAction) : loopStep s a = none := by
  cases a <;> simp only [loopStep, hreturned]

/-- A session whose coroutines have returned takes no step. -/
theorem SessionState.Finished.coroutineStep {x : SessionState} (hx : x.Finished)
    (a : CoroutineAction) : x.coroutineStep a = none := by
  have hrun (run : Nat) (phase : HandlerPhase) (hphase : x.handlers[run]? = some phase) :
      phase = .finished := hx.handlers phase (List.mem_of_getElem? hphase)
  cases a with
  | readStart => simp only [SessionState.coroutineStep, hx.reader]
  | readDone outcome => simp only [SessionState.coroutineStep, hx.reader]
  | writeLoop a =>
      simp only [SessionState.coroutineStep, loopStep_returned hx.writer, Option.map_none]
  | handlerStart run outcome =>
      simp only [SessionState.coroutineStep]
      split
      · next hscheduled => exact absurd (hrun run _ hscheduled) (by simp)
      · rfl
  | handlerResume run outcome =>
      simp only [SessionState.coroutineStep]
      split
      · next hsuspended => exact absurd (hrun run _ hsuspended) (by simp)
      · rfl

theorem exists_readerStep {x : SessionState} (hreader : x.reader ≠ .returned) :
    ∃ a y, x.coroutineStep a = some y := by
  cases hphase : x.reader with
  | spawned =>
      refine ⟨.readStart, { x with reader := .reading }, ?_⟩
      simp only [SessionState.coroutineStep, hphase]
  | reading =>
      refine ⟨.readDone .failed,
        { x with reader := .returned, write := { x.write with closed := true } }, ?_⟩
      simp only [SessionState.coroutineStep, hphase]
  | returned => exact absurd hphase hreader

/-- Once its wait has completed, `WriteLoop` can go on from every phase. -/
theorem exists_loopStep {s : WriteSide Empty} (hwriter : s.writer ≠ .returned)
    (hwait : s.writer ≠ .waiting false) : ∃ a s', loopStep s a = some s' := by
  cases hphase : s.writer with
  | loopHead =>
      refine ⟨.pop, ?_⟩
      simp only [loopStep, hphase]
      split
      · exact ⟨_, rfl⟩
      · exact ⟨_, rfl⟩
  | beforeWait =>
      refine ⟨.startWait, { s with writer := .waiting false }, ?_⟩
      simp only [loopStep, hphase]
  | waiting cancelled =>
      cases cancelled with
      | false => exact absurd hphase hwait
      | true =>
          refine ⟨.wake, ?_⟩
          simp only [loopStep, hphase]
          exact ⟨_, rfl⟩
  | checkClosed packet =>
      refine ⟨.checkClosed, ?_⟩
      simp only [loopStep, hphase]
      exact ⟨_, rfl⟩
  | writing packet =>
      refine ⟨.asyncWrite none, ?_⟩
      simp only [loopStep, hphase]
      exact ⟨_, rfl⟩
  | returned => exact absurd hphase hwriter

theorem exists_handlerStep {x : SessionState} {phase : HandlerPhase} (hphase : phase ∈ x.handlers)
    (hunfinished : phase ≠ .finished) : ∃ a y, x.coroutineStep a = some y := by
  obtain ⟨run, hrun⟩ := List.mem_iff_getElem?.mp hphase
  cases phase with
  | scheduled =>
      refine ⟨.handlerStart run .suspends, ?_⟩
      simp only [SessionState.coroutineStep, hrun]
      split
      · exact ⟨_, rfl⟩
      · split
        · exact ⟨_, rfl⟩
        · exact ⟨_, rfl⟩
  | suspended =>
      refine ⟨.handlerResume run .suspends, x.handlerOutcome run .suspends, ?_⟩
      simp only [SessionState.coroutineStep, hrun]
  | finished => exact absurd rfl hunfinished

/-- A session destroyed with a coroutine left has that coroutine run on. -/
theorem exists_coroutineStep_destroy {x : SessionState} (hx : ¬ x.Finished) :
    ∃ a y, x.destroy.coroutineStep a = some y := by
  by_cases hreader : x.reader = .returned
  · by_cases hwriter : x.write.writer = .returned
    · have hhandlers : ¬ ∀ phase ∈ x.handlers, phase = .finished :=
        fun h => hx ⟨hreader, hwriter, h⟩
      push Not at hhandlers
      obtain ⟨phase, hphase, hunfinished⟩ := hhandlers
      exact exists_handlerStep (x := x.destroy) hphase hunfinished
    · have hcancelled : x.write.writer.cancelOne ≠ .returned := by
        cases hphase : x.write.writer <;> simp_all [WriterPhase.cancelOne]
      obtain ⟨a, s', hstep⟩ := exists_loopStep (s := x.destroy.write) hcancelled
        x.write.writer.cancelOne_ne_waiting
      refine ⟨.writeLoop a, { x.destroy with write := s' }, ?_⟩
      simp only [SessionState.coroutineStep, hstep, Option.map_some]
  · exact exists_readerStep (x := x.destroy) hreader

theorem coroutineStep_lifetime {x y : SessionState} {a : CoroutineAction}
    (hstep : x.coroutineStep a = some y) : y.lifetime = x.lifetime := by
  cases SessionState.coroutineStep_cases hstep with
  | @popped run outcome => cases outcome <;> rfl
  | @resumed run outcome => cases outcome <;> rfl
  | _ => rfl

theorem ServerState.Settled.setSession {s : ServerState ι} (hs : s.Settled) (i : ι)
    {x : SessionState} (hx : x.lifetime = .destroyed → x.Finished) :
    (s.setSession i x).Settled := by
  intro k
  by_cases hk : k = i
  · subst hk
    simpa only [ServerState.setSession, Function.update_self] using hx
  · simpa only [ServerState.setSession, Function.update_of_ne hk] using hs k

/-- Erasing finished sessions only keeps every destroyed session finished. -/
theorem ServerState.Settled.step {s s' : ServerState ι} {a : ServerAction ι} (hs : s.Settled)
    (hfinished : ErasesFinished s a) (hstep : serverStep s a = some s') : s'.Settled := by
  cases serverStep_cases hstep with
  | @accepts i habsent => exact hs.setSession i (fun h => Lifetime.noConfusion h)
  | @closes i hlisted =>
      apply hs.setSession i
      intro hdestroyed
      exact absurd (hlisted.symm.trans hdestroyed) (by simp)
  | @handles i hlisted =>
      apply hs.setSession i
      intro hdestroyed
      exact absurd (hlisted.symm.trans hdestroyed) (by simp)
  | @removes i => exact hs.setSession i (fun h => Lifetime.noConfusion h)
  | keeps => exact hs
  | @erases i =>
      apply hs.setSession i
      intro _
      refine ⟨hfinished.reader, ?_, hfinished.handlers⟩
      simp only [SessionState.destroy, hfinished.writer, WriterPhase.cancelOne]
  | @runs i a y haccepted hrun =>
      apply hs.setSession i
      intro hdestroyed
      rw [coroutineStep_lifetime hrun] at hdestroyed
      rw [(hs i hdestroyed).coroutineStep a] at hrun
      cases hrun

theorem ServerState.Settled.safe {s : ServerState ι} (hs : s.Settled) : s.Safe := by
  intro a s' hstep huses
  cases a with
  | coroutine i a =>
      simp only [serverStep, (hs i huses).coroutineStep a, Option.map_none, ite_self] at hstep
      cases hstep
  | _ => exact huses

/-- Erasing a session with a coroutine left leads to a step on the destroyed
session. -/
theorem not_safe_of_erase {s s' : ServerState ι} {a : ServerAction ι}
    (hunfinished : ¬ ErasesFinished s a) (hstep : serverStep s a = some s') : ¬ s'.Safe := by
  cases serverStep_cases hstep with
  | @erases i hremoved =>
      obtain ⟨a, y, hy⟩ := exists_coroutineStep_destroy hunfinished
      intro hsafe
      apply hsafe (.coroutine i a) ((s.setSession i (s.sessions i).destroy).setSession i y)
      · have haccepted : (s.sessions i).destroy.lifetime ≠ .absent := by
          intro habsent
          cases habsent
        simp only [serverStep, ServerState.setSession, Function.update_self, hy,
          if_neg haccepted, Option.map_some]
      · simp only [UsesDestroyed, ServerState.setSession, Function.update_self]
        rfl
  | _ => exact absurd trivial hunfinished

/-- In a run, a coroutine of a destroyed session can never be the next to run
exactly when every session was erased after its coroutines had returned; and
then no step of the run was one on a destroyed session. -/
theorem server_run_safe_iff {tr : List (ServerState ι × ServerAction ι)} {s : ServerState ι}
    (hrun : Run (serverSystem ι) tr s) :
    ((∀ x ∈ visited tr s, x.Safe) ↔ ∀ p ∈ tr, ErasesFinished p.1 p.2) ∧
      ((∀ p ∈ tr, ErasesFinished p.1 p.2) → ∀ p ∈ tr, ¬ UsesDestroyed p.1 p.2) := by
  have hinit (x : ServerState ι) (h : (serverSystem ι).init x) : x.Settled := by
    intro i hdestroyed
    exact absurd ((h.1 i).symm.trans hdestroyed) (by simp)
  have hkeep (x : ServerState ι) (a : ServerAction ι) (y : ServerState ι) (hx : x.Settled)
      (hfinished : ErasesFinished x a) (hstep : (serverSystem ι).step x a y) : y.Settled :=
    hx.step hfinished hstep
  constructor
  · apply hrun.exact ServerState.Settled ServerState.Safe ErasesFinished hinit _ hkeep
    · intro x a y _ hunfinished hstep
      exact not_safe_of_erase hunfinished hstep
    · intro x hx
      exact hx.safe
  · intro hfinished p hp huses
    have hsettled := hrun.guarded_steps ServerState.Settled ErasesFinished hinit hkeep
      hfinished p hp
    obtain ⟨s', hstep⟩ := hrun.taken p hp
    exact hsettled.safe p.2 s' hstep huses

def emptyServer (ι : Type) : ServerState ι :=
  ⟨fun _ => { SessionState.accepted with lifetime := .absent }, none⟩

/-- A session that answers its last request and sees the peer close, up to its
removal: every coroutine has returned. -/
def answeredAndClosed : List (ServerAction Unit) :=
  [.accept (), .coroutine () .readStart, .coroutine () (.readDone (.received [71])),
    .readHandler (), .coroutine () (.handlerStart 0 (.responds helloMessage)), .checkClosed (),
    .coroutine () (.readDone .failed), .coroutine () (.writeLoop .pop),
    .coroutine () (.writeLoop .checkClosed), .readHandler (),
    .coroutine () (.handlerStart 1 .suspends), .checkClosed ()]

omit [DecidableEq ι] in
theorem erasesFinished_of_actions {tr : List (ServerState ι × ServerAction ι)}
    (hnone : ∀ i, .erase i ∉ tr.map Prod.snd) : ∀ p ∈ tr, ErasesFinished p.1 p.2 := by
  rintro ⟨s, a⟩ hp
  cases a with
  | erase i => exact absurd (List.mem_map_of_mem hp) (hnone i)
  | _ => trivial

set_option maxRecDepth 20000 in
theorem server_run_safe_iff_finished :
    ∃ tr s, Run (serverSystem Unit) tr s ∧ (s.sessions ()).lifetime = .destroyed ∧
      ∀ p ∈ tr, ¬ UsesDestroyed p.1 p.2 := by
  have hinit : ServerInit (emptyServer Unit) := ⟨fun _ => rfl, rfl⟩
  obtain ⟨tr, s, hexec, hremoved, hreader, hwriter, hhandlers⟩ :
      ∃ tr s, exec serverStep (emptyServer Unit) answeredAndClosed = some (tr, s) ∧
        (s.sessions ()).lifetime = .removed ∧ (s.sessions ()).reader = .returned ∧
        (s.sessions ()).write.writer = .returned ∧
        (s.sessions ()).handlers = [.finished, .finished] := ⟨_, _, rfl, rfl, rfl, rfl, rfl⟩
  have herase : serverStep s (.erase ()) = some (s.setSession () (s.sessions ()).destroy) := by
    simp only [serverStep, hremoved, if_true]
  have hrun := (run_of_exec hinit hexec).snoc herase
  have hbefore : ∀ p ∈ tr, ErasesFinished p.1 p.2 := by
    apply erasesFinished_of_actions
    rw [exec_actions hexec]
    simp [answeredAndClosed]
  refine ⟨_, _, hrun, ?_, (server_run_safe_iff hrun).2 ?_⟩
  · simp only [ServerState.setSession, Function.update_self, SessionState.destroy]
  · rw [forall_steps_snoc]
    refine ⟨hbefore, hreader, hwriter, ?_⟩
    rw [hhandlers]
    simp

/-- The peer closes an idle session: `CloseSession` does not wake `WriteLoop`,
which resumes when the destructor of the session has run. -/
def erasedWaiting : List (ServerAction Unit) :=
  [.accept (), .coroutine () .readStart, .coroutine () (.writeLoop .pop),
    .coroutine () (.writeLoop .startWait), .coroutine () (.readDone .failed), .readHandler (),
    .coroutine () (.handlerStart 0 .suspends), .checkClosed (), .erase (),
    .coroutine () (.writeLoop .wake)]

theorem writeLoop_resumed_destroyed :
    ∃ tr s, Run (serverSystem Unit) tr s ∧ ∃ p ∈ tr, UsesDestroyed p.1 p.2 := by
  have hinit : ServerInit (emptyServer Unit) := ⟨fun _ => rfl, rfl⟩
  have hexec : exec serverStep (emptyServer Unit) erasedWaiting = some _ := rfl
  refine ⟨_, _, run_of_exec hinit hexec, _, List.mem_of_getLast? rfl, rfl⟩

end GameDemoLearn.Net
