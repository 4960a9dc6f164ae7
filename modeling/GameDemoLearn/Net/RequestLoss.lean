import GameDemoLearn.Lib.Fifo
import GameDemoLearn.Net.SessionLifetime

/-!
The packets of a session between `ReadLoop`, which pushes them to the read
queue, and the `CoReadHandler` runs, which pop one each. A tick starts one run
before it looks at the closing flag, so what is still queued when the session
is erased is lost.
-/

namespace GameDemoLearn.Net

open Transition Fifo

/-- The packets that a coroutine step of a session pushes. -/
def pushedFrom : CoroutineAction → List MessageBuffer
  | .readDone (.received data) =>
      (((MessageBuffer.create MessageBuffer.INITIAL_BUFFER_SIZE).copyToWritPointer data).map
        fun buffer => buffer.writeDone data.length).toList
  | _ => []

/-- The packets that it pops. -/
def poppedFrom (x : SessionState) : CoroutineAction → List MessageBuffer
  | .handlerStart _ _ => x.readBufferQueue.pop.1.toList
  | _ => []

/-- What the step is for the read queue. -/
def queueTurn : CoroutineAction → Turn
  | .readDone (.received _) => .arrive
  | .handlerStart _ _ => .serve
  | _ => .other

theorem handlerOutcome_readBufferQueue (x : SessionState) (run : Nat) (outcome : HandlerOutcome) :
    (x.handlerOutcome run outcome).readBufferQueue = x.readBufferQueue := by
  cases outcome <;> rfl

/-- A run that starts leaves the rest of the queue, whether it found a packet or
not. -/
theorem handlerStart_readBufferQueue {x y : SessionState} {run : Nat} {outcome : HandlerOutcome}
    (hopen : x.readBufferQueue.shutdown = false)
    (hstep : x.coroutineStep (.handlerStart run outcome) = some y) :
    y.readBufferQueue = { x.readBufferQueue with queue := x.readBufferQueue.queue.tail } := by
  have hpops := ProducerConsumerQueue.pop_open hopen
  cases SessionState.coroutineStep_cases hstep with
  | popFailed hpop =>
      rw [hpops] at hpop
      change x.readBufferQueue = _
      rw [List.head?_eq_none_iff.mp hpop, List.tail_nil, ← List.head?_eq_none_iff.mp hpop]
  | poppedEmpty hpop =>
      rw [hpops] at hpop
      exact (congrArg Prod.snd hpop).symm
  | popped hpop =>
      rw [hpops] at hpop
      rw [handlerOutcome_readBufferQueue]
      exact (congrArg Prod.snd hpop).symm

theorem handlerStart_queue {x y : SessionState} {run : Nat} {outcome : HandlerOutcome}
    (hopen : x.readBufferQueue.shutdown = false)
    (hstep : x.coroutineStep (.handlerStart run outcome) = some y) :
    y.readBufferQueue.shutdown = false ∧
      poppedFrom x (.handlerStart run outcome) ++ y.readBufferQueue.queue
        = x.readBufferQueue.queue ++ pushedFrom (.handlerStart run outcome) ∧
      y.readBufferQueue.queue.length
        = nextBacklog x.readBufferQueue.queue.length (queueTurn (.handlerStart run outcome)) := by
  have hqueue := handlerStart_readBufferQueue hopen hstep
  simp only [hqueue, poppedFrom, pushedFrom, ProducerConsumerQueue.pop_open hopen,
    List.append_nil, queueTurn, nextBacklog, List.length_tail, and_true]
  refine ⟨hopen, ?_⟩
  cases x.readBufferQueue.queue with
  | nil => rfl
  | cons packet rest => rfl

/-- The packets move through the queue in order: what a step pops and what it
leaves there is what was there and what the step pushes. -/
theorem coroutineStep_queue {x y : SessionState} {a : CoroutineAction}
    (hopen : x.readBufferQueue.shutdown = false) (hstep : x.coroutineStep a = some y) :
    y.readBufferQueue.shutdown = false ∧
      poppedFrom x a ++ y.readBufferQueue.queue = x.readBufferQueue.queue ++ pushedFrom a ∧
      y.readBufferQueue.queue.length
        = nextBacklog x.readBufferQueue.queue.length (queueTurn a) := by
  cases SessionState.coroutineStep_cases hstep with
  | received hbuffer =>
      refine ⟨hopen, ?_, ?_⟩
      · simp only [poppedFrom, pushedFrom, hbuffer, ProducerConsumerQueue.push, List.nil_append,
          Option.map_some, Option.toList_some]
      · simp only [ProducerConsumerQueue.push, List.length_append, List.length_singleton,
          queueTurn, nextBacklog]
  | popFailed => exact handlerStart_queue hopen hstep
  | poppedEmpty => exact handlerStart_queue hopen hstep
  | popped => exact handlerStart_queue hopen hstep
  | @resumed run outcome =>
      cases outcome <;> exact ⟨hopen, (List.append_nil _).symm, rfl⟩
  | _ => exact ⟨hopen, (List.append_nil _).symm, rfl⟩

variable {ι : Type} [DecidableEq ι]

/-- The packets that a step of the server pushes for session `i`. -/
def pushedBy (i : ι) : ServerState ι × ServerAction ι → List MessageBuffer
  | (_, .coroutine k a) => if k = i then pushedFrom a else []
  | _ => []

def poppedBy (i : ι) : ServerState ι × ServerAction ι → List MessageBuffer
  | (s, .coroutine k a) => if k = i then poppedFrom (s.sessions i) a else []
  | _ => []

/-- What a step of the server is for the read queue of session `i`. -/
def sessionTurn (i : ι) : ServerAction ι → Turn
  | .coroutine k a => if k = i then queueTurn a else .other
  | _ => .other

/-- The packets that `ReadLoop` pushed for a session in the course of a run. -/
def pushed (i : ι) (tr : List (ServerState ι × ServerAction ι)) : List MessageBuffer :=
  tr.flatMap (pushedBy i)

/-- The packets that its `CoReadHandler` runs popped. -/
def popped (i : ι) (tr : List (ServerState ι × ServerAction ι)) : List MessageBuffer :=
  tr.flatMap (poppedBy i)

/-- The packets that wait for a run. -/
def SessionState.waiting (x : SessionState) : List MessageBuffer :=
  if x.lifetime = .absent then [] else x.readBufferQueue.queue

/-- The read queue of an accepted session is not shut down. -/
def SessionState.Open (x : SessionState) : Prop :=
  x.lifetime ≠ .absent → x.readBufferQueue.shutdown = false

/-- What a step does to the read queue of a session. -/
structure QueueStep (x y : SessionState) (popped pushed : List MessageBuffer) (turn : Turn) :
    Prop where
  opened : y.Open
  conserved : popped ++ y.waiting = x.waiting ++ pushed
  length : y.waiting.length = nextBacklog x.waiting.length turn

theorem QueueStep.of_same {x y : SessionState} (hopen : x.Open)
    (hqueue : y.readBufferQueue = x.readBufferQueue)
    (habsent : y.lifetime = .absent ↔ x.lifetime = .absent) : QueueStep x y [] [] .other := by
  have hwaiting : y.waiting = x.waiting := by
    simp only [SessionState.waiting, habsent, hqueue]
  refine ⟨?_, ?_, ?_⟩
  · intro hy
    rw [hqueue]
    exact hopen fun hx => hy (habsent.mpr hx)
  · rw [hwaiting, List.nil_append, List.append_nil]
  · rw [hwaiting, nextBacklog]

theorem QueueStep.accept {x : SessionState} (habsent : x.lifetime = .absent) :
    QueueStep x .accepted [] [] .other := by
  refine ⟨fun _ => rfl, ?_, ?_⟩
  · rw [SessionState.waiting, SessionState.waiting, if_pos habsent]
    rfl
  · rw [SessionState.waiting, SessionState.waiting, if_pos habsent]
    rfl

theorem QueueStep.coroutine {x y : SessionState} {a : CoroutineAction} (hopen : x.Open)
    (haccepted : x.lifetime ≠ .absent) (hstep : x.coroutineStep a = some y) :
    QueueStep x y (poppedFrom x a) (pushedFrom a) (queueTurn a) := by
  obtain ⟨hyopen, hconserved, hlength⟩ := coroutineStep_queue (hopen haccepted) hstep
  have hyaccepted : y.lifetime ≠ .absent := by
    rw [coroutineStep_lifetime hstep]
    exact haccepted
  refine ⟨fun _ => hyopen, ?_, ?_⟩
  · simpa only [SessionState.waiting, if_neg haccepted, if_neg hyaccepted] using hconserved
  · simpa only [SessionState.waiting, if_neg haccepted, if_neg hyaccepted] using hlength

/-- A step of session `k` seen from session `i`. -/
theorem QueueStep.setSession {s : ServerState ι} {k : ι} {y : SessionState}
    {popped pushed : List MessageBuffer} {turn : Turn}
    (hstep : QueueStep (s.sessions k) y popped pushed turn) (i : ι)
    (hopen : (s.sessions i).Open) :
    QueueStep (s.sessions i) ((s.setSession k y).sessions i) (if k = i then popped else [])
      (if k = i then pushed else []) (if k = i then turn else .other) := by
  by_cases hk : k = i
  · subst hk
    simpa only [ServerState.setSession, Function.update_self, if_true] using hstep
  · simp only [ServerState.setSession, Function.update_of_ne (Ne.symm hk), if_neg hk]
    exact .of_same hopen rfl Iff.rfl

/-- A step that leaves the queue of session `k` alone. -/
theorem QueueStep.setSession_same {s : ServerState ι} {k : ι} {y : SessionState} (i : ι)
    (hopen : ∀ j, (s.sessions j).Open)
    (hqueue : y.readBufferQueue = (s.sessions k).readBufferQueue)
    (habsent : y.lifetime = .absent ↔ (s.sessions k).lifetime = .absent) :
    QueueStep (s.sessions i) ((s.setSession k y).sessions i) [] [] .other := by
  have hstep := (QueueStep.of_same (hopen k) hqueue habsent).setSession i (hopen i)
  simpa only [ite_self] using hstep

/-- What any step of the server does to the read queue of a session. -/
theorem serverStep_queue {s s' : ServerState ι} {a : ServerAction ι} (i : ι)
    (hopen : ∀ j, (s.sessions j).Open) (hstep : serverStep s a = some s') :
    QueueStep (s.sessions i) (s'.sessions i) (poppedBy i (s, a)) (pushedBy i (s, a))
      (sessionTurn i a) := by
  cases serverStep_cases hstep with
  | accepts habsent =>
      have hk := (QueueStep.accept habsent).setSession i (hopen i)
      simp only [ite_self] at hk
      exact hk
  | closes => exact .setSession_same i hopen rfl Iff.rfl
  | handles => exact .setSession_same i hopen rfl Iff.rfl
  | removes hlisted => exact .setSession_same i hopen rfl (by simp [hlisted])
  | keeps => exact .of_same (hopen i) rfl Iff.rfl
  | erases hremoved =>
      exact .setSession_same i hopen rfl (by simp [hremoved, SessionState.destroy])
  | @runs k a y haccepted hrun =>
      have hi := (QueueStep.coroutine (hopen k) haccepted hrun).setSession i (hopen i)
      by_cases hki : k = i
      · subst hki
        simpa only [poppedBy, pushedBy, sessionTurn, if_true] using hi
      · simpa only [poppedBy, pushedBy, sessionTurn, if_neg hki] using hi

/-- The account of a run: for every session the packets popped and those that
wait are those pushed, and as many wait as the order of pushes and pops leaves. -/
structure Accounted (tr : List (ServerState ι × ServerAction ι)) (s : ServerState ι) : Prop where
  opened : ∀ i, (s.sessions i).Open
  conserved : ∀ i, popped i tr ++ (s.sessions i).waiting = pushed i tr
  length : ∀ i, (s.sessions i).waiting.length = backlog (tr.map fun p => sessionTurn i p.2)

theorem accounted_run {tr : List (ServerState ι × ServerAction ι)} {s : ServerState ι}
    (hrun : Run (serverSystem ι) tr s) : Accounted tr s := by
  induction hrun with
  | start hinit =>
      refine ⟨?_, ?_, ?_⟩
      · intro i haccepted
        exact absurd (hinit.1 i) haccepted
      · intro i
        rw [SessionState.waiting, if_pos (hinit.1 i)]
        rfl
      · intro i
        rw [SessionState.waiting, if_pos (hinit.1 i)]
        rfl
  | @snoc tr s s' a _ hstep ih =>
      have hqueue (i : ι) := serverStep_queue i ih.opened hstep
      refine ⟨fun i => (hqueue i).opened, ?_, ?_⟩
      · intro i
        simp only [pushed, popped, List.flatMap_append, List.flatMap_singleton]
        rw [List.append_assoc, (hqueue i).conserved, ← List.append_assoc]
        exact congrArg (· ++ _) (ih.conserved i)
      · intro i
        rw [List.map_append, List.map_singleton, backlog_snoc, ← ih.length i]
        exact (hqueue i).length

/-- Over every final stretch of the run as many `CoReadHandler` runs of the
session started as packets were pushed for it. -/
def KeptUp (i : ι) (tr : List (ServerState ι × ServerAction ι)) : Prop :=
  ∀ later, later <:+ tr.map (fun p => sessionTurn i p.2) →
    later.count .arrive ≤ later.count .serve

theorem pushed_eq_popped_iff {tr : List (ServerState ι × ServerAction ι)} {s : ServerState ι}
    (hrun : Run (serverSystem ι) tr s) (i : ι) : pushed i tr = popped i tr ↔ KeptUp i tr := by
  have haccount := accounted_run hrun
  have hempty : pushed i tr = popped i tr ↔ (s.sessions i).waiting.length ≤ 0 := by
    rw [← haccount.conserved i, List.append_right_eq_self, Nat.le_zero, List.length_eq_zero_iff]
  rw [hempty, haccount.length i, backlog_le_iff]
  rfl

/-- Every session that a run erased had had all its packets popped if and only
if, whenever a session was erased, its runs had kept up with its packets. -/
theorem no_packet_lost_iff_kept_up {tr : List (ServerState ι × ServerAction ι)}
    {s : ServerState ι} (hrun : Run (serverSystem ι) tr s) :
    (∀ before p after i, tr = before ++ p :: after → p.2 = .erase i →
        pushed i before = popped i before) ↔
      ∀ before p after i, tr = before ++ p :: after → p.2 = .erase i → KeptUp i before := by
  have hbefore (before p after i) (htr : tr = before ++ p :: after) :=
    pushed_eq_popped_iff (hrun.before htr) i
  constructor
  · intro h before p after i htr herase
    exact (hbefore before p after i htr).mp (h before p after i htr herase)
  · intro h before p after i htr herase
    exact (hbefore before p after i htr).mpr (h before p after i htr herase)

omit [DecidableEq ι] in
/-- The only erasure of a run that ends with one. -/
theorem eq_of_last_erase {tr before after : List (ServerState ι × ServerAction ι)}
    {p : ServerState ι × ServerAction ι} {s : ServerState ι} {i k : ι}
    (hnone : ∀ j, .erase j ∉ tr.map Prod.snd)
    (htr : tr ++ [(s, .erase k)] = before ++ p :: after) (herase : p.2 = .erase i) :
    before = tr ∧ i = k := by
  rcases List.eq_nil_or_concat after with rfl | ⟨middle, last, rfl⟩
  · obtain ⟨rfl, hlast⟩ := List.append_inj' htr rfl
    rw [← (List.cons.inj hlast).1, ServerAction.erase.injEq] at herase
    exact ⟨rfl, herase.symm⟩
  · rw [List.concat_eq_append, ← List.cons_append, ← List.append_assoc] at htr
    obtain ⟨rfl, -⟩ := List.append_inj' htr rfl
    refine absurd ?_ (hnone i)
    rw [List.map_append, List.map_cons, ← herase]
    exact List.mem_append_right _ List.mem_cons_self

/-- One request, which is popped before the peer closes and the session goes. -/
def servedThenClosed : List (ServerAction Unit) :=
  [.accept (), .coroutine () .readStart, .coroutine () (.readDone (.received [71])),
    .readHandler (), .coroutine () (.handlerStart 0 .suspends), .checkClosed (),
    .coroutine () (.readDone .failed), .readHandler (),
    .coroutine () (.handlerStart 1 .suspends), .checkClosed ()]

set_option maxRecDepth 20000 in
theorem no_packet_lost_iff_kept_up_served :
    ∃ tr s, Run (serverSystem Unit) tr s ∧ (s.sessions ()).lifetime = .destroyed ∧
      ∀ before p after i, tr = before ++ p :: after → p.2 = .erase i →
        pushed i before = popped i before := by
  have hinit : ServerInit (emptyServer Unit) := ⟨fun _ => rfl, rfl⟩
  obtain ⟨tr, s, hexec, hremoved, hturns⟩ :
      ∃ tr s, exec serverStep (emptyServer Unit) servedThenClosed = some (tr, s) ∧
        (s.sessions ()).lifetime = .removed ∧
        backlog (tr.map fun p => sessionTurn () p.2) ≤ 0 := ⟨_, _, rfl, rfl, Nat.le_refl 0⟩
  have herase : serverStep s (.erase ()) = some (s.setSession () (s.sessions ()).destroy) := by
    simp only [serverStep, hremoved, if_true]
  have hrun := (run_of_exec hinit hexec).snoc herase
  refine ⟨_, _, hrun, ?_, (no_packet_lost_iff_kept_up hrun).mpr ?_⟩
  · simp only [ServerState.setSession, Function.update_self, SessionState.destroy]
  · intro before p after i htr hp
    have hnone : ∀ j, .erase j ∉ tr.map Prod.snd := by
      rw [exec_actions hexec]
      simp [servedThenClosed]
    obtain ⟨rfl, rfl⟩ := eq_of_last_erase hnone htr hp
    exact (backlog_le_iff _ 0).mp hturns

/-- Two requests and the end of the stream come between two ticks. -/
def closedBetweenTicks : List (ServerAction Unit) :=
  [.accept (), .coroutine () .readStart, .coroutine () (.readDone (.received [71])),
    .coroutine () (.readDone (.received [72])), .coroutine () (.readDone .failed),
    .readHandler (), .coroutine () (.handlerStart 0 .suspends), .checkClosed (), .erase ()]

set_option maxRecDepth 20000 in
/-- The second request is still queued when the session is erased. -/
theorem second_request_lost :
    ∃ tr s, Run (serverSystem Unit) tr s ∧ ∃ before p, tr = before ++ [p] ∧
      p.2 = .erase () ∧ pushed () before ≠ popped () before := by
  have hinit : ServerInit (emptyServer Unit) := ⟨fun _ => rfl, rfl⟩
  have hexec : exec serverStep (emptyServer Unit) closedBetweenTicks = some _ := rfl
  refine ⟨_, _, run_of_exec hinit hexec, List.dropLast _, _,
    (List.dropLast_append_getLast (List.cons_ne_nil _ _)).symm, rfl, ?_⟩
  intro hsame
  have hlength := congrArg List.length hsame
  exact absurd hlength (by decide)

end GameDemoLearn.Net
