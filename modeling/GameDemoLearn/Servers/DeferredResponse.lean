import GameDemoLearn.Database.QueryCallback
import GameDemoLearn.Servers.HttpServer
import GameDemoLearn.Servers.HttpSession

/-!
The logic thread of `HttpServer` (`HttpServer.cpp`, `HttpSession.cpp`) and the
work that its handlers leave behind: posted tasks, and callbacks that a tick runs
once a database thread has answered their query. The steps come in any order. No
handler of `InitHttpRouter` suspends, so a `CoReadHandler` run is one step.
-/

namespace GameDemoLearn.Servers

open Transition Database Net Net.Http

/-- A request is known by its session and the number of its packet there. -/
structure Request (ι : Type) where
  session : ι
  packet : Nat
  deriving DecidableEq

/-- A handler left work for its request, that work ran, or the payload of the
request was built and queued. -/
inductive WorkEvent (ι : Type)
  | left (request : Request ι)
  | ran (request : Request ι)
  | payload (request : Request ι) (message : Bytes)
  deriving DecidableEq

/-- What tasks and callbacks can change, the packets popped so far, and what the
database threads answered. -/
structure LogicWorld (ι : Type) where
  sessions : ι → HttpSession
  popped : ι → Nat
  answers : Nat → Option (QueryOutcome (Option AccountRow))
  log : List (WorkEvent ι)

structure LogicThread (ι : Type) where
  world : LogicWorld ι
  tasks : List (Request ι × List ResponseCall)
  queryCallbackProcessor :
    QueryCallbackProcessor (Request ι × (Option AccountRow → List ResponseCall))
  queries : Nat
  ended : Bool

inductive LogicAction (ι : Type)
  | push (i : ι) (data : Bytes)
  | coReadHandler (i : ι) (now : Bytes)
  | runTask (task : Nat)
  | processReadyCallbacks
  | answerQuery (query : Nat) (outcome : QueryOutcome (Option AccountRow))

variable {ι : Type} [DecidableEq ι]

/-- Work that was left for a request sets the response of its session. -/
def LogicWorld.fill (w : LogicWorld ι) (request : Request ι) (calls : List ResponseCall) :
    LogicWorld ι :=
  let session := w.sessions request.session
  { w with
    sessions := Function.update w.sessions request.session
      { session with rep := calls.foldl HttpResponse.apply session.rep }
    log := w.log ++ [.ran request] }

/-- `InvokeIfReady` of a callback that a handler registered. -/
def invokeRespond : LogicWorld ι →
    QueryCallback (Request ι × (Option AccountRow → List ResponseCall)) →
    Invocation (LogicWorld ι)
      (QueryCallback (Request ι × (Option AccountRow → List ResponseCall))) :=
  invokeQuery LogicWorld.answers fun w function result =>
    ⟨w.fill function.1 (function.2 result), [], false⟩

namespace LogicThread

/-- A handler posts a task, or starts a query and adds its callback. -/
def leave (s : LogicThread ι) (request : Request ι) : Deferred → LogicThread ι
  | .task calls =>
      { s with
        world := { s.world with log := s.world.log ++ [.left request] }
        tasks := s.tasks ++ [(request, calls)] }
  | .query respond =>
      { s with
        world := { s.world with log := s.world.log ++ [.left request] }
        queryCallbackProcessor := s.queryCallbackProcessor.addCallback
          ((QueryCallback.create ⟨.prepared, some s.queries⟩).andThen
            ⟨.prepared, request, respond⟩)
        queries := s.queries + 1 }

/-- A `CoReadHandler` run of session `i` that popped a packet. -/
def handled (s : LogicThread ι) (i : ι) (session : HttpSession) (events : List SessionEvent) :
    LogicThread ι :=
  let request := ⟨i, s.world.popped i⟩
  let popped := { s with world := { s.world with
    sessions := Function.update s.world.sessions i session
    popped := Function.update s.world.popped i (s.world.popped i + 1) } }
  let left := (leftBehind session.router session.req events).foldl (leave · request) popped
  { left with world := { left.world with
    log := left.world.log ++ (sentMessages events).map fun message => .payload request message } }

end LogicThread

/-- The steps of the logic thread, of `ReadLoop` and of the database threads. An
exception that leaves `Update` ends the logic thread. -/
def logicStep (s : LogicThread ι) : LogicAction ι → Option (LogicThread ι)
  | .push i data =>
      (sessionStep ⟨s.world.sessions i, []⟩ (.push data)).map fun after =>
        { s with world := { s.world with
          sessions := Function.update s.world.sessions i after.session } }
  | .coReadHandler i now =>
      if s.ended then
        none
      else
        let session := s.world.sessions i
        (session.coReadHandler now).map fun after =>
          match session.readBufferQueue.pop.1 with
          | some _ => s.handled i after.1 after.2
          | none => s
  | .runTask task =>
      if s.ended then
        none
      else
        (s.tasks[task]?).map fun posted =>
          { s with
            world := s.world.fill posted.1 posted.2
            tasks := s.tasks.eraseIdx task }
  | .processReadyCallbacks =>
      if s.ended then
        none
      else
        let after := s.queryCallbackProcessor.processReadyCallbacks invokeRespond s.world
        some { s with
          world := after.world
          queryCallbackProcessor := after.processor
          ended := after.ending ≠ .returned }
  | .answerQuery query outcome =>
      if query < s.queries ∧ (s.world.answers query).isNone then
        some { s with world := { s.world with
          answers := Function.update s.world.answers query (some outcome) } }
      else
        none

def LogicThread.create (router : HttpRouter) : LogicThread ι :=
  ⟨⟨fun _ => .create router, fun _ => 0, fun _ => none, []⟩, [], ⟨[]⟩, 0, false⟩

/-- The server with the routes of `InitHttpRouter`. The statement that two of
them need is registered or not. -/
def logicSystem (ι : Type) [DecidableEq ι] (registered : Bool)
    (syncQuery : HttpRequest.View → Option AccountRow) : System (LogicThread ι) (LogicAction ι) :=
  System.ofStep (fun s => s = .create (initHttpRouter (user1Handler registered)
    (user2Handler registered syncQuery))) logicStep

/-- When the payload of a request is built, all work that is ever left for the
request has run. -/
def PayloadsAfterWork (log : List (WorkEvent ι)) : Prop :=
  ∀ before request message after, log = before ++ .payload request message :: after →
    log.count (.left request) ≤ before.count (.ran request)

/-- The routes whose handlers leave work behind. -/
def deferringRoutes (registered : Bool) : List Bytes :=
  Bytes.ofString "GET /task" :: if registered then [Bytes.ofString "GET /user1"] else []

/-- What the next `CoReadHandler` run of session `i` is going to look up. -/
def LogicThread.nextRoute (s : LogicThread ι) (i : ι) : Option Bytes :=
  match (s.world.sessions i).readBufferQueue.queue with
  | packet :: _ =>
      let req := ((s.world.sessions i).req.parse packet.readable).2
      some (HttpRouter.wholeName req.getMethod req.getPath)
  | [] => none

/-- The step handles a request whose handler leaves work behind. -/
def LeavesWork (registered : Bool) (s : LogicThread ι) : LogicAction ι → Prop
  | .coReadHandler i _ => ∃ route ∈ deferringRoutes registered, s.nextRoute i = some route
  | _ => False

instance (registered : Bool) (s : LogicThread ι) (a : LogicAction ι) :
    Decidable (LeavesWork registered s a) :=
  match a with
  | .coReadHandler i _ => inferInstanceAs
      (Decidable (∃ route ∈ deferringRoutes registered, s.nextRoute i = some route))
  | .push _ _ => .isFalse id
  | .runTask _ => .isFalse id
  | .processReadyCallbacks => .isFalse id
  | .answerQuery _ _ => .isFalse id

theorem completes_foldr_call (calls : List ResponseCall) :
    (calls.foldr HandlerRun.call .returns).Completes := by
  induction calls with
  | nil => trivial
  | cons c rest ih => exact ih

theorem leaves_foldr_call (calls : List ResponseCall) :
    (calls.foldr HandlerRun.call .returns).leaves = [] := by
  induction calls with
  | nil => rfl
  | cons c rest ih => exact ih

/-- No handler of `InitHttpRouter` suspends. -/
theorem completes_shipped (registered : Bool)
    (syncQuery : HttpRequest.View → Option AccountRow) :
    (initHttpRouter (user1Handler registered) (user2Handler registered syncQuery)).Completes := by
  apply completes_initHttpRouter
  · intro view
    cases registered with
    | true => trivial
    | false => exact completes_unregisteredHandler view
  · intro view
    cases registered with
    | true => exact completes_foldr_call _
    | false => exact completes_unregisteredHandler view

/-- The work that the handler found for a name leaves. -/
def leavesAt (router : HttpRouter) (name : Bytes) (view : HttpRequest.View) : List Deferred :=
  match router.find name with
  | some handler => (handler view).leaves
  | none => []

/-- Work is left at the deferring routes and only there. -/
theorem leavesAt_ne_nil_iff (registered : Bool)
    (syncQuery : HttpRequest.View → Option AccountRow) (name : Bytes) (view : HttpRequest.View) :
    leavesAt (initHttpRouter (user1Handler registered) (user2Handler registered syncQuery))
      name view ≠ [] ↔ name ∈ deferringRoutes registered := by
  have hroot : Bytes.ofString "GET /" ∉ deferringRoutes registered := by
    cases registered <;> decide +kernel
  have huser2 : Bytes.ofString "GET /user2" ∉ deferringRoutes registered := by
    cases registered <;> decide +kernel
  by_cases h1 : name = Bytes.ofString "GET /"
  · subst h1
    exact iff_of_false (fun h => h rfl) hroot
  by_cases h2 : name = Bytes.ofString "GET /user1"
  · subst h2
    cases registered with
    | true => exact iff_of_true (List.cons_ne_nil _ _) (by decide +kernel)
    | false => exact iff_of_false (fun h => h rfl) (by decide +kernel)
  by_cases h3 : name = Bytes.ofString "GET /user2"
  · subst h3
    refine iff_of_false (fun h => h ?_) huser2
    cases registered with
    | true => exact leaves_foldr_call _
    | false => rfl
  by_cases h4 : name = Bytes.ofString "GET /task"
  · subst h4
    exact iff_of_true (List.cons_ne_nil _ _) List.mem_cons_self
  · have hnone : leavesAt (initHttpRouter (user1Handler registered)
        (user2Handler registered syncQuery)) name view = [] := by
      simp only [initHttpRouter_eq, leavesAt, HttpRouter.find, List.find?_cons,
        beq_false_of_ne (Ne.symm h1), beq_false_of_ne (Ne.symm h2), beq_false_of_ne (Ne.symm h3),
        beq_false_of_ne (Ne.symm h4), List.find?_nil, Option.map_none]
    refine iff_of_false (fun h => h hnone) ?_
    cases registered with
    | true => simp [deferringRoutes, h2, h4]
    | false => simp [deferringRoutes, h4]

theorem leftBehind_routed (s : HttpSession) (message : MessageBuffer) :
    leftBehind s.router s.req (s.routeEvents ++ [.sent message])
      = leavesAt s.router (HttpRouter.wholeName s.req.getMethod s.req.getPath) s.req.view := by
  simp only [leftBehind, HttpSession.routeEvents, leavesAt]
  cases hfind : s.router.find (HttpRouter.wholeName s.req.getMethod s.req.getPath) with
  | none => rfl
  | some handler =>
      simp only [Option.isSome_some, if_true, List.flatMap_append, List.flatMap_cons,
        List.flatMap_nil, List.nil_append, List.append_nil, hfind]

/-- The packet of the request has been popped. -/
def LogicWorld.Known (w : LogicWorld ι) (request : Request ι) : Prop :=
  request.packet < w.popped request.session

structure LogicWorld.Sound (router : HttpRouter) (w : LogicWorld ι) : Prop where
  sessions : ∀ i, (w.sessions i).Sound ∧ (w.sessions i).router = router
  ran : ∀ request, .ran request ∈ w.log → w.Known request

/-- The invariant: the sessions are as `ReadLoop` and `SetRouter` leave them, and
work is left or done only for requests that have been popped. -/
structure LogicThread.Sound (router : HttpRouter) (s : LogicThread ι) : Prop where
  world : s.world.Sound router
  tasks : ∀ task ∈ s.tasks, s.world.Known task.1
  callbacks : ∀ q ∈ s.queryCallbackProcessor.callbacks, ∀ data ∈ q.callbacks,
    s.world.Known data.function.1

theorem LogicWorld.sound_setSession {router : HttpRouter} {w : LogicWorld ι} (hw : w.Sound router)
    (i : ι) (session : HttpSession) (hsound : session.Sound) (hrouter : session.router = router) :
    ({ w with sessions := Function.update w.sessions i session } : LogicWorld ι).Sound router := by
  refine ⟨?_, hw.ran⟩
  intro k
  by_cases hk : k = i
  · subst hk
    simpa only [Function.update_self] using ⟨hsound, hrouter⟩
  · simpa only [Function.update_of_ne hk] using hw.sessions k

theorem LogicWorld.Sound.fill {router : HttpRouter} {w : LogicWorld ι} (hw : w.Sound router)
    {request : Request ι} (hknown : w.Known request) (calls : List ResponseCall) :
    (w.fill request calls).Sound router := by
  obtain ⟨hsound, hrouter⟩ := hw.sessions request.session
  have hset := LogicWorld.sound_setSession hw request.session
    { w.sessions request.session with
      rep := calls.foldl HttpResponse.apply (w.sessions request.session).rep }
    ⟨hsound.shutdown, hsound.packets⟩ hrouter
  refine ⟨hset.sessions, ?_⟩
  intro other hother
  simp only [LogicWorld.fill, List.mem_append, List.mem_singleton, WorkEvent.ran.injEq] at hother
  rcases hother with hbefore | rfl
  · exact hw.ran other hbefore
  · exact hknown

/-- The world went on by running work only. -/
def OnlyRan (w w' : LogicWorld ι) : Prop :=
  w'.popped = w.popped ∧ ∃ requests : List (Request ι), w'.log = w.log ++ requests.map .ran

omit [DecidableEq ι] in
theorem OnlyRan.refl (w : LogicWorld ι) : OnlyRan w w :=
  ⟨rfl, [], (List.append_nil _).symm⟩

theorem OnlyRan.fill {w w' : LogicWorld ι} (h : OnlyRan w w') (request : Request ι)
    (calls : List ResponseCall) : OnlyRan w (w'.fill request calls) := by
  obtain ⟨hpopped, requests, hlog⟩ := h
  refine ⟨hpopped, requests ++ [request], ?_⟩
  rw [List.map_append, ← List.append_assoc, ← hlog]
  rfl

/-- Processing the callbacks runs work only, and leaves callbacks of the same
requests. -/
theorem processReadyCallbacks_onlyRan {router : HttpRouter} {s : LogicThread ι}
    (hs : s.Sound router) :
    let after := s.queryCallbackProcessor.processReadyCallbacks invokeRespond s.world
    (after.world.Sound router ∧ OnlyRan s.world after.world) ∧
      ∀ q ∈ after.processor.callbacks, ∀ data ∈ q.callbacks, s.world.Known data.function.1 := by
  apply AsyncCallbackProcessor.processReadyCallbacks_invariant invokeRespond
    (fun w => w.Sound router ∧ OnlyRan s.world w)
    (fun q => ∀ data ∈ q.callbacks, s.world.Known data.function.1) _ s.world
    s.queryCallbackProcessor ⟨hs.world, .refl s.world⟩ hs.callbacks
  intro w q hw hq
  rcases q.invokeIfReady_cases (fun _ (_ : Option AccountRow) => false)
      (q.queryFuture.promise.bind w.answers)
    with ⟨hcalled, hcallbacks⟩ | ⟨front, rest, result, hqueue, hcalled, hcallbacks⟩
  · simp only [invokeRespond, invokeQuery, hcalled, hcallbacks]
    exact ⟨hw, hq, List.forall_mem_nil _⟩
  · have hfront : s.world.Known front.function.1 := by
      apply hq
      rw [hqueue]
      exact List.mem_cons_self
    have hknown : w.Known front.function.1 := by
      rw [LogicWorld.Known, hw.2.1]
      exact hfront
    simp only [invokeRespond, invokeQuery, hcalled]
    refine ⟨⟨hw.1.fill hknown _, hw.2.fill _ _⟩, ?_, List.forall_mem_nil _⟩
    intro data hdata
    apply hq
    rw [hqueue]
    rcases hcallbacks with hsame | hrest
    · rw [hsame] at hdata
      exact hdata
    · rw [hrest] at hdata
      exact List.mem_cons_of_mem _ hdata

omit [DecidableEq ι] in
/-- Leaving work is logged, and the work is of the given request. -/
theorem foldl_leave_spec (request : Request ι) (works : List Deferred) (s : LogicThread ι) :
    let after := works.foldl (LogicThread.leave · request) s
    after.world = { s.world with log := s.world.log ++ works.map fun _ => .left request } ∧
      (∀ task ∈ after.tasks, task ∈ s.tasks ∨ task.1 = request) ∧
      ∀ q ∈ after.queryCallbackProcessor.callbacks,
        q ∈ s.queryCallbackProcessor.callbacks ∨
          ∀ data ∈ q.callbacks, data.function.1 = request := by
  induction works generalizing s with
  | nil =>
      refine ⟨?_, fun task htask => .inl htask, fun q hq => .inl hq⟩
      rw [List.map_nil, List.append_nil]
      rfl
  | cons work rest ih =>
      obtain ⟨hworld, htasks, hcallbacks⟩ := ih (s.leave request work)
      cases work with
      | task calls =>
          refine ⟨?_, ?_, hcallbacks⟩
          · rw [List.foldl_cons, hworld]
            simp only [LogicThread.leave, List.map_cons, List.append_assoc, List.singleton_append]
          · intro posted hposted
            rcases htasks posted hposted with hold | hnew
            · rcases List.mem_append.mp hold with hold | hnew
              · exact .inl hold
              · rw [List.mem_singleton] at hnew
                exact .inr (by rw [hnew])
            · exact .inr hnew
      | query respond =>
          refine ⟨?_, htasks, ?_⟩
          · rw [List.foldl_cons, hworld]
            simp only [LogicThread.leave, List.map_cons, List.append_assoc, List.singleton_append]
          · intro q hq
            rcases hcallbacks q hq with hold | hnew
            · rcases List.mem_append.mp hold with hold | hnew
              · exact .inl hold
              · rw [List.mem_singleton] at hnew
                subst hnew
                exact .inr (List.forall_mem_singleton.mpr rfl)
            · exact .inr hnew

/-- A run that pops a packet sends one message, since its handler does not wait. -/
theorem coReadHandler_completes {router : HttpRouter} (hcompletes : router.Completes)
    {s : HttpSession} (hs : s.Sound) (hrouter : s.router = router) {packet : MessageBuffer}
    {rest : List MessageBuffer} (hqueue : s.readBufferQueue.queue = packet :: rest) (now : Bytes) :
    ∃ after message, s.coReadHandler now
        = some (after, (s.popped packet rest).routeEvents ++ [.sent message]) ∧
      after.Sound ∧ after.router = router ∧ after.req = (s.req.parse packet.readable).2 := by
  subst hrouter
  have hdone := HttpRouter.route_completes hcompletes (s.req.parse packet.readable).2 s.rep
  rcases hroute : s.router.route (s.req.parse packet.readable).2 s.rep with ⟨rep, waits⟩
  rw [hroute] at hdone
  subst hdone
  obtain ⟨message, hanswer, -⟩ := (s.popped packet rest).routeAndAnswer_done hroute now
  rw [hs.coReadHandler_eq hqueue]
  refine ⟨_, message, hanswer, ⟨hs.shutdown, ?_⟩, rfl, rfl⟩
  intro other hother
  apply hs.packets other
  rw [hqueue]
  exact List.mem_cons_of_mem _ hother

/-- The next request of a session and the work that its handler leaves. -/
def nextWork (router : HttpRouter) (session : HttpSession) (packet : MessageBuffer) :
    List Deferred :=
  let req := (session.req.parse packet.readable).2
  leavesAt router (HttpRouter.wholeName req.getMethod req.getPath) req.view

/-- A run that pops a packet registers the work of its handler and then builds
the payload. -/
theorem LogicThread.Sound.handled {router : HttpRouter} (hcompletes : router.Completes)
    {s : LogicThread ι} (hs : s.Sound router) {i : ι} {packet : MessageBuffer}
    {rest : List MessageBuffer}
    (hqueue : (s.world.sessions i).readBufferQueue.queue = packet :: rest)
    {after : HttpSession × List SessionEvent} {now : Bytes}
    (hafter : (s.world.sessions i).coReadHandler now = some after) :
    (s.handled i after.1 after.2).Sound router ∧
      ∃ message, (s.handled i after.1 after.2).world.log = s.world.log
        ++ (nextWork router (s.world.sessions i) packet).map
          (fun _ => .left ⟨i, s.world.popped i⟩)
        ++ [.payload ⟨i, s.world.popped i⟩ message] := by
  obtain ⟨hsound, hrouter⟩ := hs.world.sessions i
  obtain ⟨session, message, hrun, hsession, hkeeps, hreq⟩ :=
    coReadHandler_completes hcompletes hsound hrouter hqueue now
  rw [hrun, Option.some.injEq] at hafter
  subst hafter
  have hwork : leftBehind session.router session.req
      (((s.world.sessions i).popped packet rest).routeEvents ++ [.sent message])
      = nextWork router (s.world.sessions i) packet := by
    rw [hkeeps, hreq, ← hrouter]
    exact leftBehind_routed ((s.world.sessions i).popped packet rest) message
  have hsent : sentMessages (((s.world.sessions i).popped packet rest).routeEvents
      ++ [.sent message]) = [message.readable] := by
    rw [sentMessages_append, sentMessages_routeEvents]
    rfl
  have hknown (request : Request ι) (h : s.world.Known request) :
      request.packet < Function.update s.world.popped i (s.world.popped i + 1) request.session := by
    by_cases hi : request.session = i
    · rw [hi, Function.update_self]
      rw [LogicWorld.Known, hi] at h
      omega
    · rw [Function.update_of_ne hi]
      exact h
  have hnew : s.world.popped i < Function.update s.world.popped i (s.world.popped i + 1) i := by
    rw [Function.update_self]
    exact Nat.lt_succ_self _
  obtain ⟨hworld, htasks, hcallbacks⟩ := foldl_leave_spec ⟨i, s.world.popped i⟩
    (nextWork router (s.world.sessions i) packet) { s with world := { s.world with
      sessions := Function.update s.world.sessions i session
      popped := Function.update s.world.popped i (s.world.popped i + 1) } }
  simp only [LogicThread.handled, hwork, hsent, hworld, List.map_singleton]
  refine ⟨⟨⟨?_, ?_⟩, ?_, ?_⟩, message.readable, rfl⟩
  · exact (LogicWorld.sound_setSession hs.world i session hsession hkeeps).sessions
  · intro request hran
    simp only [List.mem_append, List.mem_map, reduceCtorEq, and_false, exists_false, or_false,
      List.mem_singleton] at hran
    exact hknown request (hs.world.ran request hran)
  · intro task htask
    simp only [LogicWorld.Known]
    rcases htasks task htask with hold | hrequest
    · exact hknown task.1 (hs.tasks task hold)
    · rw [hrequest]
      exact hnew
  · intro q hq data hdata
    simp only [LogicWorld.Known]
    rcases hcallbacks q hq with hold | hrequest
    · exact hknown _ (hs.callbacks q hold data hdata)
    · rw [hrequest data hdata]
      exact hnew

/-- The step pops the next packet of session `i`. -/
def Pops (s : LogicThread ι) (a : LogicAction ι) (i : ι) (packet : MessageBuffer) : Prop :=
  ∃ now rest, a = .coReadHandler i now ∧
    (s.world.sessions i).readBufferQueue.queue = packet :: rest

omit [DecidableEq ι] in
/-- Only a run of `CoReadHandler` pops. -/
theorem not_pops {s : LogicThread ι} {a : LogicAction ι}
    (ha : ∀ i now, a ≠ .coReadHandler i now) (i : ι) (packet : MessageBuffer) :
    ¬ Pops s a i packet := by
  rintro ⟨now, rest, hsame, -⟩
  exact ha i now hsame

/-- What a step adds to the log: work that ran, or the work and the payload of
the request that it pops. -/
theorem logicStep_cases {router : HttpRouter} (hcompletes : router.Completes)
    {s s' : LogicThread ι} {a : LogicAction ι} (hs : s.Sound router)
    (hstep : logicStep s a = some s') :
    s'.Sound router ∧
      ((OnlyRan s.world s'.world ∧ ∀ i packet, ¬ Pops s a i packet) ∨
        ∃ i packet message, Pops s a i packet ∧ s'.world.log = s.world.log
          ++ (nextWork router (s.world.sessions i) packet).map
            (fun _ => .left ⟨i, s.world.popped i⟩)
          ++ [.payload ⟨i, s.world.popped i⟩ message]) := by
  cases a with
  | push i data =>
      obtain ⟨after, hafter, rfl⟩ := Option.map_eq_some_iff.mp hstep
      obtain ⟨hsound, hrouter⟩ := hs.world.sessions i
      have hafterSound := HttpSession.Sound.step hsound hafter
      have hsame : after.session.router = router := by
        simp only [sessionStep] at hafter
        split at hafter
        · cases hafter
        · obtain ⟨packet, -, rfl⟩ := Option.map_eq_some_iff.mp hafter
          exact hrouter
      have hset := LogicWorld.sound_setSession hs.world i after.session hafterSound hsame
      exact ⟨⟨hset, hs.tasks, hs.callbacks⟩,
        .inl ⟨⟨rfl, [], (List.append_nil _).symm⟩, not_pops fun _ _ h => by cases h⟩⟩
  | coReadHandler i now =>
      simp only [logicStep] at hstep
      split at hstep
      · cases hstep
      · obtain ⟨after, hafter, rfl⟩ := Option.map_eq_some_iff.mp hstep
        obtain ⟨hsound, -⟩ := hs.world.sessions i
        rw [ProducerConsumerQueue.pop_open hsound.shutdown]
        cases hqueue : (s.world.sessions i).readBufferQueue.queue with
        | nil =>
            refine ⟨hs, .inl ⟨.refl s.world, ?_⟩⟩
            rintro k packet ⟨now', rest, ha, hpacket⟩
            cases ha
            rw [hqueue] at hpacket
            cases hpacket
        | cons packet rest =>
            obtain ⟨hhandled, message, hlog⟩ := hs.handled hcompletes hqueue hafter
            exact ⟨hhandled, .inr ⟨i, packet, message, ⟨now, rest, rfl, hqueue⟩, hlog⟩⟩
  | runTask task =>
      simp only [logicStep] at hstep
      split at hstep
      · cases hstep
      · obtain ⟨posted, hposted, rfl⟩ := Option.map_eq_some_iff.mp hstep
        have hknown := hs.tasks posted (List.mem_of_getElem? hposted)
        refine ⟨⟨hs.world.fill hknown posted.2, ?_, hs.callbacks⟩,
          .inl ⟨?_, not_pops fun _ _ h => by cases h⟩⟩
        · intro other hother
          exact hs.tasks other (List.mem_of_mem_eraseIdx hother)
        · exact (OnlyRan.refl s.world).fill posted.1 posted.2
  | processReadyCallbacks =>
      simp only [logicStep] at hstep
      split at hstep
      · cases hstep
      · cases hstep
        obtain ⟨⟨hworld, hran⟩, hcallbacks⟩ := processReadyCallbacks_onlyRan hs
        have hknown (request : Request ι) (h : s.world.Known request) :
            LogicWorld.Known (s.queryCallbackProcessor.processReadyCallbacks invokeRespond
              s.world).world request := by
          rw [LogicWorld.Known, hran.1]
          exact h
        refine ⟨⟨hworld, ?_, ?_⟩, .inl ⟨hran, not_pops fun _ _ h => by cases h⟩⟩
        · intro task htask
          exact hknown task.1 (hs.tasks task htask)
        · intro q hq data hdata
          exact hknown _ (hcallbacks q hq data hdata)
  | answerQuery query outcome =>
      simp only [logicStep] at hstep
      split at hstep
      · cases hstep
        exact ⟨⟨⟨hs.world.sessions, hs.world.ran⟩, hs.tasks, hs.callbacks⟩,
          .inl ⟨⟨rfl, [], (List.append_nil _).symm⟩, not_pops fun _ _ h => by cases h⟩⟩
      · cases hstep

omit [DecidableEq ι] in
theorem LogicThread.sound_create (router : HttpRouter) :
    (LogicThread.create router : LogicThread ι).Sound router := by
  refine ⟨⟨fun i => ⟨HttpSession.sound_create router, rfl⟩, ?_⟩, ?_, ?_⟩
  · intro request hran
    cases hran
  · intro task htask
    cases htask
  · intro q hq
    cases hq

/-- A log with a violation keeps it. -/
theorem PayloadsAfterWork.of_append {log more : List (WorkEvent ι)}
    (h : PayloadsAfterWork (log ++ more)) : PayloadsAfterWork log := by
  intro before request message after hlog
  have hcount : log.count (.left request) ≤ (log ++ more).count (.left request) := by
    rw [List.count_append]
    exact Nat.le_add_right _ _
  apply hcount.trans
  apply h before request message (after ++ more)
  rw [hlog, List.append_assoc, List.cons_append]

/-- A payload built in the step that registers the work comes before it. -/
theorem not_payloadsAfterWork {log : List (WorkEvent ι)} {request : Request ι}
    (hfresh : .ran request ∉ log) {works : List Deferred} (hworks : works ≠ []) (message : Bytes) :
    ¬ PayloadsAfterWork (log ++ works.map (fun _ => .left request)
      ++ [.payload request message]) := by
  intro h
  have hle := h (log ++ works.map fun _ => .left request) request message [] rfl
  have hran : (log ++ works.map fun _ => WorkEvent.left request).count (.ran request) = 0 := by
    rw [List.count_eq_zero]
    simp [hfresh]
  rw [hran, Nat.le_zero, List.count_eq_zero] at hle
  apply hle
  obtain ⟨work, hwork⟩ := List.exists_mem_of_ne_nil works hworks
  simp only [List.mem_append, List.mem_map]
  exact .inl (.inr ⟨work, hwork, trivial⟩)

omit [DecidableEq ι] in
theorem Pops.unique {s : LogicThread ι} {a : LogicAction ι} {i k : ι}
    {packet packet' : MessageBuffer} (h : Pops s a i packet) (h' : Pops s a k packet') :
    i = k ∧ packet = packet' := by
  obtain ⟨now, rest, rfl, hqueue⟩ := h
  obtain ⟨now', rest', ha, hqueue'⟩ := h'
  cases ha
  rw [hqueue] at hqueue'
  exact ⟨rfl, (List.cons.inj hqueue').1⟩

omit [DecidableEq ι] in
/-- A step leaves work exactly if the handler of the packet that it pops does. -/
theorem leavesWork_iff (registered : Bool) (syncQuery : HttpRequest.View → Option AccountRow)
    (s : LogicThread ι) (a : LogicAction ι) :
    LeavesWork registered s a ↔ ∃ i packet, Pops s a i packet ∧
      nextWork (initHttpRouter (user1Handler registered) (user2Handler registered syncQuery))
        (s.world.sessions i) packet ≠ [] := by
  constructor
  · intro h
    cases a with
    | coReadHandler i now =>
        obtain ⟨route, hroute, hnext⟩ := h
        simp only [LogicThread.nextRoute] at hnext
        cases hqueue : (s.world.sessions i).readBufferQueue.queue with
        | nil =>
            rw [hqueue] at hnext
            cases hnext
        | cons packet rest =>
            rw [hqueue, Option.some.injEq] at hnext
            refine ⟨i, packet, ⟨now, rest, rfl, hqueue⟩, ?_⟩
            apply (leavesAt_ne_nil_iff registered syncQuery _ _).mpr
            rw [hnext]
            exact hroute
    | _ => exact h.elim
  · rintro ⟨i, packet, ⟨now, rest, rfl, hqueue⟩, hwork⟩
    refine ⟨_, (leavesAt_ne_nil_iff registered syncQuery _ _).mp hwork, ?_⟩
    simp only [LogicThread.nextRoute, hqueue]

/-- What the log of a run says about its steps: it has no work without a step
that leaves some, and such a step spoils it. -/
theorem logic_run_log {registered : Bool} {syncQuery : HttpRequest.View → Option AccountRow}
    {tr : List (LogicThread ι × LogicAction ι)} {s : LogicThread ι}
    (hrun : Run (logicSystem ι registered syncQuery) tr s) :
    s.Sound (initHttpRouter (user1Handler registered) (user2Handler registered syncQuery)) ∧
      ((∀ p ∈ tr, ¬ LeavesWork registered p.1 p.2) → ∀ request, .left request ∉ s.world.log) ∧
      (PayloadsAfterWork s.world.log → ∀ p ∈ tr, ¬ LeavesWork registered p.1 p.2) := by
  induction hrun with
  | start hinit =>
      cases hinit
      refine ⟨LogicThread.sound_create _, ?_, fun _ => List.forall_mem_nil _⟩
      intro _ request hleft
      cases hleft
  | @snoc tr s s' a _ hstep ih =>
      obtain ⟨hs, hnone, hsafe⟩ := ih
      obtain ⟨hs', hcases⟩ := logicStep_cases (completes_shipped registered syncQuery) hs hstep
      have hleaves := leavesWork_iff registered syncQuery s a
      simp only [List.forall_mem_append, List.forall_mem_singleton]
      rcases hcases with ⟨⟨-, requests, hlog⟩, hpops⟩ | ⟨i, packet, message, hpops, hlog⟩
      · rw [hlog]
        refine ⟨hs', ?_, ?_⟩
        · rintro ⟨hbefore, -⟩ request hleft
          simp only [List.mem_append, List.mem_map, reduceCtorEq, and_false, exists_false,
            or_false] at hleft
          exact hnone hbefore request hleft
        · intro hafter
          refine ⟨hsafe hafter.of_append, ?_⟩
          intro hleave
          obtain ⟨i, packet, hpop, -⟩ := hleaves.mp hleave
          exact hpops i packet hpop
      · rw [hlog]
        refine ⟨hs', ?_, ?_⟩
        · rintro ⟨hbefore, hkeeps⟩ request hleft
          have hwork : nextWork (initHttpRouter (user1Handler registered)
              (user2Handler registered syncQuery)) (s.world.sessions i) packet = [] := by
            by_contra hwork
            exact hkeeps (hleaves.mpr ⟨i, packet, hpops, hwork⟩)
          rw [hwork, List.map_nil, List.append_nil, List.mem_append, List.mem_singleton] at hleft
          rcases hleft with hleft | hleft
          · exact hnone hbefore request hleft
          · cases hleft
        · intro hafter
          have hprior := hafter
          rw [List.append_assoc] at hprior
          refine ⟨hsafe hprior.of_append, ?_⟩
          intro hleave
          obtain ⟨k, packet', hpops', hwork⟩ := hleaves.mp hleave
          obtain ⟨rfl, rfl⟩ := hpops.unique hpops'
          have hfresh : .ran ⟨i, s.world.popped i⟩ ∉ s.world.log := fun hran =>
            absurd (hs.world.ran _ hran) (Nat.lt_irrefl _)
          exact not_payloadsAfterWork hfresh hwork message hafter

/-- In a run of the server every payload is built after the work of its request
if and only if no request was for a route that leaves work behind. -/
theorem payloads_after_work_iff {registered : Bool}
    {syncQuery : HttpRequest.View → Option AccountRow}
    {tr : List (LogicThread ι × LogicAction ι)} {s : LogicThread ι}
    (hrun : Run (logicSystem ι registered syncQuery) tr s) :
    PayloadsAfterWork s.world.log ↔ ∀ p ∈ tr, ¬ LeavesWork registered p.1 p.2 := by
  obtain ⟨-, hnone, hsafe⟩ := logic_run_log hrun
  constructor
  · exact hsafe
  · intro hkeeps before request message after _
    rw [List.count_eq_zero.mpr (hnone hkeeps request)]
    exact Nat.zero_le _

theorem run_of_logic_exec {registered : Bool} {syncQuery : HttpRequest.View → Option AccountRow}
    {actions : List (LogicAction ι)} {tr : List (LogicThread ι × LogicAction ι)}
    {s : LogicThread ι}
    (hexec : exec logicStep (.create (initHttpRouter (user1Handler registered)
      (user2Handler registered syncQuery))) actions = some (tr, s)) :
    Run (logicSystem ι registered syncQuery) tr s := by
  have hinit : (logicSystem ι registered syncQuery).init (.create (initHttpRouter
      (user1Handler registered) (user2Handler registered syncQuery))) := rfl
  exact run_of_exec hinit hexec

theorem payloads_after_work_iff_root :
    ∃ (tr : List (LogicThread Unit × LogicAction Unit)) (s : LogicThread Unit),
      Run (logicSystem Unit true fun _ => none) tr s ∧ s.world.log.length = 1 ∧
        PayloadsAfterWork s.world.log := by
  have hresult : (exec logicStep (.create (initHttpRouter (user1Handler true)
        (user2Handler true fun _ => none)) : LogicThread Unit)
        [.push () rootRequest, .coReadHandler () []]).map
        (fun result => (decide (∀ p ∈ result.1, ¬ LeavesWork true p.1 p.2),
          result.2.world.log.length))
      = some (true, 1) := by decide +kernel
  obtain ⟨⟨tr, s⟩, hexec, hpair⟩ := Option.map_eq_some_iff.mp hresult
  obtain ⟨hkeeps, hlength⟩ := Prod.mk.inj hpair
  have hrun := run_of_logic_exec hexec
  exact ⟨tr, s, hrun, hlength, (payloads_after_work_iff hrun).mpr (of_decide_eq_true hkeeps)⟩

def taskRequest : Bytes := Bytes.ofString "GET /task HTTP/1.1\r\n\r\n"

/-- The payload of `GET /task` is built before the posted task runs. -/
theorem task_payload_before_task :
    ∃ (tr : List (LogicThread Unit × LogicAction Unit)) (s : LogicThread Unit),
      Run (logicSystem Unit true fun _ => none) tr s ∧ ¬ PayloadsAfterWork s.world.log := by
  have hresult : (exec logicStep (.create (initHttpRouter (user1Handler true)
        (user2Handler true fun _ => none)) : LogicThread Unit)
        [.push () taskRequest, .coReadHandler () [], .runTask 0]).map
        (fun result => decide (∀ p ∈ result.1, ¬ LeavesWork true p.1 p.2))
      = some false := by decide +kernel
  obtain ⟨⟨tr, s⟩, hexec, hleaves⟩ := Option.map_eq_some_iff.mp hresult
  have hrun := run_of_logic_exec hexec
  refine ⟨tr, s, hrun, ?_⟩
  intro hafter
  exact of_decide_eq_false hleaves ((logic_run_log hrun).2.2 hafter)

end GameDemoLearn.Servers
