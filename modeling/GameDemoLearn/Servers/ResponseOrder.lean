import GameDemoLearn.Servers.HttpSession

/-!
Which request a message answers (`HttpSession.cpp`). The session counts neither
packets nor messages; here every handler run carries the number of the packet it
was started for, and each suspended run also the request and the response as its
own last step left them.
-/

namespace GameDemoLearn.Servers

open Transition Net Net.Http

/-- A suspended handler run: its packet, and what it last saw of the session's
request and response. -/
structure SuspendedRun where
  packet : Nat
  req : HttpRequest
  rep : HttpResponse

/-- A session with the packets it popped so far, its suspended runs in the order
of `suspended`, the work that handlers left and that has not run yet, and the
messages it sent; runs, work and messages carry the number of their packet. -/
structure TrackedSession where
  session : HttpSession
  popped : Nat
  runs : List SuspendedRun
  work : List (Nat × Deferred)
  sent : List (Nat × Bytes)

inductive TrackedAction
  | push (data : Bytes)
  | coReadHandler (now : Bytes)
  | resume (run : Nat) (now : Bytes)
  | runWork (work : Nat) (result : Option AccountRow)

namespace TrackedSession

def create (router : HttpRouter) : TrackedSession := ⟨.create router, 0, [], [], []⟩

/-- A `CoReadHandler` run that popped the next packet. -/
def started (t : TrackedSession) (after : LoggedSession) : TrackedSession where
  session := after.session
  popped := t.popped + 1
  runs :=
    if t.session.suspended.length < after.session.suspended.length then
      t.runs ++ [⟨t.popped, after.session.req, after.session.rep⟩]
    else
      t.runs
  work := t.work ++ (leftBehind after.session.router after.session.req after.events).map
    fun work => (t.popped, work)
  sent := t.sent ++ (sentMessages after.events).map fun message => (t.popped, message)

/-- A suspended run for `packet` that went on and left `work`. -/
def resumed (t : TrackedSession) (run packet : Nat) (leaves : List Deferred)
    (after : LoggedSession) : TrackedSession where
  session := after.session
  popped := t.popped
  runs :=
    if after.session.suspended.length < t.session.suspended.length then
      t.runs.eraseIdx run
    else
      t.runs.set run ⟨packet, after.session.req, after.session.rep⟩
  work := t.work ++ leaves.map fun work => (packet, work)
  sent := t.sent ++ (sentMessages after.events).map fun message => (packet, message)

/-- Work that a handler for `packet` left sets the response. The run for the
same packet, if it is suspended still, has done that itself. -/
def worked (t : TrackedSession) (work packet : Nat) (calls : List ResponseCall) :
    TrackedSession where
  session := { t.session with rep := calls.foldl HttpResponse.apply t.session.rep }
  popped := t.popped
  runs := t.runs.map fun r =>
    if r.packet = packet then { r with rep := calls.foldl HttpResponse.apply r.rep } else r
  work := t.work.eraseIdx work
  sent := t.sent

end TrackedSession

/-- The steps of `sessionStep`, with the work run by whoever left it. -/
def trackedStep (t : TrackedSession) : TrackedAction → Option TrackedSession
  | .push data =>
      (sessionStep ⟨t.session, []⟩ (.push data)).map fun after =>
        { t with session := after.session }
  | .coReadHandler now =>
      (sessionStep ⟨t.session, []⟩ (.coReadHandler now)).map fun after =>
        match t.session.readBufferQueue.pop.1 with
        | some _ => t.started after
        | none => { t with session := after.session }
  | .resume run now =>
      match t.runs[run]?, t.session.suspended[run]? with
      | some r, some rest =>
          (sessionStep ⟨t.session, []⟩ (.resume run now)).map fun after =>
            t.resumed run r.packet (rest t.session.req.view).leaves after
      | _, _ => none
  | .runWork work result =>
      (t.work[work]?).map fun left => t.worked work left.1 (left.2.calls result)

def trackedSystem (router : HttpRouter) : System TrackedSession TrackedAction :=
  System.ofStep (fun t => t = .create router) trackedStep

/-- The messages answer the packets in the order in which these were popped, and
every suspended run finds the request and the response as it left them. -/
structure TrackedSession.InOrder (t : TrackedSession) : Prop where
  sent : t.sent.map Prod.fst = List.range t.sent.length
  isolated : ∀ r ∈ t.runs, r.req = t.session.req ∧ r.rep = t.session.rep

/-- A run pops a packet only while no run of the session is suspended, and work
runs only while no run for another packet is suspended. -/
def WaitsForRuns (t : TrackedSession) : TrackedAction → Prop
  | .coReadHandler _ => t.session.readBufferQueue.queue ≠ [] → t.runs = []
  | .runWork work _ => ∀ left, t.work[work]? = some left → ∀ r ∈ t.runs, r.packet = left.1
  | _ => True

/-- The invariant: at most one run is suspended, for the packet that the next
message answers. -/
structure TrackedSession.InTurn (t : TrackedSession) : Prop where
  sound : t.session.Sound
  sent : t.sent.map Prod.fst = List.range t.sent.length
  popped : t.popped = t.sent.length + t.runs.length
  aligned : t.runs.length = t.session.suspended.length
  current : t.runs = [] ∨ t.runs = [⟨t.sent.length, t.session.req, t.session.rep⟩]

theorem TrackedSession.InTurn.inOrder {t : TrackedSession} (ht : t.InTurn) : t.InOrder := by
  refine ⟨ht.sent, ?_⟩
  intro r hr
  rcases ht.current with hnone | hone
  · rw [hnone] at hr
    cases hr
  · rw [hone, List.mem_singleton] at hr
    rw [hr]
    exact ⟨rfl, rfl⟩

theorem inTurn_create (router : HttpRouter) : (TrackedSession.create router).InTurn :=
  ⟨HttpSession.sound_create router, rfl, rfl, rfl, .inl rfl⟩

/-- The run in turn has answered its packet. -/
theorem TrackedSession.inTurn_of_answered {t : TrackedSession} (sent : List (Nat × Bytes))
    (message : Bytes) (hsound : t.session.Sound)
    (hprior : sent.map Prod.fst = List.range sent.length)
    (hsent : t.sent = sent ++ [(sent.length, message)]) (hpopped : t.popped = sent.length + 1)
    (hruns : t.runs = []) (hsuspended : t.session.suspended = []) : t.InTurn := by
  refine ⟨hsound, ?_, ?_, ?_, .inl hruns⟩
  · rw [hsent, List.map_append, hprior, List.length_append, List.map_singleton,
      List.length_singleton, List.range_succ]
  · rw [hpopped, hsent, hruns, List.length_append]
    rfl
  · rw [hruns, hsuspended]
    rfl

/-- The run in turn is suspended. -/
theorem TrackedSession.inTurn_of_suspended {t : TrackedSession} {rest : HttpHandlerFunc}
    (hsound : t.session.Sound) (hsent : t.sent.map Prod.fst = List.range t.sent.length)
    (hpopped : t.popped = t.sent.length + 1)
    (hruns : t.runs = [⟨t.sent.length, t.session.req, t.session.rep⟩])
    (hsuspended : t.session.suspended = [rest]) : t.InTurn := by
  refine ⟨hsound, hsent, ?_, ?_, .inr hruns⟩
  · rw [hpopped, hruns]
    rfl
  · rw [hruns, hsuspended]
    rfl

section Steps

variable {t : TrackedSession} {after : LoggedSession} {now : Bytes}

/-- A run that pops a packet sends one message or is suspended. -/
theorem coReadHandler_sent {s : HttpSession} (hs : s.Sound) {packet : MessageBuffer}
    {rest : List MessageBuffer} (hqueue : s.readBufferQueue.queue = packet :: rest)
    (hstep : sessionStep ⟨s, []⟩ (.coReadHandler now) = some after) :
    (∃ message, after.session.suspended = s.suspended ∧
      sentMessages after.events = [message]) ∨
    (∃ handler, after.session.suspended = s.suspended ++ [handler] ∧
      sentMessages after.events = []) := by
  rcases hs.coReadHandler_cases hqueue now with ⟨rep, message, hrun⟩ | ⟨rep, handler, hrun⟩
  · rw [sessionStep, hrun, Option.map_some, Option.some.injEq] at hstep
    subst hstep
    refine .inl ⟨message.readable, rfl, ?_⟩
    rw [LoggedSession.log, List.nil_append, sentMessages_append, sentMessages_routeEvents]
    rfl
  · rw [sessionStep, hrun, Option.map_some, Option.some.injEq] at hstep
    subst hstep
    refine .inr ⟨handler, rfl, ?_⟩
    rw [LoggedSession.log, List.nil_append, sentMessages_routeEvents]

/-- A run that goes on sends one message or is suspended again. -/
theorem resume_sent {s : HttpSession} {run : Nat}
    (hstep : sessionStep ⟨s, []⟩ (.resume run now) = some after) :
    (∃ message, after.session.suspended = s.suspended.eraseIdx run ∧
      sentMessages after.events = [message]) ∨
    (∃ handler, after.session.suspended = s.suspended.set run handler ∧
      sentMessages after.events = []) := by
  simp only [sessionStep] at hstep
  split at hstep
  · next rest hrest =>
      rcases s.resume_cases run rest now with ⟨rep, message, hresume, -⟩
        | ⟨rep, handler, hresume, -⟩
      · rw [hresume, Option.map_some, Option.some.injEq] at hstep
        subst hstep
        exact .inl ⟨message.readable, rfl, rfl⟩
      · rw [hresume, Option.map_some, Option.some.injEq] at hstep
        subst hstep
        exact .inr ⟨handler, rfl, rfl⟩
  · cases hstep

theorem TrackedSession.InTurn.push {data : Bytes} (ht : t.InTurn)
    (hstep : sessionStep ⟨t.session, []⟩ (.push data) = some after) :
    { t with session := after.session }.InTurn := by
  have hsound := ht.sound.step hstep
  simp only [sessionStep] at hstep
  split at hstep
  · cases hstep
  · obtain ⟨packet, -, rfl⟩ := Option.map_eq_some_iff.mp hstep
    exact ⟨hsound, ht.sent, ht.popped, ht.aligned, ht.current⟩

/-- A run that pops a packet while no other is suspended answers it at once or
is the only one suspended. -/
theorem TrackedSession.InTurn.started {packet : MessageBuffer} {rest : List MessageBuffer}
    (ht : t.InTurn) (hruns : t.runs = [])
    (hqueue : t.session.readBufferQueue.queue = packet :: rest)
    (hstep : sessionStep ⟨t.session, []⟩ (.coReadHandler now) = some after) :
    (t.started after).InTurn := by
  have hpopped : t.popped = t.sent.length := by
    rw [ht.popped, hruns, List.length_nil, Nat.add_zero]
  have hnone : t.session.suspended = [] := by
    rw [← List.length_eq_zero_iff, ← ht.aligned, hruns, List.length_nil]
  rcases coReadHandler_sent ht.sound hqueue hstep with ⟨message, hsuspended, hsent⟩
    | ⟨handler, hsuspended, hsent⟩
  · apply inTurn_of_answered t.sent message (ht.sound.step hstep) ht.sent
    · simp only [TrackedSession.started, hsent, List.map_singleton, hpopped]
    · rw [TrackedSession.started, hpopped]
    · simp only [TrackedSession.started, hsuspended, Nat.lt_irrefl, if_false, hruns]
    · exact hsuspended.trans hnone
  · have hsame : (t.started after).sent = t.sent := by
      simp only [TrackedSession.started, hsent, List.map_nil, List.append_nil]
    apply inTurn_of_suspended (ht.sound.step hstep)
    · rw [hsame, ht.sent]
    · rw [hsame, TrackedSession.started, hpopped]
    · rw [hsame]
      simp only [TrackedSession.started, hsuspended, hnone, hruns, hpopped, List.nil_append,
        List.length_nil, List.length_singleton, Nat.zero_lt_one, if_true]
    · change after.session.suspended = [handler]
      rw [hsuspended, hnone, List.nil_append]

/-- The only suspended run goes on. -/
theorem TrackedSession.InTurn.resumed {run : Nat} {r : SuspendedRun} {leaves : List Deferred}
    (ht : t.InTurn) (hr : t.runs[run]? = some r)
    (hstep : sessionStep ⟨t.session, []⟩ (.resume run now) = some after) :
    (t.resumed run r.packet leaves after).InTurn := by
  rcases ht.current with hnone | hone
  · rw [hnone] at hr
    cases hr
  · rw [hone, List.getElem?_singleton] at hr
    split at hr
    · next hrun =>
        subst hrun
        cases hr
        have hpopped : t.popped = t.sent.length + 1 := by
          rw [ht.popped, hone, List.length_singleton]
        obtain ⟨rest, hrest⟩ : ∃ rest, t.session.suspended = [rest] := by
          rw [← List.length_eq_one_iff, ← ht.aligned, hone, List.length_singleton]
        rcases resume_sent hstep with ⟨message, hsuspended, hsent⟩ | ⟨handler, hsuspended, hsent⟩
        · rw [hrest, List.eraseIdx_cons_zero] at hsuspended
          apply inTurn_of_answered t.sent message (ht.sound.step hstep) ht.sent
          · simp only [TrackedSession.resumed, hsent, List.map_singleton]
          · exact hpopped
          · simp only [TrackedSession.resumed, hsuspended, hrest, hone, List.length_nil,
              List.length_singleton, Nat.zero_lt_one, if_true, List.eraseIdx_cons_zero]
          · exact hsuspended
        · rw [hrest, List.set_cons_zero] at hsuspended
          have hsame : (t.resumed 0 t.sent.length leaves after).sent = t.sent := by
            simp only [TrackedSession.resumed, hsent, List.map_nil, List.append_nil]
          apply inTurn_of_suspended (ht.sound.step hstep)
          · rw [hsame, ht.sent]
          · rw [hsame]
            exact hpopped
          · rw [hsame]
            simp only [TrackedSession.resumed, hsuspended, hrest, hone, List.length_singleton,
              Nat.lt_irrefl, if_false, List.set_cons_zero]
          · exact hsuspended
    · cases hr

/-- Work for the packet of the only suspended run changes what that run sees. -/
theorem TrackedSession.InTurn.worked {work packet : Nat} {calls : List ResponseCall}
    (ht : t.InTurn) (hown : ∀ r ∈ t.runs, r.packet = packet) :
    (t.worked work packet calls).InTurn := by
  refine ⟨⟨ht.sound.shutdown, ht.sound.packets⟩, ht.sent, ?_, ?_, ?_⟩
  · simp only [TrackedSession.worked, List.length_map]
    exact ht.popped
  · simp only [TrackedSession.worked, List.length_map]
    exact ht.aligned
  · rcases ht.current with hnone | hone
    · left
      simp only [TrackedSession.worked, hnone, List.map_nil]
    · right
      have hpacket : t.sent.length = packet := by
        apply hown ⟨t.sent.length, t.session.req, t.session.rep⟩
        rw [hone]
        exact List.mem_singleton_self _
      simp only [TrackedSession.worked, hone, List.map_singleton, hpacket, if_true]

/-- Steps that wait for the suspended run keep the invariant. -/
theorem TrackedSession.InTurn.step {t' : TrackedSession} {a : TrackedAction} (ht : t.InTurn)
    (hwaits : WaitsForRuns t a) (hstep : trackedStep t a = some t') : t'.InTurn := by
  cases a with
  | push data =>
      obtain ⟨after, hafter, rfl⟩ := Option.map_eq_some_iff.mp hstep
      exact ht.push hafter
  | coReadHandler now =>
      obtain ⟨after, hafter, rfl⟩ := Option.map_eq_some_iff.mp hstep
      cases hqueue : t.session.readBufferQueue.queue with
      | nil =>
          rw [sessionStep, HttpSession.coReadHandler_nil ht.sound.shutdown hqueue] at hafter
          cases hafter
          simp only [ProducerConsumerQueue.pop_open ht.sound.shutdown, hqueue, List.head?_nil]
          exact ht
      | cons packet rest =>
          have hruns := hwaits (by rw [hqueue]; exact List.cons_ne_nil _ _)
          simp only [ProducerConsumerQueue.pop_open ht.sound.shutdown, hqueue, List.head?_cons]
          exact ht.started hruns hqueue hafter
  | resume run now =>
      simp only [trackedStep] at hstep
      split at hstep
      · next r rest hr hrest =>
          obtain ⟨after, hafter, rfl⟩ := Option.map_eq_some_iff.mp hstep
          exact ht.resumed hr hafter
      · cases hstep
  | runWork work result =>
      obtain ⟨left, hleft, rfl⟩ := Option.map_eq_some_iff.mp hstep
      exact ht.worked (hwaits left hleft)

end Steps

/-- The session under a tracked session is one of `sessionSystem`, and `sent` is
what it sent. -/
def Tracks (router : HttpRouter) (t : TrackedSession) : Prop :=
  ∃ tr events, Run (sessionSystem router) tr ⟨t.session, events⟩ ∧
    sentMessages events = t.sent.map Prod.snd

/-- The step of a session does not look at the log. -/
theorem sessionStep_log {s : HttpSession} {a : SessionAction} {after : LoggedSession}
    (hstep : sessionStep ⟨s, []⟩ a = some after) (events : List SessionEvent) :
    sessionStep ⟨s, events⟩ a = some ⟨after.session, events ++ after.events⟩ := by
  cases a with
  | push data =>
      simp only [sessionStep] at hstep ⊢
      split at hstep
      · cases hstep
      · next hdata =>
          obtain ⟨packet, hpacket, rfl⟩ := Option.map_eq_some_iff.mp hstep
          rw [if_neg hdata, hpacket, Option.map_some, List.append_nil]
  | coReadHandler now =>
      obtain ⟨result, hresult, rfl⟩ := Option.map_eq_some_iff.mp hstep
      simp only [sessionStep, hresult, Option.map_some, LoggedSession.log, List.nil_append]
  | resume run now =>
      simp only [sessionStep] at hstep ⊢
      split at hstep
      · next rest hrest =>
          obtain ⟨result, hresult, rfl⟩ := Option.map_eq_some_iff.mp hstep
          simp only [hresult, Option.map_some, LoggedSession.log, List.nil_append]
      · cases hstep
  | deferred c =>
      cases hstep
      simp only [sessionStep, List.append_nil]

/-- Calls that were left behind are so many steps of the session. -/
theorem run_deferred {router : HttpRouter} {tr : List (LoggedSession × SessionAction)}
    {s : HttpSession} {events : List SessionEvent} (calls : List ResponseCall)
    (hrun : Run (sessionSystem router) tr ⟨s, events⟩) :
    ∃ tr', Run (sessionSystem router) tr'
      ⟨{ s with rep := calls.foldl HttpResponse.apply s.rep }, events⟩ := by
  induction calls generalizing tr s with
  | nil => exact ⟨tr, hrun⟩
  | cons c rest ih =>
      have hstep : (sessionSystem router).step ⟨s, events⟩ (.deferred c)
          ⟨{ s with rep := s.rep.apply c }, events⟩ := rfl
      exact ih (hrun.snoc hstep)

theorem Tracks.advance {router : HttpRouter} {t t' : TrackedSession} {a : SessionAction}
    {after : LoggedSession} (ht : Tracks router t) (packet : Nat)
    (hstep : sessionStep ⟨t.session, []⟩ a = some after) (hsession : t'.session = after.session)
    (hsent : t'.sent = t.sent ++ (sentMessages after.events).map fun m => (packet, m)) :
    Tracks router t' := by
  obtain ⟨tr, events, hrun, hmessages⟩ := ht
  have hlogged : (sessionSystem router).step ⟨t.session, events⟩ a
      ⟨after.session, events ++ after.events⟩ := sessionStep_log hstep events
  have hnext := hrun.snoc hlogged
  rw [← hsession] at hnext
  refine ⟨_, _, hnext, ?_⟩
  rw [sentMessages_append, hmessages, hsent, List.map_append, List.map_map]
  simp only [Function.comp_def, List.map_id']

theorem Tracks.step {router : HttpRouter} {t t' : TrackedSession} {a : TrackedAction}
    (ht : Tracks router t) (hstep : trackedStep t a = some t') : Tracks router t' := by
  cases a with
  | push data =>
      obtain ⟨after, hafter, rfl⟩ := Option.map_eq_some_iff.mp hstep
      apply ht.advance t.popped hafter rfl
      simp only [sessionStep] at hafter
      split at hafter
      · cases hafter
      · obtain ⟨packet, -, rfl⟩ := Option.map_eq_some_iff.mp hafter
        exact (List.append_nil _).symm
  | coReadHandler now =>
      obtain ⟨after, hafter, rfl⟩ := Option.map_eq_some_iff.mp hstep
      cases hpop : t.session.readBufferQueue.pop with
      | mk packet queue =>
          cases packet with
          | none =>
              apply ht.advance t.popped hafter rfl
              simp only [sessionStep, HttpSession.coReadHandler, hpop] at hafter
              cases hafter
              exact (List.append_nil _).symm
          | some packet => exact ht.advance _ hafter rfl rfl
  | resume run now =>
      simp only [trackedStep] at hstep
      split at hstep
      · next r rest hr hrest =>
          obtain ⟨after, hafter, rfl⟩ := Option.map_eq_some_iff.mp hstep
          exact ht.advance _ hafter rfl rfl
      · cases hstep
  | runWork work result =>
      obtain ⟨left, hleft, rfl⟩ := Option.map_eq_some_iff.mp hstep
      obtain ⟨tr, events, hrun, hmessages⟩ := ht
      obtain ⟨tr', hrun'⟩ := run_deferred (left.2.calls result) hrun
      exact ⟨tr', events, hrun', hmessages⟩

/-- Tracking a session adds nothing to what it does. -/
theorem tracks_run {router : HttpRouter} {tr : List (TrackedSession × TrackedAction)}
    {t : TrackedSession} (hrun : Run (trackedSystem router) tr t) : Tracks router t := by
  apply hrun.invariant (Tracks router)
  · rintro t rfl
    exact ⟨[], [], .start rfl, rfl⟩
  · intro t a t' ht hstep
    exact ht.step hstep

/-- In a run where packets are popped and work runs only while no other handler
run is suspended, every state reached has its messages in order and its
suspended runs undisturbed. -/
theorem messages_in_order {router : HttpRouter} {tr : List (TrackedSession × TrackedAction)}
    {t : TrackedSession} (hrun : Run (trackedSystem router) tr t)
    (hwaits : ∀ p ∈ tr, WaitsForRuns p.1 p.2) : ∀ x ∈ visited tr t, x.InOrder := by
  intro x hx
  apply TrackedSession.InTurn.inOrder
  apply hrun.guarded_visited TrackedSession.InTurn WaitsForRuns _ _ hwaits x hx
  · rintro t rfl
    exact inTurn_create router
  · intro t a t' ht hwait hstep
    exact ht.step hwait hstep

/-- `GET /` waits once before it is answered, `GET /now` does not. -/
def slowRouter : HttpRouter :=
  (HttpRouter.create.addHttpHandler .get (Bytes.ofString "/")
    fun _ => .suspend fun _ => .call (.setStatusCode .ok) .returns).addHttpHandler
    .get (Bytes.ofString "/now") fun _ => .call (.setStatusCode .ok) .returns

def slowRequest : Bytes := Bytes.ofString "GET / HTTP/1.1\r\n\r\n"

def fastRequest : Bytes := Bytes.ofString "GET /now HTTP/1.1\r\n\r\n"

theorem run_of_tracked_exec {router : HttpRouter} {actions : List TrackedAction}
    {tr : List (TrackedSession × TrackedAction)} {t : TrackedSession}
    (hexec : exec trackedStep (.create router) actions = some (tr, t)) :
    Run (trackedSystem router) tr t := by
  have hinit : (trackedSystem router).init (.create router) := rfl
  exact run_of_exec hinit hexec

def TrackedAction.isResume : TrackedAction → Bool
  | .resume _ _ => true
  | _ => false

/-- Steps that only resume a run while one is suspended. -/
theorem waitsForRuns_of_resume {t : TrackedSession} {a : TrackedAction}
    (ha : t.runs.isEmpty || a.isResume) : WaitsForRuns t a := by
  cases a with
  | push data => trivial
  | coReadHandler now =>
      intro _
      simpa [TrackedAction.isResume] using ha
  | resume run now => trivial
  | runWork work result =>
      intro left _ r hr
      have hnone : t.runs = [] := by simpa [TrackedAction.isResume] using ha
      rw [hnone] at hr
      cases hr

/-- The second request is popped when the first is answered. -/
theorem messages_in_order_two :
    ∃ tr t, Run (trackedSystem slowRouter) tr t ∧ t.sent.map Prod.fst = [0, 1] ∧
      ∀ x ∈ visited tr t, x.InOrder := by
  have hresult : (exec trackedStep (.create slowRouter) [.push slowRequest, .push fastRequest,
        .coReadHandler [], .resume 0 [], .coReadHandler []]).map
        (fun result => (result.1.all fun p => p.1.runs.isEmpty || p.2.isResume,
          result.2.sent.map Prod.fst))
      = some (true, [0, 1]) := by decide +kernel
  obtain ⟨⟨tr, t⟩, hexec, hpair⟩ := Option.map_eq_some_iff.mp hresult
  obtain ⟨hall, hsent⟩ := Prod.mk.inj hpair
  have hrun := run_of_tracked_exec hexec
  refine ⟨tr, t, hrun, hsent, messages_in_order hrun ?_⟩
  intro p hp
  exact waitsForRuns_of_resume (List.all_eq_true.mp hall p hp)

/-- The second request is popped while the first waits. -/
theorem second_message_first :
    ∃ tr t, Run (trackedSystem slowRouter) tr t ∧ ¬ t.InOrder := by
  have hresult : (exec trackedStep (.create slowRouter) [.push slowRequest, .push fastRequest,
        .coReadHandler [], .coReadHandler []]).map
        (fun result => result.2.sent.map Prod.fst) = some [1] := by decide +kernel
  obtain ⟨⟨tr, t⟩, hexec, hsent⟩ := Option.map_eq_some_iff.mp hresult
  refine ⟨tr, t, run_of_tracked_exec hexec, ?_⟩
  intro horder
  have hlength : t.sent.length = 1 := by
    rw [← List.length_map Prod.fst, hsent, List.length_singleton]
  have hrange := horder.sent
  rw [hsent, hlength] at hrange
  cases hrange

end GameDemoLearn.Servers
