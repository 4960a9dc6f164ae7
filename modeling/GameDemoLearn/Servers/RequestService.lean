import GameDemoLearn.Net.Http.RequestView
import GameDemoLearn.Servers.HttpServer
import GameDemoLearn.Servers.PacketContents

/-!
What an HTTP session is for: requests arrive, and each is shown to its handler and answered. The
service has no buffers, no queue of packets, no parser and no contents that go. Every run of a
session that reads only contents that are there is a run of the service on the requests that its
packets say, with the same answers in the same order.
-/

namespace GameDemoLearn.Servers

open Transition Net Net.Http

/-- What the service does to the outside. -/
inductive ServiceEvent
  | routed (method path : Bytes)
  | ran (methodWholeName : Bytes)
  | sent (message : Bytes)

/-- The requests that wait, where `none` is a text that is no request, the request that handlers
are shown, the response they all fill, and the handlers that wait. -/
structure RequestService where
  waiting : List (Option RequestTexts)
  shown : HttpRequest.View
  rep : HttpResponse
  suspended : List HttpHandlerFunc
  events : List ServiceEvent

inductive ServiceAction
  | arrive (request : Option RequestTexts)
  | handle (now : Bytes)
  | resume (run : Nat) (now : Bytes)
  | deferred (c : ResponseCall)

namespace RequestService

def create : RequestService := ⟨[], HttpRequest.create.view, .create, [], []⟩

def log (t : RequestService) (events : List ServiceEvent) : RequestService :=
  { t with events := t.events ++ events }

/-- A response is completed and sent. -/
def send (t : RequestService) (rep : HttpResponse) (now : Bytes) : RequestService :=
  { t.log [.sent (rep.getPayload now).head] with rep := rep.getPayload now }

/-- A request is what handlers are shown from now on; a text that is none leaves the one before. -/
def take (t : RequestService) (request : Option RequestTexts)
    (waiting : List (Option RequestTexts)) : RequestService :=
  { t with waiting, shown := (request.map RequestTexts.view).getD t.shown }

/-- The handler for the request that is shown starts. -/
def start (t : RequestService) (router : HttpRouter) (now : Bytes) : RequestService :=
  let methodWholeName := HttpRouter.wholeName t.shown.method t.shown.path
  match router.find methodWholeName with
  | none =>
      (t.log [.routed t.shown.method t.shown.path]).send (t.rep.setStatusCode .notFound) now
  | some handler =>
      let started := t.log [.routed t.shown.method t.shown.path, .ran methodWholeName]
      match HttpRouter.runHandler (handler t.shown) t.rep with
      | (rep, none) => started.send rep now
      | (rep, some rest) => { started with rep, suspended := t.suspended ++ [rest] }

/-- A handler that waits goes on with the request that is shown now. -/
def goOn (t : RequestService) (run : Nat) (rest : HttpHandlerFunc) (now : Bytes) :
    RequestService :=
  match HttpRouter.runHandler (rest t.shown) t.rep with
  | (rep, none) => { t with suspended := t.suspended.eraseIdx run }.send rep now
  | (rep, some rest) => { t with rep, suspended := t.suspended.set run rest }

end RequestService

def serviceStep (router : HttpRouter) (t : RequestService) :
    ServiceAction → Option RequestService
  | .arrive request => some { t with waiting := t.waiting ++ [request] }
  | .handle now =>
      match t.waiting with
      | [] => some t
      | request :: waiting => some ((t.take request waiting).start router now)
  | .resume run now => t.suspended[run]?.map fun rest => t.goOn run rest now
  | .deferred c => some { t with rep := t.rep.apply c }

def serviceSystem (router : HttpRouter) : System RequestService ServiceAction :=
  System.ofStep (fun t => t = .create) (serviceStep router)

/-- What an event of a session is to the outside. -/
def SessionEvent.shown : SessionEvent → ServiceEvent
  | .routed method path => .routed method path
  | .ran methodWholeName => .ran methodWholeName
  | .sent message => .sent message.readable

/-- A step of a session and the step of the service that it is. -/
def Means : SessionAction → ServiceAction → Prop
  | .push data, .arrive request => Says data request
  | .coReadHandler now, .handle now' => now = now'
  | .resume run now, .resume run' now' => run = run' ∧ now = now'
  | .deferred c, .deferred c' => c = c'
  | _, _ => False

/-- A session and the service it provides. -/
structure Provides (router : HttpRouter) (s : LoggedSession) (t : RequestService) : Prop where
  sound : s.session.Sound
  router : s.session.router = router
  waiting : List.Forall₂ (fun packet request => Says packet.readable request)
    s.session.readBufferQueue.queue t.waiting
  shown : s.session.req.view = t.shown
  rep : s.session.rep = t.rep
  suspended : s.session.suspended = t.suspended
  events : s.events.map SessionEvent.shown = t.events

section Steps

variable {router : HttpRouter} {s : LoggedSession} {t : RequestService}

theorem provides_create (router : HttpRouter) : Provides router ⟨.create router, []⟩ .create where
  sound := HttpSession.sound_create router
  router := rfl
  waiting := .nil
  shown := rfl
  rep := rfl
  suspended := rfl
  events := rfl

theorem Provides.log {session : HttpSession} {events more : List SessionEvent}
    (h : Provides router ⟨session, events⟩ t) :
    Provides router ⟨session, events ++ more⟩ (t.log (more.map SessionEvent.shown)) where
  sound := h.sound
  router := h.router
  waiting := h.waiting
  shown := h.shown
  rep := h.rep
  suspended := h.suspended
  events := List.map_append.trans (congrArg (· ++ more.map SessionEvent.shown) h.events)

/-- The answer of a session is the answer of the service. -/
theorem Provides.answer {session : HttpSession} {events : List SessionEvent}
    (h : Provides router ⟨session, events⟩ t) (rep : HttpResponse) (now : Bytes) :
    ∃ result, HttpSession.answer { session with rep } now = some result ∧
      Provides router ⟨result.1, events ++ result.2⟩ (t.send rep now) := by
  obtain ⟨message, hanswer, hreadable⟩ := HttpSession.answer_eq { session with rep } now
  refine ⟨_, hanswer, ?_⟩
  exact {
    sound := ⟨h.sound.shutdown, h.sound.packets⟩
    router := h.router
    waiting := h.waiting
    shown := h.shown
    rep := rfl
    suspended := h.suspended
    events := by
      rw [List.map_append, h.events, List.map_singleton, SessionEvent.shown, hreadable]
      rfl }

/-- The request that is shown is handed to `Route` and answered, or its handler waits. -/
theorem Provides.routeAndAnswer {session : HttpSession} {events : List SessionEvent}
    (h : Provides router ⟨session, events⟩ t) (now : Bytes) :
    ∃ result, session.routeAndAnswer now = some result ∧
      Provides router ⟨result.1, events ++ result.2⟩ (t.start router now) := by
  have hrouter : session.router = router := h.router
  have hshown : session.req.view = t.shown := h.shown
  have hrep : session.rep = t.rep := h.rep
  have hmethod : session.req.getMethod = t.shown.method := congrArg HttpRequest.View.method hshown
  have hpath : session.req.getPath = t.shown.path := congrArg HttpRequest.View.path hshown
  cases hfind : router.find (HttpRouter.wholeName t.shown.method t.shown.path) with
  | none =>
      have hroute : session.router.route session.req session.rep
          = (t.rep.setStatusCode .notFound, none) := by
        rw [HttpRouter.route, hrouter, hmethod, hpath, hfind, hrep]
      have hevents : session.routeEvents = [.routed t.shown.method t.shown.path] := by
        rw [HttpSession.routeEvents, hrouter, hmethod, hpath, hfind]
        rfl
      have hrouted : Provides router ⟨session, events ++ session.routeEvents⟩
          (t.log [.routed t.shown.method t.shown.path]) := by
        rw [hevents]
        exact h.log
      obtain ⟨result, hanswer, hprovides⟩ := hrouted.answer (t.rep.setStatusCode .notFound) now
      refine ⟨(result.1, session.routeEvents ++ result.2), ?_, ?_⟩
      · rw [HttpSession.routeAndAnswer, hroute]
        change (HttpSession.answer { session with rep := t.rep.setStatusCode .notFound } now).map _
          = _
        rw [hanswer]
        rfl
      · rw [List.append_assoc] at hprovides
        rw [RequestService.start, hfind]
        exact hprovides
  | some handler =>
      have hevents : session.routeEvents = [.routed t.shown.method t.shown.path,
          .ran (HttpRouter.wholeName t.shown.method t.shown.path)] := by
        rw [HttpSession.routeEvents, hrouter, hmethod, hpath, hfind]
        rfl
      have hrouted : Provides router ⟨session, events ++ session.routeEvents⟩
          (t.log [.routed t.shown.method t.shown.path,
            .ran (HttpRouter.wholeName t.shown.method t.shown.path)]) := by
        rw [hevents]
        exact h.log
      have hroute : session.router.route session.req session.rep
          = HttpRouter.runHandler (handler t.shown) t.rep := by
        rw [HttpRouter.route, hrouter, hmethod, hpath, hfind, hrep, hshown]
      rw [HttpSession.routeAndAnswer, hroute]
      simp only [RequestService.start, hfind]
      rcases hrun : HttpRouter.runHandler (handler t.shown) t.rep with ⟨rep, _ | rest⟩
      · obtain ⟨result, hanswer, hprovides⟩ := hrouted.answer rep now
        refine ⟨(result.1, session.routeEvents ++ result.2), ?_, ?_⟩
        · change (HttpSession.answer { session with rep } now).map _ = _
          rw [hanswer]
          rfl
        · rw [List.append_assoc] at hprovides
          exact hprovides
      · refine ⟨_, rfl, ?_⟩
        exact { hrouted with
          sound := ⟨h.sound.shutdown, h.sound.packets⟩
          rep := rfl
          suspended := congrArg (· ++ [rest]) h.suspended }

theorem Provides.resume {session : HttpSession} {events : List SessionEvent}
    (h : Provides router ⟨session, events⟩ t) (run : Nat) (rest : HttpHandlerFunc) (now : Bytes) :
    ∃ result, session.resume run rest now = some result ∧
      Provides router ⟨result.1, events ++ result.2⟩ (t.goOn run rest now) := by
  have hshown : session.req.view = t.shown := h.shown
  have hrep : session.rep = t.rep := h.rep
  rw [HttpSession.resume, RequestService.goOn, hshown, hrep]
  rcases HttpRouter.runHandler (rest t.shown) t.rep with ⟨rep, _ | rest'⟩
  · have herased : Provides router
        ⟨{ session with suspended := session.suspended.eraseIdx run }, events⟩
        { t with suspended := t.suspended.eraseIdx run } :=
      { h with
        sound := ⟨h.sound.shutdown, h.sound.packets⟩
        suspended := congrArg (List.eraseIdx · run) h.suspended }
    exact herased.answer rep now
  · refine ⟨_, rfl, ?_⟩
    rw [List.append_nil]
    exact { h with
      sound := ⟨h.sound.shutdown, h.sound.packets⟩
      rep := rfl
      suspended := congrArg (List.set · run rest') h.suspended }

/-- A packet that is popped is the request that is shown from now on. -/
theorem Provides.take {session : HttpSession} {events : List SessionEvent}
    (h : Provides router ⟨session, events⟩ t) {packet : MessageBuffer}
    {rest : List MessageBuffer} {request : Option RequestTexts}
    {waiting : List (Option RequestTexts)}
    (hqueue : session.readBufferQueue.queue = packet :: rest)
    (hwaiting : t.waiting = request :: waiting) :
    Provides router ⟨session.popped packet rest, events⟩ (t.take request waiting) := by
  have hpackets : ∀ packet' ∈ packet :: rest, packet'.WellFormed ∧ packet'.readable ≠ [] ∧
      packet'.readable.length ≤ MessageBuffer.INITIAL_BUFFER_SIZE := by
    rw [← hqueue]
    exact h.sound.packets
  have htexts := h.waiting
  rw [hwaiting] at htexts
  change List.Forall₂ _ session.readBufferQueue.queue _ at htexts
  rw [hqueue, List.forall₂_cons] at htexts
  obtain ⟨hfirst, hothers⟩ := List.forall_mem_cons.mp hpackets
  exact {
    sound := ⟨h.sound.shutdown, hothers⟩
    router := h.router
    waiting := htexts.2
    shown := by
      change (session.req.parse packet.readable).2.view
        = (request.map RequestTexts.view).getD t.shown
      cases request with
      | some texts =>
          exact (session.req.view_parse_of_says htexts.1 (lt_int_of_packet hfirst.2.2)).2
      | none => exact (session.req.view_parse_of_says_none htexts.1).2.trans h.shown
    rep := h.rep
    suspended := h.suspended
    events := h.events }

variable {s' : LoggedSession}

/-- A packet that comes in is the arrival of the request that it says. -/
theorem Provides.push {data : Bytes} (h : Provides router s t)
    (hstep : sessionStep s (.push data) = some s') :
    ∃ request, Says data request ∧
      Provides router s' { t with waiting := t.waiting ++ [request] } := by
  obtain ⟨request, htexts⟩ := exists_says data
  simp only [sessionStep] at hstep
  split at hstep
  case isTrue => cases hstep
  case isFalse hdata =>
    obtain ⟨packet, hpacket, rfl⟩ := Option.map_eq_some_iff.mp hstep
    obtain ⟨hwell, hreadable, hroom⟩ := receivedPacket_spec hpacket
    refine ⟨request, htexts, ?_⟩
    rw [← hreadable] at hdata hroom htexts
    exact { h with
      sound := ⟨h.sound.shutdown, List.forall_mem_append.mpr
        ⟨h.sound.packets, List.forall_mem_singleton.mpr ⟨hwell, hdata, hroom⟩⟩⟩
      waiting := List.rel_append h.waiting (.cons htexts .nil) }

/-- A run of the read handler handles the request that has waited longest, if there is one. -/
theorem Provides.coReadHandler {now : Bytes} (h : Provides router s t)
    (hstep : sessionStep s (.coReadHandler now) = some s') :
    ∃ t', serviceStep router t (.handle now) = some t' ∧ Provides router s' t' := by
  obtain ⟨session, events⟩ := s
  have hwaiting := h.waiting
  simp only [sessionStep] at hstep
  cases hqueue : session.readBufferQueue.queue with
  | nil =>
      simp only [hqueue, List.forall₂_nil_left_iff] at hwaiting
      rw [HttpSession.coReadHandler_nil h.sound.shutdown hqueue] at hstep
      cases hstep
      refine ⟨t, by rw [serviceStep, hwaiting], ?_⟩
      rw [LoggedSession.log, List.append_nil]
      exact h
  | cons packet rest =>
      simp only [hqueue] at hwaiting
      obtain ⟨request, waiting, -, -, ht⟩ := List.forall₂_cons_left_iff.mp hwaiting
      obtain ⟨result, hroute, hprovides⟩ := (h.take hqueue ht).routeAndAnswer now
      rw [h.sound.coReadHandler_eq hqueue, hroute] at hstep
      cases hstep
      exact ⟨_, by rw [serviceStep, ht], hprovides⟩

theorem Provides.resumed {run : Nat} {now : Bytes} (h : Provides router s t)
    (hstep : sessionStep s (.resume run now) = some s') :
    ∃ t', serviceStep router t (.resume run now) = some t' ∧ Provides router s' t' := by
  simp only [sessionStep] at hstep
  split at hstep
  case h_1 rest hrest =>
    obtain ⟨result, hresume, hprovides⟩ := Provides.resume h run rest now
    rw [hresume] at hstep
    cases hstep
    refine ⟨_, ?_, hprovides⟩
    rw [serviceStep, ← h.suspended, hrest]
    rfl
  case h_2 => cases hstep

end Steps

/-- A session is simulated by the service it provides. -/
theorem session_simulation (router : HttpRouter) :
    Simulation (sessionSystem router) (serviceSystem router) (Provides router) Means where
  init := by
    rintro s rfl
    exact ⟨.create, rfl, provides_create router⟩
  step := by
    intro s t a s' h hstep
    cases a with
    | push data =>
        obtain ⟨request, htexts, hprovides⟩ := h.push hstep
        exact ⟨.arrive request, _, htexts, rfl, hprovides⟩
    | coReadHandler now =>
        obtain ⟨t', hstep', hprovides⟩ := h.coReadHandler hstep
        exact ⟨.handle now, t', rfl, hstep', hprovides⟩
    | resume run now =>
        obtain ⟨t', hstep', hprovides⟩ := h.resumed hstep
        exact ⟨.resume run now, t', ⟨rfl, rfl⟩, hstep', hprovides⟩
    | deferred c =>
        cases hstep
        refine ⟨.deferred c, _, rfl, rfl, ?_⟩
        exact { h with
          sound := ⟨h.sound.shutdown, h.sound.packets⟩
          rep := congrArg (HttpResponse.apply · c) h.rep }

def SessionAction.isPush : SessionAction → Bool
  | .push _ => true
  | _ => false

/-- Two requests arrive, and one of them is answered. -/
theorem exists_root_run : ∃ tr s, Run (contentSystem .create) tr s ∧
    (tr.map Prod.snd).countP SessionAction.isPush = 2 ∧ s.logged.events.length = 2 ∧
      s.logged.session.readBufferQueue.queue.length = 1 ∧
        s.logged.session.suspended.length = 0 := by
  have hresult : (exec contentStep (.create .create)
      [.push rootRequest, .push rootRequest, .coReadHandler []]).map
        (fun result => (decide (∀ p ∈ result.1, p.1.ViewsHeld ∧ p.1.QueriesHeld),
          (result.1.map Prod.snd).countP SessionAction.isPush, result.2.logged.events.length,
          result.2.logged.session.readBufferQueue.queue.length,
          result.2.logged.session.suspended.length))
      = some (true, 2, 2, 1, 0) := by decide +kernel
  obtain ⟨⟨tr, s⟩, hexec, hcounts⟩ := Option.map_eq_some_iff.mp hresult
  obtain ⟨hheld, hcounts⟩ := Prod.mk.inj hcounts
  obtain ⟨hpushed, hcounts⟩ := Prod.mk.inj hcounts
  obtain ⟨hevents, hcounts⟩ := Prod.mk.inj hcounts
  obtain ⟨hqueue, hsuspended⟩ := Prod.mk.inj hcounts
  exact ⟨tr, s, run_of_content_exec hexec (of_decide_eq_true hheld), hpushed, hevents, hqueue,
    hsuspended⟩

/-- How often the service answered. -/
def answers (events : List ServiceEvent) : Nat :=
  events.countP fun event =>
    match event with
    | .sent _ => true
    | _ => false

/-- The requests that the service has taken and not answered, and its answers. -/
def RequestService.owed (t : RequestService) : Nat :=
  t.waiting.length + t.suspended.length + answers t.events

def ServiceAction.arrivals : ServiceAction → Nat
  | .arrive _ => 1
  | _ => 0

section Answers

variable {router : HttpRouter} {t t' : RequestService}

theorem owed_send (t : RequestService) (rep : HttpResponse) (now : Bytes) :
    (t.send rep now).owed = t.owed + 1 := by
  simp [RequestService.owed, RequestService.send, RequestService.log, answers, Nat.add_assoc]

theorem owed_log {events : List ServiceEvent} (hevents : answers events = 0) :
    (t.log events).owed = t.owed := by
  unfold answers at hevents
  simp [RequestService.owed, RequestService.log, answers, hevents]

/-- The handler that starts answers or waits. -/
theorem owed_start (t : RequestService) (router : HttpRouter) (now : Bytes) :
    (t.start router now).owed = t.owed + 1 := by
  unfold RequestService.start
  simp only []
  split
  case h_1 => rw [owed_send, owed_log rfl]
  case h_2 handler _ =>
    split
    case h_1 => rw [owed_send, owed_log rfl]
    case h_2 rep rest _ =>
      simp [RequestService.owed, RequestService.log, answers]
      omega

/-- A step answers as many requests as it takes off. -/
theorem owed_step {a : ServiceAction} (hstep : serviceStep router t a = some t') :
    t'.owed = t.owed + a.arrivals := by
  cases a with
  | arrive request =>
      cases hstep
      simp [RequestService.owed, ServiceAction.arrivals]
      omega
  | handle now =>
      change (match t.waiting with
        | [] => some t
        | request :: waiting => some ((t.take request waiting).start router now)) = some t'
          at hstep
      split at hstep
      case h_1 =>
        cases hstep
        rfl
      case h_2 request waiting hwaiting =>
        cases hstep
        rw [owed_start]
        simp only [RequestService.owed, RequestService.take, hwaiting, List.length_cons,
          ServiceAction.arrivals]
        omega
  | resume run now =>
      obtain ⟨rest, hrest, rfl⟩ := Option.map_eq_some_iff.mp hstep
      obtain ⟨hlt, -⟩ := List.getElem?_eq_some_iff.mp hrest
      unfold RequestService.goOn
      split
      case h_1 =>
        rw [owed_send]
        simp only [RequestService.owed, List.length_eraseIdx_of_lt hlt, ServiceAction.arrivals]
        omega
      case h_2 =>
        simp only [RequestService.owed, List.length_set, ServiceAction.arrivals]
        rfl
  | deferred c =>
      cases hstep
      rfl

theorem owed_run {tr : List (RequestService × ServiceAction)}
    (hrun : Run (serviceSystem router) tr t) :
    t.owed = ((tr.map Prod.snd).map ServiceAction.arrivals).sum := by
  induction hrun with
  | start hinit =>
      subst hinit
      rfl
  | snoc _ hstep ih => simp [owed_step hstep, ih]

end Answers

theorem arrivals_of_means {actions : List SessionAction} {actions' : List ServiceAction}
    (hmeans : List.Forall₂ Means actions actions') :
    (actions'.map ServiceAction.arrivals).sum = actions.countP SessionAction.isPush := by
  induction hmeans with
  | nil => rfl
  | @cons a b _ _ hab _ ih =>
      rw [List.map_cons, List.sum_cons, ih, List.countP_cons, Nat.add_comm]
      cases a <;> cases b <;> first | rfl | cases hab

theorem answers_shown (events : List SessionEvent) :
    answers (events.map SessionEvent.shown) = (sentMessages events).length := by
  induction events with
  | nil => rfl
  | cons event events ih =>
      have hcons : answers ((event :: events).map SessionEvent.shown)
          = answers [event.shown] + answers (events.map SessionEvent.shown) := by
        rw [List.map_cons, ← List.singleton_append]
        exact List.countP_append
      have hsent : sentMessages (event :: events) = sentMessages [event] ++ sentMessages events :=
        sentMessages_append [event] events
      rw [hcons, hsent, List.length_append, ih]
      cases event <;> rfl

/-- No packet is lost and none is answered twice: every packet that was pushed waits in the queue,
or its handler waits, or it has its one answer. -/
theorem session_answers {router : HttpRouter} {tr : List (LoggedSession × SessionAction)}
    {s : LoggedSession} (hrun : Run (sessionSystem router) tr s) :
    (tr.map Prod.snd).countP SessionAction.isPush
      = s.session.readBufferQueue.queue.length + s.session.suspended.length
        + (sentMessages s.events).length := by
  obtain ⟨tr', t, hrun', hprovides, hmeans⟩ := (session_simulation router).run hrun
  rw [← arrivals_of_means hmeans, ← owed_run hrun', RequestService.owed,
    hprovides.waiting.length_eq, hprovides.suspended, ← hprovides.events, answers_shown]

theorem session_answers_root :
    ∃ tr s, Run (sessionSystem .create) tr s ∧ (sentMessages s.events).length = 1 := by
  obtain ⟨tr, s, hrun, hpushed, -, hqueue, hsuspended⟩ := exists_root_run
  have hsession := logged_run hrun
  have hanswers := session_answers hsession
  rw [List.map_map] at hanswers
  change (tr.map Prod.snd).countP SessionAction.isPush = _ at hanswers
  rw [hpushed, hqueue, hsuspended] at hanswers
  exact ⟨_, s.logged, hsession, by omega⟩

end GameDemoLearn.Servers
