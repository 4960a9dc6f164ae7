import GameDemoLearn.Servers.HttpServer
import GameDemoLearn.Servers.PacketContents

/-!
What a session does with a packet that `Parse` refuses. The status of `Parse` is
dropped, so the packet is routed under the method and path of the last request
that was parsed, as long as the content that they view is there.
-/

namespace GameDemoLearn.Servers

open Transition Net Net.Http

/-- The handlers that were run, by their keys. -/
def ranHandlers (events : List SessionEvent) : List Bytes :=
  events.filterMap fun event =>
    match event with
    | .ran methodWholeName => some methodWholeName
    | _ => none

/-- The status that a client reads in the first line of a message. -/
def responseStatus (message : Bytes) : Option Nat :=
  if Bytes.ofString "HTTP/1.1 " <+: message then
    Util.digitsValue ((message.drop 9).takeWhile Util.isDigit)
  else
    none

def isErrorResponse (message : Bytes) : Bool :=
  (responseStatus message).any fun status => 400 ≤ status

/-- The run that takes the next packet runs no handler and answers with an
error. -/
def AnswersError (s : HttpSession) (now : Bytes) : Prop :=
  ∃ s' events message, s.coReadHandler now = some (s', events) ∧ ranHandlers events = [] ∧
    sentMessages events = [message] ∧ isErrorResponse message = true

/-- The run that takes the next packet reads no content that is gone, runs no
handler and answers with an error. -/
def ContentSession.AnswersError (s : ContentSession) (now : Bytes) : Prop :=
  s.ReadsHeld (.coReadHandler now) ∧ Servers.AnswersError s.logged.session now

/-- The key that a packet is routed under if it is not parsed. -/
def HttpSession.staleName (s : HttpSession) : Bytes :=
  HttpRouter.wholeName s.req.getMethod s.req.getPath

/-- An answer starts with its status line. -/
theorem responseStatus_statusLine (status : StatusCode) (more : Bytes) :
    responseStatus (statusToResponseHead status ++ more) = some status.toUnderlying := by
  have hversion : (Bytes.ofString "HTTP/1.1 ").length = 9 := by decide
  have hline : statusToResponseHead status ++ more = Bytes.ofString "HTTP/1.1 "
      ++ (Util.toChars status.toUnderlying ++ 32 :: (status.enumName ++ (CRLF ++ more))) := by
    simp only [statusToResponseHead, List.append_assoc, List.cons_append, List.nil_append]
  have hdigits : ∀ c ∈ Util.toChars status.toUnderlying, Util.isDigit c = true :=
    List.all_eq_true.mp (Util.all_toChars _)
  have hblank : Util.isDigit 32 = false := rfl
  rw [responseStatus, hline, if_pos (List.prefix_append _ _), ← hversion, List.drop_left,
    List.takeWhile_append_of_pos hdigits, List.takeWhile_cons_of_neg (by rw [hblank]; decide),
    List.append_nil, Util.digitsValue_toChars]

/-- The head is empty or starts with the status line of the first answer. -/
def StatusLined (head : Bytes) : Prop :=
  head = [] ∨ ∃ status more, head = statusToResponseHead status ++ more

theorem StatusLined.grow {head head' : Bytes} (hhead : StatusLined head)
    (hgrows : HttpResponse.HeadGrows head head') : StatusLined head' := by
  rcases hgrows with rfl | ⟨status, more, rfl⟩
  · exact hhead
  · right
    rcases hhead with rfl | ⟨first, rest, rfl⟩
    · exact ⟨status, more, rfl⟩
    · exact ⟨first, rest ++ (statusToResponseHead status ++ more), List.append_assoc _ _ _⟩

theorem statusLined_step {s s' : LoggedSession} {a : SessionAction} (hs : s.session.Sound)
    (hhead : StatusLined s.session.rep.head) (hstep : sessionStep s a = some s') :
    StatusLined s'.session.rep.head := by
  rcases sessionStep_cases hs hstep with ⟨data, packet, -, -, -, -, -, rfl⟩ | ⟨now, -, -, rfl⟩
    | ⟨now, packet, rest, rep, suspended, answers, -, -, -, hgrows, rfl⟩
    | ⟨run, now, rep, suspended, answers, -, -, hgrows, rfl⟩ | ⟨c, -, rfl⟩
  · exact hhead
  · exact hhead
  · exact hhead.grow hgrows
  · exact hhead.grow hgrows
  · exact hhead.grow (.inl (s.session.rep.head_apply c))

theorem statusLined_run {router : HttpRouter} {tr : List (LoggedSession × SessionAction)}
    {s : LoggedSession} (hrun : Run (sessionSystem router) tr s) :
    StatusLined s.session.rep.head := by
  induction hrun with
  | start hinit =>
      cases hinit
      exact .inl rfl
  | snoc hrun hstep ih => exact statusLined_step (sound_run hrun) ih hstep

/-- The first answer decides what a client reads. -/
theorem isErrorResponse_grown {head : Bytes} (hhead : StatusLined head) (more : Bytes) :
    isErrorResponse (head ++ (statusToResponseHead .notFound ++ more)) = true ↔
      head = [] ∨ isErrorResponse head = true := by
  rcases hhead with rfl | ⟨first, rest, rfl⟩
  · refine iff_of_true ?_ (.inl rfl)
    rw [List.nil_append, isErrorResponse, responseStatus_statusLine]
    rfl
  · have hne : statusToResponseHead first ++ rest ≠ [] := by
      intro hempty
      have hread := responseStatus_statusLine first rest
      rw [hempty] at hread
      cases hread
    rw [List.append_assoc, isErrorResponse, isErrorResponse, responseStatus_statusLine,
      responseStatus_statusLine, or_iff_right hne]

theorem ranHandlers_append (events events' : List SessionEvent) :
    ranHandlers (events ++ events') = ranHandlers events ++ ranHandlers events' :=
  List.filterMap_append

theorem ranHandlers_routeEvents (s : HttpSession) :
    ranHandlers s.routeEvents = [] ↔ s.router.find s.staleName = none := by
  cases hfind : s.router.find s.staleName with
  | none =>
      refine iff_of_true ?_ rfl
      rw [HttpSession.staleName] at hfind
      simp only [HttpSession.routeEvents, hfind]
      rfl
  | some handler =>
      refine iff_of_false ?_ (Option.some_ne_none handler)
      rw [HttpSession.staleName] at hfind
      simp only [HttpSession.routeEvents, hfind]
      exact List.cons_ne_nil _ _

/-- A packet that is refused leaves the session to route what it routed last. -/
theorem staleName_popped {s : HttpSession} {packet : MessageBuffer} (rest : List MessageBuffer)
    (hlength : packet.readable.length ≤ MessageBuffer.INITIAL_BUFFER_SIZE)
    (hrefused : (s.req.parse packet.readable).1 ≠ .ok) :
    (s.popped packet rest).staleName = s.staleName := by
  have hshort := lt_int_of_packet hlength
  have hnone : ∀ request next,
      phrParseRequest packet.readable MAX_HEADER_FIELD_NUM ≠ .done request next := by
    intro request next hdone
    exact hrefused ((s.req.parse_ok_iff hshort).mpr ⟨request, next, hdone⟩)
  have hview := (s.req.parse_refused hnone).2
  have hmethod : (s.req.parse packet.readable).2.getMethod = s.req.getMethod :=
    congrArg HttpRequest.View.method hview
  have hpath : (s.req.parse packet.readable).2.getPath = s.req.getPath :=
    congrArg HttpRequest.View.path hview
  simp only [HttpSession.staleName, HttpSession.popped, hmethod, hpath]

section Refused

variable {s : HttpSession} {packet : MessageBuffer} {rest : List MessageBuffer}

/-- Without a handler for the stale request, the packet is answered at once: not
found, behind the head of the earlier answers. -/
theorem refused_notFound (hs : s.Sound) (hqueue : s.readBufferQueue.queue = packet :: rest)
    (hrefused : (s.req.parse packet.readable).1 ≠ .ok)
    (hfind : s.router.find s.staleName = none) (now : Bytes) :
    ∃ s' message more,
      s.coReadHandler now = some (s', (s.popped packet rest).routeEvents ++ [.sent message]) ∧
      message.readable = s.rep.head ++ (statusToResponseHead .notFound ++ more) := by
  obtain ⟨-, -, hlength⟩ := hs.packets packet (by rw [hqueue]; exact List.mem_cons_self)
  have hroute : (s.popped packet rest).router.route (s.popped packet rest).req
      (s.popped packet rest).rep = (s.rep.setStatusCode .notFound, none) := by
    have hstale := staleName_popped rest hlength hrefused
    have hpopped : (s.popped packet rest).router.find (s.popped packet rest).staleName = none := by
      rw [hstale]
      exact hfind
    rw [HttpSession.staleName] at hpopped
    simp only [HttpRouter.route, hpopped]
    rfl
  obtain ⟨message, hanswer, hmessage⟩ := HttpSession.routeAndAnswer_done hroute now
  obtain ⟨more, hmore⟩ := (s.rep.setStatusCode .notFound).exists_getPayload_head now
  exact ⟨_, message, more, (hs.coReadHandler_eq hqueue now).trans hanswer, hmessage.trans hmore⟩

theorem find_staleName_of_answersError (hs : s.Sound)
    (hqueue : s.readBufferQueue.queue = packet :: rest)
    (hrefused : (s.req.parse packet.readable).1 ≠ .ok) {now : Bytes}
    (hanswers : AnswersError s now) : s.router.find s.staleName = none := by
  obtain ⟨-, -, hlength⟩ := hs.packets packet (by rw [hqueue]; exact List.mem_cons_self)
  obtain ⟨s', events, message, hevents, hnone, -, -⟩ := hanswers
  obtain ⟨rep, suspended, answers, hroute, -, -⟩ := (s.popped packet rest).routeAndAnswer_spec now
  rw [hs.coReadHandler_eq hqueue, hroute] at hevents
  obtain ⟨-, rfl⟩ := Prod.mk.inj (Option.some.inj hevents)
  rw [ranHandlers_append, List.append_eq_nil_iff, ranHandlers_routeEvents,
    staleName_popped rest hlength hrefused] at hnone
  exact hnone.1

theorem answersError_iff (hs : s.Sound) (hhead : StatusLined s.rep.head)
    (hqueue : s.readBufferQueue.queue = packet :: rest)
    (hrefused : (s.req.parse packet.readable).1 ≠ .ok) (now : Bytes) :
    AnswersError s now ↔ s.router.find s.staleName = none ∧
      (s.rep.head = [] ∨ isErrorResponse s.rep.head = true) := by
  constructor
  · intro hanswers
    have hfind := find_staleName_of_answersError hs hqueue hrefused hanswers
    refine ⟨hfind, ?_⟩
    obtain ⟨s', message, more, hrun, hmessage⟩ := refused_notFound hs hqueue hrefused hfind now
    obtain ⟨s'', events, message', hevents, -, hsent, herror⟩ := hanswers
    rw [hrun] at hevents
    obtain ⟨-, rfl⟩ := Prod.mk.inj (Option.some.inj hevents)
    rw [sentMessages_append, sentMessages_routeEvents] at hsent
    have hsame : message.readable = message' := List.cons.inj hsent |>.1
    rw [← hsame, hmessage] at herror
    exact (isErrorResponse_grown hhead more).mp herror
  · rintro ⟨hfind, herror⟩
    obtain ⟨s', message, more, hrun, hmessage⟩ := refused_notFound hs hqueue hrefused hfind now
    have hlength := (hs.packets packet (by rw [hqueue]; exact List.mem_cons_self)).2.2
    refine ⟨s', _, message.readable, hrun, ?_, ?_, ?_⟩
    · rw [ranHandlers_append, List.append_eq_nil_iff, ranHandlers_routeEvents,
        staleName_popped rest hlength hrefused]
      exact ⟨hfind, rfl⟩
    · rw [sentMessages_append, sentMessages_routeEvents]
      rfl
    · rw [hmessage]
      exact (isErrorResponse_grown hhead more).mpr herror

end Refused

/-- A packet that is refused is routed with the views that were there, and has no
query of its own. -/
theorem readsHeld_refused_iff {s : ContentSession} {packet : MessageBuffer}
    {rest : List MessageBuffer} (hs : s.logged.session.Sound)
    (hqueue : s.logged.session.readBufferQueue.queue = packet :: rest)
    (hrefused : (s.logged.session.req.parse packet.readable).1 ≠ .ok) (now : Bytes) :
    s.ReadsHeld (.coReadHandler now) ↔ s.ViewsHeld := by
  have hpacket := hs.packets packet (by rw [hqueue]; exact List.mem_cons_self)
  have hshort := lt_int_of_packet hpacket.2.2
  have hpop : s.logged.session.readBufferQueue.pop.1 = some packet := by
    rw [hs.pop_eq, hqueue, List.head?_cons]
  have hqueries : (HttpRequest.create.parse packet.readable).2.parser.queries = [] := by
    rcases HttpRequest.create.parse_cases hshort with ⟨-, headerLen, numHeaders, hparse⟩ | ⟨hok, -⟩
    · rw [hparse]
      rfl
    · have hdone := (HttpRequest.create.parse_ok_iff hshort).mp hok
      exact absurd ((s.logged.session.req.parse_ok_iff hshort).mpr hdone) hrefused
  constructor
  · intro hheld
    exact (hheld packet hpop).1 hrefused
  · intro hviews packet' hpacket'
    rw [hpop] at hpacket'
    cases hpacket'
    exact ⟨fun _ => hviews, fun hquery => absurd hqueries hquery⟩

/-- In every state that a session reaches, a packet that `Parse` refuses is
answered with an error and runs no handler exactly if the content of the request
that was parsed last is still there, no handler is registered for that request,
and the head left by earlier answers is empty or starts with an error. -/
theorem refused_packet_answered_iff {router : HttpRouter}
    {tr : List (ContentSession × SessionAction)} {s : ContentSession}
    (hrun : Run (contentSystem router) tr s) {packet : MessageBuffer} {rest : List MessageBuffer}
    (hqueue : s.logged.session.readBufferQueue.queue = packet :: rest)
    (hrefused : (s.logged.session.req.parse packet.readable).1 ≠ .ok) (now : Bytes) :
    s.AnswersError now ↔
      s.ViewsHeld ∧ s.logged.session.router.find s.logged.session.staleName = none ∧
        (s.logged.session.rep.head = [] ∨ isErrorResponse s.logged.session.rep.head = true) := by
  have hsession := logged_run hrun
  have hs := sound_run hsession
  exact and_congr (readsHeld_refused_iff hs hqueue hrefused now)
    (answersError_iff hs (statusLined_run hsession) hqueue hrefused now)

/-- A text that is no request. -/
def noRequest : Bytes := Bytes.ofString "hello\r\n\r\n"

theorem refused_packet_answered_iff_fresh :
    ∃ tr s packet, Run (contentSystem .create) tr s ∧
      s.logged.session.readBufferQueue.queue = [packet] ∧
      (s.logged.session.req.parse packet.readable).1 ≠ .ok ∧ s.AnswersError [] := by
  have hresult : (exec contentStep (.create .create) [.push noRequest]).map
        (fun result => (decide (∀ p ∈ result.1, p.1.ViewsHeld ∧ p.1.QueriesHeld),
          result.2.logged.session.readBufferQueue.queue.map fun packet =>
            (result.2.logged.session.req.parse packet.readable).1,
          decide result.2.ViewsHeld,
          (result.2.logged.session.router.find result.2.logged.session.staleName).isNone,
          result.2.logged.session.rep.head))
      = some (true, [.internalServerError], true, true, []) := by decide +kernel
  obtain ⟨⟨tr, s⟩, hexec, hrest⟩ := Option.map_eq_some_iff.mp hresult
  obtain ⟨hheld, hrest⟩ := Prod.mk.inj hrest
  obtain ⟨hparse, hrest⟩ := Prod.mk.inj hrest
  obtain ⟨hviews, hrest⟩ := Prod.mk.inj hrest
  obtain ⟨hfind, hhead⟩ := Prod.mk.inj hrest
  obtain ⟨packet, hqueue, hstatus⟩ := List.map_eq_singleton_iff.mp hparse
  have hrun := run_of_content_exec hexec (of_decide_eq_true hheld)
  have hrefused : (s.logged.session.req.parse packet.readable).1 ≠ .ok := by
    rw [hstatus]
    decide
  exact ⟨tr, s, packet, hrun, hqueue, hrefused,
    (refused_packet_answered_iff hrun hqueue hrefused []).mpr
      ⟨of_decide_eq_true hviews, Option.isNone_iff_eq_none.mp hfind, .inl hhead⟩⟩

/-- What one could expect instead: whatever was handled before, a packet that is
refused is answered with an error. -/
def RefusesPackets (router : HttpRouter) : Prop :=
  ∀ tr s, Run (contentSystem router) tr s → ∀ packet rest,
    s.logged.session.readBufferQueue.queue = packet :: rest →
      (s.logged.session.req.parse packet.readable).1 ≠ .ok → ∀ now, s.AnswersError now

/-- `GET /` with a handler that waits, so that the content of its request is
still there when the next packet is handled. -/
def waitingRouter : HttpRouter :=
  HttpRouter.create.addHttpHandler .get (Bytes.ofString "/") fun _ => .suspend fun _ => .returns

/-- While the handler of `GET /` waits, a packet that is no request runs it
again. -/
theorem refused_packet_runs_handler : ¬ RefusesPackets waitingRouter := by
  intro hrefuses
  have hresult : (exec contentStep (.create waitingRouter)
      [.push rootRequest, .coReadHandler [], .push noRequest]).map
        (fun result => (decide (∀ p ∈ result.1, p.1.ViewsHeld ∧ p.1.QueriesHeld),
          result.2.logged.session.readBufferQueue.queue.map fun packet =>
            (result.2.logged.session.req.parse packet.readable).1,
          (result.2.logged.session.coReadHandler []).map fun after => ranHandlers after.2))
      = some (true, [.internalServerError], some [Bytes.ofString "GET /"]) := by decide +kernel
  obtain ⟨⟨tr, s⟩, hexec, hrest⟩ := Option.map_eq_some_iff.mp hresult
  obtain ⟨hheld, hrest⟩ := Prod.mk.inj hrest
  obtain ⟨hparse, hran⟩ := Prod.mk.inj hrest
  obtain ⟨packet, hqueue, hstatus⟩ := List.map_eq_singleton_iff.mp hparse
  have hrefused : (s.logged.session.req.parse packet.readable).1 ≠ .ok := by
    rw [hstatus]
    decide
  have hrun := run_of_content_exec hexec (of_decide_eq_true hheld)
  obtain ⟨-, s', events, message, hevents, hnone, -, -⟩ := hrefuses tr s hrun packet [] hqueue
    hrefused []
  rw [hevents, Option.map_some, hnone, Option.some.injEq] at hran
  cases hran

end GameDemoLearn.Servers
