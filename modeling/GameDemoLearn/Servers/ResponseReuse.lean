import GameDemoLearn.Servers.HttpServer
import GameDemoLearn.Servers.HttpSession

/-!
A session answers all its requests from one response, which is never cleared:
`GetPayload` appends to the head that the last answer left. The answer to a
request is compared with the one that a fresh session gives to it.
-/

namespace GameDemoLearn.Servers

open Transition Net Net.Http Net.Http.HttpResponse

/-- Each setter that ran on a response that was used before ran on the fresh one
too, so the used one holds at least as much. -/
structure Outgrown (fresh used : HttpResponse) : Prop where
  status : fresh.statusCode = used.statusCode ∨ fresh.statusCode = .unknown
  contentType : fresh.contentType = used.contentType ∨ fresh.contentType = .string
  charset : fresh.charset = used.charset ∨ fresh.charset = Bytes.ofString "UTF-8"
  content : fresh.content.length ≤ used.content.length
  headers : fresh.headers <:+ used.headers

theorem outgrown_create (used : HttpResponse) : Outgrown .create used where
  status := .inr rfl
  contentType := .inr rfl
  charset := .inr rfl
  content := Nat.zero_le _
  headers := List.nil_suffix

theorem Outgrown.apply {fresh used : HttpResponse} (h : Outgrown fresh used) (c : ResponseCall) :
    Outgrown (fresh.apply c) (used.apply c) := by
  obtain ⟨hstatus, htype, hcharset, hcontent, hheaders⟩ := h
  cases c with
  | setStatusCode statusCode => exact ⟨.inl rfl, htype, hcharset, hcontent, hheaders⟩
  | setHeader fieldName fieldVal =>
      obtain ⟨older, holder⟩ := hheaders
      refine ⟨hstatus, htype, hcharset, hcontent, older, ?_⟩
      simp only [HttpResponse.apply, HttpResponse.setHeader, ← holder, List.append_assoc]
  | setCharSet charset => exact ⟨hstatus, htype, .inl rfl, hcontent, hheaders⟩
  | setContentType type => exact ⟨hstatus, .inl rfl, hcharset, hcontent, hheaders⟩
  | setContent content => exact ⟨hstatus, htype, hcharset, Nat.le_refl _, hheaders⟩
  | fillResponse statusCode type content =>
      exact ⟨.inl rfl, .inl rfl, hcharset, Nat.le_refl _, hheaders⟩

theorem Outgrown.runHandler {fresh used : HttpResponse} (h : Outgrown fresh used)
    (run : HandlerRun) :
    Outgrown (HttpRouter.runHandler run fresh).1 (HttpRouter.runHandler run used).1 := by
  induction run generalizing fresh used with
  | returns => exact h
  | throws => exact h.apply (.setStatusCode .serviceUnavailable)
  | call c rest ih => exact ih (h.apply c)
  | leave work rest ih => exact ih h
  | suspend rest => exact h

theorem Outgrown.route {fresh used : HttpResponse} (h : Outgrown fresh used) (router : HttpRouter)
    (req : HttpRequest) :
    Outgrown (router.route req fresh).1 (router.route req used).1 := by
  unfold HttpRouter.route
  split
  · exact h.runHandler _
  · exact h.apply (.setStatusCode .notFound)

section Length

theorem length_statusToResponseHead (status : StatusCode) :
    17 ≤ (statusToResponseHead status).length := by
  cases status <;> decide +kernel

theorem length_contentTypeString (type : ContentType) (charset : Bytes) :
    (contentTypeString type charset).length
      = (contentTypeString type []).length + charset.length := by
  cases type with
  | string | html | json =>
      simp only [contentTypeString, List.length_append, List.length_nil]
      omega

theorem length_contentTypeString_nil (type : ContentType) :
    35 ≤ (contentTypeString type []).length := by
  cases type <;> decide +kernel

theorem length_headerBytes_append (headers headers' : List (Bytes × Bytes)) :
    (headerBytes (headers ++ headers')).length
      = (headerBytes headers).length + (headerBytes headers').length := by
  simp only [headerBytes, List.flatMap_append, List.length_append]

theorem length_addHost (resp : HttpResponse) :
    (headerBytes resp.headers).length ≤ (headerBytes resp.addHost.headers).length ∧
      (headerBytes resp.addHost.headers).length ≤ (headerBytes resp.headers).length + 13 := by
  unfold HttpResponse.addHost
  split
  · omega
  · have hline : (headerBytes [(Bytes.ofString "Host", Bytes.ofString "Harold")]).length = 13 := by
      decide +kernel
    simp only [HttpResponse.setHeader, length_headerBytes_append, hline]
    omega

/-- The parts of a payload. -/
theorem length_getPayload (resp : HttpResponse) (now : Bytes) :
    (resp.getPayload now).head.length
      = resp.head.length + (statusToResponseHead resp.statusCode).length
        + (headerBytes resp.addHost.headers).length
        + (headerBytes [(Bytes.ofString "Content-Length",
            Util.toChars resp.addErrorContent.content.length)]).length
        + (headerBytes [(Bytes.ofString "Date", now)]).length
        + (contentTypeString resp.contentType resp.charset).length + 2
        + resp.addErrorContent.content.length := by
  have hcrlf : CRLF.length = 2 := rfl
  simp only [HttpResponse.getPayload_head, List.length_append, length_headerBytes_append, hcrlf]
  omega

theorem length_headerBytes_value (fieldName value value' : Bytes) :
    (headerBytes [(fieldName, value)]).length + value'.length
      = (headerBytes [(fieldName, value')]).length + value.length := by
  simp only [headerBytes, HttpResponse.headerLine, List.flatMap_cons, List.flatMap_nil,
    List.length_append]
  omega

/-- An answer leaves a head. -/
theorem head_getPayload (resp : HttpResponse) (now : Bytes) :
    23 ≤ (resp.getPayload now).head.length := by
  have hstatus := length_statusToResponseHead resp.statusCode
  have htype := length_contentTypeString_nil resp.contentType
  rw [length_getPayload, length_contentTypeString]
  omega

end Length

section Outgrown

variable {fresh used : HttpResponse}

/-- `Unknown` has a longer status line than some status. -/
theorem Outgrown.statusLine (h : Outgrown fresh used) :
    (statusToResponseHead fresh.statusCode).length
      ≤ (statusToResponseHead used.statusCode).length + 3 := by
  have hunknown : (statusToResponseHead .unknown).length = 20 := by decide +kernel
  have hshortest := length_statusToResponseHead used.statusCode
  rcases h.status with hsame | hsame
  · rw [hsame]
    exact Nat.le_add_right _ _
  · rw [hsame]
    omega

/-- The used response may have its `Host` line from an earlier answer. -/
theorem Outgrown.headerLines (h : Outgrown fresh used) :
    (headerBytes fresh.addHost.headers).length
      ≤ (headerBytes used.addHost.headers).length + 13 := by
  obtain ⟨older, holder⟩ := h.headers
  have hlength := length_headerBytes_append older fresh.headers
  rw [holder] at hlength
  have hfresh := (length_addHost fresh).2
  have hused := (length_addHost used).1
  omega

/-- The used response may have kept a type or a character set with a shorter
name than the default. -/
theorem Outgrown.contentTypeLine (h : Outgrown fresh used) :
    (contentTypeString fresh.contentType fresh.charset).length
      ≤ (contentTypeString used.contentType used.charset).length + 6 := by
  have hstring : (contentTypeString .string []).length = 36 := by decide +kernel
  have hutf : (Bytes.ofString "UTF-8").length = 5 := by decide +kernel
  have hshortest := length_contentTypeString_nil used.contentType
  have htype : (contentTypeString fresh.contentType []).length
      ≤ (contentTypeString used.contentType []).length + 1 := by
    rcases h.contentType with hsame | hsame
    · rw [hsame]
      exact Nat.le_add_right _ _
    · rw [hsame]
      omega
  have hcharset : fresh.charset.length ≤ used.charset.length + 5 := by
    rcases h.charset with hsame | hsame
    · rw [hsame]
      exact Nat.le_add_right _ _
    · rw [hsame]
      omega
  rw [length_contentTypeString, length_contentTypeString used.contentType]
  omega

theorem Outgrown.addErrorContent (h : Outgrown fresh used) :
    fresh.addErrorContent.content.length ≤ used.addErrorContent.content.length := by
  have hcontent := h.content
  unfold HttpResponse.addErrorContent
  rcases h.status with hstatus | hstatus
  · rw [hstatus]
    split
    · simp only [List.length_append]
      omega
    · exact hcontent
  · rw [hstatus, if_neg (by decide)]
    split
    · simp only [List.length_append]
      omega
    · exact hcontent

/-- All that can make the fresh payload the longer one is shorter than the head
that the used one starts from. -/
theorem Outgrown.getPayload (h : Outgrown fresh used) (hfresh : fresh.head = [])
    (hused : 23 ≤ used.head.length) {now now' : Bytes} (hnow : now'.length = now.length) :
    (fresh.getPayload now').head.length < (used.getPayload now).head.length := by
  have hstatus := h.statusLine
  have hheaders := h.headerLines
  have htype := h.contentTypeLine
  have hcontent := h.addErrorContent
  have hdigits := Util.length_toChars_mono hcontent
  have hcontentLength := length_headerBytes_value (Bytes.ofString "Content-Length")
    (Util.toChars fresh.addErrorContent.content.length)
    (Util.toChars used.addErrorContent.content.length)
  have hdate := length_headerBytes_value (Bytes.ofString "Date") now now'
  rw [length_getPayload, length_getPayload, hfresh, List.length_nil]
  omega

end Outgrown

/-- The steps that handle a packet by itself, with the clock's reading. -/
def handling (request : Bytes × Bytes) : List SessionAction :=
  [.push request.1, .coReadHandler request.2]

/-- What a session sends when it handles packets one after another. -/
def serve (router : HttpRouter) (requests : List (Bytes × Bytes)) : Option (List Bytes) :=
  (exec sessionStep ⟨.create router, []⟩ (requests.flatMap handling)).map fun result =>
    sentMessages result.2.events

/-- The message is what a fresh session sends for this packet alone, up to the
date. -/
def SentAlone (router : HttpRouter) (packet now message : Bytes) : Prop :=
  ∃ now', now'.length = now.length ∧ serve router [(packet, now')] = some [message]

/-- A packet that is parsed as a request. -/
def CompleteRequest (packet : Bytes) : Prop :=
  packet.length ≤ MessageBuffer.INITIAL_BUFFER_SIZE ∧ (HttpRequest.create.parse packet).1 = .ok

/-- The response after a packet was handled. -/
def respond (router : HttpRouter) (req : HttpRequest) (rep : HttpResponse)
    (request : Bytes × Bytes) : HttpResponse :=
  (router.route (req.parse request.1).2 rep).1.getPayload request.2

/-- The answers to packets that are handled one after another. -/
def responses (router : HttpRouter) (req : HttpRequest) (rep : HttpResponse) :
    List (Bytes × Bytes) → List Bytes
  | [] => []
  | request :: rest =>
      (respond router req rep request).head ::
        responses router (req.parse request.1).2 (respond router req rep request) rest

/-- A session that handled all its packets. -/
structure Idle (router : HttpRouter) (req : HttpRequest) (rep : HttpResponse)
    (s : HttpSession) : Prop where
  sound : s.Sound
  queue : s.readBufferQueue.queue = []
  router : s.router = router
  req : s.req = req
  rep : s.rep = rep

theorem idle_create (router : HttpRouter) :
    Idle router .create .create (HttpSession.create router) where
  sound := HttpSession.sound_create router
  queue := rfl
  router := rfl
  req := rfl
  rep := rfl

theorem Idle.handle {router : HttpRouter} (hrouter : router.Completes) {req : HttpRequest}
    {rep : HttpResponse} {s : LoggedSession} (hidle : Idle router req rep s.session)
    {request : Bytes × Bytes} (hne : request.1 ≠ [])
    (hroom : request.1.length ≤ MessageBuffer.INITIAL_BUFFER_SIZE) :
    ∃ s' s'', sessionStep s (.push request.1) = some s' ∧
      sessionStep s' (.coReadHandler request.2) = some s'' ∧
      Idle router (req.parse request.1).2 (respond router req rep request) s''.session ∧
      sentMessages s''.events
        = sentMessages s.events ++ [(respond router req rep request).head] := by
  obtain ⟨packet, hpacket, -, hreadable⟩ := exists_receivedPacket hroom
  let s' : LoggedSession := { s with session := { s.session with
    readBufferQueue := s.session.readBufferQueue.push packet } }
  have hpush : sessionStep s (.push request.1) = some s' := by
    rw [sessionStep, if_neg hne, hpacket, Option.map_some]
  have hs' : s'.session.Sound := hidle.sound.step hpush
  have hqueue : s'.session.readBufferQueue.queue = [packet] := by
    change s.session.readBufferQueue.queue ++ [packet] = [packet]
    rw [hidle.queue, List.nil_append]
  have hroute : (s'.session.popped packet []).router.route (s'.session.popped packet []).req
      (s'.session.popped packet []).rep
        = ((router.route (req.parse request.1).2 rep).1, none) := by
    have hcompletes := HttpRouter.route_completes hrouter (req.parse request.1).2 rep
    change s.session.router.route (s.session.req.parse packet.readable).2 s.session.rep = _
    rw [hidle.router, hidle.req, hidle.rep, hreadable]
    exact Prod.ext rfl hcompletes
  obtain ⟨message, hanswer, hmessage⟩ := HttpSession.routeAndAnswer_done hroute request.2
  have hrun := (hs'.coReadHandler_eq hqueue request.2).trans hanswer
  have hstep : sessionStep s' (.coReadHandler request.2) = some _ :=
    congrArg (Option.map s'.log) hrun
  refine ⟨s', _, hpush, hstep, ⟨hs'.step hstep, rfl, hidle.router, ?_, rfl⟩, ?_⟩
  · change (s.session.req.parse packet.readable).2 = _
    rw [hidle.req, hreadable]
  · simp only [LoggedSession.log, sentMessages_append, sentMessages_routeEvents, List.nil_append]
    rw [respond, ← hmessage]
    rfl

theorem Idle.serve {router : HttpRouter} (hrouter : router.Completes) {req : HttpRequest}
    {rep : HttpResponse} {s : LoggedSession} (hidle : Idle router req rep s.session)
    {requests : List (Bytes × Bytes)}
    (hrequests : ∀ request ∈ requests, request.1 ≠ [] ∧
      request.1.length ≤ MessageBuffer.INITIAL_BUFFER_SIZE) :
    ∃ tr s', exec sessionStep s (requests.flatMap handling) = some (tr, s') ∧
      sentMessages s'.events = sentMessages s.events ++ responses router req rep requests := by
  induction requests generalizing req rep s with
  | nil => exact ⟨[], s, rfl, (List.append_nil _).symm⟩
  | cons request rest ih =>
      rw [List.forall_mem_cons] at hrequests
      obtain ⟨s', s'', hpush, hhandler, hidle'', hsent⟩ :=
        hidle.handle hrouter hrequests.1.1 hrequests.1.2
      obtain ⟨tr, last, hexec, hlast⟩ := ih hidle'' hrequests.2
      refine ⟨(s, .push request.1) :: (s', .coReadHandler request.2) :: tr, last, ?_, ?_⟩
      · simp only [List.flatMap_cons, handling, List.cons_append, List.nil_append, exec, hpush,
          hhandler, Option.bind_some, hexec, Option.map_some]
      · rw [hlast, hsent, List.append_assoc]
        rfl

theorem CompleteRequest.ne_nil {packet : Bytes} (hcomplete : CompleteRequest packet) :
    packet ≠ [] := by
  rintro rfl
  exact absurd hcomplete.2 (by decide)

theorem CompleteRequest.view_parse {packet : Bytes} (hcomplete : CompleteRequest packet)
    (req : HttpRequest) : (HttpRequest.create.parse packet).2.view = (req.parse packet).2.view :=
  HttpRequest.create.view_parse req hcomplete.2 (lt_int_of_packet hcomplete.1)

theorem serve_eq {router : HttpRouter} (hrouter : router.Completes)
    {requests : List (Bytes × Bytes)}
    (hrequests : ∀ request ∈ requests, CompleteRequest request.1) :
    serve router requests = some (responses router .create .create requests) := by
  obtain ⟨tr, s, hexec, hsent⟩ := Idle.serve (s := ⟨.create router, []⟩) hrouter
    (idle_create router) fun request hmem =>
      ⟨(hrequests request hmem).ne_nil, (hrequests request hmem).1⟩
  rw [Servers.serve, hexec, Option.map_some, hsent]
  rfl

/-- A session that has answered before never gives the answer of a fresh one
again: what it gives is longer. -/
theorem Outgrown.respond {router : HttpRouter} {req : HttpRequest} {rep : HttpResponse}
    (hused : 23 ≤ rep.head.length) {packet : Bytes} (hcomplete : CompleteRequest packet)
    {now now' : Bytes} (hnow : now'.length = now.length) :
    (respond router .create .create (packet, now')).head.length
      < (respond router req rep (packet, now)).head.length := by
  have hview := hcomplete.view_parse req
  have houtgrown := (outgrown_create rep).route router (req.parse packet).2
  simp only [Servers.respond]
  rw [router.route_view hview]
  apply houtgrown.getPayload _ _ hnow
  · rw [router.head_route]
    rfl
  · rw [router.head_route]
    exact hused

theorem length_responses (router : HttpRouter) (req : HttpRequest) (rep : HttpResponse)
    (requests : List (Bytes × Bytes)) :
    (responses router req rep requests).length = requests.length := by
  induction requests generalizing req rep with
  | nil => rfl
  | cons request rest ih => simp only [responses, List.length_cons, ih]

/-- The answer to one request is in the way of all later ones. -/
theorem head_respond (router : HttpRouter) (req : HttpRequest) (rep : HttpResponse)
    (request : Bytes × Bytes) : 23 ≤ (respond router req rep request).head.length :=
  head_getPayload _ _

theorem responses_outgrown {router : HttpRouter} {req : HttpRequest} {rep : HttpResponse}
    (hused : 23 ≤ rep.head.length) {requests : List (Bytes × Bytes)} {k : Nat}
    {packet now message : Bytes} (hcomplete : CompleteRequest packet)
    (hrequest : requests[k]? = some (packet, now))
    (hmessage : (responses router req rep requests)[k]? = some message) {now' : Bytes}
    (hnow : now'.length = now.length) :
    (respond router .create .create (packet, now')).head.length < message.length := by
  induction requests generalizing req rep k with
  | nil => cases hrequest
  | cons request rest ih =>
      cases k with
      | zero =>
          cases hrequest
          cases hmessage
          exact Outgrown.respond hused hcomplete hnow
      | succ k =>
          rw [List.getElem?_cons_succ] at hrequest
          rw [responses, List.getElem?_cons_succ] at hmessage
          exact ih (head_respond router req rep request) hrequest hmessage

theorem serve_single {router : HttpRouter} (hrouter : router.Completes) {packet : Bytes}
    (hcomplete : CompleteRequest packet) (now : Bytes) :
    serve router [(packet, now)] = some [(respond router .create .create (packet, now)).head] :=
  serve_eq hrouter (by simpa using hcomplete)

theorem not_sentAlone {router : HttpRouter} (hrouter : router.Completes) {req : HttpRequest}
    {rep : HttpResponse} (hused : 23 ≤ rep.head.length) {requests : List (Bytes × Bytes)} {k : Nat}
    {packet now message : Bytes} (hcomplete : CompleteRequest packet)
    (hrequest : requests[k]? = some (packet, now))
    (hmessage : (responses router req rep requests)[k]? = some message) :
    ¬ SentAlone router packet now message := by
  rintro ⟨now', hnow, halone⟩
  rw [serve_single hrouter hcomplete, Option.some.injEq, List.cons.injEq] at halone
  have hlonger := responses_outgrown hused hcomplete hrequest hmessage hnow
  rw [halone.1] at hlonger
  exact Nat.lt_irrefl _ hlonger

/-- The answers of a session that handles complete requests one after another,
with handlers that complete, are those of fresh sessions for the first request
and for no other. -/
theorem sentAlone_iff_first {router : HttpRouter} (hrouter : router.Completes)
    {requests : List (Bytes × Bytes)}
    (hrequests : ∀ request ∈ requests, CompleteRequest request.1) :
    ∃ messages, serve router requests = some messages ∧ messages.length = requests.length ∧
      ∀ (k : Nat) (packet now message : Bytes), requests[k]? = some (packet, now) →
        messages[k]? = some message → (SentAlone router packet now message ↔ k = 0) := by
  refine ⟨_, serve_eq hrouter hrequests, length_responses _ _ _ _, ?_⟩
  intro k packet now message hrequest hmessage
  have hcomplete : CompleteRequest packet := hrequests _ (List.mem_of_getElem? hrequest)
  cases requests with
  | nil => cases hrequest
  | cons request rest =>
      cases k with
      | zero =>
          cases hrequest
          cases hmessage
          refine iff_of_true ?_ rfl
          exact ⟨now, rfl, serve_single hrouter hcomplete now⟩
      | succ k =>
          rw [List.getElem?_cons_succ] at hrequest
          rw [responses, List.getElem?_cons_succ] at hmessage
          refine iff_of_false ?_ (Nat.succ_ne_zero k)
          exact not_sentAlone hrouter (head_respond router .create .create request) hcomplete
            hrequest hmessage

/-- Two requests for `GET /`. -/
def twoRequests : List (Bytes × Bytes) :=
  [(rootRequest, Bytes.ofString "Wed, 10 Jan 2024 15:06:14 GMT"),
    (rootRequest, Bytes.ofString "Wed, 10 Jan 2024 15:06:15 GMT")]

theorem completeRequest_rootRequest : CompleteRequest rootRequest :=
  ⟨by decide +kernel, by decide +kernel⟩

theorem completeRequest_twoRequests : ∀ request ∈ twoRequests, CompleteRequest request.1 := by
  intro request hmem
  simp only [twoRequests, List.mem_cons, List.not_mem_nil, or_false] at hmem
  rcases hmem with rfl | rfl
  · exact completeRequest_rootRequest
  · exact completeRequest_rootRequest

theorem sentAlone_iff_first_root :
    ∃ messages, serve (initHttpRouter unregisteredHandler unregisteredHandler) twoRequests
        = some messages ∧ messages.length = 2 ∧
      ∀ (k : Nat) (packet now message : Bytes), twoRequests[k]? = some (packet, now) →
        messages[k]? = some message →
          (SentAlone (initHttpRouter unregisteredHandler unregisteredHandler) packet now message
            ↔ k = 0) :=
  sentAlone_iff_first (completes_initHttpRouter completes_unregisteredHandler
    completes_unregisteredHandler) completeRequest_twoRequests

/-- What one could expect instead: every answer is that of a fresh session. -/
def RespondsAlone (router : HttpRouter) : Prop :=
  ∀ requests : List (Bytes × Bytes), (∀ request ∈ requests, CompleteRequest request.1) →
    ∃ messages, serve router requests = some messages ∧
      ∀ (k : Nat) (packet now : Bytes), requests[k]? = some (packet, now) →
        ∃ message, messages[k]? = some message ∧ SentAlone router packet now message

/-- The second answer starts with the first one's head. -/
theorem second_response_not_alone :
    ¬ RespondsAlone (initHttpRouter unregisteredHandler unregisteredHandler) := by
  intro halone
  have hrouter : (initHttpRouter unregisteredHandler unregisteredHandler).Completes :=
    completes_initHttpRouter completes_unregisteredHandler completes_unregisteredHandler
  obtain ⟨messages, hserve, hmessages⟩ := halone twoRequests completeRequest_twoRequests
  obtain ⟨message, hmessage, hfresh⟩ := hmessages 1 _ _ rfl
  rw [serve_eq hrouter completeRequest_twoRequests, Option.some.injEq] at hserve
  rw [← hserve, twoRequests, responses, List.getElem?_cons_succ] at hmessage
  exact not_sentAlone hrouter (head_respond _ _ _ _) completeRequest_rootRequest rfl hmessage hfresh

end GameDemoLearn.Servers
