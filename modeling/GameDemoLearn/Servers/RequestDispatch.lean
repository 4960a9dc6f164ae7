import GameDemoLearn.Servers.HttpServer
import GameDemoLearn.Servers.HttpSession

/-!
Which requests of a connection's byte stream reach `Route`. A packet is handled
by itself: `CoReadHandler` parses one packet and forgets what follows the first
request in it, and no packet is joined with the next.
-/

namespace GameDemoLearn.Servers

open Transition Net Net.Http Incremental

/-- The packets pushed in a run, in order. -/
def pushed (tr : List (LoggedSession × SessionAction)) : List Bytes :=
  tr.filterMap fun p =>
    match p.2 with
    | .push data => some data
    | _ => none

/-- The pairs handed to `Route`, in order. -/
def routedPairs (events : List SessionEvent) : List (Bytes × Bytes) :=
  events.filterMap fun event =>
    match event with
    | .routed method path => some (method, path)
    | _ => none

/-- A packet with a complete request at its front, of the given method and
path. -/
def BeginsWith (packet : Bytes) (pair : Bytes × Bytes) : Prop :=
  ∃ request more, packet = request ++ more ∧ requestOf request = some pair

theorem pushed_snoc (tr : List (LoggedSession × SessionAction)) (s : LoggedSession)
    (a : SessionAction) : pushed (tr ++ [(s, a)]) = pushed tr ++ pushed [(s, a)] :=
  List.filterMap_append

theorem routedPairs_append (events events' : List SessionEvent) :
    routedPairs (events ++ events') = routedPairs events ++ routedPairs events' :=
  List.filterMap_append

theorem routedPairs_onlySent {events : List SessionEvent} (hsent : OnlySent events) :
    routedPairs events = [] := by
  unfold routedPairs
  rw [List.filterMap_eq_nil_iff]
  intro event hevent
  obtain ⟨message, rfl⟩ := hsent event hevent
  rfl

theorem routedPairs_routeEvents (s : HttpSession) :
    routedPairs s.routeEvents = [(s.req.getMethod, s.req.getPath)] := by
  simp only [routedPairs, HttpSession.routeEvents]
  cases (s.router.find (HttpRouter.wholeName s.req.getMethod s.req.getPath)).isSome with
  | true => rfl
  | false => rfl

/-- A packet that begins with a request parses as that request. -/
theorem BeginsWith.done {packet : Bytes} {pair : Bytes × Bytes} (hbegin : BeginsWith packet pair) :
    ∃ request next, phrParseRequest packet MAX_HEADER_FIELD_NUM = .done request next ∧
      pair = (request.method.bytes, HttpParser.withoutQuery request.path.bytes) := by
  obtain ⟨first, more, rfl, hrequest⟩ := hbegin
  obtain ⟨request, next, hdone, -, hpair⟩ := requestOf_done hrequest
  exact ⟨request, next.append more, phrParseRequest_append hdone more, hpair⟩

theorem BeginsWith.unique {packet : Bytes} {pair pair' : Bytes × Bytes}
    (hbegin : BeginsWith packet pair) (hbegin' : BeginsWith packet pair') : pair = pair' := by
  obtain ⟨request, next, hdone, hpair⟩ := hbegin.done
  obtain ⟨request', next', hdone', hpair'⟩ := hbegin'.done
  rw [hdone] at hdone'
  cases hdone'
  rw [hpair, hpair']

theorem beginsWith_of_requestOf {packet : Bytes} {pair : Bytes × Bytes}
    (hrequest : requestOf packet = some pair) : BeginsWith packet pair :=
  ⟨packet, [], (List.append_nil packet).symm, hrequest⟩

/-- A packet that begins with a request has that request dispatched, whatever
the session handled before. -/
theorem popped_pair (s : HttpSession) {packet : MessageBuffer} {pair : Bytes × Bytes}
    (hbegin : BeginsWith packet.readable pair)
    (hlength : packet.readable.length ≤ MessageBuffer.INITIAL_BUFFER_SIZE)
    (rest : List MessageBuffer) :
    ((s.popped packet rest).req.getMethod, (s.popped packet rest).req.getPath) = pair := by
  obtain ⟨request, next, hdone, hpair⟩ := hbegin.done
  have hshort := lt_int_of_packet hlength
  obtain ⟨-, hmethod, hpath, -⟩ := s.req.parse_done hdone hshort
  rw [hpair]
  exact Prod.ext hmethod hpath

/-- The invariant of a run: the packets pushed are those popped so far and those
still queued, and the pairs routed are those of the popped packets. -/
def Dispatched (tr : List (LoggedSession × SessionAction)) (s : LoggedSession) : Prop :=
  ∃ popped, popped ++ s.session.readBufferQueue.queue.map MessageBuffer.readable = pushed tr ∧
    List.Forall₂ BeginsWith popped (routedPairs s.events)

theorem dispatched_step {tr : List (LoggedSession × SessionAction)} {s s' : LoggedSession}
    {a : SessionAction} (hs : s.session.Sound) (hdispatched : Dispatched tr s)
    (hbegin : ∀ packet ∈ pushed tr, ∃ pair, BeginsWith packet pair)
    (hstep : sessionStep s a = some s') : Dispatched (tr ++ [(s, a)]) s' := by
  obtain ⟨popped, hsplit, hrouted⟩ := hdispatched
  unfold Dispatched
  rw [pushed_snoc]
  rcases sessionStep_cases hs hstep with ⟨data, packet, rfl, hwell, hreadable, hdata, -, rfl⟩
    | ⟨now, rfl, hqueue, rfl⟩
    | ⟨now, packet, rest, rep, suspended, answers, rfl, hqueue, hsent, -, rfl⟩
    | ⟨run, now, rep, suspended, answers, rfl, hsent, -, rfl⟩ | ⟨c, rfl, rfl⟩
  · refine ⟨popped, ?_, hrouted⟩
    simp only [ProducerConsumerQueue.push, List.map_append, List.map_cons, List.map_nil, hreadable]
    rw [← List.append_assoc, hsplit]
    rfl
  · exact ⟨popped, by rw [hsplit]; exact (List.append_nil _).symm, hrouted⟩
  · have hpacket := hs.packets packet (by rw [hqueue]; exact List.mem_cons_self)
    have hmem : packet.readable ∈ pushed tr := by
      rw [← hsplit, hqueue]
      simp
    obtain ⟨pair, hpair⟩ := hbegin packet.readable hmem
    refine ⟨popped ++ [packet.readable], ?_, ?_⟩
    · rw [hqueue] at hsplit
      rw [← hsplit]
      simp [HttpSession.popped, pushed]
    · rw [routedPairs_append, routedPairs_append, routedPairs_onlySent hsent, List.append_nil,
        routedPairs_routeEvents, popped_pair s.session hpair hpacket.2.2 rest]
      exact List.rel_append hrouted (.cons hpair .nil)
  · refine ⟨popped, by rw [hsplit]; exact (List.append_nil _).symm, ?_⟩
    rw [routedPairs_append, routedPairs_onlySent hsent, List.append_nil]
    exact hrouted
  · exact ⟨popped, by rw [hsplit]; exact (List.append_nil _).symm, hrouted⟩

theorem dispatched_run {router : HttpRouter} {tr : List (LoggedSession × SessionAction)}
    {s : LoggedSession} (hrun : Run (sessionSystem router) tr s)
    (hbegin : ∀ packet ∈ pushed tr, ∃ pair, BeginsWith packet pair) : Dispatched tr s := by
  induction hrun with
  | start hinit =>
      cases hinit
      exact ⟨[], rfl, .nil⟩
  | snoc hrun hstep ih =>
      rw [pushed_snoc, List.forall_mem_append] at hbegin
      exact dispatched_step (sound_run hrun) (ih hbegin.1) hbegin.1 hstep

/-- When every packet begins with a complete request, the pairs routed are those
of the packets popped so far, in the order of the pushes. When moreover every
packet is just that request and none is left in the queue, they are the requests
of the stream. -/
theorem first_requests_dispatched {router : HttpRouter}
    {tr : List (LoggedSession × SessionAction)} {s : LoggedSession}
    (hrun : Run (sessionSystem router) tr s)
    (hbegin : ∀ packet ∈ pushed tr, ∃ pair, BeginsWith packet pair) :
    (∃ popped, popped ++ s.session.readBufferQueue.queue.map MessageBuffer.readable = pushed tr ∧
      List.Forall₂ BeginsWith popped (routedPairs s.events)) ∧
    ∀ pairs, (pushed tr).map requestOf = pairs.map some →
      s.session.readBufferQueue.queue = [] → routedPairs s.events = pairs := by
  have hdispatched := dispatched_run hrun hbegin
  refine ⟨hdispatched, ?_⟩
  intro pairs hpairs hqueue
  obtain ⟨popped, hsplit, hrouted⟩ := hdispatched
  rw [hqueue, List.map_nil, List.append_nil] at hsplit
  subst hsplit
  have hwhole : List.Forall₂ BeginsWith (pushed tr) pairs := by
    have hsame :
        List.Forall₂ (fun packet pair => requestOf packet = some pair) (pushed tr) pairs := by
      have heq : List.Forall₂ Eq ((pushed tr).map requestOf) (pairs.map some) := by
        rw [hpairs]
        exact List.forall₂_refl _
      simpa only [List.forall₂_map_left_iff, List.forall₂_map_right_iff] using heq
    exact hsame.imp fun packet pair h => beginsWith_of_requestOf h
  have hunique : Relator.RightUnique BeginsWith := fun _ _ _ hbegin hbegin' =>
    hbegin.unique hbegin'
  exact List.right_unique_forall₂' hunique hrouted hwhole

def rootPair : Bytes × Bytes := (Bytes.ofString "GET", Bytes.ofString "/")

theorem requestOf_rootRequest : requestOf rootRequest = some rootPair := by decide +kernel

theorem first_requests_dispatched_twice :
    ∃ tr s, Run (sessionSystem .create) tr s ∧ pushed tr = [rootRequest, rootRequest] ∧
      s.session.readBufferQueue.queue = [] ∧ routedPairs s.events = [rootPair, rootPair] := by
  have hresult : (exec sessionStep ⟨.create .create, []⟩
      [.push rootRequest, .push rootRequest, .coReadHandler [], .coReadHandler []]).map
        (fun result => (pushed result.1, result.2.session.readBufferQueue.queue.isEmpty))
      = some ([rootRequest, rootRequest], true) := by decide +kernel
  obtain ⟨⟨tr, s⟩, hexec, hpair⟩ := Option.map_eq_some_iff.mp hresult
  obtain ⟨hpushed, hempty⟩ := Prod.mk.inj hpair
  have hrun : Run (sessionSystem .create) tr s := run_of_session_exec hexec
  have hqueue := List.isEmpty_iff.mp hempty
  have hbegin : ∀ packet ∈ pushed tr, ∃ pair, BeginsWith packet pair := by
    intro packet hpacket
    rw [hpushed] at hpacket
    have hroot : packet = rootRequest := by simpa using hpacket
    exact ⟨rootPair, hroot ▸ beginsWith_of_requestOf requestOf_rootRequest⟩
  have hpairs : (pushed tr).map requestOf = [rootPair, rootPair].map some := by
    simp only [hpushed, List.map_cons, List.map_nil, requestOf_rootRequest]
  exact ⟨tr, s, hrun, hpushed, hqueue,
    (first_requests_dispatched hrun hbegin).2 [rootPair, rootPair] hpairs hqueue⟩

/-- What one could expect instead: however the reads cut the stream, its
requests are dispatched. -/
def DispatchesStream (router : HttpRouter) : Prop :=
  ∀ (requests : List Bytes) (pairs : List (Bytes × Bytes)),
    requests.map requestOf = pairs.map some → ∀ tr s, Run (sessionSystem router) tr s →
      (pushed tr).flatten = requests.flatten → s.session.readBufferQueue.queue = [] →
        routedPairs s.events = pairs

/-- Two requests that one read brings: the second is forgotten. -/
theorem second_request_forgotten : ¬ DispatchesStream .create := by
  intro hstream
  have hresult : (exec sessionStep ⟨.create .create, []⟩
      [.push (rootRequest ++ rootRequest), .coReadHandler []]).map
        (fun result => (pushed result.1, result.2.session.readBufferQueue.queue.isEmpty,
          routedPairs result.2.events))
      = some ([rootRequest ++ rootRequest], true, [rootPair]) := by decide +kernel
  obtain ⟨⟨tr, s⟩, hexec, htriple⟩ := Option.map_eq_some_iff.mp hresult
  obtain ⟨hpushed, hstate⟩ := Prod.mk.inj htriple
  obtain ⟨hempty, hrouted⟩ := Prod.mk.inj hstate
  have hrun : Run (sessionSystem .create) tr s := run_of_session_exec hexec
  have hboth : routedPairs s.events = [rootPair, rootPair] := by
    apply hstream [rootRequest, rootRequest] [rootPair, rootPair] _ tr s hrun _
      (List.isEmpty_iff.mp hempty)
    · simp only [List.map_cons, List.map_nil, requestOf_rootRequest]
    · simp only [hpushed, List.flatten_cons, List.flatten_nil, List.append_nil]
  have hlength := congrArg List.length hboth
  rw [hrouted] at hlength
  cases hlength

end GameDemoLearn.Servers
