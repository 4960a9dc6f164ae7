import GameDemoLearn.Lib.Transition
import GameDemoLearn.Net.Buffer
import GameDemoLearn.Net.Http.HttpRouter
import GameDemoLearn.Util.ProducerConsumerQueue

/-!
`HttpSession` (`HttpSession.cpp`): the packets that `ReadLoop` pushes and the
`CoReadHandler` runs that the ticks start. All runs share the session's request
and response. A run suspends only in the handler that `Route` awaits; what it
does between two suspensions happens on the logic thread without interruption.
A handler may also leave a task behind that sets the response later, as
`GET /task` does. The request keeps the text of the views that it shows;
`PacketContents` says how long that text is there in the source.
-/

namespace GameDemoLearn.Servers

open Transition Net Net.Http

/-- What a session does to the outside: it hands a method and a path to `Route`,
starts a registered handler, or gives a message to `SendMsg`. -/
inductive SessionEvent
  | routed (method path : Bytes)
  | ran (methodWholeName : Bytes)
  | sent (message : MessageBuffer)

structure HttpSession where
  readBufferQueue : ProducerConsumerQueue MessageBuffer
  req : HttpRequest
  rep : HttpResponse
  router : HttpRouter
  suspended : List HttpHandlerFunc

namespace HttpSession

/-- A session after `SetRouter`. -/
def create (router : HttpRouter) : HttpSession := ⟨.create, .create, .create, router, []⟩

/-- The end of `CoReadHandler`: the payload is written to a buffer of its size
and sent. -/
def answer (s : HttpSession) (now : Bytes) : Option (HttpSession × List SessionEvent) :=
  let rep := s.rep.getPayload now
  let response := rep.head
  ((MessageBuffer.create response.length).writeString response).map fun sendBuffer =>
    ({ s with rep }, [.sent sendBuffer])

/-- What `Route` reports: the pair it was given, and the handler it found. -/
def routeEvents (s : HttpSession) : List SessionEvent :=
  let method := s.req.getMethod
  let path := s.req.getPath
  let methodWholeName := HttpRouter.wholeName method path
  .routed method path ::
    if (s.router.find methodWholeName).isSome then [.ran methodWholeName] else []

/-- `co_await _router.Route(_req, _rep)` and, if that is done, the answer. -/
def routeAndAnswer (s : HttpSession) (now : Bytes) :
    Option (HttpSession × List SessionEvent) :=
  match s.router.route s.req s.rep with
  | (rep, none) =>
      (answer { s with rep } now).map fun result => (result.1, s.routeEvents ++ result.2)
  | (rep, some rest) => some ({ s with rep, suspended := s.suspended ++ [rest] }, s.routeEvents)

/-- `CoReadHandler` up to its end or to the suspension of its handler; `none`
where it would leave a buffer's storage. -/
def coReadHandler (s : HttpSession) (now : Bytes) : Option (HttpSession × List SessionEvent) :=
  match s.readBufferQueue.pop with
  | (none, _) => some (s, [])
  | (some packet, queue) =>
      if packet.readableBytes = 0 then
        some ({ s with readBufferQueue := queue }, [])
      else
        packet.readAllAsString.bind fun (_, content) =>
          if content = [] then
            some ({ s with readBufferQueue := queue }, [])
          else
            -- the status that `Parse` returns is not looked at
            routeAndAnswer { s with
              readBufferQueue := queue
              req := (s.req.parse content).2 } now

/-- A suspended run goes on. -/
def resume (s : HttpSession) (run : Nat) (rest : HttpHandlerFunc) (now : Bytes) :
    Option (HttpSession × List SessionEvent) :=
  match HttpRouter.runHandler (rest s.req.view) s.rep with
  | (rep, none) => answer { s with rep, suspended := s.suspended.eraseIdx run } now
  | (rep, some rest) => some ({ s with rep, suspended := s.suspended.set run rest }, [])

end HttpSession

/-- What was given to `SendMsg`, in order. -/
def sentMessages (events : List SessionEvent) : List Bytes :=
  events.filterMap fun event =>
    match event with
    | .sent message => some message.readable
    | _ => none

/-- The work left by the handlers that `Route` started. -/
def leftBehind (router : HttpRouter) (req : HttpRequest) (events : List SessionEvent) :
    List Deferred :=
  events.flatMap fun event =>
    match event with
    | .ran methodWholeName =>
        match router.find methodWholeName with
        | some handler => (handler req.view).leaves
        | none => []
    | _ => []

def OnlySent (events : List SessionEvent) : Prop :=
  ∀ event ∈ events, ∃ message, event = .sent message

/-- A session with the log of its events. -/
structure LoggedSession where
  session : HttpSession
  events : List SessionEvent

inductive SessionAction
  | push (data : Bytes)
  | coReadHandler (now : Bytes)
  | resume (run : Nat) (now : Bytes)
  | deferred (c : ResponseCall)

def LoggedSession.log (s : LoggedSession) (result : HttpSession × List SessionEvent) :
    LoggedSession :=
  ⟨result.1, s.events ++ result.2⟩

/-- The packet that `ReadLoop` pushes for the bytes it received. -/
def receivedPacket (data : Bytes) : Option MessageBuffer :=
  ((MessageBuffer.create MessageBuffer.INITIAL_BUFFER_SIZE).copyToWritPointer data).map
    fun buffer => buffer.writeDone data.length

/-- The steps of a session. A successful read brings at least one byte and no
more than the buffer has room for. -/
def sessionStep (s : LoggedSession) : SessionAction → Option LoggedSession
  | .push data =>
      if data = [] then
        none
      else
        (receivedPacket data).map fun packet =>
          { s with session := { s.session with
            readBufferQueue := s.session.readBufferQueue.push packet } }
  | .coReadHandler now => (s.session.coReadHandler now).map s.log
  | .resume run now =>
      match s.session.suspended[run]? with
      | some rest => (s.session.resume run rest now).map s.log
      | none => none
  | .deferred c => some { s with session := { s.session with rep := s.session.rep.apply c } }

/-- Sessions that use the given router, in any order of steps. -/
def sessionSystem (router : HttpRouter) : System LoggedSession SessionAction :=
  System.ofStep (fun s => s = ⟨.create router, []⟩) sessionStep

theorem run_of_session_exec {router : HttpRouter} {actions : List SessionAction}
    {tr : List (LoggedSession × SessionAction)} {s : LoggedSession}
    (hexec : exec sessionStep ⟨.create router, []⟩ actions = some (tr, s)) :
    Run (sessionSystem router) tr s := by
  have hinit : (sessionSystem router).init ⟨.create router, []⟩ := rfl
  exact run_of_exec hinit hexec

theorem sentMessages_append (events events' : List SessionEvent) :
    sentMessages (events ++ events') = sentMessages events ++ sentMessages events' :=
  List.filterMap_append

theorem sentMessages_routeEvents (s : HttpSession) : sentMessages s.routeEvents = [] := by
  simp only [sentMessages, HttpSession.routeEvents]
  cases (s.router.find (HttpRouter.wholeName s.req.getMethod s.req.getPath)).isSome with
  | true => rfl
  | false => rfl

/-- The parser's offsets into a packet fit an `int`. -/
theorem lt_int_of_packet {length : Nat} (hroom : length ≤ MessageBuffer.INITIAL_BUFFER_SIZE) :
    length < 2 ^ 31 := by
  simp only [MessageBuffer.INITIAL_BUFFER_SIZE] at hroom
  omega

section Steps

variable {s : HttpSession}

/-- The answer is sent whole: the buffer made for it holds the payload. -/
theorem HttpSession.answer_eq (s : HttpSession) (now : Bytes) :
    ∃ message, s.answer now = some ({ s with rep := s.rep.getPayload now }, [.sent message]) ∧
      message.readable = (s.rep.getPayload now).head := by
  obtain ⟨message, hwrite, -, hreadable⟩ :=
    (MessageBuffer.wellFormed_create (s.rep.getPayload now).head.length).write
      (s.rep.getPayload now).head
  refine ⟨message, ?_, ?_⟩
  · simp only [HttpSession.answer, MessageBuffer.writeString, MessageBuffer.writeVoid, hwrite,
      Option.map_some]
  · rw [hreadable, MessageBuffer.readable_create, List.nil_append]

/-- A packet is what the read brought. -/
theorem exists_receivedPacket {data : Bytes}
    (hroom : data.length ≤ MessageBuffer.INITIAL_BUFFER_SIZE) :
    ∃ packet, receivedPacket data = some packet ∧ packet.WellFormed ∧ packet.readable = data := by
  have hwritable : data.length
      ≤ (MessageBuffer.create MessageBuffer.INITIAL_BUFFER_SIZE).writableBytes := by
    simpa only [MessageBuffer.writableBytes, MessageBuffer.create, List.length_replicate,
      Nat.sub_zero] using hroom
  obtain ⟨buffer, hcopy, hwell, hreadable⟩ :=
    (MessageBuffer.wellFormed_create MessageBuffer.INITIAL_BUFFER_SIZE).copyToWritPointer
      hwritable (Nat.le_refl _)
  refine ⟨buffer.writeDone data.length, ?_, hwell, ?_⟩
  · rw [receivedPacket, hcopy, Option.map_some]
  · rw [hreadable, MessageBuffer.readable_create, List.nil_append, List.take_length]

theorem receivedPacket_spec {data : Bytes} {packet : MessageBuffer}
    (hpacket : receivedPacket data = some packet) :
    packet.WellFormed ∧ packet.readable = data ∧
      data.length ≤ MessageBuffer.INITIAL_BUFFER_SIZE := by
  have hroom : data.length ≤ MessageBuffer.INITIAL_BUFFER_SIZE := by
    by_contra hlong
    have hnone : receivedPacket data = none := by
      simp only [receivedPacket, MessageBuffer.copyToWritPointer, Bytes.store,
        MessageBuffer.create, List.length_replicate]
      rw [if_neg (by omega)]
      rfl
    rw [hnone] at hpacket
    cases hpacket
  obtain ⟨packet', hpacket', hwell, hreadable⟩ := exists_receivedPacket hroom
  rw [hpacket, Option.some.injEq] at hpacket'
  subst hpacket'
  exact ⟨hwell, hreadable, hroom⟩

theorem HttpSession.coReadHandler_nil (hshutdown : s.readBufferQueue.shutdown = false)
    (hqueue : s.readBufferQueue.queue = []) (now : Bytes) :
    s.coReadHandler now = some (s, []) := by
  simp only [HttpSession.coReadHandler, ProducerConsumerQueue.pop, hshutdown, hqueue]

/-- A handler that does not wait has its answer sent at once. -/
theorem HttpSession.routeAndAnswer_done {rep : HttpResponse}
    (hroute : s.router.route s.req s.rep = (rep, none)) (now : Bytes) :
    ∃ message, s.routeAndAnswer now
        = some ({ s with rep := rep.getPayload now }, s.routeEvents ++ [.sent message]) ∧
      message.readable = (rep.getPayload now).head := by
  obtain ⟨message, hanswer, hreadable⟩ := HttpSession.answer_eq { s with rep } now
  refine ⟨message, ?_, hreadable⟩
  simp only [HttpSession.routeAndAnswer, hroute, hanswer, Option.map_some]

/-- A run that has parsed its packet answers it or is suspended. -/
theorem HttpSession.routeAndAnswer_cases (s : HttpSession) (now : Bytes) :
    (∃ rep message, s.routeAndAnswer now
        = some ({ s with rep }, s.routeEvents ++ [.sent message]) ∧
      HttpResponse.HeadGrows s.rep.head rep.head) ∨
    (∃ rep rest, s.routeAndAnswer now
        = some ({ s with rep, suspended := s.suspended ++ [rest] }, s.routeEvents) ∧
      HttpResponse.HeadGrows s.rep.head rep.head) := by
  have hhead := s.router.head_route s.req s.rep
  rcases hroute : s.router.route s.req s.rep with ⟨rep, _ | rest⟩
  · rw [hroute] at hhead
    obtain ⟨message, hanswer, -⟩ := s.routeAndAnswer_done hroute now
    refine .inl ⟨rep.getPayload now, message, hanswer, ?_⟩
    rw [← hhead]
    exact rep.headGrows_getPayload now
  · rw [hroute] at hhead
    refine .inr ⟨rep, rest, ?_, .inl hhead⟩
    simp only [HttpSession.routeAndAnswer, hroute]

/-- A run that goes on answers its packet or is suspended again. -/
theorem HttpSession.resume_cases (s : HttpSession) (run : Nat) (rest : HttpHandlerFunc)
    (now : Bytes) :
    (∃ rep message, s.resume run rest now
        = some ({ s with rep, suspended := s.suspended.eraseIdx run }, [.sent message]) ∧
      HttpResponse.HeadGrows s.rep.head rep.head) ∨
    (∃ rep rest', s.resume run rest now
        = some ({ s with rep, suspended := s.suspended.set run rest' }, []) ∧
      HttpResponse.HeadGrows s.rep.head rep.head) := by
  have hhead := HttpRouter.head_runHandler (rest s.req.view) s.rep
  rcases hrun : HttpRouter.runHandler (rest s.req.view) s.rep with ⟨rep, _ | rest'⟩
  · rw [hrun] at hhead
    obtain ⟨message, hanswer, -⟩ :=
      HttpSession.answer_eq { s with rep, suspended := s.suspended.eraseIdx run } now
    refine .inl ⟨rep.getPayload now, message, ?_, ?_⟩
    · simp only [HttpSession.resume, hrun, hanswer]
    · rw [← hhead]
      exact rep.headGrows_getPayload now
  · rw [hrun] at hhead
    refine .inr ⟨rep, rest', ?_, .inl hhead⟩
    simp only [HttpSession.resume, hrun]

/-- `Route` and the answer change neither the queue nor the request nor the
router, and report what was routed first. -/
theorem HttpSession.routeAndAnswer_spec (s : HttpSession) (now : Bytes) :
    ∃ rep suspended answers,
      s.routeAndAnswer now = some ({ s with rep, suspended }, s.routeEvents ++ answers) ∧
      OnlySent answers ∧ HttpResponse.HeadGrows s.rep.head rep.head := by
  rcases s.routeAndAnswer_cases now with ⟨rep, message, hroute, hhead⟩ | ⟨rep, rest, hroute, hhead⟩
  · exact ⟨rep, s.suspended, [.sent message], hroute,
      List.forall_mem_singleton.mpr ⟨message, rfl⟩, hhead⟩
  · refine ⟨rep, s.suspended ++ [rest], [], ?_, List.forall_mem_nil _, hhead⟩
    rw [hroute, List.append_nil]

theorem HttpSession.resume_spec (s : HttpSession) (run : Nat) (rest : HttpHandlerFunc)
    (now : Bytes) :
    ∃ rep suspended answers,
      s.resume run rest now = some ({ s with rep, suspended }, answers) ∧
      OnlySent answers ∧ HttpResponse.HeadGrows s.rep.head rep.head := by
  rcases s.resume_cases run rest now with ⟨rep, message, hresume, hhead⟩
    | ⟨rep, rest', hresume, hhead⟩
  · exact ⟨rep, s.suspended.eraseIdx run, [.sent message], hresume,
      List.forall_mem_singleton.mpr ⟨message, rfl⟩, hhead⟩
  · exact ⟨rep, s.suspended.set run rest', [], hresume, List.forall_mem_nil _, hhead⟩

end Steps

/-- The queue is open and holds packets as `ReadLoop` makes them. -/
structure HttpSession.Sound (s : HttpSession) : Prop where
  shutdown : s.readBufferQueue.shutdown = false
  packets : ∀ packet ∈ s.readBufferQueue.queue, packet.WellFormed ∧ packet.readable ≠ [] ∧
    packet.readable.length ≤ MessageBuffer.INITIAL_BUFFER_SIZE

/-- The session after a run popped a packet and parsed it. -/
def HttpSession.popped (s : HttpSession) (packet : MessageBuffer) (rest : List MessageBuffer) :
    HttpSession :=
  { s with
    readBufferQueue := { s.readBufferQueue with queue := rest }
    req := (s.req.parse packet.readable).2 }

section Popped

variable {s : HttpSession} {packet : MessageBuffer} {rest : List MessageBuffer}

/-- A run that pops a packet parses all of it and goes on to `Route`. -/
theorem HttpSession.Sound.coReadHandler_eq (hs : s.Sound)
    (hqueue : s.readBufferQueue.queue = packet :: rest) (now : Bytes) :
    s.coReadHandler now = (s.popped packet rest).routeAndAnswer now := by
  obtain ⟨hwell, hcontent, -⟩ := hs.packets packet (by rw [hqueue]; exact List.mem_cons_self)
  have hlength := hwell.length_readable
  have hbytes : packet.readableBytes ≠ 0 := by
    rw [← hlength]
    exact fun h => hcontent (List.length_eq_zero_iff.mp h)
  obtain ⟨packet', hread, -, -⟩ := hwell.readAsString (Nat.le_refl packet.readableBytes)
  rw [List.take_of_length_le (Nat.le_of_eq hlength)] at hread
  simp only [HttpSession.coReadHandler, ProducerConsumerQueue.pop, HttpSession.popped,
    hs.shutdown, hqueue, if_neg hbytes, MessageBuffer.readAllAsString, hread, Option.bind_some,
    if_neg hcontent]

/-- Such a run answers the packet or is suspended. -/
theorem HttpSession.Sound.coReadHandler_cases (hs : s.Sound)
    (hqueue : s.readBufferQueue.queue = packet :: rest) (now : Bytes) :
    (∃ rep message, s.coReadHandler now = some ({ s.popped packet rest with rep },
        (s.popped packet rest).routeEvents ++ [.sent message])) ∨
    (∃ rep handler, s.coReadHandler now
        = some ({ s.popped packet rest with rep, suspended := s.suspended ++ [handler] },
          (s.popped packet rest).routeEvents)) := by
  rw [hs.coReadHandler_eq hqueue]
  rcases (s.popped packet rest).routeAndAnswer_cases now
    with ⟨rep, message, hroute, -⟩ | ⟨rep, handler, hroute, -⟩
  · exact .inl ⟨rep, message, hroute⟩
  · exact .inr ⟨rep, handler, hroute⟩

end Popped

/-- What a step of a session can be: a push, a run that finds no packet, a run
that dispatches a packet, a run that goes on, or a task that was left behind. -/
theorem sessionStep_cases {s s' : LoggedSession} {a : SessionAction} (hs : s.session.Sound)
    (hstep : sessionStep s a = some s') :
    (∃ data packet, a = .push data ∧ packet.WellFormed ∧ packet.readable = data ∧ data ≠ [] ∧
      data.length ≤ MessageBuffer.INITIAL_BUFFER_SIZE ∧
      s' = ⟨{ s.session with readBufferQueue := s.session.readBufferQueue.push packet },
        s.events⟩) ∨
    (∃ now, a = .coReadHandler now ∧ s.session.readBufferQueue.queue = [] ∧ s' = s) ∨
    (∃ now packet rest rep suspended answers, a = .coReadHandler now ∧
      s.session.readBufferQueue.queue = packet :: rest ∧ OnlySent answers ∧
      HttpResponse.HeadGrows s.session.rep.head rep.head ∧
      s' = ⟨{ s.session.popped packet rest with rep, suspended },
        s.events ++ ((s.session.popped packet rest).routeEvents ++ answers)⟩) ∨
    (∃ run now rep suspended answers, a = .resume run now ∧ OnlySent answers ∧
      HttpResponse.HeadGrows s.session.rep.head rep.head ∧
      s' = ⟨{ s.session with rep, suspended }, s.events ++ answers⟩) ∨
    (∃ c, a = .deferred c ∧
      s' = ⟨{ s.session with rep := s.session.rep.apply c }, s.events⟩) := by
  cases a with
  | push data =>
      left
      simp only [sessionStep] at hstep
      split at hstep
      · cases hstep
      · next hdata =>
          obtain ⟨packet, hpacket, rfl⟩ := Option.map_eq_some_iff.mp hstep
          obtain ⟨hwell, hreadable, hlength⟩ := receivedPacket_spec hpacket
          exact ⟨data, packet, rfl, hwell, hreadable, hdata, hlength, rfl⟩
  | coReadHandler now =>
      right
      simp only [sessionStep] at hstep
      cases hqueue : s.session.readBufferQueue.queue with
      | nil =>
          left
          rw [HttpSession.coReadHandler_nil hs.shutdown hqueue, Option.map_some,
            Option.some.injEq] at hstep
          refine ⟨now, rfl, rfl, ?_⟩
          rw [← hstep, LoggedSession.log, List.append_nil]
      | cons packet rest =>
          right
          left
          obtain ⟨rep, suspended, answers, hroute, hsent, hhead⟩ :=
            (s.session.popped packet rest).routeAndAnswer_spec now
          rw [hs.coReadHandler_eq hqueue, hroute, Option.map_some, Option.some.injEq] at hstep
          exact ⟨now, packet, rest, rep, suspended, answers, rfl, rfl, hsent, hhead, hstep.symm⟩
  | resume run now =>
      right
      right
      right
      left
      simp only [sessionStep] at hstep
      split at hstep
      · next continuation hrun =>
          obtain ⟨rep, suspended, answers, hresume, hsent, hhead⟩ :=
            s.session.resume_spec run continuation now
          rw [hresume, Option.map_some, Option.some.injEq] at hstep
          exact ⟨run, now, rep, suspended, answers, rfl, hsent, hhead, hstep.symm⟩
      · cases hstep
  | deferred c =>
      right
      right
      right
      right
      exact ⟨c, rfl, (Option.some.inj hstep).symm⟩

theorem HttpSession.sound_create (router : HttpRouter) : (create router).Sound := by
  constructor
  · rfl
  · intro packet hpacket
    cases hpacket

/-- Every step keeps the queue as it should be. -/
theorem HttpSession.Sound.step {s s' : LoggedSession} {a : SessionAction}
    (hs : s.session.Sound) (hstep : sessionStep s a = some s') : s'.session.Sound := by
  rcases sessionStep_cases hs hstep with ⟨data, packet, -, hwell, hreadable, hdata, hlength, rfl⟩
    | ⟨now, -, -, rfl⟩ | ⟨now, packet, rest, rep, suspended, answers, -, hqueue, -, -, rfl⟩
    | ⟨run, now, rep, suspended, answers, -, -, -, rfl⟩ | ⟨c, -, rfl⟩
  · refine ⟨hs.shutdown, ?_⟩
    simp only [ProducerConsumerQueue.push, List.forall_mem_append, List.forall_mem_singleton]
    refine ⟨hs.packets, hwell, ?_, ?_⟩
    · rw [hreadable]
      exact hdata
    · rw [hreadable]
      exact hlength
  · exact hs
  · refine ⟨hs.shutdown, ?_⟩
    intro other hother
    apply hs.packets other
    rw [hqueue]
    exact List.mem_cons_of_mem _ hother
  · exact ⟨hs.shutdown, hs.packets⟩
  · exact ⟨hs.shutdown, hs.packets⟩

theorem sound_run {router : HttpRouter} {tr : List (LoggedSession × SessionAction)}
    {s : LoggedSession} (hrun : Run (sessionSystem router) tr s) : s.session.Sound := by
  apply hrun.invariant fun s => s.session.Sound
  · rintro s rfl
    exact HttpSession.sound_create router
  · intro s a s' hs hstep
    exact hs.step hstep

end GameDemoLearn.Servers
