import GameDemoLearn.Net.WireOrder
import GameDemoLearn.Servers.RequestService

/-!
A session together with its `WriteLoop`: what the handlers answer on the logic thread goes through
`SendMsg` to the write queue, and from there to the socket. The client gets the answers of the
request service, one behind the other and in their order.
-/

namespace GameDemoLearn.Servers

open Transition Net Net.Http

/-- A session and its write side, on which the logic thread is the only caller of `SendMsg`. -/
structure Connection where
  session : ContentSession
  write : WriteSide Unit

inductive ConnectionAction
  | session (a : SessionAction)
  | cancelOne
  | closeSession
  | writeLoop (a : LoopAction)

def SessionEvent.message? : SessionEvent → Option MessageBuffer
  | .sent message => some message
  | _ => none

/-- The buffers that a step of the session gives to `SendMsg`. -/
def newMessages (before after : LoggedSession) : List MessageBuffer :=
  (after.events.drop before.events.length).filterMap SessionEvent.message?

/-- `SendMsg` up to its `cancel_one`, for one buffer after the other. -/
def sendMessages (write : WriteSide Unit) : List MessageBuffer → Option (WriteSide Unit)
  | [] => some write
  | message :: rest =>
      (writeStep write (.sendMsg () message)).bind fun write => sendMessages write rest

namespace Connection

def create (router : HttpRouter) : Connection := ⟨.create router, startedSession Unit⟩

/-- The step reads no content that is gone. -/
def ReadsHeld (s : Connection) : ConnectionAction → Prop
  | .session a => s.session.ReadsHeld a
  | _ => True

end Connection

/-- The steps of the session, of `SendMsg` and of `WriteLoop`, in any order. -/
def connectionStep (s : Connection) : ConnectionAction → Option Connection
  | .session a =>
      (contentStep s.session a).bind fun after =>
        (sendMessages s.write (newMessages s.session.logged after.logged)).map fun write =>
          ⟨after, write⟩
  | .cancelOne => (writeStep s.write (.cancelOne ())).map fun write => { s with write }
  | .closeSession => (writeStep s.write .closeSession).map fun write => { s with write }
  | .writeLoop a => (writeStep s.write (.loop a)).map fun write => { s with write }

def connectionSystem (router : HttpRouter) : System Connection ConnectionAction :=
  (System.ofStep (fun s => s = .create router) connectionStep).restrict Connection.ReadsHeld

/-- The steps of the session among those of the connection. -/
def sessionSteps (tr : List (Connection × ConnectionAction)) :
    List (ContentSession × SessionAction) :=
  tr.filterMap fun p =>
    match p.2 with
    | .session a => some (p.1.session, a)
    | _ => none

/-- The bytes of the buffers that the session gave to `SendMsg`. -/
def LoggedSession.sentBytes (s : LoggedSession) : Bytes :=
  (s.events.filterMap SessionEvent.message?).flatMap MessageBuffer.readable

section Steps

variable {write write' : WriteSide Unit}

/-- A buffer without readable bytes adds nothing. -/
theorem pushedMessage_bytes (write : WriteSide Unit) (message : MessageBuffer) :
    (pushedMessage (write, .sendMsg () message)).flatMap MessageBuffer.readable
      = message.readable := by
  rw [pushedMessage]
  by_cases hempty : message.readableBytes = 0
  case pos =>
    have hle : message.writeIndex ≤ message.readIndex := Nat.le_of_sub_eq_zero hempty
    rw [if_pos hempty, MessageBuffer.readable, List.flatMap_nil, List.drop_of_length_le]
    exact (List.length_take_le _ _).trans hle
  case neg => rw [if_neg hempty, List.flatMap_singleton]

/-- Steps of callers, one behind the other. -/
theorem bytesMove_append {middle : WriteSide Unit} {pushed pushed' : Bytes}
    (h : BytesMove write middle pushed []) (h' : BytesMove middle write' pushed' []) :
    BytesMove write write' (pushed ++ pushed') [] := by
  refine ⟨?_, fun hlive => ?_, fun _ => ⟨List.nil_prefix, fun _ => rfl⟩⟩
  · rw [h'.socket, h.socket, List.append_nil]
  · obtain ⟨hmiddle, hlast⟩ := h'.kept hlive
    obtain ⟨hfirst, hbefore⟩ := h.kept hmiddle
    rw [List.nil_append] at hlast hbefore
    exact ⟨hfirst, by rw [List.nil_append, hlast, hbefore, List.append_assoc]⟩

/-- What `SendMsg` is given gets behind the bytes on their way. -/
theorem sendMessages_moves {messages : List MessageBuffer}
    (hsend : sendMessages write messages = some write') :
    BytesMove write write' (messages.flatMap MessageBuffer.readable) [] := by
  induction messages generalizing write with
  | nil =>
      cases hsend
      exact .of_caller rfl Iff.rfl (List.append_nil _).symm
  | cons message rest ih =>
      obtain ⟨middle, hstep, hrest⟩ := Option.bind_eq_some_iff.mp hsend
      have hfirst := writeStep_moves hstep
      rw [pushedMessage_bytes] at hfirst
      exact bytesMove_append hfirst (ih hrest)

variable {s s' : Connection}

theorem message?_routeEvents (session : HttpSession) :
    session.routeEvents.filterMap SessionEvent.message? = [] := by
  simp only [HttpSession.routeEvents]
  cases (session.router.find (HttpRouter.wholeName session.req.getMethod
    session.req.getPath)).isSome with
  | true => rfl
  | false => rfl

/-- A step of the session adds to the log, and at most one message. -/
theorem exists_newEvents {before after : LoggedSession} {a : SessionAction}
    (hsound : before.session.Sound) (hstep : sessionStep before a = some after) :
    ∃ events, after.events = before.events ++ events ∧
      (events.filterMap SessionEvent.message?).length ≤ 1 := by
  cases a with
  | push data =>
      simp only [sessionStep] at hstep
      split at hstep
      · cases hstep
      · obtain ⟨packet, -, rfl⟩ := Option.map_eq_some_iff.mp hstep
        exact ⟨[], (List.append_nil _).symm, Nat.zero_le 1⟩
  | coReadHandler now =>
      obtain ⟨result, hresult, rfl⟩ := Option.map_eq_some_iff.mp hstep
      refine ⟨result.2, rfl, ?_⟩
      cases hqueue : before.session.readBufferQueue.queue with
      | nil =>
          rw [HttpSession.coReadHandler_nil hsound.shutdown hqueue] at hresult
          cases hresult
          exact Nat.zero_le 1
      | cons packet rest =>
          rcases hsound.coReadHandler_cases hqueue now with ⟨rep, message, hrun⟩
            | ⟨rep, handler, hrun⟩
          · rw [hrun] at hresult
            cases hresult
            rw [List.filterMap_append, message?_routeEvents]
            exact Nat.le_refl 1
          · rw [hrun] at hresult
            cases hresult
            rw [message?_routeEvents]
            exact Nat.zero_le 1
  | resume run now =>
      simp only [sessionStep] at hstep
      split at hstep
      · next rest hrest =>
          obtain ⟨result, hresult, rfl⟩ := Option.map_eq_some_iff.mp hstep
          refine ⟨result.2, rfl, ?_⟩
          rcases before.session.resume_cases run rest now
            with ⟨rep, message, hresume, -⟩ | ⟨rep, handler, hresume, -⟩
          · rw [hresume] at hresult
            cases hresult
            exact Nat.le_refl 1
          · rw [hresume] at hresult
            cases hresult
            exact Nat.zero_le 1
      · cases hstep
  | deferred c =>
      cases hstep
      exact ⟨[], (List.append_nil _).symm, Nat.zero_le 1⟩

theorem sentBytes_step {before after : LoggedSession} {a : SessionAction}
    (hsound : before.session.Sound) (hstep : sessionStep before a = some after) :
    after.sentBytes
      = before.sentBytes ++ (newMessages before after).flatMap MessageBuffer.readable := by
  obtain ⟨events, hevents, -⟩ := exists_newEvents hsound hstep
  rw [newMessages, LoggedSession.sentBytes, LoggedSession.sentBytes, hevents, List.drop_left,
    List.filterMap_append, List.flatMap_append]

/-- How a step moves the bytes of the answers. -/
theorem connectionStep_moves {a : ConnectionAction} (hsound : s.session.logged.session.Sound)
    (hstep : connectionStep s a = some s') :
    ∃ pushed written, BytesMove s.write s'.write pushed written ∧
      s'.session.logged.sentBytes = s.session.logged.sentBytes ++ pushed := by
  cases a with
  | session a =>
      obtain ⟨after, hsession, hsent⟩ := Option.bind_eq_some_iff.mp hstep
      obtain ⟨write, hsend, rfl⟩ := Option.map_eq_some_iff.mp hsent
      have hlogged := logged_contentStep hsession
      exact ⟨_, [], sendMessages_moves hsend, sentBytes_step hsound hlogged⟩
  | cancelOne =>
      obtain ⟨write, hwrite, rfl⟩ := Option.map_eq_some_iff.mp hstep
      exact ⟨[], _, writeStep_moves hwrite, (List.append_nil _).symm⟩
  | closeSession =>
      cases hstep
      exact ⟨[], _, writeStep_moves (a := .closeSession) rfl, (List.append_nil _).symm⟩
  | writeLoop a =>
      obtain ⟨write, hwrite, rfl⟩ := Option.map_eq_some_iff.mp hstep
      exact ⟨[], _, writeStep_moves hwrite, (List.append_nil _).symm⟩

/-- The session, and whether a step of the connection was one of it. -/
theorem connectionStep_session {a : ConnectionAction} (hstep : connectionStep s a = some s') :
    (∃ b, a = .session b ∧ contentStep s.session b = some s'.session) ∨
      (sessionSteps [(s, a)] = [] ∧ s'.session = s.session) := by
  cases a with
  | session a =>
      obtain ⟨after, hsession, hsent⟩ := Option.bind_eq_some_iff.mp hstep
      obtain ⟨write, hsend, rfl⟩ := Option.map_eq_some_iff.mp hsent
      exact .inl ⟨a, rfl, hsession⟩
  | closeSession =>
      cases hstep
      exact .inr ⟨rfl, rfl⟩
  | _ =>
      obtain ⟨write, hwrite, rfl⟩ := Option.map_eq_some_iff.mp hstep
      exact .inr ⟨rfl, rfl⟩

end Steps

/-- The bytes of the answers are on the socket or on their way, in their order. -/
structure Connection.Delivers (s : Connection) : Prop where
  front : s.write.socket <+: s.session.logged.sentBytes
  live : s.write.writer ≠ .returned →
    s.write.socket ++ s.write.unwritten = s.session.logged.sentBytes

theorem Connection.Delivers.step {s s' : Connection} {a : ConnectionAction} (hs : s.Delivers)
    (hsound : s.session.logged.session.Sound) (hstep : connectionStep s a = some s') :
    s'.Delivers := by
  obtain ⟨pushed, written, hmoves, hsent⟩ := connectionStep_moves hsound hstep
  have hlive : s'.write.writer ≠ .returned →
      s'.write.socket ++ s'.write.unwritten = s'.session.logged.sentBytes := by
    intro hwriter
    obtain ⟨hbefore, hbytes⟩ := hmoves.kept hwriter
    rw [hmoves.socket, List.append_assoc, hbytes, ← List.append_assoc, hs.live hbefore, hsent]
  refine ⟨?_, hlive⟩
  by_cases hwriter : s'.write.writer = .returned
  case neg =>
    rw [← hlive hwriter]
    exact List.prefix_append _ _
  case pos =>
    obtain ⟨hfront, hnone⟩ := hmoves.ended hwriter
    rw [hmoves.socket, hsent]
    refine List.IsPrefix.trans ?_ (List.prefix_append _ _)
    by_cases hbefore : s.write.writer = .returned
    case pos =>
      rw [hnone hbefore, List.append_nil]
      exact hs.front
    case neg =>
      rw [← hs.live hbefore]
      exact (List.prefix_append_right_inj _).mpr hfront

section Runs

variable {router : HttpRouter} {tr : List (Connection × ConnectionAction)} {s : Connection}

/-- The session of a connection does what a session does. -/
theorem session_run (hrun : Run (connectionSystem router) tr s) :
    Run (contentSystem router) (sessionSteps tr) s.session := by
  induction hrun with
  | start hinit =>
      obtain rfl : _ = Connection.create router := hinit
      exact .start rfl
  | @snoc tr s s' a _ hstep ih =>
      obtain ⟨hheld, hstep⟩ := hstep
      rw [sessionSteps, List.filterMap_append]
      rcases connectionStep_session hstep with ⟨b, rfl, hsession⟩ | ⟨hnone, hsame⟩
      case inl => exact ih.snoc ⟨hheld, hsession⟩
      case inr =>
        change Run (contentSystem router) (sessionSteps tr ++ sessionSteps [(s, a)]) s'.session
        rw [hnone, List.append_nil, hsame]
        exact ih

theorem connection_sound (hrun : Run (connectionSystem router) tr s) :
    s.session.logged.session.Sound := sound_run (logged_run (session_run hrun))

/-- A session that is not within a `SendMsg` can take each of its steps. -/
theorem exists_connectionStep {a : SessionAction} {after : ContentSession}
    (hsound : s.session.logged.session.Sound) (hidle : s.write.sending () = false)
    (hstep : contentStep s.session a = some after) :
    ∃ write, connectionStep s (.session a) = some ⟨after, write⟩ := by
  obtain ⟨events, hevents, hone⟩ := exists_newEvents hsound (logged_contentStep hstep)
  have hnew : newMessages s.session.logged after.logged
      = events.filterMap SessionEvent.message? := by
    rw [newMessages, hevents, List.drop_left]
  rw [← hnew] at hone
  have hsend : ∃ write,
      sendMessages s.write (newMessages s.session.logged after.logged) = some write := by
    rcases hmessages : newMessages s.session.logged after.logged
      with _ | ⟨message, _ | ⟨other, rest⟩⟩
    · exact ⟨s.write, rfl⟩
    · rw [sendMessages, writeStep, if_neg (by rw [hidle]; exact Bool.false_ne_true)]
      split
      · exact ⟨_, rfl⟩
      · exact ⟨_, rfl⟩
    · rw [hmessages] at hone
      exact absurd hone (by simp)
  obtain ⟨write, hsend⟩ := hsend
  refine ⟨write, ?_⟩
  rw [connectionStep, hstep, Option.bind_some, hsend, Option.map_some]

/-- The connection keeps no step from its session: every run of a session is the session of a run
of a connection. -/
theorem exists_connection_run {router : HttpRouter} {tr : List (ContentSession × SessionAction)}
    {s : ContentSession} (hrun : Run (contentSystem router) tr s) :
    ∃ tr' s', Run (connectionSystem router) tr' s' ∧ sessionSteps tr' = tr ∧ s'.session = s ∧
      s'.write.sending () = false := by
  induction hrun with
  | start hinit =>
      obtain rfl : _ = ContentSession.create router := hinit
      exact ⟨[], .create router, .start rfl, rfl, rfl, rfl⟩
  | @snoc tr s after a hrun hstep ih =>
      obtain ⟨hheld, hstep⟩ := hstep
      obtain ⟨tr', s', hrun', hsteps, rfl, hidle⟩ := ih
      obtain ⟨write, hnext⟩ := exists_connectionStep (connection_sound hrun') hidle hstep
      have hsessionRun : Run (connectionSystem router) (tr' ++ [(s', .session a)])
          ⟨after, write⟩ := hrun'.snoc ⟨hheld, hnext⟩
      have hsessionSteps : sessionSteps (tr' ++ [(s', .session a)]) = tr ++ [(s'.session, a)] := by
        rw [sessionSteps, List.filterMap_append]
        exact congrArg (· ++ [(s'.session, a)]) hsteps
      cases hsending : write.sending () with
      | false => exact ⟨_, _, hsessionRun, hsessionSteps, rfl, hsending⟩
      | true =>
          -- the `cancel_one` of the `SendMsg` ends it
          have hcancel : (connectionSystem router).step ⟨after, write⟩ .cancelOne ⟨after,
              { write with
                writer := write.writer.cancelOne
                sending := Function.update write.sending () false }⟩ := by
            refine ⟨trivial, ?_⟩
            change connectionStep ⟨after, write⟩ .cancelOne = some _
            simp only [connectionStep, writeStep, hsending, if_true, Option.map_some]
          have hidle' : Function.update write.sending () false () = false :=
            Function.update_self () false write.sending
          refine ⟨_, _, hsessionRun.snoc hcancel, ?_, rfl, hidle'⟩
          rw [← hsessionSteps, sessionSteps, List.filterMap_append]
          exact List.append_nil _

end Runs

end GameDemoLearn.Servers
