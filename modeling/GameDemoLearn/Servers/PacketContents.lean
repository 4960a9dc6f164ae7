import GameDemoLearn.Net.Http.ParserReuse
import GameDemoLearn.Servers.HttpSession

/-!
The contents of the packets (`HttpSession.cpp`). `CoReadHandler` parses a string
that lives as long as its run, and `_req` keeps views of it that the runs for
later packets may read. Here the contents are numbered in the order of their
packets, and a session knows which runs are still there and whose content it
views. To read a content that is gone has no defined result, so no step of
`contentSystem` does.
-/

namespace GameDemoLearn.Servers

open Transition Net Net.Http

/-- A session with the contents of the packets it popped so far; `serving` are
the packets of the suspended runs, in the order of `suspended`. The method, the
path and the headers of `_req` view the content `viewed`, if a packet has been
parsed, and each entry of `_queries` views the one in `keyed`. -/
structure ContentSession where
  logged : LoggedSession
  contents : List Bytes
  serving : List Nat
  viewed : Option Nat
  keyed : List Nat

/-- What the handler does is the same for all characters that the views could
show. -/
def IgnoresText (handler : HttpHandlerFunc) (shown : HttpRequest.View) : Prop :=
  ∀ view : HttpRequest.View, view.method.length = shown.method.length →
    view.path.length = shown.path.length → view.version = shown.version →
      view.body = shown.body → handler view = handler shown

namespace ContentSession

def create (router : HttpRouter) : ContentSession := ⟨⟨.create router, []⟩, [], [], none, []⟩

/-- The run for the next content: it is suspended, or it ends and the content is
gone. -/
def started (s : ContentSession) (content : Bytes) (after : LoggedSession) :
    ContentSession where
  logged := after
  contents := s.contents ++ [content]
  serving :=
    if s.logged.session.suspended.length < after.session.suspended.length then
      s.serving ++ [s.contents.length]
    else
      s.serving
  viewed :=
    if (s.logged.session.req.parse content).1 = .ok then some s.contents.length else s.viewed
  keyed := s.keyed ++ List.replicate
    (after.session.req.parser.queries.length - s.logged.session.req.parser.queries.length)
    s.contents.length

def resumed (s : ContentSession) (run : Nat) (after : LoggedSession) : ContentSession where
  logged := after
  contents := s.contents
  serving :=
    if after.session.suspended.length < s.logged.session.suspended.length then
      s.serving.eraseIdx run
    else
      s.serving
  viewed := s.viewed
  keyed := s.keyed

/-- The content that the method, the path and the headers view is still there. -/
def ViewsHeld (s : ContentSession) : Prop := ∀ n ∈ s.viewed, n ∈ s.serving

/-- The contents that the entries of `_queries` view are still there. -/
def QueriesHeld (s : ContentSession) : Prop := ∀ n ∈ s.keyed, n ∈ s.serving

instance (s : ContentSession) : Decidable s.ViewsHeld :=
  inferInstanceAs (Decidable (∀ n ∈ s.viewed, n ∈ s.serving))

instance (s : ContentSession) : Decidable s.QueriesHeld :=
  inferInstanceAs (Decidable (∀ n ∈ s.keyed, n ∈ s.serving))

/-- The step reads no content that is gone. The run of a packet has its own
content; one that `Parse` refuses is routed with the views that were there, and
the keys of a query are compared with those of earlier ones. -/
def ReadsHeld (s : ContentSession) : SessionAction → Prop
  | .push _ => True
  | .coReadHandler _ => ∀ packet ∈ s.logged.session.readBufferQueue.pop.1,
      ((s.logged.session.req.parse packet.readable).1 ≠ .ok → s.ViewsHeld) ∧
        ((HttpRequest.create.parse packet.readable).2.parser.queries ≠ [] → s.QueriesHeld)
  | .resume run _ => ∀ rest ∈ s.logged.session.suspended[run]?,
      s.ViewsHeld ∨ IgnoresText rest s.logged.session.req.view
  | .deferred _ => True

end ContentSession

/-- The steps of `sessionStep`. -/
def contentStep (s : ContentSession) (a : SessionAction) : Option ContentSession :=
  (sessionStep s.logged a).map fun after =>
    match a with
    | .coReadHandler _ =>
        match s.logged.session.readBufferQueue.pop.1 with
        | some packet => s.started packet.readable after
        | none => { s with logged := after }
    | .resume run _ => s.resumed run after
    | _ => { s with logged := after }

theorem HttpSession.Sound.pop_eq {session : HttpSession} (hs : session.Sound) :
    session.readBufferQueue.pop.1 = session.readBufferQueue.queue.head? := by
  rw [ProducerConsumerQueue.pop, hs.shutdown]
  cases session.readBufferQueue.queue <;> rfl

/-- Sessions that use the given router and read only contents that are there. -/
def contentSystem (router : HttpRouter) : System ContentSession SessionAction :=
  (System.ofStep (fun s => s = .create router) contentStep).restrict ContentSession.ReadsHeld

section Steps

variable {s s' : ContentSession} {a : SessionAction}

theorem logged_contentStep (hstep : contentStep s a = some s') :
    sessionStep s.logged a = some s'.logged := by
  obtain ⟨after, hsession, rfl⟩ := Option.map_eq_some_iff.mp hstep
  rw [hsession]
  cases a with
  | coReadHandler now => cases s.logged.session.readBufferQueue.pop.1 <;> rfl
  | _ => rfl

/-- Nothing is read that is gone where everything viewed is there. -/
theorem ContentSession.readsHeld (hviews : s.ViewsHeld) (hqueries : s.QueriesHeld)
    (a : SessionAction) : s.ReadsHeld a := by
  cases a with
  | push data => trivial
  | coReadHandler now => exact fun packet _ => ⟨fun _ => hviews, fun _ => hqueries⟩
  | resume run now => exact fun rest _ => .inl hviews
  | deferred c => trivial

/-- The session after the run for a packet: the response is another, and the
handler may be suspended. -/
theorem started_cases {session : HttpSession} {events : List SessionEvent} {after : LoggedSession}
    {packet : MessageBuffer} {rest : List MessageBuffer} {now : Bytes} (hs : session.Sound)
    (hqueue : session.readBufferQueue.queue = packet :: rest)
    (hstep : sessionStep ⟨session, events⟩ (.coReadHandler now) = some after) :
    ∃ rep, after.session = { session.popped packet rest with rep } ∨
      ∃ handler, after.session
        = { session.popped packet rest with rep, suspended := session.suspended ++ [handler] } := by
  obtain ⟨result, hresult, rfl⟩ := Option.map_eq_some_iff.mp hstep
  rcases hs.coReadHandler_cases hqueue now with ⟨rep, message, hrun⟩ | ⟨rep, handler, hrun⟩
  · rw [hrun] at hresult
    cases hresult
    exact ⟨rep, .inl rfl⟩
  · rw [hrun] at hresult
    cases hresult
    exact ⟨rep, .inr ⟨handler, rfl⟩⟩

end Steps

/-- The numbers say what they should: a suspended run has the content of its
packet, and the request views the contents that it is said to view. -/
structure ContentSession.Placed (s : ContentSession) : Prop where
  sound : s.logged.session.Sound
  aligned : s.serving.length = s.logged.session.suspended.length
  serving : (s.serving ++ [s.contents.length]).Pairwise (· < ·)
  unviewed : s.viewed = none → s.logged.session.req.view = HttpRequest.create.view
  viewed : ∀ n ∈ s.viewed, ∃ content ∈ s.contents[n]?, s.logged.session.req.ViewsIn content
  keyed : List.Forall₂ (fun n query => ∃ content ∈ s.contents[n]?, HttpParser.EntryIn content query)
    s.keyed s.logged.session.req.parser.queries

/-- What is known of a content stays known. -/
theorem mem_getElem?_append {contents : List Bytes} {n : Nat} {content : Bytes}
    (hcontent : content ∈ contents[n]?) (more : List Bytes) :
    content ∈ (contents ++ more)[n]? := by
  obtain ⟨hlt, -⟩ := List.getElem?_eq_some_iff.mp hcontent
  rw [List.getElem?_append_left hlt]
  exact hcontent

theorem placed_create (router : HttpRouter) : (ContentSession.create router).Placed where
  sound := HttpSession.sound_create router
  aligned := rfl
  serving := List.pairwise_singleton _ _
  unviewed := fun _ => rfl
  viewed := by
    intro n hn
    cases hn
  keyed := .nil

section Kept

variable {s : ContentSession} {after : LoggedSession}

theorem ContentSession.Placed.started {packet : MessageBuffer} {rest : List MessageBuffer}
    {now : Bytes} (hs : s.Placed) (hqueue : s.logged.session.readBufferQueue.queue = packet :: rest)
    (hstep : sessionStep s.logged (.coReadHandler now) = some after) :
    (s.started packet.readable after).Placed := by
  have hpacket := hs.sound.packets packet (by rw [hqueue]; exact List.mem_cons_self)
  have hshort := lt_int_of_packet hpacket.2.2
  have hreq : after.session.req = (s.logged.session.req.parse packet.readable).2 := by
    obtain ⟨rep, hafter | ⟨handler, hafter⟩⟩ := started_cases hs.sound hqueue hstep
    · rw [hafter]
      rfl
    · rw [hafter]
      rfl
  obtain ⟨hordered, -, hbelow⟩ := List.pairwise_append.mp hs.serving
  have hnew : packet.readable ∈ (s.contents ++ [packet.readable])[s.contents.length]? :=
    List.getElem?_concat_length
  have hviewed : ((s.started packet.readable after).viewed = some s.contents.length ∧
        after.session.req.ViewsIn packet.readable) ∨
      ((s.started packet.readable after).viewed = s.viewed ∧
        after.session.req.view = s.logged.session.req.view ∧
          ∀ text, s.logged.session.req.ViewsIn text → after.session.req.ViewsIn text) := by
    rw [hreq]
    rcases s.logged.session.req.viewsIn_parse hshort with ⟨hok, hviews⟩ | ⟨hrefused, hsame, hkept⟩
    · exact .inl ⟨if_pos hok, hviews⟩
    · exact .inr ⟨if_neg hrefused, hsame, hkept⟩
  constructor
  case sound => exact hs.sound.step hstep
  case aligned =>
    obtain ⟨rep, hafter | ⟨handler, hafter⟩⟩ := started_cases hs.sound hqueue hstep
    · simp [ContentSession.started, hafter, hs.aligned, HttpSession.popped]
    · simp [ContentSession.started, hafter, hs.aligned, HttpSession.popped]
  case serving =>
    have hlonger : (s.started packet.readable after).contents.length = s.contents.length + 1 :=
      List.length_append
    have hnext : ∀ n ∈ s.serving, n < s.contents.length + 1 := fun n hn =>
      Nat.lt_succ_of_lt (hbelow n hn _ List.mem_cons_self)
    rw [hlonger, ContentSession.started]
    dsimp only
    split
    case isTrue =>
      refine List.pairwise_append.mpr ⟨hs.serving, List.pairwise_singleton _ _, ?_⟩
      simpa [or_imp, forall_and] using hnext
    case isFalse =>
      refine List.pairwise_append.mpr ⟨hordered, List.pairwise_singleton _ _, ?_⟩
      simpa using hnext
  case unviewed =>
    intro hnone
    rcases hviewed with ⟨hnumber, -⟩ | ⟨hnumber, hsame, -⟩
    · rw [hnumber] at hnone
      cases hnone
    · rw [hnumber] at hnone
      exact hsame.trans (hs.unviewed hnone)
  case viewed =>
    intro n hn
    rcases hviewed with ⟨hnumber, hviews⟩ | ⟨hnumber, -, hkept⟩
    · rw [hnumber] at hn
      cases hn
      exact ⟨packet.readable, hnew, hviews⟩
    · rw [hnumber] at hn
      obtain ⟨content, hcontent, hviews⟩ := hs.viewed n hn
      exact ⟨content, mem_getElem?_append hcontent _, hkept content hviews⟩
  case keyed =>
    obtain ⟨added, hadded, hentries⟩ := s.logged.session.req.queries_parse hshort
    have hqueries : after.session.req.parser.queries
        = s.logged.session.req.parser.queries ++ added := by
      rw [hreq, hadded]
    have hcount : (s.started packet.readable after).keyed
        = s.keyed ++ List.replicate added.length s.contents.length := by
      rw [ContentSession.started, hqueries, List.length_append, Nat.add_sub_cancel_left]
    change List.Forall₂ _ _ after.session.req.parser.queries
    rw [hcount, hqueries]
    refine List.rel_append (hs.keyed.imp ?_) ?_
    · rintro n query ⟨content, hcontent, hentry⟩
      exact ⟨content, mem_getElem?_append hcontent _, hentry⟩
    · rw [← List.map_const', List.forall₂_map_left_iff, List.forall₂_same]
      intro query hquery
      exact ⟨packet.readable, hnew, hentries query hquery⟩

/-- A step that leaves the request and the number of suspended runs. -/
theorem ContentSession.Placed.went_on (hs : s.Placed) (hsound : after.session.Sound)
    (hreq : after.session.req = s.logged.session.req)
    (hsuspended : after.session.suspended.length = s.logged.session.suspended.length) :
    { s with logged := after }.Placed where
  sound := hsound
  aligned := hs.aligned.trans hsuspended.symm
  serving := hs.serving
  unviewed := fun hnone => (congrArg HttpRequest.view hreq).trans (hs.unviewed hnone)
  viewed := by
    rw [hreq]
    exact hs.viewed
  keyed := by
    rw [hreq]
    exact hs.keyed

theorem ContentSession.Placed.resumed {run : Nat} {now : Bytes} (hs : s.Placed)
    (hstep : sessionStep s.logged (.resume run now) = some after) :
    (s.resumed run after).Placed := by
  have hsound := hs.sound.step hstep
  simp only [sessionStep] at hstep
  split at hstep
  case h_2 => cases hstep
  case h_1 rest hrest =>
    obtain ⟨hrun, -⟩ := List.getElem?_eq_some_iff.mp hrest
    obtain ⟨result, hresult, rfl⟩ := Option.map_eq_some_iff.mp hstep
    rcases s.logged.session.resume_cases run rest now with ⟨rep, message, hresume, -⟩
      | ⟨rep, rest', hresume, -⟩
    case inl =>
      rw [hresume] at hresult
      cases hresult
      have hended : (s.logged.session.suspended.eraseIdx run).length
          < s.logged.session.suspended.length := by
        rw [List.length_eraseIdx_of_lt hrun]
        omega
      have herased : (s.resumed run (s.logged.log ({ s.logged.session with
          rep, suspended := s.logged.session.suspended.eraseIdx run }, [.sent message]))).serving
            = s.serving.eraseIdx run := if_pos hended
      constructor
      case sound => exact hsound
      case aligned =>
        rw [herased, List.length_eraseIdx_of_lt (by rw [hs.aligned]; exact hrun), hs.aligned]
        exact (List.length_eraseIdx_of_lt hrun).symm
      case serving =>
        rw [herased]
        exact hs.serving.sublist ((List.eraseIdx_sublist _ _).append_right _)
      case unviewed => exact hs.unviewed
      case viewed => exact hs.viewed
      case keyed => exact hs.keyed
    case inr =>
      rw [hresume] at hresult
      cases hresult
      have hsame : (s.logged.session.suspended.set run rest').length
          = s.logged.session.suspended.length := List.length_set
      have hkept : s.resumed run (s.logged.log ({ s.logged.session with
          rep, suspended := s.logged.session.suspended.set run rest' }, []))
            = { s with logged := s.logged.log ({ s.logged.session with
                rep, suspended := s.logged.session.suspended.set run rest' }, []) } := by
        rw [ContentSession.resumed, if_neg]
        exact hsame.not_lt
      rw [hkept]
      exact hs.went_on hsound rfl hsame

theorem ContentSession.Placed.step {s' : ContentSession} {a : SessionAction} (hs : s.Placed)
    (hstep : contentStep s a = some s') : s'.Placed := by
  obtain ⟨after, hsession, rfl⟩ := Option.map_eq_some_iff.mp hstep
  cases a with
  | push data =>
      have hsound := hs.sound.step hsession
      simp only [sessionStep] at hsession
      split at hsession
      case isTrue => cases hsession
      case isFalse =>
        obtain ⟨packet, -, rfl⟩ := Option.map_eq_some_iff.mp hsession
        exact hs.went_on hsound rfl rfl
  | coReadHandler now =>
      have hpop := hs.sound.pop_eq
      cases hqueue : s.logged.session.readBufferQueue.queue with
      | nil =>
          rw [hqueue, List.head?_nil] at hpop
          rw [sessionStep, HttpSession.coReadHandler_nil hs.sound.shutdown hqueue] at hsession
          cases hsession
          rw [hpop]
          exact hs.went_on hs.sound rfl rfl
      | cons packet rest =>
          rw [hqueue, List.head?_cons] at hpop
          rw [hpop]
          exact hs.started hqueue hsession
  | resume run now => exact hs.resumed hsession
  | deferred c =>
      have hsound := hs.sound.step hsession
      cases hsession
      exact hs.went_on hsound rfl rfl

end Kept

section Runs

variable {router : HttpRouter} {tr : List (ContentSession × SessionAction)} {s : ContentSession}

theorem placed_run (hrun : Run (contentSystem router) tr s) : s.Placed := by
  apply hrun.invariant ContentSession.Placed
  · rintro s rfl
    exact placed_create router
  · intro s a s' hs hstep
    exact hs.step hstep.2

/-- Views that are held show the content of a suspended run, or nothing. -/
theorem exists_run_of_viewsHeld (hrun : Run (contentSystem router) tr s) (hheld : s.ViewsHeld) :
    s.logged.session.req.view = HttpRequest.create.view ∨
      ∃ run n content, run < s.logged.session.suspended.length ∧ s.serving[run]? = some n ∧
        s.contents[n]? = some content ∧ s.logged.session.req.ViewsIn content := by
  have hs := placed_run hrun
  cases hviewed : s.viewed with
  | none => exact .inl (hs.unviewed hviewed)
  | some n =>
      obtain ⟨content, hcontent, hviews⟩ := hs.viewed n hviewed
      obtain ⟨run, hlt, hn⟩ := List.mem_iff_getElem.mp (hheld n hviewed)
      refine .inr ⟨run, n, content, ?_, ?_, hcontent, hviews⟩
      · rw [← hs.aligned]
        exact hlt
      · rw [List.getElem?_eq_getElem hlt, hn]

/-- A run that ends takes its content with it. -/
theorem gone_of_ended (hrun : Run (contentSystem router) tr s) {run n : Nat} {now : Bytes}
    {s' : ContentSession} (hn : s.serving[run]? = some n)
    (hstep : contentStep s (.resume run now) = some s')
    (hended : s'.logged.session.suspended.length < s.logged.session.suspended.length) :
    n ∉ s'.serving := by
  obtain ⟨after, -, rfl⟩ := Option.map_eq_some_iff.mp hstep
  have hserving : (s.resumed run after).serving = s.serving.eraseIdx run := if_pos hended
  change n ∉ (s.resumed run after).serving
  rw [hserving, List.mem_eraseIdx_iff_getElem?]
  rintro ⟨run', hne, hn'⟩
  have hnodup : s.serving.Nodup :=
    (List.pairwise_append.mp (placed_run hrun).serving).1.imp Nat.ne_of_lt
  obtain ⟨hlt, -⟩ := List.getElem?_eq_some_iff.mp hn'
  exact hne ((List.getElem?_inj hlt hnodup).mp (hn'.trans hn.symm))

/-- A session that reads only contents that are there is a session. -/
theorem logged_run (hrun : Run (contentSystem router) tr s) :
    Run (sessionSystem router) (tr.map fun p => (p.1.logged, p.2)) s.logged := by
  induction hrun with
  | start hinit =>
      obtain rfl : _ = ContentSession.create router := hinit
      exact .start rfl
  | snoc _ hstep ih =>
      rw [List.map_append]
      exact ih.snoc (logged_contentStep hstep.2)

theorem run_of_content_exec {actions : List SessionAction}
    (hexec : exec contentStep (.create router) actions = some (tr, s))
    (hheld : ∀ p ∈ tr, p.1.ViewsHeld ∧ p.1.QueriesHeld) : Run (contentSystem router) tr s := by
  have hinit : (contentSystem router).init (.create router) := rfl
  refine run_restrict_iff.mpr ⟨run_of_exec hinit hexec, ?_⟩
  intro p hp
  obtain ⟨hviews, hqueries⟩ := hheld p hp
  exact ContentSession.readsHeld hviews hqueries p.2

end Runs

end GameDemoLearn.Servers
