import GameDemoLearn.Net.Http.HttpRequest
import GameDemoLearn.Net.Http.HttpResponse

/-!
`HttpRouter` (`HttpRouter.cpp`) and the handlers it runs. A handler is the tree
of what it does: calls of the response's setters, work that it leaves to be done
later, and suspensions after which it may look at the request again.
-/

namespace GameDemoLearn.Net.Http

inductive ResponseCall
  | setStatusCode (statusCode : StatusCode)
  | setHeader (fieldName fieldVal : Bytes)
  | setCharSet (charset : Bytes)
  | setContentType (type : ContentType)
  | setContent (content : Bytes)
  | fillResponse (statusCode : StatusCode) (type : ContentType) (content : Bytes)

def HttpResponse.apply (resp : HttpResponse) : ResponseCall → HttpResponse
  | .setStatusCode statusCode => resp.setStatusCode statusCode
  | .setHeader fieldName fieldVal => resp.setHeader fieldName fieldVal
  | .setCharSet charset => resp.setCharSet charset
  | .setContentType type => resp.setContentType type
  | .setContent content => resp.setContent content
  | .fillResponse statusCode type content => resp.fillResponse statusCode type content

/-- A row of `account`, as the handlers read its fields. -/
structure AccountRow where
  id : UInt32
  name : Bytes
  email : Bytes
  age : UInt32
  intro : Bytes

/-- Work that a handler leaves behind with a reference to its response: a task
that it posts, or a callback for the result of a query that it starts. -/
inductive Deferred
  | task (calls : List ResponseCall)
  | query (respond : Option AccountRow → List ResponseCall)

/-- What the work does to the response; the result matters to a callback only. -/
def Deferred.calls (result : Option AccountRow) : Deferred → List ResponseCall
  | .task calls => calls
  | .query respond => respond result

/-- A handler that has been started. -/
inductive HandlerRun
  | returns
  | throws
  | call (c : ResponseCall) (rest : HandlerRun)
  | leave (work : Deferred) (rest : HandlerRun)
  | suspend (rest : HttpRequest.View → HandlerRun)

abbrev HttpHandlerFunc := HttpRequest.View → HandlerRun

/-- `_httpHandlers` in the order of registration; `_pathKeys` are its keys. -/
structure HttpRouter where
  httpHandlers : List (Bytes × HttpHandlerFunc)

namespace HttpRouter

def create : HttpRouter := ⟨[]⟩

/-- The key of a method and a path. -/
def wholeName (method path : Bytes) : Bytes := method ++ [32] ++ path

def addHttpHandler (router : HttpRouter) (method : HttpMethod) (path : Bytes)
    (handler : HttpHandlerFunc) : HttpRouter :=
  let wholeStr := wholeName (httpMethodToString method) path
  if router.httpHandlers.any fun entry => entry.1 == wholeStr then
    router
  else
    ⟨router.httpHandlers ++ [(wholeStr, handler)]⟩

def find (router : HttpRouter) (methodWholeName : Bytes) : Option HttpHandlerFunc :=
  (router.httpHandlers.find? fun entry => entry.1 == methodWholeName).map Prod.snd

/-- What `Route` does with the handler that it found; `none` means a suspension
with the rest to run. -/
def runHandler : HandlerRun → HttpResponse → HttpResponse × Option HttpHandlerFunc
  | .returns, resp => (resp, none)
  | .throws, resp => (resp.setStatusCode .serviceUnavailable, none)
  | .call c rest, resp => runHandler rest (resp.apply c)
  | .leave _ rest, resp => runHandler rest resp
  | .suspend rest, resp => (resp, some rest)

/-- `Route` up to its end or to the first suspension of the handler. -/
def route (router : HttpRouter) (req : HttpRequest) (resp : HttpResponse) :
    HttpResponse × Option HttpHandlerFunc :=
  match router.find (wholeName req.getMethod req.getPath) with
  | some handler => runHandler (handler req.view) resp
  | none => (resp.setStatusCode .notFound, none)

end HttpRouter

/-- The work that a handler leaves until it ends or is suspended. -/
def HandlerRun.leaves : HandlerRun → List Deferred
  | .returns => []
  | .throws => []
  | .call _ rest => rest.leaves
  | .leave work rest => work :: rest.leaves
  | .suspend _ => []

/-- The handler does not wait for anything. -/
def HandlerRun.Completes : HandlerRun → Prop
  | .returns => True
  | .throws => True
  | .call _ rest => rest.Completes
  | .leave _ rest => rest.Completes
  | .suspend _ => False

def HttpRouter.Completes (router : HttpRouter) : Prop :=
  ∀ entry ∈ router.httpHandlers, ∀ view, (entry.2 view).Completes

theorem HttpResponse.head_apply (resp : HttpResponse) (c : ResponseCall) :
    (resp.apply c).head = resp.head := by
  cases c <;> rfl

namespace HttpRouter

theorem exists_of_find {router : HttpRouter} {methodWholeName : Bytes} {handler : HttpHandlerFunc}
    (hfind : router.find methodWholeName = some handler) :
    ∃ key, (key, handler) ∈ router.httpHandlers := by
  obtain ⟨entry, hentry, rfl⟩ := Option.map_eq_some_iff.mp hfind
  exact ⟨entry.1, List.mem_of_find?_eq_some hentry⟩

theorem runHandler_completes {run : HandlerRun} (hrun : run.Completes) (resp : HttpResponse) :
    (runHandler run resp).2 = none := by
  induction run generalizing resp with
  | returns => rfl
  | throws => rfl
  | call c rest ih => exact ih hrun (resp.apply c)
  | leave work rest ih => exact ih hrun resp
  | suspend rest => cases hrun

theorem head_runHandler (run : HandlerRun) (resp : HttpResponse) :
    (runHandler run resp).1.head = resp.head := by
  induction run generalizing resp with
  | returns => rfl
  | throws => rfl
  | call c rest ih => rw [runHandler, ih, resp.head_apply]
  | leave work rest ih => exact ih resp
  | suspend rest => rfl

theorem route_completes {router : HttpRouter} (hrouter : router.Completes) (req : HttpRequest)
    (resp : HttpResponse) : (router.route req resp).2 = none := by
  unfold route
  split
  · next handler hfind =>
      obtain ⟨key, hmem⟩ := exists_of_find hfind
      exact runHandler_completes (hrouter _ hmem req.view) resp
  · rfl

/-- No handler touches the head of the response. -/
theorem head_route (router : HttpRouter) (req : HttpRequest) (resp : HttpResponse) :
    (router.route req resp).1.head = resp.head := by
  unfold route
  split
  · exact head_runHandler _ _
  · rfl

/-- What is routed is what the getters show. -/
theorem route_view (router : HttpRouter) {req req' : HttpRequest} (hview : req.view = req'.view)
    (resp : HttpResponse) : router.route req resp = router.route req' resp := by
  have hmethod : req.getMethod = req'.getMethod := congrArg HttpRequest.View.method hview
  have hpath : req.getPath = req'.getPath := congrArg HttpRequest.View.path hview
  simp only [route, hmethod, hpath, hview]

end HttpRouter

end GameDemoLearn.Net.Http
