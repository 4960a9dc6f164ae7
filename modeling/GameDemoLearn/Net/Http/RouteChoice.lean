import GameDemoLearn.Net.Http.RouterKeys

/-!
Which handler `HttpRouter::Route` runs. A router that was filled by `AddHttpHandler` has
the same keys in both containers, so the lookup in `_httpHandlers` finds the handler that
was registered first under the name of the request.
-/

namespace GameDemoLearn.Net.Http

open Incremental

/-- A call of `AddHttpHandler`. -/
structure Registration where
  method : HttpMethod
  path : Bytes
  handler : HttpHandlerFunc

/-- The key of the registration. -/
def Registration.name (reg : Registration) : Bytes :=
  HttpRouter.wholeName (httpMethodToString reg.method) reg.path

/-- The calls in turn, on the same router. -/
def RouterMemory.register (w : RouterMemory) (r : Nat) (regs : List Registration) :
    RouterMemory :=
  regs.foldl (fun w reg =>
    match w.routers r with
    | none => w
    | some router => w.addHttpHandler r router reg.method reg.path reg.handler) w

/-- `_httpHandlers.find`. -/
def RouterMemory.find (w : RouterMemory) (router : KeyedRouter) (methodWholeName : Bytes) :
    Option HttpHandlerFunc :=
  (router.httpHandlers.find? fun entry => w.holds methodWholeName entry.1).map Prod.snd

/-- `Route` on the router with the number, `none` where there is none. -/
def RouterMemory.route (w : RouterMemory) (r : Nat) (req : HttpRequest) (resp : HttpResponse) :
    Option (HttpResponse × Option HttpHandlerFunc) :=
  (w.routers r).map fun router =>
    match w.find router (HttpRouter.wholeName req.getMethod req.getPath) with
    | some handler => HttpRouter.runHandler (handler req.view) resp
    | none => (resp.setStatusCode .notFound, none)

/-- The two containers show the names and handlers of the abstract router, in the order of
registration, and the view in each entry is the string that was made for it. -/
structure RouterMemory.Represents (w : RouterMemory) (router : KeyedRouter)
    (abstract : HttpRouter) : Prop where
  keys : router.pathKeys = router.httpHandlers.map Prod.fst
  entries : router.httpHandlers.map (fun entry => (w.strings entry.1, entry.2)) =
    abstract.httpHandlers.map fun entry => (some entry.1, entry.2)
  made : ∀ key ∈ router.pathKeys, key < w.next

section Refinement

variable {w : RouterMemory} {router : KeyedRouter} {abstract : HttpRouter}

/-- Looking for a name among the views is looking for it among the names. -/
theorem RouterMemory.Represents.find_eq (h : w.Represents router abstract)
    (name : Bytes) : w.find router name = abstract.find name := by
  have hfind := congrArg
    (fun entries => (entries.find? fun e : Option Bytes × HttpHandlerFunc =>
      e.1 == some name).map Prod.snd) h.entries
  simp only [List.find?_map, Option.map_map] at hfind
  exact hfind

theorem RouterMemory.Represents.any_eq (h : w.Represents router abstract) (name : Bytes) :
    (router.httpHandlers.any fun entry => w.holds name entry.1) =
      abstract.httpHandlers.any fun entry => entry.1 == name := by
  have hany := congrArg
    (fun entries => entries.any fun e : Option Bytes × HttpHandlerFunc => e.1 == some name)
    h.entries
  simp only [List.any_map] at hany
  exact hany

/-- `AddHttpHandler` does to the two containers what it does to the abstract router. -/
theorem RouterMemory.Represents.addHttpHandler (h : w.Represents router abstract) {r : Nat}
    (hrouter : w.routers r = some router) (method : HttpMethod) (path : Bytes)
    (handler : HttpHandlerFunc) :
    ∃ router', (w.addHttpHandler r router method path handler).routers r = some router' ∧
      (w.addHttpHandler r router method path handler).Represents router'
        (abstract.addHttpHandler method path handler) := by
  simp only [RouterMemory.addHttpHandler, HttpRouter.addHttpHandler]
  generalize HttpRouter.wholeName (httpMethodToString method) path = name
  have hkeys : router.pathKeys.any (w.holds name) =
      abstract.httpHandlers.any fun entry => entry.1 == name := by
    rw [← h.any_eq, h.keys, List.any_map]
    rfl
  rw [hkeys, h.any_eq]
  by_cases hthere : (abstract.httpHandlers.any fun entry => entry.1 == name) = true
  · simp only [if_pos hthere]
    exact ⟨router, hrouter, h⟩
  · simp only [if_neg hthere]
    refine ⟨_, Function.update_self r _ w.routers, ?_, ?_, ?_⟩
    · simp only [h.keys, List.map_append, List.map_cons, List.map_nil]
    · have hold : ∀ entry ∈ router.httpHandlers,
          Function.update w.strings w.next (some name) entry.1 = w.strings entry.1 := by
        intro entry hentry
        have hmem : entry.1 ∈ router.pathKeys := h.keys ▸ List.mem_map_of_mem hentry
        exact Function.update_of_ne (Nat.ne_of_lt (h.made _ hmem)) _ _
      simp only [List.map_append, List.map_cons, List.map_nil, RouterMemory.setRouter,
        RouterMemory.newString, Function.update_self, ← h.entries]
      congr 1
      exact List.map_congr_left fun entry hentry => by rw [hold entry hentry]
    · intro key hkey
      rcases List.mem_append.mp hkey with hmem | hlast
      · exact Nat.lt_succ_of_lt (h.made key hmem)
      · rw [List.mem_singleton.mp hlast]
        exact Nat.lt_succ_self _

/-- A new router after any registrations. -/
theorem RouterMemory.Represents.register {r : Nat} (regs : List Registration)
    (hrouter : w.routers r = some router) (h : w.Represents router abstract) :
    ∃ router', (w.register r regs).routers r = some router' ∧
      (w.register r regs).Represents router' (regs.foldl (fun abstract reg =>
        abstract.addHttpHandler reg.method reg.path reg.handler) abstract) := by
  induction regs generalizing w router abstract with
  | nil => exact ⟨router, hrouter, h⟩
  | cons reg rest ih =>
      obtain ⟨router', hrouter', h'⟩ :=
        h.addHttpHandler hrouter reg.method reg.path reg.handler
      have hregister : w.register r (reg :: rest) =
          (w.addHttpHandler r router reg.method reg.path reg.handler).register r rest := by
        rw [RouterMemory.register, List.foldl_cons, hrouter]
        rfl
      rw [hregister, List.foldl_cons]
      exact ih hrouter' h'

end Refinement

/-- A registration adds its handler to what is found, unless its name is taken. -/
theorem HttpRouter.find_addHttpHandler (router : HttpRouter) (reg : Registration)
    (name : Bytes) :
    (router.addHttpHandler reg.method reg.path reg.handler).find name =
      (router.find name).or (if reg.name = name then some reg.handler else none) := by
  unfold HttpRouter.addHttpHandler
  change (if (router.httpHandlers.any fun entry => entry.1 == reg.name) = true then router
    else ⟨router.httpHandlers ++ [(reg.name, reg.handler)]⟩ : HttpRouter).find name = _
  split
  · next hthere =>
      split
      · next heq =>
          obtain ⟨entry, hentry, hkey⟩ := List.any_eq_true.mp hthere
          have hsome : (router.httpHandlers.find? fun entry => entry.1 == name).isSome = true :=
            List.find?_isSome.mpr ⟨entry, hentry, heq ▸ hkey⟩
          obtain ⟨found, hfound⟩ := Option.isSome_iff_exists.mp hsome
          simp [HttpRouter.find, hfound]
      · rw [Option.or_none]
  · simp only [HttpRouter.find, List.find?_append, Option.map_or, List.find?_singleton]
    congr 1
    by_cases heq : reg.name = name <;> simp [heq]

/-- What is found after registrations: what was found before, or else the first of them
with the name. -/
theorem HttpRouter.find_register (regs : List Registration) (router : HttpRouter)
    (name : Bytes) :
    (regs.foldl (fun router reg =>
        router.addHttpHandler reg.method reg.path reg.handler) router).find name =
      (router.find name).or ((regs.find? fun reg => reg.name == name).map (·.handler)) := by
  induction regs generalizing router with
  | nil => simp
  | cons reg rest ih =>
      rw [List.foldl_cons, ih, find_addHttpHandler, Option.or_assoc]
      congr 1
      by_cases heq : reg.name = name
      · simp [heq]
      · simp [heq]

/-- A name determines its method and its path, because no method contains a space. -/
theorem wholeName_inj {method method' path path' : Bytes} (hmethod : (32 : UInt8) ∉ method)
    (hmethod' : (32 : UInt8) ∉ method') :
    HttpRouter.wholeName method path = HttpRouter.wholeName method' path' ↔
      method = method' ∧ path = path' := by
  constructor
  · intro heq
    have htake : ∀ m p : Bytes, (32 : UInt8) ∉ m →
        (HttpRouter.wholeName m p).takeWhile (fun c => c != 32) = m := by
      intro m p hm
      rw [HttpRouter.wholeName, List.append_assoc, List.takeWhile_append_of_pos]
      · simp
      · intro c hc
        simpa using fun h : c = 32 => hm (h ▸ hc)
    have hsame : method = method' := by
      rw [← htake method path hmethod, heq, htake method' path' hmethod']
    refine ⟨hsame, ?_⟩
    rw [hsame] at heq
    exact List.append_cancel_left heq
  · rintro ⟨rfl, rfl⟩
    rfl

theorem httpMethodToString_noSpace (method : HttpMethod) :
    (32 : UInt8) ∉ httpMethodToString method := by
  cases method <;> decide

/-- The method of a parsed request contains no space. -/
theorem phrParseRequest_method_noSpace {text : Bytes} {maxHeaders : Nat} {request : PhrRequest}
    {next : Cursor UInt8} (hdone : phrParseRequest text maxHeaders = .done request next) :
    (32 : UInt8) ∉ request.method.bytes := by
  intro hspace
  exact absurd (phrParseRequest_method hdone 32 hspace) (by decide)

/-- What the getters show of a request that was parsed, however long its text is. -/
theorem HttpRequest.parse_ok (req : HttpRequest) {content : Bytes}
    (hok : (req.parse content).1 = .ok) :
    ∃ request next, phrParseRequest content MAX_HEADER_FIELD_NUM = .done request next ∧
      (req.parse content).2.getMethod = request.method.bytes ∧
      (req.parse content).2.getPath = HttpParser.withoutQuery request.path.bytes := by
  unfold HttpRequest.parse at hok ⊢
  split at hok
  · cases hok
  · next hne =>
      rw [if_neg hne]
      simp only [HttpParser.parseRequest, if_neg hne] at hok ⊢
      split at hok
      · cases hok
      · cases hok
      · next request next hdone =>
          split at hok
          · cases hok
          · next hlen =>
              obtain ⟨path, entries, bodyLen, haccept, hpath, -⟩ :=
                HttpParser.accept_eq content request (HttpParser.toInt next.pos)
              refine ⟨request, next, hdone, ?_⟩
              simp only [if_neg hlen, haccept]
              exact ⟨rfl, hpath⟩

/-- The handler registered first for the method and the path. -/
def firstHandler (regs : List Registration) (method path : Bytes) : Option HttpHandlerFunc :=
  (regs.find? fun reg => httpMethodToString reg.method == method && reg.path == path).map
    (·.handler)

/-- `Route` runs the handler registered first for the method of the request and its target
up to the first question mark, and no other. -/
theorem route_firstHandler (regs : List Registration) (req : HttpRequest) (resp : HttpResponse)
    {content : Bytes} (hok : (req.parse content).1 = .ok) :
    ∃ request next, phrParseRequest content MAX_HEADER_FIELD_NUM = .done request next ∧
      ((RouterMemory.create.setRouter 0 (some ⟨[], []⟩)).register 0 regs).route 0
          (req.parse content).2 resp =
        some (match firstHandler regs request.method.bytes
            (HttpParser.withoutQuery request.path.bytes) with
          | some handler => HttpRouter.runHandler (handler (req.parse content).2.view) resp
          | none => (resp.setStatusCode .notFound, none)) := by
  obtain ⟨request, next, hdone, hmethod, hpath⟩ := req.parse_ok hok
  refine ⟨request, next, hdone, ?_⟩
  have hempty : (RouterMemory.create.setRouter 0 (some ⟨[], []⟩)).Represents ⟨[], []⟩
      HttpRouter.create := ⟨rfl, rfl, List.forall_mem_nil _⟩
  obtain ⟨router, hrouter, hrepresents⟩ := hempty.register regs (r := 0) rfl
  have hname : (regs.find? fun reg => reg.name ==
        HttpRouter.wholeName request.method.bytes (HttpParser.withoutQuery request.path.bytes)) =
      regs.find? fun reg => httpMethodToString reg.method == request.method.bytes &&
        reg.path == HttpParser.withoutQuery request.path.bytes := by
    congr 1
    funext reg
    rw [Bool.eq_iff_iff, beq_iff_eq, Bool.and_eq_true, beq_iff_eq, beq_iff_eq]
    exact wholeName_inj (httpMethodToString_noSpace reg.method)
      (phrParseRequest_method_noSpace hdone)
  rw [RouterMemory.route, hrouter, Option.map_some, hmethod, hpath, hrepresents.find_eq,
    HttpRouter.find_register, hname]
  rfl

/-- `GET /a?b HTTP/1.1`, with an empty head. -/
def getWithQuery : Bytes :=
  [71, 69, 84, 32, 47, 97, 63, 98, 32, 72, 84, 84, 80, 47, 49, 46, 49, 13, 10, 13, 10]

/-- Two handlers for `GET /a`, behind one for another method. -/
def threeRegistrations : List Registration :=
  [⟨.post, [47, 97], idleHandler⟩, ⟨.get, [47, 97], fun _ => .throws⟩,
    ⟨.get, [47, 97], idleHandler⟩]

/-- The first of the two is run. -/
theorem route_firstHandler_duplicate :
    ((RouterMemory.create.setRouter 0 (some ⟨[], []⟩)).register 0 threeRegistrations).route 0
        (HttpRequest.create.parse getWithQuery).2 .create =
      some (HttpResponse.create.setStatusCode .serviceUnavailable, none) := by
  have hok : (HttpRequest.create.parse getWithQuery).1 = .ok := rfl
  obtain ⟨request, next, hdone, hroute⟩ :=
    route_firstHandler threeRegistrations .create .create hok
  have hparse : phrParseRequest getWithQuery MAX_HEADER_FIELD_NUM =
      .done ⟨⟨0, [71, 69, 84]⟩, ⟨4, [47, 97, 63, 98]⟩, 1, []⟩ ⟨21, []⟩ := rfl
  rw [hparse] at hdone
  cases hdone
  exact hroute

end GameDemoLearn.Net.Http
