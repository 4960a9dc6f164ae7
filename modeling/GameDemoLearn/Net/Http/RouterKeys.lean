import GameDemoLearn.Lib.Transition
import GameDemoLearn.Net.Http.HttpRouter

/-!
The two containers of an `HttpRouter` (`HttpRouter.h`). The keys of `_httpHandlers` are
views of the strings in `_pathKeys`, so the model names each string by a number that is
never used again and keeps what it holds apart from the containers. Routers are made,
copied, assigned and destroyed in any order; the operations that copy are the implicit
ones, which treat the two containers one after the other.
-/

namespace GameDemoLearn.Net.Http

open Transition

/-- `_pathKeys` by its strings, and `_httpHandlers` with each key by the string it views. -/
structure KeyedRouter where
  pathKeys : List Nat
  httpHandlers : List (Nat × HttpHandlerFunc)

/-- The strings that exist and what they hold, the number of the next one, and the routers
that are live. -/
structure RouterMemory where
  strings : Nat → Option Bytes
  next : Nat
  routers : Nat → Option KeyedRouter

inductive RouterAction
  | construct (r : Nat)
  | addHttpHandler (r : Nat) (method : HttpMethod) (path : Bytes) (handler : HttpHandlerFunc)
  | copyConstruct (r src : Nat)
  | copyAssign (dst src : Nat)
  | destroy (r : Nat)

namespace RouterMemory

/-- Before any router. -/
def create : RouterMemory := ⟨fun _ => none, 0, fun _ => none⟩

def setRouter (w : RouterMemory) (r : Nat) (router : Option KeyedRouter) : RouterMemory :=
  { w with routers := Function.update w.routers r router }

/-- A new string. -/
def newString (w : RouterMemory) (s : Bytes) : RouterMemory :=
  { w with strings := Function.update w.strings w.next (some s), next := w.next + 1 }

/-- The string with the number holds `s`. -/
def holds (w : RouterMemory) (s : Bytes) (key : Nat) : Bool := w.strings key == some s

/-- `AddHttpHandler`: the name goes into `_pathKeys` unless an equal one is there, and the
view of it into `_httpHandlers` unless an equal one is there. A key that dangles equals
none. -/
def addHttpHandler (w : RouterMemory) (r : Nat) (router : KeyedRouter) (method : HttpMethod)
    (path : Bytes) (handler : HttpHandlerFunc) : RouterMemory :=
  let wholeStr := HttpRouter.wholeName (httpMethodToString method) path
  if router.pathKeys.any (w.holds wholeStr) then w
  else
    let it := w.next
    let emplaced :=
      if router.httpHandlers.any fun entry => w.holds wholeStr entry.1 then router.httpHandlers
      else router.httpHandlers ++ [(it, handler)]
    (w.newString wholeStr).setRouter r (some ⟨router.pathKeys ++ [it], emplaced⟩)

/-- The numbers of the strings that a copy of `_pathKeys` consists of. -/
def copiedKeys (w : RouterMemory) (pathKeys : List Nat) : List Nat :=
  List.range' w.next pathKeys.length

/-- The members of `src` copied into `r`: new strings in `_pathKeys`, and the views of
`_httpHandlers` as they are. -/
def copyInto (w : RouterMemory) (r : Nat) (src : KeyedRouter) : RouterMemory where
  strings key :=
    if w.next ≤ key ∧ key < w.next + src.pathKeys.length then
      (src.pathKeys[key - w.next]?).bind w.strings
    else
      w.strings key
  next := w.next + src.pathKeys.length
  routers := Function.update w.routers r (some ⟨w.copiedKeys src.pathKeys, src.httpHandlers⟩)

/-- The strings of a container are gone. -/
def freeKeys (w : RouterMemory) (pathKeys : List Nat) : RouterMemory :=
  { w with strings := fun key => if key ∈ pathKeys then none else w.strings key }

end RouterMemory

def routerStep (w : RouterMemory) : RouterAction → Option RouterMemory
  | .construct r =>
      match w.routers r with
      | some _ => none
      | none => some (w.setRouter r (some ⟨[], []⟩))
  | .addHttpHandler r method path handler =>
      (w.routers r).map fun router => w.addHttpHandler r router method path handler
  | .copyConstruct r src =>
      match w.routers r with
      | some _ => none
      | none => (w.routers src).map fun source => w.copyInto r source
  | .copyAssign dst src => do
      let old ← w.routers dst
      let source ← w.routers src
      if dst = src then some w else some ((w.copyInto dst source).freeKeys old.pathKeys)
  | .destroy r =>
      (w.routers r).map fun router => (w.freeKeys router.pathKeys).setRouter r none

def routerSystem : System RouterMemory RouterAction :=
  System.ofStep (· = .create) routerStep

/-- Every key of a router's `_httpHandlers` is a view of a string in its own `_pathKeys`. -/
def KeyedRouter.OwnsKeys (router : KeyedRouter) : Prop :=
  ∀ entry ∈ router.httpHandlers, entry.1 ∈ router.pathKeys

/-- All live routers do. -/
def RouterMemory.OwnsKeys (w : RouterMemory) : Prop :=
  ∀ r router, w.routers r = some router → router.OwnsKeys

/-- The step does not copy a router that has handlers into another one. -/
def CopiesNothing (w : RouterMemory) : RouterAction → Prop
  | .copyConstruct _ src => ∀ source, w.routers src = some source → source.httpHandlers = []
  | .copyAssign dst src =>
      dst = src ∨ ∀ source, w.routers src = some source → source.httpHandlers = []
  | _ => True

/-- The keys are owned, and the strings of the routers are among those made so far. -/
structure RouterMemory.Sound (w : RouterMemory) : Prop where
  ownsKeys : w.OwnsKeys
  made : ∀ r router, w.routers r = some router → ∀ key ∈ router.pathKeys, key < w.next

section Ownership

variable {w w' : RouterMemory} {a : RouterAction}

/-- What holds of every router after one of them is replaced. -/
theorem forall_routers_update {P : KeyedRouter → Prop} {routers : Nat → Option KeyedRouter}
    {r : Nat} {value : Option KeyedRouter}
    (hrouters : ∀ i router, routers i = some router → P router)
    (hvalue : ∀ router, value = some router → P router) :
    ∀ i router, Function.update routers r value i = some router → P router := by
  intro i router hi
  rcases eq_or_ne i r with rfl | hne
  · rw [Function.update_self] at hi
    exact hvalue router hi
  · rw [Function.update_of_ne hne] at hi
    exact hrouters i router hi

theorem RouterMemory.Sound.setRouter (hw : w.Sound) {r : Nat} {value : Option KeyedRouter}
    (hvalue : ∀ router, value = some router →
      router.OwnsKeys ∧ ∀ key ∈ router.pathKeys, key < w.next) :
    (w.setRouter r value).Sound where
  ownsKeys := forall_routers_update hw.ownsKeys fun router hrouter => (hvalue router hrouter).1
  made := forall_routers_update hw.made fun router hrouter => (hvalue router hrouter).2

theorem RouterMemory.Sound.newString (hw : w.Sound) (s : Bytes) : (w.newString s).Sound where
  ownsKeys := hw.ownsKeys
  made r router hrouter key hkey := Nat.lt_succ_of_lt (hw.made r router hrouter key hkey)

theorem RouterMemory.Sound.freeKeys (hw : w.Sound) (pathKeys : List Nat) :
    (w.freeKeys pathKeys).Sound := ⟨hw.ownsKeys, hw.made⟩

theorem RouterMemory.Sound.addHttpHandler (hw : w.Sound) {r : Nat} {router : KeyedRouter}
    (hrouter : w.routers r = some router) (method : HttpMethod) (path : Bytes)
    (handler : HttpHandlerFunc) : (w.addHttpHandler r router method path handler).Sound := by
  have howns := hw.ownsKeys r router hrouter
  have hmade := hw.made r router hrouter
  unfold RouterMemory.addHttpHandler
  dsimp only
  split
  · exact hw
  · apply (hw.newString _).setRouter
    rintro router' hrouter'
    cases hrouter'
    refine ⟨fun entry hentry => ?_, fun key hkey => ?_⟩
    · rw [List.mem_append, List.mem_singleton]
      dsimp only at hentry
      split at hentry
      · exact .inl (howns entry hentry)
      · rcases List.mem_append.mp hentry with hold | hnew
        · exact .inl (howns entry hold)
        · rw [List.mem_singleton] at hnew
          exact .inr (congrArg Prod.fst hnew)
    · rcases List.mem_append.mp hkey with hold | hnew
      · exact Nat.lt_succ_of_lt (hmade key hold)
      · rw [List.mem_singleton.mp hnew]
        exact Nat.lt_succ_self _

/-- A copy of a router without handlers. -/
theorem RouterMemory.Sound.copyInto (hw : w.Sound) {r : Nat} {src : KeyedRouter}
    (hsrc : src.httpHandlers = []) : (w.copyInto r src).Sound where
  ownsKeys := by
    apply forall_routers_update hw.ownsKeys
    rintro router hrouter
    cases hrouter
    intro entry hentry
    rw [hsrc] at hentry
    cases hentry
  made := by
    apply forall_routers_update
    · intro r router hrouter key hkey
      exact Nat.lt_add_right _ (hw.made r router hrouter key hkey)
    · rintro router hrouter key hkey
      cases hrouter
      exact (List.mem_range'_1.mp hkey).2

/-- A copy of a router with handlers has keys that view strings of the source. -/
theorem RouterMemory.Sound.not_ownsKeys_copyInto (hw : w.Sound) {r i : Nat} {src : KeyedRouter}
    (hsource : w.routers i = some src) (hsrc : src.httpHandlers ≠ []) :
    ¬ (w.copyInto r src).OwnsKeys := by
  intro howns
  obtain ⟨entry, hentry⟩ := List.exists_mem_of_ne_nil _ hsrc
  have hcopied : entry.1 ∈ w.copiedKeys src.pathKeys :=
    howns r _ (Function.update_self _ _ _) entry hentry
  have hold : entry.1 < w.next :=
    hw.made i src hsource entry.1 (hw.ownsKeys i src hsource entry hentry)
  exact absurd (List.mem_range'_1.mp hcopied).1 (Nat.not_le_of_lt hold)

theorem routerStep_copyConstruct {r src : Nat}
    (hstep : routerStep w (.copyConstruct r src) = some w') :
    ∃ source, w.routers src = some source ∧ w' = w.copyInto r source := by
  simp only [routerStep] at hstep
  split at hstep
  · cases hstep
  · obtain ⟨source, hsource, rfl⟩ := Option.map_eq_some_iff.mp hstep
    exact ⟨source, hsource, rfl⟩

theorem routerStep_copyAssign {dst src : Nat}
    (hstep : routerStep w (.copyAssign dst src) = some w') :
    (dst = src ∧ w' = w) ∨ (dst ≠ src ∧ ∃ old source : KeyedRouter, w.routers src = some source ∧
      w' = (w.copyInto dst source).freeKeys old.pathKeys) := by
  obtain ⟨old, -, hrest⟩ := Option.bind_eq_some_iff.mp hstep
  obtain ⟨source, hsource, hassign⟩ := Option.bind_eq_some_iff.mp hrest
  split at hassign
  · next heq =>
      cases hassign
      exact .inl ⟨heq, rfl⟩
  · next hne =>
      cases hassign
      exact .inr ⟨hne, old, source, hsource, rfl⟩

theorem RouterMemory.Sound.step (hw : w.Sound) (hcopies : CopiesNothing w a)
    (hstep : routerStep w a = some w') : w'.Sound := by
  cases a with
  | construct r =>
      simp only [routerStep] at hstep
      split at hstep
      · cases hstep
      · cases hstep
        apply hw.setRouter
        rintro router hrouter
        cases hrouter
        exact ⟨List.forall_mem_nil _, List.forall_mem_nil _⟩
  | addHttpHandler r method path handler =>
      obtain ⟨router, hrouter, rfl⟩ := Option.map_eq_some_iff.mp hstep
      exact hw.addHttpHandler hrouter method path handler
  | copyConstruct r src =>
      obtain ⟨source, hsource, rfl⟩ := routerStep_copyConstruct hstep
      exact hw.copyInto (hcopies source hsource)
  | copyAssign dst src =>
      obtain ⟨-, rfl⟩ | ⟨hne, old, source, hsource, rfl⟩ := routerStep_copyAssign hstep
      · exact hw
      · exact (hw.copyInto ((hcopies.resolve_left hne) source hsource)).freeKeys _
  | destroy r =>
      obtain ⟨router, hrouter, rfl⟩ := Option.map_eq_some_iff.mp hstep
      apply (hw.freeKeys _).setRouter
      rintro router' hrouter'
      cases hrouter'

/-- A step that copies handlers leaves a router with keys that are not its own. -/
theorem RouterMemory.Sound.step_copies (hw : w.Sound) (hcopies : ¬ CopiesNothing w a)
    (hstep : routerStep w a = some w') : ¬ w'.OwnsKeys := by
  have hhandlers : ∀ {src source}, w.routers src = some source →
      (¬ ∀ source, w.routers src = some source → source.httpHandlers = []) →
      source.httpHandlers ≠ [] := by
    intro src source hsource hnot hnil
    apply hnot
    intro other hother
    rw [hsource, Option.some.injEq] at hother
    exact hother ▸ hnil
  cases a with
  | construct r => exact absurd trivial hcopies
  | addHttpHandler r method path handler => exact absurd trivial hcopies
  | destroy r => exact absurd trivial hcopies
  | copyConstruct r src =>
      obtain ⟨source, hsource, rfl⟩ := routerStep_copyConstruct hstep
      exact hw.not_ownsKeys_copyInto hsource (hhandlers hsource hcopies)
  | copyAssign dst src =>
      obtain ⟨hself, hcopied⟩ := not_or.mp hcopies
      obtain ⟨heq, -⟩ | ⟨-, old, source, hsource, rfl⟩ := routerStep_copyAssign hstep
      · exact absurd heq hself
      · exact hw.not_ownsKeys_copyInto hsource (hhandlers hsource hcopied)

/-- In a run every router owns its keys throughout exactly when no router with handlers is
copied into another one. -/
theorem router_run_ownsKeys_iff {tr : List (RouterMemory × RouterAction)}
    (hrun : Run routerSystem tr w) :
    (∀ x ∈ visited tr w, x.OwnsKeys) ↔ ∀ p ∈ tr, CopiesNothing p.1 p.2 := by
  apply hrun.exact RouterMemory.Sound RouterMemory.OwnsKeys CopiesNothing
  · rintro w rfl
    refine ⟨?_, ?_⟩ <;> intro r router hrouter <;> cases hrouter
  · exact fun w hw => hw.ownsKeys
  · exact fun w a w' hw hcopies hstep => hw.step hcopies hstep
  · exact fun w a w' hw hcopies hstep => hw.step_copies hcopies hstep

end Ownership

/-- A handler that does nothing. -/
def idleHandler : HttpHandlerFunc := fun _ => .returns

theorem router_run_of_create {actions : List RouterAction}
    {tr : List (RouterMemory × RouterAction)} {w : RouterMemory}
    (hexec : exec routerStep .create actions = some (tr, w)) : Run routerSystem tr w := by
  have hinit : routerSystem.init .create := rfl
  exact run_of_exec hinit hexec

/-- Two routers, one of which is a copy made before the first handler was added. -/
theorem router_run_ownsKeys_iff_early_copy :
    ∃ tr w, Run routerSystem tr w ∧ tr.length = 4 ∧
      ∀ x ∈ visited tr w, x.OwnsKeys := by
  have hexec : exec routerStep .create
      [.construct 0, .copyConstruct 1 0, .addHttpHandler 0 .get [47] idleHandler,
        .addHttpHandler 1 .post [47] idleHandler] = some (_, _) := rfl
  have hrun := router_run_of_create hexec
  refine ⟨_, _, hrun, rfl, (router_run_ownsKeys_iff hrun).mpr ?_⟩
  rw [List.forall_mem_cons, List.forall_mem_cons, List.forall_mem_cons, List.forall_mem_singleton]
  refine ⟨trivial, fun source hsource => ?_, trivial, trivial⟩
  cases hsource
  rfl

/-- A server's router with a handler, assigned to the router of a session as `SetRouter`
does: the session's key views the server's string, and dangles when the server's router is
gone. -/
theorem assigned_router_views_source :
    ∃ tr w w' router, Run routerSystem tr w ∧ w.routers 1 = some router ∧ ¬ router.OwnsKeys ∧
      routerStep w (.destroy 0) = some w' ∧ w'.routers 1 = some router ∧
      ∃ entry ∈ router.httpHandlers, w'.strings entry.1 = none := by
  have hexec : exec routerStep .create
      [.construct 0, .addHttpHandler 0 .get [47] idleHandler, .construct 1, .copyAssign 1 0] =
      some (_, _) := rfl
  refine ⟨_, _, _, ⟨[1], [(0, idleHandler)]⟩, router_run_of_create hexec, rfl, ?_, rfl, rfl, ?_⟩
  · intro howns
    exact absurd (howns (0, idleHandler) (List.mem_singleton_self _)) (by decide)
  · exact ⟨(0, idleHandler), List.mem_singleton_self _, rfl⟩

end GameDemoLearn.Net.Http
