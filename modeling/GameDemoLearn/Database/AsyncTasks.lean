import GameDemoLearn.Lib.Transition
import GameDemoLearn.Util.Bytes

/-!
The asynchronous side of one connection (`MySqlConnection.cpp`): calls of `AsyncExecute`
and `AsyncQuery`, the worker thread that runs the tasks they post, and the buffers of the
callers, which may change or go between any two steps. A call is one step, and so is the
start and the end of a task.
-/

namespace GameDemoLearn.Database

open Transition

/-- A `std::string_view` into a buffer of the caller. -/
structure SqlView (β : Type) where
  buffer : β
  pos : Nat
  len : Nat

variable {β : Type}

/-- The bytes that the view shows, and `none` where it dangles. -/
def SqlView.read (sql : SqlView β) (memory : β → Option Bytes) : Option Bytes :=
  if sql.len = 0 then some []
  else (memory sql.buffer).bind fun content => content.load sql.pos sql.len

/-- What the four lambdas capture. -/
inductive AsyncTask (β : Type)
  | execute (strSql : Bytes)
  | executeStmt (pStmt : Nat)
  | query (sql : SqlView β)
  | queryStmt (pStmt : Option Nat)

/-- The tasks of `AsyncQuery`, which the counter counts. -/
def AsyncTask.isQuery : AsyncTask β → Bool
  | .query _ | .queryStmt _ => true
  | .execute _ | .executeStmt _ => false

/-- A task, with the text that its call was given. -/
structure PostedTask (β : Type) where
  task : AsyncTask β
  sqlAtCall : Bytes

/-- A text that the worker passed to `Execute` or `Query`, and the text of the call. -/
structure PassedText where
  text : Option Bytes
  sqlAtCall : Bytes
  deriving DecidableEq

/-- `worker` holds while the worker thread is in `_ioCtx.run()`. -/
structure AsyncConnection (β : Type) where
  memory : β → Option Bytes
  ioWork : Bool
  worker : Bool
  ioCtx : List (PostedTask β)
  running : Option (PostedTask β)
  asyncTaskCount : Nat
  passed : List PassedText

inductive TaskAction (β : Type)
  | setBuffer (buffer : β) (content : Option Bytes)
  | startWorkerThread
  | asyncExecute (sql : SqlView β)
  | asyncExecuteStmt (pStmt : Option Nat)
  | asyncQuery (sql : SqlView β)
  | asyncQueryStmt (pStmt : Option Nat)
  | start
  | finish (threw : Bool)

namespace AsyncConnection

/-- `asio::post(_ioCtx.get_executor(), ..)`. -/
def post (s : AsyncConnection β) (task : AsyncTask β) (sqlAtCall : Bytes) : AsyncConnection β :=
  { s with ioCtx := s.ioCtx ++ [⟨task, sqlAtCall⟩] }

/-- `asio::post(_ioWork, ..)`, which throws and posts nothing before `StartWorkerThread`. -/
def postWork (s : AsyncConnection β) (task : AsyncTask β) (sqlAtCall : Bytes) :
    AsyncConnection β :=
  if s.ioWork then s.post task sqlAtCall else s

/-- `++_asyncTaskCount`. -/
def countTask (s : AsyncConnection β) : AsyncConnection β :=
  { s with asyncTaskCount := s.asyncTaskCount + 1 }

def asyncExecute (s : AsyncConnection β) (sql : Bytes) : AsyncConnection β :=
  if sql.isEmpty then s else s.postWork (.execute sql) sql

def asyncExecuteStmt (s : AsyncConnection β) : Option Nat → AsyncConnection β
  | none => s
  | some pStmt => s.postWork (.executeStmt pStmt) []

/-- The lambda captures the view. -/
def asyncQuery (s : AsyncConnection β) (sql : SqlView β) (text : Bytes) : AsyncConnection β :=
  s.countTask.post (.query sql) text

def asyncQueryStmt (s : AsyncConnection β) (pStmt : Option Nat) : AsyncConnection β :=
  s.countTask.postWork (.queryStmt pStmt) []

/-- The texts that a task passes on. -/
def textsOf (s : AsyncConnection β) (t : PostedTask β) : List PassedText :=
  match t.task with
  | .execute strSql => [⟨some strSql, t.sqlAtCall⟩]
  | .query sql => [⟨sql.read s.memory, t.sqlAtCall⟩]
  | .executeStmt _ | .queryStmt _ => []

/-- The end of a task. An exception leaves out `--_asyncTaskCount`; that of an
`AsyncExecute` task also ends `run()`, while that of an `AsyncQuery` task goes into its
future. -/
def finish (s : AsyncConnection β) (t : PostedTask β) (threw : Bool) : AsyncConnection β :=
  { s with
    running := none
    asyncTaskCount := if t.task.isQuery && !threw then s.asyncTaskCount - 1 else s.asyncTaskCount
    worker := s.worker && (t.task.isQuery || !threw) }

/-- The tasks posted and not finished. -/
def pending (s : AsyncConnection β) : List (PostedTask β) := s.running.toList ++ s.ioCtx

end AsyncConnection

def taskStep [DecidableEq β] (s : AsyncConnection β) (a : TaskAction β) :
    Option (AsyncConnection β) :=
  match a with
  | .setBuffer buffer content =>
      some { s with memory := Function.update s.memory buffer content }
  | .startWorkerThread => if s.ioWork then none else some { s with ioWork := true, worker := true }
  | .asyncExecute sql => (sql.read s.memory).map s.asyncExecute
  | .asyncExecuteStmt pStmt => some (s.asyncExecuteStmt pStmt)
  | .asyncQuery sql => (sql.read s.memory).map (s.asyncQuery sql)
  | .asyncQueryStmt pStmt => some (s.asyncQueryStmt pStmt)
  | .start =>
      match s.worker, s.running, s.ioCtx with
      | true, none, t :: rest =>
          some { s with ioCtx := rest, running := some t, passed := s.passed ++ s.textsOf t }
      | _, _, _ => none
  | .finish threw => s.running.map fun t => s.finish t threw

/-- A connection after `Open`, with any buffers of callers. -/
def TaskInit (s : AsyncConnection β) : Prop :=
  s.ioWork = false ∧ s.worker = false ∧ s.ioCtx = [] ∧ s.running = none ∧
    s.asyncTaskCount = 0 ∧ s.passed = []

def taskSystem (β : Type) [DecidableEq β] : System (AsyncConnection β) (TaskAction β) :=
  System.ofStep TaskInit taskStep

namespace AsyncConnection

variable {s : AsyncConnection β}

theorem pending_post (s : AsyncConnection β) (task : AsyncTask β) (sqlAtCall : Bytes) :
    (s.post task sqlAtCall).pending = s.pending ++ [⟨task, sqlAtCall⟩] :=
  (List.append_assoc _ _ _).symm

theorem postWork_of_working (hwork : s.ioWork = true) (task : AsyncTask β)
    (sqlAtCall : Bytes) : s.postWork task sqlAtCall = s.post task sqlAtCall := by
  rw [postWork, if_pos hwork]

theorem postWork_of_not_working (hwork : s.ioWork = false) (task : AsyncTask β)
    (sqlAtCall : Bytes) : s.postWork task sqlAtCall = s := by
  rw [postWork, hwork, if_neg Bool.false_ne_true]

theorem asyncExecute_eq_self {sql : Bytes} (h : s.ioWork = false ∨ sql = []) :
    s.asyncExecute sql = s := by
  unfold asyncExecute
  split
  · rfl
  · next hsome =>
      rcases h with hwork | rfl
      · exact postWork_of_not_working hwork _ _
      · exact absurd rfl hsome

theorem asyncExecute_eq_post {sql : Bytes} (hwork : s.ioWork = true) (hsome : sql ≠ []) :
    s.asyncExecute sql = s.post (.execute sql) sql := by
  unfold asyncExecute
  split
  · next hempty => exact absurd (List.isEmpty_iff.mp hempty) hsome
  · exact postWork_of_working hwork _ _

end AsyncConnection

theorem TaskInit.pending {s : AsyncConnection β} (hinit : TaskInit s) : s.pending = [] := by
  obtain ⟨-, -, hioCtx, hrunning, -, -⟩ := hinit
  rw [AsyncConnection.pending, hrunning, hioCtx]
  rfl

/-- Starting a task takes none away. -/
theorem pending_of_start {s : AsyncConnection β} {t : PostedTask β} {rest : List (PostedTask β)}
    (hrunning : s.running = none) (hioCtx : s.ioCtx = t :: rest) : [t] ++ rest = s.pending := by
  rw [AsyncConnection.pending, hrunning, hioCtx]
  rfl

section Steps

variable [DecidableEq β] {s s' : AsyncConnection β}

/-- What a step that starts a task does. -/
theorem start_eq_some (hstep : taskStep s .start = some s') :
    ∃ t rest, s.running = none ∧ s.ioCtx = t :: rest ∧
      s' = { s with ioCtx := rest, running := some t, passed := s.passed ++ s.textsOf t } := by
  simp only [taskStep] at hstep
  split at hstep
  · next t rest _ hrunning hioCtx =>
      cases hstep
      exact ⟨t, rest, hrunning, hioCtx, rfl⟩
  · cases hstep

theorem finish_eq_some {threw : Bool} (hstep : taskStep s (.finish threw) = some s') :
    ∃ t, s.running = some t ∧ s' = s.finish t threw := by
  obtain ⟨t, hrunning, rfl⟩ := Option.map_eq_some_iff.mp hstep
  exact ⟨t, hrunning, rfl⟩

end Steps

/-- `GetAsyncTaskCount()` is the number of tasks posted and not finished. -/
def AsyncConnection.CountsPending (s : AsyncConnection β) : Prop :=
  s.asyncTaskCount = s.pending.length

/-- The steps that keep the counter right: they post no `AsyncExecute` task, end no task
with an exception, and call no `AsyncQuery(pStmt)` before `StartWorkerThread`. -/
def KeepsCount (s : AsyncConnection β) : TaskAction β → Prop
  | .asyncExecute sql => s.ioWork = false ∨ sql.read s.memory = some []
  | .asyncExecuteStmt pStmt => s.ioWork = false ∨ pStmt = none
  | .asyncQueryStmt _ => s.ioWork = true
  | .finish threw => threw = false
  | _ => True

/-- The counter is right, and the pending tasks are those that count. -/
structure AsyncConnection.Counted (s : AsyncConnection β) : Prop where
  count : s.CountsPending
  queries : ∀ t ∈ s.pending, t.task.isQuery = true

section Count

variable {s s' : AsyncConnection β}

theorem AsyncConnection.Counted.post (hs : s.Counted) {task : AsyncTask β} (sqlAtCall : Bytes)
    (hquery : task.isQuery = true) : (s.countTask.post task sqlAtCall).Counted where
  count := by
    have hcount := hs.count
    rw [CountsPending] at hcount ⊢
    rw [pending_post, List.length_append]
    change s.asyncTaskCount + 1 = s.pending.length + 1
    rw [hcount]
  queries := by
    rw [pending_post, List.forall_mem_append, List.forall_mem_singleton]
    exact ⟨hs.queries, hquery⟩

variable [DecidableEq β]

theorem AsyncConnection.Counted.step {a : TaskAction β} (hs : s.Counted) (hkeeps : KeepsCount s a)
    (hstep : taskStep s a = some s') : s'.Counted := by
  cases a with
  | setBuffer buffer content =>
      cases hstep
      exact ⟨hs.count, hs.queries⟩
  | startWorkerThread =>
      simp only [taskStep] at hstep
      split at hstep
      · cases hstep
      · cases hstep
        exact ⟨hs.count, hs.queries⟩
  | asyncExecute sql =>
      obtain ⟨text, htext, rfl⟩ := Option.map_eq_some_iff.mp hstep
      simp only [KeepsCount, htext, Option.some.injEq] at hkeeps
      rw [asyncExecute_eq_self hkeeps]
      exact hs
  | asyncExecuteStmt pStmt =>
      cases hstep
      cases pStmt with
      | none => exact hs
      | some pStmt =>
          have hwork : s.ioWork = false := hkeeps.resolve_right nofun
          rw [asyncExecuteStmt, postWork_of_not_working hwork]
          exact hs
  | asyncQuery sql =>
      obtain ⟨text, -, rfl⟩ := Option.map_eq_some_iff.mp hstep
      exact hs.post text rfl
  | asyncQueryStmt pStmt =>
      cases hstep
      have hwork : s.countTask.ioWork = true := hkeeps
      rw [asyncQueryStmt, postWork_of_working hwork]
      exact hs.post [] rfl
  | start =>
      obtain ⟨t, rest, hrunning, hioCtx, rfl⟩ := start_eq_some hstep
      have hsame := pending_of_start hrunning hioCtx
      constructor
      · change s.asyncTaskCount = ([t] ++ rest).length
        rw [hsame]
        exact hs.count
      · change ∀ t' ∈ [t] ++ rest, t'.task.isQuery = true
        rw [hsame]
        exact hs.queries
  | finish threw =>
      obtain ⟨t, hrunning, rfl⟩ := finish_eq_some hstep
      have hpending : s.pending = t :: s.ioCtx := by
        rw [pending, hrunning]
        rfl
      have hcount := hs.count
      have hqueries := hs.queries
      rw [CountsPending, hpending, List.length_cons] at hcount
      rw [hpending, List.forall_mem_cons] at hqueries
      have hthrew : threw = false := hkeeps
      refine ⟨?_, hqueries.2⟩
      simp only [CountsPending, finish, hqueries.1, hthrew, Bool.not_false, Bool.and_self, if_true,
        hcount, Nat.add_sub_cancel, pending, Option.toList_none, List.nil_append]

/-- Any other step makes the counter and the tasks differ. -/
theorem AsyncConnection.Counted.step_drifts {a : TaskAction β} (hs : s.Counted)
    (hdrifts : ¬ KeepsCount s a) (hstep : taskStep s a = some s') : ¬ s'.CountsPending := by
  have hcount := hs.count
  rw [CountsPending] at hcount
  cases a with
  | asyncExecute sql =>
      obtain ⟨text, htext, rfl⟩ := Option.map_eq_some_iff.mp hstep
      simp only [KeepsCount, htext, Option.some.injEq, not_or, Bool.not_eq_false] at hdrifts
      rw [asyncExecute_eq_post hdrifts.1 hdrifts.2, CountsPending, pending_post,
        List.length_append]
      change ¬ s.asyncTaskCount = s.pending.length + 1
      omega
  | asyncExecuteStmt pStmt =>
      cases hstep
      cases pStmt with
      | none => exact absurd (.inr rfl) hdrifts
      | some pStmt =>
          simp only [KeepsCount, reduceCtorEq, or_false, Bool.not_eq_false] at hdrifts
          rw [asyncExecuteStmt, postWork_of_working hdrifts, CountsPending, pending_post,
            List.length_append]
          change ¬ s.asyncTaskCount = s.pending.length + 1
          omega
  | asyncQueryStmt pStmt =>
      cases hstep
      simp only [KeepsCount, Bool.not_eq_true] at hdrifts
      have hwork : s.countTask.ioWork = false := hdrifts
      rw [asyncQueryStmt, postWork_of_not_working hwork, CountsPending]
      change ¬ s.asyncTaskCount + 1 = s.pending.length
      omega
  | finish threw =>
      obtain ⟨t, hrunning, rfl⟩ := finish_eq_some hstep
      simp only [KeepsCount, Bool.not_eq_false] at hdrifts
      rw [pending, hrunning, Option.toList_some, List.length_append, List.length_singleton]
        at hcount
      simp only [CountsPending, finish, hdrifts, Bool.not_true, Bool.and_false,
        Bool.false_eq_true, if_false, pending, Option.toList_none, List.nil_append]
      omega
  | _ => exact absurd trivial hdrifts

/-- In every run the counter is right in all states exactly when every step keeps it
right. -/
theorem asyncTaskCount_exact_iff {tr : List (AsyncConnection β × TaskAction β)}
    (hrun : Run (taskSystem β) tr s) :
    (∀ x ∈ visited tr s, x.CountsPending) ↔ ∀ p ∈ tr, KeepsCount p.1 p.2 := by
  apply hrun.exact AsyncConnection.Counted AsyncConnection.CountsPending KeepsCount
  · intro x hinit
    have hpending := hinit.pending
    constructor
    · rw [AsyncConnection.CountsPending, hpending, hinit.2.2.2.2.1, List.length_nil]
    · rw [hpending]
      exact List.forall_mem_nil _
  · exact fun x hx => hx.count
  · exact fun x a y hx hkeeps hstep => hx.step hkeeps hstep
  · exact fun x a y hx hdrifts hstep => hx.step_drifts hdrifts hstep

end Count

/-- A new connection and a caller with one buffer. -/
def newConnection : AsyncConnection Unit :=
  ⟨fun _ => some [115, 113, 108], false, false, [], none, 0, []⟩

/-- The view of the whole buffer. -/
def wholeBuffer : SqlView Unit := ⟨(), 0, 3⟩

theorem run_of_newConnection {actions : List (TaskAction Unit)}
    {tr : List (AsyncConnection Unit × TaskAction Unit)} {s : AsyncConnection Unit}
    (hexec : exec taskStep newConnection actions = some (tr, s)) : Run (taskSystem Unit) tr s := by
  have hinit : TaskInit newConnection := ⟨rfl, rfl, rfl, rfl, rfl, rfl⟩
  exact run_of_exec hinit hexec

/-- Two queries, the first of which is posted before the worker is there. -/
theorem asyncTaskCount_exact_iff_queries :
    ∃ tr s, Run (taskSystem Unit) tr s ∧ s.asyncTaskCount = 1 ∧ s.pending.length = 1 ∧
      ((∀ x ∈ visited tr s, x.CountsPending) ↔ ∀ p ∈ tr, KeepsCount p.1 p.2) := by
  have hexec : exec taskStep newConnection [.asyncQuery wholeBuffer, .startWorkerThread, .start,
      .asyncQueryStmt (some 0), .finish false] = some (_, _) := rfl
  have hrun := run_of_newConnection hexec
  exact ⟨_, _, hrun, rfl, rfl, asyncTaskCount_exact_iff hrun⟩

/-- A task that is not counted, one whose exception leaves it counted, and a call that counts
a task it does not post. -/
theorem asyncTaskCount_drifts :
    (∃ tr s, Run (taskSystem Unit) tr s ∧
      tr.map Prod.snd = [.startWorkerThread, .asyncExecute wholeBuffer] ∧
      s.asyncTaskCount = 0 ∧ s.pending.length = 1) ∧
    (∃ tr s, Run (taskSystem Unit) tr s ∧
      tr.map Prod.snd = [.startWorkerThread, .asyncQuery wholeBuffer, .start, .finish true] ∧
      s.asyncTaskCount = 1 ∧ s.pending.length = 0) ∧
    ∃ tr s, Run (taskSystem Unit) tr s ∧ tr.map Prod.snd = [.asyncQueryStmt (some 0)] ∧
      s.asyncTaskCount = 1 ∧ s.pending.length = 0 := by
  have hexecute : exec taskStep newConnection [.startWorkerThread, .asyncExecute wholeBuffer]
      = some (_, _) := rfl
  have hthrew : exec taskStep newConnection [.startWorkerThread, .asyncQuery wholeBuffer, .start,
      .finish true] = some (_, _) := rfl
  have hearly : exec taskStep newConnection [.asyncQueryStmt (some 0)] = some (_, _) := rfl
  exact ⟨⟨_, _, run_of_newConnection hexecute, rfl, rfl, rfl⟩,
    ⟨_, _, run_of_newConnection hthrew, rfl, rfl, rfl⟩,
    ⟨_, _, run_of_newConnection hearly, rfl, rfl, rfl⟩⟩

/-- Every text that the worker passed on was the text of its call. -/
def AsyncConnection.TextsKept (s : AsyncConnection β) : Prop :=
  ∀ e ∈ s.passed, e.text = some e.sqlAtCall

/-- If the step starts an `AsyncQuery(sql)` task, the buffer of the caller is still there
and the view shows what it showed at the call. -/
def ViewIntact (s : AsyncConnection β) : TaskAction β → Prop
  | .start => ∀ t sql, s.ioCtx.head? = some t → t.task = .query sql →
      sql.read s.memory = some t.sqlAtCall
  | _ => True

/-- The texts passed on so far are right, and an `AsyncExecute` task has its own copy. -/
structure AsyncConnection.Copied (s : AsyncConnection β) : Prop where
  kept : s.TextsKept
  copies : ∀ t ∈ s.pending, ∀ strSql, t.task = .execute strSql → strSql = t.sqlAtCall

section Texts

variable {s s' : AsyncConnection β}

theorem AsyncConnection.Copied.post (hs : s.Copied) {task : AsyncTask β} {sqlAtCall : Bytes}
    (hcopy : ∀ strSql, task = .execute strSql → strSql = sqlAtCall) :
    (s.post task sqlAtCall).Copied where
  kept := hs.kept
  copies := by
    rw [pending_post, List.forall_mem_append, List.forall_mem_singleton]
    exact ⟨hs.copies, hcopy⟩

theorem AsyncConnection.Copied.postWork (hs : s.Copied) {task : AsyncTask β} {sqlAtCall : Bytes}
    (hcopy : ∀ strSql, task = .execute strSql → strSql = sqlAtCall) :
    (s.postWork task sqlAtCall).Copied := by
  unfold AsyncConnection.postWork
  split
  · exact hs.post hcopy
  · exact hs

theorem AsyncConnection.Copied.countTask (hs : s.Copied) : s.countTask.Copied :=
  ⟨hs.kept, hs.copies⟩

variable [DecidableEq β]

theorem AsyncConnection.Copied.step {a : TaskAction β} (hs : s.Copied) (hintact : ViewIntact s a)
    (hstep : taskStep s a = some s') : s'.Copied := by
  cases a with
  | setBuffer buffer content =>
      cases hstep
      exact ⟨hs.kept, hs.copies⟩
  | startWorkerThread =>
      simp only [taskStep] at hstep
      split at hstep
      · cases hstep
      · cases hstep
        exact ⟨hs.kept, hs.copies⟩
  | asyncExecute sql =>
      obtain ⟨text, -, rfl⟩ := Option.map_eq_some_iff.mp hstep
      unfold asyncExecute
      split
      · exact hs
      · apply hs.postWork
        rintro strSql ⟨⟩
        rfl
  | asyncExecuteStmt pStmt =>
      cases hstep
      cases pStmt with
      | none => exact hs
      | some pStmt => exact hs.postWork nofun
  | asyncQuery sql =>
      obtain ⟨text, -, rfl⟩ := Option.map_eq_some_iff.mp hstep
      exact hs.countTask.post nofun
  | asyncQueryStmt pStmt =>
      cases hstep
      exact hs.countTask.postWork nofun
  | start =>
      obtain ⟨t, rest, hrunning, hioCtx, rfl⟩ := start_eq_some hstep
      have hsame := pending_of_start hrunning hioCtx
      constructor
      · simp only [TextsKept, List.forall_mem_append]
        refine ⟨hs.kept, ?_⟩
        unfold textsOf
        split
        · next strSql htask =>
            have hmem : t ∈ s.pending := by
              rw [← hsame]
              exact List.mem_append_left rest (List.mem_singleton_self t)
            rw [List.forall_mem_singleton, hs.copies t hmem strSql htask]
        · next sql htask =>
            rw [List.forall_mem_singleton]
            exact hintact t sql (hioCtx ▸ rfl) htask
        · exact List.forall_mem_nil _
        · exact List.forall_mem_nil _
      · change ∀ t' ∈ [t] ++ rest, ∀ strSql, t'.task = .execute strSql → strSql = t'.sqlAtCall
        rw [hsame]
        exact hs.copies
  | finish threw =>
      obtain ⟨t, hrunning, rfl⟩ := finish_eq_some hstep
      refine ⟨hs.kept, ?_⟩
      intro t' ht'
      exact hs.copies t' (List.mem_append_right _ ht')

/-- A task whose view shows something else passes on another text. -/
theorem not_textsKept_of_view_changed {a : TaskAction β} (hchanged : ¬ ViewIntact s a)
    (hstep : taskStep s a = some s') : ¬ s'.TextsKept := by
  cases a with
  | start =>
      obtain ⟨t, rest, hrunning, hioCtx, rfl⟩ := start_eq_some hstep
      simp only [ViewIntact, hioCtx, List.head?_cons, Option.some.injEq, not_forall] at hchanged
      obtain ⟨_, sql, rfl, htask, hdiffers⟩ := hchanged
      intro hkept
      apply hdiffers
      apply hkept ⟨sql.read s.memory, t.sqlAtCall⟩
      apply List.mem_append_right
      rw [AsyncConnection.textsOf, htask]
      exact List.mem_singleton_self _
  | _ => exact absurd trivial hchanged

/-- In every run all texts passed on are those of their calls exactly when every
`AsyncQuery(sql)` task found the view as it was. -/
theorem textsKept_iff {tr : List (AsyncConnection β × TaskAction β)}
    (hrun : Run (taskSystem β) tr s) :
    (∀ x ∈ visited tr s, x.TextsKept) ↔ ∀ p ∈ tr, ViewIntact p.1 p.2 := by
  apply hrun.exact AsyncConnection.Copied AsyncConnection.TextsKept ViewIntact
  · intro x hinit
    constructor
    · rw [AsyncConnection.TextsKept, hinit.2.2.2.2.2]
      exact List.forall_mem_nil _
    · rw [hinit.pending]
      exact List.forall_mem_nil _
  · exact fun x hx => hx.kept
  · exact fun x a y hx hintact hstep => hx.step hintact hstep
  · exact fun x a y _ hchanged hstep => not_textsKept_of_view_changed hchanged hstep

end Texts

/-- A text that is executed after its buffer is gone, and a query whose buffer stays. -/
theorem textsKept_iff_copied :
    ∃ tr s, Run (taskSystem Unit) tr s ∧
      s.passed = [⟨some [115, 113, 108], [115, 113, 108]⟩, ⟨some [115, 113], [115, 113]⟩] ∧
      ((∀ x ∈ visited tr s, x.TextsKept) ↔ ∀ p ∈ tr, ViewIntact p.1 p.2) := by
  have hexec : exec taskStep newConnection [.startWorkerThread, .asyncExecute wholeBuffer,
      .setBuffer () none, .start, .finish false, .setBuffer () (some [115, 113]),
      .asyncQuery ⟨(), 0, 2⟩, .start] = some (_, _) := rfl
  have hrun := run_of_newConnection hexec
  exact ⟨_, _, hrun, rfl, textsKept_iff hrun⟩

/-- Queries whose caller overwrites and releases the buffer before the task starts. -/
theorem query_text_changed :
    (∃ tr s, Run (taskSystem Unit) tr s ∧
      tr.map Prod.snd = [.startWorkerThread, .asyncQuery wholeBuffer,
        .setBuffer () (some [120, 121, 122]), .start] ∧
      s.passed = [⟨some [120, 121, 122], [115, 113, 108]⟩] ∧ ¬ s.TextsKept) ∧
    ∃ tr s, Run (taskSystem Unit) tr s ∧
      tr.map Prod.snd = [.startWorkerThread, .asyncQuery wholeBuffer, .setBuffer () none, .start] ∧
      s.passed = [⟨none, [115, 113, 108]⟩] ∧ ¬ s.TextsKept := by
  have hoverwritten : exec taskStep newConnection [.startWorkerThread, .asyncQuery wholeBuffer,
      .setBuffer () (some [120, 121, 122]), .start] = some (_, _) := rfl
  have hreleased : exec taskStep newConnection [.startWorkerThread, .asyncQuery wholeBuffer,
      .setBuffer () none, .start] = some (_, _) := rfl
  refine ⟨⟨_, _, run_of_newConnection hoverwritten, rfl, rfl, ?_⟩,
    ⟨_, _, run_of_newConnection hreleased, rfl, rfl, ?_⟩⟩
  · intro hkept
    cases hkept _ (List.mem_singleton_self _)
  · intro hkept
    cases hkept _ (List.mem_singleton_self _)

end GameDemoLearn.Database
