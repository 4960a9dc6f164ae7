import GameDemoLearn.Lib.Fifo
import GameDemoLearn.Net.Buffer

/-!
Message buffers as byte queues. The system runs the operations of the public
interface on a family of buffer objects, each given memory of its own, and keeps
the history of every object. Its steps are those that respect the documented
preconditions; that the code then never leaves its storage is part of what is
proved.
-/

namespace GameDemoLearn.Net

open Transition

variable {ι : Type} [DecidableEq ι]

/-- The operations on the objects `ι`. Assignment from an lvalue is the
`operator=` that takes its argument by value. Assignment from an rvalue has two
overloads that fit equally well, so no program that uses it compiles and a move
is a move construction. -/
inductive BufferOp (ι : Type)
  | construct (i : ι) (initialSize : Nat)
  | write (i : ι) (data : Bytes)
  | writeVoid (i : ι) (data : Bytes)
  | writeString (i : ι) (str : Bytes)
  | writePod (i : ι) (object : Bytes)
  | streamIn (i : ι) (object : Bytes)
  | fill (i : ι) (data : Bytes) (len : Nat)
  | ensureWritableBytes (i : ι) (len : Nat)
  | ensureFreeSpace (i : ι)
  | shrink (i : ι) (reserve : Nat)
  | read (i : ι) (len : Nat)
  | readPod (i : ι) (size : Nat)
  | streamOut (i : ι) (size : Nat)
  | readAsString (i : ι) (len : Nat)
  | readAllAsString (i : ι)
  | readDone (i : ι) (len : Nat)
  | copyConstruct (dst src : ι)
  | copyAssign (dst src : ι)
  | moveConstruct (dst src : ι)
  | swap (i j : ι)

/-- The preconditions: reads stay within the readable bytes, a write at the
write pointer within the writable ones, and a buffer is moved to another
object. -/
def BufferOp.Admissible (s : ι → MessageBuffer) : BufferOp ι → Prop
  | .fill i data len => data.length ≤ (s i).writableBytes ∧ len ≤ data.length
  | .read i len | .readPod i len | .streamOut i len | .readAsString i len | .readDone i len =>
      len ≤ (s i).readableBytes
  | .moveConstruct dst src => dst ≠ src
  | _ => True

/-- The buffers after an operation and the bytes it hands to the caller. -/
def BufferOp.perform (s : ι → MessageBuffer) : BufferOp ι → Option ((ι → MessageBuffer) × Bytes)
  | .construct i initialSize => some (Function.update s i (.create initialSize), [])
  | .write i data => modify i ((s i).write data)
  | .writeVoid i data => modify i ((s i).writeVoid data)
  | .writeString i str => modify i ((s i).writeString str)
  | .writePod i object => modify i ((s i).writePod object)
  | .streamIn i object => modify i ((s i).streamIn object)
  | .fill i data len => modify i (((s i).copyToWritPointer data).map fun b => b.writeDone len)
  | .ensureWritableBytes i len => modify i ((s i).ensureWritableBytes len)
  | .ensureFreeSpace i => modify i (s i).ensureFreeSpace
  | .shrink i reserve => modify i ((s i).shrink reserve)
  | .read i len => deliver i ((s i).read len)
  | .readPod i size => deliver i ((s i).readPod size)
  | .streamOut i size => deliver i ((s i).streamOut size)
  | .readAsString i len => deliver i ((s i).readAsString len)
  | .readAllAsString i => deliver i (s i).readAllAsString
  | .readDone i len =>
      -- the caller has taken the bytes from the read pointer itself
      deliver i (((s i).copyFromReadPointer len).map fun data => ((s i).readDone len, data))
  | .copyConstruct dst src | .copyAssign dst src => some (Function.update s dst (s src), [])
  | .moveConstruct dst src =>
      some (Function.update (Function.update s src .movedFrom) dst (s src), [])
  | .swap i j => some (Function.update (Function.update s j (s i)) i (s j), [])
where
  modify (i : ι) (b : Option MessageBuffer) : Option ((ι → MessageBuffer) × Bytes) :=
    b.map fun b => (Function.update s i b, [])
  deliver (i : ι) (b : Option (MessageBuffer × Bytes)) : Option ((ι → MessageBuffer) × Bytes) :=
    b.map fun b => (Function.update s i b.1, b.2)

/-- What an operation does to the queues. -/
def BufferOp.action (s : ι → MessageBuffer) : BufferOp ι → Fifo.Action ι UInt8
  | .construct i _ => .create i
  | .write i data | .writeVoid i data | .writeString i data | .writePod i data
  | .streamIn i data => .push i data
  | .fill i data len => .push i (data.take len)
  | .ensureWritableBytes i _ | .ensureFreeSpace i | .shrink i _ => .push i []
  | .read i len | .readPod i len | .streamOut i len | .readAsString i len
  | .readDone i len => .pull i len
  | .readAllAsString i => .pull i (s i).readableBytes
  | .copyConstruct dst src | .copyAssign dst src => .copy dst src
  | .moveConstruct dst src => .move dst src
  | .swap i j => .exchange i j

/-- The queues that the buffers stand for. -/
def queues (s : ι → MessageBuffer) (i : ι) : Bytes := (s i).readable

theorem queues_update (s : ι → MessageBuffer) (i : ι) (b : MessageBuffer) :
    queues (Function.update s i b) = Function.update (queues s) i b.readable := by
  funext k
  by_cases hk : k = i
  · subst hk
    simp only [queues, Function.update_self]
  · simp only [queues, Function.update_of_ne hk]

theorem wellFormed_update {s : ι → MessageBuffer} (hs : ∀ i, (s i).WellFormed) (i : ι)
    {b : MessageBuffer} (hb : b.WellFormed) : ∀ k, (Function.update s i b k).WellFormed := by
  intro k
  by_cases hk : k = i
  · subst hk
    simpa only [Function.update_self] using hb
  · simpa only [Function.update_of_ne hk] using hs k

/-- An operation refines a queue action: it stays inside the storage, keeps the
indices in order, and has the action's effect and result on the queues. -/
def Refines (s : ι → MessageBuffer) (op : BufferOp ι) : Prop :=
  ∃ s' out, op.perform s = some (s', out) ∧ (∀ i, (s' i).WellFormed) ∧
    (queues s', out) = Fifo.step (queues s) (op.action s)

section Refinement

variable {s : ι → MessageBuffer}

/-- An operation that changes one buffer, and with it one queue. -/
theorem refines_update (hs : ∀ i, (s i).WellFormed) {op : BufferOp ι} {i : ι} {b' : MessageBuffer}
    {out : Bytes} (hperform : op.perform s = some (Function.update s i b', out))
    (hb' : b'.WellFormed) (heffect : Fifo.step (queues s) (op.action s)
      = (Function.update (queues s) i b'.readable, out)) : Refines s op := by
  refine ⟨_, _, hperform, wellFormed_update hs i hb', ?_⟩
  rw [heffect, queues_update]

theorem refines_push (hs : ∀ i, (s i).WellFormed) {op : BufferOp ι} {i : ι} {data : Bytes}
    {result : Option MessageBuffer} (hperform : op.perform s = BufferOp.perform.modify s i result)
    (haction : op.action s = .push i data)
    (hresult : ∃ b', result = some b' ∧ b'.WellFormed ∧ b'.readable = (s i).readable ++ data) :
    Refines s op := by
  obtain ⟨b', rfl, hb', hreadable⟩ := hresult
  apply refines_update hs hperform hb'
  rw [haction, hreadable]
  rfl

theorem refines_pull (hs : ∀ i, (s i).WellFormed) {op : BufferOp ι} {i : ι} {len : Nat}
    {result : Option (MessageBuffer × Bytes)}
    (hperform : op.perform s = BufferOp.perform.deliver s i result)
    (haction : op.action s = .pull i len)
    (hresult : ∃ b', result = some (b', (s i).readable.take len) ∧ b'.WellFormed ∧
      b'.readable = (s i).readable.drop len) :
    Refines s op := by
  obtain ⟨b', rfl, hb', hreadable⟩ := hresult
  apply refines_update hs hperform hb'
  rw [haction, hreadable]
  rfl

theorem refines_copy (hs : ∀ i, (s i).WellFormed) {op : BufferOp ι} {dst src : ι}
    (hperform : op.perform s = some (Function.update s dst (s src), []))
    (haction : op.action s = .copy dst src) : Refines s op := by
  apply refines_update hs hperform (hs src)
  rw [haction]
  rfl

/-- Every admissible operation refines its queue action. -/
theorem perform_refines (hs : ∀ i, (s i).WellFormed) {op : BufferOp ι}
    (hadmissible : op.Admissible s) : Refines s op := by
  cases op with
  | construct i initialSize =>
      refine ⟨_, _, rfl, wellFormed_update hs i (MessageBuffer.wellFormed_create initialSize), ?_⟩
      rw [queues_update, MessageBuffer.readable_create]
      rfl
  | write i data => exact refines_push hs rfl rfl ((hs i).write data)
  | writeVoid i data => exact refines_push hs rfl rfl ((hs i).write data)
  | writeString i str => exact refines_push hs rfl rfl ((hs i).write str)
  | writePod i object => exact refines_push hs rfl rfl ((hs i).write object)
  | streamIn i object => exact refines_push hs rfl rfl ((hs i).write object)
  | fill i data len =>
      obtain ⟨hdata, hlen⟩ := hadmissible
      obtain ⟨b', hcopy, hdone⟩ := (hs i).copyToWritPointer hdata hlen
      apply refines_push hs rfl rfl
      exact ⟨b'.writeDone len, by rw [hcopy, Option.map_some], hdone⟩
  | ensureWritableBytes i len =>
      obtain ⟨b', hensure, hb', hsame, -⟩ := (hs i).ensureWritableBytes len
      apply refines_push hs rfl rfl
      exact ⟨b', hensure, hb', by rw [hsame, List.append_nil]⟩
  | ensureFreeSpace i =>
      obtain ⟨b', hensure, hb', hsame, -⟩ := (hs i).makeSpace ((s i).buffer.length * 3 / 2)
      apply refines_push hs rfl rfl
      exact ⟨b', hensure, hb', by rw [hsame, List.append_nil]⟩
  | shrink i reserve =>
      obtain ⟨b', hshrink, hb', hsame⟩ := (hs i).shrink reserve
      apply refines_push hs rfl rfl
      exact ⟨b', hshrink, hb', by rw [hsame, List.append_nil]⟩
  | read i len => exact refines_pull hs rfl rfl ((hs i).read hadmissible)
  | readPod i size => exact refines_pull hs rfl rfl ((hs i).readAsString hadmissible)
  | streamOut i size => exact refines_pull hs rfl rfl ((hs i).readAsString hadmissible)
  | readAsString i len => exact refines_pull hs rfl rfl ((hs i).readAsString hadmissible)
  | readAllAsString i =>
      exact refines_pull hs rfl rfl ((hs i).readAsString (Nat.le_refl _))
  | readDone i len =>
      have hload := (hs i).copyFromReadPointer hadmissible
      apply refines_pull hs rfl rfl
      exact ⟨(s i).readDone len, by rw [hload, Option.map_some], (hs i).readDone hadmissible⟩
  | copyConstruct dst src => exact refines_copy hs rfl rfl
  | copyAssign dst src => exact refines_copy hs rfl rfl
  | moveConstruct dst src =>
      have hsrc := wellFormed_update hs src MessageBuffer.wellFormed_movedFrom
      refine ⟨_, _, rfl, wellFormed_update hsrc dst (hs src), ?_⟩
      rw [queues_update, queues_update, MessageBuffer.readable_movedFrom]
      rfl
  | swap i j =>
      refine ⟨_, _, rfl, wellFormed_update (wellFormed_update hs j (hs i)) i (hs j), ?_⟩
      rw [queues_update, queues_update]
      rfl

end Refinement

/-- The buffers with the histories of what was written to each and delivered
from it. -/
structure Buffers (ι : Type) where
  buffers : ι → MessageBuffer
  history : ι → Fifo.History UInt8

/-- All objects are constructed, with any sizes; every step is an admissible
operation and records the bytes it took or handed out. -/
def bufferSystem (ι : Type) [DecidableEq ι] : System (Buffers ι) (BufferOp ι) where
  init s := (∀ i, ∃ initialSize, s.buffers i = .create initialSize) ∧ ∀ i, s.history i = .empty
  step s op s' := op.Admissible s.buffers ∧ ∃ out, op.perform s.buffers = some (s'.buffers, out) ∧
    s'.history = Fifo.record s.history out (op.action s.buffers)

/-- The invariant of the system. -/
structure Buffers.Conserved (s : Buffers ι) : Prop where
  wellFormed : ∀ i, (s.buffers i).WellFormed
  balanced : Fifo.Balanced (queues s.buffers) s.history

theorem conserved_run {tr : List (Buffers ι × BufferOp ι)} {s : Buffers ι}
    (hrun : Run (bufferSystem ι) tr s) : s.Conserved := by
  apply hrun.invariant Buffers.Conserved
  · intro s hinit
    obtain ⟨hcreate, hempty⟩ := hinit
    constructor
    · intro i
      obtain ⟨initialSize, hi⟩ := hcreate i
      rw [hi]
      exact MessageBuffer.wellFormed_create initialSize
    · intro i
      obtain ⟨initialSize, hi⟩ := hcreate i
      rw [hempty i, queues, hi, MessageBuffer.readable_create]
      rfl
  · intro s op s' hs hstep
    obtain ⟨hadmissible, out, hperform, hhistory⟩ := hstep
    obtain ⟨buffers, out', hperform', hwell, hstep⟩ := perform_refines hs.wellFormed hadmissible
    obtain ⟨rfl, rfl⟩ := Prod.mk.inj (Option.some.inj (hperform.symm.trans hperform'))
    have hbalanced := hs.balanced.step (op.action s.buffers)
    rw [← hstep, ← hhistory] at hbalanced
    exact ⟨hwell, hbalanced⟩

/-- In every reachable state the indices of every buffer are in order, what was
delivered followed by what is readable is what was written, and every admissible
operation stays inside the storage and acts as its queue action. -/
theorem buffers_refine_fifo {tr : List (Buffers ι × BufferOp ι)} {s : Buffers ι}
    (hrun : Run (bufferSystem ι) tr s) :
    (∀ i, (s.buffers i).readIndex ≤ (s.buffers i).writeIndex ∧
      (s.buffers i).writeIndex ≤ (s.buffers i).buffer.length) ∧
    (∀ i, (s.history i).pulled ++ (s.buffers i).readable = (s.history i).pushed) ∧
    ∀ op : BufferOp ι, op.Admissible s.buffers → Refines s.buffers op := by
  have hs := conserved_run hrun
  refine ⟨?_, hs.balanced, ?_⟩
  · intro i
    exact ⟨(hs.wellFormed i).read_le_write, (hs.wellFormed i).write_le_size⟩
  · intro op hadmissible
    exact perform_refines hs.wellFormed hadmissible

/-- Three bytes written to a buffer of two, of which two are read. -/
theorem buffers_refine_fifo_grown :
    ∃ tr s, Run (bufferSystem Unit) tr s ∧ tr.length = 2 ∧
      (s.history ()).pulled ++ (s.buffers ()).readable = [1, 2, 3] := by
  have hstart : Run (bufferSystem Unit) [] ⟨fun _ => .create 2, fun _ => .empty⟩ :=
    .start ⟨fun _ => ⟨2, rfl⟩, fun _ => rfl⟩
  have hwrite : (bufferSystem Unit).step ⟨fun _ => .create 2, fun _ => .empty⟩
      (.write () [1, 2, 3]) ⟨fun _ => ⟨0, 3, [1, 2, 3]⟩, fun _ => ⟨[1, 2, 3], []⟩⟩ :=
    ⟨trivial, [], rfl, rfl⟩
  have hread : (bufferSystem Unit).step ⟨fun _ => ⟨0, 3, [1, 2, 3]⟩, fun _ => ⟨[1, 2, 3], []⟩⟩
      (.read () 2) ⟨fun _ => ⟨2, 3, [1, 2, 3]⟩, fun _ => ⟨[1, 2, 3], [1, 2]⟩⟩ :=
    ⟨(by decide : 2 ≤ 3), [1, 2], rfl, rfl⟩
  have hrun := (hstart.snoc hwrite).snoc hread
  exact ⟨_, _, hrun, rfl, (buffers_refine_fifo hrun).2.1 ()⟩

end GameDemoLearn.Net
