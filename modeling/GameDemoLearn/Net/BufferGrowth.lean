import GameDemoLearn.Lib.Transition
import GameDemoLearn.Net.Buffer

/-!
The storage of a `MessageBuffer` that a stream of bytes goes through (`Buffer.h`). `MakeSpace`
has a branch that moves the readable bytes to the front, but it repeats the test by which
`EnsureWritableBytes` calls it, so a write never gets there: what was read stays in front of
the write index until the buffer is empty once.
-/

namespace GameDemoLearn.Net

open Transition

/-- The calls by which a stream goes through a buffer. The overloads of `Write` for text and
for untyped memory call the one for bytes. -/
inductive StreamCall
  | write (data : Bytes)
  | writePod (object : Bytes)
  | read (len : Nat)
  | readPod (size : Nat)
  | readAsString (len : Nat)
  | readDone (len : Nat)

namespace StreamCall

/-- The buffer after a call. Only `Read` of a length looks at how much there is. -/
def perform (b : MessageBuffer) : StreamCall → Option MessageBuffer
  | .write data => b.write data
  | .writePod object => b.writePod object
  | .read len => (b.read len).map Prod.fst
  | .readPod size => if size ≤ b.readableBytes then (b.readPod size).map Prod.fst else none
  | .readAsString len =>
      if len ≤ b.readableBytes then (b.readAsString len).map Prod.fst else none
  | .readDone len => if len ≤ b.readableBytes then some (b.readDone len) else none

/-- The number of bytes that the call writes. -/
def written : StreamCall → Nat
  | .write data => data.length
  | .writePod object => object.length
  | _ => 0

/-- Where a write does not fit behind the write index, the bytes in front of it, read or not,
are few enough to stay. -/
def LeavesRoom (bound : Nat) (b : MessageBuffer) (call : StreamCall) : Prop :=
  b.writableBytes < call.written → b.readIndex ≠ 0 →
    b.readIndex + b.readableBytes + call.written ≤ bound

end StreamCall

def streamSystem (initialSize : Nat) : System MessageBuffer StreamCall :=
  .ofStep (fun b => b = .create initialSize) StreamCall.perform

namespace MessageBuffer

variable {b b' : MessageBuffer}

/-- A write never moves the readable bytes to the front. -/
theorem ensureWritableBytes_eq (b : MessageBuffer) (len : Nat) :
    b.ensureWritableBytes len = some (if b.writableBytes < len then
      { b with buffer := b.buffer.resize (b.writeIndex + len) } else b) := by
  unfold ensureWritableBytes makeSpace
  split <;> rfl

/-- The size of the storage behind a write of `len` bytes. -/
def sizeAfter (b : MessageBuffer) (len : Nat) : Nat :=
  if b.writableBytes < len then b.writeIndex + len else b.buffer.length

theorem sizeAfter_zero (b : MessageBuffer) : b.sizeAfter 0 = b.buffer.length :=
  if_neg (Nat.not_lt_zero _)

/-- A write moves the write index, and the storage ends there if it had to grow. -/
theorem write_eq {data : Bytes} (hwrite : b.write data = some b') :
    b'.readIndex = b.readIndex ∧ b'.writeIndex = b.writeIndex + data.length ∧
      b'.buffer.length = b.sizeAfter data.length := by
  rw [write, ensureWritableBytes_eq, Option.bind_some] at hwrite
  obtain ⟨copied, hcopy, rfl⟩ := Option.map_eq_some_iff.mp hwrite
  obtain ⟨buffer, hstore, rfl⟩ := Option.map_eq_some_iff.mp hcopy
  have hlength := Bytes.length_store hstore
  simp only [writeDone, sizeAfter]
  split at hlength
  · next hshort =>
      rw [if_pos hshort, if_pos hshort, hlength, Bytes.length_resize]
      exact ⟨rfl, rfl, rfl⟩
  · next hroom =>
      rw [if_neg hroom, if_neg hroom, hlength]
      exact ⟨rfl, rfl, rfl⟩

theorem length_consumeBytes (b : MessageBuffer) (len : Nat) :
    (b.consumeBytes len).buffer.length = b.buffer.length := by
  unfold consumeBytes
  split <;> rfl

theorem eq_consumeBytes {len : Nat} (hread : (b.readAsString len).map Prod.fst = some b') :
    b' = b.consumeBytes len := by
  obtain ⟨pair, hpair, rfl⟩ := Option.map_eq_some_iff.mp hread
  obtain ⟨data, -, rfl⟩ := Option.map_eq_some_iff.mp hpair
  rfl

namespace WellFormed

/-- Every call keeps the indices in order, and only a write that does not fit changes the
size. -/
theorem perform (hb : b.WellFormed) {call : StreamCall} (hcall : call.perform b = some b') :
    b'.WellFormed ∧ b'.buffer.length = b.sizeAfter call.written := by
  have hwritten : ∀ {data : Bytes}, b.write data = some b' →
      b'.WellFormed ∧ b'.buffer.length = b.sizeAfter data.length := by
    intro data hwrite
    obtain ⟨written, hwritten, hwell, -⟩ := hb.write data
    obtain rfl : b' = written := Option.some.inj (hwrite.symm.trans hwritten)
    exact ⟨hwell, (write_eq hwrite).2.2⟩
  have hconsumed : ∀ {len : Nat}, len ≤ b.readableBytes →
      (b.readAsString len).map Prod.fst = some b' →
        b'.WellFormed ∧ b'.buffer.length = b.sizeAfter 0 := by
    intro len hlen hread
    rw [eq_consumeBytes hread, length_consumeBytes, sizeAfter_zero]
    exact ⟨(hb.consumeBytes hlen).1, rfl⟩
  cases call with
  | write data => exact hwritten hcall
  | writePod object => exact hwritten hcall
  | read len => exact hconsumed (Nat.min_le_right len _) hcall
  | readPod size =>
      simp only [StreamCall.perform] at hcall
      split at hcall
      · next hlen => exact hconsumed hlen hcall
      · cases hcall
  | readAsString len =>
      simp only [StreamCall.perform] at hcall
      split at hcall
      · next hlen => exact hconsumed hlen hcall
      · cases hcall
  | readDone len =>
      simp only [StreamCall.perform] at hcall
      split at hcall
      · next hlen =>
          obtain rfl := Option.some.inj hcall
          exact ⟨(hb.readDone hlen).1, b.sizeAfter_zero.symm⟩
      · cases hcall

end WellFormed

end MessageBuffer

section Stream

variable {initialSize bound L M : Nat} {tr : List (MessageBuffer × StreamCall)} {b : MessageBuffer}

theorem wellFormed_steps (hrun : Run (streamSystem initialSize) tr b) :
    ∀ p ∈ tr, p.1.WellFormed := by
  apply hrun.guarded_steps MessageBuffer.WellFormed fun _ _ => True
  · rintro b rfl
    exact MessageBuffer.wellFormed_create initialSize
  · intro b call b' hb _ hcall
    exact (hb.perform hcall).1
  · exact fun _ _ => trivial

/-- The storage stays within a bound if and only if every write that does not fit behind the
write index ends within it. -/
theorem storage_le_iff (hsize : initialSize ≤ bound)
    (hrun : Run (streamSystem initialSize) tr b) :
    (∀ x ∈ visited tr b, x.buffer.length ≤ bound) ↔
      ∀ p ∈ tr, p.1.writableBytes < p.2.written → p.1.writeIndex + p.2.written ≤ bound := by
  apply Run.exact (fun x => x.WellFormed ∧ x.buffer.length ≤ bound)
    (fun x => x.buffer.length ≤ bound)
    (fun x call => x.writableBytes < call.written → x.writeIndex + call.written ≤ bound)
    _ _ _ _ hrun
  · rintro x rfl
    refine ⟨MessageBuffer.wellFormed_create initialSize, ?_⟩
    rw [MessageBuffer.create, List.length_replicate]
    exact hsize
  · exact fun x hx => hx.2
  · rintro x call x' ⟨hx, hle⟩ hfits hcall
    obtain ⟨hwell, hlength⟩ := hx.perform hcall
    refine ⟨hwell, ?_⟩
    rw [hlength, MessageBuffer.sizeAfter]
    split
    · next hshort => exact hfits hshort
    · exact hle
  · rintro x call x' ⟨hx, hle⟩ hfits hcall
    obtain ⟨hshort, hlarge⟩ := Classical.not_imp.mp hfits
    rw [(hx.perform hcall).2, MessageBuffer.sizeAfter, if_pos hshort]
    exact hlarge

/-- Where writes are at most `L` bytes long and at most `M` bytes wait to be read, the storage
stays within the initial size and `M + L` if and only if every write that does not fit behind
the write index finds nothing that was read in front of it, or little enough. -/
theorem storage_le_iff_leavesRoom (hrun : Run (streamSystem initialSize) tr b)
    (hwrites : ∀ p ∈ tr, p.2.written ≤ L)
    (hreadable : ∀ x ∈ visited tr b, x.readableBytes ≤ M) :
    (∀ x ∈ visited tr b, x.buffer.length ≤ max initialSize (M + L)) ↔
      ∀ p ∈ tr, p.2.LeavesRoom (max initialSize (M + L)) p.1 := by
  have hwell := wellFormed_steps hrun
  rw [storage_le_iff (Nat.le_max_left _ _) hrun]
  refine forall₂_congr fun p hp => ?_
  have horder := (hwell p hp).read_le_write
  have hfew : p.1.readableBytes ≤ M :=
    hreadable p.1 (List.mem_append_left _ (List.mem_map_of_mem hp))
  have hshort := hwrites p hp
  unfold StreamCall.LeavesRoom
  simp only [MessageBuffer.readableBytes] at hfew ⊢
  constructor
  · intro hends hgrows hread
    have := hends hgrows
    omega
  · intro hroom hgrows
    have := hroom hgrows
    omega

theorem run_of_streamCalls {calls : List StreamCall}
    (hexec : exec StreamCall.perform (.create initialSize) calls = some (tr, b)) :
    Run (streamSystem initialSize) tr b := by
  have hinit : (streamSystem initialSize).init (.create initialSize) := rfl
  exact run_of_exec hinit hexec

end Stream

/-- Five bytes go through a buffer that is empty once in between. -/
theorem storage_le_iff_leavesRoom_drained :
    ∃ tr b, Run (streamSystem 2) tr b ∧ tr.length = 5 ∧
      ((∀ x ∈ visited tr b, x.buffer.length ≤ max 2 (3 + 2)) ↔
        ∀ p ∈ tr, p.2.LeavesRoom (max 2 (3 + 2)) p.1) := by
  have hexec : exec StreamCall.perform (.create 2)
      [.write [1], .read 1, .write [2, 3], .readDone 1, .write [4, 5]] = some _ := rfl
  have hrun := run_of_streamCalls hexec
  exact ⟨_, _, hrun, rfl, storage_le_iff_leavesRoom hrun (by decide) (by decide)⟩

/-- A stream that is never read to its end: every byte that is written makes the storage grow,
with two bytes at most to be read. -/
theorem storage_unbounded (n : Nat) :
    ∃ tr b, Run (streamSystem 0) tr b ∧ (∀ p ∈ tr, p.2.written ≤ 1) ∧
      (∀ x ∈ visited tr b, x.readableBytes ≤ 2) ∧
        b.readIndex = n ∧ b.writeIndex = n + 2 ∧ b.buffer.length = n + 2 := by
  induction n with
  | zero =>
      have hexec : exec StreamCall.perform (.create 0) [.write [0], .write [0]] = some _ := rfl
      exact ⟨_, _, run_of_streamCalls hexec, by decide, by decide, rfl, rfl, rfl⟩
  | succ n ih =>
      obtain ⟨tr, b, hrun, hwrites, hreadable, hread, hwrite, hlength⟩ := ih
      have hb : b.WellFormed := ⟨by omega, by omega⟩
      have htwo : b.readableBytes = 2 := by
        rw [MessageBuffer.readableBytes]
        omega
      have hreadDone : StreamCall.perform b (.readDone 1) = some (b.readDone 1) := by
        rw [StreamCall.perform, if_pos (by omega)]
      have hone : (b.readDone 1).readableBytes = 1 := by
        simp only [MessageBuffer.readDone, MessageBuffer.readableBytes]
        omega
      obtain ⟨b', hwritten, -, -⟩ := (hb.perform hreadDone).1.write [0]
      have hstep : (streamSystem 0).step (b.readDone 1) (.write [0]) b' := hwritten
      obtain ⟨hread', hwrite', hlength'⟩ := MessageBuffer.write_eq hwritten
      have hfull : (b.readDone 1).writableBytes < 1 := by
        simp only [MessageBuffer.readDone, MessageBuffer.writableBytes]
        omega
      rw [List.length_singleton, MessageBuffer.sizeAfter, if_pos hfull] at hlength'
      simp only [MessageBuffer.readDone, List.length_singleton] at hread' hwrite' hlength'
      refine ⟨_, b', (hrun.snoc hreadDone).snoc hstep, ?_, ?_, ?_, ?_, ?_⟩
      · simp only [List.forall_mem_append, List.forall_mem_singleton, StreamCall.written]
        exact ⟨⟨hwrites, Nat.zero_le 1⟩, Nat.le_refl 1⟩
      · rw [forall_visited_snoc, forall_visited_snoc]
        refine ⟨⟨hreadable, by omega⟩, ?_⟩
        rw [MessageBuffer.readableBytes]
        omega
      · omega
      · omega
      · omega

/-- A byte written and a byte read in turns. -/
theorem storage_exceeds :
    ¬ ∀ (initialSize L M : Nat) (tr : List (MessageBuffer × StreamCall)) (b : MessageBuffer),
      Run (streamSystem initialSize) tr b → (∀ p ∈ tr, p.2.written ≤ L) →
        (∀ x ∈ visited tr b, x.readableBytes ≤ M) →
          ∀ x ∈ visited tr b, x.buffer.length ≤ max initialSize (M + L) := by
  intro hbound
  have hexec : exec StreamCall.perform (.create 0)
      [.write [1], .write [2], .read 1, .write [3], .read 1, .write [4]]
        = some (_, ⟨2, 4, [1, 2, 3, 4]⟩) := rfl
  have hlength := hbound 0 1 2 _ _ (run_of_streamCalls hexec) (by decide) (by decide)
    ⟨2, 4, [1, 2, 3, 4]⟩ (List.mem_append_right _ (List.mem_singleton_self _))
  exact absurd hlength (by decide)

end GameDemoLearn.Net
