import GameDemoLearn.Net.BufferFifo
import GameDemoLearn.Net.BufferGrowth

/-!
`MessageBuffer` with the `size_t` that `Buffer.h` computes with: sums and differences are
modulo `2 ^ 64`, and a vector that has to grow may be refused the memory and throw. Where no
sum wraps around, the code does what it does with natural numbers.
-/

namespace GameDemoLearn.Net

open Transition

namespace SizeT

def add (m n : Nat) : Nat := (m + n) % 2 ^ 64

def sub (m n : Nat) : Nat := (m + 2 ^ 64 - n) % 2 ^ 64

def mul (m n : Nat) : Nat := m * n % 2 ^ 64

theorem add_of_lt {m n : Nat} (h : m + n < 2 ^ 64) : add m n = m + n := Nat.mod_eq_of_lt h

theorem sub_of_le {m n : Nat} (hle : n ≤ m) (hm : m < 2 ^ 64) : sub m n = m - n := by
  unfold sub
  omega

end SizeT

namespace MessageBuffer

/-- How a call ends, and the buffer it leaves. -/
structure Ended where
  threw : Bool
  buffer : MessageBuffer
  deriving DecidableEq

namespace Sized

def readableBytes (b : MessageBuffer) : Nat := SizeT.sub b.writeIndex b.readIndex

def writableBytes (b : MessageBuffer) : Nat := SizeT.sub b.buffer.length b.writeIndex

def readDone (b : MessageBuffer) (len : Nat) : MessageBuffer :=
  { b with readIndex := SizeT.add b.readIndex len }

def writeDone (b : MessageBuffer) (len : Nat) : MessageBuffer :=
  { b with writeIndex := SizeT.add b.writeIndex len }

def consumeBytes (b : MessageBuffer) (len : Nat) : MessageBuffer :=
  if len < readableBytes b then readDone b len else b.resetBuffer

/-- `_buffer.resize(size)`. A vector that does not grow asks for no memory. -/
def resize (granted : Bool) (b : MessageBuffer) (size : Nat) : Ended :=
  if size ≤ b.buffer.length ∨ granted = true then
    ⟨false, { b with buffer := b.buffer.resize size }⟩
  else
    ⟨true, b⟩

def makeSpace (granted : Bool) (b : MessageBuffer) (len : Nat) : Option Ended :=
  if writableBytes b < len then
    some (resize granted b (SizeT.add b.writeIndex len))
  else
    let readableBytes := readableBytes b
    (b.copyFromReadPointer readableBytes).bind fun bytes =>
      (b.buffer.store 0 bytes).map fun buffer => ⟨false, ⟨0, readableBytes, buffer⟩⟩

def ensureWritableBytes (granted : Bool) (b : MessageBuffer) (len : Nat) : Option Ended :=
  if writableBytes b < len then makeSpace granted b len else some ⟨false, b⟩

def ensureFreeSpace (granted : Bool) (b : MessageBuffer) : Option Ended :=
  makeSpace granted b (SizeT.mul b.buffer.length 3 / 2)

/-- All overloads of `Write`. -/
def write (granted : Bool) (b : MessageBuffer) (data : Bytes) : Option Ended :=
  (ensureWritableBytes granted b data.length).bind fun ended =>
    if ended.threw then
      some ended
    else
      (ended.buffer.copyToWritPointer data).map fun b => ⟨false, writeDone b data.length⟩

/-- `ReadAsString`, and `Read<PODType>` for a type of `len` bytes. -/
def readAsString (b : MessageBuffer) (len : Nat) : Option (MessageBuffer × Bytes) :=
  (b.copyFromReadPointer len).map fun result => (consumeBytes b len, result)

def read (b : MessageBuffer) (len : Nat) : Option (MessageBuffer × Bytes) :=
  readAsString b (min len (readableBytes b))

/-- `Shrink`, with the answers to its requests for memory in turn. Where one is refused, the
new buffer is gone before the two were swapped. -/
def shrink (granted : Nat → Bool) (b : MessageBuffer) (reserve : Nat) : Option Ended :=
  if granted 0 = true then
    (ensureWritableBytes (granted 1) (create INITIAL_BUFFER_SIZE)
      (SizeT.add (readableBytes b) reserve)).bind fun other =>
        if other.threw then
          some ⟨true, b⟩
        else
          (b.copyFromReadPointer (readableBytes b)).bind fun data =>
            (write (granted 2) other.buffer data).map fun other =>
              if other.threw then ⟨true, b⟩ else other
  else
    some ⟨true, b⟩

end Sized

/-- The sum that `MakeSpace` forms is a `size_t`, where it is formed. -/
def FitsSizeT (b : MessageBuffer) (len : Nat) : Prop :=
  b.writableBytes < len → b.writeIndex + len < 2 ^ 64

/-- The invariant: the indices are in order, and the size is a `size_t`. -/
structure SizedWell (b : MessageBuffer) : Prop where
  wellFormed : b.WellFormed
  size_lt : b.buffer.length < 2 ^ 64

/-- What `EnsureWritableBytes` is to do: to throw and leave the buffer as it was, or to return
with the room and with the same bytes to be read. -/
def Ensures (b : MessageBuffer) (len : Nat) (ended : Ended) : Prop :=
  if ended.threw then
    ended.buffer = b
  else
    len ≤ Sized.writableBytes ended.buffer ∧ ended.buffer.WellFormed ∧
      ended.buffer.readable = b.readable

section Exact

variable {b b' : MessageBuffer} {len : Nat} {granted : Bool}

theorem SizedWell.readableBytes (hb : b.SizedWell) : Sized.readableBytes b = b.readableBytes := by
  have hsize := hb.wellFormed.write_le_size
  have hlt := hb.size_lt
  exact SizeT.sub_of_le hb.wellFormed.read_le_write (by omega)

theorem SizedWell.writableBytes (hb : b.SizedWell) : Sized.writableBytes b = b.writableBytes :=
  SizeT.sub_of_le hb.wellFormed.write_le_size hb.size_lt

theorem SizedWell.readDone (hb : b.SizedWell) (hlen : len ≤ b.readableBytes) :
    Sized.readDone b len = b.readDone len := by
  have horder := hb.wellFormed.read_le_write
  have hsize := hb.wellFormed.write_le_size
  have hlt := hb.size_lt
  simp only [MessageBuffer.readableBytes] at hlen
  rw [Sized.readDone, SizeT.add_of_lt (by omega)]
  rfl

theorem SizedWell.consumeBytes (hb : b.SizedWell) (hlen : len ≤ b.readableBytes) :
    Sized.consumeBytes b len = b.consumeBytes len := by
  rw [Sized.consumeBytes, hb.readableBytes, hb.readDone hlen]
  rfl

theorem length_makeSpace (hspace : b.makeSpace len = some b') :
    b'.buffer.length = b.sizeAfter len := by
  unfold makeSpace at hspace
  unfold sizeAfter
  split at hspace
  · next hshort =>
      rw [if_pos hshort, ← Option.some.inj hspace]
      exact Bytes.length_resize _ _
  · next hroom =>
      obtain ⟨bytes, -, hcopied⟩ := Option.bind_eq_some_iff.mp hspace
      obtain ⟨buffer, hstore, rfl⟩ := Option.map_eq_some_iff.mp hcopied
      rw [if_neg hroom]
      exact Bytes.length_store hstore

theorem length_ensureWritableBytes (hensure : b.ensureWritableBytes len = some b') :
    b'.buffer.length = b.sizeAfter len := by
  unfold ensureWritableBytes at hensure
  split at hensure
  · exact length_makeSpace hensure
  · next hroom =>
      rw [sizeAfter, if_neg hroom, Option.some.inj hensure]

/-- The new size is a `size_t` if the sum was one. -/
theorem SizedWell.sizeAfter_lt (hb : b.SizedWell) (hfits : b.FitsSizeT len) :
    b.sizeAfter len < 2 ^ 64 := by
  unfold sizeAfter
  split
  · next hshort => exact hfits hshort
  · exact hb.size_lt

/-- Where nothing wraps around, `MakeSpace` is the one of natural numbers, unless it throws. -/
theorem SizedWell.makeSpace_eq (hb : b.SizedWell) (hfits : b.FitsSizeT len) :
    Sized.makeSpace granted b len
      = if b.writableBytes < len ∧ granted = false then some ⟨true, b⟩
        else (b.makeSpace len).map (Ended.mk false) := by
  rw [Sized.makeSpace, hb.writableBytes, hb.readableBytes, MessageBuffer.makeSpace]
  by_cases hshort : b.writableBytes < len
  · have hgrows : ¬ b.writeIndex + len ≤ b.buffer.length := by
      have hsize := hb.wellFormed.write_le_size
      simp only [MessageBuffer.writableBytes] at hshort
      omega
    rw [if_pos hshort, if_pos hshort, SizeT.add_of_lt (hfits hshort), Sized.resize]
    cases granted with
    | true =>
        rw [if_pos (.inr rfl), if_neg (fun h => Bool.noConfusion h.2)]
        rfl
    | false =>
        rw [if_neg (by simpa using hgrows), if_pos ⟨hshort, rfl⟩]
  · rw [if_neg hshort, if_neg hshort, if_neg fun h => hshort h.1]
    dsimp only
    cases b.copyFromReadPointer b.readableBytes with
    | none => rfl
    | some bytes =>
        rw [Option.bind_some, Option.bind_some, Option.map_map]
        rfl

theorem SizedWell.makeSpace (hb : b.SizedWell) (granted : Bool) (hfits : b.FitsSizeT len) :
    ∃ ended, Sized.makeSpace granted b len = some ended ∧ ended.buffer.SizedWell := by
  obtain ⟨b', hspace, hwell, -⟩ := hb.wellFormed.makeSpace len
  rw [hb.makeSpace_eq hfits]
  split
  · exact ⟨_, rfl, hb⟩
  · rw [hspace]
    refine ⟨_, rfl, hwell, ?_⟩
    rw [length_makeSpace hspace]
    exact hb.sizeAfter_lt hfits

theorem SizedWell.ensureWritableBytes_eq (hb : b.SizedWell) (hfits : b.FitsSizeT len) :
    Sized.ensureWritableBytes granted b len
      = if b.writableBytes < len ∧ granted = false then some ⟨true, b⟩
        else (b.ensureWritableBytes len).map (Ended.mk false) := by
  rw [Sized.ensureWritableBytes, MessageBuffer.ensureWritableBytes, hb.writableBytes]
  split
  · rw [hb.makeSpace_eq hfits]
  · next hroom =>
      rw [if_neg fun h => hroom h.1]
      rfl

theorem SizedWell.ensureWritableBytes (hb : b.SizedWell) (granted : Bool)
    (hfits : b.FitsSizeT len) :
    ∃ ended, Sized.ensureWritableBytes granted b len = some ended ∧ ended.buffer.SizedWell ∧
      ended.buffer.writeIndex = b.writeIndex := by
  rw [hb.ensureWritableBytes_eq hfits]
  split
  · exact ⟨_, rfl, hb, rfl⟩
  · obtain ⟨b', hensure, hwell, -⟩ := hb.wellFormed.ensureWritableBytes len
    have hlength := length_ensureWritableBytes hensure
    rw [hensure]
    refine ⟨_, rfl, ⟨hwell, ?_⟩, ?_⟩
    · rw [hlength]
      exact hb.sizeAfter_lt hfits
    · rw [MessageBuffer.ensureWritableBytes_eq] at hensure
      cases hensure
      split <;> rfl

theorem SizedWell.write_eq (hb : b.SizedWell) {data : Bytes} (hfits : b.FitsSizeT data.length) :
    Sized.write granted b data
      = if b.writableBytes < data.length ∧ granted = false then some ⟨true, b⟩
        else (b.write data).map (Ended.mk false) := by
  rw [Sized.write, hb.ensureWritableBytes_eq hfits]
  split
  · rfl
  · obtain ⟨b', hwrite, hwell, -⟩ := hb.wellFormed.write data
    have hindex := (MessageBuffer.write_eq hwrite).2
    have hlt : b'.buffer.length < 2 ^ 64 := by
      rw [hindex.2]
      exact hb.sizeAfter_lt hfits
    rw [hwrite]
    rw [MessageBuffer.write] at hwrite
    obtain ⟨roomy, hensure, hcopy⟩ := Option.bind_eq_some_iff.mp hwrite
    obtain ⟨copied, hcopied, rfl⟩ := Option.map_eq_some_iff.mp hcopy
    have hsum : copied.writeIndex + data.length < 2 ^ 64 := by
      have hsize := hwell.write_le_size
      exact Nat.lt_of_le_of_lt hsize hlt
    rw [hensure, Option.map_some, Option.bind_some]
    dsimp only
    rw [if_neg Bool.false_ne_true, hcopied, Option.map_some, Sized.writeDone,
      SizeT.add_of_lt hsum]
    rfl

theorem SizedWell.write (hb : b.SizedWell) (granted : Bool) {data : Bytes}
    (hfits : b.FitsSizeT data.length) :
    ∃ ended, Sized.write granted b data = some ended ∧ ended.buffer.SizedWell := by
  obtain ⟨b', hwrite, hwell, -⟩ := hb.wellFormed.write data
  rw [hb.write_eq hfits]
  split
  · exact ⟨_, rfl, hb⟩
  · rw [hwrite]
    refine ⟨_, rfl, hwell, ?_⟩
    rw [(MessageBuffer.write_eq hwrite).2.2]
    exact hb.sizeAfter_lt hfits

/-- Bytes that the caller puts behind the write index itself. -/
theorem SizedWell.fill (hb : b.SizedWell) {data : Bytes} (hdata : data.length ≤ b.writableBytes)
    (hlen : len ≤ data.length) :
    ∃ b', b.copyToWritPointer data = some b' ∧ (Sized.writeDone b' len).SizedWell := by
  obtain ⟨b', hcopy, hwell, -⟩ := hb.wellFormed.copyToWritPointer hdata hlen
  obtain ⟨buffer, hstore, rfl⟩ := Option.map_eq_some_iff.mp hcopy
  have hlt : buffer.length < 2 ^ 64 := by
    rw [Bytes.length_store hstore]
    exact hb.size_lt
  have hindex : b.writeIndex + len ≤ buffer.length := hwell.write_le_size
  refine ⟨_, hcopy, ?_⟩
  rw [Sized.writeDone, SizeT.add_of_lt (Nat.lt_of_le_of_lt hindex hlt)]
  exact ⟨hwell, hlt⟩

theorem SizedWell.readAsString (hb : b.SizedWell) (hlen : len ≤ b.readableBytes) :
    ∃ b' data, Sized.readAsString b len = some (b', data) ∧ b'.SizedWell := by
  rw [Sized.readAsString, hb.wellFormed.copyFromReadPointer hlen, hb.consumeBytes hlen]
  refine ⟨_, _, rfl, (hb.wellFormed.consumeBytes hlen).1, ?_⟩
  rw [length_consumeBytes]
  exact hb.size_lt

theorem sizedWell_create {n : Nat} (hn : n < 2 ^ 64) : (create n).SizedWell := by
  refine ⟨wellFormed_create n, ?_⟩
  rw [create, List.length_replicate]
  exact hn

theorem sizedWell_movedFrom : movedFrom.SizedWell := ⟨wellFormed_movedFrom, by decide⟩

/-- A buffer that was not written to has a write index of zero, so nothing wraps around. -/
theorem fitsSizeT_of_writeIndex (hindex : b.writeIndex = 0) (hlen : len < 2 ^ 64) :
    b.FitsSizeT len := by
  intro _
  rw [hindex, Nat.zero_add]
  exact hlen

theorem SizedWell.shrink (hb : b.SizedWell) (granted : Nat → Bool) (reserve : Nat) :
    ∃ ended, Sized.shrink granted b reserve = some ended ∧ ended.buffer.SizedWell := by
  have hfresh : (create INITIAL_BUFFER_SIZE).SizedWell := sizedWell_create (by decide)
  have hwanted : (create INITIAL_BUFFER_SIZE).FitsSizeT
      (SizeT.add (Sized.readableBytes b) reserve) :=
    fitsSizeT_of_writeIndex rfl (Nat.mod_lt _ (by decide))
  unfold Sized.shrink
  split
  · obtain ⟨other, hensure, hother, hindex⟩ :=
      hfresh.ensureWritableBytes (granted 1) hwanted
    have hload := hb.wellFormed.copyFromReadPointer (Nat.le_refl b.readableBytes)
    rw [hensure, Option.bind_some, hb.readableBytes, hload, Option.bind_some]
    split
    · exact ⟨_, rfl, hb⟩
    · have hdata : (b.readable.take b.readableBytes).length < 2 ^ 64 := by
        have hsize := hb.wellFormed.write_le_size
        have hlt := hb.size_lt
        rw [List.length_take, hb.wellFormed.length_readable, MessageBuffer.readableBytes]
        omega
      obtain ⟨written, hwrite, hwritten⟩ :=
        hother.write (granted 2) (fitsSizeT_of_writeIndex hindex hdata)
      rw [hwrite, Option.map_some]
      refine ⟨_, rfl, ?_⟩
      split
      · exact hb
      · exact hwritten
  · exact ⟨_, rfl, hb⟩

/-- One call of `EnsureWritableBytes` does what it is to do if and only if its sum does not
wrap around: a sum that does makes the vector shorter than the write index. -/
theorem SizedWell.ensures_iff (hb : b.SizedWell) (hlen : len < 2 ^ 64) :
    (∃ ended, Sized.ensureWritableBytes granted b len = some ended ∧ b.Ensures len ended)
      ↔ b.FitsSizeT len := by
  constructor
  · rintro ⟨ended, hensure, hended⟩ hshort
    by_contra hwraps
    have hsize := hb.wellFormed.write_le_size
    have hlt := hb.size_lt
    have hsum : SizeT.add b.writeIndex len < b.writeIndex := by
      unfold SizeT.add
      omega
    rw [Sized.ensureWritableBytes, Sized.makeSpace, hb.writableBytes, if_pos hshort,
      if_pos hshort, Sized.resize, if_pos (.inl (by omega))] at hensure
    cases hensure
    have hcut := hended.2.1.write_le_size
    simp only [Bytes.length_resize] at hcut
    omega
  · intro hfits
    rw [hb.ensureWritableBytes_eq hfits]
    split
    · exact ⟨_, rfl, rfl⟩
    · obtain ⟨b', hensure, hwell, hsame, hroom⟩ := hb.wellFormed.ensureWritableBytes len
      have hb' : b'.SizedWell := by
        refine ⟨hwell, ?_⟩
        rw [length_ensureWritableBytes hensure]
        exact hb.sizeAfter_lt hfits
      rw [hensure]
      refine ⟨_, rfl, ?_, hwell, hsame⟩
      rw [hb'.writableBytes]
      exact hroom

end Exact

end MessageBuffer

variable {ι : Type} [DecidableEq ι]

namespace BufferOp

/-- The `size_t` that the operation is called with. -/
def size : BufferOp ι → Nat
  | .construct _ initialSize => initialSize
  | .write _ data | .writeVoid _ data | .writeString _ data | .writePod _ data
  | .streamIn _ data | .fill _ data _ => data.length
  | .ensureWritableBytes _ len | .shrink _ len | .read _ len | .readPod _ len
  | .streamOut _ len | .readAsString _ len | .readDone _ len => len
  | _ => 0

/-- The room that the operation makes in an object. -/
def wants (s : ι → MessageBuffer) : BufferOp ι → Option (ι × Nat)
  | .write i data | .writeVoid i data | .writeString i data | .writePod i data
  | .streamIn i data => some (i, data.length)
  | .ensureWritableBytes i len => some (i, len)
  | .ensureFreeSpace i => some (i, SizeT.mul (s i).buffer.length 3 / 2)
  | _ => none

/-- The buffers after an operation, `granted` being the answers to its requests for memory.
A constructor that throws leaves no new object. -/
def performSized (granted : Nat → Bool) (s : ι → MessageBuffer) :
    BufferOp ι → Option (ι → MessageBuffer)
  | .construct i initialSize =>
      some (if granted 0 then Function.update s i (.create initialSize) else s)
  | .write i data | .writeVoid i data | .writeString i data | .writePod i data
  | .streamIn i data => ended i (MessageBuffer.Sized.write (granted 0) (s i) data)
  | .fill i data len =>
      ((s i).copyToWritPointer data).map fun b =>
        Function.update s i (MessageBuffer.Sized.writeDone b len)
  | .ensureWritableBytes i len =>
      ended i (MessageBuffer.Sized.ensureWritableBytes (granted 0) (s i) len)
  | .ensureFreeSpace i => ended i (MessageBuffer.Sized.ensureFreeSpace (granted 0) (s i))
  | .shrink i reserve => ended i (MessageBuffer.Sized.shrink granted (s i) reserve)
  | .read i len => delivered i (MessageBuffer.Sized.read (s i) len)
  | .readPod i len | .streamOut i len | .readAsString i len =>
      delivered i (MessageBuffer.Sized.readAsString (s i) len)
  | .readAllAsString i =>
      delivered i (MessageBuffer.Sized.readAsString (s i) (MessageBuffer.Sized.readableBytes (s i)))
  | .readDone i len => some (Function.update s i (MessageBuffer.Sized.readDone (s i) len))
  | .copyConstruct dst src | .copyAssign dst src =>
      some (if granted 0 then Function.update s dst (s src) else s)
  | .moveConstruct dst src => some (Function.update (Function.update s src .movedFrom) dst (s src))
  | .swap i j => some (Function.update (Function.update s j (s i)) i (s j))
where
  ended (i : ι) (e : Option MessageBuffer.Ended) : Option (ι → MessageBuffer) :=
    e.map fun e => Function.update s i e.buffer
  delivered (i : ι) (out : Option (MessageBuffer × Bytes)) : Option (ι → MessageBuffer) :=
    out.map fun out => Function.update s i out.1

/-- The sum that the operation forms does not wrap around. -/
def NoWrap (s : ι → MessageBuffer) (op : BufferOp ι) : Prop :=
  ∀ i len, op.wants s = some (i, len) → (s i).FitsSizeT len

end BufferOp

/-- The operations on buffers of any sizes, with any answers of the allocator. -/
def sizedSystem (ι : Type) [DecidableEq ι] :
    System (ι → MessageBuffer) (BufferOp ι × (Nat → Bool)) where
  init s := ∀ i, ∃ initialSize < 2 ^ 64, s i = .create initialSize
  step s call s' := call.1.Admissible s ∧ call.1.size < 2 ^ 64 ∧
    call.1.performSized call.2 s = some s'

theorem sizedWell_update {s : ι → MessageBuffer} (hs : ∀ i, (s i).SizedWell) (i : ι)
    {b : MessageBuffer} (hb : b.SizedWell) : ∀ k, (Function.update s i b k).SizedWell := by
  intro k
  by_cases hk : k = i
  · rw [hk, Function.update_self]
    exact hb
  · rw [Function.update_of_ne hk]
    exact hs k

/-- An operation whose sum does not wrap around keeps the invariant of all objects. -/
theorem sizedWell_performSized {s s' : ι → MessageBuffer} (hs : ∀ i, (s i).SizedWell)
    {op : BufferOp ι} {granted : Nat → Bool} (hadmissible : op.Admissible s)
    (hsize : op.size < 2 ^ 64) (hwraps : op.NoWrap s)
    (hperform : op.performSized granted s = some s') : ∀ i, (s' i).SizedWell := by
  have hended : ∀ {i : ι} {e : Option MessageBuffer.Ended},
      (∃ ended, e = some ended ∧ ended.buffer.SizedWell) →
        BufferOp.performSized.ended s i e = some s' → ∀ k, (s' k).SizedWell := by
    rintro i _ ⟨ended, rfl, hwell⟩ heq
    cases heq
    exact sizedWell_update hs i hwell
  have hdelivered : ∀ {i : ι} {len : Nat}, len ≤ (s i).readableBytes →
      BufferOp.performSized.delivered s i (MessageBuffer.Sized.readAsString (s i) len) = some s' →
        ∀ k, (s' k).SizedWell := by
    intro i len hlen heq
    obtain ⟨b', data, hread, hwell⟩ := (hs i).readAsString hlen
    rw [hread] at heq
    cases heq
    exact sizedWell_update hs i hwell
  cases op with
  | construct i initialSize =>
      cases hperform
      split
      · exact sizedWell_update hs i (MessageBuffer.sizedWell_create hsize)
      · exact hs
  | write i data => exact hended ((hs i).write (granted 0) (hwraps i _ rfl)) hperform
  | writeVoid i data => exact hended ((hs i).write (granted 0) (hwraps i _ rfl)) hperform
  | writeString i str => exact hended ((hs i).write (granted 0) (hwraps i _ rfl)) hperform
  | writePod i object => exact hended ((hs i).write (granted 0) (hwraps i _ rfl)) hperform
  | streamIn i object => exact hended ((hs i).write (granted 0) (hwraps i _ rfl)) hperform
  | fill i data len =>
      obtain ⟨b', hcopy, hwell⟩ := (hs i).fill hadmissible.1 hadmissible.2
      rw [BufferOp.performSized, hcopy] at hperform
      cases hperform
      exact sizedWell_update hs i hwell
  | ensureWritableBytes i len =>
      obtain ⟨ended, hensure, hwell, -⟩ :=
        (hs i).ensureWritableBytes (granted 0) (hwraps i len rfl)
      exact hended ⟨ended, hensure, hwell⟩ hperform
  | ensureFreeSpace i => exact hended ((hs i).makeSpace (granted 0) (hwraps i _ rfl)) hperform
  | shrink i reserve => exact hended ((hs i).shrink granted reserve) hperform
  | read i len =>
      have hlen : min len (MessageBuffer.Sized.readableBytes (s i)) ≤ (s i).readableBytes :=
        (Nat.min_le_left _ _).trans hadmissible
      exact hdelivered hlen hperform
  | readPod i size => exact hdelivered hadmissible hperform
  | streamOut i size => exact hdelivered hadmissible hperform
  | readAsString i len => exact hdelivered hadmissible hperform
  | readAllAsString i => exact hdelivered (hs i).readableBytes.le hperform
  | readDone i len =>
      cases hperform
      rw [(hs i).readDone hadmissible]
      exact sizedWell_update hs i ⟨((hs i).wellFormed.readDone hadmissible).1, (hs i).size_lt⟩
  | copyConstruct dst src =>
      cases hperform
      split
      · exact sizedWell_update hs dst (hs src)
      · exact hs
  | copyAssign dst src =>
      cases hperform
      split
      · exact sizedWell_update hs dst (hs src)
      · exact hs
  | moveConstruct dst src =>
      cases hperform
      exact sizedWell_update (sizedWell_update hs src MessageBuffer.sizedWell_movedFrom) dst
        (hs src)
  | swap i j =>
      cases hperform
      exact sizedWell_update (sizedWell_update hs j (hs i)) i (hs j)

omit [DecidableEq ι] in
theorem sizedWell_constructed {s : ι → MessageBuffer}
    (hinit : ∀ i, ∃ initialSize < 2 ^ 64, s i = .create initialSize) : ∀ i, (s i).SizedWell := by
  intro i
  obtain ⟨initialSize, hlt, hi⟩ := hinit i
  rw [hi]
  exact MessageBuffer.sizedWell_create hlt

theorem sizedWell_run {tr : List ((ι → MessageBuffer) × (BufferOp ι × (Nat → Bool)))}
    {s : ι → MessageBuffer} (hrun : Run (sizedSystem ι) tr s)
    (hwraps : ∀ p ∈ tr, p.2.1.NoWrap p.1) : ∀ i, (s i).SizedWell := by
  apply hrun.guarded (fun s => ∀ i, (s i).SizedWell) (fun s call => call.1.NoWrap s) _ _ hwraps
  · exact fun s hinit => sizedWell_constructed hinit
  · rintro s ⟨op, granted⟩ s' hs hop ⟨hadmissible, hsize, hperform⟩
    exact sizedWell_performSized hs hadmissible hsize hop hperform

/-- In every state of every run in which no sum wrapped around so far, a call of
`EnsureWritableBytes` throws and leaves the buffer as it was, or returns with the room and the
same readable bytes, if and only if its own sum does not wrap around. -/
theorem ensureWritableBytes_iff_fits
    {tr : List ((ι → MessageBuffer) × (BufferOp ι × (Nat → Bool)))} {s : ι → MessageBuffer}
    (hrun : Run (sizedSystem ι) tr s) (hwraps : ∀ p ∈ tr, p.2.1.NoWrap p.1) (i : ι) {len : Nat}
    (hlen : len < 2 ^ 64) (granted : Bool) :
    (∃ ended, MessageBuffer.Sized.ensureWritableBytes granted (s i) len = some ended ∧
      (s i).Ensures len ended) ↔ (s i).FitsSizeT len :=
  (sizedWell_run hrun hwraps i).ensures_iff hlen

/-- A buffer with its one byte written. -/
theorem run_of_oneByte :
    Run (sizedSystem Unit) [(fun _ => .create 1, (.write () [7], fun _ => true))]
      (Function.update (fun _ => .create 1) () ⟨0, 1, [7]⟩) := by
  have hstart : Run (sizedSystem Unit) [] fun _ => .create 1 := .start fun _ => ⟨1, by decide, rfl⟩
  have hwrite : MessageBuffer.Sized.write true (.create 1) [7] = some ⟨false, ⟨0, 1, [7]⟩⟩ := by
    decide +kernel
  refine hstart.snoc ⟨trivial, by decide, ?_⟩
  rw [BufferOp.performSized, hwrite]
  rfl

theorem ensureWritableBytes_iff_fits_refused :
    (∃ ended, MessageBuffer.Sized.ensureWritableBytes false ⟨0, 1, [7]⟩ 5 = some ended ∧
      MessageBuffer.Ensures ⟨0, 1, [7]⟩ 5 ended) ↔ MessageBuffer.FitsSizeT ⟨0, 1, [7]⟩ 5 := by
  refine ensureWritableBytes_iff_fits run_of_oneByte ?_ () (by decide) false
  rw [List.forall_mem_singleton]
  rintro i len hwants -
  cases hwants
  decide

/-- One byte is written, and room for `SIZE_MAX` bytes more leaves a vector of no bytes. -/
theorem ensureWritableBytes_wraps :
    ¬ ∀ (tr : List ((Unit → MessageBuffer) × (BufferOp Unit × (Nat → Bool))))
      (s : Unit → MessageBuffer), Run (sizedSystem Unit) tr s →
        ∀ i len granted, len < 2 ^ 64 →
          ∃ ended, MessageBuffer.Sized.ensureWritableBytes granted (s i) len = some ended ∧
            (s i).Ensures len ended := by
  intro hensures
  obtain ⟨ended, hended, hspec⟩ :=
    hensures _ _ run_of_oneByte () (2 ^ 64 - 1) true (by decide)
  have hempty : MessageBuffer.Sized.ensureWritableBytes true ⟨0, 1, [7]⟩ (2 ^ 64 - 1)
      = some ⟨false, ⟨0, 1, []⟩⟩ := by decide +kernel
  obtain rfl : _ = ended := Option.some.inj (hempty.symm.trans hended)
  exact absurd hspec.2.1.write_le_size (by decide)

end GameDemoLearn.Net
