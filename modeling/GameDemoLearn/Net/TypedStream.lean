import GameDemoLearn.Lib.Format
import GameDemoLearn.Lib.LittleEndian
import GameDemoLearn.Net.BufferFifo

/-!
Values of trivial standard-layout types in a `MessageBuffer` (`operator<<` and `operator>>`).
Copying the bytes of a value and back gives the value, which is what a `Format` says.
-/

namespace GameDemoLearn.Net

open Transition Format

/-- A buffer with the values written to it and the values read from it so far. -/
structure TypedStream where
  buffer : MessageBuffer
  written : List (Item UInt8)
  delivered : List (Item UInt8)

inductive TypedOp
  | streamIn (item : Item UInt8)
  | streamOut (T : Format UInt8)
  | ensureWritableBytes (len : Nat)
  | ensureFreeSpace
  | shrink (reserve : Nat)

/-- `none` where the operation would leave the storage. -/
def typedStep (s : TypedStream) : TypedOp → Option TypedStream
  | .streamIn item => (s.buffer.streamIn item.encode).map fun buffer =>
      { s with buffer, written := s.written ++ [item] }
  | .streamOut T => (s.buffer.streamOut T.width).map fun result =>
      { s with buffer := result.1, delivered := s.delivered ++ [⟨T, T.decode result.2⟩] }
  | .ensureWritableBytes len => (s.buffer.ensureWritableBytes len).map fun buffer =>
      { s with buffer }
  | .ensureFreeSpace => s.buffer.ensureFreeSpace.map fun buffer => { s with buffer }
  | .shrink reserve => (s.buffer.shrink reserve).map fun buffer => { s with buffer }

def typedSystem : System TypedStream TypedOp :=
  System.ofStep (fun s => ∃ initialSize, s = ⟨.create initialSize, [], []⟩) typedStep

/-- A read asks for the type of the oldest value that has not been read. -/
def TypedOp.Follows (s : TypedStream) : TypedOp → Prop
  | .streamOut T => ∃ item, s.written[s.delivered.length]? = some item ∧ item.1 = T
  | _ => True

/-- What is readable are the values that were not read yet. -/
structure TypedStream.Holds (s : TypedStream) (pending : List (Item UInt8)) : Prop where
  wellFormed : s.buffer.WellFormed
  order : s.written = s.delivered ++ pending
  readable : s.buffer.readable = flatten pending

section Steps

variable {s s' : TypedStream} {pending : List (Item UInt8)}

/-- An operation that leaves the readable bytes as they are. -/
theorem TypedStream.Holds.move (h : s.Holds pending) {result : Option MessageBuffer}
    (hresult : ∃ buffer, result = some buffer ∧ buffer.WellFormed ∧
      buffer.readable = s.buffer.readable) :
    ∃ s', (result.map fun buffer => { s with buffer }) = some s' ∧ s'.Holds pending := by
  obtain ⟨buffer, rfl, hbuffer, hsame⟩ := hresult
  exact ⟨_, rfl, hbuffer, h.order, hsame.trans h.readable⟩

/-- Reading the type of the oldest value gives that value. -/
theorem TypedStream.Holds.streamOut {item : Item UInt8} (h : s.Holds (item :: pending)) :
    ∃ buffer, typedStep s (.streamOut item.1)
      = some { s with buffer, delivered := s.delivered ++ [item] } ∧
      buffer.WellFormed ∧ buffer.readable = flatten pending := by
  have hlen : item.1.width ≤ s.buffer.readableBytes := by
    rw [← h.wellFormed.length_readable, h.readable]
    exact width_le_length_flatten item pending
  obtain ⟨buffer, hread, hbuffer, hrest⟩ := h.wellFormed.readAsString hlen
  refine ⟨buffer, ?_, hbuffer, ?_⟩
  · change (s.buffer.readAsString item.1.width).map _ = _
    rw [hread, Option.map_some, h.readable, decode_take_flatten]
  · rw [hrest, h.readable, drop_flatten]

/-- Every operation is possible, and what is pending changes as in a queue of values. -/
theorem TypedStream.Holds.step (h : s.Holds pending) {op : TypedOp} (hfollows : op.Follows s) :
    ∃ s' pending', typedStep s op = some s' ∧ s'.Holds pending' := by
  cases op with
  | streamIn item =>
      obtain ⟨buffer, hwrite, hbuffer, hreadable⟩ := h.wellFormed.write item.encode
      refine ⟨{ s with buffer, written := s.written ++ [item] }, pending ++ [item], ?_, hbuffer,
        ?_, ?_⟩
      · change (s.buffer.write item.encode).map _ = _
        rw [hwrite, Option.map_some]
      · change s.written ++ [item] = _
        rw [h.order, List.append_assoc]
      · rw [hreadable, h.readable, flatten_append, flatten_cons]
        simp [flatten]
  | streamOut T =>
      obtain ⟨item, hitem, rfl⟩ := hfollows
      rw [h.order, List.getElem?_append_right (Nat.le_refl _), Nat.sub_self] at hitem
      cases pending with
      | nil => cases hitem
      | cons front rest =>
          cases hitem
          obtain ⟨buffer, hread, hbuffer, hrest⟩ := h.streamOut
          refine ⟨{ s with buffer, delivered := s.delivered ++ [item] }, rest, hread, hbuffer,
            ?_, hrest⟩
          change s.written = s.delivered ++ [item] ++ rest
          rw [h.order, List.append_assoc, List.singleton_append]
  | ensureWritableBytes len =>
      obtain ⟨buffer, hensure, hbuffer, hsame, -⟩ := h.wellFormed.ensureWritableBytes len
      obtain ⟨s', hs', hholds⟩ := h.move ⟨buffer, hensure, hbuffer, hsame⟩
      exact ⟨s', pending, hs', hholds⟩
  | ensureFreeSpace =>
      obtain ⟨buffer, hensure, hbuffer, hsame, -⟩ :=
        h.wellFormed.makeSpace (s.buffer.buffer.length * 3 / 2)
      obtain ⟨s', hs', hholds⟩ := h.move ⟨buffer, hensure, hbuffer, hsame⟩
      exact ⟨s', pending, hs', hholds⟩
  | shrink reserve =>
      obtain ⟨s', hs', hholds⟩ := h.move (h.wellFormed.shrink reserve)
      exact ⟨s', pending, hs', hholds⟩

theorem holds_create (initialSize : Nat) : TypedStream.Holds ⟨.create initialSize, [], []⟩ [] :=
  ⟨MessageBuffer.wellFormed_create initialSize, rfl, MessageBuffer.readable_create initialSize⟩

theorem holds_of_run {tr : List (TypedStream × TypedOp)} (hrun : Run typedSystem tr s)
    (hfollows : ∀ p ∈ tr, p.2.Follows p.1) : ∃ pending, s.Holds pending := by
  refine hrun.guarded (fun s => ∃ pending, s.Holds pending) (fun s op => op.Follows s)
    ?_ ?_ hfollows
  · rintro s ⟨initialSize, rfl⟩
    exact ⟨[], holds_create initialSize⟩
  · rintro s op s' ⟨pending, h⟩ hop hstep
    obtain ⟨s'', pending', hnext, h'⟩ := h.step hop
    cases hnext.symm.trans hstep
    exact ⟨pending', h'⟩

end Steps

/-- An unsigned integer of a number of bytes, as it lies in memory. -/
def unsignedFormat (width : Nat) : Format UInt8 where
  Value := Fin (256 ^ width)
  width := width
  encode value := LittleEndian.encode width value
  decode bytes := Fin.ofNat (256 ^ width) (LittleEndian.decode bytes)
  length_encode value := LittleEndian.length_encode width value
  decode_encode value := by
    rw [LittleEndian.decode_encode_of_lt value.isLt]
    exact Fin.ofNat_val_eq_self value

/-- In every run of writes, reads that ask for the types in the order of the writes, and changes
of the storage: the values read are the values written, in order; no such operation leaves the
storage; and what is readable are the values that were not read yet. -/
theorem typed_stream {tr : List (TypedStream × TypedOp)} {s : TypedStream}
    (hrun : Run typedSystem tr s) (hfollows : ∀ p ∈ tr, p.2.Follows p.1) :
    s.delivered <+: s.written ∧
      s.buffer.readable = flatten (s.written.drop s.delivered.length) ∧
      ∀ op : TypedOp, op.Follows s → (typedStep s op).isSome = true := by
  obtain ⟨pending, h⟩ := holds_of_run hrun hfollows
  refine ⟨⟨pending, h.order.symm⟩, ?_, fun op hop => ?_⟩
  · rw [h.order, List.drop_left, h.readable]
  · obtain ⟨s', pending', hnext, -⟩ := h.step hop
    rw [hnext]
    rfl

/-- A number of two bytes and one of one byte, of which the first is read. -/
theorem typed_stream_numbers :
    ∃ tr s, Run typedSystem tr s ∧ tr.length = 3 ∧ s.delivered <+: s.written ∧
      s.buffer.readable = flatten (s.written.drop s.delivered.length) := by
  have hinit : typedSystem.init ⟨.create 2, [], []⟩ := ⟨2, rfl⟩
  have hexec : exec typedStep ⟨.create 2, [], []⟩ [.streamIn ⟨unsignedFormat 2, (300 : Fin 65536)⟩,
      .streamIn ⟨unsignedFormat 1, (7 : Fin 256)⟩, .streamOut (unsignedFormat 2)]
      = some (_, _) := rfl
  have hrun : Run typedSystem _ _ := run_of_exec hinit hexec
  obtain ⟨hstart, hreadable, -⟩ := typed_stream hrun (List.forall_mem_cons.mpr ⟨trivial,
    List.forall_mem_cons.mpr ⟨trivial, List.forall_mem_singleton.mpr ⟨_, rfl, rfl⟩⟩⟩)
  exact ⟨_, _, hrun, rfl, hstart, hreadable⟩

end GameDemoLearn.Net
