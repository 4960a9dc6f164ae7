import GameDemoLearn.Net.BufferSize

/-!
`MessageBuffer` in a build without assertions (`Buffer.h`): a read may ask for more than there
is to be read. `Read` of a length then hands out less, the other two readers copy what lies
behind the write index. The second part is the storage that `Shrink` leaves.
-/

namespace GameDemoLearn.Net

open Transition

variable {ι : Type} [DecidableEq ι]

/-- The preconditions that are left: no assertion looks at the length of a read. -/
def BufferOp.Unasserted (s : ι → MessageBuffer) : BufferOp ι → Prop
  | .read _ _ | .readPod _ _ | .streamOut _ _ | .readAsString _ _ => True
  | op => op.Admissible s

/-- The operations on buffers in a build without assertions. -/
def releaseSystem (ι : Type) [DecidableEq ι] :
    System (ι → MessageBuffer) (BufferOp ι × (Nat → Bool)) where
  init := (sizedSystem ι).init
  step s call s' := call.1.Unasserted s ∧ call.1.size < 2 ^ 64 ∧
    call.1.performSized call.2 s = some s'

/-- The readers that take a length, which for `Read<PODType>` is that of the type. -/
inductive Reader
  | read
  | readPod
  | readAsString
  deriving DecidableEq

def Reader.perform (b : MessageBuffer) (len : Nat) : Reader → Option (MessageBuffer × Bytes)
  | .read => MessageBuffer.Sized.read b len
  | .readPod | .readAsString => MessageBuffer.Sized.readAsString b len

/-- What a reader is to do: it hands out readable bytes only, and leaves an empty buffer. -/
def Reader.StaysReadable (b : MessageBuffer) (len : Nat) (reader : Reader) : Prop :=
  ∃ b' data, reader.perform b len = some (b', data) ∧ data <+: b.readable ∧
    b'.readable = [] ∧ b'.SizedWell

/-- What `Shrink` is to do: to throw and leave the buffer as it was, or to keep the readable
bytes, to leave the room that is asked for, and not to leave more storage than there was where
that was enough. -/
def MessageBuffer.Shrinks (b : MessageBuffer) (reserve : Nat) (ended : Ended) : Prop :=
  if ended.threw then
    ended.buffer = b
  else
    ended.buffer.readable = b.readable ∧ ended.buffer.SizedWell ∧
      reserve ≤ Sized.writableBytes ended.buffer ∧
      (b.readableBytes + reserve ≤ b.buffer.length →
        ended.buffer.buffer.length ≤ b.buffer.length)

namespace MessageBuffer

section Excess

variable {b b' : MessageBuffer} {len : Nat} {data : Bytes}

theorem SizedWell.resetBuffer (hb : b.SizedWell) :
    b.resetBuffer.SizedWell ∧ b.resetBuffer.readable = [] := by
  refine ⟨⟨⟨Nat.le_refl _, Nat.zero_le _⟩, hb.size_lt⟩, ?_⟩
  simp only [MessageBuffer.resetBuffer, readable, List.take_zero, List.drop_zero]

/-- Consuming all that is there, or more, resets the indices. -/
theorem SizedWell.consumeBytes_excess (hb : b.SizedWell) (hexcess : b.readableBytes ≤ len) :
    Sized.consumeBytes b len = b.resetBuffer := by
  rw [Sized.consumeBytes, hb.readableBytes, if_neg (Nat.not_lt_of_le hexcess)]

/-- The invariant does not need the length of a read to be asserted. -/
theorem SizedWell.readAsString_any (hb : b.SizedWell)
    (hread : Sized.readAsString b len = some (b', data)) : b'.SizedWell := by
  obtain ⟨bytes, -, hpair⟩ := Option.map_eq_some_iff.mp hread
  obtain ⟨rfl, rfl⟩ := Prod.mk.inj hpair
  rcases Nat.le_total b.readableBytes len with hexcess | hlen
  · rw [hb.consumeBytes_excess hexcess]
    exact hb.resetBuffer.1
  · rw [hb.consumeBytes hlen]
    refine ⟨(hb.wellFormed.consumeBytes hlen).1, ?_⟩
    rw [length_consumeBytes]
    exact hb.size_lt

/-- `Read` of a length that is not there hands out all that is. -/
theorem SizedWell.read_excess (hb : b.SizedWell) (hexcess : b.readableBytes < len) :
    Sized.read b len = some (b.resetBuffer, b.readable) := by
  have hload := hb.wellFormed.copyFromReadPointer (Nat.le_refl b.readableBytes)
  rw [List.take_of_length_le (Nat.le_of_eq hb.wellFormed.length_readable)] at hload
  rw [Sized.read, hb.readableBytes, Nat.min_eq_right (Nat.le_of_lt hexcess), Sized.readAsString,
    hload, Option.map_some, hb.consumeBytes_excess (Nat.le_refl _)]

/-- The other readers copy `len` bytes from the read pointer on, of which the last lie behind
the write index, or outside the storage. -/
theorem SizedWell.readAsString_excess (hb : b.SizedWell) (hexcess : b.readableBytes < len) :
    Sized.readAsString b len =
      if b.readIndex + len ≤ b.buffer.length then
        some (b.resetBuffer,
          b.readable ++ (b.buffer.drop b.writeIndex).take (len - b.readableBytes))
      else none := by
  have horder := hb.wellFormed.read_le_write
  have hsize := hb.wellFormed.write_le_size
  rw [Sized.readAsString, hb.consumeBytes_excess (Nat.le_of_lt hexcess), copyFromReadPointer,
    Bytes.load]
  split
  · have hsplit : b.buffer.drop b.readIndex = b.readable ++ b.buffer.drop b.writeIndex := by
      have hindex : b.writeIndex = b.readIndex + (b.writeIndex - b.readIndex) := by omega
      rw [readable, List.drop_take]
      conv_rhs => rw [hindex, ← List.drop_drop, Nat.add_sub_cancel_left]
      rw [List.take_append_drop]
    rw [Option.map_some, hsplit, List.take_append, hb.wellFormed.length_readable,
      List.take_of_length_le (by rw [hb.wellFormed.length_readable]; omega)]
  · rfl

/-- Where a reader returns at all, an excess length leaves an empty buffer. -/
theorem SizedWell.reader_excess (hb : b.SizedWell) (hexcess : b.readableBytes < len)
    {reader : Reader} (hread : reader.perform b len = some (b', data)) :
    b' = b.resetBuffer := by
  cases reader with
  | read =>
      rw [Reader.perform, hb.read_excess hexcess] at hread
      exact (Prod.mk.inj (Option.some.inj hread)).1.symm
  | readPod =>
      rw [Reader.perform, hb.readAsString_excess hexcess] at hread
      split at hread
      · exact (Prod.mk.inj (Option.some.inj hread)).1.symm
      · cases hread
  | readAsString =>
      rw [Reader.perform, hb.readAsString_excess hexcess] at hread
      split at hread
      · exact (Prod.mk.inj (Option.some.inj hread)).1.symm
      · cases hread

theorem SizedWell.not_staysReadable (hb : b.SizedWell) (hexcess : b.readableBytes < len)
    (hdata : Sized.readAsString b len = some (b', data)) : ¬ data <+: b.readable := by
  intro hwithin
  obtain ⟨bytes, hload, hpair⟩ := Option.map_eq_some_iff.mp hdata
  obtain ⟨-, rfl⟩ := Prod.mk.inj hpair
  have hlength := Bytes.length_load hload
  have hshort := hwithin.length_le
  rw [hb.wellFormed.length_readable] at hshort
  omega

/-- Of the three readers only the one that clamps its length does what it is to. -/
theorem SizedWell.staysReadable_iff (hb : b.SizedWell) (hexcess : b.readableBytes < len)
    (reader : Reader) : reader.StaysReadable b len ↔ reader = .read := by
  cases reader with
  | read =>
      obtain ⟨hreset, hempty⟩ := hb.resetBuffer
      refine iff_of_true ?_ rfl
      exact ⟨_, _, hb.read_excess hexcess, List.prefix_refl _, hempty, hreset⟩
  | readPod =>
      refine iff_of_false ?_ (by decide)
      rintro ⟨b', data, hread, hwithin, -⟩
      exact hb.not_staysReadable hexcess hread hwithin
  | readAsString =>
      refine iff_of_false ?_ (by decide)
      rintro ⟨b', data, hread, hwithin, -⟩
      exact hb.not_staysReadable hexcess hread hwithin

end Excess

section Shrink

variable {b : MessageBuffer} {reserve : Nat}

/-- The new buffer of `Shrink` once it has the room: where that needs memory that is refused,
it throws. -/
theorem ensureWritableBytes_initial (granted : Bool) {len : Nat} (hlen : len < 2 ^ 64) :
    ∃ ended, Sized.ensureWritableBytes granted (create INITIAL_BUFFER_SIZE) len = some ended ∧
      (granted = true → ended.threw = false) ∧
      (ended.threw = false → ended.buffer.SizedWell ∧ ended.buffer.readable = [] ∧
        ended.buffer.writeIndex = 0 ∧
        ended.buffer.buffer.length = max INITIAL_BUFFER_SIZE len) := by
  have hfresh : (create INITIAL_BUFFER_SIZE).SizedWell := sizedWell_create (by decide)
  have hfits : (create INITIAL_BUFFER_SIZE).FitsSizeT len := fitsSizeT_of_writeIndex rfl hlen
  have hsize : (create INITIAL_BUFFER_SIZE).sizeAfter len = max INITIAL_BUFFER_SIZE len := by
    simp only [sizeAfter, writableBytes, create, List.length_replicate]
    split <;> omega
  rw [hfresh.ensureWritableBytes_eq hfits]
  split
  · next hrefused =>
      refine ⟨_, rfl, fun hgranted => ?_, fun hreturned => Bool.noConfusion hreturned⟩
      rw [hrefused.2] at hgranted
      exact Bool.noConfusion hgranted
  · obtain ⟨other, hensure, hother, hempty, -⟩ := hfresh.wellFormed.ensureWritableBytes len
    have hlength := length_ensureWritableBytes hensure
    rw [hsize] at hlength
    rw [hensure]
    refine ⟨_, rfl, fun _ => rfl, fun _ => ⟨⟨hother, ?_⟩, ?_, ?_, hlength⟩⟩
    · rw [hlength, ← hsize]
      exact hfresh.sizeAfter_lt hfits
    · rw [hempty, readable_create]
    · rw [MessageBuffer.ensureWritableBytes_eq] at hensure
      rw [← Option.some.inj hensure]
      split <;> rfl

/-- `Shrink` throws and leaves the buffer, or leaves the readable bytes in a storage of the
initial size, or of a larger one that is just enough. -/
theorem SizedWell.shrink_size (hb : b.SizedWell) (granted : Nat → Bool)
    (hsum : b.readableBytes + reserve < 2 ^ 64) :
    ∃ ended, Sized.shrink granted b reserve = some ended ∧
      ((∀ k, granted k = true) → ended.threw = false) ∧
      (ended.threw = true → ended.buffer = b) ∧
      (ended.threw = false → ended.buffer.SizedWell ∧ ended.buffer.readable = b.readable ∧
        ended.buffer.writeIndex = b.readableBytes ∧
        ended.buffer.buffer.length = max INITIAL_BUFFER_SIZE (b.readableBytes + reserve)) := by
  obtain ⟨other, hensure, hgrants, hother⟩ := ensureWritableBytes_initial (granted 1) hsum
  have hload := hb.wellFormed.copyFromReadPointer (Nat.le_refl b.readableBytes)
  rw [List.take_of_length_le (Nat.le_of_eq hb.wellFormed.length_readable)] at hload
  rw [Sized.shrink, hb.readableBytes, SizeT.add_of_lt hsum, hensure, Option.bind_some, hload,
    Option.bind_some]
  by_cases hfirst : granted 0 = true
  · rw [if_pos hfirst]
    cases hthrew : other.threw with
    | true =>
        refine ⟨_, rfl, fun hall => ?_, fun _ => rfl, fun h => Bool.noConfusion h⟩
        rw [hgrants (hall 1)] at hthrew
        exact Bool.noConfusion hthrew
    | false =>
        obtain ⟨hwell, hempty, hindex, hlength⟩ := hother hthrew
        -- the room is there, so the write needs no memory
        have hroom : ¬ other.buffer.writableBytes < b.readable.length := by
          rw [hb.wellFormed.length_readable, MessageBuffer.writableBytes, hindex, hlength]
          omega
        have hfits : other.buffer.FitsSizeT b.readable.length := fun h => absurd h hroom
        obtain ⟨written, hwrite, hwritten, hreadable⟩ := hwell.wellFormed.write b.readable
        obtain ⟨-, hwriteIndex, hsize⟩ := MessageBuffer.write_eq hwrite
        rw [sizeAfter, if_neg hroom, hlength] at hsize
        rw [hindex, Nat.zero_add, hb.wellFormed.length_readable] at hwriteIndex
        rw [if_neg Bool.false_ne_true, hwell.write_eq hfits, if_neg fun h => hroom h.1, hwrite]
        refine ⟨_, rfl, fun _ => rfl, fun h => Bool.noConfusion h, fun _ => ?_⟩
        refine ⟨⟨hwritten, ?_⟩, ?_, hwriteIndex, hsize⟩
        · change written.buffer.length < 2 ^ 64
          rw [hsize, ← hlength]
          exact hwell.size_lt
        · change written.readable = b.readable
          rw [hreadable, hempty, List.nil_append]
  · rw [if_neg hfirst]
    refine ⟨_, rfl, fun hall => absurd (hall 0) hfirst, fun _ => rfl, fun h => Bool.noConfusion h⟩

/-- `Shrink` does what it is to if and only if the storage has the initial size, or is too
small anyway: its new buffer is never smaller than that. -/
theorem SizedWell.shrinks_iff (hb : b.SizedWell) (hsum : b.readableBytes + reserve < 2 ^ 64) :
    (∀ granted, ∃ ended, Sized.shrink granted b reserve = some ended ∧ b.Shrinks reserve ended) ↔
      (b.readableBytes + reserve ≤ b.buffer.length → INITIAL_BUFFER_SIZE ≤ b.buffer.length) := by
  constructor
  · intro hshrinks hfitted
    obtain ⟨ended, hshrink, hdone⟩ := hshrinks fun _ => true
    obtain ⟨ended', hshrink', hreturned, -, hended⟩ := hb.shrink_size (fun _ => true) hsum
    obtain rfl : ended' = ended := Option.some.inj (hshrink'.symm.trans hshrink)
    have hthrew := hreturned fun _ => rfl
    obtain ⟨-, -, -, hlength⟩ := hended hthrew
    rw [Shrinks, if_neg (by rw [hthrew]; exact Bool.false_ne_true)] at hdone
    have hle := hdone.2.2.2 hfitted
    omega
  · intro hinitial granted
    obtain ⟨ended, hshrink, -, hkept, hended⟩ := hb.shrink_size granted hsum
    refine ⟨ended, hshrink, ?_⟩
    unfold Shrinks
    split
    · next hthrew => exact hkept hthrew
    · next hreturned =>
        obtain ⟨hwell, hsame, hindex, hlength⟩ := hended (Bool.not_eq_true _ ▸ hreturned)
        refine ⟨hsame, hwell, ?_, fun hfitted => ?_⟩
        · rw [hwell.writableBytes, MessageBuffer.writableBytes, hindex, hlength]
          omega
        · have hle := hinitial hfitted
          omega

end Shrink

end MessageBuffer

section Run

variable {tr : List ((ι → MessageBuffer) × (BufferOp ι × (Nat → Bool)))} {s s' : ι → MessageBuffer}

/-- A read of any length keeps the invariant of all objects. -/
theorem sizedWell_delivered (hs : ∀ i, (s i).SizedWell) {i : ι} {len : Nat}
    (hread : BufferOp.performSized.delivered s i (MessageBuffer.Sized.readAsString (s i) len)
      = some s') : ∀ k, (s' k).SizedWell := by
  obtain ⟨⟨b', data⟩, hout, rfl⟩ := Option.map_eq_some_iff.mp hread
  exact sizedWell_update hs i ((hs i).readAsString_any hout)

theorem sizedWell_release (hrun : Run (releaseSystem ι) tr s)
    (hwraps : ∀ p ∈ tr, p.2.1.NoWrap p.1) : ∀ i, (s i).SizedWell := by
  apply hrun.guarded (fun s => ∀ i, (s i).SizedWell) (fun s call => call.1.NoWrap s) _ _ hwraps
  · exact fun s hinit => sizedWell_constructed hinit
  · rintro s ⟨op, granted⟩ s' hs hop ⟨hunasserted, hsize, hperform⟩
    cases op with
    | read i len => exact sizedWell_delivered hs hperform
    | readPod i size => exact sizedWell_delivered hs hperform
    | streamOut i size => exact sizedWell_delivered hs hperform
    | readAsString i len => exact sizedWell_delivered hs hperform
    | _ =>
        refine sizedWell_performSized hs ?_ hsize hop hperform
        exact hunasserted

/-- In every state of every run in which no sum wrapped around, a request for more than there
is to be read is met with readable bytes only, and leaves an empty buffer, if and only if it
goes to `Read` of a length. Every reader that returns leaves an empty buffer. -/
theorem excessRead_stays_iff (hrun : Run (releaseSystem ι) tr s)
    (hwraps : ∀ p ∈ tr, p.2.1.NoWrap p.1) (i : ι) {len : Nat}
    (hexcess : (s i).readableBytes < len) (reader : Reader) :
    (reader.StaysReadable (s i) len ↔ reader = .read) ∧
      ∀ b' data, reader.perform (s i) len = some (b', data) → b'.readable = [] ∧ b'.SizedWell := by
  have hwell := sizedWell_release hrun hwraps i
  refine ⟨hwell.staysReadable_iff hexcess reader, ?_⟩
  intro b' data hread
  rw [hwell.reader_excess hexcess hread]
  exact ⟨hwell.resetBuffer.2, hwell.resetBuffer.1⟩

/-- In every state of every run in which no sum wrapped around, `Shrink` with a reserve that
does not make its own sum wrap around does what it is to if and only if the readable bytes and
the reserve did not fit in the storage, or that has the initial size or more. -/
theorem shrink_shrinks_iff (hrun : Run (releaseSystem ι) tr s)
    (hwraps : ∀ p ∈ tr, p.2.1.NoWrap p.1) (i : ι) {reserve : Nat}
    (hsum : (s i).readableBytes + reserve < 2 ^ 64) :
    (∀ granted, ∃ ended, MessageBuffer.Sized.shrink granted (s i) reserve = some ended ∧
      (s i).Shrinks reserve ended) ↔
      ((s i).readableBytes + reserve ≤ (s i).buffer.length →
        MessageBuffer.INITIAL_BUFFER_SIZE ≤ (s i).buffer.length) :=
  (sizedWell_release hrun hwraps i).shrinks_iff hsum

end Run

/-- A buffer of four bytes with one byte written. -/
theorem run_of_oneByteOfFour :
    Run (releaseSystem Unit) [(fun _ => .create 4, (.write () [7], fun _ => true))]
      (Function.update (fun _ => .create 4) () ⟨0, 1, [7, 0, 0, 0]⟩) := by
  have hstart : Run (releaseSystem Unit) [] fun _ => .create 4 :=
    .start fun _ => ⟨4, by decide, rfl⟩
  have hwrite : MessageBuffer.Sized.write true (.create 4) [7]
      = some ⟨false, ⟨0, 1, [7, 0, 0, 0]⟩⟩ := by decide +kernel
  refine hstart.snoc ⟨trivial, by decide, ?_⟩
  rw [BufferOp.performSized, hwrite]
  rfl

theorem excessRead_stays_iff_oneByte :
    (Reader.read.StaysReadable ⟨0, 1, [7, 0, 0, 0]⟩ 2 ↔ Reader.read = .read) ∧
      ∀ b' data, Reader.read.perform ⟨0, 1, [7, 0, 0, 0]⟩ 2 = some (b', data) →
        b'.readable = [] ∧ b'.SizedWell := by
  refine excessRead_stays_iff run_of_oneByteOfFour ?_ () (by decide) .read
  rw [List.forall_mem_singleton]
  rintro i len hwants hshort
  cases hwants
  decide

/-- One byte is written, and `ReadAsString(2)` hands out a byte from behind it as well. -/
theorem readAsString_hands_out_more :
    Reader.readAsString.perform ⟨0, 1, [7, 0, 0, 0]⟩ 2 = some (⟨0, 0, [7, 0, 0, 0]⟩, [7, 0]) ∧
    ¬ ∀ (tr : List ((Unit → MessageBuffer) × (BufferOp Unit × (Nat → Bool))))
      (s : Unit → MessageBuffer), Run (releaseSystem Unit) tr s →
        ∀ i len, (s i).readableBytes < len → ∀ reader : Reader, reader.StaysReadable (s i) len := by
  have hread : Reader.readAsString.perform ⟨0, 1, [7, 0, 0, 0]⟩ 2
      = some (⟨0, 0, [7, 0, 0, 0]⟩, [7, 0]) := by decide +kernel
  refine ⟨hread, fun hstays => ?_⟩
  obtain ⟨b', data, hperform, hwithin, -⟩ :=
    hstays _ _ run_of_oneByteOfFour () 2 (by decide) .readAsString
  obtain ⟨-, rfl⟩ := Prod.mk.inj (Option.some.inj (hread.symm.trans hperform))
  exact absurd hwithin.length_le (by decide)

theorem shrink_shrinks_iff_oneByte :
    (∀ granted, ∃ ended,
      MessageBuffer.Sized.shrink granted ⟨0, 1, [7, 0, 0, 0]⟩ 5 = some ended ∧
        MessageBuffer.Shrinks ⟨0, 1, [7, 0, 0, 0]⟩ 5 ended) ↔ (1 + 5 ≤ 4 → 1024 ≤ 4) := by
  refine shrink_shrinks_iff run_of_oneByteOfFour ?_ () (by decide)
  rw [List.forall_mem_singleton]
  rintro i len hwants hshort
  cases hwants
  decide

/-- One byte in a storage of four, which `Shrink` makes a storage of 1024. -/
theorem shrink_enlarges :
    ¬ ∀ (tr : List ((Unit → MessageBuffer) × (BufferOp Unit × (Nat → Bool))))
      (s : Unit → MessageBuffer), Run (releaseSystem Unit) tr s →
        ∀ i reserve granted, (s i).readableBytes + reserve < 2 ^ 64 →
          ∃ ended, MessageBuffer.Sized.shrink granted (s i) reserve = some ended ∧
            (s i).Shrinks reserve ended := by
  intro hshrinks
  have hwell : MessageBuffer.SizedWell ⟨0, 1, [7, 0, 0, 0]⟩ :=
    ⟨⟨by decide, by decide⟩, by decide⟩
  have hsize := (hwell.shrinks_iff (by decide)).mp fun granted =>
    hshrinks _ _ run_of_oneByteOfFour () 0 granted (by decide)
  exact absurd (hsize (by decide)) (by decide)

end GameDemoLearn.Net
