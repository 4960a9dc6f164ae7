import GameDemoLearn.Util.Bytes

/-!
`MessageBuffer` (`Buffer.h`). The vector is the list of its bytes and sizes are
natural numbers. An operation is `none` where it would touch memory outside the
vector.
-/

namespace GameDemoLearn.Net

structure MessageBuffer where
  readIndex : Nat
  writeIndex : Nat
  buffer : Bytes
  deriving DecidableEq

namespace MessageBuffer

def INITIAL_BUFFER_SIZE : Nat := 1024

/-- The constructor: `_buffer(initialSize)` zero-initialises the vector. -/
def create (initialSize : Nat) : MessageBuffer := ⟨0, 0, List.replicate initialSize 0⟩

/-- What the move constructor leaves of its source. -/
def movedFrom : MessageBuffer := ⟨0, 0, []⟩

def readableBytes (b : MessageBuffer) : Nat := b.writeIndex - b.readIndex

def writableBytes (b : MessageBuffer) : Nat := b.buffer.length - b.writeIndex

def readDone (b : MessageBuffer) (len : Nat) : MessageBuffer :=
  { b with readIndex := b.readIndex + len }

def writeDone (b : MessageBuffer) (len : Nat) : MessageBuffer :=
  { b with writeIndex := b.writeIndex + len }

/-- `len` bytes copied from `GetReadPointer()`. -/
def copyFromReadPointer (b : MessageBuffer) (len : Nat) : Option Bytes :=
  b.buffer.load b.readIndex len

/-- Bytes copied to `GetWritPointer()`. -/
def copyToWritPointer (b : MessageBuffer) (data : Bytes) : Option MessageBuffer :=
  (b.buffer.store b.writeIndex data).map fun buffer => { b with buffer }

def resetBuffer (b : MessageBuffer) : MessageBuffer :=
  { b with readIndex := 0, writeIndex := 0 }

def consumeBytes (b : MessageBuffer) (len : Nat) : MessageBuffer :=
  if len < b.readableBytes then
    { b with readIndex := b.readIndex + len }
  else
    b.resetBuffer

def makeSpace (b : MessageBuffer) (len : Nat) : Option MessageBuffer :=
  if b.writableBytes < len then
    some { b with buffer := b.buffer.resize (b.writeIndex + len) }
  else
    let readableBytes := b.readableBytes
    (b.copyFromReadPointer readableBytes).bind fun bytes =>
      (b.buffer.store 0 bytes).map fun buffer => ⟨0, readableBytes, buffer⟩

def ensureWritableBytes (b : MessageBuffer) (len : Nat) : Option MessageBuffer :=
  if b.writableBytes < len then b.makeSpace len else some b

def ensureFreeSpace (b : MessageBuffer) : Option MessageBuffer :=
  b.makeSpace (b.buffer.length * 3 / 2)

/-- `Write(const uint8_t *, size_t)`. -/
def write (b : MessageBuffer) (data : Bytes) : Option MessageBuffer :=
  (b.ensureWritableBytes data.length).bind fun b =>
    (b.copyToWritPointer data).map fun b => b.writeDone data.length

/-- `Write(const void *, size_t)`. -/
def writeVoid (b : MessageBuffer) (data : Bytes) : Option MessageBuffer := b.write data

/-- `Write(std::string_view)`. -/
def writeString (b : MessageBuffer) (str : Bytes) : Option MessageBuffer := b.writeVoid str

/-- `Write(const PODType &)`, on the object representation of the value. -/
def writePod (b : MessageBuffer) (object : Bytes) : Option MessageBuffer :=
  (b.ensureWritableBytes object.length).bind fun b =>
    (b.copyToWritPointer object).map fun b => b.writeDone object.length

/-- `operator<<`. -/
def streamIn (b : MessageBuffer) (object : Bytes) : Option MessageBuffer := b.writePod object

/-- `Read(void *, size_t)`. -/
def read (b : MessageBuffer) (len : Nat) : Option (MessageBuffer × Bytes) :=
  let canReadLen := min len b.readableBytes
  (b.copyFromReadPointer canReadLen).map fun data => (b.consumeBytes canReadLen, data)

/-- `Read<PODType>()`, for a type of `size` bytes. -/
def readPod (b : MessageBuffer) (size : Nat) : Option (MessageBuffer × Bytes) :=
  (b.copyFromReadPointer size).map fun object => (b.consumeBytes size, object)

/-- `operator>>`. -/
def streamOut (b : MessageBuffer) (size : Nat) : Option (MessageBuffer × Bytes) :=
  b.readPod size

def readAsString (b : MessageBuffer) (len : Nat) : Option (MessageBuffer × Bytes) :=
  (b.copyFromReadPointer len).map fun result => (b.consumeBytes len, result)

def readAllAsString (b : MessageBuffer) : Option (MessageBuffer × Bytes) :=
  b.readAsString b.readableBytes

def shrink (b : MessageBuffer) (reserve : Nat) : Option MessageBuffer :=
  ((create INITIAL_BUFFER_SIZE).ensureWritableBytes (b.readableBytes + reserve)).bind fun other =>
    (b.copyFromReadPointer b.readableBytes).bind fun data => other.write data

/-- The bytes between the two indices. -/
def readable (b : MessageBuffer) : Bytes :=
  (b.buffer.take b.writeIndex).drop b.readIndex

/-- The order of the indices that every operation relies on. -/
structure WellFormed (b : MessageBuffer) : Prop where
  read_le_write : b.readIndex ≤ b.writeIndex
  write_le_size : b.writeIndex ≤ b.buffer.length

theorem wellFormed_create (initialSize : Nat) : (create initialSize).WellFormed :=
  ⟨Nat.le_refl _, Nat.zero_le _⟩

theorem readable_create (initialSize : Nat) : (create initialSize).readable = [] := by
  simp only [create, readable, List.take_zero, List.drop_zero]

theorem wellFormed_movedFrom : movedFrom.WellFormed :=
  ⟨Nat.le_refl _, Nat.le_refl _⟩

theorem readable_movedFrom : movedFrom.readable = [] := rfl

namespace WellFormed

variable {b : MessageBuffer}

theorem length_readable (hb : b.WellFormed) : b.readable.length = b.readableBytes := by
  have hsize := hb.write_le_size
  rw [readable, List.length_drop, List.length_take, Nat.min_eq_left hsize, readableBytes]

/-- Copying from the read pointer hands out the front of the readable bytes. -/
theorem copyFromReadPointer (hb : b.WellFormed) {len : Nat} (hlen : len ≤ b.readableBytes) :
    b.copyFromReadPointer len = some (b.readable.take len) := by
  have horder := hb.read_le_write
  have hsize := hb.write_le_size
  simp only [readableBytes] at hlen
  rw [MessageBuffer.copyFromReadPointer, Bytes.load, if_pos (by omega), readable, List.drop_take,
    List.take_take, Nat.min_eq_left hlen]

theorem consumeBytes (hb : b.WellFormed) {len : Nat} (hlen : len ≤ b.readableBytes) :
    (b.consumeBytes len).WellFormed ∧ (b.consumeBytes len).readable = b.readable.drop len := by
  have hsize := hb.write_le_size
  have hlength := hb.length_readable
  simp only [MessageBuffer.consumeBytes]
  split
  · next hlt =>
      simp only [readableBytes] at hlt
      refine ⟨⟨by simp only; omega, hsize⟩, ?_⟩
      simp only [readable, List.drop_drop]
  · next hge =>
      refine ⟨⟨Nat.le_refl _, Nat.zero_le _⟩, ?_⟩
      have hempty : b.readable.drop len = [] := List.drop_eq_nil_of_le (by omega)
      rw [hempty]
      simp only [resetBuffer, readable, List.take_zero, List.drop_zero]

theorem readDone (hb : b.WellFormed) {len : Nat} (hlen : len ≤ b.readableBytes) :
    (b.readDone len).WellFormed ∧ (b.readDone len).readable = b.readable.drop len := by
  have horder := hb.read_le_write
  simp only [readableBytes] at hlen
  refine ⟨⟨by simp only [MessageBuffer.readDone]; omega, hb.write_le_size⟩, ?_⟩
  simp only [MessageBuffer.readDone, readable, List.drop_drop]

/-- Bytes copied to the write pointer become readable as far as `WriteDone` then
counts them. -/
theorem copyToWritPointer (hb : b.WellFormed) {data : Bytes}
    (hdata : data.length ≤ b.writableBytes) {len : Nat} (hlen : len ≤ data.length) :
    ∃ b', b.copyToWritPointer data = some b' ∧ (b'.writeDone len).WellFormed ∧
      (b'.writeDone len).readable = b.readable ++ data.take len := by
  have horder := hb.read_le_write
  have hsize := hb.write_le_size
  simp only [writableBytes] at hdata
  have hinside : b.writeIndex + data.length ≤ b.buffer.length := by omega
  obtain ⟨buffer, hstore, hlength, htake⟩ := Bytes.store_spec hinside
  refine ⟨{ b with buffer }, ?_, ⟨?_, ?_⟩, ?_⟩
  · rw [MessageBuffer.copyToWritPointer, hstore, Option.map_some]
  · simp only [writeDone]
    omega
  · simp only [writeDone]
    omega
  · simp only [writeDone, readable]
    rw [htake len hlen, List.drop_append_of_le_length]
    rw [List.length_take]
    omega

theorem makeSpace (hb : b.WellFormed) (len : Nat) :
    ∃ b', b.makeSpace len = some b' ∧ b'.WellFormed ∧ b'.readable = b.readable ∧
      len ≤ b'.writableBytes := by
  have horder := hb.read_le_write
  have hsize := hb.write_le_size
  have hlength := hb.length_readable
  simp only [MessageBuffer.makeSpace]
  split
  · next hshort =>
      refine ⟨_, rfl, ⟨horder, ?_⟩, ?_, ?_⟩
      · simp only [Bytes.length_resize]
        omega
      · simp only [readable]
        rw [Bytes.take_resize (Nat.le_add_right _ _) hsize]
      · simp only [writableBytes, Bytes.length_resize]
        omega
  · next hroom =>
      have hload := hb.copyFromReadPointer (Nat.le_refl b.readableBytes)
      rw [List.take_of_length_le (Nat.le_of_eq hlength)] at hload
      have hinside : 0 + b.readable.length ≤ b.buffer.length := by
        simp only [readableBytes] at hlength
        omega
      obtain ⟨buffer, hstore, hkeep, htake⟩ := Bytes.store_spec hinside
      have hfront := htake b.readable.length (Nat.le_refl _)
      rw [List.take_zero, List.nil_append, List.take_length, Nat.zero_add, hlength] at hfront
      refine ⟨⟨0, b.readableBytes, buffer⟩, ?_, ⟨Nat.zero_le _, ?_⟩, ?_, ?_⟩
      · rw [hload, Option.bind_some, hstore, Option.map_some]
      · simp only [readableBytes]
        omega
      · simp only [readable, List.drop_zero]
        exact hfront
      · simp only [writableBytes, readableBytes] at hroom ⊢
        omega

theorem ensureWritableBytes (hb : b.WellFormed) (len : Nat) :
    ∃ b', b.ensureWritableBytes len = some b' ∧ b'.WellFormed ∧ b'.readable = b.readable ∧
      len ≤ b'.writableBytes := by
  simp only [MessageBuffer.ensureWritableBytes]
  split
  · exact hb.makeSpace len
  · next hroom => exact ⟨b, rfl, hb, rfl, Nat.le_of_not_lt hroom⟩

theorem write (hb : b.WellFormed) (data : Bytes) :
    ∃ b', b.write data = some b' ∧ b'.WellFormed ∧ b'.readable = b.readable ++ data := by
  obtain ⟨roomy, hensure, hroomy, hsame, hroom⟩ := hb.ensureWritableBytes data.length
  obtain ⟨b', hcopy, hb', hreadable⟩ := hroomy.copyToWritPointer hroom (Nat.le_refl _)
  refine ⟨b'.writeDone data.length, ?_, hb', ?_⟩
  · rw [MessageBuffer.write, hensure, Option.bind_some, hcopy, Option.map_some]
  · rw [hreadable, hsame, List.take_length]

theorem shrink (hb : b.WellFormed) (reserve : Nat) :
    ∃ b', b.shrink reserve = some b' ∧ b'.WellFormed ∧ b'.readable = b.readable := by
  obtain ⟨other, hensure, hother, hempty, -⟩ :=
    (wellFormed_create INITIAL_BUFFER_SIZE).ensureWritableBytes (b.readableBytes + reserve)
  have hload := hb.copyFromReadPointer (Nat.le_refl b.readableBytes)
  rw [List.take_of_length_le (Nat.le_of_eq hb.length_readable)] at hload
  obtain ⟨b', hwrite, hb', hreadable⟩ := hother.write b.readable
  refine ⟨b', ?_, hb', ?_⟩
  · rw [MessageBuffer.shrink, hensure, Option.bind_some, hload, Option.bind_some, hwrite]
  · rw [hreadable, hempty, readable_create, List.nil_append]

/-- The reading operations: copy the front out, then consume it. -/
theorem readAsString (hb : b.WellFormed) {len : Nat} (hlen : len ≤ b.readableBytes) :
    ∃ b', b.readAsString len = some (b', b.readable.take len) ∧ b'.WellFormed ∧
      b'.readable = b.readable.drop len := by
  have hload := hb.copyFromReadPointer hlen
  have hconsume := hb.consumeBytes hlen
  refine ⟨b.consumeBytes len, ?_, hconsume⟩
  rw [MessageBuffer.readAsString, hload, Option.map_some]

theorem read (hb : b.WellFormed) {len : Nat} (hlen : len ≤ b.readableBytes) :
    ∃ b', b.read len = some (b', b.readable.take len) ∧ b'.WellFormed ∧
      b'.readable = b.readable.drop len := by
  simp only [MessageBuffer.read, Nat.min_eq_left hlen]
  exact hb.readAsString hlen

end WellFormed

end MessageBuffer

end GameDemoLearn.Net
