import GameDemoLearn.Lib.Transducer
import GameDemoLearn.Net.Http.PicoHttpParser

/-!
`phr_decode_chunked` (`picohttpparser.c`): a body in chunked coding is decoded in the buffer in
which it arrives, the data moved to the front over the chunk headers. `none` stands for an
access outside the buffer. The decoding is compared with a machine that reads the body byte by
byte and writes the data elsewhere.
-/

namespace GameDemoLearn.Net.Http

open Transducer

inductive ChunkedState
  | inChunkSize
  | inChunkExt
  | inChunkData
  | inChunkCrlf
  | inTrailersLineHead
  | inTrailersLineMiddle
  deriving DecidableEq

/-- `phr_chunked_decoder`. -/
structure ChunkedDecoder where
  bytesLeftInChunk : Nat
  consumeTrailer : Bool
  hexCount : Nat
  state : ChunkedState
  deriving DecidableEq

/-- A decoder that is zero-filled apart from `consume_trailer`. -/
def ChunkedDecoder.create (consumeTrailer : Bool) : ChunkedDecoder :=
  ⟨0, consumeTrailer, 0, .inChunkSize⟩

/-- `decode_hex`, with `none` for -1. -/
def decodeHex (ch : UInt8) : Option Nat :=
  if 48 ≤ ch ∧ ch ≤ 57 then some (ch.toNat - 48)
  else if 65 ≤ ch ∧ ch ≤ 70 then some (ch.toNat - 65 + 10)
  else if 97 ≤ ch ∧ ch ≤ 102 then some (ch.toNat - 97 + 10)
  else none

/-- The most digits of a chunk size: `sizeof(size_t) * 2`. -/
def maxHexCount : Nat := 16

/-- The local variables of `phr_decode_chunked`. -/
structure Decoding where
  decoder : ChunkedDecoder
  buf : Bytes
  dst : Nat
  src : Nat
  deriving DecidableEq

inductive DecodeError
  | incomplete
  | malformed
  deriving DecidableEq

/-- The value of `ret` at the label `Exit`. -/
def DecodeError.ret : DecodeError → Int
  | .incomplete => -2
  | .malformed => -1

/-- How a pass through the switch ends: at a `break`, at `goto Exit` or at `goto Complete`. -/
inductive Jump
  | again (d : Decoding)
  | exit (error : DecodeError) (d : Decoding)
  | complete (d : Decoding)

/-- `memmove(buf + dst, buf + src, n)`. -/
def memmove (buf : Bytes) (dst src n : Nat) : Option Bytes :=
  (buf.load src n).bind (buf.store dst)

/-- `if (dst != src) memmove(buf + dst, buf + src, n)`. -/
def memmoveApart (buf : Bytes) (dst src n : Nat) : Option Bytes :=
  if dst ≠ src then memmove buf dst src n else some buf

namespace Decoding

def bufsz (d : Decoding) : Nat := d.buf.length

/-- `for (;; ++src)` up to the end of the buffer or to a byte that ends the loop. -/
def skipTo (d : Decoding) (stop : UInt8 → Bool) : Option Decoding :=
  if d.src ≤ d.bufsz then
    some { d with src := d.src + ((d.buf.drop d.src).takeWhile fun c => !stop c).length }
  else none

def setState (d : Decoding) (state : ChunkedState) : Decoding :=
  { d with decoder := { d.decoder with state := state } }

/-- The next `n` bytes, which are data. -/
def moveData (d : Decoding) (n : Nat) : Option Decoding := do
  let buf ← memmoveApart d.buf d.dst d.src n
  pure { d with
    decoder := { d.decoder with bytesLeftInChunk := d.decoder.bytesLeftInChunk - n }
    buf := buf
    dst := d.dst + n
    src := d.src + n }

def inChunkCrlf (d : Decoding) : Option Jump := do
  let d ← d.skipTo fun c => c != CR
  if d.src = d.bufsz then
    pure (.exit .incomplete d)
  else
    let c ← d.buf[d.src]?
    if c ≠ LF then
      pure (.exit .malformed d)
    else
      pure (.again ({ d with src := d.src + 1 }.setState .inChunkSize))

def inChunkData (d : Decoding) : Option Jump := do
  let avail := d.bufsz - d.src
  if avail < d.decoder.bytesLeftInChunk then
    let d ← d.moveData avail
    pure (.exit .incomplete d)
  else
    let d ← d.moveData d.decoder.bytesLeftInChunk
    (d.setState .inChunkCrlf).inChunkCrlf

def inChunkExt (d : Decoding) : Option Jump := do
  let d ← d.skipTo fun c => c == LF
  if d.src = d.bufsz then
    pure (.exit .incomplete d)
  else
    let d := { d with src := d.src + 1 }
    if d.decoder.bytesLeftInChunk = 0 then
      if d.decoder.consumeTrailer then
        pure (.again (d.setState .inTrailersLineHead))
      else
        pure (.complete d)
    else
      (d.setState .inChunkData).inChunkData

/-- The loop over the digits of a chunk size, and the error with which it leaves the switch. -/
def readSize (decoder : ChunkedDecoder) (src : Nat) :
    Bytes → ChunkedDecoder × Nat × Option DecodeError
  | [] => (decoder, src, some .incomplete)
  | c :: rest =>
      match decodeHex c with
      | none => (decoder, src, if decoder.hexCount = 0 then some .malformed else none)
      | some v =>
          if decoder.hexCount = maxHexCount then
            (decoder, src, some .malformed)
          else
            readSize { decoder with
              bytesLeftInChunk := (decoder.bytesLeftInChunk * 16 + v) % 2 ^ 64
              hexCount := decoder.hexCount + 1 } (src + 1) rest

def inChunkSize (d : Decoding) : Option Jump :=
  if d.src ≤ d.bufsz then
    let (decoder, src, error?) := readSize d.decoder d.src (d.buf.drop d.src)
    let d := { d with decoder := decoder, src := src }
    match error? with
    | some error => some (.exit error d)
    | none =>
        ({ d with decoder := { decoder with hexCount := 0 } }.setState .inChunkExt).inChunkExt
  else none

def inTrailersLineMiddle (d : Decoding) : Option Jump := do
  let d ← d.skipTo fun c => c == LF
  if d.src = d.bufsz then
    pure (.exit .incomplete d)
  else
    pure (.again ({ d with src := d.src + 1 }.setState .inTrailersLineHead))

def inTrailersLineHead (d : Decoding) : Option Jump := do
  let d ← d.skipTo fun c => c != CR
  if d.src = d.bufsz then
    pure (.exit .incomplete d)
  else
    let c ← d.buf[d.src]?
    let d := { d with src := d.src + 1 }
    if c = LF then
      pure (.complete d)
    else
      (d.setState .inTrailersLineMiddle).inTrailersLineMiddle

/-- One pass through `switch (decoder->_state)`. -/
def pass (d : Decoding) : Option Jump :=
  match d.decoder.state with
  | .inChunkSize => d.inChunkSize
  | .inChunkExt => d.inChunkExt
  | .inChunkData => d.inChunkData
  | .inChunkCrlf => d.inChunkCrlf
  | .inTrailersLineHead => d.inTrailersLineHead
  | .inTrailersLineMiddle => d.inTrailersLineMiddle

end Decoding

/-- What `phr_decode_chunked` returns and leaves in `*decoder`, in the buffer and in
`*_bufsz`. -/
structure ChunkedCall where
  ret : Int
  decoder : ChunkedDecoder
  buf : Bytes
  bufsz : Nat
  deriving DecidableEq

/-- The code behind the label `Exit`. -/
def Decoding.finish (d : Decoding) (ret : Int) : Option ChunkedCall := do
  let buf ← memmoveApart d.buf d.dst d.src (d.bufsz - d.src)
  pure ⟨ret, d.decoder, buf, d.dst⟩

/-- `while (1)`, with at most `fuel` passes. -/
def Decoding.loop : (fuel : Nat) → Decoding → Option ChunkedCall
  | 0, _ => none
  | fuel + 1, d => do
      match ← d.pass with
      | .again d => d.loop fuel
      | .exit error d => d.finish error.ret
      | .complete d => d.finish (d.bufsz - d.src : Nat)

def phrDecodeChunked (decoder : ChunkedDecoder) (buf : Bytes) : Option ChunkedCall :=
  Decoding.loop (buf.length + 1) ⟨decoder, buf, 0, 0⟩

def phrDecodeChunkedIsInData (decoder : ChunkedDecoder) : Bool :=
  decoder.state = .inChunkData

namespace ChunkedDecoder

/-- A byte of a chunk extension. -/
def readExt (decoder : ChunkedDecoder) (c : UInt8) : Move ChunkedDecoder UInt8 :=
  if c = LF then
    if decoder.bytesLeftInChunk = 0 then
      if decoder.consumeTrailer then
        .go { decoder with state := .inTrailersLineHead } []
      else
        .stop decoder
    else
      .go { decoder with state := .inChunkData } []
  else
    .go decoder []

/-- The decoding byte by byte, with sizes of any magnitude. -/
def readByte (decoder : ChunkedDecoder) (c : UInt8) : Move ChunkedDecoder UInt8 :=
  match decoder.state with
  | .inChunkSize =>
      match decodeHex c with
      | none =>
          if decoder.hexCount = 0 then
            .fail decoder
          else
            readExt { decoder with hexCount := 0, state := .inChunkExt } c
      | some v =>
          if decoder.hexCount = maxHexCount then
            .fail decoder
          else
            .go { decoder with
              bytesLeftInChunk := decoder.bytesLeftInChunk * 16 + v
              hexCount := decoder.hexCount + 1 } []
  | .inChunkExt => readExt decoder c
  | .inChunkData =>
      if decoder.bytesLeftInChunk = 1 then
        .go { decoder with bytesLeftInChunk := 0, state := .inChunkCrlf } [c]
      else
        .go { decoder with bytesLeftInChunk := decoder.bytesLeftInChunk - 1 } [c]
  | .inChunkCrlf =>
      if c = CR then .go decoder []
      else if c = LF then .go { decoder with state := .inChunkSize } []
      else .fail decoder
  | .inTrailersLineHead =>
      if c = CR then .go decoder []
      else if c = LF then .stop decoder
      else .go { decoder with state := .inTrailersLineMiddle } []
  | .inTrailersLineMiddle =>
      if c = LF then .go { decoder with state := .inTrailersLineHead } []
      else .go decoder []

/-- A size that is being read has no more digits than have been counted, and data is read only
where some is left. -/
structure WellFormed (decoder : ChunkedDecoder) : Prop where
  hexCount_le : decoder.hexCount ≤ maxHexCount
  line : decoder.state ≠ .inChunkSize → decoder.hexCount = 0
  size : decoder.state = .inChunkSize → decoder.bytesLeftInChunk < 16 ^ decoder.hexCount
  data : decoder.state = .inChunkData → 0 < decoder.bytesLeftInChunk
  crlf : decoder.state = .inChunkCrlf → decoder.bytesLeftInChunk = 0

/-- In the lines between sizes and data nothing is left of a size but its value. -/
theorem WellFormed.of_line {decoder : ChunkedDecoder} (hcount : decoder.hexCount = 0)
    (hstate : decoder.state = .inChunkExt ∨ decoder.state = .inTrailersLineHead ∨
      decoder.state = .inTrailersLineMiddle) : decoder.WellFormed := by
  obtain ⟨left, trailer, count, state⟩ := decoder
  refine ⟨hcount.trans_le (Nat.zero_le _), fun _ => hcount, ?_, ?_, ?_⟩
  all_goals
    intro h
    cases h
    simp at hstate

theorem wellFormed_create (consumeTrailer : Bool) : (create consumeTrailer).WellFormed where
  hexCount_le := Nat.zero_le _
  line _ := rfl
  size _ := Nat.one_pos
  data h := by cases h
  crlf h := by cases h

theorem decodeHex_lt {c : UInt8} {v : Nat} (hc : decodeHex c = some v) : v < 16 := by
  unfold decodeHex at hc
  split at hc
  case isTrue hdigit =>
    have hle : c.toNat ≤ 57 := hdigit.2
    cases hc
    omega
  case isFalse =>
    split at hc
    case isTrue hupper =>
      have hle : c.toNat ≤ 70 := hupper.2
      cases hc
      omega
    case isFalse =>
      split at hc
      case isTrue hlower =>
        have hle : c.toNat ≤ 102 := hlower.2
        cases hc
        omega
      case isFalse => cases hc

variable {decoder : ChunkedDecoder} {c : UInt8}

/-- One more digit keeps the size below what its digits can say. -/
theorem size_lt {v : Nat} (hsize : decoder.bytesLeftInChunk < 16 ^ decoder.hexCount) (hv : v < 16) :
    decoder.bytesLeftInChunk * 16 + v < 16 ^ (decoder.hexCount + 1) := by
  rw [pow_succ]
  omega

/-- No size overflows. -/
theorem size_lt_two_pow (hdecoder : decoder.WellFormed) (hstate : decoder.state = .inChunkSize)
    (hcount : decoder.hexCount ≠ maxHexCount) {v : Nat} (hc : decodeHex c = some v) :
    decoder.bytesLeftInChunk * 16 + v < 2 ^ 64 := by
  have hlt := size_lt (hdecoder.size hstate) (decodeHex_lt hc)
  have hle : decoder.hexCount + 1 ≤ 16 := by
    have := hdecoder.hexCount_le
    unfold maxHexCount at this hcount
    omega
  calc
    decoder.bytesLeftInChunk * 16 + v < 16 ^ (decoder.hexCount + 1) := hlt
    _ ≤ 16 ^ 16 := Nat.pow_le_pow_right (by omega) hle
    _ = 2 ^ 64 := by norm_num

section States

theorem readByte_size (hstate : decoder.state = .inChunkSize) (c : UInt8) :
    decoder.readByte c =
      match decodeHex c with
      | none =>
          if decoder.hexCount = 0 then
            .fail decoder
          else
            readExt { decoder with hexCount := 0, state := .inChunkExt } c
      | some v =>
          if decoder.hexCount = maxHexCount then
            .fail decoder
          else
            .go { decoder with
              bytesLeftInChunk := decoder.bytesLeftInChunk * 16 + v
              hexCount := decoder.hexCount + 1 } [] := by
  simp only [readByte, hstate]

theorem readByte_ext (hstate : decoder.state = .inChunkExt) (c : UInt8) :
    decoder.readByte c = decoder.readExt c := by
  simp only [readByte, hstate]

theorem readByte_data (hstate : decoder.state = .inChunkData) (c : UInt8) :
    decoder.readByte c =
      if decoder.bytesLeftInChunk = 1 then
        .go { decoder with bytesLeftInChunk := 0, state := .inChunkCrlf } [c]
      else
        .go { decoder with bytesLeftInChunk := decoder.bytesLeftInChunk - 1 } [c] := by
  simp only [readByte, hstate]

theorem readByte_crlf (hstate : decoder.state = .inChunkCrlf) (c : UInt8) :
    decoder.readByte c =
      if c = CR then .go decoder []
      else if c = LF then .go { decoder with state := .inChunkSize } []
      else .fail decoder := by
  simp only [readByte, hstate]

theorem readByte_head (hstate : decoder.state = .inTrailersLineHead) (c : UInt8) :
    decoder.readByte c =
      if c = CR then .go decoder []
      else if c = LF then .stop decoder
      else .go { decoder with state := .inTrailersLineMiddle } [] := by
  simp only [readByte, hstate]

theorem readByte_middle (hstate : decoder.state = .inTrailersLineMiddle) (c : UInt8) :
    decoder.readByte c =
      if c = LF then .go { decoder with state := .inTrailersLineHead } []
      else .go decoder [] := by
  simp only [readByte, hstate]

end States

theorem wellFormed_readExt (hdecoder : decoder.WellFormed) (hcount : decoder.hexCount = 0)
    (c : UInt8) : (decoder.readExt c).next.WellFormed := by
  unfold readExt
  split
  case isTrue =>
    split
    case isTrue =>
      split
      · exact .of_line hcount (.inr (.inl rfl))
      · exact hdecoder
    case isFalse hpos =>
      refine ⟨hdecoder.hexCount_le, fun _ => hcount, ?_, fun _ => Nat.pos_of_ne_zero hpos, ?_⟩
      all_goals
        intro h
        cases h
  case isFalse => exact hdecoder

/-- One more digit. -/
theorem wellFormed_digit (hdecoder : decoder.WellFormed) (hstate : decoder.state = .inChunkSize)
    (hcount : decoder.hexCount ≠ maxHexCount) {v : Nat} (hv : v < 16) :
    ({ decoder with
      bytesLeftInChunk := decoder.bytesLeftInChunk * 16 + v
      hexCount := decoder.hexCount + 1 } : ChunkedDecoder).WellFormed := by
  refine ⟨Nat.lt_of_le_of_ne hdecoder.hexCount_le hcount, fun h => absurd hstate h, ?_, ?_, ?_⟩
  · intro _
    exact size_lt (hdecoder.size hstate) hv
  · intro h
    cases hstate.symm.trans h
  · intro h
    cases hstate.symm.trans h

/-- No byte takes a decoder out of its invariant. -/
theorem wellFormed_readByte (hdecoder : decoder.WellFormed) (c : UInt8) :
    (decoder.readByte c).next.WellFormed := by
  have hle := hdecoder.hexCount_le
  cases hstate : decoder.state with
  | inChunkSize =>
      rw [readByte_size hstate]
      cases hdigit : decodeHex c with
      | none =>
          dsimp only
          split
          · exact hdecoder
          · exact wellFormed_readExt (.of_line rfl (.inl rfl)) rfl c
      | some v =>
          dsimp only
          split
          case isTrue => exact hdecoder
          case isFalse hroom => exact wellFormed_digit hdecoder hstate hroom (decodeHex_lt hdigit)
  | inChunkExt =>
      rw [readByte_ext hstate]
      exact wellFormed_readExt hdecoder (hdecoder.line (by simp [hstate])) c
  | inChunkData =>
      have hpos := hdecoder.data hstate
      have hcount := hdecoder.line (by simp [hstate])
      rw [readByte_data hstate]
      split
      case isTrue =>
        refine ⟨hle, fun _ => hcount, ?_, ?_, fun _ => rfl⟩
        all_goals
          intro h
          cases h
      case isFalse hmore =>
        refine ⟨hle, fun _ => hcount, ?_, fun _ => ?_, ?_⟩
        · intro h
          cases hstate.symm.trans h
        · change 0 < decoder.bytesLeftInChunk - 1
          omega
        · intro h
          cases hstate.symm.trans h
  | inChunkCrlf =>
      rw [readByte_crlf hstate]
      split
      case isTrue => exact hdecoder
      case isFalse =>
        split
        case isTrue =>
          refine ⟨hle, fun h => absurd rfl h, fun _ => ?_, ?_, ?_⟩
          · change decoder.bytesLeftInChunk < 16 ^ decoder.hexCount
            rw [hdecoder.crlf hstate]
            exact Nat.pow_pos (by omega)
          · intro h
            cases h
          · intro h
            cases h
        case isFalse => exact hdecoder
  | inTrailersLineHead =>
      have hcount := hdecoder.line (by simp [hstate])
      rw [readByte_head hstate]
      split
      · exact hdecoder
      · split
        · exact hdecoder
        · exact .of_line hcount (.inr (.inr rfl))
  | inTrailersLineMiddle =>
      have hcount := hdecoder.line (by simp [hstate])
      rw [readByte_middle hstate]
      split
      · exact .of_line hcount (.inr (.inl rfl))
      · exact hdecoder

theorem wellFormed_go {next : ChunkedDecoder} {out : Bytes} (hdecoder : decoder.WellFormed)
    (hgo : decoder.readByte c = .go next out) : next.WellFormed := by
  have hnext := wellFormed_readByte hdecoder c
  rw [hgo] at hnext
  exact hnext

theorem wellFormed_feed (hdecoder : decoder.WellFormed) (text : Bytes) :
    (feed readByte decoder text).state.WellFormed :=
  feed_invariant WellFormed (fun _ c h => wellFormed_readByte h c) hdecoder

/-- Data that does not fill the chunk. -/
theorem feed_data (data rest : Bytes) (hstate : decoder.state = .inChunkData)
    (hlt : data.length < decoder.bytesLeftInChunk) :
    feed readByte decoder (data ++ rest) =
      (feed readByte { decoder with
        bytesLeftInChunk := decoder.bytesLeftInChunk - data.length } rest).after data := by
  induction data generalizing decoder with
  | nil => rfl
  | cons c data ih =>
      rw [List.length_cons] at hlt
      have hgo := readByte_data hstate c
      rw [if_neg (by omega)] at hgo
      have hrest := @ih { decoder with bytesLeftInChunk := decoder.bytesLeftInChunk - 1 } hstate
        (Nat.lt_sub_of_add_lt hlt)
      rw [List.cons_append, feed_cons_go hgo, hrest, Reading.after_after, List.length_cons,
        Nat.sub_sub, Nat.add_comm 1]
      rfl

/-- The data of the rest of a chunk. -/
theorem feed_chunk {data : Bytes} (rest : Bytes) (hstate : decoder.state = .inChunkData)
    (hpos : 0 < decoder.bytesLeftInChunk) (hlength : data.length = decoder.bytesLeftInChunk) :
    feed readByte decoder (data ++ rest) =
      (feed readByte { decoder with bytesLeftInChunk := 0, state := .inChunkCrlf } rest).after
        data := by
  obtain ⟨front, last, rfl⟩ : ∃ front last, data = front ++ [last] := by
    rcases List.eq_nil_or_concat' data with rfl | hsplit
    · rw [List.length_nil] at hlength
      omega
    · exact hsplit
  rw [List.length_append, List.length_singleton] at hlength
  rw [List.append_assoc, feed_data _ _ hstate (by omega)]
  have hlast : decoder.bytesLeftInChunk - front.length = 1 := by omega
  have hstate' : ({ decoder with
      bytesLeftInChunk := decoder.bytesLeftInChunk - front.length } : ChunkedDecoder).state =
      .inChunkData := hstate
  have hgo := readByte_data hstate' last
  rw [if_pos hlast] at hgo
  rw [List.singleton_append, feed_cons_go hgo, Reading.after_after]

end ChunkedDecoder

end GameDemoLearn.Net.Http
