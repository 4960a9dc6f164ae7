import GameDemoLearn.Net.Http.ChunkedDecoder

/-!
The decoding in place does what the machine does that reads byte by byte: the data it moves to
the front of the buffer never reaches what it has not read.
-/

namespace GameDemoLearn.Net.Http

open Transducer

namespace Decoding

open ChunkedDecoder

variable {d : Decoding}

/-- What the decoding will have made of its buffer. -/
def reading (d : Decoding) : Reading ChunkedDecoder UInt8 UInt8 :=
  (feed readByte d.decoder (d.buf.drop d.src)).after (d.buf.take d.dst)

structure Inside (d : Decoding) : Prop where
  dst_le : d.dst ≤ d.src
  src_le : d.src ≤ d.bufsz

end Decoding

open ChunkedDecoder Decoding

def DecodeError.verdict : DecodeError → Verdict
  | .incomplete => .more
  | .malformed => .failed

namespace Jump

def decoding : Jump → Decoding
  | .again d => d
  | .exit _ d => d
  | .complete d => d

def reading : Jump → Reading ChunkedDecoder UInt8 UInt8
  | .again d => d.reading
  | .exit error d => ⟨d.decoder, d.buf.take d.dst, error.verdict, d.buf.drop d.src⟩
  | .complete d => ⟨d.decoder, d.buf.take d.dst, .done, d.buf.drop d.src⟩

/-- A jump from a decoding: nothing of what will have been made of the buffer changes, and the
decoding goes on further back in the buffer. -/
structure Continues (d : Decoding) (j : Jump) : Prop where
  reading : j.reading = d.reading
  inside : j.decoding.Inside
  bufsz : j.decoding.bufsz = d.bufsz
  wellFormed : j.decoding.decoder.WellFormed
  forward : ∀ d', j = .again d' → d.src < d'.src

theorem Continues.of_earlier {d d' : Decoding} {j : Jump} (hj : Continues d' j)
    (hreading : d'.reading = d.reading) (hbufsz : d'.bufsz = d.bufsz) (hsrc : d.src ≤ d'.src) :
    Continues d j where
  reading := hj.reading.trans hreading
  inside := hj.inside
  bufsz := hj.bufsz.trans hbufsz
  wellFormed := hj.wellFormed
  forward d'' hagain := hsrc.trans_lt (hj.forward d'' hagain)

end Jump

namespace Decoding

open ChunkedDecoder Jump

variable {d : Decoding}

theorem reading_of_end (hend : d.src = d.bufsz) :
    d.reading = ⟨d.decoder, d.buf.take d.dst, .more, d.buf.drop d.src⟩ := by
  have hdrop : d.buf.drop d.src = [] := by
    rw [hend]
    exact List.drop_length
  rw [reading, hdrop, feed]
  simp only [Reading.after, List.append_nil]

/-- Where the buffer ends, the decoding waits for more. -/
theorem continues_incomplete (hd : d.Inside) (hdecoder : d.decoder.WellFormed)
    (hend : d.src = d.bufsz) : Continues d (.exit .incomplete d) where
  reading := (reading_of_end hend).symm
  inside := hd
  bufsz := rfl
  wellFormed := hdecoder
  forward d' h := by cases h

/-- One byte that is passed over. -/
theorem reading_step {c : UInt8} {decoder : ChunkedDecoder}
    (hdrop : d.buf.drop d.src = c :: d.buf.drop (d.src + 1))
    (hgo : readByte d.decoder c = .go decoder []) :
    ({ d with decoder := decoder, src := d.src + 1 } : Decoding).reading = d.reading := by
  rw [reading, reading, hdrop, feed_cons_go hgo, Reading.after_nil]

/-- What a loop of the form `for (;; ++src)` finds. -/
structure Found (d : Decoding) (stop : UInt8 → Bool) (src : Nat) : Prop where
  skipTo : d.skipTo stop = some { d with src := src }
  le : d.src ≤ src
  le_bufsz : src ≤ d.bufsz
  reading : ({ d with src := src } : Decoding).reading = d.reading
  stopped : src ≠ d.bufsz → ∃ c, d.buf[src]? = some c ∧ stop c = true ∧
    d.buf.drop src = c :: d.buf.drop (src + 1)

theorem exists_found (stop : UInt8 → Bool) (hd : d.Inside)
    (hskip : ∀ c, stop c = false → readByte d.decoder c = .go d.decoder []) :
    ∃ src, d.Found stop src := by
  have hsplit := List.takeWhile_append_dropWhile (p := fun c => !stop c) (l := d.buf.drop d.src)
  generalize htaken : ((d.buf.drop d.src).takeWhile fun c => !stop c) = taken at hsplit
  generalize hleft : ((d.buf.drop d.src).dropWhile fun c => !stop c) = left at hsplit
  have hlength : taken.length + left.length = d.bufsz - d.src := by
    rw [← List.length_append, hsplit, List.length_drop, bufsz]
  have hdrop : d.buf.drop (d.src + taken.length) = left := by
    rw [← List.drop_drop, ← hsplit, List.drop_left]
  refine ⟨d.src + taken.length, ?_, Nat.le_add_right _ _, ?_, ?_, ?_⟩
  case refine_1 => rw [skipTo, if_pos hd.src_le, htaken]
  case refine_2 =>
    have := hd.src_le
    omega
  case refine_3 =>
    have hall : ∀ c ∈ taken, readByte d.decoder c = .go d.decoder [] := by
      intro c hc
      rw [← htaken] at hc
      exact hskip c (by simpa using List.mem_takeWhile_imp hc)
    rw [reading, reading, hdrop, ← hsplit, feed_skip hall]
  case refine_4 =>
    intro hne
    cases left with
    | nil =>
        have := hd.src_le
        rw [List.length_nil] at hlength
        omega
    | cons c left =>
        have hstop : stop c = true := by
          have hhead := List.head?_dropWhile_not (fun c => !stop c) (d.buf.drop d.src)
          rw [hleft] at hhead
          simpa using hhead
        have hget : d.buf[d.src + taken.length]? = some c := by
          rw [← List.head?_drop, hdrop, List.head?_cons]
        have hnext : d.buf.drop (d.src + taken.length + 1) = left := by
          rw [← List.drop_drop, hdrop, List.drop_one, List.tail_cons]
        exact ⟨c, hget, hstop, hdrop.trans (by rw [hnext])⟩

section Found

variable {stop : UInt8 → Bool} {src : Nat}

theorem Found.inside (hfound : d.Found stop src) (hd : d.Inside) :
    ({ d with src := src } : Decoding).Inside :=
  ⟨hd.dst_le.trans hfound.le, hfound.le_bufsz⟩

theorem Found.continues (hfound : d.Found stop src) {j : Jump}
    (hj : Continues { d with src := src } j) : Continues d j :=
  hj.of_earlier hfound.reading rfl hfound.le

/-- The step over the byte at which a loop stopped. -/
theorem Found.reading_step (hfound : d.Found stop src) (hne : src ≠ d.bufsz) {c : UInt8}
    {decoder : ChunkedDecoder} (hc : d.buf[src]? = some c)
    (hgo : readByte d.decoder c = .go decoder []) :
    ({ d with decoder := decoder, src := src + 1 } : Decoding).reading = d.reading := by
  obtain ⟨c', hc', -, hdrop⟩ := hfound.stopped hne
  obtain rfl : c = c' := Option.some.inj (hc.symm.trans hc')
  rw [← hfound.reading]
  exact Decoding.reading_step (d := { d with src := src }) hdrop hgo

/-- The place behind the byte at which a loop stopped. -/
theorem Found.behind (hfound : d.Found stop src) (hd : d.Inside) (hne : src ≠ d.bufsz) :
    ({ d with src := src + 1 } : Decoding).Inside :=
  ⟨(hd.dst_le.trans hfound.le).trans (Nat.le_succ src), Nat.lt_of_le_of_ne hfound.le_bufsz hne⟩

/-- The end of the coding behind the byte at which a loop stopped. -/
theorem Found.continues_complete (hfound : d.Found stop src) (hd : d.Inside)
    (hdecoder : d.decoder.WellFormed) (hne : src ≠ d.bufsz) {c : UInt8}
    (hc : d.buf[src]? = some c) (hstopped : readByte d.decoder c = .stop d.decoder) :
    Continues d (.complete { d with src := src + 1 }) := by
  obtain ⟨c', hc', -, hdrop⟩ := hfound.stopped hne
  obtain rfl : c = c' := Option.some.inj (hc.symm.trans hc')
  refine ⟨?_, hfound.behind hd hne, rfl, hdecoder, fun d' h => by cases h⟩
  rw [← hfound.reading, Decoding.reading, hdrop, feed_cons_stop hstopped]
  simp only [Jump.reading, Reading.after, List.append_nil]

end Found

theorem inChunkCrlf_continues (hd : d.Inside) (hdecoder : d.decoder.WellFormed)
    (hstate : d.decoder.state = .inChunkCrlf) :
    ∃ j, d.inChunkCrlf = some j ∧ Continues d j := by
  have hread := readByte_crlf hstate
  have hskip : ∀ c, (c != CR) = false → readByte d.decoder c = .go d.decoder [] := by
    intro c hc
    rw [hread, if_pos (by simpa using hc)]
  obtain ⟨src, hfound⟩ := exists_found (fun c => c != CR) hd hskip
  simp only [inChunkCrlf, hfound.skipTo, Option.bind_eq_bind, Option.bind_some]
  by_cases hend : src = d.bufsz
  case pos =>
    rw [if_pos (by exact hend)]
    exact ⟨_, rfl, hfound.continues (continues_incomplete (hfound.inside hd) hdecoder hend)⟩
  case neg =>
    obtain ⟨c, hc, hstop, hdrop⟩ := hfound.stopped hend
    have hne : ¬ c = CR := by simpa using hstop
    rw [if_neg (by exact hend), hc, Option.bind_some]
    by_cases hlf : c = LF
    case pos =>
      rw [if_neg (not_not_intro hlf)]
      have hgo : readByte d.decoder c = .go { d.decoder with state := .inChunkSize } [] := by
        rw [hread, if_neg hne, if_pos hlf]
      have hbehind := hfound.behind hd hend
      refine ⟨_, rfl, hfound.reading_step hend hc hgo, ⟨hbehind.dst_le, hbehind.src_le⟩, rfl,
        ?_, ?_⟩
      case refine_1 => exact wellFormed_go hdecoder hgo
      case refine_2 =>
        rintro d' ⟨⟩
        exact Nat.lt_succ_of_le hfound.le
    case neg =>
      rw [if_pos hlf]
      have hfail : readByte d.decoder c = .fail d.decoder := by
        rw [hread, if_neg hne, if_neg hlf]
      refine ⟨_, rfl, ?_, hfound.inside hd, rfl, hdecoder, fun d' h => by cases h⟩
      rw [← hfound.reading, Decoding.reading, hdrop, feed_cons_fail hfail]
      simp only [Jump.reading, DecodeError.verdict, Reading.after, List.append_nil, hdrop]

/-- The buffer after a move towards the front. -/
theorem memmoveApart_spec {buf : Bytes} {dst src n : Nat} (hdst : dst ≤ src)
    (hsrc : src + n ≤ buf.length) :
    ∃ buf', memmoveApart buf dst src n = some buf' ∧
      buf'.length = buf.length ∧
      buf'.take (dst + n) = buf.take dst ++ (buf.drop src).take n ∧
      buf'.drop (src + n) = buf.drop (src + n) := by
  by_cases hne : dst = src
  case pos =>
    subst hne
    refine ⟨buf, if_neg (not_not_intro rfl), rfl, ?_, rfl⟩
    rw [List.take_add]
  case neg =>
    have hload : buf.load src n = some ((buf.drop src).take n) := if_pos hsrc
    have hlength : ((buf.drop src).take n).length = n := Bytes.length_load hload
    have hinside : dst + ((buf.drop src).take n).length ≤ buf.length := by omega
    obtain ⟨buf', hstore, hsize, htake⟩ := Bytes.store_spec hinside
    refine ⟨buf', ?_, hsize, ?_, ?_⟩
    case refine_1 => rw [memmoveApart, if_pos hne, memmove, hload, Option.bind_some, hstore]
    case refine_2 =>
      have hall := htake n (Nat.le_of_eq hlength.symm)
      rw [List.take_of_length_le (Nat.le_of_eq hlength)] at hall
      exact hall
    case refine_3 =>
      apply List.ext_getElem?
      intro j
      rw [List.getElem?_drop, List.getElem?_drop, Bytes.getElem?_store hstore, if_neg (by omega)]

/-- The buffer and the places after `n` bytes of data. -/
structure Moved (d d' : Decoding) (n : Nat) : Prop where
  decoder : d'.decoder = { d.decoder with
    bytesLeftInChunk := d.decoder.bytesLeftInChunk - n }
  inside : d'.Inside
  bufsz : d'.bufsz = d.bufsz
  src : d'.src = d.src + n
  take : d'.buf.take d'.dst = d.buf.take d.dst ++ (d.buf.drop d.src).take n
  drop : d'.buf.drop d'.src = (d.buf.drop d.src).drop n

theorem moveData_spec (hd : d.Inside) {n : Nat} (hn : n ≤ d.bufsz - d.src) :
    ∃ d', d.moveData n = some d' ∧ d.Moved d' n := by
  have hdst := hd.dst_le
  have hsrc := hd.src_le
  have hsize : d.bufsz = d.buf.length := rfl
  obtain ⟨buf', hmove, hlength, htake, hdrop⟩ :=
    memmoveApart_spec hdst (show d.src + n ≤ d.buf.length by omega)
  refine ⟨{ d with
    decoder := { d.decoder with bytesLeftInChunk := d.decoder.bytesLeftInChunk - n }
    buf := buf'
    dst := d.dst + n
    src := d.src + n }, ?_, rfl, ⟨?_, ?_⟩, ?_, rfl, htake, ?_⟩
  case refine_1 =>
    simp only [moveData, hmove, Option.bind_eq_bind, Option.bind_some, Option.pure_def]
  case refine_2 => exact Nat.add_le_add_right hdst n
  case refine_3 =>
    change d.src + n ≤ buf'.length
    omega
  case refine_4 => exact hlength
  case refine_5 => exact hdrop.trans List.drop_drop.symm

/-- The chunk reaches behind the buffer: all there is belongs to it. -/
theorem Moved.continues_all {d' : Decoding} (hmoved : d.Moved d' (d.bufsz - d.src))
    (hd : d.Inside) (hdecoder : d.decoder.WellFormed) (hstate : d.decoder.state = .inChunkData)
    (havail : d.bufsz - d.src < d.decoder.bytesLeftInChunk) :
    Continues d (.exit .incomplete d') := by
  have hsrc := hd.src_le
  have hrest : (d.buf.drop d.src).length = d.bufsz - d.src := List.length_drop
  have hend : d'.src = d'.bufsz := by
    rw [hmoved.src, hmoved.bufsz]
    omega
  have hwell : d'.decoder.WellFormed := by
    rw [hmoved.decoder]
    refine ⟨hdecoder.hexCount_le, hdecoder.line, ?_, fun _ => Nat.sub_pos_of_lt havail, ?_⟩
    · intro h
      cases hstate.symm.trans h
    · intro h
      cases hstate.symm.trans h
  have hreading : d'.reading = d.reading := by
    have hall : (d.buf.drop d.src).take (d.bufsz - d.src) = d.buf.drop d.src :=
      List.take_of_length_le (Nat.le_of_eq hrest)
    have hnone : (d.buf.drop d.src).drop (d.bufsz - d.src) = [] :=
      List.drop_of_length_le (Nat.le_of_eq hrest)
    have hfeed := feed_data (d.buf.drop d.src) [] hstate (by omega)
    rw [List.append_nil, hrest] at hfeed
    rw [reading, reading, hmoved.take, hmoved.drop, hmoved.decoder, hall, hnone, hfeed,
      Reading.after_after]
  refine (continues_incomplete hmoved.inside hwell hend).of_earlier hreading hmoved.bufsz ?_
  rw [hmoved.src]
  omega

/-- The chunk ends in the buffer: behind its data the state is that of its end of line. -/
theorem Moved.behind_chunk {d' : Decoding} (hmoved : d.Moved d' d.decoder.bytesLeftInChunk)
    (hdecoder : d.decoder.WellFormed) (hstate : d.decoder.state = .inChunkData)
    (hn : d.decoder.bytesLeftInChunk ≤ d.bufsz - d.src) :
    (d'.setState .inChunkCrlf).decoder.WellFormed ∧
      (d'.setState .inChunkCrlf).reading = d.reading := by
  have hrest : (d.buf.drop d.src).length = d.bufsz - d.src := List.length_drop
  have hdecoder' : (d'.setState .inChunkCrlf).decoder =
      { d.decoder with bytesLeftInChunk := 0, state := .inChunkCrlf } := by
    unfold setState
    rw [hmoved.decoder, Nat.sub_self]
  constructor
  · rw [hdecoder']
    have hcount := hdecoder.line (by simp [hstate])
    refine ⟨hdecoder.hexCount_le, fun _ => hcount, ?_, ?_, fun _ => rfl⟩
    · intro h
      cases h
    · intro h
      cases h
  · have hlength : ((d.buf.drop d.src).take d.decoder.bytesLeftInChunk).length
        = d.decoder.bytesLeftInChunk := by
      rw [List.length_take, hrest, Nat.min_eq_left hn]
    have hfeed := feed_chunk ((d.buf.drop d.src).drop d.decoder.bytesLeftInChunk) hstate
      (hdecoder.data hstate) hlength
    rw [List.take_append_drop] at hfeed
    have htake : (d'.setState .inChunkCrlf).buf.take (d'.setState .inChunkCrlf).dst = _ :=
      hmoved.take
    have hdrop : (d'.setState .inChunkCrlf).buf.drop (d'.setState .inChunkCrlf).src = _ :=
      hmoved.drop
    rw [reading, reading, htake, hdrop, hdecoder', hfeed, Reading.after_after]

theorem inChunkData_continues (hd : d.Inside) (hdecoder : d.decoder.WellFormed)
    (hstate : d.decoder.state = .inChunkData) :
    ∃ j, d.inChunkData = some j ∧ Continues d j := by
  unfold inChunkData
  by_cases havail : d.bufsz - d.src < d.decoder.bytesLeftInChunk
  case pos =>
    rw [if_pos havail]
    obtain ⟨d', hmove, hmoved⟩ := moveData_spec hd (Nat.le_refl _)
    rw [hmove]
    exact ⟨_, rfl, hmoved.continues_all hd hdecoder hstate havail⟩
  case neg =>
    rw [if_neg havail]
    have hn : d.decoder.bytesLeftInChunk ≤ d.bufsz - d.src := Nat.le_of_not_lt havail
    obtain ⟨d', hmove, hmoved⟩ := moveData_spec hd hn
    obtain ⟨hwell, hreading⟩ := hmoved.behind_chunk hdecoder hstate hn
    have hinside : (d'.setState .inChunkCrlf).Inside :=
      ⟨hmoved.inside.dst_le, hmoved.inside.src_le⟩
    obtain ⟨j, hj, hcontinues⟩ := inChunkCrlf_continues hinside hwell rfl
    simp only [hmove, Option.bind_eq_bind, Option.bind_some]
    refine ⟨j, hj, hcontinues.of_earlier hreading hmoved.bufsz ?_⟩
    change d.src ≤ d'.src
    rw [hmoved.src]
    omega

theorem inChunkExt_continues (hd : d.Inside) (hdecoder : d.decoder.WellFormed)
    (hstate : d.decoder.state = .inChunkExt) :
    ∃ j, d.inChunkExt = some j ∧ Continues d j := by
  have hskip : ∀ c, (c == LF) = false → readByte d.decoder c = .go d.decoder [] := by
    intro c hc
    rw [readByte_ext hstate, readExt, if_neg (by simpa using hc)]
  obtain ⟨src, hfound⟩ := exists_found (fun c => c == LF) hd hskip
  simp only [inChunkExt, hfound.skipTo, Option.bind_eq_bind, Option.bind_some]
  by_cases hend : src = d.bufsz
  case pos =>
    rw [if_pos (by exact hend)]
    exact ⟨_, rfl, hfound.continues (continues_incomplete (hfound.inside hd) hdecoder hend)⟩
  case neg =>
    obtain ⟨c, hc, hstop, -⟩ := hfound.stopped hend
    have hlf : c = LF := by simpa using hstop
    have hread : readByte d.decoder c = readExt d.decoder c := readByte_ext hstate c
    have hbehind := hfound.behind hd hend
    rw [if_neg (by exact hend)]
    by_cases hzero : d.decoder.bytesLeftInChunk = 0
    case pos =>
      rw [if_pos hzero]
      by_cases htrailer : d.decoder.consumeTrailer = true
      case pos =>
        rw [if_pos htrailer]
        have hgo : readByte d.decoder c =
            .go { d.decoder with state := .inTrailersLineHead } [] := by
          rw [hread, readExt, if_pos hlf, if_pos hzero, if_pos htrailer]
        refine ⟨_, rfl, hfound.reading_step hend hc hgo, ⟨hbehind.dst_le, hbehind.src_le⟩, rfl,
          ?_, ?_⟩
        case refine_1 => exact wellFormed_go hdecoder hgo
        case refine_2 =>
          rintro d' ⟨⟩
          exact Nat.lt_succ_of_le hfound.le
      case neg =>
        rw [if_neg htrailer]
        have hstopped : readByte d.decoder c = .stop d.decoder := by
          rw [hread, readExt, if_pos hlf, if_pos hzero, if_neg htrailer]
        exact ⟨_, rfl, hfound.continues_complete hd hdecoder hend hc hstopped⟩
    case neg =>
      rw [if_neg hzero]
      have hgo : readByte d.decoder c = .go { d.decoder with state := .inChunkData } [] := by
        rw [hread, readExt, if_pos hlf, if_neg hzero]
      have hwell := wellFormed_go hdecoder hgo
      obtain ⟨j, hj, hcontinues⟩ := inChunkData_continues
        (d := ({ d with src := src + 1 } : Decoding).setState .inChunkData)
        ⟨hbehind.dst_le, hbehind.src_le⟩ hwell rfl
      exact ⟨j, hj, hcontinues.of_earlier (hfound.reading_step hend hc hgo) rfl
        (hfound.le.trans (Nat.le_succ src))⟩

theorem inTrailersLineMiddle_continues (hd : d.Inside) (hdecoder : d.decoder.WellFormed)
    (hstate : d.decoder.state = .inTrailersLineMiddle) :
    ∃ j, d.inTrailersLineMiddle = some j ∧ Continues d j := by
  have hread := readByte_middle hstate
  have hskip : ∀ c, (c == LF) = false → readByte d.decoder c = .go d.decoder [] := by
    intro c hc
    rw [hread, if_neg (by simpa using hc)]
  obtain ⟨src, hfound⟩ := exists_found (fun c => c == LF) hd hskip
  simp only [inTrailersLineMiddle, hfound.skipTo, Option.bind_eq_bind, Option.bind_some]
  by_cases hend : src = d.bufsz
  case pos =>
    rw [if_pos (by exact hend)]
    exact ⟨_, rfl, hfound.continues (continues_incomplete (hfound.inside hd) hdecoder hend)⟩
  case neg =>
    obtain ⟨c, hc, hstop, -⟩ := hfound.stopped hend
    have hlf : c = LF := by simpa using hstop
    have hgo : readByte d.decoder c = .go { d.decoder with state := .inTrailersLineHead } [] := by
      rw [hread, if_pos hlf]
    rw [if_neg (by exact hend)]
    have hbehind := hfound.behind hd hend
    refine ⟨_, rfl, hfound.reading_step hend hc hgo, ⟨hbehind.dst_le, hbehind.src_le⟩, rfl, ?_, ?_⟩
    case refine_1 => exact wellFormed_go hdecoder hgo
    case refine_2 =>
      rintro d' ⟨⟩
      exact Nat.lt_succ_of_le hfound.le

theorem inTrailersLineHead_continues (hd : d.Inside) (hdecoder : d.decoder.WellFormed)
    (hstate : d.decoder.state = .inTrailersLineHead) :
    ∃ j, d.inTrailersLineHead = some j ∧ Continues d j := by
  have hread := readByte_head hstate
  have hskip : ∀ c, (c != CR) = false → readByte d.decoder c = .go d.decoder [] := by
    intro c hc
    rw [hread, if_pos (by simpa using hc)]
  obtain ⟨src, hfound⟩ := exists_found (fun c => c != CR) hd hskip
  simp only [inTrailersLineHead, hfound.skipTo, Option.bind_eq_bind, Option.bind_some]
  by_cases hend : src = d.bufsz
  case pos =>
    rw [if_pos (by exact hend)]
    exact ⟨_, rfl, hfound.continues (continues_incomplete (hfound.inside hd) hdecoder hend)⟩
  case neg =>
    obtain ⟨c, hc, hstop, -⟩ := hfound.stopped hend
    have hne : ¬ c = CR := by simpa using hstop
    rw [if_neg (by exact hend), hc, Option.bind_some]
    by_cases hlf : c = LF
    case pos =>
      rw [if_pos hlf]
      have hstopped : readByte d.decoder c = .stop d.decoder := by
        rw [hread, if_neg hne, if_pos hlf]
      exact ⟨_, rfl, hfound.continues_complete hd hdecoder hend hc hstopped⟩
    case neg =>
      rw [if_neg hlf]
      have hgo : readByte d.decoder c =
          .go { d.decoder with state := .inTrailersLineMiddle } [] := by
        rw [hread, if_neg hne, if_neg hlf]
      have hwell := wellFormed_go hdecoder hgo
      have hbehind := hfound.behind hd hend
      obtain ⟨j, hj, hcontinues⟩ := inTrailersLineMiddle_continues
        (d := ({ d with src := src + 1 } : Decoding).setState .inTrailersLineMiddle)
        ⟨hbehind.dst_le, hbehind.src_le⟩ hwell rfl
      exact ⟨j, hj, hcontinues.of_earlier (hfound.reading_step hend hc hgo) rfl
        (hfound.le.trans (Nat.le_succ src))⟩

/-- What the loop over the digits of a size leaves of the bytes from `src` on. -/
structure SizeRead (decoder : ChunkedDecoder) (src : Nat) (rest : Bytes)
    (result : ChunkedDecoder × Nat × Option DecodeError) (left : Bytes) : Prop where
  src : result.2.1 + left.length = src + rest.length
  suffix : left <:+ rest
  feed : feed readByte decoder rest = feed readByte result.1 left
  wellFormed : result.1.WellFormed
  incomplete : result.2.2 = some .incomplete → left = []
  malformed : result.2.2 = some .malformed →
    ∃ c tail, left = c :: tail ∧ readByte result.1 c = .fail result.1
  ended : result.2.2 = none → ∃ c tail, left = c :: tail ∧
    readByte result.1 c = readExt { result.1 with hexCount := 0, state := .inChunkExt } c

/-- A byte at which the loop ends in an error. -/
theorem sizeRead_malformed {decoder : ChunkedDecoder} (hdecoder : decoder.WellFormed) {c : UInt8}
    (hread : readByte decoder c = .fail decoder) (src : Nat) (rest : Bytes) :
    SizeRead decoder src (c :: rest) (decoder, src, some .malformed) (c :: rest) where
  src := rfl
  suffix := List.suffix_rfl
  feed := rfl
  wellFormed := hdecoder
  incomplete := by
    intro h
    cases h
  malformed _ := ⟨c, rest, rfl, hread⟩
  ended := by
    intro h
    cases h

theorem readSize_spec (rest : Bytes) :
    ∀ (decoder : ChunkedDecoder) (src : Nat), decoder.WellFormed →
      decoder.state = .inChunkSize →
      ∃ left, SizeRead decoder src rest (readSize decoder src rest) left := by
  induction rest with
  | nil =>
      intro decoder src hdecoder hstate
      refine ⟨[], rfl, List.suffix_rfl, rfl, hdecoder, fun _ => rfl, ?_, ?_⟩
      · intro h
        cases h
      · intro h
        cases h
  | cons c rest ih =>
      intro decoder src hdecoder hstate
      have hread := readByte_size hstate c
      rw [readSize]
      cases hdigit : decodeHex c with
      | none =>
          rw [hdigit] at hread
          dsimp only at hread ⊢
          by_cases hzero : decoder.hexCount = 0
          case pos =>
            rw [if_pos hzero] at hread ⊢
            exact ⟨c :: rest, sizeRead_malformed hdecoder hread src rest⟩
          case neg =>
            rw [if_neg hzero] at hread ⊢
            refine ⟨c :: rest, rfl, List.suffix_rfl, rfl, hdecoder, ?_, ?_, ?_⟩
            · intro h
              cases h
            · intro h
              cases h
            · intro _
              exact ⟨c, rest, rfl, hread⟩
      | some v =>
          rw [hdigit] at hread
          dsimp only at hread ⊢
          by_cases hcount : decoder.hexCount = maxHexCount
          case pos =>
            rw [if_pos hcount] at hread ⊢
            exact ⟨c :: rest, sizeRead_malformed hdecoder hread src rest⟩
          case neg =>
            rw [if_neg hcount] at hread ⊢
            rw [Nat.mod_eq_of_lt (size_lt_two_pow hdecoder hstate hcount hdigit)]
            have hwell := wellFormed_digit hdecoder hstate hcount (decodeHex_lt hdigit)
            obtain ⟨left, hsize⟩ := ih _ (src + 1) hwell hstate
            refine ⟨left, ?_, hsize.suffix.trans (List.suffix_cons c rest), ?_, hsize.wellFormed,
              hsize.incomplete, hsize.malformed, hsize.ended⟩
            · rw [hsize.src, List.length_cons]
              omega
            · rw [feed_cons_go hread, Reading.after_nil, hsize.feed]

theorem inChunkSize_continues (hd : d.Inside) (hdecoder : d.decoder.WellFormed)
    (hstate : d.decoder.state = .inChunkSize) :
    ∃ j, d.inChunkSize = some j ∧ Continues d j := by
  obtain ⟨left, hsize⟩ := readSize_spec (d.buf.drop d.src) d.decoder d.src hdecoder hstate
  rw [inChunkSize, if_pos hd.src_le]
  generalize readSize d.decoder d.src (d.buf.drop d.src) = result at hsize ⊢
  obtain ⟨decoder, src, error?⟩ := result
  have hbufsz : d.bufsz = d.buf.length := rfl
  have hlength : (d.buf.drop d.src).length = d.bufsz - d.src := List.length_drop
  have hshorter := hsize.suffix.length_le
  have hcount := hsize.src
  have hdst := hd.dst_le
  have hsrc := hd.src_le
  dsimp only at hcount ⊢
  have hdrop : d.buf.drop src = left := by
    have hleft := List.suffix_iff_eq_drop.mp hsize.suffix
    rw [List.drop_drop, hlength] at hleft
    rw [hleft]
    congr 1
    omega
  have hinside : ({ d with decoder := decoder, src := src } : Decoding).Inside := by
    constructor
    · change d.dst ≤ src
      omega
    · change src ≤ d.bufsz
      omega
  have hreading : ({ d with decoder := decoder, src := src } : Decoding).reading = d.reading := by
    rw [reading, reading, hsize.feed, hdrop]
  have hforward : d.src ≤ src := by omega
  cases error? with
  | some error =>
      cases error with
      | incomplete =>
          have hend : src = d.bufsz := by
            have hnil := hsize.incomplete rfl
            rw [hnil, List.length_nil] at hcount
            omega
          exact ⟨_, rfl, (continues_incomplete hinside hsize.wellFormed hend).of_earlier hreading
            rfl hforward⟩
      | malformed =>
          obtain ⟨c, tail, hleft, hfail⟩ := hsize.malformed rfl
          refine ⟨_, rfl, ?_, hinside, rfl, hsize.wellFormed, fun d' h => by cases h⟩
          rw [← hreading, reading, hdrop, hleft, feed_cons_fail hfail]
          simp only [Jump.reading, DecodeError.verdict, Reading.after, List.append_nil, hdrop,
            hleft]
  | none =>
      obtain ⟨c, tail, hleft, hnext⟩ := hsize.ended rfl
      have hwell :
          ({ decoder with hexCount := 0, state := .inChunkExt } : ChunkedDecoder).WellFormed :=
        .of_line rfl (.inl rfl)
      obtain ⟨j, hj, hcontinues⟩ := inChunkExt_continues
        (d := ⟨{ decoder with hexCount := 0, state := .inChunkExt }, d.buf, d.dst, src⟩)
        ⟨hinside.dst_le, hinside.src_le⟩ hwell rfl
      refine ⟨j, hj, hcontinues.of_earlier ?_ rfl hforward⟩
      rw [← hreading, reading, reading, hdrop, hleft, feed, feed, hnext, readByte_ext rfl]

/-- Every pass through the switch goes on with what it was given. -/
theorem pass_continues (hd : d.Inside) (hdecoder : d.decoder.WellFormed) :
    ∃ j, d.pass = some j ∧ Continues d j := by
  unfold pass
  cases hstate : d.decoder.state with
  | inChunkSize => exact inChunkSize_continues hd hdecoder hstate
  | inChunkExt => exact inChunkExt_continues hd hdecoder hstate
  | inChunkData => exact inChunkData_continues hd hdecoder hstate
  | inChunkCrlf => exact inChunkCrlf_continues hd hdecoder hstate
  | inTrailersLineHead => exact inTrailersLineHead_continues hd hdecoder hstate
  | inTrailersLineMiddle => exact inTrailersLineMiddle_continues hd hdecoder hstate

end Decoding

/-- The return value for a reading that left `left` bytes. -/
def returned (left : Nat) : Verdict → Int
  | .more => DecodeError.incomplete.ret
  | .failed => DecodeError.malformed.ret
  | .done => left

/-- A call shows a reading: the data is at the front of the buffer, and what was not decoded lies
behind it. -/
structure ChunkedCall.Shows (call : ChunkedCall) (r : Reading ChunkedDecoder UInt8 UInt8) :
    Prop where
  decoder : call.decoder = r.state
  ret : call.ret = returned r.rest.length r.verdict
  bufsz : call.bufsz = r.out.length
  data : call.buf.take call.bufsz = r.out
  rest : (call.buf.drop call.bufsz).take r.rest.length = r.rest

namespace Decoding

variable {d : Decoding}

theorem finish_spec (hd : d.Inside) (r : Reading ChunkedDecoder UInt8 UInt8)
    (hdecoder : d.decoder = r.state) (hout : d.buf.take d.dst = r.out)
    (hrest : d.buf.drop d.src = r.rest) :
    ∃ call, d.finish (returned r.rest.length r.verdict) = some call ∧ call.Shows r ∧
      call.buf.length = d.bufsz := by
  have hdst := hd.dst_le
  have hsrc := hd.src_le
  have hbufsz : d.bufsz = d.buf.length := rfl
  have hlength : r.rest.length = d.bufsz - d.src := by
    rw [← hrest, List.length_drop, hbufsz]
  have hinside : d.src + (d.bufsz - d.src) ≤ d.buf.length := by omega
  obtain ⟨buf', hmove, hsize, htake, -⟩ := memmoveApart_spec hdst hinside
  have hwhole : (d.buf.drop d.src).take (d.bufsz - d.src) = r.rest := by
    rw [hrest, ← hlength, List.take_length]
  rw [hwhole] at htake
  have hfront : (d.buf.take d.dst).length = d.dst := by
    rw [List.length_take]
    omega
  refine ⟨⟨returned r.rest.length r.verdict, d.decoder, buf', d.dst⟩, ?_, ?_, hsize⟩
  case refine_1 => simp only [finish, hmove, Option.bind_eq_bind, Option.bind_some, Option.pure_def]
  case refine_2 =>
    refine ⟨hdecoder, rfl, ?_, ?_, ?_⟩
    · rw [← hout, hfront]
    · change buf'.take d.dst = r.out
      have hshort : (buf'.take (d.dst + (d.bufsz - d.src))).take d.dst = r.out := by
        rw [htake, ← hout, List.take_left' hfront]
      rwa [List.take_take, Nat.min_eq_left (by omega)] at hshort
    · change (buf'.drop d.dst).take r.rest.length = r.rest
      have hback := congrArg (List.drop d.dst) htake
      rw [List.drop_left' hfront, List.drop_take, Nat.add_sub_cancel_left, ← hlength] at hback
      exact hback

/-- The loop ends, stays in the buffer, and shows what the machine that reads byte by byte makes
of the buffer. -/
theorem loop_shows (fuel : Nat) :
    ∀ d : Decoding, d.Inside → d.decoder.WellFormed → d.bufsz - d.src < fuel →
      ∃ call, d.loop fuel = some call ∧ call.Shows d.reading ∧ call.buf.length = d.bufsz := by
  induction fuel with
  | zero =>
      intro d _ _ hfuel
      exact absurd hfuel (Nat.not_lt_zero _)
  | succ fuel ih =>
      intro d hd hdecoder hfuel
      obtain ⟨j, hj, hcontinues⟩ := pass_continues hd hdecoder
      have hinside := hcontinues.inside
      have hbufsz := hcontinues.bufsz
      rw [← hcontinues.reading]
      simp only [loop, hj, Option.bind_eq_bind, Option.bind_some]
      cases j with
      | again d' =>
          have hforward := hcontinues.forward d' rfl
          have hsame : d'.bufsz = d.bufsz := hbufsz
          have hle : d'.src ≤ d'.bufsz := hinside.src_le
          obtain ⟨call, hcall, hshows, hlength⟩ :=
            ih d' hinside hcontinues.wellFormed (by omega)
          exact ⟨call, hcall, hshows, hlength.trans hsame⟩
      | exit error d' =>
          obtain ⟨call, hcall, hshows, hlength⟩ :=
            finish_spec hinside (Jump.exit error d').reading rfl rfl rfl
          refine ⟨call, ?_, hshows, hlength.trans hbufsz⟩
          rw [← hcall]
          cases error <;> rfl
      | complete d' =>
          obtain ⟨call, hcall, hshows, hlength⟩ :=
            finish_spec hinside (Jump.complete d').reading rfl rfl rfl
          refine ⟨call, ?_, hshows, hlength.trans hbufsz⟩
          rw [← hcall]
          simp only [Jump.reading, returned, List.length_drop]
          rfl

end Decoding

namespace ChunkedDecoder

open Decoding

/-- `phr_decode_chunked` never leaves its buffer, always returns, and makes of the buffer what
the machine makes of it that reads byte by byte. -/
theorem phrDecodeChunked_shows (decoder : ChunkedDecoder) (hdecoder : decoder.WellFormed)
    (buf : Bytes) :
    ∃ call, phrDecodeChunked decoder buf = some call ∧
      call.Shows (feed readByte decoder buf) ∧ call.buf.length = buf.length := by
  have hinside : (⟨decoder, buf, 0, 0⟩ : Decoding).Inside := ⟨Nat.le_refl 0, Nat.zero_le _⟩
  have hfuel : Decoding.bufsz ⟨decoder, buf, 0, 0⟩ - 0 < buf.length + 1 := Nat.lt_succ_self _
  exact loop_shows (buf.length + 1) ⟨decoder, buf, 0, 0⟩ hinside hdecoder hfuel

end ChunkedDecoder

end GameDemoLearn.Net.Http
