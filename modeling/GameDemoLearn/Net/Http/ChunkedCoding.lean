import GameDemoLearn.Lib.Numeral
import GameDemoLearn.Net.Http.ChunkedRefinement

/-!
What `phr_decode_chunked` accepts, and what it makes of a body that arrives in pieces. The
grammar of chunked bodies is stated on its own. The decoder takes lines that end in LF alone,
and any number of CRs before the LF behind the data of a chunk.
-/

namespace GameDemoLearn.Net.Http

open Transducer ChunkedDecoder

/-- What the caller has of a body after handing over its pieces. -/
structure DecodedBody where
  decoder : ChunkedDecoder
  data : Bytes
  verdict : Verdict
  undecoded : Bytes
  deriving DecidableEq

/-- One call for each piece, for as long as `phr_decode_chunked` returns -2. -/
def decodePieces (decoder : ChunkedDecoder) : List Bytes → Option DecodedBody
  | [] => some ⟨decoder, [], .more, []⟩
  | piece :: pieces => do
      let call ← phrDecodeChunked decoder piece
      let data := call.buf.take call.bufsz
      if call.ret = -2 then
        let body ← decodePieces call.decoder pieces
        pure { body with data := data ++ body.data }
      else if call.ret = -1 then
        pure ⟨call.decoder, data, .failed, []⟩
      else
        pure ⟨call.decoder, data, .done,
          (call.buf.drop call.bufsz).take call.ret.toNat ++ pieces.flatten⟩

/-- The body that a reading shows. -/
def bodyOf (r : Reading ChunkedDecoder UInt8 UInt8) : DecodedBody :=
  ⟨r.state, r.out, r.verdict, if r.verdict = .done then r.rest else []⟩

/-- The calls show what the machine makes of the pieces. -/
theorem decodePieces_eq (pieces : List Bytes) :
    ∀ decoder : ChunkedDecoder, decoder.WellFormed →
      decodePieces decoder pieces = some (bodyOf (feedPieces readByte decoder pieces)) := by
  induction pieces with
  | nil =>
      intro decoder _
      rfl
  | cons piece pieces ih =>
      intro decoder hdecoder
      obtain ⟨call, hcall, hshows, -⟩ := phrDecodeChunked_shows decoder hdecoder piece
      have hnext := wellFormed_feed hdecoder piece
      simp only [decodePieces, hcall, Option.bind_eq_bind, Option.bind_some, feedPieces]
      rw [hshows.data, hshows.decoder]
      cases hverdict : (feed readByte decoder piece).verdict with
      | more =>
          have hret : call.ret = -2 := by
            rw [hshows.ret, hverdict]
            rfl
          rw [if_pos hret, if_pos rfl, ih _ hnext]
          rfl
      | failed =>
          have hret : call.ret = -1 := by
            rw [hshows.ret, hverdict]
            rfl
          rw [if_neg (by omega), if_pos hret, if_neg (by decide)]
          simp only [bodyOf, Reading.leave, hverdict]
          rfl
      | done =>
          have hret : call.ret = (feed readByte decoder piece).rest.length := by
            rw [hshows.ret, hverdict]
            rfl
          rw [if_neg (by omega), if_neg (by omega), if_neg (by decide), hret, Int.toNat_natCast,
            hshows.rest]
          simp only [bodyOf, Reading.leave, hverdict]
          rfl

/-- The pieces in which a body arrives do not matter. -/
theorem decodePieces_flatten (consumeTrailer : Bool) (pieces : List Bytes) :
    decodePieces (create consumeTrailer) pieces =
      decodePieces (create consumeTrailer) [pieces.flatten] := by
  have hdecoder := wellFormed_create consumeTrailer
  rw [decodePieces_eq _ _ hdecoder, decodePieces_eq _ _ hdecoder, feedPieces_eq, feedPieces_eq,
    List.flatten_singleton]

example : decodePieces (create false) [[51, 13, 10, 97], [98, 99, 13, 10, 48], [13, 10, 90]] =
    some ⟨⟨0, false, 0, .inChunkExt⟩, [97, 98, 99], .done, [90]⟩ := by decide

/-- The line of a chunk's size: hexadecimal digits, and anything else up to the LF. -/
inductive IsSizeLine (size : Nat) : Bytes → Prop
  | intro (digits ext : Bytes) (hdigits : Numeral.IsNumeral decodeHex 16 digits)
      (hlength : digits.length ≤ maxHexCount) (hsize : Numeral.value decodeHex 16 digits = size)
      (hext : LF ∉ ext) (hstart : ∀ c ∈ ext.head?, decodeHex c = none) :
      IsSizeLine size (digits ++ (ext ++ [LF]))

/-- Lines up to the first empty one. -/
inductive IsTrailer : Bytes → Prop
  | last (crs : Bytes) (hcrs : ∀ c ∈ crs, c = CR) : IsTrailer (crs ++ [LF])
  | line (crs : Bytes) (c : UInt8) (middle lines : Bytes) (hcrs : ∀ c ∈ crs, c = CR)
      (hcr : c ≠ CR) (hlf : c ≠ LF) (hmiddle : LF ∉ middle) (hlines : IsTrailer lines) :
      IsTrailer (crs ++ c :: (middle ++ LF :: lines))

/-- A chunked body and its data. -/
inductive ChunkedBody (consumeTrailer : Bool) : Bytes → Bytes → Prop
  | last (line trailer : Bytes) (hline : IsSizeLine 0 line)
      (htrailer : if consumeTrailer then IsTrailer trailer else trailer = []) :
      ChunkedBody consumeTrailer (line ++ trailer) []
  | chunk (line data crs body rest : Bytes) (hline : IsSizeLine data.length line)
      (hdata : data ≠ []) (hcrs : ∀ c ∈ crs, c = CR)
      (hbody : ChunkedBody consumeTrailer body rest) :
      ChunkedBody consumeTrailer (line ++ (data ++ (crs ++ LF :: body))) (data ++ rest)

/-- The reading behind the line of a size. -/
def afterSize (consumeTrailer : Bool) (size : Nat) (rest : Bytes) :
    Reading ChunkedDecoder UInt8 UInt8 :=
  if size = 0 then
    if consumeTrailer then
      feed readByte ⟨0, consumeTrailer, 0, .inTrailersLineHead⟩ rest
    else
      ⟨⟨0, consumeTrailer, 0, .inChunkExt⟩, [], .done, rest⟩
  else
    feed readByte ⟨size, consumeTrailer, 0, .inChunkData⟩ rest

section Reads

variable {t : Bool} {n k : Nat} {text rest : Bytes}

theorem feed_ext {ext : Bytes} (hext : LF ∉ ext) :
    feed readByte ⟨n, t, 0, .inChunkExt⟩ (ext ++ LF :: rest) = afterSize t n rest := by
  have hskip : ∀ c ∈ ext, readByte ⟨n, t, 0, .inChunkExt⟩ c = .go ⟨n, t, 0, .inChunkExt⟩ [] := by
    intro c hc
    have hne : c ≠ LF := fun h => hext (h ▸ hc)
    rw [readByte_ext rfl, readExt, if_neg hne]
  have hlf : readByte ⟨n, t, 0, .inChunkExt⟩ LF = readExt ⟨n, t, 0, .inChunkExt⟩ LF :=
    readByte_ext rfl LF
  rw [feed_skip hskip, feed, hlf, readExt, if_pos rfl, afterSize]
  by_cases hn : n = 0
  · subst hn
    cases t
    · rfl
    · rfl
  · rw [if_neg hn, if_neg hn]
    rfl

theorem feed_digits {digits : Bytes} (hdigits : ∀ c ∈ digits, Numeral.isDigit decodeHex 16 c = true)
    (hlength : k + digits.length ≤ maxHexCount) :
    feed readByte ⟨n, t, k, .inChunkSize⟩ (digits ++ rest) =
      feed readByte ⟨n * 16 ^ digits.length + Numeral.value decodeHex 16 digits, t,
        k + digits.length, .inChunkSize⟩ rest := by
  induction digits generalizing n k with
  | nil => simp
  | cons c digits ih =>
      rw [List.forall_mem_cons] at hdigits
      rw [List.length_cons] at hlength
      obtain ⟨v, hv, -⟩ := Numeral.isDigit_iff.mp hdigits.1
      have hroom : ¬ k = maxHexCount := by omega
      have hgo : readByte ⟨n, t, k, .inChunkSize⟩ c =
          .go ⟨n * 16 + v, t, k + 1, .inChunkSize⟩ [] := by
        rw [readByte_size rfl, hv]
        exact if_neg hroom
      have hvalue : Numeral.value decodeHex 16 [c] = v := by
        rw [Numeral.value, List.foldl_cons, List.foldl_nil, hv]
        exact Nat.zero_add v
      have happend : Numeral.value decodeHex 16 (c :: digits) = _ :=
        Numeral.value_append 16 [c] digits
      rw [hvalue] at happend
      rw [List.cons_append, feed_cons_go hgo, Reading.after_nil, ih hdigits.2 (by omega), happend,
        List.length_cons, pow_succ]
      congr 2
      · ring
      · omega

theorem feed_sizeLine {line : Bytes} {size : Nat} (hline : IsSizeLine size line) :
    feed readByte (create t) (line ++ rest) = afterSize t size rest := by
  obtain ⟨digits, ext, hdigits, hlength, hsize, hext, hstart⟩ := hline
  have hcount : 0 + digits.length ≤ maxHexCount := by omega
  have hne : ¬ digits.length = 0 := fun h => hdigits.1 (List.length_eq_zero_iff.mp h)
  have hsplit : digits ++ (ext ++ [LF]) ++ rest = digits ++ (ext ++ LF :: rest) := by simp
  rw [hsplit, create, feed_digits hdigits.2 hcount, Nat.zero_mul, Nat.zero_add, Nat.zero_add,
    hsize, ← feed_ext hext]
  -- the byte behind the digits is read as the first one of the extension
  obtain ⟨c, tail, htail, hc⟩ : ∃ c tail, ext ++ LF :: rest = c :: tail ∧ decodeHex c = none := by
    cases ext with
    | nil => exact ⟨LF, rest, rfl, rfl⟩
    | cons c ext => exact ⟨c, ext ++ LF :: rest, rfl, hstart c rfl⟩
  have hread : readByte ⟨size, t, digits.length, .inChunkSize⟩ c =
      readByte ⟨size, t, 0, .inChunkExt⟩ c := by
    rw [readByte_size rfl, hc, readByte_ext rfl]
    exact if_neg hne
  rw [htail, feed, feed, hread]

theorem feed_crs {crs : Bytes} (hcrs : ∀ c ∈ crs, c = CR) :
    feed readByte ⟨0, t, 0, .inChunkCrlf⟩ (crs ++ LF :: rest) = feed readByte (create t) rest := by
  have hskip : ∀ c ∈ crs, readByte ⟨0, t, 0, .inChunkCrlf⟩ c = .go ⟨0, t, 0, .inChunkCrlf⟩ [] := by
    intro c hc
    rw [readByte_crlf rfl, if_pos (hcrs c hc)]
  rw [feed_skip hskip]
  rfl

theorem feed_trailer (htrailer : IsTrailer text) :
    feed readByte ⟨0, t, 0, .inTrailersLineHead⟩ (text ++ rest) =
      ⟨⟨0, t, 0, .inTrailersLineHead⟩, [], .done, rest⟩ := by
  have hcr : ∀ crs : Bytes, (∀ c ∈ crs, c = CR) → ∀ c ∈ crs,
      readByte ⟨0, t, 0, .inTrailersLineHead⟩ c = .go ⟨0, t, 0, .inTrailersLineHead⟩ [] := by
    intro crs hcrs c hc
    rw [readByte_head rfl, if_pos (hcrs c hc)]
  induction htrailer with
  | last crs hcrs =>
      rw [List.append_assoc, feed_skip (hcr crs hcrs)]
      rfl
  | line crs c middle lines hcrs hne hlf hmiddle _ ih =>
      have hskip : ∀ c ∈ middle, readByte ⟨0, t, 0, .inTrailersLineMiddle⟩ c =
          .go ⟨0, t, 0, .inTrailersLineMiddle⟩ [] := by
        intro c hc
        have hne : c ≠ LF := fun h => hmiddle (h ▸ hc)
        rw [readByte_middle rfl, if_neg hne]
      have hgo : readByte ⟨0, t, 0, .inTrailersLineHead⟩ c =
          .go ⟨0, t, 0, .inTrailersLineMiddle⟩ [] := by
        rw [readByte_head rfl, if_neg hne, if_neg hlf]
      have hend : readByte ⟨0, t, 0, .inTrailersLineMiddle⟩ LF =
          .go ⟨0, t, 0, .inTrailersLineHead⟩ [] := rfl
      rw [List.append_assoc, feed_skip (hcr crs hcrs), List.cons_append, feed_cons_go hgo,
        List.append_assoc, feed_skip hskip, List.cons_append, feed_cons_go hend, ih]
      rfl

/-- A chunked body at the front of a text is read whole, and nothing behind it. -/
theorem feed_chunkedBody {body data : Bytes} (hbody : ChunkedBody t body data) (rest : Bytes) :
    ∃ decoder, feed readByte (create t) (body ++ rest) = ⟨decoder, data, .done, rest⟩ := by
  induction hbody with
  | last line trailer hline htrailer =>
      rw [List.append_assoc, feed_sizeLine hline, afterSize, if_pos rfl]
      cases t with
      | true =>
          rw [if_pos rfl] at htrailer ⊢
          exact ⟨_, feed_trailer htrailer⟩
      | false =>
          rw [if_neg Bool.false_ne_true] at htrailer ⊢
          rw [htrailer, List.nil_append]
          exact ⟨_, rfl⟩
  | chunk line data crs body more hline hdata hcrs _ ih =>
      obtain ⟨decoder, hmore⟩ := ih
      have hne : ¬ data.length = 0 := fun h => hdata (List.length_eq_zero_iff.mp h)
      refine ⟨decoder, ?_⟩
      rw [List.append_assoc, feed_sizeLine hline, afterSize, if_neg hne, List.append_assoc,
        feed_chunk _ rfl (Nat.pos_of_ne_zero hne) rfl, List.append_assoc, List.cons_append,
        feed_crs hcrs, hmore]
      rfl

/-- An extension that is read to its end has an LF. -/
theorem ext_of_done (hdone : (feed readByte ⟨n, t, 0, .inChunkExt⟩ text).verdict ≠ .more) :
    ∃ ext rest, text = ext ++ LF :: rest ∧ LF ∉ ext := by
  by_cases hlf : LF ∈ text
  · obtain ⟨ext, rest, hsplit, hext⟩ := List.eq_append_cons_of_mem hlf
    exact ⟨ext, rest, hsplit, hext⟩
  · have hskip : ∀ c ∈ text, readByte ⟨n, t, 0, .inChunkExt⟩ c = .go ⟨n, t, 0, .inChunkExt⟩ [] := by
      intro c hc
      have hne : c ≠ LF := fun h => hlf (h ▸ hc)
      rw [readByte_ext rfl, readExt, if_neg hne]
    rw [← List.append_nil text, feed_skip hskip] at hdone
    exact absurd rfl hdone

/-- The line of a size that is read to its end, when some of its digits have been read. -/
theorem sizeLine_of_done (hk : k ≤ maxHexCount)
    (hdone : (feed readByte ⟨n, t, k, .inChunkSize⟩ text).verdict = .done) :
    ∃ digits ext rest, text = digits ++ (ext ++ LF :: rest) ∧
      (∀ c ∈ digits, Numeral.isDigit decodeHex 16 c = true) ∧
      k + digits.length ≤ maxHexCount ∧ k + digits.length ≠ 0 ∧ LF ∉ ext ∧
      ∀ c ∈ ext.head?, decodeHex c = none := by
  induction text generalizing n k with
  | nil => cases hdone
  | cons c text ih =>
      have hread : readByte ⟨n, t, k, .inChunkSize⟩ c = _ := readByte_size rfl c
      cases hdigit : decodeHex c with
      | none =>
          rw [hdigit] at hread
          dsimp only at hread
          by_cases hzero : k = 0
          case pos =>
            rw [if_pos hzero] at hread
            rw [feed_cons_fail hread] at hdone
            cases hdone
          case neg =>
            rw [if_neg hzero] at hread
            have hext : feed readByte ⟨n, t, k, .inChunkSize⟩ (c :: text)
                = feed readByte ⟨n, t, 0, .inChunkExt⟩ (c :: text) := by
              rw [feed, feed, hread, readByte_ext rfl]
            rw [hext] at hdone
            obtain ⟨ext, rest, hsplit, hlf⟩ := ext_of_done (by rw [hdone]; decide)
            refine ⟨[], ext, rest, hsplit, List.forall_mem_nil _, hk, hzero, hlf, ?_⟩
            intro b hb
            cases ext with
            | nil => cases hb
            | cons b' ext =>
                obtain ⟨rfl, -⟩ := List.cons.inj hsplit
                cases hb
                exact hdigit
      | some v =>
          rw [hdigit] at hread
          dsimp only at hread
          by_cases hfull : k = maxHexCount
          case pos =>
            rw [if_pos hfull] at hread
            rw [feed_cons_fail hread] at hdone
            cases hdone
          case neg =>
            rw [if_neg hfull] at hread
            rw [feed_cons_go hread] at hdone
            obtain ⟨digits, ext, rest, rfl, hdigits, hlength, -, hlf, hstart⟩ :=
              ih (Nat.lt_of_le_of_ne hk hfull) hdone
            have hc : Numeral.isDigit decodeHex 16 c = true :=
              Numeral.isDigit_iff.mpr ⟨v, hdigit, decodeHex_lt hdigit⟩
            refine ⟨c :: digits, ext, rest, rfl, ?_, ?_, ?_, hlf, hstart⟩
            · exact List.forall_mem_cons.mpr ⟨hc, hdigits⟩
            · rw [List.length_cons]
              omega
            · rw [List.length_cons]
              omega

/-- CRs, and what comes behind them. -/
theorem exists_crs (text : Bytes) :
    ∃ crs rest, text = crs ++ rest ∧ (∀ c ∈ crs, c = CR) ∧ ∀ c ∈ rest.head?, c ≠ CR := by
  refine ⟨text.takeWhile (· == CR), text.dropWhile (· == CR),
    List.takeWhile_append_dropWhile.symm, ?_, ?_⟩
  · intro c hc
    simpa using List.mem_takeWhile_imp hc
  · intro c hc hcr
    have hhead := List.head?_dropWhile_not (· == CR) text
    rw [Option.mem_def.mp hc] at hhead
    simp [hcr] at hhead

theorem crs_of_done (hdone : (feed readByte ⟨0, t, 0, .inChunkCrlf⟩ text).verdict = .done) :
    ∃ crs rest, text = crs ++ LF :: rest ∧ ∀ c ∈ crs, c = CR := by
  obtain ⟨crs, rest, rfl, hcrs, hrest⟩ := exists_crs text
  have hskip : ∀ c ∈ crs, readByte ⟨0, t, 0, .inChunkCrlf⟩ c = .go ⟨0, t, 0, .inChunkCrlf⟩ [] := by
    intro c hc
    rw [readByte_crlf rfl, if_pos (hcrs c hc)]
  rw [feed_skip hskip] at hdone
  cases rest with
  | nil => cases hdone
  | cons c rest =>
      by_cases hlf : c = LF
      · exact ⟨crs, rest, by rw [hlf], hcrs⟩
      · have hfail : readByte ⟨0, t, 0, .inChunkCrlf⟩ c = _ := readByte_crlf rfl c
        rw [if_neg (hrest c rfl), if_neg hlf] at hfail
        rw [feed_cons_fail hfail] at hdone
        cases hdone

theorem trailer_of_done (text : Bytes)
    (hdone : (feed readByte ⟨0, t, 0, .inTrailersLineHead⟩ text).verdict = .done) :
    ∃ lines rest, text = lines ++ rest ∧ IsTrailer lines := by
  induction hlength : text.length using Nat.strong_induction_on generalizing text with
  | _ length ih =>
      obtain ⟨crs, rest, rfl, hcrs, hrest⟩ := exists_crs text
      have hskip : ∀ c ∈ crs, readByte ⟨0, t, 0, .inTrailersLineHead⟩ c =
          .go ⟨0, t, 0, .inTrailersLineHead⟩ [] := by
        intro c hc
        rw [readByte_head rfl, if_pos (hcrs c hc)]
      rw [feed_skip hskip] at hdone
      cases rest with
      | nil => cases hdone
      | cons c rest =>
          by_cases hlf : c = LF
          case pos =>
            subst hlf
            exact ⟨crs ++ [LF], rest, by simp, .last crs hcrs⟩
          case neg =>
            have hgo : readByte ⟨0, t, 0, .inTrailersLineHead⟩ c = _ := readByte_head rfl c
            rw [if_neg (hrest c rfl), if_neg hlf] at hgo
            rw [feed_cons_go hgo, Reading.after_nil] at hdone
            by_cases hmem : LF ∈ rest
            case pos =>
              obtain ⟨middle, lines, rfl, hmiddle⟩ := List.eq_append_cons_of_mem hmem
              have hpass : ∀ b ∈ middle, readByte ⟨0, t, 0, .inTrailersLineMiddle⟩ b =
                  .go ⟨0, t, 0, .inTrailersLineMiddle⟩ [] := by
                intro b hb
                have hne : b ≠ LF := fun h => hmiddle (h ▸ hb)
                rw [readByte_middle rfl, if_neg hne]
              have hend : readByte ⟨0, t, 0, .inTrailersLineMiddle⟩ LF =
                  .go ⟨0, t, 0, .inTrailersLineHead⟩ [] := rfl
              change (feed readByte ⟨0, t, 0, .inTrailersLineMiddle⟩ _).verdict = _ at hdone
              rw [feed_skip hpass, feed_cons_go hend, Reading.after_nil] at hdone
              have hshort : lines.length < length := by
                rw [← hlength]
                simp
                omega
              obtain ⟨more, behind, rfl, hmore⟩ := ih lines.length hshort lines hdone rfl
              refine ⟨crs ++ c :: (middle ++ LF :: more), behind, by simp, ?_⟩
              exact .line crs c middle more hcrs (hrest c rfl) hlf hmiddle hmore
            case neg =>
              have hpass : ∀ b ∈ rest, readByte ⟨0, t, 0, .inTrailersLineMiddle⟩ b =
                  .go ⟨0, t, 0, .inTrailersLineMiddle⟩ [] := by
                intro b hb
                have hne : b ≠ LF := fun h => hmem (h ▸ hb)
                rw [readByte_middle rfl, if_neg hne]
              change (feed readByte ⟨0, t, 0, .inTrailersLineMiddle⟩ _).verdict = _ at hdone
              rw [← List.append_nil rest, feed_skip hpass] at hdone
              cases hdone

/-- A text whose reading ends begins with a chunked body. -/
theorem chunkedBody_of_done (text : Bytes)
    (hdone : (feed readByte (create t) text).verdict = .done) :
    ∃ body data rest, text = body ++ rest ∧ ChunkedBody t body data := by
  induction hlength : text.length using Nat.strong_induction_on generalizing text with
  | _ length ih =>
      obtain ⟨digits, ext, rest, rfl, hdigits, hcount, hne, hlf, hstart⟩ :=
        sizeLine_of_done (Nat.zero_le _) hdone
      rw [Nat.zero_add] at hcount hne
      have hnumeral : Numeral.IsNumeral decodeHex 16 digits :=
        ⟨fun h => hne (List.length_eq_zero_iff.mpr h), hdigits⟩
      have hline : IsSizeLine (Numeral.value decodeHex 16 digits) (digits ++ (ext ++ [LF])) :=
        .intro digits ext hnumeral hcount rfl hlf hstart
      generalize Numeral.value decodeHex 16 digits = size at hline
      have hsplit : digits ++ (ext ++ LF :: rest) = digits ++ (ext ++ [LF]) ++ rest := by simp
      rw [hsplit] at hdone hlength ⊢
      generalize digits ++ (ext ++ [LF]) = line at hline hdone hlength
      rw [feed_sizeLine hline, afterSize] at hdone
      by_cases hzero : size = 0
      case pos =>
        subst hzero
        rw [if_pos rfl] at hdone
        cases t with
        | true =>
            rw [if_pos rfl] at hdone
            obtain ⟨lines, behind, rfl, hlines⟩ := trailer_of_done rest hdone
            exact ⟨line ++ lines, [], behind, by simp, .last line lines hline hlines⟩
        | false => exact ⟨line ++ [], [], rest, by simp, .last line [] hline rfl⟩
      case neg =>
        rw [if_neg hzero] at hdone
        have hroom : size ≤ rest.length := by
          by_contra hshort
          have hmore : feed readByte ⟨size, t, 0, .inChunkData⟩ (rest ++ []) = _ :=
            feed_data rest [] rfl (Nat.lt_of_not_le hshort)
          rw [List.append_nil] at hmore
          rw [hmore] at hdone
          cases hdone
        obtain ⟨data, behind, rfl, hdata⟩ : ∃ data behind, rest = data ++ behind ∧
            data.length = size :=
          ⟨rest.take size, rest.drop size, (List.take_append_drop size rest).symm,
            List.length_take_of_le hroom⟩
        rw [feed_chunk behind rfl (Nat.pos_of_ne_zero hzero) hdata] at hdone
        obtain ⟨crs, more, rfl, hcrs⟩ := crs_of_done hdone
        have hnext : feed readByte ⟨0, t, 0, .inChunkCrlf⟩ (crs ++ LF :: more) = _ := feed_crs hcrs
        rw [Reading.after_verdict, hnext] at hdone
        have hshort : more.length < length := by
          rw [← hlength]
          simp
          omega
        obtain ⟨body, data', behind, rfl, hbody⟩ := ih more.length hshort more hdone rfl
        have hnonempty : data ≠ [] := by
          rintro rfl
          exact hzero hdata.symm
        subst hdata
        refine ⟨line ++ (data ++ (crs ++ LF :: body)), data ++ data', behind, by simp, ?_⟩
        exact .chunk line data crs body data' hline hnonempty hcrs hbody

/-- What the machine makes of a text ends exactly where a chunked body does. -/
theorem feed_done_iff {data : Bytes} :
    (∃ decoder, feed readByte (create t) text = ⟨decoder, data, .done, rest⟩) ↔
      ∃ body, text = body ++ rest ∧ ChunkedBody t body data := by
  constructor
  · rintro ⟨decoder, hfeed⟩
    obtain ⟨body, data', rest', rfl, hbody⟩ := chunkedBody_of_done text (by rw [hfeed])
    obtain ⟨decoder', hread⟩ := feed_chunkedBody hbody rest'
    rw [hfeed] at hread
    cases hread
    exact ⟨body, rfl, hbody⟩
  · rintro ⟨body, rfl, hbody⟩
    exact feed_chunkedBody hbody rest

/-- The reading of the text ends with the last of its bytes. -/
def Completes (decoder : ChunkedDecoder) (text : Bytes) : Prop :=
  (feed readByte decoder text).verdict = .done ∧ (feed readByte decoder text).rest = []

theorem Completes.skip {decoder : ChunkedDecoder} {c : UInt8} {next : ChunkedDecoder}
    (hgo : readByte decoder c = .go next []) (htext : Completes next text) :
    Completes decoder (c :: text) := by
  unfold Completes
  rw [feed_cons_go hgo]
  exact htext

theorem completes_head : Completes ⟨n, t, 0, .inTrailersLineHead⟩ [LF] := ⟨rfl, rfl⟩

/-- Every line can be brought to an end. -/
theorem exists_completes_ext (hcreate : ∃ text, Completes (create t) text) :
    ∃ text, Completes ⟨n, t, 0, .inChunkExt⟩ (LF :: text) := by
  obtain ⟨text, htext⟩ := hcreate
  have hread (more : Bytes) :
      feed readByte ⟨n, t, 0, .inChunkExt⟩ (LF :: more) = afterSize t n more :=
    feed_ext List.not_mem_nil
  by_cases hn : n = 0
  case pos =>
    subst hn
    cases t with
    | true =>
        refine ⟨[LF], ?_⟩
        unfold Completes
        rw [hread]
        exact ⟨rfl, rfl⟩
    | false =>
        refine ⟨[], ?_⟩
        unfold Completes
        rw [hread]
        exact ⟨rfl, rfl⟩
  case neg =>
    refine ⟨List.replicate n 0 ++ LF :: text, ?_⟩
    have hcrs : feed readByte ⟨0, t, 0, .inChunkCrlf⟩ ([] ++ LF :: text) = _ :=
      feed_crs (List.forall_mem_nil _)
    rw [List.nil_append] at hcrs
    unfold Completes
    rw [hread, afterSize, if_neg hn, feed_chunk _ rfl (Nat.pos_of_ne_zero hn) List.length_replicate,
      hcrs]
    exact htext

theorem exists_completes_create : ∃ text, Completes (create t) text := by
  have hdigit : readByte (create t) 48 = .go ⟨0, t, 1, .inChunkSize⟩ [] := rfl
  cases t with
  | true =>
      have hline : readByte ⟨0, true, 1, .inChunkSize⟩ LF =
          .go ⟨0, true, 0, .inTrailersLineHead⟩ [] := rfl
      exact ⟨[48, LF, LF], .skip hdigit (.skip hline completes_head)⟩
  | false => exact ⟨[48, LF], rfl, rfl⟩

/-- No decoder is at a dead end. -/
theorem exists_completes {decoder : ChunkedDecoder} (hdecoder : decoder.WellFormed) :
    ∃ c text, Completes decoder (c :: text) := by
  obtain ⟨n, t, k, state⟩ := decoder
  obtain ⟨text, htext⟩ := exists_completes_create (t := t)
  have hcrlf : Completes ⟨0, t, 0, .inChunkCrlf⟩ (LF :: text) := .skip rfl htext
  cases state with
  | inChunkSize =>
      by_cases hk : k = 0
      case pos =>
        subst hk
        have hn : n = 0 := Nat.lt_one_iff.mp (hdecoder.size rfl)
        subst hn
        cases text with
        | nil => cases htext.1
        | cons c text => exact ⟨c, text, htext⟩
      case neg =>
        obtain ⟨more, hmore⟩ := exists_completes_ext (n := n) ⟨text, htext⟩
        refine ⟨LF, more, ?_⟩
        have hread : readByte ⟨n, t, k, .inChunkSize⟩ LF = readByte ⟨n, t, 0, .inChunkExt⟩ LF := by
          rw [readByte_size rfl, readByte_ext rfl]
          exact if_neg hk
        unfold Completes at hmore ⊢
        rw [feed] at hmore ⊢
        rw [hread]
        exact hmore
  | inChunkExt =>
      obtain rfl : k = 0 := hdecoder.line (by simp)
      obtain ⟨more, hmore⟩ := exists_completes_ext (n := n) ⟨text, htext⟩
      exact ⟨LF, more, hmore⟩
  | inChunkData =>
      obtain rfl : k = 0 := hdecoder.line (by simp)
      have hpos : 0 < n := hdecoder.data rfl
      refine ⟨0, List.replicate (n - 1) 0 ++ LF :: text, ?_⟩
      have hlength : (List.replicate n (0 : UInt8)).length = n := List.length_replicate
      have hsplit : (0 : UInt8) :: (List.replicate (n - 1) 0 ++ LF :: text) =
          List.replicate n 0 ++ LF :: text := by
        rw [← List.cons_append, ← List.replicate_succ, Nat.sub_add_cancel hpos]
      unfold Completes
      rw [hsplit, feed_chunk _ rfl hpos hlength]
      exact hcrlf
  | inChunkCrlf =>
      obtain rfl : k = 0 := hdecoder.line (by simp)
      obtain rfl : n = 0 := hdecoder.crlf rfl
      exact ⟨LF, text, hcrlf⟩
  | inTrailersLineHead =>
      obtain rfl : k = 0 := hdecoder.line (by simp)
      exact ⟨LF, [], completes_head⟩
  | inTrailersLineMiddle =>
      obtain rfl : k = 0 := hdecoder.line (by simp)
      exact ⟨LF, [LF], .skip rfl completes_head⟩

/-- The machine asks for more exactly in front of the rest of a chunked body. -/
theorem feed_more_iff :
    (feed readByte (create t) text).verdict = .more ↔
      ∃ more data, more ≠ [] ∧ ChunkedBody t (text ++ more) data := by
  have happend (more : Bytes) : feed readByte (create t) (text ++ more) = _ :=
    feed_append (create t) text more
  constructor
  · intro hmore
    obtain ⟨c, more, hdone, hrest⟩ :=
      exists_completes (wellFormed_feed (wellFormed_create t) text)
    have hwhole := happend (c :: more)
    rw [if_pos hmore] at hwhole
    obtain ⟨body, data, behind, hsplit, hbody⟩ :=
      chunkedBody_of_done (text ++ c :: more) (by rw [hwhole]; exact hdone)
    obtain ⟨decoder, hread⟩ := feed_chunkedBody hbody behind
    rw [← hsplit, hwhole] at hread
    have hbehind : behind = [] := by
      rw [← hrest]
      exact (congrArg Reading.rest hread).symm
    rw [hbehind, List.append_nil] at hsplit
    exact ⟨c :: more, data, List.cons_ne_nil c more, hsplit ▸ hbody⟩
  · rintro ⟨more, data, hne, hbody⟩
    obtain ⟨decoder, hread⟩ := feed_chunkedBody hbody []
    rw [List.append_nil, happend more] at hread
    by_contra hready
    rw [if_neg hready] at hread
    have hrest := congrArg Reading.rest hread
    exact hne (List.append_eq_nil_iff.mp hrest).2

end Reads

section Calls

variable {t : Bool} {pieces : List Bytes}

/-- In whatever pieces a text arrives, the caller ends with the data of a chunked body and what
lies behind it exactly when the text begins with that body. -/
theorem decodePieces_done_iff {data rest : Bytes} :
    (∃ decoder, decodePieces (create t) pieces = some ⟨decoder, data, .done, rest⟩) ↔
      ∃ body, pieces.flatten = body ++ rest ∧ ChunkedBody t body data := by
  rw [decodePieces_eq _ _ (wellFormed_create t), feedPieces_eq, ← feed_done_iff]
  generalize feed readByte (create t) pieces.flatten = r
  obtain ⟨decoder, out, verdict, left⟩ := r
  cases verdict with
  | done => simp [bodyOf]
  | more => simp [bodyOf]
  | failed => simp [bodyOf]

/-- The caller is asked for more exactly where more can complete a chunked body, so that a
malformed one is refused at its first bad byte. -/
theorem decodePieces_more_iff :
    (∃ decoder data, decodePieces (create t) pieces = some ⟨decoder, data, .more, []⟩) ↔
      ∃ more data, more ≠ [] ∧ ChunkedBody t (pieces.flatten ++ more) data := by
  rw [decodePieces_eq _ _ (wellFormed_create t), feedPieces_eq, ← feed_more_iff]
  generalize feed readByte (create t) pieces.flatten = r
  obtain ⟨decoder, out, verdict, left⟩ := r
  cases verdict with
  | done => simp [bodyOf]
  | more => simp [bodyOf]
  | failed => simp [bodyOf]

end Calls

end GameDemoLearn.Net.Http
