import GameDemoLearn.Lib.FirstWins
import GameDemoLearn.Net.Http.HttpParser

/-!
What a call of `ParseRequest` or `ParseResponse` leaves in the parser (`HttpParser.cpp`).
`ParseRequest` assigns all slots of `_headers` anew; `ParseResponse` assigns none, so that a
lookup behind it answers from the last request. The body length is whatever number
`StringTo<int>` reads in the first Content-Length header. A text that is refused leaves its
traces in the members that `phr_parse_request` and `phr_parse_response` write to.
-/

namespace GameDemoLearn.Net.Http

open Incremental

/-- The headers of a message, as `_headers` holds them. -/
def fields (headers : List PhrHeader) : List HttpHeader :=
  headers.map fun header => (header.name, header.value)

/-- The value of the first header with the name, in upper or lower case. -/
def firstValue (headers : List HttpHeader) (key : Bytes) : StringView :=
  ((headers.find? fun header => Util.stringEqual header.1.bytes key).map Prod.snd).getD .null

/-- `"content-length"sv`. -/
def contentLength : Bytes := Bytes.ofString "content-length"

/-- The length that a decimal numeral states, where it is an `int`. -/
def statedLength (value : Bytes) : Int :=
  match Util.digitsValue value with
  | some n => if n < 2 ^ 31 then n else 0
  | none => 0

/-- A minus sign and the digits of a number whose negative is an `int`. -/
def IsNegative (value : Bytes) : Prop :=
  ∃ digits n, value = 45 :: digits ∧ Util.digitsValue digits = some n ∧ 0 < n ∧ n ≤ 2 ^ 31

/-- The headers by their names in lower case. -/
def headerTable (headers : List HttpHeader) : List (Bytes × Bytes) :=
  headers.map fun header => (header.1.bytes.map Util.toLower, header.2.bytes)

/-- The first header of each name. Headers without a name or without a value are left out, as a
lookup shows nothing of them. -/
def shown (headers : List HttpHeader) : List (Bytes × Bytes) :=
  (FirstWins.insertAll [] (headerTable headers)).filter fun header => header.1 ≠ [] ∧ header.2 ≠ []

/-- The same headers, in any order. -/
def SameHeaders (headers headers' : List HttpHeader) : Prop :=
  ∀ header, header ∈ shown headers ↔ header ∈ shown headers'

section Length

variable {value : Bytes}

theorem digitsValue_minus (digits : Bytes) : Util.digitsValue (45 :: digits) = none :=
  if_neg fun h => absurd h.2 (by simp [Util.isDigit])

theorem statedLength_nonneg (value : Bytes) : 0 ≤ statedLength value := by
  unfold statedLength
  split
  · split
    · exact Int.natCast_nonneg _
    · exact Int.le_refl 0
  · exact Int.le_refl 0

theorem stringToInt_minus {digits : Bytes} {n : Nat} (hdigits : Util.digitsValue digits = some n) :
    (Util.stringToInt (45 :: digits)).getD 0 = if n ≤ 2 ^ 31 then -(n : Int) else 0 := by
  have hread : Util.stringToInt (45 :: digits)
      = (some (-(n : Int))).filter fun v => -2 ^ 31 ≤ v && v < 2 ^ 31 := by
    simp only [Util.stringToInt, hdigits]
    rfl
  rw [hread, Option.filter_some]
  by_cases hn : n ≤ 2 ^ 31
  · rw [if_pos hn, if_pos (by simp; omega)]
    rfl
  · rw [if_neg hn, if_neg (by simp; omega)]
    rfl

theorem stringToInt_digits (hminus : ∀ digits, value ≠ 45 :: digits) :
    (Util.stringToInt value).getD 0 = statedLength value := by
  have hread : Util.stringToInt value = ((Util.digitsValue value).map Int.ofNat).filter
      fun v => -2 ^ 31 ≤ v && v < 2 ^ 31 := by
    unfold Util.stringToInt
    split
    · next digits => exact absurd rfl (hminus digits)
    · rfl
  rw [hread, statedLength]
  cases Util.digitsValue value with
  | none => rfl
  | some n =>
      simp only [Option.map_some, Option.filter_some, Int.ofNat_eq_natCast]
      by_cases hn : n < 2 ^ 31
      · rw [if_pos hn, if_pos (by simp; omega)]
        rfl
      · rw [if_neg hn, if_neg (by simp; omega)]
        rfl

/-- What is read is what is stated, but for a negative number. -/
theorem stringToInt_eq_iff (value : Bytes) :
    (Util.stringToInt value).getD 0 = statedLength value ↔ ¬ IsNegative value := by
  by_cases hminus : ∃ digits, value = 45 :: digits
  · obtain ⟨digits, rfl⟩ := hminus
    rw [statedLength, digitsValue_minus]
    cases hdigits : Util.digitsValue digits with
    | none =>
        refine iff_of_true ?_ ?_
        · simp [Util.stringToInt, hdigits]
        · rintro ⟨digits', n, hvalue, hn, -⟩
          obtain rfl := (List.cons.inj hvalue).2
          rw [hdigits] at hn
          cases hn
    | some n =>
        have hnegative : IsNegative (45 :: digits) ↔ 0 < n ∧ n ≤ 2 ^ 31 := by
          simp [IsNegative, hdigits]
        rw [stringToInt_minus hdigits, hnegative]
        dsimp only
        split <;> omega
  · refine iff_of_true (stringToInt_digits fun digits h => hminus ⟨digits, h⟩) ?_
    rintro ⟨digits, n, hvalue, -⟩
    exact hminus ⟨digits, hvalue⟩

end Length

section Shown

variable {headers headers' : List HttpHeader}

theorem bytes_firstValue (headers : List HttpHeader) (key : Bytes) :
    (firstValue headers key).bytes
      = (FirstWins.find (headerTable headers) (key.map Util.toLower)).getD [] := by
  rw [firstValue, FirstWins.find, headerTable, List.find?_map]
  have hequal : ((fun entry : Bytes × Bytes => entry.1 == key.map Util.toLower)
      ∘ fun header : HttpHeader => (header.1.bytes.map Util.toLower, header.2.bytes))
        = fun header => Util.stringEqual header.1.bytes key := rfl
  rw [hequal]
  cases headers.find? fun header => Util.stringEqual header.1.bytes key <;> rfl

theorem mem_shown_iff_find {name value : Bytes} : (name, value) ∈ shown headers
    ↔ FirstWins.find (headerTable headers) name = some value ∧ name ≠ [] ∧ value ≠ [] := by
  rw [shown, List.mem_filter, FirstWins.mem_insertAll_nil_iff, decide_eq_true_eq]

/-- A header is shown by a lookup of its name. -/
theorem mem_shown_lower {key value : Bytes} (hkey : key ≠ []) (hvalue : value ≠ []) :
    (key.map Util.toLower, value) ∈ shown headers ↔ (firstValue headers key).bytes = value := by
  have hlower : key.map Util.toLower ≠ [] := fun hnil => hkey (List.map_eq_nil_iff.mp hnil)
  rw [mem_shown_iff_find, and_iff_left ⟨hlower, hvalue⟩, bytes_firstValue]
  cases FirstWins.find (headerTable headers) (key.map Util.toLower) with
  | none => exact iff_of_false (Option.some_ne_none value).symm (Ne.symm hvalue)
  | some found => exact Option.some_inj

theorem exists_key_of_mem_shown {header : Bytes × Bytes} (hheader : header ∈ shown headers) :
    ∃ key ≠ [], header.1 = key.map Util.toLower ∧ header.2 ≠ [] := by
  obtain ⟨hfind, hname, hvalue⟩ := mem_shown_iff_find.mp hheader
  obtain ⟨field, -, hfield⟩ := List.mem_map.mp (FirstWins.mem_of_find hfind)
  have hkey : field.1.bytes.map Util.toLower = header.1 := congrArg Prod.fst hfield
  refine ⟨field.1.bytes, ?_, hkey.symm, hvalue⟩
  intro hnil
  rw [hnil] at hkey
  exact hname hkey.symm

theorem sameHeaders_iff : SameHeaders headers headers' ↔
    ∀ key ≠ [], (firstValue headers key).bytes = (firstValue headers' key).bytes := by
  constructor
  · intro hsame key hkey
    -- A value that one of the two finds is shown in both.
    have hfound : ∀ value ≠ [], (firstValue headers key).bytes = value
        ↔ (firstValue headers' key).bytes = value := by
      intro value hvalue
      have hheader := hsame (key.map Util.toLower, value)
      rw [mem_shown_lower hkey hvalue, mem_shown_lower hkey hvalue] at hheader
      exact hheader
    by_cases hnil : (firstValue headers key).bytes = []
    · by_cases hnil' : (firstValue headers' key).bytes = []
      · rw [hnil, hnil']
      · exact (hfound _ hnil').mpr rfl
    · exact ((hfound _ hnil).mp rfl).symm
  · intro hsame
    have hboth : ∀ {name value key : Bytes}, key ≠ [] → value ≠ [] → name = key.map Util.toLower →
        ((name, value) ∈ shown headers ↔ (name, value) ∈ shown headers') := by
      rintro name value key hkey hvalue rfl
      rw [mem_shown_lower hkey hvalue, mem_shown_lower hkey hvalue, hsame key hkey]
    rintro ⟨name, value⟩
    constructor
    · intro hheader
      obtain ⟨key, hkey, hname, hvalue⟩ := exists_key_of_mem_shown hheader
      exact (hboth hkey hvalue hname).mp hheader
    · intro hheader
      obtain ⟨key, hkey, hname, hvalue⟩ := exists_key_of_mem_shown hheader
      exact (hboth hkey hvalue hname).mpr hheader

end Shown

namespace HttpParser

variable {p : HttpParser} {text : Bytes}

theorem getHeaderValue_eq (p : HttpParser) (key : Bytes) :
    p.getHeaderValue key = firstValue p.headers key := rfl

/-- The slots behind the headers have no name to be found by. -/
theorem firstValue_toHttpHeaders (headers : List PhrHeader) {key : Bytes} (hkey : key ≠ []) :
    firstValue (toHttpHeaders headers) key = firstValue (fields headers) key := by
  have hnull : (List.replicate (MAX_HEADER_FIELD_NUM - headers.length)
      (StringView.null, StringView.null)).find?
        (fun header => Util.stringEqual header.1.bytes key) = none := by
    rw [List.find?_eq_none]
    intro header hheader hequal
    rw [List.eq_of_mem_replicate hheader] at hequal
    have hmap := beq_iff_eq.mp hequal
    exact hkey (List.map_eq_nil_iff.mp hmap.symm)
  rw [firstValue, toHttpHeaders, List.find?_append, hnull, Option.or_none]
  rfl

theorem accept_headers (p : HttpParser) (text : Bytes) (request : PhrRequest) (headerLen : Int) :
    (p.accept text request headerLen).headers = toHttpHeaders request.headers ∧
      (p.accept text request headerLen).bodyLen = (Util.stringToInt
        (firstValue (toHttpHeaders request.headers) contentLength).bytes).getD 0 := by
  obtain ⟨path, entries, hsplit, -⟩ := splitPath_eq request.path
  rw [accept, hsplit _ rfl]
  exact ⟨rfl, rfl⟩

/-- `ParseRequest` changes two members and returns zero, or takes the request with a length
that is no negative `int`. -/
theorem parseRequest_outcomes (p : HttpParser) (text : Bytes) :
    (∃ headerLen numHeaders, p.parseRequest text = (0, { p with headerLen, numHeaders })) ∨
      ∃ request next, phrParseRequest text MAX_HEADER_FIELD_NUM = .done request next ∧
        0 ≤ toInt next.pos ∧ p.parseRequest text
          = ((toInt next.pos).toNat, p.accept text request (toInt next.pos)) := by
  unfold parseRequest
  split
  · exact .inl ⟨p.headerLen, p.numHeaders, rfl⟩
  · cases phrParseRequest text MAX_HEADER_FIELD_NUM with
    | needMore numHeaders => exact .inl ⟨-2, numHeaders, rfl⟩
    | fail numHeaders => exact .inl ⟨-1, numHeaders, rfl⟩
    | done request next =>
        dsimp only
        split
        · exact .inl ⟨toInt next.pos, request.headers.length, rfl⟩
        · next hlen => exact .inr ⟨request, next, rfl, Int.not_lt.mp hlen, rfl⟩

/-- `_bodyLen` is the number that the headers state which the parser holds. -/
def HoldsBodyLen (p : HttpParser) : Prop :=
  p.bodyLen = (Util.stringToInt (firstValue p.headers contentLength).bytes).getD 0

/-- `ParseResponse` does so too, but in both cases it has assigned what it reads of the status
line and a body length from the headers it holds. -/
theorem parseResponse_outcomes (p : HttpParser) (text : Bytes) :
    (∃ headerLen numHeaders status msg bodyLen,
      p.parseResponse text = (0, { p with headerLen, numHeaders, status, msg, bodyLen }) ∧
        (p.HoldsBodyLen → bodyLen = p.bodyLen)) ∨
      ∃ response next, phrParseResponse text MAX_HEADER_FIELD_NUM = .done response next ∧
        0 ≤ toInt next.pos ∧ (p.parseResponse text).1 = (toInt next.pos).toNat ∧
          (p.parseResponse text).2.headers = p.headers ∧
            (p.parseResponse text).2.bodyLen
              = (Util.stringToInt (firstValue p.headers contentLength).bytes).getD 0 := by
  unfold parseResponse
  split
  · exact .inl ⟨p.headerLen, p.numHeaders, p.status, p.msg, p.bodyLen, rfl, fun _ => rfl⟩
  · cases phrParseResponse text MAX_HEADER_FIELD_NUM with
    | needMore note => exact .inl ⟨-2, note.numHeaders, note.status, note.msg, _, rfl, Eq.symm⟩
    | fail note => exact .inl ⟨-1, note.numHeaders, note.status, note.msg, _, rfl, Eq.symm⟩
    | done response next =>
        dsimp only
        split
        · exact .inl ⟨toInt next.pos, response.headers.length, response.status, response.msg, _,
            rfl, Eq.symm⟩
        · next hlen => exact .inr ⟨response, next, rfl, Int.not_lt.mp hlen, rfl, rfl, rfl⟩

/-- What a successful `ParseRequest` leaves. -/
theorem parseRequest_success (hsuccess : (p.parseRequest text).1 ≠ 0) : ∃ request next,
    phrParseRequest text MAX_HEADER_FIELD_NUM = .done request next ∧
      (p.parseRequest text).2.headers = toHttpHeaders request.headers ∧
        (p.parseRequest text).2.bodyLen = (Util.stringToInt
          (firstValue (toHttpHeaders request.headers) contentLength).bytes).getD 0 := by
  rcases p.parseRequest_outcomes text with ⟨_, _, hzero⟩ | ⟨request, next, hparse, -, htaken⟩
  · rw [hzero] at hsuccess
    exact absurd rfl hsuccess
  · rw [htaken]
    exact ⟨request, next, hparse, accept_headers p text request (toInt next.pos)⟩

/-- What a successful `ParseResponse` leaves. -/
theorem parseResponse_success (hsuccess : (p.parseResponse text).1 ≠ 0) : ∃ response next,
    phrParseResponse text MAX_HEADER_FIELD_NUM = .done response next ∧
      (p.parseResponse text).2.headers = p.headers ∧
        (p.parseResponse text).2.bodyLen
          = (Util.stringToInt (firstValue p.headers contentLength).bytes).getD 0 := by
  rcases p.parseResponse_outcomes text with
    ⟨_, _, _, _, _, hzero, -⟩ | ⟨response, next, hparse, -, -, hleft⟩
  · rw [hzero] at hsuccess
    exact absurd rfl hsuccess
  · exact ⟨response, next, hparse, hleft⟩

/-- Whatever the parser held before, a lookup behind a successful `ParseRequest` answers from
the headers of the request. -/
theorem getHeaderValue_parseRequest (hsuccess : (p.parseRequest text).1 ≠ 0) : ∃ request next,
    phrParseRequest text MAX_HEADER_FIELD_NUM = .done request next ∧
      ∀ key ≠ [], (p.parseRequest text).2.getHeaderValue key
        = firstValue (fields request.headers) key := by
  obtain ⟨request, next, hparse, hheaders, -⟩ := parseRequest_success hsuccess
  refine ⟨request, next, hparse, fun key hkey => ?_⟩
  rw [getHeaderValue_eq, hheaders, firstValue_toHttpHeaders _ hkey]

/-- A parser that has parsed a longer request before. -/
theorem getHeaderValue_parseRequest_again : ∃ request next,
    phrParseRequest (Bytes.ofString "GET / HTTP/1.1\r\nHost: b\r\n more\r\n\r\n")
        MAX_HEADER_FIELD_NUM = .done request next ∧
      ∀ key ≠ [], ((create.parseRequest
          (Bytes.ofString "GET / HTTP/1.1\r\nHost: a\r\nAge: 1\r\nVia: c\r\n\r\n")).2.parseRequest
            (Bytes.ofString "GET / HTTP/1.1\r\nHost: b\r\n more\r\n\r\n")).2.getHeaderValue key
        = firstValue (fields request.headers) key :=
  getHeaderValue_parseRequest (by decide +kernel)

/-- `_bodyLen` is the length that the Content-Length header of the request states if and only
if that header does not state a negative number. -/
theorem bodyLen_parseRequest_iff (hsuccess : (p.parseRequest text).1 ≠ 0) : ∃ request next,
    phrParseRequest text MAX_HEADER_FIELD_NUM = .done request next ∧
      ((0 ≤ (p.parseRequest text).2.bodyLen ∧ (p.parseRequest text).2.bodyLen
          = statedLength (firstValue (fields request.headers) contentLength).bytes) ↔
        ¬ IsNegative (firstValue (fields request.headers) contentLength).bytes) := by
  obtain ⟨request, next, hparse, -, hbodyLen⟩ := parseRequest_success hsuccess
  rw [firstValue_toHttpHeaders _ (by decide)] at hbodyLen
  refine ⟨request, next, hparse, ?_⟩
  rw [hbodyLen, ← stringToInt_eq_iff]
  constructor
  · rintro ⟨-, hequal⟩
    exact hequal
  · intro hequal
    rw [hequal]
    exact ⟨statedLength_nonneg _, rfl⟩

theorem bodyLen_parseRequest_iff_five : ∃ request next,
    phrParseRequest (Bytes.ofString "POST / HTTP/1.1\r\nContent-Length: 5\r\n\r\n")
        MAX_HEADER_FIELD_NUM = .done request next ∧
      ((0 ≤ (create.parseRequest
            (Bytes.ofString "POST / HTTP/1.1\r\nContent-Length: 5\r\n\r\n")).2.bodyLen ∧
          (create.parseRequest
            (Bytes.ofString "POST / HTTP/1.1\r\nContent-Length: 5\r\n\r\n")).2.bodyLen
              = statedLength (firstValue (fields request.headers) contentLength).bytes) ↔
        ¬ IsNegative (firstValue (fields request.headers) contentLength).bytes) :=
  bodyLen_parseRequest_iff (by decide +kernel)

/-- A request that states the length -5 is accepted with that length. -/
theorem negative_bodyLen :
    ¬ ∀ (p : HttpParser) (text : Bytes), (p.parseRequest text).1 ≠ 0 →
      0 ≤ (p.parseRequest text).2.bodyLen := by
  intro hnonneg
  have hlength := hnonneg create
    (Bytes.ofString "POST / HTTP/1.1\r\nContent-Length: -5\r\n\r\n") (by decide +kernel)
  revert hlength
  decide +kernel

/-- Behind a successful `ParseResponse` the lookups and the body length are those of the
response if and only if its headers are those of the last request, and the length that they
state is not a negative number. -/
theorem parseResponse_shows_iff (hsuccess : (p.parseResponse text).1 ≠ 0) : ∃ response next,
    phrParseResponse text MAX_HEADER_FIELD_NUM = .done response next ∧
      (((∀ key ≠ [], ((p.parseResponse text).2.getHeaderValue key).bytes
            = (firstValue (fields response.headers) key).bytes) ∧
          (p.parseResponse text).2.bodyLen
            = statedLength (firstValue (fields response.headers) contentLength).bytes) ↔
        SameHeaders p.headers (fields response.headers) ∧
          ¬ IsNegative (firstValue (fields response.headers) contentLength).bytes) := by
  obtain ⟨response, next, hparse, hheaders, hbodyLen⟩ := parseResponse_success hsuccess
  refine ⟨response, next, hparse, ?_⟩
  simp only [getHeaderValue_eq, hheaders, hbodyLen]
  rw [← sameHeaders_iff]
  refine and_congr_right fun hsame => ?_
  rw [sameHeaders_iff.mp hsame contentLength (by decide), stringToInt_eq_iff]

theorem parseResponse_shows_iff_fresh : ∃ response next,
    phrParseResponse (Bytes.ofString "HTTP/1.1 204 NoContent\r\nAge:\r\n\r\n")
        MAX_HEADER_FIELD_NUM = .done response next ∧
      (((∀ key ≠ [], ((create.parseResponse (Bytes.ofString
              "HTTP/1.1 204 NoContent\r\nAge:\r\n\r\n")).2.getHeaderValue key).bytes
            = (firstValue (fields response.headers) key).bytes) ∧
          (create.parseResponse (Bytes.ofString
              "HTTP/1.1 204 NoContent\r\nAge:\r\n\r\n")).2.bodyLen
            = statedLength (firstValue (fields response.headers) contentLength).bytes) ↔
        SameHeaders create.headers (fields response.headers) ∧
          ¬ IsNegative (firstValue (fields response.headers) contentLength).bytes) :=
  parseResponse_shows_iff (by decide +kernel)

/-- The body length that a parsed response states. -/
def statedIn : Outcome UInt8 PhrResponseNote PhrResponse → Int
  | .done response _ => statedLength (firstValue (fields response.headers) contentLength).bytes
  | _ => 0

/-- A fresh parser shows no header of a response, and no body. -/
theorem response_headers_lost :
    ¬ ∀ (p : HttpParser) (text : Bytes) (response : PhrResponse) (next : Cursor UInt8),
      (p.parseResponse text).1 ≠ 0 →
        phrParseResponse text MAX_HEADER_FIELD_NUM = .done response next →
          (∀ key ≠ [], ((p.parseResponse text).2.getHeaderValue key).bytes
              = (firstValue (fields response.headers) key).bytes) ∧
            (p.parseResponse text).2.bodyLen
              = statedLength (firstValue (fields response.headers) contentLength).bytes := by
  intro hshows
  let text := Bytes.ofString "HTTP/1.1 200 Ok\r\nContent-Length: 5\r\n\r\n"
  have hsuccess : (create.parseResponse text).1 ≠ 0 := by decide +kernel
  have hzero : (create.parseResponse text).2.bodyLen = 0 := by decide +kernel
  have hstated : statedIn (phrParseResponse text MAX_HEADER_FIELD_NUM) = 5 := by decide +kernel
  obtain ⟨response, next, hparse, -⟩ := parseResponse_success hsuccess
  have hlength := (hshows create text response next hsuccess hparse).2
  rw [hparse, statedIn, ← hlength, hzero] at hstated
  cases hstated

theorem mod_of_toInt {pos : Nat} (hzero : (toInt pos).toNat = 0) (hnonneg : 0 ≤ toInt pos) :
    pos % 2 ^ 32 = 0 := by
  unfold toInt LittleEndian.toSigned at hzero hnonneg
  split at hzero <;> omega

/-- The members that `phr_parse_request` and `phr_parse_response` write to, or that
`ParseResponse` assigns before it looks at their answer, are all that a text that is refused
changes. The length of an accepted header block is narrowed to `int`, and may come out as zero. -/
theorem parse_returns_zero (p : HttpParser) (text : Bytes) :
    (text = [] → p.parseRequest text = (0, p) ∧ p.parseResponse text = (0, p)) ∧
      ((p.parseRequest text).1 = 0 →
        (∃ request next, phrParseRequest text MAX_HEADER_FIELD_NUM = .done request next ∧
            next.pos % 2 ^ 32 = 0) ∨
          ∃ headerLen numHeaders,
            (p.parseRequest text).2 = { p with headerLen, numHeaders }) ∧
      ((p.parseResponse text).1 = 0 →
        (∃ response next, phrParseResponse text MAX_HEADER_FIELD_NUM = .done response next ∧
            next.pos % 2 ^ 32 = 0) ∨
          ∃ headerLen numHeaders status msg bodyLen,
            (p.parseResponse text).2
              = { p with headerLen, numHeaders, status, msg, bodyLen }) := by
  refine ⟨?_, ?_, ?_⟩
  · rintro rfl
    exact ⟨rfl, rfl⟩
  · intro hzero
    rcases p.parseRequest_outcomes text with
      ⟨headerLen, numHeaders, hkept⟩ | ⟨request, next, hparse, hnonneg, htaken⟩
    · exact .inr ⟨headerLen, numHeaders, congrArg Prod.snd hkept⟩
    · rw [htaken] at hzero
      exact .inl ⟨request, next, hparse, mod_of_toInt hzero hnonneg⟩
  · intro hzero
    rcases p.parseResponse_outcomes text with
      ⟨headerLen, numHeaders, status, msg, bodyLen, hkept, -⟩
      | ⟨response, next, hparse, hnonneg, hlen, -⟩
    · exact .inr ⟨headerLen, numHeaders, status, msg, bodyLen, congrArg Prod.snd hkept⟩
    · rw [hlen] at hzero
      exact .inl ⟨response, next, hparse, mod_of_toInt hzero hnonneg⟩

/-- The calls that change a parser. -/
inductive Call
  | parseRequest (text : Bytes)
  | parseResponse (text : Bytes)
  | parseQuery (str : StringView)

def call (p : HttpParser) : Call → HttpParser
  | .parseRequest text => (p.parseRequest text).2
  | .parseResponse text => (p.parseResponse text).2
  | .parseQuery str => p.parseQuery str

theorem HoldsBodyLen.call {p : HttpParser} (hp : p.HoldsBodyLen) (c : Call) :
    (p.call c).HoldsBodyLen := by
  cases c with
  | parseRequest text =>
      rw [HttpParser.call]
      rcases p.parseRequest_outcomes text with ⟨headerLen, numHeaders, hkept⟩
        | ⟨request, next, -, -, htaken⟩
      · rw [hkept]
        exact hp
      · obtain ⟨hheaders, hbodyLen⟩ := accept_headers p text request (toInt next.pos)
        rw [htaken, HoldsBodyLen, hheaders, hbodyLen]
  | parseResponse text =>
      rw [HttpParser.call]
      rcases p.parseResponse_outcomes text with
        ⟨headerLen, numHeaders, status, msg, bodyLen, hkept, hbodyLen⟩
        | ⟨response, next, -, -, -, hheaders, hbodyLen⟩
      · rw [hkept, hbodyLen hp]
        exact hp
      · rw [HoldsBodyLen, hheaders, hbodyLen]
  | parseQuery str =>
      obtain ⟨entries, hquery, -⟩ := parseQuery_eq str
      rw [HttpParser.call, hquery]
      exact hp

theorem holdsBodyLen_calls (calls : List Call) : (calls.foldl call create).HoldsBodyLen := by
  induction calls using List.reverseRecOn with
  | nil =>
      unfold HoldsBodyLen
      decide +kernel
  | append_singleton calls c ih =>
      rw [List.foldl_append]
      exact ih.call c

/-- In a parser that calls have led to, `_bodyLen` is not changed by a response that is refused
either: `ParseResponse` computes what is there. -/
theorem parseResponse_returns_zero (calls : List Call) (text : Bytes) :
    let p := calls.foldl call create
    (p.parseResponse text).1 = 0 →
      (∃ response next, phrParseResponse text MAX_HEADER_FIELD_NUM = .done response next ∧
          next.pos % 2 ^ 32 = 0) ∨
        ∃ headerLen numHeaders status msg,
          (p.parseResponse text).2 = { p with headerLen, numHeaders, status, msg } := by
  intro p hzero
  rcases p.parseResponse_outcomes text with
    ⟨headerLen, numHeaders, status, msg, bodyLen, hkept, hbodyLen⟩
    | ⟨response, next, hparse, hnonneg, hlen, -⟩
  · rw [hkept, hbodyLen (holdsBodyLen_calls calls)]
    exact .inr ⟨headerLen, numHeaders, status, msg, rfl⟩
  · rw [hlen] at hzero
    exact .inl ⟨response, next, hparse, mod_of_toInt hzero hnonneg⟩

/-- A request that has not arrived completely leaves -2 in `_headerLen`. -/
theorem headerLen_of_refused :
    ¬ ∀ (p : HttpParser) (text : Bytes),
      ((p.parseRequest text).1 = 0 → (p.parseRequest text).2 = p) ∧
        ((p.parseResponse text).1 = 0 → (p.parseResponse text).2 = p) := by
  intro hkeeps
  have hsame := (hkeeps create (Bytes.ofString "GET / HTTP/1.1\r\n")).1 (by decide +kernel)
  have hlen := congrArg HttpParser.headerLen hsame
  revert hlen
  decide +kernel

end HttpParser

end GameDemoLearn.Net.Http
