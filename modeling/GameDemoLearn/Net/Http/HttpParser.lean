import GameDemoLearn.Lib.LittleEndian
import GameDemoLearn.Net.Http.PicoHttpParser
import GameDemoLearn.Util.Util

/-!
`HttpParser` (`HttpParser.cpp`). A `string_view` member is the place of its
first character in the text it was taken from and its characters; sizes are
`size_t`, so the differences taken with `npos` are modulo `2 ^ 64`.
-/

namespace GameDemoLearn.Net.Http

open Incremental

namespace StringView

/-- The view of `len` characters from `pos` on. -/
def sub (v : StringView) (pos len : Nat) : StringView :=
  ⟨v.offset + pos, (v.bytes.drop pos).take len⟩

def removePrefix (v : StringView) (n : Nat) : StringView := ⟨v.offset + n, v.bytes.drop n⟩

def removeSuffix (v : StringView) (n : Nat) : StringView :=
  { v with bytes := v.bytes.take (v.bytes.length - n) }

end StringView

def npos : Nat := 2 ^ 64 - 1

def findFirstNotOf (c : UInt8) (bytes : Bytes) : Nat :=
  (bytes.findIdx? fun b => b != c).getD npos

def findLastNotOf (c : UInt8) (bytes : Bytes) : Nat :=
  ((bytes.reverse.findIdx? fun b => b != c).map fun k => bytes.length - 1 - k).getD npos

/-- A difference of two `size_t`. -/
def sizeSub (m n : Nat) : Nat := (m + 2 ^ 64 - n) % 2 ^ 64

def trimSpace (str : StringView) : StringView :=
  let str := str.removePrefix (min (findFirstNotOf SP str.bytes) str.bytes.length)
  let size := str.bytes.length
  str.removeSuffix (min (sizeSub (sizeSub size (findLastNotOf SP str.bytes)) 1) size)

namespace StringView.In

variable {v : StringView} {text : Bytes}

theorem sub (hv : v.In text) (pos len : Nat) : (v.sub pos len).In text := by
  have hdrop : v.bytes.drop pos <+: (text.drop v.offset).drop pos := List.IsPrefix.drop hv pos
  rw [List.drop_drop] at hdrop
  exact (List.take_prefix len _).trans hdrop

theorem removePrefix (hv : v.In text) (n : Nat) : (v.removePrefix n).In text := by
  have hdrop : v.bytes.drop n <+: (text.drop v.offset).drop n := List.IsPrefix.drop hv n
  rw [List.drop_drop] at hdrop
  exact hdrop

theorem removeSuffix (hv : v.In text) (n : Nat) : (v.removeSuffix n).In text :=
  (List.take_prefix _ v.bytes).trans hv

theorem trimSpace (hv : v.In text) : (trimSpace v).In text := (hv.removePrefix _).removeSuffix _

end StringView.In

abbrev HttpHeader := StringView × StringView

def MAX_HEADER_FIELD_NUM : Nat := 100

/-- `_status` and `_msg` are for responses only. -/
structure HttpParser where
  method : StringView
  originalUrl : StringView
  path : StringView
  queries : List (StringView × StringView)
  headers : List HttpHeader
  minorVersion : Int
  headerLen : Int
  bodyLen : Int
  numHeaders : Nat
  status : Int
  msg : StringView

namespace HttpParser

def create : HttpParser where
  method := .null
  originalUrl := .null
  path := .null
  queries := []
  headers := List.replicate MAX_HEADER_FIELD_NUM (.null, .null)
  minorVersion := -1
  headerLen := 0
  bodyLen := 0
  numHeaders := 0
  status := 0
  msg := .null

def getHeaderValue (p : HttpParser) (key : Bytes) : StringView :=
  ((p.headers.find? fun header => Util.stringEqual header.1.bytes key).map Prod.snd).getD .null

/-- `_queries.emplace`: a key that is there keeps its value. -/
def emplaceQuery (p : HttpParser) (key val : StringView) : HttpParser :=
  if p.queries.any fun query => query.1.bytes == key.bytes then
    p
  else
    { p with queries := p.queries ++ [(key, val)] }

/-- The loop of `ParseQuery` from index `i` on, with its locals `key` and `pos`;
`rest` are the characters from `i` on. -/
def scanQuery (str : StringView) (rest : Bytes) (i : Nat) (key : StringView) (pos : Nat)
    (p : HttpParser) : StringView × Nat × HttpParser :=
  match rest with
  | [] => (key, pos, p)
  | chr :: rest =>
      if chr = 61 then
        scanQuery str rest (i + 1) (trimSpace (str.sub pos (i - pos))) (i + 1) p
      else if chr = 38 then
        let val := trimSpace (str.sub pos (i - pos))
        scanQuery str rest (i + 1) key (i + 1) (p.emplaceQuery key val)
      else
        scanQuery str rest (i + 1) key pos p

def parseQuery (p : HttpParser) (str : StringView) : HttpParser :=
  if str.bytes = [] then
    p
  else
    let length := str.bytes.length
    let scan := scanQuery str str.bytes 0 .null 0 p
    let key := scan.1
    let pos := scan.2.1
    let p := scan.2.2
    if pos = 0 then p
    else if 0 < length - pos then p.emplaceQuery key (trimSpace (str.sub pos (length - pos)))
    else p.emplaceQuery key .null

/-- `toHttpHeader` on all slots: those behind the parsed headers are null. -/
def toHttpHeaders (headers : List PhrHeader) : List HttpHeader :=
  headers.map (fun header => (header.name, header.value)) ++
    List.replicate (MAX_HEADER_FIELD_NUM - headers.length) (.null, .null)

/-- The query part of the request target is cut off and parsed. -/
def splitPath (p : HttpParser) : HttpParser :=
  match p.path.bytes.findIdx? fun c => c == 63 with
  | none => p
  | some pos =>
      let p' := p.parseQuery (p.path.sub (pos + 1) (p.path.bytes.length - pos - 1))
      { p' with path := p.path.sub 0 pos }

/-- The return value of a successful parse, narrowed to `int`. -/
def toInt (pos : Nat) : Int := LittleEndian.toSigned 4 (pos % 2 ^ 32)

/-- The assignments of `ParseRequest` after a parse that was not refused. -/
def accept (p : HttpParser) (originalUrl : Bytes) (request : PhrRequest) (headerLen : Int) :
    HttpParser :=
  let p := { p with
    headerLen := headerLen
    numHeaders := request.headers.length
    method := request.method
    path := request.path
    minorVersion := request.minorVersion
    originalUrl := ⟨0, originalUrl⟩
    headers := toHttpHeaders request.headers }
  let contentLen := p.getHeaderValue (Bytes.ofString "content-length")
  splitPath { p with bodyLen := (Util.stringToInt contentLen.bytes).getD 0 }

/-- `ParseRequest` and the parser it leaves. -/
def parseRequest (p : HttpParser) (originalUrl : Bytes) : Nat × HttpParser :=
  if originalUrl = [] then
    (0, p)
  else
    match phrParseRequest originalUrl MAX_HEADER_FIELD_NUM with
    | .needMore numHeaders => (0, { p with headerLen := -2, numHeaders })
    | .fail numHeaders => (0, { p with headerLen := -1, numHeaders })
    | .done request next =>
        let headerLen := toInt next.pos
        if headerLen < 0 then
          (0, { p with headerLen, numHeaders := request.headers.length })
        else
          (headerLen.toNat, p.accept originalUrl request headerLen)

/-- The assignments of `ParseResponse` behind `phr_parse_response`. The headers are
those of an earlier request. -/
def endResponse (p : HttpParser) (headerLen : Int) (note : PhrResponseNote) : HttpParser :=
  let p := { p with
    headerLen
    status := note.status
    msg := note.msg
    numHeaders := note.numHeaders }
  let contentLen := p.getHeaderValue (Bytes.ofString "content-length")
  { p with bodyLen := (Util.stringToInt contentLen.bytes).getD 0 }

/-- `ParseResponse` and the parser it leaves. -/
def parseResponse (p : HttpParser) (originalUrl : Bytes) : Nat × HttpParser :=
  if originalUrl = [] then
    (0, p)
  else
    match phrParseResponse originalUrl MAX_HEADER_FIELD_NUM with
    | .needMore note => (0, p.endResponse (-2) note)
    | .fail note => (0, p.endResponse (-1) note)
    | .done response next =>
        let headerLen := toInt next.pos
        let p := p.endResponse headerLen
          ⟨response.status, response.msg, response.headers.length⟩
        if headerLen < 0 then
          (0, p)
        else
          (headerLen.toNat, { p with minorVersion := response.minorVersion })

/-- What `emplace` does to the table: a key that is there keeps its value. -/
def insertQuery (queries : List (StringView × StringView)) (entry : StringView × StringView) :
    List (StringView × StringView) :=
  if queries.any fun query => query.1.bytes == entry.1.bytes then queries else queries ++ [entry]

def insertQueries (queries entries : List (StringView × StringView)) :
    List (StringView × StringView) :=
  entries.foldl insertQuery queries

/-- The key and the value lie in the text. -/
def EntryIn (text : Bytes) (entry : StringView × StringView) : Prop :=
  entry.1.In text ∧ entry.2.In text

theorem emplaceQuery_eq (p : HttpParser) (key val : StringView) :
    p.emplaceQuery key val = { p with queries := insertQuery p.queries (key, val) } := by
  unfold emplaceQuery insertQuery
  split <;> rfl

/-- What the loop of `ParseQuery` inserts does not depend on the parser. -/
theorem scanQuery_eq (str : StringView) (rest : Bytes) :
    ∀ (i : Nat) (key : StringView) (pos : Nat), ∃ key' pos' entries,
      (∀ p : HttpParser, scanQuery str rest i key pos p
        = (key', pos', { p with queries := insertQueries p.queries entries })) ∧
      ∀ text, str.In text → key.In text → key'.In text ∧ ∀ entry ∈ entries, EntryIn text entry := by
  induction rest with
  | nil =>
      intro i key pos
      exact ⟨key, pos, [], fun p => rfl, fun text _ hkey => ⟨hkey, List.forall_mem_nil _⟩⟩
  | cons chr rest ih =>
      intro i key pos
      have hpiece : ∀ text, str.In text → (trimSpace (str.sub pos (i - pos))).In text :=
        fun text hstr => StringView.In.trimSpace (hstr.sub pos (i - pos))
      simp only [scanQuery]
      split
      · obtain ⟨key', pos', entries, hscan, hin⟩ :=
          ih (i + 1) (trimSpace (str.sub pos (i - pos))) (i + 1)
        exact ⟨key', pos', entries, hscan, fun text hstr _ => hin text hstr (hpiece text hstr)⟩
      · split
        · obtain ⟨key', pos', entries, hscan, hin⟩ := ih (i + 1) key (i + 1)
          refine ⟨key', pos', (key, trimSpace (str.sub pos (i - pos))) :: entries, ?_, ?_⟩
          · intro p
            rw [emplaceQuery_eq, hscan]
            rfl
          · intro text hstr hkey
            obtain ⟨hkey', hentries⟩ := hin text hstr hkey
            exact ⟨hkey', List.forall_mem_cons.mpr ⟨⟨hkey, hpiece text hstr⟩, hentries⟩⟩
        · exact ih (i + 1) key pos

/-- `ParseQuery` inserts pieces of its argument into `_queries` and changes nothing
else. -/
theorem parseQuery_eq (str : StringView) : ∃ entries,
    (∀ p : HttpParser, p.parseQuery str
      = { p with queries := insertQueries p.queries entries }) ∧
    ∀ text, str.In text → ∀ entry ∈ entries, EntryIn text entry := by
  obtain ⟨key, pos, entries, hscan, hin⟩ := scanQuery_eq str str.bytes 0 .null 0
  have hentries : ∀ text, str.In text → key.In text ∧ ∀ entry ∈ entries, EntryIn text entry :=
    fun text hstr => hin text hstr (StringView.null_in text)
  simp only [parseQuery, hscan]
  split
  · exact ⟨[], fun p => rfl, fun text _ => List.forall_mem_nil _⟩
  · split
    · exact ⟨entries, fun p => rfl, fun text hstr => (hentries text hstr).2⟩
    · have hlast : ∀ value : StringView,
          (∀ text, str.In text → value.In text) → ∃ all,
            (∀ p : HttpParser,
              ({ p with queries := insertQueries p.queries entries }).emplaceQuery key value
                = { p with queries := insertQueries p.queries all }) ∧
            ∀ text, str.In text → ∀ entry ∈ all, EntryIn text entry := by
        intro value hvalue
        refine ⟨entries ++ [(key, value)], ?_, ?_⟩
        · intro p
          rw [emplaceQuery_eq, insertQueries, insertQueries, List.foldl_append]
          rfl
        · intro text hstr
          rw [List.forall_mem_append, List.forall_mem_singleton]
          exact ⟨(hentries text hstr).2, (hentries text hstr).1, hvalue text hstr⟩
      split
      · exact hlast _ fun text hstr => StringView.In.trimSpace (hstr.sub pos _)
      · exact hlast _ fun text _ => StringView.null_in text

/-- The part of a request target before its query. -/
def withoutQuery (target : Bytes) : Bytes := target.takeWhile fun c => c != 63

theorem splitPath_eq (path : StringView) : ∃ path' entries,
    (∀ p : HttpParser, p.path = path →
      p.splitPath = { p with path := path', queries := insertQueries p.queries entries }) ∧
    path'.bytes = withoutQuery path.bytes ∧
    ∀ text, path.In text → path'.In text ∧ ∀ entry ∈ entries, EntryIn text entry := by
  cases hpos : path.bytes.findIdx? fun c => c == 63 with
  | none =>
      refine ⟨path, [], ?_, ?_, fun text hpath => ⟨hpath, List.forall_mem_nil _⟩⟩
      · rintro p rfl
        simp only [splitPath, hpos]
        rfl
      · rw [withoutQuery, List.takeWhile_eq_self_iff.mpr]
        intro c hc
        have hne := List.findIdx?_eq_none_iff.mp hpos c hc
        simpa using hne
  | some pos =>
      obtain ⟨entries, hquery, hin⟩ := parseQuery_eq
        (path.sub (pos + 1) (path.bytes.length - pos - 1))
      refine ⟨path.sub 0 pos, entries, ?_, ?_, fun text hpath =>
        ⟨hpath.sub 0 pos, hin text (hpath.sub _ _)⟩⟩
      · rintro p rfl
        simp only [splitPath, hpos, hquery]
      · obtain ⟨-, hidx⟩ := List.findIdx?_eq_some_iff_findIdx_eq.mp hpos
        have hnot : (fun c : UInt8 => !(c != 63)) = fun c => c == 63 := by
          funext c
          simp only [bne, Bool.not_not]
        rw [withoutQuery, List.takeWhile_eq_take_findIdx_not, hnot, hidx]
        rfl

theorem toInt_of_lt {pos : Nat} (hpos : pos < 2 ^ 31) : toInt pos = (pos : Int) := by
  rw [toInt, Nat.mod_eq_of_lt (by omega), LittleEndian.toSigned_eq_iff]
  omega

/-- What a parse leaves of the request. Of what was parsed before only the entries
of `_queries` remain; the new ones are pieces of the text. -/
theorem accept_eq (originalUrl : Bytes) (request : PhrRequest) (headerLen : Int) :
    ∃ path entries bodyLen,
      (∀ p : HttpParser, p.accept originalUrl request headerLen = { p with
        method := request.method
        originalUrl := ⟨0, originalUrl⟩
        path := path
        queries := insertQueries p.queries entries
        headers := toHttpHeaders request.headers
        minorVersion := request.minorVersion
        headerLen := headerLen
        bodyLen := bodyLen
        numHeaders := request.headers.length }) ∧
      path.bytes = withoutQuery request.path.bytes ∧
      ∀ text, request.path.In text → path.In text ∧ ∀ entry ∈ entries, EntryIn text entry := by
  obtain ⟨path, entries, hsplit, hpath, hin⟩ := splitPath_eq request.path
  -- The body length is read off the new headers, whatever the parser was.
  let contentLen := ({ create with headers := toHttpHeaders request.headers }).getHeaderValue
    (Bytes.ofString "content-length")
  refine ⟨path, entries, (Util.stringToInt contentLen.bytes).getD 0, ?_, hpath, hin⟩
  intro p
  rw [accept]
  apply (hsplit _ _).trans
  · rfl
  · rfl

/-- Parsing a text with a request at its front. -/
theorem parseRequest_done (p : HttpParser) {originalUrl : Bytes} {request : PhrRequest}
    {next : Cursor UInt8}
    (hdone : phrParseRequest originalUrl MAX_HEADER_FIELD_NUM = .done request next)
    (hshort : originalUrl.length < 2 ^ 31) :
    p.parseRequest originalUrl = (next.pos, p.accept originalUrl request next.pos) := by
  obtain ⟨hpos, hle⟩ := phrParseRequest_pos hdone
  have hne : originalUrl ≠ [] := by
    rintro rfl
    simp only [List.length_nil] at hle
    omega
  have hint := toInt_of_lt (Nat.lt_of_le_of_lt hle hshort)
  simp only [parseRequest, if_neg hne, hdone, hint, Int.toNat_natCast]
  rw [if_neg (by omega)]

/-- Parsing any other text changes `_headerLen` and `_numHeaders` only. -/
theorem parseRequest_refused (p : HttpParser) {originalUrl : Bytes}
    (hrefused : ∀ request next,
      phrParseRequest originalUrl MAX_HEADER_FIELD_NUM ≠ .done request next) :
    ∃ headerLen numHeaders,
      p.parseRequest originalUrl = (0, { p with headerLen, numHeaders }) := by
  unfold parseRequest
  split
  · exact ⟨p.headerLen, p.numHeaders, rfl⟩
  · split
    · next numHeaders hparse => exact ⟨-2, numHeaders, rfl⟩
    · next numHeaders hparse => exact ⟨-1, numHeaders, rfl⟩
    · next request next hparse => exact absurd hparse (hrefused request next)

end HttpParser

end GameDemoLearn.Net.Http
