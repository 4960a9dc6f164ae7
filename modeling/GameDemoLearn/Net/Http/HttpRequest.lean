import GameDemoLearn.Net.Http.HttpCommon
import GameDemoLearn.Net.Http.HttpParser

/-!
`HttpRequest` (`HttpRequest.cpp`), and what a handler can learn of a request
through its getters.
-/

namespace GameDemoLearn.Net.Http

open Incremental

structure HttpRequest where
  parser : HttpParser

namespace HttpRequest

def create : HttpRequest := ⟨.create⟩

/-- `Parse`: the status and the request it leaves. -/
def parse (req : HttpRequest) (content : Bytes) : StatusCode × HttpRequest :=
  if content = [] then
    (.badRequest, req)
  else
    match req.parser.parseRequest content with
    | (headerLen, parser) =>
        (if headerLen = 0 then .internalServerError else .ok, ⟨parser⟩)

def getMethod (req : HttpRequest) : Bytes := req.parser.method.bytes

def getPath (req : HttpRequest) : Bytes := req.parser.path.bytes

def getVersion (req : HttpRequest) : Bytes :=
  if req.parser.minorVersion = 1 then Bytes.ofString "HTTP/1.1" else Bytes.ofString "HTTP/1.0"

def getHeader (req : HttpRequest) (headerType : Bytes) : Bytes :=
  (req.parser.getHeaderValue headerType).bytes

/-- `GetBody` is a stub in the source. -/
def getBody (_req : HttpRequest) : Bytes := []

/-- What the getters show. -/
structure View where
  method : Bytes
  path : Bytes
  version : Bytes
  header : Bytes → Bytes
  body : Bytes

def view (req : HttpRequest) : View where
  method := req.getMethod
  path := req.getPath
  version := req.getVersion
  header := req.getHeader
  body := req.getBody

/-- What the getters show of a request that was parsed; nothing of it comes from
an earlier one. -/
theorem parse_done (req : HttpRequest) {content : Bytes} {request : PhrRequest}
    {next : Cursor UInt8}
    (hdone : phrParseRequest content MAX_HEADER_FIELD_NUM = .done request next)
    (hshort : content.length < 2 ^ 31) :
    (req.parse content).1 = .ok ∧
      (req.parse content).2.getMethod = request.method.bytes ∧
      (req.parse content).2.getPath = HttpParser.withoutQuery request.path.bytes ∧
      (req.parse content).2.parser.minorVersion = request.minorVersion ∧
      (req.parse content).2.parser.headers = HttpParser.toHttpHeaders request.headers := by
  obtain ⟨hpos, hle⟩ := phrParseRequest_pos hdone
  have hne : content ≠ [] := by
    rintro rfl
    simp only [List.length_nil] at hle
    omega
  obtain ⟨path, entries, bodyLen, haccept, hpath, -⟩ :=
    HttpParser.accept_eq content request next.pos
  have hparse : req.parse content = (.ok, ⟨req.parser.accept content request next.pos⟩) := by
    simp only [parse, if_neg hne, req.parser.parseRequest_done hdone hshort]
    rw [if_neg (by omega)]
  rw [hparse, haccept]
  exact ⟨rfl, rfl, hpath, rfl, rfl⟩

/-- A text that is refused leaves what the getters show as it was. -/
theorem parse_refused (req : HttpRequest) {content : Bytes}
    (hrefused : ∀ request next,
      phrParseRequest content MAX_HEADER_FIELD_NUM ≠ .done request next) :
    (req.parse content).1 ≠ .ok ∧ (req.parse content).2.view = req.view := by
  unfold parse
  split
  · exact ⟨by simp, rfl⟩
  · obtain ⟨headerLen, numHeaders, hparse⟩ := req.parser.parseRequest_refused hrefused
    rw [hparse]
    exact ⟨by simp, rfl⟩

theorem parse_ok_iff (req : HttpRequest) {content : Bytes} (hshort : content.length < 2 ^ 31) :
    (req.parse content).1 = .ok ↔
      ∃ request next, phrParseRequest content MAX_HEADER_FIELD_NUM = .done request next := by
  constructor
  · intro hok
    by_contra hnone
    push Not at hnone
    exact (req.parse_refused hnone).1 hok
  · rintro ⟨request, next, hdone⟩
    exact (req.parse_done hdone hshort).1

/-- What `Parse` leaves: the parser that accepts the text, or the one before with
other lengths. -/
theorem parse_cases (req : HttpRequest) {content : Bytes} (hshort : content.length < 2 ^ 31) :
    ((req.parse content).1 ≠ .ok ∧ ∃ headerLen numHeaders,
      (req.parse content).2 = ⟨{ req.parser with headerLen, numHeaders }⟩) ∨
    ((req.parse content).1 = .ok ∧ ∃ request headerLen, request.In content ∧
      (req.parse content).2 = ⟨req.parser.accept content request headerLen⟩) := by
  by_cases hok : (req.parse content).1 = .ok
  · obtain ⟨request, next, hdone⟩ := (req.parse_ok_iff hshort).mp hok
    refine .inr ⟨hok, request, next.pos, phrParseRequest_in hdone, ?_⟩
    have hne : content ≠ [] := by
      rintro rfl
      cases hok
    simp only [parse, if_neg hne, req.parser.parseRequest_done hdone hshort]
  · refine .inl ⟨hok, ?_⟩
    unfold parse
    split
    · exact ⟨req.parser.headerLen, req.parser.numHeaders, rfl⟩
    · have hrefused : ∀ request next,
          phrParseRequest content MAX_HEADER_FIELD_NUM ≠ .done request next :=
        fun request next hdone => hok ((req.parse_ok_iff hshort).mpr ⟨request, next, hdone⟩)
      obtain ⟨headerLen, numHeaders, hparse⟩ := req.parser.parseRequest_refused hrefused
      exact ⟨headerLen, numHeaders, by rw [hparse]⟩

/-- What a parsed request shows does not depend on the requests before it. -/
theorem view_parse (req req' : HttpRequest) {content : Bytes}
    (hok : (req.parse content).1 = .ok) (hshort : content.length < 2 ^ 31) :
    (req.parse content).2.view = (req'.parse content).2.view := by
  obtain ⟨request, next, hdone⟩ := (req.parse_ok_iff hshort).mp hok
  obtain ⟨-, hmethod, hpath, hversion, hheaders⟩ := req.parse_done hdone hshort
  obtain ⟨-, hmethod', hpath', hversion', hheaders'⟩ := req'.parse_done hdone hshort
  have hheader : (req.parse content).2.getHeader = (req'.parse content).2.getHeader := by
    funext headerType
    simp only [getHeader, HttpParser.getHeaderValue, hheaders, hheaders']
  simp only [view, hmethod, hmethod', hpath, hpath', getVersion, hversion, hversion', hheader,
    getBody]

end HttpRequest

/-- The method and path of a text that is one complete request. -/
def requestOf (text : Bytes) : Option (Bytes × Bytes) :=
  match phrParseRequest text MAX_HEADER_FIELD_NUM with
  | .done request next =>
      if next.rest = [] then
        some (request.method.bytes, HttpParser.withoutQuery request.path.bytes)
      else
        none
  | _ => none

theorem requestOf_done {text : Bytes} {pair : Bytes × Bytes}
    (hrequest : requestOf text = some pair) :
    ∃ request next, phrParseRequest text MAX_HEADER_FIELD_NUM = .done request next ∧
      next.rest = [] ∧
      pair = (request.method.bytes, HttpParser.withoutQuery request.path.bytes) := by
  unfold requestOf at hrequest
  split at hrequest
  · next request next hdone =>
      split at hrequest
      · next hwhole =>
          cases hrequest
          exact ⟨request, next, hdone, hwhole, rfl⟩
      · cases hrequest
  · cases hrequest

end GameDemoLearn.Net.Http
