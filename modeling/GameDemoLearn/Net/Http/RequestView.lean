import GameDemoLearn.Net.Http.HttpRequest
import GameDemoLearn.Net.Http.RequestGrammar

/-!
What the getters of `HttpRequest` show of a request, in terms of the texts that the client wrote.
-/

namespace GameDemoLearn.Net.Http

open Incremental

/-- The first header of a name, in any case of its letters, or nothing. -/
def RequestTexts.header (texts : RequestTexts) (headerType : Bytes) : Bytes :=
  ((texts.headers.find? fun header => Util.stringEqual header.1 headerType).map Prod.snd).getD []

/-- What a request says to a handler: the target is cut at its question mark, and every minor
version other than 1 counts as 0. -/
def RequestTexts.view (texts : RequestTexts) : HttpRequest.View where
  method := texts.method
  path := texts.path.takeWhile fun c => c != 63
  version :=
    if texts.minorVersion = 1 then Bytes.ofString "HTTP/1.1" else Bytes.ofString "HTTP/1.0"
  header := texts.header
  body := []

/-- What a text says: the request it begins with, if there is one. -/
def Says (text : Bytes) : Option RequestTexts → Prop
  | some texts => ∃ front rest, text = front ++ rest ∧ IsRequest MAX_HEADER_FIELD_NUM texts front
  | none => ∀ texts front rest, text = front ++ rest → ¬ IsRequest MAX_HEADER_FIELD_NUM texts front

theorem exists_says (text : Bytes) : ∃ request, Says text request := by
  by_cases hsome : ∃ texts, Says text (some texts)
  case pos =>
    obtain ⟨texts, htexts⟩ := hsome
    exact ⟨some texts, htexts⟩
  case neg =>
    refine ⟨none, fun texts front rest hsplit hrequest => hsome ?_⟩
    exact ⟨texts, front, rest, hsplit, hrequest⟩

/-- The slots behind the parsed headers add nothing to a search. -/
theorem getD_find_toHttpHeaders (headers : List PhrHeader) (key : Bytes) :
    (((HttpParser.toHttpHeaders headers).find? fun header =>
        Util.stringEqual header.1.bytes key).map Prod.snd).getD .null =
      ((headers.find? fun header => Util.stringEqual header.name.bytes key).map
        PhrHeader.value).getD .null := by
  rw [HttpParser.toHttpHeaders, List.find?_append, List.find?_map]
  cases hfound : headers.find? fun header => Util.stringEqual header.name.bytes key with
  | some header =>
      change headers.find? ((fun header : HttpHeader => Util.stringEqual header.1.bytes key) ∘
        fun header : PhrHeader => (header.name, header.value)) = some header at hfound
      rw [hfound]
      rfl
  | none =>
      change headers.find? ((fun header : HttpHeader => Util.stringEqual header.1.bytes key) ∘
        fun header : PhrHeader => (header.name, header.value)) = none at hfound
      rw [hfound, Option.map_none, Option.none_or]
      cases hslot : (List.replicate (MAX_HEADER_FIELD_NUM - headers.length)
          ((.null, .null) : HttpHeader)).find? fun header =>
            Util.stringEqual header.1.bytes key with
      | none => rfl
      | some slot =>
          rw [List.eq_of_mem_replicate (List.mem_of_find?_eq_some hslot)]
          rfl

theorem PhrRequest.bytes_header (request : PhrRequest) (key : Bytes) :
    ((request.headers.find? fun header => Util.stringEqual header.name.bytes key).map
      PhrHeader.value |>.getD .null).bytes = request.texts.header key := by
  rw [RequestTexts.header, PhrRequest.texts, List.find?_map]
  change _ = (((request.headers.find? fun header => Util.stringEqual header.name.bytes key).map
    PhrHeader.texts).map Prod.snd).getD []
  cases request.headers.find? fun header => Util.stringEqual header.name.bytes key <;> rfl

/-- A handler is shown what the request says, whatever was parsed before. -/
theorem HttpRequest.view_parse_of_says (req : HttpRequest) {content : Bytes}
    {texts : RequestTexts} (htexts : Says content (some texts)) (hshort : content.length < 2 ^ 31) :
    (req.parse content).1 = .ok ∧ (req.parse content).2.view = texts.view := by
  obtain ⟨front, rest, rfl, hrequest⟩ := htexts
  obtain ⟨request, next, hdone, -, rfl⟩ := phrParseRequest_of_isRequest hrequest rest
  obtain ⟨hok, hmethod, hpath, hversion, hheaders⟩ := req.parse_done hdone hshort
  refine ⟨hok, ?_⟩
  have hheader : (req.parse (front ++ rest)).2.getHeader = request.texts.header := by
    funext key
    rw [getHeader, HttpParser.getHeaderValue, hheaders, getD_find_toHttpHeaders,
      PhrRequest.bytes_header]
  rw [view, hmethod, hpath, getVersion, hversion, hheader]
  rfl

/-- A text that does not begin with a request is refused, and the getters go on showing the
request before it. -/
theorem HttpRequest.view_parse_of_says_none (req : HttpRequest) {content : Bytes}
    (htexts : Says content none) :
    (req.parse content).1 ≠ .ok ∧ (req.parse content).2.view = req.view := by
  apply req.parse_refused
  intro request next hdone
  obtain ⟨front, hsplit, hrequest⟩ := isRequest_of_phrParseRequest hdone
  exact htexts _ front next.rest hsplit hrequest

end GameDemoLearn.Net.Http
