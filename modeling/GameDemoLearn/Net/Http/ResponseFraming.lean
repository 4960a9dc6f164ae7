import GameDemoLearn.Lib.Lines
import GameDemoLearn.Net.Http.HttpRouter
import GameDemoLearn.Util.TimeUtil

/-!
The first payload of a response as a reader of HTTP takes it: the head ends at the
first empty line, and the body has as many bytes as the `Content-Length` header says.
-/

namespace GameDemoLearn.Net.Http

/-- The header that a call adds. -/
def ResponseCall.header? : ResponseCall → Option (Bytes × Bytes)
  | .setHeader fieldName fieldVal => some (fieldName, fieldVal)
  | _ => none

/-- The headers that were set, in the order of the calls. -/
def setHeaders (calls : List ResponseCall) : List (Bytes × Bytes) :=
  calls.filterMap ResponseCall.header?

namespace HttpResponse

def applyAll (resp : HttpResponse) (calls : List ResponseCall) : HttpResponse :=
  calls.foldl apply resp

theorem applyAll_cons (resp : HttpResponse) (c : ResponseCall) (calls : List ResponseCall) :
    resp.applyAll (c :: calls) = (resp.apply c).applyAll calls := rfl

theorem head_applyAll (resp : HttpResponse) (calls : List ResponseCall) :
    (resp.applyAll calls).head = resp.head := by
  induction calls generalizing resp with
  | nil => rfl
  | cons c calls ih => rw [applyAll_cons, ih, head_apply]

theorem headers_apply (resp : HttpResponse) (c : ResponseCall) :
    (resp.apply c).headers = resp.headers ++ c.header?.toList := by
  cases c <;> simp [apply, ResponseCall.header?, setStatusCode, setHeader, setCharSet,
    setContentType, setContent, fillResponse]

theorem headers_applyAll (resp : HttpResponse) (calls : List ResponseCall) :
    (resp.applyAll calls).headers = resp.headers ++ setHeaders calls := by
  induction calls generalizing resp with
  | nil => exact (List.append_nil _).symm
  | cons c calls ih =>
      rw [applyAll_cons, ih, headers_apply, List.append_assoc]
      congr 1
      cases hheader : c.header? <;> simp [setHeaders, hheader]

/-- The charset was there or was set by one of the calls. -/
theorem charset_applyAll (resp : HttpResponse) (calls : List ResponseCall) :
    (resp.applyAll calls).charset = resp.charset ∨
      .setCharSet (resp.applyAll calls).charset ∈ calls := by
  induction calls generalizing resp with
  | nil => exact .inl rfl
  | cons c calls ih =>
      rw [applyAll_cons]
      rcases ih (resp.apply c) with hbefore | hlater
      · rw [hbefore]
        cases c with
        | setCharSet charset => exact .inr List.mem_cons_self
        | _ => exact .inl rfl
      · exact .inr (List.mem_cons_of_mem _ hlater)

/-- Besides the headers that were set there is at most `Host`. -/
theorem mem_addHost {resp : HttpResponse} {header : Bytes × Bytes}
    (hheader : header ∈ resp.addHost.headers) :
    header ∈ resp.headers ∨ header = (Bytes.ofString "Host", Bytes.ofString "Harold") := by
  unfold addHost at hheader
  split at hheader
  · exact .inl hheader
  · rw [setHeader, List.mem_append, List.mem_singleton] at hheader
    exact hheader

end HttpResponse

section Lines

/-- The text of a status line. -/
def statusText (status : StatusCode) : Bytes :=
  Bytes.ofString "HTTP/1.1 " ++ Util.toChars status.toUnderlying ++ [32] ++ status.enumName

/-- The text of a header line. -/
def headerText (header : Bytes × Bytes) : Bytes := header.1 ++ 58 :: header.2

/-- The text of the last header line. -/
def contentTypeText (type : ContentType) (charset : Bytes) : Bytes :=
  match type with
  | .string => Bytes.ofString "Content-Type: text/plain; charset=" ++ charset
  | .html => Bytes.ofString "Content-Type: text/html; charset=" ++ charset
  | .json => Bytes.ofString "Content-Type: application/json; charset=" ++ charset

/-- The header lines of a response before its content type. -/
def HttpResponse.allHeaders (resp : HttpResponse) (now : Bytes) : List (Bytes × Bytes) :=
  resp.addHost.headers
    ++ [(Bytes.ofString "Content-Length", Util.toChars resp.addErrorContent.content.length)]
    ++ [(Bytes.ofString "Date", now)]

/-- The lines of a head. -/
def HttpResponse.headTexts (resp : HttpResponse) (now : Bytes) : List Bytes :=
  statusText resp.statusCode :: (resp.allHeaders now).map headerText
    ++ [contentTypeText resp.contentType resp.charset]

theorem statusToResponseHead_eq (status : StatusCode) :
    statusToResponseHead status = statusText status ++ CRLF := rfl

theorem headerLine_eq (header : Bytes × Bytes) :
    HttpResponse.headerLine header = headerText header ++ [CR, LF] := by
  simp [HttpResponse.headerLine, headerText, CRLF, CR, LF]

theorem headerBytes_eq (headers : List (Bytes × Bytes)) :
    HttpResponse.headerBytes headers = Lines.unlines CR LF (headers.map headerText) := by
  rw [HttpResponse.headerBytes, Lines.unlines, List.flatMap_map, funext headerLine_eq]

theorem contentTypeString_eq (type : ContentType) (charset : Bytes) :
    contentTypeString type charset = contentTypeText type charset ++ CRLF := by
  cases type <;> rfl

/-- A payload is the lines of its head, an empty line and the content. -/
theorem HttpResponse.getPayload_eq (resp : HttpResponse) (now : Bytes) :
    (resp.getPayload now).head
      = resp.head ++ (Lines.unlines CR LF (resp.headTexts now) ++ CRLF
        ++ resp.addErrorContent.content) := by
  rw [getPayload_head, statusToResponseHead_eq, contentTypeString_eq]
  simp [headTexts, allHeaders, headerBytes_eq, Lines.unlines, CRLF, CR, LF]

end Lines

/-- The name of a header line is what comes before its first colon. -/
def fieldName (line : Bytes) : Bytes := line.takeWhile fun c => c != 58

def fieldValue (line : Bytes) : Bytes := (line.dropWhile fun c => c != 58).tail

/-- The values of the `Content-Length` header lines behind the status line. -/
def contentLengths (head : Bytes) : List Bytes :=
  ((Lines.lines CR LF head).tail.filter fun line =>
    fieldName line == Bytes.ofString "Content-Length").map fieldValue

/-- The head before the first empty line has one `Content-Length` header line, and its
value is the number of bytes behind the empty line. -/
def Framed (payload : Bytes) : Prop :=
  ∃ head body value, Lines.cut (CRLF ++ CRLF) payload = some (head, body) ∧
    contentLengths head = [value] ∧ Util.digitsValue value = some body.length

def NoLineBreak (text : Bytes) : Prop := CR ∉ text ∧ LF ∉ text

instance (text : Bytes) : Decidable (NoLineBreak text) :=
  inferInstanceAs (Decidable (CR ∉ text ∧ LF ∉ text))

/-- No name, value or charset has a CR or LF, and each name of a header is one that
`allowed` lets pass. -/
structure Unbroken (allowed : Bytes → Prop) (calls : List ResponseCall) : Prop where
  headers : ∀ header ∈ setHeaders calls,
    NoLineBreak header.1 ∧ NoLineBreak header.2 ∧ allowed header.1
  charsets : ∀ charset, .setCharSet charset ∈ calls → NoLineBreak charset

theorem noLineBreak_of_isPrint {text : Bytes} (htext : ∀ c ∈ text, Util.isPrint c = true) :
    NoLineBreak text :=
  ⟨fun hcr => Bool.noConfusion (htext CR hcr), fun hlf => Bool.noConfusion (htext LF hlf)⟩

theorem NoLineBreak.append {text text' : Bytes} (h : NoLineBreak text) (h' : NoLineBreak text') :
    NoLineBreak (text ++ text') := by
  simp only [NoLineBreak, List.mem_append, not_or]
  exact ⟨⟨h.1, h'.1⟩, h.2, h'.2⟩

theorem fieldName_headerText (header : Bytes × Bytes) :
    fieldName (headerText header) = fieldName header.1 := by
  obtain ⟨name, value⟩ := header
  simp only [fieldName, headerText]
  induction name with
  | nil => rfl
  | cons c name ih =>
      rw [List.cons_append, List.takeWhile_cons, List.takeWhile_cons, ih]

theorem isPrint_enumName (status : StatusCode) :
    ∀ c ∈ status.enumName, Util.isPrint c = true := by
  rw [← List.all_eq_true]
  cases status <;> decide

theorem isPrint_statusText (status : StatusCode) :
    ∀ c ∈ statusText status, Util.isPrint c = true := by
  have hversion : ∀ c ∈ Bytes.ofString "HTTP/1.1 ", Util.isPrint c = true :=
    List.all_eq_true.mp (by decide)
  have hblank : ∀ c ∈ ([32] : Bytes), Util.isPrint c = true := List.all_eq_true.mp rfl
  simp only [statusText, List.forall_mem_append, and_assoc]
  exact ⟨hversion, Util.isPrint_toChars _, hblank, isPrint_enumName status⟩

theorem fieldName_contentTypeText (type : ContentType) (charset : Bytes) :
    fieldName (contentTypeText type charset) = Bytes.ofString "Content-Type" := by
  cases type <;> rfl

section Payload

variable {resp : HttpResponse} {now : Bytes}

/-- The lines of a head are not empty, and no line has a CR in it. -/
theorem headTexts_unbroken (hnow : NoLineBreak now) (hcharset : NoLineBreak resp.charset)
    (hheaders : ∀ header ∈ resp.headers, NoLineBreak header.1 ∧ NoLineBreak header.2) :
    ∀ text ∈ resp.headTexts now, text ≠ [] ∧ CR ∉ text := by
  have hcolon : NoLineBreak [58] := by decide
  have hheader : ∀ name value : Bytes, NoLineBreak name → NoLineBreak value →
      headerText (name, value) ≠ [] ∧ CR ∉ headerText (name, value) := by
    intro name value hname hvalue
    constructor
    · simp [headerText]
    · rw [headerText, ← List.singleton_append]
      exact (hname.append (hcolon.append hvalue)).1
  have hcontentType : contentTypeText resp.contentType resp.charset ≠ [] ∧
      CR ∉ contentTypeText resp.contentType resp.charset := by
    cases resp.contentType
    all_goals
      refine ⟨List.append_ne_nil_of_left_ne_nil (by decide) _, ?_⟩
      exact (NoLineBreak.append (by decide) hcharset).1
  simp only [HttpResponse.headTexts, HttpResponse.allHeaders, List.map_append,
    List.forall_mem_append, List.forall_mem_cons, List.forall_mem_map, List.map_cons,
    List.map_nil, List.not_mem_nil, false_implies, implies_true, and_true]
  have hstatus := (noLineBreak_of_isPrint (isPrint_statusText resp.statusCode)).1
  have hlength := noLineBreak_of_isPrint (Util.isPrint_toChars resp.addErrorContent.content.length)
  refine ⟨⟨⟨by simp [statusText], hstatus⟩, ⟨?_, hheader _ _ (by decide) hlength⟩,
    hheader _ _ (by decide) hnow⟩, hcontentType⟩
  intro header hmem
  rcases HttpResponse.mem_addHost hmem with hset | rfl
  · exact hheader _ _ (hheaders header hset).1 (hheaders header hset).2
  · exact hheader _ _ (by decide) (by decide)

/-- The header that the response adds is the only one of its name. -/
theorem contentLengths_of_lines {head : Bytes}
    (hlines : Lines.lines CR LF head = resp.headTexts now)
    (hheaders : ∀ header ∈ resp.headers,
      fieldName header.1 ≠ Bytes.ofString "Content-Length") :
    contentLengths head = [Util.toChars resp.addErrorContent.content.length] := by
  have hfront : (resp.addHost.headers.map headerText).filter
      (fun line => fieldName line == Bytes.ofString "Content-Length") = [] := by
    rw [List.filter_eq_nil_iff, List.forall_mem_map]
    intro header hmem
    rw [fieldName_headerText, beq_iff_eq]
    rcases HttpResponse.mem_addHost hmem with hset | rfl
    · exact hheaders header hset
    · decide
  have hlength : (fieldName (Bytes.ofString "Content-Length")
      == Bytes.ofString "Content-Length") = true := by decide
  have hdate : (fieldName (Bytes.ofString "Date") == Bytes.ofString "Content-Length") = false := by
    decide
  have htype : (Bytes.ofString "Content-Type" == Bytes.ofString "Content-Length") = false := by
    decide
  rw [contentLengths, hlines, HttpResponse.headTexts, List.cons_append, List.tail_cons,
    HttpResponse.allHeaders, List.map_append, List.map_append, List.filter_append,
    List.filter_append, List.filter_append, hfront, List.nil_append]
  simp only [List.map_cons, List.map_nil, List.filter_cons, List.filter_nil, fieldName_headerText,
    fieldName_contentTypeText, hlength, hdate, htype, Bool.false_eq_true, if_true, if_false]
  rfl

/-- The first payload of a response whose head is still empty. -/
theorem framed_of_headers (hhead : resp.head = []) (hnow : NoLineBreak now)
    (hcharset : NoLineBreak resp.charset)
    (hheaders : ∀ header ∈ resp.headers, NoLineBreak header.1 ∧ NoLineBreak header.2 ∧
      fieldName header.1 ≠ Bytes.ofString "Content-Length") :
    Framed (resp.getPayload now).head := by
  have hunbroken := headTexts_unbroken hnow hcharset fun header hmem =>
    ⟨(hheaders header hmem).1, (hheaders header hmem).2.1⟩
  obtain ⟨head, hcut, hlines⟩ := Lines.cut_unlines (by decide : CR ≠ LF)
    (List.cons_ne_nil (statusText resp.statusCode) _) hunbroken resp.addErrorContent.content
  refine ⟨head, resp.addErrorContent.content, Util.toChars resp.addErrorContent.content.length,
    ?_, contentLengths_of_lines hlines fun header hmem => (hheaders header hmem).2.2,
    Util.digitsValue_toChars _⟩
  rw [resp.getPayload_eq, hhead, List.nil_append]
  exact hcut

end Payload

theorem noLineBreak_charset {allowed : Bytes → Prop} {calls : List ResponseCall}
    (hcalls : Unbroken allowed calls) :
    NoLineBreak (HttpResponse.create.applyAll calls).charset := by
  rcases HttpResponse.create.charset_applyAll calls with hfresh | hset
  · rw [hfresh]
    decide
  · exact hcalls.charsets _ hset

/-- The first payload of a response is framed, whatever was set, as long as no name,
value or charset breaks a line and no name reads as `Content-Length` up to its first
colon. -/
theorem getPayload_framed (calls : List ResponseCall) (time : TimeUtil.SystemTime)
    (hcalls : Unbroken (fun name => fieldName name ≠ Bytes.ofString "Content-Length") calls) :
    Framed ((HttpResponse.create.applyAll calls).getPayload
      (TimeUtil.getGMTTimeStr time)).head := by
  apply framed_of_headers
  · rw [HttpResponse.head_applyAll]
    rfl
  · exact noLineBreak_of_isPrint (TimeUtil.isPrint_getGMTTimeStr time)
  · exact noLineBreak_charset hcalls
  · rw [HttpResponse.headers_applyAll]
    exact hcalls.headers

/-- A missing page, with content that has an empty line of its own. -/
def missingPage : List ResponseCall :=
  [.setHeader (Bytes.ofString "Server") (Bytes.ofString "demo"),
    .fillResponse .notFound .html (Bytes.ofString "no\r\n\r\npage")]

def newYear : TimeUtil.SystemTime := ⟨1, 1, 0, 2024, 0, 0, 0, []⟩

theorem getPayload_framed_missingPage :
    Framed ((HttpResponse.create.applyAll missingPage).getPayload
      (TimeUtil.getGMTTimeStr newYear)).head := by
  apply getPayload_framed missingPage newYear
  constructor
  · decide
  · intro charset hmem
    simp [missingPage] at hmem

/-- A name that goes on behind a colon. -/
def colonName : List ResponseCall :=
  [.setHeader (Bytes.ofString "Content-Length:5") (Bytes.ofString "x")]

/-- With this name, which is not `Content-Length` itself, a head has two header lines
of that name. -/
theorem colon_name_not_framed :
    ¬ ∀ (calls : List ResponseCall) (time : TimeUtil.SystemTime),
      Unbroken (fun name => name ≠ Bytes.ofString "Content-Length") calls →
        Framed ((HttpResponse.create.applyAll calls).getPayload
          (TimeUtil.getGMTTimeStr time)).head := by
  intro hframed
  have hcalls : Unbroken (fun name => name ≠ Bytes.ofString "Content-Length") colonName := by
    constructor
    · decide
    · intro charset hmem
      simp [colonName] at hmem
  obtain ⟨head, body, value, hcut, hlengths, -⟩ := hframed colonName newYear hcalls
  have htwo : (Lines.cut (CRLF ++ CRLF) ((HttpResponse.create.applyAll colonName).getPayload
      (TimeUtil.getGMTTimeStr newYear)).head).map (fun parts => (contentLengths parts.1).length)
        = some 2 := by
    decide +kernel
  rw [hcut, Option.map_some, hlengths] at htwo
  cases htwo

end GameDemoLearn.Net.Http
