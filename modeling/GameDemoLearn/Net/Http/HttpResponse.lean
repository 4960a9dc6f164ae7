import GameDemoLearn.Net.Http.HttpCommon

/-!
`HttpResponse` (`HttpResponse.cpp`). The clock's reading is an argument of
`getPayload`.
-/

namespace GameDemoLearn.Net.Http

structure HttpResponse where
  statusCode : StatusCode
  contentType : ContentType
  head : Bytes
  content : Bytes
  charset : Bytes
  headers : List (Bytes × Bytes)

namespace HttpResponse

def create : HttpResponse where
  statusCode := .unknown
  contentType := .string
  head := []
  content := []
  charset := Bytes.ofString "UTF-8"
  headers := []

def setStatusCode (resp : HttpResponse) (statusCode : StatusCode) : HttpResponse :=
  { resp with statusCode }

def setHeader (resp : HttpResponse) (fieldName fieldVal : Bytes) : HttpResponse :=
  { resp with headers := resp.headers ++ [(fieldName, fieldVal)] }

def setCharSet (resp : HttpResponse) (charset : Bytes) : HttpResponse :=
  { resp with charset }

def setContentType (resp : HttpResponse) (type : ContentType) : HttpResponse :=
  { resp with contentType := type }

def setContent (resp : HttpResponse) (content : Bytes) : HttpResponse :=
  { resp with content }

def fillResponse (resp : HttpResponse) (statusCode : StatusCode) (type : ContentType)
    (content : Bytes) : HttpResponse :=
  { resp with statusCode, contentType := type, content }

/-- The `Host` header, unless a header of that name is there. -/
def addHost (resp : HttpResponse) : HttpResponse :=
  if resp.headers.any fun header => header.1 == Bytes.ofString "Host" then
    resp
  else
    resp.setHeader (Bytes.ofString "Host") (Bytes.ofString "Harold")

/-- The page of an error status, behind the content. -/
def addErrorContent (resp : HttpResponse) : HttpResponse :=
  if StatusCode.notFound.toUnderlying ≤ resp.statusCode.toUnderlying then
    { resp with content := resp.content ++ statusToResponseContent resp.statusCode }
  else
    resp

def addContentLength (resp : HttpResponse) : HttpResponse :=
  if resp.content = [] then
    resp.setHeader (Bytes.ofString "Content-Length") (Bytes.ofString "0")
  else
    resp.setHeader (Bytes.ofString "Content-Length") (Util.toChars resp.content.length)

/-- One line of the head. -/
def headerLine (header : Bytes × Bytes) : Bytes := header.1 ++ [58] ++ header.2 ++ CRLF

/-- `BuildResponseHead`, with the time `now` as `GetGMTTimeStr` prints it. -/
def buildResponseHead (resp : HttpResponse) (now : Bytes) : HttpResponse :=
  let resp := resp.addHost.addErrorContent.addContentLength.setHeader (Bytes.ofString "Date") now
  { resp with
    head := resp.head ++ statusToResponseHead resp.statusCode ++ resp.headers.flatMap headerLine }

/-- `GetPayload`: the response it leaves, whose `head` is the payload. -/
def getPayload (resp : HttpResponse) (now : Bytes) : HttpResponse :=
  let resp := resp.buildResponseHead now
  { resp with
    head := resp.head ++ contentTypeString resp.contentType resp.charset ++ CRLF ++ resp.content }

theorem addContentLength_eq (resp : HttpResponse) :
    resp.addContentLength
      = resp.setHeader (Bytes.ofString "Content-Length") (Util.toChars resp.content.length) := by
  unfold addContentLength
  split
  · next hempty => rw [hempty]; rfl
  · rfl

theorem addHost_eq (resp : HttpResponse) :
    resp.addHost = { resp with headers := resp.addHost.headers } := by
  unfold addHost
  split <;> rfl

theorem addErrorContent_headers (resp : HttpResponse) (headers : List (Bytes × Bytes)) :
    ({ resp with headers } : HttpResponse).addErrorContent
      = { resp with headers, content := resp.addErrorContent.content } := by
  unfold addErrorContent
  split <;> rfl

/-- The lines of a head. -/
def headerBytes (headers : List (Bytes × Bytes)) : Bytes := headers.flatMap headerLine

/-- What a payload consists of: the head left by earlier ones comes first. -/
theorem getPayload_head (resp : HttpResponse) (now : Bytes) :
    (resp.getPayload now).head
      = resp.head ++ statusToResponseHead resp.statusCode
        ++ headerBytes (resp.addHost.headers
          ++ [(Bytes.ofString "Content-Length", Util.toChars resp.addErrorContent.content.length)]
          ++ [(Bytes.ofString "Date", now)])
        ++ contentTypeString resp.contentType resp.charset ++ CRLF
        ++ resp.addErrorContent.content := by
  simp only [getPayload, buildResponseHead]
  rw [addHost_eq, addErrorContent_headers, addContentLength_eq]
  rfl

/-- The status line comes right behind the old head. -/
theorem exists_getPayload_head (resp : HttpResponse) (now : Bytes) :
    ∃ more, (resp.getPayload now).head
      = resp.head ++ (statusToResponseHead resp.statusCode ++ more) := by
  rw [getPayload_head]
  simp only [List.append_assoc]
  exact ⟨_, rfl⟩

/-- An answer was put behind the head, or nothing was. -/
def HeadGrows (head head' : Bytes) : Prop :=
  head' = head ∨ ∃ status more, head' = head ++ (statusToResponseHead status ++ more)

theorem headGrows_getPayload (resp : HttpResponse) (now : Bytes) :
    HeadGrows resp.head (resp.getPayload now).head :=
  .inr ⟨resp.statusCode, resp.exists_getPayload_head now⟩

end HttpResponse

end GameDemoLearn.Net.Http
