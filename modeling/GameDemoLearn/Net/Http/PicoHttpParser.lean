import GameDemoLearn.Lib.Incremental
import GameDemoLearn.Util.Bytes
import Mathlib.Data.List.DropRight

/-!
`phr_parse_request` and `phr_parse_response` (`picohttpparser.c`). The C functions walk a
pointer over the text and return `-2` where the text ends too early and `-1` where it is
malformed. The note of an unfinished or failed parse is `*num_headers`, which the caller sees
in every case, and for a response also `*status` and `*msg`. The vectorised search of
`findchar_fast` only skips characters that the loops behind it accept, so it does not appear.
On success the C functions return the length of what they parsed as an `int`; here it is the
place of the cursor, and `HttpParser.toInt` narrows it, which differs from `2 ^ 31` bytes on.
-/

namespace GameDemoLearn.Net.Http

open Incremental

/-- A piece of a text: where it starts and its bytes. -/
structure StringView where
  offset : Nat
  bytes : Bytes
  deriving DecidableEq

def StringView.null : StringView := ⟨0, []⟩

def CR : UInt8 := 13
def LF : UInt8 := 10
def SP : UInt8 := 32
def HT : UInt8 := 9
def DEL : UInt8 := 127

abbrev PhrParser := Parser UInt8 Nat

/-- `token_char_map`; the characters from 128 on are no token characters. -/
def tokenCharMap : List Bool :=
  List.replicate 33 false ++
    [true, false, true, true, true, true, true, false, false, true, true, false, true, true, false]
    ++ List.replicate 10 true ++ List.replicate 7 false ++ List.replicate 26 true
    ++ List.replicate 3 false ++ List.replicate 29 true ++ [false, true, false, true, false]

def isTokenChar (c : UInt8) : Bool := tokenCharMap.getD c.toNat false

/-- A control character other than those `get_token_to_eol` passes over. -/
def isCtl (c : UInt8) : Bool := (c < SP && c != HT) || c == DEL

def isBlank (c : UInt8) : Bool := c == SP || c == HT

/-- `EXPECT_CHAR`. -/
def expectChar (numHeaders : Nat) (ch : UInt8) : PhrParser Unit := do
  let c ← Parser.next numHeaders
  if c = ch then pure () else Parser.fail numHeaders

def scanToken (numHeaders : Nat) (stop bad : UInt8 → Bool) : PhrParser StringView := do
  let offset ← Parser.position
  let bytes ← Parser.scan numHeaders stop bad
  pure ⟨offset, bytes⟩

def parseToken (numHeaders : Nat) (nextChar : UInt8) : PhrParser StringView :=
  scanToken numHeaders (fun c => c == nextChar) fun c => !isTokenChar c

/-- `ADVANCE_TOKEN`. -/
def advanceToken (numHeaders : Nat) : PhrParser StringView :=
  scanToken numHeaders (fun c => c == SP) fun c => c < SP || c == DEL

/-- `do { ++buf; CHECK_EOF(); } while (*buf == ' ')`. -/
def skipSpaces (numHeaders : Nat) : PhrParser Unit := do
  let _ ← Parser.next numHeaders
  let _ ← Parser.scan numHeaders (fun c => c != SP) fun _ => false
  pure ()

/-- The end of a line: CR LF, or LF alone. -/
def lineEnd (numHeaders : Nat) : PhrParser Unit := do
  let c ← Parser.next numHeaders
  if c = CR then expectChar numHeaders LF
  else if c = LF then pure ()
  else Parser.fail numHeaders

def getTokenToEol (numHeaders : Nat) : PhrParser StringView := do
  let token ← scanToken numHeaders isCtl fun _ => false
  lineEnd numHeaders
  pure token

def parseHttpVersion (numHeaders : Nat) : PhrParser Int := do
  Parser.require numHeaders 9
  expectChar numHeaders 72
  expectChar numHeaders 84
  expectChar numHeaders 84
  expectChar numHeaders 80
  expectChar numHeaders 47
  expectChar numHeaders 49
  expectChar numHeaders 46
  let c ← Parser.next numHeaders
  if c < 48 || 57 < c then Parser.fail numHeaders else pure (c.toNat - 48 : Nat)

/-- `phr_header`; the name is null in a continuation line. -/
structure PhrHeader where
  name : StringView
  value : StringView

/-- The name of a header line up to its value: the token before the colon and
the blanks behind it. -/
def parseHeaderName (numHeaders : Nat) : PhrParser StringView := do
  let name ← parseToken numHeaders 58
  if name.bytes = [] then
    Parser.fail numHeaders
  else
    let _ ← Parser.next numHeaders
    let _ ← Parser.scan numHeaders (fun c => !isBlank c) fun _ => false
    pure name

/-- A line that starts with a blank goes on with the header before it. -/
def parseLineName (numHeaders : Nat) : PhrParser StringView := do
  let c ← Parser.peek numHeaders
  if !(numHeaders != 0 && isBlank c) then parseHeaderName numHeaders else pure .null

def parseHeaderLine (numHeaders : Nat) : PhrParser PhrHeader := do
  let name ← parseLineName numHeaders
  let value ← getTokenToEol numHeaders
  -- remove trailing SPs and HTABs
  pure ⟨name, { value with bytes := value.bytes.rdropWhile isBlank }⟩

/-- The loop of `parse_headers`, with room for `room` more headers behind the
first `numHeaders`. -/
def parseHeaders : (room numHeaders : Nat) → PhrParser (List PhrHeader)
  | room, numHeaders => do
      let c ← Parser.peek numHeaders
      if c = CR || c = LF then
        lineEnd numHeaders
        pure []
      else
        match room with
        | 0 => Parser.fail numHeaders
        | room + 1 => do
            let header ← parseHeaderLine numHeaders
            let headers ← parseHeaders room (numHeaders + 1)
            pure (header :: headers)

structure PhrRequest where
  method : StringView
  path : StringView
  minorVersion : Int
  headers : List PhrHeader

/-- An empty line before the request, as some clients send behind a body. -/
def skipEmptyLine : PhrParser Unit := do
  let c ← Parser.peek 0
  if c = CR || c = LF then lineEnd 0 else pure ()

def parseRequest (maxHeaders : Nat) : PhrParser PhrRequest := do
  skipEmptyLine
  let method ← parseToken 0 SP
  skipSpaces 0
  let path ← advanceToken 0
  skipSpaces 0
  if method.bytes = [] || path.bytes = [] then
    Parser.fail 0
  else
    let minorVersion ← parseHttpVersion 0
    lineEnd 0
    let headers ← parseHeaders maxHeaders 0
    pure ⟨method, path, minorVersion, headers⟩

/-- `phr_parse_request` with `last_len` 0, its result not narrowed to `int`. -/
def phrParseRequest (buf : Bytes) (maxHeaders : Nat) : Outcome UInt8 Nat PhrRequest :=
  (parseRequest maxHeaders).parse buf

/-- What an unfinished or failed parse of a response leaves behind. -/
structure PhrResponseNote where
  status : Nat
  msg : StringView
  numHeaders : Nat

structure PhrResponse where
  minorVersion : Int
  status : Nat
  msg : StringView
  headers : List PhrHeader

/-- `PARSE_INT`, when `status` has been stored already. -/
def parseInt (status : Nat) : Parser UInt8 PhrResponseNote Nat := do
  let c ← Parser.next ⟨status, .null, 0⟩
  if c < 48 || 57 < c then Parser.fail ⟨status, .null, 0⟩ else pure (c.toNat - 48)

/-- `PARSE_INT_3`. -/
def parseInt3 : Parser UInt8 PhrResponseNote Nat := do
  let hundreds ← parseInt 0
  let tens ← parseInt (100 * hundreds)
  let ones ← parseInt (100 * hundreds + 10 * tens)
  pure (100 * hundreds + 10 * tens + ones)

/-- The message without the spaces before it. -/
def removePrecedingSpace (msg : StringView) : StringView :=
  ⟨msg.offset + (msg.bytes.takeWhile fun c => c == SP).length,
    msg.bytes.dropWhile fun c => c == SP⟩

/-- The part of `parse_response` behind the status code. -/
def parseReason (maxHeaders : Nat) (minorVersion : Int) (status : Nat) :
    Parser UInt8 PhrResponseNote PhrResponse := do
  let msg ← (getTokenToEol 0).mapNote (PhrResponseNote.mk status .null)
  if msg.bytes = [] || msg.bytes.head? == some SP then
    let headers ← (parseHeaders maxHeaders 0).mapNote
      (PhrResponseNote.mk status (removePrecedingSpace msg))
    pure ⟨minorVersion, status, removePrecedingSpace msg, headers⟩
  else
    -- garbage found after status code
    Parser.fail ⟨status, msg, 0⟩

def parseResponse (maxHeaders : Nat) : Parser UInt8 PhrResponseNote PhrResponse := do
  let minorVersion ← (parseHttpVersion 0).mapNote (PhrResponseNote.mk 0 .null)
  let c ← Parser.peek ⟨0, .null, 0⟩
  if c = SP then
    (skipSpaces 0).mapNote (PhrResponseNote.mk 0 .null)
    Parser.require ⟨0, .null, 0⟩ 4
    let status ← parseInt3
    parseReason maxHeaders minorVersion status
  else
    Parser.fail ⟨0, .null, 0⟩

/-- `phr_parse_response` with `last_len` 0, its result not narrowed to `int`. -/
def phrParseResponse (buf : Bytes) (maxHeaders : Nat) :
    Outcome UInt8 PhrResponseNote PhrResponse :=
  (parseResponse maxHeaders).parse buf

theorem isIncremental_expectChar (numHeaders : Nat) (ch : UInt8) :
    IsIncremental (expectChar numHeaders ch) := by
  apply IsIncremental.bind (IsIncremental.next numHeaders)
  intro c
  exact IsIncremental.ite (IsIncremental.pure ()) (IsIncremental.fail numHeaders)

theorem isIncremental_scanToken (numHeaders : Nat) (stop bad : UInt8 → Bool) :
    IsIncremental (scanToken numHeaders stop bad) := by
  apply IsIncremental.bind IsIncremental.position
  intro offset
  apply IsIncremental.bind (IsIncremental.scan numHeaders stop bad)
  intro bytes
  exact IsIncremental.pure _

theorem isIncremental_skipSpaces (numHeaders : Nat) : IsIncremental (skipSpaces numHeaders) := by
  apply IsIncremental.bind (IsIncremental.next numHeaders)
  intro _
  apply IsIncremental.bind (IsIncremental.scan numHeaders _ _)
  intro _
  exact IsIncremental.pure ()

theorem isIncremental_lineEnd (numHeaders : Nat) : IsIncremental (lineEnd numHeaders) := by
  apply IsIncremental.bind (IsIncremental.next numHeaders)
  intro c
  apply IsIncremental.ite (isIncremental_expectChar numHeaders LF)
  exact IsIncremental.ite (IsIncremental.pure ()) (IsIncremental.fail numHeaders)

theorem isIncremental_getTokenToEol (numHeaders : Nat) :
    IsIncremental (getTokenToEol numHeaders) := by
  apply IsIncremental.bind (isIncremental_scanToken numHeaders _ _)
  intro token
  apply IsIncremental.bind (isIncremental_lineEnd numHeaders)
  intro _
  exact IsIncremental.pure token

theorem isIncremental_parseHttpVersion (numHeaders : Nat) :
    IsIncremental (parseHttpVersion numHeaders) := by
  apply IsIncremental.bind (IsIncremental.require numHeaders 9)
  intro _
  iterate 7
    apply IsIncremental.bind (isIncremental_expectChar numHeaders _)
    intro _
  apply IsIncremental.bind (IsIncremental.next numHeaders)
  intro c
  exact IsIncremental.ite (IsIncremental.fail numHeaders) (IsIncremental.pure _)

theorem isIncremental_parseHeaderName (numHeaders : Nat) :
    IsIncremental (parseHeaderName numHeaders) := by
  apply IsIncremental.bind (isIncremental_scanToken numHeaders _ _)
  intro name
  apply IsIncremental.ite (IsIncremental.fail numHeaders)
  apply IsIncremental.bind (IsIncremental.next numHeaders)
  intro _
  apply IsIncremental.bind (IsIncremental.scan numHeaders _ _)
  intro _
  exact IsIncremental.pure name

theorem isIncremental_parseLineName (numHeaders : Nat) :
    IsIncremental (parseLineName numHeaders) := by
  apply IsIncremental.bind (IsIncremental.peek numHeaders)
  intro c
  exact IsIncremental.ite (isIncremental_parseHeaderName numHeaders) (IsIncremental.pure _)

theorem isIncremental_parseHeaderLine (numHeaders : Nat) :
    IsIncremental (parseHeaderLine numHeaders) := by
  apply IsIncremental.bind (isIncremental_parseLineName numHeaders)
  intro name
  apply IsIncremental.bind (isIncremental_getTokenToEol numHeaders)
  intro value
  exact IsIncremental.pure _

theorem isIncremental_parseHeaders (room : Nat) :
    ∀ numHeaders, IsIncremental (parseHeaders room numHeaders) := by
  induction room with
  | zero =>
      intro numHeaders
      apply IsIncremental.bind (IsIncremental.peek numHeaders)
      intro c
      apply IsIncremental.ite _ (IsIncremental.fail numHeaders)
      apply IsIncremental.bind (isIncremental_lineEnd numHeaders)
      intro _
      exact IsIncremental.pure []
  | succ room ih =>
      intro numHeaders
      apply IsIncremental.bind (IsIncremental.peek numHeaders)
      intro c
      apply IsIncremental.ite
      · apply IsIncremental.bind (isIncremental_lineEnd numHeaders)
        intro _
        exact IsIncremental.pure []
      · apply IsIncremental.bind (isIncremental_parseHeaderLine numHeaders)
        intro header
        apply IsIncremental.bind (ih (numHeaders + 1))
        intro headers
        exact IsIncremental.pure _

theorem isIncremental_skipEmptyLine : IsIncremental skipEmptyLine := by
  apply IsIncremental.bind (IsIncremental.peek 0)
  intro c
  exact IsIncremental.ite (isIncremental_lineEnd 0) (IsIncremental.pure ())

/-- `phr_parse_request` asks for more input on every proper front part of a
request, and takes a request at the front of a text as it takes it alone. -/
theorem isIncremental_parseRequest (maxHeaders : Nat) :
    IsIncremental (parseRequest maxHeaders) := by
  apply IsIncremental.bind isIncremental_skipEmptyLine
  intro _
  apply IsIncremental.bind (isIncremental_scanToken 0 _ _)
  intro method
  apply IsIncremental.bind (isIncremental_skipSpaces 0)
  intro _
  apply IsIncremental.bind (isIncremental_scanToken 0 _ _)
  intro path
  apply IsIncremental.bind (isIncremental_skipSpaces 0)
  intro _
  apply IsIncremental.ite (IsIncremental.fail 0)
  apply IsIncremental.bind (isIncremental_parseHttpVersion 0)
  intro minorVersion
  apply IsIncremental.bind (isIncremental_lineEnd 0)
  intro _
  apply IsIncremental.bind (isIncremental_parseHeaders maxHeaders 0)
  intro headers
  exact IsIncremental.pure _

theorem isIncremental_parseInt (status : Nat) : IsIncremental (parseInt status) := by
  apply IsIncremental.bind (IsIncremental.next _)
  intro c
  exact IsIncremental.ite (IsIncremental.fail _) (IsIncremental.pure _)

theorem isIncremental_parseReason (maxHeaders : Nat) (minorVersion : Int) (status : Nat) :
    IsIncremental (parseReason maxHeaders minorVersion status) := by
  apply IsIncremental.bind (IsIncremental.mapNote _ (isIncremental_getTokenToEol 0))
  intro msg
  apply IsIncremental.ite _ (IsIncremental.fail _)
  apply IsIncremental.bind (IsIncremental.mapNote _ (isIncremental_parseHeaders maxHeaders 0))
  intro headers
  exact IsIncremental.pure _

theorem isIncremental_parseResponse (maxHeaders : Nat) :
    IsIncremental (parseResponse maxHeaders) := by
  apply IsIncremental.bind (IsIncremental.mapNote _ (isIncremental_parseHttpVersion 0))
  intro minorVersion
  apply IsIncremental.bind (IsIncremental.peek _)
  intro c
  apply IsIncremental.ite _ (IsIncremental.fail _)
  apply IsIncremental.bind (IsIncremental.mapNote _ (isIncremental_skipSpaces 0))
  intro _
  apply IsIncremental.bind (IsIncremental.require _ 4)
  intro _
  apply IsIncremental.bind
  · apply IsIncremental.bind (isIncremental_parseInt 0)
    intro hundreds
    apply IsIncremental.bind (isIncremental_parseInt _)
    intro tens
    apply IsIncremental.bind (isIncremental_parseInt _)
    intro ones
    exact IsIncremental.pure _
  · intro status
    exact isIncremental_parseReason maxHeaders minorVersion status

theorem consumes_parseRequest (maxHeaders : Nat) : Consumes (parseRequest maxHeaders) := by
  apply Consumes.bind_right isIncremental_skipEmptyLine
  intro _
  apply Consumes.bind_right (isIncremental_scanToken 0 _ _)
  intro method
  apply Consumes.bind_right (isIncremental_skipSpaces 0)
  intro _
  apply Consumes.bind_right (isIncremental_scanToken 0 _ _)
  intro path
  apply Consumes.bind_right (isIncremental_skipSpaces 0)
  intro _
  apply Consumes.ite (Consumes.fail 0)
  apply Consumes.bind_right (isIncremental_parseHttpVersion 0)
  intro minorVersion
  have hline : Consumes (lineEnd 0) := by
    apply Consumes.bind_left (Consumes.next 0)
    intro c
    apply IsIncremental.ite (isIncremental_expectChar 0 LF)
    exact IsIncremental.ite (IsIncremental.pure ()) (IsIncremental.fail 0)
  apply Consumes.bind_left hline
  intro _
  apply IsIncremental.bind (isIncremental_parseHeaders maxHeaders 0)
  intro headers
  exact IsIncremental.pure _

section Text

variable {buf : Bytes} {maxHeaders : Nat} {request : PhrRequest} {next : Cursor UInt8}

/-- The return value of a successful parse is positive and at most the length of
the text. -/
theorem phrParseRequest_pos (hdone : phrParseRequest buf maxHeaders = .done request next) :
    0 < next.pos ∧ next.pos ≤ buf.length := by
  refine ⟨?_, (isIncremental_parseRequest maxHeaders).pos_le_length hdone⟩
  exact consumes_parseRequest maxHeaders ⟨0, buf⟩ request next hdone

theorem phrParseRequest_append (hdone : phrParseRequest buf maxHeaders = .done request next)
    (more : Bytes) :
    phrParseRequest (buf ++ more) maxHeaders = .done request (next.append more) :=
  (isIncremental_parseRequest maxHeaders).parse_append hdone

/-- The front part of a cut request is not taken as a request. -/
theorem phrParseRequest_cut {front back : Bytes}
    (hdone : phrParseRequest (front ++ back) maxHeaders = .done request next)
    (hwhole : next.rest = []) (hback : back ≠ []) :
    (phrParseRequest front maxHeaders).isNeedMore = true :=
  (isIncremental_parseRequest maxHeaders).isNeedMore_of_cut hdone hwhole hback

end Text

/-- The characters of a view lie in the text at its offset. -/
def StringView.In (v : StringView) (text : Bytes) : Prop := v.bytes <+: text.drop v.offset

theorem StringView.null_in (text : Bytes) : StringView.null.In text := List.nil_prefix

/-- The views of a request lie in the text. -/
structure PhrRequest.In (request : PhrRequest) (text : Bytes) : Prop where
  method : request.method.In text
  path : request.path.In text
  headers : ∀ header ∈ request.headers, header.name.In text ∧ header.value.In text

section Views

variable {text : Bytes}

theorem scanToken_in (numHeaders : Nat) (stop bad : UInt8 → Bool) :
    Ensures text (scanToken numHeaders stop bad) (StringView.In · text) where
  of_done c token next hc hdone := by
    obtain ⟨offset, middle, hposition, hscan⟩ := Parser.bind_done hdone
    cases hposition
    obtain ⟨bytes, next', htaken, htoken⟩ := Parser.bind_done hscan
    cases htoken
    obtain ⟨hsplit, -⟩ := IsIncremental.scanFrom_forward numHeaders stop bad c.rest c.pos bytes
      next htaken
    have hdrop : text.drop c.pos = bytes ++ next.rest := hc.symm.trans hsplit
    change bytes <+: text.drop c.pos
    rw [hdrop]
    exact List.prefix_append bytes next.rest

theorem parseHeaderName_in (numHeaders : Nat) :
    Ensures text (parseHeaderName numHeaders) (StringView.In · text) := by
  apply Ensures.bind (isIncremental_scanToken numHeaders _ _) (scanToken_in numHeaders _ _)
  intro name hname
  apply Ensures.ite (Ensures.fail numHeaders)
  apply Ensures.bind_right (IsIncremental.next numHeaders)
  intro _
  apply Ensures.bind_right (IsIncremental.scan numHeaders _ _)
  intro _
  exact Ensures.pure hname

theorem parseHeaderLine_in (numHeaders : Nat) :
    Ensures text (parseHeaderLine numHeaders)
      fun header => header.name.In text ∧ header.value.In text := by
  have hname : Ensures text (parseLineName numHeaders) (StringView.In · text) := by
    apply Ensures.bind_right (IsIncremental.peek numHeaders)
    intro c
    exact Ensures.ite (parseHeaderName_in numHeaders) (Ensures.pure (StringView.null_in text))
  have hvalue : Ensures text (getTokenToEol numHeaders) (StringView.In · text) := by
    apply Ensures.bind (isIncremental_scanToken numHeaders _ _) (scanToken_in numHeaders _ _)
    intro token htoken
    apply Ensures.bind_right (isIncremental_lineEnd numHeaders)
    intro _
    exact Ensures.pure htoken
  apply Ensures.bind (isIncremental_parseLineName numHeaders) hname
  intro name hname
  apply Ensures.bind (isIncremental_getTokenToEol numHeaders) hvalue
  intro value hvalue
  exact Ensures.pure ⟨hname, (List.rdropWhile_prefix isBlank value.bytes).trans hvalue⟩

theorem parseHeaders_in (room : Nat) :
    ∀ numHeaders, Ensures text (parseHeaders room numHeaders)
      fun headers => ∀ header ∈ headers, header.name.In text ∧ header.value.In text := by
  induction room with
  | zero =>
      intro numHeaders
      apply Ensures.bind_right (IsIncremental.peek numHeaders)
      intro c
      apply Ensures.ite _ (Ensures.fail numHeaders)
      apply Ensures.bind_right (isIncremental_lineEnd numHeaders)
      intro _
      exact Ensures.pure (List.forall_mem_nil _)
  | succ room ih =>
      intro numHeaders
      apply Ensures.bind_right (IsIncremental.peek numHeaders)
      intro c
      apply Ensures.ite
      · apply Ensures.bind_right (isIncremental_lineEnd numHeaders)
        intro _
        exact Ensures.pure (List.forall_mem_nil _)
      · apply Ensures.bind (isIncremental_parseHeaderLine numHeaders)
          (parseHeaderLine_in numHeaders)
        intro header hheader
        apply Ensures.bind (isIncremental_parseHeaders room (numHeaders + 1))
          (ih (numHeaders + 1))
        intro headers hheaders
        exact Ensures.pure (List.forall_mem_cons.mpr ⟨hheader, hheaders⟩)

/-- What holds of the parts of a request line and of the headers, as they are read, holds of
the parts of the request. -/
theorem ensures_parseRequest {token target : StringView → Prop} {lines : List PhrHeader → Prop}
    {maxHeaders : Nat} (htoken : Ensures text (parseToken 0 SP) token)
    (htarget : Ensures text (advanceToken 0) target)
    (hlines : Ensures text (parseHeaders maxHeaders 0) lines) :
    Ensures text (parseRequest maxHeaders) fun request =>
      token request.method ∧ target request.path ∧ lines request.headers := by
  apply Ensures.bind_right isIncremental_skipEmptyLine
  intro _
  apply Ensures.bind (isIncremental_scanToken 0 _ _) htoken
  intro method hmethod
  apply Ensures.bind_right (isIncremental_skipSpaces 0)
  intro _
  apply Ensures.bind (isIncremental_scanToken 0 _ _) htarget
  intro path hpath
  apply Ensures.bind_right (isIncremental_skipSpaces 0)
  intro _
  apply Ensures.ite (Ensures.fail 0)
  apply Ensures.bind_right (isIncremental_parseHttpVersion 0)
  intro minorVersion
  apply Ensures.bind_right (isIncremental_lineEnd 0)
  intro _
  apply Ensures.bind (isIncremental_parseHeaders maxHeaders 0) hlines
  intro headers hheaders
  exact Ensures.pure ⟨hmethod, hpath, hheaders⟩

/-- Every view that `phr_parse_request` hands out lies in its text. -/
theorem phrParseRequest_in {maxHeaders : Nat} {request : PhrRequest} {next : Cursor UInt8}
    (hdone : phrParseRequest text maxHeaders = .done request next) : request.In text := by
  have hview : ∀ stop bad, Ensures text (scanToken 0 stop bad) (StringView.In · text) :=
    scanToken_in 0
  have hparser := ensures_parseRequest (hview _ _) (hview _ _) (parseHeaders_in maxHeaders 0)
  obtain ⟨hmethod, hpath, hheaders⟩ := hparser.parse hdone
  exact ⟨hmethod, hpath, hheaders⟩

/-- The method consists of token characters. -/
theorem phrParseRequest_method {maxHeaders : Nat} {request : PhrRequest} {next : Cursor UInt8}
    (hdone : phrParseRequest text maxHeaders = .done request next) :
    ∀ c ∈ request.method.bytes, isTokenChar c = true := by
  have htoken : Ensures text (parseToken 0 SP) fun method =>
      ∀ c ∈ method.bytes, isTokenChar c = true := by
    refine ⟨fun cursor method next _ htaken => ?_⟩
    obtain ⟨offset, middle, hposition, hscan⟩ := Parser.bind_done htaken
    cases hposition
    obtain ⟨bytes, next', hbytes, hmethod⟩ := Parser.bind_done hscan
    cases hmethod
    intro c hc
    simpa using (IsIncremental.scanFrom_taken _ _ _ _ _ _ _ hbytes c hc).2
  have hparser := ensures_parseRequest htoken (scanToken_in 0 _ _) (parseHeaders_in maxHeaders 0)
  exact (hparser.parse hdone).1

end Views

end GameDemoLearn.Net.Http
