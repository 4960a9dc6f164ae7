import GameDemoLearn.Net.Http.HeaderReading
import GameDemoLearn.Net.Http.HttpParser
import GameDemoLearn.Net.Http.ResponseFraming

/-!
What `ParseResponse` makes of a payload that `GetPayload` produced. The status line and
the headers are read as they were printed. The charset stands in the last header line,
and nothing keeps it from ending that line and going on with others.
-/

namespace GameDemoLearn.Net.Http

open Incremental

/-- What may stand in a header line so that a reader comes to the end of the head: a
value, and behind line ends up to `room` further header lines. -/
inductive FieldText : Nat → Bytes → Prop
  | last {room : Nat} {line : Bytes} (hline : NoCtl line) : FieldText room line
  | folded {room : Nat} {line eol rest : Bytes} {c : UInt8} (hline : NoCtl line)
      (heol : IsLineEnd eol) (hc : isBlank c = true) (hrest : FieldText room (c :: rest)) :
      FieldText (room + 1) (line ++ (eol ++ c :: rest))
  | field {room : Nat} {line eol name rest : Bytes} (hline : NoCtl line) (heol : IsLineEnd eol)
      (hne : name ≠ []) (hname : ∀ c ∈ name, isTokenChar c = true) (hrest : FieldText room rest) :
      FieldText (room + 1) (line ++ (eol ++ (name ++ 58 :: rest)))

section Charset

variable {room numHeaders pos k : Nat} {text content : Bytes}

/-- The end of the last header line, the empty line and the content. -/
def headEnd (content : Bytes) : Bytes := CRLF ++ (CRLF ++ content)

theorem exists_not_isBlank (front content : Bytes) :
    ∃ x ∈ front ++ headEnd content, isBlank x = false :=
  ⟨CR, List.mem_append_right front List.mem_cons_self, rfl⟩

theorem lineLeaves_of_fieldText (htext : FieldText room text) (content : Bytes) :
    ∀ numHeaders pos,
      LineLeaves room numHeaders ⟨pos, text ++ headEnd content⟩ content.length := by
  induction htext with
  | last hline =>
      intro numHeaders pos
      rw [headEnd, lineLeaves_append hline (.inl rfl), leaves_emptyLine (.inl rfl)]
  | folded hline heol hc hrest ih =>
      intro numHeaders pos
      rw [List.append_assoc, List.append_assoc, lineLeaves_append hline heol, List.cons_append,
        leaves_folded hc (Nat.succ_ne_zero numHeaders)]
      exact ih _ _
  | field hline heol hne hname hrest ih =>
      intro numHeaders pos
      rw [List.append_assoc, List.append_assoc, lineLeaves_append hline heol, List.append_assoc,
        List.cons_append, leaves_field hne hname (exists_not_isBlank _ content)]
      exact ih _ _

/-- At the start of a line the reader ends too early, or goes on with a header line that
starts within the text. -/
theorem leaves_lineStart (hsome : numHeaders ≠ 0)
    (hleaves : (parseHeaders room numHeaders).Leaves ⟨pos, text ++ headEnd content⟩ k) :
    content.length < k ∨ ∃ room', room = room' + 1 ∧
      ((∃ c rest, isBlank c = true ∧ text = c :: rest ∧
          LineLeaves room' numHeaders ⟨pos, text ++ headEnd content⟩ k) ∨
        ∃ name rest pos', name ≠ [] ∧ (∀ c ∈ name, isTokenChar c = true) ∧
          text = name ++ 58 :: rest ∧
            LineLeaves room' numHeaders ⟨pos', rest ++ headEnd content⟩ k) := by
  cases text with
  | nil =>
      left
      rw [List.nil_append, headEnd, leaves_emptyLine (.inl rfl)] at hleaves
      rw [← hleaves, List.length_append]
      exact Nat.lt_add_of_pos_left (by decide)
  | cons c rest =>
      rw [List.cons_append] at hleaves
      by_cases hend : c = CR ∨ c = LF
      · left
        rw [leaves_lineEnd hend] at hleaves
        obtain ⟨value, next, hdone, hleft⟩ := hleaves
        obtain ⟨eol, heol, hsplit⟩ := lineEnd_done hdone
        have hlength := congrArg List.length hsplit
        have htwo : eol.length ≤ 2 := by
          rcases heol with rfl | rfl <;> decide
        simp only [headEnd, CRLF, List.length_cons, List.length_append, List.length_nil] at hlength
        omega
      · right
        obtain ⟨room', rfl, name, next, hdone, -⟩ := (leaves_nonempty hend).mp hleaves
        refine ⟨room', rfl, ?_⟩
        cases hblank : isBlank c with
        | true => exact .inl ⟨c, rest, hblank, rfl, (leaves_folded hblank hsome).mp hleaves⟩
        | false =>
            right
            have hpeek : Parser.peek numHeaders ⟨pos, c :: (rest ++ headEnd content)⟩
                = .done c ⟨pos, c :: (rest ++ headEnd content)⟩ := rfl
            rw [parseLineName, Parser.bind_of_done hpeek, hblank, Bool.and_false, Bool.not_false,
              if_pos rfl] at hdone
            obtain ⟨name, blanks, hne, hname, -, hsplit⟩ := parseHeaderName_done hdone
            -- The name and its colon cannot reach over the end of the text.
            have hfront : CR ∉ name ++ [58] := by
              rw [List.mem_append, not_or]
              refine ⟨fun hcr => ?_, by decide⟩
              have hctl := (isTokenChar_start (hname CR hcr)).2
              cases hctl
            have hwhole : (name ++ [58]) ++ (blanks ++ next.rest)
                = (c :: rest) ++ CR :: (LF :: (CRLF ++ content)) := by
              rw [List.append_assoc]
              exact hsplit.symm
            obtain ⟨middle, htext, -⟩ := Lines.split_of_notMem hfront hwhole
            rw [List.append_assoc] at htext
            refine ⟨name, middle, pos + name.length + 1, hne, hname, htext, ?_⟩
            rw [← leaves_field hne hname (exists_not_isBlank middle content)]
            rw [← List.cons_append, htext] at hleaves
            simpa using hleaves

/-- The line at the cursor is the whole text, or it ends within the text. -/
theorem lineLeaves_split
    (hleaves : LineLeaves room numHeaders ⟨pos, text ++ headEnd content⟩ k) :
    (NoCtl text ∧ content.length = k) ∨ ∃ line eol rest pos', NoCtl line ∧ IsLineEnd eol ∧
      text = line ++ (eol ++ rest) ∧
        (parseHeaders room (numHeaders + 1)).Leaves ⟨pos', rest ++ headEnd content⟩ k := by
  obtain ⟨line, eol, rest, hline, heol, hsplit⟩ := hleaves.exists_line
  rw [hsplit, lineLeaves_append hline heol] at hleaves
  have hcr : CR ∉ line := fun hmem => Bool.noConfusion (hline CR hmem)
  obtain ⟨middle, rfl, hrest⟩ := Lines.split_of_notMem hcr hsplit.symm
  cases middle with
  | nil =>
      left
      rw [List.append_nil]
      refine ⟨hline, ?_⟩
      rcases heol with rfl | rfl
      · obtain rfl : rest = CRLF ++ content := by
          simpa [CRLF, CR, LF] using hrest
        exact (leaves_emptyLine (.inl rfl)).mp hleaves
      · cases hrest
  | cons c middle =>
      right
      rcases heol with rfl | rfl
      · cases middle with
        | nil => cases hrest
        | cons d middle =>
            obtain ⟨rfl, htail⟩ := List.cons.inj hrest
            obtain ⟨rfl, rfl⟩ := List.cons.inj htail
            exact ⟨line, CRLF, middle, _, hline, .inl rfl, rfl, hleaves⟩
      · obtain ⟨rfl, rfl⟩ := List.cons.inj hrest
        exact ⟨line, [LF], middle, _, hline, .inr rfl, rfl, hleaves⟩

/-- The reader comes to the content or stops before it, and it comes there only through
header lines. -/
theorem fieldText_of_lineLeaves (content : Bytes) (room : Nat) :
    ∀ {numHeaders pos k : Nat} {text : Bytes},
      LineLeaves room numHeaders ⟨pos, text ++ headEnd content⟩ k →
        content.length ≤ k ∧ (k = content.length → FieldText room text) := by
  induction room with
  | zero =>
      intro numHeaders pos k text hleaves
      rcases lineLeaves_split hleaves with ⟨htext, hk⟩ | ⟨line, eol, rest, pos', -, -, -, hrest⟩
      · exact ⟨hk.le, fun _ => .last htext⟩
      · rcases leaves_lineStart (Nat.succ_ne_zero numHeaders) hrest with hlt | ⟨room', hroom, -⟩
        · exact ⟨hlt.le, fun hk => absurd hk hlt.ne'⟩
        · cases hroom
  | succ room ih =>
      intro numHeaders pos k text hleaves
      rcases lineLeaves_split hleaves with
        ⟨htext, hk⟩ | ⟨line, eol, rest, pos', hline, heol, rfl, hrest⟩
      · exact ⟨hk.le, fun _ => .last htext⟩
      · rcases leaves_lineStart (Nat.succ_ne_zero numHeaders) hrest with hlt
          | ⟨room', hroom, ⟨c, rest', hc, rfl, hmore⟩
            | ⟨name, rest', pos'', hne, hname, rfl, hmore⟩⟩
        · exact ⟨hlt.le, fun hk => absurd hk hlt.ne'⟩
        · cases hroom
          obtain ⟨hle, hfield⟩ := ih hmore
          exact ⟨hle, fun hk => .folded hline heol hc (hfield hk)⟩
        · cases hroom
          obtain ⟨hle, hfield⟩ := ih hmore
          exact ⟨hle, fun hk => .field hline heol hne hname (hfield hk)⟩

end Charset

/-- A header with a token for its name and a value without control characters. -/
def IsField (header : Bytes × Bytes) : Prop :=
  header.1 ≠ [] ∧ (∀ c ∈ header.1, isTokenChar c = true) ∧ NoCtl header.2

theorem isField_of_isPrint {name value : Bytes} (hne : name ≠ [])
    (hname : name.all isTokenChar = true) (hvalue : ∀ c ∈ value, Util.isPrint c = true) :
    IsField (name, value) :=
  ⟨hne, List.all_eq_true.mp hname, noCtl_of_isPrint hvalue⟩

section Head

variable {room numHeaders pos k : Nat} {rest : Bytes}

/-- Header lines that were printed are read one after another. -/
theorem leaves_fields {headers : List (Bytes × Bytes)}
    (hheaders : ∀ header ∈ headers, IsField header) (room numHeaders pos : Nat) (rest : Bytes) :
    ∃ pos', ∀ k, (parseHeaders (room + headers.length) numHeaders).Leaves
        ⟨pos, Lines.unlines CR LF (headers.map headerText) ++ rest⟩ k ↔
      (parseHeaders room (numHeaders + headers.length)).Leaves ⟨pos', rest⟩ k := by
  induction headers generalizing numHeaders pos with
  | nil => exact ⟨pos, fun k => Iff.rfl⟩
  | cons header headers ih =>
      obtain ⟨⟨hne, hname, hvalue⟩, hheaders⟩ := List.forall_mem_cons.mp hheaders
      obtain ⟨pos', hrest⟩ := ih hheaders (numHeaders + 1)
        (pos + header.1.length + 1 + header.2.length + CRLF.length)
      refine ⟨pos', fun k => ?_⟩
      have htext : Lines.unlines CR LF ((header :: headers).map headerText) ++ rest
          = header.1 ++ 58 :: (header.2
            ++ (CRLF ++ (Lines.unlines CR LF (headers.map headerText) ++ rest))) := by
        simp [Lines.unlines, headerText, CRLF, CR, LF]
      have hblank : ∃ x ∈ header.2
          ++ (CRLF ++ (Lines.unlines CR LF (headers.map headerText) ++ rest)), isBlank x = false :=
        ⟨CR, List.mem_append_right _ List.mem_cons_self, rfl⟩
      rw [htext, List.length_cons, ← Nat.add_assoc, leaves_field hne hname hblank,
        lineLeaves_append hvalue (.inl rfl), hrest, Nat.add_right_comm numHeaders 1,
        Nat.add_assoc numHeaders]

theorem contentTypeText_eq (type : ContentType) (charset : Bytes) :
    ∃ front, NoCtl front ∧
      contentTypeText type charset = Bytes.ofString "Content-Type" ++ 58 :: (front ++ charset) := by
  have hline : ∀ line front : Bytes, line = Bytes.ofString "Content-Type" ++ 58 :: front →
      front.all Util.isPrint = true → ∃ front, NoCtl front ∧
        line ++ charset = Bytes.ofString "Content-Type" ++ 58 :: (front ++ charset) := by
    rintro _ front rfl hfront
    refine ⟨front, noCtl_of_isPrint (List.all_eq_true.mp hfront), ?_⟩
    rw [List.append_assoc, List.cons_append]
  cases type with
  | string => exact hline _ (Bytes.ofString " text/plain; charset=") (by decide) (by decide)
  | html => exact hline _ (Bytes.ofString " text/html; charset=") (by decide) (by decide)
  | json => exact hline _ (Bytes.ofString " application/json; charset=") (by decide) (by decide)

/-- The last header line leads to its charset. -/
theorem leaves_contentType (type : ContentType) (charset content : Bytes)
    (room numHeaders pos : Nat) :
    ∃ pos', ∀ k, (parseHeaders (room + 1) numHeaders).Leaves
        ⟨pos, contentTypeText type charset ++ headEnd content⟩ k ↔
      LineLeaves room numHeaders ⟨pos', charset ++ headEnd content⟩ k := by
  obtain ⟨front, hfront, htext⟩ := contentTypeText_eq type charset
  have hname : ∀ c ∈ Bytes.ofString "Content-Type", isTokenChar c = true :=
    List.all_eq_true.mp (by decide)
  refine ⟨pos + (Bytes.ofString "Content-Type").length + 1 + front.length, fun k => ?_⟩
  rw [htext, List.append_assoc, List.cons_append,
    leaves_field (by decide) hname (exists_not_isBlank _ content), List.append_assoc,
    lineLeaves_skip hfront]

end Head

section Status

theorem parseInt_digit (status : Nat) {d : Nat} (hd : d < 10) (pos : Nat) (rest : Bytes) :
    parseInt status ⟨pos, UInt8.ofNat (48 + d) :: rest⟩ = .done d ⟨pos + 1, rest⟩ := by
  interval_cases d <;> rfl

theorem parseInt3_toChars {n : Nat} (hlow : 100 ≤ n) (hhigh : n < 1000) (pos : Nat) (rest : Bytes) :
    parseInt3 ⟨pos, Util.toChars n ++ rest⟩ = .done n ⟨pos + 3, rest⟩ := by
  have hvalue : 100 * (n / 100) + 10 * (n / 10 % 10) + n % 10 = n := by omega
  rw [Util.toChars_threeDigits hlow hhigh, List.cons_append, List.cons_append, List.cons_append,
    List.nil_append, parseInt3, Parser.bind_of_done (parseInt_digit _ (by omega) pos _),
    Parser.bind_of_done (parseInt_digit _ (by omega) _ _),
    Parser.bind_of_done (parseInt_digit _ (by omega) _ _), hvalue]
  rfl

/-- The reader behind the status code takes the name of the status. -/
theorem parseReason_enumName (status : StatusCode) (maxHeaders : Nat) (minorVersion : Int)
    (code pos : Nat) (rest : Bytes) :
    ∃ g msg pos', parseReason maxHeaders minorVersion code
        ⟨pos, 32 :: status.enumName ++ (CRLF ++ rest)⟩
      = ((parseHeaders maxHeaders 0).mapNote g >>= fun headers =>
          pure ⟨minorVersion, code, msg, headers⟩) ⟨pos', rest⟩ := by
  have hline : NoCtl (32 :: status.enumName) :=
    noCtl_of_isPrint (List.forall_mem_cons.mpr ⟨rfl, isPrint_enumName status⟩)
  have hread := Parser.mapNote_of_done (PhrResponseNote.mk code .null)
    (getTokenToEol_append hline (.inl rfl) 0 pos rest)
  refine ⟨PhrResponseNote.mk code (removePrecedingSpace ⟨pos, 32 :: status.enumName⟩),
    removePrecedingSpace ⟨pos, 32 :: status.enumName⟩,
    pos + (32 :: status.enumName).length + CRLF.length, ?_⟩
  have hstart : (decide ((32 :: status.enumName : Bytes) = [])
      || (32 :: status.enumName).head? == some SP) = true := by
    simp [SP]
  rw [parseReason, Parser.bind_of_done hread, if_pos hstart]

/-- What stands before the status code is read. -/
theorem parseResponse_version (maxHeaders : Nat) {x : UInt8} (hx : x ≠ SP) {rest : Bytes}
    (hlong : 3 ≤ rest.length) :
    parseResponse maxHeaders ⟨0, Bytes.ofString "HTTP/1.1 " ++ x :: rest⟩
      = (parseInt3 >>= parseReason maxHeaders 1) ⟨9, x :: rest⟩ := by
  have hversion : parseHttpVersion 0 ⟨0, Bytes.ofString "HTTP/1.1 " ++ x :: rest⟩
      = .done 1 ⟨8, SP :: x :: rest⟩ := by
    have henough : Parser.require 0 9 ⟨0, Bytes.ofString "HTTP/1.1 " ++ x :: rest⟩
        = .done () ⟨0, Bytes.ofString "HTTP/1.1 " ++ x :: rest⟩ := by
      apply if_neg
      rw [List.length_append]
      exact Nat.not_lt.mpr (Nat.le_add_right 9 _)
    have htext : Bytes.ofString "HTTP/1.1 " ++ x :: rest
        = 72 :: 84 :: 84 :: 80 :: 47 :: 49 :: 46 :: 49 :: SP :: x :: rest := rfl
    rw [parseHttpVersion, Parser.bind_of_done henough, htext]
    iterate 7 rw [Parser.bind_of_done (expectChar_cons 0 _ _ _)]
    rfl
  have hpeek : Parser.peek (⟨0, .null, 0⟩ : PhrResponseNote) ⟨8, SP :: x :: rest⟩
      = .done SP ⟨8, SP :: x :: rest⟩ := rfl
  have hskip : skipSpaces 0 ⟨8, SP :: x :: rest⟩ = .done () ⟨9, x :: rest⟩ := by
    have hnext : Parser.next 0 ⟨8, SP :: x :: rest⟩ = .done SP ⟨9, x :: rest⟩ := rfl
    have hscan : Parser.scan 0 (fun c => c != SP) (fun _ => false) ⟨9, x :: rest⟩
        = .done [] ⟨9, x :: rest⟩ := if_pos (bne_iff_ne.mpr hx)
    rw [skipSpaces, Parser.bind_of_done hnext, Parser.bind_of_done hscan]
    rfl
  have hrequire : Parser.require (⟨0, .null, 0⟩ : PhrResponseNote) 4 ⟨9, x :: rest⟩
      = .done () ⟨9, x :: rest⟩ := by
    apply if_neg
    rw [List.length_cons]
    omega
  rw [parseResponse, Parser.bind_of_done (Parser.mapNote_of_done _ hversion),
    Parser.bind_of_done hpeek, if_pos rfl, Parser.bind_of_done (Parser.mapNote_of_done _ hskip),
    Parser.bind_of_done hrequire]

/-- A printed status line is read up to its code. -/
theorem parseResponse_statusText (status : StatusCode) (maxHeaders : Nat) (rest : Bytes) :
    parseResponse maxHeaders ⟨0, statusText status ++ (CRLF ++ rest)⟩
      = (parseInt3 >>= parseReason maxHeaders 1)
        ⟨9, Util.toChars status.toUnderlying ++ (32 :: status.enumName ++ (CRLF ++ rest))⟩ := by
  obtain ⟨c, cs, hcode, hc⟩ := Util.exists_toChars_cons status.toUnderlying
  have htext : statusText status ++ (CRLF ++ rest)
      = Bytes.ofString "HTTP/1.1 " ++ c :: (cs ++ (32 :: status.enumName ++ (CRLF ++ rest))) := by
    simp [statusText, hcode]
  have hblank : c ≠ SP := by
    rintro rfl
    cases hc
  rw [htext, hcode]
  apply parseResponse_version maxHeaders hblank
  simp only [List.length_append, List.length_cons, CRLF]
  omega

/-- A status line with a code of three digits is read as it was printed. -/
theorem parseResponse_status {status : StatusCode} (hstatus : status ≠ .unknown)
    (maxHeaders : Nat) (rest : Bytes) :
    ∃ g msg pos', parseResponse maxHeaders ⟨0, statusText status ++ (CRLF ++ rest)⟩
      = ((parseHeaders maxHeaders 0).mapNote g >>= fun headers =>
          pure ⟨1, status.toUnderlying, msg, headers⟩) ⟨pos', rest⟩ := by
  have hcode : 100 ≤ status.toUnderlying ∧ status.toUnderlying < 1000 := by
    cases status
    case unknown => exact absurd rfl hstatus
    all_goals decide
  have hread := parseInt3_toChars hcode.1 hcode.2 9 (32 :: status.enumName ++ (CRLF ++ rest))
  rw [parseResponse_statusText, Parser.bind_of_done hread]
  exact parseReason_enumName status maxHeaders 1 status.toUnderlying 12 rest

/-- The code of the initial status has one digit, which is refused. -/
theorem parseResponse_unknown (maxHeaders : Nat) (rest : Bytes) :
    ∃ note, parseResponse maxHeaders ⟨0, statusText .unknown ++ (CRLF ++ rest)⟩ = .fail note := by
  rw [parseResponse_statusText]
  exact ⟨⟨0, .null, 0⟩, rfl⟩

end Status

/-- Where the body starts in a payload. -/
def HttpResponse.bodyOffset (resp : HttpResponse) (now : Bytes) : Nat :=
  (resp.getPayload now).head.length - resp.addErrorContent.content.length

/-- The bytes of the lines of a head and of the empty line. -/
def HttpResponse.headSize (resp : HttpResponse) (now : Bytes) : Nat :=
  ((resp.headTexts now).map fun text => text.length + 2).sum + 2

section Payload

variable {resp : HttpResponse} {now : Bytes}

theorem getPayload_text (hhead : resp.head = []) :
    (resp.getPayload now).head = statusText resp.statusCode ++ (CRLF
      ++ (Lines.unlines CR LF ((resp.allHeaders now).map headerText)
        ++ (contentTypeText resp.contentType resp.charset
          ++ headEnd resp.addErrorContent.content))) := by
  rw [HttpResponse.getPayload_eq, hhead]
  simp [HttpResponse.headTexts, Lines.unlines, headEnd, CRLF, CR, LF]

theorem bodyOffset_eq (hhead : resp.head = []) : resp.bodyOffset now = resp.headSize now := by
  have hlines : (Lines.unlines CR LF (resp.headTexts now)).length
      = ((resp.headTexts now).map fun text => text.length + 2).sum := by
    simp only [Lines.unlines, List.length_flatMap, List.length_append, List.length_cons,
      List.length_nil]
  rw [HttpResponse.bodyOffset, HttpResponse.getPayload_eq, hhead, HttpResponse.headSize, ← hlines]
  simp only [List.length_append, List.length_nil, CRLF, List.length_cons]
  omega

/-- The length of a payload is the offset of the body and its length. -/
theorem bodyOffset_add (hhead : resp.head = []) :
    0 < resp.bodyOffset now ∧
      resp.bodyOffset now + resp.addErrorContent.content.length
        = (resp.getPayload now).head.length := by
  rw [HttpResponse.bodyOffset, getPayload_text hhead]
  simp only [List.length_append, headEnd, CRLF, List.length_cons]
  omega

/-- Of all that was printed, the reader has trouble with the charset only. -/
theorem leaves_payload (hhead : resp.head = []) (hstatus : resp.statusCode ≠ .unknown)
    (hheaders : ∀ header ∈ resp.allHeaders now, IsField header)
    (hcount : (resp.allHeaders now).length < MAX_HEADER_FIELD_NUM) :
    ∃ pos', ∀ k, (parseResponse MAX_HEADER_FIELD_NUM).Leaves ⟨0, (resp.getPayload now).head⟩ k ↔
      LineLeaves (MAX_HEADER_FIELD_NUM - ((resp.allHeaders now).length + 1))
        (0 + (resp.allHeaders now).length)
        ⟨pos', resp.charset ++ headEnd resp.addErrorContent.content⟩ k := by
  obtain ⟨g, msg, pos, hread⟩ := parseResponse_status hstatus MAX_HEADER_FIELD_NUM
    (Lines.unlines CR LF ((resp.allHeaders now).map headerText)
      ++ (contentTypeText resp.contentType resp.charset ++ headEnd resp.addErrorContent.content))
  obtain ⟨pos', hfields⟩ := leaves_fields hheaders
    (MAX_HEADER_FIELD_NUM - ((resp.allHeaders now).length + 1) + 1) 0 pos
    (contentTypeText resp.contentType resp.charset ++ headEnd resp.addErrorContent.content)
  obtain ⟨pos'', hlast⟩ := leaves_contentType resp.contentType resp.charset
    resp.addErrorContent.content (MAX_HEADER_FIELD_NUM - ((resp.allHeaders now).length + 1))
    (0 + (resp.allHeaders now).length) pos'
  have hroom : MAX_HEADER_FIELD_NUM - ((resp.allHeaders now).length + 1) + 1
      + (resp.allHeaders now).length = MAX_HEADER_FIELD_NUM := by omega
  rw [hroom] at hfields
  refine ⟨pos'', fun k => ?_⟩
  rw [getPayload_text hhead, Parser.Leaves, hread]
  exact (Parser.leaves_bind_pure _).trans
    ((Parser.leaves_mapNote g).trans ((hfields k).trans (hlast k)))

/-- The status of a parsed payload is the one that was printed. -/
theorem status_of_done (hhead : resp.head = []) (hstatus : resp.statusCode ≠ .unknown)
    {maxHeaders : Nat} {response : PhrResponse} {next : Cursor UInt8}
    (hdone : phrParseResponse (resp.getPayload now).head maxHeaders = .done response next) :
    response.status = resp.statusCode.toUnderlying := by
  rw [getPayload_text hhead] at hdone
  obtain ⟨g, msg, pos, hread⟩ := parseResponse_status hstatus maxHeaders _
  obtain ⟨headers, last, -, hresponse⟩ := Parser.bind_done (hread.symm.trans hdone)
  cases hresponse
  rfl

end Payload

namespace HttpParser

theorem toInt_le (pos : Nat) : toInt pos ≤ pos ∧ toInt pos < 2 ^ 31 := by
  have hmod := Nat.mod_le pos (2 ^ 32)
  unfold toInt LittleEndian.toSigned
  split <;> omega

section Result

variable {p : HttpParser} {originalUrl : Bytes}

theorem parseResponse_of_done {response : PhrResponse} {next : Cursor UInt8}
    (hdone : phrParseResponse originalUrl MAX_HEADER_FIELD_NUM = .done response next) :
    (p.parseResponse originalUrl).1 = (toInt next.pos).toNat ∧
      (p.parseResponse originalUrl).2.status = response.status := by
  have hne : originalUrl ≠ [] := by
    rintro rfl
    cases hdone
  simp only [parseResponse, if_neg hne, hdone]
  split
  · next hneg => exact ⟨(Int.toNat_of_nonpos hneg.le).symm, rfl⟩
  · exact ⟨rfl, rfl⟩

theorem exists_done_of_pos (haccepted : 0 < (p.parseResponse originalUrl).1) :
    ∃ response next,
      phrParseResponse originalUrl MAX_HEADER_FIELD_NUM = .done response next := by
  unfold parseResponse at haccepted
  split at haccepted
  · exact absurd haccepted (Nat.lt_irrefl 0)
  · split at haccepted
    · exact absurd haccepted (Nat.lt_irrefl 0)
    · exact absurd haccepted (Nat.lt_irrefl 0)
    · next response next hdone => exact ⟨response, next, hdone⟩

end Result

/-- `ParseResponse` accepts the payload of a response, returns the offset of its body and
recovers its status code. -/
structure Reads (p : HttpParser) (resp : HttpResponse) (now : Bytes) : Prop where
  accepted : 0 < (p.parseResponse (resp.getPayload now).head).1
  offset : (p.parseResponse (resp.getPayload now).head).1 = resp.bodyOffset now
  status : (p.parseResponse (resp.getPayload now).head).2.status = resp.statusCode.toUnderlying

section Reads

variable {p : HttpParser} {resp : HttpResponse} {now : Bytes}

/-- The parser that is done has moved over the rest of the text. -/
theorem pos_add_of_done {response : PhrResponse} {next : Cursor UInt8} {text : Bytes}
    (hdone : phrParseResponse text MAX_HEADER_FIELD_NUM = .done response next) :
    next.pos + next.rest.length = text.length := by
  obtain ⟨used, hsplit, hpos⟩ :=
    (isIncremental_parseResponse MAX_HEADER_FIELD_NUM).forward ⟨0, text⟩ response next hdone
  have hlength := congrArg List.length hsplit
  rw [List.length_append] at hlength
  dsimp only at hlength hpos
  omega

theorem reads_iff (hhead : resp.head = [])
    (hheaders : ∀ header ∈ resp.allHeaders now, IsField header)
    (hcount : (resp.allHeaders now).length < MAX_HEADER_FIELD_NUM) :
    p.Reads resp now ↔ resp.statusCode ≠ .unknown ∧ resp.headSize now < 2 ^ 31 ∧
      FieldText (MAX_HEADER_FIELD_NUM - ((resp.allHeaders now).length + 1)) resp.charset := by
  have hlength : 0 < resp.bodyOffset now ∧ resp.bodyOffset now
      + resp.addErrorContent.content.length = (resp.getPayload now).head.length :=
    bodyOffset_add hhead
  rw [← bodyOffset_eq hhead]
  constructor
  · intro hreads
    obtain ⟨response, next, hdone⟩ := exists_done_of_pos hreads.accepted
    have hstatus : resp.statusCode ≠ .unknown := by
      intro hunknown
      rw [getPayload_text hhead, hunknown] at hdone
      obtain ⟨note, hfail⟩ := parseResponse_unknown MAX_HEADER_FIELD_NUM _
      cases hfail.symm.trans hdone
    obtain ⟨pos', hleaves⟩ := leaves_payload hhead hstatus hheaders hcount
    obtain ⟨hle, hfield⟩ :=
      fieldText_of_lineLeaves _ _ ((hleaves next.rest.length).mp ⟨response, next, hdone, rfl⟩)
    have hmoved := pos_add_of_done hdone
    have hreturned := (parseResponse_of_done (p := p) hdone).1.symm.trans hreads.offset
    obtain ⟨hint, hbound⟩ := toInt_le next.pos
    exact ⟨hstatus, by omega, hfield (by omega)⟩
  · rintro ⟨hstatus, hshort, hcharset⟩
    obtain ⟨pos', hleaves⟩ := leaves_payload hhead hstatus hheaders hcount
    obtain ⟨response, next, hdone, hleft⟩ :=
      (hleaves _).mpr (lineLeaves_of_fieldText hcharset resp.addErrorContent.content _ pos')
    have hmoved := pos_add_of_done hdone
    have hpos : next.pos = resp.bodyOffset now := by omega
    obtain ⟨hreturned, hcode⟩ := parseResponse_of_done (p := p) hdone
    rw [hpos, toInt_of_lt hshort, Int.toNat_natCast] at hreturned
    refine ⟨by omega, hreturned, ?_⟩
    rw [hcode, status_of_done hhead hstatus hdone]

end Reads

/-- The headers of a response that was filled by these calls. -/
theorem allHeaders_applyAll {calls : List ResponseCall}
    (hheaders : ∀ header ∈ setHeaders calls, IsField header) (time : TimeUtil.SystemTime) :
    (∀ header ∈ (HttpResponse.create.applyAll calls).allHeaders (TimeUtil.getGMTTimeStr time),
      IsField header) ∧
    ((HttpResponse.create.applyAll calls).allHeaders (TimeUtil.getGMTTimeStr time)).length
      ≤ (setHeaders calls).length + 3 := by
  have hset : (HttpResponse.create.applyAll calls).headers = setHeaders calls :=
    HttpResponse.create.headers_applyAll calls
  constructor
  · simp only [HttpResponse.allHeaders, List.forall_mem_append, List.forall_mem_singleton]
    refine ⟨⟨fun header hmem => ?_, ?_⟩, ?_⟩
    · rcases HttpResponse.mem_addHost hmem with hmem | rfl
      · rw [hset] at hmem
        exact hheaders header hmem
      · exact isField_of_isPrint (by decide) (by decide) (List.all_eq_true.mp (by decide))
    · exact isField_of_isPrint (by decide) (by decide) (Util.isPrint_toChars _)
    · exact isField_of_isPrint (by decide) (by decide) (TimeUtil.isPrint_getGMTTimeStr time)
  · have hhost : (HttpResponse.create.applyAll calls).addHost.headers.length
        ≤ (setHeaders calls).length + 1 := by
      unfold HttpResponse.addHost
      split
      · rw [hset]
        exact Nat.le_succ _
      · rw [HttpResponse.setHeader, hset, List.length_append, List.length_singleton]
    simp only [HttpResponse.allHeaders, List.length_append, List.length_singleton]
    omega

/-- With at most 90 headers, `ParseResponse` reads the first payload of a response as it
was meant exactly when the status was set, the head fits an `int`, and the charset does
not spoil the header line it stands in. -/
theorem parseResponse_reads_iff (p : HttpParser) (calls : List ResponseCall)
    (time : TimeUtil.SystemTime) (hcount : (setHeaders calls).length ≤ 90)
    (hheaders : ∀ header ∈ setHeaders calls, IsField header) :
    p.Reads (HttpResponse.create.applyAll calls) (TimeUtil.getGMTTimeStr time) ↔
      (HttpResponse.create.applyAll calls).statusCode ≠ .unknown ∧
      (HttpResponse.create.applyAll calls).headSize (TimeUtil.getGMTTimeStr time) < 2 ^ 31 ∧
      FieldText (MAX_HEADER_FIELD_NUM - (((HttpResponse.create.applyAll calls).allHeaders
        (TimeUtil.getGMTTimeStr time)).length + 1))
        (HttpResponse.create.applyAll calls).charset := by
  obtain ⟨hfields, hlength⟩ := allHeaders_applyAll hheaders time
  apply reads_iff _ hfields
  · rw [MAX_HEADER_FIELD_NUM]
    omega
  · exact HttpResponse.create.head_applyAll calls

theorem parseResponse_reads_iff_missingPage :
    create.Reads (HttpResponse.create.applyAll missingPage) (TimeUtil.getGMTTimeStr newYear) ↔
      (HttpResponse.create.applyAll missingPage).statusCode ≠ .unknown ∧
      (HttpResponse.create.applyAll missingPage).headSize (TimeUtil.getGMTTimeStr newYear)
        < 2 ^ 31 ∧
      FieldText (MAX_HEADER_FIELD_NUM - (((HttpResponse.create.applyAll missingPage).allHeaders
        (TimeUtil.getGMTTimeStr newYear)).length + 1))
        (HttpResponse.create.applyAll missingPage).charset := by
  apply parseResponse_reads_iff create missingPage newYear (by decide)
  simp only [setHeaders, missingPage, ResponseCall.header?, List.filterMap_cons,
    List.filterMap_nil, List.forall_mem_singleton]
  exact isField_of_isPrint (by decide) (by decide) (List.all_eq_true.mp (by decide))

/-- The response of a handler that sets nothing is refused. -/
theorem initial_status_refused :
    ¬ ∀ (p : HttpParser) (calls : List ResponseCall) (time : TimeUtil.SystemTime),
      (setHeaders calls).length ≤ 90 → (∀ header ∈ setHeaders calls, IsField header) →
        p.Reads (HttpResponse.create.applyAll calls) (TimeUtil.getGMTTimeStr time) := by
  intro hreads
  have hread := hreads create [] newYear (Nat.zero_le 90) (List.forall_mem_nil _)
  have hrefused : (create.parseResponse ((HttpResponse.create.applyAll []).getPayload
      (TimeUtil.getGMTTimeStr newYear)).head).1 = 0 := by
    decide +kernel
  exact absurd hread.accepted (by rw [hrefused]; exact Nat.lt_irrefl 0)

end HttpParser

end GameDemoLearn.Net.Http
