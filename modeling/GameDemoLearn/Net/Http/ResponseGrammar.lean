import GameDemoLearn.Net.Http.RequestGrammar
import GameDemoLearn.Net.Http.ResponseRoundTrip

/-!
The texts that `phr_parse_response` takes for responses: a status line whose message is empty or
stands behind a space, and the same block of header lines as in a request.
-/

namespace GameDemoLearn.Net.Http

open Incremental

/-- The texts that a response says. -/
structure ResponseTexts where
  minorVersion : Int
  status : Nat
  msg : Bytes
  headers : List (Bytes × Bytes)

def PhrResponse.texts (response : PhrResponse) : ResponseTexts :=
  ⟨response.minorVersion, response.status, response.msg.bytes,
    response.headers.map PhrHeader.texts⟩

/-- Three digits of a status code. -/
def codeText (hundreds tens ones : Nat) : Bytes :=
  [UInt8.ofNat (48 + hundreds), UInt8.ofNat (48 + tens), UInt8.ofNat (48 + ones)]

/-- What may stand between a status code and the end of its line. -/
structure IsReason (reason : Bytes) : Prop where
  noCtl : NoCtl reason
  start : reason = [] ∨ reason.head? = some SP

/-- A response with at most `maxHeaders` header lines. -/
inductive IsResponse (maxHeaders : Nat) : ResponseTexts → Bytes → Prop
  | intro (digit : Nat) (spaces : Bytes) (hundreds tens ones : Nat) (reason eol block : Bytes)
      (headers : List (Bytes × Bytes)) (hdigit : digit < 10) (hspaces : IsSpaces spaces)
      (hhundreds : hundreds < 10) (htens : tens < 10) (hones : ones < 10)
      (hreason : IsReason reason) (heol : IsLineEnd eol) (hblock : HeaderBlock 0 headers block)
      (hroom : headers.length ≤ maxHeaders) :
      IsResponse maxHeaders
        ⟨digit, 100 * hundreds + 10 * tens + ones, reason.dropWhile fun c => c == SP, headers⟩
        (versionText digit ++ (spaces ++ (codeText hundreds tens ones ++
          (reason ++ (eol ++ block)))))

section Status

variable {pos : Nat} {rest : Bytes}

theorem parseInt_done {status d : Nat} {c next : Cursor UInt8}
    (hdone : parseInt status c = .done d next) :
    d < 10 ∧ c.rest = UInt8.ofNat (48 + d) :: next.rest := by
  obtain ⟨x, middle, hnext, hrest⟩ := Parser.bind_done hdone
  obtain ⟨pos, rest⟩ := c
  cases rest with
  | nil => cases hnext
  | cons y rest =>
      cases hnext
      split at hrest
      case isTrue => cases hrest
      case isFalse hdigit =>
        cases hrest
        rw [Bool.or_eq_true, decide_eq_true_eq, decide_eq_true_eq, not_or] at hdigit
        obtain ⟨hlt, heq⟩ := digit_eq hdigit.1 hdigit.2
        exact ⟨hlt, congrArg (· :: rest) heq⟩

theorem parseInt3_append {hundreds tens ones : Nat} (hhundreds : hundreds < 10) (htens : tens < 10)
    (hones : ones < 10) :
    parseInt3 ⟨pos, codeText hundreds tens ones ++ rest⟩
      = .done (100 * hundreds + 10 * tens + ones) ⟨pos + 3, rest⟩ := by
  change parseInt3 ⟨pos, UInt8.ofNat (48 + hundreds) :: UInt8.ofNat (48 + tens) ::
    UInt8.ofNat (48 + ones) :: rest⟩ = _
  rw [parseInt3, Parser.bind_of_done (parseInt_digit _ hhundreds pos _),
    Parser.bind_of_done (parseInt_digit _ htens _ _),
    Parser.bind_of_done (parseInt_digit _ hones _ _)]
  rfl

theorem parseInt3_done {code : Nat} {c next : Cursor UInt8}
    (hdone : parseInt3 c = .done code next) :
    ∃ hundreds tens ones, hundreds < 10 ∧ tens < 10 ∧ ones < 10 ∧
      code = 100 * hundreds + 10 * tens + ones ∧
        c.rest = codeText hundreds tens ones ++ next.rest := by
  obtain ⟨hundreds, c1, hhundreds, h1⟩ := Parser.bind_done hdone
  obtain ⟨tens, c2, htens, h2⟩ := Parser.bind_done h1
  obtain ⟨ones, c3, hones, h3⟩ := Parser.bind_done h2
  cases h3
  obtain ⟨hlt, htext⟩ := parseInt_done hhundreds
  obtain ⟨hlt', htext'⟩ := parseInt_done htens
  obtain ⟨hlt'', htext''⟩ := parseInt_done hones
  refine ⟨hundreds, tens, ones, hlt, hlt', hlt'', rfl, ?_⟩
  rw [htext, htext', htext'']
  rfl

end Status

section Response

variable {maxHeaders : Nat} {texts : ResponseTexts} {text rest : Bytes}

theorem parseReason_append {reason eol block : Bytes} {headers : List (Bytes × Bytes)}
    (hreason : IsReason reason) (heol : IsLineEnd eol) (hblock : HeaderBlock 0 headers block)
    (hroom : headers.length ≤ maxHeaders) (minorVersion : Int) (status pos : Nat) (rest : Bytes) :
    ∃ response next, parseReason maxHeaders minorVersion status
        ⟨pos, reason ++ (eol ++ (block ++ rest))⟩ = .done response next ∧ next.rest = rest ∧
      response.texts = ⟨minorVersion, status, reason.dropWhile fun c => c == SP, headers⟩ := by
  have hmsg := Parser.mapNote_of_done (PhrResponseNote.mk status .null)
    (getTokenToEol_append hreason.noCtl heol 0 pos (block ++ rest))
  obtain ⟨found, hfound, htexts⟩ := parseHeaders_of_block hblock rest maxHeaders
    (pos + reason.length + eol.length) hroom
  have hheaders := Parser.mapNote_of_done
    (PhrResponseNote.mk status (removePrecedingSpace ⟨pos, reason⟩)) hfound
  have hstart : (decide (reason = []) || reason.head? == some SP) = true := by
    rw [Bool.or_eq_true, decide_eq_true_eq, beq_iff_eq]
    exact hreason.start
  refine ⟨⟨minorVersion, status, removePrecedingSpace ⟨pos, reason⟩, found⟩,
    ⟨pos + reason.length + eol.length + block.length, rest⟩, ?_, rfl, ?_⟩
  case refine_1 =>
    rw [parseReason, Parser.bind_of_done hmsg, if_pos hstart, Parser.bind_of_done hheaders]
    rfl
  case refine_2 =>
    rw [PhrResponse.texts, htexts]
    rfl

theorem parseReason_done {minorVersion : Int} {status : Nat} {c next : Cursor UInt8}
    {response : PhrResponse}
    (hdone : parseReason maxHeaders minorVersion status c = .done response next) :
    ∃ reason eol block headers, IsReason reason ∧ IsLineEnd eol ∧ HeaderBlock 0 headers block ∧
      headers.length ≤ maxHeaders ∧ c.rest = reason ++ (eol ++ (block ++ next.rest)) ∧
        response.texts = ⟨minorVersion, status, reason.dropWhile fun c => c == SP, headers⟩ := by
  obtain ⟨msg, middle, hmsg, hrest⟩ := Parser.bind_done hdone
  obtain ⟨eol, hctl, heol, hsplit⟩ := getTokenToEol_bytes (Parser.mapNote_done _ hmsg)
  split at hrest
  case isTrue hstart =>
    obtain ⟨found, last, hfound, hresponse⟩ := Parser.bind_done hrest
    cases hresponse
    obtain ⟨block, hblockText, hblock, hlength⟩ :=
      block_of_parseHeaders maxHeaders 0 _ _ _ (Parser.mapNote_done _ hfound)
    rw [Bool.or_eq_true, decide_eq_true_eq, beq_iff_eq] at hstart
    refine ⟨msg.bytes, eol, block, found.map PhrHeader.texts, ⟨hctl, hstart⟩, heol, hblock, ?_, ?_,
      rfl⟩
    · rw [List.length_map]
      exact hlength
    · rw [hsplit, hblockText]
  case isFalse => cases hrest

/-- The version is passed. -/
theorem parseResponse_versionText {digit : Nat} (hdigit : digit < 10) (rest : Bytes) :
    phrParseResponse (versionText digit ++ SP :: rest) maxHeaders =
      ((skipSpaces 0).mapNote (PhrResponseNote.mk 0 .null) >>= fun _ =>
        Parser.require ⟨0, .null, 0⟩ 4 >>= fun _ => parseInt3 >>= fun status =>
          parseReason maxHeaders digit status) ⟨0 + 8, SP :: rest⟩ := by
  have hread : parseHttpVersion 0 ⟨0, versionText digit ++ SP :: rest⟩
      = .done (digit : Int) ⟨0 + 8, SP :: rest⟩ :=
    parseHttpVersion_append hdigit (List.cons_ne_nil SP rest)
  have hversion := Parser.mapNote_of_done (PhrResponseNote.mk 0 .null) hread
  have hpeek : Parser.peek (⟨0, .null, 0⟩ : PhrResponseNote) ⟨0 + 8, SP :: rest⟩
      = .done SP ⟨0 + 8, SP :: rest⟩ := rfl
  rw [phrParseResponse, Parser.parse, parseResponse, Parser.bind_of_done hversion,
    Parser.bind_of_done hpeek, if_pos rfl]

/-- The spaces before the status code are passed, too. -/
theorem parseResponse_spaces (maxHeaders : Nat) {digit : Nat} {spaces : Bytes}
    (hdigit : digit < 10) (hspaces : IsSpaces spaces) {x : UInt8} (hx : x ≠ SP) (rest : Bytes) :
    phrParseResponse (versionText digit ++ (spaces ++ x :: rest)) maxHeaders =
      (Parser.require ⟨0, .null, 0⟩ 4 >>= fun _ => parseInt3 >>= fun status =>
        parseReason maxHeaders digit status) ⟨0 + 8 + spaces.length, x :: rest⟩ := by
  have hread : skipSpaces 0 ⟨0 + 8, spaces ++ x :: rest⟩
      = .done () ⟨0 + 8 + spaces.length, x :: rest⟩ := skipSpaces_append hspaces hx
  have hskip := Parser.mapNote_of_done (PhrResponseNote.mk 0 .null) hread
  obtain ⟨y, spaces, rfl⟩ := List.exists_cons_of_ne_nil hspaces.1
  obtain rfl : y = SP := hspaces.2 y List.mem_cons_self
  rw [List.cons_append] at hskip ⊢
  rw [parseResponse_versionText hdigit, Parser.bind_of_done hskip]

/-- The status line up to its code is passed. -/
theorem parseResponse_code (maxHeaders : Nat) {digit hundreds tens ones : Nat} {spaces : Bytes}
    (hdigit : digit < 10) (hspaces : IsSpaces spaces) (hhundreds : hundreds < 10)
    (htens : tens < 10) (hones : ones < 10) (hrest : rest ≠ []) :
    phrParseResponse (versionText digit ++ (spaces ++ (codeText hundreds tens ones ++ rest)))
      maxHeaders = parseReason maxHeaders digit (100 * hundreds + 10 * tens + ones)
        ⟨0 + 8 + spaces.length + 3, rest⟩ := by
  have hfirst : UInt8.ofNat (48 + hundreds) ≠ SP := by
    interval_cases hundreds <;> decide
  have hlength : 0 < rest.length := List.length_pos_of_ne_nil hrest
  have hrequire : Parser.require (⟨0, .null, 0⟩ : PhrResponseNote) 4
      ⟨0 + 8 + spaces.length, codeText hundreds tens ones ++ rest⟩
        = .done () ⟨0 + 8 + spaces.length, codeText hundreds tens ones ++ rest⟩ := by
    apply if_neg
    rw [List.length_append, codeText]
    simp only [List.length_cons, List.length_nil]
    omega
  have hspacesRead := parseResponse_spaces maxHeaders hdigit hspaces hfirst
    (UInt8.ofNat (48 + tens) :: UInt8.ofNat (48 + ones) :: rest)
  refine hspacesRead.trans ((Parser.bind_of_done hrequire).trans ?_)
  rw [Parser.bind_of_done (parseInt3_append hhundreds htens hones)]

/-- A response at the front of a text is read to its end, and its parts are handed out. -/
theorem phrParseResponse_of_isResponse (hresponse : IsResponse maxHeaders texts text)
    (rest : Bytes) :
    ∃ response next, phrParseResponse (text ++ rest) maxHeaders = .done response next ∧
      next.rest = rest ∧ response.texts = texts := by
  obtain ⟨digit, spaces, hundreds, tens, ones, reason, eol, block, headers, hdigit, hspaces,
    hhundreds, htens, hones, hreason, heol, hblock, hroom⟩ := hresponse
  have hsplit : versionText digit ++ (spaces ++ (codeText hundreds tens ones ++
      (reason ++ (eol ++ block)))) ++ rest
        = versionText digit ++ (spaces ++ (codeText hundreds tens ones ++
          (reason ++ (eol ++ (block ++ rest))))) := by simp
  have hne : reason ++ (eol ++ (block ++ rest)) ≠ [] :=
    List.append_ne_nil_of_right_ne_nil _ (List.append_ne_nil_of_left_ne_nil heol.ne_nil _)
  rw [hsplit, parseResponse_code maxHeaders hdigit hspaces hhundreds htens hones hne]
  exact parseReason_append hreason heol hblock hroom digit (100 * hundreds + 10 * tens + ones)
    (0 + 8 + spaces.length + 3) rest

/-- What is taken for a response is one. -/
theorem isResponse_of_phrParseResponse {response : PhrResponse} {next : Cursor UInt8}
    (hdone : phrParseResponse text maxHeaders = .done response next) :
    ∃ front, text = front ++ next.rest ∧ IsResponse maxHeaders response.texts front := by
  obtain ⟨version, c1, hversion, h1⟩ := Parser.bind_done hdone
  obtain ⟨x, c2, hpeek, h2⟩ := Parser.bind_done h1
  split at h2
  case isFalse => cases h2
  case isTrue hx =>
    obtain ⟨_, c3, hskip, h3⟩ := Parser.bind_done h2
    obtain ⟨_, c4, hrequire, h4⟩ := Parser.bind_done h3
    obtain ⟨code, c5, hcode, h5⟩ := Parser.bind_done h4
    obtain ⟨digit, hdigit, rfl, hversionText⟩ :=
      parseHttpVersion_done (Parser.mapNote_done _ hversion)
    obtain ⟨hhead, hsame⟩ := peek_done hpeek
    obtain ⟨xs, hxs⟩ := List.head?_eq_some_iff.mp hhead
    rw [hsame] at hskip
    obtain ⟨spaces, hspaces, hspacesText, -⟩ :=
      skipSpaces_done hxs hx (Parser.mapNote_done _ hskip)
    have hsame' : c4 = c3 := by
      unfold Parser.require at hrequire
      split at hrequire
      · cases hrequire
      · cases hrequire
        rfl
    obtain ⟨hundreds, tens, ones, hhundreds, htens, hones, rfl, hcodeText⟩ := parseInt3_done hcode
    obtain ⟨reason, eol, block, headers, hreason, heol, hblock, hroom, hreasonText, htexts⟩ :=
      parseReason_done h5
    refine ⟨versionText digit ++ (spaces ++ (codeText hundreds tens ones ++
      (reason ++ (eol ++ block)))), ?_, ?_⟩
    case refine_1 =>
      change text = versionText digit ++ c1.rest at hversionText
      rw [hversionText, hspacesText, ← hsame', hcodeText, hreasonText]
      simp
    case refine_2 =>
      rw [htexts]
      exact .intro digit spaces hundreds tens ones reason eol block headers hdigit hspaces hhundreds
        htens hones hreason heol hblock hroom

/-- `phr_parse_response` is done exactly on the texts that begin with a response, and hands out
the parts of that response. -/
theorem phrParseResponse_done_iff :
    (∃ response next, phrParseResponse text maxHeaders = .done response next ∧ next.rest = rest ∧
      response.texts = texts) ↔
      ∃ front, text = front ++ rest ∧ IsResponse maxHeaders texts front := by
  constructor
  · rintro ⟨response, next, hdone, rfl, rfl⟩
    exact isResponse_of_phrParseResponse hdone
  · rintro ⟨front, rfl, hresponse⟩
    exact phrParseResponse_of_isResponse hresponse rest

end Response

end GameDemoLearn.Net.Http
