import GameDemoLearn.Net.Http.ResponseGrammar

/-!
`last_len`: the caller says how much of the text the last call has seen, and a call that finds no
empty line from three characters before that point on does not parse. The check never holds back a
request or response that is complete, nor a block of headers unless it is empty.
-/

namespace GameDemoLearn.Net.Http

open Incremental

/-- What `is_complete` returns: a pointer, or null with `-2` or `-1`. -/
inductive Completeness
  | complete
  | unfinished
  | malformed
  deriving DecidableEq

/-- The loop of `is_complete`, with `ret_cnt` line ends in a row so far. -/
def isCompleteFrom : (retCnt : Nat) → Bytes → Completeness
  | _, [] => .unfinished
  | retCnt, c :: buf =>
      if c = CR then
        match buf with
        | [] => .unfinished
        | d :: buf =>
            if d ≠ LF then .malformed
            else if retCnt + 1 = 2 then .complete
            else isCompleteFrom (retCnt + 1) buf
      else if c = LF then
        if retCnt + 1 = 2 then .complete else isCompleteFrom (retCnt + 1) buf
      else
        isCompleteFrom 0 buf

def isComplete (buf : Bytes) (lastLen : Nat) : Completeness :=
  isCompleteFrom 0 (buf.drop (if lastLen < 3 then 0 else lastLen - 3))

/-- A parser behind the check for `last_len`. -/
def parseSince {ε α : Type} (p : Parser UInt8 ε α) (note : ε) (buf : Bytes) (lastLen : Nat) :
    Outcome UInt8 ε α :=
  if lastLen ≠ 0 then
    match isComplete buf lastLen with
    | .complete => p.parse buf
    | .unfinished => .needMore note
    | .malformed => .fail note
  else
    p.parse buf

/-- `phr_parse_request`, its result not narrowed to `int`. -/
def phrParseRequestSince (buf : Bytes) (maxHeaders lastLen : Nat) : Outcome UInt8 Nat PhrRequest :=
  parseSince (parseRequest maxHeaders) 0 buf lastLen

/-- `phr_parse_response`, its result not narrowed to `int`. -/
def phrParseResponseSince (buf : Bytes) (maxHeaders lastLen : Nat) :
    Outcome UInt8 PhrResponseNote PhrResponse :=
  parseSince (parseResponse maxHeaders) ⟨0, .null, 0⟩ buf lastLen

/-- `phr_parse_headers` with a `last_len` of 0, its result not narrowed to `int`. -/
def phrParseHeaders (buf : Bytes) (maxHeaders : Nat) : Outcome UInt8 Nat (List PhrHeader) :=
  (parseHeaders maxHeaders 0).parse buf

/-- `phr_parse_headers`, its result not narrowed to `int`. -/
def phrParseHeadersSince (buf : Bytes) (maxHeaders lastLen : Nat) :
    Outcome UInt8 Nat (List PhrHeader) :=
  parseSince (parseHeaders maxHeaders 0) 0 buf lastLen

/-- Behind every carriage return there is a line feed. -/
def NoBareCr (text : Bytes) : Prop :=
  ∀ front back, text = front ++ CR :: back → back.head? = some LF

/-- A text without a bare carriage return that ends with an empty line. -/
def EndsEmpty (text : Bytes) : Prop :=
  NoBareCr text ∧ ∃ front eol eol', text = front ++ (eol ++ eol') ∧ IsLineEnd eol ∧ IsLineEnd eol'

section NoBareCr

variable {text front back eol eol' : Bytes}

theorem NoBareCr.of_append (front : Bytes) (h : NoBareCr (front ++ back)) : NoBareCr back := by
  intro front' back' hsplit
  apply h (front ++ front') back'
  rw [hsplit, List.append_assoc]

theorem NoBareCr.cons {x : UInt8} (hx : x = CR → back.head? = some LF) (hback : NoBareCr back) :
    NoBareCr (x :: back) := by
  intro front' back' hsplit
  cases front' with
  | nil =>
      obtain ⟨hcr, rfl⟩ := List.cons.inj hsplit
      exact hx hcr
  | cons y front' => exact hback front' back' (List.cons.inj hsplit).2

theorem noBareCr_append (hfront : CR ∉ front) (hback : NoBareCr back) :
    NoBareCr (front ++ back) := by
  induction front with
  | nil => exact hback
  | cons x front ih =>
      rw [List.mem_cons, not_or] at hfront
      exact (ih hfront.2).cons fun hcr => absurd hcr.symm hfront.1

theorem noBareCr_lineEnd (heol : IsLineEnd eol) (hback : NoBareCr back) :
    NoBareCr (eol ++ back) := by
  have hlf : NoBareCr (LF :: back) := hback.cons fun hcr => by cases hcr
  rcases heol with rfl | rfl
  · exact hlf.cons fun _ => rfl
  · exact hlf

theorem isCompleteFrom_lineEnd (heol : IsLineEnd eol) (retCnt : Nat) (rest : Bytes) :
    isCompleteFrom retCnt (eol ++ rest)
      = if retCnt + 1 = 2 then .complete else isCompleteFrom (retCnt + 1) rest := by
  rcases heol with rfl | rfl
  · rfl
  · cases rest <;> rfl

theorem isCompleteFrom_other {c : UInt8} (hc : ¬ (c = CR ∨ c = LF)) (retCnt : Nat) (rest : Bytes) :
    isCompleteFrom retCnt (c :: rest) = isCompleteFrom 0 rest := by
  rw [not_or] at hc
  rw [isCompleteFrom.eq_def]
  change (if c = CR then _ else if c = LF then _ else _) = _
  rw [if_neg hc.1, if_neg hc.2]

/-- Line ends are counted on top of each other, so an empty line is found. -/
theorem isCompleteFrom_emptyLine (heol : IsLineEnd eol) (heol' : IsLineEnd eol') {retCnt : Nat}
    (hcnt : retCnt < 2) (rest : Bytes) :
    isCompleteFrom retCnt (eol ++ (eol' ++ rest)) = .complete := by
  rw [isCompleteFrom_lineEnd heol, isCompleteFrom_lineEnd heol']
  interval_cases retCnt <;> rfl

/-- The empty line is found from any place in front of it. -/
theorem isCompleteFrom_endsEmpty (heol : IsLineEnd eol) (heol' : IsLineEnd eol') (rest : Bytes)
    (n : Nat) : ∀ front : Bytes, front.length = n → NoBareCr (front ++ (eol ++ eol')) →
      ∀ retCnt < 2, isCompleteFrom retCnt (front ++ (eol ++ (eol' ++ rest))) = .complete := by
  induction n using Nat.strong_induction_on with
  | _ n ih =>
      intro front hlength hbare retCnt hcnt
      -- one more line end, and the rest of the text behind it
      have hline : ∀ line front' : Bytes, IsLineEnd line → front = line ++ front' →
          isCompleteFrom retCnt (front ++ (eol ++ (eol' ++ rest))) = .complete := by
        intro line front' hend hfront
        rw [hfront, List.append_assoc, isCompleteFrom_lineEnd hend]
        split
        case isTrue => rfl
        case isFalse hmore =>
          have hshort : front'.length < n := by
            obtain ⟨c, line', rfl, -⟩ := hend.exists_cons
            rw [← hlength, hfront, List.length_append, List.length_cons]
            omega
          rw [hfront, List.append_assoc] at hbare
          exact ih _ hshort front' rfl (hbare.of_append line) (retCnt + 1) (by omega)
      cases front with
      | nil => exact isCompleteFrom_emptyLine heol heol' hcnt rest
      | cons c front =>
          by_cases hcr : c = CR
          case pos =>
            subst hcr
            have hnext := hbare [] _ rfl
            cases front with
            | nil =>
                -- the carriage return belongs to the line end behind it
                rcases heol with rfl | rfl
                · cases hnext
                · exact isCompleteFrom_emptyLine (.inl rfl) heol' hcnt rest
            | cons d front =>
                obtain rfl : d = LF := Option.some.inj hnext
                exact hline CRLF front (.inl rfl) rfl
          case neg =>
            by_cases hlf : c = LF
            case pos =>
              subst hlf
              exact hline [LF] front (.inr rfl) rfl
            case neg =>
              rw [List.cons_append, isCompleteFrom_other (by simp [hcr, hlf])]
              have hshort : front.length < n := by
                rw [← hlength, List.length_cons]
                exact Nat.lt_succ_self _
              exact ih _ hshort front rfl (hbare.of_append [c]) 0 (by omega)

theorem EndsEmpty.prepend (hfront : CR ∉ front) (htext : EndsEmpty text) :
    EndsEmpty (front ++ text) := by
  obtain ⟨hbare, front', eol, eol', rfl, heol, heol'⟩ := htext
  exact ⟨noBareCr_append hfront hbare, front ++ front', eol, eol',
    (List.append_assoc ..).symm, heol, heol'⟩

theorem EndsEmpty.lineEnd (heol : IsLineEnd eol) (htext : EndsEmpty text) :
    EndsEmpty (eol ++ text) := by
  obtain ⟨hbare, front, eol', eol'', rfl, heol', heol''⟩ := htext
  exact ⟨noBareCr_lineEnd heol hbare, eol ++ front, eol', eol'',
    (List.append_assoc ..).symm, heol', heol''⟩

/-- A text that ends with an empty line is complete from every place that `last_len` can name. -/
theorem EndsEmpty.isComplete (htext : EndsEmpty text) {lastLen : Nat}
    (hlast : lastLen < text.length) (rest : Bytes) :
    isComplete (text ++ rest) lastLen = .complete := by
  obtain ⟨hbare, front, eol, eol', rfl, heol, heol'⟩ := htext
  have hshort : eol.length ≤ 2 ∧ eol'.length ≤ 2 := by
    constructor
    · rcases heol with rfl | rfl <;> decide
    · rcases heol' with rfl | rfl <;> decide
  obtain ⟨start, hstart⟩ : ∃ start, start = if lastLen < 3 then 0 else lastLen - 3 := ⟨_, rfl⟩
  have hle : start ≤ front.length := by
    simp only [List.length_append] at hlast
    rw [hstart]
    split <;> omega
  have hdrop : (front ++ (eol ++ eol') ++ rest).drop start
      = front.drop start ++ (eol ++ (eol' ++ rest)) := by
    rw [List.append_assoc, List.drop_append_of_le_length hle, List.append_assoc]
  rw [Http.isComplete, ← hstart, hdrop]
  rw [← List.take_append_drop start front, List.append_assoc] at hbare
  exact isCompleteFrom_endsEmpty heol heol' rest _ _ rfl (hbare.of_append _) 0 (by decide)

end NoBareCr

section Heads

variable {text : Bytes} {maxHeaders : Nat}

theorem not_mem_of_noCtl {value : Bytes} (hvalue : NoCtl value) : CR ∉ value := by
  intro hmem
  cases hvalue CR hmem

theorem not_mem_of_isTokenChar {name : Bytes} (hname : ∀ c ∈ name, isTokenChar c = true) :
    CR ∉ name := by
  intro hmem
  cases hname CR hmem

theorem not_mem_of_isSpaces {spaces : Bytes} (hspaces : IsSpaces spaces) : CR ∉ spaces := by
  intro hmem
  cases hspaces.2 CR hmem

theorem not_mem_versionText {digit : Nat} (hdigit : digit < 10) : CR ∉ versionText digit := by
  interval_cases digit <;> decide

theorem not_mem_fieldLine {name blanks value : Bytes} (hname : ∀ c ∈ name, isTokenChar c = true)
    (hblanks : ∀ c ∈ blanks, isBlank c = true) (hvalue : NoCtl value) :
    CR ∉ name ++ 58 :: (blanks ++ value) := by
  have hblank : CR ∉ blanks := by
    intro hmem
    cases hblanks CR hmem
  simp only [List.mem_append, List.mem_cons, not_or]
  exact ⟨not_mem_of_isTokenChar hname, by decide, hblank, not_mem_of_noCtl hvalue⟩

/-- A block of header lines ends a line and the headers with it. -/
theorem HeaderBlock.endsEmpty {numHeaders : Nat} {headers : List (Bytes × Bytes)}
    (hblock : HeaderBlock numHeaders headers text) :
    ∀ {eol : Bytes}, IsLineEnd eol → EndsEmpty (eol ++ text) := by
  induction hblock with
  | @last _ eol' heol' =>
      intro eol heol
      have hbare : NoBareCr (eol' ++ []) := by
        apply noBareCr_lineEnd heol'
        intro front back hsplit
        cases front <;> cases hsplit
      rw [List.append_nil] at hbare
      exact ⟨noBareCr_lineEnd heol hbare, [], eol, eol', rfl, heol, heol'⟩
  | @field _ name blanks value eol' rest _ _ hname hblanks hvalue _ heol' _ ih =>
      intro eol heol
      have hends := ((ih heol').prepend (not_mem_fieldLine hname hblanks hvalue)).lineEnd heol
      simpa using hends
  | folded _ _ hvalue heol' _ ih =>
      intro eol heol
      exact ((ih heol').prepend (not_mem_of_noCtl hvalue)).lineEnd heol

/-- A block with a header in it ends its line itself. -/
theorem HeaderBlock.endsEmpty_of_ne_nil {numHeaders : Nat} {headers : List (Bytes × Bytes)}
    (hblock : HeaderBlock numHeaders headers text) (hsome : headers ≠ []) : EndsEmpty text := by
  cases hblock with
  | last => exact absurd rfl hsome
  | field _ hname hblanks hvalue _ heol hrest =>
      simpa using (hrest.endsEmpty heol).prepend (not_mem_fieldLine hname hblanks hvalue)
  | folded _ _ hvalue heol hrest =>
      exact (hrest.endsEmpty heol).prepend (not_mem_of_noCtl hvalue)

theorem IsRequest.endsEmpty {texts : RequestTexts} (hrequest : IsRequest maxHeaders texts text) :
    EndsEmpty text := by
  obtain ⟨lead, method, spaces, path, spaces', digit, eol, block, headers, hlead, -, htoken,
    hspaces, -, htarget, hspaces', hdigit, heol, hblock, -⟩ := hrequest
  have hpath : CR ∉ path := by
    intro hmem
    cases htarget CR hmem
  have hends := ((((hblock.endsEmpty heol).prepend (not_mem_versionText hdigit)).prepend
    (not_mem_of_isSpaces hspaces')).prepend hpath).prepend (not_mem_of_isSpaces hspaces)
  have hline := hends.prepend (not_mem_of_isTokenChar htoken)
  rcases hlead with rfl | hlead
  · exact hline
  · exact hline.lineEnd hlead

theorem IsResponse.endsEmpty {texts : ResponseTexts}
    (hresponse : IsResponse maxHeaders texts text) : EndsEmpty text := by
  obtain ⟨digit, spaces, hundreds, tens, ones, reason, eol, block, headers, hdigit, hspaces,
    hhundreds, htens, hones, hreason, heol, hblock, -⟩ := hresponse
  have hcode : CR ∉ codeText hundreds tens ones := by
    have hall : ∀ d < 10, ¬ CR = UInt8.ofNat (48 + d) := by decide
    simp only [codeText, List.mem_cons, List.not_mem_nil, or_false, not_or]
    exact ⟨hall _ hhundreds, hall _ htens, hall _ hones⟩
  exact ((((hblock.endsEmpty heol).prepend (not_mem_of_noCtl hreason.noCtl)).prepend hcode).prepend
    (not_mem_of_isSpaces hspaces)).prepend (not_mem_versionText hdigit)

end Heads

section Since

variable {ε α : Type} {p : Parser UInt8 ε α} {note : ε} {text : Bytes} {lastLen maxHeaders : Nat}

theorem parse_of_parseSince {value : α} {next : Cursor UInt8}
    (hdone : parseSince p note text lastLen = .done value next) :
    p.parse text = .done value next := by
  unfold parseSince at hdone
  split at hdone
  case isTrue =>
    split at hdone
    · exact hdone
    · cases hdone
    · cases hdone
  case isFalse => exact hdone

theorem parseSince_eq_parse (hseen : lastLen = 0 ∨ isComplete text lastLen = .complete) :
    parseSince p note text lastLen = p.parse text := by
  unfold parseSince
  split
  case isTrue hne => rw [hseen.resolve_left hne]
  case isFalse => rfl

theorem seen_of_parseSince {value : α} {next : Cursor UInt8}
    (hdone : parseSince p note text lastLen = .done value next) :
    lastLen = 0 ∨ isComplete text lastLen = .complete := by
  unfold parseSince at hdone
  split at hdone
  case isTrue =>
    split at hdone
    · next hcomplete => exact .inr hcomplete
    · cases hdone
    · cases hdone
  case isFalse hzero => exact .inl (not_not.mp hzero)

theorem parseSince_of_endsEmpty {front rest : Bytes} (hfront : EndsEmpty front)
    (hlast : lastLen < front.length) :
    parseSince p note (front ++ rest) lastLen = p.parse (front ++ rest) :=
  parseSince_eq_parse (.inr (hfront.isComplete hlast rest))

/-- A text whose front is complete was complete before it grew behind that front. -/
theorem lt_length_of_before {front rest : Bytes}
    (hfront : ∀ more, ∃ value next, p.parse (front ++ more) = .done value next)
    (hbefore : ¬ ∃ value next, p.parse ((front ++ rest).take lastLen) = .done value next) :
    lastLen < front.length := by
  by_contra hle
  apply hbefore
  rw [List.take_append, List.take_of_length_le (Nat.not_lt.mp hle)]
  exact hfront _

/-- A request that was not complete in what the last call has seen is found as without
`last_len`, and nothing else is. -/
theorem phrParseRequestSince_done_iff {request : PhrRequest} {next : Cursor UInt8}
    (hbefore : ¬ ∃ request next,
      phrParseRequest (text.take lastLen) maxHeaders = .done request next) :
    phrParseRequestSince text maxHeaders lastLen = .done request next ↔
      phrParseRequest text maxHeaders = .done request next := by
  constructor
  · exact parse_of_parseSince
  · intro hdone
    obtain ⟨front, hsplit, hrequest⟩ := isRequest_of_phrParseRequest hdone
    rw [hsplit] at hbefore hdone ⊢
    have hfront : ∀ more, ∃ request next,
        phrParseRequest (front ++ more) maxHeaders = .done request next := by
      intro more
      obtain ⟨request, next, hdone, -, -⟩ := phrParseRequest_of_isRequest hrequest more
      exact ⟨request, next, hdone⟩
    rw [phrParseRequestSince,
      parseSince_of_endsEmpty hrequest.endsEmpty (lt_length_of_before hfront hbefore)]
    exact hdone

/-- `GET / HTTP/1.0` and an empty line, when three characters came first. -/
theorem phrParseRequestSince_done_iff_get :
    phrParseRequestSince
        [71, 69, 84, 32, 47, 32, 72, 84, 84, 80, 47, 49, 46, 48, 10, 10] 16 3
      = .done ⟨⟨0, [71, 69, 84]⟩, ⟨4, [47]⟩, 0, []⟩ ⟨16, []⟩ := by
  have hmore : phrParseRequest [71, 69, 84] 16 = .needMore 0 := rfl
  have hbefore : ¬ ∃ request next, phrParseRequest ([71, 69, 84, 32, 47, 32, 72, 84, 84, 80, 47, 49,
      46, 48, 10, 10].take 3) 16 = .done request next := by
    rintro ⟨request, next, hdone⟩
    cases hmore.symm.trans hdone
  exact (phrParseRequestSince_done_iff hbefore).mpr rfl

/-- A response that was not complete in what the last call has seen is found as without
`last_len`, and nothing else is. -/
theorem phrParseResponseSince_done_iff {response : PhrResponse} {next : Cursor UInt8}
    (hbefore : ¬ ∃ response next,
      phrParseResponse (text.take lastLen) maxHeaders = .done response next) :
    phrParseResponseSince text maxHeaders lastLen = .done response next ↔
      phrParseResponse text maxHeaders = .done response next := by
  constructor
  · exact parse_of_parseSince
  · intro hdone
    obtain ⟨front, hsplit, hresponse⟩ := isResponse_of_phrParseResponse hdone
    rw [hsplit] at hbefore hdone ⊢
    have hfront : ∀ more, ∃ response next,
        phrParseResponse (front ++ more) maxHeaders = .done response next := by
      intro more
      obtain ⟨response, next, hdone, -, -⟩ := phrParseResponse_of_isResponse hresponse more
      exact ⟨response, next, hdone⟩
    rw [phrParseResponseSince,
      parseSince_of_endsEmpty hresponse.endsEmpty (lt_length_of_before hfront hbefore)]
    exact hdone

/-- A block of headers that was not complete in what the last call has seen is found where it is
not empty. An empty one is only the end of a line, so the check finds it with an empty line
behind it. -/
theorem phrParseHeadersSince_done_iff {headers : List (Bytes × Bytes)} {rest : Bytes}
    (hbefore : ¬ ∃ found next,
      phrParseHeaders (text.take lastLen) maxHeaders = .done found next) :
    (∃ found next, phrParseHeadersSince text maxHeaders lastLen = .done found next ∧
      next.rest = rest ∧ found.map PhrHeader.texts = headers) ↔
      (∃ front, text = front ++ rest ∧ HeaderBlock 0 headers front ∧
        headers.length ≤ maxHeaders) ∧
      (headers = [] → lastLen = 0 ∨ isComplete text lastLen = .complete) := by
  constructor
  · rintro ⟨found, next, hdone, rfl, rfl⟩
    obtain ⟨front, hsplit, hblock, hroom⟩ :=
      block_of_parseHeaders maxHeaders 0 _ next found (parse_of_parseSince hdone)
    rw [List.length_map]
    exact ⟨⟨front, hsplit, hblock, hroom⟩, fun _ => seen_of_parseSince hdone⟩
  · rintro ⟨⟨front, rfl, hblock, hroom⟩, hseen⟩
    have hfront (more : Bytes) := parseHeaders_of_block hblock more maxHeaders 0 hroom
    have hparse : phrParseHeadersSince (front ++ rest) maxHeaders lastLen
        = phrParseHeaders (front ++ rest) maxHeaders := by
      by_cases hnone : headers = []
      case pos => exact parseSince_eq_parse (hseen hnone)
      case neg =>
        refine parseSince_of_endsEmpty (hblock.endsEmpty_of_ne_nil hnone)
          (lt_length_of_before (fun more => ?_) hbefore)
        obtain ⟨found, hdone, -⟩ := hfront more
        exact ⟨found, _, hdone⟩
    obtain ⟨found, hdone, htexts⟩ := hfront rest
    exact ⟨found, _, hparse.trans hdone, rfl, htexts⟩

/-- `a:b` and an empty line, when three characters came first. -/
theorem phrParseHeadersSince_done_iff_field : ∃ found next,
    phrParseHeadersSince [97, 58, 98, 13, 10, 13, 10] 16 3 = .done found next ∧
      next.rest = [] ∧ found.map PhrHeader.texts = [([97], [98])] := by
  have hmore : phrParseHeaders [97, 58, 98] 16 = .needMore 0 := rfl
  have hbefore : ¬ ∃ found next,
      phrParseHeaders ([97, 58, 98, 13, 10, 13, 10].take 3) 16 = .done found next := by
    rintro ⟨found, next, hdone⟩
    cases hmore.symm.trans hdone
  refine (phrParseHeadersSince_done_iff hbefore).mpr ⟨?_, fun hnone => by cases hnone⟩
  obtain ⟨front, hsplit, hblock, -⟩ := block_of_parseHeaders 16 0
    ⟨0, [97, 58, 98, 13, 10, 13, 10]⟩ ⟨7, []⟩ [⟨⟨0, [97]⟩, ⟨2, [98]⟩⟩] rfl
  exact ⟨front, hsplit, hblock, by decide⟩

/-- An empty block that was cut behind its carriage return is not found. -/
example : phrParseHeadersSince [13, 10] 16 1 = .needMore 0 := rfl

end Since

end GameDemoLearn.Net.Http
