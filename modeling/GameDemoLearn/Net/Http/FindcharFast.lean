import GameDemoLearn.Net.Http.PicoHttpParser

/-!
The two builds of `picohttpparser.c`. With SSE4.2 `findchar_fast` searches a token in blocks of
16 characters before the loop goes on one by one; without it `get_token_to_eol` checks for the end
of the text only at every eighth character. Neither changes what a request or a response says.
-/

namespace GameDemoLearn.Net.Http

open Incremental

/-- A set of characters, as pairs of a first and a last one. -/
def inRanges (ranges : List (UInt8 × UInt8)) (c : UInt8) : Bool :=
  ranges.any fun range => range.1 ≤ c && c ≤ range.2

/-- `_mm_cmpestri` on a block: the index of the first character in a range, else 16. -/
def cmpestri (ranges : List (UInt8 × UInt8)) (block : Bytes) : Nat :=
  block.findIdx (inRanges ranges)

/-- How far a search came, and whether it `found` a character there. -/
structure Found where
  skipped : Nat
  found : Bool

def Found.after (n : Nat) (result : Found) : Found := ⟨n + result.skipped, result.found⟩

/-- The loop of `findchar_fast`, with so many whole blocks left. -/
def findcharBlocks (ranges : List (UInt8 × UInt8)) : (blocks : Nat) → Bytes → Found
  | 0, _ => ⟨0, false⟩
  | blocks + 1, buf =>
      let r := cmpestri ranges (buf.take 16)
      if r ≠ 16 then ⟨r, true⟩ else (findcharBlocks ranges blocks (buf.drop 16)).after 16

def findcharFast (ranges : List (UInt8 × UInt8)) (buf : Bytes) : Found :=
  findcharBlocks ranges (buf.length / 16) buf

def isPrintableAscii (c : UInt8) : Bool := c - 32 < 95

/-- The unrolled loop of `get_token_to_eol`, with `left` more `DOIT()` in this round. A round
starts only where eight characters are left, and ends early behind a character that is not
printable. -/
def doIt : (left : Nat) → Bytes → Found
  | _, [] => ⟨0, false⟩
  | left, c :: buf =>
      if left = 0 ∧ buf.length + 1 < 8 then
        ⟨0, false⟩
      else if isPrintableAscii c then
        (doIt (if left = 0 then 7 else left - 1) buf).after 1
      else if isCtl c then
        ⟨0, true⟩
      else
        (doIt 0 buf).after 1

/-- `ranges1`. -/
def eolRanges : List (UInt8 × UInt8) := [(0, 8), (10, 31), (127, 127)]

/-- `ranges2`. -/
def targetRanges : List (UInt8 × UInt8) := [(0, 32), (127, 127)]

/-- `ranges` of `parse_token`. -/
def tokenRanges : List (UInt8 × UInt8) :=
  [(0, 32), (34, 34), (40, 41), (44, 44), (47, 47), (58, 64), (91, 93), (123, 255)]

/-- The cursor moves on as far as a search says. -/
def search (find : Bytes → Found) : PhrParser (Bytes × Bool) := fun c =>
  let result := find c.rest
  .done (c.rest.take result.skipped, result.found)
    ⟨c.pos + result.skipped, c.rest.drop result.skipped⟩

/-- `if (!found) CHECK_EOF();` -/
def checkEof (found : Bool) (numHeaders : Nat) : PhrParser Unit :=
  if !found then Parser.require numHeaders 1 else pure ()

/-- A token that is searched for before its loop starts. -/
def scanTokenAfter (find : Bytes → Found) (numHeaders : Nat) (stop bad : UInt8 → Bool) :
    PhrParser StringView := do
  let offset ← Parser.position
  let skipped ← search find
  checkEof skipped.2 numHeaders
  let bytes ← Parser.scan numHeaders stop bad
  pure ⟨offset, skipped.1 ++ bytes⟩

/-- The last loop of `get_token_to_eol`, which a search that found a character jumps over. -/
def scanToCtl (found : Bool) (numHeaders : Nat) : PhrParser Bytes :=
  if found then pure [] else Parser.scan numHeaders isCtl fun _ => false

def getTokenToEolAfter (find : Bytes → Found) (numHeaders : Nat) : PhrParser StringView := do
  let offset ← Parser.position
  let skipped ← search find
  let bytes ← scanToCtl skipped.2 numHeaders
  lineEnd numHeaders
  pure ⟨offset, skipped.1 ++ bytes⟩

/-- The token readers of a build, by the `*num_headers` they leave. -/
structure TokenReaders where
  /-- `parse_token` up to a space. -/
  parseMethod : Nat → PhrParser StringView
  /-- `parse_token` up to a colon. -/
  parseName : Nat → PhrParser StringView
  advanceToken : Nat → PhrParser StringView
  getTokenToEol : Nat → PhrParser StringView

/-- The readers of a build with `__SSE4_2__`. -/
def sse42 : TokenReaders where
  parseMethod numHeaders :=
    scanTokenAfter (findcharFast tokenRanges) numHeaders (fun c => c == SP)
      fun c => !isTokenChar c
  parseName numHeaders :=
    scanTokenAfter (findcharFast tokenRanges) numHeaders (fun c => c == 58)
      fun c => !isTokenChar c
  advanceToken numHeaders :=
    scanTokenAfter (findcharFast targetRanges) numHeaders (fun c => c == SP)
      fun c => c < SP || c == DEL
  getTokenToEol := getTokenToEolAfter (findcharFast eolRanges)

/-- The readers of any other build, where `findchar_fast` finds nothing. -/
def unrolled : TokenReaders where
  parseMethod numHeaders :=
    scanTokenAfter (fun _ => ⟨0, false⟩) numHeaders (fun c => c == SP) fun c => !isTokenChar c
  parseName numHeaders :=
    scanTokenAfter (fun _ => ⟨0, false⟩) numHeaders (fun c => c == 58) fun c => !isTokenChar c
  advanceToken numHeaders :=
    scanTokenAfter (fun _ => ⟨0, false⟩) numHeaders (fun c => c == SP)
      fun c => c < SP || c == DEL
  getTokenToEol := getTokenToEolAfter (doIt 0)

namespace TokenReaders

variable (readers : TokenReaders)

def parseHeaderName (numHeaders : Nat) : PhrParser StringView := do
  let name ← readers.parseName numHeaders
  if name.bytes = [] then
    Parser.fail numHeaders
  else
    let _ ← Parser.next numHeaders
    let _ ← Parser.scan numHeaders (fun c => !isBlank c) fun _ => false
    pure name

def parseLineName (numHeaders : Nat) : PhrParser StringView := do
  let c ← Parser.peek numHeaders
  if !(numHeaders != 0 && isBlank c) then readers.parseHeaderName numHeaders else pure .null

def parseHeaderLine (numHeaders : Nat) : PhrParser PhrHeader := do
  let name ← readers.parseLineName numHeaders
  let value ← readers.getTokenToEol numHeaders
  -- remove trailing SPs and HTABs
  pure ⟨name, { value with bytes := value.bytes.rdropWhile isBlank }⟩

def parseHeaders : (room numHeaders : Nat) → PhrParser (List PhrHeader)
  | room, numHeaders => do
      let c ← Parser.peek numHeaders
      if c = CR || c = LF then
        lineEnd numHeaders
        pure []
      else
        match room with
        | 0 => Parser.fail numHeaders
        | room + 1 => do
            let header ← readers.parseHeaderLine numHeaders
            let headers ← parseHeaders room (numHeaders + 1)
            pure (header :: headers)

def parseRequest (maxHeaders : Nat) : PhrParser PhrRequest := do
  skipEmptyLine
  let method ← readers.parseMethod 0
  skipSpaces 0
  let path ← readers.advanceToken 0
  skipSpaces 0
  if method.bytes = [] || path.bytes = [] then
    Parser.fail 0
  else
    let minorVersion ← parseHttpVersion 0
    lineEnd 0
    let headers ← readers.parseHeaders maxHeaders 0
    pure ⟨method, path, minorVersion, headers⟩

def parseReason (maxHeaders : Nat) (minorVersion : Int) (status : Nat) :
    Parser UInt8 PhrResponseNote PhrResponse := do
  let msg ← (readers.getTokenToEol 0).mapNote (PhrResponseNote.mk status .null)
  if msg.bytes = [] || msg.bytes.head? == some SP then
    let headers ← (readers.parseHeaders maxHeaders 0).mapNote
      (PhrResponseNote.mk status (removePrecedingSpace msg))
    pure ⟨minorVersion, status, removePrecedingSpace msg, headers⟩
  else
    -- garbage found after status code
    Parser.fail ⟨status, msg, 0⟩

def parseResponse (maxHeaders : Nat) : Parser UInt8 PhrResponseNote PhrResponse := do
  let minorVersion ← (parseHttpVersion 0).mapNote (PhrResponseNote.mk 0 .null)
  let c ← Parser.peek ⟨0, .null, 0⟩
  if c = SP then
    (skipSpaces 0).mapNote (PhrResponseNote.mk 0 .null)
    Parser.require ⟨0, .null, 0⟩ 4
    let status ← parseInt3
    readers.parseReason maxHeaders minorVersion status
  else
    Parser.fail ⟨0, .null, 0⟩

end TokenReaders

/-- What a search has to show of the characters it passes and of the one that it finds. -/
def Passes (stop : UInt8 → Bool) (buf : Bytes) (result : Found) : Prop :=
  ∃ front back, buf = front ++ back ∧ front.length = result.skipped ∧
    (∀ c ∈ front, stop c = false) ∧ (result.found = true → ∃ c ∈ back.head?, stop c = true)

section Passes

variable {stop : UInt8 → Bool} {buf : Bytes} {result : Found}

theorem Passes.start (buf : Bytes) : Passes stop buf ⟨0, false⟩ :=
  ⟨[], buf, rfl, rfl, List.forall_mem_nil _, fun h => by cases h⟩

theorem Passes.after {front : Bytes} (hfront : ∀ c ∈ front, stop c = false)
    (hpasses : Passes stop buf result) :
    Passes stop (front ++ buf) (result.after front.length) := by
  obtain ⟨skipped, back, rfl, hlength, hskipped, hfound⟩ := hpasses
  refine ⟨front ++ skipped, back, (List.append_assoc ..).symm, ?_, ?_, hfound⟩
  · rw [List.length_append, hlength, Found.after]
  · exact List.forall_mem_append.mpr ⟨hfront, hskipped⟩

/-- The block search passes over characters outside the ranges up to the first one inside. -/
theorem passes_findcharBlocks (ranges : List (UInt8 × UInt8)) (blocks : Nat) :
    ∀ buf : Bytes, 16 * blocks ≤ buf.length →
      Passes (inRanges ranges) buf (findcharBlocks ranges blocks buf) := by
  induction blocks with
  | zero =>
      intro buf _
      exact .start buf
  | succ blocks ih =>
      intro buf hlength
      have hblock : (buf.take 16).length = 16 := by
        rw [List.length_take]
        omega
      rw [findcharBlocks]
      split
      case isTrue hfound =>
        have hlt : cmpestri ranges (buf.take 16) < (buf.take 16).length := by
          have hle : cmpestri ranges (buf.take 16) ≤ (buf.take 16).length := List.findIdx_le_length
          omega
        have hsplit := List.take_append_drop (cmpestri ranges (buf.take 16)) buf
        refine ⟨_, _, hsplit.symm, ?_, ?_, fun _ => ?_⟩
        case refine_1 =>
          rw [List.length_take]
          exact Nat.min_eq_left (by omega)
        case refine_2 =>
          intro c hc
          obtain ⟨i, hi, rfl⟩ := List.mem_take_iff_getElem.mp hc
          have hi' : i < cmpestri ranges (buf.take 16) := by omega
          have hnot := List.not_of_lt_findIdx hi'
          rw [List.getElem_take] at hnot
          exact hnot
        case refine_3 =>
          have hstop : inRanges ranges (buf.take 16)[cmpestri ranges (buf.take 16)] = true :=
            List.findIdx_getElem
          rw [List.getElem_take] at hstop
          refine ⟨_, ?_, hstop⟩
          rw [List.head?_drop]
          exact List.getElem?_eq_getElem _
      case isFalse hnone =>
        rw [not_not] at hnone
        have hall : ∀ c ∈ buf.take 16, inRanges ranges c = false := by
          apply List.findIdx_eq_length.mp
          rw [hblock]
          exact hnone
        have hrest : 16 * blocks ≤ (buf.drop 16).length := by
          rw [List.length_drop]
          omega
        have hpasses := (ih (buf.drop 16) hrest).after hall
        rw [List.take_append_drop, hblock] at hpasses
        exact hpasses

theorem passes_findcharFast (ranges : List (UInt8 × UInt8)) (buf : Bytes) :
    Passes (inRanges ranges) buf (findcharFast ranges buf) :=
  passes_findcharBlocks ranges _ buf (Nat.mul_div_le buf.length 16)

/-- What can be checked for every byte. -/
theorem forall_byte {p : UInt8 → Prop} (hall : ∀ n < 256, p (UInt8.ofNat n)) (c : UInt8) : p c := by
  have hcase := hall c.toNat c.toNat_lt
  rw [UInt8.ofNat_toNat] at hcase
  exact hcase

theorem isCtl_of_isPrintableAscii (c : UInt8) : isPrintableAscii c = true → isCtl c = false := by
  revert c
  apply forall_byte
  decide +kernel

/-- The unrolled loop passes over characters of a value up to the first one that ends it. -/
theorem passes_doIt (buf : Bytes) : ∀ left, Passes isCtl buf (doIt left buf) := by
  induction buf with
  | nil =>
      intro left
      exact .start []
  | cons c buf ih =>
      intro left
      rw [doIt]
      split
      case isTrue => exact .start _
      case isFalse =>
        split
        case isTrue hprint =>
          have hc : ∀ x ∈ [c], isCtl x = false :=
            List.forall_mem_singleton.mpr (isCtl_of_isPrintableAscii c hprint)
          exact (ih _).after hc
        case isFalse =>
          split
          case isTrue hctl => exact ⟨[], c :: buf, rfl, rfl, by simp, fun _ => ⟨c, rfl, hctl⟩⟩
          case isFalse hctl =>
            have hc : ∀ x ∈ [c], isCtl x = false :=
              List.forall_mem_singleton.mpr (Bool.eq_false_iff.mpr hctl)
            exact (ih 0).after hc

end Passes

section Readers

variable {find : Bytes → Found} {stop : UInt8 → Bool} {numHeaders : Nat}

theorem search_of_passes {front back : Bytes} {found : Bool} (pos : Nat)
    (hfind : find (front ++ back) = ⟨front.length, found⟩) :
    search find ⟨pos, front ++ back⟩ = .done (front, found) ⟨pos + front.length, back⟩ := by
  rw [search, hfind]
  simp

theorem Passes.exists_eq {rest : Bytes} {result : Found} (hpasses : Passes stop rest result) :
    ∃ front back, rest = front ++ back ∧ result = ⟨front.length, result.found⟩ ∧
      (∀ c ∈ front, stop c = false) ∧
        (result.found = true → ∃ c back', back = c :: back' ∧ stop c = true) := by
  obtain ⟨front, back, hsplit, hlength, hfront, hfound⟩ := hpasses
  refine ⟨front, back, hsplit, by rw [hlength], hfront, fun htrue => ?_⟩
  obtain ⟨c, hc, hstop⟩ := hfound htrue
  obtain ⟨back', rfl⟩ := List.head?_eq_some_iff.mp hc
  exact ⟨c, back', rfl, hstop⟩

theorem checkEof_cons (found : Bool) (numHeaders pos : Nat) (c : UInt8) (rest : Bytes) :
    checkEof found numHeaders ⟨pos, c :: rest⟩ = .done () ⟨pos, c :: rest⟩ := by
  cases found with
  | true => rfl
  | false =>
      have henough : ¬ (c :: rest).length < 1 := Nat.not_lt.mpr (Nat.le_add_left 1 rest.length)
      rw [checkEof, Bool.not_false, if_pos rfl, Parser.require, if_neg henough]

/-- A token that is searched for first is the token that the loop alone finds, if the search
passes only over characters that the loop accepts. -/
theorem scanTokenAfter_eq {stop' bad : UInt8 → Bool}
    (hfind : ∀ buf, Passes stop buf (find buf))
    (hgood : ∀ c, stop c = false → stop' c = false ∧ bad c = false) :
    scanTokenAfter find numHeaders stop' bad = scanToken numHeaders stop' bad := by
  funext ⟨pos, rest⟩
  obtain ⟨front, back, rfl, hresult, hfront, -⟩ := (hfind rest).exists_eq
  have hsearch := search_of_passes pos hresult
  have hscan := Parser.scanFrom_skip numHeaders (fun c hc => hgood c (hfront c hc)) back pos
  have hposition : (Parser.position : PhrParser Nat) ⟨pos, front ++ back⟩
      = .done pos ⟨pos, front ++ back⟩ := rfl
  rw [scanTokenAfter, scanToken, Parser.bind_of_done hposition, Parser.bind_of_done hposition,
    Parser.bind_of_done hsearch]
  cases back with
  | nil =>
      change _ = Parser.bind _ _ _
      rw [Parser.bind, Parser.scan, hscan]
      cases (find (front ++ [])).found <;> rfl
  | cons c back =>
      rw [Parser.bind_of_done (checkEof_cons _ numHeaders _ c back)]
      change Parser.bind _ _ _ = Parser.bind _ _ _
      rw [Parser.bind, Parser.bind, Parser.scan, Parser.scan, hscan]
      cases Parser.scanFrom numHeaders stop' bad (pos + front.length) (c :: back) <;> rfl

/-- `get_token_to_eol` finds the end of the line from where a search came. -/
theorem getTokenToEolAfter_eq (hfind : ∀ buf, Passes isCtl buf (find buf)) :
    getTokenToEolAfter find numHeaders = getTokenToEol numHeaders := by
  funext ⟨pos, rest⟩
  obtain ⟨front, back, rfl, hresult, hfront, hfound⟩ := (hfind rest).exists_eq
  have hsearch := search_of_passes pos hresult
  have hgood : ∀ c ∈ front, isCtl c = false ∧ false = false := fun c hc => ⟨hfront c hc, rfl⟩
  have hscan := Parser.scanFrom_skip numHeaders hgood back pos
  have hposition : (Parser.position : PhrParser Nat) ⟨pos, front ++ back⟩
      = .done pos ⟨pos, front ++ back⟩ := rfl
  have hbytes : scanToCtl (find (front ++ back)).found numHeaders ⟨pos + front.length, back⟩
      = Parser.scanFrom numHeaders isCtl (fun _ => false) (pos + front.length) back := by
    rw [scanToCtl]
    split
    case isTrue htrue =>
      obtain ⟨c, back', rfl, hc⟩ := hfound htrue
      rw [Parser.scanFrom, if_pos hc]
      rfl
    case isFalse => rfl
  rw [getTokenToEolAfter, Parser.bind_of_done hposition, Parser.bind_of_done hsearch,
    getTokenToEol, scanToken]
  change Parser.bind _ _ _ = Parser.bind (Parser.bind _ (fun offset => Parser.bind _ _)) _ _
  rw [Parser.bind, hbytes]
  simp only [Parser.bind, hposition, Parser.scan, hscan]
  cases Parser.scanFrom numHeaders isCtl (fun _ => false) (pos + front.length) back <;> rfl

end Readers

section Builds

theorem of_not_tokenRanges (c : UInt8) : inRanges tokenRanges c = false →
    ((c == SP) = false ∧ (!isTokenChar c) = false) ∧
      ((c == 58) = false ∧ (!isTokenChar c) = false) := by
  revert c
  apply forall_byte
  decide +kernel

theorem of_not_targetRanges (c : UInt8) : inRanges targetRanges c = false →
    (c == SP) = false ∧ (decide (c < SP) || c == DEL) = false := by
  revert c
  apply forall_byte
  decide +kernel

theorem inRanges_eolRanges : inRanges eolRanges = isCtl := by
  apply funext
  apply forall_byte
  decide +kernel

/-- The readers without any search. -/
def plainReaders : TokenReaders where
  parseMethod numHeaders := Http.parseToken numHeaders SP
  parseName numHeaders := Http.parseToken numHeaders 58
  advanceToken := Http.advanceToken
  getTokenToEol := Http.getTokenToEol

theorem sse42_eq : sse42 = plainReaders := by
  have heol : ∀ buf, Passes isCtl buf (findcharFast eolRanges buf) := by
    intro buf
    have hpasses := passes_findcharFast eolRanges buf
    rw [inRanges_eolRanges] at hpasses
    exact hpasses
  rw [sse42, plainReaders]
  congr 1
  · funext numHeaders
    exact scanTokenAfter_eq (passes_findcharFast tokenRanges)
      fun c hc => (of_not_tokenRanges c hc).1
  · funext numHeaders
    exact scanTokenAfter_eq (passes_findcharFast tokenRanges)
      fun c hc => (of_not_tokenRanges c hc).2
  · funext numHeaders
    exact scanTokenAfter_eq (passes_findcharFast targetRanges) of_not_targetRanges
  · funext numHeaders
    exact getTokenToEolAfter_eq heol

theorem unrolled_eq : unrolled = plainReaders := by
  have hnone : ∀ buf, Passes (fun _ => true) buf ⟨0, false⟩ := Passes.start
  rw [unrolled, plainReaders]
  congr 1
  · funext numHeaders
    exact scanTokenAfter_eq hnone fun c hc => by cases hc
  · funext numHeaders
    exact scanTokenAfter_eq hnone fun c hc => by cases hc
  · funext numHeaders
    exact scanTokenAfter_eq hnone fun c hc => by cases hc
  · funext numHeaders
    exact getTokenToEolAfter_eq fun buf => passes_doIt buf 0

theorem plainReaders_parseHeaders (room : Nat) :
    ∀ numHeaders, plainReaders.parseHeaders room numHeaders = parseHeaders room numHeaders := by
  induction room with
  | zero =>
      intro numHeaders
      rfl
  | succ room ih =>
      intro numHeaders
      rw [TokenReaders.parseHeaders, parseHeaders]
      simp only [ih]
      rfl

theorem plainReaders_parseRequest (maxHeaders : Nat) :
    plainReaders.parseRequest maxHeaders = parseRequest maxHeaders := by
  rw [TokenReaders.parseRequest, plainReaders_parseHeaders]
  rfl

theorem plainReaders_parseResponse (maxHeaders : Nat) :
    plainReaders.parseResponse maxHeaders = parseResponse maxHeaders := by
  have hreason : plainReaders.parseReason maxHeaders = parseReason maxHeaders := by
    funext minorVersion status
    rw [TokenReaders.parseReason, plainReaders_parseHeaders]
    rfl
  rw [TokenReaders.parseResponse, hreason]
  rfl

/-- The two ways to build `picohttpparser.c`. -/
inductive Build
  | sse42
  | unrolled

def Build.readers : Build → TokenReaders
  | .sse42 => Http.sse42
  | .unrolled => Http.unrolled

/-- `phr_parse_request` as it is built, with `last_len` 0. -/
def Build.phrParseRequest (build : Build) (buf : Bytes) (maxHeaders : Nat) :
    Outcome UInt8 Nat PhrRequest :=
  (build.readers.parseRequest maxHeaders).parse buf

/-- `phr_parse_response` as it is built, with `last_len` 0. -/
def Build.phrParseResponse (build : Build) (buf : Bytes) (maxHeaders : Nat) :
    Outcome UInt8 PhrResponseNote PhrResponse :=
  (build.readers.parseResponse maxHeaders).parse buf

/-- Every build says the same of every text: the same parts, the same number of characters, the
same error. -/
theorem Build.phrParse_eq (build : Build) (buf : Bytes) (maxHeaders : Nat) :
    build.phrParseRequest buf maxHeaders = Http.phrParseRequest buf maxHeaders ∧
      build.phrParseResponse buf maxHeaders = Http.phrParseResponse buf maxHeaders := by
  have hreaders : build.readers = plainReaders := by
    cases build with
    | sse42 => exact sse42_eq
    | unrolled => exact unrolled_eq
  constructor
  · rw [Build.phrParseRequest, hreaders, plainReaders_parseRequest, Http.phrParseRequest]
  · rw [Build.phrParseResponse, hreaders, plainReaders_parseResponse, Http.phrParseResponse]

end Builds

end GameDemoLearn.Net.Http
