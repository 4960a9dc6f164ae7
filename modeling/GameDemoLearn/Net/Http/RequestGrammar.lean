import GameDemoLearn.Net.Http.HeaderReading

/-!
The texts that `phr_parse_request` takes for requests. The grammar is stated on its own: a
request line between runs of spaces, and a block of header lines up to an empty one. The parser
is done exactly on the texts that begin with such a request, and hands out its parts.
-/

namespace GameDemoLearn.Net.Http

open Incremental

/-- Header lines up to the empty one, behind `numHeaders` others, and the names and values
that they say. A line that starts with a blank goes on with the header before it. -/
inductive HeaderBlock : Nat → List (Bytes × Bytes) → Bytes → Prop
  | last {numHeaders : Nat} {eol : Bytes} (heol : IsLineEnd eol) : HeaderBlock numHeaders [] eol
  | field {numHeaders : Nat} {name blanks value eol rest : Bytes} {headers : List (Bytes × Bytes)}
      (hname : name ≠ []) (htoken : ∀ c ∈ name, isTokenChar c = true)
      (hblanks : ∀ c ∈ blanks, isBlank c = true) (hvalue : NoCtl value)
      (hstart : ∀ c ∈ value.head?, isBlank c = false) (heol : IsLineEnd eol)
      (hrest : HeaderBlock (numHeaders + 1) headers rest) :
      HeaderBlock numHeaders ((name, value.rdropWhile isBlank) :: headers)
        (name ++ 58 :: (blanks ++ (value ++ (eol ++ rest))))
  | folded {numHeaders : Nat} {c : UInt8} {value eol rest : Bytes}
      {headers : List (Bytes × Bytes)} (hsome : numHeaders ≠ 0) (hc : isBlank c = true)
      (hvalue : NoCtl (c :: value)) (heol : IsLineEnd eol)
      (hrest : HeaderBlock (numHeaders + 1) headers rest) :
      HeaderBlock numHeaders (([], (c :: value).rdropWhile isBlank) :: headers)
        ((c :: value) ++ (eol ++ rest))

/-- A header as its two texts. -/
def PhrHeader.texts (header : PhrHeader) : Bytes × Bytes := (header.name.bytes, header.value.bytes)

/-- The texts that a request says. -/
structure RequestTexts where
  method : Bytes
  path : Bytes
  minorVersion : Int
  headers : List (Bytes × Bytes)

def PhrRequest.texts (request : PhrRequest) : RequestTexts :=
  ⟨request.method.bytes, request.path.bytes, request.minorVersion,
    request.headers.map PhrHeader.texts⟩

/-- A character of a request target. -/
def isTargetChar (c : UInt8) : Bool := !(c == SP) && !(decide (c < SP) || c == DEL)

/-- A run of spaces. -/
def IsSpaces (text : Bytes) : Prop := text ≠ [] ∧ ∀ c ∈ text, c = SP

def versionText (digit : Nat) : Bytes := Bytes.ofString "HTTP/1." ++ [UInt8.ofNat (48 + digit)]

/-- A request with at most `maxHeaders` header lines. -/
inductive IsRequest (maxHeaders : Nat) : RequestTexts → Bytes → Prop
  | intro (lead method spaces path spaces' : Bytes) (digit : Nat) (eol block : Bytes)
      (headers : List (Bytes × Bytes)) (hlead : lead = [] ∨ IsLineEnd lead) (hmethod : method ≠ [])
      (htoken : ∀ c ∈ method, isTokenChar c = true) (hspaces : IsSpaces spaces)
      (hpath : path ≠ []) (htarget : ∀ c ∈ path, isTargetChar c = true)
      (hspaces' : IsSpaces spaces') (hdigit : digit < 10) (heol : IsLineEnd eol)
      (hblock : HeaderBlock 0 headers block) (hroom : headers.length ≤ maxHeaders) :
      IsRequest maxHeaders ⟨method, path, digit, headers⟩
        (lead ++ (method ++ (spaces ++ (path ++ (spaces' ++
          (versionText digit ++ (eol ++ block)))))))

section Block

variable {room numHeaders pos : Nat} {rest : Bytes}

theorem parseHeaders_lineEnd {c : UInt8} (hc : c = CR ∨ c = LF) :
    parseHeaders room numHeaders ⟨pos, c :: rest⟩ =
      (lineEnd numHeaders >>= fun _ => pure []) ⟨pos, c :: rest⟩ := by
  have hpeek : Parser.peek numHeaders ⟨pos, c :: rest⟩ = .done c ⟨pos, c :: rest⟩ := rfl
  have hstop : (decide (c = CR) || decide (c = LF)) = true := by simpa using hc
  cases room with
  | zero => rw [parseHeaders, Parser.bind_of_done hpeek, if_pos hstop]
  | succ room => rw [parseHeaders, Parser.bind_of_done hpeek, if_pos hstop]

theorem parseHeaders_line {c : UInt8} (hc : ¬ (c = CR ∨ c = LF)) :
    parseHeaders (room + 1) numHeaders ⟨pos, c :: rest⟩ =
      (parseHeaderLine numHeaders >>= fun header =>
        parseHeaders room (numHeaders + 1) >>= fun headers => pure (header :: headers))
          ⟨pos, c :: rest⟩ := by
  have hpeek : Parser.peek numHeaders ⟨pos, c :: rest⟩ = .done c ⟨pos, c :: rest⟩ := rfl
  have hgo : ¬ (decide (c = CR) || decide (c = LF)) = true := by simpa using hc
  rw [parseHeaders, Parser.bind_of_done hpeek, if_neg hgo]

theorem parseLineName_folded {c : UInt8} (hc : isBlank c = true) (hsome : numHeaders ≠ 0) :
    parseLineName numHeaders ⟨pos, c :: rest⟩ = .done .null ⟨pos, c :: rest⟩ := by
  have hpeek : Parser.peek numHeaders ⟨pos, c :: rest⟩ = .done c ⟨pos, c :: rest⟩ := rfl
  rw [parseLineName, Parser.bind_of_done hpeek, hc, bne_iff_ne.mpr hsome]
  rfl

theorem parseLineName_field {c : UInt8} (hc : isBlank c = false ∨ numHeaders = 0) :
    parseLineName numHeaders ⟨pos, c :: rest⟩ = parseHeaderName numHeaders ⟨pos, c :: rest⟩ := by
  have hpeek : Parser.peek numHeaders ⟨pos, c :: rest⟩ = .done c ⟨pos, c :: rest⟩ := rfl
  have hname : (!(numHeaders != 0 && isBlank c)) = true := by
    rcases hc with hblank | rfl
    · rw [hblank, Bool.and_false]
      rfl
    · rfl
  rw [parseLineName, Parser.bind_of_done hpeek, if_pos hname]

/-- A line that is read, and the lines behind it. -/
theorem parseHeaders_cons {c : UInt8} (hc : isCtl c = false) {header : PhrHeader}
    {found : List PhrHeader} {next last : Cursor UInt8}
    (hline : parseHeaderLine numHeaders ⟨pos, c :: rest⟩ = .done header next)
    (hfound : parseHeaders room (numHeaders + 1) next = .done found last) :
    parseHeaders (room + 1) numHeaders ⟨pos, c :: rest⟩ = .done (header :: found) last := by
  rw [parseHeaders_line (not_lineEnd_of_isCtl hc), Parser.bind_of_done hline,
    Parser.bind_of_done hfound]
  rfl

theorem IsLineEnd.ne_nil {eol : Bytes} (heol : IsLineEnd eol) : eol ≠ [] := by
  obtain ⟨y, eol, rfl, -⟩ := heol.exists_cons
  exact List.cons_ne_nil y eol

/-- The value or the end of its line is the next character that is no blank. -/
theorem exists_not_blank {value eol : Bytes} (hstart : ∀ c ∈ value.head?, isBlank c = false)
    (heol : IsLineEnd eol) (rest : Bytes) :
    ∃ x tail, value ++ (eol ++ rest) = x :: tail ∧ isBlank x = false := by
  cases value with
  | nil =>
      obtain ⟨x, eol', rfl, hx⟩ := heol.exists_cons
      exact ⟨x, eol' ++ rest, rfl, by rcases hx with rfl | rfl <;> rfl⟩
  | cons x value => exact ⟨x, _, rfl, hstart x rfl⟩

theorem parseHeaderLine_field {name blanks value eol : Bytes} (hname : name ≠ [])
    (htoken : ∀ c ∈ name, isTokenChar c = true) (hblanks : ∀ c ∈ blanks, isBlank c = true)
    (hvalue : NoCtl value) (hstart : ∀ c ∈ value.head?, isBlank c = false)
    (heol : IsLineEnd eol) (numHeaders pos : Nat) (rest : Bytes) :
    parseHeaderLine numHeaders ⟨pos, name ++ 58 :: (blanks ++ (value ++ (eol ++ rest)))⟩
      = .done ⟨⟨pos, name⟩, ⟨pos + name.length + 1 + blanks.length, value.rdropWhile isBlank⟩⟩
        ⟨pos + name.length + 1 + blanks.length + value.length + eol.length, rest⟩ := by
  obtain ⟨x, tail, htail, hx⟩ := exists_not_blank hstart heol rest
  have hread := parseHeaderName_append hname htoken hblanks hx numHeaders pos tail
  rw [← htail] at hread
  obtain ⟨c, name', rfl⟩ := List.exists_cons_of_ne_nil hname
  obtain ⟨hblank, -⟩ := isTokenChar_start (htoken c List.mem_cons_self)
  have hfield : parseLineName numHeaders
      ⟨pos, (c :: name') ++ 58 :: (blanks ++ (value ++ (eol ++ rest)))⟩ = _ :=
    (parseLineName_field (.inl hblank)).trans hread
  rw [parseHeaderLine, Parser.bind_of_done hfield,
    Parser.bind_of_done (getTokenToEol_append hvalue heol numHeaders _ _)]
  rfl

theorem parseHeaderLine_folded {c : UInt8} {value eol : Bytes} (hsome : numHeaders ≠ 0)
    (hc : isBlank c = true) (hvalue : NoCtl (c :: value)) (heol : IsLineEnd eol) (pos : Nat)
    (rest : Bytes) :
    parseHeaderLine numHeaders ⟨pos, (c :: value) ++ (eol ++ rest)⟩
      = .done ⟨.null, ⟨pos, (c :: value).rdropWhile isBlank⟩⟩
        ⟨pos + (c :: value).length + eol.length, rest⟩ := by
  have hname : parseLineName numHeaders ⟨pos, (c :: value) ++ (eol ++ rest)⟩
      = .done .null ⟨pos, (c :: value) ++ (eol ++ rest)⟩ := parseLineName_folded hc hsome
  rw [parseHeaderLine, Parser.bind_of_done hname,
    Parser.bind_of_done (getTokenToEol_append hvalue heol numHeaders _ _)]
  rfl

/-- A block of header lines is read to its end, and nothing behind it. -/
theorem parseHeaders_of_block {headers : List (Bytes × Bytes)} {text : Bytes}
    (hblock : HeaderBlock numHeaders headers text) (rest : Bytes) :
    ∀ room pos, headers.length ≤ room → ∃ found,
      parseHeaders room numHeaders ⟨pos, text ++ rest⟩
        = .done found ⟨pos + text.length, rest⟩ ∧ found.map PhrHeader.texts = headers := by
  induction hblock with
  | @last numHeaders eol heol =>
      intro room pos _
      have hread := lineEnd_append heol numHeaders pos rest
      obtain ⟨c, eol', rfl, hc⟩ := heol.exists_cons
      refine ⟨[], ?_, rfl⟩
      rw [List.cons_append] at hread ⊢
      rw [parseHeaders_lineEnd hc, Parser.bind_of_done hread]
      rfl
  | @field numHeaders name blanks value eol block headers hname htoken hblanks hvalue hstart heol
      _ ih =>
      intro room pos hroom
      obtain ⟨room, rfl⟩ := Nat.exists_eq_add_of_lt (Nat.lt_of_lt_of_le (Nat.succ_pos _) hroom)
      rw [Nat.zero_add] at hroom ⊢
      obtain ⟨found, hfound, htexts⟩ := ih room
        (pos + name.length + 1 + blanks.length + value.length + eol.length)
        (Nat.succ_le_succ_iff.mp hroom)
      refine ⟨⟨⟨pos, name⟩, ⟨pos + name.length + 1 + blanks.length,
        value.rdropWhile isBlank⟩⟩ :: found, ?_, congrArg (_ :: ·) htexts⟩
      have hline := parseHeaderLine_field hname htoken hblanks hvalue hstart heol numHeaders pos
        (block ++ rest)
      obtain ⟨c, name', rfl⟩ := List.exists_cons_of_ne_nil hname
      have hread := parseHeaders_cons (isTokenChar_start (htoken c List.mem_cons_self)).2 hline
        hfound
      simpa [Nat.add_assoc, Nat.add_comm, Nat.add_left_comm] using hread
  | @folded numHeaders c value eol block headers hsome hc hvalue heol _ ih =>
      intro room pos hroom
      obtain ⟨room, rfl⟩ := Nat.exists_eq_add_of_lt (Nat.lt_of_lt_of_le (Nat.succ_pos _) hroom)
      rw [Nat.zero_add] at hroom ⊢
      obtain ⟨found, hfound, htexts⟩ := ih room (pos + (c :: value).length + eol.length)
        (Nat.succ_le_succ_iff.mp hroom)
      refine ⟨⟨.null, ⟨pos, (c :: value).rdropWhile isBlank⟩⟩ :: found, ?_,
        congrArg (_ :: ·) htexts⟩
      have hread := parseHeaders_cons (isCtl_of_isBlank hc)
        (parseHeaderLine_folded hsome hc hvalue heol pos (block ++ rest)) hfound
      simpa [Nat.add_assoc, Nat.add_comm, Nat.add_left_comm] using hread

theorem peek_done {ε : Type} {note : ε} {c next : Cursor UInt8} {x : UInt8}
    (hdone : Parser.peek note c = .done x next) : c.rest.head? = some x ∧ next = c := by
  obtain ⟨pos, rest⟩ := c
  cases rest with
  | nil => cases hdone
  | cons y rest =>
      cases hdone
      exact ⟨rfl, rfl⟩

theorem getTokenToEol_bytes {c next : Cursor UInt8} {value : StringView}
    (hdone : getTokenToEol numHeaders c = .done value next) :
    ∃ eol, NoCtl value.bytes ∧ IsLineEnd eol ∧ c.rest = value.bytes ++ (eol ++ next.rest) := by
  obtain ⟨token, middle, hscan, hrest⟩ := Parser.bind_done hdone
  obtain ⟨_, last, heol, hvalue⟩ := Parser.bind_done hrest
  cases hvalue
  obtain ⟨hsplit, htoken, -⟩ := scanToken_done hscan
  obtain ⟨eol, hends, hmiddle⟩ := lineEnd_done heol
  exact ⟨eol, fun x hx => (htoken x hx).1, hends, by rw [hsplit, hmiddle]⟩

theorem parseHeaderName_bytes {c next : Cursor UInt8} {value : StringView}
    (hdone : parseHeaderName numHeaders c = .done value next) :
    ∃ blanks, value.bytes ≠ [] ∧ (∀ x ∈ value.bytes, isTokenChar x = true) ∧
      (∀ x ∈ blanks, isBlank x = true) ∧ c.rest = value.bytes ++ 58 :: (blanks ++ next.rest) ∧
        ∃ x, next.rest.head? = some x ∧ isBlank x = false := by
  obtain ⟨token, middle, hscan, hrest⟩ := Parser.bind_done hdone
  obtain ⟨hsplit, htoken, x, xs, hcolon, hx⟩ := scanToken_done hscan
  obtain rfl : x = 58 := beq_iff_eq.mp hx
  split at hrest
  case isTrue => cases hrest
  case isFalse hne =>
    obtain ⟨_, last, hnext, hskip⟩ := Parser.bind_done hrest
    obtain ⟨blanks, final, hblanks, hvalue⟩ := Parser.bind_done hskip
    cases hvalue
    obtain ⟨pos, rest⟩ := middle
    obtain rfl : rest = 58 :: xs := hcolon
    cases hnext
    refine ⟨blanks, hne, ?_, ?_, ?_, ?_⟩
    case refine_1 =>
      intro y hy
      simpa using (htoken y hy).2
    case refine_2 =>
      intro y hy
      simpa using (IsIncremental.scanFrom_taken _ _ _ _ _ _ _ hblanks y hy).1
    case refine_3 =>
      have hforward : xs = blanks ++ next.rest :=
        (IsIncremental.scanFrom_forward _ _ _ _ _ _ _ hblanks).1
      rw [hsplit, hforward]
    case refine_4 =>
      obtain ⟨y, ys, hstop, hy⟩ := IsIncremental.scanFrom_stop _ _ _ _ _ _ _ hblanks
      refine ⟨y, ?_, by simpa using hy⟩
      rw [hstop]
      rfl

/-- The front of a header line, up to its value, and what it becomes with the value and the lines
behind it. -/
theorem exists_lineFront {c next : Cursor UInt8} {name : StringView}
    (hdone : parseLineName numHeaders c = .done name next) :
    ∃ front x, c.rest = front ++ next.rest ∧ next.rest.head? = some x ∧
      ∀ {value eol rest : Bytes} {headers : List (Bytes × Bytes)},
        (value ++ eol).head? = some x → NoCtl value → IsLineEnd eol →
          HeaderBlock (numHeaders + 1) headers rest →
            HeaderBlock numHeaders ((name.bytes, value.rdropWhile isBlank) :: headers)
              (front ++ (value ++ (eol ++ rest))) := by
  obtain ⟨x, start, hpeek, hchosen⟩ := Parser.bind_done hdone
  obtain ⟨hhead, hsame⟩ := peek_done hpeek
  subst hsame
  split at hchosen
  case isTrue =>
    obtain ⟨blanks, hne, htoken, hblanks, hfront, y, hy, hstart⟩ := parseHeaderName_bytes hchosen
    refine ⟨name.bytes ++ 58 :: blanks, y, ?_, hy, ?_⟩
    case refine_1 =>
      rw [hfront]
      simp
    case refine_2 =>
      intro value eol rest headers hvalueHead hvalue heol hrest
      have hvalueStart : ∀ z ∈ value.head?, isBlank z = false := by
        intro z hz
        rw [List.head?_append, Option.mem_def.mp hz] at hvalueHead
        cases hvalueHead
        exact hstart
      have hblock := HeaderBlock.field hne htoken hblanks hvalue hvalueStart heol hrest
      simpa using hblock
  case isFalse hfold =>
    cases hchosen
    rw [Bool.not_eq_true, Bool.not_eq_false', Bool.and_eq_true, bne_iff_ne] at hfold
    refine ⟨[], x, rfl, hhead, ?_⟩
    intro value eol rest headers hvalueHead hvalue heol hrest
    cases value with
    | nil =>
        obtain ⟨z, eol', rfl, hz⟩ := heol.exists_cons
        cases hvalueHead
        rcases hz with rfl | rfl
        · cases hfold.2
        · cases hfold.2
    | cons z value =>
        cases hvalueHead
        exact .folded hfold.1 hfold.2 hvalue heol hrest

/-- A header line that is read goes before the lines behind it. -/
theorem exists_headerLine {c next : Cursor UInt8} {header : PhrHeader}
    (hdone : parseHeaderLine numHeaders c = .done header next) :
    ∃ line, c.rest = line ++ next.rest ∧
      ∀ {rest : Bytes} {headers : List (Bytes × Bytes)},
        HeaderBlock (numHeaders + 1) headers rest →
          HeaderBlock numHeaders (header.texts :: headers) (line ++ rest) := by
  obtain ⟨name, valueStart, hname, hvalueLine⟩ := Parser.bind_done hdone
  obtain ⟨value, valueNext, hvalue, hlast⟩ := Parser.bind_done hvalueLine
  cases hlast
  obtain ⟨front, x, hfront, hx, hblock⟩ := exists_lineFront hname
  obtain ⟨eol, hctl, heol, hsplit⟩ := getTokenToEol_bytes hvalue
  refine ⟨front ++ (value.bytes ++ eol), ?_, ?_⟩
  case refine_1 =>
    rw [hfront, hsplit]
    simp
  case refine_2 =>
    intro rest headers hrest
    have hne : value.bytes ++ eol ≠ [] := List.append_ne_nil_of_right_ne_nil _ heol.ne_nil
    have hhead : (value.bytes ++ eol).head? = some x := by
      rw [← hx, hsplit, ← List.append_assoc, List.head?_append_of_ne_nil _ hne]
    have hlines := hblock hhead hctl heol hrest
    rw [List.append_assoc, List.append_assoc]
    exact hlines

/-- What is read as a block of header lines is one. -/
theorem block_of_parseHeaders (room : Nat) :
    ∀ numHeaders (c next : Cursor UInt8) found,
      parseHeaders room numHeaders c = .done found next →
        ∃ text, c.rest = text ++ next.rest ∧
          HeaderBlock numHeaders (found.map PhrHeader.texts) text ∧ found.length ≤ room := by
  induction room with
  | zero =>
      intro numHeaders c next found hdone
      obtain ⟨x, middle, hpeek, hrest⟩ := Parser.bind_done hdone
      split at hrest
      case isTrue =>
        obtain ⟨_, last, hline, hnil⟩ := Parser.bind_done hrest
        cases hnil
        obtain ⟨eol, heol, hsplit⟩ := lineEnd_done hline
        obtain ⟨-, hsame⟩ := peek_done hpeek
        rw [hsame] at hsplit
        exact ⟨eol, hsplit, .last heol, Nat.le_refl 0⟩
      case isFalse => cases hrest
  | succ room ih =>
      intro numHeaders c next found hdone
      obtain ⟨x, middle, hpeek, hrest⟩ := Parser.bind_done hdone
      obtain ⟨-, hsame⟩ := peek_done hpeek
      subst hsame
      split at hrest
      case isTrue =>
        obtain ⟨_, last, hline, hnil⟩ := Parser.bind_done hrest
        cases hnil
        obtain ⟨eol, heol, hsplit⟩ := lineEnd_done hline
        exact ⟨eol, hsplit, .last heol, Nat.zero_le _⟩
      case isFalse =>
        obtain ⟨header, lineNext, hheader, hmore⟩ := Parser.bind_done hrest
        obtain ⟨others, last, hothers, hpure⟩ := Parser.bind_done hmore
        cases hpure
        obtain ⟨text, htext, hblock, hlength⟩ := ih _ _ _ _ hothers
        obtain ⟨line, hline, hlines⟩ := exists_headerLine hheader
        refine ⟨line ++ text, ?_, hlines hblock, Nat.succ_le_succ hlength⟩
        rw [hline, htext, List.append_assoc]

end Block

section Line

variable {numHeaders pos : Nat} {rest : Bytes}

theorem scanToken_append {stop bad : UInt8 → Bool} {taken : Bytes} {x : UInt8}
    (htaken : ∀ y ∈ taken, stop y = false ∧ bad y = false) (hx : stop x = true) (rest : Bytes) :
    scanToken numHeaders stop bad ⟨pos, taken ++ x :: rest⟩
      = .done ⟨pos, taken⟩ ⟨pos + taken.length, x :: rest⟩ := by
  have hposition : (Parser.position : PhrParser Nat) ⟨pos, taken ++ x :: rest⟩
      = .done pos ⟨pos, taken ++ x :: rest⟩ := rfl
  have hscan := Parser.scan_append numHeaders htaken hx rest pos
  rw [scanToken, Parser.bind_of_done hposition, Parser.bind_of_done hscan]
  rfl

theorem skipSpaces_append {spaces : Bytes} (hspaces : IsSpaces spaces) {x : UInt8} (hx : x ≠ SP) :
    skipSpaces numHeaders ⟨pos, spaces ++ x :: rest⟩
      = .done () ⟨pos + spaces.length, x :: rest⟩ := by
  obtain ⟨c, spaces, rfl⟩ := List.exists_cons_of_ne_nil hspaces.1
  have hall := (List.forall_mem_cons.mp hspaces.2).2
  have hnext : Parser.next numHeaders ⟨pos, c :: (spaces ++ x :: rest)⟩
      = .done c ⟨pos + 1, spaces ++ x :: rest⟩ := rfl
  have hpass : ∀ y ∈ spaces, (y != SP) = false ∧ false = false := by
    intro y hy
    rw [hall y hy]
    exact ⟨rfl, rfl⟩
  have hscan := Parser.scan_append numHeaders hpass (bne_iff_ne.mpr hx) rest (pos + 1)
  rw [skipSpaces, List.cons_append, Parser.bind_of_done hnext, Parser.bind_of_done hscan]
  change Outcome.done _ _ = _
  congr 2
  simp
  omega

theorem skipSpaces_done {c next : Cursor UInt8} {value : Unit} {x : UInt8} {xs : Bytes}
    (hc : c.rest = x :: xs) (hx : x = SP)
    (hdone : skipSpaces numHeaders c = .done value next) :
    ∃ spaces, IsSpaces spaces ∧ c.rest = spaces ++ next.rest ∧ ∀ y ∈ next.rest.head?, y ≠ SP := by
  obtain ⟨pos, rest⟩ := c
  obtain rfl : rest = x :: xs := hc
  obtain ⟨_, middle, hnext, hrest⟩ := Parser.bind_done hdone
  cases hnext
  obtain ⟨spaces, last, hscan, hvalue⟩ := Parser.bind_done hrest
  cases hvalue
  have hforward : xs = spaces ++ next.rest := (IsIncremental.scanFrom_forward _ _ _ _ _ _ _ hscan).1
  refine ⟨x :: spaces, ⟨List.cons_ne_nil x spaces, ?_⟩, congrArg (x :: ·) hforward, ?_⟩
  case refine_1 =>
    rw [List.forall_mem_cons]
    refine ⟨hx, fun y hy => ?_⟩
    simpa using (IsIncremental.scanFrom_taken _ _ _ _ _ _ _ hscan y hy).1
  case refine_2 =>
    obtain ⟨y, ys, hstop, hy⟩ := IsIncremental.scanFrom_stop _ _ _ _ _ _ _ hscan
    intro z hz
    rw [hstop] at hz
    cases hz
    simpa using hy

theorem expectChar_done {ch : UInt8} {c next : Cursor UInt8} {value : Unit}
    (hdone : expectChar numHeaders ch c = .done value next) : c.rest = ch :: next.rest := by
  obtain ⟨x, middle, hnext, hrest⟩ := Parser.bind_done hdone
  obtain ⟨pos, rest⟩ := c
  cases rest with
  | nil => cases hnext
  | cons y rest =>
      cases hnext
      split at hrest
      case isTrue hx =>
        cases hrest
        exact congrArg (· :: rest) hx
      case isFalse => cases hrest

theorem digit_eq {c : UInt8} (hlow : ¬ c < 48) (hhigh : ¬ 57 < c) :
    c.toNat - 48 < 10 ∧ c = UInt8.ofNat (48 + (c.toNat - 48)) := by
  have hle : 48 ≤ c.toNat := Nat.le_of_not_lt hlow
  have hge : c.toNat ≤ 57 := Nat.le_of_not_lt hhigh
  refine ⟨by omega, ?_⟩
  rw [Nat.add_sub_cancel' hle, UInt8.ofNat_toNat]

theorem parseHttpVersion_append {digit : Nat} (hdigit : digit < 10) (hrest : rest ≠ []) :
    parseHttpVersion numHeaders ⟨pos, versionText digit ++ rest⟩
      = .done (digit : Int) ⟨pos + 8, rest⟩ := by
  have hlength : 0 < rest.length := List.length_pos_of_ne_nil hrest
  have htext : versionText digit ++ rest
      = 72 :: 84 :: 84 :: 80 :: 47 :: 49 :: 46 :: UInt8.ofNat (48 + digit) :: rest := rfl
  have henough : Parser.require numHeaders 9 ⟨pos, versionText digit ++ rest⟩
      = .done () ⟨pos, versionText digit ++ rest⟩ := by
    apply if_neg
    rw [htext]
    simp
    omega
  rw [parseHttpVersion, Parser.bind_of_done henough, htext]
  iterate 7 rw [Parser.bind_of_done (expectChar_cons numHeaders _ _ _)]
  have hlast : Parser.next numHeaders ⟨pos + 1 + 1 + 1 + 1 + 1 + 1 + 1,
      UInt8.ofNat (48 + digit) :: rest⟩ = .done (UInt8.ofNat (48 + digit)) ⟨pos + 8, rest⟩ := rfl
  rw [Parser.bind_of_done hlast]
  interval_cases digit <;> rfl

theorem parseHttpVersion_done {c next : Cursor UInt8} {value : Int}
    (hdone : parseHttpVersion numHeaders c = .done value next) :
    ∃ digit : Nat, digit < 10 ∧ value = digit ∧ c.rest = versionText digit ++ next.rest := by
  obtain ⟨_, c0, hrequire, h0⟩ := Parser.bind_done hdone
  obtain ⟨_, c1, hc1, h1⟩ := Parser.bind_done h0
  obtain ⟨_, c2, hc2, h2⟩ := Parser.bind_done h1
  obtain ⟨_, c3, hc3, h3⟩ := Parser.bind_done h2
  obtain ⟨_, c4, hc4, h4⟩ := Parser.bind_done h3
  obtain ⟨_, c5, hc5, h5⟩ := Parser.bind_done h4
  obtain ⟨_, c6, hc6, h6⟩ := Parser.bind_done h5
  obtain ⟨_, c7, hc7, h7⟩ := Parser.bind_done h6
  obtain ⟨x, c8, hnext, hlast⟩ := Parser.bind_done h7
  have hsame : c0 = c := by
    unfold Parser.require at hrequire
    split at hrequire
    · cases hrequire
    · cases hrequire
      rfl
  subst hsame
  obtain ⟨pos, rest⟩ := c7
  cases rest with
  | nil => cases hnext
  | cons y rest =>
      cases hnext
      split at hlast
      case isTrue => cases hlast
      case isFalse hdigit =>
        cases hlast
        rw [Bool.or_eq_true, decide_eq_true_eq, decide_eq_true_eq, not_or] at hdigit
        obtain ⟨hlt, heq⟩ := digit_eq hdigit.1 hdigit.2
        refine ⟨x.toNat - 48, hlt, rfl, ?_⟩
        rw [expectChar_done hc1, expectChar_done hc2, expectChar_done hc3, expectChar_done hc4,
          expectChar_done hc5, expectChar_done hc6, expectChar_done hc7]
        change _ =
          72 :: 84 :: 84 :: 80 :: 47 :: 49 :: 46 :: UInt8.ofNat (48 + (x.toNat - 48)) :: rest
        rw [← heq]

end Line

section Request

variable {maxHeaders : Nat} {texts : RequestTexts} {text rest : Bytes}

theorem skipEmptyLine_append {lead : Bytes} (hlead : lead = [] ∨ IsLineEnd lead) {x : UInt8}
    (hx : isCtl x = false) (rest : Bytes) :
    skipEmptyLine ⟨0, lead ++ x :: rest⟩ = .done () ⟨lead.length, x :: rest⟩ := by
  rcases hlead with rfl | heol
  case inl =>
    have hpeek : Parser.peek 0 ⟨0, x :: rest⟩ = .done x ⟨0, x :: rest⟩ := rfl
    have hgo : ¬ (decide (x = CR) || decide (x = LF)) = true := by
      simpa using not_lineEnd_of_isCtl hx
    rw [List.nil_append, skipEmptyLine, Parser.bind_of_done hpeek, if_neg hgo]
    rfl
  case inr =>
    have hread := lineEnd_append heol 0 0 (x :: rest)
    obtain ⟨c, eol, rfl, hc⟩ := heol.exists_cons
    rw [List.cons_append] at hread ⊢
    have hpeek : Parser.peek 0 ⟨0, c :: (eol ++ x :: rest)⟩
        = .done c ⟨0, c :: (eol ++ x :: rest)⟩ := rfl
    have hstop : (decide (c = CR) || decide (c = LF)) = true := by simpa using hc
    rw [skipEmptyLine, Parser.bind_of_done hpeek, if_pos hstop, hread, Nat.zero_add]

theorem skipEmptyLine_done {c next : Cursor UInt8} {value : Unit}
    (hdone : skipEmptyLine c = .done value next) :
    ∃ lead, (lead = [] ∨ IsLineEnd lead) ∧ c.rest = lead ++ next.rest := by
  obtain ⟨x, middle, hpeek, hrest⟩ := Parser.bind_done hdone
  obtain ⟨-, rfl⟩ := peek_done hpeek
  split at hrest
  case isTrue =>
    obtain ⟨eol, heol, hsplit⟩ := lineEnd_done hrest
    exact ⟨eol, .inr heol, hsplit⟩
  case isFalse =>
    cases hrest
    exact ⟨[], .inl rfl, rfl⟩

/-- The part of `parse_request` behind the target. -/
def parseAfterTarget (maxHeaders : Nat) (method path : StringView) : PhrParser PhrRequest := do
  skipSpaces 0
  if method.bytes = [] || path.bytes = [] then
    Parser.fail 0
  else
    let minorVersion ← parseHttpVersion 0
    lineEnd 0
    let headers ← parseHeaders maxHeaders 0
    pure ⟨method, path, minorVersion, headers⟩

theorem isCtl_head {method : Bytes} (htoken : ∀ c ∈ method, isTokenChar c = true) (rest : Bytes) :
    ∃ x xs, method ++ SP :: rest = x :: xs ∧ isCtl x = false := by
  cases method with
  | nil => exact ⟨SP, rest, rfl, rfl⟩
  | cons x method =>
      exact ⟨x, method ++ SP :: rest, rfl, (isTokenChar_start (htoken x List.mem_cons_self)).2⟩

theorem isTokenChar_scan {method : Bytes} (htoken : ∀ c ∈ method, isTokenChar c = true) :
    ∀ c ∈ method, (c == SP) = false ∧ (!isTokenChar c) = false := by
  intro c hc
  have hchar := htoken c hc
  refine ⟨?_, by rw [hchar]; rfl⟩
  rw [beq_eq_false_iff_ne]
  rintro rfl
  cases hchar

theorem isTargetChar_scan {path : Bytes} (htarget : ∀ c ∈ path, isTargetChar c = true) :
    ∀ c ∈ path, (c == SP) = false ∧ (decide (c < SP) || c == DEL) = false := by
  intro c hc
  have hchar := htarget c hc
  simp only [isTargetChar, Bool.and_eq_true, Bool.not_eq_true'] at hchar
  exact hchar

/-- The empty line and the method are passed. -/
theorem parseRequest_method {lead method : Bytes} (hlead : lead = [] ∨ IsLineEnd lead)
    (htoken : ∀ c ∈ method, isTokenChar c = true) (rest : Bytes) :
    parseRequest maxHeaders ⟨0, lead ++ (method ++ SP :: rest)⟩ =
      (skipSpaces 0 >>= fun _ => advanceToken 0 >>= fun path =>
        parseAfterTarget maxHeaders ⟨lead.length, method⟩ path)
          ⟨lead.length + method.length, SP :: rest⟩ := by
  have hmethod : parseToken 0 SP ⟨lead.length, method ++ SP :: rest⟩
      = .done ⟨lead.length, method⟩ ⟨lead.length + method.length, SP :: rest⟩ :=
    scanToken_append (isTokenChar_scan htoken) (beq_self_eq_true SP) _
  obtain ⟨x, xs, hx, hctl⟩ := isCtl_head htoken rest
  have hempty := skipEmptyLine_append hlead hctl xs
  rw [← hx] at hempty
  rw [parseRequest, Parser.bind_of_done hempty, Parser.bind_of_done hmethod]
  rfl

/-- The spaces before the target are passed, too. -/
theorem parseRequest_spaces {lead method spaces : Bytes} (hlead : lead = [] ∨ IsLineEnd lead)
    (htoken : ∀ c ∈ method, isTokenChar c = true) (hspaces : IsSpaces spaces) {x : UInt8}
    (hx : x ≠ SP) (rest : Bytes) :
    parseRequest maxHeaders ⟨0, lead ++ (method ++ (spaces ++ x :: rest))⟩ =
      (advanceToken 0 >>= fun path => parseAfterTarget maxHeaders ⟨lead.length, method⟩ path)
        ⟨lead.length + method.length + spaces.length, x :: rest⟩ := by
  have hpassed : skipSpaces 0 ⟨lead.length + method.length, spaces ++ x :: rest⟩
      = .done () ⟨lead.length + method.length + spaces.length, x :: rest⟩ :=
    skipSpaces_append hspaces hx
  obtain ⟨y, spaces, rfl⟩ := List.exists_cons_of_ne_nil hspaces.1
  obtain rfl : y = SP := hspaces.2 y List.mem_cons_self
  rw [List.cons_append] at hpassed ⊢
  rw [parseRequest_method hlead htoken, Parser.bind_of_done hpassed]

/-- The request line up to its target is passed. -/
theorem parseRequest_target {lead method spaces path : Bytes} (hlead : lead = [] ∨ IsLineEnd lead)
    (htoken : ∀ c ∈ method, isTokenChar c = true) (hspaces : IsSpaces spaces) (hpath : path ≠ [])
    (htarget : ∀ c ∈ path, isTargetChar c = true) (rest : Bytes) :
    parseRequest maxHeaders ⟨0, lead ++ (method ++ (spaces ++ (path ++ SP :: rest)))⟩ =
      parseAfterTarget maxHeaders ⟨lead.length, method⟩
        ⟨lead.length + method.length + spaces.length, path⟩
        ⟨lead.length + method.length + spaces.length + path.length, SP :: rest⟩ := by
  have hread : advanceToken 0
      ⟨lead.length + method.length + spaces.length, path ++ SP :: rest⟩
        = .done ⟨lead.length + method.length + spaces.length, path⟩
          ⟨lead.length + method.length + spaces.length + path.length, SP :: rest⟩ :=
    scanToken_append (isTargetChar_scan htarget) (beq_self_eq_true SP) rest
  obtain ⟨z, path, rfl⟩ := List.exists_cons_of_ne_nil hpath
  have hz : z ≠ SP :=
    beq_eq_false_iff_ne.mp (isTargetChar_scan htarget z List.mem_cons_self).1
  rw [List.cons_append] at hread ⊢
  rw [parseRequest_spaces hlead htoken hspaces hz, Parser.bind_of_done hread]

/-- A request at the front of a text is read to its end, and its parts are handed out. -/
theorem phrParseRequest_of_isRequest (hrequest : IsRequest maxHeaders texts text) (rest : Bytes) :
    ∃ request next, phrParseRequest (text ++ rest) maxHeaders = .done request next ∧
      next.rest = rest ∧ request.texts = texts := by
  obtain ⟨lead, method, spaces, path, spaces', digit, eol, block, headers, hlead, hmethod, htoken,
    hspaces, hpath, htarget, hspaces', hdigit, heol, hblock, hroom⟩ := hrequest
  obtain ⟨w, ws, hw⟩ := List.exists_cons_of_ne_nil hspaces'.1
  obtain rfl : w = SP := hspaces'.2 w (by simp [hw])
  obtain ⟨pos, hpos⟩ : ∃ pos, pos = lead.length + method.length + spaces.length + path.length :=
    ⟨_, rfl⟩
  obtain ⟨found, hfound, htexts⟩ := parseHeaders_of_block hblock rest maxHeaders
    (pos + spaces'.length + 8 + eol.length) hroom
  refine ⟨⟨⟨lead.length, method⟩, ⟨lead.length + method.length + spaces.length, path⟩, digit,
    found⟩, ⟨pos + spaces'.length + 8 + eol.length + block.length, rest⟩, ?_, rfl, ?_⟩
  case refine_2 => rw [PhrRequest.texts, htexts]
  case refine_1 =>
    have hsplit : lead ++ (method ++ (spaces ++ (path ++ (spaces' ++
        (versionText digit ++ (eol ++ block)))))) ++ rest
        = lead ++ (method ++ (spaces ++ (path ++ SP :: (ws ++
          (versionText digit ++ (eol ++ (block ++ rest))))))) := by simp [hw]
    have hpassed : skipSpaces 0 ⟨pos, SP :: (ws ++ (versionText digit ++ (eol ++ (block ++ rest))))⟩
        = .done () ⟨pos + spaces'.length, versionText digit ++ (eol ++ (block ++ rest))⟩ := by
      rw [← List.cons_append, ← hw]
      exact skipSpaces_append hspaces' (by decide)
    have hne : eol ++ (block ++ rest) ≠ [] := List.append_ne_nil_of_left_ne_nil heol.ne_nil _
    rw [phrParseRequest, Parser.parse, hsplit,
      parseRequest_target hlead htoken hspaces hpath htarget, ← hpos, parseAfterTarget,
      Parser.bind_of_done hpassed, if_neg (by simp [hmethod, hpath]),
      Parser.bind_of_done (parseHttpVersion_append hdigit hne),
      Parser.bind_of_done (lineEnd_append heol 0 _ _), Parser.bind_of_done hfound]
    rfl

/-- What is taken for a request is one. -/
theorem isRequest_of_phrParseRequest {request : PhrRequest} {next : Cursor UInt8}
    (hdone : phrParseRequest text maxHeaders = .done request next) :
    ∃ front, text = front ++ next.rest ∧ IsRequest maxHeaders request.texts front := by
  obtain ⟨_, c1, hlead, h1⟩ := Parser.bind_done hdone
  obtain ⟨method, c2, hmethod, h2⟩ := Parser.bind_done h1
  obtain ⟨_, c3, hspaces, h3⟩ := Parser.bind_done h2
  obtain ⟨path, c4, hpath, h4⟩ := Parser.bind_done h3
  obtain ⟨_, c5, hspaces', h5⟩ := Parser.bind_done h4
  split at h5
  case isTrue => cases h5
  case isFalse hne =>
    rw [Bool.or_eq_true, decide_eq_true_eq, decide_eq_true_eq, not_or] at hne
    obtain ⟨version, c6, hversion, h6⟩ := Parser.bind_done h5
    obtain ⟨_, c7, hline, h7⟩ := Parser.bind_done h6
    obtain ⟨found, c8, hheaders, h8⟩ := Parser.bind_done h7
    cases h8
    obtain ⟨lead, hleads, htext⟩ := skipEmptyLine_done hlead
    obtain ⟨hmethodText, htoken, y, ys, hc2, hy⟩ := scanToken_done hmethod
    obtain ⟨spaces, hrun, hspacesText, -⟩ := skipSpaces_done hc2 (beq_iff_eq.mp hy) hspaces
    obtain ⟨hpathText, htarget, w, ws, hc4, hw⟩ := scanToken_done hpath
    obtain ⟨spaces', hrun', hspacesText', -⟩ := skipSpaces_done hc4 (beq_iff_eq.mp hw) hspaces'
    obtain ⟨digit, hdigit, rfl, hversionText⟩ := parseHttpVersion_done hversion
    obtain ⟨eol, heol, heolText⟩ := lineEnd_done hline
    obtain ⟨block, hblockText, hblock, hlength⟩ := block_of_parseHeaders maxHeaders 0 _ _ _ hheaders
    refine ⟨_, ?_, .intro lead method.bytes spaces path.bytes spaces' digit eol block _ hleads hne.1
      ?_ hrun hne.2 ?_ hrun' hdigit heol hblock ?_⟩
    case refine_1 =>
      change text = lead ++ c1.rest at htext
      rw [htext, hmethodText, hspacesText, hpathText, hspacesText', hversionText, heolText,
        hblockText]
      simp
    case refine_2 =>
      intro c hc
      simpa using (htoken c hc).2
    case refine_3 =>
      intro c hc
      obtain ⟨hstop, hbad⟩ := htarget c hc
      rw [isTargetChar, hstop, hbad]
      rfl
    case refine_4 =>
      rw [List.length_map]
      exact hlength

/-- `phr_parse_request` is done exactly on the texts that begin with a request, and hands out the
parts of that request. -/
theorem phrParseRequest_done_iff :
    (∃ request next, phrParseRequest text maxHeaders = .done request next ∧ next.rest = rest ∧
      request.texts = texts) ↔
      ∃ front, text = front ++ rest ∧ IsRequest maxHeaders texts front := by
  constructor
  · rintro ⟨request, next, hdone, rfl, rfl⟩
    exact isRequest_of_phrParseRequest hdone
  · rintro ⟨front, rfl, hrequest⟩
    exact phrParseRequest_of_isRequest hrequest rest

end Request

end GameDemoLearn.Net.Http
