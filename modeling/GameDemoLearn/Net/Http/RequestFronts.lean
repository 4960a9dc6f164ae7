import GameDemoLearn.Net.Http.RequestGrammar

/-!
The texts on which `phr_parse_request` asks for more. They are the proper front parts of requests,
and two kinds of request lines that the parser does not give up although nothing can complete
them: the version is not looked at before nine bytes are there, and that the method is missing is
seen only behind the target.
-/

namespace GameDemoLearn.Net.Http

open Incremental

section Read

variable {numHeaders : Nat} {c : Cursor UInt8} {note : Nat}

theorem scanToken_needMore {stop bad : UInt8 → Bool}
    (hmore : scanToken numHeaders stop bad c = .needMore note) :
    ∀ x ∈ c.rest, stop x = false ∧ bad x = false := by
  rcases Parser.bind_needMore hmore with hposition | ⟨offset, middle, hposition, hscan⟩
  case inl => cases hposition
  case inr =>
    cases hposition
    rcases Parser.bind_needMore hscan with htaken | ⟨bytes, last, -, hpure⟩
    case inl => exact Parser.scan_needMore_iff.mp ⟨note, htaken⟩
    case inr => cases hpure

/-- What is there of a line end that is not complete. -/
def IsEndFront (front : Bytes) : Prop := front = [] ∨ front = [CR]

theorem IsEndFront.lineEnd {front : Bytes} (hfront : IsEndFront front) :
    IsLineEnd (front ++ [LF]) := by
  rcases hfront with rfl | rfl
  · exact .inr rfl
  · exact .inl rfl

theorem lineEnd_needMore (hmore : lineEnd numHeaders c = .needMore note) : IsEndFront c.rest := by
  obtain ⟨pos, rest⟩ := c
  rcases Parser.bind_needMore hmore with hnext | ⟨x, middle, hnext, hsecond⟩
  case inl => exact .inl (Parser.next_needMore hnext)
  case inr =>
    cases rest with
    | nil => cases hnext
    | cons y rest =>
        cases hnext
        split at hsecond
        case isTrue hcr =>
          rcases Parser.bind_needMore hsecond with hlf | ⟨z, last, -, hlast⟩
          case inl =>
            obtain rfl : rest = [] := Parser.next_needMore hlf
            exact .inr (congrArg (· :: []) hcr)
          case inr => split at hlast <;> cases hlast
        case isFalse => split at hsecond <;> cases hsecond

theorem getTokenToEol_needMore (hmore : getTokenToEol numHeaders c = .needMore note) :
    ∃ line front, NoCtl line ∧ IsEndFront front ∧ c.rest = line ++ front := by
  rcases Parser.bind_needMore hmore with hscan | ⟨token, middle, hscan, hend⟩
  case inl =>
    exact ⟨c.rest, [], fun x hx => (scanToken_needMore hscan x hx).1, .inl rfl,
      (List.append_nil _).symm⟩
  case inr =>
    rcases Parser.bind_needMore hend with heol | ⟨_, last, -, hpure⟩
    case inl =>
      obtain ⟨hsplit, htoken, -⟩ := scanToken_done hscan
      exact ⟨token.bytes, middle.rest, fun x hx => (htoken x hx).1, lineEnd_needMore heol, hsplit⟩
    case inr => cases hpure

theorem parseHeaderName_needMore (hmore : parseHeaderName numHeaders c = .needMore note) :
    ∃ name blanks more, name ≠ [] ∧ (∀ x ∈ name, isTokenChar x = true) ∧
      (∀ x ∈ blanks, isBlank x = true) ∧ c.rest ++ more = name ++ 58 :: blanks := by
  rcases Parser.bind_needMore hmore with hscan | ⟨name, middle, hscan, hafter⟩
  case inl =>
    -- a letter and the colon complete the name
    refine ⟨c.rest ++ [65], [], [65, 58], by simp, ?_, List.forall_mem_nil _, by simp⟩
    intro x hx
    rcases List.mem_append.mp hx with hrest | hlast
    · simpa using (scanToken_needMore hscan x hrest).2
    · rw [List.mem_singleton.mp hlast]
      rfl
  case inr =>
    obtain ⟨hsplit, htoken, x, xs, hcolon, hx⟩ := scanToken_done hscan
    obtain rfl : x = 58 := beq_iff_eq.mp hx
    obtain ⟨pos, rest⟩ := middle
    obtain rfl : rest = 58 :: xs := hcolon
    split at hafter
    case isTrue => cases hafter
    case isFalse hne =>
      rcases Parser.bind_needMore hafter with hnext | ⟨_, last, hnext, hskip⟩
      case inl => cases hnext
      case inr =>
        cases hnext
        rcases Parser.bind_needMore hskip with hblanks | ⟨blanks, final, -, hpure⟩
        case inl =>
          have hall := Parser.scan_needMore_iff.mp ⟨note, hblanks⟩
          refine ⟨name.bytes, xs, [], hne, ?_, ?_, ?_⟩
          case refine_1 => exact fun y hy => by simpa using (htoken y hy).2
          case refine_2 => exact fun y hy => by simpa using (hall y hy).1
          case refine_3 => rw [List.append_nil, hsplit]
        case inr => cases hpure

/-- A header line that is not there yet can be completed to the last one of a block. -/
theorem parseHeaderLine_needMore (hmore : parseHeaderLine numHeaders c = .needMore note) :
    ∃ more header, HeaderBlock numHeaders [header] (c.rest ++ more) := by
  have hlast : HeaderBlock (numHeaders + 1) [] [LF] := .last (.inr rfl)
  rcases Parser.bind_needMore hmore with hname | ⟨name, next, hname, hvalueLine⟩
  case inl =>
    have hfield : ∃ name blanks more, name ≠ [] ∧ (∀ x ∈ name, isTokenChar x = true) ∧
        (∀ x ∈ blanks, isBlank x = true) ∧ c.rest ++ more = name ++ 58 :: blanks := by
      rcases Parser.bind_needMore hname with hpeek | ⟨x, start, hpeek, hchosen⟩
      case inl =>
        rw [Parser.peek_needMore hpeek]
        exact ⟨[65], [], [65, 58], List.cons_ne_nil _ _, List.forall_mem_singleton.mpr rfl,
          List.forall_mem_nil _, rfl⟩
      case inr =>
        obtain ⟨-, hsame⟩ := peek_done hpeek
        subst hsame
        split at hchosen
        case isTrue => exact parseHeaderName_needMore hchosen
        case isFalse => cases hchosen
    obtain ⟨name, blanks, more, hne, htoken, hblanks, hsplit⟩ := hfield
    have hblock : HeaderBlock numHeaders [(name, [])]
        (name ++ 58 :: (blanks ++ ([] ++ ([LF] ++ [LF])))) :=
      .field hne htoken hblanks (List.forall_mem_nil _) (fun x hx => by cases hx) (.inr rfl) hlast
    refine ⟨more ++ [LF, LF], (name, []), ?_⟩
    rw [← List.append_assoc, hsplit]
    simpa using hblock
  case inr =>
    rcases Parser.bind_needMore hvalueLine with hvalue | ⟨value, last, -, hpure⟩
    case inl =>
      obtain ⟨front, x, hfront, hx, hblock⟩ := exists_lineFront hname
      obtain ⟨value, endFront, hctl, hend, hsplit⟩ := getTokenToEol_needMore hvalue
      have hhead : (value ++ (endFront ++ [LF])).head? = some x := by
        rw [← List.append_assoc, ← hsplit, List.head?_append, hx]
        rfl
      refine ⟨[LF, LF], (name.bytes, value.rdropWhile isBlank), ?_⟩
      have htext : c.rest ++ [LF, LF] = front ++ (value ++ ((endFront ++ [LF]) ++ [LF])) := by
        rw [hfront, hsplit]
        simp
      rw [htext]
      exact hblock hhead hctl hend.lineEnd hlast
    case inr => cases hpure

/-- A block that waits does so for its empty line or in a header line that there is room for. -/
theorem parseHeaders_needMore {room : Nat}
    (hmore : parseHeaders room numHeaders c = .needMore note) :
    IsEndFront c.rest ∨ ∃ room', room = room' + 1 ∧
      (parseHeaderLine numHeaders >>= fun header =>
        parseHeaders room' (numHeaders + 1) >>= fun headers => pure (header :: headers)) c
          = .needMore note := by
  rw [parseHeaders.eq_def] at hmore
  rcases Parser.bind_needMore hmore with hpeek | ⟨x, middle, hpeek, hrest⟩
  case inl => exact .inl (.inl (Parser.peek_needMore hpeek))
  case inr =>
    obtain ⟨-, hsame⟩ := peek_done hpeek
    subst hsame
    split at hrest
    case isTrue =>
      rcases Parser.bind_needMore hrest with heol | ⟨_, last, -, hpure⟩
      case inl => exact .inl (lineEnd_needMore heol)
      case inr => cases hpure
    case isFalse =>
      cases room with
      | zero => cases hrest
      | succ room => exact .inr ⟨room, rfl, hrest⟩

/-- A block of header lines that is not there yet can be completed within the room for it. -/
theorem block_of_needMore (room : Nat) :
    ∀ numHeaders c, parseHeaders room numHeaders c = .needMore note →
      ∃ more headers, HeaderBlock numHeaders headers (c.rest ++ more) ∧ headers.length ≤ room := by
  induction room with
  | zero =>
      intro numHeaders c hmore
      obtain hend | ⟨room, hroom, -⟩ := parseHeaders_needMore hmore
      · exact ⟨[LF], [], .last hend.lineEnd, Nat.le_refl 0⟩
      · cases hroom
  | succ room ih =>
      intro numHeaders c hmore
      obtain hend | ⟨room', hroom, hlines⟩ := parseHeaders_needMore hmore
      · exact ⟨[LF], [], .last hend.lineEnd, Nat.zero_le _⟩
      · cases hroom
        rcases Parser.bind_needMore hlines with hheader | ⟨header, next, hheader, hothers⟩
        case inl =>
          obtain ⟨more, header, hblock⟩ := parseHeaderLine_needMore hheader
          exact ⟨more, [header], hblock, Nat.succ_le_succ (Nat.zero_le room)⟩
        case inr =>
          rcases Parser.bind_needMore hothers with hrest | ⟨others, last, -, hpure⟩
          case inl =>
            obtain ⟨more, headers, hblock, hlength⟩ := ih _ _ hrest
            obtain ⟨line, hline, hgoesOn⟩ := exists_headerLine hheader
            refine ⟨more, header.texts :: headers, ?_, Nat.succ_le_succ hlength⟩
            rw [hline, List.append_assoc]
            exact hgoesOn hblock
          case inr => cases hpure

theorem skipEmptyLine_needMore (hmore : skipEmptyLine c = .needMore note) :
    IsEndFront c.rest := by
  rcases Parser.bind_needMore hmore with hpeek | ⟨x, middle, hpeek, hrest⟩
  case inl => exact .inl (Parser.peek_needMore hpeek)
  case inr =>
    obtain ⟨-, hsame⟩ := peek_done hpeek
    subst hsame
    split at hrest
    case isTrue => exact lineEnd_needMore hrest
    case isFalse => cases hrest

theorem skipSpaces_needMore {x : UInt8} {xs : Bytes} (hc : c.rest = x :: xs) (hx : x = SP)
    (hmore : skipSpaces numHeaders c = .needMore note) : IsSpaces c.rest := by
  obtain ⟨pos, rest⟩ := c
  obtain rfl : rest = x :: xs := hc
  rcases Parser.bind_needMore hmore with hnext | ⟨_, middle, hnext, hskip⟩
  case inl => cases hnext
  case inr =>
    cases hnext
    rcases Parser.bind_needMore hskip with hscan | ⟨_, last, -, hpure⟩
    case inl =>
      have hall := Parser.scan_needMore_iff.mp ⟨note, hscan⟩
      refine ⟨List.cons_ne_nil x xs, List.forall_mem_cons.mpr ⟨hx, fun y hy => ?_⟩⟩
      simpa using (hall y hy).1
    case inr => cases hpure

/-- A character that is there is looked at. -/
theorem expectChar_needMore {α : Type} {ch : UInt8} {f : Unit → PhrParser α} (k : Nat)
    (hmore : (expectChar numHeaders ch >>= f) c = .needMore note) (hk : k + 1 ≤ c.rest.length) :
    ∃ next, f () next = .needMore note ∧ k ≤ next.rest.length := by
  rcases Parser.bind_needMore hmore with hchar | ⟨_, next, hchar, hrest⟩
  case inl =>
    rcases Parser.bind_needMore hchar with hnext | ⟨x, middle, -, hlast⟩
    case inl =>
      rw [Parser.next_needMore hnext] at hk
      cases hk
    case inr => split at hlast <;> cases hlast
  case inr =>
    rw [expectChar_done hchar, List.length_cons] at hk
    exact ⟨next, hrest, Nat.le_of_succ_le_succ hk⟩

/-- The version waits for nine bytes, and for no more. -/
theorem parseHttpVersion_needMore (hmore : parseHttpVersion numHeaders c = .needMore note) :
    c.rest.length < 9 := by
  by_contra hlong
  have henough : Parser.require numHeaders 9 c = .done () c := if_neg hlong
  rw [parseHttpVersion, Parser.bind_of_done henough] at hmore
  obtain ⟨c1, h1, hk1⟩ := expectChar_needMore 8 hmore (Nat.le_of_not_lt hlong)
  obtain ⟨c2, h2, hk2⟩ := expectChar_needMore 7 h1 hk1
  obtain ⟨c3, h3, hk3⟩ := expectChar_needMore 6 h2 hk2
  obtain ⟨c4, h4, hk4⟩ := expectChar_needMore 5 h3 hk3
  obtain ⟨c5, h5, hk5⟩ := expectChar_needMore 4 h4 hk4
  obtain ⟨c6, h6, hk6⟩ := expectChar_needMore 3 h5 hk5
  obtain ⟨c7, h7, hk7⟩ := expectChar_needMore 2 h6 hk6
  rcases Parser.bind_needMore h7 with hnext | ⟨x, last, -, hdigit⟩
  case inl =>
    rw [Parser.next_needMore hnext] at hk7
    cases hk7
  case inr => split at hdigit <;> cases hdigit

end Read

/-- What may follow the target of a request. -/
inductive RequestTail (maxHeaders : Nat) : Bytes → Prop
  | intro (spaces : Bytes) (digit : Nat) (eol block : Bytes) (headers : List (Bytes × Bytes))
      (hspaces : IsSpaces spaces) (hdigit : digit < 10) (heol : IsLineEnd eol)
      (hblock : HeaderBlock 0 headers block) (hroom : headers.length ≤ maxHeaders) :
      RequestTail maxHeaders (spaces ++ (versionText digit ++ (eol ++ block)))

/-- A request line that ends before the nine bytes from its version on are there. -/
inductive BeforeVersion : Bytes → Prop
  | intro (lead method spaces path spaces' tail : Bytes) (hlead : lead = [] ∨ IsLineEnd lead)
      (hmethod : method ≠ []) (htoken : ∀ c ∈ method, isTokenChar c = true)
      (hspaces : IsSpaces spaces) (hpath : path ≠ []) (htarget : ∀ c ∈ path, isTargetChar c = true)
      (hspaces' : IsSpaces spaces') (htail : tail.length < 9)
      (hstart : ∀ c ∈ tail.head?, c ≠ SP) :
      BeforeVersion (lead ++ (method ++ (spaces ++ (path ++ (spaces' ++ tail)))))

/-- A request line without a method that ends before its version. -/
inductive WithoutMethod : Bytes → Prop
  | intro (lead spaces path spaces' : Bytes) (hlead : lead = [] ∨ IsLineEnd lead)
      (hspaces : IsSpaces spaces) (htarget : ∀ c ∈ path, isTargetChar c = true)
      (hspaces' : ∀ c ∈ spaces', c = SP) :
      WithoutMethod (lead ++ (spaces ++ (path ++ spaces')))

/-- A proper front part of a request. -/
def RequestFront (maxHeaders : Nat) (text : Bytes) : Prop :=
  ∃ more texts, more ≠ [] ∧ IsRequest maxHeaders texts (text ++ more)

section Request

variable {maxHeaders note : Nat} {text lead method spaces path tail : Bytes}

theorem isSpaces_singleton : IsSpaces [SP] :=
  ⟨List.cons_ne_nil SP [], fun _ hc => List.mem_singleton.mp hc⟩

theorem requestTail_bare (maxHeaders : Nat) :
    RequestTail maxHeaders ([SP] ++ (versionText 0 ++ ([LF] ++ [LF]))) :=
  .intro [SP] 0 [LF] [LF] [] isSpaces_singleton (Nat.succ_pos 9) (.inr rfl) (.last (.inr rfl))
    (Nat.zero_le maxHeaders)

theorem RequestTail.isRequest (htail : RequestTail maxHeaders tail)
    (hlead : lead = [] ∨ IsLineEnd lead) (hmethod : method ≠ [])
    (htoken : ∀ c ∈ method, isTokenChar c = true) (hspaces : IsSpaces spaces) (hpath : path ≠ [])
    (htarget : ∀ c ∈ path, isTargetChar c = true) :
    ∃ texts, IsRequest maxHeaders texts (lead ++ (method ++ (spaces ++ (path ++ tail)))) := by
  obtain ⟨spaces', digit, eol, block, headers, hspaces', hdigit, heol, hblock, hroom⟩ := htail
  exact ⟨_, .intro lead method spaces path spaces' digit eol block headers hlead hmethod htoken
    hspaces hpath htarget hspaces' hdigit heol hblock hroom⟩

/-- Behind a target the parser waits for the rest of a request, or for the nine bytes from the
version on. -/
theorem parseAfterTarget_needMore {target first : StringView} {c : Cursor UInt8} {xs : Bytes}
    (hc : c.rest = SP :: xs) (hfirst : first.bytes ≠ []) (htarget : target.bytes ≠ [])
    (hmore : parseAfterTarget maxHeaders first target c = .needMore note) :
    (∃ more, RequestTail maxHeaders (c.rest ++ more)) ∨
      ∃ spaces tail, IsSpaces spaces ∧ tail.length < 9 ∧ (∀ y ∈ tail.head?, y ≠ SP) ∧
        c.rest = spaces ++ tail := by
  rcases Parser.bind_needMore hmore with hskip | ⟨_, c1, hskip, h1⟩
  case inl =>
    have hspaces := skipSpaces_needMore hc rfl hskip
    exact .inl ⟨_, .intro c.rest 0 [LF] [LF] [] hspaces (Nat.succ_pos 9) (.inr rfl)
      (.last (.inr rfl)) (Nat.zero_le maxHeaders)⟩
  case inr =>
    obtain ⟨spaces, hspaces, hsplit, hstart⟩ := skipSpaces_done hc rfl hskip
    rw [if_neg (by simp [hfirst, htarget])] at h1
    rcases Parser.bind_needMore h1 with hversion | ⟨version, c2, hversion, h2⟩
    case inl =>
      exact .inr ⟨spaces, c1.rest, hspaces, parseHttpVersion_needMore hversion, hstart, hsplit⟩
    case inr =>
      obtain ⟨digit, hdigit, -, hversionText⟩ := parseHttpVersion_done hversion
      rcases Parser.bind_needMore h2 with hline | ⟨_, c3, hline, h3⟩
      case inl =>
        refine .inl ⟨[LF, LF], ?_⟩
        have htext : c.rest ++ [LF, LF]
            = spaces ++ (versionText digit ++ ((c2.rest ++ [LF]) ++ [LF])) := by
          rw [hsplit, hversionText]
          simp
        rw [htext]
        exact .intro spaces digit _ [LF] [] hspaces hdigit (lineEnd_needMore hline).lineEnd
          (.last (.inr rfl)) (Nat.zero_le maxHeaders)
      case inr =>
        obtain ⟨eol, heol, heolText⟩ := lineEnd_done hline
        rcases Parser.bind_needMore h3 with hheaders | ⟨_, c4, -, hpure⟩
        case inl =>
          obtain ⟨more, headers, hblock, hroom⟩ := block_of_needMore maxHeaders 0 c3 hheaders
          refine .inl ⟨more, ?_⟩
          have htext : c.rest ++ more
              = spaces ++ (versionText digit ++ (eol ++ (c3.rest ++ more))) := by
            rw [hsplit, hversionText, heolText]
            simp
          rw [htext]
          exact .intro spaces digit eol _ headers hspaces hdigit heol hblock hroom
        case inr => cases hpure

/-- Behind a method the parser waits in front of the end of the target, or behind the target. -/
theorem parseTarget_needMore {first : StringView} {c : Cursor UInt8} {xs : Bytes}
    (hc : c.rest = SP :: xs)
    (hmore : (skipSpaces 0 >>= fun _ => advanceToken 0 >>= fun target =>
      parseAfterTarget maxHeaders first target) c = .needMore note) :
    ∃ spaces, IsSpaces spaces ∧
      ((∃ path, (∀ y ∈ path, isTargetChar y = true) ∧ c.rest = spaces ++ path) ∨
        ∃ (target : StringView) (behind : Cursor UInt8) (ys : Bytes), target.bytes ≠ [] ∧
          (∀ y ∈ target.bytes, isTargetChar y = true) ∧ behind.rest = SP :: ys ∧
            c.rest = spaces ++ (target.bytes ++ behind.rest) ∧
              parseAfterTarget maxHeaders first target behind = .needMore note) := by
  have hchar : ∀ {y : UInt8}, (y == SP) = false ∧ (decide (y < SP) || y == DEL) = false →
      isTargetChar y = true := by
    intro y hy
    rw [isTargetChar, hy.1, hy.2]
    rfl
  rcases Parser.bind_needMore hmore with hskip | ⟨_, c1, hskip, h1⟩
  case inl =>
    exact ⟨c.rest, skipSpaces_needMore hc rfl hskip,
      .inl ⟨[], List.forall_mem_nil _, (List.append_nil _).symm⟩⟩
  case inr =>
    obtain ⟨spaces, hspaces, hsplit, hstart⟩ := skipSpaces_done hc rfl hskip
    refine ⟨spaces, hspaces, ?_⟩
    rcases Parser.bind_needMore h1 with hscan | ⟨target, behind, htarget, hbehind⟩
    case inl =>
      exact .inl ⟨c1.rest, fun y hy => hchar (scanToken_needMore hscan y hy), hsplit⟩
    case inr =>
      obtain ⟨htext, hall, y, ys, hy, hstop⟩ := scanToken_done htarget
      obtain rfl : y = SP := beq_iff_eq.mp hstop
      have hne : target.bytes ≠ [] := by
        intro hnil
        rw [hnil, List.nil_append, hy] at htext
        rw [htext] at hstart
        exact hstart SP rfl rfl
      exact .inr ⟨target, behind, ys, hne, fun y hy => hchar (hall y hy), hy,
        by rw [hsplit, htext], hbehind⟩

/-- Where the method is missing, the parser waits up to the end of the spaces behind the target. -/
theorem withoutMethod_of_needMore {first : StringView} {c : Cursor UInt8} {xs : Bytes}
    (hlead : lead = [] ∨ IsLineEnd lead) (hfirst : first.bytes = []) (hc : c.rest = SP :: xs)
    (hmore : (skipSpaces 0 >>= fun _ => advanceToken 0 >>= fun target =>
      parseAfterTarget maxHeaders first target) c = .needMore note) :
    WithoutMethod (lead ++ c.rest) := by
  obtain ⟨spaces, hspaces, hpath | hbehind⟩ := parseTarget_needMore hc hmore
  case inl =>
    obtain ⟨path, htarget, hsplit⟩ := hpath
    have hfront := WithoutMethod.intro lead spaces path [] hlead hspaces htarget
      (List.forall_mem_nil _)
    rwa [List.append_nil, ← hsplit] at hfront
  case inr =>
    obtain ⟨target, behind, ys, -, htarget, hys, hsplit, hafter⟩ := hbehind
    rcases Parser.bind_needMore hafter with hskip | ⟨_, last, -, hfail⟩
    case inl =>
      rw [hsplit]
      exact .intro lead spaces target.bytes behind.rest hlead hspaces htarget
        (skipSpaces_needMore hys rfl hskip).2
    case inr =>
      rw [if_pos (by simp [hfirst])] at hfail
      cases hfail

/-- Behind a method the parser waits for the rest of a request, or for the nine bytes from the
version on. -/
theorem requestFront_of_needMore {first : StringView} {c : Cursor UInt8} {xs : Bytes}
    (hlead : lead = [] ∨ IsLineEnd lead) (hfirst : first.bytes ≠ [])
    (htoken : ∀ y ∈ first.bytes, isTokenChar y = true) (hc : c.rest = SP :: xs)
    (hmore : (skipSpaces 0 >>= fun _ => advanceToken 0 >>= fun target =>
      parseAfterTarget maxHeaders first target) c = .needMore note) :
    (∃ more texts, IsRequest maxHeaders texts (lead ++ (first.bytes ++ (c.rest ++ more)))) ∨
      BeforeVersion (lead ++ (first.bytes ++ c.rest)) := by
  obtain ⟨spaces, hspaces, hpath | hbehind⟩ := parseTarget_needMore hc hmore
  case inl =>
    obtain ⟨path, htarget, hsplit⟩ := hpath
    have hlonger : ∀ y ∈ path ++ [47], isTargetChar y = true := by
      intro y hy
      rcases List.mem_append.mp hy with hpath | hlast
      · exact htarget y hpath
      · rw [List.mem_singleton.mp hlast]
        rfl
    obtain ⟨texts, hrequest⟩ := (requestTail_bare maxHeaders).isRequest hlead hfirst htoken hspaces
      (List.append_ne_nil_of_right_ne_nil path (List.cons_ne_nil 47 [])) hlonger
    refine .inl ⟨[47] ++ ([SP] ++ (versionText 0 ++ ([LF] ++ [LF]))), texts, ?_⟩
    rw [hsplit]
    simpa using hrequest
  case inr =>
    obtain ⟨target, behind, ys, hne, htarget, hys, hsplit, hafter⟩ := hbehind
    rw [hsplit]
    obtain ⟨more, htail⟩ | ⟨spaces', tail, hspaces', htail, hstart, hbehindSplit⟩ :=
      parseAfterTarget_needMore hys hfirst hne hafter
    case inl =>
      obtain ⟨texts, hrequest⟩ := htail.isRequest hlead hfirst htoken hspaces hne htarget
      refine .inl ⟨more, texts, ?_⟩
      rw [List.append_assoc, List.append_assoc]
      exact hrequest
    case inr =>
      rw [hbehindSplit]
      exact .inr (.intro lead first.bytes spaces target.bytes spaces' tail hlead hfirst htoken
        hspaces hne htarget hspaces' htail hstart)

theorem isRequest_of_needMore (hmore : phrParseRequest text maxHeaders = .needMore note) :
    (∃ more texts, IsRequest maxHeaders texts (text ++ more)) ∨ BeforeVersion text ∨
      WithoutMethod text := by
  have hletter : ∀ y ∈ [71], isTokenChar y = true := List.forall_mem_singleton.mpr rfl
  have hslash : ∀ y ∈ [47], isTargetChar y = true := List.forall_mem_singleton.mpr rfl
  rcases Parser.bind_needMore hmore with hlead | ⟨_, c1, hlead, h1⟩
  case inl =>
    have heol := (skipEmptyLine_needMore hlead).lineEnd
    obtain ⟨texts, hrequest⟩ := (requestTail_bare maxHeaders).isRequest (.inr heol)
      (List.cons_ne_nil 71 []) hletter isSpaces_singleton (List.cons_ne_nil 47 []) hslash
    refine .inl ⟨[LF] ++ ([71] ++ ([SP] ++ ([47] ++ ([SP] ++ (versionText 0 ++ ([LF] ++ [LF])))))),
      texts, ?_⟩
    rw [← List.append_assoc]
    exact hrequest
  case inr =>
    obtain ⟨lead, hlead, htext⟩ := skipEmptyLine_done hlead
    change text = lead ++ c1.rest at htext
    rcases Parser.bind_needMore h1 with hmethod | ⟨first, c2, hmethod, h2⟩
    case inl =>
      have hlonger : ∀ y ∈ c1.rest ++ [71], isTokenChar y = true := by
        rw [List.forall_mem_append]
        exact ⟨fun y hy => by simpa using (scanToken_needMore hmethod y hy).2, hletter⟩
      obtain ⟨texts, hrequest⟩ := (requestTail_bare maxHeaders).isRequest hlead
        (List.append_ne_nil_of_right_ne_nil c1.rest (List.cons_ne_nil 71 [])) hlonger
        isSpaces_singleton (List.cons_ne_nil 47 []) hslash
      refine .inl ⟨[71] ++ ([SP] ++ ([47] ++ ([SP] ++ (versionText 0 ++ ([LF] ++ [LF]))))), texts,
        ?_⟩
      rw [htext]
      simpa using hrequest
    case inr =>
      obtain ⟨hsplit, htoken, y, ys, hys, hstop⟩ := scanToken_done hmethod
      obtain rfl : y = SP := beq_iff_eq.mp hstop
      by_cases hfirst : first.bytes = []
      case pos =>
        have hfront := withoutMethod_of_needMore hlead hfirst hys h2
        rw [hfirst, List.nil_append] at hsplit
        rw [htext, hsplit]
        exact .inr (.inr hfront)
      case neg =>
        rw [htext, hsplit]
        have htoken' : ∀ y ∈ first.bytes, isTokenChar y = true :=
          fun y hy => by simpa using (htoken y hy).2
        rcases requestFront_of_needMore hlead hfirst htoken' hys h2 with hrequest | hversion
        case inl =>
          obtain ⟨more, texts, hrequest⟩ := hrequest
          refine .inl ⟨more, texts, ?_⟩
          rw [List.append_assoc, List.append_assoc]
          exact hrequest
        case inr => exact .inr (.inl hversion)

theorem scanToken_waits {stop bad : UInt8 → Bool} {taken : Bytes}
    (htaken : ∀ y ∈ taken, stop y = false ∧ bad y = false) (numHeaders pos : Nat) :
    ∃ note, scanToken numHeaders stop bad ⟨pos, taken⟩ = .needMore note := by
  have hposition : (Parser.position : PhrParser Nat) ⟨pos, taken⟩ = .done pos ⟨pos, taken⟩ := rfl
  obtain ⟨note, hscan⟩ : ∃ note, Parser.scan numHeaders stop bad ⟨pos, taken⟩ = .needMore note :=
    Parser.scan_needMore_iff.mpr htaken
  exact ⟨note, (Parser.bind_of_done hposition).trans (Parser.bind_of_needMore hscan)⟩

theorem skipSpaces_waits {spaces : Bytes} (hspaces : IsSpaces spaces) (numHeaders pos : Nat) :
    ∃ note, skipSpaces numHeaders ⟨pos, spaces⟩ = .needMore note := by
  obtain ⟨x, spaces, rfl⟩ := List.exists_cons_of_ne_nil hspaces.1
  have hpass : ∀ y ∈ spaces, (y != SP) = false ∧ false = false := by
    intro y hy
    rw [hspaces.2 y (List.mem_cons_of_mem x hy)]
    exact ⟨rfl, rfl⟩
  have hnext : Parser.next numHeaders ⟨pos, x :: spaces⟩ = .done x ⟨pos + 1, spaces⟩ := rfl
  obtain ⟨note, hscan⟩ : ∃ note, Parser.scan numHeaders (fun c => c != SP) (fun _ => false)
      ⟨pos + 1, spaces⟩ = .needMore note := Parser.scan_needMore_iff.mpr hpass
  exact ⟨note, (Parser.bind_of_done hnext).trans (Parser.bind_of_needMore hscan)⟩

theorem getTokenToEol_waits {line front : Bytes} (hline : NoCtl line) (hfront : IsEndFront front)
    (numHeaders pos : Nat) :
    ∃ note, getTokenToEol numHeaders ⟨pos, line ++ front⟩ = .needMore note := by
  have hpass : ∀ y ∈ line, isCtl y = false ∧ false = false := fun y hy => ⟨hline y hy, rfl⟩
  rcases hfront with rfl | rfl
  case inl =>
    obtain ⟨note, hscan⟩ := scanToken_waits hpass numHeaders pos
    rw [List.append_nil]
    exact ⟨note, Parser.bind_of_needMore hscan⟩
  case inr =>
    have hscan : scanToken numHeaders isCtl (fun _ => false) ⟨pos, line ++ [CR]⟩
        = .done ⟨pos, line⟩ ⟨pos + line.length, [CR]⟩ := scanToken_append hpass rfl []
    have hend : lineEnd numHeaders ⟨pos + line.length, [CR]⟩ = .needMore numHeaders := rfl
    exact ⟨_, (Parser.bind_of_done hscan).trans (Parser.bind_of_needMore hend)⟩

theorem BeforeVersion.needMore (hfront : BeforeVersion text) (maxHeaders : Nat) :
    ∃ note, phrParseRequest text maxHeaders = .needMore note := by
  obtain ⟨lead, method, spaces, path, spaces', tail, hlead, hmethod, htoken, hspaces, hpath,
    htarget, hspaces', htail, hstart⟩ := hfront
  obtain ⟨x, xs, hx⟩ := List.exists_cons_of_ne_nil hspaces'.1
  obtain rfl : x = SP := hspaces'.2 x (by simp [hx])
  have hread : ∃ pos, phrParseRequest (lead ++ (method ++ (spaces ++ (path ++ (spaces' ++ tail)))))
      maxHeaders = parseAfterTarget maxHeaders ⟨lead.length, method⟩
        ⟨lead.length + method.length + spaces.length, path⟩ ⟨pos, spaces' ++ tail⟩ := by
    rw [hx]
    exact ⟨_, parseRequest_target hlead htoken hspaces hpath htarget (xs ++ tail)⟩
  obtain ⟨pos, hread⟩ := hread
  rw [hread, parseAfterTarget]
  cases tail with
  | nil =>
      rw [List.append_nil]
      obtain ⟨note, hskip⟩ := skipSpaces_waits hspaces' 0 pos
      exact ⟨note, Parser.bind_of_needMore hskip⟩
  | cons y tail =>
      have hskip : skipSpaces 0 ⟨pos, spaces' ++ y :: tail⟩
          = .done () ⟨pos + spaces'.length, y :: tail⟩ := skipSpaces_append hspaces' (hstart y rfl)
      have hrequire : Parser.require 0 9 ⟨pos + spaces'.length, y :: tail⟩ = .needMore 0 :=
        if_pos htail
      rw [Parser.bind_of_done hskip, if_neg (by simp [hmethod, hpath])]
      exact ⟨0, Parser.bind_of_needMore (Parser.bind_of_needMore hrequire)⟩

theorem WithoutMethod.needMore (hfront : WithoutMethod text) (maxHeaders : Nat) :
    ∃ note, phrParseRequest text maxHeaders = .needMore note := by
  obtain ⟨lead, spaces, path, spaces', hlead, hspaces, htarget, hspaces'⟩ := hfront
  have hnone : ∀ c ∈ ([] : Bytes), isTokenChar c = true := List.forall_mem_nil _
  cases path with
  | nil =>
      have hrun : IsSpaces (spaces ++ spaces') :=
        ⟨List.append_ne_nil_of_left_ne_nil hspaces.1 _, List.forall_mem_append.mpr
          ⟨hspaces.2, hspaces'⟩⟩
      obtain ⟨x, xs, hx⟩ := List.exists_cons_of_ne_nil hrun.1
      obtain rfl : x = SP := hrun.2 x (by simp [hx])
      obtain ⟨note, hskip⟩ := skipSpaces_waits hrun 0 (lead.length + 0)
      rw [List.nil_append, hx] at *
      exact ⟨note, (parseRequest_method hlead hnone xs).trans (Parser.bind_of_needMore hskip)⟩
  | cons z path =>
      have hz : z ≠ SP :=
        beq_eq_false_iff_ne.mp (isTargetChar_scan htarget z List.mem_cons_self).1
      cases spaces' with
      | nil =>
          obtain ⟨note, hscan⟩ := scanToken_waits (isTargetChar_scan htarget) 0
            (lead.length + 0 + spaces.length)
          rw [List.append_nil]
          exact ⟨note, (parseRequest_spaces hlead hnone hspaces hz path).trans
            (Parser.bind_of_needMore hscan)⟩
      | cons y spaces' =>
          obtain rfl : y = SP := hspaces' y List.mem_cons_self
          obtain ⟨note, hskip⟩ := skipSpaces_waits ⟨List.cons_ne_nil SP spaces', hspaces'⟩ 0
            (lead.length + 0 + spaces.length + (z :: path).length)
          exact ⟨note, (parseRequest_target hlead hnone hspaces (List.cons_ne_nil z path) htarget
            spaces').trans (Parser.bind_of_needMore hskip)⟩

/-- `phr_parse_request` asks for more exactly on the proper front parts of requests, on a request
line that ends before the nine bytes from its version on are there, and on one without a method
that ends before its version. -/
theorem phrParseRequest_needMore_iff :
    (∃ note, phrParseRequest text maxHeaders = .needMore note) ↔
      RequestFront maxHeaders text ∨ BeforeVersion text ∨ WithoutMethod text := by
  constructor
  · rintro ⟨note, hmore⟩
    rcases isRequest_of_needMore hmore with ⟨more, texts, hrequest⟩ | hother
    case inl =>
      refine .inl ⟨more, texts, ?_, hrequest⟩
      rintro rfl
      obtain ⟨request, next, hdone, -, -⟩ := phrParseRequest_of_isRequest hrequest []
      rw [List.append_nil, List.append_nil, hmore] at hdone
      cases hdone
    case inr => exact .inr hother
  · rintro (⟨more, texts, hne, hrequest⟩ | hversion | hmethod)
    · obtain ⟨request, next, hdone, hrest, -⟩ := phrParseRequest_of_isRequest hrequest []
      rw [List.append_nil] at hdone
      exact Outcome.isNeedMore_iff.mp (phrParseRequest_cut hdone hrest hne)
    · exact hversion.needMore maxHeaders
    · exact hmethod.needMore maxHeaders

end Request

end GameDemoLearn.Net.Http
