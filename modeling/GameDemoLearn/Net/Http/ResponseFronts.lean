import GameDemoLearn.Net.Http.RequestFronts
import GameDemoLearn.Net.Http.ResponseGrammar

/-!
The texts on which `phr_parse_response` asks for more. They are the proper front parts of
responses, the texts that end before the parser looks at the version or at the status code, and
the status lines with garbage behind the code, which are refused only at their end.
-/

namespace GameDemoLearn.Net.Http

open Incremental

/-- A proper front part of a response. -/
def ResponseFront (maxHeaders : Nat) (text : Bytes) : Prop :=
  ∃ more texts, more ≠ [] ∧ IsResponse maxHeaders texts (text ++ more)

/-- A status line that ends before the four bytes from its code on are there. -/
inductive BeforeStatus : Bytes → Prop
  | intro (digit : Nat) (spaces tail : Bytes) (hdigit : digit < 10) (hspaces : IsSpaces spaces)
      (htail : tail.length < 4) (hstart : ∀ c ∈ tail.head?, c ≠ SP) :
      BeforeStatus (versionText digit ++ (spaces ++ tail))

/-- A status line whose code has something other than a space behind it. -/
inductive GarbageLine : Bytes → Prop
  | intro (digit : Nat) (spaces : Bytes) (hundreds tens ones : Nat) (garbage front : Bytes)
      (hdigit : digit < 10) (hspaces : IsSpaces spaces) (hhundreds : hundreds < 10)
      (htens : tens < 10) (hones : ones < 10) (hgarbage : NoCtl garbage) (hne : garbage ≠ [])
      (hstart : garbage.head? ≠ some SP) (hfront : IsEndFront front) :
      GarbageLine (versionText digit ++ (spaces ++ (codeText hundreds tens ones ++
        (garbage ++ front))))

section Response

variable {maxHeaders : Nat} {text : Bytes} {note : PhrResponseNote} {c : Cursor UInt8}

/-- A digit that is there is looked at. -/
theorem parseInt_needMore {α : Type} {status : Nat} {f : Nat → Parser UInt8 PhrResponseNote α}
    (k : Nat) (hmore : (parseInt status >>= f) c = .needMore note) (hk : k + 1 ≤ c.rest.length) :
    ∃ d next, parseInt status c = .done d next ∧ f d next = .needMore note ∧
      k ≤ next.rest.length := by
  rcases Parser.bind_needMore hmore with hdigit | ⟨d, next, hdigit, hrest⟩
  case inl =>
    rcases Parser.bind_needMore hdigit with hnext | ⟨x, middle, -, hlast⟩
    case inl =>
      rw [Parser.next_needMore hnext] at hk
      cases hk
    case inr => split at hlast <;> cases hlast
  case inr =>
    rw [(parseInt_done hdigit).2, List.length_cons] at hk
    exact ⟨d, next, hdigit, hrest, Nat.le_of_succ_le_succ hk⟩

/-- A status code whose three digits are there is read. -/
theorem parseInt3_needMore {α : Type} {f : Nat → Parser UInt8 PhrResponseNote α}
    (hmore : (parseInt3 >>= f) c = .needMore note) (hlong : 3 ≤ c.rest.length) :
    ∃ code next, parseInt3 c = .done code next ∧ f code next = .needMore note := by
  rcases Parser.bind_needMore hmore with hcode | hcode
  case inl =>
    obtain ⟨hundreds, c1, -, h1, hk1⟩ := parseInt_needMore 2 hcode hlong
    obtain ⟨tens, c2, -, h2, hk2⟩ := parseInt_needMore 1 h1 hk1
    obtain ⟨ones, c3, -, h3, -⟩ := parseInt_needMore 0 h2 hk2
    cases h3
  case inr => exact hcode

/-- Behind a status code the parser waits for the rest of a response, or for the end of a line
that it will refuse. -/
theorem parseReason_needMore {minorVersion : Int} {status : Nat}
    (hmore : parseReason maxHeaders minorVersion status c = .needMore note) :
    (∃ more reason eol block headers, IsReason reason ∧ IsLineEnd eol ∧
      HeaderBlock 0 headers block ∧ headers.length ≤ maxHeaders ∧
        c.rest ++ more = reason ++ (eol ++ block)) ∨
      ∃ garbage front, NoCtl garbage ∧ garbage ≠ [] ∧ garbage.head? ≠ some SP ∧
        IsEndFront front ∧ c.rest = garbage ++ front := by
  rcases Parser.bind_needMore hmore with hline | ⟨msg, middle, hline, hrest⟩
  case inl =>
    obtain ⟨note', hline⟩ := Parser.mapNote_needMore hline
    obtain ⟨line, front, hctl, hfront, hsplit⟩ := getTokenToEol_needMore hline
    by_cases hstart : line = [] ∨ line.head? = some SP
    case pos =>
      refine .inl ⟨[LF, LF], line, front ++ [LF], [LF], [], ⟨hctl, hstart⟩, hfront.lineEnd,
        .last (.inr rfl), Nat.zero_le maxHeaders, ?_⟩
      rw [hsplit]
      simp
    case neg =>
      rw [not_or] at hstart
      exact .inr ⟨line, front, hctl, hstart.1, hstart.2, hfront, hsplit⟩
  case inr =>
    obtain ⟨eol, hctl, heol, hsplit⟩ := getTokenToEol_bytes (Parser.mapNote_done _ hline)
    split at hrest
    case isFalse => cases hrest
    case isTrue hstart =>
      rw [Bool.or_eq_true, decide_eq_true_eq, beq_iff_eq] at hstart
      rcases Parser.bind_needMore hrest with hheaders | ⟨_, last, -, hpure⟩
      case inl =>
        obtain ⟨note', hheaders⟩ := Parser.mapNote_needMore hheaders
        obtain ⟨more, headers, hblock, hroom⟩ := block_of_needMore maxHeaders 0 middle hheaders
        refine .inl ⟨more, msg.bytes, eol, middle.rest ++ more, headers, ⟨hctl, hstart⟩, heol,
          hblock, hroom, ?_⟩
        rw [hsplit]
        simp
      case inr => cases hpure

/-- The parser waits for the rest of a response, for the bytes of the version or from the status
code on, or for the end of a line that it will refuse. -/
theorem isResponse_of_needMore (hmore : phrParseResponse text maxHeaders = .needMore note) :
    (∃ more texts, IsResponse maxHeaders texts (text ++ more)) ∨ text.length < 9 ∨
      BeforeStatus text ∨ GarbageLine text := by
  rcases Parser.bind_needMore hmore with hversion | ⟨version, c1, hversion, h1⟩
  case inl =>
    obtain ⟨note', hversion⟩ := Parser.mapNote_needMore hversion
    exact .inr (.inl (parseHttpVersion_needMore hversion))
  case inr =>
    obtain ⟨digit, hdigit, -, htext⟩ := parseHttpVersion_done (Parser.mapNote_done _ hversion)
    change text = versionText digit ++ c1.rest at htext
    rcases Parser.bind_needMore h1 with hpeek | ⟨x, c2, hpeek, h2⟩
    case inl =>
      rw [htext, Parser.peek_needMore hpeek]
      exact .inr (.inl (Nat.lt_succ_self 8))
    case inr =>
      obtain ⟨hhead, hsame⟩ := peek_done hpeek
      subst hsame
      obtain ⟨xs, hxs⟩ := List.head?_eq_some_iff.mp hhead
      split at h2
      case isFalse => cases h2
      case isTrue hx =>
        rcases Parser.bind_needMore h2 with hskip | ⟨_, c3, hskip, h3⟩
        case inl =>
          obtain ⟨note', hskip⟩ := Parser.mapNote_needMore hskip
          have hfront := BeforeStatus.intro digit c2.rest [] hdigit
            (skipSpaces_needMore hxs hx hskip) (Nat.succ_pos 3) (fun c hc => by cases hc)
          rw [List.append_nil, ← htext] at hfront
          exact .inr (.inr (.inl hfront))
        case inr =>
          obtain ⟨spaces, hspaces, hspacesText, hstart⟩ :=
            skipSpaces_done hxs hx (Parser.mapNote_done _ hskip)
          rw [hspacesText] at htext
          by_cases hshort : c3.rest.length < 4
          case pos =>
            rw [htext]
            exact .inr (.inr (.inl (.intro digit spaces c3.rest hdigit hspaces hshort hstart)))
          case neg =>
            have hrequire : Parser.require (⟨0, .null, 0⟩ : PhrResponseNote) 4 c3 = .done () c3 :=
              if_neg hshort
            rw [Parser.bind_of_done hrequire] at h3
            obtain ⟨code, c4, hcode, h4⟩ := parseInt3_needMore h3
              (Nat.le_of_succ_le (Nat.le_of_not_lt hshort))
            obtain ⟨hundreds, tens, ones, hhundreds, htens, hones, -, hcodeText⟩ :=
              parseInt3_done hcode
            rw [hcodeText] at htext
            rcases parseReason_needMore h4 with hreason | hgarbage
            case inl =>
              obtain ⟨more, reason, eol, block, headers, hreason, heol, hblock, hroom, hsplit⟩ :=
                hreason
              obtain ⟨texts, hresponse⟩ : ∃ texts, IsResponse maxHeaders texts
                  (versionText digit ++ (spaces ++ (codeText hundreds tens ones ++
                    (reason ++ (eol ++ block))))) :=
                ⟨_, .intro digit spaces hundreds tens ones reason eol block headers hdigit hspaces
                  hhundreds htens hones hreason heol hblock hroom⟩
              refine .inl ⟨more, texts, ?_⟩
              rw [← hsplit] at hresponse
              rw [htext]
              simpa using hresponse
            case inr =>
              obtain ⟨garbage, front, hctl, hne, hstart', hfront, hsplit⟩ := hgarbage
              rw [htext, hsplit]
              exact .inr (.inr (.inr (.intro digit spaces hundreds tens ones garbage front hdigit
                hspaces hhundreds htens hones hctl hne hstart' hfront)))

theorem needMore_of_short (hshort : text.length < 9) (maxHeaders : Nat) :
    ∃ note, phrParseResponse text maxHeaders = .needMore note := by
  have hrequire : Parser.require 0 9 ⟨0, text⟩ = .needMore 0 := if_pos hshort
  exact ⟨_, Parser.bind_of_needMore
    (Parser.mapNote_of_needMore _ (Parser.bind_of_needMore hrequire))⟩

theorem BeforeStatus.needMore (hfront : BeforeStatus text) (maxHeaders : Nat) :
    ∃ note, phrParseResponse text maxHeaders = .needMore note := by
  obtain ⟨digit, spaces, tail, hdigit, hspaces, htail, hstart⟩ := hfront
  cases tail with
  | nil =>
      obtain ⟨x, xs, hx⟩ := List.exists_cons_of_ne_nil hspaces.1
      obtain rfl : x = SP := hspaces.2 x (by simp [hx])
      obtain ⟨note, hskip⟩ := skipSpaces_waits hspaces 0 (0 + 8)
      rw [List.append_nil]
      rw [hx] at hskip ⊢
      exact ⟨_, (parseResponse_versionText hdigit xs).trans
        (Parser.bind_of_needMore (Parser.mapNote_of_needMore _ hskip))⟩
  | cons y tail =>
      have hrequire : Parser.require (⟨0, .null, 0⟩ : PhrResponseNote) 4
          ⟨0 + 8 + spaces.length, y :: tail⟩ = .needMore ⟨0, .null, 0⟩ := if_pos htail
      exact ⟨_, (parseResponse_spaces maxHeaders hdigit hspaces (hstart y rfl) tail).trans
        (Parser.bind_of_needMore hrequire)⟩

theorem GarbageLine.needMore (hfront : GarbageLine text) (maxHeaders : Nat) :
    ∃ note, phrParseResponse text maxHeaders = .needMore note := by
  obtain ⟨digit, spaces, hundreds, tens, ones, garbage, front, hdigit, hspaces, hhundreds, htens,
    hones, hgarbage, hne, -, hend⟩ := hfront
  have hcode := parseResponse_code maxHeaders hdigit hspaces hhundreds htens hones
    (List.append_ne_nil_of_left_ne_nil hne front)
  obtain ⟨note, hline⟩ := getTokenToEol_waits hgarbage hend 0 (0 + 8 + spaces.length + 3)
  exact ⟨_, hcode.trans (Parser.bind_of_needMore (Parser.mapNote_of_needMore _ hline))⟩

/-- `phr_parse_response` asks for more exactly on the proper front parts of responses, on the texts
that end before the nine bytes of the version or the four bytes from the status code on are there,
and on a status line with garbage behind its code that does not end yet. -/
theorem phrParseResponse_needMore_iff :
    (∃ note, phrParseResponse text maxHeaders = .needMore note) ↔
      ResponseFront maxHeaders text ∨ text.length < 9 ∨ BeforeStatus text ∨ GarbageLine text := by
  constructor
  · rintro ⟨note, hmore⟩
    rcases isResponse_of_needMore hmore with ⟨more, texts, hresponse⟩ | hother
    case inl =>
      refine .inl ⟨more, texts, ?_, hresponse⟩
      rintro rfl
      obtain ⟨response, next, hdone, -, -⟩ := phrParseResponse_of_isResponse hresponse []
      rw [List.append_nil, List.append_nil, hmore] at hdone
      cases hdone
    case inr => exact .inr hother
  · rintro (⟨more, texts, hne, hresponse⟩ | hshort | hstatus | hgarbage)
    · obtain ⟨response, next, hdone, hrest, -⟩ := phrParseResponse_of_isResponse hresponse []
      rw [List.append_nil] at hdone
      exact Outcome.isNeedMore_iff.mp
        ((isIncremental_parseResponse maxHeaders).isNeedMore_of_cut hdone hrest hne)
    · exact needMore_of_short hshort maxHeaders
    · exact hstatus.needMore maxHeaders
    · exact hgarbage.needMore maxHeaders

end Response

end GameDemoLearn.Net.Http
