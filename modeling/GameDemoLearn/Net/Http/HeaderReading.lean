import GameDemoLearn.Lib.Lines
import GameDemoLearn.Net.Http.HttpCommon
import GameDemoLearn.Net.Http.PicoHttpParser

/-!
How the functions of `picohttpparser.c` read header lines that are given piece by piece:
a line up to its end, a name up to its value, the lines of a header block one after
another.
-/

namespace GameDemoLearn.Net.Http

open Incremental

/-- No character that ends a header value. -/
def NoCtl (text : Bytes) : Prop := ∀ c ∈ text, isCtl c = false

/-- The two ends of a line. -/
def IsLineEnd (eol : Bytes) : Prop := eol = CRLF ∨ eol = [LF]

theorem noCtl_of_isPrint {text : Bytes} (htext : ∀ c ∈ text, Util.isPrint c = true) :
    NoCtl text := by
  intro c hc
  have hprint := htext c hc
  simp only [Util.isPrint, Bool.and_eq_true, decide_eq_true_eq, UInt8.le_iff_toNat_le,
    UInt8.lt_iff_toNat_lt, UInt8.reduceToNat] at hprint
  have hlow : ¬ c < SP := by
    rw [UInt8.lt_iff_toNat_lt]
    exact Nat.not_lt.mpr hprint.1
  have hhigh : c ≠ DEL := by
    rintro rfl
    exact absurd hprint.2 (by decide)
  simp [isCtl, hlow, hhigh]

theorem NoCtl.append {text text' : Bytes} (h : NoCtl text) (h' : NoCtl text') :
    NoCtl (text ++ text') :=
  List.forall_mem_append.mpr ⟨h, h'⟩

section Read

variable {line eol : Bytes} {numHeaders : Nat}

theorem expectChar_cons (numHeaders : Nat) (ch : UInt8) (pos : Nat) (rest : Bytes) :
    expectChar numHeaders ch ⟨pos, ch :: rest⟩ = .done () ⟨pos + 1, rest⟩ := by
  have hnext : Parser.next numHeaders ⟨pos, ch :: rest⟩ = .done ch ⟨pos + 1, rest⟩ := rfl
  rw [expectChar, Parser.bind_of_done hnext, if_pos rfl]
  rfl

theorem lineEnd_append (heol : IsLineEnd eol) (numHeaders pos : Nat) (rest : Bytes) :
    lineEnd numHeaders ⟨pos, eol ++ rest⟩ = .done () ⟨pos + eol.length, rest⟩ := by
  rcases heol with rfl | rfl
  · exact expectChar_cons numHeaders LF (pos + 1) rest
  · rfl

theorem lineEnd_done {c next : Cursor UInt8} {value : Unit}
    (hdone : lineEnd numHeaders c = .done value next) :
    ∃ eol, IsLineEnd eol ∧ c.rest = eol ++ next.rest := by
  obtain ⟨first, middle, hfirst, hsecond⟩ := Parser.bind_done hdone
  obtain ⟨pos, rest⟩ := c
  cases rest with
  | nil => cases hfirst
  | cons x xs =>
      cases hfirst
      split at hsecond
      · next hcr =>
          obtain ⟨second, last, hnext, hlast⟩ := Parser.bind_done hsecond
          cases xs with
          | nil => cases hnext
          | cons y ys =>
              cases hnext
              split at hlast
              · next hlf =>
                  cases hlast
                  exact ⟨CRLF, .inl rfl, by rw [hcr, hlf]; rfl⟩
              · cases hlast
      · split at hsecond
        · next hlf =>
            cases hsecond
            exact ⟨[LF], .inr rfl, by rw [hlf]; rfl⟩
        · cases hsecond

theorem isCtl_of_lineEnd {c : UInt8} (hc : c = CR ∨ c = LF) : isCtl c = true := by
  rcases hc with rfl | rfl <;> rfl

theorem IsLineEnd.exists_cons (heol : IsLineEnd eol) :
    ∃ c eol', eol = c :: eol' ∧ (c = CR ∨ c = LF) := by
  rcases heol with rfl | rfl
  · exact ⟨CR, [LF], rfl, .inl rfl⟩
  · exact ⟨LF, [], rfl, .inr rfl⟩

theorem getTokenToEol_append (hline : NoCtl line) (heol : IsLineEnd eol) (numHeaders pos : Nat)
    (rest : Bytes) :
    getTokenToEol numHeaders ⟨pos, line ++ (eol ++ rest)⟩
      = .done ⟨pos, line⟩ ⟨pos + line.length + eol.length, rest⟩ := by
  have hscan : scanToken numHeaders isCtl (fun _ => false) ⟨pos, line ++ (eol ++ rest)⟩
      = .done ⟨pos, line⟩ ⟨pos + line.length, eol ++ rest⟩ := by
    obtain ⟨c, eol', rfl, hc⟩ := heol.exists_cons
    have htaken : Parser.scan numHeaders isCtl (fun _ => false) ⟨pos, line ++ c :: (eol' ++ rest)⟩
        = .done line ⟨pos + line.length, c :: (eol' ++ rest)⟩ :=
      Parser.scan_append numHeaders (fun y hy => ⟨hline y hy, rfl⟩) (isCtl_of_lineEnd hc) _ pos
    have hposition : (Parser.position : PhrParser Nat) ⟨pos, line ++ c :: (eol' ++ rest)⟩
        = .done pos ⟨pos, line ++ c :: (eol' ++ rest)⟩ := rfl
    rw [List.cons_append, scanToken, Parser.bind_of_done hposition, Parser.bind_of_done htaken]
    rfl
  rw [getTokenToEol, Parser.bind_of_done hscan,
    Parser.bind_of_done (lineEnd_append heol numHeaders _ rest)]
  rfl

theorem scanToken_done {stop bad : UInt8 → Bool} {c next : Cursor UInt8} {token : StringView}
    (hdone : scanToken numHeaders stop bad c = .done token next) :
    c.rest = token.bytes ++ next.rest ∧
      (∀ x ∈ token.bytes, stop x = false ∧ bad x = false) ∧
        ∃ x xs, next.rest = x :: xs ∧ stop x = true := by
  obtain ⟨offset, middle, hposition, hscan⟩ := Parser.bind_done hdone
  cases hposition
  obtain ⟨bytes, last, hbytes, htoken⟩ := Parser.bind_done hscan
  cases htoken
  exact ⟨(IsIncremental.scanFrom_forward _ _ _ _ _ _ _ hbytes).1,
    IsIncremental.scanFrom_taken _ _ _ _ _ _ _ hbytes,
    IsIncremental.scanFrom_stop _ _ _ _ _ _ _ hbytes⟩

theorem getTokenToEol_done {c next : Cursor UInt8} {value : StringView}
    (hdone : getTokenToEol numHeaders c = .done value next) :
    ∃ line eol, NoCtl line ∧ IsLineEnd eol ∧ c.rest = line ++ (eol ++ next.rest) := by
  obtain ⟨token, middle, hscan, hrest⟩ := Parser.bind_done hdone
  obtain ⟨_, last, heol, hvalue⟩ := Parser.bind_done hrest
  cases hvalue
  obtain ⟨hsplit, htoken, -⟩ := scanToken_done hscan
  obtain ⟨eol, hends, hmiddle⟩ := lineEnd_done heol
  exact ⟨value.bytes, eol, fun x hx => (htoken x hx).1, hends, by rw [hsplit, hmiddle]⟩

/-- A name, its colon and blanks are read up to the next character. -/
theorem parseHeaderName_append {name blanks : Bytes} {x : UInt8} (hne : name ≠ [])
    (hname : ∀ c ∈ name, isTokenChar c = true) (hblanks : ∀ c ∈ blanks, isBlank c = true)
    (hx : isBlank x = false) (numHeaders pos : Nat) (rest : Bytes) :
    parseHeaderName numHeaders ⟨pos, name ++ 58 :: (blanks ++ x :: rest)⟩
      = .done ⟨pos, name⟩ ⟨pos + name.length + 1 + blanks.length, x :: rest⟩ := by
  have htoken : parseToken numHeaders 58 ⟨pos, name ++ 58 :: (blanks ++ x :: rest)⟩
      = .done ⟨pos, name⟩ ⟨pos + name.length, 58 :: (blanks ++ x :: rest)⟩ := by
    have htaken : ∀ y ∈ name, (y == 58) = false ∧ (!isTokenChar y) = false := by
      intro y hy
      rw [hname y hy]
      refine ⟨?_, rfl⟩
      rw [beq_eq_false_iff_ne]
      rintro rfl
      exact Bool.noConfusion (hname 58 hy)
    have hscan := Parser.scan_append numHeaders htaken (beq_self_eq_true (58 : UInt8))
      (blanks ++ x :: rest) pos
    have hposition : (Parser.position : PhrParser Nat) ⟨pos, name ++ 58 :: (blanks ++ x :: rest)⟩
        = .done pos ⟨pos, name ++ 58 :: (blanks ++ x :: rest)⟩ := rfl
    rw [parseToken, scanToken, Parser.bind_of_done hposition, Parser.bind_of_done hscan]
    rfl
  have hcolon : Parser.next numHeaders ⟨pos + name.length, 58 :: (blanks ++ x :: rest)⟩
      = .done (58 : UInt8) ⟨pos + name.length + 1, blanks ++ x :: rest⟩ := rfl
  have hskip : Parser.scan numHeaders (fun c => !isBlank c) (fun _ => false)
      ⟨pos + name.length + 1, blanks ++ x :: rest⟩
        = .done blanks ⟨pos + name.length + 1 + blanks.length, x :: rest⟩ := by
    apply Parser.scan_append
    · intro y hy
      rw [hblanks y hy]
      exact ⟨rfl, rfl⟩
    · rw [hx]
      rfl
  rw [parseHeaderName, Parser.bind_of_done htoken, if_neg hne, Parser.bind_of_done hcolon,
    Parser.bind_of_done hskip]
  rfl

theorem parseHeaderName_done {c next : Cursor UInt8} {value : StringView}
    (hdone : parseHeaderName numHeaders c = .done value next) :
    ∃ name blanks, name ≠ [] ∧ (∀ x ∈ name, isTokenChar x = true) ∧
      (∀ x ∈ blanks, isBlank x = true) ∧ c.rest = name ++ 58 :: (blanks ++ next.rest) := by
  obtain ⟨token, middle, hscan, hrest⟩ := Parser.bind_done hdone
  obtain ⟨hsplit, htoken, x, xs, hcolon, hx⟩ := scanToken_done hscan
  obtain rfl : x = 58 := beq_iff_eq.mp hx
  split at hrest
  · cases hrest
  · next hne =>
      obtain ⟨_, last, hnext, hskip⟩ := Parser.bind_done hrest
      obtain ⟨blanks, final, hblanks, hvalue⟩ := Parser.bind_done hskip
      cases hvalue
      obtain ⟨pos, rest⟩ := middle
      obtain rfl : rest = 58 :: xs := hcolon
      cases hnext
      refine ⟨value.bytes, blanks, hne, fun y hy => ?_, fun y hy => ?_, ?_⟩
      · simpa using (htoken y hy).2
      · simpa using (IsIncremental.scanFrom_taken _ _ _ _ _ _ _ hblanks y hy).1
      · have hforward : xs = blanks ++ next.rest :=
          (IsIncremental.scanFrom_forward _ _ _ _ _ _ _ hblanks).1
        rw [hsplit, hforward]

end Read

section Block

/-- Behind the name of a header line: the value, and the header lines that follow it,
are read and `k` characters are left. -/
def LineLeaves (room numHeaders : Nat) (c : Cursor UInt8) (k : Nat) : Prop :=
  ∃ value next, getTokenToEol numHeaders c = .done value next ∧
    (parseHeaders room (numHeaders + 1)).Leaves next k

variable {room numHeaders pos k : Nat} {line eol rest : Bytes}

theorem lineLeaves_append (hline : NoCtl line) (heol : IsLineEnd eol) :
    LineLeaves room numHeaders ⟨pos, line ++ (eol ++ rest)⟩ k ↔
      (parseHeaders room (numHeaders + 1)).Leaves
        ⟨pos + line.length + eol.length, rest⟩ k := by
  rw [LineLeaves, getTokenToEol_append hline heol]
  simp

/-- The line that is read. -/
theorem LineLeaves.exists_line (hleaves : LineLeaves room numHeaders ⟨pos, rest⟩ k) :
    ∃ line eol rest', NoCtl line ∧ IsLineEnd eol ∧ rest = line ++ (eol ++ rest') := by
  obtain ⟨value, next, hdone, -⟩ := hleaves
  obtain ⟨line, eol, hline, heol, hsplit⟩ := getTokenToEol_done hdone
  exact ⟨line, eol, next.rest, hline, heol, hsplit⟩

/-- A character of the value does not change what comes behind the line. -/
theorem lineLeaves_cons {x : UInt8} (hx : isCtl x = false) :
    LineLeaves room numHeaders ⟨pos, x :: rest⟩ k ↔
      LineLeaves room numHeaders ⟨pos + 1, rest⟩ k := by
  have hline : ∀ {line eol rest' : Bytes}, NoCtl line → IsLineEnd eol →
      (LineLeaves room numHeaders ⟨pos, x :: (line ++ (eol ++ rest'))⟩ k ↔
        LineLeaves room numHeaders ⟨pos + 1, line ++ (eol ++ rest')⟩ k) := by
    intro line eol rest' hline heol
    have hlonger : NoCtl (x :: line) := List.forall_mem_cons.mpr ⟨hx, hline⟩
    have hpos : pos + (line.length + 1) + eol.length = pos + 1 + line.length + eol.length := by
      omega
    rw [lineLeaves_append hline heol, ← List.cons_append, lineLeaves_append hlonger heol,
      List.length_cons, hpos]
  constructor
  · intro hleaves
    obtain ⟨line, eol, rest', hlonger, heol, hsplit⟩ := hleaves.exists_line
    cases line with
    | nil =>
        obtain ⟨c, eol', rfl, hc⟩ := heol.exists_cons
        obtain rfl : x = c := (List.cons.inj hsplit).1
        exact absurd (isCtl_of_lineEnd hc) (by rw [hx]; exact Bool.false_ne_true)
    | cons y line =>
        obtain ⟨rfl, rfl⟩ := List.cons.inj hsplit
        exact (hline (List.forall_mem_cons.mp hlonger).2 heol).mp hleaves
  · intro hleaves
    obtain ⟨line, eol, rest', hshorter, heol, rfl⟩ := hleaves.exists_line
    exact (hline hshorter heol).mpr hleaves

theorem lineLeaves_skip {front : Bytes} (hfront : NoCtl front) :
    LineLeaves room numHeaders ⟨pos, front ++ rest⟩ k ↔
      LineLeaves room numHeaders ⟨pos + front.length, rest⟩ k := by
  induction front generalizing pos with
  | nil => rfl
  | cons x front ih =>
      obtain ⟨hx, hfront⟩ := List.forall_mem_cons.mp hfront
      rw [List.cons_append, lineLeaves_cons hx, ih hfront, List.length_cons]
      rw [Nat.add_assoc, Nat.add_comm 1]

/-- An empty line ends the headers. -/
theorem leaves_lineEnd {c : UInt8} (hc : c = CR ∨ c = LF) :
    (parseHeaders room numHeaders).Leaves ⟨pos, c :: rest⟩ k ↔
      (lineEnd numHeaders).Leaves ⟨pos, c :: rest⟩ k := by
  have hpeek : Parser.peek numHeaders ⟨pos, c :: rest⟩ = .done c ⟨pos, c :: rest⟩ := rfl
  have hstop : (decide (c = CR) || decide (c = LF)) = true := by
    simpa using hc
  cases room with
  | zero =>
      rw [parseHeaders, Parser.leaves_bind_of_done hpeek, if_pos hstop]
      exact Parser.leaves_bind_pure fun _ => []
  | succ room =>
      rw [parseHeaders, Parser.leaves_bind_of_done hpeek, if_pos hstop]
      exact Parser.leaves_bind_pure fun _ => []

theorem leaves_emptyLine (heol : IsLineEnd eol) :
    (parseHeaders room numHeaders).Leaves ⟨pos, eol ++ rest⟩ k ↔ rest.length = k := by
  have hread := lineEnd_append heol numHeaders pos rest
  obtain ⟨c, eol', rfl, hc⟩ := heol.exists_cons
  rw [List.cons_append] at hread ⊢
  rw [leaves_lineEnd hc, Parser.Leaves, hread]
  simp

/-- A line that is not empty is a header line, and there has to be room for it. -/
theorem leaves_nonempty {x : UInt8} (hx : ¬ (x = CR ∨ x = LF)) :
    (parseHeaders room numHeaders).Leaves ⟨pos, x :: rest⟩ k ↔
      ∃ room', room = room' + 1 ∧ ∃ name next,
        parseLineName numHeaders ⟨pos, x :: rest⟩ = .done name next ∧
          LineLeaves room' numHeaders next k := by
  have hpeek : Parser.peek numHeaders ⟨pos, x :: rest⟩ = .done x ⟨pos, x :: rest⟩ := rfl
  have hgo : ¬ (decide (x = CR) || decide (x = LF)) = true := by
    simpa using hx
  cases room with
  | zero =>
      rw [parseHeaders, Parser.leaves_bind_of_done hpeek, if_neg hgo]
      constructor
      · intro hleaves
        exact absurd hleaves (Parser.not_leaves_fail numHeaders)
      · rintro ⟨room', hroom, -⟩
        cases hroom
  | succ room =>
      rw [parseHeaders, Parser.leaves_bind_of_done hpeek, if_neg hgo, Parser.leaves_bind]
      constructor
      · rintro ⟨header, middle, hheader, hrest⟩
        rw [Parser.leaves_bind_pure] at hrest
        obtain ⟨name, next, hname, hline⟩ := Parser.bind_done hheader
        obtain ⟨value, last, hvalue, hlast⟩ := Parser.bind_done hline
        cases hlast
        exact ⟨room, rfl, name, next, hname, value, middle, hvalue, hrest⟩
      · rintro ⟨room', hroom, name, next, hname, value, last, hvalue, hrest⟩
        cases hroom
        have hheader : parseHeaderLine numHeaders ⟨pos, x :: rest⟩
            = .done ⟨name, { value with bytes := value.bytes.rdropWhile isBlank }⟩ last := by
          rw [parseHeaderLine, Parser.bind_of_done hname, Parser.bind_of_done hvalue]
          rfl
        exact ⟨_, last, hheader, (Parser.leaves_bind_pure _).mpr hrest⟩

/-- The characters of names are no blanks and no control characters. -/
theorem isTokenChar_start {x : UInt8} (hx : isTokenChar x = true) :
    isBlank x = false ∧ isCtl x = false := by
  have hall : ∀ n < 256, isTokenChar (UInt8.ofNat n) = true →
      isBlank (UInt8.ofNat n) = false ∧ isCtl (UInt8.ofNat n) = false := by decide +kernel
  have hcase := hall x.toNat x.toNat_lt
  rw [UInt8.ofNat_toNat] at hcase
  exact hcase hx

theorem isCtl_of_isBlank {x : UInt8} (hx : isBlank x = true) : isCtl x = false := by
  have hcases : x = SP ∨ x = HT := by
    simpa [isBlank] using hx
  rcases hcases with rfl | rfl <;> rfl

theorem not_lineEnd_of_isCtl {x : UInt8} (hx : isCtl x = false) : ¬ (x = CR ∨ x = LF) := by
  intro hend
  rw [isCtl_of_lineEnd hend] at hx
  cases hx

/-- A header line with a name, in front of text that is not all blanks. -/
theorem leaves_field {name : Bytes} (hne : name ≠ []) (hname : ∀ c ∈ name, isTokenChar c = true)
    (hrest : ∃ x ∈ rest, isBlank x = false) :
    (parseHeaders (room + 1) numHeaders).Leaves ⟨pos, name ++ 58 :: rest⟩ k ↔
      LineLeaves room numHeaders ⟨pos + name.length + 1, rest⟩ k := by
  obtain ⟨c, name', rfl⟩ := List.exists_cons_of_ne_nil hne
  obtain ⟨hblank, hctl⟩ := isTokenChar_start (hname c List.mem_cons_self)
  -- The blanks before the value are skipped together with the colon.
  obtain ⟨x, rest', hdrop⟩ : ∃ x rest', rest.dropWhile isBlank = x :: rest' := by
    apply List.exists_cons_of_ne_nil
    rw [ne_eq, List.dropWhile_eq_nil_iff]
    intro hall
    obtain ⟨y, hy, hyblank⟩ := hrest
    rw [hall y hy] at hyblank
    cases hyblank
  have hx : isBlank x = false := by
    have hhead := List.head?_dropWhile_not isBlank rest
    rw [hdrop] at hhead
    simpa using hhead
  have hsplit : rest = rest.takeWhile isBlank ++ x :: rest' := by
    rw [← hdrop, List.takeWhile_append_dropWhile]
  have hblanks : ∀ y ∈ rest.takeWhile isBlank, isBlank y = true := fun y hy =>
    List.mem_takeWhile_imp hy
  have hread := parseHeaderName_append hne hname hblanks hx numHeaders pos rest'
  rw [← hsplit] at hread
  have hline : parseLineName numHeaders ⟨pos, c :: name' ++ 58 :: rest⟩
      = .done ⟨pos, c :: name'⟩ ⟨pos + (c :: name').length + 1
        + (rest.takeWhile isBlank).length, x :: rest'⟩ := by
    have hpeek : Parser.peek numHeaders ⟨pos, c :: name' ++ 58 :: rest⟩
        = .done c ⟨pos, c :: name' ++ 58 :: rest⟩ := rfl
    rw [parseLineName, Parser.bind_of_done hpeek, hblank]
    simpa using hread
  have hskip : LineLeaves room numHeaders ⟨pos + (c :: name').length + 1, rest⟩ k ↔
      LineLeaves room numHeaders ⟨pos + (c :: name').length + 1
        + (rest.takeWhile isBlank).length, x :: rest'⟩ k := by
    have hnoCtl : NoCtl (rest.takeWhile isBlank) := fun y hy => isCtl_of_isBlank (hblanks y hy)
    rw [← lineLeaves_skip hnoCtl, ← hsplit]
  rw [hskip, List.cons_append, leaves_nonempty (not_lineEnd_of_isCtl hctl)]
  constructor
  · rintro ⟨room', hroom, value, next, hdone, hleaves⟩
    cases hroom
    rw [← List.cons_append, hline] at hdone
    cases hdone
    exact hleaves
  · intro hleaves
    exact ⟨room, rfl, _, _, hline, hleaves⟩

/-- A line that starts with a blank goes on with the header before it. -/
theorem leaves_folded {x : UInt8} (hx : isBlank x = true) (hsome : numHeaders ≠ 0) :
    (parseHeaders (room + 1) numHeaders).Leaves ⟨pos, x :: rest⟩ k ↔
      LineLeaves room numHeaders ⟨pos, x :: rest⟩ k := by
  have hline : parseLineName numHeaders ⟨pos, x :: rest⟩ = .done .null ⟨pos, x :: rest⟩ := by
    have hpeek : Parser.peek numHeaders ⟨pos, x :: rest⟩ = .done x ⟨pos, x :: rest⟩ := rfl
    rw [parseLineName, Parser.bind_of_done hpeek, hx, bne_iff_ne.mpr hsome]
    rfl
  rw [leaves_nonempty (not_lineEnd_of_isCtl (isCtl_of_isBlank hx))]
  constructor
  · rintro ⟨room', hroom, value, next, hdone, hleaves⟩
    cases hroom
    rw [hline] at hdone
    cases hdone
    exact hleaves
  · intro hleaves
    exact ⟨room, rfl, _, _, hline, hleaves⟩

end Block

end GameDemoLearn.Net.Http
