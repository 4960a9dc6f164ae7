import Mathlib.Tactic

/-!
Incremental parsers. A parser reads symbols at a cursor and either is done, with
a value and the cursor behind what it read, or fails, or asks for more input.
The last two carry a note of how far it came. A parser is incremental when more
input at the end changes no answer other than the request for it; this holds of
the primitive parsers and is kept by sequencing and branching.
-/

namespace Incremental

variable {β ε ε' α γ : Type}

/-- A position in a text and the symbols from there on. -/
structure Cursor (β : Type) where
  pos : Nat
  rest : List β

def Cursor.append (c : Cursor β) (more : List β) : Cursor β := ⟨c.pos, c.rest ++ more⟩

inductive Outcome (β ε α : Type)
  | done (value : α) (next : Cursor β)
  | needMore (note : ε)
  | fail (note : ε)

/-- The outcome when more symbols follow the text. -/
def Outcome.append (more : List β) : Outcome β ε α → Outcome β ε α
  | .done value next => .done value (next.append more)
  | outcome => outcome

def Outcome.isNeedMore : Outcome β ε α → Bool
  | .needMore _ => true
  | _ => false

theorem Outcome.isNeedMore_iff {outcome : Outcome β ε α} :
    outcome.isNeedMore = true ↔ ∃ note, outcome = .needMore note := by
  cases outcome <;> simp [isNeedMore]

def Parser (β ε α : Type) := Cursor β → Outcome β ε α

namespace Parser

def parse (p : Parser β ε α) (text : List β) : Outcome β ε α := p ⟨0, text⟩

def bind (p : Parser β ε α) (f : α → Parser β ε γ) : Parser β ε γ := fun c =>
  match p c with
  | .done value next => f value next
  | .needMore note => .needMore note
  | .fail note => .fail note

instance : Monad (Parser β ε) where
  pure value := fun c => .done value c
  bind := bind

def fail (note : ε) : Parser β ε α := fun _ => .fail note

def position : Parser β ε Nat := fun c => .done c.pos c

/-- The symbol at the cursor, which stays. -/
def peek (note : ε) : Parser β ε β := fun c =>
  match c.rest with
  | [] => .needMore note
  | x :: _ => .done x c

/-- The symbol at the cursor, which moves on. -/
def next (note : ε) : Parser β ε β := fun c =>
  match c.rest with
  | [] => .needMore note
  | x :: xs => .done x ⟨c.pos + 1, xs⟩

/-- At least `n` symbols are there. -/
def require (note : ε) (n : Nat) : Parser β ε Unit := fun c =>
  if c.rest.length < n then .needMore note else .done () c

def scanFrom (note : ε) (stop bad : β → Bool) (pos : Nat) : List β → Outcome β ε (List β)
  | [] => .needMore note
  | x :: xs =>
      if stop x then
        .done [] ⟨pos, x :: xs⟩
      else if bad x then
        .fail note
      else
        match scanFrom note stop bad (pos + 1) xs with
        | .done taken next => .done (x :: taken) next
        | outcome => outcome

/-- The symbols up to the first one to stop at, none of them bad. -/
def scan (note : ε) (stop bad : β → Bool) : Parser β ε (List β) := fun c =>
  scanFrom note stop bad c.pos c.rest

/-- The same parser with notes of another kind. -/
def mapNote (g : ε → ε') (p : Parser β ε α) : Parser β ε' α := fun c =>
  match p c with
  | .done value next => .done value next
  | .needMore note => .needMore (g note)
  | .fail note => .fail (g note)

theorem mapNote_of_done (g : ε → ε') {p : Parser β ε α} {c c' : Cursor β} {value : α}
    (hdone : p c = .done value c') :
    p.mapNote g c = .done value c' := by
  rw [mapNote, hdone]

theorem mapNote_done (g : ε → ε') {p : Parser β ε α} {c c' : Cursor β} {value : α}
    (hdone : p.mapNote g c = .done value c') :
    p c = .done value c' := by
  unfold mapNote at hdone
  cases hc : p c with
  | done v next =>
      rw [hc] at hdone
      cases hdone
      rfl
  | needMore note =>
      rw [hc] at hdone
      cases hdone
  | fail note =>
      rw [hc] at hdone
      cases hdone

/-- A sequence that is done was done with its first parser. -/
theorem bind_done {p : Parser β ε α} {f : α → Parser β ε γ} {c next : Cursor β} {value : γ}
    (h : (p >>= f) c = .done value next) :
    ∃ v middle, p c = .done v middle ∧ f v middle = .done value next := by
  change Parser.bind p f c = .done value next at h
  unfold Parser.bind at h
  cases hc : p c with
  | done v middle =>
      rw [hc] at h
      exact ⟨v, middle, rfl, h⟩
  | needMore note =>
      rw [hc] at h
      cases h
  | fail note =>
      rw [hc] at h
      cases h

/-- A sequence that waits does so in one of its parsers. -/
theorem bind_needMore {p : Parser β ε α} {f : α → Parser β ε γ} {c : Cursor β} {note : ε}
    (h : (p >>= f) c = .needMore note) :
    p c = .needMore note ∨ ∃ v middle, p c = .done v middle ∧ f v middle = .needMore note := by
  change Parser.bind p f c = .needMore note at h
  unfold Parser.bind at h
  cases hc : p c with
  | done v middle =>
      rw [hc] at h
      exact .inr ⟨v, middle, rfl, h⟩
  | needMore note' =>
      rw [hc] at h
      cases h
      exact .inl rfl
  | fail note' =>
      rw [hc] at h
      cases h

theorem mapNote_needMore {g : ε → ε'} {p : Parser β ε α} {c : Cursor β} {note : ε'}
    (h : p.mapNote g c = .needMore note) : ∃ note', p c = .needMore note' := by
  unfold mapNote at h
  cases hc : p c with
  | done v next =>
      rw [hc] at h
      cases h
  | needMore note' => exact ⟨note', rfl⟩
  | fail note' =>
      rw [hc] at h
      cases h

theorem mapNote_of_needMore (g : ε → ε') {p : Parser β ε α} {c : Cursor β} {note : ε}
    (h : p c = .needMore note) : p.mapNote g c = .needMore (g note) := by
  rw [mapNote, h]

theorem peek_needMore {note note' : ε} {c : Cursor β}
    (h : (peek note : Parser β ε β) c = .needMore note') : c.rest = [] := by
  obtain ⟨pos, rest⟩ := c
  cases rest with
  | nil => rfl
  | cons x xs => cases h

theorem next_needMore {note note' : ε} {c : Cursor β}
    (h : (next note : Parser β ε β) c = .needMore note') : c.rest = [] := by
  obtain ⟨pos, rest⟩ := c
  cases rest with
  | nil => rfl
  | cons x xs => cases h

theorem scanFrom_cons_done {note : ε} {stop bad : β → Bool} {pos : Nat} {x : β}
    {xs taken : List β} {next : Cursor β}
    (hdone : scanFrom note stop bad pos (x :: xs) = .done taken next) :
    (stop x = true ∧ taken = [] ∧ next = ⟨pos, x :: xs⟩) ∨
      (stop x = false ∧ bad x = false ∧ ∃ taken', taken = x :: taken' ∧
        scanFrom note stop bad (pos + 1) xs = .done taken' next) := by
  simp only [scanFrom] at hdone
  split at hdone
  · next hstop =>
      cases hdone
      exact .inl ⟨hstop, rfl, rfl⟩
  · next hstop =>
      split at hdone
      · cases hdone
      · next hbad =>
          split at hdone
          · next taken' next' hrest =>
              cases hdone
              exact .inr ⟨Bool.eq_false_iff.mpr hstop, Bool.eq_false_iff.mpr hbad, taken', rfl,
                hrest⟩
          · next hrest => exact absurd hdone (hrest taken next)

end Parser

/-- The two laws: more input changes only a request for it, and a parser that is
done has moved over a front part of its input. -/
structure IsIncremental (p : Parser β ε α) : Prop where
  append : ∀ c more, (p c).isNeedMore = false → p (c.append more) = (p c).append more
  forward : ∀ c value next, p c = .done value next →
    ∃ used, c.rest = used ++ next.rest ∧ next.pos = c.pos + used.length

namespace IsIncremental

theorem pure (value : α) : IsIncremental (Pure.pure value : Parser β ε α) where
  append _ _ _ := rfl
  forward c v next h := by
    cases h
    exact ⟨[], rfl, rfl⟩

theorem bind {p : Parser β ε α} {f : α → Parser β ε γ} (hp : IsIncremental p)
    (hf : ∀ value, IsIncremental (f value)) : IsIncremental (p >>= f) where
  append c more hready := by
    change Parser.bind p f (c.append more) = (Parser.bind p f c).append more
    change (Parser.bind p f c).isNeedMore = false at hready
    unfold Parser.bind at hready ⊢
    cases hc : p c with
    | done value next =>
        rw [hc] at hready
        have happend := hp.append c more (by rw [hc]; rfl)
        rw [happend, hc]
        exact (hf value).append next more hready
    | needMore note =>
        rw [hc] at hready
        cases hready
    | fail note =>
        have happend := hp.append c more (by rw [hc]; rfl)
        rw [happend, hc]
        rfl
  forward c value next h := by
    obtain ⟨v, middle, hc, hrest⟩ := Parser.bind_done h
    obtain ⟨first, hfirst, hpos⟩ := hp.forward c v middle hc
    obtain ⟨second, hsecond, hpos'⟩ := (hf v).forward middle value next hrest
    refine ⟨first ++ second, ?_, ?_⟩
    · rw [hfirst, hsecond, List.append_assoc]
    · rw [hpos', hpos, List.length_append, Nat.add_assoc]

theorem fail (note : ε) : IsIncremental (Parser.fail note : Parser β ε α) where
  append _ _ _ := rfl
  forward c value next h := by cases h

theorem position : IsIncremental (Parser.position : Parser β ε Nat) where
  append _ _ _ := rfl
  forward c value next h := by
    cases h
    exact ⟨[], rfl, rfl⟩

theorem peek (note : ε) : IsIncremental (Parser.peek note : Parser β ε β) where
  append c more hready := by
    obtain ⟨pos, rest⟩ := c
    cases rest with
    | nil => cases hready
    | cons x xs => rfl
  forward c value next h := by
    obtain ⟨pos, rest⟩ := c
    cases rest with
    | nil => cases h
    | cons x xs =>
        cases h
        exact ⟨[], rfl, rfl⟩

theorem next (note : ε) : IsIncremental (Parser.next note : Parser β ε β) where
  append c more hready := by
    obtain ⟨pos, rest⟩ := c
    cases rest with
    | nil => cases hready
    | cons x xs => rfl
  forward c value next h := by
    obtain ⟨pos, rest⟩ := c
    cases rest with
    | nil => cases h
    | cons x xs =>
        cases h
        exact ⟨[value], rfl, rfl⟩

theorem require (note : ε) (n : Nat) : IsIncremental (Parser.require note n : Parser β ε Unit) where
  append c more hready := by
    unfold Parser.require at hready ⊢
    split at hready
    · cases hready
    · next henough =>
        have hmore : ¬ (c.append more).rest.length < n := by
          simp only [Cursor.append, List.length_append]
          omega
        rw [if_neg hmore, if_neg henough]
        rfl
  forward c value next h := by
    unfold Parser.require at h
    split at h
    · cases h
    · cases h
      exact ⟨[], rfl, rfl⟩

theorem scanFrom_append (note : ε) (stop bad : β → Bool) (xs more : List β) :
    ∀ pos, (Parser.scanFrom note stop bad pos xs).isNeedMore = false →
      Parser.scanFrom note stop bad pos (xs ++ more)
        = (Parser.scanFrom note stop bad pos xs).append more := by
  induction xs with
  | nil =>
      intro pos hready
      cases hready
  | cons x xs ih =>
      intro pos hready
      simp only [Parser.scanFrom, List.cons_append] at hready ⊢
      split
      · rfl
      · next hstop =>
          rw [if_neg hstop] at hready
          split
          · rfl
          · next hbad =>
              rw [if_neg hbad] at hready
              cases hrest : Parser.scanFrom note stop bad (pos + 1) xs with
              | done taken next =>
                  rw [ih (pos + 1) (by rw [hrest]; rfl), hrest]
                  rfl
              | needMore note =>
                  rw [hrest] at hready
                  cases hready
              | fail note =>
                  rw [ih (pos + 1) (by rw [hrest]; rfl), hrest]
                  rfl

/-- What a scan took is what it moved over. -/
theorem scanFrom_forward (note : ε) (stop bad : β → Bool) (xs : List β) :
    ∀ pos taken next, Parser.scanFrom note stop bad pos xs = .done taken next →
      xs = taken ++ next.rest ∧ next.pos = pos + taken.length := by
  induction xs with
  | nil =>
      intro pos taken next h
      cases h
  | cons x xs ih =>
      intro pos taken next h
      obtain ⟨-, rfl, rfl⟩ | ⟨-, -, taken', rfl, hrest⟩ := Parser.scanFrom_cons_done h
      · exact ⟨rfl, rfl⟩
      · obtain ⟨hsplit, hpos⟩ := ih (pos + 1) taken' next hrest
        constructor
        · rw [List.cons_append, ← hsplit]
        · rw [hpos, List.length_cons]
          omega

/-- No symbol that a scan took is one to stop at or a bad one. -/
theorem scanFrom_taken (note : ε) (stop bad : β → Bool) (xs : List β) :
    ∀ pos taken next, Parser.scanFrom note stop bad pos xs = .done taken next →
      ∀ x ∈ taken, stop x = false ∧ bad x = false := by
  induction xs with
  | nil =>
      intro pos taken next h
      cases h
  | cons x xs ih =>
      intro pos taken next h
      obtain ⟨-, rfl, -⟩ | ⟨hstop, hbad, taken', rfl, hrest⟩ := Parser.scanFrom_cons_done h
      · exact List.forall_mem_nil _
      · rw [List.forall_mem_cons]
        exact ⟨⟨hstop, hbad⟩, ih (pos + 1) taken' next hrest⟩

/-- A scan ends before a symbol to stop at. -/
theorem scanFrom_stop (note : ε) (stop bad : β → Bool) (xs : List β) :
    ∀ pos taken next, Parser.scanFrom note stop bad pos xs = .done taken next →
      ∃ x rest, next.rest = x :: rest ∧ stop x = true := by
  induction xs with
  | nil =>
      intro pos taken next h
      cases h
  | cons x xs ih =>
      intro pos taken next h
      obtain ⟨hstop, -, rfl⟩ | ⟨-, -, taken', -, hrest⟩ := Parser.scanFrom_cons_done h
      · exact ⟨x, xs, rfl, hstop⟩
      · exact ih (pos + 1) taken' next hrest

theorem scan (note : ε) (stop bad : β → Bool) :
    IsIncremental (Parser.scan note stop bad) where
  append c more hready := scanFrom_append note stop bad c.rest more c.pos hready
  forward c taken next h :=
    ⟨taken, scanFrom_forward note stop bad c.rest c.pos taken next h⟩

theorem ite {condition : Prop} [Decidable condition] {p q : Parser β ε α}
    (hp : IsIncremental p) (hq : IsIncremental q) :
    IsIncremental (if condition then p else q) := by
  split
  · exact hp
  · exact hq

theorem mapNote (g : ε → ε') {p : Parser β ε α} (hp : IsIncremental p) :
    IsIncremental (p.mapNote g) where
  append c more hready := by
    unfold Parser.mapNote at hready ⊢
    cases hc : p c with
    | needMore note =>
        rw [hc] at hready
        cases hready
    | done value next =>
        have happend := hp.append c more (by rw [hc]; rfl)
        rw [happend, hc]
        rfl
    | fail note =>
        have happend := hp.append c more (by rw [hc]; rfl)
        rw [happend, hc]
        rfl
  forward c value next h := hp.forward c value next (Parser.mapNote_done g h)

section Text

variable {p : Parser β ε α}

/-- A text with a complete item at its front parses as that item. -/
theorem parse_append (hp : IsIncremental p) {text more : List β} {value : α} {next : Cursor β}
    (hdone : p.parse text = .done value next) :
    p.parse (text ++ more) = .done value (next.append more) := by
  have happend := hp.append ⟨0, text⟩ more
  have hparse : p ⟨0, text⟩ = .done value next := hdone
  rw [hparse] at happend
  exact happend rfl

/-- A parser that is done stands behind a front part of the text. -/
theorem pos_le_length (hp : IsIncremental p) {text : List β} {value : α} {next : Cursor β}
    (hdone : p.parse text = .done value next) : next.pos ≤ text.length := by
  obtain ⟨used, hsplit, hpos⟩ := hp.forward ⟨0, text⟩ value next hdone
  simp only at hsplit hpos
  rw [hpos, hsplit, List.length_append]
  omega

/-- A proper front part of a complete item asks for more. -/
theorem isNeedMore_of_cut (hp : IsIncremental p) {front back : List β} {value : α}
    {next : Cursor β} (hdone : p.parse (front ++ back) = .done value next)
    (hwhole : next.rest = []) (hback : back ≠ []) : (p.parse front).isNeedMore = true := by
  by_contra hready
  rw [Bool.not_eq_true] at hready
  have happend := hp.append ⟨0, front⟩ back hready
  have hparse : p ((⟨0, front⟩ : Cursor β).append back) = .done value next := hdone
  rw [hparse] at happend
  cases hfront : p ⟨0, front⟩ with
  | done v middle =>
      rw [hfront] at happend
      have hnext : next = middle.append back := by
        cases happend
        rfl
      rw [hnext] at hwhole
      exact hback (List.append_eq_nil_iff.mp hwhole).2
  | needMore note =>
      rw [hfront] at happend
      cases happend
  | fail note =>
      rw [hfront] at happend
      cases happend

end Text

/-- No parser moves backwards. -/
theorem pos_le {p : Parser β ε α} (hp : IsIncremental p) {c next : Cursor β} {value : α}
    (hdone : p c = .done value next) : c.pos ≤ next.pos := by
  obtain ⟨used, -, hpos⟩ := hp.forward c value next hdone
  omega

end IsIncremental

/-- A parser that moves on whenever it is done. -/
def Consumes (p : Parser β ε α) : Prop :=
  ∀ c value next, p c = .done value next → c.pos < next.pos

namespace Consumes

theorem next (note : ε) : Consumes (Parser.next note : Parser β ε β) := by
  intro c value next h
  obtain ⟨pos, rest⟩ := c
  cases rest with
  | nil => cases h
  | cons x xs =>
      cases h
      exact Nat.lt_succ_self pos

theorem fail (note : ε) : Consumes (Parser.fail note : Parser β ε α) := by
  intro c value next h
  cases h

theorem ite {condition : Prop} [Decidable condition] {p q : Parser β ε α}
    (hp : Consumes p) (hq : Consumes q) : Consumes (if condition then p else q) := by
  split
  · exact hp
  · exact hq

theorem bind_left {p : Parser β ε α} {f : α → Parser β ε γ} (hp : Consumes p)
    (hf : ∀ value, IsIncremental (f value)) : Consumes (p >>= f) := by
  intro c value next h
  obtain ⟨v, middle, hfirst, hsecond⟩ := Parser.bind_done h
  exact Nat.lt_of_lt_of_le (hp c v middle hfirst) ((hf v).pos_le hsecond)

theorem bind_right {p : Parser β ε α} {f : α → Parser β ε γ} (hp : IsIncremental p)
    (hf : ∀ value, Consumes (f value)) : Consumes (p >>= f) := by
  intro c value next h
  obtain ⟨v, middle, hfirst, hsecond⟩ := Parser.bind_done h
  exact Nat.lt_of_le_of_lt (hp.pos_le hfirst) (hf v middle value next hsecond)

end Consumes

/-- A cursor into the given text. -/
def Cursor.In (c : Cursor β) (text : List β) : Prop := c.rest = text.drop c.pos

theorem IsIncremental.next_in {p : Parser β ε α} (hp : IsIncremental p) {text : List β}
    {c next : Cursor β} {value : α} (hc : c.In text) (hdone : p c = .done value next) :
    next.In text := by
  obtain ⟨used, hsplit, hpos⟩ := hp.forward c value next hdone
  have hdrop : text.drop c.pos = used ++ next.rest := hc.symm.trans hsplit
  rw [Cursor.In, hpos, ← List.drop_drop, hdrop, List.drop_left]

/-- What a parser that is done in a text says about its value. -/
structure Ensures (text : List β) (p : Parser β ε α) (good : α → Prop) : Prop where
  of_done : ∀ c value next, c.In text → p c = .done value next → good value

namespace Ensures

variable {text : List β} {good : α → Prop}

theorem pure {value : α} (hvalue : good value) :
    Ensures text (Pure.pure value : Parser β ε α) good where
  of_done c v next _ h := by
    cases h
    exact hvalue

theorem fail (note : ε) : Ensures text (Parser.fail note : Parser β ε α) good where
  of_done c value next _ h := by cases h

theorem ite {condition : Prop} [Decidable condition] {p q : Parser β ε α}
    (hp : Ensures text p good) (hq : Ensures text q good) :
    Ensures text (if condition then p else q) good := by
  split
  · exact hp
  · exact hq

theorem bind {p : Parser β ε α} {f : α → Parser β ε γ} {good' : γ → Prop}
    (hincremental : IsIncremental p) (hp : Ensures text p good)
    (hf : ∀ value, good value → Ensures text (f value) good') :
    Ensures text (p >>= f) good' where
  of_done c value next hc h := by
    obtain ⟨v, middle, hfirst, hsecond⟩ := Parser.bind_done h
    have hv := hp.of_done c v middle hc hfirst
    exact (hf v hv).of_done middle value next (hincremental.next_in hc hfirst) hsecond

/-- The first of two parsers may be one whose value does not matter. -/
theorem bind_right {p : Parser β ε α} {f : α → Parser β ε γ} {good' : γ → Prop}
    (hincremental : IsIncremental p) (hf : ∀ value, Ensures text (f value) good') :
    Ensures text (p >>= f) good' := by
  have hany : Ensures text p fun _ => True := ⟨fun _ _ _ _ _ => trivial⟩
  exact bind hincremental hany fun value _ => hf value

theorem parse {p : Parser β ε α} (hp : Ensures text p good) {value : α} {next : Cursor β}
    (hdone : p.parse text = .done value next) : good value :=
  hp.of_done ⟨0, text⟩ value next rfl hdone

end Ensures

namespace Parser

section Read

variable {p : Parser β ε α} {f : α → Parser β ε γ} {c c' : Cursor β} {value : α}

theorem bind_of_done (hdone : p c = .done value c') : (p >>= f) c = f value c' := by
  change bind p f c = f value c'
  rw [bind, hdone]

theorem bind_of_needMore {note : ε} (h : p c = .needMore note) :
    (p >>= f) c = .needMore note := by
  change bind p f c = .needMore note
  rw [bind, h]

/-- A scan takes good symbols up to one to stop at. -/
theorem scan_append (note : ε) {stop bad : β → Bool} {taken : List β} {x : β}
    (htaken : ∀ y ∈ taken, stop y = false ∧ bad y = false) (hx : stop x = true)
    (rest : List β) (pos : Nat) :
    scan note stop bad ⟨pos, taken ++ x :: rest⟩ = .done taken ⟨pos + taken.length, x :: rest⟩ := by
  induction taken generalizing pos with
  | nil => exact if_pos hx
  | cons y taken ih =>
      rw [List.forall_mem_cons] at htaken
      have hrest : scanFrom note stop bad (pos + 1) (taken ++ x :: rest)
          = .done taken ⟨pos + 1 + taken.length, x :: rest⟩ := ih htaken.2 (pos + 1)
      change scanFrom note stop bad pos (y :: (taken ++ x :: rest)) = _
      simp only [scanFrom, htaken.1.1, htaken.1.2, hrest, Bool.false_eq_true, if_false,
        List.length_cons]
      congr 2
      omega

/-- A scan passes over good symbols and takes them in front of what it takes from there on. -/
theorem scanFrom_skip (note : ε) {stop bad : β → Bool} {taken : List β}
    (htaken : ∀ y ∈ taken, stop y = false ∧ bad y = false) (rest : List β) (pos : Nat) :
    scanFrom note stop bad pos (taken ++ rest)
      = match scanFrom note stop bad (pos + taken.length) rest with
        | .done bytes next => .done (taken ++ bytes) next
        | outcome => outcome := by
  induction taken generalizing pos with
  | nil =>
      change scanFrom note stop bad pos rest = match scanFrom note stop bad pos rest with
        | .done bytes next => .done bytes next
        | outcome => outcome
      cases scanFrom note stop bad pos rest <;> rfl
  | cons y taken ih =>
      rw [List.forall_mem_cons] at htaken
      have hpos : pos + (y :: taken).length = pos + 1 + taken.length := by
        rw [List.length_cons]
        omega
      rw [hpos, List.cons_append, scanFrom, if_neg (by simp [htaken.1.1]),
        if_neg (by simp [htaken.1.2]), ih htaken.2 (pos + 1)]
      cases scanFrom note stop bad (pos + 1 + taken.length) rest <;> rfl

/-- A scan waits exactly while all that is there can be taken. -/
theorem scan_needMore_iff {note : ε} {stop bad : β → Bool} :
    (∃ note', scan note stop bad c = .needMore note') ↔
      ∀ y ∈ c.rest, stop y = false ∧ bad y = false := by
  obtain ⟨pos, xs⟩ := c
  change (∃ note', scanFrom note stop bad pos xs = .needMore note') ↔
    ∀ y ∈ xs, stop y = false ∧ bad y = false
  induction xs generalizing pos with
  | nil => exact ⟨fun _ => List.forall_mem_nil _, fun _ => ⟨note, rfl⟩⟩
  | cons x xs ih =>
      rw [List.forall_mem_cons, ← ih (pos + 1), scanFrom]
      cases hstop : stop x with
      | true => simp
      | false =>
          cases hbad : bad x with
          | true => simp
          | false =>
              simp only [Bool.false_eq_true, if_false, and_self, true_and]
              cases scanFrom note stop bad (pos + 1) xs <;> simp

/-- The parser is done on the text at the cursor and leaves `k` symbols of it. -/
def Leaves (p : Parser β ε α) (c : Cursor β) (k : Nat) : Prop :=
  ∃ value next, p c = .done value next ∧ next.rest.length = k

variable {k : Nat}

theorem leaves_bind : (p >>= f).Leaves c k ↔ ∃ v middle, p c = .done v middle ∧
    (f v).Leaves middle k := by
  constructor
  · rintro ⟨value, next, hdone, hleft⟩
    obtain ⟨v, middle, hfirst, hsecond⟩ := Parser.bind_done hdone
    exact ⟨v, middle, hfirst, value, next, hsecond, hleft⟩
  · rintro ⟨v, middle, hfirst, value, next, hsecond, hleft⟩
    exact ⟨value, next, (bind_of_done hfirst).trans hsecond, hleft⟩

theorem leaves_bind_of_done (hdone : p c = .done value c') :
    (p >>= f).Leaves c k ↔ (f value).Leaves c' k := by
  rw [Leaves, bind_of_done hdone]
  rfl

/-- What is done with the value of the last parser does not matter. -/
theorem leaves_bind_pure (g : α → γ) :
    (p >>= fun value => pure (g value)).Leaves c k ↔ p.Leaves c k := by
  rw [leaves_bind]
  constructor
  · rintro ⟨v, middle, hdone, value, next, hpure, hleft⟩
    cases hpure
    exact ⟨v, middle, hdone, hleft⟩
  · rintro ⟨v, middle, hdone, hleft⟩
    exact ⟨v, middle, hdone, g v, middle, rfl, hleft⟩

theorem leaves_mapNote (g : ε → ε') : (p.mapNote g).Leaves c k ↔ p.Leaves c k := by
  constructor
  · rintro ⟨value, next, hdone, hleft⟩
    exact ⟨value, next, mapNote_done g hdone, hleft⟩
  · rintro ⟨value, next, hdone, hleft⟩
    exact ⟨value, next, mapNote_of_done g hdone, hleft⟩

theorem not_leaves_fail (note : ε) : ¬ (fail note : Parser β ε α).Leaves c k := by
  rintro ⟨value, next, hdone, -⟩
  cases hdone

end Read

end Parser

end Incremental
