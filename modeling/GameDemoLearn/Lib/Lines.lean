import Mathlib.Tactic

/-!
Texts that are cut at separators. `cut sep text` is what comes before the first
occurrence of `sep` and what comes behind it; `lines a b text` are the pieces between
the places where `b` follows `a`. A text that was written line by line, no line empty
and none with an `a`, and closed by an empty line, is cut and read back as its lines.
-/

namespace Lines

variable {α : Type} [DecidableEq α]

def cut (sep : List α) : List α → Option (List α × List α)
  | [] => if sep = [] then some ([], []) else none
  | x :: xs =>
      if sep <+: x :: xs then
        some ([], (x :: xs).drop sep.length)
      else
        (cut sep xs).map fun parts => (x :: parts.1, parts.2)

def lines (a b : α) : List α → List (List α)
  | [] => [[]]
  | [x] => [[x]]
  | x :: y :: rest =>
      if x = a ∧ y = b then
        [] :: lines a b rest
      else
        (lines a b (y :: rest)).modifyHead (x :: ·)

/-- Each line with its end. -/
def unlines (a b : α) (texts : List (List α)) : List α := texts.flatMap fun text => text ++ [a, b]

theorem cut_self (s : α) (sep rest : List α) :
    cut (s :: sep) (s :: sep ++ rest) = some ([], rest) := by
  have hbegin : s :: sep <+: s :: (sep ++ rest) := List.prefix_append (s :: sep) rest
  rw [List.cons_append, cut, if_pos hbegin, ← List.cons_append, List.drop_left]

theorem cut_cons {sep xs : List α} {x : α} (hnot : ¬ sep <+: x :: xs) :
    cut sep (x :: xs) = (cut sep xs).map fun parts => (x :: parts.1, parts.2) := by
  rw [cut, if_neg hnot]

/-- A text without the first symbol of the separator is skipped. -/
theorem cut_append {s : α} {sep front : List α} (hfront : s ∉ front) (text : List α) :
    cut (s :: sep) (front ++ text)
      = (cut (s :: sep) text).map fun parts => (front ++ parts.1, parts.2) := by
  induction front with
  | nil => simp
  | cons x front ih =>
      rw [List.mem_cons, not_or] at hfront
      have hnot : ¬ s :: sep <+: x :: (front ++ text) := by
        rw [List.cons_prefix_cons]
        exact fun h => hfront.1 h.1
      rw [List.cons_append, cut_cons hnot, ih hfront.2, Option.map_map]
      rfl

omit [DecidableEq α] in
/-- A beginning without the symbol `s` lies before any place where `s` stands. -/
theorem split_of_notMem {s : α} {front rest text tail : List α} (hfront : s ∉ front)
    (hsplit : front ++ rest = text ++ s :: tail) :
    ∃ middle, text = front ++ middle ∧ rest = middle ++ s :: tail := by
  rcases List.append_eq_append_iff.mp hsplit with ⟨middle, htext, hrest⟩ | ⟨more, hmore, htail⟩
  · exact ⟨middle, htext, hrest⟩
  · cases more with
    | nil =>
        refine ⟨[], ?_, ?_⟩
        · rw [hmore, List.append_nil, List.append_nil]
        · rw [List.nil_append] at htail ⊢
          exact htail.symm
    | cons y more =>
        obtain ⟨rfl, -⟩ := List.cons.inj htail
        rw [hmore] at hfront
        exact absurd (List.mem_append_right text List.mem_cons_self) hfront

omit [DecidableEq α] in
/-- What stands behind the last `s` is determined by the text. -/
theorem behind_last_inj {s : α} {front front' tail tail' : List α} (htail : s ∉ tail)
    (htail' : s ∉ tail') (heq : front ++ s :: tail = front' ++ s :: tail') : tail = tail' := by
  rw [← List.mem_reverse] at htail htail'
  have hreverse : tail.reverse ++ s :: front.reverse = tail'.reverse ++ s :: front'.reverse := by
    simpa using congrArg List.reverse heq
  obtain ⟨middle, hmiddle, hrest⟩ := split_of_notMem htail hreverse
  cases middle with
  | nil => rwa [List.append_nil, List.reverse_inj, eq_comm] at hmiddle
  | cons x middle =>
      obtain ⟨rfl, -⟩ := List.cons.inj hrest
      rw [hmiddle] at htail'
      exact absurd (List.mem_append_right _ List.mem_cons_self) htail'

section Read

variable {a b : α}

theorem lines_append {line : List α} (hline : a ∉ line) (rest : List α) :
    lines a b (line ++ a :: b :: rest) = line :: lines a b rest := by
  induction line with
  | nil => rw [List.nil_append, lines, if_pos ⟨rfl, rfl⟩]
  | cons x line ih =>
      rw [List.mem_cons, not_or] at hline
      have hnext : ∃ y ys, line ++ a :: b :: rest = y :: ys := by
        cases line with
        | nil => exact ⟨a, b :: rest, rfl⟩
        | cons y ys => exact ⟨y, ys ++ a :: b :: rest, rfl⟩
      obtain ⟨y, ys, hys⟩ := hnext
      rw [List.cons_append, hys, lines, if_neg fun h => hline.1 h.1.symm, ← hys, ih hline.2]
      rfl

theorem lines_of_notMem {line : List α} (hline : a ∉ line) : lines a b line = [line] := by
  induction line with
  | nil => rfl
  | cons x line ih =>
      rw [List.mem_cons, not_or] at hline
      cases line with
      | nil => rfl
      | cons y line =>
          rw [lines, if_neg fun h => hline.1 h.1.symm, ih hline.2]
          rfl

/-- What was written line by line is read back up to the first empty line. -/
theorem cut_unlines (hab : a ≠ b) {texts : List (List α)} (hne : texts ≠ [])
    (htexts : ∀ text ∈ texts, text ≠ [] ∧ a ∉ text) (rest : List α) :
    ∃ head, cut [a, b, a, b] (unlines a b texts ++ [a, b] ++ rest) = some (head, rest) ∧
      lines a b head = texts := by
  induction texts with
  | nil => exact absurd rfl hne
  | cons text texts ih =>
      rw [List.forall_mem_cons] at htexts
      obtain ⟨⟨-, htext⟩, htexts⟩ := htexts
      cases texts with
      | nil =>
          refine ⟨text, ?_, lines_of_notMem htext⟩
          have hcut := cut_self a [b, a, b] rest
          have hwhole : unlines a b [text] ++ [a, b] ++ rest = text ++ ([a, b, a, b] ++ rest) := by
            simp [unlines]
          rw [hwhole, cut_append htext, hcut]
          simp
      | cons next texts =>
          obtain ⟨head, hcut, hlines⟩ := ih (List.cons_ne_nil next texts) htexts
          refine ⟨text ++ a :: b :: head, ?_, by rw [lines_append htext, hlines]⟩
          have hwhole : unlines a b (text :: next :: texts) ++ [a, b] ++ rest
              = text ++ a :: b :: (unlines a b (next :: texts) ++ [a, b] ++ rest) := by
            simp [unlines]
          obtain ⟨hnext, hfree⟩ := htexts next List.mem_cons_self
          obtain ⟨x, xs, rfl⟩ := List.exists_cons_of_ne_nil hnext
          have hx : a ≠ x := fun h => hfree (h ▸ List.mem_cons_self)
          -- The end of a line is not the empty line, for the next line starts with `x`.
          have hend : ¬ [a, b, a, b] <+:
              a :: b :: (unlines a b ((x :: xs) :: texts) ++ [a, b] ++ rest) := by
            simp [unlines, hx]
          have hsecond : ¬ [a, b, a, b] <+:
              b :: (unlines a b ((x :: xs) :: texts) ++ [a, b] ++ rest) := by
            simp [hab]
          rw [hwhole, cut_append htext, cut_cons hend, cut_cons hsecond, hcut]
          simp

end Read

end Lines
