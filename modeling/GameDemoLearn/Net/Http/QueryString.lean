import GameDemoLearn.Lib.FirstWins
import GameDemoLearn.Lib.Strip
import GameDemoLearn.Net.Http.HttpParser

/-!
What `ParseQuery` reads in a query (`HttpParser.cpp`). Its loop cuts the text at each `=`
(61) and each `&` (38): the piece before an `=` becomes the key, and the piece before an
`&`, or before the end, is the value that is inserted for the last key. A text with
neither is not read at all.
-/

namespace GameDemoLearn.Net.Http

/-- What `TrimSpace` leaves of the characters. -/
def trim (text : Bytes) : Bytes := Strip.strip SP text

/-- The text has neither `=` nor `&`. -/
def Plain (text : Bytes) : Prop := 61 ∉ text ∧ 38 ∉ text

instance (text : Bytes) : Decidable (Plain text) :=
  inferInstanceAs (Decidable (61 ∉ text ∧ 38 ∉ text))

/-- The entries of the segments from here on, `key` being the last key and `cur` what was
read of the piece. -/
def entriesFrom (key cur : Bytes) : Bytes → List (Bytes × Bytes)
  | [] => [(key, trim cur)]
  | c :: rest =>
      if c = 61 then entriesFrom (trim cur) [] rest
      else if c = 38 then (key, trim cur) :: entriesFrom key [] rest
      else entriesFrom key (cur ++ [c]) rest

/-- The entries of a query. -/
def queryEntries (text : Bytes) : List (Bytes × Bytes) :=
  if Plain text then [] else entriesFrom [] [] text

section Trim

variable {text : Bytes}

theorem drop_findFirstNotOf (htext : text.length < 2 ^ 64) :
    text.drop (min (findFirstNotOf SP text) text.length) = text.dropWhile (· == SP) := by
  have hnot : (fun c : UInt8 => c != SP) = fun c => !(c == SP) := rfl
  rw [List.dropWhile_eq_drop_findIdx_not, findFirstNotOf, ← hnot]
  cases hidx : text.findIdx? fun c => c != SP with
  | none =>
      rw [List.findIdx?_eq_none_iff_findIdx_eq.mp hidx, Option.getD_none, npos,
        Nat.min_eq_right (by omega)]
  | some k =>
      obtain ⟨hlt, rfl⟩ := List.findIdx?_eq_some_iff_findIdx_eq.mp hidx
      rw [Option.getD_some, Nat.min_eq_left (Nat.le_of_lt hlt)]

theorem take_findLastNotOf (htext : text.length < 2 ^ 64) :
    text.take (text.length
        - min (sizeSub (sizeSub text.length (findLastNotOf SP text)) 1) text.length)
      = text.rdropWhile (· == SP) := by
  have hnot : (fun c : UInt8 => c != SP) = fun c => !(c == SP) := rfl
  have htake : ∀ k, text.take (text.length - k) = (text.reverse.drop k).reverse := by
    intro k
    rw [List.drop_reverse, List.reverse_reverse]
  rw [List.rdropWhile, List.dropWhile_eq_drop_findIdx_not, ← hnot, findLastNotOf]
  cases hidx : text.reverse.findIdx? fun c => c != SP with
  | none =>
      have hnpos : sizeSub (sizeSub text.length npos) 1 = text.length := by
        simp only [sizeSub, npos]
        omega
      rw [List.findIdx?_eq_none_iff_findIdx_eq.mp hidx, Option.map_none, Option.getD_none, hnpos,
        Nat.min_self, List.length_reverse, htake]
  | some k =>
      obtain ⟨hlt, rfl⟩ := List.findIdx?_eq_some_iff_findIdx_eq.mp hidx
      rw [List.length_reverse] at hlt
      have hlast : sizeSub (sizeSub text.length
          (text.length - 1 - text.reverse.findIdx fun c => c != SP)) 1
            = text.reverse.findIdx fun c => c != SP := by
        simp only [sizeSub]
        omega
      rw [Option.map_some, Option.getD_some, hlast, Nat.min_eq_left (Nat.le_of_lt hlt), htake]

theorem bytes_trimSpace {v : StringView} (hsize : v.bytes.length < 2 ^ 64) :
    (trimSpace v).bytes = trim v.bytes := by
  have hfront := drop_findFirstNotOf hsize
  have hlength : (v.bytes.dropWhile (· == SP)).length < 2 ^ 64 :=
    Nat.lt_of_le_of_lt (List.dropWhile_suffix _).length_le hsize
  simp only [trimSpace, StringView.removePrefix, StringView.removeSuffix, hfront]
  exact take_findLastNotOf hlength

end Trim

section Read

variable {rest : Bytes}

/-- A piece without a separator is read through. -/
theorem entriesFrom_append {piece : Bytes} (hpiece : Plain piece) (key cur rest : Bytes) :
    entriesFrom key cur (piece ++ rest) = entriesFrom key (cur ++ piece) rest := by
  induction piece generalizing cur with
  | nil => rw [List.nil_append, List.append_nil]
  | cons c piece ih =>
      obtain ⟨heq, hamp⟩ := hpiece
      rw [List.mem_cons, not_or] at heq hamp
      rw [List.cons_append, entriesFrom, if_neg (Ne.symm heq.1), if_neg (Ne.symm hamp.1),
        ih ⟨heq.2, hamp.2⟩, List.append_assoc]
      rfl

/-- A piece without a separator is the value of a segment of its own. -/
theorem entriesFrom_of_plain {piece : Bytes} (hpiece : Plain piece) (key cur : Bytes) :
    entriesFrom key cur piece = [(key, trim (cur ++ piece))] := by
  have hread := entriesFrom_append hpiece key cur []
  rw [List.append_nil] at hread
  exact hread

theorem entriesFrom_eq (key cur rest : Bytes) :
    entriesFrom key cur (61 :: rest) = entriesFrom (trim cur) [] rest := by
  rw [entriesFrom, if_pos rfl]

theorem entriesFrom_amp (key cur rest : Bytes) :
    entriesFrom key cur (38 :: rest) = (key, trim cur) :: entriesFrom key [] rest := by
  rw [entriesFrom, if_neg (by decide), if_pos rfl]

end Read

namespace HttpParser

/-- `_queries` as the texts that its views show. -/
def queryTable (p : HttpParser) : List (Bytes × Bytes) :=
  p.queries.map fun query => (query.1.bytes, query.2.bytes)

/-- What `_queries` has for the key. -/
def query (p : HttpParser) (key : Bytes) : Option Bytes := FirstWins.find p.queryTable key

theorem queryTable_emplaceQuery (p : HttpParser) (key val : StringView) :
    (p.emplaceQuery key val).queryTable
      = FirstWins.insert p.queryTable (key.bytes, val.bytes) := by
  have hany : (p.queryTable.any fun old => old.1 == key.bytes)
      = p.queries.any fun query => query.1.bytes == key.bytes := by
    rw [queryTable, List.any_map]
    rfl
  unfold emplaceQuery FirstWins.insert
  dsimp only
  rw [hany]
  split
  · rfl
  · rw [queryTable, List.map_append]
    rfl

/-- Where the loop of `ParseQuery` is at the end of a text with the given front, piece and
rest: it has inserted the entries of the segments that an `&` ends, and `pos` is behind the
last separator. -/
structure ScanEnds (str : StringView) (front cur rest : Bytes) (key : StringView)
    (p : HttpParser) (key' : StringView) (pos' : Nat) (p' : HttpParser) : Prop where
  le_pos : front.length ≤ pos'
  pos_le : pos' ≤ str.bytes.length
  of_plain : Plain rest → pos' = front.length ∧ p' = p
  of_not_plain : ¬ Plain rest → front.length < pos'
  inserted : FirstWins.insert p'.queryTable (key'.bytes, trim (str.bytes.drop pos'))
    = FirstWins.insertAll p.queryTable (entriesFrom key.bytes cur rest)

section Scan

variable {str key key' : StringView} {front cur rest : Bytes} {c : UInt8} {pos' : Nat}
  {p p' : HttpParser}

/-- The piece that the loop cuts off in front of a separator. -/
theorem bytes_piece (hsize : str.bytes.length < 2 ^ 64) (hstr : str.bytes = front ++ cur ++ rest) :
    (trimSpace (str.sub front.length (front.length + cur.length - front.length))).bytes
      = trim cur := by
  have hcur : cur.length < 2 ^ 64 := by
    rw [hstr, List.length_append, List.length_append] at hsize
    omega
  have hsub : (str.sub front.length (front.length + cur.length - front.length)).bytes = cur := by
    rw [StringView.sub, hstr, List.append_assoc, List.drop_left, Nat.add_sub_cancel_left,
      List.take_left]
  rw [bytes_trimSpace (by rw [hsub]; exact hcur), hsub]

/-- Behind a separator the loop is at the start of a piece, with a key and a parser that stand
for what came before. -/
theorem ScanEnds.separator {key₁ : StringView} {p₁ : HttpParser}
    (hends : ScanEnds str (front ++ cur ++ [c]) [] rest key₁ p₁ key' pos' p')
    (hplain : ¬ Plain (c :: rest))
    (hentries : FirstWins.insertAll p₁.queryTable (entriesFrom key₁.bytes [] rest)
      = FirstWins.insertAll p.queryTable (entriesFrom key.bytes cur (c :: rest))) :
    ScanEnds str front cur (c :: rest) key p key' pos' p' := by
  have hlt : front.length < pos' := by
    have hle := hends.le_pos
    simp only [List.length_append, List.length_singleton] at hle
    omega
  exact ⟨Nat.le_of_lt hlt, hends.pos_le, fun h => absurd h hplain, fun _ => hlt,
    hends.inserted.trans hentries⟩

/-- Any other character belongs to the piece. -/
theorem ScanEnds.piece (hends : ScanEnds str front (cur ++ [c]) rest key p key' pos' p')
    (heq : c ≠ 61) (hamp : c ≠ 38) : ScanEnds str front cur (c :: rest) key p key' pos' p' := by
  have hplain : Plain (c :: rest) ↔ Plain rest := by
    simp [Plain, Ne.symm heq, Ne.symm hamp]
  refine ⟨hends.le_pos, hends.pos_le, ?_, ?_, ?_⟩
  · rw [hplain]
    exact hends.of_plain
  · rw [hplain]
    exact hends.of_not_plain
  · rw [entriesFrom, if_neg heq, if_neg hamp]
    exact hends.inserted

end Scan

theorem scanQuery_ends {str : StringView} (hsize : str.bytes.length < 2 ^ 64)
    {front cur rest : Bytes} (hstr : str.bytes = front ++ cur ++ rest) (key : StringView)
    (p : HttpParser) :
    ∃ key' pos' p', scanQuery str rest (front.length + cur.length) key front.length p
        = (key', pos', p') ∧ ScanEnds str front cur rest key p key' pos' p' := by
  induction rest generalizing front cur key p with
  | nil =>
      rw [List.append_nil] at hstr
      refine ⟨key, front.length, p, rfl, Nat.le_refl _, ?_, fun _ => ⟨rfl, rfl⟩, ?_, ?_⟩
      · rw [hstr, List.length_append]
        exact Nat.le_add_right _ _
      · exact fun hplain => absurd ⟨List.not_mem_nil, List.not_mem_nil⟩ hplain
      · rw [hstr, List.drop_left]
        rfl
  | cons c rest ih =>
      have hpiece := bytes_piece hsize hstr
      have hnext : str.bytes = (front ++ cur ++ [c]) ++ [] ++ rest := by
        rw [hstr, List.append_nil, List.append_assoc (front ++ cur), List.singleton_append]
      have hlength : (front ++ cur ++ [c]).length = front.length + cur.length + 1 := by
        simp only [List.length_append, List.length_singleton]
      by_cases heq : c = 61
      · have hplain : ¬ Plain (c :: rest) := fun h => h.1 (heq ▸ List.mem_cons_self)
        obtain ⟨key', pos', p', hscan, hends⟩ := ih hnext (trimSpace (str.sub front.length
          (front.length + cur.length - front.length))) p
        rw [List.length_nil, Nat.add_zero, hlength] at hscan
        rw [scanQuery, if_pos heq]
        refine ⟨key', pos', p', hscan, hends.separator hplain ?_⟩
        rw [hpiece, heq, entriesFrom_eq]
      · by_cases hamp : c = 38
        · have hplain : ¬ Plain (c :: rest) := fun h => h.2 (hamp ▸ List.mem_cons_self)
          obtain ⟨key', pos', p', hscan, hends⟩ := ih hnext key (p.emplaceQuery key (trimSpace
            (str.sub front.length (front.length + cur.length - front.length))))
          rw [List.length_nil, Nat.add_zero, hlength] at hscan
          rw [scanQuery, if_neg heq, if_pos hamp]
          refine ⟨key', pos', p', hscan, hends.separator hplain ?_⟩
          rw [queryTable_emplaceQuery, hpiece, hamp, entriesFrom_amp]
          rfl
        · have hgrown : str.bytes = front ++ (cur ++ [c]) ++ rest := by
            rw [hstr, ← List.append_assoc, List.append_assoc (front ++ cur), List.singleton_append]
          obtain ⟨key', pos', p', hscan, hends⟩ := ih hgrown key p
          rw [List.length_append, List.length_singleton, ← Nat.add_assoc] at hscan
          rw [scanQuery, if_neg heq, if_neg hamp]
          exact ⟨key', pos', p', hscan, hends.piece heq hamp⟩

/-- `ParseQuery` inserts the entries of its argument. -/
theorem queryTable_parseQuery (p : HttpParser) {str : StringView}
    (hsize : str.bytes.length < 2 ^ 64) :
    (p.parseQuery str).queryTable
      = FirstWins.insertAll p.queryTable (queryEntries str.bytes) := by
  have hstr : str.bytes = [] ++ [] ++ str.bytes := rfl
  obtain ⟨key', pos', p', hscan, hends⟩ := scanQuery_ends hsize hstr .null p
  have hstart : scanQuery str str.bytes 0 .null 0 p = (key', pos', p') := hscan
  by_cases hplain : Plain str.bytes
  · obtain ⟨rfl, rfl⟩ := hends.of_plain hplain
    simp only [parseQuery, hstart, queryEntries, if_pos hplain]
    split <;> rfl
  · have hpos : 0 < pos' := hends.of_not_plain hplain
    have hne : str.bytes ≠ [] := by
      intro hnil
      rw [hnil] at hplain
      exact hplain ⟨List.not_mem_nil, List.not_mem_nil⟩
    have hlast : (str.sub pos' (str.bytes.length - pos')).bytes = str.bytes.drop pos' := by
      rw [StringView.sub, List.take_of_length_le (by rw [List.length_drop])]
    have hsub : (str.bytes.drop pos').length < 2 ^ 64 := by
      rw [List.length_drop]
      omega
    rw [queryEntries, if_neg hplain]
    apply Eq.trans _ hends.inserted
    simp only [parseQuery, hstart, if_neg hne, if_neg (Nat.ne_of_gt hpos)]
    split
    · rw [queryTable_emplaceQuery, bytes_trimSpace (by rw [hlast]; exact hsub), hlast]
    · next hend =>
        have hnil : str.bytes.drop pos' = [] := List.drop_eq_nil_of_le (by omega)
        rw [queryTable_emplaceQuery, hnil]
        rfl

theorem query_parseQuery (p : HttpParser) {str : StringView}
    (hsize : str.bytes.length < 2 ^ 64) (key : Bytes) :
    (p.parseQuery str).query key
      = (p.query key).or (FirstWins.find (queryEntries str.bytes) key) := by
  rw [query, queryTable_parseQuery p hsize, FirstWins.find_insertAll]
  rfl

end HttpParser

end GameDemoLearn.Net.Http
