import GameDemoLearn.Net.Http.QueryString

/-!
Which keys and values `ParseQuery` stores (`HttpParser.cpp`): pieces of its argument
without separators or blanks at their ends, at most one for each segment. A query that was
written as `key=value` pairs is read back, unless a value has an `=` of its own: then the
segment is cut at its last `=`.
-/

namespace GameDemoLearn.Net.Http

/-- A key or value that can be written to a query as it is. -/
def IsQueryText (text : Bytes) : Prop := Plain text ∧ Strip.Unpadded SP text

instance (text : Bytes) : Decidable (IsQueryText text) :=
  inferInstanceAs (Decidable (Plain text ∧ Strip.Unpadded SP text))

/-- The pairs as `key=value`, joined by `&`. -/
def joinPairs (pairs : List (Bytes × Bytes)) : Bytes :=
  [38].intercalate (pairs.map fun pair => pair.1 ++ 61 :: pair.2)

theorem trim_of_isQueryText {text : Bytes} (htext : IsQueryText text) : trim text = text :=
  Strip.strip_of_unpadded htext.2

section Pairs

variable {pairs : List (Bytes × Bytes)}

theorem entriesFrom_pair {pair : Bytes × Bytes} (hkey : IsQueryText pair.1) (key rest : Bytes) :
    entriesFrom key [] ((pair.1 ++ 61 :: pair.2) ++ rest)
      = entriesFrom pair.1 [] (pair.2 ++ rest) := by
  rw [List.append_assoc, entriesFrom_append hkey.1, List.nil_append, List.cons_append,
    entriesFrom_eq, trim_of_isQueryText hkey]

theorem joinPairs_singleton (pair : Bytes × Bytes) : joinPairs [pair] = pair.1 ++ 61 :: pair.2 := by
  rw [joinPairs, List.map_singleton, List.intercalate_singleton]

theorem joinPairs_cons_cons (pair next : Bytes × Bytes) (pairs : List (Bytes × Bytes)) :
    joinPairs (pair :: next :: pairs)
      = (pair.1 ++ 61 :: pair.2) ++ 38 :: joinPairs (next :: pairs) := by
  rw [joinPairs, List.map_cons, List.map_cons, List.intercalate_cons_cons, List.append_assoc]
  rfl

theorem entriesFrom_joinPairs (hne : pairs ≠ [])
    (hpairs : ∀ pair ∈ pairs, IsQueryText pair.1 ∧ IsQueryText pair.2) (key : Bytes) :
    entriesFrom key [] (joinPairs pairs) = pairs := by
  induction pairs generalizing key with
  | nil => exact absurd rfl hne
  | cons pair pairs ih =>
      rw [List.forall_mem_cons] at hpairs
      obtain ⟨⟨hkey, hvalue⟩, hpairs⟩ := hpairs
      cases pairs with
      | nil =>
          have hread := entriesFrom_pair hkey key []
          rw [List.append_nil, List.append_nil] at hread
          rw [joinPairs_singleton, hread, entriesFrom_of_plain hvalue.1, List.nil_append,
            trim_of_isQueryText hvalue]
      | cons next pairs =>
          rw [joinPairs_cons_cons, entriesFrom_pair hkey, entriesFrom_append hvalue.1,
            List.nil_append, entriesFrom_amp, trim_of_isQueryText hvalue,
            ih (List.cons_ne_nil next pairs) hpairs]

theorem queryEntries_joinPairs
    (hpairs : ∀ pair ∈ pairs, IsQueryText pair.1 ∧ IsQueryText pair.2) :
    queryEntries (joinPairs pairs) = pairs := by
  cases pairs with
  | nil => rfl
  | cons pair pairs =>
      have hassign : 61 ∈ joinPairs (pair :: pairs) := by
        cases pairs with
        | nil =>
            rw [joinPairs_singleton]
            exact List.mem_append_right _ List.mem_cons_self
        | cons next pairs =>
            rw [joinPairs_cons_cons, List.append_assoc]
            exact List.mem_append_right _ List.mem_cons_self
      rw [queryEntries, if_neg fun hplain => hplain.1 hassign]
      exact entriesFrom_joinPairs (List.cons_ne_nil pair pairs) hpairs []

end Pairs

section Assigned

/-- The last place of a symbol in a text. -/
theorem exists_last_split {c : UInt8} {text : Bytes} (hmem : c ∈ text) :
    ∃ front last, text = front ++ c :: last ∧ c ∉ last := by
  obtain ⟨last, front, hsplit, hlast⟩ :=
    List.eq_append_cons_of_mem (List.mem_reverse.mpr hmem)
  refine ⟨front.reverse, last.reverse, ?_, fun h => hlast (List.mem_reverse.mp h)⟩
  have htext := congrArg List.reverse hsplit
  rw [List.reverse_reverse, List.reverse_append, List.reverse_cons, List.append_assoc] at htext
  exact htext

/-- Behind an `=` the reading starts anew but for the key. -/
theorem exists_entriesFrom_eq {before : Bytes} (hamp : 38 ∉ before) (key cur rest : Bytes) :
    ∃ key', entriesFrom key cur (before ++ 61 :: rest) = entriesFrom key' [] rest := by
  induction before generalizing key cur with
  | nil => exact ⟨trim cur, entriesFrom_eq key cur rest⟩
  | cons c before ih =>
      rw [List.mem_cons, not_or] at hamp
      rw [List.cons_append, entriesFrom]
      split
      · exact ih hamp.2 _ _
      · rw [if_neg (Ne.symm hamp.1)]
        exact ih hamp.2 _ _

/-- A segment is cut at its last `=`, and the key is the piece before it. -/
theorem queryEntries_lastAssign {before name last : Bytes} (hbefore : 38 ∉ before)
    (hname : Plain name) (hlast : Plain last) :
    queryEntries (before ++ 61 :: (name ++ 61 :: last)) = [(trim name, trim last)] := by
  have hassign : 61 ∈ before ++ 61 :: (name ++ 61 :: last) :=
    List.mem_append_right _ List.mem_cons_self
  obtain ⟨key, hread⟩ := exists_entriesFrom_eq hbefore [] [] (name ++ 61 :: last)
  rw [queryEntries, if_neg fun hplain => hplain.1 hassign, hread, entriesFrom_append hname,
    entriesFrom_eq, entriesFrom_of_plain hlast]
  rfl

end Assigned

/-- A piece of the text that can be a key or a value. -/
structure IsPiece (text piece : Bytes) : Prop where
  isQueryText : IsQueryText piece
  isInfix : piece <:+: text

section Pieces

variable {text front cur rest key : Bytes}

theorem plain_trim (hcur : Plain cur) : Plain (trim cur) :=
  ⟨fun hmem => hcur.1 ((Strip.strip_within SP cur).subset hmem),
    fun hmem => hcur.2 ((Strip.strip_within SP cur).subset hmem)⟩

theorem isPiece_trim (hcur : Plain cur) (hwithin : cur <:+: text) : IsPiece text (trim cur) :=
  ⟨⟨plain_trim hcur, Strip.unpadded_strip SP cur⟩, (Strip.strip_within SP cur).trans hwithin⟩

theorem isPiece_nil (text : Bytes) : IsPiece text [] :=
  ⟨by decide, List.nil_infix⟩

theorem plain_append_singleton (hcur : Plain cur) {c : UInt8} (heq : c ≠ 61) (hamp : c ≠ 38) :
    Plain (cur ++ [c]) := by
  simp only [Plain, List.mem_append, List.mem_singleton, not_or]
  exact ⟨⟨hcur.1, Ne.symm heq⟩, hcur.2, Ne.symm hamp⟩

/-- What is read are pieces, given that the key and the piece before are. -/
theorem isPiece_entriesFrom (htext : text = front ++ cur ++ rest) (hcur : Plain cur)
    (hkey : IsPiece text key) :
    ∀ entry ∈ entriesFrom key cur rest, IsPiece text entry.1 ∧ IsPiece text entry.2 := by
  have hpiece : IsPiece text (trim cur) :=
    isPiece_trim hcur ⟨front, rest, htext.symm⟩
  induction rest generalizing front cur key with
  | nil =>
      rw [entriesFrom, List.forall_mem_singleton]
      exact ⟨hkey, hpiece⟩
  | cons c rest ih =>
      have hnext : text = (front ++ cur ++ [c]) ++ [] ++ rest := by
        rw [htext, List.append_nil, List.append_assoc (front ++ cur), List.singleton_append]
      have hnil : Plain [] := by decide
      rw [entriesFrom]
      split
      · exact ih hnext hnil hpiece (isPiece_nil text)
      · next heq =>
          split
          · rw [List.forall_mem_cons]
            exact ⟨⟨hkey, hpiece⟩, ih hnext hnil hkey (isPiece_nil text)⟩
          · next hamp =>
              have hgrown : text = front ++ (cur ++ [c]) ++ rest := by
                rw [htext, ← List.append_assoc, List.append_assoc (front ++ cur),
                  List.singleton_append]
              have hlonger := plain_append_singleton hcur heq hamp
              exact ih hgrown hlonger hkey (isPiece_trim hlonger ⟨front, rest, hgrown.symm⟩)

theorem length_entriesFrom (key cur rest : Bytes) :
    (entriesFrom key cur rest).length = rest.count 38 + 1 := by
  induction rest generalizing key cur with
  | nil => rfl
  | cons c rest ih =>
      rw [entriesFrom]
      split
      · next heq => rw [ih, heq, List.count_cons_of_ne (by decide)]
      · split
        · next hamp => rw [List.length_cons, ih, hamp, List.count_cons_self]
        · next hamp => rw [ih, List.count_cons_of_ne hamp]

theorem isPiece_queryEntries (text : Bytes) :
    ∀ entry ∈ queryEntries text, IsPiece text entry.1 ∧ IsPiece text entry.2 := by
  unfold queryEntries
  split
  · exact List.forall_mem_nil _
  · have htext : text = [] ++ [] ++ text := rfl
    exact isPiece_entriesFrom htext (by decide) (isPiece_nil text)

theorem length_queryEntries_le (text : Bytes) :
    (queryEntries text).length ≤ text.count 38 + 1 := by
  unfold queryEntries
  split
  · exact Nat.zero_le _
  · exact Nat.le_of_eq (length_entriesFrom [] [] text)

end Pieces

namespace StringView

/-- `{&v[pos], len}`: the character has to be there, and the view has to end in the text. -/
def sub? (v : StringView) (pos len : Nat) : Option StringView :=
  if pos < v.bytes.length ∧ pos + len ≤ v.bytes.length then some (v.sub pos len) else none

/-- `remove_prefix` of at most all characters. -/
def removePrefix? (v : StringView) (n : Nat) : Option StringView :=
  if n ≤ v.bytes.length then some (v.removePrefix n) else none

/-- `remove_suffix` of at most all characters. -/
def removeSuffix? (v : StringView) (n : Nat) : Option StringView :=
  if n ≤ v.bytes.length then some (v.removeSuffix n) else none

end StringView

/-- A difference of indices that is not negative. -/
def indexSub? (m n : Nat) : Option Nat := if n ≤ m then some (m - n) else none

/-- `TrimSpace` where every access is checked. -/
def trimSpace? (str : StringView) : Option StringView := do
  let str ← str.removePrefix? (min (findFirstNotOf SP str.bytes) str.bytes.length)
  let size := str.bytes.length
  str.removeSuffix? (min (sizeSub (sizeSub size (findLastNotOf SP str.bytes)) 1) size)

namespace HttpParser

/-- The loop of `ParseQuery` where every access is checked, `n` being what is left of
`length - i`. -/
def scanQuery? (str : StringView) (n i : Nat) (key : StringView) (pos : Nat) (p : HttpParser) :
    Option (StringView × Nat × HttpParser) :=
  match n with
  | 0 => some (key, pos, p)
  | n + 1 => do
      let chr ← str.bytes[i]?
      if chr = 61 then
        let len ← indexSub? i pos
        let key ← trimSpace? (← str.sub? pos len)
        scanQuery? str n (i + 1) key (i + 1) p
      else if chr = 38 then
        let len ← indexSub? i pos
        let val ← trimSpace? (← str.sub? pos len)
        scanQuery? str n (i + 1) key (i + 1) (p.emplaceQuery key val)
      else
        scanQuery? str n (i + 1) key pos p

/-- `ParseQuery` where every access is checked; `none` where one leaves the text. -/
def parseQuery? (p : HttpParser) (str : StringView) : Option HttpParser :=
  if str.bytes = [] then
    some p
  else do
    let length := str.bytes.length
    let (key, pos, p) ← scanQuery? str length 0 .null 0 p
    if pos = 0 then
      some p
    else
      let left ← indexSub? length pos
      if 0 < left then
        let val ← trimSpace? (← str.sub? pos left)
        some (p.emplaceQuery key val)
      else
        some (p.emplaceQuery key .null)

theorem removePrefix?_min (v : StringView) (n : Nat) :
    v.removePrefix? (min n v.bytes.length) = some (v.removePrefix (min n v.bytes.length)) :=
  if_pos (Nat.min_le_right _ _)

theorem removeSuffix?_min (v : StringView) (n : Nat) :
    v.removeSuffix? (min n v.bytes.length) = some (v.removeSuffix (min n v.bytes.length)) :=
  if_pos (Nat.min_le_right _ _)

theorem trimSpace?_eq (str : StringView) : trimSpace? str = some (trimSpace str) := by
  simp only [trimSpace?, removePrefix?_min, Option.bind_eq_bind, Option.bind_some,
    removeSuffix?_min, trimSpace]

/-- The view that is left starts behind the blanks in front. -/
theorem offset_trimSpace {str : StringView} (hsize : str.bytes.length < 2 ^ 64) :
    (trimSpace str).offset = str.offset + (str.bytes.takeWhile (· == SP)).length := by
  have hcut := congrArg List.length (drop_findFirstNotOf hsize)
  have hsplit := congrArg List.length
    (List.takeWhile_append_dropWhile (p := (· == SP)) (l := str.bytes))
  rw [List.length_drop] at hcut
  rw [List.length_append] at hsplit
  have hmin : min (findFirstNotOf SP str.bytes) str.bytes.length ≤ str.bytes.length :=
    Nat.min_le_right _ _
  rw [trimSpace, StringView.removeSuffix, StringView.removePrefix]
  dsimp only
  omega

/-- `TrimSpace` cuts off no more than there is, and what it leaves is the text between the
blanks in front and the blanks behind. -/
theorem trimSpace?_between (str : StringView) (hsize : str.bytes.length < 2 ^ 64) :
    ∃ v lead trail, trimSpace? str = some v ∧ v.offset = str.offset + lead ∧
      str.bytes = List.replicate lead SP ++ v.bytes ++ List.replicate trail SP ∧
      Strip.Unpadded SP v.bytes ∧ ((∀ c ∈ str.bytes, c = SP) → v.bytes = []) := by
  obtain ⟨trail, htrail⟩ := Strip.exists_padding SP str.bytes
  refine ⟨trimSpace str, _, trail, trimSpace?_eq str, offset_trimSpace hsize, ?_, ?_, ?_⟩
  · rw [bytes_trimSpace hsize]
    exact htrail
  · rw [bytes_trimSpace hsize]
    exact Strip.unpadded_strip SP str.bytes
  · intro hblank
    rw [bytes_trimSpace hsize]
    exact Strip.strip_eq_nil hblank

theorem trimSpace?_between_one_sided :
    ∃ v lead trail, trimSpace? ⟨3, Bytes.ofString "  a b"⟩ = some v ∧ v.offset = 3 + lead ∧
      Bytes.ofString "  a b" = List.replicate lead SP ++ v.bytes ++ List.replicate trail SP ∧
      Strip.Unpadded SP v.bytes ∧
        ((∀ c ∈ Bytes.ofString "  a b", c = SP) → v.bytes = []) :=
  trimSpace?_between ⟨3, Bytes.ofString "  a b"⟩ (by decide)

theorem indexSub?_of_le {m n : Nat} (hle : n ≤ m) : indexSub? m n = some (m - n) := if_pos hle

theorem sub?_of_lt {v : StringView} {pos i : Nat} (hpos : pos ≤ i) (hi : i < v.bytes.length) :
    v.sub? pos (i - pos) = some (v.sub pos (i - pos)) :=
  if_pos ⟨Nat.lt_of_le_of_lt hpos hi, by omega⟩

/-- The loop stays in the text, for a piece starts at most at its next character. -/
theorem scanQuery?_eq {str : StringView} {rest : Bytes} {i pos : Nat}
    (hrest : str.bytes.drop i = rest) (hi : i ≤ str.bytes.length) (hpos : pos ≤ i)
    (key : StringView) (p : HttpParser) :
    scanQuery? str rest.length i key pos p = some (scanQuery str rest i key pos p) ∧
      (scanQuery str rest i key pos p).2.1 ≤ str.bytes.length := by
  induction rest generalizing i pos key p with
  | nil => exact ⟨rfl, Nat.le_trans hpos hi⟩
  | cons chr rest ih =>
      have hlt : i < str.bytes.length := by
        have hlength := congrArg List.length hrest
        rw [List.length_drop, List.length_cons] at hlength
        omega
      have hchr : str.bytes[i]? = some chr := by
        rw [← List.head?_drop, hrest, List.head?_cons]
      have hnext : str.bytes.drop (i + 1) = rest := by
        rw [← List.drop_drop, hrest, List.drop_one, List.tail_cons]
      rw [List.length_cons, scanQuery?, scanQuery]
      simp only [hchr, Option.bind_eq_bind, Option.bind_some, indexSub?_of_le hpos,
        sub?_of_lt hpos hlt, trimSpace?_eq]
      split
      · exact ih hnext hlt (Nat.le_refl _) _ p
      · split
        · exact ih hnext hlt (Nat.le_refl _) key _
        · exact ih hnext hlt (Nat.le_succ_of_le hpos) key p

/-- `ParseQuery` reads nothing outside its argument. -/
theorem parseQuery?_eq (p : HttpParser) (str : StringView) :
    p.parseQuery? str = some (p.parseQuery str) := by
  have hstart : str.bytes.drop 0 = str.bytes := List.drop_zero
  obtain ⟨hscan, hpos⟩ := scanQuery?_eq hstart (Nat.zero_le _) (Nat.le_refl 0) .null p
  unfold parseQuery? parseQuery
  split
  · rfl
  · simp only [hscan, Option.bind_eq_bind, Option.bind_some, indexSub?_of_le hpos]
    split
    · rfl
    · split
      · next hleft =>
          have hsub : str.sub? (scanQuery str str.bytes 0 .null 0 p).2.1
              (str.bytes.length - (scanQuery str str.bytes 0 .null 0 p).2.1)
            = some (str.sub (scanQuery str str.bytes 0 .null 0 p).2.1
              (str.bytes.length - (scanQuery str str.bytes 0 .null 0 p).2.1)) :=
            if_pos ⟨by omega, by omega⟩
          rw [hsub, Option.bind_some, trimSpace?_eq, Option.bind_some]
      · rfl

section ParseQuery

variable {p : HttpParser} {str : StringView}

theorem queryTable_of_empty (hempty : p.queries = []) : p.queryTable = [] := by
  rw [queryTable, hempty]
  rfl

/-- Pairs that were written to a query are read back as the map that has the first value of
each key. -/
theorem parseQuery_joinPairs {pairs : List (Bytes × Bytes)}
    (hpairs : ∀ pair ∈ pairs, IsQueryText pair.1 ∧ IsQueryText pair.2)
    (hempty : p.queries = []) (hstr : str.bytes = joinPairs pairs)
    (hsize : str.bytes.length < 2 ^ 64) :
    ((p.parseQuery str).queryTable.map Prod.fst).Nodup ∧
      ∀ key, (p.parseQuery str).query key
        = (pairs.find? fun pair => pair.1 == key).map Prod.snd := by
  have htable := queryTable_parseQuery p hsize
  rw [queryTable_of_empty hempty, hstr, queryEntries_joinPairs hpairs] at htable
  constructor
  · rw [htable]
    have hnil : (([] : List (Bytes × Bytes)).map Prod.fst).Nodup := List.nodup_nil
    exact FirstWins.nodup_insertAll hnil pairs
  · intro key
    rw [query, htable, FirstWins.find_insertAll, FirstWins.find_nil, Option.none_or]
    rfl

theorem parseQuery_joinPairs_repeated :
    ((create.parseQuery ⟨0, joinPairs [([105], [55]), ([], []), ([105], [56])]⟩).queryTable.map
        Prod.fst).Nodup ∧
      ∀ key, (create.parseQuery ⟨0, joinPairs [([105], [55]), ([], []), ([105], [56])]⟩).query key
        = ([([105], [55]), ([], []), ([105], [56])].find? fun pair : Bytes × Bytes =>
            pair.1 == key).map Prod.snd :=
  parseQuery_joinPairs (by decide) rfl rfl (by decide)

/-- Every key and value that `ParseQuery` stores is a piece of its argument, which is all
it reads, and there are at most as many entries as segments. -/
theorem parseQuery_pieces (hempty : p.queries = []) (hsize : str.bytes.length < 2 ^ 64) :
    p.parseQuery? str = some (p.parseQuery str) ∧
      (∀ query ∈ (p.parseQuery str).queries,
        IsPiece str.bytes query.1.bytes ∧ IsPiece str.bytes query.2.bytes) ∧
      (p.parseQuery str).queries.length ≤ str.bytes.count 38 + 1 := by
  have htable := queryTable_parseQuery p hsize
  rw [queryTable_of_empty hempty] at htable
  refine ⟨parseQuery?_eq p str, ?_, ?_⟩
  · intro query hquery
    have hmem : (query.1.bytes, query.2.bytes) ∈ (p.parseQuery str).queryTable :=
      List.mem_map_of_mem hquery
    rw [htable] at hmem
    rcases FirstWins.mem_insertAll hmem with hnone | hentry
    · cases hnone
    · exact isPiece_queryEntries str.bytes _ hentry
  · calc (p.parseQuery str).queries.length = (p.parseQuery str).queryTable.length := by
          rw [queryTable, List.length_map]
      _ ≤ (queryEntries str.bytes).length := by
          rw [htable]
          have hle := FirstWins.length_insertAll_le [] (queryEntries str.bytes)
          rwa [List.length_nil, Nat.zero_add] at hle
      _ ≤ str.bytes.count 38 + 1 := length_queryEntries_le str.bytes

theorem parseQuery_pieces_blanks :
    create.parseQuery? ⟨0, Bytes.ofString " a =1&& b"⟩
        = some (create.parseQuery ⟨0, Bytes.ofString " a =1&& b"⟩) ∧
      (∀ query ∈ (create.parseQuery ⟨0, Bytes.ofString " a =1&& b"⟩).queries,
        IsPiece (Bytes.ofString " a =1&& b") query.1.bytes ∧
          IsPiece (Bytes.ofString " a =1&& b") query.2.bytes) ∧
      (create.parseQuery ⟨0, Bytes.ofString " a =1&& b"⟩).queries.length
        ≤ (Bytes.ofString " a =1&& b").count 38 + 1 :=
  parseQuery_pieces rfl (by decide)

/-- A value with an `=` of its own is cut at its last one, and the key is what stands
before that: the pair that was meant is stored for no key and no value. -/
theorem parseQuery_assigned_value {key value : Bytes} (hkey : Plain key) (hamp : 38 ∉ value)
    (hassign : 61 ∈ value) (hempty : p.queries = []) (hstr : str.bytes = key ++ 61 :: value)
    (hsize : str.bytes.length < 2 ^ 64) :
    (p.parseQuery str).queryTable ≠ [(trim key, trim value)] ∧
      ∃ before name last, str.bytes = before ++ 61 :: (name ++ 61 :: last) ∧
        Plain name ∧ Plain last ∧ (p.parseQuery str).queryTable = [(trim name, trim last)] := by
  obtain ⟨front, last, rfl, hlast⟩ := exists_last_split hassign
  have hfirst : 61 ∈ key ++ 61 :: front := List.mem_append_right _ List.mem_cons_self
  obtain ⟨before, name, hsplit, hname⟩ := exists_last_split hfirst
  have hwhole : str.bytes = before ++ 61 :: (name ++ 61 :: last) := by
    rw [hstr, ← List.cons_append, ← List.append_assoc, hsplit, List.append_assoc,
      List.cons_append]
  have hnoAmp : 38 ∉ str.bytes := by
    rw [hstr, List.mem_append, List.mem_cons, not_or, not_or]
    exact ⟨hkey.2, by decide, hamp⟩
  rw [hwhole, List.mem_append, not_or, List.mem_cons, not_or, List.mem_append, not_or,
    List.mem_cons, not_or] at hnoAmp
  obtain ⟨hbefore, -, hnameAmp, -, hlastAmp⟩ := hnoAmp
  have htable : (p.parseQuery str).queryTable = [(trim name, trim last)] := by
    rw [queryTable_parseQuery p hsize, queryTable_of_empty hempty, hwhole,
      queryEntries_lastAssign hbefore ⟨hname, hnameAmp⟩ ⟨hlast, hlastAmp⟩]
    rfl
  refine ⟨?_, before, name, last, hwhole, ⟨hname, hnameAmp⟩, ⟨hlast, hlastAmp⟩, htable⟩
  rw [htable]
  intro hsame
  have hvalue : trim last = trim (front ++ 61 :: last) :=
    (Prod.mk.inj (List.cons.inj hsame).1).2
  have hstored : 61 ∈ trim (front ++ 61 :: last) :=
    (Strip.mem_strip_iff (by decide)).mpr (List.mem_append_right _ List.mem_cons_self)
  rw [← hvalue] at hstored
  exact hlast ((Strip.strip_within SP last).subset hstored)

theorem parseQuery_assigned_value_padding :
    (create.parseQuery ⟨0, Bytes.ofString "t=YQ=="⟩).queryTable
        ≠ [(trim (Bytes.ofString "t"), trim (Bytes.ofString "YQ=="))] ∧
      ∃ before name last, Bytes.ofString "t=YQ==" = before ++ 61 :: (name ++ 61 :: last) ∧
        Plain name ∧ Plain last ∧
        (create.parseQuery ⟨0, Bytes.ofString "t=YQ=="⟩).queryTable = [(trim name, trim last)] :=
  parseQuery_assigned_value (by decide) (by decide) (by decide) rfl (by decide) (by decide)

/-- The segment `t=YQ==` is stored as an empty value of the empty key. -/
theorem padding_not_whole :
    ¬ ∀ (p : HttpParser) (str : StringView) (key value : Bytes), Plain key → 38 ∉ value →
      61 ∈ value → p.queries = [] → str.bytes = key ++ 61 :: value →
        str.bytes.length < 2 ^ 64 →
          (p.parseQuery str).queryTable = [(trim key, trim value)] := by
  intro hwhole
  have htable := hwhole create ⟨0, Bytes.ofString "t=YQ=="⟩ (Bytes.ofString "t")
    (Bytes.ofString "YQ==") (by decide) (by decide) (by decide) rfl (by decide) (by decide)
  have hstored : (create.parseQuery ⟨0, Bytes.ofString "t=YQ=="⟩).queryTable = [([], [])] := by
    decide
  rw [hstored] at htable
  exact absurd htable (by decide)

end ParseQuery

end HttpParser

end GameDemoLearn.Net.Http
