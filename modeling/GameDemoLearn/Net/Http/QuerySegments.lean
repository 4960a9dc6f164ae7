import GameDemoLearn.Net.Http.QueryValues

/-!
`ParseQuery` segment by segment (`HttpParser.cpp`). A segment without `=` counts for the key
of the last segment before it that has one, and for the empty key where there is none. So a
segment at the front of a text may count for another key once the text is joined to one
before it, and a text with neither `=` nor `&` counts only where it is joined to another.
-/

namespace GameDemoLearn.Net.Http

def segments (text : Bytes) : List Bytes := text.splitOn 38

/-- The pieces of a segment between its `=`. -/
def pieces (segment : Bytes) : List Bytes := segment.splitOn 61

/-- The piece before the last `=`, if there is one. -/
def segmentName? (segment : Bytes) : Option Bytes := (pieces segment).dropLast.getLast?.map trim

/-- The piece behind the last `=`. -/
def segmentValue (segment : Bytes) : Bytes := trim ((pieces segment).getLastD [])

/-- The segments with the keys they count for, given the key of the last segment before. -/
def counted (key : Bytes) : List Bytes → List (Bytes × Bytes)
  | [] => []
  | segment :: rest =>
      let key := (segmentName? segment).getD key
      (key, segmentValue segment) :: counted key rest

/-- The key of the last segment that has one. -/
def keyAfter (key : Bytes) (segments : List Bytes) : Bytes :=
  segments.foldl (fun key segment => (segmentName? segment).getD key) key

/-- The value of the first segment whose key is empty. -/
def emptyNamed : List Bytes → Option Bytes
  | [] => none
  | segment :: rest =>
      if segmentName? segment = some [] then some (segmentValue segment) else emptyNamed rest

/-- The value of the first segment that counts for the empty key, at the front of a text. -/
def emptyCounted : List Bytes → Option Bytes
  | [] => none
  | segment :: rest =>
      if segmentName? segment = none then some (segmentValue segment)
      else emptyNamed (segment :: rest)

section Segments

variable {text key cur : Bytes}

theorem pieces_of_plain (hcur : Plain cur) : pieces cur = [cur] :=
  List.splitOn_eq_singleton hcur.1

theorem pieces_append (hcur : Plain cur) (segment : Bytes) :
    pieces (cur ++ 61 :: segment) = cur :: pieces segment :=
  List.splitOn_append_cons_self_of_not_mem hcur.1 _

theorem segmentName?_of_plain (hcur : Plain cur) : segmentName? cur = none := by
  rw [segmentName?, pieces_of_plain hcur]
  rfl

theorem segmentValue_of_plain (hcur : Plain cur) : segmentValue cur = trim cur := by
  rw [segmentValue, pieces_of_plain hcur]
  rfl

theorem segmentName?_append (hcur : Plain cur) (segment : Bytes) :
    segmentName? (cur ++ 61 :: segment) = some ((segmentName? segment).getD (trim cur)) := by
  have hne : pieces segment ≠ [] := List.splitOn_ne_nil _ _
  rw [segmentName?, pieces_append hcur, List.dropLast_cons_of_ne_nil hne, List.getLast?_cons,
    Option.map_some, segmentName?]
  cases (pieces segment).dropLast.getLast? <;> rfl

theorem segmentValue_append (hcur : Plain cur) (segment : Bytes) :
    segmentValue (cur ++ 61 :: segment) = segmentValue segment := by
  obtain ⟨piece, rest, hpieces⟩ : ∃ piece rest, pieces segment = piece :: rest :=
    List.exists_cons_of_ne_nil (List.splitOn_ne_nil _ _)
  rw [segmentValue, segmentValue, pieces_append hcur, hpieces, List.getLastD_cons,
    List.getLastD_cons, List.getLastD_cons]

/-- The loop reads the segments in turn. -/
theorem entriesFrom_eq_counted (hcur : Plain cur) (key text : Bytes) :
    entriesFrom key cur text = counted key ((segments text).modifyHead (cur ++ ·)) := by
  induction text generalizing key cur with
  | nil =>
      have hsegments : segments [] = [[]] := rfl
      rw [hsegments, List.modifyHead_cons, List.append_nil, counted, counted,
        segmentName?_of_plain hcur, segmentValue_of_plain hcur]
      rfl
  | cons c text ih =>
      obtain ⟨segment, rest, hsegments⟩ : ∃ segment rest, segments text = segment :: rest :=
        List.exists_cons_of_ne_nil (List.splitOn_ne_nil _ _)
      have hcons : segments (c :: text)
          = if c == 38 then [] :: segments text else (segments text).modifyHead (c :: ·) :=
        List.splitOn_cons_eq_if_modifyHead c text
      rw [entriesFrom, hcons, hsegments]
      by_cases heq : c = 61
      · rw [if_pos heq, ih (by decide), hsegments, heq, if_neg (by decide)]
        simp only [List.modifyHead_cons, List.nil_append, counted, segmentName?_append hcur,
          segmentValue_append hcur, Option.getD_some]
      · by_cases hamp : c = 38
        · rw [if_neg heq, if_pos hamp, ih (by decide), hsegments, hamp, if_pos (by decide)]
          simp only [List.modifyHead_cons, List.nil_append, List.append_nil, counted,
            segmentName?_of_plain hcur, segmentValue_of_plain hcur, Option.getD_none]
        · have hgrown : Plain (cur ++ [c]) := by
            simp [Plain, hcur.1, hcur.2, Ne.symm heq, Ne.symm hamp]
          rw [if_neg heq, if_neg hamp, ih hgrown, hsegments, if_neg (by simpa using hamp)]
          simp only [List.modifyHead_cons, List.append_assoc, List.singleton_append]

theorem queryEntries_of_plain (htext : Plain text) : queryEntries text = [] :=
  if_pos htext

theorem queryEntries_of_not_plain (htext : ¬ Plain text) :
    queryEntries text = counted [] (segments text) := by
  obtain ⟨segment, rest, hsegments⟩ : ∃ segment rest, segments text = segment :: rest :=
    List.exists_cons_of_ne_nil (List.splitOn_ne_nil _ _)
  rw [queryEntries, if_neg htext, entriesFrom_eq_counted (by decide), hsegments]
  rfl

theorem counted_of_plain (htext : Plain text) (key : Bytes) :
    counted key (segments text) = [(key, trim text)] := by
  have hsegments : segments text = [text] := List.splitOn_eq_singleton htext.2
  rw [hsegments, counted, counted, segmentName?_of_plain htext, segmentValue_of_plain htext]
  rfl

end Segments

section Counted

theorem counted_append (key : Bytes) (first second : List Bytes) :
    counted key (first ++ second) = counted key first ++ counted (keyAfter key first) second := by
  induction first generalizing key with
  | nil => rfl
  | cons segment rest ih =>
      rw [List.cons_append, counted, counted, ih]
      rfl

/-- The key that is left over has a segment. -/
theorem find_keyAfter (key : Bytes) {segments : List Bytes} (hsegments : segments ≠ []) :
    (FirstWins.find (counted key segments) (keyAfter key segments)).isSome = true := by
  induction segments generalizing key with
  | nil => exact absurd rfl hsegments
  | cons segment rest ih =>
      have hafter : keyAfter key (segment :: rest)
          = keyAfter ((segmentName? segment).getD key) rest := rfl
      rw [counted, FirstWins.find_cons, hafter]
      cases rest with
      | nil =>
          have hlast : keyAfter ((segmentName? segment).getD key) []
              = (segmentName? segment).getD key := rfl
          rw [hlast, if_pos (beq_iff_eq.mpr rfl)]
          rfl
      | cons next rest =>
          split
          · rfl
          · exact ih _ (List.cons_ne_nil _ _)

/-- The key before a segment matters for that key only. -/
theorem find_counted_of_ne {key key' asked : Bytes} (hkey : key ≠ asked) (hkey' : key' ≠ asked)
    (segments : List Bytes) :
    FirstWins.find (counted key segments) asked
      = FirstWins.find (counted key' segments) asked := by
  induction segments with
  | nil => rfl
  | cons segment rest ih =>
      rw [counted, counted, FirstWins.find_cons, FirstWins.find_cons]
      cases segmentName? segment with
      | none =>
          rw [Option.getD_none, Option.getD_none, if_neg (by simpa using hkey),
            if_neg (by simpa using hkey')]
          exact ih
      | some name => rfl

/-- Behind another key a segment without a key is not for the empty one. -/
theorem find_counted_nil_of_ne {key : Bytes} (hkey : key ≠ []) (segments : List Bytes) :
    FirstWins.find (counted key segments) [] = emptyNamed segments := by
  induction segments generalizing key with
  | nil => rfl
  | cons segment rest ih =>
      rw [counted, FirstWins.find_cons, emptyNamed]
      cases segmentName? segment with
      | none =>
          rw [Option.getD_none, if_neg (by simpa using hkey), if_neg (by simp)]
          exact ih hkey
      | some name =>
          by_cases hname : name = []
          · rw [hname]
            rfl
          · rw [Option.getD_some, if_neg (by simpa using hname), if_neg (by simpa using hname)]
            exact ih hname

theorem find_counted_nil (segments : List Bytes) :
    FirstWins.find (counted [] segments) [] = emptyCounted segments := by
  cases segments with
  | nil => rfl
  | cons segment rest =>
      rw [counted, FirstWins.find_cons, emptyCounted, emptyNamed]
      cases segmentName? segment with
      | none => rfl
      | some name =>
          by_cases hname : name = []
          · rw [hname]
            rfl
          · rw [Option.getD_some, if_neg (by simpa using hname), if_neg (by simp),
              if_neg (by simpa using hname)]
            exact find_counted_nil_of_ne hname rest

end Counted

namespace HttpParser

/-- Whether the empty key comes out the same from the joined text and from the two parts. -/
def EmptyKeyAgrees (p : HttpParser) (s t : Bytes) : Prop :=
  (p.query []).isSome = true ∨
    (¬ Plain s ∧ ((emptyCounted (segments s)).isSome = true ∨ Plain t ∨
      emptyCounted (segments t) = emptyNamed (segments t))) ∨
    (Plain s ∧ ¬ Plain t ∧ emptyCounted (segments t) = some (trim s))

theorem find_queryEntries {text key : Bytes} (hkey : key ≠ []) :
    FirstWins.find (queryEntries text) key
      = FirstWins.find (counted [] (segments text)) key := by
  by_cases htext : Plain text
  · rw [queryEntries_of_plain htext, counted_of_plain htext, FirstWins.find_singleton,
      if_neg (by simpa using Ne.symm hkey)]
    rfl
  · rw [queryEntries_of_not_plain htext]

theorem query_parseQuery_joined (p : HttpParser) {whole : StringView} {s t : Bytes}
    (hwhole : whole.bytes = s ++ 38 :: t) (hsize : whole.bytes.length < 2 ^ 64) (key : Bytes) :
    (p.parseQuery whole).query key
      = (p.query key).or ((FirstWins.find (counted [] (segments s)) key).or
          (FirstWins.find (counted (keyAfter [] (segments s)) (segments t)) key)) := by
  have hjoined : segments (s ++ 38 :: t) = segments s ++ segments t :=
    List.splitOn_append_cons_self _ _
  have hplain : ¬ Plain (s ++ 38 :: t) := fun h => h.2 (by simp)
  rw [query_parseQuery p hsize, hwhole, queryEntries_of_not_plain hplain, hjoined, counted_append,
    FirstWins.find_append]

theorem query_parseQuery_parts (p : HttpParser) {s t : StringView}
    (hs : s.bytes.length < 2 ^ 64) (ht : t.bytes.length < 2 ^ 64) (key : Bytes) :
    ((p.parseQuery s).parseQuery t).query key
      = (p.query key).or ((FirstWins.find (queryEntries s.bytes) key).or
          (FirstWins.find (queryEntries t.bytes) key)) := by
  rw [query_parseQuery _ ht, query_parseQuery p hs, Option.or_assoc]

/-- Every other key comes out the same. -/
theorem joined_of_ne_nil {s t key : Bytes} (hkey : key ≠ []) :
    (FirstWins.find (counted [] (segments s)) key).or
        (FirstWins.find (counted (keyAfter [] (segments s)) (segments t)) key)
      = (FirstWins.find (queryEntries s) key).or (FirstWins.find (queryEntries t) key) := by
  have hlast : (FirstWins.find (counted [] (segments s)) (keyAfter [] (segments s))).isSome
      = true := find_keyAfter [] (List.splitOn_ne_nil _ _)
  rw [find_queryEntries hkey, find_queryEntries hkey]
  cases hfind : FirstWins.find (counted [] (segments s)) key with
  | some val => rfl
  | none =>
      have hafter : keyAfter [] (segments s) ≠ key := by
        intro heq
        rw [heq, hfind] at hlast
        cases hlast
      rw [find_counted_of_ne hafter (Ne.symm hkey)]

theorem joined_nil_iff (p : HttpParser) (s t : Bytes) :
    (p.query []).or ((FirstWins.find (counted [] (segments s)) []).or
        (FirstWins.find (counted (keyAfter [] (segments s)) (segments t)) []))
      = (p.query []).or ((FirstWins.find (queryEntries s) []).or
        (FirstWins.find (queryEntries t) [])) ↔ EmptyKeyAgrees p s t := by
  have hlast : (FirstWins.find (counted [] (segments s)) (keyAfter [] (segments s))).isSome
      = true := find_keyAfter [] (List.splitOn_ne_nil _ _)
  unfold EmptyKeyAgrees
  cases p.query [] with
  | some val => simp
  | none =>
      simp only [Option.none_or, Option.isSome_none, Bool.false_eq_true, false_or]
      by_cases hs : Plain s
      · have hcounted : emptyCounted (segments s) = some (trim s) := by
          rw [← find_counted_nil, counted_of_plain hs]
          rfl
        rw [find_counted_nil, hcounted, queryEntries_of_plain hs]
        by_cases ht : Plain t
        · simp [queryEntries_of_plain ht, hs, ht]
        · rw [queryEntries_of_not_plain ht, find_counted_nil]
          simp [hs, ht, eq_comm]
      · rw [queryEntries_of_not_plain hs]
        cases hfind : FirstWins.find (counted [] (segments s)) [] with
        | some val =>
            rw [find_counted_nil] at hfind
            simp [hs, hfind]
        | none =>
            have hafter : keyAfter [] (segments s) ≠ [] := by
              intro hnil
              rw [hnil, hfind] at hlast
              cases hlast
            rw [find_counted_nil] at hfind
            rw [find_counted_nil_of_ne hafter]
            by_cases ht : Plain t
            · rw [← find_counted_nil_of_ne hafter, counted_of_plain ht, FirstWins.find_singleton,
                if_neg (by simpa using hafter), queryEntries_of_plain ht]
              simp [hs, ht]
            · rw [queryEntries_of_not_plain ht, find_counted_nil]
              simp [hs, ht, hfind, eq_comm]

/-- Joining two queries by `&` inserts what the two insert one after the other, if and only
if the segments that count for the empty key do not depend on where the texts are joined. -/
theorem parseQuery_joined_iff (p : HttpParser) {whole s t : StringView}
    (hwhole : whole.bytes = s.bytes ++ 38 :: t.bytes) (hsize : whole.bytes.length < 2 ^ 64) :
    (∀ key, (p.parseQuery whole).query key = ((p.parseQuery s).parseQuery t).query key)
      ↔ EmptyKeyAgrees p s.bytes t.bytes := by
  have hlength : s.bytes.length + (t.bytes.length + 1) < 2 ^ 64 := by
    rw [hwhole, List.length_append, List.length_cons] at hsize
    exact hsize
  have hparts := query_parseQuery_parts p (s := s) (t := t) (by omega) (by omega)
  simp only [query_parseQuery_joined p hwhole hsize, hparts]
  constructor
  · intro h
    exact (joined_nil_iff p s.bytes t.bytes).mp (h [])
  · intro hagrees key
    by_cases hkey : key = []
    · rw [hkey]
      exact (joined_nil_iff p s.bytes t.bytes).mpr hagrees
    · rw [joined_of_ne_nil hkey]

theorem parseQuery_joined_named :
    (∀ key, (create.parseQuery ⟨0, Bytes.ofString "a=1&b=2"⟩).query key
        = ((create.parseQuery ⟨0, Bytes.ofString "a=1"⟩).parseQuery
            ⟨8, Bytes.ofString "b=2"⟩).query key)
      ↔ EmptyKeyAgrees create (Bytes.ofString "a=1") (Bytes.ofString "b=2") :=
  parseQuery_joined_iff create (by decide) (by decide)

/-- In `a=1&b&c=2` the segment `b` is for the key `a`, and in `b&c=2` for the empty key. -/
theorem segment_depends_on_front :
    ¬ ∀ (p : HttpParser) (whole s t : StringView),
      whole.bytes = s.bytes ++ 38 :: t.bytes → whole.bytes.length < 2 ^ 64 →
        ∀ key, (p.parseQuery whole).query key
          = ((p.parseQuery s).parseQuery t).query key := by
  intro hjoined
  have hquery := hjoined create ⟨0, Bytes.ofString "a=1&b&c=2"⟩ ⟨0, Bytes.ofString "a=1"⟩
    ⟨16, Bytes.ofString "b&c=2"⟩ (by decide) (by decide) []
  have hwhole : (create.parseQuery ⟨0, Bytes.ofString "a=1&b&c=2"⟩).query [] = none := by
    decide
  have hparts : ((create.parseQuery ⟨0, Bytes.ofString "a=1"⟩).parseQuery
      ⟨16, Bytes.ofString "b&c=2"⟩).query [] = some (Bytes.ofString "b") := by
    decide
  rw [hwhole, hparts] at hquery
  cases hquery

end HttpParser

end GameDemoLearn.Net.Http
