import GameDemoLearn.Net.Http.HttpRequest

/-!
A parser that is used again (`HttpParser.cpp`). Every successful `ParseRequest`
assigns the other members anew, but adds to `_queries`. Two texts with the same
characters are still two texts, so a history is one of texts, and every entry of
`_queries` is traced to the text whose characters it views.
-/

namespace GameDemoLearn.Net.Http

namespace HttpParser

/-- Insertions put some of the entries behind those that are there. -/
theorem insertQueries_eq_append (queries entries : List (StringView × StringView)) :
    ∃ added, insertQueries queries entries = queries ++ added ∧ added ⊆ entries := by
  induction entries generalizing queries with
  | nil => exact ⟨[], (List.append_nil queries).symm, List.nil_subset []⟩
  | cons entry rest ih =>
      obtain ⟨added, hadded, hrest⟩ := ih (insertQuery queries entry)
      rw [insertQueries, List.foldl_cons]
      change ∃ added, insertQueries (insertQuery queries entry) rest = queries ++ added ∧ _
      rw [hadded, insertQuery]
      split
      · exact ⟨added, rfl, List.subset_cons_of_subset entry hrest⟩
      · refine ⟨entry :: added, List.append_assoc queries [entry] added, ?_⟩
        exact List.cons_subset_cons entry hrest

theorem prefix_insertQueries (queries entries : List (StringView × StringView)) :
    queries <+: insertQueries queries entries := by
  obtain ⟨added, hadded, -⟩ := insertQueries_eq_append queries entries
  rw [hadded]
  exact List.prefix_append queries added

theorem mem_insertQueries {queries entries : List (StringView × StringView)}
    {query : StringView × StringView} (hquery : query ∈ insertQueries queries entries) :
    query ∈ queries ∨ query ∈ entries := by
  obtain ⟨added, hadded, hsubset⟩ := insertQueries_eq_append queries entries
  rw [hadded] at hquery
  exact (List.mem_append.mp hquery).imp_right fun hnew => hsubset hnew

/-- The table has an entry for the key. -/
def HasKey (queries : List (StringView × StringView)) (key : Bytes) : Prop :=
  ∃ query ∈ queries, query.1.bytes = key

theorem HasKey.mono {queries queries' : List (StringView × StringView)} {key : Bytes}
    (hkey : HasKey queries key) (hgrown : queries <+: queries') : HasKey queries' key := by
  obtain ⟨query, hquery, hbytes⟩ := hkey
  exact ⟨query, hgrown.subset hquery, hbytes⟩

theorem any_iff_hasKey (queries : List (StringView × StringView)) (key : Bytes) :
    (queries.any fun query => query.1.bytes == key) = true ↔ HasKey queries key := by
  simp only [List.any_eq_true, beq_iff_eq, HasKey]

theorem hasKey_insertQuery (queries : List (StringView × StringView))
    (entry : StringView × StringView) : HasKey (insertQuery queries entry) entry.1.bytes := by
  unfold insertQuery
  split
  · next hany => exact (any_iff_hasKey queries _).mp hany
  · exact ⟨entry, List.mem_append_right queries (List.mem_singleton_self entry), rfl⟩

theorem hasKey_insertQueries {queries entries : List (StringView × StringView)}
    {entry : StringView × StringView} (hentry : entry ∈ entries) :
    HasKey (insertQueries queries entries) entry.1.bytes := by
  induction entries generalizing queries with
  | nil => cases hentry
  | cons first rest ih =>
      rcases List.mem_cons.mp hentry with rfl | hrest
      · exact (hasKey_insertQuery queries entry).mono (prefix_insertQueries _ rest)
      · exact ih hrest

/-- Entries whose keys are there are not inserted. -/
theorem insertQueries_of_hasKey {queries entries : List (StringView × StringView)}
    (hkeys : ∀ entry ∈ entries, HasKey queries entry.1.bytes) :
    insertQueries queries entries = queries := by
  induction entries with
  | nil => rfl
  | cons entry rest ih =>
      rw [List.forall_mem_cons] at hkeys
      have hentry : insertQuery queries entry = queries :=
        if_pos ((any_iff_hasKey queries _).mpr hkeys.1)
      rw [insertQueries, List.foldl_cons, hentry]
      exact ih hkeys.2

/-- Inserting the same entries once more changes nothing. -/
theorem insertQueries_self (queries entries : List (StringView × StringView)) :
    insertQueries (insertQueries queries entries) entries = insertQueries queries entries :=
  insertQueries_of_hasKey fun _ hentry => hasKey_insertQueries hentry

/-- Whether a text is refused does not depend on the parser. -/
theorem parseRequest_cases (originalUrl : Bytes) :
    (∀ p : HttpParser, ∃ headerLen numHeaders,
      p.parseRequest originalUrl = (0, { p with headerLen, numHeaders })) ∨
    ∃ request headerLen, request.In originalUrl ∧ ∀ p : HttpParser,
      p.parseRequest originalUrl = (headerLen.toNat, p.accept originalUrl request headerLen) := by
  by_cases hempty : originalUrl = []
  · refine .inl fun p => ⟨p.headerLen, p.numHeaders, ?_⟩
    simp only [parseRequest, if_pos hempty]
  · cases hparse : phrParseRequest originalUrl MAX_HEADER_FIELD_NUM with
    | needMore numHeaders =>
        refine .inl fun p => ⟨-2, numHeaders, ?_⟩
        simp only [parseRequest, if_neg hempty, hparse]
    | fail numHeaders =>
        refine .inl fun p => ⟨-1, numHeaders, ?_⟩
        simp only [parseRequest, if_neg hempty, hparse]
    | done request next =>
        by_cases hneg : toInt next.pos < 0
        · refine .inl fun p => ⟨toInt next.pos, request.headers.length, ?_⟩
          simp only [parseRequest, if_neg hempty, hparse, if_pos hneg]
        · refine .inr ⟨request, toInt next.pos, phrParseRequest_in hparse, fun p => ?_⟩
          simp only [parseRequest, if_neg hempty, hparse, if_neg hneg]

/-- What a call does to `_queries`. -/
theorem queries_parseRequest (originalUrl : Bytes) : ∃ entries, ∀ p : HttpParser,
    (p.parseRequest originalUrl).2.queries = insertQueries p.queries entries := by
  rcases parseRequest_cases originalUrl with hrefused | ⟨request, headerLen, -, haccepted⟩
  · refine ⟨[], fun p => ?_⟩
    obtain ⟨headerLen, numHeaders, hparse⟩ := hrefused p
    rw [hparse]
    rfl
  · obtain ⟨path, entries, bodyLen, haccept, -, -⟩ := accept_eq originalUrl request headerLen
    refine ⟨entries, fun p => ?_⟩
    rw [haccepted, haccept]

theorem length_queries_parseRequest (p : HttpParser) (originalUrl : Bytes) :
    p.queries.length ≤ (p.parseRequest originalUrl).2.queries.length := by
  obtain ⟨entries, hqueries⟩ := queries_parseRequest originalUrl
  rw [hqueries]
  exact (prefix_insertQueries p.queries entries).length_le

/-- The views a parser holds. -/
def views (p : HttpParser) : List StringView :=
  [p.method, p.originalUrl, p.path, p.msg] ++ p.headers.flatMap (fun header => [header.1, header.2])
    ++ p.queries.flatMap fun query => [query.1, query.2]

/-- Two parsers show the same request. -/
structure Agrees (p q : HttpParser) : Prop where
  method : p.method = q.method
  path : p.path = q.path
  minorVersion : p.minorVersion = q.minorVersion
  headers : p.headers = q.headers
  bodyLen : p.bodyLen = q.bodyLen
  queries : p.queries = q.queries

section Success

variable {originalUrl : Bytes} {p : HttpParser}

/-- What was parsed before can only be seen in `_queries`. -/
theorem agrees_of_queries (hsuccess : 0 < (p.parseRequest originalUrl).1) (q : HttpParser)
    (hqueries : (p.parseRequest originalUrl).2.queries = (q.parseRequest originalUrl).2.queries) :
    (p.parseRequest originalUrl).2.Agrees (q.parseRequest originalUrl).2 := by
  rcases parseRequest_cases originalUrl with hrefused | ⟨request, headerLen, -, haccepted⟩
  · obtain ⟨headerLen, numHeaders, hparse⟩ := hrefused p
    rw [hparse] at hsuccess
    exact absurd hsuccess (Nat.lt_irrefl 0)
  · obtain ⟨path, entries, bodyLen, haccept, -, -⟩ := accept_eq originalUrl request headerLen
    rw [haccepted, haccepted, haccept, haccept] at hqueries ⊢
    exact ⟨rfl, rfl, rfl, rfl, rfl, hqueries⟩

theorem toHttpHeaders_in {text : Bytes} {headers : List PhrHeader}
    (hheaders : ∀ header ∈ headers, header.name.In text ∧ header.value.In text) :
    ∀ header ∈ toHttpHeaders headers, header.1.In text ∧ header.2.In text := by
  rw [toHttpHeaders, List.forall_mem_append, List.forall_mem_map]
  refine ⟨hheaders, fun header hheader => ?_⟩
  rw [List.eq_of_mem_replicate hheader]
  exact ⟨StringView.null_in text, StringView.null_in text⟩

/-- The views lie in the text where the entries of `_queries` do. -/
theorem views_parseRequest (hsuccess : 0 < (p.parseRequest originalUrl).1) (hmsg : p.msg = .null)
    (hqueries : ∀ query ∈ (p.parseRequest originalUrl).2.queries, EntryIn originalUrl query) :
    ∀ v ∈ (p.parseRequest originalUrl).2.views, v.In originalUrl := by
  rcases parseRequest_cases originalUrl with hrefused | ⟨request, headerLen, hrequest, haccepted⟩
  · obtain ⟨headerLen, numHeaders, hparse⟩ := hrefused p
    rw [hparse] at hsuccess
    exact absurd hsuccess (Nat.lt_irrefl 0)
  · obtain ⟨path, entries, bodyLen, haccept, -, hin⟩ := accept_eq originalUrl request headerLen
    rw [haccepted, haccept] at hqueries ⊢
    simp only [views, List.forall_mem_append, List.forall_mem_cons, List.forall_mem_flatMap]
    refine ⟨⟨⟨hrequest.method, List.prefix_refl _, (hin _ hrequest.path).1, ?_,
      List.forall_mem_nil _⟩, ?_⟩, ?_⟩
    · rw [hmsg]
      exact StringView.null_in originalUrl
    · intro header hheader
      obtain ⟨hname, hvalue⟩ := toHttpHeaders_in hrequest.headers header hheader
      exact ⟨hname, hvalue, List.forall_mem_nil _⟩
    · intro query hquery
      obtain ⟨hkey, hvalue⟩ := hqueries query hquery
      exact ⟨hkey, hvalue, List.forall_mem_nil _⟩

end Success

/-- The entries that a fresh parser takes from a text lie in it. -/
theorem queries_create_in (originalUrl : Bytes) :
    ∀ query ∈ (create.parseRequest originalUrl).2.queries, EntryIn originalUrl query := by
  intro query hquery
  rcases parseRequest_cases originalUrl with hrefused | ⟨request, headerLen, hrequest, haccepted⟩
  · obtain ⟨headerLen, numHeaders, hparse⟩ := hrefused create
    rw [hparse] at hquery
    cases hquery
  · obtain ⟨path, entries, bodyLen, haccept, -, hin⟩ := accept_eq originalUrl request headerLen
    rw [haccepted, haccept] at hquery
    rcases mem_insertQueries hquery with hnone | hentry
    · cases hnone
    · exact (hin originalUrl hrequest.path).2 query hentry

end HttpParser

namespace HttpRequest

/-- The method, the path and the headers are views of the text. -/
structure ViewsIn (req : HttpRequest) (text : Bytes) : Prop where
  method : req.parser.method.In text
  path : req.parser.path.In text
  headers : ∀ header ∈ req.parser.headers, header.1.In text ∧ header.2.In text

section Parse

variable (req : HttpRequest) {content : Bytes}

/-- A text that is parsed is what the request views from then on. -/
theorem viewsIn_parse (hshort : content.length < 2 ^ 31) :
    ((req.parse content).1 = .ok ∧ (req.parse content).2.ViewsIn content) ∨
    ((req.parse content).1 ≠ .ok ∧ (req.parse content).2.view = req.view ∧
      ∀ text, req.ViewsIn text → (req.parse content).2.ViewsIn text) := by
  rcases req.parse_cases hshort with ⟨hrefused, headerLen, numHeaders, hparse⟩
    | ⟨hok, request, headerLen, hrequest, hparse⟩
  · refine .inr ⟨hrefused, ?_, fun text htext => ?_⟩
    · rw [hparse]
      rfl
    · rw [hparse]
      exact ⟨htext.method, htext.path, htext.headers⟩
  · obtain ⟨path, entries, bodyLen, haccept, -, hin⟩ :=
      HttpParser.accept_eq content request headerLen
    refine .inl ⟨hok, ?_⟩
    rw [hparse, haccept]
    exact ⟨hrequest.method, (hin content hrequest.path).1,
      HttpParser.toHttpHeaders_in hrequest.headers⟩

/-- The entries that `Parse` adds to `_queries` view the text. -/
theorem queries_parse (hshort : content.length < 2 ^ 31) :
    ∃ added, (req.parse content).2.parser.queries = req.parser.queries ++ added ∧
      ∀ query ∈ added, HttpParser.EntryIn content query := by
  rcases req.parse_cases hshort with ⟨-, headerLen, numHeaders, hparse⟩
    | ⟨-, request, headerLen, hrequest, hparse⟩
  · refine ⟨[], ?_, List.forall_mem_nil _⟩
    rw [hparse, List.append_nil]
  · obtain ⟨path, entries, bodyLen, haccept, -, hin⟩ :=
      HttpParser.accept_eq content request headerLen
    obtain ⟨added, hadded, hsubset⟩ :=
      HttpParser.insertQueries_eq_append req.parser.queries entries
    refine ⟨added, ?_, fun query hquery => ?_⟩
    · rw [hparse, haccept]
      exact hadded
    · exact (hin content hrequest.path).2 query (hsubset hquery)

end Parse

end HttpRequest

/-- A parser with the text of every entry of `_queries`. -/
structure TracedParser (τ : Type*) where
  parser : HttpParser
  queryTexts : List τ
  length_queryTexts : queryTexts.length = parser.queries.length

namespace TracedParser

variable {τ : Type*} (content : τ → Bytes)

def create : TracedParser τ := ⟨HttpParser.create, [], rfl⟩

/-- `ParseRequest` of a text: the entries that were not there are of this text. -/
def parseRequest (p : TracedParser τ) (text : τ) : TracedParser τ where
  parser := (p.parser.parseRequest (content text)).2
  queryTexts := p.queryTexts ++ List.replicate
    ((p.parser.parseRequest (content text)).2.queries.length - p.parser.queries.length) text
  length_queryTexts := by
    have hle := p.parser.length_queries_parseRequest (content text)
    rw [List.length_append, List.length_replicate, p.length_queryTexts]
    omega

/-- The calls of `ParseRequest` on a new parser, one after the other. -/
def parseAll (history : List τ) : TracedParser τ :=
  history.foldl (parseRequest content) create

/-- The texts of the entries are all the given one. -/
def OnlyOf (p : TracedParser τ) (text : τ) : Prop := ∀ t ∈ p.queryTexts, t = text

@[simp] theorem parser_parseRequest (p : TracedParser τ) (text : τ) :
    (p.parseRequest content text).parser = (p.parser.parseRequest (content text)).2 := rfl

/-- The parser shows of the text what a fresh one shows, with views of this text
only. -/
structure ShowsOnly (p : TracedParser τ) (text : τ) : Prop where
  agrees : p.parser.Agrees (HttpParser.create.parseRequest (content text)).2
  views : ∀ v ∈ p.parser.views, v.In (content text)
  queryTexts : p.OnlyOf text

theorem onlyOf_parseRequest (p : TracedParser τ) (text : τ) :
    (p.parseRequest content text).OnlyOf text ↔ p.OnlyOf text := by
  simp only [OnlyOf, parseRequest, List.forall_mem_append]
  exact and_iff_left fun t ht => List.eq_of_mem_replicate ht

/-- The invariant of a history: where all entries are of one text, they are those a
fresh parser takes from it. -/
structure Traced (p : TracedParser τ) : Prop where
  queries : ∀ text, p.OnlyOf text → p.parser.queries = [] ∨
    p.parser.queries = (HttpParser.create.parseRequest (content text)).2.queries
  msg : p.parser.msg = .null

theorem traced_create : (create : TracedParser τ).Traced content := ⟨fun _ _ => .inl rfl, rfl⟩

/-- The entries of a text are inserted once, into an empty table or behind them. -/
theorem queries_of_onlyOf {p : TracedParser τ} (hp : p.Traced content) {text : τ}
    (honly : p.OnlyOf text) :
    (p.parser.parseRequest (content text)).2.queries
      = (HttpParser.create.parseRequest (content text)).2.queries := by
  obtain ⟨entries, hqueries⟩ := HttpParser.queries_parseRequest (content text)
  rcases hp.queries text honly with hempty | hfresh
  · rw [hqueries, hqueries, hempty]
    rfl
  · rw [hqueries, hfresh, hqueries, HttpParser.insertQueries_self]

theorem Traced.parseRequest {p : TracedParser τ} (hp : p.Traced content) (called : τ) :
    (p.parseRequest content called).Traced content where
  queries text honly := by
    have hbefore : p.OnlyOf text := fun t ht => honly t (List.mem_append_left _ ht)
    by_cases hnew : (p.parser.parseRequest (content called)).2.queries.length
      = p.parser.queries.length
    · obtain ⟨entries, hqueries⟩ := HttpParser.queries_parseRequest (content called)
      have hsame : p.parser.queries = (p.parser.parseRequest (content called)).2.queries := by
        apply List.IsPrefix.eq_of_length _ hnew.symm
        rw [hqueries]
        exact HttpParser.prefix_insertQueries p.parser.queries entries
      rw [parser_parseRequest, ← hsame]
      exact hp.queries text hbefore
    · -- An entry was inserted, so the text of this call is the given one.
      have hle := p.parser.length_queries_parseRequest (content called)
      obtain rfl : called = text := by
        apply honly
        apply List.mem_append_right
        rw [List.mem_replicate]
        exact ⟨by omega, rfl⟩
      exact .inr (queries_of_onlyOf content hp hbefore)
  msg := by
    rw [parser_parseRequest]
    rcases HttpParser.parseRequest_cases (content called) with hrefused
      | ⟨request, headerLen, -, haccepted⟩
    · obtain ⟨headerLen, numHeaders, hparse⟩ := hrefused p.parser
      rw [hparse]
      exact hp.msg
    · obtain ⟨path, entries, bodyLen, haccept, -, -⟩ :=
        HttpParser.accept_eq (content called) request headerLen
      rw [haccepted, haccept]
      exact hp.msg

theorem traced_parseAll (history : List τ) : (parseAll content history).Traced content := by
  induction history using List.reverseRecOn with
  | nil => exact traced_create content
  | append_singleton history text ih =>
      rw [parseAll, List.foldl_append]
      exact ih.parseRequest content text

/-- After any calls, a `ParseRequest` that succeeds leaves what it leaves in a fresh
parser, and no view of another text, if and only if every entry that `_queries`
held before is of this text. -/
theorem parseRequest_showsOnly_iff (history : List τ) (text : τ)
    (hsuccess : 0 < ((parseAll content history).parser.parseRequest (content text)).1) :
    ((parseAll content history).parseRequest content text).ShowsOnly content text ↔
      (parseAll content history).OnlyOf text := by
  have htraced := traced_parseAll content history
  generalize parseAll content history = p at hsuccess htraced ⊢
  constructor
  · intro hshows
    exact (onlyOf_parseRequest content p text).mp hshows.queryTexts
  · intro honly
    have hqueries := queries_of_onlyOf content htraced honly
    refine ⟨HttpParser.agrees_of_queries hsuccess HttpParser.create hqueries, ?_,
      (onlyOf_parseRequest content p text).mpr honly⟩
    apply HttpParser.views_parseRequest hsuccess htraced.msg
    rw [hqueries]
    exact HttpParser.queries_create_in (content text)

/-- Two requests of one connection: the first asks for a name, the second has no
query. -/
def nameThenRoot (second : Bool) : Bytes :=
  Bytes.ofString (if second then "GET / HTTP/1.1\r\n\r\n" else "GET /?name=a HTTP/1.1\r\n\r\n")

theorem parseRequest_showsOnly_iff_again :
    0 < ((parseAll nameThenRoot [false]).parser.parseRequest (nameThenRoot false)).1 ∧
      (((parseAll nameThenRoot [false]).parseRequest nameThenRoot false).ShowsOnly nameThenRoot
        false ↔ (parseAll nameThenRoot [false]).OnlyOf false) :=
  ⟨by decide +kernel, parseRequest_showsOnly_iff nameThenRoot [false] false (by decide +kernel)⟩

/-- After the second request the parser still has the name of the first, which a fresh
parser does not have. -/
theorem query_of_other_request :
    0 < ((parseAll nameThenRoot [false]).parser.parseRequest (nameThenRoot true)).1 ∧
      ¬ ((parseAll nameThenRoot [false]).parseRequest nameThenRoot true).ShowsOnly nameThenRoot
        true := by
  constructor
  · decide +kernel
  · intro hshows
    have hcount := congrArg List.length hshows.agrees.queries
    revert hcount
    decide +kernel

end TracedParser

end GameDemoLearn.Net.Http
