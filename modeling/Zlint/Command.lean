import Zlint.Engine
import Zlint.Filter

/-!
# The `zlint` command: `doLint`

`doLint` lints the parsed certificate and marshals the result map to JSON; only then, when
`-minStatus` is given, does it replace the map by `Above(minStatus)`. Nothing reads the map after
that, so what it writes encodes every result, and `-minStatus` only adds `Above`'s panic.

The libraries `doLint` calls are parameters: the decoders of its input, and the parts of
`encoding/json` below the map (a key's string literal, one `LintResult`, `json.Indent`).
-/

namespace Zlint

variable {Cert Src : Type}

/-- How `doLint` ends without writing: a panic, or `log.Fatalf` with its message. -/
inductive Exit where
  | panic (p : GoPanic)
  | fatal (msg : String)
  deriving DecidableEq

/-- The libraries `doLint` calls on its input: `pem.Decode` (the block's type and bytes, or
nil), `base64.StdEncoding.DecodeString` and `x509.ParseCertificate`. -/
structure CertDecoder (Cert : Type) where
  pemDecode : List UInt8 → Option (String × List UInt8)
  base64Decode : List UInt8 → Except GoError (List UInt8)
  parseCertificate : List UInt8 → Except GoError Cert

/-- The parts of `encoding/json` below the result map: the string literal of a key, the
encoding of one `LintResult` (its type is not in the sources), and `json.Indent` with prefix
"" and indent " ". -/
structure JsonCodec where
  quote : String → String
  encodeResult : LintResult → Except GoError String
  indent : String → Except GoError String

namespace JsonCodec

/-- `json.Marshal` of one value of the map, a `*LintResult`: nil is `null`. -/
def marshalValue (j : JsonCodec) : Option LintResult → Except GoError String
  | none => .ok "null"
  | some r => j.encodeResult r

/-- The members `"key":value` of the object, for the keys in the order given; the first value
that fails to encode fails the whole. -/
def marshalMembers (j : JsonCodec) (m : AList fun _ : String => Option LintResult) :
    List String → Except GoError (List String)
  | [] => .ok []
  | k :: ks =>
    match j.marshalValue ((m.lookup k).getD none) with
    | .error e => .error e
    | .ok v => (j.marshalMembers m ks).map fun rest => (j.quote k ++ ":" ++ v) :: rest

/-- `json.Marshal` of a `map[string]*LintResult`: an object with its keys in sorted order. -/
def marshalResults (j : JsonCodec) (m : AList fun _ : String => Option LintResult) :
    Except GoError String :=
  (j.marshalMembers m (sortStrings m.keys)).map fun members =>
    "\x7b" ++ ",".intercalate members ++ "\x7d"

end JsonCodec

/-- The first part of `doLint`: decode the file's bytes as `inform` says and parse the
certificate. The unknown-format message prints the `-format` flag `format`. -/
def readCertificate (d : CertDecoder Cert) (format inform : String) (fileBytes : List UInt8) :
    Except Exit Cert :=
  let asn1Data : Except Exit (List UInt8) :=
    if inform = "pem" then
      match d.pemDecode fileBytes with
      | some (blockType, bytes) =>
        if blockType = "CERTIFICATE" then .ok bytes else .error (.fatal "unable to parse PEM")
      | none => .error (.fatal "unable to parse PEM")
    else if inform = "der" then .ok fileBytes
    else if inform = "base64" then
      match d.base64Decode fileBytes with
      | .ok bytes => .ok bytes
      | .error err => .error (.fatal ("unable to parse base64: " ++ err.msg))
    else .error (.fatal ("unknown input format " ++ format))
  match asn1Data with
  | .error e => .error e
  | .ok data =>
    match d.parseCertificate data with
    | .ok c => .ok c
    | .error err => .error (.fatal ("unable to parse certificate: " ++ err.msg))

/-- The end of `doLint`: the JSON bytes, indented under `-pretty`, then a newline. -/
def writeOutput (prettyprint : Bool) (j : JsonCodec) (jsonBytes : String) : Except Exit String :=
  if prettyprint then
    match j.indent jsonBytes with
    | .error err => .error (.fatal ("can't format output: " ++ err.msg))
    | .ok out => .ok (out ++ "\n")
  else .ok (jsonBytes ++ "\n")

/-- The rest of `doLint`: lint, marshal `zlintResult.Results`, apply `-minStatus`, write. The
map `Above` returns is stored into `zlintResult.Results`, which nothing reads afterwards. -/
def writeResults (j : JsonCodec) (prettyprint : Bool) (linter : LinterImpl Cert Src) (c : Cert)
    (start finish : Int) (minStatus : Option LintStatus) : Except Exit String :=
  match linter.lint c start finish with
  | .error p => .error (.panic p)
  | .ok zlintResult =>
    match j.marshalResults zlintResult.results with
    | .error err => .error (.fatal ("unable to encode lints JSON: " ++ err.msg))
    | .ok jsonBytes =>
      match minStatus.map zlintResult.above with
      | some (.error p) => .error (.panic p)
      | _ => writeOutput prettyprint j jsonBytes

/-- `doLint`: what it writes to standard output for a file's bytes. `start` and `finish` are
the two time readings of `Lint`. -/
def doLint (d : CertDecoder Cert) (j : JsonCodec) (format : String) (prettyprint : Bool)
    (fileBytes : List UInt8) (inform : String) (linter : LinterImpl Cert Src)
    (minStatus : Option LintStatus) (start finish : Int) : Except Exit String :=
  match readCertificate d format inform fileBytes with
  | .error e => .error e
  | .ok c => writeResults j prettyprint linter c start finish minStatus

/-! ## `setLints` -/

/-- The flags `setLints` reads: `-nameFilter`, `-includeNames`, `-excludeNames`,
`-includeSources` and `-excludeSources`. -/
structure LintFlags where
  nameFilter : String
  includeNames : String
  excludeNames : String
  includeSources : String
  excludeSources : String

/-- The libraries `setLints` calls: `regexp.Compile` (the pattern's `MatchString`, or the
error) and `SourceList.FromString` (its code is not in the sources). -/
structure FlagParsers (Src : Type) where
  compile : String → Except GoError (String → Bool)
  sourcesFromString : String → Except GoError (List Src)

/-- `strings.Split` at a one-character separator, on the characters of the string. -/
def splitOn (sep : Char) : List Char → List (List Char)
  | [] => [[]]
  | c :: cs =>
    if c = sep then [] :: splitOn sep cs
    else match splitOn sep cs with
      | p :: ps => (c :: p) :: ps
      | [] => [[c]]

/-- `trimmedList`: the comma-separated items of `raw`, each trimmed. -/
def trimmedList (raw : String) : List String :=
  (splitOn ',' raw.data).map fun item => trimSpace ⟨item⟩

/-- The errors `setLints` returns: a `-nameFilter` that does not compile, or `Filter`'s. -/
inductive SetLintsError where
  | badNameFilter (err : GoError)
  | filter (err : FilterError)

/-- The texts of `setLints`'s errors. -/
def SetLintsError.text (quote : String → String) : SetLintsError → String
  | .badNameFilter err => "bad -nameFilter: " ++ err.msg
  | .filter err => err.text quote

/-- `setLints`: the default linter itself when no flag is set, and otherwise the linter `Filter`
returns for the options the flags give. A bad source list ends the process. -/
def setLints [DecidableEq Src] (p : FlagParsers Src) (f : LintFlags)
    (defaultLinter : LinterImpl Cert Src) : Except Exit (Except SetLintsError (LinterImpl Cert Src)) :=
  if f.nameFilter = "" ∧ f.includeNames = "" ∧ f.excludeNames = "" ∧ f.includeSources = "" ∧
      f.excludeSources = "" then .ok (.ok defaultLinter)
  else
    match (if f.nameFilter = "" then .ok none else (p.compile f.nameFilter).map some) with
    | .error err => .ok (.error (.badNameFilter err))
    | .ok nameFilter =>
      match (if f.excludeSources = "" then .ok [] else p.sourcesFromString f.excludeSources) with
      | .error err => .error (.fatal ("invalid -excludeSources: " ++ err.msg))
      | .ok excludeSources =>
        match (if f.includeSources = "" then .ok [] else p.sourcesFromString f.includeSources) with
        | .error err => .error (.fatal ("invalid -includeSources: " ++ err.msg ++ "\n"))
        | .ok includeSources =>
          match defaultLinter.filter ⟨nameFilter,
              if f.includeNames = "" then [] else trimmedList f.includeNames,
              if f.excludeNames = "" then [] else trimmedList f.excludeNames,
              includeSources, excludeSources⟩ with
          | .error p => .error (.panic p)
          | .ok r =>
            match r.result with
            | .error err => .ok (.error (.filter err))
            | .ok t => .ok (.ok t)

theorem splitOn_ne_nil (sep : Char) (cs : List Char) : splitOn sep cs ≠ [] := by
  cases cs with
  | nil => simp [splitOn]
  | cons c cs =>
    unfold splitOn
    split_ifs
    · simp
    · split <;> simp

/-- With `-nameFilter` and `-includeNames` or `-excludeNames`, `setLints` returns no linter
from a registry: `Filter` fails on the name lists, whatever names they hold. -/
theorem setLints_nameFilter_with_names [DecidableEq Src] (p : FlagParsers Src) (f : LintFlags)
    {defaultLinter : LinterImpl Cert Src} (hs : defaultLinter.Inv) (hre : f.nameFilter ≠ "")
    (hn : f.includeNames ≠ "" ∨ f.excludeNames ≠ "") :
    (∃ e, setLints p f defaultLinter = .error e) ∨
      ∃ e, setLints p f defaultLinter = .ok (.error e) := by
  have hne : ∀ raw, raw ≠ "" → (if raw = "" then [] else trimmedList raw) ≠ [] := fun raw h => by
    simp [h, trimmedList, splitOn_ne_nil]
  unfold setLints
  rw [if_neg fun h => hre h.1, if_neg hre]
  cases p.compile f.nameFilter with
  | error err => exact .inr ⟨_, rfl⟩
  | ok re =>
    cases (if f.excludeSources = "" then .ok [] else p.sourcesFromString f.excludeSources) with
    | error err => exact .inl ⟨_, rfl⟩
    | ok xs =>
      cases (if f.includeSources = "" then .ok [] else p.sourcesFromString f.includeSources) with
      | error err => exact .inl ⟨_, rfl⟩
      | ok is =>
        obtain ⟨r, hf, -, herr, -, -⟩ := LinterImpl.filter_spec hs ⟨some re,
          if f.includeNames = "" then [] else trimmedList f.includeNames,
          if f.excludeNames = "" then [] else trimmedList f.excludeNames, is, xs⟩
        obtain ⟨e, he⟩ := herr.2 (.inr ⟨rfl, hn.imp (hne _) (hne _)⟩)
        simp only [Except.map, hf, he]
        exact .inr ⟨_, rfl⟩

theorem setLints_nameFilter_with_names_e_a :
    (∃ e, setLints (⟨fun _ => .ok fun _ => true, fun _ => .ok []⟩ : FlagParsers String)
        ⟨"e_.*", "e_a", "", "", ""⟩ (newLinter : LinterImpl Unit String) = .error e) ∨
      ∃ e, setLints (⟨fun _ => .ok fun _ => true, fun _ => .ok []⟩ : FlagParsers String)
        ⟨"e_.*", "e_a", "", "", ""⟩ (newLinter : LinterImpl Unit String) = .ok (.error e) :=
  setLints_nameFilter_with_names _ _ LinterImpl.inv_newLinter (by decide) (.inl (by decide))

/-! ## The name lists of the flags -/

theorem splitOn_append_of_not_mem {sep : Char} {a rest p : List Char} {ps : List (List Char)}
    (ha : sep ∉ a) (h : splitOn sep rest = p :: ps) : splitOn sep (a ++ rest) = (a ++ p) :: ps := by
  induction a with
  | nil => exact h
  | cons c a ih =>
    rw [List.cons_append, splitOn, if_neg fun (hc : c = sep) => ha (hc ▸ List.mem_cons_self c a),
      ih fun h => ha (.tail _ h)]
    rfl

theorem splitOn_join (sep : Char) : ∀ (ps : List (List Char)) (a : List Char), sep ∉ a →
    (∀ q ∈ ps, sep ∉ q) → splitOn sep (a ++ (ps.map (sep :: ·)).flatten) = a :: ps
  | [], a, ha, _ => by simpa using splitOn_append_of_not_mem ha (rfl : splitOn sep [] = [[]])
  | q :: ps, a, ha, hq => by
    have h : splitOn sep (sep :: (q ++ (ps.map (sep :: ·)).flatten)) = [] :: q :: ps := by
      rw [splitOn, if_pos rfl, splitOn_join sep ps q (hq q (.head _)) fun r hr => hq r (.tail _ hr)]
    simpa using splitOn_append_of_not_mem ha h

theorem data_intercalate_go (s : String) : ∀ (acc : String) (l : List String),
    (String.intercalate.go acc s l).data = acc.data ++ (l.map fun a => s.data ++ a.data).flatten
  | acc, [] => by simp [String.intercalate.go]
  | acc, a :: l => by simp [String.intercalate.go, data_intercalate_go s _ l]

theorem trimSpace_pad {a n b : List Char} (ha : ∀ c ∈ a, isSpace c) (hb : ∀ c ∈ b, isSpace c) :
    trimSpace ⟨a ++ n ++ b⟩ = trimSpace ⟨n⟩ := by
  simp only [trimSpace]
  congr 1
  rw [List.append_assoc, List.dropWhile_append_of_pos ha]
  by_cases hn : n.dropWhile isSpace = []
  · have hnb : ∀ c ∈ n ++ b, isSpace c := by
      simpa [List.dropWhile_eq_nil_iff, or_imp, forall_and] using And.intro hn hb
    rw [hn, List.dropWhile_eq_nil_iff.2 hnb]
  · rw [List.dropWhile_append, if_neg (by simpa using hn), List.reverse_append,
      List.dropWhile_append_of_pos (by simpa using hb)]

/-- `trimmedList` reads back names joined by commas, with white space around each: the items
of `-includeNames "a, b"` are the names written. -/
theorem trimmedList_intercalate {items : List (String × String × String)} (hne : items ≠ [])
    (hpad : ∀ q ∈ items, (∀ c ∈ q.1.data, isSpace c) ∧ (∀ c ∈ q.2.2.data, isSpace c))
    (hname : ∀ q ∈ items, ',' ∉ q.2.1.data ∧ trimSpace q.2.1 = q.2.1) :
    trimmedList (String.intercalate "," (items.map fun q => q.1 ++ q.2.1 ++ q.2.2)) =
      items.map (·.2.1) := by
  have hspace : ∀ {cs : List Char}, (∀ c ∈ cs, isSpace c) → ',' ∉ cs :=
    fun h hc => absurd (h _ hc) (by decide)
  have hitem : ∀ q ∈ items, ',' ∉ (q.1 ++ q.2.1 ++ q.2.2).data ∧
      trimSpace ⟨(q.1 ++ q.2.1 ++ q.2.2).data⟩ = q.2.1 := fun q hq => by
    obtain ⟨ha, hb⟩ := hpad q hq
    refine ⟨?_, ?_⟩
    · simp only [String.data_append, List.mem_append, not_or]
      exact ⟨⟨hspace ha, (hname q hq).1⟩, hspace hb⟩
    · rw [String.data_append, String.data_append, trimSpace_pad ha hb]
      exact (hname q hq).2
  obtain ⟨q, qs, rfl⟩ := List.exists_cons_of_ne_nil hne
  have hdata : (String.intercalate "," ((q :: qs).map fun q => q.1 ++ q.2.1 ++ q.2.2)).data =
      (q.1 ++ q.2.1 ++ q.2.2).data ++
        ((qs.map fun r => (r.1 ++ r.2.1 ++ r.2.2).data).map (',' :: ·)).flatten := by
    rw [List.map_cons, String.intercalate, data_intercalate_go]
    simp [List.map_map, Function.comp_def]
  rw [trimmedList, hdata, splitOn_join ',' _ _ (hitem q (.head _)).1 fun r hr => by
    obtain ⟨x, hx, rfl⟩ := List.mem_map.1 hr
    exact (hitem x (.tail _ hx)).1]
  simp only [List.map_cons, List.map_map, Function.comp_def, (hitem q (.head _)).2]
  congr 1
  exact List.map_congr_left fun r hr => (hitem r (.tail _ hr)).2

/-- `-includeNames` set to names joined by commas, with white space around each, and no other
lint flag: `setLints` fails exactly when one of the names is not registered (an empty one, left
by a comma too many or by white space alone, included), and otherwise keeps exactly the lints
named. -/
theorem setLints_includeNames [DecidableEq Src] (p : FlagParsers Src)
    {defaultLinter : LinterImpl Cert Src} (hs : defaultLinter.Inv)
    (items : List (String × String × String))
    (hpad : ∀ q ∈ items, (∀ c ∈ q.1.data, isSpace c) ∧ (∀ c ∈ q.2.2.data, isSpace c))
    (hname : ∀ q ∈ items, ',' ∉ q.2.1.data ∧ trimSpace q.2.1 = q.2.1)
    (hraw : String.intercalate "," (items.map fun q => q.1 ++ q.2.1 ++ q.2.2) ≠ "") :
    ∃ r, setLints p ⟨"", String.intercalate "," (items.map fun q => q.1 ++ q.2.1 ++ q.2.2), "", "",
        ""⟩ defaultLinter = .ok r ∧
      ((∃ e, r = .error e) ↔ ∃ q ∈ items, q.2.1 ∉ defaultLinter.lintNames) ∧
      ∀ t, r = .ok t → t.lintNames = defaultLinter.lintNames.filter (· ∈ items.map (·.2.1)) := by
  have hne : items ≠ [] := by rintro rfl; exact hraw rfl
  have hlist := trimmedList_intercalate hne hpad hname
  have htrim : (items.map (·.2.1)).map trimSpace = items.map (·.2.1) := by
    rw [List.map_map]
    exact List.map_congr_left fun q hq => (hname q hq).2
  have hnames : (items.map (·.2.1)).isEmpty = false := by simpa using hne
  obtain ⟨f, hf, -, herr, -, hok⟩ :=
    LinterImpl.filter_spec hs ⟨none, items.map (·.2.1), [], [], []⟩
  simp only [setLints, hraw, and_false, false_and, if_false, ↓reduceIte, hlist, hf]
  cases hr : f.result with
  | error e =>
    refine ⟨_, rfl, ⟨fun _ => ?_, fun _ => ⟨_, rfl⟩⟩, by simp⟩
    rcases herr.1 ⟨e, hr⟩ with ⟨n, hn, hu⟩ | ⟨hnf, -⟩
    · rw [List.append_nil] at hn
      obtain ⟨q, hq, rfl⟩ := List.mem_map.1 hn
      exact ⟨q, hq, (hname q hq).2 ▸ hu⟩
    · cases hnf
  | ok t =>
    refine ⟨_, rfl, ⟨fun ⟨e, he⟩ => (by cases he), fun ⟨q, hq, hu⟩ => ?_⟩, ?_⟩
    · obtain ⟨e, he⟩ := herr.2 (.inl ⟨q.2.1, List.mem_append_left _ (List.mem_map_of_mem _ hq),
        (hname q hq).2.symm ▸ hu⟩)
      rw [hr] at he
      cases he
    · rintro t ⟨⟩
      rw [(hok t hr).2.1]
      refine List.filter_congr fun n hn => ?_
      obtain ⟨L, hL⟩ := Option.isSome_iff_exists.1 (hs.byName_isSome.2 hn)
      simp only [hL, FilterOptions.passes, htrim, hnames]
      simp

theorem setLints_includeNames_comma :
    ∃ e, setLints (⟨fun _ => .ok fun _ => true, fun _ => .ok []⟩ : FlagParsers String)
      ⟨"", ",", "", "", ""⟩
      (LinterImpl.ofCalls [(some ⟨"e_a", "RFC5280", some ⟨none⟩, fun _ => .ok none⟩, false)] :
        LinterImpl Unit String) = .ok (.error e) := by
  obtain ⟨r, h, hiff, -⟩ := setLints_includeNames
    (⟨fun _ => .ok fun _ => true, fun _ => .ok []⟩ : FlagParsers String)
    (LinterImpl.inv_ofCalls ([(some ⟨"e_a", "RFC5280", some ⟨none⟩, fun _ => .ok none⟩, false)] :
      List (Option (Lint Unit String) × Bool)))
    [("", "", ""), ("", "", "")] (by decide) (by decide) (by decide)
  obtain ⟨e, rfl⟩ := hiff.2 ⟨("", "", ""), by simp, by decide⟩
  exact ⟨e, h⟩

/-! ## What `doLint` writes -/

theorem writeResults_eq_ok (j : JsonCodec) (prettyprint : Bool) (linter : LinterImpl Cert Src)
    (c : Cert) (start finish : Int) (minStatus : Option LintStatus) (out : String) :
    writeResults j prettyprint linter c start finish minStatus = .ok out ↔
      ∃ rs json, linter.lint c start finish = .ok rs ∧ j.marshalResults rs.results = .ok json ∧
        (∀ s, minStatus = some s → ∃ m, rs.above s = .ok m) ∧
        writeOutput prettyprint j json = .ok out := by
  unfold writeResults
  cases hl : linter.lint c start finish with
  | error p => simp
  | ok rs =>
    cases hm : j.marshalResults rs.results with
    | error err => simp [hm]
    | ok json =>
      rcases minStatus with _ | s
      · simp [hm]
      · cases ha : rs.above s with
        | error p => simp [hm, ha]
        | ok m => simp [hm, ha]

/-- Whatever `-minStatus` gives, what `doLint` writes is what it writes without it: the JSON
of every result of `Lint`, indented under `-pretty`, then a newline. -/
theorem doLint_writes_all_results (d : CertDecoder Cert) (j : JsonCodec) (format : String)
    (prettyprint : Bool) (fileBytes : List UInt8) (inform : String) (linter : LinterImpl Cert Src)
    (s : LintStatus) (start finish : Int) {out : String}
    (h : doLint d j format prettyprint fileBytes inform linter (some s) start finish = .ok out) :
    doLint d j format prettyprint fileBytes inform linter none start finish = .ok out ∧
      ∃ c rs json, readCertificate d format inform fileBytes = .ok c ∧
        linter.lint c start finish = .ok rs ∧ j.marshalResults rs.results = .ok json ∧
        writeOutput prettyprint j json = .ok out := by
  cases hr : readCertificate d format inform fileBytes with
  | error e => simp [doLint, hr] at h
  | ok c =>
    simp only [doLint, hr] at h ⊢
    obtain ⟨rs, json, hl, hm, -, hw⟩ := (writeResults_eq_ok _ _ _ _ _ _ _ _).1 h
    exact ⟨(writeResults_eq_ok _ _ _ _ _ _ _ _).2 ⟨rs, json, hl, hm, by simp, hw⟩,
      c, rs, json, rfl, hl, hm, hw⟩

/-- One lint that passes, linted with `-minStatus notice`: `Above(notice)` is empty, and its
JSON is `{}`, but `doLint` writes the JSON of the passing result. -/
theorem doLint_writes_all_results_e_a :
    doLint (⟨fun _ => none, .ok, fun _ => .ok ()⟩ : CertDecoder Unit)
        ⟨fun k => "\"" ++ k ++ "\"", fun _ => .ok "\x7b\x7d", .ok⟩ "pem" false [] "der"
        (LinterImpl.ofCalls [(some ⟨"e_a", "CABF_BR", some ⟨none⟩,
          fun _ => .ok (some ⟨LintStatus.pass, ""⟩)⟩, true)] : LinterImpl Unit String)
        (some LintStatus.notice) 0 1 = .ok "\x7b\"e_a\":\x7b\x7d\x7d\n" ∧
      (doLint (⟨fun _ => none, .ok, fun _ => .ok ()⟩ : CertDecoder Unit)
        ⟨fun k => "\"" ++ k ++ "\"", fun _ => .ok "\x7b\x7d", .ok⟩ "pem" false [] "der"
        (LinterImpl.ofCalls [(some ⟨"e_a", "CABF_BR", some ⟨none⟩,
          fun _ => .ok (some ⟨LintStatus.pass, ""⟩)⟩, true)] : LinterImpl Unit String)
        none 0 1 = .ok "\x7b\"e_a\":\x7b\x7d\x7d\n") ∧
      ∃ rs m, (LinterImpl.ofCalls [(some ⟨"e_a", "CABF_BR", some ⟨none⟩,
          fun _ => .ok (some ⟨LintStatus.pass, ""⟩)⟩, true)] : LinterImpl Unit String).lint () 0 1 =
            .ok rs ∧
        rs.above LintStatus.notice = .ok m ∧ m.keys = [] ∧
        JsonCodec.marshalResults ⟨fun k => "\"" ++ k ++ "\"", fun _ => .ok "\x7b\x7d", .ok⟩ m =
          .ok "\x7b\x7d" := by
  have h : doLint (⟨fun _ => none, .ok, fun _ => .ok ()⟩ : CertDecoder Unit)
      ⟨fun k => "\"" ++ k ++ "\"", fun _ => .ok "\x7b\x7d", .ok⟩ "pem" false [] "der"
      (LinterImpl.ofCalls [(some ⟨"e_a", "CABF_BR", some ⟨none⟩,
        fun _ => .ok (some ⟨LintStatus.pass, ""⟩)⟩, true)] : LinterImpl Unit String)
      (some LintStatus.notice) 0 1 = .ok "\x7b\"e_a\":\x7b\x7d\x7d\n" := by
    rfl
  exact ⟨h, (doLint_writes_all_results _ _ _ _ _ _ _ _ _ _ h).1, _, ∅, rfl, rfl, rfl, rfl⟩

end Zlint
