import Zlint.Command

/-!
# The `zlint` command's `main`

`main` builds its linter with `setLints`, then either lists the lints (as JSON, as a schema, or
by source) or lints its inputs: standard input when it has no argument or its first argument is
`-`, and otherwise each file named, in order, until one fails. A file whose name ends in `.der`
or `.pem` is read in that format, whatever `-format` says.
-/

namespace Zlint

variable {Cert Src : Type}

/-- The library calls `main` makes: those of `doLint` and `setLints`, `strconv.Quote` (Go's `%q`),
`strings.ToLower`, `LintStatus.FromString` (its code is not in the sources), `sort.Sort` of a
`SourceList` with `%s` of a `LintSource`, and `json.Marshal` of a `*Lint`. -/
structure MainLibs (Cert Src : Type) where
  decoder : CertDecoder Cert
  json : JsonCodec
  parsers : FlagParsers Src
  quote : String → String
  toLower : String → String
  statusFromString : String → LintStatus
  sortSources : List Src → List Src
  sourceText : Src → String
  encodeLint : Option (Lint Cert Src) → Except GoError String

/-- The flags `main` reads beside those of `setLints`. -/
structure MainFlags where
  listLintsJSON : Bool
  listLintsSchema : Bool
  listLintSources : Bool
  prettyprint : Bool
  format : String
  minStatusLabel : String
  lints : LintFlags

/-- What `main` reads of its process: the arguments after the flags, what `ioutil.ReadAll` reads
of standard input, what `os.Open` and then `ReadAll` give for a named file, and the two clock
readings of `Lint` for the `i`-th input. -/
structure Process where
  args : List String
  stdin : Except GoError (List UInt8)
  openFile : String → Except GoError (Except GoError (List UInt8))
  clock : Nat → Int × Int

/-- What `main` wrote to standard output, and the `log.Fatalf` or panic that ended it, if one
did. -/
structure MainRun where
  stdout : String
  exit : Option Exit

/-- `strings.HasSuffix`, on the characters of the strings. -/
def hasSuffix (s suffix : String) : Bool := suffix.data.isSuffixOf s.data

/-- The format a named file is read in: `.der` or `.pem` at the end of its name, or else the
lower-cased `-format`. -/
def fileInform (inform filePath : String) : String :=
  if hasSuffix filePath ".der" then "der" else if hasSuffix filePath ".pem" then "pem" else inform

/-- The `-list-lints-schema` output for the linter's names. -/
def lintsSchema (quote : String → String) (names : List String) : String :=
  "Lints = SubRecord(\x7b\n" ++ String.join (names.map fun lintName =>
    "    " ++ quote lintName ++ ":LintBool(),\n") ++ "\x7d)\n"

/-- `doLint` on an input, from its `ioutil.ReadAll`; `name` is `inputFile.Name()`. -/
def lintInput (libs : MainLibs Cert Src) (flags : MainFlags) (linter : LinterImpl Cert Src)
    (minStatus : Option LintStatus) (inform name : String) (read : Except GoError (List UInt8))
    (time : Int × Int) : Except Exit String :=
  match read with
  | .error err => .error (.fatal ("unable to read file " ++ name ++ ": " ++ err.msg))
  | .ok fileBytes =>
    doLint libs.decoder libs.json flags.format flags.prettyprint fileBytes inform linter minStatus
      time.1 time.2

/-- The loop of `main` over the named files, from the `i`-th input on: open, lint, and write
each in turn; the first failure ends the process. -/
def lintFiles (libs : MainLibs Cert Src) (flags : MainFlags) (proc : Process)
    (linter : LinterImpl Cert Src) (minStatus : Option LintStatus) (inform : String) :
    Nat → List String → MainRun
  | _, [] => ⟨"", none⟩
  | i, filePath :: rest =>
    match proc.openFile filePath with
    | .error err => ⟨"", some (.fatal ("unable to open file " ++ filePath ++ ": " ++ err.msg))⟩
    | .ok read =>
      match lintInput libs flags linter minStatus (fileInform inform filePath) filePath read
          (proc.clock i) with
      | .error e => ⟨"", some e⟩
      | .ok out =>
        let r := lintFiles libs flags proc linter minStatus inform (i + 1) rest
        ⟨out ++ r.stdout, r.exit⟩

/-- `main`. -/
def main [DecidableEq Src] (libs : MainLibs Cert Src) (flags : MainFlags) (proc : Process)
    (defaultLinter : LinterImpl Cert Src) : MainRun :=
  match setLints libs.parsers flags.lints defaultLinter with
  | .error e => ⟨"", some e⟩
  | .ok (.error err) =>
    ⟨"", some (.fatal ("unable to configure included/exclude lints: " ++ err.text libs.quote ++ "\n"))⟩
  | .ok (.ok linter) =>
    if flags.listLintsJSON then ⟨linter.writeJSON libs.encodeLint, none⟩
    else if flags.listLintsSchema then ⟨lintsSchema libs.quote linter.names, none⟩
    else if flags.listLintSources then
      ⟨String.join ((libs.sortSources linter.sources).map fun source =>
        "    " ++ libs.sourceText source ++ "\n"), none⟩
    else
      let minStatus :=
        if flags.minStatusLabel = "" then none else some (libs.statusFromString flags.minStatusLabel)
      let inform := libs.toLower flags.format
      if proc.args.length < 1 ∨ proc.args.head? = some "-" then
        match lintInput libs flags linter minStatus inform "/dev/stdin" proc.stdin (proc.clock 0) with
        | .error e => ⟨"", some e⟩
        | .ok out => ⟨out, none⟩
      else lintFiles libs flags proc linter minStatus inform 0 proc.args

/-! ## What `main` reads -/

section Reads

variable (libs : MainLibs Cert Src) (flags : MainFlags) (linter : LinterImpl Cert Src)
  (minStatus : Option LintStatus)

theorem lintFiles_openFile (proc : Process) (inform : String)
    (openFile' : String → Except GoError (Except GoError (List UInt8))) (paths : List String)
    (h : ∀ p ∈ paths, openFile' p = proc.openFile p) (i : Nat) :
    lintFiles libs flags { proc with openFile := openFile' } linter minStatus inform i paths =
      lintFiles libs flags proc linter minStatus inform i paths := by
  induction paths generalizing i with
  | nil => rfl
  | cons p ps ih =>
    simp only [lintFiles, h p (.head _), ih (fun q hq => h q (.tail _ hq))]

/-- `main` opens no file but those its arguments name, and none at all when its first argument
is `-`, whatever the other arguments are. -/
theorem main_opens_only_args [DecidableEq Src] (proc : Process) (defaultLinter : LinterImpl Cert Src)
    (openFile' : String → Except GoError (Except GoError (List UInt8)))
    (h : proc.args.head? = some "-" ∨ ∀ p ∈ proc.args, openFile' p = proc.openFile p) :
    main libs flags { proc with openFile := openFile' } defaultLinter =
      main libs flags proc defaultLinter := by
  unfold main
  split <;> try rfl
  simp only
  split_ifs <;> first
    | rfl
    | exact lintFiles_openFile libs flags _ _ proc _ openFile' _ (h.resolve_left fun hd =>
        ‹¬(proc.args.length < 1 ∨ proc.args.head? = some "-")› (.inr hd)) 0

theorem main_opens_only_args_dash :
    main (⟨⟨fun _ => none, .ok, fun _ => .ok ()⟩, ⟨id, fun _ => .ok "", .ok⟩,
        ⟨fun _ => .ok fun _ => true, fun _ => .ok []⟩, id, id, fun _ => 0, id, id,
        fun _ => .ok ""⟩ : MainLibs Unit String)
      ⟨false, false, false, false, "der", "", ⟨"", "", "", "", ""⟩⟩
      { (⟨["-", "a.pem"], .ok [], fun _ => .ok (.ok []), fun _ => (0, 0)⟩ : Process) with
        openFile := fun _ => .error ⟨"no such file"⟩ } newLinter =
    main (⟨⟨fun _ => none, .ok, fun _ => .ok ()⟩, ⟨id, fun _ => .ok "", .ok⟩,
        ⟨fun _ => .ok fun _ => true, fun _ => .ok []⟩, id, id, fun _ => 0, id, id,
        fun _ => .ok ""⟩ : MainLibs Unit String)
      ⟨false, false, false, false, "der", "", ⟨"", "", "", "", ""⟩⟩
      ⟨["-", "a.pem"], .ok [], fun _ => .ok (.ok []), fun _ => (0, 0)⟩ newLinter :=
  main_opens_only_args _ _ _ _ _ (.inl rfl)

/-! ## `-format` and the names of the files -/

theorem readCertificate_format (d : CertDecoder Cert) (format format' inform : String)
    (fileBytes : List UInt8) (h : inform = "der" ∨ inform = "pem") :
    readCertificate d format inform fileBytes = readCertificate d format' inform fileBytes := by
  rcases h with rfl | rfl <;> rfl

theorem fileInform_of_suffix {filePath : String}
    (h : hasSuffix filePath ".der" ∨ hasSuffix filePath ".pem") (inform inform' : String) :
    fileInform inform' filePath = fileInform inform filePath ∧
      (fileInform inform filePath = "der" ∨ fileInform inform filePath = "pem") := by
  unfold fileInform
  split_ifs with hd hp
  · exact ⟨rfl, .inl rfl⟩
  · exact ⟨rfl, .inr rfl⟩
  · exact (h.elim hd hp).elim

theorem lintFiles_format (proc : Process) (inform inform' format' : String) (paths : List String)
    (hs : ∀ p ∈ paths, hasSuffix p ".der" ∨ hasSuffix p ".pem") (i : Nat) :
    lintFiles libs { flags with format := format' } proc linter minStatus inform' i paths =
      lintFiles libs flags proc linter minStatus inform i paths := by
  induction paths generalizing i with
  | nil => rfl
  | cons p ps ih =>
    obtain ⟨heq, hknown⟩ := fileInform_of_suffix (hs p (.head _)) inform inform'
    simp only [lintFiles, heq, ih (fun q hq => hs q (.tail _ hq))]
    cases proc.openFile p with
    | error err => rfl
    | ok read =>
      cases read with
      | error err => rfl
      | ok fileBytes =>
        simp only [lintInput, doLint, readCertificate_format _ format' flags.format _ _ hknown]

/-- When every argument names a `.der` or a `.pem` file, `-format` changes nothing `main` does:
each file is read in the format its name gives. -/
theorem main_suffix_overrides_format [DecidableEq Src] (proc : Process)
    (defaultLinter : LinterImpl Cert Src) (format' : String) (hne : proc.args ≠ [])
    (hs : ∀ p ∈ proc.args, hasSuffix p ".der" ∨ hasSuffix p ".pem") :
    main libs { flags with format := format' } proc defaultLinter =
      main libs flags proc defaultLinter := by
  have hfiles : ¬(proc.args.length < 1 ∨ proc.args.head? = some "-") := by
    obtain ⟨a, rest, ha⟩ := List.exists_cons_of_ne_nil hne
    have ha' : a ≠ "-" := by
      rintro rfl
      exact absurd (hs "-" (by simp [ha])) (by decide)
    simp [ha, ha']
  unfold main
  simp only
  split <;> try rfl
  simp only [hfiles, if_false]
  split_ifs <;> first | rfl | exact lintFiles_format libs flags _ _ proc _ _ format' _ hs 0

theorem main_suffix_overrides_format_pem :
    main (⟨⟨fun _ => none, .ok, fun _ => .ok ()⟩, ⟨id, fun _ => .ok "", .ok⟩,
        ⟨fun _ => .ok fun _ => true, fun _ => .ok []⟩, id, id, fun _ => 0, id, id,
        fun _ => .ok ""⟩ : MainLibs Unit String)
      { (⟨false, false, false, false, "der", "", ⟨"", "", "", "", ""⟩⟩ : MainFlags) with
        format := "base64" }
      ⟨["a.pem"], .ok [], fun _ => .ok (.ok []), fun _ => (0, 0)⟩ newLinter =
    main (⟨⟨fun _ => none, .ok, fun _ => .ok ()⟩, ⟨id, fun _ => .ok "", .ok⟩,
        ⟨fun _ => .ok fun _ => true, fun _ => .ok []⟩, id, id, fun _ => 0, id, id,
        fun _ => .ok ""⟩ : MainLibs Unit String)
      ⟨false, false, false, false, "der", "", ⟨"", "", "", "", ""⟩⟩
      ⟨["a.pem"], .ok [], fun _ => .ok (.ok []), fun _ => (0, 0)⟩ newLinter :=
  main_suffix_overrides_format _ _ _ _ _ (by decide) (by decide)

end Reads

end Zlint
