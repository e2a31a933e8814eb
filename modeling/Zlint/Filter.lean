import Zlint.Registry

/-!
# `Filter`: a sub-registry by source and by name

`Filter` turns the name lists into maps (failing on an unknown name), checks that a name
pattern is not given with a name list, and then registers into a new linter, in name order
and without `Initialize()`, every lint that passes its five tests.
-/

namespace Zlint

variable {Cert Src : Type}

/-- `FilterOptions`. `nameFilter` is the compiled pattern's `MatchString`. -/
structure FilterOptions (Src : Type) where
  nameFilter : Option (String → Bool)
  includeNames : List String
  excludeNames : List String
  includeSources : List Src
  excludeSources : List Src

/-- `Empty`. -/
def FilterOptions.empty (opts : FilterOptions Src) : Bool :=
  opts.nameFilter.isNone && opts.includeNames.length == 0 && opts.excludeNames.length == 0 &&
    opts.includeSources.length == 0 && opts.excludeSources.length == 0

/-- A Go `map[K]bool` that may be nil (`none`). -/
abbrev BoolMap (K : Type) := Option (AList fun _ : K => Bool)

namespace BoolMap

variable {K : Type} [DecidableEq K]

/-- `m[k]`: a nil map, or a missing key, reads `false`. -/
def get : BoolMap K → K → Bool
  | none, _ => false
  | some m, k => (m.lookup k).getD false

/-- `len(m)`. -/
def len : BoolMap K → Nat
  | none => 0
  | some m => m.entries.length

/-- The loops of `sourceListToMap` and `lintNamesToMap`: `m[k] = true` for each key. -/
def setAll (m : AList fun _ : K => Bool) (ks : List K) : AList fun _ : K => Bool :=
  ks.foldl (fun m k => m.insert k true) m

/-- The map `lintNamesToMap` returns when every name is registered: nil for no names. -/
def ofNames (names : List String) : BoolMap String :=
  if names = [] then none else some (setAll ∅ (names.map trimSpace))

end BoolMap

/-- `sourceListToMap`. -/
def sourceListToMap [DecidableEq Src] (sources : List Src) : BoolMap Src :=
  if sources.length = 0 then none else some (BoolMap.setAll ∅ sources)

/-- The errors `Filter` returns: `lintNamesToMap`'s unknown name, the `errors.New` of a name
pattern given with a name list, and an error of the inner `register`. -/
inductive FilterError where
  | unknownLintName (name : String)
  | nameFilterConflict
  | register (err : RegisterError)
  deriving DecidableEq, Repr

/-- The texts of `Filter`'s errors: the `fmt.Errorf` of `lintNamesToMap`, the `errors.New` of
`Filter`, and the inner `register`'s. -/
def FilterError.text (quote : String → String) : FilterError → String
  | .unknownLintName name => "unknown lint name " ++ quote name
  | .nameFilterConflict =>
    "FilterOptions.NameFilter cannot be used at the same time as " ++
      "FilterOptions.ExcludeNames or FilterOptions.IncludeNames"
  | .register err => err.text quote

/-- What a call of `Filter` leaves: its `(Linter, error)`, and how many `Initialize()` calls
it made. -/
structure Filtered (Cert Src : Type) where
  result : Except FilterError (LinterImpl Cert Src)
  inits : Nat

namespace LinterImpl

/-- The loop of `lintNamesToMap`, over the names still to read. -/
def lintNamesLoop (l : LinterImpl Cert Src) :
    List String → AList (fun _ : String => Bool) → Except FilterError (AList fun _ : String => Bool)
  | [], namesMap => .ok namesMap
  | n :: names, namesMap =>
    let n := trimSpace n
    if (l.byName n).isNone then .error (.unknownLintName n)
    else l.lintNamesLoop names (namesMap.insert n true)

/-- `lintNamesToMap`. -/
def lintNamesToMap (l : LinterImpl Cert Src) (names : List String) :
    Except FilterError (BoolMap String) :=
  if names.length = 0 then .ok none else (l.lintNamesLoop names ∅).map some

/-- `lint.Source`: a nil lint panics. -/
def sourceOf : Option (Lint Cert Src) → Except GoPanic Src
  | some l => .ok l.source
  | none => .error .nilDereference

variable [DecidableEq Src]

/-- `m != nil && p(m[lint.Source])`: `lint.Source` is read, and panics on a nil lint, only
when `m` is not nil. -/
def sourceTest (m : BoolMap Src) (p : Bool → Bool) (lint : Option (Lint Cert Src)) :
    Except GoPanic Bool :=
  if m.isSome then (sourceOf lint).map fun src => p (m.get src) else .ok false

/-- The five `continue` tests of `Filter`'s loop, in the source's order: whether it skips
`name`. The first test that holds decides. -/
def skipLint (sourceExcludes sourceIncludes : BoolMap Src) (nameFilter : Option (String → Bool))
    (nameExcludes nameIncludes : BoolMap String) (lint : Option (Lint Cert Src)) (name : String) :
    Except GoPanic Bool :=
  match sourceTest sourceExcludes id lint with
  | .ok false =>
    match sourceTest sourceIncludes (!·) lint with
    | .ok false =>
      .ok (nameFilter.any (fun re => !re name) || (nameExcludes.isSome && nameExcludes.get name) ||
        (nameIncludes.isSome && !nameIncludes.get name))
    | r => r
  | r => r

/-- The loop of `Filter` over the names still to visit, with the linter built so far and the
`Initialize()` calls made so far. -/
def filterLoop (l : LinterImpl Cert Src)
    (skip : Option (Lint Cert Src) → String → Except GoPanic Bool) :
    List String → LinterImpl Cert Src → Nat → Except GoPanic (Filtered Cert Src)
  | [], filteredLinter, inits => .ok ⟨.ok filteredLinter, inits⟩
  | name :: names, filteredLinter, inits =>
    let lint := l.byName name
    match skip lint name with
    | .error p => .error p
    | .ok true => l.filterLoop skip names filteredLinter inits
    | .ok false =>
      let r := filteredLinter.register lint false
      let inits := inits + if r.initCalled then 1 else 0
      match r.err with
      | some e => .ok ⟨.error (.register e), inits⟩
      | none => l.filterLoop skip names r.linter inits

/-- `Filter`. -/
def filter (l : LinterImpl Cert Src) (opts : FilterOptions Src) : Except GoPanic (Filtered Cert Src) :=
  if opts.empty then .ok ⟨.ok l, 0⟩
  else
    let filteredLinter := newLinter
    let sourceExcludes := sourceListToMap opts.excludeSources
    let sourceIncludes := sourceListToMap opts.includeSources
    match l.lintNamesToMap opts.excludeNames with
    | .error e => .ok ⟨.error e, 0⟩
    | .ok nameExcludes =>
      match l.lintNamesToMap opts.includeNames with
      | .error e => .ok ⟨.error e, 0⟩
      | .ok nameIncludes =>
        if opts.nameFilter.isSome && (nameExcludes.len != 0 || nameIncludes.len != 0) then
          .ok ⟨.error .nameFilterConflict, 0⟩
        else
          l.filterLoop
            (skipLint sourceExcludes sourceIncludes opts.nameFilter nameExcludes nameIncludes)
            l.names filteredLinter 0

/-- The first name of the list that, trimmed, is not registered. -/
def unknownName (l : LinterImpl Cert Src) (names : List String) : Option String :=
  (names.map trimSpace).find? fun n => (l.byName n).isNone

end LinterImpl

/-- The five tests of the spec's §4.2 on the lint `L` named `n`, read off the options. The
names of the name lists are trimmed, as `lintNamesToMap` trims them. -/
def FilterOptions.passes [DecidableEq Src] (opts : FilterOptions Src) (L : Lint Cert Src)
    (n : String) : Bool :=
  decide (L.source ∉ opts.excludeSources) &&
    (opts.includeSources.isEmpty || decide (L.source ∈ opts.includeSources)) &&
    opts.nameFilter.all (· n) && decide (n ∉ opts.excludeNames.map trimSpace) &&
    (opts.includeNames.isEmpty || decide (n ∈ opts.includeNames.map trimSpace))

/-! ## The maps -/

namespace BoolMap

variable {K : Type} [DecidableEq K]

theorem get_setAll (m : AList fun _ : K => Bool) (ks : List K) (k : K) :
    get (some (setAll m ks)) k = true ↔ k ∈ ks ∨ get (some m) k = true := by
  induction ks generalizing m with
  | nil => simp [setAll]
  | cons k' ks ih =>
    simp only [setAll, List.foldl_cons] at ih ⊢
    rw [ih]
    by_cases h : k = k'
    · subst h; simp [get]
    · simp [get, AList.lookup_insert_ne h, h]

theorem len_setAll_ne_zero (m : AList fun _ : K => Bool) {ks : List K} (h : ks ≠ []) :
    len (some (setAll m ks)) ≠ 0 := by
  obtain ⟨k, hk⟩ := List.exists_mem_of_ne_nil ks h
  have hm : k ∈ setAll m ks := by
    have := (get_setAll m ks k).2 (.inl hk)
    rw [← AList.lookup_isSome]
    cases hl : (setAll m ks).lookup k <;> simp_all [get]
  simp only [len, ne_eq, List.length_eq_zero]
  intro he
  simp [AList.mem_keys, AList.keys, he] at hm

theorem get_ofNames (names : List String) (n : String) :
    (ofNames names).get n = true ↔ n ∈ names.map trimSpace := by
  unfold ofNames
  split_ifs with h
  · simp [h, get]
  · rw [get_setAll]; simp [get]

theorem len_ofNames_eq_zero {names : List String} : (ofNames names).len = 0 ↔ names = [] := by
  refine ⟨fun h => by_contra fun hn => ?_, fun h => by simp [h, ofNames, len]⟩
  exact absurd h (by simpa [ofNames, hn] using len_setAll_ne_zero ∅ (by simpa using hn))

end BoolMap

theorem get_sourceListToMap [DecidableEq Src] (sources : List Src) (src : Src) :
    (sourceListToMap sources).get src = true ↔ src ∈ sources := by
  unfold sourceListToMap
  split_ifs with h
  · simp_all [BoolMap.get]
  · rw [BoolMap.get_setAll]; simp [BoolMap.get]

namespace LinterImpl

theorem lintNamesLoop_eq (l : LinterImpl Cert Src) (names : List String)
    (m : AList fun _ : String => Bool) :
    l.lintNamesLoop names m =
      match l.unknownName names with
      | some n => .error (.unknownLintName n)
      | none => .ok (BoolMap.setAll m (names.map trimSpace)) := by
  induction names generalizing m with
  | nil => rfl
  | cons n names ih =>
    by_cases h : (l.byName (trimSpace n)).isNone
    · simp [lintNamesLoop, unknownName, h]
    · simp only [lintNamesLoop, h, if_false, ih]
      simp [unknownName, h, BoolMap.setAll]

theorem lintNamesToMap_eq (l : LinterImpl Cert Src) (names : List String) :
    l.lintNamesToMap names =
      match l.unknownName names with
      | some n => .error (.unknownLintName n)
      | none => .ok (BoolMap.ofNames names) := by
  unfold lintNamesToMap BoolMap.ofNames
  rw [lintNamesLoop_eq]
  cases names with
  | nil => rfl
  | cons n names => cases l.unknownName (n :: names) <;> rfl

theorem unknownName_eq_some {l : LinterImpl Cert Src} {names : List String} {n : String}
    (h : l.unknownName names = some n) : ∃ m ∈ names, trimSpace m = n ∧ l.byName n = none := by
  obtain ⟨m, hm, rfl⟩ := List.mem_map.1 (List.mem_of_find?_eq_some h)
  exact ⟨m, hm, rfl, by simpa using List.find?_some h⟩

theorem unknownName_eq_none (l : LinterImpl Cert Src) (names : List String) :
    l.unknownName names = none ↔ ∀ n ∈ names, (l.byName (trimSpace n)).isSome := by
  simp [unknownName, List.find?_eq_none, Option.ne_none_iff_isSome]

theorem skipLint_some [DecidableEq Src] (se si : BoolMap Src) (nf : Option (String → Bool))
    (ne ni : BoolMap String) (L : Lint Cert Src) (name : String) :
    skipLint se si nf ne ni (some L) name =
      .ok ((se.isSome && se.get L.source) || (si.isSome && !si.get L.source) ||
        nf.any (fun re => !re name) || (ne.isSome && ne.get name) || (ni.isSome && !ni.get name)) := by
  simp only [skipLint, sourceTest, sourceOf, Except.map]
  cases se.isSome <;> cases si.isSome <;> cases se.get L.source <;> cases si.get L.source <;> rfl

theorem skipLint_eq_not_passes [DecidableEq Src] (opts : FilterOptions Src) (L : Lint Cert Src)
    (n : String) :
    skipLint (sourceListToMap opts.excludeSources) (sourceListToMap opts.includeSources)
      opts.nameFilter (BoolMap.ofNames opts.excludeNames) (BoolMap.ofNames opts.includeNames)
      (some L) n = .ok (!opts.passes L n) := by
  rw [skipLint_some]
  congr 1
  have se : ∀ xs : List Src,
      ((sourceListToMap xs).isSome && (sourceListToMap xs).get L.source) = decide (L.source ∈ xs) := by
    intro xs; cases xs <;> simp [sourceListToMap, BoolMap.get, ← get_sourceListToMap]
  have si : ∀ xs : List Src, ((sourceListToMap xs).isSome && !(sourceListToMap xs).get L.source) =
      !(xs.isEmpty || decide (L.source ∈ xs)) := by
    intro xs; cases xs <;> simp [sourceListToMap, BoolMap.get, ← get_sourceListToMap]
  have gn : ∀ x xs, (BoolMap.ofNames (x :: xs)).get n = decide (n ∈ (x :: xs).map trimSpace) :=
    fun x xs => by rw [Bool.eq_iff_iff, BoolMap.get_ofNames, decide_eq_true_iff]
  have ne : ∀ xs : List String, ((BoolMap.ofNames xs).isSome && (BoolMap.ofNames xs).get n) =
      decide (n ∈ xs.map trimSpace) := by
    intro xs; cases xs
    · simp [BoolMap.ofNames]
    · rw [gn]; simp [BoolMap.ofNames]
  have ni : ∀ xs : List String, ((BoolMap.ofNames xs).isSome && !(BoolMap.ofNames xs).get n) =
      !(xs.isEmpty || decide (n ∈ xs.map trimSpace)) := by
    intro xs; cases xs
    · simp [BoolMap.ofNames]
    · rw [gn]; simp [BoolMap.ofNames]
  have nf : opts.nameFilter.any (fun re => !re n) = !opts.nameFilter.all (· n) := by
    cases opts.nameFilter <;> simp
  rw [se, si, ne, ni, nf, FilterOptions.passes]
  simp only [decide_not, Bool.not_and, Bool.not_not, Bool.or_assoc]

/-! ## The loop of `Filter` -/

section Loop

variable [DecidableEq Src] {s : LinterImpl Cert Src} (hs : s.Inv)
  (skip : Option (Lint Cert Src) → String → Except GoPanic Bool) (keep : String → Bool)
  (hskip : ∀ n L, s.byName n = some L → skip (some L) n = .ok (!keep n))
include hs hskip

theorem filterLoop_ok {names : List String} (hsub : names.Sublist s.lintNames)
    {t : LinterImpl Cert Src} (ht : t.Inv) (hfresh : ∀ n ∈ names, n ∉ t.lintNames) (inits : Nat) :
    ∃ t', s.filterLoop skip names t inits = .ok ⟨.ok t', inits⟩ ∧ t'.Inv ∧
      t'.lintNames = sortStrings (t.lintNames ++ names.filter keep) ∧
      ∀ n, t'.byName n = if n ∈ names.filter keep then s.byName n else t.byName n := by
  induction names generalizing t with
  | nil =>
    exact ⟨t, rfl, ht, by simp [sortStrings_of_sorted ht.sorted], fun n => by simp⟩
  | cons n names ih =>
    have hnd := (hsub.nodup hs.nodup)
    obtain ⟨L, hL⟩ := Option.isSome_iff_exists.1 (hs.byName_isSome.2 (hsub.subset (.head _)))
    obtain ⟨hname, he, hl, -⟩ := hs.byName_some hL
    have hn : n ∉ names := (List.nodup_cons.1 hnd).1
    cases hk : keep n with
    | false =>
      obtain ⟨t', h, hi, hnames, hb⟩ :=
        ih ((List.sublist_cons_self n names).trans hsub) ht (fun m hm => hfresh m (.tail _ hm))
      refine ⟨t', ?_, hi, by simpa [hk] using hnames, fun m => by simpa [hk] using hb m⟩
      simpa [filterLoop, hL, hskip n L hL, hk] using h
    | true =>
      have hw := register_fresh ht hl (hname ▸ he) (hname ▸ hfresh n (.head _))
      obtain ⟨t', h, hi, hnames, hb⟩ :=
        ih ((List.sublist_cons_self n names).trans hsub)
          (inv_registerWrite ht (hname ▸ hfresh n (.head _)) (hname ▸ he) hl)
          (fun m hm => by
            simp only [registerWrite, mem_sortStrings, List.mem_append, List.mem_singleton, hname]
            exact fun h => h.elim (hfresh m (.tail _ hm)) (fun e => hn (e ▸ hm)))
      refine ⟨t', by simpa [filterLoop, hL, hskip n L hL, hk, hw] using h, hi, ?_, fun m => ?_⟩
      · rw [hnames, registerWrite, hname]
        exact sortStrings_eq_of_perm (((sortStrings_perm _).append_right _).trans
          (by simp [List.filter_cons, hk]))
      · rw [hb m, byName_registerWrite, hname]
        by_cases hm : m = n
        · subst hm; simp [hL, hn, hk]
        · simp [hm, List.filter_cons, hk]

end Loop

/-! ## `Filter` -/

theorem filter_of_empty [DecidableEq Src] (s : LinterImpl Cert Src) {opts : FilterOptions Src}
    (h : opts.empty = true) : s.filter opts = .ok ⟨.ok s, 0⟩ := by
  simp [filter, h]

theorem filter_eq [DecidableEq Src] (s : LinterImpl Cert Src) {opts : FilterOptions Src}
    (h : opts.empty = false) :
    s.filter opts =
      match s.unknownName opts.excludeNames, s.unknownName opts.includeNames with
      | some n, _ => .ok ⟨.error (.unknownLintName n), 0⟩
      | none, some n => .ok ⟨.error (.unknownLintName n), 0⟩
      | none, none =>
        if opts.nameFilter.isSome ∧ (opts.excludeNames ≠ [] ∨ opts.includeNames ≠ []) then
          .ok ⟨.error .nameFilterConflict, 0⟩
        else
          s.filterLoop (skipLint (sourceListToMap opts.excludeSources)
            (sourceListToMap opts.includeSources) opts.nameFilter (BoolMap.ofNames opts.excludeNames)
            (BoolMap.ofNames opts.includeNames)) s.names newLinter 0 := by
  simp only [filter, h, lintNamesToMap_eq]
  cases s.unknownName opts.excludeNames <;> cases s.unknownName opts.includeNames <;>
    simp [BoolMap.len_ofNames_eq_zero]

/-- On a registry that keeps the invariant, `Filter` returns and calls no `Initialize()`. It
fails exactly on an unregistered name or a name pattern given with a name list, never in its
inner `register`, and otherwise returns a registry that keeps the invariant and holds the
lints of the source that pass the five tests. -/
theorem filter_spec [DecidableEq Src] {s : LinterImpl Cert Src} (hs : s.Inv)
    (opts : FilterOptions Src) :
    ∃ f, s.filter opts = .ok f ∧ f.inits = 0 ∧
      ((∃ e, f.result = .error e) ↔
        (∃ n ∈ opts.includeNames ++ opts.excludeNames, trimSpace n ∉ s.lintNames) ∨
          (opts.nameFilter.isSome ∧ (opts.includeNames ≠ [] ∨ opts.excludeNames ≠ []))) ∧
      (∀ e, f.result ≠ .error (.register e)) ∧
      ∀ t, f.result = .ok t → t.Inv ∧
        t.lintNames = s.lintNames.filter (fun n => (s.byName n).any (opts.passes · n)) ∧
        ∀ n, t.byName n = if n ∈ t.lintNames then s.byName n else none := by
  have hknown : ∀ names, s.unknownName names = none ↔ ∀ n ∈ names, trimSpace n ∈ s.lintNames :=
    fun names => by simp [unknownName_eq_none, hs.byName_isSome]
  have hbyName : ∀ n, n ∉ s.lintNames → s.byName n = none :=
    fun n hn => by simpa using mt hs.byName_isSome.1 hn
  cases he : opts.empty with
  | true =>
    have he' := he
    simp only [FilterOptions.empty, Bool.and_eq_true, Option.isNone_iff_eq_none, beq_iff_eq,
      List.length_eq_zero] at he'
    refine ⟨_, filter_of_empty s he, rfl, by simp [he'], by simp, ?_⟩
    rintro t ⟨⟩
    refine ⟨hs, (List.filter_eq_self.2 fun n hn => ?_).symm, fun n => ?_⟩
    · obtain ⟨L, hL⟩ := Option.isSome_iff_exists.1 (hs.byName_isSome.2 hn)
      simp [hL, FilterOptions.passes, he']
    · split_ifs with hn
      exacts [rfl, hbyName n hn]
  | false =>
    rw [filter_eq s he]
    have hunknown : ∀ names n, s.unknownName names = some n →
        ∃ m ∈ names, trimSpace m ∉ s.lintNames := fun names n h => by
      obtain ⟨m, hm, rfl, hb⟩ := unknownName_eq_some h
      exact ⟨m, hm, fun hm' => by simpa [hb] using hs.byName_isSome.2 hm'⟩
    cases hx : s.unknownName opts.excludeNames with
    | some n =>
      obtain ⟨m, hm, hu⟩ := hunknown _ n hx
      exact ⟨_, rfl, rfl, by simpa using .inl ⟨m, .inr hm, hu⟩, by simp, by simp⟩
    | none =>
      cases hi : s.unknownName opts.includeNames with
      | some n =>
        obtain ⟨m, hm, hu⟩ := hunknown _ n hi
        exact ⟨_, rfl, rfl, by simpa using .inl ⟨m, .inl hm, hu⟩, by simp, by simp⟩
      | none =>
        have hall : ¬ ∃ n ∈ opts.includeNames ++ opts.excludeNames, trimSpace n ∉ s.lintNames := by
          rintro ⟨n, hn, hu⟩
          rcases List.mem_append.1 hn with h | h
          exacts [hu ((hknown _).1 hi n h), hu ((hknown _).1 hx n h)]
        dsimp only
        split_ifs with hc
        · exact ⟨_, rfl, rfl, ⟨fun _ => .inr ⟨hc.1, hc.2.symm⟩, fun _ => ⟨_, rfl⟩⟩, by simp,
            by simp⟩
        · obtain ⟨t, hloop, ht, hnames, hb⟩ := filterLoop_ok hs _
            (fun n => (s.byName n).any (opts.passes · n))
            (fun n L hL => (skipLint_eq_not_passes opts L n).trans (by simp only [hL]; rfl))
            (List.Sublist.refl _)
            inv_newLinter (by simp [newLinter]) 0
          have hnames' : t.lintNames = s.lintNames.filter fun n => (s.byName n).any (opts.passes · n) := by
            rw [hnames]; exact sortStrings_of_sorted (hs.sorted.filter _)
          refine ⟨_, hloop, rfl, ?_, by simp, ?_⟩
          · exact ⟨fun ⟨e, he⟩ => (by cases he), fun h => (h.elim hall fun h' => hc ⟨h'.1, h'.2.symm⟩).elim⟩
          · rintro t' ⟨⟩
            exact ⟨ht, hnames', fun n => by rw [hb n, hnames']; rfl⟩

/-! ## Registries built by `register` -/

section Reachable

variable [DecidableEq Src]

/-- The registry invariant holds after every sequence of calls from `newLinter()`, and in
every linter `Filter` returns from there. `Sources()` lists each source of a registered lint
once, and `Names()` is the sorted list of the names accepted: the names of the calls that
returned nil, which are the names of the lints with a `Lint`, a name and an `Initialize()` that
succeeds when it runs, each once. It is the same for every order of the same calls. -/
theorem registry_invariant (calls : List (Option (Lint Cert Src) × Bool)) :
    (ofCalls calls).Inv ∧
    (∀ opts f t, (ofCalls calls).filter opts = .ok f → f.result = .ok t → t.Inv) ∧
    ((ofCalls calls).sources.Nodup ∧
      ∀ src, src ∈ (ofCalls calls).sources ↔ ∃ n L, (ofCalls calls).byName n = some L ∧ L.source = src) ∧
    ((ofCalls calls).names = sortStrings (acceptedNames calls (newLinter.registerAll calls).2) ∧
      (ofCalls calls).names = sortStrings (calls.filterMap acceptedName).dedup) ∧
    ∀ calls', calls'.Perm calls → (ofCalls calls').names = (ofCalls calls).names := by
  have hs := inv_ofCalls calls
  refine ⟨hs, fun opts f t hf ht => ?_, ⟨AList.keys_nodup _, hs.mem_sources⟩,
    ⟨?_, names_registerAll_newLinter calls⟩, fun calls' hp => ?_⟩
  · obtain ⟨f', hf', -, -, -, hok⟩ := filter_spec hs opts
    cases hf.symm.trans hf'
    exact (hok t ht).1
  · simpa [newLinter] using names_registerAll inv_newLinter calls
  · simp only [names, ofCalls, names_registerAll_newLinter]
    exact sortStrings_eq_of_perm ((hp.filterMap _).dedup)

theorem registry_invariant_swap :
    (ofCalls [(some ⟨"e_b", "CABF_BR", some ⟨none⟩, fun _ => .ok none⟩, true),
        (some ⟨"e_a", "RFC5280", some ⟨none⟩, fun (_ : Unit) => .ok none⟩, false)]).names =
      (ofCalls [(some ⟨"e_a", "RFC5280", some ⟨none⟩, fun _ => .ok none⟩, false),
        (some ⟨"e_b", "CABF_BR", some ⟨none⟩, fun (_ : Unit) => .ok none⟩, true)]).names :=
  (registry_invariant _).2.2.2.2 _ (List.Perm.swap _ _ _)

/-- A linter that `Filter` returns from a registry holds, in the source's order, the source's
own lints that pass the five tests; it keeps the invariant, so its sources are those of the
lints it kept; and `Filter` ran no `Initialize()`. -/
theorem filter_keeps_passing (calls : List (Option (Lint Cert Src) × Bool)) (opts : FilterOptions Src)
    (f : Filtered Cert Src) (t : LinterImpl Cert Src)
    (hf : (ofCalls calls).filter opts = .ok f) (ht : f.result = .ok t) :
    t.names = (ofCalls calls).names.filter
        (fun n => ((ofCalls calls).byName n).any (opts.passes · n)) ∧
      (∀ n ∈ t.names, t.byName n = (ofCalls calls).byName n) ∧ t.Inv ∧
      (∀ src, src ∈ t.sources ↔
        ∃ n ∈ t.names, ∃ L, (ofCalls calls).byName n = some L ∧ L.source = src) ∧
      f.inits = 0 := by
  obtain ⟨f', hf', hinit, -, -, hok⟩ := filter_spec (inv_ofCalls calls) opts
  cases hf.symm.trans hf'
  obtain ⟨hi, hnames, hb⟩ := hok t ht
  refine ⟨hnames, fun n hn => by rw [hb, if_pos (by exact hn)], hi, fun src => ?_, hinit⟩
  rw [hi.mem_sources]
  constructor
  · rintro ⟨n, L, hL, rfl⟩
    have hn := (hi.byName_some hL).2.2.2
    exact ⟨n, hn, L, by rwa [hb, if_pos hn] at hL, rfl⟩
  · rintro ⟨n, hn, L, hL, rfl⟩
    exact ⟨n, L, by rw [hb, if_pos (by exact hn), hL], rfl⟩

/-- Two registrations: `e_b` of `RFC5280` and `e_a` of `CABF_BR`, whose `Execute`s return a
warning and a notice. -/
def twoSources : List (Option (Lint Unit String) × Bool) :=
  [(some ⟨"e_b", "RFC5280", some ⟨none⟩, fun _ => .ok (some ⟨LintStatus.warn, ""⟩)⟩, true),
    (some ⟨"e_a", "CABF_BR", some ⟨none⟩, fun _ => .ok (some ⟨LintStatus.notice, ""⟩)⟩, true)]

/-- `-excludeSources RFC5280`. -/
def excludeRFC5280 : FilterOptions String := ⟨none, [], [], [], ["RFC5280"]⟩

theorem names_twoSources : (ofCalls twoSources).names = ["e_a", "e_b"] := by
  simp [names, ofCalls, names_registerAll_newLinter, acceptedName, twoSources, sortStrings,
    List.insertionSort, List.orderedInsert]
  decide

theorem filter_twoSources :
    ∃ f t, (ofCalls twoSources).filter excludeRFC5280 = .ok f ∧ f.result = .ok t := by
  obtain ⟨f, hf, -, herr, -, -⟩ := filter_spec (inv_ofCalls twoSources) excludeRFC5280
  cases ht : f.result with
  | error e => exact absurd (herr.1 ⟨e, ht⟩) (by simp [excludeRFC5280])
  | ok t => exact ⟨f, t, hf, ht⟩

theorem filter_keeps_passing_rfc :
    ∃ f t, (ofCalls twoSources).filter excludeRFC5280 = .ok f ∧ f.result = .ok t ∧
      (ofCalls twoSources).names = ["e_a", "e_b"] ∧ t.names = ["e_a"] := by
  obtain ⟨f, t, hf, ht⟩ := filter_twoSources
  refine ⟨f, t, hf, ht, names_twoSources, ?_⟩
  rw [(filter_keeps_passing twoSources excludeRFC5280 f t hf ht).1, names_twoSources]
  decide

/-- On a registry, `Filter` returns, and fails exactly on an unregistered name in a name list
or on a name pattern given with a name list. Its inner `register` never fails. -/
theorem filter_error_iff (calls : List (Option (Lint Cert Src) × Bool)) (opts : FilterOptions Src) :
    ∃ f, (ofCalls calls).filter opts = .ok f ∧
      ((∃ e, f.result = .error e) ↔
        (∃ n ∈ opts.includeNames ++ opts.excludeNames, trimSpace n ∉ (ofCalls calls).names) ∨
          (opts.nameFilter.isSome ∧ (opts.includeNames ≠ [] ∨ opts.excludeNames ≠ []))) ∧
      ∀ e, f.result ≠ .error (.register e) := by
  obtain ⟨f, hf, -, herr, hreg, -⟩ := filter_spec (inv_ofCalls calls) opts
  exact ⟨f, hf, herr, hreg⟩

end Reachable

/-- With a name pattern and a non-empty name list, `Filter` fails on every registry. The error
is the first unregistered name it reads, `ExcludeNames` before `IncludeNames`; only when
every name is registered is it the conflict of the criteria. -/
theorem filter_nameFilter_with_names [DecidableEq Src] (s : LinterImpl Cert Src)
    (opts : FilterOptions Src) (hre : opts.nameFilter.isSome)
    (hn : opts.includeNames ≠ [] ∨ opts.excludeNames ≠ []) :
    s.filter opts =
      .ok ⟨.error (match s.unknownName opts.excludeNames, s.unknownName opts.includeNames with
        | some n, _ => .unknownLintName n
        | none, some n => .unknownLintName n
        | none, none => .nameFilterConflict), 0⟩ := by
  have h : opts.empty = false := by simp [FilterOptions.empty, Option.isSome_iff_ne_none.1 hre]
  rw [filter_eq s h]
  cases s.unknownName opts.excludeNames <;> cases s.unknownName opts.includeNames <;>
    simp [hre, hn.symm]

theorem filter_nameFilter_with_unknown_name :
    (newLinter : LinterImpl Unit String).filter ⟨some fun _ => true, ["e_x"], [], [], []⟩ =
      .ok ⟨.error (.unknownLintName "e_x"), 0⟩ :=
  (filter_nameFilter_with_names newLinter ⟨some fun _ => true, ["e_x"], [], [], []⟩ rfl
    (.inl (by simp))).trans (by simp [unknownName]; rfl)

/-- A name pattern with an unregistered name fails on the name, not on the conflict. -/
theorem filter_unknown_name_not_conflict :
    ¬ ∃ f, (newLinter : LinterImpl Unit String).filter ⟨some fun _ => true, ["e_x"], [], [], []⟩ =
      .ok f ∧ f.result = .error .nameFilterConflict := by
  rintro ⟨f, hf, hr⟩
  have he : (⟨some fun _ => true, ["e_x"], [], [], []⟩ : FilterOptions String).empty = false := rfl
  rw [filter_eq _ he] at hf
  simp [unknownName] at hf
  subst hf
  simp at hr

/-! ## Listing a filtered linter -/

/-- `WriteJSON` of the linter `Filter` returns writes, in name order, the lines that `WriteJSON` of
the source writes for the lints that pass the five tests, and no other. -/
theorem writeJSON_filter [DecidableEq Src] {s : LinterImpl Cert Src} (hs : s.Inv)
    (opts : FilterOptions Src) {f : Filtered Cert Src} {t : LinterImpl Cert Src}
    (hf : s.filter opts = .ok f) (ht : f.result = .ok t)
    (encode : Option (Lint Cert Src) → Except GoError String) :
    t.writeJSON encode = String.join ((s.names.filter fun n => (s.byName n).any (opts.passes · n)).map
      fun name => encodeLine encode (s.byName name)) := by
  obtain ⟨f', hf', -, -, -, hres⟩ := filter_spec hs opts
  cases hf.symm.trans hf'
  obtain ⟨-, hnames, hb⟩ := hres t ht
  unfold writeJSON
  rw [names, hnames]
  congr 1
  refine List.map_congr_left fun n hn => ?_
  rw [hb n, if_pos (hnames ▸ hn)]

theorem writeJSON_filter_rfc :
    ∃ f t, (ofCalls twoSources).filter excludeRFC5280 = .ok f ∧ f.result = .ok t ∧
      t.writeJSON (fun l => .ok ((l.map (·.name)).getD "null")) =
        encodeLine (fun l => .ok ((l.map (·.name)).getD "null")) ((ofCalls twoSources).byName "e_a") := by
  obtain ⟨f, t, hf, ht⟩ := filter_twoSources
  refine ⟨f, t, hf, ht, ?_⟩
  have hkept : ((ofCalls twoSources).names.filter fun n =>
      ((ofCalls twoSources).byName n).any (excludeRFC5280.passes · n)) = ["e_a"] := by
    rw [names_twoSources]; decide
  rw [writeJSON_filter (inv_ofCalls _) _ hf ht, hkept]
  simp [String.join]

end LinterImpl

end Zlint
