import Zlint.Filter
import Zlint.ResultSet

/-!
# Running the lints: `Lint` and `LintByName`

`Lint` runs every registered lint in name order and adds each verdict to a new result set.
Nothing recovers a panic, so one `Execute` that panics ends the whole run.
-/

namespace Zlint

variable {Cert Src : Type}

namespace LinterImpl

/-- The loop of `Lint`: `rs.AddResult(name, l.byName(name).Execute(cert))` for each name. A
nil lint panics in `Execute`, and a panic of `Execute` ends the loop. -/
def lintLoop (l : LinterImpl Cert Src) (cert : Cert) :
    List String → ResultSet → Except GoPanic ResultSet
  | [], rs => .ok rs
  | name :: names, rs =>
    match l.byName name with
    | none => .error .nilDereference
    | some lint =>
      match lint.execute cert with
      | .error p => .error p
      | .ok r => l.lintLoop cert names (rs.addResult name r)

/-- `Lint`. `start` and `finish` are what its two `time.Now().Unix()` read. -/
def lint (l : LinterImpl Cert Src) (cert : Cert) (start finish : Int) : Except GoPanic ResultSet :=
  (l.lintLoop cert l.names (newResultSet start)).map fun rs => { rs with lintEndTimestamp := finish }

theorem lintLoop_ok (l : LinterImpl Cert Src) (cert : Cert) {res : String → Option LintResult}
    {names : List String} (h : ∀ n ∈ names, ∃ L, l.byName n = some L ∧ L.execute cert = .ok (res n))
    (rs : ResultSet) :
    l.lintLoop cert names rs = .ok (rs.addResults (names.map fun n => (n, res n))) := by
  induction names generalizing rs with
  | nil => rfl
  | cons n names ih =>
    obtain ⟨L, hL, hr⟩ := h n (.head _)
    simp [lintLoop, hL, hr, ih (fun m hm => h m (.tail _ hm))]

theorem lintLoop_panic (l : LinterImpl Cert Src) (cert : Cert) {n : String} {L : Lint Cert Src}
    {p : GoPanic} (hL : l.byName n = some L) (hp : L.execute cert = .error p) {names : List String}
    (hn : n ∈ names)
    (hok : ∀ m ∈ names, m ≠ n → ∃ L r, l.byName m = some L ∧ L.execute cert = .ok r)
    (rs : ResultSet) : l.lintLoop cert names rs = .error p := by
  induction names generalizing rs with
  | nil => cases hn
  | cons m names ih =>
    by_cases hm : m = n
    · subst hm; simp [lintLoop, hL, hp]
    · obtain ⟨L', r, hL', hr⟩ := hok m (.head _) hm
      simp only [lintLoop, hL', hr]
      exact ih ((List.mem_cons.1 hn).resolve_left (Ne.symm hm)) (fun m' hm' => hok m' (.tail _ hm'))
        _

/-- The verdict that `Execute` returned for the lint registered under `n`, if it returned. -/
def resultOf (l : LinterImpl Cert Src) (cert : Cert) (n : String) : Option LintResult :=
  ((l.byName n).bind fun L => (L.execute cert).toOption).join

theorem resultOf_eq {l : LinterImpl Cert Src} {cert : Cert} {n : String} {L : Lint Cert Src}
    {r : Option LintResult} (hL : l.byName n = some L) (hr : L.execute cert = .ok r) :
    l.resultOf cert n = r := by
  simp [resultOf, hL, hr, Except.toOption]

/-- When every lint of `l.names` returns from `Execute`, `Lint` adds each name's verdict, in
order. -/
theorem lint_eq (l : LinterImpl Cert Src) (cert : Cert)
    (hok : ∀ n ∈ l.names, ∃ L r, l.byName n = some L ∧ L.execute cert = .ok r) (start finish : Int) :
    l.lint cert start finish = .ok { (newResultSet start).addResults
      (l.names.map fun n => (n, l.resultOf cert n)) with lintEndTimestamp := finish } := by
  have h : ∀ n ∈ l.names, ∃ L, l.byName n = some L ∧ L.execute cert = .ok (l.resultOf cert n) :=
    fun n hn => by
      obtain ⟨L, r, hL, hr⟩ := hok n hn
      exact ⟨L, hL, by rw [resultOf_eq hL hr, hr]⟩
  simp only [lint, lintLoop_ok l cert h]
  rfl

/-- `Lint` recovers no panic: when one registered lint's `Execute` panics and every other
returns, `Lint` panics with that panic and returns no result set. -/
theorem lint_panics (s : LinterImpl Cert Src) (cert : Cert) (start finish : Int) {n : String}
    {L : Lint Cert Src} {p : GoPanic} (hn : n ∈ s.names) (hL : s.byName n = some L)
    (hp : L.execute cert = .error p)
    (hok : ∀ m ∈ s.names, m ≠ n → ∃ L r, s.byName m = some L ∧ L.execute cert = .ok r) :
    s.lint cert start finish = .error p := by
  simp only [lint, lintLoop_panic s cert hL hp hn hok]
  rfl

/-- Two registrations: `e_a`, whose `Execute` returns nothing, and `e_b`, whose `Execute`
panics. -/
def panicCalls : List (Option (Lint Unit String) × Bool) :=
  [(some ⟨"e_a", "CABF_BR", some ⟨none⟩, fun _ => .ok none⟩, true),
    (some ⟨"e_b", "CABF_BR", some ⟨none⟩, fun _ => .error (.value "boom")⟩, true)]

theorem names_panicCalls : (ofCalls panicCalls).names = ["e_a", "e_b"] := by
  simp [names, ofCalls, names_registerAll_newLinter, acceptedName, panicCalls, sortStrings,
    List.insertionSort, List.orderedInsert]
  decide

theorem lint_panics_one : (ofCalls panicCalls).lint () 0 0 = .error (.value "boom") :=
  lint_panics _ () 0 0 (n := "e_b") (by rw [names_panicCalls]; simp) rfl rfl fun m hm hne => by
    rw [names_panicCalls] at hm
    obtain rfl : m = "e_a" := by simpa [hne] using hm
    exact ⟨_, none, rfl, rfl⟩

/-- One lint panics and the other returns: `Lint` has no result set to give. -/
theorem lint_panic_not_isolated : ¬ ∃ rs, (ofCalls panicCalls).lint () 0 0 = .ok rs := by
  rintro ⟨rs, h⟩
  simp only [lint, names_panicCalls] at h
  cases h

/-! ## On a registry -/

section Registry

variable [DecidableEq Src] {s : LinterImpl Cert Src}

theorem nodup_resultOf (hs : s.Inv) (cert : Cert) :
    ((s.names.map fun n => (n, s.resultOf cert n)).map Prod.fst).Nodup := by
  simpa [names, Function.comp_def] using hs.nodup

theorem names_execute_ok (hs : s.Inv) {cert : Cert}
    (hok : ∀ n L, s.byName n = some L → ∃ r, L.execute cert = .ok r) :
    ∀ n ∈ s.names, ∃ L r, s.byName n = some L ∧ L.execute cert = .ok r := fun n hn => by
  obtain ⟨L, hL⟩ := Option.isSome_iff_exists.1 (hs.byName_isSome.2 hn)
  obtain ⟨r, hr⟩ := hok n L hL
  exact ⟨L, r, hL, hr⟩

theorem lookup_resultOf (hs : s.Inv) (cert : Cert) (start : Int) (n : String) :
    ((newResultSet start).addResults (s.names.map fun n => (n, s.resultOf cert n))).results.lookup n =
      if n ∈ s.names then some (s.resultOf cert n) else none := by
  have h := ResultSet.lookup_addResults (newResultSet start) (nodup_resultOf hs cert) n
  simp only [ResultSet.newResultSet_results, AList.lookup_empty, reduceCtorEq, and_false, or_false,
    List.mem_map, Prod.mk.injEq] at h
  split_ifs with hn
  · exact (h _).2 ⟨n, hn, rfl, rfl⟩
  · cases hl : AList.lookup n _ with
    | none => rfl
    | some v => obtain ⟨m, hm, rfl, -⟩ := (h v).1 hl; exact absurd hm hn

/-- When every registered lint returns from `Execute`, `Lint` returns a result set that maps
each registered name, and no other, to its lint's verdict, with exact flags. -/
theorem lint_results (calls : List (Option (Lint Cert Src) × Bool)) (cert : Cert)
    (start finish : Int)
    (hok : ∀ n L, (ofCalls calls).byName n = some L → ∃ r, L.execute cert = .ok r) :
    ∃ rs, (ofCalls calls).lint cert start finish = .ok rs ∧
      (∀ n, n ∈ rs.results ↔ n ∈ (ofCalls calls).names) ∧
      (∀ n L r, (ofCalls calls).byName n = some L → L.execute cert = .ok r →
        rs.results.lookup n = some r) ∧
      rs.FlagsExact ∧ rs.version = resultSetVersion ∧ rs.lintStartTimestamp = start ∧
      rs.lintEndTimestamp = finish := by
  have hs := inv_ofCalls calls
  refine ⟨_, lint_eq _ cert (names_execute_ok hs hok) start finish, fun n => ?_, fun n L r hL hr => ?_,
    ResultSet.flagsExact_addResults (ResultSet.newResultSet_results start)
      (ResultSet.newResultSet_flags start) (nodup_resultOf hs cert),
    by simp [newResultSet], by simp [newResultSet], rfl⟩
  · rw [← AList.lookup_isSome, lookup_resultOf hs]
    split_ifs with hn <;> simp [hn]
  · have hn : n ∈ (ofCalls calls).names := (hs.byName_some hL).2.2.2
    rw [lookup_resultOf hs, if_pos hn, resultOf_eq hL hr]

theorem lint_results_one :
    ∃ rs, (ofCalls [(some ⟨"e_a", "CABF_BR", some ⟨none⟩,
        fun _ => .ok (some ⟨LintStatus.error, ""⟩)⟩, true)] : LinterImpl Unit String).lint () 0 1 =
      .ok rs ∧ rs.FlagsExact := by
  obtain ⟨rs, h, -, -, hf, -⟩ := lint_results [(some ⟨"e_a", "CABF_BR", some ⟨none⟩,
      fun _ => .ok (some ⟨LintStatus.error, ""⟩)⟩, true)] () 0 1 fun n L hL => by
    obtain ⟨-, -, -, hn⟩ := (inv_ofCalls _).byName_some hL
    obtain rfl : n = "e_a" := List.mem_singleton.1 hn
    obtain rfl := Option.some.inj hL
    exact ⟨_, rfl⟩
  exact ⟨rs, h, hf⟩

/-- The linter that `Filter` returns lints a certificate as its source does, restricted to the
lints that pass the five tests: its result set holds exactly the registered names that pass,
each with the source's verdict, and exact flags. -/
theorem lint_filter (calls : List (Option (Lint Cert Src) × Bool)) (opts : FilterOptions Src)
    (cert : Cert) (start finish start' finish' : Int) {f : Filtered Cert Src}
    {t : LinterImpl Cert Src} (hf : (ofCalls calls).filter opts = .ok f) (ht : f.result = .ok t)
    (hok : ∀ n L, (ofCalls calls).byName n = some L → ∃ r, L.execute cert = .ok r) :
    ∃ rs rs', (ofCalls calls).lint cert start finish = .ok rs ∧
      t.lint cert start' finish' = .ok rs' ∧ rs'.FlagsExact ∧
      (∀ n, n ∈ rs'.results ↔
        n ∈ (ofCalls calls).names ∧ ((ofCalls calls).byName n).any (opts.passes · n)) ∧
      ∀ n, rs'.results.lookup n =
        if ((ofCalls calls).byName n).any (opts.passes · n) then rs.results.lookup n else none := by
  have hs := inv_ofCalls calls
  obtain ⟨f', hf', -, -, -, hres⟩ := filter_spec hs opts
  cases hf.symm.trans hf'
  obtain ⟨hti, hnames, hb⟩ := hres t ht
  have hokt : ∀ n L, t.byName n = some L → ∃ r, L.execute cert = .ok r := fun n L h => by
    rw [hb] at h
    split_ifs at h
    exact hok n L h
  have hmem : ∀ n, n ∈ t.names ↔ n ∈ (ofCalls calls).names ∧
      ((ofCalls calls).byName n).any (opts.passes · n) := fun n => by
    rw [names, hnames, List.mem_filter]; rfl
  refine ⟨_, _, lint_eq _ cert (names_execute_ok hs hok) start finish,
    lint_eq _ cert (names_execute_ok hti hokt) start' finish',
    ResultSet.flagsExact_addResults (ResultSet.newResultSet_results start')
      (ResultSet.newResultSet_flags start') (nodup_resultOf hti cert), fun n => ?_, fun n => ?_⟩
  · rw [← AList.lookup_isSome, lookup_resultOf hti, ← hmem]
    split_ifs with h <;> simp [h]
  rw [lookup_resultOf hti, lookup_resultOf hs]
  by_cases hP : ((ofCalls calls).byName n).any (opts.passes · n)
  · by_cases hn : n ∈ (ofCalls calls).names
    · have htn := (hmem n).2 ⟨hn, hP⟩
      rw [if_pos htn, if_pos hP, if_pos hn, resultOf, resultOf, hb n,
        if_pos (show n ∈ t.lintNames from htn)]
    · rw [if_neg fun h => hn ((hmem n).1 h).1, if_pos hP, if_neg hn]
  · rw [if_neg fun h => hP ((hmem n).1 h).2, if_neg hP]

theorem lint_filter_rfc :
    ∃ f t rs rs', (ofCalls twoSources).filter excludeRFC5280 = .ok f ∧ f.result = .ok t ∧
      (ofCalls twoSources).lint () 0 1 = .ok rs ∧ t.lint () 2 3 = .ok rs' ∧ rs'.FlagsExact ∧
      "e_a" ∈ rs'.results ∧ "e_b" ∉ rs'.results ∧ rs'.results.lookup "e_a" = rs.results.lookup "e_a" := by
  obtain ⟨f, t, hf, ht⟩ := filter_twoSources
  obtain ⟨rs, rs', h, h', hfl, hkeys, hlook⟩ := lint_filter twoSources excludeRFC5280 () 0 1 2 3 hf ht
    fun n L hL => by
      obtain ⟨-, -, -, hn⟩ := (inv_ofCalls _).byName_some hL
      rw [← names, names_twoSources] at hn
      rcases List.mem_pair.1 hn with rfl | rfl <;> obtain rfl := Option.some.inj hL <;> exact ⟨_, rfl⟩
  refine ⟨f, t, rs, rs', hf, ht, h, h', hfl, (hkeys _).2 ⟨?_, ?_⟩, fun hb => ?_, ?_⟩
  · rw [names_twoSources]; simp
  · decide
  · exact absurd ((hkeys _).1 hb).2 (by decide)
  · rw [hlook, if_pos (by decide)]

/-- When no registered lint returns nil, `Above` of what `Lint` returns is safe at every
threshold, and keeps exactly the verdicts above it. -/
theorem lint_above (calls : List (Option (Lint Cert Src) × Bool)) (cert : Cert)
    (start finish : Int) (status : LintStatus)
    (hok : ∀ n L, (ofCalls calls).byName n = some L → ∃ r, L.execute cert = .ok (some r)) :
    ∃ rs m, (ofCalls calls).lint cert start finish = .ok rs ∧ rs.above status = .ok m ∧
      ∀ n v, m.lookup n = some v ↔ ∃ L r, (ofCalls calls).byName n = some L ∧
        L.execute cert = .ok (some r) ∧ v = some r ∧ r.status > status := by
  have hs := inv_ofCalls calls
  have hret : ∀ n ∈ (ofCalls calls).names, ∃ L r, (ofCalls calls).byName n = some L ∧
      L.execute cert = .ok (some r) := fun n hn => by
    obtain ⟨L, hL⟩ := Option.isSome_iff_exists.1 (hs.byName_isSome.2 hn)
    obtain ⟨r, hr⟩ := hok n L hL
    exact ⟨L, r, hL, hr⟩
  have hnil : ∀ n, ((newResultSet start).addResults
      ((ofCalls calls).names.map fun n => (n, (ofCalls calls).resultOf cert n))).results.lookup n ≠
        some none := fun n h => by
    rw [lookup_resultOf hs] at h
    split_ifs at h with hn
    obtain ⟨L, r, hL, hr⟩ := hret n hn
    rw [resultOf_eq hL hr] at h
    cases h
  obtain ⟨m, hm, hl⟩ := (ResultSet.above_spec _ status).2 hnil
  refine ⟨_, m, lint_eq _ cert (fun n hn => (hret n hn).elim fun L ⟨r, h⟩ => ⟨L, some r, h⟩)
    start finish, hm, fun n v => ?_⟩
  rw [hl, lookup_resultOf hs]
  by_cases hn : n ∈ (ofCalls calls).names
  · obtain ⟨L, r, hL, hr⟩ := hret n hn
    rw [if_pos hn, resultOf_eq hL hr]
    by_cases h : r.status > status <;>
      simp [hL, hr, ResultSet.aboveKeeps, Option.filter_some, h, eq_comm]
  · rw [if_neg hn]
    simp only [Option.filter_none, reduceCtorEq, false_iff, not_exists, not_and]
    exact fun L r hL => absurd (hs.byName_some hL).2.2.2 hn

theorem lint_above_one :
    ∃ rs m, (ofCalls [(some ⟨"e_a", "CABF_BR", some ⟨none⟩,
        fun _ => .ok (some ⟨LintStatus.warn, ""⟩)⟩, true)] : LinterImpl Unit String).lint () 0 1 =
          .ok rs ∧ rs.above LintStatus.notice = .ok m ∧
      ∀ n v, m.lookup n = some v ↔ ∃ L r, (ofCalls [(some ⟨"e_a", "CABF_BR", some ⟨none⟩,
        fun _ => .ok (some ⟨LintStatus.warn, ""⟩)⟩, true)] : LinterImpl Unit String).byName n =
          some L ∧ L.execute () = .ok (some r) ∧ v = some r ∧ r.status > LintStatus.notice :=
  lint_above _ () 0 1 _ fun n L hL => by
    obtain ⟨-, -, -, hn⟩ := (inv_ofCalls _).byName_some hL
    obtain rfl : n = "e_a" := List.mem_singleton.1 hn
    obtain rfl := Option.some.inj hL
    exact ⟨_, rfl⟩

end Registry

end LinterImpl

end Zlint
