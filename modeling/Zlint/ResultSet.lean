import Zlint.Base

/-!
# The result set (`lint/resultset.go`)

`AddResult` writes the result under its name and raises the flag of its status. No call
lowers a flag, so the flags say which statuses were ever added; they say which statuses the
map holds only while no name is written twice.
-/

namespace Zlint

/-- The version `newResultSet` writes. -/
def resultSetVersion : Int := 4

/-- `ResultSet`. Go reads a nil `Results` map as an empty one, and `AddResult` makes the map
before it writes, so a nil map is `∅` here. -/
structure ResultSet where
  version : Int
  noticesPresent : Bool
  warningsPresent : Bool
  errorsPresent : Bool
  fatalsPresent : Bool
  results : AList (fun _ : String => Option LintResult)
  lintStartTimestamp : Int
  lintEndTimestamp : Int

namespace ResultSet

/-- The zero `ResultSet{}`. -/
def zero : ResultSet := ⟨0, false, false, false, false, ∅, 0, 0⟩

end ResultSet

/-- `newResultSet`, where `now` is what `time.Now().Unix()` read. -/
def newResultSet (now : Int) : ResultSet :=
  { ResultSet.zero with version := resultSetVersion, lintStartTimestamp := now }

namespace ResultSet

/-- `AddResult`. The `switch` raises the flag of the result's status, if it has one. -/
def addResult (rs : ResultSet) (lintName : String) (result : Option LintResult) : ResultSet :=
  let rs := { rs with results := rs.results.insert lintName result }
  match result with
  | none => rs
  | some r =>
    if r.status = LintStatus.notice then { rs with noticesPresent := true }
    else if r.status = LintStatus.warn then { rs with warningsPresent := true }
    else if r.status = LintStatus.error then { rs with errorsPresent := true }
    else if r.status = LintStatus.fatal then { rs with fatalsPresent := true }
    else rs

/-- `AddResult` called on each `(name, result)` in turn. -/
def addResults (rs : ResultSet) (adds : List (String × Option LintResult)) : ResultSet :=
  adds.foldl (fun rs a => rs.addResult a.1 a.2) rs

/-- The four presence flags, each beside the status it is about. -/
def flags (rs : ResultSet) : List (LintStatus × Bool) :=
  [(LintStatus.notice, rs.noticesPresent), (LintStatus.warn, rs.warningsPresent),
    (LintStatus.error, rs.errorsPresent), (LintStatus.fatal, rs.fatalsPresent)]

/-- Some entry of the map holds a non-nil result of status `st`. -/
def Holds (rs : ResultSet) (st : LintStatus) : Prop :=
  ∃ n r, rs.results.lookup n = some (some r) ∧ r.status = st

/-- The spec's invariant of §3: each flag is true exactly when the map holds its status. -/
def FlagsExact (rs : ResultSet) : Prop := ∀ p ∈ rs.flags, p.2 = true ↔ rs.Holds p.1

/-! ## One call -/

@[simp] theorem any_status_eq_true (r : Option LintResult) (st : LintStatus) :
    r.any (·.status == st) = true ↔ ∃ x, r = some x ∧ x.status = st := by
  cases r <;> simp

@[simp] theorem addResult_results (rs : ResultSet) (n : String) (r : Option LintResult) :
    (rs.addResult n r).results = rs.results.insert n r := by
  unfold addResult; split <;> (try split_ifs) <;> rfl

@[simp] theorem addResult_version (rs : ResultSet) (n : String) (r : Option LintResult) :
    (rs.addResult n r).version = rs.version := by
  unfold addResult; split <;> (try split_ifs) <;> rfl

@[simp] theorem addResult_lintStartTimestamp (rs : ResultSet) (n : String) (r : Option LintResult) :
    (rs.addResult n r).lintStartTimestamp = rs.lintStartTimestamp := by
  unfold addResult; split <;> (try split_ifs) <;> rfl

theorem addResult_flags (rs : ResultSet) (n : String) (r : Option LintResult) :
    (rs.addResult n r).flags = rs.flags.map fun p => (p.1, p.2 || r.any (·.status == p.1)) := by
  cases r with
  | none => simp [addResult, flags]
  | some r =>
    simp only [addResult, flags, List.map_cons, List.map_nil, Option.any_some]
    split_ifs <;> simp_all [LintStatus.notice, LintStatus.warn, LintStatus.error, LintStatus.fatal]

/-! ## A run of calls -/

@[simp] theorem addResults_nil (rs : ResultSet) : rs.addResults [] = rs := rfl

@[simp] theorem addResults_cons (rs : ResultSet) (a : String × Option LintResult)
    (adds : List (String × Option LintResult)) :
    rs.addResults (a :: adds) = (rs.addResult a.1 a.2).addResults adds := rfl

theorem addResults_flags (rs : ResultSet) (adds : List (String × Option LintResult)) :
    (rs.addResults adds).flags =
      rs.flags.map fun p => (p.1, p.2 || adds.any fun a => a.2.any (·.status == p.1)) := by
  induction adds generalizing rs with
  | nil => simp [flags]
  | cons a adds ih =>
    rw [addResults_cons, ih, addResult_flags, List.map_map]
    simp [Function.comp_def, Bool.or_assoc]

@[simp] theorem addResults_version (rs : ResultSet) (adds : List (String × Option LintResult)) :
    (rs.addResults adds).version = rs.version := by
  induction adds generalizing rs <;> simp [*]

@[simp] theorem addResults_lintStartTimestamp (rs : ResultSet)
    (adds : List (String × Option LintResult)) :
    (rs.addResults adds).lintStartTimestamp = rs.lintStartTimestamp := by
  induction adds generalizing rs <;> simp [*]

theorem lookup_addResults (rs : ResultSet) {adds : List (String × Option LintResult)}
    (hn : (adds.map Prod.fst).Nodup) (n : String) (v : Option LintResult) :
    (rs.addResults adds).results.lookup n = some v ↔
      (n, v) ∈ adds ∨ n ∉ adds.map Prod.fst ∧ rs.results.lookup n = some v := by
  induction adds generalizing rs with
  | nil => simp
  | cons a adds ih =>
    obtain ⟨m, r⟩ := a
    simp only [List.map_cons, List.nodup_cons] at hn
    simp only [addResults_cons, ih _ hn.2, addResult_results, List.mem_cons, List.map_cons,
      Prod.mk.injEq, not_or]
    by_cases h : n = m
    · subst h
      have : ∀ w, (n, w) ∉ adds := fun w hw => hn.1 (List.mem_map_of_mem Prod.fst hw)
      simp [this, hn.1, eq_comm]
    · simp [h, AList.lookup_insert_ne h]

theorem holds_addResults {rs : ResultSet} (h₀ : rs.results = ∅)
    {adds : List (String × Option LintResult)} (hn : (adds.map Prod.fst).Nodup) (st : LintStatus) :
    (rs.addResults adds).Holds st ↔ ∃ a ∈ adds, ∃ r, a.2 = some r ∧ r.status = st := by
  simp only [Holds, lookup_addResults rs hn, h₀, AList.lookup_empty, reduceCtorEq, and_false,
    or_false]
  constructor
  · rintro ⟨n, r, hm, rfl⟩
    exact ⟨_, hm, r, rfl, rfl⟩
  · rintro ⟨⟨n, _⟩, hm, r, rfl, rfl⟩
    exact ⟨n, r, hm, rfl⟩

/-! ## `Above` -/

/-- The loop of `Above` over the entries of the map. It reads `res.Status` of each entry, so
a nil result panics. -/
def aboveLoop (status : LintStatus) :
    List (Σ _ : String, Option LintResult) → AList (fun _ : String => Option LintResult) →
      Except GoPanic (AList fun _ : String => Option LintResult)
  | [], acc => .ok acc
  | ⟨_, none⟩ :: _, _ => .error .nilDereference
  | ⟨name, some res⟩ :: rest, acc =>
    aboveLoop status rest (if res.status > status then acc.insert name (some res) else acc)

/-- `Above`: the results whose status is above `status`. Go ranges over the map in no fixed
order; here the order of its entries is used, and a nil result panics in every order. -/
def above (rs : ResultSet) (status : LintStatus) :
    Except GoPanic (AList fun _ : String => Option LintResult) :=
  aboveLoop status rs.results.entries ∅

/-! ## What the flags say -/

theorem flags_addResults_iff {rs : ResultSet} (h₀ : ∀ p ∈ rs.flags, p.2 = false)
    (adds : List (String × Option LintResult)) :
    ∀ p ∈ (rs.addResults adds).flags, p.2 = true ↔ ∃ a ∈ adds, ∃ r, a.2 = some r ∧ r.status = p.1 := by
  rw [addResults_flags]
  intro q hq
  obtain ⟨p, hp, rfl⟩ := List.mem_map.1 hq
  simp [h₀ p hp]

theorem flagsExact_addResults {rs : ResultSet} (h₀ : rs.results = ∅)
    (hf : ∀ p ∈ rs.flags, p.2 = false) {adds : List (String × Option LintResult)}
    (hn : (adds.map Prod.fst).Nodup) : (rs.addResults adds).FlagsExact :=
  fun p hp => (flags_addResults_iff hf adds p hp).trans (holds_addResults h₀ hn p.1).symm

theorem newResultSet_results (now : Int) : (newResultSet now).results = ∅ := rfl

theorem newResultSet_flags (now : Int) : ∀ p ∈ (newResultSet now).flags, p.2 = false := by
  simp [newResultSet, zero, flags]

/-- The flags record every status ever added and nothing else. While no name is written
twice, that is every status the map holds. -/
theorem addResults_flags_record_added (now : Int) (adds : List (String × Option LintResult)) :
    ∀ rs ∈ [zero, newResultSet now],
      (∀ p ∈ (rs.addResults adds).flags,
        p.2 = true ↔ ∃ a ∈ adds, ∃ r, a.2 = some r ∧ r.status = p.1) ∧
      ((adds.map Prod.fst).Nodup → (rs.addResults adds).FlagsExact) := by
  intro rs hrs
  have h₀ : rs.results = ∅ ∧ ∀ p ∈ rs.flags, p.2 = false := by
    simp only [List.mem_cons, List.not_mem_nil, or_false] at hrs
    rcases hrs with rfl | rfl <;> simp [zero, newResultSet, flags]
  exact ⟨flags_addResults_iff h₀.2 adds, flagsExact_addResults h₀.1 h₀.2⟩

theorem addResults_flags_record_added_distinct :
    (zero.addResults [("e_a", some ⟨LintStatus.notice, ""⟩), ("e_b", none)]).FlagsExact :=
  (addResults_flags_record_added 0 _ zero (by simp)).2 (by decide)

/-- Writing a name a second time keeps the flag the first result raised. -/
theorem addResults_overwrite_not_flagsExact :
    ¬ (zero.addResults [("e_a", some ⟨LintStatus.notice, ""⟩),
      ("e_a", some ⟨LintStatus.pass, ""⟩)]).FlagsExact := by
  intro h
  obtain ⟨n, r, hl, hs⟩ := (h (LintStatus.notice, true) (by decide)).1 rfl
  by_cases hn : n = "e_a"
  · subst hn
    simp only [addResults_cons, addResults_nil, addResult_results, zero, AList.insert_insert,
      AList.lookup_insert, Option.some.injEq] at hl
    subst hl
    exact absurd hs (by decide)
  · simp [zero, AList.lookup_insert_ne hn, -AList.insert_empty] at hl

/-! ## What `Above` returns -/

/-- The entries `Above` keeps: a non-nil result with a status above `status`. -/
def aboveKeeps (status : LintStatus) (v : Option LintResult) : Bool :=
  v.any fun r => decide (r.status > status)

theorem aboveLoop_panic (status : LintStatus) {entries : List (Σ _ : String, Option LintResult)}
    {n : String} (h : ⟨n, none⟩ ∈ entries) (acc : AList fun _ : String => Option LintResult) :
    aboveLoop status entries acc = .error .nilDereference := by
  induction entries generalizing acc with
  | nil => cases h
  | cons e rest ih =>
    obtain ⟨k, _ | r⟩ := e
    · rfl
    · rcases List.mem_cons.1 h with he | hn
      · cases he
      · exact ih hn _

theorem aboveLoop_ok (status : LintStatus) {entries : List (Σ _ : String, Option LintResult)}
    (hnd : entries.NodupKeys) (hs : ∀ e ∈ entries, e.2.isSome)
    (acc : AList fun _ : String => Option LintResult) (hacc : ∀ n ∈ entries.keys, acc.lookup n = none) :
    ∃ m, aboveLoop status entries acc = .ok m ∧
      ∀ n, m.lookup n = ((entries.dlookup n).filter (aboveKeeps status)).or (acc.lookup n) := by
  induction entries generalizing acc with
  | nil => exact ⟨acc, rfl, fun n => by simp⟩
  | cons e rest ih =>
    obtain ⟨k, v⟩ := e
    obtain ⟨r, rfl⟩ := Option.isSome_iff_exists.1 (hs _ (.head _))
    obtain ⟨hk, hnd⟩ := List.nodupKeys_cons.1 hnd
    have hacc' : ∀ n ∈ rest.keys,
        (if r.status > status then acc.insert k (some r) else acc).lookup n = none := fun n hn => by
      have hne : n ≠ k := fun h => hk (h ▸ hn)
      split_ifs <;> simp [AList.lookup_insert_ne hne, hacc n (List.mem_cons_of_mem _ hn)]
    obtain ⟨m, hm, hlook⟩ := ih hnd (fun e he => hs e (.tail _ he)) _ hacc'
    refine ⟨m, hm, fun n => ?_⟩
    rw [hlook]
    by_cases hn : n = k
    · subst hn
      rw [List.dlookup_eq_none.2 hk, List.dlookup_cons_eq]
      split_ifs with h <;> simp [aboveKeeps, Option.filter, h, hacc n (.head _)]
    · rw [List.dlookup_cons_ne _ _ hn]
      split_ifs <;> simp [AList.lookup_insert_ne hn]

/-- `Above` panics on a result set that holds a nil entry, in every order Go may range over the
map; on one that holds none, it returns the entries whose status is above `status`. -/
theorem above_spec (rs : ResultSet) (status : LintStatus) :
    (rs.above status = .error .nilDereference ↔ ∃ n, rs.results.lookup n = some none) ∧
    ((∀ n, rs.results.lookup n ≠ some none) → ∃ m, rs.above status = .ok m ∧
      ∀ n, m.lookup n = (rs.results.lookup n).filter (aboveKeeps status)) := by
  have hok : (∀ n, rs.results.lookup n ≠ some none) → ∃ m, rs.above status = .ok m ∧
      ∀ n, m.lookup n = (rs.results.lookup n).filter (aboveKeeps status) := fun h => by
    obtain ⟨m, hm, hl⟩ := aboveLoop_ok status rs.results.nodupKeys
      (fun ⟨n, v⟩ he => by cases v; exacts [absurd (AList.mem_lookup_iff.2 he) (h n), rfl])
      ∅ (fun n _ => AList.lookup_empty n)
    exact ⟨m, hm, fun n => by rw [hl n, AList.lookup_empty, Option.or_none]; rfl⟩
  refine ⟨⟨fun he => ?_, fun ⟨n, hn⟩ => aboveLoop_panic status (AList.mem_lookup_iff.1 hn) ∅⟩, hok⟩
  by_contra hne
  obtain ⟨m, hm, -⟩ := hok fun n h => hne ⟨n, h⟩
  rw [hm] at he
  cases he

theorem no_nil_addResults {rs : ResultSet} (h₀ : ∀ n, rs.results.lookup n ≠ some none)
    {adds : List (String × Option LintResult)} (hadds : ∀ a ∈ adds, a.2 ≠ none) :
    ∀ n, (rs.addResults adds).results.lookup n ≠ some none := by
  induction adds generalizing rs with
  | nil => exact h₀
  | cons a adds ih =>
    refine ih (fun n => ?_) fun b hb => hadds b (.tail _ hb)
    rw [addResult_results]
    by_cases hn : n = a.1
    · subst hn
      rw [AList.lookup_insert]
      exact fun h => hadds a (.head _) (Option.some.inj h)
    · rw [AList.lookup_insert_ne hn]
      exact h₀ n

theorem above_spec_nil_result :
    ((newResultSet 0).addResult "e_a" none).above LintStatus.pass = .error .nilDereference :=
  (above_spec _ _).1.2 ⟨"e_a", by simp⟩

theorem filter_aboveKeeps (o : Option (Option LintResult)) (s₁ s₂ : LintStatus) :
    (o.filter (aboveKeeps s₁)).filter (aboveKeeps s₂) = o.filter (aboveKeeps (max s₁ s₂)) := by
  rcases o with _ | _ | r
  · rfl
  · rfl
  · by_cases h₁ : s₁ < r.status <;> by_cases h₂ : s₂ < r.status <;>
      simp [Option.filter_some, aboveKeeps, max_lt_iff, h₁, h₂]

/-- On a result set with no nil entry, `Above` is a threshold filter: `Above(s₂)` of the result
set whose map was replaced by `Above(s₁)`, as `doLint` does, is `Above(max s₁ s₂)`; `Above` at
one threshold is idempotent; and a higher threshold keeps a part of what a lower one keeps. -/
theorem above_composes (rs : ResultSet) (hnil : ∀ n, rs.results.lookup n ≠ some none) :
    (∀ s₁ s₂, ∃ m₁ m₂ m, rs.above s₁ = .ok m₁ ∧ { rs with results := m₁ }.above s₂ = .ok m₂ ∧
      rs.above (max s₁ s₂) = .ok m ∧ ∀ n, m₂.lookup n = m.lookup n) ∧
    (∀ s m₁, rs.above s = .ok m₁ → ∃ m₂, { rs with results := m₁ }.above s = .ok m₂ ∧
      ∀ n, m₂.lookup n = m₁.lookup n) ∧
    (∀ s₁ s₂ m₁ m₂, s₁ ≤ s₂ → rs.above s₁ = .ok m₁ → rs.above s₂ = .ok m₂ →
      ∀ n v, m₂.lookup n = some v → m₁.lookup n = some v) := by
  have hab := fun s => (above_spec rs s).2 hnil
  have hcomp : ∀ s₁ s₂, ∃ m₁ m₂ m, rs.above s₁ = .ok m₁ ∧
      { rs with results := m₁ }.above s₂ = .ok m₂ ∧ rs.above (max s₁ s₂) = .ok m ∧
      ∀ n, m₂.lookup n = m.lookup n := fun s₁ s₂ => by
    obtain ⟨m₁, h₁, l₁⟩ := hab s₁
    -- the kept map has no nil entry, since `Above` keeps none
    have hnil₁ : ∀ n, m₁.lookup n ≠ some none := fun n h => by
      rw [l₁] at h
      simp [Option.filter_eq_some, aboveKeeps] at h
    obtain ⟨m₂, h₂, l₂⟩ := (above_spec { rs with results := m₁ } s₂).2 hnil₁
    obtain ⟨m, h, l⟩ := hab (max s₁ s₂)
    exact ⟨m₁, m₂, m, h₁, h₂, h, fun n => by rw [l₂, l, ← filter_aboveKeeps, ← l₁]⟩
  refine ⟨hcomp, fun s m₁ h₁ => ?_, fun s₁ s₂ m₁ m₂ hle h₁ h₂ n v hv => ?_⟩
  · obtain ⟨m₁', m₂, m, h₁', h₂, h, hl⟩ := hcomp s s
    rw [max_self, h₁] at h
    cases h₁.symm.trans h₁'
    cases h
    exact ⟨m₂, h₂, hl⟩
  · obtain ⟨m₁', h₁', l₁⟩ := hab s₁
    obtain ⟨m₂', h₂', l₂⟩ := hab s₂
    cases h₁.symm.trans h₁'
    cases h₂.symm.trans h₂'
    rw [l₂, ← max_eq_right hle, ← filter_aboveKeeps] at hv
    rw [l₁]
    exact (Option.filter_eq_some.1 hv).1

theorem above_composes_three :
    ∃ m₁ m₂ m, (zero.addResults [("e_a", some ⟨LintStatus.error, ""⟩),
        ("e_b", some ⟨LintStatus.pass, ""⟩), ("e_c", some ⟨LintStatus.warn, ""⟩)]).above
          LintStatus.pass = .ok m₁ ∧
      { zero.addResults [("e_a", some ⟨LintStatus.error, ""⟩),
          ("e_b", some ⟨LintStatus.pass, ""⟩), ("e_c", some ⟨LintStatus.warn, ""⟩)] with
          results := m₁ }.above LintStatus.warn = .ok m₂ ∧
      (zero.addResults [("e_a", some ⟨LintStatus.error, ""⟩),
        ("e_b", some ⟨LintStatus.pass, ""⟩), ("e_c", some ⟨LintStatus.warn, ""⟩)]).above
          (max LintStatus.pass LintStatus.warn) = .ok m ∧ ∀ n, m₂.lookup n = m.lookup n :=
  (above_composes _ (no_nil_addResults (fun n => by simp [zero]) (by simp))).1 _ _

end ResultSet

end Zlint
