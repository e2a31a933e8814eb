import Mathlib.Data.List.Dedup
import Zlint.Base

/-!
# The registry (`linterImpl`) and `register`

Each call runs alone here, so the lock is left out; `Concurrent.lean` puts it back.
`register` is its checks (`registerCheck`), an optional `Initialize()`, and the block under
the write lock (`registerWrite`).
-/

namespace Zlint

variable {Cert Src : Type}

/-- `linterImpl`, without its lock. `newLinter` makes both maps, so neither is ever nil. -/
structure LinterImpl (Cert Src : Type) where
  lintsByName : AList (fun _ : String => Option (Lint Cert Src))
  lintNames : List String
  lintsBySource : AList (fun _ : Src => List (Option (Lint Cert Src)))

/-- `newLinter`. -/
def newLinter : LinterImpl Cert Src := ⟨∅, [], ∅⟩

/-- The errors of `register`: `errNilLint`, `errNilLintPtr`, `errEmptyName`, and the structs
`errDuplicateName` and `errBadInit`. -/
inductive RegisterError where
  | errNilLint
  | errNilLintPtr
  | errEmptyName
  | errDuplicateName (lintName : String)
  | errBadInit (lintName : String) (err : GoError)
  deriving DecidableEq, Repr

/-- `Error()` of the errors of `register`; `quote` is Go's `%q`, which quotes an error's
`Error()`. -/
def RegisterError.text (quote : String → String) : RegisterError → String
  | .errNilLint => "can not register a nil lint"
  | .errNilLintPtr => "can not register a lint with a nil Lint pointer"
  | .errEmptyName => "can not register a lint with an empty Name"
  | .errDuplicateName lintName =>
    "can not register lint with name " ++ quote lintName ++ " - it has already been registered"
  | .errBadInit lintName err =>
    "failed to register lint with name " ++ quote lintName ++ " - failed to Initialize: " ++
      quote err.msg

/-- What a call of `register` leaves: its error, whether it ran the lint's `Initialize()`,
and the linter after it. -/
structure Registered (Cert Src : Type) where
  err : Option RegisterError
  initCalled : Bool
  linter : LinterImpl Cert Src

namespace LinterImpl

/-- `byName`: the lint registered under `name`, or nil. -/
def byName (l : LinterImpl Cert Src) (name : String) : Option (Lint Cert Src) :=
  (l.lintsByName.lookup name).getD none

/-- `Names`. -/
def names (l : LinterImpl Cert Src) : List String := l.lintNames

/-- `Sources`: the keys of `lintsBySource`. Go ranges over the map in no fixed order; here
the order of its entries is used. -/
def sources (l : LinterImpl Cert Src) : List Src := l.lintsBySource.keys

/-- What `json.Encoder.Encode` writes of one lint, where `encode` is `json.Marshal` with HTML
escaping off: the JSON and a newline, or nothing when the encoding fails. -/
def encodeLine (encode : Option (Lint Cert Src) → Except GoError String)
    (lint : Option (Lint Cert Src)) : String :=
  match encode lint with
  | .ok json => json ++ "\n"
  | .error _ => ""

/-- `WriteJSON`: `Encode` of each name's lint, in name order; the error of `Encode` is dropped. -/
def writeJSON (l : LinterImpl Cert Src) (encode : Option (Lint Cert Src) → Except GoError String) :
    String :=
  String.join (l.names.map fun name => encodeLine encode (l.byName name))

/-- The checks of `register` before `Initialize()`, in the source's order: the lint and its
`Lint` interface, or the error of the first check that fails. -/
def registerCheck (linter : LinterImpl Cert Src) :
    Option (Lint Cert Src) → Except RegisterError (Lint Cert Src × LintInterface)
  | none => .error .errNilLint
  | some l =>
    match l.lint with
    | none => .error .errNilLintPtr
    | some li =>
      if l.name = "" then .error .errEmptyName
      else if (linter.byName l.name).isSome then .error (.errDuplicateName l.name)
      else .ok (l, li)

variable [DecidableEq Src]

/-- The block of `register` under the write lock. -/
def registerWrite (linter : LinterImpl Cert Src) (l : Lint Cert Src) : LinterImpl Cert Src where
  lintNames := sortStrings (linter.lintNames ++ [l.name])
  lintsByName := linter.lintsByName.insert l.name (some l)
  lintsBySource :=
    linter.lintsBySource.insert l.source ((linter.lintsBySource.lookup l.source).getD [] ++ [some l])

/-- `register(l, initialize)`. -/
def register (linter : LinterImpl Cert Src) (l : Option (Lint Cert Src)) (init : Bool) :
    Registered Cert Src :=
  match linter.registerCheck l with
  | .error e => ⟨some e, false, linter⟩
  | .ok (l, li) =>
    if init then
      match li.initErr with
      | some err => ⟨some (.errBadInit l.name err), true, linter⟩
      | none => ⟨none, true, linter.registerWrite l⟩
    else ⟨none, false, linter.registerWrite l⟩

/-- `register` called on each `(l, initialize)` in turn: the linter at the end, and the error
of each call. -/
def registerAll (linter : LinterImpl Cert Src) :
    List (Option (Lint Cert Src) × Bool) → LinterImpl Cert Src × List (Option RegisterError)
  | [] => (linter, [])
  | (l, init) :: calls =>
    let r := linter.register l init
    let rest := r.linter.registerAll calls
    (rest.1, r.err :: rest.2)

/-- The linter that `newLinter()` becomes after the calls, made one after the other. -/
def ofCalls (calls : List (Option (Lint Cert Src) × Bool)) : LinterImpl Cert Src :=
  (newLinter.registerAll calls).1

end LinterImpl

/-- `RegisterLint`: `register(l, true)` on the default linter. It panics on an error, with the
error's text; here the panic carries the error. -/
def registerLint [DecidableEq Src] (defaultLinter : LinterImpl Cert Src)
    (l : Option (Lint Cert Src)) : Except RegisterError (LinterImpl Cert Src) :=
  let r := defaultLinter.register l true
  match r.err with
  | some e => .error e
  | none => .ok r.linter

/-- The name that a call registers on a linter that does not hold it yet: the lint is not nil,
has a `Lint` and a name, and its `Initialize()` succeeds if it runs. -/
def acceptedName : Option (Lint Cert Src) × Bool → Option String
  | (some L, init) =>
    match L.lint with
    | some li => if L.name ≠ "" ∧ (init = true → li.initErr = none) then some L.name else none
    | none => none
  | (none, _) => none

/-- The names of the calls that returned nil, in the order of the calls. -/
def acceptedNames (calls : List (Option (Lint Cert Src) × Bool))
    (errs : List (Option RegisterError)) : List String :=
  (calls.zip errs).filterMap fun p => if p.2 = none then p.1.1.map (·.name) else none

namespace LinterImpl

/-! ## Small lemmas -/

@[simp] theorem byName_newLinter (n : String) : (newLinter : LinterImpl Cert Src).byName n = none :=
  rfl

theorem byName_eq_some {s : LinterImpl Cert Src} {n : String} {L : Lint Cert Src} :
    s.byName n = some L ↔ s.lintsByName.lookup n = some (some L) := by
  unfold byName
  cases s.lintsByName.lookup n <;> simp

theorem registerCheck_eq_ok {s : LinterImpl Cert Src} {l : Option (Lint Cert Src)}
    {L : Lint Cert Src} {li : LintInterface} :
    s.registerCheck l = .ok (L, li) ↔
      l = some L ∧ L.lint = some li ∧ L.name ≠ "" ∧ s.byName L.name = none := by
  constructor
  · intro h
    rcases l with _ | L'
    · cases h
    simp only [registerCheck] at h
    split at h
    · cases h
    · split_ifs at h with he hb
      cases h
      exact ⟨rfl, ‹_›, he, by simpa using hb⟩
  · rintro ⟨rfl, hli, he, hb⟩
    simp [registerCheck, hli, he, hb]

variable [DecidableEq Src]

theorem lookup_lintsByName_registerWrite (s : LinterImpl Cert Src) (L : Lint Cert Src)
    (n : String) : (s.registerWrite L).lintsByName.lookup n =
      if n = L.name then some (some L) else s.lintsByName.lookup n := by
  split_ifs with h
  · subst h; simp [registerWrite]
  · simp [registerWrite, AList.lookup_insert_ne h]

theorem byName_registerWrite (s : LinterImpl Cert Src) (L : Lint Cert Src) (n : String) :
    (s.registerWrite L).byName n = if n = L.name then some L else s.byName n := by
  rw [byName, lookup_lintsByName_registerWrite]
  split_ifs <;> rfl

theorem lookup_bySource_registerWrite (s : LinterImpl Cert Src) (L : Lint Cert Src) (src : Src) :
    (s.registerWrite L).lintsBySource.lookup src =
      if src = L.source then some ((s.lintsBySource.lookup src).getD [] ++ [some L])
      else s.lintsBySource.lookup src := by
  split_ifs with h
  · subst h; simp [registerWrite]
  · simp [registerWrite, AList.lookup_insert_ne h]

/-! ## The registry invariant -/

/-- The registry invariant of the spec's §3. `lintNames` is strictly increasing and holds the
keys of `lintsByName`; each key holds a non-nil lint of that name, with a non-empty name and a
non-nil `Lint`; and `lintsBySource` lists each registered lint once, under its source, in
lists that are never empty. -/
structure Inv (s : LinterImpl Cert Src) : Prop where
  sorted : s.lintNames.Sorted (· < ·)
  mem_names : ∀ n, n ∈ s.lintNames ↔ n ∈ s.lintsByName
  lookup_eq : ∀ n v, s.lintsByName.lookup n = some v →
    ∃ L, v = some L ∧ L.name = n ∧ n ≠ "" ∧ L.lint.isSome
  mem_bySource : ∀ src x, x ∈ (s.lintsBySource.lookup src).getD [] ↔
    ∃ L, x = some L ∧ L.source = src ∧ s.byName L.name = some L
  bySource_ne_nil : ∀ src ls, s.lintsBySource.lookup src = some ls → ls ≠ [] ∧ ls.Nodup

theorem inv_newLinter : (newLinter : LinterImpl Cert Src).Inv where
  sorted := List.sorted_nil
  mem_names _ := by simp [newLinter]
  lookup_eq _ _ h := by simp [newLinter] at h
  mem_bySource _ _ := by simp [newLinter, byName]
  bySource_ne_nil _ _ h := by simp [newLinter] at h

namespace Inv

variable {s : LinterImpl Cert Src} (hs : s.Inv)
include hs

theorem nodup : s.lintNames.Nodup := hs.sorted.nodup

theorem byName_some {n : String} {L : Lint Cert Src} (h : s.byName n = some L) :
    L.name = n ∧ n ≠ "" ∧ L.lint.isSome ∧ n ∈ s.lintNames := by
  have hl := LinterImpl.byName_eq_some.1 h
  obtain ⟨L', hL', h1, h2, h3⟩ := hs.lookup_eq n _ hl
  cases hL'
  exact ⟨h1, h2, h3, (hs.mem_names n).2 (AList.lookup_isSome.1 (by simp [hl]))⟩

theorem byName_isSome {n : String} : (s.byName n).isSome ↔ n ∈ s.lintNames := by
  rw [hs.mem_names, ← AList.lookup_isSome]
  constructor
  · intro h
    obtain ⟨L, hL⟩ := Option.isSome_iff_exists.1 h
    simp [LinterImpl.byName_eq_some.1 hL]
  · intro h
    obtain ⟨v, hv⟩ := Option.isSome_iff_exists.1 h
    obtain ⟨L, rfl, -⟩ := hs.lookup_eq n v hv
    simp [byName, hv]

theorem nodup_bySource (src : Src) : ((s.lintsBySource.lookup src).getD []).Nodup := by
  cases h : s.lintsBySource.lookup src with
  | none => exact List.nodup_nil
  | some ls => exact (hs.bySource_ne_nil src ls h).2

theorem not_mem_bySource {L : Lint Cert Src} (hn : L.name ∉ s.lintNames) (src : Src) :
    some L ∉ (s.lintsBySource.lookup src).getD [] := by
  intro h
  obtain ⟨L', hL', -, hb⟩ := (hs.mem_bySource src _).1 h
  cases hL'
  exact hn (hs.byName_some hb).2.2.2

theorem mem_sources (src : Src) :
    src ∈ s.sources ↔ ∃ n L, s.byName n = some L ∧ L.source = src := by
  rw [sources, ← AList.mem_keys, ← AList.lookup_isSome]
  constructor
  · intro h
    obtain ⟨ls, hls⟩ := Option.isSome_iff_exists.1 h
    obtain ⟨x, hx⟩ := List.exists_mem_of_ne_nil _ (hs.bySource_ne_nil src ls hls).1
    obtain ⟨L, -, hsrc, hb⟩ := (hs.mem_bySource src x).1 (by simpa [hls] using hx)
    exact ⟨L.name, L, hb, hsrc⟩
  · rintro ⟨n, L, hb, rfl⟩
    have hmem := (hs.mem_bySource L.source (some L)).2
      ⟨L, rfl, rfl, by rwa [(hs.byName_some hb).1]⟩
    cases h : s.lintsBySource.lookup L.source <;> simp_all

end Inv

/-! ## One call keeps the invariant -/

section Step

variable {s : LinterImpl Cert Src} (hs : s.Inv) {L : Lint Cert Src}
include hs

theorem inv_registerWrite (hn : L.name ∉ s.lintNames) (he : L.name ≠ "") (hl : L.lint.isSome) :
    (s.registerWrite L).Inv where
  sorted := by
    have hnd : (s.lintNames ++ [L.name]).Nodup :=
      hs.nodup.append (List.nodup_singleton _) (List.disjoint_singleton.2 hn)
    exact (sortStrings_sorted _).lt_of_le ((sortStrings_perm _).nodup_iff.2 hnd)
  mem_names n := by simp [registerWrite, hs.mem_names, or_comm]
  lookup_eq n v h := by
    by_cases hn' : n = L.name
    · subst hn'
      simp only [registerWrite, AList.lookup_insert, Option.some.injEq] at h
      exact ⟨L, h.symm, rfl, he, hl⟩
    · simp only [registerWrite, AList.lookup_insert_ne hn'] at h
      exact hs.lookup_eq n v h
  mem_bySource src x := by
    have hfresh : ∀ L', s.byName L'.name = some L' → L'.name ≠ L.name :=
      fun L' hb h => hn (h ▸ (hs.byName_some hb).2.2.2)
    rw [lookup_bySource_registerWrite]
    simp only [byName_registerWrite]
    split_ifs with hsrc
    · subst hsrc
      simp only [Option.getD_some, List.mem_append, List.mem_singleton, hs.mem_bySource]
      constructor
      · rintro (⟨L', rfl, hsrc', hb⟩ | rfl)
        · exact ⟨L', rfl, hsrc', by rw [if_neg (hfresh L' hb)]; exact hb⟩
        · exact ⟨L, rfl, rfl, by simp⟩
      · rintro ⟨L', rfl, hsrc', hb⟩
        split_ifs at hb with h
        · cases hb; exact .inr rfl
        · exact .inl ⟨L', rfl, hsrc', hb⟩
    · rw [hs.mem_bySource]
      constructor
      · rintro ⟨L', rfl, hsrc', hb⟩
        exact ⟨L', rfl, hsrc', by rw [if_neg (hfresh L' hb)]; exact hb⟩
      · rintro ⟨L', rfl, hsrc', hb⟩
        split_ifs at hb with h
        · cases hb; exact absurd hsrc'.symm hsrc
        · exact ⟨L', rfl, hsrc', hb⟩
  bySource_ne_nil src ls h := by
    rw [lookup_bySource_registerWrite] at h
    split_ifs at h with hsrc
    · cases h
      exact ⟨by simp, (hs.nodup_bySource src).append (List.nodup_singleton _)
        (List.disjoint_singleton.2 (hs.not_mem_bySource hn src))⟩
    · exact hs.bySource_ne_nil src ls h

end Step

theorem register_cases (s : LinterImpl Cert Src) (l : Option (Lint Cert Src)) (init : Bool) :
    (acceptedName (l, init) = none ∧ ∃ e c, s.register l init = ⟨some e, c, s⟩) ∨
    (∃ L : Lint Cert Src, acceptedName (l, init) = some L.name ∧ (s.byName L.name).isSome ∧
      s.register l init = ⟨some (.errDuplicateName L.name), false, s⟩) ∨
    (∃ L : Lint Cert Src, l = some L ∧ acceptedName (l, init) = some L.name ∧
      s.byName L.name = none ∧ L.name ≠ "" ∧ L.lint.isSome ∧
      s.register l init = ⟨none, init, s.registerWrite L⟩) := by
  rcases l with _ | L
  · exact .inl ⟨rfl, _, _, rfl⟩
  rcases hli : L.lint with _ | li
  · exact .inl ⟨by simp [acceptedName, hli], .errNilLintPtr, false,
      by simp [register, registerCheck, hli]⟩
  by_cases he : L.name = ""
  · exact .inl ⟨by simp [acceptedName, hli, he], .errEmptyName, false,
      by simp [register, registerCheck, hli, he]⟩
  cases hb : s.byName L.name with
  | some L' =>
    have hr : s.register (some L) init = ⟨some (.errDuplicateName L.name), false, s⟩ := by
      simp [register, registerCheck, hli, he, hb]
    by_cases hinit : init = true → li.initErr = none
    · exact .inr (.inl ⟨L, by simpa [acceptedName, hli, he] using hinit, by simp [hb], hr⟩)
    · exact .inl ⟨by simpa [acceptedName, hli, he] using hinit, _, _, hr⟩
  | none =>
    have ha : (init = true → li.initErr = none) →
        acceptedName (some L, init) = some L.name := by
      intro hi; simpa [acceptedName, hli, he] using hi
    cases init with
    | false =>
      exact .inr (.inr ⟨L, rfl, ha (by simp), hb, he, by simp [hli],
        by simp [register, registerCheck, hli, he, hb]⟩)
    | true =>
      cases hi : li.initErr with
      | none =>
        exact .inr (.inr ⟨L, rfl, ha fun _ => hi, hb, he, by simp [hli],
          by simp [register, registerCheck, hli, he, hb, hi]⟩)
      | some e =>
        exact .inl ⟨by simp [acceptedName, hli, he, hi], .errBadInit L.name e, true,
          by simp [register, registerCheck, hli, he, hb, hi]⟩

theorem names_register_perm (s : LinterImpl Cert Src) (l : Option (Lint Cert Src)) (init : Bool) :
    (s.register l init).linter.lintNames.Perm
      (s.lintNames ++ if (s.register l init).err = none then (l.map (·.name)).toList else []) := by
  rcases register_cases s l init with ⟨-, e, c, h⟩ | ⟨L, -, -, h⟩ | ⟨L, rfl, -, -, -, -, h⟩ <;>
    rw [h]
  · simp
  · simp
  · exact sortStrings_perm _

section Run

variable {s : LinterImpl Cert Src} (hs : s.Inv)
include hs

theorem inv_register (l : Option (Lint Cert Src)) (init : Bool) : (s.register l init).linter.Inv := by
  rcases register_cases s l init with ⟨-, e, c, h⟩ | ⟨L, -, -, h⟩ | ⟨L, -, -, hb, he, hl, h⟩ <;>
    rw [h]
  · exact hs
  · exact hs
  · exact inv_registerWrite hs (fun hm => by simpa [hb] using hs.byName_isSome.2 hm) he hl

theorem mem_names_register (l : Option (Lint Cert Src)) (init : Bool) (n : String) :
    n ∈ (s.register l init).linter.lintNames ↔ n ∈ s.lintNames ∨ acceptedName (l, init) = some n := by
  rcases register_cases s l init with ⟨ha, e, c, h⟩ | ⟨L, ha, hb, h⟩ | ⟨L, -, ha, -, -, -, h⟩ <;>
    rw [h]
  · simp [ha]
  · simp only [ha, Option.some.injEq]
    exact ⟨.inl, by rintro (h | rfl); exacts [h, hs.byName_isSome.1 hb]⟩
  · simp [registerWrite, ha, eq_comm]

theorem register_fresh {L : Lint Cert Src} (hl : L.lint.isSome) (he : L.name ≠ "")
    (hn : L.name ∉ s.lintNames) : s.register (some L) false = ⟨none, false, s.registerWrite L⟩ := by
  obtain ⟨li, hli⟩ := Option.isSome_iff_exists.1 hl
  have hb : s.byName L.name = none := by simpa using mt hs.byName_isSome.1 hn
  simp [register, registerCheck, hli, he, hb]

theorem inv_registerAll (calls : List (Option (Lint Cert Src) × Bool)) :
    (s.registerAll calls).1.Inv := by
  induction calls generalizing s with
  | nil => exact hs
  | cons c calls ih => exact ih (inv_register hs c.1 c.2)

theorem mem_names_registerAll (calls : List (Option (Lint Cert Src) × Bool)) (n : String) :
    n ∈ (s.registerAll calls).1.lintNames ↔
      n ∈ s.lintNames ∨ ∃ c ∈ calls, acceptedName c = some n := by
  induction calls generalizing s with
  | nil => simp [registerAll]
  | cons c calls ih =>
    obtain ⟨l, init⟩ := c
    simp only [registerAll, ih (inv_register hs l init), mem_names_register hs, List.mem_cons,
      exists_eq_or_imp, or_assoc]

theorem names_registerAll (calls : List (Option (Lint Cert Src) × Bool)) :
    (s.registerAll calls).1.lintNames =
      sortStrings (s.lintNames ++ acceptedNames calls (s.registerAll calls).2) := by
  induction calls generalizing s with
  | nil => simpa [registerAll, acceptedNames] using (sortStrings_of_sorted hs.sorted).symm
  | cons c calls ih =>
    obtain ⟨l, init⟩ := c
    simp only [registerAll, ih (inv_register hs l init)]
    apply sortStrings_eq_of_perm
    refine ((names_register_perm s l init).append_right _).trans ?_
    rw [List.append_assoc]
    refine List.Perm.append_left _ ?_
    cases h : (s.register l init).err <;> cases l <;> simp [acceptedNames, h]

end Run

/-- From `newLinter`, the names are the sorted names of the accepted calls, whatever their
order. -/
theorem names_registerAll_newLinter (calls : List (Option (Lint Cert Src) × Bool)) :
    (newLinter.registerAll calls).1.lintNames = sortStrings (calls.filterMap acceptedName).dedup :=
  eq_of_sorted_of_mem_iff (inv_registerAll inv_newLinter calls).sorted
    ((sortStrings_sorted _).lt_of_le ((sortStrings_perm _).nodup_iff.2 (List.nodup_dedup _)))
    (fun n => (mem_names_registerAll inv_newLinter calls n).trans (by simp [newLinter]))

theorem inv_ofCalls (calls : List (Option (Lint Cert Src) × Bool)) : (ofCalls calls).Inv :=
  inv_registerAll inv_newLinter calls

/-! ## The contract of `register` -/

/-- What `register` promises, check by check in the source's order: each failing check
returns its error and leaves the linter as it was, `Initialize()` runs only when asked for and
the first four checks pass, and a call that passes every check returns nil and registers the
lint: its name at its place in `lintNames`, the name mapped to it, and the lint appended to
the list of its source. -/
def RegisterPost (s : LinterImpl Cert Src) (l : Option (Lint Cert Src)) (init : Bool)
    (r : Registered Cert Src) : Prop :=
  (l = none ∧ r = ⟨some .errNilLint, false, s⟩) ∨
  (∃ L, l = some L ∧ L.lint = none ∧ r = ⟨some .errNilLintPtr, false, s⟩) ∨
  (∃ L li, l = some L ∧ L.lint = some li ∧ L.name = "" ∧ r = ⟨some .errEmptyName, false, s⟩) ∨
  (∃ L li, l = some L ∧ L.lint = some li ∧ L.name ≠ "" ∧ L.name ∈ s.lintNames ∧
    r = ⟨some (.errDuplicateName L.name), false, s⟩) ∨
  (∃ L li e, l = some L ∧ L.lint = some li ∧ L.name ≠ "" ∧ L.name ∉ s.lintNames ∧ init = true ∧
    li.initErr = some e ∧ r = ⟨some (.errBadInit L.name e), true, s⟩) ∨
  (∃ L li, l = some L ∧ L.lint = some li ∧ L.name ≠ "" ∧ L.name ∉ s.lintNames ∧
    (init = true → li.initErr = none) ∧ r.err = none ∧ r.initCalled = init ∧
    r.linter.lintNames = s.lintNames.orderedInsert (· ≤ ·) L.name ∧
    (∀ n, r.linter.lintsByName.lookup n =
      if n = L.name then some (some L) else s.lintsByName.lookup n) ∧
    (∀ src, r.linter.lintsBySource.lookup src =
      if src = L.source then some ((s.lintsBySource.lookup src).getD [] ++ [some L])
      else s.lintsBySource.lookup src))

theorem register_spec {s : LinterImpl Cert Src} (hs : s.Inv) (l : Option (Lint Cert Src))
    (init : Bool) : RegisterPost s l init (s.register l init) := by
  rcases l with _ | L
  · exact .inl ⟨rfl, rfl⟩
  rcases hli : L.lint with _ | li
  · exact .inr <| .inl ⟨L, rfl, hli, by simp [register, registerCheck, hli]⟩
  by_cases he : L.name = ""
  · exact .inr <| .inr <| .inl ⟨L, li, rfl, hli, he, by simp [register, registerCheck, hli, he]⟩
  by_cases hd : L.name ∈ s.lintNames
  · have hb := hs.byName_isSome.2 hd
    exact .inr <| .inr <| .inr <| .inl ⟨L, li, rfl, hli, he, hd,
      by simp [register, registerCheck, hli, he, hb]⟩
  have hb : s.byName L.name = none := by simpa using mt hs.byName_isSome.1 hd
  have hwrite : (init = true → li.initErr = none) →
      s.register (some L) init = ⟨none, init, s.registerWrite L⟩ →
      RegisterPost s (some L) init (s.register (some L) init) := by
    intro hi hr
    refine .inr <| .inr <| .inr <| .inr <| .inr ⟨L, li, rfl, hli, he, hd, hi, by rw [hr], by rw [hr],
      ?_, fun n => ?_, fun src => ?_⟩ <;> rw [hr]
    · exact sortStrings_append_singleton hs.sorted.le_of_lt _
    · exact lookup_lintsByName_registerWrite s L n
    · exact lookup_bySource_registerWrite s L src
  cases init with
  | false => exact hwrite (by simp) (by simp [register, registerCheck, hli, he, hb])
  | true =>
    cases hi : li.initErr with
    | none => exact hwrite (fun _ => hi) (by simp [register, registerCheck, hli, he, hb, hi])
    | some e =>
      exact .inr <| .inr <| .inr <| .inr <| .inl ⟨L, li, e, rfl, hli, he, hd, rfl, hi,
        by simp [register, registerCheck, hli, he, hb, hi]⟩

theorem register_spec_newLinter :
    RegisterPost (newLinter : LinterImpl Unit String)
      (some ⟨"e_a", "CABF_BR", some ⟨none⟩, fun _ => .ok none⟩) true
      ((newLinter : LinterImpl Unit String).register
        (some ⟨"e_a", "CABF_BR", some ⟨none⟩, fun _ => .ok none⟩) true) :=
  register_spec inv_newLinter _ _

end LinterImpl

end Zlint
