import Zlint.Registry

/-!
# Concurrent calls of `register`

`register` reads the linter under the read lock (`byName`, in the duplicate check) and writes it
under the write lock, and holds no lock in between. Each goroutine's call is three atomic steps
here: the checks, `Initialize()` when asked for, and the write block. The checks before `byName`
read no shared state, so they run in the step of `byName`.
-/

namespace Zlint

variable {Cert Src : Type}

/-- How far a goroutine's call of `register` has run. -/
inductive Pc (Cert Src : Type) where
  | start
  | checked (l : Lint Cert Src) (li : LintInterface)
  | ready (l : Lint Cert Src)
  | done (err : Option RegisterError)

/-- A goroutine calling `register(l, initialize)`. -/
structure Goroutine (Cert Src : Type) where
  lint : Option (Lint Cert Src)
  init : Bool
  pc : Pc Cert Src

/-- One shared linter and the goroutines that call `register` on it. -/
structure Sys (Cert Src : Type) where
  linter : LinterImpl Cert Src
  threads : List (Goroutine Cert Src)

/-- The calls, none of them started, on `linter`. -/
def Sys.start (linter : LinterImpl Cert Src) (calls : List (Option (Lint Cert Src) × Bool)) :
    Sys Cert Src :=
  ⟨linter, calls.map fun c => ⟨c.1, c.2, .start⟩⟩

variable [DecidableEq Src]

/-- One atomic step of a goroutine: the linter after it and where the call is then. A call
that has returned takes no step. -/
def Goroutine.step (linter : LinterImpl Cert Src) (g : Goroutine Cert Src) :
    Option (LinterImpl Cert Src × Pc Cert Src) :=
  match g.pc with
  | .start =>
    match linter.registerCheck g.lint with
    | .error e => some (linter, .done (some e))
    | .ok (l, li) => some (linter, .checked l li)
  | .checked l li =>
    if g.init then
      match li.initErr with
      | some err => some (linter, .done (some (.errBadInit l.name err)))
      | none => some (linter, .ready l)
    else some (linter, .ready l)
  | .ready l => some (linter.registerWrite l, .done none)
  | .done _ => none

/-- Goroutine `i` takes one step. -/
def Sys.step (s : Sys Cert Src) (i : Nat) : Option (Sys Cert Src) :=
  match s.threads[i]? with
  | none => none
  | some g => (g.step s.linter).map fun p => ⟨p.1, s.threads.set i { g with pc := p.2 }⟩

/-- The states that some interleaving of the goroutines' steps reaches from `s₀`. -/
inductive Reachable (s₀ : Sys Cert Src) : Sys Cert Src → Prop
  | refl : Reachable s₀ s₀
  | step {s s' : Sys Cert Src} (i : Nat) : Reachable s₀ s → s.step i = some s' → Reachable s₀ s'

def Sys.run (s : Sys Cert Src) : List Nat → Option (Sys Cert Src)
  | [] => some s
  | i :: is => (s.step i).bind (·.run is)

def DistinctNames (lints : List (Option (Lint Cert Src))) : Prop :=
  lints.Pairwise fun o o' => ∀ L ∈ o, ∀ L' ∈ o', L.name ≠ L'.name

/-- What a goroutine's progress tells of the linter: past the checks, its lint has a `Lint`
and a name not registered yet; once it has returned nil, its lint is registered. -/
def Goroutine.Inv (linter : LinterImpl Cert Src) (g : Goroutine Cert Src) : Prop :=
  match g.pc with
  | .start | .done (some _) => True
  | .checked l _ | .ready l =>
    g.lint = some l ∧ l.lint.isSome ∧ l.name ≠ "" ∧ l.name ∉ linter.lintNames
  | .done none => ∃ l, g.lint = some l ∧ linter.byName l.name = some l

/-- The invariant of a linter under concurrent calls of distinct names. -/
structure Sys.Inv (s : Sys Cert Src) : Prop where
  linter : s.linter.Inv
  threads : ∀ (i : Nat) (g : Goroutine Cert Src), s.threads[i]? = some g → g.Inv s.linter
  distinct : DistinctNames (s.threads.map (·.lint))

/-! ## Steps -/

theorem Goroutine.step_cases {linter lin : LinterImpl Cert Src} {g : Goroutine Cert Src}
    {pc : Pc Cert Src} (h : g.step linter = some (lin, pc)) :
    (lin = linter ∧ ∃ e, pc = .done (some e)) ∨
    (lin = linter ∧ ∃ l li, pc = .checked l li ∧ linter.registerCheck g.lint = .ok (l, li)) ∨
    (lin = linter ∧ ∃ l li, g.pc = .checked l li ∧ pc = .ready l) ∨
    (∃ l, g.pc = .ready l ∧ lin = linter.registerWrite l ∧ pc = .done none) := by
  rcases hpc : g.pc with _ | ⟨l, li⟩ | l | e <;> simp only [Goroutine.step, hpc] at h
  · cases hc : linter.registerCheck g.lint with
    | error e => simp only [hc, Option.some.injEq, Prod.mk.injEq] at h; exact .inl ⟨h.1.symm, e, h.2.symm⟩
    | ok p =>
      simp only [hc, Option.some.injEq, Prod.mk.injEq] at h
      exact .inr (.inl ⟨h.1.symm, p.1, p.2, h.2.symm, rfl⟩)
  · split_ifs at h
    · split at h <;> simp only [Option.some.injEq, Prod.mk.injEq] at h
      · exact .inl ⟨h.1.symm, _, h.2.symm⟩
      · exact .inr (.inr (.inl ⟨h.1.symm, l, li, rfl, h.2.symm⟩))
    · simp only [Option.some.injEq, Prod.mk.injEq] at h
      exact .inr (.inr (.inl ⟨h.1.symm, l, li, rfl, h.2.symm⟩))
  · simp only [Option.some.injEq, Prod.mk.injEq] at h
    exact .inr (.inr (.inr ⟨l, rfl, h.1.symm, h.2.symm⟩))
  · cases h

theorem Sys.step_eq_some {s s' : Sys Cert Src} {i : Nat} (h : s.step i = some s') :
    ∃ g pc, s.threads[i]? = some g ∧ g.step s.linter = some (s'.linter, pc) ∧
      s'.threads = s.threads.set i { g with pc := pc } := by
  unfold Sys.step at h
  split at h
  · cases h
  · obtain ⟨p, hp, rfl⟩ := Option.map_eq_some'.1 h
    exact ⟨_, p.2, ‹_›, hp, rfl⟩

theorem set_self_of_getElem? {α : Type} {l : List α} {i : Nat} {a : α} (h : l[i]? = some a) :
    l.set i a = l :=
  List.ext_getElem? fun j => by
    rw [List.getElem?_set]
    split_ifs with h₁ h₂
    · subst h₁; exact h.symm
    · subst h₁; simp [List.getElem?_eq_none (Nat.le_of_not_lt h₂)] at h
    · rfl

theorem Sys.calls_step {s s' : Sys Cert Src} {i : Nat} (h : s.step i = some s') :
    s'.threads.map (·.lint) = s.threads.map (·.lint) := by
  obtain ⟨g, pc, hg, -, hs'⟩ := Sys.step_eq_some h
  rw [hs', List.map_set]
  exact set_self_of_getElem? (by simp [hg])

theorem Reachable.run {s₀ s s' : Sys Cert Src} (hs : Reachable s₀ s) :
    ∀ {is : List Nat}, s.run is = some s' → Reachable s₀ s'
  | [], h => by cases h; exact hs
  | i :: is, h => by
    obtain ⟨s₁, h₁, h⟩ := Option.bind_eq_some.1 h
    exact (hs.step i h₁).run h

theorem Sys.run_append (s : Sys Cert Src) (is js : List Nat) :
    s.run (is ++ js) = (s.run is).bind (·.run js) := by
  induction is generalizing s with
  | nil => rfl
  | cons i is ih =>
    show (s.step i).bind (·.run (is ++ js)) = ((s.step i).bind (·.run is)).bind (·.run js)
    simp only [ih, Option.bind_assoc]

/-! ## A call that runs alone is `register` -/

theorem Sys.run_alone (s : Sys Cert Src) {i : Nat} {l : Option (Lint Cert Src)} {init : Bool}
    (h : s.threads[i]? = some ⟨l, init, .start⟩) :
    ∃ k, s.run (List.replicate k i) = some ⟨(s.linter.register l init).linter,
      s.threads.set i ⟨l, init, .done (s.linter.register l init).err⟩⟩ := by
  have hlt : i < s.threads.length := (List.getElem?_eq_some_iff.1 h).1
  cases hc : s.linter.registerCheck l with
  | error e =>
    exact ⟨1, by simp [Sys.run, Sys.step, h, Goroutine.step, hc, LinterImpl.register]⟩
  | ok p =>
    obtain ⟨L, li⟩ := p
    cases init
    · exact ⟨3, by simp [Sys.run, Sys.step, h, hlt, Goroutine.step, hc, LinterImpl.register]⟩
    · cases he : li.initErr
      · exact ⟨3, by simp [Sys.run, Sys.step, h, hlt, Goroutine.step, hc, he, LinterImpl.register]⟩
      · exact ⟨2, by simp [Sys.run, Sys.step, h, hlt, Goroutine.step, hc, he, LinterImpl.register]⟩

/-- Each call run alone, one after the other, in the order of the calls: an interleaving that
ends where the sequential calls of `register` end, each goroutine returning its call's error. -/
theorem Sys.run_sequential (s : LinterImpl Cert Src) (calls : List (Option (Lint Cert Src) × Bool)) :
    ∃ sched, (Sys.start s calls).run sched = some ⟨(s.registerAll calls).1,
      (calls.zip (s.registerAll calls).2).map fun p => ⟨p.1.1, p.1.2, .done p.2⟩⟩ := by
  suffices h : ∀ (pre : List (Goroutine Cert Src)) (s : LinterImpl Cert Src),
      ∃ sched, Sys.run ⟨s, pre ++ (Sys.start s calls).threads⟩ sched = some ⟨(s.registerAll calls).1,
        pre ++ (calls.zip (s.registerAll calls).2).map fun p => ⟨p.1.1, p.1.2, .done p.2⟩⟩ from
    h [] s
  induction calls with
  | nil => exact fun pre s => ⟨[], by simp [Sys.run, Sys.start, LinterImpl.registerAll]⟩
  | cons c calls ih =>
    intro pre s
    obtain ⟨l, init⟩ := c
    have hpre : (pre ++ (Sys.start s ((l, init) :: calls)).threads)[pre.length]? =
        some ⟨l, init, .start⟩ := by
      rw [List.getElem?_append_right (le_refl _), Nat.sub_self]; simp [Sys.start]
    obtain ⟨k, hk⟩ := Sys.run_alone ⟨s, _⟩ hpre
    obtain ⟨sched, hs⟩ := ih (pre ++ [⟨l, init, .done (s.register l init).err⟩])
      (s.register l init).linter
    refine ⟨List.replicate k pre.length ++ sched, ?_⟩
    rw [Sys.run_append, hk]
    simpa [Sys.start, LinterImpl.registerAll, List.set_append_right] using hs

/-! ## Two calls of one name -/

/-- Two calls that register lints of one name, each checked before the other writes: both
return nil, and the name is in `lintNames` twice, so the registry invariant is broken. -/
theorem register_race_registers_twice {s : LinterImpl Cert Src} (hs : s.Inv)
    {L₁ L₂ : Lint Cert Src} (h₁ : L₁.lint.isSome) (h₂ : L₂.lint.isSome) (hname : L₂.name = L₁.name)
    (he : L₁.name ≠ "") (hn : L₁.name ∉ s.lintNames) :
    ∃ s', (Sys.start s [(some L₁, false), (some L₂, false)]).run [0, 1, 0, 1, 0, 1] = some s' ∧
      Reachable (Sys.start s [(some L₁, false), (some L₂, false)]) s' ∧
      s'.threads.map (·.pc) = [.done none, .done none] ∧
      s'.linter.lintNames.count L₁.name = 2 ∧ ¬ s'.linter.Inv := by
  obtain ⟨li₁, hli₁⟩ := Option.isSome_iff_exists.1 h₁
  obtain ⟨li₂, hli₂⟩ := Option.isSome_iff_exists.1 h₂
  have hb : s.byName L₁.name = none := by simpa using mt hs.byName_isSome.1 hn
  have hc₁ : s.registerCheck (some L₁) = .ok (L₁, li₁) :=
    LinterImpl.registerCheck_eq_ok.2 ⟨rfl, hli₁, he, hb⟩
  have hc₂ : s.registerCheck (some L₂) = .ok (L₂, li₂) :=
    LinterImpl.registerCheck_eq_ok.2 ⟨rfl, hli₂, hname ▸ he, hname ▸ hb⟩
  have hrun : (Sys.start s [(some L₁, false), (some L₂, false)]).run [0, 1, 0, 1, 0, 1] =
      some ⟨(s.registerWrite L₁).registerWrite L₂,
        [⟨some L₁, false, .done none⟩, ⟨some L₂, false, .done none⟩]⟩ := by
    simp [Sys.run, Sys.step, Sys.start, Goroutine.step, hc₁, hc₂]
  have hcount : ((s.registerWrite L₁).registerWrite L₂).lintNames.count L₁.name = 2 := by
    simp only [LinterImpl.registerWrite, (sortStrings_perm _).count_eq, List.count_append,
      List.count_eq_zero_of_not_mem hn, hname, List.count_singleton_self]
  refine ⟨_, hrun, Reachable.refl.run hrun, rfl, hcount, fun hi => ?_⟩
  have hmem : L₁.name ∈ ((s.registerWrite L₁).registerWrite L₂).lintNames :=
    List.count_pos_iff.1 (by omega)
  have := List.count_eq_one_of_mem hi.nodup hmem
  rw [hcount] at this
  cases this

theorem register_race_registers_twice_e_a :
    ∃ s', (Sys.start (newLinter : LinterImpl Unit String)
        [(some ⟨"e_a", "CABF_BR", some ⟨none⟩, fun _ => .ok none⟩, false),
          (some ⟨"e_a", "RFC5280", some ⟨none⟩, fun _ => .ok none⟩, false)]).run
        [0, 1, 0, 1, 0, 1] = some s' ∧
      Reachable (Sys.start (newLinter : LinterImpl Unit String)
        [(some ⟨"e_a", "CABF_BR", some ⟨none⟩, fun _ => .ok none⟩, false),
          (some ⟨"e_a", "RFC5280", some ⟨none⟩, fun _ => .ok none⟩, false)]) s' ∧
      s'.threads.map (·.pc) = [.done none, .done none] ∧
      s'.linter.lintNames.count "e_a" = 2 ∧ ¬ s'.linter.Inv :=
  register_race_registers_twice LinterImpl.inv_newLinter rfl rfl rfl (by decide) (List.not_mem_nil _)

/-! ## Calls of distinct names -/

omit [DecidableEq Src] in
theorem DistinctNames.ne {ls : List (Option (Lint Cert Src))} (hd : DistinctNames ls) {i j : Nat}
    (hij : i ≠ j) {L L' : Lint Cert Src} (hi : ls[i]? = some (some L)) (hj : ls[j]? = some (some L')) :
    L.name ≠ L'.name := by
  obtain ⟨hi', hL⟩ := List.getElem?_eq_some_iff.1 hi
  obtain ⟨hj', hL'⟩ := List.getElem?_eq_some_iff.1 hj
  rcases Nat.lt_or_gt_of_ne hij with h | h
  · exact List.pairwise_iff_getElem.1 hd i j hi' hj' h L (by rw [hL]; rfl) L' (by rw [hL']; rfl)
  · exact (List.pairwise_iff_getElem.1 hd j i hj' hi' h L' (by rw [hL']; rfl) L (by rw [hL]; rfl)).symm

theorem Goroutine.inv_registerWrite {linter : LinterImpl Cert Src} {g : Goroutine Cert Src}
    {L : Lint Cert Src} (hg : g.Inv linter) (hne : ∀ l, g.lint = some l → l.name ≠ L.name) :
    g.Inv (linter.registerWrite L) := by
  have hnames : ∀ n, n ≠ L.name → n ∉ linter.lintNames → n ∉ (linter.registerWrite L).lintNames :=
    fun n h hn => by simp [LinterImpl.registerWrite, hn, h]
  rcases hpc : g.pc with _ | ⟨l, li⟩ | l | _ | e <;> simp only [Goroutine.Inv, hpc] at hg ⊢
  · exact ⟨hg.1, hg.2.1, hg.2.2.1, hnames _ (hne l hg.1) hg.2.2.2⟩
  · exact ⟨hg.1, hg.2.1, hg.2.2.1, hnames _ (hne l hg.1) hg.2.2.2⟩
  · obtain ⟨l, hl, hb⟩ := hg
    exact ⟨l, hl, by rw [LinterImpl.byName_registerWrite, if_neg (hne l hl), hb]⟩

theorem forall_getElem?_set {α : Type} {l : List α} {i : Nat} {a : α} {P : Nat → α → Prop}
    (ha : P i a) (hl : ∀ j b, j ≠ i → l[j]? = some b → P j b) :
    ∀ j b, (l.set i a)[j]? = some b → P j b := by
  intro j b h
  rw [List.getElem?_set] at h
  split_ifs at h with h₁ h₂
  · subst h₁; cases h; exact ha
  · exact hl j b (Ne.symm h₁) h

theorem Sys.Inv.step {s s' : Sys Cert Src} (hi : s.Inv) {i : Nat} (h : s.step i = some s') :
    s'.Inv := by
  obtain ⟨g, pc, hg, hstep, hs'⟩ := Sys.step_eq_some h
  have hd : DistinctNames (s'.threads.map (·.lint)) := (Sys.calls_step h).symm ▸ hi.distinct
  have hgi := hi.threads i g hg
  -- a step that leaves the linter as it was only has to keep the goroutine's own invariant
  have hkeep (hl : s'.linter = s.linter) (hg' : Goroutine.Inv s.linter { g with pc := pc }) :
      s'.Inv :=
    ⟨hl ▸ hi.linter, by rw [hs', hl]; exact forall_getElem?_set hg' fun j b _ => hi.threads j b, hd⟩
  rcases Goroutine.step_cases hstep with
    ⟨hl, e, rfl⟩ | ⟨hl, l, li, rfl, hc⟩ | ⟨hl, l, li, hpc, rfl⟩ | ⟨l, hpc, hl, rfl⟩
  · exact hkeep hl trivial
  · obtain ⟨hgl, hli, he, hb⟩ := LinterImpl.registerCheck_eq_ok.1 hc
    exact hkeep hl ⟨hgl, by simp [hli], he, fun hn => by
      simpa [hb] using hi.linter.byName_isSome.2 hn⟩
  · simp only [Goroutine.Inv, hpc] at hgi
    exact hkeep hl hgi
  · simp only [Goroutine.Inv, hpc] at hgi
    obtain ⟨hgl, hli, he, hn⟩ := hgi
    refine ⟨hl ▸ LinterImpl.inv_registerWrite hi.linter hn he hli, ?_, hd⟩
    rw [hs', hl]
    refine forall_getElem?_set ⟨l, hgl, by rw [LinterImpl.byName_registerWrite, if_pos rfl]⟩
      fun j b hj hb => Goroutine.inv_registerWrite (hi.threads j b hb) fun l' hl' =>
        (hi.distinct.ne hj (by simp [hb, hl']) (by simp [hg, hgl]))

theorem Sys.Inv.reachable {s₀ s : Sys Cert Src} (h₀ : s₀.Inv) (hr : Reachable s₀ s) : s.Inv := by
  induction hr with
  | refl => exact h₀
  | step i _ h ih => exact ih.step h

theorem Sys.inv_start {linter : LinterImpl Cert Src} (hs : linter.Inv)
    {calls : List (Option (Lint Cert Src) × Bool)} (hd : DistinctNames (calls.map Prod.fst)) :
    (Sys.start linter calls).Inv where
  linter := hs
  threads i g h := by
    simp only [Sys.start, List.getElem?_map, Option.map_eq_some'] at h
    obtain ⟨c, -, rfl⟩ := h
    trivial
  distinct := by simpa [Sys.start, Function.comp_def] using hd

/-- Concurrent calls of distinct names keep the registry invariant in every interleaving, and
each call that has returned nil has its lint registered: no write is lost. -/
theorem register_concurrent_distinct {s : LinterImpl Cert Src} (hs : s.Inv)
    {calls : List (Option (Lint Cert Src) × Bool)} (hd : DistinctNames (calls.map Prod.fst))
    {s' : Sys Cert Src} (hr : Reachable (Sys.start s calls) s') :
    s'.linter.Inv ∧
      ∀ g ∈ s'.threads, g.pc = .done none → ∃ L, g.lint = some L ∧ s'.linter.byName L.name = some L := by
  have hi := (Sys.inv_start hs hd).reachable hr
  refine ⟨hi.linter, fun g hg hpc => ?_⟩
  obtain ⟨i, hgi⟩ := List.mem_iff_getElem?.1 hg
  have := hi.threads i g hgi
  simpa only [Goroutine.Inv, hpc] using this

theorem register_concurrent_distinct_interleaved :
    ∃ s', (Sys.start (newLinter : LinterImpl Unit String)
        [(some ⟨"e_a", "CABF_BR", some ⟨none⟩, fun _ => .ok none⟩, false),
          (some ⟨"e_b", "RFC5280", some ⟨none⟩, fun _ => .ok none⟩, true)]).run
        [0, 1, 0, 1, 0, 1] = some s' ∧
      s'.linter.Inv ∧ ∀ g ∈ s'.threads, g.pc = .done none →
        ∃ L, g.lint = some L ∧ s'.linter.byName L.name = some L := by
  have hrun : (Sys.start (newLinter : LinterImpl Unit String)
      [(some ⟨"e_a", "CABF_BR", some ⟨none⟩, fun _ => .ok none⟩, false),
        (some ⟨"e_b", "RFC5280", some ⟨none⟩, fun _ => .ok none⟩, true)]).run [0, 1, 0, 1, 0, 1] =
      some ⟨(newLinter.registerWrite ⟨"e_a", "CABF_BR", some ⟨none⟩, fun _ => .ok none⟩).registerWrite
          ⟨"e_b", "RFC5280", some ⟨none⟩, fun _ => .ok none⟩,
        [⟨some ⟨"e_a", "CABF_BR", some ⟨none⟩, fun _ => .ok none⟩, false, .done none⟩,
          ⟨some ⟨"e_b", "RFC5280", some ⟨none⟩, fun _ => .ok none⟩, true, .done none⟩]⟩ := by
    simp [Sys.run, Sys.step, Sys.start, Goroutine.step, LinterImpl.registerCheck]
  exact ⟨_, hrun, register_concurrent_distinct LinterImpl.inv_newLinter (by simp [DistinctNames])
    (Reachable.refl.run hrun)⟩

end Zlint
