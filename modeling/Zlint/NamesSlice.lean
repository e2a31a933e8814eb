import Zlint.Concurrent

/-!
# `Names()` hands out the registry's own slice

`Names()` returns `lintNames` itself under the read lock, not a copy, and `Lint`, `Filter` and
`WriteJSON` range over it after the lock is released. `register` appends to the same slice and
sorts it in place under the write lock. When the append fits in the slice's capacity, the array
a range is reading is the one the sort rewrites, so a range that runs while a lint registers can
visit a name twice and miss a name that was registered before it began.

A slice is its backing array, its length and its capacity, and the arrays are a heap. The
goroutines that call `register` take the steps of `Concurrent.lean`; the step of the write block
also appends to the slice and sorts it. A range over `Names()` is one more goroutine: the call of
`Names()` is one step, and so is each element it reads.

The write block is one step here, so the schedules are those in which no read of the range falls
inside it. In Go a read that does is a data race with the swaps of `sort.Strings` and may see a
torn string; nothing below is about such reads.
-/

namespace Zlint

/-- A Go slice of strings: the index of its backing array in the heap, its length and its
capacity. -/
structure Slice where
  array : Nat
  len : Nat
  cap : Nat
  deriving DecidableEq

def arrayAt (heap : List (List String)) (a : Nat) : List String := heap.getD a []

@[simp] theorem arrayAt_set_self {heap : List (List String)} {a : Nat} (h : a < heap.length)
    (arr : List String) : arrayAt (heap.set a arr) a = arr := by
  simp [arrayAt, List.getElem?_set_self h]

theorem arrayAt_set_ne {heap : List (List String)} {a b : Nat} (h : b ≠ a) (arr : List String) :
    arrayAt (heap.set a arr) b = arrayAt heap b := by
  simp [arrayAt, List.getElem?_set_ne (Ne.symm h)]

theorem arrayAt_append_lt {heap : List (List String)} {b : Nat} (h : b < heap.length)
    (arr : List String) : arrayAt (heap ++ [arr]) b = arrayAt heap b := by
  simp [arrayAt, List.getElem?_append_left h]

@[simp] theorem arrayAt_append_length (heap : List (List String)) (arr : List String) :
    arrayAt (heap ++ [arr]) heap.length = arr := by
  simp [arrayAt]

namespace Slice

/-- The elements a slice shows: the first `len` of its backing array. -/
def view (heap : List (List String)) (s : Slice) : List String :=
  (arrayAt heap s.array).take s.len

/-- `append(s, x)`. Below the capacity it writes `x` into the backing array; at the capacity it
copies the elements into a new array of capacity `grow s.cap`, the choice of `growslice`, whose
other elements are `""`. -/
def append (grow : Nat → Nat) (heap : List (List String)) (s : Slice) (x : String) :
    List (List String) × Slice :=
  if s.len < s.cap then
    (heap.set s.array ((arrayAt heap s.array).set s.len x), { s with len := s.len + 1 })
  else
    (heap ++ [s.view heap ++ x :: List.replicate (grow s.cap - (s.len + 1)) ""],
      ⟨heap.length, s.len + 1, grow s.cap⟩)

/-- `sort.Strings(s)`: the slice's elements sorted, in their backing array. -/
def sort (heap : List (List String)) (s : Slice) : List (List String) :=
  heap.set s.array (sortStrings (s.view heap) ++ (arrayAt heap s.array).drop s.len)

/-- `growslice`'s capacity for a slice of strings below 256 elements (1024 before Go 1.18): twice
the old capacity, or one for a slice with none. Sixteen-byte elements fill a size class exactly at each power of two,
so the allocator rounds nothing up. -/
def goGrow (c : Nat) : Nat := if c = 0 then 1 else 2 * c

/-- A slice points into the heap, its array holds `cap` elements, and it shows at most that many. -/
structure WF (heap : List (List String)) (s : Slice) : Prop where
  array_lt : s.array < heap.length
  length_eq : (arrayAt heap s.array).length = s.cap
  len_le : s.len ≤ s.cap

theorem length_view {heap : List (List String)} {s : Slice} (h : s.WF heap) :
    (s.view heap).length = s.len := by
  simp [view, h.length_eq, h.len_le]

theorem append_spec {grow : Nat → Nat} (hgrow : ∀ c, c < grow c) {heap : List (List String)}
    {s : Slice} (h : s.WF heap) (x : String) :
    (s.append grow heap x).2.view (s.append grow heap x).1 = s.view heap ++ [x] ∧
      (s.append grow heap x).2.WF (s.append grow heap x).1 := by
  have hv := length_view h
  have hl := h.length_eq
  unfold append
  split_ifs with hlt
  · refine ⟨?_, ⟨by simpa using h.array_lt, by simp [h.array_lt, hl], hlt⟩⟩
    simp only [view, arrayAt_set_self h.array_lt]
    rw [List.set_eq_take_append_cons_drop, if_pos (by omega), List.take_append_eq_append_take]
    simp [List.take_take, hl, Nat.le_of_lt hlt]
  · have hg := hgrow s.cap
    have := h.len_le
    refine ⟨?_, ⟨by simp, by simp [hv]; omega, by simp; omega⟩⟩
    simp only [view, arrayAt_append_length]
    rw [List.take_append_eq_append_take]
    simp [List.take_take, hl, this]

theorem sort_spec {heap : List (List String)} {s : Slice} (h : s.WF heap) :
    s.view (s.sort heap) = sortStrings (s.view heap) ∧ s.WF (s.sort heap) := by
  have hv := length_view h
  have hs : (sortStrings (s.view heap)).length = s.len := by rw [(sortStrings_perm _).length_eq, hv]
  have := h.len_le
  refine ⟨?_, ⟨by simpa [sort] using h.array_lt, ?_, h.len_le⟩⟩
  · rw [view, sort, arrayAt_set_self h.array_lt, List.take_append_of_le_length (by omega),
      List.take_of_length_le (by omega)]
  · rw [sort, arrayAt_set_self h.array_lt, List.length_append, hs, List.length_drop, h.length_eq]
    omega

theorem WF.of_arrayAt {heap heap' : List (List String)} {s : Slice} (h : s.WF heap)
    (hl : heap.length ≤ heap'.length)
    (ha : (arrayAt heap' s.array).length = (arrayAt heap s.array).length) : s.WF heap' :=
  ⟨by have := h.array_lt; omega, ha ▸ h.length_eq, h.len_le⟩

theorem getElem?_view {heap : List (List String)} {s : Slice} (h : s.WF heap) {k : Nat}
    (hk : k < s.len) : (s.view heap)[k]? = some ((arrayAt heap s.array).getD k "") := by
  have hl : k < (arrayAt heap s.array).length := by have := h.len_le; rw [h.length_eq]; omega
  rw [view, List.getElem?_take_of_lt hk, List.getD_eq_getElem?_getD, List.getElem?_eq_getElem hl,
    Option.getD_some]

theorem drop_view_eq_cons {heap : List (List String)} {s : Slice} (h : s.WF heap) {k : Nat}
    (hk : k < s.len) :
    (s.view heap).drop k = (arrayAt heap s.array).getD k "" :: (s.view heap).drop (k + 1) := by
  have hl : k < (s.view heap).length := by rw [length_view h]; exact hk
  rw [List.drop_eq_getElem_cons hl,
    Option.some.inj ((List.getElem?_eq_getElem hl).symm.trans (getElem?_view h hk))]

theorem lt_goGrow (c : Nat) : c < goGrow c := by
  unfold goGrow
  split_ifs <;> omega

/-- The two lines of `register`'s write block on `lintNames`: `append` the name, then
`sort.Strings`. -/
def appendSort (grow : Nat → Nat) (heap : List (List String)) (s : Slice) (x : String) :
    List (List String) × Slice :=
  let p := s.append grow heap x
  (p.2.sort p.1, p.2)

variable {grow : Nat → Nat} {heap : List (List String)} {s : Slice}

theorem appendSort_spec (hgrow : ∀ c, c < grow c) (h : s.WF heap) (x : String) :
    (s.appendSort grow heap x).2.view (s.appendSort grow heap x).1 = sortStrings (s.view heap ++ [x]) ∧
      (s.appendSort grow heap x).2.WF (s.appendSort grow heap x).1 := by
  obtain ⟨hv, hw⟩ := append_spec hgrow h x
  exact ⟨by rw [appendSort, (sort_spec hw).1, hv], (sort_spec hw).2⟩

/-- The write block touches no array but the slice's own, and that one only when the append
fits; the slice it leaves points elsewhere. -/
theorem appendSort_frame {b : Nat} (hb : b < heap.length) (hne : b ≠ s.array ∨ s.cap ≤ s.len)
    (x : String) :
    arrayAt (s.appendSort grow heap x).1 b = arrayAt heap b ∧ (s.appendSort grow heap x).2.array ≠ b ∧
      heap.length ≤ (s.appendSort grow heap x).1.length := by
  unfold appendSort append sort
  split_ifs with hlt
  · have hne : b ≠ s.array := hne.resolve_right (by omega)
    simp only [List.length_set, le_refl, and_true]
    exact ⟨by rw [arrayAt_set_ne hne, arrayAt_set_ne hne], Ne.symm hne⟩
  · have hne : b ≠ heap.length := by omega
    simp only [List.length_set, List.length_append, List.length_singleton]
    exact ⟨by rw [arrayAt_set_ne hne, arrayAt_append_lt hb], Ne.symm hne, by omega⟩

theorem appendSort_in_place (hgrow : ∀ c, c < grow c) (h : s.WF heap) (hlt : s.len < s.cap)
    (x : String) :
    arrayAt (s.appendSort grow heap x).1 s.array =
        sortStrings (s.view heap ++ [x]) ++ (arrayAt heap s.array).drop (s.len + 1) ∧
      (s.appendSort grow heap x).2 = { s with len := s.len + 1 } ∧
      (s.appendSort grow heap x).1.length = heap.length := by
  have hv := (append_spec hgrow h x).1
  simp only [append, if_pos hlt] at hv
  simp only [appendSort, append, if_pos hlt, sort, List.length_set, and_true, true_and]
  rw [arrayAt_set_self (by simpa using h.array_lt), hv, arrayAt_set_self h.array_lt,
    List.drop_set_of_lt _ _ (Nat.lt_succ_self _)]

end Slice

/-! ## A range over `Names()` while lints register -/

/-- Where a goroutine ranging over `Names()` is: before the call, reading the slice the call
returned with the names read so far, or past the last element. -/
inductive Ranging where
  | start
  | ranging (names : Slice) (visited : List String)
  | done (visited : List String)
  deriving DecidableEq

def Ranging.visited : Ranging → List String
  | .start => []
  | .ranging _ visited | .done visited => visited

/-- The slice a range got, against the registry's slice `w`: it points into the heap and, on
`w`'s array, reaches no further than `w`. -/
def Ranging.Ok (heap : List (List String)) (w : Slice) : Ranging → Prop
  | .ranging s _ => s.WF heap ∧ (s.array = w.array → s.len ≤ w.len)
  | _ => True

theorem Ranging.Ok.appendSort {grow : Nat → Nat} (hgrow : ∀ c, c < grow c)
    {heap : List (List String)} {w : Slice} {r : Ranging} (hw : w.WF heap) (ho : r.Ok heap w)
    (x : String) : r.Ok (w.appendSort grow heap x).1 (w.appendSort grow heap x).2 := by
  cases r with
  | start | done => trivial
  | ranging s visited =>
    obtain ⟨hs, hsame⟩ := ho
    by_cases hin : s.array = w.array ∧ w.len < w.cap
    · -- the append writes into the range's own array
      obtain ⟨harr, hlt, hlen⟩ := Slice.appendSort_in_place hgrow hw hin.2 x
      have hsorted : (sortStrings (w.view heap ++ [x])).length = w.len + 1 := by
        rw [(sortStrings_perm _).length_eq, List.length_append, Slice.length_view hw,
          List.length_singleton]
      refine ⟨hs.of_arrayAt hlen.ge ?_, fun _ => by have := hsame hin.1; simp only [hlt]; omega⟩
      have := hw.len_le
      rw [hin.1, harr, List.length_append, List.length_drop, hsorted, hw.length_eq]
      omega
    · -- it writes another array, or copies into a new one
      obtain ⟨harr, hne, hlen⟩ := Slice.appendSort_frame (s := w) hs.array_lt (by omega) x
      exact ⟨hs.of_arrayAt hlen (by rw [harr]), fun h => absurd h.symm hne⟩

/-- What a range that got the slice `s` over the array `arr` has read while that array keeps its
elements: the first names of the slice, and all of them once it is done. -/
def Ranging.Snapshot (heap : List (List String)) (arr : List String) (s : Slice) : Ranging → Prop
  | .start => False
  | .ranging s' visited => s' = s ∧ arrayAt heap s.array = arr ∧
      visited = arr.take visited.length ∧ visited.length ≤ s.len
  | .done visited => visited = arr.take s.len

variable {Cert Src : Type}

/-- What every interleaving of `register` calls keeps of a linter, calls of one name included:
`lintNames` is sorted. -/
structure LinterImpl.NamesOk (l : LinterImpl Cert Src) : Prop where
  sorted : l.lintNames.Sorted (· ≤ ·)

theorem LinterImpl.lintNames_newLinter : (newLinter : LinterImpl Cert Src).lintNames = [] := rfl

section NamesOk

variable [DecidableEq Src]

theorem LinterImpl.Inv.namesOk {l : LinterImpl Cert Src} (h : l.Inv) : l.NamesOk :=
  ⟨h.sorted.le_of_lt⟩

theorem LinterImpl.lintNames_registerWrite (l : LinterImpl Cert Src) (L : Lint Cert Src) :
    (l.registerWrite L).lintNames = sortStrings (l.lintNames ++ [L.name]) := rfl

theorem Sys.namesOk_step {s s' : Sys Cert Src} {i : Nat} (h : s.step i = some s')
    (hs : s.linter.NamesOk) : s'.linter.NamesOk := by
  obtain ⟨g, pc, -, hg, -⟩ := Sys.step_eq_some h
  rcases Goroutine.step_cases hg with ⟨h1, -⟩ | ⟨h1, -⟩ | ⟨h1, -⟩ | ⟨l, -, h1, -⟩ <;> rw [h1]
  iterate 3 exact hs
  exact ⟨sortStrings_sorted _⟩

theorem Sys.namesOk_run : ∀ {s s' : Sys Cert Src} (is : List Nat), s.run is = some s' →
    s.linter.NamesOk → s'.linter.NamesOk
  | _, _, [], h, hs => by cases h; exact hs
  | _, _, _ :: is, h, hs => by
    obtain ⟨s₁, h₁, h₂⟩ := Option.bind_eq_some.1 h
    exact Sys.namesOk_run is h₂ (Sys.namesOk_step h₁ hs)

end NamesOk

/-- The goroutines calling `register` on a linter, `lintNames` as a slice in a heap of arrays,
and a goroutine ranging over `Names()`. The linter's own `lintNames` is the list the slice
shows (`NamesSys.Inv`). -/
structure NamesSys (Cert Src : Type) where
  sys : Sys Cert Src
  heap : List (List String)
  lintNames : Slice
  reader : Ranging

namespace NamesSys

/-- The calls, none of them started, on `linter`, whose names fill one array exactly, and the
range not started. -/
def start (linter : LinterImpl Cert Src) (calls : List (Option (Lint Cert Src) × Bool)) :
    NamesSys Cert Src :=
  ⟨Sys.start linter calls, [linter.lintNames],
    ⟨0, linter.lintNames.length, linter.lintNames.length⟩, .start⟩

/-- A step: the range calls `Names()`, the range reads one element, or goroutine `i` calling
`register` takes a step. -/
inductive Act where
  | names
  | read
  | register (i : Nat)
  deriving DecidableEq

/-- The slice after a step of goroutine `g`: its write block appends the name and sorts; its
other steps leave the slice. -/
def writeNames (grow : Nat → Nat) (heap : List (List String)) (w : Slice) (g : Goroutine Cert Src) :
    List (List String) × Slice :=
  match g.pc with
  | .ready l => w.appendSort grow heap l.name
  | _ => (heap, w)

variable [DecidableEq Src] (grow : Nat → Nat)

/-- One atomic step. `Names()` copies the slice header under the read lock; the range then
reads `len` elements of its array, one a step, with no lock. The write block of `register` is
one step. -/
def step (st : NamesSys Cert Src) : Act → Option (NamesSys Cert Src)
  | .names =>
    match st.reader with
    | .start => some { st with reader := .ranging st.lintNames [] }
    | _ => none
  | .read =>
    match st.reader with
    | .ranging s visited =>
      some { st with
        reader := if visited.length < s.len then
          .ranging s (visited ++ [(arrayAt st.heap s.array).getD visited.length ""])
          else .done visited }
    | _ => none
  | .register i =>
    match st.sys.threads[i]? with
    | none => none
    | some g => (st.sys.step i).map fun sys =>
      let p := writeNames grow st.heap st.lintNames g
      { st with sys := sys, heap := p.1, lintNames := p.2 }

def run (st : NamesSys Cert Src) : List Act → Option (NamesSys Cert Src)
  | [] => some st
  | a :: as => (st.step grow a).bind (·.run as)

def registers : List Act → List Nat
  | [] => []
  | .register i :: as => i :: registers as
  | _ :: as => registers as

/-! ### What a step does -/

variable {grow}

theorem register_step_cases {sys sys' : Sys Cert Src} {i : Nat} {g : Goroutine Cert Src}
    (hg : sys.threads[i]? = some g) (h : sys.step i = some sys') :
    (∃ l, g.pc = .ready l ∧ sys'.linter = sys.linter.registerWrite l) ∨
      ((∀ l, g.pc ≠ .ready l) ∧ sys'.linter = sys.linter) := by
  obtain ⟨g', pc, hg', hs, -⟩ := Sys.step_eq_some h
  obtain rfl : g' = g := Option.some.inj (hg'.symm.trans hg)
  by_cases hr : ∃ l, g'.pc = .ready l
  · obtain ⟨l, hl⟩ := hr
    simp only [Goroutine.step, hl, Option.some.injEq, Prod.mk.injEq] at hs
    exact .inl ⟨l, hl, hs.1.symm⟩
  · push_neg at hr
    rcases Goroutine.step_cases hs with ⟨h1, -⟩ | ⟨h1, -⟩ | ⟨h1, -⟩ | ⟨l, hl, -, -⟩
    iterate 3 exact .inr ⟨hr, h1⟩
    exact absurd hl (hr l)

omit [DecidableEq Src] in
theorem writeNames_of_ne {heap : List (List String)} {w : Slice} {g : Goroutine Cert Src}
    (h : ∀ l, g.pc ≠ .ready l) : writeNames grow heap w g = (heap, w) := by
  unfold writeNames
  split
  · exact absurd ‹_› (h _)
  · rfl

/-- What one step does, one constructor a kind of step. -/
inductive Moves (grow : Nat → Nat) : NamesSys Cert Src → Act → NamesSys Cert Src → Prop
  | names {st : NamesSys Cert Src} : st.reader = .start →
      Moves grow st .names { st with reader := .ranging st.lintNames [] }
  | read {st : NamesSys Cert Src} {s : Slice} {visited : List String} :
      st.reader = .ranging s visited → visited.length < s.len →
      Moves grow st .read { st with
        reader := .ranging s (visited ++ [(arrayAt st.heap s.array).getD visited.length ""]) }
  | readDone {st : NamesSys Cert Src} {s : Slice} {visited : List String} :
      st.reader = .ranging s visited → s.len ≤ visited.length →
      Moves grow st .read { st with reader := .done visited }
  | check {st : NamesSys Cert Src} {i : Nat} {g : Goroutine Cert Src} {sys : Sys Cert Src} :
      st.sys.threads[i]? = some g → st.sys.step i = some sys → (∀ l, g.pc ≠ .ready l) →
      sys.linter = st.sys.linter → Moves grow st (.register i) { st with sys := sys }
  | write {st : NamesSys Cert Src} {i : Nat} {g : Goroutine Cert Src} {sys : Sys Cert Src}
      {l : Lint Cert Src} :
      st.sys.threads[i]? = some g → st.sys.step i = some sys → g.pc = .ready l →
      sys.linter = st.sys.linter.registerWrite l →
      Moves grow st (.register i) { st with
        sys := sys
        heap := (st.lintNames.appendSort grow st.heap l.name).1
        lintNames := (st.lintNames.appendSort grow st.heap l.name).2 }

theorem moves_of_step {st st' : NamesSys Cert Src} {a : Act} (h : st.step grow a = some st') :
    Moves grow st a st' := by
  cases a with
  | names =>
    simp only [step] at h
    split at h
    · cases h; exact .names ‹_›
    · cases h
  | read =>
    simp only [step] at h
    split at h
    · cases h
      split_ifs with hlt
      · exact .read ‹_› hlt
      · exact .readDone ‹_› (by omega)
    · cases h
  | register i =>
    simp only [step] at h
    split at h
    · cases h
    · rename_i g hg
      obtain ⟨sys, hs, rfl⟩ := Option.map_eq_some'.1 h
      rcases register_step_cases hg hs with ⟨l, hl, hw⟩ | ⟨hl, hw⟩
      · simp only [writeNames, hl]
        exact .write hg hs hl hw
      · simp only [writeNames_of_ne hl]
        exact .check hg hs hl hw

/-! ### The slice shows `lintNames` -/

/-- The invariant: the registry's slice is well formed and shows the linter's `lintNames`, and
the slice the range got is well formed. -/
structure Inv (st : NamesSys Cert Src) : Prop where
  wf : st.lintNames.WF st.heap
  view : st.lintNames.view st.heap = st.sys.linter.lintNames
  reader : st.reader.Ok st.heap st.lintNames

omit [DecidableEq Src] in
theorem inv_start (linter : LinterImpl Cert Src) (calls : List (Option (Lint Cert Src) × Bool)) :
    (start linter calls).Inv where
  wf := ⟨by simp [start], by simp [start, arrayAt], le_rfl⟩
  view := by simp [start, Slice.view, arrayAt, Sys.start]
  reader := trivial

theorem Inv.step (hgrow : ∀ c, c < grow c) {st st' : NamesSys Cert Src} {a : Act} (hi : st.Inv)
    (h : st.step grow a = some st') : st'.Inv := by
  cases moves_of_step h with
  | names hr => exact ⟨hi.wf, hi.view, hi.wf, fun _ => le_rfl⟩
  | read hr _ =>
    obtain ⟨hs, hsame⟩ : Ranging.Ok _ _ (.ranging _ _) := hr ▸ hi.reader
    exact ⟨hi.wf, hi.view, hs, hsame⟩
  | readDone => exact ⟨hi.wf, hi.view, trivial⟩
  | check _ _ _ hl => exact ⟨hi.wf, hl ▸ hi.view, hi.reader⟩
  | write _ _ _ hl =>
    obtain ⟨hv, hw⟩ := Slice.appendSort_spec hgrow hi.wf _
    refine ⟨hw, by rw [hl, hv, hi.view]; rfl, hi.reader.appendSort hgrow hi.wf _⟩

theorem Inv.run (hgrow : ∀ c, c < grow c) :
    ∀ {st st' : NamesSys Cert Src} (sched : List Act), st.Inv → st.run grow sched = some st' →
      st'.Inv
  | _, _, [], hi, h => by cases h; exact hi
  | _, _, _ :: as, hi, h => by
    obtain ⟨st₁, h₁, h₂⟩ := Option.bind_eq_some.1 h
    exact Inv.run hgrow as (hi.step hgrow h₁) h₂

theorem run_sys : ∀ {st st' : NamesSys Cert Src} (sched : List Act),
    st.run grow sched = some st' → st.sys.run (registers sched) = some st'.sys
  | _, _, [], h => by cases h; rfl
  | _, _, _ :: as, h => by
    obtain ⟨st₁, h₁, h₂⟩ := Option.bind_eq_some.1 h
    have ih := run_sys as h₂
    cases moves_of_step h₁ with
    | names _ | read _ _ | readDone _ _ => exact ih
    | check _ hs _ _ | write _ hs _ _ =>
      simp only [registers, Sys.run, hs, Option.some_bind]
      exact ih

theorem run_append (st : NamesSys Cert Src) (as bs : List Act) :
    st.run grow (as ++ bs) = (st.run grow as).bind (·.run grow bs) := by
  induction as generalizing st with
  | nil => rfl
  | cons a as ih =>
    simp only [List.cons_append, run]
    cases st.step grow a <;> simp [ih]

theorem run_read_rest {st : NamesSys Cert Src} {s : Slice} {visited : List String} (k : Nat)
    (hr : st.reader = .ranging s visited) (hk : visited.length + k = s.len) (hs : s.WF st.heap) :
    st.run grow (List.replicate (k + 1) .read) =
      some { st with reader := .done (visited ++ (s.view st.heap).drop visited.length) } := by
  induction k generalizing st visited with
  | zero =>
    have hd : (s.view st.heap).drop visited.length = [] :=
      List.drop_eq_nil_of_le (by rw [Slice.length_view hs]; omega)
    simp [run, step, hr, hd, ← hk]
  | succ k ih =>
    have hlt : visited.length < s.len := by omega
    have hrest := @ih { st with
      reader := .ranging s (visited ++ [(arrayAt st.heap s.array).getD visited.length ""]) }
      (visited ++ [(arrayAt st.heap s.array).getD visited.length ""]) rfl
      (by simp only [List.length_append, List.length_singleton]; omega) hs
    rw [List.replicate_succ, run, step, hr]
    simp only [if_pos hlt, Option.some_bind]
    rw [hrest]
    simp [Slice.drop_view_eq_cons hs hlt]

/-- A range that got a full slice keeps reading the names it got: every append the registry
makes to that array copies it into a new one, so nothing writes the range's array again. -/
theorem snapshot_step {s : Slice} {arr : List String} (hfull : s.len = s.cap)
    {st st' : NamesSys Cert Src} {a : Act} (hi : st.Inv) (hsn : st.reader.Snapshot st.heap arr s)
    (h : st.step grow a = some st') : st'.reader.Snapshot st'.heap arr s := by
  cases moves_of_step h with
  | names hr => exact False.elim (hr ▸ hsn : Ranging.Snapshot _ _ _ .start)
  | @read s' visited hr hlt =>
    obtain ⟨rfl, harr, hvis, -⟩ : Ranging.Snapshot _ _ _ (.ranging _ _) := hr ▸ hsn
    obtain ⟨hs, -⟩ : Ranging.Ok _ _ (.ranging _ _) := hr ▸ hi.reader
    have hl : visited.length < arr.length := by
      have := hs.len_le
      rw [← harr, hs.length_eq]
      omega
    refine ⟨rfl, harr, ?_, by simp only [List.length_append, List.length_singleton]; omega⟩
    rw [harr, List.length_append, List.length_singleton, List.take_succ, ← hvis,
      List.getD_eq_getElem?_getD, List.getElem?_eq_getElem hl]
    rfl
  | @readDone s' visited hr hle =>
    obtain ⟨rfl, -, hvis, hle'⟩ : Ranging.Snapshot _ _ _ (.ranging _ _) := hr ▸ hsn
    show visited = arr.take s'.len
    rw [← Nat.le_antisymm hle' hle]
    exact hvis
  | check => exact hsn
  | write _ _ _ _ =>
    show Ranging.Snapshot _ arr s st.reader
    have hok := hi.reader
    cases hr : st.reader with
    | start => exact False.elim (hr ▸ hsn : Ranging.Snapshot _ _ _ .start)
    | done v => exact (hr ▸ hsn : Ranging.Snapshot _ _ _ (.done v))
    | ranging s' visited =>
      obtain ⟨rfl, harr, hvis, hle⟩ : Ranging.Snapshot _ _ _ (.ranging _ _) := hr ▸ hsn
      obtain ⟨hs, hsame⟩ : Ranging.Ok _ _ (.ranging _ _) := hr ▸ hok
      have hne : s'.array ≠ st.lintNames.array ∨ st.lintNames.cap ≤ st.lintNames.len := by
        by_cases heq : s'.array = st.lintNames.array
        · have := hsame heq
          have := hi.wf.len_le
          have hc : st.lintNames.cap = s'.cap := by rw [← hi.wf.length_eq, ← heq, hs.length_eq]
          omega
        · exact .inl heq
      obtain ⟨harr', -, -⟩ := Slice.appendSort_frame hs.array_lt hne _
      exact ⟨rfl, harr'.trans harr, hvis, hle⟩

theorem snapshot_run (hgrow : ∀ c, c < grow c) {s : Slice} {arr : List String}
    (hfull : s.len = s.cap) : ∀ {st st' : NamesSys Cert Src} (sched : List Act), st.Inv →
      st.reader.Snapshot st.heap arr s → st.run grow sched = some st' →
        st'.reader.Snapshot st'.heap arr s
  | _, _, [], _, hsn, h => by cases h; exact hsn
  | _, _, _ :: as, hi, hsn, h => by
    obtain ⟨st₁, h₁, h₂⟩ := Option.bind_eq_some.1 h
    exact snapshot_run hgrow hfull as (hi.step hgrow h₁) (snapshot_step hfull hi hsn h₁) h₂

/-! ### A registry grown by appends -/

/-- A lint of the runs below: a `Lint` whose `Initialize()` succeeds, and an `Execute` that
returns nothing. -/
def sampleLint (name source : String) : Lint Unit String :=
  ⟨name, source, some ⟨none⟩, fun _ => .ok none⟩

/-- `register(l, false)` of `e_b`, `e_c` and `e_d`, and of `e_a`, which sorts before them. -/
def sampleCalls : List (Option (Lint Unit String) × Bool) :=
  [(some (sampleLint "e_b" "RFC5280"), false), (some (sampleLint "e_c" "RFC5280"), false),
    (some (sampleLint "e_d" "RFC5280"), false), (some (sampleLint "e_a" "CABF_BR"), false)]

/-- The first two calls one after the other. -/
def sampleTwo : List Act :=
  [.register 0, .register 0, .register 0, .register 1, .register 1, .register 1]

/-- The first three calls one after the other, then the checks of the fourth. -/
def sampleRegs : List Act :=
  sampleTwo ++ [.register 2, .register 2, .register 2, .register 3, .register 3]

theorem run_sampleTwo : (start newLinter sampleCalls).run Slice.goGrow sampleTwo =
    some ⟨⟨(newLinter.registerWrite (sampleLint "e_b" "RFC5280")).registerWrite
        (sampleLint "e_c" "RFC5280"),
      [⟨some (sampleLint "e_b" "RFC5280"), false, .done none⟩,
        ⟨some (sampleLint "e_c" "RFC5280"), false, .done none⟩,
        ⟨some (sampleLint "e_d" "RFC5280"), false, .start⟩,
        ⟨some (sampleLint "e_a" "CABF_BR"), false, .start⟩]⟩,
      [[], ["e_b"], ["e_b", "e_c"]], ⟨2, 2, 2⟩, .start⟩ := by
  simp only [run, step, start, Sys.start, sampleCalls, sampleLint, List.map_cons, List.map_nil,
    LinterImpl.lintNames_newLinter, List.length_nil, List.length_cons, List.length_singleton,
    Nat.reduceAdd, Nat.zero_lt_succ, List.getElem?_eq_getElem, List.getElem_cons_zero, writeNames,
    Sys.step, List.set_cons_zero, Goroutine.step, LinterImpl.registerCheck, String.reduceEq,
    ↓reduceIte, LinterImpl.byName_newLinter, Option.isSome_none, Bool.false_eq_true,
    Option.map_some', Slice.appendSort, Slice.sort, Slice.append, arrayAt,
    List.getD_eq_getElem?_getD, Slice.view, Slice.goGrow, sortStrings, String.le_iff_toList_le,
    String.toList, Option.bind_some, Option.some_bind, lt_self_iff_false, Nat.lt_add_one,
    Option.getD_some, List.take_nil, zero_add, Nat.sub_self, List.replicate_zero, List.nil_append,
    List.singleton_append, List.insertionSort, List.orderedInsert, List.getElem_cons_succ,
    List.drop_succ_cons, List.drop_nil, List.set_cons_succ, Nat.reduceLT,
    LinterImpl.byName_registerWrite, List.take_succ_cons, one_ne_zero, mul_one, List.cons_append,
    List.append_nil, Nat.add_one_ne_zero, Nat.reduceMul, Nat.reduceSub, List.replicate_one,
    Option.some.injEq, mk.injEq, List.cons.injEq, ite_eq_left_iff, not_le, and_true, and_self,
    imp_false, not_lt, true_and, sampleTwo]
  all_goals decide

theorem run_sampleRegs : (start newLinter sampleCalls).run Slice.goGrow sampleRegs =
    some ⟨⟨((newLinter.registerWrite (sampleLint "e_b" "RFC5280")).registerWrite
        (sampleLint "e_c" "RFC5280")).registerWrite (sampleLint "e_d" "RFC5280"),
      [⟨some (sampleLint "e_b" "RFC5280"), false, .done none⟩,
        ⟨some (sampleLint "e_c" "RFC5280"), false, .done none⟩,
        ⟨some (sampleLint "e_d" "RFC5280"), false, .done none⟩,
        ⟨some (sampleLint "e_a" "CABF_BR"), false, .ready (sampleLint "e_a" "CABF_BR")⟩]⟩,
      [[], ["e_b"], ["e_b", "e_c"], ["e_b", "e_c", "e_d", ""]], ⟨3, 3, 4⟩, .start⟩ := by
  rw [sampleRegs, run_append, run_sampleTwo]
  simp [run, step, Sys.step, Goroutine.step, LinterImpl.registerCheck, writeNames,
    Slice.appendSort, Slice.append, Slice.sort, Slice.view, arrayAt, Slice.goGrow,
    LinterImpl.byName_registerWrite, LinterImpl.lintNames_registerWrite, sortStrings,
    LinterImpl.lintNames_newLinter, sampleLint]
  all_goals decide

/-! ### Every interleaving -/

/-- Every interleaving of `register` calls with a range over `Names()` does to the linter what
the calls' steps alone do, and the slice `Names()` would return shows the linter's `lintNames`:
the list the registry is modelled by is what the code's slice holds. -/
theorem run_refines (hgrow : ∀ c, c < grow c) {linter : LinterImpl Cert Src}
    {calls : List (Option (Lint Cert Src) × Bool)} {sched : List Act} {st : NamesSys Cert Src}
    (h : (start linter calls).run grow sched = some st) :
    (Sys.start linter calls).run (registers sched) = some st.sys ∧ st.lintNames.WF st.heap ∧
      st.lintNames.view st.heap = st.sys.linter.lintNames :=
  have hi := (inv_start linter calls).run hgrow sched h
  ⟨run_sys sched h, hi.wf, hi.view⟩

theorem run_refines_sample :
    ∃ st, (start newLinter sampleCalls).run Slice.goGrow sampleRegs = some st ∧
      st.lintNames = ⟨3, 3, 4⟩ ∧
      (Sys.start newLinter sampleCalls).run (registers sampleRegs) = some st.sys ∧
      st.lintNames.WF st.heap ∧ st.lintNames.view st.heap = st.sys.linter.lintNames :=
  ⟨_, run_sampleRegs, rfl, run_refines Slice.lt_goGrow run_sampleRegs⟩

/-- A range that has read the first name when a lint whose name sorts first is written: if the
slice had room, the sort shifts the names in the range's own array, so the range reads the first
name twice and never the last; if not, the append copies and the range reads the names it got. -/
theorem range_register_race (hgrow : ∀ c, c < grow c) {linter : LinterImpl Cert Src}
    {calls : List (Option (Lint Cert Src) × Bool)} {sched : List Act} {st : NamesSys Cert Src}
    (hs : linter.Inv) (h : (start linter calls).run grow sched = some st) (hr : st.reader = .start)
    {i : Nat} {g : Goroutine Cert Src} {L : Lint Cert Src} (hg : st.sys.threads[i]? = some g)
    (hpc : g.pc = .ready L) (hlt : ∀ n ∈ st.sys.linter.lintNames, L.name < n)
    (hlen : 0 < st.lintNames.len) :
    ∃ st', st.run grow ([.names, .read, .register i] ++ List.replicate st.lintNames.len .read) =
        some st' ∧
      st'.reader = .done (if st.lintNames.len < st.lintNames.cap then
        st.sys.linter.lintNames.take 1 ++ st.sys.linter.lintNames.dropLast
      else st.sys.linter.lintNames) := by
  have hi := (inv_start linter calls).run hgrow sched h
  have hsorted := (Sys.namesOk_run _ (run_sys sched h) hs.namesOk).sorted
  have h₃ : st.run grow [.names, .read, .register i] = some { st with
      sys := ⟨st.sys.linter.registerWrite L, st.sys.threads.set i { g with pc := .done none }⟩
      heap := (st.lintNames.appendSort grow st.heap L.name).1
      lintNames := (st.lintNames.appendSort grow st.heap L.name).2
      reader := .ranging st.lintNames [(arrayAt st.heap st.lintNames.array).getD 0 ""] } := by
    simp [run, step, hr, hlen, hg, Sys.step, Goroutine.step, hpc, writeNames]
  obtain ⟨hw₃, -⟩ := (hi.run hgrow _ h₃).reader
  have hrep : List.replicate st.lintNames.len Act.read =
      List.replicate (st.lintNames.len - 1 + 1) .read := by rw [Nat.sub_add_cancel hlen]
  rw [hrep, run_append, h₃, Option.some_bind,
    run_read_rest _ rfl (by simp only [List.length_singleton]; omega) hw₃]
  refine ⟨_, rfl, congrArg Ranging.done ?_⟩
  -- what the range read: the first name, then the rest of its slice after the write
  obtain ⟨x, xs, hxs⟩ : ∃ x xs, st.sys.linter.lintNames = x :: xs :=
    List.exists_cons_of_length_pos (by rw [← hi.view, Slice.length_view hi.wf]; exact hlen)
  have hx : (arrayAt st.heap st.lintNames.array).getD 0 "" = x := by
    simpa [hi.view, hxs] using (Slice.getElem?_view hi.wf hlen).symm
  have hn : st.lintNames.len = xs.length + 1 := by
    rw [← Slice.length_view hi.wf, hi.view, hxs, List.length_cons]
  split_ifs with hcap
  · obtain ⟨harr, -, -⟩ := Slice.appendSort_in_place hgrow hi.wf hcap L.name
    have hsort : sortStrings (x :: xs ++ [L.name]) = L.name :: x :: xs := by
      rw [sortStrings_append_singleton (hxs ▸ hsorted)]
      simp [List.orderedInsert, le_of_lt (hlt x (by simp [hxs]))]
    rw [hi.view, hxs, hsort] at harr
    rw [Slice.view, harr, hx, hn, hxs, List.take_append_of_le_length (by simp),
      List.dropLast_eq_take]
    simp
  · obtain ⟨harr, -, -⟩ := Slice.appendSort_frame (s := st.lintNames) hi.wf.array_lt
      (.inr (by omega)) L.name
    have hview : Slice.view (st.lintNames.appendSort grow st.heap L.name).1 st.lintNames =
        st.sys.linter.lintNames := by
      rw [← hi.view, Slice.view, Slice.view, harr]
    rw [hview, hx, hxs]
    rfl

theorem range_register_race_sample :
    ∃ st, (start newLinter sampleCalls).run Slice.goGrow sampleRegs = some st ∧
      ∃ st', st.run Slice.goGrow ([.names, .read, .register 3] ++ List.replicate st.lintNames.len .read) =
          some st' ∧ st'.reader = .done ["e_b", "e_b", "e_c"] := by
  obtain ⟨st', h₁, h₂⟩ := range_register_race (i := 3)
    (g := ⟨some (sampleLint "e_a" "CABF_BR"), false, .ready (sampleLint "e_a" "CABF_BR")⟩)
    Slice.lt_goGrow LinterImpl.inv_newLinter run_sampleRegs rfl rfl rfl
    (by simp [LinterImpl.lintNames_registerWrite, LinterImpl.lintNames_newLinter, sortStrings,
      sampleLint]; decide) (by decide)
  refine ⟨_, run_sampleRegs, st', h₁, h₂.trans ?_⟩
  simp [LinterImpl.lintNames_registerWrite, LinterImpl.lintNames_newLinter, sortStrings, sampleLint]
  all_goals decide

/-- A range that calls `Names()` when the registry's slice is full reads, in every interleaving
with `register` calls, the first of the names it got, and all of them once it is done: the
names `range_register_race` shows it misread need spare capacity. -/
theorem range_full_reads_names (hgrow : ∀ c, c < grow c) {linter : LinterImpl Cert Src}
    {calls : List (Option (Lint Cert Src) × Bool)} {sched : List Act} {st : NamesSys Cert Src}
    (h : (start linter calls).run grow sched = some st) (hr : st.reader = .start)
    (hfull : st.lintNames.len = st.lintNames.cap) {sched' : List Act} {st' : NamesSys Cert Src}
    (h' : st.run grow (.names :: sched') = some st') :
    st'.reader.visited <+: st.sys.linter.lintNames ∧
      ∀ v, st'.reader = .done v → v = st.sys.linter.lintNames := by
  have hi := (inv_start linter calls).run hgrow sched h
  obtain ⟨st₁, h₁, h₂⟩ := Option.bind_eq_some.1 h'
  obtain rfl : st₁ = { st with reader := .ranging st.lintNames [] } := by
    simpa [step, hr, eq_comm] using h₁
  have hsn := snapshot_run hgrow hfull sched' (hi.step hgrow h₁)
    (⟨rfl, rfl, rfl, Nat.zero_le _⟩ : Ranging.Snapshot st.heap (arrayAt st.heap st.lintNames.array)
      st.lintNames (.ranging st.lintNames [])) h₂
  have hnames : st.sys.linter.lintNames = (arrayAt st.heap st.lintNames.array).take st.lintNames.len :=
    hi.view.symm
  cases hr' : st'.reader with
  | start => exact False.elim (hr' ▸ hsn : Ranging.Snapshot _ _ _ .start)
  | ranging s v =>
    obtain ⟨-, -, hv, hle⟩ : Ranging.Snapshot _ _ _ (.ranging _ _) := hr' ▸ hsn
    refine ⟨?_, fun _ h => by cases h⟩
    rw [Ranging.visited, hnames, hv, show ∀ l : List String, l.take v.length =
      (l.take st.lintNames.len).take v.length from fun l => by rw [List.take_take, min_eq_left hle]]
    exact List.take_prefix _ _
  | done v =>
    have hv : v = _ := (hr' ▸ hsn : Ranging.Snapshot _ _ _ (.done v))
    refine ⟨⟨[], ?_⟩, fun _ h => by cases h; rw [hv, hnames]⟩
    rw [Ranging.visited, List.append_nil, hnames, hv]


theorem range_full_reads_names_sample :
    ∃ st, (start newLinter sampleCalls).run Slice.goGrow (sampleTwo ++ [.register 3, .register 3]) =
        some st ∧ st.lintNames = ⟨2, 2, 2⟩ ∧
      ∃ st', st.run Slice.goGrow [.names, .read, .register 3, .read, .read] = some st' ∧
        st'.reader = .done ["e_b", "e_c"] ∧ st'.reader.visited <+: st.sys.linter.lintNames ∧
        ∀ v, st'.reader = .done v → v = st.sys.linter.lintNames := by
  have h : (start newLinter sampleCalls).run Slice.goGrow (sampleTwo ++ [.register 3, .register 3]) =
      some ⟨⟨(newLinter.registerWrite (sampleLint "e_b" "RFC5280")).registerWrite
          (sampleLint "e_c" "RFC5280"),
        [⟨some (sampleLint "e_b" "RFC5280"), false, .done none⟩,
          ⟨some (sampleLint "e_c" "RFC5280"), false, .done none⟩,
          ⟨some (sampleLint "e_d" "RFC5280"), false, .start⟩,
          ⟨some (sampleLint "e_a" "CABF_BR"), false, .ready (sampleLint "e_a" "CABF_BR")⟩]⟩,
        [[], ["e_b"], ["e_b", "e_c"]], ⟨2, 2, 2⟩, .start⟩ := by
    rw [run_append, run_sampleTwo]
    simp [run, step, Sys.step, Goroutine.step, LinterImpl.registerCheck, writeNames,
      LinterImpl.byName_registerWrite, sampleLint]
  have h' : (⟨⟨(newLinter.registerWrite (sampleLint "e_b" "RFC5280")).registerWrite
          (sampleLint "e_c" "RFC5280"),
        [⟨some (sampleLint "e_b" "RFC5280"), false, .done none⟩,
          ⟨some (sampleLint "e_c" "RFC5280"), false, .done none⟩,
          ⟨some (sampleLint "e_d" "RFC5280"), false, .start⟩,
          ⟨some (sampleLint "e_a" "CABF_BR"), false, .ready (sampleLint "e_a" "CABF_BR")⟩]⟩,
        [[], ["e_b"], ["e_b", "e_c"]], ⟨2, 2, 2⟩, .start⟩ : NamesSys Unit String).run Slice.goGrow
        [.names, .read, .register 3, .read, .read] =
      some ⟨⟨((newLinter.registerWrite (sampleLint "e_b" "RFC5280")).registerWrite
          (sampleLint "e_c" "RFC5280")).registerWrite (sampleLint "e_a" "CABF_BR"),
        [⟨some (sampleLint "e_b" "RFC5280"), false, .done none⟩,
          ⟨some (sampleLint "e_c" "RFC5280"), false, .done none⟩,
          ⟨some (sampleLint "e_d" "RFC5280"), false, .start⟩,
          ⟨some (sampleLint "e_a" "CABF_BR"), false, .done none⟩]⟩,
        [[], ["e_b"], ["e_b", "e_c"], ["e_a", "e_b", "e_c", ""]], ⟨3, 3, 4⟩,
        .done ["e_b", "e_c"]⟩ := by
    simp [run, step, Sys.step, Goroutine.step, writeNames, Slice.appendSort, Slice.append,
      Slice.sort, Slice.view, arrayAt, Slice.goGrow, LinterImpl.lintNames_registerWrite, sortStrings,
      LinterImpl.lintNames_newLinter, sampleLint]
    all_goals decide
  exact ⟨_, h, rfl, _, h', rfl, range_full_reads_names Slice.lt_goGrow h rfl rfl h'⟩

end NamesSys

end Zlint
