import Mathlib.Data.List.AList
import Mathlib.Data.List.Sort
import Mathlib.Data.String.Basic

/-!
# Lints, verdicts, and the Go library calls the registry makes

`lint/base.go` and `lint/result.go` are not in the sources: `Lint`, `LintResult` and the
`LintStatus` constants follow the spec here. A certificate and a `LintSource` are type
parameters, since the registry never looks inside either.
-/

namespace Zlint

/-! ## Statuses and verdicts -/

/-- Go's `LintStatus`, a named `int`. -/
abbrev LintStatus := Int

/-- Modelled from the spec: the `LintStatus` constants are not in the sources. §3 lists the
statuses in increasing severity, Reserved (0) to NotApplicable (6); the code reads these five. -/
def LintStatus.pass : LintStatus := 1
def LintStatus.notice : LintStatus := 2
def LintStatus.warn : LintStatus := 3
def LintStatus.error : LintStatus := 4
def LintStatus.fatal : LintStatus := 5

/-- Modelled from the spec: `LintResult`, one lint's verdict, a status and its details. -/
structure LintResult where
  status : LintStatus
  details : String
  deriving DecidableEq, Repr

/-- A Go `error`, by its message. -/
structure GoError where
  msg : String
  deriving DecidableEq, Repr

/-- Why a Go call panicked: a nil pointer was read, or the code called `panic(v)`. -/
inductive GoPanic where
  | nilDereference
  | value (msg : String)
  deriving DecidableEq, Repr

/-! ## Lints -/

/-- What the methods of a `LintInterface` value return. The registry calls only
`Initialize()`, whose error is `initErr`; the other two are reached through `execute` below. -/
structure LintInterface where
  initErr : Option GoError

/-- Modelled from the spec: `Lint`, the descriptor of one lint. `lint` is the `Lint` field, a
nil-able interface, and `execute` is `(*Lint).Execute`: a verdict (a nil one too) or a panic.
The documentation fields are only ever written out as JSON and are left out. -/
structure Lint (Cert Src : Type) where
  name : String
  source : Src
  lint : Option LintInterface
  execute : Cert → Except GoPanic (Option LintResult)

/-! ## `sort.Strings` and `strings.TrimSpace` -/

/-- `sort.Strings`. Go compares strings byte by byte, which on UTF-8 is the order of code
points, the order of `String`. -/
def sortStrings (xs : List String) : List String := xs.insertionSort (· ≤ ·)

theorem sortStrings_sorted (xs : List String) : (sortStrings xs).Sorted (· ≤ ·) :=
  List.sorted_insertionSort _ _

theorem sortStrings_perm (xs : List String) : (sortStrings xs).Perm xs :=
  List.perm_insertionSort _ _

@[simp] theorem mem_sortStrings {xs : List String} {n : String} : n ∈ sortStrings xs ↔ n ∈ xs :=
  (sortStrings_perm xs).mem_iff

theorem sortStrings_eq_of_perm {xs ys : List String} (h : xs.Perm ys) :
    sortStrings xs = sortStrings ys :=
  List.eq_of_perm_of_sorted ((sortStrings_perm xs).trans (h.trans (sortStrings_perm ys).symm))
    (sortStrings_sorted xs) (sortStrings_sorted ys)

theorem sortStrings_of_sorted {xs : List String} (h : xs.Sorted (· < ·)) : sortStrings xs = xs :=
  List.eq_of_perm_of_sorted (sortStrings_perm xs) (sortStrings_sorted xs) h.le_of_lt

theorem sortStrings_append_singleton {xs : List String} (h : xs.Sorted (· ≤ ·)) (n : String) :
    sortStrings (xs ++ [n]) = xs.orderedInsert (· ≤ ·) n :=
  List.eq_of_perm_of_sorted
    ((sortStrings_perm _).trans (List.perm_append_singleton n xs |>.trans
      (List.perm_orderedInsert _ n xs).symm))
    (sortStrings_sorted _) (h.orderedInsert n xs)

theorem eq_of_sorted_of_mem_iff {xs ys : List String} (hx : xs.Sorted (· < ·))
    (hy : ys.Sorted (· < ·)) (h : ∀ n, n ∈ xs ↔ n ∈ ys) : xs = ys :=
  List.eq_of_perm_of_sorted ((List.perm_ext_iff_of_nodup hx.nodup hy.nodup).2 h) hx hy

/-- `unicode.IsSpace`: the Latin-1 spaces, then the other `White_Space` code points. -/
def isSpace (c : Char) : Bool :=
  let r := c.toNat
  (9 ≤ r && r ≤ 13) || r == 0x20 || r == 0x85 || r == 0xA0 || r == 0x1680 ||
    (0x2000 ≤ r && r ≤ 0x200A) || r == 0x2028 || r == 0x2029 || r == 0x202F ||
    r == 0x205F || r == 0x3000

/-- `strings.TrimSpace`: `s` without its leading and trailing white space. -/
def trimSpace (s : String) : String :=
  ⟨((s.data.dropWhile isSpace).reverse.dropWhile isSpace).reverse⟩

example : trimSpace " \t e_a\n" = "e_a" := by decide

end Zlint
