import Zlint.Command

/-!
# The benchmark program: `loadCert` and its `main`

`main` loads one certificate and lints it over and over in one goroutine. A second goroutine, at
each tick of a one-second ticker, reads the count of lints done since the last tick
(`atomic.LoadInt32`), resets the count (`atomic.StoreInt32`), and adds what it read to the total.
When the test ends or a signal arrives, `main` sends two values on `quit`, one for each goroutine,
and prints the total divided by the number of ticks; its last `Printf` reads the total and the
number of ticks again, while the ticker may not have taken its value from `quit` yet.

Each atomic operation is one step here, and a schedule says which goroutine moves next. The
`Load` and the `Store` are two steps, so a lint that finishes between them is erased by the
`Store` and never counted; and a run that ends before the first tick divides by zero.
-/

namespace Zlint

variable {Cert : Type}

/-- `loadCert(filename)`: read the file, decode its first PEM block whatever its type, and parse
it; a failure panics with its message. `quote` is Go's `%q`. -/
def loadCert (readFile : String → Except GoError (List UInt8)) (d : CertDecoder Cert)
    (quote : String → String) (filename : String) : Except GoPanic Cert :=
  match readFile filename with
  | .error err =>
    .error (.value ("error reading certfile " ++ quote filename ++ ": " ++ err.msg ++ "\n"))
  | .ok certPEM =>
    match d.pemDecode certPEM with
    | none => .error (.value ("no cert PEM block in " ++ quote filename ++ "\n"))
    | some (_, bytes) =>
      match d.parseCertificate bytes with
      | .error err =>
        .error (.value ("error parsing PEM block in " ++ quote filename ++ ": " ++ err.msg ++ "\n"))
      | .ok cert => .ok cert

namespace Bench

/-- Where the lint goroutine is: at its `select`, running `zlint.LintCertificate(c)`, or
returned. -/
inductive LintPc where
  | select
  | linting
  | returned
  deriving DecidableEq

/-- Where the ticker goroutine is; `linted` is the count it loaded. -/
inductive TickPc where
  | select
  | loaded (linted : BitVec 32)
  | stored (linted : BitVec 32)
  | added
  | returned
  deriving DecidableEq

/-- Where `main` is, from its `select` on the end of the test: `read` holds the total read for the
division, `divided` the quotient, and `printing` and `exited` what the last `Printf` read of
`lintsPerformed` and `iterations`. -/
inductive MainPc where
  | select
  | sentOne
  | sentTwo
  | read (performed : BitVec 32)
  | divided (lintsPerSecond : BitVec 32)
  | printing (lintsPerSecond performed : BitVec 32)
  | exited (lintsPerSecond performed iterations : BitVec 32)
  deriving DecidableEq

end Bench

/-- The benchmark once its goroutines have started: the three `int32` counters, the values
buffered in `quit`, where each goroutine is, and the panic that ended the program, if one did. -/
structure Bench where
  count : BitVec 32
  lintsPerformed : BitVec 32
  iterations : BitVec 32
  quit : Nat
  lint : Bench.LintPc
  tick : Bench.TickPc
  main : Bench.MainPc
  panicked : Option GoPanic
  deriving DecidableEq

namespace Bench

/-- One atomic step: which goroutine moves, and at the ticker's `select`, which case it takes. -/
inductive Act where
  | lintSelect
  | lintAdd
  | tick
  | tickQuit
  | tickStore
  | tickAdd
  | tickIterate
  | mainSend
  | mainRead
  | mainReport
  | mainPrintTotal
  | mainPrintDuration
  deriving DecidableEq

/-- The state once `main` has started both goroutines. -/
def start : Bench := ⟨0, 0, 0, 0, .select, .select, .select, none⟩

/-- The run-time panic of an integer division by zero. -/
def divideByZero : GoPanic := .value "runtime error: integer divide by zero"

def MainPc.isExited : MainPc → Bool
  | .exited .. => true
  | _ => false

def MainPc.performed : MainPc → Option (BitVec 32)
  | .read p | .printing _ p | .exited _ p _ => some p
  | _ => none

def running (s : Bench) : Bool := s.panicked.isNone && !s.main.isExited

/-- The step a goroutine takes from where it is. `lintPanic` is what `LintCertificate(c)` does:
panic with it, or return (the result set is dropped). A `select` with a `default` takes `quit`
when it holds a value; the ticker's `select` may take a tick at any time, and `quit` when it
holds a value. A send on `quit`, whose buffer holds two, waits while it is full. The first
report `Printf` reads no counter; the second reads `lintsPerformed`, then `iterations`. -/
def move (lintPanic : Option GoPanic) (s : Bench) : Act → Option Bench
  | .lintSelect =>
    match s.lint with
    | .select =>
      some (if 0 < s.quit then { s with quit := s.quit - 1, lint := .returned }
        else { s with lint := .linting })
    | _ => none
  | .lintAdd =>
    match s.lint with
    | .linting =>
      some (match lintPanic with
        | some p => { s with panicked := some p }
        | none => { s with count := s.count + 1, lint := .select })
    | _ => none
  | .tick =>
    match s.tick with
    | .select => some { s with tick := .loaded s.count }
    | _ => none
  | .tickQuit =>
    match s.tick with
    | .select => if 0 < s.quit then some { s with quit := s.quit - 1, tick := .returned } else none
    | _ => none
  | .tickStore =>
    match s.tick with
    | .loaded v => some { s with count := 0, tick := .stored v }
    | _ => none
  | .tickAdd =>
    match s.tick with
    | .stored v => some { s with lintsPerformed := s.lintsPerformed + v, tick := .added }
    | _ => none
  | .tickIterate =>
    match s.tick with
    | .added => some { s with iterations := s.iterations + 1, tick := .select }
    | _ => none
  | .mainSend =>
    match s.main with
    | .select => if s.quit < 2 then some { s with quit := s.quit + 1, main := .sentOne } else none
    | .sentOne => if s.quit < 2 then some { s with quit := s.quit + 1, main := .sentTwo } else none
    | _ => none
  | .mainRead =>
    match s.main with
    | .sentTwo => some { s with main := .read s.lintsPerformed }
    | _ => none
  | .mainReport =>
    match s.main with
    | .read p =>
      if s.iterations = 0 then some { s with panicked := some divideByZero }
      else some { s with main := .divided (p.sdiv s.iterations) }
    | _ => none
  | .mainPrintTotal =>
    match s.main with
    | .divided q => some { s with main := .printing q s.lintsPerformed }
    | _ => none
  | .mainPrintDuration =>
    match s.main with
    | .printing q p => some { s with main := .exited q p s.iterations }
    | _ => none

def step (lintPanic : Option GoPanic) (s : Bench) (a : Act) : Option Bench :=
  if s.running then s.move lintPanic a else none

def run (lintPanic : Option GoPanic) (s : Bench) : List Act → Option Bench
  | [] => some s
  | a :: as => (s.step lintPanic a).bind (run lintPanic · as)

@[simp] theorem run_nil (lintPanic : Option GoPanic) (s : Bench) : s.run lintPanic [] = some s :=
  rfl

theorem run_cons_eq_some {lintPanic : Option GoPanic} {s s' : Bench} {a : Act} {as : List Act} :
    s.run lintPanic (a :: as) = some s' ↔ ∃ t, s.step lintPanic a = some t ∧ t.run lintPanic as = some s' :=
  Option.bind_eq_some

/-- What one step does, statement by statement of the source: `moves_of_step` inverts `step`. -/
inductive Moves (lintPanic : Option GoPanic) (s : Bench) : Act → Bench → Prop
  | lintQuit : s.lint = .select → 0 < s.quit →
      Moves lintPanic s .lintSelect { s with quit := s.quit - 1, lint := .returned }
  | lintStart : s.lint = .select → ¬ 0 < s.quit → Moves lintPanic s .lintSelect { s with lint := .linting }
  | lintPanics (p : GoPanic) : s.lint = .linting → lintPanic = some p →
      Moves lintPanic s .lintAdd { s with panicked := some p }
  | lintAdd : s.lint = .linting → lintPanic = none →
      Moves lintPanic s .lintAdd { s with count := s.count + 1, lint := .select }
  | tick : s.tick = .select → Moves lintPanic s .tick { s with tick := .loaded s.count }
  | tickQuit : s.tick = .select → 0 < s.quit →
      Moves lintPanic s .tickQuit { s with quit := s.quit - 1, tick := .returned }
  | tickStore (v : BitVec 32) : s.tick = .loaded v →
      Moves lintPanic s .tickStore { s with count := 0, tick := .stored v }
  | tickAdd (v : BitVec 32) : s.tick = .stored v →
      Moves lintPanic s .tickAdd { s with lintsPerformed := s.lintsPerformed + v, tick := .added }
  | tickIterate : s.tick = .added →
      Moves lintPanic s .tickIterate { s with iterations := s.iterations + 1, tick := .select }
  | sendOne : s.main = .select → s.quit < 2 →
      Moves lintPanic s .mainSend { s with quit := s.quit + 1, main := .sentOne }
  | sendTwo : s.main = .sentOne → s.quit < 2 →
      Moves lintPanic s .mainSend { s with quit := s.quit + 1, main := .sentTwo }
  | read : s.main = .sentTwo → Moves lintPanic s .mainRead { s with main := .read s.lintsPerformed }
  | divideByZero (p : BitVec 32) : s.main = .read p → s.iterations = 0 →
      Moves lintPanic s .mainReport { s with panicked := some divideByZero }
  | report (p : BitVec 32) : s.main = .read p → s.iterations ≠ 0 →
      Moves lintPanic s .mainReport { s with main := .divided (p.sdiv s.iterations) }
  | printTotal (q : BitVec 32) : s.main = .divided q →
      Moves lintPanic s .mainPrintTotal { s with main := .printing q s.lintsPerformed }
  | printDuration (q p : BitVec 32) : s.main = .printing q p →
      Moves lintPanic s .mainPrintDuration { s with main := .exited q p s.iterations }

theorem moves_of_step {lintPanic : Option GoPanic} {s s' : Bench} {a : Act}
    (h : s.step lintPanic a = some s') : s.running ∧ Moves lintPanic s a s' := by
  unfold step at h
  split_ifs at h with hr
  refine ⟨hr, ?_⟩
  cases a <;> simp only [move] at h <;> split at h <;> (try split_ifs at h) <;>
    (try cases lintPanic) <;> simp only [Option.some.injEq, reduceCtorEq] at h <;> subst h <;>
    constructor <;> first | assumption | rfl

/-! ## The counters -/

/-- The count the ticker has taken out of `count` and not yet added to `lintsPerformed`. -/
def held (s : Bench) : Nat :=
  match s.tick with
  | .stored v => v.toNat
  | _ => 0

/-- The accounting of `lints` calls of `AddInt32(&count, 1)`, `lost` of which no counter holds:
what the counters and the ticker hold never exceeds the calls, and the ticker's loaded value is
part of `count`. -/
structure Inv (s : Bench) (lints lost : Nat) : Prop where
  counted : s.lintsPerformed.toNat + s.count.toNat + s.held + lost ≤ lints
  loaded : ∀ v, s.tick = .loaded v → v.toNat ≤ s.count.toNat
  reported : ∀ p, s.main.performed = some p → p.toNat ≤ lints

theorem inv_start : start.Inv 0 0 where
  counted := by simp [start, held]
  loaded := by simp [start]
  reported := by simp [start, MainPc.performed]

theorem Inv.step {lintPanic : Option GoPanic} {s s' : Bench} {a : Act} {lints lost : Nat}
    (hi : s.Inv lints lost) (h : s.step lintPanic a = some s')
    (hw : lints + (if a = .lintAdd then 1 else 0) < 2 ^ 32) :
    s'.Inv (lints + if a = .lintAdd then 1 else 0) lost := by
  obtain ⟨hc, hl, hr⟩ := hi
  cases (moves_of_step h).2 with
  | lintQuit | lintStart | divideByZero => exact ⟨hc, hl, hr⟩
  | sendOne | sendTwo => exact ⟨hc, hl, by simp [MainPc.performed]⟩
  | lintPanics p =>
    exact ⟨by simp only [if_pos] at hw ⊢; exact hc.trans (by omega), hl,
      fun p hp => (hr p hp).trans (by simp)⟩
  | lintAdd =>
    simp only [if_pos] at hw ⊢
    have hlt : s.count.toNat + 1 < 2 ^ 32 := by omega
    have hc1 : (s.count + 1).toNat = s.count.toNat + 1 := by
      simp only [BitVec.toNat_add, BitVec.ofNat_eq_ofNat, BitVec.toNat_ofNat]; omega
    exact ⟨by simp only [held] at hc ⊢; omega, fun v hv => by rw [hc1]; exact (hl v hv).trans (by omega),
      fun p hp => (hr p hp).trans (by omega)⟩
  | tick hs =>
    exact ⟨by simpa [held, hs] using hc, fun v hv => by cases hv; exact le_rfl, hr⟩
  | tickQuit hs | tickIterate hs => exact ⟨by simpa [held, hs] using hc, by simp, hr⟩
  | tickStore v hs =>
    have := hl v hs
    exact ⟨by simp only [held, hs] at hc ⊢; simp; omega, by simp, hr⟩
  | tickAdd v hs =>
    simp only [held, hs] at hc
    have hP : (s.lintsPerformed + v).toNat = s.lintsPerformed.toNat + v.toNat := by
      rw [BitVec.toNat_add]; exact Nat.mod_eq_of_lt (by simp at hw; omega)
    exact ⟨by simp only [held, hP]; simp at hw ⊢; omega, by simp, hr⟩
  | read hs | printTotal _ hs => exact ⟨hc, hl, fun p hp => by cases hp; omega⟩
  | report p hs => exact ⟨hc, hl, by simp [MainPc.performed]⟩
  | printDuration q p hs =>
    exact ⟨hc, hl, fun p' hp => by cases hp; simpa using hr p (by simp [hs, MainPc.performed])⟩

theorem Inv.run {lintPanic : Option GoPanic} {s s' : Bench} {sched : List Act} {lints lost : Nat}
    (hi : s.Inv lints lost) (h : s.run lintPanic sched = some s')
    (hw : lints + sched.count .lintAdd < 2 ^ 32) :
    s'.Inv (lints + sched.count .lintAdd) lost := by
  induction sched generalizing s lints with
  | nil => cases h; exact hi
  | cons a as ih =>
    obtain ⟨t, ht, hrun⟩ := run_cons_eq_some.1 h
    simp only [List.count_cons, beq_iff_eq] at hw ⊢
    have hlt : lints + (if a = .lintAdd then 1 else 0) < 2 ^ 32 := by split_ifs at hw ⊢ <;> omega
    rw [Nat.add_comm (List.count _ as), ← Nat.add_assoc]
    exact ih (hi.step ht hlt) hrun (by omega)

/-- `main` never reports more lints than were done: in every schedule of fewer than `2^31` calls
of `AddInt32(&count, 1)`, the total it prints is a non-negative `int32` no larger than the calls. -/
theorem report_le_lints (lintPanic : Option GoPanic) (sched : List Act) {s : Bench}
    (hs : start.run lintPanic sched = some s) (hw : sched.count .lintAdd < 2 ^ 31)
    {q p i : BitVec 32} (he : s.main = .exited q p i) :
    0 ≤ p.toInt ∧ p.toInt ≤ sched.count .lintAdd := by
  have hp := (inv_start.run hs (by omega)).reported p (by simp [he, MainPc.performed])
  rw [BitVec.toInt_eq_toNat_cond, if_pos (by omega)]
  omega

theorem report_le_lints_one_tick :
    0 ≤ (1 : BitVec 32).toInt ∧ (1 : BitVec 32).toInt ≤
      ([.lintSelect, .lintAdd, .tick, .tickStore, .tickAdd, .tickIterate, .mainSend, .mainSend,
        .mainRead, .mainReport, .mainPrintTotal, .mainPrintDuration] : List Act).count .lintAdd :=
  report_le_lints none [.lintSelect, .lintAdd, .tick, .tickStore, .tickAdd, .tickIterate,
    .mainSend, .mainSend, .mainRead, .mainReport, .mainPrintTotal, .mainPrintDuration] rfl
    (by decide) rfl

theorem iterations_step {lintPanic : Option GoPanic} {s s' : Bench} {a : Act}
    (h : s.step lintPanic a = some s') :
    s'.iterations = s.iterations + if a = .tickIterate then 1 else 0 := by
  cases (moves_of_step h).2 <;> simp

theorem iterations_run {lintPanic : Option GoPanic} {s s' : Bench} {sched : List Act}
    (h : s.run lintPanic sched = some s') :
    s'.iterations = s.iterations + BitVec.ofNat 32 (sched.count .tickIterate) := by
  induction sched generalizing s with
  | nil => cases h; simp
  | cons a as ih =>
    obtain ⟨t, ht, hrun⟩ := run_cons_eq_some.1 h
    rw [ih hrun, iterations_step ht, List.count_cons, BitVec.ofNat_add, BitVec.add_assoc]
    split_ifs <;> simp_all [BitVec.add_comm]

/-- `main` divides the total by `iterations`, the number of iterations the ticker finished,
modulo `2^32`: in every schedule, when `main` reaches its division, it panics when that number is
a multiple of `2^32`, as it is when the ticker has not finished an iteration yet, and otherwise
has the quotient to print. -/
theorem report_divides_by_ticks (lintPanic : Option GoPanic) (sched : List Act) {s : Bench}
    (hs : start.run lintPanic sched = some s) {p : BitVec 32} (hp : s.main = .read p)
    (hr : s.running = true) :
    s.step lintPanic .mainReport =
      if sched.count .tickIterate % 2 ^ 32 = 0 then some { s with panicked := some divideByZero }
      else some { s with main := .divided (p.sdiv (BitVec.ofNat 32 (sched.count .tickIterate))) } := by
  have hi : s.iterations = BitVec.ofNat 32 (sched.count .tickIterate) := by
    simpa [start] using iterations_run hs
  have h0 : s.iterations = 0 ↔ sched.count .tickIterate % 2 ^ 32 = 0 := by
    rw [hi, BitVec.toNat_eq]; simp
  simp only [step, hr, if_true, move, hp]
  by_cases hz : sched.count .tickIterate % 2 ^ 32 = 0
  · rw [if_pos (h0.2 hz), if_pos hz]
  · rw [if_neg (mt h0.1 hz), if_neg hz, hi]

theorem report_divides_by_ticks_no_tick :
    (⟨0, 0, 0, 2, .select, .select, .read 0, none⟩ : Bench).step none .mainReport =
      if ([.mainSend, .mainSend, .mainRead] : List Act).count .tickIterate % 2 ^ 32 = 0 then
        some { (⟨0, 0, 0, 2, .select, .select, .read 0, none⟩ : Bench) with
          panicked := some divideByZero }
      else some { (⟨0, 0, 0, 2, .select, .select, .read 0, none⟩ : Bench) with
        main := .divided ((0 : BitVec 32).sdiv (BitVec.ofNat 32
          (([.mainSend, .mainSend, .mainRead] : List Act).count .tickIterate))) } :=
  report_divides_by_ticks none [.mainSend, .mainSend, .mainRead] rfl rfl rfl

/-! ## The `quit` channel -/

def MainPc.sent : MainPc → Nat
  | .select => 0
  | .sentOne => 1
  | _ => 2

def returned (s : Bench) : Nat :=
  (if s.lint = .returned then 1 else 0) + (if s.tick = .returned then 1 else 0)

theorem quit_step {lintPanic : Option GoPanic} {s s' : Bench} {a : Act}
    (h : s.step lintPanic a = some s') (hq : s.quit + s.returned = s.main.sent) :
    s'.quit + s'.returned = s'.main.sent := by
  cases (moves_of_step h).2 with
  | lintQuit hs _ | tickQuit hs _ => simp_all [returned]; omega
  | lintStart hs | lintAdd hs _ | tick hs | tickStore _ hs | tickAdd _ hs | tickIterate hs =>
    simp_all [returned]
  | sendOne hs _ | sendTwo hs _ | read hs | divideByZero _ hs _ | report _ hs _ | printTotal _ hs
  | printDuration _ _ hs =>
    simp_all [MainPc.sent, returned] <;> omega
  | lintPanics => exact hq

theorem quit_run {lintPanic : Option GoPanic} {s s' : Bench} {sched : List Act}
    (h : s.run lintPanic sched = some s') (hq : s.quit + s.returned = s.main.sent) :
    s'.quit + s'.returned = s'.main.sent := by
  induction sched generalizing s with
  | nil => cases h; exact hq
  | cons a as ih =>
    obtain ⟨t, ht, hrun⟩ := run_cons_eq_some.1 h
    exact ih hrun (quit_step ht hq)

/-- The `quit` protocol, in every schedule: `quit` holds the values `main` sent less those the
returned goroutines took; so `main`'s two sends never wait on the full buffer, and once both are
sent, the lint goroutine takes a value at its next `select` and starts no new lint. -/
theorem quit_protocol (lintPanic : Option GoPanic) (sched : List Act) {s : Bench}
    (hs : start.run lintPanic sched = some s) :
    s.quit + s.returned = s.main.sent ∧
    (s.main = .select ∨ s.main = .sentOne → s.quit < 2) ∧
    (s.main.sent = 2 → s.lint = .select → s.running = true →
      s.step lintPanic .lintSelect = some { s with quit := s.quit - 1, lint := .returned }) := by
  have hq := quit_run hs rfl
  refine ⟨hq, ?_, fun h2 hl hr => ?_⟩
  · rintro (hm | hm) <;> simp only [hm, MainPc.sent] at hq <;> omega
  · have : 0 < s.quit := by
      simp only [returned, hl, h2, reduceCtorEq, if_false, Nat.zero_add] at hq
      split_ifs at hq <;> omega
    simp [step, hr, move, hl, this]

theorem quit_protocol_sent :
    (⟨0, 0, 0, 2, .select, .select, .sentTwo, none⟩ : Bench).quit +
        (⟨0, 0, 0, 2, .select, .select, .sentTwo, none⟩ : Bench).returned =
      (⟨0, 0, 0, 2, .select, .select, .sentTwo, none⟩ : Bench).main.sent ∧
    ((⟨0, 0, 0, 2, .select, .select, .sentTwo, none⟩ : Bench).main = .select ∨
        (⟨0, 0, 0, 2, .select, .select, .sentTwo, none⟩ : Bench).main = .sentOne →
      (⟨0, 0, 0, 2, .select, .select, .sentTwo, none⟩ : Bench).quit < 2) ∧
    ((⟨0, 0, 0, 2, .select, .select, .sentTwo, none⟩ : Bench).main.sent = 2 →
      (⟨0, 0, 0, 2, .select, .select, .sentTwo, none⟩ : Bench).lint = .select →
      (⟨0, 0, 0, 2, .select, .select, .sentTwo, none⟩ : Bench).running = true →
      (⟨0, 0, 0, 2, .select, .select, .sentTwo, none⟩ : Bench).step none .lintSelect =
        some { (⟨0, 0, 0, 2, .select, .select, .sentTwo, none⟩ : Bench) with
          quit := (⟨0, 0, 0, 2, .select, .select, .sentTwo, none⟩ : Bench).quit - 1,
          lint := .returned }) :=
  quit_protocol none [.mainSend, .mainSend] rfl

end Bench

end Zlint
