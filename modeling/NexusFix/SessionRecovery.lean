import Mathlib.Algebra.Group.Int
import Mathlib.Data.Nat.Defs
import NexusFix.SessionMachine

/-! # Reconnection with backoff

`session_with_recovery`: run the session, and after a failed run wait
`reconnect_interval * (1 << attempts)` seconds, capped at 60, before the next one. The wait
is computed in C++ `int` arithmetic, modelled here with its undefined cases as `none`:
a signed product that leaves the range of `int`, and a shift by the width of `int` or more.
`SessionConfig` is not among the sources; the loop reads two of its fields, taken as `int`s. -/
namespace SessionRecovery

open SessionMachine

def intMin : Int := -2147483648

def intMax : Int := 2147483647

/-- A C++ `int`, 32 bits wide on the platforms the sources build for. -/
structure CInt where
  val : Int
  range : intMin ≤ val ∧ val ≤ intMax
  deriving DecidableEq

namespace CInt

def one : CInt := ⟨1, by decide⟩

/-- `a * b`: undefined when the product leaves the range of `int`. -/
def mul (a b : CInt) : Option CInt :=
  if h : intMin ≤ a.val * b.val ∧ a.val * b.val ≤ intMax then some ⟨_, h⟩ else none

/-- The `int` congruent to `v` modulo 2^32. -/
def wrap (v : Int) : Int := (v + 2147483648) % 4294967296 - 2147483648

theorem wrap_range (v : Int) : intMin ≤ wrap v ∧ wrap v ≤ intMax := by
  unfold wrap intMin intMax; omega

/-- `a << n` for a count `n ≥ 0` (C++20): undefined unless `n` is below the width of `int`,
and otherwise the `int` congruent to a·2^n modulo 2^32. -/
def shiftLeft (a : CInt) (n : Nat) : Option CInt :=
  if n < 32 then some ⟨wrap (a.val * 2 ^ n), wrap_range _⟩ else none

end CInt

/-- Modelled from the spec: the fields of `SessionConfig` the loop reads. -/
structure SessionConfig where
  maxReconnectAttempts : CInt
  reconnectInterval : CInt
  deriving DecidableEq

/-- What `session.run` returned: a value on a graceful end, or the error. -/
abbrev RunResult := Except SessionErrorCode Unit

/-- `int delay_sec = config.reconnect_interval * (1 << attempts); if (delay_sec > 60)
delay_sec = 60;`, or `none` when the expression is undefined. -/
def delaySec (config : SessionConfig) (attempts : Nat) : Option Int := do
  let p ← CInt.one.shiftLeft attempts
  let d ← config.reconnectInterval.mul p
  pure (if d.val > 60 then 60 else d.val)

/-- The loop of `session_with_recovery` from a count of `attempts`, over the results of the
runs it makes: the `delay_sec` it computes before each retry, and what it returns, `none`
while it still has a run to make. -/
def recover (config : SessionConfig) (attempts : Nat) :
    List RunResult → List (Option Int) × Option RunResult
  | [] =>
    ([], if (attempts : Int) < config.maxReconnectAttempts.val then none
      else some (.error .disconnected))
  | r :: rest =>
    if (attempts : Int) < config.maxReconnectAttempts.val then
      match r with
      | .ok () => ([], some (.ok ()))
      | .error e =>
        if config.maxReconnectAttempts.val ≤ attempts + 1 then ([], some (.error e))
        else
          let next := recover config (attempts + 1) rest
          (delaySec config (attempts + 1) :: next.1, next.2)
    else ([], some (.error .disconnected))

/-! ## The shift and the product -/

theorem shiftLeft_one_small {n : Nat} (h : n ≤ 30) :
    (CInt.one.shiftLeft n).map CInt.val = some (2 ^ n) := by
  have h1 : 1 ≤ 2 ^ n := Nat.one_le_two_pow
  have h2 : 2 ^ n ≤ 2 ^ 30 := Nat.pow_le_pow_right (by decide) h
  simp only [CInt.shiftLeft, if_pos (show n < 32 by omega), Option.map_some', CInt.one,
    CInt.wrap, Int.one_mul, Option.some.injEq]
  have h1' : (1 : Int) ≤ 2 ^ n := by exact_mod_cast h1
  have h2' : (2 : Int) ^ n ≤ 2 ^ 30 := by exact_mod_cast h2
  omega

theorem shiftLeft_one_31 : (CInt.one.shiftLeft 31).map CInt.val = some (-2147483648) := by
  decide

theorem shiftLeft_of_wide {a : CInt} {n : Nat} (h : 32 ≤ n) : a.shiftLeft n = none := by
  simp [CInt.shiftLeft, Nat.not_lt.mpr h]

/-- The delay is the capped product whenever the product is defined. -/
theorem delaySec_eq {config : SessionConfig} {n : Nat} {p : CInt}
    (hp : CInt.one.shiftLeft n = some p) :
    delaySec config n =
      if intMin ≤ config.reconnectInterval.val * p.val ∧
          config.reconnectInterval.val * p.val ≤ intMax then
        some (min 60 (config.reconnectInterval.val * p.val))
      else none := by
  simp only [delaySec, hp, Option.bind_eq_bind, Option.some_bind, CInt.mul]
  split
  · simp only [Option.some_bind, Option.pure_def, Option.some.injEq]
    split <;> omega
  · rfl

/-- `reconnect_interval * (1 << attempts)`, capped at 60, is `min(60, reconnect_interval ·
2^attempts)` exactly when `attempts` is below 32 and the product fits in an `int`; past
that the expression is undefined, or at `attempts = 31` with an interval of 1 it is
-2^31. -/
theorem delaySec_eq_iff (config : SessionConfig) (hint : 0 ≤ config.reconnectInterval.val)
    (n : Nat) :
    delaySec config n = some (min 60 (config.reconnectInterval.val * 2 ^ n)) ↔
      n < 32 ∧ config.reconnectInterval.val * 2 ^ n ≤ intMax := by
  have hpow : (0 : Int) ≤ 2 ^ n := by exact_mod_cast Nat.zero_le (2 ^ n)
  have hpos := Int.mul_nonneg hint hpow
  unfold intMin intMax at *
  by_cases hsmall : n ≤ 30
  · obtain ⟨p, hp, hpv⟩ := Option.map_eq_some'.mp (shiftLeft_one_small hsmall)
    rw [delaySec_eq hp, hpv]
    unfold intMin intMax
    split <;> simp only [Option.some.injEq, reduceCtorEq, true_iff, false_iff] <;> omega
  by_cases h31 : n = 31
  · subst h31
    obtain ⟨p, hp, hpv⟩ := Option.map_eq_some'.mp shiftLeft_one_31
    rw [delaySec_eq hp, hpv]
    unfold intMin intMax
    split <;> simp only [Option.some.injEq, reduceCtorEq, true_iff, false_iff] <;> omega
  · have hwide : CInt.one.shiftLeft n = none := shiftLeft_of_wide (by omega)
    simp only [delaySec, hwide, Option.bind_eq_bind, Option.none_bind, reduceCtorEq, false_iff]
    omega

/-! ## The loop -/

/-- After failed runs only, the loop has computed the delay for each count it reached:
1, 2, and so on, up to the number of runs or `max_reconnect_attempts - 1`. -/
theorem recover_delays (config : SessionConfig) (errs : List SessionErrorCode) (a : Nat) :
    (recover config a (errs.map .error)).1 =
      (List.range (min errs.length (config.maxReconnectAttempts.val - 1 - a).toNat)).map
        fun i => delaySec config (a + i + 1) := by
  induction errs generalizing a with
  | nil => simp [recover]
  | cons e errs ih =>
    simp only [List.map_cons, recover]
    by_cases ha : (a : Int) < config.maxReconnectAttempts.val
    · rw [if_pos ha]
      by_cases hlast : config.maxReconnectAttempts.val ≤ a + 1
      · rw [if_pos hlast, show (config.maxReconnectAttempts.val - 1 - a).toNat = 0 by omega]
        simp
      · rw [if_neg hlast, ih (a + 1)]
        have hk : min (errs.length + 1) (config.maxReconnectAttempts.val - 1 - a).toNat =
            min errs.length (config.maxReconnectAttempts.val - 1 - (a + 1 : Nat)).toNat + 1 := by
          omega
        simp only [List.length_cons, hk, List.range_succ_eq_map, List.map_cons, List.map_map]
        congr 2
        funext i
        simp only [Function.comp, Nat.succ_eq_add_one]
        congr 1
        omega
    · rw [if_neg ha, show (config.maxReconnectAttempts.val - 1 - a).toNat = 0 by omega]
      simp

/-- Over every sequence of failed runs, the loop computes `delay_sec` for the counts 1, 2, …
it reaches, and each is `min(60, reconnect_interval · 2^attempts)` exactly when the count is
below 32 and the product fits in an `int`. -/
theorem backoff_delay_overflows (config : SessionConfig)
    (hint : 0 ≤ config.reconnectInterval.val) :
    (∀ errs : List SessionErrorCode, (recover config 0 (errs.map .error)).1 =
      (List.range (min errs.length (config.maxReconnectAttempts.val - 1).toNat)).map
        fun i => delaySec config (i + 1)) ∧
    (∀ n, delaySec config n = some (min 60 (config.reconnectInterval.val * 2 ^ n)) ↔
      n < 32 ∧ config.reconnectInterval.val * 2 ^ n ≤ intMax) := by
  refine ⟨fun errs => ?_, delaySec_eq_iff config hint⟩
  simpa using recover_delays config errs 0

/-- `max_reconnect_attempts = 32`, `reconnect_interval = 1`. -/
def backoffConfig : SessionConfig := ⟨⟨32, by decide⟩, ⟨1, by decide⟩⟩

/-- After 31 failed runs the loop computes a delay of -2^31 seconds, not 60. -/
theorem one_second_base_goes_negative :
    (recover backoffConfig 0 (List.replicate 31 (.error .disconnected))).1 =
      (List.range 31).map (fun i => delaySec backoffConfig (i + 1)) ∧
    delaySec backoffConfig 31 = some (-2147483648) ∧
    delaySec backoffConfig 31 ≠ some (min 60 (1 * 2 ^ 31)) := by
  have h := backoff_delay_overflows backoffConfig (by decide)
  refine ⟨h.1 (List.replicate 31 .disconnected), by decide,
    fun he => absurd ((h.2 31).mp he).2 (by decide)⟩

end SessionRecovery
