import Mathlib.Data.List.Nodup

/-! # `when_all` and `when_any`

The two combinators of `session/async_primitives.hpp`, on one thread with cooperative
scheduling as the spec has it. The combinator coroutine starts one driver per task in turn,
then awaits its awaiter. A child completes, and its driver runs on past `co_await task`, at
any point after its driver started: inside a later driver's `resume()` during the start
loop, or later when the external driver resumes it. Each of these is one step here, since
a driver's code after `co_await task` has no suspension point, and nothing runs between an
awaiter's `await_ready` and its `await_suspend`. Which children completed, in which order,
and which drivers saw the counter reach zero or won the compare-exchange is ghost state. -/
namespace Combinators

/-- Where the combinator coroutine is: in the start loop `for (auto& d : drivers) d.resume();`
with `k` drivers started, suspended with its handle in `state.continuation`, or past its
awaiter. -/
inductive Parent
  | starting (k : Nat)
  | suspended
  | resumed
  deriving DecidableEq, Repr

def Parent.started (n : Nat) : Parent → Nat
  | .starting k => k
  | _ => n

/-- A step of the schedule: the start loop resumes the next driver, the coroutine reaches
`co_await` on its awaiter, or child `i` completes and its driver runs to its end. -/
inductive Event
  | start
  | await
  | complete (i : Nat)
  deriving DecidableEq, Repr

theorem length_lt_of_not_mem {l : List Nat} {n i : Nat} (hl : l.Nodup) (hb : ∀ j ∈ l, j < n)
    (hi : i < n) (hn : i ∉ l) : l.length < n := by
  have hsub : (i :: l).Subperm (List.range n) :=
    List.subperm_of_subset (List.nodup_cons.mpr ⟨hn, hl⟩) fun j hj => by
      rcases List.mem_cons.mp hj with rfl | hj
      · exact List.mem_range.mpr hi
      · exact List.mem_range.mpr (hb j hj)
  simpa using hsub.length_le

theorem nodup_concat {l : List Nat} {i : Nat} (hl : l.Nodup) (hn : i ∉ l) : (l ++ [i]).Nodup :=
  hl.append (List.nodup_singleton i) (List.disjoint_singleton.mpr hn)

/-! ## `when_all` -/

namespace WhenAll

variable (n : Nat)

/-- `WhenAllState` over `n` tasks, with the coroutine's place and, as ghost state, the
completed children, the drivers whose `fetch_sub` returned 1, and how often the coroutine went
past its awaiter. -/
structure State where
  remaining : Nat
  continuation : Bool
  parent : Parent
  completed : List Nat
  observers : List Nat
  resumptions : Nat
  deriving DecidableEq, Repr

def init : State := ⟨n, false, .starting 0, [], [], 0⟩

/-- The driver of child `i` past `co_await task`: `fetch_sub(1)` returns the old count, and
the driver that sees 1 resumes the stored continuation, if there is one. -/
def finish (s : State) (i : Nat) : State :=
  let s' := { s with remaining := s.remaining - 1, completed := s.completed ++ [i] }
  if s.remaining = 1 then
    if s.continuation then
      { s' with observers := s.observers ++ [i], parent := .resumed, resumptions := s.resumptions + 1 }
    else { s' with observers := s.observers ++ [i] }
  else s'

/-- `await_ready` returns `remaining == 0`; otherwise `await_suspend` stores the handle, and
its own load of `remaining` reads the count `await_ready` read. -/
def await (s : State) : State :=
  if s.remaining = 0 then { s with parent := .resumed, resumptions := s.resumptions + 1 }
  else { s with parent := .suspended, continuation := true }

def step (s : State) : Event → State
  | .start =>
    match s.parent with
    | .starting k => if k < n then { s with parent := .starting (k + 1) } else s
    | _ => s
  | .await =>
    match s.parent with
    | .starting k => if k = n then await s else s
    | _ => s
  | .complete i => if i < s.parent.started n ∧ i ∉ s.completed then finish s i else s

inductive Reachable : State → Prop
  | init : Reachable (init n)
  | next {s} : Reachable s → ∀ e, Reachable (step n s e)

def run (evs : List Event) : State := evs.foldl (step n) (init n)

theorem reachable_run (evs : List Event) : Reachable n (run n evs) := by
  suffices ∀ s, Reachable n s → Reachable n (evs.foldl (step n) s) from this _ .init
  induction evs with
  | nil => exact fun _ h => h
  | cons e evs ih => exact fun s h => ih _ (h.next e)

/-- The counter counts the children still running, the drivers that saw it reach zero are
the last child to complete, and the coroutine has gone past its awaiter once, when the
counter is zero, or not at all. -/
structure Inv (s : State) : Prop where
  count : s.remaining + s.completed.length = n
  nodup : s.completed.Nodup
  started : ∀ i ∈ s.completed, i < s.parent.started n
  bound : s.parent.started n ≤ n
  observers : s.observers = if s.remaining = 0 then s.completed.getLast?.toList else []
  waiting : s.parent = .suspended → s.continuation = true ∧ 0 < s.remaining
  fresh : ∀ k, s.parent = .starting k → s.continuation = false
  past : s.parent = .resumed → s.remaining = 0
  resumptions : s.resumptions = if s.parent = .resumed then 1 else 0

theorem inv_init : Inv n (init n) where
  count := rfl
  nodup := List.nodup_nil
  started _ h := by simp [init] at h
  bound := Nat.zero_le n
  observers := by by_cases h : n = 0 <;> simp [init, h]
  waiting h := by cases h
  fresh _ _ := rfl
  past h := by cases h
  resumptions := rfl

variable {n}

theorem finish_inv {s : State} (hs : Inv n s) {i : Nat} (hi : i < s.parent.started n)
    (hn : i ∉ s.completed) : Inv n (finish s i) := by
  have hlt := length_lt_of_not_mem hs.nodup
    (fun j hj => Nat.lt_of_lt_of_le (hs.started j hj) hs.bound) (Nat.lt_of_lt_of_le hi hs.bound) hn
  have hcount := hs.count
  have hstarted : ∀ j ∈ s.completed ++ [i], j < s.parent.started n :=
    List.forall_mem_append.mpr ⟨hs.started, List.forall_mem_singleton.mpr hi⟩
  have hlen : (s.completed ++ [i]).length = s.completed.length + 1 := by simp
  unfold finish
  by_cases h1 : s.remaining = 1
  · have hnres : s.parent ≠ .resumed := fun h => by have := hs.past h; omega
    rw [if_pos h1]
    split
    · refine ⟨by simp only [hlen]; omega, nodup_concat hs.nodup hn,
        fun j hj => Nat.lt_of_lt_of_le (hstarted j hj) hs.bound, le_rfl, ?_, nofun, nofun,
        fun _ => by simp [h1], by simp [hs.resumptions, hnres]⟩
      simp [h1, hs.observers]
    · next hc =>
      refine ⟨by simp only [hlen]; omega, nodup_concat hs.nodup hn, hstarted, hs.bound, ?_,
        fun h => by simp [hs.waiting h] at hc, hs.fresh, fun h => absurd h hnres, hs.resumptions⟩
      simp [h1, hs.observers]
  · rw [if_neg h1]
    have hobs : s.observers = [] := by simpa [show s.remaining ≠ 0 by omega] using hs.observers
    refine ⟨by simp only [hlen]; omega, nodup_concat hs.nodup hn, hstarted, hs.bound,
      by simp [hobs, show s.remaining - 1 ≠ 0 by omega], fun h => ⟨(hs.waiting h).1, by dsimp only; omega⟩,
      hs.fresh, fun h => absurd (hs.past h) (by omega), hs.resumptions⟩

theorem await_inv {s : State} (hs : Inv n s) (hp : s.parent = .starting n) : Inv n (await s) := by
  have hst : ∀ i ∈ s.completed, i < n := by simpa [hp, Parent.started] using hs.started
  unfold await
  split
  · next h0 =>
    exact ⟨hs.count, hs.nodup, hst, le_rfl, hs.observers, nofun, nofun, fun _ => h0,
      by simp [hs.resumptions, hp]⟩
  · next h0 =>
    exact ⟨hs.count, hs.nodup, hst, le_rfl, hs.observers, fun _ => ⟨rfl, by dsimp only; omega⟩, nofun, nofun,
      by simp [hs.resumptions, hp]⟩

theorem step_inv {s : State} (hs : Inv n s) (e : Event) : Inv n (step n s e) := by
  cases e with
  | start =>
    simp only [step]
    split
    · next k hp =>
      split
      · next hk =>
        refine ⟨hs.count, hs.nodup, fun i hi => ?_, hk, hs.observers, nofun,
          fun _ _ => hs.fresh k hp, nofun, by simp [hs.resumptions, hp]⟩
        have := hs.started i hi
        simp only [hp, Parent.started] at this ⊢
        omega
      · exact hs
    · exact hs
  | await =>
    simp only [step]
    split
    · next k hp =>
      split
      · next hk => exact await_inv hs (hk ▸ hp)
      · exact hs
    · exact hs
  | complete i =>
    simp only [step]
    split
    · next h => exact finish_inv hs h.1 h.2
    · exact hs

theorem Reachable.inv {s : State} (h : Reachable n s) : Inv n s := by
  induction h with
  | init => exact inv_init n
  | next _ e ih => exact step_inv ih e

/-- Over every interleaving of the start loop, the await and the completions of `n ≥ 1`
children: one driver, the last child's, sees `remaining` fall from 1 to 0, and only once all
`n` have completed; the coroutine goes past its awaiter at most once, only after all `n`
completed, and it has once it reached the awaiter and all have completed. -/
theorem whenAll_resumes_once (hn : 0 < n) {s : State} (h : Reachable n s) :
    s.observers = (if s.completed.length = n then s.completed.getLast?.toList else []) ∧
    (s.completed.length = n → s.observers.length = 1) ∧
    s.resumptions ≤ 1 ∧
    (s.resumptions = 1 → s.completed.length = n) ∧
    ((∀ k, s.parent ≠ .starting k) → s.completed.length = n → s.resumptions = 1) := by
  have hs := h.inv
  have hc := hs.count
  have hobs : s.observers =
      (if s.completed.length = n then s.completed.getLast?.toList else []) := by
    rw [hs.observers]
    by_cases h0 : s.remaining = 0
    · rw [if_pos h0, if_pos (by omega)]
    · rw [if_neg h0, if_neg (by omega)]
  refine ⟨hobs, fun hl => ?_, ?_, fun h1 => ?_, fun hp hl => ?_⟩
  · rw [hobs, if_pos hl]
    cases hlast : s.completed.getLast? with
    | none => rw [List.getLast?_eq_none_iff] at hlast; simp [hlast] at hl; omega
    | some x => rfl
  · rw [hs.resumptions]; split <;> omega
  · rw [hs.resumptions] at h1
    split at h1
    · next hp => have := hs.past hp; omega
    · cases h1
  · rw [hs.resumptions]
    cases hpar : s.parent with
    | starting k => exact absurd hpar (hp k)
    | suspended => have := (hs.waiting hpar).2; omega
    | resumed => rfl

/-- Two children: the first completes while the second driver is being started, the second
after the coroutine suspended, and its driver resumes the coroutine. -/
def lateSchedule : List Event := [.start, .complete 0, .start, .await, .complete 1]

theorem lateSchedule_resumes_once :
    (run 2 lateSchedule).completed = [0, 1] ∧ (run 2 lateSchedule).parent = .resumed ∧
    let s := run 2 lateSchedule
    s.observers = (if s.completed.length = 2 then s.completed.getLast?.toList else []) ∧
    (s.completed.length = 2 → s.observers.length = 1) ∧
    s.resumptions ≤ 1 ∧
    (s.resumptions = 1 → s.completed.length = 2) ∧
    ((∀ k, s.parent ≠ .starting k) → s.completed.length = 2 → s.resumptions = 1) :=
  ⟨by decide, by decide, whenAll_resumes_once (by decide) (reachable_run 2 lateSchedule)⟩

end WhenAll

/-! ## `when_any` -/

namespace WhenAny

variable (n : Nat)

/-- `WhenAnyState` over `n` tasks, with the coroutine's place and, as ghost state, the
completed children, the drivers whose compare-exchange of `done` succeeded, what
`co_await WhenAnyAwaiter{state}` returned, and how often the coroutine went past its awaiter. -/
structure State where
  done : Bool
  winnerIndex : Nat
  continuation : Bool
  parent : Parent
  completed : List Nat
  casWinners : List Nat
  result : Option Nat
  resumptions : Nat
  deriving DecidableEq, Repr

def init : State := ⟨false, 0, false, .starting 0, [], [], none, 0⟩

def resume (s : State) : State :=
  { s with parent := .resumed, result := some s.winnerIndex, resumptions := s.resumptions + 1 }

@[simp] theorem resume_done (s : State) : (resume s).done = s.done := rfl
@[simp] theorem resume_winnerIndex (s : State) : (resume s).winnerIndex = s.winnerIndex := rfl
@[simp] theorem resume_continuation (s : State) : (resume s).continuation = s.continuation := rfl
@[simp] theorem resume_parent (s : State) : (resume s).parent = .resumed := rfl
@[simp] theorem resume_completed (s : State) : (resume s).completed = s.completed := rfl
@[simp] theorem resume_casWinners (s : State) : (resume s).casWinners = s.casWinners := rfl
@[simp] theorem resume_result (s : State) : (resume s).result = some s.winnerIndex := rfl
@[simp] theorem resume_resumptions (s : State) : (resume s).resumptions = s.resumptions + 1 := rfl

/-- The driver of child `i` past `co_await task`: the compare-exchange of `done` from false
to true, and the driver that wins stores its index and resumes the stored continuation, if
there is one. -/
def finish (s : State) (i : Nat) : State :=
  let s' := { s with completed := s.completed ++ [i] }
  if s.done then s'
  else
    let w := { s' with done := true, casWinners := s.casWinners ++ [i], winnerIndex := i }
    if s.continuation then resume w else w

/-- `await_ready` returns `done`; otherwise `await_suspend` stores the handle, and its own
load of `done` reads what `await_ready` read. -/
def await (s : State) : State :=
  if s.done then resume s else { s with parent := .suspended, continuation := true }

def step (s : State) : Event → State
  | .start =>
    match s.parent with
    | .starting k => if k < n then { s with parent := .starting (k + 1) } else s
    | _ => s
  | .await =>
    match s.parent with
    | .starting k => if k = n then await s else s
    | _ => s
  | .complete i => if i < s.parent.started n ∧ i ∉ s.completed then finish s i else s

inductive Reachable : State → Prop
  | init : Reachable init
  | next {s} : Reachable s → ∀ e, Reachable (step n s e)

def run (evs : List Event) : State := evs.foldl (step n) init

theorem reachable_run (evs : List Event) : Reachable n (run n evs) := by
  suffices ∀ s, Reachable n s → Reachable n (evs.foldl (step n) s) from this _ .init
  induction evs with
  | nil => exact fun _ h => h
  | cons e evs ih => exact fun s h => ih _ (h.next e)

/-- `done` is set by the first child to complete, whose driver alone won the compare-exchange
and stored its index; the coroutine has gone past its awaiter once, with that index, or not
at all. -/
structure Inv (s : State) : Prop where
  nodup : s.completed.Nodup
  started : ∀ i ∈ s.completed, i < s.parent.started n
  bound : s.parent.started n ≤ n
  done : s.done = !s.completed.isEmpty
  winners : s.casWinners = s.completed.take 1
  winner : s.done = true → s.completed.head? = some s.winnerIndex
  waiting : s.parent = .suspended → s.continuation = true ∧ s.done = false
  fresh : ∀ k, s.parent = .starting k → s.continuation = false
  past : s.parent = .resumed → s.done = true
  result : s.result = if s.parent = .resumed then some s.winnerIndex else none
  resumptions : s.resumptions = if s.parent = .resumed then 1 else 0

theorem inv_init : Inv n init where
  nodup := List.nodup_nil
  started _ h := by simp [init] at h
  bound := Nat.zero_le n
  done := rfl
  winners := rfl
  winner h := by cases h
  waiting h := by cases h
  fresh _ _ := rfl
  past h := by cases h
  result := rfl
  resumptions := rfl

variable {n}

theorem finish_inv {s : State} (hs : Inv n s) {i : Nat} (hi : i < s.parent.started n)
    (hn : i ∉ s.completed) : Inv n (finish s i) := by
  have hstarted : ∀ j ∈ s.completed ++ [i], j < s.parent.started n :=
    List.forall_mem_append.mpr ⟨hs.started, List.forall_mem_singleton.mpr hi⟩
  unfold finish
  split
  · next hd =>
    have hne : s.completed ≠ [] := by simpa [hs.done] using hd
    obtain ⟨x, xs, hx⟩ := List.exists_cons_of_ne_nil hne
    have hnres : s.parent = .resumed → s.done = true := fun _ => hd
    exact ⟨nodup_concat hs.nodup hn, hstarted, hs.bound, by simp [hx, hd], by simp [hs.winners, hx],
      fun _ => by simpa [hx] using hs.winner hd, fun h => by simp [hs.waiting h] at hd,
      hs.fresh, hnres, hs.result, hs.resumptions⟩
  · next hd =>
    have hnil : s.completed = [] := by simpa [hs.done] using hd
    have hnres : s.parent ≠ .resumed := fun h => by simp [hs.past h] at hd
    have hw : s.casWinners = [] := by simp [hs.winners, hnil]
    split
    · exact ⟨nodup_concat hs.nodup hn, fun j hj => Nat.lt_of_lt_of_le (hstarted j hj) hs.bound,
        le_rfl, by simp [hnil], by simp [hw, hnil], fun _ => by simp [hnil], nofun, nofun,
        fun _ => rfl, by simp [resume], by simp [resume, hs.resumptions, hnres]⟩
    · next hc =>
      exact ⟨nodup_concat hs.nodup hn, hstarted, hs.bound, by simp [hnil], by simp [hw, hnil],
        fun _ => by simp [hnil], fun h => by simp [hs.waiting h] at hc, hs.fresh,
        fun h => absurd h hnres, by simp [hs.result, hnres], hs.resumptions⟩

theorem await_inv {s : State} (hs : Inv n s) (hp : s.parent = .starting n) : Inv n (await s) := by
  have hst : ∀ i ∈ s.completed, i < n := by simpa [hp, Parent.started] using hs.started
  unfold await
  split
  · next hd =>
    exact ⟨hs.nodup, hst, le_rfl, hs.done, hs.winners, hs.winner, nofun, nofun, fun _ => hd,
      by simp [resume], by simp [resume, hs.resumptions, hp]⟩
  · next hd =>
    exact ⟨hs.nodup, hst, le_rfl, hs.done, hs.winners, hs.winner,
      fun _ => ⟨rfl, by simpa using hd⟩, nofun, nofun, by simp [hs.result, hp],
      by simp [hs.resumptions, hp]⟩

theorem step_inv {s : State} (hs : Inv n s) (e : Event) : Inv n (step n s e) := by
  cases e with
  | start =>
    simp only [step]
    split
    · next k hp =>
      split
      · next hk =>
        refine ⟨hs.nodup, fun i hi => ?_, hk, hs.done, hs.winners, hs.winner, nofun,
          fun _ _ => hs.fresh k hp, nofun, by simp [hs.result, hp], by simp [hs.resumptions, hp]⟩
        have := hs.started i hi
        simp only [hp, Parent.started] at this ⊢
        omega
      · exact hs
    · exact hs
  | await =>
    simp only [step]
    split
    · next k hp =>
      split
      · next hk => exact await_inv hs (hk ▸ hp)
      · exact hs
    · exact hs
  | complete i =>
    simp only [step]
    split
    · next h => exact finish_inv hs h.1 h.2
    · exact hs

theorem Reachable.inv {s : State} (h : Reachable n s) : Inv n s := by
  induction h with
  | init => exact inv_init n
  | next _ e ih => exact step_inv ih e

theorem step_of_resumed {s : State} (hs : Inv n s) (hp : s.parent = .resumed) (e : Event) :
    (step n s e).parent = .resumed ∧ (step n s e).result = s.result ∧
      (step n s e).resumptions = s.resumptions := by
  cases e with
  | start | await => simp [step, hp]
  | complete i =>
    simp only [step]
    split
    · simp [finish, hs.past hp, hp]
    · exact ⟨hp, rfl, rfl⟩

/-- Over every interleaving of the start loop, the await and the completions: only the
first child to complete wins the compare-exchange; the coroutine goes past its awaiter at
most once, returning that child's index, which is below `n`; once it has reached the
awaiter and a child has completed, it has gone past; and no later step resumes it again or
changes what it returned. -/
theorem whenAny_resumes_once {s : State} (h : Reachable n s) :
    s.casWinners = s.completed.take 1 ∧
    s.resumptions ≤ 1 ∧
    (∀ i, s.result = some i → i < n ∧ s.completed.head? = some i) ∧
    ((∀ k, s.parent ≠ .starting k) → s.completed ≠ [] →
      s.resumptions = 1 ∧ s.result = s.completed.head?) ∧
    (∀ i e, s.result = some i → (step n s e).result = some i ∧ (step n s e).resumptions = 1) := by
  have hs := h.inv
  have hpast : ∀ i, s.result = some i → s.parent = .resumed ∧ s.winnerIndex = i := by
    intro i hi
    rw [hs.result] at hi
    split at hi
    · exact ⟨‹_›, Option.some.inj hi⟩
    · cases hi
  refine ⟨hs.winners, by rw [hs.resumptions]; split <;> omega, fun i hi => ?_, fun hp hne => ?_,
    fun i e hi => ?_⟩
  · obtain ⟨hp, rfl⟩ := hpast i hi
    have hw := hs.winner (hs.past hp)
    exact ⟨Nat.lt_of_lt_of_le (hs.started _ (List.mem_of_mem_head? hw)) hs.bound, hw⟩
  · cases hpar : s.parent with
    | starting k => exact absurd hpar (hp k)
    | suspended => exact absurd (by simpa [hs.done] using (hs.waiting hpar).2) hne
    | resumed => simp [hs.resumptions, hs.result, hpar, hs.winner (hs.past hpar)]
  · obtain ⟨hp, -⟩ := hpast i hi
    obtain ⟨-, hr, hn⟩ := step_of_resumed hs hp e
    rw [hr, hn, hi, hs.resumptions, if_pos hp]
    exact ⟨rfl, rfl⟩

/-- Three children: the second completes while the third driver is still to be started, the
first after it, and the third after the coroutine has gone past its awaiter. -/
def earlySchedule : List Event :=
  [.start, .start, .complete 1, .start, .complete 0, .await, .complete 2]

theorem earlySchedule_returns_first :
    (run 3 earlySchedule).result = some 1 ∧ (run 3 earlySchedule).completed = [1, 0, 2] ∧
    let s := run 3 earlySchedule
    s.casWinners = s.completed.take 1 ∧
    s.resumptions ≤ 1 ∧
    (∀ i, s.result = some i → i < 3 ∧ s.completed.head? = some i) ∧
    ((∀ k, s.parent ≠ .starting k) → s.completed ≠ [] →
      s.resumptions = 1 ∧ s.result = s.completed.head?) ∧
    (∀ i e, s.result = some i → (step 3 s e).result = some i ∧ (step 3 s e).resumptions = 1) :=
  ⟨by decide, by decide, whenAny_resumes_once (reachable_run 3 earlySchedule)⟩

end WhenAny

end Combinators
