import Mathlib.Logic.Function.Basic
import Mathlib.Data.List.Nodup

/-! # ScopedLock: one unlock per acquisition

`AsyncMutex::ScopedLock` objects as `LockAwaiter::await_resume` produces them, then moved,
move-assigned and destroyed in any order. An object is named by `h : H`. Its `mutex_` is
the acquisition it stands for, numbered in the order `await_resume` handed them out; the
mutex of each acquisition is kept beside it. Every `mutex_->unlock()` is logged with the
acquisition it ends. -/
namespace ScopedLock

variable {H M : Type}

structure State (H M : Type) where
  alive : H → Bool
  /-- `mutex_`: the acquisition the object stands for, `none` for `nullptr`. -/
  held : H → Option Nat
  /-- The mutex of each acquisition so far. -/
  acquired : List M
  /-- The acquisitions `unlock()` was called for, in order. -/
  unlocks : List Nat

inductive Op (H M : Type)
  /-- `co_await mutex.scoped_lock()` returns `ScopedLock{mutex_}` into a new object. -/
  | acquire (h : H) (m : M)
  /-- `ScopedLock(ScopedLock&& other)` constructs `dst` from `src`. -/
  | moveConstruct (dst src : H)
  /-- `dst = std::move(src)`. -/
  | moveAssign (dst src : H)
  /-- `~ScopedLock()`. -/
  | destroy (h : H)

def init : State H M := ⟨fun _ => false, fun _ => none, [], []⟩

/-- `if (mutex_) mutex_->unlock();` run by object `h`. -/
def unlockOwn (s : State H M) (h : H) : List Nat := s.unlocks ++ (s.held h).toList

/-- Each acquisition is held by one live object, or has been unlocked once, never both. -/
structure Inv (s : State H M) : Prop where
  alive : ∀ h a, s.held h = some a → s.alive h = true
  bound : ∀ h a, s.held h = some a → a < s.acquired.length
  unique : ∀ h h' a, s.held h = some a → s.held h' = some a → h = h'
  nodup : s.unlocks.Nodup
  released : ∀ h a, s.held h = some a → a ∉ s.unlocks
  logged : ∀ a ∈ s.unlocks, a < s.acquired.length
  accounted : ∀ a < s.acquired.length, a ∈ s.unlocks ∨ ∃ h, s.held h = some a

theorem inv_init : Inv (init : State H M) where
  alive _ _ h := by cases h
  bound _ _ h := by cases h
  unique _ _ _ h := by cases h
  nodup := List.nodup_nil
  released _ _ h := by cases h
  logged _ h := by cases h
  accounted _ h := by cases h

theorem Inv.nodup_unlockOwn {s : State H M} (hs : Inv s) (h : H) : (unlockOwn s h).Nodup := by
  unfold ScopedLock.unlockOwn
  cases hh : s.held h with
  | none => simpa using hs.nodup
  | some a =>
    exact hs.nodup.append (List.nodup_singleton a)
      (List.disjoint_singleton.mpr (hs.released h a hh))

theorem mem_unlockOwn {s : State H M} {h : H} {a : Nat} :
    a ∈ unlockOwn s h ↔ a ∈ s.unlocks ∨ s.held h = some a := by
  cases hh : s.held h <;> simp [ScopedLock.unlockOwn, hh, eq_comm]

theorem unlockOwn_cases (s : State H M) (x : H) :
    unlockOwn s x = s.unlocks ∨ ∃ a, s.held x = some a ∧ unlockOwn s x = s.unlocks ++ [a] := by
  cases hx : s.held x with
  | none => exact .inl (by simp [unlockOwn, hx])
  | some a => exact .inr ⟨a, rfl, by simp [unlockOwn, hx]⟩

variable [DecidableEq H]

/-- `mutex_ = other.mutex_; other.mutex_ = nullptr;` from `src` to `dst`. -/
def transfer (held : H → Option Nat) (dst src : H) : H → Option Nat :=
  Function.update (Function.update held dst (held src)) src none

/-- One operation on live objects; an operation on an object that is not there (or, for a
construction, that is) changes nothing. -/
def step (s : State H M) : Op H M → State H M
  | .acquire h m =>
    if s.alive h then s
    else { s with alive := Function.update s.alive h true,
                  held := Function.update s.held h (some s.acquired.length),
                  acquired := s.acquired ++ [m] }
  | .moveConstruct dst src =>
    if s.alive dst ∨ s.alive src = false then s
    else { s with alive := Function.update s.alive dst true, held := transfer s.held dst src }
  | .moveAssign dst src =>
    if s.alive dst = false ∨ s.alive src = false then s
    else if dst = src then s
    else { s with held := transfer s.held dst src, unlocks := unlockOwn s dst }
  | .destroy h =>
    if s.alive h = false then s
    else { s with alive := Function.update s.alive h false,
                  held := Function.update s.held h none,
                  unlocks := unlockOwn s h }

inductive Reachable : State H M → Prop
  | init : Reachable init
  | next {s} : Reachable s → ∀ op, Reachable (step s op)

def run (ops : List (Op H M)) : State H M := ops.foldl step init

theorem reachable_run (ops : List (Op H M)) : Reachable (run ops) := by
  suffices ∀ s : State H M, Reachable s → Reachable (ops.foldl step s) from this _ .init
  induction ops with
  | nil => exact fun _ h => h
  | cons op ops ih => exact fun s h => ih _ (h.next op)

section
variable {s : State H M}

theorem Inv.acquire (hs : Inv s) {h : H} (hd : s.alive h = false) (m : M) :
    Inv (step s (.acquire h m)) := by
  have hnone : s.held h = none := by
    cases hh : s.held h with
    | none => rfl
    | some a => simp [hs.alive h a hh] at hd
  have hon : ∀ {x a}, Function.update s.held h (some s.acquired.length) x = some a →
      x = h ∧ a = s.acquired.length ∨ x ≠ h ∧ s.held x = some a := by
    intro x a hx
    by_cases hxh : x = h
    · subst hxh; simp at hx; exact .inl ⟨rfl, hx.symm⟩
    · rw [Function.update_noteq hxh] at hx; exact .inr ⟨hxh, hx⟩
  simp only [step, hd, Bool.false_eq_true, if_false]
  refine ⟨fun x a hx => ?_, fun x a hx => ?_, fun x y a hx hy => ?_, hs.nodup, fun x a hx => ?_,
    fun a ha => ?_, fun a ha => ?_⟩
  · rcases hon hx with ⟨rfl, -⟩ | ⟨hxh, hx⟩
    · simp
    · simpa [Function.update_noteq hxh] using hs.alive x a hx
  · rcases hon hx with ⟨-, rfl⟩ | ⟨-, hx⟩
    · simp
    · have := hs.bound x a hx; simp; omega
  · rcases hon hx with ⟨rfl, rfl⟩ | ⟨-, hx'⟩ <;> rcases hon hy with ⟨rfl, hay⟩ | ⟨-, hy'⟩
    · rfl
    · have := hs.bound y _ hy'; omega
    · have := hs.bound x _ hx'; omega
    · exact hs.unique x y a hx' hy'
  · rcases hon hx with ⟨-, rfl⟩ | ⟨-, hx⟩
    · exact fun hm => by have := hs.logged _ hm; omega
    · exact hs.released x a hx
  · have := hs.logged a ha; simp; omega
  · simp only [List.length_append, List.length_singleton] at ha
    by_cases hlt : a < s.acquired.length
    · rcases hs.accounted a hlt with hu | ⟨x, hx⟩
      · exact .inl hu
      · have hxh : x ≠ h := by rintro rfl; simp [hnone] at hx
        exact .inr ⟨x, by simp [Function.update_noteq hxh, hx]⟩
    · exact .inr ⟨h, by simp; omega⟩

theorem transfer_eq_some {held : H → Option Nat} {dst src x : H} {a : Nat}
    (h : transfer held dst src x = some a) :
    x ≠ src ∧ (x = dst ∧ held src = some a ∨ x ≠ dst ∧ held x = some a) := by
  unfold transfer at h
  by_cases hxs : x = src
  · subst hxs; simp at h
  · rw [Function.update_noteq hxs] at h
    by_cases hxd : x = dst
    · subst hxd; simp at h; exact ⟨hxs, .inl ⟨rfl, h⟩⟩
    · rw [Function.update_noteq hxd] at h; exact ⟨hxs, .inr ⟨hxd, h⟩⟩

theorem transfer_of_src {held : H → Option Nat} {dst src : H} (hne : dst ≠ src) :
    transfer held dst src dst = held src := by
  simp [transfer, hne]

theorem transfer_of_ne {held : H → Option Nat} {dst src x : H} (hd : x ≠ dst) (hs : x ≠ src) :
    transfer held dst src x = held x := by
  simp [transfer, hd, hs]

/-- Where `transfer` finds an acquisition: at `dst` if it was at `src`, else where it was. -/
def origin (dst src x : H) : H := if x = dst then src else x

theorem transfer_origin {held : H → Option Nat} {dst src x : H} {a : Nat}
    (h : transfer held dst src x = some a) : held (origin dst src x) = some a ∧ x ≠ src := by
  obtain ⟨hxs, ⟨rfl, hsa⟩ | ⟨hxd, hxa⟩⟩ := transfer_eq_some h
  · simp [origin, hsa, hxs]
  · simp [origin, hxd, hxa, hxs]

theorem transfer_unique (hs : Inv s) {dst src x y : H} {a : Nat}
    (hx : transfer s.held dst src x = some a) (hy : transfer s.held dst src y = some a) : x = y := by
  obtain ⟨hx', hxs⟩ := transfer_origin hx
  obtain ⟨hy', hys⟩ := transfer_origin hy
  have := hs.unique _ _ a hx' hy'
  unfold origin at this
  split_ifs at this with h1 h2 h2 <;> subst_vars <;> first | rfl | exact absurd rfl hxs | exact absurd rfl hys

/-- An acquisition some object held is still held after `transfer`, unless `dst` held it. -/
theorem transfer_keeps {dst src y : H} {a : Nat} (hne : dst ≠ src)
    (hy : s.held y = some a) (hyd : y ≠ dst) : ∃ x, transfer s.held dst src x = some a := by
  by_cases hys : y = src
  · subst hys; exact ⟨dst, by rw [transfer_of_src hne, hy]⟩
  · exact ⟨y, by rw [transfer_of_ne hyd hys, hy]⟩

theorem Inv.moveConstruct (hs : Inv s) {dst src : H} (hd : s.alive dst = false)
    (hsrc : s.alive src = true) :
    Inv { s with alive := Function.update s.alive dst true, held := transfer s.held dst src } := by
  have hne : dst ≠ src := by rintro rfl; simp_all
  have hnone : s.held dst = none := by
    cases hh : s.held dst with
    | none => rfl
    | some a => simp [hs.alive dst a hh] at hd
  refine ⟨fun x a hx => ?_, fun x a hx => hs.bound _ a (transfer_origin hx).1,
    fun x y a hx hy => transfer_unique hs hx hy, hs.nodup,
    fun x a hx => hs.released _ a (transfer_origin hx).1, hs.logged, fun a ha => ?_⟩
  · by_cases hxd : x = dst
    · subst hxd; simp
    · obtain ⟨hxs, -⟩ := transfer_eq_some hx
      dsimp only at hx ⊢
      rw [transfer_of_ne hxd hxs] at hx
      rw [Function.update_noteq hxd]
      exact hs.alive x a hx
  · rcases hs.accounted a ha with hu | ⟨y, hy⟩
    · exact .inl hu
    · exact .inr (transfer_keeps hne hy (by rintro rfl; simp [hnone] at hy))

theorem Inv.moveAssign (hs : Inv s) {dst src : H} (hd : s.alive dst = true) (hne : dst ≠ src) :
    Inv { s with held := transfer s.held dst src, unlocks := unlockOwn s dst } := by
  refine ⟨fun x a hx => ?_, fun x a hx => hs.bound _ a (transfer_origin hx).1,
    fun x y a hx hy => transfer_unique hs hx hy, hs.nodup_unlockOwn dst, fun x a hx hm => ?_,
    fun a ha => ?_, fun a ha => ?_⟩
  · obtain ⟨hxs, ⟨rfl, -⟩ | ⟨-, h⟩⟩ := transfer_eq_some hx
    · exact hd
    · exact hs.alive x a h
  · obtain ⟨hx', hxs⟩ := transfer_origin hx
    rcases mem_unlockOwn.mp hm with hu | hd'
    · exact hs.released _ a hx' hu
    · have := hs.unique _ _ a hx' hd'
      unfold origin at this
      split_ifs at this with h1
      · exact hne this.symm
      · exact h1 this
  · rcases mem_unlockOwn.mp ha with hu | hd'
    · exact hs.logged a hu
    · exact hs.bound dst a hd'
  · rcases hs.accounted a ha with hu | ⟨y, hy⟩
    · exact .inl (mem_unlockOwn.mpr (.inl hu))
    · by_cases hyd : y = dst
      · subst hyd; exact .inl (mem_unlockOwn.mpr (.inr hy))
      · exact .inr (transfer_keeps hne hy hyd)

theorem Inv.destroy (hs : Inv s) {h : H} :
    Inv { s with alive := Function.update s.alive h false, held := Function.update s.held h none,
                 unlocks := unlockOwn s h } := by
  have hoff : ∀ {x a}, Function.update s.held h none x = some a → x ≠ h ∧ s.held x = some a := by
    intro x a hx
    by_cases hxh : x = h
    · subst hxh; simp at hx
    · rw [Function.update_noteq hxh] at hx; exact ⟨hxh, hx⟩
  refine ⟨fun x a hx => ?_, fun x a hx => hs.bound x a (hoff hx).2,
    fun x y a hx hy => hs.unique x y a (hoff hx).2 (hoff hy).2, hs.nodup_unlockOwn h,
    fun x a hx hm => ?_, fun a ha => ?_, fun a ha => ?_⟩
  · obtain ⟨hxh, hx⟩ := hoff hx
    dsimp only; rw [Function.update_noteq hxh]; exact hs.alive x a hx
  · obtain ⟨hxh, hx⟩ := hoff hx
    rcases mem_unlockOwn.mp hm with hu | hh
    · exact hs.released x a hx hu
    · exact hxh (hs.unique x h a hx hh)
  · rcases mem_unlockOwn.mp ha with hu | hh
    · exact hs.logged a hu
    · exact hs.bound h a hh
  · rcases hs.accounted a ha with hu | ⟨y, hy⟩
    · exact .inl (mem_unlockOwn.mpr (.inl hu))
    · by_cases hyh : y = h
      · subst hyh; exact .inl (mem_unlockOwn.mpr (.inr hy))
      · exact .inr ⟨y, by dsimp only; rw [Function.update_noteq hyh]; exact hy⟩

theorem Inv.step (hs : Inv s) (op : Op H M) : Inv (step s op) := by
  cases op with
  | acquire h m =>
    by_cases hd : s.alive h
    · simp [ScopedLock.step, hd, hs]
    · exact hs.acquire (by simpa using hd) m
  | moveConstruct dst src =>
    simp only [ScopedLock.step]
    split
    · exact hs
    · next hc =>
      simp only [not_or, Bool.not_eq_false] at hc
      exact hs.moveConstruct (by simpa using hc.1) hc.2
  | moveAssign dst src =>
    simp only [ScopedLock.step]
    split
    · exact hs
    · next hc =>
      simp only [not_or, Bool.not_eq_false] at hc
      split
      · exact hs
      · next hne => exact hs.moveAssign hc.1 hne
  | destroy h =>
    simp only [ScopedLock.step]
    split
    · exact hs
    · exact hs.destroy

end

theorem Reachable.inv {s : State H M} (h : Reachable s) : Inv s := by
  induction h with
  | init => exact inv_init
  | next _ op ih => exact ih.step op

/-- An operation calls `unlock()` at most once, by an object for the acquisition it holds. -/
theorem step_unlocks (s : State H M) (op : Op H M) :
    (step s op).unlocks = s.unlocks ∨
      ∃ x a, s.held x = some a ∧ (step s op).unlocks = s.unlocks ++ [a] := by
  cases op with
  | acquire h m => simp only [step]; split <;> exact .inl rfl
  | moveConstruct dst src => simp only [step]; split <;> exact .inl rfl
  | moveAssign dst src =>
    simp only [step]
    split
    · exact .inl rfl
    · split
      · exact .inl rfl
      · exact (unlockOwn_cases s dst).imp id fun ⟨a, ha, he⟩ => ⟨dst, a, ha, he⟩
  | destroy h =>
    simp only [step]
    split
    · exact .inl rfl
    · exact (unlockOwn_cases s h).imp id fun ⟨a, ha, he⟩ => ⟨h, a, ha, he⟩

/-- Over every sequence of acquisitions, moves, move-assignments (onto the object itself, or
onto one that holds an acquisition) and destructions: `unlock()` is called at most once per
acquisition; each acquisition is held by exactly one object or has been unlocked, never
both; once every object is destroyed, each has been unlocked exactly once; and an operation
calls `unlock()` at most once, for an acquisition an object held just before and no object
holds after. -/
theorem scopedLock_unlocks_once {s : State H M} (h : Reachable s) :
    s.unlocks.Nodup ∧
    (∀ a < s.acquired.length,
      a ∈ s.unlocks ∧ (∀ x, s.held x ≠ some a) ∨
        a ∉ s.unlocks ∧ ∃ x, s.held x = some a ∧ ∀ y, s.held y = some a → y = x) ∧
    ((∀ x, s.alive x = false) → ∀ a < s.acquired.length, s.unlocks.count a = 1) ∧
    ∀ op, (step s op).unlocks = s.unlocks ∨
      ∃ x a, s.held x = some a ∧ (step s op).unlocks = s.unlocks ++ [a] ∧
        ∀ y, (step s op).held y ≠ some a := by
  have hs := h.inv
  refine ⟨hs.nodup, fun a ha => ?_, fun hdead a ha => ?_, fun op => ?_⟩
  · rcases hs.accounted a ha with hu | ⟨x, hx⟩
    · exact .inl ⟨hu, fun x hx => hs.released x a hx hu⟩
    · exact .inr ⟨hs.released x a hx, x, hx, fun y hy => hs.unique y x a hy hx⟩
  · rcases hs.accounted a ha with hu | ⟨x, hx⟩
    · exact List.count_eq_one_of_mem hs.nodup hu
    · exact absurd (hs.alive x a hx) (by simp [hdead x])
  · refine (step_unlocks s op).imp id fun ⟨x, a, hx, he⟩ => ⟨x, a, hx, he, fun y hy => ?_⟩
    exact (hs.step op).released y a hy (by simp [he])

/-- Two objects and two mutexes: a move, a self-assignment, the destruction of the
moved-from object, an assignment onto the object that holds the first acquisition, and the
destruction of both. -/
def handoffOps : List (Op (Fin 2) (Fin 2)) :=
  [.acquire 0 0, .moveConstruct 1 0, .moveAssign 1 1, .destroy 0, .acquire 0 1, .moveAssign 1 0,
   .destroy 0, .destroy 1]

theorem handoffOps_unlock_each_once :
    (run handoffOps).unlocks = [0, 1] ∧ (∀ x, (run handoffOps).alive x = false) ∧
    let s := run handoffOps
    s.unlocks.Nodup ∧
    (∀ a < s.acquired.length,
      a ∈ s.unlocks ∧ (∀ x, s.held x ≠ some a) ∨
        a ∉ s.unlocks ∧ ∃ x, s.held x = some a ∧ ∀ y, s.held y = some a → y = x) ∧
    ((∀ x, s.alive x = false) → ∀ a < s.acquired.length, s.unlocks.count a = 1) ∧
    ∀ op, (step s op).unlocks = s.unlocks ∨
      ∃ x a, s.held x = some a ∧ (step s op).unlocks = s.unlocks ++ [a] ∧
        ∀ y, (step s op).held y ≠ some a :=
  ⟨by decide, by decide, scopedLock_unlocks_once (reachable_run handoffOps)⟩

end ScopedLock
