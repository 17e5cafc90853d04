import Mathlib.Logic.Function.Basic

/-! # WinsockInit: concurrent calls of `init()`

`WinsockInit::init` of `transport/winsock_init.hpp`, which `initialize()` and `ensure()` call on
the one singleton. A step is one access of one caller to the singleton's fields
`initialized_`, `initializing_`, `error_code_` and `wsa_data_`, or its call of `WSAStartup`,
whose answer the environment gives. Interleavings are sequentially consistent; the caller left
in the spin loop below needs no reordering. A caller that has returned may call `init()` again. -/
namespace WinsockInit

/-- `WSAVERNOTSUPPORTED` of `winsock2.h`, not among the sources. -/
def wsaVerNotSupported : Int := 10092

def loByte (w : UInt16) : UInt8 := w.toUInt8

def hiByte (w : UInt16) : UInt8 := (w >>> 8).toUInt8

/-- What `WSAStartup(MAKEWORD(2, 2), &wsa_data_)` returns, and the `wVersion` it writes. -/
structure Startup where
  result : Int
  wVersion : UInt16
  deriving DecidableEq, Repr

/-- Where a caller is in `init()`: `cas` is the `compare_exchange_strong` on `initializing_`,
`spin` the loop `while (!initialized_.load()) Sleep(0)` and `spinReturn` its
`return error_code_ == 0`; `startup` calls `WSAStartup`, `startupFailed r` writes
`error_code_ = r`, `checkVersion` reads the bytes of `wVersion`, `versionFailed` writes
`WSAVERNOTSUPPORTED` and calls `WSACleanup`, `release` stores `initializing_ = false` and
returns false, `succeed` writes `error_code_ = 0`, and `publish` stores `initialized_ = true`
and returns true. -/
inductive Phase
  | idle
  | cas
  | spin
  | spinReturn
  | startup
  | startupFailed (result : Int)
  | checkVersion
  | versionFailed
  | release
  | succeed
  | publish
  | done (ok : Bool)
  deriving DecidableEq, Repr

/-- The caller won the compare-exchange and has neither given `initializing_` back nor
published `initialized_`. -/
def Phase.holds : Phase → Bool
  | .startup | .startupFailed _ | .checkVersion | .versionFailed | .release | .succeed
  | .publish => true
  | _ => false

/-- The singleton; of `wsa_data_` only `wVersion` is read. -/
structure State (T : Type) where
  initialized : Bool
  initializing : Bool
  errorCode : Int
  wVersion : UInt16
  phase : T → Phase

variable {T : Type}

def initial : State T := ⟨false, false, 0, 0, fun _ => .idle⟩

section
variable [DecidableEq T]

def setPhase (s : State T) (t : T) (p : Phase) : State T :=
  { s with phase := Function.update s.phase t p }

/-- One step of caller `t`; `env` is what `WSAStartup` answers if this step calls it. A caller
outside `init()` calls it and makes the load of the fast path. -/
def step (s : State T) (t : T) (env : Startup) : State T :=
  match s.phase t with
  | .idle | .done _ => setPhase s t (if s.initialized then .done true else .cas)
  | .cas =>
    if s.initializing then setPhase s t .spin
    else { setPhase s t .startup with initializing := true }
  | .spin => setPhase s t (if s.initialized then .spinReturn else .spin)
  | .spinReturn => setPhase s t (.done (s.errorCode == 0))
  | .startup =>
    { setPhase s t (if env.result ≠ 0 then .startupFailed env.result else .checkVersion) with
      wVersion := env.wVersion }
  | .startupFailed result => { setPhase s t .release with errorCode := result }
  | .checkVersion =>
    setPhase s t
      (if loByte s.wVersion ≠ 2 ∨ hiByte s.wVersion ≠ 2 then .versionFailed else .succeed)
  | .versionFailed => { setPhase s t .release with errorCode := wsaVerNotSupported }
  | .release => { setPhase s t (.done false) with initializing := false }
  | .succeed => { setPhase s t .publish with errorCode := 0 }
  | .publish => { setPhase s t (.done true) with initialized := true }

inductive Reachable : State T → Prop
  | init : Reachable initial
  | next {s} : Reachable s → ∀ t env, Reachable (step s t env)

def run (s : State T) : List (T × Startup) → State T
  | [] => s
  | (t, env) :: rest => run (step s t env) rest

theorem Reachable.run {s : State T} (h : Reachable s) (sched : List (T × Startup)) :
    Reachable (run s sched) := by
  induction sched generalizing s with
  | nil => exact h
  | cons e rest ih => exact ih (h.next e.1 e.2)

@[simp] theorem setPhase_phase (s : State T) (t u : T) (p : Phase) :
    (setPhase s t p).phase u = if u = t then p else s.phase u := Function.update_apply ..

@[simp] theorem setPhase_initialized (s : State T) (t : T) (p : Phase) :
    (setPhase s t p).initialized = s.initialized := rfl

@[simp] theorem setPhase_initializing (s : State T) (t : T) (p : Phase) :
    (setPhase s t p).initializing = s.initializing := rfl

@[simp] theorem setPhase_errorCode (s : State T) (t : T) (p : Phase) :
    (setPhase s t p).errorCode = s.errorCode := rfl

theorem step_frame (s : State T) (t : T) (env : Startup) :
    (∀ u, u ≠ t → (step s t env).phase u = s.phase u) ∧
      ((step s t env).initialized = true ↔ s.initialized = true ∨ s.phase t = .publish) := by
  unfold step
  split <;> (try split) <;> simp_all

theorem step_spin {s : State T} {t : T} (ht : s.phase t = .spin) (u : T) (env : Startup) :
    (step s u env).phase t = .spin ∨ (step s u env).initialized = true := by
  by_cases hu : t = u
  · subst hu
    simp only [step, ht, setPhase_phase, if_pos rfl]
    split <;> simp_all
  · exact .inl (((step_frame s u env).1 t hu).trans ht)

theorem run_initialized {s : State T} (hs : s.initialized = true) (sched : List (T × Startup)) :
    (run s sched).initialized = true := by
  induction sched generalizing s with
  | nil => exact hs
  | cons e rest ih => exact ih ((step_frame s e.1 e.2).2.mpr (.inl hs))

theorem run_spin {s : State T} {t : T} (ht : s.phase t = .spin) (sched : List (T × Startup)) :
    (run s sched).phase t = .spin ∨ (run s sched).initialized = true := by
  induction sched generalizing s with
  | nil => exact .inl ht
  | cons e rest ih =>
    rcases step_spin ht e.1 e.2 with h | h
    · exact ih h
    · exact .inr (run_initialized h rest)

theorem run_spin_alone {s : State T} {t : T} (ht : s.phase t = .spin)
    (hi : s.initialized = false) (n : Nat) (env : Startup) :
    (run s (List.replicate n (t, env))).phase t = .spin := by
  induction n generalizing s with
  | zero => exact ht
  | succ n ih =>
    have h : step s t env = setPhase s t .spin := by simp [step, ht, hi]
    exact ih (by rw [h, setPhase_phase, if_pos rfl]) (by rw [h, setPhase_initialized, hi])

end

/-- What a caller's place says about the singleton: past the loop or returned `true` only
once `initialized_` is set, and about to publish only after writing `error_code_ = 0`. -/
def PhaseOK (s : State T) : Phase → Prop
  | .spinReturn | .done true => s.initialized = true
  | .publish => s.errorCode = 0
  | _ => True

/-- One caller at a time holds `initializing_`, which is set exactly while a caller holds it
or once Winsock is up; after that nobody holds it and `error_code_` is 0. -/
structure Inv (s : State T) : Prop where
  exclusive : ∀ u v, (s.phase u).holds → (s.phase v).holds → u = v
  initializing : s.initializing = true ↔ s.initialized = true ∨ ∃ u, (s.phase u).holds
  published : s.initialized = true → ∀ u, (s.phase u).holds = false
  errorCode : s.initialized = true → s.errorCode = 0
  phases : ∀ u, PhaseOK s (s.phase u)

theorem inv_initial : Inv (initial : State T) where
  exclusive _ _ h := by simp [initial, Phase.holds] at h
  initializing := by simp [initial, Phase.holds]
  published h := by cases h
  errorCode h := by cases h
  phases _ := trivial

theorem phaseOK_congr {s s' : State T} (hi : s'.initialized = s.initialized) {p : Phase}
    (he : p = .publish → s'.errorCode = s.errorCode) : PhaseOK s' p ↔ PhaseOK s p := by
  cases p with
  | spinReturn => exact Iff.of_eq (congrArg (· = true) hi)
  | publish => exact Iff.of_eq (congrArg (· = 0) (he rfl))
  | done ok => cases ok <;> simp only [PhaseOK, hi]
  | _ => exact Iff.rfl

theorem Inv.not_initialized {s : State T} (hs : Inv s) {t : T} (ht : (s.phase t).holds) :
    s.initialized = false := by
  cases h : s.initialized
  · rfl
  · simp [hs.published h t] at ht

theorem Inv.others {s : State T} (hs : Inv s) {t : T} (ht : (s.phase t).holds) {u : T}
    (hu : u ≠ t) : (s.phase u).holds = false := by
  cases h : (s.phase u).holds
  · rfl
  · exact absurd (hs.exclusive u t h ht) hu

theorem phaseOK_of_initialized {s : State T} (h : s.initialized = true) {q : Phase}
    (hq : q.holds = false) : PhaseOK s q := by
  cases q with
  | spinReturn => exact h
  | publish => cases hq
  | done ok =>
    cases ok with
    | false => trivial
    | true => exact h
  | _ => trivial

section
variable [DecidableEq T]

theorem Inv.update {s s' : State T} (hs : Inv s) {t : T} {p : Phase}
    (hph : s'.phase = Function.update s.phase t p) (hi : s'.initialized = s.initialized)
    (hg : s'.initializing = s.initializing) (he : s'.errorCode = s.errorCode)
    (hh : p.holds = (s.phase t).holds) (hp : PhaseOK s p) : Inv s' := by
  have hholds : ∀ u, (s'.phase u).holds = (s.phase u).holds := fun u => by
    rw [hph, Function.update_apply]; split <;> simp_all
  refine ⟨fun u v hu hv => hs.exclusive u v ?_ ?_, ?_, fun h u => ?_, fun h => ?_, fun u => ?_⟩
  · rwa [← hholds]
  · rwa [← hholds]
  · simpa only [hg, hi, hholds] using hs.initializing
  · rw [hholds]; exact hs.published (hi ▸ h) u
  · rw [he]; exact hs.errorCode (hi ▸ h)
  · rw [phaseOK_congr hi (fun _ => he), hph, Function.update_apply]
    split
    · exact hp
    · exact hs.phases u

theorem Inv.setError {s : State T} (hs : Inv s) {t : T} (ht : (s.phase t).holds) {p : Phase}
    (hp : p.holds) {c : Int} (hc : p = .publish → c = 0) :
    Inv { setPhase s t p with errorCode := c } := by
  have hi := hs.not_initialized ht
  have only : ∀ u, (if u = t then p else s.phase u).holds = true → u = t := fun u hu => by
    by_cases h : u = t
    · exact h
    · rw [if_neg h, hs.others ht h] at hu; cases hu
  refine ⟨fun u v hu hv => ?_, ?_, fun h => by simp [hi] at h, fun h => by simp [hi] at h,
    fun u => ?_⟩
  · simp only [setPhase_phase] at hu hv
    exact (only u hu).trans (only v hv).symm
  · simp only [setPhase_initializing, setPhase_initialized, setPhase_phase]
    exact hs.initializing.trans (iff_of_true (.inr ⟨t, ht⟩) (.inr ⟨t, by simp [hp]⟩))
  · simp only [setPhase_phase]
    split
    · cases p with
      | publish => exact hc rfl
      | spinReturn | done _ => simp [Phase.holds] at hp
      | _ => trivial
    · next h =>
      have hn := hs.others ht h
      refine (phaseOK_congr ?_ fun hq => ?_).mpr (hs.phases u)
      · rfl
      · rw [hq] at hn; cases hn

theorem Inv.acquire {s : State T} (hs : Inv s) {t : T} (hg : s.initializing = false) :
    Inv { setPhase s t .startup with initializing := true } := by
  have hfree := hs.initializing
  simp only [hg, Bool.false_eq_true, false_iff, not_or, not_exists, Bool.not_eq_true] at hfree
  have only : ∀ u, (if u = t then Phase.startup else s.phase u).holds = true → u = t :=
    fun u hu => by
      by_cases h : u = t
      · exact h
      · rw [if_neg h, hfree.2 u] at hu; cases hu
  refine ⟨fun u v hu hv => ?_, ?_, fun h => by simp [hfree.1] at h,
    fun h => by simp [hfree.1] at h, fun u => ?_⟩
  · simp only [setPhase_phase] at hu hv
    exact (only u hu).trans (only v hv).symm
  · exact iff_of_true rfl (.inr ⟨t, by simp [Phase.holds]⟩)
  · simp only [setPhase_phase]
    split
    · trivial
    · exact (phaseOK_congr rfl fun _ => rfl).mpr (hs.phases u)

theorem Inv.release {s : State T} (hs : Inv s) {t : T} (ht : s.phase t = .release) :
    Inv { setPhase s t (.done false) with initializing := false } := by
  have hh : (s.phase t).holds := by rw [ht]; rfl
  have hi := hs.not_initialized hh
  have none : ∀ u, (if u = t then Phase.done false else s.phase u).holds = false := fun u => by
    by_cases h : u = t
    · rw [if_pos h]; rfl
    · rw [if_neg h]; exact hs.others hh h
  refine ⟨fun u _ hu => ?_, ?_, fun h => by simp [hi] at h, fun h => by simp [hi] at h,
    fun u => ?_⟩
  · simp only [setPhase_phase, none] at hu; cases hu
  · simp [hi, none]
  · simp only [setPhase_phase]
    split
    · trivial
    · exact (phaseOK_congr rfl fun _ => rfl).mpr (hs.phases u)

theorem Inv.publish {s : State T} (hs : Inv s) {t : T} (ht : s.phase t = .publish) :
    Inv { setPhase s t (.done true) with initialized := true } := by
  have hh : (s.phase t).holds := by rw [ht]; rfl
  have he : s.errorCode = 0 := by have := hs.phases t; rwa [ht] at this
  have none : ∀ u, (if u = t then Phase.done true else s.phase u).holds = false := fun u => by
    by_cases h : u = t
    · rw [if_pos h]; rfl
    · rw [if_neg h]; exact hs.others hh h
  refine ⟨fun u _ hu => ?_, ?_, fun _ u => ?_, fun _ => he, fun u => ?_⟩
  · simp only [setPhase_phase, none] at hu; cases hu
  · exact iff_of_true (hs.initializing.mpr (.inr ⟨t, hh⟩)) (.inl rfl)
  · simp only [setPhase_phase, none]
  · simp only [setPhase_phase]
    exact phaseOK_of_initialized rfl (none u)

theorem step_inv {s : State T} (hs : Inv s) (t : T) (env : Startup) : Inv (step s t env) := by
  have upd : ∀ p, p.holds = (s.phase t).holds → PhaseOK s p → Inv (setPhase s t p) :=
    fun p hh hp => hs.update rfl rfl rfl rfl hh hp
  have hold : ∀ {q}, s.phase t = q → q.holds → (s.phase t).holds := fun h hq => h ▸ hq
  cases hp : s.phase t with
  | idle | done =>
    simp only [step, hp]
    split
    · next h => exact upd _ (by rw [hp]; rfl) h
    · exact upd _ (by rw [hp]; rfl) trivial
  | cas =>
    simp only [step, hp]
    split
    · exact upd _ (by rw [hp]; rfl) trivial
    · next h => exact hs.acquire (by simpa using h)
  | spin =>
    simp only [step, hp]
    split
    · next h => exact upd _ (by rw [hp]; rfl) h
    · exact upd _ (by rw [hp]) trivial
  | spinReturn =>
    have hi : s.initialized = true := by have := hs.phases t; rwa [hp] at this
    simp only [step, hp]
    exact upd _ (by rw [hp]; rfl) (phaseOK_of_initialized hi rfl)
  | startup =>
    simp only [step, hp]
    exact hs.update rfl rfl rfl rfl (by rw [hp]; split <;> rfl) (by split <;> trivial)
  | startupFailed r =>
    simp only [step, hp]
    exact hs.setError (hold hp rfl) (by rfl) (by nofun)
  | checkVersion =>
    simp only [step, hp]
    exact upd _ (by rw [hp]; split <;> rfl) (by split <;> trivial)
  | versionFailed =>
    simp only [step, hp]
    exact hs.setError (hold hp rfl) (by rfl) (by nofun)
  | release => simp only [step, hp]; exact hs.release hp
  | succeed =>
    simp only [step, hp]
    exact hs.setError (hold hp rfl) (by rfl) fun _ => rfl
  | publish => simp only [step, hp]; exact hs.publish hp

theorem Reachable.inv {s : State T} (h : Reachable s) : Inv s := by
  induction h with
  | init => exact inv_initial
  | next _ t env ih => exact step_inv ih t env

/-- A caller in the spin loop has something to wait for: `initialized_` is set, or another
caller holds `initializing_`. -/
def Covered (s : State T) (t : T) : Prop :=
  s.initialized = true ∨ ∃ u, u ≠ t ∧ (s.phase u).holds = true ∧ s.initializing = true

/-- In every reachable state, a caller in the spin loop has `initialized_` set or another caller
holding `initializing_` exactly while one of the two flags is set. A holder whose `WSAStartup` or
version check failed clears `initializing_` with the caller still in the loop, leaving both
flags false; the caller then stays in the loop until a later `init()` publishes `initialized_`,
and on its own it spins for ever. -/
theorem failed_init_strands_spinner {s : State T} (hs : Reachable s) {t : T}
    (ht : s.phase t = .spin) :
    (Covered s t ↔ s.initialized = true ∨ s.initializing = true) ∧
    (∀ w env, s.phase w = .release → (step s w env).phase t = .spin ∧
      (step s w env).initialized = false ∧ (step s w env).initializing = false) ∧
    (∀ sched, (run s sched).phase t = .spin ∨ (run s sched).initialized = true) ∧
    (s.initialized = false → ∀ n env, (run s (List.replicate n (t, env))).phase t = .spin) := by
  have hinv := hs.inv
  have holder : ∀ {u}, (s.phase u).holds → u ≠ t := fun hu e => by rw [e, ht] at hu; cases hu
  refine ⟨⟨?_, ?_⟩, fun w env hw => ?_, fun sched => run_spin ht sched,
    fun hi n env => run_spin_alone ht hi n env⟩
  · rintro (h | ⟨-, -, -, h⟩)
    · exact .inl h
    · exact .inr h
  · rintro (h | h)
    · exact .inl h
    · cases hi : s.initialized
      · obtain ⟨u, hu⟩ := (hinv.initializing.mp h).resolve_left (by simp [hi])
        exact .inr ⟨u, holder hu, hu, h⟩
      · exact .inl hi
  · have hwt : t ≠ w := fun e => by rw [e, hw] at ht; cases ht
    have hstep : step s w env = { setPhase s w (.done false) with initializing := false } := by
      simp only [step, hw]
    rw [hstep]
    exact ⟨(setPhase_phase ..).trans (by rw [if_neg hwt, ht]),
      hinv.not_initialized (by rw [hw]; rfl), rfl⟩

/-- `WSAStartup` failing with `WSASYSNOTREADY`, 10091 in `winsock2.h`. -/
def notReady : Startup := ⟨10091, 0⟩

/-- Caller 0 wins the compare-exchange and caller 1 enters the loop; caller 0's `WSAStartup`
fails, and it writes `error_code_` and gives `initializing_` back. -/
def strandedSchedule : List (Fin 2 × Startup) :=
  [(0, notReady), (1, notReady), (0, notReady), (1, notReady), (0, notReady), (0, notReady),
    (0, notReady)]

/-- After the failure caller 0 has returned `false`, caller 1 is in the loop with both flags
false and no other caller holding `initializing_`, and on its own it never leaves. -/
theorem failed_startup_strands_caller :
    let s := run (initial : State (Fin 2)) strandedSchedule
    s.phase 0 = .done false ∧ s.phase 1 = .spin ∧ s.initialized = false ∧
      s.initializing = false ∧ ¬Covered s 1 ∧
      ∀ n, (run s (List.replicate n (1, notReady))).phase 1 = .spin := by
  intro s
  have hspin : s.phase 1 = .spin := by decide
  have h := failed_init_strands_spinner (Reachable.init.run strandedSchedule) hspin
  exact ⟨by decide, hspin, by decide, by decide, fun hc => absurd (h.1.mp hc) (by decide),
    fun n => h.2.2.2 (by decide) n notReady⟩

end

/-- The caller has a successful `WSAStartup` that neither `WSACleanup` has given back nor the
store to `initialized_` has handed to the singleton, whose destructor cleans up. -/
def Phase.hasRef : Phase → Bool
  | .checkVersion | .versionFailed | .succeed | .publish => true
  | _ => false

theorem Phase.holds_of_hasRef {p : Phase} (h : p.hasRef) : p.holds := by
  cases p <;> simp_all [Phase.hasRef, Phase.holds]

/-- The singleton, with the number of `WSAStartup` calls that succeeded and of `WSACleanup`
calls made so far. -/
structure Calls (T : Type) where
  s : State T
  startups : Nat
  cleanups : Nat

/-- Successful `WSAStartup` calls exceed `WSACleanup` calls by one exactly while `initialized_`
is set or a caller has a reference, and by none otherwise. -/
structure Balanced (c : Calls T) : Prop where
  le : c.cleanups ≤ c.startups
  atMostOne : c.startups ≤ c.cleanups + 1
  one : c.startups = c.cleanups + 1 ↔ c.s.initialized = true ∨ ∃ u, (c.s.phase u).hasRef = true

theorem balanced_initial : Balanced (⟨initial, 0, 0⟩ : Calls T) :=
  ⟨Nat.le_refl 0, Nat.zero_le _, by simp [initial, Phase.hasRef]⟩

section
variable [DecidableEq T]

def Calls.step (c : Calls T) (t : T) (env : Startup) : Calls T :=
  ⟨WinsockInit.step c.s t env,
    c.startups + if c.s.phase t = .startup ∧ env.result = 0 then 1 else 0,
    c.cleanups + if c.s.phase t = .versionFailed then 1 else 0⟩

def Calls.run (c : Calls T) : List (T × Startup) → Calls T
  | [] => c
  | (t, env) :: rest => (c.step t env).run rest

theorem Calls.run_s (c : Calls T) (sched : List (T × Startup)) :
    (c.run sched).s = WinsockInit.run c.s sched := by
  induction sched generalizing c with
  | nil => rfl
  | cons e rest ih => exact ih _

theorem Balanced.keep {c : Calls T} (hb : Balanced c) {t : T} {p : Phase} {c' : Calls T}
    (hph : c'.s.phase = Function.update c.s.phase t p) (hp : p.hasRef = (c.s.phase t).hasRef)
    (hi : c'.s.initialized = c.s.initialized) (hst : c'.startups = c.startups)
    (hcl : c'.cleanups = c.cleanups) : Balanced c' := by
  have href : ∀ u, (c'.s.phase u).hasRef = (c.s.phase u).hasRef := fun u => by
    rw [hph, Function.update_apply]; split <;> simp_all
  exact ⟨hst ▸ hcl ▸ hb.le, hst ▸ hcl ▸ hb.atMostOne, by simpa only [hst, hcl, hi, href] using hb.one⟩

theorem Balanced.holder {c : Calls T} (hb : Balanced c) (hs : Inv c.s) {t : T}
    (hh : (c.s.phase t).holds) :
    (∀ u, u ≠ t → (c.s.phase u).hasRef = false) ∧
    c.startups = c.cleanups + if (c.s.phase t).hasRef then 1 else 0 := by
  have hnot := hs.not_initialized hh
  have hothers : ∀ u, u ≠ t → (c.s.phase u).hasRef = false := fun u hu => by
    cases h : (c.s.phase u).hasRef
    · rfl
    · exact absurd (hs.others hh hu) (by simp [Phase.holds_of_hasRef h])
  refine ⟨hothers, ?_⟩
  have hle := hb.le
  have hmo := hb.atMostOne
  split
  · exact hb.one.mpr (.inr ⟨t, ‹_›⟩)
  · next hr =>
    have : ¬c.startups = c.cleanups + 1 := fun h => by
      rcases hb.one.mp h with h | ⟨u, hu⟩
      · rw [hnot] at h; cases h
      · by_cases e : u = t
        · exact hr (e ▸ hu)
        · rw [hothers u e] at hu; cases hu
    omega

theorem Balanced.single {c : Calls T} {t : T} (hothers : ∀ u, u ≠ t → (c.s.phase u).hasRef = false)
    (hcount : c.startups = c.cleanups +
      if c.s.initialized = true ∨ (c.s.phase t).hasRef = true then 1 else 0) : Balanced c := by
  have href : (∃ u, (c.s.phase u).hasRef = true) ↔ (c.s.phase t).hasRef = true := by
    refine ⟨fun ⟨u, hu⟩ => ?_, fun h => ⟨t, h⟩⟩
    by_cases e : u = t
    · exact e ▸ hu
    · rw [hothers u e] at hu; cases hu
  by_cases h : c.s.initialized = true ∨ (c.s.phase t).hasRef = true <;>
    simp only [h, if_true, if_false] at hcount <;>
    exact ⟨by omega, by omega, by rw [href]; simp [hcount, h]⟩

theorem hasRef_step {s : State T} {t : T} {env : Startup}
    (h : s.phase t ∉ [.startup, .versionFailed, .publish]) :
    ((WinsockInit.step s t env).phase t).hasRef = (s.phase t).hasRef := by
  unfold WinsockInit.step
  split <;> (try split) <;> simp_all [Phase.hasRef]

theorem Balanced.step {c : Calls T} (hb : Balanced c) (hs : Inv c.s) (t : T) (env : Startup) :
    Balanced (c.step t env) := by
  have hframe := step_frame c.s t env
  have hph : (c.step t env).s.phase = Function.update c.s.phase t ((c.step t env).s.phase t) :=
    funext fun u => by
      by_cases hu : u = t
      · subst hu; simp
      · rw [Function.update_noteq hu]; exact hframe.1 u hu
  have hinit : c.s.phase t ≠ .publish → (c.step t env).s.initialized = c.s.initialized :=
    fun h => Bool.eq_iff_iff.mpr (by simpa [h] using hframe.2)
  have hothers' : (c.s.phase t).holds → ∀ u, u ≠ t → ((c.step t env).s.phase u).hasRef = false :=
    fun hh u hu => by rw [hph, Function.update_noteq hu]; exact (hb.holder hs hh).1 u hu
  have hcount : (c.s.phase t).holds → c.startups = c.cleanups + if (c.s.phase t).hasRef then 1 else 0 :=
    fun hh => (hb.holder hs hh).2
  cases hp : c.s.phase t
  case startup =>
    have hh : (c.s.phase t).holds := by rw [hp]; rfl
    by_cases hr : env.result = 0
    · refine Balanced.single (hothers' hh) ?_
      simp only [Calls.step, WinsockInit.step, hp, hr, hinit (by rw [hp]; nofun), hs.not_initialized hh]
      simpa [hp, Phase.hasRef] using hcount hh
    · refine hb.keep hph ?_ (hinit (by rw [hp]; nofun)) ?_ ?_ <;>
        simp [Calls.step, WinsockInit.step, hp, hr, Phase.hasRef]
  case versionFailed =>
    have hh : (c.s.phase t).holds := by rw [hp]; rfl
    refine Balanced.single (hothers' hh) ?_
    simp only [Calls.step, WinsockInit.step, hp, hinit (by rw [hp]; nofun)]
    simpa [hp, Phase.hasRef, hs.not_initialized hh] using hcount hh
  case publish =>
    have hh : (c.s.phase t).holds := by rw [hp]; rfl
    refine Balanced.single (hothers' hh) ?_
    simp only [Calls.step, WinsockInit.step, hp]
    simpa [hp, Phase.hasRef] using hcount hh
  all_goals
    have hne : c.s.phase t ∉ [.startup, .versionFailed, .publish] := by rw [hp]; simp
    exact hb.keep hph (hasRef_step hne) (hinit (by rw [hp]; nofun))
      (by simp [Calls.step, hp]) (by simp [Calls.step, hp])


theorem Balanced.run {c : Calls T} (hb : Balanced c) (hs : Reachable c.s)
    (sched : List (T × Startup)) : Balanced (c.run sched) := by
  induction sched generalizing c with
  | nil => exact hb
  | cons e rest ih => exact ih (hb.step hs.inv e.1 e.2) (hs.next e.1 e.2)

theorem Reachable.not_startup {s : State T} (hs : Reachable s) (hi : s.initialized = true)
    (u : T) : s.phase u ≠ .startup := fun h => by
  simpa [h, Phase.holds] using hs.inv.published hi u

/-- Over every interleaving of `init()` calls, whatever `WSAStartup` answers, successful
`WSAStartup` calls exceed `WSACleanup` calls by at most one. When no caller is between a
successful `WSAStartup` and its `WSACleanup` or its store to `initialized_`, they exceed them by
one exactly when `initialized_` is set, which the destructor's one `WSACleanup` balances; and
once `initialized_` is set, no caller ever reaches `WSAStartup` again. -/
theorem wsaStartup_cleanup_balanced (sched : List (T × Startup)) :
    let c := (⟨initial, 0, 0⟩ : Calls T).run sched
    c.startups ≤ c.cleanups + 1 ∧
    ((∀ u, (c.s.phase u).hasRef = false) →
      c.startups = c.cleanups + if c.s.initialized then 1 else 0) ∧
    (c.s.initialized = true → ∀ more u, (WinsockInit.run c.s more).phase u ≠ .startup) := by
  intro c
  have hb : Balanced c := balanced_initial.run Reachable.init sched
  have hs : Reachable c.s := Calls.run_s _ sched ▸ Reachable.init.run sched
  refine ⟨hb.atMostOne, fun hnone => ?_, fun hi more u => ?_⟩
  · cases hi : c.s.initialized
    · have hne : c.startups ≠ c.cleanups + 1 := fun h => by
        simpa [hi, hnone] using hb.one.mp h
      have := hb.le
      have := hb.atMostOne
      simp only [Bool.false_eq_true, if_false]
      omega
    · simpa using hb.one.mpr (Or.inl hi)
  · exact (hs.run more).not_startup (run_initialized hi more) u

/-- One caller whose `WSAStartup` reports version 1.1: it calls `WSACleanup` on the spot. -/
example :
    let c := (⟨initial, 0, 0⟩ : Calls (Fin 1)).run (List.replicate 6 (0, ⟨0, 0x0101⟩))
    c.startups = 1 ∧ c.cleanups = 1 ∧ c.s.phase 0 = .done false := by
  decide
end

end WinsockInit
