import Mathlib.Logic.Function.Basic
import Mathlib.Data.List.Nodup

/-! # AsyncMutex: the state word under every interleaving

`AsyncMutex` of `session/async_primitives.hpp`. Each task runs its own `LockAwaiter`, so
a waiter node is named by its task. One event is one atomic step of one task: the strong
CAS of `await_ready`, a load, a `compare_exchange_weak` (which may fail spuriously), or
the plain write of the awaiter's own `next_`. `unlock` starts only from a holding task.
The word refines `AbsMutex`, a holder with a LIFO stack of waiters. -/
namespace AsyncMutexWord

/-- The state word: `nullptr`, `&locked_sentinel_tag_`, or the address of a waiting `LockAwaiter`. -/
inductive Word (T : Type)
  | null
  | sentinel
  | waiter (t : T)
  deriving DecidableEq, Repr

/-- Where a task is inside `scoped_lock()` or `unlock()`, with the locals it carries. -/
inductive Phase (T : Type)
  | idle
  | suspendLoad
  | suspendTest (old : Word T)
  | suspendCas (old : Word T)
  | waiting
  | granted
  | holding
  | unlockFast
  | unlockSlowLoad
  | unlockSlowFree
  | unlockSlowPeek (w : T)
  | unlockSlowCas (w : T) (new : Word T)
  | resuming (w : T)
  | fault
  deriving DecidableEq, Repr

/-- The task owns the mutex: it returned from the awaiter, was handed the lock, or is
inside `unlock` before the CAS that gives the lock away. -/
def Phase.holds {T : Type} : Phase T → Bool
  | .holding | .granted | .unlockFast | .unlockSlowLoad | .unlockSlowFree
  | .unlockSlowPeek _ | .unlockSlowCas _ _ => true
  | _ => false

def Phase.plain {T : Type} : Phase T → Bool
  | .waiting | .granted | .resuming _ => false
  | _ => true

structure State (T : Type) where
  word : Word T
  next : T → Option T
  phase : T → Phase T

variable {T : Type}

def init : State T := ⟨.null, fun _ => none, fun _ => .idle⟩

/-- The link a suspending waiter stores: `next_ = (old_state == locked_sentinel()) ? nullptr : old_state`. -/
def nextOf : Word T → Option T
  | .waiter w => some w
  | _ => none

/-- The word after a hand-off: `waiter->next_ ? waiter->next_ : locked_sentinel()`. -/
def headOf : Option T → Word T
  | some w => .waiter w
  | none => .sentinel

structure AbsMutex (T : Type) where
  holder : Option T
  waiters : List T
  deriving DecidableEq, Repr

/-- Acquire when free, push a waiter when held, and on release free the mutex or hand it
to the head of the stack, the most recently enqueued waiter. -/
inductive AbsMutex.Step : AbsMutex T → AbsMutex T → Prop
  | acquire (t : T) : Step ⟨none, []⟩ ⟨some t, []⟩
  | enqueue (h t : T) (ws : List T) : Step ⟨some h, ws⟩ ⟨some h, t :: ws⟩
  | release (h : T) : Step ⟨some h, []⟩ ⟨none, []⟩
  | handOff (h w : T) (ws : List T) : Step ⟨some h, w :: ws⟩ ⟨some w, ws⟩

def AbsMutex.word : AbsMutex T → Word T
  | ⟨none, _⟩ => .null
  | ⟨some _, []⟩ => .sentinel
  | ⟨some _, w :: _⟩ => .waiter w

/-- Following `next_` from a node gives exactly this list, ending at `nullptr`. -/
inductive Chain (next : T → Option T) : Option T → List T → Prop
  | nil : Chain next none []
  | cons {t : T} {l : List T} : Chain next (next t) l → Chain next (some t) (t :: l)

def PhaseOK (s : State T) (a : AbsMutex T) (t : T) : Phase T → Prop
  | .suspendCas old => old ≠ .null ∧ s.next t = nextOf old
  | .unlockSlowPeek w => w ∈ a.waiters
  | .unlockSlowCas w new => w ∈ a.waiters ∧ new = headOf (s.next w)
  | .fault => False
  | _ => True

/-- A popped waiter is `granted` exactly while one task is about to resume it. -/
structure Handoff (phase : T → Phase T) : Prop where
  granted : ∀ w, phase w = .granted ↔ ∃ u, phase u = .resuming w
  resumer : ∀ u u' w, phase u = .resuming w → phase u' = .resuming w → u = u'

/-- The word encodes `a`: `nullptr` iff nobody holds, the sentinel iff a holder and no
waiter, else the head of an acyclic `next_` list of exactly the suspended awaiters. A
popped waiter is `granted` until the one task that popped it resumes it. -/
structure Rep (s : State T) (a : AbsMutex T) : Prop where
  holds : ∀ t, (s.phase t).holds ↔ a.holder = some t
  word : s.word = a.word
  free : a.holder = none → a.waiters = []
  chain : Chain s.next a.waiters.head? a.waiters
  nodup : a.waiters.Nodup
  waiting : ∀ t, s.phase t = .waiting ↔ t ∈ a.waiters
  handoff : Handoff s.phase
  locals : ∀ t, PhaseOK s a t (s.phase t)

theorem phaseOK_word {s : State T} {a : AbsMutex T} {t : T} {p : Phase T} {w : Word T} :
    PhaseOK { s with word := w } a t p ↔ PhaseOK s a t p := by
  cases p <;> rfl

theorem phaseOK_waiters {s : State T} {a a' : AbsMutex T} {t : T} {p : Phase T}
    (hp : p.holds = false) (h : PhaseOK s a t p) : PhaseOK s a' t p := by
  cases p <;> simp_all [PhaseOK, Phase.holds]

theorem Chain.congr {next next' : T → Option T} {o : Option T} {l : List T}
    (h : Chain next o l) (he : ∀ x ∈ l, next' x = next x) : Chain next' o l := by
  induction h with
  | nil => exact .nil
  | @cons t l _ ih =>
    exact .cons ((he t (List.mem_cons_self _ _)) ▸ ih fun x hx => he x (List.mem_cons_of_mem _ hx))

theorem Chain.head {next : T → Option T} {o : Option T} {l : List T} (h : Chain next o l) :
    o = l.head? := by
  cases h <;> rfl

theorem AbsMutex.word_ne_null {a : AbsMutex T} {h : T} (ha : a.holder = some h) :
    a.word ≠ .null := by
  obtain ⟨_, ws⟩ := a; cases ha; cases ws <;> simp [AbsMutex.word]

theorem AbsMutex.word_null {a : AbsMutex T} (hw : a.word = .null) : a.holder = none := by
  obtain ⟨o, ws⟩ := a; cases o <;> [rfl; cases ws <;> simp [AbsMutex.word] at hw]

theorem AbsMutex.mem_of_word {a : AbsMutex T} {w : T} (hw : a.word = .waiter w) :
    w ∈ a.waiters := by
  obtain ⟨_ | _, _ | ⟨v, _⟩⟩ := a <;> cases hw
  exact List.mem_cons_self _ _

theorem rep_init : Rep (init : State T) ⟨none, []⟩ where
  holds _ := by simp [init, Phase.holds]
  word := rfl
  free _ := rfl
  chain := .nil
  nodup := List.nodup_nil
  waiting _ := by simp [init]
  handoff := ⟨fun _ => by simp [init], fun _ _ _ h => by simp [init] at h⟩
  locals _ := trivial

section
variable {s : State T} {a : AbsMutex T}

theorem Rep.holder_of_holds (hr : Rep s a) {t : T} (ht : (s.phase t).holds) : a.holder = some t :=
  (hr.holds t).mp ht

theorem Rep.not_holds (hr : Rep s a) {t u : T} (ht : a.holder = some t) (hu : u ≠ t) :
    (s.phase u).holds = false := by
  by_contra hc
  have h := (hr.holds u).mp (by simpa using hc)
  rw [ht] at h; exact hu (Option.some.inj h).symm

/-- A holder never loads `nullptr`, so the cast in `unlock`'s slow path is always of a waiter. -/
theorem Rep.word_ne_null (hr : Rep s a) {t : T} (ht : (s.phase t).holds) : s.word ≠ .null :=
  hr.word ▸ AbsMutex.word_ne_null (hr.holder_of_holds ht)

end

variable [DecidableEq T]

def setPhase (s : State T) (t : T) (p : Phase T) : State T :=
  { s with phase := Function.update s.phase t p }

/-- One atomic step of task `t`; `spurious` makes a `compare_exchange_weak` fail. -/
def step (s : State T) (t : T) (spurious : Bool) : State T :=
  match s.phase t with
  | .idle =>
    if s.word = .null then { setPhase s t .holding with word := .sentinel }
    else setPhase s t .suspendLoad
  | .suspendLoad => setPhase s t (.suspendTest s.word)
  | .suspendTest old =>
    if old = .null then
      if s.word = .null ∧ spurious = false then { setPhase s t .holding with word := .sentinel }
      else setPhase s t (.suspendTest s.word)
    else { setPhase s t (.suspendCas old) with next := Function.update s.next t (nextOf old) }
  | .suspendCas old =>
    if s.word = old ∧ spurious = false then { setPhase s t .waiting with word := .waiter t }
    else setPhase s t (.suspendTest s.word)
  | .waiting | .granted | .fault => s
  | .holding => setPhase s t (if s.word = .sentinel then .unlockFast else .unlockSlowLoad)
  | .unlockFast =>
    if s.word = .sentinel then { setPhase s t .idle with word := .null }
    else setPhase s t .unlockSlowLoad
  | .unlockSlowLoad =>
    match s.word with
    | .sentinel => setPhase s t .unlockSlowFree
    | .waiter w => setPhase s t (.unlockSlowPeek w)
    | .null => setPhase s t .fault
  | .unlockSlowFree =>
    if s.word = .sentinel ∧ spurious = false then { setPhase s t .idle with word := .null }
    else setPhase s t .unlockSlowLoad
  | .unlockSlowPeek w => setPhase s t (.unlockSlowCas w (headOf (s.next w)))
  | .unlockSlowCas w new =>
    if s.word = .waiter w ∧ spurious = false then
      { setPhase (setPhase s t (.resuming w)) w .granted with word := new }
    else setPhase s t .unlockSlowLoad
  | .resuming w => setPhase (setPhase s w .holding) t .idle

inductive Reachable : State T → Prop
  | init : Reachable init
  | step {s} : Reachable s → ∀ t spurious, Reachable (step s t spurious)

def run (s : State T) : List (T × Bool) → State T
  | [] => s
  | (t, spurious) :: rest => run (step s t spurious) rest

theorem Reachable.run {s : State T} (h : Reachable s) (sched : List (T × Bool)) :
    Reachable (run s sched) := by
  induction sched generalizing s with
  | nil => exact h
  | cons e rest ih => exact ih (h.step e.1 e.2)

@[simp] theorem setPhase_word (s : State T) (t : T) (p : Phase T) :
    (setPhase s t p).word = s.word := rfl

@[simp] theorem setPhase_next (s : State T) (t : T) (p : Phase T) :
    (setPhase s t p).next = s.next := rfl

@[simp] theorem setPhase_phase (s : State T) (t x : T) (p : Phase T) :
    (setPhase s t p).phase x = if x = t then p else s.phase x := Function.update_apply ..

theorem phaseOK_setPhase {s : State T} {a : AbsMutex T} {t u : T} {q p : Phase T} :
    PhaseOK (setPhase s u q) a t p ↔ PhaseOK s a t p := by
  cases p <;> rfl

theorem Handoff.update {ph : T → Phase T} (h : Handoff ph) {t : T} {p : Phase T}
    (hg : p ≠ .granted) (hg' : ph t ≠ .granted) (hres : ∀ w, p ≠ .resuming w)
    (hres' : ∀ w, ph t ≠ .resuming w) : Handoff (Function.update ph t p) := by
  refine ⟨fun v => ?_, fun u u' w hu hu' => ?_⟩
  · by_cases hv : v = t
    · subst hv
      simp only [Function.update_same, hg, false_iff, not_exists]
      intro u hu
      by_cases hut : u = v
      · subst hut; simp at hu; exact hres _ hu
      · rw [Function.update_noteq hut] at hu; exact hg' ((h.granted v).mpr ⟨u, hu⟩)
    · rw [Function.update_noteq hv, h.granted]
      refine exists_congr fun u => ?_
      by_cases hut : u = t
      · subst hut; simp [hres, hres']
      · rw [Function.update_noteq hut]
  · by_cases h1 : u = t
    · subst h1; simp at hu; exact absurd hu (hres w)
    by_cases h2 : u' = t
    · subst h2; simp at hu'; exact absurd hu' (hres w)
    rw [Function.update_noteq h1] at hu; rw [Function.update_noteq h2] at hu'
    exact h.resumer u u' w hu hu'

theorem Handoff.grant {ph : T → Phase T} (h : Handoff ph) {t w : T} (hwt : w ≠ t)
    (ht : ∀ v, ph t ≠ .resuming v) (ht' : ph t ≠ .granted) (hw : ph w ≠ .granted)
    (hw' : ∀ v, ph w ≠ .resuming v) :
    Handoff (Function.update (Function.update ph t (.resuming w)) w .granted) := by
  have hph : ∀ x, Function.update (Function.update ph t (.resuming w)) w .granted x =
      if x = w then .granted else if x = t then .resuming w else ph x := fun x => by
    simp only [Function.update_apply]
  have hnot : ∀ u v, ph u = .resuming v → u ≠ t ∧ u ≠ w ∧ v ≠ t ∧ v ≠ w := fun u v hu =>
    ⟨fun e => ht v (e ▸ hu), fun e => hw' v (e ▸ hu),
      fun e => ht' (e ▸ (h.granted v).mpr ⟨u, hu⟩), fun e => hw (e ▸ (h.granted v).mpr ⟨u, hu⟩)⟩
  refine ⟨fun v => ?_, fun u u' v hu hu' => ?_⟩
  · simp only [hph]
    by_cases hv : v = w
    · subst hv; simp only [if_true, true_iff]; exact ⟨t, by simp [Ne.symm hwt]⟩
    by_cases hvt : v = t
    · subst hvt
      simp only [hv, if_false, if_true, reduceCtorEq, false_iff, not_exists]
      intro u; split_ifs with h1 h2
      · simp
      · simp [hwt]
      · exact fun hu => (hnot u v hu).2.2.1 rfl
    simp only [hv, hvt, if_false, h.granted]
    refine exists_congr fun u => ?_
    split_ifs with h1 h2
    · subst h1; simp [hw']
    · subst h2; simp [ht, Ne.symm hv]
    · rfl
  · simp only [hph] at hu hu'
    by_cases h1 : u = w
    · simp [h1] at hu
    by_cases h2 : u' = w
    · simp [h2] at hu'
    simp only [h1, h2, if_false] at hu hu'
    by_cases h3 : u = t <;> by_cases h4 : u' = t
    · rw [h3, h4]
    · simp only [h3, h4, if_true, if_false, Phase.resuming.injEq] at hu hu'
      exact absurd hu.symm (hnot u' v hu').2.2.2
    · simp only [h3, h4, if_true, if_false, Phase.resuming.injEq] at hu hu'
      exact absurd hu'.symm (hnot u v hu).2.2.2
    · simp only [h3, h4, if_false] at hu hu'
      exact h.resumer u u' v hu hu'

theorem Handoff.resume {ph : T → Phase T} (h : Handoff ph) {t w : T} (hp : ph t = .resuming w) :
    Handoff (Function.update (Function.update ph w .holding) t .idle) := by
  have hw : ph w = .granted := (h.granted w).mpr ⟨t, hp⟩
  have hwt : w ≠ t := fun e => by rw [e, hp] at hw; cases hw
  have huniq : ∀ u, ph u = .resuming w → u = t := fun u hu => h.resumer u t w hu hp
  have hph : ∀ x, Function.update (Function.update ph w .holding) t .idle x =
      if x = t then .idle else if x = w then .holding else ph x := fun x => by
    simp only [Function.update_apply]
  refine ⟨fun v => ?_, fun u u' v hu hu' => ?_⟩
  · simp only [hph]
    by_cases hvt : v = t
    · subst hvt
      simp only [if_true, reduceCtorEq, false_iff, not_exists]
      intro u; split_ifs with h1 h2
      · simp
      · simp
      · intro hu; have := (h.granted v).mpr ⟨u, hu⟩; rw [hp] at this; cases this
    by_cases hvw : v = w
    · subst hvw
      simp only [hvt, if_false, if_true, reduceCtorEq, false_iff, not_exists]
      intro u; split_ifs with h1 h2
      · simp
      · simp
      · exact fun hu => h1 (huniq u hu)
    simp only [hvt, hvw, if_false, h.granted]
    refine exists_congr fun u => ?_
    split_ifs with h1 h2
    · subst h1; simp [hp, Ne.symm hvw]
    · subst h2; simp [hw]
    · rfl
  · simp only [hph] at hu hu'
    by_cases h1 : u = t
    · simp [h1] at hu
    by_cases h2 : u' = t
    · simp [h2] at hu'
    by_cases h3 : u = w
    · simp [h1, h3, hwt] at hu
    by_cases h4 : u' = w
    · simp [h2, h4, hwt] at hu'
    simp only [h1, h2, h3, h4, if_false] at hu hu'
    exact h.resumer u u' v hu hu'

section
variable {s : State T} {a : AbsMutex T}

theorem Rep.move (hr : Rep s a) {t : T} {p : Phase T} (hh : p.holds = (s.phase t).holds)
    (hq : p.plain) (hq' : (s.phase t).plain) (hok : PhaseOK s a t p) :
    Rep (setPhase s t p) a where
  holds x := by by_cases hx : x = t <;> simp [hx, hh, hr.holds]
  word := hr.word
  free := hr.free
  chain := hr.chain
  nodup := hr.nodup
  waiting x := by
    by_cases hx : x = t
    · subst hx
      have h1 : p ≠ .waiting := fun e => by simp [e, Phase.plain] at hq
      have h2 : s.phase x ≠ .waiting := fun e => by simp [e, Phase.plain] at hq'
      simp [h1, ← hr.waiting, h2]
    · simp [hx, hr.waiting]
  handoff := hr.handoff.update (fun e => by simp [e, Phase.plain] at hq)
    (fun e => by simp [e, Phase.plain] at hq') (fun _ e => by simp [e, Phase.plain] at hq)
    (fun _ e => by simp [e, Phase.plain] at hq')
  locals x := by
    by_cases hx : x = t
    · subst hx; simpa [phaseOK_setPhase] using hok
    · simpa [hx, phaseOK_setPhase] using hr.locals x

theorem Rep.stutter (hr : Rep s a) {t : T} {q p : Phase T} (hq : s.phase t = q)
    (hh : p.holds = q.holds) (hp : p.plain) (hqp : q.plain) (hok : PhaseOK s a t p) :
    ∃ a', Rep (setPhase s t p) a' ∧ (a' = a ∨ AbsMutex.Step a a') :=
  ⟨a, hr.move (hq ▸ hh) hp (hq ▸ hqp) hok, .inl rfl⟩

theorem Rep.acquire (hr : Rep s a) (t : T) (hw : s.word = .null) (hp : (s.phase t).holds = false)
    (hnw : s.phase t ≠ .waiting) :
    a = ⟨none, []⟩ ∧ Rep { setPhase s t .holding with word := .sentinel } ⟨some t, []⟩ := by
  have hh : a.holder = none := AbsMutex.word_null (hr.word ▸ hw)
  have hws := hr.free hh
  have hnh : ∀ x, (s.phase x).holds = false := fun x => by simpa [hh] using hr.holds x
  have hng : ∀ v, s.phase v ≠ .granted := fun v hv => by simpa [hv, Phase.holds] using hnh v
  have hnr : ∀ u w, s.phase u ≠ .resuming w := fun u w hu => hng w ((hr.handoff.granted w).mpr ⟨u, hu⟩)
  refine ⟨by cases a; simp_all, ⟨fun x => ?_, rfl, nofun, .nil, List.nodup_nil, fun x => ?_,
    hr.handoff.update (by simp) (hng t) (by simp) (hnr t), fun x => ?_⟩⟩
  · by_cases hx : x = t
    · subst hx; simp [Phase.holds]
    · simp [hx, Ne.symm hx, hnh]
  · by_cases hx : x = t
    · subst hx; simp
    · simp [hx, hr.waiting, hws]
  · by_cases hx : x = t
    · subst hx; simp [PhaseOK]
    · simp only [setPhase_phase, hx, if_false, phaseOK_word, phaseOK_setPhase]
      exact phaseOK_waiters (hnh x) (hr.locals x)

theorem Rep.setNext (hr : Rep s a) {t : T} (ht : t ∉ a.waiters) (n : Option T)
    (hloc : PhaseOK { s with next := Function.update s.next t n } a t (s.phase t)) :
    Rep { s with next := Function.update s.next t n } a where
  holds := hr.holds
  word := hr.word
  free := hr.free
  chain := hr.chain.congr fun x hx => Function.update_noteq (ne_of_mem_of_not_mem hx ht) _ _
  nodup := hr.nodup
  waiting := hr.waiting
  handoff := hr.handoff
  locals x := by
    by_cases hx : x = t
    · subst hx; exact hloc
    have h : PhaseOK s a x (s.phase x) := hr.locals x
    show PhaseOK _ a x (s.phase x)
    generalize s.phase x = p at h
    cases p with
    | suspendCas old => simpa [PhaseOK, Function.update_noteq hx] using h
    | unlockSlowCas w new =>
      exact ⟨h.1, by simp [Function.update_noteq (ne_of_mem_of_not_mem h.1 ht), h.2]⟩
    | _ => exact h

/-- The weak CAS that installs the awaiter as the new head. -/
theorem Rep.enqueue (hr : Rep s a) {t : T} {old : Word T} (hp : s.phase t = .suspendCas old)
    (hw : s.word = old) :
    ∃ h, a.holder = some h ∧
      Rep { setPhase s t .waiting with word := .waiter t } ⟨a.holder, t :: a.waiters⟩ := by
  have hok : PhaseOK s a t (.suspendCas old) := hp ▸ hr.locals t
  obtain ⟨hnull, hnext⟩ := hok
  obtain ⟨o, ws⟩ := a
  obtain _ | h := o
  · exact absurd (hw.symm.trans hr.word) hnull
  have hth : h ≠ t := fun e => by simpa [hp, Phase.holds, e] using hr.holds t
  have htw : t ∉ ws := fun hm => by simpa [hp] using (hr.waiting t).mpr hm
  refine ⟨h, rfl, ⟨fun x => ?_, rfl, nofun, .cons ?_, List.nodup_cons.mpr ⟨htw, hr.nodup⟩,
    fun x => ?_, hr.handoff.update (by simp) (by simp [hp]) (by simp) (by simp [hp]), fun x => ?_⟩⟩
  · by_cases hx : x = t
    · subst hx; simp [Phase.holds, hth]
    · simp [hx, hr.holds]
  · show Chain s.next (s.next t) ws
    rw [hnext, ← hw, hr.word]; cases ws <;> exact hr.chain
  · by_cases hx : x = t
    · subst hx; simp
    · simp [hx, hr.waiting]
  · by_cases hx : x = t
    · subst hx; simp [PhaseOK]
    · have hl := hr.locals x
      simp only [setPhase_phase, hx, if_false, phaseOK_word, phaseOK_setPhase]
      cases hq : s.phase x <;> simp only [hq, PhaseOK] at hl ⊢ <;> simp_all

theorem Rep.release (hr : Rep s a) (t : T) (hh : (s.phase t).holds) (hng : s.phase t ≠ .granted)
    (hw : s.word = .sentinel) :
    a = ⟨some t, []⟩ ∧ Rep { setPhase s t .idle with word := .null } ⟨none, []⟩ := by
  have ht := hr.holder_of_holds hh
  have hws : a.waiters = [] := by
    obtain ⟨o, ws⟩ := a; cases ht
    cases ws with
    | nil => rfl
    | cons w _ => have := hw.symm.trans hr.word; simp [AbsMutex.word] at this
  have hnr : ∀ w, s.phase t ≠ .resuming w := fun w he => by simp [he, Phase.holds] at hh
  refine ⟨by obtain ⟨o, ws⟩ := a; simp_all, ⟨fun x => ?_, rfl, fun _ => rfl, .nil, List.nodup_nil,
    fun x => ?_, hr.handoff.update (by simp) hng (by simp) hnr, fun x => ?_⟩⟩
  · by_cases hx : x = t
    · subst hx; simp [Phase.holds]
    · simp [hx, hr.not_holds ht hx]
  · by_cases hx : x = t
    · subst hx; simp
    · simp [hx, hr.waiting, hws]
  · by_cases hx : x = t
    · subst hx; simp [PhaseOK]
    · simp only [setPhase_phase, hx, if_false, phaseOK_word, phaseOK_setPhase]
      exact phaseOK_waiters (hr.not_holds ht hx) (hr.locals x)

/-- The weak CAS of `unlock` that pops the head waiter and hands it the mutex. -/
theorem Rep.pop (hr : Rep s a) {t w : T} {new : Word T} (hp : s.phase t = .unlockSlowCas w new)
    (hw : s.word = .waiter w) :
    ∃ rest, a = ⟨some t, w :: rest⟩ ∧
      Rep { setPhase (setPhase s t (.resuming w)) w .granted with word := new }
        ⟨some w, rest⟩ := by
  have ht : a.holder = some t := hr.holder_of_holds (by simp [hp, Phase.holds])
  obtain ⟨hmem, hnew⟩ : PhaseOK s a t (.unlockSlowCas w new) := hp ▸ hr.locals t
  obtain ⟨o, ws⟩ := a
  cases ht
  obtain _ | ⟨w', rest⟩ := ws
  · simp at hmem
  have hw' : w = w' := by
    have := hw.symm.trans hr.word; simpa only [AbsMutex.word, Word.waiter.injEq] using this
  subst hw'
  have hwait : s.phase w = .waiting := (hr.waiting w).mpr (List.mem_cons_self _ _)
  have hwt : w ≠ t := fun e => by rw [e, hp] at hwait; cases hwait
  have hchain : Chain s.next (s.next w) rest := by cases hr.chain; assumption
  have hnd := List.nodup_cons.mp hr.nodup
  have htw : t ∉ rest := fun hm => by
    simpa [hp] using (hr.waiting t).mpr (List.mem_cons_of_mem _ hm)
  refine ⟨rest, rfl, ⟨fun x => ?_, ?_, nofun, ?_, hnd.2, fun x => ?_, ?_, fun x => ?_⟩⟩
  · by_cases hxw : x = w
    · subst hxw; simp [Phase.holds]
    by_cases hxt : x = t
    · subst hxt; simp [hxw, Phase.holds, Ne.symm hxw]
    · simp [hxw, hxt, hr.not_holds rfl hxt, Ne.symm hxw]
  · show new = AbsMutex.word ⟨some w, rest⟩
    rw [hnew, hchain.head]; cases rest <;> rfl
  · show Chain s.next rest.head? rest
    rwa [← hchain.head]
  · by_cases hxw : x = w
    · subst hxw; simp [hnd.1]
    by_cases hxt : x = t
    · subst hxt; simp [hxw, htw]
    · simp [hxw, hxt, hr.waiting]
  · exact hr.handoff.grant hwt (by simp [hp]) (by simp [hp]) (by simp [hwait]) (by simp [hwait])
  · by_cases hxw : x = w
    · subst hxw; simp [PhaseOK]
    by_cases hxt : x = t
    · subst hxt; simp [hxw, PhaseOK]
    · simp only [setPhase_phase, hxw, hxt, if_false, phaseOK_word, phaseOK_setPhase]
      exact phaseOK_waiters (hr.not_holds rfl hxt) (hr.locals x)

theorem Rep.resume (hr : Rep s a) {t w : T} (hp : s.phase t = .resuming w) :
    Rep (setPhase (setPhase s w .holding) t .idle) a := by
  have hw : s.phase w = .granted := (hr.handoff.granted w).mpr ⟨t, hp⟩
  have hwt : w ≠ t := fun e => by rw [e, hp] at hw; cases hw
  refine ⟨fun x => ?_, hr.word, hr.free, hr.chain, hr.nodup, fun x => ?_,
    hr.handoff.resume hp, fun x => ?_⟩
  · by_cases hxt : x = t
    · subst hxt; simp [Phase.holds, ← hr.holds, hp]
    by_cases hxw : x = w
    · subst hxw; simp [hxt, Phase.holds, ← hr.holds, hw]
    · simp [hxt, hxw, hr.holds]
  · by_cases hxt : x = t
    · subst hxt; simp [← hr.waiting, hp]
    by_cases hxw : x = w
    · subst hxw; simp [hxt, ← hr.waiting, hw]
    · simp [hxt, hxw, hr.waiting]
  · by_cases hxt : x = t
    · subst hxt; simp [PhaseOK]
    by_cases hxw : x = w
    · subst hxw; simp [hxt, PhaseOK]
    · simp only [setPhase_phase, hxt, hxw, if_false, phaseOK_setPhase]; exact hr.locals x

/-- Every atomic step keeps the abstract mutex or performs one `AbsMutex.Step`. -/
theorem Rep.step_refines (hr : Rep s a) (t : T) (spurious : Bool) :
    ∃ a', Rep (step s t spurious) a' ∧ (a' = a ∨ AbsMutex.Step a a') := by
  cases hp : s.phase t with
  | idle =>
    simp only [step, hp]
    split
    · obtain ⟨rfl, h⟩ := hr.acquire t ‹_› (by simp [hp, Phase.holds]) (by simp [hp])
      exact ⟨_, h, .inr (.acquire t)⟩
    · exact hr.stutter hp rfl rfl rfl trivial
  | suspendLoad =>
    simp only [step, hp]
    exact hr.stutter hp rfl rfl rfl trivial
  | suspendTest old =>
    simp only [step, hp]
    split
    · split
      · obtain ⟨rfl, h⟩ := hr.acquire t (‹_ ∧ _›).1 (by simp [hp, Phase.holds]) (by simp [hp])
        exact ⟨_, h, .inr (.acquire t)⟩
      · exact hr.stutter hp rfl rfl rfl trivial
    · rename_i hnull
      have ht : t ∉ a.waiters := fun hm => by simpa [hp] using (hr.waiting t).mpr hm
      have h1 := hr.setNext ht (nextOf old) (by rw [hp]; trivial)
      exact h1.stutter hp rfl rfl rfl ⟨hnull, by simp⟩
  | suspendCas old =>
    simp only [step, hp]
    split
    · obtain ⟨h, hh, hr'⟩ := hr.enqueue hp (‹_ ∧ _›).1
      obtain ⟨o, ws⟩ := a
      cases hh
      exact ⟨_, hr', .inr (.enqueue h t ws)⟩
    · exact hr.stutter hp rfl rfl rfl trivial
  | waiting | granted | fault => simp only [step, hp]; exact ⟨a, hr, .inl rfl⟩
  | holding =>
    simp only [step, hp]
    split <;> exact hr.stutter hp rfl rfl rfl trivial
  | unlockFast =>
    simp only [step, hp]
    split
    · obtain ⟨rfl, h⟩ := hr.release t (by simp [hp, Phase.holds]) (by simp [hp]) ‹_›
      exact ⟨_, h, .inr (.release t)⟩
    · exact hr.stutter hp rfl rfl rfl trivial
  | unlockSlowLoad =>
    simp only [step, hp]
    split
    · exact hr.stutter hp rfl rfl rfl trivial
    · rename_i w hw
      exact hr.stutter hp rfl rfl rfl (AbsMutex.mem_of_word (hr.word.symm.trans hw))
    · exact absurd ‹_› (hr.word_ne_null (by simp [hp, Phase.holds] : (s.phase t).holds))
  | unlockSlowFree =>
    simp only [step, hp]
    split
    · obtain ⟨rfl, h⟩ := hr.release t (by simp [hp, Phase.holds]) (by simp [hp]) (‹_ ∧ _›).1
      exact ⟨_, h, .inr (.release t)⟩
    · exact hr.stutter hp rfl rfl rfl trivial
  | unlockSlowPeek w =>
    have hmem : w ∈ a.waiters := by simpa [hp, PhaseOK] using hr.locals t
    simp only [step, hp]
    exact hr.stutter hp rfl rfl rfl ⟨hmem, rfl⟩
  | unlockSlowCas w new =>
    simp only [step, hp]
    split
    · obtain ⟨rest, rfl, h⟩ := hr.pop hp (‹_ ∧ _›).1
      exact ⟨_, h, .inr (.handOff t w rest)⟩
    · exact hr.stutter hp rfl rfl rfl trivial
  | resuming w => simp only [step, hp]; exact ⟨a, hr.resume hp, .inl rfl⟩

end

theorem reachable_rep {s : State T} (h : Reachable s) : ∃ a, Rep s a := by
  induction h with
  | init => exact ⟨_, rep_init⟩
  | step _ t spurious ih =>
    obtain ⟨a, hr⟩ := ih
    obtain ⟨a', hr', -⟩ := hr.step_refines t spurious
    exact ⟨a', hr'⟩

/-- Under every interleaving of `await_ready`, `await_suspend` (with spurious CAS failures)
and `unlock` by the holder, for any set of tasks, the state word encodes an abstract mutex
(`Rep`: at most one holder, `nullptr` iff free, the sentinel iff held with no waiter, else
the head of an acyclic `next_` list of exactly the suspended awaiters, and each popped
waiter resumed by exactly one task), and every next step keeps it or performs one LIFO
step: acquire, push, release to free, or hand-off to the head waiter. -/
theorem asyncMutex_refines_lifo {s : State T} (h : Reachable s) :
    ∃ a, Rep s a ∧ ∀ t spurious,
      ∃ a', Rep (step s t spurious) a' ∧ (a' = a ∨ AbsMutex.Step a a') := by
  obtain ⟨a, hr⟩ := reachable_rep h
  exact ⟨a, hr, hr.step_refines⟩

/-- Task 0 takes the mutex, tasks 1 and then 2 enqueue, and task 0 unlocks. -/
def lifoSchedule : List (Fin 3 × Bool) :=
  [(0, false)] ++ List.replicate 4 (1, false) ++ List.replicate 4 (2, false) ++
    List.replicate 4 (0, false)

/-- On this schedule the unlock hands the mutex to task 2, the last to enqueue. -/
theorem lifoSchedule_refines :
    (run init lifoSchedule).phase 2 = .granted ∧ (run init lifoSchedule).word = .waiter 1 ∧
    ∃ a, Rep (run init lifoSchedule) a ∧ ∀ t spurious,
      ∃ a', Rep (step (run init lifoSchedule) t spurious) a' ∧ (a' = a ∨ AbsMutex.Step a a') :=
  ⟨by decide, by decide, asyncMutex_refines_lifo (Reachable.init.run lifoSchedule)⟩

end AsyncMutexWord
