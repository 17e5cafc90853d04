import NexusFix.AsyncMutexWord
import NexusFix.SessionMachine

/-! # Session sends over the send mutex

The send paths of `CoroutineSession` as programs of the effects between their suspension
points, run by any number of agents under any interleaving: the heartbeat loop, the
receiver loop, application tasks and the logon and logout phases. `send_mutex_` is the
abstract LIFO mutex of `AsyncMutexWord`, which the `AsyncMutex` state word refines: the
agents only ever move it by its steps. A `send` is the moment the message reaches
`ITransport::send`; the yields of `send_async` on `WouldBlock` are interleaving points
before it. The message store is the history of its `store(k, m)` calls, read through the
finite-map view `StoreVariant` proves of `MemoryStore`. -/
namespace SessionSend

open AsyncMutexWord (AbsMutex)
open SessionMachine

/-- How a builder chain sets `MsgSeqNum`: `next_outbound()` at build time, `begin` for the gap
fill of `handle_resend_request`, or the stored number of a message from `retrieve_range`. -/
inductive Build
  | fresh (type : MsgType)
  | gapFill (begin : Nat)
  | stored (type : MsgType) (seq : Nat)
  deriving DecidableEq, Repr

/-- A built message; `fresh` when `next_outbound()` allocated its number. -/
structure Msg where
  type : MsgType
  seq : Nat
  fresh : Bool
  deriving DecidableEq, Repr

/-- The effects between suspension points: the state check of `send_app_message`,
`scoped_lock()` and its `unlock()` at scope exit, a builder chain, the store of
`send_raw_unlocked` under `current_outbound()`, and `co_await transport_.send_async(msg)`. -/
inductive Instr
  | guard
  | lock
  | unlock
  | build (b : Build)
  | store
  | send
  deriving DecidableEq, Repr

def sendRawUnlocked : List Instr := [.store, .send]

/-- Sending with `send_raw`: `send_raw_unlocked` under its own `scoped_lock()`. -/
def sendRaw : List Instr := .lock :: sendRawUnlocked ++ [.unlock]

/-- Application messages, `send_app_message`: the message is built under the lock, then sent by `send_raw`. -/
def sendAppMessage (type : MsgType) : List Instr :=
  [.guard, .lock, .build (.fresh type)] ++ sendRaw ++ [.unlock]

/-- A message built with a fresh number and sent by `send_raw_unlocked` under one lock:
`send_heartbeat` (also the reply of `handle_test_request`), `send_test_request` and
`handle_sequence_gap`. -/
def lockedSend (type : MsgType) : List Instr :=
  [.lock, .build (.fresh type)] ++ sendRawUnlocked ++ [.unlock]

def sendHeartbeat : List Instr := lockedSend MsgType.heartbeat

def sendTestRequest : List Instr := lockedSend MsgType.testRequest

def handleSequenceGap : List Instr := lockedSend MsgType.resendRequest

def unlockedSend (type : MsgType) : List Instr := .build (.fresh type) :: sendRaw

def logonSend : List Instr := unlockedSend MsgType.logon

def logoutSend : List Instr := unlockedSend MsgType.logout

/-- Resend handling, `handle_resend_request`, given what `retrieve_range(begin, end)` returned: each stored
message through `send_raw`, or else the gap fill under one lock. -/
def handleResendRequest (stored : List (MsgType × Nat)) (begin : Nat) : List Instr :=
  if stored = [] then [.lock, .build (.gapFill begin)] ++ sendRawUnlocked ++ [.unlock]
  else stored.flatMap fun m => .build (.stored m.1 m.2) :: sendRaw

/-- An agent: what is left of its program, the message it built, and whether it is
suspended in `scoped_lock()`. -/
structure Sender where
  prog : List Instr
  msg : Option Msg
  waiting : Bool
  deriving DecidableEq, Repr

/-- The mutex, the counter, whether `can_send_app_messages(state_)` holds and a store is
attached, the `store(k, m)` calls newest first, and the messages that reached
`ITransport::send` with their sender. -/
structure State (T : Type) where
  mutex : AbsMutex T
  seq : SequenceManager
  canSend : Bool
  hasStore : Bool
  stores : List (Nat × Msg)
  sent : List (T × Msg)
  senders : T → Sender

variable {T : Type}

def init (progs : T → List Instr) (seq : SequenceManager) (canSend hasStore : Bool) : State T :=
  ⟨⟨none, []⟩, seq, canSend, hasStore, [], [], fun t => ⟨progs t, none, false⟩⟩

def retrieve (s : State T) (k : Nat) : Option Msg := s.stores.lookup k

def buildMsg (seq : SequenceManager) : Build → Msg × SequenceManager
  | .fresh type => (⟨type, seq.nextOutbound.1, true⟩, seq.nextOutbound.2)
  | .gapFill begin => (⟨MsgType.sequenceReset, begin, false⟩, seq)
  | .stored type n => (⟨type, n, false⟩, seq)

def Sender.resume (c : Sender) : Sender := { c with prog := c.prog.tail, waiting := false }

variable [DecidableEq T]

def setSender (s : State T) (t : T) (c : Sender) : State T :=
  { s with senders := Function.update s.senders t c }

def grant (s : State T) (w : T) : State T := setSender s w (s.senders w).resume

/-- The next step of agent `t`; a suspended or finished agent does not move. -/
def step (s : State T) (t : T) : State T :=
  let c := s.senders t
  if c.waiting then s else
  match c.prog with
  | [] => s
  | .guard :: rest => setSender s t { c with prog := if s.canSend then rest else [] }
  | .lock :: rest =>
    match s.mutex.holder with
    | none => { setSender s t { c with prog := rest } with mutex := ⟨some t, []⟩ }
    | some h =>
      { setSender s t { c with waiting := true } with mutex := ⟨some h, t :: s.mutex.waiters⟩ }
  | .unlock :: rest =>
    match s.mutex.waiters with
    | [] => { setSender s t { c with prog := rest } with mutex := ⟨none, []⟩ }
    | w :: ws => { grant (setSender s t { c with prog := rest }) w with mutex := ⟨some w, ws⟩ }
  | .build b :: rest =>
    { setSender s t { c with prog := rest, msg := some (buildMsg s.seq b).1 } with
      seq := (buildMsg s.seq b).2 }
  | .store :: rest =>
    match c.msg, s.hasStore with
    | some m, true =>
      { setSender s t { c with prog := rest } with
        stores := (s.seq.currentOutbound, m) :: s.stores }
    | _, _ => setSender s t { c with prog := rest }
  | .send :: rest =>
    match c.msg with
    | some m => { setSender s t { c with prog := rest } with sent := s.sent ++ [(t, m)] }
    | none => setSender s t { c with prog := rest }

def run (s : State T) (sched : List T) : State T := sched.foldl step s

def sentBy (s : State T) (t : T) : List Msg := (s.sent.filter (·.1 = t)).map (·.2)

@[simp] theorem run_nil (s : State T) : run s [] = s := rfl

@[simp] theorem run_cons (s : State T) (t : T) (sched : List T) :
    run s (t :: sched) = run (step s t) sched := rfl

/-- Started holding `d` locks, the program checks `can_send_app_messages` holding none,
releases only locks it holds, and ends holding none. -/
def Bracketed : Nat → List Instr → Bool
  | d, [] => d = 0
  | d, .guard :: p => d = 0 && Bracketed d p
  | d, .lock :: p => Bracketed (d + 1) p
  | d, .unlock :: p => d ≠ 0 && Bracketed (d - 1) p
  | d, _ :: p => Bracketed d p

def held (o : Option T) (u : T) : Nat := if o = some u then 1 else 0

@[simp] theorem held_none (u : T) : held none u = 0 := by simp [held]

@[simp] theorem held_self (u : T) : held (some u) u = 1 := by simp [held]

theorem held_ne {t u : T} (h : u ≠ t) : held (some t) u = 0 := by simp [held, Ne.symm h]

/-- A free mutex has no waiters, the suspended agents are exactly the waiters, each stopped
at its `scoped_lock()`, and every agent's remaining program fits the locks it holds. -/
structure Wf (s : State T) : Prop where
  free : s.mutex.holder = none → s.mutex.waiters = []
  waiting : ∀ u, (s.senders u).waiting = true ↔ u ∈ s.mutex.waiters
  nodup : s.mutex.waiters.Nodup
  atLock : ∀ u, (s.senders u).waiting = true → (s.senders u).prog.head? = some .lock
  bracket : ∀ u, Bracketed (held s.mutex.holder u) (s.senders u).prog

theorem wf_init (progs : T → List Instr) (seq : SequenceManager) (canSend hasStore : Bool)
    (h : ∀ t, Bracketed 0 (progs t)) : Wf (init progs seq canSend hasStore) where
  free _ := rfl
  waiting _ := by simp [init]
  nodup := List.nodup_nil
  atLock _ h := by simp [init] at h
  bracket t := by simpa [init] using h t

@[simp] theorem setSender_mutex (s : State T) (t : T) (c : Sender) :
    (setSender s t c).mutex = s.mutex := rfl

@[simp] theorem setSender_sent (s : State T) (t : T) (c : Sender) :
    (setSender s t c).sent = s.sent := rfl

@[simp] theorem setSender_seq (s : State T) (t : T) (c : Sender) :
    (setSender s t c).seq = s.seq := rfl

@[simp] theorem setSender_senders (s : State T) (t u : T) (c : Sender) :
    (setSender s t c).senders u = if u = t then c else s.senders u := Function.update_apply ..

theorem grant_msg (s : State T) (w u : T) : ((grant s w).senders u).msg = (s.senders u).msg := by
  by_cases h : u = w
  · subst h; simp [grant, Sender.resume]
  · simp [grant, h]

section
variable {s : State T}

theorem Wf.holder_of_unlock (hw : Wf s) {t : T} {rest : List Instr}
    (hp : (s.senders t).prog = .unlock :: rest) :
    s.mutex.holder = some t ∧ Bracketed 0 rest := by
  have hb := hw.bracket t
  rw [hp] at hb
  by_cases hh : s.mutex.holder = some t
  · rw [hh] at hb; simpa [Bracketed] using And.intro hh hb
  · simp [Bracketed, held, hh] at hb

theorem Wf.not_waiting {t : T} (hw : Wf s) (ht : (s.senders t).waiting = false) :
    t ∉ s.mutex.waiters := fun h => by simp [(hw.waiting t).mpr h] at ht

theorem Wf.frame (hw : Wf s) {t : T} {c : Sender} {s' : State T}
    (hs : ∀ u, s'.senders u = if u = t then c else s.senders u) (hm : s'.mutex = s.mutex)
    (ht : (s.senders t).waiting = false) (hc : c.waiting = false)
    (hb : Bracketed (held s.mutex.holder t) c.prog) : Wf s' := by
  have htw := hw.not_waiting ht
  refine ⟨hm ▸ hw.free, fun u => ?_, hm ▸ hw.nodup, fun u hu => ?_, fun u => ?_⟩
  · rw [hs, hm]; by_cases h : u = t
    · subst h; simp [hc, htw]
    · simp [h, hw.waiting]
  · rw [hs] at hu ⊢; by_cases h : u = t
    · subst h; simp [hc] at hu
    · simp only [h, if_false] at hu ⊢; exact hw.atLock u hu
  · rw [hs, hm]; by_cases h : u = t
    · subst h; simpa using hb
    · simpa [h] using hw.bracket u

theorem Wf.acquire (hw : Wf s) {t : T} {rest : List Instr} (ht : (s.senders t).waiting = false)
    (hp : (s.senders t).prog = .lock :: rest) (hh : s.mutex.holder = none) :
    Wf { setSender s t { s.senders t with prog := rest } with mutex := ⟨some t, []⟩ } := by
  have hq := hw.free hh
  refine ⟨fun h => Option.noConfusion h, fun u => ?_, List.nodup_nil, fun u hu => ?_,
    fun u => ?_⟩
  · by_cases h : u = t
    · subst h; simp [ht]
    · simpa [h, hq] using hw.waiting u
  · by_cases h : u = t
    · subst h; simp [ht] at hu
    · have := (hw.waiting u).mp (by simpa [h] using hu); simp [hq] at this
  · have hb := hw.bracket u
    rw [hh] at hb
    by_cases h : u = t
    · subst h; rw [hp] at hb; simpa [Bracketed] using hb
    · simpa [h, held_ne h] using hb

theorem Wf.enqueue (hw : Wf s) {t h : T} {rest : List Instr} (ht : (s.senders t).waiting = false)
    (hp : (s.senders t).prog = .lock :: rest) (hh : s.mutex.holder = some h) :
    Wf { setSender s t { s.senders t with waiting := true } with
      mutex := ⟨some h, t :: s.mutex.waiters⟩ } := by
  refine ⟨fun h => Option.noConfusion h, fun u => ?_,
    List.nodup_cons.mpr ⟨hw.not_waiting ht, hw.nodup⟩, fun u hu => ?_, fun u => ?_⟩
  · by_cases h : u = t
    · subst h; simp
    · simpa [h] using hw.waiting u
  · by_cases h : u = t
    · subst h; simp [hp]
    · simp only [setSender_senders, h, if_false] at hu ⊢; exact hw.atLock u hu
  · have hb := hw.bracket u
    rw [hh] at hb
    by_cases h' : u = t
    · subst h'; simpa using hb
    · simpa [h'] using hb

theorem Wf.release (hw : Wf s) {t : T} {rest : List Instr} (ht : (s.senders t).waiting = false)
    (hp : (s.senders t).prog = .unlock :: rest) (hq : s.mutex.waiters = []) :
    Wf { setSender s t { s.senders t with prog := rest } with mutex := ⟨none, []⟩ } := by
  obtain ⟨hh, hr⟩ := hw.holder_of_unlock hp
  refine ⟨fun _ => rfl, fun u => ?_, List.nodup_nil, fun u hu => ?_, fun u => ?_⟩
  · by_cases h : u = t
    · subst h; simp [ht]
    · simpa [h, hq] using hw.waiting u
  · by_cases h : u = t
    · subst h; simp [ht] at hu
    · have := (hw.waiting u).mp (by simpa [h] using hu); simp [hq] at this
  · by_cases h : u = t
    · subst h; simpa using hr
    · have hb := hw.bracket u
      rw [hh, held_ne h] at hb
      simpa [h] using hb

theorem Wf.handOff (hw : Wf s) {t w : T} {rest : List Instr} {ws : List T}
    (ht : (s.senders t).waiting = false) (hp : (s.senders t).prog = .unlock :: rest)
    (hq : s.mutex.waiters = w :: ws) :
    Wf { grant (setSender s t { s.senders t with prog := rest }) w with
      mutex := ⟨some w, ws⟩ } := by
  obtain ⟨hh, hrest⟩ := hw.holder_of_unlock hp
  have hwq : (s.senders w).waiting = true := (hw.waiting w).mpr (by simp [hq])
  have hwt : w ≠ t := fun e => by simp [e, ht] at hwq
  have hnd : w ∉ ws ∧ ws.Nodup := by have := hw.nodup; rw [hq] at this; simpa using this
  have htq : t ∉ ws := fun h => hw.not_waiting ht (by simp [hq, h])
  obtain ⟨r, hr⟩ : ∃ r, (s.senders w).prog = .lock :: r := by
    have := hw.atLock w hwq
    cases hpw : (s.senders w).prog with
    | nil => simp [hpw] at this
    | cons i r => simp [hpw] at this; exact ⟨r, by rw [this]⟩
  have ph : ∀ u, (grant (setSender s t { s.senders t with prog := rest }) w).senders u =
      if u = w then { s.senders w with prog := r, waiting := false }
      else if u = t then { s.senders t with prog := rest } else s.senders u := fun u => by
    simp [grant, Sender.resume, hwt, hr]
  refine ⟨fun h => Option.noConfusion h, fun u => ?_, hnd.2, fun u hu => ?_, fun u => ?_⟩
  · rw [ph]; by_cases h1 : u = w
    · subst h1; simp [hnd.1]
    by_cases h2 : u = t
    · subst h2; simp [h1, ht, htq]
    · simpa [h1, h2, hq] using hw.waiting u
  · rw [ph] at hu ⊢; by_cases h1 : u = w
    · subst h1; simp at hu
    by_cases h2 : u = t
    · subst h2; simp [h1, ht] at hu
    · simp only [h1, h2, if_false] at hu ⊢; exact hw.atLock u hu
  · rw [ph]
    have hb := hw.bracket u
    rw [hh] at hb
    by_cases h1 : u = w
    · subst h1; rw [held_ne hwt, hr] at hb; simpa [Bracketed] using hb
    by_cases h2 : u = t
    · subst h2; simpa [h1, held_ne h1] using hrest
    · rw [held_ne h2] at hb; simpa [h1, h2, held_ne h1] using hb

theorem step_wf (hw : Wf s) (t : T) : Wf (step s t) := by
  unfold step; dsimp only
  split
  · exact hw
  next hwt =>
  have ht : (s.senders t).waiting = false := by simpa using hwt
  have hb := hw.bracket t
  have adv : ∀ {i rest} {c : Sender} {s' : State T},
      (∀ u, s'.senders u = if u = t then c else s.senders u) → s'.mutex = s.mutex →
      (s.senders t).prog = i :: rest → (∀ d, Bracketed d (i :: rest) → Bracketed d rest) →
      c.prog = rest → c.waiting = false → Wf s' :=
    fun hs hm hp hi hc hcw => hw.frame hs hm ht hcw (hc ▸ hi _ (hp ▸ hb))
  split
  · exact hw
  · next rest hp =>
    rw [hp] at hb
    simp only [Bracketed, Bool.and_eq_true, decide_eq_true_eq] at hb
    refine hw.frame (fun u => setSender_senders ..) rfl ht ht ?_
    have := hb.2; rw [hb.1] at this ⊢
    split <;> simp [this, Bracketed]
  · next rest hp =>
    split
    · next hh => exact hw.acquire ht hp hh
    · next h hh => exact hw.enqueue ht hp hh
  · next rest hp =>
    split
    · next hq => exact hw.release ht hp hq
    · next w ws hq => exact hw.handOff ht hp hq
  · next b rest hp =>
    exact adv (fun u => setSender_senders ..) rfl hp (fun d h => by simpa [Bracketed] using h) rfl ht
  · next rest hp =>
    split <;>
      exact adv (fun u => setSender_senders ..) rfl hp (fun d h => by simpa [Bracketed] using h) rfl ht
  · next rest hp =>
    split <;>
      exact adv (fun u => setSender_senders ..) rfl hp (fun d h => by simpa [Bracketed] using h) rfl ht

/-- The session only moves `send_mutex_` by the abstract mutex's steps, so the word of
`AsyncMutex`, which refines the abstract mutex, can carry it. -/
theorem step_mutex (hw : Wf s) (t : T) :
    (step s t).mutex = s.mutex ∨ AbsMutex.Step s.mutex (step s t).mutex := by
  have e : s.mutex = ⟨s.mutex.holder, s.mutex.waiters⟩ := rfl
  unfold step; dsimp only
  split
  · exact .inl rfl
  split
  · exact .inl rfl
  · exact .inl rfl
  · split
    · next hh => right; rw [e, hh, hw.free hh]; exact .acquire t
    · next h hh => right; rw [e, hh]; exact .enqueue h t _
  · next rest hp =>
    have hh := (hw.holder_of_unlock hp).1
    split
    · next hq => right; rw [e, hh, hq]; exact .release t
    · next w ws hq => right; rw [e, hh, hq]; exact .handOff t w ws
  · exact .inl rfl
  · split <;> exact .inl rfl
  · split <;> exact .inl rfl

theorem step_senders_other (hw : Wf s) {t u : T} (hu : u ≠ t) :
    (step s u).senders t = s.senders t ∨
      ((step s u).senders t = (s.senders t).resume ∧ (step s u).mutex.holder = some t ∧
        s.mutex.holder = some u ∧ s.mutex.waiters.head? = some t) := by
  unfold step; dsimp only
  split
  · exact .inl rfl
  split
  · exact .inl rfl
  · exact .inl (by simp [Ne.symm hu])
  · split <;> exact .inl (by simp [Ne.symm hu])
  · next rest hp =>
    split
    · exact .inl (by simp [Ne.symm hu])
    · next w ws hq =>
      by_cases hw' : t = w
      · subst hw'
        exact .inr ⟨by simp [grant, Ne.symm hu], rfl, (hw.holder_of_unlock hp).1, by simp [hq]⟩
      · exact .inl (by simp [grant, hw', Ne.symm hu])
  · exact .inl (by simp [Ne.symm hu])
  · split <;> exact .inl (by simp [Ne.symm hu])
  · split <;> exact .inl (by simp [Ne.symm hu])

theorem step_holder_other (hw : Wf s) {t u : T} (hu : u ≠ t) (hh : s.mutex.holder = some t) :
    (step s u).mutex.holder = some t ∧ (step s u).senders t = s.senders t := by
  rcases step_senders_other hw hu with h | ⟨-, -, hu', -⟩
  · refine ⟨?_, h⟩
    unfold step; dsimp only
    split
    · exact hh
    split
    · exact hh
    · exact hh
    · split
      · next hn => rw [hh] at hn; cases hn
      · next h hn => rw [hh] at hn; exact hn.symm
    · next rest hp => exact absurd ((hw.holder_of_unlock hp).1.symm.trans hh) (by simpa using hu)
    · exact hh
    · split <;> exact hh
    · split <;> exact hh
  · exact absurd (hu'.symm.trans hh) (by simpa using hu)

theorem sentBy_step_other {t u : T} (hu : u ≠ t) : sentBy (step s u) t = sentBy s t := by
  unfold step; dsimp only
  split
  · rfl
  split
  · rfl
  all_goals first
    | rfl
    | (split <;> first | rfl | simp [sentBy, List.filter_append, hu])

theorem Wf.run (hw : Wf s) (sched : List T) : Wf (run s sched) := by
  induction sched generalizing s with
  | nil => exact hw
  | cons u rest ih => exact ih (step_wf hw u)

/-- Where an agent that started `send_app_message` can be: finished after a failed check,
at the check, at its `scoped_lock()`, or holding the mutex at the build or at the
`scoped_lock()` of `send_raw`. -/
def AppAt (type : MsgType) (s : State T) (t : T) : Prop :=
  (s.senders t).prog = [] ∨ (s.senders t).prog = sendAppMessage type ∨
    (s.senders t).prog = (sendAppMessage type).drop 1 ∨
    (((s.senders t).prog = (sendAppMessage type).drop 2 ∨
      (s.senders t).prog = (sendAppMessage type).drop 3) ∧ s.mutex.holder = some t)

def SelfBlocked (s : State T) (t : T) : Prop :=
  s.mutex.holder = some t ∧ (s.senders t).waiting = true

theorem step_of_waiting {t : T} (h : (s.senders t).waiting = true) : step s t = s := by
  simp [step, h]

theorem AppAt.step_self {type : MsgType} {t : T} (ha : AppAt type s t) :
    AppAt type (step s t) t ∧ (step s t).sent = s.sent := by
  cases hwt : (s.senders t).waiting
  case true => rw [step_of_waiting hwt]; exact ⟨ha, rfl⟩
  rcases ha with hp | hp | hp | ⟨hp | hp, hh⟩
  · simp [step, hwt, hp, AppAt]
  · cases hc : s.canSend <;> simp [step, hwt, hp, hc, AppAt, sendAppMessage, sendRaw, sendRawUnlocked]
  · cases hh : s.mutex.holder <;>
      simp [step, hwt, hp, hh, sendAppMessage, sendRaw, sendRawUnlocked, AppAt]
  all_goals simp [step, hwt, hp, hh, sendAppMessage, sendRaw, sendRawUnlocked, AppAt]

theorem AppAt.step_other (hw : Wf s) {type : MsgType} {t u : T} (ha : AppAt type s t)
    (hu : u ≠ t) : AppAt type (step s u) t := by
  rcases step_senders_other hw hu with h | ⟨h, hh', hh, hq⟩
  · rcases ha with hp | hp | hp | ⟨hp, hh⟩
    · exact .inl (h ▸ hp)
    · exact .inr (.inl (h ▸ hp))
    · exact .inr (.inr (.inl (h ▸ hp)))
    · exact .inr (.inr (.inr ⟨h ▸ hp, (step_holder_other hw hu hh).1⟩))
  · have hwt : (s.senders t).waiting = true := (hw.waiting t).mpr (List.mem_of_mem_head? hq)
    have hl := hw.atLock t hwt
    have hp : (s.senders t).prog = (sendAppMessage type).drop 1 := by
      rcases ha with hp | hp | hp | ⟨-, hh''⟩
      · simp [hp] at hl
      · simp [hp, sendAppMessage] at hl
      · exact hp
      · exact absurd (hh.symm.trans hh'') (by simpa using hu)
    refine .inr (.inr (.inr ⟨.inl ?_, hh'⟩))
    rw [h, Sender.resume, hp]; rfl

theorem AppAt.run (hw : Wf s) {type : MsgType} {t : T} (ha : AppAt type s t) (sched : List T) :
    AppAt type (run s sched) t ∧ sentBy (run s sched) t = sentBy s t := by
  induction sched generalizing s with
  | nil => exact ⟨ha, rfl⟩
  | cons u rest ih =>
    have hstep : AppAt type (step s u) t ∧ sentBy (step s u) t = sentBy s t := by
      by_cases hu : u = t
      · subst hu
        obtain ⟨h1, h2⟩ := ha.step_self
        exact ⟨h1, by simp only [sentBy, h2]⟩
      · exact ⟨ha.step_other hw hu, sentBy_step_other hu⟩
    obtain ⟨h1, h2⟩ := ih (step_wf hw u) hstep.1
    exact ⟨h1, h2.trans hstep.2⟩

theorem SelfBlocked.run (hw : Wf s) {t : T} (hb : SelfBlocked s t) (sched : List T) :
    SelfBlocked (run s sched) t := by
  induction sched generalizing s with
  | nil => exact hb
  | cons u rest ih =>
    refine ih (step_wf hw u) ?_
    by_cases hu : u = t
    · subst hu; rwa [step_of_waiting hb.2]
    · obtain ⟨h1, h2⟩ := step_holder_other hw hu hb.1
      exact ⟨h1, h2 ▸ hb.2⟩

/-- Run alone from a free mutex, `send_app_message` takes the lock, builds its message and
then waits in `send_raw` for the lock it holds. -/
theorem sendAppMessage_four_steps (hw : Wf s) {type : MsgType} {t : T}
    (ht : (s.senders t).prog = sendAppMessage type) (hwt : (s.senders t).waiting = false)
    (hc : s.canSend = true) (hh : s.mutex.holder = none) :
    SelfBlocked (run s [t, t, t, t]) t := by
  have hq := hw.free hh
  simp [run, step, ht, hwt, hc, hh, hq, sendAppMessage, sendRaw, sendRawUnlocked, SelfBlocked]

theorem sendAppMessage_blocks_on_own_lock (hw : Wf s) {type : MsgType} {t : T}
    (ht : (s.senders t).prog = sendAppMessage type) (hwt : (s.senders t).waiting = false)
    (sched : List T) :
    sentBy (run s sched) t = sentBy s t ∧
      (s.canSend = true → s.mutex.holder = none →
        SelfBlocked (run s (t :: t :: t :: t :: sched)) t) :=
  ⟨(AppAt.run hw (.inr (.inl ht)) sched).2, fun hc hh =>
    (sendAppMessage_four_steps hw ht hwt hc hh).run (hw.run _) sched⟩

end

def appSession : State (Fin 2) :=
  init (fun i => if i = 0 then sendAppMessage 'D' else sendHeartbeat) {} true false

theorem appSession_blocks :
    (run appSession [0, 0, 0, 0, 1, 1]).sent = [] ∧
    (sentBy (run appSession [1, 1]) 0 = sentBy appSession 0 ∧
      (appSession.canSend = true → appSession.mutex.holder = none →
        SelfBlocked (run appSession [0, 0, 0, 0, 1, 1]) 0)) :=
  ⟨by decide, @sendAppMessage_blocks_on_own_lock (Fin 2) _ appSession
    (wf_init _ _ _ _ (by decide)) 'D' 0 rfl rfl [1, 1]⟩

/-- Of the allocations since the counter stood at `o`, `A ≤ n` have moved it to `o + A`; each
built fresh message carries an earlier one, and each fresh message in the store lies under a
later one than its own (all mod 2^32). -/
def FreshBelow (o n : Nat) (s : State T) : Prop :=
  ∃ A ≤ n, s.seq.outbound = (o + A) % 4294967296 ∧
    (∀ u m, (s.senders u).msg = some m → m.fresh = true → ∃ a < A, m.seq = (o + a) % 4294967296) ∧
    ∀ k m, (k, m) ∈ s.stores → m.fresh = true →
      ∃ a b, a < b ∧ b ≤ A ∧ m.seq = (o + a) % 4294967296 ∧ k = (o + b) % 4294967296

omit [DecidableEq T] in
theorem freshBelow_init (progs : T → List Instr) (seq : SequenceManager) (canSend hasStore : Bool) :
    FreshBelow seq.outbound 0 (init progs seq canSend hasStore) :=
  ⟨0, le_rfl, (Nat.mod_eq_of_lt seq.outbound_lt).symm, fun _ _ h => by simp [init] at h,
    fun _ _ h => by simp [init] at h⟩

section
variable {s : State T} {o n : Nat}

omit [DecidableEq T] in
theorem FreshBelow.frame (hf : FreshBelow o n s) {s' : State T}
    (hm : ∀ u m, (s'.senders u).msg = some m → m.fresh = true → (s.senders u).msg = some m)
    (hq : s'.seq = s.seq) (hst : s'.stores = s.stores) : FreshBelow o (n + 1) s' :=
  let ⟨A, hA, hout, hmsg, hstore⟩ := hf
  ⟨A, by omega, hq ▸ hout, fun u m h hfr => hmsg u m (hm u m h hfr) hfr,
    fun k m h hfr => hstore k m (hst ▸ h) hfr⟩

theorem step_freshBelow (hf : FreshBelow o n s) (t : T) : FreshBelow o (n + 1) (step s t) := by
  have kept : ∀ c : Sender, (∀ m, c.msg = some m → m.fresh = true → (s.senders t).msg = some m) →
      ∀ u m, ((setSender s t c).senders u).msg = some m → m.fresh = true →
        (s.senders u).msg = some m := fun c hc u m h hfr => by
    by_cases hu : u = t
    · subst hu; simp only [setSender_senders, if_true] at h; exact hc m h hfr
    · simpa [hu] using h
  have same := fun c (hc : c.msg = (s.senders t).msg) => kept c fun m h _ => hc ▸ h
  unfold step; dsimp only
  split
  · exact hf.frame (fun _ _ h _ => h) rfl rfl
  split
  · exact hf.frame (fun _ _ h _ => h) rfl rfl
  · exact hf.frame (same _ rfl) rfl rfl
  · split <;> exact hf.frame (same _ rfl) rfl rfl
  · split
    · exact hf.frame (same _ rfl) rfl rfl
    · exact hf.frame (fun u m h => same _ (by rfl) u m ((grant_msg _ _ u).symm.trans h)) rfl rfl
  · next b rest _ =>
    cases b with
    | fresh type =>
      obtain ⟨A, hA, hout, hmsg, hstore⟩ := hf
      refine ⟨A + 1, by omega, ?_, fun u m h hfr => ?_, fun k m h hfr => ?_⟩
      · simp only [buildMsg, SequenceManager.nextOutbound_snd,
          SequenceManager.advanceOutbound_outbound, hout]; omega
      · simp only [setSender_senders] at h
        split at h
        · cases h; exact ⟨A, by omega, hout⟩
        · obtain ⟨a, ha, e⟩ := hmsg u m h hfr; exact ⟨a, by omega, e⟩
      · obtain ⟨a, b, hab, hb, e⟩ := hstore k m h hfr; exact ⟨a, b, hab, by omega, e⟩
    | gapFill _ => exact hf.frame (kept _ fun m h hfr => by cases h; cases hfr) rfl rfl
    | stored _ _ => exact hf.frame (kept _ fun m h hfr => by cases h; cases hfr) rfl rfl
  · split
    · next m hm _ =>
      obtain ⟨A, hA, hout, hmsg, hstore⟩ := hf
      refine ⟨A, by omega, hout, fun u m' h hfr => hmsg u m' (same _ (by rfl) u m' h hfr) hfr,
        fun k m' hk hfr => ?_⟩
      rcases List.mem_cons.mp hk with e | hk
      · cases e
        obtain ⟨a, ha, e⟩ := hmsg t m hm hfr
        exact ⟨a, A, ha, le_rfl, e, hout⟩
      · exact hstore k m' hk hfr
    · exact hf.frame (same _ rfl) rfl rfl
  · split <;> exact hf.frame (same _ rfl) rfl rfl

theorem FreshBelow.run (hf : FreshBelow o n s) (sched : List T) :
    FreshBelow o (n + sched.length) (run s sched) := by
  induction sched generalizing s n with
  | nil => exact hf
  | cons u rest ih =>
    rw [List.length_cons, ← Nat.add_assoc, Nat.add_right_comm]
    exact ih (step_freshBelow hf u)

end

/-- The store in `send_raw_unlocked` puts a message under `current_outbound()`, which
`next_outbound()` has already moved past the number a fresh message carries: the key lies at
least one allocation after that number, and above it while the counter does not wrap. -/
theorem store_key_exceeds_seq (progs : T → List Instr) (seq : SequenceManager)
    (canSend hasStore : Bool) (sched : List T) (k : Nat) (m : Msg)
    (hk : (k, m) ∈ (run (init progs seq canSend hasStore) sched).stores) (hm : m.fresh = true) :
    (∃ a b, a < b ∧ b ≤ sched.length ∧ m.seq = (seq.outbound + a) % 4294967296 ∧
      k = (seq.outbound + b) % 4294967296) ∧
    (seq.outbound + sched.length < 4294967296 → m.seq < k) := by
  obtain ⟨A, hA, -, -, hstore⟩ := (freshBelow_init progs seq canSend hasStore).run sched
  obtain ⟨a, b, hab, hb, ha, hkb⟩ := hstore k m hk hm
  exact ⟨⟨a, b, hab, by omega, ha, hkb⟩, fun _ => by omega⟩

def logonSession : State (Fin 1) := init (fun _ => logonSend) {} false true

theorem logon_stored_under_two :
    (run logonSession [0, 0, 0, 0, 0]).stores = [(2, ⟨MsgType.logon, 1, true⟩)] ∧
    retrieve (run logonSession [0, 0, 0, 0, 0]) 1 = none ∧
    retrieve (run logonSession [0, 0, 0, 0, 0]) 2 = some ⟨MsgType.logon, 1, true⟩ := by
  decide

theorem logon_key_above_seq :
    ((2, ⟨MsgType.logon, 1, true⟩) : Nat × Msg) ∈ (run logonSession [0, 0, 0, 0, 0]).stores ∧
      (∃ a b, a < b ∧ b ≤ 5 ∧ 1 = (1 + a) % 4294967296 ∧ 2 = (1 + b) % 4294967296) ∧
      (1 + 5 < 4294967296 → 1 < 2) :=
  have hk : ((2, ⟨MsgType.logon, 1, true⟩) : Nat × Msg) ∈
      (run logonSession [0, 0, 0, 0, 0]).stores := by decide
  ⟨hk, store_key_exceeds_seq (fun _ => logonSend) {} false true [0, 0, 0, 0, 0] 2 _ hk rfl⟩

def overtakeSession : State (Fin 3) :=
  init (fun i => [sendHeartbeat, logoutSend, handleSequenceGap].getD i.val [])
    { outbound := 5 } true false

/-- The heartbeat loop takes the mutex with 5 and yields in `send_async`; `logout_phase`
builds with 6 and waits; the receiver's ResendRequest then waits on top of it and is handed
the mutex first, built with 7. -/
def overtakeSchedule : List (Fin 3) := [0, 0, 0, 1, 1, 2, 0, 0, 2, 2, 2, 2, 1, 1, 1]

theorem logout_overtaken :
    ((run overtakeSession overtakeSchedule).sent.map (·.2)).map (fun m => (m.type, m.seq)) =
      [(MsgType.heartbeat, 5), (MsgType.resendRequest, 7), (MsgType.logout, 6)] ∧
    ∀ m ∈ (run overtakeSession overtakeSchedule).sent, m.2.fresh = true := by
  decide

end SessionSend
