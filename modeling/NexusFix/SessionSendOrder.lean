import NexusFix.SessionSend

/-! # The send discipline keeps fresh numbers consecutive

`send_heartbeat`, `send_test_request` and `handle_sequence_gap` take `next_outbound()` after
`scoped_lock()` and send before the lock is released. When every agent runs only such
paths, the messages reach `ITransport::send` numbered consecutively from the counter's
start (mod 2^32, as the `uint32_t` counter wraps), under every interleaving and the LIFO
hand-off: the sequence the spec asks of all sends, which the Logon and Logout break by
numbering before the lock. -/
namespace SessionSendOrder

open SessionMachine SessionSend

/-- Whole `lockedSend` blocks, one after another. -/
def Blocks (p : List Instr) : Prop := ∃ types : List MsgType, p = (types.map lockedSend).flatten

/-- Inside a block, past its `scoped_lock()`. -/
def Inside (p : List Instr) : Prop :=
  ∃ rest, Blocks rest ∧ ((∃ type, p = .build (.fresh type) :: .store :: .send :: .unlock :: rest) ∨
    p = .store :: .send :: .unlock :: rest ∨ p = .send :: .unlock :: rest ∨ p = .unlock :: rest)

/-- The agent has built its message and not yet sent it. -/
def Built : List Instr → Bool
  | .store :: _ => true
  | .send :: _ => true
  | _ => false

theorem Blocks.cases {p : List Instr} (h : Blocks p) :
    p = [] ∨ ∃ type rest, Blocks rest ∧
      p = .lock :: .build (.fresh type) :: .store :: .send :: .unlock :: rest := by
  obtain ⟨types, rfl⟩ := h
  cases types with
  | nil => exact .inl rfl
  | cons type types => exact .inr ⟨type, _, ⟨types, rfl⟩, rfl⟩

theorem Blocks.bracketed {p : List Instr} (h : Blocks p) : Bracketed 0 p := by
  obtain ⟨types, rfl⟩ := h
  induction types with
  | nil => rfl
  | cons type types ih => simpa [lockedSend, sendRawUnlocked, Bracketed] using ih

variable {T : Type} [DecidableEq T]

/-- One if the holder has built a message it has not yet sent. -/
def pending (s : State T) : Nat :=
  match s.mutex.holder with
  | some h => if Built (s.senders h).prog then 1 else 0
  | none => 0

/-- The holder is inside a block and every other agent between blocks; the messages sent
so far are numbered from `seq0` on and fresh; the counter is past them and past the
holder's built message, which carries the next number (all mod 2^32). -/
structure InOrder (seq0 : Nat) (s : State T) : Prop where
  wf : Wf s
  holder : ∀ u, s.mutex.holder = some u → Inside (s.senders u).prog
  other : ∀ u, s.mutex.holder ≠ some u → Blocks (s.senders u).prog
  sent : s.sent.map (·.2.seq) = (List.range' seq0 s.sent.length).map (· % 4294967296)
  fresh : ∀ p ∈ s.sent, p.2.fresh = true
  counter : s.seq.outbound = (seq0 + s.sent.length + pending s) % 4294967296
  built : ∀ h, s.mutex.holder = some h → Built (s.senders h).prog = true →
    ∃ type, (s.senders h).msg = some ⟨type, (seq0 + s.sent.length) % 4294967296, true⟩

theorem inOrder_init (types : T → List MsgType) (seq : SequenceManager) (canSend hasStore : Bool) :
    InOrder seq.outbound
      (init (fun u => ((types u).map lockedSend).flatten) seq canSend hasStore) where
  wf := wf_init _ _ _ _ fun u => Blocks.bracketed ⟨types u, rfl⟩
  holder _ h := by cases h
  other u _ := ⟨types u, rfl⟩
  sent := rfl
  fresh _ h := by simp [init] at h
  counter := by simp [init, pending, Nat.mod_eq_of_lt seq.outbound_lt]
  built _ h := by cases h

section
variable {s : State T} {seq0 : Nat}

/-- A step of the holder inside its block, before its `unlock()`. -/
theorem InOrder.of_holder (hi : InOrder seq0 s) {t : T} (ht : s.mutex.holder = some t)
    {s' : State T} {c : Sender} (hwf : Wf s') (hs : ∀ u, s'.senders u = if u = t then c else s.senders u)
    (hm : s'.mutex = s.mutex) (hin : Inside c.prog)
    (hsent : s'.sent.map (·.2.seq) = (List.range' seq0 s'.sent.length).map (· % 4294967296))
    (hfresh : ∀ p ∈ s'.sent, p.2.fresh = true)
    (hc : s'.seq.outbound = (seq0 + s'.sent.length + if Built c.prog then 1 else 0) % 4294967296)
    (hb : Built c.prog = true →
      ∃ type, c.msg = some ⟨type, (seq0 + s'.sent.length) % 4294967296, true⟩) :
    InOrder seq0 s' := by
  have hu : ∀ u, s'.mutex.holder = some u → u = t := fun u h => by
    rw [hm, ht] at h; exact (Option.some.inj h).symm
  refine ⟨hwf, fun u h => ?_, fun u h => ?_, hsent, hfresh, ?_, fun u h => ?_⟩
  · obtain rfl := hu u h; simpa [hs] using hin
  · have hut : u ≠ t := fun e => h (by rw [hm, ht, e])
    simpa [hs, hut] using hi.other u (by rwa [hm] at h)
  · simpa [pending, hm, ht, hs] using hc
  · obtain rfl := hu u h; simpa [hs] using hb

/-- A step that moves no program, message, counter or send and keeps the holder. -/
theorem InOrder.congr (hi : InOrder seq0 s) {s' : State T} (hwf : Wf s')
    (hh : s'.mutex.holder = s.mutex.holder) (hp : ∀ u, (s'.senders u).prog = (s.senders u).prog)
    (hm : ∀ u, (s'.senders u).msg = (s.senders u).msg) (hq : s'.seq = s.seq)
    (hsent : s'.sent = s.sent) : InOrder seq0 s' := by
  refine ⟨hwf, fun u h => ?_, fun u h => ?_, hsent ▸ hi.sent, hsent ▸ hi.fresh, ?_,
    fun u h hb => ?_⟩
  · rw [hp]; exact hi.holder u (hh ▸ h)
  · rw [hp]; exact hi.other u (hh ▸ h)
  · simp only [pending, hh, hp, hq, hsent]; exact hi.counter
  · rw [hp] at hb; rw [hm, hsent]; exact hi.built u (hh ▸ h) hb

/-- A step of an agent between blocks: its `scoped_lock()` takes the free mutex, or
suspends it on the stack. -/
theorem InOrder.step_other (hi : InOrder seq0 s) {t : T} (ht : s.mutex.holder ≠ some t)
    (hw : (s.senders t).waiting = false) : InOrder seq0 (step s t) := by
  have hwf := step_wf hi.wf t
  rcases (hi.other t ht).cases with hp | ⟨type, rest, hr, hp⟩
  · rwa [show step s t = s by simp [step, hw, hp]] at hwf ⊢
  cases hh : s.mutex.holder with
  | none =>
    simp only [step, hw, hp, hh, Bool.false_eq_true, if_false] at hwf ⊢
    have hn := hi.counter
    simp only [pending, hh, Nat.add_zero] at hn
    refine ⟨hwf, fun u h => ?_, fun u h => ?_, hi.sent, hi.fresh, ?_, fun u h hb => ?_⟩
    · obtain rfl : t = u := Option.some.inj h
      simpa using ⟨rest, hr, .inl ⟨type, rfl⟩⟩
    · have hut : u ≠ t := fun e => h (by rw [e])
      simpa [hut] using hi.other u (by simp [hh])
    · simpa [pending, Built] using hn
    · obtain rfl : t = u := Option.some.inj h
      simp [Built] at hb
  | some h =>
    simp only [step, hw, hp, hh, Bool.false_eq_true, if_false] at hwf ⊢
    refine hi.congr hwf hh.symm (fun u => ?_) (fun u => ?_) rfl rfl <;>
      by_cases hu : u = t <;> simp [hu, hp]

/-- The holder's `unlock()`: it frees the mutex, or hands it to the top waiter, which
resumes inside its own block. -/
theorem InOrder.step_unlock (hi : InOrder seq0 s) {t : T} (ht : s.mutex.holder = some t)
    (hw : (s.senders t).waiting = false) {rest : List Instr} (hr : Blocks rest)
    (hp : (s.senders t).prog = .unlock :: rest) : InOrder seq0 (step s t) := by
  have hwf := step_wf hi.wf t
  have hn := hi.counter
  simp only [pending, ht, hp, Built] at hn
  have hne : ∀ u, u ≠ t → s.mutex.holder ≠ some u := fun u hu e =>
    hu (Option.some.inj (ht.symm.trans e)).symm
  cases hq : s.mutex.waiters with
  | nil =>
    simp only [step, hw, hp, hq, Bool.false_eq_true, if_false] at hwf ⊢
    refine ⟨hwf, (fun u h => by cases h), fun u _ => ?_, hi.sent, hi.fresh,
      (by simpa [pending] using hn), fun u h => by cases h⟩
    by_cases hu : u = t
    · simpa [hu] using hr
    · simpa [hu] using hi.other u (hne u hu)
  | cons w ws =>
    have hwq : (s.senders w).waiting = true := (hi.wf.waiting w).mpr (by simp [hq])
    have hwt : w ≠ t := fun e => by simp [e, hw] at hwq
    obtain ⟨type, r, hr', hpw⟩ := ((hi.other w (hne w hwt)).cases).resolve_left fun h => by
      have := hi.wf.atLock w hwq; rw [h] at this; cases this
    simp only [step, hw, hp, hq, Bool.false_eq_true, if_false] at hwf ⊢
    refine ⟨hwf, fun u h => ?_, fun u h => ?_, hi.sent, hi.fresh, ?_, fun u h hb => ?_⟩
    · obtain rfl : w = u := Option.some.inj h
      simpa [grant, Sender.resume, hwt, hpw] using ⟨r, hr', .inl ⟨type, rfl⟩⟩
    · have huw : u ≠ w := fun e => h (by rw [e])
      by_cases hu : u = t
      · simpa [grant, huw, hu, Ne.symm hwt] using hr
      · simpa [grant, huw, hu] using hi.other u (hne u hu)
    · simpa [pending, grant, Sender.resume, hwt, hpw, Built] using hn
    · obtain rfl : w = u := Option.some.inj h
      simp [grant, Sender.resume, hwt, hpw, Built] at hb

/-- The holder's step through its block: the build takes the next number, the send hands
over the message carrying it. -/
theorem InOrder.step_holder (hi : InOrder seq0 s) {t : T} (ht : s.mutex.holder = some t)
    (hw : (s.senders t).waiting = false) : InOrder seq0 (step s t) := by
  have hwf := step_wf hi.wf t
  have hn := hi.counter
  simp only [pending, ht] at hn
  obtain ⟨rest, hr, ⟨type, hp⟩ | hp | hp | hp⟩ := hi.holder t ht
  · simp only [step, hw, hp, Bool.false_eq_true, if_false] at hwf ⊢
    simp only [hp, Built, Bool.false_eq_true, if_false, Nat.add_zero] at hn
    exact hi.of_holder ht hwf (fun u => setSender_senders ..) rfl ⟨rest, hr, .inr (.inl rfl)⟩
      hi.sent hi.fresh (by simp [buildMsg, Built]; omega) fun _ => ⟨type, by simpa [buildMsg] using hn⟩
  · obtain ⟨type, hm⟩ := hi.built t ht (by rw [hp]; rfl)
    simp only [step, hw, hp, hm, Bool.false_eq_true, if_false] at hwf ⊢
    simp only [hp, Built] at hn
    split at hwf <;>
      exact hi.of_holder ht hwf (fun u => setSender_senders ..) rfl
        ⟨rest, hr, .inr (.inr (.inl rfl))⟩ hi.sent hi.fresh (by simpa [Built] using hn)
        fun _ => ⟨type, rfl⟩
  · obtain ⟨type, hm⟩ := hi.built t ht (by rw [hp]; rfl)
    simp only [step, hw, hp, hm, Bool.false_eq_true, if_false] at hwf ⊢
    simp only [hp, Built, if_true] at hn
    refine hi.of_holder ht hwf (fun u => setSender_senders ..) rfl
      ⟨rest, hr, .inr (.inr (.inr rfl))⟩ ?_ ?_ (by simp [Built, hn]; omega) (by simp [Built])
    · simp [hi.sent, List.range'_concat]
    · intro p hp'
      rcases List.mem_append.mp hp' with hp' | hp'
      · exact hi.fresh p hp'
      · simp at hp'; rw [hp']
  · exact hi.step_unlock ht hw hr hp

theorem step_inOrder (hi : InOrder seq0 s) (t : T) : InOrder seq0 (step s t) := by
  by_cases hw : (s.senders t).waiting = true
  · rw [step_of_waiting hw]; exact hi
  have hw' : (s.senders t).waiting = false := by simpa using hw
  by_cases ht : s.mutex.holder = some t
  · exact hi.step_holder ht hw'
  · exact hi.step_other ht hw'

theorem InOrder.run (hi : InOrder seq0 s) (sched : List T) : InOrder seq0 (run s sched) := by
  induction sched generalizing s with
  | nil => exact hi
  | cons u rest ih => exact ih (step_inOrder hi u)

end

/-- When every agent runs whole `lockedSend` blocks, under every schedule the messages reach
the transport numbered consecutively from the counter's start, mod 2^32, each freshly
allocated. -/
theorem lockedSends_consecutive (types : T → List MsgType) (seq : SequenceManager)
    (canSend hasStore : Bool) (sched : List T) :
    let s := run (init (fun u => ((types u).map lockedSend).flatten) seq canSend hasStore) sched
    s.sent.map (·.2.seq) = (List.range' seq.outbound s.sent.length).map (· % 4294967296) ∧
      ∀ p ∈ s.sent, p.2.fresh = true :=
  let hi := (inOrder_init types seq canSend hasStore).run sched
  ⟨hi.sent, hi.fresh⟩

end SessionSendOrder
