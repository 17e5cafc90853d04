import NexusFix.AsyncMutexWord

/-! # Event: broadcast resumption under every interleaving

`Event` of `session/async_primitives.hpp`. An agent is a thread of control running one
call at a time: an `EventAwaiter`, a `set()` with its walk, or a `reset()`; a waiter node
is named by its agent. `epoch` counts the exchanges of `set()` so far: it is ghost state,
and so are the numbers a suspended, resumed or walking agent carries. -/
namespace AsyncEventWord

open AsyncMutexWord (Chain)

/-- The state word: `nullptr`, `&set_sentinel_tag_`, or the address of a waiting `EventAwaiter`. -/
inductive Word (T : Type)
  | null
  | set
  | waiter (t : T)
  deriving DecidableEq, Repr

/-- Where an agent is: the load, the test and the weak compare-exchange of `await_suspend`,
suspended since exchange `enq` or resumed by exchange `k`, returned from `await_ready`, walking
the list of exchange `k` from `cur`, about to resume `w` having read its `next_`, or the fault
of resuming a node that is not suspended. -/
inductive Phase (T : Type)
  | idle
  | suspendLoad
  | suspendTest (old : Word T)
  | suspendCas (old : Word T)
  | suspended (enq : Nat)
  | resumed (enq k : Nat)
  | ready
  | walk (k : Nat) (cur : Option T)
  | walkResume (k : Nat) (w : T) (next : Option T)
  | fault
  deriving DecidableEq, Repr

def Phase.between {T : Type} : Phase T → Bool
  | .idle | .ready | .resumed _ _ => true
  | _ => false

def Phase.quiet {T : Type} : Phase T → Bool
  | .suspended _ | .walk _ _ | .walkResume _ _ _ | .fault => false
  | _ => true

def Phase.walker {T : Type} : Phase T → Option Nat
  | .walk k _ | .walkResume k _ _ => some k
  | _ => none

structure State (T : Type) where
  word : Word T
  next : T → Option T
  phase : T → Phase T
  epoch : Nat

inductive Call
  | await
  | set
  | reset
  deriving DecidableEq, Repr

variable {T : Type}

def init : State T := ⟨.null, fun _ => none, fun _ => .idle, 0⟩

def Word.head : Word T → Option T
  | .waiter w => some w
  | _ => none

/-- What a walking `set()` has left to resume: `cur` onward, or `w` and then `next`
onward; nothing for an agent that is not walking. -/
def WalkList (next : T → Option T) : Phase T → List T → Prop
  | .walk _ cur, l => Chain next cur l
  | .walkResume _ w n, l => ∃ rest, l = w :: rest ∧ Chain next n rest
  | _, l => l = []

/-- Here `L` is the list the word heads and `W u` what walker `u` has left. The word's list
holds the waiters enqueued since the last exchange, walker `k` those enqueued between
exchanges `k - 1` and `k`, each suspended waiter sits in exactly one list, and a resumed
waiter was resumed by the first exchange after its enqueue. -/
structure Rep (s : State T) (L : List T) (W : T → List T) : Prop where
  word : Chain s.next s.word.head L
  walks : ∀ u, WalkList s.next (s.phase u) (W u)
  nodup : L.Nodup
  nodupW : ∀ u, (W u).Nodup
  disjoint : ∀ u x, x ∈ W u → x ∉ L
  disjointW : ∀ u v x, x ∈ W u → x ∈ W v → u = v
  pending : ∀ x, x ∈ L → s.phase x = .suspended s.epoch
  taken : ∀ u k x, (s.phase u).walker = some k → x ∈ W u → s.phase x = .suspended (k - 1)
  covered : ∀ x e, s.phase x = .suspended e → x ∈ L ∨ ∃ u, x ∈ W u
  numbered : ∀ u v k, (s.phase u).walker = some k → (s.phase v).walker = some k → u = v
  bounded : ∀ u k, (s.phase u).walker = some k → 1 ≤ k ∧ k ≤ s.epoch
  resumed : ∀ x e k, s.phase x = .resumed e k → k = e + 1
  link : ∀ t old, s.phase t = .suspendCas old → old ≠ .set ∧ s.next t = old.head
  sound : ∀ x, s.phase x ≠ .fault

theorem Phase.walker_of_quiet {p : Phase T} (h : p.quiet) : p.walker = none := by
  cases p <;> simp_all [Phase.quiet, Phase.walker]

theorem Phase.not_suspended_of_quiet {p : Phase T} (h : p.quiet) : ∀ e, p ≠ .suspended e :=
  fun e he => by simp [he, Phase.quiet] at h

theorem Phase.ne_fault_of_quiet {p : Phase T} (h : p.quiet) : p ≠ .fault := by
  rintro rfl; cases h

theorem Phase.quiet_of_between {p : Phase T} (h : p.between) : p.quiet := by
  cases p <;> simp_all [Phase.between, Phase.quiet]

theorem walkList_of_walker {next : T → Option T} {p : Phase T} {l : List T}
    (h : p.walker = none) : WalkList next p l ↔ l = [] := by
  cases p <;> simp_all [WalkList, Phase.walker]

theorem walkList_congr {next next' : T → Option T} {p : Phase T} {l : List T}
    (h : WalkList next p l) (he : ∀ x ∈ l, next' x = next x) : WalkList next' p l := by
  cases p with
  | walk k cur => exact Chain.congr h he
  | walkResume k w n =>
    obtain ⟨rest, rfl, hc⟩ := h
    exact ⟨rest, rfl, hc.congr fun x hx => he x (List.mem_cons_of_mem _ hx)⟩
  | _ => exact h

theorem rep_init : Rep (init : State T) [] (fun _ => []) where
  word := .nil
  walks _ := rfl
  nodup := List.nodup_nil
  nodupW _ := List.nodup_nil
  disjoint _ _ h := by simp at h
  disjointW _ _ _ h := by simp at h
  pending _ h := by simp at h
  taken _ _ _ h := by simp [init, Phase.walker] at h
  covered _ _ h := by simp [init] at h
  numbered _ _ _ h := by simp [init, Phase.walker] at h
  bounded _ _ h := by simp [init, Phase.walker] at h
  resumed _ _ _ h := by simp [init] at h
  link _ _ h := by simp [init] at h
  sound _ h := by cases h

section
variable {s : State T} {L : List T} {W : T → List T}

theorem Rep.W_nil (hr : Rep s L W) {t : T} (ht : (s.phase t).walker = none) : W t = [] := by
  have h := hr.walks t
  generalize s.phase t = p at h ht
  cases p <;> simp_all [WalkList, Phase.walker]

theorem Rep.suspended_of_mem_W (hr : Rep s L W) {u x : T} (hx : x ∈ W u) :
    ∃ e, s.phase x = .suspended e := by
  cases hw : (s.phase u).walker with
  | none => simp [hr.W_nil hw] at hx
  | some k => exact ⟨_, hr.taken u k x hw hx⟩

theorem Rep.not_mem_L (hr : Rep s L W) {t : T} (ht : ∀ e, s.phase t ≠ .suspended e) : t ∉ L :=
  fun h => ht _ (hr.pending t h)

theorem Rep.not_mem_W (hr : Rep s L W) {t u : T} (ht : ∀ e, s.phase t ≠ .suspended e) :
    t ∉ W u := fun h => let ⟨_, he⟩ := hr.suspended_of_mem_W h; ht _ he

theorem Rep.quietAt (hr : Rep s L W) {t : T} (ht : (s.phase t).quiet) :
    (∀ e, s.phase t ≠ .suspended e) ∧ W t = [] :=
  ⟨Phase.not_suspended_of_quiet ht, hr.W_nil (Phase.walker_of_quiet ht)⟩

theorem Rep.set_empty (hr : Rep s L W) (h : s.word = .set) : L = [] := by
  have := hr.word; rw [h] at this; cases this; rfl

theorem Rep.unset (hr : Rep s L W) (h : s.word = .set) : Rep { s with word := .null } [] W := by
  obtain rfl := hr.set_empty h
  exact ⟨.nil, hr.walks, hr.nodup, hr.nodupW, hr.disjoint, hr.disjointW, hr.pending, hr.taken,
    hr.covered, hr.numbered, hr.bounded, hr.resumed, hr.link, hr.sound⟩

end

variable [DecidableEq T]

def setPhase (s : State T) (t : T) (p : Phase T) : State T :=
  { s with phase := Function.update s.phase t p }

def begin (s : State T) (t : T) : Call → State T
  | .await => setPhase s t (if s.word = .set then .ready else .suspendLoad)
  | .set => { setPhase s t (.walk (s.epoch + 1) s.word.head) with word := .set, epoch := s.epoch + 1 }
  | .reset => if s.word = .set then { setPhase s t .idle with word := .null } else setPhase s t .idle

/-- The next atomic step of an agent inside a call. -/
def step (s : State T) (t : T) (spurious : Bool) : State T :=
  match s.phase t with
  | .suspendLoad => setPhase s t (.suspendTest s.word)
  | .suspendTest old =>
    if old = .set then setPhase s t .ready
    else { setPhase s t (.suspendCas old) with next := Function.update s.next t old.head }
  | .suspendCas old =>
    if s.word = old ∧ spurious = false then
      { setPhase s t (.suspended s.epoch) with word := .waiter t }
    else setPhase s t (.suspendTest s.word)
  | .walk _ none => setPhase s t .idle
  | .walk k (some w) => setPhase s t (.walkResume k w (s.next w))
  | .walkResume k w n =>
    match s.phase w with
    | .suspended e => setPhase (setPhase s w (.resumed e k)) t (.walk k n)
    | _ => setPhase (setPhase s w .fault) t (.walk k n)
  | _ => s

inductive Event (T : Type)
  | begin (t : T) (c : Call)
  | step (t : T) (spurious : Bool)

def apply (s : State T) : Event T → State T
  | .begin t c => if (s.phase t).between then begin s t c else s
  | .step t spurious => step s t spurious

inductive Reachable : State T → Prop
  | init : Reachable init
  | apply {s} : Reachable s → ∀ e, Reachable (apply s e)

def run (s : State T) (evs : List (Event T)) : State T := evs.foldl apply s

theorem Reachable.run {s : State T} (h : Reachable s) (evs : List (Event T)) :
    Reachable (run s evs) := by
  induction evs generalizing s with
  | nil => exact h
  | cons ev rest ih => exact ih (h.apply ev)

/-- What the word implements: waiters wait in `L` for the next exchange, which hands all of
them at once to one `set()`; that `set()` then resumes its batch `W t` one node at a time. -/
inductive Broadcast : List T → (T → List T) → List T → (T → List T) → Prop
  | enqueue {L W} (x : T) : Broadcast L W (x :: L) W
  | exchange {L W} (t : T) : W t = [] → Broadcast L W [] (Function.update W t L)
  | resume {L W rest} (t x : T) : W t = x :: rest → Broadcast L W L (Function.update W t rest)

@[simp] theorem setPhase_word (s : State T) (t : T) (p : Phase T) :
    (setPhase s t p).word = s.word := rfl

@[simp] theorem setPhase_next (s : State T) (t : T) (p : Phase T) :
    (setPhase s t p).next = s.next := rfl

@[simp] theorem setPhase_epoch (s : State T) (t : T) (p : Phase T) :
    (setPhase s t p).epoch = s.epoch := rfl

@[simp] theorem setPhase_phase (s : State T) (t x : T) (p : Phase T) :
    (setPhase s t p).phase x = if x = t then p else s.phase x := Function.update_apply ..

section
variable {s : State T} {L : List T} {W : T → List T}

theorem walker_setPhase {t u : T} {p : Phase T} (hp : p.walker = none) {k : Nat}
    (hu : ((setPhase s t p).phase u).walker = some k) :
    u ≠ t ∧ (s.phase u).walker = some k := by
  by_cases hut : u = t
  · simp [hut, hp] at hu
  · simp only [setPhase_phase, hut, if_false] at hu; exact ⟨hut, hu⟩

theorem walker_setPhase_eq {t : T} {p : Phase T} (hp : p.walker = (s.phase t).walker) (u : T) :
    ((setPhase s t p).phase u).walker = (s.phase u).walker := by
  by_cases hut : u = t
  · subst hut; simpa using hp
  · simp [hut]

theorem covered_setPhase {P : T → Prop} (h : ∀ x e, s.phase x = .suspended e → P x) {t : T}
    {p : Phase T} (hp : ∀ e, p ≠ .suspended e) :
    ∀ x e, (setPhase s t p).phase x = .suspended e → P x := fun x e hx => by
  by_cases hxt : x = t
  · simp only [setPhase_phase, hxt, if_true] at hx; exact absurd hx (hp e)
  · simp only [setPhase_phase, hxt, if_false] at hx; exact h x e hx

theorem resumed_setPhase (h : ∀ x e k, s.phase x = .resumed e k → k = e + 1) {t : T}
    {p : Phase T} (hp : ∀ e k, p = .resumed e k → k = e + 1) :
    ∀ x e k, (setPhase s t p).phase x = .resumed e k → k = e + 1 := fun x e k hx => by
  by_cases hxt : x = t
  · simp only [setPhase_phase, hxt, if_true] at hx; exact hp e k hx
  · simp only [setPhase_phase, hxt, if_false] at hx; exact h x e k hx

theorem link_setPhase
    (h : ∀ x old, s.phase x = .suspendCas old → old ≠ .set ∧ s.next x = old.head) {t : T}
    {p : Phase T} (hp : ∀ old, p = .suspendCas old → old ≠ .set ∧ s.next t = old.head) :
    ∀ x old, (setPhase s t p).phase x = .suspendCas old → old ≠ .set ∧ s.next x = old.head :=
  fun x old hx => by
  by_cases hxt : x = t
  · subst hxt; simp only [setPhase_phase, if_true] at hx; exact hp old hx
  · simp only [setPhase_phase, hxt, if_false] at hx; exact h x old hx

theorem sound_setPhase (h : ∀ x, s.phase x ≠ .fault) {t : T} {p : Phase T} (hp : p ≠ .fault) :
    ∀ x, (setPhase s t p).phase x ≠ .fault := fun x => by
  by_cases hxt : x = t <;> simp [hxt, hp, h x]

theorem Rep.move (hr : Rep s L W) {t : T} {p : Phase T} (hq : p.quiet)
    (hq' : ∀ e, s.phase t ≠ .suspended e) (hW : W t = []) (hres : ∀ e k, p ≠ .resumed e k)
    (hlink : ∀ old, p = .suspendCas old → old ≠ .set ∧ s.next t = old.head) :
    Rep (setPhase s t p) L W := by
  have hpw := Phase.walker_of_quiet hq
  refine ⟨hr.word, fun u => ?_, hr.nodup, hr.nodupW, hr.disjoint, hr.disjointW, fun x hx => ?_,
    fun u k x hu hx => ?_, covered_setPhase hr.covered (Phase.not_suspended_of_quiet hq),
    fun u v k hu hv => hr.numbered u v k (walker_setPhase hpw hu).2 (walker_setPhase hpw hv).2,
    fun u k hu => hr.bounded u k (walker_setPhase hpw hu).2,
    resumed_setPhase hr.resumed fun e k h => absurd h (hres e k), link_setPhase hr.link hlink,
    sound_setPhase hr.sound (Phase.ne_fault_of_quiet hq)⟩
  · by_cases hu : u = t
    · subst hu; simpa [walkList_of_walker hpw] using hW
    · simpa [hu] using hr.walks u
  · have : x ≠ t := fun e => hr.not_mem_L hq' (e ▸ hx)
    simpa [this] using hr.pending x hx
  · have hxt : x ≠ t := fun e => hr.not_mem_W hq' (e ▸ hx)
    simpa [hxt] using hr.taken u k x (walker_setPhase hpw hu).2 hx

theorem Rep.setNext (hr : Rep s L W) {t : T} (ht : (s.phase t).quiet)
    (hc : ∀ old, s.phase t ≠ .suspendCas old) (n : Option T) :
    Rep { s with next := Function.update s.next t n } L W := by
  have hs := Phase.not_suspended_of_quiet ht
  have hL : ∀ x ∈ L, x ≠ t := fun x hx e => hr.not_mem_L hs (e ▸ hx)
  refine ⟨hr.word.congr fun x hx => Function.update_noteq (hL x hx) _ _,
    fun u => walkList_congr (hr.walks u) fun x hx =>
      Function.update_noteq (fun e => hr.not_mem_W hs (e ▸ hx)) _ _,
    hr.nodup, hr.nodupW, hr.disjoint, hr.disjointW, hr.pending, hr.taken, hr.covered,
    hr.numbered, hr.bounded, hr.resumed, fun x old hx => ?_, hr.sound⟩
  have hxt : x ≠ t := fun e => hc old (e ▸ hx)
  simpa [Function.update_noteq hxt] using hr.link x old hx

/-- The weak CAS that installs the awaiter as the new head. -/
theorem Rep.enqueue (hr : Rep s L W) {t : T} {old : Word T} (hp : s.phase t = .suspendCas old)
    (hw : s.word = old) :
    Rep { setPhase s t (.suspended s.epoch) with word := .waiter t } (t :: L) W := by
  obtain ⟨hset, hnext⟩ := hr.link t old hp
  have hq : (s.phase t).quiet := by simp [hp, Phase.quiet]
  have hs := Phase.not_suspended_of_quiet hq
  have htL := hr.not_mem_L hs
  have hW := hr.W_nil (Phase.walker_of_quiet hq)
  have hpw : (Phase.suspended (T := T) s.epoch).walker = none := rfl
  refine ⟨.cons (hnext ▸ hw ▸ hr.word), fun u => ?_, List.nodup_cons.mpr ⟨htL, hr.nodup⟩,
    hr.nodupW, fun u x hx => ?_, hr.disjointW, fun x hx => ?_, fun u k x hu hx => ?_,
    fun x e hx => ?_,
    fun u v k hu hv => hr.numbered u v k (walker_setPhase hpw hu).2 (walker_setPhase hpw hv).2,
    fun u k hu => hr.bounded u k (walker_setPhase hpw hu).2,
    resumed_setPhase hr.resumed (fun _ _ h => by cases h),
    link_setPhase hr.link (fun _ h => by cases h), sound_setPhase hr.sound (by simp)⟩
  · by_cases hu : u = t
    · subst hu; simpa [WalkList] using hW
    · simpa [hu] using hr.walks u
  · exact List.not_mem_cons_of_ne_of_not_mem (fun e => hr.not_mem_W hs (e ▸ hx)) (hr.disjoint u x hx)
  · rcases List.mem_cons.mp hx with rfl | hx
    · simp
    · have hxt : x ≠ t := fun e => htL (e ▸ hx)
      simpa [hxt] using hr.pending x hx
  · have hxt : x ≠ t := fun e => hr.not_mem_W hs (e ▸ hx)
    simpa [hxt] using hr.taken u k x (walker_setPhase hpw hu).2 hx
  · by_cases hxt : x = t
    · exact .inl (hxt ▸ List.mem_cons_self _ _)
    · simp only [setPhase_phase, hxt, if_false] at hx
      exact (hr.covered x e hx).imp (List.mem_cons_of_mem _) id

/-- The exchange of `set()`: the word's whole list becomes the new walker's list. -/
theorem Rep.exchange (hr : Rep s L W) {t : T} (ht : (s.phase t).quiet) :
    Rep { setPhase s t (.walk (s.epoch + 1) s.word.head) with word := .set, epoch := s.epoch + 1 }
      [] (Function.update W t L) := by
  have hs := Phase.not_suspended_of_quiet ht
  have hW := hr.W_nil (Phase.walker_of_quiet ht)
  have htL := hr.not_mem_L hs
  have hW' : ∀ u, Function.update W t L u = if u = t then L else W u := fun u =>
    Function.update_apply ..
  refine ⟨.nil, fun u => ?_, List.nodup_nil, fun u => ?_, fun _ _ _ => List.not_mem_nil _,
    fun u v x hu hv => ?_, fun x hx => absurd hx (List.not_mem_nil _), fun u k x hu hx => ?_,
    fun x e hx => ?_, fun u v k hu hv => ?_, fun u k hu => ?_,
    resumed_setPhase hr.resumed (fun _ _ h => by cases h),
    link_setPhase hr.link (fun _ h => by cases h), sound_setPhase hr.sound (by simp)⟩
  · by_cases hu : u = t
    · subst hu; simpa [WalkList] using hr.word
    · simpa [hu, hW'] using hr.walks u
  · by_cases hu : u = t <;> simp [hW', hu, hr.nodup, hr.nodupW]
  · rw [hW'] at hu hv
    by_cases h1 : u = t <;> by_cases h2 : v = t <;> simp only [h1, h2, if_true, if_false] at hu hv
    · rw [h1, h2]
    · exact absurd hu (hr.disjoint v x hv)
    · exact absurd hv (hr.disjoint u x hu)
    · exact hr.disjointW u v x hu hv
  · rw [hW'] at hx
    by_cases hut : u = t
    · subst hut
      simp only [setPhase_phase, if_true, Phase.walker, Option.some.injEq, if_pos hx] at hu hx
      have hxt : x ≠ u := fun e => htL (e ▸ hx)
      simp [hxt, hr.pending x hx, ← hu]
    · simp only [hut, if_false] at hx
      have hxt : x ≠ t := fun e => hr.not_mem_W hs (e ▸ hx)
      simp only [setPhase_phase, hut, hxt, if_false] at hu ⊢; exact hr.taken u k x hu hx
  · have hxt : x ≠ t := fun e => by simp [e] at hx
    simp only [setPhase_phase, hxt, if_false] at hx
    rcases hr.covered x e hx with h | ⟨u, h⟩
    · exact .inr ⟨t, by simp [hW', h]⟩
    · have hut : u ≠ t := fun e => by simp [e, hW] at h
      exact .inr ⟨u, by simp [hW', hut, h]⟩
  · have key : ∀ v, v ≠ t → (setPhase s t (.walk (s.epoch + 1) s.word.head)).phase v = s.phase v :=
      fun v hv => by simp [hv]
    by_cases h1 : u = t <;> by_cases h2 : v = t
    · rw [h1, h2]
    · simp only [h1, setPhase_phase, if_true, Phase.walker, Option.some.injEq] at hu
      rw [key v h2] at hv; have := (hr.bounded v k hv).2; omega
    · simp only [h2, setPhase_phase, if_true, Phase.walker, Option.some.injEq] at hv
      rw [key u h1] at hu; have := (hr.bounded u k hu).2; omega
    · rw [key u h1] at hu; rw [key v h2] at hv; exact hr.numbered u v k hu hv
  · show 1 ≤ k ∧ k ≤ s.epoch + 1
    by_cases hut : u = t
    · subst hut; simp [Phase.walker] at hu; omega
    · simp only [setPhase_phase, hut, if_false] at hu; have := hr.bounded u k hu; omega

theorem Rep.peek (hr : Rep s L W) {t w : T} {k : Nat} (hp : s.phase t = .walk k (some w)) :
    Rep (setPhase s t (.walkResume k w (s.next w))) L W := by
  have hwalk := hr.walks t
  rw [hp] at hwalk
  have hsus : ∀ e, s.phase t ≠ .suspended e := fun e he => by rw [hp] at he; cases he
  have hw : ∀ u, ((setPhase s t (.walkResume k w (s.next w))).phase u).walker =
      (s.phase u).walker := walker_setPhase_eq (by rw [hp]; rfl)
  refine ⟨hr.word, fun u => ?_, hr.nodup, hr.nodupW, hr.disjoint, hr.disjointW, fun x hx => ?_,
    fun u k' x hu hx => ?_, covered_setPhase hr.covered (fun _ h => by cases h),
    fun u v k' hu hv => hr.numbered u v k' ((hw u).symm.trans hu) ((hw v).symm.trans hv),
    fun u k' hu => hr.bounded u k' ((hw u).symm.trans hu),
    resumed_setPhase hr.resumed (fun _ _ h => by cases h),
    link_setPhase hr.link (fun _ h => by cases h), sound_setPhase hr.sound (by simp)⟩
  all_goals have key : ∀ v, (setPhase s t (.walkResume k w (s.next w))).phase v =
    if v = t then .walkResume k w (s.next w) else s.phase v := fun v => setPhase_phase ..
  · by_cases hu : u = t
    · subst hu; simp only [key, if_true, WalkList]
      generalize W u = l at hwalk ⊢
      cases hwalk with
      | cons h => exact ⟨_, rfl, h⟩
    · simpa [hu] using hr.walks u
  · have hxt : x ≠ t := fun e => hr.not_mem_L hsus (e ▸ hx)
    simp [key, hxt, hr.pending x hx]
  · have hxt : x ≠ t := fun e => hr.not_mem_W hsus (e ▸ hx)
    rw [key] at hu; rw [key, if_neg hxt]
    by_cases hut : u = t
    · simp only [hut, if_true, Phase.walker] at hu
      exact hr.taken t k' x (by rw [hp, ← hu]; rfl) (hut ▸ hx)
    · simp only [hut, if_false] at hu; exact hr.taken u k' x hu hx

theorem Rep.resume (hr : Rep s L W) {t w : T} {k : Nat} {n : Option T}
    (hp : s.phase t = .walkResume k w n) :
    ∃ rest, W t = w :: rest ∧ s.phase w = .suspended (k - 1) ∧
      Rep (setPhase (setPhase s w (.resumed (k - 1) k)) t (.walk k n)) L
        (Function.update W t rest) := by
  have hwalk := hr.walks t
  rw [hp] at hwalk
  obtain ⟨rest, hWt, hchain⟩ := hwalk
  have hk : (s.phase t).walker = some k := by rw [hp]; rfl
  have hw : s.phase w = .suspended (k - 1) := hr.taken t k w hk (by simp [hWt])
  have hk1 := (hr.bounded t k hk).1
  have hwt : w ≠ t := fun e => by rw [e, hp] at hw; cases hw
  have hnd : w ∉ rest ∧ rest.Nodup := by have := hr.nodupW t; rw [hWt] at this; simpa using this
  have hsus : ∀ e, s.phase t ≠ .suspended e := fun e he => by rw [hp] at he; cases he
  have hwL : w ∉ L := hr.disjoint t w (by simp [hWt])
  have hwW : ∀ u, u ≠ t → w ∉ W u := fun u hu hm => hu (hr.disjointW u t w hm (by simp [hWt]))
  have ph : ∀ v, (setPhase (setPhase s w (.resumed (k - 1) k)) t (.walk k n)).phase v =
      if v = t then .walk k n else if v = w then .resumed (k - 1) k else s.phase v := fun v => by
    simp only [setPhase_phase]
  have hW' : ∀ u, Function.update W t rest u = if u = t then rest else W u := fun u =>
    Function.update_apply ..
  have walker_eq : ∀ v,
      ((setPhase (setPhase s w (.resumed (k - 1) k)) t (.walk k n)).phase v).walker =
        (s.phase v).walker := fun v =>
    (walker_setPhase_eq (by simp [Ne.symm hwt, hp, Phase.walker]) v).trans
      (walker_setPhase_eq (by simp [hw, Phase.walker]) v)
  refine ⟨rest, hWt, hw, hr.word, fun u => ?_, hr.nodup, fun u => ?_, fun u x hx => ?_,
    fun u v x hu hv => ?_, fun x hx => ?_, fun u k' x hu hx => ?_, fun x e hx => ?_,
    fun u v k' hu hv =>
      hr.numbered u v k' ((walker_eq u).symm.trans hu) ((walker_eq v).symm.trans hv),
    fun u k' hu => hr.bounded u k' ((walker_eq u).symm.trans hu),
    resumed_setPhase (resumed_setPhase hr.resumed fun _ _ h => by cases h; omega)
      (fun _ _ h => by cases h),
    link_setPhase (link_setPhase hr.link (fun _ h => by cases h)) (fun _ h => by cases h),
    sound_setPhase (sound_setPhase hr.sound (by simp)) (by simp)⟩
  · rw [ph, hW']
    by_cases h1 : u = t
    · simpa [h1, WalkList] using hchain
    · by_cases h2 : u = w
      · subst h2; simpa [h1, WalkList] using hr.W_nil (by simp [hw, Phase.walker])
      · simpa [h1, h2] using hr.walks u
  · rw [hW']; by_cases h1 : u = t <;> simp [h1, hnd.2, hr.nodupW]
  · rw [hW'] at hx
    by_cases h1 : u = t
    · simp only [h1, if_true] at hx
      exact hr.disjoint t x (by simp [hWt, hx])
    · simp only [h1, if_false] at hx; exact hr.disjoint u x hx
  · rw [hW'] at hu hv
    have sub : ∀ u, (if u = t then rest else W u) ⊆ W u := fun u => by
      by_cases h : u = t <;> simp [h, hWt]
    exact hr.disjointW u v x (sub u hu) (sub v hv)
  · have hxt : x ≠ t := fun e => hr.not_mem_L hsus (e ▸ hx)
    have hxw : x ≠ w := fun e => hwL (e ▸ hx)
    simp [ph, hxt, hxw, hr.pending x hx]
  · rw [walker_eq] at hu
    rw [hW'] at hx
    have hxW : x ∈ W u := by
      by_cases h1 : u = t
      · subst h1; rw [if_pos rfl] at hx; rw [hWt]; exact List.mem_cons_of_mem _ hx
      · rwa [if_neg h1] at hx
    have hxt : x ≠ t := fun e => hr.not_mem_W hsus (e ▸ hxW)
    have hxw : x ≠ w := by
      by_cases h1 : u = t
      · simp only [h1, if_true] at hx; exact fun e => hnd.1 (e ▸ hx)
      · simp only [h1, if_false] at hx; exact fun e => hwW u h1 (e ▸ hx)
    rw [ph, if_neg hxt, if_neg hxw]; exact hr.taken u k' x hu hxW
  · rw [ph] at hx
    by_cases h1 : x = t
    · simp [h1] at hx
    by_cases h2 : x = w
    · simp [h2, hwt] at hx
    simp only [h1, h2, if_false] at hx
    rcases hr.covered x e hx with h | ⟨u, h⟩
    · exact .inl h
    · refine .inr ⟨u, ?_⟩
      rw [hW']
      by_cases hu : u = t
      · subst hu; simp only [if_true]; rw [hWt] at h
        exact (List.mem_cons.mp h).resolve_left h2
      · simpa [hu] using h

/-- Every event keeps the representation, and moves the lists by at most one step of the
broadcast. -/
theorem Rep.refines (hr : Rep s L W) (ev : Event T) :
    ∃ L' W', Rep (apply s ev) L' W' ∧ (L' = L ∧ W' = W ∨ Broadcast L W L' W') := by
  cases ev with
  | begin t c =>
    simp only [apply]
    split
    · next hb =>
      have hq := Phase.quiet_of_between hb
      obtain ⟨hs, hW⟩ := hr.quietAt hq
      cases c with
      | await =>
        refine ⟨L, W, ?_, .inl ⟨rfl, rfl⟩⟩
        simp only [begin]; split <;> exact hr.move (by rfl) hs hW (by simp) (by simp)
      | set => exact ⟨_, _, hr.exchange hq, .inr (.exchange t hW)⟩
      | reset =>
        refine ⟨L, W, ?_, .inl ⟨rfl, rfl⟩⟩
        simp only [begin]; split
        · next hw =>
          obtain rfl := hr.set_empty hw
          exact (hr.unset hw).move (by rfl) hs hW (by simp) (by simp)
        · exact hr.move (by rfl) hs hW (by simp) (by simp)
    · exact ⟨L, W, hr, .inl ⟨rfl, rfl⟩⟩
  | step t spurious =>
    simp only [apply]
    unfold step
    split
    · next hp =>
      obtain ⟨hs, hW⟩ := hr.quietAt (show (s.phase t).quiet by rw [hp]; rfl)
      exact ⟨L, W, hr.move (by rfl) hs hW (by simp) (by simp), .inl ⟨rfl, rfl⟩⟩
    · next old hp =>
      obtain ⟨hs, hW⟩ := hr.quietAt (show (s.phase t).quiet by rw [hp]; rfl)
      refine ⟨L, W, ?_, .inl ⟨rfl, rfl⟩⟩
      split
      · exact hr.move (by rfl) hs hW (by simp) (by simp)
      · next hset =>
        exact (hr.setNext (show (s.phase t).quiet by rw [hp]; rfl) (by simp [hp]) old.head).move
          (by rfl) hs hW (by simp) (by simp [hset])
    · next old hp =>
      obtain ⟨hs, hW⟩ := hr.quietAt (show (s.phase t).quiet by rw [hp]; rfl)
      split
      · next hc => exact ⟨t :: L, W, hr.enqueue hp hc.1, .inr (.enqueue t)⟩
      · exact ⟨L, W, hr.move (by rfl) hs hW (by simp) (by simp), .inl ⟨rfl, rfl⟩⟩
    · next k hp =>
      have hs : ∀ e, s.phase t ≠ .suspended e := fun e he => by rw [hp] at he; cases he
      have hW : W t = [] := by
        have := hr.walks t; rw [hp] at this; exact List.head?_eq_none_iff.mp this.head.symm
      exact ⟨L, W, hr.move (by rfl) hs hW (by simp) (by simp), .inl ⟨rfl, rfl⟩⟩
    · next k w hp => exact ⟨L, W, hr.peek hp, .inl ⟨rfl, rfl⟩⟩
    · next k w n hp =>
      obtain ⟨rest, hWt, hw, hr'⟩ := hr.resume hp
      simp only [hw]
      exact ⟨L, _, hr', .inr (.resume t w hWt)⟩
    · exact ⟨L, W, hr, .inl ⟨rfl, rfl⟩⟩

end

theorem Reachable.rep {s : State T} (h : Reachable s) : ∃ L W, Rep s L W := by
  induction h with
  | init => exact ⟨_, _, rep_init⟩
  | apply _ ev ih =>
    obtain ⟨L, W, hr⟩ := ih
    obtain ⟨L', W', hr', -⟩ := hr.refines ev
    exact ⟨L', W', hr'⟩

theorem event_resumes_once {s : State T} (h : Reachable s) :
    ∃ L W, Rep s L W ∧ ∀ ev, ∃ L' W', Rep (apply s ev) L' W' ∧
      (L' = L ∧ W' = W ∨ Broadcast L W L' W') := by
  obtain ⟨L, W, hr⟩ := h.rep
  exact ⟨L, W, hr, hr.refines⟩

/-- Two awaiters enqueue, a third agent sets the event and resumes the newer one, which
then calls set() itself from inside the walk. -/
def broadcastSchedule : List (Event (Fin 3)) :=
  [.begin 0 .await, .step 0 false, .step 0 false, .step 0 false,
   .begin 1 .await, .step 1 false, .step 1 false, .step 1 false,
   .begin 2 .set, .step 2 false, .step 2 false, .begin 1 .set]

theorem broadcastSchedule_resumes_once :
    (run init broadcastSchedule).phase 0 = .suspended 0 ∧
    (run init broadcastSchedule).phase 1 = .walk 2 none ∧
    (run init broadcastSchedule).phase 2 = .walk 1 (some 0) ∧
    ∃ L W, Rep (run init broadcastSchedule) L W ∧ ∀ ev, ∃ L' W',
      Rep (apply (run init broadcastSchedule) ev) L' W' ∧ (L' = L ∧ W' = W ∨ Broadcast L W L' W') :=
  ⟨by decide, by decide, by decide, event_resumes_once (Reachable.init.run broadcastSchedule)⟩

/-- An awaiter's `await_suspend` takes effect at its compare-exchange, whenever it loaded
the word: a waiter enqueued after exchange `e` is still in the word's list, or in the batch
of exchange `e + 1`, and a resumed waiter was resumed by exchange `e + 1`. -/
theorem awaiter_waits_next_exchange {s : State T} (h : Reachable s) :
    ∃ L W, Rep s L W ∧
      (∀ x e, s.phase x = .suspended e →
        e = s.epoch ∧ x ∈ L ∨ ∃ u, (s.phase u).walker = some (e + 1) ∧ x ∈ W u) ∧
      ∀ x e k, s.phase x = .resumed e k → k = e + 1 := by
  obtain ⟨L, W, hr⟩ := h.rep
  refine ⟨L, W, hr, fun x e hx => ?_, hr.resumed⟩
  rcases hr.covered x e hx with hL | ⟨u, hu⟩
  · have hp := hr.pending x hL
    rw [hx] at hp
    exact .inl ⟨Phase.suspended.inj hp, hL⟩
  · cases hw : (s.phase u).walker with
    | none => simp [hr.W_nil hw] at hu
    | some k =>
      have hk := hr.taken u k x hw hu
      have hb := (hr.bounded u k hw).1
      rw [hx] at hk
      exact .inr ⟨u, by rw [hw, Phase.suspended.inj hk]; congr 1; omega, hu⟩

/-- Agent 0 loads `nullptr`; agent 1 sets the event, finding no waiter; agent 2 resets it;
agent 0's compare-exchange then succeeds against the `nullptr` it loaded. -/
def resetSchedule : List (Event (Fin 3)) :=
  [.begin 0 .await, .step 0 false, .begin 1 .set, .step 1 false, .begin 2 .reset,
   .step 0 false, .step 0 false]

/-- The awaiter loaded the word before the exchange of the first `set()`, which has
finished without resuming it: it waits in the word's list for a second `set()`. -/
theorem reset_strands_awaiter :
    (run init (resetSchedule.take 2)).phase 0 = .suspendTest .null ∧
    (run init (resetSchedule.take 2)).epoch = 0 ∧
    (run init resetSchedule).phase 0 = .suspended 1 ∧
    (run init resetSchedule).phase 1 = .idle ∧
    (run init resetSchedule).word = .waiter 0 := by
  decide

theorem resetSchedule_waits_second_set :
    (run init resetSchedule).epoch = 1 ∧
    ∃ L W, Rep (run init resetSchedule) L W ∧
      (∀ x e, (run init resetSchedule).phase x = .suspended e →
        e = (run init resetSchedule).epoch ∧ x ∈ L ∨
          ∃ u, ((run init resetSchedule).phase u).walker = some (e + 1) ∧ x ∈ W u) ∧
      ∀ x e k, (run init resetSchedule).phase x = .resumed e k → k = e + 1 :=
  ⟨by decide, awaiter_waits_next_exchange (Reachable.init.run resetSchedule)⟩

end AsyncEventWord
