import Mathlib.Data.List.Nodup
import Mathlib.Algebra.Group.Nat.Basic

/-! # The variant message store

`NullStore`, `MemoryStore` and the `MessageStore` variant of `store/message_store.hpp`.
Sequence numbers are `uint32_t` and the counters `uint64_t`; `max_messages` is a 64-bit
`size_t`. `retrieve` and `retrieve_range` bump the mutable `messages_retrieved` counter,
so they return the store they leave behind. -/
namespace StoreVariant

abbrev Bytes := List UInt8

/-- The value `UINT32_MAX`, the end used by `retrieve_range` when it is asked for `end = 0`. -/
def uint32Max : UInt32 := 4294967295

structure Stats where
  messagesStored : UInt64 := 0
  messagesRetrieved : UInt64 := 0
  bytesStored : UInt64 := 0
  storeFailures : UInt64 := 0
  deriving DecidableEq, Repr

structure NullStore where
  sessionId : String := "NULL"
  nextSenderSeq : UInt32 := 1
  nextTargetSeq : UInt32 := 1
  deriving DecidableEq, Repr

namespace NullStore

def store (s : NullStore) (_ : UInt32) (_ : Bytes) : Bool × NullStore := (true, s)
def retrieve (s : NullStore) (_ : UInt32) : Option Bytes × NullStore := (none, s)
def retrieveRange (s : NullStore) (_ _ : UInt32) : List Bytes × NullStore := ([], s)
def setNextSenderSeqNum (s : NullStore) (seq : UInt32) : NullStore := { s with nextSenderSeq := seq }
def setNextTargetSeqNum (s : NullStore) (seq : UInt32) : NullStore := { s with nextTargetSeq := seq }
def getNextSenderSeqNum (s : NullStore) : UInt32 := s.nextSenderSeq
def getNextTargetSeqNum (s : NullStore) : UInt32 := s.nextTargetSeq
def reset (s : NullStore) : NullStore := { s with nextSenderSeq := 1, nextTargetSeq := 1 }
def flush (s : NullStore) : NullStore := s
def stats (_ : NullStore) : Stats := {}

end NullStore

structure Config where
  sessionId : String
  maxMessages : UInt64 := 10000
  deriving DecidableEq, Repr

structure MemoryStore where
  sessionId : String
  messages : List (UInt32 × Bytes)
  maxMessages : UInt64
  nextSenderSeq : UInt32
  nextTargetSeq : UInt32
  stats : Stats
  deriving DecidableEq, Repr

namespace MemoryStore

def ofConfig (config : Config) : MemoryStore :=
  ⟨config.sessionId, [], config.maxMessages, 1, 1, {}⟩

def ofSessionId (sessionId : String) : MemoryStore := ofConfig ⟨sessionId, 10000⟩

/-- The in-place branch of `store`: the first entry with key `seqNum` takes the new
payload; `none` when no entry has that key. -/
def assignFirst (seqNum : UInt32) (msg : Bytes) :
    List (UInt32 × Bytes) → Option (List (UInt32 × Bytes))
  | [] => none
  | (seq, data) :: rest =>
    if seq = seqNum then some ((seq, msg) :: rest)
    else (assignFirst seqNum msg rest).map ((seq, data) :: ·)

def store (s : MemoryStore) (seqNum : UInt32) (msg : Bytes) : Bool × MemoryStore :=
  if s.maxMessages.toNat ≤ s.messages.length then
    (false, { s with stats := { s.stats with storeFailures := s.stats.storeFailures + 1 } })
  else
    match assignFirst seqNum msg s.messages with
    | some messages => (true, { s with messages })
    | none =>
      (true, { s with
        messages := s.messages ++ [(seqNum, msg)]
        stats := { s.stats with
          messagesStored := s.stats.messagesStored + 1
          bytesStored := s.stats.bytesStored + msg.length.toUInt64 } })

def retrieve (s : MemoryStore) (seqNum : UInt32) : Option Bytes × MemoryStore :=
  match s.messages.lookup seqNum with
  | some data =>
    (some data, { s with stats := { s.stats with messagesRetrieved := s.stats.messagesRetrieved + 1 } })
  | none => (none, s)

/-- Whether `b ≤ seq ≤ actual_end`, where an `end_seq` of 0 stands for `UINT32_MAX`. -/
def inRange (beginSeq endSeq seq : UInt32) : Bool :=
  beginSeq ≤ seq && seq ≤ (if endSeq = 0 then uint32Max else endSeq)

def retrieveRange (s : MemoryStore) (beginSeq endSeq : UInt32) : List Bytes × MemoryStore :=
  let hits := s.messages.filter (fun e => inRange beginSeq endSeq e.1)
  (hits.map Prod.snd,
    { s with stats := { s.stats with
      messagesRetrieved := s.stats.messagesRetrieved + hits.length.toUInt64 } })

def setNextSenderSeqNum (s : MemoryStore) (seq : UInt32) : MemoryStore := { s with nextSenderSeq := seq }
def setNextTargetSeqNum (s : MemoryStore) (seq : UInt32) : MemoryStore := { s with nextTargetSeq := seq }
def getNextSenderSeqNum (s : MemoryStore) : UInt32 := s.nextSenderSeq
def getNextTargetSeqNum (s : MemoryStore) : UInt32 := s.nextTargetSeq

def reset (s : MemoryStore) : MemoryStore :=
  { s with messages := [], nextSenderSeq := 1, nextTargetSeq := 1, stats := {} }

def flush (s : MemoryStore) : MemoryStore := s

end MemoryStore

inductive StoreType
  | null
  | memory
  deriving DecidableEq, Repr

inductive MessageStore
  | null (s : NullStore)
  | memory (s : MemoryStore)
  deriving DecidableEq, Repr

namespace MessageStore

def ofType (type : StoreType) (sessionId : String) : MessageStore :=
  match type with
  | .null => .null { sessionId }
  | .memory => .memory (MemoryStore.ofSessionId sessionId)

def makeNullStore (sessionId : String) : MessageStore := .null { sessionId }
def makeMemoryStore (sessionId : String) : MessageStore := .memory (.ofSessionId sessionId)
def makeMemoryStoreOfConfig (config : Config) : MessageStore := .memory (.ofConfig config)

def store (seqNum : UInt32) (msg : Bytes) : MessageStore → Bool × MessageStore
  | .null s => let r := s.store seqNum msg; (r.1, .null r.2)
  | .memory s => let r := s.store seqNum msg; (r.1, .memory r.2)

def retrieve (seqNum : UInt32) : MessageStore → Option Bytes × MessageStore
  | .null s => let r := s.retrieve seqNum; (r.1, .null r.2)
  | .memory s => let r := s.retrieve seqNum; (r.1, .memory r.2)

def retrieveRange (beginSeq endSeq : UInt32) : MessageStore → List Bytes × MessageStore
  | .null s => let r := s.retrieveRange beginSeq endSeq; (r.1, .null r.2)
  | .memory s => let r := s.retrieveRange beginSeq endSeq; (r.1, .memory r.2)

def setNextSenderSeqNum (seq : UInt32) : MessageStore → MessageStore
  | .null s => .null (s.setNextSenderSeqNum seq)
  | .memory s => .memory (s.setNextSenderSeqNum seq)

def setNextTargetSeqNum (seq : UInt32) : MessageStore → MessageStore
  | .null s => .null (s.setNextTargetSeqNum seq)
  | .memory s => .memory (s.setNextTargetSeqNum seq)

def getNextSenderSeqNum : MessageStore → UInt32
  | .null s => s.getNextSenderSeqNum
  | .memory s => s.getNextSenderSeqNum

def getNextTargetSeqNum : MessageStore → UInt32
  | .null s => s.getNextTargetSeqNum
  | .memory s => s.getNextTargetSeqNum

def reset : MessageStore → MessageStore
  | .null s => .null s.reset
  | .memory s => .memory s.reset

def flush : MessageStore → MessageStore
  | .null s => .null s.flush
  | .memory s => .memory s.flush

def sessionId : MessageStore → String
  | .null s => s.sessionId
  | .memory s => s.sessionId

def stats : MessageStore → Stats
  | .null s => s.stats
  | .memory s => s.stats

def type : MessageStore → StoreType
  | .null _ => .null
  | .memory _ => .memory

def isNull (s : MessageStore) : Bool := s.type = .null
def isMemory (s : MessageStore) : Bool := s.type = .memory

end MessageStore

/-! ## MemoryStore refines a finite map

A run is a list of calls on one `MemoryStore`; its history records each call with its
reply, newest first. `latestStored` and `firstStored` read the finite map and its
first-store order off the history alone, and `Refines` ties them to the store. -/

inductive Op
  | store (seqNum : UInt32) (msg : Bytes)
  | retrieve (seqNum : UInt32)
  | retrieveRange (beginSeq endSeq : UInt32)
  | setNextSenderSeqNum (seq : UInt32)
  | setNextTargetSeqNum (seq : UInt32)
  | getNextSenderSeqNum
  | getNextTargetSeqNum
  | flush
  | reset
  deriving DecidableEq, Repr

inductive Reply
  | stored (ok : Bool)
  | retrieved (msg : Option Bytes)
  | range (msgs : List Bytes)
  | seqNum (seq : UInt32)
  | done
  deriving DecidableEq, Repr

abbrev History := List (Op × Reply)

namespace MemoryStore

def apply (s : MemoryStore) : Op → Reply × MemoryStore
  | .store k m => (.stored (s.store k m).1, (s.store k m).2)
  | .retrieve k => (.retrieved (s.retrieve k).1, (s.retrieve k).2)
  | .retrieveRange b e => (.range (s.retrieveRange b e).1, (s.retrieveRange b e).2)
  | .setNextSenderSeqNum v => (.done, s.setNextSenderSeqNum v)
  | .setNextTargetSeqNum v => (.done, s.setNextTargetSeqNum v)
  | .getNextSenderSeqNum => (.seqNum s.getNextSenderSeqNum, s)
  | .getNextTargetSeqNum => (.seqNum s.getNextTargetSeqNum, s)
  | .flush => (.done, s.flush)
  | .reset => (.done, s.reset)

def step (p : MemoryStore × History) (op : Op) : MemoryStore × History :=
  ((p.1.apply op).2, (op, (p.1.apply op).1) :: p.2)

def run (config : Config) (ops : List Op) : MemoryStore × History :=
  ops.foldl step (ofConfig config, [])

end MemoryStore

/-- The payload of the most recent successful `store` of `k` since the last `reset`. -/
def latestStored (k : UInt32) : History → Option Bytes
  | [] => none
  | (.reset, _) :: _ => none
  | (.store k' m, .stored true) :: h => if k' = k then some m else latestStored k h
  | _ :: h => latestStored k h

/-- The keys stored since the last `reset`, in the order of their first successful `store`. -/
def firstStored : History → List UInt32
  | [] => []
  | (.reset, _) :: _ => []
  | (.store k _, .stored true) :: h =>
    if k ∈ firstStored h then firstStored h else firstStored h ++ [k]
  | _ :: h => firstStored h


namespace MemoryStore

theorem assignFirst_eq_none {k : UInt32} {m : Bytes} {l : List (UInt32 × Bytes)} :
    assignFirst k m l = none ↔ k ∉ l.map Prod.fst := by
  induction l with
  | nil => simp [assignFirst]
  | cons e l ih =>
    obtain ⟨seq, data⟩ := e
    by_cases h : seq = k
    · subst h; simp [assignFirst]
    · simp [assignFirst, h, Ne.symm h, ih]

theorem assignFirst_keys {k : UInt32} {m : Bytes} {l l' : List (UInt32 × Bytes)}
    (h : assignFirst k m l = some l') : l'.map Prod.fst = l.map Prod.fst := by
  induction l generalizing l' with
  | nil => simp [assignFirst] at h
  | cons e l ih =>
    obtain ⟨seq, data⟩ := e
    by_cases hs : seq = k
    · subst hs; simp only [assignFirst, if_true, Option.some.injEq] at h; subst h; simp
    · simp only [assignFirst, hs, if_false, Option.map_eq_some'] at h
      obtain ⟨r, hr, rfl⟩ := h
      simp [ih hr]

theorem assignFirst_lookup {k k' : UInt32} {m : Bytes} {l l' : List (UInt32 × Bytes)}
    (h : assignFirst k m l = some l') :
    l'.lookup k' = if k' = k then some m else l.lookup k' := by
  induction l generalizing l' with
  | nil => simp [assignFirst] at h
  | cons e l ih =>
    obtain ⟨seq, data⟩ := e
    by_cases hs : seq = k
    · simp only [assignFirst, hs, if_true, Option.some.injEq] at h; subst h hs
      simp only [List.lookup_cons]; split <;> simp_all
    · simp only [assignFirst, hs, if_false, Option.map_eq_some'] at h
      obtain ⟨r, hr, rfl⟩ := h
      simp only [List.lookup_cons, ih hr]; split <;> simp_all

end MemoryStore

theorem firstStored_nodup (h : History) : (firstStored h).Nodup := by
  induction h using firstStored.induct with
  | case1 => exact List.nodup_nil
  | case2 => exact List.nodup_nil
  | case3 k' m h hmem ih => rwa [firstStored, if_pos hmem]
  | case4 k' m h hmem ih =>
    rw [firstStored, if_neg hmem]
    exact List.nodup_append.mpr ⟨ih, List.nodup_singleton _, List.disjoint_singleton.mpr hmem⟩
  | case5 e h h1 h2 ih => rwa [firstStored.eq_4 e h h1 h2]

theorem mem_firstStored {k : UInt32} {h : History} :
    k ∈ firstStored h ↔ (latestStored k h).isSome := by
  induction h using firstStored.induct with
  | case1 => simp [firstStored, latestStored]
  | case2 => simp [firstStored, latestStored]
  | case3 k' m h hmem ih =>
    rw [firstStored, if_pos hmem, latestStored]
    by_cases hk : k' = k
    · subst hk; simpa using hmem
    · rw [if_neg hk]; exact ih
  | case4 k' m h hmem ih =>
    rw [firstStored, if_neg hmem, latestStored, List.mem_append, List.mem_singleton]
    by_cases hk : k' = k
    · subst hk; simp
    · rw [if_neg hk, ← ih]; simp [Ne.symm hk]
  | case5 e h h1 h2 ih => rwa [firstStored.eq_4 e h h1 h2, latestStored.eq_4 k e h h1 h2]

/-- The store's entries are the history's map, in its first-store order. -/
structure Refines (s : MemoryStore) (h : History) : Prop where
  keys : s.messages.map Prod.fst = firstStored h
  lookup : ∀ k, s.messages.lookup k = latestStored k h
  bound : s.messages.length ≤ s.maxMessages.toNat
  counted : s.stats.messagesStored.toNat = s.messages.length

/-- `BitVec.toNat_add` through `toBitVec`: the core library states no `toNat` lemma for
`UInt64` addition. -/
theorem UInt64.toNat_add_mod (x y : UInt64) : (x + y).toNat = (x.toNat + y.toNat) % 2 ^ 64 := by
  simp only [UInt64.add_def, UInt64.toNat, BitVec.toNat_add]

theorem UInt64.toNat_succ {x : UInt64} (h : x.toNat + 1 < UInt64.size) :
    (x + 1).toNat = x.toNat + 1 := by
  rw [UInt64.toNat_add_mod]; exact Nat.mod_eq_of_lt h

theorem lookup_singleton {k k' : UInt32} {m : Bytes} :
    [(k, m)].lookup k' = if k' = k then some m else none := by
  simp only [List.lookup_cons]; split <;> simp_all

theorem refines_ofConfig (config : Config) : Refines (.ofConfig config) [] :=
  ⟨rfl, fun _ => rfl, Nat.zero_le _, rfl⟩

/-- A failed `store` changes only `store_failures`; an accepted one updates the map. -/
theorem Refines.store {s : MemoryStore} {h : History} (hr : Refines s h) (k : UInt32)
    (m : Bytes) : Refines (s.store k m).2 ((.store k m, .stored (s.store k m).1) :: h) := by
  unfold MemoryStore.store
  split
  · exact ⟨by simpa [firstStored] using hr.keys,
      fun k' => by simpa [latestStored] using hr.lookup k', hr.bound, hr.counted⟩
  rename_i hfull
  split
  · rename_i l' hl
    have hk : k ∈ firstStored h := by
      rw [← hr.keys]; by_contra hn
      rw [(@MemoryStore.assignFirst_eq_none k m _).mpr hn] at hl; cases hl
    have hkeys := MemoryStore.assignFirst_keys hl
    have hlen : l'.length = s.messages.length := by
      simpa using congrArg List.length hkeys
    refine ⟨?_, fun k' => ?_, ?_, ?_⟩
    · rw [firstStored, if_pos hk, ← hr.keys, ← hkeys]
    · rw [MemoryStore.assignFirst_lookup hl, hr.lookup]
      simp only [latestStored]
      by_cases hk' : k' = k
      · subst hk'; simp
      · simp [hk', Ne.symm hk']
    · simpa [hlen] using hr.bound
    · simpa [hlen] using hr.counted
  · rename_i hl
    have hk : k ∉ firstStored h := hr.keys ▸ MemoryStore.assignFirst_eq_none.mp hl
    refine ⟨?_, fun k' => ?_, ?_, ?_⟩
    · simp only [firstStored, List.map_append, hr.keys, hk, if_false]; rfl
    · rw [List.lookup_append, hr.lookup, lookup_singleton]
      simp only [latestStored]
      by_cases hk' : k' = k
      · subst hk'
        have : latestStored k' h = none := by
          simpa [mem_firstStored] using hk
        simp [this]
      · simp [hk', Ne.symm hk']
    · simp only [List.length_append, List.length_singleton]; omega
    · have := s.maxMessages.toNat_lt_size
      have := hr.counted
      dsimp only
      rw [UInt64.toNat_succ (by omega)]
      simp [hr.counted]

theorem Refines.frame {s s' : MemoryStore} {h : History} {e : Op × Reply} (hr : Refines s h)
    (hm : s'.messages = s.messages) (hmax : s'.maxMessages = s.maxMessages)
    (hc : s'.stats.messagesStored = s.stats.messagesStored)
    (hf : firstStored (e :: h) = firstStored h) (hl : ∀ k, latestStored k (e :: h) = latestStored k h) :
    Refines s' (e :: h) :=
  ⟨by rw [hm, hf, hr.keys], fun k => by rw [hm, hl, hr.lookup], by rw [hm, hmax]; exact hr.bound,
    by rw [hm, hc]; exact hr.counted⟩

theorem Refines.apply {s : MemoryStore} {h : History} (hr : Refines s h) (op : Op) :
    Refines (s.apply op).2 ((op, (s.apply op).1) :: h) := by
  cases op with
  | store k m => exact hr.store k m
  | reset => exact ⟨rfl, fun _ => rfl, Nat.zero_le _, rfl⟩
  | retrieve k =>
    simp only [MemoryStore.apply, MemoryStore.retrieve]
    split <;> exact hr.frame rfl rfl rfl (by simp [firstStored]) (fun _ => by simp [latestStored])
  | _ => exact hr.frame rfl rfl rfl (by simp [firstStored]) (fun _ => by simp [latestStored])

@[simp] theorem MemoryStore.apply_maxMessages (s : MemoryStore) (op : Op) :
    (s.apply op).2.maxMessages = s.maxMessages := by
  cases op <;> simp only [apply, store, retrieve] <;> (try split) <;> (try split) <;> rfl

theorem refines_foldl (ops : List Op) {p : MemoryStore × History} (hp : Refines p.1 p.2) :
    Refines (ops.foldl MemoryStore.step p).1 (ops.foldl MemoryStore.step p).2 := by
  induction ops generalizing p with
  | nil => exact hp
  | cons op ops ih => exact ih (hp.apply op)

theorem maxMessages_foldl (ops : List Op) (p : MemoryStore × History) :
    (ops.foldl MemoryStore.step p).1.maxMessages = p.1.maxMessages := by
  induction ops generalizing p with
  | nil => rfl
  | cons op ops ih => rw [List.foldl_cons, ih]; simp [MemoryStore.step]

/-- The range scan over entries with distinct keys, read as the map in key order. -/
theorem filter_map_snd {l : List (UInt32 × Bytes)} (hl : (l.map Prod.fst).Nodup)
    (p : UInt32 → Bool) :
    (l.filter (fun e => p e.1)).map Prod.snd =
      ((l.map Prod.fst).filter p).filterMap (l.lookup ·) := by
  induction l with
  | nil => rfl
  | cons e l ih =>
    obtain ⟨k, v⟩ := e
    simp only [List.map_cons, List.nodup_cons] at hl
    have hrest : ((l.map Prod.fst).filter p).filterMap (((k, v) :: l).lookup ·) =
        ((l.map Prod.fst).filter p).filterMap (l.lookup ·) := by
      refine List.filterMap_congr fun k' hk' => ?_
      have hne : k' ≠ k := fun he => hl.1 (he ▸ (List.mem_filter.mp hk').1)
      simp only [List.lookup_cons]; split <;> simp_all
    by_cases hp : p k <;> simp [List.filter_cons, hp, hrest, ih hl.2]

theorem Refines.retrieve {s : MemoryStore} {h : History} (hr : Refines s h) (k : UInt32) :
    (s.retrieve k).1 = latestStored k h := by
  rw [← hr.lookup]; cases hl : s.messages.lookup k <;> simp [MemoryStore.retrieve, hl]

theorem Refines.retrieveRange {s : MemoryStore} {h : History} (hr : Refines s h) (b e : UInt32) :
    (s.retrieveRange b e).1 =
      ((firstStored h).filter (MemoryStore.inRange b e)).filterMap (latestStored · h) := by
  have hnd : (s.messages.map Prod.fst).Nodup := hr.keys ▸ firstStored_nodup h
  simp only [MemoryStore.retrieveRange, filter_map_snd hnd, hr.keys, hr.lookup]

theorem MemoryStore.store_false {s : MemoryStore} {k : UInt32} {m : Bytes}
    (hf : (s.store k m).1 = false) : (s.store k m).2.messages = s.messages := by
  unfold store at *
  by_cases hfull : s.maxMessages.toNat ≤ s.messages.length
  · simp only [hfull, if_true]
  · simp only [hfull, if_false] at hf
    split at hf <;> simp at hf

theorem MemoryStore.store_true {s : MemoryStore} (k : UInt32) (m : Bytes)
    (hroom : s.messages.length < s.maxMessages.toNat) : (s.store k m).1 = true := by
  unfold store; rw [if_neg (Nat.not_le.mpr hroom)]; split <;> rfl

/-- Every finite sequence of calls on a `MemoryStore` built from any `Config` behaves as a
finite map: `retrieve` and `retrieve_range` answer from the most recent successful stores
since the last reset (the range in first-store order, each key once), a rejected store
changes nothing, a store below `max_messages` entries succeeds and takes effect at once, the
store stays within `max_messages`, and `messages_stored` counts the distinct keys. -/
theorem memoryStore_refines_finite_map (config : Config) (ops : List Op) :
    let s := (MemoryStore.run config ops).1
    let h := (MemoryStore.run config ops).2
    (∀ k, (s.retrieve k).1 = latestStored k h) ∧
    (∀ b e, (s.retrieveRange b e).1 =
      ((firstStored h).filter (MemoryStore.inRange b e)).filterMap (latestStored · h)) ∧
    (∀ k m, (s.store k m).1 = false → ∀ k', ((s.store k m).2.retrieve k').1 = (s.retrieve k').1) ∧
    (∀ k m, s.messages.length < config.maxMessages.toNat → (s.store k m).1 = true ∧
      ∀ k', ((s.store k m).2.retrieve k').1 = if k' = k then some m else (s.retrieve k').1) ∧
    s.messages.length ≤ config.maxMessages.toNat ∧
    s.stats.messagesStored.toNat = (firstStored h).length ∧
    (firstStored h).Nodup ∧ (∀ k, k ∈ firstStored h ↔ (latestStored k h).isSome) := by
  have hr : Refines (MemoryStore.run config ops).1 (MemoryStore.run config ops).2 :=
    refines_foldl ops (refines_ofConfig config)
  have hmax : (MemoryStore.run config ops).1.maxMessages = config.maxMessages :=
    maxMessages_foldl ops (MemoryStore.ofConfig config, [])
  refine ⟨hr.retrieve, hr.retrieveRange, fun k m hf k' => ?_, fun k m hroom => ?_, ?_, ?_,
    firstStored_nodup _, fun _ => mem_firstStored⟩
  · simp only [MemoryStore.retrieve, MemoryStore.store_false hf]; split <;> simp_all
  · have hok := MemoryStore.store_true k m (hmax ▸ hroom)
    refine ⟨hok, fun k' => ?_⟩
    rw [(hr.store k m).retrieve, hok, hr.retrieve]
    simp only [latestStored, eq_comm]
  · have hb := hr.bound; rwa [hmax] at hb
  · rw [hr.counted, ← hr.keys, List.length_map]

@[simp] theorem MemoryStore.retrieve_fst (s : MemoryStore) (k : UInt32) :
    (s.retrieve k).1 = s.messages.lookup k := by
  unfold MemoryStore.retrieve; split <;> simp only [*]

/-- The capacity test comes before the search for the key: a full store fails every
`store`, whatever the key. -/
theorem MemoryStore.store_of_full {s : MemoryStore} (k : UInt32) (m : Bytes)
    (hfull : s.maxMessages.toNat ≤ s.messages.length) :
    s.store k m =
      (false, { s with stats := { s.stats with storeFailures := s.stats.storeFailures + 1 } }) :=
  if_pos hfull

/-- Once a store holds `max_messages` entries, an update of a number it already holds is
refused like a new one: `store` returns false, counts a failure, and `retrieve` still
answers the payload stored before. -/
theorem store_full_rejects_update (config : Config) (ops : List Op) (k : UInt32) (m : Bytes)
    (hfull : config.maxMessages.toNat ≤ (MemoryStore.run config ops).1.messages.length) :
    let s := (MemoryStore.run config ops).1
    (s.store k m).1 = false ∧
    (s.store k m).2.stats.storeFailures = s.stats.storeFailures + 1 ∧
    ((s.store k m).2.retrieve k).1 = latestStored k (MemoryStore.run config ops).2 := by
  have hr := @refines_foldl ops (.ofConfig config, []) (refines_ofConfig config)
  have hmax := maxMessages_foldl ops (MemoryStore.ofConfig config, [])
  intro s
  rw [MemoryStore.store_of_full k m (hmax ▸ hfull)]
  exact ⟨rfl, rfl, by simpa using hr.lookup k⟩

/-- A store of capacity one holding number 5 refuses to update it. -/
theorem full_store_keeps_old_payload :
    let s := (MemoryStore.run ⟨"S", 1⟩ [.store 5 [1]]).1
    (s.store 5 [2]).1 = false ∧
    (s.store 5 [2]).2.stats.storeFailures = s.stats.storeFailures + 1 ∧
    ((s.store 5 [2]).2.retrieve 5).1 = some [1] :=
  store_full_rejects_update ⟨"S", 1⟩ [.store 5 [1]] 5 [2] (by decide)

/-! ### The other counters

`store_failures`, `messages_retrieved` and `bytes_stored` are `uint64_t` counters bumped in
place, so they count modulo 2^64 from the last `reset`. -/

/-- The `store` calls refused since the last `reset`. -/
def failedStores : History → Nat
  | [] => 0
  | (.reset, _) :: _ => 0
  | (.store _ _, .stored false) :: h => failedStores h + 1
  | _ :: h => failedStores h

/-- The messages `retrieve` and `retrieve_range` returned since the last `reset`. -/
def retrievedCount : History → Nat
  | [] => 0
  | (.reset, _) :: _ => 0
  | (.retrieve _, .retrieved (some _)) :: h => retrievedCount h + 1
  | (.retrieveRange _ _, .range msgs) :: h => retrievedCount h + msgs.length
  | _ :: h => retrievedCount h

/-- The size of the first payload stored under each key since the last `reset`. -/
def firstBytes : History → Nat
  | [] => 0
  | (.reset, _) :: _ => 0
  | (.store k m, .stored true) :: h =>
    if k ∈ firstStored h then firstBytes h else firstBytes h + m.length
  | _ :: h => firstBytes h

theorem Nat.toUInt64_toNat_mod (n : Nat) : n.toUInt64.toNat = n % 2 ^ 64 := by
  simp [Nat.toUInt64, UInt64.ofNat, UInt64.toNat, BitVec.toNat_ofNat]

theorem counter_add {x : UInt64} {n : Nat} (hx : x.toNat = n % 2 ^ 64) (k : Nat) :
    (x + k.toUInt64).toNat = (n + k) % 2 ^ 64 := by
  rw [UInt64.toNat_add_mod, hx, Nat.toUInt64_toNat_mod, Nat.add_mod_mod, Nat.mod_add_mod]

/-- The three counters, read off the history. -/
structure Counted (s : MemoryStore) (h : History) : Prop where
  failures : s.stats.storeFailures.toNat = failedStores h % 2 ^ 64
  retrieved : s.stats.messagesRetrieved.toNat = retrievedCount h % 2 ^ 64
  bytes : s.stats.bytesStored.toNat = firstBytes h % 2 ^ 64

theorem Refines.assignFirst_isSome {s : MemoryStore} {h : History} (hr : Refines s h)
    (k : UInt32) (m : Bytes) :
    (MemoryStore.assignFirst k m s.messages).isSome ↔ k ∈ firstStored h := by
  rw [← hr.keys, ← not_iff_not, Option.not_isSome_iff_eq_none]
  exact MemoryStore.assignFirst_eq_none

theorem Counted.store {s : MemoryStore} {h : History} (hr : Refines s h) (hc : Counted s h)
    (k : UInt32) (m : Bytes) :
    Counted (s.store k m).2 ((.store k m, .stored (s.store k m).1) :: h) := by
  unfold MemoryStore.store
  split
  · exact ⟨counter_add hc.failures 1, hc.retrieved, hc.bytes⟩
  split
  · next l hl =>
    have hk : k ∈ firstStored h := (hr.assignFirst_isSome k m).mp (by simp [hl])
    exact ⟨hc.failures, hc.retrieved, by simpa [firstBytes, hk] using hc.bytes⟩
  · next hl =>
    have hk : k ∉ firstStored h := fun hk => by simpa [hl] using (hr.assignFirst_isSome k m).mpr hk
    exact ⟨hc.failures, hc.retrieved, by simpa [firstBytes, hk] using counter_add hc.bytes m.length⟩

theorem Counted.apply {s : MemoryStore} {h : History} (hr : Refines s h) (hc : Counted s h)
    (op : Op) : Counted (s.apply op).2 ((op, (s.apply op).1) :: h) := by
  cases op with
  | store k m => exact hc.store hr k m
  | retrieve k =>
    simp only [MemoryStore.apply, MemoryStore.retrieve]
    split
    · exact ⟨hc.failures, counter_add hc.retrieved 1, hc.bytes⟩
    · exact ⟨hc.failures, hc.retrieved, hc.bytes⟩
  | retrieveRange b e =>
    refine ⟨hc.failures, ?_, hc.bytes⟩
    simp only [MemoryStore.apply, MemoryStore.retrieveRange, retrievedCount, List.length_map]
    exact counter_add hc.retrieved _
  | reset => exact ⟨rfl, rfl, rfl⟩
  | _ => exact ⟨hc.failures, hc.retrieved, hc.bytes⟩

theorem counted_foldl (ops : List Op) {p : MemoryStore × History} (hr : Refines p.1 p.2)
    (hc : Counted p.1 p.2) :
    Counted (ops.foldl MemoryStore.step p).1 (ops.foldl MemoryStore.step p).2 := by
  induction ops generalizing p with
  | nil => exact hc
  | cons op ops ih => exact ih (hr.apply op) (hc.apply hr op)

/-- Over every finite sequence of calls on a `MemoryStore` built from any `Config`, the counters
of `stats()` count since the last `reset`, modulo 2^64: `store_failures` the refused `store`
calls, `messages_retrieved` the messages `retrieve` and `retrieve_range` returned, and
`bytes_stored` only the first payload stored under each number, so an update in place leaves
it as it was whatever the size of the new payload. -/
theorem memoryStore_stats_count (config : Config) (ops : List Op) :
    let s := (MemoryStore.run config ops).1
    let h := (MemoryStore.run config ops).2
    s.stats.storeFailures.toNat = failedStores h % 2 ^ 64 ∧
    s.stats.messagesRetrieved.toNat = retrievedCount h % 2 ^ 64 ∧
    s.stats.bytesStored.toNat = firstBytes h % 2 ^ 64 := by
  have hc := counted_foldl ops (p := (.ofConfig config, [])) (refines_ofConfig config)
    ⟨rfl, rfl, rfl⟩
  exact ⟨hc.failures, hc.retrieved, hc.bytes⟩

/-- Number 1 stored with one byte, then updated in place with three: `bytes_stored` stays 1. -/
example : (MemoryStore.run ⟨"S", 10⟩ [.store 1 [0], .store 1 [0, 0, 0]]).1.stats.bytesStored = 1 := by
  decide

end StoreVariant
