import NexusFix.SessionReceive
import NexusFix.StoreVariant

/-! # Sequence recovery

What the receiver does with the numbers FIX recovery turns on: a message numbered below the
expected one, the NewSeqNo of a SequenceReset, and a ResendRequest answered from the attached
store or with a gap fill. The receive model of `SessionReceive` is used as it is; the lemmas
here follow the expected inbound number through it. -/
namespace SequenceRecovery

open SessionMachine SessionReceive SessionReceive.Session

section
variable (unlisted : SessionState → SessionEvent → SessionState)
  (retrieveRange : Nat → Nat → List Bytes)

@[simp] theorem sendFresh_inbound (s : Session) (type : MsgType) (ints : List (Nat × Int)) :
    (s.sendFresh type ints).sequences.inbound = s.sequences.inbound := rfl

@[simp] theorem handleSequenceGap_inbound (s : Session) (received : Nat) :
    (s.handleSequenceGap received).sequences.inbound = s.sequences.inbound := rfl

theorem handleResendRequest_sequences (s : Session) (m : ParsedMessage) :
    (handleResendRequest retrieveRange s m).sequences = s.sequences := by
  obtain ⟨l, h⟩ := handleResendRequest_frame retrieveRange s m
  rw [h]

theorem handleAdminMessage_of_reset {s : Session} {m : ParsedMessage}
    (h : m.msgType = MsgType.sequenceReset) :
    handleAdminMessage unlisted retrieveRange s m = s.handleSequenceReset m := by
  simp only [handleAdminMessage, h]
  rfl

theorem handleAdminMessage_inbound_of_ne {s : Session} {m : ParsedMessage}
    (h : m.msgType ≠ MsgType.sequenceReset) :
    (handleAdminMessage unlisted retrieveRange s m).sequences.inbound = s.sequences.inbound := by
  unfold handleAdminMessage
  by_cases h0 : m.msgType = MsgType.heartbeat
  · rw [if_pos h0]
  rw [if_neg h0]; by_cases h1 : m.msgType = MsgType.testRequest
  · rw [if_pos h1]; rfl
  rw [if_neg h1]; by_cases h5 : m.msgType = MsgType.logout
  · rw [if_pos h5]; rfl
  rw [if_neg h5]; by_cases h2 : m.msgType = MsgType.resendRequest
  · rw [if_pos h2, handleResendRequest_sequences]
  rw [if_neg h2, if_neg h]; by_cases h3 : m.msgType = MsgType.reject
  · rw [if_pos h3]; rfl
  · rw [if_neg h3]

/-- Routing changes the expected inbound number only through a SequenceReset's NewSeqNo. -/
theorem route_inbound (s : Session) (m : ParsedMessage) :
    (route unlisted retrieveRange s m).sequences.inbound =
      if m.msgType = MsgType.sequenceReset then (s.handleSequenceReset m).sequences.inbound
      else s.sequences.inbound := by
  unfold route
  by_cases h : m.msgType = MsgType.sequenceReset
  · rw [if_pos (by rw [h]; rfl), handleAdminMessage_of_reset unlisted retrieveRange h, if_pos h]
  · rw [if_neg h]
    split
    · exact handleAdminMessage_inbound_of_ne unlisted retrieveRange h
    · rfl

theorem toUInt32_lt (v : Int) : toUInt32 v < 4294967296 := by
  have := Int.emod_lt_of_pos v (by decide : (0 : Int) < 4294967296)
  unfold toUInt32; omega

theorem handleSequenceReset_inbound {s : Session} {m : ParsedMessage} {v : Int}
    (hv : m.getInt 36 = some v) : (s.handleSequenceReset m).sequences.inbound = toUInt32 v := by
  simp [handleSequenceReset, hv, Nat.mod_eq_of_lt (toUInt32_lt v)]

/-- A message numbered below the expected one leaves the expected number where it was.
Without PossDup it produces one SequenceGap error and goes no further; with PossDup it is
routed like an in-order message, to `handle_admin_message` or `on_app_message`. -/
theorem tooLow_duplicate_routed (s : Session) (m : ParsedMessage)
    (hlow : m.msgSeqNum < s.sequences.inbound) :
    s.processMessage unlisted retrieveRange m =
      if m.possDupFlag then route unlisted retrieveRange s m else s.emit (.error .sequenceGap) := by
  simp only [Session.processMessage, SequenceManager.validateInbound_tooLow hlow]

def duplicateSession : Session := ⟨.active, { inbound := 3 }, []⟩

def duplicateOrder : ParsedMessage := ⟨'D', 1, true, [], by decide⟩

theorem duplicate_order_reaches_app :
    (duplicateSession.processMessage keepState noStore duplicateOrder).log =
      [.appMessage duplicateOrder] := by
  rw [tooLow_duplicate_routed keepState noStore duplicateSession duplicateOrder (by decide)]
  rfl

theorem route_inbound_cases (t : Session) (m : ParsedMessage) :
    (route unlisted retrieveRange t m).sequences.inbound = t.sequences.inbound ∨
      m.msgType = MsgType.sequenceReset ∧ ∃ v, m.getInt 36 = some v ∧
        (route unlisted retrieveRange t m).sequences.inbound = toUInt32 v := by
  rw [route_inbound]
  split
  · next hm =>
    cases hv : m.getInt 36 with
    | none => exact .inl (by simp [handleSequenceReset, hv])
    | some v => exact .inr ⟨hm, v, rfl, handleSequenceReset_inbound hv⟩
  · exact .inl rfl

/-- The expected number after one message: the same, one more in `uint32_t` (the message was
in order), or the NewSeqNo of a routed SequenceReset, cast to `uint32_t`. -/
theorem processMessage_inbound (s : Session) (m : ParsedMessage) :
    let n := (s.processMessage unlisted retrieveRange m).sequences.inbound
    n = s.sequences.inbound ∨
      m.msgSeqNum = s.sequences.inbound ∧ n = (s.sequences.inbound + 1) % 4294967296 ∨
      m.msgType = MsgType.sequenceReset ∧ ∃ v, m.getInt 36 = some v ∧ n = toUInt32 v := by
  rcases Nat.lt_trichotomy m.msgSeqNum s.sequences.inbound with hl | he | hg
  · simp only [Session.processMessage, SequenceManager.validateInbound_tooLow hl]
    split
    · exact (route_inbound_cases unlisted retrieveRange _ m).imp id .inr
    · exact .inl rfl
  · simp only [Session.processMessage, SequenceManager.validateInbound_expected he]
    exact .inr ((route_inbound_cases unlisted retrieveRange _ m).imp (⟨he, ·⟩) id)
  · simp only [Session.processMessage, SequenceManager.validateInbound_gap hg]
    exact (route_inbound_cases unlisted retrieveRange _ m).imp id .inr

/-- A SequenceReset that is routed sets the expected number to its NewSeqNo modulo 2^32:
one numbered as expected or past it, or below it with PossDup. -/
theorem processMessage_reset {s : Session} {m : ParsedMessage} {v : Int}
    (hm : m.msgType = MsgType.sequenceReset) (hv : m.getInt 36 = some v)
    (hroute : m.possDupFlag = true ∨ s.sequences.inbound ≤ m.msgSeqNum) :
    (s.processMessage unlisted retrieveRange m).sequences.inbound = toUInt32 v := by
  have hr : ∀ t : Session, (route unlisted retrieveRange t m).sequences.inbound = toUInt32 v :=
    fun t => by rw [route_inbound, if_pos hm, handleSequenceReset_inbound hv]
  rcases Nat.lt_trichotomy m.msgSeqNum s.sequences.inbound with hl | he | hg
  · have hdup : m.possDupFlag = true := hroute.resolve_right (by omega)
    simp only [Session.processMessage, SequenceManager.validateInbound_tooLow hl, hdup, if_true, hr]
  · simp only [Session.processMessage, SequenceManager.validateInbound_expected he, hr]
  · simp only [Session.processMessage, SequenceManager.validateInbound_gap hg, hr]

end

section
variable (unlisted : SessionState → SessionEvent → SessionState)
  (parse : Bytes → Option ParsedMessage) (retrieveRange : Nat → Nat → List Bytes)

/-- No read parses to a message numbered 2^32 − 1, whose in-order increment wraps, nor to a
SequenceReset whose NewSeqNo the `uint32_t` cast turns into 0. -/
def NoWrap (reads : List Recv) : Prop :=
  ∀ b m, Recv.data b ∈ reads → parse b = some m → m.msgSeqNum ≠ 4294967295 ∧
    (m.msgType = MsgType.sequenceReset → ∀ v, m.getInt 36 = some v → v % 4294967296 ≠ 0)

theorem toUInt32_pos {v : Int} (h : v % 4294967296 ≠ 0) : 1 ≤ toUInt32 v := by
  have := Int.emod_nonneg v (by decide : (4294967296 : Int) ≠ 0)
  unfold toUInt32; omega

theorem receiveChunk_inbound_pos {s : Session} (hs : 1 ≤ s.sequences.inbound) (b : Bytes)
    (hb : ∀ m, parse b = some m → m.msgSeqNum ≠ 4294967295 ∧
      (m.msgType = MsgType.sequenceReset → ∀ v, m.getInt 36 = some v → v % 4294967296 ≠ 0)) :
    1 ≤ (receiveChunk unlisted parse retrieveRange s b).sequences.inbound := by
  unfold receiveChunk
  split
  · next m hm =>
    obtain ⟨hmax, hreset⟩ := hb m hm
    have := s.sequences.inbound_lt
    rcases processMessage_inbound unlisted retrieveRange s m with h | ⟨he, h⟩ | ⟨hr, v, hv, h⟩ <;>
      rw [h]
    · exact hs
    · omega
    · exact toUInt32_pos (hreset hr v hv)
  · exact hs

theorem receiverLoop_inbound_pos {s : Session} (hs : 1 ≤ s.sequences.inbound) (reads : List Recv)
    (hreads : NoWrap parse reads) :
    1 ≤ (receiverLoop unlisted parse retrieveRange s reads).sequences.inbound := by
  induction reads generalizing s with
  | nil => exact hs
  | cons r rest ih =>
    have hrest : NoWrap parse rest := fun b m hb => hreads b m (List.mem_cons_of_mem _ hb)
    unfold receiverLoop
    split
    · exact hs
    · split
      · exact hs
      · exact ih hs hrest
      · next b _ =>
        exact ih (receiveChunk_inbound_pos unlisted parse retrieveRange hs b
          (hreads b · (List.mem_cons_self _ _))) hrest

/-- A routed SequenceReset sets the expected inbound number to NewSeqNo modulo 2^32, the
`static_cast<uint32_t>` of what `get_int` returned; over any stream of reads the number stays
at least 1 as long as no message in it is numbered 2^32 − 1 and no SequenceReset in it carries
a multiple of 2^32. -/
theorem sequenceReset_sets_inbound_mod :
    (∀ (s : Session) (m : ParsedMessage) (v : Int), m.msgType = MsgType.sequenceReset →
      m.getInt 36 = some v → (m.possDupFlag = true ∨ s.sequences.inbound ≤ m.msgSeqNum) →
      (s.processMessage unlisted retrieveRange m).sequences.inbound = (v % 4294967296).toNat) ∧
    (∀ (s : Session) (reads : List Recv), 1 ≤ s.sequences.inbound → NoWrap parse reads →
      1 ≤ (receiverLoop unlisted parse retrieveRange s reads).sequences.inbound) :=
  ⟨fun _ _ _ hm hv hroute => processMessage_reset unlisted retrieveRange hm hv hroute,
    fun _ reads hs hreads => receiverLoop_inbound_pos unlisted parse retrieveRange hs reads hreads⟩

end

/-- A SequenceReset numbered 1 with NewSeqNo 5, one with NewSeqNo 0, one with
NewSeqNo 2^32 + 5, and one with NewSeqNo 2^32 − 1. -/
def resetToFive : Bytes := "8=FIX.4.4\x019=12\x0135=4\x0134=1\x0136=5\x0110=000\x01".toList

def resetToZero : Bytes := "8=FIX.4.4\x019=12\x0135=4\x0134=1\x0136=0\x0110=000\x01".toList

def resetWrapping : Bytes :=
  "8=FIX.4.4\x019=12\x0135=4\x0134=1\x0136=4294967301\x0110=000\x01".toList

def resetToMax : Bytes :=
  "8=FIX.4.4\x019=12\x0135=4\x0134=1\x0136=4294967295\x0110=000\x01".toList

def orderAtMax : Bytes := "8=FIX.4.4\x019=12\x0135=D\x0134=4294967295\x0110=000\x01".toList

theorem resetToFive_sets_five :
    (activeSession.processMessage keepState noStore
      ⟨'4', 1, false, [(36, 5)], by decide⟩).sequences.inbound = 5 ∧
    1 ≤ (receiverLoop keepState parseFix noStore activeSession [.data resetToFive]).sequences.inbound :=
  ⟨(sequenceReset_sets_inbound_mod keepState parseFix noStore).1 activeSession
      ⟨'4', 1, false, [(36, 5)], by decide⟩ 5 rfl rfl (.inr (by decide)),
    (sequenceReset_sets_inbound_mod keepState parseFix noStore).2 activeSession [.data resetToFive]
      (by decide) (by
        intro b m hb hp
        obtain rfl : b = resetToFive := by simpa using hb
        obtain rfl : m = ⟨'4', 1, false, [(9, 12), (35, 4), (34, 1), (36, 5), (10, 0)], by decide⟩ :=
          Option.some.inj (hp.symm.trans (by decide))
        refine ⟨by decide, fun _ v hv => ?_⟩
        obtain rfl : v = 5 := Option.some.inj hv.symm
        decide)⟩

/-- NewSeqNo 0 sets the expected inbound number to 0 and NewSeqNo 2^32 + 5 sets it to 5; after
NewSeqNo 2^32 − 1, the in-order message numbered 2^32 − 1 wraps it to 0. -/
theorem reset_newSeqNo_truncated :
    (receiverLoop keepState parseFix noStore activeSession [.data resetToZero]).sequences.inbound = 0 ∧
    (receiverLoop keepState parseFix noStore activeSession
      [.data resetWrapping]).sequences.inbound = 5 ∧
    (receiverLoop keepState parseFix noStore activeSession
      [.data resetToMax, .data orderAtMax]).sequences.inbound = 0 := by
  decide

section
variable (retrieveRange : Nat → Nat → List Bytes)

/-- The answer to a ResendRequest, for any store: the messages `retrieve_range` returns,
resent as they are and nothing else, or, when it returns none, one SequenceReset gap fill
from BeginSeqNo to the current outbound number, which covers every number from BeginSeqNo
below the next outbound one. -/
theorem resendRequest_answer (s : Session) (m : ParsedMessage) (b e : Int)
    (hb : m.getInt 7 = some b) (he : m.getInt 16 = some e) :
    let stored := retrieveRange (toUInt32 b) (toUInt32 e)
    (stored ≠ [] → (handleResendRequest retrieveRange s m).log = s.log ++ stored.map .resend) ∧
    (stored = [] →
      (handleResendRequest retrieveRange s m).log = s.log ++
        [.send ⟨MsgType.sequenceReset, toUInt32 b, [(36, s.sequences.currentOutbound), (123, 1)]⟩] ∧
      (0 ≤ b → ∀ n : Nat, b ≤ n → n < s.sequences.outbound →
        toUInt32 b ≤ n ∧ n < s.sequences.currentOutbound)) := by
  intro stored
  simp only [handleResendRequest, hb, he]
  refine ⟨fun hne => by rw [if_neg hne, foldl_resend], fun hnil => ⟨by rw [if_pos hnil]; rfl, ?_⟩⟩
  intro hb0 n hbn hn
  exact ⟨by unfold toUInt32; omega, hn⟩

end

def resendSession : Session := ⟨.active, { outbound := 4 }, []⟩

def resendOneToThree : ParsedMessage := ⟨'2', 1, false, [(7, 1), (16, 3)], by decide⟩

/-- With no store, one gap fill from 1 to 4 covers the request. -/
theorem noStore_gap_fill_covers :
    (handleResendRequest noStore resendSession resendOneToThree).log =
      [.send ⟨MsgType.sequenceReset, 1, [(36, 4), (123, 1)]⟩] ∧
    ∀ n : Nat, (1 : Int) ≤ n → n < 4 → 1 ≤ n ∧ n < 4 := by
  have h := (resendRequest_answer noStore resendSession resendOneToThree 1 3 rfl rfl).2 rfl
  exact ⟨h.1, h.2 (by decide)⟩

/-- The attached `MemoryStore` as `handle_resend_request` calls it, each stored
`std::vector<char>` read back as characters. -/
def memoryRange (st : StoreVariant.MemoryStore) (b e : Nat) : List Bytes :=
  (st.retrieveRange b.toUInt32 e.toUInt32).1.map (·.map fun c => Char.ofNat c.toNat)

def storeOfTwo : StoreVariant.MemoryStore :=
  (StoreVariant.MemoryStore.run ⟨"S", 10000⟩
    [.store 2 (peerHeartbeat.map fun c => c.toNat.toUInt8)]).1

/-- Asked for 1 to 3, a session whose store holds only 2 sends that message again and
nothing else: no message covers 1 or 3. -/
theorem partial_store_leaves_holes :
    (handleResendRequest (memoryRange storeOfTwo) resendSession resendOneToThree).log =
      [.resend peerHeartbeat] := by
  decide

end SequenceRecovery
