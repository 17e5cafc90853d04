import NexusFix.SessionMachine
import Mathlib.Data.List.Infix

/-! # Inbound processing

What `CoroutineSession` does with the bytes `transport_.receive` returns: the receiver loop
of the Active phase, the wait for the peer's Logon, and the validation and routing of each
parsed message. `ParsedMessage::parse` is not among the sources, so every definition takes
the parser as an argument, and the theorems hold for every parser. What the session sends
from here is written to its log in the order it happens: these paths run one at a time, and
`SessionSend` covers their interleaving under the send mutex. -/
namespace SessionReceive

open SessionMachine

/-- The received bytes: `std::span<const char>` over the 4096-byte buffer. -/
abbrev Bytes := List Char

/-- The accessors of `ParsedMessage` the session calls, with the fields `get_int` reads by tag;
the session passes `msg_seq_num()` on as a `uint32_t`. -/
structure ParsedMessage where
  msgType : MsgType
  msgSeqNum : Nat
  possDupFlag : Bool
  ints : List (Nat × Int)
  msgSeqNum_lt : msgSeqNum < 4294967296
  deriving DecidableEq, Repr

def ParsedMessage.getInt (m : ParsedMessage) (tag : Nat) : Option Int := m.ints.lookup tag

/-- One `co_await transport_.receive_async(buf)`: an error other than `WouldBlock`, or the
bytes read, none for a zero-byte read. -/
inductive Recv
  | error
  | data (b : Bytes)
  deriving DecidableEq, Repr

structure OutMsg where
  type : MsgType
  seq : Nat
  ints : List (Nat × Int)
  deriving DecidableEq, Repr

/-- What the session does that can be seen from outside: the handler's callbacks, the messages
it sends, and the stored messages `handle_resend_request` sends again. -/
inductive Action
  | stateChange (prev next : SessionState)
  | error (code : SessionErrorCode)
  | appMessage (m : ParsedMessage)
  | logon
  | logout
  | send (m : OutMsg)
  | resend (b : Bytes)
  deriving DecidableEq, Repr

structure Session where
  state : SessionState
  sequences : SequenceManager
  log : List Action
  deriving DecidableEq, Repr

/-- The `static_cast<uint32_t>` of what `get_int` returned. -/
def toUInt32 (v : Int) : Nat := (v % 4294967296).toNat

namespace Session

variable (unlisted : SessionState → SessionEvent → SessionState)

def emit (s : Session) (a : Action) : Session := { s with log := s.log ++ [a] }

/-- The session's `transition(event)`: the state changes, and the handler hears of it, when `next_state`
gives another state. -/
def transition (s : Session) (event : SessionEvent) : Session :=
  let r := SessionMachine.transition unlisted s.state event
  { s with state := r.1, log := s.log ++ r.2.toList.map fun p => .stateChange p.1 p.2 }

/-- A message built with `.msg_seq_num(sequences_.next_outbound())` and sent. -/
def sendFresh (s : Session) (type : MsgType) (ints : List (Nat × Int)) : Session :=
  { s with sequences := s.sequences.nextOutbound.2 }.emit (.send ⟨type, s.sequences.nextOutbound.1, ints⟩)

/-- Gap handling, `handle_sequence_gap`: a ResendRequest for `gap_range(received)`. -/
def handleSequenceGap (s : Session) (received : Nat) : Session :=
  let r := s.sequences.gapRange received
  s.sendFresh MsgType.resendRequest [(7, r.1), (16, r.2)]

def handleTestRequest (s : Session) : Session := s.sendFresh MsgType.heartbeat []

def handleLogout (s : Session) : Session := (s.transition unlisted .logoutReceived).emit .logout

def handleSequenceReset (s : Session) (m : ParsedMessage) : Session :=
  match m.getInt 36 with
  | some v => { s with sequences := s.sequences.setInbound (toUInt32 v) }
  | none => s

/-- Resend handling, `handle_resend_request`, given what `retrieve_range(begin, end)` returns on the attached
store (nothing when there is none): the stored messages again, or else a SequenceReset
gap fill numbered `begin` with NewSeqNo `current_outbound()`. -/
def handleResendRequest (retrieveRange : Nat → Nat → List Bytes) (s : Session)
    (m : ParsedMessage) : Session :=
  match m.getInt 7, m.getInt 16 with
  | some b, some e =>
    let stored := retrieveRange (toUInt32 b) (toUInt32 e)
    if stored = [] then
      s.emit (.send ⟨MsgType.sequenceReset, toUInt32 b,
        [(36, s.sequences.currentOutbound), (123, 1)]⟩)
    else stored.foldl (fun s b => s.emit (.resend b)) s
  | _, _ => s

def handleAdminMessage (retrieveRange : Nat → Nat → List Bytes) (s : Session)
    (m : ParsedMessage) : Session :=
  if m.msgType = MsgType.heartbeat then s
  else if m.msgType = MsgType.testRequest then s.handleTestRequest
  else if m.msgType = MsgType.logout then s.handleLogout unlisted
  else if m.msgType = MsgType.resendRequest then handleResendRequest retrieveRange s m
  else if m.msgType = MsgType.sequenceReset then s.handleSequenceReset m
  else if m.msgType = MsgType.reject then s.emit (.error .invalidState)
  else s

def route (retrieveRange : Nat → Nat → List Bytes) (s : Session) (m : ParsedMessage) :
    Session :=
  if MsgType.isAdmin m.msgType then handleAdminMessage unlisted retrieveRange s m
  else s.emit (.appMessage m)

/-- Sequence validation, then routing, of one parsed message in `message_receiver_loop`. -/
def processMessage (retrieveRange : Nat → Nat → List Bytes) (s : Session)
    (m : ParsedMessage) : Session :=
  let v := s.sequences.validateInbound m.msgSeqNum
  let s' := { s with sequences := v.2 }
  match v.1 with
  | .gapDetected => route unlisted retrieveRange (s'.handleSequenceGap m.msgSeqNum) m
  | .tooLow =>
    if m.possDupFlag then route unlisted retrieveRange s' m else s'.emit (.error .sequenceGap)
  | .expected => route unlisted retrieveRange s' m

end Session

section
variable (unlisted : SessionState → SessionEvent → SessionState)
  (parse : Bytes → Option ParsedMessage)
  (retrieveRange : Nat → Nat → List Bytes)

/-- One non-empty read of `message_receiver_loop`: parsed on its own, then processed. -/
def receiveChunk (s : Session) (b : Bytes) : Session :=
  match parse b with
  | some m => s.processMessage unlisted retrieveRange m
  | none => s.emit (.error .invalidState)

/-- The receiver loop, `message_receiver_loop`, over the reads it makes, while the state stays Active. -/
def receiverLoop (s : Session) : List Recv → Session
  | [] => s
  | r :: rest =>
    if s.state ≠ .active then s
    else match r with
      | .error => s.transition unlisted .disconnect
      | .data [] => receiverLoop s rest
      | .data b => receiverLoop (receiveChunk unlisted parse retrieveRange s b) rest

/-- Waiting for the Logon reply, `wait_for_logon_with_deadline`, over the reads it makes before the deadline passes. -/
def waitForLogon (s : Session) : List Recv → Session
  | [] => s
  | r :: rest =>
    if s.state ≠ .logonSent then s
    else match r with
      | .error => s.transition unlisted .disconnect
      | .data [] => waitForLogon s rest
      | .data b =>
        match parse b with
        | none => waitForLogon s rest
        | some m =>
          waitForLogon
            (if m.msgType = MsgType.logon then s.transition unlisted .logonReceived
              else if m.msgType = MsgType.logout then s.transition unlisted .logonRejected else s)
            rest

end

def soh : Char := '\x01'

def natOf (cs : List Char) : Option Nat :=
  if cs ≠ [] ∧ cs.all Char.isDigit then some (cs.foldl (fun n c => 10 * n + (c.toNat - 48)) 0)
  else none

def intOf : List Char → Option Int
  | '-' :: cs => (natOf cs).map fun n => -(n : Int)
  | cs => (natOf cs).map Int.ofNat

def fieldOf (f : List Char) : Option (Nat × List Char) :=
  match f.span (· ≠ '=') with
  | (tag, _ :: v) => (natOf tag).map (·, v)
  | _ => none

/-- Modelled from the spec: `ParsedMessage::parse` is not among the sources. This parser
reads SOH-terminated `tag=value` fields, wants BeginString (8), BodyLength (9) and MsgType
(35) first and a single CheckSum (10) last, and checks neither the length nor the sum; a
MsgSeqNum past `uint32_t` is no message. -/
def parseFix (b : Bytes) : Option ParsedMessage :=
  match (b.splitOn soh).reverse with
  | [] :: rev =>
    match rev.reverse.mapM fieldOf with
    | some fs@((8, _) :: (9, _) :: (35, [t]) :: rest) =>
      match rest.reverse with
      | (10, _) :: body =>
        if body.any (·.1 = 10) then none
        else
          let n := ((fs.lookup 34).bind natOf).getD 0
          if h : n < 4294967296 then
            some ⟨t, n, fs.lookup 43 = some ['Y'], fs.filterMap fun f => (intOf f.2).map (f.1, ·), h⟩
          else none
      | _ => none
    | _ => none
  | _ => none

namespace Session

variable (unlisted : SessionState → SessionEvent → SessionState)
  (retrieveRange : Nat → Nat → List Bytes)

@[simp] theorem emit_log (s : Session) (a : Action) : (s.emit a).log = s.log ++ [a] := rfl

@[simp] theorem emit_state (s : Session) (a : Action) : (s.emit a).state = s.state := rfl

@[simp] theorem emit_sequences (s : Session) (a : Action) :
    (s.emit a).sequences = s.sequences := rfl

@[simp] theorem transition_state (s : Session) (e : SessionEvent) :
    (s.transition unlisted e).state = nextState unlisted s.state e := transition_fst ..

@[simp] theorem transition_sequences (s : Session) (e : SessionEvent) :
    (s.transition unlisted e).sequences = s.sequences := rfl

theorem transition_log (s : Session) (e : SessionEvent) :
    s.log <+: (s.transition unlisted e).log :=
  List.prefix_append ..

theorem sendFresh_log (s : Session) (type : MsgType) (ints : List (Nat × Int)) :
    (s.sendFresh type ints).log = s.log ++ [.send ⟨type, s.sequences.outbound, ints⟩] := rfl

theorem foldl_resend (t : Session) (l : List Bytes) :
    l.foldl (fun s b => s.emit (.resend b)) t = { t with log := t.log ++ l.map .resend } := by
  induction l generalizing t with
  | nil => simp
  | cons x l ih => rw [List.foldl_cons, ih]; simp [emit]

theorem handleResendRequest_frame (s : Session) (m : ParsedMessage) :
    ∃ l, handleResendRequest retrieveRange s m = { s with log := s.log ++ l } := by
  unfold handleResendRequest
  split
  · dsimp only
    split
    · exact ⟨_, rfl⟩
    · exact ⟨_, foldl_resend s _⟩
  · exact ⟨[], by simp⟩

theorem handleResendRequest_log (s : Session) (m : ParsedMessage) :
    s.log <+: (handleResendRequest retrieveRange s m).log := by
  obtain ⟨l, h⟩ := handleResendRequest_frame retrieveRange s m
  rw [h]
  exact List.prefix_append ..

@[simp] theorem handleSequenceReset_log (s : Session) (m : ParsedMessage) :
    (s.handleSequenceReset m).log = s.log := by
  unfold handleSequenceReset; split <;> rfl

@[simp] theorem handleSequenceReset_state (s : Session) (m : ParsedMessage) :
    (s.handleSequenceReset m).state = s.state := by
  unfold handleSequenceReset; split <;> rfl


theorem handleResendRequest_state (s : Session) (m : ParsedMessage) :
    (handleResendRequest retrieveRange s m).state = s.state := by
  obtain ⟨l, h⟩ := handleResendRequest_frame retrieveRange s m
  rw [h]

theorem handleAdminMessage_spec (s : Session) (m : ParsedMessage) :
    s.log <+: (handleAdminMessage unlisted retrieveRange s m).log ∧
      ((handleAdminMessage unlisted retrieveRange s m).state = s.state ∨
        m.msgType = MsgType.logout ∧
          (handleAdminMessage unlisted retrieveRange s m).state =
            nextState unlisted s.state .logoutReceived) := by
  unfold handleAdminMessage
  by_cases h0 : m.msgType = MsgType.heartbeat
  · rw [if_pos h0]; exact ⟨List.prefix_refl _, .inl rfl⟩
  rw [if_neg h0]; by_cases h1 : m.msgType = MsgType.testRequest
  · rw [if_pos h1]; exact ⟨List.prefix_append .., .inl rfl⟩
  rw [if_neg h1]; by_cases h5 : m.msgType = MsgType.logout
  · rw [if_pos h5]
    exact ⟨(transition_log unlisted s _).trans (List.prefix_append ..),
      .inr ⟨h5, by simp only [handleLogout, emit_state, transition_state]⟩⟩
  rw [if_neg h5]; by_cases h2 : m.msgType = MsgType.resendRequest
  · rw [if_pos h2]
    exact ⟨handleResendRequest_log retrieveRange s m, .inl (handleResendRequest_state retrieveRange s m)⟩
  rw [if_neg h2]; by_cases h4 : m.msgType = MsgType.sequenceReset
  · rw [if_pos h4, handleSequenceReset_log]; exact ⟨List.prefix_refl _, .inl (handleSequenceReset_state s m)⟩
  rw [if_neg h4]; by_cases h3 : m.msgType = MsgType.reject
  · rw [if_pos h3]; exact ⟨List.prefix_append .., .inl rfl⟩
  · rw [if_neg h3]; exact ⟨List.prefix_refl _, .inl rfl⟩

theorem route_log (s : Session) (m : ParsedMessage) :
    s.log <+: (route unlisted retrieveRange s m).log := by
  unfold route
  split
  · exact (handleAdminMessage_spec unlisted retrieveRange s m).1
  · exact List.prefix_append ..

theorem route_state (s : Session) (m : ParsedMessage) :
    (route unlisted retrieveRange s m).state = s.state ∨
      (m.msgType = MsgType.logout ∧
        (route unlisted retrieveRange s m).state = nextState unlisted s.state .logoutReceived) := by
  unfold route
  split
  · exact (handleAdminMessage_spec unlisted retrieveRange s m).2
  · exact .inl rfl

theorem processMessage_state (s : Session) (m : ParsedMessage) :
    (s.processMessage unlisted retrieveRange m).state = s.state ∨
      (m.msgType = MsgType.logout ∧
        (s.processMessage unlisted retrieveRange m).state =
          nextState unlisted s.state .logoutReceived) := by
  unfold processMessage
  obtain ⟨r, q⟩ := s.sequences.validateInbound m.msgSeqNum
  dsimp only
  cases r with
  | gapDetected => exact route_state unlisted retrieveRange _ m
  | tooLow =>
    dsimp only
    split
    · exact route_state unlisted retrieveRange _ m
    · exact .inl rfl
  | expected => exact route_state unlisted retrieveRange _ m

end Session

section
variable (unlisted : SessionState → SessionEvent → SessionState)
  (parse : Bytes → Option ParsedMessage)
  (retrieveRange : Nat → Nat → List Bytes)

theorem receiveChunk_state (s : Session) (b : Bytes) :
    (receiveChunk unlisted parse retrieveRange s b).state = s.state ∨
      (∃ m, parse b = some m ∧ m.msgType = MsgType.logout) ∧
        (receiveChunk unlisted parse retrieveRange s b).state =
          nextState unlisted s.state .logoutReceived := by
  unfold receiveChunk
  split
  · next m hm =>
    rcases Session.processMessage_state unlisted retrieveRange s m with h | ⟨ht, h⟩
    · exact .inl h
    · exact .inr ⟨⟨m, hm, ht⟩, h⟩
  · exact .inl rfl

theorem waitForLogon_of_ne {s : Session} (h : s.state ≠ .logonSent) (l : List Recv) :
    waitForLogon unlisted parse s l = s := by
  cases l <;> simp [waitForLogon, h]

theorem waitForLogon_logon {s : Session} (hs : s.state = .logonSent) {b : Bytes}
    {m : ParsedMessage} (hb0 : b ≠ []) (hb : parse b = some m) (hm : m.msgType = MsgType.logon)
    (rest : List Recv) :
    waitForLogon unlisted parse s (.data b :: rest) = s.transition unlisted .logonReceived := by
  obtain ⟨c, cs, rfl⟩ := List.exists_cons_of_ne_nil hb0
  simp only [waitForLogon, hs, ne_eq, not_true_eq_false, if_false, hb, hm, if_true]
  exact waitForLogon_of_ne unlisted parse (by simp [hs]) rest

/-- A message numbered past the expected one is processed after a ResendRequest for the
numbers in between. -/
theorem processMessage_gap {s : Session} {m : ParsedMessage}
    (h : s.sequences.inbound < m.msgSeqNum) :
    Action.send ⟨MsgType.resendRequest, s.sequences.outbound,
        [(7, s.sequences.inbound), (16, ((m.msgSeqNum - 1 : Nat) : Int))]⟩ ∈
      (s.processMessage unlisted retrieveRange m).log := by
  have hr : (m.msgSeqNum + 4294967295) % 4294967296 = m.msgSeqNum - 1 := by
    have := m.msgSeqNum_lt; omega
  unfold Session.processMessage
  rw [SequenceManager.validateInbound_gap h]
  refine (Session.route_log unlisted retrieveRange _ m).subset ?_
  simp [Session.handleSequenceGap, Session.sendFresh_log, SequenceManager.gapRange, hr]

/-- The peer's Logon, numbered as expected, leaves the expected number where it was: the
message after it is taken for a gap and answered with a ResendRequest. -/
theorem logon_reply_leaves_gap {s : Session} (hs : s.state = .logonSent) {b b' : Bytes}
    {m m' : ParsedMessage} (hb0 : b ≠ []) (hb : parse b = some m)
    (hm : m.msgType = MsgType.logon) (hb' : parse b' = some m')
    (hseq : m'.msgSeqNum = s.sequences.inbound + 1) (rest : List Recv) :
    (waitForLogon unlisted parse s (.data b :: rest)).state = .active ∧
    (waitForLogon unlisted parse s (.data b :: rest)).sequences = s.sequences ∧
    Action.send ⟨MsgType.resendRequest, s.sequences.outbound,
        [(7, s.sequences.inbound), (16, s.sequences.inbound)]⟩ ∈
      (receiveChunk unlisted parse retrieveRange
        (waitForLogon unlisted parse s (.data b :: rest)) b').log := by
  rw [waitForLogon_logon unlisted parse hs hb0 hb hm]
  refine ⟨by simp [hs], rfl, ?_⟩
  have := processMessage_gap unlisted retrieveRange
    (show (s.transition unlisted .logonReceived).sequences.inbound < m'.msgSeqNum by simp [hseq])
  simpa [receiveChunk, hb', hseq] using this

end

def noStore : Nat → Nat → List Bytes := fun _ _ => []

/-- The peer's Logon, numbered 1, and its first Heartbeat, numbered 2. -/
def peerLogon : Bytes := "8=FIX.4.4\x019=12\x0135=A\x0134=1\x0110=000\x01".toList

def peerHeartbeat : Bytes := "8=FIX.4.4\x019=12\x0135=0\x0134=2\x0110=000\x01".toList

def logonSentSession : Session := ⟨.logonSent, { outbound := 2 }, []⟩

theorem peerLogon_then_heartbeat_gap :
    (waitForLogon keepState parseFix logonSentSession [.data peerLogon]).state = .active ∧
    (waitForLogon keepState parseFix logonSentSession [.data peerLogon]).sequences =
      logonSentSession.sequences ∧
    Action.send ⟨MsgType.resendRequest, 2, [(7, 1), (16, 1)]⟩ ∈
      (receiveChunk keepState parseFix noStore
        (waitForLogon keepState parseFix logonSentSession [.data peerLogon]) peerHeartbeat).log :=
  @logon_reply_leaves_gap keepState parseFix noStore logonSentSession rfl peerLogon peerHeartbeat
    ⟨'A', 1, false, [(9, 12), (34, 1), (10, 0)], by decide⟩
    ⟨'0', 2, false, [(9, 12), (35, 0), (34, 2), (10, 0)], by decide⟩
    (by decide) (by decide) rfl (by decide) rfl []

section
variable (unlisted : SessionState → SessionEvent → SessionState)
  (parse : Bytes → Option ParsedMessage)
  (retrieveRange : Nat → Nat → List Bytes)

/-- The receiver's processing of a sequence of parsed messages, while the state stays
Active. -/
def processAll (s : Session) : List ParsedMessage → Session
  | [] => s
  | m :: ms =>
    if s.state ≠ .active then s else processAll (s.processMessage unlisted retrieveRange m) ms

/-- Each read is parsed by itself: when every read returns one whole message, the receiver
validates and routes exactly the sequence of those messages. -/
theorem receiverLoop_one_message_per_chunk (s : Session) (chunks : List Bytes)
    (ms : List ParsedMessage) (hne : ∀ b ∈ chunks, b ≠ []) (hp : chunks.map parse = ms.map some) :
    receiverLoop unlisted parse retrieveRange s (chunks.map .data) =
      processAll unlisted retrieveRange s ms := by
  induction chunks generalizing s ms with
  | nil => cases ms <;> simp_all [receiverLoop, processAll]
  | cons b bs ih =>
    obtain ⟨m, ms, rfl, hb, hbs⟩ : ∃ m ms', ms = m :: ms' ∧ parse b = some m ∧
        bs.map parse = ms'.map some := by
      cases ms with
      | nil => simp at hp
      | cons m ms => simp only [List.map_cons, List.cons.injEq] at hp; exact ⟨m, ms, rfl, hp⟩
    obtain ⟨c, cs, rfl⟩ := List.exists_cons_of_ne_nil (hne b (List.mem_cons_self _ _))
    have ih' := ih (s.processMessage unlisted retrieveRange m) ms
      (fun b h => hne b (List.mem_cons_of_mem _ h)) hbs
    by_cases hs : s.state = .active
    · simp [receiverLoop, processAll, hs, receiveChunk, hb, ih']
    · simp [receiverLoop, processAll, hs]

end

/-- Two application messages, numbered 1 and 2. -/
def order1 : Bytes := "8=FIX.4.4\x019=12\x0135=D\x0134=1\x0110=000\x01".toList

def order2 : Bytes := "8=FIX.4.4\x019=12\x0135=D\x0134=2\x0110=000\x01".toList

def activeSession : Session := ⟨.active, {}, []⟩

theorem two_orders_one_per_read :
    receiverLoop keepState parseFix noStore activeSession ([order1, order2].map .data) =
      processAll keepState noStore activeSession
        [⟨'D', 1, false, [(9, 12), (34, 1), (10, 0)], by decide⟩,
          ⟨'D', 2, false, [(9, 12), (34, 2), (10, 0)], by decide⟩] :=
  receiverLoop_one_message_per_chunk keepState parseFix noStore activeSession [order1, order2]
    [⟨'D', 1, false, [(9, 12), (34, 1), (10, 0)], by decide⟩,
      ⟨'D', 2, false, [(9, 12), (34, 2), (10, 0)], by decide⟩]
    (by decide) (by decide)

/-- The same bytes in two reads, or in one: the second read routes nothing. -/
theorem segmentation_changes_routing :
    (receiverLoop keepState parseFix noStore activeSession [.data order1, .data order2]).log =
      [.appMessage ⟨'D', 1, false, [(9, 12), (34, 1), (10, 0)], by decide⟩,
        .appMessage ⟨'D', 2, false, [(9, 12), (34, 2), (10, 0)], by decide⟩] ∧
    (receiverLoop keepState parseFix noStore activeSession [.data (order1 ++ order2)]).log =
      [.error .invalidState] := by
  decide

end SessionReceive
