import Mathlib.Logic.Function.Basic

/-! # Sending through the transport

`AsyncTransport::send_async` retries `ITransport::send` while it answers WouldBlock, and
`send_raw_unlocked` counts the message as sent when the answer is a success. The transport
is any implementation of `ITransport`, given by the answers its `send` makes to successive
calls; `WinsockSocket::send` is the one among the sources, modelled over what `::send`
returns on the socket. -/
namespace TransportSend

/-- Modelled from the spec: the error kinds of a transport result (`types/error.hpp` is not
among the sources). -/
inductive TransportErrorCode
  | wouldBlock
  | connectionClosed
  | connectionRefused
  | connectionReset
  | timeout
  | notConnected
  | other
  deriving DecidableEq, Repr

/-- `TransportResult<size_t>`: the number of bytes sent, or an error. -/
abbrev SendResult := Except TransportErrorCode Nat

/-- `send_async` over the answers of successive `transport_.send(data)` calls: the first
answer that is not WouldBlock, each WouldBlock followed by one `co_await Yield{}`;
`none` while every answer given is WouldBlock. -/
def sendAsync : List SendResult → Option SendResult
  | [] => none
  | .error .wouldBlock :: rest => sendAsync rest
  | r :: _ => some r

/-- What `send_raw_unlocked` updates after the send: the calls to
`heartbeat_timer_.message_sent()`, `stats_.messages_sent` and `stats_.bytes_sent`. -/
structure SendStats where
  messageSentCalls : Nat
  messagesSent : Nat
  bytesSent : Nat
  deriving DecidableEq, Repr

/-- The body of `if (result.has_value())` in `send_raw_unlocked`. -/
def SendStats.noteSent (st : SendStats) (msg : List Char) : SendStats :=
  ⟨st.messageSentCalls + 1, st.messagesSent + 1, st.bytesSent + msg.length⟩

/-- `send_raw_unlocked` after its store write (modelled in `SessionSend`): the result of
`send_async`, and the counters. -/
def sendRawUnlocked (st : SendStats) (msg : List Char) (answers : List SendResult) :
    Option (SendResult × SendStats) :=
  (sendAsync answers).map fun r =>
    match r with
    | .ok _ => (r, st.noteSent msg)
    | .error _ => (r, st)

/-! ## `WinsockSocket::send` -/

/-- What `::send` returned on the socket: a count, or `SOCKET_ERROR` with a would-block
error, or with another error as `make_socket_error` reports it. -/
inductive OsSend
  | sent (n : Nat)
  | wouldBlock
  | failed (code : TransportErrorCode)
  deriving DecidableEq, Repr

/-- `WinsockSocket::send`, with `connected` for `is_connected()`: a failed send moves the
socket to `ConnectionState::Error`, after which it is no longer connected. -/
def winsockSend (connected : Bool) (os : OsSend) : SendResult × Bool :=
  if !connected then (.error .connectionClosed, connected)
  else match os with
    | .wouldBlock => (.ok 0, connected)
    | .failed code => (.error code, false)
    | .sent n => (.ok n, connected)

/-- The answers `WinsockTransport::send` gives to successive calls. -/
def winsockAnswers (connected : Bool) : List OsSend → List SendResult
  | [] => []
  | os :: rest => (winsockSend connected os).1 :: winsockAnswers (winsockSend connected os).2 rest

/-! ## Every behaviour of the transport -/

theorem sendAsync_wouldBlocks (k : Nat) (rest : List SendResult) :
    sendAsync (List.replicate k (.error .wouldBlock) ++ rest) = sendAsync rest := by
  induction k with
  | zero => rfl
  | succ k ih => exact ih

theorem sendAsync_ok (c : Nat) (rest : List SendResult) : sendAsync (.ok c :: rest) = some (.ok c) :=
  rfl

theorem sendAsync_error {e : TransportErrorCode} (he : e ≠ .wouldBlock) (rest : List SendResult) :
    sendAsync (.error e :: rest) = some (.error e) := by
  cases e <;> first | exact absurd rfl he | rfl

/-- After any number of WouldBlock retries, any success counts the message as sent, whatever
the number of bytes the transport took, 0 and short counts included, and an error counts
nothing. WinsockSocket answers a would-block with a success of 0 bytes, so that send is
counted without a retry. -/
theorem send_counts_any_success :
    (∀ (st : SendStats) (msg : List Char) (k c : Nat) (rest : List SendResult),
      sendRawUnlocked st msg (List.replicate k (.error .wouldBlock) ++ .ok c :: rest) =
        some (.ok c, st.noteSent msg)) ∧
    (∀ (st : SendStats) (msg : List Char) (k : Nat) (e : TransportErrorCode)
      (rest : List SendResult), e ≠ .wouldBlock →
      sendRawUnlocked st msg (List.replicate k (.error .wouldBlock) ++ .error e :: rest) =
        some (.error e, st)) ∧
    (∀ (st : SendStats) (msg : List Char) (rest : List OsSend),
      sendRawUnlocked st msg (winsockAnswers true (.wouldBlock :: rest)) =
        some (.ok 0, st.noteSent msg)) := by
  refine ⟨fun st msg k c rest => ?_, fun st msg k e rest he => ?_, fun st msg rest => rfl⟩
  · simp only [sendRawUnlocked, sendAsync_wouldBlocks, sendAsync_ok, Option.map_some']
  · simp only [sendRawUnlocked, sendAsync_wouldBlocks, sendAsync_error he, Option.map_some']

/-- A ten-byte message: one WouldBlock, then the transport takes 3 bytes. -/
def tenBytes : List Char := "8=FIX.4.4\x01".toList

/-- The short write is reported as a success and counted as a whole message of ten bytes. -/
theorem short_write_counted :
    sendRawUnlocked ⟨0, 0, 0⟩ tenBytes [.error .wouldBlock, .ok 3] = some (.ok 3, ⟨1, 1, 10⟩) ∧
    3 < tenBytes.length :=
  ⟨rfl, by decide⟩

/-- A Timeout after two WouldBlocks: reported, nothing counted. -/
theorem timeout_not_counted :
    sendRawUnlocked ⟨0, 0, 0⟩ tenBytes [.error .wouldBlock, .error .wouldBlock, .error .timeout] =
      some (.error .timeout, ⟨0, 0, 0⟩) :=
  (send_counts_any_success).2.1 ⟨0, 0, 0⟩ tenBytes 2 .timeout [] (by decide)

end TransportSend
