import Mathlib.Logic.Function.Basic

/-! # Session states, events and sequence numbers

What `session/coroutine_session.hpp` takes from `state.hpp` and `sequence.hpp`, which are not
among the sources. `next_state` is known only on the rows of the spec's table, which calls
every other pair invalid: off the table it is the parameter `unlisted`, and nothing here
assumes anything of it. `SequenceManager` follows the spec's account of `next_outbound`,
`validate_inbound` and `gap_range` over the session's `uint32_t` numbers, which stay below
2^32 = 4294967296 and wrap. -/
namespace SessionMachine

inductive SessionState
  | disconnected
  | socketConnected
  | logonSent
  | active
  | logoutPending
  | logoutReceived
  | error
  deriving DecidableEq, Repr

inductive SessionEvent
  | connect
  | logonSent
  | logonReceived
  | logonRejected
  | heartbeatTimeout
  | logoutSent
  | logoutReceived
  | disconnect
  | error
  deriving DecidableEq, Repr

/-- Modelled from the spec: the rows of `next_state`'s table. -/
@[simp] def table : SessionState → SessionEvent → Option SessionState
  | _, .error => some .error
  | .disconnected, .connect => some .socketConnected
  | .socketConnected, .logonSent => some .logonSent
  | .logonSent, .logonReceived => some .active
  | .logonSent, .logonRejected => some .disconnected
  | .logonSent, .heartbeatTimeout => some .error
  | .active, .logoutSent => some .logoutPending
  | .active, .logoutReceived => some .logoutReceived
  | .active, .heartbeatTimeout => some .error
  | .active, .disconnect => some .disconnected
  | .logoutPending, .logoutReceived => some .logoutReceived
  | .logoutReceived, .disconnect => some .disconnected
  | _, _ => none

section
variable (unlisted : SessionState → SessionEvent → SessionState)

/-- `next_state`: the table's row, and for a pair the table does not list, `unlisted`. -/
@[simp] def nextState (s : SessionState) (e : SessionEvent) : SessionState :=
  (table s e).getD (unlisted s e)

/-- The session's `transition`: the new state, and the `on_state_change(prev, next)` call when
it differs. -/
def transition (state : SessionState) (event : SessionEvent) :
    SessionState × Option (SessionState × SessionState) :=
  let next := nextState unlisted state event
  if next ≠ state then (next, some (state, next)) else (state, none)

theorem transition_fst (state : SessionState) (event : SessionEvent) :
    (transition unlisted state event).1 = nextState unlisted state event := by
  simp only [transition]; split <;> simp_all

end

/-- A completion of the table for concrete runs: a pair off the table keeps the state. -/
def keepState : SessionState → SessionEvent → SessionState := fun s _ => s

/-- The errors the session reports, `SessionErrorCode`. -/
inductive SessionErrorCode
  | notConnected
  | invalidState
  | logonTimeout
  | logoutTimeout
  | heartbeatTimeout
  | sequenceGap
  | disconnected
  deriving DecidableEq, Repr

/-- Message type, `msg_type`: the value of tag 35. -/
abbrev MsgType := Char

namespace MsgType

def logon : MsgType := 'A'
def heartbeat : MsgType := '0'
def testRequest : MsgType := '1'
def resendRequest : MsgType := '2'
def reject : MsgType := '3'
def sequenceReset : MsgType := '4'
def logout : MsgType := '5'

/-- Modelled from the spec: the administrative types are the seven it lists. -/
def isAdmin (t : MsgType) : Bool :=
  t = logon ∨ t = heartbeat ∨ t = testRequest ∨ t = resendRequest ∨ t = reject ∨
    t = sequenceReset ∨ t = logout

end MsgType

/-- Modelled from the spec: the counter `next_outbound` hands out and the expected inbound
number, `uint32_t`s starting at 1. -/
structure SequenceManager where
  outbound : Nat := 1
  inbound : Nat := 1
  outbound_lt : outbound < 4294967296 := by decide
  inbound_lt : inbound < 4294967296 := by decide
  deriving DecidableEq, Repr

inductive SequenceResult
  | expected
  | tooLow
  | gapDetected
  deriving DecidableEq, Repr

namespace SequenceManager

def advanceOutbound (m : SequenceManager) : SequenceManager :=
  { m with outbound := (m.outbound + 1) % 4294967296, outbound_lt := Nat.mod_lt _ (by decide) }

def advanceInbound (m : SequenceManager) : SequenceManager :=
  { m with inbound := (m.inbound + 1) % 4294967296, inbound_lt := Nat.mod_lt _ (by decide) }

/-- Modelled from the spec: `next_outbound()` returns the counter, then increments it. -/
def nextOutbound (m : SequenceManager) : Nat × SequenceManager := (m.outbound, m.advanceOutbound)

/-- Modelled from the spec: the number the next `next_outbound()` will return. -/
def currentOutbound (m : SequenceManager) : Nat := m.outbound

def expectedInbound (m : SequenceManager) : Nat := m.inbound

/-- Modelled from the spec: only an in-order number advances the expected one. -/
def validateInbound (m : SequenceManager) (received : Nat) : SequenceResult × SequenceManager :=
  if received = m.inbound then (.expected, m.advanceInbound)
  else if received < m.inbound then (.tooLow, m)
  else (.gapDetected, m)

/-- Modelled from the spec: the numbers a gap leaves out, `received - 1` in `uint32_t`. -/
def gapRange (m : SequenceManager) (received : Nat) : Nat × Nat :=
  (m.inbound, (received + 4294967295) % 4294967296)

/-- `set_inbound(uint32_t seq)`. -/
def setInbound (m : SequenceManager) (seq : Nat) : SequenceManager :=
  { m with inbound := seq % 4294967296, inbound_lt := Nat.mod_lt _ (by decide) }

@[simp] theorem advanceOutbound_outbound (m : SequenceManager) :
    m.advanceOutbound.outbound = (m.outbound + 1) % 4294967296 := rfl

@[simp] theorem advanceOutbound_inbound (m : SequenceManager) :
    m.advanceOutbound.inbound = m.inbound := rfl

@[simp] theorem advanceInbound_inbound (m : SequenceManager) :
    m.advanceInbound.inbound = (m.inbound + 1) % 4294967296 := rfl

@[simp] theorem advanceInbound_outbound (m : SequenceManager) :
    m.advanceInbound.outbound = m.outbound := rfl

@[simp] theorem setInbound_inbound (m : SequenceManager) (seq : Nat) :
    (m.setInbound seq).inbound = seq % 4294967296 := rfl

@[simp] theorem setInbound_outbound (m : SequenceManager) (seq : Nat) :
    (m.setInbound seq).outbound = m.outbound := rfl

@[simp] theorem nextOutbound_fst (m : SequenceManager) : m.nextOutbound.1 = m.outbound := rfl

@[simp] theorem nextOutbound_snd (m : SequenceManager) : m.nextOutbound.2 = m.advanceOutbound := rfl

theorem validateInbound_expected {m : SequenceManager} {received : Nat} (h : received = m.inbound) :
    m.validateInbound received = (.expected, m.advanceInbound) := by
  simp [validateInbound, h]

theorem validateInbound_tooLow {m : SequenceManager} {received : Nat} (h : received < m.inbound) :
    m.validateInbound received = (.tooLow, m) := by
  simp [validateInbound, Nat.ne_of_lt h, h]

theorem validateInbound_gap {m : SequenceManager} {received : Nat} (h : m.inbound < received) :
    m.validateInbound received = (.gapDetected, m) := by
  simp [validateInbound, Nat.ne_of_gt h, Nat.not_lt.mpr (Nat.le_of_lt h)]

end SequenceManager

end SessionMachine
