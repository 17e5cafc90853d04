import NexusFix.TransportSend
import Mathlib.Data.List.Nodup

/-! # WinsockSocket and WinsockAcceptor: who owns each descriptor

The objects of `transport/winsock_transport.hpp` over any sequence of calls: construction,
`create`, `connect`, `close`, `send`, `receive`, move construction, move assignment and
destruction of sockets; construction, `listen`, `accept`, `close` and destruction of acceptors.
`WinsockTransport` forwards each of its calls to its `socket_`. The system names the `n`-th
descriptor `::socket` or `::accept` returned `n`, and keeps as ghost state what became of those
no object holds: closed, overwritten in `fd_` while held, or returned by `accept()`. What the
system answers each call is the environment's. -/
namespace WinsockTransport

open TransportSend

/-- Modelled from the code's uses: `ConnectionState` of `transport/socket.hpp`, not among the
sources. -/
inductive ConnectionState
  | disconnected
  | connecting
  | connected
  | disconnecting
  | error
  deriving DecidableEq, Repr

/-- The system's side of the descriptors: how many `::socket` and `::accept` have returned,
and, as ghost logs, those passed to `close_socket`, those an `fd_` was overwritten while
holding, and those `accept()` returned to its caller. -/
structure System where
  opened : Nat
  closed : List Nat
  dropped : List Nat
  handedOut : List Nat
  deriving DecidableEq, Repr

namespace System

/-- `::socket(AF_INET, SOCK_STREAM, IPPROTO_TCP)` or `::accept(...)`: a fresh descriptor, or
`INVALID_SOCKET`. -/
def socket (sys : System) (ok : Bool) : Option Nat × System :=
  if ok then (some sys.opened, { sys with opened := sys.opened + 1 }) else (none, sys)

def close (sys : System) (d : Nat) : System := { sys with closed := sys.closed ++ [d] }

def drop (sys : System) (fd : Option Nat) : System := { sys with dropped := sys.dropped ++ fd.toList }

def released (sys : System) : List Nat := sys.closed ++ sys.dropped ++ sys.handedOut

theorem released_close (sys : System) (d : Nat) : (sys.close d).released.Perm (d :: sys.released) := by
  simpa only [released, close, List.append_assoc, List.singleton_append] using List.perm_middle

theorem released_drop (sys : System) (d : Nat) :
    (sys.drop (some d)).released.Perm (d :: sys.released) := by
  simpa only [released, drop, Option.toList_some, List.append_assoc, List.singleton_append]
    using (List.perm_middle.append_left sys.closed).trans List.perm_middle

@[simp] theorem drop_none (sys : System) : sys.drop none = sys := by
  simp [drop]

@[simp] theorem drop_dropped (sys : System) (fd : Option Nat) :
    (sys.drop fd).dropped = sys.dropped ++ fd.toList := rfl

@[simp] theorem socket_dropped (sys : System) (ok : Bool) : (sys.socket ok).2.dropped = sys.dropped := by
  cases ok <;> rfl

@[simp] theorem close_dropped (sys : System) (d : Nat) : (sys.close d).dropped = sys.dropped := rfl

end System

/-- What `::recv` returned: a count, 0 when the peer closed, or `SOCKET_ERROR` with a
would-block error or another error as `make_socket_error` maps it. -/
inductive OsRecv
  | received (n : Nat)
  | wouldBlock
  | failed (code : TransportErrorCode)
  deriving DecidableEq, Repr

/-- `WinsockSocket`: `fd_`, `none` for `INVALID_SOCKET_HANDLE`, and `state_`. -/
structure WinsockSocket where
  fd : Option Nat
  state : ConnectionState
  deriving DecidableEq, Repr

namespace WinsockSocket

def empty : WinsockSocket := ⟨none, .disconnected⟩

def isConnected (x : WinsockSocket) : Bool := x.state == .connected && x.fd.isSome

/-- `create()`: `WinsockInit::ensure()`, then `fd_ = ::socket(...)`; whether it succeeded. -/
def create (x : WinsockSocket) (sys : System) (initOk socketOk : Bool) :
    Bool × WinsockSocket × System :=
  if !initOk then (false, x, sys)
  else
    let r := (sys.drop x.fd).socket socketOk
    (r.1.isSome, { x with fd := r.1 }, r.2)

/-- `connect(host, port)`, with what `ensure`, `::socket`, `getaddrinfo` and `::connect` answer;
`apply_options()` changes no modelled field. -/
def connect (x : WinsockSocket) (sys : System) (initOk socketOk gaiOk connectOk : Bool) :
    Bool × WinsockSocket × System :=
  let c := if x.fd.isNone then x.create sys initOk socketOk else (true, x, sys)
  if !c.1 then c
  else
    let x := { c.2.1 with state := .connecting }
    if !gaiOk then (false, { x with state := .error }, c.2.2)
    else if !connectOk then (false, { x with state := .error }, c.2.2)
    else (true, { x with state := .connected }, c.2.2)

/-- `close()`: through `Disconnecting`, `shutdown` and `close_socket`, to an invalid handle in
`Disconnected`. -/
def close (x : WinsockSocket) (sys : System) : WinsockSocket × System :=
  match x.fd with
  | some d => (⟨none, .disconnected⟩, sys.close d)
  | none => (x, sys)

def send (x : WinsockSocket) (os : OsSend) : SendResult × WinsockSocket :=
  if !x.isConnected then (.error .connectionClosed, x)
  else match os with
    | .wouldBlock => (.ok 0, x)
    | .failed code => (.error code, { x with state := .error })
    | .sent n => (.ok n, x)

def receive (x : WinsockSocket) (os : OsRecv) : SendResult × WinsockSocket :=
  if !x.isConnected then (.error .connectionClosed, x)
  else match os with
    | .wouldBlock => (.ok 0, x)
    | .failed code => (.error code, { x with state := .error })
    | .received 0 => (.error .connectionClosed, { x with state := .disconnected })
    | .received (n + 1) => (.ok (n + 1), x)

def sendAll (x : WinsockSocket) : List OsSend → List SendResult
  | [] => []
  | os :: rest => (x.send os).1 :: (x.send os).2.sendAll rest

theorem send_refines (x : WinsockSocket) (os : OsSend) :
    (x.send os).1 = (winsockSend x.isConnected os).1 ∧
      (x.send os).2.isConnected = (winsockSend x.isConnected os).2 := by
  unfold send winsockSend
  cases hc : x.isConnected <;> cases os <;> simp_all [isConnected]

theorem sendAll_not_connected {x : WinsockSocket} (hx : x.isConnected = false) (oss : List OsSend) :
    x.sendAll oss = oss.map fun _ => .error .connectionClosed := by
  induction oss with
  | nil => rfl
  | cons os rest ih => simpa [sendAll, send, hx] using ih

/-- Successive `send` calls on one socket answer as `TransportSend.winsockAnswers` from its
`is_connected()`. Once `::send` fails with anything but a would-block error, the socket is in
`Error` and every later call answers `ConnectionClosed` without reaching `::send`. -/
theorem sendAll_refines_winsockAnswers (x : WinsockSocket) (oss : List OsSend) :
    x.sendAll oss = winsockAnswers x.isConnected oss ∧
    (x.isConnected = true → ∀ code rest,
      x.sendAll (.failed code :: rest) = .error code :: rest.map fun _ => .error .connectionClosed) := by
  refine ⟨?_, fun hx code rest => ?_⟩
  · induction oss generalizing x with
    | nil => rfl
    | cons os rest ih => rw [sendAll, winsockAnswers, ih, (send_refines x os).1, (send_refines x os).2]
  · simp only [sendAll, send, hx, Bool.not_true, Bool.false_eq_true, if_false]
    exact congrArg _ (sendAll_not_connected (by simp [isConnected]) rest)

end WinsockSocket

structure WinsockAcceptor where
  fd : Option Nat
  deriving DecidableEq, Repr

namespace WinsockAcceptor

def empty : WinsockAcceptor := ⟨none⟩

def close (x : WinsockAcceptor) (sys : System) : WinsockAcceptor × System :=
  match x.fd with
  | some d => (⟨none⟩, sys.close d)
  | none => (x, sys)

/-- `listen(port, backlog)`, with what `ensure`, `::socket`, `::bind` and `::listen` answer. -/
def listen (x : WinsockAcceptor) (sys : System) (initOk socketOk bindOk listenOk : Bool) :
    Bool × WinsockAcceptor × System :=
  if !initOk then (false, x, sys)
  else
    let r := (sys.drop x.fd).socket socketOk
    let x : WinsockAcceptor := ⟨r.1⟩
    if r.1.isNone then (false, x, r.2)
    else if !bindOk then (false, (x.close r.2).1, (x.close r.2).2)
    else if !listenOk then (false, (x.close r.2).1, (x.close r.2).2)
    else (true, x, r.2)

/-- `accept()`: the descriptor `::accept` returned, which passes to the caller. -/
def accept (x : WinsockAcceptor) (sys : System) (ok : Bool) : Option Nat × System :=
  match x.fd with
  | none => (none, sys)
  | some _ =>
    let r := sys.socket ok
    (r.1, { r.2 with handedOut := r.2.handedOut ++ r.1.toList })

end WinsockAcceptor

@[simp] theorem WinsockSocket.create_dropped (x : WinsockSocket) (sys : System)
    (initOk socketOk : Bool) :
    (x.create sys initOk socketOk).2.2.dropped =
      sys.dropped ++ (if initOk then x.fd.toList else []) := by
  cases initOk <;> cases socketOk <;> simp [WinsockSocket.create, System.socket, System.drop]

@[simp] theorem WinsockSocket.close_dropped (x : WinsockSocket) (sys : System) :
    (x.close sys).2.dropped = sys.dropped := by
  unfold WinsockSocket.close; split <;> rfl

@[simp] theorem WinsockSocket.close_closed (x : WinsockSocket) (sys : System) :
    (x.close sys).2.closed = sys.closed ++ x.fd.toList := by
  unfold WinsockSocket.close; split <;> simp_all [System.close]

theorem WinsockSocket.close_sys (x : WinsockSocket) (sys : System) :
    (x.close sys).2 = { sys with closed := sys.closed ++ x.fd.toList } := by
  unfold WinsockSocket.close; split <;> simp_all [System.close]

theorem WinsockSocket.connect_fd_sys (x : WinsockSocket) (sys : System)
    (initOk socketOk gaiOk connectOk : Bool) :
    let c := if x.fd.isNone then x.create sys initOk socketOk else (true, x, sys)
    (x.connect sys initOk socketOk gaiOk connectOk).2.1.fd = c.2.1.fd ∧
      (x.connect sys initOk socketOk gaiOk connectOk).2.2 = c.2.2 := by
  unfold WinsockSocket.connect
  generalize (if x.fd.isNone then x.create sys initOk socketOk else (true, x, sys)) = c
  obtain ⟨b, y, sys'⟩ := c
  cases b <;> cases gaiOk <;> cases connectOk <;> exact ⟨rfl, rfl⟩

/-- `connect()` calls `create()` only on an invalid handle, so it drops nothing. -/
@[simp] theorem WinsockSocket.connect_dropped (x : WinsockSocket) (sys : System)
    (initOk socketOk gaiOk connectOk : Bool) :
    (x.connect sys initOk socketOk gaiOk connectOk).2.2.dropped = sys.dropped := by
  rw [(x.connect_fd_sys sys initOk socketOk gaiOk connectOk).2]
  cases h : x.fd <;> simp [h]

@[simp] theorem WinsockAcceptor.close_dropped (x : WinsockAcceptor) (sys : System) :
    (x.close sys).2.dropped = sys.dropped := by
  unfold WinsockAcceptor.close; split <;> rfl

@[simp] theorem WinsockAcceptor.listen_dropped (x : WinsockAcceptor) (sys : System)
    (initOk socketOk bindOk listenOk : Bool) :
    (x.listen sys initOk socketOk bindOk listenOk).2.2.dropped =
      sys.dropped ++ (if initOk then x.fd.toList else []) := by
  cases initOk
  · simp [WinsockAcceptor.listen]
  · unfold WinsockAcceptor.listen
    simp only [Bool.not_true, Bool.false_eq_true, if_false, if_true]
    split <;> (repeat' split) <;> simp

@[simp] theorem WinsockAcceptor.accept_dropped (x : WinsockAcceptor) (sys : System) (ok : Bool) :
    (x.accept sys ok).2.dropped = sys.dropped := by
  unfold WinsockAcceptor.accept; split <;> (try cases ok) <;> rfl

/-- Each descriptor the system returned is held by one object, or is in exactly one of the
logs; none is logged twice. -/
structure Accounted {Z : Type} (held : Z → Option Nat) (sys : System) : Prop where
  unique : ∀ z z' d, held z = some d → held z' = some d → z = z'
  nodup : sys.released.Nodup
  fresh : ∀ z d, held z = some d → d < sys.opened ∧ d ∉ sys.released
  logged : ∀ d ∈ sys.released, d < sys.opened
  covered : ∀ d < sys.opened, (∃ z, held z = some d) ∨ d ∈ sys.released

namespace Accounted

variable {Z : Type} {held : Z → Option Nat} {sys sys' : System}

theorem handOut (ha : Accounted held sys) (ho : sys'.opened = sys.opened + 1)
    (hp : sys'.released.Perm (sys.opened :: sys.released)) : Accounted held sys' := by
  refine ⟨ha.unique, ?_, fun x e hx => ?_, fun e he => ?_, fun e he => ?_⟩
  · refine hp.nodup_iff.mpr (List.nodup_cons.mpr ⟨fun h => ?_, ha.nodup⟩)
    have := ha.logged _ h; omega
  · have := ha.fresh x e hx
    rw [ho, hp.mem_iff, List.mem_cons, not_or]
    exact ⟨by omega, by omega, this.2⟩
  · rw [hp.mem_iff, List.mem_cons] at he
    rw [ho]
    rcases he with rfl | he
    · omega
    · have := ha.logged e he; omega
  · rw [hp.mem_iff, List.mem_cons]
    rcases Nat.lt_succ_iff_lt_or_eq.mp (ho ▸ he) with he | rfl
    · exact (ha.covered e he).imp id .inr
    · exact .inr (.inl rfl)

theorem comp_equiv (ha : Accounted held sys) (e : Z ≃ Z) : Accounted (held ∘ e) sys :=
  ⟨fun _ _ d hz hz' => e.injective (ha.unique _ _ d hz hz'), ha.nodup,
    fun z d hz => ha.fresh (e z) d hz, ha.logged,
    fun d hd => (ha.covered d hd).imp (fun ⟨z, hz⟩ => ⟨e.symm z, by simpa using hz⟩) id⟩

variable [DecidableEq Z]

theorem release (ha : Accounted held sys) {z : Z} {d : Nat} (hz : held z = some d)
    (ho : sys'.opened = sys.opened) (hp : sys'.released.Perm (d :: sys.released)) :
    Accounted (Function.update held z none) sys' := by
  have hd := ha.fresh z d hz
  refine ⟨fun x y e hx hy => ?_, ?_, fun x e hx => ?_, fun e he => ?_, fun e he => ?_⟩
  · rw [Function.update_apply] at hx hy
    split at hx
    · cases hx
    split at hy
    · cases hy
    exact ha.unique x y e hx hy
  · exact hp.nodup_iff.mpr (List.nodup_cons.mpr ⟨hd.2, ha.nodup⟩)
  · rw [Function.update_apply] at hx
    split at hx
    · cases hx
    · next hxz =>
      have hne : e ≠ d := fun h => hxz (ha.unique x z e hx (h ▸ hz))
      rw [ho, hp.mem_iff, List.mem_cons, not_or]
      exact ⟨(ha.fresh x e hx).1, hne, (ha.fresh x e hx).2⟩
  · rw [hp.mem_iff, List.mem_cons] at he
    rw [ho]
    rcases he with rfl | he
    · exact hd.1
    · exact ha.logged e he
  · rw [hp.mem_iff, List.mem_cons]
    rcases ha.covered e (ho ▸ he) with ⟨x, hx⟩ | hl
    · by_cases hxz : x = z
      · subst hxz
        rw [hz] at hx
        exact .inr (.inl (Option.some_inj.mp hx).symm)
      · exact .inl ⟨x, by rw [Function.update_noteq hxz]; exact hx⟩
    · exact .inr (.inr hl)

theorem alloc (ha : Accounted held sys) {z : Z} (hz : held z = none) :
    Accounted (Function.update held z (some sys.opened)) { sys with opened := sys.opened + 1 } := by
  have hnew : ∀ x, held x ≠ some sys.opened := fun x hx => by
    have := (ha.fresh x _ hx).1; omega
  refine ⟨fun x y e hx hy => ?_, ha.nodup, fun x e hx => ?_, fun e he => ?_, fun e he => ?_⟩ <;>
    dsimp only at *
  · rw [Function.update_apply] at hx hy
    split at hx <;> split at hy
    · next hxz hyz => rw [hxz, hyz]
    · next hxz _ => cases hx; exact absurd hy (hnew y)
    · next _ hyz => cases hy; exact absurd hx (hnew x)
    · exact ha.unique x y e hx hy
  · rw [Function.update_apply] at hx
    split at hx
    · cases hx
      exact ⟨by omega, fun h => by have := ha.logged _ h; omega⟩
    · exact ⟨by have := (ha.fresh x e hx).1; omega, (ha.fresh x e hx).2⟩
  · have := ha.logged e he; omega
  · rcases Nat.lt_succ_iff_lt_or_eq.mp he with he | rfl
    · rcases ha.covered e he with ⟨x, hx⟩ | hl
      · by_cases hxz : x = z
        · subst hxz; rw [hz] at hx; cases hx
        · exact .inl ⟨x, by rw [Function.update_noteq hxz]; exact hx⟩
      · exact .inr hl
    · exact .inl ⟨z, by simp⟩

theorem transfer (ha : Accounted held sys) {dst src : Z} (hdst : held dst = none)
    (hne : dst ≠ src) :
    Accounted (Function.update (Function.update held dst (held src)) src none) sys := by
  have hswap : Function.update (Function.update held dst (held src)) src none =
      held ∘ Equiv.swap dst src := funext fun x => by
    by_cases hs : x = src
    · subst hs; simp [hdst]
    · by_cases hd : x = dst
      · subst hd; simp [hne]
      · simp [Function.update_apply, hs, hd, Equiv.swap_apply_of_ne_of_ne hd hs]
  exact hswap ▸ ha.comp_equiv (Equiv.swap dst src)

theorem update_self_of_eq {z : Z} {v : Option Nat} (hz : held z = v) :
    Function.update held z v = held :=
  hz ▸ Function.update_eq_self z held

theorem reopen (ha : Accounted held sys) {z : Z} {fd : Option Nat} (hz : held z = fd) (ok : Bool) :
    Accounted (Function.update held z ((sys.drop fd).socket ok).1) ((sys.drop fd).socket ok).2 := by
  have hdrop : Accounted (Function.update held z none) (sys.drop fd) := by
    cases fd with
    | none => rwa [System.drop_none, update_self_of_eq hz]
    | some d => exact ha.release hz rfl (sys.released_drop d)
  cases ok with
  | false => exact hdrop
  | true =>
    have h := hdrop.alloc (Function.update_same z none held)
    rwa [Function.update_idem] at h

end Accounted

section Calls

variable {Z : Type} {held : Z → Option Nat} {sys : System} {z : Z}

theorem WinsockAcceptor.accept_accounted (ha : Accounted held sys) (x : WinsockAcceptor) (ok : Bool) :
    Accounted held (x.accept sys ok).2 := by
  unfold WinsockAcceptor.accept
  split
  · exact ha
  cases ok
  · simpa [System.socket] using ha
  · refine ha.handOut rfl ?_
    simpa only [System.socket, System.released, Option.toList_some, List.append_assoc]
      using List.perm_append_singleton sys.opened sys.released

variable [DecidableEq Z]

open Accounted (update_self_of_eq)

namespace WinsockSocket

variable {x : WinsockSocket}

@[simp] theorem close_fd (x : WinsockSocket) (sys : System) : (x.close sys).1.fd = none := by
  unfold close; split <;> simp_all

@[simp] theorem send_fd (x : WinsockSocket) (os : OsSend) : (x.send os).2.fd = x.fd := by
  unfold send; split <;> (try split) <;> rfl

@[simp] theorem receive_fd (x : WinsockSocket) (os : OsRecv) : (x.receive os).2.fd = x.fd := by
  unfold receive; split <;> (try split) <;> rfl

theorem close_accounted (ha : Accounted held sys) (hz : held z = x.fd) :
    Accounted (Function.update held z (x.close sys).1.fd) (x.close sys).2 := by
  unfold close
  split
  · next d hd => exact ha.release (hz.trans hd) rfl (sys.released_close d)
  · next hd => rwa [update_self_of_eq hz]

theorem create_accounted (ha : Accounted held sys) (hz : held z = x.fd) (initOk socketOk : Bool) :
    Accounted (Function.update held z (x.create sys initOk socketOk).2.1.fd)
      (x.create sys initOk socketOk).2.2 := by
  cases initOk
  · rwa [show (x.create sys false socketOk) = (false, x, sys) from rfl,
      update_self_of_eq hz]
  · exact ha.reopen hz socketOk

theorem connect_accounted (ha : Accounted held sys) (hz : held z = x.fd)
    (initOk socketOk gaiOk connectOk : Bool) :
    Accounted (Function.update held z (x.connect sys initOk socketOk gaiOk connectOk).2.1.fd)
      (x.connect sys initOk socketOk gaiOk connectOk).2.2 := by
  obtain ⟨hfd, hsys⟩ := x.connect_fd_sys sys initOk socketOk gaiOk connectOk
  rw [hfd, hsys]
  split
  · exact create_accounted ha hz initOk socketOk
  · rwa [update_self_of_eq hz]

end WinsockSocket

namespace WinsockAcceptor

variable {x : WinsockAcceptor}

@[simp] theorem close_fd (x : WinsockAcceptor) (sys : System) : (x.close sys).1.fd = none := by
  unfold close; split <;> simp_all

theorem close_accounted (ha : Accounted held sys) (hz : held z = x.fd) :
    Accounted (Function.update held z (x.close sys).1.fd) (x.close sys).2 := by
  unfold close
  split
  · next d hd => exact ha.release (hz.trans hd) rfl (sys.released_close d)
  · next hd => rwa [update_self_of_eq hz]

theorem listen_accounted (ha : Accounted held sys) (hz : held z = x.fd)
    (initOk socketOk bindOk listenOk : Bool) :
    Accounted (Function.update held z (x.listen sys initOk socketOk bindOk listenOk).2.1.fd)
      (x.listen sys initOk socketOk bindOk listenOk).2.2 := by
  cases initOk
  · rwa [show (x.listen sys false socketOk bindOk listenOk) = (false, x, sys) from rfl,
      update_self_of_eq hz]
  have hr := ha.reopen hz socketOk
  have hclose := close_accounted (x := ⟨_⟩) hr (Function.update_same _ _ _)
  rw [Function.update_idem] at hclose
  unfold listen
  simp only [Bool.not_true, Bool.false_eq_true, if_false]
  split <;> (repeat' split) <;> first | exact hr | exact hclose

end WinsockAcceptor

end Calls

/-- Socket objects `H` and acceptor objects `A`, which of them are alive, and the system. -/
structure State (H A : Type) where
  alive : H → Bool
  sockets : H → WinsockSocket
  acceptorAlive : A → Bool
  acceptors : A → WinsockAcceptor
  sys : System

/-- A call on one object, with what the system answers it. -/
inductive Op (H A : Type)
  | construct (h : H)
  | create (h : H) (initOk socketOk : Bool)
  | connect (h : H) (initOk socketOk gaiOk connectOk : Bool)
  | close (h : H)
  | send (h : H) (os : OsSend)
  | receive (h : H) (os : OsRecv)
  | moveConstruct (dst src : H)
  | moveAssign (dst src : H)
  | destroy (h : H)
  | constructAcceptor (a : A)
  | listen (a : A) (initOk socketOk bindOk listenOk : Bool)
  | accept (a : A) (ok : Bool)
  | closeAcceptor (a : A)
  | destroyAcceptor (a : A)

variable {H A : Type}

def initial : State H A :=
  ⟨fun _ => false, fun _ => .empty, fun _ => false, fun _ => .empty, ⟨0, [], [], []⟩⟩

def State.held (s : State H A) : H ⊕ A → Option Nat
  | .inl h => (s.sockets h).fd
  | .inr a => (s.acceptors a).fd

section Step

variable [DecidableEq H] [DecidableEq A]

def State.setSocket (s : State H A) (h : H) (x : WinsockSocket) (sys : System) : State H A :=
  { s with sockets := Function.update s.sockets h x, sys := sys }

def State.setAcceptor (s : State H A) (a : A) (x : WinsockAcceptor) (sys : System) : State H A :=
  { s with acceptors := Function.update s.acceptors a x, sys := sys }

/-- One call. A call on an object that is not alive, or a constructor on one that is, is not
made. -/
def step (s : State H A) : Op H A → State H A
  | .construct h =>
    if s.alive h then s
    else { s.setSocket h .empty s.sys with alive := Function.update s.alive h true }
  | .create h initOk socketOk =>
    if s.alive h then
      let r := (s.sockets h).create s.sys initOk socketOk
      s.setSocket h r.2.1 r.2.2
    else s
  | .connect h initOk socketOk gaiOk connectOk =>
    if s.alive h then
      let r := (s.sockets h).connect s.sys initOk socketOk gaiOk connectOk
      s.setSocket h r.2.1 r.2.2
    else s
  | .close h =>
    if s.alive h then
      let r := (s.sockets h).close s.sys
      s.setSocket h r.1 r.2
    else s
  | .send h os => if s.alive h then s.setSocket h ((s.sockets h).send os).2 s.sys else s
  | .receive h os => if s.alive h then s.setSocket h ((s.sockets h).receive os).2 s.sys else s
  | .moveConstruct dst src =>
    if s.alive dst ∨ s.alive src = false then s
    else { (s.setSocket dst (s.sockets src) s.sys).setSocket src .empty s.sys with
      alive := Function.update s.alive dst true }
  | .moveAssign dst src =>
    if s.alive dst = false ∨ s.alive src = false ∨ dst = src then s
    else
      let r := (s.sockets dst).close s.sys
      (s.setSocket dst (s.sockets src) r.2).setSocket src .empty r.2
  | .destroy h =>
    if s.alive h then
      let r := (s.sockets h).close s.sys
      { s.setSocket h r.1 r.2 with alive := Function.update s.alive h false }
    else s
  | .constructAcceptor a =>
    if s.acceptorAlive a then s
    else { s.setAcceptor a .empty s.sys with
      acceptorAlive := Function.update s.acceptorAlive a true }
  | .listen a initOk socketOk bindOk listenOk =>
    if s.acceptorAlive a then
      let r := (s.acceptors a).listen s.sys initOk socketOk bindOk listenOk
      s.setAcceptor a r.2.1 r.2.2
    else s
  | .accept a ok =>
    if s.acceptorAlive a then { s with sys := ((s.acceptors a).accept s.sys ok).2 } else s
  | .closeAcceptor a =>
    if s.acceptorAlive a then
      let r := (s.acceptors a).close s.sys
      s.setAcceptor a r.1 r.2
    else s
  | .destroyAcceptor a =>
    if s.acceptorAlive a then
      let r := (s.acceptors a).close s.sys
      { s.setAcceptor a r.1 r.2 with acceptorAlive := Function.update s.acceptorAlive a false }
    else s

inductive Reachable : State H A → Prop
  | init : Reachable initial
  | next {s : State H A} (op : Op H A) : Reachable s → Reachable (step s op)

def run (s : State H A) (ops : List (Op H A)) : State H A := ops.foldl step s

theorem Reachable.run {s : State H A} (hs : Reachable s) (ops : List (Op H A)) :
    Reachable (run s ops) := by
  induction ops generalizing s with
  | nil => exact hs
  | cons op ops ih => exact ih (hs.next op)

omit [DecidableEq A] in
@[simp] theorem setSocket_sys (s : State H A) (h : H) (x : WinsockSocket) (sys : System) :
    (s.setSocket h x sys).sys = sys := rfl

omit [DecidableEq H] in
@[simp] theorem setAcceptor_sys (s : State H A) (a : A) (x : WinsockAcceptor) (sys : System) :
    (s.setAcceptor a x sys).sys = sys := rfl

theorem held_setSocket (s : State H A) (h : H) (x : WinsockSocket) (sys : System) :
    (s.setSocket h x sys).held = Function.update s.held (.inl h) x.fd := by
  funext z
  cases z with
  | inl h' => by_cases e : h' = h <;> simp [State.held, State.setSocket, Function.update_apply, e]
  | inr a => simp [State.held, State.setSocket]

theorem held_setAcceptor (s : State H A) (a : A) (x : WinsockAcceptor) (sys : System) :
    (s.setAcceptor a x sys).held = Function.update s.held (.inr a) x.fd := by
  funext z
  cases z with
  | inl h => simp [State.held, State.setAcceptor]
  | inr a' => by_cases e : a' = a <;> simp [State.held, State.setAcceptor, Function.update_apply, e]

end Step

/-- What every reachable state keeps: the accounting, and nothing held by an object that is not
alive. -/
structure Inv (s : State H A) : Prop where
  accounted : Accounted s.held s.sys
  dead : ∀ h, s.alive h = false → (s.sockets h).fd = none
  deadAcceptor : ∀ a, s.acceptorAlive a = false → (s.acceptors a).fd = none

@[simp] theorem held_initial (z : H ⊕ A) : (initial : State H A).held z = none := by
  cases z <;> rfl

theorem inv_initial : Inv (initial : State H A) where
  accounted := by
    refine ⟨fun z _ _ hz _ => ?_, List.nodup_nil, fun z _ hz => ?_, (fun _ h => nomatch h),
      fun _ h => absurd h (Nat.not_lt_zero _)⟩ <;> simp at hz
  dead _ _ := rfl
  deadAcceptor _ _ := rfl

section Run

variable [DecidableEq H] [DecidableEq A] {s : State H A}

namespace Inv

theorem setSocket (hs : Inv s) {h : H} (hh : s.alive h = true) {x : WinsockSocket} {sys : System}
    (ha : Accounted (Function.update s.held (.inl h) x.fd) sys) : Inv (s.setSocket h x sys) where
  accounted := by rw [held_setSocket]; exact ha
  dead h' hd := by
    change s.alive h' = false at hd
    have hne : h' ≠ h := fun e => by rw [e, hh] at hd; cases hd
    simpa [State.setSocket, Function.update_noteq hne] using hs.dead h' hd
  deadAcceptor := hs.deadAcceptor

theorem setAcceptor (hs : Inv s) {a : A} (ha' : s.acceptorAlive a = true) {x : WinsockAcceptor}
    {sys : System} (ha : Accounted (Function.update s.held (.inr a) x.fd) sys) :
    Inv (s.setAcceptor a x sys) where
  accounted := by rw [held_setAcceptor]; exact ha
  dead := hs.dead
  deadAcceptor a' hd := by
    change s.acceptorAlive a' = false at hd
    have hne : a' ≠ a := fun e => by rw [e, ha'] at hd; cases hd
    simpa [State.setAcceptor, Function.update_noteq hne] using hs.deadAcceptor a' hd

theorem setState (hs : Inv s) {h : H} (hh : s.alive h = true) {x : WinsockSocket}
    (hx : x.fd = (s.sockets h).fd) : Inv (s.setSocket h x s.sys) := by
  refine hs.setSocket hh ?_
  rw [hx, show (s.sockets h).fd = s.held (.inl h) from rfl, Function.update_eq_self]
  exact hs.accounted

theorem construct (hs : Inv s) {h : H} (hh : s.alive h = false) :
    Inv { s.setSocket h .empty s.sys with alive := Function.update s.alive h true } where
  accounted := by
    show Accounted (s.setSocket h .empty s.sys).held s.sys
    rw [held_setSocket, show WinsockSocket.empty.fd = s.held (.inl h) from (hs.dead h hh).symm,
      Function.update_eq_self]
    exact hs.accounted
  dead h' hd := by
    have hne : h' ≠ h := fun e => by rw [e] at hd; simp at hd
    simp only [Function.update_noteq hne] at hd
    simpa [State.setSocket, Function.update_noteq hne] using hs.dead h' hd
  deadAcceptor := hs.deadAcceptor

theorem destroy (hs : Inv s) {h : H} (hh : s.alive h = true) :
    Inv { s.setSocket h ((s.sockets h).close s.sys).1 ((s.sockets h).close s.sys).2 with
      alive := Function.update s.alive h false } where
  accounted := by
    show Accounted (s.setSocket h ((s.sockets h).close s.sys).1 ((s.sockets h).close s.sys).2).held
      ((s.sockets h).close s.sys).2
    rw [held_setSocket]
    exact WinsockSocket.close_accounted hs.accounted rfl
  dead h' hd := by
    by_cases hne : h' = h
    · subst hne; simp [State.setSocket]
    · simp only [Function.update_noteq hne] at hd
      simpa [State.setSocket, Function.update_noteq hne] using hs.dead h' hd
  deadAcceptor := hs.deadAcceptor

theorem moveConstruct (hs : Inv s) {dst src : H} (hd : s.alive dst = false)
    (hsrc : s.alive src = true) :
    Inv { (s.setSocket dst (s.sockets src) s.sys).setSocket src .empty s.sys with
      alive := Function.update s.alive dst true } where
  accounted := by
    have hne : dst ≠ src := fun e => by rw [e, hsrc] at hd; cases hd
    show Accounted ((s.setSocket dst (s.sockets src) s.sys).setSocket src .empty s.sys).held s.sys
    rw [held_setSocket, held_setSocket]
    exact hs.accounted.transfer (hs.dead dst hd) (by simpa using hne)
  dead h' hh := by
    have hne : h' ≠ dst := fun e => by rw [e] at hh; simp at hh
    simp only [Function.update_noteq hne] at hh
    by_cases hs' : h' = src
    · subst hs'; simp [State.setSocket, WinsockSocket.empty]
    · simpa [State.setSocket, Function.update_noteq hne, Function.update_noteq hs'] using
        hs.dead h' hh
  deadAcceptor := hs.deadAcceptor

theorem moveAssign (hs : Inv s) {dst src : H} (hd : s.alive dst = true)
    (hsrc : s.alive src = true) (hne : dst ≠ src) :
    Inv ((s.setSocket dst (s.sockets src) ((s.sockets dst).close s.sys).2).setSocket src .empty
      ((s.sockets dst).close s.sys).2) where
  accounted := by
    have hc := WinsockSocket.close_accounted (z := .inl dst) hs.accounted rfl
    rw [WinsockSocket.close_fd] at hc
    have hne' : (Sum.inl dst : H ⊕ A) ≠ .inl src := by simpa using hne
    have ht := hc.transfer (Function.update_same (Sum.inl dst) none s.held) hne'
    rw [Function.update_idem, Function.update_noteq (by simpa using hne.symm)] at ht
    rw [held_setSocket, held_setSocket]
    exact ht
  dead h' hh := by
    change s.alive h' = false at hh
    have h1 : h' ≠ dst := fun e => by rw [e, hd] at hh; cases hh
    have h2 : h' ≠ src := fun e => by rw [e, hsrc] at hh; cases hh
    simpa [State.setSocket, Function.update_noteq h1, Function.update_noteq h2] using hs.dead h' hh
  deadAcceptor := hs.deadAcceptor

theorem constructAcceptor (hs : Inv s) {a : A} (ha : s.acceptorAlive a = false) :
    Inv { s.setAcceptor a .empty s.sys with
      acceptorAlive := Function.update s.acceptorAlive a true } where
  accounted := by
    show Accounted (s.setAcceptor a .empty s.sys).held s.sys
    rw [held_setAcceptor,
      show WinsockAcceptor.empty.fd = s.held (.inr a) from (hs.deadAcceptor a ha).symm,
      Function.update_eq_self]
    exact hs.accounted
  dead := hs.dead
  deadAcceptor a' hd := by
    have hne : a' ≠ a := fun e => by rw [e] at hd; simp at hd
    simp only [Function.update_noteq hne] at hd
    simpa [State.setAcceptor, Function.update_noteq hne] using hs.deadAcceptor a' hd

theorem destroyAcceptor (hs : Inv s) {a : A} (ha : s.acceptorAlive a = true) :
    Inv { s.setAcceptor a ((s.acceptors a).close s.sys).1 ((s.acceptors a).close s.sys).2 with
      acceptorAlive := Function.update s.acceptorAlive a false } where
  accounted := by
    show Accounted
      (s.setAcceptor a ((s.acceptors a).close s.sys).1 ((s.acceptors a).close s.sys).2).held
      ((s.acceptors a).close s.sys).2
    rw [held_setAcceptor]
    exact WinsockAcceptor.close_accounted hs.accounted rfl
  dead := hs.dead
  deadAcceptor a' hd := by
    by_cases hne : a' = a
    · subst hne; simp [State.setAcceptor]
    · simp only [Function.update_noteq hne] at hd
      simpa [State.setAcceptor, Function.update_noteq hne] using hs.deadAcceptor a' hd

end Inv

theorem step_inv (hs : Inv s) (op : Op H A) : Inv (step s op) := by
  cases op with
  | construct h =>
    simp only [step]; split
    · exact hs
    · next hh => exact hs.construct (by simpa using hh)
  | create h i k =>
    simp only [step]; split
    · next hh => exact hs.setSocket hh (WinsockSocket.create_accounted hs.accounted rfl i k)
    · exact hs
  | connect h i k g c =>
    simp only [step]; split
    · next hh => exact hs.setSocket hh (WinsockSocket.connect_accounted hs.accounted rfl i k g c)
    · exact hs
  | close h =>
    simp only [step]; split
    · next hh => exact hs.setSocket hh (WinsockSocket.close_accounted hs.accounted rfl)
    · exact hs
  | send h os =>
    simp only [step]; split
    · next hh => exact hs.setState hh (WinsockSocket.send_fd _ os)
    · exact hs
  | receive h os =>
    simp only [step]; split
    · next hh => exact hs.setState hh (WinsockSocket.receive_fd _ os)
    · exact hs
  | moveConstruct dst src =>
    simp only [step]; split
    · exact hs
    · next hh =>
      simp only [not_or, Bool.not_eq_true, Bool.not_eq_false] at hh
      exact hs.moveConstruct hh.1 hh.2
  | moveAssign dst src =>
    simp only [step]; split
    · exact hs
    · next hh =>
      simp only [not_or, Bool.not_eq_false] at hh
      exact hs.moveAssign hh.1 hh.2.1 hh.2.2
  | destroy h =>
    simp only [step]; split
    · next hh => exact hs.destroy hh
    · exact hs
  | constructAcceptor a =>
    simp only [step]; split
    · exact hs
    · next ha => exact hs.constructAcceptor (by simpa using ha)
  | listen a i k b l =>
    simp only [step]; split
    · next ha => exact hs.setAcceptor ha (WinsockAcceptor.listen_accounted hs.accounted rfl i k b l)
    · exact hs
  | accept a ok =>
    simp only [step]; split
    · exact ⟨WinsockAcceptor.accept_accounted hs.accounted _ ok, hs.dead, hs.deadAcceptor⟩
    · exact hs
  | closeAcceptor a =>
    simp only [step]; split
    · next ha => exact hs.setAcceptor ha (WinsockAcceptor.close_accounted hs.accounted rfl)
    · exact hs
  | destroyAcceptor a =>
    simp only [step]; split
    · next ha => exact hs.destroyAcceptor ha
    · exact hs

theorem Reachable.inv (hs : Reachable s) : Inv s := by
  induction hs with
  | init => exact inv_initial
  | next op _ ih => exact step_inv ih op

/-- Over every sequence of calls on any number of sockets and acceptors: no descriptor is held by
two objects; none is closed twice, and none is more than one of closed, dropped and handed out;
none that an object holds is any of these; every descriptor the system returned is held by an
object or is one of these; and an object that is not alive holds none. -/
theorem descriptors_owned_exactly_once (hs : Reachable s) :
    (∀ z z' d, s.held z = some d → s.held z' = some d → z = z') ∧
    (s.sys.closed ++ s.sys.dropped ++ s.sys.handedOut).Nodup ∧
    (∀ z d, s.held z = some d → d ∉ s.sys.closed ∧ d ∉ s.sys.dropped ∧ d ∉ s.sys.handedOut) ∧
    (∀ d < s.sys.opened, (∃ z, s.held z = some d) ∨
      d ∈ s.sys.closed ∨ d ∈ s.sys.dropped ∨ d ∈ s.sys.handedOut) ∧
    (∀ h, s.alive h = false → (s.sockets h).fd = none) ∧
    (∀ a, s.acceptorAlive a = false → (s.acceptors a).fd = none) := by
  obtain ⟨⟨hu, hn, hf, -, hc⟩, hd, hda⟩ := hs.inv
  refine ⟨hu, hn, fun z d hz => ?_, fun d hd' => ?_, hd, hda⟩
  · simpa [System.released, not_or] using (hf z d hz).2
  · simpa [System.released, or_assoc] using hc d hd'

/-- The descriptors one call drops: those `create()` or `listen()` overwrite in a live object, once
`WinsockInit::ensure()` has succeeded; `connect()` creates only on an invalid handle. -/
theorem step_dropped (s : State H A) (op : Op H A) (d : Nat) :
    d ∈ (step s op).sys.dropped ↔ d ∈ s.sys.dropped ∨
      (∃ h k, op = .create h true k ∧ s.alive h = true ∧ (s.sockets h).fd = some d) ∨
      (∃ a k b l, op = .listen a true k b l ∧ s.acceptorAlive a = true ∧
        (s.acceptors a).fd = some d) := by
  cases op
  case create h i k => by_cases hh : s.alive h <;> cases i <;> simp [step, hh]
  case listen a i k b l => by_cases ha : s.acceptorAlive a <;> cases i <;> simp [step, ha]
  all_goals simp only [step]; split <;> simp

theorem dropped_run (s : State H A) (ops : List (Op H A)) {d : Nat} (hd : d ∈ s.sys.dropped) :
    d ∈ (run s ops).sys.dropped := by
  induction ops generalizing s with
  | nil => exact hd
  | cons op ops ih => exact ih (step s op) ((step_dropped s op d).mpr (.inl hd))

/-- A descriptor the system returned is lost when no object holds it and it was neither
closed nor returned by `accept()`. -/
def Lost (s : State H A) (d : Nat) : Prop :=
  d < s.sys.opened ∧ (∀ z, s.held z ≠ some d) ∧ d ∉ s.sys.closed ∧ d ∉ s.sys.handedOut

omit [DecidableEq H] [DecidableEq A] in
theorem Inv.lost_iff (hs : Inv s) (d : Nat) : Lost s d ↔ d ∈ s.sys.dropped := by
  obtain ⟨⟨-, hn, hf, hl, hc⟩, -, -⟩ := hs
  constructor
  · rintro ⟨hlt, hheld, hcl, hho⟩
    rcases hc d hlt with ⟨z, hz⟩ | hr
    · exact absurd hz (hheld z)
    · simpa [System.released, hcl, hho] using hr
  · intro hd
    have hr : d ∈ s.sys.released := by simp [System.released, hd]
    refine ⟨hl d hr, fun z hz => (hf z d hz).2 hr, fun hcl => ?_, fun hho => ?_⟩
    · exact (List.nodup_append.mp (List.nodup_append.mp hn).1).2.2 hcl hd
    · exact (List.nodup_append.mp hn).2.2 (List.mem_append_right _ hd) hho

/-- A call loses a descriptor exactly when it is `create()` or `listen()` on a live object that
holds it, `WinsockInit::ensure()` having succeeded: no other call, `connect()` included, loses
one, and a lost descriptor stays lost whatever calls follow. -/
theorem descriptor_lost_only_by_reopen (hs : Reachable s) :
    (∀ op d, Lost (step s op) d ↔ Lost s d ∨
      (∃ h k, op = .create h true k ∧ s.alive h = true ∧ (s.sockets h).fd = some d) ∨
      (∃ a k b l, op = .listen a true k b l ∧ s.acceptorAlive a = true ∧
        (s.acceptors a).fd = some d)) ∧
    (∀ d, Lost s d → ∀ ops, Lost (run s ops) d) := by
  refine ⟨fun op d => ?_, fun d hd ops => ?_⟩
  · rw [(Reachable.next op hs).inv.lost_iff, hs.inv.lost_iff]
    exact step_dropped s op d
  · exact ((hs.run ops).inv.lost_iff d).mpr (dropped_run s ops ((hs.inv.lost_iff d).mp hd))

/-- Two sockets and an acceptor: socket 0 connects, the acceptor listens and accepts, socket 1
takes socket 0's descriptor by move assignment, then `create()` on socket 1 drops it. -/
def socketRun : List (Op (Fin 2) (Fin 1)) :=
  [.construct 0, .connect 0 true true true true, .constructAcceptor 0,
    .listen 0 true true true true, .accept 0 true, .construct 1, .moveAssign 1 0,
    .create 1 true true, .destroy 1, .closeAcceptor 0]

theorem socketRun_owned_once :
    (run initial socketRun).sys = ⟨4, [3, 1], [0], [2]⟩ ∧
    ∀ z z' d, (run initial socketRun).held z = some d → (run initial socketRun).held z' = some d →
      z = z' :=
  ⟨by decide, (descriptors_owned_exactly_once (Reachable.init.run socketRun)).1⟩

theorem socketRun_loses_first :
    Lost (run initial socketRun) 0 ∧ ∀ ops, Lost (run (run initial socketRun) ops) 0 :=
  have h0 := ((Reachable.init.run socketRun).inv.lost_iff 0).mpr (by decide)
  ⟨h0, (descriptor_lost_only_by_reopen (Reachable.init.run socketRun)).2 0 h0⟩

end Run

end WinsockTransport
