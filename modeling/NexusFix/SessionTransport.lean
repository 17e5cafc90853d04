import NexusFix.SessionLifecycle
import NexusFix.SessionRecovery
import NexusFix.WinsockTransport

/-! # The session over a WinsockTransport

`CoroutineSession::run` with a `WinsockTransport` under its `AsyncTransport`. `connect_phase`
calls the socket's `connect()`: `connect_async` retries only on `WouldBlock`, which
`connect()` on a blocking socket does not report, so it makes one call. `logout_phase` calls
`transport_.disconnect()`, the socket's `close()`, once it is past its first test. The sends and
receives in between change only the socket's `state_` (`WinsockSocket.send_fd`,
`WinsockSocket.receive_fd`), so the socket is followed here by its descriptor.
`session_with_recovery` then runs the same session on the same transport again after each
failed run. -/
namespace SessionTransport

open SessionMachine SessionReceive SessionLifecycle SessionRecovery WinsockTransport

/-- What `WinsockInit::ensure`, `::socket`, `getaddrinfo` and `::connect` answer one `connect()`. -/
structure ConnectAnswers where
  initOk : Bool
  socketOk : Bool
  gaiOk : Bool
  connectOk : Bool
  deriving DecidableEq, Repr

def connectSocket (x : WinsockSocket) (sys : System) (ans : ConnectAnswers) :
    Bool × WinsockSocket × System :=
  x.connect sys ans.initOk ans.socketOk ans.gaiOk ans.connectOk

/-- Whether `logout_phase` gets past `if (state_ != Active && state_ != LogoutReceived)` to
`transport_.disconnect()`. -/
def logoutDisconnects (s : Session) : Bool := s.state = .active ∨ s.state = .logoutReceived

/-- From descriptor `fd` and system `sys` to `fd'` and `sys'`: both unchanged, or a socket that
held nothing given the next descriptor. -/
def Reuses (fd : Option Nat) (sys : System) (fd' : Option Nat) (sys' : System) : Prop :=
  (fd' = fd ∧ sys' = sys) ∨
    (fd = none ∧ fd' = some sys.opened ∧ sys' = { sys with opened := sys.opened + 1 })

instance (fd : Option Nat) (sys : System) (fd' : Option Nat) (sys' : System) :
    Decidable (Reuses fd sys fd' sys') := by
  unfold Reuses; infer_instance

theorem Reuses.trans {fd fd₁ fd₂ : Option Nat} {sys sys₁ sys₂ : System}
    (h₁ : Reuses fd sys fd₁ sys₁) (h₂ : Reuses fd₁ sys₁ fd₂ sys₂) : Reuses fd sys fd₂ sys₂ := by
  rcases h₁ with ⟨rfl, rfl⟩ | ⟨hfd, rfl, rfl⟩
  · exact h₂
  · rcases h₂ with ⟨rfl, rfl⟩ | ⟨h, -, -⟩
    · exact .inr ⟨hfd, rfl, rfl⟩
    · cases h

/-- `connect()` keeps the socket's descriptor, or on a socket holding none, `::socket` gives it
the next one. -/
theorem connectSocket_cases (x : WinsockSocket) (sys : System) (ans : ConnectAnswers) :
    Reuses x.fd sys (connectSocket x sys ans).2.1.fd (connectSocket x sys ans).2.2 := by
  obtain ⟨hfd, hsys⟩ := x.connect_fd_sys sys ans.initOk ans.socketOk ans.gaiOk ans.connectOk
  unfold connectSocket
  rw [hfd, hsys]
  cases hx : x.fd with
  | some d => exact .inl (by simp [hx])
  | none =>
    cases ans.initOk <;> cases ans.socketOk <;>
      simp [Reuses, WinsockSocket.create, System.socket, hx]

section
variable (unlisted : SessionState → SessionEvent → SessionState)
  (parse : Bytes → Option ParsedMessage) (retrieveRange : Nat → Nat → List Bytes)

/-- `run` on a session whose transport's socket is `x`: the session and what `run` returns, as
`SessionLifecycle.run` with `connect_async`'s answer from the socket, and the socket's descriptor
and the system after. -/
def runOn (s : Session) (x : WinsockSocket) (sys : System) (ans : ConnectAnswers) (env : Env) :
    Option (Session × Result × Option Nat × System) :=
  let c := connectSocket x sys ans
  match connectPhase unlisted s c.1 with
  | (s, .error e) => some (s, .error e, c.2.1.fd, c.2.2)
  | (s, .ok ()) =>
    match logonPhase unlisted parse s env.logonSend env.logonReplies with
    | (s, .error e) => some (s, .error e, c.2.1.fd, c.2.2)
    | (s, .ok ()) =>
      (activePhase unlisted parse retrieveRange s env.active).map fun r =>
        let y := if logoutDisconnects r.2 then c.2.1.close c.2.2 else (c.2.1, c.2.2)
        (logoutPhase unlisted parse r.2 env.logoutReplies, activeResult r.1 r.2, y.1.fd, y.2)

/-- What a run leaves the socket and the system: as its `connect()` left them, or, on a graceful
end after a shutdown request or the peer's Logout, closed in `logout_phase`; a run that ends as
`connect()` left the socket and returns a value ends Disconnected. -/
theorem runOn_socket {s : Session} {x : WinsockSocket} {sys : System} {ans : ConnectAnswers}
    {env : Env} {s' : Session} {r : Result} {fd : Option Nat} {sys' : System}
    (h : runOn unlisted parse retrieveRange s x sys ans env = some (s', r, fd, sys')) :
    (fd = (connectSocket x sys ans).2.1.fd ∧ sys' = (connectSocket x sys ans).2.2 ∧
      (r = .ok () → s'.state = .disconnected)) ∨
    (r = .ok () ∧ fd = none ∧ sys' = { (connectSocket x sys ans).2.2 with
      closed := (connectSocket x sys ans).2.2.closed ++ (connectSocket x sys ans).2.1.fd.toList }) := by
  unfold runOn at h
  dsimp only at h
  generalize connectSocket x sys ans = c at h ⊢
  split at h
  · simp only [Option.some.injEq, Prod.mk.injEq] at h
    obtain ⟨-, rfl, rfl, rfl⟩ := h
    exact .inl ⟨rfl, rfl, nofun⟩
  next _ s₀ _ =>
  split at h
  · simp only [Option.some.injEq, Prod.mk.injEq] at h
    obtain ⟨-, rfl, rfl, rfl⟩ := h
    exact .inl ⟨rfl, rfl, nofun⟩
  next _ s₁ hlog =>
  obtain ⟨⟨w, s₂⟩, hact, hq⟩ := Option.map_eq_some'.mp h
  simp only [Prod.mk.injEq] at hq
  obtain ⟨rfl, rfl, rfl, rfl⟩ := hq
  have hs₁ : s₁.state = .active := by
    have := logonPhase_active unlisted parse
      (show (logonPhase unlisted parse s₀ env.logonSend env.logonReplies).2 = .ok () by rw [hlog])
    rwa [hlog] at this
  clear hlog h
  rcases activePhase_end unlisted parse retrieveRange hs₁ hact with
    ⟨rfl, hst⟩ | ⟨rfl, hst | hst⟩ | ⟨rfl, hst⟩ <;>
    simp_all [logoutDisconnects, activeResult, logoutPhase_of_ne, WinsockSocket.close_sys]

end

def allOk : ConnectAnswers := ⟨true, true, true, true⟩

def timedOutEnv : Env := ⟨true, true, [.data peerLogon], [.heartbeat .timedOut], []⟩

/-- What one run of `session_with_recovery` is given: the socket's `state_` as the last run's
sends and receives left it, which this model does not follow and `connect()` does not read,
what its `connect()` is answered, and what the peer and the timer do. -/
structure Attempt where
  state : ConnectionState
  ans : ConnectAnswers
  env : Env
  deriving DecidableEq, Repr

/-- What the loop ends with: what each of its runs returned, the `delay_sec` it computes before
each retry, what it returns (`none` while it still has a run to make), and the session, the
socket's descriptor and the system it leaves. -/
structure Recovery where
  results : List RunResult
  delays : List (Option Int)
  returned : Option RunResult
  session : Session
  fd : Option Nat
  sys : System

section
variable (unlisted : SessionState → SessionEvent → SessionState)
  (parse : Bytes → Option ParsedMessage) (retrieveRange : Nat → Nat → List Bytes)

/-- `session_with_recovery` from a count of `attempts`, on a session whose transport's socket
holds `fd`: each `session.run` is `runOn`, and the next run starts from the session and the
descriptor the last one left; `none` if a run does not end. -/
def recoverOn (config : SessionConfig) (attempts : Nat) (s : Session) (fd : Option Nat)
    (sys : System) : List Attempt → Option Recovery
  | [] =>
    some ⟨[], [], if (attempts : Int) < config.maxReconnectAttempts.val then none
      else some (.error .disconnected), s, fd, sys⟩
  | a :: rest =>
    if (attempts : Int) < config.maxReconnectAttempts.val then
      match runOn unlisted parse retrieveRange s ⟨fd, a.state⟩ sys a.ans a.env with
      | none => none
      | some (s', .ok (), fd', sys') => some ⟨[.ok ()], [], some (.ok ()), s', fd', sys'⟩
      | some (s', .error e, fd', sys') =>
        if config.maxReconnectAttempts.val ≤ attempts + 1 then
          some ⟨[.error e], [], some (.error e), s', fd', sys'⟩
        else (recoverOn config (attempts + 1) s' fd' sys' rest).map fun q =>
          { q with results := .error e :: q.results,
                   delays := delaySec config (attempts + 1) :: q.delays }
    else some ⟨[], [], some (.error .disconnected), s, fd, sys⟩

theorem recoverOn_cons {config : SessionConfig} {attempts : Nat} {s : Session}
    {fd : Option Nat} {sys : System} {a : Attempt} {rest : List Attempt} {q : Recovery}
    (h : recoverOn unlisted parse retrieveRange config attempts s fd sys (a :: rest) = some q) :
    ((attempts : Int) < config.maxReconnectAttempts.val ∧ ∃ s' r fd' sys',
      runOn unlisted parse retrieveRange s ⟨fd, a.state⟩ sys a.ans a.env = some (s', r, fd', sys') ∧
      (((r = .ok () ∨ config.maxReconnectAttempts.val ≤ attempts + 1) ∧
          q = ⟨[r], [], some r, s', fd', sys'⟩) ∨
        ∃ e q', r = .error e ∧ ¬config.maxReconnectAttempts.val ≤ attempts + 1 ∧
          recoverOn unlisted parse retrieveRange config (attempts + 1) s' fd' sys' rest = some q' ∧
          q = { q' with results := .error e :: q'.results,
                        delays := delaySec config (attempts + 1) :: q'.delays })) ∨
    (¬(attempts : Int) < config.maxReconnectAttempts.val ∧
      q = ⟨[], [], some (.error .disconnected), s, fd, sys⟩) := by
  simp only [recoverOn] at h
  by_cases hlt : (attempts : Int) < config.maxReconnectAttempts.val
  · rw [if_pos hlt] at h
    refine .inl ⟨hlt, ?_⟩
    rcases hr : runOn unlisted parse retrieveRange s ⟨fd, a.state⟩ sys a.ans a.env with
      _ | ⟨s', r, fd', sys'⟩
    · rw [hr] at h; cases h
    rw [hr] at h
    refine ⟨s', r, fd', sys', rfl, ?_⟩
    rcases r with e | ⟨⟩
    · by_cases hle : config.maxReconnectAttempts.val ≤ attempts + 1
      · simp only [if_pos hle, Option.some.injEq] at h
        exact .inl ⟨.inr hle, h.symm⟩
      · simp only [if_neg hle] at h
        obtain ⟨q', hq', rfl⟩ := Option.map_eq_some'.mp h
        exact .inr ⟨e, q', rfl, hle, hq', rfl⟩
    · simp only [Option.some.injEq] at h
      exact .inl ⟨.inl rfl, h.symm⟩
  · rw [if_neg hlt] at h
    exact .inr ⟨hlt, (Option.some.inj h).symm⟩

/-- The loop over real runs computes what `SessionRecovery.recover` computes over the results
those runs returned. -/
theorem recoverOn_results {config : SessionConfig} {attempts : Nat} {s : Session}
    {fd : Option Nat} {sys : System} {atts : List Attempt} {q : Recovery}
    (h : recoverOn unlisted parse retrieveRange config attempts s fd sys atts = some q) :
    recover config attempts q.results = (q.delays, q.returned) := by
  induction atts generalizing attempts s fd sys q with
  | nil =>
    simp only [recoverOn, Option.some.injEq] at h
    subst h; rfl
  | cons a rest ih =>
    rcases recoverOn_cons unlisted parse retrieveRange h with
      ⟨hlt, s', r, fd', sys', -, ⟨hend, rfl⟩ | ⟨e, q', rfl, hle, hq', rfl⟩⟩ | ⟨hlt, rfl⟩
    · rcases hend with rfl | hle
      · simp [recover, hlt]
      · cases r <;> simp [recover, hlt, hle]
    · simp [recover, hlt, hle, ih hq']
    · simp [recover, hlt]

/-- Over every run of `session_with_recovery` on one `WinsockTransport`, whatever its
`connect()` calls are answered and whatever the peer does: the loop opens a descriptor only
while the socket holds none, and at most one over all its runs; it drops none, and closes one
only at a graceful end, in `logout_phase`. Every retry's `connect()` runs on the descriptor
the failed run left. -/
theorem recovery_reuses_socket {config : SessionConfig} {attempts : Nat} {s : Session}
    {fd : Option Nat} {sys : System} {atts : List Attempt} {q : Recovery}
    (h : recoverOn unlisted parse retrieveRange config attempts s fd sys atts = some q) :
    ∃ fd₁ sys₁, Reuses fd sys fd₁ sys₁ ∧ ((q.fd = fd₁ ∧ q.sys = sys₁) ∨
      (q.returned = some (.ok ()) ∧ q.fd = none ∧
        q.sys = { sys₁ with closed := sys₁.closed ++ fd₁.toList })) := by
  induction atts generalizing attempts s fd sys q with
  | nil =>
    simp only [recoverOn, Option.some.injEq] at h
    subst h
    exact ⟨fd, sys, .inl ⟨rfl, rfl⟩, .inl ⟨rfl, rfl⟩⟩
  | cons a rest ih =>
    have hc := connectSocket_cases ⟨fd, a.state⟩ sys a.ans
    rcases recoverOn_cons unlisted parse retrieveRange h with
      ⟨-, s', r, fd', sys', hr, ⟨-, rfl⟩ | ⟨e, q', rfl, -, hq', rfl⟩⟩ | ⟨-, rfl⟩
    · rcases runOn_socket unlisted parse retrieveRange hr with ⟨rfl, rfl, -⟩ | ⟨rfl, rfl, rfl⟩
      · exact ⟨_, _, hc, .inl ⟨rfl, rfl⟩⟩
      · exact ⟨_, _, hc, .inr ⟨rfl, rfl, rfl⟩⟩
    · have hfailed : Reuses fd sys fd' sys' := by
        rcases runOn_socket unlisted parse retrieveRange hr with ⟨rfl, rfl, -⟩ | ⟨hok, -⟩
        · exact hc
        · cases hok
      obtain ⟨fd₁, sys₁, h₁, h₂⟩ := ih hq'
      exact ⟨fd₁, sys₁, hfailed.trans h₁, h₂⟩
    · exact ⟨fd, sys, .inl ⟨rfl, rfl⟩, .inl ⟨rfl, rfl⟩⟩

end

def retryConfig : SessionConfig := ⟨⟨3, by decide⟩, ⟨1, by decide⟩⟩

def socketFails : ConnectAnswers := ⟨true, false, true, true⟩

/-- A first run whose `::socket` fails, then two whose `connect()` succeeds and whose peer
answers the Logon. -/
def retries : List Attempt :=
  [⟨.disconnected, socketFails, timedOutEnv⟩, ⟨.error, allOk, timedOutEnv⟩,
    ⟨.error, allOk, timedOutEnv⟩]

/-- The first run fails to connect; the retries start from the Error it leaves, so what they
do in the session rests on `next_state` off its table, here the completion that keeps the
state. -/
theorem retries_reuse_socket :
    ∃ q, recoverOn keepState parseFix noStore retryConfig 0 newSession none ⟨0, [], [], []⟩
        retries = some q ∧
      ∃ fd₁ sys₁, Reuses none ⟨0, [], [], []⟩ fd₁ sys₁ ∧ ((q.fd = fd₁ ∧ q.sys = sys₁) ∨
        (q.returned = some (.ok ()) ∧ q.fd = none ∧
          q.sys = { sys₁ with closed := sys₁.closed ++ fd₁.toList })) :=
  ⟨_, rfl, @recovery_reuses_socket keepState parseFix noStore retryConfig 0 newSession none _
    retries _ rfl⟩

end SessionTransport
