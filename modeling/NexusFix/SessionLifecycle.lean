import NexusFix.SessionReceive

/-! # The session lifecycle

`CoroutineSession::run`: connect, logon, the Active phase, logout. The environment says
whether `connect_async` and the Logon's send succeed, which reads each wait loop makes before
its deadline passes, and how the Active phase's three tasks interleave. Each iteration of a
loop runs as one step: the state only changes inside an iteration, and a loop whose iteration
leaves Active returns before any other task runs, so `when_any`'s winner is the task whose
step ended the phase. -/
namespace SessionLifecycle

open SessionMachine SessionReceive

/-- What `HeartbeatTimer` answers in one iteration of `heartbeat_loop`: `has_timed_out()`,
`should_send_test_request()`, `should_send_heartbeat()`, or none of them. -/
inductive Timer
  | timedOut
  | testRequest
  | heartbeat
  | quiet
  deriving DecidableEq, Repr

/-- One step of the Active phase: an iteration of one of the three tasks of `when_any`, the
last being `wait_for_shutdown` returning once `shutdown_event_` is set. -/
inductive Turn
  | heartbeat (t : Timer)
  | receive (r : Recv)
  | shutdown
  deriving DecidableEq, Repr

structure Env where
  connect : Bool
  logonSend : Bool
  logonReplies : List Recv
  active : List Turn
  logoutReplies : List Recv
  deriving DecidableEq, Repr

abbrev Result := Except SessionErrorCode Unit

section
variable (unlisted : SessionState → SessionEvent → SessionState)
  (parse : Bytes → Option ParsedMessage)
  (retrieveRange : Nat → Nat → List Bytes)

def connectPhase (s : Session) (ok : Bool) : Session × Result :=
  if ok then (s.transition unlisted .connect, .ok ())
  else (s.transition unlisted .error, .error .notConnected)

/-- The Logon phase, `logon_phase`, with whether the Logon's `send_raw` succeeds and the reads made before
the deadline. -/
def logonPhase (s : Session) (sendOk : Bool) (replies : List Recv) : Session × Result :=
  let s := s.sendFresh MsgType.logon []
  if sendOk then
    let s := waitForLogon unlisted parse (s.transition unlisted .logonSent) replies
    if s.state ≠ .active then (s.transition unlisted .heartbeatTimeout, .error .logonTimeout)
    else (s.emit .logon, .ok ())
  else (s, .error .notConnected)

/-- The three tasks of `active_phase` until the first of them returns: its index, as
`when_any` gives it, and the session then. -/
def activePhase (s : Session) : List Turn → Option (Nat × Session)
  | [] => none
  | .heartbeat t :: rest =>
    if s.state ≠ .active then some (0, s)
    else match t with
      | .timedOut => some (0, s.transition unlisted .heartbeatTimeout)
      | .testRequest => activePhase (s.sendFresh MsgType.testRequest []) rest
      | .heartbeat => activePhase (s.sendFresh MsgType.heartbeat []) rest
      | .quiet => activePhase s rest
  | .receive r :: rest =>
    if s.state ≠ .active then some (1, s)
    else match r with
      | .error => some (1, s.transition unlisted .disconnect)
      | .data [] => activePhase s rest
      | .data b =>
        let s' := receiveChunk unlisted parse retrieveRange s b
        if s'.state ≠ .active then some (1, s') else activePhase s' rest
  | .shutdown :: _ => some (2, s)

/-- How `active_phase` reads the winner. -/
def activeResult (winner : Nat) (s : Session) : Result :=
  if winner = 0 then .error .heartbeatTimeout
  else if winner = 1 ∧ s.state = .active then .error .disconnected
  else .ok ()

/-- Waiting for the Logout reply, `wait_for_logout_with_deadline`, over the reads it makes before the deadline passes. -/
def waitForLogout (s : Session) : List Recv → Session
  | [] => s
  | r :: rest =>
    if s.state ≠ .logoutPending then s
    else match r with
      | .error => s
      | .data [] => waitForLogout s rest
      | .data b =>
        match parse b with
        | some m =>
          waitForLogout
            (if m.msgType = MsgType.logout then s.transition unlisted .logoutReceived else s) rest
        | none => waitForLogout s rest

def logoutPhase (s : Session) (replies : List Recv) : Session :=
  if s.state ≠ .active ∧ s.state ≠ .logoutReceived then s
  else
    let s := if s.state = .active then
      waitForLogout unlisted parse ((s.sendFresh MsgType.logout []).transition unlisted .logoutSent)
        replies
      else s
    (s.emit .logout).transition unlisted .disconnect

/-- The whole session, `run`, or nothing while the Active phase has not ended. -/
def run (s : Session) (env : Env) : Option (Session × Result) :=
  match connectPhase unlisted s env.connect with
  | (s, .error e) => some (s, .error e)
  | (s, .ok ()) =>
    match logonPhase unlisted parse s env.logonSend env.logonReplies with
    | (s, .error e) => some (s, .error e)
    | (s, .ok ()) =>
      (activePhase unlisted parse retrieveRange s env.active).map fun r =>
        (logoutPhase unlisted parse r.2 env.logoutReplies, activeResult r.1 r.2)

end

section
variable (unlisted : SessionState → SessionEvent → SessionState)
  (parse : Bytes → Option ParsedMessage) (retrieveRange : Nat → Nat → List Bytes)

@[simp] theorem sendFresh_state (s : Session) (type : MsgType) (ints : List (Nat × Int)) :
    (s.sendFresh type ints).state = s.state := rfl

theorem receiveChunk_active {s : Session} (hs : s.state = .active) (b : Bytes) :
    (receiveChunk unlisted parse retrieveRange s b).state = .active ∨
      (receiveChunk unlisted parse retrieveRange s b).state = .logoutReceived := by
  rcases receiveChunk_state unlisted parse retrieveRange s b with h | ⟨-, h⟩
  · exact .inl (h.trans hs)
  · exact .inr (by rw [h, hs]; rfl)

/-- The Active phase ends on a heartbeat timeout, a lost connection or the peer's Logout, or
a shutdown request. -/
theorem activePhase_end {s : Session} (hs : s.state = .active) {turns : List Turn}
    {w : Nat} {s' : Session} (h : activePhase unlisted parse retrieveRange s turns = some (w, s')) :
    (w = 0 ∧ s'.state = .error) ∨
      (w = 1 ∧ (s'.state = .disconnected ∨ s'.state = .logoutReceived)) ∨
      (w = 2 ∧ s'.state = .active) := by
  induction turns generalizing s with
  | nil => simp [activePhase] at h
  | cons t rest ih =>
    cases t with
    | heartbeat t =>
      cases t <;> simp only [activePhase, hs, ne_eq, not_true_eq_false, if_false] at h
      · obtain ⟨rfl, rfl⟩ := h; simp [hs]
      all_goals exact ih (by simpa using hs) h
    | receive r =>
      cases r with
      | error =>
        simp only [activePhase, hs, ne_eq, not_true_eq_false, if_false, Option.some.injEq,
          Prod.mk.injEq] at h
        obtain ⟨rfl, rfl⟩ := h; simp [hs]
      | data b =>
        cases b with
        | nil => simp only [activePhase, hs, ne_eq, not_true_eq_false, if_false] at h; exact ih hs h
        | cons c cs =>
          simp only [activePhase, hs, ne_eq, not_true_eq_false, if_false] at h
          split_ifs at h with ha
          · exact ih ha h
          · simp only [Option.some.injEq, Prod.mk.injEq] at h
            obtain ⟨rfl, rfl⟩ := h
            exact .inr (.inl ⟨rfl,
              .inr ((receiveChunk_active unlisted parse retrieveRange hs _).resolve_left ha)⟩)
    | shutdown =>
      simp only [activePhase, Option.some.injEq, Prod.mk.injEq] at h
      obtain ⟨rfl, rfl⟩ := h; simp [hs]

theorem logoutPhase_of_ne {s : Session} (h1 : s.state ≠ .active) (h2 : s.state ≠ .logoutReceived)
    (l : List Recv) : logoutPhase unlisted parse s l = s := by
  simp [logoutPhase, h1, h2]

end

def newSession : Session := ⟨.disconnected, {}, []⟩

/-- The failed connect takes only the row `any, Error -> Error`, whatever `next_state` does off
the table. -/
example (unlisted : SessionState → SessionEvent → SessionState) :
    run unlisted parseFix noStore newSession ⟨false, true, [], [], []⟩ =
      some (⟨.error, {}, [.stateChange .disconnected .error]⟩, .error .notConnected) := rfl

section
variable (unlisted : SessionState → SessionEvent → SessionState)
  (parse : Bytes → Option ParsedMessage) (retrieveRange : Nat → Nat → List Bytes)

/-- A step of the Active phase that does not end it: a heartbeat iteration whose timer has
not run out, or a read that is not the peer's Logout. -/
def Benign : Turn → Prop
  | .heartbeat t => t ≠ .timedOut
  | .receive (.data b) => ∀ m, parse b = some m → m.msgType ≠ MsgType.logout
  | .receive .error => False
  | .shutdown => False

theorem activePhase_benign {s : Session} (hs : s.state = .active) (turns : List Turn)
    (hb : ∀ t ∈ turns, Benign parse t) (rest : List Turn) :
    ∃ s', s'.state = .active ∧ activePhase unlisted parse retrieveRange s (turns ++ rest) =
      activePhase unlisted parse retrieveRange s' rest := by
  induction turns generalizing s with
  | nil => exact ⟨s, hs, rfl⟩
  | cons t ts ih =>
    have hts : ∀ t ∈ ts, Benign parse t := fun t h => hb t (List.mem_cons_of_mem _ h)
    have ht := hb t (List.mem_cons_self _ _)
    cases t with
    | heartbeat t =>
      cases t
      · exact absurd rfl ht
      all_goals simp only [List.cons_append, activePhase, hs, ne_eq, not_true_eq_false, if_false]
      all_goals exact ih (by simpa using hs) hts
    | receive r =>
      cases r with
      | error => exact ht.elim
      | data b =>
        cases b with
        | nil =>
          simp only [List.cons_append, activePhase, hs, ne_eq, not_true_eq_false, if_false]
          exact ih hs hts
        | cons c cs =>
          have hr : (receiveChunk unlisted parse retrieveRange s (c :: cs)).state = .active := by
            rcases receiveChunk_state unlisted parse retrieveRange s (c :: cs) with
              h | ⟨⟨m, hm, hl⟩, -⟩
            · exact h.trans hs
            · exact absurd hl (ht m hm)
          simp only [List.cons_append, activePhase, hs, hr, ne_eq, not_true_eq_false, if_false]
          exact ih hr hts
    | shutdown => exact ht.elim

theorem logonPhase_active {s : Session} {sendOk : Bool} {replies : List Recv}
    (h : (logonPhase unlisted parse s sendOk replies).2 = .ok ()) :
    (logonPhase unlisted parse s sendOk replies).1.state = .active := by
  unfold logonPhase at h ⊢
  cases sendOk
  · simp at h
  · by_cases ha : (waitForLogon unlisted parse
        ((s.sendFresh MsgType.logon []).transition unlisted .logonSent) replies).state = .active
    · simp [ha]
    · simp [ha] at h

/-- Once Active, a failed read ends the receiver loop in Disconnected; `active_phase` then
finds the state no longer Active and returns a value, and `run` reports a graceful end. -/
theorem receive_error_ends_run_gracefully {s0 : Session} {env : Env} {turns rest : List Turn}
    (hc : env.connect = true)
    (hl : (logonPhase unlisted parse (s0.transition unlisted .connect) env.logonSend
      env.logonReplies).2 = .ok ())
    (ha : env.active = turns ++ .receive .error :: rest) (hb : ∀ t ∈ turns, Benign parse t) :
    ∃ s, run unlisted parse retrieveRange s0 env = some (s, .ok ()) ∧ s.state = .disconnected := by
  have hs1 := logonPhase_active unlisted parse hl
  unfold run connectPhase
  simp only [hc, if_true]
  generalize logonPhase unlisted parse (s0.transition unlisted .connect) env.logonSend
    env.logonReplies = q at hl hs1
  obtain ⟨s1, r1⟩ := q
  cases hl
  obtain ⟨s', hs', he⟩ :=
    activePhase_benign unlisted parse retrieveRange hs1 turns hb (.receive .error :: rest)
  have hd : (s'.transition unlisted .disconnect).state = .disconnected := by simp [hs']
  refine ⟨_, ?_, (congrArg Session.state (logoutPhase_of_ne unlisted parse (by simp [hs'])
    (by simp [hs']) env.logoutReplies)).trans hd⟩
  simp [ha, he, activePhase, hs', activeResult]

end

/-- The peer answers the Logon, a heartbeat iteration passes, and the next read fails. -/
def lostConnection : Env := ⟨true, true, [.data peerLogon], [.heartbeat .quiet, .receive .error], []⟩

theorem lost_connection_ends_gracefully :
    ∃ s, run keepState parseFix noStore newSession lostConnection = some (s, .ok ()) ∧
      s.state = .disconnected :=
  receive_error_ends_run_gracefully keepState parseFix noStore rfl rfl
    (show lostConnection.active = [.heartbeat .quiet] ++ .receive .error :: [] from rfl)
    (by simp [Benign])

end SessionLifecycle
