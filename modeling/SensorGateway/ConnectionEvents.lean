/-
What the upper layer is told of a connection.

Here `tcp_client_thread` is written once more, with the calls of the handler as
operations; carried out by a handler it is the thread as before
(`tcpClientThread_interp`).

* `protocol_iff` — the handler is told CONNECTED, then DATA for each chunk received
  and last DISCONNECTED, just when the thread has found the connection closed by
  the client: after an error of recv, and when the server has been stopped, it
  ends without DISCONNECTED;
* `thread_protocol` — the same of the thread with any handler;
* `reset_untold` — a connection that is reset, of whose end the handler is not told.
-/
import SensorGateway.Interpretation
import SensorGateway.Traces
import SensorGateway.TcpServer

namespace SensorGateway

namespace Transport

/-! ### The thread of a client -/

inductive ClientOp
  /-- Read `server->running`. -/
  | running
  /-- Read `server->handler`: whether one is set. -/
  | handler
  /-- `server->handler(client_fd, event, data, length, server->handler_arg)`. -/
  | upcall (client_fd : ℤ) (event : TcpClientEvent) (data : Bytes)
  /-- `recv(fd, buffer, size, 0)`. -/
  | recv (fd : ℤ) (size : ℕ)
  | close (fd : ℤ)

abbrev ClientAns : ClientOp → Type
  | .running => Bool
  | .handler => Bool
  | .upcall _ _ _ => ℤ
  | .recv _ _ => RecvRc
  | .close _ => Unit

abbrev Client := Prog ClientOp ClientAns

/-- Tell the upper layer of an event, if a handler is set; its return code is
only logged. -/
def notify (client_fd : ℤ) (event : TcpClientEvent) (data : Bytes) : Client Unit := do
  if (← Prog.perform ClientOp.handler) then
    let _ ← Prog.perform (ClientOp.upcall client_fd event data)
  return ()

/-- One turn of the receive loop of `tcp_client_thread`. -/
def clientTurn (client_fd : ℤ) (_ : Unit) : Client (Unit ⊕ Unit) := do
  if (← Prog.perform ClientOp.running) then
    match ← Prog.perform (ClientOp.recv client_fd (TCP_SERVER_BUFFER_SIZE - 1)) with
    | .data received =>
      notify client_fd .data received
      return .inl ()
    | .closed =>
      notify client_fd .disconnected []
      return .inr ()
    | .eintr => return .inl ()
    | .error => return .inr ()
  else
    return .inr ()

/-- `tcp_client_thread`. -/
def tcpClientThread (client_fd : ℤ) : Client Unit := do
  notify client_fd .connected []
  Prog.loop (clientTurn client_fd) ()
  Prog.perform (ClientOp.close client_fd)

section carriedOut

variable {D : Type}

/-- The operations of the thread, with `h` as the handler. -/
def carriedOut (h : TcpClientHandler D) : (o : ClientOp) → Sys D (ClientAns o)
  | .running => serverRunning
  | .handler => serverHandler
  | .upcall client_fd event data => h client_fd event data
  | .recv fd size => recv fd size
  | .close fd => close fd

theorem notify_interp (h : TcpClientHandler D) (client_fd : ℤ) (event : TcpClientEvent)
    (data : Bytes) : (notify client_fd event data).interp (carriedOut h)
      = SensorGateway.notify h client_fd event data := by
  simp only [notify, SensorGateway.notify, Prog.bind_eq, Prog.pure_eq, Prog.perform_bind,
    Prog.interp_call]
  refine congrArg (Prog.bind _) (funext fun a => ?_)
  cases a with
  | false => rfl
  | true => rfl

theorem clientTurn_interp (h : TcpClientHandler D) (client_fd : ℤ) (u : Unit) :
    (clientTurn client_fd u).interp (carriedOut h) = SensorGateway.clientTurn h client_fd u := by
  simp only [clientTurn, SensorGateway.clientTurn, Prog.bind_eq, Prog.pure_eq, Prog.perform_bind,
    Prog.interp_call]
  refine congrArg (Prog.bind _) (funext fun a => ?_)
  cases a with
  | false => rfl
  | true =>
    rw [if_pos rfl, if_pos rfl]
    refine congrArg (Prog.bind _) (funext fun rc => ?_)
    cases rc with
    | data received =>
      simp only
      rw [Prog.interp_bind, notify_interp]
      rfl
    | closed =>
      simp only
      rw [Prog.interp_bind, notify_interp]
      rfl
    | eintr => rfl
    | error => rfl

/-- The thread with its handler in place of the calls. -/
theorem tcpClientThread_interp (h : TcpClientHandler D) (client_fd : ℤ) :
    (tcpClientThread client_fd).interp (carriedOut h)
      = SensorGateway.tcpClientThread h client_fd := by
  have hturn : (fun u => (clientTurn client_fd u).interp (carriedOut h))
      = SensorGateway.clientTurn h client_fd := funext (clientTurn_interp h client_fd)
  simp only [tcpClientThread, SensorGateway.tcpClientThread, Prog.bind_eq, Prog.interp_bind,
    notify_interp, Prog.loop_bind, Prog.interp_iter, hturn]
  rfl

end carriedOut

/-! ### Logs -/

/-- What a thread has done, with the answers. -/
abbrev Log := List (Prog.Event ClientOp ClientAns)

def toldBy : Prog.Event ClientOp ClientAns → Option (ℤ × TcpClientEvent × Bytes)
  | ⟨.upcall client_fd event data, _⟩ => some (client_fd, event, data)
  | _ => none

def receivedBy : Prog.Event ClientOp ClientAns → Option Bytes
  | ⟨.recv _ _, .data received⟩ => some received
  | _ => none

def hangsUp : Prog.Event ClientOp ClientAns → Bool
  | ⟨.recv _ _, .closed⟩ => true
  | _ => false

def closes : Prog.Event ClientOp ClientAns → Bool
  | ⟨.close _, _⟩ => true
  | _ => false

/-- The events the handler has been told of. -/
def told (l : Log) : List (ℤ × TcpClientEvent × Bytes) := l.filterMap toldBy

/-- The bytes of each positive `recv`. -/
def received (l : Log) : List Bytes := l.filterMap receivedBy

/-- `recv` has returned 0. -/
def HungUp (l : Log) : Prop := l.any hangsUp = true

/-- CONNECTED, DATA for each chunk and DISCONNECTED, then the descriptor is closed,
for the only time and with nothing after it. -/
structure ConnectionProtocol (client_fd : ℤ) (l : Log) : Prop where
  told : told l = (client_fd, .connected, []) ::
    (received l).map (fun x => (client_fd, .data, x)) ++ [(client_fd, .disconnected, [])]
  closed : ∃ l' : Log, l = l' ++ [⟨.close client_fd, ()⟩] ∧ ∀ x ∈ l', closes x = false

/-- What the operations may answer: a handler is set, and `recv` returns bytes up
to the size it is given. -/
def Possible : (o : ClientOp) → ClientAns o → Prop
  | .handler, a => a = true
  | .recv _ size, .data received => received ≠ [] ∧ received.length ≤ size
  | _, _ => True

/-- The server may be stopped at any time, and nothing is known of the rest. -/
def anySurroundings (_ : Unit) (o : ClientOp) (a : ClientAns o) (_ : Unit) : Prop := Possible o a

/-! ### The protocol -/

/-- The log of a thread that has not closed its descriptor; `gone` when the client has. -/
structure Progress (client_fd : ℤ) (l : Log) (gone : Bool) : Prop where
  told : told l =
    (client_fd, .connected, []) :: (received l).map (fun x => (client_fd, .data, x)) ++
      if gone then [(client_fd, .disconnected, [])] else []
  hungUp : l.any hangsUp = gone
  closes : ∀ x ∈ l, closes x = false

variable {client_fd : ℤ} {l : Log} {t : Prop}

theorem told_concat (l : Log) (x : Prog.Event ClientOp ClientAns) :
    told (l ++ [x]) = told l ++ (toldBy x).toList := by
  rw [told, told, List.filterMap_append]
  cases h : toldBy x <;> simp [h]

theorem received_concat (l : Log) (x : Prog.Event ClientOp ClientAns) :
    received (l ++ [x]) = received l ++ (receivedBy x).toList := by
  rw [received, received, List.filterMap_append]
  cases h : receivedBy x <;> simp [h]

/-- An operation the protocol does not speak of. -/
theorem Progress.skip {gone : Bool} (h : Progress client_fd l gone)
    {x : Prog.Event ClientOp ClientAns} (ht : toldBy x = none) (hr : receivedBy x = none)
    (hu : hangsUp x = false) (hc : Transport.closes x = false) :
    Progress client_fd (l ++ [x]) gone := by
  constructor
  · simpa [told_concat, received_concat, ht, hr] using h.told
  · simp [h.hungUp, hu]
  · intro y hy
    rcases List.mem_append.mp hy with hy | hy
    · exact h.closes y hy
    · rw [List.mem_singleton.mp hy, hc]

/-- A chunk, of which the handler is told. -/
theorem Progress.chunk (h : Progress client_fd l false) (size : ℕ) (x : Bytes) (rc : ℤ) :
    Progress client_fd (l ++ [⟨.recv client_fd size, .data x⟩] ++ [⟨.handler, true⟩] ++
      [⟨.upcall client_fd .data x, rc⟩]) false := by
  constructor
  · simp only [told_concat, received_concat, h.told]
    simp [toldBy, receivedBy]
  · simpa [hangsUp] using h.hungUp
  · simp only [List.mem_append, List.mem_singleton]
    rintro y (((hy | rfl) | rfl) | rfl)
    · exact h.closes y hy
    all_goals rfl

/-- The end of the connection, of which the handler is told. -/
theorem Progress.hangUp (h : Progress client_fd l false) (size : ℕ) (rc : ℤ) :
    Progress client_fd (l ++ [⟨.recv client_fd size, .closed⟩] ++ [⟨.handler, true⟩] ++
      [⟨.upcall client_fd .disconnected [], rc⟩]) true := by
  constructor
  · simp only [told_concat, received_concat, h.told]
    simp [toldBy, receivedBy]
  · simp [hangsUp]
  · simp only [List.mem_append, List.mem_singleton]
    rintro y (((hy | rfl) | rfl) | rfl)
    · exact h.closes y hy
    all_goals rfl

theorem notify_recording {event : TcpClientEvent} {data : Bytes} {Q : Unit → Log → Prop}
    (hQ : ∀ rc : ℤ, Q () (l ++ [⟨.handler, true⟩] ++ [⟨.upcall client_fd event data, rc⟩])) :
    Prog.wp t (Prog.recording Possible) (notify client_fd event data) Q l := by
  simp only [notify, Prog.bind_eq, Prog.pure_eq]
  refine Prog.wp_perform trivial ?_
  rintro a l₁ ⟨ha, rfl⟩
  obtain rfl : a = true := ha
  rw [if_pos rfl]
  refine Prog.wp_perform trivial ?_
  rintro rc l₂ ⟨-, rfl⟩
  exact hQ rc

theorem clientTurn_recording (h : Progress client_fd l false) :
    Prog.wp t (Prog.recording Possible) (clientTurn client_fd ())
      (Sum.elim (fun _ l' => Progress client_fd l' false)
        fun _ l' => ∃ gone, Progress client_fd l' gone) l := by
  simp only [clientTurn, Prog.bind_eq, Prog.pure_eq]
  refine Prog.wp_perform trivial ?_
  rintro a l₁ ⟨-, rfl⟩
  have h₁ : Progress client_fd (l ++ [⟨.running, a⟩]) false := h.skip rfl rfl rfl rfl
  split
  · refine Prog.wp_perform trivial ?_
    rintro rc l₂ ⟨-, rfl⟩
    cases rc with
    | data received =>
      exact Prog.wp_bind (notify_recording fun rc => h₁.chunk _ _ rc)
    | closed =>
      exact Prog.wp_bind (notify_recording fun rc => ⟨true, h₁.hangUp _ rc⟩)
    | eintr => exact h₁.skip rfl rfl rfl rfl
    | error => exact ⟨false, h₁.skip rfl rfl rfl rfl⟩
  · exact ⟨false, h₁⟩

theorem tcpClientThread_recording (client_fd : ℤ) :
    Prog.wp False (Prog.recording Possible) (tcpClientThread client_fd)
      (fun _ l =>
        ∃ l' gone, l = l' ++ [⟨.close client_fd, ()⟩] ∧ Progress client_fd l' gone) [] := by
  simp only [tcpClientThread, Prog.bind_eq]
  refine Prog.wp_bind (notify_recording fun rc => ?_)
  refine Prog.wp_iter (fun _ l => Progress client_fd l false) ?_ ?_
  · -- the handler has been told CONNECTED
    constructor
    · rfl
    · rfl
    · simp [closes]
  · rintro ⟨⟩ l hl
    refine Prog.wp_mono ?_ (clientTurn_recording hl)
    rintro (⟨⟩ | ⟨⟩) l₁ hl₁
    · exact hl₁
    · obtain ⟨gone, hgone⟩ := hl₁
      refine ⟨trivial, ?_⟩
      rintro ⟨⟩ l₂ ⟨-, rfl⟩
      exact ⟨l₁, gone, rfl, hgone⟩

/-- Whatever the operations mean, as long as a handler is set. -/
theorem ConnectionProtocol.iff_hungUp {W : Type} {sem : W → (o : ClientOp) → ClientAns o → W → Prop}
    (hsem : ∀ w o a w', sem w o a w' → Possible o a) {w w' : W} {u : Unit}
    (h : Prog.Runs (Prog.traced sem) (tcpClientThread client_fd) (w, []) u (w', l)) :
    ConnectionProtocol client_fd l ↔ HungUp l := by
  obtain ⟨l', gone, rfl, hprogress⟩ :=
    Prog.recording_runs hsem h (tcpClientThread_recording client_fd)
  have htold : Transport.told (l' ++ [⟨.close client_fd, ()⟩]) = Transport.told l' := by
    simp [told_concat, toldBy]
  have hreceived : received (l' ++ [⟨.close client_fd, ()⟩]) = received l' := by
    simp [received_concat, receivedBy]
  have hhung : HungUp (l' ++ [⟨.close client_fd, ()⟩]) ↔ gone = true := by
    rw [HungUp, List.any_append, hprogress.hungUp]
    simp [hangsUp]
  rw [hhung]
  constructor
  · intro hprotocol
    have hall := hprotocol.told
    rw [htold, hreceived, hprogress.told] at hall
    cases gone with
    | true => rfl
    | false =>
      have hlen := congrArg List.length hall
      simp at hlen
  · rintro rfl
    constructor
    · rw [htold, hreceived, hprogress.told]
      simp
    · exact ⟨l', rfl, hprogress.closes⟩

theorem protocol_iff {u : Unit}
    (h : Prog.Runs (Prog.traced anySurroundings) (tcpClientThread client_fd) ((), []) u ((), l)) :
    ConnectionProtocol client_fd l ↔ HungUp l :=
  ConnectionProtocol.iff_hungUp (fun _ _ _ _ h => h) h

/-- A thread that has told its handler of the connection. -/
theorem greeted_runs {end_log : Log} (hloop : Prog.Runs (Prog.traced anySurroundings)
      (Prog.iter (clientTurn 4) () fun _ => Prog.perform (ClientOp.close 4))
      ((), [⟨.handler, true⟩, ⟨.upcall 4 .connected [], (0 : ℤ)⟩]) () ((), end_log)) :
    Prog.Runs (Prog.traced anySurroundings) (tcpClientThread 4) ((), []) () ((), end_log) :=
  .traced_call true () rfl (.traced_call (0 : ℤ) () trivial hloop)

/-- The log when a command is received, recv is interrupted, and the client closes the
connection. -/
def closedLog : Log :=
  [⟨.handler, true⟩, ⟨.upcall 4 .connected [], (0 : ℤ)⟩, ⟨.running, true⟩,
    ⟨.recv 4 127, .data (bytes "HELP\n")⟩, ⟨.handler, true⟩,
    ⟨.upcall 4 .data (bytes "HELP\n"), (0 : ℤ)⟩, ⟨.running, true⟩, ⟨.recv 4 127, .eintr⟩,
    ⟨.running, true⟩, ⟨.recv 4 127, .closed⟩, ⟨.handler, true⟩,
    ⟨.upcall 4 .disconnected [], (0 : ℤ)⟩, ⟨.close 4, ()⟩]

theorem closedLog_runs : Prog.Runs (Prog.traced anySurroundings) (tcpClientThread 4) ((), []) ()
    ((), closedLog) := by
  refine greeted_runs ?_
  refine .next (.traced_call true () trivial (.traced_call (.data (bytes "HELP\n")) () ?_
    (.traced_call true () rfl (.traced_call (0 : ℤ) () trivial (.ret (Sum.inl ()) _))))) ?_
  · exact ⟨by decide, by decide⟩
  refine .next (.traced_call true () trivial
    (.traced_call .eintr () trivial (.ret (Sum.inl ()) _))) ?_
  refine .done (.traced_call true () trivial (.traced_call .closed () trivial
    (.traced_call true () rfl (.traced_call (0 : ℤ) () trivial (.ret (Sum.inr ()) _))))) ?_
  exact .traced_call () () trivial (.ret _ _)

/-- The log when recv fails at once, as after a reset. -/
def resetLog : Log :=
  [⟨.handler, true⟩, ⟨.upcall 4 .connected [], (0 : ℤ)⟩, ⟨.running, true⟩, ⟨.recv 4 127, .error⟩,
    ⟨.close 4, ()⟩]

theorem resetLog_runs : Prog.Runs (Prog.traced anySurroundings) (tcpClientThread 4) ((), []) ()
    ((), resetLog) := by
  refine greeted_runs ?_
  refine .done (.traced_call true () trivial
    (.traced_call .error () trivial (.ret (Sum.inr ()) _))) ?_
  exact .traced_call () () trivial (.ret _ _)

theorem protocol_iff_closed :
    HungUp closedLog ∧ ConnectionProtocol 4 closedLog ∧ received closedLog = [bytes "HELP\n"] ∧
      ¬ HungUp resetLog ∧ ¬ ConnectionProtocol 4 resetLog := by
  have hup : HungUp closedLog := rfl
  have hreset : ¬ HungUp resetLog := by
    rw [HungUp]
    decide
  exact ⟨hup, (protocol_iff closedLog_runs).mpr hup, rfl, hreset,
    (protocol_iff resetLog_runs).not.mpr hreset⟩

theorem reset_untold : ¬ ∀ l : Log, Prog.Runs (Prog.traced anySurroundings) (tcpClientThread 4)
    ((), []) () ((), l) → ConnectionProtocol 4 l := by
  intro h
  have hlen := congrArg List.length (h _ resetLog_runs).told
  exact absurd hlen (by decide)

/-- So it is with every handler and in every surroundings: the calls that the thread
makes keep to the protocol just when the client has closed the connection. -/
theorem thread_protocol {D : Type} {W : Type} {sem : W → (o : SysOp D) → SysAns o → W → Prop}
    (hset : ∀ w a w', sem w .handler a w' → a = true)
    (hrecv : ∀ w fd size x w', sem w (.recv fd size) (.data x) w' → x ≠ [] ∧ x.length ≤ size)
    {handler : TcpClientHandler D} {w w' : W} {u : Unit}
    (h : Prog.Runs sem (SensorGateway.tcpClientThread handler client_fd) w u w') :
    ∃ l : Log, Prog.Runs (Prog.traced fun w o a w' => Prog.Runs sem (carriedOut handler o) w a w')
      (tcpClientThread client_fd) (w, []) u (w', l) ∧
        (ConnectionProtocol client_fd l ↔ HungUp l) := by
  rw [← tcpClientThread_interp] at h
  obtain ⟨l, hl⟩ := h.of_interp.trace []
  refine ⟨l, hl, ConnectionProtocol.iff_hungUp ?_ hl⟩
  intro w o a w' ho
  cases o with
  | handler =>
    cases ho with
    | call ho hret =>
      cases hret
      exact hset _ _ _ ho
  | recv fd size =>
    cases ho with
    | call ho hret =>
      cases hret
      cases a with
      | data x => exact hrecv _ _ _ _ _ ho
      | _ => trivial
  | _ => trivial

end Transport

end SensorGateway
