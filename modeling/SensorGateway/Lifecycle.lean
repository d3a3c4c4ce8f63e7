/-
transport/tcp/tcp_server.c and app/main.c: the server from its start to the end of
main.

The threads are that of main, which runs the accept loop and tears everything down
after it, one that calls `tcp_server_stop`, and those of the clients.  They share
the descriptors of the process, the fields of the server, and the objects main
destroys.  A context is the descriptor in it; `free` of contexts and the log are
left out.

* `tcpServerStart`, `tcpServerStop`, `tcpServerDestroy`, `mainServes` — the code;
* `clientThread` — the thread of a client, with client_handler as its handler and
  the operations of gateway_process marked as such;
* `does` — what an operation of a thread does to the state they share.
-/
import SensorGateway.ConnectionEvents
import SensorGateway.Threads

open CString Threads

namespace SensorGateway

namespace Transport

variable {D : Type} [Libc D]

/-! ### Operations -/

/-- What main creates before it starts the server and destroys in the end. -/
inductive Object
  | server | gateway | db
  deriving DecidableEq

inductive NetOp (D : Type)
  | socket
  /-- `setsockopt(fd, SOL_SOCKET, SO_REUSEADDR, ...)`. -/
  | setsockopt (fd : ℤ)
  | inetPton (ip : Bytes)
  | bind (fd port : ℤ)
  | listen (fd : ℤ)
  | accept (fd : ℤ)
  /-- `recv(fd, buffer, size, 0)`. -/
  | recv (fd : ℤ) (size : ℕ)
  /-- `shutdown(fd, SHUT_RDWR)`. -/
  | shutdown (fd : ℤ)
  | close (fd : ℤ)
  /-- `malloc` of a context: whether it succeeds. -/
  | malloc
  /-- `pthread_create` of a detached thread for a client. -/
  | pthreadCreate (client_fd : ℤ)
  /-- What a new thread does first: read its context. -/
  | begin
  /-- Read and write `server->running`. -/
  | running
  | setRunning (b : Bool)
  /-- Read and write `server->server_fd`. -/
  | serverFd
  | setServerFd (fd : ℤ)
  /-- Read `server->handler`: whether one is set. -/
  | handler
  /-- Read `server->handler` and `server->handler_arg` for a call. -/
  | handlerArg
  /-- Enter `gateway_process`. -/
  | process
  /-- An operation of `gateway_process`. -/
  | inProcess (o : SysOp D)
  /-- An operation of the handler outside `gateway_process`. -/
  | outside (o : SysOp D)
  /-- `free(server)`, `gateway_destroy(gateway)`, `sqlite_db_close(db)`. -/
  | destroy (x : Object)

abbrev NetAns : NetOp D → Type
  | .socket => ℤ
  | .setsockopt _ => ℤ
  | .inetPton _ => ℤ
  | .bind _ _ => ℤ
  | .listen _ => ℤ
  | .accept _ => ℤ
  | .recv _ _ => RecvRc
  | .shutdown _ => Unit
  | .close _ => Unit
  | .malloc => Bool
  | .pthreadCreate _ => ℤ
  | .begin => ℤ
  | .running => Bool
  | .setRunning _ => Unit
  | .serverFd => ℤ
  | .setServerFd _ => Unit
  | .handler => Bool
  | .handlerArg => Unit
  | .process => Unit
  | .inProcess o => SysAns o
  | .outside o => SysAns o
  | .destroy _ => Unit

abbrev Net (D : Type) := Prog (NetOp D) NetAns

/-- Issue an operation. -/
def net (o : NetOp D) : Net D (NetAns o) := Prog.perform o

/-! ### tcp_server.c -/

/-- The fields of a server that no thread changes; the others are read and written
by operations. -/
structure TcpServer where
  ip : Bytes
  port : ℤ

/-- One turn of the accept loop of `tcp_server_start`. -/
def acceptTurn (server_fd : ℤ) (_ : Unit) : Net D (Unit ⊕ Unit) := do
  if (← net .running) then
    let client_fd ← net (.accept server_fd)
    if client_fd < 0 then
      if !(← net .running) then
        return .inr ()
      -- with EINTR and with any other error
      return .inl ()
    if !(← net .malloc) then
      net (.close client_fd)
      return .inl ()
    if (← net (.pthreadCreate client_fd)) ≠ 0 then
      net (.close client_fd)
      return .inl ()
    return .inl ()
  else
    return .inr ()

/-- `tcp_server_start`. -/
def tcpServerStart : Option TcpServer → Net D ℤ
  | none => return -1
  | some server => do
    if (← net .running) then
      return -1
    let server_fd ← net .socket
    if server_fd < 0 then
      return -1
    if (← net (.setsockopt server_fd)) < 0 then
      net (.close server_fd)
      return -1
    if (← net (.inetPton server.ip)) ≤ 0 then
      net (.close server_fd)
      return -1
    if (← net (.bind server_fd server.port)) < 0 then
      net (.close server_fd)
      return -1
    if (← net (.listen server_fd)) < 0 then
      net (.close server_fd)
      return -1
    net (.setServerFd server_fd)
    net (.setRunning true)
    Prog.loop (acceptTurn server_fd) ()
    net (.close server_fd)
    net (.setServerFd (-1))
    return 0

/-- `tcp_server_stop`. -/
def tcpServerStop (server : Option TcpServer) : Net D Unit := do
  if server.isNone then
    return ()
  if !(← net .running) then
    return ()
  net (.setRunning false)
  if (← net .serverFd) ≥ 0 then
    net (.shutdown (← net .serverFd))
    net (.close (← net .serverFd))
    net (.setServerFd (-1))
  return ()

/-- `tcp_server_destroy`. -/
def tcpServerDestroy (server : Option TcpServer) : Net D Unit := do
  if server.isNone then
    return ()
  if (← net .running) then
    tcpServerStop server
  net (.destroy .server)

/-- The operations of `tcp_server_stop`. -/
def NetOp.ofStop : NetOp D → Bool
  | .running => true
  | .setRunning _ => true
  | .serverFd => true
  | .setServerFd _ => true
  | .shutdown _ => true
  | .close _ => true
  | _ => false

omit [Libc D] in
theorem tcpServerStop_only (server : Option TcpServer) :
    Prog.Only (fun o => o.ofStop = true) (tcpServerStop server : Net D Unit) := by
  simp only [tcpServerStop, Prog.bind_eq, Prog.pure_eq]
  split
  · trivial
  refine .perform rfl fun a => ?_
  split
  · trivial
  refine .perform rfl fun _ => .perform rfl fun fd => ?_
  split
  · exact ⟨rfl, fun _ => ⟨rfl, fun _ => ⟨rfl, fun _ => ⟨rfl, fun _ => ⟨rfl, fun _ => trivial⟩⟩⟩⟩⟩
  · trivial

/-! ### main.c -/

/-- `main` from the call of `tcp_server_start` on; it returns EXIT_SUCCESS. -/
def mainServes (server : Option TcpServer) : Net D ℤ := do
  let _ ← tcpServerStart server
  tcpServerDestroy server
  net (.destroy .gateway)
  net (.destroy .db)
  return 0

/-- `client_handler`, over any way to send to the client and to process its text. -/
def clientHandlerOver {Op : Type} {Ans : Op → Type} (noGateway : Bool)
    (send : Bytes → Prog Op Ans ℤ) (process : Bytes → Prog Op Ans (ℤ × Bytes))
    (event : TcpClientEvent) (data : Bytes) : Prog Op Ans ℤ := do
  if noGateway then
    return -1
  match event with
  | .connected =>
    if (← send welcome) ≠ 0 then
      return -1
    return 0
  | .disconnected => return 0
  | .data =>
    if data.length = 0 then
      return -1
    if data.length ≥ BUFFER_SIZE then
      return -1
    let (rc, output) ← process (cstr (data ++ [0]) 0)
    if rc ≠ 0 then
      let _ ← send errorResponse
      return -1
    if output.getD 0 0 ≠ 0 then
      if (← send (cstr output 0)) ≠ 0 then
        return -1
    return 0

/-- The call of `gateway_process` in `client_handler`. -/
def processes (gateway : Option Gateway) (client_fd : ℤ) (input : Bytes) : Sys D (ℤ × Bytes) :=
  gatewayProcess gateway input (List.replicate OUTPUT_BUFFER_SIZE 0) OUTPUT_BUFFER_SIZE
    (some (gatewayOutputHandler client_fd))

theorem clientHandler_eq (gateway : Option Gateway) (client_fd : ℤ) (event : TcpClientEvent)
    (data : Bytes) : (clientHandler gateway client_fd event data : Sys D ℤ)
      = clientHandlerOver gateway.isNone (tcpServerSend client_fd) (processes gateway client_fd)
          event data := by
  cases event <;> rfl

/-- `client_handler` with the calls of `gateway_process` marked. -/
def markedHandler (gateway : Option Gateway) (client_fd : ℤ) : TcpClientEvent → Bytes → Net D ℤ :=
  clientHandlerOver gateway.isNone
    (fun text => (tcpServerSend client_fd text).interp fun o => net (.outside o))
    fun input => do
      net .process
      (processes gateway client_fd input).interp fun o => net (.inProcess o)

/-- The operations of the thread of a client, with `client_handler` as the handler. -/
def onNet (gateway : Option Gateway) : (o : ClientOp) → Net D (ClientAns o)
  | .running => net .running
  | .handler => net .handler
  | .upcall client_fd event data => do
    net .handlerArg
    markedHandler gateway client_fd event data
  | .recv fd size => net (.recv fd size)
  | .close fd => net (.close fd)

/-- The thread of a client. -/
def clientThread (gateway : Option Gateway) : Net D ℤ := do
  let client_fd ← net .begin
  (tcpClientThread client_fd).interp (onNet gateway)
  return 0

/-! ### What the threads share -/

inductive Thread
  | main | stop
  /-- The thread of the `k`-th context. -/
  | client (k : ℕ)
  deriving DecidableEq

/-- Who has an open descriptor. -/
inductive Owner
  /-- `tcp_server_start`, from `socket()`. -/
  | listening
  /-- `tcp_server_start`, from `accept()`, and no thread has been created for it. -/
  | accepted
  /-- The thread of a client, the database, or anything else. -/
  | elsewhere
  deriving DecidableEq

structure State where
  /-- The open descriptors. -/
  fds : ℤ → Option Owner
  running : Bool
  server_fd : ℤ
  alive : Object → Bool
  /-- The contexts of the threads created so far. -/
  contexts : List ℤ
  /-- The descriptors `socket()` has returned. -/
  sockets : List ℤ
  /-- The calls of `close` in `tcp_server_start` and `tcp_server_stop`, each with
  the owner the descriptor had. -/
  closed : List (ℤ × Option Owner)
  /-- The uses that client threads have made of destroyed objects. -/
  stale : List Object

/-- A server that has been created and not started; `taken` are the descriptors
that are open elsewhere. -/
def State.created (taken : ℤ → Bool) : State where
  fds fd := if taken fd then some .elsewhere else none
  running := false
  server_fd := -1
  alive _ := true
  contexts := []
  sockets := []
  closed := []
  stale := []

def State.opened (s : State) (fd : ℤ) (x : Owner) : State :=
  { s with fds := Function.update s.fds fd (some x) }

/-- The closes of client threads are not written down. -/
def State.closing (s : State) (t : Thread) (fd : ℤ) : State :=
  { s with
    fds := Function.update s.fds fd none
    closed := match t with
      | .client _ => s.closed
      | _ => s.closed ++ [(fd, s.fds fd)] }

/-- Only the uses of client threads are written down. -/
def State.touch (s : State) (t : Thread) (x : Object) : State :=
  { s with stale := match t with
      | .client _ => if s.alive x then s.stale else s.stale ++ [x]
      | _ => s.stale }

/-- Which answer an operation of a thread may have, and the state that follows. -/
def does (t : Thread) (s : State) : (o : NetOp D) → NetAns o → State → Prop
  | .socket, a, s' => a < 0 ∧ s' = s ∨
      0 ≤ a ∧ s.fds a = none ∧ s' = { s.opened a .listening with sockets := s.sockets ++ [a] }
  | .setsockopt _, _, s' => s' = s
  | .inetPton _, _, s' => s' = s
  | .bind _ _, _, s' => s' = s
  | .listen _, _, s' => s' = s
  | .accept _, a, s' => a < 0 ∧ s' = s ∨ 0 ≤ a ∧ s.fds a = none ∧ s' = s.opened a .accepted
  | .recv _ size, a, s' => (∀ x, a = .data x → x ≠ [] ∧ x.length ≤ size) ∧ s' = s
  | .shutdown _, _, s' => s' = s
  | .close fd, _, s' => s' = s.closing t fd
  | .malloc, _, s' => s' = s
  | .pthreadCreate client_fd, a, s' => a ≠ 0 ∧ s' = s ∨
      a = 0 ∧ s' = { s.opened client_fd .elsewhere with contexts := s.contexts ++ [client_fd] }
  | .begin, a, s' => (∃ k, t = .client k ∧ s.contexts[k]? = some a) ∧ s' = s
  | .running, a, s' => a = s.running ∧ s' = s.touch t .server
  | .setRunning b, _, s' => s' = { s with running := b }
  | .serverFd, a, s' => a = s.server_fd ∧ s' = s
  | .setServerFd fd, _, s' => s' = { s with server_fd := fd }
  | .handler, a, s' => a = true ∧ s' = s.touch t .server
  | .handlerArg, _, s' => s' = s.touch t .server
  | .process, _, s' => s' = (s.touch t .gateway).touch t .db
  | .inProcess _, _, s' => s' = (s.touch t .gateway).touch t .db
  | .outside _, _, s' => s' = s
  | .destroy x, _, s' => s' = { s with alive := Function.update s.alive x false }

/-- The same for threads that have no state of their own. -/
def doing : Semantics Thread (NetOp D) NetAns Unit State := fun t x o a x' => does t x.2 o a x'.2

/-! ### Schedules -/

def someAnswer : (o : SysOp D) → SysAns o
  | .sql (.prepare _) => none
  | .sql (.bindText _ _ _) => false
  | .sql (.bindDouble _ _ _) => false
  | .sql (.bindInt _ _ _) => false
  | .sql (.step _) => .error
  | .sql (.columnIsNull _ _) => true
  | .sql (.columnInt _ _) => (0 : ℤ)
  | .sql (.columnDouble _ _) => (Libc.zero : D)
  | .sql (.columnText _ _) => none
  | .sql (.finalize _) => ()
  | .send _ data total_sent => .sent (data.length - total_sent)
  | .recv _ _ => .closed
  | .close _ => ()
  | .running => true
  | .handler => true
  | .output _ => (0 : ℤ)

/-- The lowest descriptor that is free, of the first 16. -/
def State.lowest (s : State) : ℤ :=
  (((List.range 16).map Int.ofNat).find? fun fd => (s.fds fd).isNone).getD (-1)

/-- An answer where nothing fails but `accept`, after `n` clients; `recv` finds the
connection closed. -/
def scripted (n : ℕ) (t : Thread) (x : Unit × State) : (o : NetOp D) → NetAns o × Unit × State
  | .socket => (x.2.lowest, (),
      { x.2.opened x.2.lowest .listening with sockets := x.2.sockets ++ [x.2.lowest] })
  | .setsockopt _ => ((0 : ℤ), x)
  | .inetPton _ => ((1 : ℤ), x)
  | .bind _ _ => ((0 : ℤ), x)
  | .listen _ => ((0 : ℤ), x)
  | .accept _ =>
    if x.2.contexts.length < n then (x.2.lowest, (), x.2.opened x.2.lowest .accepted)
    else ((-1 : ℤ), x)
  | .recv _ _ => (.closed, x)
  | .shutdown _ => ((), x)
  | .close fd => ((), (), x.2.closing t fd)
  | .malloc => (true, x)
  | .pthreadCreate client_fd => ((0 : ℤ), (),
      { x.2.opened client_fd .elsewhere with contexts := x.2.contexts ++ [client_fd] })
  | .begin =>
    match t with
    | .client k => ((x.2.contexts.getD k 0 : ℤ), x)
    | _ => ((0 : ℤ), x)
  | .running => (x.2.running, (), x.2.touch t .server)
  | .setRunning b => ((), (), { x.2 with running := b })
  | .serverFd => (x.2.server_fd, x)
  | .setServerFd fd => ((), (), { x.2 with server_fd := fd })
  | .handler => (true, (), x.2.touch t .server)
  | .handlerArg => ((), (), x.2.touch t .server)
  | .process => ((), (), (x.2.touch t .gateway).touch t .db)
  | .inProcess o => (someAnswer o, (), (x.2.touch t .gateway).touch t .db)
  | .outside o => (someAnswer o, x)
  | .destroy y => ((), (), { x.2 with alive := Function.update x.2.alive y false })

/-- A descriptor is free, and a thread begins when it has been created. -/
def ready (t : Thread) (x : Unit × State) : NetOp D → Bool
  | .socket => 0 ≤ x.2.lowest && (x.2.fds x.2.lowest).isNone
  | .accept _ => 0 ≤ x.2.lowest && (x.2.fds x.2.lowest).isNone
  | .begin =>
    match t with
    | .client k => k < x.2.contexts.length
    | _ => false
  | _ => true

theorem scripted_doing (n : ℕ) (t : Thread) (x : Unit × State) (o : NetOp D)
    (h : ready t x o = true) : doing t x o (scripted n t x o).1 (scripted n t x o).2 := by
  cases o with
  | socket =>
    simp only [ready, Bool.and_eq_true, decide_eq_true_eq, Option.isNone_iff_eq_none] at h
    exact .inr ⟨h.1, h.2, rfl⟩
  | accept fd =>
    simp only [ready, Bool.and_eq_true, decide_eq_true_eq, Option.isNone_iff_eq_none] at h
    simp only [scripted]
    split
    · exact .inr ⟨h.1, h.2, rfl⟩
    · exact .inl ⟨show (-1 : ℤ) < 0 by decide, rfl⟩
  | recv fd size =>
    refine ⟨fun y hy => ?_, rfl⟩
    cases hy
  | pthreadCreate client_fd => exact .inr ⟨rfl, rfl⟩
  | begin =>
    cases t with
    | client k =>
      have hk : k < x.2.contexts.length := by simpa [ready] using h
      refine ⟨⟨k, rfl, ?_⟩, rfl⟩
      simp [scripted, List.getD, hk]
    | _ => cases h
  | running => exact ⟨rfl, rfl⟩
  | serverFd => exact ⟨rfl, rfl⟩
  | handler => exact ⟨rfl, rfl⟩
  | _ => rfl

end Transport

end SensorGateway
