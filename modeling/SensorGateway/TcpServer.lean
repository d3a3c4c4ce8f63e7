/-
transport/tcp/tcp_server.c and app/main.c: sending to a client, the thread of a
client, and the handler that connects the server to the gateway.
-/
import SensorGateway.Gateway

open CString Sqlite TcpParser

namespace SensorGateway

variable {D : Type} [Libc D]

/-- `TCP_SERVER_BUFFER_SIZE`. -/
def TCP_SERVER_BUFFER_SIZE : ℕ := 128

/-! ### tcp_server.c -/

/-- One turn of the loop of `tcp_server_send`. -/
def sendTurn (client_fd : ℤ) (data : Bytes) (total_sent : ℕ) : Sys D (ℕ ⊕ ℤ) := do
  if total_sent < data.length then
    match ← send client_fd data total_sent with
    | .eintr => return .inl total_sent
    | .error => return .inr (-1)
    | .sent sent =>
      if sent = 0 then
        return .inr (-1)
      return .inl (total_sent + sent)
  else
    return .inr 0

/-- `tcp_server_send`. -/
def tcpServerSend (client_fd : ℤ) (data : Bytes) : Sys D ℤ := do
  if client_fd < 0 ∨ data.length = 0 then
    return -1
  Prog.loop (sendTurn client_fd data) 0

inductive TcpClientEvent
  | connected | data | disconnected
  deriving DecidableEq

/-- `tcp_client_handler_t`; an event without data comes with no bytes. -/
abbrev TcpClientHandler (D : Type) := ℤ → TcpClientEvent → Bytes → Sys D ℤ

/-- Tell the upper layer of an event, if a handler is set; its return code is
only logged. -/
def notify (handler : TcpClientHandler D) (client_fd : ℤ) (event : TcpClientEvent)
    (data : Bytes) : Sys D Unit := do
  if (← serverHandler) then
    let _ ← handler client_fd event data
  return ()

/-- One turn of the receive loop of `tcp_client_thread`. -/
def clientTurn (handler : TcpClientHandler D) (client_fd : ℤ) (_ : Unit) :
    Sys D (Unit ⊕ Unit) := do
  if (← serverRunning) then
    match ← recv client_fd (TCP_SERVER_BUFFER_SIZE - 1) with
    | .data received =>
      notify handler client_fd .data received
      return .inl ()
    | .closed =>
      notify handler client_fd .disconnected []
      return .inr ()
    | .eintr => return .inl ()
    | .error => return .inr ()
  else
    return .inr ()

/-- `tcp_client_thread`. -/
def tcpClientThread (handler : TcpClientHandler D) (client_fd : ℤ) : Sys D Unit := do
  notify handler client_fd .connected []
  Prog.loop (clientTurn handler client_fd) ()
  close client_fd

/-! ### main.c -/

/-- `BUFFER_SIZE` of config.h. -/
def BUFFER_SIZE : ℕ := 128

def OUTPUT_BUFFER_SIZE : ℕ := 4096

def welcome : Bytes := bytes "TCP Sensor Gateway,Type HELP for available commands.\n"

def errorResponse : Bytes := bytes "ERROR\n"

/-- `gateway_output_handler`. -/
def gatewayOutputHandler (client_fd : ℤ) (data : Bytes) : Sys D ℤ := do
  if data.length = 0 then
    return -1
  if (← tcpServerSend client_fd data) ≠ 0 then
    return -1
  return 0

/-- `client_handler`, with the gateway as its argument. -/
def clientHandler (gateway : Option Gateway) : TcpClientHandler D :=
  fun client_fd event data => do
    if gateway.isNone then
      return -1
    match event with
    | .connected =>
      if (← tcpServerSend client_fd welcome) ≠ 0 then
        return -1
      return 0
    | .disconnected => return 0
    | .data =>
      if data.length = 0 then
        return -1
      if data.length ≥ BUFFER_SIZE then
        return -1
      -- the bytes are copied and closed with a NUL
      let input := cstr (data ++ [0]) 0
      let (rc, output) ← gatewayProcess gateway input (List.replicate OUTPUT_BUFFER_SIZE 0)
        OUTPUT_BUFFER_SIZE (some (gatewayOutputHandler client_fd))
      if rc ≠ 0 then
        let _ ← tcpServerSend client_fd errorResponse
        return -1
      if output.getD 0 0 ≠ 0 then
        if (← tcpServerSend client_fd (cstr output 0)) ≠ 0 then
          return -1
      return 0

end SensorGateway
