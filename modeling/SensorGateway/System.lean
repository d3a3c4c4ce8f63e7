/-
What the gateway process asks of its surroundings: SQLite, its sockets, the
flags of the server, and the output handler a caller of the gateway passes in.

`Sys D` programs are the C functions above the parser.  Standard output and the
log are left out: nothing reads them.
-/
import SensorGateway.Interaction
import SensorGateway.SensorTable

open Sqlite

namespace SensorGateway

variable {D : Type}

/-- The outcomes of `recv`; the bytes of `data` are not empty. -/
inductive RecvRc
  | data (received : Bytes)
  | closed
  | eintr
  | error

/-- The outcomes of `send`. -/
inductive SendRc
  | sent (n : ℕ)
  | eintr
  | error

inductive SysOp (D : Type)
  | sql (o : SqlOp D)
  /-- `send(fd, data + total_sent, length - total_sent, 0)`. -/
  | send (fd : ℤ) (data : Bytes) (total_sent : ℕ)
  /-- `recv(fd, buffer, size, 0)`. -/
  | recv (fd : ℤ) (size : ℕ)
  | close (fd : ℤ)
  /-- Read `server->running`. -/
  | running
  /-- Read `server->handler`: whether one is set. -/
  | handler
  /-- Call the output handler of whoever called the gateway. -/
  | output (data : Bytes)

abbrev SysAns : SysOp D → Type
  | .sql o => SqlAns o
  | .send _ _ _ => SendRc
  | .recv _ _ => RecvRc
  | .close _ => Unit
  | .running => Bool
  | .handler => Bool
  | .output _ => ℤ

abbrev Sys (D : Type) := Prog (SysOp D) SysAns

def sql (o : SqlOp D) : Sys D (SqlAns o) := Prog.perform (SysOp.sql o)
def send (fd : ℤ) (data : Bytes) (total_sent : ℕ) : Sys D SendRc :=
  Prog.perform (SysOp.send fd data total_sent)
def recv (fd : ℤ) (size : ℕ) : Sys D RecvRc := Prog.perform (SysOp.recv fd size)
def close (fd : ℤ) : Sys D Unit := Prog.perform (SysOp.close fd)
def serverRunning : Sys D Bool := Prog.perform SysOp.running
def serverHandler : Sys D Bool := Prog.perform SysOp.handler
/-- The output handler given from outside. -/
def output (data : Bytes) : Sys D ℤ := Prog.perform (SysOp.output data)

end SensorGateway
