/-
app/main.c: main, with what it creates before it starts the server and destroys
after it.

The calls of main are `calloc` and `free` of its objects, those of SQLite that open
and close the database, and the operations of tcp_server.c.  Messages to the user
and the log are left out.

* `sqliteDbOpen`, `sqliteDbClose`, `gatewayCreate`, `gatewayDestroy`,
  `tcpServerCreate`, `tcpServerSetHandler` — the code;
* `main` — all of main, which ends in `mainServes`;
* `marks`, `uses` — what a call acquires, releases and uses.
-/
import SensorGateway.Lifecycle
import SensorGateway.Nesting

open CString Threads

namespace SensorGateway

open Transport

namespace Startup

variable {D : Type}

/-! ### Calls -/

/-- What has to be released. -/
inductive Resource
  | db | gateway | sensorService | dataService | server
  /-- An open connection. -/
  | handle (c : ℕ)
  /-- The text `sqlite3_exec` allocates when it fails. -/
  | errorMessage
  deriving DecidableEq

/-- The result of `sqlite3_open`; there may be a connection although it has failed. -/
inductive OpenRc
  | ok (handle : ℕ)
  | failed (handle : Option ℕ)
  deriving DecidableEq

/-- The result of `sqlite3_exec`, and whether there is an error message. -/
inductive ExecRc
  | ok
  | failed (error_message : Bool)
  deriving DecidableEq

inductive MainOp (D : Type)
  /-- Whether there is memory. -/
  | calloc (x : Resource)
  | free (x : Resource)
  | sqliteOpen (path : Bytes)
  /-- Whether the result is SQLITE_OK. -/
  | sqliteBusyTimeout (handle : ℕ) (ms : ℤ)
  | sqliteExec (handle : ℕ) (sql : Bytes)
  /-- `sqlite3_free(error_message)`, which may be NULL. -/
  | sqliteFree (error_message : Bool)
  /-- Whether the result is SQLITE_OK; else the connection is left open. -/
  | sqliteClose (handle : ℕ)
  /-- Write `client_handler` to `server->handler` and its argument to
  `server->handler_arg`. -/
  | setHandler (arg : Option Gateway)
  /-- An operation of tcp_server.c. -/
  | net (o : NetOp D)

abbrev MainAns : MainOp D → Type
  | .calloc _ => Bool
  | .free _ => Unit
  | .sqliteOpen _ => OpenRc
  | .sqliteBusyTimeout _ _ => Bool
  | .sqliteExec _ _ => ExecRc
  | .sqliteFree _ => Unit
  | .sqliteClose _ => Bool
  | .setHandler _ => Unit
  | .net o => NetAns o

abbrev Main (D : Type) := Prog (MainOp D) (MainAns (D := D))

/-- Issue a call. -/
def call (o : MainOp D) : Main D (MainAns o) := Prog.perform o

/-! ### sqlite_db.c -/

def walSql : Bytes := bytes "PRAGMA journal_mode=WAL;"

def schemaSql : Bytes := bytes <|
  "CREATE TABLE IF NOT EXISTS sensor_data (" ++
  "    id INTEGER PRIMARY KEY AUTOINCREMENT," ++
  "    device_id TEXT NOT NULL," ++
  "    data_1 REAL," ++
  "    data_2 REAL," ++
  "    data_3 REAL," ++
  "    data_4 REAL," ++
  "    timestamp DATETIME DEFAULT (datetime('now', 'localtime'))" ++
  ");" ++
  "CREATE INDEX IF NOT EXISTS idx_sensor_data_device_id " ++
  "ON sensor_data(device_id);"

/-- `sqlite3_close`, whose result is ignored everywhere. -/
def sqlite3Close (handle : ℕ) : Main D Unit := do
  let _ ← call (.sqliteClose handle)
  return ()

/-- `sqlite_db_init_schema`, of a database with this handle. -/
def sqliteDbInitSchema (handle : ℕ) : Main D ℤ := do
  match ← call (.sqliteExec handle schemaSql) with
  | .failed error_message =>
    call (.sqliteFree error_message)
    return -1
  | .ok => return 0

/-- `sqlite_db_open`. -/
def sqliteDbOpen (db_path : Option Bytes) : Main D (Option SqliteDb) := do
  let some path := db_path
    | return none
  if path = [] then
    return none
  if !(← call (.calloc .db)) then
    return none
  match ← call (.sqliteOpen path) with
  | .failed handle =>
    if let some handle := handle then
      sqlite3Close handle
    call (.free .db)
    return none
  | .ok handle =>
    if !(← call (.sqliteBusyTimeout handle 1000)) then
      sqlite3Close handle
      call (.free .db)
      return none
    match ← call (.sqliteExec handle walSql) with
    | .failed error_message =>
      call (.sqliteFree error_message)
      sqlite3Close handle
      call (.free .db)
      return none
    | .ok =>
      if (← sqliteDbInitSchema handle) < 0 then
        sqlite3Close handle
        call (.free .db)
        return none
      return some ⟨some handle⟩

/-- `sqlite_db_close`. -/
def sqliteDbClose (db : Option SqliteDb) : Main D Unit := do
  let some db := db
    | return ()
  if let some handle := db.handle then
    sqlite3Close handle
  call (.free .db)

/-! ### The services and gateway.c -/

/-- `sensor_service_create`. -/
def sensorServiceCreate (db : Option SqliteDb) : Main D (Option SensorService) := do
  if db.isNone then
    return none
  if !(← call (.calloc .sensorService)) then
    return none
  return some ⟨db⟩

/-- `data_service_create`. -/
def dataServiceCreate (db : Option SqliteDb) : Main D (Option DataService) := do
  if db.isNone then
    return none
  if !(← call (.calloc .dataService)) then
    return none
  return some ⟨db⟩

/-- `sensor_service_destroy`. -/
def sensorServiceDestroy (service : Option SensorService) : Main D Unit := do
  if service.isNone then
    return ()
  call (.free .sensorService)

/-- `data_service_destroy`. -/
def dataServiceDestroy (service : Option DataService) : Main D Unit := do
  if service.isNone then
    return ()
  call (.free .dataService)

/-- `gateway_create`. -/
def gatewayCreate (db : Option SqliteDb) : Main D (Option Gateway) := do
  if db.isNone then
    return none
  if !(← call (.calloc .gateway)) then
    return none
  let sensor_service ← sensorServiceCreate db
  if sensor_service.isNone then
    call (.free .gateway)
    return none
  let data_service ← dataServiceCreate db
  if data_service.isNone then
    sensorServiceDestroy sensor_service
    call (.free .gateway)
    return none
  return some ⟨db, sensor_service, data_service⟩

/-- `gateway_destroy`. -/
def gatewayDestroy (gateway : Option Gateway) : Main D Unit := do
  let some gateway := gateway
    | return ()
  dataServiceDestroy gateway.data_service
  sensorServiceDestroy gateway.sensor_service
  call (.free .gateway)

/-! ### tcp_server.c -/

/-- `sizeof(server->ip)`. -/
def INET_ADDRSTRLEN : ℕ := 16

/-- `tcp_server_create`. -/
def tcpServerCreate (ip : Option Bytes) (port : ℤ) : Main D (Option TcpServer) := do
  let some ip := ip
    | return none
  if port ≤ 0 ∨ port > 65535 then
    return none
  if !(← call (.calloc .server)) then
    return none
  return some ⟨ip.take (INET_ADDRSTRLEN - 1), port⟩

/-- `tcp_server_set_handler`, with `client_handler`. -/
def tcpServerSetHandler (server : Option TcpServer) (arg : Option Gateway) : Main D ℤ := do
  if server.isNone then
    return -1
  call (.setHandler arg)
  return 0

/-! ### main.c -/

def DB_FILE : Bytes := bytes "storage/sqlite/data.db"

/-- `atoi` where `long` has `w` bits: `strtol` as an `int`. -/
def atoi (w : ℕ) (nptr : Bytes) : ℤ := (strtol w nptr).value.bmod (2 ^ 32)

/-- The operations of `mainServes` in main. -/
def onMain (gateway : Option Gateway) (db : Option SqliteDb) : (o : NetOp D) → Main D (NetAns o)
  | .destroy .server => call (.free .server)
  | .destroy .gateway => gatewayDestroy gateway
  | .destroy .db => sqliteDbClose db
  | o => call (.net o)

/-- `main`; the first of the arguments is the name of the program. -/
def main (w : ℕ) (argv : List Bytes) : Main D ℤ := do
  let [_, server_ip, port] := argv
    | return 1
  let server_port := atoi w port
  if server_port ≤ 0 ∨ server_port > 65535 then
    return 1
  let db ← sqliteDbOpen (some DB_FILE)
  if db.isNone then
    return 1
  let gateway ← gatewayCreate db
  if gateway.isNone then
    sqliteDbClose db
    return 1
  let server ← tcpServerCreate (some server_ip) server_port
  if server.isNone then
    gatewayDestroy gateway
    sqliteDbClose db
    return 1
  if (← tcpServerSetHandler server gateway) ≠ 0 then
    (tcpServerDestroy server).interp (onMain gateway db)
    gatewayDestroy gateway
    sqliteDbClose db
    return 1
  (mainServes server).interp (onMain gateway db)

/-! ### What is held -/

def marks : (o : MainOp D) → MainAns o → List (Mark Resource)
  | .calloc x, a => if a then [.acquire x] else []
  | .free x, _ => [.release x true]
  | .sqliteOpen _, .ok handle => [.acquire (.handle handle)]
  | .sqliteOpen _, .failed handle => handle.toList.map fun c => .acquire (.handle c)
  | .sqliteExec _ _, .failed true => [.acquire .errorMessage]
  | .sqliteFree true, _ => [.release .errorMessage true]
  | .sqliteClose handle, closed => [.release (.handle handle) closed]
  | _, _ => []

/-- The server uses all objects, as its threads do while it runs. -/
def uses : MainOp D → List Resource
  | .sqliteOpen _ => [.db]
  | .sqliteBusyTimeout handle _ => [.handle handle, .db]
  | .sqliteExec handle _ => [.handle handle, .db]
  | .setHandler _ => [.server, .gateway]
  | .net _ => [.server, .dataService, .sensorService, .gateway, .db]
  | _ => []

end Startup

end SensorGateway
