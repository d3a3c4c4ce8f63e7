/-
service/*.c and core/gateway.c: the two services over the database, and the
gateway that turns a parsed command into a call of one of them.

Objects that may be NULL are options.  A command is parsed in one go: parsing
touches no memory but the caller's own (`TcpParser.parse_run`).
-/
import SensorGateway.ParserSpec
import SensorGateway.SqliteDb

open CString Sqlite TcpParser

namespace SensorGateway

variable {D : Type} [Libc D]

/-! ### Services -/

structure SensorService where
  db : Option SqliteDb

structure DataService where
  db : Option SqliteDb

/-- `sensor_service_handle_data`. -/
def sensorServiceHandleData (service : Option SensorService) (data : SensorData D) :
    Sys D ℤ := do
  let some service := service
    | return -1
  if service.db.isNone then
    return -1
  if data.device_id = [] then
    return -1
  let ret ← sqliteDbInsertSensor service.db data.device_id data.data_1 data.data_2 data.data_3
    data.data_4
  if ret < 0 then
    return -1
  return 0

/-- `data_service_get_id_range`. -/
def dataServiceGetIdRange (service : Option DataService) (min_id max_id : ℤ) :
    Sys D IdRange := do
  let some service := service
    | return ⟨-1, min_id, max_id⟩
  if service.db.isNone then
    return ⟨-1, min_id, max_id⟩
  sqliteDbGetIdRange service.db min_id max_id

/-- `data_service_query_next_batch`. -/
def dataServiceQueryNextBatch (service : Option DataService) (last_id end_id : ℤ)
    (buffer : Bytes) (buffer_size : ℕ) (next_id row_count : ℤ) (is_first_batch : Bool) :
    Sys D Batch := do
  let some service := service
    | return ⟨-1, buffer, next_id, row_count⟩
  if service.db.isNone ∨ buffer_size = 0 then
    return ⟨-1, buffer, next_id, row_count⟩
  sqliteDbQueryNextBatch service.db last_id end_id buffer buffer_size next_id row_count
    is_first_batch

/-! ### Gateway -/

structure Gateway where
  db : Option SqliteDb
  sensor_service : Option SensorService
  data_service : Option DataService

/-- What `gateway_create` makes of an open database when no allocation fails: the
two services share it. -/
def openGateway (connection : ℕ) : Gateway :=
  let db : Option SqliteDb := some ⟨some connection⟩
  ⟨db, some ⟨db⟩, some ⟨db⟩⟩

/-- `sizeof(batch_buffer)`. -/
def BATCH_BUFFER_SIZE : ℕ := 4096

/-- The help text up to the range of ids. -/
def helpUsage : Bytes :=
  bytes "TCP Sensor Gateway\n"
    ++ bytes "==================\n"
    ++ bytes "Commands:\n"
    ++ bytes "  SENSOR  Upload sensor data\n"
    ++ bytes "  QUERY   Query records\n"
    ++ bytes "  HELP    Show help\n"
    ++ bytes "\n"
    ++ bytes "Usage:\n"
    ++ bytes "  SENSOR,<device_id>,<data1>,<data2>,<data3>,<data4>\n"
    ++ bytes "  QUERY,<start_id>,<end_id>\n"
    ++ bytes "\n"
    ++ bytes "Example:\n"
    ++ bytes "  SENSOR,DEV2,26.8,55.2,101.3,568.4\n"
    ++ bytes "  QUERY,1,20\n"
    ++ bytes "\n"
    ++ bytes "Data Range: "

def helpText (min_id max_id : ℤ) : Bytes :=
  helpUsage ++ fmtInt min_id ++ bytes " - " ++ fmtInt max_id ++ bytes "\n==================\n"

/-- `gateway_build_help`: the return code and the output buffer. -/
def gatewayBuildHelp (gateway : Gateway) (output : Bytes) (output_size : ℕ) :
    Sys D (ℤ × Bytes) := do
  if output_size = 0 then
    return (-1, output)
  let range ← dataServiceGetIdRange gateway.data_service 0 0
  if range.rc ≠ 0 then
    return (-1, output)
  return (0, (snprintf output 0 output_size (helpText range.min_id range.max_id)).2)

/-- The local variables of `gateway_handle_query`. -/
structure QueryLoop where
  last_id : ℤ
  next_id : ℤ
  row_count : ℤ
  is_first_batch : Bool
  batch_buffer : Bytes

/-- The local variables before the loop; what C leaves unset is zero here. -/
def QueryLoop.start (start_id : ℤ) : QueryLoop :=
  ⟨start_id - 1, 0, 0, true, List.replicate BATCH_BUFFER_SIZE 0⟩

/-- One turn of the loop of `gateway_handle_query`. -/
def queryTurn (gateway : Gateway) (end_id : ℤ) (output_handler : Bytes → Sys D ℤ)
    (s : QueryLoop) : Sys D (QueryLoop ⊕ ℤ) := do
  let b ← dataServiceQueryNextBatch gateway.data_service s.last_id end_id s.batch_buffer
    BATCH_BUFFER_SIZE s.next_id s.row_count s.is_first_batch
  if b.rc ≠ 0 then
    return .inr (-1)
  if b.row_count = 0 then
    return .inr 0
  if (← output_handler (cstr b.buffer 0)) ≠ 0 then
    return .inr (-1)
  return .inl ⟨b.next_id, b.next_id, b.row_count, false, b.buffer⟩

/-- `gateway_handle_query`. -/
def gatewayHandleQuery (gateway : Gateway) (start_id end_id : ℤ)
    (output_handler : Bytes → Sys D ℤ) : Sys D ℤ :=
  Prog.loop (queryTurn gateway end_id output_handler) (.start start_id)

/-- Reading the SENSOR member of the union. -/
def sensorMember (command : TcpCommand D) : SensorData D :=
  match command.data with
  | .sensor d => d
  | .query _ => ⟨[], Libc.zero, Libc.zero, Libc.zero, Libc.zero⟩

/-- Reading the QUERY member of the union. -/
def queryMember (command : TcpCommand D) : QueryCommand :=
  match command.data with
  | .query q => q
  | .sensor _ => ⟨0, 0⟩

/-- `gateway_process`: the return code and the output buffer. -/
def gatewayProcess (gateway : Option Gateway) (input output : Bytes) (output_size : ℕ)
    (output_handler : Option (Bytes → Sys D ℤ)) : Sys D (ℤ × Bytes) := do
  let some gateway := gateway
    | return (-1, output)
  if output_size = 0 then
    return (-1, output)
  let output := output.set 0 0
  let (rc, command) := parseAlone input (zeroed : TcpCommand D)
  if rc ≠ 0 then
    return (-1, output)
  match command.type with
  | .sensorData =>
    if (← sensorServiceHandleData gateway.sensor_service (sensorMember command)) ≠ 0 then
      return (-1, output)
    return (0, (snprintf output 0 output_size (bytes "OK\n")).2)
  | .query =>
    let some output_handler := output_handler
      | return (-1, output)
    let q := queryMember command
    let rc ← gatewayHandleQuery gateway q.start_id q.end_id output_handler
    return (rc, output)
  | .help => gatewayBuildHelp gateway output output_size
  | .invalid => return (-1, output)

end SensorGateway
