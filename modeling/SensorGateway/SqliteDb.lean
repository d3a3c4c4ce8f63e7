/-
storage/sqlite/sqlite_db.c: inserting a record, the range of ids, and one batch
of a paged query.

Every function prepares one statement and finalizes it on each of its exits.
`sqliteDbQueryNextBatch` renders rows into the caller's buffer with `snprintf`.
-/
import SensorGateway.System

open CString Sqlite

namespace SensorGateway

variable {D : Type} [Libc D]

/-- `SQLITE_DB_QUERY_BATCH_SIZE`. -/
def SQLITE_DB_QUERY_BATCH_SIZE : ℤ := 20

/-- `struct sqlite_db`; the handle names the open connection. -/
structure SqliteDb where
  handle : Option ℕ

/-- `db == NULL || db->handle == NULL`. -/
def noHandle : Option SqliteDb → Bool
  | some ⟨some _⟩ => false
  | _ => true

/-- `sqlite_db_insert_sensor`. -/
def sqliteDbInsertSensor (db : Option SqliteDb) (device_id : Bytes)
    (data_1 data_2 data_3 data_4 : D) : Sys D ℤ := do
  if noHandle db ∨ device_id = [] then
    return -1
  let some stmt ← sql (.prepare .insertSensor)
    | return -1
  if !(← sql (.bindText stmt 1 device_id)) then
    sql (.finalize stmt)
    return -1
  if !(← sql (.bindDouble stmt 2 data_1)) then
    sql (.finalize stmt)
    return -1
  if !(← sql (.bindDouble stmt 3 data_2)) then
    sql (.finalize stmt)
    return -1
  if !(← sql (.bindDouble stmt 4 data_3)) then
    sql (.finalize stmt)
    return -1
  if !(← sql (.bindDouble stmt 5 data_4)) then
    sql (.finalize stmt)
    return -1
  let rc ← sql (.step stmt)
  if rc ≠ .done then
    sql (.finalize stmt)
    return -1
  sql (.finalize stmt)
  return 0

/-- The results of `sqlite_db_get_id_range`. -/
structure IdRange where
  rc : ℤ
  min_id : ℤ
  max_id : ℤ

/-- `sqlite_db_get_id_range`, with what the two results held before. -/
def sqliteDbGetIdRange (db : Option SqliteDb) (min_id max_id : ℤ) : Sys D IdRange := do
  if noHandle db then
    return ⟨-1, min_id, max_id⟩
  let some stmt ← sql (.prepare .idRange)
    | return ⟨-1, 0, 0⟩
  let rc ← sql (.step stmt)
  if rc ≠ .row then
    sql (.finalize stmt)
    return ⟨-1, 0, 0⟩
  -- MIN/MAX return NULL when the table is empty.
  let min_id ← if !(← sql (.columnIsNull stmt 0)) then sql (.columnInt stmt 0) else pure 0
  let max_id ← if !(← sql (.columnIsNull stmt 1)) then sql (.columnInt stmt 1) else pure 0
  sql (.finalize stmt)
  return ⟨0, min_id, max_id⟩

/-! ### One batch -/

def headerLine : Bytes :=
  bytes "id | device_id | data_1 | data_2 | data_3 | data_4 | timestamp\n"

def separator : Bytes := bytes " | "

/-- `"%d | %s | %.6f | %.6f | %.6f | %.6f | %s\n"`. -/
def rowLine (id : ℤ) (device_id : Bytes) (data_1 data_2 data_3 data_4 : D)
    (timestamp : Bytes) : Bytes :=
  fmtInt id ++ separator ++ fmtStr device_id ++ separator ++ Libc.fmt6 data_1 ++ separator
    ++ Libc.fmt6 data_2 ++ separator ++ Libc.fmt6 data_3 ++ separator ++ Libc.fmt6 data_4
    ++ separator ++ fmtStr timestamp ++ bytes "\n"

/-- The results of `sqlite_db_query_next_batch`, the buffer included. -/
structure Batch where
  rc : ℤ
  buffer : Bytes
  next_id : ℤ
  row_count : ℤ

/-- The local variables of the row loop. -/
structure RowLoop where
  buffer : Bytes
  used : ℕ
  count : ℤ
  current_id : ℤ

/-- One turn of the row loop.  It goes on after a row, is left with the result
code after another one, and with the buffer alone when a row does not fit. -/
def rowTurn (stmt buffer_size : ℕ) (s : RowLoop) :
    Sys D (RowLoop ⊕ Except Bytes (StepRc × RowLoop)) := do
  let rc ← sql (.step stmt)
  if rc = .row then
    let id ← sql (.columnInt stmt 0)
    let device_id ← sql (.columnText stmt 1)
    let data_1 ← sql (.columnDouble stmt 2)
    let data_2 ← sql (.columnDouble stmt 3)
    let data_3 ← sql (.columnDouble stmt 4)
    let data_4 ← sql (.columnDouble stmt 5)
    let timestamp ← sql (.columnText stmt 6)
    -- SQLite text columns may be NULL.
    let line := rowLine id (device_id.getD []) data_1 data_2 data_3 data_4 (timestamp.getD [])
    let (written, buffer) := snprintf s.buffer s.used (buffer_size - s.used) line
    if written < 0 ∨ written.toNat ≥ buffer_size - s.used then
      sql (.finalize stmt)
      return .inr (.error (buffer.set (buffer_size - 1) 0))
    return .inl ⟨buffer, s.used + written.toNat, s.count + 1, id⟩
  return .inr (.ok (rc, s))

/-- `sqlite_db_query_next_batch`, with what `*next_id` and `*row_count` held. -/
def sqliteDbQueryNextBatch (db : Option SqliteDb) (last_id end_id : ℤ) (buffer : Bytes)
    (buffer_size : ℕ) (next_id row_count : ℤ) (is_first_batch : Bool) : Sys D Batch := do
  if noHandle db ∨ buffer_size = 0 then
    return ⟨-1, buffer, next_id, row_count⟩
  let buffer := buffer.set 0 0
  let some stmt ← sql (.prepare .nextBatch)
    | return ⟨-1, buffer, last_id, 0⟩
  if !(← sql (.bindInt stmt 1 last_id)) then
    sql (.finalize stmt)
    return ⟨-1, buffer, last_id, 0⟩
  if !(← sql (.bindInt stmt 2 end_id)) then
    sql (.finalize stmt)
    return ⟨-1, buffer, last_id, 0⟩
  if !(← sql (.bindInt stmt 3 SQLITE_DB_QUERY_BATCH_SIZE)) then
    sql (.finalize stmt)
    return ⟨-1, buffer, last_id, 0⟩
  -- without the header nothing is written and `used` stays 0
  let (written, buffer) :=
    if is_first_batch then snprintf buffer 0 buffer_size headerLine else (0, buffer)
  if is_first_batch ∧ (written < 0 ∨ written.toNat ≥ buffer_size) then
    sql (.finalize stmt)
    return ⟨-1, buffer.set (buffer_size - 1) 0, last_id, 0⟩
  match ← Prog.loop (rowTurn stmt buffer_size) ⟨buffer, written.toNat, 0, last_id⟩ with
  | .error buffer => return ⟨-1, buffer, last_id, 0⟩
  | .ok (rc, s) =>
    if rc ≠ .done then
      sql (.finalize stmt)
      return ⟨-1, s.buffer, last_id, 0⟩
    sql (.finalize stmt)
    return ⟨0, s.buffer, s.current_id, s.count⟩

end SensorGateway
