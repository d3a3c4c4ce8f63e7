/-
The SQLite library as the gateway uses it: the table `sensor_data` and the
prepared statements over it.

A connection holds the statements a thread has prepared and the table.  Handles
stand for the pointers `sqlite3_prepare_v2` gives out.  `sqlStep` answers an
operation that succeeds; `Fails` lists the answers of one that fails, which
changes nothing in the table.

Design notes: SQLite itself decides the id of a new row and the timestamp, so
both come from `Env`.  The threads of the program share one connection, and a
SELECT on it is not isolated from their inserts: each step reads the table as it
is then.  The program never deletes or changes a row and new ids are above all
earlier ones, so the next row is the one behind those already given.  Binding a
NaN stores NULL, a NULL column reads as 0.0, and an id is read through its low
32 bits, as SQLite documents.  All other doubles are assumed to read back
unchanged; of these a REAL column changes one, a zero that loses its sign.
-/
import SensorGateway.Libc

open CString

namespace Sqlite

variable {D : Type}

/-- One row of `sensor_data`. -/
structure Row (D : Type) where
  id : ℤ
  device_id : Bytes
  data_1 : Option D
  data_2 : Option D
  data_3 : Option D
  data_4 : Option D
  timestamp : Option Bytes
  deriving DecidableEq

/-- What the columns of an INSERT receive; a value that is a NaN is stored as NULL. -/
structure Reading (D : Type) where
  device_id : Bytes
  data_1 : Option D
  data_2 : Option D
  data_3 : Option D
  data_4 : Option D
  deriving DecidableEq

def Row.reading (r : Row D) : Reading D :=
  ⟨r.device_id, r.data_1, r.data_2, r.data_3, r.data_4⟩

/-- The table, in the order of its primary key. -/
structure Table (D : Type) where
  rows : List (Row D)
  sorted : rows.Pairwise fun r r' => r.id < r'.id

instance : EmptyCollection (Table D) := ⟨⟨[], .nil⟩⟩

/-- What the library decides by itself: the id AUTOINCREMENT gives the next row
of a table, and the text of `datetime('now', 'localtime')` when it is inserted. -/
structure Env (D : Type) where
  nextId : Table D → ℤ
  lt_nextId : ∀ T : Table D, ∀ r ∈ T.rows, r.id < nextId T
  nextId_pos : ∀ T, 0 < nextId T
  clock : ℤ → Bytes
  length_clock : ∀ n, (clock n).length = 19
  clock_bytes : ∀ n, ∀ c ∈ clock n, c ∈ bytes "0123456789-: "

/-- The ids 1, 2, 3, … of a table that has seen nothing but inserts. -/
def Env.counting : Env D where
  nextId T := (T.rows.foldr (fun r n => max r.id n) 0) + 1
  lt_nextId T r hr := by
    have key : ∀ l : List (Row D), r ∈ l → r.id ≤ l.foldr (fun r n => max r.id n) 0 := by
      intro l hl
      induction l with
      | nil => cases hl
      | cons x l ih =>
        rcases List.mem_cons.mp hl with rfl | hl
        · exact le_max_left _ _
        · exact (ih hl).trans (le_max_right _ _)
    have := key T.rows hr
    omega
  nextId_pos T := by
    have key : ∀ l : List (Row D), 0 ≤ l.foldr (fun r n => max r.id n) 0 := by
      intro l
      induction l with
      | nil => exact le_rfl
      | cons x l ih => exact ih.trans (le_max_right _ _)
    have := key T.rows
    omega
  clock _ := bytes "2026-01-01 00:00:00"
  length_clock _ := rfl
  clock_bytes _ := by decide +kernel

/-- The row an INSERT adds. -/
def Env.row (env : Env D) (T : Table D) (x : Reading D) : Row D :=
  ⟨env.nextId T, x.device_id, x.data_1, x.data_2, x.data_3, x.data_4,
    some (env.clock (env.nextId T))⟩

/-- `INSERT INTO sensor_data (device_id, data_1, data_2, data_3, data_4)`. -/
def Table.insert (env : Env D) (T : Table D) (x : Reading D) : Table D where
  rows := T.rows ++ [env.row T x]
  sorted := by
    refine List.pairwise_append.mpr ⟨T.sorted, List.pairwise_singleton _ _, ?_⟩
    intro r hr r' hr'
    rw [List.mem_singleton.mp hr']
    exact env.lt_nextId T r hr

/-- The rows with `lo < id` and `id <= hi`, in ascending order. -/
def Table.select (T : Table D) (lo hi : ℤ) : List (Row D) :=
  T.rows.filter fun r => lo < r.id ∧ r.id ≤ hi

/-- The rows with `lo <= id <= hi`. -/
def Table.range (T : Table D) (lo hi : ℤ) : List (Row D) :=
  T.rows.filter fun r => lo ≤ r.id ∧ r.id ≤ hi

theorem Table.range_eq_select (T : Table D) (lo hi : ℤ) : T.range lo hi = T.select (lo - 1) hi := by
  refine List.filter_congr fun r _ => ?_
  rw [decide_eq_decide]
  omega

theorem Table.range_ascending (T : Table D) (lo hi : ℤ) :
    (T.range lo hi).Pairwise fun r r' => r.id < r'.id := T.sorted.filter _

/-! ### Statements -/

/-- The three statements of `sqlite_db.c`. -/
inductive Sql
  /-- `INSERT INTO sensor_data (device_id, data_1, data_2, data_3, data_4)
  VALUES (?, ?, ?, ?, ?);` -/
  | insertSensor
  /-- `SELECT MIN(id), MAX(id) FROM sensor_data;` -/
  | idRange
  /-- `SELECT id, device_id, data_1, data_2, data_3, data_4, timestamp
  FROM sensor_data WHERE id > ? AND id <= ? ORDER BY id ASC LIMIT ?;` -/
  | nextBatch
  deriving DecidableEq

inductive Value (D : Type)
  | null
  | int (n : ℤ)
  | real (d : D)
  | text (b : Bytes)

/-- A prepared statement: its bound parameters, how many result rows it has given
since it was started, and the values of the row it stands on.  `seen` keeps the
table it has found at its latest step, which no answer depends on. -/
structure Stmt (D : Type) where
  sql : Sql
  params : ℕ → Value D
  taken : ℕ
  current : List (Value D)
  seen : Option (Table D)

def Stmt.prepared (sql : Sql) : Stmt D := ⟨sql, fun _ => .null, 0, [], none⟩

def Stmt.bind (s : Stmt D) (i : ℕ) (v : Value D) : Stmt D :=
  { s with params := Function.update s.params i v }

/-- A statement on its next row, found in the table `T`. -/
def Stmt.onRow (s : Stmt D) (T : Table D) (row : List (Value D)) : Stmt D :=
  { s with taken := s.taken + 1, current := row, seen := some T }

/-- Past the last row of `T` it stands on none, and the next step starts it again. -/
def Stmt.over (s : Stmt D) (T : Table D) : Stmt D :=
  { s with taken := 0, current := [], seen := some T }

def realValue : Option D → Value D
  | none => .null
  | some d => .real d

def textValue : Option Bytes → Value D
  | none => .null
  | some b => .text b

def intValue : Option ℤ → Value D
  | none => .null
  | some n => .int n

def Value.real? : Value D → Option D
  | .real d => some d
  | _ => none

def Row.values (r : Row D) : List (Value D) :=
  [.int r.id, .text r.device_id, realValue r.data_1, realValue r.data_2, realValue r.data_3,
    realValue r.data_4, textValue r.timestamp]

/-- The result rows of a SELECT over a table. -/
def Stmt.results (s : Stmt D) (T : Table D) : List (List (Value D)) :=
  match s.sql with
  | .insertSensor => []
  | .idRange => [[intValue (T.rows.map Row.id).min?, intValue (T.rows.map Row.id).max?]]
  | .nextBatch =>
    match s.params 1, s.params 2, s.params 3 with
    | .int lo, .int hi, .int limit => ((T.select lo hi).take limit.toNat).map Row.values
    | _, _, _ => []

/-- What an INSERT stores; without a device_id, which is NOT NULL, it fails. -/
def Stmt.reading? (s : Stmt D) : Option (Reading D) :=
  match s.sql, s.params 1 with
  | .insertSensor, .text device_id =>
    some ⟨device_id, (s.params 2).real?, (s.params 3).real?, (s.params 4).real?,
      (s.params 5).real?⟩
  | _, _ => none

/-! ### Operations -/

/-- The result codes of `sqlite3_step`. -/
inductive StepRc
  | row | done | error
  deriving DecidableEq

/-- Calls of the library.  A bind answers whether it returned `SQLITE_OK`, and
`columnIsNull` whether the type of the column is `SQLITE_NULL`. -/
inductive SqlOp (D : Type)
  | prepare (sql : Sql)
  | bindText (stmt i : ℕ) (v : Bytes)
  | bindDouble (stmt i : ℕ) (v : D)
  | bindInt (stmt i : ℕ) (v : ℤ)
  | step (stmt : ℕ)
  | columnIsNull (stmt i : ℕ)
  | columnInt (stmt i : ℕ)
  | columnDouble (stmt i : ℕ)
  | columnText (stmt i : ℕ)
  | finalize (stmt : ℕ)

abbrev SqlAns : SqlOp D → Type
  | .prepare _ => Option ℕ
  | .bindText _ _ _ => Bool
  | .bindDouble _ _ _ => Bool
  | .bindInt _ _ _ => Bool
  | .step _ => StepRc
  | .columnIsNull _ _ => Bool
  | .columnInt _ _ => ℤ
  | .columnDouble _ _ => D
  | .columnText _ _ => Option Bytes
  | .finalize _ => Unit

/-- The statements of a thread, by handle. -/
abbrev Stmts (D : Type) := List (ℕ × Stmt D)

/-- A handle that no live statement has. -/
def Stmts.fresh (l : Stmts D) : ℕ := (l.map Prod.fst).foldr max 0 + 1

def Stmts.get? (l : Stmts D) (h : ℕ) : Option (Stmt D) :=
  (l.find? fun x => x.1 = h).map Prod.snd

def Stmts.set : Stmts D → ℕ → Stmt D → Stmts D
  | [], _, _ => []
  | x :: l, h, s => if x.1 = h then (h, s) :: l else x :: Stmts.set l h s

def Stmts.remove : Stmts D → ℕ → Stmts D
  | [], _ => []
  | x :: l, h => if x.1 = h then l else x :: Stmts.remove l h

/-- A thread's statements and the table. -/
structure Conn (D : Type) where
  stmts : Stmts D
  table : Table D

/-- Column `i` of the row the statement stands on. -/
def Conn.column (c : Conn D) (h i : ℕ) : Value D :=
  match c.stmts.get? h with
  | none => .null
  | some s => s.current.getD i .null

def Conn.bind (c : Conn D) (h i : ℕ) (v : Value D) : Bool × Conn D :=
  match c.stmts.get? h with
  | none => (false, c)
  | some s => (true, ⟨c.stmts.set h (s.bind i v), c.table⟩)

/-- `sqlite3_step`: an INSERT is carried out, a SELECT moves on to the next row it
has in the table of the moment. -/
def Conn.step (env : Env D) (c : Conn D) (h : ℕ) : StepRc × Conn D :=
  match c.stmts.get? h with
  | none => (.error, c)
  | some s =>
    match s.sql with
    | .insertSensor =>
      match s.reading? with
      | some x => (.done, ⟨c.stmts, c.table.insert env x⟩)
      | none => (.error, c)
    | .idRange | .nextBatch =>
      match (s.results c.table)[s.taken]? with
      | some row => (.row, ⟨c.stmts.set h (s.onRow c.table row), c.table⟩)
      | none => (.done, ⟨c.stmts.set h (s.over c.table), c.table⟩)

/-- The answer of an operation that does not fail. -/
def sqlStep [Libc D] (env : Env D) (c : Conn D) : (o : SqlOp D) → SqlAns o × Conn D
  | .prepare sql =>
    let h := c.stmts.fresh
    (some h, ⟨(h, .prepared sql) :: c.stmts, c.table⟩)
  | .bindText h i v => c.bind h i (.text v)
  | .bindDouble h i v => c.bind h i (if Libc.isNan v then .null else .real v)
  | .bindInt h i v => c.bind h i (.int v)
  | .step h => c.step env h
  | .columnIsNull h i =>
    (match c.column h i with
      | .null => true
      | _ => false, c)
  | .columnInt h i =>
    (match c.column h i with
      | .int n => n.bmod (2 ^ 32)
      | _ => 0, c)
  | .columnDouble h i =>
    (match c.column h i with
      | .real d => d
      | _ => Libc.zero, c)
  | .columnText h i =>
    (match c.column h i with
      | .text b => some b
      | _ => none, c)
  | .finalize h => ((), ⟨c.stmts.remove h, c.table⟩)

/-- The answers of an operation that fails. -/
def Fails : (o : SqlOp D) → SqlAns o → Prop
  | .prepare _, a => a = none
  | .bindText _ _ _, a => a = false
  | .bindDouble _ _ _, a => a = false
  | .bindInt _ _ _, a => a = false
  | .step _, a => a = .error
  | _, _ => False

/-! ### The statement prepared last -/

@[simp] theorem realValue_real? (d : Option D) : (realValue d).real? = d := by
  cases d <;> rfl

@[simp] theorem Stmt.bind_params_self (s : Stmt D) (i : ℕ) (v : Value D) :
    (s.bind i v).params i = v := by simp [Stmt.bind]

@[simp] theorem Stmt.bind_params_ne (s : Stmt D) {i j : ℕ} (hij : j ≠ i) (v : Value D) :
    (s.bind i v).params j = s.params j := by simp [Stmt.bind, hij]

@[simp] theorem Stmts.get?_cons (h : ℕ) (s : Stmt D) (l : Stmts D) :
    Stmts.get? ((h, s) :: l) h = some s := by simp [Stmts.get?]

@[simp] theorem Stmts.set_cons (h : ℕ) (s s' : Stmt D) (l : Stmts D) :
    Stmts.set ((h, s) :: l) h s' = (h, s') :: l := by simp [Stmts.set]

@[simp] theorem Stmts.remove_cons (h : ℕ) (s : Stmt D) (l : Stmts D) :
    Stmts.remove ((h, s) :: l) h = l := by simp [Stmts.remove]

end Sqlite
