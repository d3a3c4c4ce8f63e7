/-
The calls that the functions of sqlite_db.c can make, whatever they are answered.

All of them go to SQLite (`isSql`), and only the first one prepares a statement:
`sqliteDbQueryNextBatch_eq` shows what follows it (`isLater`).
-/
import SensorGateway.Interpretation
import SensorGateway.SqliteDbSpec

open CString Sqlite

namespace SensorGateway

variable {D : Type} {α : Type}

/-- A SQLite call. -/
def isSql : SysOp D → Bool
  | .sql _ => true
  | _ => false

/-- A SQLite call on a statement that has been prepared. -/
def isLater : SysOp D → Bool
  | .sql (.prepare _) => false
  | .sql _ => true
  | _ => false

/-- There are no calls but those of a kind. -/
abbrev Calls (kind : SysOp D → Bool) (p : Sys D α) : Prop := Prog.Only (fun o => kind o = true) p

theorem Calls.sql {p : Sys D α} (h : Calls isLater p) : Calls isSql p := by
  refine h.mono fun o ho => ?_
  cases o with
  | sql o => rfl
  | _ => cases ho

/-- Leaving a function. -/
theorem finalize_later (h : ℕ) (r : α) :
    Calls isLater ((sql (.finalize h : SqlOp D)).bind fun _ => .ret r) :=
  .perform rfl fun _ => trivial

/-- A bind or a step, after whose failure the function is left. -/
theorem check_later {o : SqlOp D} (ho : isLater (.sql o) = true) {c : SqlAns o → Prop}
    [DecidablePred c] {h : ℕ} {r : α} {p : Sys D α} (hp : Calls isLater p) :
    Calls isLater ((sql o).bind fun a =>
      if c a then (sql (.finalize h)).bind fun _ => .ret r else p) := by
  refine .perform ho fun a => ?_
  split
  · exact finalize_later h r
  · exact hp

theorem sqliteDbInsertSensor_sql (db : Option SqliteDb) (device_id : Bytes) (d1 d2 d3 d4 : D) :
    Calls isSql (sqliteDbInsertSensor db device_id d1 d2 d3 d4) := by
  simp only [sqliteDbInsertSensor, Prog.bind_eq, Prog.pure_eq]
  split
  · trivial
  refine .perform rfl fun stmt => ?_
  cases stmt with
  | none => trivial
  | some h =>
    refine Calls.sql (check_later rfl ?_)
    iterate 5
      refine check_later rfl ?_
    exact finalize_later h 0

theorem sqliteDbGetIdRange_sql (db : Option SqliteDb) (min_id max_id : ℤ) :
    Calls isSql (sqliteDbGetIdRange db min_id max_id : Sys D IdRange) := by
  -- a column is read unless it is NULL
  have hcolumn : ∀ (h i : ℕ) (k : ℤ → Sys D IdRange), (∀ n, Calls isLater (k n)) →
      Calls isLater ((sql (.columnIsNull h i)).bind fun b =>
        if (!b) = true then (sql (.columnInt h i)).bind k else (Prog.ret 0).bind k) := by
    intro h i k hk
    refine .perform rfl fun b => ?_
    split
    · exact .perform rfl hk
    · exact hk 0
  simp only [sqliteDbGetIdRange, Prog.bind_eq, Prog.pure_eq]
  split
  · trivial
  refine .perform rfl fun stmt => ?_
  cases stmt with
  | none => trivial
  | some h =>
    refine Calls.sql (check_later rfl ?_)
    exact hcolumn h 0 _ fun min_id => hcolumn h 1 _ fun max_id => finalize_later h _

variable [Libc D]

theorem rowTurn_later (stmt buffer_size : ℕ) (s : RowLoop) :
    Calls isLater (rowTurn stmt buffer_size s : Sys D _) := by
  simp only [rowTurn, Prog.bind_eq, Prog.pure_eq]
  refine .perform rfl fun rc => ?_
  split
  · iterate 7
      refine .perform rfl fun _ => ?_
    split
    · exact finalize_later stmt _
    · trivial
  · trivial

theorem rowLoop_later (stmt buffer_size : ℕ) (last_id : ℤ) (s : RowLoop) :
    Calls isLater (.iter (rowTurn stmt buffer_size) s (batchExit stmt last_id) : Sys D Batch) := by
  refine ⟨rowTurn_later stmt buffer_size, ?_⟩
  rintro (buffer | ⟨rc, s⟩)
  · trivial
  · rw [batchExit]
    split
    · exact finalize_later stmt _
    · exact finalize_later stmt _

/-- One batch: with its arguments accepted it prepares its statement, and then works on it. -/
theorem sqliteDbQueryNextBatch_eq {db : Option SqliteDb} {buffer_size : ℕ}
    (h : ¬(noHandle db = true ∨ buffer_size = 0)) (last_id end_id : ℤ) (buffer : Bytes)
    (next_id row_count : ℤ) (is_first_batch : Bool) :
    ∃ k : Option ℕ → Sys D Batch, sqliteDbQueryNextBatch db last_id end_id buffer buffer_size
        next_id row_count is_first_batch = (sql (.prepare .nextBatch)).bind k ∧
      ∀ stmt, Calls isLater (k stmt) := by
  simp only [sqliteDbQueryNextBatch, Prog.bind_eq, Prog.pure_eq]
  rw [if_neg h]
  refine ⟨_, rfl, fun stmt => ?_⟩
  cases stmt with
  | none => trivial
  | some stmt =>
    simp only
    iterate 3
      refine check_later rfl ?_
    -- with the header or without
    split
    · split
      · exact finalize_later stmt _
      · exact rowLoop_later stmt buffer_size last_id _
    · split
      · exact finalize_later stmt _
      · exact rowLoop_later stmt buffer_size last_id _

theorem sqliteDbQueryNextBatch_sql (db : Option SqliteDb) (last_id end_id : ℤ) (buffer : Bytes)
    (buffer_size : ℕ) (next_id row_count : ℤ) (is_first_batch : Bool) :
    Calls isSql (sqliteDbQueryNextBatch db last_id end_id buffer buffer_size next_id row_count
      is_first_batch : Sys D Batch) := by
  by_cases h : noHandle db = true ∨ buffer_size = 0
  · simp only [sqliteDbQueryNextBatch, Prog.bind_eq, Prog.pure_eq]
    rw [if_pos h]
    trivial
  · obtain ⟨k, hk, hlater⟩ := sqliteDbQueryNextBatch_eq (D := D) h last_id end_id buffer next_id
      row_count is_first_batch
    rw [hk]
    exact .perform rfl fun stmt => (hlater stmt).sql

end SensorGateway
