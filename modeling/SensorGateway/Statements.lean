/-
Prepared statements.

Each of the three functions of sqlite_db.c prepares one statement and has to finalize
it on every way out.  They are run here with all their calls written down, whatever
SQLite answers.

* `statement_finalizedOnce` — a statement that has been prepared is finalized once,
  as the last thing that is done with it, and the functions do come to their end;
  without a prepared statement none is touched;
* `StmtLife` — the calls in order, from which this is read off.
-/
import SensorGateway.SqliteDbSpec
import SensorGateway.Traces

open CString Sqlite

namespace SensorGateway

namespace Statements

variable {D : Type} {h : ℕ}

abbrev Log (D : Type) := List (Prog.Event (SysOp D) SysAns)

/-- The statement that a bind, step or column call is made on. -/
def usedStmt : SysOp D → Option ℕ
  | .sql (.bindText stmt _ _) => some stmt
  | .sql (.bindDouble stmt _ _) => some stmt
  | .sql (.bindInt stmt _ _) => some stmt
  | .sql (.step stmt) => some stmt
  | .sql (.columnIsNull stmt _) => some stmt
  | .sql (.columnInt stmt _) => some stmt
  | .sql (.columnDouble stmt _) => some stmt
  | .sql (.columnText stmt _) => some stmt
  | _ => none

def finalizedStmt : SysOp D → Option ℕ
  | .sql (.finalize stmt) => some stmt
  | _ => none

/-- What is asked of the calls of a function. -/
structure FinalizedOnce (l : Log D) : Prop where
  once : ∀ q h, ⟨.sql (.prepare q), some h⟩ ∈ l →
    Prog.hits (fun o => finalizedStmt o = some h) l = 1
  /-- Nothing is done with a statement that has been finalized. -/
  after : l.Pairwise fun x y => ∀ h, finalizedStmt x.1 = some h →
    usedStmt y.1 ≠ some h ∧ finalizedStmt y.1 ≠ some h
  /-- A call on a statement comes after it has been prepared. -/
  before : ∀ l₁ x l₂ h, l = l₁ ++ x :: l₂ → usedStmt x.1 = some h ∨ finalizedStmt x.1 = some h →
    ∃ q, ⟨.sql (.prepare q), some h⟩ ∈ l₁

/-- What is asked of a function, whatever its calls are answered. -/
structure FinalizesOnce {α : Type} (p : Sys D α) : Prop where
  ends : ∀ {W : Type} (sem : W → (o : SysOp D) → SysAns o → W → Prop) (w : W),
    Prog.Ends (Prog.traced sem) p (w, [])
  calls : ∀ {W : Type} (sem : W → (o : SysOp D) → SysAns o → W → Prop) (w w' : W) (r : α)
    (l : Log D), Prog.Runs (Prog.traced sem) p (w, []) r (w', l) → FinalizedOnce l

/-! ### The life of a statement -/

/-- The calls of one of the functions, in order: none when the arguments are rejected,
a failed prepare, or a statement that is prepared, used and finalized. -/
inductive StmtLife : Log D → Prop
  | rejected : StmtLife []
  | unprepared (q : Sql) : StmtLife [⟨.sql (.prepare q), none⟩]
  | finalized (q : Sql) (h : ℕ) {l : Log D} (hl : ∀ x ∈ l, usedStmt x.1 = some h) :
      StmtLife (⟨.sql (.prepare q), some h⟩ :: l ++ [⟨.sql (.finalize h), ()⟩])

theorem finalizedStmt_eq_none {o : SysOp D} (ho : usedStmt o = some h) :
    finalizedStmt o = none := by
  cases o with
  | sql o =>
    cases o with
    | finalize stmt => cases ho
    | _ => rfl
  | _ => cases ho

section life

variable {q : Sql} {h₀ : ℕ} {l : Log D} (hl : ∀ x ∈ l, usedStmt x.1 = some h₀)
include hl

/-- Nothing is finalized before the end. -/
theorem finalizedStmt_of_mem_life {x : Prog.Event (SysOp D) SysAns}
    (hx : x ∈ ⟨.sql (.prepare q), some h₀⟩ :: l) : finalizedStmt x.1 = none := by
  cases hx with
  | head => rfl
  | tail _ hx => exact finalizedStmt_eq_none (hl x hx)

/-- All is done with the one statement. -/
theorem eq_of_mem_life {x : Prog.Event (SysOp D) SysAns}
    (hx : x ∈ l ++ [⟨.sql (.finalize h₀), ()⟩])
    (hstmt : usedStmt x.1 = some h ∨ finalizedStmt x.1 = some h) : h₀ = h := by
  rw [List.mem_append, List.mem_singleton] at hx
  rcases hx with hx | rfl
  · have hfin := finalizedStmt_eq_none (hl x hx)
    rw [hl x hx, hfin] at hstmt
    simpa using hstmt
  · simpa [usedStmt, finalizedStmt] using hstmt

theorem life_once (q' : Sql)
    (hmem : ⟨.sql (.prepare q'), some h⟩ ∈
      (⟨.sql (.prepare q), some h₀⟩ :: l ++ [⟨.sql (.finalize h₀), ()⟩] : Log D)) :
    Prog.hits (fun o => finalizedStmt o = some h)
      (⟨.sql (.prepare q), some h₀⟩ :: l ++ [⟨.sql (.finalize h₀), ()⟩] : Log D) = 1 := by
  obtain rfl : h = h₀ := by
    rw [List.mem_append, List.mem_cons] at hmem
    rcases hmem with (hmem | hmem) | hmem
    · cases hmem
      rfl
    · exact absurd (hl _ hmem) (by simp [usedStmt])
    · simp at hmem
  have hzero : Prog.hits (fun o => finalizedStmt o = some h)
      (⟨.sql (.prepare q), some h⟩ :: l : Log D) = 0 := by
    rw [Prog.hits, List.countP_eq_zero]
    intro x hx
    simp [finalizedStmt_of_mem_life hl hx]
  rw [Prog.hits, List.countP_append]
  rw [Prog.hits] at hzero
  rw [hzero]
  simp [finalizedStmt]

end life

theorem StmtLife.finalizedOnce {l : Log D} (hl : StmtLife l) : FinalizedOnce l := by
  cases hl with
  | rejected => exact ⟨by simp, .nil, by simp⟩
  | unprepared q =>
    refine ⟨fun q h hmem => ?_, List.pairwise_singleton _ _, fun l₁ x l₂ h heq hx => ?_⟩
    · simp at hmem
    · obtain ⟨rfl, -, -⟩ : x = ⟨.sql (.prepare q), none⟩ ∧ l₁ = [] ∧ l₂ = [] := by
        cases l₁ with
        | nil => simpa using heq.symm
        | cons y l₁ => simp at heq
      simp [usedStmt, finalizedStmt] at hx
  | @finalized q h₀ l hl =>
    refine ⟨fun q' h hmem => life_once hl q' hmem, ?_, fun l₁ x l₂ h heq hx => ?_⟩
    · -- only the last call finalizes
      refine List.pairwise_append.mpr ⟨?_, List.pairwise_singleton _ _, ?_⟩
      · refine List.pairwise_of_forall_mem_list fun x hx y _ h hfin => ?_
        rw [finalizedStmt_of_mem_life hl hx] at hfin
        cases hfin
      · intro x hx y _ h hfin
        rw [finalizedStmt_of_mem_life hl hx] at hfin
        cases hfin
    · cases l₁ with
      | nil =>
        obtain ⟨rfl, -⟩ := List.cons.inj heq
        simp [usedStmt, finalizedStmt] at hx
      | cons y l₁ =>
        obtain ⟨rfl, htail⟩ := List.cons.inj heq
        have hmem : x ∈ l ++ [⟨.sql (.finalize h₀), ()⟩] := by
          rw [show l ++ _ = l₁ ++ x :: l₂ from htail]
          simp
        obtain rfl := eq_of_mem_life hl hmem hx
        exact ⟨q, List.mem_cons_self⟩

/-! ### The functions -/

/-- The statement has been prepared, and used since. -/
def Open (h : ℕ) (l : Log D) : Prop :=
  ∃ q l', l = ⟨.sql (.prepare q), some h⟩ :: l' ∧ ∀ x ∈ l', usedStmt x.1 = some h

/-- The calls are looked at whatever they answer. -/
abbrev anyAnswer : Prog.OpSpec (SysOp D) SysAns (Log D) := Prog.recording fun _ _ => True

variable {α : Type} {l : Log D} {Q : α → Log D → Prop}

theorem Open.use (hl : Open h l) {o : SysOp D} (ho : usedStmt o = some h) (a : SysAns o) :
    Open h (l ++ [⟨o, a⟩]) := by
  obtain ⟨q, l', rfl, hl'⟩ := hl
  refine ⟨q, l' ++ [⟨o, a⟩], rfl, ?_⟩
  intro x hx
  rw [List.mem_append, List.mem_singleton] at hx
  rcases hx with hx | rfl
  · exact hl' x hx
  · exact ho

theorem Open.finalize (hl : Open h l) : StmtLife (l ++ [⟨.sql (.finalize h), ()⟩]) := by
  obtain ⟨q, l', rfl, hl'⟩ := hl
  exact .finalized q h hl'

theorem prepare_wp {q : Sql} {k : Option ℕ → Sys D α}
    (hnone : Prog.wp True anyAnswer (k none) Q [⟨.sql (.prepare q), none⟩])
    (hsome : ∀ h l, Open h l → Prog.wp True anyAnswer (k (some h)) Q l) :
    Prog.wp True anyAnswer ((sql (.prepare q)).bind k) Q [] := by
  refine Prog.wp_perform trivial ?_
  rintro a l ⟨-, rfl⟩
  cases a with
  | none => exact hnone
  | some h => exact hsome h _ ⟨q, [], rfl, by simp⟩

theorem Open.wp_use (hl : Open h l) {o : SqlOp D} (ho : usedStmt (.sql o) = some h)
    {k : SqlAns o → Sys D α} (hk : ∀ a l, Open h l → Prog.wp True anyAnswer (k a) Q l) :
    Prog.wp True anyAnswer ((sql o).bind k) Q l := by
  refine Prog.wp_perform trivial ?_
  rintro a l' ⟨-, rfl⟩
  exact hk a _ (hl.use ho a)

/-- Leaving a function. -/
theorem Open.wp_exit (hl : Open h l) {r : α} (hQ : ∀ l, StmtLife l → Q r l) :
    Prog.wp True anyAnswer ((sql (.finalize h : SqlOp D)).bind fun _ => .ret r) Q l := by
  refine Prog.wp_perform trivial ?_
  rintro a l' ⟨-, rfl⟩
  exact hQ _ hl.finalize

/-- A bind or the last step, after whose failure the function is left. -/
theorem Open.wp_check (hl : Open h l) {o : SqlOp D} (ho : usedStmt (.sql o) = some h)
    {c : SqlAns o → Prop} [DecidablePred c] {r : α} {p : Sys D α}
    (hp : ∀ l, Open h l → Prog.wp True anyAnswer p (fun _ l => StmtLife l) l) :
    Prog.wp True anyAnswer ((sql o).bind fun a =>
      if c a then (sql (.finalize h)).bind fun _ => .ret r else p) (fun _ l => StmtLife l) l := by
  refine hl.wp_use ho fun a l hl => ?_
  split
  · exact hl.wp_exit fun _ hlife => hlife
  · exact hp l hl

theorem sqliteDbInsertSensor_life (db : Option SqliteDb) (device_id : Bytes)
    (d1 d2 d3 d4 : D) : Prog.wp True anyAnswer (sqliteDbInsertSensor db device_id d1 d2 d3 d4)
      (fun _ l => StmtLife l) [] := by
  simp only [sqliteDbInsertSensor, Prog.bind_eq, Prog.pure_eq]
  split
  · exact .rejected
  refine prepare_wp (.unprepared _) fun h l hl => ?_
  simp only
  refine hl.wp_check rfl fun l hl => ?_
  iterate 4
    refine hl.wp_check rfl fun l hl => ?_
  refine hl.wp_check rfl fun l hl => ?_
  exact hl.wp_exit fun _ hlife => hlife

theorem sqliteDbGetIdRange_life (db : Option SqliteDb) (min_id max_id : ℤ) :
    Prog.wp True anyAnswer (sqliteDbGetIdRange db min_id max_id : Sys D IdRange)
      (fun _ l => StmtLife l) [] := by
  simp only [sqliteDbGetIdRange, Prog.bind_eq, Prog.pure_eq]
  split
  · exact .rejected
  refine prepare_wp (.unprepared _) fun h l hl => ?_
  -- a column is read unless it is NULL
  have hcolumn : ∀ (i : ℕ) (k : ℤ → Sys D IdRange) (l : Log D), Open h l →
      (∀ n l, Open h l → Prog.wp True anyAnswer (k n) (fun _ l => StmtLife l) l) →
      Prog.wp True anyAnswer ((sql (.columnIsNull h i)).bind fun b =>
        if (!b) = true then (sql (.columnInt h i)).bind k else (Prog.ret 0).bind k)
        (fun _ l => StmtLife l) l := by
    intro i k l hl hk
    refine hl.wp_use rfl fun b l hl => ?_
    split
    · exact hl.wp_use rfl hk
    · exact hk 0 l hl
  refine hl.wp_check rfl fun l hl => ?_
  refine hcolumn 0 _ l hl fun min_id l hl => ?_
  refine hcolumn 1 _ l hl fun max_id l hl => ?_
  exact hl.wp_exit fun _ hlife => hlife

section batch

variable [Libc D]

theorem rowLine_length_pos (id : ℤ) (device_id timestamp : Bytes) (d1 d2 d3 d4 : D) :
    0 < (rowLine id device_id d1 d2 d3 d4 timestamp).length := by
  have hend : (bytes "\n").length = 1 := rfl
  rw [rowLine, List.length_append]
  omega

/-- One turn of the row loop: it goes on only if the row fits, and then the room left
in the buffer gets smaller. -/
theorem rowTurn_life (size : ℕ) (s : RowLoop) (hl : Open h l) :
    Prog.wp True anyAnswer (rowTurn h size s : Sys D _)
      (Sum.elim (fun s' l => size - s'.used < size - s.used ∧ Open h l) fun r l =>
        match r with
        | .error _ => StmtLife l
        | .ok _ => Open h l) l := by
  simp only [rowTurn, Prog.bind_eq, Prog.pure_eq]
  refine hl.wp_use rfl fun rc l hl => ?_
  split
  · refine hl.wp_use rfl fun id l hl => ?_
    refine hl.wp_use rfl fun device_id l hl => ?_
    refine hl.wp_use rfl fun d1 l hl => ?_
    refine hl.wp_use rfl fun d2 l hl => ?_
    refine hl.wp_use rfl fun d3 l hl => ?_
    refine hl.wp_use rfl fun d4 l hl => ?_
    refine hl.wp_use rfl fun timestamp l hl => ?_
    have hpos := rowLine_length_pos id (device_id.getD []) (timestamp.getD []) d1 d2 d3 d4
    split
    · exact hl.wp_exit fun _ hlife => hlife
    · rename_i hfits
      simp only [snprintf, Int.toNat_natCast] at hfits ⊢
      refine ⟨?_, hl⟩
      simp only
      omega
  · exact hl

theorem rowLoop_life (last : ℤ) (size : ℕ) (s : RowLoop) (hl : Open h l) :
    Prog.wp True anyAnswer (.iter (rowTurn h size) s (batchExit h last) : Sys D Batch)
      (fun _ l => StmtLife l) l := by
  refine Prog.wp_while (fun n s l => n = size - s.used ∧ Open h l) _ ⟨rfl, hl⟩ ?_
  rintro n s l ⟨rfl, hl⟩
  refine Prog.wp_mono ?_ (rowTurn_life size s hl)
  rintro (s' | buffer | ⟨rc, s'⟩) l hl
  · exact ⟨_, fun _ => hl.1, rfl, hl.2⟩
  · exact hl
  · rw [Sum.elim_inr, batchExit]
    split
    · exact Open.wp_exit hl fun _ hlife => hlife
    · exact Open.wp_exit hl fun _ hlife => hlife

theorem sqliteDbQueryNextBatch_life (db : Option SqliteDb) (last_id end_id : ℤ)
    (buffer : Bytes) (buffer_size : ℕ) (next_id row_count : ℤ) (is_first_batch : Bool) :
    Prog.wp True anyAnswer (sqliteDbQueryNextBatch db last_id end_id buffer buffer_size next_id
      row_count is_first_batch : Sys D Batch) (fun _ l => StmtLife l) [] := by
  simp only [sqliteDbQueryNextBatch, Prog.bind_eq, Prog.pure_eq]
  split
  · exact .rejected
  refine prepare_wp (.unprepared _) fun h l hl => ?_
  simp only
  refine hl.wp_check rfl fun l hl => ?_
  refine hl.wp_check rfl fun l hl => ?_
  refine hl.wp_check rfl fun l hl => ?_
  -- with the header or without
  split
  · split
    · exact hl.wp_exit fun _ hlife => hlife
    · exact rowLoop_life last_id buffer_size _ hl
  · split
    · exact hl.wp_exit fun _ hlife => hlife
    · exact rowLoop_life last_id buffer_size _ hl

end batch

theorem FinalizesOnce.of_wp {p : Sys D α}
    (hp : Prog.wp True anyAnswer p (fun _ l => StmtLife l) []) : FinalizesOnce p where
  ends _ _ := Prog.recording_ends hp
  calls _ _ _ _ _ hrun :=
    (Prog.recording_runs (fun _ _ _ _ _ => trivial) hrun hp).finalizedOnce

/-- Each of the three functions finalizes what it has prepared exactly once, on every
way through it. -/
theorem statement_finalizedOnce (D : Type) [Libc D] :
    (∀ (db : Option SqliteDb) (device_id : Bytes) (data_1 data_2 data_3 data_4 : D),
      FinalizesOnce (sqliteDbInsertSensor db device_id data_1 data_2 data_3 data_4)) ∧
    (∀ (db : Option SqliteDb) (min_id max_id : ℤ),
      FinalizesOnce (sqliteDbGetIdRange db min_id max_id : Sys D IdRange)) ∧
    ∀ (db : Option SqliteDb) (last_id end_id : ℤ) (buffer : Bytes) (buffer_size : ℕ)
      (next_id row_count : ℤ) (is_first_batch : Bool),
      FinalizesOnce (sqliteDbQueryNextBatch db last_id end_id buffer buffer_size next_id row_count
        is_first_batch : Sys D Batch) := by
  refine ⟨fun db device_id d1 d2 d3 d4 => ?_, fun db min_id max_id => ?_, ?_⟩
  · exact .of_wp (sqliteDbInsertSensor_life db device_id d1 d2 d3 d4)
  · exact .of_wp (sqliteDbGetIdRange_life db min_id max_id)
  · intro db last_id end_id buffer buffer_size next_id row_count is_first_batch
    exact .of_wp (sqliteDbQueryNextBatch_life db last_id end_id buffer buffer_size next_id
      row_count is_first_batch)

end Statements

end SensorGateway
