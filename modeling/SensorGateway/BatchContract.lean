/-
The contract of one batch.

* `batchContract` — with no SQLite failure `sqlite_db_query_next_batch` returns 0
  just when the text of the batch, with its NUL, fits the buffer; the buffer then
  holds that text, and otherwise -1 is returned and nothing has been moved on;
* `used_lt` — whenever a row is to be rendered the offset lies inside the buffer,
  so `buffer_size - used` does not wrap, whatever SQLite answers.
-/
import SensorGateway.Remainders
import SensorGateway.SqliteDbSpec

open CString Sqlite

namespace SensorGateway

variable {D : Type} [Libc D] {last e : ℤ} {size : ℕ} {first : Bool}

/-! ### The offset -/

/-- The offset of the row loop lies inside the buffer. -/
def Inside (size : ℕ) (σ : Type) (s : σ) : Prop := ∀ h : σ = RowLoop, (cast h s).used < size

omit [Libc D] in
theorem inside_iff {s : RowLoop} : Inside size RowLoop s ↔ s.used < size :=
  ⟨fun h => h rfl, fun h _ => h⟩

omit [Libc D] in
theorem sql_keeps {J : (σ : Type) → σ → Prop} (o : SqlOp D) {α : Type} {k : SqlAns o → Sys D α}
    {Q : α → Prop} (hk : ∀ a, Prog.Keeps J (k a) Q) : Prog.Keeps J ((sql o).bind k) Q := hk

theorem rowTurn_keeps (stmt : ℕ) {s : RowLoop} (hs : s.used < size)
    {Q : Except Bytes (StepRc × RowLoop) → Prop} (hQ : ∀ r, Q r) :
    Prog.Keeps (Inside size) (rowTurn stmt size s : Sys D _)
      (Sum.elim (Inside size RowLoop) Q) := by
  simp only [rowTurn, Prog.bind_eq, Prog.pure_eq]
  refine sql_keeps _ fun rc => ?_
  split
  · iterate 7
      refine sql_keeps _ fun _ => ?_
    split
    · exact sql_keeps _ fun _ => hQ _
    · -- the row has fitted
      rename_i hfit
      refine inside_iff.mpr ?_
      show s.used + _ < size
      omega
  · exact hQ _

omit [Libc D] in
theorem finalize_keeps {J : (σ : Type) → σ → Prop} (h : ℕ) (b : Batch) : Prog.Keeps J
    ((sql (.finalize h : SqlOp D)).bind fun _ => .ret b) fun _ => True :=
  sql_keeps _ fun _ => trivial

theorem rowLoop_keeps (h : ℕ) (last : ℤ) {s : RowLoop} (hs : s.used < size) :
    Prog.Keeps (Inside size) (.iter (rowTurn h size) s (batchExit h last) : Sys D Batch)
      fun _ => True := by
  refine ⟨inside_iff.mpr hs, fun s hs => rowTurn_keeps h (inside_iff.mp hs) ?_⟩
  rintro (buffer | ⟨rc, s⟩)
  · trivial
  · rw [batchExit]
    split
    · exact finalize_keeps _ _
    · exact finalize_keeps _ _

theorem queryNextBatch_keeps (db : Option SqliteDb) (last e : ℤ) (buffer : Bytes)
    (next₀ count₀ : ℤ) (first : Bool) :
    Prog.Keeps (Inside size)
      (sqliteDbQueryNextBatch db last e buffer size next₀ count₀ first : Sys D Batch)
      fun _ => True := by
  simp only [sqliteDbQueryNextBatch, Prog.bind_eq, Prog.pure_eq]
  split
  · trivial
  rename_i hsize
  refine sql_keeps _ fun stmt => ?_
  split
  · iterate 3
      refine sql_keeps _ fun _ => ?_
      split
      · exact finalize_keeps _ _
    -- with or without the header
    split
    · split
      · exact finalize_keeps _ _
      · rename_i hfirst hstart
        refine rowLoop_keeps _ last ?_
        show (snprintf (buffer.set 0 0) 0 size headerLine).1.toNat < size
        have hshort := not_or.mp fun h => hstart ⟨hfirst, h⟩
        omega
    · split
      · exact finalize_keeps _ _
      · refine rowLoop_keeps _ last ?_
        show (0 : ℤ).toNat < size
        omega
  · trivial

theorem used_lt {db : Option SqliteDb} {buffer : Bytes} {next₀ count₀ : ℤ} {stmt : ℕ}
    {s : RowLoop} {k : Except Bytes (StepRc × RowLoop) → Sys D Batch}
    (h : Prog.Left (sqliteDbQueryNextBatch db last e buffer size next₀ count₀ first)
      (.iter (rowTurn stmt size) s k)) : s.used < size :=
  inside_iff.mp ((queryNextBatch_keeps db last e buffer next₀ count₀ first).left h).1

/-! ### The results -/

/-- The first rows above `last`, up to `e`, at most 20 of them. -/
def firstRows (T : Table D) (last e : ℤ) : List (Row D) :=
  (T.select last e).take SQLITE_DB_QUERY_BATCH_SIZE.toNat

omit [Libc D] in
theorem firstRows_ascending (T : Table D) (last e : ℤ) :
    (firstRows T last e).Pairwise fun r r' => r.id < r'.id :=
  (T.sorted.filter _).take

/-- What a batch of `T` for a buffer of `size` bytes returns. -/
structure BatchContract (T : Table D) (last e : ℤ) (size : ℕ) (first : Bool) (b : Batch) :
    Prop where
  rc : b.rc = 0 ∨ b.rc = -1
  fits : b.rc = 0 ↔ (batchText first (firstRows T last e)).length ≤ size - 1
  length : b.buffer.length = size
  done : b.rc = 0 → (∃ junk, b.buffer = batchText first (firstRows T last e) ++ 0 :: junk) ∧
    b.row_count = (firstRows T last e).length ∧
    b.next_id = ((firstRows T last e).getLast?.map Row.id).getD last
  failed : b.rc = -1 → b.next_id = last ∧ b.row_count = 0 ∧ 0 ∈ b.buffer

variable {env : Env D} {w : World D} {b : Batch} {w₁ : World D} {T : Table D}

theorem BatchDone.contract (hpos : 0 < size)
    (h : BatchDone quietMode w last e size first T b w₁) :
    BatchContract w.table last e size first b := by
  obtain rfl : w.table = T := h.grows
  have hfits := h.fits
  refine ⟨.inl h.rc, ?_, h.length, fun _ => ⟨h.buffer, h.row_count, ?_⟩, fun hrc => ?_⟩
  · rw [h.rc]
    exact ⟨fun _ => by show (batchText first (idWindow w.table last e)).length ≤ _; omega,
      fun _ => rfl⟩
  · rw [h.next_id, Paging.reached, List.flatten_singleton]
    rfl
  · rw [h.rc] at hrc
    exact absurd hrc (by decide)

theorem BatchFailed.contract (hpos : 0 < size)
    (h : BatchFailed quietMode w last e size first b w₁) :
    BatchContract w.table last e size first b := by
  obtain ⟨T, Rs, f, hT, -, ⟨-, hM⟩ | ⟨-, -, hlong⟩⟩ := h.cause
  · exact hM.elim
  obtain rfl : w.table = T := hT
  have hrc : b.rc ≠ 0 := by
    rw [h.rc]
    decide
  refine ⟨.inr h.rc, ?_, h.length, fun h0 => absurd h0 hrc, fun _ =>
    ⟨h.next_id, h.row_count, h.terminated⟩⟩
  refine ⟨fun h0 => absurd h0 hrc, fun hle => ?_⟩
  have hle' : (batchText first (idWindow w.table last e)).length ≤ size - 1 := hle
  omega

/-- sqlite_db_query_next_batch does what it promises on the table it finds. -/
structure BatchKept (env : Env D) (accept : ℕ → ℕ) (c : ℕ) (w : World D) (last e : ℤ)
    (buffer : Bytes) (next₀ count₀ : ℤ) (first : Bool) : Prop where
  returns : ∃ b w₁, Prog.Evals (quiet env accept)
    (sqliteDbQueryNextBatch (some ⟨some c⟩) last e buffer buffer.length next₀ count₀ first)
    w b w₁ ∧ BatchContract w.table last e buffer.length first b
  offset : ∀ (stmt : ℕ) (s : RowLoop) (k : Except Bytes (StepRc × RowLoop) → Sys D Batch),
    Prog.Left
      (sqliteDbQueryNextBatch (some ⟨some c⟩) last e buffer buffer.length next₀ count₀ first)
      (.iter (rowTurn stmt buffer.length) s k) → s.used < buffer.length

theorem batchContract (env : Env D) (accept : ℕ → ℕ) (c : ℕ) (w : World D) {last e : ℤ}
    (hlast : -2 ^ 31 ≤ last) (he : e < 2 ^ 31) {buffer : Bytes} (hpos : 0 < buffer.length)
    (next₀ count₀ : ℤ) (first : Bool) :
    BatchKept env accept c w last e buffer next₀ count₀ first := by
  constructor
  · have hwp : Prog.wp True (surroundings env quietMode)
        (sqliteDbQueryNextBatch (some ⟨some c⟩) last e buffer buffer.length next₀ count₀ first)
        (fun b _ => BatchContract w.table last e buffer.length first b) w := by
      refine sqliteDbQueryNextBatch_wp hlast he rfl hpos ?_ ?_
      · intro T' b w₁ hb
        exact hb.contract hpos
      · intro b w₁ hb
        exact hb.contract hpos
    exact quiet_evals accept hwp
  · intro stmt s k h
    exact used_lt h

/-- The table that three readings leave in an empty database. -/
def threeRows : Table Binary64 :=
  (List.replicate 3 ⟨bytes "a", some Libc.zero, none, some Libc.zero, some Libc.zero⟩).foldl
    (Table.insert Env.counting) ∅

/-- The bytes of its first batch. -/
def threeRowsLength : ℕ := (batchText true (firstRows threeRows 0 20)).length

/-- The batch fits a buffer that has room for its NUL, and none that is a byte shorter. -/
theorem batchContract_threeRows : ∃ b b' w₁ w₂,
    Prog.Evals (quiet Env.counting id) (sqliteDbQueryNextBatch (some ⟨some 0⟩) 0 20
      (List.replicate (threeRowsLength + 1) 0) (threeRowsLength + 1) 0 0 true)
      ⟨[], threeRows, [], false, [], [], [], []⟩ b w₁ ∧
    b.rc = 0 ∧ b.row_count = 3 ∧ b.next_id = 3 ∧
    b.buffer = batchText true threeRows.rows ++ [0] ∧
    Prog.Evals (quiet Env.counting id) (sqliteDbQueryNextBatch (some ⟨some 0⟩) 0 20
      (List.replicate threeRowsLength 0) threeRowsLength 0 0 true)
      ⟨[], threeRows, [], false, [], [], [], []⟩ b' w₂ ∧
    b'.rc = -1 ∧ b'.row_count = 0 ∧ b'.next_id = 0 := by
  have hpos : 0 < threeRowsLength := by decide +kernel
  have hroom : BatchKept Env.counting id 0 ⟨[], threeRows, [], false, [], [], [], []⟩ 0 20
      (List.replicate (threeRowsLength + 1) 0) 0 0 true :=
    batchContract Env.counting id 0 _ (by decide) (by decide) (by simp) 0 0 true
  have hshort : BatchKept Env.counting id 0 ⟨[], threeRows, [], false, [], [], [], []⟩ 0 20
      (List.replicate threeRowsLength 0) 0 0 true :=
    batchContract Env.counting id 0 _ (by decide) (by decide) (by simpa using hpos) 0 0 true
  obtain ⟨b, w₁, hrun, hb⟩ := hroom.returns
  obtain ⟨b', w₂, hrun', hb'⟩ := hshort.returns
  rw [List.length_replicate] at hrun hb hrun' hb'
  have htext : (batchText true (firstRows threeRows 0 20)).length = threeRowsLength := by
    rw [threeRowsLength]
  have hzero : b.rc = 0 := by
    refine hb.fits.mpr ?_
    show (batchText true (firstRows threeRows 0 20)).length ≤ threeRowsLength + 1 - 1
    omega
  have hne : ¬ b'.rc = 0 := by
    intro h0
    have hle : (batchText true (firstRows threeRows 0 20)).length ≤ threeRowsLength - 1 :=
      hb'.fits.mp h0
    omega
  have hneg : b'.rc = -1 := hb'.rc.resolve_left hne
  obtain ⟨⟨junk, hjunk⟩, hcount, hnext⟩ := hb.done hzero
  obtain ⟨hnext', hcount', -⟩ := hb'.failed hneg
  -- there is room for the NUL, and for nothing behind it
  obtain rfl : junk = [] := by
    have hlen := hb.length
    rw [hjunk, List.length_append, List.length_cons] at hlen
    change (batchText true (firstRows threeRows 0 20)).length + _ = _ at hlen
    exact List.length_eq_zero_iff.mp (by omega)
  exact ⟨b, b', w₁, w₂, hrun, hzero, hcount, hnext, hjunk, hrun', hneg, hcount', hnext'⟩

end SensorGateway
