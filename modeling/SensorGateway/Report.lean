/-
The report a QUERY delivers: one line for each row, in batches.

`renderRow` is the line of a row and `batchText` the text of one batch, which
starts with the header when it is the first.  `batches` cuts the rows of a range
into windows of 20; a report is delivered up to the first batch that does not
fit the buffer.
-/
import SensorGateway.Gateway
import SensorGateway.Paging

open CString Sqlite

namespace SensorGateway

variable {D : Type} [Libc D]

/-- The line of a row; a NULL reads as 0.0 or as the empty text. -/
def renderRow (r : Row D) : Bytes :=
  rowLine r.id r.device_id (r.data_1.getD Libc.zero) (r.data_2.getD Libc.zero)
    (r.data_3.getD Libc.zero) (r.data_4.getD Libc.zero) (r.timestamp.getD [])

def renderRows (rows : List (Row D)) : Bytes := rows.flatMap renderRow

/-- The text of a batch. -/
def batchText (first : Bool) (rows : List (Row D)) : Bytes :=
  (if first then headerLine else []) ++ renderRows rows

/-- The rows per batch. -/
def BATCH_ROWS : ℕ := SQLITE_DB_QUERY_BATCH_SIZE.toNat

/-- The batches of a list of pages: the first one has the header. -/
def batchTexts (ps : List (List (Row D))) : List Bytes :=
  ps.mapIdx fun i p => batchText (i = 0) p

/-- The text that fits the buffer together with its NUL. -/
def Fits (text : Bytes) : Prop := text.length < BATCH_BUFFER_SIZE

instance (text : Bytes) : Decidable (Fits text) := inferInstanceAs (Decidable (_ < _))

/-- The number of batches that `n` rows take. -/
def batchCount (n : ℕ) : ℕ := (n + BATCH_ROWS - 1) / BATCH_ROWS

/-- The `i`-th batch of a report on `rows`. -/
def batchAt (rows : List (Row D)) (i : ℕ) : Bytes :=
  batchText (i = 0) (Paging.window BATCH_ROWS rows i)

/-- The batches of a report on `rows`. -/
def batches (rows : List (Row D)) : List Bytes :=
  (List.range (batchCount rows.length)).map (batchAt rows)

/-- What is delivered of them. -/
def deliverable (rows : List (Row D)) : List Bytes := (batches rows).takeWhile (Fits ·)

/-- The return code. -/
def reportCode (rows : List (Row D)) : ℤ := if ∀ b ∈ batches rows, Fits b then 0 else -1

/-- The whole report on `rows`, nothing at all when there are none. -/
def reportText (rows : List (Row D)) : Bytes :=
  if rows = [] then [] else headerLine ++ renderRows rows

/-- With the return code 0 everything is delivered. -/
theorem deliverable_eq_batches {rows : List (Row D)} (h : reportCode rows = 0) :
    deliverable rows = batches rows := by
  rw [deliverable, List.takeWhile_eq_self_iff]
  intro b hb
  by_contra hb'
  rw [reportCode, if_neg (fun hall => hb' (decide_eq_true (hall b hb)))] at h
  exact absurd h (by decide)

theorem batches_nil : batches ([] : List (Row D)) = [] := by
  have h0 : batchCount 0 = 0 := by decide
  rw [batches, List.length_nil, h0]
  rfl

theorem batchTexts_concat (ps : List (List (Row D))) (p : List (Row D)) :
    batchTexts (ps ++ [p]) = batchTexts ps ++ [batchText (ps = []) p] := by
  simp [batchTexts, List.mapIdx_concat, List.length_eq_zero_iff]

theorem batchTexts_windows (rows : List (Row D)) (m : ℕ) :
    batchTexts ((List.range m).map (Paging.window BATCH_ROWS rows))
      = (List.range m).map (batchAt rows) := by
  induction m with
  | zero => rfl
  | succ m ih =>
    rw [List.range_succ, List.map_append, List.map_append, List.map_singleton, List.map_singleton,
      batchTexts_concat, ih, batchAt]
    simp

/-- However the rows are cut into pages, the batches together are the report. -/
theorem flatten_batchTexts {ps : List (List (Row D))} (hne : ∀ p ∈ ps, p ≠ []) :
    (batchTexts ps).flatten = reportText ps.flatten := by
  induction ps using List.reverseRecOn with
  | nil => simp [batchTexts, reportText]
  | append_singleton ps p ih =>
    have hp : p ≠ [] := hne p (by simp)
    rw [batchTexts_concat, List.flatten_append, ih fun q hq => hne q (by simp [hq]),
      List.flatten_singleton, List.flatten_append, List.flatten_singleton, reportText, reportText]
    rcases eq_or_ne ps [] with rfl | hps
    · simp [hp, batchText]
    · have hflat : ps.flatten ≠ [] := by
        obtain ⟨q, qs, rfl⟩ := List.exists_cons_of_ne_nil hps
        have hq : q ≠ [] := hne q (by simp)
        simp [hq]
      rw [if_neg hflat, if_neg (by simp [hp])]
      simp [batchText, hps, renderRows]

/-! ### Lines -/

/-- The bytes of a number in a report. -/
def numeric : Bytes := bytes "-.0123456789infa"

theorem fmtInt_numeric (i : ℤ) : ∀ c ∈ fmtInt i, c ∈ numeric := by
  have hdig : ∀ c ∈ bytes "0123456789", c ∈ numeric := by decide +kernel
  intro c hc
  rw [fmtInt] at hc
  split at hc
  · rcases List.mem_cons.mp hc with rfl | hc
    · decide
    · exact hdig c (Binary64.mem_decimal hc)
  · exact hdig c (Binary64.mem_decimal hc)

theorem mem_rowLine {c : UInt8} {id : ℤ} {device_id timestamp : Bytes} {d1 d2 d3 d4 : D}
    (h : c ∈ rowLine id device_id d1 d2 d3 d4 timestamp) :
    c ∈ numeric ∨ c ∈ separator ∨ c = 10 ∨ c ∈ fmtStr device_id ∨ c ∈ fmtStr timestamp := by
  have hnl : bytes "\n" = [10] := rfl
  have hnum : ∀ d : D, c ∈ Libc.fmt6 d → c ∈ numeric := fun d => Libc.fmt6_bytes d c
  have hint := fmtInt_numeric id c
  simp only [rowLine, hnl, List.mem_append, List.mem_singleton] at h
  tauto

theorem zero_notMem_renderRow (r : Row D) : (0 : UInt8) ∉ renderRow r := by
  intro h
  rcases mem_rowLine h with h | h | h | h | h
  · exact absurd h (by decide)
  · exact absurd h (by decide)
  · exact absurd h (by decide)
  · exact zero_notMem_fmtStr _ h
  · exact zero_notMem_fmtStr _ h

theorem zero_notMem_batchText (first : Bool) (rows : List (Row D)) :
    (0 : UInt8) ∉ batchText first rows := by
  intro h
  rcases List.mem_append.mp h with h | h
  · cases first
    · cases h
    · exact absurd h (by decide)
  · obtain ⟨r, -, hr⟩ := List.mem_flatMap.mp h
    exact zero_notMem_renderRow r hr

end SensorGateway
