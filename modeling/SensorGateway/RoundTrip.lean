/-
What SENSOR stores and what QUERY then shows.

SQLite stores NULL for a NaN, and a NULL column reads back as 0.0, so a reading
with a NaN in it comes back as another one.

* `showsStored_iff` — the row of an acknowledged SENSOR command is shown as it
  was sent if and only if none of its four values is a NaN;
* `nan_shown_as_zero` — `SENSOR,d,nan,1,2,3` is shown as `0.000000`.
-/
import SensorGateway.ReportFormat

open CString Sqlite TcpParser

namespace SensorGateway

variable {D : Type} [Libc D] {env : Env D} {accept : ℕ → ℕ} {c : ℕ} {input : Bytes}
  {w : World D} {d : SensorData D}

/-- The line that shows a reading as it was sent, in the row with id `n`. -/
def sentLine (env : Env D) (n : ℤ) (d : SensorData D) : Bytes :=
  separator.intercalate [fmtInt n, d.device_id, Libc.fmt6 d.data_1, Libc.fmt6 d.data_2,
    Libc.fmt6 d.data_3, Libc.fmt6 d.data_4, env.clock n] ++ bytes "\n"

/-- The SENSOR command is answered with OK, and a QUERY for the id `n` of its new
row delivers the line with what was sent. -/
def ShowsStored (env : Env D) (accept : ℕ → ℕ) (c : ℕ) (w : World D) (input : Bytes)
    (d : SensorData D) (n : ℕ) : Prop :=
  ∃ w₁ w₂, Processes env accept c input w 0 (bytes "OK\n") w₁ ∧
    Processes env accept c (queryText n n) w₁ 0 [] w₂ ∧
    w₂.delivered = w₁.delivered ++ [headerLine ++ sentLine env n d]

/-! ### The new row -/

omit [Libc D] in
/-- The new row is the only one with its id. -/
theorem range_insert (T : Table D) (x : Reading D) :
    (T.insert env x).range (env.nextId T) (env.nextId T) = [env.row T x] := by
  have hold : T.rows.filter (fun r => env.nextId T ≤ r.id ∧ r.id ≤ env.nextId T) = [] := by
    refine List.filter_eq_nil_iff.mpr fun r hr => ?_
    have := env.lt_nextId T r hr
    simp only [decide_eq_true_eq]
    omega
  rw [Table.range, Table.insert, List.filter_append, hold]
  simp [Env.row]

/-- A report on one row is one batch. -/
theorem deliverable_singleton {x : Row D} (h : (renderRow x).length ≤ 1379) :
    reportCode [x] = 0 ∧ deliverable [x] = [headerLine ++ renderRow x] := by
  have hbatches : batches [x] = [headerLine ++ renderRow x] := by
    simp [batches, batchCount, batchAt, batchText, renderRows, Paging.window,
      show BATCH_ROWS = 20 from rfl]
  have hfit : Fits (headerLine ++ renderRow x) := by
    rw [Fits, List.length_append, length_headerLine, BATCH_BUFFER_SIZE]
    omega
  have hcode : reportCode [x] = 0 := by
    rw [reportCode, hbatches, if_pos (by simpa using hfit)]
  exact ⟨hcode, by rw [deliverable_eq_batches hcode, hbatches]⟩

/-- The row is shown as sent when its line is the line that was sent. -/
theorem showsStored_iff_line (h0 : (0 : UInt8) ∉ input)
    (hcmd : accepted input = some ⟨.sensorData, .sensor d⟩) {n : ℕ} (hn : env.nextId w.table = n)
    (h31 : n ≤ 2 ^ 31 - 1) : ShowsStored env accept c w input d n ↔
      renderRow (env.row w.table (readingOf d)) = sentLine env n d := by
  obtain ⟨r, reply, w₁, hrun, hout⟩ := exists_processes h0 env accept c w
  obtain ⟨rfl, rfl, hw⟩ := hout.sensor hcmd
  have htable : w.table.insert env (readingOf d) = w₁.table := hw.table.1
  have hrange : w₁.table.range n n = [env.row w.table (readingOf d)] := by
    rw [← htable, ← hn, range_insert]
  obtain ⟨hcode, hdel⟩ := deliverable_singleton (x := env.row w.table (readingOf d))
    (length_renderRow_le (length_device_id_le hcmd) rfl (env.nextId_pos _).le
      (by show env.nextId w.table < 2 ^ 31; omega))
  obtain ⟨w₂, hquery, -, hshown⟩ := processes_query (zero_notMem_queryText n n)
    (accepted_queryText le_rfl h31) env accept c w₁
  rw [hrange, hcode] at hquery
  rw [hrange, hdel] at hshown
  constructor
  · rintro ⟨w₁', w₂', hrun', hquery', hsent⟩
    obtain ⟨-, -, rfl⟩ := hrun.unique hrun'
    obtain ⟨-, -, rfl⟩ := hquery.unique hquery'
    rw [hshown] at hsent
    simpa using hsent
  · intro h
    exact ⟨w₁, w₂, hrun, hquery, by rw [hshown, h]⟩

/-! ### NaN -/

theorem fmt6_stored (v : D) : Libc.fmt6 ((stored v).getD Libc.zero) = Libc.fmt6 v ↔
    Libc.isNan v = false := by
  by_cases hn : Libc.isNan v
  · rw [stored, if_pos hn, Option.getD_none, Libc.fmt6_zero, hn]
    refine ⟨fun h => absurd h ?_, fun h => absurd h (by decide)⟩
    rcases Libc.fmt6_nan v hn with h | h
    · rw [h]
      decide
    · rw [h]
      decide
  · rw [stored, if_neg hn, Option.getD_some]
    exact ⟨fun _ => by simpa using hn, fun _ => rfl⟩

omit [Libc D] in
theorem fmtStr_clock (n : ℤ) : fmtStr (env.clock n) = env.clock n :=
  fmtStr_eq_self fun h => absurd (env.clock_bytes n 0 h) (by decide)

/-- The line is the one that was sent when each value prints as it was sent. -/
theorem renderRow_eq_sentLine_iff (h0 : (0 : UInt8) ∉ d.device_id) (T : Table D) :
    renderRow (env.row T (readingOf d)) = sentLine env (env.nextId T) d ↔
      ∀ v ∈ [d.data_1, d.data_2, d.data_3, d.data_4],
        Libc.fmt6 ((stored v).getD Libc.zero) = Libc.fmt6 v := by
  have hinert : ∀ v : D, Separated.Inert separator (Libc.fmt6 v) := fun v =>
    Separated.inert_of_notMem fun h => absurd (Libc.fmt6_bytes v _ h) (by decide)
  have hsep : separator ≠ [] := by decide
  simp only [renderRow, sentLine, rowLine, Env.row, readingOf, List.append_assoc,
    List.intercalate_cons_cons, List.intercalate_singleton, fmtStr_eq_self h0, fmtStr_clock,
    List.append_cancel_left_eq, Option.getD_some, List.mem_cons, List.not_mem_nil, or_false,
    forall_eq_or_imp, forall_eq]
  constructor
  · intro h
    obtain ⟨h1, h⟩ := Separated.inert_append_inj hsep (hinert _) (hinert _) h
    obtain ⟨h2, h⟩ := Separated.inert_append_inj hsep (hinert _) (hinert _) h
    obtain ⟨h3, h⟩ := Separated.inert_append_inj hsep (hinert _) (hinert _) h
    obtain ⟨h4, -⟩ := Separated.inert_append_inj hsep (hinert _) (hinert _) h
    exact ⟨h1, h2, h3, h4⟩
  · rintro ⟨h1, h2, h3, h4⟩
    rw [h1, h2, h3, h4]

/-- Exactly when no value is a NaN, which SQLite stores as NULL.  All other values are
assumed to read back unchanged, also a zero with a sign. -/
theorem showsStored_iff (h0 : (0 : UInt8) ∉ input)
    (hcmd : accepted input = some ⟨.sensorData, .sensor d⟩) {n : ℕ} (hn : env.nextId w.table = n)
    (h31 : n ≤ 2 ^ 31 - 1) : ShowsStored env accept c w input d n ↔
      ∀ v ∈ [d.data_1, d.data_2, d.data_3, d.data_4], Libc.isNan v = false := by
  have hdev : (0 : UInt8) ∉ d.device_id := Nameable.zero_notMem ⟨input, d, h0, hcmd, rfl⟩
  rw [showsStored_iff_line h0 hcmd hn h31, ← hn, renderRow_eq_sentLine_iff hdev]
  exact forall₂_congr fun v _ => fmt6_stored v

theorem showsStored_iff_dev2 :
    ShowsStored Env.counting id 0 (.fresh ∅ []) (bytes "SENSOR,DEV2,26.8,55.2,101.3,568.4")
      dev2Data 1 :=
  (showsStored_iff (by decide) (by decide +kernel) rfl (by decide)).mpr (by decide +kernel)

/-- What `SENSOR,d,nan,1,2,3` asks to store. -/
def nanData : SensorData Binary64 :=
  sensorMember ((accepted (bytes "SENSOR,d,nan,1,2,3")).getD zeroed)

theorem nan_shown_as_zero :
    accepted (bytes "SENSOR,d,nan,1,2,3") = some ⟨.sensorData, .sensor nanData⟩ ∧
      ¬ ShowsStored Env.counting id 0 (.fresh ∅ []) (bytes "SENSOR,d,nan,1,2,3") nanData 1 := by
  have hcmd : accepted (bytes "SENSOR,d,nan,1,2,3") = some ⟨.sensorData, .sensor nanData⟩ := by
    decide +kernel
  refine ⟨hcmd, fun h => ?_⟩
  have hline := (showsStored_iff_line (by decide) hcmd rfl (by decide)).mp h
  exact absurd hline (by decide +kernel)

end SensorGateway
