/-
Which QUERY ranges fit the batch buffer.

A batch has up to 20 lines and the header, the buffer 4096 bytes, and one
accepted SENSOR command can make a line of well over a thousand characters.

* `acknowledged_readable` — on a table of acknowledged rows a QUERY returns 0
  exactly when each of its batches has at most 4095 bytes; lines of at most 201
  bytes always fit, and so does a range of one or two rows;
* `extreme_rows_unreadable` — four rows with values around `1e308` do not fit.
-/
import SensorGateway.QuietGateway

open CString Sqlite TcpParser

namespace SensorGateway

variable {D : Type} [Libc D] {env : Env D} {accept : ℕ → ℕ} {c : ℕ} {rows : List (Row D)}

theorem length_headerLine : headerLine.length = 63 := by decide +kernel

theorem length_renderRows_le {k : ℕ} (h : ∀ x ∈ rows, (renderRow x).length ≤ k) :
    (renderRows rows).length ≤ rows.length * k := by
  induction rows with
  | nil => simp [renderRows]
  | cons x rows ih =>
    have hx := h x (by simp)
    have hrest := ih fun y hy => h y (by simp [hy])
    rw [renderRows, List.flatMap_cons, List.length_append, List.length_cons, Nat.succ_mul]
    rw [renderRows] at hrest
    omega

/-- A batch is at most the header and its lines. -/
theorem length_batchAt_le {k : ℕ} (h : ∀ x ∈ rows, (renderRow x).length ≤ k) (i : ℕ) :
    (batchAt rows i).length ≤ 63 + min 20 rows.length * k := by
  have hwindow : (Paging.window BATCH_ROWS rows i).length ≤ min 20 rows.length := by
    rw [Paging.window, List.length_take, List.length_drop, show BATCH_ROWS = 20 from rfl]
    omega
  have hlines : (renderRows (Paging.window BATCH_ROWS rows i)).length ≤
      (Paging.window BATCH_ROWS rows i).length * k :=
    length_renderRows_le fun x hx => h x (List.mem_of_mem_drop (List.mem_of_mem_take hx))
  have hmul := Nat.mul_le_mul_right k hwindow
  have hheader : (if (decide (i = 0)) = true then headerLine else []).length ≤ 63 := by
    split
    · rw [length_headerLine]
    · exact Nat.zero_le _
  rw [batchAt, batchText, List.length_append]
  omega

theorem reportCode_eq_zero_iff : reportCode rows = 0 ↔ ∀ b ∈ batches rows, b.length ≤ 4095 := by
  have hfits : ∀ b : Bytes, Fits b ↔ b.length ≤ 4095 := fun b => by
    rw [Fits, BATCH_BUFFER_SIZE]
    omega
  rw [reportCode]
  split
  · rename_i hall
    exact ⟨fun _ b hb => (hfits b).mp (hall b hb), fun _ => rfl⟩
  · rename_i hall
    refine ⟨fun h => absurd h (by decide), fun h => absurd ?_ hall⟩
    exact fun b hb => (hfits b).mpr (h b hb)

/-- Lines of `k` bytes fit when 20 of them, or all there are, do. -/
theorem reportCode_eq_zero {k : ℕ} (h : ∀ x ∈ rows, (renderRow x).length ≤ k)
    (hk : 63 + min 20 rows.length * k ≤ 4095) : reportCode rows = 0 := by
  rw [reportCode_eq_zero_iff]
  intro b hb
  obtain ⟨i, -, rfl⟩ := List.mem_map.mp hb
  exact (length_batchAt_le h i).trans hk

theorem length_fmtStr_le (s : Bytes) : (fmtStr s).length ≤ s.length :=
  (List.takeWhile_sublist _).length_le

/-- The longest line of a row that a QUERY can select. -/
theorem length_renderRow_le {x : Row D} (hdev : x.device_id.length ≤ 63)
    (htime : x.timestamp = some (env.clock x.id)) (h0 : 0 ≤ x.id) (h31 : x.id < 2 ^ 31) :
    (renderRow x).length ≤ 1379 := by
  have hid : (fmtInt x.id).length ≤ 10 := by
    rw [fmtInt, if_neg (by omega), Binary64.length_decimal_le (by decide)]
    omega
  have hstamp : (x.timestamp.getD []).length = 19 := by
    rw [htime]
    exact env.length_clock x.id
  have h1 := length_fmtStr_le x.device_id
  have h2 := length_fmtStr_le (x.timestamp.getD [])
  have h3 := Libc.length_fmt6 (x.data_1.getD Libc.zero)
  have h4 := Libc.length_fmt6 (x.data_2.getD Libc.zero)
  have h5 := Libc.length_fmt6 (x.data_3.getD Libc.zero)
  have h6 := Libc.length_fmt6 (x.data_4.getD Libc.zero)
  have hsep : separator.length = 3 := rfl
  have hnl : (bytes "\n").length = 1 := rfl
  simp only [renderRow, rowLine, List.length_append, hsep, hnl]
  omega

theorem length_device_id_le {input : Bytes} {d : SensorData D}
    (hcmd : accepted input = some ⟨.sensorData, .sensor d⟩) : d.device_id.length ≤ 63 := by
  rcases accepted_cases hcmd with ⟨d', h, -, hlen⟩ | ⟨s, e, h, -⟩ | h
  · cases h
    exact hlen
  · cases h
  · cases h

/-- When a QUERY on acknowledged rows succeeds. -/
theorem acknowledged_readable {T : Table D} (hT : Ingested env accept c T) {s e : ℕ}
    (hse : s ≤ e) (he : e ≤ 2 ^ 31 - 1) :
    ∃ r w₁, Processes env accept c (queryText s e) (.fresh T []) r [] w₁ ∧
      (r = 0 ∨ r = -1) ∧ (r = 0 ↔ ∀ b ∈ batches (T.range s e), b.length ≤ 4095) ∧
      ((∀ x ∈ T.range s e, (renderRow x).length ≤ 201) → r = 0) ∧
      ((T.range s e).length ≤ 2 → r = 0) := by
  obtain ⟨w₁, hrun, -, -⟩ := processes_query (zero_notMem_queryText s e)
    (accepted_queryText hse he) env accept c (.fresh T [])
  refine ⟨_, w₁, hrun, ?_, reportCode_eq_zero_iff, fun h => ?_, fun h => ?_⟩
  · show reportCode (T.range s e) = 0 ∨ reportCode (T.range s e) = -1
    rw [reportCode]
    split
    · exact .inl rfl
    · exact .inr rfl
  · refine reportCode_eq_zero h ?_
    have := Nat.mul_le_mul_right 201 (min_le_left 20 (T.range s e).length)
    exact (Nat.add_le_add_left this 63).trans (by decide)
  · refine reportCode_eq_zero (k := 1379) (fun x hx => ?_) ?_
    · obtain ⟨hmem, hrange⟩ := List.mem_filter.mp hx
      simp only [Bool.decide_and, Bool.and_eq_true, decide_eq_true_eq] at hrange
      obtain ⟨htime, input, d, -, hcmd, hread⟩ := hT.mem hmem
      have hdev : x.device_id = d.device_id := congrArg Reading.device_id hread
      refine length_renderRow_le ?_ htime (by omega) (by omega)
      rw [hdev]
      exact length_device_id_le hcmd
    · show 63 + min 20 (T.range s e).length * 1379 ≤ 4095
      omega

/-! ### Extreme readings -/

/-- What `SENSOR,a,1e308,1e308,1e308,1e308` asks to store. -/
def extremeReading : SensorData Binary64 :=
  sensorMember ((accepted (bytes "SENSOR,a,1e308,1e308,1e308,1e308")).getD zeroed)

/-- The table after that command has been given four times. -/
def extremeRows : Table Binary64 :=
  (List.replicate 4 (readingOf extremeReading)).foldl (Table.insert Env.counting) ∅

theorem accepted_extremeReading : accepted (bytes "SENSOR,a,1e308,1e308,1e308,1e308")
    = some ⟨.sensorData, .sensor extremeReading⟩ := by decide +kernel

theorem ingested_extremeRows : Ingested Env.counting id 0 extremeRows :=
  Ingested.empty.replicate (by decide) accepted_extremeReading 4

theorem acknowledged_readable_extreme :
    ∃ r w₁, Processes Env.counting id 0 (queryText 1 2) (.fresh extremeRows []) r [] w₁ ∧
      r = 0 := by
  obtain ⟨r, w₁, hrun, -, -, -, hfew⟩ := acknowledged_readable ingested_extremeRows
    (s := 1) (e := 2) (by decide) (by decide)
  exact ⟨r, w₁, hrun, hfew (by decide +kernel)⟩

theorem extreme_rows_unreadable :
    ¬ ∀ T : Table Binary64, Ingested Env.counting id 0 T → ∀ s e : ℕ, s ≤ e → e ≤ 2 ^ 31 - 1 →
      ∃ reply w₁, Processes Env.counting id 0 (queryText s e) (.fresh T []) 0 reply w₁ := by
  intro h
  obtain ⟨reply, w₁, hrun⟩ := h extremeRows ingested_extremeRows 1 4 (by decide) (by decide)
  have hcmd : accepted (queryText 1 4) = some (⟨.query, .query ⟨1, 4⟩⟩ : TcpCommand Binary64) :=
    accepted_queryText (by decide) (by decide)
  obtain ⟨w₂, hrun', -, -⟩ := processes_query (zero_notMem_queryText 1 4) hcmd Env.counting id 0
    (.fresh extremeRows [])
  have hcode : reportCode (extremeRows.range 1 4) = -1 := by decide +kernel
  have hzero := (hrun.unique hrun').1.trans hcode
  exact absurd hzero (by decide)

end SensorGateway
