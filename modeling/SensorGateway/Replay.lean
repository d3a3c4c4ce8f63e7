/-
Sending a report again.

A client reads the report of a QUERY and sends each record back as a SENSOR
command, to this gateway or to another one.  The doubles went through `%.6f`, so
the rows that come of it need not hold the same values, but they show the same.

A REAL column drops the sign of a zero, so no value of the report may be one that
prints as `-0.000000`: what would be sent back is such a zero.

* `accepted_resend` — a record of a row that the gateway stored is a command
  that it accepts;
* `report_restored` — the commands of a complete report are all acknowledged,
  and their rows have the lines of the report again, but for id and timestamp.
-/
import SensorGateway.Reprint
import SensorGateway.ReportFormat
import SensorGateway.Segmentation

open CString Sqlite TcpParser

namespace SensorGateway

section Text

variable {D : Type} [Libc D] {env : Env D} {accept : ℕ → ℕ} {c : ℕ} {x : Row D}

/-- The device id and the values of a record. -/
def columns (record : List Bytes) : List Bytes := (record.drop 1).take 5

/-- The command that sends a record. -/
def resend (record : List Bytes) : Bytes :=
  ([44] : Bytes).intercalate (bytes "SENSOR" :: columns record)

/-- The commands that send the records of a report. -/
def replay (text : Bytes) : List Bytes := (parseReport text).map resend

/-! ### Fields -/

/-- A text that can be one field of a command. -/
structure Field (y : Bytes) : Prop where
  comma : (44 : UInt8) ∉ y
  ne_nil : y ≠ []
  strip : strip y = y

/-- Fields come back from the joined text. -/
theorem fieldsOf_intercalate {xs : List Bytes} (hne : xs ≠ []) (h : ∀ y ∈ xs, Field y) :
    fieldsOf (([44] : Bytes).intercalate xs) = xs := by
  have htokens : tokens 44 (([44] : Bytes).intercalate xs) = xs := by
    rw [tokens, List.splitOn_intercalate 44 (fun y hy => (h y hy).comma) hne,
      List.filter_eq_self]
    intro y hy
    simpa using (h y hy).ne_nil
  rw [fieldsOf, htokens]
  exact (List.map_congr_left fun y hy => (h y hy).strip).trans (List.map_id xs)

theorem field_of_mem_fieldsOf {input y : Bytes} (hy : y ∈ fieldsOf input) (hne : y ≠ []) :
    Field y := by
  obtain ⟨t, ht, rfl⟩ := List.mem_map.mp hy
  exact ⟨fun h => notMem_of_mem_tokens ht ((strip_sublist t).subset h), hne,
    strip_eq_self (trimmed_strip t)⟩

theorem field_device_id {input : Bytes} {d : SensorData D}
    (hcmd : accepted input = some ⟨.sensorData, .sensor d⟩) : Field d.device_id := by
  rw [accepted] at hcmd
  split at hcmd
  · rcases commandOf_cases hcmd with
      ⟨id, x1, x2, x3, x4, d1, d2, d3, d4, hf, hid, -, -, -, -, -, h⟩ |
      ⟨x, y, a, b, -, -, -, h⟩ | ⟨-, h⟩
    · cases h
      have hmem : id ∈ fieldsOf input := by
        rw [hf]
        simp
      exact field_of_mem_fieldsOf hmem hid
    · cases h
    · cases h
  · cases hcmd

/-- A printed double is a field. -/
theorem field_fmt6 {v : D} (hne : Libc.fmt6 v ≠ []) : Field (Libc.fmt6 v) := by
  have hblank : ∀ b ∈ Libc.fmt6 v, isspace b = false := by
    have hclass : ∀ b ∈ bytes "-.0123456789infa", isspace b = false := by decide +kernel
    exact fun b hb => hclass b (Libc.fmt6_bytes v b hb)
  refine ⟨fun h => absurd (Libc.fmt6_bytes v _ h) (by decide), hne, strip_eq_self ⟨?_, ?_⟩⟩
  · intro b r h
    exact hblank b (by rw [h]; simp)
  · intro r b h
    exact hblank b (by rw [h]; simp)

end Text

/-! ### Values -/

section Copies

variable {env env' : Env Binary64} {accept accept' : ℕ → ℕ} {c c' : ℕ} {T : Table Binary64}
  {x y : Row Binary64} {rows : List (Row Binary64)}

/-- The values of a row as they are read; a NULL is 0.0. -/
def doubles (x : Row Binary64) : List Binary64 :=
  [x.data_1.getD Libc.zero, x.data_2.getD Libc.zero, x.data_3.getD Libc.zero,
    x.data_4.getD Libc.zero]

theorem columns_fields (x : Row Binary64) :
    columns (fields x) = x.device_id :: (doubles x).map Libc.fmt6 := rfl

/-- The same device, and values that print the same. -/
structure Copies (x y : Row Binary64) : Prop where
  device_id : y.device_id = x.device_id
  values : List.Forall₂ Binary64.Close (doubles x) (doubles y)

theorem Copies.printed (h : Copies x y) :
    (doubles y).map Libc.fmt6 = (doubles x).map Libc.fmt6 := by
  rw [eq_comm, ← List.forall₂_eq_eq_eq, List.forall₂_map_left_iff, List.forall₂_map_right_iff]
  exact h.values.imp fun v w hvw => hvw.fmt6.symm

theorem Copies.columns (h : Copies x y) : columns (fields y) = columns (fields x) := by
  rw [columns_fields, columns_fields, h.device_id, h.printed]

/-- A row whose record can be sent again. -/
structure Resendable (x : Row Binary64) : Prop where
  legible : Legible x
  short : (resend (fields x)).length ≤ 127
  unsigned : ∀ v ∈ doubles x, Libc.fmt6 v ≠ bytes "-0.000000"

/-- Neither the row nor a copy holds what a REAL column would change. -/
theorem Resendable.isNegZero (hx : Resendable x)
    (h : (doubles y).map Libc.fmt6 = (doubles x).map Libc.fmt6) :
    ∀ v ∈ doubles y, v.isNegZero = false := by
  intro w hw
  rw [Bool.eq_false_iff]
  intro hzero
  obtain ⟨v, hv, hvw⟩ := List.mem_map.mp (h ▸ List.mem_map_of_mem hw)
  exact hx.unsigned v hv (hvw.trans (Binary64.fmt6_of_isNegZero hzero))

/-- SQLite has stored NULL for a NaN. -/
theorem doubles_not_nan (hT : Ingested env accept c T) (hx : x ∈ T.rows) :
    ∀ v ∈ doubles x, Libc.isNan v = false := by
  obtain ⟨-, input, d, -, -, hread⟩ := hT.mem hx
  have hstored : ∀ v : Binary64, Libc.isNan ((stored v).getD Libc.zero) = false := by
    intro v
    by_cases hv : Libc.isNan v
    · rw [stored, if_pos hv]
      rfl
    · rw [stored, if_neg hv]
      simpa using hv
  have hdoubles : doubles x = [(stored d.data_1).getD Libc.zero, (stored d.data_2).getD Libc.zero,
      (stored d.data_3).getD Libc.zero, (stored d.data_4).getD Libc.zero] := by
    obtain ⟨-, h1, h2, h3, h4⟩ := (Reading.mk.injEq ..).mp hread
    rw [doubles, h1, h2, h3, h4]
  rw [hdoubles]
  simp [hstored]

theorem zero_notMem_resend (h : (0 : UInt8) ∉ x.device_id) :
    (0 : UInt8) ∉ resend (fields x) := by
  intro h0
  rcases Separated.mem_of_mem_intercalate h0 with h0 | ⟨y, hy, h0⟩
  · exact absurd h0 (by decide)
  rcases List.mem_cons.mp hy with rfl | hy
  · exact absurd h0 (by decide)
  rw [columns_fields] at hy
  rcases List.mem_cons.mp hy with rfl | hy
  · exact h h0
  · obtain ⟨v, -, rfl⟩ := List.mem_map.mp hy
    exact absurd (Libc.fmt6_bytes v _ h0) (by decide)

theorem fieldsOf_resend (h : Field x.device_id) :
    fieldsOf (resend (fields x)) = bytes "SENSOR" :: x.device_id :: (doubles x).map Libc.fmt6 := by
  rw [resend, columns_fields]
  refine fieldsOf_intercalate (by simp) fun y hy => ?_
  rcases List.mem_cons.mp hy with rfl | hy
  · exact ⟨by decide, by decide, by decide⟩
  rcases List.mem_cons.mp hy with rfl | hy
  · exact h
  · obtain ⟨v, -, rfl⟩ := List.mem_map.mp hy
    exact field_fmt6 (Binary64.fmt6_ne_nil v)

/-- A row that the gateway stored is accepted when its record is sent. -/
theorem accepted_resend (hT : Ingested env accept c T) (hx : x ∈ T.rows)
    (hlen : (resend (fields x)).length ≤ 127) : ∃ d : SensorData Binary64,
      accepted (resend (fields x)) = some ⟨.sensorData, .sensor d⟩ ∧
        ∀ (env' : Env Binary64) (T' : Table Binary64), Copies x (env'.row T' (readingOf d)) := by
  obtain ⟨-, input, d, -, hcmd, hread⟩ := hT.mem hx
  have hdev : x.device_id = d.device_id := congrArg Reading.device_id hread
  have hfield : Field x.device_id := hdev ▸ field_device_id hcmd
  have hlong : x.device_id.length ≤ 63 := hdev ▸ length_device_id_le hcmd
  have hread : ∀ v ∈ doubles x, ∃ w, doubleOf (Libc.fmt6 v) = some w ∧ Binary64.Close v w :=
    fun v hv => Binary64.doubleOf_fmt6 (doubles_not_nan hT hx v hv)
  obtain ⟨w1, h1, hc1⟩ := hread (x.data_1.getD Libc.zero) (by simp [doubles])
  obtain ⟨w2, h2, hc2⟩ := hread (x.data_2.getD Libc.zero) (by simp [doubles])
  obtain ⟨w3, h3, hc3⟩ := hread (x.data_3.getD Libc.zero) (by simp [doubles])
  obtain ⟨w4, h4, hc4⟩ := hread (x.data_4.getD Libc.zero) (by simp [doubles])
  refine ⟨⟨x.device_id, w1, w2, w3, w4⟩, ?_, fun env' T' => ⟨rfl, ?_⟩⟩
  · rw [accepted, if_pos (by rw [TCP_PARSER_MAX_INPUT]; omega), fieldsOf_resend hfield, doubles,
      List.map_cons, List.map_cons, List.map_cons, List.map_cons, List.map_nil, commandOf,
      if_pos ⟨rfl, hfield.ne_nil, by omega⟩, h1, h2, h3, h4]
    rfl
  · have hstored : ∀ {v w : Binary64}, Binary64.Close v w → (stored w).getD Libc.zero = w := by
      intro v w h
      have hw : Libc.isNan w = false := h.not_nan
      rw [stored, if_neg (by simp [hw]), Option.getD_some]
    rw [doubles, doubles]
    show List.Forall₂ Binary64.Close _ [(stored w1).getD Libc.zero, (stored w2).getD Libc.zero,
      (stored w3).getD Libc.zero, (stored w4).getD Libc.zero]
    rw [hstored hc1, hstored hc2, hstored hc3, hstored hc4]
    exact .cons hc1 (.cons hc2 (.cons hc3 (.cons hc4 .nil)))

/-! ### The whole report -/

/-- The records of a report, sent one by one, are acknowledged and stored. -/
theorem respondAll_resend (env' : Env Binary64) (hT : Ingested env accept c T)
    (hrows : ∀ x ∈ rows, x ∈ T.rows ∧ (resend (fields x)).length ≤ 127) (T' : Table Binary64) :
    ∃ copies : List (Row Binary64),
      (respondAll env' T' (rows.map fun x => resend (fields x))).1.rows = T'.rows ++ copies ∧
      (respondAll env' T' (rows.map fun x => resend (fields x))).2
        = (List.replicate rows.length (bytes "OK\n")).flatten ∧
      List.Forall₂ Copies rows copies ∧
      ∀ y ∈ copies, y.timestamp = some (env'.clock y.id) ∧ ∃ x ∈ rows, Copies x y := by
  induction rows generalizing T' with
  | nil => exact ⟨[], by simp [respondAll], by simp [respondAll], .nil, by simp⟩
  | cons x rows ih =>
    obtain ⟨hx, hlen⟩ := hrows x (by simp)
    obtain ⟨d, hcmd, hcopy⟩ := accepted_resend hT hx hlen
    obtain ⟨-, input, d', h0, hcmd', hread⟩ := hT.mem hx
    have hdev : (0 : UInt8) ∉ x.device_id :=
      Nameable.zero_notMem (D := Binary64)
        ⟨input, d', h0, hcmd', (congrArg Reading.device_id hread).symm⟩
    have hrespond : respond env' T' (resend (fields x))
        = (T'.insert env' (readingOf d), bytes "OK\n") := by
      rw [respond, fmtStr_eq_self (zero_notMem_resend hdev), hcmd]
    obtain ⟨copies, htable, hsent, hcopies, hstamps⟩ :=
      ih (fun y hy => hrows y (by simp [hy])) (T'.insert env' (readingOf d))
    refine ⟨env'.row T' (readingOf d) :: copies, ?_, ?_, .cons (hcopy env' T') hcopies, ?_⟩
    · rw [List.map_cons, respondAll, hrespond]
      simp only [htable]
      simp [Table.insert]
    · rw [List.map_cons, respondAll, hrespond]
      simp only [hsent]
      simp [List.replicate_succ]
    · intro y hy
      rcases List.mem_cons.mp hy with rfl | hy
      · exact ⟨rfl, x, by simp, hcopy env' T'⟩
      · obtain ⟨htime, z, hz, hzy⟩ := hstamps y hy
        exact ⟨htime, z, by simp [hz], hzy⟩

/-- A line of a row that can be sent again is short. -/
theorem length_renderRow_resend (hT : Ingested env accept c T) (hx : x ∈ T.rows)
    (hlen : (resend (fields x)).length ≤ 127) (h0 : 0 ≤ x.id) (h31 : x.id < 2 ^ 31) :
    (renderRow x).length ≤ 201 := by
  obtain ⟨htime, -⟩ := hT.mem hx
  have hid : (fmtInt x.id).length ≤ 10 := by
    rw [fmtInt, if_neg (by omega), Binary64.length_decimal_le (by decide)]
    omega
  have hstamp : (x.timestamp.getD []).length = 19 := by
    rw [htime]
    exact env.length_clock x.id
  have h1 := length_fmtStr_le x.device_id
  have h2 := length_fmtStr_le (x.timestamp.getD [])
  have hsep : separator.length = 3 := rfl
  have hnl : (bytes "\n").length = 1 := rfl
  simp only [resend, columns_fields, doubles, List.map_cons, List.map_nil,
    List.intercalate_cons_cons, List.intercalate_singleton, List.length_append,
    List.length_singleton] at hlen
  simp only [renderRow, rowLine, List.length_append, hsep, hnl]
  omega

/-- Such rows make a complete report. -/
theorem respondAll_query (hT : Ingested env accept c T) {s e : ℕ} (hse : s ≤ e)
    (he : e ≤ 2 ^ 31 - 1) (hrows : ∀ x ∈ T.range s e, (resend (fields x)).length ≤ 127) :
    (respondAll env T [queryText s e]).2 = reportText (T.range s e) := by
  have hcode : reportCode (T.range s e) = 0 := by
    refine reportCode_eq_zero (k := 201) (fun x hx => ?_) ?_
    · obtain ⟨hmem, hrange⟩ := List.mem_filter.mp hx
      simp only [Bool.decide_and, Bool.and_eq_true, decide_eq_true_eq] at hrange
      exact length_renderRow_resend hT hmem (hrows x hx) (by omega) (by omega)
    · have := Nat.mul_le_mul_right 201 (min_le_left 20 (T.range s e).length)
      omega
  obtain ⟨htext, hall⟩ := flatten_deliverable (T.range s e)
  rw [respondAll, respond, fmtStr_eq_self (zero_notMem_queryText s e), accepted_queryText hse he]
  simp only [hcode, if_true, List.append_nil, htext, hall hcode, respondAll]

/-- The commands of a report only depend on what it shows. -/
theorem replay_reportText (hrows : ∀ x ∈ rows, Nameable Binary64 x.device_id ∧ Legible x) :
    replay (reportText rows) = rows.map fun x => resend (fields x) := by
  rw [replay, parseReport_reportText hrows, List.map_map]
  rfl

theorem legible_copy (hx : Legible x) (h : Copies x y)
    (htime : y.timestamp = some (env.clock y.id)) : Legible y where
  newline := h.device_id ▸ hx.newline
  inner := h.device_id ▸ hx.inner
  timestamp b hb := by
    rw [htime] at hb
    have hclass : ∀ b ∈ bytes "0123456789-: ", b ≠ 10 ∧ b ≠ 124 := by decide +kernel
    exact hclass b (env.clock_bytes _ b hb)

theorem report_restored {accept₀ : ℕ → ℕ} {c₀ : ℕ} {fd fd' : ℤ} (hfd : 0 ≤ fd) (hfd' : 0 ≤ fd')
    (hT : Ingested env accept₀ c₀ T) {s e : ℕ} (hse : s ≤ e) (he : e ≤ 2 ^ 31 - 1)
    (hrows : ∀ x ∈ T.range s e, Resendable x)
    (env' : Env Binary64) (accept accept' : ℕ → ℕ) (c c' : ℕ) (T' : Table Binary64) :
    ∃ (text : Bytes) (w₁ w₂ : World Binary64) (copies : List (Row Binary64)),
      Serves env accept c fd T [queryText s e] w₁ ∧ w₁.sent = welcome ++ text ∧
      Serves env' accept' c' fd' T' (replay text) w₂ ∧
      w₂.sent = welcome ++ (List.replicate (T.range s e).length (bytes "OK\n")).flatten ∧
      w₂.table.rows = T'.rows ++ copies ∧ List.Forall₂ Copies (T.range s e) copies ∧
      copies.map (columns ∘ fields) = (T.range s e).map (columns ∘ fields) ∧
      replay (reportText copies) = replay text ∧
      ∀ x ∈ T.range s e ++ copies, ∀ v ∈ doubles x, v.isNegZero = false := by
  have hmem : ∀ x ∈ T.range s e, x ∈ T.rows := fun x hx => List.mem_of_mem_filter hx
  have hreplay : replay (reportText (T.range s e))
      = (T.range s e).map fun x => resend (fields x) :=
    replay_reportText fun x hx => ⟨hT.nameable (hmem x hx), (hrows x hx).legible⟩
  obtain ⟨copies, htable, hsent, hcopies, hstamps⟩ :=
    respondAll_resend env' hT (fun x hx => ⟨hmem x hx, (hrows x hx).short⟩) T'
  -- the two sessions
  have hquery : ∀ y ∈ [queryText s e], y ≠ [] ∧ y.length ≤ 127 := by
    have hlen := length_queryText (hse.trans he) he
    intro y hy
    obtain rfl := List.mem_singleton.mp hy
    exact ⟨by simp [queryText, bytes, ofChars], by omega⟩
  have hchunks : ∀ y ∈ replay (reportText (T.range s e)), y ≠ [] ∧ y.length ≤ 127 := by
    intro y hy
    rw [hreplay] at hy
    obtain ⟨x, hx, rfl⟩ := List.mem_map.mp hy
    exact ⟨by simp [resend, columns_fields, bytes, ofChars], (hrows x hx).short⟩
  obtain ⟨w₁, hrun₁, -, hsent₁⟩ := thread_quiet env accept c hfd (.refl hquery) T
  obtain ⟨w₂, hrun₂, htable₂, hsent₂⟩ := thread_quiet env' accept' c' hfd' (.refl hchunks) T'
  have hcolumns : copies.map (columns ∘ fields) = (T.range s e).map (columns ∘ fields) := by
    rw [eq_comm, ← List.forall₂_eq_eq_eq, List.forall₂_map_left_iff, List.forall₂_map_right_iff]
    exact hcopies.imp fun x y h => h.columns.symm
  refine ⟨_, w₁, w₂, copies, hrun₁, ?_, hrun₂, ?_, ?_, hcopies, hcolumns, ?_, ?_⟩
  · rw [hsent₁, respondAll_query hT hse he fun x hx => (hrows x hx).short]
  · rw [hsent₂, hreplay, hsent]
  · rw [htable₂, hreplay, htable]
  · have hlegible : ∀ y ∈ copies, Nameable Binary64 y.device_id ∧ Legible y := by
      intro y hy
      obtain ⟨htime, x, hx, hxy⟩ := hstamps y hy
      exact ⟨hxy.device_id ▸ hT.nameable (hmem x hx), legible_copy (hrows x hx).legible hxy htime⟩
    have hresend : ∀ rows : List (Row Binary64), (rows.map fun x => resend (fields x))
        = (rows.map (columns ∘ fields)).map
          fun r => ([44] : Bytes).intercalate (bytes "SENSOR" :: r) := fun rows => by
      rw [List.map_map]
      rfl
    rw [replay_reportText hlegible, hreplay, hresend, hcolumns, ← hresend]
  · intro y hy
    rcases List.mem_append.mp hy with hy | hy
    · exact (hrows y hy).isNegZero rfl
    · obtain ⟨-, x, hx, hxy⟩ := hstamps y hy
      exact (hrows x hx).isNegZero hxy.printed

/-- What `SENSOR,b,-0.12345649,1e-9,3,1e30` asks to store; it prints rounded. -/
def fineData : SensorData Binary64 :=
  sensorMember ((accepted (bytes "SENSOR,b,-0.12345649,1e-9,3,1e30")).getD zeroed)

def twoDevices : Table Binary64 := dev2Row.insert Env.counting (readingOf fineData)

theorem report_restored_twoDevices :
    ∃ (text : Bytes) (w₁ w₂ : World Binary64) (copies : List (Row Binary64)),
      Serves Env.counting id 0 4 twoDevices [queryText 1 2] w₁ ∧ w₁.sent = welcome ++ text ∧
      Serves Env.counting id 0 5 twoDevices (replay text) w₂ ∧
      w₂.sent = welcome ++ bytes "OK\nOK\n" ∧ w₂.table.rows = twoDevices.rows ++ copies ∧
      List.Forall₂ Copies twoDevices.rows copies ∧
      copies.map (columns ∘ fields) = twoDevices.rows.map (columns ∘ fields) ∧
      replay (reportText copies) = replay text := by
  have hfine : accepted (bytes "SENSOR,b,-0.12345649,1e-9,3,1e30")
      = some ⟨.sensorData, .sensor fineData⟩ := by decide +kernel
  have hT : Ingested Env.counting id 0 twoDevices :=
    (Ingested.empty.insert (by decide) accepted_dev2Data).insert (by decide) hfine
  have hlegible : ∀ x ∈ twoDevices.rows, (10 : UInt8) ∉ x.device_id ∧
      ¬ separator <:+: x.device_id ++ bytes " " ∧ ∀ b ∈ x.timestamp.getD [], b ≠ 10 ∧ b ≠ 124 := by
    decide +kernel
  have hshort : ∀ x ∈ twoDevices.rows, (resend (fields x)).length ≤ 127 ∧
      ∀ v ∈ doubles x, Libc.fmt6 v ≠ bytes "-0.000000" := by
    decide +kernel
  have hrange : twoDevices.range 1 2 = twoDevices.rows := by
    rw [Table.range, List.filter_eq_self]
    decide +kernel
  have hrows : ∀ x ∈ twoDevices.range 1 2, Resendable x := by
    intro x hx
    have hmem := (List.mem_filter.mp hx).1
    obtain ⟨hnewline, hinner, htimestamp⟩ := hlegible x hmem
    obtain ⟨hlen, hsign⟩ := hshort x hmem
    exact ⟨⟨hnewline, hinner, htimestamp⟩, hlen, hsign⟩
  obtain ⟨text, w₁, w₂, copies, hrun₁, hsent₁, hrun₂, hsent₂, htable, hcopies, hcolumns,
      hreplay, -⟩ :=
    report_restored (show (0 : ℤ) ≤ 4 by decide) (show (0 : ℤ) ≤ 5 by decide) hT
      (show 1 ≤ 2 by decide) (by decide) hrows Env.counting id id 0 0 twoDevices
  rw [Nat.cast_one, Nat.cast_ofNat, hrange] at hsent₂ hcopies hcolumns
  exact ⟨text, w₁, w₂, copies, hrun₁, hsent₁, hrun₂, hsent₂, htable, hcopies, hcolumns, hreplay⟩

end Copies

end SensorGateway
