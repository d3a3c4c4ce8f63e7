/-
What the functions of sqlite_db.c do, in any surroundings.

* `sqliteDbInsertSensor_wp` — it returns 0 after exactly one insert and -1 after
  a failed SQLite call and no insert;
* `sqliteDbGetIdRange_wp` — it returns the range of the table it reads;
* `sqliteDbQueryNextBatch_wp` — it returns 0 with the next window of the table
  it reads rendered into the buffer, or -1 after a failed SQLite call or when
  the text does not fit (`BatchDone`, `BatchFailed`).  Rows may be inserted
  between its steps; those printed before are still the first of the window
  (`idWindow_mono`), so the window is that of the last step.

Each finalizes the statement it has prepared and leaves the thread's other
statements alone.
-/
import SensorGateway.Report
import SensorGateway.SqlRules

open CString Sqlite

namespace SensorGateway

variable {D : Type} [Libc D] {t : Prop} {env : Env D} {M : Mode D} {w₀ w : World D}

/-- Leaving a function: finalize the statement and return. -/
theorem wp_finalize_ret {α : Type} {Q : α → World D → Prop} {T₀ : Table D} {Rs : List (Table D)}
    {f : Bool} {l : Stmts D} {h : ℕ} {s : Stmt D} (hw : Frame M w₀ T₀ Rs f ((h, s) :: l) w)
    {a : α} (hQ : ∀ T w₁, M.inserts T₀ T → Frame M w₀ T (Rs ++ s.seen.toList) f l w₁ → Q a w₁) :
    Prog.wp t (surroundings env M) ((sql (.finalize h)).bind fun _ => .ret a) Q w :=
  wp_finalize hw fun T w₁ hT hw₁ => hQ T w₁ hT hw₁

/-! ### Insert -/

theorem sqliteDbInsertSensor_wp {Q : ℤ → World D → Prop} {c : ℕ} {device_id : Bytes}
    (hid : device_id ≠ []) {d1 d2 d3 d4 : D}
    {x : Reading D} (hx : x = ⟨device_id, stored d1, stored d2, stored d3, stored d4⟩)
    (hmay : ∀ T, M.permits w.log (.inserted (env.row T x)))
    (hok : ∀ T w₁, M.grows w.table T →
      Frame M (w.noting (some (env.row T x))) (T.insert env x) [] false w.stmts w₁ → Q 0 w₁)
    (hfail : ∀ T w₁, M.sqlFails → M.grows w.table T → Frame M w T [] true w.stmts w₁ →
      Q (-1) w₁) :
    Prog.wp t (surroundings env M)
      (sqliteDbInsertSensor (some ⟨some c⟩) device_id d1 d2 d3 d4) Q w := by
  -- a call on the statement fails: it is finalized and -1 returned
  have hexit : ∀ (M' : M.sqlFails) (T₀ : Table D) (h : ℕ) (s : Stmt D) (w₁ : World D),
      s.seen = none → M.grows w.table T₀ → Frame M w T₀ [] true ((h, s) :: w.stmts) w₁ →
      Prog.wp t (surroundings env M) ((sql (.finalize h)).bind fun _ => .ret (-1 : ℤ)) Q w₁ := by
    intro hM T₀ h s w₁ hs hT₀ hw₁
    refine wp_finalize_ret hw₁ fun T w₂ hT hw₂ => hfail T w₂ hM (M.grows_trans _ _ _ hT₀ hT.1) ?_
    simpa [hs] using hw₂
  simp only [sqliteDbInsertSensor, Prog.bind_eq, Prog.pure_eq]
  rw [if_neg (by simp [noHandle, hid])]
  refine wp_prepare (Frame.start M w) (fun h T w₁ hT hw₁ => ?_)
    fun T w₁ hM hT hw₁ => hfail T _ hM hT hw₁
  refine wp_bindText hw₁ (fun T₁ w₂ hT₁ hw₂ => ?_) fun w₂ hM hw₂ => hexit hM _ _ _ _ rfl hT hw₂
  replace hT₁ := M.grows_trans _ _ _ hT hT₁.1
  refine wp_bindDouble hw₂ (fun T₂ w₃ hT₂ hw₃ => ?_) fun w₃ hM hw₃ => hexit hM _ _ _ _ rfl hT₁ hw₃
  replace hT₂ := M.grows_trans _ _ _ hT₁ hT₂.1
  refine wp_bindDouble hw₃ (fun T₃ w₄ hT₃ hw₄ => ?_) fun w₄ hM hw₄ => hexit hM _ _ _ _ rfl hT₂ hw₄
  replace hT₃ := M.grows_trans _ _ _ hT₂ hT₃.1
  refine wp_bindDouble hw₄ (fun T₄ w₅ hT₄ hw₅ => ?_) fun w₅ hM hw₅ => hexit hM _ _ _ _ rfl hT₃ hw₅
  replace hT₄ := M.grows_trans _ _ _ hT₃ hT₄.1
  refine wp_bindDouble hw₅ (fun T₅ w₆ hT₅ hw₆ => ?_) fun w₆ hM hw₆ => hexit hM _ _ _ _ rfl hT₄ hw₆
  replace hT₅ := M.grows_trans _ _ _ hT₄ hT₅.1
  refine wp_step_insert hw₆ rfl (x := x) ?_ hmay (fun T₆ w₇ hT₆ hw₇ => ?_)
    fun w₇ hM hw₇ => hexit hM _ _ _ _ rfl hT₅ hw₇
  · rw [hx, Stmt.reading?]
    simp [Stmt.prepared, Stmt.bind]
  refine wp_finalize_ret hw₇ fun T₇ w₈ hT₇ hw₈ => hok T₆ w₈ (M.grows_trans _ _ _ hT₅ hT₆.1) ?_
  simpa [Stmt.prepared, Stmt.bind] using hw₈.from hT₇

/-! ### The range of ids -/

/-- Reading MIN or MAX, which is NULL for an empty table. -/
theorem wp_idColumn {α : Type} {Q : α → World D → Prop} {T₀ : Table D} {Rs : List (Table D)}
    {f : Bool} {l : Stmts D} {h : ℕ} {s : Stmt D} (hw : Frame M w₀ T₀ Rs f ((h, s) :: l) w)
    {i : ℕ} {v : Option ℤ} (hcol : s.current.getD i .null = intValue v) {k : ℤ → Sys D α}
    (hk : ∀ T w₁, M.inserts T₀ T → Frame M w₀ T Rs f ((h, s) :: l) w₁ →
      Prog.wp t (surroundings env M) (k ((v.map fun n => n.bmod (2 ^ 32)).getD 0)) Q w₁) :
    Prog.wp t (surroundings env M) ((sql (.columnIsNull h i)).bind fun b =>
      if (!b) = true then (sql (.columnInt h i)).bind k else (Prog.ret 0).bind k) Q w := by
  refine wp_columnIsNull hw hcol fun T w₁ hT hw₁ => ?_
  cases v with
  | none => exact hk T w₁ hT hw₁
  | some n =>
    refine wp_columnInt hw₁ hcol fun T' w₂ hT' hw₂ => ?_
    exact hk T' w₂ (M.inserts_trans hT hT') hw₂

theorem sqliteDbGetIdRange_wp {Q : IdRange → World D → Prop} {c : ℕ} {min₀ max₀ : ℤ}
    (hok : ∀ T w₁, M.grows w.table T → Frame M w T [T] false w.stmts w₁ →
      Q ⟨0, ((T.rows.map Row.id).min?.map fun n => n.bmod (2 ^ 32)).getD 0,
        ((T.rows.map Row.id).max?.map fun n => n.bmod (2 ^ 32)).getD 0⟩ w₁)
    (hfail : ∀ T w₁, M.sqlFails → M.grows w.table T → Frame M w T [] true w.stmts w₁ →
      Q ⟨-1, 0, 0⟩ w₁) :
    Prog.wp t (surroundings env M) (sqliteDbGetIdRange (some ⟨some c⟩) min₀ max₀) Q w := by
  simp only [sqliteDbGetIdRange, Prog.bind_eq, Prog.pure_eq]
  rw [if_neg (by simp [noHandle])]
  refine wp_prepare (Frame.start M w) (fun h T w₁ hT hw₁ => ?_)
    fun T w₁ hM hT hw₁ => hfail T _ hM hT hw₁
  refine wp_step_select hw₁ (by simp [Stmt.prepared]) ?_ ?_ ?_
  · intro T₁ w₂ row hT₁ hres hw₂
    obtain rfl : row = [intValue (T₁.rows.map Row.id).min?,
        intValue (T₁.rows.map Row.id).max?] := by
      simpa [Stmt.prepared, Stmt.results, eq_comm] using hres
    replace hT₁ := M.grows_trans _ _ _ hT hT₁.1
    refine wp_idColumn hw₂ (i := 0) (v := (T₁.rows.map Row.id).min?) rfl fun T₂ w₃ hT₂ hw₃ => ?_
    refine wp_idColumn hw₃ (i := 1) (v := (T₁.rows.map Row.id).max?) rfl fun T₃ w₄ hT₃ hw₄ => ?_
    exact wp_finalize_ret hw₄ fun T₄ w₅ hT₄ hw₅ => hok T₁ w₅ hT₁ (hw₅.from
      (M.inserts_trans hT₂ (M.inserts_trans hT₃ hT₄)))
  · intro T₁ w₂ hT₁ hres
    simp [Stmt.prepared, Stmt.results] at hres
  · intro w₂ hM hw₂
    exact wp_finalize_ret hw₂ fun T₂ w₃ hT₂ hw₃ =>
      hfail T₂ w₃ hM (M.grows_trans _ _ _ hT hT₂.1) hw₃

/-! ### One batch -/

/-- The line of a row as the loop prints it, its id read through 32 bits. -/
def printedRow (r : Row D) : Bytes :=
  rowLine (r.id.bmod (2 ^ 32)) r.device_id (r.data_1.getD Libc.zero) (r.data_2.getD Libc.zero)
    (r.data_3.getD Libc.zero) (r.data_4.getD Libc.zero) (r.timestamp.getD [])

theorem bmod_eq_self {n : ℤ} (h1 : -2 ^ 31 ≤ n) (h2 : n < 2 ^ 31) : n.bmod (2 ^ 32) = n := by
  rw [Int.bmod_def]
  split <;> omega

theorem printedRow_eq {r : Row D} (h1 : -2 ^ 31 ≤ r.id) (h2 : r.id < 2 ^ 31) :
    printedRow r = renderRow r := by
  rw [printedRow, bmod_eq_self h1 h2, renderRow]

section rowTurn

variable {Q : RowLoop ⊕ Except Bytes (StepRc × RowLoop) → World D → Prop} {T₀ : Table D}
  {Rs : List (Table D)} {f : Bool} {l : Stmts D} {h size : ℕ} {st : Stmt D} {s : RowLoop}
  {text junk : Bytes}

/-- One turn of the row loop: the next row of the window is printed behind `text`, or
does not fit; or there is no row; or the step fails. -/
theorem rowTurn_wp (hw : Frame M w₀ T₀ Rs f ((h, st) :: l) w) (hsql : st.sql = .nextBatch)
    (hbuf : s.buffer = text ++ 0 :: junk) (hsize : s.buffer.length = size)
    (hused : s.used = text.length)
    {window : Table D → List (Row D)} (hrows : ∀ T, st.results T = (window T).map Row.values)
    (hnext : ∀ T r w₁ junk, M.inserts T₀ T → (window T)[st.taken]? = some r →
      ((text ++ printedRow r) ++ 0 :: junk).length = size →
      Frame M w₀ T Rs f ((h, st.onRow T r.values) :: l) w₁ →
      Q (.inl ⟨(text ++ printedRow r) ++ 0 :: junk, (text ++ printedRow r).length, s.count + 1,
        r.id.bmod (2 ^ 32)⟩) w₁)
    (hfull : ∀ T r w₁ buffer, M.inserts T₀ T → (window T)[st.taken]? = some r →
      size ≤ (text ++ printedRow r).length → buffer.length = size → 0 ∈ buffer →
      Frame M w₀ T (Rs ++ [T]) f l w₁ → Q (.inr (.error buffer)) w₁)
    (hdone : ∀ T w₁, M.inserts T₀ T → (window T)[st.taken]? = none →
      Frame M w₀ T Rs f ((h, st.over T) :: l) w₁ → Q (.inr (.ok (.done, s))) w₁)
    (herr : ∀ w₁, M.sqlFails → Frame M w₀ T₀ Rs true ((h, st) :: l) w₁ →
      Q (.inr (.ok (.error, s))) w₁) :
    Prog.wp t (surroundings env M) (rowTurn h size s) Q w := by
  simp only [rowTurn, Prog.bind_eq, Prog.pure_eq]
  refine wp_step_select hw (by simp [hsql]) ?_ ?_ fun w₁ hM hw₁ => herr w₁ hM hw₁
  rotate_left
  · intro T w₁ hT hres hw₁
    rw [hrows, List.getElem?_map, Option.map_eq_none_iff] at hres
    exact hdone T w₁ hT hres hw₁
  intro T w₁ row hT hres hw₁
  rw [hrows, List.getElem?_map, Option.map_eq_some_iff] at hres
  obtain ⟨r, hnth, rfl⟩ := hres
  -- the seven columns
  refine wp_columnInt hw₁ (i := 0) (n := r.id) rfl fun T₁ w₂ hT₁ hw₂ => ?_
  replace hw₂ := hw₂.from hT₁
  refine wp_columnText hw₂ (i := 1) (v := some r.device_id) rfl fun T₁ w₃ hT₁ hw₃ => ?_
  replace hw₃ := hw₃.from hT₁
  refine wp_columnDouble hw₃ (i := 2) (v := r.data_1) rfl fun T₁ w₄ hT₁ hw₄ => ?_
  replace hw₄ := hw₄.from hT₁
  refine wp_columnDouble hw₄ (i := 3) (v := r.data_2) rfl fun T₁ w₅ hT₁ hw₅ => ?_
  replace hw₅ := hw₅.from hT₁
  refine wp_columnDouble hw₅ (i := 4) (v := r.data_3) rfl fun T₁ w₆ hT₁ hw₆ => ?_
  replace hw₆ := hw₆.from hT₁
  refine wp_columnDouble hw₆ (i := 5) (v := r.data_4) rfl fun T₁ w₇ hT₁ hw₇ => ?_
  replace hw₇ := hw₇.from hT₁
  refine wp_columnText hw₇ (i := 6) (v := r.timestamp) rfl fun T₁ w₈ hT₁ hw₈ => ?_
  replace hw₈ := hw₈.from hT₁
  -- `used` never passes the end of the buffer
  have hroom : text.length + 1 + junk.length = size := by
    rw [← hsize, hbuf]
    simp
    omega
  have hline : rowLine (r.id.bmod (2 ^ 32)) ((some r.device_id).getD []) (r.data_1.getD Libc.zero)
      (r.data_2.getD Libc.zero) (r.data_3.getD Libc.zero) (r.data_4.getD Libc.zero)
      (r.timestamp.getD []) = printedRow r := rfl
  simp only [hline]
  generalize hp : snprintf s.buffer s.used (size - s.used) (printedRow r) = p
  have hlenp : p.2.length = size := by rw [← hp, length_snprintf (by omega), hsize]
  have hwritten : p.1 = (printedRow r).length := by rw [← hp]; rfl
  by_cases hfit : (text ++ printedRow r).length < size
  · have hlt : (printedRow r).length < size - text.length := by
      rw [List.length_append] at hfit
      omega
    rw [if_neg (by omega)]
    rw [hbuf, hused, snprintf_fits hlt] at hp
    have hlen : s.used + p.1.toNat = (text ++ printedRow r).length := by
      rw [hwritten, hused, List.length_append, Int.toNat_natCast]
    rw [Prog.wp_ret, hlen]
    rw [← hp] at hlenp ⊢
    exact hnext T r w₈ _ hT hnth hlenp hw₈
  · have hge : size ≤ (text ++ printedRow r).length := by omega
    rw [if_pos (by rw [List.length_append] at hge; omega)]
    refine wp_finalize_ret hw₈ fun T₂ w₉ hT₂ hw₉ => ?_
    refine hfull T r w₉ _ hT hnth hge (by rw [List.length_set, hlenp]) ?_
      (hw₉.from hT₂)
    exact List.mem_iff_getElem.mpr ⟨size - 1, by rw [List.length_set, hlenp]; omega, by simp⟩

end rowTurn

/-- The rows of one batch: the first 20 with `last < id <= e`. -/
def idWindow (T : Table D) (last e : ℤ) : List (Row D) :=
  Paging.page Row.id BATCH_ROWS last e T.rows

omit [Libc D] in
/-- Rows that are inserted lengthen the window, if that. -/
theorem idWindow_mono {T T' : Table D} (hT : Grows T T') (last e : ℤ) :
    idWindow T last e <+: idWindow T' last e := Paging.page_mono hT

/-- The results of a batch whose last step has read the table `T`. -/
structure BatchDone (M : Mode D) (w : World D) (last e : ℤ) (size : ℕ) (first : Bool)
    (T : Table D) (b : Batch) (w₁ : World D) : Prop where
  grows : M.grows w.table T
  frame : Frame M w T [T] false w.stmts w₁
  rc : b.rc = 0
  fits : (batchText first (idWindow T last e)).length < size
  buffer : ∃ junk, b.buffer = batchText first (idWindow T last e) ++ 0 :: junk
  length : b.buffer.length = size
  next_id : b.next_id = Paging.reached Row.id last [idWindow T last e]
  row_count : b.row_count = (idWindow T last e).length

/-- The results of a batch that has failed, and why. -/
structure BatchFailed (M : Mode D) (w : World D) (last e : ℤ) (size : ℕ) (first : Bool)
    (b : Batch) (w₁ : World D) : Prop where
  rc : b.rc = -1
  length : b.buffer.length = size
  terminated : 0 ∈ b.buffer
  next_id : b.next_id = last
  row_count : b.row_count = 0
  cause : ∃ T Rs f, M.grows w.table T ∧ Frame M w T Rs f w.stmts w₁ ∧
    (f = true ∧ M.sqlFails ∨ f = false ∧ (headerLine.length < size → Rs = [T]) ∧
      size ≤ (batchText first (idWindow T last e)).length)

/-- The statement of a batch with its parameters bound. -/
def batchStmt (last e : ℤ) : Stmt D :=
  (((Stmt.prepared .nextBatch).bind 1 (.int last)).bind 2 (.int e)).bind 3
    (.int SQLITE_DB_QUERY_BATCH_SIZE)

omit [Libc D] in
theorem batchStmt_results (last e : ℤ) (T : Table D) :
    (batchStmt last e).results T = (idWindow T last e).map Row.values := by
  have h1 : (batchStmt last e : Stmt D).params 1 = .int last := by simp [batchStmt]
  have h2 : (batchStmt last e : Stmt D).params 2 = .int e := by simp [batchStmt]
  have h3 : (batchStmt last e : Stmt D).params 3 = .int SQLITE_DB_QUERY_BATCH_SIZE := by
    simp [batchStmt]
  have hq : (batchStmt last e : Stmt D).sql = .nextBatch := rfl
  simp only [Stmt.results, hq, h1, h2, h3]
  rfl

/-- The local variables of the row loop after the rows `done`. -/
structure RowsPrinted (last : ℤ) (size : ℕ) (first : Bool) (done : List (Row D))
    (s : RowLoop) : Prop where
  buffer : ∃ junk, s.buffer = batchText first done ++ 0 :: junk
  length : s.buffer.length = size
  used : s.used = (batchText first done).length
  count : s.count = done.length
  current_id : s.current_id = Paging.reached Row.id last [done]

/-- The loop of a batch after the rows `done`, the first of the window; `n` bounds
those still to come. -/
structure RowLoopInv (M : Mode D) (w : World D) (last e : ℤ) (size : ℕ) (first : Bool) (h : ℕ)
    (n : ℕ) (s : RowLoop) (w₁ : World D) (T : Table D) (done : List (Row D)) (st : Stmt D) :
    Prop where
  bound : n + done.length = BATCH_ROWS
  grows : M.grows w.table T
  printed : RowsPrinted last size first done s
  window : done <+: idWindow T last e
  sql : st.sql = .nextBatch
  results : st.results = (batchStmt last e).results
  taken : st.taken = done.length
  frame : Frame M w T [] false ((h, st) :: w.stmts) w₁

theorem batchText_concat (first : Bool) (done : List (Row D)) (r : Row D) :
    batchText first (done ++ [r]) = batchText first done ++ renderRow r := by
  simp [batchText, renderRows]

theorem length_batchText_le (first : Bool) (done rest : List (Row D)) :
    (batchText first done).length ≤ (batchText first (done ++ rest)).length := by
  simp [batchText, renderRows]

/-- A row of a batch has an id that fits 32 bits. -/
theorem printedRow_of_mem {last e : ℤ} (hlast : -2 ^ 31 ≤ last) (he : e < 2 ^ 31) {T : Table D}
    {r : Row D} (hr : r ∈ idWindow T last e) :
    printedRow r = renderRow r ∧ r.id.bmod (2 ^ 32) = r.id := by
  have hmem := Paging.mem_between.mp (List.mem_of_mem_take hr)
  exact ⟨printedRow_eq (by omega) (by omega), bmod_eq_self (by omega) (by omega)⟩

theorem RowsPrinted.concat {last : ℤ} {size : ℕ} {first : Bool} {done : List (Row D)}
    {s : RowLoop} (hs : RowsPrinted last size first done s) (r : Row D) {junk : Bytes}
    (hlen : ((batchText first done ++ renderRow r) ++ 0 :: junk).length = size) :
    RowsPrinted last size first (done ++ [r])
      ⟨(batchText first done ++ renderRow r) ++ 0 :: junk,
        (batchText first done ++ renderRow r).length, s.count + 1, r.id⟩ where
  buffer := ⟨junk, by rw [batchText_concat]⟩
  length := hlen
  used := by rw [batchText_concat]
  count := by simp [hs.count]
  current_id := (Paging.reached_singleton Row.id last done r).symm

/-- The rows printed so far are the first of every window read later. -/
theorem RowLoopInv.take {last e : ℤ} {size h n : ℕ} {first : Bool} {s : RowLoop} {w₁ : World D}
    {T T' : Table D} {done : List (Row D)} {st : Stmt D}
    (hI : RowLoopInv M w last e size first h n s w₁ T done st) (hT' : M.inserts T T') :
    ∃ rest, idWindow T' last e = done ++ rest ∧ (idWindow T' last e)[st.taken]? = rest.head? := by
  obtain ⟨rest, hrest⟩ := hI.window.trans (idWindow_mono hT'.2 last e)
  refine ⟨rest, hrest.symm, ?_⟩
  rw [← hrest, hI.taken, List.getElem?_append_right le_rfl, Nat.sub_self, List.head?_eq_getElem?]

/-- One turn of the loop keeps the invariant or leaves with a result. -/
theorem rowTurn_inv {last e : ℤ} (hlast : -2 ^ 31 ≤ last) (he : e < 2 ^ 31) {size h n : ℕ}
    {first : Bool} {s : RowLoop} {w₁ : World D} {T : Table D} {done : List (Row D)} {st : Stmt D}
    (hI : RowLoopInv M w last e size first h n s w₁ T done st)
    {Q : Except Bytes (StepRc × RowLoop) → World D → Prop}
    (hfull : ∀ T buffer w₂, M.grows w.table T → buffer.length = size → 0 ∈ buffer →
      size ≤ (batchText first (idWindow T last e)).length →
      Frame M w T [T] false w.stmts w₂ → Q (.error buffer) w₂)
    (hdone : ∀ T s w₂ st, M.grows w.table T → RowsPrinted last size first (idWindow T last e) s →
      st.seen = some T → Frame M w T [] false ((h, st) :: w.stmts) w₂ → Q (.ok (.done, s)) w₂)
    (herr : ∀ T (done : List (Row D)) s w₂ st, M.sqlFails → M.grows w.table T →
      RowsPrinted last size first done s → Frame M w T [] true ((h, st) :: w.stmts) w₂ →
      Q (.ok (.error, s)) w₂) :
    Prog.wp t (surroundings env M) (rowTurn h size s)
      (Sum.elim (fun s' w' => ∃ m, (t → m < n) ∧
        ∃ T done st, RowLoopInv M w last e size first h m s' w' T done st) Q) w₁ := by
  obtain ⟨junk, hbuf⟩ := hI.printed.buffer
  have hrows : ∀ T, st.results T = (idWindow T last e).map Row.values := fun T => by
    rw [hI.results, batchStmt_results]
  refine rowTurn_wp hI.frame hI.sql hbuf hI.printed.length hI.printed.used hrows ?_ ?_ ?_ ?_
  · intro T' r w₂ junk' hT' hnth hlen hw₂
    obtain ⟨rest, hwin, hhead⟩ := hI.take hT'
    obtain ⟨hline, hid⟩ := printedRow_of_mem hlast he (List.mem_of_getElem? hnth)
    rw [hline] at hlen ⊢
    rw [hid]
    -- the row is the first of those still to come
    rw [hhead, List.head?_eq_some_iff] at hnth
    obtain ⟨rest, rfl⟩ := hnth
    have hle : (idWindow T' last e).length ≤ BATCH_ROWS := List.length_take_le _ _
    have hbound := hI.bound
    rw [hwin, List.length_append, List.length_cons] at hle
    refine ⟨n - 1, fun _ => by omega, T', done ++ [r], st.onRow T' r.values, ?_,
      M.grows_trans _ _ _ hI.grows hT'.1, hI.printed.concat r hlen, ?_, hI.sql, hI.results, ?_, hw₂⟩
    · rw [List.length_append, List.length_singleton]
      omega
    · rw [hwin]
      exact ⟨rest, by simp⟩
    · simp [Stmt.onRow, hI.taken]
  · intro T' r w₂ buffer hT' hnth hge hlen h0 hw₂
    obtain ⟨rest, hwin, hhead⟩ := hI.take hT'
    rw [(printedRow_of_mem hlast he (List.mem_of_getElem? hnth)).1, ← batchText_concat] at hge
    rw [hhead, List.head?_eq_some_iff] at hnth
    obtain ⟨rest, rfl⟩ := hnth
    refine hfull T' buffer w₂ (M.grows_trans _ _ _ hI.grows hT'.1) hlen h0 ?_ hw₂
    rw [hwin, List.append_cons]
    exact hge.trans (length_batchText_le first (done ++ [r]) rest)
  · intro T' w₂ hT' hnth hw₂
    obtain ⟨rest, hwin, hhead⟩ := hI.take hT'
    obtain rfl : rest = [] := by simpa [hhead] using hnth
    rw [List.append_nil] at hwin
    exact hdone T' s w₂ _ (M.grows_trans _ _ _ hI.grows hT'.1) (by rw [hwin]; exact hI.printed) rfl
      hw₂
  · intro w₂ hM hw₂
    exact herr T done s w₂ _ hM hI.grows hI.printed hw₂

theorem mem_zero_of_printed {last : ℤ} {size : ℕ} {first : Bool} {done : List (Row D)}
    {s : RowLoop} (hs : RowsPrinted last size first done s) : (0 : UInt8) ∈ s.buffer := by
  obtain ⟨junk, hbuf⟩ := hs.buffer
  rw [hbuf]
  simp

/-- What `sqlite_db_query_next_batch` does when it has left the row loop. -/
def batchExit (stmt : ℕ) (last_id : ℤ) : Except Bytes (StepRc × RowLoop) → Sys D Batch
  | .error buffer => .ret ⟨-1, buffer, last_id, 0⟩
  | .ok (rc, s) =>
    if rc ≠ .done then (sql (.finalize stmt)).bind fun _ => .ret ⟨-1, s.buffer, last_id, 0⟩
    else (sql (.finalize stmt)).bind fun _ => .ret ⟨0, s.buffer, s.current_id, s.count⟩

/-- The row loop, from whatever the header has left in the buffer. -/
theorem rowLoop_wp {Q : Batch → World D → Prop} {last e : ℤ} (hlast : -2 ^ 31 ≤ last)
    (he : e < 2 ^ 31) {size h : ℕ} {first : Bool}
    (hdone : ∀ T b w₁, BatchDone M w last e size first T b w₁ → Q b w₁)
    (hfailed : ∀ b w₁, BatchFailed M w last e size first b w₁ → Q b w₁) {T : Table D}
    {w₁ : World D} (hT : M.grows w.table T)
    (hw : Frame M w T [] false ((h, batchStmt last e) :: w.stmts) w₁) {s : RowLoop}
    (hs : RowsPrinted last size first ([] : List (Row D)) s) :
    Prog.wp t (surroundings env M) (.iter (rowTurn h size) s (batchExit h last)) Q w₁ := by
  refine Prog.wp_while (fun n s' w' => ∃ T done st,
    RowLoopInv M w last e size first h n s' w' T done st) BATCH_ROWS
    ⟨T, [], batchStmt last e, rfl, hT, hs, List.nil_prefix, rfl, rfl, rfl, hw⟩ ?_
  rintro n s' w' ⟨T', done, st, hI⟩
  refine rowTurn_inv hlast he hI ?_ ?_ ?_
  · intro T' buffer w₂ hT' hlen h0 hlong hw₂
    exact hfailed _ w₂ ⟨rfl, hlen, h0, rfl, rfl, T', [T'], false, hT', hw₂,
      .inr ⟨rfl, fun _ => rfl, hlong⟩⟩
  · intro T' s₁ w₂ st hT' hs₁ hseen hw₂
    rw [batchExit, if_neg (by simp)]
    refine wp_finalize_ret hw₂ fun T'' w₃ hT'' hw₃ => ?_
    rw [hseen] at hw₃
    refine hdone T' _ w₃ ⟨hT', hw₃.from hT'', rfl, ?_, hs₁.buffer, hs₁.length, hs₁.current_id,
      hs₁.count⟩
    -- the rows and their NUL lie in the buffer
    obtain ⟨junk, hbuf⟩ := hs₁.buffer
    rw [← hs₁.length, hbuf, List.length_append, List.length_cons]
    omega
  · intro T' done s₁ w₂ st hM hT' hs₁ hw₂
    rw [batchExit, if_pos (by simp)]
    refine wp_finalize_ret hw₂ fun T'' w₃ hT'' hw₃ => ?_
    exact hfailed _ w₃ ⟨rfl, hs₁.length, mem_zero_of_printed hs₁, rfl, rfl, T', _, true, hT',
      hw₃.from hT'', .inl ⟨rfl, hM⟩⟩

/-- One batch, for any buffer and whatever the surroundings do. -/
theorem sqliteDbQueryNextBatch_wp {Q : Batch → World D → Prop} {c : ℕ} {last e : ℤ}
    (hlast : -2 ^ 31 ≤ last) (he : e < 2 ^ 31) {buffer : Bytes} {size : ℕ}
    (hsize : buffer.length = size) (hpos : 0 < size) {next₀ count₀ : ℤ} {first : Bool}
    (hdone : ∀ T b w₁, BatchDone M w last e size first T b w₁ → Q b w₁)
    (hfailed : ∀ b w₁, BatchFailed M w last e size first b w₁ → Q b w₁) :
    Prog.wp t (surroundings env M)
      (sqliteDbQueryNextBatch (some ⟨some c⟩) last e buffer size next₀ count₀ first) Q w := by
  obtain ⟨x, junk, hbuffer⟩ : ∃ x junk, buffer = x :: junk := by
    cases buffer with
    | nil => simp at hsize; omega
    | cons x junk => exact ⟨x, junk, rfl⟩
  subst hbuffer
  have hjunk : junk.length + 1 = size := hsize
  -- a call fails before the loop: the buffer is empty
  have hexit : ∀ (hM : M.sqlFails) (T : Table D) (w₁ : World D), M.grows w.table T →
      Frame M w T [] true w.stmts w₁ → Q ⟨-1, 0 :: junk, last, 0⟩ w₁ := fun hM T w₁ hT hw₁ =>
    hfailed _ w₁ ⟨rfl, hjunk, by simp, rfl, rfl, T, [], true, hT, hw₁, .inl ⟨rfl, hM⟩⟩
  simp only [sqliteDbQueryNextBatch, Prog.bind_eq, Prog.pure_eq, Prog.loop_bind]
  rw [if_neg (by simp [noHandle]; omega)]
  refine wp_prepare (Frame.start M w) (fun h T w₁ hT hw₁ => ?_)
    fun T w₁ hM hT hw₁ => hexit hM T _ hT hw₁
  refine wp_bindInt hw₁ (fun T₁ w₂ hT₁ hw₂ => ?_) fun w₂ hM hw₂ =>
    wp_finalize_ret hw₂ fun T' w' hT' hw' => hexit hM _ _ (M.grows_trans _ _ _ hT hT'.1) hw'
  replace hT₁ := M.grows_trans _ _ _ hT hT₁.1
  refine wp_bindInt hw₂ (fun T₂ w₃ hT₂ hw₃ => ?_) fun w₃ hM hw₃ =>
    wp_finalize_ret hw₃ fun T' w' hT' hw' => hexit hM _ _ (M.grows_trans _ _ _ hT₁ hT'.1) hw'
  replace hT₂ := M.grows_trans _ _ _ hT₁ hT₂.1
  refine wp_bindInt hw₃ (fun T₃ w₄ hT₃ hw₄ => ?_) fun w₄ hM hw₄ =>
    wp_finalize_ret hw₄ fun T' w' hT' hw' => hexit hM _ _ (M.grows_trans _ _ _ hT₂ hT'.1) hw'
  replace hT₃ := M.grows_trans _ _ _ hT₂ hT₃.1
  have hset : (x :: junk).set 0 0 = [] ++ 0 :: junk := rfl
  cases first with
  | false =>
    exact rowLoop_wp hlast he hdone hfailed hT₃ hw₄ ⟨⟨junk, rfl⟩, hjunk, rfl, rfl, rfl⟩
  | true =>
    rw [hset]
    generalize hp : snprintf ([] ++ 0 :: junk) 0 size headerLine = p
    have hlenp : p.2.length = size := by
      rw [← hp, length_snprintf (by simp; omega)]
      exact hjunk
    have hwritten : p.1 = headerLine.length := by rw [← hp]; rfl
    simp only [Bool.not_true, Bool.false_eq_true, if_false, if_true, true_and]
    by_cases hfit : headerLine.length < size
    · rw [if_neg (by omega)]
      have hsn : snprintf ([] ++ 0 :: junk) 0 size headerLine
          = ((headerLine.length : ℤ), ([] ++ headerLine) ++ 0 :: junk.drop headerLine.length) :=
        snprintf_fits hfit
      rw [hsn] at hp
      have hbuf : p.2 = batchText true ([] : List (Row D)) ++ 0 :: junk.drop headerLine.length := by
        rw [← hp]
        simp [batchText, renderRows]
      refine rowLoop_wp hlast he hdone hfailed hT₃ hw₄ ⟨⟨_, hbuf⟩, hlenp, ?_, rfl, rfl⟩
      simp [hwritten, batchText, renderRows]
    · rw [if_pos (by omega)]
      refine wp_finalize_ret hw₄ fun T' w' hT' hw' => ?_
      refine hfailed _ w' ⟨rfl, by rw [List.length_set, hlenp], ?_, rfl, rfl, T₃, [], false, hT₃,
        hw'.from hT', .inr ⟨rfl, fun h => absurd h hfit, ?_⟩⟩
      · exact List.mem_iff_getElem.mpr ⟨size - 1, by rw [List.length_set, hlenp]; omega, by simp⟩
      · simp only [batchText, if_true, List.length_append]
        omega

end SensorGateway
