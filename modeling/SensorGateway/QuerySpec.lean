/-
What gateway_handle_query does, in any surroundings and with any output handler.

The handler is described by what a call leaves in the outputs of the thread
(`Handles`).  `gatewayHandleQuery_wp` says that the batches handed to it are the
pages of a reader of the table (`Paging.Paged`), rendered; the loop ends because
each page moves the last id up towards the end of the range.  It ends with

* `QueryOutcome.complete` — a page came back empty, and 0 is returned;
* `QueryOutcome.batch` — a batch failed and left nothing;
* `QueryOutcome.handler` — the handler returned non-zero and was not called again.
-/
import SensorGateway.SqliteDbSpec

open CString Sqlite

namespace SensorGateway

variable {D : Type} [Libc D] {t : Prop} {env : Env D} {M : Mode D} {w : World D}

/-! ### Output handlers -/

/-- What a thread has put out, with what it has noted down. -/
structure Out (D : Type) where
  sent : Bytes
  delivered : List Bytes
  log : List (Entry D)

def World.out (w : World D) : Out D := ⟨w.sent, w.delivered, w.log⟩

def World.withOut (w : World D) (o : Out D) : World D :=
  { w with sent := o.sent, delivered := o.delivered, log := o.log }

/-- The text of a batch that is not empty. -/
def IsBatch (D : Type) [Libc D] (text : Bytes) : Prop :=
  ∃ (first : Bool) (rows : List (Row D)), rows ≠ [] ∧ text = batchText first rows

/-- A call of the handler with a batch returns `r` and makes `o'` of the outputs
`o` when `rec o text r o'`, and does nothing else. -/
def Handles (t : Prop) (env : Env D) (M : Mode D) (handler : Bytes → Sys D ℤ)
    (rec : Out D → Bytes → ℤ → Out D → Prop) : Prop :=
  ∀ (text : Bytes) (w : World D) (Q : ℤ → World D → Prop), IsBatch D text →
    (∀ r o, rec w.out text r o → Q r (w.withOut o)) →
    Prog.wp t (surroundings env M) (handler text) Q w

/-- The outputs after the handler has returned 0 for each of the texts. -/
inductive Wrote (rec : Out D → Bytes → ℤ → Out D → Prop) (o₀ : Out D) :
    List Bytes → Out D → Prop
  | nil : Wrote rec o₀ [] o₀
  | concat {texts : List Bytes} {text : Bytes} {o o' : Out D} (h : Wrote rec o₀ texts o)
      (ht : rec o text 0 o') : Wrote rec o₀ (texts ++ [text]) o'

omit [Libc D] in
theorem Wrote.of_nil {rec : Out D → Bytes → ℤ → Out D → Prop} {o o' : Out D}
    (h : Wrote rec o [] o') : o' = o := by
  generalize hl : ([] : List Bytes) = l at h
  cases h with
  | nil => rfl
  | concat _ _ => simp at hl

/-- The handler a caller passes in. -/
def delivers (M : Mode D) (o : Out D) (text : Bytes) (r : ℤ) (o' : Out D) : Prop :=
  M.output r ∧ o' = { o with delivered := o.delivered ++ [text] }

theorem output_handles : Handles t env M output (delivers M) := by
  intro text w Q _ hQ
  refine ⟨trivial, ?_⟩
  rintro r w₁ ⟨hr, rfl⟩
  exact hQ r _ ⟨hr, rfl⟩

omit [Libc D] in
theorem wrote_delivers {o o' : Out D} {texts : List Bytes} (h : Wrote (delivers M) o texts o') :
    o' = { o with delivered := o.delivered ++ texts } := by
  induction h with
  | nil => simp
  | concat _ ht ih => simp [ht.2, ih]

/-! ### Batches -/

theorem renderRow_ne_nil (r : Row D) : renderRow r ≠ [] := by
  simp [renderRow, rowLine, bytes, ofChars]

theorem batchText_ne_nil (first : Bool) {rows : List (Row D)} (h : rows ≠ []) :
    batchText first rows ≠ [] := by
  obtain ⟨r, rest, rfl⟩ := List.exists_cons_of_ne_nil h
  simp [batchText, renderRows, renderRow_ne_nil]

/-! ### The loop -/

/-- The reader behind a query from `s` to `e`. -/
abbrev Read (M : Mode D) (s e : ℤ) (T₀ : Table D) (Ts : List (Table D))
    (ps : List (List (Row D))) : Prop :=
  Paging.Paged Row.id Table.rows M.grows BATCH_ROWS (s - 1) e T₀ Ts ps

/-- Where a query stands after the pages `ps`. -/
abbrev lastId (s : ℤ) (ps : List (List (Row D))) : ℤ := Paging.reached Row.id (s - 1) ps

/-- The world after the pages `ps` of the tables `Ts` have been handed out. -/
structure Handed (M : Mode D) (rec : Out D → Bytes → ℤ → Out D → Prop) (s e : ℤ) (w₀ : World D)
    (Ts : List (Table D)) (ps : List (List (Row D))) (o : Out D) : Prop where
  read : Read M s e w₀.table Ts ps
  fits : ∀ text ∈ batchTexts ps, Fits text
  wrote : Wrote rec w₀.out (batchTexts ps) o

/-- How a query ends. -/
inductive QueryOutcome (M : Mode D) (rec : Out D → Bytes → ℤ → Out D → Prop) (s e : ℤ)
    (w₀ : World D) : ℤ → World D → Prop
  /-- A page came back empty. -/
  | complete {Ts ps T w₁} (h : Handed M rec s e w₀ Ts ps w₁.out)
      (hg : M.grows (Ts.getLast?.getD w₀.table) T)
      (hend : idWindow T (lastId s ps) e = []) (hreads : w₁.reads = w₀.reads ++ (Ts ++ [T]))
      (hfailed : w₁.failed = w₀.failed) : QueryOutcome M rec s e w₀ 0 w₁
  /-- A batch failed: a SQLite call did, or the page of `T` did not fit. -/
  | batch {Ts ps T w₁} {f : Bool} (h : Handed M rec s e w₀ Ts ps w₁.out)
      (hg : M.grows (Ts.getLast?.getD w₀.table) T) (hfailed : w₁.failed = (w₀.failed || f))
      (hcause : f = true ∧ M.sqlFails ∨ f = false ∧ w₁.reads = w₀.reads ++ (Ts ++ [T]) ∧
        ¬ Fits (batchText (ps = []) (idWindow T (lastId s ps) e))) :
      QueryOutcome M rec s e w₀ (-1) w₁
  /-- The handler returned `r` for a page of `T`. -/
  | handler {Ts ps T w₁ o} {r : ℤ} (h : Handed M rec s e w₀ Ts ps o)
      (hg : M.grows (Ts.getLast?.getD w₀.table) T)
      (hne : idWindow T (lastId s ps) e ≠ [])
      (hfit : Fits (batchText (ps = []) (idWindow T (lastId s ps) e))) (hr : r ≠ 0)
      (hrec : rec o (batchText (ps = []) (idWindow T (lastId s ps) e)) r w₁.out)
      (hfailed : w₁.failed = w₀.failed) : QueryOutcome M rec s e w₀ (-1) w₁

/-- What a query leaves as it was. -/
structure Untouched (M : Mode D) (w₀ w₁ : World D) : Prop where
  stmts : w₁.stmts = w₀.stmts
  incoming : w₁.incoming = w₀.incoming
  table : M.grows w₀.table w₁.table

/-- The loop of gateway_handle_query after the pages `ps`. -/
structure QueryLoopInv (M : Mode D) (rec : Out D → Bytes → ℤ → Out D → Prop) (s e : ℤ)
    (w₀ : World D) (n : ℕ) (q : QueryLoop) (w₁ : World D) (Ts : List (Table D))
    (ps : List (List (Row D))) : Prop where
  bound : n = (e - lastId s ps).toNat
  last_id : q.last_id = lastId s ps
  first : q.is_first_batch = decide (ps = [])
  buffer : q.batch_buffer.length = BATCH_BUFFER_SIZE
  handed : Handed M rec s e w₀ Ts ps w₁.out
  untouched : Untouched M w₀ w₁
  table : M.grows (Ts.getLast?.getD w₀.table) w₁.table
  reads : w₁.reads = w₀.reads ++ Ts
  failed : w₁.failed = w₀.failed

variable {rec : Out D → Bytes → ℤ → Out D → Prop} {handler : Bytes → Sys D ℤ} {s e : ℤ} {c : ℕ}

omit [Libc D] in
theorem Untouched.frame {w₀ w₁ w₂ : World D} (h : Untouched M w₀ w₁) {T : Table D}
    {Rs : List (Table D)} {f : Bool} (hT : M.grows w₁.table T)
    (hw : Frame M w₁ T Rs f w₁.stmts w₂) : Untouched M w₀ w₂ :=
  ⟨hw.stmts.trans h.stmts, hw.incoming.trans h.incoming,
    M.grows_trans _ _ _ h.table (M.grows_trans _ _ _ hT hw.table.1)⟩

omit [Libc D] in
theorem Untouched.withOut {w₀ w₁ : World D} (h : Untouched M w₀ w₁) (o : Out D) :
    Untouched M w₀ (w₁.withOut o) := ⟨h.stmts, h.incoming, h.table⟩

omit [Libc D] in
theorem Frame.out_eq {w₀ w₁ : World D} {T : Table D} {Rs : List (Table D)} {f : Bool}
    {l : Stmts D} (hw : Frame M w₀ T Rs f l w₁) : w₁.out = w₀.out := by
  rw [World.out, World.out, hw.sent, hw.delivered, hw.log]

omit [Libc D] in
/-- A page moves the reader on, inside the range. -/
theorem lastId_concat {T : Table D} {ps : List (List (Row D))}
    (hne : idWindow T (lastId s ps) e ≠ []) :
    lastId s (ps ++ [idWindow T (lastId s ps) e])
        = Paging.reached Row.id (lastId s ps) [idWindow T (lastId s ps) e] ∧
      lastId s ps < lastId s (ps ++ [idWindow T (lastId s ps) e]) ∧
      lastId s (ps ++ [idWindow T (lastId s ps) e]) ≤ e := by
  obtain ⟨x, hx⟩ := Paging.exists_getLast? hne
  have hmem := Paging.mem_between.mp (List.mem_of_mem_take (List.mem_of_getLast? hx))
  obtain ⟨q, hq⟩ := List.getLast?_eq_some_iff.mp hx
  have h1 : lastId s (ps ++ [idWindow T (lastId s ps) e]) = x.id := Paging.reached_concat hx
  refine ⟨?_, by omega, by omega⟩
  rw [h1, hq, Paging.reached_singleton]

/-- A page whose text fits has been handed out. -/
theorem Handed.concat {w₀ : World D} {Ts : List (Table D)} {ps : List (List (Row D))} {o o' : Out D}
    {T : Table D} (h : Handed M rec s e w₀ Ts ps o) (hg : M.grows (Ts.getLast?.getD w₀.table) T)
    (hne : idWindow T (lastId s ps) e ≠ [])
    (hfit : Fits (batchText (ps = []) (idWindow T (lastId s ps) e)))
    (hrec : rec o (batchText (ps = []) (idWindow T (lastId s ps) e)) 0 o') :
    Handed M rec s e w₀ (Ts ++ [T]) (ps ++ [idWindow T (lastId s ps) e]) o' where
  read := h.read.concat hg hne
  fits := by
    rw [batchTexts_concat]
    intro text htext
    rcases List.mem_append.mp htext with htext | htext
    · exact h.fits text htext
    · rw [List.mem_singleton.mp htext]
      exact hfit
  wrote := by
    rw [batchTexts_concat]
    exact h.wrote.concat hrec

/-- Before the loop no page has been read. -/
theorem QueryLoopInv.start (w₀ : World D) :
    QueryLoopInv M rec s e w₀ (e - (s - 1)).toNat (.start s) w₀ [] [] where
  bound := rfl
  last_id := rfl
  first := rfl
  buffer := List.length_replicate
  handed := ⟨.nil, by simp [batchTexts], .nil⟩
  untouched := ⟨rfl, rfl, M.grows_refl _⟩
  table := M.grows_refl _
  reads := (List.append_nil _).symm
  failed := rfl

/-- One turn: the next page is handed out, or the query ends. -/
theorem queryTurn_wp (hh : Handles t env M handler rec) (hs : 0 ≤ s) (hse : s ≤ e)
    (he : e < 2 ^ 31) {w₀ : World D} {n : ℕ} {q : QueryLoop} {w₁ : World D}
    {Ts : List (Table D)} {ps : List (List (Row D))}
    (hI : QueryLoopInv M rec s e w₀ n q w₁ Ts ps) :
    Prog.wp t (surroundings env M) (queryTurn (openGateway c) e handler q)
      (Sum.elim (fun q' w' => ∃ m, (t → m < n) ∧ ∃ Ts ps, QueryLoopInv M rec s e w₀ m q' w' Ts ps)
        fun r w' => QueryOutcome M rec s e w₀ r w' ∧ Untouched M w₀ w') w₁ := by
  have hbounds : s - 1 ≤ lastId s ps ∧ lastId s ps ≤ e := hI.handed.read.bounds (by omega)
  have hlast : -2 ^ 31 ≤ q.last_id := by rw [hI.last_id]; omega
  simp only [queryTurn, dataServiceQueryNextBatch, openGateway, Prog.bind_eq, Prog.pure_eq]
  rw [if_neg (by simp [BATCH_BUFFER_SIZE])]
  refine Prog.wp_bind (sqliteDbQueryNextBatch_wp hlast he hI.buffer (by decide) ?_ ?_)
  · intro T b w₂ hb
    have hg : M.grows (Ts.getLast?.getD w₀.table) T := M.grows_trans _ _ _ hI.table hb.grows
    have hun := hI.untouched.frame hb.grows hb.frame
    have hout : w₂.out = w₁.out := hb.frame.out_eq
    rw [hb.rc, if_neg (by decide), hb.row_count]
    have hwin : idWindow T q.last_id e = idWindow T (lastId s ps) e := by rw [hI.last_id]
    rw [hwin]
    by_cases hnil : idWindow T (lastId s ps) e = []
    -- row_count is 0: the loop is left
    · rw [if_pos (by simp [hnil])]
      refine ⟨.complete ?_ hg hnil ?_ ?_, hun⟩
      · rw [hout]
        exact hI.handed
      · rw [hb.frame.reads, hI.reads, List.append_assoc]
      · rw [hb.frame.failed, hI.failed, Bool.or_false]
    · rw [if_neg (by simpa using hnil)]
      obtain ⟨junk, hbuf⟩ := hb.buffer
      have htext : batchText q.is_first_batch (idWindow T q.last_id e)
          = batchText (ps = []) (idWindow T (lastId s ps) e) := by rw [hwin, hI.first]
      -- the handler gets the buffer up to its NUL
      have hcstr : cstr b.buffer 0 = batchText (ps = []) (idWindow T (lastId s ps) e) := by
        rw [hbuf, htext]
        exact cstr_append (zero_notMem_batchText _ _) [] junk
      have hfit : Fits (batchText (ps = []) (idWindow T (lastId s ps) e)) := by
        rw [← htext]
        exact hb.fits
      rw [hcstr]
      refine Prog.wp_bind (hh _ _ _ ⟨_, _, hnil, rfl⟩ fun r o hrec => ?_)
      rw [hout] at hrec
      by_cases hr : r = 0
      · subst hr
        -- the page moves last_id on, which bounds the turns
        obtain ⟨hreach, hlt, hle⟩ := lastId_concat hnil
        rw [if_neg (by decide)]
        refine ⟨_, fun _ => ?_, Ts ++ [T], ps ++ [idWindow T (lastId s ps) e], rfl, ?_, ?_,
          hb.length, hI.handed.concat hg hnil hfit hrec, hun.withOut o, ?_, ?_, ?_⟩
        · rw [hI.bound]
          omega
        · rw [hb.next_id, hwin, hI.last_id, hreach]
        · simp
        · show M.grows ((Ts ++ [T]).getLast?.getD w₀.table) w₂.table
          simpa using hb.frame.table.1
        · show w₂.reads = _
          rw [hb.frame.reads, hI.reads, List.append_assoc]
        · show w₂.failed = _
          rw [hb.frame.failed, hI.failed, Bool.or_false]
      · rw [if_pos hr]
        refine ⟨.handler hI.handed hg hnil hfit hr hrec ?_, hun.withOut o⟩
        show w₂.failed = _
        rw [hb.frame.failed, hI.failed, Bool.or_false]
  · intro b w₂ hb
    -- the batch is given up, and what it has left in the buffer with it
    obtain ⟨T, Rs, f, hT, hframe, hcause⟩ := hb.cause
    rw [hb.rc, if_pos (by decide)]
    have hhanded : Handed M rec s e w₀ Ts ps w₂.out := by
      rw [hframe.out_eq]
      exact hI.handed
    refine ⟨.batch (T := T) (f := f) hhanded (M.grows_trans _ _ _ hI.table hT) ?_ ?_,
      hI.untouched.frame hT hframe⟩
    · rw [hframe.failed, hI.failed]
    · rw [hI.last_id, hI.first] at hcause
      refine hcause.imp id fun h => ⟨h.1, ?_, ?_⟩
      · rw [hframe.reads, h.2.1 (by decide), hI.reads, List.append_assoc]
      · rw [Fits]
        exact Nat.not_lt.mpr h.2.2

/-- The whole query.  `t` may hold: the loop ends whatever happens to the table. -/
theorem gatewayHandleQuery_wp (hh : Handles t env M handler rec) (hs : 0 ≤ s) (hse : s ≤ e)
    (he : e < 2 ^ 31) (w₀ : World D) :
    Prog.wp t (surroundings env M) (gatewayHandleQuery (openGateway c) s e handler)
      (fun r w' => QueryOutcome M rec s e w₀ r w' ∧ Untouched M w₀ w') w₀ := by
  refine Prog.wp_while (fun n q w' => ∃ Ts ps, QueryLoopInv M rec s e w₀ n q w' Ts ps)
    (e - (s - 1)).toNat ⟨[], [], .start w₀⟩ ?_
  rintro n q w' ⟨Ts, ps, hI⟩
  exact Prog.wp_mono (fun x w' h => by cases x <;> exact h) (queryTurn_wp hh hs hse he hI)

end SensorGateway
