/-
A QUERY that fails midway.

SQLite calls, the buffer and the output handler may fail at any batch.  What has
been handed to the output handler is then a prefix of the batches of the report,
each of them whole (`query_cleanPrefix`), and after the first failure nothing is
handed to it any more.
-/
import SensorGateway.Snapshot
import SensorGateway.Traces

open CString Sqlite

namespace SensorGateway

variable {D : Type} [Libc D] {t : Prop} {env : Env D} {w w₁ : World D} {s e r : ℤ} {c : ℕ}

/-! ### After a failure -/

/-- The answers that tell of a failure: of a SQLite call, or of the output handler. -/
def refused : (o : SysOp D) → SysAns o → Bool
  | .sql (.prepare _), a => a.isNone
  | .sql (.bindText _ _ _), a => !a
  | .sql (.bindDouble _ _ _), a => !a
  | .sql (.bindInt _ _ _), a => !a
  | .sql (.step _), a => a = .error
  | .output _, a => a ≠ 0
  | _, _ => false

def isOutput : SysOp D → Bool
  | .output _ => true
  | _ => false

section alert

variable {α : Type} {Q : α → Bool → Prop}

omit [Libc D] in
/-- A SQLite call before any failure. -/
theorem alert_sql {o : SqlOp D} {k : SqlAns o → Sys D α}
    (hk : ∀ a, Prog.wp t (Prog.alert refused isOutput) (k a) Q (refused (.sql o) a)) :
    Prog.wp t (Prog.alert refused isOutput) ((sql o).bind k) Q false := by
  refine Prog.wp_perform (fun _ => rfl) ?_
  rintro a _ rfl
  exact hk a

omit [Libc D] in
/-- Leaving a function, after a failure or before. -/
theorem alert_finalize {h : ℕ} {a : α} {b : Bool} (hQ : Q a b) :
    Prog.wp t (Prog.alert refused isOutput) ((sql (.finalize h : SqlOp D)).bind fun _ => .ret a) Q
      b := by
  refine Prog.wp_perform (fun _ => rfl) ?_
  rintro ⟨⟩ b' rfl
  have hb : (b || refused (.sql (.finalize h : SqlOp D)) ()) = b := Bool.or_false b
  rw [hb]
  exact hQ

/-- One turn of the row loop: only a failed step is a failure. -/
theorem rowTurn_alert (stmt size : ℕ) (x : RowLoop) : Prog.wp t (Prog.alert refused isOutput)
    (rowTurn stmt size x : Sys D _) (Sum.elim (fun _ b => b = false)
      fun y b => b = true → ∃ x, y = .ok (.error, x)) false := by
  simp only [rowTurn, Prog.bind_eq, Prog.pure_eq]
  refine alert_sql fun rc => ?_
  cases rc with
  | row =>
    rw [if_pos rfl]
    iterate 7
      refine alert_sql fun _ => ?_
    split
    · exact alert_finalize fun h => absurd h Bool.false_ne_true
    · rfl
  | done => exact fun h => absurd h Bool.false_ne_true
  | error => exact fun _ => ⟨x, rfl⟩

/-- The row loop: a batch is returned only if no step has failed. -/
theorem rowLoop_alert (h : ℕ) (last : ℤ) (size : ℕ) (x : RowLoop) :
    Prog.wp False (Prog.alert refused isOutput)
      (.iter (rowTurn h size) x (batchExit h last) : Sys D Batch)
      (fun b bad => bad = true → b.rc ≠ 0) false := by
  refine Prog.wp_iter (fun _ bad => bad = false) rfl ?_
  rintro x bad rfl
  refine Prog.wp_mono ?_ (rowTurn_alert h size x)
  rintro (x' | buffer | ⟨rc, x'⟩) bad hbad
  · exact hbad
  · intro _
    show (-1 : ℤ) ≠ 0
    omega
  · rw [Sum.elim_inr, batchExit]
    split
    · refine alert_finalize fun _ => ?_
      show (-1 : ℤ) ≠ 0
      omega
    · rename_i hrc
      refine alert_finalize fun hb => ?_
      obtain ⟨x'', hx⟩ := hbad hb
      -- the step has not failed
      cases hx
      exact absurd (by decide) hrc

/-- A batch during which a SQLite call has failed is not returned. -/
theorem queryNextBatch_alert (db : Option SqliteDb) (last end_id : ℤ) (buffer : Bytes) (size : ℕ)
    (next₀ count₀ : ℤ) (first : Bool) : Prog.wp False (Prog.alert refused isOutput)
      (sqliteDbQueryNextBatch db last end_id buffer size next₀ count₀ first : Sys D Batch)
      (fun b bad => bad = true → b.rc ≠ 0) false := by
  have hneg : ∀ (b : Batch) (bad : Bool), b.rc = -1 → bad = true → b.rc ≠ 0 := by
    intro b bad hb _
    rw [hb]
    decide
  simp only [sqliteDbQueryNextBatch, Prog.bind_eq, Prog.pure_eq]
  split
  · exact hneg _ _ rfl
  refine alert_sql fun stmt => ?_
  cases stmt with
  | none => exact hneg _ _ rfl
  | some h =>
    -- a bind that fails ends the batch
    have hbind : ∀ (i : ℕ) (v : ℤ) (b : Batch) (p : Sys D Batch), b.rc = -1 →
        Prog.wp False (Prog.alert refused isOutput) p (fun b bad => bad = true → b.rc ≠ 0) false →
        Prog.wp False (Prog.alert refused isOutput) ((sql (.bindInt h i v)).bind fun a =>
          if !a then (sql (.finalize h)).bind fun _ => .ret b else p)
          (fun b bad => bad = true → b.rc ≠ 0) false := by
      intro i v b p hb hp
      refine alert_sql fun a => ?_
      cases a with
      | false => exact alert_finalize (hneg b _ hb)
      | true => exact hp
    refine hbind _ _ _ _ rfl (hbind _ _ _ _ rfl (hbind _ _ _ _ rfl ?_))
    split
    · split
      · exact alert_finalize (hneg _ _ rfl)
      · exact rowLoop_alert h last size _
    · split
      · exact alert_finalize (hneg _ _ rfl)
      · exact rowLoop_alert h last size _

/-- One turn of the query: it goes on only if nothing has failed. -/
theorem queryTurn_alert (gateway : Gateway) (end_id : ℤ) (q : QueryLoop) :
    Prog.wp False (Prog.alert refused isOutput)
      (queryTurn gateway end_id output q : Sys D _)
      (Sum.elim (fun _ b => b = false) fun _ _ => True) false := by
  simp only [queryTurn, dataServiceQueryNextBatch, Prog.bind_eq, Prog.pure_eq]
  have hrest : ∀ (b : Batch) (bad : Bool), (bad = true → b.rc ≠ 0) →
      Prog.wp False (Prog.alert refused isOutput)
        (if b.rc ≠ 0 then .ret (.inr (-1))
        else if b.row_count = 0 then .ret (.inr 0)
        else (output (cstr b.buffer 0)).bind fun rc =>
          if rc ≠ 0 then .ret (.inr (-1))
          else .ret (.inl ⟨b.next_id, b.next_id, b.row_count, false, b.buffer⟩) :
          Sys D (QueryLoop ⊕ ℤ))
        (Sum.elim (fun _ b => b = false) fun _ _ => True) bad := by
    intro b bad hbad
    split
    · trivial
    rename_i hrc
    split
    · trivial
    -- the batch has not failed, so the handler may be called
    have hgood : bad = false := Bool.eq_false_iff.mpr fun h => hbad h (not_not.mp hrc)
    subst hgood
    refine Prog.wp_perform (fun h => absurd h Bool.false_ne_true) ?_
    rintro rc bad' rfl
    split
    · trivial
    · rename_i hzero
      exact decide_eq_false hzero
  split
  · split
    · rw [Prog.ret_bind, if_pos (show (-1 : ℤ) ≠ 0 by decide)]
      trivial
    · exact Prog.wp_seq (queryNextBatch_alert _ _ _ _ _ _ _ _) hrest
  · rw [Prog.ret_bind, if_pos (show (-1 : ℤ) ≠ 0 by decide)]
    trivial

theorem gatewayHandleQuery_alert (gateway : Gateway) (s e : ℤ) :
    Prog.wp False (Prog.alert refused isOutput) (gatewayHandleQuery gateway s e output : Sys D ℤ)
      (fun _ _ => True) false := by
  refine Prog.wp_iter (fun _ bad => bad = false) rfl ?_
  rintro q bad rfl
  refine Prog.wp_mono ?_ (queryTurn_alert gateway e q)
  rintro (q' | r) bad hbad
  · exact hbad
  · trivial

end alert

/-! ### Whole batches -/

theorem batchText_getLast? (first : Bool) {rows : List (Row D)} (h : rows ≠ []) :
    (batchText first rows).getLast? = some 10 := by
  obtain ⟨q, r, rfl⟩ := List.eq_nil_or_concat' rows |>.resolve_left h
  have hnl : bytes "\n" = [10] := rfl
  rw [batchText_concat, renderRow, rowLine, hnl, ← List.append_assoc, List.getLast?_concat]

theorem firstBatches_isPrefix {rows : List (Row D)} {n : ℕ} (hn : n ≤ batchCount rows.length) :
    (List.range n).map (batchAt rows) <+: batches rows := by
  obtain ⟨m, hm⟩ := Nat.exists_eq_add_of_le hn
  rw [batches, hm, List.range_add, List.map_append]
  exact List.prefix_append _ _

theorem getLast?_of_mem_batches {rows : List (Row D)} {text : Bytes} (h : text ∈ batches rows) :
    text.getLast? = some 10 := by
  obtain ⟨i, hi, rfl⟩ := List.mem_map.mp h
  exact batchText_getLast? _ (window_ne_nil.mpr (List.mem_range.mp hi))

/-- Whatever has failed, the first batches of the report have been delivered. -/
theorem QueryOutcome.firstBatches {M : Mode D} (hfix : ∀ T T', M.grows T T' → T = T')
    (h : QueryOutcome M (delivers M) s e w r w₁) : ∃ n, n ≤ batchCount (w.table.range s e).length ∧
      w₁.delivered = w.delivered ++ (List.range n).map (batchAt (w.table.range s e)) ∧
      ∀ text ∈ (List.range n).map (batchAt (w.table.range s e)), Fits text := by
  have hhanded : ∀ {Ts ps T w₁}, Handed M (delivers M) s e w Ts ps (World.out w₁) →
      M.grows (Ts.getLast?.getD w.table) T → ∃ n, n ≤ batchCount (w.table.range s e).length ∧
        w₁.delivered = w.delivered ++ (List.range n).map (batchAt (w.table.range s e)) ∧
        ∀ text ∈ (List.range n).map (batchAt (w.table.range s e)), Fits text := by
    intro Ts ps T w₁ hh hg
    obtain ⟨-, hlen, htexts, -⟩ := hh.windows hfix hg
    refine ⟨ps.length, hlen, ?_⟩
    rw [← htexts]
    exact ⟨congrArg Out.delivered (wrote_delivers hh.wrote), hh.fits⟩
  cases h with
  | complete hh hg _ _ _ => exact hhanded hh hg
  | batch hh hg _ _ => exact hhanded hh hg
  | @handler Ts ps T _ o r hh hg hne hfit _ hrec _ =>
    -- the batch that was refused has been delivered as well
    obtain ⟨-, -, htexts, hwin⟩ := hh.windows hfix hg
    have hlt : ps.length < batchCount (w.table.range s e).length := by
      rw [← window_ne_nil, ← hwin]
      exact hne
    have htext : batchText (ps = []) (idWindow T (lastId s ps) e)
        = batchAt (w.table.range s e) ps.length := by
      rw [hwin, batchAt]
      simp [List.length_eq_zero_iff]
    have hrange : (List.range (ps.length + 1)).map (batchAt (w.table.range s e))
        = batchTexts ps ++ [batchAt (w.table.range s e) ps.length] := by
      rw [List.range_succ, List.map_append, htexts, List.map_singleton]
    rw [htext] at hfit hrec
    refine ⟨ps.length + 1, hlt, ?_, ?_⟩
    · have hdel := congrArg Out.delivered (wrote_delivers hh.wrote)
      have hlast := congrArg Out.delivered hrec.2
      rw [hrange, ← List.append_assoc]
      exact hlast.trans (congrArg (· ++ [_]) hdel)
    · rw [hrange]
      intro text htext
      rcases List.mem_append.mp htext with hmem | hmem
      · exact hh.fits text hmem
      · rw [List.mem_singleton.mp hmem]
        exact hfit

/-- A query on `T` has handed out whole batches only, each of which ends a line;
nothing after the first failure; and the table is as it was. -/
structure CleanPrefix (T : Table D) (s e : ℤ) (w w₁ : World D)
    (l : List (Prog.Event (SysOp D) SysAns)) : Prop where
  delivered : ∃ texts, w₁.delivered = w.delivered ++ texts ∧ texts <+: batches (T.range s e) ∧
    ∀ text ∈ texts, Fits text ∧ text.getLast? = some 10
  silenced : Prog.Silenced refused isOutput l
  table : w₁.table = T

theorem query_cleanPrefix (hs : 0 ≤ s) (hse : s ≤ e) (he : e ≤ 2 ^ 31 - 1)
    {l : List (Prog.Event (SysOp D) SysAns)}
    (hrun : Prog.Runs (Prog.traced (Answers env faultyMode))
      (gatewayHandleQuery (openGateway c) s e output) (w, []) r (w₁, l)) :
    CleanPrefix w.table s e w w₁ l := by
  have hh : Handles False env faultyMode output (delivers faultyMode) := output_handles
  have hwp := gatewayHandleQuery_wp (c := c) hh hs hse (by omega) w
  obtain ⟨hout, huntouched⟩ := Prog.wp_runs (fun _ _ _ _ _ h => h) hwp hrun.untraced
  obtain ⟨n, hn, hdel, hfits⟩ := hout.firstBatches fun _ _ h => h
  have hsilenced := Prog.alert_silenced hrun (gatewayHandleQuery_alert (openGateway c) s e) .nil
  have hpre := firstBatches_isPrefix hn
  refine ⟨⟨_, hdel, hpre, fun text htext => ⟨hfits text htext, ?_⟩⟩, hsilenced.1, ?_⟩
  · exact getLast?_of_mem_batches (hpre.subset htext)
  · exact (show w.table = w₁.table from huntouched.table).symm

/-! ### A run -/

/-- Nothing fails but a step of the second batch, after three rows. -/
def faltering (env : Env D) (w : World D) : (o : SysOp D) → SysAns o × World D
  | .sql (.step h) =>
    if w.delivered.length = 1 ∧ (w.stmts.get? h).map Stmt.taken = some 3 then
      (.error, w.afterFailure w.table)
    else quiet env id w (.sql (.step h))
  | o => quiet env id w o

theorem faltering_answers (env : Env D) (w : World D) (o : SysOp D)
    (h : Legal env faultyMode w o) :
    Answers env faultyMode w o (faltering env w o).1 (faltering env w o).2 := by
  have hquiet : Answers env faultyMode w o (quiet env id w o).1 (quiet env id w o).2 :=
    quiet_answers (M := faultyMode) trivial env id w o h
  unfold faltering
  split
  · split
    · exact ⟨w.table, Mode.before_refl _ _ _, .inr ⟨trivial, rfl, rfl⟩⟩
    · exact hquiet
  · exact hquiet

/-- Of two batches one has been handed out when the other fails. -/
theorem query_cleanPrefix_faltering : ∃ (w₁ : World Binary64)
    (l : List (Prog.Event (SysOp Binary64) SysAns)),
    w₁.delivered.length = 1 ∧ (batches ((zeroRows 25).range 1 30)).length = 2 ∧
    CleanPrefix (zeroRows 25) 1 30 (.fresh (zeroRows 25) []) w₁ l := by
  have hcode : (Prog.run (faltering Env.counting) 22
      (gatewayHandleQuery (openGateway 0) 1 30 output) (.fresh (zeroRows 25) [])).map
        (fun x => (x.1, x.2.delivered.length)) = some (-1, 1) := by decide +kernel
  obtain ⟨⟨r, w₁⟩, hrun, hr⟩ := Option.map_eq_some_iff.mp hcode
  have hh : Handles True Env.counting faultyMode output (delivers (faultyMode : Mode Binary64)) :=
    output_handles
  have hwp := gatewayHandleQuery_wp (c := 0) hh (s := 1) (e := 30) (by decide) (by decide)
    (by decide) (.fresh (zeroRows 25) [])
  have hans : ∀ (w : World Binary64) o, Legal Env.counting faultyMode w o →
      Answers Env.counting faultyMode w o (faltering Env.counting w o).1
        (faltering Env.counting w o).2 := faltering_answers Env.counting
  obtain ⟨l, htrace⟩ := (Prog.runs_of_run hans hans hwp hrun).1.trace []
  exact ⟨w₁, l, (Prod.mk.inj hr).2, by decide +kernel,
    query_cleanPrefix (by decide) (by decide) (by decide) htrace⟩

end SensorGateway
