/-
How long a QUERY takes.

The table may change in any way from one batch call to the next, and rows may be
inserted during one.  Still each batch that is not empty ends at an id above the
last one and inside the range, since the SELECT asks for `last_id < id AND id <=
end_id`; so `while (1)` takes at most one turn for each id of the range, and a last
one (`query_bounded`).
-/
import SensorGateway.QuietGateway
import SensorGateway.SqlCalls
import SensorGateway.Traces

open CString Sqlite

namespace SensorGateway

variable {D : Type} [Libc D] {env : Env D} {c : ℕ} {s e : ℤ} {w w₁ : World D}

/-- Other clients may make anything of the table before a statement is prepared, and
insert while it is in use; everything may fail. -/
def wildMode : Mode D where
  grows _ _ := True
  grows_refl _ := trivial
  grows_trans _ _ _ _ _ := trivial
  sqlFails := True
  socketFails := True
  output _ := True
  permits _ _ := True

/-! ### Batch calls -/

/-- The call that every call of `sqlite_db_query_next_batch` makes once. -/
def isBatchCall : SysOp D → Bool
  | .sql (.prepare .nextBatch) => true
  | _ => false

section counting

variable {n : ℕ}

omit [Libc D] in
theorem isBatchCall_of_later {o : SysOp D} (h : isLater o = true) : isBatchCall o = false := by
  cases o with
  | sql o =>
    cases o with
    | prepare q => cases h
    | _ => rfl
  | _ => rfl

theorem queryNextBatch_counting (connection : ℕ) (last end_id : ℤ) (buffer : Bytes) {size : ℕ}
    (hsize : size ≠ 0) (next₀ count₀ : ℤ) (first : Bool) :
    Prog.wp False (Prog.counting isBatchCall)
      (sqliteDbQueryNextBatch (some ⟨some connection⟩) last end_id buffer size next₀ count₀ first :
        Sys D Batch) (fun _ m => m = n + 1) n := by
  have hopen : ¬(noHandle (some ⟨some connection⟩) = true ∨ size = 0) := by
    simpa [noHandle] using hsize
  obtain ⟨k, hk, hlater⟩ := sqliteDbQueryNextBatch_eq (D := D) hopen last end_id buffer next₀
    count₀ first
  rw [hk]
  refine Prog.wp_perform trivial ?_
  rintro stmt _ rfl
  -- no later call is one
  refine (hlater stmt).wp (I := fun m => m = n + 1) ?_ rfl
  rintro m o rfl ho
  refine ⟨trivial, ?_⟩
  rintro a _ rfl
  rw [isBatchCall_of_later ho]
  rfl

/-- One turn of the query makes one batch call. -/
theorem queryTurn_counting (connection : ℕ) (end_id : ℤ) (q : QueryLoop) :
    Prog.wp False (Prog.counting isBatchCall)
      (queryTurn (openGateway connection) end_id output q : Sys D _) (fun _ m => m = n + 1) n := by
  simp only [queryTurn, dataServiceQueryNextBatch, openGateway, Prog.bind_eq, Prog.pure_eq]
  rw [if_neg (by simp [BATCH_BUFFER_SIZE])]
  refine Prog.wp_seq (queryNextBatch_counting _ _ _ _ (by decide) _ _ _) ?_
  rintro b _ rfl
  split
  · rfl
  split
  · rfl
  refine Prog.wp_perform trivial ?_
  rintro rc _ rfl
  split
  · rfl
  · rfl

end counting

/-! ### Turns -/

theorem Turned.queryLoopInv {M : Mode D} {rec : Out D → Bytes → ℤ → Out D → Prop}
    {handler : Bytes → Sys D ℤ} (hh : Handles True env M.free handler rec) (hs : 0 ≤ s)
    (hse : s ≤ e) (he : e < 2 ^ 31) {n : ℕ} {q : QueryLoop}
    (h : Prog.Turned (Answers env M) (queryTurn (openGateway c) e handler) (.start s) w n q w₁) :
    ∃ m Ts ps, m + n ≤ (e - (s - 1)).toNat ∧ QueryLoopInv M.free rec s e w m q w₁ Ts ps := by
  obtain ⟨m, hle, Ts, ps, hI⟩ := h.bound (R := surroundings env M.free)
    (I := fun m q w' => ∃ Ts ps, QueryLoopInv M.free rec s e w m q w' Ts ps)
    (Mode.free_answers env M) (fun m q w' ⟨Ts, ps, hI⟩ => queryTurn_wp hh hs hse he hI)
    ⟨[], [], .start w⟩
  exact ⟨m, Ts, ps, hle, hI⟩

/-- A batch that is not empty ends at the id of a row above `last`, up to `e`, and
reading it through 32 bits gives the id itself. -/
def Advances (T : Table D) (last e : ℤ) (b : Batch) : Prop :=
  ∃ x ∈ T.rows, b.next_id = x.id ∧ x.id.bmod (2 ^ 32) = x.id ∧ last < x.id ∧ x.id ≤ e

theorem BatchDone.advances {M : Mode D} {last : ℤ} (hlast : -2 ^ 31 ≤ last) (he : e < 2 ^ 31)
    {size : ℕ} {first : Bool} {T : Table D} {b : Batch}
    (h : BatchDone M w last e size first T b w₁) (hpos : 0 < b.row_count) :
    Advances T last e b := by
  have hne : idWindow T last e ≠ [] := by
    rintro hnil
    rw [h.row_count, hnil] at hpos
    simp at hpos
  obtain ⟨x, hx⟩ := Paging.exists_getLast? hne
  have hmem : x ∈ idWindow T last e := List.mem_of_getLast? hx
  obtain ⟨hrow, hlt, hle⟩ := Paging.mem_between.mp (List.mem_of_mem_take hmem)
  refine ⟨x, hrow, ?_, (printedRow_of_mem hlast he hmem).2, hlt, hle⟩
  rw [h.next_id, Paging.reached, List.flatten_singleton, hx]
  rfl

/-- gateway_handle_query from `s` to `e`, whatever the table is at each batch call: it
returns after at most `e - s + 2` of them, and each one that finds rows moves on to the
last row it has read. -/
structure QueryBounded (env : Env D) (c : ℕ) (s e : ℤ) (w : World D) : Prop where
  ends : Prog.Ends (Answers env wildMode) (gatewayHandleQuery (openGateway c) s e output) w
  calls : ∀ (r : ℤ) (w₁ : World D) (l : List (Prog.Event (SysOp D) SysAns)),
    Prog.Runs (Prog.traced (Answers env wildMode)) (gatewayHandleQuery (openGateway c) s e output)
      (w, []) r (w₁, l) → (Prog.hits isBatchCall l : ℤ) ≤ e - s + 2
  turns : ∀ (n : ℕ) (q : QueryLoop) (w₁ : World D), Prog.Turned (Answers env wildMode)
      (queryTurn (openGateway c) e output) (.start s) w n q w₁ →
    (n : ℤ) ≤ e - s + 1 ∧ -2 ^ 31 ≤ s - 1 ∧ s - 1 ≤ q.last_id ∧ q.last_id ≤ e ∧
      ∀ (b : Batch) (w₂ : World D), Prog.Runs (Answers env wildMode)
        (dataServiceQueryNextBatch (openGateway c).data_service q.last_id e q.batch_buffer
          BATCH_BUFFER_SIZE q.next_id q.row_count q.is_first_batch) w₁ b w₂ →
        b.rc = 0 → 0 < b.row_count → ∃ T : Table D, w₂.reads = w₁.reads ++ [T] ∧
          Advances T q.last_id e b

theorem query_bounded (env : Env D) (c : ℕ) (hs : 0 ≤ s) (hse : s ≤ e) (he : e ≤ 2 ^ 31 - 1)
    (w : World D) : QueryBounded env c s e w := by
  have hh : Handles True env wildMode output (delivers (wildMode : Mode D)) := output_handles
  have hwp := gatewayHandleQuery_wp (c := c) hh hs hse (by omega) w
  have hans : ∀ (w : World D) o a w', Legal env wildMode w o → Answers env wildMode w o a w' →
      Answers env wildMode w o a w' := fun _ _ _ _ _ h => h
  constructor
  · exact Prog.wp_ends hans hwp
  · intro r w₁ l hrun
    -- a number of turns, and a last one that leaves the loop
    obtain ⟨r', x, hloops, hret⟩ := hrun.loops
    cases hret
    obtain ⟨n, q, x₁, hturned, hlast⟩ := hloops.turned .start
    obtain ⟨m, Ts, ps, hle, -⟩ := Turned.queryLoopInv (M := wildMode) hh hs hse (by omega)
      hturned.untraced
    have hturns := Prog.counting_turned (b := 1) (t := False)
      (fun q k => Prog.wp_mono (fun _ _ h => by omega) (queryTurn_counting c e q)) hturned
    have hone := Prog.counting_hits hlast (queryTurn_counting c e q)
    have hzero : Prog.hits isBatchCall ([] : List (Prog.Event (SysOp D) SysAns)) = 0 := rfl
    simp only at hturns hone
    omega
  · intro n q w₁ hturned
    obtain ⟨m, Ts, ps, hle, hI⟩ := Turned.queryLoopInv (M := wildMode) hh hs hse (by omega) hturned
    have hbounds : s - 1 ≤ lastId s ps ∧ lastId s ps ≤ e := hI.handed.read.bounds (by omega)
    have hlast := hI.last_id
    refine ⟨by omega, by omega, by omega, by omega, fun b w₂ hrun => ?_⟩
    have hbatch : Prog.wp True (surroundings env wildMode)
        (sqliteDbQueryNextBatch (some ⟨some c⟩) q.last_id e q.batch_buffer BATCH_BUFFER_SIZE
          q.next_id q.row_count q.is_first_batch)
        (fun b w₂ => b.rc = 0 → 0 < b.row_count → ∃ T : Table D, w₂.reads = w₁.reads ++ [T] ∧
          Advances T q.last_id e b) w₁ := by
      refine sqliteDbQueryNextBatch_wp (by omega) (by omega) hI.buffer (by decide) ?_ ?_
      · intro T b w₂ hb _ hpos
        exact ⟨T, hb.frame.reads, hb.advances (by omega) (by omega) hpos⟩
      · intro b w₂ hb hrc
        rw [hb.rc] at hrc
        exact absurd hrc (by decide)
    exact Prog.wp_runs hans hbatch hrun

theorem query_bounded_all : QueryBounded Env.counting 0 0 2147483647
    (.fresh (∅ : Table Binary64) []) :=
  query_bounded Env.counting 0 (by decide) (by decide) (by decide) _

end SensorGateway
