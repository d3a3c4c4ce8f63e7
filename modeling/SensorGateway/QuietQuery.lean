/-
A QUERY on a table that nobody changes.

Nothing fails but a batch that is too long for the buffer.  `QueryOutcome.quiet`:
the query delivers the batches of the report up to the first that does not fit,
and returns 0 when all of them do.
-/
import SensorGateway.QuerySpec

open Sqlite

namespace SensorGateway

variable {D : Type} [Libc D] {w : World D} {s e : ℤ} {rec : Out D → Bytes → ℤ → Out D → Prop}

theorem fits_batchText_nil (first : Bool) : Fits (batchText first ([] : List (Row D))) := by
  cases first <;> simp [batchText, renderRows, Fits] <;> decide

omit [Libc D] in
/-- A window is not empty as long as the rows before it do not fill the report. -/
theorem window_ne_nil {rows : List (Row D)} {i : ℕ} :
    Paging.window BATCH_ROWS rows i ≠ [] ↔ i < batchCount rows.length := by
  have h20 : BATCH_ROWS = 20 := rfl
  rw [Paging.window, batchCount, h20, ne_eq, List.take_eq_nil_iff, List.drop_eq_nil_iff]
  omega

/-- On a table that nobody changes, the pages read so far are the first windows of
the range, and the next page is the next window. -/
theorem Handed.windows {M : Mode D} (hfix : ∀ T T', M.grows T T' → T = T')
    {Ts : List (Table D)} {ps : List (List (Row D))} {o : Out D} (h : Handed M rec s e w Ts ps o)
    {T : Table D} (hg : M.grows (Ts.getLast?.getD w.table) T) :
    T = w.table ∧ ps.length ≤ batchCount (w.table.range s e).length ∧
      batchTexts ps = (List.range ps.length).map (batchAt (w.table.range s e)) ∧
      idWindow T (lastId s ps) e = Paging.window BATCH_ROWS (w.table.range s e) ps.length := by
  have hasc : ∀ T : Table D, Paging.Ascending Row.id T.rows := fun T => T.sorted
  have hread := h.read.mono hfix
  have hdrop := hread.eq_drop hasc
  obtain rfl : w.table = T := hdrop.1.symm.trans (hfix _ _ hg)
  have hrange : Paging.between Row.id (s - 1) e w.table.rows = w.table.range s e :=
    (w.table.range_eq_select s e).symm
  refine ⟨rfl, ?_, ?_, ?_⟩
  · by_contra hlt
    -- the last page would be an empty window
    have hmem : Paging.window BATCH_ROWS (w.table.range s e) (ps.length - 1) ∈ ps := by
      have hwin := hread.eq_windows hasc
      rw [hrange] at hwin
      rw [hwin]
      refine List.mem_map.mpr ⟨ps.length - 1, List.mem_range.mpr ?_, ?_⟩
      · omega
      · rw [← hwin]
    have := window_ne_nil.mp (h.read.ne_nil _ hmem)
    omega
  · rw [← batchTexts_windows, ← hrange, ← hread.eq_windows hasc]
  · rw [idWindow, Paging.page, hdrop.2, hrange]
    rfl

/-- A query that returns 0 has put out all its batches. -/
theorem QueryOutcome.zero {M : Mode D} (hfix : ∀ T T', M.grows T T' → T = T') {r : ℤ} {w₁ : World D}
    (h : QueryOutcome M rec s e w r w₁) (hr : r = 0) :
    reportCode (w.table.range s e) = 0 ∧ Wrote rec w.out (batches (w.table.range s e)) w₁.out := by
  cases h with
  | @complete Ts ps T _ hh hg hend _ _ =>
    obtain ⟨rfl, hlen, htexts, hwin⟩ := hh.windows hfix hg
    rw [hend, eq_comm] at hwin
    have hlast : ¬ ps.length < batchCount (w.table.range s e).length := fun hlt =>
      window_ne_nil.mpr hlt hwin
    have hall : batches (w.table.range s e) = batchTexts ps := by
      rw [htexts, batches, Nat.le_antisymm hlen (Nat.not_lt.mp hlast)]
    rw [reportCode, hall, if_pos hh.fits]
    exact ⟨rfl, hh.wrote⟩
  | batch _ _ _ _ => exact absurd hr (by decide)
  | handler _ _ _ _ _ _ _ => exact absurd hr (by decide)

theorem QueryOutcome.quiet (hzero : ∀ o text r o', rec o text r o' → r = 0) {r : ℤ}
    {w₁ : World D} (h : QueryOutcome quietMode rec s e w r w₁) :
    r = reportCode (w.table.range s e) ∧
      Wrote rec w.out (deliverable (w.table.range s e)) w₁.out := by
  cases h with
  | complete hh hg hend hreads hfailed =>
    obtain ⟨hcode, hwrote⟩ :=
      QueryOutcome.zero (fun _ _ h => h) (.complete hh hg hend hreads hfailed) rfl
    rw [deliverable_eq_batches hcode]
    exact ⟨hcode.symm, hwrote⟩
  | @batch Ts ps T _ f hh hg _ hcause =>
    obtain ⟨rfl, -, htexts, hwin⟩ := hh.windows (fun _ _ h => h) hg
    -- no call fails, so the batch has not fitted
    have hlong : ¬ Fits (batchAt (w.table.range s e) ps.length) := by
      rcases hcause with ⟨-, hM⟩ | ⟨-, -, hlong⟩
      · exact hM.elim
      · rw [hwin] at hlong
        simpa [batchAt, List.length_eq_zero_iff] using hlong
    -- an empty window would have fitted
    have hlt : ps.length < batchCount (w.table.range s e).length := by
      rw [← window_ne_nil]
      intro hnil
      rw [batchAt, hnil] at hlong
      exact hlong (fits_batchText_nil _)
    have hlenb : (batches (w.table.range s e)).length = batchCount (w.table.range s e).length := by
      simp [batches]
    -- the batches put out, the one that does not fit, and those never tried
    have hsplit : batches (w.table.range s e) = batchTexts ps ++
        batchAt (w.table.range s e) ps.length
          :: (batches (w.table.range s e)).drop (ps.length + 1) := by
      have hi : ps.length < (batches (w.table.range s e)).length := by omega
      have hget : (batches (w.table.range s e))[ps.length]
          = batchAt (w.table.range s e) ps.length := by simp [batches]
      rw [← hget, ← List.drop_eq_getElem_cons, htexts]
      conv_lhs => rw [← List.take_append_drop ps.length (batches (w.table.range s e))]
      rw [batches, ← List.map_take, List.take_range, Nat.min_eq_left hlt.le]
    refine ⟨?_, ?_⟩
    · rw [reportCode, if_neg]
      intro hall
      exact hlong (hall _ (by rw [hsplit]; simp))
    · rw [deliverable, hsplit, List.takeWhile_append_of_pos (by simpa using hh.fits),
        List.takeWhile_cons_of_neg (by simpa using hlong), List.append_nil]
      exact hh.wrote
  | handler _ _ _ _ hr hrec _ => exact absurd (hzero _ _ _ _ hrec) hr

end SensorGateway
