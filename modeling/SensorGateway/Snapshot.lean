/-
A paged QUERY shows one state of the table.

Other clients insert while gateway_handle_query reads the table batch by batch.
`pagedQuery_snapshot`: when it returns 0, what it has delivered is the report on
the state its last batch has read, as if it had read that state at once.
-/
import SensorGateway.QuietGateway

open Sqlite

namespace SensorGateway

variable {D : Type} [Libc D]

/-- The output handler always returns 0; SQLite calls may fail and other clients
insert before any of them. -/
abbrev insertsMode : Mode D := busyMode (fun r => r = 0) fun _ _ => True

theorem pagedQuery_snapshot {env : Env D} {s e : ℤ} (hs : 0 ≤ s) (hse : s ≤ e)
    (he : e ≤ 2 ^ 31 - 1) {c : ℕ} {w w' : World D} {r : ℤ}
    (hrun : Prog.Runs (Answers env insertsMode) (gatewayHandleQuery (openGateway c) s e output)
      w r w') (hr : r = 0) :
    ∃ Ts T texts, w'.reads = w.reads ++ (Ts ++ [T]) ∧
      List.IsChain Grows (w.table :: (Ts ++ [T])) ∧
      w'.delivered = w.delivered ++ texts ∧ texts.length = Ts.length ∧
      texts.flatten = reportText (T.range s e) ∧ (T.range s e = [] → texts = []) ∧
      (T.range s e).Pairwise fun x y => x.id < y.id := by
  have hh : Handles True env insertsMode output (delivers insertsMode) := output_handles
  have hwp := gatewayHandleQuery_wp (c := c) hh hs hse (by omega) w
  obtain ⟨hout, -⟩ := Prog.wp_runs (fun _ _ _ _ _ h => h) hwp hrun
  subst hr
  cases hout with
  | @complete Ts ps T _ hh hg hend hreads _ =>
    have hasc : ∀ T : Table D, Paging.Ascending Row.id T.rows := fun T => T.sorted
    -- rows are only added above the last page read, so the pages are those of the last table
    have hflat : ps.flatten = T.range s e := by
      rw [Table.range_eq_select]
      exact hh.read.flatten_eq hasc (fun _ _ h => h) (by omega) (by decide) hg hend
    have hdel := congrArg Out.delivered (wrote_delivers hh.wrote)
    have hchain := hh.read.isChain
    refine ⟨Ts, T, batchTexts ps, hreads, ?_, hdel, ?_, ?_, ?_, T.range_ascending s e⟩
    -- the table of the empty page has grown from that of the last page
    · rw [← List.cons_append]
      refine hchain.1.append (List.isChain_singleton T) ?_
      intro x hx y hy
      obtain rfl : Ts.getLast?.getD w.table = x := by simpa [hchain.2] using hx
      obtain rfl : T = y := by simpa using hy
      exact hg
    · rw [batchTexts, List.length_mapIdx, hh.read.length_eq]
    · rw [flatten_batchTexts hh.read.ne_nil, hflat]
    · intro hnil
      rw [hnil] at hflat
      have hps : ps = [] := by
        rcases ps with _ | ⟨p, ps⟩
        · rfl
        · have hp := hh.read.ne_nil p (by simp)
          simp [hp] at hflat
      rw [hps]
      rfl

/-! ### A run -/

/-- The table after `n` inserts of `zeroReading`. -/
def zeroRows (n : ℕ) : Table Binary64 :=
  (List.replicate n zeroReading).foldl (Table.insert Env.counting) ∅

/-- Another client stores a reading after the first batch. -/
def arrived (w : World Binary64) : SysOp Binary64 → Table Binary64
  | .sql (.prepare _) =>
    if w.reads.length = 1 then w.table.insert Env.counting zeroReading else w.table
  | _ => w.table

def inserting (w : World Binary64) (o : SysOp Binary64) : SysAns o × World Binary64 :=
  quiet Env.counting id { w with table := arrived w o } o

theorem inserting_answers (w : World Binary64) (o : SysOp Binary64)
    (h : Legal Env.counting insertsMode w o) :
    Answers Env.counting insertsMode w o (inserting w o).1 (inserting w o).2 := by
  cases o with
  | sql o =>
    have hgrows : Grows w.table (arrived w (.sql o)) := by
      unfold arrived
      split
      · split
        · exact List.prefix_append _ _
        · exact List.prefix_rfl
      · exact List.prefix_rfl
    exact ⟨arrived w (.sql o), Mode.before_of_grows hgrows hgrows o, .inl ⟨rfl, rfl⟩⟩
  | _ => exact quiet_answers (M := insertsMode) rfl Env.counting id w _ h

/-- Of twenty-one rows one is left for the second batch, to which the new one is added. -/
theorem pagedQuery_snapshot_inserting :
    ∃ w' : World Binary64, w'.reads.map (fun T => T.rows.length) = [21, 22, 22] ∧
      ∃ Ts T texts, w'.reads = [] ++ (Ts ++ [T]) ∧
      List.IsChain Grows (zeroRows 21 :: (Ts ++ [T])) ∧
      w'.delivered = [] ++ texts ∧ texts.length = Ts.length ∧
      texts.flatten = reportText (T.range 1 30) ∧ (T.range 1 30 = [] → texts = []) ∧
      (T.range 1 30).Pairwise fun x y => x.id < y.id := by
  have hcode : (Prog.run inserting 22 (gatewayHandleQuery (openGateway 0) 1 30 output)
      (.fresh (zeroRows 21) [])).map
        (fun x => (x.1, x.2.reads.map fun T => T.rows.length)) = some (0, [21, 22, 22]) := by
    decide +kernel
  obtain ⟨⟨r, w'⟩, hrun, hr⟩ := Option.map_eq_some_iff.mp hcode
  obtain ⟨hr, hreads⟩ := Prod.mk.inj hr
  have hh : Handles True Env.counting insertsMode output (delivers (insertsMode : Mode Binary64)) :=
    output_handles
  have hwp := gatewayHandleQuery_wp (c := 0) hh (s := 1) (e := 30) (by decide) (by decide)
    (by decide) (.fresh (zeroRows 21) [])
  have hruns := (Prog.runs_of_run inserting_answers inserting_answers hwp hrun).1
  exact ⟨w', hreads, pagedQuery_snapshot (by decide) (by decide) (by decide) hruns hr⟩

end SensorGateway
