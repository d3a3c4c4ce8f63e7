/-
Proof rules for the SQLite calls of a thread.

`Frame M w₀ T Rs f l w` compares the world `w` reached by a C function with the
one it was called in: the live statements are `l`, the table has grown from `T`
by inserts, the tables `Rs` have been read since, `f` tells whether a call has
failed, and the sockets have not been used.

There is one rule for each call on the statement prepared last; it names the
answers the call may have and the frame after each.
-/
import SensorGateway.Surroundings

open Sqlite

namespace SensorGateway

variable {D : Type} [Libc D]

structure Frame (M : Mode D) (w₀ : World D) (T : Table D) (Rs : List (Table D)) (f : Bool)
    (l : Stmts D) (w : World D) : Prop where
  stmts : w.stmts = l
  table : M.inserts T w.table
  reads : w.reads = w₀.reads ++ Rs
  failed : w.failed = (w₀.failed || f)
  incoming : w.incoming = w₀.incoming
  sent : w.sent = w₀.sent
  delivered : w.delivered = w₀.delivered
  log : w.log = w₀.log

omit [Libc D] in
theorem Frame.start (M : Mode D) (w : World D) : Frame M w w.table [] false w.stmts w :=
  ⟨rfl, M.inserts_refl _, by simp, by simp, rfl, rfl, rfl, rfl⟩

omit [Libc D] in
@[simp] theorem World.noting_none (w : World D) : w.noting none = w := by
  simp [World.noting]

section rules

variable {t : Prop} {env : Env D} {M : Mode D} {α : Type} {Q : α → World D → Prop}
  {w₀ w : World D} {T₀ : Table D} {Rs : List (Table D)} {f : Bool} {l : Stmts D} {h : ℕ}
  {s : Stmt D}

/-- A call that succeeds, on any table the others may have left. -/
theorem Frame.afterSql (hw : Frame M w₀ T₀ Rs f l w) (env : Env D) (T : Table D) (o : SqlOp D) :
    Frame M (w₀.noting ((insertedBy l o).map (env.row T))) (sqlStep env ⟨l, T⟩ o).2.table
      (Rs ++ readBy l o) f (sqlStep env ⟨l, T⟩ o).2.stmts (w.afterSql env T o) := by
  obtain ⟨rfl, -, hreads, hfailed, hin, hsent, hdel, hlog⟩ := hw
  exact ⟨rfl, M.inserts_refl _, by simp [World.afterSql, World.noting, hreads], hfailed, hin, hsent,
    hdel, by simp [World.afterSql, World.noting, hlog]⟩

omit [Libc D] in
/-- The growth may be counted from an earlier table. -/
theorem Frame.from {T : Table D} (hT : M.inserts T₀ T) (hw : Frame M w₀ T Rs f l w) :
    Frame M w₀ T₀ Rs f l w :=
  ⟨hw.stmts, M.inserts_trans hT hw.table, hw.reads, hw.failed, hw.incoming, hw.sent,
    hw.delivered, hw.log⟩

omit [Libc D] in
theorem Frame.afterFailure (hw : Frame M w₀ T₀ Rs f l w) (T : Table D) :
    Frame M w₀ T Rs true l (w.afterFailure T) := by
  obtain ⟨rfl, -, hreads, hfailed, hin, hsent, hdel, hlog⟩ := hw
  exact ⟨rfl, M.inserts_refl _, hreads, by simp [World.afterFailure], hin, hsent, hdel, hlog⟩

/-- Any call: it succeeds on some table grown from the last one, or it fails. -/
theorem wp_sql (hw : Frame M w₀ T₀ Rs f l w) {o : SqlOp D} (hlegal : LegalSql l o)
    (hmay : ∀ T, ∀ x ∈ insertedBy l o, M.permits w₀.log (.inserted (env.row T x)))
    {k : SqlAns o → Sys D α}
    (hok : ∀ T w₁, M.before o T₀ T → Frame M (w₀.noting ((insertedBy l o).map (env.row T)))
      (sqlStep env ⟨l, T⟩ o).2.table (Rs ++ readBy l o) f (sqlStep env ⟨l, T⟩ o).2.stmts w₁ →
      Prog.wp t (surroundings env M) (k (sqlStep env ⟨l, T⟩ o).1) Q w₁)
    (hfail : ∀ a T w₁, M.sqlFails → Fails o a → M.before o T₀ T → Frame M w₀ T Rs true l w₁ →
      Prog.wp t (surroundings env M) (k a) Q w₁) :
    Prog.wp t (surroundings env M) ((sql o).bind k) Q w := by
  refine Prog.wp_perform ?_ ?_
  · show LegalSql w.stmts o ∧
      ∀ T, ∀ x ∈ insertedBy w.stmts o, M.permits w.log (.inserted (env.row T x))
    rw [hw.stmts, hw.log]
    exact ⟨hlegal, hmay⟩
  · rintro a w₁ ⟨T, hT, ⟨rfl, rfl⟩ | ⟨hM, hf, rfl⟩⟩
    · have hframe := hw.afterSql env T o
      have hl : w.stmts = l := hw.stmts
      rw [hl]
      exact hok T _ (M.before_trans hw.table hT) hframe
    · exact hfail a T _ hM hf (M.before_trans hw.table hT) (hw.afterFailure T)

/-- A call that neither inserts nor ends a statement. -/
theorem wp_plain (hw : Frame M w₀ T₀ Rs f l w) {o : SqlOp D} (hlegal : LegalSql l o)
    (hins : insertedBy l o = none) (hread : readBy l o = []) {k : SqlAns o → Sys D α}
    (hok : ∀ T w₁, M.before o T₀ T → Frame M w₀ (sqlStep env ⟨l, T⟩ o).2.table Rs f
      (sqlStep env ⟨l, T⟩ o).2.stmts w₁ →
      Prog.wp t (surroundings env M) (k (sqlStep env ⟨l, T⟩ o).1) Q w₁)
    (hfail : ∀ a T w₁, M.sqlFails → Fails o a → M.before o T₀ T → Frame M w₀ T Rs true l w₁ →
      Prog.wp t (surroundings env M) (k a) Q w₁) :
    Prog.wp t (surroundings env M) ((sql o).bind k) Q w := by
  refine wp_sql hw hlegal (by simp [hins]) (fun T w₁ hT hw₁ => hok T w₁ hT ?_) hfail
  rw [hread, hins, List.append_nil, Option.map_none, World.noting_none] at hw₁
  exact hw₁

/-- Before a statement is prepared the table may have grown in any way of the mode. -/
theorem wp_prepare (hw : Frame M w₀ T₀ Rs f l w) {q : Sql} {k : Option ℕ → Sys D α}
    (hok : ∀ h T w₁, M.grows T₀ T → Frame M w₀ T Rs f ((h, .prepared q) :: l) w₁ →
      Prog.wp t (surroundings env M) (k (some h)) Q w₁)
    (hfail : ∀ T w₁, M.sqlFails → M.grows T₀ T → Frame M w₀ T Rs true l w₁ →
      Prog.wp t (surroundings env M) (k none) Q w₁) :
    Prog.wp t (surroundings env M) ((sql (.prepare q)).bind k) Q w := by
  refine wp_plain (o := .prepare q) hw trivial rfl rfl (fun T w₁ hT hw₁ => ?_)
    fun a T w₁ hM ha hT hw₁ => ?_
  · exact hok _ T w₁ hT (by simpa [sqlStep] using hw₁)
  · obtain rfl : a = none := ha
    exact hfail T w₁ hM hT hw₁

omit [Libc D] in
theorem live_cons (h : ℕ) (s : Stmt D) (l : Stmts D) : Stmts.Live ((h, s) :: l) h := by
  simp [Stmts.Live]

omit [Libc D] in
@[simp] theorem Conn.bind_cons (T : Table D) (i : ℕ) (v : Value D) :
    Conn.bind ⟨(h, s) :: l, T⟩ h i v = (true, ⟨(h, s.bind i v) :: l, T⟩) := by
  simp [Conn.bind]

omit [Libc D] in
@[simp] theorem Conn.column_cons (T : Table D) (i : ℕ) :
    Conn.column ⟨(h, s) :: l, T⟩ h i = s.current.getD i .null := by
  simp [Conn.column]

/-- What a bound double is stored as: NaN becomes NULL. -/
def stored (v : D) : Option D := if Libc.isNan v then none else some v

theorem wp_bindText (hw : Frame M w₀ T₀ Rs f ((h, s) :: l) w) {i : ℕ} {v : Bytes}
    {k : Bool → Sys D α}
    (hok : ∀ T w₁, M.inserts T₀ T → Frame M w₀ T Rs f ((h, s.bind i (.text v)) :: l) w₁ →
      Prog.wp t (surroundings env M) (k true) Q w₁)
    (hfail : ∀ w₁, M.sqlFails → Frame M w₀ T₀ Rs true ((h, s) :: l) w₁ →
      Prog.wp t (surroundings env M) (k false) Q w₁) :
    Prog.wp t (surroundings env M) ((sql (.bindText h i v)).bind k) Q w := by
  refine wp_plain (o := .bindText h i v) hw (live_cons h s l) rfl rfl (fun T w₁ hT hw₁ => ?_)
    fun a T w₁ hM ha hT hw₁ => ?_
  · rw [sqlStep, Conn.bind_cons] at hw₁ ⊢
    exact hok T w₁ hT hw₁
  · obtain rfl : a = false := ha
    exact hfail w₁ hM (hw₁.from hT)

theorem wp_bindDouble (hw : Frame M w₀ T₀ Rs f ((h, s) :: l) w) {i : ℕ} {v : D}
    {k : Bool → Sys D α}
    (hok : ∀ T w₁, M.inserts T₀ T →
      Frame M w₀ T Rs f ((h, s.bind i (realValue (stored v))) :: l) w₁ →
      Prog.wp t (surroundings env M) (k true) Q w₁)
    (hfail : ∀ w₁, M.sqlFails → Frame M w₀ T₀ Rs true ((h, s) :: l) w₁ →
      Prog.wp t (surroundings env M) (k false) Q w₁) :
    Prog.wp t (surroundings env M) ((sql (.bindDouble h i v)).bind k) Q w := by
  have hv : (if Libc.isNan v then Value.null else .real v) = realValue (stored v) := by
    rw [stored]
    by_cases hn : Libc.isNan v
    · rw [if_pos hn, if_pos hn]
      rfl
    · rw [if_neg hn, if_neg hn]
      rfl
  refine wp_plain (o := .bindDouble h i v) hw (live_cons h s l) rfl rfl (fun T w₁ hT hw₁ => ?_)
    fun a T w₁ hM ha hT hw₁ => ?_
  · rw [sqlStep, hv, Conn.bind_cons] at hw₁ ⊢
    exact hok T w₁ hT hw₁
  · obtain rfl : a = false := ha
    exact hfail w₁ hM (hw₁.from hT)

theorem wp_bindInt (hw : Frame M w₀ T₀ Rs f ((h, s) :: l) w) {i : ℕ} {v : ℤ}
    {k : Bool → Sys D α}
    (hok : ∀ T w₁, M.inserts T₀ T → Frame M w₀ T Rs f ((h, s.bind i (.int v)) :: l) w₁ →
      Prog.wp t (surroundings env M) (k true) Q w₁)
    (hfail : ∀ w₁, M.sqlFails → Frame M w₀ T₀ Rs true ((h, s) :: l) w₁ →
      Prog.wp t (surroundings env M) (k false) Q w₁) :
    Prog.wp t (surroundings env M) ((sql (.bindInt h i v)).bind k) Q w := by
  refine wp_plain (o := .bindInt h i v) hw (live_cons h s l) rfl rfl (fun T w₁ hT hw₁ => ?_)
    fun a T w₁ hM ha hT hw₁ => ?_
  · rw [sqlStep, Conn.bind_cons] at hw₁ ⊢
    exact hok T w₁ hT hw₁
  · obtain rfl : a = false := ha
    exact hfail w₁ hM (hw₁.from hT)

/-- Finalizing does not fail; what a SELECT has read last is noted then. -/
theorem wp_finalize (hw : Frame M w₀ T₀ Rs f ((h, s) :: l) w) {k : Unit → Sys D α}
    (hk : ∀ T w₁, M.inserts T₀ T → Frame M w₀ T (Rs ++ s.seen.toList) f l w₁ →
      Prog.wp t (surroundings env M) (k ()) Q w₁) :
    Prog.wp t (surroundings env M) ((sql (.finalize h)).bind k) Q w := by
  have hread : readBy ((h, s) :: l) (.finalize h) = s.seen.toList := by
    rw [readBy, Stmts.get?_cons, Option.bind_some]
  have hins : insertedBy ((h, s) :: l) (.finalize h) = none := rfl
  refine wp_sql (o := .finalize h) hw (live_cons h s l) (by simp [hins])
    (fun T w₁ hT hw₁ => ?_) fun a T w₁ _ ha _ _ => ha.elim
  rw [hread, hins, Option.map_none, World.noting_none, sqlStep, Stmts.remove_cons] at hw₁
  exact hk T w₁ hT hw₁

/-- Neither does reading a column. -/
theorem wp_columnInt (hw : Frame M w₀ T₀ Rs f ((h, s) :: l) w) {i : ℕ} {n : ℤ}
    (hcol : s.current.getD i .null = .int n) {k : ℤ → Sys D α}
    (hk : ∀ T w₁, M.inserts T₀ T → Frame M w₀ T Rs f ((h, s) :: l) w₁ →
      Prog.wp t (surroundings env M) (k (n.bmod (2 ^ 32))) Q w₁) :
    Prog.wp t (surroundings env M) ((sql (.columnInt h i)).bind k) Q w := by
  refine wp_plain (o := .columnInt h i) hw (live_cons h s l) rfl rfl (fun T w₁ hT hw₁ => ?_)
    fun a T w₁ _ ha _ _ => ha.elim
  rw [sqlStep, Conn.column_cons, hcol] at hw₁ ⊢
  exact hk T w₁ hT hw₁

theorem wp_columnIsNull (hw : Frame M w₀ T₀ Rs f ((h, s) :: l) w) {i : ℕ} {v : Option ℤ}
    (hcol : s.current.getD i .null = intValue v) {k : Bool → Sys D α}
    (hk : ∀ T w₁, M.inserts T₀ T → Frame M w₀ T Rs f ((h, s) :: l) w₁ →
      Prog.wp t (surroundings env M) (k v.isNone) Q w₁) :
    Prog.wp t (surroundings env M) ((sql (.columnIsNull h i)).bind k) Q w := by
  refine wp_plain (o := .columnIsNull h i) hw (live_cons h s l) rfl rfl (fun T w₁ hT hw₁ => ?_)
    fun a T w₁ _ ha _ _ => ha.elim
  rw [sqlStep, Conn.column_cons, hcol] at hw₁ ⊢
  cases v with
  | none => exact hk T w₁ hT hw₁
  | some n => exact hk T w₁ hT hw₁

theorem wp_columnDouble (hw : Frame M w₀ T₀ Rs f ((h, s) :: l) w) {i : ℕ} {v : Option D}
    (hcol : s.current.getD i .null = realValue v) {k : D → Sys D α}
    (hk : ∀ T w₁, M.inserts T₀ T → Frame M w₀ T Rs f ((h, s) :: l) w₁ →
      Prog.wp t (surroundings env M) (k (v.getD Libc.zero)) Q w₁) :
    Prog.wp t (surroundings env M) ((sql (.columnDouble h i)).bind k) Q w := by
  refine wp_plain (o := .columnDouble h i) hw (live_cons h s l) rfl rfl (fun T w₁ hT hw₁ => ?_)
    fun a T w₁ _ ha _ _ => ha.elim
  rw [sqlStep, Conn.column_cons, hcol] at hw₁ ⊢
  cases v with
  | none => exact hk T w₁ hT hw₁
  | some d => exact hk T w₁ hT hw₁

theorem wp_columnText (hw : Frame M w₀ T₀ Rs f ((h, s) :: l) w) {i : ℕ} {v : Option Bytes}
    (hcol : s.current.getD i .null = textValue v) {k : Option Bytes → Sys D α}
    (hk : ∀ T w₁, M.inserts T₀ T → Frame M w₀ T Rs f ((h, s) :: l) w₁ →
      Prog.wp t (surroundings env M) (k v) Q w₁) :
    Prog.wp t (surroundings env M) ((sql (.columnText h i)).bind k) Q w := by
  refine wp_plain (o := .columnText h i) hw (live_cons h s l) rfl rfl (fun T w₁ hT hw₁ => ?_)
    fun a T w₁ _ ha _ _ => ha.elim
  rw [sqlStep, Conn.column_cons, hcol] at hw₁ ⊢
  cases v with
  | none => exact hk T w₁ hT hw₁
  | some b => exact hk T w₁ hT hw₁

/-! ### Steps -/

/-- The step of an INSERT whose parameters are bound. -/
theorem wp_step_insert (hw : Frame M w₀ T₀ Rs f ((h, s) :: l) w) (hsql : s.sql = .insertSensor)
    {x : Reading D} (hx : s.reading? = some x)
    (hmay : ∀ T, M.permits w₀.log (.inserted (env.row T x))) {k : StepRc → Sys D α}
    (hok : ∀ T w₁, M.inserts T₀ T →
      Frame M (w₀.noting (some (env.row T x))) (T.insert env x) Rs f ((h, s) :: l) w₁ →
      Prog.wp t (surroundings env M) (k .done) Q w₁)
    (hfail : ∀ w₁, M.sqlFails → Frame M w₀ T₀ Rs true ((h, s) :: l) w₁ →
      Prog.wp t (surroundings env M) (k .error) Q w₁) :
    Prog.wp t (surroundings env M) ((sql (.step h)).bind k) Q w := by
  have hins : insertedBy ((h, s) :: l) (.step h) = some x := by
    rw [insertedBy, Stmts.get?_cons, Option.bind_some, hx]
  refine wp_sql (o := .step h) hw (live_cons h s l) (by simpa [hins] using hmay)
    (fun T w₁ hT hw₁ => ?_) fun a T w₁ hM ha hT hw₁ => ?_
  · rw [hins] at hw₁
    simp only [sqlStep, Conn.step, Stmts.get?_cons, hsql, hx, readBy] at hw₁ ⊢
    obtain ⟨q, params, taken, current, seen⟩ := s
    obtain rfl : q = .insertSensor := hsql
    exact hok T w₁ hT (by simpa using hw₁)
  · obtain rfl : a = .error := ha
    exact hfail w₁ hM (hw₁.from hT)

theorem sqlStep_select (hsql : s.sql ≠ .insertSensor) (T : Table D) :
    sqlStep env ⟨(h, s) :: l, T⟩ (.step h)
      = match (s.results T)[s.taken]? with
        | some row => (.row, ⟨(h, s.onRow T row) :: l, T⟩)
        | none => (.done, ⟨(h, s.over T) :: l, T⟩) := by
  have key : Conn.step env ⟨(h, s) :: l, T⟩ h
      = match (s.results T)[s.taken]? with
        | some row => (.row, ⟨Stmts.set ((h, s) :: l) h (s.onRow T row), T⟩)
        | none => (.done, ⟨Stmts.set ((h, s) :: l) h (s.over T), T⟩) := by
    rw [Conn.step, Stmts.get?_cons]
    obtain ⟨q, params, taken, current, seen⟩ := s
    cases q with
    | insertSensor => exact absurd rfl hsql
    | idRange => rfl
    | nextBatch => rfl
  rw [sqlStep, key]
  simp only [Stmts.set_cons]

/-- The step of a SELECT: it stands on the next row of the table it finds, or behind
the last. -/
theorem wp_step_select (hw : Frame M w₀ T₀ Rs f ((h, s) :: l) w) (hsql : s.sql ≠ .insertSensor)
    {k : StepRc → Sys D α}
    (hrow : ∀ T w₁ row, M.inserts T₀ T → (s.results T)[s.taken]? = some row →
      Frame M w₀ T Rs f ((h, s.onRow T row) :: l) w₁ →
      Prog.wp t (surroundings env M) (k .row) Q w₁)
    (hdone : ∀ T w₁, M.inserts T₀ T → (s.results T)[s.taken]? = none →
      Frame M w₀ T Rs f ((h, s.over T) :: l) w₁ →
      Prog.wp t (surroundings env M) (k .done) Q w₁)
    (hfail : ∀ w₁, M.sqlFails → Frame M w₀ T₀ Rs true ((h, s) :: l) w₁ →
      Prog.wp t (surroundings env M) (k .error) Q w₁) :
    Prog.wp t (surroundings env M) ((sql (.step h)).bind k) Q w := by
  -- only an INSERT changes the table
  have hins : insertedBy ((h, s) :: l) (.step h) = none := by
    rw [insertedBy, Stmts.get?_cons, Option.bind_some]
    obtain ⟨q, params, taken, current, seen⟩ := s
    cases q with
    | insertSensor => exact absurd rfl hsql
    | idRange => rfl
    | nextBatch => rfl
  refine wp_plain (o := .step h) hw (live_cons h s l) hins rfl (fun T w₁ hT hw₁ => ?_)
    fun a T w₁ hM ha hT hw₁ => ?_
  · rw [sqlStep_select hsql] at hw₁ ⊢
    rcases hres : (s.results T)[s.taken]? with _ | row
    · rw [hres] at hw₁
      exact hdone T w₁ hT hres hw₁
    · rw [hres] at hw₁
      exact hrow T w₁ row hT hres hw₁
  · obtain rfl : a = .error := ha
    exact hfail w₁ hM (hw₁.from hT)

end rules

end SensorGateway
