/-
The server with its clients.

Each client has a thread, which runs `tcp_client_thread`; the threads share the
table.  An operation of a thread has any answer its surroundings allow on the
table as it stands, so any SQLite call and any call on a socket may fail.

* `together` — what an operation of one thread does to the whole;
* `Effect` — what it leaves in the table and in the log of all threads;
* `together_keeps` — what every effect keeps that the threads are permitted, each
  by a weakest precondition of its own, holds in every reachable configuration.
-/
import SensorGateway.ServerSpec
import SensorGateway.Threads

open Sqlite Threads

namespace SensorGateway

variable {C : Type} [DecidableEq C] {D : Type} [Libc D] {env : Env D}

/-- What a thread has to itself. -/
structure Local (D : Type) where
  stmts : Stmts D
  reads : List (Table D)
  failed : Bool
  incoming : List Bytes
  sent : Bytes
  delivered : List Bytes

/-- What the threads share, with a log of what they have done, in order. -/
structure Shared (C D : Type) where
  table : Table D
  log : List (C × Entry D)

/-- The entries of one client. -/
def own (t : C) (log : List (C × Entry D)) : List (Entry D) :=
  (log.filter fun e => e.1 = t).map Prod.snd

/-- What the thread of a client sees. -/
def view (t : C) (l : Local D) (s : Shared C D) : World D :=
  ⟨l.stmts, s.table, l.reads, l.failed, l.incoming, l.sent, l.delivered, own t s.log⟩

/-- The table is as the last operation left it, and everything may fail. -/
def sharedMode : Mode D :=
  { quietMode with sqlFails := True, socketFails := True, output := fun _ => True }

/-- An operation of the thread of `t`: it is answered as in the thread's own view,
and what it notes down is added to the log. -/
def together (env : Env D) : Semantics C (SysOp D) SysAns (Local D) (Shared C D) :=
  fun t x o a x' => Answers env sharedMode (view t x.1 x.2) o a (view t x'.1 x'.2) ∧
    ∃ es : List (Entry D), x'.2.log = x.2.log ++ es.map (Prod.mk t)

/-- Nothing but the threads is at work. -/
def threadsOnly (_ _ : Shared C D) : Prop := False

/-- The server before its clients' threads have taken a step.  Client `t` has
the descriptor `fd t` and is going to send `incoming t`. -/
def serverStart (c : ℕ) (fd : C → ℤ) (incoming : C → List Bytes) (T : Table D) :
    Config C (SysOp D) SysAns (Local D) (Shared C D) Unit where
  prog t := tcpClientThread (clientHandler (some (openGateway c))) (fd t)
  loc t := ⟨[], [], false, incoming t, [], []⟩
  shared := ⟨T, []⟩

/-! ### The log -/

omit [Libc D] in
theorem own_append (t : C) (log log' : List (C × Entry D)) :
    own t (log ++ log') = own t log ++ own t log' := by simp [own]

omit [Libc D] in
theorem own_map_self (t : C) (es : List (Entry D)) : own t (es.map (Prod.mk t)) = es := by
  rw [own, List.filter_eq_self.mpr (by simp), List.map_map]
  exact List.map_id es

omit [Libc D] in
theorem own_map_ne {t t' : C} (h : t' ≠ t) (es : List (Entry D)) :
    own t' (es.map (Prod.mk t)) = [] := by
  rw [own, List.filter_eq_nil_iff.mpr (by simpa using fun _ _ => Ne.symm h), List.map_nil]

/-! ### Effects -/

/-- What a permitted operation adds to the log of its thread, and what it makes of
the table. -/
inductive Effect (env : Env D) (permits : List (Entry D) → Entry D → Prop)
    (log : List (Entry D)) (T : Table D) : List (Entry D) → Table D → Prop
  | nothing : Effect env permits log T [] T
  | heard (x : Bytes) : Effect env permits log T [.heard x] T
  | inserted (x : Reading D) (h : permits log (.inserted (env.row T x))) :
      Effect env permits log T [.inserted (env.row T x)] (T.insert env x)
  | said (data : Bytes) (h : permits log (.said data)) : Effect env permits log T [.said data] T

theorem sqlStep_table (env : Env D) (l : Stmts D) (T : Table D) (o : SqlOp D) :
    (sqlStep env ⟨l, T⟩ o).2.table = ((insertedBy l o).map (T.insert env)).getD T := by
  have hbind : ∀ h i v, (Conn.bind (⟨l, T⟩ : Conn D) h i v).2.table = T := by
    intro h i v
    rw [Conn.bind]
    split <;> rfl
  cases o with
  | bindText h i v => exact hbind h i _
  | bindDouble h i v => exact hbind h i _
  | bindInt h i v => exact hbind h i _
  | step h =>
    rw [sqlStep, Conn.step, insertedBy]
    rcases hs : l.get? h with _ | s
    · rfl
    · obtain ⟨q, params, taken, current, seen⟩ := s
      cases q with
      | insertSensor =>
        simp only [Option.bind_some]
        cases Stmt.reading? ⟨Sql.insertSensor, params, taken, current, seen⟩ <;> rfl
      | idRange =>
        simp only
        split <;> rfl
      | nextBatch =>
        simp only
        split <;> rfl
  | _ => rfl

/-- A call works on the table as it is now, or fails. -/
theorem Answers.shared {v v' : World D} {o : SqlOp D} {a : SqlAns o}
    (h : Answers env sharedMode v (.sql o) a v') :
    a = (sqlStep env ⟨v.stmts, v.table⟩ o).1 ∧ v' = v.afterSql env v.table o ∨
      Fails o a ∧ v' = v.afterFailure v.table := by
  obtain ⟨T, hT, h⟩ := h
  obtain rfl : v.table = T := Mode.grows_of_before hT
  exact h.imp_right fun h => h.2

/-- The effect of an operation that a thread issues when its view is `w`; the
table may have changed since, as in `v`. -/
theorem Answers.effect {permits : List (Entry D) → Entry D → Prop} {w v v' : World D} {o : SysOp D}
    {a : SysAns o} (h : Answers env sharedMode v o a v') (hstmts : w.stmts = v.stmts)
    (hlog : w.log = v.log) (hlegal : Legal env (busyMode (fun _ => True) permits) w o) :
    ∃ es, v'.log = v.log ++ es ∧ Effect env permits v.log v.table es v'.table := by
  have hsame : v'.log = v.log → v'.table = v.table →
      ∃ es, v'.log = v.log ++ es ∧ Effect env permits v.log v.table es v'.table := by
    intro hl hT
    refine ⟨[], by rw [hl, List.append_nil], ?_⟩
    rw [hT]
    exact .nothing
  cases o with
  | sql o =>
    rcases Answers.shared h with ⟨-, rfl⟩ | ⟨-, rfl⟩
    · have hpermits := hlegal.2 v.table
      rw [hstmts, hlog] at hpermits
      refine ⟨_, rfl, ?_⟩
      show Effect env permits v.log v.table _ (sqlStep env ⟨v.stmts, v.table⟩ o).2.table
      rw [sqlStep_table]
      cases hins : insertedBy v.stmts o with
      | none => exact .nothing
      | some x => exact .inserted x (hpermits x hins)
    · exact hsame rfl rfl
  | send fd data n =>
    have hsaid := hlegal.2
    rw [hlog] at hsaid
    rcases h with ⟨m, -, -, -, rfl⟩ | ⟨-, -, rfl⟩
    · exact ⟨_, rfl, .said data hsaid⟩
    · exact ⟨_, rfl, .said data hsaid⟩
  | recv fd size =>
    rcases h with ⟨-, -, rfl⟩ | h
    · exact hsame rfl rfl
    · split at h
      · obtain ⟨-, rfl⟩ := h
        exact hsame rfl rfl
      · obtain ⟨-, rfl⟩ := h
        exact ⟨_, rfl, .heard _⟩
  | close fd =>
    obtain rfl : v' = v := h
    exact hsame rfl rfl
  | running =>
    obtain ⟨-, rfl⟩ := h
    exact hsame rfl rfl
  | handler =>
    obtain ⟨-, rfl⟩ := h
    exact hsame rfl rfl
  | output data =>
    obtain ⟨-, rfl⟩ := h
    exact hsame rfl rfl

omit [Libc D] in
theorem Effect.grows {permits : List (Entry D) → Entry D → Prop} {log es : List (Entry D)}
    {T T' : Table D} (h : Effect env permits log T es T') : Grows T T' := by
  cases h with
  | nothing => exact List.prefix_rfl
  | heard x => exact List.prefix_rfl
  | inserted x _ => exact List.prefix_append _ _
  | said data _ => exact List.prefix_rfl

/-- The world of a thread that has last seen the table `T`. -/
def World.seeing (w : World D) (T : Table D) : World D := { w with table := T }

/-- A thread that has seen an earlier table may get the same answers. -/
theorem Answers.stale {permits : List (Entry D) → Entry D → Prop} {v v' : World D} {o : SysOp D}
    {a : SysAns o} {T : Table D} (hT : Grows T v.table) (h : Answers env sharedMode v o a v') :
    ∃ T', Grows T' v'.table ∧
      Answers env (busyMode (fun _ => True) permits) (v.seeing T) o a (v'.seeing T') := by
  cases o with
  | sql o =>
    -- the thread takes the inserts since then as made just before its call
    refine ⟨v'.table, List.prefix_rfl, v.table, Mode.before_of_grows hT hT o, ?_⟩
    rcases Answers.shared h with ⟨rfl, rfl⟩ | ⟨hf, rfl⟩
    · exact .inl ⟨rfl, rfl⟩
    · exact .inr ⟨trivial, hf, rfl⟩
  | send fd data n =>
    rcases h with ⟨m, hpos, hm, rfl, rfl⟩ | ⟨-, ha, rfl⟩
    · exact ⟨T, hT, .inl ⟨m, hpos, hm, rfl, rfl⟩⟩
    · exact ⟨T, hT, .inr ⟨trivial, ha, rfl⟩⟩
  | recv fd size =>
    rcases h with ⟨-, ha, rfl⟩ | h
    · exact ⟨T, hT, .inl ⟨trivial, ha, rfl⟩⟩
    · obtain ⟨stmts, table, reads, failed, incoming, sent, delivered, log⟩ := v
      cases incoming with
      | nil =>
        obtain ⟨rfl, rfl⟩ := h
        exact ⟨T, hT, .inr ⟨rfl, rfl⟩⟩
      | cons x xs =>
        obtain ⟨rfl, rfl⟩ := h
        exact ⟨T, hT, .inr ⟨rfl, rfl⟩⟩
  | close fd =>
    obtain rfl : v' = v := h
    exact ⟨T, hT, rfl⟩
  | running =>
    obtain ⟨rfl, rfl⟩ := h
    exact ⟨T, hT, rfl, rfl⟩
  | handler =>
    obtain ⟨rfl, rfl⟩ := h
    exact ⟨T, hT, rfl, rfl⟩
  | output data =>
    obtain ⟨-, rfl⟩ := h
    exact ⟨T, hT, trivial, rfl⟩

/-! ### Runs -/

/-- What the thread of a client takes the system for: it may have missed inserts. -/
def Sees (t : C) (w : World D) (l : Local D) (s : Shared C D) : Prop :=
  ∃ T, Grows T s.table ∧ w = (view t l s).seeing T

/-- One operation, for the thread that issues it and for the others. -/
theorem Sees.together {permits : List (Entry D) → Entry D → Prop} {t : C} {w : World D}
    {l l' : Local D} {s s' : Shared C D} {o : SysOp D} {a : SysAns o} (h : Sees t w l s)
    (hlegal : Legal env (busyMode (fun _ => True) permits) w o)
    (hans : together env t (l, s) o a (l', s')) :
    ∃ es, Effect env permits (own t s.log) s.table es s'.table ∧
      s'.log = s.log ++ es.map (Prod.mk t) ∧
      (∃ w', Answers env (busyMode (fun _ => True) permits) w o a w' ∧ Sees t w' l' s') ∧
      ∀ t', t' ≠ t → ∀ w l, Sees t' w l s → Sees t' w l s' := by
  obtain ⟨T, hT, rfl⟩ := h
  obtain ⟨hview, es, hes⟩ := hans
  obtain ⟨es', hlog, heff⟩ := hview.effect rfl rfl hlegal
  -- the entries are the ones the operation notes down
  have hsame : es' = es := by
    have hown : own t s'.log = own t s.log ++ es' := hlog
    rw [hes, own_append, own_map_self] at hown
    exact (List.append_cancel_left hown).symm
  subst hsame
  obtain ⟨T', hT', hpost⟩ := hview.stale hT
  refine ⟨es', heff, hes, ⟨_, hpost, T', hT', rfl⟩, ?_⟩
  rintro t' hne w l'' ⟨T'', hT'', rfl⟩
  refine ⟨T'', hT''.trans heff.grows, ?_⟩
  rw [view, view, World.seeing, World.seeing, hes, own_append, own_map_ne hne, List.append_nil]

theorem together_keeps {permits : List (Entry D) → Entry D → Prop} {J : Shared C D → Prop}
    (hJ : ∀ t s es T, J s → Effect env permits (own t s.log) s.table es T →
      J ⟨T, s.log ++ es.map (Prod.mk t)⟩)
    {cfg cfg' : Config C (SysOp D) SysAns (Local D) (Shared C D) Unit}
    (hr : Reachable (together env) threadsOnly cfg cfg') (h0 : J cfg.shared)
    (hwp : ∀ t, Prog.wp False (surroundings env (busyMode (fun _ => True) permits)) (cfg.prog t)
      (fun _ _ => True) (view t (cfg.loc t) cfg.shared)) : J cfg'.shared := by
  have hsem : ∀ t w l s o a l' s', J s → Sees t w l s →
      Legal env (busyMode (fun _ => True) permits) w o → together env t (l, s) o a (l', s') →
      (∃ w', Answers env (busyMode (fun _ => True) permits) w o a w' ∧ Sees t w' l' s') ∧ J s' ∧
        ∀ t', t' ≠ t → ∀ w l, Sees t' w l s → Sees t' w l s' := by
    intro t w l s o a l' s' hs hsees hlegal hans
    obtain ⟨es, heff, hes, hself, hothers⟩ := hsees.together hlegal hans
    refine ⟨hself, ?_, hothers⟩
    have hkeep := hJ t s es s'.table hs heff
    rw [← hes] at hkeep
    exact hkeep
  have hstart : ∀ t, ∃ w, Sees t w (cfg.loc t) cfg.shared ∧
      Prog.wp False (surroundings env (busyMode (fun _ => True) permits)) (cfg.prog t)
        (fun _ _ => True) w := fun t => ⟨_, ⟨_, List.prefix_rfl, rfl⟩, hwp t⟩
  exact (hr.wp (R := fun _ => surroundings env (busyMode (fun _ => True) permits))
    (Q := fun _ _ _ => True) hsem (fun _ _ _ h => h.elim) h0 hstart).1

/-! ### Schedules -/

/-- The answer when nothing fails. -/
def quietly (env : Env D) (t : C) (x : Local D × Shared C D) (o : SysOp D) :
    SysAns o × Local D × Shared C D :=
  let r := quiet env (fun _ => 128) (view t x.1 x.2) o
  (r.1, ⟨r.2.stmts, r.2.reads, r.2.failed, r.2.incoming, r.2.sent, r.2.delivered⟩,
    ⟨r.2.table, x.2.log ++ (r.2.log.drop (own t x.2.log).length).map (Prod.mk t)⟩)

/-- The operation may be issued. -/
def mayIssue (_ : C) (x : Local D × Shared C D) : SysOp D → Bool
  | .sql (.prepare _) => true
  | .sql (.bindText h _ _) | .sql (.bindDouble h _ _) | .sql (.bindInt h _ _) | .sql (.step h)
  | .sql (.columnIsNull h _) | .sql (.columnInt h _) | .sql (.columnDouble h _)
  | .sql (.columnText h _) | .sql (.finalize h) => (x.1.stmts.get? h).isSome
  | .send _ data total_sent => total_sent < data.length
  | _ => true

theorem quietly_together (t : C) (x : Local D × Shared C D) (o : SysOp D) (h : mayIssue t x o) :
    together env t x o (quietly env t x o).1 (quietly env t x o).2 := by
  have hlegal : Legal env sharedMode (view t x.1 x.2) o := by
    cases o with
    | sql o =>
      refine ⟨?_, fun _ _ _ => trivial⟩
      cases o with
      | prepare q => trivial
      | _ => exact h
    | send fd data n => exact ⟨by simpa [mayIssue] using h, trivial⟩
    | _ => trivial
  have hans := quiet_answers (M := sharedMode) trivial env (fun _ => 128) (view t x.1 x.2) o hlegal
  obtain ⟨es, hlog, -⟩ : ∃ es, _ = own t x.2.log ++ es ∧
      Effect env (fun _ _ => True) (own t x.2.log) x.2.table es _ := hans.effect rfl rfl hlegal
  have hdrop : (quiet env (fun _ => 128) (view t x.1 x.2) o).2.log.drop (own t x.2.log).length
      = es := by
    rw [hlog]
    exact List.drop_left
  refine ⟨?_, es, ?_⟩
  · have hview : view t (quietly env t x o).2.1 (quietly env t x o).2.2
        = (quiet env (fun _ => 128) (view t x.1 x.2) o).2 := by
      rw [quietly, hdrop, view]
      simp only
      rw [own_append, own_map_self, ← show _ = own t x.2.log ++ es from hlog]
    rw [hview]
    exact hans
  · rw [quietly, hdrop]

end SensorGateway
