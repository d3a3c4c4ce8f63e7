/-
What the surroundings may do to one client thread.

A `World` is what a thread sees: its own statements, the table, the bytes it
has received and sent.  `Answers env M` says which answer an operation may have
and which world follows; the mode `M` fixes whether SQLite calls and sockets may
fail, what other clients may do to the table before a statement is prepared and
before its other calls, and what a caller's output handler returns.

* `surroundings env M` — the same as a specification for `Prog.wp`, whose
  precondition asks that statements be used only between their preparation and
  their finalization, that `send` be offered at least one byte, and that the
  mode permits what the thread inserts and says;
* `quiet env accept` — the surroundings in which nothing fails and nobody else
  is at work, as a handler that runs; `quiet_answers` relates the two.
-/
import SensorGateway.System

open Sqlite

namespace SensorGateway

variable {D : Type} [Libc D]

/-- What a thread notes down of its own doings. -/
inductive Entry (D : Type)
  /-- `recv` has returned these bytes. -/
  | heard (received : Bytes)
  /-- An INSERT has added this row. -/
  | inserted (x : Row D)
  /-- `send` has been called for some of these bytes. -/
  | said (data : Bytes)

structure World (D : Type) where
  stmts : Stmts D
  table : Table D
  /-- The tables that the finalized SELECT statements have read last, in order. -/
  reads : List (Table D)
  /-- Some SQLite call has failed. -/
  failed : Bool
  /-- The segments the client has sent and the thread not yet received. -/
  incoming : List Bytes
  /-- The bytes `send` has taken. -/
  sent : Bytes
  /-- The strings passed to the output handler of the caller. -/
  delivered : List Bytes
  log : List (Entry D)

/-- Other clients only insert: each row they add has an id above all earlier ones. -/
def Grows (T T' : Table D) : Prop := T.rows <+: T'.rows

/-- What is left open by the surroundings. -/
structure Mode (D : Type) where
  /-- What other clients may do to the table from one statement to the next. -/
  grows : Table D → Table D → Prop
  grows_refl : ∀ T, grows T T
  grows_trans : ∀ T₁ T₂ T₃, grows T₁ T₂ → grows T₂ T₃ → grows T₁ T₃
  sqlFails : Prop
  socketFails : Prop
  output : ℤ → Prop
  /-- The inserts and sends a thread may add to what it has noted down. -/
  permits : List (Entry D) → Entry D → Prop

/-- What they may do while a statement is in use: insert, if that. -/
def Mode.inserts (M : Mode D) (T T' : Table D) : Prop := M.grows T T' ∧ Grows T T'

/-- What they may do before a call. -/
def Mode.before (M : Mode D) : SqlOp D → Table D → Table D → Prop
  | .prepare _ => M.grows
  | _ => M.inserts

/-- The table that a statement has read last, if it is a SELECT and finalized now. -/
def readBy (stmts : Stmts D) : SqlOp D → List (Table D)
  | .finalize h => ((stmts.get? h).bind Stmt.seen).toList
  | _ => []

/-- What an operation stores when it succeeds. -/
def insertedBy (stmts : Stmts D) : SqlOp D → Option (Reading D)
  | .step h => (stmts.get? h).bind Stmt.reading?
  | _ => none

/-- The world with an insert noted down. -/
def World.noting (w : World D) (x : Option (Row D)) : World D :=
  { w with log := w.log ++ (x.map Entry.inserted).toList }

/-- The world after a SQLite call that found the table `T` and succeeded. -/
def World.afterSql (env : Env D) (w : World D) (T : Table D) (o : SqlOp D) : World D :=
  let c := (sqlStep env ⟨w.stmts, T⟩ o).2
  { w.noting ((insertedBy w.stmts o).map (env.row T)) with
    stmts := c.stmts, table := c.table, reads := w.reads ++ readBy w.stmts o }

/-- The world after a SQLite call that found the table `T` and failed. -/
def World.afterFailure (w : World D) (T : Table D) : World D :=
  { w with table := T, failed := true }

/-- The world after `send` has taken `n` bytes of `data` from `total_sent` on. -/
def World.afterSend (w : World D) (data : Bytes) (total_sent n : ℕ) : World D :=
  { w with sent := w.sent ++ (data.drop total_sent).take n, log := w.log ++ [.said data] }

/-- The world after `recv` has taken `size` bytes at most of the segment `c`. -/
def World.afterRecv (w : World D) (size : ℕ) (c : Bytes) (cs : List Bytes) : World D :=
  { w with
    incoming := if c.length ≤ size then cs else c.drop size :: cs
    log := w.log ++ [.heard (c.take size)] }

def World.afterOutput (w : World D) (data : Bytes) : World D :=
  { w with delivered := w.delivered ++ [data] }

/-- The same surroundings for a thread that may note down anything. -/
def Mode.free (M : Mode D) : Mode D := { M with permits := fun _ _ => True }

/-- Which answer an operation may have, and the world that follows. -/
def Answers (env : Env D) (M : Mode D) (w : World D) :
    (o : SysOp D) → SysAns o → World D → Prop
  | .sql o, a, w' => ∃ T, M.before o w.table T ∧
      (a = (sqlStep env ⟨w.stmts, T⟩ o).1 ∧ w' = w.afterSql env T o ∨
        M.sqlFails ∧ Fails o a ∧ w' = w.afterFailure T)
  | .send _ data total_sent, a, w' =>
      (∃ n, 0 < n ∧ n ≤ data.length - total_sent ∧ a = .sent n ∧
        w' = w.afterSend data total_sent n) ∨
      M.socketFails ∧ (a = .sent 0 ∨ a = .eintr ∨ a = .error) ∧ w' = w.afterSend data total_sent 0
  | .recv _ size, a, w' =>
      M.socketFails ∧ (a = .eintr ∨ a = .error) ∧ w' = w ∨
      match w.incoming with
      | [] => a = .closed ∧ w' = w
      | c :: cs => a = .data (c.take size) ∧ w' = w.afterRecv size c cs
  | .close _, _, w' => w' = w
  | .running, a, w' => a = true ∧ w' = w
  | .handler, a, w' => a = true ∧ w' = w
  | .output data, a, w' => M.output a ∧ w' = w.afterOutput data

/-- A statement is live from its preparation to its finalization. -/
def Stmts.Live (l : Stmts D) (h : ℕ) : Prop := (l.get? h).isSome

def LegalSql (l : Stmts D) : SqlOp D → Prop
  | .prepare _ => True
  | .bindText h _ _ | .bindDouble h _ _ | .bindInt h _ _ | .step h | .columnIsNull h _
  | .columnInt h _ | .columnDouble h _ | .columnText h _ | .finalize h => Stmts.Live l h

/-- The operations a program may issue. -/
def Legal (env : Env D) (M : Mode D) (w : World D) : SysOp D → Prop
  | .sql o => LegalSql w.stmts o ∧
    ∀ T, ∀ x ∈ insertedBy w.stmts o, M.permits w.log (.inserted (env.row T x))
  | .send _ data total_sent => total_sent < data.length ∧ M.permits w.log (.said data)
  | _ => True

def surroundings (env : Env D) (M : Mode D) : Prog.OpSpec (SysOp D) SysAns (World D) :=
  ⟨Legal env M, Answers env M⟩

/-- What a thread may note down has no bearing on the answers. -/
theorem Mode.free_answers (env : Env D) (M : Mode D) (w : World D) (o : SysOp D) (a : SysAns o)
    (w' : World D) (_ : Legal env M.free w o) (h : Answers env M w o a w') :
    Answers env M.free w o a w' := h

omit [Libc D] in
theorem Mode.inserts_refl (M : Mode D) (T : Table D) : M.inserts T T :=
  ⟨M.grows_refl T, List.prefix_rfl⟩

omit [Libc D] in
theorem Mode.inserts_trans (M : Mode D) {T₁ T₂ T₃ : Table D} (h : M.inserts T₁ T₂)
    (h' : M.inserts T₂ T₃) : M.inserts T₁ T₃ :=
  ⟨M.grows_trans _ _ _ h.1 h'.1, h.2.trans h'.2⟩

omit [Libc D] in
theorem Mode.before_refl (M : Mode D) (o : SqlOp D) (T : Table D) : M.before o T T := by
  cases o with
  | prepare q => exact M.grows_refl T
  | _ => exact M.inserts_refl T

omit [Libc D] in
theorem Mode.before_trans (M : Mode D) {o : SqlOp D} {T₁ T₂ T₃ : Table D} (h : M.inserts T₁ T₂)
    (h' : M.before o T₂ T₃) : M.before o T₁ T₃ := by
  cases o with
  | prepare q => exact M.grows_trans _ _ _ h.1 h'
  | _ => exact M.inserts_trans h h'

omit [Libc D] in
theorem Mode.grows_of_before {M : Mode D} {o : SqlOp D} {T T' : Table D} (h : M.before o T T') :
    M.grows T T' := by
  cases o with
  | prepare q => exact h
  | _ => exact h.1

omit [Libc D] in
/-- In a mode in which others only insert, one call is like another. -/
theorem Mode.before_of_grows {M : Mode D} {T T' : Table D} (h : M.grows T T') (hT : Grows T T')
    (o : SqlOp D) : M.before o T T' := by
  cases o with
  | prepare q => exact h
  | _ => exact ⟨h, hT⟩

/-! ### Other clients -/

/-- Other clients insert between any two SQLite calls, any of which may fail, and
so may the sockets; the output handler returns what satisfies `output`. -/
def busyMode (output : ℤ → Prop) (permits : List (Entry D) → Entry D → Prop) : Mode D where
  grows := Grows
  grows_refl _ := List.prefix_rfl
  grows_trans _ _ _ := List.IsPrefix.trans
  sqlFails := True
  socketFails := True
  output := output
  permits := permits

/-! ### Nothing fails and nobody else is at work -/

def quietMode : Mode D where
  grows := Eq
  grows_refl _ := rfl
  grows_trans _ _ _ := Eq.trans
  sqlFails := False
  socketFails := False
  output a := a = 0
  permits _ _ := True

/-- Any SQLite call may fail and the output handler may return anything; the sockets
work, and nobody else is at work. -/
def faultyMode : Mode D := { quietMode with sqlFails := True, output := fun _ => True }

/-- The answer of quiet surroundings.  `accept n` is how many bytes `send` is
ready to take when `n` have been sent so far. -/
def quiet (env : Env D) (accept : ℕ → ℕ) (w : World D) :
    (o : SysOp D) → SysAns o × World D
  | .sql o => ((sqlStep env ⟨w.stmts, w.table⟩ o).1, w.afterSql env w.table o)
  | .send _ data total_sent =>
    let n := max 1 (min (data.length - total_sent) (accept w.sent.length))
    (.sent n, w.afterSend data total_sent n)
  | .recv _ size =>
    match w.incoming with
    | [] => (.closed, w)
    | c :: cs => (.data (c.take size), w.afterRecv size c cs)
  | .close _ => ((), w)
  | .running => (true, w)
  | .handler => (true, w)
  | .output data => (0, w.afterOutput data)

/-- Quiet surroundings are allowed in every mode in which the handler may return 0. -/
theorem quiet_answers {M : Mode D} (hM : M.output 0) (env : Env D) (accept : ℕ → ℕ)
    (w : World D) (o : SysOp D) (h : Legal env M w o) :
    Answers env M w o (quiet env accept w o).1 (quiet env accept w o).2 := by
  cases o with
  | sql o => exact ⟨w.table, M.before_refl o _, .inl ⟨rfl, rfl⟩⟩
  | send fd data total_sent =>
    have hlt : total_sent < data.length := h.1
    exact .inl ⟨_, by omega, by omega, rfl, rfl⟩
  | recv fd size =>
    refine .inr ?_
    simp only [quiet]
    split <;> exact ⟨rfl, rfl⟩
  | close fd => rfl
  | running => exact ⟨rfl, rfl⟩
  | handler => exact ⟨rfl, rfl⟩
  | output data => exact ⟨hM, rfl⟩

/-- A result proved for quiet surroundings holds of the run in them, which ends. -/
theorem quiet_evals {env : Env D} (accept : ℕ → ℕ) {α : Type} {p : Sys D α}
    {Q : α → World D → Prop} {w : World D} (hp : Prog.wp True (surroundings env quietMode) p Q w) :
    ∃ a w', Prog.Evals (quiet env accept) p w a w' ∧ Q a w' :=
  Prog.wp_evals (quiet_answers rfl env accept) hp

/-- That run is among the runs in every mode in which the handler may return 0. -/
theorem quiet_runs {M : Mode D} (hM : M.output 0) {env : Env D} {α : Type} {p : Sys D α}
    {Q : α → World D → Prop} {w : World D} (hp : Prog.wp True (surroundings env quietMode) p Q w) :
    ∃ a w', Prog.Runs (Answers env M) p w a w' ∧ Q a w' := by
  have hlegal : ∀ (w : World D) (o : SysOp D), Legal env quietMode w o → Legal env M.free w o := by
    intro w o h
    cases o with
    | sql o => exact ⟨h.1, fun _ _ _ => trivial⟩
    | send fd data total_sent => exact ⟨h.1, trivial⟩
    | _ => trivial
  obtain ⟨a, w', ⟨n, hn⟩, -⟩ := quiet_evals id hp
  have hsem : ∀ (w : World D) (o : SysOp D), Legal env quietMode w o →
      Answers env M w o (quiet env id w o).1 (quiet env id w o).2 := fun w o h =>
    quiet_answers (M := M.free) hM env id w o (hlegal w o h)
  exact ⟨a, w', Prog.runs_of_run (quiet_answers rfl env id) hsem hp hn⟩

end SensorGateway
