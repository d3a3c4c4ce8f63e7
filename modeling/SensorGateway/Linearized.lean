/-
The server is an atomic object.

`watched` is the server with its clients, together with a record of the commands its
threads have received and of the replies they had sent when they came back for the
next one.

* `watched_erase`, `together_watched` — the record changes nothing;
* `thread_timely` — when a thread comes back, what it has sent is explained by its own
  insert or by a table there has been since the command came in (`Explained`);
* `service_linearizable` — so the record is one of an object that serves one command
  at a time, however the threads are interleaved and whatever fails.

Design notes: whether a thread's command takes effect before that of another is only
known when it comes back; until then its effect is missing, if it has inserted nothing.
-/
import SensorGateway.AtomicObject
import SensorGateway.Service

open CString Sqlite TcpParser Threads

namespace SensorGateway

variable {C : Type} [DecidableEq C] {D : Type} [Libc D] {env : Env D} {c : ℕ} {fd : ℤ}

/-! ### The record -/

/-- A command that is being served. -/
structure Call (D : Type) where
  chunk : Bytes
  /-- The table when it was received. -/
  table : Table D
  /-- How many bytes had been sent by then. -/
  sent : ℕ
  /-- Whether a call has failed since. -/
  fault : Bool

/-- What has been sent for it. -/
def Call.reply (k : Call D) (sent : Bytes) : Bytes × Bool := (sent.drop k.sent, k.fault)

def Call.noting (k : Call D) (f : Bool) : Call D := { k with fault := k.fault || f }

/-- The command that `recv` returns. -/
def received (T : Table D) (sent : Bytes) : RecvRc → Option (Call D)
  | .data x => some ⟨x, T, sent.length, false⟩
  | _ => none

structure Watch (C D : Type) where
  shared : Shared C D
  calls : C → Option (Call D)
  history : List (Atomic.Event C Bytes (Bytes × Bool))

/-- The record when `t` has called `recv`. -/
def Watch.back (x : Watch C D) (t : C) (sent : Bytes) (a : RecvRc) (s : Shared C D) :
    Watch C D where
  shared := s
  calls := Function.update x.calls t (received x.shared.table sent a)
  history := x.history ++ ((x.calls t).map fun k => .ret t (k.reply sent)).toList
    ++ ((received x.shared.table sent a).map fun k => .call t k.chunk).toList

/-- The record when `t` has done something else. -/
def Watch.on (x : Watch C D) (t : C) (f : Bool) (s : Shared C D) : Watch C D where
  shared := s
  calls := Function.update x.calls t ((x.calls t).map fun k => k.noting f)
  history := x.history

def Watch.after (x : Watch C D) (t : C) (sent : Bytes) :
    (o : SysOp D) → SysAns o → Shared C D → Watch C D
  | .recv _ _, a, s => x.back t sent a s
  | o, a, s => x.on t (faulty o a) s

/-- The server with its clients, and the record. -/
def watched (env : Env D) : Semantics C (SysOp D) SysAns (Local D) (Watch C D) :=
  fun t x o a x' => together env t (x.1, x.2.shared) o a (x'.1, x'.2.shared) ∧
    x'.2 = x.2.after t x.1.sent o a x'.2.shared

/-- Nobody touches the record. -/
def unwatched (_ _ : Watch C D) : Prop := False

abbrev Watching (C D : Type) := Config C (SysOp D) SysAns (Local D) (Watch C D) Unit

/-- `serverStart`, with nothing recorded. -/
def watchStart (c : ℕ) (fd : C → ℤ) (incoming : C → List Bytes) (T : Table D) : Watching C D where
  prog := (serverStart c fd incoming T).prog
  loc := (serverStart c fd incoming T).loc
  shared := ⟨⟨T, []⟩, fun _ => none, []⟩

/-- The server without the record. -/
def erase (cfg : Watching C D) : Config C (SysOp D) SysAns (Local D) (Shared C D) Unit :=
  ⟨cfg.prog, cfg.loc, cfg.shared.shared⟩

theorem watched_erase {cfg cfg' : Watching C D} (hr : Reachable (watched env) unwatched cfg cfg') :
    Reachable (together env) threadsOnly (erase cfg) (erase cfg') := by
  induction hr with
  | refl => exact .refl
  | tail _ hs ih =>
    refine ih.tail ?_
    cases hs with
    | call t hp hs => exact .call t hp hs.1
    | iter t hp => exact .iter t hp
    | env he => exact he.elim

/-- Every run can be recorded. -/
theorem together_watched {cfg : Watching C D}
    {cfg' : Config C (SysOp D) SysAns (Local D) (Shared C D) Unit}
    (hr : Reachable (together env) threadsOnly (erase cfg) cfg') :
    ∃ cfg₁, Reachable (watched env) unwatched cfg cfg₁ ∧ erase cfg₁ = cfg' := by
  induction hr with
  | refl => exact ⟨cfg, .refl, rfl⟩
  | tail _ hs ih =>
    obtain ⟨cfg₁, hr₁, rfl⟩ := ih
    cases hs with
    | @call t o k a l s hp hs =>
      have hrec : (cfg₁.shared.after t (cfg₁.loc t).sent o a s).shared = s := by
        cases o <;> rfl
      refine ⟨⟨Function.update cfg₁.prog t (k a), Function.update cfg₁.loc t l,
        cfg₁.shared.after t (cfg₁.loc t).sent o a s⟩, hr₁.tail (.call t hp ⟨?_, ?_⟩), ?_⟩
      · rw [hrec]
        exact hs
      · rw [hrec]
      · rw [erase, hrec]
        rfl
    | iter t hp => exact ⟨_, hr₁.tail (.iter t hp), rfl⟩
    | env he => exact he.elim

/-! ### A thread on its own -/

/-- What has been sent for a command is an answer to it. -/
structure Explained (w : World D) (k : Call D) : Prop where
  stored : ∀ row, Entry.inserted row ∈ (round w.log).2 → Cut (bytes "OK\n") (k.reply w.sent)
  shown : (∀ row, Entry.inserted row ∉ (round w.log).2) →
    ∃ T, Grows k.table T ∧ Grows T w.table ∧ Shows T k.chunk (k.reply w.sent)

/-- What is known of the operations of a thread that serves the command `y.2`.  Before
`recv` it has been answered, and others may have inserted; SQLite is called for a
command only. -/
def timely (env : Env D) : Prog.OpSpec (SysOp D) SysAns (World D × Option (Call D)) where
  pre y o := (Busy env).pre y.1 o ∧ match o with
    | .recv _ _ => ∀ k ∈ y.2, Explained y.1 k
    | .sql _ => y.2.isSome
    | _ => True
  post y o a z := match o, a with
    | .recv fd size, a => ∃ T, Grows y.1.table T ∧
        (Busy env).post (y.1.seeing T) (.recv fd size) a z.1 ∧ z.2 = received T y.1.sent a
    | o, a => (Busy env).post y.1 o a z.1 ∧ z.2 = y.2.map fun k => k.noting (faulty o a)

/-- The command that is being served, as `flagged` shows it. -/
inductive Serving (k : Call D) : World D × Option (Call D) → World D × Bool → Prop
  | intro (w : World D) (f : Bool) : Serving k (w, some { k with fault := f }) (w, f)

omit [Libc D] in
theorem Call.noting_false (k : Call D) : k.noting false = k := by
  rw [Call.noting, Bool.or_false]

abbrev ServiceAction (C D : Type) := Atomic.Action C Bytes (Bytes × Bool) (Table D)

/-- What a client's thread has done last in the list, and what it is at. -/
inductive Placed (env : Env D) (t : C) (log : List (Entry D)) :
    Option (ServiceAction C D) → Option (Call D) → Prop
  | idle {a : Option (ServiceAction C D)} (ha : ∀ b ∈ a, ∃ t r, b = .ret t r) :
      Placed env t log a none
  | waiting {k : Call D} (hchunk : (round log).1 = some k.chunk)
      (hnone : ∀ row, Entry.inserted row ∉ (round log).2) :
      Placed env t log (some (.call t k.chunk k.table)) (some k)
  | stored {k : Call D} {r : Bytes × Bool} {T : Table D} {d : SensorData D}
      (hcmd : accepted (fmtStr k.chunk) = some (⟨.sensorData, .sensor d⟩ : TcpCommand D))
      (hrow : ∃ row, Entry.inserted row ∈ (round log).2) :
      Placed env t log (some (.effect t k.chunk r T (T.insert env (readingOf d)))) (some k)

/-- The list of an atomic object that explains what has been recorded. -/
structure Atomized (env : Env D) (T₀ : Table D) (x : Watch C D) (l : List (ServiceAction C D)) :
    Prop where
  legal : Atomic.Legal (Performs env) T₀ l x.shared.table
  events : Atomic.events l = x.history
  placed : ∀ t, Placed env t (own t x.shared.log) (Atomic.last t l) (x.calls t)

variable {T₀ : Table D} {x : Watch C D} {l : List (ServiceAction C D)} {t : C}

omit [DecidableEq C] in
theorem Placed.returned {log : List (Entry D)} {a : Option (ServiceAction C D)}
    (h : Placed env t log a none) : ∀ b ∈ a, ∃ t r, b = .ret t r := by
  cases h with
  | idle ha => exact ha

omit [DecidableEq C] in
/-- A thread that goes on does not change its place, unless it inserts. -/
theorem Placed.on {log : List (Entry D)} {a : Option (ServiceAction C D)} {o : Option (Call D)}
    (h : Placed env t log a o) (f : Bool) (texts : List Bytes) :
    Placed env t (log ++ texts.map .said) a (o.map fun k => k.noting f) := by
  cases h with
  | idle ha => exact .idle ha
  | @waiting k hchunk hnone =>
    refine .waiting (k := k.noting f) ?_ ?_
    · rw [round_said]
      exact hchunk
    · rw [round_said]
      intro row hrow
      exact hnone row (by simpa using hrow)
  | @stored k r T d hcmd hrow =>
    obtain ⟨row, hrow⟩ := hrow
    refine .stored (k := k.noting f) hcmd ⟨row, ?_⟩
    rw [round_said]
    exact List.mem_append_left _ hrow

omit [Libc D] in
/-- What `t` has noted down is nothing to the others. -/
theorem own_others {u : C} (h : u ≠ t) {log log' : List (C × Entry D)} {es : List (Entry D)}
    (hlog : log' = log ++ es.map (Prod.mk t)) : own u log' = own u log := by
  rw [hlog, own_append, own_map_ne h, List.append_nil]

omit [Libc D] in
theorem own_self {log log' : List (C × Entry D)} {es : List (Entry D)}
    (hlog : log' = log ++ es.map (Prod.mk t)) : own t log' = own t log ++ es := by
  rw [hlog, own_append, own_map_self]

/-- A thread goes on without inserting. -/
theorem Atomized.on (h : Atomized env T₀ x l) {s : Shared C D} (hT : s.table = x.shared.table)
    {texts : List Bytes} (hlog : s.log = x.shared.log ++ (texts.map .said).map (Prod.mk t))
    (f : Bool) : Atomized env T₀ (x.on t f s) l where
  legal := by
    show Atomic.Legal _ _ _ s.table
    rw [hT]
    exact h.legal
  events := h.events
  placed := by
    intro u
    show Placed env u (own u s.log) _ (Function.update x.calls t _ u)
    by_cases hu : u = t
    · subst hu
      rw [own_self hlog, Function.update_self]
      exact (h.placed u).on f texts
    · rw [own_others hu hlog, Function.update_of_ne hu]
      exact h.placed u

/-- A thread inserts a row: this is the effect of its command. -/
theorem Atomized.insert (h : Atomized env T₀ x l) {s : Shared C D} {k : Call D} {y : Reading D}
    (hk : x.calls t = some k)
    (hmay : Permitted (own t x.shared.log) (.inserted (env.row x.shared.table y)))
    (hT : s.table = x.shared.table.insert env y)
    (hlog : s.log = x.shared.log ++ [Entry.inserted (env.row x.shared.table y)].map (Prod.mk t))
    (f : Bool) : ∃ a, Atomized env T₀ (x.on t f s) (l ++ [a]) := by
  obtain ⟨chunk, d, hround, hcmd, hread⟩ := hmay
  have hy : y = readingOf d := hread
  subst hy
  have hplaced := h.placed t
  rw [hk] at hplaced
  generalize hlast : Atomic.last t l = a at hplaced
  cases hplaced with
  | waiting hchunk hnone =>
    rw [hround, Option.some_inj] at hchunk
    obtain rfl : chunk = k.chunk := hchunk
    refine ⟨.effect t k.chunk (bytes "OK\n", false) x.shared.table s.table, ?_, ?_, fun u => ?_⟩
    · refine h.legal.effect hlast ?_
      rw [hT]
      exact .stored hcmd (.self _)
    · rw [Atomic.events, List.filterMap_append]
      exact (List.append_nil _).trans h.events
    · show Placed env u (own u s.log) _ (Function.update x.calls t _ u)
      by_cases hu : u = t
      · subst hu
        rw [Function.update_self, hk, hT, own_self hlog, Atomic.last_concat_eq (by rfl)]
        refine .stored (k := k.noting f) hcmd ⟨env.row x.shared.table (readingOf d), ?_⟩
        rw [round_concat _ (by simp)]
        simp
      · rw [Function.update_of_ne hu, own_others hu hlog, Atomic.last_concat_ne (Ne.symm hu)]
        exact h.placed u
  | stored _ hrow =>
    obtain ⟨row, hrow⟩ := hrow
    rw [hround] at hrow
    cases hrow

/-- A thread comes back: its command has taken effect, and returns. -/
theorem Atomized.ret (h : Atomized env T₀ x l) {w : World D} {k : Call D}
    (hk : x.calls t = some k) (hlog : w.log = own t x.shared.log)
    (hT : Grows w.table x.shared.table) (hexp : Explained w k) :
    ∃ l' : List (ServiceAction C D), Atomic.Legal (Performs env) T₀ l' x.shared.table ∧
      Atomic.events l' = x.history ++ [.ret t (k.reply w.sent)] ∧
      Atomic.last t l' = some (.ret t (k.reply w.sent)) ∧
      ∀ u, u ≠ t → Atomic.last u l' = Atomic.last u l := by
  have hret : ∀ {l' : List (ServiceAction C D)} {T T' : Table D},
      Atomic.Settled (Performs env) T₀ t l l' x.shared.table
        (.effect t k.chunk (k.reply w.sent) T T') →
      ∃ l' : List (ServiceAction C D), Atomic.Legal (Performs env) T₀ l' x.shared.table ∧
        Atomic.events l' = x.history ++ [.ret t (k.reply w.sent)] ∧
        Atomic.last t l' = some (.ret t (k.reply w.sent)) ∧
        ∀ u, u ≠ t → Atomic.last u l' = Atomic.last u l := by
    intro l' T T' hs
    refine ⟨_, hs.legal.ret hs.last, ?_, Atomic.last_concat_eq (by rfl) l', fun u hu => ?_⟩
    · rw [← h.events, ← hs.events, Atomic.events, List.filterMap_append]
      rfl
    · rw [Atomic.last_concat_ne (Ne.symm hu)]
      exact hs.others u hu
  have hplaced := h.placed t
  rw [hk] at hplaced
  generalize hlast : Atomic.last t l = a at hplaced
  cases hplaced with
  | waiting hchunk hnone =>
    rw [← hlog] at hnone
    obtain ⟨T, hT₁, hT₂, hshows⟩ := hexp.shown hnone
    obtain ⟨l', T', hs⟩ := h.legal.settle (f := Table.rows) (fun _ _ _ _ => Performs.grows) hlast
      hT₁ (hT₂.trans hT) fun T' heq => by
        rw [Table.ext heq]
        exact .shown hshows
    exact hret hs
  | stored hcmd hrow =>
    obtain ⟨row, hrow⟩ := hrow
    rw [← hlog] at hrow
    obtain ⟨l', hs⟩ := h.legal.revise hlast (.stored hcmd (hexp.stored row hrow))
    exact hret hs

/-- A thread that comes back to `recv` has returned the command before, if there was one. -/
theorem Atomized.answer (h : Atomized env T₀ x l) {w : World D}
    (hw : w.log = own t x.shared.log) (hgrows : Grows w.table x.shared.table)
    (hexp : ∀ k ∈ x.calls t, Explained w k) : ∃ l₁ : List (ServiceAction C D),
      Atomic.Legal (Performs env) T₀ l₁ x.shared.table ∧
      Atomic.events l₁ = x.history
        ++ ((x.calls t).map fun k => .ret t (k.reply w.sent)).toList ∧
      (∀ b ∈ Atomic.last t l₁, ∃ t r, b = .ret t r) ∧
      ∀ u, u ≠ t → Atomic.last u l₁ = Atomic.last u l := by
  rcases hk : x.calls t with _ | k
  · have hidle := h.placed t
    rw [hk] at hidle
    exact ⟨l, h.legal, h.events.trans (List.append_nil _).symm, hidle.returned, fun _ _ => rfl⟩
  · obtain ⟨l₁, hlegal, hevents, hlast, hothers⟩ := h.ret hk hw hgrows (hexp k hk)
    refine ⟨l₁, hlegal, hevents, ?_, hothers⟩
    rw [hlast]
    rintro b ⟨⟩
    exact ⟨t, _, rfl⟩

theorem Atomized.back (h : Atomized env T₀ x l) {w : World D} {s : Shared C D} {a : RecvRc}
    (hw : w.log = own t x.shared.log) (hgrows : Grows w.table x.shared.table)
    (hexp : ∀ k ∈ x.calls t, Explained w k) (hT : s.table = x.shared.table) {es : List (Entry D)}
    (hlog : s.log = x.shared.log ++ es.map (Prod.mk t)) (hes : ∀ y, a = .data y → es = [.heard y]) :
    ∃ l', Atomized env T₀ (x.back t w.sent a s) l' := by
  obtain ⟨l₁, hlegal, hevents, hlast, hothers⟩ := h.answer hw hgrows hexp
  have hplaced : ∀ u, u ≠ t → Placed env u (own u s.log) (Atomic.last u l₁)
      ((x.back t w.sent a s).calls u) := by
    intro u hu
    show Placed env u _ _ (Function.update x.calls t _ u)
    rw [hothers u hu, Function.update_of_ne hu, own_others hu hlog]
    exact h.placed u
  rcases hrec : received x.shared.table w.sent a with _ | k
  · refine ⟨l₁, ?_, ?_, fun u => ?_⟩
    · show Atomic.Legal _ _ _ s.table
      rw [hT]
      exact hlegal
    · rw [hevents, Watch.back, hrec]
      exact (List.append_nil _).symm
    · by_cases hu : u = t
      · subst hu
        show Placed env u _ _ (Function.update x.calls u _ u)
        rw [Function.update_self, hrec]
        exact .idle hlast
      · exact hplaced u hu
  · -- then the next one comes in
    obtain ⟨y, rfl, rfl⟩ : ∃ y, a = .data y ∧ k = ⟨y, x.shared.table, w.sent.length, false⟩ := by
      cases a with
      | data y => exact ⟨y, rfl, (Option.some.inj hrec).symm⟩
      | _ => cases hrec
    refine ⟨l₁ ++ [.call t y x.shared.table], ?_, ?_, fun u => ?_⟩
    · show Atomic.Legal _ _ _ s.table
      rw [hT]
      exact hlegal.call hlast y
    · rw [Atomic.events, List.filterMap_append, Watch.back, ← hevents]
      rfl
    · by_cases hu : u = t
      · subst hu
        show Placed env u (own u s.log) _ (Function.update x.calls u _ u)
        rw [Function.update_self, own_self hlog, hes y rfl, Atomic.last_concat_eq (by rfl)]
        refine .waiting (k := ⟨y, x.shared.table, w.sent.length, false⟩) ?_ ?_
        · rw [round_heard]
        · rw [round_heard]
          simp
      · rw [Atomic.last_concat_ne (Ne.symm hu)]
        exact hplaced u hu

/-! ### Runs -/

theorem recv_noted {M : Mode D} {v v' : World D} {n : ℤ} {size : ℕ} {a : RecvRc}
    (h : Answers env M v (.recv n size) a v') :
    v'.table = v.table ∧ ∀ y, a = .data y → v'.log = v.log ++ [.heard y] := by
  rcases h with ⟨-, rfl | rfl, rfl⟩ | h
  · exact ⟨rfl, by simp⟩
  · exact ⟨rfl, by simp⟩
  · split at h
    · obtain ⟨rfl, rfl⟩ := h
      exact ⟨rfl, by simp⟩
    · obtain ⟨rfl, rfl⟩ := h
      refine ⟨rfl, ?_⟩
      rintro y ⟨⟩
      rfl

/-- What the other operations do: nothing, say something or insert a row. -/
theorem not_recv_noted {v v' : World D} {o : SysOp D} {a : SysAns o}
    (ho : ∀ fd n, o ≠ .recv fd n) (h : Answers env sharedMode v o a v') :
    (v'.table = v.table ∧ ∃ texts : List Bytes, v'.log = v.log ++ texts.map .said) ∨
      ∃ q y, o = .sql q ∧ y ∈ insertedBy v.stmts q ∧ v'.table = v.table.insert env y ∧
        v'.log = v.log ++ [.inserted (env.row v.table y)] := by
  have hsame : v'.log = v.log → v'.table = v.table →
      v'.table = v.table ∧ ∃ texts : List Bytes, v'.log = v.log ++ texts.map .said :=
    fun hlog hT => ⟨hT, [], by rw [hlog, List.map_nil, List.append_nil]⟩
  cases o with
  | sql q =>
    rcases Answers.shared h with ⟨-, rfl⟩ | ⟨-, rfl⟩
    · have hT : (v.afterSql env v.table q).table = _ := sqlStep_table env v.stmts v.table q
      rcases hins : insertedBy v.stmts q with _ | y
      · refine .inl (hsame ?_ ?_)
        · simp [World.afterSql, World.noting, hins]
        · rw [hT, hins]
          rfl
      · refine .inr ⟨q, y, rfl, hins, ?_, ?_⟩
        · rw [hT, hins]
          rfl
        · simp [World.afterSql, World.noting, hins]
    · exact .inl (hsame rfl rfl)
  | send fd data n =>
    rcases h with ⟨m, -, -, -, rfl⟩ | ⟨-, -, rfl⟩
    · exact .inl ⟨rfl, [data], rfl⟩
    · exact .inl ⟨rfl, [data], rfl⟩
  | recv fd n => exact absurd rfl (ho fd n)
  | close fd =>
    obtain rfl : v' = v := h
    exact .inl (hsame rfl rfl)
  | running =>
    obtain ⟨-, rfl⟩ := h
    exact .inl (hsame rfl rfl)
  | handler =>
    obtain ⟨-, rfl⟩ := h
    exact .inl (hsame rfl rfl)
  | output data =>
    obtain ⟨-, rfl⟩ := h
    exact .inl (hsame rfl rfl)

/-- What a thread takes the recorded system for. -/
def SeesCall (t : C) (y : World D × Option (Call D)) (l : Local D) (x : Watch C D) : Prop :=
  Sees t y.1 l x.shared ∧ y.2 = x.calls t

omit [Libc D] in
theorem SeesCall.other {y : World D × Option (Call D)} {l : Local D} {x x' : Watch C D} {u : C}
    (h : SeesCall u y l x) (hu : u ≠ t) {k : Option (Call D)}
    (hcalls : x'.calls = Function.update x.calls t k)
    (hsees : ∀ w l, Sees u w l x.shared → Sees u w l x'.shared) : SeesCall u y l x' := by
  refine ⟨hsees _ _ h.1, ?_⟩
  rw [hcalls, Function.update_of_ne hu]
  exact h.2

theorem Atomized.step {acts : List (ServiceAction C D)} (h : Atomized env T₀ x acts)
    {y : World D × Option (Call D)} {l l' : Local D} {s : Shared C D} {o : SysOp D} {a : SysAns o}
    (hsees : SeesCall t y l x) (hpre : (timely env).pre y o)
    (hans : together env t (l, x.shared) o a (l', s)) :
    (∃ z, (timely env).post y o a z ∧ SeesCall t z l' (x.after t l.sent o a s)) ∧
      (∃ acts', Atomized env T₀ (x.after t l.sent o a s) acts') ∧
      ∀ u, u ≠ t → ∀ y l', SeesCall u y l' x → SeesCall u y l' (x.after t l.sent o a s) := by
  obtain ⟨w, k⟩ := y
  obtain ⟨hw, rfl⟩ : Sees t w l x.shared ∧ k = x.calls t := hsees
  obtain ⟨es, -, hlog, ⟨w', hpost, hw'⟩, hothers⟩ := hw.together hpre.1 hans
  obtain ⟨T, hT, rfl⟩ := hw
  by_cases ho : ∃ fd n, o = .recv fd n
  · obtain ⟨fd, n, rfl⟩ := ho
    -- the thread takes the table as it is now
    have hnow : Sees t (view t l x.shared) l x.shared := ⟨_, List.prefix_rfl, rfl⟩
    have hlegal : Legal env (busyMode (fun _ => True) Permitted) (view t l x.shared)
      (.recv fd n) := trivial
    obtain ⟨-, -, -, ⟨w₁, hpost₁, hw₁⟩, -⟩ := hnow.together hlegal hans
    obtain ⟨htable, hheard⟩ := recv_noted hans.1
    refine ⟨⟨(w₁, received x.shared.table l.sent a), ⟨_, hT, hpost₁, rfl⟩, hw₁, ?_⟩, ?_, ?_⟩
    · show _ = Function.update x.calls t _ t
      rw [Function.update_self]
    · refine h.back (w := (view t l x.shared).seeing T) rfl hT hpre.2 htable hlog fun y hy => ?_
      have hown : own t s.log = own t x.shared.log ++ [.heard y] := hheard y hy
      rw [own_self hlog] at hown
      exact List.append_cancel_left hown
    · exact fun u hu y l' hy => hy.other hu rfl (hothers u hu)
  · rw [not_exists] at ho
    have ho : ∀ fd n, o ≠ .recv fd n := fun fd n heq => ho fd ⟨n, heq⟩
    have hafter : x.after t l.sent o a s = x.on t (faulty o a) s := by
      cases o with
      | recv fd n => exact absurd rfl (ho fd n)
      | _ => rfl
    rw [hafter]
    refine ⟨⟨(w', (x.calls t).map fun k => k.noting (faulty o a)), ?_, hw', ?_⟩, ?_, ?_⟩
    · cases o with
      | recv fd n => exact absurd rfl (ho fd n)
      | _ => exact ⟨hpost, rfl⟩
    · show _ = Function.update x.calls t _ t
      rw [Function.update_self]
    · have hown : own t s.log = own t x.shared.log ++ es := own_self hlog
      rcases not_recv_noted ho hans.1 with ⟨hsame, texts, hsaid⟩ | ⟨q, r, rfl, hr, hT', hins⟩
      · have hes : own t s.log = own t x.shared.log ++ texts.map .said := hsaid
        rw [hown, List.append_cancel_left_eq] at hes
        exact ⟨acts, h.on hsame (hes ▸ hlog) _⟩
      · -- SQLite is called for a command only
        obtain ⟨k, hk⟩ := Option.isSome_iff_exists.mp hpre.2
        have hes : own t s.log =
            own t x.shared.log ++ [.inserted (env.row x.shared.table r)] := hins
        rw [hown, List.append_cancel_left_eq] at hes
        obtain ⟨b, hb⟩ := h.insert hk (hpre.1.2 x.shared.table r hr) hT' (hes ▸ hlog)
          (faulty (.sql q) a)
        exact ⟨_, hb⟩
    · exact fun u hu y l' hy => hy.other hu rfl (hothers u hu)

/-- The answer when nothing fails. -/
def quietlyWatched (env : Env D) (t : C) (x : Local D × Watch C D) (o : SysOp D) :
    SysAns o × Local D × Watch C D :=
  let r := quietly env t (x.1, x.2.shared) o
  (r.1, r.2.1, x.2.after t x.1.sent o r.1 r.2.2)

theorem quietly_watched (t : C) (x : Local D × Watch C D) (o : SysOp D)
    (h : mayIssue t (x.1, x.2.shared) o) :
    watched env t x o (quietlyWatched env t x o).1 (quietlyWatched env t x o).2 := by
  have hrec : (quietlyWatched env t x o).2.2.shared = (quietly env t (x.1, x.2.shared) o).2.2 := by
    cases o <;> rfl
  refine ⟨?_, ?_⟩
  · rw [hrec]
    exact quietly_together t (x.1, x.2.shared) o h
  · rw [hrec]
    rfl

end SensorGateway
