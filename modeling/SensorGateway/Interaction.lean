/-
Interaction programs: sequential code that talks to its surroundings.

A `Prog Op Ans α` is a program that returns an `α` and, on its way, issues
operations `o : Op`, each answered by an `Ans o`.  It is a tree of calls with
one looping construct, so C code with early returns and `while` loops is
written down in `do` notation, statement by statement.  The operations have no
meaning of their own; two semantics give them one:

* `run h n` — a deterministic handler `h` answers every operation and each
  loop makes at most `n` turns; `Evals` forgets the bound, with the big-step
  rules `Evals.bind`, `Evals.iter_next`, `Evals.iter_done`;
* `Runs sem` — the finished runs when `sem` leaves several answers open
  (failures, other threads).

Both are reasoned about through the weakest precondition `wp t R` under a
specification `R` of the operations, total when `t` holds and partial
otherwise:

* `wp_runs`, `runs_of_run` — a finished run ends where `wp` says;
* `wp_evals` — under a total one, a deterministic run does end, and there.

Design notes: a loop carries its own state type, so `Prog` lives one universe
up; `wp` asks at each loop for an invariant with a bound on the turns left,
which is lowered in total mode and idle in partial mode.
-/
import Mathlib.Logic.Function.Basic
import Mathlib.Logic.Relation
import Mathlib.Tactic.Common

/-- Programs over operations `Op` with answers `Ans`. -/
inductive Prog (Op : Type) (Ans : Op → Type) : Type → Type 1
  | ret {α : Type} (a : α) : Prog Op Ans α
  | call {α : Type} (o : Op) (k : Ans o → Prog Op Ans α) : Prog Op Ans α
  | iter {α σ ρ : Type} (body : σ → Prog Op Ans (σ ⊕ ρ)) (s : σ)
      (k : ρ → Prog Op Ans α) : Prog Op Ans α

namespace Prog

variable {Op : Type} {Ans : Op → Type} {α β γ W : Type}

/-- The answer of a program that has come to its end. -/
def result? {α : Type} : Prog Op Ans α → Option α
  | .ret a => some a
  | _ => none

theorem eq_ret_of_result? {p : Prog Op Ans α} {a : α} (h : p.result? = some a) : p = .ret a := by
  cases p with
  | ret b => rw [Option.some.inj h]
  | call o k => cases h
  | iter body s k => cases h

/-- Sequencing: graft `f` onto the leaves. -/
def bind {α β : Type} : Prog Op Ans α → (α → Prog Op Ans β) → Prog Op Ans β
  | .ret a, f => f a
  | .call o k, f => .call o fun a => (k a).bind f
  | .iter body s k, f => .iter body s fun r => (k r).bind f

instance : Monad (Prog Op Ans) where
  pure := .ret
  bind := .bind

/-- Issue one operation and return its answer. -/
def perform (o : Op) : Prog Op Ans (Ans o) := .call o .ret

/-- `while (1)`: repeat `body` until it answers `inr`. -/
def loop {σ ρ : Type} (body : σ → Prog Op Ans (σ ⊕ ρ)) (s : σ) : Prog Op Ans ρ :=
  .iter body s .ret

/-- One turn of a loop, written out. -/
def unroll {σ ρ : Type} (body : σ → Prog Op Ans (σ ⊕ ρ)) (s : σ)
    (k : ρ → Prog Op Ans α) : Prog Op Ans α :=
  (body s).bind (Sum.elim (fun s' => .iter body s' k) k)

@[simp] theorem pure_eq (a : α) : (pure a : Prog Op Ans α) = .ret a := rfl

@[simp] theorem bind_eq (p : Prog Op Ans α) (f : α → Prog Op Ans β) :
    p >>= f = p.bind f := rfl

@[simp] theorem ret_bind (a : α) (f : α → Prog Op Ans β) :
    (Prog.ret a : Prog Op Ans α).bind f = f a := rfl

@[simp] theorem call_bind (o : Op) (k : Ans o → Prog Op Ans α) (f : α → Prog Op Ans β) :
    (Prog.call o k).bind f = .call o fun a => (k a).bind f := rfl

@[simp] theorem iter_bind {σ ρ : Type} (body : σ → Prog Op Ans (σ ⊕ ρ)) (s : σ)
    (k : ρ → Prog Op Ans α) (f : α → Prog Op Ans β) :
    (Prog.iter body s k).bind f = .iter body s fun r => (k r).bind f := rfl

@[simp] theorem perform_bind (o : Op) (f : Ans o → Prog Op Ans β) :
    (perform o : Prog Op Ans (Ans o)).bind f = .call o f := rfl

@[simp] theorem loop_bind {σ ρ : Type} (body : σ → Prog Op Ans (σ ⊕ ρ)) (s : σ)
    (f : ρ → Prog Op Ans β) : (loop body s).bind f = .iter body s f := rfl

theorem bind_ret (p : Prog Op Ans α) : p.bind .ret = p := by
  induction p with
  | ret a => rfl
  | call o k ih => simp only [call_bind, ih]
  | iter body s k _ ih => simp only [iter_bind, ih]

theorem bind_assoc (p : Prog Op Ans α) (f : α → Prog Op Ans β) (g : β → Prog Op Ans γ) :
    (p.bind f).bind g = p.bind fun a => (f a).bind g := by
  induction p with
  | ret a => rfl
  | call o k ih => simp only [call_bind, ih]
  | iter body s k _ ih => simp only [iter_bind, ih]

/-! ### Deterministic runs -/

/-- At most `n` turns of a loop whose body is `f`. -/
def turns {σ ρ W : Type} (f : σ → W → Option ((σ ⊕ ρ) × W)) : ℕ → σ → W → Option (ρ × W)
  | 0, _, _ => none
  | n + 1, s, w =>
    match f s w with
    | none => none
    | some (.inl s', w') => turns f n s' w'
    | some (.inr r, w') => some (r, w')

/-- Run a program against a handler; `none` when some loop needs more than
`n` turns. -/
def run {W : Type} (h : W → (o : Op) → Ans o × W) (n : ℕ) {α : Type} :
    Prog Op Ans α → W → Option (α × W)
  | .ret a, w => some (a, w)
  | .call o k, w => run h n (k (h w o).1) (h w o).2
  | .iter body s k, w =>
    match turns (fun s w => run h n (body s) w) n s w with
    | none => none
    | some (r, w') => run h n (k r) w'

variable {h : W → (o : Op) → Ans o × W}

theorem run_bind (n : ℕ) (p : Prog Op Ans α) (f : α → Prog Op Ans β) (w : W) :
    run h n (p.bind f) w = (run h n p w).bind fun x => run h n (f x.1) x.2 := by
  induction p generalizing w with
  | ret a => rfl
  | call o k ih =>
    rw [call_bind, run, run]
    exact ih _ f _
  | iter body s k _ ih =>
    rw [iter_bind, run, run]
    cases turns (fun s w => run h n (body s) w) n s w with
    | none => rfl
    | some x => exact ih _ f _

theorem turns_mono {σ ρ : Type} {f g : σ → W → Option ((σ ⊕ ρ) × W)}
    (hfg : ∀ s w x, f s w = some x → g s w = some x) :
    ∀ {n m : ℕ}, n ≤ m → ∀ {s : σ} {w : W} {x : ρ × W},
      turns f n s w = some x → turns g m s w = some x := by
  intro n
  induction n with
  | zero =>
    intro m _ s w x hx
    simp [turns] at hx
  | succ n ih =>
    intro m hnm s w x hx
    obtain ⟨m, rfl⟩ : ∃ m', m = m' + 1 := ⟨m - 1, by omega⟩
    rw [turns] at hx ⊢
    cases hf : f s w with
    | none => simp [hf] at hx
    | some y =>
      obtain ⟨r, w'⟩ := y
      rw [hfg s w _ hf]
      rw [hf] at hx
      cases r with
      | inl s' => exact ih (by omega) hx
      | inr r => exact hx

theorem run_mono {n m : ℕ} (hnm : n ≤ m) {p : Prog Op Ans α} {w : W} {x : α × W}
    (hx : run h n p w = some x) : run h m p w = some x := by
  induction p generalizing w with
  | ret a => exact hx
  | call o k ih =>
    rw [run] at hx ⊢
    exact ih _ hx
  | iter body s k ihb ihk =>
    rw [run] at hx ⊢
    cases ht : turns (fun s w => run h n (body s) w) n s w with
    | none => simp [ht] at hx
    | some y =>
      have ht' := turns_mono (g := fun s w => run h m (body s) w)
        (fun s w x hb => ihb s hb) hnm ht
      rw [ht] at hx
      rw [ht']
      exact ihk _ hx

/-- What every operation keeps, a run keeps. -/
theorem run_keeps {P : W → Prop} (hP : ∀ w o, P w → P (h w o).2) {n : ℕ} {p : Prog Op Ans α}
    {w w' : W} {a : α} (hr : run h n p w = some (a, w')) (hw : P w) : P w' := by
  induction p generalizing w w' with
  | ret b =>
    obtain ⟨-, rfl⟩ : b = a ∧ w = w' := by simpa [run] using hr
    exact hw
  | call o k ih => exact ih _ hr (hP w o hw)
  | iter body s k ihb ihk =>
    have hturns : ∀ m s w r w₁, turns (fun s w => run h n (body s) w) m s w = some (r, w₁) →
        P w → P w₁ := by
      intro m
      induction m with
      | zero =>
        intro s w r w₁ ht _
        simp [turns] at ht
      | succ m ih =>
        intro s w r w₁ ht hw
        rw [turns] at ht
        cases hb : run h n (body s) w with
        | none => simp [hb] at ht
        | some y =>
          obtain ⟨x, w₂⟩ := y
          have hw₂ : P w₂ := ihb s hb hw
          rw [hb] at ht
          cases x with
          | inl s' => exact ih s' w₂ r w₁ ht hw₂
          | inr r' =>
            obtain ⟨-, rfl⟩ : r' = r ∧ w₂ = w₁ := by simpa using ht
            exact hw₂
    rw [run] at hr
    cases ht : turns (fun s w => run h n (body s) w) n s w with
    | none => simp [ht] at hr
    | some y =>
      rw [ht] at hr
      exact ihk _ hr (hturns n s w y.1 y.2 ht hw)

/-- A handler that also keeps a record runs a program as the plain one does: `g`
forgets the record. -/
theorem run_map {V : Type} {h' : V → (o : Op) → Ans o × V} (g : W → V)
    (hg : ∀ w o, h' (g w) o = ((h w o).1, g (h w o).2)) (n : ℕ) (p : Prog Op Ans α) (w : W) :
    run h' n p (g w) = (run h n p w).map fun x => (x.1, g x.2) := by
  induction p generalizing w with
  | ret a => rfl
  | call o k ih =>
    rw [run, run, hg]
    exact ih _ _
  | iter body s k ihb ihk =>
    have hturns : ∀ m s w, turns (fun s v => run h' n (body s) v) m s (g w)
        = (turns (fun s w => run h n (body s) w) m s w).map fun x => (x.1, g x.2) := by
      intro m
      induction m with
      | zero => exact fun _ _ => rfl
      | succ m ih =>
        intro s w
        rw [turns, turns, ihb]
        cases run h n (body s) w with
        | none => rfl
        | some y =>
          obtain ⟨x, w₁⟩ := y
          cases x with
          | inl s' => exact ih s' w₁
          | inr r => rfl
    rw [run, run, hturns]
    cases turns (fun s w => run h n (body s) w) n s w with
    | none => rfl
    | some y => exact ihk _ _

/-- `p` started in `w` comes to an end with answer `a` in world `w'`. -/
def Evals (h : W → (o : Op) → Ans o × W) (p : Prog Op Ans α) (w : W) (a : α) (w' : W) : Prop :=
  ∃ n, run h n p w = some (a, w')

namespace Evals

theorem ret (a : α) (w : W) : Evals h (.ret a) w a w := ⟨0, rfl⟩

theorem call {o : Op} {k : Ans o → Prog Op Ans α} {w w' : W} {a : α}
    (hk : Evals h (k (h w o).1) (h w o).2 a w') : Evals h (.call o k) w a w' := hk

theorem bind {p : Prog Op Ans α} {f : α → Prog Op Ans β} {w w₁ w₂ : W} {a : α} {b : β}
    (hp : Evals h p w a w₁) (hf : Evals h (f a) w₁ b w₂) : Evals h (p.bind f) w b w₂ := by
  obtain ⟨n, hn⟩ := hp
  obtain ⟨m, hm⟩ := hf
  refine ⟨max n m, ?_⟩
  rw [run_bind, run_mono (Nat.le_max_left n m) hn]
  exact run_mono (Nat.le_max_right n m) hm

theorem unique {p : Prog Op Ans α} {w w₁ w₂ : W} {a b : α}
    (ha : Evals h p w a w₁) (hb : Evals h p w b w₂) : a = b ∧ w₁ = w₂ := by
  obtain ⟨n, hn⟩ := ha
  obtain ⟨m, hm⟩ := hb
  have h1 := run_mono (Nat.le_max_left n m) hn
  have h2 := run_mono (Nat.le_max_right n m) hm
  rw [h1, Option.some_inj, Prod.mk.injEq] at h2
  exact h2

section loops

variable {σ ρ : Type} {body : σ → Prog Op Ans (σ ⊕ ρ)} {s : σ} {k : ρ → Prog Op Ans α}

theorem iter_next {s' : σ} {w w₁ w₂ : W} {a : α}
    (hb : Evals h (body s) w (.inl s') w₁) (hk : Evals h (.iter body s' k) w₁ a w₂) :
    Evals h (.iter body s k) w a w₂ := by
  obtain ⟨n, hn⟩ := hb
  obtain ⟨m, hm⟩ := hk
  rw [run] at hm
  cases ht : turns (fun s w => run h m (body s) w) m s' w₁ with
  | none => simp [ht] at hm
  | some x =>
    rw [ht] at hm
    refine ⟨max n m + 1, ?_⟩
    have ht' := turns_mono (g := fun s w => run h (max n m + 1) (body s) w) (m := max n m)
      (fun s w x hx => run_mono (by omega) hx) (by omega) ht
    rw [run, turns, run_mono (by omega) hn]
    simp only [ht']
    exact run_mono (by omega) hm

theorem iter_done {r : ρ} {w w₁ w₂ : W} {a : α}
    (hb : Evals h (body s) w (.inr r) w₁) (hk : Evals h (k r) w₁ a w₂) :
    Evals h (.iter body s k) w a w₂ := by
  obtain ⟨n, hn⟩ := hb
  obtain ⟨m, hm⟩ := hk
  refine ⟨max n m + 1, ?_⟩
  rw [run, turns, run_mono (by omega) hn]
  exact run_mono (by omega) hm

end loops

end Evals

/-! ### Nondeterministic runs -/

/-- `p` started in `w` can end with answer `a` in world `w'` when `sem` says
which answers an operation may have. -/
inductive Runs (sem : W → (o : Op) → Ans o → W → Prop) :
    {α : Type} → Prog Op Ans α → W → α → W → Prop
  | ret {α : Type} (a : α) (w : W) : Runs sem (.ret a) w a w
  | call {α : Type} {o : Op} {k : Ans o → Prog Op Ans α} {w w₁ w₂ : W} {b : Ans o} {a : α}
      (ho : sem w o b w₁) (hk : Runs sem (k b) w₁ a w₂) : Runs sem (.call o k) w a w₂
  | next {α σ ρ : Type} {body : σ → Prog Op Ans (σ ⊕ ρ)} {s s' : σ} {k : ρ → Prog Op Ans α}
      {w w₁ w₂ : W} {a : α} (hb : Runs sem (body s) w (.inl s') w₁)
      (hk : Runs sem (.iter body s' k) w₁ a w₂) : Runs sem (.iter body s k) w a w₂
  | done {α σ ρ : Type} {body : σ → Prog Op Ans (σ ⊕ ρ)} {s : σ} {r : ρ}
      {k : ρ → Prog Op Ans α} {w w₁ w₂ : W} {a : α} (hb : Runs sem (body s) w (.inr r) w₁)
      (hk : Runs sem (k r) w₁ a w₂) : Runs sem (.iter body s k) w a w₂

/-! ### Weakest preconditions -/

/-- What is known of the operations: when one may be issued in world `w`, and
which answers and next worlds it may have.  Failures and other threads show as
several answers to one operation. -/
structure OpSpec (Op : Type) (Ans : Op → Type) (W : Type) where
  pre : W → Op → Prop
  post : W → (o : Op) → Ans o → W → Prop

/-- `wp t R p Q w`: from `w` on, `p` issues only operations that `R` permits and
returns only in worlds where `Q` holds of the answer; if `t`, its loops end. -/
def wp {W : Type} (t : Prop) (R : OpSpec Op Ans W) {α : Type} :
    Prog Op Ans α → (α → W → Prop) → W → Prop
  | .ret a, Q, w => Q a w
  | .call o k, Q, w => R.pre w o ∧ ∀ a w', R.post w o a w' → wp t R (k a) Q w'
  | .iter (σ := σ) body s k, Q, w => ∃ I : ℕ → σ → W → Prop, (∃ n, I n s w) ∧
      ∀ n s w, I n s w → wp t R (body s)
        (Sum.elim (fun s' w' => ∃ m, (t → m < n) ∧ I m s' w') fun r => wp t R (k r) Q) w

variable {t : Prop} {R : OpSpec Op Ans W}

@[simp] theorem wp_ret {a : α} {Q : α → W → Prop} {w : W} :
    wp t R (.ret a) Q w ↔ Q a w := Iff.rfl

@[simp] theorem wp_call {o : Op} {k : Ans o → Prog Op Ans α} {Q : α → W → Prop} {w : W} :
    wp t R (.call o k) Q w ↔
      R.pre w o ∧ ∀ a w', R.post w o a w' → wp t R (k a) Q w' := Iff.rfl

/-- The rule of a single operation in a sequence. -/
theorem wp_perform {o : Op} {k : Ans o → Prog Op Ans α} {Q : α → W → Prop} {w : W}
    (hpre : R.pre w o) (hk : ∀ a w', R.post w o a w' → wp t R (k a) Q w') :
    wp t R ((perform o).bind k) Q w := ⟨hpre, hk⟩

/-- The loop rule, with a bound on the turns left. -/
theorem wp_while {σ ρ : Type} {body : σ → Prog Op Ans (σ ⊕ ρ)} {s : σ}
    {k : ρ → Prog Op Ans α} {Q : α → W → Prop} {w : W} (I : ℕ → σ → W → Prop) (n : ℕ)
    (h0 : I n s w) (hI : ∀ n s w, I n s w → wp t R (body s)
      (Sum.elim (fun s' w' => ∃ m, (t → m < n) ∧ I m s' w') fun r => wp t R (k r) Q) w) :
    wp t R (.iter body s k) Q w := ⟨I, ⟨n, h0⟩, hI⟩

theorem wp_mono {p : Prog Op Ans α} {Q Q' : α → W → Prop} (hQ : ∀ a w, Q a w → Q' a w)
    {w : W} (hp : wp t R p Q w) : wp t R p Q' w := by
  induction p generalizing w with
  | ret a => exact hQ a w hp
  | call o k ih => exact ⟨hp.1, fun a w' ha => ih a hQ (hp.2 a w' ha)⟩
  | iter body s k ihb ihk =>
    obtain ⟨I, h0, hI⟩ := hp
    refine ⟨I, h0, fun n s w hs => ihb s ?_ (hI n s w hs)⟩
    rintro (s' | r) w' hw
    · exact hw
    · exact ihk r hQ hw

/-- The loop rule when termination is not asked for. -/
theorem wp_iter {σ ρ : Type} {body : σ → Prog Op Ans (σ ⊕ ρ)} {s : σ}
    {k : ρ → Prog Op Ans α} {Q : α → W → Prop} {w : W} (I : σ → W → Prop) (h0 : I s w)
    (hI : ∀ s w, I s w →
      wp False R (body s) (Sum.elim I fun r => wp False R (k r) Q) w) :
    wp False R (.iter body s k) Q w := by
  refine ⟨fun _ => I, ⟨0, h0⟩, fun _ s w hs => wp_mono ?_ (hI s w hs)⟩
  rintro (s' | r) w' hw
  · exact ⟨0, False.elim, hw⟩
  · exact hw

theorem wp_bind {p : Prog Op Ans α} {f : α → Prog Op Ans β} {Q : β → W → Prop} {w : W}
    (hp : wp t R p (fun a => wp t R (f a) Q) w) : wp t R (p.bind f) Q w := by
  induction p generalizing w with
  | ret a => exact hp
  | call o k ih => exact ⟨hp.1, fun a w' ha => ih a (hp.2 a w' ha)⟩
  | iter body s k _ ihk =>
    obtain ⟨I, h0, hI⟩ := hp
    refine ⟨I, h0, fun n s w hs => wp_mono ?_ (hI n s w hs)⟩
    rintro (s' | r) w' hw
    · exact hw
    · exact ihk r hw

/-- The rule used at every call of a function with a known specification. -/
theorem wp_seq {p : Prog Op Ans α} {f : α → Prog Op Ans β} {P : α → W → Prop}
    {Q : β → W → Prop} {w : W} (hp : wp t R p P w)
    (hf : ∀ a w, P a w → wp t R (f a) Q w) : wp t R (p.bind f) Q w :=
  wp_bind (wp_mono hf hp)

theorem wp_unroll {σ ρ : Type} {body : σ → Prog Op Ans (σ ⊕ ρ)} {s : σ}
    {k : ρ → Prog Op Ans α} {Q : α → W → Prop} {w : W} (hp : wp t R (.iter body s k) Q w) :
    wp t R (unroll body s k) Q w := by
  obtain ⟨I, ⟨n, h0⟩, hI⟩ := hp
  refine wp_seq (hI n s w h0) ?_
  rintro (s' | r) w' hw
  · obtain ⟨m, -, hm⟩ := hw
    exact ⟨I, ⟨m, hm⟩, hI⟩
  · exact hw

/-- A finished run ends where the weakest precondition says. -/
theorem wp_runs {sem : W → (o : Op) → Ans o → W → Prop}
    (hR : ∀ w o a w', R.pre w o → sem w o a w' → R.post w o a w') {p : Prog Op Ans α}
    {Q : α → W → Prop} {w w' : W} {a : α} (hp : wp t R p Q w) (hr : Runs sem p w a w') :
    Q a w' := by
  induction hr with
  | ret a w => exact hp
  | call ho _ ih => exact ih (hp.2 _ _ (hR _ _ _ _ hp.1 ho))
  | next _ _ ihb ihk =>
    obtain ⟨I, ⟨n, h0⟩, hI⟩ := hp
    obtain ⟨m, -, hm⟩ := ihb (hI n _ _ h0)
    exact ihk ⟨I, ⟨m, hm⟩, hI⟩
  | done _ _ ihb ihk =>
    obtain ⟨I, ⟨n, h0⟩, hI⟩ := hp
    exact ihk (ihb (hI n _ _ h0))

/-- The deterministic runs are among the nondeterministic ones, as far as the
weakest precondition keeps the program to permitted operations. -/
theorem runs_of_run {sem : W → (o : Op) → Ans o → W → Prop}
    (hR : ∀ w o, R.pre w o → R.post w o (h w o).1 (h w o).2)
    (hsem : ∀ w o, R.pre w o → sem w o (h w o).1 (h w o).2) {n : ℕ} {p : Prog Op Ans α}
    {Q : α → W → Prop} {w w' : W} {a : α} (hp : wp t R p Q w)
    (hn : run h n p w = some (a, w')) : Runs sem p w a w' ∧ Q a w' := by
  induction p generalizing w w' with
  | ret b =>
    obtain ⟨rfl, rfl⟩ : b = a ∧ w = w' := by simpa [run] using hn
    exact ⟨.ret b w, hp⟩
  | call o k ih =>
    obtain ⟨hr, hq⟩ := ih _ (hp.2 _ _ (hR w o hp.1)) hn
    exact ⟨.call (hsem w o hp.1) hr, hq⟩
  | iter body s k ihb ihk =>
    obtain ⟨I, ⟨b, h0⟩, hI⟩ := hp
    rw [run] at hn
    -- the invariant carries the first `m` turns
    have key : ∀ m b s w r w₁, I b s w →
        turns (fun s w => run h n (body s) w) m s w = some (r, w₁) →
        (∀ a w₂, Runs sem (k r) w₁ a w₂ → Runs sem (.iter body s k) w a w₂) ∧
          wp t R (k r) Q w₁ := by
      intro m
      induction m with
      | zero =>
        intro b s w r w₁ _ ht
        simp [turns] at ht
      | succ m ih =>
        intro b s w r w₁ hs ht
        rw [turns] at ht
        cases hb : run h n (body s) w with
        | none => simp [hb] at ht
        | some y =>
          obtain ⟨x, w₂⟩ := y
          obtain ⟨hx, hq⟩ := ihb s (hI b s w hs) hb
          rw [hb] at ht
          cases x with
          | inl s' =>
            obtain ⟨b', -, hb'⟩ := hq
            obtain ⟨h1, h2⟩ := ih b' s' w₂ r w₁ hb' ht
            exact ⟨fun a w₃ h3 => .next hx (h1 a w₃ h3), h2⟩
          | inr r' =>
            obtain ⟨rfl, rfl⟩ : r' = r ∧ w₂ = w₁ := by simpa using ht
            exact ⟨fun a w₃ h3 => .done hx h3, hq⟩
    cases ht : turns (fun s w => run h n (body s) w) n s w with
    | none => simp [ht] at hn
    | some y =>
      rw [ht] at hn
      obtain ⟨h1, h2⟩ := key n b s w y.1 y.2 h0 ht
      obtain ⟨h3, h4⟩ := ihk _ h2 hn
      exact ⟨h1 _ _ h3, h4⟩

/-- Under a total weakest precondition a deterministic run ends, where it says. -/
theorem wp_evals (hR : ∀ w o, R.pre w o → R.post w o (h w o).1 (h w o).2)
    {p : Prog Op Ans α} {Q : α → W → Prop} {w : W} (hp : wp True R p Q w) :
    ∃ a w', Evals h p w a w' ∧ Q a w' := by
  induction p generalizing w with
  | ret a => exact ⟨a, w, .ret a w, hp⟩
  | call o k ih =>
    obtain ⟨a, w', he, hq⟩ := ih _ (hp.2 _ _ (hR w o hp.1))
    exact ⟨a, w', .call he, hq⟩
  | iter body s k ihb ihk =>
    obtain ⟨I, ⟨n, h0⟩, hI⟩ := hp
    induction n using Nat.strongRecOn generalizing s w with
    | ind n ih =>
      obtain ⟨x, w₁, he, hx⟩ := ihb s (hI n s w h0)
      rcases x with s' | r
      · obtain ⟨m, hm, hm'⟩ := hx
        obtain ⟨a, w', he', hq⟩ := ih m (hm trivial) s' hm'
        exact ⟨a, w', .iter_next he he', hq⟩
      · obtain ⟨a, w', he', hq⟩ := ihk r hx
        exact ⟨a, w', .iter_done he he', hq⟩

end Prog
