/-
How long interaction programs run.

* `Ends sem p w` — every run of `p` from `w` comes to an end, whatever the
  answers `sem` allows; `wp_ends` derives it from a total weakest precondition;
* `Turned sem body s w n s' w'` — a loop can make `n` turns and go on;
  `Turned.bound` bounds `n` by the bound that an invariant carries.
-/
import SensorGateway.Interaction

namespace Prog

variable {Op : Type} {Ans : Op → Type} {α β W : Type} {sem : W → (o : Op) → Ans o → W → Prop}

/-! ### Every run ends -/

/-- There is no endless run of the program. -/
inductive Ends (sem : W → (o : Op) → Ans o → W → Prop) {α : Type} : Prog Op Ans α → W → Prop
  | ret (a : α) (w : W) : Ends sem (.ret a) w
  | call {o : Op} {k : Ans o → Prog Op Ans α} {w : W}
      (h : ∀ a w', sem w o a w' → Ends sem (k a) w') : Ends sem (.call o k) w
  | iter {σ ρ : Type} {body : σ → Prog Op Ans (σ ⊕ ρ)} {s : σ} {k : ρ → Prog Op Ans α} {w : W}
      (h : Ends sem (unroll body s k) w) : Ends sem (.iter body s k) w

theorem unroll_bind {σ ρ : Type} (body : σ → Prog Op Ans (σ ⊕ ρ)) (s : σ)
    (k : ρ → Prog Op Ans α) (f : α → Prog Op Ans β) :
    (unroll body s k).bind f = unroll body s fun r => (k r).bind f := by
  rw [unroll, unroll, bind_assoc]
  congr 1
  funext x
  cases x with
  | inl s' => rfl
  | inr r => rfl

/-- A run of a loop, without what follows the loop. -/
inductive Loops {σ ρ : Type} (sem : W → (o : Op) → Ans o → W → Prop)
    (body : σ → Prog Op Ans (σ ⊕ ρ)) : σ → W → ρ → W → Prop
  | next {s s' : σ} {w w₁ w₂ : W} {r : ρ} (hb : Runs sem (body s) w (.inl s') w₁)
      (h : Loops sem body s' w₁ r w₂) : Loops sem body s w r w₂
  | done {s : σ} {w w₁ : W} {r : ρ} (hb : Runs sem (body s) w (.inr r) w₁) :
      Loops sem body s w r w₁

theorem Loops.runs {σ ρ : Type} {body : σ → Prog Op Ans (σ ⊕ ρ)} {s : σ} {k : ρ → Prog Op Ans α}
    {w w₁ w₂ : W} {r : ρ} {a : α} (h : Loops sem body s w r w₁) (hk : Runs sem (k r) w₁ a w₂) :
    Runs sem (.iter body s k) w a w₂ := by
  induction h with
  | next hb _ ih => exact .next hb (ih hk)
  | done hb => exact .done hb hk

theorem Runs.loops {σ ρ : Type} {body : σ → Prog Op Ans (σ ⊕ ρ)} {s : σ} {k : ρ → Prog Op Ans α}
    {w w₂ : W} {a : α} (h : Runs sem (.iter body s k) w a w₂) :
    ∃ r w₁, Loops sem body s w r w₁ ∧ Runs sem (k r) w₁ a w₂ := by
  generalize hp : Prog.iter body s k = p at h
  induction h generalizing s with
  | ret b w => cases hp
  | call _ _ _ => cases hp
  | next hb _ _ ih =>
    cases hp
    obtain ⟨r, w₁, hl, hk⟩ := ih rfl
    exact ⟨r, w₁, .next hb hl, hk⟩
  | done hb hk _ _ =>
    cases hp
    exact ⟨_, _, .done hb, hk⟩

/-- A run of a sequence is a run of its first part and one of the second. -/
theorem Runs.of_bind {p : Prog Op Ans α} {f : α → Prog Op Ans β} {w w₂ : W} {b : β}
    (h : Runs sem (p.bind f) w b w₂) : ∃ a w₁, Runs sem p w a w₁ ∧ Runs sem (f a) w₁ b w₂ := by
  induction p generalizing w with
  | ret a => exact ⟨a, w, .ret a w, h⟩
  | call o k ih =>
    rw [call_bind] at h
    cases h with
    | call ho hk =>
      obtain ⟨a, w₁, hp, hf⟩ := ih _ hk
      exact ⟨a, w₁, .call ho hp, hf⟩
  | iter body s k _ ih =>
    rw [iter_bind] at h
    obtain ⟨r, w₁, hl, hk⟩ := h.loops
    obtain ⟨a, w₃, hp, hf⟩ := ih r hk
    exact ⟨a, w₃, hl.runs hp, hf⟩

theorem Runs.of_unroll {σ ρ : Type} {body : σ → Prog Op Ans (σ ⊕ ρ)} {s : σ}
    {k : ρ → Prog Op Ans α} {w w₂ : W} {a : α} (h : Runs sem (unroll body s k) w a w₂) :
    Runs sem (.iter body s k) w a w₂ := by
  obtain ⟨x, w₁, hb, hk⟩ := h.of_bind
  cases x with
  | inl s' => exact .next hb hk
  | inr r => exact .done hb hk

theorem Ends.bind {p : Prog Op Ans α} {f : α → Prog Op Ans β} {w : W} (hp : Ends sem p w)
    (hf : ∀ a w', Runs sem p w a w' → Ends sem (f a) w') : Ends sem (p.bind f) w := by
  induction hp with
  | ret a w => exact hf a w (.ret a w)
  | call _ ih => exact .call fun a w' ha => ih a w' ha fun b w₂ hb => hf b w₂ (.call ha hb)
  | iter _ ih =>
    rw [iter_bind]
    refine .iter ?_
    rw [← unroll_bind]
    exact ih fun a w' hr => hf a w' hr.of_unroll

/-- Under a total weakest precondition every run ends. -/
theorem wp_ends {R : OpSpec Op Ans W}
    (hR : ∀ w o a w', R.pre w o → sem w o a w' → R.post w o a w') {p : Prog Op Ans α}
    {Q : α → W → Prop} {w : W} (hp : wp True R p Q w) : Ends sem p w := by
  induction p generalizing w with
  | ret a => exact .ret a w
  | call o k ih => exact .call fun a w' ha => ih a (hp.2 a w' (hR w o a w' hp.1 ha))
  | iter body s k ihb ihk =>
    obtain ⟨I, ⟨n, h0⟩, hI⟩ := hp
    -- the bound of the invariant goes down with each turn
    induction n using Nat.strongRecOn generalizing s w with
    | ind n ih =>
      refine .iter ((ihb s (hI n s w h0)).bind fun x w₁ hx => ?_)
      have hpost := wp_runs hR (hI n s w h0) hx
      cases x with
      | inl s' =>
        obtain ⟨m, hm, hm'⟩ := hpost
        exact ih m (hm trivial) s' hm'
      | inr r => exact ihk r hpost

/-! ### Turns of a loop -/

/-- The loop can make `n` turns, after each of which it goes on, and is then in
the state `s'` and the world `w'`. -/
inductive Turned {σ ρ : Type} (sem : W → (o : Op) → Ans o → W → Prop)
    (body : σ → Prog Op Ans (σ ⊕ ρ)) (s : σ) (w : W) : ℕ → σ → W → Prop
  | start : Turned sem body s w 0 s w
  | turn {n : ℕ} {s₁ s₂ : σ} {w₁ w₂ : W} (h : Turned sem body s w n s₁ w₁)
      (hb : Runs sem (body s₁) w₁ (.inl s₂) w₂) : Turned sem body s w (n + 1) s₂ w₂

section turns

variable {σ ρ : Type} {body : σ → Prog Op Ans (σ ⊕ ρ)} {s s' : σ} {w w' : W} {n : ℕ}

/-- An invariant that goes down with each turn bounds the number of turns. -/
theorem Turned.bound {R : OpSpec Op Ans W}
    (hR : ∀ w o a w', R.pre w o → sem w o a w' → R.post w o a w') {I : ℕ → σ → W → Prop}
    {Q : ρ → W → Prop} (hI : ∀ m s w, I m s w →
      wp True R (body s) (Sum.elim (fun s' w' => ∃ m', (True → m' < m) ∧ I m' s' w') Q) w)
    (h : Turned sem body s w n s' w') {m : ℕ} (h0 : I m s w) : ∃ m', m' + n ≤ m ∧ I m' s' w' := by
  induction h with
  | start => exact ⟨m, by omega, h0⟩
  | turn _ hb ih =>
    obtain ⟨m₁, hle, h₁⟩ := ih
    obtain ⟨m₂, hlt, h₂⟩ := wp_runs hR (hI m₁ _ _ h₁) hb
    have hlt := hlt trivial
    exact ⟨m₂, by omega, h₂⟩

theorem Turned.loops {r : ρ} {w'' : W} (h : Turned sem body s w n s' w')
    (hl : Loops sem body s' w' r w'') : Loops sem body s w r w'' := by
  induction h with
  | start => exact hl
  | turn _ hb ih => exact ih (.next hb hl)

/-- A run of a loop is a number of turns and a last one that leaves it. -/
theorem Loops.turned {r : ρ} {w'' : W} (hl : Loops sem body s' w' r w'')
    (h : Turned sem body s w n s' w') :
    ∃ n s₁ w₁, Turned sem body s w n s₁ w₁ ∧ Runs sem (body s₁) w₁ (.inr r) w'' := by
  induction hl generalizing n with
  | next hb _ ih => exact ih (h.turn hb)
  | done hb => exact ⟨n, _, _, h, hb⟩

end turns

end Prog
