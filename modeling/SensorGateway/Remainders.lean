/-
What is left of an interaction program while it runs.

`Left p q`: after some operations, answered in any way, `q` is left of `p`.
`Keeps J p Q` says something of all that can be left of `p`: the state of every
loop satisfies `J` at the start of each turn.
-/
import SensorGateway.Interaction

namespace Prog

variable {Op : Type} {Ans : Op → Type} {α β : Type}

/-- What may be left of a program. -/
inductive Left : Prog Op Ans α → Prog Op Ans α → Prop
  | refl (p : Prog Op Ans α) : Left p p
  | call {o : Op} {k : Ans o → Prog Op Ans α} {q : Prog Op Ans α} (a : Ans o)
      (h : Left (k a) q) : Left (.call o k) q
  | iter {σ ρ : Type} {body : σ → Prog Op Ans (σ ⊕ ρ)} {s : σ} {k : ρ → Prog Op Ans α}
      {q : Prog Op Ans α} (h : Left (unroll body s k) q) : Left (.iter body s k) q

/-! ### Loop invariants -/

/-- At the start of each turn the state of a loop satisfies `J`, and the program
returns only what satisfies `Q`. -/
def Keeps (J : (σ : Type) → σ → Prop) : {α : Type} → Prog Op Ans α → (α → Prop) → Prop
  | _, .ret a, Q => Q a
  | _, .call _ k, Q => ∀ a, Keeps J (k a) Q
  | _, .iter (σ := σ) body s k, Q =>
    J σ s ∧ ∀ s, J σ s → Keeps J (body s) (Sum.elim (J σ) fun r => Keeps J (k r) Q)

variable {J : (σ : Type) → σ → Prop}

theorem Keeps.mono {p : Prog Op Ans α} {Q Q' : α → Prop} (hQ : ∀ a, Q a → Q' a)
    (h : Keeps J p Q) : Keeps J p Q' := by
  induction p with
  | ret a => exact hQ a h
  | call o k ih => exact fun a => ih a hQ (h a)
  | iter body s k ihb ihk =>
    refine ⟨h.1, fun s hs => ihb s ?_ (h.2 s hs)⟩
    rintro (s' | r) hx
    · exact hx
    · exact ihk r hQ hx

theorem Keeps.bind {p : Prog Op Ans α} {f : α → Prog Op Ans β} {Q : β → Prop}
    (h : Keeps J p fun a => Keeps J (f a) Q) : Keeps J (p.bind f) Q := by
  induction p with
  | ret a => exact h
  | call o k ih => exact fun a => ih a (h a)
  | iter body s k _ ihk =>
    refine ⟨h.1, fun s hs => (h.2 s hs).mono ?_⟩
    rintro (s' | r) hx
    · exact hx
    · exact ihk r hx

theorem Keeps.unroll {σ ρ : Type} {body : σ → Prog Op Ans (σ ⊕ ρ)} {s : σ}
    {k : ρ → Prog Op Ans α} {Q : α → Prop} (h : Keeps J (.iter body s k) Q) :
    Keeps J (unroll body s k) Q := by
  refine ((h.2 s h.1).mono ?_).bind
  rintro (s' | r) hx
  · exact ⟨hx, h.2⟩
  · exact hx

theorem Keeps.left {p q : Prog Op Ans α} {Q : α → Prop} (hq : Left p q) (h : Keeps J p Q) :
    Keeps J q Q := by
  induction hq with
  | refl p => exact h
  | call a _ ih => exact ih (h a)
  | iter _ ih => exact ih h.unroll

end Prog
