/-
One set of operations carried out by programs over another.

`interp f p` is the program `p` with each operation `o` replaced by the program
`f o`; a run of it is a run of `p` whose operations are runs of the `f o`
(`Runs.of_interp`).  `Only P p` says that all operations a program can ever issue
are of the kind `P`.
-/
import SensorGateway.Termination

namespace Prog

variable {Op Op' : Type} {Ans : Op → Type} {Ans' : Op' → Type} {α β W : Type}

/-- Replace each operation by a program. -/
def interp (f : (o : Op) → Prog Op' Ans' (Ans o)) {α : Type} : Prog Op Ans α → Prog Op' Ans' α
  | .ret a => .ret a
  | .call o k => (f o).bind fun a => interp f (k a)
  | .iter body s k => .iter (fun s => interp f (body s)) s fun r => interp f (k r)

variable {f : (o : Op) → Prog Op' Ans' (Ans o)}

@[simp] theorem interp_ret (a : α) : interp f (.ret a : Prog Op Ans α) = .ret a := rfl

@[simp] theorem interp_call (o : Op) (k : Ans o → Prog Op Ans α) :
    interp f (.call o k) = (f o).bind fun a => interp f (k a) := rfl

@[simp] theorem interp_iter {σ ρ : Type} (body : σ → Prog Op Ans (σ ⊕ ρ)) (s : σ)
    (k : ρ → Prog Op Ans α) :
    interp f (.iter body s k) = .iter (fun s => interp f (body s)) s fun r => interp f (k r) := rfl

theorem interp_bind (p : Prog Op Ans α) (g : α → Prog Op Ans β) :
    interp f (p.bind g) = (interp f p).bind fun a => interp f (g a) := by
  induction p with
  | ret a => rfl
  | call o k ih =>
    simp only [call_bind, interp_call, bind_assoc, ih]
  | iter body s k _ ih =>
    simp only [iter_bind, interp_iter, ih]

theorem interp_unroll {σ ρ : Type} (body : σ → Prog Op Ans (σ ⊕ ρ)) (s : σ)
    (k : ρ → Prog Op Ans α) :
    interp f (unroll body s k) = unroll (fun s => interp f (body s)) s fun r => interp f (k r) := by
  rw [unroll, interp_bind, unroll]
  refine congrArg (bind _) (funext fun x => ?_)
  rcases x with s' | r
  · rfl
  · rfl

/-- Programs for the operations of programs. -/
theorem interp_interp {Op'' : Type} {Ans'' : Op'' → Type}
    (g : (o : Op') → Prog Op'' Ans'' (Ans' o)) (p : Prog Op Ans α) :
    interp g (interp f p) = interp (fun o => interp g (f o)) p := by
  induction p with
  | ret a => rfl
  | call o k ih => simp only [interp_call, interp_bind, ih]
  | iter body s k ihb ihk => simp only [interp_iter, ihb, ihk]

/-- Operations that stand for themselves. -/
theorem interp_perform (p : Prog Op Ans α) : interp perform p = p := by
  induction p with
  | ret a => rfl
  | call o k ih => simp only [interp_call, perform_bind, ih]
  | iter body s k ihb ihk => simp only [interp_iter, ihb, ihk]

/-- Below, the operations of a run are runs themselves. -/
theorem Runs.of_interp {sem : W → (o : Op') → Ans' o → W → Prop} {p : Prog Op Ans α} {w w' : W}
    {a : α} (h : Runs sem (interp f p) w a w') :
    Runs (fun w o a w' => Runs sem (f o) w a w') p w a w' := by
  induction p generalizing w w' with
  | ret b =>
    cases h
    exact .ret b _
  | call o k ih =>
    obtain ⟨b, w₁, ho, hk⟩ := h.of_bind
    exact .call ho (ih b hk)
  | iter body s k ihb ihk =>
    obtain ⟨r, w₁, hl, hk⟩ := h.loops
    have hk' := ihk r hk
    clear h
    induction hl with
    | next hb _ ih => exact .next (ihb _ hb) (ih hk hk')
    | done hb => exact .done (ihb _ hb) hk'

/-! ### The operations of a program -/

/-- All operations that the program can issue are of the kind `P`. -/
def Only (P : Op → Prop) : {α : Type} → Prog Op Ans α → Prop
  | _, .ret _ => True
  | _, .call o k => P o ∧ ∀ a, Only P (k a)
  | _, .iter body _ k => (∀ s, Only P (body s)) ∧ ∀ r, Only P (k r)

variable {P : Op → Prop}

theorem Only.mono {P' : Op → Prop} (hP : ∀ o, P o → P' o) {p : Prog Op Ans α} (h : Only P p) :
    Only P' p := by
  induction p with
  | ret a => trivial
  | call o k ih => exact ⟨hP o h.1, fun a => ih a (h.2 a)⟩
  | iter body s k ihb ihk => exact ⟨fun s => ihb s (h.1 s), fun r => ihk r (h.2 r)⟩

theorem Only.bind {p : Prog Op Ans α} {g : α → Prog Op Ans β} (hp : Only P p)
    (hg : ∀ a, Only P (g a)) : Only P (p.bind g) := by
  induction p with
  | ret a => exact hg a
  | call o k ih => exact ⟨hp.1, fun a => ih a (hp.2 a) hg⟩
  | iter body s k _ ih => exact ⟨hp.1, fun r => ih r (hp.2 r) hg⟩

theorem Only.perform {o : Op} {k : Ans o → Prog Op Ans α} (ho : P o) (hk : ∀ a, Only P (k a)) :
    Only P ((perform o).bind k) :=
  ⟨ho, hk⟩

theorem Only.unroll {σ ρ : Type} {body : σ → Prog Op Ans (σ ⊕ ρ)} {s : σ} {k : ρ → Prog Op Ans α}
    (h : Only P (.iter body s k)) : Only P (unroll body s k) := by
  refine (h.1 s).bind ?_
  rintro (s' | r)
  · exact h
  · exact h.2 r

/-- What all these operations keep holds to the end. -/
theorem Only.wp {R : OpSpec Op Ans W} {I : W → Prop}
    (hR : ∀ w o, I w → P o → R.pre w o ∧ ∀ a w', R.post w o a w' → I w') {p : Prog Op Ans α}
    (h : Only P p) {w : W} (hw : I w) : wp False R p (fun _ => I) w := by
  induction p generalizing w with
  | ret a => exact hw
  | call o k ih =>
    obtain ⟨hpre, hpost⟩ := hR w o hw h.1
    exact ⟨hpre, fun a w' ha => ih a (h.2 a) (hpost a w' ha)⟩
  | iter body s k ihb ihk =>
    refine wp_iter (fun _ => I) hw fun s w hw => wp_mono ?_ (ihb s (h.1 s) hw)
    rintro (s' | r) w' hw'
    · exact hw'
    · exact ihk r (h.2 r) hw'

theorem Only.interp {P : Op' → Prop} (hf : ∀ o, Only P (f o)) (p : Prog Op Ans α) :
    Only P (interp f p) := by
  induction p with
  | ret a => trivial
  | call o k ih => exact (hf o).bind ih
  | iter body s k ihb ihk => exact ⟨ihb, ihk⟩

theorem Only.interp_of {P : Op → Prop} {P' : Op' → Prop} (hf : ∀ o, P o → Only P' (f o))
    {p : Prog Op Ans α} (h : Only P p) : Only P' (Prog.interp f p) := by
  induction p with
  | ret a => trivial
  | call o k ih => exact (hf o h.1).bind fun a => ih a (h.2 a)
  | iter body s k ihb ihk => exact ⟨fun s => ihb s (h.1 s), fun r => ihk r (h.2 r)⟩

end Prog
