/-
Operations that take several steps.

Some of the operations of a program are questions `i`.  With `shortcut` they are
answered at once, by `ans i`; with `expand` each is carried out by a program `f i`,
whose operations are steps of the thread, on a state that all threads share.

* `Expands.head` — what a thread with expanded questions does first, next to the
  thread with the shortcuts;
* `Reachable.shortcut` — if `f i` returns `ans i` whatever the other threads do in the
  meantime, the runs with the programs are runs with the shortcuts.

Design notes: a thread that is within `f i` is matched by one that has its answer, so
the answer has to be known when the question is asked.
-/
import SensorGateway.RunRules
import SensorGateway.Threads

namespace Prog

inductive Mixed (Op Aux : Type)
  | op (o : Op)
  | aux (o : Aux)

abbrev MixedAns {Op Aux : Type} (Ans : Op → Type) (AnsA : Aux → Type) : Mixed Op Aux → Type
  | .op o => Ans o
  | .aux o => AnsA o

variable {Op Aux I : Type} {Ans : Op → Type} {AnsA : Aux → Type} {AnsI : I → Type} {α β W : Type}

def auxiliary {α : Type} (p : Prog Aux AnsA α) : Prog (Mixed Op Aux) (MixedAns Ans AnsA) α :=
  p.interp fun o => perform (Mixed.aux o)

def expand (f : (i : I) → Prog Aux AnsA (AnsI i)) :
    (o : Mixed Op I) → Prog (Mixed Op Aux) (MixedAns Ans AnsA) (MixedAns Ans AnsI o)
  | .op o => perform (Mixed.op o)
  | .aux i => auxiliary (f i)

def shortcut (ans : (i : I) → AnsI i) : (o : Mixed Op I) → Prog Op Ans (MixedAns Ans AnsI o)
  | .op o => perform o
  | .aux i => .ret (ans i)

/-- The questions are of this kind. -/
def Asks (ok : I → Prop) : Mixed Op I → Prop
  | .op _ => True
  | .aux i => ok i

variable (f : (i : I) → Prog Aux AnsA (AnsI i)) (ans : (i : I) → AnsI i) (ok : I → Prop)
  (R : OpSpec Aux AnsA W)

/-- A thread with expanded questions that takes the state for `w`, and the thread with
the shortcuts. -/
inductive Expands (w : W) :
    Prog (Mixed Op Aux) (MixedAns Ans AnsA) α → Prog Op Ans α → Prop
  | between (p : Prog (Mixed Op I) (MixedAns Ans AnsI) α) (hp : Only (Asks ok) p) :
      Expands w (p.interp (expand f)) (p.interp (shortcut ans))
  /-- `q` is left of the answer to `i`. -/
  | within {i : I} (q : Prog Aux AnsA (AnsI i))
      (k : AnsI i → Prog (Mixed Op I) (MixedAns Ans AnsI) α) (hk : Only (Asks ok) (k (ans i)))
      (hq : wp False R q (fun r _ => r = ans i) w) :
      Expands w ((auxiliary q).bind fun r => (k r).interp (expand f))
        ((k (ans i)).interp (shortcut ans))

/-- The same, by what the first of them does next. -/
inductive Head (w : W) : Prog (Mixed Op Aux) (MixedAns Ans AnsA) α → Prog Op Ans α → Prop
  | ret (a : α) : Head w (.ret a) (.ret a)
  | op {o : Op} {k : Ans o → Prog (Mixed Op Aux) (MixedAns Ans AnsA) α}
      {k' : Ans o → Prog Op Ans α} (h : ∀ a, Expands f ans ok R w (k a) (k' a)) :
      Head w (.call (.op o) k) (.call o k')
  | aux {o : Aux} {k : AnsA o → Prog (Mixed Op Aux) (MixedAns Ans AnsA) α} {p : Prog Op Ans α}
      (hpre : R.pre w o) (h : ∀ a w', R.post w o a w' → Expands f ans ok R w' (k a) p) :
      Head w (.call (.aux o) k) p
  | iter {σ ρ : Type} {body : σ → Prog (Mixed Op Aux) (MixedAns Ans AnsA) (σ ⊕ ρ)} {s : σ}
      {k : ρ → Prog (Mixed Op Aux) (MixedAns Ans AnsA) α} {body' : σ → Prog Op Ans (σ ⊕ ρ)}
      {k' : ρ → Prog Op Ans α}
      (h : Expands f ans ok R w (unroll body s k) (unroll body' s k')) :
      Head w (.iter body s k) (.iter body' s k')
  /-- A loop of the answer. -/
  | inner {σ ρ : Type} {body : σ → Prog (Mixed Op Aux) (MixedAns Ans AnsA) (σ ⊕ ρ)} {s : σ}
      {k : ρ → Prog (Mixed Op Aux) (MixedAns Ans AnsA) α} {p : Prog Op Ans α}
      (h : Expands f ans ok R w (unroll body s k) p) : Head w (.iter body s k) p

variable {f ans ok R} {w : W}

theorem Expands.within_head {i : I} {q : Prog Aux AnsA (AnsI i)}
    {k : AnsI i → Prog (Mixed Op I) (MixedAns Ans AnsI) α} (hk : Only (Asks ok) (k (ans i)))
    (hq : wp False R q (fun r _ => r = ans i) w)
    (hnext : Head f ans ok R w ((k (ans i)).interp (expand f))
      ((k (ans i)).interp (shortcut ans))) :
    Head f ans ok R w ((auxiliary q).bind fun r => (k r).interp (expand f))
      ((k (ans i)).interp (shortcut ans)) := by
  cases q with
  | ret r =>
    obtain rfl : r = ans i := hq
    exact hnext
  | call o k' => exact .aux hq.1 fun a w' ha => .within (k' a) k hk (hq.2 a w' ha)
  | iter body s k' =>
    refine .inner ?_
    have h : Expands f ans ok R w ((auxiliary (unroll body s k')).bind fun r =>
        (k r).interp (expand f)) ((k (ans i)).interp (shortcut ans)) :=
      .within _ k hk (wp_unroll hq)
    rw [auxiliary, interp_unroll, unroll_bind] at h
    exact h

theorem between_head (hf : ∀ i, ok i → wp False R (f i) (fun r _ => r = ans i) w)
    (p : Prog (Mixed Op I) (MixedAns Ans AnsI) α) (hp : Only (Asks ok) p) :
    Head f ans ok R w (p.interp (expand f)) (p.interp (shortcut ans)) := by
  induction p with
  | ret a => exact .ret a
  | call o k ih =>
    cases o with
    | op o => exact .op fun a => .between (k a) (hp.2 a)
    | aux i => exact Expands.within_head (hp.2 _) (hf i hp.1) (ih _ (hp.2 _))
  | iter body s k _ _ =>
    refine .iter ?_
    have h : Expands f ans ok R w ((unroll body s k).interp (expand f))
        ((unroll body s k).interp (shortcut ans)) := .between _ (Only.unroll hp)
    rw [interp_unroll, interp_unroll] at h
    exact h

/-- When the answers are as they should be. -/
theorem Expands.head {p : Prog (Mixed Op Aux) (MixedAns Ans AnsA) α} {p' : Prog Op Ans α}
    (h : Expands f ans ok R w p p')
    (hf : ∀ i, ok i → wp False R (f i) (fun r _ => r = ans i) w) : Head f ans ok R w p p' := by
  cases h with
  | between p hp => exact between_head hf p hp
  | within q k hk hq => exact within_head hk hq (between_head hf _ hk)

end Prog

namespace Threads

open Prog

variable {T : Type} [DecidableEq T] {Op Aux I : Type} {Ans : Op → Type} {AnsA : Aux → Type}
  {AnsI : I → Type} {L S M α W : Type}

/-- Operations on one state, and others on another one. -/
def both (sem : Semantics T Op Ans L S) (aux : T → M → (o : Aux) → AnsA o → M → Prop) :
    Semantics T (Mixed Op Aux) (MixedAns Ans AnsA) L (S × M) := fun t x o a x' =>
  match o, a with
  | .op o, a => sem t (x.1, x.2.1) o a (x'.1, x'.2.1) ∧ x'.2.2 = x.2.2
  | .aux o, a => x'.1 = x.1 ∧ x'.2.1 = x.2.1 ∧ aux t x.2.2 o a x'.2.2

/-- Events of the first state only. -/
def onFirst (env : S → S → Prop) (x x' : S × M) : Prop := env x.1 x'.1 ∧ x'.2 = x.2

variable {sem : Semantics T Op Ans L S} {aux : T → M → (o : Aux) → AnsA o → M → Prop}
  {env : S → S → Prop}

variable (f : T → (i : I) → Prog Aux AnsA (AnsI i)) (ans : (i : I) → AnsI i) (ok : I → Prop)
  (R : T → OpSpec Aux AnsA W) (Sees : T → W → M → Prop)

/-- The threads with expanded questions, and those with the shortcuts. -/
structure Matches (c : Config T (Mixed Op Aux) (MixedAns Ans AnsA) L (S × M) α)
    (d : Config T Op Ans L S α) : Prop where
  loc : d.loc = c.loc
  shared : d.shared = c.shared.1
  prog : ∀ t, ∃ w, Sees t w c.shared.2 ∧ Expands (f t) ans ok (R t) w (c.prog t) (d.prog t)

variable {f ans ok R Sees} {c c' : Config T (Mixed Op Aux) (MixedAns Ans AnsA) L (S × M) α}
  {d : Config T Op Ans L S α}

/-- One thread has moved, and the others see what they saw. -/
theorem Matches.moved (h : Matches f ans ok R Sees c d) (t : T)
    {p : Prog (Mixed Op Aux) (MixedAns Ans AnsA) α} {p' : Prog Op Ans α} {m : M}
    (ht : ∃ w, Sees t w m ∧ Expands (f t) ans ok (R t) w p p')
    (hothers : ∀ t', t' ≠ t → ∀ w, Sees t' w c.shared.2 → Sees t' w m) (u : T) :
    ∃ w, Sees u w m ∧ Expands (f u) ans ok (R u) w (Function.update c.prog t p u)
      (Function.update d.prog t p' u) := by
  by_cases hu : u = t
  · subst hu
    rw [Function.update_self, Function.update_self]
    exact ht
  · obtain ⟨w, hw, he⟩ := h.prog u
    rw [Function.update_of_ne hu, Function.update_of_ne hu]
    exact ⟨w, hothers u hu w hw, he⟩

/-- A step is one with the shortcuts, or one on the way to an answer. -/
theorem Matches.step
    (haux : ∀ t w m o a m', Sees t w m → (R t).pre w o → aux t m o a m' →
      (∃ w', (R t).post w o a w' ∧ Sees t w' m') ∧
        ∀ t', t' ≠ t → ∀ w, Sees t' w m → Sees t' w m')
    (hf : ∀ t i w m, ok i → Sees t w m → Prog.wp False (R t) (f t i) (fun r _ => r = ans i) w)
    (h : Matches f ans ok R Sees c d) (hs : Step (both sem aux) (onFirst env) c c') :
    ∃ d', Matches f ans ok R Sees c' d' ∧ Reachable sem env d d' := by
  cases hs with
  | @call t o k a l x hp hs =>
    obtain ⟨w, hw, he⟩ := h.prog t
    have hhead := he.head fun i hi => hf t i w _ hi hw
    rw [hp] at hhead
    generalize hp' : d.prog t = p' at hhead
    cases hhead with
    | @op o _ k' hk =>
      obtain ⟨hsem, hm⟩ := hs
      have hstep : Step sem env d
          ⟨Function.update d.prog t (k' a), Function.update d.loc t l, x.1⟩ :=
        .call t hp' (by rw [h.loc, h.shared]; exact hsem)
      refine ⟨_, ⟨by rw [h.loc], rfl, ?_⟩, .single hstep⟩
      exact h.moved t ⟨w, by rw [hm]; exact hw, hk a⟩ fun t' _ w hw => by rw [hm]; exact hw
    | aux hpre hk =>
      obtain ⟨hl, hx, ha⟩ := hs
      obtain ⟨⟨w', hpost, hw'⟩, hothers⟩ := haux t w _ _ _ _ hw hpre ha
      refine ⟨d, ⟨?_, h.shared.trans hx.symm, fun u => ?_⟩, .refl⟩
      · rw [h.loc, show l = c.loc t from hl, Function.update_eq_self]
      · have hmoved := h.moved t ⟨w', hw', hk _ _ hpost⟩ hothers u
        rwa [← hp', Function.update_eq_self] at hmoved
  | @iter t σ ρ body s k hp =>
    obtain ⟨w, hw, he⟩ := h.prog t
    have hhead := he.head fun i hi => hf t i w _ hi hw
    rw [hp] at hhead
    generalize hp' : d.prog t = p' at hhead
    cases hhead with
    | @iter _ _ _ _ _ body' k' hk =>
      refine ⟨⟨Function.update d.prog t (unroll body' s k'), d.loc, d.shared⟩, ?_,
        .single (.iter t hp')⟩
      exact ⟨h.loc, h.shared, h.moved t ⟨w, hw, hk⟩ fun _ _ _ hw => hw⟩
    | inner hk =>
      refine ⟨d, ⟨h.loc, h.shared, fun u => ?_⟩, .refl⟩
      have hmoved := h.moved t ⟨w, hw, hk⟩ (fun _ _ _ hw => hw) u
      rwa [← hp', Function.update_eq_self] at hmoved
  | @env x he =>
    obtain ⟨he, hm⟩ := he
    have hstep : Step sem env d ⟨d.prog, d.loc, x.1⟩ := .env (by rw [h.shared]; exact he)
    refine ⟨⟨d.prog, d.loc, x.1⟩, ⟨h.loc, rfl, fun u => ?_⟩, .single hstep⟩
    rw [hm]
    exact h.prog u

/-- The runs with the programs are runs with the shortcuts. -/
theorem Reachable.shortcut
    (haux : ∀ t w m o a m', Sees t w m → (R t).pre w o → aux t m o a m' →
      (∃ w', (R t).post w o a w' ∧ Sees t w' m') ∧
        ∀ t', t' ≠ t → ∀ w, Sees t' w m → Sees t' w m')
    (hf : ∀ t i w m, ok i → Sees t w m → Prog.wp False (R t) (f t i) (fun r _ => r = ans i) w)
    (h : Matches f ans ok R Sees c d) (hr : Reachable (both sem aux) (onFirst env) c c') :
    ∃ d', Matches f ans ok R Sees c' d' ∧ Reachable sem env d d' := by
  induction hr with
  | refl => exact ⟨d, h, .refl⟩
  | tail _ hs ih =>
    obtain ⟨d₁, h₁, hr₁⟩ := ih
    obtain ⟨d₂, h₂, hr₂⟩ := h₁.step haux hf hs
    exact ⟨d₂, h₂, hr₁.trans hr₂⟩

end Threads
