/-
Threads: interaction programs that run side by side.

A configuration holds a program and a local state for every thread and one
state shared by all.  One step is one operation of one thread, the start of one
turn of its loop, or an event of the surroundings that changes the shared
state; between two operations of a thread any number of steps of others may
happen.

* `Reachable.invariant` — what every step keeps holds in every reachable
  configuration;
* `Reachable.wp` — rely and guarantee: a weakest precondition proved for each
  thread on its own, with the steps of the others among the answers its
  operations may have, holds of what is left of the thread at any time;
* `schedule_reachable` — where operations have one answer, running the threads
  in a given order leads to a reachable configuration, which examples use.
-/
import SensorGateway.Interaction

namespace Threads

variable {T : Type} [DecidableEq T] {Op : Type} {Ans : Op → Type} {L S α : Type}

structure Config (T Op : Type) (Ans : Op → Type) (L S α : Type) where
  prog : T → Prog Op Ans α
  loc : T → L
  shared : S

/-- What an operation of thread `t` does to its local and the shared state. -/
abbrev Semantics (T Op : Type) (Ans : Op → Type) (L S : Type) :=
  T → L × S → (o : Op) → Ans o → L × S → Prop

/-- One step of the whole system. -/
inductive Step (sem : Semantics T Op Ans L S) (env : S → S → Prop) :
    Config T Op Ans L S α → Config T Op Ans L S α → Prop
  | call {c : Config T Op Ans L S α} (t : T) {o : Op} {k : Ans o → Prog Op Ans α} {a : Ans o}
      {l : L} {s : S} (hp : c.prog t = .call o k)
      (hs : sem t (c.loc t, c.shared) o a (l, s)) :
      Step sem env c ⟨Function.update c.prog t (k a), Function.update c.loc t l, s⟩
  | iter {c : Config T Op Ans L S α} (t : T) {σ ρ : Type} {body : σ → Prog Op Ans (σ ⊕ ρ)}
      {x : σ} {k : ρ → Prog Op Ans α} (hp : c.prog t = .iter body x k) :
      Step sem env c ⟨Function.update c.prog t (Prog.unroll body x k), c.loc, c.shared⟩
  | env {c : Config T Op Ans L S α} {s : S} (he : env c.shared s) :
      Step sem env c ⟨c.prog, c.loc, s⟩

/-- Reachable from `c` by steps of any threads in any order. -/
abbrev Reachable (sem : Semantics T Op Ans L S) (env : S → S → Prop) :
    Config T Op Ans L S α → Config T Op Ans L S α → Prop :=
  Relation.ReflTransGen (Step sem env)

variable {sem : Semantics T Op Ans L S} {env : S → S → Prop}

theorem Reachable.invariant {I : Config T Op Ans L S α → Prop}
    (hI : ∀ c c', I c → Step sem env c c' → I c') {c c' : Config T Op Ans L S α}
    (hr : Reachable sem env c c') (hc : I c) : I c' := by
  induction hr with
  | refl => exact hc
  | tail _ hs ih => exact hI _ _ ih hs

/-- Rely and guarantee.  Each thread `t` is proved correct in a world of its own;
`Sees t w l s` says that it may take the local state `l` and the shared state `s`
for the world `w`, which the steps of the others and the events do not change.
`J` is kept by all. -/
theorem Reachable.wp {W : Type} {tm : Prop} {R : T → Prog.OpSpec Op Ans W} {J : S → Prop}
    {Sees : T → W → L → S → Prop} {Q : T → α → W → Prop}
    (hsem : ∀ t w l s o a l' s', J s → Sees t w l s → (R t).pre w o →
      sem t (l, s) o a (l', s') → (∃ w', (R t).post w o a w' ∧ Sees t w' l' s') ∧ J s' ∧
        ∀ t', t' ≠ t → ∀ w l, Sees t' w l s → Sees t' w l s')
    (henv : ∀ s s', J s → env s s' → J s' ∧ ∀ t w l, Sees t w l s → Sees t w l s')
    {c c' : Config T Op Ans L S α} (hr : Reachable sem env c c') (hJ : J c.shared)
    (hwp : ∀ t, ∃ w, Sees t w (c.loc t) c.shared ∧ Prog.wp tm (R t) (c.prog t) (Q t) w) :
    J c'.shared ∧
      ∀ t, ∃ w, Sees t w (c'.loc t) c'.shared ∧ Prog.wp tm (R t) (c'.prog t) (Q t) w := by
  refine hr.invariant (I := fun c => J c.shared ∧ ∀ t, ∃ w,
    Sees t w (c.loc t) c.shared ∧ Prog.wp tm (R t) (c.prog t) (Q t) w) ?_ ⟨hJ, hwp⟩
  rintro c c' ⟨hJ, hwp⟩ hstep
  cases hstep with
  | call t hp hs =>
    obtain ⟨w, hsees, ht⟩ := hwp t
    rw [hp, Prog.wp_call] at ht
    -- the guarantee of `t` is what the others rely on
    obtain ⟨⟨w', hpost, hsees'⟩, hJ', hrely⟩ := hsem t w _ _ _ _ _ _ hJ hsees ht.1 hs
    refine ⟨hJ', fun t' => ?_⟩
    by_cases h : t' = t
    · subst h
      exact ⟨w', by simpa using hsees', by simpa using ht.2 _ _ hpost⟩
    · obtain ⟨w, hsees, ht⟩ := hwp t'
      exact ⟨w, by simpa [h] using hrely t' h w _ hsees, by simpa [h] using ht⟩
  | iter t hp =>
    refine ⟨hJ, fun t' => ?_⟩
    obtain ⟨w, hsees, ht⟩ := hwp t'
    refine ⟨w, hsees, ?_⟩
    by_cases h : t' = t
    · subst h
      rw [hp] at ht
      simpa using Prog.wp_unroll ht
    · simpa [h] using ht
  | env he =>
    obtain ⟨hJ', hrely⟩ := henv _ _ hJ he
    -- no thread has moved
    refine ⟨hJ', fun t => ?_⟩
    obtain ⟨w, hsees, ht⟩ := hwp t
    exact ⟨w, hrely t w _ hsees, ht⟩

/-! ### Schedules -/

/-- One step of thread `t`, when `h` answers the operations. -/
def turn (h : T → L × S → (o : Op) → Ans o × L × S) (c : Config T Op Ans L S α) (t : T) :
    Config T Op Ans L S α :=
  match c.prog t with
  | .ret _ => c
  | .call o k =>
    let r := h t (c.loc t, c.shared) o
    ⟨Function.update c.prog t (k r.1), Function.update c.loc t r.2.1, r.2.2⟩
  | .iter body x k => ⟨Function.update c.prog t (Prog.unroll body x k), c.loc, c.shared⟩

/-- The threads named in `ts` take a step each, in this order. -/
def schedule (h : T → L × S → (o : Op) → Ans o × L × S) (ts : List T)
    (c : Config T Op Ans L S α) : Config T Op Ans L S α := ts.foldl (turn h) c

/-- No step of the schedule meets an operation that `ok` forbids. -/
def allowed (h : T → L × S → (o : Op) → Ans o × L × S) (ok : T → L × S → Op → Bool) :
    List T → Config T Op Ans L S α → Bool
  | [], _ => true
  | t :: ts, c =>
    (match c.prog t with
      | .call o _ => ok t (c.loc t, c.shared) o
      | _ => true) && allowed h ok ts (turn h c t)

theorem schedule_reachable {h : T → L × S → (o : Op) → Ans o × L × S}
    {ok : T → L × S → Op → Bool}
    (hsem : ∀ t w o, ok t w o → sem t w o (h t w o).1 (h t w o).2) {ts : List T}
    {c : Config T Op Ans L S α} (hok : allowed h ok ts c) :
    Reachable sem env c (schedule h ts c) := by
  induction ts generalizing c with
  | nil => exact .refl
  | cons t ts ih =>
    rw [allowed, Bool.and_eq_true] at hok
    obtain ⟨hstep, hrest⟩ := hok
    refine Relation.ReflTransGen.trans ?_ (ih hrest)
    rw [turn]
    split
    · exact .refl
    · rename_i o k hp
      rw [hp] at hstep
      exact .single (.call t hp (hsem t _ o hstep))
    · rename_i body x k hp
      exact .single (.iter t hp)

/-- Every turn of the schedule meets `ok`. -/
def follows (h : T → L × S → (o : Op) → Ans o × L × S) (ok : Config T Op Ans L S α → T → Bool) :
    List T → Config T Op Ans L S α → Bool
  | [], _ => true
  | t :: ts, c => ok c t && follows h ok ts (turn h c t)

/-- For steps that are restricted by what the other threads are about to do. -/
theorem schedule_follows {h : T → L × S → (o : Op) → Ans o × L × S}
    {ok : Config T Op Ans L S α → T → Bool}
    {R : Config T Op Ans L S α → Config T Op Ans L S α → Prop}
    (hR : ∀ c t, ok c t → turn h c t = c ∨ R c (turn h c t)) {ts : List T}
    {c : Config T Op Ans L S α} (hok : follows h ok ts c) :
    Relation.ReflTransGen R c (schedule h ts c) := by
  induction ts generalizing c with
  | nil => exact .refl
  | cons t ts ih =>
    rw [follows, Bool.and_eq_true] at hok
    obtain ⟨hfirst, hrest⟩ := hok
    have htail := ih hrest
    rcases hR c t hfirst with hsame | hstep
    · rw [hsame] at htail
      show Relation.ReflTransGen R c (schedule h ts (turn h c t))
      rw [hsame]
      exact htail
    · exact .head hstep htail

end Threads
