/-
Programs that acquire and release.

`held s l` is what is held after the marks `l`, the latest first, when `s` was held
before; only the latest may be released.  A release may fail, and there is no second
one: what it was for is not held any more.

* `wellNested_iff_held` — nothing is held in the end if and only if the marks are
  nested like brackets;
* `Threads.Reachable.guarded` — a program on its own, whose operations may be
  answered in any way: what its weakest precondition asks before each operation
  holds of the operations so far, wherever it has come to;
* `Threads.Reachable.nests` — the same for what an operation acquires, releases and
  uses.
-/
import SensorGateway.Threads
import SensorGateway.Traces

open Prog (Event)

/-- Acquiring and releasing. -/
inductive Mark (α : Type)
  | acquire (x : α)
  | release (x : α) (succeeds : Bool)
  deriving DecidableEq

namespace Mark

variable {α : Type} {l l' : List (Mark α)} {s t : List α} {x : α}

inductive WellNested : List (Mark α) → Prop
  | nil : WellNested []
  | bracket (x : α) (succeeds : Bool) {l l' : List (Mark α)} (h : WellNested l)
      (h' : WellNested l') : WellNested (.acquire x :: (l ++ .release x succeeds :: l'))

def held [DecidableEq α] : List α → List (Mark α) → Option (List α)
  | s, [] => some s
  | s, .acquire x :: l => held (x :: s) l
  | [], .release _ _ :: _ => none
  | y :: s, .release x _ :: l => if x = y then held s l else none

variable [DecidableEq α]

@[simp] theorem held_nil (s : List α) : held s [] = some s := by
  rw [held]

@[simp] theorem held_acquire (s : List α) (x : α) (l : List (Mark α)) :
    held s (.acquire x :: l) = held (x :: s) l := by
  rw [held]

@[simp] theorem held_release (s : List α) (x : α) (succeeds : Bool) (l : List (Mark α)) :
    held (x :: s) (.release x succeeds :: l) = held s l := by
  rw [held, if_pos rfl]

theorem held_append (s : List α) (l l' : List (Mark α)) :
    held s (l ++ l') = (held s l).bind fun s => held s l' := by
  induction l generalizing s with
  | nil => rfl
  | cons m l ih =>
    cases m with
    | acquire x => exact ih (x :: s)
    | release x succeeds =>
      cases s with
      | nil => rfl
      | cons y s =>
        simp only [List.cons_append, held]
        split
        · exact ih s
        · rfl

theorem WellNested.held (h : WellNested l) (s : List α) : Mark.held s l = some s := by
  induction h generalizing s with
  | nil => rfl
  | bracket x succeeds _ _ ih ih' =>
    rw [held_acquire, held_append, ih (x :: s), Option.bind_some, held_release]
    exact ih' s

/-- Where `x` is released. -/
theorem exists_release (h : held (x :: s) l = some t) (hle : t.length ≤ s.length) :
    ∃ l₁ succeeds l₂, l = l₁ ++ .release x succeeds :: l₂ ∧ WellNested l₁ ∧
      held s l₂ = some t := by
  induction hn : l.length using Nat.strongRecOn generalizing l x s with
  | ind n ih =>
    cases l with
    | nil =>
      obtain rfl : x :: s = t := Option.some.inj h
      rw [List.length_cons] at hle
      omega
    | cons m l =>
      rw [List.length_cons] at hn
      cases m with
      | acquire y =>
        -- first where `y` is released, and then `x` in what follows
        have hy : held (y :: x :: s) l = some t := h
        have hle' : t.length ≤ (x :: s).length := by
          rw [List.length_cons]
          omega
        obtain ⟨l₁, b, l₂, rfl, h₁, h₂⟩ := ih l.length (by omega) hy hle' rfl
        rw [List.length_append, List.length_cons] at hn
        obtain ⟨l₃, b', l₄, rfl, h₃, h₄⟩ := ih l₂.length (by omega) h₂ hle rfl
        refine ⟨.acquire y :: (l₁ ++ .release y b :: l₃), b', l₄, ?_, .bracket y b h₁ h₃, h₄⟩
        simp
      | release y b =>
        rw [Mark.held] at h
        split at h
        · rename_i heq
          obtain rfl := heq
          exact ⟨[], b, l, rfl, .nil, h⟩
        · cases h

theorem wellNested_iff_held : WellNested l ↔ held [] l = some [] := by
  refine ⟨fun h => h.held [], fun h => ?_⟩
  induction hn : l.length using Nat.strongRecOn generalizing l with
  | ind n ih =>
    cases l with
    | nil => exact .nil
    | cons m l =>
      cases m with
      | acquire x =>
        obtain ⟨l₁, b, l₂, rfl, h₁, h₂⟩ := exists_release h (Nat.le_refl 0)
        rw [List.length_cons, List.length_append, List.length_cons] at hn
        exact .bracket x b h₁ (ih l₂.length (by omega) h₂ rfl)
      | release x b =>
        rw [Mark.held] at h
        cases h

end Mark

/-! ### One program -/

/-- Each entry of the list is `ok`, given those before it. -/
def Guarded {E : Type} (ok : List E → E → Prop) (l : List E) : Prop :=
  ∀ l₁ e l₂, l = l₁ ++ e :: l₂ → ok l₁ e

theorem Guarded.nil {E : Type} {ok : List E → E → Prop} : Guarded ok [] := by
  intro l₁ e l₂ h
  cases l₁ with
  | nil => cases h
  | cons e' l₁ => cases h

theorem Guarded.concat {E : Type} {ok : List E → E → Prop} {l : List E} {e : E}
    (h : Guarded ok l) (he : ok l e) : Guarded ok (l ++ [e]) := by
  intro l₁ e' l₂ heq
  rcases List.eq_nil_or_concat l₂ with rfl | ⟨l₃, e₃, rfl⟩
  · obtain ⟨rfl, hlast⟩ := List.append_inj' heq rfl
    obtain rfl : e = e' := by simpa using hlast
    exact he
  · rw [List.concat_eq_append, ← List.cons_append, ← List.append_assoc] at heq
    obtain ⟨hl, -⟩ := List.append_inj' heq rfl
    exact h l₁ e' l₃ hl

namespace Threads

variable {Op : Type} {Ans : Op → Type} {α β W : Type}

/-- Any answer may be given; the operations are written down. -/
def noted : Semantics Unit Op Ans Unit (List (Event Op Ans)) :=
  fun _ x o a x' => x'.2 = x.2 ++ [⟨o, a⟩]

def nobody (_ _ : List (Event Op Ans)) : Prop := False

abbrev Alone (Op : Type) (Ans : Op → Type) (β : Type) :=
  Config Unit Op Ans Unit (List (Event Op Ans)) β

/-- The program at its start. -/
def alone (p : Prog Op Ans β) : Alone Op Ans β := ⟨fun _ => p, fun _ => (), []⟩

variable {p : Prog Op Ans β} {cfg : Alone Op Ans β}

/-- `Sees w l` relates the worlds of the specification to the operations so far. -/
theorem Reachable.guarded {R : Prog.OpSpec Op Ans W} {Q : β → W → Prop} {w : W}
    (Sees : W → List (Event Op Ans) → Prop)
    (hpost : ∀ w l o a, Sees w l → R.pre w o → ∃ w', R.post w o a w' ∧ Sees w' (l ++ [⟨o, a⟩]))
    (hr : Reachable noted nobody (alone p) cfg) (hw : Sees w []) (hp : Prog.wp False R p Q w) :
    Guarded (fun l e => ∃ w, Sees w l ∧ R.pre w e.1) cfg.shared ∧
      ∃ w, Sees w cfg.shared ∧ Prog.wp False R (cfg.prog ()) Q w := by
  have hsem : ∀ (t : Unit) w (l : Unit) s o a (l' : Unit) s',
      Guarded (fun l e => ∃ w, Sees w l ∧ R.pre w e.1) s → Sees w s → R.pre w o →
      noted t (l, s) o a (l', s') → (∃ w', R.post w o a w' ∧ Sees w' s') ∧
        Guarded (fun l e => ∃ w, Sees w l ∧ R.pre w e.1) s' ∧
        ∀ t', t' ≠ t → ∀ w (_ : Unit), Sees w s → Sees w s' := by
    intro t w l s o a l' s' hJ hsees hpre hnoted
    obtain rfl : s' = s ++ [(⟨o, a⟩ : Event Op Ans)] := hnoted
    exact ⟨hpost w s o a hsees hpre, hJ.concat ⟨w, hsees, hpre⟩,
      fun t' ht' => absurd (Subsingleton.elim t' t) ht'⟩
  obtain ⟨hJ, hwp⟩ := hr.wp (R := fun _ => R) (Q := fun _ => Q)
    (J := Guarded fun l e => ∃ w, Sees w l ∧ R.pre w e.1) hsem (fun _ _ _ h => h.elim) .nil
    fun _ => ⟨w, hw, hp⟩
  exact ⟨hJ, hwp ()⟩

/-- The first `n` steps, where `f` answers. -/
def answered (f : (o : Op) → Ans o) (n : ℕ) (p : Prog Op Ans β) : Alone Op Ans β :=
  schedule (fun _ x o => (f o, (), x.2 ++ [⟨o, f o⟩])) (List.replicate n ()) (alone p)

theorem answered_reachable (f : (o : Op) → Ans o) (n : ℕ) (p : Prog Op Ans β) :
    Reachable noted nobody (alone p) (answered f n p) := by
  have hallowed : ∀ (ts : List Unit) (c : Alone Op Ans β),
      allowed (fun _ x o => (f o, (), x.2 ++ [⟨o, f o⟩])) (fun _ _ _ => true) ts c = true := by
    intro ts
    induction ts with
    | nil => exact fun _ => rfl
    | cons t ts ih =>
      intro c
      rw [allowed, ih, Bool.and_true]
      split
      · rfl
      · rfl
  exact schedule_reachable (fun _ _ _ _ => rfl) (hallowed _ _)

variable (marks : (o : Op) → Ans o → List (Mark α)) (uses : Op → List α)

/-- All that has been acquired and released. -/
def word (l : List (Event Op Ans)) : List (Mark α) := l.flatMap fun e => marks e.1 e.2

theorem word_concat (l : List (Event Op Ans)) (o : Op) (a : Ans o) :
    word marks (l ++ [⟨o, a⟩]) = word marks l ++ marks o a := by
  simp [word]

variable [DecidableEq α]

/-- An operation may use what is held, and release the latest of it whatever its
answer. -/
def nesting : Prog.OpSpec Op Ans (List α) where
  pre s o := (∀ x ∈ uses o, x ∈ s) ∧ ∀ a, (Mark.held s (marks o a)).isSome
  post s o a s' := Mark.held s (marks o a) = some s'

/-- The operations use what is held, and what a finished program has acquired and
released is well nested. -/
structure Nests (cfg : Alone Op Ans β) : Prop where
  held : ∃ s, Mark.held [] (word marks cfg.shared) = some s
  used : Guarded (fun l e => ∃ s, Mark.held [] (word marks l) = some s ∧ ∀ x ∈ uses e.1, x ∈ s)
    cfg.shared
  ended : ∀ b, cfg.prog () = .ret b → Mark.WellNested (word marks cfg.shared)

variable {marks} {uses}

theorem Reachable.nests (hr : Reachable noted nobody (alone p) cfg)
    (hp : Prog.wp False (nesting marks uses) p (fun _ s => s = []) []) :
    Nests marks uses cfg := by
  have hpost : ∀ (s : List α) l o (a : Ans o), Mark.held [] (word marks l) = some s →
      (nesting marks uses).pre s o → ∃ s', (nesting marks uses).post s o a s' ∧
        Mark.held [] (word marks (l ++ [⟨o, a⟩])) = some s' := by
    intro s l o a hs hpre
    obtain ⟨s', hs'⟩ := Option.isSome_iff_exists.mp (hpre.2 a)
    refine ⟨s', hs', ?_⟩
    rw [word_concat, Mark.held_append, hs]
    exact hs'
  obtain ⟨hguarded, s, hs, hwp⟩ :=
    hr.guarded (fun s l => Mark.held [] (word marks l) = some s) hpost rfl hp
  constructor
  · exact ⟨s, hs⟩
  · intro l₁ e l₂ heq
    obtain ⟨s, hs, hpre⟩ := hguarded l₁ e l₂ heq
    exact ⟨s, hs, hpre.1⟩
  · intro b hb
    rw [hb] at hwp
    obtain rfl : s = [] := hwp
    exact Mark.wellNested_iff_held.mpr hs

end Threads
