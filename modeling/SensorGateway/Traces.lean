/-
Runs with the operations written down.

`traced sem` are the same operations as `sem`, with a list of those issued so far
and their answers.  Three specifications look at nothing but this list:

* `recording ok` — the list as it is, where all answers are `ok`;
  `recording_ends` derives from a total one that every run ends;
* `alert bad out` — no operation of the kind `out` may be issued any more once an
  answer was `bad`; `alert_silenced` says so of the list of a run;
* `counting hit` — how many operations of the kind `hit` are issued;
  `counting_turned` bounds them in the turns of a loop.
-/
import SensorGateway.Termination

namespace Prog

variable {Op : Type} {Ans : Op → Type} {α W V : Type} {sem : W → (o : Op) → Ans o → W → Prop}

/-- An operation and its answer. -/
abbrev Event (Op : Type) (Ans : Op → Type) := Σ o : Op, Ans o

def traced (sem : W → (o : Op) → Ans o → W → Prop) (x : W × List (Event Op Ans)) (o : Op)
    (a : Ans o) (x' : W × List (Event Op Ans)) : Prop :=
  sem x.1 o a x'.1 ∧ x'.2 = x.2 ++ [⟨o, a⟩]

/-- A run seen through a function of the world. -/
theorem Runs.map {sem' : V → (o : Op) → Ans o → V → Prop} (g : W → V)
    (hg : ∀ w o a w', sem w o a w' → sem' (g w) o a (g w')) {p : Prog Op Ans α} {w w' : W} {a : α}
    (h : Runs sem p w a w') : Runs sem' p (g w) a (g w') := by
  induction h with
  | ret a w => exact .ret a _
  | call ho _ ih => exact .call (hg _ _ _ _ ho) ih
  | next _ _ ihb ihk => exact .next ihb ihk
  | done _ _ ihb ihk => exact .done ihb ihk

/-- One operation of a run, with its answer. -/
theorem Runs.traced_call {o : Op} {k : Ans o → Prog Op Ans α} {w : W} {l : List (Event Op Ans)}
    {x : W × List (Event Op Ans)} {r : α} (a : Ans o) (w' : W) (ho : sem w o a w')
    (hk : Runs (traced sem) (k a) (w', l ++ [⟨o, a⟩]) r x) :
    Runs (traced sem) (.call o k) (w, l) r x := .call ⟨ho, rfl⟩ hk

theorem Runs.untraced {p : Prog Op Ans α} {x x' : W × List (Event Op Ans)} {a : α}
    (h : Runs (traced sem) p x a x') : Runs sem p x.1 a x'.1 :=
  h.map Prod.fst fun _ _ _ _ ho => ho.1

/-- Every run can be written down. -/
theorem Runs.trace {p : Prog Op Ans α} {w w' : W} {a : α} (h : Runs sem p w a w')
    (l : List (Event Op Ans)) : ∃ l', Runs (traced sem) p (w, l) a (w', l') := by
  induction h generalizing l with
  | ret a w => exact ⟨l, .ret a _⟩
  | @call _ o _ _ _ _ b _ ho _ ih =>
    obtain ⟨l', hk⟩ := ih (l ++ [⟨o, b⟩])
    exact ⟨l', .call ⟨ho, rfl⟩ hk⟩
  | next _ _ ihb ihk =>
    obtain ⟨l₁, hb⟩ := ihb l
    obtain ⟨l₂, hk⟩ := ihk l₁
    exact ⟨l₂, .next hb hk⟩
  | done _ _ ihb ihk =>
    obtain ⟨l₁, hb⟩ := ihb l
    obtain ⟨l₂, hk⟩ := ihk l₁
    exact ⟨l₂, .done hb hk⟩

/-- The world is the list itself, and the answers are known to be `ok`. -/
def recording (ok : (o : Op) → Ans o → Prop) : OpSpec Op Ans (List (Event Op Ans)) where
  pre _ _ := True
  post l o a l' := ok o a ∧ l' = l ++ [⟨o, a⟩]

theorem recording_runs {ok : (o : Op) → Ans o → Prop} (hok : ∀ w o a w', sem w o a w' → ok o a)
    {t : Prop} {p : Prog Op Ans α} {x x' : W × List (Event Op Ans)} {a : α}
    (hr : Runs (traced sem) p x a x') {Q : α → List (Event Op Ans) → Prop}
    (hp : wp t (recording ok) p Q x.2) : Q a x'.2 := by
  have hmap : Runs (fun l o a l' => ok o a ∧ l' = l ++ [⟨o, a⟩]) p x.2 a x'.2 :=
    hr.map Prod.snd fun x o a x' h => ⟨hok _ _ _ _ h.1, h.2⟩
  exact wp_runs (fun _ _ _ _ _ h => h) hp hmap

/-- A weakest precondition about a part of the world, in the whole world. -/
theorem wp_map {t : Prop} {R : OpSpec Op Ans W} {R' : OpSpec Op Ans V} (g : W → V)
    (hpre : ∀ w o, R'.pre (g w) o → R.pre w o)
    (hpost : ∀ w o a w', R.post w o a w' → R'.post (g w) o a (g w')) {p : Prog Op Ans α}
    {Q : α → V → Prop} {w : W} (hp : wp t R' p Q (g w)) :
    wp t R p (fun a w' => Q a (g w')) w := by
  induction p generalizing w with
  | ret a => exact hp
  | call o k ih => exact ⟨hpre _ _ hp.1, fun a w' ha => ih a (hp.2 a _ (hpost _ _ _ _ ha))⟩
  | iter body s k ihb ihk =>
    obtain ⟨I, h0, hI⟩ := hp
    refine ⟨fun n s w => I n s (g w), h0, fun n s w hs => wp_mono ?_ (ihb s (hI n s (g w) hs))⟩
    rintro (s' | r) w' hw
    · exact hw
    · exact ihk r hw

/-- Under a total one over the list every run ends, whatever is answered. -/
theorem recording_ends {p : Prog Op Ans α} {x : W × List (Event Op Ans)}
    {Q : α → List (Event Op Ans) → Prop}
    (hp : wp True (recording fun _ _ => True) p Q x.2) : Ends (traced sem) p x := by
  have hwp : wp True ⟨fun _ _ => True, traced sem⟩ p (fun a x' => Q a x'.2) x := by
    refine wp_map Prod.snd (fun _ _ _ => trivial) ?_ hp
    rintro x o a x' ⟨-, hx⟩
    exact ⟨trivial, hx⟩
  exact wp_ends (fun _ _ _ _ _ h => h) hwp

/-! ### After an alert -/

/-- The world only knows whether an answer has been bad. -/
def alert (bad : (o : Op) → Ans o → Bool) (out : Op → Bool) : OpSpec Op Ans Bool where
  pre b o := b → out o = false
  post b o a b' := b' = (b || bad o a)

variable {t : Prop} {bad : (o : Op) → Ans o → Bool} {out : Op → Bool}

/-- After a bad answer there is no operation of the kind `out`. -/
abbrev Silenced (bad : (o : Op) → Ans o → Bool) (out : Op → Bool) (l : List (Event Op Ans)) :
    Prop := l.Pairwise fun x y => bad x.1 x.2 → out y.1 = false

theorem alert_silenced {p : Prog Op Ans α} {x x' : W × List (Event Op Ans)} {a : α}
    (hr : Runs (traced sem) p x a x') {Q : α → Bool → Prop}
    (hp : wp t (alert bad out) p Q (x.2.any fun y => bad y.1 y.2)) (hl : Silenced bad out x.2) :
    Silenced bad out x'.2 ∧ Q a (x'.2.any fun y => bad y.1 y.2) := by
  induction hr with
  | ret a x => exact ⟨hl, hp⟩
  | @call _ o k x x₁ x₂ b a ho _ ih =>
    have hany : x₁.2.any (fun y => bad y.1 y.2) = (x.2.any (fun y => bad y.1 y.2) || bad o b) := by
      rw [ho.2, List.any_append]
      simp
    refine ih (hp.2 _ _ hany) ?_
    rw [ho.2]
    refine List.pairwise_append.mpr ⟨hl, List.pairwise_singleton _ _, fun y hy z hz hbad => ?_⟩
    rw [List.mem_singleton.mp hz]
    exact hp.1 (List.any_eq_true.mpr ⟨y, hy, hbad⟩)
  | next _ _ ihb ihk =>
    obtain ⟨I, ⟨n, h0⟩, hI⟩ := hp
    obtain ⟨hl₁, m, -, hm⟩ := ihb (hI n _ _ h0) hl
    exact ihk ⟨I, ⟨m, hm⟩, hI⟩ hl₁
  | done _ _ ihb ihk =>
    obtain ⟨I, ⟨n, h0⟩, hI⟩ := hp
    obtain ⟨hl₁, hq⟩ := ihb (hI n _ _ h0) hl
    exact ihk hq hl₁

/-! ### Counting -/

/-- The world is the number of operations of the kind `hit`. -/
def counting (hit : Op → Bool) : OpSpec Op Ans ℕ where
  pre _ _ := True
  post n o _ n' := n' = n + (hit o).toNat

variable {hit : Op → Bool}

/-- The operations of the kind `hit` in a run. -/
def hits (hit : Op → Bool) (l : List (Event Op Ans)) : ℕ := l.countP fun x => hit x.1

theorem counting_hits {p : Prog Op Ans α} {x x' : W × List (Event Op Ans)} {a : α}
    (hr : Runs (traced sem) p x a x') {Q : α → ℕ → Prop}
    (hp : wp t (counting hit) p Q (hits hit x.2)) : Q a (hits hit x'.2) := by
  have hmap : Runs (fun n o _ n' => n' = n + (hit o).toNat) p (hits hit x.2) a (hits hit x'.2) := by
    refine hr.map (fun x => hits hit x.2) fun x o a x' h => ?_
    rw [h.2, hits, hits, List.countP_append, List.countP_singleton]
    cases hit o <;> rfl
  exact wp_runs (fun _ _ _ _ _ h => h) hp hmap

section turns

variable {σ ρ : Type} {body : σ → Prog Op Ans (σ ⊕ ρ)} {s s' : σ} {n : ℕ}
  {x x' : W × List (Event Op Ans)}

theorem Turned.untraced (h : Turned (traced sem) body s x n s' x') :
    Turned sem body s x.1 n s' x'.1 := by
  induction h with
  | start => exact .start
  | turn _ hb ih => exact ih.turn hb.untraced

/-- A loop that issues `b` operations of the kind in each turn. -/
theorem counting_turned {b : ℕ}
    (hb : ∀ s m, wp t (counting hit) (body s) (fun _ m' => m' ≤ m + b) m)
    (h : Turned (traced sem) body s x n s' x') : hits hit x'.2 ≤ hits hit x.2 + n * b := by
  induction h with
  | start => omega
  | turn _ hturn ih =>
    have hone := counting_hits hturn (hb _ _)
    rw [Nat.succ_mul]
    omega

end turns

end Prog
