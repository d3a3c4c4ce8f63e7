/-
Atomic objects.

Several threads use an object through calls that take time.  The object is atomic
if each call seems to take effect at one moment between its start and its return.
`Legal` are the lists of calls, effects and returns in which it does; a history, in
which the effects are not seen, is `Linearizable` if it comes from such a list.

* `Legal.settle` — an effect that leaves the object as it is may be found out about
  late: it is put where the object was in a state that the call could have seen;
* `Legal.revise` — the result of an effect can be changed until the call returns;
* `Legal.passes` — an object that grows by one element at a time has been in every
  state between two of its states.

Design notes: a call carries the state of the object at its time, and an effect those
before and after it, so what an action means does not depend on where it stands.
-/
import Mathlib.Data.List.Basic
import Mathlib.Data.List.Infix
import Mathlib.Logic.Relation
import Mathlib.Tactic.Common

namespace Atomic

variable {T I R S : Type}

/-- What can be seen of the use of an object. -/
inductive Event (T I R : Type)
  | call (t : T) (i : I)
  | ret (t : T) (r : R)
  deriving DecidableEq

def Event.thread : Event T I R → T
  | .call t _ => t
  | .ret t _ => t

/-- `t` has called with `i` and not returned since. -/
def InProgress (h : List (Event T I R)) (t : T) (i : I) : Prop :=
  ∃ h₁ h₂, h = h₁ ++ .call t i :: h₂ ∧ ∀ e ∈ h₂, e.thread ≠ t

/-- `t` has called with `i` and been returned `r`. -/
def Completed (h : List (Event T I R)) (t : T) (i : I) (r : R) : Prop :=
  ∃ h₁ h₂ h₃, h = h₁ ++ .call t i :: (h₂ ++ .ret t r :: h₃) ∧ ∀ e ∈ h₂, e.thread ≠ t

theorem InProgress.of_concat {h : List (Event T I R)} {e : Event T I R} {t : T} {i : I}
    (hp : InProgress (h ++ [e]) t i) : e = .call t i ∨ e.thread ≠ t ∧ InProgress h t i := by
  obtain ⟨h₁, h₂, heq, hne⟩ := hp
  rcases List.eq_nil_or_concat h₂ with rfl | ⟨h₂, e', rfl⟩
  · exact .inl (List.singleton_inj.mp (List.append_inj' heq rfl).2)
  · rw [List.concat_eq_append, ← List.cons_append, ← List.append_assoc] at heq
    obtain ⟨rfl, he⟩ := List.append_inj' heq rfl
    obtain rfl := List.singleton_inj.mp he
    exact .inr ⟨hne e (by simp), h₁, h₂, rfl, fun e' he' => hne e' (by simp [he'])⟩

theorem Completed.of_concat {h : List (Event T I R)} {e : Event T I R} {t : T} {i : I} {r : R}
    (hc : Completed (h ++ [e]) t i r) : Completed h t i r ∨ e = .ret t r ∧ InProgress h t i := by
  obtain ⟨h₁, h₂, h₃, heq, hne⟩ := hc
  rcases List.eq_nil_or_concat h₃ with rfl | ⟨h₃, e', rfl⟩
  · rw [← List.cons_append, ← List.append_assoc] at heq
    obtain ⟨rfl, he⟩ := List.append_inj' heq rfl
    exact .inr ⟨List.singleton_inj.mp he, h₁, h₂, rfl, hne⟩
  · rw [List.concat_eq_append, ← List.cons_append, ← List.append_assoc, ← List.cons_append,
      ← List.append_assoc] at heq
    obtain ⟨rfl, -⟩ := List.append_inj' heq rfl
    exact .inl ⟨h₁, h₂, h₃, by rw [List.append_assoc, List.cons_append], hne⟩

inductive Action (T I R S : Type)
  | call (t : T) (i : I) (s : S)
  | effect (t : T) (i : I) (r : R) (s s' : S)
  | ret (t : T) (r : R)

def Action.thread : Action T I R S → T
  | .call t _ _ => t
  | .effect t _ _ _ _ => t
  | .ret t _ => t

def Action.event? : Action T I R S → Option (Event T I R)
  | .call t i _ => some (.call t i)
  | .effect _ _ _ _ _ => none
  | .ret t r => some (.ret t r)

variable [DecidableEq T]

/-- What a thread has done last. -/
def last (t : T) (l : List (Action T I R S)) : Option (Action T I R S) :=
  (l.filter fun a => a.thread = t).getLast?

/-- What a thread may do after `last`, when the object is in state `s`. -/
inductive Next (spec : S → I → R → S → Prop) :
    Option (Action T I R S) → S → Action T I R S → S → Prop
  | call {x : Option (Action T I R S)} {s : S} (t : T) (i : I)
      (hx : ∀ a ∈ x, ∃ t r, a = .ret t r) : Next spec x s (.call t i s) s
  | effect {s₁ s s' : S} {t : T} {i : I} {r : R} (hs : spec s i r s') :
      Next spec (some (.call t i s₁)) s (.effect t i r s s') s'
  | ret {s₁ s₂ s : S} {t : T} {i : I} {r : R} :
      Next spec (some (.effect t i r s₁ s₂)) s (.ret t r) s

/-- The lists of actions on an object that starts in `s₀`, with the state it ends in. -/
inductive Legal (spec : S → I → R → S → Prop) (s₀ : S) : List (Action T I R S) → S → Prop
  | start : Legal spec s₀ [] s₀
  | next {l : List (Action T I R S)} {s s' : S} {a : Action T I R S} (h : Legal spec s₀ l s)
      (ha : Next spec (last a.thread l) s a s') : Legal spec s₀ (l ++ [a]) s'

def events (l : List (Action T I R S)) : List (Event T I R) := l.filterMap Action.event?

/-- The history is one of an atomic object, which is left in state `s`. -/
def Linearizable (spec : S → I → R → S → Prop) (s₀ : S) (h : List (Event T I R)) (s : S) : Prop :=
  ∃ l : List (Action T I R S), Legal spec s₀ l s ∧ events l = h

variable {spec : S → I → R → S → Prop} {s₀ s s' s₁ s₂ : S} {t u : T} {i : I} {r r' : R}
  {l l' l₁ l₂ b : List (Action T I R S)} {a : Action T I R S}

/-! ### The last action of a thread -/

@[simp] theorem last_nil (t : T) : last t ([] : List (Action T I R S)) = none := rfl

theorem last_append (t : T) (l l' : List (Action T I R S)) :
    last t (l ++ l') = (last t l').or (last t l) := by
  rw [last, List.filter_append, List.getLast?_append]
  rfl

theorem last_concat_eq (h : a.thread = t) (l : List (Action T I R S)) :
    last t (l ++ [a]) = some a := by
  simp [last, h]

theorem last_concat_ne (h : a.thread ≠ t) (l : List (Action T I R S)) :
    last t (l ++ [a]) = last t l := by
  simp [last, h]

theorem last_eq_none (h : ∀ a ∈ l, a.thread ≠ t) : last t l = none := by
  rw [last, List.filter_eq_nil_iff.mpr (by simpa using h)]
  rfl

theorem exists_of_last (h : last t l = some a) :
    a.thread = t ∧ ∃ l₁ l₂, l = l₁ ++ a :: l₂ ∧ ∀ x ∈ l₂, x.thread ≠ t := by
  induction l using List.reverseRecOn with
  | nil => cases h
  | append_singleton l x ih =>
    by_cases hx : x.thread = t
    · subst hx
      rw [last_concat_eq rfl, Option.some_inj] at h
      subst h
      exact ⟨rfl, l, [], rfl, by simp⟩
    · rw [last_concat_ne hx] at h
      obtain ⟨ha, l₁, l₂, rfl, hl₂⟩ := ih h
      refine ⟨ha, l₁, l₂ ++ [x], by simp, ?_⟩
      intro y hy
      rcases List.mem_append.mp hy with hy | hy
      · exact hl₂ y hy
      · rw [List.mem_singleton.mp hy]
        exact hx

/-! ### Legal lists -/

theorem legal_concat : Legal spec s₀ (l ++ [a]) s' ↔
    ∃ s, Legal spec s₀ l s ∧ Next spec (last a.thread l) s a s' := by
  constructor
  · intro h
    generalize hl : l ++ [a] = l' at h
    cases h with
    | start => simp at hl
    | next h ha =>
      obtain ⟨rfl, heq⟩ := List.append_inj' hl rfl
      obtain rfl := List.singleton_inj.mp heq
      exact ⟨_, h, ha⟩
  · rintro ⟨s, h, ha⟩
    exact h.next ha

section steps

variable (h : Legal spec s₀ l s)

include h

theorem Legal.call (ht : ∀ a ∈ last t l, ∃ t r, a = .ret t r) (i : I) :
    Legal spec s₀ (l ++ [.call t i s]) s :=
  h.next (.call t i ht)

theorem Legal.effect (ht : last t l = some (.call t i s₁)) (hs : spec s i r s') :
    Legal spec s₀ (l ++ [.effect t i r s s']) s' := by
  refine h.next ?_
  show Next spec (last t l) s _ s'
  rw [ht]
  exact .effect hs

theorem Legal.ret (ht : last t l = some (.effect t i r s₁ s₂)) :
    Legal spec s₀ (l ++ [.ret t r]) s := by
  refine h.next ?_
  show Next spec (last t l) s _ s
  rw [ht]
  exact .ret

end steps

/-- The state of the object after an action. -/
def Action.after (s : S) : Action T I R S → S
  | .call _ _ _ => s
  | .effect _ _ _ _ s' => s'
  | .ret _ _ => s

omit [DecidableEq T] in
theorem Next.after {x : Option (Action T I R S)} (h : Next spec x s a s') : s' = a.after s := by
  cases h <;> rfl

omit [DecidableEq T] in
theorem Next.of_call {x : Option (Action T I R S)} (h : Next spec x s (.call t i s₁) s') :
    s' = s₁ := by
  cases h
  rfl

theorem legal_nil (h : Legal spec s₀ ([] : List (Action T I R S)) s) : s = s₀ := by
  generalize hl : ([] : List (Action T I R S)) = l at h
  cases h with
  | start => rfl
  | next _ _ => simp at hl

/-- The actions say what state the object is in. -/
theorem Legal.unique (h : Legal spec s₀ l s) (h' : Legal spec s₀ l s') : s = s' := by
  induction l using List.reverseRecOn generalizing s s' with
  | nil => rw [legal_nil h, legal_nil h']
  | append_singleton l a ih =>
    obtain ⟨x, hx, ha⟩ := legal_concat.mp h
    obtain ⟨x', hx', ha'⟩ := legal_concat.mp h'
    rw [ha.after, ha'.after, ih hx hx']

theorem Legal.prefix (h : Legal spec s₀ (l ++ b) s) : ∃ s', Legal spec s₀ l s' := by
  induction b using List.reverseRecOn generalizing s with
  | nil => exact ⟨s, by simpa using h⟩
  | append_singleton b a ih =>
    rw [← List.append_assoc] at h
    obtain ⟨s', h', -⟩ := legal_concat.mp h
    exact ih h'

/-- What the others do next is not affected by what `t` has done, as long as the
object is in the same state. -/
theorem Legal.splice (h₁ : Legal spec s₀ l₁ s₁) (h₂ : Legal spec s₀ l₂ s₁)
    (hlast : ∀ u, u ≠ t → last u l₂ = last u l₁) (hb : ∀ a ∈ b, a.thread ≠ t)
    (h : Legal spec s₀ (l₁ ++ b) s) : Legal spec s₀ (l₂ ++ b) s := by
  induction b using List.reverseRecOn generalizing s with
  | nil =>
    rw [List.append_nil] at h ⊢
    rw [h.unique h₁]
    exact h₂
  | append_singleton b a ih =>
    rw [← List.append_assoc] at h ⊢
    obtain ⟨s', h', ha⟩ := legal_concat.mp h
    refine (ih (fun x hx => hb x (by simp [hx])) h').next ?_
    rw [last_append, hlast _ (hb a (by simp)), ← last_append]
    exact ha

/-- A list with an action of `t` in the middle that the others do not see. -/
structure Settled (spec : S → I → R → S → Prop) (s₀ : S) (t : T) (l l' : List (Action T I R S))
    (s : S) (a : Action T I R S) : Prop where
  legal : Legal spec s₀ l' s
  events : events l' = events l
  last : last t l' = some a
  others : ∀ u, u ≠ t → Atomic.last u l' = Atomic.last u l

/-- The result of an effect is changed. -/
theorem Legal.revise (h : Legal spec s₀ l s) (ht : last t l = some (.effect t i r s₁ s₂))
    (hr : spec s₁ i r' s₂) : ∃ l', Settled spec s₀ t l l' s (.effect t i r' s₁ s₂) := by
  obtain ⟨-, l₁, b, rfl, hb⟩ := exists_of_last ht
  rw [List.append_cons] at h ht ⊢
  obtain ⟨x, hx⟩ := h.prefix
  obtain ⟨y, hy, hnext⟩ := legal_concat.mp hx
  have hne : ∀ (r : R) u, u ≠ t → last u (l₁ ++ [.effect t i r s₁ s₂]) = last u l₁ :=
    fun r u hu => last_concat_ne (Ne.symm hu) l₁
  generalize hlast : last (Action.effect t i r s₁ s₂).thread l₁ = o at hnext
  cases hnext with
  | effect hs =>
    have hx' : Legal spec s₀ (l₁ ++ [.effect t i r' s₁ s₂]) s₂ := hy.effect hlast hr
    have hsame : ∀ u, u ≠ t → last u (l₁ ++ [.effect t i r' s₁ s₂])
        = last u (l₁ ++ [.effect t i r s₁ s₂]) := by
      intro u hu
      rw [hne r' u hu, hne r u hu]
    refine ⟨(l₁ ++ [.effect t i r' s₁ s₂]) ++ b, hx.splice hx' hsame hb h, ?_, ?_, ?_⟩
    · simp [events, List.filterMap_cons, Action.event?]
    · rw [last_append, last_eq_none hb, Option.none_or]
      exact last_concat_eq (by rfl) l₁
    · intro u hu
      rw [last_append, hsame u hu, ← last_append]

/-! ### Real time -/

/-- Some calls lead from one state to the other. -/
abbrev Path (spec : S → I → R → S → Prop) : S → S → Prop :=
  Relation.ReflTransGen fun s s' => ∃ i r, spec s i r s'

theorem Legal.path (h : Legal spec s₀ l s) (h' : Legal spec s₀ (l ++ b) s') : Path spec s s' := by
  induction b using List.reverseRecOn generalizing s' with
  | nil =>
    rw [List.append_nil] at h'
    rw [h.unique h']
  | append_singleton b a ih =>
    rw [← List.append_assoc] at h'
    obtain ⟨x, hx, ha⟩ := legal_concat.mp h'
    generalize last a.thread (l ++ b) = o at ha
    cases ha with
    | call _ _ _ => exact ih hx
    | effect hs => exact (ih hx).tail ⟨_, _, hs⟩
    | ret => exact ih hx

/-- Where the effect of a call stands. -/
theorem Legal.exists_effect (h : Legal spec s₀ (l ++ b) s)
    (ht : last t b = some (.effect t i r s₁ s₂)) :
    ∃ b₁ b₂ s₃, b = b₁ ++ .effect t i r s₁ s₂ :: b₂ ∧ Legal spec s₀ (l ++ b₁) s₁ ∧
      Legal spec s₀ (l ++ b₁ ++ [.effect t i r s₁ s₂]) s₂ ∧
      last t (l ++ b₁) = some (.call t i s₃) ∧ spec s₁ i r s₂ := by
  obtain ⟨-, b₁, b₂, rfl, -⟩ := exists_of_last ht
  rw [← List.append_assoc, List.append_cons] at h
  obtain ⟨y, hy⟩ := h.prefix
  obtain ⟨x, hx, hnext⟩ := legal_concat.mp hy
  generalize hl : last (Action.effect t i r s₁ s₂).thread (l ++ b₁) = o at hnext
  cases hnext with
  | effect hs => exact ⟨b₁, b₂, _, rfl, hx, hy, hl, hs⟩

/-- A call that has returned has taken effect in between. -/
theorem Legal.returned (h : Legal spec s₀ (l ++ [.call t i s'] ++ b ++ [.ret t r]) s)
    (hb : ∀ e ∈ events b, e.thread ≠ t) :
    ∃ s₁ s₂, Path spec s' s₁ ∧ spec s₁ i r s₂ ∧ Path spec s₂ s := by
  obtain ⟨x, hx, hret⟩ := legal_concat.mp h
  obtain ⟨y, hy⟩ := hx.prefix
  obtain rfl : y = s' := (legal_concat.mp hy).choose_spec.2.of_call
  have hpast : ∀ b : List (Action T I R S),
      last t (l ++ [.call t i y] ++ b) = (last t b).or (some (.call t i y)) := by
    intro b
    rw [last_append, last_concat_eq (by rfl)]
  obtain ⟨i₁, s₁, s₂, hlast⟩ : ∃ i₁ s₁ s₂, last t b = some (.effect t i₁ r s₁ s₂) := by
    generalize hl : last (Action.ret t r : Action T I R S).thread _ = o at hret
    cases hret with
    | ret =>
      rw [show last (Action.ret t r : Action T I R S).thread _ = _ from hpast b] at hl
      rcases hlb : last t b with _ | a
      · rw [hlb] at hl
        cases hl
      · rw [hlb, Option.some_or] at hl
        exact ⟨_, _, _, hl⟩
  obtain ⟨b₁, b₂, s₃, rfl, h₁, h₂, hcall, hs⟩ := hx.exists_effect hlast
  -- the call it belongs to is this one
  obtain rfl : i = i₁ := by
    rw [hpast] at hcall
    rcases hlb : last t b₁ with _ | a
    · rw [hlb] at hcall
      cases hcall
      rfl
    · rw [hlb, Option.some_or] at hcall
      obtain ⟨-, c₁, c₂, rfl, -⟩ := exists_of_last (hlb.trans hcall)
      exact absurd rfl (hb (.call t i₁) (by simp [events, Action.event?]))
  refine ⟨s₁, s₂, hy.path h₁, hs, h₂.path (b := b₂ ++ [.ret t r]) ?_⟩
  simpa using h

omit [DecidableEq T] in
/-- Where an event stands. -/
theorem exists_of_events {h₁ h₂ : List (Event T I R)} {e : Event T I R}
    (h : events l = h₁ ++ e :: h₂) :
    ∃ l₁ a l₂, l = l₁ ++ [a] ++ l₂ ∧ events l₁ = h₁ ∧ a.event? = some e ∧ events l₂ = h₂ := by
  obtain ⟨l₁, l₂, rfl, rfl, htail⟩ := List.filterMap_eq_append_iff.mp h
  obtain ⟨l₃, a, l₄, rfl, hnone, ha, rfl⟩ := List.filterMap_eq_cons_iff.mp htail
  refine ⟨l₁ ++ l₃, a, l₄, by simp, ?_, ha, rfl⟩
  rw [events, List.filterMap_append, List.filterMap_eq_nil_iff.mpr hnone, List.append_nil]

omit [DecidableEq T] in
theorem Action.eq_call (h : a.event? = some (.call t i)) : ∃ s, a = .call t i s := by
  cases a with
  | call t i s =>
    cases h
    exact ⟨s, rfl⟩
  | _ => cases h

omit [DecidableEq T] in
theorem Action.eq_ret (h : a.event? = some (.ret t r)) : a = .ret t r := by
  cases a with
  | ret t r =>
    cases h
    rfl
  | _ => cases h

/-- What has been answered has been done. -/
theorem Legal.answered {h₁ h₂ h₃ : List (Event T I R)} (h : Legal spec s₀ l s)
    (hl : events l = h₁ ++ .call t i :: (h₂ ++ .ret t r :: h₃)) (ht : ∀ e ∈ h₂, e.thread ≠ t) :
    ∃ s₁ s₂, spec s₁ i r s₂ := by
  obtain ⟨l₁, a₁, k₁, rfl, -, ha₁, hk₁⟩ := exists_of_events hl
  obtain ⟨l₂, a₂, k₂, rfl, rfl, ha₂, -⟩ := exists_of_events hk₁
  obtain ⟨x, rfl⟩ := Action.eq_call ha₁
  obtain rfl := Action.eq_ret ha₂
  simp only [← List.append_assoc] at h
  obtain ⟨y, hy⟩ := h.prefix
  obtain ⟨s₁, s₂, -, hs, -⟩ := hy.returned ht
  exact ⟨s₁, s₂, hs⟩

/-! ### Objects that grow -/

section growing

variable {α : Type} {f : S → List α} {p : List α}
  (hf : ∀ s i r s', spec s i r s' → f s' = f s ∨ ∃ x, f s' = f s ++ [x])

omit [DecidableEq T] in
theorem Next.grows {x : Option (Action T I R S)} (h : Next spec x s a s')
    (hf : ∀ s i r s', spec s i r s' → f s' = f s ∨ ∃ x, f s' = f s ++ [x]) :
    f s' = f s ∨ ∃ x, f s' = f s ++ [x] := by
  cases h with
  | call _ _ _ => exact .inl rfl
  | effect hs => exact hf _ _ _ _ hs
  | ret => exact .inl rfl

include hf

/-- Between two states the object has been in every state that lies between them. -/
theorem Legal.passes (h₁ : Legal spec s₀ l s₁) (h : Legal spec s₀ (l ++ b) s) (hp : f s₁ <+: p)
    (hp' : p <+: f s) : ∃ b₁ b₂ s₂, b = b₁ ++ b₂ ∧ Legal spec s₀ (l ++ b₁) s₂ ∧ f s₂ = p := by
  induction b using List.reverseRecOn generalizing s with
  | nil =>
    rw [List.append_nil] at h
    rw [h.unique h₁] at hp'
    exact ⟨[], [], s₁, rfl, by simpa using h₁, hp.eq_of_length (hp.length_le.antisymm
      hp'.length_le)⟩
  | append_singleton b a ih =>
    rw [← List.append_assoc] at h
    obtain ⟨s', h', ha⟩ := legal_concat.mp h
    by_cases hold : p <+: f s'
    · obtain ⟨b₁, b₂, s₂, rfl, h₂, hs₂⟩ := ih h' hold
      exact ⟨b₁, b₂ ++ [a], s₂, by simp, h₂, hs₂⟩
    · -- the action has added the last element of `p`
      refine ⟨b ++ [a], [], s, by simp, by rwa [← List.append_assoc], ?_⟩
      rcases ha.grows hf with heq | ⟨x, heq⟩
      · rw [heq] at hp'
        exact absurd hp' hold
      · rw [heq, List.prefix_concat_iff] at hp'
        rcases hp' with rfl | hp'
        · exact heq
        · exact absurd hp' hold

/-- A call that has not taken effect is given its effect in a state `p` of the object
between that of the call and the present one. -/
theorem Legal.settle (h : Legal spec s₀ l s) (ht : last t l = some (.call t i s₁)) (hp : f s₁ <+: p)
    (hp' : p <+: f s) (hr : ∀ s₂, f s₂ = p → spec s₂ i r s₂) :
    ∃ l' s₂, Settled spec s₀ t l l' s (.effect t i r s₂ s₂) := by
  obtain ⟨-, l₁, b, rfl, hb⟩ := exists_of_last ht
  rw [List.append_cons] at h ht ⊢
  obtain ⟨x, hx⟩ := h.prefix
  obtain ⟨y, hy, hnext⟩ := legal_concat.mp hx
  obtain rfl : s₁ = x := hnext.of_call.symm
  obtain ⟨b₁, b₂, s₂, rfl, h₂, hs₂⟩ := hx.passes hf h hp hp'
  have hb₁ : ∀ a ∈ b₁, a.thread ≠ t := fun a ha => hb a (by simp [ha])
  have hb₂ : ∀ a ∈ b₂, a.thread ≠ t := fun a ha => hb a (by simp [ha])
  have hlast : last t (l₁ ++ [.call t i s₁] ++ b₁) = some (.call t i s₁) := by
    rw [last_append, last_eq_none hb₁, Option.none_or]
    exact last_concat_eq (by rfl) l₁
  rw [← List.append_assoc] at h ⊢
  -- `l₂` is what has happened up to the state `p`
  generalize l₁ ++ [.call t i s₁] ++ b₁ = l₂ at h h₂ hlast
  have hne : ∀ u, u ≠ t → last u (l₂ ++ [.effect t i r s₂ s₂]) = last u l₂ :=
    fun u hu => last_concat_ne (Ne.symm hu) l₂
  have h₃ : Legal spec s₀ (l₂ ++ [.effect t i r s₂ s₂]) s₂ := h₂.effect hlast (hr s₂ hs₂)
  refine ⟨(l₂ ++ [.effect t i r s₂ s₂]) ++ b₂, s₂, h₂.splice h₃ hne hb₂ h, ?_, ?_, ?_⟩
  · simp [events, List.filterMap_cons, Action.event?]
  · rw [last_append, last_eq_none hb₂, Option.none_or]
    exact last_concat_eq (by rfl) l₂
  · intro u hu
    rw [last_append, hne u hu, ← last_append]

end growing

end Atomic
