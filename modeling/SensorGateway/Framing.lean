/-
Messages without a frame.

A decoder `dec` reads one message from a whole text; some symbols are padding.
`SelfDelimiting` says that a message is never continued to another one by what
a further message starts with, apart from padding.

* `SelfDelimiting.map_eq` — two cuts of one text into messages hold the same
  messages.
-/
import Mathlib.Data.List.Basic
import Mathlib.Tactic.Common

namespace Framing

variable {α κ : Type}

structure SelfDelimiting (dec : List α → Option κ) (blank : α → Prop) : Prop where
  /-- Padding in front of a message may be left out. -/
  skip : ∀ x z k, (∀ a ∈ x, blank a) → dec (x ++ z) = some k → dec z = some k
  /-- What follows a message is padding when it starts as some message does and
  the whole is still a message, which is then the same. -/
  extend : ∀ u x v k k' l, dec u = some k → dec (u ++ x) = some k' → dec v = some l → x ≠ [] →
    x.head? = v.head? → k' = k ∧ ∀ a ∈ x, blank a
  /-- A message is more than padding. -/
  solid : ∀ v k, dec v = some k → ∃ a ∈ v, ¬ blank a

variable {dec : List α → Option κ} {blank : α → Prop}

theorem SelfDelimiting.ne_nil (h : SelfDelimiting dec blank) {v : List α}
    (hv : (dec v).isSome) : v ≠ [] := by
  rintro rfl
  obtain ⟨k, hk⟩ := Option.isSome_iff_exists.mp hv
  obtain ⟨a, ha, -⟩ := h.solid _ _ hk
  cases ha

/-- Two cuts whose first messages overlap: the longer one only adds padding, and
the padding is taken from the front of the next message. -/
theorem SelfDelimiting.overlap (h : SelfDelimiting dec blank) {u x : List α} {as : List (List α)}
    {s : List α} (hu : (dec u).isSome) (hux : (dec (u ++ x)).isSome)
    (has : ∀ a ∈ as, (dec a).isSome) (hs : as.flatten = x ++ s) :
    dec (u ++ x) = dec u ∧ ∃ as' : List (List α), as'.flatten = s ∧ as'.map dec = as.map dec ∧
      as'.length = as.length := by
  rcases eq_or_ne x [] with rfl | hx
  · exact ⟨by rw [List.append_nil], as, by simpa using hs, rfl, rfl⟩
  obtain ⟨k, hk⟩ := Option.isSome_iff_exists.mp hu
  obtain ⟨k', hk'⟩ := Option.isSome_iff_exists.mp hux
  rcases as with _ | ⟨v, as⟩
  · simp [hx] at hs
  have hv := has v (by simp)
  obtain ⟨l, hl⟩ := Option.isSome_iff_exists.mp hv
  rw [List.flatten_cons] at hs
  have hhead : x.head? = v.head? := by
    have := congrArg List.head? hs
    rwa [List.head?_append_of_ne_nil _ (h.ne_nil hv), List.head?_append_of_ne_nil _ hx,
      eq_comm] at this
  obtain ⟨rfl, hblank⟩ := h.extend u x v k k' l hk hk' hl hx hhead
  refine ⟨by rw [hk, hk'], ?_⟩
  rcases List.append_eq_append_iff.mp hs with ⟨z, rfl, -⟩ | ⟨z, rfl, hz⟩
  · -- the next message would be padding
    obtain ⟨a, ha, hsolid⟩ := h.solid v l hl
    exact absurd (hblank a (by simp [ha])) hsolid
  · refine ⟨z :: as, by rw [List.flatten_cons, hz], ?_, rfl⟩
    rw [List.map_cons, List.map_cons, h.skip x z l hblank hl, hl]

theorem SelfDelimiting.map_eq (h : SelfDelimiting dec blank) {as bs : List (List α)}
    (has : ∀ a ∈ as, (dec a).isSome) (hbs : ∀ b ∈ bs, (dec b).isSome)
    (heq : as.flatten = bs.flatten) : as.map dec = bs.map dec := by
  -- induction on the number of messages in both cuts
  induction hn : as.length + bs.length using Nat.strongRecOn generalizing as bs with
  | ind n ih =>
    have hsome : ∀ {l l' : List (List α)}, l'.map dec = l.map dec → (∀ a ∈ l, (dec a).isSome) →
        ∀ a ∈ l', (dec a).isSome := by
      intro l l' hmap hl a ha
      obtain ⟨b, hb, hab⟩ := List.mem_map.mp (hmap ▸ List.mem_map_of_mem (f := dec) ha)
      rw [← hab]
      exact hl b hb
    rcases as with _ | ⟨a, as⟩
    · rcases bs with _ | ⟨b, bs⟩
      · rfl
      · have hb := h.ne_nil (hbs b (by simp))
        simp [hb] at heq
    rcases bs with _ | ⟨b, bs⟩
    · have ha := h.ne_nil (has a (by simp))
      simp [ha] at heq
    have ha := has a (by simp)
    have hb := hbs b (by simp)
    have has' : ∀ x ∈ as, (dec x).isSome := fun x hx => has x (by simp [hx])
    have hbs' : ∀ x ∈ bs, (dec x).isSome := fun x hx => hbs x (by simp [hx])
    rw [List.flatten_cons, List.flatten_cons] at heq
    rcases List.append_eq_append_iff.mp heq with ⟨x, rfl, hx⟩ | ⟨x, rfl, hx⟩
    · obtain ⟨hdec, as', hflat, hmap, hlen⟩ := h.overlap ha hb has' hx
      have := ih (as'.length + bs.length) (by simp only [List.length_cons] at hn; omega)
        (hsome hmap has') hbs' hflat rfl
      rw [List.map_cons, List.map_cons, hdec, ← hmap, this]
    · obtain ⟨hdec, bs', hflat, hmap, hlen⟩ := h.overlap hb ha hbs' hx
      have := ih (as.length + bs'.length) (by simp only [List.length_cons] at hn; omega)
        has' (hsome hmap hbs') hflat.symm rfl
      rw [List.map_cons, List.map_cons, hdec, ← hmap, this]

end Framing
