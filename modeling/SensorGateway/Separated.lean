/-
Texts made of fields with a separator between them.

The separator may be several symbols long, so a field can hold parts of it and
the fields next to each other can even form one.  `split` cuts a text at the
separators from left to right.

* `Inert sep x` — no separator begins inside `x` when one follows it;
* `Absent sep x` — there is none in `x`;
* `split_intercalate` — fields that are inert, and absent in the last one,
  come back from the joined text.
-/
import Mathlib.Data.List.Basic
import Mathlib.Tactic.Common

namespace Separated

variable {α : Type} {sep x : List α}

def Inert (sep x : List α) : Prop := ∀ i < x.length, ¬ sep <+: (x ++ sep).drop i

def Absent (sep x : List α) : Prop := ∀ i < x.length, ¬ sep <+: x.drop i

theorem Inert.tail {c : α} (h : Inert sep (c :: x)) : Inert sep x := by
  intro i hi
  have := h (i + 1) (by simpa using hi)
  simpa using this

theorem Absent.tail {c : α} (h : Absent sep (c :: x)) : Absent sep x := by
  intro i hi
  have := h (i + 1) (by simpa using hi)
  simpa using this

/-! ### Fields without the symbols of the separator -/

theorem inert_of_notMem {a : α} {s : List α} (h : a ∉ x) : Inert (a :: s) x := by
  intro i hi hpre
  have hle : i ≤ x.length := Nat.le_of_lt hi
  rw [List.drop_append_of_le_length hle, List.drop_eq_getElem_cons hi, List.cons_append,
    List.cons_prefix_cons] at hpre
  exact h (hpre.1 ▸ List.getElem_mem hi)

theorem absent_of_notMem {a : α} (ha : a ∈ sep) (h : a ∉ x) : Absent sep x := by
  intro i _ hpre
  exact h (List.mem_of_mem_drop (hpre.subset ha))

/-! ### Joined texts -/

theorem mem_of_mem_intercalate {a : α} {xs : List (List α)}
    (h : a ∈ sep.intercalate xs) : a ∈ sep ∨ ∃ x ∈ xs, a ∈ x := by
  induction xs with
  | nil => simp at h
  | cons x xs ih =>
    rcases eq_or_ne xs [] with rfl | hne
    · exact .inr ⟨x, by simp, by simpa using h⟩
    · rw [List.intercalate_cons_of_ne_nil hne, List.mem_append, List.mem_append] at h
      rcases h with (h | h) | h
      · exact .inr ⟨x, by simp, h⟩
      · exact .inl h
      · rcases ih h with h | ⟨y, hy, h⟩
        · exact .inl h
        · exact .inr ⟨y, by simp [hy], h⟩

theorem mem_intercalate {a : α} {xs : List (List α)} (hx : x ∈ xs) (ha : a ∈ x) :
    a ∈ sep.intercalate xs := by
  induction xs with
  | nil => cases hx
  | cons y xs ih =>
    rcases eq_or_ne xs [] with rfl | hne
    · rw [List.mem_singleton.mp hx] at ha
      simpa using ha
    · rw [List.intercalate_cons_of_ne_nil hne, List.mem_append, List.mem_append]
      rcases List.mem_cons.mp hx with rfl | hx
      · exact .inl (.inl ha)
      · exact .inr (ih hx)

/-! ### Splitting -/

variable [DecidableEq α]

/-- Cut at the separators after the first `n` symbols have been skipped. -/
def splitFrom (sep : List α) : ℕ → List α → List (List α)
  | _, [] => [[]]
  | n + 1, _ :: s => splitFrom sep n s
  | 0, c :: s =>
    if sep <+: c :: s then [] :: splitFrom sep (sep.length - 1) s
    else (splitFrom sep 0 s).modifyHead (c :: ·)

def split (sep s : List α) : List (List α) := splitFrom sep 0 s

theorem splitFrom_eq (n : ℕ) (s : List α) : splitFrom sep n s = split sep (s.drop n) := by
  induction n generalizing s with
  | zero => rfl
  | succ n ih =>
    cases s with
    | nil => rfl
    | cons c s =>
      rw [splitFrom, List.drop_succ_cons]
      exact ih s

/-- The first field is cut off. -/
theorem split_append (hsep : sep ≠ []) (hx : Inert sep x) (r : List α) :
    split sep (x ++ (sep ++ r)) = x :: split sep r := by
  induction x with
  | nil =>
    obtain ⟨c, s, rfl⟩ := List.exists_cons_of_ne_nil hsep
    have hpre : c :: s <+: c :: (s ++ r) := ⟨r, by simp⟩
    rw [List.nil_append, List.cons_append, split, splitFrom, if_pos hpre, splitFrom_eq]
    simp
  | cons c x ih =>
    have hpre : ¬ sep <+: c :: (x ++ (sep ++ r)) := by
      intro h
      refine hx 0 (by simp) (List.prefix_of_prefix_length_le h ⟨r, by simp⟩ ?_)
      simp only [List.drop_zero, List.length_append]
      omega
    rw [List.cons_append, split, splitFrom, if_neg hpre]
    show (split sep (x ++ (sep ++ r))).modifyHead (c :: ·) = _
    rw [ih hx.tail]
    rfl

/-- Two texts that agree have the same first field and the same rest. -/
theorem inert_append_inj (hsep : sep ≠ []) {y r r' : List α} (hx : Inert sep x) (hy : Inert sep y)
    (h : x ++ (sep ++ r) = y ++ (sep ++ r')) : x = y ∧ r = r' := by
  have hsplit := congrArg (split sep) h
  rw [split_append hsep hx, split_append hsep hy] at hsplit
  obtain rfl := (List.cons.inj hsplit).1
  exact ⟨rfl, by simpa using h⟩

theorem split_absent (hx : Absent sep x) : split sep x = [x] := by
  induction x with
  | nil => rfl
  | cons c x ih =>
    have hpre : ¬ sep <+: c :: x := hx 0 (by simp)
    rw [split, splitFrom, if_neg hpre]
    show (split sep x).modifyHead (c :: ·) = _
    rw [ih hx.tail]
    rfl

/-- The fields of a text are read back from it. -/
theorem split_intercalate (hsep : sep ≠ []) {xs : List (List α)} (hxs : ∀ x ∈ xs, Inert sep x)
    {y : List α} (hy : Absent sep y) : split sep (sep.intercalate (xs ++ [y])) = xs ++ [y] := by
  induction xs with
  | nil =>
    rw [List.nil_append, List.intercalate_singleton]
    exact split_absent hy
  | cons x xs ih =>
    have hne : xs ++ [y] ≠ [] := by simp
    rw [List.cons_append, List.intercalate_cons_of_ne_nil hne, List.append_assoc,
      split_append hsep (hxs x (by simp)), ih fun z hz => hxs z (by simp [hz])]

end Separated
