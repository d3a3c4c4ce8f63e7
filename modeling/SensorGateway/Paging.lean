/-
Keyset paging: reading an ascending list page by page while it grows.

Elements have keys in a linear order and a list is kept in ascending key order.
A reader asks for the next `n` elements after the last key it has seen; between
two pages the list may gain elements at its end.

* `Paged` — the history of such a reader: the states read and their pages;
* `Paged.flatten_eq` — when a page comes back empty, the pages together are the
  elements in range of the state read last, each once;
* `Paged.eq_windows` — on a list that stays the same the pages are its
  consecutive windows of `n` elements.
-/
import Mathlib.Data.List.Basic
import Mathlib.Data.List.Chain
import Mathlib.Order.Basic
import Mathlib.Tactic

namespace Paging

variable {α κ τ : Type} [LinearOrder κ] (key : α → κ)

abbrev Ascending (l : List α) : Prop := l.Pairwise fun x y => key x < key y

/-- The elements with a key above `lo` and at most `hi`. -/
def between (lo hi : κ) (l : List α) : List α := l.filter fun x => lo < key x ∧ key x ≤ hi

/-- The first `n` of them. -/
def page (n : ℕ) (lo hi : κ) (l : List α) : List α := (between key lo hi l).take n

variable {key} {lo m hi : κ} {l l' : List α} {x : α} {n : ℕ}

@[simp] theorem mem_between : x ∈ between key lo hi l ↔ x ∈ l ∧ lo < key x ∧ key x ≤ hi := by
  simp [between]

theorem Ascending.between (hl : Ascending key l) : Ascending key (between key lo hi l) :=
  hl.filter _

theorem between_eq_nil (h : ∀ y ∈ l, hi < key y) : between key lo hi l = [] := by
  rw [between, List.filter_eq_nil_iff]
  intro y hy
  simp [h y hy]

theorem between_self : between key lo lo l = [] := by
  rw [between, List.filter_eq_nil_iff]
  intro y _
  simp

/-- A range is read up to a key in it and then on from there. -/
theorem between_append (hl : Ascending key l) (h1 : lo ≤ m) (h2 : m ≤ hi) :
    between key lo hi l = between key lo m l ++ between key m hi l := by
  induction l with
  | nil => rfl
  | cons y l ih =>
    obtain ⟨hy, hl⟩ := List.pairwise_cons.mp hl
    have ih := ih hl
    by_cases hm : key y ≤ m
    · have hmy : ¬ (m < key y ∧ key y ≤ hi) := fun h => absurd h.1 (not_lt.mpr hm)
      rw [between, between, between, List.filter_cons, List.filter_cons, List.filter_cons_of_neg
        (by simpa using hmy)]
      by_cases hlo : lo < key y
      · rw [if_pos (by simpa using ⟨hlo, hm.trans h2⟩), if_pos (by simpa using ⟨hlo, hm⟩)]
        exact congrArg (y :: ·) ih
      · rw [if_neg (by simp [hlo]), if_neg (by simp [hlo])]
        exact ih
    · -- past `m`: the first part is over
      have hm := not_le.mp hm
      have hnil : between key lo m (y :: l) = [] := by
        refine between_eq_nil ?_
        rintro z (_ | ⟨_, hz⟩)
        · exact hm
        · exact hm.trans (hy z hz)
      rw [hnil, List.nil_append, between, between]
      refine List.filter_congr ?_
      rintro z (_ | ⟨_, hz⟩)
      · simp [hm, h1.trans_lt hm]
      · have := hm.trans (hy z hz)
        simp [this, h1.trans_lt this]

/-- Elements added at the end do not change what is below an earlier key. -/
theorem between_of_prefix (hl' : Ascending key l') (hp : l <+: l') (hx : x ∈ l) :
    between key lo (key x) l' = between key lo (key x) l := by
  obtain ⟨r, rfl⟩ := hp
  have hr : between key lo (key x) r = [] :=
    between_eq_nil fun y hy => (List.pairwise_append.mp hl').2.2 x hx y hy
  rw [between, List.filter_append]
  exact (congrArg _ hr).trans (List.append_nil _)

/-- Elements that are added at the end lengthen a page, if that. -/
theorem page_mono (h : l <+: l') : page key n lo hi l <+: page key n lo hi l' :=
  (h.filter _).take n

/-- A page is everything up to its last element. -/
theorem page_eq_between (hl : Ascending key l) (hx : (page key n lo hi l).getLast? = some x) :
    page key n lo hi l = between key lo (key x) l := by
  have hmem : x ∈ between key lo hi l := List.mem_of_mem_take (List.mem_of_getLast? hx)
  have hhi := (mem_between.mp hmem).2.2
  -- what is up to `x` is cut out of the whole range
  have hcut : between key lo (key x) l
      = (between key lo hi l).filter fun y => key y ≤ key x := by
    rw [between, between, List.filter_filter]
    refine List.filter_congr fun y _ => ?_
    by_cases hy : key y ≤ key x
    · simp [hy, hy.trans hhi]
    · simp [hy]
  have hasc : Ascending key (page key n lo hi l ++ (between key lo hi l).drop n) := by
    rw [page, List.take_append_drop]
    exact hl.between
  obtain ⟨hpage, -, hrest⟩ := List.pairwise_append.mp hasc
  obtain ⟨q, hq⟩ := List.getLast?_eq_some_iff.mp hx
  have hall : (between key lo hi l).filter (fun y => key y ≤ key x) = page key n lo hi l := by
    conv_lhs => rw [← List.take_append_drop n (between key lo hi l)]
    -- `x` is the last of its page, and what follows the page is above `x`
    have hself : (page key n lo hi l).filter (fun y => key y ≤ key x) = page key n lo hi l := by
      refine List.filter_eq_self.mpr fun y hy => ?_
      rw [hq] at hy hpage
      rcases List.mem_append.mp hy with hy | hy
      · exact decide_eq_true ((List.pairwise_append.mp hpage).2.2 y hy x (by simp)).le
      · rw [List.mem_singleton.mp hy]
        exact decide_eq_true le_rfl
    have hnil : ((between key lo hi l).drop n).filter (fun y => key y ≤ key x) = [] := by
      refine List.filter_eq_nil_iff.mpr fun y hy => ?_
      simpa using hrest x (List.mem_of_getLast? hx) y hy
    rw [List.filter_append]
    exact (congrArg₂ _ hself hnil).trans (List.append_nil _)
  rw [hcut, hall]

/-- What is left after a page. -/
theorem between_drop (hl : Ascending key l) (hx : (page key n lo hi l).getLast? = some x) :
    between key (key x) hi l = (between key lo hi l).drop n := by
  have hmem := mem_between.mp (List.mem_of_mem_take (List.mem_of_getLast? hx))
  have h1 := between_append hl hmem.2.1.le hmem.2.2
  rw [← page_eq_between hl hx, ← List.take_append_drop n (between key lo hi l)] at h1
  exact (List.append_cancel_left h1).symm

theorem exists_getLast? (h : l ≠ []) : ∃ x, l.getLast? = some x :=
  ⟨_, List.getLast?_eq_some_getLast h⟩

/-! ### The history of a reader -/

/-- The key the reader stands at after the pages `ps`. -/
def reached (key : α → κ) (lo : κ) (ps : List (List α)) : κ :=
  (ps.flatten.getLast?.map key).getD lo

omit [LinearOrder κ] in
theorem reached_concat {ps : List (List α)} {p : List α} (hx : p.getLast? = some x) :
    reached key lo (ps ++ [p]) = key x := by
  obtain ⟨q, rfl⟩ := List.getLast?_eq_some_iff.mp hx
  rw [reached, List.flatten_append, List.flatten_singleton, ← List.append_assoc,
    List.getLast?_concat]
  rfl

omit [LinearOrder κ] in
variable (key) in
theorem reached_singleton (lo : κ) (p : List α) (x : α) : reached key lo [p ++ [x]] = key x := by
  simp [reached]

variable (key) in
/-- States `Ts` have been read one after another, each grown from the one before
and the first from `T₀`, and gave the non-empty pages `ps`. -/
inductive Paged (rows : τ → List α) (grows : τ → τ → Prop) (n : ℕ) (lo hi : κ) (T₀ : τ) :
    List τ → List (List α) → Prop
  | nil : Paged rows grows n lo hi T₀ [] []
  | concat {Ts : List τ} {ps : List (List α)} {T : τ} (h : Paged rows grows n lo hi T₀ Ts ps)
      (hg : grows (Ts.getLast?.getD T₀) T)
      (hne : page key n (reached key lo ps) hi (rows T) ≠ []) :
      Paged rows grows n lo hi T₀ (Ts ++ [T])
        (ps ++ [page key n (reached key lo ps) hi (rows T)])

section history

variable {rows : τ → List α} {grows : τ → τ → Prop} {T₀ T : τ} {Ts : List τ} {ps : List (List α)}

theorem Paged.mono {grows' : τ → τ → Prop} (hg : ∀ T T', grows T T' → grows' T T')
    (h : Paged key rows grows n lo hi T₀ Ts ps) : Paged key rows grows' n lo hi T₀ Ts ps := by
  induction h with
  | nil => exact .nil
  | concat _ hT hne ih => exact ih.concat (hg _ _ hT) hne

theorem Paged.length_eq (h : Paged key rows grows n lo hi T₀ Ts ps) : Ts.length = ps.length := by
  induction h with
  | nil => rfl
  | concat _ _ _ ih => rw [List.length_append, List.length_append, ih]; rfl

theorem Paged.ne_nil (h : Paged key rows grows n lo hi T₀ Ts ps) : ∀ p ∈ ps, p ≠ [] := by
  induction h with
  | nil => simp
  | concat _ _ hne ih =>
    intro p hp
    rcases List.mem_append.mp hp with hp | hp
    · exact ih p hp
    · rw [List.mem_singleton.mp hp]
      exact hne

theorem Paged.bounds (h : Paged key rows grows n lo hi T₀ Ts ps) (hlo : lo ≤ hi) :
    lo ≤ reached key lo ps ∧ reached key lo ps ≤ hi := by
  induction h with
  | nil => exact ⟨le_rfl, hlo⟩
  | concat h hg hne ih =>
    obtain ⟨x, hx⟩ := exists_getLast? hne
    have hmem := mem_between.mp (List.mem_of_mem_take (List.mem_of_getLast? hx))
    rw [reached_concat hx]
    exact ⟨ih.1.trans hmem.2.1.le, hmem.2.2⟩

/-- The states read form a chain of growth. -/
theorem Paged.isChain (h : Paged key rows grows n lo hi T₀ Ts ps) :
    List.IsChain grows (T₀ :: Ts) ∧ (T₀ :: Ts).getLast? = some (Ts.getLast?.getD T₀) := by
  induction h with
  | nil => simp
  | @concat Ts ps T h hg _ ih =>
    have hlast : (T₀ :: (Ts ++ [T])).getLast? = some ((Ts ++ [T]).getLast?.getD T₀) := by
      rw [← List.cons_append, List.getLast?_concat, List.getLast?_concat]
      rfl
    refine ⟨?_, hlast⟩
    rw [← List.cons_append]
    refine ih.1.append (List.isChain_singleton T) ?_
    rintro x hx y hy
    obtain rfl : Ts.getLast?.getD T₀ = x := by simpa [ih.2] using hx
    obtain rfl : T = y := by simpa using hy
    exact hg

/-- The state read last has grown from the first. -/
theorem Paged.grows_last (hrefl : ∀ T, grows T T)
    (htrans : ∀ T₁ T₂ T₃, grows T₁ T₂ → grows T₂ T₃ → grows T₁ T₃)
    (h : Paged key rows grows n lo hi T₀ Ts ps) : grows T₀ (Ts.getLast?.getD T₀) := by
  induction h with
  | nil => exact hrefl T₀
  | concat _ hg _ ih =>
    rw [List.getLast?_concat]
    exact htrans _ _ _ ih hg

/-- However the state has grown since, the pages are what it holds up to the key
reached.  Each page adds what stands between two keys, and later elements come
after both. -/
theorem Paged.between_eq (h : Paged key rows grows n lo hi T₀ Ts ps)
    (hasc : ∀ T, Ascending key (rows T)) (hgrow : ∀ T T', grows T T' → rows T <+: rows T')
    (hlo : lo ≤ hi) (hg : grows (Ts.getLast?.getD T₀) T) :
    between key lo (reached key lo ps) (rows T) = ps.flatten := by
  induction h generalizing T with
  | nil => exact between_self
  | @concat Ts ps T₁ h hg₁ hne ih =>
    obtain ⟨x, hx⟩ := exists_getLast? hne
    have hmem := mem_between.mp (List.mem_of_mem_take (List.mem_of_getLast? hx))
    rw [List.getLast?_concat, Option.getD_some] at hg
    rw [reached_concat hx, between_of_prefix (hasc T) (hgrow _ _ hg) hmem.1,
      between_append (hasc T₁) (h.bounds hlo).1 hmem.2.1.le, ih hg₁,
      ← page_eq_between (hasc T₁) hx, List.flatten_append, List.flatten_singleton]

/-- A page that comes back empty ends the reading: nothing was skipped or read
twice with respect to the state it was taken from. -/
theorem Paged.flatten_eq (h : Paged key rows grows n lo hi T₀ Ts ps)
    (hasc : ∀ T, Ascending key (rows T)) (hgrow : ∀ T T', grows T T' → rows T <+: rows T')
    (hlo : lo ≤ hi) (hn : 0 < n) (hg : grows (Ts.getLast?.getD T₀) T)
    (hend : page key n (reached key lo ps) hi (rows T) = []) :
    ps.flatten = between key lo hi (rows T) := by
  have hnil : between key (reached key lo ps) hi (rows T) = [] := by
    rcases List.take_eq_nil_iff.mp hend with h0 | h0
    · omega
    · exact h0
  rw [between_append (hasc T) (h.bounds hlo).1 (h.bounds hlo).2, hnil, List.append_nil,
    h.between_eq hasc hgrow hlo hg]

/-- The `i`-th window of `n` elements. -/
def window (n : ℕ) (l : List α) (i : ℕ) : List α := (l.drop (n * i)).take n

/-- Nothing grows: every state read is the first, and what is left lies behind
the windows already read. -/
theorem Paged.eq_drop (h : Paged key rows Eq n lo hi T₀ Ts ps)
    (hasc : ∀ T, Ascending key (rows T)) :
    Ts.getLast?.getD T₀ = T₀ ∧ between key (reached key lo ps) hi (rows T₀)
      = (between key lo hi (rows T₀)).drop (n * ps.length) := by
  induction h with
  | nil => exact ⟨rfl, rfl⟩
  | @concat Ts ps T h hg hne ih =>
    obtain rfl : T₀ = T := ih.1.symm.trans hg
    obtain ⟨x, hx⟩ := exists_getLast? hne
    refine ⟨by simp, ?_⟩
    rw [reached_concat hx, between_drop (hasc _) hx, ih.2, List.drop_drop, List.length_append,
      List.length_singleton, Nat.mul_succ]

/-- On a state that stays the same the pages are its windows. -/
theorem Paged.eq_windows (h : Paged key rows Eq n lo hi T₀ Ts ps)
    (hasc : ∀ T, Ascending key (rows T)) :
    ps = (List.range ps.length).map (window n (between key lo hi (rows T₀))) := by
  induction h with
  | nil => rfl
  | @concat Ts ps T h hg hne ih =>
    have hdrop := h.eq_drop hasc
    obtain rfl : T₀ = T := hdrop.1.symm.trans hg
    rw [List.length_append, List.length_singleton, List.range_succ, List.map_append, ← ih,
      page, hdrop.2]
    rfl

end history

end Paging
