/-
Rounding to nearest, ties to even, in an ordered field.

A number of `p` digits is some `m · 2 ^ e` with `m < 2 ^ p`.  It is printed as
the multiple of a step that is nearest to it, and a text is read as the number
of `p` digits that is nearest to what it says.

* `Nearest.unique` — a number rounds to one integer;
* `Short.multiple` — a number of `p` digits is a multiple of the unit of the
  last place of any power of two below it;
* `reread_eq` — a step below that unit loses nothing;
* `reread` — what was printed and read back prints the same, and is within a
  step (`reread_dist`).
-/
import Mathlib.Algebra.Order.Field.Power
import Mathlib.Tactic.FieldSimp
import Mathlib.Tactic.Linarith
import Mathlib.Tactic.Positivity
import Mathlib.Tactic.Ring

namespace Rounding

variable {K : Type*} [Field K] [LinearOrder K] [IsStrictOrderedRing K]

/-- The integer `k` is nearest to `q`, and even when another is as near. -/
def Nearest (q : K) (k : ℤ) : Prop := |q - k| ≤ 1 / 2 ∧ (|q - k| = 1 / 2 → Even k)

omit [IsStrictOrderedRing K] in
theorem Nearest.of_lt {q : K} {k : ℤ} (h : |q - k| < 1 / 2) : Nearest q k :=
  ⟨h.le, fun heq => absurd heq h.ne⟩

theorem nearest_intCast (k : ℤ) : Nearest (k : K) k := by
  refine .of_lt ?_
  rw [sub_self, abs_zero]
  norm_num

/-- Rounding a ratio of integers, in integers. -/
theorem nearest_div {a b k : ℤ} (hb : 0 < b) : Nearest (a / b : K) k ↔
    2 * |a - k * b| ≤ b ∧ (2 * |a - k * b| = b → Even k) := by
  have hb' : (0 : K) < b := Int.cast_pos.mpr hb
  have heq : |(a / b : K) - k| = (|a - k * b| : ℤ) / b := by
    have hsub : (a / b : K) - k = (a - k * b) / b := by
      field_simp
    rw [hsub, abs_div, abs_of_pos hb']
    push_cast
    rfl
  rw [Nearest, heq, div_le_div_iff₀ hb' two_pos, div_eq_div_iff hb'.ne' two_ne_zero, one_mul,
    mul_comm]
  exact_mod_cast Iff.rfl

theorem Nearest.le {q : K} {k l : ℤ} (h : Nearest q k) (hq : q ≤ l) : k ≤ l := by
  have hlo := (abs_le.mp h.1).1
  have hlt : (k : K) < (l + 1 : ℤ) := by
    push_cast
    linarith
  exact Int.lt_add_one_iff.mp (Int.cast_lt.mp hlt)

theorem Nearest.ge {q : K} {k l : ℤ} (h : Nearest q k) (hq : (l : K) ≤ q) : l ≤ k := by
  have hhi := (abs_le.mp h.1).2
  have hlt : (l : K) < (k + 1 : ℤ) := by
    push_cast
    linarith
  exact Int.lt_add_one_iff.mp (Int.cast_lt.mp hlt)

theorem Nearest.unique {q : K} {k l : ℤ} (hk : Nearest q k) (hl : Nearest q l) : k = l := by
  -- two integers that are both nearest are neighbours, with `q` halfway
  have key : ∀ {k l : ℤ}, Nearest q k → Nearest q l → ¬ k < l := by
    intro k l hk hl hlt
    have hkq := (abs_le.mp hk.1).2
    have hlq := (abs_le.mp hl.1).1
    have hle : (k : K) + 1 ≤ l := by exact_mod_cast hlt
    have hkeven : Even k := hk.2 (by rw [abs_of_nonneg (by linarith)]; linarith)
    have hleven : Even l := hl.2 (by rw [abs_of_nonpos (by linarith)]; linarith)
    have hnext : l = k + 1 := by
      have hge : (l : K) ≤ (k + 1 : ℤ) := by
        push_cast
        linarith
      have := Int.cast_le.mp hge
      omega
    obtain ⟨a, ha⟩ := hkeven
    obtain ⟨b, hb⟩ := hleven
    omega
  exact le_antisymm (not_lt.mp (key hl hk)) (not_lt.mp (key hk hl))

/-! ### Numbers of so many digits -/

/-- The non-negative numbers of `p` binary digits. -/
def Short (p : ℕ) (x : K) : Prop := ∃ (m : ℕ) (e : ℤ), m < 2 ^ p ∧ x = m * 2 ^ e

theorem natCast_mul_zpow_lt {p m : ℕ} (hm : m < 2 ^ p) (e : ℤ) :
    (m * 2 ^ e : K) < 2 ^ (p + e : ℤ) := by
  have hm' : (m : K) < 2 ^ (p : ℤ) := by
    rw [zpow_natCast]
    exact_mod_cast hm
  rw [zpow_add₀ two_ne_zero]
  exact mul_lt_mul_of_pos_right hm' (zpow_pos two_pos e)

theorem Short.multiple {p : ℕ} {x : K} {e : ℤ} (h : Short p x) (he : (2 : K) ^ e ≤ x) :
    ∃ k : ℤ, x = k * 2 ^ (e + 1 - p) := by
  obtain ⟨m, f, hm, rfl⟩ := h
  have hlt : (2 : K) ^ e < 2 ^ (p + f : ℤ) := he.trans_lt (natCast_mul_zpow_lt hm f)
  have hef : e < p + f := (zpow_lt_zpow_iff_right₀ one_lt_two).mp hlt
  obtain ⟨n, hn⟩ := Int.eq_ofNat_of_zero_le (show 0 ≤ f - (e + 1 - p) by omega)
  refine ⟨m * 2 ^ n, ?_⟩
  have hpow : (2 : K) ^ f = 2 ^ n * 2 ^ (e + 1 - p) := by
    rw [← zpow_natCast, ← zpow_add₀ two_ne_zero]
    congr 1
    omega
  rw [hpow]
  push_cast
  ring

/-! ### Printing and reading back -/

section Reread

variable {p : ℕ} {e M r : ℤ} {x δ : K}

/-- What is printed is within half a step. -/
theorem Nearest.printed (hδ : 0 < δ) (hM : Nearest (x / δ) M) : |x - M * δ| ≤ δ / 2 := by
  have heq : x - M * δ = (x / δ - M) * δ := by
    field_simp
  rw [heq, abs_mul, abs_of_pos hδ]
  have := mul_le_mul_of_nonneg_right hM.1 hδ.le
  linarith

/-- With a step below the unit of the last place, the number itself is read back. -/
theorem reread_eq (hp : 0 < p) (hδ : 0 < δ) (hx : Short p x) (hM : Nearest (x / δ) M)
    (he : 2 ^ e ≤ M * δ) (hr : Nearest (M * δ / 2 ^ (e + 1 - p)) r)
    (hfine : δ < 2 ^ (e + 1 - p)) : r * 2 ^ (e + 1 - p) = x := by
  have hnear := abs_le.mp (hM.printed hδ)
  have hhalf : (2 : K) ^ (e + 1 - p) = 2 * 2 ^ (e - p) := by
    rw [show e + 1 - p = 1 + (e - p) by omega, zpow_add₀ two_ne_zero, zpow_one]
  have hu : (0 : K) < 2 ^ (e - p) := zpow_pos two_pos _
  -- `x` is a multiple of half a unit, so the power of two is not between it and the text
  have hbelow : (2 : K) ^ e ≤ x := by
    have hsmall : (2 : K) ^ (e - 1) ≤ x := by
      have hpow : (2 : K) ^ e = 2 * 2 ^ (e - 1) := by
        rw [← zpow_one_add₀ two_ne_zero]
        congr 1
        omega
      have hle : (2 : K) ^ (e - p) ≤ 2 ^ (e - 1) := zpow_le_zpow_right₀ one_le_two (by omega)
      linarith
    obtain ⟨k, hk⟩ := hx.multiple hsmall
    rw [show e - 1 + 1 - p = e - p by omega] at hk
    have hpow : (2 : K) ^ e = ((2 ^ p : ℤ) : K) * 2 ^ (e - p) := by
      push_cast
      rw [← zpow_natCast, ← zpow_add₀ two_ne_zero]
      congr 1
      omega
    by_contra hlt
    rw [not_le, hk, hpow, mul_lt_mul_iff_left₀ hu, Int.cast_lt] at hlt
    have hgap : (k : K) + 1 ≤ ((2 ^ p : ℤ) : K) := by exact_mod_cast hlt
    have := mul_le_mul_of_nonneg_right hgap hu.le
    linarith
  obtain ⟨k, hk⟩ := hx.multiple hbelow
  have hkr : Nearest (M * δ / 2 ^ (e + 1 - p)) k := by
    have hupos : (0 : K) < 2 ^ (e + 1 - p) := zpow_pos two_pos _
    have heq : M * δ / 2 ^ (e + 1 - p) - k = (M * δ - x) / 2 ^ (e + 1 - p) := by
      rw [hk]
      field_simp
    refine .of_lt ?_
    rw [heq, abs_div, abs_of_pos hupos, div_lt_iff₀ hupos, abs_sub_comm]
    have := hM.printed hδ
    linarith
  rw [hr.unique hkr, hk]

/-- With a step that is no smaller, what is read back rounds to the same step. -/
theorem reread_near (hδ : 0 < δ) (hr : Nearest (M * δ / 2 ^ (e + 1 - p)) r)
    (hcoarse : 2 ^ (e + 1 - p) ≤ δ) : Nearest (r * 2 ^ (e + 1 - p) / δ) M := by
  rcases hcoarse.eq_or_lt with heq | hlt
  · -- the text is on the grid
    rw [heq, mul_div_cancel_right₀ _ hδ.ne'] at hr
    rw [heq, mul_div_cancel_right₀ _ hδ.ne', hr.unique (nearest_intCast M)]
    exact nearest_intCast M
  · have hupos : (0 : K) < 2 ^ (e + 1 - p) := zpow_pos two_pos _
    have hread : |M * δ - r * 2 ^ (e + 1 - p)| ≤ 2 ^ (e + 1 - p) / 2 := hr.printed hupos
    have heq : r * 2 ^ (e + 1 - p) / δ - M = (r * 2 ^ (e + 1 - p) - M * δ) / δ := by
      field_simp
    refine .of_lt ?_
    rw [heq, abs_div, abs_of_pos hδ, div_lt_iff₀ hδ, abs_sub_comm]
    linarith

theorem reread (hp : 0 < p) (hδ : 0 < δ) (hx : Short p x) (hM : Nearest (x / δ) M)
    (he : 2 ^ e ≤ M * δ) (hr : Nearest (M * δ / 2 ^ (e + 1 - p)) r) :
    Nearest (r * 2 ^ (e + 1 - p) / δ) M := by
  rcases lt_or_ge δ (2 ^ (e + 1 - p)) with hfine | hcoarse
  · rw [reread_eq hp hδ hx hM he hr hfine]
    exact hM
  · exact reread_near hδ hr hcoarse

/-- What is read back is within a step. -/
theorem reread_dist (hp : 0 < p) (hδ : 0 < δ) (hx : Short p x) (hM : Nearest (x / δ) M)
    (he : 2 ^ e ≤ M * δ) (hr : Nearest (M * δ / 2 ^ (e + 1 - p)) r) :
    |r * 2 ^ (e + 1 - p) - x| ≤ δ := by
  rcases lt_or_ge δ (2 ^ (e + 1 - p)) with hfine | hcoarse
  · rw [reread_eq hp hδ hx hM he hr hfine, sub_self, abs_zero]
    exact hδ.le
  · have hread : |M * δ - r * 2 ^ (e + 1 - p)| ≤ 2 ^ (e + 1 - p) / 2 :=
      hr.printed (zpow_pos two_pos _)
    calc |r * 2 ^ (e + 1 - p) - x|
        = |(x - M * δ) + (M * δ - r * 2 ^ (e + 1 - p))| := by
          rw [abs_sub_comm]
          congr 1
          ring
      _ ≤ |x - M * δ| + |M * δ - r * 2 ^ (e + 1 - p)| := abs_add_le _ _
      _ ≤ δ := by
          have := hM.printed hδ
          linarith

end Reread

end Rounding
