/-
Reading back what `%.6f` printed.

The report prints a stored double rounded to millionths and `parse_double` reads
a text as the double nearest to it.  The double that comes back may be another
one, but it prints the same.

* `millionths_nearest`, `significand_nearest` — both are `Rounding.Nearest`, at
  the step of a millionth and at the unit of the last place;
* `doubleOf_fmt6` — every double but a NaN prints as a text that `parse_double`
  takes for a `Close` one.
-/
import SensorGateway.QueryText
import SensorGateway.Rounding

open CString Rounding

/-- The absolute value. -/
def Finite64.magnitude (x : Finite64) : ℚ := x.m * 2 ^ x.e

theorem Finite64.short_magnitude (x : Finite64) : Short 53 x.magnitude :=
  ⟨x.m, x.e, x.hm, rfl⟩

namespace Binary64

/-! ### Rounding -/

theorem roundEven_nearest {num den : ℕ} (hden : 0 < den) :
    Nearest (num / den : ℚ) (roundEven num den) := by
  have hdiv : (num : ℤ) = (num / den : ℕ) * den + (num % den : ℕ) := by
    exact_mod_cast (Nat.div_add_mod' num den).symm
  have hmod := Nat.mod_lt num hden
  have hcast : (num / den : ℚ) = ((num : ℤ) / (den : ℤ) : ℚ) := by push_cast; rfl
  rw [hcast, nearest_div (by exact_mod_cast hden), roundEven]
  split
  · rename_i hup
    have hsub : (num : ℤ) - (num / den + 1 : ℕ) * den = -(den - (num % den : ℕ) : ℤ) := by
      push_cast at hdiv ⊢
      linarith
    rw [hsub, abs_neg, abs_of_nonneg (by omega)]
    refine ⟨by omega, fun htie => ?_⟩
    rw [Int.even_coe_nat, Nat.even_iff]
    omega
  · rename_i hdown
    have hsub : (num : ℤ) - (num / den : ℕ) * den = (num % den : ℕ) := by linarith
    rw [hsub, abs_of_nonneg (by omega)]
    refine ⟨by omega, fun htie => ?_⟩
    rw [Int.even_coe_nat, Nat.even_iff]
    omega

/-- The step of `%.6f`. -/
def step : ℚ := 1 / 10 ^ 6

theorem step_pos : 0 < step := by norm_num [step]

/-- The value in millionths, rounded, is rounding at the step of a millionth. -/
theorem millionths_nearest (x : Finite64) : Nearest (x.magnitude / step) (millionths x) := by
  rw [step, div_div_eq_mul_div, div_one, Finite64.magnitude, millionths]
  split
  · rename_i he
    obtain ⟨n, hn⟩ := Int.eq_ofNat_of_zero_le he
    have hcast : (x.m : ℚ) * 2 ^ x.e * 10 ^ 6 = ((x.m * 2 ^ x.e.toNat * 10 ^ 6 : ℕ) : ℤ) := by
      rw [hn]
      push_cast
      rw [zpow_natCast]
      rfl
    rw [hcast]
    exact nearest_intCast _
  · rename_i he
    obtain ⟨n, hn⟩ := Int.eq_ofNat_of_zero_le (show 0 ≤ -x.e by omega)
    have hcast : (x.m : ℚ) * 2 ^ x.e * 10 ^ 6
        = ((x.m * 10 ^ 6 : ℕ) : ℚ) / ((2 ^ (-x.e).toNat : ℕ) : ℚ) := by
      rw [show x.e = -(n : ℤ) by omega, zpow_neg, zpow_natCast, neg_neg, Int.toNat_natCast]
      push_cast
      ring
    rw [hcast]
    exact roundEven_nearest (by positivity)

/-- What prints is decided by the value. -/
theorem millionths_eq {x y : Finite64}
    (h : Nearest (y.magnitude / step) (millionths x)) : millionths y = millionths x := by
  exact_mod_cast (millionths_nearest y).unique h

/-! ### Reading a ratio -/

theorem log2_bounds {n : ℕ} (hn : n ≠ 0) :
    (2 : ℚ) ^ (Nat.log2 n : ℤ) ≤ n ∧ (n : ℚ) < 2 ^ (Nat.log2 n + 1 : ℤ) := by
  constructor
  · rw [zpow_natCast]
    exact_mod_cast Nat.log2_self_le hn
  · have := Nat.lt_log2_self (n := n)
    exact_mod_cast this

/-- In range, the pair names the value. -/
theorem pack_spec (neg : Bool) {r : ℕ} {u : ℤ} (hr : r ≤ 2 ^ 53) (hu : u ≤ 971)
    (hmax : r = 2 ^ 53 → u ≤ 970) : ∃ y : Finite64, pack neg r u = (.fin y, false) ∧
      y.neg = neg ∧ y.magnitude = r * 2 ^ u := by
  rcases hr.lt_or_eq with hlt | heq
  · refine ⟨⟨neg, r, u, hlt, hu⟩, ?_, rfl, rfl⟩
    rw [pack, dif_pos ⟨hlt, hu⟩]
  · refine ⟨⟨neg, 2 ^ 52, u + 1, by norm_num, by have := hmax heq; omega⟩, ?_, rfl, ?_⟩
    · rw [pack, dif_neg (by omega), dif_pos ⟨heq, hmax heq⟩]
    · rw [Finite64.magnitude, heq, zpow_add_one₀ two_ne_zero]
      push_cast
      ring

section Ratio

variable {num den : ℕ}

/-- `num / 2 ^ z`, with the power on the side of the fraction where it belongs. -/
def numerator (num : ℕ) (z : ℤ) : ℕ := if 0 ≤ z then num else num * 2 ^ (-z).toNat

def denominator (den : ℕ) (z : ℤ) : ℕ := if 0 ≤ z then den * 2 ^ z.toNat else den

/-- The exponent of the leading bit of `num / den`. -/
def exponent (num den : ℕ) : ℤ :=
  let e₀ : ℤ := (Nat.log2 num : ℤ) - Nat.log2 den
  let small : Bool := if 0 ≤ e₀ then num < den * 2 ^ e₀.toNat else num * 2 ^ (-e₀).toNat < den
  if small then e₀ - 1 else e₀

/-- The exponent of the last place. -/
def place (num den : ℕ) : ℤ := max (exponent num den - 52) (-1074)

def significand (num den : ℕ) : ℕ :=
  roundEven (numerator num (place num den)) (denominator den (place num den))

theorem ofRatio_eq (neg : Bool) (hnum : num ≠ 0) : ofRatio neg num den =
    ((pack neg (significand num den) (place num den)).1,
      (pack neg (significand num den) (place num den)).2 ||
        (numerator num (place num den) % denominator den (place num den) ≠ 0 &&
          tiny num den (exponent num den))) := by
  rw [ofRatio, if_neg hnum]
  rfl

theorem denominator_pos (hden : den ≠ 0) (z : ℤ) : 0 < denominator den z := by
  rw [denominator]
  split
  · exact Nat.mul_pos (Nat.pos_of_ne_zero hden) (by positivity)
  · exact Nat.pos_of_ne_zero hden

theorem numerator_div (num den : ℕ) (z : ℤ) :
    (numerator num z / denominator den z : ℚ) = num / den / 2 ^ z := by
  rw [numerator, denominator]
  split
  · rename_i hz
    obtain ⟨n, rfl⟩ := Int.eq_ofNat_of_zero_le hz
    rw [zpow_natCast, Int.toNat_natCast, div_div]
    push_cast
    rfl
  · rename_i hz
    obtain ⟨n, hn⟩ := Int.eq_ofNat_of_zero_le (show 0 ≤ -z by omega)
    rw [show z = -(n : ℤ) by omega, zpow_neg, zpow_natCast, neg_neg, Int.toNat_natCast,
      div_inv_eq_mul]
    push_cast
    ring

/-- Reading is rounding at the unit of the last place. -/
theorem significand_nearest (num : ℕ) (hden : den ≠ 0) :
    Nearest (num / den / 2 ^ place num den : ℚ) (significand num den) := by
  rw [← numerator_div]
  exact roundEven_nearest (denominator_pos hden _)

/-- The quotient of the leading bits is the exponent, or one too many. -/
theorem ratio_bounds (hnum : num ≠ 0) (hden : den ≠ 0) :
    (2 : ℚ) ^ ((Nat.log2 num : ℤ) - Nat.log2 den - 1) ≤ num / den ∧
      (num / den : ℚ) < 2 ^ ((Nat.log2 num : ℤ) - Nat.log2 den + 1) := by
  have hden' : (0 : ℚ) < den := by exact_mod_cast Nat.pos_of_ne_zero hden
  obtain ⟨hnlo, hnhi⟩ := log2_bounds hnum
  obtain ⟨hdlo, hdhi⟩ := log2_bounds hden
  have hnpos : (0 : ℚ) < 2 ^ ((Nat.log2 num : ℤ) - Nat.log2 den - 1) := zpow_pos two_pos _
  have hppos : (0 : ℚ) < 2 ^ ((Nat.log2 num : ℤ) - Nat.log2 den + 1) := zpow_pos two_pos _
  constructor
  · rw [le_div_iff₀ hden']
    calc (2 : ℚ) ^ ((Nat.log2 num : ℤ) - Nat.log2 den - 1) * den
        ≤ 2 ^ ((Nat.log2 num : ℤ) - Nat.log2 den - 1) * 2 ^ (Nat.log2 den + 1 : ℤ) :=
          mul_le_mul_of_nonneg_left hdhi.le hnpos.le
      _ = 2 ^ (Nat.log2 num : ℤ) := by
          rw [← zpow_add₀ two_ne_zero]
          congr 1
          omega
      _ ≤ num := hnlo
  · rw [div_lt_iff₀ hden']
    calc (num : ℚ) < 2 ^ (Nat.log2 num + 1 : ℤ) := hnhi
      _ = 2 ^ ((Nat.log2 num : ℤ) - Nat.log2 den + 1) * 2 ^ (Nat.log2 den : ℤ) := by
          rw [← zpow_add₀ two_ne_zero]
          congr 1
          omega
      _ ≤ 2 ^ ((Nat.log2 num : ℤ) - Nat.log2 den + 1) * den :=
          mul_le_mul_of_nonneg_left hdlo hppos.le

theorem exponent_spec (hnum : num ≠ 0) (hden : den ≠ 0) :
    (2 : ℚ) ^ exponent num den ≤ num / den ∧ (num / den : ℚ) < 2 ^ (exponent num den + 1) := by
  obtain ⟨hlo, hhi⟩ := ratio_bounds hnum hden
  set e₀ : ℤ := (Nat.log2 num : ℤ) - Nat.log2 den with he₀
  -- the comparison that decides is one of the scaled terms
  have hcomp : (if 0 ≤ e₀ then decide (num < den * 2 ^ e₀.toNat)
      else decide (num * 2 ^ (-e₀).toNat < den)) = true ↔ (num / den : ℚ) < 2 ^ e₀ := by
    have hpos : (0 : ℚ) < denominator den e₀ := by exact_mod_cast denominator_pos hden e₀
    have hpow : (0 : ℚ) < 2 ^ e₀ := zpow_pos two_pos _
    rw [← div_lt_one hpow, ← numerator_div, div_lt_one hpos, Nat.cast_lt, numerator, denominator]
    split
    · exact decide_eq_true_iff
    · exact decide_eq_true_iff
  by_cases hsmall : (num / den : ℚ) < 2 ^ e₀
  · have hexp : exponent num den = e₀ - 1 := if_pos (hcomp.mpr hsmall)
    rw [hexp, sub_add_cancel]
    exact ⟨hlo, hsmall⟩
  · have hexp : exponent num den = e₀ := if_neg fun h => hsmall (hcomp.mp h)
    rw [hexp]
    exact ⟨not_lt.mp hsmall, hhi⟩

/-- Above the subnormal numbers the significand has all its digits. -/
theorem significand_bounds (hnum : num ≠ 0) (hden : den ≠ 0)
    (hplace : place num den = exponent num den + 1 - (53 : ℕ)) :
    2 ^ 52 ≤ significand num den ∧ significand num den ≤ 2 ^ 53 := by
  obtain ⟨hlo, hhi⟩ := exponent_spec hnum hden
  have hnear := significand_nearest num hden
  have hpos : (0 : ℚ) < 2 ^ place num den := zpow_pos two_pos _
  have hpow : ∀ k : ℕ, ((2 ^ k : ℤ) : ℚ) * 2 ^ place num den = 2 ^ (k + place num den) := by
    intro k
    rw [zpow_add₀ two_ne_zero, zpow_natCast]
    push_cast
    rfl
  constructor
  · have hle : ((2 ^ 52 : ℤ) : ℚ) ≤ num / den / 2 ^ place num den := by
      rw [le_div_iff₀ hpos, hpow 52, hplace,
        show ((52 : ℕ) : ℤ) + (exponent num den + 1 - (53 : ℕ)) = exponent num den by omega]
      exact hlo
    exact_mod_cast hnear.ge hle
  · have hle : (num / den / 2 ^ place num den : ℚ) ≤ (2 ^ 53 : ℤ) := by
      rw [div_le_iff₀ hpos, hpow 53, hplace,
        show ((53 : ℕ) : ℤ) + (exponent num den + 1 - (53 : ℕ)) = exponent num den + 1 by omega]
      exact hhi.le
    exact_mod_cast hnear.le hle

end Ratio

/-! ### Reading what was printed -/

theorem magnitude_lt (x : Finite64) {e : ℤ} (he : 1024 ≤ e) : x.magnitude < 2 ^ e := by
  have hx : x.magnitude < 2 ^ ((53 : ℕ) + x.e : ℤ) := natCast_mul_zpow_lt x.hm x.e
  have hle : (53 : ℕ) + x.e ≤ e := by
    have := x.he
    omega
  exact hx.trans_le (zpow_le_zpow_right₀ one_le_two hle)

/-- A significand of a value in range leaves room for its exponent. -/
theorem place_lt {x : Finite64} {r k : ℕ} {u : ℤ} (h : (r : ℤ) * 2 ^ u = x.magnitude)
    (hk : 2 ^ k ≤ r) : k + u < 1024 := by
  by_contra hge
  have hlt := magnitude_lt x (not_lt.mp hge)
  have hk' : (2 : ℚ) ^ (k : ℤ) ≤ r := by
    rw [zpow_natCast]
    exact_mod_cast hk
  rw [← h, zpow_add₀ two_ne_zero, Int.cast_natCast] at hlt
  exact absurd hlt (not_lt.mpr (mul_le_mul_of_nonneg_right hk' (zpow_pos two_pos u).le))

/-- Two doubles that print the same: their signs are equal, their absolute values
at most a millionth apart, and from `2 ^ 33` on they are equal as well. -/
structure Near (x y : Finite64) : Prop where
  neg : y.neg = x.neg
  printed : millionths y = millionths x
  dist : |y.magnitude - x.magnitude| ≤ step
  eq : 2 ^ 33 ≤ x.magnitude → y.magnitude = x.magnitude

/-- A large number is more than its count of millionths can miss. -/
theorem le_millionths {x : Finite64} (h : 2 ^ 33 ≤ x.magnitude) :
    (2 : ℚ) ^ (33 : ℤ) ≤ (millionths x : ℤ) * step := by
  have hle : ((2 ^ 33 * 10 ^ 6 : ℤ) : ℚ) ≤ x.magnitude / step := by
    rw [le_div_iff₀ step_pos, step]
    push_cast
    linarith
  have hM : (2 ^ 33 * 10 ^ 6 : ℤ) ≤ millionths x := (millionths_nearest x).ge hle
  have hM' : (2 ^ 33 * 10 ^ 6 : ℚ) ≤ (millionths x : ℤ) := by exact_mod_cast hM
  have := mul_le_mul_of_nonneg_right hM' step_pos.le
  rw [step] at this ⊢
  norm_num at this ⊢
  linarith

theorem near_zero {x : Finite64} (hM : millionths x = 0) :
    Near x ⟨x.neg, 0, 0, by decide, by decide⟩ := by
  have hzero : Finite64.magnitude ⟨x.neg, 0, 0, by decide, by decide⟩ = 0 := by
    simp [Finite64.magnitude]
  have hdist : |x.magnitude| ≤ step / 2 := by
    have := (millionths_nearest x).printed step_pos
    simpa [hM] using this
  refine ⟨rfl, ?_, ?_, fun h => ?_⟩
  · rw [hM]
    simp [millionths]
  · rw [hzero, zero_sub, abs_neg]
    have := step_pos
    linarith
  · have hle := (le_abs_self _).trans hdist
    rw [step] at hle
    linarith

/-- A millionth is far above the least normal number. -/
theorem exponent_millionths {M : ℕ} (hM : M ≠ 0) : -20 ≤ exponent M (10 ^ 6) := by
  obtain ⟨-, hhi⟩ := exponent_spec hM (show 10 ^ 6 ≠ 0 by norm_num)
  have hM1 : (1 : ℚ) ≤ M := by exact_mod_cast Nat.one_le_iff_ne_zero.mpr hM
  have hlt : (2 : ℚ) ^ (-20 : ℤ) < 2 ^ (exponent M (10 ^ 6) + 1) := by
    refine lt_of_lt_of_le ?_ hhi.le
    calc (2 : ℚ) ^ (-20 : ℤ) < 1 / (10 ^ 6 : ℕ) := by norm_num
      _ ≤ M / (10 ^ 6 : ℕ) := div_le_div_of_nonneg_right hM1 (by norm_num)
  have := (zpow_lt_zpow_iff_right₀ one_lt_two).mp hlt
  omega

/-- What is read as `x` itself, or below the step, is in range. -/
theorem place_range {x : Finite64} {r : ℕ} {u : ℤ} (hr : 2 ^ 52 ≤ r)
    (h : step < 2 ^ u → (r : ℤ) * 2 ^ u = x.magnitude) : u ≤ 971 ∧ (r = 2 ^ 53 → u ≤ 970) := by
  rcases lt_or_ge step (2 ^ u) with hfine | hcoarse
  · have h52 := place_lt (h hfine) hr
    refine ⟨by omega, fun h53 => ?_⟩
    have := place_lt (h hfine) h53.ge
    omega
  · have hlt : (2 : ℚ) ^ u < 2 ^ (0 : ℤ) := hcoarse.trans_lt (by norm_num [step])
    have := (zpow_lt_zpow_iff_right₀ one_lt_two).mp hlt
    omega

/-- The printed number is read without range error, as a double that prints the same. -/
theorem ofRatio_millionths (x : Finite64) :
    ∃ y : Finite64, ofRatio x.neg (millionths x) (10 ^ 6) = (.fin y, false) ∧ Near x y := by
  by_cases hM : millionths x = 0
  · exact ⟨_, by rw [hM, ofRatio, if_pos rfl]; rfl, near_zero hM⟩
  have hx := millionths_nearest x
  have hlarge := le_millionths (x := x)
  have hlow := exponent_millionths hM
  set M := millionths x with hMdef
  have hden : 10 ^ 6 ≠ 0 := by norm_num
  have hq : ((M : ℕ) / (10 ^ 6 : ℕ) : ℚ) = ((M : ℕ) : ℤ) * step := by
    rw [step]
    push_cast
    ring
  obtain ⟨hlo, hhi⟩ := exponent_spec hM hden
  have hnear := significand_nearest M hden
  rw [hq] at hlo hhi hnear
  set e := exponent M (10 ^ 6) with he
  have hplace : place M (10 ^ 6) = e + 1 - (53 : ℕ) := by
    rw [place, ← he]
    push_cast
    omega
  rw [hplace] at hnear
  set u : ℤ := e + 1 - (53 : ℕ) with hu
  set r := significand M (10 ^ 6) with hr
  obtain ⟨hr52, hr53⟩ : 2 ^ 52 ≤ r ∧ r ≤ 2 ^ 53 := significand_bounds hM hden hplace
  have hexact : step < 2 ^ u → ((r : ℕ) : ℤ) * 2 ^ u = x.magnitude := fun hfine =>
    reread_eq (by decide) step_pos x.short_magnitude hx hlo hnear hfine
  obtain ⟨hmax, hmax'⟩ := place_range hr52 hexact
  obtain ⟨y, hy, hneg, hmag⟩ := pack_spec x.neg hr53 hmax hmax'
  refine ⟨y, ?_, hneg, millionths_eq ?_, ?_, fun h => ?_⟩
  · rw [ofRatio_eq _ hM, hplace, ← hr, hy, ← he]
    have hnormal : ¬ e < -1022 := by omega
    rw [tiny, decide_eq_false hnormal, Bool.false_and, Bool.and_false, Bool.or_false]
  · rw [hmag]
    exact reread (by decide) step_pos x.short_magnitude hx hlo hnear
  · rw [hmag]
    exact reread_dist (by decide) step_pos x.short_magnitude hx hlo hnear
  · have h33 := (zpow_lt_zpow_iff_right₀ one_lt_two).mp ((hlarge h).trans_lt hhi)
    have hstep : step < (2 : ℚ) ^ (-19 : ℤ) := by norm_num [step]
    rw [hmag]
    exact hexact (hstep.trans_le (zpow_le_zpow_right₀ one_le_two (by omega)))

/-! ### The text of a number -/

theorem digitsVal_append (s t : Bytes) :
    digitsVal (s ++ t) = digitsVal s * 10 ^ t.length + digitsVal t := by
  induction t using List.reverseRecOn with
  | nil => simp [digitsVal]
  | append_singleton t c ih =>
    have hstep : ∀ l : Bytes, digitsVal (l ++ [c]) = 10 * digitsVal l + (c.toNat - 48) := by
      intro l
      rw [digitsVal, List.foldl_append]
      rfl
    rw [← List.append_assoc, hstep, hstep, ih, List.length_append, List.length_singleton]
    ring

theorem digitsVal_lt {s : Bytes} (hs : ∀ c ∈ s, isdigit c) : digitsVal s < 10 ^ s.length := by
  have hdigit : ∀ c : UInt8, isdigit c → c.toNat - 48 < 10 :=
    CString.forall_byte (by decide +kernel)
  induction s using List.reverseRecOn with
  | nil => decide
  | append_singleton s c ih =>
    have hlast : digitsVal [c] < 10 := by simpa [digitsVal] using hdigit c (hs c (by simp))
    have := ih fun b hb => hs b (by simp [hb])
    rw [digitsVal_append, List.length_append, List.length_singleton, pow_one, pow_succ]
    omega

/-- Six digits, the value of which is the number. -/
theorem pad6_spec {n : ℕ} (hn : n < 10 ^ 6) : (pad6 n).length = 6 ∧ digitsVal (pad6 n) = n ∧
    ∀ c ∈ pad6 n, isdigit c := by
  have hdig : ∀ c ∈ decimal (10 ^ 6 + n), isdigit c := fun c hc =>
    TcpParser.isdigit_of_mem_decimal hc
  obtain ⟨c, f, hcf⟩ := List.exists_cons_of_ne_nil (TcpParser.decimal_ne_nil (10 ^ 6 + n))
  have hpad : pad6 n = f := by rw [pad6, hcf, List.tail_cons]
  have hlen : (decimal (10 ^ 6 + n)).length = 7 := by
    have h7 := (length_decimal_le (n := 10 ^ 6 + n) (k := 7) (by decide)).mpr (by omega)
    have h6 := (length_decimal_le (n := 10 ^ 6 + n) (k := 6) (by decide)).not.mpr (by omega)
    omega
  have hf : ∀ b ∈ f, isdigit b := fun b hb => hdig b (by rw [hcf]; simp [hb])
  have hflen : f.length = 6 := by
    rw [hcf, List.length_cons] at hlen
    omega
  have hval := TcpParser.digitsVal_decimal (10 ^ 6 + n)
  have hlt := digitsVal_lt hf
  rw [hcf, ← List.singleton_append, digitsVal_append, hflen] at hval
  rw [hflen] at hlt
  rw [hpad]
  exact ⟨hflen, by omega, hf⟩

/-- A decimal fraction: digits, the point and more digits. -/
structure Fraction (i f : Bytes) : Prop where
  ne_nil : i ≠ []
  whole : ∀ c ∈ i, isdigit c
  rest : ∀ c ∈ f, isdigit c

/-- A digit is no blank, no sign and no letter. -/
theorem digit_class {c : UInt8} (h : isdigit c) :
    isspace c = false ∧ c ≠ 43 ∧ c ≠ 45 ∧ tolower c ≠ 105 ∧ tolower c ≠ 110 ∧ tolower c ≠ 120 :=
  CString.forall_byte (P := fun c => isdigit c → isspace c = false ∧ c ≠ 43 ∧ c ≠ 45 ∧
    tolower c ≠ 105 ∧ tolower c ≠ 110 ∧ tolower c ≠ 120) (by decide +kernel) c h

namespace Fraction

variable {i f : Bytes}

theorem head (h : Fraction i f) : ∃ c t, i = c :: t ∧ isdigit c := by
  obtain ⟨c, t, rfl⟩ := List.exists_cons_of_ne_nil h.ne_nil
  exact ⟨c, t, rfl, h.whole c (by simp)⟩

theorem skipSign (h : Fraction i f) (neg : Bool) :
    skipSign (sign neg ++ (i ++ 46 :: f)) = i ++ 46 :: f := by
  obtain ⟨c, t, rfl, hc⟩ := h.head
  obtain ⟨-, hplus, hminus, -⟩ := digit_class hc
  cases neg with
  | false => rw [sign, if_neg (by decide), List.nil_append, List.cons_append, CString.skipSign,
      if_neg (by simp [hplus, hminus])]
  | true => rfl

theorem dropWhile_isspace (h : Fraction i f) (neg : Bool) :
    (sign neg ++ (i ++ 46 :: f)).dropWhile isspace = sign neg ++ (i ++ 46 :: f) := by
  obtain ⟨c, t, rfl, hc⟩ := h.head
  obtain ⟨hspace, -⟩ := digit_class hc
  cases neg with
  | false => rw [sign, if_neg (by decide), List.nil_append, List.cons_append,
      List.dropWhile_cons_of_neg (by simp [hspace])]
  | true => rfl

theorem head?_eq (h : Fraction i f) (neg : Bool) :
    ((sign neg ++ (i ++ 46 :: f)).head? == some 45) = neg := by
  obtain ⟨c, t, rfl, hc⟩ := h.head
  obtain ⟨-, -, hminus, -⟩ := digit_class hc
  cases neg with
  | false => simpa [sign] using hminus
  | true => rfl

/-- It does not start like a word. -/
theorem word_ne (h : Fraction i f) {w : UInt8} {ws : Bytes} (hw : w = 105 ∨ w = 110) (k : ℕ) :
    ((i ++ 46 :: f).take (k + 1)).map tolower ≠ w :: ws := by
  obtain ⟨c, t, rfl, hc⟩ := h.head
  obtain ⟨-, -, -, hinf, hnan, -⟩ := digit_class hc
  intro heq
  have hcw : tolower c = w := (List.cons.inj heq).1
  rcases hw with rfl | rfl
  · exact hinf hcw
  · exact hnan hcw

theorem scanHex_eq (h : Fraction i f) : scanHex (i ++ 46 :: f) = none := by
  obtain ⟨c, t, rfl, hc⟩ := h.head
  unfold scanHex
  split
  · rename_i x r hx
    -- behind the first digit stands the point or another digit
    have hsnd : tolower x ≠ 120 := by
      rw [List.cons_append] at hx
      obtain ⟨-, hx⟩ := List.cons.inj hx
      rcases t with _ | ⟨d, t⟩
      · obtain ⟨rfl, -⟩ := List.cons.inj hx
        decide
      · obtain ⟨rfl, -⟩ := List.cons.inj hx
        exact (digit_class (h.whole d (by simp))).2.2.2.2.2
    rw [if_neg hsnd]
  · rfl

theorem dropWhile_isdigit (h : Fraction i f) : (i ++ 46 :: f).dropWhile isdigit = 46 :: f := by
  rw [List.dropWhile_append_of_pos h.whole, List.dropWhile_cons_of_neg (by decide)]

theorem takeWhile_isdigit (h : Fraction i f) : (i ++ 46 :: f).takeWhile isdigit = i := by
  rw [List.takeWhile_append_of_pos h.whole, List.takeWhile_cons_of_neg (by decide),
    List.append_nil]

theorem splitMantissa_eq (h : Fraction i f) :
    splitMantissa isdigit (i ++ 46 :: f) = (i, f, []) := by
  rw [splitMantissa, h.dropWhile_isdigit]
  simp only
  rw [h.takeWhile_isdigit, List.takeWhile_eq_self_iff.mpr h.rest,
    List.dropWhile_eq_nil_iff.mpr h.rest]

theorem scanDecimal_eq (h : Fraction i f) : scanDecimal (i ++ 46 :: f) = some [] := by
  rw [scanDecimal, scanMantissa, h.dropWhile_isdigit]
  simp only
  rw [h.takeWhile_isdigit, if_neg fun hnil => h.ne_nil hnil.1,
    List.dropWhile_eq_nil_iff.mpr h.rest]
  rfl

/-- The text is read whole. -/
theorem strtodRest_eq (h : Fraction i f) (neg : Bool) :
    strtodRest (sign neg ++ (i ++ 46 :: f)) = some [] := by
  have hinfinity : scanWord (bytes "infinity") (i ++ 46 :: f) = none :=
    if_neg (h.word_ne (.inl rfl) _)
  have hinf : scanWord (bytes "inf") (i ++ 46 :: f) = none := if_neg (h.word_ne (.inl rfl) _)
  have hnan : scanWord (bytes "nan") (i ++ 46 :: f) = none := if_neg (h.word_ne (.inr rfl) _)
  rw [strtodRest, h.dropWhile_isspace, h.skipSign, scanNumber, hinfinity, hinf, hnan,
    h.scanHex_eq, h.scanDecimal_eq]
  rfl

/-- Its value is that of the digits, over a power of ten. -/
theorem ofNumeral_eq (h : Fraction i f) (neg : Bool) (hlen : 0 < f.length) :
    ofNumeral (sign neg ++ (i ++ 46 :: f))
      = ofRatio neg (digitsVal (i ++ f)) (10 ^ f.length) := by
  have hinf : ((i ++ 46 :: f).take 3).map tolower ≠ bytes "inf" := h.word_ne (.inl rfl) 2
  have hnan : ((i ++ 46 :: f).take 3).map tolower ≠ bytes "nan" := h.word_ne (.inr rfl) 2
  have hexp : exponentVal 101 [] - (f.length : ℤ) = -(f.length : ℤ) := by
    rw [exponentVal, zero_sub]
  simp only [ofNumeral, h.dropWhile_isspace, h.skipSign, h.head?_eq, hinf, hnan, if_false,
    h.scanHex_eq, Option.isSome_none, Bool.false_eq_true, h.splitMantissa_eq, hexp]
  rw [scale, if_neg (by omega), neg_neg, Int.toNat_natCast]

end Fraction

/-! ### Doubles -/

/-- The digits that `%.6f` prints for a value in millionths. -/
theorem fraction_millionths (M : ℕ) :
    Fraction (decimal (M / 10 ^ 6)) (pad6 (M % 10 ^ 6)) ∧ (pad6 (M % 10 ^ 6)).length = 6 ∧
      digitsVal (decimal (M / 10 ^ 6) ++ pad6 (M % 10 ^ 6)) = M := by
  obtain ⟨hlen, hval, hf⟩ := pad6_spec (Nat.mod_lt M (by decide : 0 < 10 ^ 6))
  refine ⟨⟨TcpParser.decimal_ne_nil _, fun c hc => TcpParser.isdigit_of_mem_decimal hc, hf⟩, hlen,
    ?_⟩
  rw [digitsVal_append, hlen, hval, TcpParser.digitsVal_decimal, Nat.div_add_mod']

/-- Infinities are equal and finite numbers close. -/
inductive Close : Binary64 → Binary64 → Prop
  | inf (neg : Bool) : Close (.inf neg) (.inf neg)
  | fin {x y : Finite64} (h : Near x y) : Close (.fin x) (.fin y)

theorem Close.fmt6 {v w : Binary64} (h : Close v w) : fmt6 w = fmt6 v := by
  cases h with
  | inf neg => rfl
  | fin h => rw [Binary64.fmt6, Binary64.fmt6, h.neg, h.printed]

theorem Close.not_nan {v w : Binary64} (h : Close v w) : isNan w = false := by
  cases h with
  | inf neg => rfl
  | fin h => rfl

/-- What `strtod` makes of a text that `%.6f` printed. -/
theorem ofNumeral_fmt6 {v : Binary64} (hv : isNan v = false) : ∃ w : Binary64,
    strtodRest (fmt6 v) = some [] ∧ ofNumeral (fmt6 v) = (w, false) ∧ Close v w := by
  cases v with
  | nan neg => cases hv
  | inf neg =>
    refine ⟨.inf neg, ?_, ?_, .inf neg⟩
    · cases neg <;> decide
    · cases neg <;> decide +kernel
  | fin x =>
    obtain ⟨hfrac, hlen, hval⟩ := fraction_millionths (millionths x)
    obtain ⟨y, hy, hnear⟩ := ofRatio_millionths x
    refine ⟨.fin y, hfrac.strtodRest_eq _, ?_, .fin hnear⟩
    rw [fmt6, hfrac.ofNumeral_eq _ (by omega), hval, hlen, hy]

/-- A zero with a sign. -/
def isNegZero : Binary64 → Bool
  | .fin x => x.neg && x.m == 0
  | _ => false

theorem fmt6_of_isNegZero {v : Binary64} (h : v.isNegZero) : fmt6 v = bytes "-0.000000" := by
  cases v with
  | fin x =>
    obtain ⟨hneg, hm⟩ : x.neg = true ∧ x.m = 0 := by simpa [isNegZero] using h
    have hzero : millionths x = 0 := by
      rw [millionths, hm]
      split
      · simp
      · simp [roundEven]
    rw [fmt6, hneg, hzero]
    decide +kernel
  | _ => cases h

theorem fmt6_ne_nil (v : Binary64) : fmt6 v ≠ [] := by
  cases v with
  | nan neg => simp [fmt6, bytes, ofChars]
  | inf neg => simp [fmt6, bytes, ofChars]
  | fin x => simp [fmt6]

theorem doubleOf_fmt6 {v : Binary64} (hv : isNan v = false) : ∃ w : Binary64,
    TcpParser.doubleOf (fmt6 v) = some w ∧ Close v w := by
  obtain ⟨w, hrest, hread, hclose⟩ := ofNumeral_fmt6 hv
  refine ⟨w, ?_, hclose⟩
  have hvalue : Libc.toDouble (fmt6 v) = w := congrArg Prod.fst hread
  have herr : Libc.rangeError Binary64 (fmt6 v) = false := congrArg Prod.snd hread
  simp only [TcpParser.doubleOf, TcpParser.strtod, hrest, List.length_nil, Nat.sub_zero,
    List.take_length, hvalue, herr]
  simp [fmt6_ne_nil]

end Binary64
