/-
Binary64 numbers: what `strtod` makes of a numeral and what `%.6f` prints.

A finite number is `± m · 2 ^ e` with `m < 2 ^ 53` and `e ≤ 971`, the bounds
being part of the value.  `ofRatio` rounds a ratio of naturals to nearest, ties
to even, and reports overflow and inexact underflow, where a result is tiny
when it is so after rounding, as on x86-64; `ofNumeral` reads the text of a
number; `fmt6` prints the exact value rounded to six decimals.

* `length_fmt6` — no number prints longer than 317 bytes;
* `fmt6_bytes` — the bytes that occur in print.
-/
import SensorGateway.Numerals

open CString

/-- `± m · 2 ^ e`, in range. -/
structure Finite64 where
  neg : Bool
  m : ℕ
  e : ℤ
  hm : m < 2 ^ 53
  he : e ≤ 971
  deriving DecidableEq

inductive Binary64
  | nan (neg : Bool)
  | inf (neg : Bool)
  | fin (x : Finite64)
  deriving DecidableEq

namespace Binary64

def zero (neg : Bool) : Binary64 := .fin ⟨neg, 0, 0, by decide, by decide⟩

/-- `num / den` to the nearest natural number, ties to even. -/
def roundEven (num den : ℕ) : ℕ :=
  let q := num / den
  let r := num % den
  if den < 2 * r ∨ (den = 2 * r ∧ q % 2 = 1) then q + 1 else q

/-- `m · 2 ^ e`, or infinity when that is out of range; the flag says so. -/
def pack (neg : Bool) (m : ℕ) (e : ℤ) : Binary64 × Bool :=
  if h : m < 2 ^ 53 ∧ e ≤ 971 then (.fin ⟨neg, m, e, h.1, h.2⟩, false)
  else if h : m = 2 ^ 53 ∧ e ≤ 970 then
    (.fin ⟨neg, 2 ^ 52, e + 1, by norm_num, by omega⟩, false)
  else (.inf neg, true)

/-- With a leading bit at `e`: below the normal numbers, and still so when rounded to 53 bits. -/
def tiny (num den : ℕ) (e : ℤ) : Bool :=
  e < -1022 && (e ≠ -1023 || roundEven (num * 2 ^ 1075) den ≠ 2 ^ 53)

/-- The double nearest to `num / den`, and whether `errno` becomes `ERANGE`. -/
def ofRatio (neg : Bool) (num den : ℕ) : Binary64 × Bool :=
  if num = 0 then (zero neg, false)
  else
    let e₀ : ℤ := (Nat.log2 num : ℤ) - Nat.log2 den
    -- the exponent of the leading bit is `e₀` or one less
    let small : Bool := if 0 ≤ e₀ then num < den * 2 ^ e₀.toNat else num * 2 ^ (-e₀).toNat < den
    let e : ℤ := if small then e₀ - 1 else e₀
    let ulp : ℤ := max (e - 52) (-1074)
    let n := if 0 ≤ ulp then num else num * 2 ^ (-ulp).toNat
    let d := if 0 ≤ ulp then den * 2 ^ ulp.toNat else den
    let r := pack neg (roundEven n d) ulp
    (r.1, r.2 || (n % d ≠ 0 && tiny num den e))

/-! ### Numerals -/

def hexVal (s : Bytes) : ℕ :=
  s.foldl (fun n c => 16 * n + (if isdigit c then c.toNat - 48 else (tolower c).toNat - 87)) 0

/-- `base ^ x` on the side of the fraction where it belongs. -/
def scale (neg : Bool) (m base : ℕ) (x : ℤ) : Binary64 × Bool :=
  if 0 ≤ x then ofRatio neg (m * base ^ x.toNat) 1 else ofRatio neg m (base ^ (-x).toNat)

/-- The exponent that follows a mark, if there is one. -/
def exponentVal (mark : UInt8) (s : Bytes) : ℤ :=
  match s with
  | [] => 0
  | c :: r =>
    if tolower c = mark then
      let v := digitsVal ((skipSign r).takeWhile isdigit)
      if r.head? = some 45 then -v else v
    else 0

/-- Digits before and after the point, and what follows them. -/
def splitMantissa (digit : UInt8 → Bool) (s : Bytes) : Bytes × Bytes × Bytes :=
  match s.dropWhile digit with
  | 46 :: f => (s.takeWhile digit, f.takeWhile digit, f.dropWhile digit)
  | r => (s.takeWhile digit, [], r)

/-- The value of a text that `strtod` takes for a number. -/
def ofNumeral (t : Bytes) : Binary64 × Bool :=
  let body := t.dropWhile isspace
  let neg := body.head? == some 45
  let s := skipSign body
  if (s.take 3).map tolower = bytes "inf" then (.inf neg, false)
  else if (s.take 3).map tolower = bytes "nan" then (.nan neg, false)
  else if (scanHex s).isSome then
    let (i, f, r) := splitMantissa isxdigit (s.drop 2)
    scale neg (hexVal (i ++ f)) 2 (exponentVal 112 r - 4 * f.length)
  else
    let (i, f, r) := splitMantissa isdigit s
    scale neg (digitsVal (i ++ f)) 10 (exponentVal 101 r - f.length)

/-! ### Printing -/

/-- The value in millionths, rounded. -/
def millionths (x : Finite64) : ℕ :=
  if 0 ≤ x.e then x.m * 2 ^ x.e.toNat * 10 ^ 6 else roundEven (x.m * 10 ^ 6) (2 ^ (-x.e).toNat)

/-- Six digits, with leading zeros. -/
def pad6 (n : ℕ) : Bytes := (decimal (10 ^ 6 + n)).tail

def sign (neg : Bool) : Bytes := if neg then bytes "-" else []

/-- `%.6f`. -/
def fmt6 : Binary64 → Bytes
  | .nan neg => sign neg ++ bytes "nan"
  | .inf neg => sign neg ++ bytes "inf"
  | .fin x =>
    sign x.neg ++ (decimal (millionths x / 10 ^ 6) ++ 46 :: pad6 (millionths x % 10 ^ 6))

example : fmt6 (ofNumeral (bytes "26.8")).1 = bytes "26.800000" := by decide +kernel
example : fmt6 (ofNumeral (bytes "-0x1.8p-1")).1 = bytes "-0.750000" := by decide +kernel
example : (ofNumeral (bytes "1e309")).2 = true := by decide +kernel
example : (ofNumeral (bytes "2.225073858507201e-308")).2 = true := by decide +kernel
-- a quarter of the last place below the normal numbers: rounded to 53 bits, it is one
example : (ofNumeral (bytes "2.2250738585072013e-308")).2 = false := by decide +kernel

theorem length_decimal_le {n k : ℕ} (hk : 0 < k) : (decimal n).length ≤ k ↔ n < 10 ^ k := by
  rw [decimal, ofChars, List.length_map]
  exact Nat.length_toDigits_le_iff (by decide) hk

theorem mem_decimal {n : ℕ} {c : UInt8} (h : c ∈ decimal n) : c ∈ bytes "0123456789" := by
  obtain ⟨d, hd, rfl⟩ := List.mem_map.mp h
  have hdig := Nat.isDigit_of_mem_toDigits (by decide) (by decide) hd
  have hle : 48 ≤ d.toNat ∧ d.toNat ≤ 57 := by
    simp only [Char.isDigit, Bool.and_eq_true, decide_eq_true_eq] at hdig
    exact ⟨UInt32.le_iff_toNat_le.mp hdig.1, UInt32.le_iff_toNat_le.mp hdig.2⟩
  obtain ⟨h1, h2⟩ := hle
  interval_cases d.toNat <;> decide

theorem roundEven_le (num den : ℕ) : roundEven num den ≤ num / den + 1 := by
  unfold roundEven
  simp only
  split <;> omega

theorem two_pow_lt_ten_pow {k : ℕ} (hk : k ≤ 1024) : 2 ^ k < 10 ^ 309 :=
  calc 2 ^ k ≤ 2 ^ 1024 := Nat.pow_le_pow_right (by decide) hk
    _ < 10 ^ 309 := by decide +kernel

/-- The integer part stays below `2 ^ 1024`. -/
theorem millionths_lt (x : Finite64) : millionths x / 10 ^ 6 < 10 ^ 309 := by
  have hm := x.hm
  have he := x.he
  unfold millionths
  split
  · rw [Nat.mul_div_cancel _ (by decide)]
    calc x.m * 2 ^ x.e.toNat ≤ 2 ^ 53 * 2 ^ x.e.toNat := Nat.mul_le_mul_right _ hm.le
      _ = 2 ^ (53 + x.e.toNat) := (pow_add 2 53 _).symm
      _ < 10 ^ 309 := two_pow_lt_ten_pow (by omega)
  · have h1 := roundEven_le (x.m * 10 ^ 6) (2 ^ (-x.e).toNat)
    have h2 : x.m * 10 ^ 6 / 2 ^ (-x.e).toNat ≤ x.m * 10 ^ 6 := Nat.div_le_self _ _
    have h3 : x.m * 10 ^ 6 < 2 ^ 53 * 10 ^ 6 := by omega
    calc roundEven (x.m * 10 ^ 6) (2 ^ (-x.e).toNat) / 10 ^ 6
        ≤ roundEven (x.m * 10 ^ 6) (2 ^ (-x.e).toNat) := Nat.div_le_self _ _
      _ ≤ 2 ^ 53 * 10 ^ 6 := by omega
      _ < 10 ^ 309 := by decide +kernel

theorem length_pad6 {n : ℕ} (h : n < 10 ^ 6) : (pad6 n).length ≤ 6 := by
  have := (length_decimal_le (n := 10 ^ 6 + n) (k := 7) (by decide)).mpr (by omega)
  rw [pad6, List.length_tail]
  omega

theorem length_sign_le (neg : Bool) : (sign neg).length ≤ 1 := by
  cases neg <;> decide

theorem length_fmt6 (d : Binary64) : (fmt6 d).length ≤ 317 := by
  cases d with
  | nan neg => cases neg <;> decide
  | inf neg => cases neg <;> decide
  | fin x =>
    have h1 := length_sign_le x.neg
    have h2 := (length_decimal_le (k := 309) (by decide)).mpr (millionths_lt x)
    have h3 := length_pad6 (Nat.mod_lt (millionths x) (by decide : 0 < 10 ^ 6))
    rw [fmt6]
    simp only [List.length_append, List.length_cons]
    omega

theorem fmt6_bytes (d : Binary64) : ∀ c ∈ fmt6 d, c ∈ bytes "-.0123456789infa" := by
  have hdig : ∀ c ∈ bytes "0123456789", c ∈ bytes "-.0123456789infa" := by decide +kernel
  have hsign : ∀ neg, ∀ c ∈ sign neg, c ∈ bytes "-.0123456789infa" := by decide +kernel
  have hnan : ∀ c ∈ bytes "nan", c ∈ bytes "-.0123456789infa" := by decide +kernel
  have hinf : ∀ c ∈ bytes "inf", c ∈ bytes "-.0123456789infa" := by decide +kernel
  intro c hc
  cases d with
  | nan neg =>
    rcases List.mem_append.mp hc with hc | hc
    · exact hsign neg c hc
    · exact hnan c hc
  | inf neg =>
    rcases List.mem_append.mp hc with hc | hc
    · exact hsign neg c hc
    · exact hinf c hc
  | fin x =>
    simp only [fmt6, List.mem_append, List.mem_cons] at hc
    rcases hc with hc | hc | rfl | hc
    · exact hsign _ c hc
    · exact hdig c (mem_decimal hc)
    · decide
    · exact hdig c (mem_decimal (List.mem_of_mem_tail hc))

end Binary64
