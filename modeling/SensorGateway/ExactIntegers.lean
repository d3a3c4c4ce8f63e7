/-
`parse_int` is exact, at both widths of `long`.

The C function leaves it to `strtol` to find the digits, to `errno` to tell of a
value that does not fit a `long`, and to a comparison of its own to tell of one
that does not fit an `int`.

* `parseInt_exact` — it returns 0 just on the texts of the numbers 0 to 2^31-1,
  with the number itself, and leaves `*value` alone on all others; a `long` of
  32 bits and one of 64 make no difference;
* `strtol_le_intMax` — with 32 bits the comparison is never true.
-/
import SensorGateway.Grammar
import Mathlib.Data.Nat.Digits.Defs

open CString

namespace TcpParser

variable {w : ℕ} {s str ws sign digits : Bytes} {v value : ℤ}

/-- `parse_int(str, value)`: the return code and what `*value` holds then. -/
def parseIntInto (w : ℕ) (str : Bytes) (value : ℤ) : ℤ × ℤ :=
  let r := strtol w str
  if r.endp = 0 ∨ r.endp ≠ str.length ∨ r.erange then (-1, value)
  else if r.value < 0 ∨ r.value > 2147483647 then (-1, value)
  else
    -- `(int)result`
    (0, r.value.bmod (2 ^ 32))

/-! ### The text of a number -/

/-- The number that the digits denote. -/
def exactValue (digits : Bytes) : ℕ := Nat.ofDigits 10 (digits.reverse.map fun c => c.toNat - 48)

/-- Optional whitespace, an optional sign and at least one digit. -/
structure IntText (ws sign digits : Bytes) : Prop where
  blank : ∀ c ∈ ws, isspace c
  sign : sign = [] ∨ sign = bytes "+" ∨ sign = bytes "-"
  digits_ne_nil : digits ≠ []
  digits : ∀ c ∈ digits, isdigit c

/-- The whole of `str` is the text of the integer `v`. -/
def Denotes (str : Bytes) (v : ℤ) : Prop :=
  ∃ ws sign digits, str = ws ++ (sign ++ digits) ∧ IntText ws sign digits ∧
    v = if sign = bytes "-" then -(exactValue digits : ℤ) else exactValue digits

theorem digitsVal_eq_exactValue (digits : Bytes) : digitsVal digits = exactValue digits := by
  induction digits using List.reverseRecOn with
  | nil => rfl
  | append_singleton l c ih =>
    rw [digitsVal] at ih
    rw [digitsVal, List.foldl_append, List.foldl_cons, List.foldl_nil, ih, exactValue, exactValue,
      List.reverse_concat, List.map_cons, Nat.ofDigits_cons]
    omega

/-! ### What strtol reads -/

/-- `skipSign` takes off one sign at most. -/
theorem skipSign_cases (s : Bytes) : ∃ sign, s = sign ++ skipSign s ∧
    (sign = [] ∨ sign = bytes "+" ∨ sign = bytes "-") := by
  cases s with
  | nil => exact ⟨[], rfl, .inl rfl⟩
  | cons c s =>
    by_cases hplus : c = 43
    · exact ⟨[c], by simp [skipSign, hplus], .inr (.inl (by rw [hplus]; rfl))⟩
    by_cases hminus : c = 45
    · exact ⟨[c], by simp [skipSign, hminus], .inr (.inr (by rw [hminus]; rfl))⟩
    · exact ⟨[], by simp [skipSign, hplus, hminus], .inl rfl⟩

theorem digit_class {c : UInt8} (h : isdigit c) : isspace c = false ∧ c ≠ 43 ∧ c ≠ 45 :=
  CString.forall_byte (P := fun c => isdigit c → isspace c = false ∧ c ≠ 43 ∧ c ≠ 45)
    (by decide +kernel) c h

/-- The sign is skipped, and the digits after it are not. -/
theorem IntText.skipSign (h : IntText ws sign digits) : skipSign (sign ++ digits) = digits := by
  obtain ⟨c, r, rfl⟩ := List.exists_cons_of_ne_nil h.digits_ne_nil
  obtain ⟨-, hplus, hminus⟩ := digit_class (h.digits c (by simp))
  rcases h.sign with rfl | rfl | rfl
  · rw [List.nil_append, CString.skipSign, if_neg (by simp [hplus, hminus])]
  · rfl
  · rfl

theorem IntText.body (h : IntText ws sign digits) :
    (ws ++ (sign ++ digits)).dropWhile isspace = sign ++ digits := by
  obtain ⟨c, r, rfl⟩ := List.exists_cons_of_ne_nil h.digits_ne_nil
  obtain ⟨hc, -, -⟩ := digit_class (h.digits c (by simp))
  rw [List.dropWhile_append_of_pos h.blank]
  rcases h.sign with rfl | rfl | rfl
  · rw [List.nil_append, List.dropWhile_cons_of_neg (by simp [hc])]
  · rfl
  · rfl

theorem IntText.head? (h : IntText ws sign digits) :
    (sign ++ digits).head? = some 45 ↔ sign = bytes "-" := by
  obtain ⟨c, r, rfl⟩ := List.exists_cons_of_ne_nil h.digits_ne_nil
  obtain ⟨-, -, hminus⟩ := digit_class (h.digits c (by simp))
  rcases h.sign with rfl | rfl | rfl
  · simpa [bytes, ofChars] using hminus
  · simp [bytes, ofChars]
  · simp [bytes, ofChars]

/-- `strtol` reads the text of a number whole, and clamps the number. -/
theorem strtol_of_denotes (w : ℕ) (h : Denotes s v) :
    s ≠ [] ∧ strtol w s = ⟨(clampLong w v).1, s.length, (clampLong w v).2⟩ := by
  obtain ⟨ws, sign, digits, rfl, ht, rfl⟩ := h
  have htake : digits.takeWhile isdigit = digits := List.takeWhile_eq_self_iff.mpr ht.digits
  have hdrop : digits.dropWhile isdigit = [] := List.dropWhile_eq_nil_iff.mpr ht.digits
  refine ⟨by simp [ht.digits_ne_nil], ?_⟩
  simp only [strtol, ht.body, ht.skipSign, htake, hdrop, ht.digits_ne_nil, if_false, ht.head?,
    digitsVal_eq_exactValue, List.length_nil, Nat.sub_zero]

/-- What `strtol` reads to its end is the text of a number. -/
theorem denotes_of_strtol (h0 : (strtol w s).endp ≠ 0) (hend : (strtol w s).endp = s.length) :
    ∃ v, Denotes s v := by
  obtain ⟨ws, hws, hblank⟩ := takeWhile_decomp isspace s
  obtain ⟨sign, hsign, hone⟩ := skipSign_cases (s.dropWhile isspace)
  obtain ⟨digits, hdigits, hdig⟩ := takeWhile_decomp isdigit (skipSign (s.dropWhile isspace))
  have hne : (skipSign (s.dropWhile isspace)).takeWhile isdigit ≠ [] := by
    intro hnil
    simp [strtol, hnil] at h0
  -- nothing is left behind the digits
  have hrest : (skipSign (s.dropWhile isspace)).dropWhile isdigit = [] := by
    simp only [strtol, hne, if_false] at h0 hend
    rw [← List.length_eq_zero_iff]
    omega
  rw [hrest, List.append_nil] at hdigits
  have hall : (skipSign (s.dropWhile isspace)).takeWhile isdigit = digits := by
    rw [hdigits]
    exact List.takeWhile_eq_self_iff.mpr hdig
  rw [hall] at hne
  refine ⟨_, ws, sign, digits, ?_, ⟨hblank, hone, hne, hdig⟩, rfl⟩
  rw [← hdigits, ← hsign]
  exact hws

/-! ### The two widths -/

theorem clampLong_of_mem (hw : 32 ≤ w) (h0 : 0 ≤ v) (hv : v ≤ 2 ^ 31 - 1) :
    clampLong w v = (v, false) := by
  have hpow : (2 : ℤ) ^ 31 ≤ 2 ^ (w - 1) := pow_le_pow_right₀ (by omega) (by omega)
  have hneg : -2 ^ (w - 1) ≤ v := by omega
  rw [clampLong, if_neg (by omega), if_neg (by omega)]

/-- Without range error the value is the number itself. -/
theorem clampLong_eq (h : (clampLong w v).2 = false) : (clampLong w v).1 = v := by
  unfold clampLong at h ⊢
  split at h
  · cases h
  · split at h
    · cases h
    · rename_i hhi hlo
      rw [if_neg hhi, if_neg hlo]

/-- The checks of `parse_int` pass just on the texts of the numbers that fit a
non-negative `int`. -/
theorem intOf_iff (hw : 32 ≤ w) :
    intOf w str = some v ↔ Denotes str v ∧ 0 ≤ v ∧ v ≤ 2 ^ 31 - 1 := by
  rw [intOf_eq_some, WholeInt]
  constructor
  · rintro ⟨hne, hread, h0, hv⟩
    have hend : (strtol w str).endp = str.length := by rw [hread]
    have hpos : (strtol w str).endp ≠ 0 := by
      rw [hend]
      exact fun h => hne (List.length_eq_zero_iff.mp h)
    obtain ⟨u, hu⟩ := denotes_of_strtol hpos hend
    -- no range error, so `u` has not been clamped
    obtain ⟨hval, herr⟩ : (clampLong w u).1 = v ∧ (clampLong w u).2 = false := by
      have hclamp := (strtol_of_denotes w hu).2
      rw [hread] at hclamp
      obtain ⟨hval, -, herr⟩ := (StrtolResult.mk.injEq ..).mp hclamp
      exact ⟨hval.symm, herr.symm⟩
    rw [clampLong_eq herr] at hval
    exact ⟨hval ▸ hu, h0, hv⟩
  · rintro ⟨hd, h0, hv⟩
    obtain ⟨hne, hread⟩ := strtol_of_denotes w hd
    rw [clampLong_of_mem hw h0 hv] at hread
    exact ⟨hne, hread, h0, hv⟩

/-- With a `long` of 32 bits the comparison `result > 2147483647L` is false. -/
theorem strtol_le_intMax (str : Bytes) : (strtol 32 str).value ≤ 2147483647 := by
  have hclamp : ∀ u : ℤ, (clampLong 32 u).1 ≤ 2147483647 := by
    intro u
    unfold clampLong
    split
    · decide
    · split
      · decide
      · omega
  simp only [strtol]
  split
  · decide
  · exact hclamp _

/-- The conversion to `int` changes nothing: the parser's `intOf` tells what
`parse_int` returns and stores. -/
theorem parseIntInto_eq (w : ℕ) (str : Bytes) (value : ℤ) :
    parseIntInto w str value = ((intOf w str).elim (-1, value) fun v => (0, v)) := by
  simp only [parseIntInto, intOf]
  split
  · rfl
  · split
    · rfl
    · rename_i hrange
      rw [Option.elim_some, Int.bmod_eq_of_le (by omega) (by omega)]

/-! ### Exactness -/

/-- What is asked of `parse_int` on the string `str`, with `value` in `*value`. -/
structure ExactInt (str : Bytes) (value : ℤ) : Prop where
  accepts : ∀ w, 32 ≤ w → ∀ v,
    parseIntInto w str value = (0, v) ↔ Denotes str v ∧ 0 ≤ v ∧ v ≤ 2 ^ 31 - 1
  rejects : ∀ w, 32 ≤ w → (¬∃ v, Denotes str v ∧ 0 ≤ v ∧ v ≤ 2 ^ 31 - 1) →
    parseIntInto w str value = (-1, value)
  same : parseIntInto 64 str value = parseIntInto 32 str value
  idle : ¬(strtol 32 str).value > 2147483647

theorem parseIntInto_accepts (hw : 32 ≤ w) :
    parseIntInto w str value = (0, v) ↔ Denotes str v ∧ 0 ≤ v ∧ v ≤ 2 ^ 31 - 1 := by
  rw [parseIntInto_eq, ← intOf_iff hw]
  cases intOf w str with
  | none => simp
  | some u => simp

theorem parseIntInto_rejects (hw : 32 ≤ w)
    (h : ¬∃ v, Denotes str v ∧ 0 ≤ v ∧ v ≤ 2 ^ 31 - 1) :
    parseIntInto w str value = (-1, value) := by
  have hnone : intOf w str = none := by
    rw [Option.eq_none_iff_forall_ne_some]
    exact fun v hv => h ⟨v, (intOf_iff hw).mp hv⟩
  rw [parseIntInto_eq, hnone, Option.elim_none]

/-- `parse_int` agrees with exact integer arithmetic, and so do the two targets
with each other. -/
theorem parseInt_exact (str : Bytes) (value : ℤ) : ExactInt str value where
  accepts w hw v := parseIntInto_accepts hw
  rejects w hw h := parseIntInto_rejects hw h
  same := by
    by_cases h : ∃ v, Denotes str v ∧ 0 ≤ v ∧ v ≤ 2 ^ 31 - 1
    · obtain ⟨v, hv⟩ := h
      rw [(parseIntInto_accepts (by omega)).mpr hv, (parseIntInto_accepts (by omega)).mpr hv]
    · rw [parseIntInto_rejects (by omega) h, parseIntInto_rejects (by omega) h]
  idle := not_lt.mpr (strtol_le_intMax str)

/-- The parser runs this `parse_int` on the string at `str`: it changes nothing in
memory, fails when -1 is returned and yields what is stored when 0 is. -/
theorem parseInt_evals (w : ℕ) (str : Ptr) (mem : ParserMem) (value : ℤ) :
    ∃ r, Prog.Evals parserStep (parseInt w str) mem r mem ∧
      parseIntInto w (cstr (mem.buffers str.1) str.2) value =
        (r.elim (-1, value) fun v => (0, v)) :=
  ⟨_, ⟨0, rfl⟩, parseIntInto_eq w _ value⟩

-- 2^31 is out of range at both widths, by `errno` here and by the comparison there
example : parseIntInto 32 (bytes "2147483648") 7 = (-1, 7) := by decide
example : parseIntInto 64 (bytes " +0012") 7 = (0, 12) := by decide

end TcpParser
