/-
The text of a QUERY command.

`QUERY,s,e` with the bounds written in decimal is accepted and stands for the
range from `s` to `e`, whatever the width of `long` (`accepted_queryText`).
-/
import SensorGateway.Grammar

open CString

namespace TcpParser

variable {D : Type} [Libc D]

/-- The command a client types to see the records from `s` to `e`. -/
def queryText (s e : ℕ) : Bytes := bytes "QUERY," ++ decimal s ++ bytes "," ++ decimal e

theorem isdigit_of_mem_decimal {n : ℕ} {c : UInt8} (h : c ∈ decimal n) : isdigit c := by
  have hdig : ∀ c ∈ bytes "0123456789", isdigit c := by decide +kernel
  exact hdig c (Binary64.mem_decimal h)

theorem decimal_ne_nil (n : ℕ) : decimal n ≠ [] := by
  rw [decimal, ofChars, ne_eq, List.map_eq_nil_iff]
  exact Nat.toDigits_ne_nil

theorem digitsVal_decimal (n : ℕ) : digitsVal (decimal n) = n := by
  have key : ∀ (l : List Char) (m : ℕ), (∀ c ∈ l, c.isDigit) →
      (ofChars l).foldl (fun n c => 10 * n + (c.toNat - 48)) m = Nat.ofDigitChars 10 l m := by
    intro l
    induction l with
    | nil => intro m _; rfl
    | cons c l ih =>
      intro m hl
      have hc : c.isDigit := hl c (by simp)
      simp only [Char.isDigit, Bool.and_eq_true, decide_eq_true_eq] at hc
      have hle : c.toNat ≤ 57 := UInt32.le_iff_toNat_le.mp hc.2
      have hbyte : c.toNat.toUInt8.toNat = c.toNat := by
        rw [Nat.toUInt8, UInt8.toNat_ofNat']
        omega
      rw [Nat.ofDigitChars_cons]
      show (ofChars l).foldl _ (10 * m + (c.toNat.toUInt8.toNat - 48)) = _
      rw [hbyte, ih _ fun c hc => hl c (by simp [hc])]
      rfl
  rw [digitsVal, decimal,
    key _ _ fun c hc => Nat.isDigit_of_mem_toDigits (by decide) (by decide) hc]
  exact Nat.ofDigitChars_ten_toDigits

/-- A numeral is read whole, to its own value. -/
theorem strtol_decimal {w n : ℕ} (hw : n < 2 ^ (w - 1)) :
    strtol w (decimal n) = ⟨n, (decimal n).length, false⟩ := by
  obtain ⟨c, r, hcr⟩ := List.exists_cons_of_ne_nil (decimal_ne_nil n)
  have hdig : ∀ d ∈ decimal n, isdigit d := fun d hd => isdigit_of_mem_decimal hd
  have hc : isdigit c := hdig c (by rw [hcr]; simp)
  have hclass : ∀ c : UInt8, isdigit c → isspace c = false ∧ c ≠ 43 ∧ c ≠ 45 :=
    CString.forall_byte (by decide +kernel)
  obtain ⟨hsp, hplus, hminus⟩ := hclass c hc
  have hbody : (decimal n).dropWhile isspace = decimal n := by
    rw [hcr, List.dropWhile_cons_of_neg (by simp [hsp])]
  have hsign : skipSign (decimal n) = decimal n := by
    rw [hcr, skipSign, if_neg (by simp [hplus, hminus])]
  have htake : (decimal n).takeWhile isdigit = decimal n := List.takeWhile_eq_self_iff.mpr hdig
  have hdrop : (decimal n).dropWhile isdigit = [] := List.dropWhile_eq_nil_iff.mpr hdig
  have hhead : ¬ (decimal n).head? = some 45 := by
    rw [hcr, List.head?_cons, Option.some_inj]
    exact hminus
  have hclamp : clampLong w (n : ℤ) = ((n : ℤ), false) := by
    have hn : (n : ℤ) < 2 ^ (w - 1) := by exact_mod_cast hw
    have hpos : (0 : ℤ) < 2 ^ (w - 1) := by positivity
    rw [clampLong, if_neg (by omega), if_neg (by omega)]
  simp only [strtol, hbody, hsign, htake, hdrop, decimal_ne_nil, if_false, hhead,
    digitsVal_decimal, hclamp, List.length_nil, Nat.sub_zero]

theorem intOf_decimal {n : ℕ} (hn : n ≤ 2 ^ 31 - 1) :
    intOf (Libc.longBits D) (decimal n) = some (n : ℤ) := by
  have hpow : (2 : ℕ) ^ 31 ≤ 2 ^ (Libc.longBits D - 1) := by
    refine Nat.pow_le_pow_right (by decide) ?_
    rcases Libc.longBits_eq (D := D) with h | h <;> omega
  rw [intOf_eq_some]
  exact ⟨decimal_ne_nil n, strtol_decimal (by omega), by omega, by omega⟩

theorem strip_of_isdigit {s : Bytes} (hs : ∀ c ∈ s, isdigit c) : strip s = s := by
  have hclass : ∀ c : UInt8, isdigit c → isspace c = false :=
    CString.forall_byte (by decide +kernel)
  refine strip_eq_self ⟨?_, ?_⟩
  · rintro c r rfl
    exact hclass c (hs c (by simp))
  · rintro r c rfl
    exact hclass c (hs c (by simp))

theorem comma_notMem_decimal (n : ℕ) : (44 : UInt8) ∉ decimal n := fun h =>
  absurd (isdigit_of_mem_decimal h) (by decide)

theorem fieldsOf_queryText (s e : ℕ) :
    fieldsOf (queryText s e) = [bytes "QUERY", decimal s, decimal e] := by
  have htokens : tokens 44 (queryText s e) = [bytes "QUERY", decimal s, decimal e] := by
    have hshape : queryText s e = bytes "QUERY" ++ 44 :: (decimal s ++ 44 :: decimal e) := by
      simp [queryText, bytes, ofChars]
    rw [hshape, tokens_append_sep, tokens_append_sep, tokens_of_notMem (by decide) (by decide),
      tokens_of_notMem (comma_notMem_decimal s) (decimal_ne_nil s),
      tokens_of_notMem (comma_notMem_decimal e) (decimal_ne_nil e)]
    rfl
  have hQ : strip (bytes "QUERY") = bytes "QUERY" := by decide
  rw [fieldsOf, htokens, List.map_cons, List.map_cons, List.map_cons, hQ,
    strip_of_isdigit fun c hc => isdigit_of_mem_decimal hc,
    strip_of_isdigit fun c hc => isdigit_of_mem_decimal hc]
  rfl

theorem length_queryText {s e : ℕ} (hs : s ≤ 2 ^ 31 - 1) (he : e ≤ 2 ^ 31 - 1) :
    (queryText s e).length ≤ 27 := by
  have h1 : (decimal s).length ≤ 10 := (Binary64.length_decimal_le (by decide)).mpr (by omega)
  have h2 : (decimal e).length ≤ 10 := (Binary64.length_decimal_le (by decide)).mpr (by omega)
  have h3 : (bytes "QUERY,").length = 6 := rfl
  have h4 : (bytes ",").length = 1 := rfl
  simp only [queryText, List.length_append]
  omega

theorem accepted_queryText {s e : ℕ} (hse : s ≤ e) (he : e ≤ 2 ^ 31 - 1) :
    accepted (queryText s e) = some (⟨.query, .query ⟨s, e⟩⟩ : TcpCommand D) := by
  have hlen := length_queryText (hse.trans he) he
  rw [accepted, if_pos (by rw [TCP_PARSER_MAX_INPUT]; omega), fieldsOf_queryText, commandOf,
    if_pos rfl, intOf_decimal (hse.trans he), intOf_decimal he]
  simp [hse]

theorem zero_notMem_queryText (s e : ℕ) : (0 : UInt8) ∉ queryText s e := by
  have hdec : ∀ n, (0 : UInt8) ∉ decimal n := fun n h =>
    absurd (isdigit_of_mem_decimal h) (by decide)
  have hQ : (0 : UInt8) ∉ bytes "QUERY," := by decide
  have hcomma : (0 : UInt8) ∉ bytes "," := by decide
  simp [queryText, hdec, hQ, hcomma]

end TcpParser
