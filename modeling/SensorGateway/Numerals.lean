/-
The numeral grammars of <stdlib.h>: `strtol` in base 10 and the part of
`strtod` that decides how far a number reaches.

`strtodRest s` is what follows the longest prefix of `s` that has the form of
a number (sign, decimal or hexadecimal digits, exponent, `inf`, `nan`), as the
C standard lists them for the C locale; the value of that prefix is left to
whoever uses the grammar.

* `scanNumber_decomp` — the bytes a number is made of;
* `scanNumber_extend` — a number that is continued by one of the letters
  `S`, `Q`, `H` is no number: only the text between the parentheses of `nan(…)`
  may hold them.
-/
import SensorGateway.CString

namespace CString

/-- Skip one optional sign. -/
def skipSign : Bytes → Bytes
  | [] => []
  | c :: s => if c = 43 ∨ c = 45 then s else c :: s

/-! ### strtol -/

def digitsVal (s : Bytes) : ℕ := s.foldl (fun n c => 10 * n + (c.toNat - 48)) 0

structure StrtolResult where
  value : ℤ
  endp : ℕ
  erange : Bool

/-- The value as a `w`-bit `long`: clamped, with `ERANGE`, when it does not fit. -/
def clampLong (w : ℕ) (v : ℤ) : ℤ × Bool :=
  if 2 ^ (w - 1) ≤ v then (2 ^ (w - 1) - 1, true)
  else if v < -2 ^ (w - 1) then (-2 ^ (w - 1), true)
  else (v, false)

/-- `strtol(str, &end, 10)` on a `w`-bit `long`. -/
def strtol (w : ℕ) (s : Bytes) : StrtolResult :=
  let body := s.dropWhile isspace
  let digits := (skipSign body).takeWhile isdigit
  if digits = [] then ⟨0, 0, false⟩
  else
    let stop := s.length - ((skipSign body).dropWhile isdigit).length
    let value : ℤ := if body.head? = some 45 then -digitsVal digits else digitsVal digits
    ⟨(clampLong w value).1, stop, (clampLong w value).2⟩

/-! ### The shape of a floating point number -/

def isxdigit (c : UInt8) : Bool := isdigit c || (65 ≤ c && c ≤ 70) || (97 ≤ c && c ≤ 102)

def tolower (c : UInt8) : UInt8 := if 65 ≤ c && c ≤ 90 then c + 32 else c

/-- The bytes allowed between the parentheses of `nan(…)`. -/
def isNChar (c : UInt8) : Bool :=
  isdigit c || (65 ≤ c && c ≤ 90) || (97 ≤ c && c ≤ 122) || c == 95

/-- Digits with at most one decimal point and at least one digit. -/
def scanMantissa (digit : UInt8 → Bool) (s : Bytes) : Option Bytes :=
  match s.dropWhile digit with
  | 46 :: f =>
    if s.takeWhile digit = [] ∧ f.takeWhile digit = [] then none
    else some (f.dropWhile digit)
  | r => if s.takeWhile digit = [] then none else some r

/-- An optional exponent, marked by `e` or by `p`. -/
def scanExponent (mark : UInt8) (s : Bytes) : Bytes :=
  match s with
  | [] => []
  | c :: r =>
    if tolower c = mark ∧ (skipSign r).takeWhile isdigit ≠ [] then
      (skipSign r).dropWhile isdigit
    else c :: r

/-- A word, in letters of either case. -/
def scanWord (word s : Bytes) : Option Bytes :=
  if (s.take word.length).map tolower = word then some (s.drop word.length) else none

def scanNanSuffix (s : Bytes) : Bytes :=
  match s with
  | 40 :: r =>
    match r.dropWhile isNChar with
    | 41 :: t => t
    | _ => s
  | _ => s

def scanDecimal (s : Bytes) : Option Bytes :=
  (scanMantissa isdigit s).map (scanExponent 101)

def scanHex (s : Bytes) : Option Bytes :=
  match s with
  | 48 :: x :: r =>
    if tolower x = 120 then (scanMantissa isxdigit r).map (scanExponent 112) else none
  | _ => none

/-- What follows the longest number at the start of `s`, its sign skipped. -/
def scanNumber (s : Bytes) : Option Bytes :=
  scanWord (bytes "infinity") s <|> scanWord (bytes "inf") s <|>
    (scanWord (bytes "nan") s).map scanNanSuffix <|> scanHex s <|> scanDecimal s

/-- What `strtod` leaves unread, `none` when it converts nothing. -/
def strtodRest (s : Bytes) : Option Bytes := scanNumber (skipSign (s.dropWhile isspace))

example : strtodRest (bytes " -12.5e3,") = some (bytes ",") := by decide
example : strtodRest (bytes "nan(HELP)x") = some (bytes "x") := by decide
example : strtodRest (bytes "0x1.8p-4") = some [] := by decide
example : strtodRest (bytes "1e+") = some (bytes "e+") := by decide

/-! ### The bytes of a number -/

/-- The bytes a number is made of outside the parentheses of `nan(…)`. -/
def floatChar (c : UInt8) : Bool :=
  isxdigit c || c ∈ bytes "+-." || tolower c ∈ bytes "xpinty"

theorem floatChar_of_isdigit {c : UInt8} (h : isdigit c) : floatChar c := by
  simp [floatChar, isxdigit, h]

theorem floatChar_of_isxdigit {c : UInt8} (h : isxdigit c) : floatChar c := by
  simp [floatChar, h]

/-- A letter whose lower case form is `w` is a float byte when `w` is one. -/
theorem floatChar_of_tolower {c w : UInt8} (h : tolower c = w)
    (hw : w ∈ bytes "xpinty" ∨ w ∈ bytes "abcdef") : floatChar c := by
  rcases hw with hw | hw
  · simp [floatChar, h, hw]
  · have hx : isxdigit c := by
      have hc : c = w ∨ c + 32 = w := by
        unfold tolower at h
        split at h
        · exact .inr h
        · exact .inl h
      have hw' : ∀ w ∈ bytes "abcdef", isxdigit w ∧ isxdigit (w - 32) := by decide +kernel
      rcases hc with rfl | hc
      · exact (hw' _ hw).1
      · have := (hw' _ hw).2
        rwa [← hc, UInt8.add_sub_cancel] at this
    exact floatChar_of_isxdigit hx

theorem skipSign_decomp (s : Bytes) : ∃ p, s = p ++ skipSign s ∧ ∀ c ∈ p, c = 43 ∨ c = 45 := by
  cases s with
  | nil => exact ⟨[], rfl, by simp⟩
  | cons c s =>
    by_cases h : c = 43 ∨ c = 45
    · exact ⟨[c], by simp [skipSign, h], by simpa using h⟩
    · exact ⟨[], by simp [skipSign, h], by simp⟩

theorem takeWhile_decomp (q : UInt8 → Bool) (s : Bytes) :
    ∃ p, s = p ++ s.dropWhile q ∧ ∀ c ∈ p, q c :=
  ⟨s.takeWhile q, List.takeWhile_append_dropWhile.symm, fun _ hc => List.mem_takeWhile_imp hc⟩

/-- An integer that is read to its end consists of digits and signs. -/
theorem strtol_whole {w : ℕ} {s : Bytes} (hs : Trimmed s) (h0 : (strtol w s).endp ≠ 0)
    (h : (strtol w s).endp = s.length) : ∀ c ∈ s, isdigit c ∨ c = 43 ∨ c = 45 := by
  have hd : s.dropWhile isspace = s := by
    cases s with
    | nil => rfl
    | cons c r => rw [List.dropWhile_cons_of_neg (by simp [hs.1 c r rfl])]
  obtain ⟨p, hp, hpc⟩ := skipSign_decomp s
  obtain ⟨q, hq, hqc⟩ := takeWhile_decomp isdigit (skipSign s)
  have hr : (skipSign s).dropWhile isdigit = [] := by
    unfold strtol at h0 h
    rw [hd] at h0 h
    by_cases hn : (skipSign s).takeWhile isdigit = []
    · simp [hn] at h0
    · simp only [hn, if_false] at h0 h
      rw [← List.length_eq_zero_iff]
      omega
  rw [hr, List.append_nil] at hq
  intro c hc
  rw [hp, hq, List.mem_append] at hc
  rcases hc with hc | hc
  · exact .inr (hpc c hc)
  · exact .inl (hqc c hc)

theorem scanMantissa_decomp {q : UInt8 → Bool} {s r : Bytes} (h : scanMantissa q s = some r) :
    ∃ p, s = p ++ r ∧ ∀ c ∈ p, q c ∨ c = 46 := by
  obtain ⟨p, hp, hpc⟩ := takeWhile_decomp q s
  unfold scanMantissa at h
  split at h
  · rename_i f hf
    obtain ⟨p', hp', hpc'⟩ := takeWhile_decomp q f
    split at h
    · cases h
    · obtain rfl := Option.some.inj h
      refine ⟨p ++ 46 :: p', ?_, ?_⟩
      · rw [hf, hp'] at hp
        rw [hp]
        simp
      · intro c hc
        simp only [List.mem_append, List.mem_cons] at hc
        rcases hc with hc | rfl | hc
        · exact .inl (hpc c hc)
        · exact .inr rfl
        · exact .inl (hpc' c hc)
  · split at h
    · cases h
    · obtain rfl := Option.some.inj h
      exact ⟨p, hp, fun c hc => .inl (hpc c hc)⟩

theorem scanExponent_decomp (m : UInt8) (s : Bytes) :
    ∃ p, s = p ++ scanExponent m s ∧
      ∀ c ∈ p, tolower c = m ∨ c = 43 ∨ c = 45 ∨ isdigit c := by
  cases s with
  | nil => exact ⟨[], rfl, by simp⟩
  | cons c r =>
    by_cases h : tolower c = m ∧ (skipSign r).takeWhile isdigit ≠ []
    · obtain ⟨p, hp, hpc⟩ := skipSign_decomp r
      obtain ⟨p', hp', hpc'⟩ := takeWhile_decomp isdigit (skipSign r)
      refine ⟨c :: (p ++ p'), ?_, ?_⟩
      · rw [scanExponent, if_pos h, List.cons_append, List.append_assoc, ← hp', ← hp]
      · intro e he
        simp only [List.mem_cons, List.mem_append] at he
        rcases he with rfl | he | he
        · exact .inl h.1
        · rcases hpc e he with he | he
          · exact .inr (.inl he)
          · exact .inr (.inr (.inl he))
        · exact .inr (.inr (.inr (hpc' e he)))
    · exact ⟨[], by rw [scanExponent, if_neg h]; rfl, by simp⟩

theorem scanWord_decomp {w s r : Bytes} (h : scanWord w s = some r) :
    ∃ p, s = p ++ r ∧ p.map tolower = w := by
  unfold scanWord at h
  split at h
  · rename_i hw
    obtain rfl := Option.some.inj h
    exact ⟨s.take w.length, (List.take_append_drop _ _).symm, hw⟩
  · cases h

theorem scanNanSuffix_decomp (s : Bytes) : scanNanSuffix s = s ∨
    ∃ u, s = 40 :: (u ++ 41 :: scanNanSuffix s) ∧ ∀ c ∈ u, isNChar c := by
  cases s with
  | nil => exact .inl rfl
  | cons c r =>
    by_cases hc : c = 40
    · subst hc
      obtain ⟨u, hu, huc⟩ := takeWhile_decomp isNChar r
      cases hd : r.dropWhile isNChar with
      | nil => exact .inl (by simp [scanNanSuffix, hd])
      | cons e t =>
        by_cases he : e = 41
        · subst he
          rw [hd] at hu
          exact .inr ⟨u, by simp [scanNanSuffix, hd, ← hu], huc⟩
        · left
          simp only [scanNanSuffix, hd]
          split
          · rename_i heq
            exact absurd (List.cons.inj heq).1 he
          · rfl
    · left
      unfold scanNanSuffix
      split
      · rename_i heq
        exact absurd (List.cons.inj heq).1 hc
      · rfl

theorem scanDecimal_decomp {s r : Bytes} (h : scanDecimal s = some r) :
    ∃ p, s = p ++ r ∧ ∀ c ∈ p, floatChar c := by
  obtain ⟨t, ht, rfl⟩ := Option.map_eq_some_iff.mp h
  obtain ⟨p, hp, hpc⟩ := scanMantissa_decomp ht
  obtain ⟨p', hp', hpc'⟩ := scanExponent_decomp 101 t
  refine ⟨p ++ p', by rw [List.append_assoc, ← hp', hp], fun c hc => ?_⟩
  rcases List.mem_append.mp hc with hc | hc
  · rcases hpc c hc with hc | rfl
    · exact floatChar_of_isdigit hc
    · decide
  · rcases hpc' c hc with hc | rfl | rfl | hc
    · exact floatChar_of_tolower hc (by decide)
    · decide
    · decide
    · exact floatChar_of_isdigit hc

theorem scanHex_decomp {s r : Bytes} (h : scanHex s = some r) :
    ∃ p, s = p ++ r ∧ ∀ c ∈ p, floatChar c := by
  unfold scanHex at h
  split at h
  · rename_i x s
    split at h
    · rename_i hx
      obtain ⟨t, ht, rfl⟩ := Option.map_eq_some_iff.mp h
      obtain ⟨p, hp, hpc⟩ := scanMantissa_decomp ht
      obtain ⟨p', hp', hpc'⟩ := scanExponent_decomp 112 t
      refine ⟨48 :: x :: (p ++ p'), ?_, ?_⟩
      · rw [List.cons_append, List.cons_append, List.append_assoc, ← hp', ← hp]
      · intro c hc
        simp only [List.mem_cons, List.mem_append] at hc
        rcases hc with rfl | rfl | hc | hc
        · decide
        · exact floatChar_of_tolower hx (by decide)
        · rcases hpc c hc with hc | rfl
          · exact floatChar_of_isxdigit hc
          · decide
        · rcases hpc' c hc with hc | rfl | rfl | hc
          · exact floatChar_of_tolower hc (by decide)
          · decide
          · decide
          · exact floatChar_of_isdigit hc
    · cases h
  · cases h

theorem scanWord_floatChar {w p : Bytes} (hw : ∀ c ∈ w, c ∈ bytes "xpinty" ∨ c ∈ bytes "abcdef")
    (hp : p.map tolower = w) : ∀ c ∈ p, floatChar c := fun c hc =>
  floatChar_of_tolower rfl (hw _ (by rw [← hp]; exact List.mem_map_of_mem hc))

/-- A number is made of float bytes, or it is `nan(…)`. -/
theorem scanNumber_decomp {s r : Bytes} (h : scanNumber s = some r) :
    (∃ p, s = p ++ r ∧ ∀ c ∈ p, floatChar c) ∨
    ∃ p u, s = p ++ 40 :: (u ++ 41 :: r) ∧ p.map tolower = bytes "nan" ∧
      ∀ c ∈ u, isNChar c := by
  unfold scanNumber at h
  -- the words come before the digits, the longer of them first
  rcases h1 : scanWord (bytes "infinity") s with _ | t
  · rw [h1] at h
    rcases h2 : scanWord (bytes "inf") s with _ | t
    · rw [h2] at h
      rcases h3 : scanWord (bytes "nan") s with _ | t
      · rw [h3] at h
        left
        rcases h4 : scanHex s with _ | t
        · rw [h4] at h
          exact scanDecimal_decomp (by simpa using h)
        · rw [h4] at h
          obtain rfl : t = r := by simpa using h
          exact scanHex_decomp h4
      · rw [h3] at h
        obtain rfl : scanNanSuffix t = r := by simpa using h
        obtain ⟨p, hp, hpw⟩ := scanWord_decomp h3
        rcases scanNanSuffix_decomp t with ht | ⟨u, hu, huc⟩
        · left
          exact ⟨p, by rw [ht, hp], scanWord_floatChar (by decide +kernel) hpw⟩
        · right
          exact ⟨p, u, by rw [← hu, hp], hpw, huc⟩
    · rw [h2] at h
      obtain rfl : t = r := by simpa using h
      obtain ⟨p, hp, hpw⟩ := scanWord_decomp h2
      exact .inl ⟨p, hp, scanWord_floatChar (by decide +kernel) hpw⟩
  · rw [h1] at h
    obtain rfl : t = r := by simpa using h
    obtain ⟨p, hp, hpw⟩ := scanWord_decomp h1
    exact .inl ⟨p, hp, scanWord_floatChar (by decide +kernel) hpw⟩

theorem not_isNChar_of_mem {u : Bytes} (hu : ∀ c ∈ u, isNChar c) : (41 : UInt8) ∉ u :=
  fun h => absurd (hu _ h) (by decide)

/-- A number cut off inside the parentheses of `nan(…)` is no number. -/
theorem scanNumber_open {p v : Bytes} (hp : p.map tolower = bytes "nan")
    (hv : (41 : UInt8) ∉ v) : scanNumber (p ++ 40 :: v) ≠ some [] := by
  intro h
  have hlen : p.length = 3 := by
    rw [← List.length_map tolower, hp]
    rfl
  have hnan : scanWord (bytes "nan") (p ++ 40 :: v) = some (40 :: v) := by
    have h3 : (bytes "nan").length = p.length := by rw [hlen]; rfl
    rw [scanWord, h3, List.take_left, List.drop_left, if_pos hp]
  have hno : ∀ w : Bytes, 3 ≤ w.length → w.take 3 ≠ bytes "nan" →
      scanWord w (p ++ 40 :: v) = none := by
    intro w hw hne
    rw [scanWord, if_neg]
    intro heq
    apply hne
    rw [← heq, ← List.map_take, List.take_take, Nat.min_eq_left hw, ← hlen, List.take_left, hp]
  rw [scanNumber, hno _ (by decide) (by decide), hno _ (by decide) (by decide), hnan] at h
  have hs : scanNanSuffix (40 :: v) = [] := by simpa using h
  rcases scanNanSuffix_decomp (40 :: v) with he | ⟨u, hu, -⟩
  · rw [hs] at he
    cases he
  · exact hv (by rw [(List.cons.inj hu).2]; simp)

/-- A number is only continued, to a longer one, by a float byte or by the
parenthesis of `nan(…)`. -/
theorem scanNumber_extend {s t : Bytes} {c : UInt8} (hs : scanNumber s = some [])
    (hst : scanNumber (s ++ c :: t) = some []) : floatChar c ∨ c = 40 := by
  by_contra hc
  rw [not_or] at hc
  obtain ⟨hcf, hc40⟩ := hc
  rcases scanNumber_decomp hst with ⟨p, hp, hpc⟩ | ⟨p, u, hp, hpw, huc⟩
  · rw [List.append_nil] at hp
    exact hcf (hpc c (by rw [← hp]; simp))
  -- `c` stands behind the opening parenthesis, so `s` ends inside them
  · have hpf := scanWord_floatChar (by decide +kernel) hpw
    rcases List.append_eq_append_iff.mp hp with ⟨a, ha, hb⟩ | ⟨a, ha, hb⟩
    · cases a with
      | nil => exact hc40 (List.cons.inj hb).1
      | cons e a =>
        obtain ⟨rfl, -⟩ := List.cons.inj hb
        exact hcf (hpf c (by rw [ha]; simp))
    · cases a with
      | nil => exact hc40 (List.cons.inj hb).1.symm
      | cons e a =>
        obtain ⟨rfl, hb⟩ := List.cons.inj hb
        refine scanNumber_open hpw ?_ (ha ▸ hs)
        intro h41
        obtain ⟨v, w, rfl⟩ := List.append_of_mem h41
        -- the closing parenthesis of `u ++ [41]` would come before its end
        have hu : u ++ [41] = v ++ 41 :: (w ++ c :: t) := by simpa using hb
        rcases List.append_eq_append_iff.mp hu with ⟨a, ha', hb'⟩ | ⟨a, ha', hb'⟩
        · cases a with
          | nil => simp at hb'
          | cons f a =>
            have := congrArg List.length hb'
            simp at this
        · cases a with
          | nil => simp at hb'
          | cons f a =>
            obtain ⟨rfl, -⟩ := List.cons.inj hb'
            exact not_isNChar_of_mem huc (by rw [ha']; simp)

end CString
