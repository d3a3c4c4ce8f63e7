/-
C strings and the parts of <string.h>, <ctype.h> and <stdio.h> that work on them.

Memory is a list of bytes and a C string is what stands before the first NUL.

* `cstr` reads the string at an offset, `strtok` is one call of the C function
  on the buffer that holds the scanned text (`strtok_nil`, `strtok_last` and
  `strtok_comma` describe it on a buffer of known shape);
* `strip`, `tokens` — the pure counterparts: text without surrounding
  whitespace, and the non-empty separator-free segments of a text;
* `decimal`, `fmtInt`, `fmtStr` — the text of `%d` and `%s`, and `snprintf`.

Everything is in the C locale: `isspace` holds of six ASCII bytes only.
-/
import Mathlib.Data.List.DropRight
import Mathlib.Data.List.TakeWhile
import Mathlib.Tactic

/-- Bytes of memory, or a text without its terminating NUL. -/
abbrev Bytes := List UInt8

/-- The bytes of an ASCII text. -/
def ofChars (l : List Char) : Bytes := l.map fun c => c.toNat.toUInt8

def bytes (s : String) : Bytes := ofChars s.toList

namespace CString

def isspace (c : UInt8) : Bool := c == 32 || (9 ≤ c && c ≤ 13)

def isdigit (c : UInt8) : Bool := 48 ≤ c && c ≤ 57

/-- A property of bytes, checked byte by byte. -/
theorem forall_byte {P : UInt8 → Prop} (h : ∀ n < 256, P (UInt8.ofNat n)) (c : UInt8) : P c := by
  rw [← UInt8.ofNat_toNat (x := c)]
  exact h _ c.toNat_lt

/-- The C string stored at offset `i` of `m`. -/
def cstr (m : Bytes) (i : ℕ) : Bytes := (m.drop i).takeWhile (· != 0)

theorem zero_notMem_takeWhile (l : Bytes) : (0 : UInt8) ∉ l.takeWhile (· != 0) := by
  intro h
  simpa using List.mem_takeWhile_imp h

theorem takeWhile_ne_zero {l : Bytes} (h : (0 : UInt8) ∉ l) (r : Bytes) :
    (l ++ 0 :: r).takeWhile (· != 0) = l := by
  rw [List.takeWhile_append_of_pos]
  · simp
  · intro c hc
    simp only [bne_iff_ne, ne_eq]
    rintro rfl
    exact h hc

theorem cstr_append {l : Bytes} (h : (0 : UInt8) ∉ l) (p r : Bytes) :
    cstr (p ++ (l ++ 0 :: r)) p.length = l := by
  rw [cstr, List.drop_left]
  exact takeWhile_ne_zero h r

/-! ### Stripping -/

/-- A text without the whitespace around it. -/
def strip (s : Bytes) : Bytes := (s.dropWhile isspace).rdropWhile isspace

/-- Neither end of the text is whitespace. -/
def Trimmed (s : Bytes) : Prop :=
  (∀ c r, s = c :: r → isspace c = false) ∧ ∀ r c, s = r ++ [c] → isspace c = false

theorem strip_decomp (s : Bytes) : ∃ a b, s = a ++ strip s ++ b ∧
    (∀ c ∈ a, isspace c) ∧ ∀ c ∈ b, isspace c := by
  refine ⟨s.takeWhile isspace, (s.dropWhile isspace).rtakeWhile isspace, ?_, ?_, ?_⟩
  · rw [strip, List.append_assoc, List.rdropWhile_append_rtakeWhile,
      List.takeWhile_append_dropWhile]
  · exact fun c hc => List.mem_takeWhile_imp hc
  · exact fun c hc => List.mem_rtakeWhile_imp hc

theorem strip_eq_self {s : Bytes} (h : Trimmed s) : strip s = s := by
  have hl : s.dropWhile isspace = s := by
    cases s with
    | nil => rfl
    | cons c r => rw [List.dropWhile_cons_of_neg (by simp [h.1 c r rfl])]
  rw [strip, hl, List.rdropWhile_eq_self_iff]
  intro hne
  simp [h.2 _ _ (List.dropLast_append_getLast hne).symm]

theorem rdropWhile_append_of_pos {p : UInt8 → Bool} (s : Bytes) {b : Bytes}
    (h : ∀ c ∈ b, p c) : (s ++ b).rdropWhile p = s.rdropWhile p := by
  induction b using List.reverseRecOn with
  | nil => rw [List.append_nil]
  | append_singleton b c ih =>
    rw [← List.append_assoc, List.rdropWhile_concat_pos _ _ _ (h c (by simp))]
    exact ih fun d hd => h d (by simp [hd])

/-- Whitespace around a text does not show after stripping. -/
theorem strip_surround {a b : Bytes} (ha : ∀ c ∈ a, isspace c) (hb : ∀ c ∈ b, isspace c)
    (s : Bytes) : strip (a ++ s ++ b) = strip s := by
  rw [strip, List.append_assoc, List.dropWhile_append_of_pos ha, List.dropWhile_append]
  by_cases hs : s.dropWhile isspace = []
  · simp [hs, strip, List.dropWhile_eq_nil_iff.mpr hb]
  · rw [if_neg (by simpa using hs), rdropWhile_append_of_pos _ hb, strip]

theorem trimmed_strip (s : Bytes) : Trimmed (strip s) := by
  constructor
  · intro c r h
    obtain ⟨b, hb⟩ : strip s <+: s.dropWhile isspace := List.rdropWhile_prefix _ _
    have hd : s.dropWhile isspace = c :: (r ++ b) := by rw [← hb, h]; rfl
    have := List.head_dropWhile_not isspace (l := s) (by rw [hd]; simp)
    simpa [hd] using this
  · intro r c h
    have hne : strip s ≠ [] := by rw [h]; simp
    have := List.rdropWhile_last_not isspace (s.dropWhile isspace) hne
    simpa [strip, show (s.dropWhile isspace).rdropWhile isspace = r ++ [c] from h] using this

theorem strip_sublist (s : Bytes) : (strip s).Sublist s :=
  ((List.rdropWhile_prefix _ _).sublist).trans (List.dropWhile_sublist _)

/-! ### Tokens -/

/-- The non-empty maximal segments of `s` that are free of `d`. -/
def tokens (d : UInt8) (s : Bytes) : List Bytes := (s.splitOn d).filter fun t => !t.isEmpty

theorem tokens_append_sep (d : UInt8) (x y : Bytes) :
    tokens d (x ++ d :: y) = tokens d x ++ tokens d y := by
  rw [tokens, List.splitOn_append_cons_self, List.filter_append]
  rfl

@[simp] theorem tokens_nil (d : UInt8) : tokens d [] = [] := rfl

theorem tokens_cons_sep (d : UInt8) (y : Bytes) : tokens d (d :: y) = tokens d y :=
  tokens_append_sep d [] y

theorem tokens_of_notMem {d : UInt8} {x : Bytes} (h : d ∉ x) (hx : x ≠ []) :
    tokens d x = [x] := by
  rw [tokens, List.splitOn_eq_singleton h]
  simp [hx]

theorem tokens_sep_append {d : UInt8} {x : Bytes} (h : ∀ c ∈ x, c = d) (y : Bytes) :
    tokens d (x ++ y) = tokens d y := by
  induction x with
  | nil => rfl
  | cons c x ih =>
    obtain rfl : c = d := h c (by simp)
    rw [List.cons_append, tokens_cons_sep]
    exact ih fun e he => h e (by simp [he])

theorem tokens_seps {d : UInt8} {x : Bytes} (h : ∀ c ∈ x, c = d) : tokens d x = [] := by
  simpa using tokens_sep_append h []

/-- A token is free of the separator. -/
theorem notMem_of_mem_tokens {d : UInt8} {s t : Bytes} (h : t ∈ tokens d s) : d ∉ t := by
  have hsplit : ∀ x ∈ s.splitOn d, d ∉ x := by
    clear h
    induction s with
    | nil => simp
    | cons c s ih =>
      rw [List.splitOn_cons_eq_if_modifyHead]
      split
      · simpa using ih
      · rename_i hc
        cases hs : s.splitOn d with
        | nil => simp
        | cons y ys =>
          rw [hs] at ih
          intro x hx
          rw [List.modifyHead_cons] at hx
          cases hx with
          | head =>
            have hy : d ∉ y := ih y List.mem_cons_self
            have hne : d ≠ c := fun h => hc (by simp [h])
            simp [hy, hne]
          | tail _ hx => exact ih x (List.mem_cons_of_mem _ hx)
  exact hsplit t (List.mem_of_mem_filter h)
/-! ### strtok -/

/-- What one call of `strtok` leaves behind: the token it returns, the saved
pointer and the buffer. -/
structure StrtokResult where
  token : Option ℕ
  saved : ℕ
  buffer : Bytes

/-- `strtok` scanning the buffer `m` from offset `i`: skip separators, return
NULL at the end of the string, else end the token with a NUL. -/
def strtok (d : UInt8) (m : Bytes) (i : ℕ) : StrtokResult :=
  let start := i + ((m.drop i).takeWhile (· == d)).length
  let tok := (m.drop start).takeWhile fun c => c != d && c != 0
  if tok = [] then ⟨none, start, m⟩
  else
    let stop := start + tok.length
    if m.getD stop 0 = 0 then ⟨some start, stop, m⟩
    else ⟨some start, stop + 1, m.set stop 0⟩

section strtok

variable {d : UInt8} (done : Bytes) {sep tok junk : Bytes}

theorem strtok_start (hsep : ∀ c ∈ sep, c = d) {r : Bytes}
    (hr : ∀ c t, r = c :: t → c ≠ d) :
    (((done ++ (sep ++ r)).drop done.length).takeWhile (· == d)).length = sep.length := by
  rw [List.drop_left, List.takeWhile_append_of_pos (by simpa using hsep)]
  cases r with
  | nil => simp
  | cons c t => rw [List.takeWhile_cons_of_neg (by simpa using hr c t rfl), List.append_nil]

/-- Only separators are left: `strtok` returns NULL and writes nothing. -/
theorem strtok_nil (hd : d ≠ 0) (hsep : ∀ c ∈ sep, c = d) :
    strtok d (done ++ (sep ++ 0 :: junk)) done.length
      = ⟨none, done.length + sep.length, done ++ (sep ++ 0 :: junk)⟩ := by
  have hs : (((done ++ (sep ++ 0 :: junk)).drop done.length).takeWhile (· == d)).length
      = sep.length := strtok_start done hsep fun c t h => by
    obtain ⟨rfl, -⟩ := List.cons.inj h
    exact hd.symm
  have hdrop : (done ++ (sep ++ 0 :: junk)).drop (done.length + sep.length) = 0 :: junk := by
    rw [← List.append_assoc, ← List.length_append, List.drop_left]
  simp only [strtok, hs, hdrop]
  simp

theorem strtok_token (htok : tok ≠ []) (hd : d ∉ tok) (h0 : (0 : UInt8) ∉ tok)
    (hsep : ∀ c ∈ sep, c = d) {r : Bytes} (hr : ∀ c t, r = c :: t → c = d ∨ c = 0) :
    (((done ++ (sep ++ (tok ++ r))).drop done.length).takeWhile (· == d)).length = sep.length ∧
    ((done ++ (sep ++ (tok ++ r))).drop (done.length + sep.length)).takeWhile
      (fun c => c != d && c != 0) = tok := by
  constructor
  · refine strtok_start done hsep fun c t h => ?_
    cases tok with
    | nil => exact absurd rfl htok
    | cons e s =>
      obtain ⟨rfl, -⟩ := List.cons.inj h
      rintro rfl
      exact hd (by simp)
  · rw [← List.append_assoc, ← List.length_append, List.drop_left,
      List.takeWhile_append_of_pos]
    · cases r with
      | nil => simp
      | cons c t =>
        rw [List.takeWhile_cons_of_neg, List.append_nil]
        rcases hr c t rfl with rfl | rfl <;> simp
    · intro c hc
      simp only [Bool.and_eq_true, bne_iff_ne, ne_eq]
      exact ⟨fun h => hd (h ▸ hc), fun h => h0 (h ▸ hc)⟩

/-- The last token: it ends at the NUL that is already there. -/
theorem strtok_last (htok : tok ≠ []) (hd : d ∉ tok) (h0 : (0 : UInt8) ∉ tok)
    (hsep : ∀ c ∈ sep, c = d) :
    strtok d (done ++ (sep ++ (tok ++ 0 :: junk))) done.length
      = ⟨some (done.length + sep.length), done.length + sep.length + tok.length,
          done ++ (sep ++ (tok ++ 0 :: junk))⟩ := by
  obtain ⟨h1, h2⟩ := strtok_token done htok hd h0 hsep (r := 0 :: junk)
    fun c t h => .inr (List.cons.inj h).1.symm
  have h3 : (done ++ (sep ++ (tok ++ 0 :: junk))).getD
      (done.length + sep.length + tok.length) 0 = 0 := by
    rw [← List.append_assoc, ← List.append_assoc, ← List.length_append, ← List.length_append]
    simp
  simp only [strtok, h1, h2, htok, if_false, h3, if_true]

/-- A token before another separator: the separator becomes its NUL. -/
theorem strtok_comma (htok : tok ≠ []) (hd : d ∉ tok) (h0 : (0 : UInt8) ∉ tok) (hd0 : d ≠ 0)
    (hsep : ∀ c ∈ sep, c = d) (rest : Bytes) :
    strtok d (done ++ (sep ++ (tok ++ d :: rest))) done.length
      = ⟨some (done.length + sep.length), done.length + sep.length + tok.length + 1,
          done ++ (sep ++ (tok ++ 0 :: rest))⟩ := by
  obtain ⟨h1, h2⟩ := strtok_token done htok hd h0 hsep (r := d :: rest)
    fun c t h => .inl (List.cons.inj h).1.symm
  have hassoc : ∀ x : Bytes, done ++ (sep ++ (tok ++ x)) = (done ++ sep ++ tok) ++ x := by
    intro x; simp only [List.append_assoc]
  have hlen : done.length + sep.length + tok.length = (done ++ sep ++ tok).length := by
    simp only [List.length_append]
  have h3 : (done ++ (sep ++ (tok ++ d :: rest))).getD
      (done.length + sep.length + tok.length) 0 = d := by
    rw [hassoc, hlen]
    simp
  have h4 : (done ++ (sep ++ (tok ++ d :: rest))).set
      (done.length + sep.length + tok.length) 0 = done ++ (sep ++ (tok ++ 0 :: rest)) := by
    rw [hassoc, hassoc, hlen]
    simp
  simp only [strtok, h1, h2, htok, if_false, h3, hd0, h4]

end strtok

/-- The shapes a text can have for `strtok`: separators only, or a first token
that is the last one or is followed by a separator. -/
theorem token_shape (d : UInt8) (s : Bytes) :
    (∀ c ∈ s, c = d) ∨ ∃ sep tok, (∀ c ∈ sep, c = d) ∧ tok ≠ [] ∧ d ∉ tok ∧
      (s = sep ++ tok ∨ ∃ rest, s = sep ++ (tok ++ d :: rest)) := by
  have hsep : ∀ c ∈ s.takeWhile (· == d), c = d := by
    intro c hc
    simpa using List.mem_takeWhile_imp hc
  have hs := List.takeWhile_append_dropWhile (p := (· == d)) (l := s)
  cases hr : s.dropWhile (· == d) with
  | nil =>
    left
    rw [hr, List.append_nil] at hs
    rwa [hs] at hsep
  | cons c t =>
    right
    have hc : c ≠ d := by
      have := List.head_dropWhile_not (· == d) (l := s) (by rw [hr]; simp)
      simpa [hr] using this
    have ht := List.takeWhile_append_dropWhile (p := (· != d)) (l := c :: t)
    refine ⟨_, (c :: t).takeWhile (· != d), hsep, by simp [hc], ?_, ?_⟩
    · intro hmem
      simpa using List.mem_takeWhile_imp hmem
    · cases hq : (c :: t).dropWhile (· != d) with
      | nil =>
        left
        rw [hq, List.append_nil] at ht
        rw [ht, ← hr, hs]
      | cons e rest =>
        right
        have he : e = d := by
          have := List.head_dropWhile_not (· != d) (l := c :: t) (by rw [hq]; simp)
          simpa [hq] using this
        refine ⟨rest, ?_⟩
        rw [hq, he] at ht
        rw [ht, ← hr, hs]

/-! ### Printing integers -/

/-- The decimal text of a natural number. -/
def decimal (n : ℕ) : Bytes := ofChars (Nat.toDigits 10 n)

/-- `%d`. -/
def fmtInt (i : ℤ) : Bytes := if i < 0 then 45 :: decimal i.natAbs else decimal i.natAbs

/-- `%s`: the argument up to its first NUL. -/
def fmtStr (s : Bytes) : Bytes := s.takeWhile (· != 0)

theorem fmtStr_eq_self {s : Bytes} (h : (0 : UInt8) ∉ s) : fmtStr s = s := by
  rw [fmtStr, List.takeWhile_eq_self_iff]
  intro c hc
  simp only [bne_iff_ne, ne_eq]
  rintro rfl
  exact h hc

theorem zero_notMem_fmtStr (s : Bytes) : (0 : UInt8) ∉ fmtStr s := zero_notMem_takeWhile s

/-- `snprintf(buf + off, size, ...)` where the format prints `text`: the return
value and `buf`.  A text that does not fit is cut, and its full length returned. -/
def snprintf (buf : Bytes) (off size : ℕ) (text : Bytes) : ℤ × Bytes :=
  (text.length,
    if size = 0 then buf
    else
      let cut := text.take (size - 1)
      buf.take off ++ (cut ++ 0 :: buf.drop (off + cut.length + 1)))

/-- A text that fits is appended to the string in the buffer. -/
theorem snprintf_fits {done text junk : Bytes} {size : ℕ} (h : text.length < size) :
    snprintf (done ++ 0 :: junk) done.length size text
      = ((text.length : ℤ), (done ++ text) ++ 0 :: junk.drop text.length) := by
  have hcut : text.take (size - 1) = text := List.take_of_length_le (by omega)
  have hdrop : (done ++ 0 :: junk).drop (done.length + text.length + 1)
      = junk.drop text.length := by
    rw [Nat.add_assoc, ← List.drop_drop, List.drop_left, List.drop_succ_cons]
  simp only [snprintf]
  rw [if_neg (by omega), hcut, List.take_left, hdrop, List.append_assoc]

theorem cstr_snprintf {buf text : Bytes} {size : ℕ} (h : text.length < size)
    (h0 : (0 : UInt8) ∉ text) : cstr (snprintf buf 0 size text).2 0 = text := by
  have hcut : text.take (size - 1) = text := List.take_of_length_le (by omega)
  simp only [snprintf]
  rw [if_neg (by omega), hcut]
  exact cstr_append h0 [] _

/-- A buffer whose first byte is NUL holds the empty string. -/
theorem cstr_set_zero (buf : Bytes) : cstr (buf.set 0 0) 0 = [] := by
  cases buf with
  | nil => rfl
  | cons c buf => simp [cstr]

theorem cstr_eq_nil {buf : Bytes} : cstr buf 0 = [] ↔ buf.getD 0 0 = 0 := by
  cases buf with
  | nil => simp [cstr]
  | cons c buf => simp [cstr, List.takeWhile_cons]

theorem length_snprintf {buf text : Bytes} {off size : ℕ} (h : off + size ≤ buf.length) :
    (snprintf buf off size text).2.length = buf.length := by
  simp only [snprintf]
  by_cases hs : size = 0
  · rw [if_pos hs]
  · rw [if_neg hs]
    simp only [List.length_append, List.length_take, List.length_cons, List.length_drop]
    omega

end CString
