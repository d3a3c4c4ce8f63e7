/-
The tokenizer of the parser, `trim` and `split_fields`.

The fields keep pointing into one buffer in which `strtok` and `trim` go on writing
NULs.  The scan is run here with these writes on record (`Watched`), each with the
number of the field that it is made for.

* `splitFields_tokenizes` — `split_fields` returns the non-empty comma-free segments
  of the text, stripped, as they are read from the final buffer, or -1 if they are
  more than 8; it writes inside the buffer, and never into the text of another field;
* `splitLoop_watched` — the same of the loop, from any point on;
* `splitFields_run` — what the rest of the parser needs of it.
-/
import SensorGateway.TcpParser

open CString

namespace TcpParser

/-! ### The writes -/

/-- Where `strtok` writes a NUL. -/
def strtokWrites (d : UInt8) (m : Bytes) (i : ℕ) : List ℕ :=
  let start := i + ((m.drop i).takeWhile (· == d)).length
  let tok := (m.drop start).takeWhile fun c => c != d && c != 0
  if tok = [] then []
  else if m.getD (start + tok.length) 0 = 0 then []
  else [start + tok.length]

/-- Where `trim` writes a NUL. -/
def trimWrites (m : Bytes) (str : ℕ) : List ℕ :=
  let str := skipSpaces (m.drop str) str
  if m.getD str 0 = 0 then []
  else [backSpaces m str (str + (cstr m str).length - 1) + 1]

/-- Where an operation of the parser writes. -/
def writes (m : ParserMem) : ParserOp → List Ptr
  | .strcpy b src => (List.range (src.length + 1)).map fun k => (b, k)
  | .strtok str =>
    match str <|> m.saved with
    | none => []
    | some p => (strtokWrites 44 (m.buffers p.1) p.2).map fun k => (p.1, k)
  | .trim str => (trimWrites (m.buffers str.1) str.2).map fun k => (str.1, k)
  | .load _ => []

theorem strtok_getElem? {d : UInt8} {m : Bytes} {i k : ℕ} (hk : k ∉ strtokWrites d m i) :
    (CString.strtok d m i).buffer[k]? = m[k]? := by
  simp only [CString.strtok, strtokWrites] at hk ⊢
  split
  · rfl
  · rename_i htok
    split
    · rfl
    · rename_i hend
      rw [if_neg htok, if_neg hend, List.mem_singleton] at hk
      exact List.getElem?_set_ne (Ne.symm hk)

theorem trim_getElem? {m : Bytes} {i k : ℕ} (hk : k ∉ trimWrites m i) :
    (trim m i).2[k]? = m[k]? := by
  simp only [trim, trimWrites] at hk ⊢
  split
  · rfl
  · rename_i hne
    rw [if_neg hne, List.mem_singleton] at hk
    exact List.getElem?_set_ne (Ne.symm hk)

/-- What is not written keeps its value. -/
theorem writes_sound (m : ParserMem) (o : ParserOp) {b k : ℕ} (hk : (b, k) ∉ writes m o) :
    ((parserStep m o).2.buffers b)[k]? = (m.buffers b)[k]? := by
  have hupdate : ∀ (b' : ℕ) (x : Bytes), (b = b' → x[k]? = (m.buffers b')[k]?) →
      (Function.update m.buffers b' x b)[k]? = (m.buffers b)[k]? := by
    intro b' x hx
    by_cases hb : b = b'
    · subst hb
      rw [Function.update_self]
      exact hx rfl
    · rw [Function.update_of_ne hb]
  cases o with
  | strcpy b' src =>
    refine hupdate b' _ fun hb => ?_
    have hlen : src.length + 1 ≤ k := by
      by_contra hlt
      exact hk (List.mem_map.mpr ⟨k, List.mem_range.mpr (by omega), by rw [hb]⟩)
    obtain ⟨j, rfl⟩ : ∃ j, k = src.length + (j + 1) := ⟨k - (src.length + 1), by omega⟩
    rw [List.getElem?_append_right (by omega), Nat.add_sub_cancel_left, List.getElem?_cons_succ,
      List.getElem?_drop]
    congr 1
    omega
  | strtok str =>
    simp only [parserStep, writes] at hk ⊢
    cases hstr : (str <|> m.saved) with
    | none => rfl
    | some p =>
      rw [hstr] at hk
      refine hupdate p.1 _ fun hb => strtok_getElem? fun hmem => hk ?_
      exact List.mem_map.mpr ⟨k, hmem, by rw [hb]⟩
  | trim str =>
    refine hupdate str.1 _ fun hb => trim_getElem? fun hmem => hk ?_
    exact List.mem_map.mpr ⟨k, hmem, by rw [hb]⟩
  | load str => rfl

/-! ### trim -/

theorem skipSpaces_eq (m : Bytes) (i : ℕ) :
    skipSpaces m i = i + (m.takeWhile isspace).length := by
  induction m generalizing i with
  | nil => rfl
  | cons c r ih =>
    rw [skipSpaces]
    by_cases hc : isspace c
    · rw [if_pos hc, ih, List.takeWhile_cons_of_pos hc, List.length_cons]
      omega
    · rw [if_neg hc, List.takeWhile_cons_of_neg hc, List.length_nil, Nat.add_zero]

/-- The trailing whitespace `c` is walked over and the walk stops at the end of
`b`, whose last byte is not whitespace. -/
theorem backSpaces_eq {x b c r : Bytes} (hb : b ≠ []) (hlast : Trimmed b)
    (hc : ∀ e ∈ c, isspace e) :
    backSpaces (x ++ (b ++ (c ++ r))) x.length (x.length + (b.length + c.length) - 1)
      = x.length + b.length - 1 := by
  have hbpos : 0 < b.length := List.length_pos_iff.mpr hb
  induction c using List.reverseRecOn generalizing r with
  | nil =>
    obtain ⟨b', e, rfl⟩ : ∃ b' e, b = b' ++ [e] :=
      ⟨_, _, (List.dropLast_append_getLast hb).symm⟩
    have he := hlast.2 b' e rfl
    rw [List.length_nil, Nat.add_zero]
    cases hk : x.length + (b' ++ [e]).length - 1 with
    | zero => rfl
    | succ k =>
      rw [backSpaces, if_neg]
      -- the walk stops at the last byte of `b`
      rintro ⟨-, hsp⟩
      have hget : (x ++ ((b' ++ [e]) ++ ([] ++ r))).getD (k + 1) 0 = e := by
        have hlen : k + 1 = (x ++ b').length := by
          simp only [List.length_append, List.length_cons, List.length_nil] at hk ⊢
          omega
        rw [hlen]
        simp
      rw [hget, he] at hsp
      exact absurd hsp (by simp)
  | append_singleton c e ih =>
    have hk : x.length + (b.length + (c ++ [e]).length) - 1
        = x.length + (b.length + c.length) - 1 + 1 := by
      rw [List.length_append, List.length_singleton]
      omega
    rw [hk, backSpaces, if_pos]
    · have := ih (r := e :: r) fun d hd => hc d (by simp [hd])
      simpa using this
    · refine ⟨by omega, ?_⟩
      have hget : (x ++ (b ++ ((c ++ [e]) ++ r))).getD
          (x.length + (b.length + c.length) - 1 + 1) 0 = e := by
        have hlen : x.length + (b.length + c.length) - 1 + 1 = (x ++ b ++ c).length := by
          simp only [List.length_append]
          omega
        rw [hlen]
        simp
      rw [hget]
      exact hc e (by simp)

/-- The string `s` stands at offset `f` of `m`, its NUL included. -/
def Kept (m : Bytes) (f : ℕ) (s : Bytes) : Prop :=
  (0 : UInt8) ∉ s ∧ ∃ r, m.drop f = s ++ 0 :: r

theorem Kept.cstr_eq {m : Bytes} {f : ℕ} {s : Bytes} (h : Kept m f s) : cstr m f = s := by
  obtain ⟨h0, r, hr⟩ := h
  rw [cstr, hr]
  exact takeWhile_ne_zero h0 r

theorem Kept.append {m : Bytes} {f : ℕ} {s : Bytes} (h : Kept m f s) (x : Bytes) :
    Kept (m ++ x) f s := by
  obtain ⟨h0, r, hr⟩ := h
  have hf : f ≤ m.length := by
    by_contra hlt
    rw [List.drop_eq_nil_of_le (by omega)] at hr
    simp at hr
  exact ⟨h0, r ++ x, by rw [List.drop_append_of_le_length hf, hr]; simp⟩

theorem Kept.shift {m : Bytes} {f : ℕ} {s : Bytes} (h : Kept m f s) (x : Bytes) :
    Kept (x ++ m) (x.length + f) s := by
  obtain ⟨h0, r, hr⟩ := h
  exact ⟨h0, r, by rw [List.drop_append, List.drop_eq_nil_of_le (by omega)]; simpa using hr⟩

/-- `trim` on the token `tok`: it stays inside the token and its NUL, and leaves
the stripped token there. -/
theorem trim_spec {tok : Bytes} (h0 : (0 : UInt8) ∉ tok) (x r : Bytes) :
    ∃ tok' f, trim (x ++ (tok ++ 0 :: r)) x.length = (x.length + f, x ++ (tok' ++ 0 :: r)) ∧
      tok'.length = tok.length ∧ Kept (tok' ++ [0]) f (strip tok) := by
  obtain ⟨a, c, htok, ha, hc⟩ := strip_decomp tok
  have hb0 : (0 : UInt8) ∉ strip tok := fun h => h0 ((strip_sublist tok).subset h)
  have htr := trimmed_strip tok
  have hskip : skipSpaces ((x ++ (tok ++ 0 :: r)).drop x.length) x.length
      = x.length + ((tok ++ 0 :: r).takeWhile isspace).length := by
    rw [List.drop_left, skipSpaces_eq]
  generalize strip tok = b at *
  rcases eq_or_ne b [] with rfl | hb
  · -- all whitespace: the string starts at its NUL
    have hall : ∀ e ∈ tok, isspace e := by
      intro e he
      rw [htok, List.append_nil] at he
      rcases List.mem_append.mp he with he | he
      · exact ha e he
      · exact hc e he
    have hlen : (tok ++ 0 :: r).takeWhile isspace = tok := by
      rw [List.takeWhile_append_of_pos hall, List.takeWhile_cons_of_neg (by decide),
        List.append_nil]
    refine ⟨tok, tok.length, ?_, rfl, by simp, [], by simp⟩
    simp only [trim, hskip, hlen]
    rw [if_pos]
    rw [← List.append_assoc, ← List.length_append]
    simp
  · have hhead : ∀ e t, b = e :: t → isspace e = false ∧ e ≠ 0 := fun e t h =>
      ⟨htr.1 e t h, fun h' => hb0 (by rw [h, h']; simp)⟩
    have hlen : (tok ++ 0 :: r).takeWhile isspace = a := by
      rw [htok, List.append_assoc, List.append_assoc, List.takeWhile_append_of_pos ha]
      cases b with
      | nil => exact absurd rfl hb
      | cons e t =>
        rw [List.cons_append, List.takeWhile_cons_of_neg (by simp [(hhead e t rfl).1]),
          List.append_nil]
    have hm : x ++ (tok ++ 0 :: r) = (x ++ a) ++ (b ++ (c ++ 0 :: r)) := by
      rw [htok]
      simp only [List.append_assoc]
    have hne : ((x ++ a) ++ (b ++ (c ++ 0 :: r))).getD (x ++ a).length 0 ≠ 0 := by
      cases b with
      | nil => exact absurd rfl hb
      | cons e t => simpa using (hhead e t rfl).2
    have hcs : cstr ((x ++ a) ++ (b ++ (c ++ 0 :: r))) (x ++ a).length = b ++ c := by
      rw [← List.append_assoc b]
      refine cstr_append (fun h => h0 ?_) _ _
      rw [htok, List.append_assoc]
      exact List.mem_append_right _ h
    have hback := backSpaces_eq (x := x ++ a) (r := 0 :: r) hb htr hc
    have hlenbc : (b ++ c).length = b.length + c.length := List.length_append
    have hlenxab : ((x ++ a) ++ b).length = (x ++ a).length + b.length := List.length_append
    have hset : (x ++ a).length + b.length - 1 + 1 = ((x ++ a) ++ b).length := by
      have := List.length_pos_iff.mpr hb
      omega
    refine ⟨a ++ (b ++ c.set 0 0), a.length, ?_, ?_, hb0, ?_⟩
    · simp only [trim, hskip, hlen]
      rw [hm, ← List.length_append, if_neg hne, hcs, hlenbc, hback, hset,
        ← List.append_assoc (x ++ a), List.set_append_right _ _ (Nat.le_refl _), Nat.sub_self]
      cases c <;> simp
    · rw [htok]
      simp
    · rw [List.append_assoc, List.drop_left]
      cases c with
      | nil => exact ⟨[], by simp⟩
      | cons g c => exact ⟨c ++ [0], by simp⟩

/-! ### Where the writes are -/

/-- `strtok` writes behind the token it returns, and goes on from there. -/
theorem mem_strtokWrites {d : UInt8} {m : Bytes} {i k : ℕ} (hk : k ∈ strtokWrites d m i) :
    ∃ start, (CString.strtok d m i).token = some start ∧ start ≤ k ∧
      (CString.strtok d m i).saved = k + 1 := by
  simp only [strtokWrites, CString.strtok] at hk ⊢
  split
  · rename_i htok
    simp [htok] at hk
  · rename_i htok
    split
    · rename_i hend
      rw [if_neg htok, if_pos hend] at hk
      cases hk
    · rename_i hend
      rw [if_neg htok, if_neg hend, List.mem_singleton] at hk
      exact ⟨_, rfl, by omega, by rw [hk]⟩

theorem backSpaces_le (m : Bytes) (str e : ℕ) : backSpaces m str e ≤ e := by
  induction e with
  | zero => exact Nat.le_refl _
  | succ e ih =>
    rw [backSpaces]
    split
    · omega
    · exact Nat.le_refl _

theorem le_backSpaces {m : Bytes} {str e : ℕ} (h : str ≤ e) : str ≤ backSpaces m str e := by
  induction e with
  | zero => exact h
  | succ e ih =>
    rw [backSpaces]
    split
    · exact ih (by omega)
    · exact h

/-- `trim` writes in the string it returns, or at its end. -/
theorem mem_trimWrites {m : Bytes} {i k : ℕ} (hk : k ∈ trimWrites m i) :
    (trim m i).1 < k ∧ k ≤ (trim m i).1 + (cstr m (trim m i).1).length := by
  simp only [trimWrites, trim] at hk ⊢
  set str := skipSpaces (m.drop i) i with hstr
  by_cases hnul : m.getD str 0 = 0
  · rw [if_pos hnul] at hk
    cases hk
  · rw [if_neg hnul, List.mem_singleton] at hk
    rw [if_neg hnul]
    -- the string is not empty
    have hpos : 0 < (cstr m str).length := by
      obtain ⟨c, hc⟩ : ∃ c, m[str]? = some c := by
        cases hget : m[str]? with
        | none => simp [hget] at hnul
        | some c => exact ⟨c, rfl⟩
      have hdrop : m.drop str = c :: m.drop (str + 1) := by
        obtain ⟨hlt, hval⟩ := List.getElem?_eq_some_iff.mp hc
        rw [List.drop_eq_getElem_cons hlt, hval]
      have hne : c ≠ 0 := by simpa [hc] using hnul
      rw [cstr, hdrop, List.takeWhile_cons_of_pos (by simpa using hne), List.length_cons]
      omega
    have hle := backSpaces_le m str (str + (cstr m str).length - 1)
    have hge : str ≤ backSpaces m str (str + (cstr m str).length - 1) :=
      le_backSpaces (by omega)
    simp only
    omega

/-- In a token closed by a NUL, `trim` writes no further than this NUL. -/
theorem trimWrites_bound {pre tok post tok' : Bytes} {f k : ℕ} (h0 : (0 : UInt8) ∉ tok)
    (htrim : trim (pre ++ (tok ++ 0 :: post)) pre.length
      = (pre.length + f, pre ++ (tok' ++ 0 :: post))) (hf : f ≤ tok.length)
    (hk : k ∈ trimWrites (pre ++ (tok ++ 0 :: post)) pre.length) :
    pre.length ≤ k ∧ k ≤ (pre ++ tok).length := by
  obtain ⟨hlow, hhigh⟩ := mem_trimWrites hk
  have hcstr : cstr (pre ++ (tok ++ 0 :: post)) (pre.length + f) = tok.drop f := by
    have hsplit : pre ++ (tok ++ 0 :: post)
        = (pre ++ tok.take f) ++ (tok.drop f ++ 0 :: post) := by
      rw [List.append_assoc, ← List.append_assoc (tok.take f), List.take_append_drop]
    have hlen : pre.length + f = (pre ++ tok.take f).length := by
      rw [List.length_append, List.length_take, Nat.min_eq_left hf]
    rw [hsplit, hlen]
    exact cstr_append (fun h => h0 (List.mem_of_mem_drop h)) _ _
  rw [htrim, hcstr, List.length_drop] at hhigh
  rw [htrim] at hlow
  rw [List.length_append]
  simp only at hlow hhigh
  omega

/-! ### The record -/

/-- Memory, the fields stored so far, and the writes, each with the number of fields
that had been stored before. -/
structure Watched where
  mem : ParserMem
  stored : List Ptr
  written : List (ℕ × Ptr)

/-- `fields[count++] = trim(token)`. -/
def storedBy : (o : ParserOp) → ParserAns o → List Ptr
  | .trim _, field => [field]
  | _, _ => []

def watchedStep (w : Watched) (o : ParserOp) : ParserAns o × Watched :=
  ((parserStep w.mem o).1, ⟨(parserStep w.mem o).2, w.stored ++ storedBy o (parserStep w.mem o).1,
    w.written ++ (writes w.mem o).map fun p => (w.stored.length, p)⟩)

/-- Without the record it is the plain run. -/
theorem watched_run {α : Type} (n : ℕ) (p : Parser α) (w : Watched) :
    Prog.run parserStep n p w.mem
      = (Prog.run watchedStep n p w).map fun x => (x.1, x.2.mem) :=
  Prog.run_map Watched.mem (fun _ _ => rfl) n p w

/-- No byte changes without a record. -/
theorem watched_unchanged {α : Type} {n : ℕ} {p : Parser α} {w w' : Watched} {a : α}
    (hr : Prog.run watchedStep n p w = some (a, w')) {b k : ℕ}
    (hk : ∀ x ∈ w'.written, x.2 ≠ (b, k)) :
    (w'.mem.buffers b)[k]? = (w.mem.buffers b)[k]? := by
  -- as long as the place has not been written, it holds what it held
  have hkeeps := Prog.run_keeps
    (P := fun v => (∀ x ∈ v.written, x.2 ≠ (b, k)) →
      (v.mem.buffers b)[k]? = (w.mem.buffers b)[k]?)
    (fun v o hv hno => by
      have hold : ∀ x ∈ v.written, x.2 ≠ (b, k) :=
        fun x hx => hno x (List.mem_append_left _ hx)
      have hnew : (b, k) ∉ writes v.mem o := fun hmem =>
        hno (v.stored.length, (b, k))
          (List.mem_append_right _ (List.mem_map.mpr ⟨(b, k), hmem, rfl⟩)) rfl
      exact (writes_sound v.mem o hnew).trans (hv hold)) hr fun _ => rfl
  exact hkeeps hk

/-! ### split_fields -/

/-- The fields of an input: its non-empty comma-free segments, stripped. -/
def fieldsOf (input : Bytes) : List Bytes := (tokens 44 input).map strip

/-- The field pointers `fields` hold the strings `strs` in buffer `b`. -/
def Holds (b : ℕ) (m : Bytes) (fields : List Ptr) (strs : List Bytes) : Prop :=
  List.Forall₂ (fun p s => p.1 = b ∧ Kept m p.2 s) fields strs

theorem Holds.append {b : ℕ} {m : Bytes} {fields : List Ptr} {strs : List Bytes}
    (h : Holds b m fields strs) (x : Bytes) : Holds b (m ++ x) fields strs :=
  h.imp fun _ _ hp => ⟨hp.1, hp.2.append x⟩

theorem Holds.concat {b : ℕ} {m : Bytes} {fields : List Ptr} {strs : List Bytes}
    (h : Holds b m fields strs) {f : ℕ} {s : Bytes} (hs : Kept m f s) :
    Holds b m (fields ++ [(b, f)]) (strs ++ [s]) :=
  List.rel_append h (.cons ⟨rfl, hs⟩ .nil)

/-- A scan of buffer `b` has got as far as `m`: the stored fields hold the strings
`strs` there, and no write lies outside `m` or in another field, its NUL included. -/
structure Marks (b : ℕ) (m : Bytes) (strs : List Bytes) (w : Watched) : Prop where
  fields : Holds b m w.stored strs
  inside : ∀ x ∈ w.written, x.2.1 = b ∧ x.2.2 < m.length
  apart : ∀ x ∈ w.written, ∀ i p s, w.stored[i]? = some p → strs[i]? = some s → i ≠ x.1 →
    x.2.2 < p.2 ∨ p.2 + s.length < x.2.2

theorem Kept.lt {m : Bytes} {f : ℕ} {s : Bytes} (h : Kept m f s) : f + s.length < m.length := by
  obtain ⟨-, r, hr⟩ := h
  have hlen := congrArg List.length hr
  rw [List.length_drop, List.length_append, List.length_cons] at hlen
  omega

theorem Holds.get {b : ℕ} {m : Bytes} {fields : List Ptr} {strs : List Bytes}
    (h : Holds b m fields strs) {i : ℕ} {p : Ptr} {s : Bytes} (hp : fields[i]? = some p)
    (hs : strs[i]? = some s) : p.1 = b ∧ Kept m p.2 s := by
  obtain ⟨hi, rfl⟩ := List.getElem?_eq_some_iff.mp hp
  obtain ⟨hi', rfl⟩ := List.getElem?_eq_some_iff.mp hs
  exact List.Forall₂.get h hi hi'

section marks

variable {b : ℕ} {done y : Bytes} {strs : List Bytes} {w : Watched} {ks : List Ptr}

/-- Writes behind what has been scanned. -/
theorem Marks.write (h : Marks b done strs w)
    (hks : ∀ p ∈ ks, p.1 = b ∧ done.length ≤ p.2 ∧ p.2 < (done ++ y).length)
    (mem : ParserMem) : Marks b (done ++ y) strs
      ⟨mem, w.stored, w.written ++ ks.map fun p => (w.stored.length, p)⟩ where
  fields := h.fields.append y
  inside := by
    intro x hx
    rcases List.mem_append.mp hx with hx | hx
    · obtain ⟨hb, hlt⟩ := h.inside x hx
      rw [List.length_append]
      exact ⟨hb, by omega⟩
    · obtain ⟨p, hp, rfl⟩ := List.mem_map.mp hx
      exact ⟨(hks p hp).1, (hks p hp).2.2⟩
  apart := by
    intro x hx i p s hp hs hne
    rcases List.mem_append.mp hx with hx | hx
    · exact h.apart x hx i p s hp hs hne
    · -- the fields end before
      obtain ⟨q, hq, rfl⟩ := List.mem_map.mp hx
      have hlt := (h.fields.get hp hs).2.lt
      have hge := (hks q hq).2.1
      right
      simp only
      omega

/-- A turn of the loop: a field is stored, and all that is written for it lies behind
what had been scanned. -/
theorem Marks.turn (h : Marks b done strs w)
    (hks : ∀ p ∈ ks, p.1 = b ∧ done.length ≤ p.2 ∧ p.2 < (done ++ y).length) {g : ℕ} {s : Bytes}
    (hg : done.length ≤ g) (hkept : Kept (done ++ y) g s) (mem : ParserMem) :
    Marks b (done ++ y) (strs ++ [s])
      ⟨mem, w.stored ++ [(b, g)], w.written ++ ks.map fun p => (w.stored.length, p)⟩ := by
  have hw := h.write hks mem
  have hlen : w.stored.length = strs.length := h.fields.length_eq
  refine ⟨hw.fields.concat hkept, hw.inside, fun x hx i p s' hp hs hne => ?_⟩
  simp only at hp
  by_cases hi : i < w.stored.length
  · rw [List.getElem?_append_left hi] at hp
    rw [List.getElem?_append_left (by omega)] at hs
    exact hw.apart x hx i p s' hp hs hne
  · -- the new field
    have hlast : i = w.stored.length := by
      obtain ⟨hlt, -⟩ := List.getElem?_eq_some_iff.mp hp
      rw [List.length_append, List.length_singleton] at hlt
      omega
    rw [hlast, List.getElem?_concat_length] at hp
    obtain rfl := Option.some.inj hp
    rcases List.mem_append.mp hx with hx | hx
    · have hlt := (h.inside x hx).2
      left
      simp only
      omega
    · obtain ⟨q, -, rfl⟩ := List.mem_map.mp hx
      exact absurd hlast hne

end marks

/-- The memory after `strtok` returned a token and `trim` cut it. -/
private def memAfter (mem : ParserMem) (b : ℕ) (m : Bytes) (saved : ℕ) : ParserMem :=
  ⟨Function.update mem.buffers b m, some (b, saved)⟩

private theorem memAfter_self (mem : ParserMem) (b : ℕ) (m : Bytes) (i : ℕ) :
    (memAfter mem b m i).buffers b = m := Function.update_self ..

private theorem memAfter_ne (mem : ParserMem) {b b' : ℕ} (h : b' ≠ b) (m : Bytes) (i : ℕ) :
    (memAfter mem b m i).buffers b' = mem.buffers b' := Function.update_of_ne h ..

/-- One `strtok` on a NUL-terminated rest `tail`: only separators are left, or a
token is cut off, closed by the NUL of the string or by one written over a
comma, and `rest` is still to be scanned. -/
private theorem strtok_split {done tail : Bytes} (h0 : (0 : UInt8) ∉ tail) (junk : Bytes) :
    (tokens 44 tail = [] ∧ ∃ i, CString.strtok 44 (done ++ (tail ++ 0 :: junk)) done.length
      = ⟨none, i, done ++ (tail ++ 0 :: junk)⟩) ∨
    ∃ sep tok close rest post, tokens 44 tail = tok :: tokens 44 rest ∧ tail ≠ [] ∧
      (0 : UInt8) ∉ tok ∧ (0 : UInt8) ∉ rest ∧ 0 :: post = close ++ (rest ++ 0 :: junk) ∧
      (close = [] ∧ rest = [] ∨ close = [0]) ∧
      (done ++ (tail ++ 0 :: junk)).length = ((done ++ sep) ++ (tok ++ 0 :: post)).length ∧
      CString.strtok 44 (done ++ (tail ++ 0 :: junk)) done.length
        = ⟨some (done ++ sep).length, ((done ++ sep) ++ tok ++ close).length,
            (done ++ sep) ++ (tok ++ 0 :: post)⟩ := by
  rcases token_shape 44 tail with hsep | ⟨sep, tok, hsep, htok, hd, rfl | ⟨rest, rfl⟩⟩
  · exact .inl ⟨tokens_seps hsep, _, strtok_nil done (by decide) hsep⟩
  · right
    have htok0 : (0 : UInt8) ∉ tok := fun h => h0 (by simp [h])
    refine ⟨sep, tok, [], [], junk, ?_, by simp [htok], htok0, by simp, by simp,
      .inl ⟨rfl, rfl⟩, by simp, ?_⟩
    · rw [tokens_sep_append hsep, tokens_of_notMem hd htok]
      rfl
    · rw [List.append_assoc sep, strtok_last done htok hd htok0 hsep]
      simp [Nat.add_assoc]
  · right
    have htok0 : (0 : UInt8) ∉ tok := fun h => h0 (by simp [h])
    have hrest0 : (0 : UInt8) ∉ rest := fun h => h0 (by simp [h])
    refine ⟨sep, tok, [0], rest, rest ++ 0 :: junk, ?_, by simp, htok0, hrest0, by simp,
      .inr rfl, by simp, ?_⟩
    · rw [tokens_sep_append hsep, tokens_append_sep, tokens_of_notMem hd htok]
      rfl
    · have hshape : sep ++ (tok ++ 44 :: rest) ++ 0 :: junk
          = sep ++ (tok ++ 44 :: (rest ++ 0 :: junk)) := by simp
      rw [hshape, strtok_comma done htok hd htok0 (by decide) hsep]
      simp [Nat.add_assoc]

section scan

variable {b n : ℕ} {w : Watched}

private theorem writes_strtok {start : Option Ptr} {i : ℕ}
    (hstart : (start <|> w.mem.saved) = some (b, i)) : writes w.mem (.strtok start)
      = (strtokWrites 44 (w.mem.buffers b) i).map fun k => (b, k) := by
  simp only [writes, hstart]

private theorem writes_strtok_bound {start : Option Ptr} {i s j : ℕ} {m : Bytes} {p : Ptr}
    (hstart : (start <|> w.mem.saved) = some (b, i))
    (h : CString.strtok 44 (w.mem.buffers b) i = ⟨some s, j, m⟩)
    (hp : p ∈ writes w.mem (.strtok start)) : p.1 = b ∧ s ≤ p.2 ∧ p.2 < j := by
  rw [writes_strtok hstart] at hp
  obtain ⟨k, hk, rfl⟩ := List.mem_map.mp hp
  obtain ⟨s', htok, hle, hsaved⟩ := mem_strtokWrites hk
  rw [h] at htok hsaved
  obtain rfl := Option.some.inj htok
  refine ⟨rfl, hle, ?_⟩
  rw [show j = k + 1 from hsaved]
  exact Nat.lt_succ_self k

private theorem strtok_run {α : Type} {start : Option Ptr} {i : ℕ}
    (hstart : (start <|> w.mem.saved) = some (b, i)) (k : Option Ptr → Parser α) {t : Option ℕ}
    {j : ℕ} {m : Bytes} (h : CString.strtok 44 (w.mem.buffers b) i = ⟨t, j, m⟩) :
    Prog.run watchedStep n ((strtok start).bind k) w
      = Prog.run watchedStep n (k (t.map fun i => (b, i))) ⟨memAfter w.mem b m j, w.stored,
          w.written ++ (writes w.mem (.strtok start)).map fun p => (w.stored.length, p)⟩ := by
  have hstep : parserStep w.mem (.strtok start)
      = (t.map fun i => (b, i), memAfter w.mem b m j) := by
    show strtokFrom w.mem (start <|> w.mem.saved) = _
    rw [hstart, strtokFrom]
    simp only [h, memAfter]
  show Prog.run watchedStep n (k (parserStep w.mem (.strtok start)).1)
    ⟨(parserStep w.mem (.strtok start)).2, w.stored ++ [], _⟩ = _
  rw [hstep, List.append_nil]

/-- One turn of the loop on a token: `trim` cuts it, then the scan goes on. -/
private theorem splitLoop_token {room : ℕ} {pre tok post tok' : Bytes}
    {fields : List Ptr} {i f : ℕ} {mem : ParserMem} {stored : List Ptr} {written : List (ℕ × Ptr)}
    (htrim : trim (pre ++ (tok ++ 0 :: post)) pre.length
      = (pre.length + f, pre ++ (tok' ++ 0 :: post))) :
    Prog.run watchedStep n (splitLoop (room + 1) (some (b, pre.length)) fields)
        ⟨memAfter mem b (pre ++ (tok ++ 0 :: post)) i, stored, written⟩
      = Prog.run watchedStep n
          ((strtok none).bind fun t => splitLoop room t (fields ++ [(b, pre.length + f)]))
          ⟨memAfter mem b (pre ++ (tok' ++ 0 :: post)) i, stored ++ [(b, pre.length + f)],
            written ++ ((trimWrites (pre ++ (tok ++ 0 :: post)) pre.length).map
              fun k => (b, k)).map fun p => (stored.length, p)⟩ := by
  have hstep : parserStep (memAfter mem b (pre ++ (tok ++ 0 :: post)) i) (.trim (b, pre.length))
      = ((b, pre.length + f), memAfter mem b (pre ++ (tok' ++ 0 :: post)) i) := by
    simp only [parserStep, memAfter_self, htrim]
    simp only [memAfter, Function.update_idem]
  have hwrites : writes (memAfter mem b (pre ++ (tok ++ 0 :: post)) i) (.trim (b, pre.length))
      = (trimWrites (pre ++ (tok ++ 0 :: post)) pre.length).map fun k => (b, k) := by
    simp only [writes, memAfter_self]
  show Prog.run watchedStep n _ (watchedStep _ (.trim (b, pre.length))).2 = _
  simp only [watchedStep, hstep, hwrites]
  rfl

/-- What a scan of buffer `b` makes of the text `tail` behind `len` bytes: its first
`room` fields are stored, and returned if there are no more. -/
structure Scan (b room : ℕ) (strs : List Bytes) (len : ℕ) (tail junk : Bytes) (w : Watched)
    (r : Option (List Ptr)) (w' : Watched) : Prop where
  result : r = if (tokens 44 tail).length ≤ room then some w'.stored else none
  others : ∀ b', b' ≠ b → w'.mem.buffers b' = w.mem.buffers b'
  marks : ∃ m, w'.mem.buffers b = m ++ junk ∧ m.length = len + tail.length + 1 ∧
    Marks b m (strs ++ (fieldsOf tail).take room) w'

/-- No token is left: the loop returns the fields it has. -/
private theorem splitLoop_done {room i : ℕ} {strs : List Bytes} {done tail junk : Bytes}
    {start : Option Ptr} (hmem : w.mem.buffers b = done ++ (tail ++ 0 :: junk))
    (hstart : (start <|> w.mem.saved) = some (b, done.length))
    (hmarks : Marks b (done ++ if tail = [] then [0] else []) strs w)
    (hnil : tokens 44 tail = [])
    (hs : CString.strtok 44 (w.mem.buffers b) done.length = ⟨none, i, w.mem.buffers b⟩) :
    ∃ r w', Prog.run watchedStep n ((strtok start).bind fun t => splitLoop room t w.stored) w
        = some (r, w') ∧ Scan b room strs done.length tail junk w r w' := by
  -- nothing is written
  have hnone : writes w.mem (.strtok start) = [] := by
    rw [writes_strtok hstart, List.map_eq_nil_iff, List.eq_nil_iff_forall_not_mem]
    intro k hk
    obtain ⟨_, htok, -⟩ := mem_strtokWrites hk
    rw [hs] at htok
    cases htok
  have hext : (done ++ if tail = [] then [0] else []) ++ (if tail = [] then [] else tail ++ [0])
      = done ++ (tail ++ [0]) := by
    by_cases ht : tail = []
    · simp [ht]
    · simp [ht]
  have hks : ∀ p ∈ ([] : List Ptr), p.1 = b ∧
      (done ++ if tail = [] then [0] else []).length ≤ p.2 ∧
      p.2 < ((done ++ if tail = [] then [0] else []) ++
        if tail = [] then [] else tail ++ [0]).length := by simp
  have hfinal := hmarks.write hks (memAfter w.mem b (w.mem.buffers b) i)
  have hstrs : strs = strs ++ (fieldsOf tail).take room := by
    rw [fieldsOf, hnil, List.map_nil, List.take_nil, List.append_nil]
  rw [hext, hstrs] at hfinal
  refine ⟨some w.stored, ⟨memAfter w.mem b (w.mem.buffers b) i, w.stored, w.written ++ [].map _⟩,
    ?_, ?_, ?_, done ++ (tail ++ [0]), ?_, ?_, hfinal⟩
  · rw [strtok_run hstart _ hs, hnone, Option.map_none, splitLoop]
    rfl
  · rw [hnil, List.length_nil, if_pos (Nat.zero_le _)]
  · exact fun b' hb' => memAfter_ne w.mem hb' _ _
  · rw [memAfter_self, hmem]
    simp
  · simp only [List.length_append, List.length_singleton]
    omega

section token

variable {strs : List Bytes} {done tail junk sep tok close rest post : Bytes} {start : Option Ptr}
  (hmarks : Marks b done strs w) (hstart : (start <|> w.mem.saved) = some (b, done.length))
  (hs : CString.strtok 44 (w.mem.buffers b) done.length
    = ⟨some (done ++ sep).length, ((done ++ sep) ++ tok ++ close).length,
        (done ++ sep) ++ (tok ++ 0 :: post)⟩)
include hmarks hstart hs

/-- One token too many: `strtok` has closed it, and -1 is returned. -/
private theorem splitLoop_full (htoks : tokens 44 tail = tok :: tokens 44 rest)
    (hpost : 0 :: post = close ++ (rest ++ 0 :: junk))
    (hlen : (done ++ (tail ++ 0 :: junk)).length
      = ((done ++ sep) ++ (tok ++ 0 :: post)).length) :
    ∃ r w', Prog.run watchedStep n ((strtok start).bind fun t => splitLoop 0 t w.stored) w
        = some (r, w') ∧ Scan b 0 strs done.length tail junk w r w' := by
  set y : Bytes := sep ++ tok ++ close ++ rest ++ [0] with hy
  have hm : (done ++ sep) ++ (tok ++ 0 :: post) = (done ++ y) ++ junk := by
    rw [hpost, hy]
    simp
  have hlen' : (done ++ y).length = done.length + tail.length + 1 := by
    rw [hm] at hlen
    simp only [List.length_append, List.length_cons] at hlen ⊢
    omega
  have hks : ∀ p ∈ writes w.mem (.strtok start), p.1 = b ∧ done.length ≤ p.2 ∧
      p.2 < (done ++ y).length := by
    intro p hp
    obtain ⟨hb, hle, hlt⟩ := writes_strtok_bound hstart hs hp
    rw [hy]
    simp only [List.length_append] at hle hlt ⊢
    exact ⟨hb, by omega, by omega⟩
  have hwrite := hmarks.write hks (memAfter w.mem b ((done ++ sep) ++ (tok ++ 0 :: post))
    ((done ++ sep) ++ tok ++ close).length)
  have hstrs : strs = strs ++ (fieldsOf tail).take 0 := by
    rw [List.take_zero, List.append_nil]
  rw [hstrs] at hwrite
  refine ⟨none, ⟨_, w.stored, _⟩, ?_, ?_, ?_, _, ?_, hlen', hwrite⟩
  · rw [strtok_run hstart _ hs]
    rfl
  · rw [htoks, if_neg (by simp)]
  · exact fun b' hb' => memAfter_ne w.mem hb' _ _
  · rw [memAfter_self, hm]

/-- What a turn adds: the stripped token is stored, and `strtok` and `trim` have
written behind `done`.  The token has a NUL of its own, or that of the text. -/
private theorem Marks.token {tok' : Bytes} {f : ℕ} (htok0 : (0 : UInt8) ∉ tok)
    (hclose : close = [] ∧ rest = [] ∨ close = [0])
    (htrim : trim ((done ++ sep) ++ (tok ++ 0 :: post)) (done ++ sep).length
      = ((done ++ sep).length + f, (done ++ sep) ++ (tok' ++ 0 :: post)))
    (htoklen : tok'.length = tok.length) (hkept : Kept (tok' ++ [0]) f (strip tok))
    (mem : ParserMem) :
    Marks b (((done ++ sep) ++ tok' ++ close) ++ if rest = [] then [0] else [])
      (strs ++ [strip tok]) ⟨mem, w.stored ++ [(b, (done ++ sep).length + f)],
        w.written ++ (writes w.mem (.strtok start) ++
          (trimWrites ((done ++ sep) ++ (tok ++ 0 :: post)) (done ++ sep).length).map
            fun k => (b, k)).map fun p => (w.stored.length, p)⟩ := by
  have hf : f ≤ tok.length := by
    have hlt := hkept.lt
    rw [List.length_append, List.length_singleton, htoklen] at hlt
    omega
  obtain ⟨x, hx⟩ : ∃ x, (((done ++ sep) ++ tok' ++ close) ++ if rest = [] then [0] else [])
      = (done ++ sep) ++ (tok' ++ [0]) ++ x := by
    rcases hclose with ⟨rfl, rfl⟩ | rfl
    · exact ⟨[], by simp⟩
    · exact ⟨if rest = [] then [0] else [], by simp⟩
  have hsaved : ((done ++ sep) ++ tok ++ close).length
      ≤ ((done ++ sep) ++ (tok' ++ [0]) ++ x).length := by
    rw [← hx]
    simp only [List.length_append, htoklen]
    omega
  have hy : (done ++ sep) ++ (tok' ++ [0]) ++ x = done ++ (sep ++ (tok' ++ [0]) ++ x) := by
    simp only [List.append_assoc]
  have hks : ∀ p ∈ writes w.mem (.strtok start) ++
      (trimWrites ((done ++ sep) ++ (tok ++ 0 :: post)) (done ++ sep).length).map
        (fun k => (b, k)), p.1 = b ∧ done.length ≤ p.2 ∧
      p.2 < (done ++ (sep ++ (tok' ++ [0]) ++ x)).length := by
    intro p hp
    rw [← hy]
    rcases List.mem_append.mp hp with hp | hp
    · obtain ⟨hb, hle, hlt⟩ := writes_strtok_bound hstart hs hp
      rw [List.length_append] at hle
      exact ⟨hb, by omega, by omega⟩
    · obtain ⟨k, hk, rfl⟩ := List.mem_map.mp hp
      obtain ⟨hle, hlt⟩ := trimWrites_bound htok0 htrim hf hk
      simp only [List.length_append, List.length_singleton] at hle hlt ⊢
      exact ⟨trivial, by omega, by omega⟩
  rw [hx, hy]
  refine hmarks.turn hks ?_ ?_ mem
  · rw [List.length_append]
    omega
  · rw [← hy]
    exact (hkept.shift _).append x

end token

/-- The loop from any point on.  Induction on the room left; what is already
scanned ends in a NUL of its own as soon as text is left, so later writes do
not reach it. -/
theorem splitLoop_watched (n room : ℕ) : ∀ {strs : List Bytes} {done tail junk : Bytes}
    (start : Option Ptr) (w : Watched), w.mem.buffers b = done ++ (tail ++ 0 :: junk) →
    (0 : UInt8) ∉ tail → (start <|> w.mem.saved) = some (b, done.length) →
    Marks b (done ++ if tail = [] then [0] else []) strs w →
    ∃ r w', Prog.run watchedStep n ((strtok start).bind fun t => splitLoop room t w.stored) w
        = some (r, w') ∧ Scan b room strs done.length tail junk w r w' := by
  induction room with
  | zero =>
    intro strs done tail junk start w hmem h0 hstart hmarks
    rcases strtok_split h0 junk with ⟨hnil, i, hs⟩ | ⟨sep, tok, close, rest, post, htoks, htail, -,
      -, hpost, -, hlen, hs⟩
    · rw [← hmem] at hs
      exact splitLoop_done hmem hstart hmarks hnil hs
    · rw [← hmem] at hs
      rw [if_neg htail, List.append_nil] at hmarks
      exact splitLoop_full hmarks hstart hs htoks hpost hlen
  | succ room ih =>
    intro strs done tail junk start w hmem h0 hstart hmarks
    rcases strtok_split h0 junk with ⟨hnil, i, hs⟩ | ⟨sep, tok, close, rest, post, htoks, htail,
      htok0, hrest0, hpost, hclose, hlen, hs⟩
    · rw [← hmem] at hs
      exact splitLoop_done hmem hstart hmarks hnil hs
    · rw [← hmem] at hs
      rw [if_neg htail, List.append_nil] at hmarks
      obtain ⟨tok', f, htrim, htoklen, hkept⟩ := trim_spec htok0 (done ++ sep) post
      have hturn := hmarks.token hstart hs htok0 hclose htrim htoklen hkept
        (memAfter w.mem b ((done ++ sep) ++ (tok' ++ 0 :: post))
          ((done ++ sep) ++ tok' ++ close).length)
      have hsaved : ((done ++ sep) ++ tok ++ close).length
          = ((done ++ sep) ++ tok' ++ close).length := by
        simp only [List.length_append, htoklen]
      have hshape : (done ++ sep) ++ (tok' ++ 0 :: post)
          = ((done ++ sep) ++ tok' ++ close) ++ (rest ++ 0 :: junk) := by
        rw [hpost]
        simp only [List.append_assoc]
      obtain ⟨r, w', hrun, hresult, hothers, m, hm, hmlen, hmarks'⟩ := ih none _
        (by rw [memAfter_self, hshape]) hrest0 rfl hturn
      refine ⟨r, w', ?_, ?_, ?_, m, hm, ?_, ?_⟩
      · rw [strtok_run hstart _ hs, Option.map_some, splitLoop_token htrim, hsaved,
          List.append_assoc w.written, ← List.map_append]
        exact hrun
      · rw [hresult, htoks, List.length_cons]
        simp only [Nat.succ_le_succ_iff]
      · exact fun b' hb' => (hothers b' hb').trans (memAfter_ne w.mem hb' _ _)
      · have hpostlen := congrArg List.length hpost
        rw [hmlen, ← hsaved]
        simp only [List.length_append, List.length_cons] at hlen hpostlen ⊢
        omega
      · rw [fieldsOf, htoks, List.map_cons, List.take_succ_cons, List.append_cons]
        exact hmarks'

/-- `split_fields` on a string in buffer `b`. -/
theorem splitFields_watched (n room : ℕ) {input junk : Bytes} {mem : ParserMem}
    (hmem : mem.buffers b = input ++ 0 :: junk) (h0 : (0 : UInt8) ∉ input) :
    ∃ r w', Prog.run watchedStep n (splitFields (b, 0) room) ⟨mem, [], []⟩ = some (r, w') ∧
      Scan b room [] 0 input junk ⟨mem, [], []⟩ r w' := by
  have hmarks : Marks b ([] ++ if input = [] then [0] else []) [] ⟨mem, [], []⟩ :=
    ⟨.nil, by simp, by simp⟩
  exact splitLoop_watched n room (some (b, 0)) ⟨mem, [], []⟩ hmem h0 rfl hmarks

end scan

/-- What a scan of buffer `b` does: other buffers keep their contents, this one
its length, and the fields are those of the text `tail` that was left. -/
def Scanned (b room : ℕ) (strs : List Bytes) (tail : Bytes) (mem mem' : ParserMem)
    (r : Option (List Ptr)) : Prop :=
  (∀ b', b' ≠ b → mem'.buffers b' = mem.buffers b') ∧
  (mem'.buffers b).length = (mem.buffers b).length ∧
  if (tokens 44 tail).length ≤ room then
    ∃ fields, r = some fields ∧ Holds b (mem'.buffers b) fields (strs ++ fieldsOf tail)
  else r = none

theorem Scan.scanned {b room : ℕ} {strs : List Bytes} {len : ℕ} {tail junk : Bytes}
    {w w' : Watched} {r : Option (List Ptr)} (h : Scan b room strs len tail junk w r w')
    (hlen : (w.mem.buffers b).length = len + tail.length + 1 + junk.length) :
    Scanned b room strs tail w.mem w'.mem r := by
  obtain ⟨m, hm, hmlen, hmarks⟩ := h.marks
  refine ⟨h.others, ?_, ?_⟩
  · rw [hm, List.length_append, hmlen, hlen]
  · rw [h.result]
    by_cases hroom : (tokens 44 tail).length ≤ room
    · rw [if_pos hroom, if_pos hroom]
      have htake : (fieldsOf tail).take room = fieldsOf tail :=
        List.take_of_length_le (by rw [fieldsOf, List.length_map]; exact hroom)
      refine ⟨w'.stored, rfl, ?_⟩
      rw [hm, ← htake]
      exact hmarks.fields.append junk
    · rw [if_neg hroom, if_neg hroom]

/-- The same without the record. -/
theorem splitFields_run {b : ℕ} (n room : ℕ) {input junk : Bytes} {mem : ParserMem}
    (hmem : mem.buffers b = input ++ 0 :: junk) (h0 : (0 : UInt8) ∉ input) :
    ∃ r mem', Prog.run parserStep n (splitFields (b, 0) room) mem = some (r, mem') ∧
      Scanned b room [] input mem mem' r := by
  obtain ⟨r, w', hrun, hscan⟩ := splitFields_watched n room hmem h0
  refine ⟨r, w'.mem, ?_, hscan.scanned ?_⟩
  · rw [watched_run n (splitFields (b, 0) room) ⟨mem, [], []⟩, hrun]
    rfl
  · rw [hmem, List.length_append, List.length_cons]
    omega

/-! ### The specification -/

/-- What is asked of `split_fields` on `text` in buffer `b`, run from `mem`: `r` is what
it returns, `none` for -1, and `w` holds the memory at the end and the record. -/
structure Tokenized (b : ℕ) (text : Bytes) (mem : ParserMem) (r : Option (List Ptr))
    (w : Watched) : Prop where
  rejects : r = none ↔ 8 < (tokens 44 text).length
  returns : ∀ fields, r = some fields → fields = w.stored ∧
    fields.length = (tokens 44 text).length ∧
    fields.map (fun p => cstr (w.mem.buffers p.1) p.2) = (tokens 44 text).map strip
  /-- So it is with the first 8 when there are more. -/
  stored : w.stored.map (fun p => cstr (w.mem.buffers p.1) p.2)
    = ((tokens 44 text).map strip).take 8
  inside : ∀ x ∈ w.written, x.2.1 = b ∧ x.2.2 ≤ text.length ∧ x.2.2 < (mem.buffers b).length
  /-- What is written for one field is written before another or behind its NUL. -/
  apart : ∀ x ∈ w.written, ∀ i p, w.stored[i]? = some p → i ≠ x.1 →
    x.2.2 < p.2 ∨ p.2 + (cstr (w.mem.buffers p.1) p.2).length < x.2.2
  recorded : ∀ b' k, (∀ x ∈ w.written, x.2 ≠ (b', k)) →
    (w.mem.buffers b')[k]? = (mem.buffers b')[k]?

theorem Holds.map_cstr {b : ℕ} {buffers : ℕ → Bytes} {fields : List Ptr} {strs : List Bytes}
    (h : Holds b (buffers b) fields strs) :
    fields.map (fun p => cstr (buffers p.1) p.2) = strs := by
  induction h with
  | nil => rfl
  | cons hp _ ih =>
    obtain ⟨hb, hkept⟩ := hp
    rw [List.map_cons, ih, hb, hkept.cstr_eq]

theorem Scan.tokenized {b n : ℕ} {text junk : Bytes} {mem : ParserMem} {r : Option (List Ptr)}
    {w : Watched} (hmem : mem.buffers b = text ++ 0 :: junk)
    (hrun : Prog.run watchedStep n (splitFields (b, 0) TCP_PARSER_MAX_FIELDS) ⟨mem, [], []⟩
      = some (r, w))
    (h : Scan b TCP_PARSER_MAX_FIELDS [] 0 text junk ⟨mem, [], []⟩ r w) :
    Tokenized b text mem r w := by
  obtain ⟨m, hm, hmlen, hmarks⟩ := h.marks
  rw [List.nil_append] at hmarks
  have hholds : Holds b (w.mem.buffers b) w.stored ((fieldsOf text).take 8) := by
    rw [hm]
    exact hmarks.fields.append junk
  refine ⟨?_, ?_, hholds.map_cstr, ?_, ?_, fun b' k hk => watched_unchanged hrun hk⟩
  · rw [h.result, ite_eq_right_iff, TCP_PARSER_MAX_FIELDS]
    simp
  · intro fields hfields
    rw [h.result] at hfields
    split at hfields
    · rename_i hroom
      obtain rfl := Option.some.inj hfields
      have htake : (fieldsOf text).take 8 = fieldsOf text :=
        List.take_of_length_le (by rw [fieldsOf, List.length_map]; exact hroom)
      rw [htake] at hholds
      refine ⟨rfl, ?_, hholds.map_cstr⟩
      rw [hholds.length_eq, fieldsOf, List.length_map]
    · cases hfields
  · intro x hx
    obtain ⟨hb, hlt⟩ := hmarks.inside x hx
    rw [hmlen, Nat.zero_add] at hlt
    rw [hmem, List.length_append, List.length_cons]
    exact ⟨hb, by omega, by omega⟩
  · intro x hx i p hp hne
    obtain ⟨s, hs⟩ : ∃ s, ((fieldsOf text).take 8)[i]? = some s := by
      obtain ⟨hi, -⟩ := List.getElem?_eq_some_iff.mp hp
      rw [hholds.length_eq] at hi
      exact ⟨_, List.getElem?_eq_getElem hi⟩
    obtain ⟨hb, hkept⟩ := hholds.get hp hs
    rw [hb, hkept.cstr_eq]
    exact hmarks.apart x hx i p s hp hs hne

/-- What stands before the first NUL, and the NUL. -/
theorem cstr_decomp {m : Bytes} (h : (0 : UInt8) ∈ m) : ∃ junk, m = cstr m 0 ++ 0 :: junk := by
  have hsplit := List.takeWhile_append_dropWhile (p := (· != 0)) (l := m)
  cases hdrop : m.dropWhile (· != 0) with
  | nil =>
    rw [List.dropWhile_eq_nil_iff] at hdrop
    exact absurd (hdrop 0 h) (by simp)
  | cons c junk =>
    have hc : c = 0 := by
      have hhead := List.head_dropWhile_not (· != 0) (l := m) (by rw [hdrop]; simp)
      simpa [hdrop] using hhead
    rw [hdrop, hc] at hsplit
    exact ⟨junk, hsplit.symm⟩

/-- The tokenizer is its specification, in every buffer that holds a NUL. -/
theorem splitFields_tokenizes {b : ℕ} {mem : ParserMem} (h : (0 : UInt8) ∈ mem.buffers b)
    (n : ℕ) : ∃ r w,
      Prog.run watchedStep n (splitFields (b, 0) TCP_PARSER_MAX_FIELDS) ⟨mem, [], []⟩
        = some (r, w) ∧
      Prog.run parserStep n (splitFields (b, 0) TCP_PARSER_MAX_FIELDS) mem = some (r, w.mem) ∧
      Tokenized b (cstr (mem.buffers b) 0) mem r w := by
  obtain ⟨junk, hmem⟩ := cstr_decomp h
  have h0 : (0 : UInt8) ∉ cstr (mem.buffers b) 0 := zero_notMem_takeWhile _
  obtain ⟨r, w, hrun, hscan⟩ := splitFields_watched n TCP_PARSER_MAX_FIELDS hmem h0
  refine ⟨r, w, hrun, ?_, hscan.tokenized hmem hrun⟩
  rw [watched_run n (splitFields (b, 0) TCP_PARSER_MAX_FIELDS) ⟨mem, [], []⟩, hrun]
  rfl

/-- Separators at both ends, an empty field, and one that is all whitespace. -/
def spacedMem : ParserMem := ⟨fun _ => bytes ", QUERY ,,  ,7,\x00", none⟩

theorem spacedMem_tokenizes : ∃ r w,
    Prog.run watchedStep 0 (splitFields (0, 0) TCP_PARSER_MAX_FIELDS) ⟨spacedMem, [], []⟩
      = some (r, w) ∧
    Prog.run parserStep 0 (splitFields (0, 0) TCP_PARSER_MAX_FIELDS) spacedMem
      = some (r, w.mem) ∧
    Tokenized 0 (cstr (spacedMem.buffers 0) 0) spacedMem r w :=
  splitFields_tokenizes (by decide) 0

end TcpParser
