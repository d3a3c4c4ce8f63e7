/-
Commands cut out of a stream of bytes.

The parser takes commas and whitespace around a command, and a command ends in a
number or a keyword.  A number is not continued by what a command starts with,
so `accepted` is `Framing.SelfDelimiting` (`selfDelimiting_accepted`): cutting
the stream in two ways, into accepted commands each time, gives the same
commands, and two commands in one chunk are refused.
-/
import SensorGateway.Framing
import SensorGateway.Grammar

open CString

namespace TcpParser

variable {D : Type} [Libc D] {u x z : Bytes}

/-- What the parser skips around a command. -/
def Blank (c : UInt8) : Prop := c = 44 ∨ isspace c

/-! ### Tokens of a text that is continued -/

theorem tokens_eq_nil {d : UInt8} {s : Bytes} (h : tokens d s = []) : ∀ c ∈ s, c = d := by
  intro c hc
  have hs : ([d] : Bytes).intercalate (s.splitOn d) = s := List.intercalate_splitOn d
  rw [← hs] at hc
  rcases Separated.mem_of_mem_intercalate hc with hc | ⟨t, ht, hct⟩
  · exact List.mem_singleton.mp hc
  · rw [tokens, List.filter_eq_nil_iff] at h
    have := h t ht
    simp only [Bool.not_eq_true', Bool.not_eq_false, List.isEmpty_iff] at this
    rw [this] at hct
    cases hct

/-- The tokens up to the last comma and those after it. -/
theorem exists_last_comma (u : Bytes) : ∃ p q, u = p ++ q ∧ (44 : UInt8) ∉ q ∧
    ∀ s, tokens 44 (p ++ s) = tokens 44 p ++ tokens 44 s := by
  refine ⟨u.rdropWhile (· != 44), u.rtakeWhile (· != 44), ?_, ?_, ?_⟩
  · rw [List.rdropWhile_append_rtakeWhile]
  · intro h
    simpa using List.mem_rtakeWhile_imp h
  · intro s
    rcases List.eq_nil_or_concat (u.rdropWhile (· != 44)) with hp | ⟨p, c, hp⟩
    · rw [hp]
      rfl
    · have hne : u.rdropWhile (· != 44) ≠ [] := by rw [hp]; simp
      have hlast := List.rdropWhile_last_not (· != 44) u hne
      obtain rfl : c = 44 := by simpa [hp] using hlast
      rw [hp, List.concat_eq_append, List.append_assoc, List.singleton_append, tokens_append_sep,
        tokens_append_sep]
      simp

/-- The part of a text before its first comma. -/
def upToComma (x : Bytes) : Bytes := x.takeWhile (· != 44)

def fromComma (x : Bytes) : Bytes := x.dropWhile (· != 44)

theorem upToComma_append (x : Bytes) : upToComma x ++ fromComma x = x :=
  List.takeWhile_append_dropWhile

theorem comma_notMem_upToComma (x : Bytes) : (44 : UInt8) ∉ upToComma x := by
  intro h
  simpa using List.mem_takeWhile_imp h

/-- A text put in front of another joins its tokens with those up to the first comma. -/
theorem tokens_append (q x : Bytes) :
    tokens 44 (q ++ x) = tokens 44 (q ++ upToComma x) ++ tokens 44 (fromComma x) := by
  conv_lhs => rw [← upToComma_append x, ← List.append_assoc]
  rcases hz : fromComma x with _ | ⟨c, z⟩
  · simp
  · have hdrop : x.dropWhile (· != 44) = c :: z := hz
    have hhead := List.head_dropWhile_not (· != 44) (l := x) (by rw [hdrop]; simp)
    obtain rfl : c = 44 := by simpa [hdrop] using hhead
    rw [tokens_append_sep, tokens_cons_sep]

/-! ### Padding in front -/

theorem fieldsOf_comma (z : Bytes) : fieldsOf (44 :: z) = fieldsOf z := by
  rw [fieldsOf, tokens_cons_sep, fieldsOf]

/-- The first field of a text that does not start with a comma. -/
theorem fieldsOf_cons {c : UInt8} (hc : c ≠ 44) (x : Bytes) :
    fieldsOf (c :: x) = strip (c :: upToComma x) :: (tokens 44 (fromComma x)).map strip := by
  have hnot : (44 : UInt8) ∉ c :: upToComma x := by
    rw [List.mem_cons, not_or]
    exact ⟨hc.symm, comma_notMem_upToComma x⟩
  have htok := tokens_append [c] x
  rw [List.singleton_append, List.singleton_append, tokens_of_notMem hnot (by simp)] at htok
  rw [fieldsOf, htok]
  rfl

theorem not_commandOf_nil (fields : List Bytes) (cmd : TcpCommand D) :
    commandOf ([] :: fields) ≠ some cmd := by
  intro h
  rcases commandOf_keyword h with ⟨h, -⟩ | ⟨h, -⟩ | ⟨h, -⟩ <;> exact absurd h (by decide)

/-- Whitespace in front of a command belongs to its first field. -/
theorem fieldsOf_space {c : UInt8} (hc : isspace c) {cmd : TcpCommand D}
    (h : commandOf (fieldsOf (c :: z)) = some cmd) : fieldsOf (c :: z) = fieldsOf z := by
  have hcomma : c ≠ 44 := by
    rintro rfl
    exact absurd hc (by decide)
  have hstrip : strip (c :: upToComma z) = strip (upToComma z) := by
    have := strip_surround (a := [c]) (b := []) (by simpa using hc) (by simp) (upToComma z)
    simpa using this
  rw [fieldsOf_cons hcomma, hstrip] at h ⊢
  have htok := tokens_append [] z
  rw [List.nil_append, List.nil_append] at htok
  rcases hz : upToComma z with _ | ⟨d, y⟩
  · rw [hz] at h
    exact absurd h (not_commandOf_nil _ cmd)
  · have hnot := comma_notMem_upToComma z
    rw [hz] at htok hnot
    rw [fieldsOf, htok, tokens_of_notMem hnot (by simp)]
    rfl

theorem accepted_skip (hx : ∀ c ∈ x, Blank c) {cmd : TcpCommand D}
    (h : accepted (x ++ z) = some cmd) : accepted z = some cmd := by
  induction x with
  | nil => exact h
  | cons c x ih =>
    refine ih (fun d hd => hx d (by simp [hd])) ?_
    rw [List.cons_append, accepted] at h
    split at h
    · rename_i hlen
      rw [accepted, if_pos (by rw [List.length_cons] at hlen; omega)]
      rcases hx c (by simp) with rfl | hc
      · rwa [fieldsOf_comma] at h
      · rwa [← fieldsOf_space hc h]
    · cases h

/-! ### The start of a command -/

/-- A command starts with padding or with the first letter of a keyword. -/
theorem accepted_head {cmd : TcpCommand D} (h : accepted x = some cmd) :
    ∃ c s, x = c :: s ∧ (Blank c ∨ c = 83 ∨ c = 81 ∨ c = 72) := by
  rw [accepted] at h
  split at h
  swap
  · cases h
  rcases x with _ | ⟨c, x⟩
  · cases h
  refine ⟨c, x, rfl, ?_⟩
  by_cases hc : c = 44
  · exact .inl (.inl hc)
  by_cases hsp : isspace c
  · exact .inl (.inr hsp)
  rw [fieldsOf_cons hc] at h
  -- the first field starts with the first byte
  have hfirst : (strip (c :: upToComma x)).head? = some c := by
    obtain ⟨a, b, hab, ha, hb⟩ := strip_decomp (c :: upToComma x)
    rcases a with _ | ⟨d, a⟩
    · rw [List.nil_append] at hab
      rcases hs : strip (c :: upToComma x) with _ | ⟨d, s⟩
      · rw [hs, List.nil_append] at hab
        exact absurd (hb c (by rw [← hab]; simp)) hsp
      · rw [hs] at hab
        rw [(List.cons.inj hab).1]
        rfl
    · obtain ⟨rfl, -⟩ := List.cons.inj hab
      exact absurd (ha c (by simp)) hsp
  rcases commandOf_keyword h with ⟨hk, -⟩ | ⟨hk, -⟩ | ⟨hk, -⟩
  · rw [hk] at hfirst
    exact .inr (.inl (Option.some.inj hfirst).symm)
  · rw [hk] at hfirst
    exact .inr (.inr (.inl (Option.some.inj hfirst).symm))
  · rw [hk] at hfirst
    exact .inr (.inr (.inr (Option.some.inj hfirst).symm))

/-- A command holds more than padding. -/
theorem accepted_solid {cmd : TcpCommand D} (h : accepted x = some cmd) :
    ∃ c ∈ x, ¬ Blank c := by
  rw [accepted] at h
  split at h
  swap
  · cases h
  have hblank : ∀ c ∈ [(83 : UInt8), 81, 72], ¬ (c = 44 ∨ isspace c) := by decide +kernel
  rcases hf : fieldsOf x with _ | ⟨k, rest⟩
  · rw [hf] at h
    cases h
  · have hmem : ∀ c ∈ k, c ∈ x := fun c => mem_of_mem_fieldsOf (by rw [hf]; simp)
    rw [hf] at h
    rcases commandOf_keyword h with ⟨rfl, -⟩ | ⟨rfl, -⟩ | ⟨rfl, -⟩
    · exact ⟨83, hmem 83 (by decide), hblank 83 (by decide)⟩
    · exact ⟨81, hmem 81 (by decide), hblank 81 (by decide)⟩
    · exact ⟨72, hmem 72 (by decide), hblank 72 (by decide)⟩

/-! ### The end of a command -/

/-- A field that is continued keeps its text; what is added to it starts with
whitespace or with the first byte that follows. -/
theorem strip_append (q y : Bytes) (hq : strip q ≠ []) :
    (∀ c ∈ y, isspace c) ∧ strip (q ++ y) = strip q ∨
      ∃ c s, strip (q ++ y) = strip q ++ c :: s ∧ (isspace c ∨ y.head? = some c) := by
  obtain ⟨a, b, hab, ha, hb⟩ := strip_decomp q
  obtain ⟨y₁, y₂, hy, hy₂, hlast⟩ : ∃ y₁ y₂, y = y₁ ++ y₂ ∧ (∀ c ∈ y₂, isspace c) ∧
      ∀ r c, y₁ = r ++ [c] → isspace c = false := by
    refine ⟨y.rdropWhile isspace, y.rtakeWhile isspace,
      (List.rdropWhile_append_rtakeWhile ..).symm, fun c hc => List.mem_rtakeWhile_imp hc, ?_⟩
    intro r c h
    have := List.rdropWhile_last_not isspace y (by rw [h]; simp)
    simpa [h] using this
  have hshape : q ++ y = a ++ (strip q ++ (b ++ y₁)) ++ y₂ := by
    conv_lhs => rw [hab, hy]
    simp
  -- `y₂` is cut off; what is left of `y` is joined by the whitespace `b`
  rcases eq_or_ne y₁ [] with rfl | hne
  · refine .inl ⟨by simpa [hy] using hy₂, ?_⟩
    have hshape' : q ++ y = a ++ strip q ++ (b ++ y₂) := by rw [hshape]; simp
    rw [hshape', strip_surround ha, strip_eq_self (trimmed_strip q)]
    intro c hc
    rcases List.mem_append.mp hc with hc | hc
    · exact hb c hc
    · exact hy₂ c hc
  · right
    have htrim : Trimmed (strip q ++ (b ++ y₁)) := by
      refine ⟨fun c r h => ?_, fun r c h => ?_⟩
      · obtain ⟨d, t, hd⟩ := List.exists_cons_of_ne_nil hq
        rw [hd, List.cons_append] at h
        obtain ⟨rfl, -⟩ := List.cons.inj h
        exact (trimmed_strip q).1 d t hd
      · rcases List.eq_nil_or_concat y₁ with h₁ | ⟨l, e, h₁⟩
        · exact absurd h₁ hne
        · rw [List.concat_eq_append] at h₁
          rw [h₁, ← List.append_assoc, ← List.append_assoc] at h
          obtain ⟨-, he⟩ := List.append_inj' h rfl
          obtain rfl : e = c := by simpa using he
          exact hlast l e h₁
    have hstrip : strip (q ++ y) = strip q ++ (b ++ y₁) := by
      rw [hshape, strip_surround ha hy₂, strip_eq_self htrim]
    obtain ⟨c, s, hcs⟩ := List.exists_cons_of_ne_nil (l := b ++ y₁) (by simp [hne])
    refine ⟨c, s, by rw [hstrip, hcs], ?_⟩
    rcases b with _ | ⟨d, b⟩
    · right
      rw [hy, ← List.nil_append (y₁ ++ y₂), ← List.append_assoc, hcs]
      rfl
    · left
      obtain ⟨rfl, -⟩ := List.cons.inj hcs
      exact hb d (by simp)

theorem strtodRest_of_doubleOf {s : Bytes} {d : D} (h : doubleOf s = some d) :
    strtodRest s = some [] := by
  obtain ⟨hne, hs⟩ := doubleOf_eq_some.mp h
  have hpos : s.length ≠ 0 := by simpa using hne
  rw [strtod] at hs
  rcases hr : strtodRest s with _ | r
  · rw [hr] at hs
    simp only [Prod.mk.injEq] at hs
    omega
  · rw [hr] at hs
    simp only [Prod.mk.injEq] at hs
    rw [List.length_eq_zero_iff.mp (show r.length = 0 by omega)]

/-- A whole double is only continued by a byte of a number. -/
theorem doubleOf_extend {s t : Bytes} {c : UInt8} {d d' : D} (htrim : Trimmed s)
    (hs : doubleOf s = some d) (hst : doubleOf (s ++ c :: t) = some d') :
    floatChar c ∨ c = 40 := by
  obtain ⟨e, s', rfl⟩ := List.exists_cons_of_ne_nil (doubleOf_eq_some.mp hs).1
  have he : isspace e = false := htrim.1 e s' rfl
  have h1 := strtodRest_of_doubleOf hs
  have h2 := strtodRest_of_doubleOf hst
  rw [strtodRest, List.dropWhile_cons_of_neg (by simp [he]), skipSign] at h1
  rw [strtodRest, List.cons_append, List.dropWhile_cons_of_neg (by simp [he]), skipSign] at h2
  by_cases hsign : e = 43 ∨ e = 45
  · rw [if_pos hsign] at h1 h2
    exact scanNumber_extend h1 h2
  · rw [if_neg hsign] at h1 h2
    exact scanNumber_extend h1 h2

/-- A whole integer is only continued by a digit or a sign. -/
theorem intOf_extend {w : ℕ} {s t : Bytes} {c : UInt8} {v : ℤ} (htrim : Trimmed (s ++ c :: t))
    (h : intOf w (s ++ c :: t) = some v) : isdigit c ∨ c = 43 ∨ c = 45 := by
  obtain ⟨-, hs, -⟩ := intOf_eq_some.mp h
  refine strtol_whole htrim ?_ (by rw [hs]) c (by simp)
  rw [hs]
  simp

/-- The last field of a command with arguments is a number. -/
theorem commandOf_last {P : List Bytes} {a : Bytes} {cmd : TcpCommand D} (hP : P ≠ [])
    (h : commandOf (P ++ [a]) = some cmd) :
    P.head? = some (bytes "SENSOR") ∧ (∃ d : D, doubleOf a = some d) ∨
      P.head? = some (bytes "QUERY") ∧ ∃ v, intOf (Libc.longBits D) a = some v := by
  obtain ⟨k, P, rfl⟩ := List.exists_cons_of_ne_nil hP
  rcases commandOf_cases h with ⟨id, x1, x2, x3, x4, d1, d2, d3, d4, hf, -, -, -, -, -, h4, -⟩ |
      ⟨x, y, s, e, hf, -, hy, -⟩ | ⟨hf, -⟩
  · have hlast := congrArg List.getLast? hf
    rw [List.getLast?_concat] at hlast
    obtain rfl : a = x4 := by simpa using hlast
    rw [List.cons_append] at hf
    exact .inl ⟨congrArg some (List.cons.inj hf).1, d4, h4⟩
  · have hlast := congrArg List.getLast? hf
    rw [List.getLast?_concat] at hlast
    obtain rfl : a = y := by simpa using hlast
    rw [List.cons_append] at hf
    exact .inr ⟨congrArg some (List.cons.inj hf).1, e, hy⟩
  · simp at hf

/-- Two commands with the same first field have equally many fields. -/
theorem commandOf_length {k : Bytes} {P Q : List Bytes} {cmd cmd' : TcpCommand D}
    (h : commandOf (k :: P) = some cmd) (h' : commandOf (k :: Q) = some cmd') :
    P.length = Q.length := by
  obtain ⟨hSQ, hSH, hQH⟩ := keywords_ne
  rcases commandOf_keyword h with ⟨hk, hP⟩ | ⟨hk, hP⟩ | ⟨hk, hP⟩ <;>
    rcases commandOf_keyword h' with ⟨hk', hQ⟩ | ⟨hk', hQ⟩ | ⟨hk', hQ⟩ <;>
    simp_all

/-- What a command starts with does not continue the last field of another. -/
theorem commandOf_extend {P Z : List Bytes} {a t : Bytes} {c : UInt8} {cmd cmd' : TcpCommand D}
    (ha : Trimmed a) (hat : Trimmed (a ++ c :: t)) (h : commandOf (P ++ [a]) = some cmd)
    (h' : commandOf (P ++ (a ++ c :: t) :: Z) = some cmd') :
    ¬ (Blank c ∨ c = 83 ∨ c = 81 ∨ c = 72) := by
  have hfloat : ∀ c : UInt8, floatChar c ∨ c = 40 →
      ¬ ((c = 44 ∨ isspace c) ∨ c = 83 ∨ c = 81 ∨ c = 72) :=
    CString.forall_byte (by decide +kernel)
  have hint : ∀ c : UInt8, isdigit c ∨ c = 43 ∨ c = 45 →
      ¬ ((c = 44 ∨ isspace c) ∨ c = 83 ∨ c = 81 ∨ c = 72) :=
    CString.forall_byte (by decide +kernel)
  rcases P with _ | ⟨k, P⟩
  · -- the only field of the first command is HELP, which starts no other keyword
    obtain rfl : a = bytes "HELP" := by
      rcases commandOf_keyword h with ⟨-, hP⟩ | ⟨-, hP⟩ | ⟨hk, -⟩
      · cases hP
      · cases hP
      · exact hk
    rcases commandOf_keyword h' with ⟨hk, -⟩ | ⟨hk, -⟩ | ⟨hk, -⟩
    · exact absurd (congrArg List.head? hk) (by simp [bytes, ofChars])
    · exact absurd (congrArg List.head? hk) (by simp [bytes, ofChars])
    · exact absurd (congrArg List.length hk) (by simp)
  · have hlen : (P ++ [a]).length = (P ++ (a ++ c :: t) :: Z).length := commandOf_length h h'
    obtain rfl : Z = [] := by
      simp only [List.length_append, List.length_cons] at hlen
      exact List.length_eq_zero_iff.mp (by simpa using hlen.symm)
    rcases commandOf_last (by simp) h with ⟨hk, d, hd⟩ | ⟨hk, v, hv⟩
    · rcases commandOf_last (by simp) h' with ⟨-, d', hd'⟩ | ⟨hk', -⟩
      · exact hfloat c (doubleOf_extend ha hd hd')
      · exact absurd (Option.some.inj (hk.symm.trans hk')) keywords_ne.1
    · rcases commandOf_last (by simp) h' with ⟨hk', -⟩ | ⟨-, v', hv'⟩
      · exact absurd (Option.some.inj (hk'.symm.trans hk)) keywords_ne.1
      · exact hint c (intOf_extend hat hv')

/-- A command that goes on as commands start, and is still one, is the same
command with padding behind it. -/
theorem accepted_extend {c : UInt8} {s : Bytes} {cmd cmd' : TcpCommand D}
    (hc : Blank c ∨ c = 83 ∨ c = 81 ∨ c = 72) (h : accepted u = some cmd)
    (h' : accepted (u ++ c :: s) = some cmd') :
    cmd' = cmd ∧ ∀ b ∈ c :: s, Blank b := by
  rw [accepted] at h h'
  split at h
  swap
  · cases h
  split at h'
  swap
  · cases h'
  obtain ⟨p, q, rfl, hq, hp⟩ := exists_last_comma u
  have hall : c :: s = upToComma (c :: s) ++ fromComma (c :: s) := (upToComma_append _).symm
  have hy := comma_notMem_upToComma (c :: s)
  have hqy : (44 : UInt8) ∉ q ++ upToComma (c :: s) := by simp [hq, hy]
  rw [List.append_assoc, fieldsOf, hp, tokens_append, List.map_append, List.map_append] at h'
  rw [fieldsOf, hp, List.map_append] at h
  rcases eq_or_ne q [] with rfl | hqne
  · -- the command has ended in a comma
    rw [tokens_nil, List.map_nil, List.append_nil] at h
    rcases hP : (tokens 44 p).map strip with _ | ⟨k, P⟩
    · rw [hP] at h
      cases h
    rw [hP] at h
    rw [hP, List.cons_append] at h'
    have hlen := commandOf_length h h'
    have hnil : (tokens 44 ([] ++ upToComma (c :: s))).map strip
        ++ (tokens 44 (fromComma (c :: s))).map strip = [] := by
      rw [List.length_append] at hlen
      exact List.length_eq_zero_iff.mp (by omega)
    rw [hnil, List.append_nil, h] at h'
    obtain ⟨hy0, hz0⟩ := List.append_eq_nil_iff.mp hnil
    have hcommas : ∀ b ∈ c :: s, b = 44 := by
      intro b hb
      rw [hall, List.mem_append] at hb
      rcases hb with hb | hb
      · exact tokens_eq_nil (List.map_eq_nil_iff.mp hy0) b hb
      · exact tokens_eq_nil (List.map_eq_nil_iff.mp hz0) b hb
    exact ⟨(Option.some.inj h').symm, fun b hb => .inl (hcommas b hb)⟩
  · rw [tokens_of_notMem hq hqne, List.map_singleton] at h
    rw [tokens_of_notMem hqy (by simp [hqne]), List.map_singleton, List.singleton_append] at h'
    have hstrip : strip q ≠ [] := by
      intro hnil
      rw [hnil] at h
      exact (documented_iff.mpr h).nil_notMem (by simp)
    rcases strip_append q (upToComma (c :: s)) hstrip with ⟨hsp, heq⟩ | ⟨b, t, heq, hb⟩
    · rw [heq] at h'
      have hlen : ((tokens 44 (fromComma (c :: s))).map strip).length = 0 := by
        rcases hP : (tokens 44 p).map strip with _ | ⟨k, P⟩
        · rw [hP] at h h'
          have := commandOf_length h h'
          rw [List.length_nil] at this
          exact this.symm
        · rw [hP, List.cons_append] at h h'
          have := commandOf_length h h'
          simp only [List.length_append, List.length_cons, List.length_nil] at this
          omega
      have hz0 := List.length_eq_zero_iff.mp hlen
      rw [hz0, h] at h'
      refine ⟨(Option.some.inj h').symm, fun b hb => ?_⟩
      rw [hall, List.mem_append] at hb
      rcases hb with hb | hb
      · exact .inr (hsp b hb)
      · exact .inl (tokens_eq_nil (List.map_eq_nil_iff.mp hz0) b hb)
    · -- the last field would go on with whitespace or with `c`
      have htrim := trimmed_strip (q ++ upToComma (c :: s))
      rw [heq] at h' htrim
      refine absurd ?_ (commandOf_extend (trimmed_strip q) htrim h h')
      rcases hb with hb | hb
      · exact .inl (.inr hb)
      · obtain rfl : c = b := by
          by_cases h44 : c = 44
          · rw [upToComma, List.takeWhile_cons_of_neg (by simp [h44])] at hb
            cases hb
          · rw [upToComma, List.takeWhile_cons_of_pos (by simp [h44])] at hb
            exact Option.some.inj hb
        exact hc

theorem selfDelimiting_accepted :
    Framing.SelfDelimiting (accepted : Bytes → Option (TcpCommand D)) Blank where
  skip x z k hx h := accepted_skip hx h
  extend u x v k k' l hu hux hv hx hhead := by
    obtain ⟨c, s, rfl⟩ := List.exists_cons_of_ne_nil hx
    obtain ⟨d, r, rfl, hd⟩ := accepted_head hv
    obtain rfl : c = d := Option.some.inj hhead
    exact accepted_extend hd hu hux
  solid v k h := accepted_solid h

end TcpParser
