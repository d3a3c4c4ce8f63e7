/-
A QUERY is symmetric in its bounds.

The texts of the two bounds may be anything: they may hold commas, and either may
be empty.  Tokenizing a joined text gives the tokens of its parts one after the
other, so both orders have the same fields up to their order, and the parser puts
the smaller number first (`query_symmetric`).
-/
import SensorGateway.GatewaySpec

open CString Sqlite TcpParser

namespace SensorGateway

variable {D : Type} [Libc D] {a b : Bytes}

/-- A QUERY with these texts for its bounds. -/
def queryOf (a b : Bytes) : Bytes := bytes "QUERY," ++ a ++ bytes "," ++ b

theorem fieldsOf_queryOf (a b : Bytes) :
    fieldsOf (queryOf a b) = bytes "QUERY" :: (fieldsOf a ++ fieldsOf b) := by
  have hshape : queryOf a b = bytes "QUERY" ++ 44 :: (a ++ 44 :: b) := by
    simp [queryOf, bytes, ofChars]
  have htoken : tokens 44 (bytes "QUERY") = [bytes "QUERY"] :=
    tokens_of_notMem (by decide) (by decide)
  have hstrip : strip (bytes "QUERY") = bytes "QUERY" := by decide
  rw [fieldsOf, hshape, tokens_append_sep, tokens_append_sep, htoken, List.map_append,
    List.map_append, List.map_singleton, hstrip]
  rfl

/-- Only two fields may follow the keyword. -/
theorem commandOf_query_none {fields : List Bytes} (h : fields.length ≠ 2) :
    (commandOf (bytes "QUERY" :: fields) : Option (TcpCommand D)) = none := by
  rcases hcmd : (commandOf (bytes "QUERY" :: fields) : Option (TcpCommand D)) with _ | cmd
  · rfl
  rcases commandOf_keyword hcmd with ⟨hk, -⟩ | ⟨-, hlen⟩ | ⟨hk, -⟩
  · exact absurd hk (by decide)
  · exact absurd hlen h
  · exact absurd hk (by decide)

/-- The command of a QUERY with the bounds `x` and `y`. -/
theorem commandOf_query (x y : Bytes) :
    (commandOf [bytes "QUERY", x, y] : Option (TcpCommand D)) =
      (intOf (Libc.longBits D) x).bind fun s => (intOf (Libc.longBits D) y).map fun e =>
        ⟨.query, .query ⟨min s e, max s e⟩⟩ := by
  rw [commandOf, if_pos rfl]
  cases intOf (Libc.longBits D) x with
  | none => rfl
  | some s => cases intOf (Libc.longBits D) y <;> rfl

theorem commandOf_query_comm (x y : Bytes) :
    (commandOf [bytes "QUERY", x, y] : Option (TcpCommand D))
      = commandOf [bytes "QUERY", y, x] := by
  rw [commandOf_query, commandOf_query]
  cases intOf (Libc.longBits D) x with
  | none => cases intOf (Libc.longBits D) y <;> rfl
  | some s =>
    cases intOf (Libc.longBits D) y with
    | none => rfl
    | some e =>
      show some (⟨.query, .query ⟨min s e, max s e⟩⟩ : TcpCommand D)
        = some ⟨.query, .query ⟨min e s, max e s⟩⟩
      rw [min_comm, max_comm]

/-- However the two fields come from the two texts. -/
theorem commandOf_swap (xs ys : List Bytes) :
    (commandOf (bytes "QUERY" :: (xs ++ ys)) : Option (TcpCommand D))
      = commandOf (bytes "QUERY" :: (ys ++ xs)) := by
  rcases eq_or_ne xs [] with rfl | hxs
  · rw [List.nil_append, List.append_nil]
  rcases eq_or_ne ys [] with rfl | hys
  · rw [List.nil_append, List.append_nil]
  have hx := List.length_pos_iff.mpr hxs
  have hy := List.length_pos_iff.mpr hys
  by_cases hlen : xs.length = 1 ∧ ys.length = 1
  · obtain ⟨x, rfl⟩ := List.length_eq_one_iff.mp hlen.1
    obtain ⟨y, rfl⟩ := List.length_eq_one_iff.mp hlen.2
    exact commandOf_query_comm x y
  · -- more than two fields
    rw [commandOf_query_none (by rw [List.length_append]; omega),
      commandOf_query_none (by rw [List.length_append]; omega)]

theorem length_queryOf (a b : Bytes) : (queryOf a b).length = (queryOf b a).length := by
  simp only [queryOf, List.length_append]
  omega

theorem accepted_queryOf (a b : Bytes) :
    (accepted (queryOf a b) : Option (TcpCommand D)) = accepted (queryOf b a) := by
  rw [accepted, accepted, length_queryOf, fieldsOf_queryOf, fieldsOf_queryOf, commandOf_swap]

theorem zero_notMem_queryOf (ha : (0 : UInt8) ∉ a) (hb : (0 : UInt8) ∉ b) :
    (0 : UInt8) ∉ queryOf a b := by
  have h1 : (0 : UInt8) ∉ bytes "QUERY," := by decide
  have h2 : (0 : UInt8) ∉ bytes "," := by decide
  simp [queryOf, ha, hb, h1, h2]

/-- Both orders of the bounds are one command: the parser returns the same code and
command, with the smaller bound first, and gateway_process is the same program. -/
structure Symmetric (D : Type) [Libc D] (a b : Bytes) : Prop where
  code : ∀ before before' : TcpCommand D,
    (parseAlone (queryOf a b) before).1 = (parseAlone (queryOf b a) before').1
  command : ∀ before before' : TcpCommand D, (parseAlone (queryOf a b) before).1 = 0 →
    (parseAlone (queryOf a b) before).2 = (parseAlone (queryOf b a) before').2 ∧
      ∃ s e : ℤ, (parseAlone (queryOf a b) before).2 = ⟨.query, .query ⟨s, e⟩⟩ ∧ 0 ≤ s ∧ s ≤ e
  process : ∀ (gateway : Option Gateway) (output : Bytes) (output_size : ℕ)
    (output_handler : Option (Bytes → Sys D ℤ)),
    gatewayProcess gateway (queryOf a b) output output_size output_handler
      = gatewayProcess gateway (queryOf b a) output output_size output_handler

/-- An accepted QUERY is a QUERY. -/
theorem accepted_queryOf_some {cmd : TcpCommand D} (h : accepted (queryOf a b) = some cmd) :
    ∃ s e : ℤ, cmd = ⟨.query, .query ⟨s, e⟩⟩ ∧ 0 ≤ s ∧ s ≤ e := by
  have hfields : commandOf (bytes "QUERY" :: (fieldsOf a ++ fieldsOf b)) = some cmd := by
    rw [accepted, fieldsOf_queryOf] at h
    exact (Option.ite_none_right_eq_some.mp h).2
  have hkey : ∀ cmd', cmd = cmd' → cmd'.type = .query := by
    rintro cmd' rfl
    rcases commandOf_cases hfields with
      ⟨_, _, _, _, _, _, _, _, _, hf, -⟩ | ⟨_, _, _, _, -, -, -, rfl⟩ | ⟨hf, -⟩
    · exact absurd (List.cons.inj hf).1 (by decide)
    · rfl
    · exact absurd (List.cons.inj hf).1 (by decide)
  rcases accepted_cases h with ⟨d, hd, -⟩ | ⟨s, e, rfl, hs, hse, -⟩ | hhelp
  · exact absurd (hkey _ hd) (by simp)
  · exact ⟨s, e, rfl, hs, hse⟩
  · exact absurd (hkey _ hhelp) (by simp)

theorem query_symmetric (ha : (0 : UInt8) ∉ a) (hb : (0 : UInt8) ∉ b) : Symmetric D a b := by
  have h0 := zero_notMem_queryOf ha hb
  have h0' := zero_notMem_queryOf hb ha
  rcases hcmd : (accepted (queryOf a b) : Option (TcpCommand D)) with _ | cmd
  · have hcmd' : (accepted (queryOf b a) : Option (TcpCommand D)) = none := by
      rw [← accepted_queryOf, hcmd]
    have hcode := parseAlone_rejected h0 hcmd
    have hcode' := parseAlone_rejected h0' hcmd'
    constructor
    · intro before before'
      rw [hcode, hcode']
    · intro before before' hzero
      rw [hcode] at hzero
      exact absurd hzero (by decide)
    · intro gateway output output_size output_handler
      -- both return before the command is looked at
      have hne : ∀ {rc : ℤ}, rc = -1 → rc ≠ 0 := by
        rintro rc rfl
        decide
      simp only [gatewayProcess, Prog.pure_eq, Prog.bind_eq, if_pos (hne (hcode zeroed)),
        if_pos (hne (hcode' zeroed))]
  -- the parser has put the bounds in order
  · have hcmd' : accepted (queryOf b a) = some cmd := by rw [← accepted_queryOf, hcmd]
    have hparse := parseAlone_accepted h0 hcmd
    have hparse' := parseAlone_accepted h0' hcmd'
    constructor
    · intro before before'
      rw [hparse, hparse']
    · intro before before' _
      rw [hparse, hparse']
      exact ⟨rfl, accepted_queryOf_some hcmd⟩
    · intro gateway output output_size output_handler
      simp only [gatewayProcess, hparse, hparse']

theorem query_symmetric_empty : Symmetric Binary64 (bytes " 7 , 3") [] :=
  query_symmetric (by decide) (by decide)

end SensorGateway
