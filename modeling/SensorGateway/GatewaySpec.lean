/-
What gateway_process does with a command.

`gatewayProcess_rejected`, `gatewayProcess_sensor`, `gatewayProcess_query` and
`gatewayProcess_help` say which call each input leads to; `gatewayProcess_wp` adds
what the call does, in any surroundings (`Processed`).
-/
import SensorGateway.QuietQuery
import SensorGateway.QueryText

open CString Sqlite TcpParser

namespace SensorGateway

variable {D : Type} [Libc D] {t : Prop} {env : Env D} {M : Mode D} {w : World D} {c : ℕ}

/-! ### Parsing -/

theorem parseAlone_accepted {input : Bytes} (h0 : (0 : UInt8) ∉ input) {cmd : TcpCommand D}
    (h : accepted input = some cmd) (command : TcpCommand D) :
    parseAlone input command = (0, cmd) := by
  rw [parseAlone_eq h0]
  exact (parseResult_eq input command).1 cmd h

theorem parseAlone_rejected {input : Bytes} (h0 : (0 : UInt8) ∉ input)
    (h : (accepted input : Option (TcpCommand D)) = none) (command : TcpCommand D) :
    (parseAlone input command).1 = -1 := by
  rw [parseAlone_eq h0]
  exact (parseResult_eq input command).2 h

/-- The three kinds of accepted commands. -/
theorem accepted_cases {input : Bytes} {cmd : TcpCommand D} (h : accepted input = some cmd) :
    (∃ d : SensorData D, cmd = ⟨.sensorData, .sensor d⟩ ∧ d.device_id ≠ [] ∧
      d.device_id.length ≤ 63) ∨
    (∃ s e : ℤ, cmd = ⟨.query, .query ⟨s, e⟩⟩ ∧ 0 ≤ s ∧ s ≤ e ∧ e ≤ 2 ^ 31 - 1) ∨
    cmd = { zeroed with type := .help } := by
  rw [accepted] at h
  split at h
  · rcases commandOf_cases h with
      ⟨id, x1, x2, x3, x4, d1, d2, d3, d4, -, hid, hlen, -, -, -, -, rfl⟩ |
      ⟨x, y, a, b, -, ha, hb, rfl⟩ | ⟨-, rfl⟩
    · exact .inl ⟨⟨id, d1, d2, d3, d4⟩, rfl, hid, Nat.le_of_lt_succ hlen⟩
    · obtain ⟨-, -, ha0, ha1⟩ := intOf_eq_some.mp ha
      obtain ⟨-, -, hb0, hb1⟩ := intOf_eq_some.mp hb
      exact .inr (.inl ⟨min a b, max a b, rfl, by omega, by omega, by omega⟩)
    · exact .inr (.inr rfl)
  · cases h

section process

variable {input output : Bytes} {size : ℕ} {handler : Bytes → Sys D ℤ} {g : Gateway}

theorem gatewayProcess_rejected (h0 : (0 : UInt8) ∉ input)
    (h : (accepted input : Option (TcpCommand D)) = none) (hsize : 0 < size) :
    gatewayProcess (some g) input output size (some handler) = .ret (-1, output.set 0 0) := by
  have hp := parseAlone_rejected h0 h zeroed
  simp only [gatewayProcess, Prog.pure_eq, Prog.bind_eq]
  rw [if_neg (by omega), if_pos (by rw [hp]; decide)]

theorem gatewayProcess_sensor (h0 : (0 : UInt8) ∉ input) {d : SensorData D}
    (h : accepted input = some ⟨.sensorData, .sensor d⟩) (hsize : 0 < size) :
    gatewayProcess (some g) input output size (some handler)
      = (sensorServiceHandleData g.sensor_service d).bind fun rc =>
        if rc ≠ 0 then .ret (-1, output.set 0 0)
        else .ret (0, (snprintf (output.set 0 0) 0 size (bytes "OK\n")).2) := by
  have hp := parseAlone_accepted h0 h zeroed
  simp only [gatewayProcess, Prog.pure_eq, Prog.bind_eq]
  rw [if_neg (by omega), hp]
  rfl

theorem gatewayProcess_query (h0 : (0 : UInt8) ∉ input) {s e : ℤ}
    (h : accepted input = some (⟨.query, .query ⟨s, e⟩⟩ : TcpCommand D)) (hsize : 0 < size) :
    gatewayProcess (some g) input output size (some handler)
      = (gatewayHandleQuery g s e handler).bind fun rc => .ret (rc, output.set 0 0) := by
  have hp := parseAlone_accepted h0 h zeroed
  simp only [gatewayProcess, Prog.pure_eq, Prog.bind_eq]
  rw [if_neg (by omega), hp]
  rfl

theorem gatewayProcess_help (h0 : (0 : UInt8) ∉ input)
    (h : accepted input = some ({ zeroed with type := .help } : TcpCommand D)) (hsize : 0 < size) :
    gatewayProcess (some g) input output size (some handler)
      = gatewayBuildHelp g (output.set 0 0) size := by
  have hp := parseAlone_accepted h0 h zeroed
  simp only [gatewayProcess, Prog.pure_eq, Prog.bind_eq]
  rw [if_neg (by omega), hp]
  rfl

end process

/-! ### The whole call -/

/-- What a SENSOR command asks to store. -/
def readingOf (d : SensorData D) : Reading D :=
  ⟨d.device_id, stored d.data_1, stored d.data_2, stored d.data_3, stored d.data_4⟩

/-- The smallest id HELP shows. -/
def minShown (T : Table D) : ℤ :=
  ((T.rows.map Row.id).min?.map fun n => n.bmod (2 ^ 32)).getD 0

/-- The largest id HELP shows. -/
def maxShown (T : Table D) : ℤ :=
  ((T.rows.map Row.id).max?.map fun n => n.bmod (2 ^ 32)).getD 0

/-- How gateway_process ends: its return code, the string in the output buffer
and the world. -/
inductive Processed (env : Env D) (M : Mode D) (rec : Out D → Bytes → ℤ → Out D → Prop)
    (input : Bytes) (w : World D) : ℤ → Bytes → World D → Prop
  | rejected (h : (accepted input : Option (TcpCommand D)) = none) :
      Processed env M rec input w (-1) [] w
  | stored {d : SensorData D} {T w₁} (h : accepted input = some ⟨.sensorData, .sensor d⟩)
      (hT : M.grows w.table T)
      (hw : Frame M (w.noting (some (env.row T (readingOf d)))) (T.insert env (readingOf d)) []
        false w.stmts w₁) :
      Processed env M rec input w 0 (bytes "OK\n") w₁
  | lost {d : SensorData D} {T w₁} (h : accepted input = some ⟨.sensorData, .sensor d⟩)
      (hM : M.sqlFails) (hT : M.grows w.table T) (hw : Frame M w T [] true w.stmts w₁) :
      Processed env M rec input w (-1) [] w₁
  | queried {s e r : ℤ} {w₁}
      (h : accepted input = some (⟨.query, .query ⟨s, e⟩⟩ : TcpCommand D))
      (ho : QueryOutcome M rec s e w r w₁) (hu : Untouched M w w₁) :
      Processed env M rec input w r [] w₁
  | helped {T w₁} (h : accepted input = some ({ zeroed with type := .help } : TcpCommand D))
      (hT : M.grows w.table T) (hw : Frame M w T [T] false w.stmts w₁) :
      Processed env M rec input w 0 (helpText (minShown T) (maxShown T)) w₁
  | helpless {T w₁} (h : accepted input = some ({ zeroed with type := .help } : TcpCommand D))
      (hM : M.sqlFails) (hT : M.grows w.table T) (hw : Frame M w T [] true w.stmts w₁) :
      Processed env M rec input w (-1) [] w₁

theorem length_helpUsage : helpUsage.length = 282 := by decide +kernel

theorem length_helpText (lo hi : ℤ) :
    (helpText lo hi).length = 305 + (fmtInt lo).length + (fmtInt hi).length := by
  have h1 : (bytes " - ").length = 3 := rfl
  have h2 : (bytes "\n==================\n").length = 20 := rfl
  simp only [helpText, List.length_append, length_helpUsage, h1, h2]
  omega

theorem helpText_ne_nil (lo hi : ℤ) : helpText lo hi ≠ [] := by
  intro h
  have hlen := length_helpText lo hi
  rw [h, List.length_nil] at hlen
  omega

theorem zero_notMem_fmtInt (i : ℤ) : (0 : UInt8) ∉ fmtInt i := fun h =>
  absurd (fmtInt_numeric i 0 h) (by decide)

theorem zero_notMem_helpText (lo hi : ℤ) : (0 : UInt8) ∉ helpText lo hi := by
  have h1 : (0 : UInt8) ∉ helpUsage := by decide +kernel
  have h2 : (0 : UInt8) ∉ bytes " - " := by decide
  have h3 : (0 : UInt8) ∉ bytes "\n==================\n" := by decide
  simp [helpText, h1, h2, h3, zero_notMem_fmtInt]

/-- A 32-bit number takes at most 11 characters. -/
theorem length_fmtInt_le {i : ℤ} (h1 : -2 ^ 31 ≤ i) (h2 : i < 2 ^ 31) : (fmtInt i).length ≤ 11 := by
  have hlen : (decimal i.natAbs).length ≤ 10 := by
    rw [Binary64.length_decimal_le (by decide)]
    omega
  rw [fmtInt]
  split
  · rw [List.length_cons]
    omega
  · omega

theorem bmod_bounds (n : ℤ) : -2 ^ 31 ≤ n.bmod (2 ^ 32) ∧ n.bmod (2 ^ 32) < 2 ^ 31 := by
  constructor
  · exact Int.le_bmod (by decide)
  · exact Int.bmod_lt (by decide)

theorem length_shown (x : Option ℤ) :
    (fmtInt ((x.map fun n => n.bmod (2 ^ 32)).getD 0)).length ≤ 11 := by
  cases x with
  | none => decide
  | some n => exact length_fmtInt_le (bmod_bounds n).1 (bmod_bounds n).2

variable {rec : Out D → Bytes → ℤ → Out D → Prop}

theorem gatewayProcess_wp {input output : Bytes} {size : ℕ} {handler : Bytes → Sys D ℤ}
    (h0 : (0 : UInt8) ∉ input) (hsize : 4096 ≤ size) (hh : Handles t env M handler rec)
    (hmay : ∀ d : SensorData D, accepted input = some ⟨.sensorData, .sensor d⟩ →
      ∀ T, M.permits w.log (.inserted (env.row T (readingOf d)))) :
    Prog.wp t (surroundings env M)
      (gatewayProcess (some (openGateway c)) input output size (some handler))
      (fun x w₁ => Processed env M rec input w x.1 (cstr x.2 0) w₁) w := by
  rcases hcmd : (accepted input : Option (TcpCommand D)) with _ | cmd
  · rw [gatewayProcess_rejected h0 hcmd (by omega), Prog.wp_ret, cstr_set_zero]
    exact .rejected hcmd
  rcases accepted_cases hcmd with ⟨d, rfl, hid, -⟩ | ⟨s, e, rfl, hs, hse, he⟩ | rfl
  · rw [gatewayProcess_sensor h0 hcmd (by omega)]
    simp only [sensorServiceHandleData, openGateway, Prog.bind_eq, Prog.pure_eq]
    rw [if_neg (by simp), if_neg hid, Prog.bind_assoc]
    refine Prog.wp_bind (sqliteDbInsertSensor_wp hid rfl (hmay d hcmd) ?_ ?_)
    · intro T w₁ hT hw₁
      rw [if_neg (by decide), Prog.ret_bind, if_neg (by decide), Prog.wp_ret,
        cstr_snprintf (by rw [show (bytes "OK\n").length = 3 from rfl]; omega) (by decide)]
      exact .stored hcmd hT hw₁
    · intro T w₁ hM hT hw₁
      rw [if_pos (by decide), Prog.ret_bind, if_pos (by decide), Prog.wp_ret, cstr_set_zero]
      exact .lost hcmd hM hT hw₁
  · rw [gatewayProcess_query h0 hcmd (by omega)]
    refine Prog.wp_seq (gatewayHandleQuery_wp hh hs hse (by omega) w) ?_
    rintro r w₁ ⟨ho, hu⟩
    rw [Prog.wp_ret, cstr_set_zero]
    exact .queried hcmd ho hu
  · rw [gatewayProcess_help h0 hcmd (by omega)]
    simp only [gatewayBuildHelp, dataServiceGetIdRange, openGateway, Prog.bind_eq, Prog.pure_eq]
    rw [if_neg (by omega), if_neg (by simp)]
    refine Prog.wp_bind (sqliteDbGetIdRange_wp ?_ ?_)
    · intro T w₁ hT hw₁
      -- the answer of HELP is not cut off
      have hlen : (helpText (minShown T) (maxShown T)).length < size := by
        have h1 := length_shown (T.rows.map Row.id).min?
        have h2 := length_shown (T.rows.map Row.id).max?
        rw [length_helpText, minShown, maxShown]
        omega
      rw [if_neg (by simp), Prog.wp_ret]
      show Processed env M rec input w 0 (cstr (snprintf _ 0 size
        (helpText (minShown T) (maxShown T))).2 0) w₁
      rw [cstr_snprintf hlen (zero_notMem_helpText _ _)]
      exact .helped hcmd hT hw₁
    · intro T w₁ hM hT hw₁
      rw [if_pos (by decide), Prog.wp_ret, cstr_set_zero]
      exact .helpless hcmd hM hT hw₁

end SensorGateway
