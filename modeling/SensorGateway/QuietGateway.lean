/-
Commands processed one after another, with nobody else at work.

`Processes` says what one call of gateway_process answers and leaves when no
SQLite call fails and the caller's handler returns 0.  Each input has one such
outcome (`exists_processes`, `Processes.unique`): SENSOR stores its reading,
QUERY delivers what fits of its report.  `Ingested` are the tables that
acknowledged SENSOR commands build up from the empty one.
-/
import SensorGateway.GatewaySpec
import SensorGateway.TcpServer

open CString Sqlite TcpParser

namespace SensorGateway

variable {D : Type} [Libc D] {env : Env D} {accept : ℕ → ℕ} {c : ℕ} {input : Bytes}
  {w w₁ : World D} {r : ℤ} {reply : Bytes}

/-- gateway_process on `input` returns `r` with `reply` in the output buffer. -/
def Processes (env : Env D) (accept : ℕ → ℕ) (c : ℕ) (input : Bytes) (w : World D) (r : ℤ)
    (reply : Bytes) (w₁ : World D) : Prop :=
  ∃ out, Prog.Evals (quiet env accept) (gatewayProcess (some (openGateway c)) input
    (List.replicate OUTPUT_BUFFER_SIZE 0) OUTPUT_BUFFER_SIZE (some output)) w (r, out) w₁ ∧
    cstr out 0 = reply

theorem exists_processes (h0 : (0 : UInt8) ∉ input) (env : Env D) (accept : ℕ → ℕ) (c : ℕ)
    (w : World D) : ∃ r reply w₁, Processes env accept c input w r reply w₁ ∧
      Processed env quietMode (delivers quietMode) input w r reply w₁ := by
  have hh : Handles True env quietMode output (delivers quietMode) := output_handles
  have hwp : Prog.wp True (surroundings env quietMode) (gatewayProcess (some (openGateway c)) input
      (List.replicate OUTPUT_BUFFER_SIZE 0) OUTPUT_BUFFER_SIZE (some output)) _ w :=
    gatewayProcess_wp h0 le_rfl hh fun _ _ _ => trivial
  obtain ⟨⟨r, out⟩, w₁, hrun, hout⟩ := quiet_evals accept hwp
  exact ⟨r, cstr out 0, w₁, ⟨out, hrun, rfl⟩, hout⟩

theorem Processes.unique {r' : ℤ} {reply' : Bytes} {w₂ : World D}
    (h : Processes env accept c input w r reply w₁)
    (h' : Processes env accept c input w r' reply' w₂) : r = r' ∧ reply = reply' ∧ w₁ = w₂ := by
  obtain ⟨out, hrun, rfl⟩ := h
  obtain ⟨out', hrun', rfl⟩ := h'
  obtain ⟨hret, hw⟩ := hrun.unique hrun'
  obtain ⟨rfl, rfl⟩ := Prod.mk.inj hret
  exact ⟨rfl, rfl, hw⟩

theorem Processes.processed (h0 : (0 : UInt8) ∉ input)
    (h : Processes env accept c input w r reply w₁) :
    Processed env quietMode (delivers quietMode) input w r reply w₁ := by
  obtain ⟨r', reply', w₂, hrun, hout⟩ := exists_processes h0 env accept c w
  obtain ⟨rfl, rfl, rfl⟩ := h.unique hrun
  exact hout

/-! ### SENSOR -/

/-- An accepted SENSOR command is acknowledged and its reading stored. -/
theorem Processed.sensor {rec : Out D → Bytes → ℤ → Out D → Prop} {d : SensorData D}
    (hcmd : accepted input = some ⟨.sensorData, .sensor d⟩)
    (h : Processed env quietMode rec input w r reply w₁) :
    r = 0 ∧ reply = bytes "OK\n" ∧
      Frame quietMode (w.noting (some (env.row w.table (readingOf d))))
        (w.table.insert env (readingOf d)) [] false w.stmts w₁ := by
  cases h with
  | rejected h =>
    rw [hcmd] at h
    cases h
  | stored h hT hw =>
    obtain rfl : w.table = _ := hT
    rw [hcmd] at h
    cases h
    exact ⟨rfl, rfl, hw⟩
  | lost _ hM _ _ => exact hM.elim
  | queried h _ _ =>
    rw [hcmd] at h
    cases h
  | helped h _ _ =>
    rw [hcmd] at h
    cases h
  | helpless _ hM _ _ => exact hM.elim

/-! ### QUERY -/

/-- A QUERY delivers its report up to the first batch that does not fit. -/
theorem Processed.query {rec : Out D → Bytes → ℤ → Out D → Prop} {s e : ℤ}
    (hcmd : accepted input = some (⟨.query, .query ⟨s, e⟩⟩ : TcpCommand D))
    (hzero : ∀ o text r o', rec o text r o' → r = 0)
    (h : Processed env quietMode rec input w r reply w₁) :
    r = reportCode (w.table.range s e) ∧ reply = [] ∧ w₁.table = w.table ∧
      w₁.stmts = w.stmts ∧ w₁.incoming = w.incoming ∧
      Wrote rec w.out (deliverable (w.table.range s e)) w₁.out := by
  cases h with
  | rejected h =>
    rw [hcmd] at h
    cases h
  | stored h _ _ =>
    rw [hcmd] at h
    cases h
  | lost _ hM _ _ => exact hM.elim
  | queried h ho hu =>
    rw [hcmd] at h
    cases h
    have htable : w.table = w₁.table := hu.table
    obtain ⟨hr, hwrote⟩ := ho.quiet hzero
    exact ⟨hr, rfl, htable.symm, hu.stmts, hu.incoming, hwrote⟩
  | helped h _ _ =>
    rw [hcmd] at h
    cases h
  | helpless _ hM _ _ => exact hM.elim

theorem processes_query (h0 : (0 : UInt8) ∉ input) {s e : ℤ}
    (hcmd : accepted input = some (⟨.query, .query ⟨s, e⟩⟩ : TcpCommand D)) (env : Env D)
    (accept : ℕ → ℕ) (c : ℕ) (w : World D) :
    ∃ w₁, Processes env accept c input w (reportCode (w.table.range s e)) [] w₁ ∧
      w₁.table = w.table ∧
      w₁.delivered = w.delivered ++ deliverable (w.table.range s e) := by
  obtain ⟨r, reply, w₁, hrun, hout⟩ := exists_processes h0 env accept c w
  obtain ⟨rfl, rfl, htable, -, -, hwrote⟩ := hout.query hcmd fun _ _ _ _ h => h.1
  exact ⟨w₁, hrun, htable, congrArg Out.delivered (wrote_delivers hwrote)⟩

/-! ### Tables -/

/-- A thread that has done nothing yet. -/
def World.fresh (T : Table D) (incoming : List Bytes) : World D :=
  ⟨[], T, [], false, incoming, [], [], []⟩

/-- The tables reachable by SENSOR commands that were answered with OK. -/
inductive Ingested (env : Env D) (accept : ℕ → ℕ) (c : ℕ) : Table D → Prop
  | empty : Ingested env accept c ∅
  | sensor {T input d w₁} (hT : Ingested env accept c T) (h0 : (0 : UInt8) ∉ input)
      (hcmd : accepted input = some (⟨.sensorData, .sensor d⟩ : TcpCommand D))
      (hrun : Processes env accept c input (.fresh T []) 0 (bytes "OK\n") w₁) :
      Ingested env accept c w₁.table

/-- Every SENSOR command that is accepted leads on. -/
theorem Ingested.insert {T : Table D} (hT : Ingested env accept c T) (h0 : (0 : UInt8) ∉ input)
    {d : SensorData D} (hcmd : accepted input = some ⟨.sensorData, .sensor d⟩) :
    Ingested env accept c (T.insert env (readingOf d)) := by
  obtain ⟨r, reply, w₁, hrun, hout⟩ := exists_processes h0 env accept c (.fresh T [])
  obtain ⟨rfl, rfl, hw⟩ := hout.sensor hcmd
  have htable : T.insert env (readingOf d) = w₁.table := hw.table.1
  rw [htable]
  exact .sensor hT h0 hcmd hrun

theorem Ingested.replicate {T : Table D} (hT : Ingested env accept c T) (h0 : (0 : UInt8) ∉ input)
    {d : SensorData D} (hcmd : accepted input = some ⟨.sensorData, .sensor d⟩) (n : ℕ) :
    Ingested env accept c ((List.replicate n (readingOf d)).foldl (Table.insert env) T) := by
  induction n generalizing T with
  | zero => exact hT
  | succ n ih => exact ih (hT.insert h0 hcmd)

/-- Each row comes from a command. -/
theorem Ingested.mem {T : Table D} (hT : Ingested env accept c T) {x : Row D} (hx : x ∈ T.rows) :
    x.timestamp = some (env.clock x.id) ∧ ∃ (input : Bytes) (d : SensorData D),
      (0 : UInt8) ∉ input ∧ accepted input = some ⟨.sensorData, .sensor d⟩ ∧
        x.reading = readingOf d := by
  induction hT with
  | empty => cases hx
  | @sensor T input d w₁ _ h0 hcmd hrun ih =>
    obtain ⟨-, -, hw⟩ := (hrun.processed h0).sensor hcmd
    have htable : T.insert env (readingOf d) = w₁.table := hw.table.1
    rw [← htable] at hx
    rcases List.mem_append.mp hx with hx | hx
    · exact ih hx
    · obtain rfl := List.mem_singleton.mp hx
      exact ⟨rfl, input, d, h0, hcmd, rfl⟩

/-- A reading to run the gateway on. -/
def zeroReading : Reading Binary64 :=
  ⟨bytes "a", some Libc.zero, some Libc.zero, some Libc.zero, some Libc.zero⟩

end SensorGateway
