/-
What the lower layers rely on.

The gateway takes a parsed command as it is: it subtracts 1 from the start of a range,
hands the device id on, and switches over the type.  `Relied` says what makes this safe.

* `guarantees_upheld` — every command the parser accepts is `Relied`; nothing that stands
  in the branches for other commands (`Elsewhere`) makes a difference to the gateway;
  and at no input does the parser write past its arrays;
* `parseResult_relied`, `gatewayProcessOr_eq`, `tcpParserParse_counting`, `parseResult_copied`
  are its parts.
-/
import SensorGateway.GatewaySpec
import SensorGateway.Traces

open CString Sqlite TcpParser

namespace SensorGateway

variable {D : Type} [Libc D]

/-- What the layers below the parser take for granted. -/
inductive Relied : TcpCommand D → Prop
  /-- `device_id` and its NUL fit 64 bytes. -/
  | sensor {d : SensorData D} (hpos : 1 ≤ d.device_id.length) (hlen : d.device_id.length + 1 ≤ 64)
      (hnul : (0 : UInt8) ∉ d.device_id) (hcomma : (44 : UInt8) ∉ d.device_id)
      (htrim : Trimmed d.device_id) : Relied ⟨.sensorData, .sensor d⟩
  | query {start_id end_id : ℤ} (hstart : 0 ≤ start_id) (hle : start_id ≤ end_id)
      (hend : end_id ≤ 2 ^ 31 - 1) : Relied ⟨.query, .query ⟨start_id, end_id⟩⟩
  | help {data : CommandData D} : Relied ⟨.help, data⟩

/-! ### The branches for other commands -/

/-- Anything to stand in the branches that should not be reached. -/
structure Elsewhere (D : Type) where
  /-- `start_id - 1` is no `int`. -/
  overflow : Sys D ℤ
  /-- An empty id in sensor_service_handle_data, and in sqlite_db_insert_sensor. -/
  serviceEmptyId : Sys D ℤ
  insertEmptyId : Sys D ℤ
  /-- `default:` in gateway_process. -/
  otherwise : Sys D (ℤ × Bytes)

variable (x : Elsewhere D)

def sqliteDbInsertSensorOr (db : Option SqliteDb) (device_id : Bytes)
    (data_1 data_2 data_3 data_4 : D) : Sys D ℤ :=
  if device_id = [] then x.insertEmptyId
  else sqliteDbInsertSensor db device_id data_1 data_2 data_3 data_4

def sensorServiceHandleDataOr (service : Option SensorService) (data : SensorData D) :
    Sys D ℤ := do
  let some service := service
    | return -1
  if service.db.isNone then
    return -1
  if data.device_id = [] then
    x.serviceEmptyId
  else
    let ret ← sqliteDbInsertSensorOr x service.db data.device_id data.data_1 data.data_2
      data.data_3 data.data_4
    if ret < 0 then
      return -1
    return 0

def gatewayHandleQueryOr (gateway : Gateway) (start_id end_id : ℤ)
    (output_handler : Bytes → Sys D ℤ) : Sys D ℤ :=
  if start_id - 1 < -2 ^ 31 ∨ 2 ^ 31 - 1 < start_id - 1 then x.overflow
  else gatewayHandleQuery gateway start_id end_id output_handler

/-- `gateway_process` with `x` in these branches. -/
def gatewayProcessOr (gateway : Option Gateway) (input output : Bytes) (output_size : ℕ)
    (output_handler : Option (Bytes → Sys D ℤ)) : Sys D (ℤ × Bytes) := do
  let some gateway := gateway
    | return (-1, output)
  if output_size = 0 then
    return (-1, output)
  let output := output.set 0 0
  let (rc, command) := parseAlone input (zeroed : TcpCommand D)
  if rc ≠ 0 then
    return (-1, output)
  match command.type with
  | .sensorData =>
    if (← sensorServiceHandleDataOr x gateway.sensor_service (sensorMember command)) ≠ 0 then
      return (-1, output)
    return (0, (snprintf output 0 output_size (bytes "OK\n")).2)
  | .query =>
    let some output_handler := output_handler
      | return (-1, output)
    let q := queryMember command
    let rc ← gatewayHandleQueryOr x gateway q.start_id q.end_id output_handler
    return (rc, output)
  | .help => gatewayBuildHelp gateway output output_size
  | .invalid => x.otherwise

variable {x}

omit [Libc D] in
theorem sensorServiceHandleDataOr_eq {data : SensorData D} (h : data.device_id ≠ [])
    (service : Option SensorService) :
    sensorServiceHandleDataOr x service data = sensorServiceHandleData service data := by
  cases service with
  | none => rfl
  | some service =>
    simp only [sensorServiceHandleDataOr, sensorServiceHandleData, sqliteDbInsertSensorOr,
      if_neg h]

theorem gatewayHandleQueryOr_eq {start_id end_id : ℤ} (h0 : 0 ≤ start_id)
    (hle : start_id ≤ end_id) (hend : end_id ≤ 2 ^ 31 - 1) (gateway : Gateway)
    (output_handler : Bytes → Sys D ℤ) :
    gatewayHandleQueryOr x gateway start_id end_id output_handler
      = gatewayHandleQuery gateway start_id end_id output_handler := by
  rw [gatewayHandleQueryOr, if_neg (by omega)]

/-! ### The command -/

/-- A field is free of commas and stripped, and so is the device id. -/
theorem commandOf_relied {input : Bytes} (h0 : (0 : UInt8) ∉ input) {cmd : TcpCommand D}
    (h : commandOf (fieldsOf input) = some cmd) : Relied cmd := by
  rcases commandOf_cases h with ⟨id, x1, x2, x3, x4, d1, d2, d3, d4, hf, hid, hlen, -, -, -, -,
    rfl⟩ | ⟨y, z, s, e, -, hs, he, rfl⟩ | ⟨-, rfl⟩
  · have hmem : id ∈ fieldsOf input := by
      rw [hf]
      simp
    obtain ⟨tok, htok, hstrip⟩ := List.mem_map.mp hmem
    refine .sensor (List.length_pos_iff.mpr hid) hlen ?_ ?_ ?_
    · exact fun hnul => h0 (mem_of_mem_fieldsOf hmem hnul)
    · rw [← hstrip]
      exact fun hcomma => notMem_of_mem_tokens htok ((strip_sublist tok).subset hcomma)
    · rw [← hstrip]
      exact trimmed_strip tok
  · obtain ⟨-, -, hs0, hs1⟩ := intOf_eq_some.mp hs
    obtain ⟨-, -, he0, he1⟩ := intOf_eq_some.mp he
    exact .query (by omega) (by omega) (by omega)
  · exact .help

/-- Return code 0 means a command that can be relied on. -/
theorem parseResult_relied {input : Bytes} (h0 : (0 : UInt8) ∉ input) {before cmd : TcpCommand D}
    (h : parseResult input before = (0, cmd)) : Relied cmd := by
  obtain ⟨hsome, hnone⟩ := parseResult_eq input before
  cases hacc : (accepted input : Option (TcpCommand D)) with
  | none =>
    have hcode : (0 : ℤ) = -1 := by
      have hcode := hnone hacc
      rwa [h] at hcode
    omega
  | some cmd' =>
    have hcmd := hsome cmd' hacc
    rw [h] at hcmd
    obtain ⟨-, rfl⟩ := Prod.mk.inj hcmd
    rw [accepted] at hacc
    split at hacc
    · exact commandOf_relied h0 hacc
    · cases hacc

/-- So the gateway never gets into the other branches. -/
theorem gatewayProcessOr_eq {input : Bytes} (h0 : (0 : UInt8) ∉ input) (gateway : Option Gateway)
    (output : Bytes) (output_size : ℕ) (output_handler : Option (Bytes → Sys D ℤ)) :
    gatewayProcessOr x gateway input output output_size output_handler
      = gatewayProcess gateway input output output_size output_handler := by
  cases gateway with
  | none => rfl
  | some gateway =>
    simp only [gatewayProcessOr, gatewayProcess]
    split
    · rfl
    split
    · rfl
    rename_i hrc
    have hrelied : Relied (parseAlone input (zeroed : TcpCommand D)).2 := by
      rw [not_not] at hrc
      have hparse : parseResult input zeroed
          = (0, (parseAlone input (zeroed : TcpCommand D)).2) := by
        rw [← parseAlone_eq h0]
        exact Prod.ext hrc rfl
      exact parseResult_relied h0 hparse
    generalize (parseAlone input (zeroed : TcpCommand D)).2 = command at hrelied
    cases hrelied with
    | sensor hpos hlen hnul hcomma htrim =>
      simp only [sensorMember]
      rw [sensorServiceHandleDataOr_eq (List.length_pos_iff.mp hpos)]
    | query h0 hle hend =>
      cases output_handler with
      | none => rfl
      | some f =>
        simp only [queryMember]
        rw [gatewayHandleQueryOr_eq h0 hle hend]
    | help => rfl

/-! ### The arrays -/

/-- `fields[count++] = trim(token)`. -/
def isTrim : ParserOp → Bool
  | .trim _ => true
  | _ => false

section counting

variable {t : Prop} {n : ℕ}

omit [Libc D] in
/-- The loop of `split_fields` stores a field only while there is room. -/
theorem splitLoop_counting (room : ℕ) (token : Option Ptr) (fields : List Ptr) :
    Prog.wp t (Prog.counting isTrim) (splitLoop room token fields) (fun _ m => m ≤ n + room) n := by
  induction room generalizing token fields n with
  | zero =>
    cases token with
    | none => exact Nat.le_refl n
    | some token => exact Nat.le_refl n
  | succ room ih =>
    cases token with
    | none => exact Nat.le_add_right n _
    | some token =>
      refine Prog.wp_perform trivial ?_
      rintro field _ rfl
      refine Prog.wp_perform trivial ?_
      rintro next _ rfl
      refine Prog.wp_mono ?_ (ih next (fields ++ [field]))
      intro _ m hm
      have hone : (isTrim (.trim token)).toNat = 1 := rfl
      have hzero : (isTrim (.strtok none)).toNat = 0 := rfl
      omega

/-- The parser stores 8 fields at most. -/
theorem tcpParserParse_counting (b : ℕ) (input : Bytes) (command : TcpCommand D) :
    Prog.wp False (Prog.counting isTrim) (tcpParserParse b input command) (fun _ m => m ≤ 8) 0 := by
  refine tcpParserParse_wp (I := fun _ m => m ≤ 8) (Nat.zero_le 8) ?_ ?_ fun _ _ hm => hm
  · refine Prog.wp_perform trivial ?_
    rintro ⟨⟩ _ rfl
    refine Prog.wp_perform trivial ?_
    rintro token _ rfl
    refine Prog.wp_mono ?_ (splitLoop_counting 8 token [])
    intro _ m hm
    have hcopy : (isTrim (.strcpy b input)).toNat = 0 := rfl
    have hscan : (isTrim (.strtok (some (b, 0)))).toNat = 0 := rfl
    have hle : m ≤ 8 := by omega
    exact ⟨hle, fun _ _ => hle⟩
  · -- reading a field stores none
    rintro fields m _ hm ⟨i, -, rfl⟩
    refine ⟨trivial, ?_⟩
    rintro _ _ rfl
    exact hm

end counting

/-- `strcpy(command->data.sensor.device_id, fields[1])` writes the id and its NUL,
which fit also when the command is rejected later on. -/
def CopyFits (command : TcpCommand D) : Prop :=
  ∀ d, command.data = .sensor d → d.device_id.length + 1 ≤ 64

theorem copyFits_zeroed : CopyFits (zeroed : TcpCommand D) := by
  intro d hd
  obtain rfl := CommandData.sensor.inj hd
  show 0 + 1 ≤ 64
  omega

theorem sensorResult_copied (fields : List Bytes) {command : TcpCommand D}
    (h : CopyFits command) : CopyFits (sensorResult fields command).2 := by
  unfold sensorResult
  split
  · rename_i keyword id x1 x2 x3 x4
    split
    · exact h
    · rename_i hid
      rw [not_or, ge_iff_le, not_le] at hid
      -- wherever parse_sensor stops now, the id has been copied
      have hcopied : ∀ (ty : TcpCommandType) (d1 d2 d3 d4 : D),
          CopyFits (⟨ty, .sensor ⟨id, d1, d2, d3, d4⟩⟩ : TcpCommand D) := by
        intro ty d1 d2 d3 d4 d hd
        obtain rfl := CommandData.sensor.inj hd
        exact hid.2
      simp only
      split
      · exact hcopied _ _ _ _ _
      split
      · exact hcopied _ _ _ _ _
      split
      · exact hcopied _ _ _ _ _
      split
      · exact hcopied _ _ _ _ _
      · exact hcopied _ _ _ _ _
  · exact h

theorem queryResult_copied (fields : List Bytes) {command : TcpCommand D}
    (h : CopyFits command) : CopyFits (queryResult fields command).2 := by
  unfold queryResult
  split
  · split
    · intro d hd
      cases hd
    · exact h
  · exact h

/-- A command that has not been left alone. -/
theorem parseResult_copied (input : Bytes) (before : TcpCommand D) :
    (parseResult input before).2 = before ∨ CopyFits (parseResult input before).2 := by
  unfold parseResult
  split
  · exact .inl rfl
  right
  split
  · exact copyFits_zeroed
  split
  · exact copyFits_zeroed
  split
  · exact sensorResult_copied _ copyFits_zeroed
  split
  · exact queryResult_copied _ copyFits_zeroed
  split
  · split
    · exact copyFits_zeroed
    · exact copyFits_zeroed
  · exact copyFits_zeroed

/-! ### The guarantees -/

/-- What is asked of the parser and the gateway at one input. -/
structure Upheld (D : Type) [Libc D] (input : Bytes) : Prop where
  command : ∀ (b n : ℕ) (mem mem' : ParserMem) (before cmd : TcpCommand D),
    Prog.run parserStep n (tcpParserParse b input before) mem = some ((0, cmd), mem') → Relied cmd
  branches : ∀ (x : Elsewhere D) (gateway : Option Gateway) (output : Bytes) (output_size : ℕ)
    (output_handler : Option (Bytes → Sys D ℤ)),
    gatewayProcessOr x gateway input output output_size output_handler
      = gatewayProcess gateway input output output_size output_handler
  /-- Whatever the memory operations answer. -/
  entries : ∀ {W : Type} (sem : W → (o : ParserOp) → ParserAns o → W → Prop) (b : ℕ)
    (before : TcpCommand D) (w w' : W) (r : ℤ × TcpCommand D)
    (l : List (Prog.Event ParserOp ParserAns)), Prog.Runs (Prog.traced sem)
      (tcpParserParse b input before) (w, []) r (w', l) → Prog.hits isTrim l ≤ 8
  copied : ∀ (b n : ℕ) (mem mem' : ParserMem) (before : TcpCommand D) (r : ℤ × TcpCommand D),
    Prog.run parserStep n (tcpParserParse b input before) mem = some (r, mem') →
      r.2 = before ∨ CopyFits r.2

/-- What the lower layers rely on, the parser guarantees. -/
theorem guarantees_upheld {input : Bytes} (h0 : (0 : UInt8) ∉ input) : Upheld D input where
  command := by
    intro b n mem mem' before cmd hrun
    obtain ⟨_, hparse, -⟩ := parse_run (b := b) (n := n) h0 mem before
    rw [hrun] at hparse
    obtain ⟨hresult, -⟩ := Prod.mk.inj (Option.some.inj hparse)
    exact parseResult_relied h0 hresult.symm
  branches := by
    intro x gateway output output_size output_handler
    exact gatewayProcessOr_eq h0 gateway output output_size output_handler
  entries := by
    intro W sem b before w w' r l hrun
    exact Prog.counting_hits hrun (tcpParserParse_counting b input before)
  copied := by
    intro b n mem mem' before r hrun
    obtain ⟨_, hparse, -⟩ := parse_run (b := b) (n := n) h0 mem before
    rw [hrun] at hparse
    obtain ⟨rfl, -⟩ := Prod.mk.inj (Option.some.inj hparse)
    exact parseResult_copied input before

theorem guarantees_upheld_sensor :
    Upheld Binary64 (bytes "SENSOR,DEV2,26.8,55.2,101.3,568.4") :=
  guarantees_upheld (by decide)

end SensorGateway
