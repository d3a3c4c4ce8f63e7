/-
Chunks with a NUL inside.

A chunk comes as bytes and a length, but client_handler copies it into a C string,
and the gateway sees the bytes before the first NUL only.  A command there is
executed and acknowledged, and the rest of the chunk is lost.

* `TakesAll` — a chunk that is executed without ERROR is the text of one command;
* `takesAll_iff` — this holds of a chunk without NUL, or when what stands before
  the NUL is refused or shows no effect;
* `second_reading_lost` — two SENSOR commands with a NUL between them.
-/
import SensorGateway.Clients
import SensorGateway.QuietServer
import SensorGateway.Termination

open CString Sqlite TcpParser

namespace SensorGateway

variable {D : Type} [Libc D] {env : Env D} {M : Mode D} {c : ℕ} {fd : ℤ} {T : Table D}
  {data : Bytes} {w : World D}

/-- All of the chunk, but for surrounding whitespace, is the text of a command. -/
def WholeText (D : Type) [Libc D] (data : Bytes) : Prop :=
  (accepted (fmtStr data) : Option (TcpCommand D)).isSome ∧ strip data = strip (fmtStr data)

/-- Whatever fails, when client_handler stores a row or sends something for a chunk
and reports no ERROR, then all of the chunk has been executed. -/
def TakesAll (env : Env D) (c : ℕ) (fd : ℤ) (T : Table D) (data : Bytes) : Prop :=
  ∀ rc w₂, Prog.Runs (Answers env sharedMode)
    (clientHandler (some (openGateway c)) fd .data data) ⟨[], T, [], false, [], [], [], []⟩ rc w₂ →
    w₂.table ≠ T ∨ w₂.sent ≠ [] → Entry.said errorResponse ∉ w₂.log → WholeText D data

/-- A QUERY that finds no row, or a batch that does not fit. -/
def Fruitless (T : Table D) (x : Bytes) : Prop :=
  ∃ s e : ℤ, accepted x = some (⟨.query, .query ⟨s, e⟩⟩ : TcpCommand D) ∧
    (T.range s e = [] ∨ reportCode (T.range s e) ≠ 0)

/-! ### Texts -/

theorem zero_mem_strip (h : (0 : UInt8) ∈ data) : (0 : UInt8) ∈ strip data := by
  obtain ⟨a, b, hsplit, ha, hb⟩ := strip_decomp data
  have h0 : ¬ isspace 0 := by decide
  rw [hsplit, List.mem_append, List.mem_append] at h
  rcases h with (h | h) | h
  · exact absurd (ha 0 h) h0
  · exact h
  · exact absurd (hb 0 h) h0

theorem strip_eq_iff : strip data = strip (fmtStr data) ↔ (0 : UInt8) ∉ data := by
  constructor
  · intro h h0
    have hmem := zero_mem_strip h0
    rw [h] at hmem
    exact zero_notMem_fmtStr data ((strip_sublist _).mem hmem)
  · intro h0
    rw [fmtStr_eq_self h0]

/-- A batch has separators in it, which an error has not. -/
theorem ne_errorResponse {rows : List (Row D)} {text : Bytes} (h : text ∈ batches rows) :
    text ≠ errorResponse := by
  obtain ⟨i, hi, rfl⟩ := List.mem_map.mp h
  have hne := window_ne_nil.mpr (List.mem_range.mp hi)
  obtain ⟨r, rest, hr⟩ := List.exists_cons_of_ne_nil hne
  have hbar : (124 : UInt8) ∈ batchAt rows i := by
    have hsep : (124 : UInt8) ∈ separator := by decide
    simp [batchAt, batchText, hr, renderRows, renderRow, rowLine, hsep]
  intro heq
  rw [heq] at hbar
  exact absurd hbar (by decide)

/-! ### What is noted down -/

omit [Libc D] in
theorem mem_log_sends {o o' : Out D} {text : Bytes} {r : ℤ} (h : sends M o text r o')
    {x : Entry D} (hx : x ∈ o'.log) : x ∈ o.log ∨ x = .said text := by
  obtain ⟨n, k, rfl, -⟩ := h
  rcases List.mem_append.mp hx with hx | hx
  · exact .inl hx
  · exact .inr (List.eq_of_mem_replicate hx)

omit [Libc D] in
theorem mem_log_wrote {o o' : Out D} {texts : List Bytes} (h : Wrote (sends M) o texts o')
    {x : Entry D} (hx : x ∈ o'.log) : x ∈ o.log ∨ ∃ text ∈ texts, x = .said text := by
  induction h with
  | nil => exact .inl hx
  | @concat texts text o₁ o₂ _ ht ih =>
    rcases mem_log_sends ht hx with hx | rfl
    · rcases ih hx with hx | ⟨text', hmem, rfl⟩
      · exact .inl hx
      · exact .inr ⟨text', List.mem_append_left _ hmem, rfl⟩
    · exact .inr ⟨text, by simp, rfl⟩

/-- `tcp_server_send` calls `send` at least once. -/
theorem tcpServerSend_says {text : Bytes} (hfd : 0 ≤ fd) (htext : text ≠ [])
    (hmay : ∀ log, M.permits log (.said text)) (w : World D) :
    Prog.wp False (surroundings env M) (tcpServerSend fd text)
      (fun _ w₁ => Entry.said text ∈ w₁.log) w := by
  have hlen : text.length ≠ 0 := by simpa using htext
  simp only [tcpServerSend, Prog.pure_eq]
  rw [if_neg (by omega)]
  refine Prog.wp_iter (fun total_sent w₁ => total_sent = 0 ∨ Entry.said text ∈ w₁.log)
    (.inl rfl) ?_
  intro total_sent w₁ hI
  simp only [sendTurn, Prog.bind_eq, Prog.pure_eq]
  split
  · rename_i hlt
    refine Prog.wp_perform ⟨hlt, hmay _⟩ ?_
    intro a w₂ ha
    -- whatever it answers, the call is noted down
    have hsaid : Entry.said text ∈ w₂.log := by
      rcases ha with ⟨n, -, -, -, rfl⟩ | ⟨-, -, rfl⟩
      · simp [World.afterSend]
      · simp [World.afterSend]
    cases a with
    | eintr => exact .inr hsaid
    | error => exact hsaid
    | sent n =>
      simp only
      split
      · exact hsaid
      · exact .inr hsaid
  · rcases hI with rfl | hsaid
    · omega
    · exact hsaid

/-! ### Runs of client_handler -/

theorem clientHandler_data_eq (g : Gateway) (fd : ℤ) (hdata : data ≠ [])
    (hlen : data.length ≤ 127) : (clientHandler (some g) fd .data data : Sys D ℤ)
      = (gatewayProcess (some g) (fmtStr data) (List.replicate OUTPUT_BUFFER_SIZE 0)
          OUTPUT_BUFFER_SIZE (some (gatewayOutputHandler fd))).bind fun x =>
        if x.1 ≠ 0 then (tcpServerSend fd errorResponse).bind fun _ => .ret (-1)
        else if x.2.getD 0 0 ≠ 0 then (tcpServerSend fd (cstr x.2 0)).bind fun rc =>
          if rc ≠ 0 then .ret (-1) else .ret 0
        else .ret 0 := by
  have hpos : data.length ≠ 0 := by simpa using hdata
  simp only [clientHandler, Prog.bind_eq, Prog.pure_eq]
  rw [if_neg (by simp), if_neg hpos, if_neg (by rw [BUFFER_SIZE]; omega), chunkText_eq]

/-- A run of client_handler: the chunk is processed, an error reported, and without
a reply nothing is done. -/
theorem clientHandler_run (hfd : 0 ≤ fd) (hdata : data ≠ []) (hlen : data.length ≤ 127) {rc : ℤ}
    {w₂ : World D} (hrun : Prog.Runs (Answers env sharedMode)
      (clientHandler (some (openGateway c)) fd .data data) w rc w₂) :
    ∃ r reply w₁, Processed env sharedMode (sends sharedMode) (fmtStr data) w r reply w₁ ∧
      (r ≠ 0 → Entry.said errorResponse ∈ w₂.log) ∧ (r = 0 → reply = [] → w₂ = w₁) := by
  rw [clientHandler_data_eq _ fd hdata hlen] at hrun
  obtain ⟨⟨r, out⟩, w₁, hprocess, hrest⟩ := hrun.of_bind
  have hans : ∀ (w : World D) o a w', Legal env sharedMode w o → Answers env sharedMode w o a w' →
      Answers env sharedMode w o a w' := fun _ _ _ _ _ h => h
  have hh : Handles False env sharedMode (gatewayOutputHandler fd) (sends (sharedMode : Mode D)) :=
    gatewayOutputHandler_handles hfd False.elim fun _ _ _ => trivial
  have hproc := Prog.wp_runs hans (gatewayProcess_wp (zero_notMem_fmtStr data) le_rfl hh
    fun _ _ _ => trivial) hprocess
  refine ⟨r, cstr out 0, w₁, hproc, fun hr => ?_, fun hr hnil => ?_⟩
  · rw [if_pos hr] at hrest
    obtain ⟨rc', w₃, hsend, hret⟩ := hrest.of_bind
    cases hret
    have hsays : Prog.wp False (surroundings env sharedMode) (tcpServerSend fd errorResponse)
        (fun _ w₁ => Entry.said errorResponse ∈ w₁.log) w₁ :=
      tcpServerSend_says hfd (by decide) (fun _ => trivial) w₁
    have hsaid := Prog.wp_runs hans hsays hsend
    exact hsaid
  · rw [if_neg (not_not.mpr hr), if_neg (not_not.mpr (cstr_eq_nil.mp hnil))] at hrest
    cases hrest
    rfl

theorem takesAll_of (hfd : 0 ≤ fd) (hdata : data ≠ []) (hlen : data.length ≤ 127)
    (h : (0 : UInt8) ∉ data ∨ (accepted (fmtStr data) : Option (TcpCommand D)) = none ∨
      Fruitless T (fmtStr data)) : TakesAll env c fd T data := by
  intro rc w₂ hrun heffect hsilent
  obtain ⟨r, reply, w₁, hproc, herror, hnothing⟩ := clientHandler_run hfd hdata hlen hrun
  have hr : r = 0 := by
    by_contra hr
    exact hsilent (herror hr)
  subst hr
  have hsome : (accepted (fmtStr data) : Option (TcpCommand D)).isSome := by
    rw [Option.isSome_iff_ne_none]
    intro hnone
    cases hproc with
    | stored h _ _ => simp [hnone] at h
    | queried h _ _ => simp [hnone] at h
    | helped h _ _ => simp [hnone] at h
  refine ⟨hsome, strip_eq_iff.mpr ?_⟩
  rcases h with h0 | hnone | ⟨s, e, hcmd, hfruit⟩
  · exact h0
  · rw [hnone] at hsome
    cases hsome
  · -- such a QUERY has no effect
    exfalso
    cases hproc with
    | stored h _ _ =>
      rw [hcmd] at h
      cases h
    | @queried s' e' _ w₁ h ho hu =>
      rw [hcmd] at h
      cases h
      obtain ⟨hcode, hwrote⟩ := ho.zero (fun _ _ h => h) rfl
      rcases hfruit with hnil | hlong
      · obtain rfl := hnothing rfl rfl
        have htable : T = w₂.table := hu.table
        have hnone : batches (T.range s e) = [] := by rw [hnil, batches_nil]
        have hout : w₂.out = ⟨[], [], []⟩ := by
          have hwrote' : Wrote (sends sharedMode) ⟨[], [], []⟩ (batches (T.range s e)) w₂.out :=
            hwrote
          rw [hnone] at hwrote'
          exact hwrote'.of_nil
        rcases heffect with ht | hs
        · exact ht htable.symm
        · exact hs (congrArg Out.sent hout)
      · exact hlong hcode
    | helped h _ _ =>
      rw [hcmd] at h
      cases h

/-! ### What is lost -/

theorem flatten_batches_ne_nil {rows : List (Row D)} (h : rows ≠ []) :
    (batches rows).flatten ≠ [] := by
  have hlen := List.length_pos_iff.mpr h
  have h20 : BATCH_ROWS = 20 := rfl
  have hpos : 0 < batchCount rows.length := by
    rw [batchCount, h20]
    omega
  intro hnil
  have hmem : batchAt rows 0 ∈ batches rows := List.mem_map.mpr ⟨0, by simpa using hpos, rfl⟩
  exact batchText_ne_nil _ (window_ne_nil.mpr hpos) (List.flatten_eq_nil_iff.mp hnil _ hmem)

/-- With nothing failing and nobody else at work, a command in front of the NUL
shows an effect, and no ERROR is sent. -/
theorem Processed.effect {r : ℤ} {reply : Bytes} {w₁ w₂ : World D}
    (h : Processed env quietMode (sends quietMode) (fmtStr data) w r reply w₁)
    (ha : Answered quietMode r reply w₁ w₂) (hlog : Entry.said errorResponse ∉ w.log)
    (hsome : (accepted (fmtStr data) : Option (TcpCommand D)) ≠ none)
    (hfruit : ¬ Fruitless w.table (fmtStr data)) :
    w₂.sent ≠ [] ∧ Entry.said errorResponse ∉ w₂.log := by
  -- a reply that is no ERROR
  have hreply : reply ≠ [] → reply ≠ errorResponse → r = 0 →
      Entry.said errorResponse ∉ w₁.log → w₂.sent ≠ [] ∧ Entry.said errorResponse ∉ w₂.log := by
    intro hne herror hr hlog₁
    cases ha with
    | error hr' _ => exact absurd hr hr'
    | @reply _ o _ _ hsend =>
      have hsent : o.sent = w₁.sent ++ reply := (sends_quiet hsend).2
      refine ⟨?_, fun hmem => ?_⟩
      · show o.sent ≠ []
        simp [hsent, hne]
      · rcases mem_log_sends hsend hmem with hmem | heq
        · exact hlog₁ hmem
        · exact herror (Entry.said.inj heq).symm
    | silent _ hnil => exact absurd hnil hne
  cases h with
  | rejected h => exact absurd h hsome
  | stored _ _ hw =>
    refine hreply (by decide) (by decide) rfl ?_
    rw [hw.log]
    simpa [World.noting] using hlog
  | lost _ hM _ _ => exact hM.elim
  | @queried s e r w₁ hcmd ho _ =>
    have hr : r = reportCode (w.table.range s e) :=
      (ho.quiet fun o text r o' h => (sends_quiet h).1).1
    have hcode : reportCode (w.table.range s e) = 0 := by
      by_contra hcode
      exact hfruit ⟨s, e, hcmd, .inr hcode⟩
    have hrows : w.table.range s e ≠ [] := fun hnil => hfruit ⟨s, e, hcmd, .inl hnil⟩
    rw [hcode] at hr
    obtain ⟨-, hwrote⟩ := ho.zero (fun _ _ h => h) hr
    cases ha with
    | error hr' _ => exact absurd hr hr'
    | reply _ hne _ => exact absurd rfl hne
    | silent _ _ =>
      refine ⟨?_, fun hmem => ?_⟩
      · have hsent : w₁.sent = w.sent ++ (batches (w.table.range s e)).flatten := wrote_quiet hwrote
        simp [hsent, flatten_batches_ne_nil hrows]
      · rcases mem_log_wrote hwrote hmem with hmem | ⟨text, htext, heq⟩
        · exact hlog hmem
        · exact ne_errorResponse htext (Entry.said.inj heq).symm
  | helped _ _ hw =>
    refine hreply (helpText_ne_nil _ _) (fun heq => ?_) rfl ?_
    · have hlen := congrArg List.length heq
      rw [length_helpText, show errorResponse.length = 6 from rfl] at hlen
      omega
    · rw [hw.log]
      exact hlog
  | helpless _ hM _ _ => exact hM.elim

/-- A command in front of a NUL is executed without ERROR and the rest dropped. -/
theorem not_takesAll (hfd : 0 ≤ fd) (hdata : data ≠ []) (hlen : data.length ≤ 127)
    (h0 : (0 : UInt8) ∈ data) (hsome : (accepted (fmtStr data) : Option (TcpCommand D)) ≠ none)
    (hfruit : ¬ Fruitless T (fmtStr data)) : ¬ TakesAll env c fd T data := by
  intro htakes
  have hquiet : Prog.wp True (surroundings env quietMode)
      (clientHandler (some (openGateway c)) fd .data data)
      (fun _ w₂ => w₂.sent ≠ [] ∧ Entry.said errorResponse ∉ w₂.log)
      ⟨[], T, [], false, [], [], [], []⟩ :=
    clientHandler_data_wp hdata hlen hfd (fun _ h => h) (fun _ _ _ => trivial)
      (fun _ _ _ => trivial) (fun _ _ _ _ _ => ⟨fun _ => trivial, fun _ => trivial⟩)
      fun _ _ _ _ _ hproc hans => hproc.effect hans (by simp) hsome hfruit
  obtain ⟨rc, w₂, hrun, hsent, hsilent⟩ := quiet_runs (M := sharedMode) trivial hquiet
  obtain ⟨-, hwhole⟩ := htakes rc w₂ hrun (.inr hsent) hsilent
  exact strip_eq_iff.mp hwhole h0

theorem takesAll_iff (hfd : 0 ≤ fd) (hdata : data ≠ []) (hlen : data.length ≤ 127) :
    TakesAll env c fd T data ↔ (0 : UInt8) ∉ data ∨
      (accepted (fmtStr data) : Option (TcpCommand D)) = none ∨ Fruitless T (fmtStr data) := by
  constructor
  · intro htakes
    by_contra hno
    simp only [not_or, not_not] at hno
    obtain ⟨h0, hsome, hfruit⟩ := hno
    exact not_takesAll hfd hdata hlen h0 hsome hfruit htakes
  · intro h
    exact takesAll_of hfd hdata hlen h

/-- A reading without NUL, and one behind a command that is refused. -/
theorem takesAll_iff_reading :
    TakesAll Env.counting 0 4 (∅ : Table Binary64) (bytes "SENSOR,a,1,2,3,4\n") ∧
      TakesAll Env.counting 0 4 (∅ : Table Binary64)
        (bytes "SENSOR,a" ++ [0] ++ bytes "SENSOR,a,1,2,3,4") :=
  ⟨(takesAll_iff (by decide) (by decide) (by decide +kernel)).mpr (.inl (by decide)),
    (takesAll_iff (by decide) (by decide) (by decide +kernel)).mpr
      (.inr (.inl (by decide +kernel)))⟩

/-- Two readings, each ended by a NUL but for the last. -/
def twoReadings : Bytes := bytes "SENSOR,a,1,2,3,4" ++ [0] ++ bytes "SENSOR,b,1,2,3,4"

theorem second_reading_lost : ¬ TakesAll Env.counting 0 4 (∅ : Table Binary64) twoReadings := by
  have hsome : (accepted (fmtStr twoReadings) : Option (TcpCommand Binary64)).isSome := by
    decide +kernel
  have htype : ∀ cmd : TcpCommand Binary64, accepted (fmtStr twoReadings) = some cmd →
      cmd.type ≠ .query := by
    have hall : ((accepted (fmtStr twoReadings) : Option (TcpCommand Binary64)).all
        fun cmd => cmd.type ≠ .query) = true := by
      decide +kernel
    intro cmd hcmd
    simpa [hcmd] using hall
  refine not_takesAll (by decide) (by decide) (by decide +kernel) (by decide +kernel)
    (Option.isSome_iff_ne_none.mp hsome) ?_
  rintro ⟨s, e, hcmd, -⟩
  exact htype _ hcmd rfl

end SensorGateway
