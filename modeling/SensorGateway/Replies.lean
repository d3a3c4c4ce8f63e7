/-
Every request is answered, once.

As long as its sends succeed, `client_handler` answers a chunk before it returns,
whatever SQLite calls fail and whatever the table is
(`answered_or_nothing_found`).  The one exception is a QUERY that finds no row in
its range: gateway_handle_query leaves its loop before the output handler is
called, and nothing is sent (`query_unanswered`).
-/
import SensorGateway.QuietServer
import SensorGateway.Termination

open CString Sqlite TcpParser

namespace SensorGateway

variable {D : Type} [Libc D] {env : Env D} {M : Mode D} {c : ℕ} {fd : ℤ} {w w₁ : World D}
  {data reply : Bytes} {r : ℤ}

/-- A QUERY has read one table, which has no row in its range. -/
def FoundNothing (data : Bytes) (w w₁ : World D) : Prop :=
  ∃ s e T, accepted (fmtStr data) = some (⟨.query, .query ⟨s, e⟩⟩ : TcpCommand D) ∧
    w₁.reads = w.reads ++ [T] ∧ T.range s e = []

/-! ### What is sent -/

theorem flatten_batchTexts_ne_nil {ps : List (List (Row D))} (hps : ps ≠ [])
    (hne : ∀ p ∈ ps, p ≠ []) : (batchTexts ps).flatten ≠ [] := by
  obtain ⟨p, rest, rfl⟩ := List.exists_cons_of_ne_nil hps
  have hp : p ≠ [] := hne p (by simp)
  rw [batchTexts, List.mapIdx_cons, List.flatten_cons]
  simp [batchText_ne_nil _ hp]

/-- What a QUERY has sent, and when that is nothing. -/
theorem QueryOutcome.sent (hM : ¬ M.socketFails) {s e : ℤ}
    (h : QueryOutcome M (sends M) s e w r w₁) : ∃ text, w₁.sent = w.sent ++ text ∧
      (r = 0 → text = [] → ∃ T, w₁.reads = w.reads ++ [T] ∧ T.range s e = []) := by
  cases h with
  | @complete Ts ps T _ hh hg hend hreads _ =>
    refine ⟨_, wrote_all hM hh.wrote, fun _ hnil => ?_⟩
    -- no page has been handed out
    have hps : ps = [] := by
      by_contra hps
      exact flatten_batchTexts_ne_nil hps hh.read.ne_nil hnil
    subst hps
    have hTs : Ts = [] := List.length_eq_zero_iff.mp hh.read.length_eq
    subst hTs
    refine ⟨T, hreads, ?_⟩
    rcases List.take_eq_nil_iff.mp hend with h0 | h0
    · exact absurd h0 (by decide)
    · rw [Table.range_eq_select]
      exact h0
  | batch hh _ _ _ => exact ⟨_, wrote_all hM hh.wrote, fun h => absurd h (by decide)⟩
  | handler _ _ _ _ hr hrec _ => exact absurd (sends_all hM hrec).1 hr

/-- A reply in the output buffer comes with the code 0, and nothing has been put
out before it. -/
theorem Processed.reply_alone {rec : Out D → Bytes → ℤ → Out D → Prop} {input : Bytes}
    (h : Processed env M rec input w r reply w₁) (hne : reply ≠ []) :
    r = 0 ∧ w₁.sent = w.sent ∧ w₁.delivered = w.delivered := by
  cases h with
  | rejected _ => exact absurd rfl hne
  | stored _ _ hw => exact ⟨rfl, hw.sent, hw.delivered⟩
  | lost _ _ _ _ => exact absurd rfl hne
  | queried _ _ _ => exact absurd rfl hne
  | helped _ _ hw => exact ⟨rfl, hw.sent, hw.delivered⟩
  | helpless _ _ _ _ => exact absurd rfl hne

/-- With no reply and no error, either batches have been sent or none was found. -/
theorem Processed.sent (hM : ¬ M.socketFails)
    (h : Processed env M (sends M) (fmtStr data) w r reply w₁) :
    ∃ text, w₁.sent = w.sent ++ text ∧
      (r = 0 → reply = [] → text = [] → FoundNothing data w w₁) := by
  have hsame : ∀ {w₁ : World D}, w₁.sent = w.sent → w₁.sent = w.sent ++ [] := fun h => by simp [h]
  cases h with
  | rejected _ => exact ⟨[], hsame rfl, fun h => absurd h (by decide)⟩
  | stored _ _ hw => exact ⟨[], hsame hw.sent, fun _ h => absurd h (by decide)⟩
  | lost _ _ _ hw => exact ⟨[], hsame hw.sent, fun h => absurd h (by decide)⟩
  | queried h ho _ =>
    obtain ⟨text, hsent, hnothing⟩ := ho.sent hM
    refine ⟨text, hsent, fun hr _ hnil => ?_⟩
    obtain ⟨T, hreads, hrange⟩ := hnothing hr hnil
    exact ⟨_, _, T, h, hreads, hrange⟩
  | helped _ _ hw => exact ⟨[], hsame hw.sent, fun _ h => absurd h (helpText_ne_nil _ _)⟩
  | helpless _ _ _ hw => exact ⟨[], hsame hw.sent, fun h => absurd h (by decide)⟩

omit [Libc D] in
theorem Answered.sent (hM : ¬ M.socketFails) {w₂ : World D} (h : Answered M r reply w₁ w₂) :
    (∃ text, text ≠ [] ∧ w₂.sent = w₁.sent ++ text) ∨ r = 0 ∧ reply = [] ∧ w₂ = w₁ := by
  cases h with
  | error _ h => exact .inl ⟨_, by decide, (sends_all hM h).2.1⟩
  | reply _ hne h => exact .inl ⟨_, hne, (sends_all hM h).2.1⟩
  | silent hr hnil => exact .inr ⟨hr, hnil, rfl⟩

/-! ### One chunk -/

/-- client_handler has sent something, or a QUERY has found nothing. -/
theorem clientHandler_answers (env : Env D) (c : ℕ) (hM : ¬ M.socketFails) (hfd : 0 ≤ fd)
    (hdata : data ≠ []) (hlen : data.length ≤ 127) (w : World D) :
    Prog.wp True (surroundings env M.free) (clientHandler (some (openGateway c)) fd .data data)
      (fun _ w₂ => (∃ text, text ≠ [] ∧ w₂.sent = w.sent ++ text) ∨
        FoundNothing data w w₂ ∧ w₂.sent = w.sent) w := by
  refine clientHandler_data_wp (M := M.free) hdata hlen hfd (fun _ h => hM h) (fun _ _ _ => trivial)
    (fun _ _ _ => trivial) (fun _ _ _ _ _ => ⟨fun _ => trivial, fun _ => trivial⟩) ?_
  intro rc r reply w₁ w₂ hproc hans
  obtain ⟨text, hsent, hnothing⟩ := Processed.sent (M := M.free) hM hproc
  rcases Answered.sent (M := M.free) hM hans with ⟨text', hne, hsent'⟩ | ⟨hr, hnil, rfl⟩
  · rw [hsent, List.append_assoc] at hsent'
    exact .inl ⟨text ++ text', by simp [hne], hsent'⟩
  · by_cases htext : text = []
    · refine .inr ⟨hnothing hr hnil htext, ?_⟩
      rw [hsent, htext, List.append_nil]
    · exact .inl ⟨text, htext, hsent⟩

/-- What gateway_process leaves in the output buffer, for any output handler with a
specification. -/
theorem gatewayProcess_reply {rec : Out D → Bytes → ℤ → Out D → Prop} {handler : Bytes → Sys D ℤ}
    (hh : Handles False env M.free handler rec) {input out : Bytes} (h0 : (0 : UInt8) ∉ input)
    {buffer : Bytes}
    (hrun : Prog.Runs (Answers env M) (gatewayProcess (some (openGateway c)) input buffer
      OUTPUT_BUFFER_SIZE (some handler)) w (r, out) w₁) (hne : cstr out 0 ≠ []) :
    r = 0 ∧ w₁.sent = w.sent ∧ w₁.delivered = w.delivered := by
  have hwp : Prog.wp False (surroundings env M.free) (gatewayProcess (some (openGateway c)) input
      buffer OUTPUT_BUFFER_SIZE (some handler)) _ w :=
    gatewayProcess_wp h0 le_rfl hh fun _ _ _ => trivial
  exact (Prog.wp_runs (Mode.free_answers env M) hwp hrun).reply_alone hne

/-- A chunk is answered by at least one byte, but for a QUERY that finds nothing,
and by one channel: what is left in the output buffer is all that is sent. -/
structure AnswersOnce (env : Env D) (M : Mode D) (c : ℕ) (fd : ℤ) (data : Bytes) (w : World D) :
    Prop where
  ends : Prog.Ends (Answers env M) (clientHandler (some (openGateway c)) fd .data data) w
  answers : ∀ rc w₂,
    Prog.Runs (Answers env M) (clientHandler (some (openGateway c)) fd .data data) w rc w₂ →
      (∃ text, text ≠ [] ∧ w₂.sent = w.sent ++ text) ∨ FoundNothing data w w₂ ∧ w₂.sent = w.sent
  alone : ∀ handler ∈ [output, gatewayOutputHandler fd], ∀ r out w₁,
    Prog.Runs (Answers env M) (gatewayProcess (some (openGateway c)) (cstr (data ++ [0]) 0)
      (List.replicate OUTPUT_BUFFER_SIZE 0) OUTPUT_BUFFER_SIZE (some handler)) w (r, out) w₁ →
    cstr out 0 ≠ [] → r = 0 ∧ w₁.sent = w.sent ∧ w₁.delivered = w.delivered

theorem answered_or_nothing_found (env : Env D) (c : ℕ) (hM : ¬ M.socketFails) (hfd : 0 ≤ fd)
    (hdata : data ≠ []) (hlen : data.length ≤ 127) (w : World D) :
    AnswersOnce env M c fd data w := by
  have hwp := clientHandler_answers env c hM hfd hdata hlen w
  have h0 : (0 : UInt8) ∉ cstr (data ++ [0]) 0 := by
    rw [chunkText_eq]
    exact zero_notMem_fmtStr data
  constructor
  · exact Prog.wp_ends (Mode.free_answers env M) hwp
  · intro rc w₂ hrun
    have hend := Prog.wp_runs (Mode.free_answers env M) hwp hrun
    exact hend
  · intro handler hmem r out w₁ hrun hne
    rcases List.mem_pair.mp hmem with rfl | rfl
    · exact gatewayProcess_reply output_handles h0 hrun hne
    · exact gatewayProcess_reply (gatewayOutputHandler_handles hfd False.elim fun _ _ _ => trivial)
        h0 hrun hne

theorem answered_or_nothing_found_help :
    AnswersOnce Env.counting faultyMode 0 4 (bytes "HELP") (.fresh (∅ : Table Binary64) []) :=
  answered_or_nothing_found Env.counting 0 not_false (by decide) (by decide) (by decide) _

theorem query_unanswered : ¬ ∀ (T : Table Binary64) (data : Bytes), data ≠ [] →
    data.length ≤ 127 → ∀ rc w₂, Prog.Runs (Answers Env.counting faultyMode)
      (clientHandler (some (openGateway 0)) 4 .data data) (.fresh T []) rc w₂ → w₂.sent ≠ [] := by
  intro h
  have hne : bytes "QUERY,1,1" ≠ [] := by decide
  have hlen : (bytes "QUERY,1,1").length ≤ 127 := by decide
  have hquiet : Prog.wp True (surroundings Env.counting quietMode)
      (clientHandler (some (openGateway 0)) 4 .data (bytes "QUERY,1,1")) _
      (.fresh (∅ : Table Binary64) []) := clientHandler_quiet hne hlen (by decide) _
  obtain ⟨rc, w₂, hrun, hrep⟩ := quiet_runs (M := faultyMode) trivial hquiet
  refine h ∅ _ hne hlen rc w₂ hrun ?_
  rw [hrep.sent]
  decide +kernel

end SensorGateway
