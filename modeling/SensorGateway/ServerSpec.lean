/-
What the server does for a client: sending, and handling one chunk.

* `tcpServerSend_wp` — all of the text is sent, or a part of it and -1 returned;
* `clientHandler_data_wp` — a chunk is processed as one command (`Processed`)
  and answered accordingly (`Answered`).
-/
import SensorGateway.GatewaySpec
import SensorGateway.TcpServer

open CString Sqlite TcpParser

namespace SensorGateway

variable {D : Type} [Libc D] {t : Prop} {env : Env D} {M : Mode D} {w : World D} {c : ℕ} {fd : ℤ}

/-! ### Sending -/

/-- What `tcp_server_send` puts out of a text: all of it, or less and an error. -/
def sends (M : Mode D) (o : Out D) (text : Bytes) (r : ℤ) (o' : Out D) : Prop :=
  ∃ n k, o' = ⟨o.sent ++ text.take n, o.delivered, o.log ++ List.replicate k (.said text)⟩ ∧
    (n = text.length ∧ r = 0 ∨ n < text.length ∧ r = -1 ∧ M.socketFails)

omit [Libc D] in
theorem sends_all (hM : ¬ M.socketFails) {o o' : Out D} {text : Bytes} {r : ℤ}
    (h : sends M o text r o') : r = 0 ∧ o'.sent = o.sent ++ text ∧ o'.delivered = o.delivered := by
  obtain ⟨n, k, rfl, ⟨rfl, rfl⟩ | ⟨-, -, hfail⟩⟩ := h
  · exact ⟨rfl, by simp, rfl⟩
  · exact absurd hfail hM

omit [Libc D] in
theorem wrote_all (hM : ¬ M.socketFails) {o o' : Out D} {texts : List Bytes}
    (h : Wrote (sends M) o texts o') : o'.sent = o.sent ++ texts.flatten := by
  induction h with
  | nil => simp
  | concat _ ht ih => simp [(sends_all hM ht).2.1, ih]

/-- The loop of `tcp_server_send` after `total_sent` bytes. -/
def SendInv (w : World D) (text : Bytes) (n total_sent : ℕ) (w₁ : World D) : Prop :=
  n = text.length - total_sent ∧ total_sent ≤ text.length ∧
    ∃ k, w₁ = w.withOut ⟨w.sent ++ text.take total_sent, w.delivered,
      w.log ++ List.replicate k (.said text)⟩

omit [Libc D] in
theorem SendInv.afterSend {text : Bytes} {n total_sent m : ℕ} {w₁ : World D}
    (h : SendInv w text n total_sent w₁) (hm : m ≤ text.length - total_sent) :
    SendInv w text (text.length - (total_sent + m)) (total_sent + m)
      (w₁.afterSend text total_sent m) := by
  obtain ⟨-, hle, k, rfl⟩ := h
  refine ⟨rfl, by omega, k + 1, ?_⟩
  simp only [World.afterSend, World.withOut]
  rw [List.append_assoc w.sent, ← List.take_add, List.append_assoc w.log,
    ← List.replicate_succ']

/-- One turn: some bytes are taken, or nothing is and the loop may be left. -/
theorem sendTurn_wp {text : Bytes} (ht : t → ¬ M.socketFails)
    (hmay : ∀ k, M.permits (w.log ++ List.replicate k (.said text)) (.said text))
    {n total_sent : ℕ} {w₁ : World D} (hI : SendInv w text n total_sent w₁)
    {Q : ℤ → World D → Prop} (hQ : ∀ r o, sends M w.out text r o → Q r (w.withOut o)) :
    Prog.wp t (surroundings env M) (sendTurn fd text total_sent)
      (Sum.elim (fun s w' => ∃ m, (t → m < n) ∧ SendInv w text m s w') Q) w₁ := by
  have hn : n = text.length - total_sent := hI.1
  simp only [sendTurn, Prog.bind_eq, Prog.pure_eq]
  by_cases hlt : total_sent < text.length
  · rw [if_pos hlt]
    refine Prog.wp_perform ?_ ?_
    · obtain ⟨-, -, k, rfl⟩ := hI
      exact ⟨hlt, hmay k⟩
    · rintro a w₂ (⟨m, hpos, hm, rfl, rfl⟩ | ⟨hM, ha, rfl⟩)
      · -- some bytes have been taken
        simp only
        rw [if_neg (by omega)]
        exact ⟨_, fun _ => by omega, hI.afterSend hm⟩
      · have hsame := hI.afterSend (Nat.zero_le _)
        have hstop : Q (-1) (w₁.afterSend text total_sent 0) := by
          obtain ⟨-, -, k, hw₂⟩ := hsame
          rw [hw₂]
          exact hQ _ _ ⟨total_sent, k, rfl, .inr ⟨hlt, rfl, hM⟩⟩
        rcases ha with rfl | rfl | rfl
        · exact hstop
        · exact ⟨_, fun h => absurd hM (ht h), hsame⟩
        · exact hstop
  · rw [if_neg hlt]
    obtain ⟨-, hle, k, rfl⟩ := hI
    exact hQ _ _ ⟨total_sent, k, rfl, .inl ⟨by omega, rfl⟩⟩

theorem tcpServerSend_wp {text : Bytes} (hfd : 0 ≤ fd) (htext : text ≠ [])
    (ht : t → ¬ M.socketFails)
    (hmay : ∀ k, M.permits (w.log ++ List.replicate k (.said text)) (.said text))
    {Q : ℤ → World D → Prop} (hQ : ∀ r o, sends M w.out text r o → Q r (w.withOut o)) :
    Prog.wp t (surroundings env M) (tcpServerSend fd text) Q w := by
  have hlen : text.length ≠ 0 := by simpa using htext
  simp only [tcpServerSend, Prog.pure_eq]
  rw [if_neg (by omega)]
  refine Prog.wp_while (SendInv w text) text.length ⟨by simp, by simp, 0, by
    simp [World.withOut]⟩ fun n s w₁ hI => ?_
  exact Prog.wp_mono (fun x w' h => by cases x <;> exact h) (sendTurn_wp ht hmay hI hQ)

theorem gatewayOutputHandler_handles (hfd : 0 ≤ fd) (ht : t → ¬ M.socketFails)
    (hmay : ∀ text log, IsBatch D text → M.permits log (.said text)) :
    Handles t env M (gatewayOutputHandler fd) (sends M) := by
  intro text w Q htext hQ
  have hne : text ≠ [] := by
    obtain ⟨first, rows, hrows, rfl⟩ := htext
    exact batchText_ne_nil first hrows
  simp only [gatewayOutputHandler, Prog.bind_eq, Prog.pure_eq]
  rw [if_neg (by simpa using hne)]
  refine Prog.wp_bind (tcpServerSend_wp hfd hne ht (fun k => hmay text _ htext) ?_)
  intro r o hr
  have hrc : r = 0 ∨ r = -1 := by
    obtain ⟨n, k, -, ⟨-, h⟩ | ⟨-, h, -⟩⟩ := hr
    · exact .inl h
    · exact .inr h
  rcases hrc with rfl | rfl
  · rw [if_neg (by decide)]
    exact hQ _ _ hr
  · rw [if_pos (by decide)]
    exact hQ _ _ hr

/-! ### One chunk -/

/-- How a processed chunk is answered: with ERROR, with the reply left in the
output buffer, or not at all when there is none. -/
inductive Answered (M : Mode D) (r : ℤ) (reply : Bytes) (w₁ : World D) : World D → Prop
  | error {r' : ℤ} {o} (hr : r ≠ 0) (h : sends M w₁.out errorResponse r' o) :
      Answered M r reply w₁ (w₁.withOut o)
  | reply {r' : ℤ} {o} (hr : r = 0) (hne : reply ≠ []) (h : sends M w₁.out reply r' o) :
      Answered M r reply w₁ (w₁.withOut o)
  | silent (hr : r = 0) (hnil : reply = []) : Answered M r reply w₁ w₁

/-- The text a chunk is parsed as: its bytes up to the first NUL. -/
theorem chunkText_eq (data : Bytes) : cstr (data ++ [0]) 0 = fmtStr data := by
  rw [cstr, fmtStr, List.drop_zero]
  induction data with
  | nil => rfl
  | cons x data ih =>
    rw [List.cons_append, List.takeWhile_cons, List.takeWhile_cons, ih]

theorem clientHandler_data_wp {data : Bytes} (hdata : data ≠ []) (hlen : data.length ≤ 127)
    (hfd : 0 ≤ fd) (ht : t → ¬ M.socketFails)
    (hbatch : ∀ text log, IsBatch D text → M.permits log (.said text))
    (hinsert : ∀ d : SensorData D, accepted (fmtStr data) = some ⟨.sensorData, .sensor d⟩ →
      ∀ T, M.permits w.log (.inserted (env.row T (readingOf d))))
    (hsay : ∀ r reply w₁, Processed env M (sends M) (fmtStr data) w r reply w₁ → ∀ k,
      (r ≠ 0 → M.permits (w₁.log ++ List.replicate k (.said errorResponse)) (.said errorResponse)) ∧
      (r = 0 → M.permits (w₁.log ++ List.replicate k (.said reply)) (.said reply)))
    {Q : ℤ → World D → Prop}
    (hQ : ∀ rc r reply w₁ w₂, Processed env M (sends M) (fmtStr data) w r reply w₁ →
      Answered M r reply w₁ w₂ → Q rc w₂) :
    Prog.wp t (surroundings env M) (clientHandler (some (openGateway c)) fd .data data) Q w := by
  have hpos : data.length ≠ 0 := by simpa using hdata
  simp only [clientHandler, Prog.bind_eq, Prog.pure_eq]
  rw [if_neg (by simp), if_neg hpos, if_neg (by rw [BUFFER_SIZE]; omega), chunkText_eq]
  refine Prog.wp_seq (gatewayProcess_wp (zero_notMem_fmtStr data) le_rfl
    (gatewayOutputHandler_handles hfd ht hbatch) hinsert) ?_
  -- ERROR, the reply in the buffer, or nothing
  rintro ⟨r, out⟩ w₁ hproc
  by_cases hr : r = 0
  · subst hr
    rw [if_neg (by simp)]
    by_cases hout : cstr out 0 = []
    · rw [if_neg (not_not.mpr (cstr_eq_nil.mp hout)), Prog.wp_ret]
      exact hQ _ _ _ _ _ hproc (.silent rfl hout)
    · rw [if_pos fun h => hout (cstr_eq_nil.mpr h)]
      refine Prog.wp_bind (tcpServerSend_wp hfd hout ht (fun k => (hsay _ _ _ hproc k).2 rfl) ?_)
      intro r' o hsend
      split
      · exact hQ _ _ _ _ _ hproc (.reply rfl hout hsend)
      · exact hQ _ _ _ _ _ hproc (.reply rfl hout hsend)
  · rw [if_pos hr]
    refine Prog.wp_bind (tcpServerSend_wp hfd (by decide) ht
      (fun k => (hsay _ _ _ hproc k).1 hr) ?_)
    intro r' o hsend
    exact hQ _ _ _ _ _ hproc (.error hr hsend)

/-! ### The receive loop -/

theorem notify_wp {handler : TcpClientHandler D} {event : TcpClientEvent} {data : Bytes}
    {Q : Unit → World D → Prop}
    (h : Prog.wp t (surroundings env M) (handler fd event data) (fun _ w' => Q () w') w) :
    Prog.wp t (surroundings env M) (notify handler fd event data) Q w := by
  simp only [notify, Prog.bind_eq, Prog.pure_eq]
  refine Prog.wp_perform trivial ?_
  rintro _ w₁ ⟨rfl, hw₁⟩
  rw [if_pos rfl, hw₁]
  exact Prog.wp_bind h

/-- One turn of the receive loop: a chunk is handled, or the loop is left. -/
theorem clientTurn_wp {handler : TcpClientHandler D} {next done : World D → Prop}
    (hchunk : ∀ x cs, w.incoming = x :: cs → Prog.wp t (surroundings env M)
      (handler fd .data (x.take 127)) (fun _ w' => next w') (w.afterRecv 127 x cs))
    (hclosed : w.incoming = [] → Prog.wp t (surroundings env M) (handler fd .disconnected [])
      (fun _ w' => done w') w)
    (hfail : M.socketFails → next w ∧ done w) :
    Prog.wp t (surroundings env M) (clientTurn handler fd ())
      (Sum.elim (fun _ w' => next w') fun _ w' => done w') w := by
  simp only [clientTurn, Prog.bind_eq, Prog.pure_eq]
  refine Prog.wp_perform trivial ?_
  rintro _ w₁ ⟨rfl, hw₁⟩
  obtain rfl : w = w₁ := hw₁.symm
  rw [if_pos rfl]
  refine Prog.wp_perform trivial ?_
  rintro a w₁ (⟨hM, rfl | rfl, hw₁⟩ | hrecv)
  · rw [hw₁]
    exact (hfail hM).1
  · rw [hw₁]
    exact (hfail hM).2
  · rcases hin : w.incoming with _ | ⟨x, cs⟩
    · rw [hin] at hrecv
      obtain ⟨rfl, hw₁⟩ := hrecv
      rw [hw₁]
      exact Prog.wp_bind (notify_wp (hclosed hin))
    · rw [hin] at hrecv
      obtain ⟨rfl, hw₁⟩ := hrecv
      rw [hw₁]
      exact Prog.wp_bind (notify_wp (hchunk x cs hin))

end SensorGateway
