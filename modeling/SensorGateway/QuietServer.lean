/-
A client that is alone with the server.

`respond` says what one received chunk does to the table and what is sent back:
the chunk is taken as one whole command.  `thread_quiet` says that the thread of
a client, when no call fails, is the iteration of `respond` over the chunks that
`recv` returns.
-/
import SensorGateway.QuietGateway
import SensorGateway.ServerSpec

open CString Sqlite TcpParser

namespace SensorGateway

variable {D : Type} [Libc D] {env : Env D} {accept : ℕ → ℕ} {c : ℕ} {fd : ℤ} {w w₁ w₂ : World D}

/-- The table after a chunk, and the bytes sent for it. -/
def respond (env : Env D) (T : Table D) (chunk : Bytes) : Table D × Bytes :=
  match (accepted (fmtStr chunk) : Option (TcpCommand D)) with
  | some ⟨.sensorData, .sensor d⟩ => (T.insert env (readingOf d), bytes "OK\n")
  | some ⟨.query, .query ⟨s, e⟩⟩ =>
    (T, (deliverable (T.range s e)).flatten
      ++ if reportCode (T.range s e) = 0 then [] else errorResponse)
  | some ⟨.help, _⟩ => (T, helpText (minShown T) (maxShown T))
  | _ => (T, errorResponse)

/-- The same for the chunks of a client, one after another. -/
def respondAll (env : Env D) : Table D → List Bytes → Table D × Bytes
  | T, [] => (T, [])
  | T, x :: xs =>
    let rest := respondAll env (respond env T x).1 xs
    (rest.1, (respond env T x).2 ++ rest.2)

/-! ### One chunk -/

omit [Libc D] in
theorem sends_quiet {o o' : Out D} {text : Bytes} {r : ℤ} (h : sends quietMode o text r o') :
    r = 0 ∧ o'.sent = o.sent ++ text := by
  obtain ⟨hr, hsent, -⟩ := sends_all (fun hM => hM) h
  exact ⟨hr, hsent⟩

omit [Libc D] in
theorem wrote_quiet {o o' : Out D} {texts : List Bytes} (h : Wrote (sends quietMode) o texts o') :
    o'.sent = o.sent ++ texts.flatten :=
  wrote_all (fun hM => hM) h

/-- What a thread has sent, and the rest of what it sees. -/
structure Replied (T : Table D) (reply : Bytes) (w w₁ : World D) : Prop where
  table : w₁.table = T
  sent : w₁.sent = w.sent ++ reply
  stmts : w₁.stmts = w.stmts
  incoming : w₁.incoming = w.incoming

omit [Libc D] in
theorem Frame.replied {T : Table D} {Rs : List (Table D)} {f : Bool} {x : Option (Row D)}
    (hw : Frame quietMode (w.noting x) T Rs f w.stmts w₁) : Replied T [] w w₁ :=
  ⟨(show T = w₁.table from hw.table.1).symm, by rw [hw.sent, List.append_nil]; rfl, hw.stmts,
    hw.incoming⟩

omit [Libc D] in
theorem Replied.concat {T : Table D} {reply reply' : Bytes} (h : Replied T reply w w₁)
    (h' : Replied w₁.table reply' w₁ w₂) : Replied T (reply ++ reply') w w₂ :=
  ⟨h'.table.trans h.table, by rw [h'.sent, h.sent, List.append_assoc], h'.stmts.trans h.stmts,
    h'.incoming.trans h.incoming⟩

omit [Libc D] in
theorem answered_quiet {r : ℤ} {reply : Bytes} (h : Answered quietMode r reply w₁ w₂) :
    Replied w₁.table (if r = 0 then reply else errorResponse) w₁ w₂ := by
  cases h with
  | error hr h =>
    rw [if_neg hr]
    exact ⟨rfl, (sends_quiet h).2, rfl, rfl⟩
  | reply hr _ h =>
    rw [if_pos hr]
    exact ⟨rfl, (sends_quiet h).2, rfl, rfl⟩
  | silent hr hnil =>
    rw [if_pos hr, hnil]
    exact ⟨rfl, by simp, rfl, rfl⟩

/-- What gateway_process has done for a chunk, with the answer it leaves to be
sent, is the response. -/
theorem processed_replied {data reply : Bytes} {r : ℤ}
    (h : Processed env quietMode (sends quietMode) (fmtStr data) w r reply w₁) :
    ∃ text, Replied (respond env w.table data).1 text w w₁ ∧
      (respond env w.table data).2 = text ++ if r = 0 then reply else errorResponse := by
  cases h with
  | rejected h =>
    rw [respond, h]
    exact ⟨[], ⟨rfl, by simp, rfl, rfl⟩, rfl⟩
  | stored h hT hw =>
    obtain rfl : w.table = _ := hT
    rw [respond, h]
    exact ⟨[], hw.replied, rfl⟩
  | lost _ hM _ _ => exact hM.elim
  | @queried s e r w₁ h ho hu =>
    rw [respond, h]
    obtain ⟨rfl, hwrote⟩ := ho.quiet fun o text r o' h => (sends_quiet h).1
    exact ⟨_, ⟨(show w.table = w₁.table from hu.table).symm, wrote_quiet hwrote, hu.stmts,
      hu.incoming⟩, rfl⟩
  | helped h hT hw =>
    obtain rfl : w.table = _ := hT
    rw [respond, h]
    exact ⟨[], Frame.replied (x := none) (by simpa using hw), rfl⟩
  | helpless _ hM _ _ => exact hM.elim

/-- A chunk that has been processed and answered has been responded to. -/
theorem processed_quiet {data reply : Bytes} {r : ℤ}
    (h : Processed env quietMode (sends quietMode) (fmtStr data) w r reply w₁)
    (ha : Answered quietMode r reply w₁ w₂) :
    Replied (respond env w.table data).1 (respond env w.table data).2 w w₂ := by
  obtain ⟨text, hrep, hreply⟩ := processed_replied h
  rw [hreply]
  exact hrep.concat (answered_quiet ha)

theorem clientHandler_quiet {data : Bytes} (hdata : data ≠ []) (hlen : data.length ≤ 127)
    (hfd : 0 ≤ fd) (w : World D) :
    Prog.wp True (surroundings env quietMode)
      (clientHandler (some (openGateway c)) fd .data data)
      (fun _ w₁ => Replied (respond env w.table data).1 (respond env w.table data).2 w w₁) w :=
  clientHandler_data_wp hdata hlen hfd (fun _ h => h) (fun _ _ _ => trivial) (fun _ _ _ => trivial)
    (fun _ _ _ _ _ => ⟨fun _ => trivial, fun _ => trivial⟩)
    fun _ _ _ _ _ hproc hans => processed_quiet hproc hans

/-! ### All chunks -/

/-- The chunks that `recv` returns, 127 bytes at most at a time, for the segments
a client has sent. -/
inductive Received : List Bytes → List Bytes → Prop
  | nil : Received [] []
  | whole {x : Bytes} {segments chunks} (hx : x ≠ []) (hle : x.length ≤ 127)
      (h : Received segments chunks) : Received (x :: segments) (x :: chunks)
  | part {x : Bytes} {segments chunks} (hlt : 127 < x.length)
      (h : Received (x.drop 127 :: segments) chunks) :
      Received (x :: segments) (x.take 127 :: chunks)

theorem Received.refl {chunks : List Bytes} (h : ∀ x ∈ chunks, x ≠ [] ∧ x.length ≤ 127) :
    Received chunks chunks := by
  induction chunks with
  | nil => exact .nil
  | cons x chunks ih =>
    obtain ⟨hx, hle⟩ := h x (by simp)
    exact .whole hx hle (ih fun y hy => h y (by simp [hy]))

/-- The turn that handles the next chunk. -/
theorem clientTurn_quiet (env : Env D) (accept : ℕ → ℕ) (c : ℕ) {x : Bytes} {cs : List Bytes}
    (hfd : 0 ≤ fd) (hin : w.incoming = x :: cs) (hx : x ≠ []) : ∃ w₁, Prog.Evals (quiet env accept)
      (clientTurn (clientHandler (some (openGateway c))) fd ()) w (.inl ()) w₁ ∧
      Replied (respond env w.table (x.take 127)).1 (respond env w.table (x.take 127)).2
        (w.afterRecv 127 x cs) w₁ := by
  have hne : x.take 127 ≠ [] := by simpa using hx
  have hlen : (x.take 127).length ≤ 127 := by simp
  have hwp : Prog.wp True (surroundings env quietMode)
      (clientTurn (clientHandler (some (openGateway c))) fd () : Sys D (Unit ⊕ Unit))
      (Sum.elim (fun _ w₁ => Replied (respond env w.table (x.take 127)).1
        (respond env w.table (x.take 127)).2 (w.afterRecv 127 x cs) w₁) fun _ _ => False) w := by
    refine clientTurn_wp (fun y cs' hin' => ?_) (fun hin' => ?_) fun hM => hM.elim
    · rw [hin] at hin'
      obtain ⟨rfl, rfl⟩ := List.cons.inj hin'
      exact clientHandler_quiet hne hlen hfd (w.afterRecv 127 x cs)
    · rw [hin] at hin'
      cases hin'
  obtain ⟨a, w₁, hrun, hpost⟩ := quiet_evals accept hwp
  cases a with
  | inl => exact ⟨w₁, hrun, hpost⟩
  | inr => exact hpost.elim

/-- The turn that finds the connection closed. -/
theorem clientTurn_closed (env : Env D) (accept : ℕ → ℕ) (c : ℕ) (hin : w.incoming = []) :
    Prog.Evals (quiet env accept) (clientTurn (clientHandler (some (openGateway c))) fd ()) w
      (.inr ()) w := by
  have hwp : Prog.wp True (surroundings env quietMode)
      (clientTurn (clientHandler (some (openGateway c))) fd () : Sys D (Unit ⊕ Unit))
      (Sum.elim (fun _ _ => False) fun _ w₁ => w₁ = w) w := by
    refine clientTurn_wp (fun x cs hin' => ?_) (fun _ => ?_) fun hM => hM.elim
    · rw [hin] at hin'
      cases hin'
    · rfl
  obtain ⟨a, w₁, hrun, hpost⟩ := quiet_evals accept hwp
  cases a with
  | inl => exact hpost.elim
  | inr =>
    obtain rfl : w₁ = w := hpost
    exact hrun

theorem loop_quiet (env : Env D) (accept : ℕ → ℕ) (c : ℕ) {segments chunks : List Bytes}
    (hfd : 0 ≤ fd) (h : Received segments chunks) (w : World D) (hin : w.incoming = segments) :
    ∃ w₁, Prog.Evals (quiet env accept)
      (Prog.loop (clientTurn (clientHandler (some (openGateway c))) fd) ()) w () w₁ ∧
      w₁.table = (respondAll env w.table chunks).1 ∧
      w₁.sent = w.sent ++ (respondAll env w.table chunks).2 := by
  induction h generalizing w with
  | nil =>
    exact ⟨w, .iter_done (clientTurn_closed env accept c hin) (.ret _ _), rfl, by
      simp [respondAll]⟩
  | @whole x segments chunks hx hle _ ih =>
    obtain ⟨w₁, hturn, hrep⟩ := clientTurn_quiet env accept c hfd hin hx
    rw [List.take_of_length_le hle] at hrep
    have hin₁ : w₁.incoming = segments := by
      rw [hrep.incoming, World.afterRecv, if_pos hle]
    obtain ⟨w₂, hloop, htable, hsent⟩ := ih w₁ hin₁
    refine ⟨w₂, .iter_next hturn hloop, ?_, ?_⟩
    · rw [htable, hrep.table]
      rfl
    · rw [hsent, hrep.sent, hrep.table, List.append_assoc]
      rfl
  | @part x segments chunks hlt _ ih =>
    have hx : x ≠ [] := by
      rintro rfl
      simp at hlt
    -- recv returns 127 bytes and leaves the others
    obtain ⟨w₁, hturn, hrep⟩ := clientTurn_quiet env accept c hfd hin hx
    have hin₁ : w₁.incoming = x.drop 127 :: segments := by
      rw [hrep.incoming, World.afterRecv, if_neg (by omega)]
    obtain ⟨w₂, hloop, htable, hsent⟩ := ih w₁ hin₁
    refine ⟨w₂, .iter_next hturn hloop, ?_, ?_⟩
    · rw [htable, hrep.table]
      rfl
    · rw [hsent, hrep.sent, hrep.table, List.append_assoc]
      rfl

/-- The thread of a client that sends `segments` and closes. -/
theorem thread_quiet (env : Env D) (accept : ℕ → ℕ) (c : ℕ) {segments chunks : List Bytes}
    (hfd : 0 ≤ fd) (h : Received segments chunks) (T : Table D) :
    ∃ w₁, Prog.Evals (quiet env accept)
      (tcpClientThread (clientHandler (some (openGateway c))) fd) (.fresh T segments) () w₁ ∧
      w₁.table = (respondAll env T chunks).1 ∧
      w₁.sent = welcome ++ (respondAll env T chunks).2 := by
  have hconnect : Prog.wp True (surroundings env quietMode)
      (notify (clientHandler (some (openGateway c))) fd .connected [])
      (fun _ w₁ => Replied T welcome (.fresh T segments) w₁) (.fresh T segments) := by
    refine notify_wp ?_
    simp only [clientHandler, Prog.bind_eq, Prog.pure_eq]
    rw [if_neg (by simp)]
    refine Prog.wp_bind (tcpServerSend_wp hfd (by decide) (fun _ h => h) (fun _ => trivial) ?_)
    intro r o hsend
    have hrep : Replied T welcome (.fresh T segments) ((World.fresh T segments).withOut o) :=
      ⟨rfl, (sends_quiet hsend).2, rfl, rfl⟩
    split
    · exact hrep
    · exact hrep
  obtain ⟨⟨⟩, w₁, hrun₁, hrep⟩ := quiet_evals accept hconnect
  obtain ⟨w₂, hrun₂, htable, hsent⟩ := loop_quiet env accept c hfd h w₁ hrep.incoming
  rw [hrep.table] at htable hsent
  rw [hrep.sent] at hsent
  exact ⟨w₂, .bind hrun₁ (.bind hrun₂ (.call (.ret _ _))), htable, hsent⟩

end SensorGateway
