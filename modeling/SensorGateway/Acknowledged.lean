/-
Acknowledgement and store agree, whatever the clients do and whatever fails.

* `round` — the chunk a thread is at, and what it has noted down since;
* `Permitted` — what a thread may add to its log: an insert only as the first
  thing after a SENSOR command, OK only after one, ERROR only without one;
* `thread_permitted` — the thread of a client keeps to that;
* `acknowledged_stored` — so in every reachable configuration the table is the
  initial one with one row for each insert, and the replies tell which (`Accounted`).
-/
import SensorGateway.Clients

open CString Sqlite TcpParser Threads

namespace SensorGateway

variable {C : Type} [DecidableEq C] {D : Type} [Libc D] {env : Env D} {c : ℕ} {fd : ℤ}
  {w w₁ : World D}

/-! ### Rounds -/

/-- The last chunk in a log, and the entries after it. -/
def round (log : List (Entry D)) : Option Bytes × List (Entry D) :=
  log.foldl (fun r e =>
    match e with
    | .heard x => (some x, [])
    | e => (r.1, r.2 ++ [e])) (none, [])

omit [Libc D] in
@[simp] theorem round_heard (log : List (Entry D)) (x : Bytes) :
    round (log ++ [.heard x]) = (some x, []) := by
  rw [round, List.foldl_append]
  rfl

omit [Libc D] in
theorem round_concat (log : List (Entry D)) {e : Entry D} (h : ∀ x, e ≠ .heard x) :
    round (log ++ [e]) = ((round log).1, (round log).2 ++ [e]) := by
  rw [round, List.foldl_append]
  cases e with
  | heard x => exact absurd rfl (h x)
  | inserted row => rfl
  | said text => rfl

omit [Libc D] in
theorem round_unheard (log : List (Entry D)) {es : List (Entry D)} (h : ∀ x, Entry.heard x ∉ es) :
    round (log ++ es) = ((round log).1, (round log).2 ++ es) := by
  induction es using List.reverseRecOn with
  | nil => simp
  | append_singleton es e ih =>
    have he : ∀ x, e ≠ .heard x := fun x heq => h x (by simp [heq])
    rw [← List.append_assoc, round_concat _ he, ih fun x hx => h x (by simp [hx]),
      List.append_assoc]

omit [Libc D] in
theorem round_said (log : List (Entry D)) (texts : List Bytes) :
    round (log ++ texts.map .said) = ((round log).1, (round log).2 ++ texts.map .said) :=
  round_unheard log (by simp)

omit [Libc D] in
/-- A round reaches back to the last chunk. -/
theorem round_append (log mid : List (Entry D)) : (round (log ++ mid)).2 <:+ mid ∨
    (∀ x, Entry.heard x ∉ mid) ∧ (round (log ++ mid)).2 = (round log).2 ++ mid := by
  induction mid using List.reverseRecOn with
  | nil => exact .inr (by simp)
  | append_singleton mid e ih =>
    rw [← List.append_assoc]
    by_cases he : ∃ x, e = .heard x
    · obtain ⟨x, rfl⟩ := he
      rw [round_heard]
      exact .inl List.nil_suffix
    · rw [not_exists] at he
      rw [round_concat _ he]
      refine ih.imp (fun h => (List.suffix_append_inj_of_length_eq rfl).mpr ⟨h, rfl⟩) ?_
      rintro ⟨hnone, h⟩
      refine ⟨fun x hx => ?_, by rw [h, List.append_assoc]⟩
      rcases List.mem_append.mp hx with hx | hx
      · exact hnone x hx
      · exact he x (List.mem_singleton.mp hx).symm

omit [Libc D] in
theorem mem_of_mem_round {log : List (Entry D)} {e : Entry D} (h : e ∈ (round log).2) :
    e ∈ log := by
  rcases round_append [] log with hsuffix | ⟨-, heq⟩
  · exact hsuffix.subset h
  · rw [List.nil_append] at heq
    rw [heq] at h
    simpa [round] using h

/-- What a thread does with a chunk. -/
structure Round (chunk : Option Bytes) (es : List (Entry D)) : Prop where
  /-- A row is added for a SENSOR command only, with the values of the command,
  before anything is said, and once. -/
  stored : ∀ row, Entry.inserted row ∈ es → ∃ x d, ∃ texts : List Bytes, chunk = some x ∧
    accepted (fmtStr x) = some (⟨.sensorData, .sensor d⟩ : TcpCommand D) ∧
    row.reading = readingOf d ∧ es = Entry.inserted row :: texts.map .said
  /-- OK is said after a row has been added. -/
  ok : Entry.said (bytes "OK\n") ∈ es → ∃ row, ∃ texts : List Bytes,
    es = Entry.inserted row :: texts.map .said
  /-- ERROR is said when no row is added. -/
  error : Entry.said errorResponse ∈ es → ∀ row, Entry.inserted row ∉ es

/-- What a thread may add to its log. -/
def Permitted (log : List (Entry D)) : Entry D → Prop
  | .heard _ => True
  | .inserted row => ∃ x d, round log = (some x, []) ∧
    accepted (fmtStr x) = some (⟨.sensorData, .sensor d⟩ : TcpCommand D) ∧
    row.reading = readingOf d
  | .said text => (text = bytes "OK\n" → ∃ row, Entry.inserted row ∈ (round log).2) ∧
    (text = errorResponse → ∀ row, Entry.inserted row ∉ (round log).2)

theorem Round.nil (chunk : Option Bytes) : Round (D := D) chunk [] :=
  ⟨by simp, by simp, by simp⟩

/-- A permitted entry continues the round. -/
theorem Round.concat {log : List (Entry D)} (h : Round (round log).1 (round log).2) {e : Entry D}
    (he : Permitted log e) : Round (round (log ++ [e])).1 (round (log ++ [e])).2 := by
  cases e with
  | heard x =>
    rw [round_heard]
    exact .nil _
  | inserted row =>
    obtain ⟨x, d, hround, hcmd, hread⟩ := he
    rw [round_concat _ (by simp), hround]
    refine ⟨?_, by simp, by simp⟩
    intro row' hrow'
    obtain rfl : row' = row := by simpa using hrow'
    exact ⟨x, d, [], rfl, hcmd, hread, rfl⟩
  | said text =>
    obtain ⟨hok, herror⟩ := he
    rw [round_concat _ (by simp)]
    have hins : ∀ row, Entry.inserted row ∈ (round log).2 ++ [.said text] →
        Entry.inserted row ∈ (round log).2 := by
      intro row hrow
      simpa using hrow
    refine ⟨fun row hrow => ?_, fun hsaid => ?_, fun hsaid row hrow => ?_⟩
    · obtain ⟨x, d, texts, hx, hcmd, hread, hes⟩ := h.stored row (hins row hrow)
      refine ⟨x, d, texts ++ [text], hx, hcmd, hread, ?_⟩
      rw [hes]
      simp
    · -- said before, or now
      have hrow : ∃ row, ∃ texts : List Bytes,
          (round log).2 = Entry.inserted row :: texts.map .said := by
        rcases List.mem_append.mp hsaid with hsaid | hsaid
        · exact h.ok hsaid
        · obtain ⟨row, hrow⟩ := hok (by simpa [eq_comm] using hsaid)
          obtain ⟨x, d, texts, -, -, -, hes⟩ := h.stored row hrow
          exact ⟨row, texts, hes⟩
      obtain ⟨row, texts, hes⟩ := hrow
      refine ⟨row, texts ++ [text], ?_⟩
      rw [hes]
      simp
    · rcases List.mem_append.mp hsaid with hsaid | hsaid
      · exact h.error hsaid row (hins row hrow)
      · exact herror (by simpa [eq_comm] using hsaid) row (hins row hrow)

/-! ### What a chunk adds to the log -/

omit [Libc D] in
theorem sends_log {M : Mode D} {o o' : Out D} {text : Bytes} {r : ℤ} (h : sends M o text r o') :
    ∃ texts : List Bytes, o'.log = o.log ++ texts.map .said := by
  obtain ⟨n, k, rfl, -⟩ := h
  exact ⟨List.replicate k text, by rw [List.map_replicate]⟩

omit [Libc D] in
theorem wrote_log {M : Mode D} {o o' : Out D} {texts : List Bytes}
    (h : Wrote (sends M) o texts o') : ∃ said : List Bytes, o'.log = o.log ++ said.map .said := by
  induction h with
  | nil => exact ⟨[], by simp⟩
  | concat _ ht ih =>
    obtain ⟨said, hlog⟩ := ih
    obtain ⟨more, hmore⟩ := sends_log ht
    exact ⟨said ++ more, by rw [hmore, hlog, List.map_append, List.append_assoc]⟩

/-- A QUERY adds no row. -/
theorem QueryOutcome.log {M : Mode D} {s e r : ℤ} (h : QueryOutcome M (sends M) s e w r w₁) :
    ∃ texts : List Bytes, w₁.log = w.log ++ texts.map .said := by
  cases h with
  | complete h _ _ _ _ => exact wrote_log h.wrote
  | batch h _ _ _ => exact wrote_log h.wrote
  | handler h _ _ _ _ hrec _ =>
    obtain ⟨texts, hlog⟩ := wrote_log h.wrote
    obtain ⟨more, hmore⟩ := sends_log hrec
    refine ⟨texts ++ more, ?_⟩
    rw [List.map_append, ← List.append_assoc, ← show _ = w.log ++ texts.map Entry.said from hlog]
    exact hmore

theorem helpText_head (lo hi : ℤ) : ∃ rest, helpText lo hi = 84 :: rest := ⟨_, rfl⟩

/-- A chunk adds a row and is answered with OK, or adds none and is not. -/
theorem Processed.log {M : Mode D} {input reply : Bytes} {r : ℤ}
    (h : Processed env M (sends M) input w r reply w₁) :
    r = 0 ∧ reply = bytes "OK\n" ∧ (∃ row, w₁.log = w.log ++ [.inserted row]) ∨
      reply ≠ bytes "OK\n" ∧ ∃ texts : List Bytes, w₁.log = w.log ++ texts.map .said := by
  have hnil : ([] : Bytes) ≠ bytes "OK\n" := by decide
  cases h with
  | rejected _ => exact .inr ⟨hnil, [], by simp⟩
  | stored _ _ hw => exact .inl ⟨rfl, rfl, _, hw.log⟩
  | lost _ _ _ hw => exact .inr ⟨hnil, [], by simp [hw.log]⟩
  | queried _ ho _ => exact .inr ⟨hnil, ho.log⟩
  | helped _ _ hw =>
    refine .inr ⟨fun heq => ?_, [], by simp [hw.log]⟩
    obtain ⟨rest, hrest⟩ := helpText_head (minShown _) (maxShown _)
    rw [hrest] at heq
    exact absurd (List.cons.inj heq).1 (by decide)
  | helpless _ _ _ hw => exact .inr ⟨hnil, [], by simp [hw.log]⟩

/-- A line starts with the digits of its id. -/
theorem renderRow_head (x : Row D) : ∃ b more, renderRow x = b :: more ∧ b ≠ 79 ∧ b ≠ 69 := by
  rw [renderRow, rowLine]
  simp only [List.append_assoc]
  rcases hid : fmtInt _ with _ | ⟨b, digits⟩
  · exact ⟨32, _, rfl, by decide, by decide⟩
  · have hnum : b ∈ numeric := fmtInt_numeric _ b (by rw [hid]; simp)
    refine ⟨b, _, rfl, ?_, ?_⟩
    · rintro rfl
      exact absurd hnum (by decide)
    · rintro rfl
      exact absurd hnum (by decide)

/-- A batch is neither OK nor ERROR. -/
theorem IsBatch.ne {text : Bytes} (h : IsBatch D text) :
    text ≠ bytes "OK\n" ∧ text ≠ errorResponse := by
  obtain ⟨first, rows, hrows, rfl⟩ := h
  obtain ⟨row, rest, rfl⟩ := List.exists_cons_of_ne_nil hrows
  have hhead : ∃ b more, batchText first (row :: rest) = b :: more ∧ b ≠ 79 ∧ b ≠ 69 := by
    cases first with
    | true => exact ⟨105, _, rfl, by decide, by decide⟩
    | false =>
      obtain ⟨b, more, hb, hne⟩ := renderRow_head row
      refine ⟨b, more ++ renderRows rest, ?_, hne⟩
      rw [batchText, renderRows, List.flatMap_cons, hb]
      rfl
  obtain ⟨b, more, hb, h79, h69⟩ := hhead
  rw [hb]
  exact ⟨fun h => h79 (List.cons.inj h).1, fun h => h69 (List.cons.inj h).1⟩

/-! ### The thread of a client -/

abbrev Busy (env : Env D) : Prog.OpSpec (SysOp D) SysAns (World D) :=
  surroundings env (busyMode (fun _ => True) Permitted)

theorem clientHandler_permitted {data : Bytes} (hlen : data.length ≤ 127) (hfd : 0 ≤ fd)
    (hround : round w.log = (some data, [])) :
    Prog.wp False (Busy env) (clientHandler (some (openGateway c)) fd .data data)
      (fun _ _ => True) w := by
  by_cases hdata : data = []
  · rw [hdata]
    trivial
  refine clientHandler_data_wp hdata hlen hfd False.elim (fun text log htext => ?_)
    (fun d hcmd T => ?_) (fun r reply w₁ hproc k => ?_) fun _ _ _ _ _ _ _ => trivial
  · exact ⟨fun h => absurd h htext.ne.1, fun h => absurd h htext.ne.2⟩
  · exact ⟨data, d, hround, hcmd, rfl⟩
  · rcases hproc.log with ⟨rfl, rfl, row, hlog⟩ | ⟨hreply, texts, hlog⟩
    · refine ⟨fun h => absurd rfl h, fun _ => ⟨fun _ => ⟨row, ?_⟩, fun h => absurd h (by decide)⟩⟩
      rw [← List.map_replicate, round_said, hlog, round_concat _ (by simp)]
      simp
    · have hnone : ∀ (more : List Bytes) row,
          Entry.inserted row ∉ (round (w₁.log ++ more.map .said)).2 := by
        intro more row
        rw [round_said, hlog, round_said, hround]
        simp
      rw [← List.map_replicate, ← List.map_replicate]
      exact ⟨fun _ => ⟨fun h => absurd h (by decide), fun _ => hnone _⟩,
        fun _ => ⟨fun h => absurd h hreply, fun _ => hnone _⟩⟩

theorem thread_permitted (hfd : 0 ≤ fd) (w : World D) :
    Prog.wp False (Busy env) (tcpClientThread (clientHandler (some (openGateway c))) fd)
      (fun _ _ => True) w := by
  have hconnect : Prog.wp False (Busy env)
      (notify (clientHandler (some (openGateway c))) fd .connected []) (fun _ _ => True) w := by
    refine notify_wp ?_
    simp only [clientHandler, Prog.bind_eq, Prog.pure_eq]
    rw [if_neg (by simp)]
    refine Prog.wp_bind (tcpServerSend_wp hfd (by decide) False.elim (fun _ => ?_) fun r o _ => ?_)
    · exact ⟨fun h => absurd h (by decide), fun h => absurd h (by decide)⟩
    · split <;> trivial
  have hturn : ∀ w : World D, Prog.wp False (Busy env)
      (clientTurn (clientHandler (some (openGateway c))) fd ())
      (Sum.elim (fun _ _ => True) fun _ _ => True) w := by
    intro w
    refine clientTurn_wp (fun x cs _ => ?_) (fun _ => trivial) fun _ => ⟨trivial, trivial⟩
    exact clientHandler_permitted (by simp) hfd (round_heard _ _)
  refine Prog.wp_seq hconnect fun _ w₁ _ => ?_
  refine Prog.wp_iter (fun _ _ => True) trivial fun _ w₂ _ => Prog.wp_mono ?_ (hturn w₂)
  rintro (_ | _) w₃ _
  · trivial
  · exact ⟨trivial, fun _ _ _ => trivial⟩

/-! ### Whole runs -/

/-- The row of an entry. -/
def Entry.row? : Entry D → Option (Row D)
  | .inserted row => some row
  | _ => none

/-- What a run from the table `T₀` has stored and answered. -/
structure Accounted (T₀ : Table D) (s : Shared C D) : Prop where
  /-- The table is the initial one with a row for each insert, in their order. -/
  rows : s.table.rows = T₀.rows ++ s.log.filterMap fun e => e.2.row?
  ids : s.table.rows.Pairwise fun x y => x.id < y.id
  /-- Every chunk of every client has been treated as `Round` says, at all times. -/
  rounds : ∀ t log, log <+: own t s.log → Round (round log).1 (round log).2
  /-- Of two chunks of a client that are answered with OK, the earlier one has
  the row with the smaller id. -/
  order : ∀ t pre x mid post,
    own t s.log = pre ++ .said (bytes "OK\n") :: mid ++ .said (bytes "OK\n") :: post →
    Entry.heard x ∈ mid → ∃ row row', Entry.inserted row ∈ (round pre).2 ∧
      Entry.inserted row' ∈ (round (pre ++ .said (bytes "OK\n") :: mid)).2 ∧ row.id < row'.id

/-- The invariant that the steps keep. -/
structure Consistent (T₀ : Table D) (s : Shared C D) : Prop where
  rows : s.table.rows = T₀.rows ++ s.log.filterMap fun e => e.2.row?
  rounds : ∀ t log, log <+: own t s.log → Round (round log).1 (round log).2

theorem Consistent.entry {T₀ : Table D} {t : C} {s : Shared C D} (h : Consistent T₀ s)
    {e : Entry D} (he : Permitted (own t s.log) e) {T : Table D}
    (hT : T.rows = s.table.rows ++ e.row?.toList) : Consistent T₀ ⟨T, s.log ++ [(t, e)]⟩ where
  rows := by
    rw [hT, h.rows, List.filterMap_append, List.append_assoc]
    cases e <;> rfl
  rounds := by
    intro t' log hlog
    have hself : own t [(t, e)] = [e] := own_map_self t [e]
    rw [own_append] at hlog
    by_cases ht : t' = t
    · subst ht
      rw [hself, List.prefix_concat_iff] at hlog
      rcases hlog with rfl | hlog
      · exact (h.rounds t' _ List.prefix_rfl).concat he
      · exact h.rounds t' log hlog
    · have hnone : own t' [(t, e)] = [] := own_map_ne ht [e]
      rw [hnone, List.append_nil] at hlog
      exact h.rounds t' log hlog

theorem Consistent.effect {T₀ : Table D} {t : C} {s : Shared C D} (h : Consistent T₀ s)
    {es : List (Entry D)} {T : Table D} (heff : Effect env Permitted (own t s.log) s.table es T) :
    Consistent T₀ ⟨T, s.log ++ es.map (Prod.mk t)⟩ := by
  cases heff with
  | nothing =>
    rw [List.map_nil, List.append_nil]
    exact h
  | heard x => exact h.entry (e := .heard x) trivial (List.append_nil _).symm
  | inserted x hx => exact h.entry hx rfl
  | said data hsaid => exact h.entry hsaid (List.append_nil _).symm

omit [Libc D] in
theorem own_rows_sublist (t : C) (log : List (C × Entry D)) :
    ((own t log).filterMap Entry.row?).Sublist (log.filterMap fun e => e.2.row?) := by
  rw [own, List.filterMap_map]
  exact List.filter_sublist.filterMap _

theorem Consistent.order {T₀ : Table D} {s : Shared C D} (h : Consistent T₀ s) {t : C}
    {pre mid post : List (Entry D)} {x : Bytes}
    (hlog : own t s.log = pre ++ .said (bytes "OK\n") :: mid ++ .said (bytes "OK\n") :: post)
    (hx : Entry.heard x ∈ mid) : ∃ row row', Entry.inserted row ∈ (round pre).2 ∧
      Entry.inserted row' ∈ (round (pre ++ .said (bytes "OK\n") :: mid)).2 ∧ row.id < row'.id := by
  -- each OK has an insert in its round
  have hins : ∀ before after, own t s.log = before ++ .said (bytes "OK\n") :: after →
      ∃ row, Entry.inserted row ∈ (round before).2 := by
    intro before after heq
    have hround := h.rounds t (before ++ [.said (bytes "OK\n")]) ⟨after, by simp [heq]⟩
    have hconcat := round_concat before (e := .said (bytes "OK\n")) (by simp)
    rw [hconcat] at hround
    obtain ⟨row, texts, hes⟩ := hround.ok (by simp)
    have hrow : Entry.inserted row ∈ (round before).2 ++ [.said (bytes "OK\n")] := by
      show _ ∈ ((round before).1, (round before).2 ++ [.said (bytes "OK\n")]).2
      rw [hes]
      simp
    exact ⟨row, by simpa using hrow⟩
  obtain ⟨row, hrow⟩ := hins pre (mid ++ .said (bytes "OK\n") :: post) (by simp [hlog])
  obtain ⟨row', hrow'⟩ := hins (pre ++ .said (bytes "OK\n") :: mid) post hlog
  refine ⟨row, row', hrow, hrow', ?_⟩
  have hpre : Entry.inserted row ∈ pre := mem_of_mem_round hrow
  have hmid : Entry.inserted row' ∈ mid := by
    rcases round_append pre (.said (bytes "OK\n") :: mid) with hsuffix | ⟨hnone, -⟩
    · simpa using hsuffix.subset hrow'
    · exact absurd (List.mem_cons_of_mem _ hx) (hnone x)
  have hsorted : ((own t s.log).filterMap Entry.row?).Pairwise fun x y => x.id < y.id := by
    have hnew := s.table.sorted
    rw [h.rows, List.pairwise_append] at hnew
    exact hnew.2.1.sublist (own_rows_sublist t s.log)
  rw [hlog, List.append_assoc, List.filterMap_append, List.pairwise_append] at hsorted
  exact hsorted.2.2 row (List.mem_filterMap.mpr ⟨.inserted row, hpre, rfl⟩) row'
    (List.mem_filterMap.mpr ⟨.inserted row', by simp [hmid], rfl⟩)

theorem acknowledged_stored (env : Env D) (c : ℕ) {fd : C → ℤ} (hfd : ∀ t, 0 ≤ fd t)
    (incoming : C → List Bytes) (T₀ : Table D)
    {cfg : Config C (SysOp D) SysAns (Local D) (Shared C D) Unit}
    (hr : Reachable (together env) threadsOnly (serverStart c fd incoming T₀) cfg) :
    Accounted T₀ cfg.shared := by
  have hstart : Consistent T₀ (serverStart c fd incoming T₀).shared := by
    refine ⟨(List.append_nil _).symm, fun t log hlog => ?_⟩
    obtain rfl : log = [] := List.prefix_nil.mp hlog
    exact .nil _
  have h : Consistent T₀ cfg.shared := together_keeps (fun t s es T hs heff => hs.effect heff) hr
    hstart fun t => thread_permitted (hfd t) _
  exact ⟨h.rows, cfg.shared.table.sorted, h.rounds, fun t pre x mid post hlog hx =>
    h.order hlog hx⟩

/-- Two clients whose threads take turns, for 32 steps each. -/
def twoClients : Config Bool (SysOp Binary64) SysAns (Local Binary64) (Shared Bool Binary64) Unit :=
  schedule (quietly Env.counting) ((List.replicate 32 [true, false]).flatten)
    (serverStart 0 (fun t => if t then 4 else 5)
      (fun t => [bytes (if t then "SENSOR,a,1,2,3,4" else "SENSOR,b,5,6,7,8")]) ∅)

theorem acknowledged_stored_two :
    twoClients.shared.table.rows.map Row.device_id = [bytes "a", bytes "b"] ∧
      Accounted ∅ twoClients.shared := by
  have hok : allowed (quietly Env.counting) mayIssue ((List.replicate 32 [true, false]).flatten)
      (serverStart 0 (fun t => if t then 4 else 5)
        (fun t => [bytes (if t then "SENSOR,a,1,2,3,4" else "SENSOR,b,5,6,7,8")])
        (∅ : Table Binary64)) := by decide +kernel
  exact ⟨by decide +kernel, acknowledged_stored Env.counting 0 (by decide) _ _
    (schedule_reachable quietly_together hok)⟩

end SensorGateway
