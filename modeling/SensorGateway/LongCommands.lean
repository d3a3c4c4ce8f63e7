/-
Commands longer than a chunk.

The parser takes inputs of up to 255 bytes, but `recv` returns 127 at most, so a
longer command reaches the gateway in pieces and the handler's own test for data
that is too large is never met.

* `takenWhole_iff` — a long command is taken as a whole, or refused as a whole,
  exactly when no piece of it is a command that shows an effect;
* `long_number_cut` — a SENSOR command of 128 bytes of which 127 are executed.
-/
import SensorGateway.Segmentation

open CString Sqlite TcpParser

namespace SensorGateway

variable {D : Type} [Libc D] {M : Mode D} {env : Env D} {accept : ℕ → ℕ} {c : ℕ} {fd : ℤ}
  {T : Table D} {s : Bytes}

/-- A command longer than a chunk is handled as the length limits promise: its
first piece is not executed, and the client that sends it sees either what one
call of gateway_process on all of it answers, or nothing but ERROR. -/
structure TakenWhole (env : Env D) (accept : ℕ → ℕ) (c : ℕ) (fd : ℤ) (T : Table D) (s : Bytes) :
    Prop where
  first : ∃ rc w₁, Prog.Evals (quiet env accept)
    (clientHandler (some (openGateway c)) fd .data (s.take 127)) (.fresh T []) rc w₁ ∧
    w₁.table = T ∧ w₁.reads = []
  outcome : ∃ w₁, Serves env accept c fd T [s] w₁ ∧
    ((∃ r out w₂, Prog.Evals (quiet env accept)
        (gatewayProcess (some (openGateway c)) s (List.replicate OUTPUT_BUFFER_SIZE 0)
          OUTPUT_BUFFER_SIZE (some (gatewayOutputHandler fd))) (.fresh T []) (r, out) w₂ ∧
        w₁.table = w₂.table ∧
        w₁.sent = welcome ++ (w₂.sent ++ if r = 0 then cstr out 0 else errorResponse)) ∨
      w₁.table = T ∧ ∃ n, w₁.sent = welcome ++ (List.replicate n errorResponse).flatten)

/-- A QUERY that delivers no batch: no row is in its range, or the first batch
does not fit. -/
def SilentQuery (T : Table D) (x : Bytes) : Prop :=
  ∃ a b : ℤ, accepted x = some (⟨.query, .query ⟨a, b⟩⟩ : TcpCommand D) ∧
    deliverable (T.range a b) = []

/-! ### Pieces -/

theorem accepted_singleton (b : UInt8) :
    (accepted (fmtStr [b]) : Option (TcpCommand D)) = none := by
  by_cases h0 : b = 0
  · rw [h0]
    rfl
  have htext : fmtStr [b] = [b] := fmtStr_eq_self (by simpa using Ne.symm h0)
  rcases hcmd : (accepted (fmtStr [b]) : Option (TcpCommand D)) with _ | cmd
  · rfl
  rw [htext, accepted, if_pos (by simp [TCP_PARSER_MAX_INPUT])] at hcmd
  by_cases hcomma : b = 44
  · rw [hcomma, fieldsOf_comma] at hcmd
    cases hcmd
  · rw [fieldsOf_cons hcomma] at hcmd
    -- the keyword would have one letter
    have hlen : (strip (b :: upToComma [])).length ≤ 1 := (strip_sublist _).length_le
    rcases commandOf_keyword hcmd with ⟨hk, -⟩ | ⟨hk, -⟩ | ⟨hk, -⟩
    · rw [hk] at hlen
      exact absurd hlen (by decide)
    · rw [hk] at hlen
      exact absurd hlen (by decide)
    · rw [hk] at hlen
      exact absurd hlen (by decide)

/-- The chunks of a long command: two, and a last byte that is no command. -/
theorem received_long (hlong : 127 < s.length) (hlen : s.length < 256) :
    ∃ tail, Received [s] (s.take 127 :: (s.drop 127).take 127 :: tail) ∧
      ∀ x ∈ tail, (accepted (fmtStr x) : Option (TcpCommand D)) = none := by
  have hne : s.drop 127 ≠ [] := by simpa using hlong
  by_cases h255 : 127 < (s.drop 127).length
  · have hlast : ((s.drop 127).drop 127).length = 1 := by
      simp only [List.length_drop] at h255 ⊢
      omega
    obtain ⟨b, hb⟩ := List.length_eq_one_iff.mp hlast
    refine ⟨[(s.drop 127).drop 127], .part hlong (.part h255 (.whole ?_ (by omega) .nil)), ?_⟩
    · rw [hb]
      simp
    · intro x hx
      rw [List.mem_singleton.mp hx, hb]
      exact accepted_singleton b
  · refine ⟨[], ?_, by simp⟩
    rw [List.take_of_length_le (l := s.drop 127) (by omega)]
    exact .part hlong (.whole hne (by omega) .nil)

/-! ### Replies -/

/-- The first batch starts with the header. -/
theorem deliverable_head {rows : List (Row D)} {text : Bytes} {texts : List Bytes}
    (h : deliverable rows = text :: texts) : ∃ rest, text = headerLine ++ rest := by
  have hpre : text :: texts <+: batches rows := h ▸ List.takeWhile_prefix _
  obtain ⟨more, hmore⟩ := hpre
  rw [batches] at hmore
  rcases hcount : batchCount rows.length with _ | m
  · rw [hcount] at hmore
    cases hmore
  · rw [hcount, List.range_succ_eq_map, List.map_cons] at hmore
    exact ⟨_, (List.cons.inj hmore).1⟩

/-- Nothing but ERROR is sent for a chunk that is refused or shows no effect. -/
theorem respond_errors (env : Env D) {x : Bytes} (h0 : (0 : UInt8) ∉ x)
    (h : (accepted x : Option (TcpCommand D)) = none ∨ SilentQuery T x) :
    ∃ n, respond env T x = (T, (List.replicate n errorResponse).flatten) := by
  have htext : fmtStr x = x := fmtStr_eq_self h0
  rcases h with h | ⟨a, b, h, hdel⟩
  · exact ⟨1, by rw [respond, htext, h]; rfl⟩
  · rw [respond, htext, h]
    show ∃ n, (T, (deliverable (T.range a b)).flatten
      ++ if reportCode (T.range a b) = 0 then [] else errorResponse) = _
    rw [hdel]
    by_cases hcode : reportCode (T.range a b) = 0
    · rw [if_pos hcode]
      exact ⟨0, rfl⟩
    · rw [if_neg hcode]
      exact ⟨1, rfl⟩

/-- The reply to any other chunk shows by its first byte that it is no error. -/
theorem respond_head (env : Env D) {x : Bytes} (h0 : (0 : UInt8) ∉ x) {cmd : TcpCommand D}
    (h : accepted x = some cmd) (hs : ¬ SilentQuery T x) :
    ∃ b r, (respond env T x).2 = b :: r ∧ b ≠ 69 := by
  have htext : fmtStr x = x := fmtStr_eq_self h0
  rcases accepted_cases h with ⟨d, rfl, -⟩ | ⟨a, b, rfl, -⟩ | rfl
  · rw [respond, htext, h]
    exact ⟨79, _, rfl, by decide⟩
  · rcases hdel : deliverable (T.range a b) with _ | ⟨text, texts⟩
    · exact absurd ⟨a, b, h, hdel⟩ hs
    · obtain ⟨rest, rfl⟩ := deliverable_head hdel
      rw [respond, htext, h]
      show ∃ b' r, (deliverable (T.range a b)).flatten ++ _ = b' :: r ∧ b' ≠ 69
      rw [hdel]
      exact ⟨105, _, rfl, by decide⟩
  · rw [respond, htext, h]
    exact ⟨84, _, rfl, by decide⟩

theorem respondAll_refused {xs : List Bytes}
    (h : ∀ x ∈ xs, (accepted (fmtStr x) : Option (TcpCommand D)) = none) :
    respondAll env T xs = (T, (List.replicate xs.length errorResponse).flatten) := by
  induction xs with
  | nil => rfl
  | cons x xs ih =>
    have hx : respond env T x = (T, errorResponse) := by rw [respond, h x (by simp)]
    rw [respondAll, hx, ih fun y hy => h y (by simp [hy])]
    rfl

/-- A reply that is no error does not hide between errors. -/
theorem ne_errors {b : UInt8} {r : Bytes} (hb : b ≠ 69) (n : ℕ) :
    errorResponse ++ b :: r ≠ (List.replicate n errorResponse).flatten := by
  intro h
  rcases n with _ | _ | n
  · exact absurd h (by simp [errorResponse, bytes, ofChars])
  · rw [List.replicate_one, List.flatten_singleton] at h
    exact absurd (List.append_cancel_left (h.trans (List.append_nil _).symm)) (by simp)
  · rw [List.replicate_succ, List.replicate_succ, List.flatten_cons, List.flatten_cons] at h
    exact hb (List.cons.inj (List.append_cancel_left h)).1

/-! ### The first piece -/

/-- gateway_process leaves the table as it is and reads nothing of it just when it
refuses its input. -/
theorem Processed.idle_iff {input reply : Bytes} {w w₁ : World D} {r : ℤ}
    (h : Processed env quietMode (sends quietMode) input w r reply w₁) :
    (w₁.table = w.table ∧ w₁.reads = w.reads) ↔
      (accepted input : Option (TcpCommand D)) = none := by
  have hread : ∀ Ts T, w₁.reads = w.reads ++ (Ts ++ [T]) →
      ¬ (w₁.table = w.table ∧ w₁.reads = w.reads) := by
    rintro Ts T h ⟨-, hsame⟩
    rw [hsame] at h
    simp at h
  cases h with
  | rejected h => simp [h]
  | @stored d T w₁ h hT hw =>
    have htable : T.insert env (readingOf d) = w₁.table := hw.table.1
    obtain rfl : w.table = T := hT
    rw [h]
    refine ⟨fun hsame => ?_, fun h => absurd h (by simp)⟩
    -- the table has a row more
    have := congrArg (fun T => T.rows.length) (htable.trans hsame.1)
    simp [Table.insert] at this
  | lost _ hM _ _ => exact hM.elim
  | queried h ho hu =>
    rw [h]
    refine ⟨fun hsame => ?_, fun h => absurd h (by simp)⟩
    cases ho with
    | complete _ _ _ hreads _ => exact absurd hsame (hread _ _ hreads)
    | batch _ _ _ hcause =>
      rcases hcause with ⟨-, hM⟩ | ⟨-, hreads, -⟩
      · exact hM.elim
      · exact absurd hsame (hread _ _ hreads)
    | handler _ _ _ _ hr hrec _ => exact absurd (sends_quiet hrec).1 hr
  | helped h _ hw =>
    rw [h]
    exact ⟨fun hsame => absurd hsame (hread [] _ hw.reads), fun h => absurd h (by simp)⟩
  | helpless _ hM _ _ => exact hM.elim

omit [Libc D] in
theorem Answered.table_reads {r : ℤ} {reply : Bytes} {w₁ w₂ : World D}
    (h : Answered M r reply w₁ w₂) : w₂.table = w₁.table ∧ w₂.reads = w₁.reads := by
  cases h with
  | error _ _ => exact ⟨rfl, rfl⟩
  | reply _ _ _ => exact ⟨rfl, rfl⟩
  | silent _ _ => exact ⟨rfl, rfl⟩

theorem clientHandler_idle (env : Env D) (accept : ℕ → ℕ) (c : ℕ) (hfd : 0 ≤ fd) (T : Table D)
    {x : Bytes} (hne : x ≠ []) (hlen : x.length ≤ 127) :
    ∃ rc w₁, Prog.Evals (quiet env accept) (clientHandler (some (openGateway c)) fd .data x)
        (.fresh T []) rc w₁ ∧
      (w₁.table = T ∧ w₁.reads = [] ↔ (accepted (fmtStr x) : Option (TcpCommand D)) = none) := by
  have hwp : Prog.wp True (surroundings env quietMode)
      (clientHandler (some (openGateway c)) fd .data x)
      (fun _ w₁ => w₁.table = T ∧ w₁.reads = [] ↔
        (accepted (fmtStr x) : Option (TcpCommand D)) = none) (.fresh T []) := by
    refine clientHandler_data_wp hne hlen hfd (fun _ h => h) (fun _ _ _ => trivial)
      (fun _ _ _ => trivial) (fun _ _ _ _ _ => ⟨fun _ => trivial, fun _ => trivial⟩) ?_
    intro rc r reply w₁ w₂ hproc hans
    rw [hans.table_reads.1, hans.table_reads.2]
    exact hproc.idle_iff
  exact quiet_evals accept hwp

/-! ### The whole -/

/-- One call of gateway_process on the whole input, with the server's handler. -/
theorem gatewayProcess_sends (env : Env D) (accept : ℕ → ℕ) (c : ℕ) (hfd : 0 ≤ fd) (T : Table D)
    (h0 : (0 : UInt8) ∉ s) : ∃ r out w₂, Prog.Evals (quiet env accept)
      (gatewayProcess (some (openGateway c)) s (List.replicate OUTPUT_BUFFER_SIZE 0)
        OUTPUT_BUFFER_SIZE (some (gatewayOutputHandler fd))) (.fresh T []) (r, out) w₂ ∧
      w₂.table = (respond env T s).1 ∧
      w₂.sent ++ (if r = 0 then cstr out 0 else errorResponse) = (respond env T s).2 := by
  have hwp : Prog.wp True (surroundings env quietMode) (gatewayProcess (some (openGateway c)) s
      (List.replicate OUTPUT_BUFFER_SIZE 0) OUTPUT_BUFFER_SIZE (some (gatewayOutputHandler fd)))
      _ (.fresh T []) :=
    gatewayProcess_wp h0 le_rfl
      (gatewayOutputHandler_handles hfd (fun _ h => h) fun _ _ _ => trivial) fun _ _ _ => trivial
  obtain ⟨⟨r, out⟩, w₂, hrun, hproc⟩ := quiet_evals accept hwp
  rw [← fmtStr_eq_self h0] at hproc
  obtain ⟨text, hrep, hreply⟩ := processed_replied hproc
  refine ⟨r, out, w₂, hrun, hrep.table, ?_⟩
  rw [hrep.sent]
  exact hreply.symm

theorem takenWhole_iff (env : Env D) (accept : ℕ → ℕ) (c : ℕ) (hfd : 0 ≤ fd) (T : Table D)
    (h0 : (0 : UInt8) ∉ s) (hlong : 127 < s.length)
    (hs : (accepted s : Option (TcpCommand D)).isSome) :
    TakenWhole env accept c fd T s ↔
      (accepted (s.take 127) : Option (TcpCommand D)) = none ∧
        ((accepted ((s.drop 127).take 127) : Option (TcpCommand D)) = none ∨
          SilentQuery T ((s.drop 127).take 127)) := by
  obtain ⟨cmd, hcmd⟩ := Option.isSome_iff_exists.mp hs
  have hlen : s.length < 256 := by
    by_contra hlen
    rw [accepted, if_neg (by rwa [TCP_PARSER_MAX_INPUT])] at hcmd
    cases hcmd
  have h0first : (0 : UInt8) ∉ s.take 127 := fun h => h0 (List.mem_of_mem_take h)
  have h0second : (0 : UInt8) ∉ (s.drop 127).take 127 := fun h =>
    h0 (List.mem_of_mem_drop (List.mem_of_mem_take h))
  have hne : s.take 127 ≠ [] := by
    rintro h
    rw [List.take_eq_nil_iff] at h
    rcases h with h | rfl
    · omega
    · simp at hlong
  obtain ⟨tail, hrec, htail⟩ := received_long (D := D) hlong hlen
  obtain ⟨w₁, hrun, htable, hsent⟩ := thread_quiet env accept c hfd hrec T
  obtain ⟨rc, w₂, hfirst, hidle⟩ := clientHandler_idle env accept c hfd T hne (by simp)
  rw [fmtStr_eq_self h0first] at hidle
  constructor
  · rintro ⟨⟨rc', w₂', hfirst', hT, hreads⟩, w₁', hrun', hout⟩
    obtain ⟨-, rfl⟩ := hfirst.unique hfirst'
    obtain ⟨-, rfl⟩ := hrun.unique hrun'
    have hrefused := hidle.mp ⟨hT, hreads⟩
    refine ⟨hrefused, ?_⟩
    by_contra hboth
    rw [not_or] at hboth
    obtain ⟨cmd₂, hcmd₂⟩ := Option.ne_none_iff_exists'.mp hboth.1
    -- the second piece is answered with something else than ERROR
    obtain ⟨b, r, hreply, hb⟩ := respond_head env h0second hcmd₂ hboth.2
    have hone : respond env T (s.take 127) = (T, errorResponse) := by
      rw [respond, fmtStr_eq_self h0first, hrefused]
    rw [respondAll, hone, respondAll, hreply] at hsent
    rcases hout with ⟨r', out, w₃, hwhole, -, hsame⟩ | ⟨-, n, herrors⟩
    · obtain ⟨r₀, out₀, w₃', hwhole', -, hbytes⟩ := gatewayProcess_sends env accept c hfd T h0
      obtain ⟨hret, rfl⟩ := hwhole.unique hwhole'
      obtain ⟨rfl, rfl⟩ := Prod.mk.inj hret
      rw [hbytes, hsent] at hsame
      have hcancel := List.append_cancel_left hsame
      by_cases hsilent : SilentQuery T s
      · obtain ⟨n, hn⟩ := respond_errors env h0 (.inr hsilent)
        rw [hn] at hcancel
        exact ne_errors hb n hcancel
      · obtain ⟨b₀, rest, hhead, hb₀⟩ := respond_head env h0 hcmd hsilent
        rw [hhead] at hcancel
        exact hb₀ (List.cons.inj hcancel).1.symm
    · rw [hsent] at herrors
      exact ne_errors hb n (List.append_cancel_left herrors)
  · rintro ⟨hrefused, hsecond⟩
    obtain ⟨hT, hreads⟩ := hidle.mpr hrefused
    refine ⟨⟨rc, w₂, hfirst, hT, hreads⟩, w₁, hrun, .inr ?_⟩
    obtain ⟨n₁, hone⟩ := respond_errors env (T := T) h0first (.inl hrefused)
    obtain ⟨n₂, htwo⟩ := respond_errors env h0second hsecond
    rw [respondAll, hone, respondAll, htwo, respondAll_refused htail] at htable hsent
    refine ⟨htable, n₁ + (n₂ + tail.length), ?_⟩
    rw [hsent]
    simp only [List.replicate_add, List.flatten_append]

/-- A SENSOR command that is padded so that neither piece is a command. -/
theorem takenWhole_padded : TakenWhole Env.counting id 0 4 (∅ : Table Binary64)
    (bytes "SENSOR," ++ List.replicate 120 32 ++ bytes "D,1,2,3,4") :=
  (takenWhole_iff Env.counting id 0 (by decide) ∅ (by decide +kernel) (by decide +kernel)
    (by decide +kernel)).mpr ⟨by decide +kernel, .inl (by decide +kernel)⟩

/-- A SENSOR command whose last number ends one digit after the cut. -/
def longNumber : Bytes := bytes "SENSOR,D,1,2,3," ++ List.replicate 113 49

theorem long_number_cut : ¬ ∀ s : Bytes, (0 : UInt8) ∉ s → 127 < s.length →
    (accepted s : Option (TcpCommand Binary64)).isSome →
    TakenWhole Env.counting id 0 4 (∅ : Table Binary64) s := by
  intro h
  have h0 : (0 : UInt8) ∉ longNumber := by decide +kernel
  have hwhole := h longNumber h0 (by decide +kernel) (by decide +kernel)
  have hne : longNumber.take 127 ≠ [] := by decide +kernel
  have hlen : (longNumber.take 127).length ≤ 127 := by decide +kernel
  obtain ⟨⟨rc, w₁, hrun, hT, hreads⟩, -⟩ := hwhole
  obtain ⟨rc', w₂, hrun', hidle⟩ :=
    clientHandler_idle Env.counting id 0 (show (0 : ℤ) ≤ 4 by decide)
      (∅ : Table Binary64) hne hlen
  obtain ⟨-, rfl⟩ := hrun.unique hrun'
  exact absurd (hidle.mp ⟨hT, hreads⟩) (by decide +kernel)

end SensorGateway
