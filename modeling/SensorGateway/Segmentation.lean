/-
How the cuts of the byte stream matter.

The server has no frames: what one `recv` returns is taken as one command.

* `segmentation` — however the stream is cut, a row is stored for each chunk that
  is a SENSOR command by itself; two cuts into chunks that are all accepted have
  the same effect on the table and the same replies; several commands in one
  chunk are refused together, with one ERROR;
* `short_number_stored` — a cut in the middle of a number stores another value.
-/
import SensorGateway.CommandStream
import SensorGateway.QuietServer

open CString Sqlite TcpParser

namespace SensorGateway

variable {D : Type} [Libc D] {fd : ℤ}

/-- A chunk that `recv` can return and the parser accepts. -/
structure Command (D : Type) [Libc D] (x : Bytes) : Prop where
  length : x.length ≤ 127
  zero : (0 : UInt8) ∉ x
  accepted : (accepted x : Option (TcpCommand D)).isSome

/-- The thread of a client that sends `segments` and closes ends in `w₁`. -/
def Serves (env : Env D) (accept : ℕ → ℕ) (c : ℕ) (fd : ℤ) (T : Table D) (segments : List Bytes)
    (w₁ : World D) : Prop :=
  Prog.Evals (quiet env accept) (tcpClientThread (clientHandler (some (openGateway c))) fd)
    (.fresh T segments) () w₁

theorem Command.ne_nil {x : Bytes} (h : Command D x) : x ≠ [] :=
  selfDelimiting_accepted.ne_nil h.accepted

/-- The effect of the chunks only depends on the commands they are accepted as. -/
theorem respondAll_congr (env : Env D) {as bs : List Bytes}
    (h : as.map (fun x => (accepted (fmtStr x) : Option (TcpCommand D)))
      = bs.map fun x => accepted (fmtStr x)) (T : Table D) :
    respondAll env T as = respondAll env T bs := by
  induction as generalizing bs T with
  | nil =>
    obtain rfl : bs = [] := by simpa using h.symm
    rfl
  | cons a as ih =>
    rcases bs with _ | ⟨b, bs⟩
    · cases h
    obtain ⟨hhead, hrest⟩ := List.cons.inj h
    have hab : (accepted (fmtStr a) : Option (TcpCommand D)) = accepted (fmtStr b) := hhead
    have hrespond : respond env T a = respond env T b := by
      rw [respond, respond, hab]
    rw [respondAll, respondAll, hrespond, ih hrest]

/-- What a chunk stores when it is a SENSOR command. -/
def storedBy (D : Type) [Libc D] (x : Bytes) : Option (Reading D) :=
  match (accepted (fmtStr x) : Option (TcpCommand D)) with
  | some ⟨.sensorData, .sensor d⟩ => some (readingOf d)
  | _ => none

theorem respond_readings (env : Env D) (T : Table D) (x : Bytes) :
    (respond env T x).1.rows.map Row.reading
      = T.rows.map Row.reading ++ (storedBy D x).toList := by
  have hrow : ∀ y : Reading D, (T.insert env y).rows.map Row.reading
      = T.rows.map Row.reading ++ [y] := fun y => by simp [Table.insert, Env.row, Row.reading]
  rcases hcmd : (accepted (fmtStr x) : Option (TcpCommand D)) with _ | cmd
  · rw [respond, storedBy, hcmd]
    simp
  rcases accepted_cases hcmd with ⟨d, rfl, -⟩ | ⟨s, e, rfl, -⟩ | rfl
  · rw [respond, storedBy, hcmd]
    exact hrow _
  · rw [respond, storedBy, hcmd]
    simp
  · rw [respond, storedBy, hcmd]
    simp

theorem respondAll_readings (env : Env D) (T : Table D) (chunks : List Bytes) :
    (respondAll env T chunks).1.rows.map Row.reading
      = T.rows.map Row.reading ++ chunks.filterMap (storedBy D) := by
  induction chunks generalizing T with
  | nil => simp [respondAll]
  | cons x chunks ih =>
    rw [respondAll, ih, respond_readings, List.append_assoc, List.filterMap_cons]
    cases storedBy D x <;> simp

theorem map_accepted_eq {as bs : List Bytes} (has : ∀ x ∈ as, Command D x)
    (hbs : ∀ x ∈ bs, Command D x) (heq : as.flatten = bs.flatten) :
    as.map (fun x => (accepted (fmtStr x) : Option (TcpCommand D)))
      = bs.map fun x => accepted (fmtStr x) := by
  have htext : ∀ l : List Bytes, (∀ x ∈ l, Command D x) →
      l.map (fun x => (accepted (fmtStr x) : Option (TcpCommand D))) = l.map accepted :=
    fun l hl => List.map_congr_left fun x hx => by rw [fmtStr_eq_self (hl x hx).zero]
  rw [htext as has, htext bs hbs]
  exact selfDelimiting_accepted.map_eq (fun x hx => (has x hx).accepted)
    (fun x hx => (hbs x hx).accepted) heq

/-- Several commands in one chunk are not a command. -/
theorem accepted_flatten {us : List Bytes} (hlen : 2 ≤ us.length)
    (hus : ∀ x ∈ us, Command D x) : (accepted us.flatten : Option (TcpCommand D)) = none := by
  by_contra hne
  have hwhole : ∀ x ∈ [us.flatten], (accepted x : Option (TcpCommand D)).isSome := by
    simpa using Option.isSome_iff_ne_none.mpr hne
  have hone := selfDelimiting_accepted.map_eq hwhole (fun x hx => (hus x hx).accepted) (by simp)
  have := congrArg List.length hone
  simp only [List.length_map, List.length_singleton] at this
  omega

theorem segmentation (hfd : 0 ≤ fd) (env : Env D) (accept accept' : ℕ → ℕ) (c : ℕ)
    (T : Table D) :
    (∀ chunks : List Bytes, (∀ x ∈ chunks, x ≠ [] ∧ x.length ≤ 127) →
      ∃ w₁, Serves env accept c fd T chunks w₁ ∧ w₁.table.rows.map Row.reading
        = T.rows.map Row.reading ++ chunks.filterMap (storedBy D)) ∧
    (∀ as bs : List Bytes, (∀ x ∈ as, Command D x) → (∀ x ∈ bs, Command D x) →
      as.flatten = bs.flatten → ∃ w₁ w₂, Serves env accept c fd T as w₁ ∧
        Serves env accept' c fd T bs w₂ ∧ w₁.table = w₂.table ∧ w₁.sent = w₂.sent) ∧
    ∀ us : List Bytes, 2 ≤ us.length → (∀ x ∈ us, Command D x) → us.flatten.length ≤ 127 →
      ∃ w₁, Serves env accept c fd T [us.flatten] w₁ ∧ w₁.table = T ∧
        w₁.sent = welcome ++ errorResponse := by
  refine ⟨?_, ?_, ?_⟩
  · intro chunks hchunks
    obtain ⟨w₁, hrun, htable, -⟩ := thread_quiet env accept c hfd (.refl hchunks) T
    exact ⟨w₁, hrun, by rw [htable, respondAll_readings]⟩
  · intro as bs has hbs heq
    have hreceived : ∀ l : List Bytes, (∀ x ∈ l, Command D x) → Received l l := fun l hl =>
      .refl fun x hx => ⟨(hl x hx).ne_nil, (hl x hx).length⟩
    obtain ⟨w₁, hrun₁, htable₁, hsent₁⟩ := thread_quiet env accept c hfd (hreceived as has) T
    obtain ⟨w₂, hrun₂, htable₂, hsent₂⟩ := thread_quiet env accept' c hfd (hreceived bs hbs) T
    -- both ways to cut the text give the same commands
    have hsame := respondAll_congr env (map_accepted_eq has hbs heq) T
    refine ⟨w₁, w₂, hrun₁, hrun₂, ?_, ?_⟩
    · rw [htable₁, htable₂, hsame]
    · rw [hsent₁, hsent₂, hsame]
  · intro us hlen hus hshort
    have hzero : (0 : UInt8) ∉ us.flatten := by
      intro h
      obtain ⟨x, hx, h0⟩ := List.mem_flatten.mp h
      exact (hus x hx).zero h0
    have hne : us.flatten ≠ [] := by
      obtain ⟨x, us, rfl⟩ := List.exists_cons_of_ne_nil (l := us) (by rintro rfl; simp at hlen)
      simp [(hus x (by simp)).ne_nil]
    obtain ⟨w₁, hrun, htable, hsent⟩ := thread_quiet env accept c hfd
      (.whole hne hshort .nil) T
    -- commands run together are no command
    have hrespond : respondAll env T [us.flatten] = (T, errorResponse) := by
      rw [respondAll, respond, fmtStr_eq_self hzero, accepted_flatten hlen hus]
      simp [respondAll]
    rw [hrespond] at htable hsent
    exact ⟨w₁, hrun, htable, hsent⟩

theorem segmentation_help :
    ∃ w₁ w₂, Serves Env.counting id 0 4 (∅ : Table Binary64)
        [bytes "HELP\n", bytes "QUERY,1,2\n"] w₁ ∧
      Serves Env.counting id 0 4 (∅ : Table Binary64) [bytes "HELP", bytes "\nQUERY,1,2\n"] w₂ ∧
      w₁.table = w₂.table ∧ w₁.sent = w₂.sent := by
  refine (segmentation (D := Binary64) (show (0 : ℤ) ≤ 4 by decide) Env.counting id id 0 ∅).2.1 _ _
    ?_ ?_ (by decide)
  · intro x hx
    rcases List.mem_pair.mp hx with rfl | rfl
    · exact ⟨by decide, by decide, by decide +kernel⟩
    · exact ⟨by decide, by decide, by decide +kernel⟩
  · intro x hx
    rcases List.mem_pair.mp hx with rfl | rfl
    · exact ⟨by decide, by decide, by decide +kernel⟩
    · exact ⟨by decide, by decide, by decide +kernel⟩

/-- `SENSOR,D,1,2,3,45`, cut before its last digit, stores 4 for 45. -/
theorem short_number_stored :
    ¬ ∀ cmds chunks : List Bytes,
      (∀ x ∈ cmds, Command Binary64 x ∧ x.getLast? = some 10) →
      (∀ x ∈ chunks, x ≠ [] ∧ x.length ≤ 127) → chunks.flatten = cmds.flatten →
      ∀ (T : Table Binary64) w₁ w₂, Serves Env.counting id 0 4 T chunks w₁ →
        Serves Env.counting id 0 4 T cmds w₂ →
        w₁.table.rows.map Row.reading = w₂.table.rows.map Row.reading ∧ w₁.sent = w₂.sent := by
  intro h
  have hcmds : ∀ x ∈ [bytes "SENSOR,D,1,2,3,45\n"],
      Command Binary64 x ∧ x.getLast? = some 10 := by
    intro x hx
    obtain rfl := List.mem_singleton.mp hx
    exact ⟨⟨by decide, by decide, by decide +kernel⟩, by decide⟩
  have hchunks : ∀ x ∈ [bytes "SENSOR,D,1,2,3,4", bytes "5\n"], x ≠ [] ∧ x.length ≤ 127 := by
    decide
  have hwhole : ∀ x ∈ [bytes "SENSOR,D,1,2,3,45\n"], x ≠ [] ∧ x.length ≤ 127 := by decide
  have hfd : (0 : ℤ) ≤ 4 := by decide
  obtain ⟨w₁, hrun₁, htable₁, -⟩ := thread_quiet Env.counting id 0 hfd (.refl hchunks)
    (∅ : Table Binary64)
  obtain ⟨w₂, hrun₂, htable₂, -⟩ := thread_quiet Env.counting id 0 hfd (.refl hwhole)
    (∅ : Table Binary64)
  have hrows := (h _ _ hcmds hchunks (by decide) ∅ w₁ w₂ hrun₁ hrun₂).1
  rw [htable₁, htable₂] at hrows
  exact absurd hrows (by decide +kernel)

end SensorGateway
