/-
The range of ids that HELP announces.

HELP prints the smallest and the largest id as 32-bit numbers, and a client puts
the two into a QUERY to see the whole table.

* `Covers` — the two numbers are the range of the table, and the QUERY made of
  them is accepted and selects every row;
* `covers_iff` — after any inserts this holds as long as fewer than 2^31 rows are
  stored;
* `announced_negative` — with 2^31 rows the largest id is announced as -2147483648.
-/
import SensorGateway.QuietGateway
import SensorGateway.QueryText

open CString Sqlite TcpParser

namespace SensorGateway

variable {D : Type} [Libc D] {env : Env D} {accept : ℕ → ℕ} {c : ℕ}

/-! ### Tables -/

/-- The table after these inserts into an empty database. -/
def tableOf (env : Env D) (xs : List (Reading D)) : Table D := xs.foldl (Table.insert env) ∅

/-- The ids are 1, 2, 3, … as long as rows are only inserted. -/
def Numbers (env : Env D) : Prop := ∀ xs, env.nextId (tableOf env xs) = xs.length + 1

omit [Libc D] in
theorem tableOf_concat (env : Env D) (xs : List (Reading D)) (x : Reading D) :
    tableOf env (xs ++ [x]) = (tableOf env xs).insert env x := by
  rw [tableOf, List.foldl_concat]
  rfl

omit [Libc D] in
theorem ids_tableOf (hn : Numbers env) (xs : List (Reading D)) :
    (tableOf env xs).rows.map Row.id = (List.range xs.length).map fun i : ℕ => (i : ℤ) + 1 := by
  induction xs using List.reverseRecOn with
  | nil => rfl
  | append_singleton xs x ih =>
    have hid : (env.row (tableOf env xs) x).id = xs.length + 1 := hn xs
    rw [tableOf_concat, Table.insert, List.map_append, ih, List.map_singleton, hid,
      List.length_append, List.length_singleton, List.range_succ, List.map_append]
    rfl

omit [Libc D] in
theorem numbers_counting : Numbers (Env.counting : Env D) := by
  have hmax : ∀ xs : List (Reading D),
      (tableOf Env.counting xs).rows.foldr (fun r n => max r.id n) 0 = xs.length := by
    intro xs
    induction xs using List.reverseRecOn with
    | nil => rfl
    | append_singleton xs x ih =>
      -- the new row has the largest id
      have hfold : ∀ (l : List (Row D)) (m : ℤ), l.foldr (fun r n => max r.id n) 0 ≤ m →
          l.foldr (fun r n => max r.id n) m = m := by
        intro l m
        induction l with
        | nil => intro _; rfl
        | cons r l ihl =>
          intro h
          rw [List.foldr_cons, max_le_iff] at h
          rw [List.foldr_cons, ihl h.2, max_eq_right h.1]
      have hid : (Env.counting.row (tableOf Env.counting xs) x).id = (xs.length : ℤ) + 1 :=
        congrArg (· + 1) ih
      rw [tableOf_concat, Table.insert, List.foldr_append, List.foldr_cons, List.foldr_nil, hid,
        max_eq_left (by omega), hfold _ _ (by omega), List.length_append, List.length_singleton]
      push_cast
      rfl
  intro xs
  exact congrArg (· + 1) (hmax xs)

/-- The smallest id and the largest. -/
theorem min_max_ids {n : ℕ} (hn : 0 < n) :
    ((List.range n).map fun i : ℕ => (i : ℤ) + 1).min? = some 1 ∧
      ((List.range n).map fun i : ℕ => (i : ℤ) + 1).max? = some (n : ℤ) := by
  constructor
  · rw [List.min?_eq_some_iff]
    refine ⟨List.mem_map.mpr ⟨0, by simpa using hn, by norm_num⟩, fun b hb => ?_⟩
    obtain ⟨i, -, rfl⟩ := List.mem_map.mp hb
    omega
  · rw [List.max?_eq_some_iff]
    refine ⟨List.mem_map.mpr ⟨n - 1, by simpa using hn, by omega⟩, fun b hb => ?_⟩
    obtain ⟨i, hi, rfl⟩ := List.mem_map.mp hb
    have := List.mem_range.mp hi
    omega

/-! ### The announced range -/

/-- `QUERY,<min>,<max>` with the numbers as `%d` prints them. -/
def announcedQuery (lo hi : ℤ) : Bytes :=
  bytes "QUERY," ++ fmtInt lo ++ bytes "," ++ fmtInt hi

/-- sqlite_db_get_id_range answers with the range of the table, zeroes when it is
empty; and a QUERY for these two numbers is accepted and selects every row. -/
structure Covers (env : Env D) (accept : ℕ → ℕ) (c : ℕ) (T : Table D) (lo hi : ℤ) : Prop where
  zeroes : lo = 0 ∧ hi = 0 ↔ T.rows = []
  range : T.rows ≠ [] → (T.rows.map Row.id).min? = some lo ∧ (T.rows.map Row.id).max? = some hi
  taken : ∀ before : TcpCommand D,
    parseAlone (announcedQuery lo hi) before = (0, ⟨.query, .query ⟨lo, hi⟩⟩)
  every : T.range lo hi = T.rows
  queried : (∀ b ∈ batches T.rows, Fits b) → ∃ w₁, Prog.Evals (quiet env accept)
    (gatewayHandleQuery (openGateway c) lo hi output) (.fresh T []) 0 w₁ ∧
    w₁.delivered = batches T.rows

/-- What sqlite_db_get_id_range returns for `T`, whatever its results held before. -/
def Announces (env : Env D) (accept : ℕ → ℕ) (c : ℕ) (T : Table D) (lo hi : ℤ) : Prop :=
  ∀ min₀ max₀, ∃ w₁, Prog.Evals (quiet env accept)
    (sqliteDbGetIdRange (some ⟨some c⟩) min₀ max₀) (.fresh T []) ⟨0, lo, hi⟩ w₁

theorem announces_shown (env : Env D) (accept : ℕ → ℕ) (c : ℕ) (T : Table D) :
    Announces env accept c T (minShown T) (maxShown T) := by
  intro min₀ max₀
  have hwp : Prog.wp True (surroundings env quietMode)
      (sqliteDbGetIdRange (some ⟨some c⟩) min₀ max₀)
      (fun b _ => b = ⟨0, minShown T, maxShown T⟩) (.fresh T []) := by
    refine sqliteDbGetIdRange_wp ?_ ?_
    · intro T' w₁ hT _
      obtain rfl : T = T' := hT
      rfl
    · intro T' w₁ hM
      exact hM.elim
  obtain ⟨b, w₁, hrun, rfl⟩ := quiet_evals accept hwp
  exact ⟨w₁, hrun⟩

theorem Announces.eq {T : Table D} {lo hi : ℤ} (h : Announces env accept c T lo hi) :
    lo = minShown T ∧ hi = maxShown T := by
  obtain ⟨w₁, hrun⟩ := h 0 0
  obtain ⟨w₂, hrun'⟩ := announces_shown env accept c T 0 0
  obtain ⟨hret, -⟩ := hrun.unique hrun'
  injection hret with _ hlo hhi
  exact ⟨hlo, hhi⟩

omit [Libc D] in
theorem announcedQuery_eq (lo hi : ℕ) : announcedQuery lo hi = queryText lo hi := by
  rw [announcedQuery, queryText, fmtInt, fmtInt, if_neg (by omega), if_neg (by omega),
    Int.natAbs_natCast, Int.natAbs_natCast]

omit [Libc D] in
/-- What HELP shows once there is a row. -/
theorem shown_tableOf (hn : Numbers env) {xs : List (Reading D)} (hne : xs ≠ []) :
    minShown (tableOf env xs) = 1 ∧ maxShown (tableOf env xs) = (xs.length : ℤ).bmod (2 ^ 32) := by
  obtain ⟨hmin, hmax⟩ := min_max_ids (List.length_pos_iff.mpr hne)
  have hone : (1 : ℤ).bmod (2 ^ 32) = 1 := by decide
  rw [minShown, maxShown, ids_tableOf hn, hmin, hmax, Option.map_some, Option.getD_some, hone,
    Option.map_some, Option.getD_some]
  exact ⟨rfl, rfl⟩

omit [Libc D] in
theorem rows_tableOf_eq_nil (hn : Numbers env) {xs : List (Reading D)} :
    (tableOf env xs).rows = [] ↔ xs = [] := by
  have hlen : (tableOf env xs).rows.length = xs.length := by
    have := congrArg List.length (ids_tableOf hn xs)
    simpa using this
  rw [← List.length_eq_zero_iff, ← List.length_eq_zero_iff, hlen]

/-- A QUERY that selects the whole table delivers all of it. -/
theorem handleQuery_all (env : Env D) (accept : ℕ → ℕ) (c : ℕ) {T : Table D} {s e : ℤ}
    (hs : 0 ≤ s) (hse : s ≤ e) (he : e < 2 ^ 31) (hall : T.range s e = T.rows)
    (hfit : ∀ b ∈ batches T.rows, Fits b) : ∃ w₁, Prog.Evals (quiet env accept)
      (gatewayHandleQuery (openGateway c) s e output) (.fresh T []) 0 w₁ ∧
      w₁.delivered = batches T.rows := by
  have hh : Handles True env quietMode output (delivers quietMode) := output_handles
  obtain ⟨r, w₁, hrun, hout, -⟩ :=
    quiet_evals accept (gatewayHandleQuery_wp (c := c) hh hs hse he (.fresh T []))
  obtain ⟨rfl, hwrote⟩ := hout.quiet fun _ _ _ _ h => h.1
  have hrange : (World.fresh T []).table.range s e = T.rows := hall
  have hcode : reportCode T.rows = 0 := if_pos hfit
  have hdel : deliverable T.rows = batches T.rows := deliverable_eq_batches hcode
  rw [hrange, hcode] at hrun
  rw [hrange, hdel] at hwrote
  exact ⟨w₁, hrun, congrArg Out.delivered (wrote_delivers hwrote)⟩

theorem covers_of_lt (hn : Numbers env) (accept : ℕ → ℕ) (c : ℕ) {xs : List (Reading D)}
    (hlt : xs.length < 2 ^ 31) :
    Covers env accept c (tableOf env xs) (minShown (tableOf env xs))
      (maxShown (tableOf env xs)) := by
  have hids := ids_tableOf hn xs
  -- both ends are shown as they are
  obtain ⟨lo, hlo, hlo1⟩ : ∃ lo : ℕ, minShown (tableOf env xs) = lo ∧ lo = min 1 xs.length := by
    rcases eq_or_ne xs [] with rfl | hne
    · exact ⟨0, rfl, rfl⟩
    · have hpos := List.length_pos_iff.mpr hne
      exact ⟨1, (shown_tableOf hn hne).1, by omega⟩
  have hhi : maxShown (tableOf env xs) = (xs.length : ℕ) := by
    rcases eq_or_ne xs [] with rfl | hne
    · rfl
    · rw [(shown_tableOf hn hne).2]
      exact bmod_eq_self (by omega) (by omega)
  have hall : (tableOf env xs).range lo xs.length = (tableOf env xs).rows := by
    rw [Table.range, List.filter_eq_self]
    intro r hr
    have hmem : r.id ∈ (tableOf env xs).rows.map Row.id := List.mem_map_of_mem hr
    rw [hids, List.mem_map] at hmem
    obtain ⟨i, hi, hid⟩ := hmem
    have := List.mem_range.mp hi
    rw [decide_eq_true_eq]
    omega
  rw [hlo, hhi]
  constructor
  · rw [rows_tableOf_eq_nil hn, ← List.length_eq_zero_iff]
    omega
  · intro hne
    rw [ne_eq, rows_tableOf_eq_nil hn] at hne
    have hpos := List.length_pos_iff.mpr hne
    obtain ⟨hmin, hmax⟩ := min_max_ids hpos
    have hone : lo = 1 := by omega
    rw [hids, hone]
    exact ⟨hmin, hmax⟩
  · intro before
    rw [announcedQuery_eq]
    exact parseAlone_accepted (zero_notMem_queryText _ _)
      (accepted_queryText (by omega) (by omega)) before
  · exact hall
  · exact handleQuery_all env accept c (by omega) (by omega) (by omega) hall

theorem lt_of_covers (hn : Numbers env) {xs : List (Reading D)} {lo hi : ℤ}
    (ha : Announces env accept c (tableOf env xs) lo hi)
    (h : Covers env accept c (tableOf env xs) lo hi) : xs.length < 2 ^ 31 := by
  rcases eq_or_ne xs [] with rfl | hne
  · exact Nat.two_pow_pos 31
  obtain ⟨-, hmax⟩ := h.range (by rwa [ne_eq, rows_tableOf_eq_nil hn])
  rw [ids_tableOf hn, (min_max_ids (List.length_pos_iff.mpr hne)).2] at hmax
  -- a number read through 32 bits is the length itself
  have hlen : (xs.length : ℤ) = (xs.length : ℤ).bmod (2 ^ 32) := by
    rw [← (shown_tableOf hn hne).2, ← ha.eq.2]
    exact Option.some.inj hmax
  have hlt := (bmod_bounds xs.length).2
  omega

theorem covers_iff (hn : Numbers env) (accept : ℕ → ℕ) (c : ℕ) (xs : List (Reading D)) :
    (∃ lo hi, Announces env accept c (tableOf env xs) lo hi ∧
      Covers env accept c (tableOf env xs) lo hi) ↔ xs.length < 2 ^ 31 := by
  constructor
  · rintro ⟨lo, hi, ha, hcov⟩
    exact lt_of_covers hn ha hcov
  · intro hlt
    exact ⟨_, _, announces_shown env accept c _, covers_of_lt hn accept c hlt⟩

/-- After three readings the range is announced as 1 to 3. -/
theorem covers_iff_threeRows :
    Announces Env.counting id 0 (tableOf Env.counting (List.replicate 3 zeroReading)) 1 3 ∧
      Covers Env.counting id 0 (tableOf Env.counting (List.replicate 3 zeroReading)) 1 3 := by
  obtain ⟨lo, hi, ha, hcov⟩ :=
    (covers_iff numbers_counting id 0 (List.replicate 3 zeroReading)).mpr (by decide)
  obtain ⟨rfl, rfl⟩ := ha.eq
  exact ⟨ha, hcov⟩

/-- A database after 2^31 readings. -/
def manyReadings : List (Reading Binary64) := List.replicate (2 ^ 31) zeroReading

theorem announced_negative :
    Announces Env.counting id 0 (tableOf Env.counting manyReadings) 1 (-2147483648) ∧
      ¬ ∃ lo hi, Announces Env.counting id 0 (tableOf Env.counting manyReadings) lo hi ∧
        Covers Env.counting id 0 (tableOf Env.counting manyReadings) lo hi := by
  have hlen : manyReadings.length = 2 ^ 31 := List.length_replicate
  have hne : manyReadings ≠ [] := by
    rw [← List.length_pos_iff, hlen]
    decide
  constructor
  · obtain ⟨hmin, hmax⟩ := shown_tableOf numbers_counting hne
    have hbmod : ((manyReadings.length : ℕ) : ℤ).bmod (2 ^ 32) = -2147483648 := by
      rw [hlen]
      decide
    have hshown := announces_shown Env.counting id 0 (tableOf Env.counting manyReadings)
    rw [hmin, hmax, hbmod] at hshown
    exact hshown
  · rintro ⟨lo, hi, ha, hcov⟩
    have hlt := lt_of_covers numbers_counting ha hcov
    omega

end SensorGateway
