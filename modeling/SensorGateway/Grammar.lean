/-
The documented grammar against the accepted one.

The README gives commands as comma-separated positional fields.  Read that way
(`positional`), a command has a field between any two commas; `strtok` however
takes a run of commas for one separator.  `Documented` states the documented
grammar and `ParsesAsDocumented` what it asks of the parser on one input.

* `parsesAsDocumented_iff` — the parser does so exactly on the inputs with no
  empty field, and on those whose other fields form no command anyway;
* `sensor_without_id_shifts` — an empty device id makes the fields shift.
-/
import SensorGateway.ParserSpec
import SensorGateway.Separated

open CString

namespace TcpParser

variable {D : Type} [Libc D]

/-- The positional fields: what stands between the commas, stripped. -/
def positional (input : Bytes) : List Bytes := (input.splitOn 44).map strip

/-- `strtod` reads the whole of `x`, without range error. -/
def WholeDouble (x : Bytes) (d : D) : Prop := x ≠ [] ∧ strtod x = (d, x.length, false)

/-- `strtol` reads the whole of `x`, a value in `0..2^31-1`. -/
def WholeInt (w : ℕ) (x : Bytes) (v : ℤ) : Prop :=
  x ≠ [] ∧ strtol w x = ⟨v, x.length, false⟩ ∧ 0 ≤ v ∧ v ≤ 2 ^ 31 - 1

/-- The documented commands, field by field. -/
inductive Documented : List Bytes → TcpCommand D → Prop
  | sensor {id x1 x2 x3 x4 : Bytes} {d1 d2 d3 d4 : D} (hid : 1 ≤ id.length)
      (hid' : id.length ≤ 63) (h1 : WholeDouble x1 d1) (h2 : WholeDouble x2 d2)
      (h3 : WholeDouble x3 d3) (h4 : WholeDouble x4 d4) :
      Documented [bytes "SENSOR", id, x1, x2, x3, x4]
        ⟨.sensorData, .sensor ⟨id, d1, d2, d3, d4⟩⟩
  | query {x y : Bytes} {a b : ℤ} (ha : WholeInt (Libc.longBits D) x a)
      (hb : WholeInt (Libc.longBits D) y b) :
      Documented [bytes "QUERY", x, y] ⟨.query, .query ⟨min a b, max a b⟩⟩
  | help : Documented [bytes "HELP"] { zeroed with type := .help }

/-- The parser takes `input` exactly when its positional fields are a documented
command, and then each field ends up in its own member. -/
def ParsesAsDocumented (D : Type) [Libc D] (input : Bytes) : Prop :=
  ∀ command : TcpCommand D,
    ((parseAlone input command).1 = 0 ↔ ∃ cmd : TcpCommand D, Documented (positional input) cmd) ∧
    ((parseAlone input command).1 = 0 →
      Documented (positional input) (parseAlone input command).2)

theorem doubleOf_eq_some {x : Bytes} {d : D} : doubleOf x = some d ↔ WholeDouble x d := by
  rw [WholeDouble, doubleOf]
  rcases strtod (D := D) x with ⟨v, n, e⟩
  simp only
  constructor
  · intro h
    split at h
    · cases h
    · rename_i hc
      obtain rfl := Option.some.inj h
      rw [not_or, not_or, not_not] at hc
      obtain ⟨h0, rfl, he⟩ := hc
      exact ⟨fun hx => h0 (by rw [hx]; rfl), by simpa using he⟩
  · rintro ⟨hx, h⟩
    obtain ⟨rfl, rfl, rfl⟩ : v = d ∧ n = x.length ∧ e = false := by simpa using h
    simp [hx]

theorem intOf_eq_some {w : ℕ} {x : Bytes} {v : ℤ} : intOf w x = some v ↔ WholeInt w x v := by
  rw [WholeInt, intOf]
  rcases strtol w x with ⟨u, n, e⟩
  simp only
  constructor
  · intro h
    split at h
    · cases h
    · rename_i hc
      split at h
      · cases h
      · rename_i hr
        obtain rfl := Option.some.inj h
        rw [not_or, not_or, not_not] at hc
        obtain ⟨h0, rfl, he⟩ := hc
        refine ⟨fun hx => h0 (by rw [hx]; rfl), by simpa using he, by omega, by omega⟩
  · rintro ⟨hx, h, h0, h1⟩
    obtain ⟨rfl, rfl, rfl⟩ := (StrtolResult.mk.injEq ..).mp h
    rw [if_neg (by simp [hx]), if_neg (by omega)]

/-- The documented grammar is what the parser accepts as a field list. -/
theorem documented_iff {fields : List Bytes} {cmd : TcpCommand D} :
    Documented fields cmd ↔ commandOf fields = some cmd := by
  constructor
  · intro h
    cases h with
    | sensor hid hid' h1 h2 h3 h4 =>
      rw [← doubleOf_eq_some] at h1 h2 h3 h4
      rw [commandOf, if_pos ⟨rfl, List.length_pos_iff.mp hid, by omega⟩, h1, h2, h3, h4]
      rfl
    | query ha hb =>
      rw [← intOf_eq_some] at ha hb
      rw [commandOf, if_pos rfl, ha, hb]
      rfl
    | help => rfl
  · intro h
    rcases commandOf_cases h with ⟨id, x1, x2, x3, x4, d1, d2, d3, d4, rfl, hid, hlen, h1, h2, h3,
      h4, rfl⟩ | ⟨x, y, s, e, rfl, hs, he, rfl⟩ | ⟨rfl, rfl⟩
    · rw [doubleOf_eq_some] at h1 h2 h3 h4
      exact .sensor (List.length_pos_iff.mpr hid) (by omega) h1 h2 h3 h4
    · rw [intOf_eq_some] at hs he
      exact .query hs he
    · exact .help

/-- No documented command has an empty field. -/
theorem Documented.nil_notMem {fields : List Bytes} {cmd : TcpCommand D}
    (h : Documented fields cmd) : [] ∉ fields := by
  have hS : bytes "SENSOR" ≠ [] := by decide
  have hQ : bytes "QUERY" ≠ [] := by decide
  have hH : bytes "HELP" ≠ [] := by decide
  cases h with
  | sensor hid hid' h1 h2 h3 h4 =>
    have hid0 := List.length_pos_iff.mp hid
    simp [hS.symm, hid0.symm, h1.1.symm, h2.1.symm, h3.1.symm, h4.1.symm]
  | query ha hb => simp [hQ.symm, ha.1.symm, hb.1.symm]
  | help => simp [hH.symm]

/-- Without empty fields the tokens are the positional fields. -/
theorem fieldsOf_eq_positional {input : Bytes} (h : [] ∉ input.splitOn 44) :
    fieldsOf input = positional input := by
  rw [fieldsOf, positional, tokens, List.filter_eq_self.mpr]
  intro t ht
  have : t ≠ [] := fun h' => h (h' ▸ ht)
  simpa using this

/-- No field holds a byte that the input does not. -/
theorem mem_of_mem_fieldsOf {input x : Bytes} {b : UInt8} (hx : x ∈ fieldsOf input)
    (hb : b ∈ x) : b ∈ input := by
  obtain ⟨tok, htok, rfl⟩ := List.mem_map.mp hx
  have htok' : tok ∈ input.splitOn 44 := List.mem_of_mem_filter htok
  have hmem : b ∈ tok := (strip_sublist tok).subset hb
  have hinput : ([44] : Bytes).intercalate (input.splitOn 44) = input :=
    List.intercalate_splitOn 44
  rw [← hinput]
  exact Separated.mem_intercalate htok' hmem

theorem nil_mem_positional {input : Bytes} (h : [] ∈ input.splitOn 44) :
    [] ∈ positional input := List.mem_map.mpr ⟨[], h, by decide⟩

/-- Return code and command, on inputs that fit the buffer. -/
theorem parseAlone_iff {input : Bytes} (h0 : (0 : UInt8) ∉ input)
    (hlen : input.length < TCP_PARSER_MAX_INPUT) (command : TcpCommand D) :
    ((parseAlone input command).1 = 0 ↔
      ∃ cmd : TcpCommand D, Documented (fieldsOf input) cmd) ∧
    ((parseAlone input command).1 = 0 →
      Documented (fieldsOf input) (parseAlone input command).2) := by
  obtain ⟨hsome, hnone⟩ := parseResult_eq input command
  have hacc : (accepted input : Option (TcpCommand D)) = commandOf (fieldsOf input) := by
    rw [accepted, if_pos hlen]
  rw [parseAlone_eq h0]
  rw [hacc] at hsome hnone
  rcases hc : (commandOf (fieldsOf input) : Option (TcpCommand D)) with _ | cmd
  · have hno : ¬∃ cmd : TcpCommand D, Documented (fieldsOf input) cmd := by
      rintro ⟨cmd, hd⟩
      rw [documented_iff, hc] at hd
      cases hd
    have hcode : (parseResult input command).1 ≠ 0 := by rw [hnone hc]; decide
    exact ⟨iff_of_false hcode hno, fun h => absurd h hcode⟩
  · rw [hsome cmd hc]
    have hd : Documented (fieldsOf input) cmd := documented_iff.mpr hc
    exact ⟨⟨fun _ => ⟨cmd, hd⟩, fun _ => rfl⟩, fun _ => hd⟩

/-- The parser follows the documented grammar on an input if and only if the
input has no empty field, or its non-empty fields form no command. -/
theorem parsesAsDocumented_iff {input : Bytes} (h0 : (0 : UInt8) ∉ input)
    (hlen : input.length < 256) :
    ParsesAsDocumented D input ↔ [] ∉ input.splitOn 44 ∨
      ¬∃ cmd : TcpCommand D, Documented (fieldsOf input) cmd := by
  have hspec := parseAlone_iff (D := D) h0 hlen
  constructor
  · intro h
    by_contra hc
    rw [not_or, not_not, not_not] at hc
    obtain ⟨hnil, hdoc⟩ := hc
    obtain ⟨cmd, hd⟩ := (h zeroed).1.mp ((hspec zeroed).1.mpr hdoc)
    exact hd.nil_notMem (nil_mem_positional hnil)
  · intro h command
    by_cases hnil : [] ∈ input.splitOn 44
    · have hdoc := h.resolve_left (not_not.mpr hnil)
      have hcode : (parseAlone input command).1 ≠ 0 := fun h => hdoc ((hspec command).1.mp h)
      refine ⟨iff_of_false hcode ?_, fun h => absurd h hcode⟩
      rintro ⟨cmd, hd⟩
      exact hd.nil_notMem (nil_mem_positional hnil)
    · rw [← fieldsOf_eq_positional hnil]
      exact hspec command

theorem parsesAsDocumented_example :
    ParsesAsDocumented Binary64 (bytes "SENSOR,DEV2,26.8,55.2,101.3,568.4") :=
  (parsesAsDocumented_iff (by decide) (by decide)).mpr (.inl (by decide))

/-- `SENSOR,,1,2,3,4,5` has an empty device id; the parser takes it, with `1`
for the device. -/
theorem sensor_without_id_shifts :
    (parseAlone (D := Binary64) (bytes "SENSOR,,1,2,3,4,5") zeroed).1 = 0 ∧
      ¬ParsesAsDocumented Binary64 (bytes "SENSOR,,1,2,3,4,5") := by
  have hcode : (parseAlone (D := Binary64) (bytes "SENSOR,,1,2,3,4,5") zeroed).1 = 0 := by
    decide +kernel
  refine ⟨hcode, fun h => ?_⟩
  obtain ⟨cmd, hd⟩ := (h zeroed).1.mp hcode
  exact hd.nil_notMem (nil_mem_positional (by decide))

end TcpParser
