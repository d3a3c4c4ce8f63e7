/-
What the in-place parser computes.

`splitFields_run` gives the fields of the input, read back where the tokenizer has
left them; from there on the parser only reads.

* `parse_run` — run from any memory and any buffer, `tcp_parser_parse` returns
  `parseResult input`, a function of the fields alone;
* `parseAlone_eq` — in particular this is what it returns when run alone;
* `parseResult_eq` — it returns 0 exactly on the field lists `commandOf`
  knows, and then `*command` is that command;
* `tcpParserParse_wp` — for other threads' sake: behind the tokenizer the parser issues
  nothing but reads of its fields.
-/
import SensorGateway.Interpretation
import SensorGateway.Tokenizer

open CString

namespace TcpParser

variable {D : Type} [Libc D]

/-! ### The command -/

/-- `parse_sensor` on the field strings. -/
def sensorResult (fields : List Bytes) (command : TcpCommand D) : ℤ × TcpCommand D :=
  match fields with
  | [_, id, x1, x2, x3, x4] =>
    if id = [] ∨ id.length ≥ 64 then (-1, command)
    else
      let sensor : SensorData D := ⟨id, Libc.zero, Libc.zero, Libc.zero, Libc.zero⟩
      match doubleOf x1 with
      | none => (-1, { command with data := .sensor sensor })
      | some d1 =>
        let sensor := { sensor with data_1 := d1 }
        match doubleOf x2 with
        | none => (-1, { command with data := .sensor sensor })
        | some d2 =>
          let sensor := { sensor with data_2 := d2 }
          match doubleOf x3 with
          | none => (-1, { command with data := .sensor sensor })
          | some d3 =>
            let sensor := { sensor with data_3 := d3 }
            match doubleOf x4 with
            | none => (-1, { command with data := .sensor sensor })
            | some d4 => (0, ⟨.sensorData, .sensor { sensor with data_4 := d4 }⟩)
  | _ => (-1, command)

/-- `parse_query` on the field strings. -/
def queryResult (fields : List Bytes) (command : TcpCommand D) : ℤ × TcpCommand D :=
  match fields with
  | [_, a, b] =>
    match intOf (Libc.longBits D) a, intOf (Libc.longBits D) b with
    | some s, some e => (0, ⟨.query, .query (if s > e then ⟨e, s⟩ else ⟨s, e⟩)⟩)
    | _, _ => (-1, command)
  | _ => (-1, command)

/-- `tcp_parser_parse` as a function of its input. -/
def parseResult (input : Bytes) (command : TcpCommand D) : ℤ × TcpCommand D :=
  if input.length ≥ TCP_PARSER_MAX_INPUT then (-1, command)
  else if (tokens 44 input).length > TCP_PARSER_MAX_FIELDS then (-1, zeroed)
  else
    match fieldsOf input with
    | [] => (-1, zeroed)
    | keyword :: rest =>
      if keyword = bytes "SENSOR" then sensorResult (keyword :: rest) zeroed
      else if keyword = bytes "QUERY" then queryResult (keyword :: rest) zeroed
      else if keyword = bytes "HELP" then
        if rest ≠ [] then (-1, zeroed) else (0, { zeroed with type := .help })
      else (-1, zeroed)

theorem Holds.load {b : ℕ} {mem : ParserMem} {fields : List Ptr} {strs : List Bytes}
    (h : Holds b (mem.buffers b) fields strs) {i : ℕ} {s : Bytes} (hs : strs[i]? = some s) :
    parserStep mem (.load (fieldAt fields i)) = (s, mem) := by
  obtain ⟨hlen, hget⟩ := List.forall₂_iff_get.mp h
  obtain ⟨hi, rfl⟩ := List.getElem?_eq_some_iff.mp hs
  have hi' : i < fields.length := by omega
  obtain ⟨hb, hk⟩ := hget i hi' hi
  have hf : fieldAt fields i = fields[i] := by simp [fieldAt, hi']
  rw [hf]
  show (cstr (mem.buffers _) _, mem) = _
  rw [List.get_eq_getElem] at hb hk
  rw [hb, hk.cstr_eq]
  rfl

theorem Holds.load_bind {b n : ℕ} {mem : ParserMem} {fields : List Ptr} {strs : List Bytes}
    (h : Holds b (mem.buffers b) fields strs) {i : ℕ} {s : Bytes} (hs : strs[i]? = some s)
    {α : Type} (k : Bytes → Parser α) :
    Prog.run parserStep n ((TcpParser.load (fieldAt fields i)).bind k) mem
      = Prog.run parserStep n (k s) mem := by
  show Prog.run parserStep n (k (parserStep mem (.load (fieldAt fields i))).1)
    (parserStep mem (.load (fieldAt fields i))).2 = _
  rw [h.load hs]

theorem Holds.parseDouble_bind {b n : ℕ} {mem : ParserMem} {fields : List Ptr}
    {strs : List Bytes} (h : Holds b (mem.buffers b) fields strs) {i : ℕ} {s : Bytes}
    (hs : strs[i]? = some s) {α : Type} (k : Option D → Parser α) :
    Prog.run parserStep n ((parseDouble (fieldAt fields i)).bind k) mem
      = Prog.run parserStep n (k (doubleOf s)) mem :=
  h.load_bind hs fun s => k (doubleOf s)

theorem Holds.parseInt_bind {b n : ℕ} {mem : ParserMem} {fields : List Ptr}
    {strs : List Bytes} (h : Holds b (mem.buffers b) fields strs) {i : ℕ} {s : Bytes}
    (hs : strs[i]? = some s) (w : ℕ) {α : Type} (k : Option ℤ → Parser α) :
    Prog.run parserStep n ((parseInt w (fieldAt fields i)).bind k) mem
      = Prog.run parserStep n (k (intOf w s)) mem :=
  h.load_bind hs fun s => k (intOf w s)

theorem sensorResult_of_length {fields : List Bytes} (h : fields.length ≠ 6)
    (command : TcpCommand D) : sensorResult fields command = (-1, command) := by
  unfold sensorResult
  split
  · exact absurd rfl h
  · rfl

theorem queryResult_of_length {fields : List Bytes} (h : fields.length ≠ 3)
    (command : TcpCommand D) : queryResult fields command = (-1, command) := by
  unfold queryResult
  split
  · exact absurd rfl h
  · rfl

theorem parseSensor_run {b n : ℕ} {mem : ParserMem} {fields : List Ptr} {strs : List Bytes}
    (h : Holds b (mem.buffers b) fields strs) (command : TcpCommand D) :
    Prog.run parserStep n (parseSensor fields command) mem
      = some (sensorResult strs command, mem) := by
  have hlen : fields.length = strs.length := h.length_eq
  by_cases h6 : fields.length = 6
  · match strs, hlen.symm.trans h6 with
    | [k, id, x1, x2, x3, x4], _ =>
      simp only [parseSensor, h6, sensorResult, Prog.bind_eq, Prog.pure_eq]
      rw [if_neg (by simp), h.load_bind (i := 1) rfl]
      by_cases hid : id = []
      · simp [hid, Prog.run]
      rw [if_neg hid, h.load_bind (i := 1) rfl]
      by_cases hl : id.length ≥ 64
      · simp [hl, Prog.run]
      rw [if_neg hl, h.load_bind (i := 1) rfl, if_neg (by simp [hid, hl]),
        h.parseDouble_bind (i := 2) rfl]
      rcases doubleOf (D := D) x1 with _ | d1
      · rfl
      simp only
      rw [h.parseDouble_bind (i := 3) rfl]
      rcases doubleOf (D := D) x2 with _ | d2
      · rfl
      simp only
      rw [h.parseDouble_bind (i := 4) rfl]
      rcases doubleOf (D := D) x3 with _ | d3
      · rfl
      simp only
      rw [h.parseDouble_bind (i := 5) rfl]
      rcases doubleOf (D := D) x4 with _ | d4
      · rfl
      · rfl
  · rw [sensorResult_of_length (by omega)]
    simp only [parseSensor, Prog.pure_eq]
    rw [if_pos h6]
    rfl

theorem parseQuery_run {b n : ℕ} {mem : ParserMem} {fields : List Ptr} {strs : List Bytes}
    (h : Holds b (mem.buffers b) fields strs) (command : TcpCommand D) :
    Prog.run parserStep n (parseQuery fields command) mem
      = some (queryResult strs command, mem) := by
  have hlen : fields.length = strs.length := h.length_eq
  by_cases h3 : fields.length = 3
  · match strs, hlen.symm.trans h3 with
    | [k, x, y], _ =>
      simp only [parseQuery, h3, queryResult, Prog.bind_eq, Prog.pure_eq]
      rw [if_neg (by simp), h.parseInt_bind (i := 1) rfl]
      rcases intOf (Libc.longBits D) x with _ | s
      · rfl
      simp only
      rw [h.parseInt_bind (i := 2) rfl]
      rcases intOf (Libc.longBits D) y with _ | e
      · rfl
      · rfl
  · rw [queryResult_of_length (by omega)]
    simp only [parseQuery, Prog.pure_eq]
    rw [if_pos h3]
    rfl

/-- Run by any thread, on memory in any state, the parser returns a function of
its input and touches no buffer but its own. -/
theorem parse_run {b n : ℕ} {input : Bytes} (h0 : (0 : UInt8) ∉ input) (mem : ParserMem)
    (command : TcpCommand D) :
    ∃ mem', Prog.run parserStep n (tcpParserParse b input command) mem
        = some (parseResult input command, mem') ∧
      ∀ b', b' ≠ b → mem'.buffers b' = mem.buffers b' := by
  by_cases hlong : input.length ≥ TCP_PARSER_MAX_INPUT
  · refine ⟨mem, ?_, fun _ _ => rfl⟩
    simp only [tcpParserParse, parseResult, Prog.pure_eq]
    rw [if_pos hlong, if_pos hlong]
    rfl
  · set mem₁ := (parserStep mem (.strcpy b input)).2 with hmem₁
    have hbuf : mem₁.buffers b = input ++ 0 :: (mem.buffers b).drop (input.length + 1) :=
      Function.update_self ..
    obtain ⟨r, mem', hrun, hother, -, hr⟩ := splitFields_run n TCP_PARSER_MAX_FIELDS
      hbuf h0
    have hother' : ∀ b', b' ≠ b → mem'.buffers b' = mem.buffers b' := fun b' hb' =>
      (hother b' hb').trans (Function.update_of_ne hb' ..)
    refine ⟨mem', ?_, hother'⟩
    simp only [tcpParserParse, parseResult, Prog.pure_eq, Prog.bind_eq]
    rw [if_neg hlong, if_neg hlong]
    show Prog.run parserStep n ((splitFields (b, 0) TCP_PARSER_MAX_FIELDS).bind _) mem₁ = _
    rw [Prog.run_bind, hrun, Option.bind_some]
    -- split_fields gives up at the ninth field
    by_cases hmax : (tokens 44 input).length ≤ TCP_PARSER_MAX_FIELDS
    · rw [if_pos hmax, List.nil_append] at hr
      obtain ⟨fields, rfl, hold⟩ := hr
      rw [if_neg (by omega)]
      have hlen : fields.length = (fieldsOf input).length := hold.length_eq
      generalize fieldsOf input = strs at hold hlen
      rcases strs with _ | ⟨keyword, rest⟩
      · simp only
        rw [if_pos (by simpa using hlen)]
        rfl
      · simp only
        rw [if_neg (by simp [hlen]), hold.load_bind (i := 0) rfl]
        by_cases hS : keyword = bytes "SENSOR"
        · rw [if_pos hS, if_pos hS]
          exact parseSensor_run hold _
        rw [if_neg hS, if_neg hS, hold.load_bind (i := 0) rfl]
        by_cases hQ : keyword = bytes "QUERY"
        · rw [if_pos hQ, if_pos hQ]
          exact parseQuery_run hold _
        rw [if_neg hQ, if_neg hQ, hold.load_bind (i := 0) rfl]
        by_cases hH : keyword = bytes "HELP"
        · rw [if_pos hH, if_pos hH, hlen]
          by_cases hrest : rest = []
          · subst hrest
            rfl
          · rw [if_pos hrest, if_pos (by simpa using hrest)]
            rfl
        · rw [if_neg hH, if_neg hH]
          rfl
    · rw [if_neg hmax] at hr
      subst hr
      rw [if_pos (by omega)]
      rfl

theorem parseAlone_eq {input : Bytes} (h0 : (0 : UInt8) ∉ input) (command : TcpCommand D) :
    parseAlone input command = parseResult input command := by
  obtain ⟨mem', hrun, -⟩ := parse_run (b := 0) (n := 0) h0 freshMem command
  rw [parseAlone, hrun]

/-! ### Behind the tokenizer -/

/-- Reading one of the fields. -/
def Reads (fields : List Ptr) (o : ParserOp) : Prop :=
  ∃ i < fields.length, o = .load (fieldAt fields i)

section reads

variable {α : Type} {fields : List Ptr} {i : ℕ}

theorem load_reads (hi : i < fields.length) {k : Bytes → Parser α}
    (hk : ∀ s, Prog.Only (Reads fields) (k s)) :
    Prog.Only (Reads fields) ((load (fieldAt fields i)).bind k) :=
  .perform ⟨i, hi, rfl⟩ hk

theorem parseDouble_reads (hi : i < fields.length) {k : Option D → Parser α}
    (hk : ∀ d, Prog.Only (Reads fields) (k d)) :
    Prog.Only (Reads fields) ((parseDouble (fieldAt fields i)).bind k) :=
  load_reads hi (k := fun s => k (doubleOf s)) fun s => hk (doubleOf s)

theorem parseInt_reads {w : ℕ} (hi : i < fields.length) {k : Option ℤ → Parser α}
    (hk : ∀ v, Prog.Only (Reads fields) (k v)) :
    Prog.Only (Reads fields) ((parseInt w (fieldAt fields i)).bind k) :=
  load_reads hi (k := fun s => k (intOf w s)) fun s => hk (intOf w s)

theorem parseSensor_reads (fields : List Ptr) (command : TcpCommand D) :
    Prog.Only (Reads fields) (parseSensor fields command) := by
  simp only [parseSensor, Prog.bind_eq, Prog.pure_eq]
  by_cases h6 : fields.length = 6
  · rw [if_neg (by omega)]
    refine load_reads (by omega) fun id => ?_
    split
    · trivial
    refine load_reads (by omega) fun id => ?_
    split
    · trivial
    refine load_reads (by omega) fun id => parseDouble_reads (by omega) ?_
    rintro (_ | d1)
    · trivial
    refine parseDouble_reads (by omega) ?_
    rintro (_ | d2)
    · trivial
    refine parseDouble_reads (by omega) ?_
    rintro (_ | d3)
    · trivial
    refine parseDouble_reads (by omega) ?_
    rintro (_ | d4)
    · trivial
    · trivial
  · rw [if_pos h6]
    trivial

theorem parseQuery_reads (fields : List Ptr) (command : TcpCommand D) :
    Prog.Only (Reads fields) (parseQuery fields command) := by
  simp only [parseQuery, Prog.bind_eq, Prog.pure_eq]
  by_cases h3 : fields.length = 3
  · rw [if_neg (by omega)]
    refine parseInt_reads (by omega) ?_
    rintro (_ | a)
    · trivial
    refine parseInt_reads (by omega) ?_
    rintro (_ | b)
    · trivial
    · trivial
  · rw [if_pos h3]
    trivial

/-- The rule of the parser: what holds of the fields after `split_fields`, and is kept
by reading them, holds at the end. -/
theorem tcpParserParse_wp {W : Type} {R : Prog.OpSpec ParserOp ParserAns W} {w : W} {b : ℕ}
    {input : Bytes} {command : TcpCommand D} {I : List Ptr → W → Prop} {Q : W → Prop} (hQ : Q w)
    (hsplit : Prog.wp False R
      ((strcpy b input).bind fun _ => splitFields (b, 0) TCP_PARSER_MAX_FIELDS)
      (fun r w => Q w ∧ ∀ fields ∈ r, I fields w) w)
    (hread : ∀ fields w o, I fields w → Reads fields o →
      R.pre w o ∧ ∀ a w', R.post w o a w' → I fields w')
    (hI : ∀ fields w, I fields w → Q w) :
    Prog.wp False R (tcpParserParse b input command) (fun _ w => Q w) w := by
  simp only [tcpParserParse, Prog.bind_eq, Prog.pure_eq]
  split
  · exact hQ
  rw [← Prog.bind_assoc]
  refine Prog.wp_seq hsplit ?_
  rintro (_ | fields) w₁ ⟨hQ₁, hfields⟩
  · exact hQ₁
  refine Prog.wp_mono (fun _ w => hI fields w)
    (Prog.Only.wp (I := I fields) (hread fields) ?_ (hfields fields rfl))
  simp only
  by_cases h0 : fields.length = 0
  · rw [if_pos h0]
    trivial
  rw [if_neg h0]
  have hpos : 0 < fields.length := by omega
  refine load_reads hpos fun keyword => ?_
  split
  · exact parseSensor_reads fields zeroed
  refine load_reads hpos fun keyword => ?_
  split
  · exact parseQuery_reads fields zeroed
  refine load_reads hpos fun keyword => ?_
  split
  · split
    · trivial
    · trivial
  · trivial

end reads

/-! ### What is accepted -/

/-- The command a field list stands for. -/
def commandOf : List Bytes → Option (TcpCommand D)
  | [k, id, x1, x2, x3, x4] =>
    if k = bytes "SENSOR" ∧ id ≠ [] ∧ id.length < 64 then do
      let d1 ← doubleOf x1
      let d2 ← doubleOf x2
      let d3 ← doubleOf x3
      let d4 ← doubleOf x4
      some ⟨.sensorData, .sensor ⟨id, d1, d2, d3, d4⟩⟩
    else none
  | [k, x, y] =>
    if k = bytes "QUERY" then do
      let s ← intOf (Libc.longBits D) x
      let e ← intOf (Libc.longBits D) y
      some ⟨.query, .query ⟨min s e, max s e⟩⟩
    else none
  | [k] => if k = bytes "HELP" then some { zeroed with type := .help } else none
  | _ => none

/-- The command an input is accepted as. -/
def accepted (input : Bytes) : Option (TcpCommand D) :=
  if input.length < TCP_PARSER_MAX_INPUT then commandOf (fieldsOf input) else none

/-- The three forms of an accepted field list. -/
theorem commandOf_cases {fields : List Bytes} {cmd : TcpCommand D}
    (h : commandOf fields = some cmd) :
    (∃ id x1 x2 x3 x4 d1 d2 d3 d4, fields = [bytes "SENSOR", id, x1, x2, x3, x4] ∧
      id ≠ [] ∧ id.length < 64 ∧ doubleOf x1 = some d1 ∧ doubleOf x2 = some d2 ∧
      doubleOf x3 = some d3 ∧ doubleOf x4 = some d4 ∧
      cmd = ⟨.sensorData, .sensor ⟨id, d1, d2, d3, d4⟩⟩) ∨
    (∃ x y s e, fields = [bytes "QUERY", x, y] ∧ intOf (Libc.longBits D) x = some s ∧
      intOf (Libc.longBits D) y = some e ∧ cmd = ⟨.query, .query ⟨min s e, max s e⟩⟩) ∨
    (fields = [bytes "HELP"] ∧ cmd = { zeroed with type := .help }) := by
  unfold commandOf at h
  split at h
  · rename_i k id x1 x2 x3 x4
    split at h
    · rename_i hk
      obtain ⟨rfl, hid, hlen⟩ := hk
      simp only [Option.bind_eq_bind, Option.bind_eq_some_iff, Option.some.injEq] at h
      obtain ⟨d1, h1, d2, h2, d3, h3, d4, h4, rfl⟩ := h
      exact .inl ⟨id, x1, x2, x3, x4, d1, d2, d3, d4, rfl, hid, hlen, h1, h2, h3, h4, rfl⟩
    · cases h
  · rename_i k x y
    split at h
    · rename_i hk
      subst hk
      simp only [Option.bind_eq_bind, Option.bind_eq_some_iff, Option.some.injEq] at h
      obtain ⟨s, hs, e, he, rfl⟩ := h
      exact .inr (.inl ⟨x, y, s, e, rfl, hs, he, rfl⟩)
    · cases h
  · rename_i k
    split at h
    · rename_i hk
      subst hk
      exact .inr (.inr ⟨rfl, (Option.some.inj h).symm⟩)
    · cases h
  · cases h

/-- The first field decides which form it is. -/
theorem commandOf_keyword {k : Bytes} {rest : List Bytes} {cmd : TcpCommand D}
    (h : commandOf (k :: rest) = some cmd) :
    k = bytes "SENSOR" ∧ rest.length = 5 ∨ k = bytes "QUERY" ∧ rest.length = 2 ∨
      k = bytes "HELP" ∧ rest = [] := by
  rcases commandOf_cases h with
    ⟨id, x1, x2, x3, x4, _, _, _, _, hf, -⟩ | ⟨x, y, _, _, hf, -⟩ | ⟨hf, -⟩
  · obtain ⟨rfl, rfl⟩ := List.cons.inj hf
    exact .inl ⟨rfl, rfl⟩
  · obtain ⟨rfl, rfl⟩ := List.cons.inj hf
    exact .inr (.inl ⟨rfl, rfl⟩)
  · obtain ⟨rfl, rfl⟩ := List.cons.inj hf
    exact .inr (.inr ⟨rfl, rfl⟩)

theorem keywords_ne : bytes "SENSOR" ≠ bytes "QUERY" ∧ bytes "SENSOR" ≠ bytes "HELP" ∧
    bytes "QUERY" ≠ bytes "HELP" := by decide

/-- A result that is the command of the fields, or an error when there is none. -/
def Agrees (r : ℤ × TcpCommand D) (fields : List Bytes) : Prop :=
  (∀ cmd, commandOf fields = some cmd → r = (0, cmd)) ∧
    ((commandOf fields : Option (TcpCommand D)) = none → r.1 = -1)

theorem Agrees.reject {r : ℤ × TcpCommand D} {fields : List Bytes} (hr : r.1 = -1)
    (h : ∀ cmd : TcpCommand D, commandOf fields ≠ some cmd) : Agrees r fields :=
  ⟨fun cmd hc => absurd hc (h cmd), fun _ => hr⟩

theorem sensorResult_agrees (rest : List Bytes) (command : TcpCommand D) :
    Agrees (sensorResult (bytes "SENSOR" :: rest) command) (bytes "SENSOR" :: rest) := by
  obtain ⟨hSQ, hSH, -⟩ := keywords_ne
  by_cases h5 : rest.length = 5
  · match rest, h5 with
    | [id, x1, x2, x3, x4], _ =>
      simp only [Agrees, commandOf, sensorResult, true_and]
      by_cases hid : id ≠ [] ∧ id.length < 64
      · rw [if_pos hid, if_neg (by simp only [not_or, not_le]; exact hid)]
        rcases doubleOf (D := D) x1 with _ | d1
        · exact ⟨fun cmd h => by simp at h, fun _ => rfl⟩
        rcases doubleOf (D := D) x2 with _ | d2
        · exact ⟨fun cmd h => by simp at h, fun _ => rfl⟩
        rcases doubleOf (D := D) x3 with _ | d3
        · exact ⟨fun cmd h => by simp at h, fun _ => rfl⟩
        rcases doubleOf (D := D) x4 with _ | d4
        · exact ⟨fun cmd h => by simp at h, fun _ => rfl⟩
        exact ⟨fun cmd h => by simpa using h, fun h => by simp at h⟩
      · rw [if_neg hid, if_pos (by by_contra hc; exact hid (by simpa [not_or] using hc))]
        exact ⟨fun cmd h => by simp at h, fun _ => rfl⟩
  · rw [sensorResult_of_length (by simpa using h5)]
    refine .reject rfl fun cmd h => ?_
    rcases commandOf_keyword h with ⟨-, h⟩ | ⟨h, -⟩ | ⟨h, -⟩
    · exact h5 h
    · exact hSQ h
    · exact hSH h

theorem queryResult_agrees (rest : List Bytes) (command : TcpCommand D) :
    Agrees (queryResult (bytes "QUERY" :: rest) command) (bytes "QUERY" :: rest) := by
  obtain ⟨hSQ, -, hQH⟩ := keywords_ne
  by_cases h2 : rest.length = 2
  · match rest, h2 with
    | [x, y], _ =>
      simp only [Agrees, commandOf, queryResult, if_true]
      rcases intOf (Libc.longBits D) x with _ | s
      · exact ⟨fun cmd h => by simp at h, fun _ => rfl⟩
      rcases intOf (Libc.longBits D) y with _ | e
      · exact ⟨fun cmd h => by simp at h, fun _ => rfl⟩
      refine ⟨fun cmd h => ?_, fun h => by simp at h⟩
      obtain rfl := by simpa using h
      simp only
      by_cases hse : s > e
      · rw [if_pos hse, min_eq_right (by omega), max_eq_left (by omega)]
      · rw [if_neg hse, min_eq_left (by omega), max_eq_right (by omega)]
  · rw [queryResult_of_length (by simpa using h2)]
    refine .reject rfl fun cmd h => ?_
    rcases commandOf_keyword h with ⟨h, -⟩ | ⟨-, h⟩ | ⟨h, -⟩
    · exact hSQ h.symm
    · exact h2 h
    · exact hQH h

/-- The return code and the command, from `accepted`. -/
theorem parseResult_eq (input : Bytes) (command : TcpCommand D) :
    (∀ cmd, accepted input = some cmd → parseResult input command = (0, cmd)) ∧
    ((accepted input : Option (TcpCommand D)) = none → (parseResult input command).1 = -1) := by
  unfold accepted parseResult
  by_cases hlong : input.length < TCP_PARSER_MAX_INPUT
  · rw [if_pos hlong, if_neg (by omega)]
    by_cases hmax : (tokens 44 input).length > TCP_PARSER_MAX_FIELDS
    · rw [if_pos hmax]
      -- no command has more than six fields
      refine Agrees.reject rfl fun cmd h => ?_
      have hlen : (fieldsOf input).length > 8 := by rwa [fieldsOf, List.length_map]
      rcases hf : fieldsOf input with _ | ⟨k, rest⟩
      · simp [hf] at hlen
      · rw [hf] at h hlen
        rw [List.length_cons] at hlen
        rcases commandOf_keyword h with ⟨-, h⟩ | ⟨-, h⟩ | ⟨-, rfl⟩
        · omega
        · omega
        · simp at hlen
    · rw [if_neg hmax]
      rcases fieldsOf input with _ | ⟨k, rest⟩
      · exact Agrees.reject rfl fun cmd h => by simp [commandOf] at h
      simp only
      by_cases hS : k = bytes "SENSOR"
      · rw [if_pos hS, hS]
        exact sensorResult_agrees rest _
      by_cases hQ : k = bytes "QUERY"
      · rw [if_neg hS, if_pos hQ, hQ]
        exact queryResult_agrees rest _
      rw [if_neg hS, if_neg hQ]
      by_cases hH : k = bytes "HELP" ∧ rest = []
      · obtain ⟨rfl, rfl⟩ := hH
        exact ⟨fun cmd h => by simpa [commandOf] using h, fun h => by simp [commandOf] at h⟩
      · refine Agrees.reject ?_ fun cmd h => ?_
        · by_cases hk : k = bytes "HELP"
          · rw [if_pos hk, if_pos fun hr => hH ⟨hk, hr⟩]
          · rw [if_neg hk]
        · rcases commandOf_keyword h with ⟨h, -⟩ | ⟨h, -⟩ | h
          · exact hS h
          · exact hQ h
          · exact hH h
  · rw [if_neg hlong, if_pos (by omega)]
    exact ⟨fun cmd h => by simp at h, fun _ => rfl⟩

end TcpParser
