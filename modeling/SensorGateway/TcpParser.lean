/-
protocol/tcp/tcp_parser.c: the command parser, tokenizing its buffer in place.

`tcpParserParse b input command` is the C function run by the client thread
that owns buffer `b`.  It is a program over the operations through which the C
code touches memory: `strcpy`, the process-wide `strtok`, `trim`, and reading a
field back as a C string.  A pointer names a buffer and an offset, because the
saved pointer of `strtok` may lead into the buffer of another thread.

`parserStep` gives the operations their meaning and `parseAlone` is the parser
with the process to itself.
-/
import SensorGateway.Interaction
import SensorGateway.Libc

open CString

namespace TcpParser

variable {D : Type} [Libc D]

def TCP_PARSER_MAX_FIELDS : ℕ := 8
def TCP_PARSER_MAX_INPUT : ℕ := 256

/-! ### Commands -/

inductive TcpCommandType
  | invalid | sensorData | query | help
  deriving DecidableEq

structure SensorData (D : Type) where
  device_id : Bytes
  data_1 : D
  data_2 : D
  data_3 : D
  data_4 : D
  deriving DecidableEq

structure QueryCommand where
  start_id : ℤ
  end_id : ℤ
  deriving DecidableEq

/-- The union inside `tcp_command_t`. -/
inductive CommandData (D : Type)
  | sensor (d : SensorData D)
  | query (q : QueryCommand)
  deriving DecidableEq

structure TcpCommand (D : Type) where
  type : TcpCommandType
  data : CommandData D
  deriving DecidableEq

/-- `memset(command, 0, sizeof(*command))`. -/
def zeroed : TcpCommand D :=
  ⟨.invalid, .sensor ⟨[], Libc.zero, Libc.zero, Libc.zero, Libc.zero⟩⟩

/-! ### Memory operations -/

/-- A buffer and an offset in it. -/
abbrev Ptr := ℕ × ℕ

inductive ParserOp
  | strcpy (buffer : ℕ) (src : Bytes)
  /-- `strtok(str, ",")`; `none` is the NULL that continues a scan. -/
  | strtok (str : Option Ptr)
  | trim (str : Ptr)
  /-- Read the C string a field points to. -/
  | load (str : Ptr)

abbrev ParserAns : ParserOp → Type
  | .strcpy _ _ => Unit
  | .strtok _ => Option Ptr
  | .trim _ => Ptr
  | .load _ => Bytes

abbrev Parser := Prog ParserOp ParserAns

/-- The stack buffers of all threads and the saved pointer of `strtok`. -/
structure ParserMem where
  buffers : ℕ → Bytes
  saved : Option Ptr

/-- `while (isspace(*str)) str++`, over the bytes from `str` on. -/
def skipSpaces : Bytes → ℕ → ℕ
  | [], str => str
  | c :: r, str => if isspace c then skipSpaces r (str + 1) else str

/-- `while (end > str && isspace(*end)) end--`. -/
def backSpaces (m : Bytes) (str : ℕ) : ℕ → ℕ
  | 0 => 0
  | e + 1 => if e + 1 > str ∧ isspace (m.getD (e + 1) 0) then backSpaces m str e else e + 1

/-- `trim`: the new start of the string and the buffer it has been cut in. -/
def trim (m : Bytes) (str : ℕ) : ℕ × Bytes :=
  let str := skipSpaces (m.drop str) str
  if m.getD str 0 = 0 then (str, m)
  else
    let stop := backSpaces m str (str + (cstr m str).length - 1)
    (str, m.set (stop + 1) 0)

/-- `strtok(NULL, ",")` or `strtok(str, ",")`, from where the scan starts. -/
def strtokFrom (m : ParserMem) (start : Option Ptr) : Option Ptr × ParserMem :=
  match start with
  | none => (none, m)
  | some p =>
    let r := CString.strtok 44 (m.buffers p.1) p.2
    (r.token.map fun i => (p.1, i),
      ⟨Function.update m.buffers p.1 r.buffer, some (p.1, r.saved)⟩)

def parserStep (m : ParserMem) : (o : ParserOp) → ParserAns o × ParserMem
  | .strcpy b src =>
    ((), { m with buffers := Function.update m.buffers b
                    (src ++ 0 :: (m.buffers b).drop (src.length + 1)) })
  | .strtok str => strtokFrom m (str <|> m.saved)
  | .trim str =>
    let r := trim (m.buffers str.1) str.2
    ((str.1, r.1), { m with buffers := Function.update m.buffers str.1 r.2 })
  | .load str => (cstr (m.buffers str.1) str.2, m)

/-! ### The C functions -/

def strcpy (buffer : ℕ) (src : Bytes) : Parser Unit :=
  Prog.perform (ParserOp.strcpy buffer src)
def strtok (str : Option Ptr) : Parser (Option Ptr) :=
  Prog.perform (ParserOp.strtok str)
def trimField (str : Ptr) : Parser Ptr := Prog.perform (ParserOp.trim str)
def load (str : Ptr) : Parser Bytes := Prog.perform (ParserOp.load str)

/-- The loop of `split_fields` with room for `max_fields - count` more fields. -/
def splitLoop : ℕ → Option Ptr → List Ptr → Parser (Option (List Ptr))
  | _, none, fields => return some fields
  | 0, some _, _ => return none
  | room + 1, some token, fields => do
    let field ← trimField token
    let token ← strtok none
    splitLoop room token (fields ++ [field])

/-- `split_fields`; `none` is its return value -1. -/
def splitFields (input : Ptr) (max_fields : ℕ) : Parser (Option (List Ptr)) := do
  let token ← strtok (some input)
  splitLoop max_fields token []

/-- `strtod(str, &end)` with the value, the offset of `end` and `errno != 0`. -/
def strtod (str : Bytes) : D × ℕ × Bool :=
  match strtodRest str with
  | none => (Libc.zero, 0, false)
  | some r =>
    let stop := str.length - r.length
    (Libc.toDouble (str.take stop), stop, Libc.rangeError D (str.take stop))

/-- The checks of `parse_double` on a string; `none` is its return value -1. -/
def doubleOf (str : Bytes) : Option D :=
  let (result, stop, err) := strtod str
  if stop = 0 ∨ stop ≠ str.length ∨ err then none else some result

def parseDouble (str : Ptr) : Parser (Option D) := return doubleOf (← load str)

/-- The checks of `parse_int` on a string; `none` is its return value -1. -/
def intOf (w : ℕ) (str : Bytes) : Option ℤ :=
  let r := strtol w str
  if r.endp = 0 ∨ r.endp ≠ str.length ∨ r.erange then none
  else if r.value < 0 ∨ r.value > 2147483647 then none
  else some r.value

def parseInt (w : ℕ) (str : Ptr) : Parser (Option ℤ) := return intOf w (← load str)

def fieldAt (fields : List Ptr) (i : ℕ) : Ptr := fields.getD i (0, 0)

def parseSensor (fields : List Ptr) (command : TcpCommand D) : Parser (ℤ × TcpCommand D) := do
  if fields.length ≠ 6 then
    return (-1, command)
  if (← load (fieldAt fields 1)) = [] then
    return (-1, command)
  if (← load (fieldAt fields 1)).length ≥ 64 then
    return (-1, command)
  let device_id ← load (fieldAt fields 1)
  let sensor : SensorData D := ⟨device_id, Libc.zero, Libc.zero, Libc.zero, Libc.zero⟩
  let some data_1 ← parseDouble (fieldAt fields 2)
    | return (-1, { command with data := .sensor sensor })
  let sensor := { sensor with data_1 := data_1 }
  let some data_2 ← parseDouble (fieldAt fields 3)
    | return (-1, { command with data := .sensor sensor })
  let sensor := { sensor with data_2 := data_2 }
  let some data_3 ← parseDouble (fieldAt fields 4)
    | return (-1, { command with data := .sensor sensor })
  let sensor := { sensor with data_3 := data_3 }
  let some data_4 ← parseDouble (fieldAt fields 5)
    | return (-1, { command with data := .sensor sensor })
  let sensor := { sensor with data_4 := data_4 }
  return (0, ⟨.sensorData, .sensor sensor⟩)

def parseQuery (fields : List Ptr) (command : TcpCommand D) : Parser (ℤ × TcpCommand D) := do
  if fields.length ≠ 3 then
    return (-1, command)
  let some start_id ← parseInt (Libc.longBits D) (fieldAt fields 1)
    | return (-1, command)
  let some end_id ← parseInt (Libc.longBits D) (fieldAt fields 2)
    | return (-1, command)
  -- Normalize reversed query range.
  let q : QueryCommand := if start_id > end_id then ⟨end_id, start_id⟩ else ⟨start_id, end_id⟩
  return (0, ⟨.query, .query q⟩)

/-- `tcp_parser_parse` on the buffer `b` of its thread: the return code and what
`*command` holds then. -/
def tcpParserParse (b : ℕ) (input : Bytes) (command : TcpCommand D) :
    Parser (ℤ × TcpCommand D) := do
  if input.length ≥ TCP_PARSER_MAX_INPUT then
    return (-1, command)
  strcpy b input
  let command := zeroed
  let some fields ← splitFields (b, 0) TCP_PARSER_MAX_FIELDS
    | return (-1, command)
  if fields.length = 0 then
    return (-1, command)
  if (← load (fieldAt fields 0)) = bytes "SENSOR" then
    parseSensor fields command
  else if (← load (fieldAt fields 0)) = bytes "QUERY" then
    parseQuery fields command
  else if (← load (fieldAt fields 0)) = bytes "HELP" then
    if fields.length ≠ 1 then
      return (-1, command)
    return (0, { command with type := .help })
  else
    return (-1, command)

/-- Memory before any thread has parsed. -/
def freshMem : ParserMem := ⟨fun _ => List.replicate TCP_PARSER_MAX_INPUT 0, none⟩

/-- The parser with the process to itself. -/
def parseAlone (input : Bytes) (command : TcpCommand D) : ℤ × TcpCommand D :=
  match Prog.run parserStep 0 (tcpParserParse 0 input command) freshMem with
  | some (r, _) => r
  | none => (-1, command)

end TcpParser
