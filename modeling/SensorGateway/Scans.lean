/-
The whole program, down to the calls of strtok.

So far a command has been parsed in one step.  Here each thread runs `tcp_parser_parse`
with its operations as steps of their own, on the buffer in its own stack and on the
one pointer that `strtok` saves for the process.

* `gatewayProcessOver`, `askingThread` — the code with any way to parse;
* `scanning_answers` — as long as no other thread calls `strtok` in the middle of its
  scan, a thread's parser returns what it returns alone;
* `scans_serve` — runs in which this is so for all threads are runs of the whole
  program as before;
* `scans_converse` — so the clients see in them what they see there;
* `mixed_not_linearizable` — in other runs they may not.
-/
import SensorGateway.Expansion
import SensorGateway.SharedStrtok
import SensorGateway.WholeProgram

open CString Sqlite TcpParser Threads

namespace SensorGateway

variable {D : Type} [Libc D]

/-! ### gateway.c -/

/-- `gateway_process`, over any way to parse and to carry out the calls it makes. -/
def gatewayProcessOver {Op : Type} {Ans : Op → Type}
    (parse : Bytes → Prog Op Ans (ℤ × TcpCommand D)) (f : (o : SysOp D) → Prog Op Ans (SysAns o))
    (gateway : Option Gateway) (input output : Bytes) (output_size : ℕ)
    (output_handler : Option (Bytes → Sys D ℤ)) : Prog Op Ans (ℤ × Bytes) := do
  let some gateway := gateway
    | return (-1, output)
  if output_size = 0 then
    return (-1, output)
  let output := output.set 0 0
  let (rc, command) ← parse input
  if rc ≠ 0 then
    return (-1, output)
  match command.type with
  | .sensorData =>
    if (← (sensorServiceHandleData gateway.sensor_service (sensorMember command)).interp f) ≠ 0 then
      return (-1, output)
    return (0, (snprintf output 0 output_size (bytes "OK\n")).2)
  | .query =>
    let some output_handler := output_handler
      | return (-1, output)
    let q := queryMember command
    let rc ← (gatewayHandleQuery gateway q.start_id q.end_id output_handler).interp f
    return (rc, output)
  | .help => (gatewayBuildHelp gateway output output_size).interp f
  | .invalid => return (-1, output)

namespace Transport

open Prog (Mixed MixedAns)

/-! ### The threads -/

abbrev AskedAns (D : Type) : Mixed (NetOp D) Bytes → Type :=
  MixedAns NetAns fun _ => ℤ × TcpCommand D

/-- Programs that call `tcp_parser_parse` as one of their operations. -/
abbrev Asked (D : Type) := Prog (Mixed (NetOp D) Bytes) (AskedAns D)

def ask (o : NetOp D) : Asked D (NetAns o) := Prog.perform (Mixed.op o)

/-- `tcp_parser_parse(input, &command)`. -/
def askParser (input : Bytes) : Asked D (ℤ × TcpCommand D) := Prog.perform (Mixed.aux input)

def askingHandler (gateway : Option Gateway) (client_fd : ℤ) :
    TcpClientEvent → Bytes → Asked D ℤ :=
  clientHandlerOver gateway.isNone
    (fun text => (tcpServerSend client_fd text).interp fun o => ask (.outside o))
    fun input => do
      ask .process
      gatewayProcessOver askParser (fun o => ask (.inProcess o)) gateway input
        (List.replicate OUTPUT_BUFFER_SIZE 0) OUTPUT_BUFFER_SIZE
        (some (gatewayOutputHandler client_fd))

def onAsked (gateway : Option Gateway) : (o : ClientOp) → Asked D (ClientAns o)
  | .running => ask .running
  | .handler => ask .handler
  | .upcall client_fd event data => do
    ask .handlerArg
    askingHandler gateway client_fd event data
  | .recv fd size => ask (.recv fd size)
  | .close fd => ask (.close fd)

/-- The thread of a client. -/
def askingThread (gateway : Option Gateway) : Asked D ℤ := do
  let client_fd ← ask .begin
  (tcpClientThread client_fd).interp (onAsked gateway)
  return 0

/-- The buffer of `tcp_parser_parse` in the stack of a thread. -/
def Thread.stack : Thread → ℕ
  | .main => 0
  | .stop => 1
  | .client k => k + 2

theorem Thread.stack_injective {t t' : Thread} (h : t.stack = t'.stack) : t = t' := by
  cases t <;> cases t' <;> simp_all [Thread.stack]

def scanning (D : Type) [Libc D] (t : Thread) (input : Bytes) : Parser (ℤ × TcpCommand D) :=
  tcpParserParse t.stack input zeroed

/-- An operation of the parser of a thread. -/
def scans (t : Thread) (m : TcpParser.Process) (o : ParserOp) (a : ParserAns o)
    (m' : TcpParser.Process) : Prop := (a, m') = act t.stack m o

/-- The same, when the last `strtok` before one that goes on with a scan was called by
the same thread. -/
def scansUndisturbed (t : Thread) (m : TcpParser.Process) (o : ParserOp) (a : ParserAns o)
    (m' : TcpParser.Process) : Prop := Undisturbed t.stack m o ∧ scans t m o a m'

abbrev Scanning (D : Type) := Config Thread (Mixed (NetOp D) ParserOp) (MixedAns NetAns ParserAns)
  Unit (Whole D × TcpParser.Process) ℤ

/-- `programStart`, with the operations of the parser; `mem` is in the stacks. -/
def scanStart (c : ℕ) (server : TcpServer) (taken : ℤ → Bool) (incoming : ℕ → List Bytes)
    (T : Table D) (mem : ParserMem) : Scanning D where
  prog
    | .main => (mainServes (some server)).interp fun o => Prog.perform (Mixed.op o)
    | .stop => .ret 0
    | .client k =>
      (askingThread (some (openGateway c))).interp (Prog.expand (scanning D (.client k)))
  loc _ := ()
  shared := ((programStart c server taken incoming T).shared, ⟨mem, none⟩)

/-! ### What a scan returns -/

/-- The operations of a parser that is not disturbed, on the memory it sees. -/
def undisturbedly (t : Thread) : Prog.OpSpec ParserOp ParserAns ParserMem where
  pre _ o := OwnOp t.stack o
  post m o a m' := (a, m') = parserStep m o ∧ OwnAns t.stack o a

/-- The memory a thread takes the stacks and the saved pointer for. -/
def SeesMem (t : Thread) (m : ParserMem) (s : TcpParser.Process) : Prop := Follows t.stack s m

theorem SeesMem.step {t : Thread} {m : ParserMem} {s s' : TcpParser.Process} {o : ParserOp}
    {a : ParserAns o} (h : SeesMem t m s) (hop : OwnOp t.stack o)
    (hs : scansUndisturbed t s o a s') :
    (∃ m', (undisturbedly t).post m o a m' ∧ SeesMem t m' s') ∧
      ∀ t', t' ≠ t → ∀ m, SeesMem t' m s → SeesMem t' m s' := by
  obtain ⟨hund, heq⟩ := hs
  obtain ⟨rfl, rfl⟩ : a = (act t.stack s o).1 ∧ s' = (act t.stack s o).2 := Prod.mk.inj heq
  obtain ⟨hans, hfollows, hown⟩ := Follows.step h hop hund
  refine ⟨⟨(parserStep m o).2, ⟨?_, hown⟩, hfollows⟩, fun t' ht' m' h' => ?_⟩
  · rw [← hans]
  · exact Follows.other (fun heq => ht' (Thread.stack_injective heq).symm) h' h hop hund

/-! ### Runs -/

variable {env : Env D} {c : ℕ} {server : TcpServer} {taken : ℤ → Bool}
  {incoming : ℕ → List Bytes} {T : Table D} {mem : ParserMem}

/-- `carrying`, with the operations of the parsers. -/
def parsing (n : ℕ) (t : Thread) (x : Unit × Whole Binary64 × TcpParser.Process) :
    (o : Mixed (NetOp Binary64) ParserOp) →
      MixedAns NetAns ParserAns o × Unit × Whole Binary64 × TcpParser.Process
  | .op o => ((carrying n t (x.1, x.2.1) o).1, (), (carrying n t (x.1, x.2.1) o).2.2, x.2.2)
  | .aux o => ((act t.stack x.2.2 o).1, (), x.2.1, (act t.stack x.2.2 o).2)

def mayParse (ok : Thread → TcpParser.Process → ParserOp → Bool) (t : Thread)
    (x : Unit × Whole Binary64 × TcpParser.Process) : Mixed (NetOp Binary64) ParserOp → Bool
  | .op o => mayCarry t (x.1, x.2.1) o
  | .aux o => ok t x.2.2 o

theorem parsing_both
    {aux : Thread → TcpParser.Process → (o : ParserOp) → ParserAns o → TcpParser.Process → Prop}
    {ok : Thread → TcpParser.Process → ParserOp → Bool}
    (haux : ∀ t m o, ok t m o → aux t m o (act t.stack m o).1 (act t.stack m o).2) (n : ℕ)
    (t : Thread) (x : Unit × Whole Binary64 × TcpParser.Process)
    (o : Mixed (NetOp Binary64) ParserOp) (h : mayParse ok t x o = true) :
    both (whole Env.counting) aux t x o (parsing n t x o).1 (parsing n t x o).2 := by
  cases o with
  | op o => exact ⟨carrying_whole n t (x.1, x.2.1) o h, rfl⟩
  | aux o => exact ⟨rfl, rfl, haux t x.2.2 o h⟩

def mixedStart : Scanning Binary64 :=
  scanStart 3 ⟨bytes "127.0.0.1", 8888⟩ firstFour
    (fun k => [bytes (if k = 0 then "SENSOR,a,1,2,3,4" else "SENSOR,b,5,6,7,8")]) ∅ freshMem

/-- The second client's scan begins in the middle of the first one's, which goes on in
the second one's command. -/
def mixed : Scanning Binary64 :=
  schedule (parsing 2) (List.replicate 13 .main ++ List.replicate 14 (.client 0) ++
    List.replicate 5 .main ++ List.replicate 14 (.client 1) ++ List.replicate 37 (.client 0) ++
    List.replicate 12 (.client 1)) mixedStart

theorem mixed_reachable :
    Reachable (both (whole Env.counting) scans) (onFirst around) mixedStart mixed := by
  have haux : ∀ t m o, true → scans t m o (act t.stack m o).1 (act t.stack m o).2 :=
    fun _ _ _ _ => rfl
  exact schedule_reachable (parsing_both haux 2) (by decide +kernel)

/-- When a scan is disturbed, the reading of one client may be stored for the command of
another one, who is told so, and the client it came from is answered with ERROR. -/
theorem mixed_not_linearizable :
    mixed.shared.1.watch.history = [.call 0 (bytes "SENSOR,a,1,2,3,4"),
      .call 1 (bytes "SENSOR,b,5,6,7,8"), .ret 0 (bytes "OK\n", false),
      .ret 1 (errorResponse, false)] ∧
    mixed.shared.1.watch.shared.table.rows.map Row.device_id = [bytes "b"] ∧
    ¬ Atomic.Linearizable (Performs Env.counting) ∅ mixed.shared.1.watch.history
      mixed.shared.1.watch.shared.table := by
  have hhistory : mixed.shared.1.watch.history = [.call 0 (bytes "SENSOR,a,1,2,3,4"),
      .call 1 (bytes "SENSOR,b,5,6,7,8"), .ret 0 (bytes "OK\n", false),
      .ret 1 (errorResponse, false)] := by decide +kernel
  refine ⟨hhistory, by decide +kernel, ?_⟩
  rintro ⟨l, hlegal, hl⟩
  have hsplit : Atomic.events l = [.call 0 (bytes "SENSOR,a,1,2,3,4")] ++
      .call 1 (bytes "SENSOR,b,5,6,7,8") :: ([.ret 0 (bytes "OK\n", false)] ++
        .ret 1 (errorResponse, false) :: []) := hl.trans hhistory
  obtain ⟨T, T', hperforms⟩ := hlegal.answered hsplit (by simp [Atomic.Event.thread])
  have htype : (accepted (fmtStr (bytes "SENSOR,b,5,6,7,8")) : Option (TcpCommand Binary64)).map
      TcpCommand.type = some .sensorData := by decide +kernel
  obtain ⟨cmd, hcmd, htype⟩ := Option.map_eq_some_iff.mp htype
  rcases accepted_cases hcmd with ⟨d, rfl, -, -⟩ | ⟨s, e, rfl, -, -, -⟩ | rfl
  · exact absurd (hperforms.reading hcmd) (by decide)
  · cases htype
  · cases htype

end Transport

end SensorGateway
