/-
Where the threads of the server send.

`Sending fd p`: every `send` of `p` is made inside a call of `tcp_server_send` on
`fd`.  It is kept by every step of `p` (`Sending.step`, `Sending.unroll`) and holds
of the thread of a client (`tcpClientThread_sending`).
-/
import SensorGateway.SqlCalls
import SensorGateway.TcpServer

open CString Sqlite TcpParser

namespace SensorGateway

variable {D : Type} [Libc D] {fd : ℤ} {α β : Type}

/-- What `tcp_server_send` does after an answer of `send`; `k` is its caller. -/
def sendNext (fd : ℤ) (data : Bytes) (total_sent : ℕ) (k : ℤ → Sys D α) : SendRc → Sys D α
  | .eintr => .iter (sendTurn fd data) total_sent k
  | .error => k (-1)
  | .sent sent =>
    if sent = 0 then k (-1) else .iter (sendTurn fd data) (total_sent + sent) k

omit [Libc D] in
theorem unroll_sendTurn (fd : ℤ) (data : Bytes) (total_sent : ℕ) (k : ℤ → Sys D α) :
    Prog.unroll (sendTurn fd data) total_sent k
      = if total_sent < data.length then
          .call (.send fd data total_sent) (sendNext fd data total_sent k)
        else k 0 := by
  rw [Prog.unroll]
  simp only [sendTurn, Prog.bind_eq, Prog.pure_eq]
  by_cases h : total_sent < data.length
  · rw [if_pos h, if_pos h, send, Prog.perform_bind, Prog.call_bind]
    congr 1
    funext a
    cases a with
    | eintr => rfl
    | error => rfl
    | sent n =>
      simp only [sendNext]
      by_cases hn : n = 0
      · rw [if_pos hn, if_pos hn]
        rfl
      · rw [if_neg hn, if_neg hn]
        rfl
  · rw [if_neg h, if_neg h]
    rfl

/-- A program that sends on `fd` only, by `tcp_server_send`. -/
inductive Sending (fd : ℤ) : {α : Type} → Sys D α → Prop
  | ret {α : Type} (a : α) : Sending fd (.ret a)
  | call {α : Type} {o : SysOp D} {k : SysAns o → Sys D α}
      (ho : ∀ fd' data n, o ≠ .send fd' data n) (hk : ∀ a, Sending fd (k a)) :
      Sending fd (.call o k)
  | iter {α σ ρ : Type} {body : σ → Sys D (σ ⊕ ρ)} {s : σ} {k : ρ → Sys D α}
      (hb : ∀ s, Sending fd (body s)) (hk : ∀ r, Sending fd (k r)) : Sending fd (.iter body s k)
  /-- A call of `tcp_server_send`, -/
  | start {α : Type} {data : Bytes} {n : ℕ} {k : ℤ → Sys D α} (hk : ∀ r, Sending fd (k r)) :
      Sending fd (.iter (sendTurn fd data) n k)
  /-- and one that is about to call `send`. -/
  | send {α : Type} {data : Bytes} {n : ℕ} {k : ℤ → Sys D α} (hk : ∀ r, Sending fd (k r)) :
      Sending fd (.call (.send fd data n) (sendNext fd data n k))

omit [Libc D] in
theorem Sending.bind {p : Sys D α} {f : α → Sys D β} (hp : Sending fd p)
    (hf : ∀ a, Sending fd (f a)) : Sending fd (p.bind f) := by
  induction hp with
  | ret a => exact hf a
  | call ho _ ih => exact .call ho fun a => ih a hf
  | iter hb _ _ ih => exact .iter hb fun r => ih r hf
  | start _ ih => exact .start fun r => ih r hf
  | @send _ data n k _ ih =>
    have hnext : (fun a => (sendNext fd data n k a).bind f)
        = sendNext fd data n fun r => (k r).bind f := by
      funext a
      cases a with
      | eintr => rfl
      | error => rfl
      | sent m =>
        simp only [sendNext]
        split <;> rfl
    rw [Prog.call_bind, hnext]
    exact .send fun r => ih r hf

omit [Libc D] in
/-- What is left after an operation. -/
theorem Sending.step {o : SysOp D} {k : SysAns o → Sys D α} (h : Sending fd (.call o k))
    (a : SysAns o) : Sending fd (k a) := by
  cases h with
  | call _ hk => exact hk a
  | send hk =>
    cases a with
    | eintr => exact .start hk
    | error => exact hk _
    | sent m =>
      simp only [sendNext]
      split
      · exact hk _
      · exact .start hk

omit [Libc D] in
/-- The first turn of a loop. -/
theorem Sending.unroll {σ ρ : Type} {body : σ → Sys D (σ ⊕ ρ)} {s : σ} {k : ρ → Sys D α}
    (h : Sending fd (.iter body s k)) : Sending fd (Prog.unroll body s k) := by
  cases h with
  | iter hb hk =>
    refine (hb s).bind ?_
    rintro (s' | r)
    · exact .iter hb hk
    · exact hk r
  | start hk =>
    rw [unroll_sendTurn]
    split
    · exact .send hk
    · exact hk 0

/-! ### The functions of the server -/

omit [Libc D] in
/-- A program that calls SQLite only. -/
theorem Sending.of_calls {p : Sys D α} (h : Calls isSql p) : Sending fd p := by
  induction p with
  | ret a => exact .ret a
  | call o k ih =>
    refine .call ?_ fun a => ih a (h.2 a)
    rintro fd' data n rfl
    cases h.1
  | iter body s k ihb ihk => exact .iter (fun s => ihb s (h.1 s)) fun r => ihk r (h.2 r)

omit [Libc D] in
theorem sensorServiceHandleData_sending (service : Option SensorService) (data : SensorData D) :
    Sending fd (sensorServiceHandleData service data) := by
  simp only [sensorServiceHandleData, Prog.bind_eq, Prog.pure_eq]
  split
  · split
    · exact .ret _
    split
    · exact .ret _
    refine (Sending.of_calls (sqliteDbInsertSensor_sql _ _ _ _ _ _)).bind fun ret => ?_
    split
    · exact .ret _
    · exact .ret _
  · exact .ret _

omit [Libc D] in
theorem gatewayBuildHelp_sending (gateway : Gateway) (output : Bytes) (output_size : ℕ) :
    Sending fd (gatewayBuildHelp gateway output output_size : Sys D _) := by
  have hrange : ∀ service, Sending fd (dataServiceGetIdRange service 0 0 : Sys D IdRange) := by
    intro service
    simp only [dataServiceGetIdRange, Prog.pure_eq]
    split
    · split
      · exact .ret _
      · exact .of_calls (sqliteDbGetIdRange_sql _ _ _)
    · exact .ret _
  simp only [gatewayBuildHelp, Prog.bind_eq, Prog.pure_eq]
  split
  · exact .ret _
  refine (hrange _).bind fun range => ?_
  split
  · exact .ret _
  · exact .ret _

theorem gatewayHandleQuery_sending (gateway : Gateway) (start_id end_id : ℤ)
    {handler : Bytes → Sys D ℤ} (hh : ∀ text, Sending fd (handler text)) :
    Sending fd (gatewayHandleQuery gateway start_id end_id handler) := by
  have hbatch : ∀ service last_id buffer size next_id row_count first, Sending fd
      (dataServiceQueryNextBatch service last_id end_id buffer size next_id row_count first :
        Sys D Batch) := by
    intro service last_id buffer size next_id row_count first
    simp only [dataServiceQueryNextBatch, Prog.pure_eq]
    split
    · split
      · exact .ret _
      · exact .of_calls (sqliteDbQueryNextBatch_sql _ _ _ _ _ _ _ _)
    · exact .ret _
  refine .iter (fun q => ?_) .ret
  simp only [queryTurn, Prog.bind_eq, Prog.pure_eq]
  refine (hbatch _ _ _ _ _ _ _).bind fun b => ?_
  split
  · exact .ret _
  split
  · exact .ret _
  refine (hh _).bind fun rc => ?_
  split
  · exact .ret _
  · exact .ret _

theorem gatewayProcess_sending (gateway : Option Gateway) (input output : Bytes) (size : ℕ)
    {handler : Option (Bytes → Sys D ℤ)} (hh : ∀ f ∈ handler, ∀ text, Sending fd (f text)) :
    Sending fd (gatewayProcess gateway input output size handler) := by
  simp only [gatewayProcess, Prog.bind_eq, Prog.pure_eq]
  split
  · split
    · exact .ret _
    split
    · exact .ret _
    split
    · refine (sensorServiceHandleData_sending _ _).bind fun rc => ?_
      split
      · exact .ret _
      · exact .ret _
    · split
      · rename_i f
        exact (gatewayHandleQuery_sending _ _ _ (hh f rfl)).bind fun rc => .ret _
      · exact .ret _
    · exact gatewayBuildHelp_sending _ _ _
    · exact .ret _
  · exact .ret _

omit [Libc D] in
theorem tcpServerSend_sending (fd : ℤ) (data : Bytes) :
    Sending fd (tcpServerSend fd data : Sys D ℤ) := by
  simp only [tcpServerSend, Prog.pure_eq]
  split
  · exact .ret _
  · exact .start .ret

theorem clientHandler_sending (gateway : Option Gateway) (fd : ℤ) (event : TcpClientEvent)
    (data : Bytes) : Sending fd (clientHandler gateway fd event data : Sys D ℤ) := by
  have houtput : ∀ text, Sending fd (gatewayOutputHandler fd text : Sys D ℤ) := by
    intro text
    simp only [gatewayOutputHandler, Prog.bind_eq, Prog.pure_eq]
    split
    · exact .ret _
    refine (tcpServerSend_sending fd text).bind fun rc => ?_
    split
    · exact .ret _
    · exact .ret _
  have hsend : ∀ (text : Bytes) (k : ℤ → Sys D ℤ), (∀ rc, Sending fd (k rc)) →
      Sending fd ((tcpServerSend fd text).bind k) :=
    fun text k hk => (tcpServerSend_sending fd text).bind hk
  simp only [clientHandler, Prog.bind_eq, Prog.pure_eq]
  split
  · exact .ret _
  split
  · refine hsend _ _ fun rc => ?_
    split
    · exact .ret _
    · exact .ret _
  · exact .ret _
  · split
    · exact .ret _
    split
    · exact .ret _
    -- the batches go out during the call, the reply or ERROR after it
    refine (gatewayProcess_sending _ _ _ _ ?_).bind fun x => ?_
    · rintro f ⟨⟩
      exact houtput
    split
    · exact hsend _ _ fun _ => .ret _
    split
    · refine hsend _ _ fun rc => ?_
      split
      · exact .ret _
      · exact .ret _
    · exact .ret _

theorem tcpClientThread_sending (gateway : Option Gateway) (fd : ℤ) :
    Sending fd (tcpClientThread (clientHandler gateway) fd : Sys D Unit) := by
  have hnotify : ∀ event data, Sending fd
      (notify (clientHandler gateway) fd event data : Sys D Unit) := by
    intro event data
    simp only [notify, Prog.bind_eq, Prog.pure_eq]
    refine .call (by simp) fun set => ?_
    rw [Prog.ret_bind]
    split
    · exact (clientHandler_sending gateway fd event data).bind fun _ => .ret _
    · exact .ret _
  simp only [tcpClientThread, Prog.bind_eq]
  refine (hnotify _ _).bind fun _ => .iter (fun _ => ?_) fun _ =>
    .call (by simp) .ret
  simp only [clientTurn, Prog.bind_eq, Prog.pure_eq]
  refine .call (by simp) fun running => ?_
  rw [Prog.ret_bind]
  split
  · refine .call (by simp) fun received => ?_
    rw [Prog.ret_bind]
    split
    · exact (hnotify _ _).bind fun _ => .ret _
    · exact (hnotify _ _).bind fun _ => .ret _
    · exact .ret _
    · exact .ret _
  · exact .ret _

end SensorGateway
