/-
Clients that vanish, and SIGPIPE.

`send` with flags 0 on a connection that the peer has closed and reset raises
SIGPIPE.  No call of the server changes what SIGPIPE does, so it ends the process.

* `underSignals` — the steps of the threads while the process is alive;
* `alive_iff_unbroken` — the process lives in exactly the states reached without a
  `send` on a broken connection, and there a `send` that fails only makes
  `tcp_server_send` return -1;
* `reset_ends_process` — a client that asks for HELP and leaves ends the process.
-/
import SensorGateway.Clients
import SensorGateway.Sending

open CString Sqlite TcpParser Threads

namespace SensorGateway

variable {C : Type} [DecidableEq C] {D : Type} [Libc D] {env : Env D}

/-! ### The process -/

/-- What the other end of a connection has done. -/
structure Peer where
  closed : Bool
  reset : Bool
  deriving DecidableEq

/-- A `send` on the connection raises SIGPIPE. -/
def Peer.broken (p : Peer) : Bool := p.closed && p.reset

structure Process (C D : Type) where
  shared : Shared C D
  peer : C → Peer
  alive : Bool

def Process.close (p : Process C D) (t : C) : Process C D :=
  { p with peer := Function.update p.peer t { p.peer t with closed := true } }

def Process.reset (p : Process C D) (t : C) : Process C D :=
  { p with peer := Function.update p.peer t { p.peer t with reset := true } }

/-- A client closes or resets its connection. -/
inductive PeerEvent : Process C D → Process C D → Prop
  | close (t : C) (p : Process C D) : PeerEvent p (p.close t)
  | reset (t : C) (p : Process C D) : PeerEvent p (p.reset t)

/-- The operation is a `send` on a broken connection. -/
def raises (p : Process C D) (t : C) : SysOp D → Bool
  | .send _ _ _ => (p.peer t).broken
  | _ => false

/-- An operation of a thread of the process. -/
def underSignals (env : Env D) : Semantics C (SysOp D) SysAns (Local D) (Process C D) :=
  fun t x o a x' => x.2.alive = true ∧ x'.2.peer = x.2.peer ∧
    if raises x.2 t o then x'.1 = x.1 ∧ x'.2.shared = x.2.shared ∧ x'.2.alive = false
    else together env t (x.1, x.2.shared) o a (x'.1, x'.2.shared) ∧ x'.2.alive = true

/-- The same without a `send` on a broken connection. -/
def unbroken (env : Env D) : Semantics C (SysOp D) SysAns (Local D) (Process C D) :=
  fun t x o a x' => raises x.2 t o = false ∧ underSignals env t x o a x'

/-- The process before its clients' threads have taken a step. -/
def processStart (gateway : Option Gateway) (fd : C → ℤ) (incoming : C → List Bytes) (T : Table D) :
    Config C (SysOp D) SysAns (Local D) (Process C D) Unit where
  prog t := tcpClientThread (clientHandler gateway) (fd t)
  loc t := ⟨[], [], false, incoming t, [], []⟩
  shared := ⟨⟨T, []⟩, fun _ => ⟨false, false⟩, true⟩

/-! ### Runs without a send on a broken connection -/

/-- A `send` of client `t` that fails makes the call of `tcp_server_send` it
belongs to return -1 to its caller, and changes nothing else. -/
def FailsAlone (env : Env D) (fd : C → ℤ)
    (cfg : Config C (SysOp D) SysAns (Local D) (Process C D) Unit) (t : C) : Prop :=
  ∀ fd' data n k, cfg.prog t = .call (.send fd' data n) k → fd' = fd t ∧
    ∃ caller, k = sendNext fd' data n caller ∧ ∀ a l p, a = .error ∨ a = .sent 0 →
      unbroken env t (cfg.loc t, cfg.shared) (.send fd' data n) a (l, p) →
      k a = caller (-1) ∧ p.alive = true ∧ p.peer = cfg.shared.peer ∧
        p.shared.table = cfg.shared.shared.table

/-- The invariant that the steps keep. -/
structure Living (fd : C → ℤ) (cfg : Config C (SysOp D) SysAns (Local D) (Process C D) Unit) :
    Prop where
  alive : cfg.shared.alive = true
  sending : ∀ t, Sending (fd t) (cfg.prog t)

theorem unbroken_alive {t : C} {x x' : Local D × Process C D} {o : SysOp D} {a : SysAns o}
    (h : unbroken env t x o a x') :
    together env t (x.1, x.2.shared) o a (x'.1, x'.2.shared) ∧ x'.2.peer = x.2.peer ∧
      x'.2.alive = true := by
  obtain ⟨hraises, -, hpeer, h⟩ := h
  rw [hraises] at h
  exact ⟨h.1, hpeer, h.2⟩

theorem Living.step {fd : C → ℤ}
    {cfg cfg' : Config C (SysOp D) SysAns (Local D) (Process C D) Unit} (h : Living fd cfg)
    (hs : Step (unbroken env) PeerEvent cfg cfg') : Living fd cfg' := by
  cases hs with
  | @call t o k a l s hp hs =>
    refine ⟨(unbroken_alive hs).2.2, fun t' => ?_⟩
    by_cases ht : t' = t
    · subst ht
      have hsend := h.sending t'
      rw [hp] at hsend
      simpa using hsend.step a
    · simpa [ht] using h.sending t'
  | iter t hp =>
    refine ⟨h.alive, fun t' => ?_⟩
    by_cases ht : t' = t
    · subst ht
      have hsend := h.sending t'
      rw [hp] at hsend
      simpa using hsend.unroll
    · simpa [ht] using h.sending t'
  | env he =>
    refine ⟨?_, h.sending⟩
    cases he with
    | close t => exact h.alive
    | reset t => exact h.alive

theorem Living.failsAlone {fd : C → ℤ}
    {cfg : Config C (SysOp D) SysAns (Local D) (Process C D) Unit} (h : Living fd cfg) (t : C) :
    FailsAlone env fd cfg t := by
  intro fd' data n k hp
  have hsend := h.sending t
  rw [hp] at hsend
  cases hsend with
  | call ho _ => exact absurd rfl (ho _ _ _)
  | @send _ _ _ caller hk =>
    refine ⟨rfl, caller, rfl, fun a l p ha hstep => ?_⟩
    obtain ⟨⟨hans, -⟩, hpeer, halive⟩ := unbroken_alive hstep
    have htable : p.shared.table = cfg.shared.shared.table := by
      rcases hans with ⟨m, -, -, -, hview⟩ | ⟨-, -, hview⟩
      · exact congrArg World.table hview
      · exact congrArg World.table hview
    refine ⟨?_, halive, hpeer, htable⟩
    rcases ha with rfl | rfl
    · rfl
    · rfl

/-- A step that leaves the process alive is not a `send` on a broken connection. -/
theorem unbroken_of_alive
    {cfg cfg' : Config C (SysOp D) SysAns (Local D) (Process C D) Unit}
    (hs : Step (underSignals env) PeerEvent cfg cfg') (h : cfg'.shared.alive = true) :
    cfg.shared.alive = true ∧ Step (unbroken env) PeerEvent cfg cfg' := by
  cases hs with
  | call t hp hs =>
    refine ⟨hs.1, .call t hp ⟨?_, hs⟩⟩
    by_contra hraises
    have hif := hs.2.2
    rw [if_pos (by simpa using hraises)] at hif
    exact absurd (hif.2.2.symm.trans h) (by decide)
  | iter t hp => exact ⟨h, .iter t hp⟩
  | env he =>
    refine ⟨?_, .env he⟩
    cases he with
    | close t => exact h
    | reset t => exact h

/-- The process lives in exactly the states that are reached without a `send` on a
broken connection; there a `send` that fails concerns its client only. -/
theorem alive_iff_unbroken (env : Env D) (gateway : Option Gateway) (fd : C → ℤ)
    (incoming : C → List Bytes) (T : Table D)
    {cfg : Config C (SysOp D) SysAns (Local D) (Process C D) Unit}
    (hr : Reachable (underSignals env) PeerEvent (processStart gateway fd incoming T) cfg) :
    (cfg.shared.alive = true ∧ ∀ t, FailsAlone env fd cfg t) ↔
      Reachable (unbroken env) PeerEvent (processStart gateway fd incoming T) cfg := by
  constructor
  · rintro ⟨halive, -⟩
    induction hr with
    | refl => exact .refl
    | tail _ hs ih =>
      obtain ⟨hbefore, hstep⟩ := unbroken_of_alive hs halive
      exact (ih hbefore).tail hstep
  · intro hr
    have hstart : Living fd (processStart gateway fd incoming T) :=
      ⟨rfl, fun t => tcpClientThread_sending gateway (fd t)⟩
    have h : Living fd cfg := hr.invariant (fun _ _ h hs => h.step hs) hstart
    exact ⟨h.alive, h.failsAlone⟩

/-! ### A client that asks for HELP and leaves -/

/-- The answer when nothing fails but a `send` on a broken connection. -/
def signalling (env : Env D) (t : C) (x : Local D × Process C D) (o : SysOp D) :
    SysAns o × Local D × Process C D :=
  let r := quietly env t (x.1, x.2.shared) o
  if raises x.2 t o then (r.1, x.1, { x.2 with alive := false })
  else (r.1, r.2.1, { x.2 with shared := r.2.2 })

theorem signalling_underSignals (t : C) (x : Local D × Process C D) (o : SysOp D)
    (h : x.2.alive && mayIssue t (x.1, x.2.shared) o) :
    underSignals env t x o (signalling env t x o).1 (signalling env t x o).2 := by
  rw [Bool.and_eq_true] at h
  obtain ⟨halive, hmay⟩ := h
  have htogether : together env t (x.1, x.2.shared) o (quietly env t (x.1, x.2.shared) o).1
      (quietly env t (x.1, x.2.shared) o).2 := quietly_together t _ o hmay
  by_cases hraises : raises x.2 t o = true
  · have hdead : signalling env t x o = ((quietly env t (x.1, x.2.shared) o).1, x.1,
        { x.2 with alive := false }) := if_pos hraises
    rw [hdead]
    refine ⟨halive, rfl, ?_⟩
    rw [if_pos hraises]
    exact ⟨rfl, rfl, rfl⟩
  · have hlives : signalling env t x o = ((quietly env t (x.1, x.2.shared) o).1,
        (quietly env t (x.1, x.2.shared) o).2.1,
        { x.2 with shared := (quietly env t (x.1, x.2.shared) o).2.2 }) := if_neg hraises
    rw [hlives]
    refine ⟨halive, rfl, ?_⟩
    rw [if_neg hraises]
    exact ⟨htogether, halive⟩

/-- A server with one client. -/
abbrev OneClient :=
  Config Unit (SysOp Binary64) SysAns (Local Binary64) (Process Unit Binary64) Unit

/-- The client is going to send HELP. -/
def helpStart : OneClient :=
  processStart (some (openGateway 0)) (fun _ => 4) (fun _ => [bytes "HELP"]) ∅

/-- The server after `n` steps. -/
def afterSteps (n : ℕ) (cfg : OneClient) : OneClient :=
  schedule (signalling Env.counting) (List.replicate n ()) cfg

theorem afterSteps_reachable {n : ℕ} {cfg : OneClient}
    (h : allowed (signalling Env.counting)
      (fun t x o => x.2.alive && mayIssue t (x.1, x.2.shared) o) (List.replicate n ()) cfg) :
    Reachable (underSignals Env.counting) PeerEvent cfg (afterSteps n cfg) :=
  schedule_reachable (fun t x o h => signalling_underSignals t x o h) h

/-- The client has got the welcome and closed its end of the connection. -/
def helpClosed : OneClient :=
  ⟨(afterSteps 4 helpStart).prog, (afterSteps 4 helpStart).loc,
    (afterSteps 4 helpStart).shared.close ()⟩

theorem helpClosed_reachable :
    Reachable (underSignals Env.counting) PeerEvent helpStart helpClosed :=
  (afterSteps_reachable (by decide +kernel)).tail (.env (.close () _))

/-- HELP is sent to a client that has closed its end but not reset the connection. -/
theorem alive_iff_unbroken_help :
    (afterSteps 15 helpClosed).shared.alive = true ∧
      ∀ t, FailsAlone Env.counting (fun _ => 4) (afterSteps 15 helpClosed) t := by
  have hsem : ∀ t (x : Local Binary64 × Process Unit Binary64) o,
      (x.2.alive && mayIssue t (x.1, x.2.shared) o && !raises x.2 t o) = true →
      unbroken Env.counting t x o (signalling Env.counting t x o).1
        (signalling Env.counting t x o).2 := by
    intro t x o h
    rw [Bool.and_eq_true] at h
    exact ⟨by simpa using h.2, signalling_underSignals t x o h.1⟩
  have hclosed : Reachable (unbroken Env.counting) PeerEvent helpStart helpClosed :=
    (schedule_reachable hsem (by decide +kernel)).tail (.env (.close () _))
  have hunbroken : Reachable (unbroken Env.counting) PeerEvent helpStart
      (afterSteps 15 helpClosed) :=
    hclosed.trans (schedule_reachable hsem (by decide +kernel))
  have hr := helpClosed_reachable.trans (afterSteps_reachable (n := 15) (by decide +kernel))
  exact (alive_iff_unbroken Env.counting _ _ _ _ hr).mpr hunbroken

/-- The client has reset the connection as well. -/
def helpReset : OneClient :=
  ⟨helpClosed.prog, helpClosed.loc, helpClosed.shared.reset ()⟩

theorem reset_ends_process :
    ¬ ∀ cfg : OneClient, Reachable (underSignals Env.counting) PeerEvent
      (processStart (some (openGateway 0)) (fun _ => 4) (fun _ => [bytes "HELP"]) ∅) cfg →
      cfg.shared.alive = true := by
  intro h
  have hreset : Reachable (underSignals Env.counting) PeerEvent helpStart helpReset :=
    helpClosed_reachable.tail (.env (.reset () _))
  have hend := h (afterSteps 11 helpReset)
    (hreset.trans (afterSteps_reachable (by decide +kernel)))
  exact absurd hend (by decide +kernel)

end SensorGateway
