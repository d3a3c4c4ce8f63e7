/-
The whole program: connections and commands together.

Here the threads of the clients are created by the accept loop, on descriptors that
are used again when they have been closed, and what goes over a descriptor belongs to
the connection that has it at the time.  Two parts of the state have been looked at on
their own: the network (`Connections`), where anything may be sent and stored, and the
service (`Linearized`), where each client has its thread and its connection from the
start.

* `served_step` — each step of the program is one of the service, or none of its concern;
* `program_refines` — so the program is, without the clients' data, the running server
  and, without descriptors and flags, the service;
* `program_converses` — on each connection go the commands and replies of one client,
  and together they are those of an object that serves one command at a time.

Design notes: the service is told from the start which descriptor a client is going to
get, which is known when the run is over (`Agrees`).
-/
import SensorGateway.Connections
import SensorGateway.Conversations
import SensorGateway.Visibility

open CString Sqlite Threads

namespace SensorGateway

namespace Transport

variable {D : Type} [Libc D] {env : Env D} {c : ℕ}

/-! ### The program -/

/-- The network, and what the clients' threads and connections have to themselves, the
`k`-th connection at `k`, with the table and the record. -/
structure Whole (D : Type) where
  net : State × Owners
  clients : ℕ → Local D
  watch : Watch ℕ D

/-- Whose data an operation is about: a descriptor stands for the connection that has
it, and SQLite is called on the statements of the thread. -/
def party (g : Owners) : Thread → SysOp D → Option ℕ
  | _, .send fd _ _ => g fd
  | _, .recv fd _ => g fd
  | .client k, _ => some k
  | _, _ => none

/-- What is stored, sent and received. -/
def exchanges (env : Env D) (t : Thread) (x : Whole D) (o : SysOp D) (a : SysAns o) (x' : Whole D) :
    Prop :=
  match party x.net.2 t o with
  | some k => ∃ l w, watched env k (x.clients k, x.watch) o a (l, w) ∧
      x'.clients = Function.update x.clients k l ∧ x'.watch = w
  | none => x'.clients = x.clients ∧ x'.watch = x.watch

def carries (env : Env D) (t : Thread) (x : Whole D) : (o : NetOp D) → NetAns o → Whole D → Prop
  | .recv fd size, a, x' => exchanges env t x (.recv fd size) a x'
  | .inProcess o, a, x' => exchanges env t x o a x'
  | .outside o, a, x' => exchanges env t x o a x'
  | _, _, x' => x'.clients = x.clients ∧ x'.watch = x.watch

/-- An operation, on the network and on the data. -/
def whole (env : Env D) : Semantics Thread (NetOp D) NetAns Unit (Whole D) := fun t x o a x' =>
  owning t (x.1, x.2.net) o a (x'.1, x'.2.net) ∧ carries env t x.2 o a x'.2

/-- The other parts of the process. -/
def around (x x' : Whole D) : Prop :=
  Files x.net x'.net ∧ x'.clients = x.clients ∧ x'.watch = x.watch

abbrev Program (D : Type) := Config Thread (NetOp D) NetAns Unit (Whole D) ℤ

/-- main is about to call `tcp_server_start`; the `k`-th connection is going to send
`incoming k`. -/
def programStart (c : ℕ) (server : TcpServer) (taken : ℤ → Bool) (incoming : ℕ → List Bytes)
    (T : Table D) : Program D where
  prog := (serviceStart D server (some (openGateway c)) taken).prog
  loc _ := ()
  shared := ⟨(.created taken, fun _ => none), fun k => ⟨[], [], false, incoming k, [], []⟩,
    ⟨⟨T, []⟩, fun _ => none, []⟩⟩

/-! ### The network -/

/-- The program without the data. -/
def network (cfg : Program D) : Service D := ⟨cfg.prog, cfg.loc, cfg.shared.net⟩

variable {server : TcpServer} {taken : ℤ → Bool} {incoming : ℕ → List Bytes} {T : Table D}
  {cfg cfg' : Program D}

theorem network_reachable
    (hr : Reachable (whole env) around (programStart c server taken incoming T) cfg) :
    Reachable owning Files (serviceStart D server (some (openGateway c)) taken) (network cfg) := by
  induction hr with
  | refl => exact .refl
  | tail _ hs ih =>
    refine ih.tail ?_
    cases hs with
    | call t hp hs => exact .call t hp hs.1
    | iter t hp => exact .iter t hp
    | env he => exact .env he.1

/-! ### The threads as the service has them -/

/-- An operation of a thread that has the context `client_fd`; the reads of its context
and of fields of the server and the calls of main leave no trace. -/
def plainly (client_fd : ℤ) : (o : NetOp D) → Sys D (NetAns o)
  | .recv fd size => Prog.perform (SysOp.recv fd size)
  | .close fd => Prog.perform (SysOp.close fd)
  | .running => Prog.perform SysOp.running
  | .handler => Prog.perform SysOp.handler
  | .inProcess o => Prog.perform o
  | .outside o => Prog.perform o
  | .begin => .ret client_fd
  | .handlerArg => .ret ()
  | .process => .ret ()
  | .socket => .ret (-1 : ℤ)
  | .setsockopt _ => .ret (-1 : ℤ)
  | .inetPton _ => .ret (-1 : ℤ)
  | .bind _ _ => .ret (-1 : ℤ)
  | .listen _ => .ret (-1 : ℤ)
  | .accept _ => .ret (-1 : ℤ)
  | .shutdown _ => .ret ()
  | .malloc => .ret false
  | .pthreadCreate _ => .ret (-1 : ℤ)
  | .setRunning _ => .ret ()
  | .serverFd => .ret (-1 : ℤ)
  | .setServerFd _ => .ret ()
  | .destroy _ => .ret ()

/-- What is left of a thread. -/
def plain (client_fd : ℤ) (p : Net D ℤ) : Sys D Unit :=
  (p.interp (plainly client_fd)).bind fun _ => .ret ()

theorem clientHandlerOver_interp {Op Op' : Type} {Ans : Op → Type} {Ans' : Op' → Type}
    (f : (o : Op) → Prog Op' Ans' (Ans o)) (noGateway : Bool) (send : Bytes → Prog Op Ans ℤ)
    (process : Bytes → Prog Op Ans (ℤ × Bytes)) (event : TcpClientEvent) (data : Bytes) :
    (clientHandlerOver noGateway send process event data).interp f
      = clientHandlerOver noGateway (fun text => (send text).interp f)
          (fun input => (process input).interp f) event data := by
  simp only [clientHandlerOver, Prog.bind_eq, Prog.pure_eq]
  split
  · rfl
  cases event with
  | connected =>
    simp only [Prog.interp_bind]
    refine congrArg (Prog.bind _) (funext fun rc => ?_)
    split
    · rfl
    · rfl
  | disconnected => rfl
  | data =>
    simp only
    split
    · rfl
    split
    · rfl
    rw [Prog.interp_bind]
    refine congrArg (Prog.bind _) (funext fun x => ?_)
    split
    · rw [Prog.interp_bind]
      rfl
    split
    · rw [Prog.interp_bind]
      refine congrArg (Prog.bind _) (funext fun rc => ?_)
      split
      · rfl
      · rfl
    · rfl

/-- The marks leave no trace. -/
theorem markedHandler_plainly (client_fd : ℤ) (gateway : Option Gateway) (fd : ℤ)
    (event : TcpClientEvent) (data : Bytes) :
    (markedHandler gateway fd event data : Net D ℤ).interp (plainly client_fd)
      = clientHandler gateway fd event data := by
  have houtside : ∀ text,
      ((tcpServerSend fd text : Sys D ℤ).interp fun o => net (.outside o)).interp
        (plainly client_fd) = tcpServerSend fd text := by
    intro text
    rw [Prog.interp_interp]
    exact Prog.interp_perform _
  have hinside : ∀ input, ((net .process).bind fun _ =>
      (processes gateway fd input : Sys D _).interp fun o => net (.inProcess o)).interp
      (plainly client_fd) = processes gateway fd input := by
    intro input
    show ((processes gateway fd input : Sys D _).interp _).interp (plainly client_fd) = _
    rw [Prog.interp_interp]
    exact Prog.interp_perform _
  rw [markedHandler, clientHandlerOver_interp, clientHandler_eq]
  exact congrArg₂ (fun send process => clientHandlerOver gateway.isNone send process event data)
    (funext houtside) (funext hinside)

/-- The thread of a client, once it has its context. -/
theorem plain_clientThread (client_fd : ℤ) (gateway : Option Gateway) :
    plain client_fd (clientThread gateway : Net D ℤ)
      = SensorGateway.tcpClientThread (clientHandler gateway) client_fd := by
  have hops : (fun o => (onNet gateway o : Net D _).interp (plainly client_fd))
      = carriedOut (clientHandler gateway) := by
    funext o
    cases o with
    | upcall fd event data => exact markedHandler_plainly client_fd gateway fd event data
    | _ => rfl
  show ((((tcpClientThread client_fd).interp (onNet gateway)).bind fun _ => .ret 0).interp
    (plainly client_fd)).bind (fun _ => .ret ()) = _
  rw [Prog.interp_bind, Prog.bind_assoc, Prog.interp_interp, hops, tcpClientThread_interp]
  exact Prog.bind_ret _

/-! ### The service that the program is -/

/-- The service, as far as it has come, when the `k`-th client gets `fd k`. -/
def served (fd : ℕ → ℤ) (cfg : Program D) : Watching ℕ D where
  prog k := plain (fd k) (cfg.prog (.client k))
  loc := cfg.shared.clients
  shared := cfg.shared.watch

/-- These are the descriptors that the clients have got so far. -/
def Agrees (fd : ℕ → ℤ) (s : State) : Prop := ∀ k a, s.contexts[k]? = some a → fd k = a

variable {fd : ℕ → ℤ} {x x' : Whole D} {u : Thread → Unit} {k : ℕ}

omit [Libc D] in
/-- A step that is not a client's, and leaves the data alone. -/
theorem served_other {t : Thread} (p : Net D ℤ) (ht : ∀ k, t ≠ .client k)
    (hclients : x'.clients = cfg.shared.clients) (hwatch : x'.watch = cfg.shared.watch) :
    served fd ⟨Function.update cfg.prog t p, u, x'⟩ = served fd cfg := by
  have hprog : ∀ k, Function.update cfg.prog t p (.client k) = cfg.prog (.client k) :=
    fun k => Function.update_of_ne (ht k).symm _ _
  simp only [served, hprog, hclients, hwatch]

omit [Libc D] in
theorem served_client (p : Net D ℤ) :
    served fd ⟨Function.update cfg.prog (.client k) p, u, x'⟩
      = ⟨Function.update (served fd cfg).prog k (plain (fd k) p), x'.clients, x'.watch⟩ := by
  have hprog : (fun j => plain (fd j) (Function.update cfg.prog (.client k) p (.client j)))
      = Function.update (served fd cfg).prog k (plain (fd k) p) := by
    funext j
    by_cases hj : j = k
    · subst hj
      rw [Function.update_self, Function.update_self]
    · have hne : Thread.client j ≠ .client k := fun h => hj (Thread.client.inj h)
      rw [Function.update_of_ne hne, Function.update_of_ne hj]
      rfl
  rw [served, hprog]

omit [Libc D] in
/-- A client's step that the service does not know of. -/
theorem served_silent {p : Net D ℤ} (hp : plain (fd k) (cfg.prog (.client k)) = plain (fd k) p)
    (hclients : x'.clients = cfg.shared.clients) (hwatch : x'.watch = cfg.shared.watch) :
    served fd ⟨Function.update cfg.prog (.client k) p, u, x'⟩ = served fd cfg := by
  rw [served_client, ← hp, hclients, hwatch]
  congr
  exact Function.update_eq_self k _

/-- One that is an operation of the service. -/
theorem served_exchange {o : SysOp D} {a : SysAns o} {f : SysAns o → Net D ℤ}
    (hp : plain (fd k) (cfg.prog (.client k)) = .call o fun a => plain (fd k) (f a))
    (hparty : party cfg.shared.net.2 (.client k) o = some k)
    (h : exchanges env (.client k) cfg.shared o a x') :
    Step (watched env) unwatched (served fd cfg)
      (served fd ⟨Function.update cfg.prog (.client k) (f a), u, x'⟩) := by
  rw [exchanges, hparty] at h
  obtain ⟨l, w, hw, hclients, hwatch⟩ := h
  have hstep : watched env k ((served fd cfg).loc k, (served fd cfg).shared) o a (l, w) := hw
  rw [served_client, hclients, hwatch]
  exact .call k hp hstep

omit [Libc D] in
theorem on_false {C : Type} [DecidableEq C] (y : Watch C D) (t : C) :
    y.on t false y.shared = y := by
  have hcalls : (y.calls t).map (fun k => k.noting false) = y.calls t := by
    simp [Call.noting_false]
  rw [Watch.on, hcalls, Function.update_eq_self]

/-- One that changes nothing. -/
theorem served_still {o : SysOp D} {a : SysAns o} {f : SysAns o → Net D ℤ}
    (hp : plain (fd k) (cfg.prog (.client k)) = .call o fun a => plain (fd k) (f a))
    (hans : ∀ v : World D, Answers env sharedMode v o a v)
    (hafter : cfg.shared.watch.after k (cfg.shared.clients k).sent o a cfg.shared.watch.shared
      = cfg.shared.watch)
    (hclients : x'.clients = cfg.shared.clients) (hwatch : x'.watch = cfg.shared.watch) :
    Step (watched env) unwatched (served fd cfg)
      (served fd ⟨Function.update cfg.prog (.client k) (f a), u, x'⟩) := by
  have hstep : watched env k ((served fd cfg).loc k, (served fd cfg).shared) o a
      ((served fd cfg).loc k, (served fd cfg).shared) :=
    ⟨⟨hans _, [], (List.append_nil _).symm⟩, hafter.symm⟩
  have h : Step (watched env) unwatched (served fd cfg) _ := .call k hp hstep
  rw [Function.update_eq_self] at h
  rw [served_client, hclients, hwatch]
  exact h

/-- main does not touch the clients' data. -/
theorem main_served {o : NetOp D} {a : NetAns o} {w : Role} (p : Net D ℤ) (hmay : mainMay w o)
    (h : carries env .main cfg.shared o a x') :
    served fd ⟨Function.update cfg.prog .main p, u, x'⟩ = served fd cfg := by
  have hkeep : x'.clients = cfg.shared.clients ∧ x'.watch = cfg.shared.watch := by
    cases o with
    | recv fd size => exact hmay.elim
    | inProcess o => exact hmay.elim
    | outside o => exact hmay.elim
    | _ => exact h
  exact served_other p (fun _ => nofun) hkeep.1 hkeep.2

omit [Libc D] in
/-- What the thread of a client does, on its own connection. -/
theorem party_within {o : SysOp D} {g : Owners} {client_fd : ℤ} (h : Within client_fd o)
    (hg : g client_fd = some k) : party g (.client k) o = some k := by
  cases o with
  | sql o => rfl
  | send fd' data n =>
    obtain rfl : fd' = client_fd := h
    exact hg
  | _ => exact h.elim

theorem client_served {o : NetOp D} {f : NetAns o → Net D ℤ} {a : NetAns o} {w : Role}
    (hp : cfg.prog (.client k) = .call o f) (hs : Sound cfg.shared.net)
    (hw : w.client k cfg.shared.net) (hmay : clientMay w o) (hfd : Agrees fd cfg.shared.net.1)
    (h : whole env (.client k) (u (.client k), cfg.shared) o a (u (.client k), x')) :
    served fd ⟨Function.update cfg.prog (.client k) (f a), u, x'⟩ = served fd cfg ∨
      Step (watched env) unwatched (served fd cfg)
        (served fd ⟨Function.update cfg.prog (.client k) (f a), u, x'⟩) := by
  obtain ⟨⟨hdoes, -⟩, hcarries⟩ := h
  cases o with
  | begin =>
    obtain ⟨⟨⟨j, hj, ha⟩, -⟩, hkeep⟩ := And.intro hdoes hcarries
    cases hj
    obtain rfl : fd k = a := hfd k a ha
    exact .inl (served_silent (by rw [hp]; rfl) hkeep.1 hkeep.2)
  | handlerArg => exact .inl (served_silent (by rw [hp]; rfl) hcarries.1 hcarries.2)
  | process => exact .inl (served_silent (by rw [hp]; rfl) hcarries.1 hcarries.2)
  | recv client_fd size =>
    obtain rfl := hmay
    have hparty : party cfg.shared.net.2 (.client k) (.recv client_fd size : SysOp D) = some k := hw
    exact .inr (served_exchange (by rw [hp]; rfl) hparty hcarries)
  | inProcess o =>
    obtain ⟨client_fd, rfl, hin⟩ := hmay
    exact .inr (served_exchange (by rw [hp]; rfl) (party_within hin hw) hcarries)
  | outside o =>
    obtain ⟨client_fd, rfl, hin⟩ := hmay
    exact .inr (served_exchange (by rw [hp]; rfl) (party_within hin hw) hcarries)
  | close client_fd =>
    refine .inr (served_still (o := .close client_fd) (by rw [hp]; rfl) (fun _ => rfl) ?_
      hcarries.1 hcarries.2)
    exact on_false _ _
  | running =>
    obtain ⟨client_fd, rfl⟩ := hmay
    -- there is a client, so the server runs
    have hne : cfg.shared.net.1.contexts ≠ [] := by
      intro hnil
      have hk := (hs.owned client_fd k hw).2
      rw [hnil] at hk
      cases hk
    obtain rfl : a = true := hdoes.1.trans (hs.up hne)
    refine .inr (served_still (o := .running) (by rw [hp]; rfl) (fun _ => ⟨rfl, rfl⟩) ?_
      hcarries.1 hcarries.2)
    exact on_false _ _
  | handler =>
    obtain rfl : a = true := hdoes.1
    refine .inr (served_still (o := .handler) (by rw [hp]; rfl) (fun _ => ⟨rfl, rfl⟩) ?_
      hcarries.1 hcarries.2)
    exact on_false _ _
  | _ => exact hmay.elim

theorem served_iter {σ ρ : Type} {body : σ → Net D (σ ⊕ ρ)} {y : σ} {p : ρ → Net D ℤ}
    {t : Thread} (hp : cfg.prog t = .iter body y p) :
    served fd ⟨Function.update cfg.prog t (Prog.unroll body y p), cfg.loc, cfg.shared⟩
        = served fd cfg ∨
      Step (watched env) unwatched (served fd cfg)
        (served fd ⟨Function.update cfg.prog t (Prog.unroll body y p), cfg.loc, cfg.shared⟩) := by
  cases t with
  | main => exact .inl (served_other _ (fun _ => nofun) rfl rfl)
  | stop => exact .inl (served_other _ (fun _ => nofun) rfl rfl)
  | client k =>
    have hplain : (served fd cfg).prog k = .iter (fun y => (body y).interp (plainly (fd k))) y
        fun r => plain (fd k) (p r) := by
      show plain (fd k) (cfg.prog (.client k)) = _
      rw [hp]
      rfl
    have hunroll : plain (fd k) (Prog.unroll body y p) = Prog.unroll
        (fun y => (body y).interp (plainly (fd k))) y fun r => plain (fd k) (p r) := by
      rw [plain, Prog.interp_unroll, Prog.unroll_bind]
      rfl
    rw [served_client, hunroll]
    exact .inr (.iter k hplain)

/-- Each step of the program is one of the service, or none. -/
theorem served_step (hs : Sound cfg.shared.net) (hgoes : ∀ t, Goes (network cfg) t)
    (hfd : Agrees fd cfg.shared.net.1) (h : Step (whole env) around cfg cfg') :
    served fd cfg' = served fd cfg ∨
      Step (watched env) unwatched (served fd cfg) (served fd cfg') := by
  cases h with
  | call t hp hstep =>
    obtain ⟨w, hw, hwp⟩ := hgoes t
    rw [show (network cfg).prog t = _ from hp] at hwp
    cases t with
    | main => exact .inl (main_served _ hwp.1 hstep.2)
    | stop => exact hwp.1.elim
    | client k => exact client_served hp hs hw hwp.1 hfd hstep
  | iter t hp => exact served_iter hp
  | env he => exact .inl (by rw [served, he.2.1, he.2.2]; rfl)

/-! ### The contexts -/

omit [Libc D] in
theorem owning_contexts {t : Thread} {o : NetOp D} {a : NetAns o} {v v' : Unit}
    {n n' : State × Owners} (h : owning t (v, n) o a (v', n')) :
    n.1.contexts <+: n'.1.contexts := by
  have hsame : o.ofMain = false → n.1.contexts <+: n'.1.contexts := by
    intro ho
    rw [(does_unshared h.1 ho).2.1]
  cases o with
  | pthreadCreate client_fd =>
    obtain ⟨-, heq⟩ | ⟨-, heq⟩ := h.1
    · rw [heq]
    · rw [heq]
      exact List.prefix_append _ _
  | destroy y => rw [show n'.1 = _ from h.1]
  | _ => exact hsame rfl

omit [Libc D] in
theorem Files.contexts {n n' : State × Owners} (h : Files n n') :
    n.1.contexts <+: n'.1.contexts := by
  cases h with
  | opens fd hfree => exact List.prefix_rfl
  | closes fd hfd hg => exact List.prefix_rfl

/-- A context is never taken back. -/
theorem step_contexts (h : Step (whole env) around cfg cfg') :
    cfg.shared.net.1.contexts <+: cfg'.shared.net.1.contexts := by
  cases h with
  | call t hp hs => exact owning_contexts hs.1
  | iter t hp => exact List.prefix_rfl
  | env he => exact he.1.contexts

theorem Agrees.before {s s' : State} (h : Agrees fd s') (hpre : s.contexts <+: s'.contexts) :
    Agrees fd s := by
  intro k a hk
  refine h k a ?_
  obtain ⟨rest, hrest⟩ := hpre
  rw [← hrest]
  exact (List.getElem?_append_left (List.getElem?_eq_some_iff.mp hk).1).trans hk

/-- The program is the service with these descriptors. -/
theorem served_reachable
    (hr : Reachable (whole env) around (programStart c server taken incoming T) cfg)
    (hfd : Agrees fd cfg.shared.net.1) :
    Reachable (watched env) unwatched (watchStart c fd incoming T) (served fd cfg) := by
  induction hr with
  | refl =>
    have hstart : served fd (programStart c server taken incoming T)
        = watchStart c fd incoming T := by
      have hprog : (fun k => plain (fd k) (clientThread (some (openGateway c)) : Net D ℤ))
          = (watchStart c fd incoming T).prog := funext fun k => plain_clientThread _ _
      rw [served]
      show Config.mk (fun k => plain (fd k) (clientThread (some (openGateway c)) : Net D ℤ)) _ _ = _
      rw [hprog]
      rfl
    rw [hstart]
  | tail hr hstep ih =>
    obtain ⟨hs, hgoes⟩ := service_goes (network_reachable hr)
    have hbefore := hfd.before (step_contexts hstep)
    rcases served_step hs hgoes hbefore hstep with heq | hstep
    · rw [heq]
      exact ih hbefore
    · exact (ih hbefore).tail hstep

/-! ### Descriptors are not negative -/

/-- `accept` has succeeded for them. -/
structure Nonneg (s : State) : Prop where
  accepted : ∀ fd, s.fds fd = some .accepted → 0 ≤ fd
  contexts : ∀ fd ∈ s.contexts, 0 ≤ fd

theorem Nonneg.opened {s : State} (h : Nonneg s) {fd : ℤ} {y : Owner}
    (hy : y = .accepted → 0 ≤ fd) : Nonneg (s.opened fd y) := by
  refine ⟨fun fd' hfd' => ?_, h.contexts⟩
  by_cases heq : fd' = fd
  · subst heq
    exact hy (by simpa [State.opened] using hfd')
  · exact h.accepted fd' ((Function.update_of_ne heq _ _).symm.trans hfd')

theorem Nonneg.closed {s s' : State} (h : Nonneg s) {fd : ℤ}
    (hfds : s'.fds = Function.update s.fds fd none) (hcontexts : s'.contexts = s.contexts) :
    Nonneg s' := by
  refine ⟨fun fd' hfd' => ?_, by rw [hcontexts]; exact h.contexts⟩
  rw [hfds] at hfd'
  by_cases heq : fd' = fd
  · subst heq
    rw [Function.update_self] at hfd'
    cases hfd'
  · exact h.accepted fd' ((Function.update_of_ne heq _ _).symm.trans hfd')

/-- A thread is created for a descriptor that has been accepted. -/
theorem Nonneg.handed {s : State} (h : Nonneg s) {client_fd : ℤ}
    (hfd : s.fds client_fd = some .accepted) :
    Nonneg { s.opened client_fd .elsewhere with contexts := s.contexts ++ [client_fd] } := by
  have hopened : Nonneg (s.opened client_fd .elsewhere) := h.opened (by simp)
  refine ⟨hopened.accepted, fun fd hmem => ?_⟩
  rcases List.mem_append.mp hmem with hmem | hmem
  · exact h.contexts fd hmem
  · obtain rfl : fd = client_fd := List.mem_singleton.mp hmem
    exact h.accepted fd hfd

omit [Libc D] in
theorem Nonneg.does {t : Thread} {s s' : State} {o : NetOp D} {a : NetAns o} (h : Nonneg s)
    (hdoes : does t s o a s')
    (hcreate : ∀ client_fd, o = .pthreadCreate client_fd → s.fds client_fd = some .accepted) :
    Nonneg s' := by
  have hother : o.ofFds = false → o.ofMain = false → Nonneg s' := by
    intro hfds hmain
    obtain ⟨-, hfds, -⟩ := does_other hdoes hfds
    obtain ⟨-, hcontexts, -⟩ := does_unshared hdoes hmain
    exact ⟨by rw [hfds]; exact h.accepted, by rw [hcontexts]; exact h.contexts⟩
  cases o with
  | socket =>
    obtain ⟨-, rfl⟩ | ⟨-, -, rfl⟩ := hdoes
    · exact h
    · have hopened : Nonneg (s.opened a .listening) := h.opened (by simp)
      exact ⟨hopened.accepted, hopened.contexts⟩
  | accept fd =>
    obtain ⟨-, rfl⟩ | ⟨hpos, -, rfl⟩ := hdoes
    · exact h
    · exact h.opened fun _ => hpos
  | close fd =>
    obtain rfl := hdoes
    exact h.closed rfl rfl
  | pthreadCreate client_fd =>
    obtain ⟨-, rfl⟩ | ⟨-, rfl⟩ := hdoes
    · exact h
    · exact h.handed (hcreate client_fd rfl)
  | destroy y =>
    obtain rfl := hdoes
    exact ⟨h.accepted, h.contexts⟩
  | _ => exact hother rfl rfl

omit [Libc D] in
theorem Files.nonneg {n n' : State × Owners} (h : Files n n') (hn : Nonneg n.1) : Nonneg n'.1 := by
  cases h with
  | opens fd hfree => exact hn.opened (by simp)
  | closes fd hfd hg => exact hn.closed rfl rfl

omit [Libc D] in
/-- The thread that is about to create another one has accepted the descriptor. -/
theorem Goes.accepted {net : Service D} {t : Thread} {o : NetOp D} {p : NetAns o → Net D ℤ}
    (h : Goes net t) (hp : net.prog t = .call o p) (client_fd : ℤ)
    (ho : o = .pthreadCreate client_fd) : net.shared.1.fds client_fd = some .accepted := by
  obtain ⟨w, hw, hwp⟩ := h
  subst ho
  rw [hp] at hwp
  cases t with
  | main =>
    obtain ⟨fd, rfl⟩ := hwp.1
    exact hw.2.2
  | stop => exact hwp.1.elim
  | client k => exact hwp.1.elim

theorem service_nonneg {gateway : Option Gateway} {net : Service D}
    (hr : Reachable owning Files (serviceStart D server gateway taken) net) :
    Nonneg net.shared.1 := by
  induction hr with
  | refl =>
    refine ⟨fun fd hfd => ?_, fun fd hfd => nomatch hfd⟩
    simp only [serviceStart, State.created] at hfd
    split at hfd
    · cases hfd
    · cases hfd
  | tail hr hstep ih =>
    cases hstep with
    | call t hp hs => exact ih.does hs.1 (((service_goes hr).2 t).accepted hp)
    | iter t hp => exact ih
    | env he => exact he.nonneg ih

/-! ### Runs -/

/-- The descriptors of the clients, the last ones of which are still to come. -/
def State.clientFd (s : State) (k : ℕ) : ℤ := s.contexts.getD k 0

theorem agrees_clientFd (s : State) : Agrees s.clientFd s := by
  intro k a hk
  rw [State.clientFd, List.getD_eq_getElem?_getD, hk]
  rfl

theorem Nonneg.clientFd {s : State} (h : Nonneg s) (k : ℕ) : 0 ≤ s.clientFd k := by
  rw [State.clientFd, List.getD_eq_getElem?_getD]
  cases hk : s.contexts[k]? with
  | none => exact le_rfl
  | some a => exact h.contexts a (List.mem_of_getElem? hk)

/-- The whole program is a running server and a service. -/
theorem program_refines
    (hr : Reachable (whole env) around (programStart c server taken incoming T) cfg) :
    Reachable owning Files (serviceStart D server (some (openGateway c)) taken) (network cfg) ∧
      ∃ fd : ℕ → ℤ, (∀ k, 0 ≤ fd k) ∧ Agrees fd cfg.shared.net.1 ∧
        Reachable (watched env) unwatched (watchStart c fd incoming T) (served fd cfg) :=
  ⟨network_reachable hr, _, (service_nonneg (network_reachable hr)).clientFd, agrees_clientFd _,
    served_reachable hr (agrees_clientFd _)⟩

/-- An answer where nothing fails. -/
def exchanging (t : Thread) (x : Whole Binary64) (o : SysOp Binary64) :
    SysAns o × Whole Binary64 :=
  match party x.net.2 t o with
  | some k =>
    let r := quietlyWatched Env.counting k (x.clients k, x.watch) o
    (r.1, ⟨x.net, Function.update x.clients k r.2.1, r.2.2⟩)
  | none => (someAnswer o, x)

/-- `scriptedOwning`, with the data. -/
def carrying (n : ℕ) (t : Thread) (x : Unit × Whole Binary64) :
    (o : NetOp Binary64) → NetAns o × Unit × Whole Binary64
  | .recv fd size =>
    ((exchanging t x.2 (.recv fd size)).1, (), (exchanging t x.2 (.recv fd size)).2)
  | .inProcess o => ((exchanging t x.2 o).1, (), { (exchanging t x.2 o).2 with
      net := ((x.2.net.1.touch t .gateway).touch t .db, x.2.net.2) })
  | .outside o => ((exchanging t x.2 o).1, (), (exchanging t x.2 o).2)
  | o => ((scriptedOwning n t (x.1, x.2.net) o).1, (),
      { x.2 with net := (scriptedOwning n t (x.1, x.2.net) o).2.2 })

/-- What is received is not empty and fits. -/
def mayReceive (size : ℕ) : List Bytes → Bool
  | [] => true
  | y :: _ => y ≠ [] && 0 < size

def mayCarry (t : Thread) (x : Unit × Whole Binary64) : NetOp Binary64 → Bool
  | .recv fd size => ((party x.2.net.2 t (.recv fd size : SysOp Binary64)).map fun k =>
      mayReceive size (x.2.clients k).incoming).getD true
  | .inProcess o => ((party x.2.net.2 t o).map fun k =>
      mayIssue k (x.2.clients k, x.2.watch.shared) o).getD true
  | .outside o => ((party x.2.net.2 t o).map fun k =>
      mayIssue k (x.2.clients k, x.2.watch.shared) o).getD true
  | o => ready t (x.1, x.2.net.1) o

theorem exchanging_net (t : Thread) (x : Whole Binary64) (o : SysOp Binary64) :
    (exchanging t x o).2.net = x.net := by
  rw [exchanging]
  cases party x.net.2 t o <;> rfl

theorem exchanging_exchanges (t : Thread) (x : Whole Binary64) (o : SysOp Binary64)
    (net : State × Owners)
    (h : ((party x.net.2 t o).map fun k => mayIssue k (x.clients k, x.watch.shared) o).getD true) :
    exchanges Env.counting t x o (exchanging t x o).1 { (exchanging t x o).2 with net := net } := by
  rw [exchanges, exchanging]
  cases hk : party x.net.2 t o with
  | none => exact ⟨rfl, rfl⟩
  | some k =>
    rw [hk] at h
    exact ⟨_, _, quietly_watched k (x.clients k, x.watch) o h, rfl, rfl⟩

theorem exchanging_recv {t : Thread} {x : Whole Binary64} {fd : ℤ} {size : ℕ}
    (h : mayCarry t ((), x) (.recv fd size) = true) (y : Bytes)
    (hy : (exchanging t x (.recv fd size)).1 = .data y) : y ≠ [] ∧ y.length ≤ size := by
  rw [mayCarry] at h
  rw [exchanging] at hy
  cases hk : party x.net.2 t (.recv fd size : SysOp Binary64) with
  | none =>
    rw [hk] at hy
    cases hy
  | some k =>
    rw [hk] at h hy
    change mayReceive size (x.clients k).incoming = true at h
    change (quiet Env.counting (fun _ => 128) (view k (x.clients k) x.watch.shared)
      (.recv fd size)).1 = .data y at hy
    simp only [quiet, view] at hy
    cases hin : (x.clients k).incoming with
    | nil =>
      rw [hin] at hy
      cases hy
    | cons z zs =>
      rw [hin] at h hy
      simp only [mayReceive, ne_eq, Bool.and_eq_true, decide_eq_true_eq] at h
      obtain rfl : z.take size = y := RecvRc.data.inj hy
      refine ⟨fun hnil => ?_, List.length_take_le _ _⟩
      rcases List.take_eq_nil_iff.mp hnil with h0 | h0
      · omega
      · exact h.1 h0

theorem carrying_whole (n : ℕ) (t : Thread) (x : Unit × Whole Binary64) (o : NetOp Binary64)
    (h : mayCarry t x o = true) :
    whole Env.counting t x o (carrying n t x o).1 (carrying n t x o).2 := by
  obtain ⟨u, x⟩ := x
  cases o with
  | recv fd size =>
    have hnet := exchanging_net t x (.recv fd size)
    refine ⟨⟨⟨exchanging_recv h, congrArg Prod.fst hnet⟩, congrArg Prod.snd hnet⟩, ?_⟩
    refine exchanging_exchanges t x (.recv fd size) _ ?_
    cases party x.net.2 t (.recv fd size : SysOp Binary64) <;> rfl
  | inProcess o => exact ⟨⟨rfl, rfl⟩, exchanging_exchanges t x o _ h⟩
  | outside o =>
    have hnet := exchanging_net t x o
    exact ⟨⟨congrArg Prod.fst hnet, congrArg Prod.snd hnet⟩, exchanging_exchanges t x o _ h⟩
  | _ => exact ⟨⟨scripted_doing n t (u, x.net.1) _ h, rfl⟩, rfl, rfl⟩

/-- Two clients, the second of which gets the descriptor of the first. -/
def inSuccessionStart : Program Binary64 :=
  programStart 3 ⟨bytes "127.0.0.1", 8888⟩ firstFour
    (fun k => [bytes (if k = 0 then "SENSOR,a,1,2,3,4" else "QUERY,1,9")]) ∅

def inSuccession : Program Binary64 :=
  schedule (carrying 2) (List.replicate 13 .main ++ List.replicate 29 (.client 0) ++
    List.replicate 5 .main ++ List.replicate 45 (.client 1)) inSuccessionStart

theorem inSuccession_reachable :
    Reachable (whole Env.counting) around inSuccessionStart inSuccession :=
  schedule_reachable (carrying_whole 2) (by decide +kernel)

theorem program_refines_inSuccession : inSuccession.shared.net.1.contexts = [5, 5] ∧
    Reachable owning Files
      (serviceStart Binary64 ⟨bytes "127.0.0.1", 8888⟩ (some (openGateway 3)) firstFour)
      (network inSuccession) ∧
    ∃ fd : ℕ → ℤ, (∀ k, 0 ≤ fd k) ∧ Agrees fd inSuccession.shared.net.1 ∧
      Reachable (watched Env.counting) unwatched
        (watchStart 3 fd (fun k => [bytes (if k = 0 then "SENSOR,a,1,2,3,4" else "QUERY,1,9")]) ∅)
        (served fd inSuccession) :=
  ⟨by decide +kernel, program_refines inSuccession_reachable⟩

end Transport

end SensorGateway
