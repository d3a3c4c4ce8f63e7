/-
The connections of the running server.

Nothing in the program calls `tcp_server_stop` while the server runs, so here the
thread for it does nothing.  Next to the state each descriptor has the thread it has
been handed to, from `pthread_create` until it is closed.  Other parts of the process,
SQLite among them, open and close files of their own at any time.

* `connections_separate` — a thread uses no descriptor but that of its own client,
  which nobody else closes and which it closes before it ends;
* `server_stands` — once a client has been connected, main stays in its accept loop,
  and no thread finds an object destroyed.
-/
import SensorGateway.RunRules
import SensorGateway.Service
import SensorGateway.ListeningFd
import SensorGateway.Teardown

open CString Threads

namespace SensorGateway

namespace Transport

variable {D : Type}

/-! ### Descriptors and their threads -/

/-- The thread of a client that a descriptor belongs to. -/
abbrev Owners := ℤ → Option ℕ

def handed (s : State) (g : Owners) : (o : NetOp D) → NetAns o → Owners
  | .pthreadCreate client_fd, a =>
    if a = 0 then Function.update g client_fd (some s.contexts.length) else g
  | .close fd, _ => Function.update g fd none
  | _, _ => g

/-- The operations, with the owners written down. -/
def owning : Semantics Thread (NetOp D) NetAns Unit (State × Owners) := fun t x o a x' =>
  does t x.2.1 o a x'.2.1 ∧ x'.2.2 = handed x.2.1 x.2.2 o a

/-- Other parts of the process open descriptors that are free and close those of
their own. -/
inductive Files : State × Owners → State × Owners → Prop
  | opens {s : State} {g : Owners} (fd : ℤ) (h : s.fds fd = none) :
      Files (s, g) (s.opened fd .elsewhere, g)
  | closes {s : State} {g : Owners} (fd : ℤ) (h : s.fds fd = some .elsewhere) (hg : g fd = none) :
      Files (s, g) ({ s with fds := Function.update s.fds fd none }, g)

abbrev Service (D : Type) := Config Thread (NetOp D) NetAns Unit (State × Owners) ℤ

/-- main is about to call `tcp_server_start`. -/
def serviceStart (D : Type) [Libc D] (server : TcpServer) (gateway : Option Gateway)
    (taken : ℤ → Bool) : Service D where
  prog
    | .main => mainServes (some server)
    | .stop => .ret 0
    | .client _ => clientThread gateway
  loc _ := ()
  shared := (.created taken, fun _ => none)

/-- The descriptor an operation is about. -/
def sysFd : SysOp D → Option ℤ
  | .send fd _ _ => some fd
  | .recv fd _ => some fd
  | .close fd => some fd
  | _ => none

def NetOp.fd? : NetOp D → Option ℤ
  | .setsockopt fd => some fd
  | .bind fd _ => some fd
  | .listen fd => some fd
  | .accept fd => some fd
  | .recv fd _ => some fd
  | .shutdown fd => some fd
  | .close fd => some fd
  | .pthreadCreate client_fd => some client_fd
  | .inProcess o => sysFd o
  | .outside o => sysFd o
  | _ => none

/-! ### How far a thread is -/

inductive Role
  /-- main before it has a descriptor, -/
  | start
  /-- with one for the server, -/
  | listening (fd : ℤ)
  /-- in the accept loop, -/
  | serving (fd : ℤ)
  /-- and with one for a client as well; -/
  | accepted (fd client_fd : ℤ)
  /-- main at its end. -/
  | left
  /-- The thread of a client before it has read its context, -/
  | waiting
  /-- with a descriptor -/
  | owns (fd : ℤ)
  /-- and without one again. -/
  | ended

def Role.isServing : Role → Bool
  | .serving _ => true
  | .accepted _ _ => true
  | _ => false

def mainMay : Role → NetOp D → Prop
  | w, .socket => w = .start
  | w, .setsockopt fd => w = .listening fd
  | w, .bind fd _ => w = .listening fd
  | w, .listen fd => w = .listening fd
  | w, .setRunning b => b = true ∧ ∃ fd, w = .listening fd
  | w, .accept fd => w = .serving fd
  | w, .pthreadCreate client_fd => ∃ fd, w = .accepted fd client_fd
  | w, .close fd => w = .listening fd ∨ ∃ l, w = .accepted l fd
  | w, .destroy _ => w = .start ∨ w = .left
  | _, .inetPton _ => True
  | _, .malloc => True
  | _, .running => True
  | _, .setServerFd _ => True
  | _, _ => False

def mainThen : Role → (o : NetOp D) → NetAns o → Role → Prop
  | w, .socket, a, w' => a < 0 ∧ w' = w ∨ 0 ≤ a ∧ w' = .listening a
  | w, .setRunning _, _, w' => ∃ fd, w = .listening fd ∧ w' = .serving fd
  | w, .accept fd, a, w' => a < 0 ∧ w' = w ∨ 0 ≤ a ∧ w' = .accepted fd a
  | w, .pthreadCreate client_fd, a, w' => a ≠ 0 ∧ w' = w ∨
      a = 0 ∧ ∃ fd, w = .accepted fd client_fd ∧ w' = .serving fd
  | w, .close fd, _, w' => w = .listening fd ∧ w' = .start ∨
      ∃ l, w = .accepted l fd ∧ w' = .serving l
  | _, .destroy _, _, w' => w' = .left
  | w, .running, a, w' => a = w.isServing ∧ w' = w
  | w, _, _, w' => w' = w

/-- SQLite, and `send` to the client. -/
def Within (fd : ℤ) : SysOp D → Prop
  | .sql _ => True
  | .send fd' _ _ => fd' = fd
  | _ => False

def clientMay : Role → NetOp D → Prop
  | w, .begin => w = .waiting
  | w, .recv fd _ => w = .owns fd
  | w, .close fd => w = .owns fd
  | w, .running => ∃ fd, w = .owns fd
  | w, .handler => ∃ fd, w = .owns fd
  | w, .handlerArg => ∃ fd, w = .owns fd
  | w, .process => ∃ fd, w = .owns fd
  | w, .inProcess o => ∃ fd, w = .owns fd ∧ Within fd o
  | w, .outside o => ∃ fd, w = .owns fd ∧ Within fd o
  | _, _ => False

def clientThen : Role → (o : NetOp D) → NetAns o → Role → Prop
  | _, .begin, a, w' => w' = .owns a
  | _, .close _, _, w' => w' = .ended
  | w, _, _, w' => w' = w

def roleOf : Thread → Prog.OpSpec (NetOp D) NetAns Role
  | .main => ⟨mainMay, mainThen⟩
  | .stop => ⟨fun _ _ => False, fun _ _ _ _ => True⟩
  | .client _ => ⟨clientMay, clientThen⟩

/-! ### main -/

/-- The loop goes on whatever fails. -/
theorem acceptTurn_role (fd : ℤ) :
    Prog.wp False (roleOf .main : Prog.OpSpec (NetOp D) NetAns Role) (acceptTurn fd ())
      (fun r w => r = .inl () ∧ w = .serving fd) (.serving fd) := by
  have hclose : ∀ client_fd, Prog.wp False (roleOf .main : Prog.OpSpec (NetOp D) NetAns Role)
      ((net (.close client_fd)).bind fun _ => (.ret (.inl ()) : Net D (Unit ⊕ Unit)))
      (fun r w => r = .inl () ∧ w = .serving fd) (.accepted fd client_fd) := by
    intro client_fd
    refine Prog.wp_perform (.inr ⟨_, rfl⟩) ?_
    rintro _ w (⟨hl, -⟩ | ⟨l, hl, rfl⟩)
    · cases hl
    · cases hl
      exact ⟨rfl, rfl⟩
  simp only [acceptTurn, Prog.bind_eq, Prog.pure_eq]
  refine Prog.wp_perform trivial ?_
  rintro _ _ ⟨rfl, rfl⟩
  rw [if_pos (show (Role.serving fd).isServing = true from rfl)]
  refine Prog.wp_perform rfl ?_
  rintro client_fd w hw
  split
  · -- accept has failed
    rename_i hneg
    obtain ⟨-, rfl⟩ | ⟨hpos, -⟩ := hw
    · refine Prog.wp_perform trivial ?_
      rintro _ _ ⟨rfl, rfl⟩
      exact ⟨rfl, rfl⟩
    · exact absurd hpos (Int.not_le.mpr hneg)
  · rename_i hneg
    obtain ⟨hneg', -⟩ | ⟨-, rfl⟩ := hw
    · exact absurd hneg' hneg
    refine Prog.wp_perform trivial ?_
    rintro b _ rfl
    split
    · exact hclose client_fd
    · refine Prog.wp_perform ⟨fd, rfl⟩ ?_
      rintro rc w (⟨hrc, rfl⟩ | ⟨rfl, l, hl, rfl⟩)
      · rw [if_pos hrc]
        exact hclose client_fd
      · cases hl
        rw [if_neg fun h => h rfl]
        exact ⟨rfl, rfl⟩

theorem tcpServerStart_role (server : TcpServer) :
    Prog.wp False (roleOf .main : Prog.OpSpec (NetOp D) NetAns Role) (tcpServerStart (some server))
      (fun _ w => w = .start) .start := by
  have hclose : ∀ fd rc, Prog.wp False (roleOf .main : Prog.OpSpec (NetOp D) NetAns Role)
      ((net (.close fd)).bind fun _ => (.ret rc : Net D ℤ)) (fun _ w => w = .start)
      (.listening fd) := by
    intro fd rc
    refine Prog.wp_perform (.inl rfl) ?_
    rintro _ w (⟨-, rfl⟩ | ⟨l, hl, -⟩)
    · rfl
    · cases hl
  simp only [tcpServerStart, Prog.bind_eq, Prog.pure_eq]
  refine Prog.wp_perform trivial ?_
  rintro _ _ ⟨rfl, rfl⟩
  rw [if_neg (by decide)]
  refine Prog.wp_perform rfl ?_
  rintro fd w hw
  split
  · rename_i hneg
    obtain ⟨-, rfl⟩ | ⟨hpos, -⟩ := hw
    · rfl
    · exact absurd hpos (Int.not_le.mpr hneg)
  rename_i hneg
  obtain ⟨hneg', -⟩ | ⟨-, rfl⟩ := hw
  · exact absurd hneg' hneg
  refine Prog.wp_perform rfl ?_
  rintro rc _ rfl
  split
  · exact hclose fd (-1)
  refine Prog.wp_perform trivial ?_
  rintro rc _ rfl
  split
  · exact hclose fd (-1)
  refine Prog.wp_perform rfl ?_
  rintro rc _ rfl
  split
  · exact hclose fd (-1)
  refine Prog.wp_perform rfl ?_
  rintro rc _ rfl
  split
  · exact hclose fd (-1)
  refine Prog.wp_perform trivial ?_
  rintro _ _ rfl
  refine Prog.wp_perform ⟨rfl, fd, rfl⟩ ?_
  rintro _ _ ⟨l, hl, rfl⟩
  cases hl
  -- the loop has no end
  refine Prog.wp_iter (fun _ w => w = .serving fd) rfl ?_
  rintro ⟨⟩ _ rfl
  refine Prog.wp_mono ?_ (acceptTurn_role fd)
  rintro _ _ ⟨rfl, rfl⟩
  rfl

theorem mainServes_role (server : TcpServer) :
    Prog.wp False (roleOf .main : Prog.OpSpec (NetOp D) NetAns Role) (mainServes (some server))
      (fun _ w => w = .left) .start := by
  simp only [mainServes, tcpServerDestroy, Prog.bind_eq, Prog.pure_eq]
  refine Prog.wp_seq (tcpServerStart_role server) ?_
  rintro _ _ rfl
  rw [if_neg (by simp), Prog.bind_assoc]
  refine Prog.wp_perform trivial ?_
  rintro _ _ ⟨rfl, rfl⟩
  rw [if_neg (by decide)]
  refine Prog.wp_perform (.inl rfl) ?_
  rintro _ _ rfl
  refine Prog.wp_perform (.inr rfl) ?_
  rintro _ _ rfl
  refine Prog.wp_perform (.inr rfl) ?_
  rintro _ _ rfl
  rfl

/-! ### The thread of a client -/

/-- The same of the operations of `tcp_client_thread`. -/
def clientRole : Prog.OpSpec ClientOp ClientAns Role where
  pre w o := match o with
    | .upcall fd _ _ => w = .owns fd
    | .recv fd _ => w = .owns fd
    | .close fd => w = .owns fd
    | _ => ∃ fd, w = .owns fd
  post w o _ w' := match o with
    | .close _ => w' = .ended
    | _ => w' = w

theorem notify_role (fd : ℤ) (event : TcpClientEvent) (data : Bytes) :
    Prog.wp False clientRole (notify fd event data) (fun _ w => w = .owns fd) (.owns fd) := by
  simp only [notify, Prog.bind_eq, Prog.pure_eq]
  refine Prog.wp_perform ⟨fd, rfl⟩ ?_
  rintro a _ rfl
  split
  · refine Prog.wp_perform rfl ?_
    rintro _ _ rfl
    rfl
  · rfl

theorem clientTurn_role (fd : ℤ) :
    Prog.wp False clientRole (clientTurn fd ()) (fun _ w => w = .owns fd) (.owns fd) := by
  simp only [clientTurn, Prog.bind_eq, Prog.pure_eq]
  refine Prog.wp_perform ⟨fd, rfl⟩ ?_
  rintro a _ rfl
  split
  · refine Prog.wp_perform rfl ?_
    rintro rc _ rfl
    cases rc with
    | data received => exact Prog.wp_seq (notify_role fd _ _) fun _ _ h => h
    | closed => exact Prog.wp_seq (notify_role fd _ _) fun _ _ h => h
    | eintr => rfl
    | error => rfl
  · rfl

theorem tcpClientThread_role (fd : ℤ) :
    Prog.wp False clientRole (tcpClientThread fd) (fun _ w => w = .ended) (.owns fd) := by
  simp only [tcpClientThread, Prog.bind_eq]
  refine Prog.wp_seq (notify_role fd _ _) ?_
  rintro _ _ rfl
  refine Prog.wp_iter (fun _ w => w = .owns fd) rfl ?_
  rintro ⟨⟩ _ rfl
  refine Prog.wp_mono ?_ (clientTurn_role fd)
  rintro (⟨⟩ | ⟨⟩) _ rfl
  · rfl
  · exact ⟨rfl, fun _ _ h => h⟩

/-- What the handler calls leaves the thread its descriptor. -/
def Harmless (fd : ℤ) (o : NetOp D) : Prop :=
  clientMay (.owns fd) o ∧ ∀ a w', clientThen (.owns fd) o a w' → w' = .owns fd

theorem markedHandler_role [Libc D] (k : ℕ) (gateway : Option Gateway) (fd : ℤ)
    (event : TcpClientEvent) (data : Bytes) :
    Prog.wp False (roleOf (.client k)) (markedHandler gateway fd event data : Net D ℤ)
      (fun _ w => w = .owns fd) (.owns fd) := by
  have houtside : ∀ o : SysOp D, Within fd o → Prog.Only (Harmless fd) (net (.outside o)) :=
    fun o h => ⟨⟨⟨fd, rfl, h⟩, fun _ _ h => h⟩, fun _ => trivial⟩
  have hinside : ∀ o : SysOp D, Within fd o → Prog.Only (Harmless fd) (net (.inProcess o)) :=
    fun o h => ⟨⟨⟨fd, rfl, h⟩, fun _ _ h => h⟩, fun _ => trivial⟩
  have hsend : ∀ text, Prog.Only (Within fd) (tcpServerSend fd text : Sys D ℤ) :=
    tcpServerSend_only fun _ _ => rfl
  have hprocess : ∀ input, Prog.Only (Within fd) (processes gateway fd input : Sys D (ℤ × Bytes)) :=
    fun input => gatewayProcess_only (fun _ => trivial) (fun _ _ => rfl) gateway input _ _
  have hmarked : ∀ input, Prog.Only (Harmless fd) ((net .process).bind fun _ =>
      (processes gateway fd input : Sys D _).interp fun o => net (.inProcess o)) :=
    fun input => ⟨⟨⟨fd, rfl⟩, fun _ _ h => h⟩, fun _ => (hprocess input).interp_of hinside⟩
  have honly : Prog.Only (Harmless fd) (markedHandler gateway fd event data : Net D ℤ) :=
    clientHandlerOver_only (fun text => (hsend text).interp_of houtside) hmarked _ _ _
  refine honly.wp ?_ rfl
  rintro _ o rfl ⟨hmay, hthen⟩
  exact ⟨hmay, hthen⟩

theorem clientThread_role [Libc D] (k : ℕ) (gateway : Option Gateway) :
    Prog.wp False (roleOf (.client k)) (clientThread gateway : Net D ℤ)
      (fun _ w => w = .ended) .waiting := by
  have honNet : ∀ w o, clientRole.pre w o →
      Prog.wp False (roleOf (.client k)) (onNet gateway o : Net D (ClientAns o))
        (fun a w' => clientRole.post w o a w') w := by
    intro w o hpre
    cases o with
    | upcall fd event data =>
      obtain rfl := hpre
      refine Prog.wp_perform ⟨fd, rfl⟩ ?_
      rintro _ _ rfl
      exact markedHandler_role k gateway fd event data
    | running => exact ⟨hpre, fun _ _ h => h⟩
    | handler => exact ⟨hpre, fun _ _ h => h⟩
    | recv fd size => exact ⟨hpre, fun _ _ h => h⟩
    | close fd => exact ⟨hpre, fun _ _ h => h⟩
  simp only [clientThread, Prog.bind_eq, Prog.pure_eq]
  refine Prog.wp_perform rfl ?_
  rintro fd _ rfl
  exact Prog.wp_seq (Prog.wp_interp honNet (tcpClientThread_role fd)) fun _ _ h => h

/-! ### What the threads know -/

/-- What holds whoever comes next. -/
structure Sound (x : State × Owners) : Prop where
  owned : ∀ fd k, x.2 fd = some k → x.1.fds fd = some .elsewhere ∧ x.1.contexts[k]? = some fd
  up : x.1.contexts ≠ [] → x.1.running = true
  alive : x.1.running = true → ∀ y, x.1.alive y = true
  fresh : x.1.stale = []

def Role.main (s : State) : Role → Prop
  | .start => s.running = false ∧ ∀ y, s.alive y = true
  | .listening fd => s.running = false ∧ (∀ y, s.alive y = true) ∧ s.fds fd = some .listening
  | .serving fd => s.running = true ∧ s.fds fd = some .listening
  | .accepted fd client_fd =>
    s.running = true ∧ s.fds fd = some .listening ∧ s.fds client_fd = some .accepted
  | .left => s.running = false
  | _ => False

def Role.client (k : ℕ) (x : State × Owners) : Role → Prop
  | .waiting => ∀ fd, x.1.contexts[k]? = some fd → x.2 fd = some k
  | .owns fd => x.2 fd = some k
  | .ended => k < x.1.contexts.length ∧ ∀ fd, x.2 fd ≠ some k
  | _ => False

def plays : Thread → Role → Unit → State × Owners → Prop
  | .main, w, _, x => w.main x.1
  | .stop, _, _, _ => True
  | .client k, w, _, x => w.client k x

variable {s s' : State} {g : Owners} {w : Role} {x x' : State × Owners}

/-- A step that leaves alone what belongs to the clients. -/
theorem Sound.frame (h : Sound (s, g)) (hfds : ∀ fd k, g fd = some k → s'.fds fd = s.fds fd)
    (hcontexts : s'.contexts = s.contexts) (hrunning : s'.running = s.running)
    (halive : s'.alive = s.alive) (hstale : s'.stale = s.stale) : Sound (s', g) := by
  constructor
  · intro fd k hk
    obtain ⟨h₁, h₂⟩ := h.owned fd k hk
    exact ⟨(hfds fd k hk).trans h₁, by rw [hcontexts]; exact h₂⟩
  · intro hne
    rw [hcontexts] at hne
    exact hrunning.trans (h.up hne)
  · intro hup y
    rw [hrunning] at hup
    rw [halive]
    exact h.alive hup y
  · exact hstale.trans h.fresh

theorem Role.main.frame (h : w.main s)
    (hfds : ∀ fd y, s.fds fd = some y → y ≠ .elsewhere → s'.fds fd = some y)
    (hrunning : s'.running = s.running) (halive : s'.alive = s.alive) : w.main s' := by
  cases w with
  | start => exact ⟨hrunning.trans h.1, fun y => by rw [halive]; exact h.2 y⟩
  | listening fd =>
    exact ⟨hrunning.trans h.1, fun y => by rw [halive]; exact h.2.1 y,
      hfds fd _ h.2.2 (by decide)⟩
  | serving fd => exact ⟨hrunning.trans h.1, hfds fd _ h.2 (by decide)⟩
  | accepted fd client_fd =>
    exact ⟨hrunning.trans h.1, hfds fd _ h.2.1 (by decide), hfds client_fd _ h.2.2 (by decide)⟩
  | left => exact hrunning.trans h
  | _ => exact h.elim

theorem Role.client.frame {k : ℕ} (h : w.client k (s, g)) (hcontexts : s'.contexts = s.contexts) :
    w.client k (s', g) := by
  cases w with
  | waiting =>
    intro fd hfd
    rw [hcontexts] at hfd
    exact h fd hfd
  | owns fd => exact h
  | ended => exact ⟨by rw [hcontexts]; exact h.1, h.2⟩
  | _ => exact h.elim

/-- The operations that change nothing the threads know of. -/
def NetOp.quiet : NetOp D → Bool
  | .setRunning _ => false
  | o => !o.ofFds && !o.ofMain

theorem does_quiet {t : Thread} {o : NetOp D} {a : NetAns o} (h : does t s o a s')
    (ho : o.quiet = true) (hsafe : (∀ y, s.alive y = true) ∨ ∀ k, t ≠ .client k) :
    s'.fds = s.fds ∧ s'.running = s.running ∧ s'.alive = s.alive ∧ s'.contexts = s.contexts ∧
      s'.stale = s.stale := by
  have hofs : o.ofFds = false ∧ o.ofMain = false ∧ s'.running = s.running := by
    cases o with
    | setRunning b => cases ho
    | socket => cases ho
    | accept fd => cases ho
    | close fd => cases ho
    | pthreadCreate client_fd => cases ho
    | destroy y => cases ho
    | recv fd size => exact ⟨rfl, rfl, by rw [h.2]⟩
    | begin => exact ⟨rfl, rfl, by rw [h.2]⟩
    | serverFd => exact ⟨rfl, rfl, by rw [h.2]⟩
    | running => exact ⟨rfl, rfl, by rw [h.2]; rfl⟩
    | handler => exact ⟨rfl, rfl, by rw [h.2]; rfl⟩
    | _ =>
      obtain rfl := h
      exact ⟨rfl, rfl, rfl⟩
  obtain ⟨-, hfds, -⟩ := does_other h hofs.1
  obtain ⟨halive, hcontexts, hstale⟩ := does_unshared h hofs.2.1
  exact ⟨hfds, hofs.2.2, halive, hcontexts, hstale hsafe⟩

theorem handed_quiet {o : NetOp D} (a : NetAns o) (ho : o.quiet = true) : handed s g o a = g := by
  cases o with
  | close fd => cases ho
  | pthreadCreate client_fd => cases ho
  | _ => rfl

/-- A quiet step keeps all that is known. -/
theorem quiet_plays {t : Thread} {u u' : Unit} {o : NetOp D} {a : NetAns o} (hx : Sound x)
    (hstep : owning t (u, x) o a (u', x')) (ho : o.quiet = true)
    (hsafe : (∀ y, x.1.alive y = true) ∨ ∀ k, t ≠ .client k) :
    Sound x' ∧ ∀ t w u, plays t w u x → plays t w u x' := by
  obtain ⟨s, g⟩ := x
  obtain ⟨s', g'⟩ := x'
  obtain ⟨hdoes, hg⟩ := hstep
  obtain rfl : g' = g := hg.trans (handed_quiet a ho)
  obtain ⟨hfds, hrunning, halive, hcontexts, hstale⟩ := does_quiet hdoes ho hsafe
  refine ⟨hx.frame (fun _ _ _ => by rw [hfds]) hcontexts hrunning halive hstale, ?_⟩
  intro t w u hw
  cases t with
  | main => exact Role.main.frame hw (fun _ _ h _ => by rw [hfds]; exact h) hrunning halive
  | stop => trivial
  | client k => exact Role.client.frame hw hcontexts

/-- A descriptor that is free, or main's own, belongs to no client. -/
theorem Sound.unowned (h : Sound (s, g)) {fd : ℤ} (hfd : s.fds fd ≠ some .elsewhere) :
    g fd = none := by
  cases hg : g fd with
  | none => rfl
  | some k => exact absurd (h.owned fd k hg).1 hfd

theorem Sound.opened (h : Sound (s, g)) {fd : ℤ} (hfree : s.fds fd = none) (y : Owner) :
    Sound (s.opened fd y, g) := by
  refine h.frame (fun fd' k hk => ?_) rfl rfl rfl rfl
  have hne : fd' ≠ fd := by
    rintro rfl
    rw [h.unowned (by simp [hfree])] at hk
    cases hk
  exact Function.update_of_ne hne _ _

theorem Role.main.opened (h : w.main s) {fd : ℤ} (hfree : s.fds fd = none) (y : Owner) :
    w.main (s.opened fd y) := by
  refine h.frame (fun fd' x hx _ => ?_) rfl rfl
  have hne : fd' ≠ fd := by
    rintro rfl
    rw [hfree] at hx
    cases hx
  exact (Function.update_of_ne hne _ _).trans hx

theorem Sound.closed (h : Sound (s, g)) {fd : ℤ} (hg : g fd = none)
    (hfds : s'.fds = Function.update s.fds fd none) (hcontexts : s'.contexts = s.contexts)
    (hrunning : s'.running = s.running) (halive : s'.alive = s.alive)
    (hstale : s'.stale = s.stale) :
    Sound (s', g) := by
  refine h.frame (fun fd' k hk => ?_) hcontexts hrunning halive hstale
  have hne : fd' ≠ fd := by
    rintro rfl
    rw [hg] at hk
    cases hk
  rw [hfds, Function.update_of_ne hne]

theorem update_none {fd : ℤ} (hg : g fd = none) : Function.update g fd none = g := by
  rw [← hg]
  exact Function.update_eq_self fd g

/-! ### The steps of main -/

/-- A new thread gets the descriptor. -/
theorem Sound.handed (h : Sound (s, g)) {client_fd : ℤ} (hg : g client_fd = none)
    (hup : s.running = true) :
    Sound ({ s.opened client_fd .elsewhere with contexts := s.contexts ++ [client_fd] },
      Function.update g client_fd (some s.contexts.length)) := by
  constructor
  · intro fd k hk
    by_cases hfd : fd = client_fd
    · subst hfd
      obtain rfl : s.contexts.length = k := by simpa using hk
      exact ⟨by simp [State.opened], by simp⟩
    · have hold : g fd = some k := (Function.update_of_ne hfd _ _).symm.trans hk
      obtain ⟨h₁, h₂⟩ := h.owned fd k hold
      refine ⟨by simpa [State.opened, hfd] using h₁, ?_⟩
      have hlt : k < s.contexts.length := (List.getElem?_eq_some_iff.mp h₂).1
      exact (List.getElem?_append_left hlt).trans h₂
  · exact fun _ => hup
  · exact h.alive
  · exact h.fresh

theorem Role.client.handed {k : ℕ} (h : w.client k (s, g)) {client_fd : ℤ}
    (hg : g client_fd = none) :
    w.client k ({ s.opened client_fd .elsewhere with contexts := s.contexts ++ [client_fd] },
      Function.update g client_fd (some s.contexts.length)) := by
  have hne : ∀ fd, g fd = some k → fd ≠ client_fd := by
    rintro fd hfd rfl
    rw [hg] at hfd
    cases hfd
  cases w with
  | waiting =>
    intro fd hfd
    rcases Nat.lt_trichotomy k s.contexts.length with hlt | rfl | hgt
    · have hold : g fd = some k := h fd ((List.getElem?_append_left hlt).symm.trans hfd)
      exact (Function.update_of_ne (hne fd hold) _ _).trans hold
    · obtain rfl : client_fd = fd := by simpa using hfd
      exact Function.update_self _ _ _
    · rw [List.getElem?_eq_none (by simpa using hgt)] at hfd
      cases hfd
  | owns fd => exact (Function.update_of_ne (hne fd h) _ _).trans h
  | ended =>
    refine ⟨by simpa using Nat.lt_succ_of_lt h.1, fun fd hfd => ?_⟩
    by_cases heq : fd = client_fd
    · subst heq
      obtain rfl : s.contexts.length = k := by simpa using hfd
      exact absurd h.1 (Nat.lt_irrefl _)
    · exact h.2 fd ((Function.update_of_ne heq _ _).symm.trans hfd)
  | _ => exact h.elim

/-- The descriptor is main's, and main closes it. -/
theorem main_closes {fd : ℤ} {y : Owner} (hs : Sound (s, g)) (hfd : s.fds fd = some y)
    (hy : y ≠ .elsewhere) {u u' : Unit} {a : Unit}
    (hstep : owning .main (u, s, g) (.close fd : NetOp D) a (u', x')) :
    x' = (s.closing .main fd, g) ∧ Sound x' := by
  obtain ⟨s', g'⟩ := x'
  obtain ⟨hdoes, hg'⟩ := hstep
  obtain rfl : s' = s.closing .main fd := hdoes
  have hg : g fd = none := hs.unowned (by rw [hfd]; exact fun h => hy (Option.some.inj h))
  obtain rfl : g' = g := hg'.trans (update_none hg)
  exact ⟨rfl, hs.closed hg rfl rfl rfl rfl rfl⟩

/-- The listening descriptor is not the one that has been accepted. -/
theorem Role.main.accepted_ne {fd client_fd : ℤ} (h : (Role.accepted fd client_fd).main s) :
    fd ≠ client_fd := by
  obtain ⟨-, hl, hc⟩ := h
  rintro rfl
  rw [hl] at hc
  cases hc

/-- main hands the accepted descriptor to a new thread, or keeps it. -/
theorem main_hands {fd client_fd : ℤ} (hs : Sound (s, g))
    (hw : (Role.accepted fd client_fd).main s) {u u' : Unit} {rc : ℤ}
    (hstep : owning .main (u, s, g) (.pthreadCreate client_fd : NetOp D) rc (u', x')) :
    (rc ≠ 0 ∧ x' = (s, g)) ∨ (rc = 0 ∧ (Role.serving fd).main x'.1 ∧ Sound x' ∧
      ∀ (k : ℕ) (w : Role), w.client k (s, g) → w.client k x') := by
  obtain ⟨s', g'⟩ := x'
  obtain ⟨hdoes, hg'⟩ := hstep
  obtain ⟨hrc, rfl⟩ | ⟨rfl, rfl⟩ := hdoes
  · obtain rfl : g' = g := hg'.trans (if_neg hrc)
    exact .inl ⟨hrc, rfl⟩
  · obtain rfl : g' = Function.update g client_fd (some s.contexts.length) := hg'
    have hg : g client_fd = none := hs.unowned (by rw [hw.2.2]; decide)
    have hl : (s.opened client_fd .elsewhere).fds fd = some .listening :=
      (Function.update_of_ne hw.accepted_ne _ _).trans hw.2.1
    exact .inr ⟨rfl, ⟨hw.1, hl⟩, hs.handed hg hw.1, fun k w h => h.handed hg⟩

theorem main_plays {o : NetOp D} {a : NetAns o} {u u' : Unit} (hs : Sound x) (hw : w.main x.1)
    (hmay : mainMay w o) (hstep : owning .main (u, x) o a (u', x')) :
    (∃ w', mainThen w o a w' ∧ w'.main x'.1) ∧ Sound x' ∧
      ∀ (k : ℕ) (w : Role), w.client k x → w.client k x' := by
  -- the operations that are nobody else's concern
  have hquiet : o.quiet = true → mainThen w o a w →
      (∃ w', mainThen w o a w' ∧ w'.main x'.1) ∧ Sound x' ∧
        ∀ (k : ℕ) (w : Role), w.client k x → w.client k x' := by
    intro ho hthen
    obtain ⟨hs', hplays⟩ := quiet_plays hs hstep ho (.inr fun _ => nofun)
    exact ⟨⟨w, hthen, hplays .main w () hw⟩, hs', fun k w => hplays (.client k) w ()⟩
  obtain ⟨s, g⟩ := x
  cases o with
  | socket =>
    obtain rfl := hmay
    obtain ⟨s', g'⟩ := x'
    obtain ⟨hdoes, hg⟩ := hstep
    obtain rfl : g' = g := hg
    obtain ⟨hneg, rfl⟩ | ⟨hpos, hfree, rfl⟩ := hdoes
    · exact ⟨⟨.start, .inl ⟨hneg, rfl⟩, hw⟩, hs, fun _ _ h => h⟩
    · refine ⟨⟨.listening a, .inr ⟨hpos, rfl⟩, hw.1, hw.2, by simp [State.opened]⟩, ?_, ?_⟩
      · exact (hs.opened hfree .listening).frame (fun _ _ _ => rfl) rfl rfl rfl rfl
      · exact fun k w h => h.frame rfl
  | accept fd =>
    obtain rfl := hmay
    obtain ⟨s', g'⟩ := x'
    obtain ⟨hdoes, hg⟩ := hstep
    obtain rfl : g' = g := hg
    obtain ⟨hneg, rfl⟩ | ⟨hpos, hfree, rfl⟩ := hdoes
    · exact ⟨⟨.serving fd, .inl ⟨hneg, rfl⟩, hw⟩, hs, fun _ _ h => h⟩
    · have hw' := hw.opened hfree .accepted
      refine ⟨⟨.accepted fd a, .inr ⟨hpos, rfl⟩, hw'.1, hw'.2, by simp [State.opened]⟩, ?_, ?_⟩
      · exact hs.opened hfree .accepted
      · exact fun k w h => h.frame rfl
  | close fd =>
    rcases hmay with rfl | ⟨l, rfl⟩
    · obtain ⟨rfl, hs'⟩ := main_closes hs hw.2.2 (by decide) hstep
      exact ⟨⟨.start, .inl ⟨rfl, rfl⟩, hw.1, hw.2.1⟩, hs', fun k w h => h.frame rfl⟩
    · obtain ⟨rfl, hs'⟩ := main_closes hs hw.2.2 (by decide) hstep
      refine ⟨⟨.serving l, .inr ⟨l, rfl, rfl⟩, hw.1, ?_⟩, hs', fun k w h => h.frame rfl⟩
      exact (Function.update_of_ne hw.accepted_ne _ _).trans hw.2.1
  | pthreadCreate client_fd =>
    obtain ⟨fd, rfl⟩ := hmay
    obtain ⟨hrc, rfl⟩ | ⟨hrc, hw', hs', hclients⟩ := main_hands hs hw hstep
    · exact ⟨⟨_, .inl ⟨hrc, rfl⟩, hw⟩, hs, fun _ _ h => h⟩
    · exact ⟨⟨.serving fd, .inr ⟨hrc, fd, rfl, rfl⟩, hw'⟩, hs', hclients⟩
  | setRunning b =>
    obtain ⟨rfl, fd, rfl⟩ := hmay
    obtain ⟨s', g'⟩ := x'
    obtain ⟨hdoes, hg⟩ := hstep
    obtain rfl : g' = g := hg
    obtain rfl := hdoes
    refine ⟨⟨.serving fd, ⟨fd, rfl, rfl⟩, rfl, hw.2.2⟩, ?_, fun k w h => h.frame rfl⟩
    exact ⟨hs.owned, fun _ => rfl, fun _ => hw.2.1, hs.fresh⟩
  | destroy y =>
    obtain ⟨s', g'⟩ := x'
    obtain ⟨hdoes, hg⟩ := hstep
    obtain rfl : g' = g := hg
    obtain rfl := hdoes
    have hdown : s.running = false := by
      rcases hmay with rfl | rfl
      · exact hw.1
      · exact hw
    refine ⟨⟨.left, rfl, hdown⟩, ?_, fun k w h => h.frame rfl⟩
    refine ⟨hs.owned, hs.up, fun hup => ?_, hs.fresh⟩
    rw [show s.running = true from hup] at hdown
    cases hdown
  | running =>
    refine hquiet rfl ⟨?_, rfl⟩
    obtain rfl : a = s.running := hstep.1.1
    cases w with
    | start => exact hw.1
    | listening fd => exact hw.1
    | serving fd => exact hw.1
    | accepted fd client_fd => exact hw.1
    | left => exact hw
    | _ => exact hw.elim
  | setsockopt fd => exact hquiet rfl rfl
  | bind fd port => exact hquiet rfl rfl
  | listen fd => exact hquiet rfl rfl
  | inetPton ip => exact hquiet rfl rfl
  | malloc => exact hquiet rfl rfl
  | setServerFd fd => exact hquiet rfl rfl
  | _ => exact hmay.elim

/-! ### The steps of the others -/

/-- The thread of a client closes its descriptor. -/
theorem client_closes {k : ℕ} {fd : ℤ} (hs : Sound (s, g)) (hg : g fd = some k) :
    Sound (s.closing (.client k) fd, Function.update g fd none) ∧
      Role.ended.client k (s.closing (.client k) fd, Function.update g fd none) ∧
      (∀ w : Role, w.main s → w.main (s.closing (.client k) fd)) ∧
      ∀ (j : ℕ) (w : Role), j ≠ k → w.client j (s, g) →
        w.client j (s.closing (.client k) fd, Function.update g fd none) := by
  obtain ⟨hfd, hk⟩ := hs.owned fd k hg
  -- what the others own or main has is another descriptor
  have hother : ∀ fd' j, j ≠ k → g fd' = some j → Function.update g fd none fd' = some j := by
    intro fd' j hj hfd'
    have hne : fd' ≠ fd := by
      rintro rfl
      exact hj (Option.some.inj (hfd'.symm.trans hg))
    exact (Function.update_of_ne hne _ _).trans hfd'
  have hleft : ∀ fd' j, Function.update g fd none fd' = some j → fd' ≠ fd ∧ g fd' = some j := by
    intro fd' j hj
    have hne : fd' ≠ fd := by
      rintro rfl
      rw [Function.update_self] at hj
      cases hj
    exact ⟨hne, (Function.update_of_ne hne _ _).symm.trans hj⟩
  refine ⟨⟨fun fd' j hj => ?_, hs.up, hs.alive, hs.fresh⟩, ⟨?_, fun fd' hfd' => ?_⟩,
    fun w hw => ?_, fun j w hj hw => ?_⟩
  · obtain ⟨hne, hg'⟩ := hleft fd' j hj
    obtain ⟨h₁, h₂⟩ := hs.owned fd' j hg'
    exact ⟨(Function.update_of_ne hne _ _).trans h₁, h₂⟩
  · exact (List.getElem?_eq_some_iff.mp hk).1
  · obtain ⟨hne, hg'⟩ := hleft fd' k hfd'
    exact hne (Option.some.inj ((hs.owned fd' k hg').2.symm.trans hk))
  · refine hw.frame (fun fd' y hy hy' => ?_) rfl rfl
    have hne : fd' ≠ fd := by
      rintro rfl
      exact hy' (Option.some.inj (hy.symm.trans hfd))
    exact (Function.update_of_ne hne _ _).trans hy
  · cases w with
    | waiting => exact fun fd' hfd' => hother fd' j hj (hw fd' hfd')
    | owns fd' => exact hother fd' j hj hw
    | ended => exact ⟨hw.1, fun fd' hfd' => hw.2 fd' (hleft fd' j hfd').2⟩
    | _ => exact hw.elim

theorem client_plays {k : ℕ} {o : NetOp D} {a : NetAns o} {u u' : Unit} (hs : Sound x)
    (hw : w.client k x) (hmay : clientMay w o) (hstep : owning (.client k) (u, x) o a (u', x')) :
    (∃ w', clientThen w o a w' ∧ w'.client k x') ∧ Sound x' ∧
      ∀ t, t ≠ .client k → ∀ w u, plays t w u x → plays t w u x' := by
  -- everything is alive while the thread has its descriptor
  have hquiet : ∀ fd, w = .owns fd → o.quiet = true → clientThen w o a w →
      (∃ w', clientThen w o a w' ∧ w'.client k x') ∧ Sound x' ∧
        ∀ t, t ≠ .client k → ∀ w u, plays t w u x → plays t w u x' := by
    rintro fd rfl ho hthen
    have hne : x.1.contexts ≠ [] := by
      intro hnil
      have hk := (hs.owned fd k hw).2
      rw [hnil] at hk
      cases hk
    obtain ⟨hs', hplays⟩ := quiet_plays hs hstep ho (.inl (hs.alive (hs.up hne)))
    exact ⟨⟨.owns fd, hthen, hplays (.client k) (.owns fd) () hw⟩, hs', fun t _ w u => hplays t w u⟩
  cases o with
  | begin =>
    obtain rfl := hmay
    obtain ⟨s, g⟩ := x
    obtain ⟨s', g'⟩ := x'
    obtain ⟨⟨⟨j, hj, hfd⟩, rfl⟩, hg⟩ := hstep
    obtain rfl : g' = g := hg
    cases hj
    exact ⟨⟨.owns a, rfl, hw a hfd⟩, hs, fun _ _ _ _ h => h⟩
  | close fd =>
    obtain rfl := hmay
    obtain ⟨s, g⟩ := x
    obtain ⟨s', g'⟩ := x'
    obtain ⟨hdoes, hg⟩ := hstep
    obtain rfl : g' = Function.update g fd none := hg
    obtain rfl : s' = s.closing (.client k) fd := hdoes
    obtain ⟨hs', hended, hmain, hclients⟩ := client_closes hs hw
    refine ⟨⟨.ended, rfl, hended⟩, hs', fun t ht w u h => ?_⟩
    cases t with
    | main => exact hmain w h
    | stop => trivial
    | client j => exact hclients j w (fun hj => ht (congrArg Thread.client hj)) h
  | recv fd size => exact hquiet fd hmay rfl rfl
  | running =>
    obtain ⟨fd, hfd⟩ := hmay
    exact hquiet fd hfd rfl rfl
  | handler =>
    obtain ⟨fd, hfd⟩ := hmay
    exact hquiet fd hfd rfl rfl
  | handlerArg =>
    obtain ⟨fd, hfd⟩ := hmay
    exact hquiet fd hfd rfl rfl
  | process =>
    obtain ⟨fd, hfd⟩ := hmay
    exact hquiet fd hfd rfl rfl
  | inProcess o =>
    obtain ⟨fd, hfd, -⟩ := hmay
    exact hquiet fd hfd rfl rfl
  | outside o =>
    obtain ⟨fd, hfd, -⟩ := hmay
    exact hquiet fd hfd rfl rfl
  | _ => exact hmay.elim

theorem Files.plays (h : Files x x') (hs : Sound x) :
    Sound x' ∧ ∀ t w u, plays t w u x → plays t w u x' := by
  cases h with
  | opens fd hfree =>
    refine ⟨hs.opened hfree .elsewhere, fun t w u hw => ?_⟩
    cases t with
    | main => exact Role.main.opened hw hfree .elsewhere
    | stop => trivial
    | client k => exact Role.client.frame hw rfl
  | @closes s g fd hfd hg =>
    refine ⟨hs.closed hg rfl rfl rfl rfl rfl, fun t w u hw => ?_⟩
    cases t with
    | main =>
      refine Role.main.frame hw (fun fd' y hy hy' => ?_) rfl rfl
      have hne : fd' ≠ fd := by
        rintro rfl
        exact hy' (Option.some.inj (hy.symm.trans hfd))
      exact (Function.update_of_ne hne _ _).trans hy
    | stop => trivial
    | client k => exact Role.client.frame hw rfl

/-! ### Runs -/

variable [Libc D] {server : TcpServer} {gateway : Option Gateway} {taken : ℤ → Bool}

def finished : Thread → Role → Prop
  | .main, w => w = .left
  | .stop, _ => True
  | .client _, w => w = .ended

/-- The thread plays its role, with the rest of it to go. -/
def Goes (cfg : Service D) (t : Thread) : Prop :=
  ∃ w, plays t w () cfg.shared ∧ Prog.wp False (roleOf t) (cfg.prog t) (fun _ => finished t) w

theorem service_goes {cfg : Service D}
    (hr : Reachable owning Files (serviceStart D server gateway taken) cfg) :
    Sound cfg.shared ∧ ∀ t, Goes cfg t := by
  have hsem : ∀ t w u x (o : NetOp D) a u' x', Sound x → plays t w u x → (roleOf t).pre w o →
      owning t (u, x) o a (u', x') → (∃ w', (roleOf t).post w o a w' ∧ plays t w' u' x') ∧
        Sound x' ∧ ∀ t', t' ≠ t → ∀ w u, plays t' w u x → plays t' w u x' := by
    intro t w u x o a u' x' hs hw hpre hstep
    cases t with
    | main =>
      obtain ⟨hself, hs', hclients⟩ := main_plays hs hw hpre hstep
      refine ⟨hself, hs', fun t' ht' w u hw => ?_⟩
      cases t' with
      | main => exact absurd rfl ht'
      | stop => trivial
      | client k => exact hclients k w hw
    | stop => exact hpre.elim
    | client k => exact client_plays hs hw hpre hstep
  have hstart : Sound (serviceStart D server gateway taken).shared := by
    refine ⟨fun fd k hk => ?_, fun h => absurd rfl h, fun _ _ => rfl, rfl⟩
    cases hk
  have hgoes : ∀ t, Goes (serviceStart D server gateway taken) t := by
    intro t
    cases t with
    | main => exact ⟨.start, ⟨rfl, fun _ => rfl⟩, mainServes_role server⟩
    | stop => exact ⟨.start, trivial, trivial⟩
    | client k =>
      refine ⟨.waiting, ?_, clientThread_role k gateway⟩
      intro fd hfd
      cases hfd
  exact hr.wp (R := roleOf) hsem (fun x x' hs he => he.plays hs) hstart hgoes

omit [Libc D] in
theorem mainMay_fd {o : NetOp D} {fd : ℤ} (hw : w.main s) (h : mainMay w o) (ho : o.fd? = some fd) :
    s.fds fd = some .listening ∨ s.fds fd = some .accepted := by
  have hlistening : w = .listening fd → s.fds fd = some .listening := by
    rintro rfl
    exact hw.2.2
  have haccepted : (∃ l, w = .accepted l fd) → s.fds fd = some .accepted := by
    rintro ⟨l, rfl⟩
    exact hw.2.2
  cases o with
  | setsockopt fd' =>
    obtain rfl : fd' = fd := Option.some.inj ho
    exact .inl (hlistening h)
  | bind fd' port =>
    obtain rfl : fd' = fd := Option.some.inj ho
    exact .inl (hlistening h)
  | listen fd' =>
    obtain rfl : fd' = fd := Option.some.inj ho
    exact .inl (hlistening h)
  | accept fd' =>
    obtain rfl : fd' = fd := Option.some.inj ho
    obtain rfl : w = .serving fd' := h
    exact .inl hw.2
  | pthreadCreate client_fd =>
    obtain rfl : client_fd = fd := Option.some.inj ho
    exact .inr (haccepted h)
  | close fd' =>
    obtain rfl : fd' = fd := Option.some.inj ho
    rcases h with h | h
    · exact .inl (hlistening h)
    · exact .inr (haccepted h)
  | recv fd' size => exact h.elim
  | shutdown fd' => exact h.elim
  | inProcess o => exact h.elim
  | outside o => exact h.elim
  | _ => cases ho

omit [Libc D] in
theorem clientMay_fd {o : NetOp D} {fd : ℤ} (h : clientMay w o) (ho : o.fd? = some fd) :
    w = .owns fd := by
  have hwithin : ∀ {o : SysOp D}, (∃ fd, w = .owns fd ∧ Within fd o) → sysFd o = some fd →
      w = .owns fd := by
    rintro o ⟨fd', hw, hin⟩ hfd
    cases o with
    | send fd'' data n =>
      obtain rfl : fd'' = fd := Option.some.inj hfd
      obtain rfl : fd'' = fd' := hin
      exact hw
    | sql o => cases hfd
    | _ => exact hin.elim
  cases o with
  | recv fd' size =>
    obtain rfl : fd' = fd := Option.some.inj ho
    exact h
  | close fd' =>
    obtain rfl : fd' = fd := Option.some.inj ho
    exact h
  | inProcess o => exact hwithin h ho
  | outside o => exact hwithin h ho
  | setsockopt fd' => exact h.elim
  | bind fd' port => exact h.elim
  | listen fd' => exact h.elim
  | accept fd' => exact h.elim
  | shutdown fd' => exact h.elim
  | pthreadCreate client_fd => exact h.elim
  | _ => cases ho

/-- The connections are kept apart. -/
structure Separate (cfg : Service D) : Prop where
  /-- A thread uses its own descriptor only, -/
  own : ∀ k o f fd, cfg.prog (.client k) = .call o f → o.fd? = some fd → cfg.shared.2 fd = some k
  /-- which is open until the thread closes it, -/
  opened : ∀ k fd, cfg.shared.2 fd = some k →
    cfg.shared.1.fds fd = some .elsewhere ∧ cfg.shared.1.contexts[k]? = some fd
  /-- before it ends. -/
  closed : ∀ k rc fd, cfg.prog (.client k) = .ret rc → cfg.shared.2 fd ≠ some k
  /-- The descriptors that main uses are its own. -/
  main : ∀ o f fd, cfg.prog .main = .call o f → o.fd? = some fd →
    cfg.shared.1.fds fd = some .listening ∨ cfg.shared.1.fds fd = some .accepted

theorem connections_separate {cfg : Service D}
    (hr : Reachable owning Files (serviceStart D server gateway taken) cfg) : Separate cfg := by
  obtain ⟨hs, hgoes⟩ := service_goes hr
  constructor
  · intro k o f fd hprog ho
    obtain ⟨w, hw, hwp⟩ := hgoes (.client k)
    rw [hprog] at hwp
    obtain rfl := clientMay_fd hwp.1 ho
    exact hw
  · exact fun k fd hfd => hs.owned fd k hfd
  · intro k rc fd hprog
    obtain ⟨w, hw, hwp⟩ := hgoes (.client k)
    rw [hprog] at hwp
    obtain rfl : w = .ended := hwp
    exact hw.2 fd
  · intro o f fd hprog ho
    obtain ⟨w, hw, hwp⟩ := hgoes .main
    rw [hprog] at hwp
    exact mainMay_fd hw hwp.1 ho

/-- `scripted`, with the owners. -/
def scriptedOwning (n : ℕ) (t : Thread) (x : Unit × State × Owners) (o : NetOp Binary64) :
    NetAns o × Unit × State × Owners :=
  let r := scripted n t (x.1, x.2.1) o
  (r.1, r.2.1, r.2.2, handed x.2.1 x.2.2 o r.1)

/-- Two clients, the first of which has left again. -/
def oneLeft : Service Binary64 :=
  schedule (scriptedOwning 2) (List.replicate 18 .main ++ List.replicate 2 (.client 1) ++
      List.replicate 20 (.client 0))
    (serviceStart Binary64 ⟨bytes "127.0.0.1", 8888⟩ (some (openGateway 3)) firstFour)

theorem oneLeft_reachable : Reachable owning Files
    (serviceStart Binary64 ⟨bytes "127.0.0.1", 8888⟩ (some (openGateway 3)) firstFour) oneLeft := by
  have hsem : ∀ t x (o : NetOp Binary64), ready t (x.1, x.2.1) o = true →
      owning t x o (scriptedOwning 2 t x o).1 (scriptedOwning 2 t x o).2 :=
    fun t x o h => ⟨scripted_doing 2 t (x.1, x.2.1) o h, rfl⟩
  exact schedule_reachable hsem (by decide +kernel)

theorem connections_separate_oneLeft : Separate oneLeft ∧ oneLeft.shared.2 6 = some 1 ∧
    oneLeft.shared.1.fds 5 = none ∧ oneLeft.shared.1.contexts = [5, 6] :=
  ⟨connections_separate oneLeft_reachable, by decide +kernel⟩

/-- Once the server runs, it runs. -/
theorem server_stands {cfg : Service D}
    (hr : Reachable owning Files (serviceStart D server gateway taken) cfg) :
    (cfg.shared.1.contexts ≠ [] → cfg.shared.1.running = true) ∧
      (cfg.shared.1.running = true → (∀ y, cfg.shared.1.alive y = true) ∧
        ∀ rc, cfg.prog .main ≠ .ret rc) ∧
      cfg.shared.1.stale = [] := by
  obtain ⟨hs, hgoes⟩ := service_goes hr
  refine ⟨hs.up, fun hup => ⟨hs.alive hup, fun rc hprog => ?_⟩, hs.fresh⟩
  obtain ⟨w, hw, hwp⟩ := hgoes .main
  rw [hprog] at hwp
  obtain rfl : w = .left := hwp
  have hdown : cfg.shared.1.running = false := hw
  rw [hup] at hdown
  cases hdown

theorem server_stands_oneLeft :
    oneLeft.shared.1.contexts ≠ [] ∧ oneLeft.shared.1.running = true ∧
      (∀ y, oneLeft.shared.1.alive y = true) ∧ (∀ rc, oneLeft.prog .main ≠ .ret rc) ∧
      oneLeft.shared.1.stale = [] := by
  have hne : oneLeft.shared.1.contexts ≠ [] := by decide +kernel
  obtain ⟨hup, hstands, hstale⟩ := server_stands oneLeft_reachable
  exact ⟨hne, hup hne, (hstands (hup hne)).1, (hstands (hup hne)).2, hstale⟩

end Transport

end SensorGateway
