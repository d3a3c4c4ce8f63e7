/-
The end of main.

Nothing joins or wakes the threads of the clients: when `tcp_server_start` returns,
main destroys the server, the gateway and the database, whatever these threads are
about to do.

* `never_stale` — as long as main frees the server only when each client thread that
  has been created has left its receive loop, none of them uses an object that has
  been destroyed;
* `used_after_free` — a client that is connected when the server is stopped: its
  thread reads `server->handler` of the freed server.
-/
import SensorGateway.ListeningFd

open CString Threads

namespace SensorGateway

namespace Transport

variable {D : Type} [Libc D] {gateway : Option Gateway} {server : TcpServer} {taken : ℤ → Bool}

/-! ### The process -/

abbrev Process (D : Type) := Config Thread (NetOp D) NetAns Unit State ℤ

/-- main is about to call `tcp_server_start`, another thread `tcp_server_stop`, and
the threads of clients begin when they have been created. -/
def mainStart (D : Type) [Libc D] (server : TcpServer) (gateway : Option Gateway)
    (taken : ℤ → Bool) : Process D where
  prog
    | .main => mainServes (some server)
    | .stop => (tcpServerStop (some server)).bind fun _ => .ret 0
    | .client _ => clientThread gateway
  loc _ := ()
  shared := .created taken

/-- Nothing but the threads is at work. -/
def nobodyElse (_ _ : State) : Prop := False

/-- A thread that has left its receive loop: it has ended, or closes its descriptor
and ends. -/
def LeftLoop (p : Net D ℤ) : Prop :=
  (∃ r, p = .ret r) ∨ ∃ fd k, p = .call (.close fd) k ∧ ∀ a, ∃ r, k a = .ret r

/-- If the server is freed now, all client threads have left their loops. -/
def InTime (cfg cfg' : Process D) : Prop :=
  cfg.shared.alive .server = true → cfg'.shared.alive .server = false →
    ∀ k < cfg.shared.contexts.length, LeftLoop (cfg.prog (.client k))

/-- The steps that free the server in time, and all others. -/
def TimelyStep (cfg cfg' : Process D) : Prop := Step doing nobodyElse cfg cfg' ∧ InTime cfg cfg'

/-! ### What the threads issue -/

/-- Destroying an object, or creating a thread. -/
def NetOp.ofMain : NetOp D → Bool
  | .destroy _ => true
  | .pthreadCreate _ => true
  | _ => false

omit [Libc D] in
/-- The other operations leave the objects and the contexts alone, and use no
destroyed object if there is none, or if the thread is not a client's. -/
theorem does_unshared {t : Thread} {s s' : State} {o : NetOp D} {a : NetAns o}
    (h : does t s o a s') (ho : o.ofMain = false) :
    s'.alive = s.alive ∧ s'.contexts = s.contexts ∧
      ((∀ x, s.alive x = true) ∨ (∀ k, t ≠ .client k) → s'.stale = s.stale) := by
  have htouch : ∀ (s : State) x, (∀ x, s.alive x = true) ∨ (∀ k, t ≠ .client k) →
      (s.touch t x).stale = s.stale := by
    intro s x hsafe
    cases t with
    | client k =>
      rcases hsafe with hsafe | hsafe
      · simp [State.touch, hsafe x]
      · exact absurd rfl (hsafe k)
    | main => rfl
    | stop => rfl
  -- gateway_process uses the gateway and its database
  have hboth : ∀ (s : State), (∀ x, s.alive x = true) ∨ (∀ k, t ≠ .client k) →
      ((s.touch t .gateway).touch t .db).stale = s.stale := by
    intro s hsafe
    rw [htouch (s.touch t .gateway) .db hsafe, htouch s .gateway hsafe]
  have hsame : ∀ {s' : State}, s' = s → s'.alive = s.alive ∧ s'.contexts = s.contexts ∧
      ((∀ x, s.alive x = true) ∨ (∀ k, t ≠ .client k) → s'.stale = s.stale) := by
    rintro _ rfl
    exact ⟨rfl, rfl, fun _ => rfl⟩
  cases o with
  | destroy x => cases ho
  | pthreadCreate client_fd => cases ho
  | socket =>
    obtain ⟨-, rfl⟩ | ⟨-, -, rfl⟩ := h
    · exact hsame rfl
    · exact ⟨rfl, rfl, fun _ => rfl⟩
  | accept fd =>
    obtain ⟨-, rfl⟩ | ⟨-, -, rfl⟩ := h
    · exact hsame rfl
    · exact ⟨rfl, rfl, fun _ => rfl⟩
  | recv fd size => exact hsame h.2
  | close fd =>
    obtain rfl := h
    exact ⟨rfl, rfl, fun _ => rfl⟩
  | begin => exact hsame h.2
  | running =>
    obtain ⟨-, rfl⟩ := h
    exact ⟨rfl, rfl, htouch s .server⟩
  | setRunning b =>
    obtain rfl := h
    exact ⟨rfl, rfl, fun _ => rfl⟩
  | serverFd => exact hsame h.2
  | setServerFd fd =>
    obtain rfl := h
    exact ⟨rfl, rfl, fun _ => rfl⟩
  | handler =>
    obtain ⟨-, rfl⟩ := h
    exact ⟨rfl, rfl, htouch s .server⟩
  | handlerArg =>
    obtain rfl := h
    exact ⟨rfl, rfl, htouch s .server⟩
  | process =>
    obtain rfl := h
    exact ⟨rfl, rfl, hboth s⟩
  | inProcess o =>
    obtain rfl := h
    exact ⟨rfl, rfl, hboth s⟩
  | _ => exact hsame h

/-- What the handler issues; the text it has processed is a string. -/
theorem clientHandlerOver_string {Op : Type} {Ans : Op → Type} {P : Op → Prop}
    {send : Bytes → Prog Op Ans ℤ} {process : Bytes → Prog Op Ans (ℤ × Bytes)}
    (hsend : ∀ text, Prog.Only P (send text))
    (hprocess : ∀ input, (0 : UInt8) ∉ input → Prog.Only P (process input))
    (noGateway : Bool) (event : TcpClientEvent) (data : Bytes) :
    Prog.Only P (clientHandlerOver noGateway send process event data) := by
  simp only [clientHandlerOver, Prog.bind_eq, Prog.pure_eq]
  split
  · trivial
  cases event with
  | connected =>
    refine (hsend _).bind fun rc => ?_
    split
    · trivial
    · trivial
  | disconnected => trivial
  | data =>
    simp only
    split
    · trivial
    split
    · trivial
    refine (hprocess _ (zero_notMem_takeWhile _)).bind fun x => ?_
    split
    · exact (hsend _).bind fun _ => trivial
    split
    · refine (hsend _).bind fun rc => ?_
      split
      · trivial
      · trivial
    · trivial

theorem clientHandlerOver_only {Op : Type} {Ans : Op → Type} {P : Op → Prop}
    {send : Bytes → Prog Op Ans ℤ} {process : Bytes → Prog Op Ans (ℤ × Bytes)}
    (hsend : ∀ text, Prog.Only P (send text)) (hprocess : ∀ input, Prog.Only P (process input))
    (noGateway : Bool) (event : TcpClientEvent) (data : Bytes) :
    Prog.Only P (clientHandlerOver noGateway send process event data) :=
  clientHandlerOver_string hsend (fun input _ => hprocess input) noGateway event data

/-- No thread of a client destroys an object or creates a thread. -/
theorem clientThread_only (gateway : Option Gateway) :
    Prog.Only (fun o => o.ofMain = false) (clientThread gateway : Net D ℤ) := by
  have hmarked : ∀ client_fd event data, Prog.Only (fun o => o.ofMain = false)
      (markedHandler gateway client_fd event data : Net D ℤ) := by
    intro client_fd event data
    have houtside : ∀ o : SysOp D, Prog.Only (fun o => o.ofMain = false) (net (.outside o)) :=
      fun o => ⟨rfl, fun _ => trivial⟩
    have hinside : ∀ o : SysOp D, Prog.Only (fun o => o.ofMain = false) (net (.inProcess o)) :=
      fun o => ⟨rfl, fun _ => trivial⟩
    have hprocess : ∀ input, Prog.Only (fun o => o.ofMain = false)
        ((net .process).bind fun _ =>
          (processes gateway client_fd input : Sys D _).interp fun o => net (.inProcess o)) :=
      fun input => ⟨rfl, fun _ => Prog.Only.interp hinside _⟩
    exact clientHandlerOver_only (fun text => Prog.Only.interp houtside _) hprocess _ _ _
  have honNet : ∀ o, Prog.Only (fun o => o.ofMain = false)
      (onNet gateway o : Net D (ClientAns o)) := by
    intro o
    cases o with
    | upcall client_fd event data => exact ⟨rfl, fun _ => hmarked client_fd event data⟩
    | _ => exact ⟨rfl, fun _ => trivial⟩
  exact ⟨rfl, fun fd => (Prog.Only.interp honNet _).bind fun _ => trivial⟩

/-! ### main -/

/-- What is known of main, given whether the server has been freed: threads are
created before, and the other objects destroyed after it. -/
def tearingDown : Prog.OpSpec (NetOp D) NetAns Bool where
  pre freed o := match o with
    | .pthreadCreate _ => freed = false
    | .destroy .server => True
    | .destroy _ => freed = true
    | _ => True
  post freed o _ freed' := match o with
    | .destroy .server => freed' = true
    | _ => freed' = freed

omit [Libc D] in
/-- Before the end of main nothing is destroyed. -/
theorem only_tearingDown {α : Type} {p : Net D α}
    (h : Prog.Only (fun o => ∀ x, o ≠ .destroy x) p) :
    Prog.wp False tearingDown p (fun _ freed => freed = false) false := by
  refine h.wp (fun freed o hfreed ho => ?_) rfl
  cases o with
  | destroy x => exact absurd rfl (ho x)
  | pthreadCreate client_fd => exact ⟨hfreed, fun _ _ h => h.trans hfreed⟩
  | _ => exact ⟨trivial, fun _ _ h => h.trans hfreed⟩

omit [Libc D] in
theorem acceptTurn_only (server_fd : ℤ) (u : Unit) :
    Prog.Only (fun o => ∀ x, o ≠ .destroy x) (acceptTurn server_fd u : Net D (Unit ⊕ Unit)) := by
  have hne : ∀ o : NetOp D, o.ofMain = false ∨ (∃ fd, o = .pthreadCreate fd) →
      ∀ x, o ≠ .destroy x := by
    rintro o ho x rfl
    rcases ho with ho | ⟨fd, ho⟩
    · cases ho
    · cases ho
  have hclose : ∀ fd, Prog.Only (fun o => ∀ x, o ≠ .destroy x)
      ((net (.close fd)).bind fun _ => (.ret (.inl ()) : Net D (Unit ⊕ Unit))) :=
    fun fd => ⟨hne _ (.inl rfl), fun _ => trivial⟩
  simp only [acceptTurn, Prog.bind_eq, Prog.pure_eq]
  refine .perform (hne _ (.inl rfl)) fun a => ?_
  split
  · refine .perform (hne _ (.inl rfl)) fun client_fd => ?_
    split
    · refine .perform (hne _ (.inl rfl)) fun b => ?_
      split
      · trivial
      · trivial
    · refine .perform (hne _ (.inl rfl)) fun b => ?_
      split
      · exact hclose client_fd
      · refine .perform (hne _ (.inr ⟨_, rfl⟩)) fun rc => ?_
        split
        · exact hclose client_fd
        · trivial
  · trivial

omit [Libc D] in
theorem tcpServerStart_only (server : Option TcpServer) :
    Prog.Only (fun o => ∀ x, o ≠ .destroy x) (tcpServerStart server : Net D ℤ) := by
  have hne : ∀ o : NetOp D, o.ofMain = false → ∀ x, o ≠ .destroy x := by
    rintro o ho x rfl
    cases ho
  have hclose : ∀ fd rc, Prog.Only (fun o => ∀ x, o ≠ .destroy x)
      ((net (.close fd)).bind fun _ => (.ret rc : Net D ℤ)) :=
    fun fd rc => ⟨hne _ rfl, fun _ => trivial⟩
  cases server with
  | none => trivial
  | some server =>
    simp only [tcpServerStart, Prog.bind_eq, Prog.pure_eq]
    refine .perform (hne _ rfl) fun a => ?_
    split
    · trivial
    refine .perform (hne _ rfl) fun fd => ?_
    split
    · trivial
    iterate 4
      refine .perform (hne _ rfl) fun rc => ?_
      split
      · exact hclose fd (-1)
    refine ⟨hne _ rfl, fun _ => ⟨hne _ rfl, fun _ => ⟨acceptTurn_only fd, fun _ => ?_⟩⟩⟩
    exact ⟨hne _ rfl, fun _ => ⟨hne _ rfl, fun _ => trivial⟩⟩

omit [Libc D] in
theorem mainServes_tearingDown (server : TcpServer) :
    Prog.wp False tearingDown (mainServes (some server) : Net D ℤ) (fun _ _ => True) false := by
  simp only [mainServes, Prog.bind_eq, Prog.pure_eq]
  refine Prog.wp_seq (only_tearingDown (tcpServerStart_only (some server))) ?_
  rintro _ _ rfl
  -- from the destruction of the server on
  have hend : Prog.wp False (tearingDown : Prog.OpSpec (NetOp D) NetAns Bool)
      ((net (.destroy .server)).bind fun _ => (net (.destroy .gateway)).bind fun _ =>
        (net (.destroy .db)).bind fun _ => .ret (0 : ℤ)) (fun _ _ => True) false := by
    refine Prog.wp_perform trivial ?_
    rintro _ _ rfl
    refine Prog.wp_perform rfl ?_
    rintro _ _ rfl
    refine Prog.wp_perform rfl ?_
    rintro _ _ rfl
    trivial
  have hstop : Prog.wp False tearingDown (tcpServerStop (some server) : Net D Unit)
      (fun _ freed => freed = false) false := by
    refine only_tearingDown ((tcpServerStop_only (some server)).mono ?_)
    rintro o ho x rfl
    cases ho
  simp only [tcpServerDestroy, Prog.bind_eq, Prog.pure_eq]
  rw [if_neg (by simp), Prog.bind_assoc]
  refine Prog.wp_perform trivial ?_
  rintro a _ rfl
  split
  · rw [Prog.bind_assoc]
    refine Prog.wp_seq hstop ?_
    rintro _ _ rfl
    exact hend
  · exact hend

/-! ### The invariant -/

/-- The server is alive, or every client thread that has been created has left its
loop and no more will be. -/
structure Serving (gateway : Option Gateway) (cfg : Process D) : Prop where
  main : Prog.wp False tearingDown (cfg.prog .main) (fun _ _ => True) (!cfg.shared.alive .server)
  others : ∀ t, t ≠ .main → Prog.Only (fun o => o.ofMain = false) (cfg.prog t)
  waiting : ∀ k, cfg.shared.contexts.length ≤ k → cfg.prog (.client k) = clientThread gateway
  alive : cfg.shared.alive .server = true → ∀ x, cfg.shared.alive x = true
  left : cfg.shared.alive .server = false →
    ∀ k < cfg.shared.contexts.length, LeftLoop (cfg.prog (.client k))
  fresh : cfg.shared.stale = []

theorem Serving.start (server : TcpServer) (gateway : Option Gateway) (taken : ℤ → Bool) :
    Serving gateway (mainStart D server gateway taken) := by
  constructor
  · exact mainServes_tearingDown server
  · intro t ht
    cases t with
    | main => exact absurd rfl ht
    | stop =>
      refine ((tcpServerStop_only (some server)).mono ?_).bind fun _ => trivial
      intro o ho
      cases o with
      | destroy x => cases ho
      | pthreadCreate client_fd => cases ho
      | _ => rfl
    | client k => exact clientThread_only gateway
  · exact fun _ _ => rfl
  · exact fun _ _ => rfl
  · exact fun h => by cases h
  · rfl

variable {cfg cfg' : Process D} {t : Thread} {p : Net D ℤ} {l : Thread → Unit} {s : State}

/-- Another thread goes on with `p`. -/
theorem Serving.goOn (h : Serving gateway cfg) (ht : t ≠ .main)
    (hp : Prog.Only (fun o => o.ofMain = false) p)
    (hclient : ∀ k, t = .client k → k < cfg.shared.contexts.length ∧
      (cfg.shared.alive .server = false → LeftLoop p))
    (halive : s.alive = cfg.shared.alive) (hcontexts : s.contexts = cfg.shared.contexts)
    (hstale : s.stale = cfg.shared.stale) :
    Serving gateway ⟨Function.update cfg.prog t p, l, s⟩ := by
  constructor
  · show Prog.wp False tearingDown (Function.update cfg.prog t p .main) _ (!s.alive .server)
    rw [Function.update_of_ne (Ne.symm ht), halive]
    exact h.main
  · intro t' ht'
    show Prog.Only _ (Function.update cfg.prog t p t')
    by_cases heq : t' = t
    · rw [heq, Function.update_self]
      exact hp
    · rw [Function.update_of_ne heq]
      exact h.others t' ht'
  · intro k hk
    have hk' : cfg.shared.contexts.length ≤ k := hcontexts ▸ hk
    show Function.update cfg.prog t p (.client k) = clientThread gateway
    rw [Function.update_of_ne]
    · exact h.waiting k hk'
    · rintro rfl
      have hlt := (hclient k rfl).1
      omega
  · intro hserver x
    rw [show s.alive x = cfg.shared.alive x by rw [halive]]
    exact h.alive (halive ▸ hserver) x
  · intro hserver k hk
    have hserver' : cfg.shared.alive .server = false := halive ▸ hserver
    show LeftLoop (Function.update cfg.prog t p (.client k))
    by_cases heq : Thread.client k = t
    · rw [heq, Function.update_self]
      exact (hclient k heq.symm).2 hserver'
    · rw [Function.update_of_ne heq]
      exact h.left hserver' k (hcontexts ▸ hk)
  · exact hstale.trans h.fresh

omit [Libc D] in
/-- A thread that has left its loop issues its close and ends. -/
theorem LeftLoop.call {o : NetOp D} {k : NetAns o → Net D ℤ} (h : LeftLoop (.call o k)) :
    (∃ fd, o = .close fd) ∧ ∀ a, LeftLoop (k a) := by
  obtain ⟨r, hr⟩ | ⟨fd, k', hk, hret⟩ := h
  · cases hr
  · cases hk
    exact ⟨⟨fd, rfl⟩, fun a => .inl (hret a)⟩

theorem Serving.call (h : Serving gateway cfg) (ht : t ≠ .main) {o : NetOp D}
    {k : NetAns o → Net D ℤ} (hprog : cfg.prog t = .call o k) {a : NetAns o}
    (hdoes : does t cfg.shared o a s) :
    Serving gateway ⟨Function.update cfg.prog t (k a), l, s⟩ := by
  have honly := h.others t ht
  rw [hprog] at honly
  obtain ⟨halive, hcontexts, hstale⟩ := does_unshared hdoes honly.1
  have hleft : ∀ j, t = .client j → j < cfg.shared.contexts.length ∧
      (cfg.shared.alive .server = false → LeftLoop (.call o k : Net D ℤ)) := by
    rintro j rfl
    have hlt : j < cfg.shared.contexts.length := by
      -- a thread that has not been created cannot begin
      by_contra hge
      have hwait := h.waiting j (Nat.not_lt.mp hge)
      rw [hprog] at hwait
      cases hwait
      obtain ⟨⟨j', hj, hget⟩, -⟩ := hdoes
      cases hj
      exact hge (List.getElem?_eq_some_iff.mp hget).1
    refine ⟨hlt, fun hserver => ?_⟩
    rw [← hprog]
    exact h.left hserver j hlt
  refine h.goOn ht (honly.2 a) (fun j hj => ?_) halive hcontexts ?_
  · exact ⟨(hleft j hj).1, fun hserver => ((hleft j hj).2 hserver).call.2 a⟩
  · cases hserver : cfg.shared.alive .server with
    | true => exact hstale (.inl (h.alive hserver))
    | false =>
      cases t with
      | main => exact absurd rfl ht
      | stop => exact hstale (.inr fun _ hk => by cases hk)
      | client j =>
        -- all it does after its loop is to close its descriptor
        obtain ⟨fd, rfl⟩ := ((hleft j rfl).2 hserver).call.1
        obtain rfl := hdoes
        rfl

/-- main goes on with `p`. -/
theorem Serving.goOnMain (h : Serving gateway cfg)
    (hp : Prog.wp False tearingDown p (fun _ _ => True) (!s.alive .server))
    (hcontexts : cfg.shared.contexts.length ≤ s.contexts.length)
    (halive : s.alive .server = true → ∀ x, s.alive x = true)
    (hleft : s.alive .server = false → ∀ k < s.contexts.length, LeftLoop (cfg.prog (.client k)))
    (hstale : s.stale = cfg.shared.stale) :
    Serving gateway ⟨Function.update cfg.prog .main p, l, s⟩ := by
  have hprog : ∀ t, t ≠ .main → Function.update cfg.prog .main p t = cfg.prog t :=
    fun t ht => Function.update_of_ne ht _ _
  constructor
  · show Prog.wp False tearingDown (Function.update cfg.prog .main p .main) _ (!s.alive .server)
    rw [Function.update_self]
    exact hp
  · intro t ht
    show Prog.Only _ (Function.update cfg.prog .main p t)
    rw [hprog t ht]
    exact h.others t ht
  · intro k hk
    show Function.update cfg.prog .main p (.client k) = clientThread gateway
    rw [hprog _ (by simp)]
    exact h.waiting k (hcontexts.trans hk)
  · exact halive
  · intro hserver k hk
    show LeftLoop (Function.update cfg.prog .main p (.client k))
    rw [hprog _ (by simp)]
    exact hleft hserver k hk
  · exact hstale.trans h.fresh

theorem Serving.callMain (h : Serving gateway cfg) {o : NetOp D} {k : NetAns o → Net D ℤ}
    (hprog : cfg.prog .main = .call o k) {a : NetAns o} (hdoes : does .main cfg.shared o a s)
    (htime : cfg.shared.alive .server = true → s.alive .server = false →
      ∀ j < cfg.shared.contexts.length, LeftLoop (cfg.prog (.client j))) :
    Serving gateway ⟨Function.update cfg.prog .main (k a), l, s⟩ := by
  have hmain := h.main
  rw [hprog, Prog.wp_call] at hmain
  obtain ⟨hpre, hpost⟩ := hmain
  -- whatever has been freed before
  have hleft : s.alive .server = false → ∀ j < cfg.shared.contexts.length,
      LeftLoop (cfg.prog (.client j)) := by
    intro hserver
    cases hbefore : cfg.shared.alive .server with
    | true => exact htime hbefore hserver
    | false => exact h.left hbefore
  cases o with
  | destroy x =>
    obtain rfl : s = { cfg.shared with alive := Function.update cfg.shared.alive x false } := hdoes
    have hserver : Function.update cfg.shared.alive x false .server = false := by
      cases x with
      | server => rfl
      | _ =>
        have hfreed : (!cfg.shared.alive .server) = true := hpre
        simpa using hfreed
    refine h.goOnMain ?_ le_rfl (fun htrue => ?_) hleft rfl
    · show Prog.wp False tearingDown (k a) _ (!Function.update cfg.shared.alive x false .server)
      rw [hserver]
      refine hpost a true ?_
      cases x with
      | server => rfl
      | _ => exact hpre.symm
    · rw [show Function.update cfg.shared.alive x false .server = true from htrue] at hserver
      cases hserver
  | pthreadCreate client_fd =>
    have hunfreed : (!cfg.shared.alive .server) = false := hpre
    have hserver : cfg.shared.alive .server = true := by simpa using hunfreed
    have hp := hpost a _ rfl
    obtain ⟨-, rfl⟩ | ⟨-, rfl⟩ := hdoes
    · exact h.goOnMain hp le_rfl h.alive hleft rfl
    · refine h.goOnMain hp (by simp) h.alive (fun hfalse => ?_) rfl
      rw [show cfg.shared.alive .server = false from hfalse] at hserver
      cases hserver
  | _ =>
    obtain ⟨halive, hcontexts, hstale⟩ := does_unshared hdoes rfl
    have hstale' : s.stale = cfg.shared.stale := hstale (.inr fun _ hk => by cases hk)
    refine h.goOnMain ?_ (by rw [hcontexts]) ?_ (hcontexts ▸ hleft) hstale'
    · rw [halive]
      exact hpost a _ rfl
    · rw [halive]
      exact h.alive

/-- A timely step of any thread keeps the invariant. -/
theorem Serving.step (h : Serving gateway cfg) (hs : TimelyStep cfg cfg') :
    Serving gateway cfg' := by
  obtain ⟨hstep, htime⟩ := hs
  cases hstep with
  | call t hp hdoes =>
    by_cases ht : t = .main
    · subst ht
      exact h.callMain hp hdoes htime
    · exact h.call ht hp hdoes
  | @iter t σ ρ body x k hp =>
    by_cases ht : t = .main
    · subst ht
      refine h.goOnMain ?_ le_rfl h.alive h.left rfl
      have hmain := h.main
      rw [hp] at hmain
      exact Prog.wp_unroll hmain
    · have honly := h.others t ht
      rw [hp] at honly
      refine h.goOn ht honly.unroll ?_ rfl rfl rfl
      rintro j rfl
      -- a thread that has not been created is at its first call
      have hlt : j < cfg.shared.contexts.length := by
        by_contra hge
        have hwait := h.waiting j (Nat.not_lt.mp hge)
        rw [hp] at hwait
        cases hwait
      refine ⟨hlt, fun hserver => ?_⟩
      have hleft := h.left hserver j hlt
      rw [hp] at hleft
      -- a thread that has left its loop is in no loop
      obtain ⟨r, hr⟩ | ⟨fd, k', hk, -⟩ := hleft
      · cases hr
      · cases hk
  | env he => exact he.elim

theorem never_stale (server : TcpServer) (gateway : Option Gateway) (taken : ℤ → Bool)
    (h : Relation.ReflTransGen TimelyStep (mainStart D server gateway taken) cfg) :
    cfg.shared.stale = [] := by
  have hserving : Serving gateway cfg := by
    induction h with
    | refl => exact Serving.start server gateway taken
    | tail _ hs ih => exact ih.step hs
  exact hserving.fresh

/-! ### A client at the end of main -/

/-- Main destroys and creates only when all threads created so far have ended. -/
def punctual (cfg : Process D) (t : Thread) : Bool :=
  match cfg.prog t with
  | .call o _ => ready t (cfg.loc t, cfg.shared) o && (!o.ofMain ||
      (List.range cfg.shared.contexts.length).all fun k => (cfg.prog (.client k)).result?.isSome)
  | _ => true

theorem punctual_turn (n : ℕ) (cfg : Process D) (t : Thread) (h : punctual cfg t = true) :
    turn (scripted n) cfg t = cfg ∨ TimelyStep cfg (turn (scripted n) cfg t) := by
  rw [turn]
  split
  · exact .inl rfl
  · rename_i o k hprog
    rw [punctual, hprog, Bool.and_eq_true, Bool.or_eq_true] at h
    obtain ⟨hready, htime⟩ := h
    have hdoes := scripted_doing n t _ o hready
    refine .inr ⟨.call t hprog hdoes, fun hbefore hafter j hj => ?_⟩
    rcases htime with ho | hall
    · -- nothing has been destroyed
      rw [(does_unshared hdoes (by simpa using ho)).1, hbefore] at hafter
      cases hafter
    · have hended := List.all_eq_true.mp hall j (List.mem_range.mpr hj)
      obtain ⟨r, hr⟩ := Option.isSome_iff_exists.mp hended
      exact .inl ⟨r, Prog.eq_ret_of_result? hr⟩
  · rename_i body x k hprog
    refine .inr ⟨.iter t hprog, fun hbefore hafter => ?_⟩
    rw [hbefore] at hafter
    cases hafter

def oneClient : Process Binary64 :=
  mainStart Binary64 ⟨bytes "127.0.0.1", 8888⟩ (some (openGateway 0)) firstFour

/-- The client is accepted, gets its welcome and closes the connection, and then the
server is stopped. -/
def comesAndGoes : List Thread :=
  List.replicate 15 .main ++ List.replicate 14 (.client 0) ++ List.replicate 8 .stop ++
    List.replicate 8 .main

theorem never_stale_gone : (schedule (scripted 1) comesAndGoes oneClient).shared.stale = [] :=
  never_stale _ _ _ (schedule_follows (punctual_turn 1) (by decide +kernel))

/-- The client is waited for in recv when the server is stopped, and sends or closes
after the end of main. -/
def comesAndStays : List Thread :=
  List.replicate 15 .main ++ List.replicate 8 (.client 0) ++ List.replicate 8 .stop ++
    List.replicate 8 .main ++ List.replicate 2 (.client 0)

theorem used_after_free : ¬ ∀ (server : TcpServer) (gateway : Option Gateway) (taken : ℤ → Bool)
    (cfg : Process Binary64),
    Reachable doing nobodyElse (mainStart Binary64 server gateway taken) cfg →
    cfg.shared.stale = [] := by
  intro h
  have hr : Reachable doing nobodyElse oneClient (schedule (scripted 1) comesAndStays oneClient) :=
    schedule_reachable (scripted_doing 1) (by decide +kernel)
  exact absurd (h _ _ _ _ hr) (by decide +kernel)

end Transport

end SensorGateway
