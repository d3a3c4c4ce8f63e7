/-
The listening descriptor.

`tcp_server_start` keeps the descriptor that `socket()` has returned in a local
variable and closes it in the end; `tcp_server_stop` closes the one it finds in
`server->server_fd`.  The other threads of the process, those of the clients among
them, open and close descriptors of their own.

* `closed_once` — as long as `tcp_server_stop` closes nothing, because it finds
  `running` zero or `server_fd` reset, each close of `tcp_server_start` is of a
  descriptor of its own, and at its return the listening one has been closed once;
* `closed_twice` — a stop while the server runs: both close the descriptor, and the
  second close hits the file that has got its number in between.
-/
import SensorGateway.Lifecycle

open CString Threads

namespace SensorGateway

namespace Transport

variable {D : Type}

/-! ### The run of a server -/

/-- The other threads open descriptors that are free and close those of their own. -/
inductive Others : State → State → Prop
  | opens {s : State} (fd : ℤ) (h0 : 0 ≤ fd) (h : s.fds fd = none) :
      Others s (s.opened fd .elsewhere)
  | closes {s : State} (fd : ℤ) (h : s.fds fd = some .elsewhere) :
      Others s { s with fds := Function.update s.fds fd none }

/-- One thread is going to call `tcp_server_start`, another `tcp_server_stop`. -/
def listenStart (D : Type) (server : Option TcpServer) (taken : ℤ → Bool) :
    Config Thread (NetOp D) NetAns Unit State ℤ where
  prog
    | .main => tcpServerStart server
    | .stop => (tcpServerStop server).bind fun _ => .ret 0
    | .client _ => .ret 0
  loc _ := ()
  shared := .created taken

/-- How often `close` has been called with the number `fd`. -/
def State.closes (s : State) (fd : ℤ) : ℕ := (s.closed.map Prod.fst).count fd

/-- No close has hit a descriptor that was not of `tcp_server_start`. -/
def State.Own (s : State) : Prop :=
  ∀ fd x, (fd, x) ∈ s.closed → 0 ≤ fd → x = some .listening ∨ x = some .accepted

/-- The descriptors are closed as they should be: when `tcp_server_start` has
returned, the one from `socket()` exactly once. -/
structure ClosedProperly (cfg : Config Thread (NetOp D) NetAns Unit State ℤ) : Prop where
  own : cfg.shared.Own
  once : ∀ rc, cfg.prog .main = .ret rc → ∀ fd ∈ cfg.shared.sockets, cfg.shared.closes fd = 1

/-- The steps in which `tcp_server_stop` does not close a descriptor: when it comes
to its `close`, `server->server_fd` is -1 again. -/
def unraced : Semantics Thread (NetOp D) NetAns Unit State := fun t x o a x' =>
  doing t x o a x' ∧ (t = .stop → ∀ fd, o = .close fd → fd < 0)

/-! ### What tcp_server_start holds -/

inductive Holds
  | nothing
  | listening (fd : ℤ)
  /-- A client has been accepted as well. -/
  | client (fd client_fd : ℤ)
  | closed (fd : ℤ)

/-- What is known of the state while `tcp_server_start` holds this. -/
def Holds.Sees (s : State) : Holds → Prop
  | .nothing => s.sockets = [] ∧ ∀ x ∈ s.closed, x.1 < 0
  | .listening fd =>
    s.sockets = [fd] ∧ s.Own ∧ 0 ≤ fd ∧ s.fds fd = some .listening ∧ s.closes fd = 0
  | .client fd client_fd =>
    (s.sockets = [fd] ∧ s.Own ∧ 0 ≤ fd ∧ s.fds fd = some .listening ∧ s.closes fd = 0) ∧
      0 ≤ client_fd ∧ s.fds client_fd = some .accepted
  | .closed fd => s.sockets = [fd] ∧ s.Own ∧ 0 ≤ fd ∧ s.closes fd = 1

/-- When `tcp_server_start` may issue an operation. -/
def mayIssueNet : Holds → NetOp D → Prop
  | h, .socket => h = .nothing
  | h, .accept fd => h = .listening fd
  | h, .close fd => h = .listening fd ∨ ∃ l, h = .client l fd
  | h, .pthreadCreate client_fd => ∃ l, h = .client l client_fd
  | _, _ => True

/-- What it holds after the operation. -/
def holdsAfter : Holds → (o : NetOp D) → NetAns o → Holds → Prop
  | h, .socket, a, h' => a < 0 ∧ h' = h ∨ 0 ≤ a ∧ h' = .listening a
  | h, .accept fd, a, h' => a < 0 ∧ h' = h ∨ 0 ≤ a ∧ h' = .client fd a
  | h, .close fd, _, h' => h = .listening fd ∧ h' = .closed fd ∨
      ∃ l, h = .client l fd ∧ h' = .listening l
  | h, .pthreadCreate client_fd, a, h' => a ≠ 0 ∧ h' = h ∨
      a = 0 ∧ ∃ l, h = .client l client_fd ∧ h' = .listening l
  | h, _, _, h' => h' = h

def holding : Prog.OpSpec (NetOp D) NetAns Holds := ⟨mayIssueNet, holdsAfter⟩

/-- One turn of the accept loop, after which the client has been handed over. -/
theorem acceptTurn_holds {server_fd : ℤ} :
    Prog.wp False (holding : Prog.OpSpec (NetOp D) NetAns Holds) (acceptTurn server_fd ())
      (fun _ h => h = .listening server_fd) (.listening server_fd) := by
  have hclose : ∀ client_fd, Prog.wp False (holding : Prog.OpSpec (NetOp D) NetAns Holds)
      ((net (.close client_fd)).bind fun _ => (.ret (.inl ()) : Net D (Unit ⊕ Unit)))
      (fun _ h => h = .listening server_fd) (.client server_fd client_fd) := by
    intro client_fd
    refine Prog.wp_perform (.inr ⟨_, rfl⟩) ?_
    rintro _ h (⟨hl, -⟩ | ⟨l, hl, rfl⟩)
    · cases hl
    · cases hl
      rfl
  simp only [acceptTurn, Prog.bind_eq, Prog.pure_eq]
  refine Prog.wp_perform trivial ?_
  rintro a _ rfl
  split
  · refine Prog.wp_perform rfl ?_
    rintro client_fd h hh
    split
    · -- accept has failed
      rename_i hneg
      obtain ⟨-, rfl⟩ | ⟨hpos, -⟩ := hh
      · refine Prog.wp_perform trivial ?_
        rintro b _ rfl
        split
        · rfl
        · rfl
      · exact absurd hpos (Int.not_le.mpr hneg)
    · rename_i hneg
      obtain ⟨hneg', -⟩ | ⟨hpos, rfl⟩ := hh
      · exact absurd hneg' hneg
      refine Prog.wp_perform trivial ?_
      rintro b _ rfl
      split
      · exact hclose client_fd
      · refine Prog.wp_perform ⟨_, rfl⟩ ?_
        rintro rc h (⟨hrc, rfl⟩ | ⟨rfl, l, hl, rfl⟩)
        · rw [if_pos hrc]
          exact hclose client_fd
        · cases hl
          rw [if_neg fun h => h rfl]
          rfl
  · rfl

theorem tcpServerStart_holds (server : Option TcpServer) :
    Prog.wp False (holding : Prog.OpSpec (NetOp D) NetAns Holds) (tcpServerStart server)
      (fun _ h => h = .nothing ∨ ∃ fd, h = .closed fd) .nothing := by
  have hclose : ∀ fd rc, Prog.wp False (holding : Prog.OpSpec (NetOp D) NetAns Holds)
      ((net (.close fd)).bind fun _ => (.ret rc : Net D ℤ))
      (fun _ h => h = .nothing ∨ ∃ fd, h = .closed fd) (.listening fd) := by
    intro fd rc
    refine Prog.wp_perform (.inl rfl) ?_
    rintro _ h (⟨-, rfl⟩ | ⟨l, hl, -⟩)
    · exact .inr ⟨fd, rfl⟩
    · cases hl
  cases server with
  | none => exact .inl rfl
  | some server =>
    simp only [tcpServerStart, Prog.bind_eq, Prog.pure_eq]
    refine Prog.wp_perform trivial ?_
    rintro a _ rfl
    split
    · exact .inl rfl
    refine Prog.wp_perform rfl ?_
    rintro fd h hh
    split
    · rename_i hneg
      obtain ⟨-, rfl⟩ | ⟨hpos, -⟩ := hh
      · exact .inl rfl
      · exact absurd hpos (Int.not_le.mpr hneg)
    rename_i hneg
    obtain ⟨hneg', -⟩ | ⟨-, rfl⟩ := hh
    · exact absurd hneg' hneg
    -- from here on every exit closes the descriptor
    iterate 4
      refine Prog.wp_perform trivial ?_
      rintro rc _ rfl
      split
      · exact hclose fd (-1)
    refine Prog.wp_perform trivial ?_
    rintro _ _ rfl
    refine Prog.wp_perform trivial ?_
    rintro _ _ rfl
    refine Prog.wp_iter (fun _ h => h = .listening fd) rfl ?_
    rintro ⟨⟩ _ rfl
    refine Prog.wp_mono ?_ acceptTurn_holds
    rintro (⟨⟩ | ⟨⟩) _ rfl
    · rfl
    · refine Prog.wp_perform (.inl rfl) ?_
      rintro _ h (⟨-, rfl⟩ | ⟨l, hl, -⟩)
      · refine Prog.wp_perform trivial ?_
        rintro _ _ rfl
        exact .inr ⟨fd, rfl⟩
      · cases hl

/-! ### Steps -/

/-- What the others do changes nothing of it: no descriptor of `tcp_server_start`,
and no close but of a negative number. -/
theorem Holds.Sees.frame {s s' : State} {h : Holds} (hs : h.Sees s)
    (hsockets : s'.sockets = s.sockets)
    (hfds : ∀ fd x, 0 ≤ fd → s.fds fd = some x → x ≠ .elsewhere → s'.fds fd = some x)
    {l : List (ℤ × Option Owner)} (hclosed : s'.closed = s.closed ++ l) (hl : ∀ x ∈ l, x.1 < 0) :
    h.Sees s' := by
  have hown : s.Own → s'.Own := by
    intro ho fd x hmem h0
    rw [hclosed] at hmem
    rcases List.mem_append.mp hmem with hmem | hmem
    · exact ho fd x hmem h0
    · have hneg : fd < 0 := hl _ hmem
      omega
  -- the closes of descriptors are counted as before
  have hcloses : ∀ fd, 0 ≤ fd → s'.closes fd = s.closes fd := by
    intro fd h0
    rw [State.closes, State.closes, hclosed, List.map_append, List.count_append]
    have hcount : (l.map Prod.fst).count fd = 0 := by
      rw [List.count_eq_zero]
      intro hmem
      obtain ⟨x, hx, rfl⟩ := List.mem_map.mp hmem
      have hneg := hl x hx
      omega
    rw [hcount, Nat.add_zero]
  have hlisten : ∀ {fd}, Holds.Sees s (.listening fd) → Holds.Sees s' (.listening fd) := by
    rintro fd ⟨h1, h2, h3, h4, h5⟩
    refine ⟨by rw [hsockets, h1], hown h2, h3, hfds _ _ h3 h4 (by decide), ?_⟩
    rw [hcloses fd h3, h5]
  cases h with
  | nothing =>
    refine ⟨by rw [hsockets, hs.1], fun x hx => ?_⟩
    rw [hclosed] at hx
    rcases List.mem_append.mp hx with hx | hx
    · exact hs.2 x hx
    · exact hl x hx
  | listening fd => exact hlisten hs
  | client fd client_fd => exact ⟨hlisten hs.1, hs.2.1, hfds _ _ hs.2.1 hs.2.2 (by decide)⟩
  | closed fd =>
    obtain ⟨h1, h2, h3, h4⟩ := hs
    exact ⟨by rw [hsockets, h1], hown h2, h3, by rw [hcloses fd h3, h4]⟩

/-- A change of the fields of the server or of the objects. -/
theorem Holds.Sees.same {s s' : State} {h : Holds} (hs : h.Sees s)
    (hsockets : s'.sockets = s.sockets) (hfds : s'.fds = s.fds) (hclosed : s'.closed = s.closed) :
    h.Sees s' := by
  refine hs.frame hsockets ?_ (l := []) (by rw [hclosed, List.append_nil]) (by simp)
  intro fd x _ hx _
  rw [hfds, hx]

/-- The operations that open or close a descriptor or hand one over. -/
def NetOp.ofFds : NetOp D → Bool
  | .socket => true
  | .accept _ => true
  | .close _ => true
  | .pthreadCreate _ => true
  | _ => false

/-- The others leave the descriptors alone. -/
theorem does_other {t : Thread} {s s' : State} {o : NetOp D} {a : NetAns o} (h : does t s o a s')
    (ho : o.ofFds = false) : s'.sockets = s.sockets ∧ s'.fds = s.fds ∧ s'.closed = s.closed := by
  have hsame : ∀ {s' : State}, s' = s →
      s'.sockets = s.sockets ∧ s'.fds = s.fds ∧ s'.closed = s.closed := by
    rintro _ rfl
    exact ⟨rfl, rfl, rfl⟩
  cases o with
  | socket => cases ho
  | accept fd => cases ho
  | close fd => cases ho
  | pthreadCreate client_fd => cases ho
  | setsockopt fd => exact hsame h
  | inetPton ip => exact hsame h
  | bind fd port => exact hsame h
  | listen fd => exact hsame h
  | recv fd size => exact hsame h.2
  | shutdown fd => exact hsame h
  | malloc => exact hsame h
  | begin => exact hsame h.2
  | running =>
    obtain ⟨-, rfl⟩ := h
    exact ⟨rfl, rfl, rfl⟩
  | setRunning b =>
    obtain rfl := h
    exact ⟨rfl, rfl, rfl⟩
  | serverFd => exact hsame h.2
  | setServerFd fd =>
    obtain rfl := h
    exact ⟨rfl, rfl, rfl⟩
  | handler =>
    obtain ⟨-, rfl⟩ := h
    exact ⟨rfl, rfl, rfl⟩
  | handlerArg =>
    obtain rfl := h
    exact ⟨rfl, rfl, rfl⟩
  | process =>
    obtain rfl := h
    exact ⟨rfl, rfl, rfl⟩
  | inProcess o =>
    obtain rfl := h
    exact ⟨rfl, rfl, rfl⟩
  | outside o => exact hsame h
  | destroy x =>
    obtain rfl := h
    exact ⟨rfl, rfl, rfl⟩

theorem State.closes_closing (s : State) (fd fd' : ℤ) :
    (s.closing .main fd).closes fd' = s.closes fd' + if fd = fd' then 1 else 0 := by
  simp only [State.closes, State.closing, List.map_append, List.count_append, List.map_cons,
    List.map_nil, List.count_singleton, beq_iff_eq]

theorem State.own_closing {s : State} (h : s.Own) {fd : ℤ} {x : Owner} (hx : s.fds fd = some x)
    (hx' : x ≠ .elsewhere) : (s.closing .main fd).Own := by
  intro fd' y hmem h0
  rcases List.mem_append.mp hmem with hmem | hmem
  · exact h fd' y hmem h0
  · obtain ⟨-, rfl⟩ := Prod.mk.inj (List.mem_singleton.mp hmem)
    rw [hx]
    cases x with
    | listening => exact .inl rfl
    | accepted => exact .inr rfl
    | elsewhere => exact absurd rfl hx'

theorem main_step {h : Holds} {s s' : State} {o : NetOp D} {a : NetAns o} (hs : h.Sees s)
    (hmay : mayIssueNet h o) (hdoes : does .main s o a s') :
    ∃ h', holdsAfter h o a h' ∧ h'.Sees s' := by
  -- opening a free descriptor is no concern of those that are open
  have hopen : ∀ {fd : ℤ} (x : Owner) {h : Holds}, h.Sees s → s.fds fd = none →
      h.Sees (s.opened fd x) := by
    intro fd x h hs hfree
    refine hs.frame rfl ?_ (l := []) (List.append_nil _).symm (by simp)
    intro fd' y _ hy _
    have hne : fd' ≠ fd := by
      rintro rfl
      rw [hfree] at hy
      cases hy
    simpa [State.opened, hne] using hy
  cases o with
  | socket =>
    obtain rfl := hmay
    obtain ⟨hneg, rfl⟩ | ⟨hpos, hfree, rfl⟩ := hdoes
    · exact ⟨.nothing, .inl ⟨hneg, rfl⟩, hs⟩
    · refine ⟨.listening a, .inr ⟨hpos, rfl⟩, ?_, ?_, hpos, by simp [State.opened], ?_⟩
      · simp [hs.1]
      · intro fd x hmem h0
        have hneg := hs.2 _ hmem
        exact absurd h0 (Int.not_le.mpr hneg)
      · refine List.count_eq_zero.mpr fun hmem => ?_
        obtain ⟨x, hx, hxa⟩ := List.mem_map.mp hmem
        have hneg := hs.2 x hx
        rw [hxa] at hneg
        exact absurd hpos (Int.not_le.mpr hneg)
  | accept fd =>
    obtain rfl := hmay
    obtain ⟨hneg, rfl⟩ | ⟨hpos, hfree, rfl⟩ := hdoes
    · exact ⟨_, .inl ⟨hneg, rfl⟩, hs⟩
    · exact ⟨.client fd a, .inr ⟨hpos, rfl⟩, hopen .accepted hs hfree, hpos, by simp [State.opened]⟩
  | close fd =>
    obtain rfl : s' = s.closing .main fd := hdoes
    rcases hmay with rfl | ⟨l, rfl⟩
    · obtain ⟨h1, h2, h3, h4, h5⟩ := hs
      refine ⟨.closed fd, .inl ⟨rfl, rfl⟩, h1, s.own_closing h2 h4 (by decide), h3, ?_⟩
      rw [State.closes_closing, h5, if_pos rfl]
    · obtain ⟨⟨h1, h2, h3, h4, h5⟩, h6, h7⟩ := hs
      have hne : fd ≠ l := by
        rintro rfl
        rw [h4] at h7
        cases h7
      refine ⟨.listening l, .inr ⟨l, rfl, rfl⟩, h1, s.own_closing h2 h7 (by decide), h3, ?_, ?_⟩
      · simpa [State.closing, hne.symm] using h4
      · rw [State.closes_closing, h5, if_neg hne]
  | pthreadCreate client_fd =>
    obtain ⟨l, rfl⟩ := hmay
    obtain ⟨hrc, rfl⟩ | ⟨hrc, rfl⟩ := hdoes
    · exact ⟨_, .inl ⟨hrc, rfl⟩, hs⟩
    · obtain ⟨⟨h1, h2, h3, h4, h5⟩, h6, h7⟩ := hs
      have hne : l ≠ client_fd := by
        rintro rfl
        rw [h4] at h7
        cases h7
      refine ⟨.listening l, .inr ⟨hrc, l, rfl, rfl⟩, h1, h2, h3, ?_, h5⟩
      simpa [State.opened, hne] using h4
  | _ =>
    obtain ⟨h1, h2, h3⟩ := does_other hdoes rfl
    exact ⟨h, rfl, hs.same h1 h2 h3⟩

theorem stop_step {h : Holds} {s s' : State} {o : NetOp D} {a : NetAns o} (hs : h.Sees s)
    (ho : o.ofStop = true) (hneg : ∀ fd, o = .close fd → fd < 0) (hdoes : does .stop s o a s') :
    h.Sees s' := by
  cases o with
  | close fd =>
    have hfd := hneg fd rfl
    obtain rfl : s' = s.closing .stop fd := hdoes
    refine hs.frame rfl ?_ (l := [(fd, s.fds fd)]) rfl (by simpa using hfd)
    intro fd' x h0 hx _
    have hne : fd' ≠ fd := by omega
    simpa [State.closing, hne] using hx
  | socket => cases ho
  | accept fd => cases ho
  | pthreadCreate client_fd => cases ho
  | _ =>
    obtain ⟨h1, h2, h3⟩ := does_other hdoes rfl
    exact hs.same h1 h2 h3

theorem Others.sees {h : Holds} {s s' : State} (hs : h.Sees s) (ho : Others s s') : h.Sees s' := by
  cases ho with
  | opens fd h0 hfree =>
    refine hs.frame rfl ?_ (l := []) (List.append_nil _).symm (by simp)
    intro fd' x _ hx _
    have hne : fd' ≠ fd := by
      rintro rfl
      rw [hfree] at hx
      cases hx
    simpa [State.opened, hne] using hx
  | closes fd hown =>
    refine hs.frame rfl ?_ (l := []) (List.append_nil _).symm (by simp)
    intro fd' x _ hx hx'
    have hne : fd' ≠ fd := by
      rintro rfl
      rw [hown] at hx
      exact hx' (Option.some.inj hx).symm
    simpa [hne] using hx

/-! ### Runs -/

/-- What each thread is known to issue. -/
def specOf : Thread → Prog.OpSpec (NetOp D) NetAns Holds
  | .main => holding
  | .stop => ⟨fun _ o => o.ofStop = true, fun _ _ _ _ => True⟩
  | .client _ => ⟨fun _ _ => False, fun _ _ _ _ => True⟩

theorem Holds.Sees.own {h : Holds} {s : State} (hs : h.Sees s) : s.Own := by
  cases h with
  | nothing =>
    intro fd x hmem h0
    have hneg := hs.2 _ hmem
    exact absurd h0 (Int.not_le.mpr hneg)
  | listening fd => exact hs.2.1
  | client fd client_fd => exact hs.1.2.1
  | closed fd => exact hs.2.1

/-- The thread of main knows what it holds. -/
def knows (t : Thread) (h : Holds) (_ : Unit) (s : State) : Prop := t = .main → h.Sees s

theorem knows_step {t : Thread} {h : Holds} {u u' : Unit} {s s' : State} {o : NetOp D}
    {a : NetAns o} (hknows : knows t h u s) (hpre : (specOf t).pre h o)
    (hstep : unraced t (u, s) o a (u', s')) :
    (∃ h', (specOf t).post h o a h' ∧ knows t h' u' s') ∧
      ∀ t', t' ≠ t → ∀ h u, knows t' h u s → knows t' h u s' := by
  obtain ⟨hdoes, hneg⟩ := hstep
  cases t with
  | main =>
    obtain ⟨h', hafter, hsees⟩ := main_step (hknows rfl) hpre hdoes
    exact ⟨⟨h', hafter, fun _ => hsees⟩, fun t' ht _ _ _ hmain => absurd hmain ht⟩
  | stop =>
    refine ⟨⟨h, trivial, fun ht => by cases ht⟩, fun t' _ h u hsees hmain => ?_⟩
    exact stop_step (hsees hmain) hpre (hneg rfl) hdoes
  | client k => exact hpre.elim

theorem specOf_listenStart (server : Option TcpServer) (taken : ℤ → Bool) (t : Thread) :
    Prog.wp False (specOf t) ((listenStart D server taken).prog t)
      (fun _ h => t = .main → h = .nothing ∨ ∃ fd, h = .closed fd) Holds.nothing := by
  cases t with
  | main => exact Prog.wp_mono (fun _ _ h _ => h) (tcpServerStart_holds server)
  | stop =>
    have hstop : Prog.wp False (specOf .stop) (tcpServerStop server : Net D Unit)
        (fun _ _ => True) Holds.nothing :=
      (tcpServerStop_only server).wp (fun _ _ _ ho => ⟨ho, fun _ _ _ => trivial⟩) trivial
    exact Prog.wp_seq hstop fun _ _ _ ht => by cases ht
  | client k => exact fun ht => by cases ht

theorem closed_once (server : Option TcpServer) (taken : ℤ → Bool)
    {cfg : Config Thread (NetOp D) NetAns Unit State ℤ}
    (hr : Reachable unraced Others (listenStart D server taken) cfg) : ClosedProperly cfg := by
  have hsem : ∀ t h u s (o : NetOp D) a u' s', True → knows t h u s → (specOf t).pre h o →
      unraced t (u, s) o a (u', s') →
      (∃ h', (specOf t).post h o a h' ∧ knows t h' u' s') ∧ True ∧
        ∀ t', t' ≠ t → ∀ h u, knows t' h u s → knows t' h u s' := by
    intro t h u s o a u' s' _ hknows hpre hstep
    obtain ⟨hself, hothers⟩ := knows_step hknows hpre hstep
    exact ⟨hself, trivial, hothers⟩
  have henv : ∀ s s', True → Others s s' → True ∧ ∀ t h u, knows t h u s → knows t h u s' :=
    fun s s' _ ho => ⟨trivial, fun t h u hsees hmain => ho.sees (hsees hmain)⟩
  have hstart : ∀ t, ∃ h, knows t h ((listenStart D server taken).loc t)
      (listenStart D server taken).shared ∧ Prog.wp False (specOf t)
        ((listenStart D server taken).prog t)
        (fun _ h => t = .main → h = .nothing ∨ ∃ fd, h = .closed fd) h := by
    intro t
    exact ⟨.nothing, fun _ => ⟨rfl, by simp [listenStart, State.created]⟩,
      specOf_listenStart server taken t⟩
  have hend := (hr.wp (R := specOf) (J := fun _ => True)
    (Q := fun t _ (h : Holds) => t = .main → h = .nothing ∨ ∃ fd, h = .closed fd) hsem henv trivial
    hstart).2
  -- what tcp_server_start holds when it returns
  obtain ⟨h, hsees, hmain⟩ := hend .main
  have hsees := hsees rfl
  constructor
  · exact hsees.own
  · intro rc hret fd hfd
    rw [hret, Prog.wp_ret] at hmain
    rcases hmain rfl with rfl | ⟨fd', rfl⟩
    · rw [hsees.1] at hfd
      cases hfd
    · rw [hsees.1, List.mem_singleton] at hfd
      rw [hfd]
      exact hsees.2.2.2

/-! ### A stop while the server runs -/

/-- Standard input, output and error, and the database. -/
def firstFour (fd : ℤ) : Bool := 0 ≤ fd && fd < 4

abbrev Listener := Config Thread (NetOp Binary64) NetAns Unit State ℤ

/-- `close` is called on a descriptor. -/
def NetOp.closesFd : NetOp D → Bool
  | .close fd => 0 ≤ fd
  | _ => false

/-- Start returns before stop looks at `server->server_fd`. -/
def resetInTime : List Thread :=
  List.replicate 10 .main ++ List.replicate 2 .stop ++ List.replicate 4 .main ++ [.stop]

theorem closed_once_reset : ClosedProperly (schedule (scripted 0) resetInTime
    (listenStart Binary64 (some ⟨bytes "127.0.0.1", 8888⟩) firstFour)) := by
  have hsem : ∀ t x (o : NetOp Binary64), (ready t x o && !(t = .stop && o.closesFd)) = true →
      unraced t x o (scripted 0 t x o).1 (scripted 0 t x o).2 := by
    intro t x o h
    rw [Bool.and_eq_true] at h
    refine ⟨scripted_doing 0 t x o h.1, ?_⟩
    rintro rfl fd rfl
    simpa [NetOp.closesFd] using h.2
  exact closed_once _ _ (schedule_reachable hsem (by decide +kernel))

/-- The server waits in accept, and `tcp_server_stop` has run. -/
def stopped : Listener :=
  schedule (scripted 0) (List.replicate 10 .main ++ List.replicate 8 .stop)
    (listenStart Binary64 (some ⟨bytes "127.0.0.1", 8888⟩) firstFour)

/-- Another thread has opened a file. -/
def reopened : Listener := ⟨stopped.prog, stopped.loc, stopped.shared.opened 4 .elsewhere⟩

theorem closed_twice : ¬ ∀ (server : Option TcpServer) (taken : ℤ → Bool) (cfg : Listener),
    Reachable doing Others (listenStart Binary64 server taken) cfg → ClosedProperly cfg := by
  intro h
  have hstopped : Reachable doing Others
      (listenStart Binary64 (some ⟨bytes "127.0.0.1", 8888⟩) firstFour) stopped :=
    schedule_reachable (scripted_doing 0) (by decide +kernel)
  have hreopened : Reachable doing Others
      (listenStart Binary64 (some ⟨bytes "127.0.0.1", 8888⟩) firstFour) reopened :=
    hstopped.tail (.env (.opens 4 (by decide) (by decide +kernel)))
  have hend : Reachable doing Others reopened
      (schedule (scripted 0) (List.replicate 4 .main) reopened) :=
    schedule_reachable (scripted_doing 0) (by decide +kernel)
  -- the last close of tcp_server_start hits that file
  have hown := (h _ _ _ (hreopened.trans hend)).own 4 (some .elsewhere) (by decide +kernel)
    (by decide)
  rcases hown with hown | hown
  · cases hown
  · cases hown

end Transport

end SensorGateway
