/-
What main acquires and releases.

* `main_nested` — whatever its calls answer, main uses nothing that it does not hold,
  releases in the reverse order of acquiring, and holds nothing when it returns; all
  is released then but a connection that `sqlite3_close` has left open;
* `main_serves` — nothing of tcp_server.c is called before the database, the gateway
  and the server are there, and the exit code says whether setup has succeeded.
-/
import SensorGateway.Startup
import SensorGateway.Teardown

open CString Threads
open Prog (Event)

namespace SensorGateway

open Transport

namespace Startup

variable {D : Type} {α : Type} {s : List Resource}

/-! ### The stack -/

abbrev nested : Prog.OpSpec (MainOp D) MainAns (List Resource) := nesting marks uses

/-- One call, and what is held after each of its answers. -/
theorem call_nested {o : MainOp D} {k : MainAns o → Main D α} {Q : α → List Resource → Prop}
    (huses : ∀ x ∈ uses o, x ∈ s)
    (h : ∀ a, ∃ s', Mark.held s (marks o a) = some s' ∧ Prog.wp False nested (k a) Q s') :
    Prog.wp False nested ((call o).bind k) Q s := by
  refine Prog.wp_perform ⟨huses, fun a => ?_⟩ fun a s' hs' => ?_
  · obtain ⟨s', hs', -⟩ := h a
    rw [hs']
    rfl
  · obtain ⟨s₁, h₁, h₂⟩ := h a
    obtain rfl : s₁ = s' := Option.some.inj (h₁.symm.trans hs')
    exact h₂

theorem calloc_nested {x : Resource} {k : Bool → Main D α} {Q : α → List Resource → Prop}
    (h : Prog.wp False nested (k true) Q (x :: s)) (h' : Prog.wp False nested (k false) Q s) :
    Prog.wp False nested ((call (.calloc x)).bind k) Q s := by
  refine call_nested (fun y hy => by cases hy) fun a => ?_
  cases a with
  | false => exact ⟨s, rfl, h'⟩
  | true => exact ⟨x :: s, rfl, h⟩

theorem free_nested {x : Resource} {k : Unit → Main D α} {Q : α → List Resource → Prop}
    (h : Prog.wp False nested (k ()) Q s) :
    Prog.wp False nested ((call (.free x)).bind k) Q (x :: s) :=
  call_nested (fun y hy => by cases hy) fun _ => ⟨s, Mark.held_release s x true [], h⟩

theorem freed (x : Resource) (s : List Resource) :
    Prog.wp False nested (call (.free x) : Main D Unit) (fun _ s' => s' = s) (x :: s) := by
  show Prog.wp False nested ((call (.free x)).bind .ret) _ _
  exact free_nested rfl

theorem close_nested {c : ℕ} {k : Unit → Main D α} {Q : α → List Resource → Prop}
    (h : Prog.wp False nested (k ()) Q s) :
    Prog.wp False nested ((sqlite3Close c).bind k) Q (.handle c :: s) := by
  simp only [sqlite3Close, Prog.bind_eq, Prog.pure_eq, Prog.bind_assoc, Prog.ret_bind]
  exact call_nested (fun y hy => by cases hy) fun closed =>
    ⟨s, Mark.held_release s (.handle c) closed [], h⟩

/-- What is held when `sqlite3_exec` has failed. -/
def withMessage (error_message : Bool) (s : List Resource) : List Resource :=
  if error_message then .errorMessage :: s else s

theorem exec_nested {c : ℕ} {sql : Bytes} {k : ExecRc → Main D α} {Q : α → List Resource → Prop}
    (hc : .handle c ∈ s) (hdb : .db ∈ s) (h : Prog.wp False nested (k .ok) Q s)
    (h' : ∀ m, Prog.wp False nested (k (.failed m)) Q (withMessage m s)) :
    Prog.wp False nested ((call (.sqliteExec c sql)).bind k) Q s := by
  refine call_nested (by simp [uses, hc, hdb]) fun a => ?_
  rcases a with - | m
  · exact ⟨s, rfl, h⟩
  · refine ⟨withMessage m s, ?_, h' m⟩
    cases m with
    | false => rfl
    | true => rfl

theorem sqliteFree_nested {m : Bool} {k : Unit → Main D α} {Q : α → List Resource → Prop}
    (h : Prog.wp False nested (k ()) Q s) :
    Prog.wp False nested ((call (.sqliteFree m)).bind k) Q (withMessage m s) := by
  refine call_nested (fun y hy => by cases hy) fun _ => ⟨s, ?_, h⟩
  cases m with
  | false => rfl
  | true => exact Mark.held_release s .errorMessage true []

/-! ### The objects -/

theorem sqliteDbInitSchema_nested {c : ℕ} (hc : .handle c ∈ s) (hdb : .db ∈ s) :
    Prog.wp False nested (sqliteDbInitSchema c : Main D ℤ) (fun _ s' => s' = s) s := by
  simp only [sqliteDbInitSchema, Prog.bind_eq, Prog.pure_eq]
  exact exec_nested hc hdb rfl fun m => sqliteFree_nested rfl

theorem sqliteDbOpen_nested (path : Option Bytes) (s : List Resource) :
    Prog.wp False nested (sqliteDbOpen path : Main D (Option SqliteDb)) (fun db s' =>
      db = none ∧ s' = s ∨ ∃ c, db = some ⟨some c⟩ ∧ s' = .handle c :: .db :: s) s := by
  -- every failure after `sqlite3_open` ends like this
  have hclosing : ∀ c, Prog.wp False nested
      ((sqlite3Close c).bind fun _ => (call (.free .db)).bind fun _ =>
        (.ret none : Main D (Option SqliteDb)))
      (fun db s' => db = none ∧ s' = s ∨ ∃ c, db = some ⟨some c⟩ ∧ s' = .handle c :: .db :: s)
      (.handle c :: .db :: s) :=
    fun c => close_nested (free_nested (.inl ⟨rfl, rfl⟩))
  cases path with
  | none => exact .inl ⟨rfl, rfl⟩
  | some path =>
    simp only [sqliteDbOpen, Prog.bind_eq, Prog.pure_eq]
    split
    · exact .inl ⟨rfl, rfl⟩
    refine calloc_nested ?_ (.inl ⟨rfl, rfl⟩)
    refine call_nested (by simp [uses]) fun a => ?_
    rcases a with c | handle
    · refine ⟨.handle c :: .db :: s, rfl, ?_⟩
      refine call_nested (by simp [uses]) fun ok => ⟨_, rfl, ?_⟩
      split
      · exact hclosing c
      refine exec_nested (by simp) (by simp) ?_ fun m => sqliteFree_nested (hclosing c)
      refine Prog.wp_seq (sqliteDbInitSchema_nested (by simp) (by simp)) ?_
      rintro rc _ rfl
      split
      · exact hclosing c
      · exact .inr ⟨c, rfl, rfl⟩
    · cases handle with
      | none => exact ⟨.db :: s, rfl, free_nested (.inl ⟨rfl, rfl⟩)⟩
      | some c => exact ⟨.handle c :: .db :: s, rfl, hclosing c⟩

theorem sqliteDbClose_nested (c : ℕ) (s : List Resource) :
    Prog.wp False nested (sqliteDbClose (some ⟨some c⟩) : Main D Unit) (fun _ s' => s' = s)
      (.handle c :: .db :: s) := by
  simp only [sqliteDbClose, Prog.bind_eq]
  exact close_nested (freed .db s)

/-- What a gateway consists of. -/
def gatewayHeld (s : List Resource) : List Resource :=
  .dataService :: .sensorService :: .gateway :: s

theorem sensorServiceCreate_nested (c : ℕ) (s : List Resource) :
    Prog.wp False nested (sensorServiceCreate (some ⟨some c⟩) : Main D (Option SensorService))
      (fun service s' => service = none ∧ s' = s ∨
        service = some ⟨some ⟨some c⟩⟩ ∧ s' = .sensorService :: s) s := by
  simp only [sensorServiceCreate, Prog.bind_eq, Prog.pure_eq]
  rw [if_neg (by simp)]
  exact calloc_nested (.inr ⟨rfl, rfl⟩) (.inl ⟨rfl, rfl⟩)

theorem dataServiceCreate_nested (c : ℕ) (s : List Resource) :
    Prog.wp False nested (dataServiceCreate (some ⟨some c⟩) : Main D (Option DataService))
      (fun service s' => service = none ∧ s' = s ∨
        service = some ⟨some ⟨some c⟩⟩ ∧ s' = .dataService :: s) s := by
  simp only [dataServiceCreate, Prog.bind_eq, Prog.pure_eq]
  rw [if_neg (by simp)]
  exact calloc_nested (.inr ⟨rfl, rfl⟩) (.inl ⟨rfl, rfl⟩)

theorem gatewayCreate_nested (c : ℕ) (s : List Resource) :
    Prog.wp False nested (gatewayCreate (some ⟨some c⟩) : Main D (Option Gateway))
      (fun gateway s' => gateway = none ∧ s' = s ∨
        gateway = some (openGateway c) ∧ s' = gatewayHeld s) s := by
  simp only [gatewayCreate, Prog.bind_eq, Prog.pure_eq]
  rw [if_neg (by simp)]
  refine calloc_nested ?_ (.inl ⟨rfl, rfl⟩)
  refine Prog.wp_seq (sensorServiceCreate_nested c (.gateway :: s)) ?_
  rintro _ _ (⟨rfl, rfl⟩ | ⟨rfl, rfl⟩)
  · exact free_nested (.inl ⟨rfl, rfl⟩)
  refine Prog.wp_seq (dataServiceCreate_nested c (.sensorService :: .gateway :: s)) ?_
  rintro _ _ (⟨rfl, rfl⟩ | ⟨rfl, rfl⟩)
  · exact Prog.wp_seq (freed .sensorService (.gateway :: s)) fun _ s' hs' =>
      hs' ▸ free_nested (.inl ⟨rfl, rfl⟩)
  · exact .inr ⟨rfl, rfl⟩

theorem gatewayDestroy_nested (c : ℕ) (s : List Resource) :
    Prog.wp False nested (gatewayDestroy (some (openGateway c)) : Main D Unit)
      (fun _ s' => s' = s) (gatewayHeld s) := by
  simp only [gatewayDestroy, Prog.bind_eq]
  refine Prog.wp_seq (freed .dataService (.sensorService :: .gateway :: s)) ?_
  rintro _ _ rfl
  refine Prog.wp_seq (freed .sensorService (.gateway :: s)) ?_
  rintro _ _ rfl
  exact freed .gateway s

theorem tcpServerCreate_nested (ip : Option Bytes) (port : ℤ) (s : List Resource) :
    Prog.wp False nested (tcpServerCreate ip port : Main D (Option TcpServer))
      (fun server s' => server = none ∧ s' = s ∨
        ∃ x : TcpServer, server = some x ∧ s' = .server :: s) s := by
  cases ip with
  | none => exact .inl ⟨rfl, rfl⟩
  | some ip =>
    simp only [tcpServerCreate, Prog.bind_eq, Prog.pure_eq]
    split
    · exact .inl ⟨rfl, rfl⟩
    · exact calloc_nested (.inr ⟨_, rfl, rfl⟩) (.inl ⟨rfl, rfl⟩)

/-! ### main -/

/-- What is held while the server runs. -/
def allHeld (c : ℕ) : List Resource := .server :: gatewayHeld [.handle c, .db]

/-- The operations of tcp_server.c. -/
def MainOp.isNet : MainOp D → Bool
  | .net _ => true
  | _ => false

theorem onMain_net (gateway : Option Gateway) (db : Option SqliteDb) (o : NetOp D)
    (h : ∀ x, o ≠ .destroy x) : Prog.Only (fun o => o.isNet = true) (onMain gateway db o) := by
  cases o with
  | destroy x => exact absurd rfl (h x)
  | _ => exact ⟨rfl, fun _ => trivial⟩

/-- What destroys nothing leaves everything held. -/
theorem net_nested {p : Net D α} (h : Prog.Only (fun o => ∀ x, o ≠ .destroy x) p) (c : ℕ)
    (gateway : Option Gateway) (db : Option SqliteDb) :
    Prog.wp False nested (p.interp (onMain gateway db)) (fun _ s' => s' = allHeld c)
      (allHeld c) := by
  refine (h.interp_of (onMain_net gateway db)).wp ?_ rfl
  rintro s o rfl ho
  obtain ⟨o', rfl⟩ : ∃ o', o = .net o' := by
    cases o with
    | net o' => exact ⟨o', rfl⟩
    | _ => cases ho
  refine ⟨⟨?_, fun _ => rfl⟩, fun _ s' hs' => (Option.some.inj hs').symm⟩
  intro x hx
  simp only [uses, List.mem_cons, List.not_mem_nil, or_false] at hx
  rcases hx with rfl | rfl | rfl | rfl | rfl
  all_goals simp [allHeld, gatewayHeld]

theorem tcpServerDestroy_nested (server : TcpServer) (c : ℕ) (gateway : Option Gateway)
    (db : Option SqliteDb) :
    Prog.wp False nested ((tcpServerDestroy (some server) : Net D Unit).interp (onMain gateway db))
      (fun _ s' => s' = gatewayHeld [.handle c, .db]) (allHeld c) := by
  have hstop : Prog.Only (fun o => ∀ x, o ≠ .destroy x)
      (tcpServerStop (some server) : Net D Unit) := by
    refine (tcpServerStop_only (some server)).mono ?_
    rintro o ho x rfl
    cases ho
  have hrunning : Prog.Only (fun o => ∀ x, o ≠ .destroy x) (net .running : Net D Bool) :=
    ⟨fun _ => nofun, fun _ => trivial⟩
  have hfree : Prog.wp False nested
      ((net (.destroy .server) : Net D Unit).interp (onMain gateway db))
      (fun _ s' => s' = gatewayHeld [.handle c, .db]) (allHeld c) := by
    show Prog.wp False nested ((call (.free .server)).bind .ret) _ _
    exact free_nested rfl
  simp only [tcpServerDestroy, Prog.bind_eq, Prog.pure_eq]
  rw [if_neg (by simp), Prog.interp_bind]
  refine Prog.wp_seq (net_nested hrunning c _ _) ?_
  rintro running _ rfl
  split
  · rw [Prog.interp_bind]
    refine Prog.wp_seq (net_nested hstop c _ _) ?_
    rintro _ _ rfl
    exact hfree
  · exact hfree

/-- main after everything has been created. -/
theorem mainServes_nested (server : TcpServer) (c : ℕ) :
    Prog.wp False nested ((mainServes (some server) : Net D ℤ).interp
      (onMain (some (openGateway c)) (some ⟨some c⟩))) (fun _ s' => s' = []) (allHeld c) := by
  simp only [mainServes, Prog.bind_eq, Prog.pure_eq, Prog.interp_bind]
  refine Prog.wp_seq (net_nested (tcpServerStart_only (some server)) c _ _) ?_
  rintro _ _ rfl
  refine Prog.wp_seq (tcpServerDestroy_nested server c _ _) ?_
  rintro _ _ rfl
  refine Prog.wp_seq (P := fun _ s => s = [.handle c, .db]) ?_ ?_
  · exact Prog.wp_seq (gatewayDestroy_nested c [.handle c, .db]) fun _ _ h => h
  rintro _ _ rfl
  refine Prog.wp_seq (P := fun _ s => s = []) ?_ fun _ _ h => h
  exact Prog.wp_seq (sqliteDbClose_nested c []) fun _ _ h => h

theorem main_wp (w : ℕ) (argv : List Bytes) :
    Prog.wp False nested (main w argv : Main D ℤ) (fun _ s => s = []) [] := by
  unfold main
  simp only [Prog.bind_eq, Prog.pure_eq]
  split
  · rename_i name server_ip port
    split
    · rfl
    refine Prog.wp_seq (sqliteDbOpen_nested (some DB_FILE) []) ?_
    rintro _ _ (⟨rfl, rfl⟩ | ⟨c, rfl, rfl⟩)
    · rfl
    rw [if_neg (by simp)]
    refine Prog.wp_seq (gatewayCreate_nested c [.handle c, .db]) ?_
    rintro _ _ (⟨rfl, rfl⟩ | ⟨rfl, rfl⟩)
    · exact Prog.wp_seq (sqliteDbClose_nested c []) fun _ _ h => h
    rw [if_neg (by simp)]
    refine Prog.wp_seq (tcpServerCreate_nested (some server_ip) _ (gatewayHeld [.handle c, .db])) ?_
    rintro _ _ (⟨rfl, rfl⟩ | ⟨server, rfl, rfl⟩)
    · refine Prog.wp_seq (gatewayDestroy_nested c [.handle c, .db]) ?_
      rintro _ _ rfl
      exact Prog.wp_seq (sqliteDbClose_nested c []) fun _ _ h => h
    rw [if_neg (by simp)]
    simp only [tcpServerSetHandler, Prog.bind_eq, Prog.pure_eq]
    rw [if_neg (by simp), Prog.bind_assoc]
    refine call_nested (by simp [uses, gatewayHeld]) fun _ => ⟨allHeld c, rfl, ?_⟩
    -- setting the handler of a server does not fail
    exact mainServes_nested server c
  · rfl

/-- A release that has failed is a `sqlite3_close` with SQLITE_BUSY. -/
theorem release_false_mem_word {l : List (Event (MainOp D) MainAns)} {x : Resource} :
    .release x false ∈ word marks l ↔ ∃ c, x = .handle c ∧ ⟨.sqliteClose c, false⟩ ∈ l := by
  rw [word, List.mem_flatMap]
  constructor
  · rintro ⟨⟨o, a⟩, he, hx⟩
    cases o with
    | sqliteClose c =>
      cases a with
      | false =>
        refine ⟨c, ?_, he⟩
        simpa [marks] using hx
      | true => simp [marks] at hx
    | calloc y => cases a <;> simp [marks] at hx
    | sqliteOpen path => rcases a with c | (- | c) <;> simp [marks] at hx
    | sqliteExec c sql => rcases a with - | (- | -) <;> simp [marks] at hx
    | sqliteFree m => cases m <;> simp [marks] at hx
    | _ => simp [marks] at hx
  · rintro ⟨c, rfl, he⟩
    exact ⟨_, he, List.mem_singleton_self _⟩

/-- Setup succeeds, and no descriptor is left for the server; `sqlite3_close` succeeds
or not. -/
def crowded (closed : Bool) : (o : MainOp Binary64) → MainAns o
  | .calloc _ => true
  | .free _ => ()
  | .sqliteOpen _ => .ok 0
  | .sqliteBusyTimeout _ _ => true
  | .sqliteExec _ _ => .ok
  | .sqliteFree _ => ()
  | .sqliteClose _ => closed
  | .setHandler _ => ()
  | .net o => (scripted 0 .main ((), State.created fun _ => true) o).1

def arguments : List Bytes := [bytes "gateway", bytes "192.168.171.132", bytes "8888"]

def crowdedOut (closed : Bool) : Alone (MainOp Binary64) MainAns ℤ :=
  answered (crowded closed) 30 (main 64 arguments)

theorem crowdedOut_reachable (closed : Bool) :
    Reachable noted nobody (alone (main 64 arguments)) (crowdedOut closed) :=
  answered_reachable (crowded closed) 30 (main 64 arguments)

theorem crowdedOut_word (closed : Bool) : word marks (crowdedOut closed).shared =
    [.acquire .db, .acquire (.handle 0), .acquire .gateway, .acquire .sensorService,
      .acquire .dataService, .acquire .server, .release .server true, .release .dataService true,
      .release .sensorService true, .release .gateway true, .release (.handle 0) closed,
      .release .db true] := by
  cases closed with
  | false => decide +kernel
  | true => decide +kernel

theorem crowdedOut_ended (closed : Bool) : (crowdedOut closed).prog () = .ret 0 := by
  cases closed with
  | false => exact Prog.eq_ret_of_result? (by decide +kernel)
  | true => exact Prog.eq_ret_of_result? (by decide +kernel)

/-- Whatever its calls answer. -/
theorem main_nested (w : ℕ) (argv : List Bytes) {cfg : Alone (MainOp D) MainAns ℤ}
    (hr : Reachable noted nobody (alone (main w argv)) cfg) :
    Nests marks uses cfg ∧ ∀ x, .release x false ∈ word marks cfg.shared ↔
      ∃ c, x = .handle c ∧ ⟨.sqliteClose c, false⟩ ∈ cfg.shared :=
  ⟨hr.nests (main_wp w argv), fun _ => release_false_mem_word⟩

/-- The connection is closed, or left open. -/
theorem main_nested_crowdedOut :
    (Nests marks uses (crowdedOut true) ∧ (crowdedOut true).prog () = .ret 0 ∧
      ∀ c, ⟨.sqliteClose c, false⟩ ∉ (crowdedOut true).shared) ∧
    Nests marks uses (crowdedOut false) ∧ (crowdedOut false).prog () = .ret 0 ∧
      ⟨.sqliteClose 0, false⟩ ∈ (crowdedOut false).shared := by
  obtain ⟨hnests, hleft⟩ := main_nested 64 arguments (crowdedOut_reachable true)
  obtain ⟨hnests', hleft'⟩ := main_nested 64 arguments (crowdedOut_reachable false)
  refine ⟨⟨hnests, crowdedOut_ended true, fun c hc => ?_⟩, hnests', crowdedOut_ended false, ?_⟩
  · have hmem := (hleft (.handle c)).mpr ⟨c, rfl, hc⟩
    rw [crowdedOut_word] at hmem
    simp at hmem
  · obtain ⟨c, hc, hmem⟩ := (hleft' (.handle 0)).mp (by simp [crowdedOut_word])
    cases hc
    exact hmem

/-! ### When the server is started -/

/-- The arguments of main name this server. -/
def Names (w : ℕ) (argv : List Bytes) (server : TcpServer) : Prop :=
  ∃ name ip port, argv = [name, ip, port] ∧ server = ⟨ip.take 15, atoi w port⟩ ∧
    0 < server.port ∧ server.port ≤ 65535

/-- The calls that create everything, with their answers. -/
def opened (c : ℕ) : List (Event (MainOp D) MainAns) :=
  [⟨.calloc .db, true⟩, ⟨.sqliteOpen DB_FILE, .ok c⟩, ⟨.sqliteBusyTimeout c 1000, true⟩,
    ⟨.sqliteExec c walSql, .ok⟩, ⟨.sqliteExec c schemaSql, .ok⟩]

def created : List (Event (MainOp D) MainAns) :=
  [⟨.calloc .gateway, true⟩, ⟨.calloc .sensorService, true⟩, ⟨.calloc .dataService, true⟩]

def readied (c : ℕ) : List (Event (MainOp D) MainAns) :=
  opened c ++ created ++ [⟨.calloc .server, true⟩, ⟨.setHandler (some (openGateway c)), ()⟩]

def failed : (o : MainOp D) → MainAns o → Bool
  | .calloc _, a => !a
  | .sqliteOpen _, .failed _ => true
  | .sqliteBusyTimeout _ _, a => !a
  | .sqliteExec _ _, .failed _ => true
  | _, _ => false

/-- The address and the port are those of the server. -/
def Issues (server : TcpServer) : NetOp D → Prop
  | .inetPton ip => ip = server.ip
  | .bind _ port => port = server.port
  | _ => True

/-- An operation of tcp_server.c comes after all of setup. -/
def ready (w : ℕ) (argv : List Bytes) :
    Prog.OpSpec (MainOp D) MainAns (List (Event (MainOp D) MainAns)) where
  pre l o := ∀ o', o = .net o' →
    ∃ c server, Names w argv server ∧ readied c <+: l ∧ Issues server o'
  post l o a l' := l' = l ++ [⟨o, a⟩]

/-- Setup has failed. -/
structure Broken (l : List (Event (MainOp D) MainAns)) : Prop where
  silent : ∀ e ∈ l, e.1.isNet = false
  failed : ∃ e ∈ l, failed e.1 e.2 = true

variable {w : ℕ} {argv : List Bytes} {l : List (Event (MainOp D) MainAns)}

theorem ready_call {o : MainOp D} {k : MainAns o → Main D α}
    {Q : α → List (Event (MainOp D) MainAns) → Prop} (ho : o.isNet = false)
    (h : ∀ a, Prog.wp False (ready w argv) (k a) Q (l ++ [⟨o, a⟩])) :
    Prog.wp False (ready w argv) ((call o).bind k) Q l := by
  refine Prog.wp_perform ?_ ?_
  · rintro o' rfl
    cases ho
  · rintro a _ rfl
    exact h a

theorem closed_ready {c : ℕ} {k : Unit → Main D α}
    {Q : α → List (Event (MainOp D) MainAns) → Prop}
    (h : ∀ closed, Prog.wp False (ready w argv) (k ()) Q (l ++ [⟨.sqliteClose c, closed⟩])) :
    Prog.wp False (ready w argv) ((sqlite3Close c).bind k) Q l := by
  simp only [sqlite3Close, Prog.bind_eq, Prog.pure_eq, Prog.bind_assoc, Prog.ret_bind]
  exact ready_call rfl h

theorem Broken.concat (h : Broken l) {o : MainOp D} (ho : o.isNet = false) (a : MainAns o) :
    Broken (l ++ [⟨o, a⟩]) := by
  obtain ⟨e, he, hfailed⟩ := h.failed
  refine ⟨fun e' he' => ?_, e, List.mem_append_left _ he, hfailed⟩
  rcases List.mem_append.mp he' with he' | he'
  · exact h.silent e' he'
  · obtain rfl := List.mem_singleton.mp he'
    exact ho

theorem Broken.of_failed (hl : ∀ e ∈ l, e.1.isNet = false) {o : MainOp D} (ho : o.isNet = false)
    {a : MainAns o} (h : Startup.failed o a = true) : Broken (l ++ [⟨o, a⟩]) := by
  refine ⟨fun e he => ?_, ⟨o, a⟩, by simp, h⟩
  rcases List.mem_append.mp he with he | he
  · exact hl e he
  · obtain rfl := List.mem_singleton.mp he
    exact ho

/-- What is done after a failure. -/
theorem Broken.wp (h : Broken l) {p : Main D α} (hp : Prog.Only (fun o => o.isNet = false) p) :
    Prog.wp False (ready w argv) p (fun _ => Broken) l := by
  refine hp.wp (fun l o hl ho => ⟨?_, ?_⟩) h
  · rintro o' rfl
    cases ho
  · rintro a _ rfl
    exact hl.concat ho a

theorem sqliteDbClose_only (db : Option SqliteDb) :
    Prog.Only (fun o => o.isNet = false) (sqliteDbClose db : Main D Unit) := by
  have hfree : Prog.Only (fun o => o.isNet = false) (call (.free .db) : Main D Unit) :=
    ⟨rfl, fun _ => trivial⟩
  cases db with
  | none => trivial
  | some db =>
    simp only [sqliteDbClose, Prog.bind_eq]
    split
    · exact ⟨rfl, fun _ => hfree⟩
    · exact hfree

theorem gatewayDestroy_only (gateway : Option Gateway) :
    Prog.Only (fun o => o.isNet = false) (gatewayDestroy gateway : Main D Unit) := by
  have hfree : ∀ x, Prog.Only (fun o => o.isNet = false) (call (.free x) : Main D Unit) :=
    fun x => ⟨rfl, fun _ => trivial⟩
  cases gateway with
  | none => trivial
  | some gateway =>
    simp only [gatewayDestroy, dataServiceDestroy, sensorServiceDestroy, Prog.bind_eq, Prog.pure_eq]
    refine Prog.Only.bind ?_ fun _ => Prog.Only.bind ?_ fun _ => hfree .gateway
    · split
      · trivial
      · exact hfree .dataService
    · split
      · trivial
      · exact hfree .sensorService

theorem sqliteDbInitSchema_ready (c : ℕ) (hl : ∀ e ∈ l, e.1.isNet = false) :
    Prog.wp False (ready w argv) (sqliteDbInitSchema c : Main D ℤ)
      (fun rc l' => rc = 0 ∧ l' = l ++ [⟨.sqliteExec c schemaSql, .ok⟩] ∨ rc = -1 ∧ Broken l')
      l := by
  simp only [sqliteDbInitSchema, Prog.bind_eq, Prog.pure_eq]
  refine ready_call rfl fun a => ?_
  rcases a with - | m
  · exact .inl ⟨rfl, rfl⟩
  · exact ready_call rfl fun _ => .inr ⟨rfl, .concat (.of_failed hl rfl rfl) rfl _⟩

theorem sqliteDbOpen_ready :
    Prog.wp False (ready w argv) (sqliteDbOpen (some DB_FILE) : Main D (Option SqliteDb))
      (fun db l => db = none ∧ Broken l ∨ ∃ c, db = some ⟨some c⟩ ∧ l = opened c) [] := by
  have hclosing : ∀ c l, Broken l → Prog.wp False (ready w argv)
      ((sqlite3Close c).bind fun _ => (call (.free .db)).bind fun _ =>
        (.ret none : Main D (Option SqliteDb)))
      (fun db l => db = none ∧ Broken l ∨ ∃ c, db = some ⟨some c⟩ ∧ l = opened c) l :=
    fun c l h => closed_ready fun _ => ready_call rfl fun _ =>
      .inl ⟨rfl, (h.concat rfl _).concat rfl _⟩
  simp only [sqliteDbOpen, Prog.bind_eq, Prog.pure_eq]
  rw [if_neg (by decide)]
  refine ready_call rfl fun a => ?_
  cases a with
  | false => exact .inl ⟨rfl, .of_failed (by simp) rfl rfl⟩
  | true =>
    refine ready_call rfl fun a => ?_
    rcases a with c | handle
    · refine ready_call rfl fun a => ?_
      cases a with
      | false => exact hclosing c _ (.of_failed (by simp [MainOp.isNet]) rfl rfl)
      | true =>
        refine ready_call rfl fun a => ?_
        rcases a with - | m
        · refine Prog.wp_seq (sqliteDbInitSchema_ready c (by simp [MainOp.isNet])) ?_
          rintro _ l (⟨rfl, rfl⟩ | ⟨rfl, hl⟩)
          · exact .inr ⟨c, rfl, rfl⟩
          · exact hclosing c l hl
        · refine ready_call rfl fun _ => hclosing c _ ?_
          exact .concat (.of_failed (by simp [MainOp.isNet]) rfl rfl) rfl _
    · have hbroken : Broken ([] ++ [⟨.calloc .db, true⟩] ++
          [⟨.sqliteOpen DB_FILE, .failed handle⟩] : List (Event (MainOp D) MainAns)) :=
        .of_failed (by simp [MainOp.isNet]) rfl rfl
      cases handle with
      | none => exact ready_call rfl fun _ => .inl ⟨rfl, hbroken.concat rfl _⟩
      | some c => exact hclosing c _ hbroken

theorem sensorServiceCreate_ready (c : ℕ) (hl : ∀ e ∈ l, e.1.isNet = false) :
    Prog.wp False (ready w argv) (sensorServiceCreate (some ⟨some c⟩) : Main D _)
      (fun service l' => service = none ∧ Broken l' ∨
        service = some ⟨some ⟨some c⟩⟩ ∧ l' = l ++ [⟨.calloc .sensorService, true⟩]) l := by
  simp only [sensorServiceCreate, Prog.bind_eq, Prog.pure_eq]
  rw [if_neg (by simp)]
  refine ready_call rfl fun a => ?_
  cases a with
  | false => exact .inl ⟨rfl, .of_failed hl rfl rfl⟩
  | true => exact .inr ⟨rfl, rfl⟩

theorem dataServiceCreate_ready (c : ℕ) (hl : ∀ e ∈ l, e.1.isNet = false) :
    Prog.wp False (ready w argv) (dataServiceCreate (some ⟨some c⟩) : Main D _)
      (fun service l' => service = none ∧ Broken l' ∨
        service = some ⟨some ⟨some c⟩⟩ ∧ l' = l ++ [⟨.calloc .dataService, true⟩]) l := by
  simp only [dataServiceCreate, Prog.bind_eq, Prog.pure_eq]
  rw [if_neg (by simp)]
  refine ready_call rfl fun a => ?_
  cases a with
  | false => exact .inl ⟨rfl, .of_failed hl rfl rfl⟩
  | true => exact .inr ⟨rfl, rfl⟩

theorem gatewayCreate_ready (c : ℕ) :
    Prog.wp False (ready w argv) (gatewayCreate (some ⟨some c⟩) : Main D (Option Gateway))
      (fun gateway l => gateway = none ∧ Broken l ∨
        gateway = some (openGateway c) ∧ l = opened c ++ created) (opened c) := by
  simp only [gatewayCreate, Prog.bind_eq, Prog.pure_eq]
  rw [if_neg (by simp)]
  refine ready_call rfl fun a => ?_
  cases a with
  | false => exact .inl ⟨rfl, .of_failed (by simp [opened, MainOp.isNet]) rfl rfl⟩
  | true =>
    refine Prog.wp_seq (sensorServiceCreate_ready c (by simp [opened, MainOp.isNet])) ?_
    rintro _ l (⟨rfl, hl⟩ | ⟨rfl, rfl⟩)
    · exact ready_call rfl fun _ => .inl ⟨rfl, hl.concat rfl _⟩
    refine Prog.wp_seq (dataServiceCreate_ready c (by simp [opened, MainOp.isNet])) ?_
    rintro _ l (⟨rfl, hl⟩ | ⟨rfl, rfl⟩)
    · refine ready_call rfl fun _ => ready_call rfl fun _ => ?_
      exact .inl ⟨rfl, (hl.concat rfl _).concat rfl _⟩
    · exact .inr ⟨rfl, by simp [created]⟩

theorem tcpServerCreate_ready (ip : Bytes) {port : ℤ} (hport : ¬ (port ≤ 0 ∨ port > 65535))
    (hl : ∀ e ∈ l, e.1.isNet = false) :
    Prog.wp False (ready w argv) (tcpServerCreate (some ip) port : Main D (Option TcpServer))
      (fun server l' => server = none ∧ Broken l' ∨
        server = some ⟨ip.take 15, port⟩ ∧ l' = l ++ [⟨.calloc .server, true⟩]) l := by
  simp only [tcpServerCreate, Prog.bind_eq, Prog.pure_eq]
  rw [if_neg hport]
  refine ready_call rfl fun a => ?_
  cases a with
  | false => exact .inl ⟨rfl, .of_failed hl rfl rfl⟩
  | true => exact .inr ⟨rfl, rfl⟩

/-! ### The server -/

theorem acceptTurn_issues (server : TcpServer) (server_fd : ℤ) (u : Unit) :
    Prog.Only (Issues server) (acceptTurn server_fd u : Net D (Unit ⊕ Unit)) := by
  have hclose : ∀ fd, Prog.Only (Issues server)
      ((net (.close fd)).bind fun _ => (.ret (.inl ()) : Net D (Unit ⊕ Unit))) :=
    fun fd => ⟨trivial, fun _ => trivial⟩
  simp only [acceptTurn, Prog.bind_eq, Prog.pure_eq]
  refine .perform trivial fun a => ?_
  split
  · refine .perform trivial fun client_fd => ?_
    split
    · refine .perform trivial fun b => ?_
      split
      · trivial
      · trivial
    · refine .perform trivial fun b => ?_
      split
      · exact hclose client_fd
      · refine .perform trivial fun rc => ?_
        split
        · exact hclose client_fd
        · trivial
  · trivial

theorem tcpServerStart_issues (server : TcpServer) :
    Prog.Only (Issues server) (tcpServerStart (some server) : Net D ℤ) := by
  have hclose : ∀ fd rc, Prog.Only (Issues server)
      ((net (.close fd)).bind fun _ => (.ret rc : Net D ℤ)) :=
    fun fd rc => ⟨trivial, fun _ => trivial⟩
  simp only [tcpServerStart, Prog.bind_eq, Prog.pure_eq]
  refine .perform trivial fun a => ?_
  split
  · trivial
  refine .perform trivial fun fd => ?_
  split
  · trivial
  refine .perform trivial fun rc => ?_
  split
  · exact hclose fd (-1)
  refine .perform rfl fun rc => ?_
  split
  · exact hclose fd (-1)
  refine .perform rfl fun rc => ?_
  split
  · exact hclose fd (-1)
  refine .perform trivial fun rc => ?_
  split
  · exact hclose fd (-1)
  refine ⟨trivial, fun _ => ⟨trivial, fun _ => ⟨acceptTurn_issues server fd, fun _ => ?_⟩⟩⟩
  exact ⟨trivial, fun _ => ⟨trivial, fun _ => trivial⟩⟩

theorem tcpServerDestroy_issues (server : TcpServer) :
    Prog.Only (Issues server) (tcpServerDestroy (some server) : Net D Unit) := by
  have hdestroy : Prog.Only (Issues server) (net (.destroy .server) : Net D Unit) :=
    ⟨trivial, fun _ => trivial⟩
  simp only [tcpServerDestroy, Prog.bind_eq, Prog.pure_eq]
  rw [if_neg (by simp)]
  refine .perform trivial fun running => ?_
  split
  · refine Prog.Only.bind ((tcpServerStop_only (some server)).mono fun o ho => ?_) fun _ => hdestroy
    cases o with
    | inetPton ip => cases ho
    | bind fd port => cases ho
    | _ => trivial
  · exact hdestroy

/-- What main still calls when setup is done; none of it counts as failed. -/
def Closing (server : TcpServer) : MainOp D → Prop
  | .net o => Issues server o
  | .free _ => True
  | .sqliteClose _ => True
  | _ => False

/-- Setup is done, and nothing has failed. -/
structure Ready (c : ℕ) (l : List (Event (MainOp D) MainAns)) : Prop where
  readied : readied c <+: l
  sound : ∀ e ∈ l, failed e.1 e.2 = false

/-- How main returns after these calls. -/
inductive Exits (w : ℕ) (argv : List Bytes) (l : List (Event (MainOp D) MainAns)) : ℤ → Prop
  /-- The server has been started, if only to fail. -/
  | success {server : TcpServer} {c : ℕ} (hargs : Names w argv server) (h : Ready c l) :
      Exits w argv l 0
  | failure (silent : ∀ e ∈ l, e.1.isNet = false)
      (h : (∀ server, ¬ Names w argv server) ∨ ∃ e ∈ l, failed e.1 e.2 = true) : Exits w argv l 1

theorem Broken.exits (h : Broken l) : Exits w argv l 1 := .failure h.silent (.inr h.failed)

theorem Ready.wp {server : TcpServer} {c : ℕ} (h : Ready c l) (hargs : Names w argv server)
    {p : Main D α} (hp : Prog.Only (Closing server) p) :
    Prog.wp False (ready w argv) p (fun _ => Ready c) l := by
  refine hp.wp (fun l o hl ho => ⟨?_, ?_⟩) h
  · rintro o' rfl
    exact ⟨c, server, hargs, hl.readied, ho⟩
  · rintro a _ rfl
    refine ⟨hl.readied.trans (List.prefix_append _ _), fun e he => ?_⟩
    rcases List.mem_append.mp he with he | he
    · exact hl.sound e he
    · obtain rfl := List.mem_singleton.mp he
      cases o with
      | net _ => rfl
      | free _ => rfl
      | sqliteClose _ => rfl
      | _ => exact ho.elim

theorem onMain_closing {server : TcpServer} (c : ℕ) (o : NetOp D) (h : Issues server o) :
    Prog.Only (Closing server) (onMain (some (openGateway c)) (some ⟨some c⟩) o) := by
  have hcall : ∀ o : MainOp D, Closing server o → Prog.Only (Closing server) (call o) :=
    fun o ho => ⟨ho, fun _ => trivial⟩
  cases o with
  | destroy x =>
    cases x with
    | server => exact hcall (.free .server) trivial
    | gateway =>
      refine (hcall (.free .dataService) trivial).bind fun _ => ?_
      exact (hcall (.free .sensorService) trivial).bind fun _ => hcall (.free .gateway) trivial
    | db => exact (hcall (.sqliteClose c) trivial).bind fun _ => hcall (.free .db) trivial
  | _ => exact hcall _ h

theorem mainServes_ready {server : TcpServer} {c : ℕ} (hl : Ready c l)
    (hargs : Names w argv server) :
    Prog.wp False (ready w argv) ((mainServes (some server) : Net D ℤ).interp
      (onMain (some (openGateway c)) (some ⟨some c⟩))) (fun rc l => rc = 0 ∧ Ready c l) l := by
  have hpart : ∀ {α : Type} {p : Net D α}, Prog.Only (Issues server) p → ∀ l, Ready c l →
      Prog.wp False (ready w argv) (p.interp (onMain (some (openGateway c)) (some ⟨some c⟩)))
        (fun _ => Ready c) l :=
    fun hp l hl => hl.wp hargs (hp.interp_of (onMain_closing c))
  have hdestroy : ∀ x, Prog.Only (Issues server) (net (.destroy x) : Net D Unit) :=
    fun x => ⟨trivial, fun _ => trivial⟩
  simp only [mainServes, Prog.bind_eq, Prog.pure_eq, Prog.interp_bind]
  refine Prog.wp_seq (hpart (tcpServerStart_issues server) l hl) fun _ l hl => ?_
  refine Prog.wp_seq (hpart (tcpServerDestroy_issues server) l hl) fun _ l hl => ?_
  refine Prog.wp_seq (hpart (hdestroy .gateway) l hl) fun _ l hl => ?_
  exact Prog.wp_seq (hpart (hdestroy .db) l hl) fun _ l hl => ⟨rfl, hl⟩

theorem main_ready (w : ℕ) (argv : List Bytes) :
    Prog.wp False (ready w argv) (main w argv : Main D ℤ) (fun rc l => Exits w argv l rc) [] := by
  unfold main
  simp only [Prog.bind_eq, Prog.pure_eq]
  split
  · rename_i name server_ip port
    split
    · rename_i hport
      refine .failure (by simp) (.inl ?_)
      rintro server ⟨name', ip', port', heq, rfl, hlo, hhi⟩
      cases heq
      simp only at hlo hhi
      omega
    rename_i hport
    have hargs : Names w [name, server_ip, port] ⟨server_ip.take 15, atoi w port⟩ := by
      refine ⟨name, server_ip, port, rfl, rfl, ?_, ?_⟩
      · simp only
        omega
      · simp only
        omega
    refine Prog.wp_seq sqliteDbOpen_ready ?_
    rintro _ l (⟨rfl, hl⟩ | ⟨c, rfl, rfl⟩)
    · exact hl.exits
    rw [if_neg (by simp)]
    refine Prog.wp_seq (gatewayCreate_ready c) ?_
    rintro _ l (⟨rfl, hl⟩ | ⟨rfl, rfl⟩)
    · exact Prog.wp_seq (hl.wp (sqliteDbClose_only _)) fun _ l hl => hl.exits
    rw [if_neg (by simp)]
    refine Prog.wp_seq (tcpServerCreate_ready server_ip hport
      (by simp [opened, created, MainOp.isNet])) ?_
    rintro _ l (⟨rfl, hl⟩ | ⟨rfl, rfl⟩)
    · refine Prog.wp_seq (hl.wp (gatewayDestroy_only _)) fun _ l hl => ?_
      exact Prog.wp_seq (hl.wp (sqliteDbClose_only _)) fun _ l hl => hl.exits
    simp only [tcpServerSetHandler, Prog.bind_eq, Prog.pure_eq]
    rw [if_neg (by simp), if_neg (by simp), Prog.bind_assoc]
    refine ready_call rfl fun _ => ?_
    -- setting the handler of a server does not fail
    have hready : Ready c (opened c ++ created ++ [⟨.calloc .server, true⟩] ++
        [⟨.setHandler (some (openGateway c)), ()⟩] : List (Event (MainOp D) MainAns)) := by
      refine ⟨?_, by simp [opened, created, failed]⟩
      rw [readied, List.append_assoc _ [_] [_]]
      exact List.prefix_rfl
    refine Prog.wp_mono ?_ (mainServes_ready hready hargs)
    rintro rc l ⟨rfl, hl⟩
    exact .success hargs hl
  · rename_i hlen
    refine .failure (by simp) (.inl ?_)
    rintro server ⟨name, ip, port, rfl, -⟩
    exact hlen name ip port rfl

/-- Nothing of tcp_server.c is called before everything is there, with the address and
the port of the arguments; main fails if and only if these name no server or a call
of setup fails. -/
theorem main_serves (w : ℕ) (argv : List Bytes) {cfg : Alone (MainOp D) MainAns ℤ}
    (hr : Reachable noted nobody (alone (main w argv)) cfg) :
    Guarded (fun l e => ∀ o, e.1 = .net o →
        ∃ c server, Names w argv server ∧ readied c <+: l ∧ Issues server o) cfg.shared ∧
      ∀ rc, cfg.prog () = .ret rc → Exits w argv cfg.shared rc := by
  obtain ⟨hguarded, l, hl, hwp⟩ := hr.guarded (fun l l' => l = l')
    (fun l l' o a h _ => ⟨l ++ [⟨o, a⟩], rfl, by rw [h]⟩) rfl (main_ready w argv)
  refine ⟨fun l₁ e l₂ heq => ?_, fun rc hrc => ?_⟩
  · obtain ⟨_, rfl, hpre⟩ := hguarded l₁ e l₂ heq
    exact hpre
  · rw [hrc] at hwp
    exact hl ▸ hwp

theorem main_serves_crowdedOut :
    (Guarded (fun l e => ∀ o, e.1 = .net o → ∃ c server, Names 64 arguments server ∧
        readied c <+: l ∧ Issues server o) (crowdedOut true).shared ∧
      ∀ rc, (crowdedOut true).prog () = .ret rc → Exits 64 arguments (crowdedOut true).shared rc) ∧
    (crowdedOut true).prog () = .ret 0 :=
  ⟨main_serves 64 arguments (crowdedOut_reachable true), crowdedOut_ended true⟩

end Startup

end SensorGateway
