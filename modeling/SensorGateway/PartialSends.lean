/-
Partial sends.

`send` may take fewer bytes than it is offered, be interrupted, or fail.  The runs
of `tcp_server_send` are looked at with all their calls of `send` written down,
whatever these answer; `taken` is what the successful ones have taken.

* `tcpServerSend_transmits` — the calls resume where the bytes taken so far end, so
  that what is taken is the start of the message: all of it just when 0 is returned;
* `sendTurn_recording` — what one turn of the loop adds to the calls.
-/
import SensorGateway.Traces
import SensorGateway.TcpServer

namespace SensorGateway

namespace PartialSend

variable {D : Type}

/-- What a thread has done, with the answers. -/
abbrev Log (D : Type) := List (Prog.Event (SysOp D) SysAns)

/-- `send` takes no more than it is offered. -/
def Possible : (o : SysOp D) → SysAns o → Prop
  | .send _ data total_sent, .sent n => n ≤ data.length - total_sent
  | _, _ => True

/-- Nothing else is known of the answers, and each may follow on any other. -/
def anySocket (_ : Unit) (o : SysOp D) (a : SysAns o) (_ : Unit) : Prop := Possible o a

def takenBy : Prog.Event (SysOp D) SysAns → Bytes
  | ⟨.send _ data total_sent, .sent n⟩ => (data.drop total_sent).take n
  | _ => []

/-- The bytes that the successful calls of `send` have taken, one after the other. -/
def taken (l : Log D) : Bytes := l.flatMap takenBy

/-- `send` has returned 0, or an error other than `EINTR`. -/
def refuses : Prog.Event (SysOp D) SysAns → Bool
  | ⟨.send _ _ _, .sent n⟩ => n == 0
  | ⟨.send _ _ _, .error⟩ => true
  | _ => false

/-- There are calls of `send` only.  Each offers what has not been taken of the
message, at least one byte, and none is made after a refusal. -/
inductive Resumes (fd : ℤ) (data : Bytes) : Log D → Prop
  | nil : Resumes fd data []
  | concat {l : Log D} (h : Resumes fd data l) (hgo : ∀ x ∈ l, refuses x = false)
      (hlt : (taken l).length < data.length) (rc : SendRc) :
      Resumes fd data (l ++ [⟨.send fd data (taken l).length, rc⟩])

/-- What is asked of a call of `tcp_server_send` that made the calls `l` and returned `r`. -/
structure Transmission (fd : ℤ) (data : Bytes) (l : Log D) (r : ℤ) : Prop where
  code : r = 0 ∨ r = -1
  resumes : Resumes fd data l
  start : taken l <+: data
  all : taken l = data ↔ r = 0
  /-- After -1 the bytes taken are fewer, and the refusal was the last thing to happen. -/
  failed : r = -1 → (taken l).length < data.length ∧
    (fd < 0 ∧ l = [] ∨ ∃ l' x, l = l' ++ [x] ∧ refuses x = true)

/-- What is asked of `tcp_server_send`, of its finished calls and at its loop head. -/
structure Transmits (D : Type) (fd : ℤ) (data : Bytes) : Prop where
  calls : ∀ (r : ℤ) (l : Log D), Prog.Runs (Prog.traced anySocket)
    (tcpServerSend fd data : Sys D ℤ) ((), []) r ((), l) → Transmission fd data l r
  turns : ∀ (n total_sent : ℕ) (l : Log D), Prog.Turned (Prog.traced anySocket)
    (sendTurn fd data) 0 ((), []) n total_sent ((), l) →
      total_sent = (taken l).length ∧ total_sent ≤ data.length

/-! ### The loop -/

variable {fd : ℤ} {data : Bytes} {l : Log D} {total_sent : ℕ} {t : Prop}

@[simp] theorem taken_nil : taken ([] : Log D) = [] := rfl

@[simp] theorem taken_concat (l : Log D) (x : Prog.Event (SysOp D) SysAns) :
    taken (l ++ [x]) = taken l ++ takenBy x := by
  simp [taken]

/-- At the head of the loop, after `total_sent` bytes. -/
structure Pending (fd : ℤ) (data : Bytes) (l : Log D) (total_sent : ℕ) : Prop where
  resumes : Resumes fd data l
  taken : taken l = data.take total_sent
  le : total_sent ≤ data.length
  unrefused : ∀ x ∈ l, refuses x = false

theorem Pending.nil : Pending fd data ([] : Log D) 0 :=
  ⟨.nil, rfl, Nat.zero_le _, by simp⟩

theorem Pending.length (h : Pending fd data l total_sent) :
    (PartialSend.taken l).length = total_sent := by
  rw [h.taken, List.length_take, Nat.min_eq_left h.le]

theorem Pending.call (h : Pending fd data l total_sent) (hlt : total_sent < data.length)
    (rc : SendRc) : Resumes fd data (l ++ [⟨.send fd data total_sent, rc⟩]) := by
  have hcall := h.resumes.concat h.unrefused (by rw [h.length]; exact hlt) rc
  rwa [h.length] at hcall

/-- Some bytes have been taken. -/
theorem Pending.sent (h : Pending fd data l total_sent) (hlt : total_sent < data.length) {n : ℕ}
    (hn : n ≠ 0) (hle : n ≤ data.length - total_sent) :
    Pending fd data (l ++ [⟨.send fd data total_sent, .sent n⟩]) (total_sent + n) where
  resumes := h.call hlt _
  taken := by
    rw [taken_concat, h.taken, List.take_add]
    rfl
  le := by omega
  unrefused := by
    simp only [List.mem_append, List.mem_singleton]
    rintro x (hx | rfl)
    · exact h.unrefused x hx
    · simpa [refuses] using hn

/-- The call was interrupted: the next one offers the same bytes. -/
theorem Pending.eintr (h : Pending fd data l total_sent) (hlt : total_sent < data.length) :
    Pending fd data (l ++ [⟨.send fd data total_sent, .eintr⟩]) total_sent where
  resumes := h.call hlt _
  taken := by
    rw [taken_concat, h.taken]
    exact List.append_nil _
  le := h.le
  unrefused := by
    simp only [List.mem_append, List.mem_singleton]
    rintro x (hx | rfl)
    · exact h.unrefused x hx
    · rfl

theorem Pending.refused (h : Pending fd data l total_sent) (hlt : total_sent < data.length)
    {rc : SendRc} (hrc : rc = .error ∨ rc = .sent 0) :
    Transmission fd data (l ++ [⟨.send fd data total_sent, rc⟩]) (-1) := by
  have hrefuses : refuses (D := D) ⟨.send fd data total_sent, rc⟩ = true := by
    rcases hrc with rfl | rfl
    · rfl
    · rfl
  -- a refused call takes nothing
  have htaken : PartialSend.taken (l ++ [⟨.send fd data total_sent, rc⟩])
      = data.take total_sent := by
    rw [taken_concat, h.taken]
    rcases hrc with rfl | rfl
    · exact List.append_nil _
    · exact List.append_nil _
  have hlen : (data.take total_sent).length < data.length := by
    rw [List.length_take]
    omega
  refine ⟨.inr rfl, h.call hlt rc, ?_, ?_, fun _ => ⟨?_, .inr ⟨l, _, rfl, hrefuses⟩⟩⟩
  · rw [htaken]
    exact List.take_prefix _ _
  · rw [htaken]
    refine iff_of_false (fun heq => ?_) (by decide)
    rw [heq] at hlen
    exact lt_irrefl _ hlen
  · rw [htaken]
    exact hlen

theorem Pending.done (h : Pending fd data l total_sent) (hge : ¬total_sent < data.length) :
    Transmission fd data l 0 := by
  have htaken : PartialSend.taken l = data := by
    rw [h.taken]
    exact List.take_of_length_le (not_lt.mp hge)
  refine ⟨.inl rfl, h.resumes, by rw [htaken], iff_of_true htaken rfl, ?_⟩
  exact fun hr => absurd hr (by decide)

/-- One turn of the loop. -/
theorem sendTurn_recording (h : Pending fd data l total_sent) :
    Prog.wp t (Prog.recording Possible) (sendTurn fd data total_sent)
      (Sum.elim (fun total_sent l => Pending fd data l total_sent)
        fun r l => Transmission fd data l r) l := by
  simp only [sendTurn, Prog.bind_eq, Prog.pure_eq]
  by_cases hlt : total_sent < data.length
  · rw [if_pos hlt]
    refine Prog.wp_perform trivial ?_
    rintro rc l' ⟨hrc, rfl⟩
    cases rc with
    | sent n =>
      simp only
      by_cases hn : n = 0
      · rw [if_pos hn]
        exact h.refused hlt (.inr (by rw [hn]))
      · rw [if_neg hn]
        exact h.sent hlt hn hrc
    | eintr => exact h.eintr hlt
    | error => exact h.refused hlt (.inl rfl)
  · rw [if_neg hlt]
    exact h.done hlt

theorem tcpServerSend_recording (fd : ℤ) (hdata : data ≠ []) :
    Prog.wp False (Prog.recording Possible) (tcpServerSend fd data : Sys D ℤ)
      (fun r l => Transmission fd data l r) [] := by
  have hlen : data.length ≠ 0 := fun h => hdata (List.length_eq_zero_iff.mp h)
  simp only [tcpServerSend, Prog.pure_eq]
  by_cases hfd : fd < 0
  · -- nothing is sent
    rw [if_pos (.inl hfd)]
    refine ⟨.inr rfl, .nil, List.nil_prefix, iff_of_false hdata.symm (by decide), fun _ => ?_⟩
    exact ⟨Nat.pos_of_ne_zero hlen, .inl ⟨hfd, rfl⟩⟩
  · rw [if_neg (by simp [hfd, hlen])]
    refine Prog.wp_iter (fun s l => Pending fd data l s) .nil ?_
    intro s l h
    refine Prog.wp_mono ?_ (sendTurn_recording h)
    rintro (s' | r) l' h'
    · exact h'
    · exact h'

theorem anySocket_possible (w : Unit) (o : SysOp D) (a : SysAns o) (w' : Unit)
    (h : anySocket w o a w') : Possible o a := h

theorem Pending.turned {n : ℕ} {x : Unit × Log D}
    (h : Prog.Turned (Prog.traced anySocket) (sendTurn fd data) 0 ((), []) n total_sent x) :
    Pending fd data x.2 total_sent := by
  induction h with
  | start => exact .nil
  | turn _ hb ih =>
    exact Prog.recording_runs (t := False) anySocket_possible hb (sendTurn_recording ih)

/-- `tcp_server_send` transmits exactly the message, through partial sends and
interruptions. -/
theorem tcpServerSend_transmits (D : Type) (fd : ℤ) (h : data ≠ []) : Transmits D fd data where
  calls r l hr := Prog.recording_runs anySocket_possible hr (tcpServerSend_recording fd h)
  turns n total_sent l hl := by
    have hpending := Pending.turned hl
    exact ⟨hpending.length.symm, hpending.le⟩

/-- One byte is taken, a call is interrupted, and the rest is taken. -/
def resumedLog : Log Unit :=
  [⟨.send 4 (bytes "OK\n") 0, SendRc.sent 1⟩, ⟨.send 4 (bytes "OK\n") 1, SendRc.eintr⟩,
    ⟨.send 4 (bytes "OK\n") 1, SendRc.sent 2⟩]

theorem resumedLog_runs : Prog.Runs (Prog.traced anySocket)
    (tcpServerSend 4 (bytes "OK\n") : Sys Unit ℤ) ((), []) 0 ((), resumedLog) := by
  refine .next (.traced_call (.sent 1) () ?_ (.ret (Sum.inl 1) _)) ?_
  · show 1 ≤ 3 - 0
    omega
  refine .next (.traced_call .eintr () trivial (.ret (Sum.inl 1) _)) ?_
  refine .next (.traced_call (.sent 2) () ?_ (.ret (Sum.inl 3) _)) ?_
  · show 2 ≤ 3 - 1
    omega
  exact .done (.ret (Sum.inr 0) _) (.ret _ _)

theorem resumedLog_transmission : Transmission 4 (bytes "OK\n") resumedLog 0 :=
  (tcpServerSend_transmits Unit 4 (by decide)).calls _ _ resumedLog_runs

end PartialSend

end SensorGateway
