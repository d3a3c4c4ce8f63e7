/-
Client threads share the saved pointer of `strtok`.

Every client thread parses into a buffer of its own, but `strtok` keeps one
saved pointer for the whole process: a call `strtok(NULL, ",")` goes on where
the last call of any thread stopped.

* `undisturbed_parses` — as long as no other thread calls `strtok` between two
  calls of one scan, every parse returns what it returns alone;
* `help_cuts_query` — a HELP parsed between two `strtok` calls of a QUERY makes
  the QUERY fail.
-/
import SensorGateway.ParserSpec
import SensorGateway.Threads

open CString Threads

namespace TcpParser

variable {D : Type} [Libc D]

/-- The memory of the process, and the thread that called `strtok` last. -/
structure Process where
  mem : ParserMem
  last : Option ℕ

/-- What an operation of thread `t` returns and does to the process. -/
def act (t : ℕ) (s : Process) (o : ParserOp) : ParserAns o × Process :=
  let r := parserStep s.mem o
  (r.1, ⟨r.2, match o with
    | .strtok _ => some t
    | _ => s.last⟩)

/-- Threads keep no state of their own besides their program. -/
def actHandler (t : ℕ) (w : Unit × Process) (o : ParserOp) : ParserAns o × Unit × Process :=
  ((act t w.2 o).1, (), (act t w.2 o).2)

/-- Every `strtok` call is one atomic step, and calls may come in any order. -/
def anyOrder : Semantics ℕ ParserOp ParserAns Unit Process :=
  fun t w o a w' => (a, w') = actHandler t w o

/-- When thread `t` continues a scan, the last `strtok` call was its own. -/
def Undisturbed (t : ℕ) (s : Process) (o : ParserOp) : Prop :=
  o = .strtok none → s.last = some t

/-- The runs in which no other thread calls `strtok` in the middle of a scan. -/
def undisturbed : Semantics ℕ ParserOp ParserAns Unit Process :=
  fun t w o a w' => Undisturbed t w.2 o ∧ anyOrder t w o a w'

/-- A thread that parses the inputs of `calls` one after another. -/
def parseAll (t : ℕ) : List (Bytes × TcpCommand D) → Parser (List (ℤ × TcpCommand D))
  | [] => return []
  | call :: calls => do
    let r ← tcpParserParse t call.1 call.2
    let rs ← parseAll t calls
    return r :: rs

/-- All threads before their first call. -/
def startConfig (calls : ℕ → List (Bytes × TcpCommand D)) (mem : ParserMem) :
    Config ℕ ParserOp ParserAns Unit Process (List (ℤ × TcpCommand D)) :=
  ⟨fun t => parseAll t (calls t), fun _ => (), ⟨mem, none⟩⟩

/-! ### A thread uses pointers into its own buffer -/

def OwnOp (t : ℕ) : ParserOp → Prop
  | .strcpy b _ => b = t
  | .strtok none => True
  | .strtok (some p) => p.1 = t
  | .trim p => p.1 = t
  | .load p => p.1 = t

def OwnAns (t : ℕ) : (o : ParserOp) → ParserAns o → Prop
  | .strcpy _ _, _ => True
  | .strtok _, a => ∀ p ∈ a, p.1 = t
  | .trim _, a => a.1 = t
  | .load _, _ => True

def own (t : ℕ) : Prog.OpSpec ParserOp ParserAns Unit :=
  ⟨fun _ o => OwnOp t o, fun _ o a _ => OwnAns t o a⟩

theorem splitLoop_own {t room : ℕ} : ∀ {token : Option Ptr} {fields : List Ptr},
    (∀ p ∈ token, p.1 = t) → (∀ p ∈ fields, p.1 = t) →
    Prog.wp False (own t) (splitLoop room token fields)
      (fun r _ => ∀ fs ∈ r, ∀ p ∈ fs, p.1 = t) () := by
  induction room with
  | zero =>
    intro token fields _ hfields
    rcases token with _ | p
    · rintro fs ⟨⟩
      exact hfields
    · rintro fs ⟨⟩
  | succ room ih =>
    intro token fields htoken hfields
    rcases token with _ | p
    · rintro fs ⟨⟩
      exact hfields
    · refine ⟨htoken p rfl, fun f _ hf => ⟨trivial, fun token' _ ht' => ih ht' ?_⟩⟩
      intro q hq
      rcases List.mem_append.mp hq with hq | hq
      · exact hfields q hq
      · rw [List.mem_singleton.mp hq]
        exact hf

theorem splitFields_own (t room : ℕ) :
    Prog.wp False (own t) (splitFields (t, 0) room)
      (fun r _ => ∀ fs ∈ r, ∀ p ∈ fs, p.1 = t) () :=
  Prog.wp_perform rfl fun _ _ ht => splitLoop_own ht (by simp)

theorem fieldAt_own {t : ℕ} {fields : List Ptr} (h : ∀ p ∈ fields, p.1 = t) {i : ℕ}
    (hi : i < fields.length) : (fieldAt fields i).1 = t := by
  have hf : fieldAt fields i = fields[i] := by simp [fieldAt, hi]
  rw [hf]
  exact h _ (List.getElem_mem hi)

theorem tcpParserParse_own (t : ℕ) (input : Bytes) (command : TcpCommand D) :
    Prog.wp False (own t) (tcpParserParse t input command) (fun _ _ => True) () := by
  -- the pointers lead into the copy that this thread has made
  refine tcpParserParse_wp (I := fun fields _ => ∀ p ∈ fields, p.1 = t) trivial ?_ ?_
    fun _ _ _ => trivial
  · refine Prog.wp_perform rfl fun _ _ _ => Prog.wp_mono ?_ (splitFields_own t _)
    exact fun r _ hfields => ⟨trivial, hfields⟩
  · rintro fields _ _ hown ⟨i, hi, rfl⟩
    exact ⟨fieldAt_own hown hi, fun _ _ _ => hown⟩

theorem parseAll_own (t : ℕ) (calls : List (Bytes × TcpCommand D)) :
    Prog.wp False (own t) (parseAll t calls) (fun _ _ => True) () := by
  induction calls with
  | nil => trivial
  | cons call calls ih =>
    exact Prog.wp_seq (tcpParserParse_own t call.1 call.2) fun r _ _ =>
      Prog.wp_seq ih fun _ _ _ => trivial

/-! ### The memory a thread would see alone -/

/-- What the calls return alone. -/
def aloneResults (calls : List (Bytes × TcpCommand D)) : List (ℤ × TcpCommand D) :=
  calls.map fun call => parseAlone call.1 call.2

theorem parseAll_run {t : ℕ} {calls : List (Bytes × TcpCommand D)}
    (h0 : ∀ call ∈ calls, (0 : UInt8) ∉ call.1) (mem : ParserMem) :
    ∃ mem', Prog.run parserStep 0 (parseAll t calls) mem = some (aloneResults calls, mem') := by
  induction calls generalizing mem with
  | nil => exact ⟨mem, rfl⟩
  | cons call calls ih =>
    obtain ⟨mem₁, h₁, -⟩ := parse_run (b := t) (n := 0) (h0 call (by simp)) mem call.2
    obtain ⟨mem₂, h₂⟩ := ih (fun c hc => h0 c (by simp [hc])) mem₁
    refine ⟨mem₂, ?_⟩
    simp only [parseAll, Prog.bind_eq, Prog.pure_eq]
    rw [Prog.run_bind, h₁, Option.bind_some, Prog.run_bind, h₂, Option.bind_some,
      ← parseAlone_eq (h0 call (by simp))]
    rfl

/-- `m` is a memory on which thread `t`, alone, would see what it sees of the
process: its buffer, and the saved pointer while the last scan is its own. -/
structure Follows (t : ℕ) (s : Process) (m : ParserMem) : Prop where
  buffer : m.buffers t = s.mem.buffers t
  saved : s.last = some t → m.saved = s.mem.saved
  own : ∀ p ∈ m.saved, p.1 = t

/-- A thread that continues only scans of its own reads its own saved pointer. -/
theorem Follows.start_eq {t : ℕ} {s : Process} {m : ParserMem} (h : Follows t s m)
    {str : Option Ptr} (hund : Undisturbed t s (.strtok str)) :
    (str <|> s.mem.saved) = (str <|> m.saved) := by
  rcases str with _ | p
  · exact (h.saved (hund rfl)).symm
  · rfl

theorem Follows.start_own {t : ℕ} {s : Process} {m : ParserMem} (h : Follows t s m)
    {str : Option Ptr} (hop : OwnOp t (.strtok str)) : ∀ p ∈ (str <|> m.saved), p.1 = t := by
  rcases str with _ | q
  · exact h.own
  · rintro p ⟨⟩
    exact hop

theorem Follows.update_self {t : ℕ} {s : Process} {m : ParserMem} (h : Follows t s m)
    (x : Bytes) :
    Follows t ⟨{ s.mem with buffers := Function.update s.mem.buffers t x }, s.last⟩
      { m with buffers := Function.update m.buffers t x } :=
  ⟨by simp, h.saved, h.own⟩

/-- A step of the thread itself: the same answer in both memories. -/
theorem Follows.step {t : ℕ} {s : Process} {m : ParserMem} (h : Follows t s m) {o : ParserOp}
    (hop : OwnOp t o) (hund : Undisturbed t s o) :
    (parserStep m o).1 = (act t s o).1 ∧ Follows t (act t s o).2 (parserStep m o).2 ∧
      OwnAns t o (act t s o).1 := by
  cases o with
  | strcpy b src =>
    obtain rfl : b = t := hop
    refine ⟨rfl, ?_, trivial⟩
    simp only [parserStep, act, h.buffer]
    exact h.update_self _
  | strtok str =>
    have hown := h.start_own hop
    have heq := h.start_eq hund
    simp only [parserStep, act, heq, OwnAns]
    rcases hs : (str <|> m.saved) with _ | p
    · -- nothing to scan: neither memory has a saved pointer
      rw [hs] at heq
      have hsaved : ∀ x : Option Ptr, (str <|> x) = none → x = none := fun x hx =>
        (Option.or_eq_none_iff.mp (by simpa using hx)).2
      have h1 := hsaved _ hs
      have h2 := hsaved _ heq
      exact ⟨rfl, ⟨h.buffer, fun _ => h1.trans h2.symm, h.own⟩, by simp [strtokFrom]⟩
    · obtain rfl : p.1 = t := hown p hs
      simp only [strtokFrom, h.buffer]
      refine ⟨trivial, ⟨by simp, fun _ => rfl, ?_⟩, ?_⟩
      · rintro q ⟨⟩
        rfl
      · rintro q hq
        obtain ⟨i, -, rfl⟩ := Option.map_eq_some_iff.mp hq
        rfl
  | trim str =>
    obtain rfl : str.1 = t := hop
    simp only [parserStep, act, h.buffer]
    exact ⟨trivial, h.update_self _, rfl⟩
  | load str =>
    obtain rfl : str.1 = t := hop
    simp only [parserStep, act, h.buffer]
    exact ⟨trivial, h, trivial⟩

/-- A step of another thread goes unnoticed. -/
theorem Follows.other {t t' : ℕ} (ht : t' ≠ t) {s : Process} {m m' : ParserMem}
    (h : Follows t s m) (h' : Follows t' s m') {o : ParserOp} (hop : OwnOp t' o)
    (hund : Undisturbed t' s o) : Follows t (act t' s o).2 m := by
  cases o with
  | strcpy b src =>
    obtain rfl : b = t' := hop
    exact ⟨by simp [act, parserStep, ht.symm, h.buffer], h.saved, h.own⟩
  | strtok str =>
    have hown := h'.start_own hop
    have hlast : ∀ {x : Option ℕ}, x = some t' → x ≠ some t := by
      rintro _ rfl hx
      exact ht (Option.some.inj hx)
    simp only [act, parserStep, h'.start_eq hund]
    rcases hs : (str <|> m'.saved) with _ | p
    · exact ⟨h.buffer, fun hl => absurd hl (hlast rfl), h.own⟩
    · obtain rfl : p.1 = t' := hown p hs
      exact ⟨by simp [strtokFrom, ht.symm, h.buffer], fun hl => absurd hl (hlast rfl), h.own⟩
  | trim str =>
    obtain rfl : str.1 = t' := hop
    exact ⟨by simp [act, parserStep, ht.symm, h.buffer], h.saved, h.own⟩
  | load str => exact h

/-! ### Runs of many threads -/

/-- Nothing but the threads touches the process. -/
def noEnv (_ _ : Process) : Prop := False

/-- Each thread is on the way to the results it has alone. -/
def Intact (calls : ℕ → List (Bytes × TcpCommand D))
    (c : Config ℕ ParserOp ParserAns Unit Process (List (ℤ × TcpCommand D))) : Prop :=
  ∀ t, ∃ m, Follows t c.shared m ∧
    (∃ mem', Prog.run parserStep 0 (c.prog t) m = some (aloneResults (calls t), mem')) ∧
    Prog.wp False (own t) (c.prog t) (fun _ _ => True) ()

theorem Intact.step {calls : ℕ → List (Bytes × TcpCommand D)}
    {c c' : Config ℕ ParserOp ParserAns Unit Process (List (ℤ × TcpCommand D))}
    (h : Intact calls c) (hs : Step undisturbed noEnv c c') : Intact calls c' := by
  cases hs with
  | call t hp hsem =>
    rename_i o k a l s
    obtain ⟨hund, heq⟩ := hsem
    obtain ⟨rfl, -, rfl⟩ : a = (act t c.shared o).1 ∧ l = () ∧ s = (act t c.shared o).2 := by
      simpa [anyOrder, actHandler] using heq
    obtain ⟨m, hm, ⟨mem', hrun⟩, hown⟩ := h t
    rw [hp] at hrun hown
    intro t'
    by_cases ht : t' = t
    · subst ht
      obtain ⟨hans, hm', hown'⟩ := hm.step hown.1 hund
      refine ⟨_, hm', ⟨mem', ?_⟩, ?_⟩
      · rw [Prog.run, hans] at hrun
        simpa only [Function.update_self] using hrun
      · simpa only [Function.update_self] using hown.2 _ () hown'
    · obtain ⟨m', hm', hrun', hown'⟩ := h t'
      refine ⟨m', hm'.other (Ne.symm ht) hm hown.1 hund, ?_, ?_⟩
      · simpa only [Function.update_of_ne ht] using hrun'
      · simpa only [Function.update_of_ne ht] using hown'
  | iter t hp =>
    -- the parser has no loop of unknown length
    obtain ⟨m, -, ⟨mem', hrun⟩, -⟩ := h t
    rw [hp, Prog.run, Prog.turns] at hrun
    cases hrun
  | env he => exact he.elim

theorem intact_start {calls : ℕ → List (Bytes × TcpCommand D)}
    (h0 : ∀ t, ∀ call ∈ calls t, (0 : UInt8) ∉ call.1) (mem : ParserMem) :
    Intact calls (startConfig calls mem) := fun t =>
  ⟨⟨mem.buffers, none⟩, ⟨rfl, by simp [startConfig], by simp⟩, parseAll_run (h0 t) _,
    parseAll_own t _⟩

/-- In a run whose `strtok(NULL, ",")` steps all continue a scan of their own
thread, every thread gets the results it gets alone. -/
theorem undisturbed_parses {calls : ℕ → List (Bytes × TcpCommand D)}
    (h0 : ∀ t, ∀ call ∈ calls t, (0 : UInt8) ∉ call.1) {mem : ParserMem}
    {c : Config ℕ ParserOp ParserAns Unit Process (List (ℤ × TcpCommand D))}
    (hr : Reachable undisturbed noEnv (startConfig calls mem) c) {t : ℕ}
    {rs : List (ℤ × TcpCommand D)} (ht : c.prog t = .ret rs) : rs = aloneResults (calls t) := by
  have hc : Intact calls c := hr.invariant (fun _ _ h hs => h.step hs) (intact_start h0 mem)
  obtain ⟨m, -, ⟨mem', hrun⟩, -⟩ := hc t
  rw [ht, Prog.run, Option.some_inj, Prod.mk.injEq] at hrun
  exact hrun.1

/-! ### A QUERY and a HELP at the same time -/

/-- Thread 0 parses a QUERY and thread 1 a HELP. -/
def queryAndHelp (t : ℕ) : List (Bytes × TcpCommand Binary64) :=
  if t = 0 then [(bytes "QUERY,1,2", zeroed)] else if t = 1 then [(bytes "HELP", zeroed)] else []

theorem queryAndHelp_nulFree : ∀ t, ∀ call ∈ queryAndHelp t, (0 : UInt8) ∉ call.1 := by
  intro t call hcall
  by_cases h0 : t = 0
  · rw [queryAndHelp, if_pos h0, List.mem_singleton] at hcall
    rw [hcall]
    decide
  by_cases h1 : t = 1
  · rw [queryAndHelp, if_neg h0, if_pos h1, List.mem_singleton] at hcall
    rw [hcall]
    decide
  · rw [queryAndHelp, if_neg h0, if_neg h1] at hcall
    cases hcall

/-- The schedules below, from the start. -/
def queryAndHelpAfter (ts : List ℕ) :
    Config ℕ ParserOp ParserAns Unit Process (List (ℤ × TcpCommand Binary64)) :=
  schedule actHandler ts (startConfig queryAndHelp freshMem)

/-- Whether a step continues a scan of its own thread. -/
def continuesOwn (t : ℕ) (w : Unit × Process) : ParserOp → Bool
  | .strtok none => w.2.last == some t
  | _ => true

theorem undisturbed_handler (t : ℕ) (w : Unit × Process) (o : ParserOp)
    (h : continuesOwn t w o) : undisturbed t w o (actHandler t w o).1 (actHandler t w o).2 := by
  refine ⟨?_, rfl⟩
  rintro rfl
  simpa [continuesOwn] using h

/-- Both threads copy their inputs, thread 0 finds its fields, and then the two take
turns: thread 1 looks for its field while thread 0 reads the ones it has found. -/
def takingTurns : List ℕ :=
  [0, 1] ++ List.replicate 7 0 ++ (List.replicate 10 [1, 0]).flatten

theorem undisturbed_parses_takingTurns :
    ∃ rs rs', (queryAndHelpAfter takingTurns).prog 0 = .ret rs ∧
      (queryAndHelpAfter takingTurns).prog 1 = .ret rs' ∧
      rs = aloneResults (queryAndHelp 0) ∧ rs' = aloneResults (queryAndHelp 1) ∧
      rs.map Prod.fst = [0] ∧ rs'.map Prod.fst = [0] := by
  have hcode : ∀ t, t = 0 ∨ t = 1 → ((queryAndHelpAfter takingTurns).prog t).result?.map
      (·.map Prod.fst) = some [0] := by
    rintro t (rfl | rfl) <;> decide +kernel
  obtain ⟨rs, hrs, hfst⟩ := Option.map_eq_some_iff.mp (hcode 0 (.inl rfl))
  obtain ⟨rs', hrs', hfst'⟩ := Option.map_eq_some_iff.mp (hcode 1 (.inr rfl))
  have hok : allowed actHandler continuesOwn takingTurns (startConfig queryAndHelp freshMem) := by
    decide +kernel
  have hreach : Reachable undisturbed noEnv (startConfig queryAndHelp freshMem)
      (queryAndHelpAfter takingTurns) := schedule_reachable undisturbed_handler hok
  have hret := Prog.eq_ret_of_result? hrs
  have hret' := Prog.eq_ret_of_result? hrs'
  exact ⟨rs, rs', hret, hret', undisturbed_parses queryAndHelp_nulFree hreach hret,
    undisturbed_parses queryAndHelp_nulFree hreach hret', hfst, hfst'⟩

/-- Thread 1 finds its first token after thread 0 has; when thread 0 goes on,
`strtok` continues in the text of thread 1 and the QUERY has one field only. -/
theorem help_cuts_query :
    ¬ ∀ (calls : ℕ → List (Bytes × TcpCommand Binary64)) (mem : ParserMem)
      (c : Config ℕ ParserOp ParserAns Unit Process (List (ℤ × TcpCommand Binary64))),
      (∀ t, ∀ call ∈ calls t, (0 : UInt8) ∉ call.1) →
      Reachable anyOrder noEnv (startConfig calls mem) c →
      ∀ t rs, c.prog t = .ret rs → rs = aloneResults (calls t) := by
  intro hall
  have hcode : ((queryAndHelpAfter ([0, 0, 1, 1] ++ List.replicate 13 0)).prog 0).result?.map
      (·.map Prod.fst) = some [-1] := by decide +kernel
  have halone : (aloneResults (queryAndHelp 0)).map Prod.fst = [0] := by decide +kernel
  obtain ⟨rs, hrs, hfst⟩ := Option.map_eq_some_iff.mp hcode
  have hok : allowed actHandler (fun _ _ _ => true) ([0, 0, 1, 1] ++ List.replicate 13 0)
      (startConfig queryAndHelp freshMem) := by decide +kernel
  have hreach : Reachable anyOrder noEnv (startConfig queryAndHelp freshMem)
      (queryAndHelpAfter ([0, 0, 1, 1] ++ List.replicate 13 0)) :=
    schedule_reachable (fun t w o _ => rfl) hok
  have := hall queryAndHelp freshMem _ queryAndHelp_nulFree hreach 0 rs (Prog.eq_ret_of_result? hrs)
  rw [this, halone] at hfst
  exact absurd hfst (by decide)

end TcpParser
