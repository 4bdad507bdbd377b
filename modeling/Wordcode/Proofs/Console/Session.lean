import Wordcode.Console.Session
import Wordcode.Proofs.Console.Report
import Wordcode.Proofs.Progress
import Wordcode.Proofs.Protocol
import Wordcode.Proofs.Verdicts

/-!
# What a script can rely on

A script asks for a program to be run, waits, and has two things to go by: the exit code, and the
results that were put out. For a request that gets text and comes to an end (`TextRun`), these are as
good as the final state itself: two runs with the same results have the same registers, the same stack
and have come to the same, and the exit code is zero just when a `halt` was carried out within the
budget (`TextRun.stdout_reliable`).

While the program runs, events are shown, and whether and how they are is up to the request and to the
log. All of that goes to where results do not go (`Silent`), so that the results are the lines of the
final report and nothing else (`TextRun.transcript_eq`). It makes no difference what the log shows, and
none how the request was made: a session whose arguments are read as the request is one case.
-/

namespace Wordcode

namespace Machine

/-- A program has halted itself if it has come to a `halt`. -/
theorem outcome_steps_load_eq_halted_iff {p : Program} {n : Nat}
    (done : (steps n (load p)).trap = none) :
    (steps n (load p)).machine.outcome = some .halted ↔
      ∃ k < n, (steps k (load p)).machine.halted = false ∧
        (p.decode (steps k (load p)).machine.ip).opcode = .halt := by
  -- Of the cycle after which the machine stops, it is known already.
  have hcycle : ∀ k < n, (steps k (load p)).machine.halted = false →
      ((steps (k + 1) (load p)).machine.outcome = some .halted ↔
        (p.decode (steps k (load p)).machine.ip).opcode = .halt) := by
    intro k hk running
    have hdone := trap_steps_of_le (Nat.le_of_lt hk) done
    have hnext := trap_steps_of_le hk done
    rw [steps_succ_of_trap_eq_none hdone] at hnext ⊢
    have hstep := outcome_step_eq_halted_iff running
      ((steps_load_accounted p k).running running) hnext
    rwa [program_steps] at hstep
  constructor
  · intro hout
    obtain ⟨hhalted, -⟩ := outcome_eq_halted_iff.mp hout
    obtain ⟨k, hk, hends, -, -⟩ := exists_last_cycle (m := load p) rfl hhalted
    have running := hends.running k (Nat.lt_succ_self k)
    rw [steps_of_le_of_halted hk hends.halted] at hout
    exact ⟨k, hk, running, (hcycle k hk running).mp hout⟩
  · rintro ⟨k, hk, running, hop⟩
    have hout := (hcycle k hk running).mpr hop
    rwa [steps_of_le_of_halted hk (outcome_eq_halted_iff.mp hout).1]

end Machine

namespace Console

/-! ## Results come last -/

/-- The action returns `a`, and puts out no results. -/
def Silent {α : Type} (x : StateM Transcript α) (a : α) : Prop :=
  ∀ s : Transcript, ∃ err, x.run s = (a, { s with err := err })

namespace Silent

variable {α β σ : Type} {x : StateM Transcript α} {a : α} {s s' : σ}

theorem pure (a : α) : Silent (Pure.pure a) a := fun s => ⟨s.err, rfl⟩

theorem bind {f : α → StateM Transcript β} {b : β} (hx : Silent x a) (hf : Silent (f a) b) :
    Silent (x >>= f) b := by
  intro s
  obtain ⟨err, hrun⟩ := hx s
  obtain ⟨err', hrun'⟩ := hf { s with err := err }
  refine ⟨err', ?_⟩
  rw [StateT.run_bind, hrun]
  exact hrun'

theorem err (line : String) : Silent (Terminal.recording.err line) () := fun _ => ⟨_, rfl⟩

theorem forM {f : α → StateM Transcript Unit} (h : ∀ a, Silent (f a) ()) (as : List α) :
    Silent (as.forM f) () := by
  induction as with
  | nil => exact pure ()
  | cons a as ih => exact bind (h a) ih

/-! The same with a state on top. -/

theorem lift (hx : Silent x a) : Silent ((liftM x : StateT σ (StateM Transcript) α).run s) (a, s) :=
  hx.bind (f := fun a => Pure.pure (a, s)) (pure (a, s))

theorem bind_run {x : StateT σ (StateM Transcript) α} {f : α → StateT σ (StateM Transcript) β}
    {b : β × σ} (hx : Silent (x.run s) (a, s')) (hf : Silent ((f a).run s') b) :
    Silent ((x >>= f).run s) b := by
  rw [StateT.run_bind]
  exact hx.bind hf

theorem forM_run {f : α → StateT σ (StateM Transcript) Unit} {next : σ → α → σ}
    (h : ∀ s a, Silent ((f a).run s) ((), next s a)) (as : List α) (s : σ) :
    Silent ((as.forM f).run s) ((), as.foldl next s) := by
  induction as generalizing s with
  | nil => exact pure ((), s)
  | cons a as ih => exact bind_run (h s a) (ih (next s a))

theorem run' {x : StateT σ (StateM Transcript) α} (hx : Silent (x.run s) (a, s')) :
    Silent (x.run' s) a := by
  rw [StateT.run'_eq, map_eq_pure_bind]
  exact hx.bind (pure a)

end Silent

section

variable (log : Record → List String) (trace : Bool)

theorem silent_showEvent (ip : Address) (e : Event) :
    Silent ((showEvent Terminal.recording log trace e).run ip) ((), standsAt ip e) := by
  have hline : ∀ (ip : Address) (line : String),
      Silent ((liftM (Terminal.recording.err line) : StateT Address _ Unit).run ip)
        ((), (fun ip _ => ip) ip line) := fun ip line => (Silent.err line).lift
  have hlines := Silent.forM_run hline (eventLines log trace (standsAt ip e) e) (standsAt ip e)
  simpa [showEvent] using hlines

/-- Whatever is shown of it, a run is the same, and silent. -/
theorem silent_runMachine {m : Machine} (running : m.halted = false) {maxSteps : UInt64}
    (ends : (m.endingWithin maxSteps).trap = none) :
    Silent (runMachine Terminal.recording log trace maxSteps m)
      (m.endingWithin maxSteps, (m.endingWithin maxSteps).machine.outcome) := by
  have hshown : ∀ (es : List Event) (answer : Machine.Ending × Option Outcome), Silent
      (StateT.run' (es.forM (showEvent Terminal.recording log trace) >>= fun _ => pure answer) m.ip)
      answer := by
    intro es answer
    exact ((Silent.forM_run (silent_showEvent log trace) es m.ip).bind_run (.pure _)).run'
  unfold runMachine
  rw [Machine.run_eq _ running ends]
  exact (Silent.forM .err _).bind ((hshown _ _).bind ((Silent.forM .err _).bind (.pure _)))

/-- What is put out when a program has run to an end: the results are the final report. -/
theorem runProgram_eq {r : RunRequest} {p : Program} (loaded : r.program = .ok p)
    (ends : ((Machine.load p).endingWithin (r.maxSteps.getD 0)).trap = none) (s : Transcript) :
    let m := ((Machine.load p).endingWithin (r.maxSteps.getD 0)).machine
    ∃ err, (runProgram Terminal.recording log r).run s =
      (exitCode m.outcome,
        { out := s.out ++ (r.format.getD .text).render m.snapshot ++ "\n" ++
            tag (r.maxSteps.getD 0) m.outcome ++ "\n"
          err := err }) := by
  intro m
  have hsilent := silent_runMachine log r.trace (m := Machine.load p) rfl ends
  have hlog := Silent.forM Silent.err (log (.loaded p (r.maxSteps.getD 0)))
  obtain ⟨err, hrun⟩ := hlog.bind (f := fun _ => runMachine _ log r.trace _ _) hsilent s
  refine ⟨err, ?_⟩
  unfold runProgram
  rw [loaded]
  dsimp only
  rw [← bind_assoc, StateT.run_bind, hrun]
  change StateT.run _ _ = _
  dsimp only
  rw [ends]
  rfl

end

/-- A request for a program to be run and for text, if it comes to an end. -/
structure TextRun where
  /-- What is shown of the log while the program runs. -/
  log : Record → List String
  request : RunRequest
  program : Program
  text : request.format.getD .text = .text
  loaded : request.program = .ok program
  /-- No trap cuts the run short. Without a budget, this is to say that it stops by itself. -/
  ends : ((Machine.load program).endingWithin (request.maxSteps.getD 0)).trap = none

namespace TextRun

def maxSteps (t : TextRun) : UInt64 := t.request.maxSteps.getD 0

/-- The machine as the run leaves it. -/
def final (t : TextRun) : Machine := ((Machine.load t.program).endingWithin t.maxSteps).machine

/-- What the run has come to. -/
def result (t : TextRun) : Result := Result.of t.maxSteps t.final.outcome

def transcript (t : TextRun) : UInt32 × Transcript :=
  (runProgram Terminal.recording t.log t.request).run {}

def exitCode (t : TextRun) : UInt32 := t.transcript.1

def stdout (t : TextRun) : String := t.transcript.2.out

theorem transcript_of_parse (t : TextRun) {filter : Filter} {arguments : List String}
    (hlog : t.log = filter.lines) (asked : Command.parse arguments = .ok (.run t.request)) :
    Transcript.of filter arguments = t.transcript := by
  unfold Transcript.of session transcript
  rw [asked, hlog]

theorem transcript_eq (t : TextRun) :
    t.exitCode = Console.exitCode t.final.outcome ∧
      t.stdout = String.join ((reportLines t.maxSteps t.final.snapshot).map (· ++ "\n")) := by
  obtain ⟨err, hrun⟩ := runProgram_eq t.log t.loaded t.ends {}
  unfold exitCode stdout transcript
  rw [hrun]
  refine ⟨rfl, ?_⟩
  rw [t.text, ← String.toList_inj]
  simp [reportLines, Format.render, final, maxSteps]
  rfl

theorem lines_stdout (t : TextRun) :
    lines t.stdout = reportLines t.maxSteps t.final.snapshot := by
  rw [t.transcript_eq.2]
  exact lines_join (newline_notMem_reportLines _ _)

/-- Results can be told from what they are about, and the other way round. -/
theorem stdout_inj {s t : TextRun} :
    s.stdout = t.stdout ↔
      s.final.registers = t.final.registers ∧ s.final.stack.entries = t.final.stack.entries ∧
        s.result = t.result := by
  have hlines : s.stdout = t.stdout ↔
      reportLines s.maxSteps s.final.snapshot = reportLines t.maxSteps t.final.snapshot := by
    constructor
    · intro h
      rw [← lines_stdout, ← lines_stdout, h]
    · intro h
      rw [s.transcript_eq.2, t.transcript_eq.2, h]
  exact hlines.trans reportLines_inj

/-! ### Where a run ends -/

theorem final_eq (t : TextRun) :
    t.final = (Machine.steps (Machine.cyclesOf t.maxSteps) (Machine.load t.program)).machine :=
  Machine.endingWithin_machine t.maxSteps _

/-- A run ends where the program stops, if there are cycles enough. -/
theorem final_of_haltsAfter (t : TextRun) {n : Nat} (h : (Machine.load t.program).HaltsAfter n)
    (hn : n ≤ Machine.cyclesOf t.maxSteps) :
    t.final = (Machine.steps n (Machine.load t.program)).machine := by
  rw [final_eq, Machine.steps_of_le_of_halted hn h.halted]

/-- The program carries out a `halt` in one of the cycles of its budget. -/
def CarriesOutHalt (t : TextRun) : Prop :=
  ∃ k, (t.maxSteps = 0 ∨ k < t.maxSteps.toNat) ∧
    (Machine.steps k (Machine.load t.program)).machine.halted = false ∧
      (t.program.decode (Machine.steps k (Machine.load t.program)).machine.ip).opcode = .halt

theorem outcome_final_eq_halted_iff (t : TextRun) :
    t.final.outcome = some .halted ↔ t.CarriesOutHalt := by
  obtain ⟨hdone, hstops⟩ := Machine.halted_of_endingWithin t.ends
  have hstops : t.maxSteps = 0 → t.final.halted = true := hstops
  have hin : ∀ k, (Machine.steps k (Machine.load t.program)).machine.halted = false →
      (k < Machine.cyclesOf t.maxSteps ↔ t.maxSteps = 0 ∨ k < t.maxSteps.toNat) := by
    intro k running
    by_cases hzero : t.maxSteps = 0
    · -- Without a budget the run has ended by now, and so `k` is among its cycles.
      have hlt : k < Machine.cyclesOf t.maxSteps := by
        by_contra hge
        have hhalted := hstops hzero
        rw [final_eq] at hhalted
        rw [Machine.steps_of_le_of_halted (Nat.le_of_not_lt hge) hhalted, hhalted] at running
        cases running
      exact iff_of_true hlt (.inl hzero)
    · simp [Machine.cyclesOf, hzero]
  rw [final_eq]
  refine (Machine.outcome_steps_load_eq_halted_iff hdone).trans ?_
  constructor
  · rintro ⟨k, hk, running, hop⟩
    exact ⟨k, (hin k running).mp hk, running, hop⟩
  · rintro ⟨k, hk, running, hop⟩
    exact ⟨k, (hin k running).mpr hk, running, hop⟩

theorem outcome_final_eq_none_iff (t : TextRun) {m : Nat} :
    t.final.outcome = none ∧ t.maxSteps.toNat = m ↔
      t.maxSteps.toNat = m ∧ 1 ≤ m ∧
        (Machine.steps m (Machine.load t.program)).machine.halted = false := by
  have hcycles : t.maxSteps ≠ 0 → t.final = (Machine.steps t.maxSteps.toNat
      (Machine.load t.program)).machine := by
    intro hne
    rw [final_eq, Machine.cyclesOf, if_neg hne]
  rw [Machine.outcome_eq_none_iff]
  constructor
  · rintro ⟨running, rfl⟩
    have hne : t.maxSteps ≠ 0 := by
      intro hzero
      rw [show t.final.halted = true from (Machine.halted_of_endingWithin t.ends).2 hzero] at running
      cases running
    have hpos : t.maxSteps.toNat ≠ 0 := fun h => hne (UInt64.toNat_inj.mp h)
    rw [hcycles hne] at running
    exact ⟨rfl, by omega, running⟩
  · rintro ⟨rfl, hpos, running⟩
    have hne : t.maxSteps ≠ 0 := by
      intro hzero
      simp [hzero] at hpos
    rw [hcycles hne]
    exact ⟨running, rfl⟩

theorem exitCode_eq_zero_iff (t : TextRun) : t.exitCode = 0 ↔ t.final.outcome = some .halted := by
  rw [t.transcript_eq.1]
  rcases t.final.outcome with _ | _ | f <;> simp [Console.exitCode]

/-- **Results can be relied on.** Two runs with the same results have the same registers and the same
stack in the end, and have come to the same. The exit code of a run is zero if the last line says so,
which it does if a `halt` has been carried out within the budget; another line says that the budget has
run out, just when the machine is still running after so many cycles, and another that there was a
fault, and which one. All this goes for a session with any filter and any arguments, if these are read as
the request. -/
theorem stdout_reliable :
    (∀ s t : TextRun, s.stdout = t.stdout →
      s.final.registers = t.final.registers ∧ s.final.stack.entries = t.final.stack.entries ∧
        s.result = t.result) ∧
    ∀ t : TextRun,
      (t.exitCode = 0 ↔ (lines t.stdout).getLast? = some "[VM:OK]") ∧
        ((lines t.stdout).getLast? = some "[VM:OK]" ↔ t.CarriesOutHalt) ∧
        (∀ m : Nat, "[VM:LIMIT:" ++ Decimal.ofNat m ++ "]" ∈ lines t.stdout ↔
          t.maxSteps.toNat = m ∧ 1 ≤ m ∧
            (Machine.steps m (Machine.load t.program)).machine.halted = false) ∧
        ((∃ reason, "[VM:IHALT:" ++ reason ++ "]" ∈ lines t.stdout) ↔
          ∃ f, t.final.outcome = some (.faulted f)) ∧
        (∀ f : Fault, "[VM:IHALT:" ++ f.message ++ "]" ∈ lines t.stdout ↔
          t.final.outcome = some (.faulted f)) ∧
        ∀ (filter : Filter) (arguments : List String), t.log = filter.lines →
          Command.parse arguments = .ok (.run t.request) →
            (Transcript.of filter arguments).1 = t.exitCode ∧
              (Transcript.of filter arguments).2.out = t.stdout := by
  constructor
  · intro s t h
    exact stdout_inj.mp h
  · intro t
    have hlast : (lines t.stdout).getLast? = some "[VM:OK]" ↔ t.final.outcome = some .halted := by
      rw [lines_stdout]
      exact (Option.some_inj).trans tag_eq_ok_iff
    have hfault : ∀ reason, "[VM:IHALT:" ++ reason ++ "]" ∈ lines t.stdout ↔
        ∃ f, t.final.outcome = some (.faulted f) ∧ f.message = reason := by
      intro reason
      rw [lines_stdout, mem_reportLines (by simp)]
      exact tag_eq_ihalt_iff
    refine ⟨t.exitCode_eq_zero_iff.trans hlast.symm, hlast.trans t.outcome_final_eq_halted_iff, ?_,
      ?_, ?_, ?_⟩
    · intro m
      rw [lines_stdout, mem_reportLines (by simp), ← outcome_final_eq_none_iff]
      exact tag_eq_limit_iff
    · simp only [hfault]
      constructor
      · rintro ⟨reason, f, hout, -⟩
        exact ⟨f, hout⟩
      · rintro ⟨f, hout⟩
        exact ⟨f.message, f, hout, rfl⟩
    · intro f
      rw [hfault]
      constructor
      · rintro ⟨g, hout, hmessage⟩
        rwa [← Fault.message_inj.mp hmessage]
      · intro hout
        exact ⟨f, hout, rfl⟩
    · intro filter arguments hlog asked
      rw [t.transcript_of_parse hlog asked]
      exact ⟨rfl, rfl⟩

def plainRun : TextRun where
  log := Filter.standard.lines
  request := { sample := some "add" }
  program := #[1, 5, 1, 6, 4, 2, 8]
  text := rfl
  loaded := rfl
  ends := by
    have hends := Machine.HaltsAfter.ending_eq (m := Machine.load #[1, 5, 1, 6, 4, 2, 8]) (n := 4)
      ⟨by decide, by decide⟩ (by decide) (by decide)
    exact congrArg Machine.Ending.trap ((if_pos rfl).trans hends)

/-- The same program with a trace, a log that shows everything, and a budget that just suffices. -/
def tracedRun : TextRun where
  log := fun r => [r.text]
  request := { sample := some "add", trace := true, maxSteps := some 5 }
  program := #[1, 5, 1, 6, 4, 2, 8]
  text := rfl
  loaded := rfl
  ends := rfl

/-- A trace does not show in the results, nor do a log and a budget that suffices. -/
theorem stdout_reliable_traced :
    plainRun.stdout = tracedRun.stdout ∧
      plainRun.final.registers = tracedRun.final.registers ∧
      plainRun.final.stack.entries = tracedRun.final.stack.entries ∧
      plainRun.result = tracedRun.result ∧
      tracedRun.CarriesOutHalt ∧ tracedRun.exitCode = 0 ∧
      (Transcript.of .standard ["run", "add"]).2.out = tracedRun.stdout := by
  have hfinal : plainRun.final = (Machine.steps 5 (Machine.load #[1, 5, 1, 6, 4, 2, 8])).machine :=
    plainRun.final_of_haltsAfter ⟨by decide, by decide⟩ (by decide)
  have hfinal' : tracedRun.final = (Machine.steps 5 (Machine.load #[1, 5, 1, 6, 4, 2, 8])).machine :=
    tracedRun.final_of_haltsAfter ⟨by decide, by decide⟩ (by decide)
  have hout : plainRun.stdout = tracedRun.stdout := by
    rw [stdout_inj, result, result, hfinal, hfinal']
    decide
  obtain ⟨hregisters, hstack, hresult⟩ := stdout_reliable.1 plainRun tracedRun hout
  obtain ⟨hexit, hlast, -⟩ := stdout_reliable.2 tracedRun
  obtain ⟨-, -, -, -, -, hsession⟩ := stdout_reliable.2 plainRun
  obtain ⟨-, hsame⟩ := hsession .standard ["run", "add"] rfl rfl
  have hhalt : tracedRun.CarriesOutHalt := ⟨4, .inr (by decide), by decide, by decide⟩
  exact ⟨hout, hregisters, hstack, hresult, hhalt, hexit.mpr (hlast.mpr hhalt), hsame.trans hout⟩

end TextRun

end Console

end Wordcode
