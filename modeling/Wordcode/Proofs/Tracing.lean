import Mathlib.Tactic.ByContra
import Wordcode.Proofs.Driving
import Wordcode.Proofs.Safety
import Wordcode.Proofs.Reports
import Wordcode.Proofs.Tracing.Lines
import Wordcode.Trace.Tracer

/-!
# What arrives of a trace

A sink takes bytes until it has no room left, and a tracer writes lines into it until one of them fails.
The failure can come at any byte: in the middle of a number, between a line and its end, or exactly
where the trace ends, and then it is none. What arrives is the same in all of these cases, the
beginning of the full trace, cut where the room ends (`Machine.drive_traced`).

## Pieces do not matter

A line reaches the sink in pieces, and each of them may be taken only in part, now and then a few bytes
of it. So everything is stated against the *whole* of the bytes offered so far, whatever the pieces and
the pace were: `Sink.fill` is what a sink becomes of them, `Sink.failure?` is how they fail, and
`Tracer.fed` is a tracer that has been told as much. Each operation on a sink or a tracer then comes to
appending.
-/

namespace Wordcode

def utf8 (s : String) : List UInt8 := s.toUTF8.data.toList

@[simp] theorem utf8_append (s t : String) : utf8 (s ++ t) = utf8 s ++ utf8 t := by
  simp [utf8]

@[simp] theorem utf8_empty : utf8 "" = [] := rfl

theorem utf8_join (ss : List String) : utf8 (String.join ss) = ss.flatMap utf8 := by
  induction ss with
  | nil => rfl
  | cons s ss ih => simp [ih]

def Refusal.error : Refusal → WriteError
  | close => .closed
  | takeNothing => .wroteNothing

namespace Sink

variable (s : Sink) (as bs : List UInt8)

/-- As many of the bytes as there is room for. -/
def taken : List UInt8 :=
  match s.room with
  | none => bs
  | some room => bs.take room

/-- The sink once it has been offered these bytes. -/
def fill : Sink :=
  { s with
    written := s.written ++ s.taken bs
    room := s.room.map (· - bs.length) }

/-- How the offer fails, if there is no room for all of the bytes. -/
def failure? : Option WriteError :=
  match s.room with
  | none => none
  | some room => if bs.length ≤ room then none else some s.refusal.error

@[simp] theorem fill_nil : s.fill [] = s := by
  obtain ⟨written, room, refusal, pace⟩ := s
  cases room <;> simp [fill, taken]

@[simp] theorem failure?_nil : s.failure? [] = none := by
  unfold failure?
  split <;> simp

theorem fill_append : s.fill (as ++ bs) = (s.fill as).fill bs := by
  obtain ⟨written, room, refusal, pace⟩ := s
  cases room with
  | none => simp [fill, taken, ← Array.toList_inj]
  | some room => simp [fill, taken, List.take_append, Nat.sub_sub, ← Array.toList_inj]

/-- More bytes fail if the first ones do, or if there is no room for them after these. -/
theorem failure?_append :
    s.failure? (as ++ bs) = (s.failure? as).or ((s.fill as).failure? bs) := by
  obtain ⟨written, room, refusal, pace⟩ := s
  cases room with
  | none => rfl
  | some room =>
      simp only [failure?, fill, Option.map_some, List.length_append]
      split <;> split <;> grind

/-- After a failure there is no room left, so nothing more arrives. -/
theorem fill_of_failure {e : WriteError} (h : s.failure? as = some e) :
    (s.fill as).fill bs = s.fill as := by
  obtain ⟨written, room, refusal, pace⟩ := s
  cases room with
  | none => cases h
  | some room =>
      have hfull : room - as.length = 0 := by
        by_contra hroom
        simp [failure?, show as.length ≤ room by omega] at h
      simp [fill, taken, hfull]

@[simp] theorem writeAll_nil : s.writeAll [] = (s, none) := by
  rw [writeAll, dif_pos rfl]

theorem writeAll_of_full (full : s.room = some 0) (h : bs ≠ []) :
    s.writeAll bs = (s, some s.refusal.error) := by
  rw [writeAll, dif_neg h]
  cases hrefusal : s.refusal <;> simp [write, full, hrefusal, Refusal.error]

theorem fill_of_full (full : s.room = some 0) : s.fill bs = s := by
  obtain ⟨written, room, refusal, pace⟩ := s
  obtain rfl := full
  simp [fill, taken]

/-- One offer to a sink with room: it takes some of the bytes, the first ones, and they do not fail. -/
theorem exists_write_eq (hroom : s.room ≠ some 0) (h : bs ≠ []) :
    ∃ n, 0 < n ∧ s.write bs = .ok (n, s.fill (bs.take n)) ∧ s.failure? (bs.take n) = none := by
  have hlen : 0 < bs.length := List.length_pos_iff.mpr h
  have hmost := s.pace.most_pos s.written.size hlen
  obtain ⟨written, room, refusal, pace⟩ := s
  dsimp only at hroom hmost
  cases room with
  | none =>
      refine ⟨min (pace.most written.size bs.length) bs.length, by omega, ?_, rfl⟩
      simp [write, fill, taken]
  | some room =>
      have hpos : room ≠ 0 := fun hzero => hroom (congrArg some hzero)
      obtain ⟨k, rfl⟩ := Nat.exists_eq_succ_of_ne_zero hpos
      obtain ⟨n, hn⟩ : ∃ n, n = min (k + 1) (min (pace.most written.size bs.length) bs.length) :=
        ⟨_, rfl⟩
      have hfits : min (k + 1) n = n := by omega
      have hlen : min n bs.length = n := by omega
      refine ⟨n, by omega, ?_, ?_⟩
      · simp only [write, ← hn, fill, taken, List.take_take, hfits, Option.map_some,
          List.length_take, hlen]
      · have hle : n ≤ k + 1 := by omega
        simp [failure?, hlen, hle]

/-- Offering bytes until they are all taken, or until the sink fails. -/
theorem writeAll_eq : s.writeAll bs = (s.fill bs, s.failure? bs) := by
  -- Whatever one offer leaves is shorter, and goes to the sink that the offer leaves.
  induction hlen : bs.length using Nat.strongRecOn generalizing s bs with
  | _ len ih =>
      by_cases hbs : bs = []
      · simp [hbs]
      by_cases hfull : s.room = some 0
      · rw [writeAll_of_full s bs hfull hbs, fill_of_full s bs hfull, failure?, hfull]
        simp [hbs]
      · obtain ⟨n, hn, hwrite, hfits⟩ := exists_write_eq s bs hfull hbs
        have hpos : 0 < bs.length := List.length_pos_iff.mpr hbs
        have hrest : (bs.drop n).length < len := by
          rw [List.length_drop]
          omega
        rw [writeAll, dif_neg hbs, hwrite]
        dsimp only
        rw [dif_neg (Nat.ne_of_gt hn), ih _ hrest _ _ rfl]
        conv_rhs => rw [← List.take_append_drop n bs, fill_append, failure?_append, hfits]
        rfl

/-- Writing pieces comes to offering all of their bytes: it makes no difference where a text is cut. -/
theorem writePieces_eq (pieces : List String) :
    s.writePieces pieces = (s.fill (pieces.flatMap utf8), s.failure? (pieces.flatMap utf8)) := by
  induction pieces generalizing s with
  | nil => simp [writePieces]
  | cons piece pieces ih =>
      unfold writePieces
      rw [show piece.toUTF8.data.toList = utf8 piece from rfl, writeAll_eq, List.flatMap_cons,
        fill_append, failure?_append]
      cases hfailure : s.failure? (utf8 piece) with
      | none => simp [ih]
      | some e => simp [fill_of_failure s _ _ hfailure]

end Sink

namespace Tracer

/-- The tracer that has been told to write these bytes into a new sink. -/
def fed (s : Sink) (bytes : List UInt8) : Tracer := ⟨s.fill bytes, s.failure? bytes⟩

/-- Write a line and its end in the pieces that `cut` makes of them, unless an earlier line has
failed. -/
def emitIn (cut : String → List String) (t : Tracer) (line : String) : Tracer :=
  match t.failure with
  | some _ => t
  | none =>
    let (sink, failure) := t.sink.writePieces (cut line)
    ⟨sink, failure⟩

def observeIn (cut : String → List String) (t : Tracer) (e : Event) : Tracer :=
  e.traceLines.foldl (emitIn cut) t

/-- A tracer at work: it observes each event that it is shown. -/
def watch (e : Event) : StateM Tracer Unit := modify (·.observe e)

def watchIn (cut : String → List String) (e : Event) : StateM Tracer Unit :=
  modify (observeIn cut · e)

variable {cut : String → List String} (hcut : ∀ line, String.join (cut line) = line ++ "\n") (s : Sink)
  (bytes : List UInt8)

include hcut

theorem emitIn_fed (line : String) :
    (fed s bytes).emitIn cut line = fed s (bytes ++ utf8 (line ++ "\n")) := by
  have hpieces : (cut line).flatMap utf8 = utf8 (line ++ "\n") := by rw [← utf8_join, hcut]
  unfold emitIn fed
  rw [Sink.fill_append, Sink.failure?_append]
  cases hfailure : s.failure? bytes with
  | none => simp [Sink.writePieces_eq, hpieces]
  | some e => simp [Sink.fill_of_failure s _ _ hfailure]

theorem foldl_emitIn_fed (lines : List String) :
    lines.foldl (emitIn cut) (fed s bytes) =
      fed s (bytes ++ utf8 (String.join (lines.map (· ++ "\n")))) := by
  induction lines generalizing bytes with
  | nil => simp
  | cons line lines ih => simp [emitIn_fed hcut, ih]

theorem foldl_observeIn_fed (es : List Event) :
    es.foldl (observeIn cut) (fed s bytes) = fed s (bytes ++ utf8 (traceText es)) := by
  induction es generalizing bytes with
  | nil => simp [traceText]
  | cons e es ih =>
      rw [List.foldl_cons, observeIn, foldl_emitIn_fed hcut, ih]
      simp [traceText]

end Tracer

namespace Machine

/-- An instruction that was decoded, and does not stop the machine by itself, can be shown. -/
theorem traceLines_decoded {before : Machine} {i : Instruction}
    (h : before.program.decode before.ip = i) (hi : i.isInternalHalt = false) :
    ∃ text, i.render before.registers = .ok text ∧
      (Event.decoded before i).traceLines = [">>> " ++ text] := by
  have hoperands := before.program.operands_decode before.ip
  rw [h] at hoperands
  obtain ⟨text, htext⟩ : ∃ text, i.render before.registers = .ok text := by
    unfold Instruction.render
    rw [hoperands]
    exact ⟨_, rfl⟩
  exact ⟨text, htext, by simp [Event.traceLines, hi, htext]⟩

theorem drive_modify {σ : Type} (f : σ → Event → σ) (n : Nat) (m : Machine) (s : σ) :
    (drive (fun e => modify (f · e) : Event → StateM σ Unit) n m).run s =
      (⟨(steps n m).machine, cyclesWithin n m, (steps n m).trap⟩, (steps n m).events.foldl f s) := by
  rw [drive_eq]
  simp only [StateT.run_bind, forM_modify]
  rfl

theorem drive_silent (n : Nat) (m : Machine) :
    Id.run (drive (fun _ => pure ()) n m) =
      ⟨(steps n m).machine, cyclesWithin n m, (steps n m).trap⟩ := by
  rw [drive_eq]
  simp

/-- **What arrives of a trace.** Let a machine run for `n` cycles while a tracer writes the trace into a
sink that takes `N` bytes, as many at a time as it likes, and then refuses, in either of the two ways.
The first `N` bytes of the full trace arrive, or all of them if there are no more. The tracer hands the
sink back in the end if there are no more, and otherwise the failure that the refusal comes to. The run is
the one that nobody watches. The full trace is made of the lines of the events, and in it no instruction
is missing but the machine's own way of stopping. And whatever pieces the lines are written in, the sink,
the tracer and the run end the same. -/
theorem drive_traced (m : Machine) (n N : Nat) (refusal : Refusal) (pace : Pace) :
    let text := utf8 (Line.join ((steps n m).events.flatMap Event.lines))
    let run := (drive Tracer.watch n m).run (.new (.paced pace (some N) refusal))
    run.2.sink.written.toList = text.take N ∧
      run.2.finish = (if text.length ≤ N then .ok run.2.sink else .error refusal.error) ∧
      run.1 = Id.run (drive (fun _ => pure ()) n m) ∧
      run.1.machine = (steps n m).machine ∧
      traceText (steps n m).events = Line.join ((steps n m).events.flatMap Event.lines) ∧
      (∀ before i, .decoded before i ∈ (steps n m).events → i.isInternalHalt = false →
        ∃ text, i.render before.registers = .ok text ∧
          (Event.decoded before i).traceLines = [">>> " ++ text] ∧
          (Event.decoded before i).lines.map Line.text = [">>> " ++ text]) ∧
      ∀ cut : String → List String, (∀ line, String.join (cut line) = line ++ "\n") →
        (drive (Tracer.watchIn cut) n m).run (.new (.paced pace (some N) refusal)) = run := by
  intro text run
  have hfed : ∀ cut : String → List String, (∀ line, String.join (cut line) = line ++ "\n") →
      (drive (Tracer.watchIn cut) n m).run (.new (.paced pace (some N) refusal)) =
        (⟨(steps n m).machine, cyclesWithin n m, (steps n m).trap⟩,
          .fed (.paced pace (some N) refusal) text) := by
    intro cut hcut
    have hnew : Tracer.new (.paced pace (some N) refusal) =
        .fed (.paced pace (some N) refusal) [] := by
      simp [Tracer.new, Tracer.fed]
    unfold Tracer.watchIn
    rw [drive_modify, hnew, Tracer.foldl_observeIn_fed hcut, List.nil_append, traceText_eq]
  -- The tracer itself is the one that cuts the end off each line.
  have hrun : run = _ := hfed (fun line => [line, "\n"]) (by simp)
  rw [hrun, drive_silent]
  refine ⟨?_, ?_, rfl, rfl, traceText_eq _, ?_, hfed⟩
  · simp [Tracer.fed, Sink.fill, Sink.taken, Sink.paced]
  · unfold Tracer.finish
    by_cases hfits : text.length ≤ N
    · simp [Tracer.fed, Sink.failure?, Sink.paced, hfits]
    · simp [Tracer.fed, Sink.failure?, Sink.paced, hfits]
  · intro before i hmem hi
    obtain ⟨shown, hrender, hlines⟩ := traceLines_decoded (decode_of_mem_steps hmem) hi
    exact ⟨shown, hrender, hlines, (Event.traceLines_eq _).symm.trans hlines⟩

/-- The trace of `push 1; pop; halt` is 38 bytes long. A sink that takes twelve of them, one at a time,
cuts it in the middle of the second line, also if every line comes in three pieces. -/
theorem drive_traced_pop :
    let m := load #[1, 1, 2, 8]
    let cut : String → List String := fun line =>
      [String.ofList (line.toList.take 5), String.ofList (line.toList.drop 5), "\n"]
    let run := (drive Tracer.watch 3 m).run (.new (.paced .bytewise (some 12) .takeNothing))
    traceText (steps 3 m).events = ">>> PUSH 1\n>>> POP\n<<POP>> 1\n>>> HALT\n" ∧
      (∀ line, String.join (cut line) = line ++ "\n") ∧
      run.2.sink.written.toList = utf8 ">>> PUSH 1\n>" ∧
      run.2.finish = .error .wroteNothing ∧
      run.1.machine.outcome = some .halted ∧
      (drive (Tracer.watchIn cut) 3 m).run (.new (.paced .bytewise (some 12) .takeNothing)) =
        run := by
  intro m cut run
  have htext : traceText (steps 3 m).events = ">>> PUSH 1\n>>> POP\n<<POP>> 1\n>>> HALT\n" := by
    decide +kernel
  have hcut : ∀ line, String.join (cut line) = line ++ "\n" := by
    intro line
    simp only [cut, ← String.toList_inj]
    simp [← List.append_assoc]
  obtain ⟨hwritten, hfinish, -, hmachine, hlines, -, hpieces⟩ :=
    drive_traced m 3 12 .takeNothing .bytewise
  rw [← hlines, htext] at hwritten hfinish
  have houtcome : (steps 3 m).machine.outcome = some .halted := by decide
  dsimp only [run]
  refine ⟨htext, hcut, hwritten.trans (by decide), hfinish.trans (if_neg (by decide)), ?_,
    hpieces cut hcut⟩
  exact (congrArg Machine.outcome hmachine).trans houtcome

end Machine

end Wordcode
