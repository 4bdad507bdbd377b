import Wordcode.Trace

/-!
# Tracing into a sink that may give out

A trace has to go somewhere, and that somewhere may fail. A `Sink` takes bytes until it has no room
left: the piece that does not fit is taken as far as it does, and what is written after that is
refused, in one of two ways. Either the sink says that it is closed, or it goes on taking nothing at
all, and then it is for the writer to give up.

Before that a sink may take its time. Offered some bytes, it need not take more than the first of
them, and it is for the writer to offer the rest again. How many it takes (its `Pace`) may depend on
what it has taken before and on what it is offered. That is as much freedom as there is: whatever a
sink takes moves it on, so it is never asked twice at the same place.

A `Tracer` writes a run's trace into a sink. The first failure ends its output and is kept for later;
the run goes on, and the tracer merely stops listening. So what arrives in the sink is a prefix of the
full trace, and the tracer ends in failure exactly when the full trace is longer than that.
-/

namespace Wordcode

/-- Why text could not be written. -/
inductive WriteError where
  | closed
  | wroteNothing
deriving DecidableEq, Repr

/-- What a sink without room does with what it is given. -/
inductive Refusal where
  | close
  | takeNothing
deriving DecidableEq, Repr

/-- At most how many bytes a sink takes at once, as long as it has room: given how many it has taken
before, and how many it is offered. -/
structure Pace where
  most : Nat → Nat → Nat
  /-- It does take some. -/
  most_pos : ∀ (before : Nat) {offered : Nat}, 0 < offered → 0 < most before offered

namespace Pace

/-- All that is offered. -/
def eager : Pace := ⟨fun _ offered => offered, fun _ _ h => h⟩

/-- One byte at a time. -/
def bytewise : Pace := ⟨fun _ _ => 1, fun _ _ _ => Nat.one_pos⟩

end Pace

/-- Somewhere to write bytes to. -/
structure Sink where
  written : Array UInt8
  /-- How many more it takes; `none` if there is no limit. -/
  room : Option Nat
  refusal : Refusal
  pace : Pace

namespace Sink

/-- A sink that has taken nothing yet. -/
def paced (pace : Pace) (room : Option Nat) (refusal : Refusal) : Sink := ⟨#[], room, refusal, pace⟩

def new : Option Nat → Refusal → Sink := paced .eager

/-- Offer bytes to a sink, once. The answer is how many of them it took. -/
def write (s : Sink) (bytes : List UInt8) : Except WriteError (Nat × Sink) :=
  let most := min (s.pace.most s.written.size bytes.length) bytes.length
  match s.room with
  | none => .ok (most, { s with written := s.written ++ bytes.take most })
  | some 0 =>
    match s.refusal with
    | .close => .error .closed
    | .takeNothing => .ok (0, s)
  | some room =>
    let taken := min room most
    .ok (taken, { s with written := s.written ++ bytes.take taken, room := some (room - taken) })

/-- Offer bytes to a sink until it has taken all of them or fails. Taking nothing counts as failing. -/
def writeAll (s : Sink) (bytes : List UInt8) : Sink × Option WriteError :=
  if _h : bytes = [] then (s, none)
  else
    match s.write bytes with
    | .error e => (s, some e)
    | .ok (taken, s) =>
      if _taken : taken = 0 then (s, some .wroteNothing) else writeAll s (bytes.drop taken)
termination_by bytes.length
decreasing_by
  have := List.length_pos_iff.2 _h
  simp; omega

def writePieces (s : Sink) : List String → Sink × Option WriteError
  | [] => (s, none)
  | piece :: pieces =>
    match s.writeAll piece.toUTF8.data.toList with
    | (s, none) => writePieces s pieces
    | (s, some e) => (s, some e)

end Sink

/-- Writes a trace into a sink. -/
structure Tracer where
  sink : Sink
  /-- The first failure to write, if there has been one. -/
  failure : Option WriteError

namespace Tracer

def new (sink : Sink) : Tracer := ⟨sink, none⟩

/-- Write a line and its end, unless an earlier line has failed. -/
def emit (t : Tracer) (line : String) : Tracer :=
  match t.failure with
  | some _ => t
  | none =>
    let (sink, failure) := t.sink.writePieces [line, "\n"]
    ⟨sink, failure⟩

/-- Write the lines of an event. -/
def observe (t : Tracer) (e : Event) : Tracer := e.traceLines.foldl emit t

/-- Be done, and have the sink back: unless a line has failed, and then the first failure. -/
def finish (t : Tracer) : Except WriteError Sink :=
  match t.failure with
  | some e => .error e
  | none => .ok t.sink

end Tracer

end Wordcode
