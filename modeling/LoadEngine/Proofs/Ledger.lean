import LoadEngine.Proofs.Occurrences
import LoadEngine.Session.Rehearsal
import LoadEngine.Shard.Basic

/-! The books of a shard, kept from outside. They tell of every operation that was issued what
became of it, by what came for its own tag and by nothing else; and what the recorders were to be
told. -/

namespace LoadEngine

/-- What makes a session take a turn. -/
inductive Cause where
  | start
  | data (tag : Tag) (fragment : List UInt8)
  | complete (tag : Tag) (completion : Completion)
  | timer (timer : Timer)
  | terminate

namespace Cause

def act : Cause → Stage → Turn → Turn × Verdict
  | start => Turn.start
  | data tag fragment => fun stage => Turn.onData stage tag fragment
  | complete tag completion => fun stage => Turn.onCompletion stage tag completion
  | timer due => fun stage => Turn.onTimer stage due.tag due.kind
  | terminate => fun _ => Turn.terminate

def tag? : Cause → Option Tag
  | start | terminate => none
  | data tag _ | complete tag _ => some tag
  | timer due => some due.tag

end Cause

def Operation.verdict (operation : Operation BoundValidator) (body : List UInt8) :
    Completion → Outcome
  | .failure kind => (Completion.failure kind).outcome
  | .success =>
    if operation.validators.all fun v =>
      v.validator.predicate.test (Search.occurrences v.validator.pattern.toList body)
    then .success else .invalid

inductive Fate where
  /-- Nothing yet. A part of the response may be there. -/
  | pending (body : List UInt8)
  | settled (sample : Sample)
  /-- Its session ended before it did. -/
  | abandoned (how : SessionEnd)
deriving DecidableEq, Repr

structure Flight where
  operation : Operation BoundValidator
  tag : Tag
  since : Nanos
  fate : Fate

namespace Flight

def new (now : Nanos) (operation : Operation BoundValidator) (tag : Tag) : Flight :=
  ⟨operation, tag, now, .pending []⟩

def body? (f : Flight) : Option (List UInt8) :=
  match f.fate with
  | .pending body => some body
  | _ => none

def isPending (f : Flight) : Bool := f.body?.isSome

def settles? (now : Nanos) (f : Flight) : Cause → Option Sample
  | .complete tag completion =>
    if f.tag = tag then
      f.body?.map fun body => .new (f.operation.verdict body completion) (now - f.since)
    else none
  | .timer ⟨_, tag, .deadline⟩ =>
    if f.tag = tag then f.body?.map fun _ => .new .timeout (now - f.since) else none
  | _ => none

def gathers (f : Flight) (body : List UInt8) : Cause → List UInt8
  | .data tag fragment => if f.tag = tag then body ++ fragment else body
  | _ => body

def hear (now : Nanos) (cause : Cause) (f : Flight) : Flight :=
  match f.fate with
  | .pending body =>
    match f.settles? now cause with
    | some sample => { f with fate := .settled sample }
    | none => { f with fate := .pending (f.gathers body cause) }
  | _ => f

def forsake (how : SessionEnd) (f : Flight) : Flight :=
  if f.isPending then { f with fate := .abandoned how } else f

def isOf (phase slot : Nat) (f : Flight) : Bool := f.tag.phase == phase && f.tag.slot == slot

end Flight

inductive Recording where
  | request (metric : String)
  | sample (metric : String) (sample : Sample)
  | reset
deriving DecidableEq, Repr

def Recorder.enter (r : Recorder) : Recording → Recorder
  | .request metric => r.recordRequest metric
  | .sample metric sample => r.record metric sample
  | .reset => r.reset

/-- The operations issued on a shard, the oldest first; when the waits of each session began, by
phase, slot and number; and what the recorder of each phase is to have been told. -/
structure Ledger where
  flights : List Flight
  since : Nat → Nat → Nat → Nanos
  recorded : Nat → List Recording

structure Visit where
  now : Nanos
  phase : Nat
  slot : Nat
  cause : Cause
  /-- The first number that the session had not given to a wait. -/
  first : Nat
  outputs : List Output
  verdict : Verdict

def Output.call? : Output → Option (Operation BoundValidator × Tag)
  | call operation tag => some (operation, tag)
  | _ => none

def callsOf (outputs : List Output) : List (Operation BoundValidator × Tag) :=
  outputs.filterMap Output.call?

namespace Ledger

def empty : Ledger := ⟨[], fun _ _ _ => 0, fun _ => []⟩

def hear (l : Ledger) (now : Nanos) (cause : Cause) : Ledger :=
  { l with
    flights := l.flights.map (Flight.hear now cause)
    recorded := fun phase => l.recorded phase ++ l.flights.filterMap fun f =>
      if f.tag.phase = phase then (f.settles? now cause).map (.sample f.operation.metric)
      else none }

def issue (l : Ledger) (now : Nanos) (calls : List (Operation BoundValidator × Tag)) : Ledger :=
  { l with
    flights := l.flights ++ calls.map fun (operation, tag) => .new now operation tag
    recorded := fun phase => l.recorded phase ++ calls.filterMap fun (operation, tag) =>
      if tag.phase = phase then some (.request operation.metric) else none }

def clock (l : Ledger) (now : Nanos) (phase slot first : Nat) : Ledger :=
  { l with since := fun p s op =>
      if p = phase ∧ s = slot ∧ first ≤ op then now else l.since p s op }

def close (l : Ledger) (phase slot : Nat) : Verdict → Ledger
  | .ended how => { l with
      flights := l.flights.map fun f => if f.isOf phase slot then f.forsake how else f }
  | _ => l

def after (l : Ledger) (v : Visit) : Ledger :=
  (((l.hear v.now v.cause).issue v.now (callsOf v.outputs)).clock v.now v.phase v.slot
    v.first).close v.phase v.slot v.verdict

def reset (l : Ledger) (phase : Nat) : Ledger :=
  { l with recorded := fun p => if p = phase then l.recorded p ++ [.reset] else l.recorded p }

def of (l : Ledger) (phase slot : Nat) : List Flight := l.flights.filter (Flight.isOf phase slot)

end Ledger

end LoadEngine
