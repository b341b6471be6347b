/-
The governor: one sweep of `homie-engine/src/governor.rs`, with everything else that happens in
between.

A sweep takes the records once and works on them for a while; the registry is locked only for
single reads and for each freeze, and the sinks are asked for without it.  So a sweep is a
sequence of steps, each of which reads or writes the world once, and between two of them the
world may change in any way.

Times are floating point milliseconds, and the thresholds seconds, that are compared and nothing
else; here they are integer milliseconds.  The port scan and the artifacts of a sample reach the
record in fields that no decision of the sweep reads, and are left out, as is what is published.
-/
import Homie.Engine.Hibernation
import Homie.Lib.KeyedMap

namespace Homie.Governor

open Hibernation (HibernationReason)

structure GovernorConfig where
  idleThreshold : Int
  hardMemoryBytes : UInt64
  budgetMinIdle : Int
  hibernatedSampleEvery : Nat

/-- The fields of a record that a sweep reads, with the live status folded in. -/
structure SessionRecord where
  id : String
  status : SessionStatus
  pinned : Bool
  hibernation : Option HibernationReason
  memoryBytes : Option UInt64
  lastTurnCompletedAt : Option Int
  updatedAt : Int
  lastSeenAt : Option Int
deriving DecidableEq

/-- The start of the idle stretch when the session is eligible for hibernation. -/
def idleSince (record : SessionRecord) (attached : Bool) : Option Int :=
  if record.hibernation.isSome || record.pinned || attached then none
  else if record.status = .idle then
    some ((record.lastTurnCompletedAt.toList ++ record.lastSeenAt.toList).foldl max
      record.updatedAt)
  else none

/-! ### The world -/

structure World where
  records : KeyedMap SessionRecord.id
  /-- The registry has a live session under the id. -/
  live : String → Bool
  /-- `AttachHub::has_sinks`. -/
  hasSinks : String → Bool

/-- A freeze, with what was true of the session at that moment. -/
structure Freeze where
  id : String
  record : Option SessionRecord
  attached : Bool
deriving DecidableEq

namespace World

def modify (world : World) (id : String) (change : SessionRecord → SessionRecord) : World :=
  match world.records.get id with
  | some record => { world with records := world.records.insert (change record) }
  | none => world

/-- `Registry::set_hibernation`. -/
def setHibernation (world : World) (id : String) (reason : HibernationReason) (now : Int) :
    World :=
  world.modify id fun record => { record with hibernation := some reason, updatedAt := now }

/-- `Registry::apply_resource_sample`. -/
def applySample (world : World) (id : String) (memoryBytes : UInt64) : World :=
  world.modify id fun record => { record with memoryBytes := some memoryBytes }

/-- `Registry::records`, sorted by id. -/
def list (world : World) : List SessionRecord :=
  world.records.values.insertionSort fun left right => left.id ≤ right.id

end World

/-! ### A sweep -/

structure Candidate where
  id : String
  idleSince : Int
  footprint : UInt64
deriving DecidableEq

/-- The loop over the records: those still to come, and what it has collected. -/
structure Sampling where
  records : List SessionRecord
  candidates : List Candidate
  total : UInt64

/-- The record the loop is at, which is not hibernated and has a live session. -/
structure Sample where
  record : SessionRecord
  footprint : UInt64

/-- Where a sweep is, with its local variables. -/
inductive Phase where
  | waiting
  /-- The next record is taken up. -/
  | sampling (loop : Sampling)
  /-- The tree of the record is measured; the sinks are asked for next. -/
  | measured (sample : Sample) (loop : Sampling)
  /-- The sinks are known; the sample goes into the record next. -/
  | probed (sample : Sample) (attached : Bool) (loop : Sampling)
  /-- The session is frozen, or becomes a candidate, or neither. -/
  | sampled (sample : Sample) (attached : Bool) (loop : Sampling)
  /-- Sustained-idle freeze, with the candidates it has been over. -/
  | idlePass (passed remaining : List Candidate) (total : UInt64) (now : Int)
  /-- Global budget. -/
  | budgetPass (remaining : List Candidate) (excess : UInt64) (now : Int)
  | done

/-- What a step of the sweep reads from the system. -/
structure Reading where
  childPid : Int
  footprint : UInt64
  /-- `SIGSTOP` goes through. -/
  stops : Bool
  now : Int
  budget : UInt64

structure Sweep where
  world : World
  phase : Phase
  freezes : List Freeze

/-- A candidate that the sustained-idle pass freezes. -/
def overThreshold (config : GovernorConfig) (now : Int) (candidate : Candidate) : Bool :=
  decide (0 < config.idleThreshold) && decide (config.idleThreshold < now - candidate.idleSince)

namespace Sweep

def start (world : World) : Sweep := ⟨world, .waiting, []⟩

/-- `Registry::hibernate`. -/
def freeze (sweep : Sweep) (id : String) (reason : HibernationReason) (reading : Reading) : Sweep :=
  if sweep.world.live id && reading.stops then
    { sweep with
      world := sweep.world.setHibernation id reason reading.now
      freezes := sweep.freezes ++ [⟨id, sweep.world.records.get id, sweep.world.hasSinks id⟩] }
  else sweep

def enter (sweep : Sweep) (phase : Phase) : Sweep := { sweep with phase := phase }

def applySample (sweep : Sweep) (id : String) (memoryBytes : UInt64) : Sweep :=
  { sweep with world := sweep.world.applySample id memoryBytes }

/-- One step of the sweep. -/
def advance (config : GovernorConfig) (tick : Nat) (sweep : Sweep) (reading : Reading) : Sweep :=
  match sweep.phase with
  | .waiting => sweep.enter (.sampling ⟨sweep.world.list, [], 0⟩)
  | .sampling ⟨record :: records, candidates, total⟩ =>
    if record.hibernation.isSome then
      if config.hibernatedSampleEvery ∣ tick then
        (sweep.applySample record.id reading.footprint).enter
          (.sampling ⟨records, candidates, total + reading.footprint⟩)
      else
        sweep.enter (.sampling ⟨records, candidates, total + record.memoryBytes.getD 0⟩)
    else if !sweep.world.live record.id || reading.childPid ≤ 1 then
      sweep.enter (.sampling ⟨records, candidates, total⟩)
    else
      sweep.enter (.measured ⟨record, reading.footprint⟩
        ⟨records, candidates, total + reading.footprint⟩)
  | .sampling ⟨[], candidates, total⟩ =>
    sweep.enter (.idlePass [] candidates total reading.now)
  | .measured sample loop =>
    sweep.enter (.probed sample (sweep.world.hasSinks sample.record.id) loop)
  | .probed sample attached loop =>
    (sweep.applySample sample.record.id sample.footprint).enter (.sampled sample attached loop)
  | .sampled sample attached loop =>
    match idleSince sample.record attached with
    | none => sweep.enter (.sampling loop)
    | some since =>
      if sample.footprint > config.hardMemoryBytes then
        (sweep.freeze sample.record.id .memoryPressure reading).enter (.sampling loop)
      else
        let candidate := ⟨sample.record.id, since, sample.footprint⟩
        sweep.enter (.sampling { loop with candidates := loop.candidates ++ [candidate] })
  | .idlePass passed (candidate :: remaining) total now =>
    let next := Phase.idlePass (passed ++ [candidate]) remaining total now
    if overThreshold config now candidate then
      (sweep.freeze candidate.id .idle reading).enter next
    else sweep.enter next
  | .idlePass passed [] total now =>
    if total > reading.budget then
      let byOldest := passed.insertionSort fun left right => left.idleSince ≤ right.idleSince
      sweep.enter (.budgetPass byOldest (total - reading.budget) now)
    else sweep.enter .done
  | .budgetPass (candidate :: remaining) excess now =>
    if excess = 0 then sweep.enter .done
    else if config.budgetMinIdle < now - candidate.idleSince then
      -- `saturating_sub`
      let left := if excess ≤ candidate.footprint then 0 else excess - candidate.footprint
      (sweep.freeze candidate.id .memoryPressure reading).enter (.budgetPass remaining left now)
    else sweep.enter (.budgetPass remaining excess now)
  | .budgetPass [] _ _ => sweep.enter .done
  | .done => sweep

end Sweep

inductive SweepEvent where
  /-- Input, status changes, attaches, pins, and whatever else other threads do. -/
  | elsewhere (world : World)
  | advance (reading : Reading)

def step (config : GovernorConfig) (tick : Nat) (sweep : Sweep) : SweepEvent → Sweep × Unit
  | .elsewhere world => ({ sweep with world := world }, ())
  | .advance reading => (sweep.advance config tick reading, ())

end Homie.Governor
