/-
The sinks of a session: `homie-engine/src/attach.rs`.

A sink is a client's copy of the screen.  It is seeded with a full frame and then sent
every update the session's pump emits; what it holds is what `GridUpdate::apply` makes of
them.  The frames themselves are a codec of their own, so here a sink is handed the
updates.

`RemoteSinks` are the sinks of a remote session and what the pump of its Holder does
underneath them.  An emission compares with whatever signature its pump holds, which
depends on the sink that pump was started for.
-/
import Homie.Engine.RemotePump
import Homie.Lib.Trace

namespace Homie

/-! ### The sinks of a remote session -/

structure RemoteSinks (T : Type) where
  pump : Remote.RemotePump T
  /-- What each sink holds, the youngest last. -/
  sinks : List (List GridCell)

inductive RemoteSinksEvent where
  /-- `apply_remote_output`. -/
  | output (offset : UInt64) (bytes : List UInt8)
  /-- `apply_remote_snapshot`. -/
  | snapshot (snapshot : FullSnapshot)
  /-- `apply_remote_delta`. -/
  | delta (delta : GridDelta)
  /-- A sink is attached and takes its seed. -/
  | seed
  /-- A pump that last saw `signature` looks for a change. -/
  | emit (signature : GridSignature)

namespace RemoteSinks

variable {T : Type} (P : Remote.Platform T)

/-- A session just adopted, with no sink. -/
def start (cols rows : UInt16) (outputOffset : Nat) : RemoteSinks T :=
  ⟨.adopt P cols rows outputOffset, []⟩

/-- The outcome is the update that is emitted. -/
def step (s : RemoteSinks T) : RemoteSinksEvent → RemoteSinks T × Option GridUpdate
  | .output offset bytes => ({ s with pump := s.pump.applyRemoteOutput P offset bytes }, none)
  | .snapshot snapshot => ({ s with pump := (s.pump.applyRemoteSnapshot P snapshot).2 }, none)
  | .delta delta => ({ s with pump := (s.pump.applyRemoteDelta delta).2 }, none)
  | .seed =>
    let seed := s.pump.session.attachmentSeed P.backend
    ({ s with sinks := s.sinks ++ [seed.grid.apply []] }, none)
  | .emit signature =>
    let (update, _, session) := s.pump.session.gridUpdateIfChanged P.backend signature
    ({ pump := { s.pump with session }
       sinks := update.elim s.sinks fun update => s.sinks.map update.apply }, update)

end RemoteSinks

end Homie

/-! ### `AttachHub`: the connections attached to one session and the pump that serves them, `serve`,
`register`, `deregister` and `pump` of `homie-engine/src/attach.rs`

A connection takes its seed under the registry lock and is registered later, under the
hub's own lock; the first to register starts the pump with its seed.  The pump waits for
the session's wake, looks whether the session has been replaced, samples the grid and the
modes under the registry lock, and reads the list of registered sinks after that.  Each of
these critical sections is one step, so a list of steps is one interleaving.

A session changes first and notifies its wake afterwards.  The time a pump waits to
coalesce and the interactive budget decide when it goes on, not what it does, so a wait
ends at any moment.  Updates of any geometry a screen can have encode, and a peer whose
write fails is gone.
-/

namespace Homie

open Remote

/-! ### Frames and sinks -/

inductive SinkFrame where
  | grid (update : GridUpdate)
  | modes (altScreen mouseReporting : Bool)
deriving DecidableEq, Repr

/-- What a client has been shown: its buffer and the last modes frame. -/
structure SinkView where
  cells : List GridCell
  modes : Bool × Bool
deriving DecidableEq, Repr

def SinkFrame.apply (view : SinkView) : SinkFrame → SinkView
  | .grid update => { view with cells := update.apply view.cells }
  | .modes altScreen mouseReporting => { view with modes := (altScreen, mouseReporting) }

/-- A client that takes `frames` one after the other. -/
def SinkView.after (view : SinkView) (frames : List SinkFrame) : SinkView :=
  frames.foldl SinkFrame.apply view

/-! ### The session and its wake -/

/-- `GridWake`: which one it is, and its generation. -/
structure GridWake where
  source : Nat
  generation : Nat
deriving DecidableEq, Repr

/-- What the threads of a session do to it. -/
inductive SessionChange where
  | screen (change : ScreenChange)
  | output (offset : UInt64) (bytes : List UInt8)
  | snapshot (snapshot : FullSnapshot)
  | delta (delta : GridDelta)

variable {T : Type}

/-- A session in the registry. -/
structure HubSession (T : Type) where
  shared : RemotePump T
  wake : GridWake
  /-- It has changed and not been notified yet. -/
  changed : Bool

namespace HubSession

variable (P : Platform T)

def session (s : HubSession T) : Session T := s.shared.session

/-- A change of the state the session's threads share. -/
def applyChange (shared : RemotePump T) : SessionChange → RemotePump T
  | .screen change =>
    { shared with
      session := { shared.session with
        screen := shared.session.screen.change P.backend change } }
  | .output offset bytes => shared.applyRemoteOutput P offset bytes
  | .snapshot snapshot => (shared.applyRemoteSnapshot P snapshot).2
  | .delta delta => (shared.applyRemoteDelta delta).2

/-- A new session: a local one, or a remote one whose output goes on at an offset. -/
def create (cols rows : UInt16) : Option Nat → RemotePump T
  | some outputOffset => .adopt P cols rows outputOffset
  | none =>
    { RemotePump.adopt P cols rows 0 with
      session := ⟨HeadlessScreen.new P.backend cols.toNat rows.toNat, none⟩ }

end HubSession

/-! ### Connections and the pump -/

/-- One `serve` call past its seed. -/
structure Attachment where
  id : Nat
  seed : AttachmentSeed
  wake : GridWake
  registered : Bool
  /-- The client has not gone away. -/
  connected : Bool
  view : SinkView
  /-- What the pump has sampled since the seed and not written to this sink. -/
  due : List SinkFrame

inductive PumpPhase where
  | waiting
  | woken (changed : Bool)
  | checked (changed : Bool)
  | sampled (update : Option GridUpdate)
  | observed (frames : List SinkFrame)
  | writing (frames : List SinkFrame) (ids : List Nat)
  | finishing
deriving DecidableEq, Repr

structure AttachPump where
  signature : GridSignature
  lastModes : Option (Bool × Bool)
  wake : GridWake
  phase : PumpPhase

structure AttachHub (T : Type) where
  session : Option (HubSession T)
  nextSource : Nat
  attachments : List Attachment
  nextSink : Nat
  pump : Option AttachPump

inductive HubStep where
  | change (change : SessionChange)
  | notify
  /-- A session is put into the registry, after some changes, in place of any there was. -/
  | install (cols rows : UInt16) (outputOffset : Option Nat) (changes : List SessionChange)
  | remove
  | seed
  | register (id : Nat)
  /-- The client goes away; its connection is deregistered later. -/
  | hangUp (id : Nat)
  | deregister (id : Nat)
  /-- The pump's wait ends; `generation` is what a wake no session has any more says. -/
  | wait (generation : Nat)
  | check
  | coalesce (generation : Nat)
  | sampleGrid
  | sampleModes
  | readSinks
  | write
  | finish

namespace AttachHub

variable (P : Platform T)

def new : AttachHub T := ⟨none, 0, [], 0, none⟩

/-- Whether the pump is inside the critical section in which it samples the session. -/
def sampling (hub : AttachHub T) : Bool :=
  match hub.pump with
  | some pump => match pump.phase with
    | .sampled _ => true
    | _ => false
  | none => false

def updateSession (hub : AttachHub T) (f : HubSession T → HubSession T) : AttachHub T :=
  { hub with session := hub.session.map f }

def updateAttachment (hub : AttachHub T) (id : Nat) (f : Attachment → Attachment) : AttachHub T :=
  { hub with attachments := hub.attachments.map fun a => if a.id = id then f a else a }

/-- `attachment_seed` and the two frames it is written as. -/
def seed (hub : AttachHub T) : AttachHub T :=
  match hub.session with
  | none => hub
  | some s =>
    let seed := s.session.attachmentSeed P.backend
    { hub with
      attachments := hub.attachments ++
        [{ id := hub.nextSink
           seed := seed
           wake := s.wake
           registered := false
           connected := true
           view := ⟨seed.grid.apply [], seed.modes⟩
           due := [] }]
      nextSink := hub.nextSink + 1 }

/-- `register`: the pump is started with the seed of the first. -/
def register (hub : AttachHub T) (id : Nat) : AttachHub T :=
  match hub.attachments.find? (·.id = id) with
  | none => hub
  | some a =>
    { hub.updateAttachment id ({ · with registered := true }) with
      pump := hub.pump.or (some ⟨a.seed.signature, some a.seed.modes, a.wake, .waiting⟩) }

/-- The generation the pump's wake has. -/
def wakeNow (hub : AttachHub T) (pump : AttachPump) (generation : Nat) : GridWake :=
  match hub.session with
  | some s => if s.wake.source = pump.wake.source then s.wake else ⟨pump.wake.source, generation⟩
  | none => ⟨pump.wake.source, generation⟩

/-- What the pump makes of its sample of the grid. -/
def gridFrames (update : Option GridUpdate) : List SinkFrame :=
  update.toList.map SinkFrame.grid

/-- The modes frame, if there is a previous value and it was another. -/
def modesFrames (lastModes : Option (Bool × Bool)) (modes : Bool × Bool) : List SinkFrame :=
  match lastModes with
  | some previous => if previous ≠ modes then [.modes modes.1 modes.2] else []
  | none => []

/-- Frames become due to every connection there is. -/
def owe (attachments : List Attachment) (frames : List SinkFrame) : List Attachment :=
  attachments.map fun a => { a with due := a.due ++ frames }

/-- The pump's next step; `generation` is what an abandoned wake says. -/
def pumpStep (hub : AttachHub T) (pump : AttachPump) : HubStep → AttachHub T
  | .wait generation =>
    match pump.phase with
    | .waiting =>
      let wake := hub.wakeNow pump generation
      { hub with
        pump := some
          { pump with
            wake := wake
            phase := .woken (wake.generation ≠ pump.wake.generation) } }
    | _ => hub
  | .check =>
    match pump.phase with
    | .woken changed =>
      match hub.session with
      | some s =>
        if s.wake.source ≠ pump.wake.source then
          { hub with pump := some ⟨.default, none, s.wake, .checked true⟩ }
        else { hub with pump := some { pump with phase := .checked changed } }
      | none => { hub with pump := some { pump with phase := .checked changed } }
    | _ => hub
  | .coalesce generation =>
    match pump.phase with
    | .checked true => { hub with pump := some { pump with wake := hub.wakeNow pump generation } }
    | _ => hub
  | .sampleGrid =>
    match pump.phase, hub.session with
    | .checked true, some s =>
      let (update, signature, session) :=
        s.session.gridUpdateIfChanged P.backend pump.signature
      { hub with
        session := some { s with shared := { s.shared with session := session } }
        attachments := owe hub.attachments (gridFrames update)
        pump := some { pump with signature := signature, phase := .sampled update } }
    | .checked _, _ => { hub with pump := some { pump with phase := .finishing } }
    | _, _ => hub
  | .sampleModes =>
    match pump.phase, hub.session with
    | .sampled update, some s =>
      let modes := s.session.modes P.backend
      let frames := modesFrames pump.lastModes modes
      { hub with
        attachments := owe hub.attachments frames
        pump := some
          { pump with
            lastModes := some modes
            phase := .observed (gridFrames update ++ frames) } }
    | _, _ => hub
  | .readSinks =>
    match pump.phase with
    | .observed [] => { hub with pump := some { pump with phase := .finishing } }
    | .observed frames =>
      { hub with
        attachments := hub.attachments.map fun a =>
          { a with due := if a.registered then frames else [] }
        pump := some
          { pump with
            phase := .writing frames
              ((hub.attachments.filter (·.registered)).map Attachment.id) } }
    | _ => hub
  | .write =>
    match pump.phase with
    | .writing frames (id :: ids) =>
      { hub.updateAttachment id (fun a => { a with view := a.view.after frames, due := [] }) with
        pump := some { pump with phase := .writing frames ids } }
    | .writing _ [] => { hub with pump := some { pump with phase := .finishing } }
    | _ => hub
  | .finish =>
    match pump.phase with
    | .finishing =>
      if hub.attachments.any (·.registered) then
        { hub with pump := some { pump with phase := .waiting } }
      else { hub with pump := none }
    | _ => hub
  | _ => hub

def step (hub : AttachHub T) : HubStep → AttachHub T × Unit
  | .change change =>
    (hub.updateSession fun s =>
      { s with shared := HubSession.applyChange P s.shared change, changed := true }, ())
  | .notify =>
    (hub.updateSession fun s =>
      { s with wake := ⟨s.wake.source, s.wake.generation + 1⟩, changed := false }, ())
  | .install cols rows outputOffset changes =>
    if hub.sampling then (hub, ())
    else
      ({ hub with
        session := some
          { shared := changes.foldl (HubSession.applyChange P)
              (HubSession.create P cols rows outputOffset)
            wake := ⟨hub.nextSource, 0⟩
            changed := false }
        nextSource := hub.nextSource + 1 }, ())
  | .remove => if hub.sampling then (hub, ()) else ({ hub with session := none }, ())
  | .seed => if hub.sampling then (hub, ()) else (hub.seed P, ())
  | .register id => (hub.register id, ())
  | .hangUp id => (hub.updateAttachment id ({ · with connected := false }), ())
  | .deregister id => ({ hub with attachments := hub.attachments.filter (·.id ≠ id) }, ())
  | event =>
    match hub.pump with
    | some pump => (hub.pumpStep P pump event, ())
    | none => (hub, ())

/-- The state after the steps `steps` of a hub with no session. -/
def run (steps : List HubStep) : AttachHub T :=
  Trace.run (step P) new steps

end AttachHub

end Homie
