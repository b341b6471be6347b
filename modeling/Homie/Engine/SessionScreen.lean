/-
What a session shows its sinks: `homie-engine/src/session/screen.rs`.

A local session has a screen of its own, a remote one also mirrors the holder's grid.
`attachmentSeed` gives a new sink its first frame and `gridUpdateIfChanged` the pump
its next diff, if the signature moved.  The seed is sampled at one generation of the
wake, so it is one state of the session.

The methods that take `&mut` return the new state next to their result.
-/
import Homie.TerminalState.Mirror
import Homie.TerminalState.Screen

namespace Homie

/-- What the grid pump compares between ticks to decide whether anything changed. -/
structure GridSignature where
  contentSeq : Nat
  size : Nat × Nat
  cursor : UInt16 × UInt16 × Bool
  altScreen : Bool
  mouseReporting : Bool
deriving DecidableEq, Repr

/-- `GridSignature::default()`: never seen anything. -/
def GridSignature.default : GridSignature := ⟨0, (0, 0), (0, 0, false), false, false⟩

structure RemoteGridState where
  mirror : GridMirror
  revision : Nat
  pending : Option GridUpdate
deriving DecidableEq, Repr

structure Session (T : Type) where
  screen : HeadlessScreen T
  remoteGrid : Option RemoteGridState

structure AttachmentSeed where
  grid : GridUpdate
  modes : Bool × Bool
  signature : GridSignature
deriving DecidableEq, Repr

variable {T : Type} (E : Backend T)

def HeadlessScreen.signature (s : HeadlessScreen T) : GridSignature :=
  ⟨s.contentSeq, s.size, s.cursor E, s.isAltScreen E, s.mouseReporting E⟩

def RemoteGridState.signature (remote : RemoteGridState) : GridSignature :=
  ⟨remote.revision, (remote.mirror.cols.toNat, remote.mirror.rows.toNat), remote.mirror.cursor,
    remote.mirror.altScreen, remote.mirror.mouseReporting⟩

namespace Session

/-- A coherent full snapshot and its signature for a freshly attached sink. -/
def attachmentSeed (session : Session T) : AttachmentSeed :=
  let sampled := session.remoteGrid.bind fun remote =>
    remote.mirror.fullUpdate.map fun grid =>
      ⟨grid, (remote.mirror.altScreen, remote.mirror.mouseReporting), remote.signature⟩
  sampled.getD
    ⟨session.screen.fullSnapshot E,
      (session.screen.isAltScreen E, session.screen.mouseReporting E),
      session.screen.signature E⟩

/-- The next grid diff, if anything observable changed since `signature`. -/
def gridUpdateIfChanged (session : Session T) (signature : GridSignature) :
    Option GridUpdate × GridSignature × Session T :=
  match session.remoteGrid.filter fun remote => remote.mirror.sequence.isSome with
  | some remote =>
    if remote.signature = signature then (none, signature, session)
    else
      let update := remote.pending.or remote.mirror.fullUpdate
      (update, remote.signature,
        { session with remoteGrid := some { remote with pending := none } })
  | none =>
    if session.screen.signature E = signature then (none, signature, session)
    else
      let (update, screen) := session.screen.gridUpdate E false
      (some update, session.screen.signature E, { session with screen })

/-- Current (alt screen, mouse reporting). -/
def modes (session : Session T) : Bool × Bool :=
  match session.remoteGrid.filter fun remote => remote.mirror.sequence.isSome with
  | some remote => (remote.mirror.altScreen, remote.mirror.mouseReporting)
  | none => (session.screen.isAltScreen E, session.screen.mouseReporting E)

/-- The cells a session shows: the mirror's, once it has a screen, or its own. -/
def shown (session : Session T) : List GridCell :=
  match session.remoteGrid.filter fun remote => remote.mirror.sequence.isSome with
  | some remote => remote.mirror.cells
  | none => session.screen.cells E

end Session

/-! ### The pump -/

/-- A session with the signature its pump keeps. -/
structure GridPump (T : Type) where
  session : Session T
  signature : GridSignature

inductive PumpOp where
  | change (change : ScreenChange)
  /-- A pump starts on a fresh seed. -/
  | attach
  | poll
deriving DecidableEq, Repr

namespace GridPump

/-- A local session that no pump has served yet. -/
def start (cols rows : UInt16) : GridPump T :=
  ⟨⟨HeadlessScreen.new E cols.toNat rows.toNat, none⟩, .default⟩

/-- The outcome is the update that is emitted. -/
def step (pump : GridPump T) : PumpOp → GridPump T × Option GridUpdate
  | .change change =>
    ({ pump with
      session := { pump.session with screen := pump.session.screen.change E change } }, none)
  | .attach =>
    let seed := pump.session.attachmentSeed E
    ({ pump with signature := seed.signature }, some seed.grid)
  | .poll =>
    let (update, signature, session) := pump.session.gridUpdateIfChanged E pump.signature
    (⟨session, signature⟩, update)

end GridPump

end Homie
