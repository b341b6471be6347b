/-
The records the app keeps about sessions and projects: the part of `homie-proto/src/model.rs`
that the store of `homie-app` reads or writes.

Times are milliseconds; they come over the wire as finite numbers and only their order is used,
so they are integers here.
-/
import Homie.Engine.Status
import Homie.Lib.KeyedMap

namespace Homie.App

abbrev SessionId := String
abbrev ProjectId := String
abbrev DateMillis := Int

structure AgentKind where
  id : String
  /-- Only meaningful for `generic`: the command line the user asked for. -/
  command : Option String
deriving DecidableEq, Repr

def AgentKind.SHELL : AgentKind := ⟨"shell", none⟩

inductive TitleSource where
  | placeholder
  | firstPrompt
  | agentProvided
  | homieAssigned
  | userRename
  | unknown
deriving DecidableEq, Repr

inductive Resumability where
  | live
  | resumable
  | transcriptMissing
  | notResumable
  | unknown
deriving DecidableEq, Repr

structure PortInfo where
  port : Int
  processName : String
deriving DecidableEq, Repr

inductive ArtifactKind where
  | pullRequest
  | linearIssue
  | preview
  | link
  | unknown
deriving DecidableEq, Repr

structure SessionArtifact where
  kind : ArtifactKind
  url : String
  firstSeenAt : DateMillis
deriving DecidableEq, Repr

structure SessionRecord where
  id : SessionId
  kind : AgentKind
  cwd : String
  projectId : ProjectId
  worktreePath : Option String
  title : String
  titleSource : TitleSource
  status : SessionStatus
  resumability : Resumability
  parent : Option SessionId
  createdAt : DateMillis
  archivedAt : Option DateMillis
  host : Option String
  memoryBytes : Option Nat
  artifacts : Option (List SessionArtifact)
  listeningPorts : Option (List PortInfo)
deriving DecidableEq

def SessionRecord.isArchived (session : SessionRecord) : Bool := session.archivedAt.isSome

structure Project where
  id : ProjectId
  root : String
  name : String
  pinnedOrder : Option Int
deriving DecidableEq, Repr

/-- Shell children belong to their parent's workbench. -/
def isAuxiliaryTerminal (session : SessionRecord) : Bool :=
  session.kind == AgentKind.SHELL && session.parent.isSome

/-- A hash map of sessions.  Every insertion is keyed by the record's own id. -/
abbrev SessionMap := KeyedMap SessionRecord.id

/-- A hash map of projects. -/
abbrev ProjectMap := KeyedMap Project.id

end Homie.App
