/-
The lookup of the selected session's repository on a host: `begin_repo_targeting`,
`request_repo_target`, `repo_target` and `set_repo_target` of `homie-app/src/store/hosts.rs`, and
the `LocateRepo` arm of `run_effects` in `store/runtime.rs`.

A popover begins with the targets cleared and the selected session taken as the reference.  The
lookups that it asks for are in flight until their answers come back, in any order.
-/
import Homie.App.Projection
import Homie.Lib.Trace

namespace Homie.App

inductive RepoTarget where
  | pending
  | resolved (path : String)
  | notCloned
  | noOrigin
deriving DecidableEq

/-- The `LocateRepo` effect, and for the proofs the number of the popover that asked. -/
structure LocateRepo where
  key : String
  host : Option String
  sessionId : SessionId
  popover : Nat
deriving DecidableEq

/-- What the daemon says of a repository: its path on the host, and its origin. -/
structure LocatedRepo where
  path : Option String
  originUrl : Option String

/-- A lookup that fails falls back to the default directory. -/
def LocatedRepo.target : Except String LocatedRepo → RepoTarget
  | .ok ⟨some path, _⟩ => .resolved path
  | .ok ⟨none, some _⟩ => .notCloned
  | .ok ⟨none, none⟩ => .noOrigin
  | .error _ => .noOrigin

def repoTargetKey (host : Option String) : String := host.getD "local"

structure RepoTargeting where
  hosts : List String
  defaultSpawnHost : Option String
  selectedSessionId : Option SessionId
  repoTargets : String → Option RepoTarget
  repoTargetSession : Option SessionId
  /-- The lookups that have not been answered. -/
  inFlight : List LocateRepo
  /-- For the proofs: how many popovers have begun, and whose answer an entry is. -/
  popover : Nat
  answeredBy : String → Option LocateRepo

namespace RepoTargeting

def start (hosts : List String) (defaultSpawnHost selectedSessionId : Option String) :
    RepoTargeting :=
  ⟨hosts, defaultSpawnHost, selectedSessionId, fun _ => none, none, [], 0, fun _ => none⟩

def setEntry (store : RepoTargeting) (key : String) (target : RepoTarget) : RepoTargeting :=
  { store with
    repoTargets := fun other => if other = key then some target else store.repoTargets other }

/-- The host that the popover starts with is returned beside the store. -/
def beginRepoTargeting (store : RepoTargeting) : RepoTargeting × Option String :=
  ({ store with
      repoTargets := fun _ => none
      repoTargetSession := store.selectedSessionId
      popover := store.popover + 1
      answeredBy := fun _ => none },
    store.defaultSpawnHost.filter (· ∈ store.hosts))

/-- The lookup that is emitted is returned beside the store. -/
def requestRepoTarget (store : RepoTargeting) (host : Option String) :
    RepoTargeting × Option LocateRepo :=
  match store.repoTargetSession with
  | none => (store, none)
  | some sessionId =>
    let key := repoTargetKey host
    if (store.repoTargets key).isSome then (store, none)
    else
      let lookup : LocateRepo := ⟨key, host, sessionId, store.popover⟩
      ({ store.setEntry key .pending with inFlight := store.inFlight ++ [lookup] }, some lookup)

def repoTarget (store : RepoTargeting) (host : Option String) : Option RepoTarget :=
  store.repoTargets (repoTargetKey host)

def setRepoTarget (store : RepoTargeting) (key : String) (target : RepoTarget) : RepoTargeting :=
  store.setEntry key target

/-- The answer to a lookup. -/
def locateRepo (store : RepoTargeting) (lookup : LocateRepo)
    (result : Except String LocatedRepo) : RepoTargeting :=
  { store.setRepoTarget lookup.key (LocatedRepo.target result) with
    inFlight := store.inFlight.erase lookup
    answeredBy := fun key => if key = lookup.key then some lookup else store.answeredBy key }

inductive Event where
  | beginRepoTargeting
  | requestRepoTarget (host : Option String)
  | select (id : Option SessionId)
  | setHosts (hosts : List String)
  | setDefaultSpawnHost (host : Option String)
  /-- The answer to one of the lookups in flight comes back. -/
  | answered (index : Nat) (result : Except String LocatedRepo)

/-- The outcome of a step is the lookup it emits. -/
def step (store : RepoTargeting) : Event → RepoTargeting × Option LocateRepo
  | .beginRepoTargeting => (store.beginRepoTargeting.1, none)
  | .requestRepoTarget host => store.requestRepoTarget host
  | .select id => ({ store with selectedSessionId := id }, none)
  | .setHosts hosts => ({ store with hosts := hosts }, none)
  | .setDefaultSpawnHost host => ({ store with defaultSpawnHost := host }, none)
  | .answered index result =>
    match store.inFlight[index]? with
    | some lookup => (store.locateRepo lookup result, none)
    | none => (store, none)

end RepoTargeting

end Homie.App
