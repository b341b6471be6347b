/-
The policy of the gateway: `homie-gateway/src/policy.rs`, and `check_policy` of `routes.rs`.

A call reads the clock, takes the limiter's lock, and then asks for the tokens of the day; other
calls do the same in between.  A step is one of these, so a list of steps is one interleaving.
What the clock says and what the table of tokens sums up to come with the step.  Without a policy
a call returns at once, so there is one here.
-/
import Homie.Lib.KeyedMap
import Homie.Lib.Trace

namespace Homie.Gateway

structure RateLimit where
  requestsPerMinute : Nat
deriving DecidableEq, Repr

structure Quota where
  dailyTokenLimit : Nat
deriving DecidableEq, Repr

structure Policy where
  rateLimit : Option RateLimit
  quota : Option Quota
deriving DecidableEq, Repr

/-! ### The limiter -/

/-- A key with the minute of its window and the requests counted in it. -/
structure Window where
  key : String
  start : Int
  count : Nat
deriving DecidableEq, Repr

structure RateLimiter where
  windows : KeyedMap Window.key

def RateLimiter.new : RateLimiter := ⟨.empty⟩

/-- Whether the request is allowed, and the limiter that has counted it. -/
def RateLimiter.allow (limiter : RateLimiter) (key : String) (requestsPerMinute : Nat) (now : Int) :
    Bool × RateLimiter :=
  if requestsPerMinute = 0 then (true, limiter)
  else
    let window := now / 60
    match limiter.windows.get key with
    | some found =>
      if found.start = window then
        if found.count ≥ requestsPerMinute then (false, limiter)
        else (true, ⟨limiter.windows.insert { found with count := found.count + 1 }⟩)
      else (true, ⟨limiter.windows.insert ⟨key, window, 1⟩⟩)
    | none => (true, ⟨limiter.windows.insert ⟨key, window, 1⟩⟩)

/-- `QuotaChecker::allow`, where `sum` is what the query returned, as an `i64`. -/
def quotaAllow (dailyTokenLimit : Nat) (sum : Option Int) : Option Bool :=
  if dailyTokenLimit = 0 then some true
  else sum.map fun sum => (sum % 2 ^ 64).toNat < dailyTokenLimit

/-! ### The calls -/

inductive DenyReason where
  | rateLimit
  | quota
deriving DecidableEq, Repr

inductive Response where
  | deny (reason : DenyReason)
  | quotaCheckFailed
deriving DecidableEq, Repr

/-- How far a call of `check_policy` is; none is what an allowed one returns. -/
inductive Stage where
  | called
  | limiting (now : Int)
  | metering (now : Int)
  | returned (now : Int) (response : Option Response)
deriving DecidableEq, Repr

structure Call where
  keyId : String
  stage : Stage
deriving DecidableEq, Repr

structure AppState where
  rateLimiter : RateLimiter
  calls : List Call

def AppState.new : AppState := ⟨.new, []⟩

/-- What is next once the limiter has let a call through. -/
def Policy.afterLimit (policy : Policy) (now : Int) : Stage :=
  match policy.quota with
  | some _ => .metering now
  | none => .returned now none

def Policy.afterClock (policy : Policy) (now : Int) : Stage :=
  match policy.rateLimit with
  | some _ => .limiting now
  | none => policy.afterLimit now

def Policy.afterQuota (policy : Policy) (now : Int) (sum : Option Int) : Stage :=
  match policy.quota with
  | some quota =>
    match quotaAllow quota.dailyTokenLimit sum with
    | some true => .returned now none
    | some false => .returned now (some (.deny .quota))
    | none => .returned now (some .quotaCheckFailed)
  | none => .returned now none

inductive Event where
  | call (keyId : String)
  | readClock (index : Nat) (now : Int)
  | lockLimiter (index : Nat)
  | checkQuota (index : Nat) (sum : Option Int)
deriving DecidableEq, Repr

namespace AppState

variable (policy : Policy) (state : AppState)

def setStage (index : Nat) (call : Call) (stage : Stage) : AppState :=
  { state with calls := state.calls.set index { call with stage := stage } }

def lockLimiter (index : Nat) (call : Call) (now : Int) : AppState :=
  match policy.rateLimit with
  | some limit =>
    let (allowed, rateLimiter) :=
      state.rateLimiter.allow call.keyId limit.requestsPerMinute now
    setStage { state with rateLimiter } index call
      (if allowed then policy.afterLimit now else .returned now (some (.deny .rateLimit)))
  | none => state

/-- One step of one call; a step that is not the call's next one is none. -/
def step (event : Event) : AppState × Unit :=
  match event with
  | .call keyId => ({ state with calls := state.calls ++ [⟨keyId, .called⟩] }, ())
  | .readClock index now =>
    match state.calls[index]? with
    | some ⟨keyId, .called⟩ =>
      (state.setStage index ⟨keyId, .called⟩ (policy.afterClock now), ())
    | _ => (state, ())
  | .lockLimiter index =>
    match state.calls[index]? with
    | some ⟨keyId, .limiting now⟩ =>
      (state.lockLimiter policy index ⟨keyId, .limiting now⟩ now, ())
    | _ => (state, ())
  | .checkQuota index sum =>
    match state.calls[index]? with
    | some ⟨keyId, .metering now⟩ =>
      (state.setStage index ⟨keyId, .metering now⟩ (policy.afterQuota now sum), ())
    | _ => (state, ())

def run (events : List Event) : AppState := Trace.run (step policy) .new events

end AppState

end Homie.Gateway
