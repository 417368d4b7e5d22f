import AgentWallet.Bolt12.Bech32
import Mathlib.Data.Rat.Defs
/-!
# The circuit breaker of the upstream clients (`core/resilience.py`)

A breaker guards the calls to one upstream: `with_retry`, LND's mutating requests
and `send_payment_v2`. The calls run on one event loop, so what a call does from
one await to the next is one step (`World.step`). An event says which call goes on
and what it was waiting for.

The half-open lock is an `asyncio.Lock`: whoever finds it free takes it, others
queue, and a release wakes the head of the queue, which takes the lock when it
runs. The lock does not know its holder; `Lock.holder` records it.
-/

namespace AgentWallet.Resilience

/-! ## The breaker -/

inductive State
  | closed
  | opened
  | halfOpen
deriving DecidableEq

/-- Times are in microseconds. -/
structure CircuitBreaker where
  name : String
  failureThreshold : ℕ := 5
  openDuration : ℕ := 30000000
  state : State := .closed
  consecutiveFailures : ℕ := 0
  openedAt : Option ℕ := none
  lastError : Option String := none
deriving DecidableEq

namespace CircuitBreaker

def maybeHalfOpen (now : ℕ) (b : CircuitBreaker) : CircuitBreaker :=
  match b.openedAt with
  | none => b
  | some openedAt =>
    if b.state = .opened ∧ openedAt + b.openDuration ≤ now then { b with state := .halfOpen } else b

/-- `repr(last_error)` -/
def reprError : Option String → String
  | none => "None"
  | some error => Bolt12.Bech32.pyRepr error.toList

/-- The text of a `BreakerOpenError`. -/
def openText (b : CircuitBreaker) : String :=
  "Circuit breaker '" ++ b.name ++ "' is open (" ++ toString b.consecutiveFailures ++
    " consecutive failures, last_error=" ++ reprError b.lastError ++ ")"

def recordSuccess (b : CircuitBreaker) : CircuitBreaker :=
  { b with lastError := none, state := .closed, consecutiveFailures := 0, openedAt := none }

/-- An error is kept up to 512 characters. -/
def capError (error : String) : String :=
  if error.length > 512 then String.ofList (error.toList.take 509) ++ "..." else error

def recordFailure (now : ℕ) (error : String) (b : CircuitBreaker) : CircuitBreaker :=
  let b := { b with lastError := some (capError error), consecutiveFailures := b.consecutiveFailures + 1 }
  match b.state with
  | .halfOpen => { b with state := .opened, openedAt := some now }
  | .closed =>
    if b.consecutiveFailures ≥ b.failureThreshold then { b with state := .opened, openedAt := some now } else b
  | .opened => b

def reset (b : CircuitBreaker) : CircuitBreaker :=
  { b with state := .closed, consecutiveFailures := 0, openedAt := none, lastError := none }

end CircuitBreaker

/-! ## Calls -/

inductive Exc
  /-- One of `_RETRYABLE_HTTPX_EXC`. -/
  | connection (typeName text : String)
  /-- `_Retryable5xxError` -/
  | serverError (status : ℕ) (body : String)
  /-- `httpx.HTTPStatusError`, with the message in its response. -/
  | httpStatus (status : ℕ) (message text : String)
  | other (typeName text : String)
  | cancelled
  | breakerOpen (text : String)
deriving DecidableEq

namespace Exc

def retryable : Exc → Bool
  | .connection _ _ | .serverError _ _ => true
  | .httpStatus _ _ _ | .other _ _ | .cancelled | .breakerOpen _ => false

def typeName : Exc → String
  | .connection typeName _ | .other typeName _ => typeName
  | .serverError _ _ => "_Retryable5xxError"
  | .httpStatus _ _ _ => "HTTPStatusError"
  | .cancelled => "CancelledError"
  | .breakerOpen _ => "BreakerOpenError"

/-- `str(e)` -/
def text : Exc → String
  | .connection _ text | .other _ text | .httpStatus _ _ text | .breakerOpen text => text
  | .serverError status body => "LND " ++ toString status ++ ": " ++ body
  | .cancelled => ""

/-- `f"{type(e).__name__}: {e}"` -/
def describe (e : Exc) : String := e.typeName ++ ": " ++ e.text

end Exc

inductive Call
  | withRetry (delays : List ℚ)
  /-- A request that is not idempotent. -/
  | mutating
  | sendPaymentV2

/-- How a call ends: with a result, with `(None, error)`, or with an exception. -/
inductive Ending
  | returned (data : String)
  | failed (error : String)
  | raised (e : Exc)
deriving DecidableEq

/-- Where a call is. `attempts` counts the attempts of `with_retry`. -/
inductive Pc
  | idle
  | waiting
  | running (attempts : ℕ)
  | sleeping (attempts : ℕ)
  | ended (ending : Ending)
deriving DecidableEq

def Pc.underWay : Pc → Bool
  | .running _ | .sleeping _ => true
  | .idle | .waiting | .ended _ => false

/-- What the stream of `send_payment_v2` comes to. -/
inductive Streamed
  | httpError (status : ℕ) (text : String)
  | noTerminal (lastError : Option String)
  | paymentFailed (failureReason : Option String)
  | succeeded (data : String)

/-- `text or default` -/
def orElse (default : String) : Option String → String
  | none | some "" => default
  | some text => text

/-- The exceptions that leave `_request`, and its answers to the others. -/
def requestEnding : Exc → Ending
  | .breakerOpen _ => .failed "LND temporarily unavailable (circuit breaker open)"
  | .serverError status text | .httpStatus status text _ => .failed ("LND error (" ++ toString status ++ "): " ++ text)
  | .connection _ text => .failed ("Connection failed: " ++ text)
  | .other _ text => .failed ("Request failed: " ++ text)
  | .cancelled => .raised .cancelled

/-- How a call ends whose `before_call` raised. -/
def Call.refused (call : Call) (e : Exc) : Ending :=
  match call with
  | .withRetry _ => .raised e
  | .mutating | .sendPaymentV2 => requestEnding e

/-! ## The state -/

structure Lock (T : Type) where
  holder : Option T := none
  waiters : List T := []

/-- From the breaker opening until it closes: when it opened, and how many calls were
admitted since. -/
structure Spell where
  since : ℕ
  admitted : ℕ

/-- `spell` and `passedOver`, the calls that were waiting when a probe failed, are a
record of what happened. -/
structure World (T : Type) where
  breaker : CircuitBreaker
  lock : Lock T := {}
  clock : ℕ := 0
  pc : T → Pc := fun _ => .idle
  spell : Option Spell := none
  passedOver : List T := []

namespace World

variable {T : Type} [DecidableEq T]

variable (w : World T) (t : T) (call : Call)

def setPc (pc : Pc) : World T := { w with pc := Function.update w.pc t pc }

def finish (ending : Ending) : World T := w.setPc t (.ended ending)

/-- `before_call` has returned, and the operation is awaited. -/
def letThrough : World T :=
  { w.setPc t (.running 1) with spell := w.spell.map fun spell => { spell with admitted := spell.admitted + 1 } }

def recordSuccess : World T :=
  { w with
    breaker := w.breaker.recordSuccess
    lock := if w.breaker.state = .halfOpen then { w.lock with holder := none } else w.lock
    spell := none }

def recordFailure (error : String) : World T :=
  let breaker := w.breaker.recordFailure w.clock error
  match w.breaker.state with
  | .halfOpen =>
    { w with
      breaker := breaker
      lock := { w.lock with holder := none }
      passedOver := w.lock.waiters ++ w.passedOver }
  | .closed => { w with breaker := breaker, spell := if breaker.state = .opened then some ⟨w.clock, 0⟩ else none }
  | .opened => { w with breaker := breaker }

/-- `before_call`, up to its return or its await. -/
def beforeCall : World T :=
  let breaker := w.breaker.maybeHalfOpen w.clock
  let w := { w with breaker := breaker }
  match breaker.state with
  | .opened => w.finish t (call.refused (.breakerOpen breaker.openText))
  | .closed => w.letThrough t
  | .halfOpen =>
    if w.lock.holder = none ∧ w.lock.waiters = [] then
      { w with lock := { w.lock with holder := some t } }.letThrough t
    else { w with lock := { w.lock with waiters := w.lock.waiters ++ [t] } }.setPc t .waiting

/-- The operation of `with_retry` or of a mutating request has ended. -/
def attempted (attempts : ℕ) (result : Except Exc String) : Option (World T) :=
  match call, result with
  | .sendPaymentV2, _ => none
  | .withRetry _, .ok data | .mutating, .ok data => some (w.recordSuccess.finish t (.returned data))
  | .withRetry delays, .error e =>
    if e.retryable ∧ attempts < 1 + delays.length then some (w.setPc t (.sleeping attempts))
    else some ((w.recordFailure e.describe).finish t (.raised e))
  | .mutating, .error e =>
    -- a semantic error says nothing about the health of the service
    if e.retryable then some ((w.recordFailure e.describe).finish t (requestEnding e))
    else some (w.finish t (requestEnding e))

/-- The stream of `send_payment_v2` has ended. `except Exception` does not catch a
cancellation. -/
def streamed (result : Except Exc Streamed) : World T :=
  match result with
  | .ok (.httpError status text) =>
    (w.recordFailure ("http " ++ toString status)).finish t
      (.failed ("LND error (" ++ toString status ++ "): " ++ text))
  | .ok (.noTerminal lastError) =>
    w.recordSuccess.finish t (.failed (orElse "Payment did not reach a terminal state" lastError))
  | .ok (.paymentFailed failureReason) =>
    w.recordSuccess.finish t (.failed ("Payment failed: " ++ orElse "FAILED" failureReason))
  | .ok (.succeeded data) => w.recordSuccess.finish t (.returned data)
  | .error .cancelled => w.finish t (.raised .cancelled)
  | .error (.connection typeName text) =>
    (w.recordFailure (Exc.connection typeName text).describe).finish t (.failed ("Connection failed: " ++ text))
  | .error e => (w.recordFailure e.describe).finish t (.failed ("Request failed: " ++ e.text))

end World

inductive Event (T : Type)
  | start (t : T)
  /-- The lock is free and the head of its queue runs. -/
  | grant (t : T)
  | attempted (t : T) (result : Except Exc String)
  | streamed (t : T) (result : Except Exc Streamed)
  /-- `_get_client` raises in `send_payment_v2`. -/
  | noClient (t : T) (e : Exc)
  | wake (t : T)
  /-- A call is cancelled that waits for the lock or sleeps. -/
  | cancel (t : T)
  | pass (time : ℕ)
  /-- `reset`, by the keepalive. -/
  | reset

variable {T : Type} [DecidableEq T]

/-- What an event does, if it is possible. -/
def World.step (calls : T → Call) (w : World T) : Event T → Option (World T)
  | .start t => if w.pc t = .idle then some (w.beforeCall t (calls t)) else none
  | .grant t =>
    if w.pc t = .waiting ∧ w.lock.holder = none ∧ w.lock.waiters.head? = some t then
      some ({ w with lock := ⟨some t, w.lock.waiters.tail⟩ }.letThrough t)
    else none
  | .attempted t result =>
    match w.pc t with
    | .running attempts => w.attempted t (calls t) attempts result
    | _ => none
  | .streamed t result =>
    match w.pc t, calls t with
    | .running _, .sendPaymentV2 => some (w.streamed t result)
    | _, _ => none
  | .noClient t e =>
    match w.pc t, calls t with
    | .running _, .sendPaymentV2 => some (w.finish t (.raised e))
    | _, _ => none
  | .wake t =>
    match w.pc t with
    | .sleeping attempts => some (w.setPc t (.running (attempts + 1)))
    | _ => none
  | .cancel t =>
    match w.pc t with
    | .waiting =>
      some ({ w with lock := { w.lock with waiters := w.lock.waiters.erase t } }.finish t (.raised .cancelled))
    | .sleeping _ => some (w.finish t (.raised .cancelled))
    | _ => none
  | .pass time => some { w with clock := w.clock + time }
  | .reset => some { w with breaker := w.breaker.reset, lock := {}, spell := none }

end AgentWallet.Resilience
