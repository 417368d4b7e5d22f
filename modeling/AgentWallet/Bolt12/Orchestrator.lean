import AgentWallet.Lib.Bytes
import AgentWallet.Lib.Json
import AgentWallet.Lib.Task
/-!
# The orchestrator

Outbound invoice requests and the replies to them. A call of `requestInvoice`
awaits the gateway, the builder of the request and its own future; in between,
any other call, the dispatcher of inbound messages, the sweeper and `stop` act on
the same maps.
-/

namespace AgentWallet.Bolt12.Orchestrator

open AgentWallet.Lib

/-- The exceptions of the service and of the gateway with their messages, or any
other exception or a cancellation. -/
inductive ServiceExn
  | bolt12ServiceError (msg : String)
  | invoiceRequestTimeoutError (msg : String)
  | serviceNotRunningError (msg : String)
  | gatewayUnavailableError (msg : String)
  | other

inductive Future
  | pending
  | result (payload : Bytes)
  | exception (e : ServiceExn)
  | cancelled

def Future.done : Future → Bool
  | .pending => false
  | _ => true

structure SendPlan where
  directNodeId : Option Bytes
  blindedPath : Option Bytes
  introductionNodeCandidates : List Bytes
  dummyHops : Nat

/-- `bolt12_max_pending_requests`, `bolt12_max_payload_bytes`, the default
timeout, and after how long the sweeper takes an entry for an orphan. -/
structure Settings where
  maxPendingRequests : Nat := 64
  maxPayloadBytes : Nat := 65536
  requestTimeout : FloatText
  orphanTtl : Nat

structure Request where
  amountMsat : Option Nat := none
  payerNote : Option String := none
  quantity : Option Nat := none
  timeoutSeconds : Option FloatText := none

/-! ## Commands of a call -/

/-- What a call finds up to its first `await`: whether the service runs, how many
requests are in flight, the plan if the resolver returns one, and a new token. -/
structure Entry where
  running : Bool
  inFlight : Nat
  plan : Option SendPlan
  correlation : Bytes

inductive Cmd
  | enter
  | createBlindedPath (plan : SendPlan) (context : Bytes)
  | buildInvreq (request : Request) (replyPath : Bytes)
  | register (correlation : Bytes)
  | sendOnionMessage (payload : Bytes) (plan : SendPlan) (replyPath : Bytes)
  | waitFor (timeout : FloatText)
  | drop (correlation : Bytes)

def Reply : Cmd → Type
  | .enter => Entry
  | .createBlindedPath _ _ => Bytes
  | .buildInvreq _ _ => Bytes
  | .register _ => Bool
  | .sendOnionMessage _ _ _ => Unit
  | .waitFor _ => Bytes
  | .drop _ => Unit

abbrev Code (α : Type) : Type := Task Cmd Reply ServiceExn α

def call (c : Cmd) : Code (Reply c) := Task.call c

section

variable (settings : Settings)

def full (inFlight : Nat) : Bool := settings.maxPendingRequests > 0 && inFlight ≥ settings.maxPendingRequests

/-- The call goes on to its first `await`. -/
def admitted (entry : Entry) : Bool := entry.running && !full settings entry.inFlight && entry.plan.isSome

def requestInvoice (request : Request) : Code Bytes := do
  let entry : Entry ← call .enter
  if !entry.running then
    .raise (.serviceNotRunningError "Bolt12Service not started; call start() first")
  else if full settings entry.inFlight then
    let n := entry.inFlight
    let cap := settings.maxPendingRequests
    .raise (.bolt12ServiceError s!"too many in-flight invoice requests ({n} ≥ cap {cap})")
  else
    match entry.plan with
    | none => .raise .other
    | some plan => do
      let correlation := entry.correlation
      let replyPath : Bytes ← call (.createBlindedPath plan correlation)
      let invreqBytes : Bytes ← call (.buildInvreq request replyPath)
      let registered : Bool ← call (.register correlation)
      if !registered then .raise (.bolt12ServiceError "correlation token collision; refusing to send")
      else
        Task.tryFinally
          (do
            let _ : Unit ← call (.sendOnionMessage invreqBytes plan replyPath)
            call (.waitFor (request.timeoutSeconds.getD settings.requestTimeout)))
          (call (.drop correlation))

end

/-! ## The service -/

variable {T : Type}

/-- The maps of the service, with one future for each call, and what happened:
the token of each call, the calls that are between their check of the cap and
their registration, the invoices that arrived with their contexts, and the calls
of `set_result`. -/
structure Service (T : Type) where
  running : Bool
  pending : List (Bytes × T)
  pendingCreatedAt : List (Bytes × Nat)
  future : T → Future
  now : Nat
  correlation : T → Option Bytes
  checked : List T
  inbound : List (Bytes × Bytes)
  completed : List (T × Bytes)

/-- `d.pop(key, None)` -/
def pop {α : Type} (key : Bytes) (d : List (Bytes × α)) : List (Bytes × α) := d.filter (·.1 ≠ key)

namespace Service

def initial (T : Type) : Service T where
  running := true
  pending := []
  pendingCreatedAt := []
  future _ := .pending
  now := 0
  correlation _ := none
  checked := []
  inbound := []
  completed := []

variable [DecidableEq T]

variable (settings : Settings) (s : Service T)

/-- `if not fut.done(): fut.set_exception(e)` -/
def fail (t : T) (e : ServiceExn) : Service T :=
  if (s.future t).done then s else { s with future := Function.update s.future t (.exception e) }

def drop (correlation : Bytes) : Service T :=
  { s with pending := pop correlation s.pending, pendingCreatedAt := pop correlation s.pendingCreatedAt }

def handleInvoiceReply (context payload : Bytes) : Service T :=
  let s := { s with inbound := (context, payload) :: s.inbound }
  match s.pending.lookup context with
  | none => s
  | some t =>
    if (s.future t).done then s
    else
      let cap := settings.maxPayloadBytes
      let n := payload.length
      if cap > 0 ∧ n > cap then
        s.fail t (.bolt12ServiceError s!"invoice reply exceeds size cap ({n} > {cap})")
      else { s with future := Function.update s.future t (.result payload), completed := (t, payload) :: s.completed }

/-- The loop body of the sweeper for one stale entry. -/
def discard (correlation : Bytes) : Service T :=
  match s.pending.lookup correlation with
  | none => s.drop correlation
  | some t => (s.drop correlation).fail t (.invoiceRequestTimeoutError "pending request orphaned by sweeper")

def sweep : Service T :=
  let stale := (s.pendingCreatedAt.filter fun x => s.now - x.2 > settings.orphanTtl).map (·.1)
  stale.foldl discard s

/-- The end of `stop`: all requests in flight fail, and the maps are cleared. -/
def failInFlight : Service T :=
  let failed := (s.pending.map (·.2)).foldl
    (fun s t => s.fail t (.gatewayUnavailableError "Bolt12Service stopped before reply arrived")) s
  { failed with pending := [], pendingCreatedAt := [] }

end Service

/-! ## Steps -/

/-- What a command of call `t` does and answers. The gateway, the builder and the
clock are free; an `await` can also end by an exception. -/
inductive Exec [DecidableEq T] (settings : Settings) (t : T) (s : Service T) :
    (c : Cmd) → Except ServiceExn (Reply c) → Service T → Prop
  | enter (plan : Option SendPlan) (correlation : Bytes) (entry : Entry)
    (he : entry = ⟨s.running, s.pending.length, plan, correlation⟩) :
    Exec settings t s .enter (.ok entry) (if admitted settings entry then
      { s with checked := t :: s.checked, correlation := Function.update s.correlation t (some correlation) } else s)
  | createBlindedPath (plan : SendPlan) (context replyPath : Bytes) :
    Exec settings t s (.createBlindedPath plan context) (.ok replyPath) s
  | noBlindedPath (plan : SendPlan) (context : Bytes) (e : ServiceExn) :
    Exec settings t s (.createBlindedPath plan context) (.error e) { s with checked := s.checked.erase t }
  | buildInvreq (request : Request) (replyPath invreqBytes : Bytes) :
    Exec settings t s (.buildInvreq request replyPath) (.ok invreqBytes) s
  | noInvreq (request : Request) (replyPath : Bytes) (e : ServiceExn) :
    Exec settings t s (.buildInvreq request replyPath) (.error e) { s with checked := s.checked.erase t }
  | collision (correlation : Bytes) (h : correlation ∈ s.pending.map (·.1)) :
    Exec settings t s (.register correlation) (.ok false) { s with checked := s.checked.erase t }
  | register (correlation : Bytes) (h : correlation ∉ s.pending.map (·.1)) :
    Exec settings t s (.register correlation) (.ok true)
      { s with pending := s.pending ++ [(correlation, t)],
               pendingCreatedAt := s.pendingCreatedAt ++ [(correlation, s.now)],
               checked := s.checked.erase t }
  | send (payload : Bytes) (plan : SendPlan) (replyPath : Bytes) (r : Except ServiceExn Unit) :
    Exec settings t s (.sendOnionMessage payload plan replyPath) r s
  | replied (timeout : FloatText) (payload : Bytes) (h : s.future t = .result payload) :
    Exec settings t s (.waitFor timeout) (.ok payload) s
  | failed (timeout : FloatText) (e : ServiceExn) (h : s.future t = .exception e) :
    Exec settings t s (.waitFor timeout) (.error e) s
  | timeout (timeout : FloatText) (h : s.future t = .pending) :
    Exec settings t s (.waitFor timeout)
      (.error (.invoiceRequestTimeoutError ("no invoice reply within " ++ String.ofList timeout.text ++ "s")))
      { s with future := Function.update s.future t .cancelled }
  | cancelled (timeout : FloatText) (h : s.future t = .pending) :
    Exec settings t s (.waitFor timeout) (.error .other) { s with future := Function.update s.future t .cancelled }
  | cancelledLate (timeout : FloatText) (h : (s.future t).done = true) :
    Exec settings t s (.waitFor timeout) (.error .other) s
  | drop (correlation : Bytes) : Exec settings t s (.drop correlation) (.ok ()) (s.drop correlation)

/-- What the dispatcher, the sweeper, `start` and `stop` do between the steps of the calls. -/
inductive Env [DecidableEq T] (settings : Settings) (s : Service T) : Service T → Prop
  | inbound (context payload : Bytes) : Env settings s (s.handleInvoiceReply settings context payload)
  | sweep : Env settings s (s.sweep settings)
  | start : Env settings s { s with running := true }
  | stop : Env settings s { s with running := false }
  | stopped : Env settings s s.failInFlight
  | tick (now : Nat) (h : s.now ≤ now) : Env settings s { s with now }

def machine [DecidableEq T] (settings : Settings) : Machine T Cmd Reply ServiceExn (Service T) where
  exec t c s r s' := Exec settings t s c r s'
  env := Env settings

end AgentWallet.Bolt12.Orchestrator
