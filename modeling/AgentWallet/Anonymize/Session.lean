import AgentWallet.Lib.Dict
import AgentWallet.Lib.Text
/-!
# The row of an anonymize session

The statuses of a session and the transitions between them, what a tick decides from
what it was told, how the reason of a parked session is read, and the columns that the
programs of a session work on.
-/

namespace AgentWallet.Anonymize.Session

open AgentWallet.Lib

/-! ## Statuses -/

/-- `AnonymizeStatus` -/
inductive Status
  | created
  | sourcing
  | funding
  | lnHolding
  | delaying
  | hopping
  | exiting
  | confirming
  | awaitingReconciliation
  | awaitingChannelClose
  | awaitingLiquidDwell
  | refunding
  | completed
  | completedWithReorgUncertainty
  | cancelled
  | failed
  deriving DecidableEq, Repr

/-- `ANONYMIZE_TERMINAL_STATUSES` -/
def isTerminal : Status → Bool
  | .completed | .completedWithReorgUncertainty | .cancelled | .failed => true
  | _ => false

/-- `_TRANSITIONS` -/
def legalNextStatuses : Status → List Status
  | .created => [.sourcing, .funding, .cancelled, .failed]
  | .sourcing => [.funding, .lnHolding, .cancelled, .failed, .awaitingReconciliation]
  | .funding => [.lnHolding, .delaying, .cancelled, .failed, .awaitingReconciliation]
  | .lnHolding => [.delaying, .hopping, .refunding, .failed, .awaitingReconciliation]
  | .delaying => [.hopping, .exiting, .refunding, .failed, .awaitingReconciliation]
  | .hopping => [.delaying, .exiting, .refunding, .failed, .awaitingReconciliation, .awaitingLiquidDwell]
  | .exiting => [.confirming, .failed, .awaitingReconciliation]
  | .confirming => [.completed, .completedWithReorgUncertainty, .failed, .awaitingReconciliation]
  | .awaitingReconciliation =>
    [.hopping, .exiting, .confirming, .completed, .completedWithReorgUncertainty, .refunding, .failed, .cancelled]
  | .awaitingChannelClose => [.completed, .failed]
  | .awaitingLiquidDwell => [.hopping, .delaying, .exiting, .refunding, .failed, .awaitingReconciliation]
  | .refunding => [.failed, .awaitingReconciliation]
  | .completed | .completedWithReorgUncertainty | .cancelled | .failed => []

/-- Writing the status a session has is always legal. -/
def isLegalTransition (fromStatus toStatus : Status) : Bool :=
  fromStatus = toStatus || toStatus ∈ legalNextStatuses fromStatus

/-- `AnonymizeSourceKind` -/
inductive SourceKind
  | lightningSelf
  | extLightning
  | onchainSelf
  | extOnchain
  deriving DecidableEq, Repr

def SourceKind.onchain : SourceKind → Bool
  | .onchainSelf | .extOnchain => true
  | .lightningSelf | .extLightning => false

/-! ## A tick's decision -/

/-- What the tick was told, without the fields that no observer sets; an observer says
nothing about what it does not watch. -/
structure TickObservations where
  fundingInvoiceSettled : Option Bool := none
  delayWindowElapsed : Option Bool := none
  hopCompleted : Option Bool := none
  isLastHop : Option Bool := none
  claimTxObservedOnChain : Option Bool := none
  claimTxMinConfirmationsReached : Option Bool := none
  claimTxReorgUncertainty : Option Bool := none
  reconcileReason : Option String := none

/-- `_forward_dispatch`: the status to go on to, if any. -/
def forwardDispatch (status : Status) (obs : TickObservations) (sourceKind : SourceKind) : Option Status :=
  match status with
  | .created =>
    if obs.fundingInvoiceSettled = some true then some .funding else if sourceKind.onchain then some .sourcing else none
  | .funding => if obs.fundingInvoiceSettled = some true then some .lnHolding else none
  | .lnHolding => some .delaying
  | .delaying =>
    if obs.delayWindowElapsed = some true then some (if obs.isLastHop = some true then .exiting else .hopping) else none
  | .hopping =>
    if obs.hopCompleted = some true then some (if obs.isLastHop = some true then .exiting else .delaying) else none
  | .exiting => if obs.claimTxObservedOnChain = some true then some .confirming else none
  | .confirming =>
    if obs.claimTxReorgUncertainty = some true then some .completedWithReorgUncertainty
    else if obs.claimTxMinConfirmationsReached = some true then some .completed
    else none
  -- no branch moves a session out of SOURCING
  | _ => none

/-- `TickAction`, with the statuses and reasons that `decide_tick_action` gives it. -/
inductive TickAction
  | wait
  | transition (toStatus : Status)
  | reconcile (reason : String)
  deriving DecidableEq, Repr

/-- `decide_tick_action`. A terminal session waits. -/
def decideTickAction (status : Status) (obs : TickObservations) (sourceKind : SourceKind) : TickAction :=
  if isTerminal status then .wait
  else
    match obs.reconcileReason.filter fun reason => reason ≠ "" && isLegalTransition status .awaitingReconciliation with
    | some reason => .reconcile reason
    | none => ((forwardDispatch status obs sourceKind).map .transition).getD .wait

/-! ## Reasons -/

/-- `str.strip` -/
def stripped (text : String) : String := String.ofList (strip text.toList)

inductive ReconciliationClass
  | transient
  | semi
  | terminal
  deriving DecidableEq, Repr

/-- `classify_reason`. A reason nobody knows is left to the operator. -/
def classifyReason (reason : String) : ReconciliationClass :=
  if stripped reason ∈ ["circuit_rebuild_throttled", "wall_clock_budget_exceeded", "bounded_retry_exhausted",
      "external_state_unknown", "economy_feerate_unavailable", "inbound_insufficient_at_lockup"] then .transient
  else if stripped reason ∈ ["mpp_k_floor_exhausted", "claim_feerate_outlier", "stuck_htlc_alarm"] then .semi
  else .terminal

def isCancellable (reason : String) : Bool :=
  stripped reason ∈ ["mpp_k_floor_exhausted", "circuit_rebuild_throttled", "bounded_retry_exhausted",
    "wall_clock_budget_exceeded", "inbound_insufficient_at_lockup"]

def maxRetriesForClass : ReconciliationClass → ℕ
  | .transient => 12
  | .semi => 3
  | .terminal => 0

/-! ## The row -/

inductive ExitKind
  | reverse
  | bolt12Pay
  deriving DecidableEq, Repr

/-- What a session was created with and keeps. An absent text is `""`, here and below. -/
structure Setup where
  sourceKind : SourceKind
  exitKind : ExitKind := .reverse
  bolt12Offer : String := ""
  depositMethodBolt12 : Bool := false
  depositOfferId : String := ""
  usesLiquid : Bool := false
  binAmountSat : ℕ := 0
  delayMinSeconds : ℕ := 3600
  interLegMinSeconds : ℕ := 6 * 3600
  interLegMaxSeconds : ℕ := 48 * 3600
  mppK : ℕ := 1
  blindingSeedIndex : Option ℕ := none
  deriving DecidableEq, Repr

/-- The keys of `pipeline_json` that the submarine hop writes. -/
structure SubmarineKeys where
  swapId : String := ""
  lockupAddress : String := ""
  fundingTxHex : String := ""
  fundingBroadcastAt : Option ℕ := none
  swapStatus : String := ""
  deriving DecidableEq, Repr

structure ReverseKeys where
  swapId : String := ""
  invoice : String := ""
  kDecrementsUsed : ℕ := 0
  kLastAttempted : Option ℕ := none
  deriving DecidableEq, Repr

structure SelfPayKeys where
  settled : Bool := false
  invoice : String := ""
  paymentHash : String := ""
  deriving DecidableEq, Repr

/-- `bolt12_pay_outcome.status` -/
inductive Bolt12Outcome
  | paid
  | inFlight
  | failed
  deriving DecidableEq, Repr

inductive Leg
  | lnToLbtc
  | lbtcToLn
  deriving DecidableEq, Repr

/-- An entry of `swap_state`: the keys of both legs, each adapter sets its own. The
output of the claim is `walletUtxo`, as `txid:vout`. -/
structure SwapEntry where
  leg : Leg
  address : String := ""
  blindingPrivkeyHex : String := ""
  claimPrivateKeyHex : String := ""
  preimageHex : String := ""
  refundPrivateKeyHex : String := ""
  timeoutBlockHeight : ℕ := 0
  swapTree : String := ""
  paymentHashHex : String := ""
  blindingSeedIndex : ℕ := 0
  lockupTxHex : String := ""
  sessionSpendingPrivkeyHex : String := ""
  sessionCtAddress : String := ""
  claimTxid : String := ""
  walletUtxo : String := ""
  lockTxHex : String := ""
  deriving DecidableEq, Repr

/-- The entries of the session, in the order of the dictionary that holds them. -/
abbrev SwapState := List (String × SwapEntry)

/-- `swapStateEnc` is the blob, as the entries it decrypts to. -/
structure LiquidKeys where
  lnToLbtcSwapId : String := ""
  lbtcUtxo : String := ""
  lbtcClaimTxid : String := ""
  lbtcClaimConfirmed : Bool := false
  dwellUntil : ℕ := 0
  lbtcToLnSwapId : String := ""
  submarineLockTxid : String := ""
  completed : Bool := false
  swapStateEnc : SwapState := []
  deriving DecidableEq, Repr

/-- `AnonymizeSession` -/
structure Row where
  setup : Setup
  status : Status := .created
  submarine : SubmarineKeys := {}
  reverse : ReverseKeys := {}
  selfPay : SelfPayKeys := {}
  bolt12 : Option Bolt12Outcome := none
  liquid : LiquidKeys := {}
  claimBroadcastAt : Option ℕ := none
  claimTxConfirmations : ℕ := 0
  claimTxReorgObservedCount : ℕ := 0
  preReconciliationStatus : Option Status := none
  awaitingReconciliationReason : String := ""
  reconciliationAttempts : ℕ := 0
  lastReconciliationAttempt : Option ℕ := none
  updatedAt : ℕ := 0
  deriving DecidableEq, Repr

/-- `transition_to_awaiting_reconciliation`: the reason and the status the session comes
from are written before the transition is checked. A refused transition raises and
leaves them on the copy. -/
def Row.park (row : Row) (reason : String) : Row :=
  if row.status = .awaitingReconciliation then { row with awaitingReconciliationReason := reason }
  else
    { row with
      preReconciliationStatus := some row.status
      awaitingReconciliationReason := reason
      status := if isLegalTransition row.status .awaitingReconciliation then .awaitingReconciliation else row.status }

end AgentWallet.Anonymize.Session
