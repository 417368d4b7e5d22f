import AgentWallet.Anonymize.Session
/-!
# The hop bodies

One step of each hop, as a function of what the production adapters answer. A step works
on the tick's copy of the row and brackets its side effects with event rows. What it has
committed on the way is kept apart, for the ticks that raise or are cut off. The Liquid
hop also works on `swap_state`, a dictionary in the memory of the process: a step first
fills an empty dictionary from the blob of the row and in the end writes the dictionary
over the blob.
-/

namespace AgentWallet.Anonymize.Session

open AgentWallet.Lib

/-- `ANONYMIZE_REVERSE_MPP_FALLBACK_MODE` -/
inductive FallbackMode
  | strict
  | legacy
  | off
  deriving DecidableEq, Repr

/-- `sessionOutput` is the spending key and the address that are derived from a blinding
seed index, `envelopePolicy` whether a claim transaction passes `assert_envelope_policy`. -/
structure Settings where
  liquidEnabled : Bool := false
  liquidIntegrationVerified : Bool := false
  mppFallbackMode : FallbackMode := .strict
  mppKMinExecuted : ℕ := 2
  claimMinConfirmations : ℕ := 2
  claimReorgGiveupBlocks : ℕ := 12
  extDepositMinDwell : ℕ := 2 * 3600
  wallClockBudget : ℕ := 14400
  backoffBase : ℕ := 30
  backoffMax : ℕ := 3600
  sessionOutput : ℕ → Option (String × String) := fun _ => none
  envelopePolicy : String → Bool := fun _ => false

/-! ## Calls that move funds -/

/-- What `send_payment_v2` does: it returns a result or the text of an error, or raises. -/
inductive Sent
  | result
  | error (text : String)
  | raised (text : String)
  deriving DecidableEq, Repr

/-- What is known of the funds after a call. -/
inductive Outcome
  | settled
  | failed
  | unknown
  deriving DecidableEq, Repr

def reportsFailed (err : String) : Bool := "Payment failed:".toList.isPrefixOf err.toList

def Sent.outcome : Sent → Outcome
  | .result => .settled
  | .error err => if reportsFailed err then .failed else .unknown
  | .raised _ => .unknown

/-- The lock spends an output with a key, and has an address for its change. -/
inductive Move
  | fundLockup (address : String)
  | selfPayment (invoice : String)
  | swapInvoice (invoice : String)
  | liquidInvoice (swapId invoice : String)
  | lockLbtc (swapId destination utxo spendingKey changeAddress : String)
  | bolt12Offer (offer : String)
  deriving DecidableEq, Repr

structure Moved where
  call : Move
  outcome : Outcome
  deriving DecidableEq, Repr

/-! ## A tick -/

/-- The hop steps whose attempts are recorded. -/
inductive HopKind
  | submarineCreate
  | submarineFundLockup
  | submarineRefund
  | reverseCreate
  | reversePayInvoice
  | reverseClaim
  | lnSelfPayFire
  | bolt12Pay
  | liquidLnToLbtc
  | liquidClaimLbtc
  | liquidLbtcToLn
  | liquidLockForSubmarine
  deriving DecidableEq, Repr

/-- A `hop_attempt_started` or `hop_attempt_completed` row of this session. -/
structure Event where
  hopKind : HopKind
  attempt : ℕ := 1
  completed : Bool
  deriving DecidableEq, Repr

/-- A row of `boltz_swaps`, with what a refund of its lockup needs. -/
structure BoltzSwap where
  swapId : String
  lockupAddress : String
  refundPrivateKeyHex : String
  swapTree : String
  timeoutBlockHeight : ℕ
  deriving DecidableEq, Repr

/-- What the services answer in one tick; where only its absence matters an error is
`none`. A reverse swap is its id and its invoice, an invoice is its text and its hash. -/
structure Answers where
  now : ℕ := 0
  sampled : ℕ := 0
  minted : Option (String × String) := none
  invoiceSettled : Bool := false
  routeFound : Bool := true
  inboundRefused : Bool := false
  sent : Sent := .result
  submarineOffer : Option BoltzSwap := none
  fundingTx : Option String := none
  swapStatus : Option String := none
  refundBroadcast : Bool := false
  exitsShared : Bool := false
  reverseOffer : Option (String × String) := none
  claimTx : Option String := none
  claimBroadcast : Bool := false
  offerPaid : Option Bolt12Outcome := none
  lnToLbtc : Option (String × String × SwapEntry) := none
  lbtcCredit : Option (String × String) := none
  liquidClaim : Option String := none
  walletUtxo : Option String := none
  lbtcToLn : Option (String × SwapEntry) := none
  prevout : Bool := true
  lockTx : Option (String × String) := none
  lbtcSettled : Option Bool := none

/-- A tick's copy of the row with the event rows it sees, the memory of its process, what
is committed so far, the swaps its adapters have stored, and the calls it made. -/
structure Tick where
  row : Row
  events : List Event
  memory : SwapState
  saved : Row × List Event
  swaps : List BoltzSwap := []
  moves : List Moved := []
  raised : Bool := false

namespace Tick

def load (row : Row) (events : List Event) (memory : SwapState) : Tick where
  row := row
  events := events
  memory := memory
  saved := (row, events)

variable (t : Tick) (kind : HopKind)

def has (attempt : ℕ := 1) : Bool := ⟨kind, attempt, true⟩ ∈ t.events

def add (completed : Bool) (attempt : ℕ := 1) : Tick :=
  { t with events := t.events ++ [⟨kind, attempt, completed⟩] }

/-- `record_hop_attempt_started`. An attempt that has a row is not recorded again. -/
def start (attempt : ℕ := 1) : Tick :=
  { t with events :=
      if t.events.any fun e => e.hopKind = kind && e.attempt = attempt then t.events
      else t.events ++ [⟨kind, attempt, false⟩] }

def commit : Tick := { t with saved := (t.row, t.events) }

def move (call : Move) (outcome : Outcome) : Tick := { t with moves := t.moves ++ [⟨call, outcome⟩] }

def modify (f : Row → Row) : Tick := { t with row := f t.row }

end Tick

/-- `DispatcherAction` -/
inductive Decision
  | issueSideEffect
  | verifyRemoteState
  | completedIdempotentNoOp
  deriving DecidableEq, Repr

def dispatchHopAttempt (t : Tick) (kind : HopKind) : Decision :=
  if ⟨kind, 1, false⟩ ∉ t.events then .issueSideEffect
  else if t.has kind then .completedIdempotentNoOp
  else .verifyRemoteState

/-! ## The submarine hop -/

variable (s : Settings) (a : Answers) (t : Tick)

/-- `_step_issue_swap`. The adapter stores the swap in the tick's database session and
commits it. -/
def stepIssueSwap : Tick :=
  if t.row.submarine.swapId ≠ "" ∨ t.has .submarineCreate ∨ t.row.setup.binAmountSat = 0 then t
  else
    let t := t.start .submarineCreate
    match a.minted, a.submarineOffer with
    | some (invoice, _), some swap =>
      if invoice = "" then t
      else
        ({ t.commit with swaps := [swap] }.modify fun row => { row with submarine := { row.submarine with
          swapId := swap.swapId, lockupAddress := swap.lockupAddress } }).add .submarineCreate true
    | _, _ => t

def stepFundLockup : Tick :=
  if t.row.submarine.lockupAddress = "" ∨ t.row.submarine.fundingTxHex ≠ "" then t
  else
    match dispatchHopAttempt t .submarineFundLockup with
    | .completedIdempotentNoOp => t
    | .verifyRemoteState => t.modify fun row => row.park "submarine_funding_in_doubt"
    | .issueSideEffect =>
      if a.inboundRefused then t.modify fun row => row.park "inbound_insufficient_at_lockup"
      else
        let t := (t.start .submarineFundLockup).commit
        let address := t.row.submarine.lockupAddress
        match a.fundingTx with
        | none => t.move (.fundLockup address) .unknown
        | some txHex =>
          ((t.move (.fundLockup address) .settled).modify fun row => { row with submarine := { row.submarine with
            fundingTxHex := txHex, fundingBroadcastAt := some a.now } }).add .submarineFundLockup true

def stepRefund : Tick :=
  if t.has .submarineRefund ∨ t.row.submarine.swapId = "" then t
  else
    let t := t.start .submarineRefund
    if a.refundBroadcast then t.add .submarineRefund true else t

def settledStatuses : List String := ["transaction.claimed", "invoice.settled"]

def stepObserveSettlement : Tick :=
  match a.swapStatus with
  | none => t
  | some status =>
    if t.row.submarine.swapId = "" then t
    else
      let t := t.modify fun row => { row with submarine := { row.submarine with swapStatus := status } }
      if status ∈ ["swap.expired", "invoice.failedToPay"] then stepRefund a t else t

def executeSubmarineHopStep : Tick :=
  match t.row.status with
  | .sourcing => stepIssueSwap a t
  | .funding => stepFundLockup a t
  | .lnHolding => stepObserveSettlement a t
  | _ => t

/-! ## The reverse hop -/

/-- `_issue_reverse_swap`. The adapter commits, as for a submarine swap. -/
def issueReverseSwap : Tick :=
  if t.row.setup.sourceKind.onchain ∧ a.exitsShared ∨ t.has .reverseCreate then t
  else
    let t := t.start .reverseCreate
    match a.reverseOffer with
    | none => t
    | some (swapId, invoice) =>
      (t.commit.modify fun row => { row with reverse := { row.reverse with
        swapId := swapId, invoice := invoice } }).add .reverseCreate true

/-- `marker in err.lower()` -/
def mentions (err marker : String) : Bool := decide (marker.toList <:+: (err.map Char.toLower).toList)

/-- `looks_transient`: the HTLC may still be in flight. -/
def looksTransient (err : String) : Bool :=
  !reportsFailed err &&
    (mentions err "in transition" || mentions err "connection failed" || mentions err "request failed" ||
      mentions err "did not reach a terminal state" ||
      "lnd error (5".toList.isPrefixOf (err.map Char.toLower).toList)

/-- A payment that failed for good is tried again with fewer parts, or the session is
parked. -/
def payFailed : Tick :=
  let used := t.row.reverse.kDecrementsUsed
  let nextK := t.row.reverse.kLastAttempted.getD t.row.setup.mppK - 1
  if max 1 s.mppKMinExecuted ≤ nextK ∧ (s.mppFallbackMode = .legacy ∨ s.mppFallbackMode = .strict ∧ used < 1) then
    t.modify fun row => { row with reverse := { row.reverse with
      kDecrementsUsed := used + 1, kLastAttempted := some nextK } }
  else t.modify fun row => row.park "mpp_k_floor_exhausted"

/-- `_poll_and_claim`, once the invoice is paid. The claim is on the row before it is
broadcast. -/
def pollLockup : Tick :=
  match a.swapStatus with
  | none => t
  | some status =>
    if status ∉ ["transaction.mempool", "transaction.confirmed"] ∨ t.has .reverseClaim then t
    else
      let t := t.start .reverseClaim
      match a.claimTx.filter s.envelopePolicy with
      | none => t
      | some _ =>
        let t := t.modify fun row => { row with claimBroadcastAt := some a.now }
        if a.claimBroadcast then t.add .reverseClaim true else t

def pollAndClaim : Tick :=
  let attempt := t.row.reverse.kDecrementsUsed + 1
  if t.row.reverse.swapId = "" ∨ t.row.reverse.invoice = "" then t
  else if t.has .reversePayInvoice attempt then pollLockup s a t
  else
    let t := (t.start .reversePayInvoice attempt).move (.swapInvoice t.row.reverse.invoice) a.sent.outcome
    match a.sent with
    | .raised _ => { t with raised := true }
    | .error err => if looksTransient err then t else payFailed s t
    | .result => pollLockup s a (t.add .reversePayInvoice true attempt)

def executeReverseHopStep : Tick :=
  if t.row.status ≠ .exiting then t
  else if t.row.reverse.swapId = "" then issueReverseSwap a t
  else if t.row.claimBroadcastAt.isSome then t
  else pollAndClaim s a t

/-! ## The self-pay hop -/

def Tick.markSettled : Tick :=
  t.modify fun row => { row with selfPay := { row.selfPay with settled := true } }

/-- The send of `_step_fire_self_pay`. -/
def fireSelfPay : Tick :=
  if a.routeFound then
    let t := (t.start .lnSelfPayFire).move (.selfPayment t.row.selfPay.invoice) a.sent.outcome
    match a.sent with
    | .raised _ => { t with raised := true }
    | .error _ => t
    | .result => t.markSettled.add .lnSelfPayFire true
  else t

/-- `_step_fire_self_pay`. A new invoice is committed before it is paid, which sets
`updated_at`. -/
def stepFireSelfPay : Tick :=
  let keys := t.row.selfPay
  if keys.settled ∨ t.row.setup.binAmountSat = 0 then t
  else if t.has .lnSelfPayFire then t.markSettled
  else if keys.paymentHash ≠ "" ∧ a.invoiceSettled then t.markSettled.add .lnSelfPayFire true
  else if keys.paymentHash ≠ "" ∧ keys.invoice ≠ "" then fireSelfPay a t
  else
    match a.minted with
    | none => t
    | some (invoice, paymentHash) =>
      if invoice = "" ∨ paymentHash = "" then t
      else
        fireSelfPay a (t.modify fun row => { row with
          selfPay := { row.selfPay with invoice := invoice, paymentHash := paymentHash }, updatedAt := a.now }).commit

def executeLnSelfPayHopStep : Tick :=
  if t.row.status = .funding then stepFireSelfPay a t else t

/-! ## The BOLT 12 hop -/

def Bolt12Outcome.outcome : Bolt12Outcome → Outcome
  | .paid => .settled
  | .inFlight => .unknown
  | .failed => .failed

/-- `execute_bolt12_pay_hop_step`. An error of the adapter counts as a failed payment. -/
def executeBolt12PayHopStep : Tick :=
  let offer := stripped t.row.setup.bolt12Offer
  if t.row.status ≠ .exiting ∨ offer = "" ∨ t.row.bolt12 = some .paid ∨ t.row.bolt12 = some .inFlight ∨
      t.row.setup.binAmountSat = 0 ∨ t.has .bolt12Pay then t
  else
    let t := (t.start .bolt12Pay).move (.bolt12Offer offer) ((a.offerPaid.map Bolt12Outcome.outcome).getD .unknown)
    let result := a.offerPaid.getD .failed
    let t := t.modify fun row => { row with bolt12 := some result }
    match result with
    | .inFlight => t
    | .paid => (t.add .bolt12Pay true).modify fun row => { row with status := .completed }
    | .failed => (t.add .bolt12Pay true).modify fun row => { row with status := .failed }

/-! ## The Liquid hop -/

def textLe : List Char → List Char → Bool
  | [], _ => true
  | _ :: _, [] => false
  | a :: as, b :: bs => a.toNat < b.toNat || (a = b && textLe as bs)

/-- `json.dumps(entries, sort_keys=True)` -/
def sortKeys (state : SwapState) : SwapState := state.mergeSort fun a b => textLe a.1.toList b.1.toList

def Tick.setLiquid (f : LiquidKeys → LiquidKeys) : Tick :=
  t.modify fun row => { row with liquid := f row.liquid }

/-- `restore_session_swap_state`. What the process holds of the session is left alone. -/
def Tick.restore : Tick := if t.memory = [] then { t with memory := t.row.liquid.swapStateEnc } else t

/-- `persist_session_swap_state`. With nothing to persist an earlier blob stays. -/
def Tick.persist : Tick :=
  if t.memory = [] then t else t.setLiquid fun k => { k with swapStateEnc := sortKeys t.memory }

def Tick.stash (swapId : String) (entry : SwapEntry) : Tick :=
  { t with memory := setEntry swapId entry t.memory }

/-- `_lnd_send_payment` of the production adapters. `send_payment_v2` returns a result
and an error, and the adapter hands on the pair as the result: only an exception
becomes an error. -/
def lndSendPayment : Sent → Option String
  | .result | .error _ => none
  | .raised text => some ("lnd_send_payment failed: " ++ text)

/-- `_step_initiate_ln_to_lbtc`, with `_create_ln_to_lbtc`. -/
def stepInitiateLnToLbtc : Tick :=
  if t.has .liquidLnToLbtc then t
  else
    let t := t.start .liquidLnToLbtc
    match t.row.setup.blindingSeedIndex, a.lnToLbtc.filter fun _ => s.liquidIntegrationVerified with
    | some index, some (swapId, invoice, secrets) =>
      if t.row.setup.binAmountSat = 0 then t
      else
        let t := t.stash swapId { secrets with leg := .lnToLbtc, blindingSeedIndex := index }
        if invoice = "" ∨ swapId = "" then t
        else
          let t := t.move (.liquidInvoice swapId invoice) a.sent.outcome
          match lndSendPayment a.sent with
          -- a transient error is a no-op and any other one an error: neither records the swap
          | some _ => t
          | none => (t.setLiquid fun k => { k with lnToLbtcSwapId := swapId }).add .liquidLnToLbtc true
    | _, _ => t

def stepObserveLbtcCredit : Tick :=
  let swapId := t.row.liquid.lnToLbtcSwapId
  match t.memory.lookup swapId, a.lbtcCredit with
  | some entry, some (utxo, txHex) =>
    (t.stash swapId (if txHex = "" then entry else { entry with lockupTxHex := txHex })).setLiquid fun k =>
      { k with lbtcUtxo := utxo }
  | _, _ => t

/-- `_step_claim_lbtc_to_wallet`, with `_claim_lockup`. The output is kept before the
claim is made. -/
def stepClaimLbtcToWallet : Tick :=
  if t.has .liquidClaimLbtc then t
  else
    let t := t.start .liquidClaimLbtc
    let swapId := t.row.liquid.lnToLbtcSwapId
    match t.memory.lookup swapId with
    | none => t
    | some entry =>
      match s.sessionOutput entry.blindingSeedIndex with
      | none => t
      | some (spendingKey, ctAddress) =>
        if s.liquidIntegrationVerified = false ∨ entry.lockupTxHex = "" ∨ entry.blindingSeedIndex = 0 then t
        else
          let entry := { entry with sessionSpendingPrivkeyHex := spendingKey, sessionCtAddress := ctAddress }
          match a.liquidClaim with
          | none => t.stash swapId entry
          | some txid =>
            let t := t.stash swapId { entry with claimTxid := txid }
            if txid = "" then t
            else (t.setLiquid fun k => { k with lbtcClaimTxid := txid }).add .liquidClaimLbtc true

/-- `_step_observe_claim_confirmation`, with `_observe_wallet_credit`. -/
def stepObserveClaimConfirmation : Tick :=
  let swapId := t.row.liquid.lnToLbtcSwapId
  match t.memory.lookup swapId, a.walletUtxo with
  | some entry, some utxo =>
    if entry.sessionCtAddress = "" then t
    else (t.stash swapId { entry with walletUtxo := utxo }).setLiquid fun k => { k with lbtcClaimConfirmed := true }
  | _, _ => t

/-- `_step_initiate_lbtc_to_ln`, with `_create_lbtc_to_ln`. -/
def stepInitiateLbtcToLn : Tick :=
  if t.has .liquidLbtcToLn then t
  else
    let t := t.start .liquidLbtcToLn
    match a.minted, a.lbtcToLn.filter fun _ => s.liquidIntegrationVerified with
    | some (invoice, paymentHash), some (swapId, secrets) =>
      if invoice = "" then t
      else
        let t := t.stash swapId { secrets with leg := .lbtcToLn, paymentHashHex := paymentHash }
        if swapId = "" then t
        else (t.setLiquid fun k => { k with lbtcToLnSwapId := swapId }).add .liquidLbtcToLn true
    | _, _ => t

/-- `_find_leg1_state`: the first entry that is tagged as a first leg. -/
def findLeg1State (state : SwapState) : Option SwapEntry :=
  (state.find? fun p => p.2.leg = .lnToLbtc).map Prod.snd

def lockForSubmarine : Tick :=
  let swapId := t.row.liquid.lbtcToLnSwapId
  match t.memory.lookup swapId, findLeg1State t.memory with
  | some leg2, some leg1 =>
    if s.liquidIntegrationVerified = false ∨ leg1.walletUtxo = "" ∨ leg1.sessionSpendingPrivkeyHex = "" ∨
        leg1.sessionCtAddress = "" ∨ a.prevout = false then t
    else
      let call := Move.lockLbtc swapId leg2.address leg1.walletUtxo leg1.sessionSpendingPrivkeyHex leg1.sessionCtAddress
      match a.lockTx with
      | none => t.move call .unknown
      | some (txHex, txid) =>
        let t := (t.move call .settled).stash swapId { leg2 with lockTxHex := txHex }
        if txid = "" then t
        else (t.setLiquid fun k => { k with submarineLockTxid := txid }).add .liquidLockForSubmarine true
  | _, _ => t

def stepLockLbtcForSubmarine : Tick :=
  match dispatchHopAttempt t .liquidLockForSubmarine with
  | .completedIdempotentNoOp => t
  | .verifyRemoteState => t.modify fun row => row.park "liquid_lock_in_doubt"
  | .issueSideEffect => lockForSubmarine s a (t.start .liquidLockForSubmarine).commit

/-- `_step_observe_lbtc_to_ln_settlement`. When the round trip has settled the secrets
are dropped. -/
def stepObserveLbtcToLnSettlement : Tick :=
  if (t.memory.lookup t.row.liquid.lbtcToLnSwapId).any (fun e => e.paymentHashHex ≠ "") ∧ a.lbtcSettled = some true then
    { t.setLiquid fun k => { k with completed := true, swapStateEnc := [] } with memory := [] }
  else t

/-- The step of `execute_liquid_hop_step` between restoring and persisting. -/
def liquidStep : Tick :=
  let keys := t.row.liquid
  match t.row.status with
  | .hopping =>
    if keys.lnToLbtcSwapId = "" then stepInitiateLnToLbtc s a t
    else if keys.lbtcUtxo = "" then stepObserveLbtcCredit a t
    else if keys.lbtcClaimTxid = "" then stepClaimLbtcToWallet s a t
    else if !keys.lbtcClaimConfirmed then stepObserveClaimConfirmation a t
    -- `_step_schedule_dwell`
    else if keys.dwellUntil = 0 then t.setLiquid fun k => { k with dwellUntil := a.now + a.sampled }
    else t
  | .awaitingLiquidDwell =>
    if a.now < keys.dwellUntil then t
    else if keys.lbtcToLnSwapId = "" then stepInitiateLbtcToLn s a t
    else if keys.submarineLockTxid = "" then stepLockLbtcForSubmarine s a t
    else stepObserveLbtcToLnSettlement a t
  | _ => t

def executeLiquidHopStep : Tick := (liquidStep s a t.restore).persist

def defaultHopStep : Tick :=
  let setup := t.row.setup
  let status := t.row.status
  if s.liquidEnabled ∧ (status = .awaitingLiquidDwell ∨ status = .hopping ∧ setup.usesLiquid) then
    executeLiquidHopStep s a t
  else if setup.exitKind = .bolt12Pay ∧ status = .exiting then executeBolt12PayHopStep a t
  else if setup.sourceKind = .lightningSelf ∧ (status = .funding ∨ status = .lnHolding) then executeLnSelfPayHopStep a t
  else if setup.sourceKind.onchain ∧ (status = .sourcing ∨ status = .funding ∨ status = .lnHolding) then
    executeSubmarineHopStep a t
  else executeReverseHopStep s a t

end AgentWallet.Anonymize.Session
