import AgentWallet.Swaps.Store
/-!
# Driving a swap (`boltz_service.py`, `boltz_tasks.py`)

`process_boltz_swap` pays the invoice of a row and then lets `advance_swap` follow
what Boltz reports; `recover_pending_swaps` sweeps the table and does the same for
whatever it finds unfinished. Operators can repeat the claim, and clients can
cancel a row.
-/

namespace AgentWallet.Swaps

open AgentWallet.Lib

structure ChannelPeer where
  pubkey : String
  host : String
  label : String

structure Settings where
  boltzPaymentMaxParts : ℕ := 16
  dashboardMaxPaymentSats : Option ℤ := some (-1)
  /-- `payment_hash_from_bolt11` -/
  paymentHashFromBolt11 : String → Option String := fun _ => none
  /-- `channel_open_candidates` -/
  channelOpenCandidates : ℕ → List ChannelPeer := fun _ => []

def SwapStatus.terminal : SwapStatus → Bool
  | .completed | .failed | .cancelled | .refunded => true
  | _ => false

/-- `swap.error_message.startswith("Payment attempt encountered a transient")` -/
def transientText : String := "Payment attempt encountered a transient"

def BoltzSwap.clearTransient (row : BoltzSwap) : BoltzSwap :=
  if row.errorMessage.any fun text => transientText.toList.isPrefixOf text.toList then
    { row with errorMessage := none }
  else row

namespace Copy

def setStatus (swap : Copy) (status : SwapStatus) : Copy := swap.set fun row => { row with status }

def setError (swap : Copy) (text : Option String) : Copy := swap.set fun row => { row with errorMessage := text }

def clearTransient (swap : Copy) : Copy := swap.set BoltzSwap.clearTransient

def setClaim (swap : Copy) (txid : String) : Copy := swap.set fun row => { row with claimTxid := some txid }

/-- `swap.recovery_count = (swap.recovery_count or 0) + 1` -/
def bumpRecovery (swap : Copy) : Copy := swap.set fun row => { row with recoveryCount := row.recoveryCount + 1 }

end Copy

/-! ## `advance_swap` -/

/-- What `advance_swap` leaves behind: its copy, the other copies of the session
that are not saved yet, and what it returned or raised. -/
structure Advanced where
  swap : Copy
  unsaved : List Copy
  outcome : Except Raised (Option String)

variable (settings : Settings) (swap : Copy) (unsaved : List Copy)

/-- A command whose exception ends the call, with the copy as it is by then. -/
def perform (c : Command) (next : Reply c → Code Advanced) : Code Advanced := do
  match ← (call c).attempt with
  | .ok answer => next answer
  | .error e => return ⟨swap, unsaved, .error e⟩

/-- `await db.commit()` flushes every copy of the session. -/
def save (error : Option String) : Code Advanced := do
  match ← (call (.commit (unsaved ++ [swap]) none)).attempt with
  | .ok _ => return ⟨swap.saved, [], .ok error⟩
  | .error e => return ⟨swap.rolledBack, [], .error e⟩

/-- `_backfill_claim_txid_from_wallet`. Only the copy is looked at for a claim. -/
def backfillClaimTxidFromWallet : Code Copy :=
  if swap.current.claimTxid.isSome then return swap
  else do
    match ← (call (.listUnspent swap.id swap.current.destinationAddress)).attempt with
    | .ok (.ok utxos) => return (txidAt swap.current.destinationAddress utxos).elim swap swap.setClaim
    | _ => return swap

def txPaysAddress (outputs : List String) (expected : String) : Bool :=
  let expected := String.ofList (strip expected.toList)
  expected ≠ "" && expected ∈ outputs

/-- The check of the lockup transaction, and whether it found a mismatch. -/
def verifyLockup (transactionId : Option String) : Code (Copy × Bool) :=
  match transactionId with
  | none => return (swap, false)
  | some lockupId =>
    if lockupId.length = 64 then do
      let swap := swap.set fun row => { row with lockupTxid := some (row.lockupTxid.getD lockupId) }
      match ← (call (.optionalVerifyTx lockupId)).attempt with
      | .ok (some outputs) =>
        return (swap, swap.current.boltzLockupAddress.any fun address => !txPaysAddress outputs address)
      | _ => return (swap, false)
    else return (swap, false)

/-- Another worker has claimed: the copy follows, and nothing is committed. -/
def follow (existing : String) : Code Advanced :=
  return ⟨(swap.setClaim existing).setStatus .claimed, unsaved, .ok none⟩

/-- The claim of the lockup, between two looks at the stored claim. -/
def claimLockup : Code Advanced :=
  perform swap unsaved (.getLockupTransaction swap.id swap.current.boltzSwapId) fun
  | .error err => save swap unsaved (some err)
  | .ok lockupHex =>
    perform swap unsaved (.selectClaimTxid swap.id true) fun
    | some existing => follow swap unsaved existing
    | none =>
      perform swap unsaved (.cooperativeClaim swap.id swap.current lockupHex) fun
      | .error err => save swap.bumpRecovery unsaved (some err)
      | .ok txid =>
        perform swap unsaved (.selectClaimTxid swap.id false) fun
        | some existing => follow swap unsaved existing
        | none => save ((swap.setClaim txid).setStatus .claimed) unsaved none

def mismatchText : String :=
  "Independent verification found the Boltz lockup transaction does " ++
  "not pay the address committed at swap creation; the claim is " ++
  "withheld pending operator review."

def refundedText : String :=
  "Boltz refunded the on-chain lockup. The on-chain leg " ++
  "of this swap did not complete; your Lightning HTLC " ++
  "will be cancelled and your sats remain in your " ++
  "channel balance. No further action required."

/-- The lockup transaction has appeared. -/
def advanceLockup (report : Report) : Code Advanced := do
  let swap :=
    if swap.current.status ∈ [SwapStatus.invoicePaid, .payingInvoice, .created] then
      swap.clearTransient.setStatus .claiming
    else swap
  let (swap, mismatch) ← verifyLockup swap report.transactionId
  if mismatch then save (swap.setError (some mismatchText)) unsaved (some mismatchText)
  else if swap.current.status = .claiming ∧ swap.current.claimTxid = none then claimLockup swap unsaved
  else save swap unsaved none

/-- The claim has confirmed although Boltz has not reported the settlement. -/
def advanceClaimed (txid : String) : Code Advanced := do
  match ← (call (.optionalConfirmations txid)).attempt with
  | .ok (some confirmations) =>
    save (if 3 ≤ confirmations then swap.setStatus .completed else swap) unsaved none
  | _ => save swap unsaved none

/-- The branches of `advance_swap` on what Boltz has reported. -/
def advanceOn (report : Report) : Code Advanced :=
  if report.status ∈ [some "invoice.expired", some "swap.expired", some "transaction.failed"] then
    save ((swap.setStatus .failed).setError (some ("Boltz swap ended: " ++ report.status.getD "None"))) unsaved none
  else if report.status = some "transaction.refunded" then
    save ((swap.setStatus .refunded).setError (some refundedText)) unsaved none
  else if report.status = some "invoice.settled" then do
    let swap ← backfillClaimTxidFromWallet (swap.clearTransient.setStatus .completed)
    save swap unsaved none
  else
    match swap.current.status, swap.current.claimTxid with
    | .claimed, some txid => advanceClaimed swap unsaved txid
    | _, _ =>
      if report.status ∈ [some "transaction.mempool", some "transaction.confirmed"] then
        advanceLockup swap unsaved report
      else save swap unsaved none

def advanceSwap : Code Advanced :=
  perform swap unsaved (.getSwapStatus swap.id swap.current.boltzSwapId) fun
  | .error err => return ⟨swap, unsaved, .ok (some err)⟩
  | .ok report => advanceOn (swap.set fun row => { row with boltzStatus := report.status }) unsaved report

/-! ## `recover_pending_swaps` -/

structure Recovered where
  boltzSwapId : String
  status : SwapStatus
  error : Option String
  requeued : Bool := false

def Advanced.error (advanced : Advanced) : Option String :=
  match advanced.outcome with
  | .ok error => error
  | .error e => some e.text

/-- The loop, with the copies that the session has not saved. -/
def recoverEach (unsaved : List Copy) : List (SwapId × BoltzSwap) → Code (List Recovered)
  | [] => return []
  | (id, row) :: rows =>
    if row.status ∈ [SwapStatus.created, .payingInvoice] then do
      let queued ← (call (.delay { swapId := id })).attempt
      let recovered ← recoverEach unsaved rows
      return (match queued with
        | .ok _ => ⟨row.boltzSwapId, row.status, none, true⟩
        | .error e => ⟨row.boltzSwapId, row.status, some e.text, false⟩) :: recovered
    else do
      let advanced ← advanceSwap (.load id row) unsaved
      let recovered ← recoverEach (advanced.unsaved ++ [advanced.swap]) rows
      return ⟨row.boltzSwapId, advanced.swap.current.status, advanced.error, false⟩ :: recovered

def recoverPendingSwaps : Code (List Recovered) := do
  let rows : List (SwapId × BoltzSwap) ← call .selectPending
  recoverEach [] rows

/-! ## `process_boltz_swap` -/

structure ProcessResult where
  status : String
  detail : Option String := none
deriving DecidableEq

/-- Whether the invoice is to be paid. A row in PAYING_INVOICE is paid again only
if LND knows of no payment, or of a failed one. -/
def shouldPay : Code (Copy × Bool) :=
  match swap.current.status with
  | .created => return (swap, true)
  | .payingInvoice =>
    match swap.current.lndPaymentHash <|> swap.current.boltzInvoice.bind settings.paymentHashFromBolt11 with
    | none => return (swap, false)
    | some reentryHash => do
      let lookup : Except String (Option String) ← call (.lookupPayment swap.id reentryHash)
      match lookup with
      | .error _ => return (swap, false)
      | .ok status =>
        let payState := (status.getD "UNKNOWN").toUpper
        if payState ∈ ["FAILED", "UNKNOWN"] then return (swap, true)
        else if payState = "SUCCEEDED" then do
          let swap := ((swap.set fun row => { row with lndPaymentHash := some reentryHash }).setStatus
            .invoicePaid).clearTransient
          let _ : Unit ← call (.commit [swap] none)
          return (swap.saved, false)
        else return (swap, false)
  | _ => return (swap, false)

def retriedText (paymentHash : Option String) : String :=
  "Payment attempt encountered a transient " ++
  "network error and is being retried " ++
  "automatically. Payment hash: " ++
  paymentHash.getD "<undecodable>" ++ ". " ++
  "No action required — the next reconciliation " ++
  "tick will resume. If this persists for more " ++
  "than 10 minutes, the swap will surface a " ++
  "stuck banner with manual recovery options."

/-- What the answer of LND makes of the row: the result of the task, or the copy
that `advance_swap` goes on with. -/
def paid (answer : Except String (Option String)) :
    Code (ProcessResult ⊕ Copy) :=
  match answer with
  | .error payError =>
    if definitive payError then do
      let swap := (swap.setStatus .failed).setError (some ("Invoice payment failed: " ++ payError))
      let _ : Unit ← call (.commit [swap] none)
      return .inl ⟨"failed", some payError⟩
    else do
      let paymentHash := swap.current.boltzInvoice.bind settings.paymentHashFromBolt11
      let swap := (swap.set fun row => { row with lndPaymentHash := paymentHash <|> row.lndPaymentHash }).setError
        (some (retriedText paymentHash))
      let _ : Unit ← call (.commit [swap] none)
      return .inr swap.saved
  | .ok paymentHash => do
    let swap := (swap.setStatus .invoicePaid).clearTransient.set fun row =>
      { row with lndPaymentHash := paymentHash <|> row.lndPaymentHash }
    let _ : Unit ← call (.commit [swap] none)
    return .inr swap.saved

variable (swapId : SwapId) (routingFeeLimitPercent : ℚ)

/-- The row is marked, and then its invoice is handed to LND. -/
def payInvoice : Code (ProcessResult ⊕ Copy) := do
  let swap := swap.setStatus .payingInvoice
  let _ : Unit ← call (.commit [swap] none)
  let swap := swap.saved
  match swap.current.boltzInvoice with
  | none => Lib.Task.raise ⟨""⟩
  | some invoice =>
    let _ : Unit ← call (.sendPaymentV2 swap.id {
      paymentRequest := invoice
      outgoingChanId := swap.current.outgoingChanId
      feeLimitSats := max 10 ⌊swap.current.invoiceAmountSats * routingFeeLimitPercent / 100⌋
      timeoutSeconds := 120
      maxParts := if swap.current.outgoingChanId.isSome then 1 else settings.boltzPaymentMaxParts })
    let answer : Except String (Option String) ← call (.paymentResult swap.id)
    paid settings swap answer

def advanceResult : Code ProcessResult := do
  let advanced ← advanceSwap swap []
  match advanced.outcome with
  | .ok error => return ⟨advanced.swap.current.status.value, error⟩
  | .error e => Lib.Task.raise e

/-- Step 1 and step 2 on a row that is not done. -/
def processCopy : Code ProcessResult := do
  let (swap, pay) ← shouldPay settings swap
  if pay then
    match ← payInvoice settings swap routingFeeLimitPercent with
    | .inl result => return result
    | .inr swap => advanceResult swap
  else advanceResult swap

def processRow : Code ProcessResult := do
  let row : Option BoltzSwap ← call (.selectSwap .processSwap swapId)
  match row with
  | none => return ⟨"error", some "swap_not_found"⟩
  | some row =>
    if row.status.terminal then return ⟨row.status.value, none⟩
    else processCopy settings (.load swapId row) routingFeeLimitPercent

def runProcessSwap : Code ProcessResult :=
  Lib.Task.tryFinally
    (Lib.Task.tryExcept (processRow settings swapId routingFeeLimitPercent) fun e => return ⟨"error", some e.text⟩)
    (call .close)

def markRow (errorMessage : String) : Code Unit := do
  let row : Option BoltzSwap ← call (.selectSwap .markSwapFailed swapId)
  match row with
  | none => return ()
  | some row =>
    if row.status ∈ [SwapStatus.completed, .failed] then return ()
    else call (.commit [((Copy.load swapId row).setStatus .failed).setError (some errorMessage)] none)

def markSwapFailed (errorMessage : String) : Code Unit :=
  Lib.Task.tryFinally (markRow swapId errorMessage) (call .close)

/-- `process_boltz_swap`: one delivery of a message. -/
def processBoltzSwap (message : Message) : Code ProcessResult := do
  let result ← runProcessSwap settings message.swapId message.routingFeeLimitPercent
  if result.status ∈ ["completed", "failed", "cancelled", "refunded", "error"] then return result
  else
    let again : Bool ← call (.retry message)
    if again then return result
    else
      let _ ← (markSwapFailed message.swapId "Max retries exceeded").attempt
      return ⟨"failed", some "max_retries_exceeded"⟩

/-! ## Claims on request -/

/-- What the two calls share: the claim between two looks at the stored one. -/
def claimAgain (claim : Code (Except String String)) : Code (Option String × Option String) := do
  let existing : Option String ← call (.selectClaimTxid swap.id true)
  match existing with
  | some existing =>
    let _ : Unit ← call (.commit [(swap.setClaim existing).setStatus .claimed] none)
    return (some existing, none)
  | none =>
    match ← claim with
    | .error err =>
      let _ : Unit ← call (.commit [swap.bumpRecovery.setError (some err)] none)
      return (none, some err)
    | .ok txid =>
      let existing : Option String ← call (.selectClaimTxid swap.id false)
      let swap := ((swap.setClaim (existing.getD txid)).setStatus .claimed).setError none
      let _ : Unit ← call (.commit [swap] none)
      return (swap.current.claimTxid, none)

def retryCooperativeClaim : Code (Option String × Option String) :=
  match swap.current.claimTxid with
  | some txid => return (some txid, none)
  | none =>
    if swap.current.status ≠ .claiming then
      return (none, some ("Swap is in status " ++ swap.current.status.value ++ "; " ++
        "cooperative claim retry is only valid while the swap is claiming."))
    else do
      let lockup : Except String (Option String) ← call (.getLockupTransaction swap.id swap.current.boltzSwapId)
      match lockup with
      | .ok (some lockupHex) =>
        claimAgain swap (call (.cooperativeClaim swap.id swap.current (some lockupHex)))
      | .ok none => return (none, some "Lockup transaction unavailable")
      | .error lockupErr => return (none, some lockupErr)

/-- Why `retry_unilateral_claim` refuses, before it asks anyone. -/
def unilateralRefusal (row : BoltzSwap) (btcTipHeight : Option ℤ) : Option String :=
  if row.status ∉ [SwapStatus.claiming, .invoicePaid] then
    some ("Swap is in status " ++ row.status.value ++ "; " ++
      "unilateral claim is only valid for swaps with funds in the lockup.")
  else
    match row.timeoutBlockHeight, btcTipHeight with
    | none, _ => some "Swap has no recorded timeout height; cannot verify safety."
    | some _, none => some ("Chain tip is unavailable; cannot verify the lockup timeout has " ++
        "passed. Refusing the unilateral claim until the tip is known.")
    | some timeout, some tip =>
      if tip < timeout then some ("Lockup timeout has not passed yet (" ++ toString (timeout - tip) ++ " blocks " ++
        "remaining). Use the cooperative claim retry instead.")
      else none

def retryUnilateralClaim (btcTipHeight : Option ℤ) : Code (Option String × Option String) :=
  match swap.current.claimTxid, unilateralRefusal swap.current btcTipHeight with
  | some txid, _ => return (some txid, none)
  | none, some refusal => return (none, some refusal)
  | none, none => do
    let lockup : Except String (Option String) ← call (.getLockupTransaction swap.id swap.current.boltzSwapId)
    match lockup with
    | .ok (some lockupHex) => claimAgain swap (call (.unilateralClaim swap.id swap.current lockupHex))
    | .ok none => return (none, some "Lockup transaction unavailable")
    | .error lockupErr => return (none, some lockupErr)

/-! ## `cancel_swap` -/

def cancelSwap : Code (Bool × Option String) :=
  if swap.current.status ≠ .created then
    return (false, some ("Cannot cancel swap in status '" ++ swap.current.status.value ++
      "'. Only 'created' swaps can be cancelled."))
  else do
    let _ : Unit ← call (.commit [(swap.setStatus .cancelled).setError (some "Cancelled by API client")] none)
    return (true, none)

/-- A request that reads its row and works on it, in a session of its own. -/
def onRow {α : Type} (reader : Reader) (swapId : SwapId) (missing : α) (work : Copy → Code α) : Code α :=
  Lib.Task.tryFinally
    (do
      let row : Option BoltzSwap ← call (.selectSwap reader swapId)
      match row with
      | none => return missing
      | some row => work (.load swapId row))
    (call .close)

/-! ## New rows -/

/-- `create_reverse_swap`. What it asks of Boltz and the checks on the answer are
one command, which gives the offer and its invoice. -/
def createReverseSwap (payer : Payer) (invoiceAmountSats : ℕ) (destinationAddress : String)
    (outgoingChanId : Option String) : Code (Except String (SwapId × BoltzSwap)) := do
  let offer : Except String (Offer × String) ← call (.offerReverse invoiceAmountSats destinationAddress outgoingChanId)
  match offer with
  | .error err => return .error err
  | .ok (offer, invoice) =>
    let row : BoltzSwap := {
      boltzSwapId := offer.boltzSwapId
      invoiceAmountSats
      destinationAddress
      outgoingChanId
      boltzInvoice := some invoice
      boltzLockupAddress := offer.lockupAddress
      timeoutBlockHeight := offer.timeoutBlockHeight }
    let id : SwapId ← call (.insertSwap payer row)
    return .ok (id, row)

/-- `create_submarine_swap`. The row looks like that of a reverse swap. -/
def createSubmarineSwap (invoice : String) (invoiceAmountSats : ℕ) : Code (Except String (SwapId × BoltzSwap)) := do
  let offer : Except String Offer ← call (.offerSubmarine invoice invoiceAmountSats)
  match offer with
  | .error err => return .error err
  | .ok offer =>
    let row : BoltzSwap := {
      boltzSwapId := offer.boltzSwapId
      invoiceAmountSats
      destinationAddress := offer.lockupAddress.getD ""
      boltzInvoice := some invoice
      boltzLockupAddress := offer.lockupAddress
      timeoutBlockHeight := offer.timeoutBlockHeight }
    let id : SwapId ← call (.insertSwap .boltz row)
    return .ok (id, row)

/-- A withdrawal: the row is made and its payment is queued. A seed of a channel
mix makes the row and leaves it to the sweep (`queue` is false). -/
def initiateSwap (invoiceAmountSats : ℕ) (destinationAddress : String) (outgoingChanId : Option String)
    (routingFeeLimitPercent : ℚ) (queue : Bool) : Code (Option String) := do
  match ← createReverseSwap .wallet invoiceAmountSats destinationAddress outgoingChanId with
  | .error err => return some err
  | .ok (id, _) =>
    if queue then
      let _ : Unit ← call (.delay { swapId := id, routingFeeLimitPercent })
      return none
    else return none

end AgentWallet.Swaps
