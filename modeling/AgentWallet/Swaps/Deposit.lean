import AgentWallet.Swaps.Service
/-!
# Deposits that make swaps (`braiins_deposit_service.py`)

One tick of a deposit session, from its creation to the swap that pays it out. A
session of the wallet's own funds ends in a reverse swap that the wallet pays
(`_advance_created`); on-chain funds first go through a submarine swap, whose
invoice is the wallet's own; with an external Lightning source the user pays the
invoice of the reverse swap, and no payment is queued.

A lockup that Boltz does not pay for is refunded, at once or by the later ticks of
the failed session (`_advance_failed_self_heal`).

What a session does once its swap is complete makes no swaps and is left out.
-/

namespace AgentWallet.Swaps

open AgentWallet.Lib

/-- `record_transition` -/
def SessionCopy.transition (session : SessionCopy) (status : BraiinsDepositStatus) : SessionCopy :=
  session.set fun s => { s with status, statusHistory := s.statusHistory ++ [status] }

def SessionCopy.setError (session : SessionCopy) (text : Option String) : SessionCopy :=
  session.set fun s => { s with errorMessage := text }

/-! ## The two handlers of `advance` -/

variable (settings : Settings) (session : SessionCopy)

/-- `except BraiinsDepositError` -/
def hardFail (text : String) : Code Unit :=
  call (.commit [] (some ((session.transition .failed).setError (some text))))

/-- `except Exception` -/
def transient (session : SessionCopy) (e : Raised) : Code Unit :=
  call (.commit [] (some (session.setError (some ("transient: " ++ e.text)))))

/-- Code whose exception is handled with the session as it is by then. -/
def guarded {α : Type} (session : SessionCopy) (code : Code α) (next : α → Code Unit) : Code Unit := do
  match ← code.attempt with
  | .ok answer => next answer
  | .error e => transient session e

/-- A service whose error ends the tick with a text. -/
def demand {α : Type} (session : SessionCopy) (text : String) (code : Code (Except String α)) (next : α → Code Unit) :
    Code Unit :=
  guarded session code fun
  | .ok value => next value
  | .error err => hardFail session (text ++ err)

/-- `await db.commit()`, with the copies of rows that the session holds. -/
def saveSession (swaps : List Copy) (session : SessionCopy) (next : SessionCopy → Code Unit) : Code Unit := do
  match ← (call (.commit swaps (some session))).attempt with
  | .ok _ => next session.saved
  | .error e => transient session.rolledBack e

/-! ## Transitions -/

/-- The reverse swap of `_advance_created`, its link and its payment. -/
def reverseLeg (quote : Quote) (address : String) (outgoingChanId : Option String) : Code Unit :=
  demand session "Swap creation failed: " (createReverseSwap .wallet quote.invoiceAmountSats address outgoingChanId)
    fun (id, _) =>
      saveSession [] ((session.set fun s => { s with boltzSwapId := some id }).transition .swapping) fun _ => do
        let _ ← (call (.delay { swapId := id })).attempt
        return ()

def advanceCreated : Code Unit :=
  demand session "Could not re-quote: " (call .quote) fun quote =>
    demand session "Could not generate a fresh address: " (call .newAddress) fun address =>
      match session.current.fundingStrategy, session.current.channelOpenTxid with
      | .channel, some txid =>
        -- the payment is pinned to the channel that was opened for it
        guarded session (call (.channelIsActive txid)) fun channel =>
          reverseLeg session quote address (channel.toOption.bind Prod.snd)
      | _, _ => reverseLeg session quote address none

/-- Step 4 of `_advance_created_onchain`. -/
def submarineFunded : Code Unit :=
  if session.current.status = .created then saveSession [] (session.transition .submarineSwapping) fun _ => return ()
  else return ()

variable (swap : Copy)

/-- Step 3: the lockup is funded, unless it has been. Both checks of the inbound
side are one command. -/
def fundSubmarine : Code Unit :=
  match session.current.submarineFundingTxid with
  | some _ => submarineFunded session
  | none =>
    guarded session (call (.inboundPreflight swap.current.invoiceAmountSats)) fun
    | some refusal => do
      let _ ← (cancelSwap swap).attempt
      hardFail session refusal
    | none =>
      demand session "Could not fund submarine lockup: " (call (.sendCoins session.id swap.current.boltzLockupAddress)) fun txid =>
        saveSession [swap.set fun row => { row with lockupTxid := some (row.lockupTxid.getD txid) }]
          (session.set fun s => { s with submarineFundingTxid := some txid }) submarineFunded

/-- Step 2: the swap is made, unless it has been. -/
def makeSubmarine (quote : Quote) (invoice : Option Invoice) : Code Unit :=
  match session.current.submarineBoltzSwapId, invoice with
  | some id, _ =>
    guarded session (call (.selectSwap .depositTick id)) fun
    | none => hardFail session
        "Linked submarine BoltzSwap row disappeared between ticks — operator investigation required."
    | some row => fundSubmarine session (.load id row)
  | none, none => hardFail session "Submarine swap creation reached with no payment_request."
  | none, some invoice =>
    demand session "Submarine swap creation failed: "
      (createSubmarineSwap invoice.paymentRequest (invoice.principalSats.getD quote.submarineInvoiceAmountSats))
      fun (id, row) =>
        saveSession [] (session.set fun s => { s with submarineBoltzSwapId := some id }) fun session =>
          fundSubmarine session (.load id row)

/-- `_advance_created_onchain`. Step 1: the invoice is minted, unless it has been. -/
def advanceCreatedOnchain : Code Unit :=
  demand session "Could not re-quote: " (call .quote) fun quote =>
    match session.current.submarinePaymentHashHex, session.current.submarineBoltzSwapId with
    | none, _ =>
      demand session "Could not create invoice for submarine swap: "
        (call (.createInvoice quote.submarineInvoiceAmountSats)) fun invoice =>
          saveSession [] (session.set fun s => { s with submarinePaymentHashHex := some invoice.paymentHash }) fun session =>
            makeSubmarine session quote (some invoice)
    | some paymentHash, none =>
      demand session "Could not look up the previously-minted submarine invoice: "
        (call (.lookupInvoice paymentHash)) fun invoice =>
          makeSubmarine session quote (some invoice)
    | some _, some _ => makeSubmarine session quote none

/-- `_advance_created_ext_lightning`. No payment is queued: the user pays. -/
def advanceCreatedExtLightning : Code Unit :=
  demand session "Could not re-quote: " (call .quote) fun quote =>
    demand session "Could not generate a fresh address: " (call .newAddress) fun address =>
      demand session "Swap creation failed: " (createReverseSwap .user quote.invoiceAmountSats address none)
        fun (id, _) =>
          saveSession [] ((session.set fun s => { s with boltzSwapId := some id }).transition .awaitingLnFunds)
            fun _ => return ()

def advanceCreatedExtOnchain : Code Unit :=
  demand session "Could not re-quote: " (call .quote) fun _ =>
    demand session "Could not generate a receive address: " (call .newAddress) fun _ =>
      saveSession [] (session.transition .awaitingOnchainFunds) fun _ => return ()

/-- Why the channel is not opened, before any peer is asked. -/
def channelRefusal (quote : Quote) : Option String :=
  let capacity := quote.channelCapacitySats
  match quote.channelIneligible, settings.dashboardMaxPaymentSats with
  | some reason, _ => some ("Channel-open not possible for this amount: " ++ reason)
  | none, some limit =>
    if 0 ≤ limit ∧ limit < capacity then
      some ("Channel capacity " ++ thousands capacity ++ " sats exceeds the dashboard spend limit of " ++
        thousands limit.toNat ++ " sats.")
    else none
  | none, none => none

inductive Opened
  | funded (txid : String)
  | refused (openErrors connectErrors : List String)

/-- The loop over the candidates. Any error of a peer leads to the next one. -/
def openWithAny (session : SessionId) (capacitySats : ℕ) (openErrors connectErrors : List String) :
    List ChannelPeer → Code Opened
  | [] => return .refused openErrors connectErrors
  | peer :: peers => do
    let connected : Except String Unit ← call (.connectPeer peer.pubkey peer.host)
    match connected with
    | .error err =>
      openWithAny session capacitySats openErrors (connectErrors ++ [peer.label ++ ": " ++ err]) peers
    | .ok () =>
      let opened : Except String String ← call (.openChannel session peer.pubkey capacitySats)
      match opened with
      | .error err => openWithAny session capacitySats (openErrors ++ [peer.label ++ ": " ++ err]) connectErrors peers
      | .ok txid => return .funded txid

/-- The channel is opened with the first peer that does. -/
def openChannel (quote : Quote) : Code Unit :=
  match channelRefusal settings quote, settings.channelOpenCandidates quote.channelCapacitySats with
  | some refusal, _ => hardFail session refusal
  | none, [] => hardFail session "No channel peer accepts a channel this size"
  | none, peers =>
    guarded session (openWithAny session.id quote.channelCapacitySats [] [] peers) fun
    | .funded txid =>
      saveSession [] (((session.set fun s => { s with channelOpenTxid := some txid }).setError none).transition
        .openingChannel) fun _ => return ()
    | .refused [] connectErrors =>
      transient session ⟨"Could not connect to any channel peer: " ++ "; ".intercalate connectErrors⟩
    | .refused openErrors connectErrors =>
      hardFail session ("Could not open channel with any peer: " ++ "; ".intercalate (openErrors ++ connectErrors))

def advanceCreatedOnchainViaChannel : Code Unit :=
  match session.current.channelOpenTxid with
  | some _ =>
    if session.current.status = .created then saveSession [] (session.transition .openingChannel) fun _ => return ()
    else return ()
  | none => demand session "Could not re-quote: " (call .quote) (openChannel settings session)

def advanceOpeningChannel : Code Unit :=
  match session.current.channelOpenTxid with
  | none => hardFail session
      "OPENING_CHANNEL but channel_open_txid missing — operator investigation required."
  | some txid =>
    guarded session (call (.channelIsActive txid)) fun
    | .error err => transient session ⟨"Channel activation poll failed: " ++ err⟩
    | .ok (active, _) =>
      if active then saveSession [] ((session.setError none).transition .created) advanceCreated
      else saveSession [] (session.setError (some "Opening channel — waiting for confirmations.")) fun _ => return ()

/-! ## Refunds of a submarine lockup -/

/-- The reports of Boltz that leave the funds in the lockup. -/
def refundable : List String := ["invoice.expired", "swap.expired", "invoice.failedToPay", "transaction.failed"]

/-- A refund to a fresh address of the wallet. No exception gets out. -/
def attemptRefund (refund : String → Code (Except String String)) : Code (Except String String) := do
  let tried ← Lib.Task.attempt do
    let address : Except String String ← call .newAddress
    match address with
    | .error err => return .error ("could not mint refund address: " ++ err)
    | .ok address => refund address
  match tried with
  | .ok answer => return answer
  | .error e => return .error ("unexpected error: " ++ e.text)

def attemptCooperativeRefund : Code (Except String String) :=
  attemptRefund fun address => call (.cooperativeRefund swap.id address)

/-- `unilateral_refund_submarine` refuses until the lockup has timed out. -/
def unilateralRefundRefusal (row : BoltzSwap) (btcTipHeight : Option ℤ) : Option String :=
  match row.timeoutBlockHeight, btcTipHeight with
  | none, _ => some "Swap has no recorded timeout height; cannot verify refund safety."
  | some _, none => some ("Chain tip is unavailable; cannot verify the lockup timeout has " ++
      "passed. Refusing the unilateral refund until the tip is known.")
  | some timeout, some tip =>
    if tip < timeout then some ("Lockup timeout has not passed yet (" ++ toString (timeout - tip) ++ " blocks " ++
      "remaining); the unilateral refund only becomes valid at the " ++
      "timeout. The cooperative refund is the only option until then.")
    else none

def attemptUnilateralRefund (btcTipHeight : Option ℤ) : Code (Except String String) :=
  attemptRefund fun address =>
    match unilateralRefundRefusal swap.current btcTipHeight with
    | some refusal => return .error refusal
    | none => call (.unilateralRefund swap.id address)

def submarineRefundTxidFromSwap (row : BoltzSwap) : Option String := row.refunds.reverse.findSome? RefundEntry.txid

def Copy.addRefund (entry : RefundEntry) : Copy :=
  swap.set fun row => { row with refunds := row.refunds ++ [entry] }

/-- What the status makes of the row of a submarine swap. -/
def submarineStatus (boltzStatus : String) (changed : Bool) : Code Copy :=
  if boltzStatus = "transaction.refunded" ∧ changed then
    return (swap.setStatus .refunded).setError (some "Boltz refunded the submarine lockup back to the wallet.")
  else if boltzStatus ∈ refundable ∧ swap.current.status ≠ .refunded then do
    match ← attemptCooperativeRefund swap with
    | .ok txid =>
      let text := "Cooperative refund broadcast after Boltz status " ++ boltzStatus ++ "; refund txid=" ++ txid
      return ((swap.setStatus .refunded).setError (some text)).addRefund ⟨none, some txid⟩
    | .error err => return (swap.setStatus .failed).setError (some
        ("Boltz submarine swap ended: " ++ boltzStatus ++ " (cooperative refund attempt: " ++ err ++ ")"))
  else return swap

def updateSubmarineBoltzStatus : Code Copy := do
  match ← (call (.getSwapStatus swap.id swap.current.boltzSwapId)).attempt with
  | .ok (.ok ⟨some boltzStatus, _⟩) =>
    let changed := decide (swap.current.boltzStatus ≠ some boltzStatus)
    let swap ← submarineStatus (swap.set fun row => { row with boltzStatus := some boltzStatus }) boltzStatus changed
    let _ : Unit ← call (.commit [swap] none)
    return swap.saved
  | _ => return swap

def followEnd (swaps : List Copy) (session : SessionCopy) (swap : Copy) (status : BraiinsDepositStatus) : Code Unit :=
  saveSession swaps ((session.transition status).setError (some (swap.current.errorMessage.getD
    swap.current.status.value))) fun _ => return ()

/-- `_advance_submarine_swapping`, while the invoice is open. -/
def pollSubmarine : Code Unit :=
  match session.current.submarineBoltzSwapId with
  | none => return ()
  | some id =>
    guarded session (call (.selectSwap .depositTick id)) fun
    | none => return ()
    | some row =>
      guarded session (updateSubmarineBoltzStatus (.load id row)) fun swap =>
        match swap.current.status with
        | .refunded =>
          saveSession [] ((session.transition .refunded).set fun s =>
            { s with refundTxid := s.refundTxid <|> submarineRefundTxidFromSwap swap.current }) fun _ => return ()
        | .failed | .cancelled => followEnd [] session swap .failed
        | _ => return ()

def advanceSubmarineSwapping : Code Unit :=
  match session.current.submarinePaymentHashHex with
  | none => hardFail session "SUBMARINE_SWAPPING but submarine_payment_hash_hex missing"
  | some paymentHash =>
    guarded session (call (.lookupInvoice paymentHash)) fun
    | .ok ⟨_, _, _, true⟩ => saveSession [] (session.transition .created) advanceCreated
    | _ => pollSubmarine session

def unpaid : Bool :=
  let errText := ((swap.current.errorMessage.getD "").map Char.toLower).toList
  ["invoice.expired", "swap.expired", "invoice.failedtopay"].any fun text => decide (text.toList <:+: errText)

/-- `_advance_awaiting_ln_funds`, on the copy that `advance_swap` left. -/
def followUserPaid (advanced : Advanced) : Code Unit :=
  let swap := advanced.swap
  match swap.current.status with
  | .refunded => saveSession [swap] (session.transition .refunded) fun _ => return ()
  | .cancelled => followEnd [swap] session swap .cancelled
  | .failed => followEnd [swap] session swap (if unpaid swap then .cancelled else .failed)
  | _ =>
    if swap.current.claimTxid.isSome then saveSession [swap] (session.transition .swapping) fun _ => return ()
    else return ()

/-- `_advance_awaiting_ln_funds`. The second read gives the copy that the session
holds already. -/
def advanceAwaitingLnFunds : Code Unit :=
  match session.current.boltzSwapId with
  | none => hardFail session "AWAITING_LN_FUNDS but no boltz_swap_id"
  | some id =>
    guarded session (call (.selectSwap .depositTick id)) fun
    | none => hardFail session ("Linked BoltzSwap " ++ toString id ++ " disappeared")
    | some row => do
      let advanced ← advanceSwap (.load id row) []
      match advanced.outcome with
      | .error _ => return ()
      | .ok _ =>
        guarded session (call (.selectSwap .depositTick id)) fun
        | none => return ()
        | some _ => followUserPaid session advanced

/-- `_advance_awaiting_onchain_funds`. The sum over the unspent outputs is one command. -/
def advanceAwaitingOnchainFunds : Code Unit :=
  guarded session (call .receivedDeposits) fun
  | .error _ => return ()
  | .ok (received, enough) =>
    saveSession [] (session.set fun s => { s with extIntakeReceivedSats := received }) fun session =>
      if enough then saveSession [] (session.transition .created) fun _ => return ()
      else return ()

def advanceSwapping : Code Unit :=
  match session.current.boltzSwapId with
  | none => hardFail session "SWAPPING but no boltz_swap_id linked"
  | some id =>
    guarded session (call (.selectSwap .depositTick id)) fun
    | none => hardFail session ("Linked BoltzSwap " ++ toString id ++ " disappeared")
    | some row =>
      match row.status with
      | .refunded => saveSession [] (session.transition .refunded) fun _ => return ()
      | .failed | .cancelled => followEnd [] session (.load id row) .failed
      | _ => return ()

/-! ## A failed session -/

def minInterval : ℕ := 300

def lastAttempt (row : BoltzSwap) : Option ℕ := row.refunds.reverse.findSome? RefundEntry.attemptAt

/-- The refund that Boltz signs, or the one that needs no signature of Boltz. -/
def healRefund : Code (String × Except String String) := do
  match ← attemptCooperativeRefund swap with
  | .ok txid => return ("Cooperative", .ok txid)
  | .error err =>
    let tip : Option ℤ ← call .currentBtcTipHeight
    match ← attemptUnilateralRefund swap tip with
    | .ok txid => return ("Unilateral", .ok txid)
    | .error uniErr => return ("Cooperative", .error ("cooperative: " ++ err ++ "; unilateral: " ++ uniErr))

/-- The attempt and what it leaves, on a swap whose funds may be locked. -/
def heal (session : SessionCopy) (swap : Copy) (now : ℕ) : Code Unit := do
  let (mode, refund) ← healRefund swap
  let swap := swap.addRefund { attemptAt := some now, txid := refund.toOption }
  match refund with
  | .ok txid =>
    call (.commit
      [(swap.setStatus .refunded).setError (some (mode ++ " refund broadcast via self-heal; refund txid=" ++ txid))]
      (some ((session.transition .refunded).set fun s => { s with refundTxid := some txid })))
  | .error _ => call (.commit [swap] (some session))

def advanceFailedSelfHeal : Code Unit :=
  if session.current.sourceKind ∉ [BraiinsDepositSourceKind.lightning, .onchain] then return ()
  else
    match session.current.submarineBoltzSwapId, session.current.refundTxid with
    | some id, none => do
      let row : Option BoltzSwap ← call (.selectSwap .depositTick id)
      match row with
      | none => return ()
      | some row =>
        if row.status = .refunded ∨ row.boltzStatus ∉ refundable.map some then return ()
        else
          let now : ℕ ← call .utcNow
          if (lastAttempt row).any fun last => now < last + minInterval then return ()
          else heal session (.load id row) now
    | _, _ => return ()

/-! ## `advance` -/

/-- Which flow a session in CREATED takes. Several flows come back to CREATED, and
the history tells them apart. -/
def dispatchCreated : Code Unit :=
  let s := session.current
  if s.sourceKind = .extLightning ∧ .awaitingLnFunds ∉ s.statusHistory then advanceCreatedExtLightning session
  else if s.sourceKind = .extOnchain ∧ .awaitingOnchainFunds ∉ s.statusHistory then advanceCreatedExtOnchain session
  else if s.fundingStrategy = .channel ∧ s.channelOpenTxid.isSome then advanceCreated session
  else if s.fundingStrategy = .channel ∧ (s.sourceKind = .onchain ∨ s.sourceKind = .extOnchain) then
    advanceCreatedOnchainViaChannel settings session
  else if (s.sourceKind = .extOnchain ∨ s.sourceKind = .onchain) ∧ .submarineSwapping ∉ s.statusHistory then
    advanceCreatedOnchain session
  else advanceCreated session

/-- No exception of the recovery of a failed session gets out. -/
def dispatch : Code Unit :=
  match session.current.status with
  | .created => dispatchCreated settings session
  | .awaitingLnFunds => advanceAwaitingLnFunds session
  | .awaitingOnchainFunds => advanceAwaitingOnchainFunds session
  | .submarineSwapping => advanceSubmarineSwapping session
  | .openingChannel => advanceOpeningChannel session
  | .swapping => advanceSwapping session
  | .failed => do
    let _ ← (advanceFailedSelfHeal session).attempt
    return ()
  | _ => return ()

/-- `advance`: one tick. -/
def advance (sessionId : SessionId) : Code Unit :=
  Lib.Task.tryFinally
    (do
      let row : Option BraiinsDepositSession ← call (.selectSessionForUpdate sessionId)
      match row with
      | none => return ()
      | some row => dispatch settings (.load sessionId row))
    (call .close)

/-- What one run of `recover_pending_sessions` does about a session. An exception
of one session does not end the loop over the others. -/
def recoverSession (sessionId : SessionId) : Code Unit := do
  let selected : Bool ← call (.selectRecoverable sessionId)
  if selected then do
    let _ ← (advance settings sessionId).attempt
    return ()
  else return ()

/-! ## `cancel_session` -/

def notBeforePayment : String :=
  "Cancel is only available before the Lightning payment is sent. " ++
  "The session will continue and either complete or refund automatically."

def cancelled : Code (Bool × Option String) := do
  let _ : Unit ← call (.commit [] (some (session.transition .cancelled)))
  return (true, none)

def cancelBoth : Code (Bool × Option String) := do
  let (ok, err) ← cancelSwap swap
  if ok then cancelled session
  else return (false, some ("Could not cancel Boltz swap: " ++ err.getD "unknown"))

def cancelSwapping : Code (Bool × Option String) :=
  match session.current.boltzSwapId with
  | none => return (false, some "Cancel not available (missing swap link)")
  | some id => do
    let row : Option BoltzSwap ← call (.selectSwap .cancelSwapping id)
    match row with
    | none => return (false, some "Cancel not available (swap row gone)")
    | some row =>
      if row.status ≠ .created then return (false, some notBeforePayment)
      else cancelBoth session (.load id row)

/-- A swap that is no longer CREATED is left as it is. -/
def cancelAwaiting : Code (Bool × Option String) :=
  match session.current.boltzSwapId with
  | none => cancelled session
  | some id => do
    let row : Option BoltzSwap ← call (.selectSwap .cancelAwaiting id)
    match row with
    | none => cancelled session
    | some row => if row.status = .created then cancelBoth session (.load id row) else cancelled session

def cancelBeforeFunds : Code (Bool × Option String) :=
  if session.current.extIntakeReceivedSats = 0 then cancelled session
  else do
    let _ : Unit ← call (.commit [] (some ((session.transition .failed).setError (some
      "Cancelled after a deposit was received. Provide a refund address below to recover the funds."))))
    return (true, none)

def cancelLoaded : Code (Bool × Option String) :=
  match session.current.status with
  | .created => cancelled session
  | .swapping => cancelSwapping session
  | .submarineSwapping => return (false, some (
      "Cancel isn't available once your on-chain funds have been " ++
      "sent. If the swap doesn't complete, Boltz will refund " ++
      "automatically after the timeout block."))
  | .openingChannel => return (false, some (
      "Cancel isn't available once the channel funding transaction " ++
      "has been broadcast. The deposit will continue once the " ++
      "channel confirms."))
  | .awaitingLnFunds => cancelAwaiting session
  | .awaitingOnchainFunds => cancelBeforeFunds session
  | status =>
    if status.terminal then return (false, some ("Session is already " ++ status.value))
    else return (false, some notBeforePayment)

def cancelSession (sessionId : SessionId) : Code (Bool × Option String) :=
  Lib.Task.tryFinally
    (do
      let row : Option BraiinsDepositSession ← call (.selectSessionForUpdate sessionId)
      match row with
      | none => return (false, some "Session not found or locked by another worker")
      | some row => cancelLoaded (.load sessionId row))
    (call .close)

/-! ## Tasks -/

/-- What runs beside each other. A worker takes a message off the queue. -/
inductive Program
  | worker
  | sweep
  | tick (session : SessionId)
  | initiate (amountSats : ℕ) (destination : String) (outgoingChanId : Option String) (feePercent : ℚ) (queue : Bool)
  | cooperativeClaim (swap : SwapId)
  | unilateralClaim (swap : SwapId) (btcTipHeight : Option ℤ)
  | cancel (swap : SwapId)
  | cancelDeposit (session : SessionId)

inductive Outcome
  | processed (result : ProcessResult)
  | swept (recovered : List Recovered)
  | ticked
  | initiated (error : Option String)
  | claimed (txid error : Option String)
  | cancelled (ok : Bool) (error : Option String)

def runWorker : Code ProcessResult := do
  let message : Message ← call .receive
  processBoltzSwap settings message

def runRecoverSwaps : Code (List Recovered) :=
  Lib.Task.tryFinally (Lib.Task.tryExcept recoverPendingSwaps fun _ => return []) (call .close)

def Program.code : Program → Code Outcome
  | .worker => do return .processed (← runWorker settings)
  | .sweep => do return .swept (← runRecoverSwaps)
  | .tick session => do
    advance settings session
    return .ticked
  | .initiate amountSats destination outgoingChanId feePercent queue => do
    return .initiated (← initiateSwap amountSats destination outgoingChanId feePercent queue)
  | .cooperativeClaim swap => do
    let (txid, error) ← onRow .retryClaim swap (none, some "Swap not found") retryCooperativeClaim
    return .claimed txid error
  | .unilateralClaim swap btcTipHeight => do
    let (txid, error) ← onRow .retryClaim swap (none, some "Swap not found") fun copy =>
      retryUnilateralClaim copy btcTipHeight
    return .claimed txid error
  | .cancel swap => do
    let (ok, error) ← onRow .cancelSwap swap (false, some "Swap not found") cancelSwap
    return .cancelled ok error
  | .cancelDeposit session => do
    let (ok, error) ← cancelSession session
    return .cancelled ok error

end AgentWallet.Swaps
