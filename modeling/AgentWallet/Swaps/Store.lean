import AgentWallet.Lib.Task
import AgentWallet.Lib.Text
import Mathlib.Data.List.Infix
import Mathlib.Data.Rat.Floor
/-!
# The swap table and the sessions that write to it (`boltz_swap.py`, `database.py`)

Every task has a database session of its own and works on copies of the rows it
has read. A commit writes the columns that a copy has changed since it was read
or last saved, and leaves the others, whatever the row holds by then: nothing
compares the row with what was read (`Copy.write`).

The commands are what the swap code awaits, from the database, Celery, LND, Boltz
and the claim scripts. Beside the tables the state keeps what has been said and
done so far (`World.log`). `FOR UPDATE` only delays a reader, so the runs with the
row lock are among the runs here.
-/

namespace AgentWallet.Swaps

open AgentWallet.Lib List Function Option

/-- A status of Boltz is a text that may be missing. -/
scoped instance lawfulBEq_status : LawfulBEq (Option String) := inferInstance

/-! ## Rows -/

inductive SwapStatus
  | created
  | payingInvoice
  | invoicePaid
  | claiming
  | claimed
  | completed
  | failed
  | cancelled
  | refunded
deriving DecidableEq

def SwapStatus.value : SwapStatus → String
  | .created => "created"
  | .payingInvoice => "paying_invoice"
  | .invoicePaid => "invoice_paid"
  | .claiming => "claiming"
  | .claimed => "claimed"
  | .completed => "completed"
  | .failed => "failed"
  | .cancelled => "cancelled"
  | .refunded => "refunded"

/-- An entry of `status_history` about a refund: when it was tried, if by the
periodic recovery, and what came of it. -/
structure RefundEntry where
  attemptAt : Option ℕ := none
  txid : Option String
deriving DecidableEq

/-- The columns of `boltz_swaps` that the code below reads or writes. No column
holds an empty text, so a test for truth is one for presence. Of `status_history`
only the entries about refunds are read. -/
structure BoltzSwap where
  boltzSwapId : String
  invoiceAmountSats : ℕ
  destinationAddress : String
  outgoingChanId : Option String := none
  boltzInvoice : Option String
  boltzLockupAddress : Option String := none
  timeoutBlockHeight : Option ℤ := none
  status : SwapStatus := .created
  boltzStatus : Option String := some "swap.created"
  errorMessage : Option String := none
  lndPaymentHash : Option String := none
  lockupTxid : Option String := none
  claimTxid : Option String := none
  recoveryCount : ℕ := 0
  refunds : List RefundEntry := []
deriving DecidableEq

inductive BraiinsDepositStatus
  | created
  | awaitingLnFunds
  | awaitingOnchainFunds
  | submarineSwapping
  | openingChannel
  | swapping
  | funded
  | sending
  | awaitingFeeReduction
  | broadcast
  | completed
  | refunded
  | failed
  | cancelled
deriving DecidableEq

def BraiinsDepositStatus.value : BraiinsDepositStatus → String
  | .created => "created"
  | .awaitingLnFunds => "awaiting_ln_funds"
  | .awaitingOnchainFunds => "awaiting_onchain_funds"
  | .submarineSwapping => "submarine_swapping"
  | .openingChannel => "opening_channel"
  | .swapping => "swapping"
  | .funded => "funded"
  | .sending => "sending"
  | .awaitingFeeReduction => "awaiting_fee_reduction"
  | .broadcast => "broadcast"
  | .completed => "completed"
  | .refunded => "refunded"
  | .failed => "failed"
  | .cancelled => "cancelled"

def BraiinsDepositStatus.terminal : BraiinsDepositStatus → Bool
  | .completed | .refunded | .failed | .cancelled => true
  | _ => false

inductive BraiinsDepositSourceKind
  | lightning
  | onchain
  | extLightning
  | extOnchain
deriving DecidableEq

inductive BraiinsDepositFundingStrategy
  | swap
  | channel
deriving DecidableEq

abbrev SwapId : Type := ℕ

abbrev SessionId : Type := ℕ

/-- The columns of `braiins_deposit_sessions` that decide which swaps a session
makes. The history keeps the statuses of its entries. -/
structure BraiinsDepositSession where
  sourceKind : BraiinsDepositSourceKind
  fundingStrategy : BraiinsDepositFundingStrategy := .swap
  status : BraiinsDepositStatus := .created
  statusHistory : List BraiinsDepositStatus := [.created]
  boltzSwapId : Option SwapId := none
  submarineBoltzSwapId : Option SwapId := none
  submarinePaymentHashHex : Option String := none
  submarineFundingTxid : Option String := none
  channelOpenTxid : Option String := none
  extIntakeReceivedSats : ℕ := 0
  refundTxid : Option String := none
  errorMessage : Option String := none
deriving DecidableEq

/-- `recover_pending_sessions` selects these, beside completed ones whose payment
may still be undone. -/
def BraiinsDepositSession.recoverable (session : BraiinsDepositSession) : Bool :=
  !session.status.terminal ||
    session.status = .failed && session.submarineBoltzSwapId.isSome && session.refundTxid.isNone

/-! ## Copies -/

/-- A column at a commit: written if the copy has changed it. -/
def column {α : Type} [DecidableEq α] (stored current row : α) : α := if current = stored then row else current

@[simp] lemma column_same {α : Type} [DecidableEq α] (stored row : α) : column stored stored row = row := if_pos rfl

@[simp] lemma column_stored {α : Type} [DecidableEq α] (stored current : α) : column stored current stored = current := by
  unfold column
  split
  case isTrue h => exact h.symm
  case isFalse => rfl

/-- A row in the memory of a session: what the session takes to be stored, and
what it has made of it. -/
structure Copy where
  id : SwapId
  stored : BoltzSwap
  current : BoltzSwap

namespace Copy

def load (id : SwapId) (row : BoltzSwap) : Copy := ⟨id, row, row⟩

def set (swap : Copy) (f : BoltzSwap → BoltzSwap) : Copy := { swap with current := f swap.current }

/-- After a commit. Attributes do not expire (`expire_on_commit=False`). -/
def saved (swap : Copy) : Copy := { swap with stored := swap.current }

def rolledBack (swap : Copy) : Copy := { swap with current := swap.stored }

/-- What the commit makes of the row. The other columns are never assigned. -/
def write (swap : Copy) (row : BoltzSwap) : BoltzSwap :=
  { row with
    status := column swap.stored.status swap.current.status row.status
    boltzStatus := column swap.stored.boltzStatus swap.current.boltzStatus row.boltzStatus
    errorMessage := column swap.stored.errorMessage swap.current.errorMessage row.errorMessage
    lndPaymentHash := column swap.stored.lndPaymentHash swap.current.lndPaymentHash row.lndPaymentHash
    lockupTxid := column swap.stored.lockupTxid swap.current.lockupTxid row.lockupTxid
    claimTxid := column swap.stored.claimTxid swap.current.claimTxid row.claimTxid
    recoveryCount := column swap.stored.recoveryCount swap.current.recoveryCount row.recoveryCount
    refunds := column swap.stored.refunds swap.current.refunds row.refunds }

end Copy

/-- A deposit session in the memory of a database session. -/
structure SessionCopy where
  id : SessionId
  stored : BraiinsDepositSession
  current : BraiinsDepositSession

namespace SessionCopy

def load (id : SessionId) (row : BraiinsDepositSession) : SessionCopy := ⟨id, row, row⟩

variable (session : SessionCopy)

def set (f : BraiinsDepositSession → BraiinsDepositSession) : SessionCopy :=
  { session with current := f session.current }

def saved : SessionCopy := { session with stored := session.current }

def rolledBack : SessionCopy := { session with current := session.stored }

def write (row : BraiinsDepositSession) : BraiinsDepositSession :=
  let s := session.stored
  let c := session.current
  { row with
    status := column s.status c.status row.status
    statusHistory := column s.statusHistory c.statusHistory row.statusHistory
    boltzSwapId := column s.boltzSwapId c.boltzSwapId row.boltzSwapId
    submarineBoltzSwapId := column s.submarineBoltzSwapId c.submarineBoltzSwapId row.submarineBoltzSwapId
    submarinePaymentHashHex := column s.submarinePaymentHashHex c.submarinePaymentHashHex row.submarinePaymentHashHex
    submarineFundingTxid := column s.submarineFundingTxid c.submarineFundingTxid row.submarineFundingTxid
    channelOpenTxid := column s.channelOpenTxid c.channelOpenTxid row.channelOpenTxid
    extIntakeReceivedSats := column s.extIntakeReceivedSats c.extIntakeReceivedSats row.extIntakeReceivedSats
    refundTxid := column s.refundTxid c.refundTxid row.refundTxid
    errorMessage := column s.errorMessage c.errorMessage row.errorMessage }

end SessionCopy

/-! ## Commands -/

/-- Who is meant to pay the invoice of a row: this wallet or the user's other
wallet (`create_reverse_swap`), or Boltz (`create_submarine_swap`). The row itself
does not say. -/
inductive Payer
  | wallet
  | user
  | boltz
deriving DecidableEq

/-- A message of `process_boltz_swap`. -/
structure Message where
  swapId : SwapId
  routingFeeLimitPercent : ℚ := 3
  retries : ℕ := 0

structure SendPayment where
  paymentRequest : String
  outgoingChanId : Option String
  feeLimitSats : ℤ
  timeoutSeconds : ℕ
  maxParts : ℕ
deriving DecidableEq

/-- The answer of Boltz to a status request: the status, and the id of the
transaction if one is given. -/
structure Report where
  status : Option String
  transactionId : Option String := none

structure Utxo where
  address : String
  txid : String

inductive Reader
  | processSwap
  | markSwapFailed
  | retryClaim
  | cancelSwap
  | cancelSwapping
  | cancelAwaiting
  | depositTick
deriving DecidableEq

/-- A command names the row it is about, if any. `sendPaymentV2` hands the payment
to LND and `paymentResult` awaits what comes of it. The two calls that fund a first
leg name the session that they fund. -/
inductive Command
  | selectSwap (reader : Reader) (id : SwapId)
  | selectPending
  | selectClaimTxid (id : SwapId) (forUpdate : Bool)
  | selectSessionForUpdate (id : SessionId)
  | selectRecoverable (id : SessionId)
  | commit (swaps : List Copy) (session : Option SessionCopy)
  | insertSwap (payer : Payer) (row : BoltzSwap)
  | close
  | delay (message : Message)
  | receive
  | retry (message : Message)
  | lookupPayment (id : SwapId) (paymentHash : String)
  | sendPaymentV2 (id : SwapId) (payment : SendPayment)
  | paymentResult (id : SwapId)
  | getSwapStatus (id : SwapId) (boltzSwapId : String)
  | getLockupTransaction (id : SwapId) (boltzSwapId : String)
  | cooperativeClaim (id : SwapId) (swap : BoltzSwap) (lockupHex : Option String)
  | unilateralClaim (id : SwapId) (swap : BoltzSwap) (lockupHex : String)
  | listUnspent (id : SwapId) (address : String)
  | optionalConfirmations (txid : String)
  | optionalVerifyTx (txid : String)
  | offerReverse (amountSats : ℕ) (destination : String) (outgoingChanId : Option String)
  | offerSubmarine (invoice : String) (amountSats : ℕ)
  | quote
  | newAddress
  | channelIsActive (txid : String)
  | connectPeer (pubkey host : String)
  | openChannel (session : SessionId) (pubkey : String) (capacitySats : ℕ)
  | createInvoice (amountSats : ℕ)
  | lookupInvoice (paymentHash : String)
  | inboundPreflight (receiveSats : ℕ)
  | sendCoins (session : SessionId) (address : Option String)
  | receivedDeposits
  | cooperativeRefund (id : SwapId) (address : String)
  | unilateralRefund (id : SwapId) (address : String)
  | currentBtcTipHeight
  | utcNow

/-- What Boltz offers, once it has passed the checks on it. -/
structure Offer where
  boltzSwapId : String
  lockupAddress : Option String := none
  timeoutBlockHeight : Option ℤ := none

structure Quote where
  invoiceAmountSats : ℕ
  submarineInvoiceAmountSats : ℕ
  /-- Why no channel can be opened for the amount, if so. -/
  channelIneligible : Option String := none
  channelCapacitySats : ℕ := 0

structure Invoice where
  paymentRequest : String
  paymentHash : String
  principalSats : Option ℕ := none
  settled : Bool := false

/-- Answers. A service that returns `(value, error)` answers with one of the two. -/
abbrev Reply : Command → Type
  | .selectSwap _ _ => Option BoltzSwap
  | .selectPending => List (SwapId × BoltzSwap)
  | .selectClaimTxid _ _ => Option String
  | .selectSessionForUpdate _ => Option BraiinsDepositSession
  | .selectRecoverable _ => Bool
  | .commit _ _ => Unit
  | .insertSwap _ _ => SwapId
  | .close => Unit
  | .delay _ => Unit
  | .receive => Message
  | .retry _ => Bool
  | .lookupPayment _ _ => Except String (Option String)
  | .sendPaymentV2 _ _ => Unit
  | .paymentResult _ => Except String (Option String)
  | .getSwapStatus _ _ => Except String Report
  | .getLockupTransaction _ _ => Except String (Option String)
  | .cooperativeClaim _ _ _ => Except String String
  | .unilateralClaim _ _ _ => Except String String
  | .listUnspent _ _ => Except String (List Utxo)
  | .optionalConfirmations _ => Option ℕ
  | .optionalVerifyTx _ => Option (List String)
  | .offerReverse _ _ _ => Except String (Offer × String)
  | .offerSubmarine _ _ => Except String Offer
  | .quote => Except String Quote
  | .newAddress => Except String String
  | .channelIsActive _ => Except String (Bool × Option String)
  | .connectPeer _ _ => Except String Unit
  | .openChannel _ _ _ => Except String String
  | .createInvoice _ => Except String Invoice
  | .lookupInvoice _ => Except String Invoice
  | .inboundPreflight _ => Option String
  | .sendCoins _ _ => Except String String
  | .receivedDeposits => Except String (ℕ × Bool)
  | .cooperativeRefund _ _ => Except String String
  | .unilateralRefund _ _ => Except String String
  | .currentBtcTipHeight => Option ℤ
  | .utcNow => ℕ

structure Raised where
  text : String

abbrev Code (α : Type) : Type := Lib.Task Command Reply Raised α

def call (c : Command) : Code (Reply c) := Lib.Task.call c

/-! ## The state -/

/-- The reports of Boltz after which a swap is over without a settled invoice. -/
def endReports : List String := ["invoice.expired", "swap.expired", "transaction.failed", "transaction.refunded"]

def definitive (error : String) : Bool := "Payment failed:".toList.isPrefixOf error.toList

def txidAt (address : String) (utxos : List Utxo) : Option String :=
  (utxos.find? fun u => u.address = address ∧ u.txid ≠ "").map Utxo.txid

/-- What has been said and done about a swap or a session. -/
inductive Event
  /-- Its invoice was handed to LND. -/
  | sent (id : SwapId) (invoice : String)
  /-- LND reported its payment as failed. -/
  | paymentFailed (id : SwapId)
  /-- Boltz reported its end, or Celery gave it up. -/
  | ended (id : SwapId)
  /-- A claim of it was made or seen. -/
  | claimed (id : SwapId) (txid : String)
  /-- A transaction that funds the lockup of its submarine swap was broadcast. -/
  | lockupFunded (session : SessionId)
  /-- A transaction that funds its channel was broadcast. -/
  | channelFunded (session : SessionId)
deriving DecidableEq

structure World (T : Type) where
  swaps : SwapId → Option BoltzSwap
  payer : SwapId → Payer
  sessions : SessionId → Option BraiinsDepositSession
  queue : List Message
  log : List Event
  /-- The row that the open session of a task has read. -/
  reading : T → Option (Reader × SwapId)
  /-- The row whose failed payment a task has been told of and has not committed. -/
  failing : T → Option SwapId
  /-- The funding that a task has broadcast, if it has not committed since. -/
  broadcasting : T → Option Event := fun _ => none

namespace World

variable {T : Type} [DecidableEq T]

variable (w : World T) (t : T)

def record (e : Event) : World T := { w with log := w.log ++ [e] }

def enqueue (message : Message) : World T := { w with queue := w.queue ++ [message] }

/-- `UPDATE` of one row, if it is there. -/
def writeSwap (swap : Copy) : World T :=
  { w with swaps := Function.update w.swaps swap.id ((w.swaps swap.id).map swap.write) }

def writeSession (session : SessionCopy) : World T :=
  { w with sessions := Function.update w.sessions session.id ((w.sessions session.id).map session.write) }

def write (swaps : List Copy) (session : Option SessionCopy) : World T :=
  session.elim (swaps.foldl writeSwap w) (swaps.foldl writeSwap w).writeSession

def committed : World T :=
  { w with
    failing := Function.update w.failing t none
    broadcasting := Function.update w.broadcasting t none }

def insert (id : SwapId) (payer : Payer) (row : BoltzSwap) : World T :=
  { w with
    swaps := Function.update w.swaps id (some row)
    payer := Function.update w.payer id payer }

def read (reader : Reader) (id : SwapId) : World T :=
  { w with reading := Function.update w.reading t (some (reader, id)) }

def close : World T :=
  { w with
    reading := Function.update w.reading t none
    failing := Function.update w.failing t none }

def tell (id : SwapId) : World T :=
  { w.record (.paymentFailed id) with failing := Function.update w.failing t (some id) }

def fund (e : Event) : World T :=
  { w.record e with broadcasting := Function.update w.broadcasting t (some e) }

end World

/-- `recover_pending_swaps` selects these. -/
def SwapStatus.pending : SwapStatus → Bool
  | .created | .payingInvoice | .invoicePaid | .claiming | .claimed => true
  | _ => false

def MAX_RETRIES : ℕ := 200

def failedPayment : Except Raised (Except String (Option String)) → Bool
  | .ok (.error error) => definitive error
  | _ => false

def endReport : Except Raised (Except String Report) → Bool
  | .ok (.ok report) => report.status.any (· ∈ endReports)
  | _ => false

def claimOf : Except Raised (Except String String) → Option String
  | .ok (.ok txid) => some txid
  | _ => none

def walletClaim (address : String) : Except Raised (Except String (List Utxo)) → Option String
  | .ok (.ok utxos) => txidAt address utxos
  | _ => none

/-- A call that funds a first leg. Whether the transaction went out is only known
if the call returns its id. -/
def Funds {α σ : Type} (r : Except Raised (Except String α)) (funded w w' : σ) : Prop :=
  w' = funded ∨ w' = w ∧ ∀ txid, r ≠ .ok (.ok txid)

/-- Whether the session is among the rows that `recover_pending_sessions` selects. -/
def Selects {T : Type} (w : World T) (id : SessionId) (selected : Bool) : Prop :=
  match w.sessions id with
  | none => selected = false
  | some session => session.status ≠ .completed → selected = session.recoverable

/-- A command that raises and does nothing. -/
def Fails {α σ : Type} (r : Except Raised α) (w w' : σ) : Prop := (∃ e, r = .error e) ∧ w' = w

/-- Any command but the last one of a session may raise; a commit may then have
been made or not. A message stays in the queue, as it may be delivered again. The
invoice of a reverse swap commits to a preimage that was drawn for it, so no other
row has that invoice. -/
def machine (T : Type) [DecidableEq T] : Machine T Command Reply Raised (World T) where
  exec t c w r w' :=
    match c with
    | .selectSwap reader id => r = .ok (w.swaps id) ∧ w' = w.read t reader id ∨ Fails r w w'
    | .selectPending =>
        (∃ rows, r = .ok rows ∧ rows.Nodup ∧
          (∀ id row, (id, row) ∈ rows ↔ w.swaps id = some row ∧ row.status.pending) ∧ w' = w) ∨ Fails r w w'
    | .selectClaimTxid id _ => r = .ok ((w.swaps id).bind BoltzSwap.claimTxid) ∧ w' = w ∨ Fails r w w'
    | .selectSessionForUpdate id => (r = .ok (w.sessions id) ∨ r = .ok none) ∧ w' = w ∨ Fails r w w'
    | .selectRecoverable id =>
        (∃ selected, r = .ok selected ∧ Selects w id selected ∧ w' = w) ∨ Fails r w w'
    | .commit swaps session =>
        w' = (w.write swaps session).committed t ∧ (r = .ok () ∨ ∃ e, r = .error e) ∨ Fails r w w'
    | .insertSwap payer row =>
        (∃ id, w.swaps id = none ∧ (r = .ok id ∨ ∃ e, r = .error e) ∧ w' = w.insert id payer row ∧
          ∀ id' row', w.swaps id' = some row' → row'.boltzInvoice = row.boltzInvoice →
            payer = .boltz ∧ w.payer id' = .boltz) ∨ Fails r w w'
    | .close => r = .ok () ∧ w' = w.close t
    | .delay message => r = .ok () ∧ w' = w.enqueue message ∨ Fails r w w'
    | .receive => ∃ message ∈ w.queue, r = .ok message ∧ w' = w
    | .retry message =>
        r = .ok (decide (message.retries < MAX_RETRIES)) ∧
        w' = if message.retries < MAX_RETRIES then w.enqueue { message with retries := message.retries + 1 }
          else w.record (.ended message.swapId)
    | .sendPaymentV2 id payment =>
        w' = w.record (.sent id payment.paymentRequest) ∧ (r = .ok () ∨ ∃ e, r = .error e) ∨ Fails r w w'
    | .paymentResult id => w' = if failedPayment r then w.tell t id else w
    | .getSwapStatus id _ => w' = if endReport r then w.record (.ended id) else w
    | .cooperativeClaim id _ _ => w' = (claimOf r).elim w fun txid => w.record (.claimed id txid)
    | .unilateralClaim id _ _ => w' = (claimOf r).elim w fun txid => w.record (.claimed id txid)
    | .listUnspent id address => w' = (walletClaim address r).elim w fun txid => w.record (.claimed id txid)
    | .sendCoins session _ => Funds r (w.fund t (.lockupFunded session)) w w'
    | .openChannel session _ _ => Funds r (w.fund t (.channelFunded session)) w w'
    | _ => w' = w
  env _ _ := False

/-! ## What a commit leaves -/

section Writes

variable {T : Type} {w : World T} {s : SwapId} {swaps : List Copy}

def World.status (w : World T) (s : SwapId) : Option SwapStatus := (w.swaps s).map BoltzSwap.status

lemma World.writeSwap_self (swap : Copy) : (w.writeSwap swap).swaps swap.id = (w.swaps swap.id).map swap.write :=
  update_self ..

lemma World.writeSwap_other {swap : Copy} (h : swap.id ≠ s) : (w.writeSwap swap).swaps s = w.swaps s :=
  update_of_ne (Ne.symm h) ..

lemma World.writeSession_self (session : SessionCopy) :
    (w.writeSession session).sessions session.id = (w.sessions session.id).map session.write :=
  update_self ..

lemma World.writeSession_other {session : SessionCopy} {id : SessionId} (h : id ≠ session.id) :
    (w.writeSession session).sessions id = w.sessions id :=
  update_of_ne h ..

/-- A commit changes the rows as the copies say, and the sessions as the session
copy says. -/
lemma World.write_swaps (w : World T) (swaps : List Copy) (session : Option SessionCopy) :
    (w.write swaps session).swaps = (swaps.foldl World.writeSwap w).swaps := by
  cases session with
  | none | some session => rfl

lemma World.foldl_writeSwap_other (w : World T) (swaps : List Copy) :
    swaps.foldl World.writeSwap w = { w with swaps := (swaps.foldl World.writeSwap w).swaps } := by
  induction swaps generalizing w with
  | nil => rfl
  | cons swap swaps ih => exact ih (w.writeSwap swap)

lemma World.write_eq (w : World T) (swaps : List Copy) (session : Option SessionCopy) :
    w.write swaps session = { w with
      swaps := (swaps.foldl World.writeSwap w).swaps
      sessions := session.elim w.sessions fun copy => (w.writeSession copy).sessions } := by
  cases session with
  | none => exact w.foldl_writeSwap_other swaps
  | some copy => exact congrArg (World.writeSession · copy) (w.foldl_writeSwap_other swaps)

lemma World.write_session {session : Option SessionCopy} {id : SessionId} {row : BraiinsDepositSession}
    (h : (w.write swaps session).sessions id = some row) : w.sessions id = some row ∨
      ∃ copy before, session = some copy ∧ copy.id = id ∧ w.sessions id = some before ∧ row = copy.write before := by
  rw [World.write_eq] at h
  cases session with
  | none => exact .inl h
  | some copy =>
    by_cases hid : copy.id = id
    · subst hid
      obtain ⟨before, hb, rfl⟩ := map_eq_some_iff.1 ((World.writeSession_self copy).symm.trans h)
      exact .inr ⟨copy, before, rfl, rfl, hb, rfl⟩
    · exact .inl ((World.writeSession_other (Ne.symm hid)).symm.trans h)

/-- What holds of the row whatever one copy writes, holds after a commit. -/
lemma World.foldl_writeSwap_induction {p : BoltzSwap → Prop}
    (hs : ∀ swap ∈ swaps, swap.id = s → ∀ row, p row → p (swap.write row)) (hw : ∀ row, w.swaps s = some row → p row) :
    ∀ row, (swaps.foldl World.writeSwap w).swaps s = some row → p row := by
  induction swaps generalizing w with
  | nil => exact hw
  | cons swap swaps ih =>
    apply ih (fun other hm => hs other (mem_cons_of_mem _ hm))
    intro row hr
    by_cases hid : swap.id = s
    · rw [← hid, World.writeSwap_self] at hr
      obtain ⟨before, hb, rfl⟩ := map_eq_some_iff.1 hr
      exact hs swap mem_cons_self hid before (hw before (hid ▸ hb))
    · rw [World.writeSwap_other hid] at hr
      exact hw row hr

lemma World.foldl_writeSwap_isSome : ((swaps.foldl World.writeSwap w).swaps s).isSome = (w.swaps s).isSome := by
  induction swaps generalizing w with
  | nil => rfl
  | cons swap swaps ih =>
    rw [foldl_cons, ih]
    by_cases hid : swap.id = s
    · rw [← hid, World.writeSwap_self, isSome_map]
    · rw [World.writeSwap_other hid]

lemma World.foldl_writeSwap_row {p : BoltzSwap → Prop} {row : BoltzSwap} (hr : w.swaps s = some row) (hp : p row)
    (hs : ∀ swap ∈ swaps, swap.id = s → ∀ row, p row → p (swap.write row)) :
    ∃ row', (swaps.foldl World.writeSwap w).swaps s = some row' ∧ p row' := by
  have hso : ((swaps.foldl World.writeSwap w).swaps s).isSome := by
    rw [World.foldl_writeSwap_isSome, hr]
    rfl
  obtain ⟨row', hr'⟩ := isSome_iff_exists.1 hso
  refine ⟨row', hr', World.foldl_writeSwap_induction hs (fun other ho => ?_) row' hr'⟩
  cases hr.symm.trans ho
  exact hp

lemma World.write_reading (w : World T) (swaps : List Copy) (session : Option SessionCopy) :
    (w.write swaps session).reading = w.reading := by
  rw [World.write_eq]

lemma World.write_failing (w : World T) (swaps : List Copy) (session : Option SessionCopy) :
    (w.write swaps session).failing = w.failing := by
  rw [World.write_eq]

lemma World.write_status (w : World T) (swaps : List Copy) (session : Option SessionCopy) :
    (w.write swaps session).status s = (swaps.foldl World.writeSwap w).status s := by
  unfold World.status
  rw [World.write_swaps]

end Writes

/-! ## What a step leaves -/

def Command.writes : Command → Bool
  | .commit _ _ | .insertSwap _ _ | .delay _ | .retry _ => true
  | _ => false

def Command.funds : Command → Bool
  | .sendCoins _ _ | .openChannel _ _ _ => true
  | _ => false

/-- A step that leaves the tables and the queue, and what is known of the other
tasks. -/
structure Frame {T : Type} (t : T) (w w' : World T) : Prop where
  swaps : w'.swaps = w.swaps
  payer : w'.payer = w.payer
  sessions : w'.sessions = w.sessions
  queue : w'.queue = w.queue
  reading : ∀ u, u ≠ t → w'.reading u = w.reading u
  failing : ∀ u, u ≠ t → w'.failing u = w.failing u

variable {c : Command}

section Steps

variable {T : Type} {t : T} {w w' : World T}

lemma Frame.refl (t : T) (w : World T) : Frame t w w := ⟨rfl, rfl, rfl, rfl, fun _ _ => rfl, fun _ _ => rfl⟩

lemma Frame.record (t : T) (w : World T) (e : Event) : Frame t w (w.record e) :=
  ⟨rfl, rfl, rfl, rfl, fun _ _ => rfl, fun _ _ => rfl⟩

variable [DecidableEq T]

lemma Frame.read (t : T) (w : World T) (reader : Reader) (id : SwapId) : Frame t w (w.read t reader id) :=
  ⟨rfl, rfl, rfl, rfl, fun _ hu => update_of_ne hu .., fun _ _ => rfl⟩

lemma Frame.close (t : T) (w : World T) : Frame t w (w.close t) :=
  ⟨rfl, rfl, rfl, rfl, fun _ hu => update_of_ne hu .., fun _ hu => update_of_ne hu ..⟩

lemma Frame.tell (t : T) (w : World T) (id : SwapId) : Frame t w (w.tell t id) :=
  ⟨rfl, rfl, rfl, rfl, fun _ _ => rfl, fun _ hu => update_of_ne hu ..⟩

lemma Frame.fund (t : T) (w : World T) (e : Event) : Frame t w (w.fund t e) :=
  ⟨rfl, rfl, rfl, rfl, fun _ _ => rfl, fun _ _ => rfl⟩

/-- The events that the answer to a command can leave. -/
def Says (c : Command) (r : Except Raised (Reply c)) (e : Event) : Prop :=
  match c with
  | .retry message => e = .ended message.swapId
  | .sendPaymentV2 id payment => e = .sent id payment.paymentRequest
  | .paymentResult id => failedPayment r = true ∧ e = .paymentFailed id
  | .getSwapStatus id _ => endReport r = true ∧ e = .ended id
  | .cooperativeClaim id _ _ => ∃ txid, claimOf r = some txid ∧ e = .claimed id txid
  | .unilateralClaim id _ _ => ∃ txid, claimOf r = some txid ∧ e = .claimed id txid
  | .listUnspent id address => ∃ txid, walletClaim address r = some txid ∧ e = .claimed id txid
  | .sendCoins session _ => e = .lockupFunded session
  | .openChannel session _ _ => e = .channelFunded session
  | _ => False

inductive Effect (t : T) (w : World T) : (c : Command) → Except Raised (Reply c) → World T → Prop
  | nothing {c : Command} {r : Except Raised (Reply c)} : Effect t w c r w
  | speaks {c : Command} {r : Except Raised (Reply c)} {e : Event} (hc : c.funds = false) (h : Says c r e) :
    Effect t w c r (w.record e)
  | funds {c : Command} {r : Except Raised (Reply c)} {e : Event} (hc : c.funds = true) (h : Says c r e) :
    Effect t w c r (w.fund t e)
  | tells {id : SwapId} {r : Except Raised (Reply (.paymentResult id))} (h : failedPayment r = true) :
    Effect t w (.paymentResult id) r (w.tell t id)
  | reads {reader : Reader} {id : SwapId} {r : Except Raised (Reply (.selectSwap reader id))} :
    Effect t w (.selectSwap reader id) r (w.read t reader id)
  | closes {r : Except Raised (Reply .close)} : Effect t w .close r (w.close t)
  | commits {swaps : List Copy} {session : Option SessionCopy} {r : Except Raised (Reply (.commit swaps session))} :
    Effect t w (.commit swaps session) r ((w.write swaps session).committed t)
  | inserts {payer : Payer} {row : BoltzSwap} {r : Except Raised (Reply (.insertSwap payer row))} {id : SwapId} :
    Effect t w (.insertSwap payer row) r (w.insert id payer row)
  | delays {message : Message} {r : Except Raised (Reply (.delay message))} :
    Effect t w (.delay message) r (w.enqueue message)
  | retries {message : Message} {r : Except Raised (Reply (.retry message))} :
    Effect t w (.retry message) r (w.enqueue { message with retries := message.retries + 1 })

variable {r : Except Raised (Reply c)}

lemma effect_claimed {id : SwapId} {claim : Option String} (hc : c.funds = false)
    (h : ∀ txid, claim = some txid → Says c r (.claimed id txid)) :
    Effect t w c r (claim.elim w fun txid => w.record (.claimed id txid)) := by
  cases claim with
  | none => exact .nothing
  | some txid => exact .speaks hc (h txid rfl)

lemma exec_effect (hx : (machine T).exec t c w r w') : Effect t w c r w' := by
  cases c with
  | selectSwap reader id =>
    rcases hx with ⟨-, rfl⟩ | ⟨-, rfl⟩
    · exact .reads
    · exact .nothing
  | selectPending =>
    rcases hx with ⟨_, -, -, -, rfl⟩ | ⟨-, rfl⟩ <;> exact .nothing
  | selectClaimTxid id forUpdate | selectSessionForUpdate id =>
    rcases hx with ⟨-, rfl⟩ | ⟨-, rfl⟩ <;> exact .nothing
  | selectRecoverable id =>
    rcases hx with ⟨selected, -, -, rfl⟩ | ⟨-, rfl⟩ <;> exact .nothing
  | commit swaps session =>
    rcases hx with ⟨rfl, -⟩ | ⟨-, rfl⟩
    · exact .commits
    · exact .nothing
  | insertSwap payer row =>
    rcases hx with ⟨id, -, -, rfl, -⟩ | ⟨-, rfl⟩
    · exact .inserts
    · exact .nothing
  | close =>
    obtain ⟨-, rfl⟩ := hx
    exact .closes
  | delay message =>
    rcases hx with ⟨-, rfl⟩ | ⟨-, rfl⟩
    · exact .delays
    · exact .nothing
  | receive =>
    obtain ⟨message, -, -, rfl⟩ := hx
    exact .nothing
  | retry message =>
    obtain ⟨-, rfl⟩ := hx
    split
    · exact .retries
    · exact .speaks rfl rfl
  | sendPaymentV2 id payment =>
    rcases hx with ⟨rfl, -⟩ | ⟨-, rfl⟩
    · exact .speaks rfl rfl
    · exact .nothing
  | paymentResult id =>
    subst hx
    split
    case isTrue h => exact .tells h
    case isFalse => exact .nothing
  | getSwapStatus id boltzSwapId =>
    subst hx
    split
    case isTrue h => exact .speaks rfl ⟨h, rfl⟩
    case isFalse => exact .nothing
  | cooperativeClaim id swap lockupHex | unilateralClaim id swap lockupHex | listUnspent id address =>
    subst hx
    exact effect_claimed rfl fun txid h => ⟨txid, h, rfl⟩
  | sendCoins session address | openChannel session pubkey capacitySats =>
    rcases hx with rfl | ⟨rfl, -⟩
    · exact .funds rfl rfl
    · exact .nothing
  | _ => exact (show w' = w from hx) ▸ .nothing

lemma exec_frame (hc : c.writes = false) (hx : (machine T).exec t c w r w') : Frame t w w' := by
  cases exec_effect hx with
  | nothing => exact .refl t w
  | speaks _ _ => exact .record t w _
  | funds _ _ => exact .fund t w _
  | tells _ => exact .tell t w _
  | reads => exact .read t w _ _
  | closes => exact .close t w
  | _ => cases hc

def Command.opens : Command → Bool
  | .selectSwap _ _ | .close => true
  | _ => false

lemma exec_reading (hc : c.opens = false) (hx : (machine T).exec t c w r w') : w'.reading = w.reading := by
  cases exec_effect hx with
  | reads | closes => cases hc
  | commits => exact w.write_reading _ _
  | _ => rfl

/-- The commands after which a task knows more or less of a failed payment. -/
def Command.tells : Command → Bool
  | .commit _ _ | .close | .paymentResult _ => true
  | _ => false

lemma exec_failing (hc : c.tells = false) (hx : (machine T).exec t c w r w') : w'.failing = w.failing := by
  cases exec_effect hx with
  | tells | closes | commits => cases hc
  | _ => rfl

lemma World.write_log (w : World T) (swaps : List Copy) (session : Option SessionCopy) :
    (w.write swaps session).log = w.log := by
  rw [World.write_eq]

lemma exec_log (hx : (machine T).exec t c w r w') : w'.log = w.log ∨ ∃ e, w'.log = w.log ++ [e] ∧ Says c r e := by
  cases exec_effect hx with
  | speaks _ h | funds _ h => exact .inr ⟨_, rfl, h⟩
  | tells h => exact .inr ⟨_, rfl, h, rfl⟩
  | commits => exact .inl (w.write_log _ _)
  | _ => exact .inl rfl

def World.sends (w : World T) : List (SwapId × String) :=
  w.log.filterMap fun
    | .sent id invoice => some (id, invoice)
    | _ => none

lemma exec_sends (hx : (machine T).exec t c w r w') : w'.sends = w.sends ∨
      ∃ id payment, c = .sendPaymentV2 id payment ∧ w'.sends = w.sends ++ [(id, payment.paymentRequest)] := by
  unfold World.sends
  rcases exec_log hx with hl | ⟨e, hl, hs⟩
  · exact .inl (by rw [hl])
  rw [hl, filterMap_append]
  cases e with
  | sent id invoice =>
    obtain ⟨payment, rfl, rfl⟩ : ∃ payment, c = .sendPaymentV2 id payment ∧ payment.paymentRequest = invoice := by
      cases c <;> simp_all [Says]
    exact .inr ⟨id, payment, rfl, rfl⟩
  | _ => exact .inl (append_nil _)

end Steps

end AgentWallet.Swaps
