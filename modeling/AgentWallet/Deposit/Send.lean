import AgentWallet.Swaps.Store
/-!
# The last send of a deposit (`_advance_funded`, `_reconcile_after_send_crash`)

A funded session sends its fresh output to the destination, whole (dust-safe) or
the exact amount with change. It is SENDING from before the call to LND until the
transaction is recorded. A tick that finds it so asks LND what became of the
output: it is still there, and the send is tried again, or a listed transaction
spends it and pays the destination at least the amount of the deposit.

A parked session can be sent below that amount with the consent of the operator
(`retry_send`). The consent is a column that is cleared when the session becomes
SENDING, so a send that did not go out has lost it, and one that did is not found
(`send_not_recognised`). Without a consent the tick gets it right
(`send_recognised_iff`).
-/

namespace AgentWallet.Deposit

open AgentWallet.Lib List Machine Except
open AgentWallet.Swaps (BraiinsDepositStatus Raised column)

/-! ## Sessions and the wallet -/

/-- The columns of `braiins_deposit_sessions` that the send reads or writes. -/
structure Session where
  status : BraiinsDepositStatus
  depositAmountSats : ℕ
  destinationAddress : String
  includeExtras : Bool := true
  freshUtxoTxid : Option String
  freshUtxoVout : Option ℕ
  freshUtxoAmountSats : Option ℕ
  sendTxid : Option String := none
  actualSentSats : Option ℕ := none
  broadcastBlockHeight : Option ℕ := none
  sendInfeasibleReason : Option String := none
  errorMessage : Option String := none
deriving DecidableEq

/-- What a commit of a copy that was read as `before` makes of the row. -/
def Session.write (before after row : Session) : Session :=
  { row with
    status := column before.status after.status row.status
    sendTxid := column before.sendTxid after.sendTxid row.sendTxid
    actualSentSats := column before.actualSentSats after.actualSentSats row.actualSentSats
    broadcastBlockHeight := column before.broadcastBlockHeight after.broadcastBlockHeight row.broadcastBlockHeight
    sendInfeasibleReason := column before.sendInfeasibleReason after.sendInfeasibleReason row.sendInfeasibleReason
    errorMessage := column before.errorMessage after.errorMessage row.errorMessage }

structure Outpoint where
  txid : String
  vout : ℕ
deriving DecidableEq

/-- As LND lists the inputs of a transaction. -/
def Outpoint.text (o : Outpoint) : String := o.txid ++ ":" ++ toString o.vout

structure Utxo where
  outpoint : Outpoint
  amountSats : ℕ

structure TxOutput where
  address : String
  amount : ℕ

structure WalletTx where
  txid : String
  previousOutpoints : List String
  outputDetails : List TxOutput

/-- What LND lists. An output is spent by one listed transaction or by none, and is
unspent in the latter case only. -/
structure Wallet where
  unspent : List Utxo
  transactions : List WalletTx
  unspent_open : ∀ tx ∈ transactions, ∀ u ∈ unspent, u.outpoint.text ∉ tx.previousOutpoints
  spent_once : ∀ tx ∈ transactions, ∀ tx' ∈ transactions, ∀ p ∈ tx.previousOutpoints,
    p ∈ tx'.previousOutpoints → tx = tx'
  named : ∀ tx ∈ transactions, tx.txid ≠ ""

/-! ## Commands -/

/-- A request of `send_coins` with one pinned input. Without an amount it is
`send_all`. -/
structure SendCoins where
  address : String
  amountSats : Option ℕ
  satPerVbyte : ℕ
  outpoint : Outpoint

inductive Command
  | selectForUpdate
  | commit (before after : Session)
  | getRecommendedFees
  | sendCoins (request : SendCoins)
  | listUnspent
  | getTransactions
  | tipHeight

/-- Answers. The fee is that of the priority of sends, if it is known. -/
abbrev Reply : Command → Type
  | .selectForUpdate => Option Session
  | .commit _ _ => Unit
  | .getRecommendedFees => Option ℕ
  | .sendCoins _ => Except String String
  | .listUnspent => Except String (List Outpoint)
  | .getTransactions => Except String (List WalletTx)
  | .tipHeight => Option ℕ

abbrev Code (α : Type) : Type := Lib.Task Command Reply Raised α

def call (c : Command) : Code (Reply c) := Lib.Task.call c

structure World where
  row : Session
  wallet : Wallet

def defaultEstimatedVbytes : ℕ := 140

def minVbytes : ℕ := 100

def projectedFee (satPerVbyte : ℕ) : ℕ := max minVbytes defaultEstimatedVbytes * satPerVbyte

/-- The transaction that LND builds for a request. With `send_all` its fee is at
most the projected one, as the estimate of its size is an upper bound. -/
def Builds (request : SendCoins) (unspent : List Utxo) (tx : WalletTx) : Prop :=
  tx.previousOutpoints = [request.outpoint.text] ∧
    ∃ u ∈ unspent, u.outpoint = request.outpoint ∧
      match request.amountSats with
      | some amount => ⟨request.address, amount⟩ ∈ tx.outputDetails
      | none => ∃ fee ≤ projectedFee request.satPerVbyte, fee < u.amountSats ∧
          tx.outputDetails = [⟨request.address, u.amountSats - fee⟩]

/-- The transaction goes out, and LND lists it. -/
def Broadcasts (request : SendCoins) (w : World) (tx : WalletTx) (w' : World) : Prop :=
  Builds request w.wallet.unspent tx ∧ w'.row = w.row ∧ w'.wallet.transactions = tx :: w.wallet.transactions ∧
    w'.wallet.unspent = w.wallet.unspent.filter fun u => u.outpoint.text ∉ tx.previousOutpoints

/-- Whether a transaction went out is only known if its id is returned. -/
def machine : Machine Unit Command Reply Raised World where
  exec _ c w r w' :=
    match c with
    | .selectForUpdate => (r = .ok (some w.row) ∨ r = .ok none ∨ ∃ e, r = .error e) ∧ w' = w
    | .commit before after =>
        w' = { w with row := before.write after w.row } ∧ (r = .ok () ∨ ∃ e, r = .error e) ∨
          (∃ e, r = .error e) ∧ w' = w
    | .sendCoins request =>
        (∃ tx, Broadcasts request w tx w' ∧ ∀ txid, r = .ok (.ok txid) → txid = tx.txid) ∨
          w' = w ∧ ∀ txid, r = .ok (.ok txid) → txid = ""
    | .listUnspent => w' = w ∧ ∀ outpoints, r = .ok (.ok outpoints) → outpoints = w.wallet.unspent.map Utxo.outpoint
    | .getTransactions => w' = w ∧ ∀ txns, r = .ok (.ok txns) → txns.Perm w.wallet.transactions
    | .getRecommendedFees => w' = w
    | .tipHeight => w' = w ∧ ∃ tip, r = .ok tip
  env _ _ := False

/-! ## The code -/

inductive Priority
  | low
  | medium
  | high

def Priority.fallbackFeeVbytes : Priority → ℕ
  | .low => 2
  | .medium => 6
  | .high => 20

structure Settings where
  sendFeePriority : Priority := .medium
  dustPreventionEnabled : Bool := true

/-- The fee rate, from the mempool if it is known there. -/
def satPerVbyte (settings : Settings) : Except Raised (Option ℕ) → ℕ
  | .ok (some v) => max 1 v
  | _ => settings.sendFeePriority.fallbackFeeVbytes

/-- `project_no_change_send`: what arrives. -/
def projectNoChangeSend (sourceValueSats satPerVbyte : ℕ) : Option ℕ :=
  if sourceValueSats = 0 ∨ satPerVbyte = 0 then none
  else if sourceValueSats ≤ projectedFee satPerVbyte then none
  else some (sourceValueSats - projectedFee satPerVbyte)

def operatorAcceptUnderpay : String := "operator_accept_underpay"

/-- The consent of the operator to an amount below that of the deposit. -/
def Session.consents (s : Session) : Bool := s.sendInfeasibleReason = some operatorAcceptUnderpay

variable (settings : Settings) (s : Session)

def useDustSafe : Bool := settings.dustPreventionEnabled && s.includeExtras

/-- Why the session is parked rather than sent, if so. -/
def infeasible (rate : ℕ) : Option String :=
  if useDustSafe settings s then
    match projectNoChangeSend (s.freshUtxoAmountSats.getD 0) rate with
    | none => some "fees_too_high_for_no_change_send"
    | some arrived =>
      if arrived < s.depositAmountSats ∧ ¬ s.consents then some "would_underpay_bin" else none
  else none

def transientSendMarkers : List String :=
  ["request failed", "connection failed", "event loop is closed", "timed out", "timeout", "temporarily unavailable",
    "did not reach a terminal state", "proxyerror", "proxy error", "socks", "readtimeout", "connecterror",
    "connection refused", "service unavailable"]

def isTransientSendError (msg : String) : Bool :=
  transientSendMarkers.any fun marker => decide (marker.toList <:+: (msg.map Char.toLower).toList)

/-- `except BraiinsDepositError` -/
def hardFail (text : String) : Code Unit :=
  call (.commit s { s with status := .failed, errorMessage := some text })

/-- `except Exception` -/
def transient (s : Session) (text : String) : Code Unit :=
  call (.commit s { s with errorMessage := some ("transient: " ++ text) })

def guarded {α : Type} (s : Session) (code : Code α) (next : α → Code Unit) : Code Unit := do
  match ← code.attempt with
  | .ok answer => next answer
  | .error e => transient s e.text

def save (before after : Session) (next : Code Unit) : Code Unit :=
  guarded before (call (.commit before after)) fun _ => next

def parkForFeeReduction (reason : String) : Code Unit :=
  save s { s with status := .awaitingFeeReduction, sendInfeasibleReason := some reason } (return ())

def recordSend (txid : String) (actualSent : ℕ) : Code Unit := do
  let tip : Option ℕ ← call .tipHeight
  save s { s with
    status := .broadcast
    sendTxid := some txid
    actualSentSats := some actualSent
    broadcastBlockHeight := tip <|> s.broadcastBlockHeight } (return ())

/-- A call that has not returned an id: the session is kept SENDING if that looks
like a lost connection. -/
def sendFailed (msg : String) (transientText : String) : Code Unit :=
  if isTransientSendError msg then transient s transientText else hardFail s ("On-chain send failed: " ++ msg)

def send (settings : Settings) (s : Session) (outpoint : Outpoint) (rate : ℕ) : Code Unit :=
  if useDustSafe settings s then
    let value := s.freshUtxoAmountSats.getD 0
    if value ≤ projectedFee rate then parkForFeeReduction s "fees_too_high_for_no_change_send"
    else do
      match ← (call (.sendCoins ⟨s.destinationAddress, none, rate, outpoint⟩)).attempt with
      | .error e => sendFailed s e.text e.text
      | .ok (.error err) => sendFailed s ("dust-safe send failed: " ++ err) ("dust-safe send failed: " ++ err)
      | .ok (.ok txid) =>
        let msg := "dust-safe send failed: no txid returned"
        if txid = "" then sendFailed s msg msg else recordSend s txid (value - projectedFee rate)
  else do
    match ← (call (.sendCoins ⟨s.destinationAddress, some s.depositAmountSats, rate, outpoint⟩)).attempt with
    | .error e => transient s e.text
    | .ok (.error err) => sendFailed s err ("On-chain send interrupted (transient): " ++ err)
    | .ok (.ok txid) =>
      if txid = "" then sendFailed s "no txid returned" "On-chain send interrupted (transient): no txid returned"
      else recordSend s txid s.depositAmountSats

def Session.toSending : Session := { s with status := .sending, sendInfeasibleReason := none }

def advanceFunded : Code Unit :=
  match s.freshUtxoTxid, s.freshUtxoVout with
  | some txid, some vout => do
    let fees ← (call .getRecommendedFees).attempt
    let rate := satPerVbyte settings fees
    match infeasible settings s rate with
    | some reason => parkForFeeReduction s reason
    | none => save s s.toSending (send settings s.toSending ⟨txid, vout⟩ rate)
  | _, _ => hardFail s "FUNDED but fresh outpoint not recorded"

/-- The loop of `_find_send_txid_via_transactions`: the transaction and the amount
that it pays. -/
def findSend (s : Session) (pinned : Outpoint) : List WalletTx → Option (String × ℕ)
  | [] => none
  | tx :: txns =>
    let paid := tx.outputDetails.find? fun o => o.address = s.destinationAddress ∧ s.depositAmountSats ≤ o.amount
    match paid with
    | some o =>
      if pinned.text ∈ tx.previousOutpoints ∧ tx.txid ≠ "" then some (tx.txid, o.amount) else findSend s pinned txns
    | none => findSend s pinned txns

def findSendTxidViaTransactions (pinned : Outpoint) : Code (Option (String × ℕ)) := do
  match ← (call .getTransactions).attempt with
  | .ok (.ok txns) => return findSend s pinned txns
  | _ => return none

def reconcileAfterSendCrash : Code Unit :=
  match s.freshUtxoTxid, s.freshUtxoVout with
  | some txid, some vout =>
    guarded s (call .listUnspent) fun
    | .error _ => return ()
    | .ok outpoints =>
      if ⟨txid, vout⟩ ∈ outpoints then save s { s with status := .funded } (return ())
      else
        guarded s (findSendTxidViaTransactions s ⟨txid, vout⟩) fun
        | some (sentTxid, recovered) => recordSend s sentTxid recovered
        | none => hardFail s ("Could not reconcile after crash — outpoint spent but " ++
            "no matching wallet tx found. Operator inspection required.")
  | _, _ => hardFail s "SENDING but fresh outpoint not recorded"

def advanceAwaitingFeeReduction : Code Unit :=
  match s.freshUtxoAmountSats, s.freshUtxoTxid with
  | some (value + 1), some _ => do
    let fees ← (call .getRecommendedFees).attempt
    match projectNoChangeSend (value + 1) (satPerVbyte settings fees) with
    | none => return ()
    | some arrived =>
      if arrived < s.depositAmountSats then return ()
      else save s { s with status := .funded, sendInfeasibleReason := none } (return ())
  | _, _ => return ()

def dispatch : Code Unit :=
  match s.status with
  | .funded => advanceFunded settings s
  | .awaitingFeeReduction => advanceAwaitingFeeReduction settings s
  | .sending => reconcileAfterSendCrash s
  | _ => return ()

def advance : Code Unit := do
  let row : Option Session ← call .selectForUpdate
  match row with
  | none => return ()
  | some s => dispatch settings s

def retrySend (acceptUnderpay : Bool) : Code (Bool × Option String) := do
  let row : Option Session ← call .selectForUpdate
  match row with
  | none => return (false, some "Session not found")
  | some s =>
    if s.status ∉ [BraiinsDepositStatus.failed, .awaitingFeeReduction] then
      return (false, some ("Retry is only available on failed or awaiting-fee-reduction sessions (got " ++
        s.status.value ++ ")"))
    else if s.freshUtxoTxid = none then return (false, some "No fresh transaction recorded — cannot retry send")
    else
      let _ : Unit ← call (.commit s { s with
        status := .funded
        errorMessage := none
        sendInfeasibleReason := if acceptUnderpay then some operatorAcceptUnderpay else none })
      return (true, none)

/-! ## A tick of a funded session -/

/-- The answers that keep a session SENDING, or record the transaction. -/
def KeepsSending : Except Raised (Except String String) → Bool
  | .error e => isTransientSendError e.text
  | .ok (.error err) => isTransientSendError err
  | .ok (.ok txid) => txid ≠ ""

/-- An answer that does not look like a lost connection means that nothing went out. -/
def Definite (_ : Unit) (c : Command) (w : World) (r : Except Raised (Reply c)) (w' : World) : Prop :=
  match c with
  | .sendCoins _ => w' = w ∨ KeepsSending r = true
  | _ => True

abbrev definite : Machine Unit Command Reply Raised World := machine.restrict Definite fun _ _ => True

structure Funded (s : Session) (pinned : Outpoint) (w : World) : Prop where
  row : w.row = s
  status : s.status = .funded
  txid : s.freshUtxoTxid = some pinned.txid
  vout : s.freshUtxoVout = some pinned.vout
  unspent : ∃ u ∈ w.wallet.unspent, u.outpoint = pinned
  value : ∀ u ∈ w.wallet.unspent, u.outpoint = pinned → s.freshUtxoAmountSats = some u.amountSats

/-- The transaction of a send: whole, and below the amount of the deposit only with
the consent of the operator, or the exact amount. -/
def Sent (settings : Settings) (s : Session) (pinned : Outpoint) (tx : WalletTx) : Prop :=
  tx.previousOutpoints = [pinned.text] ∧
    if useDustSafe settings s then
      ∃ arrived, tx.outputDetails = [⟨s.destinationAddress, arrived⟩] ∧
        (s.consents = true ∨ s.depositAmountSats ≤ arrived)
    else ⟨s.destinationAddress, s.depositAmountSats⟩ ∈ tx.outputDetails

/-- The columns that no commit writes. -/
structure SameDeposit (s row : Session) : Prop where
  amount : row.depositAmountSats = s.depositAmountSats
  destination : row.destinationAddress = s.destinationAddress
  txid : row.freshUtxoTxid = s.freshUtxoTxid
  vout : row.freshUtxoVout = s.freshUtxoVout

/-- What a tick of a funded session has done so far. -/
structure Tried (settings : Settings) (s : Session) (pinned : Outpoint) (w₀ w : World) : Prop where
  same : SameDeposit s w.row
  sending : w.row.status = .sending → w.row.sendInfeasibleReason = none
  failed : w.row.status = .failed → w.wallet = w₀.wallet
  wallet : w.wallet = w₀.wallet ∨ ∃ tx, Sent settings s pinned tx ∧ w.wallet.transactions = tx :: w₀.wallet.transactions

variable {row : Session} {rate : ℕ}

section Funded

variable {settings : Settings} {s before after : Session} {pinned : Outpoint} {w₀ w w' : World}

lemma Tried.commit (h : Tried settings s pinned w₀ w)
    (hs : (before.write after w.row).status = .sending → (before.write after w.row).sendInfeasibleReason = none)
    (hf : (before.write after w.row).status = .failed → w.wallet = w₀.wallet) :
    Tried settings s pinned w₀ { w with row := before.write after w.row } where
  same := ⟨h.same.amount, h.same.destination, h.same.txid, h.same.vout⟩
  sending := hs
  failed := hf
  wallet := h.wallet

lemma Tried.transient (h : Tried settings s pinned w₀ w) (text : Option String) :
    Tried settings s pinned w₀ { w with row := before.write { before with errorMessage := text } w.row } := by
  refine h.commit ?_ ?_
  · simpa [Session.write] using h.sending
  · simpa [Session.write] using h.failed

def MaySend (settings : Settings) (s : Session) (pinned : Outpoint) (w₀ : World) (request : SendCoins) (w : World) :
    Prop :=
  w.wallet = w₀.wallet ∧ w.row.status = .sending ∧
    ∀ tx, Builds request w₀.wallet.unspent tx → Sent settings s pinned tx

def sendOnce (settings : Settings) (s : Session) (pinned : Outpoint) (w₀ : World) : Protocol definite where
  inv := Tried settings s pinned w₀
  pre _ c w :=
    match c with
    | .commit before after => Tried settings s pinned w₀ { w with row := before.write after w.row }
    | .sendCoins request => MaySend settings s pinned w₀ request w
    | _ => True
  rely _ w w' := w' = w
  exec := by
    rintro ⟨⟩ c w w' r hi hpre ⟨-, hx⟩
    refine ⟨?_, fun u hu => (hu (Subsingleton.elim u ())).elim⟩
    cases c with
    | selectForUpdate => exact hx.2 ▸ hi
    | commit before after =>
      rcases hx with ⟨rfl, -⟩ | ⟨-, rfl⟩
      · exact hpre
      · exact hi
    | getRecommendedFees => exact (show w' = w from hx) ▸ hi
    | sendCoins request =>
      obtain ⟨hwallet, hstatus, hsent⟩ := hpre
      rcases hx with ⟨tx, ⟨hbuilds, hrow, htransactions, -⟩, -⟩ | ⟨rfl, -⟩
      · rw [hwallet] at hbuilds htransactions
        refine ⟨hrow ▸ hi.same, fun h => ?_, fun h => ?_, .inr ⟨tx, hsent tx hbuilds, htransactions⟩⟩
        · rw [hrow] at h ⊢
          exact hi.sending h
        · rw [hrow, hstatus] at h
          cases h
      · exact hi
    | _ => exact hx.1 ▸ hi
  env := by
    rintro w w' - ⟨-, hfalse⟩
    exact hfalse.elim

lemma stable_sendOnce (A : World → Prop) : (sendOnce settings s pinned w₀).Stable () A := by
  rintro w w' - - rfl h
  exact h

/-- The tick still has the wallet it started with, and knows its row. -/
def Knows (w₀ : World) (row : Session) (w : World) : Prop := w.row = row ∧ w.wallet = w₀.wallet

variable {A : World → Prop} {α : Type}

lemma transient_once (row : Session) (text : String) :
    (sendOnce settings s pinned w₀).Obeys () (transient row text) A := by
  refine .call (fun _ => stable_sendOnce _) fun w r w' hi _ _ => ⟨?_, fun _ => trivial⟩
  exact Tried.transient hi _

lemma save_once {next : Code Unit}
    (ht : ∀ w, Tried settings s pinned w₀ w → A w → Tried settings s pinned w₀ { w with row := row.write after w.row })
    {B : World → Prop} (hB : ∀ w, A w → B { w with row := row.write after w.row })
    (hn : (sendOnce settings s pinned w₀).Obeys () next B) :
    (sendOnce settings s pinned w₀).Obeys () (save row after next) A := by
  have hc : (sendOnce settings s pinned w₀).Safe () (fun r w => r = .ok () → B w)
      (call (.commit row after)) A := by
    refine .call (fun _ => stable_sendOnce _) fun w r w' hi hA hx => ⟨ht w hi hA, fun _ hr => ?_⟩
    rcases hx.2 with ⟨rfl, -⟩ | ⟨⟨e, he⟩, -⟩
    · exact hB w hA
    · cases he.symm.trans hr
  refine hc.attempt.seq fun answer => ?_
  cases answer with
  | ok _ => exact hn.weaken fun _ _ h => h rfl
  | error e => exact transient_once row _

lemma park_once {reason : String} (hA : ∀ w, A w → Knows w₀ row w) :
    (sendOnce settings s pinned w₀).Obeys () (parkForFeeReduction row reason) A := by
  refine save_once (B := fun _ => True) (fun w hi h => ?_) (fun _ _ => trivial) fun _ _ _ => trivial
  have hr := (hA w h).1
  refine hi.commit ?_ ?_ <;> simp [Session.write, hr]

lemma isTransientSendError_append (text : String) {err : String} (h : isTransientSendError err = true) :
    isTransientSendError (text ++ err) = true := by
  unfold isTransientSendError at h ⊢
  simp only [any_eq_true, decide_eq_true_eq, String.toList_map, String.toList_append, map_append] at h ⊢
  obtain ⟨marker, hm, hi⟩ := h
  exact ⟨marker, hm, hi.trans (suffix_append _ _).isInfix⟩

lemma sendFailed_once (hr : row.status = .sending ∧ row.sendInfeasibleReason = none) {msg text : String}
    (hA : ∀ w, A w → w.row = row ∧ (isTransientSendError msg = false → w.wallet = w₀.wallet)) :
    (sendOnce settings s pinned w₀).Obeys () (sendFailed row msg text) A := by
  unfold sendFailed
  split
  case isTrue => exact transient_once row text
  rename_i hd
  refine .call (fun _ => stable_sendOnce _) fun w r w' hi h _ => ⟨?_, fun _ => trivial⟩
  obtain ⟨hw, hwa⟩ := hA w h
  refine Tried.commit hi ?_ fun _ => hwa (Bool.eq_false_iff.2 hd)
  simp [Session.write, hw, hr.1]

lemma recordSend_once (hA : ∀ w, A w → w.row = row) {txid : String} {sent : ℕ} :
    (sendOnce settings s pinned w₀).Obeys () (recordSend row txid sent) A := by
  have ht : (sendOnce settings s pinned w₀).Safe () (fun _ => A) (call .tipHeight) A := by
    refine .call (fun _ => stable_sendOnce _) fun w r w' _ h hx => ⟨trivial, fun _ => ?_⟩
    exact hx.2.1 ▸ h
  refine ht.andThen fun tip => ?_
  refine save_once (B := fun _ => True) (fun w hi h => ?_) (fun _ _ => trivial) fun _ _ _ => trivial
  refine hi.commit ?_ ?_ <;> simp [Session.write, hA w h]

/-- The call: an answer that is no id and does not look like a lost connection
leaves the wallet. -/
lemma sendCoins_once {request : SendCoins} (hs : row.status = .sending)
    (hb : ∀ tx, Builds request w₀.wallet.unspent tx → Sent settings s pinned tx) :
    (sendOnce settings s pinned w₀).Safe ()
      (fun r w => w.row = row ∧ (KeepsSending r = false → w.wallet = w₀.wallet)) (call (.sendCoins request))
      (Knows w₀ row) := by
  refine .call (fun _ => stable_sendOnce _) fun w r w' _ h hx => ?_
  obtain ⟨hr, hw⟩ := h
  refine ⟨⟨hw, hr ▸ hs, hb⟩, fun _ => ?_⟩
  obtain ⟨hd, hx⟩ := hx
  constructor
  · rcases hx with ⟨tx, ⟨-, hk, -⟩, -⟩ | ⟨rfl, -⟩
    · exact hk.trans hr
    · exact hr
  · intro hf
    rcases hd with rfl | ht
    · exact hw
    · cases hf.symm.trans ht

/-- A send that is not parked arrives with the amount of the deposit, or has the
consent of the operator. -/
lemma arrived_of_feasible (hs : useDustSafe settings s = true) (h : infeasible settings s rate = none) :
    s.consents = true ∨ s.depositAmountSats ≤ s.freshUtxoAmountSats.getD 0 - projectedFee rate := by
  unfold infeasible projectNoChangeSend at h
  rw [if_pos hs] at h
  split at h
  case h_1 => cases h
  rename_i arrived ha
  split at ha
  · cases ha
  split at ha
  · cases ha
  cases ha
  by_contra hn
  rw [not_or, Bool.not_eq_true, not_le] at hn
  simp [hn.1, hn.2] at h

section

variable (hw₀ : Funded s pinned w₀)
include hw₀

lemma builds_whole (hs : useDustSafe settings s = true)
    (hf : infeasible settings s rate = none) (tx : WalletTx)
    (h : Builds ⟨s.destinationAddress, none, rate, pinned⟩ w₀.wallet.unspent tx) : Sent settings s pinned tx := by
  obtain ⟨hi, u, hu, hp, fee, hfe, -, ho⟩ := h
  refine ⟨hi, ?_⟩
  rw [if_pos hs]
  refine ⟨_, ho, (arrived_of_feasible hs hf).imp id fun hle => ?_⟩
  rw [hw₀.value u hu hp] at hle
  exact hle.trans (Nat.sub_le_sub_left hfe u.amountSats)

omit hw₀ in
lemma builds_exact (he : useDustSafe settings s = false) (tx : WalletTx)
    (h : Builds ⟨s.destinationAddress, some s.depositAmountSats, rate, pinned⟩ w₀.wallet.unspent tx) :
    Sent settings s pinned tx := by
  obtain ⟨hi, u, -, -, ho⟩ := h
  refine ⟨hi, ?_⟩
  rw [he]
  exact ho

lemma send_once (hf : infeasible settings s rate = none) :
    (sendOnce settings s pinned w₀).Obeys () (send settings s.toSending pinned rate)
      (Knows w₀ s.toSending) := by
  have hr : s.toSending.status = .sending ∧ s.toSending.sendInfeasibleReason = none := ⟨rfl, rfl⟩
  unfold send
  split
  case isTrue hs =>
    dsimp only
    split
    case isTrue => exact park_once fun _ h => h
    refine (sendCoins_once hr.1 (builds_whole hw₀ hs hf)).attempt.seq fun answer => ?_
    rcases answer with e | (err | txid)
    · exact sendFailed_once hr fun w h => h
    · refine sendFailed_once hr fun w h => ⟨h.1, fun hd => h.2 ?_⟩
      by_contra hl
      have hl' := isTransientSendError_append "dust-safe send failed: " (Bool.of_not_eq_false hl)
      cases hd.symm.trans hl'
    · dsimp only
      split
      case isTrue he =>
        subst he
        exact sendFailed_once hr fun w h => ⟨h.1, fun _ => h.2 rfl⟩
      case isFalse => exact recordSend_once fun w h => h.1
  rename_i hn
  have hexact : useDustSafe settings s = false := Bool.eq_false_iff.2 hn
  refine (sendCoins_once hr.1 (builds_exact hexact)).attempt.seq fun answer => ?_
  rcases answer with e | (err | txid)
  · exact transient_once _ _
  · exact sendFailed_once hr fun w h => h
  dsimp only
  split
  case isTrue he =>
    subst he
    exact sendFailed_once hr fun w h => ⟨h.1, fun _ => h.2 rfl⟩
  case isFalse => exact recordSend_once fun w h => h.1

/-- One tick of a funded session, cut off anywhere. -/
lemma advance_once :
    (sendOnce settings s pinned w₀).Obeys () (advance settings) (Knows w₀ s) := by
  have hs : (sendOnce settings s pinned w₀).Safe ()
      (fun r w => (∀ row, r = .ok (some row) → row = s) ∧ Knows w₀ s w) (call .selectForUpdate) (Knows w₀ s) := by
    refine .call (fun _ => stable_sendOnce _) fun w r w' _ h hx => ⟨trivial, fun _ => ?_⟩
    obtain ⟨-, hr, rfl⟩ := hx
    refine ⟨fun row hro => ?_, h⟩
    rcases hr with hr | hr | ⟨e, hr⟩
    · cases hro.symm.trans hr
      exact h.1
    · cases hro.symm.trans hr
    · cases hro.symm.trans hr
  refine hs.andThen fun row => ?_
  cases row with
  | none => exact .ret
  | some row =>
    refine .and fun hro => ?_
    obtain rfl := hro row rfl
    dsimp only
    unfold dispatch
    rw [hw₀.status]
    unfold advanceFunded
    rw [hw₀.txid, hw₀.vout]
    dsimp only
    have hfe : (sendOnce settings row pinned w₀).Safe () (fun _ => Knows w₀ row) (call .getRecommendedFees)
        (Knows w₀ row) := by
      refine .call (fun _ => stable_sendOnce _) fun w r w' _ h hx => ⟨trivial, fun _ => ?_⟩
      exact (show w' = w from hx.2) ▸ h
    refine hfe.attempt.seq fun fees => ?_
    split
    case h_1 reason hre => exact park_once fun _ h => h
    rename_i hf
    refine save_once (B := Knows w₀ row.toSending) (fun w hi h => ?_) (fun w h => ?_) (send_once hw₀ hf)
    · refine hi.commit ?_ ?_
      · simp [Session.write, Session.toSending, h.1]
      · simp [Session.write, Session.toSending, h.1]
    · obtain ⟨hw, hwa⟩ := h
      exact ⟨by rw [hw]; simp [Session.write, Session.toSending], hwa⟩

lemma tried_of_funded : Tried settings s pinned w₀ w₀ where
  same := by
    rw [hw₀.row]
    exact ⟨rfl, rfl, rfl, rfl⟩
  sending h := by
    rw [hw₀.row, hw₀.status] at h
    cases h
  failed _ := rfl
  wallet := .inl rfl

/-- What a tick of a funded session leaves, wherever it stops. -/
lemma tried_of_reach {tasks : Unit → Code Unit}
    (h : definite.Reach ⟨w₀, fun _ => advance settings⟩ ⟨w, tasks⟩) : Tried settings s pinned w₀ w := by
  have hs : (sendOnce settings s pinned w₀).Holds (fun _ _ _ => True) ⟨w₀, fun _ => advance settings⟩ :=
    ⟨tried_of_funded hw₀, fun _ => ⟨Knows w₀ s, stable_sendOnce _, ⟨hw₀.row, rfl⟩, advance_once hw₀⟩⟩
  exact (hs.reach h).1

end

end Funded

/-! ## The next tick -/

/-- LND and the database answer. -/
def Answered (_ : Unit) (c : Command) (w : World) (r : Except Raised (Reply c)) (_ : World) : Prop :=
  match c with
  | .selectForUpdate => r = .ok (some w.row)
  | .commit _ _ => r = .ok ()
  | .listUnspent => ∃ outpoints, r = .ok (.ok outpoints)
  | .getTransactions => ∃ txns, r = .ok (.ok txns)
  | _ => True

abbrev answered : Machine Unit Command Reply Raised World := machine.restrict Answered fun _ _ => True

/-- A transaction pays the destination at least the amount of the deposit. -/
def Pays (s : Session) (tx : WalletTx) : Prop :=
  ∃ o ∈ tx.outputDetails, o.address = s.destinationAddress ∧ s.depositAmountSats ≤ o.amount

section Reconcile

variable {settings : Settings} {s : Session} {pinned : Outpoint} {w w' : World}

lemma findSend_some {txns : List WalletTx} {txid : String} {amount : ℕ}
    (h : findSend s pinned txns = some (txid, amount)) :
    ∃ tx ∈ txns, pinned.text ∈ tx.previousOutpoints ∧ Pays s tx ∧ tx.txid = txid := by
  induction txns with
  | nil => cases h
  | cons tx txns ih =>
    unfold findSend at h
    dsimp only at h
    split at h
    case h_1 o ho =>
      split at h
      case isTrue hs =>
        cases h
        have hp := find?_some ho
        simp only [decide_eq_true_eq] at hp
        exact ⟨tx, mem_cons_self, hs.1, ⟨o, mem_of_find?_eq_some ho, hp⟩, rfl⟩
      case isFalse =>
        obtain ⟨tx', hm, htx'⟩ := ih h
        exact ⟨tx', mem_cons_of_mem _ hm, htx'⟩
    case h_2 =>
      obtain ⟨tx', hm, htx'⟩ := ih h
      exact ⟨tx', mem_cons_of_mem _ hm, htx'⟩

lemma findSend_found {txns : List WalletTx} {tx : WalletTx} (hm : tx ∈ txns)
    (hs : pinned.text ∈ tx.previousOutpoints) (hpa : Pays s tx) (hn : tx.txid ≠ "") : ∃ sent, findSend s pinned txns = some sent := by
  induction txns with
  | nil => cases hm
  | cons tx' txns ih =>
    unfold findSend
    dsimp only
    rcases mem_cons.1 hm with rfl | hm
    · -- the transaction itself: the search for its output succeeds
      cases hpaid : tx.outputDetails.find? fun o =>
          o.address = s.destinationAddress ∧ s.depositAmountSats ≤ o.amount with
      | some o => exact ⟨_, if_pos ⟨hs, hn⟩⟩
      | none =>
        obtain ⟨o, ho, hp⟩ := hpa
        have hno := find?_eq_none.1 hpaid o ho
        exact (hno (by simpa using hp)).elim
    · split
      · split
        · exact ⟨_, rfl⟩
        · exact ih hm
      · exact ih hm

lemma reconcile_ends (hs : w.row.status = .sending) (ht : w.row.freshUtxoTxid = some pinned.txid)
    (hv : w.row.freshUtxoVout = some pinned.vout) (h : answered.Ends () w (advance settings) (.ok ()) w') :
    w'.wallet = w.wallet ∧
      if pinned ∈ w.wallet.unspent.map Utxo.outpoint then
        w'.row.status = .funded ∧ w'.row.sendInfeasibleReason = w.row.sendInfeasibleReason
      else ∃ txns, txns.Perm w.wallet.transactions ∧
        match findSend w.row pinned txns with
        | some (txid, _) => w'.row.status = .broadcast ∧ w'.row.sendTxid = some txid
        | none => w'.row.status = .failed := by
  obtain ⟨r, w₁, ⟨hr, -, rfl⟩, h⟩ := h.step
  obtain rfl : r = .ok (some w₁.row) := hr
  change answered.Ends () w₁ (dispatch settings w₁.row) (.ok ()) w' at h
  unfold dispatch at h
  rw [hs] at h
  dsimp only at h
  unfold reconcileAfterSendCrash at h
  rw [ht, hv] at h
  obtain ⟨r, w₂, ⟨⟨outpoints, rfl⟩, rfl, hl⟩, h⟩ := h.step
  obtain rfl := hl outpoints rfl
  change answered.Ends () w₂ (if pinned ∈ w₂.wallet.unspent.map Utxo.outpoint then _ else _) (.ok ()) w' at h
  split at h
  case isTrue ho =>
    obtain ⟨r, w₃, ⟨hr, hc⟩, h⟩ := h.step
    obtain rfl : r = .ok () := hr
    rcases hc with ⟨rfl, -⟩ | ⟨⟨e, he⟩, -⟩
    · obtain rfl := Ends.done h
      rw [if_pos ho]
      exact ⟨rfl, by simp [Session.write], by simp [Session.write]⟩
    · cases he
  rename_i hsp
  rw [if_neg hsp]
  obtain ⟨r, w₃, ⟨⟨txns, rfl⟩, rfl, hl⟩, h⟩ := h.step
  change answered.Ends () w₃ (match findSend w₃.row pinned txns with
    | some (sentTxid, recovered) => recordSend w₃.row sentTxid recovered
    | none => hardFail w₃.row _) (.ok ()) w' at h
  cases hf : findSend w₃.row pinned txns with
  | some sent =>
    obtain ⟨sentTxid, recovered⟩ := sent
    rw [hf] at h
    obtain ⟨r, w₄, ⟨-, rfl, tip, rfl⟩, h⟩ := h.step
    obtain ⟨r, w₅, ⟨hr, hc⟩, h⟩ := h.step
    obtain rfl : r = .ok () := hr
    rcases hc with ⟨rfl, -⟩ | ⟨⟨e, he⟩, -⟩
    · obtain rfl := Ends.done h
      refine ⟨rfl, txns, hl txns rfl, ?_⟩
      rw [hf]
      exact ⟨by simp [Session.write], by simp [Session.write]⟩
    · cases he
  | none =>
    rw [hf] at h
    obtain ⟨r, w₄, ⟨hr, hc⟩, h⟩ := h.step
    obtain rfl : r = .ok () := hr
    rcases hc with ⟨rfl, -⟩ | ⟨⟨e, he⟩, -⟩
    · obtain rfl := Ends.done h
      refine ⟨rfl, txns, hl txns rfl, ?_⟩
      rw [hf]
      simp [Session.write]
    · cases he

def Spent (pinned : Outpoint) (w : World) (tx : WalletTx) : Prop :=
  tx ∈ w.wallet.transactions ∧ pinned.text ∈ tx.previousOutpoints

/-- The tick has recognised the transaction that is on its way, or has gone back to
FUNDED with the consent it had. -/
def Recognised (s : Session) (pinned : Outpoint) (w w' : World) : Prop :=
  (∀ tx, Spent pinned w tx → w'.row.status = .broadcast ∧ w'.row.sendTxid = some tx.txid) ∧
    ((∀ tx, ¬ Spent pinned w tx) → w'.row.status = .funded ∧ (s.consents = true → w'.row.consents = true))

/-- The whole output went out below the amount of the deposit, as consented. -/
def Underpaid (settings : Settings) (s : Session) (tx : WalletTx) : Prop :=
  useDustSafe settings s = true ∧ s.consents = true ∧ ∀ o ∈ tx.outputDetails, o.amount < s.depositAmountSats

lemma pays_iff {tx : WalletTx} (h : Sent settings s pinned tx) : Pays s tx ↔ ¬ Underpaid settings s tx := by
  obtain ⟨-, ho⟩ := h
  by_cases hs : useDustSafe settings s = true
  · rw [if_pos hs] at ho
    obtain ⟨arrived, ho, ha⟩ := ho
    unfold Pays Underpaid
    rw [ho]
    rcases ha with hc | hle
    · simp [hs, hc]
    · simp [hs, hle, Nat.not_lt.2 hle]
  · rw [if_neg hs] at ho
    have hp : Pays s tx := ⟨_, ho, rfl, le_rfl⟩
    exact iff_of_true hp fun hu => hs hu.1

lemma Tried.unspent {w₀ : World} (hw₀ : Funded s pinned w₀) (h : Tried settings s pinned w₀ w)
    (hn : ∀ tx, ¬ Spent pinned w tx) : pinned ∈ w.wallet.unspent.map Utxo.outpoint := by
  obtain ⟨u, hu, hp⟩ := hw₀.unspent
  rcases h.wallet with hw | ⟨tx, hs, ht⟩
  · rw [hw]
    exact mem_map.2 ⟨u, hu, hp⟩
  · refine (hn tx ⟨ht ▸ mem_cons_self, ?_⟩).elim
    rw [hs.1]
    exact mem_singleton_self _

lemma Tried.sent {w₀ : World} (hw₀ : Funded s pinned w₀) (h : Tried settings s pinned w₀ w) {tx : WalletTx}
    (hs : Spent pinned w tx) : Sent settings s pinned tx := by
  obtain ⟨u, hu, hp⟩ := hw₀.unspent
  have hn : tx ∉ w₀.wallet.transactions := by
    intro ho
    exact w₀.wallet.unspent_open tx ho u hu (hp ▸ hs.2)
  rcases h.wallet with hw | ⟨tx', hse, ht⟩
  · exact (hn (hw ▸ hs.1)).elim
  · rcases mem_cons.1 (ht ▸ hs.1) with rfl | ho
    · exact hse
    · exact (hn ho).elim

/-- A tick of a funded session is cut off, or ends, anywhere. If it has failed the
session then nothing went out. If it has left it SENDING, the next tick recognises
what became of the send just if it was no consented underpayment, and what did not
go out had no consent. -/
theorem send_recognised_iff (settings : Settings) {w₀ : World} (hw₀ : Funded s pinned w₀) {tasks : Unit → Code Unit}
    (hreach : definite.Reach ⟨w₀, fun _ => advance settings⟩ ⟨w, tasks⟩) :
    (w.row.status = .failed → ∀ tx, ¬ Spent pinned w tx) ∧
    (w.row.status = .sending → answered.Ends () w (advance settings) (.ok ()) w' →
      (Recognised s pinned w w' ↔
        (∀ tx, Spent pinned w tx → ¬ Underpaid settings s tx) ∧
        ((∀ tx, ¬ Spent pinned w tx) → s.consents = false))) := by
  have ht := tried_of_reach hw₀ hreach
  constructor
  · intro hfa tx hs
    obtain ⟨u, hu, hp⟩ := hw₀.unspent
    have hol : tx ∈ w₀.wallet.transactions := ht.failed hfa ▸ hs.1
    exact w₀.wallet.unspent_open tx hol u hu (hp ▸ hs.2)
  · intro hse he
    have he' := reconcile_ends hse (ht.same.txid.trans hw₀.txid) (ht.same.vout.trans hw₀.vout) he
    have hpays : ∀ tx, Pays w.row tx ↔ Pays s tx := by
      intro tx
      unfold Pays
      rw [ht.same.amount, ht.same.destination]
    by_cases hn : ∀ tx, ¬ Spent pinned w tx
    · -- nothing went out: the tick goes back to FUNDED, and the reason is gone
      rw [if_pos (ht.unspent hw₀ hn), ht.sending hse] at he'
      obtain ⟨-, hfu, hre⟩ := he'
      have hl : w'.row.consents = false := by simp [Session.consents, hre]
      unfold Recognised
      simp [hn, hfu, hl]
    · -- one transaction is on its way
      obtain ⟨tx, hs⟩ := not_forall_not.1 hn
      have hsent := ht.sent hw₀ hs
      have ho : ∀ tx', Spent pinned w tx' → tx' = tx := fun tx' hs' =>
        w.wallet.spent_once tx' hs'.1 tx hs.1 _ hs'.2 hs.2
      have hg : pinned ∉ w.wallet.unspent.map Utxo.outpoint := by
        intro hm
        obtain ⟨u, hu, hp⟩ := mem_map.1 hm
        exact w.wallet.unspent_open tx hs.1 u hu (hp ▸ hs.2)
      rw [if_neg hg] at he'
      obtain ⟨-, txns, hpe, hro⟩ := he'
      have hc : ((∀ tx, Spent pinned w tx → ¬ Underpaid settings s tx) ∧
          ((∀ tx, ¬ Spent pinned w tx) → s.consents = false)) ↔ Pays s tx := by
        rw [pays_iff hsent]
        refine ⟨fun h => h.1 tx hs, fun h => ⟨fun tx' hs' => ?_, fun hn' => (hn hn').elim⟩⟩
        rw [ho tx' hs']
        exact h
      rw [hc]
      constructor
      · rintro ⟨hr, -⟩
        cases hf : findSend w.row pinned txns with
        | some sent =>
          obtain ⟨txid, amount⟩ := sent
          obtain ⟨tx', hm, hsp, hpa, -⟩ := findSend_some hf
          have htx' := ho tx' ⟨hpe.mem_iff.1 hm, hsp⟩
          exact htx' ▸ (hpays tx').1 hpa
        | none =>
          rw [hf] at hro
          cases (hr tx hs).1.symm.trans hro
      · intro hpa
        obtain ⟨⟨txid, amount⟩, hf⟩ := findSend_found (hpe.mem_iff.2 hs.1) hs.2 ((hpays tx).2 hpa)
          (w.wallet.named tx hs.1)
        obtain ⟨tx', hm, hsp, -, rfl⟩ := findSend_some hf
        have htx' := ho tx' ⟨hpe.mem_iff.1 hm, hsp⟩
        rw [hf] at hro
        refine ⟨fun tx'' hs'' => ?_, fun hn' => (hn hn').elim⟩
        rw [ho tx'' hs'', ← htx']
        exact hro

end Reconcile

/-! ## Two sends -/

def freshOutpoint : Outpoint := ⟨"aa", 0⟩

def exampleSession (status : BraiinsDepositStatus) (value : ℕ) : Session where
  status := status
  depositAmountSats := 100000
  destinationAddress := "bc1q"
  freshUtxoTxid := some "aa"
  freshUtxoVout := some 0
  freshUtxoAmountSats := some value

def freshWallet (value : ℕ) : Wallet where
  unspent := [⟨freshOutpoint, value⟩]
  transactions := []
  unspent_open := fun _ hmem => (List.not_mem_nil hmem).elim
  spent_once := fun _ hmem => (List.not_mem_nil hmem).elim
  named := fun _ hmem => (List.not_mem_nil hmem).elim

def wholeTx (value : ℕ) : WalletTx := ⟨"bb", [freshOutpoint.text], [⟨"bc1q", value - 1400⟩]⟩

def spentWallet (value : ℕ) : Wallet where
  unspent := []
  transactions := [wholeTx value]
  unspent_open := fun _ _ _ hmem => (List.not_mem_nil hmem).elim
  spent_once := fun tx hmem tx' hmem' _ _ _ => (List.mem_singleton.1 hmem).trans (List.mem_singleton.1 hmem').symm
  named := fun tx hmem => by
    rw [List.mem_singleton.1 hmem]
    exact (by decide : "bb" ≠ "")

lemma whole_broadcasts {value : ℕ} (hv : 1400 < value) (row : Session) :
    Broadcasts ⟨"bc1q", none, 10, freshOutpoint⟩ ⟨row, freshWallet value⟩ (wholeTx value) ⟨row, spentWallet value⟩ := by
  refine ⟨⟨rfl, ⟨freshOutpoint, value⟩, mem_singleton_self _, rfl, 1400, by decide, hv, rfl⟩, rfl, rfl, ?_⟩
  simp [spentWallet, freshWallet, wholeTx]

/-- A send that arrives with the amount of the deposit is recognised although its
tick was cut off. -/
theorem send_recognised_whole :
    ∃ w w' tasks, definite.Reach ⟨⟨exampleSession .funded 105000, freshWallet 105000⟩, fun _ => advance {}⟩ ⟨w, tasks⟩ ∧
      w.row.status = .sending ∧ answered.Ends () w (advance {}) (.ok ()) w' ∧
      Recognised (exampleSession .funded 105000) freshOutpoint w w' := by
  have hf : Funded (exampleSession .funded 105000) freshOutpoint
      ⟨exampleSession .funded 105000, freshWallet 105000⟩ := by
    refine ⟨rfl, rfl, rfl, rfl, ⟨_, mem_singleton_self _, rfl⟩, fun u hu _ => ?_⟩
    rw [mem_singleton.1 hu]
    rfl
  have h0 : definite.Reach _ ⟨⟨exampleSession .funded 105000, freshWallet 105000⟩, fun _ => advance {}⟩ := .refl
  have h1 := h0.run () rfl (.ok (some (exampleSession .funded 105000))) ⟨trivial, .inl rfl, rfl⟩
  have h2 := h1.run () rfl (.ok (some 10)) ⟨trivial, rfl⟩
  have h3 := h2.run () rfl (.ok ()) ⟨trivial, .inl ⟨rfl, .inl rfl⟩⟩
  have h4 := h3.run () rfl (.ok (.ok "bb"))
    ⟨.inr rfl, .inl ⟨wholeTx 105000, whole_broadcasts (by decide) _,
      fun txid h => ok.inj (ok.inj h) ▸ rfl⟩⟩
  have he : ∃ w', answered.Ends () ⟨(exampleSession .funded 105000).toSending, spentWallet 105000⟩ (advance {})
      (.ok ()) w' ∧ True := by
    refine Ends.next rfl (.ok (some (exampleSession .funded 105000).toSending)) ⟨rfl, .inl rfl, rfl⟩ ?_
    refine Ends.next rfl (.ok (.ok [])) ⟨⟨_, rfl⟩, rfl, fun _ h => ?_⟩ ?_
    · exact (ok.inj (ok.inj h)).symm
    refine Ends.next rfl (.ok (.ok [wholeTx 105000])) ⟨⟨_, rfl⟩, rfl, fun _ h => ?_⟩ ?_
    · exact ok.inj (ok.inj h) ▸ .refl _
    refine Ends.next rfl (.ok none) ⟨trivial, rfl, _, rfl⟩ ?_
    refine Ends.next rfl (.ok ()) ⟨rfl, .inl ⟨rfl, .inl rfl⟩⟩ ?_
    exact ⟨_, .ret, trivial⟩
  obtain ⟨w', he, -⟩ := he
  have hi := (send_recognised_iff {} hf h4).2 rfl he
  refine ⟨_, w', _, h4, rfl, he, hi.2 ⟨fun tx _ hun => ?_, fun _ => rfl⟩⟩
  cases hun.2.1

/-- What `retry_send` makes of a parked session. -/
def consented : Session := { exampleSession .funded 100500 with sendInfeasibleReason := some operatorAcceptUnderpay }

/-- A parked session of 100000 sats is sent with the consent of the operator, and
99100 arrive. If the tick is cut off after the call, the next one does not find the
transaction and fails the session. If it is cut off before the call, the next one
goes back to FUNDED without the consent. -/
theorem send_not_recognised :
    ∃ w₁, machine.Ends () ⟨exampleSession .awaitingFeeReduction 100500, freshWallet 100500⟩ (retrySend true)
        (.ok (true, none)) w₁ ∧ w₁.row.status = .funded ∧ w₁.row.consents = true ∧
      (∃ w₂ w₃ tasks tx, machine.Reach ⟨w₁, fun _ => advance {}⟩ ⟨w₂, tasks⟩ ∧ w₂.row.status = .sending ∧
        Spent freshOutpoint w₂ tx ∧ answered.Ends () w₂ (advance {}) (.ok ()) w₃ ∧ w₃.row.status = .failed) ∧
      ∃ w₂ w₃ tasks, machine.Reach ⟨w₁, fun _ => advance {}⟩ ⟨w₂, tasks⟩ ∧ w₂.row.status = .sending ∧
        answered.Ends () w₂ (advance {}) (.ok ()) w₃ ∧ w₃.row.status = .funded ∧ w₃.row.consents = false := by
  have hr : ∃ w₁, machine.Ends () ⟨exampleSession .awaitingFeeReduction 100500, freshWallet 100500⟩ (retrySend true)
      (.ok (true, none)) w₁ ∧ w₁ = ⟨consented, freshWallet 100500⟩ := by
    refine Ends.next rfl (.ok (some (exampleSession .awaitingFeeReduction 100500))) ⟨.inl rfl, rfl⟩ ?_
    refine Ends.next rfl (.ok ()) (.inl ⟨rfl, .inl rfl⟩) ?_
    exact ⟨_, .ret, rfl⟩
  obtain ⟨_, hr, rfl⟩ := hr
  refine ⟨_, hr, rfl, rfl, ?_, ?_⟩
  all_goals
    have h0 : machine.Reach _ ⟨⟨consented, freshWallet 100500⟩, fun _ => advance {}⟩ := .refl
    have h1 := h0.run () rfl (.ok (some consented)) ⟨.inl rfl, rfl⟩
    have h2 := h1.run () rfl (.ok (some 10)) rfl
    have h3 := h2.run () rfl (.ok ()) (.inl ⟨rfl, .inl rfl⟩)
  · have h4 := h3.run () rfl (.ok (.ok "bb"))
      (.inl ⟨wholeTx 100500, whole_broadcasts (by decide) _, fun txid h => ok.inj (ok.inj h) ▸ rfl⟩)
    have he : ∃ w₃, answered.Ends () ⟨consented.toSending, spentWallet 100500⟩ (advance {}) (.ok ()) w₃ ∧
        w₃.row.status = .failed := by
      refine Ends.next rfl (.ok (some consented.toSending)) ⟨rfl, .inl rfl, rfl⟩ ?_
      refine Ends.next rfl (.ok (.ok [])) ⟨⟨_, rfl⟩, rfl, fun _ h => ?_⟩ ?_
      · exact (ok.inj (ok.inj h)).symm
      refine Ends.next rfl (.ok (.ok [wholeTx 100500])) ⟨⟨_, rfl⟩, rfl, fun _ h => ?_⟩ ?_
      · exact ok.inj (ok.inj h) ▸ .refl _
      refine Ends.next rfl (.ok ()) ⟨rfl, .inl ⟨rfl, .inl rfl⟩⟩ ?_
      exact ⟨_, .ret, rfl⟩
    obtain ⟨w₃, he, hf⟩ := he
    exact ⟨_, w₃, _, wholeTx 100500, h4, rfl, ⟨mem_singleton_self _, mem_singleton_self _⟩, he, hf⟩
  · have he : ∃ w₃, answered.Ends () ⟨consented.toSending, freshWallet 100500⟩ (advance {}) (.ok ()) w₃ ∧
        w₃.row.status = .funded ∧ w₃.row.consents = false := by
      refine Ends.next rfl (.ok (some consented.toSending)) ⟨rfl, .inl rfl, rfl⟩ ?_
      refine Ends.next rfl (.ok (.ok [freshOutpoint])) ⟨⟨_, rfl⟩, rfl, fun _ h => ?_⟩ ?_
      · exact (ok.inj (ok.inj h)).symm
      refine Ends.next rfl (.ok ()) ⟨rfl, .inl ⟨rfl, .inl rfl⟩⟩ ?_
      exact ⟨_, .ret, rfl, rfl⟩
    obtain ⟨w₃, he, hfu⟩ := he
    exact ⟨_, w₃, _, h3, rfl, he, hfu⟩

end AgentWallet.Deposit
