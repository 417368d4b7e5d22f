import AgentWallet.Bolt12.Responder
import AgentWallet.Swaps.Store
import Mathlib.Data.List.Sort
/-!
# Recording what became of BOLT 12 payments

Two kinds of workers project LND's state onto the rows of `bolt12_invoices`:
passes of `reconcile_open_invoices`, which also make up the polling mode of the
settlement subscriber, and the subscriber's stream. Both load a row, await, and
write back the columns they have changed, without a lock.

A pass asks LND about the oldest open rows, one after the other. Any number of
passes and streams run at the same time; an event says which of them goes on.
-/

namespace AgentWallet.Bolt12.Reconcile

open AgentWallet.Swaps (column)
open AgentWallet.Bolt12.Responder (Bolt12InvoiceStatus)

/-! ## Rows and LND -/

inductive Direction
  | inbound
  | outbound
deriving DecidableEq

/-- The columns of `bolt12_invoices` that are read or written. Times are in seconds. An
empty error message is the same as none. -/
structure Row where
  direction : Direction
  paymentHashHex : String
  status : Bolt12InvoiceStatus := .OPEN
  createdAt : ℕ
  expiry : Option ℕ := none
  paidAt : Option ℕ := none
  encryptedPreimage : Option String := none
  errorMessage : String := ""
deriving DecidableEq

/-- What a commit of a row that was read as `before` makes of the row. -/
def Row.write (before after row : Row) : Row :=
  { row with
    status := column before.status after.status row.status
    paidAt := column before.paidAt after.paidAt row.paidAt
    encryptedPreimage := column before.encryptedPreimage after.encryptedPreimage row.encryptedPreimage
    errorMessage := column before.errorMessage after.errorMessage row.errorMessage }

inductive InvoiceState
  | OPEN
  | ACCEPTED
  | SETTLED
  | CANCELED
  | EXPIRED
deriving DecidableEq

/-- LND never takes back a final state. -/
def InvoiceState.final : InvoiceState → Bool
  | .SETTLED | .CANCELED | .EXPIRED => true
  | .OPEN | .ACCEPTED => false

structure Invoice where
  state : InvoiceState := .OPEN
  settleDate : ℕ := 0
  settleIndex : ℕ := 0
  rPreimage : String := ""

/-- Every other status is taken as in flight. -/
inductive PaymentStatus
  | IN_FLIGHT
  | SUCCEEDED
  | FAILED
deriving DecidableEq

structure Payment where
  paymentHash : String
  status : PaymentStatus := .IN_FLIGHT
  paymentPreimage : String := ""

/-- LND's invoices by payment hash, and its payments, the newest first. -/
structure Lnd where
  invoices : String → Option Invoice := fun _ => none
  payments : List Payment := []

/-- `lookup_payment` asks for the newest 100 payments. -/
def Lnd.lookupPayment (lnd : Lnd) (paymentHashHex : String) : Option Payment :=
  (lnd.payments.take 100).find? fun p => p.paymentHash = paymentHashHex

/-! ## Projections -/

/-- `text or default` -/
def orText (text default : String) : String := if text = "" then default else text

variable (encrypt : String → String)

def storePreimage (preimage : String) (row : Row) : Row :=
  if preimage ≠ "" ∧ row.encryptedPreimage = none then { row with encryptedPreimage := some (encrypt preimage) }
  else row

/-- `_reconcile_one`, of an inbound row. `lookup_invoice` gives no preimage. -/
def reconcileInbound (row : Row) (info : Invoice) (now : ℕ) : Option Row :=
  match info.state with
  | .SETTLED => some { row with status := .PAID, paidAt := some (if info.settleDate = 0 then now else info.settleDate) }
  | .CANCELED => some { row with status := .EXPIRED, errorMessage := orText row.errorMessage "LND invoice canceled" }
  | .EXPIRED => some { row with status := .EXPIRED, errorMessage := orText row.errorMessage "LND invoice expired" }
  | .OPEN | .ACCEPTED =>
    match row.expiry with
    | none => none
    | some expiry =>
      if expiry ≤ now then
        some { row with status := .EXPIRED, errorMessage := orText row.errorMessage "expiry elapsed" }
      else none

def reconcileOutbound (row : Row) (payment : Payment) (now : ℕ) : Option Row :=
  match payment.status with
  | .SUCCEEDED =>
    some (storePreimage encrypt payment.paymentPreimage { row with status := .PAID, paidAt := some now })
  | .FAILED =>
    some { row with status := .FAILED, errorMessage := orText row.errorMessage "LND payment failed (terminal)" }
  | .IN_FLIGHT => none

/-- `_reconcile_one`, with LND's answer. A payment or an invoice that LND does not list
changes nothing. -/
def reconcileOne (lnd : Lnd) (row : Row) (now : ℕ) : Option Row :=
  match row.direction with
  | .outbound => (lnd.lookupPayment row.paymentHashHex).bind fun payment => reconcileOutbound encrypt row payment now
  | .inbound => (lnd.invoices row.paymentHashHex).bind fun info => reconcileInbound row info now

/-- `_project_settled`, of a row that is not paid yet. -/
def projectSettled (invoice : Invoice) (row : Row) (now : ℕ) : Row :=
  storePreimage encrypt invoice.rPreimage
    { row with status := .PAID, paidAt := some (if invoice.settleDate = 0 then now else invoice.settleDate) }

/-! ## Workers -/

inductive Worker
  | idle
  /-- A pass is about to load the next of these rows. -/
  | scanning (now : ℕ) (todo : List ℕ)
  /-- A pass has loaded an open row and asks LND. -/
  | asking (now : ℕ) (id : ℕ) (row : Row) (todo : List ℕ)
  /-- A pass commits a row. -/
  | saving (now : ℕ) (id : ℕ) (before after : Row) (todo : List ℕ)
  /-- The subscriber is not connected. It goes on after `settleIndex`. -/
  | down (settleIndex : ℕ)
  | up (settleIndex lastSeen : ℕ)
  /-- The stream commits a row. -/
  | projecting (settleIndex lastSeen : ℕ) (id : ℕ) (before after : Row)

/-- A pass goes on with the rows that are left. -/
def Worker.next (now : ℕ) : List ℕ → Worker
  | [] => .idle
  | id :: todo => .scanning now (id :: todo)

def Worker.passing : Worker → Bool
  | .scanning _ _ | .asking _ _ _ _ | .saving _ _ _ _ _ => true
  | .idle | .down _ | .up _ _ | .projecting _ _ _ _ _ => false

structure World (T : Type) where
  rows : List Row := []
  lnd : Lnd := {}
  clock : ℕ := 0
  workers : T → Worker := fun _ => .idle

inductive Event (T : Type)
  | startPass (t : T)
  | load (t : T)
  /-- LND answers a pass, or the lookup fails. -/
  | answer (t : T) (failed : Bool)
  /-- The commit of a pass succeeds or fails. -/
  | save (t : T) (ok : Bool)
  /-- The worker is killed, or fails outside the handling of a row. -/
  | kill (t : T)
  | subscribe (t : T)
  | connect (t : T)
  /-- The stream delivers an invoice. -/
  | deliver (t : T) (paymentHashHex : String)
  | saveSettled (t : T) (ok : Bool)
  /-- The stream ends, or breaks with an error. -/
  | disconnect (t : T) (error : Bool)
  | insertRow (row : Row)
  | addInvoice (paymentHashHex : String)
  | invoiceTo (paymentHashHex : String) (invoice : Invoice)
  | addPayment (paymentHashHex : String)
  | paymentTo (paymentHashHex : String) (status : PaymentStatus) (paymentPreimage : String)
  | pass (time : ℕ)

def statusOf (rows : List Row) (id : ℕ) : Option Bolt12InvoiceStatus := rows[id]?.map Row.status

def createdAtOf (rows : List Row) (id : ℕ) : ℕ := (rows[id]?.map Row.createdAt).getD 0

def openRows (rows : List Row) : List ℕ := (List.range rows.length).filter fun id => statusOf rows id = some .OPEN

/-- The ids of the oldest open rows. -/
def openIds (batch : ℕ) (rows : List Row) : List ℕ :=
  ((openRows rows).insertionSort fun a b => createdAtOf rows a ≤ createdAtOf rows b).take batch

/-- The row to which a settled invoice is projected: there is one inbound row. -/
def settledRow (rows : List Row) (paymentHashHex : String) : Option ℕ :=
  let found := (List.range rows.length).filter fun id =>
    (rows[id]?.map fun row => (row.direction, row.paymentHashHex)) = some (.inbound, paymentHashHex)
  match found with
  | [id] => some id
  | _ => none

namespace World

variable {T : Type} [DecidableEq T]

variable (encrypt : String → String) (w : World T) (t : T)

def become (worker : Worker) : World T :=
  { w with workers := Function.update w.workers t worker }

/-- A commit of a row that was read as `before`. -/
def commit (id : ℕ) (before after : Row) : World T :=
  { w with rows := w.rows.modify id (before.write after) }

def defaultBatch : ℕ := 200

def load (now id : ℕ) (todo : List ℕ) : World T :=
  match w.rows[id]? with
  | none => w.become t (.next now todo)
  | some row => w.become t (if row.status = .OPEN then .asking now id row todo else .next now todo)

def answer (now id : ℕ) (row : Row) (todo : List ℕ)
    (failed : Bool) : World T :=
  if failed then w.become t (.next now todo)
  else
    match reconcileOne encrypt w.lnd row now with
    | none => w.become t (.next now todo)
    | some after => w.become t (.saving now id row after todo)

/-- `_handle_invoice_update`. Whatever comes of it, the cursor moves on. -/
def deliver (settleIndex lastSeen : ℕ) (paymentHashHex : String)
    (invoice : Invoice) : World T :=
  let up := Worker.up settleIndex (max lastSeen invoice.settleIndex)
  if invoice.state ≠ .SETTLED then w.become t up
  else
    match settledRow w.rows paymentHashHex with
    | none => w.become t up
    | some id =>
      match w.rows[id]? with
      | none => w.become t up
      | some row =>
        if row.status = .PAID then w.become t up
        else
          w.become t (.projecting settleIndex (max lastSeen invoice.settleIndex) id row
            (projectSettled encrypt invoice row w.clock))

def setInvoice (paymentHashHex : String) (invoice : Invoice) : World T :=
  { w with lnd := { w.lnd with invoices := Function.update w.lnd.invoices paymentHashHex (some invoice) } }

def step : Event T → Option (World T)
  | .startPass t =>
    match w.workers t with
    | .idle => some (w.become t (.next w.clock (openIds defaultBatch w.rows)))
    | _ => none
  | .load t =>
    match w.workers t with
    | .scanning now (id :: todo) => some (w.load t now id todo)
    | _ => none
  | .answer t failed =>
    match w.workers t with
    | .asking now id row todo => some (w.answer encrypt t now id row todo failed)
    | _ => none
  | .save t ok =>
    match w.workers t with
    | .saving now id before after todo =>
      some ((if ok then w.commit id before after else w).become t (.next now todo))
    | _ => none
  | .kill t => some (w.become t .idle)
  | .subscribe t =>
    match w.workers t with
    | .idle => some (w.become t (.down 0))
    | _ => none
  | .connect t =>
    match w.workers t with
    | .down settleIndex => some (w.become t (.up settleIndex settleIndex))
    | _ => none
  | .deliver t paymentHashHex =>
    match w.workers t, w.lnd.invoices paymentHashHex with
    | .up settleIndex lastSeen, some invoice => some (w.deliver encrypt t settleIndex lastSeen paymentHashHex invoice)
    | _, _ => none
  | .saveSettled t ok =>
    match w.workers t with
    | .projecting settleIndex lastSeen id before after =>
      some ((if ok then w.commit id before after else w).become t (.up settleIndex lastSeen))
    | _ => none
  | .disconnect t error =>
    match w.workers t with
    | .up settleIndex lastSeen => some (w.become t (.down (if error then settleIndex else lastSeen)))
    | _ => none
  | .insertRow row => if row.status = .OPEN then some { w with rows := w.rows ++ [row] } else none
  | .addInvoice paymentHashHex =>
    match w.lnd.invoices paymentHashHex with
    | none => some (w.setInvoice paymentHashHex {})
    | some _ => none
  | .invoiceTo paymentHashHex invoice =>
    match w.lnd.invoices paymentHashHex with
    | none => none
    | some old => if old.state.final then none else some (w.setInvoice paymentHashHex invoice)
  | .addPayment paymentHashHex =>
    if w.lnd.payments.all fun p => p.paymentHash ≠ paymentHashHex then
      some { w with lnd := { w.lnd with payments := ⟨paymentHashHex, .IN_FLIGHT, ""⟩ :: w.lnd.payments } }
    else none
  | .paymentTo paymentHashHex status paymentPreimage =>
    let change := fun p : Payment =>
      if p.paymentHash = paymentHashHex ∧ p.status = .IN_FLIGHT then
        { p with status := status, paymentPreimage := paymentPreimage }
      else p
    some { w with lnd := { w.lnd with payments := w.lnd.payments.map change } }
  | .pass time => some { w with clock := w.clock + time }

end World

end AgentWallet.Bolt12.Reconcile
