import AgentWallet.Anonymize.Hops
import Mathlib.Algebra.Group.Nat.Defs
/-!
# The programs of a session

The per-session loop reads the row, runs the hop step, observes, decides and commits.
Beside it the reconciliation probe, the startup pass and the endpoints of the dashboard
write the row. A run here is one of them after the other. The endpoints read the row without
its lock, so that in the source their writes may also overlap a tick.
-/

namespace AgentWallet.Anonymize.Session

/-! ## Observers -/

/-- `min_seconds` have passed since the row was last written. -/
def delayElapsed (row : Row) (minSeconds now : ℕ) : Bool := minSeconds = 0 || row.updatedAt + minSeconds ≤ now

def observeLnSelfPay (now : ℕ) (row : Row) : TickObservations :=
  match row.status with
  | .created => { fundingInvoiceSettled := some true }
  | .funding => { fundingInvoiceSettled := if row.selfPay.settled then some true else none }
  | .delaying => { delayWindowElapsed := some (delayElapsed row row.setup.delayMinSeconds now), isLastHop := some true }
  | _ => {}

/-- `_bolt12_deposit_settled`: nothing is known of a deposit that is not to a BOLT 12 offer. -/
def bolt12DepositSettled (deposited : Bool) (setup : Setup) : Option Bool :=
  if setup.depositMethodBolt12 ∧ setup.depositOfferId ≠ "" then some deposited else none

/-- `observe_ext_lightning`. A deposit of which nothing is known counts as settled. -/
def observeExtLightning (s : Settings) (deposited : Bool) (now : ℕ) (row : Row) : TickObservations :=
  match row.status with
  | .created | .funding => { fundingInvoiceSettled := some ((bolt12DepositSettled deposited row.setup).getD true) }
  | .delaying =>
    { delayWindowElapsed := some (delayElapsed row (max s.extDepositMinDwell row.setup.delayMinSeconds) now)
      isLastHop := some true }
  | _ => {}

/-- `_sample_delay_target_s`: what is drawn, inside of the window of the session. -/
def sampleDelayTarget (setup : Setup) (drawn : ℕ) : ℕ :=
  max setup.interLegMinSeconds (min drawn setup.interLegMaxSeconds)

/-- `observe_onchain_source`. The target of the delay is sampled anew in every tick. -/
def observeOnchainSource (now target : ℕ) (row : Row) : TickObservations :=
  match row.status with
  | .funding => { fundingInvoiceSettled := row.submarine.fundingBroadcastAt.map fun _ => true }
  | .lnHolding => { fundingInvoiceSettled := if row.submarine.swapStatus ∈ settledStatuses then some true else none }
  | .hopping =>
    if row.submarine.swapStatus ∈ settledStatuses then { hopCompleted := some true, isLastHop := some true } else {}
  | .delaying =>
    { delayWindowElapsed := some (row.submarine.fundingBroadcastAt.all fun start => start + target ≤ now)
      isLastHop := some true }
  | _ => {}

def observeReverseExit (s : Settings) (row : Row) : TickObservations :=
  match row.status with
  | .exiting => { claimTxObservedOnChain := some row.claimBroadcastAt.isSome }
  | _ =>
    { claimTxMinConfirmationsReached := some (s.claimMinConfirmations ≤ row.claimTxConfirmations)
      claimTxReorgUncertainty := some (s.claimReorgGiveupBlocks ≤ row.claimTxReorgObservedCount) }

/-- The observations of the source, or of the exit where the source has none. -/
def observed (s : Settings) (a : Answers) (deposited : Bool) (row : Row) : TickObservations :=
  if row.status = .exiting ∨ row.status = .confirming then observeReverseExit s row
  else
    match row.setup.sourceKind with
    | .lightningSelf => observeLnSelfPay a.now row
    | .extLightning => observeExtLightning s deposited a.now row
    | .onchainSelf | .extOnchain => observeOnchainSource a.now (sampleDelayTarget row.setup a.sampled) row

/-- `default_observation_fn`. The reason on the row is promoted to an observation, unless
the session is parked or has ended. -/
def defaultObservation (s : Settings) (a : Answers) (deposited : Bool) (row : Row) : TickObservations :=
  let reason := stripped row.awaitingReconciliationReason
  if reason ≠ "" ∧ row.status ≠ .awaitingReconciliation ∧ isTerminal row.status = false then
    { observed s a deposited row with reconcileReason := some reason }
  else observed s a deposited row

/-! ## A tick -/

def tickSession (row : Row) (obs : TickObservations) : Row :=
  match decideTickAction row.status obs row.setup.sourceKind with
  | .wait => row
  | .transition toStatus => { row with status := toStatus }
  | .reconcile reason => row.park reason

def runTick (s : Settings) (a : Answers) (deposited : Bool) (t : Tick) : Tick :=
  let t := defaultHopStep s a t
  if t.raised then t else t.modify fun row => tickSession row (defaultObservation s a deposited row)

/-- How a tick ends: its last commit is made, it raises and is rolled back, or its process
stops, after or before its call. -/
inductive Fate
  | committed
  | rolledBack
  | crashed (called : Bool)
  deriving DecidableEq, Repr

/-! ## The other programs -/

/-- A write of the row sets `updated_at`. -/
def Row.stamp (row : Row) (now : ℕ) (old : Row) : Row := if row = old then old else { row with updatedAt := now }

/-- `transition_session`; a refused transition raises and nothing is committed. -/
def Row.transition (row : Row) (toStatus : Status) : Row :=
  if isLegalTransition row.status toStatus then { row with status := toStatus } else row

def computeBackoff (s : Settings) (attempts : ℕ) : ℕ :=
  if attempts = 0 then 0 else min s.backoffMax (s.backoffBase * 2 ^ min (attempts - 1) 30)

def isInCooldown (s : Settings) (row : Row) (now : ℕ) : Bool :=
  row.reconciliationAttempts ≠ 0 &&
    row.lastReconciliationAttempt.any fun last => now < last + computeBackoff s row.reconciliationAttempts

/-- `attempt_reconciliation`. Without attempts left, or a status to go back to, the
session fails. -/
def attemptReconciliation (row : Row) (now : ℕ) : Row :=
  let cls := classifyReason row.awaitingReconciliationReason
  if cls = .terminal then { row with lastReconciliationAttempt := some now }
  else
    let attempts := row.reconciliationAttempts + 1
    let row := { row with reconciliationAttempts := attempts, lastReconciliationAttempt := some now }
    let target := row.preReconciliationStatus.filter (isLegalTransition .awaitingReconciliation)
    { row with status := if attempts ≤ maxRetriesForClass cls then target.getD .failed else .failed }

/-- What writes the row beside the loops. -/
inductive Pass
  | boundedRetryExhausted
  | wedgeDetector
  | reconciliationSweep
  | startupReconciliation (reason : String)
  | preStatusHeuristic
  | claimWatch (confirmations reorgs : ℕ)
  | cancel
  | refund
  | retryParked
  | failParked
  | cancelParked
  | refundParked
  deriving DecidableEq, Repr

/-- A pass over a row that is there. The wedge detector and the startup pass go on when
the parking is refused, and commit the copy it has written. -/
def Pass.apply (s : Settings) (now : ℕ) (row : Row) : Pass → Row
  | .boundedRetryExhausted =>
    if isLegalTransition row.status .awaitingReconciliation ∧ isTerminal row.status = false then
      row.park "bounded_retry_exhausted"
    else row
  | .wedgeDetector =>
    if isTerminal row.status = false ∧ row.status ≠ .awaitingReconciliation ∧ row.updatedAt + s.wallClockBudget < now then
      row.park "wall_clock_budget_exceeded"
    else row
  | .reconciliationSweep =>
    if row.status = .awaitingReconciliation ∧ isInCooldown s row now = false then attemptReconciliation row now else row
  | .startupReconciliation reason =>
    if isTerminal row.status = false ∧ row.status ≠ .awaitingReconciliation then row.park reason else row
  | .preStatusHeuristic =>
    if row.status = .awaitingReconciliation ∧ row.preReconciliationStatus = none ∧
        stripped row.awaitingReconciliationReason = "mpp_k_floor_exhausted" then
      { row with preReconciliationStatus := some .exiting }
    else row
  | .claimWatch confirmations reorgs =>
    { row with claimTxConfirmations := confirmations, claimTxReorgObservedCount := reorgs }
  | .cancel => row.transition .cancelled
  | .refund => row.transition .refunding
  | .retryParked =>
    match row.preReconciliationStatus with
    | some target =>
      if row.status = .awaitingReconciliation ∧ isLegalTransition .awaitingReconciliation target then
        { row with status := target, reconciliationAttempts := 0, lastReconciliationAttempt := none }
      else row
    | none => row
  | .failParked => if row.status = .awaitingReconciliation then row.transition .failed else row
  | .cancelParked =>
    if row.status = .awaitingReconciliation ∧ isCancellable row.awaitingReconciliationReason then
      row.transition .cancelled
    else row
  | .refundParked => if row.status = .awaitingReconciliation then row.transition .refunding else row

/-! ## Runs -/

/-- The committed row, event rows and swaps, `swap_state` in each process, the calls that
were made, whether the deposit was recorded as paid, and the process of the last tick. -/
structure World where
  row : Row
  events : List Event := []
  swaps : List BoltzSwap := []
  memory : ℕ → SwapState := fun _ => []
  moves : List Moved := []
  deposited : Bool := false
  owner : Option ℕ := none

inductive Act
  | tick (process : ℕ) (answers : Answers) (fate : Fate)
  | pass (now : ℕ) (pass : Pass)
  | restart (process : ℕ)
  | deposit

namespace World

variable (s : Settings) (w : World)

def ticked (process : ℕ) (a : Answers) : Tick :=
  runTick s a w.deposited (Tick.load w.row w.events (w.memory process))

def close (process : ℕ) (t : Tick) : World :=
  { w with
    row := t.saved.1, events := t.saved.2, swaps := w.swaps ++ t.swaps,
    memory := Function.update w.memory process t.memory, moves := w.moves ++ t.moves, owner := some process }

def finish (process now : ℕ) (t : Tick) : Fate → World
  | .committed =>
    if t.raised then w.close process t
    else { w.close process t with row := t.row.stamp now t.saved.1, events := t.events }
  | .rolledBack => w.close process t
  | .crashed called => w.close process { t with memory := [], moves := if called then t.moves else [] }

def step : Act → World
  | .tick process a fate =>
    if isTerminal w.row.status then w else w.finish process a.now (w.ticked s process a) fate
  | .pass now p => { w with row := (p.apply s now w.row).stamp now w.row }
  | .restart process => { w with memory := Function.update w.memory process [] }
  | .deposit => { w with deposited := true }

def run (acts : List Act) : World := acts.foldl (step s) w

lemma run_of_step {s : Settings} {I : World → Prop} (hs : ∀ w e, I w → I (w.step s e)) {w : World} {acts : List Act}
    (hw : I w) : I (w.run s acts) := by
  induction acts generalizing w with
  | nil => exact hw
  | cons e acts ih => exact ih (hs w e hw)

/-- Every act of the run meets the condition in the state it starts from. -/
def Along (cond : World → Act → Prop) (s : Settings) : World → List Act → Prop
  | _, [] => True
  | w, e :: acts => cond w e ∧ Along cond s (w.step s e) acts

lemma run_inv {s : Settings} {I : World → Prop} {cond : World → Act → Prop}
    (hs : ∀ w e, I w → cond w e → I (w.step s e)) {w : World} {acts : List Act} (hw : I w)
    (ha : Along cond s w acts) : I (w.run s acts) := by
  induction acts generalizing w with
  | nil => exact hw
  | cons e acts ih => exact ih (hs w e hw ha.1) ha.2

end World

end AgentWallet.Anonymize.Session
