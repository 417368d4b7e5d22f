import AgentWallet.Anonymize.Loop
/-!
# Completion under reorgs (`decide_terminal_state`)

`reorg.decide_terminal_state` says how a confirming session ends, from what was seen of
the claim. The tick decides by itself, from the columns of the chain poll, and asks about
the reorgs first: after enough of them a claim that is deep enough is not COMPLETED.
-/

namespace AgentWallet.Anonymize.Session

structure ConfirmationObservation where
  currentDepth : ℤ := -1
  maxDepthSeen : ℕ := 0
  reorgCount : ℕ := 0

inductive ReorgDecision
  | stayConfirming
  | completed
  | completedWithReorgUncertainty
  | failedNoChainRecord

variable (s : Settings) (obs : ConfirmationObservation)

def decideTerminalState : ReorgDecision :=
  if s.claimMinConfirmations ≤ obs.currentDepth then .completed
  else if obs.maxDepthSeen = 0 ∧ s.claimReorgGiveupBlocks ≤ obs.reorgCount then .failedNoChainRecord
  else if s.claimReorgGiveupBlocks ≤ obs.reorgCount ∧ 1 ≤ obs.maxDepthSeen then .completedWithReorgUncertainty
  else .stayConfirming

def mapDecisionToStatus : ReorgDecision → Option Status
  | .stayConfirming => none
  | .completed => some .completed
  | .completedWithReorgUncertainty => some .completedWithReorgUncertainty
  | .failedNoChainRecord => some .failed

/-- `_chain_poll_tick_run`, of one row; a read may fail. A claim that is in no block has no
confirmations. -/
def Row.chainPoll (row : Row) : Option ℕ → Row
  | none => row
  | some confs => { row with
      claimTxConfirmations := confs
      claimTxReorgObservedCount := row.claimTxReorgObservedCount +
        if 0 < row.claimTxConfirmations ∧ confs < row.claimTxConfirmations then 1 else 0 }

/-- The observation after one more poll, as its fields are described. -/
def ConfirmationObservation.next : Option ℕ → ConfirmationObservation
  | none => obs
  | some confs =>
    { currentDepth := if confs = 0 then -1 else confs
      maxDepthSeen := max obs.maxDepthSeen confs
      reorgCount := obs.reorgCount + if 0 < obs.currentDepth ∧ confs < obs.currentDepth then 1 else 0 }

/-- Before the tick gives up, the depth says enough; after that, the claim was in a block
and is not deep enough. -/
def Regular : Prop :=
  if s.claimReorgGiveupBlocks ≤ obs.reorgCount then obs.currentDepth < s.claimMinConfirmations ∧ 1 ≤ obs.maxDepthSeen
  else 1 ≤ s.claimMinConfirmations ∨ 0 < obs.currentDepth

/-- The columns hold the observation. -/
structure Row.Shows (row : Row) (obs : ConfirmationObservation) : Prop where
  status : row.status = .confirming
  depth : obs.currentDepth = if row.claimTxConfirmations = 0 then -1 else (row.claimTxConfirmations : ℤ)
  reorgs : row.claimTxReorgObservedCount = obs.reorgCount

lemma Row.Shows.poll {row : Row} {obs : ConfirmationObservation} (h : row.Shows obs) (read : Option ℕ) :
    (row.chainPoll read).Shows (obs.next read) := by
  obtain ⟨hs, hd, hr⟩ := h
  cases read with
  | none => exact ⟨hs, hd, hr⟩
  | some confs => constructor <;> grind [Row.chainPoll, ConfirmationObservation.next]

lemma Row.Shows.polls {row : Row} {obs : ConfirmationObservation} (h : row.Shows obs) (reads : List (Option ℕ)) :
    (reads.foldl Row.chainPoll row).Shows (reads.foldl ConfirmationObservation.next obs) := by
  induction reads generalizing row obs with
  | nil => exact h
  | cons read reads ih => exact ih (h.poll read)

def Row.confirming (row : Row) : Row :=
  { row with status := .confirming, claimTxConfirmations := 0, claimTxReorgObservedCount := 0 }

theorem tick_follows_rule_iff (s : Settings) (row : Row) (reads : List (Option ℕ)) (kind : SourceKind) :
    let obs := reads.foldl ConfirmationObservation.next {}
    forwardDispatch .confirming (observeReverseExit s (reads.foldl Row.chainPoll row.confirming)) kind =
      mapDecisionToStatus (decideTerminalState s obs) ↔ Regular s obs := by
  intro obs
  obtain ⟨hs, hd, hr⟩ : (reads.foldl Row.chainPoll row.confirming).Shows obs :=
    Row.Shows.polls ⟨rfl, rfl, rfl⟩ reads
  simp only [forwardDispatch, observeReverseExit, hs, hr, decideTerminalState, Regular, Option.some.injEq,
    decide_eq_true_eq]
  grind [mapDecisionToStatus]

/-- The claim is deep enough after twelve rollbacks. -/
theorem deep_claim_uncertain :
    let row : Row := { setup := { sourceKind := .lightningSelf } }
    let reads := (List.replicate 12 [some 1, some 0]).flatten ++ [some 2]
    forwardDispatch .confirming (observeReverseExit {} (reads.foldl Row.chainPoll row.confirming)) .lightningSelf ≠
      mapDecisionToStatus (decideTerminalState {} (reads.foldl ConfirmationObservation.next {})) := by
  decide

end AgentWallet.Anonymize.Session
