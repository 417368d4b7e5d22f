import AgentWallet.Anonymize.Legs
import Mathlib.Logic.Relation
/-!
# The walk of the status

`transition_session` refuses what is not in `_TRANSITIONS`, but a BOLT 12 exit writes the
status itself. So, as long as the programs of a session do not overlap, its status walks
along the table and one edge more, from EXITING to COMPLETED, and never leaves a terminal
status (`status_walks`). What a tick decides on by itself is an edge of the table
(`forwardDispatch_legal`).
-/

namespace AgentWallet.Anonymize.Session

open Relation

/-- An edge of the table, or the one by which a BOLT 12 exit skips CONFIRMING. -/
def Moves (fromStatus toStatus : Status) : Prop :=
  toStatus ∈ legalNextStatuses fromStatus ∨ fromStatus = .exiting ∧ toStatus = .completed

abbrev Walks : Status → Status → Prop := ReflTransGen Moves

variable {row : Row} {s : Settings}

lemma walks_of_legal {a b : Status} (h : isLegalTransition a b = true) : Walks a b := by
  simp only [isLegalTransition, Bool.or_eq_true, decide_eq_true_eq] at h
  rcases h with rfl | h
  · exact .refl
  · exact .single (.inl h)

lemma walks_ite {p : Prop} [Decidable p] {row' : Row} (h : p → Walks row.status row'.status) :
    Walks row.status (if p then row' else row).status := by
  split
  · exact h ‹_›
  · exact .refl

lemma park_walks (row : Row) (reason : String) : Walks row.status (row.park reason).status := by
  unfold Row.park
  split
  · exact .refl
  · dsimp only
    split
    · exact walks_of_legal ‹_›
    · exact .refl

lemma transition_walks (row : Row) (status : Status) : Walks row.status (row.transition status).status :=
  walks_ite walks_of_legal

lemma forwardDispatch_legal {status toStatus : Status} {obs : TickObservations} {k : SourceKind}
    (h : forwardDispatch status obs k = some toStatus) : toStatus ∈ legalNextStatuses status := by
  unfold forwardDispatch at h
  split at h <;> grind [legalNextStatuses]

lemma tickSession_walks (row : Row) (obs : TickObservations) : Walks row.status (tickSession row obs).status := by
  unfold tickSession decideTickAction
  split
  · exact .refl
  · rename_i h
    split at h
    · cases h
    · split at h
      · cases h
      · cases hf : forwardDispatch row.status obs row.setup.sourceKind <;> simp [hf] at h
        exact .single (.inl (h ▸ forwardDispatch_legal hf))
  · exact park_walks row _

lemma attemptReconciliation_walks {now : ℕ} (h : row.status = .awaitingReconciliation) :
    Walks row.status (attemptReconciliation row now).status := by
  simp only [attemptReconciliation]
  split
  · exact .refl
  · rw [h]
    refine walks_of_legal ?_
    dsimp only
    split
    · cases hp : row.preReconciliationStatus.filter (isLegalTransition .awaitingReconciliation) with
      | none => rfl
      | some status => exact (Option.filter_eq_some_iff.1 hp).2
    · rfl

lemma apply_walks {now : ℕ} (p : Pass) : Walks row.status (p.apply s now row).status := by
  cases p with
  | claimWatch => exact .refl
  | cancel | refund => exact transition_walks row _
  | boundedRetryExhausted | wedgeDetector | startupReconciliation => exact walks_ite fun _ => park_walks row _
  | failParked | cancelParked | refundParked => exact walks_ite fun _ => transition_walks row _
  | reconciliationSweep => exact walks_ite fun h => attemptReconciliation_walks h.1
  | preStatusHeuristic => exact walks_ite fun _ => .refl
  | retryParked =>
    simp only [Pass.apply]
    split
    · exact walks_ite fun h => h.1 ▸ walks_of_legal h.2
    · exact .refl

/-- The hops before the exit, and what a tick has committed on the way. -/
lemma HopStep.walks {a : Answers} {memory : SwapState} {t : Tick} (h : HopStep a row memory t) :
    t.saved.1.status = row.status ∧ (row.status ≠ .exiting → Walks row.status t.row.status) := by
  have parked {status : Status} (hs : row.status = status) (hl : .awaitingReconciliation ∈ legalNextStatuses status) :
      Walks row.status .awaitingReconciliation := .single (.inl (hs ▸ hl))
  cases h with
  | other h =>
    cases h with
    | parksFunding _ _ _ hs => exact ⟨rfl, fun _ => parked hs (by decide)⟩
    | parksExiting _ _ _ hs | paysOffer _ _ _ _ _ hs => exact ⟨rfl, fun h => (h hs).elim⟩
    | _ => exact ⟨rfl, fun _ => .refl⟩
  | @liquid t h =>
    obtain ⟨blob, heq⟩ := t.persist_eq
    rw [heq]
    cases h with
    | parks _ _ hs => exact ⟨rfl, fun _ => parked hs (by decide)⟩
    | _ => exact ⟨rfl, fun _ => .refl⟩

lemma defaultHopStep_walks (s : Settings) (a : Answers) (row : Row) (events : List Event) (memory : SwapState) :
    Walks row.status (defaultHopStep s a (Tick.load row events memory)).row.status := by
  by_cases he : row.status = .exiting
  case neg => exact (defaultHopStep_step s a row events memory).walks.2 he
  simp only [defaultHopStep]
  split
  case isTrue h => simp [Tick.load, he] at h
  split
  · simp only [executeBolt12PayHopStep]
    repeat' split
    case h_2 => exact .single (.inr ⟨he, rfl⟩)
    case h_3 => exact walks_of_legal (b := .failed) (by rw [he]; rfl)
    all_goals exact .refl
  split
  case isTrue h => simp [Tick.load, he] at h
  split
  case isTrue h => simp [Tick.load, he] at h
  simp only [executeReverseHopStep, issueReverseSwap, pollAndClaim, pollLockup, payFailed]
  repeat' split
  all_goals first | exact .refl | exact park_walks row _

lemma step_walks (s : Settings) (w : World) (e : Act) : Walks w.row.status (w.step s e).row.status := by
  cases e with
  | deposit | restart => exact .refl
  | pass now p => exact (status_stamp ..).symm ▸ apply_walks p
  | tick p a fate =>
    have hro := defaultHopStep_walks s a w.row w.events (w.memory p)
    have hs := (defaultHopStep_step s a w.row w.events (w.memory p)).walks.1
    simp only [World.step, World.ticked, runTick]
    generalize defaultHopStep s a (Tick.load w.row w.events (w.memory p)) = t at hro hs
    split
    case isTrue => exact .refl
    cases hr : t.raised <;> cases fate <;> simp only [World.finish, Tick.modify, hr, if_true]
    case false.committed => exact (status_stamp ..).symm ▸ hro.trans (tickSession_walks ..)
    all_goals exact hs ▸ .refl

lemma eq_of_terminal {a b : Status} (ht : isTerminal a = true) (h : Walks a b) : b = a := by
  obtain rfl | ⟨c, hm, -⟩ := h.cases_head
  · rfl
  · cases a <;> simp_all [isTerminal, Moves, legalNextStatuses]

/-- Whatever its programs do, one after the other, and however they end, the status of a
session walks along the table. Once the session has ended, its status stays and no call is
made for it. -/
theorem status_walks (s : Settings) (w : World) (acts : List Act) :
    Walks w.row.status (w.run s acts).row.status ∧
    (isTerminal w.row.status = true → (w.run s acts).row.status = w.row.status ∧ (w.run s acts).moves = w.moves) := by
  have hw : Walks w.row.status (w.run s acts).row.status :=
    World.run_of_step (I := fun w' => Walks w.row.status w'.row.status) (fun w' e h => h.trans (step_walks s w' e)) .refl
  refine ⟨hw, fun ht => ⟨eq_of_terminal ht hw, ?_⟩⟩
  refine (World.run_of_step (I := fun w' => isTerminal w'.row.status = true ∧ w'.moves = w.moves) (fun w' e h => ?_)
    ⟨ht, rfl⟩).2
  refine ⟨(eq_of_terminal h.1 (step_walks s w' e)).symm ▸ h.1, ?_⟩
  cases e with
  | tick p a fate => rw [World.step, if_pos h.1, h.2]
  | _ => exact h.2

end AgentWallet.Anonymize.Session
