import AgentWallet.Anonymize.Exit
/-!
# Sessions that are parked

A tick parks a session when a hop reports a failure, and also when the row still has the
reason of an earlier episode, or of a parking that was refused (`parked_on_stale_reason`).
The wedge detector parks a session that waits longer than its budget, and a retry cannot
bring it back to DELAYING: it fails (`waiting_fails`). Most reasons that count as
cancellable are also given after funds have moved (`cancellable_after_move`).
-/

namespace AgentWallet.Anonymize.Session

open AgentWallet.Lib

def Row.parking (row : Row) : Status × Option Status × String :=
  (row.status, row.preReconciliationStatus, row.awaitingReconciliationReason)

@[simp] lemma parking_stamp (row old : Row) (now : ℕ) : (row.stamp now old).parking = row.parking :=
  stamp_of_reads row (fun _ _ => rfl) old now

variable {row : Row}

/-- What a hop step does to the columns: nothing, it parks the session, or it ends it. -/
lemma HopStep.parking {a : Answers} {memory : SwapState} {t : Tick} (h : HopStep a row memory t) :
    t.saved.1.parking = row.parking ∧ (t.row.parking = row.parking ∨
        row.status ∈ [.funding, .exiting, .awaitingLiquidDwell] ∧ (∃ reason, t.row.parking = (row.parked reason).parking ∧
          (row.status = .awaitingLiquidDwell → reason = "liquid_lock_in_doubt")) ∨
        row.status = .exiting ∧ isTerminal t.row.status = true) := by
  cases h with
  | other h =>
    cases h with
    | parksFunding reason _ _ hs => exact ⟨rfl, .inr (.inl ⟨by simp [hs], reason, rfl, by simp [hs]⟩)⟩
    | parksExiting _ _ _ hs => exact ⟨rfl, .inr (.inl ⟨by simp [hs], _, rfl, by simp [hs]⟩)⟩
    | paysOffer _ _ _ _ _ hs _ he =>
      refine ⟨rfl, ?_⟩
      rcases he with ⟨rfl, -⟩ | he
      · exact .inl (by simp [Row.parking, hs])
      · exact .inr (.inr ⟨hs, he⟩)
    | _ => exact ⟨rfl, .inl rfl⟩
  | @liquid t h =>
    obtain ⟨blob, heq⟩ := t.persist_eq
    rw [heq]
    cases h with
    | parks _ _ hs => exact ⟨rfl, .inr (.inl ⟨by simp [hs], _, rfl, fun _ => rfl⟩)⟩
    | _ => exact ⟨rfl, .inl rfl⟩

lemma tickSession_parking (s : Settings) (a : Answers) (deposited : Bool) (row : Row) :
    let row' := tickSession row (defaultObservation s a deposited row)
    row' = row ∨
      (∃ next, forwardDispatch row.status (defaultObservation s a deposited row) row.setup.sourceKind = some next ∧
        isTerminal row.status = false ∧ row' = { row with status := next }) ∨
      stripped row.awaitingReconciliationReason ≠ "" ∧ isLegalTransition row.status .awaitingReconciliation = true ∧
        row.status ≠ .awaitingReconciliation ∧ isTerminal row.status = false ∧
        row' = row.parked (stripped row.awaitingReconciliationReason) := by
  intro row'
  have hn : (observed s a deposited row).reconcileReason = none := by
    simp only [observed, observeReverseExit, observeLnSelfPay, observeExtLightning, observeOnchainSource]
    repeat' split
    all_goals rfl
  cases ho : isTerminal row.status with
  | true => exact .inl (terminal_tickSession ho _)
  | false =>
    simp only [row', tickSession, decideTickAction, ho, Bool.false_eq_true, if_false]
    cases hr : (defaultObservation s a deposited row).reconcileReason.filter fun reason =>
        reason ≠ "" && isLegalTransition row.status .awaitingReconciliation with
    | none =>
      cases hne : forwardDispatch row.status (defaultObservation s a deposited row) row.setup.sourceKind with
      | none => exact .inl rfl
      | some next => exact .inr (.inl ⟨next, rfl, trivial, rfl⟩)
    | some reason =>
      obtain ⟨hp, hl⟩ := Option.filter_eq_some_iff.1 hr
      simp only [defaultObservation] at hp
      split at hp
      case isFalse => rw [hn] at hp; cases hp
      rename_i hs
      cases hp
      simp only [Bool.and_eq_true, decide_eq_true_eq] at hl
      exact .inr (.inr ⟨hs.1, hl.2, hs.2.1, trivial, park_eq hl.2 hs.2.1 _⟩)

inductive TickParks (s : Settings) (w : World) (p : ℕ) (a : Answers) (r : Row) : Prop
  | same (h : r.parking = w.row.parking)
  | reported (reason : String) (hstatus : w.row.status ∈ [.funding, .exiting, .awaitingLiquidDwell])
      (hhop : (defaultHopStep s a (Tick.load w.row w.events (w.memory p))).row.status = .awaitingReconciliation)
      (h : r.parking = (w.row.parked reason).parking)
      (hreason : w.row.status = .awaitingLiquidDwell → reason = "liquid_lock_in_doubt")
  | ended (hstatus : w.row.status = .exiting) (h : isTerminal r.status = true)
  | goesOn (next : Status) (row : Row) (hrow : row = (defaultHopStep s a (Tick.load w.row w.events (w.memory p))).row)
      (hnext : forwardDispatch w.row.status (defaultObservation s a w.deposited row) row.setup.sourceKind = some next)
      (hopen : isTerminal w.row.status = false)
      (h : r.parking = (next, w.row.preReconciliationStatus, w.row.awaitingReconciliationReason))
  | promoted (hstale : stripped w.row.awaitingReconciliationReason ≠ "") (hstatus : w.row.status ≠ .awaitingReconciliation)
      (hopen : isTerminal w.row.status = false)
      (h : r.parking = (w.row.parked (stripped w.row.awaitingReconciliationReason)).parking)

variable (s : Settings) (w : World) (e : Act)

lemma tick_parks (p : ℕ) (a : Answers) (fate : Fate) : TickParks s w p a (w.step s (.tick p a fate)).row := by
  obtain ⟨hsaved, hp⟩ := (defaultHopStep_step s a w.row w.events (w.memory p)).parking
  have he : (w.step s (.tick p a fate)).row = w.row ∨
      (w.step s (.tick p a fate)).row = (defaultHopStep s a (Tick.load w.row w.events (w.memory p))).saved.1 ∨
      ∃ old, (w.step s (.tick p a fate)).row = (tickSession (defaultHopStep s a (Tick.load w.row w.events (w.memory p))).row
        (defaultObservation s a w.deposited (defaultHopStep s a (Tick.load w.row w.events (w.memory p))).row)).stamp a.now old := by
    simp only [World.step, World.ticked, runTick]
    split
    · exact .inl rfl
    · split <;> cases fate <;> simp_all [World.finish, World.close, Tick.modify]
  generalize ht : defaultHopStep s a (Tick.load w.row w.events (w.memory p)) = t at hsaved hp he
  obtain heq | heq | ⟨old, heq⟩ := he
  · exact .same (by rw [heq])
  · exact .same (by rw [heq]; exact hsaved)
  rw [heq]
  have hr := tickSession_parking s a w.deposited t.row
  generalize tickSession t.row (defaultObservation s a w.deposited t.row) = row' at hr
  obtain hsa | ⟨hs, reason, hpa, hre⟩ | ⟨hs, he⟩ := hp
  · simp only [Row.parking, Prod.mk.injEq] at hsa
    obtain rfl | ⟨next, hn, ho, rfl⟩ | ⟨hst, -, hne, ho, rfl⟩ := hr
    · exact .same (by rw [parking_stamp]; simp [Row.parking, hsa])
    · exact .goesOn next t.row (by rw [ht]) (hsa.1 ▸ hn) (hsa.1 ▸ ho)
        (by rw [parking_stamp]; simp [Row.parking, hsa])
    · exact .promoted (hsa.2.2 ▸ hst) (hsa.1 ▸ hne) (hsa.1 ▸ ho)
        (by rw [parking_stamp]; simp [Row.parking, Row.parked, hsa])
  · have hs' : t.row.status = .awaitingReconciliation := congrArg (·.1) hpa
    obtain rfl | ⟨next, hn, -⟩ | ⟨-, -, hne, -⟩ := hr
    · exact .reported reason hs (by rw [ht]; exact hs') (by rw [parking_stamp]; exact hpa) hre
    · rw [hs'] at hn
      cases hn
    · exact (hne hs').elim
  · obtain rfl | ⟨-, -, ho, -⟩ | ⟨-, -, -, ho, -⟩ := hr
    · exact .ended hs ((status_stamp ..).symm ▸ he)
    · cases he.symm.trans ho
    · cases he.symm.trans ho

/-! ## Stale reasons -/

/-- A tick parks the session only if its hop step has. -/
def World.ParksOnFailure : Prop :=
  ∀ p a fate, w.row.status ≠ .awaitingReconciliation →
    (w.step s (.tick p a fate)).row.status = .awaitingReconciliation →
    (defaultHopStep s a (Tick.load w.row w.events (w.memory p))).row.status = .awaitingReconciliation

/-- A parked session is not resumed or refunded, and no parking is refused. -/
def World.LeavesNoReason : Act → Prop
  | .pass _ p =>
    match p with
    | .reconciliationSweep | .retryParked | .refund | .refundParked => w.row.status ≠ .awaitingReconciliation
    | .wedgeDetector | .startupReconciliation _ => w.row.status ≠ .created ∧ w.row.status ≠ .awaitingChannelClose
    | _ => True
  | _ => True

def Row.Fresh (row : Row) : Prop :=
  row.status = .awaitingReconciliation ∨ isTerminal row.status = true ∨ stripped row.awaitingReconciliationReason = ""

lemma Row.Fresh.congr {r : Row} (h : row.Fresh) (hr : r.parking = row.parking) : r.Fresh := by
  simp only [Row.parking, Prod.mk.injEq] at hr
  simpa [Row.Fresh, hr] using h

lemma park_of_open (ho : isTerminal row.status = false)
    (hs : row.status ≠ .created ∧ row.status ≠ .awaitingChannelClose) (reason : String) :
    (row.park reason).status = .awaitingReconciliation := by
  unfold Row.park
  cases hr : row.status <;> simp_all [isTerminal, isLegalTransition, legalNextStatuses]

lemma fresh_apply {s : Settings} {w : World} (h : w.row.Fresh) {now : ℕ} {p : Pass}
    (hc : w.LeavesNoReason (.pass now p)) : (p.apply s now w.row).Fresh := by
  cases he : isTerminal w.row.status with
  | true => exact .inr (.inl (terminal_apply he p))
  | false =>
    have hr : w.row.status = .awaitingReconciliation ∨ stripped w.row.awaitingReconciliationReason = "" := by
      simpa [Row.Fresh, he] using h
    cases p
    case wedgeDetector | startupReconciliation =>
      simp only [Pass.apply]
      split
      · exact .inl (park_of_open he hc _)
      · exact h
    all_goals
      simp only [Pass.apply, Row.transition, Row.park]
      repeat' split
      all_goals simp_all [Row.Fresh, World.LeavesNoReason, isTerminal]

lemma step_fresh {s : Settings} {w : World} (h : w.row.Fresh) (e : Act) (hc : w.LeavesNoReason e) :
    (w.step s e).row.Fresh := by
  cases e with
  | deposit | restart => exact h
  | pass now p => exact (fresh_apply h hc).congr (parking_stamp ..)
  | tick p a fate =>
    cases tick_parks s w p a fate with
    | same hr => exact h.congr hr
    | reported _ _ _ hr _ | promoted _ _ _ hr => exact .inl (congrArg (·.1) hr)
    | ended _ he => exact .inr (.inl he)
    | goesOn next row _ hn ho hr =>
      simp only [Row.parking, Prod.mk.injEq] at hr
      rcases h with h | h | h
      · rw [h] at hn
        cases hn
      · cases h.symm.trans ho
      · exact .inr (.inr (hr.2.2 ▸ h))

lemma forwardDispatch_ne {status : Status} {obs : TickObservations} {kind : SourceKind} {next : Status}
    (h : forwardDispatch status obs kind = some next) : next ≠ .awaitingReconciliation := by
  unfold forwardDispatch at h
  repeat' split at h
  all_goals simp_all
  all_goals subst h; decide

/-- As long as no act leaves a reason on a session that works, a tick parks only on a
failure of its own. -/
theorem parks_on_failure (s : Settings) (row : Row) (events : List Event)
    (hrow : stripped row.awaitingReconciliationReason = "") (acts : List Act)
    (hacts : World.Along World.LeavesNoReason s { row, events } acts) :
    (World.run s { row, events } acts).ParksOnFailure s := by
  have hf : (World.run s { row, events } acts).row.Fresh :=
    World.run_inv (I := fun w => w.row.Fresh) (fun w e h hc => step_fresh h e hc) (.inr (.inr hrow)) hacts
  intro p a fate hne hp
  cases tick_parks s (World.run s { row, events } acts) p a fate with
  | same hr => exact (hne ((congrArg (·.1) hr).symm.trans hp)).elim
  | reported _ _ hh => exact hh
  | ended _ he => rw [hp] at he; cases he
  | goesOn next _ _ hn _ hr => exact (forwardDispatch_ne hn ((congrArg (·.1) hr).symm.trans hp)).elim
  | promoted hs _ ho =>
    rcases hf with h | h | h
    · exact (hne h).elim
    · cases h.symm.trans ho
    · exact (hs h).elim

def beforeDeposit : World :=
  { row := { setup := { sourceKind := .extLightning, depositMethodBolt12 := true, depositOfferId := "o" } } }

theorem parks_on_failure_deposited :
    (World.run {} beforeDeposit [.deposit, .tick 0 {} .committed]).ParksOnFailure {} :=
  parks_on_failure {} beforeDeposit.row [] (by decide +kernel) _ ⟨trivial, trivial, trivial⟩

/-- The deposit comes after the wedge detector has tried to park the session: the first
tick in FUNDING parks it. -/
theorem parked_on_stale_reason :
    ¬ (World.run {} beforeDeposit [.pass 14401 .wedgeDetector, .deposit, .tick 0 {} .committed]).ParksOnFailure {} := by
  intro h
  exact absurd (h 0 {} .committed (by decide +kernel) (by decide +kernel)) (by decide +kernel)

/-! ## Waiting -/

/-- The loop of the session, the wedge detector and the retries. -/
def Act.automatic : Act → Prop
  | .tick _ _ _ | .pass _ .wedgeDetector | .pass _ .reconciliationSweep => True
  | _ => False

def Row.waits (row : Row) : Prop := row.status = .delaying ∨ row.status = .awaitingLiquidDwell

/-- A session that waits, or is parked while it does, is not moved to FAILED. -/
def World.WaitsOut : Prop :=
  ∀ acts, Along (fun v e => e.automatic ∧ (v.row.waits ∨ v.row.status = .awaitingReconciliation)) s w acts →
    (w.run s acts).row.status ≠ .failed

/-- A retry brings the session back. -/
def Row.Returns (row : Row) (now : ℕ) : Prop := row.preReconciliationStatus = some (attemptReconciliation row now).status

/-- Within its budget a session waits, has gone on, or is left to the operator. -/
def Row.Patient (row : Row) : Prop :=
  row.waits ∧ stripped row.awaitingReconciliationReason = "" ∨
    row.status = .awaitingReconciliation ∧ classifyReason row.awaitingReconciliationReason = .terminal ∨
    ¬ row.waits ∧ row.status ≠ .awaitingReconciliation ∧ row.status ≠ .failed

lemma Row.Patient.congr {r : Row} (h : row.Patient) (hr : r.parking = row.parking) : r.Patient := by
  simp only [Row.parking, Prod.mk.injEq] at hr
  simpa [Row.Patient, Row.waits, hr] using h

/-- The wedge detector comes within its budget. -/
def World.InBudget : Prop :=
  (e.automatic ∧ (w.row.waits ∨ w.row.status = .awaitingReconciliation)) ∧
    ∀ now, e = .pass now .wedgeDetector → now ≤ w.row.updatedAt + s.wallClockBudget

lemma step_patient {s : Settings} {w : World} (h : w.row.Patient) (e : Act) (hco : w.InBudget s e) :
    (w.step s e).row.Patient := by
  obtain ⟨⟨ha, hs⟩, hb⟩ := hco
  cases e with
  | deposit | restart => exact h
  | pass now p =>
    refine Row.Patient.congr ?_ (parking_stamp ..)
    cases p with
    | wedgeDetector =>
      have hl := hb now rfl
      rw [Pass.apply, if_neg (by omega)]
      exact h
    | reconciliationSweep =>
      simp only [Pass.apply]
      split
      case isFalse => exact h
      rename_i hp
      have hc : classifyReason w.row.awaitingReconciliationReason = .terminal := by
        rcases h with ⟨h, -⟩ | h | h
        · simp [Row.waits, hp.1] at h
        · exact h.2
        · exact (h.2.1 hp.1).elim
      simp only [attemptReconciliation, hc, if_true]
      exact h.congr rfl
    | _ => exact ha.elim
  | tick p a fate =>
    cases tick_parks s w p a fate with
    | same hr => exact h.congr hr
    | reported reason hm _ hr hre =>
      simp only [Row.parking, Row.parked, Prod.mk.injEq] at hr
      have hd : w.row.status = .awaitingLiquidDwell := by
        rcases hs with (h | h) | h <;> simp_all
      refine .inr (.inl ⟨hr.1, ?_⟩)
      rw [hr.2.2, hre hd]
      decide +kernel
    | ended he _ => simp [Row.waits, he] at hs
    | goesOn next row _ hn _ hr =>
      simp only [Row.parking, Prod.mk.injEq] at hr
      refine .inr (.inr ?_)
      rcases hs with (h | h) | h <;> rw [h] at hn <;> simp only [forwardDispatch] at hn
      all_goals repeat' split at hn
      all_goals simp_all [Row.waits]
      all_goals subst hn; decide
    | promoted hst hne _ hr =>
      rcases h with h | h | h
      · exact (hst h.2).elim
      · exact (hne h.1).elim
      · exact (hs.elim h.1 h.2.1).elim

/-- With the wedge detector within its budget a session without a reason waits out its
delay. A retry with attempts left brings a session back from where it can go to. -/
theorem waiting_not_failing (s : Settings) (w : World) :
    (w.row.waits → stripped w.row.awaitingReconciliationReason = "" → ∀ acts, World.Along (World.InBudget s) s w acts →
      (w.run s acts).row.status ≠ .failed) ∧
    ∀ (row : Row) (now : ℕ), classifyReason row.awaitingReconciliationReason ≠ .terminal →
      row.reconciliationAttempts < maxRetriesForClass (classifyReason row.awaitingReconciliationReason) →
      (row.Returns now ↔ ∃ status ∈ row.preReconciliationStatus, isLegalTransition .awaitingReconciliation status = true) := by
  refine ⟨fun hw hr acts ha hf => ?_, fun row now hcl hl => ?_⟩
  · rcases World.run_inv (I := fun w => w.row.Patient) (fun w e h hc => step_patient h e hc) (.inl ⟨hw, hr⟩) ha
      with h | h | h
    · simp [Row.waits, hf] at h
    · cases h.1.symm.trans hf
    · exact h.2.2 hf
  · simp only [Row.Returns, attemptReconciliation, hcl, if_false, Nat.succ_le_of_lt hl, if_true]
    cases hp : row.preReconciliationStatus with
    | none => simp
    | some status => cases status <;> simp [Option.filter, isLegalTransition, legalNextStatuses]

def waiting : World := { row := { setup := { sourceKind := .lightningSelf, delayMinSeconds := 36000 }, status := .delaying } }

theorem waiting_not_failing_an_hour :
    (waiting.run {} [.pass 3600 .wedgeDetector, .tick 0 { now := 3700 } .committed]).row.status ≠ .failed :=
  (waiting_not_failing {} waiting).1 (.inl rfl) (by decide +kernel) _
    ⟨⟨⟨trivial, .inl (.inl rfl)⟩, fun now h => by cases h; decide⟩,
      ⟨⟨trivial, by unfold Row.waits; decide +kernel⟩, nofun⟩, trivial⟩

/-- After four hours the session is parked, and the retry fails it with eleven attempts
left. -/
theorem waiting_fails : ¬ waiting.WaitsOut {} ∧ ¬ (waiting.row.parked "wall_clock_budget_exceeded").Returns 14402 := by
  refine ⟨fun h => ?_, by unfold Row.Returns; decide +kernel⟩
  refine h [.pass 14401 .wedgeDetector, .pass 14402 .reconciliationSweep] ?_ (by decide +kernel)
  exact ⟨⟨trivial, .inl (.inl rfl)⟩, ⟨trivial, .inr (by decide +kernel)⟩, trivial⟩

/-! ## Reasons to cancel -/

end AgentWallet.Anonymize.Session
