import AgentWallet.Anonymize.Legs
/-!
# The way to the exit

A BOLT 12 exit is paid inside of the tick's transaction, and the row that stops a second
payment is committed after the call. A tick that is rolled back or cut off in between
leaves the next one to pay again (`offer_paid_twice`).

The delay before the exit is measured from the last write of the row for a Lightning
source (`delay_kept`), and from the funding of the submarine swap for an on-chain one, to
a target that every tick draws again (`delay_not_kept`).
-/

namespace AgentWallet.Anonymize.Session

open AgentWallet.Lib List

/-! ## The BOLT 12 exit -/

def offers (moves : List Moved) : List Outcome :=
  moves.filterMap fun m => match m.call with
    | .bolt12Offer _ => some m.outcome
    | _ => none

lemma offers_append (ms ms' : List Moved) : offers (ms ++ ms') = offers ms ++ offers ms' := filterMap_append

/-- A payment is followed by another one only if it failed. -/
def World.PaysOfferOnce (w : World) : Prop := (offers w.moves).Pairwise fun earlier _ => earlier = .failed

instance (w : World) : Decidable w.PaysOfferOnce := inferInstanceAs (Decidable (List.Pairwise _ _))

/-- A tick in EXITING commits, or is cut off before its call. -/
def World.ExitCommits (w : World) : Act → Prop
  | .tick _ _ fate => w.row.status = .exiting → fate = .committed ∨ fate = .crashed false
  | _ => True

def Row.OfferDone (row : Row) : Prop :=
  isTerminal row.status = true ∨ row.bolt12 = some .paid ∨ row.bolt12 = some .inFlight

variable {row : Row} {s : Settings}

lemma HopStep.offers {a : Answers} {memory : SwapState} {t : Tick} (h : HopStep a row memory t) :
    t.saved.1.bolt12 = row.bolt12 ∧ (offers t.moves = [] ∧ t.row.bolt12 = row.bolt12 ∨
      row.status = .exiting ∧ ¬ (row.bolt12 = some .paid ∨ row.bolt12 = some .inFlight) ∧
        (∃ o, offers t.moves = [o]) ∧ t.row.OfferDone ∧ t.raised = false) := by
  cases h with
  | other h =>
    cases h with
    | claims _ _ _ _ _ _ _ hms => rcases hms with rfl | ⟨o, rfl⟩ <;> exact ⟨rfl, .inl ⟨rfl, rfl⟩⟩
    | selfPays _ _ _ _ _ _ _ _ _ _ _ _ hms => rcases hms with rfl | ⟨-, o, rfl⟩ <;> exact ⟨rfl, .inl ⟨rfl, rfl⟩⟩
    | paysOffer outcome status es es' o hs hu he =>
      refine ⟨rfl, .inr ⟨hs, not_or.2 hu, ⟨o, rfl⟩, ?_, rfl⟩⟩
      rcases he with ⟨-, rfl⟩ | he
      · exact .inr (.inr rfl)
      · exact .inl he
    | _ => exact ⟨rfl, .inl ⟨rfl, rfl⟩⟩
  | @liquid t h =>
    obtain ⟨blob, heq⟩ := t.persist_eq
    rw [heq]
    cases h with
    | abandons _ _ _ _ _ _ _ _ _ _ _ hms => rcases hms with ⟨rfl, -⟩ | ⟨rfl, -⟩ <;> exact ⟨rfl, .inl ⟨rfl, rfl⟩⟩
    | _ => exact ⟨rfl, .inl ⟨rfl, rfl⟩⟩

lemma terminal_apply {now : ℕ} (h : isTerminal row.status = true) (p : Pass) :
    isTerminal (p.apply s now row).status = true := by
  have hp : row.status ≠ .awaitingReconciliation := by
    intro heq
    rw [heq] at h
    cases h
  have ht : ∀ status, isTerminal (row.transition status).status = true := by
    intro status
    unfold Row.transition
    split
    case isFalse => exact h
    rename_i hl
    have hla : legalNextStatuses row.status = [] := by
      cases hr : row.status <;> rw [hr] at h <;> first | rfl | cases h
    have hs : row.status = status := by simpa [isLegalTransition, hla] using hl
    exact hs ▸ h
  cases p with
  | cancel | refund => exact ht _
  | retryParked => cases hpr : row.preReconciliationStatus <;> simp [Pass.apply, h, hp, hpr]
  | _ => simp [Pass.apply, h, hp]

lemma terminal_tickSession (h : isTerminal row.status = true) (obs : TickObservations) : tickSession row obs = row := by
  simp [tickSession, decideTickAction, h]

structure World.OneOffer (w : World) : Prop where
  once : (offers w.moves).length ≤ 1
  done : offers w.moves ≠ [] → w.row.OfferDone

lemma step_oneOffer {w : World} (h : w.OneOffer) (e : Act) (hco : w.ExitCommits e) : (w.step s e).OneOffer := by
  cases e with
  | deposit | restart => exact ⟨h.once, h.done⟩
  | pass now p =>
    refine ⟨h.once, fun hne => (h.done hne).imp (fun he => (status_stamp ..).symm ▸ terminal_apply he p) fun hp => ?_⟩
    have hb : ((p.apply s now w.row).stamp now w.row).bolt12 = w.row.bolt12 :=
      congrArg (·.2.2.2.2.2) ((funds_stamp ..).trans (funds_apply ..))
    exact hb ▸ hp
  | tick p a fate =>
    by_cases he : isTerminal w.row.status = true
    · rw [World.step, if_pos he]
      exact h
    have hp : offers w.moves ≠ [] → w.row.bolt12 = some .paid ∨ w.row.bolt12 = some .inFlight :=
      fun hne => (h.done hne).resolve_left he
    -- a tick that pays nothing keeps the outcome on the row
    have keep : ∀ {w' : World} ms, w'.moves = w.moves ++ ms → offers ms = [] → w'.row.bolt12 = w.row.bolt12 →
        w'.OneOffer := by
      intro w' ms hm hn hb
      have heq : offers w'.moves = offers w.moves := by rw [hm, offers_append, hn, append_nil]
      exact ⟨heq ▸ h.once, fun hne => .inr (hb ▸ hp (heq ▸ hne))⟩
    obtain heq | hstep := step_tick s w p a fate
    · rw [heq]
      exact h
    generalize w.step s (.tick p a fate) = w' at hstep
    cases hstep with
    | committed t hop =>
      have hb : ((tickSession t.row (defaultObservation s a w.deposited t.row)).stamp a.now t.saved.1).bolt12 =
          t.row.bolt12 :=
        congrArg (·.2.2.2.2.2) ((funds_stamp ..).trans (funds_tickSession ..))
      obtain ⟨-, ⟨hn, hsa⟩ | ⟨-, hu, ⟨o, ho⟩, hd, -⟩⟩ := hop.offers
      · exact keep t.moves rfl hn (hb.trans hsa)
      have hfi : offers w.moves = [] := not_not.1 fun hne => hu (hp hne)
      refine ⟨?_, fun _ => hd.imp (fun he => ?_) fun hp => hb ▸ hp⟩
      · simp [World.close, offers_append, hfi, ho]
      · dsimp only
        rw [terminal_tickSession he]
        exact (status_stamp ..).symm ▸ he
    | rolledBack t hop hf =>
      obtain ⟨hs, ⟨hn, -⟩ | ⟨hst, -, -, -, hr⟩⟩ := hop.offers
      · exact keep t.moves rfl hn hs
      · rcases hf with rfl | hf
        · rcases hco hst with h | h <;> cases h
        · cases hr.symm.trans hf
    | crashed t ms hop hms hf hc =>
      obtain ⟨hs, ⟨hn, -⟩ | ⟨hst, -⟩⟩ := hop.offers
      · exact keep ms rfl (eq_nil_of_subset_nil (hn ▸ filterMap_subset _ hms)) hs
      · have hcu := hc ((hco hst).resolve_left hf)
        exact keep ms rfl (by rw [hcu]; rfl) hs

/-- As long as the ticks in EXITING commit, or are cut off before they pay, the offer is
paid once. -/
theorem offer_paid_once (s : Settings) (row : Row) (events : List Event) (acts : List Act)
    (hacts : World.Along World.ExitCommits s { row, events } acts) :
    (World.run s { row, events } acts).PaysOfferOnce := by
  obtain ⟨ho, -⟩ := World.run_inv (I := World.OneOffer) (fun w e h hc => step_oneOffer h e hc)
    ⟨by simp [offers], by simp [offers]⟩ hacts
  unfold World.PaysOfferOnce
  match hp : offers (World.run s { row, events } acts).moves with
  | [] => exact .nil
  | [x] => exact pairwise_singleton _ _
  | _ :: _ :: _ => simp [hp] at ho

def offerStart : World :=
  { row := { setup := { sourceKind := .lightningSelf, exitKind := .bolt12Pay, bolt12Offer := "lno1", binAmountSat := 50000 }
             status := .exiting } }

theorem offer_paid_once_committed :
    (World.run {} offerStart [.tick 0 { offerPaid := some .paid } .committed]).PaysOfferOnce :=
  offer_paid_once {} offerStart.row [] _ ⟨fun _ => .inl rfl, trivial⟩

/-- The payment is settled, its tick is rolled back or cut off, and the next tick pays
again. -/
theorem offer_paid_twice :
    ¬ (World.run {} offerStart [.tick 0 { offerPaid := some .paid } .rolledBack,
      .tick 0 { offerPaid := some .paid } .committed]).PaysOfferOnce ∧
    ¬ (World.run {} offerStart [.tick 0 { offerPaid := some .inFlight } (.crashed true),
      .tick 1 { offerPaid := some .paid } .committed]).PaysOfferOnce := by
  decide +kernel

/-! ## The delay -/

def Setup.minDelay (setup : Setup) : ℕ := if setup.sourceKind.onchain then setup.interLegMinSeconds else setup.delayMinSeconds

def Act.time : Act → ℕ
  | .tick _ a _ => a.now
  | .pass now _ => now
  | _ => 0

/-- The time of an act is not before the last write. -/
def World.Clocked (w : World) : Act → Prop
  | .restart _ | .deposit => True
  | e => w.row.updatedAt ≤ e.time

/-- Between the act that brings the session to DELAYING and the one that brings it to
EXITING the minimum passes, and what a tick draws makes no difference to it. -/
def World.KeepsDelay (s : Settings) (w : World) : Prop :=
  (∀ enter wait exit, w.row.status ≠ .delaying → (w.step s enter).row.status = .delaying →
    Along (fun w e => w.Clocked e ∧ (w.step s e).row.status = .delaying) s (w.step s enter) wait →
    ((w.step s enter).run s wait).Clocked exit → (((w.step s enter).run s wait).step s exit).row.status = .exiting →
    enter.time + w.row.setup.minDelay ≤ exit.time) ∧
  ∀ p a fate drawn, w.row.status = .delaying →
    w.step s (.tick p { a with sampled := drawn } fate) = w.step s (.tick p a fate)

lemma HopStep.kept {a : Answers} {memory : SwapState} {t : Tick} (h : HopStep a row memory t) :
    t.row.setup = row.setup ∧ t.saved.1.setup = row.setup ∧ t.saved.1.status = row.status := by
  cases h with
  | other h => cases h <;> exact ⟨rfl, rfl, rfl⟩
  | @liquid t h =>
    obtain ⟨blob, heq⟩ := t.persist_eq
    rw [heq]
    cases h <;> exact ⟨rfl, rfl, rfl⟩

lemma step_setup (s : Settings) (w : World) (e : Act) : (w.step s e).row.setup = w.row.setup := by
  cases step_funds s w e with
  | none hr => exact congrArg (·.1) hr
  | committed p a t he hop hr => exact (congrArg (·.1) hr).trans hop.kept.1
  | lost p a fate t ms mem he hop hr => exact (congrArg (·.1) hr).trans hop.kept.2.1

lemma updatedAt_stamp {old : Row} (h : row.status ≠ old.status) (now : ℕ) : (row.stamp now old).updatedAt = now := by
  rw [Row.stamp, if_neg fun heq => h (congrArg Row.status heq)]

lemma updatedAt_of_enter {w : World} {e : Act} (h : (w.step s e).row.status ≠ w.row.status) :
    (w.step s e).row.updatedAt = e.time := by
  cases e with
  | deposit | restart => exact (h rfl).elim
  | pass now p => exact updatedAt_stamp (by simpa [World.step] using h) now
  | tick p a fate =>
    obtain heq | hs := step_tick s w p a fate
    · exact (h (by rw [heq])).elim
    generalize w.step s (.tick p a fate) = w' at hs h
    cases hs with
    | committed t hop => exact updatedAt_stamp (by simpa [hop.kept.2.2] using h) _
    | rolledBack t hop | crashed t _ hop => exact (h hop.kept.2.2).elim

section Delaying
variable {s : Settings} {w : World} (h : w.row.status = .delaying)
include h

lemma ticked_delaying (p : ℕ) (a : Answers) : w.ticked s p a =
    (Tick.load w.row w.events (w.memory p)).modify fun row => tickSession row (defaultObservation s a w.deposited row) := by
  have hi : defaultHopStep s a (Tick.load w.row w.events (w.memory p)) = Tick.load w.row w.events (w.memory p) := by
    simp [defaultHopStep, executeReverseHopStep, Tick.load, h]
  rw [World.ticked, runTick, hi]
  rfl

lemma row_delaying (p : ℕ) (a : Answers) (fate : Fate) : (w.step s (.tick p a fate)).row = w.row ∨
    (w.step s (.tick p a fate)).row =
      (tickSession w.row (defaultObservation s a w.deposited w.row)).stamp a.now w.row := by
  have ho : isTerminal w.row.status = false := by rw [h]; rfl
  rw [World.step, ho, ticked_delaying h]
  cases fate with
  | committed => exact .inr rfl
  | rolledBack | crashed => exact .inl rfl

lemma updatedAt_delaying {e : Act} (hc : w.Clocked e) : w.row.updatedAt ≤ (w.step s e).row.updatedAt := by
  have hs : ∀ (row : Row) now, w.row.updatedAt ≤ now → w.row.updatedAt ≤ (row.stamp now w.row).updatedAt := by
    intro row now hle
    unfold Row.stamp
    split
    · exact le_refl _
    · exact hle
  cases e with
  | deposit | restart => exact le_refl _
  | pass now p => exact hs _ _ hc
  | tick p a fate =>
    rcases row_delaying h p a fate with hr | hr <;> rw [hr]
    exact hs _ _ hc

lemma apply_delaying (now : ℕ) (p : Pass) : (p.apply s now w.row).status ≠ .exiting := by
  cases p
  case retryParked => cases hp : w.row.preReconciliationStatus <;> simp [Pass.apply, h, hp]
  all_goals
    simp only [Pass.apply, Row.park, Row.transition, h]
    repeat' split
    all_goals simp_all

lemma elapsed_of_exit (hs : w.row.setup.sourceKind.onchain = false) {e : Act} (hc : w.Clocked e)
    (he : (w.step s e).row.status = .exiting) : w.row.updatedAt + w.row.setup.delayMinSeconds ≤ e.time := by
  cases e with
  | deposit | restart => cases h.symm.trans he
  | pass now p => exact (apply_delaying h now p (by simpa [World.step] using he)).elim
  | tick p a fate =>
    have hle : w.row.updatedAt ≤ a.now := hc
    have hn : w.row.status ≠ .exiting := by rw [h]; decide
    rcases row_delaying h p a fate with hr | hr <;> rw [hr] at he
    · exact (hn he).elim
    rw [status_stamp] at he
    have hel : (defaultObservation s a w.deposited w.row).delayWindowElapsed = some true := by
      by_contra hw
      unfold tickSession at he
      split at he
      case h_1 => exact hn he
      case h_2 hgo =>
        simp only [decideTickAction, forwardDispatch, h, isTerminal, hw, if_false] at hgo
        repeat' split at hgo
        all_goals simp_all
      case h_3 => simp [Row.park, h, isLegalTransition, legalNextStatuses] at he
    have ho : (observed s a w.deposited w.row).delayWindowElapsed = some true := by
      simp only [defaultObservation] at hel
      split at hel <;> exact hel
    cases hk : w.row.setup.sourceKind with
    | onchainSelf | extOnchain => rw [hk] at hs; cases hs
    | lightningSelf | extLightning =>
      simp [observed, observeLnSelfPay, observeExtLightning, hk, h, delayElapsed] at ho
      simp only [Act.time]
      omega

end Delaying

/-- A session with a Lightning source keeps its delay. -/
theorem delay_kept (s : Settings) (w : World) (hsource : w.row.setup.sourceKind.onchain = false) : w.KeepsDelay s := by
  constructor
  · intro enter wait exit hst hen hw hc hexit
    have hent : (w.step s enter).row.updatedAt = enter.time := updatedAt_of_enter fun heq => hst (heq ▸ hen)
    -- the row keeps its setup and is not written before the delay began
    have ht : ∀ wait (v : World), v.row.status = .delaying → v.row.setup = w.row.setup → enter.time ≤ v.row.updatedAt →
        World.Along (fun w e => w.Clocked e ∧ (w.step s e).row.status = .delaying) s v wait →
        (v.run s wait).row.status = .delaying ∧ (v.run s wait).row.setup = w.row.setup ∧
          enter.time ≤ (v.run s wait).row.updatedAt := by
      intro wait
      induction wait with
      | nil => exact fun v hv hs hle _ => ⟨hv, hs, hle⟩
      | cons e wait ih =>
        rintro v hv hs hle ⟨⟨hc, hstay⟩, hr⟩
        exact ih _ hstay ((step_setup s v e).trans hs) (hle.trans (updatedAt_delaying hv hc)) hr
    obtain ⟨hv, hs, hle⟩ := ht wait _ hen (step_setup s w enter) hent.ge hw
    have he := elapsed_of_exit hv (hs ▸ hsource) hc hexit
    rw [hs] at he
    simp only [Setup.minDelay, hsource]
    exact (Nat.add_le_add_right hle _).trans he
  · intro p a fate drawn hst
    have ho : defaultObservation s { a with sampled := drawn } w.deposited w.row =
        defaultObservation s a w.deposited w.row := by
      cases hk : w.row.setup.sourceKind with
      | onchainSelf | extOnchain => rw [hk] at hsource; cases hsource
      | lightningSelf | extLightning => simp [defaultObservation, observed, hk]
    simp only [World.step, ticked_delaying hst, Tick.modify, Tick.load, ho]

/-- A session before its delay, with the funding of its submarine swap at a time or not
on the row. -/
def beforeDelay (kind : SourceKind) (fundedAt : Option ℕ) : World :=
  { row := { setup := { sourceKind := kind }, status := .lnHolding,
             submarine := { swapId := "s", fundingBroadcastAt := fundedAt, swapStatus := "invoice.settled" } } }

theorem delay_kept_lightning : (beforeDelay .lightningSelf none).KeepsDelay {} := delay_kept {} _ rfl

/-- An on-chain session exits a minute after its delay began when the funding is old
enough, or when there is no time of it, and a tick that draws less ends the delay. -/
theorem delay_not_kept :
    ¬ (beforeDelay .onchainSelf (some 0)).KeepsDelay {} ∧ ¬ (beforeDelay .onchainSelf none).KeepsDelay {} ∧
    ¬ World.KeepsDelay {} ((beforeDelay .onchainSelf (some 0)).step {} (.tick 0 { now := 30000 } .committed)) := by
  have he : ∀ fundedAt ∈ [some 0, none], ¬ (beforeDelay .onchainSelf fundedAt).KeepsDelay {} := by
    intro fundedAt hm h
    have hd := h.1 (.tick 0 { now := 30000 } .committed) [] (.tick 0 { now := 30060 } .committed)
    simp only [mem_cons, not_mem_nil, or_false] at hm
    rcases hm with rfl | rfl <;>
      exact absurd (hd (by decide) (by decide +kernel) trivial (by change _ ≤ _; decide +kernel) (by decide +kernel))
        (by decide)
  refine ⟨he _ (by simp), he _ (by simp), fun h => ?_⟩
  have hdr := congrArg (fun w => w.row.status) (h.2 0 { now := 30060, sampled := 40000 } .committed 0 (by decide +kernel))
  exact absurd hdr (by decide +kernel)

end AgentWallet.Anonymize.Session
