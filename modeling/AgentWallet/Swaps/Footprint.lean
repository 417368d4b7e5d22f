import AgentWallet.Swaps.Deposit
/-!
# What driving a swap can do

`advance_swap` and the pay step of `process_boltz_swap` read no other row, make
none, queue nothing and never write CANCELLED. Each is stated once, for any
property of copies that survives what they do to a copy (`Closed`).
-/

namespace AgentWallet.Swaps

open AgentWallet.Lib List

/-- A property of copies that the driving code keeps. -/
structure Closed (fine : Copy → Prop) : Prop where
  set {swap : Copy} {f : BoltzSwap → BoltzSwap} : fine swap →
    (f swap.current).boltzInvoice = swap.current.boltzInvoice →
    ((f swap.current).status = swap.current.status ∨ (f swap.current).status ≠ .cancelled) → fine (swap.set f)
  saved {swap : Copy} : fine swap → fine swap.saved
  rolledBack {swap : Copy} : fine swap → fine swap.rolledBack

/-- The commands of the driving code, with the copies it commits and the invoices
it pays. -/
def Drives (fine : Copy → Prop) (pays : SwapId → String → Prop) : Command → Prop
  | .commit swaps none => ∀ swap ∈ swaps, fine swap
  | .sendPaymentV2 id payment => pays id payment.paymentRequest
  | .selectClaimTxid _ _ | .lookupPayment _ _ | .paymentResult _ | .getSwapStatus _ _ | .getLockupTransaction _ _
  | .cooperativeClaim _ _ _ | .unilateralClaim _ _ _ | .listUnspent _ _ | .optionalConfirmations _
  | .optionalVerifyTx _ => True
  | _ => False

section

variable {fine : Copy → Prop} {pays : SwapId → String → Prop} {swap : Copy} {unsaved : List Copy}

namespace Closed

variable (h : Closed fine)
include h

lemma setStatus (hs : fine swap) {status : SwapStatus} (hne : status ≠ .cancelled) : fine (swap.setStatus status) :=
  h.set hs rfl (.inr hne)

lemma setError (hs : fine swap) (text : Option String) : fine (swap.setError text) := h.set hs rfl (.inl rfl)

lemma setClaim (hs : fine swap) (txid : String) : fine (swap.setClaim txid) := h.set hs rfl (.inl rfl)

lemma bumpRecovery (hs : fine swap) : fine swap.bumpRecovery := h.set hs rfl (.inl rfl)

lemma clearTransient (hs : fine swap) : fine swap.clearTransient := by
  apply h.set hs
  · unfold BoltzSwap.clearTransient
    split <;> rfl
  · left
    unfold BoltzSwap.clearTransient
    split <;> rfl

end Closed

/-- The copies that a call of `advance_swap` leaves. -/
def Advanced.Fine (fine : Copy → Prop) (advanced : Advanced) : Prop :=
  fine advanced.swap ∧ ∀ other ∈ advanced.unsaved, fine other

lemma attempt_within {c : Command} (hc : Drives fine pays c) :
    (call c).attempt.Within (Drives fine pays) fun _ => True := by
  refine ⟨hc, fun r => ?_⟩
  cases r with
  | ok answer | error e => trivial

lemma perform_within {c : Command} {next : Reply c → Code Advanced} (hs : fine swap)
    (hu : ∀ other ∈ unsaved, fine other) (hc : Drives fine pays c)
    (hn : ∀ answer, (next answer).Within (Drives fine pays) (Advanced.Fine fine)) :
    (perform swap unsaved c next).Within (Drives fine pays) (Advanced.Fine fine) := by
  refine (attempt_within hc).bind fun r _ => ?_
  cases r with
  | ok answer => exact hn answer
  | error e => exact ⟨hs, hu⟩

section

variable (h : Closed fine)
include h

section

variable (hs : fine swap)
include hs

section

variable (hu : ∀ other ∈ unsaved, fine other)
include hu

lemma save_within (error : Option String) :
    (save swap unsaved error).Within (Drives fine pays) (Advanced.Fine fine) := by
  have ha : Drives fine pays (.commit (unsaved ++ [swap]) none) := by
    intro other ho
    rcases mem_append.1 ho with hm | hm
    · exact hu other hm
    · rw [mem_singleton.1 hm]
      exact hs
  refine (attempt_within ha).bind fun r _ => ?_
  cases r with
  | ok _ => exact ⟨h.saved hs, fun _ hm => (not_mem_nil hm).elim⟩
  | error e => exact ⟨h.rolledBack hs, fun _ hm => (not_mem_nil hm).elim⟩

omit hu in
lemma backfill_within :
    (backfillClaimTxidFromWallet swap).Within (Drives fine pays) fine := by
  unfold backfillClaimTxidFromWallet
  split
  case isTrue => exact hs
  refine (attempt_within (c := .listUnspent _ _) trivial).bind fun r _ => ?_
  rcases r with _ | (_ | utxos)
  · exact hs
  · exact hs
  dsimp only
  cases txidAt swap.current.destinationAddress utxos with
  | none => exact hs
  | some txid => exact h.setClaim hs txid

omit hu in
lemma verifyLockup_within (transactionId : Option String) :
    (verifyLockup swap transactionId).Within (Drives fine pays) fun p => fine p.1 := by
  cases transactionId with
  | none => exact hs
  | some lockupId =>
    unfold verifyLockup
    dsimp only
    split
    case isFalse => exact hs
    have hse : fine (swap.set fun row => { row with lockupTxid := some (row.lockupTxid.getD lockupId) }) :=
      h.set hs rfl (.inl rfl)
    refine (attempt_within (c := .optionalVerifyTx _) trivial).bind fun r _ => ?_
    rcases r with _ | (_ | outputs) <;> exact hse

lemma follow_within (existing : String) :
    (follow swap unsaved existing).Within (Drives fine pays) (Advanced.Fine fine) :=
  ⟨h.setStatus (h.setClaim hs existing) (by decide), hu⟩

lemma claimLockup_within :
    (claimLockup swap unsaved).Within (Drives fine pays) (Advanced.Fine fine) := by
  refine perform_within hs hu trivial fun lockup => ?_
  cases lockup with
  | error err => exact save_within h hs hu _
  | ok lockupHex =>
    refine perform_within hs hu trivial fun existing => ?_
    cases existing with
    | some existing => exact follow_within h hs hu existing
    | none =>
      refine perform_within hs hu trivial fun answer => ?_
      cases answer with
      | error err => exact save_within h (h.bumpRecovery hs) hu _
      | ok txid =>
        refine perform_within hs hu trivial fun existing => ?_
        cases existing with
        | some existing => exact follow_within h hs hu existing
        | none => exact save_within h (h.setStatus (h.setClaim hs txid) (by decide)) hu _

lemma advanceLockup_within (report : Report) :
    (advanceLockup swap unsaved report).Within (Drives fine pays) (Advanced.Fine fine) := by
  have hm : fine (if swap.current.status ∈ [SwapStatus.invoicePaid, .payingInvoice, .created] then
      swap.clearTransient.setStatus .claiming else swap) := by
    split
    · exact h.setStatus (h.clearTransient hs) (by decide)
    · exact hs
  refine (verifyLockup_within h hm _).bind fun ⟨swap, mismatch⟩ hs => ?_
  dsimp only
  split
  · exact save_within h (h.setError hs _) hu _
  · split
    · exact claimLockup_within h hs hu
    · exact save_within h hs hu _

lemma advanceClaimed_within (txid : String) :
    (advanceClaimed swap unsaved txid).Within (Drives fine pays) (Advanced.Fine fine) := by
  refine (attempt_within (c := .optionalConfirmations _) trivial).bind fun r _ => ?_
  rcases r with _ | (_ | confirmations)
  · exact save_within h hs hu _
  · exact save_within h hs hu _
  refine save_within h ?_ hu _
  split
  · exact h.setStatus hs (by decide)
  · exact hs

lemma advanceOn_within (report : Report) :
    (advanceOn swap unsaved report).Within (Drives fine pays) (Advanced.Fine fine) := by
  unfold advanceOn
  split
  · exact save_within h (h.setError (h.setStatus hs (by decide)) _) hu _
  split
  · exact save_within h (h.setError (h.setStatus hs (by decide)) _) hu _
  split
  · have hd : fine (swap.clearTransient.setStatus .completed) := h.setStatus (h.clearTransient hs) (by decide)
    exact (backfill_within h hd).bind fun swap hs => save_within h hs hu _
  split
  · exact advanceClaimed_within h hs hu _
  · split
    · exact advanceLockup_within h hs hu report
    · exact save_within h hs hu _

lemma advanceSwap_within :
    (advanceSwap swap unsaved).Within (Drives fine pays) (Advanced.Fine fine) := by
  refine perform_within hs hu trivial fun answer => ?_
  cases answer with
  | error err => exact ⟨hs, hu⟩
  | ok report => exact advanceOn_within h (h.set hs rfl (.inl rfl)) hu report

end

end

end

/-! ## The pay step -/

lemma commit_within (hs : fine swap) :
    (call (.commit [swap] none)).Within (Drives fine pays) fun _ => True := by
  have hon : Drives fine pays (.commit [swap] none) := by
    intro other ho
    rw [mem_singleton.1 ho]
    exact hs
  exact Task.within_call hon fun _ => trivial

variable {settings : Settings}

lemma shouldPay_within (h : Closed fine) (hs : fine swap) :
    (shouldPay settings swap).Within (Drives fine pays) fun p => fine p.1 := by
  unfold shouldPay
  split
  case h_1 => exact hs
  case h_3 => exact hs
  split
  case h_1 => exact hs
  rename_i reentryHash _
  have ha : Drives fine pays (.lookupPayment swap.id reentryHash) := trivial
  refine (Task.within_call ha fun _ => trivial).bind fun lookup _ => ?_
  cases lookup with
  | error _ => exact hs
  | ok status =>
    dsimp only
    split
    · exact hs
    split
    · have hp : fine ((swap.set fun row => { row with lndPaymentHash := some reentryHash }).setStatus
          .invoicePaid).clearTransient :=
        h.clearTransient (h.setStatus (h.set hs rfl (.inl rfl)) (by decide))
      exact (commit_within hp).bind fun _ _ => h.saved hp
    · exact hs

lemma paid_within (h : Closed fine) (hs : fine swap) (answer : Except String (Option String)) :
    (paid settings swap answer).Within (Drives fine pays) fun r => ∀ swap, r = .inr swap → fine swap := by
  cases answer with
  | error payError =>
    unfold paid
    dsimp only
    split
    · refine (commit_within (h.setError (h.setStatus hs (by decide)) _)).bind fun _ _ swap hsw => ?_
      cases hsw
    have ha : fine ((swap.set fun row => { row with
        lndPaymentHash := swap.current.boltzInvoice.bind settings.paymentHashFromBolt11 <|> row.lndPaymentHash }).setError
          (some (retriedText (swap.current.boltzInvoice.bind settings.paymentHashFromBolt11)))) :=
      h.setError (h.set hs rfl (.inl rfl)) _
    refine (commit_within ha).bind fun _ _ swap hsw => ?_
    cases hsw
    exact h.saved ha
  | ok paymentHash =>
    have hp : fine ((swap.setStatus .invoicePaid).clearTransient.set fun row =>
        { row with lndPaymentHash := paymentHash <|> row.lndPaymentHash }) :=
      h.set (h.clearTransient (h.setStatus hs (by decide))) rfl (.inl rfl)
    refine (commit_within hp).bind fun _ _ swap hsw => ?_
    cases hsw
    exact h.saved hp

lemma payInvoice_within (h : Closed fine) (hs : fine swap)
    (hpa : ∀ swap invoice, fine swap → swap.current.boltzInvoice = some invoice → pays swap.id invoice) (percent : ℚ) :
    (payInvoice settings swap percent).Within (Drives fine pays) fun r => ∀ swap, r = .inr swap → fine swap := by
  have hp : fine (swap.setStatus .payingInvoice) := h.setStatus hs (by decide)
  refine (commit_within hp).bind fun _ _ => ?_
  dsimp only
  split
  · trivial
  rename_i invoice hi
  have hpay := hpa _ invoice (h.saved hp) hi
  refine .bind (Task.within_call (c := Command.sendPaymentV2 _ _) hpay fun _ => trivial) fun _ _ => ?_
  refine .bind (Task.within_call (c := Command.paymentResult _) trivial fun _ => trivial) fun answer _ => ?_
  exact paid_within h (h.saved hp) answer

lemma advanceResult_within (h : Closed fine) (hs : fine swap) :
    (advanceResult swap).Within (Drives fine pays) fun _ => True := by
  refine (advanceSwap_within h hs fun _ hm => (not_mem_nil hm).elim).bind fun advanced _ => ?_
  split <;> trivial

lemma processCopy_within (h : Closed fine) (hs : fine swap)
    (hp : ∀ swap invoice, fine swap → swap.current.boltzInvoice = some invoice → pays swap.id invoice) (percent : ℚ) :
    (processCopy settings swap percent).Within (Drives fine pays) fun _ => True := by
  refine (shouldPay_within h hs).bind fun ⟨swap, pay⟩ hs => ?_
  dsimp only
  split
  · refine (payInvoice_within h hs hp percent).bind fun r hr => ?_
    cases r with
    | inl result => trivial
    | inr swap => exact advanceResult_within h (hr swap rfl)
  · exact advanceResult_within h hs

end

/-! ## Deposit ticks -/

/-- The commands of a tick that neither fund nor pay nor queue, nor commit a session. -/
def Routine : Command → Prop
  | .commit _ (some _) | .sendCoins _ _ | .openChannel _ _ _ | .delay _ | .retry _ | .sendPaymentV2 _ _ => False
  | _ => True

/-- A change of a session that leaves its source and the columns of its fundings. -/
def Mild (f : BraiinsDepositSession → BraiinsDepositSession) : Prop :=
  ∀ s, (f s).sourceKind = s.sourceKind ∧ (f s).submarineFundingTxid = s.submarineFundingTxid ∧
    (f s).channelOpenTxid = s.channelOpenTxid

/-- A property `S` of code that holds of a tick if it holds of its commands, where the
tick commits copies that are `good`. -/
structure Ticks (S : {α : Type} → Code α → Prop) (good : SessionCopy → Prop) : Prop where
  ret {α : Type} (a : α) : S (.ret a : Code α)
  bind {α β : Type} {p : Code α} {f : α → Code β} : S p → (∀ a, S (f a)) → S (p.bind f)
  attempt {α : Type} {p : Code α} : S p → S p.attempt
  ask {c : Command} : Routine c → S (call c)
  commit {swaps : List Copy} {session : SessionCopy} : good session → S (call (.commit swaps (some session)))
  set {session : SessionCopy} {f : BraiinsDepositSession → BraiinsDepositSession} : good session → Mild f →
    good (session.set f)
  saved {session : SessionCopy} : good session → good session.saved
  rolledBack {session : SessionCopy} : good session → good session.rolledBack

namespace Ticks

variable {S : {α : Type} → Code α → Prop} {good : SessionCopy → Prop} {session : SessionCopy} {swaps : List Copy} {α : Type}
  (hS : Ticks S good)
include hS

lemma transition (h : good session) (status : BraiinsDepositStatus) : good (session.transition status) :=
  hS.set h fun _ => ⟨rfl, rfl, rfl⟩

lemma setError (h : good session) (text : Option String) : good (session.setError text) :=
  hS.set h fun _ => ⟨rfl, rfl, rfl⟩

lemma hardFail (h : good session) (text : String) : S (hardFail session text) :=
  hS.commit (hS.setError (hS.transition h _) _)

lemma transient (h : good session) (e : Raised) : S (transient session e) := hS.commit (hS.setError h _)

lemma guarded {code : Code α} {next : α → Code Unit} (h : good session) (hc : S code) (hn : ∀ a, S (next a)) :
    S (guarded session code next) := by
  refine hS.bind (hS.attempt hc) fun r => ?_
  cases r with
  | ok a => exact hn a
  | error e => exact hS.transient h e

lemma demand {code : Code (Except String α)} {next : α → Code Unit} (h : good session) (hc : S code)
    (hn : ∀ a, S (next a)) (text : String) : S (demand session text code next) := by
  refine hS.guarded h hc fun answer => ?_
  cases answer with
  | ok a => exact hn a
  | error err => exact hS.hardFail h _

lemma save {next : SessionCopy → Code Unit} (h : good session) (hn : good session.saved → S (next session.saved)) :
    S (saveSession swaps session next) := by
  refine hS.bind (hS.attempt (hS.commit h)) fun r => ?_
  cases r with
  | ok _ => exact hn (hS.saved h)
  | error e => exact hS.transient (hS.rolledBack h) e

lemma saveLast (h : good session) : S (saveSession swaps session fun _ => return ()) := hS.save h fun _ => hS.ret ()

lemma cancelSwap (swap : Copy) : S (cancelSwap swap) := by
  unfold Swaps.cancelSwap
  split
  · exact hS.ret _
  · exact hS.bind (hS.ask trivial) fun _ => hS.ret _

lemma createReverseSwap (payer : Payer) (sats : ℕ) (address : String) (chan : Option String) :
    S (createReverseSwap payer sats address chan) := by
  refine hS.bind (hS.ask (by trivial)) fun offer => ?_
  rcases offer with err | ⟨offer, invoice⟩
  · exact hS.ret _
  · exact hS.bind (hS.ask (by trivial)) fun _ => hS.ret _

lemma createSubmarineSwap (invoice : String) (sats : ℕ) : S (createSubmarineSwap invoice sats) := by
  refine hS.bind (hS.ask (by trivial)) fun offer => ?_
  cases offer with
  | error err => exact hS.ret _
  | ok offer => exact hS.bind (hS.ask (by trivial)) fun _ => hS.ret _

lemma submarineFunded (h : good session) : S (submarineFunded session) := by
  unfold Swaps.submarineFunded
  split
  · exact hS.saveLast (hS.transition h _)
  · exact hS.ret ()

lemma advanceCreatedExtOnchain (h : good session) : S (advanceCreatedExtOnchain session) := by
  refine hS.demand h (hS.ask (c := .quote) trivial) (fun _ => ?_) _
  refine hS.demand h (hS.ask (c := .newAddress) trivial) (fun _ => ?_) _
  exact hS.saveLast (hS.transition h _)

lemma attemptRefund {refund : String → Code (Except String String)} (hr : ∀ address, S (refund address)) :
    S (attemptRefund refund) := by
  refine hS.bind (hS.attempt (hS.bind (hS.ask (c := .newAddress) trivial) fun address => ?_)) fun tried => ?_
  · cases address with
    | error err => exact hS.ret _
    | ok address => exact hr address
  · cases tried with
    | ok answer | error e => exact hS.ret _

lemma attemptCooperativeRefund (swap : Copy) : S (attemptCooperativeRefund swap) :=
  hS.attemptRefund fun _ => hS.ask (by trivial)

lemma submarineStatus (swap : Copy) (boltzStatus : String) (changed : Bool) :
    S (submarineStatus swap boltzStatus changed) := by
  unfold Swaps.submarineStatus
  split
  · exact hS.ret _
  split
  · refine hS.bind (hS.attemptCooperativeRefund swap) fun refund => ?_
    cases refund with
    | error err | ok txid => exact hS.ret _
  · exact hS.ret _

lemma updateSubmarine (swap : Copy) : S (updateSubmarineBoltzStatus swap) := by
  refine hS.bind (hS.attempt (hS.ask (by trivial))) fun r => ?_
  split
  · refine hS.bind (hS.submarineStatus _ _ _) fun swap => ?_
    exact hS.bind (hS.ask (by trivial)) fun _ => hS.ret _
  · exact hS.ret _

lemma pollSubmarine (h : good session) : S (pollSubmarine session) := by
  unfold Swaps.pollSubmarine
  split
  · exact hS.ret ()
  refine hS.guarded h (hS.ask (by trivial)) fun row => ?_
  cases row with
  | none => exact hS.ret ()
  | some row =>
    refine hS.guarded h (hS.updateSubmarine _) fun swap => ?_
    split
    · exact hS.saveLast (hS.set (hS.transition h _) fun _ => ⟨rfl, rfl, rfl⟩)
    · exact hS.saveLast (hS.setError (hS.transition h _) _)
    · exact hS.saveLast (hS.setError (hS.transition h _) _)
    · exact hS.ret ()

lemma advanceAwaitingOnchainFunds (h : good session) : S (advanceAwaitingOnchainFunds session) := by
  refine hS.guarded h (hS.ask (by trivial)) fun received => ?_
  rcases received with err | ⟨received, enough⟩
  · exact hS.ret ()
  refine hS.save (hS.set h fun _ => ⟨rfl, rfl, rfl⟩) fun hsa => ?_
  split
  · exact hS.saveLast (hS.transition hsa _)
  · exact hS.ret ()

lemma healRefund (swap : Copy) : S (healRefund swap) := by
  refine hS.bind (hS.attemptCooperativeRefund swap) fun refund => ?_
  cases refund with
  | ok txid => exact hS.ret _
  | error err =>
    refine hS.bind (hS.ask (by trivial)) fun tip => ?_
    have hun : S (attemptUnilateralRefund swap tip) := by
      refine hS.attemptRefund fun address => ?_
      split
      · exact hS.ret _
      · exact hS.ask (by trivial)
    refine hS.bind hun fun refund => ?_
    cases refund with
    | ok txid | error uniErr => exact hS.ret _

lemma advanceFailedSelfHeal (h : good session) : S (advanceFailedSelfHeal session) := by
  unfold Swaps.advanceFailedSelfHeal
  split
  · exact hS.ret ()
  split
  · refine hS.bind (hS.ask (by trivial)) fun row => ?_
    cases row with
    | none => exact hS.ret ()
    | some row =>
      dsimp only
      split
      · exact hS.ret ()
      refine hS.bind (hS.ask (by trivial)) fun now => ?_
      split
      · exact hS.ret ()
      refine hS.bind (hS.healRefund _) fun ⟨mode, refund⟩ => ?_
      cases refund with
      | ok txid => exact hS.commit (hS.set (hS.transition h _) fun _ => ⟨rfl, rfl, rfl⟩)
      | error err => exact hS.commit h
  · exact hS.ret ()

variable (hleg : ∀ {session : SessionCopy} (quote : Quote) (address : String) (chan : Option String), good session →
  S (reverseLeg session quote address chan))
include hleg

lemma advanceCreated (h : good session) : S (advanceCreated session) := by
  refine hS.demand h (hS.ask (c := .quote) trivial) (fun quote => ?_) _
  refine hS.demand h (hS.ask (c := .newAddress) trivial) (fun address => ?_) _
  split
  · exact hS.guarded h (hS.ask (by trivial)) fun channel => hleg quote address _ h
  · exact hleg quote address none h

lemma advanceOpeningChannel (h : good session) : S (advanceOpeningChannel session) := by
  unfold Swaps.advanceOpeningChannel
  split
  · exact hS.hardFail h _
  refine hS.guarded h (hS.ask (by trivial)) fun channel => ?_
  rcases channel with err | ⟨active, chan⟩
  · exact hS.transient h _
  dsimp only
  split
  · exact hS.save (hS.transition (hS.setError h _) _) (hS.advanceCreated hleg)
  · exact hS.saveLast (hS.setError h _)

lemma advanceSubmarineSwapping (h : good session) : S (advanceSubmarineSwapping session) := by
  unfold Swaps.advanceSubmarineSwapping
  split
  · exact hS.hardFail h _
  refine hS.guarded h (hS.ask (by trivial)) fun invoice => ?_
  split
  · exact hS.save (hS.transition h _) (hS.advanceCreated hleg)
  · exact hS.pollSubmarine h

end Ticks

end AgentWallet.Swaps
