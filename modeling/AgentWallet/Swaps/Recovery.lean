import AgentWallet.Swaps.Footprint
/-!
# Recovery of a locked deposit (`recover_pending_sessions`, `_advance_failed_self_heal`)

A lockup that Boltz does not pay for is refunded by the ticks of its session. In
SUBMARINE_SWAPPING a tick asks Boltz for the status and, if that leaves the funds
in the lockup, tries the cooperative refund once; if it fails, the session is
FAILED and later ticks try both refunds.

Those later ticks leave out sessions with an external source, and they never ask
Boltz again: they go by the status that was last written to the row of the swap. A
session with on-chain funds from outside whose one attempt failed is not tried
again by any tick or sweep (`lockup_left`).

The stages of a session (`Stage`) count the ticks to its refund. As long as Boltz
reports a status that leaves the funds in the lockup, and no worker drives the row
of the submarine swap, every tick lowers the stage (`recoverSession_stage`), and
after three ticks the session is REFUNDED (`lockup_recovered`).
-/

namespace AgentWallet.Swaps

open AgentWallet.Lib World Option Bool Machine

variable {T : Type} {t₀ : T} {sid : SessionId} {k : SwapId}

/-! ## Undisturbed refunds -/

def SwapStatus.undriven : SwapStatus → Bool
  | .created | .failed | .cancelled | .refunded => true
  | _ => false

/-- What the ticks of the session are answered. -/
def Answers (sid : SessionId) (k : SwapId) (c : Command) (w : World T) (r : Except Raised (Reply c)) : Prop :=
  match c with
  | .selectRecoverable _ => ∃ selected, r = .ok selected
  | .selectSessionForUpdate id => r = .ok (w.sessions id)
  | .selectSwap _ id => r = .ok (w.swaps id)
  | .commit _ _ => r = .ok ()
  | .quote => ∃ quote, r = .ok (.ok quote)
  | .lookupInvoice _ => ∃ answer, r = .ok answer ∧ ∀ invoice, answer = .ok invoice → invoice.settled = false
  | .newAddress => ∃ address, r = .ok (.ok address)
  | .getSwapStatus _ _ => ∃ status transactionId, r = .ok (.ok ⟨some status, transactionId⟩) ∧ status ∈ refundable
  | .cooperativeRefund _ _ =>
      (∃ txid, r = .ok (.ok txid)) ∨
        (∃ err, r = .ok (.error err)) ∧ ∀ session, w.sessions sid = some session → session.sourceKind = .onchain
  | .unilateralRefund _ _ => ∃ txid, r = .ok (.ok txid)
  | .currentBtcTipHeight =>
      ∃ tip, r = .ok (some tip) ∧ ∀ row, w.swaps k = some row → ∃ timeout ≤ tip, row.timeoutBlockHeight = some timeout
  | .utcNow =>
      ∃ now, r = .ok now ∧ ∀ row last, w.swaps k = some row → lastAttempt row = some last → last + minInterval ≤ now
  | _ => True

/-- No worker takes a message about the swap. -/
def NotDriven (k : SwapId) (c : Command) (r : Except Raised (Reply c)) : Prop :=
  match c with
  | .receive => ∀ message, r = .ok message → message.swapId ≠ k
  | _ => True

variable [DecidableEq T]

abbrev recovering (t₀ : T) (sid : SessionId) (k : SwapId) : Machine T Command Reply Raised (World T) :=
  (machine T).restrict (fun t c w r _ => NotDriven k c r ∧ (t = t₀ → Answers sid k c w r)) fun _ _ => True

/-! ## The two rows -/

variable {swaps : List Copy}

/-- A command other than a commit leaves the row of a swap, and all sessions. -/
lemma exec_keeps {t : T} {c : Command} {r : Except Raised (Reply c)} {w w' : World T} {row : BoltzSwap}
    (hx : (machine T).exec t c w r w') (hr : w.swaps k = some row) : w'.swaps k = some row ∧ w'.sessions = w.sessions ∨
      ∃ swaps session, c = .commit swaps session ∧ w' = (w.write swaps session).committed t := by
  cases exec_effect hx with
  | commits => exact .inr ⟨_, _, rfl, rfl⟩
  | @inserts payer new _ id =>
    refine .inl ⟨?_, rfl⟩
    rcases hx with ⟨id', hn, -, hi, -⟩ | ⟨-, hs⟩
    · rw [hi]
      refine (Function.update_of_ne ?_ _ _).trans hr
      rintro rfl
      cases hn.symm.trans hr
    · rw [hs]
      exact hr
  | _ => exact .inl ⟨hr, rfl⟩

/-- What a commit may hold: the ticks of the session write undriven rows, and the
other tasks write neither of the two rows. -/
def KeepsAside (t₀ : T) (sid : SessionId) (k : SwapId) (t : T) : Command → Prop
  | .commit swaps session =>
      if t = t₀ then ∀ swap ∈ swaps, swap.id = k → swap.current.status.undriven
      else (∀ swap ∈ swaps, swap.id ≠ k) ∧ ∀ copy, session = some copy → copy.id ≠ sid
  | _ => True

lemma keepsAside_of_writes {t₀ t : T} {c : Command} (hc : c.writes = false) : KeepsAside t₀ sid k t c := by
  cases c with
  | commit => cases hc
  | _ => trivial

variable {swap : Copy}

lemma write_swap_kept {w : World T} (h : ∀ swap ∈ swaps, swap.id ≠ k) (session : Option SessionCopy) :
    (w.write swaps session).swaps k = w.swaps k := by
  rw [write_swaps]
  induction swaps generalizing w with
  | nil => rfl
  | cons swap swaps ih =>
    rw [List.foldl_cons, ih fun other hm => h other (List.mem_cons_of_mem _ hm)]
    exact writeSwap_other (h swap List.mem_cons_self)

variable {copy : SessionCopy}

lemma write_session_kept {w : World T} {session : Option SessionCopy}
    (h : ∀ copy, session = some copy → copy.id ≠ sid) (swaps : List Copy) :
    (w.write swaps session).sessions sid = w.sessions sid := by
  rw [write_eq]
  cases session with
  | none => rfl
  | some copy => exact writeSession_other (Ne.symm (h copy rfl))

/-- Only the ticks of the session write its row and that of its swap. -/
def aside (t₀ : T) (sid : SessionId) (k : SwapId) : Protocol (recovering t₀ sid k) where
  inv w := ∃ row, w.swaps k = some row ∧ row.status.undriven
  pre t c _ := KeepsAside t₀ sid k t c
  rely u w w' := u = t₀ → w'.swaps k = w.swaps k ∧ w'.sessions sid = w.sessions sid
  exec := by
    rintro t c w w' r ⟨row, hrow, hstatus⟩ hpre ⟨-, hx⟩
    rcases exec_keeps hx hrow with ⟨hswap, hsessions⟩ | ⟨swaps, session, rfl, rfl⟩
    · exact ⟨⟨row, hswap, hstatus⟩, fun u _ _ => ⟨hswap.trans hrow.symm, congrFun hsessions sid⟩⟩
    by_cases ht : t = t₀
    · subst ht
      refine ⟨?_, fun u hu htick => (hu htick).elim⟩
      have hcopies : ∀ swap ∈ swaps, swap.id = k → swap.current.status.undriven := by
        simpa [KeepsAside] using hpre
      change ∃ after, (w.write swaps session).swaps k = some after ∧ after.status.undriven = true
      rw [World.write_swaps]
      refine World.foldl_writeSwap_row (p := fun row => row.status.undriven = true) hrow hstatus
        fun swap hmem hid row hrow => ?_
      change (column swap.stored.status swap.current.status row.status).undriven = true
      unfold column
      split
      · exact hrow
      · exact hcopies swap hmem hid
    · have hother : (∀ swap ∈ swaps, swap.id ≠ k) ∧ ∀ copy, session = some copy → copy.id ≠ sid := by
        simpa [KeepsAside, ht] using hpre
      have hswap : ((w.write swaps session).committed t).swaps k = w.swaps k := write_swap_kept hother.1 session
      have hsession : ((w.write swaps session).committed t).sessions sid = w.sessions sid :=
        write_session_kept hother.2 swaps
      exact ⟨⟨row, hswap.trans hrow, hstatus⟩, fun u _ _ => ⟨hswap, hsession⟩⟩
  env := by
    rintro w w' - ⟨-, hfalse⟩
    exact hfalse.elim

/-! ## A tick -/

structure Rows (sid : SessionId) (k : SwapId) (session : BraiinsDepositSession) (row : BoltzSwap) (w : World T) :
    Prop where
  session : w.sessions sid = some session
  swap : w.swaps k = some row

section Tick

variable {α : Type} {session : BraiinsDepositSession} {row : BoltzSwap} {A : World T → Prop}
  {Q : Except Raised Unit → World T → Prop}

/-- From the two rows, the task returns with `B`. -/
abbrev Goes (t₀ : T) (sid : SessionId) (k : SwapId) (session : BraiinsDepositSession) (row : BoltzSwap)
    (B : α → World T → Prop) (code : Code α) : Prop :=
  (aside t₀ sid k).Safe t₀ (Returns B) code (Rows sid k session row)

/-- The task leaves the two rows, and returns something with `φ`. -/
abbrev Finds (t₀ : T) (sid : SessionId) (k : SwapId) (session : BraiinsDepositSession) (row : BoltzSwap) (φ : α → Prop)
    (code : Code α) : Prop :=
  Goes t₀ sid k session row (fun x w => φ x ∧ Rows sid k session row w) code

lemma stable_rows (p : Prop) : (aside t₀ sid k).Stable t₀ fun w => p ∧ Rows sid k session row w := by
  rintro w w' - - hre ⟨hp, hr⟩
  obtain ⟨hsw, hs⟩ := hre rfl
  exact ⟨hp, hs.trans hr.session, hsw.trans hr.swap⟩

lemma ask_rows {c : Command} {φ : Reply c → Prop} (hc : c.writes = false)
    (h : ∀ w r w', Rows sid k session row w → Answers sid k c w r → (machine T).exec t₀ c w r w' → ∃ x, r = .ok x ∧ φ x) :
    Finds t₀ sid k session row φ (call c) := by
  refine .answered (fun _ => stable_rows _) fun w r w' _ hro hx => ?_
  obtain ⟨⟨-, ha⟩, hx⟩ := hx
  obtain ⟨x, hr, hφ⟩ := h w r w' hro (ha rfl) hx
  have hf := exec_frame hc hx
  refine ⟨keepsAside_of_writes hc, x, hr, fun _ => ⟨hφ, ?_, ?_⟩⟩
  · exact (congrFun hf.sessions sid).trans hro.session
  · exact (congrFun hf.swaps k).trans hro.swap

lemma commit_rows {copy : Option SessionCopy} {session' : BraiinsDepositSession} {row' : BoltzSwap}
    (hc : ∀ swap ∈ swaps, swap.id = k → swap.current.status.undriven)
    (h : ∀ w : World T, Rows sid k session row w → Rows sid k session' row' (w.write swaps copy)) :
    Goes t₀ sid k session row (fun _ => Rows sid k session' row') (call (.commit swaps copy)) := by
  have hst : (aside t₀ sid k).Stable t₀ (Rows sid k session' row') := fun w w' hi hi' hre hro =>
    (stable_rows True w w' hi hi' hre ⟨trivial, hro⟩).2
  refine .answered (fun _ => hst) fun w r w' _ hro hx => ?_
  obtain ⟨⟨-, ha⟩, hx⟩ := hx
  have hr : r = .ok () := ha rfl
  refine ⟨by simpa [aside, KeepsAside] using hc, (), hr, fun _ => ?_⟩
  rcases hx with ⟨rfl, -⟩ | ⟨⟨e, he⟩, -⟩
  · exact ⟨(h w hro).session, (h w hro).swap⟩
  · cases he.symm.trans hr

lemma guarded_rows {code : Code α} {next : α → Code Unit} {B : α → World T → Prop}
    (hc : (aside t₀ sid k).Safe t₀ (Returns B) code A) (hn : ∀ x, (aside t₀ sid k).Safe t₀ Q (next x) (B x)) :
    (aside t₀ sid k).Safe t₀ Q (guarded copy code next) A :=
  hc.attempted hn

lemma save_rows {next : SessionCopy → Code Unit} {B : World T → Prop}
    (hc : (aside t₀ sid k).Safe t₀ (Returns fun _ => B) (call (.commit swaps (some copy))) A)
    (hn : (aside t₀ sid k).Safe t₀ Q (next copy.saved) B) :
    (aside t₀ sid k).Safe t₀ Q (saveSession swaps copy next) A :=
  hc.attempted fun _ => hn

lemma Rows.writeSession {w : World T} (h : Rows sid k session row w) (hid : copy.id = sid) :
    Rows sid k (copy.write session) row (w.writeSession copy) := by
  refine ⟨?_, h.swap⟩
  rw [← hid, writeSession_self, hid, h.session]
  rfl

lemma Rows.writeSwap {w : World T} (h : Rows sid k session row w) (hid : swap.id = k) :
    Rows sid k session (swap.write row) (w.writeSwap swap) := by
  refine ⟨h.session, ?_⟩
  rw [← hid, writeSwap_self, hid, h.swap]
  rfl

lemma commit_session (hid : copy.id = sid) :
    Goes t₀ sid k session row (fun _ => Rows sid k (copy.write session) row) (call (.commit [] (some copy))) :=
  commit_rows (fun _ hm => (List.not_mem_nil hm).elim) fun _ hr => hr.writeSession hid

lemma commit_swap (hid : swap.id = k) (hs : swap.current.status.undriven) :
    Goes t₀ sid k session row (fun _ => Rows sid k session (swap.write row)) (call (.commit [swap] none)) :=
  commit_rows (fun _ hm _ => List.mem_singleton.1 hm ▸ hs) fun _ hr => hr.writeSwap hid

lemma commit_both (hid : swap.id = k) (hs : swap.current.status.undriven) (hc : copy.id = sid) :
    Goes t₀ sid k session row (fun _ => Rows sid k (copy.write session) (swap.write row))
      (call (.commit [swap] (some copy))) :=
  commit_rows (fun _ hm _ => List.mem_singleton.1 hm ▸ hs) fun _ hr =>
    (hr.writeSwap hid).writeSession hc

/-! ### The refunds -/

lemma attemptRefund_rows {refund : String → Code (Except String String)} {φ : Except String String → Prop}
    (h : ∀ address, Finds t₀ sid k session row φ (refund address)) :
    Finds t₀ sid k session row φ (attemptRefund refund) := by
  have ha : Finds t₀ sid k session row (fun x => ∃ address, x = .ok address) (call .newAddress) :=
    ask_rows rfl fun _ _ _ _ ⟨address, hr⟩ _ => ⟨_, hr, address, rfl⟩
  refine .attempted (ha.seq fun address => .and ?_) fun x w _ hw => hw
  rintro ⟨address, rfl⟩
  exact h address

lemma cooperativeRefund_rows (swap : Copy) :
    Finds t₀ sid k session row (fun x => (∃ txid, x = .ok txid) ∨ session.sourceKind = .onchain)
      (attemptCooperativeRefund swap) := by
  refine attemptRefund_rows fun address => ask_rows rfl ?_
  rintro w r w' hr (⟨txid, rfl⟩ | ⟨⟨err, rfl⟩, ho⟩) -
  · exact ⟨.ok txid, rfl, .inl ⟨txid, rfl⟩⟩
  · exact ⟨.error err, rfl, .inr (ho session hr.session)⟩

lemma healRefund_rows (hs : swap.current = row) :
    Finds t₀ sid k session row (fun x => ∃ txid, x.2 = .ok txid) (healRefund swap) := by
  refine (cooperativeRefund_rows swap).seq fun refund => ?_
  cases refund with
  | ok txid => exact fun w _ hw => ⟨⟨txid, rfl⟩, hw.2⟩
  | error err =>
    refine .and fun _ => ?_
    -- the chain tip is known and past the timeout
    have hti : Finds t₀ sid k session row
        (fun x => ∃ tip timeout, x = some tip ∧ row.timeoutBlockHeight = some timeout ∧ timeout ≤ tip)
        (call .currentBtcTipHeight) := by
      refine ask_rows rfl ?_
      rintro w r w' hro ⟨tip, rfl, hp⟩ -
      obtain ⟨timeout, hle, ht⟩ := hp row hro.swap
      exact ⟨some tip, rfl, tip, timeout, rfl, ht, hle⟩
    refine hti.seq fun tip => .and ?_
    rintro ⟨tip, timeout, rfl, ht, hle⟩
    have hm : unilateralRefundRefusal swap.current (some tip) = none := by
      unfold unilateralRefundRefusal
      rw [hs, ht]
      exact if_neg (not_lt.2 hle)
    have hu : Finds t₀ sid k session row (fun x => ∃ txid, x = .ok txid) (attemptUnilateralRefund swap (some tip)) := by
      refine attemptRefund_rows fun address => ?_
      rw [hm]
      exact ask_rows (c := .unilateralRefund swap.id address) rfl fun _ _ _ _ ⟨txid, hr⟩ _ => ⟨_, hr, txid, rfl⟩
    refine hu.seq fun refund => .and ?_
    rintro ⟨txid, rfl⟩
    exact fun w _ hw => ⟨⟨txid, rfl⟩, hw⟩

lemma selectSwap_rows : Finds t₀ sid k session row (· = some row) (call (.selectSwap .depositTick k)) :=
  ask_rows rfl fun _ _ _ hro hr _ => ⟨_, hr, hro.swap⟩

/-! ### The stages -/

def Refunded (session : BraiinsDepositSession) : Prop := session.status = .refunded ∧ session.refundTxid.isSome

structure Failed (k : SwapId) (session : BraiinsDepositSession) (row : BoltzSwap) : Prop where
  status : session.status = .failed
  source : session.sourceKind = .onchain
  swap : session.submarineBoltzSwapId = some k
  refund : session.refundTxid = none
  unspent : row.status ≠ .refunded
  refundable : row.boltzStatus ∈ refundable.map some

structure Waiting (k : SwapId) (session : BraiinsDepositSession) (row : BoltzSwap) : Prop where
  swap : session.submarineBoltzSwapId = some k
  invoice : session.submarinePaymentHashHex.isSome
  refund : session.refundTxid = none
  known : row.status = .refunded → (submarineRefundTxidFromSwap row).isSome

structure Broadcast (session : BraiinsDepositSession) : Prop where
  status : session.status = .created
  source : session.sourceKind = .onchain ∨
    session.sourceKind = .extOnchain ∧ .awaitingOnchainFunds ∈ session.statusHistory
  strategy : session.fundingStrategy = .swap
  first : .submarineSwapping ∉ session.statusHistory
  funded : session.submarineFundingTxid.isSome

/-- How many ticks there are to the refund. -/
def Stage (k : SwapId) (session : BraiinsDepositSession) (row : BoltzSwap) : ℕ → Prop
  | 0 => Refunded session
  | 1 => Failed k session row
  | 2 => session.status = .submarineSwapping ∧ Waiting k session row
  | 3 => Broadcast session ∧ Waiting k session row
  | _ => False

def Staged (sid : SessionId) (k : SwapId) (n : ℕ) (w : World T) : Prop :=
  ∃ session row, Rows sid k session row w ∧ Stage k session row n

lemma selfHeal_stage (h : Failed k session row) :
    Goes t₀ sid k session row (fun _ => Staged sid k 0) (advanceFailedSelfHeal (.load sid session)) := by
  have hs : session.sourceKind ∈ [BraiinsDepositSourceKind.lightning, .onchain] := by
    rw [h.source]
    decide
  unfold advanceFailedSelfHeal
  dsimp only [SessionCopy.load]
  simp only [h.swap, h.refund, hs, not_true_eq_false, if_false]
  refine selectSwap_rows.seq fun answer => .and ?_
  rintro rfl
  dsimp only
  rw [if_neg (not_or.2 ⟨h.unspent, not_not.2 h.refundable⟩)]
  have hn : Finds t₀ sid k session row (fun now => ∀ last, lastAttempt row = some last → last + minInterval ≤ now)
      (call .utcNow) :=
    ask_rows rfl fun _ _ _ hro ⟨now, hr, hp⟩ _ => ⟨now, hr, fun last => hp row last hro.swap⟩
  refine hn.seq fun now => .and fun hp => ?_
  have hwa : ¬ (lastAttempt row).any fun last => now < last + minInterval := by
    cases hl : lastAttempt row with
    | none => exact false_ne_true
    | some last => simpa using hp last hl
  rw [if_neg hwa]
  refine (healRefund_rows rfl).seq fun ⟨mode, refund⟩ => .and ?_
  rintro ⟨txid, rfl⟩
  refine (commit_both rfl rfl rfl).mono (fun _ _ h => h) ?_
  rintro (e | ⟨⟩) w - hw
  · exact hw
  · exact ⟨_, _, hw, by simp [Stage, Refunded, SessionCopy.write, SessionCopy.transition, SessionCopy.set]⟩

/-- What a tick makes of the row: the refund is made, or it failed for a session of
the wallet's own funds. -/
structure Ended (k : SwapId) (session : BraiinsDepositSession) (row : BoltzSwap) (swap : Copy) : Prop where
  id : swap.id = k
  stored : swap.stored = row
  refundable : swap.current.boltzStatus ∈ refundable.map some
  status : swap.current.status = .refunded ∧ (submarineRefundTxidFromSwap swap.current).isSome ∨
    swap.current.status = .failed ∧ session.sourceKind = .onchain

lemma submarineStatus_ended (h : Waiting k session row) {status : String} (hs : status ∈ refundable) (changed : Bool) :
    Finds t₀ sid k session row (Ended k session row)
      (submarineStatus ((Copy.load k row).set fun row => { row with boltzStatus := some status }) status changed) := by
  have hre : some status ∈ refundable.map some := List.mem_map_of_mem hs
  have ho : status ≠ "transaction.refunded" := by
    rintro rfl
    revert hs
    decide
  unfold submarineStatus
  rw [if_neg fun hr => ho hr.1]
  split
  case isTrue =>
    refine (cooperativeRefund_rows _).seq fun refund => .and fun hm => ?_
    cases refund with
    | ok txid =>
      have ha (row : BoltzSwap) : submarineRefundTxidFromSwap
          { row with refunds := row.refunds ++ [⟨none, some txid⟩] } = some txid := by simp [submarineRefundTxidFromSwap]
      exact fun w _ hw => ⟨⟨rfl, rfl, hre, .inl ⟨rfl, isSome_of_eq_some (ha _)⟩⟩, hw⟩
    | error err => exact fun w _ hw => ⟨⟨rfl, rfl, hre, .inr ⟨rfl, hm.resolve_left nofun⟩⟩, hw⟩
  rename_i hd
  -- a refund of an earlier tick that did not get to the session
  have hr : row.status = .refunded := by
    by_contra hne
    exact hd ⟨hs, hne⟩
  exact fun w _ hw => ⟨⟨rfl, rfl, hre, .inl ⟨hr, h.known hr⟩⟩, hw⟩

lemma updateSubmarine_ended (h : Waiting k session row) :
    Goes t₀ sid k session row
      (fun swap w => Ended k session row { swap with stored := row } ∧
        Rows sid k session (({ swap with stored := row } : Copy).write row) w)
      (updateSubmarineBoltzStatus (.load k row)) := by
  have ha : Finds t₀ sid k session row
      (fun x => ∃ status transactionId, x = .ok ⟨some status, transactionId⟩ ∧ status ∈ refundable)
      (call (.getSwapStatus k row.boltzSwapId)) :=
    ask_rows rfl fun _ _ _ _ ⟨status, transactionId, hr, hst⟩ _ => ⟨_, hr, status, transactionId, rfl, hst⟩
  refine ha.attempted fun answer => .and ?_
  rintro ⟨status, transactionId, rfl, hst⟩
  refine (submarineStatus_ended h hst _).seq fun swap => .and fun he => ?_
  have hu : swap.current.status.undriven := by
    rcases he.status with ⟨hs, -⟩ | ⟨hs, -⟩
    · rw [hs]
      rfl
    · rw [hs]
      rfl
  obtain ⟨id, stored, current⟩ := swap
  obtain rfl : stored = row := he.stored
  refine (commit_swap he.id hu).seq fun _ => ?_
  exact fun w _ hw => ⟨⟨he.id, rfl, he.refundable, he.status⟩, hw⟩

lemma submarineSwapping_stage (h : Waiting k session row) :
    Goes t₀ sid k session row (fun _ w => Staged sid k 0 w ∨ Staged sid k 1 w)
      (advanceSubmarineSwapping (.load sid session)) := by
  obtain ⟨paymentHash, hi⟩ := isSome_iff_exists.1 h.invoice
  unfold advanceSubmarineSwapping
  dsimp only [SessionCopy.load]
  simp only [hi]
  have hl : Finds t₀ sid k session row (fun x => ∀ invoice, x = .ok invoice → invoice.settled = false)
      (call (.lookupInvoice paymentHash)) :=
    ask_rows rfl fun _ _ _ _ ha _ => ha
  refine guarded_rows hl fun answer => .and fun ho => ?_
  split
  · cases ho _ rfl
  unfold pollSubmarine
  simp only [h.swap]
  refine guarded_rows selectSwap_rows fun answer => .and ?_
  rintro rfl
  refine guarded_rows (updateSubmarine_ended h) fun swap => .and fun he => ?_
  rcases he.status with ⟨hs, ht⟩ | ⟨hs, hso⟩
  · dsimp only at hs ht ⊢
    rw [hs]
    refine save_rows (commit_session rfl) fun w _ hw => .inl ⟨_, _, hw, ?_⟩
    simp [Stage, Refunded, SessionCopy.write, SessionCopy.transition, SessionCopy.set, h.refund, ht]
  · dsimp only at hs ⊢
    rw [hs]
    refine save_rows (commit_session rfl) fun w _ hw => .inr ⟨_, _, hw, ?_⟩
    have hr := he.refundable
    constructor
    · simp [SessionCopy.write, SessionCopy.transition, SessionCopy.setError, SessionCopy.set]
    · exact hso
    · simp [SessionCopy.write, SessionCopy.transition, SessionCopy.setError, SessionCopy.set, h.swap]
    · simp [SessionCopy.write, SessionCopy.transition, SessionCopy.setError, SessionCopy.set, h.refund]
    · simp [Copy.write, hs]
    · simpa [Copy.write] using hr

lemma createdOnchain_stage (h : Broadcast session) (hw : Waiting k session row) :
    Goes t₀ sid k session row (fun _ => Staged sid k 2) (advanceCreatedOnchain (.load sid session)) := by
  obtain ⟨paymentHash, hi⟩ := isSome_iff_exists.1 hw.invoice
  obtain ⟨txid, hf⟩ := isSome_iff_exists.1 h.funded
  have hq : Finds t₀ sid k session row (fun x => ∃ quote, x = .ok quote) (call .quote) :=
    ask_rows rfl fun _ _ _ _ ⟨quote, hr⟩ _ => ⟨_, hr, quote, rfl⟩
  refine guarded_rows hq fun answer => .and ?_
  rintro ⟨quote, rfl⟩
  dsimp only [SessionCopy.load]
  simp only [hi, hw.swap]
  unfold makeSubmarine
  simp only [hw.swap]
  refine guarded_rows selectSwap_rows fun answer => .and ?_
  rintro rfl
  unfold fundSubmarine submarineFunded
  simp only [hf, h.status, if_true]
  refine save_rows (commit_session rfl) fun w _ hro => ⟨_, _, hro, ?_, ?_⟩
  · simp [SessionCopy.write, SessionCopy.transition, SessionCopy.set]
  constructor
  · simp [SessionCopy.write, SessionCopy.transition, SessionCopy.set, hw.swap]
  · simp [SessionCopy.write, SessionCopy.transition, SessionCopy.set, hi]
  · simp [SessionCopy.write, SessionCopy.transition, SessionCopy.set, hw.refund]
  · exact hw.known

section

variable (settings : Settings)

lemma dispatchCreated_broadcast (h : Broadcast session) :
    dispatchCreated settings (.load sid session) = advanceCreatedOnchain (.load sid session) := by
  unfold dispatchCreated
  dsimp only [SessionCopy.load]
  rcases h.source with hs | ⟨hs, hh⟩
  · simp [hs, h.strategy, h.first]
  · simp [hs, hh, h.strategy, h.first]

/-- Every tick lowers the stage. -/
lemma dispatch_stage {n : ℕ} (h : Stage k session row (n + 1)) :
    Goes t₀ sid k session row (fun _ w => ∃ m ≤ n, Staged sid k m w) (dispatch settings (.load sid session)) := by
  match n, h with
  | 0, h =>
    have hs : (SessionCopy.load sid session).current.status = .failed := h.status
    unfold dispatch
    rw [hs]
    exact (selfHeal_stage h).attempted fun _ w _ hw => ⟨0, le_rfl, hw⟩
  | 1, h =>
    have hs : (SessionCopy.load sid session).current.status = .submarineSwapping := h.1
    unfold dispatch
    rw [hs]
    refine (submarineSwapping_stage h.2).mono (fun _ _ h => h) ?_
    rintro (e | ⟨⟩) w - hw
    · exact hw
    · rcases hw with hw | hw
      · exact ⟨0, Nat.zero_le _, hw⟩
      · exact ⟨1, le_rfl, hw⟩
  | 2, h =>
    have hs : (SessionCopy.load sid session).current.status = .created := h.1.status
    unfold dispatch
    rw [hs]
    rw [dispatchCreated_broadcast settings h.1]
    refine (createdOnchain_stage h.1 h.2).mono (fun _ _ h => h) ?_
    rintro (e | ⟨⟩) w - hw
    · exact hw
    · exact ⟨2, le_rfl, hw⟩

lemma stable_staged (n : ℕ) : (aside t₀ sid k).Stable t₀ fun w => ∃ m ≤ n, Staged sid k m w := by
  rintro w w' hi hi' hr ⟨m, hm, session, row, hro, hs⟩
  exact ⟨m, hm, session, row, (stable_rows True w w' hi hi' hr ⟨trivial, hro⟩).2, hs⟩

lemma advance_stage {n : ℕ} (h : Stage k session row (n + 1)) :
    Goes t₀ sid k session row (fun _ w => ∃ m ≤ n, Staged sid k m w) (advance settings sid) := by
  have hs : Finds t₀ sid k session row (· = some session) (call (.selectSessionForUpdate sid)) :=
    ask_rows rfl fun _ _ _ hro hr _ => ⟨_, hr, hro.session⟩
  refine .tryFinally (hs.seq (Q := Returns fun _ w => ∃ m ≤ n, Staged sid k m w) fun answer => .and ?_) fun r => ?_
  · rintro rfl
    exact dispatch_stage settings h
  cases r with
  | error e => exact .absurd fun _ h => h
  | ok _ =>
    refine .answered (fun _ => stable_staged n) fun w r w' _ hw hx => ?_
    obtain ⟨-, rfl, rfl⟩ := hx
    obtain ⟨m, hm, session, row, hro, hst⟩ := hw
    exact ⟨trivial, (), rfl, fun _ => ⟨m, hm, session, row, ⟨hro.session, hro.swap⟩, hst⟩⟩

lemma Stage.recoverable {n : ℕ} (h : Stage k session row (n + 1)) :
    session.status ≠ .completed ∧ session.recoverable = true := by
  match n, h with
  | 0, h => simp [BraiinsDepositSession.recoverable, h.status, h.swap, h.refund]
  | 1, h => simp [BraiinsDepositSession.recoverable, h.1, BraiinsDepositStatus.terminal]
  | 2, h => simp [BraiinsDepositSession.recoverable, h.1.status, BraiinsDepositStatus.terminal]

lemma Refunded.not_recoverable (h : Refunded session) : session.status ≠ .completed ∧ session.recoverable = false := by
  simp [BraiinsDepositSession.recoverable, h.1, BraiinsDepositStatus.terminal]

/-- What one run of `recover_pending_sessions` brings. -/
lemma recoverSession_stage (n : ℕ) :
    (aside t₀ sid k).Safe t₀ (Returns fun _ w => ∃ m ≤ n, Staged sid k m w) (recoverSession settings sid)
      fun w => ∃ m ≤ n + 1, Staged sid k m w := by
  refine .exists fun m => .and fun hm => ?_
  refine .exists fun session => .exists fun row => ?_
  have hselect : Finds t₀ sid k session row (fun x => session.status ≠ .completed → x = session.recoverable)
      (call (.selectRecoverable sid)) := by
    refine ask_rows rfl ?_
    rintro w r w' hro ⟨selected, rfl⟩ hx
    refine ⟨selected, rfl, fun hstatus => ?_⟩
    rcases hx with ⟨_, hr, hs, -⟩ | ⟨⟨e, he⟩, -⟩
    · cases hr
      unfold Selects at hs
      rw [hro.session] at hs
      exact hs hstatus
    · cases he
  have hstaged : (aside t₀ sid k).Safe t₀ (Returns fun _ w => ∃ m ≤ n, Staged sid k m w) (recoverSession settings sid)
      fun w => Stage k session row m ∧ Rows sid k session row w := by
    refine .and fun hst => hselect.seq fun selected => .and fun hse => ?_
    cases m with
    | zero =>
      have hf := Refunded.not_recoverable hst
      rw [hse hf.1, hf.2]
      exact fun w _ hw => ⟨0, Nat.zero_le n, session, row, hw, hst⟩
    | succ m =>
      have hl := Stage.recoverable hst
      rw [hse hl.1, hl.2]
      refine (advance_stage settings hst).attempted fun _ => ?_
      rintro w - ⟨m', hm', hw⟩
      exact ⟨m', hm'.trans (Nat.le_of_succ_le_succ hm), hw⟩
  exact hstaged.weaken fun _ _ h => ⟨h.2, h.1⟩

end

end Tick

/-! ## The sweep and the workers -/

def Quiet (fine : Copy → Prop) : Command → Prop
  | .commit swaps session => (∀ swap ∈ swaps, fine swap) ∧ session = none
  | _ => True

section Others

variable {settings : Settings} {fine : Copy → Prop}

lemma quiet_of_drives {pays : SwapId → String → Prop} (c : Command) (h : Drives fine pays c) : Quiet fine c := by
  cases c with
  | commit swaps session =>
    cases session with
    | none => exact ⟨h, rfl⟩
    | some copy => exact h.elim
  | _ => trivial

lemma ask_quiet {c : Command} (hc : Quiet fine c) : (call c).Within (Quiet fine) fun _ => True :=
  Task.within_call hc fun _ => trivial

lemma recoverEach_quiet (hf : Closed fine) {rows : List (SwapId × BoltzSwap)} {unsaved : List Copy}
    (hr : ∀ entry ∈ rows, entry.2.status = .created ∨ fine (.load entry.1 entry.2))
    (hu : ∀ other ∈ unsaved, fine other) : (recoverEach unsaved rows).Within (Quiet fine) fun _ => True := by
  induction rows generalizing unsaved with
  | nil => trivial
  | cons entry rows ih =>
    obtain ⟨id, row⟩ := entry
    have hre : ∀ entry ∈ rows, entry.2.status = .created ∨ fine (.load entry.1 entry.2) :=
      fun entry hm => hr entry (List.mem_cons_of_mem _ hm)
    unfold recoverEach
    split
    case isTrue =>
      refine .bind (ask_quiet (by trivial)).attempt fun queued _ => ?_
      exact (ih hre hu).bind fun recovered _ => trivial
    rename_i hd
    have hs : fine (.load id row) := by
      refine (hr (id, row) List.mem_cons_self).resolve_left fun hc => hd ?_
      rw [hc]
      exact List.mem_cons_self
    have hdr : (advanceSwap (.load id row) unsaved).Within (Drives fine fun _ _ => True) (Advanced.Fine fine) :=
      advanceSwap_within hf hs hu
    refine (hdr.mono quiet_of_drives fun _ h => h).bind fun advanced ha => ?_
    refine (ih hre fun other hm => ?_).bind fun recovered _ => trivial
    rcases List.mem_append.1 hm with hm | hm
    · exact ha.2 other hm
    · exact List.mem_singleton.1 hm ▸ ha.1

lemma processBoltzSwap_quiet (hf : Closed fine) {message : Message} (h : ∀ row, fine (.load message.swapId row)) :
    (processBoltzSwap settings message).Within (Quiet fine) fun _ => True := by
  have hr : (processRow settings message.swapId message.routingFeeLimitPercent).Within (Quiet fine)
      fun _ => True := by
    refine .bind (ask_quiet (by trivial)) fun row _ => ?_
    cases row with
    | none => trivial
    | some row =>
      dsimp only
      split
      · trivial
      have hd : (processCopy settings (.load message.swapId row) message.routingFeeLimitPercent).Within
          (Drives fine fun _ _ => True) fun _ => True :=
        processCopy_within hf (h row) (fun _ _ _ _ => trivial) _
      exact hd.mono quiet_of_drives fun _ h => h
  have hru : (runProcessSwap settings message.swapId message.routingFeeLimitPercent).Within (Quiet fine)
      fun _ => True := by
    refine .tryFinally (hr.tryExcept fun _ => ?_) (ask_quiet (by trivial))
    trivial
  have hm : (markSwapFailed message.swapId "Max retries exceeded").Within (Quiet fine) fun _ => True := by
    refine .tryFinally ?_ (ask_quiet (by trivial))
    refine .bind (ask_quiet (by trivial)) fun row _ => ?_
    cases row with
    | none => trivial
    | some row =>
      dsimp only
      split
      · trivial
      · refine ask_quiet ⟨fun swap hme => ?_, rfl⟩
        rw [List.mem_singleton.1 hme]
        exact hf.setError (hf.setStatus (h row) (by decide)) _
  refine hru.bind fun result _ => ?_
  split
  · trivial
  refine .bind (ask_quiet (by trivial)) fun again _ => ?_
  split
  · trivial
  · exact hm.attempt.bind fun _ _ => trivial

lemma SwapStatus.created_of_undriven {status : SwapStatus} (h : status.undriven = true)
    (hp : status.pending = true) : status = .created := by
  cases status with
  | created => rfl
  | failed | cancelled | refunded => cases hp
  | _ => cases h

lemma closed_others (k : SwapId) : Closed fun swap => swap.id ≠ k where
  set hs _ _ := hs
  saved hs := hs
  rolledBack hs := hs

variable {u : T} {α : Type} {A : World T → Prop}

lemma quiet_safe (hu : u ≠ t₀) {code : Code α} {ψ : α → Prop} (h : code.Within (Quiet fun swap => swap.id ≠ k) ψ) :
    (aside t₀ sid k).Obeys u code A := by
  have hsa : (aside t₀ sid k).Safe u (fun r w => Task.Okay ψ r ∧ True) code fun _ => True := by
    refine .within h (.const _) fun c w r w' hc _ _ _ => ⟨?_, fun _ => trivial⟩
    cases c with
    | commit swaps session =>
      obtain ⟨hs, rfl⟩ := hc
      have hk : KeepsAside t₀ sid k u (.commit swaps none) := by
        simpa [KeepsAside, hu] using hs
      exact hk
    | _ => trivial
  exact hsa.mono (fun _ _ _ => trivial) fun _ _ _ _ => trivial

lemma sweep_aside (hu : u ≠ t₀) : (aside t₀ sid k).Obeys u (Program.sweep.code settings) := by
  have hs : (aside t₀ sid k).Safe u
      (Yields fun rows => ∀ entry ∈ rows, entry.2.status = .created ∨ entry.1 ≠ k) (call .selectPending)
      fun _ => True := by
    refine .yields_call fun w r w' hi _ hx => ⟨trivial, ?_⟩
    rintro rows rfl ⟨id, row⟩ hm
    refine or_not_of_imp ?_
    rintro rfl
    obtain ⟨stored, hst, hun⟩ := hi
    rcases hx.2 with ⟨rows', hr, -, hro, -⟩ | ⟨⟨e, he⟩, -⟩
    · cases hr
      obtain ⟨hrow, hp⟩ := (hro id row).1 hm
      cases hst.symm.trans hrow
      exact SwapStatus.created_of_undriven hun hp
    · cases he
  have hsw : (aside t₀ sid k).Obeys u recoverPendingSwaps := by
    refine hs.andThen fun rows => ?_
    refine .known fun h : ∀ entry ∈ rows, entry.2.status = .created ∨ entry.1 ≠ k => ?_
    exact quiet_safe hu (recoverEach_quiet (closed_others k) h fun _ hm => (List.not_mem_nil hm).elim)
  have hru : (aside t₀ sid k).Obeys u runRecoverSwaps := by
    have hc : (aside t₀ sid k).Obeys u
        (Lib.Task.tryExcept recoverPendingSwaps fun _ => return []) fun _ => True :=
      hsw.tryExcept (fun _ _ _ _ => trivial) fun _ _ _ _ => trivial
    refine hc.tryFinally fun _ => ?_
    refine .answered (fun _ => .const _) fun w r w' _ _ hx => ?_
    exact ⟨trivial, (), hx.2.1, fun _ => trivial⟩
  exact hru.andThen fun _ => .ret

lemma worker_aside (hu : u ≠ t₀) : (aside t₀ sid k).Obeys u (Program.worker.code settings) := by
  have hre : (aside t₀ sid k).Safe u (Yields fun message => message.swapId ≠ k) (call .receive) fun _ => True := by
    refine .yields_call fun w r w' _ _ hx => ⟨trivial, fun message hr => ?_⟩
    exact hx.1.1 message hr
  have hw : (aside t₀ sid k).Obeys u (runWorker settings) := by
    refine hre.andThen fun message => ?_
    exact .known fun h : message.swapId ≠ k => quiet_safe hu (processBoltzSwap_quiet (closed_others k) fun _ => h)
  exact hw.andThen fun _ => .ret

end Others

/-! ## Runs -/

/-- `recover_pending_sessions`, run again and again, as far as one session goes. -/
def recoverTimes (settings : Settings) (sid : SessionId) : ℕ → Code Unit
  | 0 => return ()
  | n + 1 => do
    recoverSession settings sid
    recoverTimes settings sid n

def recoverTask (settings : Settings) (sid : SessionId) (n : ℕ) : Code Outcome := do
  recoverTimes settings sid n
  return .ticked

lemma recoverTimes_stage (settings : Settings) {n : ℕ} :
    ∀ m ≤ n, (aside t₀ sid k).Safe t₀ (Returns fun _ => Staged sid k 0) (recoverTimes settings sid n)
      fun w => ∃ j ≤ m, Staged sid k j w := by
  induction n with
  | zero =>
    rintro m hm w - ⟨j, hj, hw⟩
    obtain rfl : j = 0 := by omega
    exact hw
  | succ n ih =>
    intro m hm
    have hr : (aside t₀ sid k).Safe t₀ (Returns fun _ => Staged sid k 0) (recoverTimes settings sid (n + 1))
        fun w => ∃ j ≤ m - 1 + 1, Staged sid k j w :=
      (recoverSession_stage settings (m - 1)).seq fun _ => ih (m - 1) (by omega)
    refine hr.mono ?_ fun _ _ _ h => h
    rintro w - ⟨j, hj, hw⟩
    exact ⟨j, by omega, hw⟩

/-- Three ticks of `recover_pending_sessions`, among sweeps and workers, end in the
refund. -/
theorem lockup_recovered (settings : Settings) {start : World T} {tasks : T → Code Outcome} {n : ℕ} (hn : 3 ≤ n)
    (hstart : ∃ m ≤ 3, Staged sid k m start) (hundriven : ∃ row, start.swaps k = some row ∧ row.status.undriven)
    (hticks : tasks t₀ = recoverTask settings sid n)
    (hothers : ∀ u ≠ t₀, tasks u = Program.sweep.code settings ∨ tasks u = Program.worker.code settings)
    {cfg : Config T Command Reply Raised Outcome (World T)} (hreach : (recovering t₀ sid k).Reach ⟨start, tasks⟩ cfg)
    {outcome : Outcome} (hdone : cfg.tasks t₀ = .ret outcome) :
    ∃ session, cfg.shared.sessions sid = some session ∧ session.status = .refunded ∧ session.refundTxid.isSome := by
  let Q : T → Except Raised Outcome → World T → Prop := fun u r w => u = t₀ → Returns (fun _ => Staged sid k 0) r w
  have hh : (aside t₀ sid k).Holds Q ⟨start, tasks⟩ := by
    refine ⟨hundriven, fun u => ?_⟩
    by_cases hu : u = t₀
    · subst hu
      refine ⟨fun w => ∃ m ≤ 3, Staged sid k m w, stable_staged 3, hstart, ?_⟩
      dsimp only
      rw [hticks]
      have ht : (aside u sid k).Safe u (Returns fun _ => Staged sid k 0) (recoverTask settings sid n)
          fun w => ∃ m ≤ 3, Staged sid k m w :=
        (recoverTimes_stage settings 3 hn).seq fun _ w _ hw => hw
      exact ht.post fun _ _ _ h _ => h
    · refine ⟨fun _ => True, .const _, trivial, ?_⟩
      have ho : (aside t₀ sid k).Obeys u (tasks u) := by
        rcases hothers u hu with h | h
        · rw [h]
          exact sweep_aside hu
        · rw [h]
          exact worker_aside hu
      exact ho.post fun _ _ _ _ h => (hu h).elim
  obtain ⟨session, row, hro, hs, hr⟩ := (hh.reach hreach).ret hdone rfl
  exact ⟨session, hro.session, hs, hr⟩

def lockedRow : BoltzSwap := {
  boltzSwapId := "a"
  invoiceAmountSats := 100000
  destinationAddress := ""
  boltzInvoice := some "lnbc1"
  boltzLockupAddress := some "bc1q"
  timeoutBlockHeight := some 800000
  boltzStatus := some "transaction.confirmed" }

def lockedSession (source : BraiinsDepositSourceKind) : BraiinsDepositSession := {
  sourceKind := source
  status := .submarineSwapping
  statusHistory := [.created, .awaitingOnchainFunds, .created, .submarineSwapping]
  submarineBoltzSwapId := some 0
  submarinePaymentHashHex := some "h"
  submarineFundingTxid := some "tx"
  extIntakeReceivedSats := 100000 }

def lockedWorld (source : BraiinsDepositSourceKind) : World ℕ where
  swaps := fun id => if id = 0 then some lockedRow else none
  payer := fun _ => .boltz
  sessions := fun id => if id = 0 then some (lockedSession source) else none
  queue := []
  log := [.lockupFunded 0]
  reading := fun _ => none
  failing := fun _ => none

def ticksAndSweeps (n : ℕ) : Code Outcome := if n = 0 then recoverTask {} 0 3 else Program.sweep.code {}

theorem lockup_recovered_cooperatively :
    ∃ cfg outcome, (recovering 0 0 0).Reach ⟨lockedWorld .onchain, ticksAndSweeps⟩ cfg ∧ cfg.tasks 0 = .ret outcome ∧
      ∃ session, cfg.shared.sessions 0 = some session ∧ session.status = .refunded ∧ session.refundTxid.isSome := by
  have h0 : (recovering 0 0 0).Reach _ ⟨lockedWorld .onchain, ticksAndSweeps⟩ := .refl
  have h1 := h0.run 0 rfl (.ok true) ⟨⟨trivial, fun _ => ⟨true, rfl⟩⟩, .inl ⟨true, rfl, fun _ => rfl, rfl⟩⟩
  have h2 := h1.run 0 rfl (.ok (some (lockedSession .onchain))) ⟨⟨trivial, fun _ => rfl⟩, .inl ⟨.inl rfl, rfl⟩⟩
  have h3 := h2.run 0 rfl (.ok (.error "")) ⟨⟨trivial, fun _ => ⟨_, rfl, nofun⟩⟩, rfl⟩
  have h4 := h3.run 0 rfl (.ok (some lockedRow)) ⟨⟨trivial, fun _ => rfl⟩, .inl ⟨rfl, rfl⟩⟩
  have h5 := h4.run 0 rfl (.ok (.ok ⟨some "invoice.failedToPay", none⟩))
    ⟨⟨trivial, fun _ => ⟨_, _, rfl, by decide⟩⟩, rfl⟩
  have h6 := h5.run 0 rfl (.ok (.ok "bc1p")) ⟨⟨trivial, fun _ => ⟨_, rfl⟩⟩, rfl⟩
  have h7 := h6.run 0 rfl (.ok (.ok "refund")) ⟨⟨trivial, fun _ => .inl ⟨_, rfl⟩⟩, rfl⟩
  have h8 := h7.run 0 rfl (.ok ()) ⟨⟨trivial, fun _ => rfl⟩, .inl ⟨rfl, .inl rfl⟩⟩
  have h9 := h8.run 0 rfl (.ok ()) ⟨⟨trivial, fun _ => rfl⟩, .inl ⟨rfl, .inl rfl⟩⟩
  have h10 := h9.run 0 rfl (.ok ()) ⟨⟨trivial, fun _ => trivial⟩, rfl, rfl⟩
  -- the session is over, and the next two ticks leave it out
  have h11 := h10.run 0 rfl (.ok false) ⟨⟨trivial, fun _ => ⟨_, rfl⟩⟩, .inl ⟨false, rfl, fun _ => rfl, rfl⟩⟩
  have h12 := h11.run 0 rfl (.ok false) ⟨⟨trivial, fun _ => ⟨_, rfl⟩⟩, .inl ⟨false, rfl, fun _ => rfl, rfl⟩⟩
  refine ⟨_, .ticked, h12, rfl, ?_⟩
  have hs : Staged 0 0 2 (lockedWorld .onchain) :=
    ⟨lockedSession .onchain, lockedRow, ⟨rfl, rfl⟩, rfl, rfl, rfl, rfl, nofun⟩
  have ho : ∀ u ≠ 0, ticksAndSweeps u = Program.sweep.code {} ∨ ticksAndSweeps u = Program.worker.code {} :=
    fun u hu => .inl (if_neg hu)
  have ht : ticksAndSweeps 0 = recoverTask {} 0 3 := rfl
  exact lockup_recovered {} le_rfl ⟨2, by decide, hs⟩ ⟨lockedRow, rfl, rfl⟩ ht ho h12 rfl

/-! ## A session that is left -/

/-- A failed session with funds from outside. -/
def Stranded (sid : SessionId) (w : World T) : Prop :=
  ∃ session, w.sessions sid = some session ∧ session.status = .failed ∧ session.sourceKind = .extOnchain ∧
    session.refundTxid = none

def LeavesSession (sid : SessionId) : Command → Prop
  | .commit _ (some copy) => copy.id ≠ sid
  | _ => True

/-- Nothing more is done about a failed session with funds from outside. -/
def left (T : Type) [DecidableEq T] (sid : SessionId) : Protocol (machine T) where
  inv := Stranded sid
  pre _ c _ := LeavesSession sid c
  rely _ _ _ := True
  exec := by
    rintro t c w w' r ⟨session, hsession, h⟩ hpre hx
    refine ⟨⟨session, ?_, h⟩, fun _ _ => trivial⟩
    cases exec_effect hx with
    | @commits swaps copy =>
      refine Eq.trans ?_ hsession
      refine write_session_kept (fun c hc => ?_) swaps
      subst hc
      exact hpre
    | _ => exact hsession
  env := by
    rintro w w' - hfalse
    exact hfalse.elim

section Left

variable {t : T} {settings : Settings}

lemma quiet_left {α : Type} {code : Code α} {fine : Copy → Prop} {ψ : α → Prop} (h : code.Within (Quiet fine) ψ) :
    (left T sid).Obeys t code := by
  have hs : (left T sid).Safe t (fun r w => Task.Okay ψ r ∧ True) code fun _ => True := by
    refine .within h (.const _) fun c w r w' hc _ _ _ => ⟨?_, fun _ => trivial⟩
    cases c with
    | commit swaps session =>
      obtain ⟨-, rfl⟩ := hc
      trivial
    | _ => trivial
  exact hs.mono (fun _ _ _ => trivial) fun _ _ _ _ => trivial

lemma sweep_left : (left T sid).Obeys t (Program.sweep.code settings) := by
  have ha : Closed fun _ => True := ⟨fun _ _ _ => trivial, fun _ => trivial, fun _ => trivial⟩
  have hs : recoverPendingSwaps.Within (Quiet fun _ => True) fun _ => True := by
    refine .bind (ask_quiet (by trivial)) fun rows _ => ?_
    exact recoverEach_quiet ha (fun _ _ => .inr trivial) fun _ _ => trivial
  have hr : runRecoverSwaps.Within (Quiet fun _ => True) fun _ => True := by
    refine .tryFinally (hs.tryExcept fun _ => ?_) (ask_quiet (by trivial))
    trivial
  have hc : (Program.sweep.code settings).Within (Quiet fun _ => True) fun _ => True :=
    hr.bind fun _ _ => trivial
  exact quiet_left hc

/-- A tick reads the row, and does nothing. -/
lemma advance_left : (left T sid).Obeys t (advance settings sid) := by
  have hse : (left T sid).Safe t
      (Yields fun x => ∀ session, x = some session → session.status = .failed ∧ session.sourceKind = .extOnchain)
      (call (.selectSessionForUpdate sid)) fun _ => True := by
    refine .yields_call fun w r w' hi _ hx => ⟨trivial, ?_⟩
    rintro x rfl session rfl
    obtain ⟨stored, hst, hs, hso, -⟩ := hi
    rcases hx with ⟨hr | hr, -⟩ | ⟨⟨e, he⟩, -⟩
    · have hro : some session = w.sessions sid := Except.ok.inj hr
      cases hro.trans hst
      exact ⟨hs, hso⟩
    · cases hr
    · cases he
  refine .tryFinally (hse.andThen fun row => ?_) fun _ => ?_
  · cases row with
    | none => exact .ret
    | some row =>
      have hro : row.status = .failed ∧ row.sourceKind = .extOnchain →
          (left T sid).Obeys t (dispatch settings (.load sid row)) := by
        rintro ⟨hs, hso⟩
        unfold dispatch
        dsimp only [SessionCopy.load]
        simp only [hs]
        unfold advanceFailedSelfHeal
        simp only [hso]
        exact .ret
      exact (Protocol.Safe.and hro).weaken fun _ _ h => ⟨h row rfl, trivial⟩
  refine .answered (fun _ => .const _) fun w r w' _ _ hx => ?_
  exact ⟨trivial, (), hx.1, fun _ => trivial⟩

lemma recoverTask_left (n : ℕ) : (left T sid).Obeys t (recoverTask settings sid n) := by
  have hr : (left T sid).Obeys t (recoverSession settings sid) := by
    have hs : (left T sid).Obeys t (call (.selectRecoverable sid)) :=
      .call (fun _ => .const _) fun _ _ _ _ _ _ => ⟨trivial, fun _ => trivial⟩
    refine hs.andThen fun selected => ?_
    cases selected with
    | false => exact .ret
    | true => exact advance_left.attempt.seq fun _ _ _ _ => trivial
  have ht : (left T sid).Obeys t (recoverTimes settings sid n) := by
    induction n with
    | zero => exact .ret
    | succ n ih => exact hr.andThen fun _ => ih
  exact ht.andThen fun _ => .ret

end Left

def laterTicks (n : ℕ) : Code Outcome :=
  if n = 0 then recoverTask {} 0 1 else if n % 2 = 1 then recoverTask {} 0 n else Program.sweep.code {}

/-- Boltz has not been able to pay the invoice and, once, does not sign the refund.
The session is FAILED, and whatever ticks and sweeps come after, and whatever they
are answered, it stays so, without a refund. -/
theorem lockup_left :
    ∃ cfg, (machine ℕ).Reach ⟨lockedWorld .extOnchain, laterTicks⟩ cfg ∧ .lockupFunded 0 ∈ cfg.shared.log ∧
      ∀ cfg', (machine ℕ).Reach cfg cfg' →
        ∃ session, cfg'.shared.sessions 0 = some session ∧ session.status = .failed ∧ session.refundTxid = none := by
  have ht : ∃ w, (machine ℕ).Ends 0 (lockedWorld .extOnchain) (recoverTask {} 0 1) (.ok .ticked) w ∧
      .lockupFunded 0 ∈ w.log ∧ Stranded 0 w := by
    refine Ends.next rfl (.ok true) (.inl ⟨true, rfl, fun _ => rfl, rfl⟩) ?_
    refine Ends.next rfl (.ok (some (lockedSession .extOnchain))) (.inl ⟨.inl rfl, rfl⟩) ?_
    refine Ends.next rfl (.ok (.error "")) rfl ?_
    refine Ends.next rfl (.ok (some lockedRow)) (.inl ⟨rfl, rfl⟩) ?_
    refine Ends.next rfl (.ok (.ok ⟨some "invoice.failedToPay", none⟩)) rfl ?_
    refine Ends.next rfl (.ok (.ok "bc1p")) rfl ?_
    refine Ends.next rfl (.ok (.error "could not get partial signature")) rfl ?_
    refine Ends.next rfl (.ok ()) (.inl ⟨rfl, .inl rfl⟩) ?_
    refine Ends.next rfl (.ok ()) (.inl ⟨rfl, .inl rfl⟩) ?_
    refine Ends.next rfl (.ok ()) ⟨rfl, rfl⟩ ?_
    exact ⟨_, .ret, List.mem_cons_self, _, rfl, rfl, rfl, rfl⟩
  obtain ⟨w, he, hlo, hs⟩ := ht
  refine ⟨_, he.reach rfl, hlo, fun cfg' hl => ?_⟩
  have hh : (left ℕ 0).Holds (fun _ _ _ => True) ⟨w, Function.update laterTicks 0 (.result (.ok .ticked))⟩ := by
    refine ⟨hs, fun u => ⟨fun _ => True, .const _, trivial, ?_⟩⟩
    by_cases hu : u = 0
    · subst hu
      exact fun _ _ _ => trivial
    dsimp only
    rw [Function.update_of_ne hu]
    unfold laterTicks
    rw [if_neg hu]
    split
    · exact recoverTask_left u
    · exact sweep_left
  obtain ⟨session, hse, hst, -, hr⟩ := (hh.reach hl).1
  exact ⟨session, hse, hst, hr⟩

end AgentWallet.Swaps
