import AgentWallet.Swaps.Cancel
/-!
# Funds in flight (`advance_swap`, `_mark_swap_failed`, the retried claims)

Four kinds of tasks write to the row of a reverse swap from copies of their own,
and each takes what it was told last for the truth. A report that the swap has
ended, or a task that gives up, overwrites a row whose claim is recorded or whose
payment is on its way (`claimed_swap_fails`).

If what is said about the swap comes in order (`Fits`), the funds are not written
off: the recorded claim stays, no row with a claim becomes FAILED or REFUNDED, and
a row whose invoice was handed to LND becomes FAILED only if LND has reported the
payment as failed (`funds_are_kept`).
-/

namespace AgentWallet.Swaps

open AgentWallet.Lib List Function Option Bool Except Machine

/-! ## What has been said about a swap -/

namespace World

variable {T : Type} (w : World T) (s : SwapId)

def Sent : Prop := ∃ invoice, .sent s invoice ∈ w.log

def Ended : Prop := .ended s ∈ w.log

def Claimed (txid : String) : Prop := .claimed s txid ∈ w.log

end World

/-- The order in which things may be said of the swap. It ends before its invoice is
handed to LND and before a claim, and then neither follows; a payment fails before
a claim; a claim waits for whoever was told of a failed payment; and there is one
claim. -/
def Fits {T : Type} (s : SwapId) (w : World T) : Event → Prop
  | .sent id _ => id = s → ¬ w.Ended s
  | .paymentFailed id => id = s → ∀ txid, ¬ w.Claimed s txid
  | .ended id => id = s → ¬ w.Sent s ∧ ∀ txid, ¬ w.Claimed s txid
  | .claimed id txid => id = s → ¬ w.Ended s ∧ (∀ u, w.failing u ≠ some s) ∧ ∀ other, w.Claimed s other → other = txid
  | _ => True

variable {T : Type} [DecidableEq T]

def Orderly (s : SwapId) (_ : T) (c : Command) (w : World T) (_ : Except Raised (Reply c)) (w' : World T) : Prop :=
  ∀ e, w'.log = w.log ++ [e] → Fits s w e

abbrev orderly (T : Type) [DecidableEq T] (s : SwapId) : Machine T Command Reply Raised (World T) :=
  (machine T).restrict (Orderly s) fun _ _ => True

def SwapStatus.lost : SwapStatus → Bool
  | .failed | .refunded => true
  | _ => false

/-! ## The invariant -/

/-- The row agrees with what has been said. -/
structure Kept (s : SwapId) (w : World T) : Prop where
  recorded : ∀ row, w.swaps s = some row → ∀ txid, row.claimTxid = some txid → w.Claimed s txid ∧ row.status.lost = false
  ended : w.Ended s → ¬ w.Sent s ∧ ∀ txid, ¬ w.Claimed s txid
  failing : ∀ u, w.failing u = some s → .paymentFailed s ∈ w.log ∧ ∀ txid, ¬ w.Claimed s txid
  one : ∀ txid txid', w.Claimed s txid → w.Claimed s txid' → txid = txid'

/-- A copy that a task may commit. It writes the row off only if the swap has ended
or if the task was told that the payment has failed, and a claim that it writes has
been made and comes with a status. -/
structure Fine (s : SwapId) (t : T) (w : World T) (swap : Copy) : Prop where
  status : swap.current.status = swap.stored.status ∨ swap.current.status.lost = false ∨ w.Ended s ∨ w.failing t = some s
  claim : swap.current.claimTxid = swap.stored.claimTxid ∨
    ∃ txid, swap.current.claimTxid = some txid ∧ w.Claimed s txid ∧ swap.current.status ≠ swap.stored.status ∧
      swap.current.status.lost = false

/-- What other tasks leave: all that has been said, and what the task was told. -/
structure Grown (t : T) (w w' : World T) : Prop where
  log : ∀ e ∈ w.log, e ∈ w'.log
  failing : w'.failing t = w.failing t

def Writes (s : SwapId) (t : T) (c : Command) (w : World T) : Prop :=
  match c with
  | .commit swaps _ => ∀ swap ∈ swaps, swap.id = s → Fine s t w swap
  | .insertSwap _ _ => False
  | _ => True

/-- A command that writes no row and says nothing of a payment. -/
def Command.quiet : Command → Bool
  | .insertSwap _ _ => false
  | c => !c.tells

variable {row : BoltzSwap} {c : Command} {id : SwapId} {txid : String}

section Steps

variable {s : SwapId} {t : T} {w w' : World T} {c : Command} {r : Except Raised (Reply c)}

lemma tells_of_quiet (h : c.quiet) : c.tells = false := by cases c <;> first | rfl | cases h

lemma writes_of_quiet (h : c.quiet) : Writes s t c w := by cases c <;> first | trivial | cases h

lemma log_grows (hx : (machine T).exec t c w r w') : ∀ e ∈ w.log, e ∈ w'.log := by
  intro e he
  rcases exec_log hx with hl | ⟨e', hl, -⟩
  · rwa [hl]
  · rw [hl]
    exact mem_append_left _ he

lemma Fine.mono {swap : Copy} (h : Fine s t w swap) (hg : Grown t w w') : Fine s t w' swap := by
  refine ⟨?_, ?_⟩
  · rcases h.status with hs | hk | he | hf
    · exact .inl hs
    · exact .inr (.inl hk)
    · exact .inr (.inr (.inl (hg.log _ he)))
    · exact .inr (.inr (.inr (hg.failing.trans hf)))
  · rcases h.claim with hs | ⟨txid, hc, hsa, hst⟩
    · exact .inl hs
    · exact .inr ⟨txid, hc, hg.log _ hsa, hst⟩

lemma write_claim (swap : Copy) (row : BoltzSwap) :
    (swap.write row).claimTxid = row.claimTxid ∧ swap.current.claimTxid = swap.stored.claimTxid ∨
      (swap.write row).claimTxid = swap.current.claimTxid ∧ swap.current.claimTxid ≠ swap.stored.claimTxid := by
  by_cases hs : swap.current.claimTxid = swap.stored.claimTxid
  · exact .inl ⟨if_pos hs, hs⟩
  · exact .inr ⟨if_neg hs, hs⟩

/-- A claim that is recorded has been made, and the row is not written off. -/
def Backed (s : SwapId) (w : World T) (row : BoltzSwap) : Prop :=
  ∀ txid, row.claimTxid = some txid → w.Claimed s txid ∧ row.status.lost = false

lemma Kept.write {swap : Copy} (h : Kept s w) (hsw : Fine s t w swap) (hr : Backed s w row) :
    Backed s w (swap.write row) := by
  intro txid hc
  rcases write_claim swap row with ⟨hke, -⟩ | ⟨hw, hne⟩
  · obtain ⟨hsa, hl⟩ := hr txid (hke.symm.trans hc)
    refine ⟨hsa, ?_⟩
    rcases write_status swap row with ⟨ho, -⟩ | ⟨hn, hs⟩
    · rwa [ho]
    rw [hn]
    -- with a claim said, the swap has not ended and no payment is known to have failed
    rcases hsw.status with hsame | hk | he | hf
    · exact (hs hsame).elim
    · exact hk
    · exact ((h.ended he).2 txid hsa).elim
    · exact ((h.failing t hf).2 txid hsa).elim
  · obtain ⟨txid', hn, hsa, hs, hl⟩ := hsw.claim.resolve_left hne
    cases (hw.trans hn).symm.trans hc
    exact ⟨hsa, (congrArg SwapStatus.lost (if_neg hs)).trans hl⟩

lemma Kept.next (h : Kept s w) (said : Option Event) (hlo : w'.log = w.log ++ said.toList) (hf : ∀ e ∈ said, Fits s w e)
    (hfa : ∀ u, w'.failing u = some s → w.failing u = some s ∨ .paymentFailed s ∈ said)
    (hr : ∀ row, w'.swaps s = some row → Backed s w row) : Kept s w' := by
  have hm : ∀ e, e ∈ w'.log ↔ e ∈ w.log ∨ e ∈ said := by
    intro e
    rw [hlo, mem_append, mem_toList]
    rfl
  have hcl : ∀ txid, w'.Claimed s txid → w.Claimed s txid ∨ .claimed s txid ∈ said := fun txid => (hm _).1
  refine ⟨?_, ?_, ?_, ?_⟩
  · intro row hro txid hc
    obtain ⟨hsa, hl⟩ := hr row hro txid hc
    exact ⟨(hm _).2 (.inl hsa), hl⟩
  · intro he
    constructor
    · rintro ⟨invoice, hi⟩
      rcases (hm _).1 he with he | he
      · rcases (hm _).1 hi with hs | hs
        · exact (h.ended he).1 ⟨invoice, hs⟩
        · exact hf _ hs rfl he
      · rcases (hm _).1 hi with hs | hs
        · exact (hf _ he rfl).1 ⟨invoice, hs⟩
        · cases mem_unique he hs
    · intro txid hc
      rcases (hm _).1 he with he | he
      · rcases hcl txid hc with hc | hc
        · exact (h.ended he).2 txid hc
        · exact (hf _ hc rfl).1 he
      · rcases hcl txid hc with hc | hc
        · exact (hf _ he rfl).2 txid hc
        · cases mem_unique he hc
  · intro u hu
    rcases hfa u hu with ho | hne
    · obtain ⟨hfailed, hn⟩ := h.failing u ho
      refine ⟨(hm _).2 (.inl hfailed), fun txid hc => ?_⟩
      rcases hcl txid hc with hc | hc
      · exact hn txid hc
      · exact (hf _ hc rfl).2.1 u ho
    · refine ⟨(hm _).2 (.inr hne), fun txid hc => ?_⟩
      rcases hcl txid hc with hc | hc
      · exact hf _ hne rfl txid hc
      · cases mem_unique hne hc
  · intro txid txid' hc hc'
    rcases hcl txid hc with hc | hc
    · rcases hcl txid' hc' with hc' | hc'
      · exact h.one txid txid' hc hc'
      · exact (hf _ hc' rfl).2.2 txid hc
    · rcases hcl txid' hc' with hc' | hc'
      · exact ((hf _ hc rfl).2.2 txid' hc').symm
      · cases mem_unique hc hc'
        rfl

lemma Kept.of_log (h : Kept s w) (hl : w'.log = w.log) (hf : ∀ u, w'.failing u = some s → w.failing u = some s)
    (hr : ∀ row, w'.swaps s = some row → Backed s w row) : Kept s w' :=
  h.next none (hl.trans (append_nil _).symm) (fun _ he => by cases he) (fun u hu => .inl (hf u hu)) hr

lemma committed_failing (swaps : List Copy) (session : Option SessionCopy) {u : T}
    (hu : ((w.write swaps session).committed t).failing u = some id) : u ≠ t ∧ w.failing u = some id := by
  have hs : ((w.write swaps session).committed t).failing t = none := update_self ..
  have hne : u ≠ t := by
    rintro rfl
    cases hs.symm.trans hu
  have ho : ((w.write swaps session).committed t).failing u = (w.write swaps session).failing u :=
    update_of_ne hne ..
  rw [ho, World.write_failing] at hu
  exact ⟨hne, hu⟩

lemma Kept.commit (h : Kept s w) {swaps : List Copy} {session : Option SessionCopy}
    (hs : ∀ swap ∈ swaps, swap.id = s → Fine s t w swap) : Kept s ((w.write swaps session).committed t) := by
  have hr : ∀ row, (swaps.foldl World.writeSwap w).swaps s = some row → Backed s w row :=
    World.foldl_writeSwap_induction (fun swap hm hid row => h.write (hs swap hm hid)) h.recorded
  refine h.of_log (w.write_log swaps session) (fun u hu => (committed_failing swaps session hu).2) fun row hro => ?_
  exact hr row ((congrFun (w.write_swaps swaps session) s).symm.trans hro)

lemma Kept.frame (h : Kept s w) (hx : (orderly T s).exec t c w r w') (hs : w'.swaps = w.swaps)
    (hf : ∀ u, w'.failing u = some s → w.failing u = some s ∨ w'.log = w.log ++ [.paymentFailed s]) : Kept s w' := by
  obtain ⟨hfi, hx⟩ := hx
  rcases exec_log hx with hlo | ⟨e, hlo, -⟩
  · refine h.of_log hlo (fun u hu => (hf u hu).resolve_right fun hsa => ?_) (hs ▸ h.recorded)
    have hl := congrArg List.length (hlo.symm.trans hsa)
    simp at hl
  · refine h.next (some e) hlo (fun _ he => some.inj he ▸ hfi e hlo) (fun u hu => ?_) (hs ▸ h.recorded)
    refine (hf u hu).imp_right fun hsa => congrArg some ?_
    exact singleton_inj.1 (append_cancel_left (hlo.symm.trans hsa))

end Steps

/-- Funds are kept if what is said comes in order. -/
def kept (T : Type) [DecidableEq T] (s : SwapId) : Protocol (orderly T s) where
  inv := Kept s
  pre := Writes s
  rely := Grown
  exec := by
    intro t c w w' r hi hpre hx
    have hlog := log_grows hx.2
    by_cases htells : c.tells = false
    · have hfailing := exec_failing htells hx.2
      refine ⟨?_, fun u _ => ⟨hlog, congrFun hfailing u⟩⟩
      have hswaps : w'.swaps = w.swaps := by
        cases exec_effect hx.2 with
        | commits => cases htells
        | inserts => exact hpre.elim
        | _ => rfl
      exact hi.frame hx hswaps fun u hu => .inl (congrFun hfailing u ▸ hu)
    · cases c with
      | commit swaps session =>
        rcases hx.2 with ⟨rfl, -⟩ | ⟨-, rfl⟩
        · refine ⟨hi.commit hpre, fun u hu => ⟨hlog, ?_⟩⟩
          exact (Function.update_of_ne hu ..).trans (congrFun (w.write_failing swaps session) u)
        · exact ⟨hi, fun u _ => ⟨hlog, rfl⟩⟩
      | close =>
        obtain ⟨-, rfl⟩ := hx.2
        have hother : ∀ u, u ≠ t → (w.close t).failing u = w.failing u := fun u hu => Function.update_of_ne hu ..
        refine ⟨hi.of_log rfl (fun u hu => ?_) hi.recorded, fun u hu => ⟨hlog, hother u hu⟩⟩
        have hself : (w.close t).failing t = none := Function.update_self ..
        have hne : u ≠ t := by
          rintro rfl
          cases hself.symm.trans hu
        exact (hother u hne).symm.trans hu
      | paymentResult id =>
        have hw : w' = if failedPayment r then w.tell t id else w := hx.2
        split at hw
        · subst hw
          have hother : ∀ u, u ≠ t → (w.tell t id).failing u = w.failing u := fun u hu => Function.update_of_ne hu ..
          refine ⟨hi.frame hx rfl fun u hu => ?_, fun u hu => ⟨hlog, hother u hu⟩⟩
          by_cases hut : u = t
          · subst hut
            have hself : (w.tell u id).failing u = some id := Function.update_self ..
            cases hself.symm.trans hu
            exact .inr rfl
          · exact .inl ((hother u hut).symm.trans hu)
        · subst hw
          exact ⟨hi, fun u _ => ⟨hlog, rfl⟩⟩
      | _ => exact (htells rfl).elim
  env := by
    rintro w w' - ⟨-, hfalse⟩
    exact hfalse.elim

/-! ## What a task learns -/

def Learned {T : Type} (s : SwapId) (c : Command) (r : Except Raised (Reply c)) (w : World T) : Prop :=
  match c with
  | .selectPending => ∀ rows, r = .ok rows → ∀ p ∈ rows, p.2.status.terminal = false
  | .selectClaimTxid id _ => id = s → ∀ txid, r = .ok (some txid) → w.Claimed s txid
  | .getSwapStatus id _ => id = s → endReport r = true → w.Ended s
  | .retry message => message.swapId = s → r = .ok false → w.Ended s
  | .cooperativeClaim id _ _ => id = s → ∀ txid, claimOf r = some txid → w.Claimed s txid
  | .unilateralClaim id _ _ => id = s → ∀ txid, claimOf r = some txid → w.Claimed s txid
  | .listUnspent id address => id = s → ∀ txid, walletClaim address r = some txid → w.Claimed s txid
  | _ => True

section Rules

variable {s : SwapId} {t : T} {w w' : World T}

lemma claimed_of_elim {claim : Option String} (hw : w' = claim.elim w fun txid => w.record (.claimed id txid))
    (hid : id = s) (hc : claim = some txid) : w'.Claimed s txid := by
  subst hid hc hw
  exact mem_append_right _ (mem_singleton_self _)

lemma pending_not_terminal {status : SwapStatus} (h : status.pending = true) : status.terminal = false := by
  cases status with
  | completed | failed | cancelled | refunded => cases h
  | _ => rfl

variable {r : Except Raised (Reply c)}

lemma exec_learned (hi : Kept s w) (hx : (machine T).exec t c w r w') : Learned s c r w' := by
  cases c with
  | selectPending =>
    rintro rows rfl p hm
    rcases hx with ⟨rows', hr, -, hro, -⟩ | ⟨⟨e, he⟩, -⟩
    · cases hr
      exact pending_not_terminal ((hro p.1 p.2).1 hm).2
    · cases he
  | selectClaimTxid id forUpdate =>
    rintro rfl txid rfl
    rcases hx with ⟨hre, rfl⟩ | ⟨⟨e, he⟩, -⟩
    · obtain ⟨row, hrow, hc⟩ := bind_eq_some_iff.1 (ok.inj hre).symm
      exact (hi.recorded row hrow txid hc).1
    · cases he
  | getSwapStatus id boltzSwapId =>
    rintro rfl hen
    have hw : w' = if endReport r then w.record (.ended id) else w := hx
    rw [if_pos hen] at hw
    subst hw
    exact mem_append_right _ (mem_singleton_self _)
  | retry message =>
    rintro rfl hf
    obtain ⟨hr, hw⟩ := hx
    have hma : ¬ message.retries < MAX_RETRIES := of_decide_eq_false (ok.inj (hr.symm.trans hf))
    rw [if_neg hma] at hw
    subst hw
    exact mem_append_right _ (mem_singleton_self _)
  | cooperativeClaim id swap lockupHex | unilateralClaim id swap lockupHex | listUnspent id address =>
    exact fun hid txid hc => claimed_of_elim hx hid hc
  | _ => trivial

lemma Learned.mono (h : Learned s c r w) (hl : ∀ e ∈ w.log, e ∈ w'.log) : Learned s c r w' := by
  cases c with
  | selectPending => exact h
  | selectClaimTxid id forUpdate | cooperativeClaim id swap lockupHex | unilateralClaim id swap lockupHex
  | listUnspent id address => exact fun hid txid hr => hl _ (h hid txid hr)
  | getSwapStatus id boltzSwapId | retry message => exact fun hid hr => hl _ (h hid hr)
  | _ => trivial

/-- What holds for a task as long as others run and it asks. -/
def Lasts (t : T) (A : World T → Prop) : Prop := ∀ w w', Grown t w w' → A w → A w'

variable {A : World T → Prop}

lemma Lasts.stable (hA : Lasts t A) : (kept T s).Stable t A := fun w w' _ _ hg ha => hA w w' hg ha

lemma Lasts.and {B : World T → Prop} (hA : Lasts t A) (hB : Lasts t B) : Lasts t fun w => A w ∧ B w :=
  fun w w' hg h => ⟨hA w w' hg h.1, hB w w' hg h.2⟩

def Held (s : SwapId) (t : T) (copies : List Copy) (w : World T) : Prop := ∀ swap ∈ copies, swap.id = s → Fine s t w swap

lemma lasts_held (copies : List Copy) : Lasts t (Held s t copies) :=
  fun _ _ hg h swap hm hid => (h swap hm hid).mono hg

lemma lasts_learned (r : Except Raised (Reply c)) : Lasts t (Learned s c r) :=
  fun _ _ hg h => h.mono hg.log

lemma ask_safe (hA : Lasts t A) (hc : c.quiet) :
    (kept T s).Safe t (fun r w => A w ∧ Learned s c r w) (call c) A := by
  refine .call (fun r => (hA.and (lasts_learned r)).stable) fun w r w' hi ha hx => ⟨writes_of_quiet hc, fun _ => ?_⟩
  have hg : Grown t w w' := ⟨log_grows hx.2, congrFun (exec_failing (tells_of_quiet hc) hx.2) t⟩
  exact ⟨hA w w' hg ha, exec_learned hi hx.2⟩

lemma commit_kept {swaps : List Copy} (h : ∀ w, A w → Held s t swaps w) :
    (kept T s).Obeys t (call (.commit swaps none)) A :=
  .call (fun _ => .const _) fun w _ _ _ ha _ => ⟨h w ha, fun _ => trivial⟩

end Rules

/-! ## Copies -/

/-- A copy as it was read or saved last, of a row that is not done. -/
structure Level (swap : Copy) : Prop where
  status : swap.current.status = swap.stored.status
  claim : swap.current.claimTxid = swap.stored.claimTxid
  nonterminal : swap.stored.status.terminal = false

/-- A copy that writes neither a claim nor the row off. -/
structure Plain (swap : Copy) : Prop where
  status : swap.current.status = swap.stored.status ∨ swap.current.status.lost = false
  claim : swap.current.claimTxid = swap.stored.claimTxid
  nonterminal : swap.stored.status.terminal = false
  claiming : swap.current.status = .claiming → swap.stored.status ≠ .claimed

section Copies

variable {s : SwapId} {t : T} {w : World T} {swap : Copy}

lemma Level.plain (h : Level swap) : Plain swap := by
  refine ⟨.inl h.status, h.claim, h.nonterminal, fun hc hcl => ?_⟩
  cases hc.symm.trans (h.status.trans hcl)

lemma level_load (h : row.status.terminal = false) : Level (.load id row) := ⟨rfl, rfl, h⟩

variable {f : BoltzSwap → BoltzSwap}

lemma Level.set (h : Level swap) (hs : (f swap.current).status = swap.current.status)
    (hc : (f swap.current).claimTxid = swap.current.claimTxid) : Level (swap.set f) :=
  ⟨hs.trans h.status, hc.trans h.claim, h.nonterminal⟩

lemma Plain.set (h : Plain swap) (hs : (f swap.current).status = swap.current.status)
    (hcl : (f swap.current).claimTxid = swap.current.claimTxid) : Plain (swap.set f) where
  status := h.status.imp hs.trans fun hl => (congrArg SwapStatus.lost hs).trans hl
  claim := hcl.trans h.claim
  nonterminal := h.nonterminal
  claiming := fun hc => h.claiming (hs.symm.trans hc)

lemma clearTransient_status (row : BoltzSwap) : row.clearTransient.status = row.status := by
  unfold BoltzSwap.clearTransient
  split <;> rfl

lemma clearTransient_claim (row : BoltzSwap) : row.clearTransient.claimTxid = row.claimTxid := by
  unfold BoltzSwap.clearTransient
  split <;> rfl

section

variable (h : Plain swap)
include h

lemma Plain.clearTransient : Plain swap.clearTransient :=
  h.set (clearTransient_status _) (clearTransient_claim _)

lemma Plain.setError (text : Option String) : Plain (swap.setError text) := h.set rfl rfl

lemma Plain.setStatus {status : SwapStatus} (hl : status.lost = false)
    (hc : status = .claiming → swap.stored.status ≠ .claimed) : Plain (swap.setStatus status) :=
  ⟨.inr hl, h.claim, h.nonterminal, hc⟩

lemma Plain.saved (ht : swap.current.status.terminal = false) : Level swap.saved :=
  ⟨rfl, rfl, ht⟩

lemma Plain.fine : Fine s t w swap := ⟨h.status.imp_right .inl, .inl h.claim⟩

omit h in
lemma Fine.setError (h : Fine s t w swap) (text : Option String) : Fine s t w (swap.setError text) := ⟨h.status, h.claim⟩

lemma Plain.lose (hr : w.Ended s ∨ w.failing t = some s) (status : SwapStatus) :
    Fine s t w (swap.setStatus status) :=
  ⟨.inr (.inr hr), .inl h.claim⟩

end

lemma fine_claim (hs : w.Claimed s txid) {status : SwapStatus} (hl : status.lost = false)
    (hne : status ≠ swap.stored.status) : Fine s t w ((swap.setClaim txid).setStatus status) :=
  ⟨.inr (.inl hl), .inr ⟨txid, rfl, hs, hne, hl⟩⟩

end Copies

/-! ## `advance_swap` -/

section Advance

variable {s : SwapId} {t : T} {A : World T → Prop} {swap : Copy} {unsaved : List Copy}

/-- The copies that a call of `advance_swap` leaves to its session. -/
def Left (s : SwapId) (t : T) (advanced : Advanced) : World T → Prop := Held s t (advanced.unsaved ++ [advanced.swap])

lemma held_append {w : World T} (hu : Held s t unsaved w) (hs : swap.id = s → Fine s t w swap) :
    Held s t (unsaved ++ [swap]) w := by
  intro other hm
  rcases mem_append.1 hm with hm | hm
  · exact hu other hm
  · rw [mem_singleton.1 hm]
    exact hs

lemma held_nil {w : World T} (hs : swap.id = s → Fine s t w swap) : Held s t ([] ++ [swap]) w :=
  held_append (fun _ hm => (not_mem_nil hm).elim) hs

/-- A call of `advance_swap` from a state with `A`. -/
abbrev Advances (s : SwapId) (t : T) (p : Code Advanced) (A : World T → Prop) : Prop :=
  (kept T s).Safe t (IfReturns (Left s t)) p A

lemma perform_kept {next : Reply c → Code Advanced} (hc : c.quiet) (hA : Lasts t A) (hp : Plain swap)
    (hh : ∀ w, A w → Held s t unsaved w)
    (hn : ∀ answer, Advances s t (next answer) fun w => A w ∧ Learned s c (.ok answer) w) :
    Advances s t (perform swap unsaved c next) A := by
  refine (ask_safe hA hc).attempt.seq fun r => ?_
  cases r with
  | ok answer => exact hn answer
  | error e => exact fun w _ h => held_append (hh w h.1) fun _ => hp.fine

lemma save_kept (h : ∀ w, A w → Held s t (unsaved ++ [swap]) w) (error : Option String) :
    Advances s t (save swap unsaved error) A := by
  refine (commit_kept h).attempt.seq fun r => ?_
  cases r with
  | ok _ | error e => exact fun _ _ _ => held_nil fun _ => ⟨.inl rfl, .inl rfl⟩

lemma savePlain_kept (hh : ∀ w, A w → Held s t unsaved w) (hp : Plain swap) (error : Option String) :
    Advances s t (save swap unsaved error) A :=
  save_kept (fun w ha => held_append (hh w ha) fun _ => hp.fine) error

lemma backfill_kept (hA : Lasts t A) (hp : Plain swap) (hd : swap.current.status = .completed) :
    (kept T s).Safe t (IfReturns fun copy w => A w ∧ (copy.id = s → Fine s t w copy)) (backfillClaimTxidFromWallet swap) A := by
  unfold backfillClaimTxidFromWallet
  split
  case isTrue => exact fun w _ ha => ⟨ha, fun _ => hp.fine⟩
  refine (ask_safe hA (by rfl)).attempt.seq fun r => ?_
  rcases r with _ | (_ | utxos)
  · exact fun w _ h => ⟨h.1, fun _ => hp.fine⟩
  · exact fun w _ h => ⟨h.1, fun _ => hp.fine⟩
  dsimp only
  cases htx : txidAt swap.current.destinationAddress utxos with
  | none => exact fun w _ h => ⟨h.1, fun _ => hp.fine⟩
  | some txid =>
    intro w _ h
    refine ⟨h.1, fun hid => ?_⟩
    have hl : swap.current.status.lost = false := by rw [hd]; rfl
    have hne : swap.current.status ≠ swap.stored.status := by
      intro heq
      have ht := hp.nonterminal
      rw [← heq, hd] at ht
      cases ht
    exact ⟨.inr (.inl hl), .inr ⟨txid, rfl, h.2 hid txid htx, hne, hl⟩⟩

lemma verifyLockup_plain (φ : Command → Prop) (hφ : ∀ txid, φ (.optionalVerifyTx txid)) (hp : Plain swap)
    (transactionId : Option String) : (verifyLockup swap transactionId).Within φ fun p =>
      Plain p.1 ∧ p.1.current.status = swap.current.status := by
  cases transactionId with
  | none => exact ⟨hp, rfl⟩
  | some lockupId =>
    unfold verifyLockup
    dsimp only
    split
    case isFalse => exact ⟨hp, rfl⟩
    have hs : Plain (swap.set fun row => { row with lockupTxid := some (row.lockupTxid.getD lockupId) }) :=
      hp.set rfl rfl
    refine ⟨hφ _, fun r => ?_⟩
    rcases r with _ | (_ | outputs) <;> exact ⟨hs, rfl⟩

lemma follow_kept {existing : String} (hh : ∀ w, A w → Held s t unsaved w)
    (hs : ∀ w, A w → swap.id = s → w.Claimed s existing) (hne : .claimed ≠ swap.stored.status) :
    Advances s t (follow swap unsaved existing) A :=
  fun w _ ha => held_append (hh w ha) fun hid => fine_claim (hs w ha hid) rfl hne

lemma claimLockup_kept (hp : Plain swap) (hc : swap.current.status = .claiming) :
    Advances s t (claimLockup swap unsaved) (Held s t unsaved) := by
  have hne : .claimed ≠ swap.stored.status := (hp.claiming hc).symm
  refine perform_kept (by rfl) (lasts_held unsaved) hp (fun _ h => h) fun lockup => ?_
  cases lockup with
  | error err => exact savePlain_kept (fun _ h => h.1) hp _
  | ok lockupHex =>
    refine perform_kept (by rfl) ((lasts_held unsaved).and (lasts_learned _)) hp (fun _ h => h.1) fun existing => ?_
    cases existing with
    | some existing => exact follow_kept (fun _ h => h.1.1) (fun _ h hid => h.2 hid existing rfl) hne
    | none =>
      refine (perform_kept (by rfl) (lasts_held unsaved) hp (fun _ h => h) fun answer => ?_).weaken fun _ _ h => h.1.1
      cases answer with
      | error err => exact savePlain_kept (fun _ h => h.1) (hp.set rfl rfl) _
      | ok txid =>
        refine perform_kept (by rfl) ((lasts_held unsaved).and (lasts_learned _)) hp (fun _ h => h.1) fun existing => ?_
        cases existing with
        | some existing => exact follow_kept (fun _ h => h.1.1) (fun _ h hid => h.2 hid existing rfl) hne
        | none =>
          refine save_kept (fun w h => held_append h.1.1 fun hid => fine_claim ?_ rfl hne) _
          exact h.1.2 hid txid rfl

lemma advanceLockup_kept (hl : Level swap) (report : Report) :
    Advances s t (advanceLockup swap unsaved report) (Held s t unsaved) := by
  have hm : Plain (if swap.current.status ∈ [SwapStatus.invoicePaid, .payingInvoice, .created] then
      swap.clearTransient.setStatus .claiming else swap) := by
    split
    case isTrue hme =>
      refine hl.plain.clearTransient.setStatus rfl fun _ hcl => ?_
      have hs : swap.current.status = .claimed := hl.status.trans hcl
      rw [hs] at hme
      exact absurd hme (by decide)
    case isFalse => exact hl.plain
  have hv := verifyLockup_plain (fun c => c.quiet) (fun _ => rfl) hm report.transactionId
  have hsa := Protocol.Safe.within (P := kept T s) (K := Held s t unsaved) hv (lasts_held unsaved).stable
    fun c w r w' hc _ hh hx =>
      ⟨writes_of_quiet hc, fun _ => lasts_held unsaved w w' ⟨log_grows hx.2, congrFun (exec_failing (tells_of_quiet hc) hx.2) t⟩ hh⟩
  refine hsa.ifReturns fun ⟨copy, mismatch⟩ => ?_
  refine .and fun ⟨hp, _⟩ => ?_
  dsimp only
  split
  · exact savePlain_kept (fun _ h => h) (hp.setError _) _
  · split
    case isTrue hclaim => exact claimLockup_kept hp hclaim.1
    case isFalse => exact savePlain_kept (fun _ h => h) hp _

lemma advanceClaimed_kept (hl : Level swap) (txid : String) :
    Advances s t (advanceClaimed swap unsaved txid) (Held s t unsaved) := by
  refine (ask_safe (lasts_held unsaved) (by rfl)).attempt.seq fun r => ?_
  rcases r with _ | (_ | confirmations)
  · exact savePlain_kept (fun _ h => h.1) hl.plain _
  · exact savePlain_kept (fun _ h => h.1) hl.plain _
  refine savePlain_kept (fun _ h => h.1) ?_ _
  split
  · exact hl.plain.setStatus rfl fun h => by cases h
  · exact hl.plain

lemma endReport_of_mem {report : Report} (h : report.status ∈ endReports.map some) : endReport (.ok (.ok report)) = true := by
  obtain ⟨text, hm, ht⟩ := mem_map.1 h
  have hr : endReport (.ok (.ok report)) = report.status.any (· ∈ endReports) := rfl
  rw [hr, ← ht]
  exact decide_eq_true hm

lemma advanceOn_kept (hl : Level swap) (report : Report) : Advances s t (advanceOn swap unsaved report) fun w =>
      Held s t unsaved w ∧ (swap.id = s → report.status ∈ endReports.map some → w.Ended s) := by
  unfold advanceOn
  split
  case isTrue he =>
    refine save_kept (fun w h => held_append h.1 fun hid => ?_) _
    refine (hl.plain.lose (.inl (h.2 hid ?_)) .failed).setError _
    rcases mem_cons.1 he with h | h
    · rw [h]; decide
    · rcases mem_cons.1 h with h | h
      · rw [h]; decide
      · rw [mem_singleton.1 h]; decide
  split
  case isTrue he =>
    refine save_kept (fun w h => held_append h.1 fun hid => ?_) _
    refine (hl.plain.lose (.inl (h.2 hid ?_)) .refunded).setError _
    rw [he]
    decide
  split
  case isTrue =>
    have hd : Plain (swap.clearTransient.setStatus .completed) :=
      hl.plain.clearTransient.setStatus rfl fun h => by cases h
    refine (backfill_kept (lasts_held unsaved) hd rfl).ifReturns (fun copy => ?_) |>.weaken fun _ _ h => h.1
    exact save_kept (fun w h => held_append h.1 h.2) _
  split
  · exact (advanceClaimed_kept hl _).weaken fun _ _ h => h.1
  · split
    · exact (advanceLockup_kept hl report).weaken fun _ _ h => h.1
    · exact savePlain_kept (fun _ h => h.1) hl.plain _

lemma advanceSwap_kept (hl : Level swap) : Advances s t (advanceSwap swap unsaved) (Held s t unsaved) := by
  refine perform_kept (by rfl) (lasts_held unsaved) hl.plain (fun _ h => h) fun answer => ?_
  cases answer with
  | error err => exact fun w _ h => held_append h.1 fun _ => hl.plain.fine
  | ok report =>
    have hs : Level (swap.set fun row => { row with boltzStatus := report.status }) := hl.set rfl rfl
    exact (advanceOn_kept hs report).weaken fun w _ h => ⟨h.1, fun hid he => h.2 hid (endReport_of_mem he)⟩

end Advance

/-! ## The tasks -/

section Tasks

variable {s : SwapId} {t : T} {swap : Copy} {settings : Settings}

lemma lasts_true : Lasts t fun _ : World T => True := fun _ _ _ h => h

lemma commitOne_kept {A : World T → Prop} (h : ∀ w, A w → swap.id = s → Fine s t w swap) :
    (kept T s).Obeys t (call (.commit [swap] none)) A :=
  commit_kept fun w ha => held_nil (h w ha)

lemma commitPlain_kept {A : World T → Prop} (hp : Plain swap) :
    (kept T s).Obeys t (call (.commit [swap] none)) A :=
  commitOne_kept fun _ _ _ => hp.fine

def GoesOn (copy : Copy) (_ : World T) : Prop := Level copy

lemma shouldPay_kept (hl : Level swap) :
    (kept T s).Safe t (IfReturns fun p => GoesOn p.1) (shouldPay settings swap) fun _ => True := by
  unfold shouldPay
  split
  case h_1 => exact fun _ _ _ => hl
  case h_3 => exact fun _ _ _ => hl
  split
  case h_1 => exact fun _ _ _ => hl
  rename_i reentryHash _
  refine (ask_safe lasts_true (by rfl)).ifReturns fun lookup => ?_
  cases lookup with
  | error _ => exact fun _ _ _ => hl
  | ok status =>
    dsimp only
    split
    · exact fun _ _ _ => hl
    split
    · have hp : Plain ((swap.set fun row => { row with lndPaymentHash := some reentryHash }).setStatus
          .invoicePaid).clearTransient :=
        ((hl.plain.set rfl rfl).setStatus rfl fun h => by cases h).clearTransient
      refine (commitPlain_kept hp).ifReturns fun _ _ _ _ => hp.saved ?_
      exact congrArg SwapStatus.terminal (clearTransient_status _)
    · exact fun _ _ _ => hl

/-- What the task does with the answer of LND. It knows of a failed payment. -/
lemma paid_kept (hl : Level swap) (answer : Except String (Option String)) :
    (kept T s).Safe t (IfReturns fun r _ => ∀ copy, r = .inr copy → Level copy) (paid settings swap answer) fun w =>
      failedPayment (.ok answer) = true → w.failing t = some swap.id := by
  cases answer with
  | error payError =>
    unfold paid
    dsimp only
    split
    case isTrue hd =>
      have hlo : ∀ w : World T, (failedPayment (.ok (.error payError)) = true → w.failing t = some swap.id) → swap.id = s →
          Fine s t w ((swap.setStatus .failed).setError (some ("Invoice payment failed: " ++ payError))) :=
        fun w h hid => (hl.plain.lose (.inr (hid ▸ h hd)) .failed).setError _
      refine (commitOne_kept hlo).ifReturns fun _ _ _ _ copy hc => ?_
      cases hc
    have ha : Level ((swap.set fun row => { row with
        lndPaymentHash := swap.current.boltzInvoice.bind settings.paymentHashFromBolt11 <|> row.lndPaymentHash }).setError
          (some (retriedText (swap.current.boltzInvoice.bind settings.paymentHashFromBolt11)))) :=
      ⟨hl.status, hl.claim, hl.nonterminal⟩
    refine (commitPlain_kept ha.plain).ifReturns fun _ _ _ _ copy hc => ?_
    cases hc
    refine ha.plain.saved ?_
    rw [ha.status]
    exact ha.nonterminal
  | ok paymentHash =>
    have hp : Plain ((swap.setStatus .invoicePaid).clearTransient.set fun row =>
        { row with lndPaymentHash := paymentHash <|> row.lndPaymentHash }) :=
      (hl.plain.setStatus rfl fun h => by cases h).clearTransient.set rfl rfl
    refine (commitPlain_kept hp).ifReturns fun _ _ _ _ copy hc => ?_
    cases hc
    exact hp.saved (congrArg SwapStatus.terminal (clearTransient_status _))

lemma paymentResult_kept (id : SwapId) :
    (kept T s).Safe t (fun r w => failedPayment r = true → w.failing t = some id) (call (.paymentResult id)) fun _ => True := by
  refine .call (fun r w w' _ _ hg h hf => hg.failing.trans (h hf))
    fun w r w' _ _ hx => ⟨trivial, fun _ hf => ?_⟩
  have hw : w' = if failedPayment r then w.tell t id else w := hx.2
  rw [if_pos hf] at hw
  subst hw
  exact update_self ..

lemma payInvoice_kept (hl : Level swap) (percent : ℚ) :
    (kept T s).Safe t (IfReturns fun r _ => ∀ copy, r = .inr copy → Level copy) (payInvoice settings swap percent)
      fun _ => True := by
  have hp : Plain (swap.setStatus .payingInvoice) := hl.plain.setStatus rfl fun h => by cases h
  have hs : Level (swap.setStatus .payingInvoice).saved := hp.saved rfl
  refine (commitPlain_kept hp).ifReturns fun _ => ?_
  dsimp only
  split
  · exact fun _ _ _ => trivial
  · refine (ask_safe lasts_true (by rfl)).ifReturns fun _ => ?_
    refine ((paymentResult_kept _).ifReturns fun answer => paid_kept hs answer).weaken fun _ _ _ => trivial

lemma advanceResult_kept (hl : Level swap) : (kept T s).Obeys t (advanceResult swap) := by
  have hn : ∀ w : World T, Held s t [] w := fun _ _ hm => (not_mem_nil hm).elim
  refine ((advanceSwap_kept hl).andThen fun advanced => ?_).weaken fun w _ _ => hn w
  split <;> exact fun _ _ _ => trivial

lemma processCopy_kept (hl : Level swap) (percent : ℚ) : (kept T s).Obeys t (processCopy settings swap percent) := by
  refine (shouldPay_kept hl).andThen fun ⟨copy, pay⟩ => ?_
  refine .known fun hc : Level copy => ?_
  dsimp only
  split
  · refine (payInvoice_kept hc percent).andThen fun r => ?_
    refine .known fun hr : ∀ copy, r = .inr copy → Level copy => ?_
    cases r with
    | inl result => exact fun _ _ _ => trivial
    | inr copy => exact advanceResult_kept (hr copy rfl)
  · exact advanceResult_kept hc

lemma closeKept_safe : (kept T s).Safe t (Returns fun _ _ => True) (call .close) fun _ => True :=
  .answered (fun _ => .const _) fun _ _ _ _ _ hx => ⟨trivial, (), hx.2.1, fun _ => trivial⟩

lemma runProcessSwap_kept (id : SwapId) (percent : ℚ) : (kept T s).Obeys t (runProcessSwap settings id percent) := by
  have hr : (kept T s).Obeys t (processRow settings id percent) := by
    refine (ask_safe lasts_true (by rfl)).andThen fun row => ?_
    cases row with
    | none => exact .ret
    | some row =>
      dsimp only
      split
      case isTrue => exact .ret
      case isFalse ho =>
        exact (processCopy_kept (level_load (eq_false_iff.2 ho)) percent).anywhere
  exact .tryFinally (hr.tryExcept (fun _ _ _ _ => trivial) fun _ _ _ _ => trivial) fun _ => closeKept_safe

/-- A task gives the row up once the swap has ended. -/
lemma markSwapFailed_kept (id : SwapId) (text : String) :
    (kept T s).Obeys t (markSwapFailed id text) fun w => id = s → w.Ended s := by
  have he : Lasts t fun w : World T => id = s → w.Ended s := fun w w' hg h hid => hg.log _ (h hid)
  have hr : (kept T s).Obeys t (markRow id text) fun w => id = s → w.Ended s := by
    refine (ask_safe he (by rfl)).andThen fun row => ?_
    cases row with
    | none => exact .ret
    | some row =>
      dsimp only
      split
      · exact .ret
      · exact commitOne_kept fun w h hid => ⟨.inr (.inr (.inl (h.1 hid))), .inl rfl⟩
  exact .tryFinally hr fun _ => closeKept_safe

lemma processBoltzSwap_kept (message : Message) : (kept T s).Obeys t (processBoltzSwap settings message) := by
  refine (runProcessSwap_kept message.swapId _).andThen fun result => ?_
  split
  · exact .ret
  refine (ask_safe (c := .retry message) lasts_true rfl).andThen fun again => ?_
  cases again with
  | true => exact .ret
  | false =>
    have hm : (kept T s).Obeys t (markSwapFailed message.swapId "Max retries exceeded") fun w =>
        True ∧ Learned s (.retry message) (.ok false) w :=
      (markSwapFailed_kept message.swapId _).weaken fun w _ h hid => h.2 hid rfl
    exact hm.attempt.seq fun _ => Protocol.Obeys.ret

lemma recoverEach_kept (unsaved : List Copy) (rows : List (SwapId × BoltzSwap))
    (hr : ∀ p ∈ rows, p.2.status.terminal = false) :
    (kept T s).Obeys t (recoverEach unsaved rows) (Held s t unsaved) := by
  induction rows generalizing unsaved with
  | nil => exact .ret
  | cons entry rows ih =>
    obtain ⟨id, row⟩ := entry
    have hre := fun unsaved => ih unsaved fun p hm => hr p (mem_cons_of_mem _ hm)
    unfold recoverEach
    split
    · refine (ask_safe (lasts_held unsaved) (by rfl)).attempt.seq fun queued => ?_
      exact ((hre unsaved).weaken fun w _ h => h.1).andThen fun _ => .ret
    · have hl : Level (.load id row) := level_load (hr (id, row) mem_cons_self)
      refine (advanceSwap_kept hl).andThen fun advanced => ?_
      exact (hre _).andThen fun _ => .ret

lemma runRecoverSwaps_kept : (kept T s).Obeys t runRecoverSwaps := by
  have hr : (kept T s).Obeys t recoverPendingSwaps := by
    refine (ask_safe lasts_true (by rfl)).andThen fun rows => ?_
    refine (Protocol.Safe.and fun hro => recoverEach_kept [] rows hro).weaken fun w _ h => ⟨h.2 rows rfl, ?_⟩
    exact fun _ hm => (not_mem_nil hm).elim
  exact .tryFinally (hr.tryExcept (fun _ _ _ _ => trivial) fun _ _ _ _ => trivial) fun _ => closeKept_safe

lemma claimAgain_kept {claim : Code (Except String String)} (hl : Level swap) (hne : .claimed ≠ swap.stored.status)
    (hc : (kept T s).Safe t (fun r w => swap.id = s → ∀ txid, claimOf r = some txid → w.Claimed s txid) claim
      fun _ => True) : (kept T s).Obeys t (claimAgain swap claim) := by
  refine (ask_safe lasts_true (by rfl)).andThen fun existing => ?_
  cases existing with
  | some existing =>
    exact (commitOne_kept fun w h hid => fine_claim (h.2 hid existing rfl) rfl hne).andThen fun _ => .ret
  | none =>
    refine (hc.andThen fun answer => ?_).anywhere
    cases answer with
    | error err =>
      have hb : Plain (swap.bumpRecovery.setError (some err)) :=
        ⟨.inl hl.status, hl.claim, hl.nonterminal, hl.plain.claiming⟩
      exact (commitPlain_kept hb).andThen fun _ => .ret
    | ok txid =>
      have hm : Lasts t fun w : World T => swap.id = s → ∀ txid', claimOf (.ok (.ok txid)) = some txid' → w.Claimed s txid' :=
        fun w w' hg h hid txid' ht => hg.log _ (h hid txid' ht)
      refine (ask_safe hm (by rfl)).andThen fun existing => ?_
      refine (commitOne_kept fun w h hid => (fine_claim ?_ rfl hne).setError _).andThen fun _ => .ret
      cases existing with
      | some existing => exact h.2 hid existing rfl
      | none => exact h.1 hid txid rfl

lemma retryCooperativeClaim_kept : (kept T s).Obeys t (retryCooperativeClaim (.load id row)) := by
  unfold retryCooperativeClaim
  split
  · exact .ret
  split
  case isTrue => exact .ret
  rename_i hc
  have hs : row.status = .claiming := not_not.1 hc
  refine (ask_safe lasts_true (by rfl)).andThen fun lockup => ?_
  rcases lockup with err | (_ | lockupHex)
  · exact .ret
  · exact .ret
  have hl : Level (.load id row) := level_load (by rw [hs]; rfl)
  have hne : .claimed ≠ (Copy.load id row).stored.status := fun h => by cases h.trans hs
  refine (claimAgain_kept hl hne ?_).anywhere
  exact (ask_safe lasts_true (by rfl)).post fun _ _ _ h => h.2

lemma unilateralRefusal_none {tip : Option ℤ} (h : unilateralRefusal row tip = none) :
    row.status ∈ [SwapStatus.claiming, .invoicePaid] := by
  unfold unilateralRefusal at h
  split at h
  · cases h
  · exact not_not.1 ‹_›

lemma retryUnilateralClaim_kept (tip : Option ℤ) : (kept T s).Obeys t (retryUnilateralClaim (.load id row) tip) := by
  unfold retryUnilateralClaim
  split
  · exact .ret
  · exact .ret
  rename_i hr
  have hs : row.status ∈ [SwapStatus.claiming, .invoicePaid] := unilateralRefusal_none hr
  refine (ask_safe lasts_true (by rfl)).andThen fun lockup => ?_
  rcases lockup with err | (_ | lockupHex)
  · exact .ret
  · exact .ret
  have ho : row.status.terminal = false ∧ .claimed ≠ row.status := by
    rcases mem_cons.1 hs with h | h
    · rw [h]
      decide
    · rw [mem_singleton.1 h]
      decide
  refine (claimAgain_kept (level_load ho.1) ho.2 ?_).anywhere
  exact (ask_safe lasts_true (by rfl)).post fun _ _ _ h => h.2

lemma onRow_kept {α : Type} (reader : Reader) (id : SwapId) (missing : α) (work : Copy → Code α)
    (hw : ∀ row, (kept T s).Obeys t (work (.load id row))) : (kept T s).Obeys t (onRow reader id missing work) := by
  refine .tryFinally ?_ fun _ => closeKept_safe
  refine (ask_safe lasts_true (by rfl)).andThen fun row => ?_
  cases row with
  | none => exact .ret
  | some row => exact (hw row).anywhere

def Program.Reverse : Program → Prop
  | .worker | .sweep | .cooperativeClaim _ | .unilateralClaim _ _ => True
  | _ => False

lemma code_kept {program : Program} (h : program.Reverse) : (kept T s).Obeys t (program.code settings) := by
  cases program with
  | worker =>
    have hw : (kept T s).Obeys t (runWorker settings) :=
      (ask_safe lasts_true (by rfl)).andThen fun message => (processBoltzSwap_kept message).anywhere
    exact hw.andThen fun _ => .ret
  | sweep => exact runRecoverSwaps_kept.andThen fun _ => .ret
  | cooperativeClaim swap =>
    exact (onRow_kept _ swap _ _ fun row => retryCooperativeClaim_kept).andThen fun _ => .ret
  | unilateralClaim swap tip =>
    exact (onRow_kept _ swap _ (fun copy => retryUnilateralClaim copy tip) fun row => retryUnilateralClaim_kept tip).andThen fun _ => .ret
  | _ => exact h.elim

end Tasks

/-! ## Whole runs -/

section Runs

variable {s : SwapId} {settings : Settings} {cfg cfg' : Config T Command Reply Raised Outcome (World T)}
  {Q : T → Except Raised Outcome → World T → Prop}

structure Unstarted (s : SwapId) (w : World T) : Prop where
  row : ∃ row, w.swaps s = some row ∧ row.status = .created ∧ row.claimTxid = none
  failing : ∀ u, w.failing u ≠ some s
  ended : ¬ w.Ended s
  claimed : ∀ txid, ¬ w.Claimed s txid

lemma Unstarted.kept {w : World T} (h : Unstarted s w) : Kept s w := by
  obtain ⟨row, hr, -, hcl⟩ := h.row
  refine ⟨fun row' hr' txid ht => ?_, fun he => (h.ended he).elim, fun u hu => (h.failing u hu).elim,
    fun txid _ hc => (h.claimed txid hc).elim⟩
  cases hr.symm.trans hr'
  cases hcl.symm.trans ht

lemma claim_write {t : T} {w : World T} {swap : Copy} (h : Fine s t w swap) (hr : row.claimTxid.isSome) :
    (swap.write row).claimTxid.isSome := by
  rcases write_claim swap row with ⟨hk, -⟩ | ⟨hn, hne⟩
  · rwa [hk]
  · obtain ⟨txid, hc, -⟩ := h.claim.resolve_left hne
    rw [hn, hc]
    rfl

section

variable (hholds : (kept T s).Holds Q cfg)
include hholds

lemma swaps_of_step (hs : (orderly T s).Step cfg cfg') :
    cfg'.shared.swaps = cfg.shared.swaps ∨ ∃ t, ∃ swaps : List Copy, (∀ swap ∈ swaps, swap.id = s → Fine s t cfg.shared swap) ∧
      cfg'.shared.swaps = (swaps.foldl World.writeSwap cfg.shared).swaps := by
  cases hs with
  | env he => exact he.2.elim
  | @run t c k r w' ht hx =>
    have hp : Writes s t c cfg.shared := hholds.pre ht hx
    cases exec_effect hx.2 with
    | commits => exact .inr ⟨t, _, hp, cfg.shared.write_swaps _ _⟩
    | inserts => exact hp.elim
    | _ => exact .inl rfl

lemma claim_step (hst : (orderly T s).Step cfg cfg') (h : ∃ row, cfg.shared.swaps s = some row ∧ row.claimTxid.isSome) :
    ∃ row, cfg'.shared.swaps s = some row ∧ row.claimTxid.isSome := by
  obtain ⟨row, hr, hc⟩ := h
  rcases swaps_of_step hholds hst with hsa | ⟨t, swaps, hf, hs⟩
  · exact ⟨row, (congrFun hsa s).trans hr, hc⟩
  · rw [hs]
    exact World.foldl_writeSwap_row (p := fun row => row.claimTxid.isSome) hr hc
      fun swap hm hid row => claim_write (hf swap hm hid)

omit hholds in
lemma claimed_step (hs : (orderly T s).Step cfg cfg') (h : cfg.shared.Claimed s txid) : cfg'.shared.Claimed s txid := by
  cases hs with
  | env he => exact he.2.elim
  | run ht hx => exact log_grows hx.2 _ h

lemma claim_stays (hl : (orderly T s).Reach cfg cfg')
    (hr : cfg.shared.swaps s = some row) (hc : row.claimTxid = some txid) :
    ∃ row', cfg'.shared.swaps s = some row' ∧ row'.claimTxid = some txid ∧ row'.status.lost = false := by
  have ha : (kept T s).Holds Q cfg' ∧ cfg'.shared.Claimed s txid ∧
      ∃ row', cfg'.shared.swaps s = some row' ∧ row'.claimTxid.isSome := by
    induction hl with
    | refl => exact ⟨hholds, (hholds.1.recorded row hr txid hc).1, row, hr, hc ▸ rfl⟩
    | tail _ hst ih =>
      obtain ⟨hm, hs, hso⟩ := ih
      exact ⟨hm.step hst, claimed_step hst hs, claim_step hm hst hso⟩
  obtain ⟨he, hs, row', hr', hso⟩ := ha
  obtain ⟨txid', ht'⟩ := isSome_iff_exists.1 hso
  obtain ⟨hs', hlo⟩ := he.1.recorded row' hr' txid' ht'
  cases he.1.one txid txid' hs hs'
  exact ⟨row', hr', ht', hlo⟩

lemma failed_step (hst : (orderly T s).Step cfg cfg') (hse : cfg.shared.Sent s)
    (hb : cfg.shared.status s ≠ some .failed) (ha : cfg'.shared.status s = some .failed) :
    .paymentFailed s ∈ cfg.shared.log := by
  unfold World.status at hb ha
  rcases swaps_of_step hholds hst with hsa | ⟨t, swaps, hfi, hsw⟩
  · rw [hsa] at ha
    exact (hb ha).elim
  by_contra hn
  -- then no copy of this commit fails the row
  have hk : ∀ swap ∈ swaps, swap.id = s → ∀ row : BoltzSwap, row.status ≠ .failed → (swap.write row).status ≠ .failed := by
    intro swap hm hid row hr
    rcases write_status swap row with ⟨ho, -⟩ | ⟨hne, hs⟩
    · rwa [ho]
    rw [hne]
    intro hf
    rcases (hfi swap hm hid).status with hsa | hk | he | hfa
    · exact hs hsa
    · rw [hf] at hk
      cases hk
    · exact (hholds.1.ended he).1 hse
    · exact hn (hholds.1.failing t hfa).1
  obtain ⟨row, hr, hf⟩ := map_eq_some_iff.1 ha
  refine World.foldl_writeSwap_induction (p := fun row => row.status ≠ .failed) hk (fun row' hr' hs => ?_) row
    (hsw ▸ hr) hf
  exact hb (by rw [hr', map_some, hs])

end

/-- However the tasks that drive a reverse swap are interleaved, if what is said of
it comes in order: its recorded claim stays and its row is not written off from then
on, and once its invoice was handed to LND the row becomes FAILED only after LND
has reported the payment as failed. -/
theorem funds_are_kept {programs : T → Program} (hprograms : ∀ t, (programs t).Reverse) {start : World T}
    (hstart : Unstarted s start) (hreach : (orderly T s).Reach ⟨start, fun t => (programs t).code settings⟩ cfg) :
    (∀ row txid, cfg.shared.swaps s = some row → row.claimTxid = some txid → ∀ cfg', (orderly T s).Reach cfg cfg' →
      ∃ row', cfg'.shared.swaps s = some row' ∧ row'.claimTxid = some txid ∧ row'.status ≠ .failed ∧
        row'.status ≠ .refunded) ∧
    ∀ cfg', (orderly T s).Step cfg cfg' → cfg.shared.Sent s → cfg.shared.status s ≠ some .failed →
      cfg'.shared.status s = some .failed → .paymentFailed s ∈ cfg.shared.log := by
  have hb : (kept T s).Holds (fun _ _ _ => True) ⟨start, fun t => (programs t).code settings⟩ :=
    ⟨hstart.kept, fun t => ⟨fun _ => True, .const _, trivial, code_kept (hprograms t)⟩⟩
  have hholds := hb.reach hreach
  refine ⟨fun row txid hro hc cfg' hla => ?_, fun cfg' hs => failed_step hholds hs⟩
  obtain ⟨row', hro', hc', hl⟩ := claim_stays hholds hla hro hc
  refine ⟨row', hro', hc', fun hf => ?_, fun hr => ?_⟩
  · rw [hf] at hl
    cases hl
  · rw [hr] at hl
    cases hl

end Runs

/-! ## Funds that are not -/

lemma freshWorld_unstarted : Unstarted 0 freshWorld where
  row := ⟨freshRow, rfl, rfl, rfl⟩
  failing := fun _ h => by cases h
  ended := fun h => by cases h
  claimed := fun _ h => by cases h

variable {r : Except Raised (Reply c)}

lemma quiet_exec {s : SwapId} {t : T} {w w' : World T}
    (hx : (machine T).exec t c w r w') (h : w'.log = w.log) : (orderly T s).exec t c w r w' := by
  refine ⟨fun e he => ?_, hx⟩
  have hl := congrArg List.length (h.symm.trans he)
  simp at hl

lemma said_exec {s : SwapId} {t : T} {w w' : World T} {e : Event}
    (hx : (machine T).exec t c w r w') (h : w'.log = w.log ++ [e]) (hf : Fits s w e) :
    (orderly T s).exec t c w r w' := by
  refine ⟨fun e' he' => ?_, hx⟩
  rw [← singleton_inj.1 (append_cancel_left (h.symm.trans he'))]
  exact hf

/-- A worker pays the invoice, finds the lockup confirmed and claims it. -/
theorem funds_are_kept_claimed :
    ∃ cfg, (orderly ℕ 0).Reach ⟨freshWorld, fun _ => Program.worker.code {}⟩ cfg ∧ ∀ cfg', (orderly ℕ 0).Reach cfg cfg' →
      ∃ row, cfg'.shared.swaps 0 = some row ∧ row.claimTxid = some "c" ∧ row.status ≠ .failed ∧ row.status ≠ .refunded := by
  have h0 : (orderly ℕ 0).Reach _ ⟨freshWorld, fun _ => Program.worker.code {}⟩ := .refl
  have h1 := h0.run 0 rfl (.ok { swapId := 0 }) (quiet_exec ⟨_, mem_singleton_self _, rfl, rfl⟩ rfl)
  have h2 := h1.run 0 rfl (.ok (some freshRow)) (quiet_exec (.inl ⟨rfl, rfl⟩) rfl)
  have h3 := h2.run 0 rfl (.ok ()) (quiet_exec (.inl ⟨rfl, .inl rfl⟩) rfl)
  have h4 := h3.run 0 rfl (.ok ()) (said_exec (.inl ⟨rfl, .inl rfl⟩) rfl fun _ h => by cases h)
  have h5 := h4.run 0 rfl (.ok (.ok (some "h"))) (quiet_exec rfl rfl)
  have h6 := h5.run 0 rfl (.ok ()) (quiet_exec (.inl ⟨rfl, .inl rfl⟩) rfl)
  have h7 := h6.run 0 rfl (.ok (.ok { status := some "transaction.confirmed" })) (quiet_exec rfl rfl)
  have h8 := h7.run 0 rfl (.ok (.ok (some "hex"))) (quiet_exec rfl rfl)
  have h9 := h8.run 0 rfl (.ok none) (quiet_exec (.inl ⟨rfl, rfl⟩) rfl)
  have h10 := h9.run 0 rfl (.ok (.ok "c")) (said_exec rfl rfl ?fits)
  case fits =>
    -- the invoice was sent, and nothing else has been said
    refine fun _ => ⟨fun h => ?_, fun u => ?_, fun other h => ?_⟩
    · cases mem_singleton.1 h
    · by_cases hu : u = 0
      · subst hu
        exact fun h => by cases h
      · refine fun h => ?_
        cases ((update_of_ne hu ..).trans (update_of_ne hu ..)).symm.trans h
    · cases mem_singleton.1 h
  have h11 := h10.run 0 rfl (.ok none) (quiet_exec (.inl ⟨rfl, rfl⟩) rfl)
  have h12 := h11.run 0 rfl (.ok ()) (quiet_exec (.inl ⟨rfl, .inl rfl⟩) rfl)
  have hw : ∀ _ : ℕ, Program.worker.Reverse := fun _ => trivial
  exact ⟨_, h12, (funds_are_kept hw freshWorld_unstarted h12).1 _ "c" rfl rfl⟩

/-- The claim of a swap is recorded. At the next delivery Boltz reports that the swap
has expired, and the row becomes FAILED, with its claim and although LND has never
reported the payment as failed. -/
theorem claimed_swap_fails :
    ∃ cfg, (machine ℕ).Reach ⟨freshWorld, fun _ => Program.worker.code {}⟩ cfg ∧
      (∃ row, cfg.shared.swaps 0 = some row ∧ row.claimTxid = some "c" ∧ row.status = .claimed) ∧ cfg.shared.Sent 0 ∧
      ∃ cfg', (machine ℕ).Reach cfg cfg' ∧ .paymentFailed 0 ∉ cfg'.shared.log ∧
        ∃ row, cfg'.shared.swaps 0 = some row ∧ row.claimTxid = some "c" ∧ row.status = .failed := by
  have h0 : (machine ℕ).Reach _ ⟨freshWorld, fun _ => Program.worker.code {}⟩ := .refl
  have h1 := h0.run 0 rfl (.ok { swapId := 0 }) ⟨_, mem_singleton_self _, rfl, rfl⟩
  have h2 := h1.run 0 rfl (.ok (some freshRow)) (.inl ⟨rfl, rfl⟩)
  have h3 := h2.run 0 rfl (.ok ()) (.inl ⟨rfl, .inl rfl⟩)
  have h4 := h3.run 0 rfl (.ok ()) (.inl ⟨rfl, .inl rfl⟩)
  have h5 := h4.run 0 rfl (.ok (.ok (some "h"))) rfl
  have h6 := h5.run 0 rfl (.ok ()) (.inl ⟨rfl, .inl rfl⟩)
  have h7 := h6.run 0 rfl (.ok (.ok { status := some "transaction.confirmed" })) rfl
  have h8 := h7.run 0 rfl (.ok (.ok (some "hex"))) rfl
  have h9 := h8.run 0 rfl (.ok none) (.inl ⟨rfl, rfl⟩)
  have h10 := h9.run 0 rfl (.ok (.ok "c")) rfl
  have h11 := h10.run 0 rfl (.ok none) (.inl ⟨rfl, rfl⟩)
  have h12 := h11.run 0 rfl (.ok ()) (.inl ⟨rfl, .inl rfl⟩)
  refine ⟨_, h12, ⟨_, rfl, rfl, rfl⟩, ⟨"lnbc1", mem_cons_self⟩, ?_⟩
  -- the message is delivered again
  refine Reach.next 1 rfl (.ok { swapId := 0 }) ⟨_, mem_singleton_self _, rfl, rfl⟩ ?_
  refine Reach.next 1 rfl (.ok (some _)) (.inl ⟨rfl, rfl⟩) ?_
  refine Reach.next 1 rfl (.ok (.ok { status := some "swap.expired" })) rfl ?_
  refine Reach.next 1 rfl (.ok ()) (.inl ⟨rfl, .inl rfl⟩) ?_
  refine ⟨_, .refl, (?_ : Event.paymentFailed 0 ∉ [Event.sent 0 "lnbc1", .claimed 0 "c", .ended 0]), _, rfl, rfl, rfl⟩
  decide

end AgentWallet.Swaps
