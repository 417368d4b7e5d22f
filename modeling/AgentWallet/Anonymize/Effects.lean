import AgentWallet.Anonymize.Loop
/-!
# What a hop step can do

A hop step may add event rows in each of its cases; the other columns are written as
listed. `HopEffect` is about the hops other than the Liquid one, `LiquidEffect` about the
Liquid hop between restoring and persisting.
-/

namespace AgentWallet.Anonymize.Session

open AgentWallet.Lib

def Row.parked (row : Row) (reason : String) : Row :=
  { row with
    preReconciliationStatus := some row.status, awaitingReconciliationReason := reason, status := .awaitingReconciliation }

variable {row : Row}

lemma park_eq (h : isLegalTransition row.status .awaitingReconciliation = true)
    (hne : row.status ≠ .awaitingReconciliation) (reason : String) : row.park reason = row.parked reason := by
  rw [Row.park, if_neg hne, if_pos h, Row.parked]

def SelfPayKeys.Minted (k : SelfPayKeys) : Prop := k.invoice ≠ "" ∧ k.paymentHash ≠ ""

inductive HopEffect (row : Row) (memory : SwapState) : Tick → Prop
  | idle (es es') : HopEffect row memory ⟨row, es, memory, (row, es'), [], [], false⟩
  | createsSubmarine (swap k es es') (hk : k.lockupAddress = swap.lockupAddress) :
      HopEffect row memory ⟨{ row with submarine := k }, es, memory, (row, es'), [swap], [], false⟩
  | readsStatus (k es es') (hk : k.lockupAddress = row.submarine.lockupAddress) :
      HopEffect row memory ⟨{ row with submarine := k }, es, memory, (row, es'), [], [], false⟩
  | funds (k es es' o) (hstatus : row.status = .funding) (hsource : row.setup.sourceKind.onchain = true)
      (hk : k.lockupAddress = row.submarine.lockupAddress) :
      HopEffect row memory ⟨{ row with submarine := k }, es, memory, (row, es'), [],
        [⟨.fundLockup row.submarine.lockupAddress, o⟩], false⟩
  | parksFunding (reason es es') (hstatus : row.status = .funding) :
      HopEffect row memory ⟨row.parked reason, es, memory, (row, es'), [], [], false⟩
  | createsReverse (k es es') (hstatus : row.status = .exiting) (hid : row.reverse.swapId = "") :
      HopEffect row memory ⟨{ row with reverse := k }, es, memory, (row, es'), [], [], false⟩
  /-- The invoice of the swap is paid and the claim made, in one tick or in several. -/
  | claims (claimedAt ms es es' raised) (hstatus : row.status = .exiting) (hid : row.reverse.swapId ≠ "")
      (hms : ms = [] ∨ ∃ o, ms = [⟨.swapInvoice row.reverse.invoice, o⟩]) :
      HopEffect row memory ⟨{ row with claimBroadcastAt := claimedAt }, es, memory, (row, es'), [], ms, raised⟩
  | decrements (k es es' o) (hstatus : row.status = .exiting) (hid : row.reverse.swapId ≠ "")
      (hk : k.swapId = row.reverse.swapId ∧ k.invoice = row.reverse.invoice) :
      HopEffect row memory ⟨{ row with reverse := k }, es, memory, (row, es'), [],
        [⟨.swapInvoice row.reverse.invoice, o⟩], false⟩
  | parksExiting (es es' o) (hstatus : row.status = .exiting) (hid : row.reverse.swapId ≠ "") :
      HopEffect row memory ⟨row.parked "mpp_k_floor_exhausted", es, memory, (row, es'), [],
        [⟨.swapInvoice row.reverse.invoice, o⟩], false⟩
  /-- The self payment, with a new invoice or with the one of the row. -/
  | selfPays (k k' at' ms es es' raised) (hstatus : row.status = .funding)
      (hsource : row.setup.sourceKind = .lightningSelf) (hk : row.selfPay.Minted → k = row.selfPay)
      (hsettled : k.settled = row.selfPay.settled) (hk' : k' = k ∨ k' = { k with settled := true })
      (hms : ms = [] ∨ k.Minted ∧ ∃ o, ms = [⟨.selfPayment k.invoice, o⟩]) :
      HopEffect row memory ⟨{ row with selfPay := k', updatedAt := at' }, es, memory,
        ({ row with selfPay := k, updatedAt := at' }, es'), [], ms, raised⟩
  | paysOffer (outcome status es es' o) (hstatus : row.status = .exiting)
      (hunpaid : row.bolt12 ≠ some .paid ∧ row.bolt12 ≠ some .inFlight)
      (hend : status = .exiting ∧ outcome = .inFlight ∨ isTerminal status = true) :
      HopEffect row memory ⟨{ row with bolt12 := some outcome, status := status }, es, memory, (row, es'), [],
        [⟨.bolt12Offer (stripped row.setup.bolt12Offer), o⟩], false⟩

lemma HopEffect.park_funding {memory : SwapState} (h : row.status = .funding) (reason : String)
    (es es' : List Event) : HopEffect row memory ⟨row.park reason, es, memory, (row, es'), [], [], false⟩ := by
  rw [park_eq (by rw [h]; rfl) (by rw [h]; decide)]
  exact .parksFunding _ _ _ h

lemma HopEffect.park_exiting {memory : SwapState} (h : row.status = .exiting) (hid : row.reverse.swapId ≠ "")
    (es es' : List Event) (o : Outcome) :
    HopEffect row memory ⟨row.park "mpp_k_floor_exhausted", es, memory, (row, es'), [],
      [⟨.swapInvoice row.reverse.invoice, o⟩], false⟩ := by
  rw [park_eq (by rw [h]; rfl) (by rw [h]; decide)]
  exact .parksExiting _ _ _ h hid

section
variable (s : Settings) (a : Answers) (row : Row) (events : List Event) (memory : SwapState)

lemma executeSubmarineHopStep_effect (h : row.setup.sourceKind.onchain = true) :
    HopEffect row memory (executeSubmarineHopStep a (Tick.load row events memory)) := by
  unfold executeSubmarineHopStep
  split
  case h_1 =>
    simp only [stepIssueSwap]
    repeat' split
    all_goals first | exact .idle _ _ | exact .createsSubmarine _ _ _ _ rfl
  case h_2 hs =>
    simp only [stepFundLockup]
    repeat' split
    all_goals first
      | exact .idle _ _
      | exact .park_funding hs _ _ _
      | exact .funds _ _ _ _ hs h rfl
  case h_3 =>
    simp only [stepObserveSettlement, stepRefund]
    repeat' split
    all_goals first | exact .idle _ _ | exact .readsStatus _ _ _ rfl
  case h_4 => exact .idle _ _

lemma executeReverseHopStep_effect : HopEffect row memory (executeReverseHopStep s a (Tick.load row events memory)) := by
  unfold executeReverseHopStep
  split
  case isTrue => exact .idle _ _
  rename_i hs
  have hs : row.status = .exiting := not_not.1 hs
  split
  case isTrue hid =>
    simp only [issueReverseSwap]
    repeat' split
    all_goals first | exact .idle _ _ | exact .createsReverse _ _ _ hs hid
  rename_i hid
  split
  case isTrue => exact .idle _ _
  simp only [pollAndClaim, pollLockup, payFailed]
  repeat' split
  all_goals first
    | exact .idle _ _
    | exact .claims _ _ _ _ _ hs hid (.inl rfl)
    | exact .claims _ _ _ _ _ hs hid (.inr ⟨_, rfl⟩)
    | exact .decrements _ _ _ _ hs hid ⟨rfl, rfl⟩
    | exact .park_exiting hs hid _ _ _

/-- The send, for the keys `k` that are committed. -/
lemma fireSelfPay_effect {row : Row} {k : SelfPayKeys} (es es' : List Event) (at' : ℕ) (hst : row.status = .funding)
    (hso : row.setup.sourceKind = .lightningSelf) (hk : row.selfPay.Minted → k = row.selfPay)
    (hs : k.settled = row.selfPay.settled) (hm : k.Minted) :
    HopEffect row memory (fireSelfPay a ⟨{ row with selfPay := k, updatedAt := at' }, es, memory,
      ({ row with selfPay := k, updatedAt := at' }, es'), [], [], false⟩) := by
  simp only [fireSelfPay]
  repeat' split
  all_goals first
    | exact .selfPays _ _ _ _ _ _ _ hst hso hk hs (.inl rfl) (.inl rfl)
    | exact .selfPays _ _ _ _ _ _ _ hst hso hk hs (.inl rfl) (.inr ⟨hm, _, rfl⟩)
    | exact .selfPays _ _ _ _ _ _ _ hst hso hk hs (.inr rfl) (.inr ⟨hm, _, rfl⟩)

lemma executeLnSelfPayHopStep_effect (h : row.setup.sourceKind = .lightningSelf) :
    HopEffect row memory (executeLnSelfPayHopStep a (Tick.load row events memory)) := by
  unfold executeLnSelfPayHopStep
  split
  case isFalse => exact .idle _ _
  rename_i hs
  have marks := fun es es' => @HopEffect.selfPays row memory row.selfPay _ row.updatedAt [] es es'
    false hs h (fun _ => rfl) rfl (.inr rfl) (.inl rfl)
  simp only [stepFireSelfPay]
  split
  · exact .idle _ _
  split
  · exact marks _ _
  split
  · exact marks _ _
  split
  case isTrue hmi => exact fireSelfPay_effect a memory _ _ _ hs h (fun _ => rfl) rfl ⟨hmi.2, hmi.1⟩
  case isFalse hmi =>
  split
  · exact .idle _ _
  split
  case isTrue => exact .idle _ _
  case isFalse hne =>
    exact fireSelfPay_effect a memory _ _ _ hs h (fun hm => (hmi ⟨hm.2, hm.1⟩).elim) rfl (not_or.1 hne)

lemma executeBolt12PayHopStep_effect : HopEffect row memory (executeBolt12PayHopStep a (Tick.load row events memory)) := by
  simp only [executeBolt12PayHopStep]
  split
  case isTrue => exact .idle _ _
  rename_i hi
  have hs : row.status = .exiting := not_not.1 fun h => hi (.inl h)
  have hu : row.bolt12 ≠ some .paid ∧ row.bolt12 ≠ some .inFlight :=
    ⟨fun h => hi (.inr (.inr (.inl h))), fun h => hi (.inr (.inr (.inr (.inl h))))⟩
  split
  case h_1 hr => exact .paysOffer _ _ _ _ _ hs hu (.inl ⟨hs, hr⟩)
  all_goals exact .paysOffer _ _ _ _ _ hs hu (.inr rfl)

end

/-! ## The Liquid hop -/

def SwapEntry.created (e : SwapEntry) : Leg × String × String × String × String × String × ℕ × String :=
  (e.leg, e.address, e.blindingPrivkeyHex, e.claimPrivateKeyHex, e.preimageHex, e.refundPrivateKeyHex,
    e.timeoutBlockHeight, e.swapTree)

def LiquidKeys.ids (k : LiquidKeys) : String × String × Bool × SwapState :=
  (k.lnToLbtcSwapId, k.lbtcToLnSwapId, k.completed, k.swapStateEnc)

/-- The lock that spends the first leg `leg1` to the lockup of the second. -/
def lockMove (row : Row) (leg1 leg2 : SwapEntry) : Move :=
  .lockLbtc row.liquid.lbtcToLnSwapId leg2.address leg1.walletUtxo leg1.sessionSpendingPrivkeyHex leg1.sessionCtAddress

inductive LiquidEffect (a : Answers) (row : Row) (m : SwapState) : Tick → Prop
  | idle (k es es') (hk : k.ids = row.liquid.ids) :
      LiquidEffect a row m ⟨{ row with liquid := k }, es, m, (row, es'), [], [], false⟩
  /-- The entry of the first leg gets fields that were not known before. -/
  | updates (k entry entry' es es') (hk : k.ids = row.liquid.ids)
      (hentry : m.lookup row.liquid.lnToLbtcSwapId = some entry) (hnew : entry'.created = entry.created) :
      LiquidEffect a row m ⟨{ row with liquid := k }, es, setEntry row.liquid.lnToLbtcSwapId entry' m, (row, es'),
        [], [], false⟩
  /-- A first leg is created and its swap not recorded. -/
  | abandons (id invoice secrets entry ms es es') (hstatus : row.status = .hopping)
      (hid : row.liquid.lnToLbtcSwapId = "") (hentry : entry.leg = .lnToLbtc)
      (hcreated : a.lnToLbtc = some (id, invoice, secrets))
      (hms : ms = [] ∧ (invoice = "" ∨ id = "") ∨
        ms = [⟨.liquidInvoice id invoice, a.sent.outcome⟩] ∧ ∃ text, a.sent = .raised text) :
      LiquidEffect a row m ⟨row, es, setEntry id entry m, (row, es'), [], ms, false⟩
  | paysFirst (id invoice secrets entry es es') (hstatus : row.status = .hopping)
      (hid : row.liquid.lnToLbtcSwapId = "") (hentry : entry.leg = .lnToLbtc)
      (hcreated : a.lnToLbtc = some (id, invoice, secrets)) (hne : id ≠ "") :
      LiquidEffect a row m ⟨{ row with liquid := { row.liquid with lnToLbtcSwapId := id } }, es, setEntry id entry m,
        (row, es'), [], [⟨.liquidInvoice id invoice, a.sent.outcome⟩], false⟩
  | createsSecond (id secrets entry k es es') (hid : row.liquid.lbtcToLnSwapId = "")
      (hentry : entry.created = { secrets with leg := .lbtcToLn }.created) (hcreated : a.lbtcToLn = some (id, secrets))
      (hk : k = { row.liquid with lbtcToLnSwapId := id }) :
      LiquidEffect a row m ⟨{ row with liquid := k }, es, setEntry id entry m, (row, es'), [], [], false⟩
  | locks (leg1 leg2 k mem es es' o) (hstatus : row.status = .awaitingLiquidDwell) (hk : k.ids = row.liquid.ids)
      (hleg2 : m.lookup row.liquid.lbtcToLnSwapId = some leg2) (hleg1 : findLeg1State m = some leg1)
      (haddress : leg1.sessionCtAddress ≠ "")
      (hmem : a.lockTx = none ∧ mem = m ∨ ∃ txHex txid, a.lockTx = some (txHex, txid) ∧
        mem = setEntry row.liquid.lbtcToLnSwapId { leg2 with lockTxHex := txHex } m) :
      LiquidEffect a row m ⟨{ row with liquid := k }, es, mem, (row, es'), [], [⟨lockMove row leg1 leg2, o⟩], false⟩
  | parks (es es') (hstatus : row.status = .awaitingLiquidDwell) :
      LiquidEffect a row m ⟨row.parked "liquid_lock_in_doubt", es, m, (row, es'), [], [], false⟩
  | settles (es es') (hstatus : row.status = .awaitingLiquidDwell) :
      LiquidEffect a row m ⟨{ row with liquid := { row.liquid with completed := true, swapStateEnc := [] } }, es, [],
        (row, es'), [], [], false⟩

lemma LiquidEffect.park_dwell {a : Answers} {m : SwapState} (h : row.status = .awaitingLiquidDwell)
    (es es' : List Event) :
    LiquidEffect a row m ⟨row.park "liquid_lock_in_doubt", es, m, (row, es'), [], [], false⟩ := by
  rw [park_eq (by rw [h]; rfl) (by rw [h]; decide)]
  exact .parks _ _ h

section
variable (s : Settings) (a : Answers) (row : Row) (events : List Event) (m : SwapState)

lemma stepInitiateLnToLbtc_effect (hs : row.status = .hopping) (hid : row.liquid.lnToLbtcSwapId = "") :
    LiquidEffect a row m (stepInitiateLnToLbtc s a (Tick.load row events m)) := by
  simp only [stepInitiateLnToLbtc]
  split
  · exact .idle _ _ _ rfl
  split
  case h_2 => exact .idle _ _ _ rfl
  case h_1 hc =>
  obtain ⟨hc, -⟩ := Option.filter_eq_some_iff.1 hc
  split
  · exact .idle _ _ _ rfl
  split
  case isTrue he => exact .abandons _ _ _ _ _ _ _ hs hid rfl hc (.inl ⟨rfl, he⟩)
  case isFalse hne =>
  split
  case h_1 her =>
    refine .abandons _ _ _ _ _ _ _ hs hid rfl hc (.inr ⟨rfl, ?_⟩)
    cases hse : a.sent with
    | raised text => exact ⟨text, rfl⟩
    | result | error => simp [hse, lndSendPayment] at her
  case h_2 => exact .paysFirst _ _ _ _ _ _ hs hid rfl hc fun h => hne (.inr h)

lemma lockForSubmarine_effect (hs : row.status = .awaitingLiquidDwell) (es es' : List Event) :
    LiquidEffect a row m (lockForSubmarine s a ⟨row, es, m, (row, es'), [], [], false⟩) := by
  simp only [lockForSubmarine]
  split
  case h_2 => exact .idle _ _ _ rfl
  case h_1 hl2 hl1 =>
  split
  case isTrue => exact .idle _ _ _ rfl
  case isFalse hc =>
  have ha := fun h => hc (.inr (.inr (.inr (.inl h))))
  split
  case h_1 hn => exact .locks _ _ _ _ _ _ _ hs rfl hl2 hl1 ha (.inl ⟨hn, rfl⟩)
  case h_2 hl =>
  split
  all_goals exact .locks _ _ _ _ _ _ _ hs rfl hl2 hl1 ha (.inr ⟨_, _, hl, rfl⟩)

lemma stepClaimLbtcToWallet_effect : LiquidEffect a row m (stepClaimLbtcToWallet s a (Tick.load row events m)) := by
  simp only [stepClaimLbtcToWallet]
  split
  · exact .idle _ _ _ rfl
  split
  case h_1 => exact .idle _ _ _ rfl
  case h_2 he =>
  repeat' split
  all_goals first
    | exact .idle _ _ _ rfl
    | exact .updates _ _ _ _ _ rfl he rfl

lemma liquidStep_effect : LiquidEffect a row m (liquidStep s a (Tick.load row events m)) := by
  simp only [liquidStep]
  split
  case h_1 hs =>
    split
    case isTrue hid => exact stepInitiateLnToLbtc_effect s a row events m hs hid
    case isFalse =>
    split
    case isTrue =>
      simp only [stepObserveLbtcCredit]
      split
      case h_1 he _ => split <;> exact .updates _ _ _ _ _ rfl he rfl
      case h_2 => exact .idle _ _ _ rfl
    case isFalse =>
    split
    · exact stepClaimLbtcToWallet_effect s a row events m
    split
    case isTrue =>
      simp only [stepObserveClaimConfirmation]
      split
      case h_1 he _ =>
        split
        · exact .idle _ _ _ rfl
        · exact .updates _ _ _ _ _ rfl he rfl
      case h_2 => exact .idle _ _ _ rfl
    case isFalse => split <;> exact .idle _ _ _ rfl
  case h_2 hs =>
    split
    · exact .idle _ _ _ rfl
    split
    case isTrue hid =>
      simp only [stepInitiateLbtcToLn]
      split
      · exact .idle _ _ _ rfl
      split
      case h_2 => exact .idle _ _ _ rfl
      case h_1 hc =>
      obtain ⟨hc, -⟩ := Option.filter_eq_some_iff.1 hc
      split
      · exact .idle _ _ _ rfl
      split
      case isTrue hem =>
        exact .createsSecond _ _ _ row.liquid _ _ hid rfl hc (by rw [hem, ← hid]; rfl)
      case isFalse => exact .createsSecond _ _ _ _ _ _ hid rfl hc rfl
    case isFalse =>
    split
    case isTrue =>
      simp only [stepLockLbtcForSubmarine]
      split
      · exact .idle _ _ _ rfl
      · exact .park_dwell hs _ _
      · exact lockForSubmarine_effect s a row m hs _ _
    simp only [stepObserveLbtcToLnSettlement]
    split
    · exact .settles _ _ hs
    · exact .idle _ _ _ rfl
  case h_3 => exact .idle _ _ _ rfl

end

/-! ## A tick -/

/-- The hop step of a tick: one of the effects. A Liquid hop works on the memory of the
process or, if that is empty, on the blob of the row, and writes it back. -/
inductive HopStep (a : Answers) (row : Row) (memory : SwapState) : Tick → Prop
  | other {t : Tick} (h : HopEffect row memory t) : HopStep a row memory t
  | liquid {t : Tick} (h : LiquidEffect a row (if memory = [] then row.liquid.swapStateEnc else memory) t) :
      HopStep a row memory t.persist

lemma Tick.persist_eq (t : Tick) : ∃ blob,
    t.persist = { t with row := { t.row with liquid := { t.row.liquid with swapStateEnc := blob } } } := by
  unfold Tick.persist
  split <;> exact ⟨_, rfl⟩

lemma defaultHopStep_step (s : Settings) (a : Answers) (row : Row) (events : List Event) (memory : SwapState) :
    HopStep a row memory (defaultHopStep s a (Tick.load row events memory)) := by
  simp only [defaultHopStep]
  split
  · have hr : (Tick.load row events memory).restore =
        Tick.load row events (if memory = [] then row.liquid.swapStateEnc else memory) := by
      rw [Tick.restore]
      split <;> next h => simp_all [Tick.load]
    rw [executeLiquidHopStep, hr]
    exact .liquid (liquidStep_effect s a row events _)
  · split
    · exact .other (executeBolt12PayHopStep_effect a row events memory)
    split
    · next h => exact .other (executeLnSelfPayHopStep_effect a row events memory h.1)
    · split
      · next h => exact .other (executeSubmarineHopStep_effect a row events memory h.1)
      · exact .other (executeReverseHopStep_effect s a row events memory)

inductive TickStep (s : Settings) (w : World) (p : ℕ) (a : Answers) (fate : Fate) : World → Prop
  | committed (t : Tick) (hop : HopStep a w.row (w.memory p) t) (hraised : t.raised = false) (hfate : fate = .committed) :
      TickStep s w p a fate { w.close p t with
        row := (tickSession t.row (defaultObservation s a w.deposited t.row)).stamp a.now t.saved.1, events := t.events }
  | rolledBack (t : Tick) (hop : HopStep a w.row (w.memory p) t) (hfate : fate = .rolledBack ∨ t.raised = true) :
      TickStep s w p a fate (w.close p t)
  | crashed (t : Tick) (ms : List Moved) (hop : HopStep a w.row (w.memory p) t) (hms : ms ⊆ t.moves)
      (hfate : fate ≠ .committed) (hcalled : fate = .crashed false → ms = []) :
      TickStep s w p a fate (w.close p { t with memory := [], moves := ms })

lemma step_tick (s : Settings) (w : World) (p : ℕ) (a : Answers) (fate : Fate) :
    w.step s (.tick p a fate) = w ∨ TickStep s w p a fate (w.step s (.tick p a fate)) := by
  have hop := defaultHopStep_step s a w.row w.events (w.memory p)
  simp only [World.step, World.ticked, runTick]
  generalize defaultHopStep s a (Tick.load w.row w.events (w.memory p)) = t at hop
  split
  case isTrue => exact .inl rfl
  right
  cases hr : t.raised <;> cases fate <;> simp only [World.finish, Tick.modify, hr, if_true]
  case false.committed => exact .committed t hop hr rfl
  case true.committed | true.rolledBack => exact .rolledBack t hop (.inr hr)
  case false.rolledBack => exact .rolledBack t hop (.inl rfl)
  all_goals exact .crashed t _ hop (by split <;> simp) (by simp) (by rintro ⟨⟩; rfl)

end AgentWallet.Anonymize.Session
