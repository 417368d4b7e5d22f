import AgentWallet.Swaps.Cancel
/-!
# Who pays which invoice (`recover_pending_swaps`, `_advance_created_ext_lightning`)

The rows of submarine swaps, of reverse swaps that the user pays and of reverse
swaps that the wallet pays are kept in one table and are all made in CREATED. The
flows queue a payment only for the last kind, but the sweep queues one for every
row it finds in CREATED or PAYING_INVOICE, and so the wallet pays the others too
(`sweep_pays_submarine`).

As long as a sweep reads the table when no row of the other kinds is in these two
statuses, the wallet pays what it is meant to pay (`pays_only_its_own`).
-/

namespace AgentWallet.Swaps

open AgentWallet.Lib World Option

variable {T : Type} [DecidableEq T]

/-- A sweep reads the table when the wallet is to pay whatever is not paid yet. -/
def SweepsOwn (_ : T) (c : Command) (w : World T) (_ : Except Raised (Reply c)) (_ : World T) : Prop :=
  match c with
  | .selectPending => ∀ id row, w.swaps id = some row → row.status ∈ [SwapStatus.created, .payingInvoice] →
      w.payer id = .wallet
  | _ => True

abbrev sweepsOwn (T : Type) [DecidableEq T] : Machine T Command Reply Raised (World T) :=
  (machine T).restrict SweepsOwn fun _ _ => True

def Known (id : SwapId) (payer : Payer) (invoice : Option String) (w : World T) : Prop :=
  w.payer id = payer ∧ ∃ row, w.swaps id = some row ∧ row.boltzInvoice = invoice

/-- The statuses of a session whose user has been given an invoice. -/
def BraiinsDepositStatus.asked : BraiinsDepositStatus → Bool
  | .created | .awaitingOnchainFunds | .submarineSwapping | .openingChannel => false
  | _ => true

/-- A deposit session of a user who pays: its swap is one that the user pays, and
it does not come back to CREATED. -/
structure UserPays (w : World T) (session : BraiinsDepositSession) : Prop where
  swap : ∀ id, session.boltzSwapId = some id → ∃ invoice, Known id .user invoice w
  once : session.status = .created ∧ .awaitingLnFunds ∉ session.statusHistory ∨ session.status.asked

structure Meant (w : World T) : Prop where
  queue : ∀ message ∈ w.queue, ∃ invoice, Known message.swapId .wallet invoice w
  sent : ∀ id invoice, (id, invoice) ∈ w.sends → Known id .wallet (some invoice) w
  invoice : ∀ id id' row row', w.swaps id = some row → w.swaps id' = some row' → row.boltzInvoice = row'.boltzInvoice →
    id = id' ∨ w.payer id = .boltz ∧ w.payer id' = .boltz
  sessions : ∀ id session, w.sessions id = some session → session.sourceKind = .extLightning → UserPays w session

/-! ## What every step keeps -/

/-- Rows keep their payer and their invoice, sessions keep their source. -/
structure Grows (w w' : World T) : Prop where
  known : ∀ id row, w.swaps id = some row → w'.payer id = w.payer id ∧
    ∃ row', w'.swaps id = some row' ∧ row'.boltzInvoice = row.boltzInvoice
  source : ∀ id, (w'.sessions id).map BraiinsDepositSession.sourceKind =
    (w.sessions id).map BraiinsDepositSession.sourceKind

variable {swaps : List Copy} {id : SwapId} {c : Command}

section Growth

variable {w w' w'' : World T} {t : T}

lemma Grows.refl (w : World T) : Grows w w := ⟨fun _ row hr => ⟨rfl, row, hr, rfl⟩, fun _ => rfl⟩

lemma Grows.trans (h : Grows w w') (h' : Grows w' w'') : Grows w w'' := by
  refine ⟨fun id row hr => ?_, fun id => (h'.source id).trans (h.source id)⟩
  obtain ⟨hp, row', hr', hi⟩ := h.known id row hr
  obtain ⟨hp', row'', hr'', hi'⟩ := h'.known id row' hr'
  exact ⟨hp'.trans hp, row'', hr'', hi'.trans hi⟩

lemma Frame.grows (h : Frame t w w') : Grows w w' := by
  refine ⟨fun id row hr => ⟨congrFun h.payer id, row, ?_, rfl⟩, fun id => ?_⟩
  · rw [h.swaps]
    exact hr
  · rw [h.sessions]

lemma grows_writeSwap (swap : Copy) : Grows w (w.writeSwap swap) := by
  refine ⟨fun id row hr => ⟨rfl, ?_⟩, fun _ => rfl⟩
  by_cases hid : swap.id = id
  · subst hid
    refine ⟨swap.write row, ?_, rfl⟩
    rw [writeSwap_self, hr]
    rfl
  · exact ⟨row, (writeSwap_other hid).trans hr, rfl⟩

lemma grows_foldl (swaps : List Copy) (w : World T) : Grows w (swaps.foldl World.writeSwap w) := by
  induction swaps generalizing w with
  | nil => exact .refl w
  | cons swap swaps ih => exact (grows_writeSwap swap).trans (ih _)

lemma grows_writeSession (session : SessionCopy) : Grows w (w.writeSession session) := by
  refine ⟨fun id row hr => ⟨rfl, row, hr, rfl⟩, fun id => ?_⟩
  by_cases hid : id = session.id
  · subst hid
    rw [writeSession_self, map_map]
    rfl
  · rw [writeSession_other hid]

lemma grows_commit (swaps : List Copy) (session : Option SessionCopy) (t : T) :
    Grows w ((w.write swaps session).committed t) := by
  have hw : Grows w (w.write swaps session) := by
    cases session with
    | none => exact grows_foldl swaps w
    | some session => exact (grows_foldl swaps w).trans (grows_writeSession session)
  exact ⟨hw.known, hw.source⟩

lemma grows_insert {payer : Payer} {row : BoltzSwap} (hid : w.swaps id = none) : Grows w (w.insert id payer row) := by
  refine ⟨fun id' row' hr' => ?_, fun _ => rfl⟩
  have hne : id' ≠ id := by
    rintro rfl
    rw [hid] at hr'
    cases hr'
  exact ⟨Function.update_of_ne hne .., row', (Function.update_of_ne hne ..).trans hr', rfl⟩

lemma exec_grows {r : Except Raised (Reply c)} (hx : (machine T).exec t c w r w') : Grows w w' := by
  by_cases hw : c.writes = false
  · exact (exec_frame hw hx).grows
  cases c with
  | commit swaps session =>
    rcases hx with ⟨rfl, -⟩ | ⟨-, rfl⟩
    · exact grows_commit swaps session t
    · exact .refl w'
  | insertSwap payer row =>
    rcases hx with ⟨id, hid, -, rfl, -⟩ | ⟨-, rfl⟩
    · exact grows_insert hid
    · exact .refl w'
  | delay message =>
    rcases hx with ⟨-, rfl⟩ | ⟨-, rfl⟩
    · exact ⟨(Grows.refl w).known, fun _ => rfl⟩
    · exact .refl w'
  | retry message =>
    obtain ⟨-, rfl⟩ := hx
    split
    · exact ⟨(Grows.refl w).known, fun _ => rfl⟩
    · exact (Frame.record t w _).grows
  | _ => exact (hw rfl).elim

lemma Known.mono {payer : Payer} {invoice : Option String} (h : Known id payer invoice w) (hg : Grows w w') :
    Known id payer invoice w' := by
  obtain ⟨hp, row, hr, hi⟩ := h
  obtain ⟨hp', row', hr', hi'⟩ := hg.known id row hr
  exact ⟨hp'.trans hp, row', hr', hi'.trans hi⟩

lemma UserPays.mono {session : BraiinsDepositSession} (h : UserPays w session) (hg : Grows w w') :
    UserPays w' session := by
  refine ⟨fun id hid => ?_, h.once⟩
  obtain ⟨invoice, hk⟩ := h.swap id hid
  exact ⟨invoice, hk.mono hg⟩

end Growth

/-! ## The protocol -/

/-- A copy of a session that may be committed. For a user who pays, a new link is to
a swap that the user pays, and a new status is one after the invoice. -/
structure Sound (w : World T) (session : SessionCopy) : Prop where
  source : ∀ row, w.sessions session.id = some row → row.sourceKind = session.stored.sourceKind
  swap : session.stored.sourceKind = .extLightning → session.current.boltzSwapId = session.stored.boltzSwapId ∨
    ∃ id invoice, session.current.boltzSwapId = some id ∧ Known id .user invoice w
  status : session.stored.sourceKind = .extLightning →
    session.current.status = session.stored.status ∧ session.current.statusHistory = session.stored.statusHistory ∨
    session.current.status ≠ session.stored.status ∧ session.current.status.asked

def Permitted (c : Command) (w : World T) : Prop :=
  match c with
  | .commit _ session => ∀ copy, session = some copy → Sound w copy
  | .delay message => ∃ invoice, Known message.swapId .wallet invoice w
  | .retry message => ∃ invoice, Known message.swapId .wallet invoice w
  | .sendPaymentV2 id payment => Known id .wallet (some payment.paymentRequest) w
  | _ => True

section Steps

variable {w w' : World T} {t : T}

/-- A session that the user pays stays one under sound copies. -/
lemma UserPays.write {row : BraiinsDepositSession} (h : UserPays w row) {session : SessionCopy} (hs : Sound w session)
    (hsource : session.stored.sourceKind = .extLightning) : UserPays w (session.write row) := by
  constructor
  · intro id hid
    by_cases hsa : session.current.boltzSwapId = session.stored.boltzSwapId
    · have hk : (session.write row).boltzSwapId = row.boltzSwapId := if_pos hsa
      exact h.swap id (hk.symm.trans hid)
    have hn : (session.write row).boltzSwapId = session.current.boltzSwapId := if_neg hsa
    obtain ⟨id', invoice, hc, hkn⟩ := (hs.swap hsource).resolve_left hsa
    rw [hn, hc] at hid
    cases hid
    exact ⟨invoice, hkn⟩
  · rcases hs.status hsource with ⟨hst, hh⟩ | ⟨hst, ha⟩
    · have hk : (session.write row).status = row.status := if_pos hst
      have hk' : (session.write row).statusHistory = row.statusHistory := if_pos hh
      rw [hk, hk']
      exact h.once
    · have hn : (session.write row).status = session.current.status := if_neg hst
      rw [hn]
      exact .inr ha

lemma foldl_invoice (swaps : List Copy) (w : World T) (id : SwapId) :
    ((swaps.foldl World.writeSwap w).swaps id).map BoltzSwap.boltzInvoice = (w.swaps id).map BoltzSwap.boltzInvoice := by
  induction swaps generalizing w with
  | nil => rfl
  | cons swap swaps ih =>
    refine (ih (w.writeSwap swap)).trans ?_
    by_cases hid : swap.id = id
    · subst hid
      rw [writeSwap_self, map_map]
      rfl
    · rw [writeSwap_other hid]

lemma Meant.invoice_of_map (h : Meant w) (hp : w'.payer = w.payer)
    (hm : ∀ id, (w'.swaps id).map BoltzSwap.boltzInvoice = (w.swaps id).map BoltzSwap.boltzInvoice) :
    ∀ id id' row row', w'.swaps id = some row → w'.swaps id' = some row' → row.boltzInvoice = row'.boltzInvoice →
      id = id' ∨ w'.payer id = .boltz ∧ w'.payer id' = .boltz := by
  intro id id' row row' hr hr' heq
  have hs := hm id
  have hs' := hm id'
  rw [hr] at hs
  rw [hr'] at hs'
  obtain ⟨before, hb, hi⟩ := map_eq_some_iff.1 hs.symm
  obtain ⟨before', hb', hi'⟩ := map_eq_some_iff.1 hs'.symm
  rw [hp]
  exact h.invoice id id' before before' hb hb' ((hi.trans heq).trans hi'.symm)

lemma Meant.frame (h : Meant w) (hf : Frame t w w')
    (hse : ∀ id invoice, (id, invoice) ∈ w'.sends → (id, invoice) ∈ w.sends ∨ Known id .wallet (some invoice) w) :
    Meant w' := by
  have hg := hf.grows
  refine ⟨fun message hm => ?_, fun id invoice hm => ?_, h.invoice_of_map hf.payer fun id => ?_,
    fun id session hs hsource => ?_⟩
  · obtain ⟨invoice, hk⟩ := h.queue message (hf.queue ▸ hm)
    exact ⟨invoice, hk.mono hg⟩
  · rcases hse id invoice hm with hm | hk
    · exact (h.sent id invoice hm).mono hg
    · exact hk.mono hg
  · rw [hf.swaps]
  · rw [hf.sessions] at hs
    exact (h.sessions id session hs hsource).mono hg

lemma Meant.commit (h : Meant w) {session : Option SessionCopy} (hs : ∀ copy, session = some copy → Sound w copy) :
    Meant ((w.write swaps session).committed t) := by
  have hg : Grows w ((w.write swaps session).committed t) := grows_commit swaps session t
  have hse : ((w.write swaps session).committed t).sends = w.sends := by
    unfold World.sends
    rw [show ((w.write swaps session).committed t).log = w.log from w.write_log swaps session]
  have hr : ((w.write swaps session).committed t).queue = w.queue ∧
      ((w.write swaps session).committed t).payer = w.payer := by
    rw [write_eq]
    exact ⟨rfl, rfl⟩
  refine ⟨fun message hm => ?_, fun id invoice hm => ?_, h.invoice_of_map hr.2 fun id => ?_, ?_⟩
  · obtain ⟨invoice, hkn⟩ := h.queue message (hr.1 ▸ hm)
    exact ⟨invoice, hkn.mono hg⟩
  · exact (h.sent id invoice (hse ▸ hm)).mono hg
  · refine Eq.trans ?_ (foldl_invoice swaps w id)
    rw [← write_swaps w swaps session]
    rfl
  · intro id row hro hsource
    refine UserPays.mono (w := w) ?_ hg
    rcases World.write_session hro with hsa | ⟨copy, before, hc, rfl, hb, rfl⟩
    · exact h.sessions id row hsa hsource
    · have hk : before.sourceKind = .extLightning := hsource
      have hst := ((hs copy hc).source before hb).symm.trans hk
      exact (h.sessions _ before hb hk).write (hs copy hc) hst

lemma Meant.enqueue (h : Meant w) {message : Message} (hm : ∃ invoice, Known message.swapId .wallet invoice w) :
    Meant (w.enqueue message) := by
  refine ⟨fun m hme => ?_, h.sent, h.invoice, fun id session hs hsource => ?_⟩
  · rcases List.mem_append.1 hme with hme | hme
    · exact h.queue m hme
    · rw [List.mem_singleton.1 hme]
      exact hm
  · exact ⟨(h.sessions id session hs hsource).swap, (h.sessions id session hs hsource).once⟩

lemma Meant.insert (h : Meant w) {payer : Payer} {row : BoltzSwap} (hid : w.swaps id = none)
    (hf : ∀ id' row', w.swaps id' = some row' → row'.boltzInvoice = row.boltzInvoice → payer = .boltz ∧ w.payer id' = .boltz) : Meant (w.insert id payer row) := by
  have hg : Grows w (w.insert id payer row) := grows_insert hid
  have hse : (w.insert id payer row).swaps id = some row := Function.update_self ..
  have hp : (w.insert id payer row).payer id = payer := Function.update_self ..
  have ho : ∀ {id'}, id' ≠ id → (w.insert id payer row).swaps id' = w.swaps id' ∧
      (w.insert id payer row).payer id' = w.payer id' :=
    fun hne => ⟨Function.update_of_ne hne .., Function.update_of_ne hne ..⟩
  refine ⟨fun message hm => ?_, fun id' invoice hm => (h.sent id' invoice hm).mono hg, ?_,
    fun id' session hs hsource => (h.sessions id' session hs hsource).mono hg⟩
  · obtain ⟨invoice, hk⟩ := h.queue message hm
    exact ⟨invoice, hk.mono hg⟩
  intro i j rowi rowj hi hj heq
  by_cases hii : i = id
  · subst hii
    by_cases hjj : j = i
    · exact .inl hjj.symm
    rw [hse] at hi
    cases hi
    rw [(ho hjj).1] at hj
    obtain ⟨hb, hb'⟩ := hf j rowj hj heq.symm
    exact .inr ⟨hp.trans hb, (ho hjj).2.trans hb'⟩
  · rw [(ho hii).1] at hi
    by_cases hjj : j = id
    · subst hjj
      rw [hse] at hj
      cases hj
      obtain ⟨hb, hb'⟩ := hf i rowi hi heq
      exact .inr ⟨(ho hii).2.trans hb', hp.trans hb⟩
    · rw [(ho hjj).1] at hj
      rw [(ho hii).2, (ho hjj).2]
      exact h.invoice i j rowi rowj hi hj heq

end Steps

/-- The wallet pays what it is meant to. -/
def own (T : Type) [DecidableEq T] : Protocol (sweepsOwn T) where
  inv := Meant
  pre _ := Permitted
  rely _ := Grows
  exec := by
    rintro t c w w' r hi hpre ⟨-, hx⟩
    refine ⟨?_, fun _ _ => exec_grows hx⟩
    have hsends : ∀ id invoice, (id, invoice) ∈ w'.sends → (id, invoice) ∈ w.sends ∨ Known id .wallet (some invoice) w := by
      intro id invoice hmem
      rcases exec_sends hx with hsame | ⟨id', payment, rfl, happend⟩
      · exact .inl (hsame ▸ hmem)
      rw [happend] at hmem
      rcases List.mem_append.1 hmem with hmem | hmem
      · exact .inl hmem
      · cases List.mem_singleton.1 hmem
        exact .inr hpre
    by_cases hwrites : c.writes = false
    · exact hi.frame (exec_frame hwrites hx) hsends
    cases c with
    | commit swaps session =>
      rcases hx with ⟨rfl, -⟩ | ⟨-, rfl⟩
      · exact hi.commit hpre
      · exact hi
    | insertSwap payer row =>
      rcases hx with ⟨id, hid, -, rfl, hfresh⟩ | ⟨-, rfl⟩
      · exact hi.insert hid hfresh
      · exact hi
    | delay message =>
      rcases hx with ⟨-, rfl⟩ | ⟨-, rfl⟩
      · exact hi.enqueue hpre
      · exact hi
    | retry message =>
      obtain ⟨-, rfl⟩ := hx
      split
      · exact hi.enqueue hpre
      · exact hi.frame (Frame.record t w _) fun id invoice hmem => hsends id invoice (by rwa [if_neg ‹_›])
    | _ => exact (hwrites rfl).elim
  env := by
    rintro w w' - ⟨-, hfalse⟩
    exact hfalse.elim

/-! ## Rules -/

section Rules

variable {t : T} {K : World T → Prop}

def Persists (K : World T → Prop) : Prop := ∀ w w', Grows w w' → K w → K w'

lemma persists_true : Persists fun _ : World T => True := fun _ _ _ h => h

lemma Persists.stable (hK : Persists K) : (own T).Stable t K := fun w w' _ _ hg hk => hK w w' hg hk

lemma persists_known (id : SwapId) (payer : Payer) (invoice : Option String) :
    Persists (Known id payer invoice : World T → Prop) :=
  fun _ _ hg h => h.mono hg

lemma Persists.and {K' : World T → Prop} (hK : Persists K) (hK' : Persists K') : Persists fun w => K w ∧ K' w :=
  fun w w' hg h => ⟨hK w w' hg h.1, hK' w w' hg h.2⟩

abbrev Keeps (t : T) (K : World T → Prop) {α : Type} (p : Code α) : Prop := (own T).Safe t (fun _ => K) p K

lemma Keeps.bind {α β : Type} {p : Code α} {f : α → Code β} (hp : Keeps t K p) (hf : ∀ a, Keeps t K (f a)) :
    Keeps t K (p.bind f) :=
  Protocol.Safe.bind hp hf fun _ _ _ hk => hk

lemma permitted_of_routine {w : World T} (h : Routine c) : Permitted c w := by
  cases c with
  | commit swaps session =>
    cases session with
    | none => exact fun _ hc => by cases hc
    | some session => exact h.elim
  | sendPaymentV2 | delay | retry => exact h.elim
  | _ => trivial

lemma call_safe (hK : Persists K) (hc : ∀ w, K w → Permitted c w) : Keeps t K (call c) :=
  .call (fun _ => hK.stable) fun w _ w' _ hk hx => ⟨hc w hk, fun _ => hK w w' (exec_grows hx.2) hk⟩

lemma ask (hK : Persists K) (hc : Routine c) : Keeps t K (call c) :=
  call_safe hK fun _ _ => permitted_of_routine hc

lemma return_safe {α : Type} {a : α} : Keeps t K (.ret a : Code α) := fun _ _ hk => hk

lemma within_safe {α : Type} {p : Code α} {φ : Command → Prop} {ψ : α → Prop} (h : p.Within φ ψ) (hK : Persists K)
    (hφ : ∀ c w, φ c → K w → Permitted c w) : (own T).Safe t (fun r w => Task.Okay ψ r ∧ K w) p K :=
  .within h hK.stable fun c w _ w' hc _ hk hx => ⟨hφ c w hc hk, fun _ => hK w w' (exec_grows hx.2) hk⟩

def Made (payer : Payer) (K : World T → Prop) : Except Raised (Except String (SwapId × BoltzSwap)) → World T → Prop
  | .ok (.ok (id, row)), w => K w ∧ Known id payer row.boltzInvoice w
  | _, w => K w

lemma insertSwap_safe (hK : Persists K) (payer : Payer) (row : BoltzSwap) :
    (own T).Safe t (fun r w => K w ∧ ∀ id, r = .ok id → Known id payer row.boltzInvoice w)
      (call (.insertSwap payer row)) K := by
  refine .call (fun r w w' _ _ hg h => ?_) fun w r w' _ hk ⟨_, hx⟩ => ⟨trivial, fun _ => ?_⟩
  · exact ⟨hK w w' hg h.1, fun id hid => (h.2 id hid).mono hg⟩
  refine ⟨hK w w' (exec_grows hx) hk, ?_⟩
  rintro id rfl
  rcases hx with ⟨id', -, hid, rfl, -⟩ | ⟨⟨e, he⟩, -⟩
  · rcases hid with hid | ⟨e, he⟩
    · cases hid
      exact ⟨Function.update_self .., row, Function.update_self .., rfl⟩
    · cases he
  · cases he

lemma createReverseSwap_safe (hK : Persists K) (payer : Payer) (sats : ℕ) (address : String) (chan : Option String) :
    (own T).Safe t (Made payer K) (createReverseSwap payer sats address chan) K := by
  refine .bind (ask hK (by trivial)) (fun offer => ?_) fun _ _ _ hk => hk
  rcases offer with err | ⟨offer, invoice⟩
  · exact fun _ _ hk => hk
  · refine (insertSwap_safe hK payer _).bind (fun id w _ h => ?_) fun _ _ _ h => h.1
    exact ⟨h.1, h.2 id rfl⟩

lemma initiateSwap_safe (sats : ℕ) (address : String) (chan : Option String) (percent : ℚ) (queue : Bool) :
    (own T).Obeys t (initiateSwap sats address chan percent queue) := by
  refine (createReverseSwap_safe persists_true .wallet sats address chan).andThen fun made => ?_
  rcases made with err | ⟨id, row⟩
  · exact .ret
  dsimp only
  split
  · have hk := (persists_true (T := T)).and (persists_known id .wallet row.boltzInvoice)
    exact (call_safe (c := .delay _) hk fun w h => ⟨_, h.2⟩).andThen fun _ => .ret
  · exact .ret

end Rules

/-! ## Ticks -/

section Ticks

variable {t : T} {K : World T → Prop} {session : SessionCopy}

/-- A copy that the two handlers of a tick may commit. -/
structure Handled (K : World T → Prop) (session : SessionCopy) : Prop where
  noted : ∀ w, K w → Sound w session
  moved : ∀ w, K w → ∀ status, status.asked → status ≠ session.current.status → Sound w (session.transition status)

lemma Sound.setError {w : World T} (h : Sound w session) (text : Option String) : Sound w (session.setError text) :=
  ⟨h.source, h.swap, h.status⟩

section

variable (hK : Persists K)
include hK

lemma commit_safe (hs : ∀ w, K w → Sound w session) : Keeps t K (call (.commit swaps (some session))) := by
  refine call_safe hK fun w hk copy hc => ?_
  cases hc
  exact hs w hk

lemma commitRows_safe (swaps : List Copy) :
    Keeps t K (call (.commit swaps none)) :=
  call_safe hK fun _ _ _ hc => by cases hc

section

variable (h : Handled K session)
include h

lemma transient_safe (e : Raised) :
    Keeps t K (transient session e) :=
  commit_safe hK fun w hk => (h.noted w hk).setError _

lemma hardFail_safe (hne : session.current.status ≠ .failed) (text : String) :
    Keeps t K (hardFail session text) :=
  commit_safe hK fun w hk => (h.moved w hk .failed rfl (Ne.symm hne)).setError _

lemma guarded_safe {α : Type} {code : Code α} {next : α → Code Unit} {Q : Except Raised α → World T → Prop}
    {A : World T → Prop} (hc : (own T).Safe t Q code A)
    (hr : ∀ e w, Q (.error e) w → K w) (hn : ∀ a, (own T).Safe t (fun _ => K) (next a) (Q (.ok a))) :
    (own T).Safe t (fun _ => K) (guarded session code next) A := by
  refine hc.attempt.seq fun r => ?_
  cases r with
  | ok a => exact hn a
  | error e => exact (transient_safe hK h e).weaken fun w _ hq => hr e w hq

lemma guardedCall_safe {next : Reply c → Code Unit} (hn : ∀ a, Keeps t K (next a)) (hc : Routine c) : Keeps t K (guarded session (call c) next) :=
  guarded_safe hK h (ask hK hc) (fun _ _ hk => hk) hn

lemma demand_safe {α : Type} {code : Code (Except String α)} {next : α → Code Unit}
    {Q : Except Raised (Except String α) → World T → Prop} {A : World T → Prop} (hne : session.current.status ≠ .failed) (hc : (own T).Safe t Q code A) (hr : ∀ e w, Q (.error e) w → K w)
    (he : ∀ err w, Q (.ok (.error err)) w → K w)
    (hn : ∀ a, (own T).Safe t (fun _ => K) (next a) (Q (.ok (.ok a)))) (text : String) :
    (own T).Safe t (fun _ => K) (demand session text code next) A := by
  refine guarded_safe hK h hc hr fun answer => ?_
  cases answer with
  | ok a => exact hn a
  | error err => exact (hardFail_safe hK h hne _).weaken fun w _ hq => he err w hq

end

lemma saveSession_safe {next : SessionCopy → Code Unit} (hs : ∀ w, K w → Sound w session)
    (hb : Handled K session.rolledBack) (hn : Keeps t K (next session.saved)) :
    Keeps t K (saveSession swaps session next) := by
  refine (commit_safe hK hs).attempt.seq fun r => ?_
  cases r with
  | ok _ => exact hn
  | error e => exact transient_safe hK hb e

lemma saveLast_safe (hs : ∀ w, K w → Sound w session) (hb : Handled K session.rolledBack) :
    Keeps t K (saveSession swaps session fun _ => return ()) :=
  saveSession_safe hK hs hb return_safe

omit hK in
lemma permitted_of_drives {fine : Copy → Prop} {pays : SwapId → String → Prop} {w : World T} (hc : Drives fine pays c)
    (hp : ∀ id text, pays id text → Known id .wallet (some text) w) : Permitted c w := by
  cases c with
  | commit swaps session =>
    cases session with
    | none => exact fun _ hco => by cases hco
    | some copy => exact hc.elim
  | sendPaymentV2 id payment => exact hp _ _ hc
  | delay | retry => exact hc.elim
  | _ => trivial

lemma advanceSwap_safe (swap : Copy) (unsaved : List Copy) : Keeps t K (advanceSwap swap unsaved) := by
  have ha : Closed fun _ : Copy => True := ⟨fun _ _ _ => trivial, fun _ => trivial, fun _ => trivial⟩
  exact (within_safe (advanceSwap_within ha trivial fun _ _ => trivial) hK fun _ _ hc _ =>
    permitted_of_drives hc fun _ _ => False.elim).post fun _ _ _ h => h.2

lemma cancelRow_safe (swap : Copy) : Keeps t K (cancelSwap swap) := by
  unfold cancelSwap
  split
  · exact return_safe
  · exact (commitRows_safe hK _).bind fun _ => return_safe

end

/-! ### A session that the user does not pay for -/

structure Mine (sid : SessionId) (kind : BraiinsDepositSourceKind) (session : SessionCopy) : Prop where
  id : session.id = sid
  stored : session.stored.sourceKind = kind
  current : session.current.sourceKind = kind

def Source (sid : SessionId) (kind : BraiinsDepositSourceKind) (w : World T) : Prop :=
  ∀ row, w.sessions sid = some row → row.sourceKind = kind

lemma persists_source (sid : SessionId) (kind : BraiinsDepositSourceKind) : Persists (Source (T := T) sid kind) := by
  intro w w' hg h row hr
  have hk := hg.source sid
  rw [hr] at hk
  obtain ⟨before, hb, heq⟩ := map_eq_some_iff.1 hk.symm
  exact heq.symm.trans (h before hb)

section Others

variable {sid : SessionId} {kind : BraiinsDepositSourceKind}

lemma Mine.sound (h : Mine sid kind session) (hk : kind ≠ .extLightning) {w : World T} (hw : Source sid kind w) :
    Sound w session := by
  have hn : session.stored.sourceKind ≠ .extLightning := h.stored ▸ hk
  refine ⟨fun row hr => ?_, fun he => (hn he).elim, fun he => (hn he).elim⟩
  rw [h.stored]
  exact hw row (h.id ▸ hr)

/-- What a task knows that ticks such a session. -/
structure Others (sid : SessionId) (kind : BraiinsDepositSourceKind) (K : World T → Prop) : Prop where
  persists : Persists K
  source : ∀ w, K w → Source sid kind w
  kind : kind ≠ .extLightning

variable (hK : Others sid kind K)

include hK

lemma Others.ticks : Ticks (Keeps t K) (Mine sid kind) where
  ret _ := return_safe
  bind hp hf := hp.bind hf
  attempt hp := hp.attempt.post fun r _ _ hk => by cases r <;> first | exact hk | exact hk.elim
  ask hc := Swaps.ask hK.persists hc
  commit h := commit_safe hK.persists fun w hk => h.sound hK.kind (hK.source w hk)
  set h hf := ⟨h.id, h.stored, (hf _).1.trans h.current⟩
  saved h := ⟨h.id, h.current, h.current⟩
  rolledBack h := ⟨h.id, h.stored, h.stored⟩

lemma Others.handled (h : Mine sid kind session) : Handled K session :=
  ⟨fun w hk => h.sound hK.kind (hK.source w hk),
    fun w hk status _ _ => (⟨h.id, h.stored, h.current⟩ : Mine sid kind (session.transition status)).sound hK.kind
      (hK.source w hk)⟩

lemma Others.reverseLeg (quote : Quote) (address : String) (chan : Option String) (h : Mine sid kind session) :
    Keeps t K (reverseLeg session quote address chan) := by
  refine guarded_safe hK.persists (hK.handled h) (createReverseSwap_safe hK.persists .wallet _ address chan)
    (fun _ _ hk => hk) fun made => ?_
  rcases made with err | ⟨id, row⟩
  · exact hK.ticks.hardFail h _
  have hkn : Others sid kind fun w => K w ∧ Known id .wallet row.boltzInvoice w :=
    ⟨hK.persists.and (persists_known id .wallet _), fun w hk => hK.source w hk.1, hK.kind⟩
  have hl : Mine sid kind ((session.set fun s => { s with boltzSwapId := some id }).transition .swapping) :=
    ⟨h.id, h.stored, h.current⟩
  refine (hkn.ticks.save hl fun _ => ?_).post fun _ _ _ hk => hk.1
  exact (call_safe (c := .delay _) hkn.persists fun _ hk => ⟨_, hk.2⟩).attempt.seq fun _ => return_safe

lemma Others.fundSubmarine (h : Mine sid kind session) (swap : Copy) : Keeps t K (fundSubmarine session swap) := by
  have hS := hK.ticks (t := t)
  unfold Swaps.fundSubmarine
  split
  · exact hS.submarineFunded h
  refine hS.guarded h (hS.ask (by trivial)) fun refusal => ?_
  cases refusal with
  | some refusal => exact hS.bind (hS.attempt (hS.cancelSwap swap)) fun _ => hS.hardFail h refusal
  | none =>
    refine hS.demand h (call_safe hK.persists fun _ _ => by trivial) (fun txid => ?_) _
    exact hS.save ⟨h.id, h.stored, h.current⟩ hS.submarineFunded

lemma Others.makeSubmarine (h : Mine sid kind session) (quote : Quote) (invoice : Option Invoice) :
    Keeps t K (makeSubmarine session quote invoice) := by
  have hS := hK.ticks (t := t)
  unfold Swaps.makeSubmarine
  split
  · refine hS.guarded h (hS.ask (by trivial)) fun row => ?_
    cases row with
    | none => exact hS.hardFail h _
    | some row => exact hK.fundSubmarine h _
  · exact hS.hardFail h _
  · refine hS.demand h (hS.createSubmarineSwap _ _) (fun ⟨id, row⟩ => ?_) _
    exact hS.save (hS.set h fun _ => ⟨rfl, rfl, rfl⟩) fun hs => hK.fundSubmarine hs _

lemma Others.advanceCreatedOnchain (h : Mine sid kind session) : Keeps t K (advanceCreatedOnchain session) := by
  have hS := hK.ticks (t := t)
  refine hS.demand h (hS.ask (c := .quote) trivial) (fun quote => ?_) _
  split
  · refine hS.demand h (hS.ask (c := .createInvoice _) trivial) (fun invoice => ?_) _
    exact hS.save (hS.set h fun _ => ⟨rfl, rfl, rfl⟩) fun hs => hK.makeSubmarine hs quote _
  · exact hS.demand h (hS.ask (c := .lookupInvoice _) trivial) (fun invoice => hK.makeSubmarine h quote _) _
  · exact hK.makeSubmarine h quote _

lemma Others.openWithAny (sid' : SessionId) (sats : ℕ) (openErrors connectErrors : List String)
    (peers : List ChannelPeer) : Keeps t K (openWithAny sid' sats openErrors connectErrors peers) := by
  induction peers generalizing openErrors connectErrors with
  | nil => exact return_safe
  | cons peer peers ih =>
    refine (call_safe hK.persists fun _ _ => by trivial).bind fun connected => ?_
    cases connected with
    | error err => exact ih _ _
    | ok _ =>
      refine (call_safe hK.persists fun _ _ => by trivial).bind fun opened => ?_
      cases opened with
      | error err => exact ih _ _
      | ok txid => exact return_safe

lemma Others.openChannel (settings : Settings) (h : Mine sid kind session) (quote : Quote) :
    Keeps t K (openChannel settings session quote) := by
  have hS := hK.ticks (t := t)
  unfold Swaps.openChannel
  split
  · exact hS.hardFail h _
  · exact hS.hardFail h _
  refine hS.guarded h (hK.openWithAny _ _ _ _ _) fun opened => ?_
  split
  · exact hS.saveLast ⟨h.id, h.stored, h.current⟩
  · exact hS.transient h _
  · exact hS.hardFail h _

lemma Others.viaChannel (settings : Settings) (h : Mine sid kind session) :
    Keeps t K (advanceCreatedOnchainViaChannel settings session) := by
  have hS := hK.ticks (t := t)
  unfold advanceCreatedOnchainViaChannel
  split
  · split
    · exact hS.saveLast (hS.transition h _)
    · exact return_safe
  · exact hS.demand h (hS.ask (c := .quote) trivial) (hK.openChannel settings h) _

end Others

/-! ### Any session -/

section Loaded

variable {sid : SessionId} {row : BraiinsDepositSession} (hK : Persists K)
  (hsource : ∀ w, K w → Source sid row.sourceKind w)

lemma load_handled (hsource : ∀ w, K w → Source sid row.sourceKind w) : Handled K (.load sid row) := by
  refine ⟨fun w hk => ⟨hsource w hk, fun _ => .inl rfl, fun _ => .inl ⟨rfl, rfl⟩⟩, fun w hk status ha hne => ?_⟩
  exact ⟨hsource w hk, fun _ => .inl rfl, fun _ => .inr ⟨hne, ha⟩⟩

include hK hsource

lemma move_safe {status : BraiinsDepositStatus} (ha : status.asked) (hne : status ≠ row.status) :
    Keeps t K (saveSession swaps ((SessionCopy.load sid row).transition status) fun _ => return ()) :=
  saveLast_safe hK (fun w hk => (load_handled hsource).moved w hk status ha hne) (load_handled hsource)

lemma followEnd_safe {status : BraiinsDepositStatus} (ha : status.asked) (hne : status ≠ row.status) (swap : Copy) : Keeps t K (followEnd swaps (.load sid row) swap status) :=
  saveLast_safe hK (fun w hk => ((load_handled hsource).moved w hk status ha hne).setError _) (load_handled hsource)

lemma followUserPaid_safe (hs : row.status = .awaitingLnFunds) (advanced : Advanced) :
    Keeps t K (followUserPaid (.load sid row) advanced) := by
  have hne : ∀ status, status ≠ .awaitingLnFunds → status ≠ row.status := fun status h => hs ▸ h
  unfold followUserPaid
  dsimp only
  split
  · exact move_safe hK hsource rfl (hne _ (by decide))
  · exact followEnd_safe hK hsource rfl (hne _ (by decide)) _
  · split
    · exact followEnd_safe hK hsource rfl (hne _ (by decide)) _
    · exact followEnd_safe hK hsource rfl (hne _ (by decide)) _
  · split
    · exact move_safe hK hsource rfl (hne _ (by decide))
    · exact return_safe

lemma awaitingLn_safe (hs : row.status = .awaitingLnFunds) : Keeps t K (advanceAwaitingLnFunds (.load sid row)) := by
  have hn : row.status ≠ .failed := hs ▸ by decide
  unfold advanceAwaitingLnFunds
  split
  · exact hardFail_safe hK (load_handled hsource) hn _
  refine guardedCall_safe hK (load_handled hsource) (fun swap => ?_) (by trivial)
  cases swap with
  | none => exact hardFail_safe hK (load_handled hsource) hn _
  | some swap =>
    refine (advanceSwap_safe hK _ _).bind fun advanced => ?_
    split
    · exact return_safe
    refine guardedCall_safe hK (load_handled hsource) (fun again => ?_) (by trivial)
    cases again with
    | none => exact return_safe
    | some again => exact followUserPaid_safe hK hsource hs advanced

lemma swapping_safe (hs : row.status = .swapping) : Keeps t K (advanceSwapping (.load sid row)) := by
  have hne : ∀ status, status ≠ .swapping → status ≠ row.status := fun status h => hs ▸ h
  unfold advanceSwapping
  split
  · exact hardFail_safe hK (load_handled hsource) (hne _ (by decide)).symm _
  refine guardedCall_safe hK (load_handled hsource) (fun swap => ?_) (by trivial)
  cases swap with
  | none => exact hardFail_safe hK (load_handled hsource) (hne _ (by decide)).symm _
  | some swap =>
    dsimp only
    split
    · exact move_safe hK hsource rfl (hne _ (by decide))
    · exact followEnd_safe hK hsource rfl (hne _ (by decide)) _
    · exact followEnd_safe hK hsource rfl (hne _ (by decide)) _
    · exact return_safe

/-- The invoice of the reverse swap goes to the user. -/
lemma createdExtLightning_safe (hs : row.status = .created) :
    Keeps t K (advanceCreatedExtLightning (.load sid row)) := by
  have hn : row.status ≠ .failed := hs ▸ by decide
  refine demand_safe hK (load_handled hsource) hn (ask hK (by trivial)) (fun _ _ hk => hk)
    (fun _ _ hk => hk) (fun quote => ?_) _
  refine demand_safe hK (load_handled hsource) hn (ask hK (by trivial)) (fun _ _ hk => hk)
    (fun _ _ hk => hk) (fun address => ?_) _
  refine demand_safe hK (load_handled hsource) hn (createReverseSwap_safe hK .user _ address none) (fun _ _ hk => hk)
    (fun _ _ hk => hk) (fun ⟨id, swap⟩ => ?_) _
  have hkn := hK.and (persists_known id .user swap.boltzInvoice)
  refine (saveLast_safe hkn (fun w hk => ?_) (load_handled fun w hk => hsource w hk.1)).post
    fun _ _ _ hk => hk.1
  have hm : BraiinsDepositStatus.awaitingLnFunds ≠ row.status := hs ▸ by decide
  exact ⟨hsource w hk.1, fun _ => .inr ⟨id, _, rfl, hk.2⟩, fun _ => .inr ⟨hm, rfl⟩⟩

lemma cancelled_own (hne : .cancelled ≠ row.status) :
    Keeps t K (cancelled (.load sid row)) :=
  (commit_safe hK fun w hk => (load_handled hsource).moved w hk .cancelled rfl hne).bind fun _ => return_safe

lemma cancelBoth_own (hne : .cancelled ≠ row.status) (swap : Copy) : Keeps t K (cancelBoth (.load sid row) swap) := by
  refine (cancelRow_safe hK swap).bind fun ⟨ok, err⟩ => ?_
  dsimp only
  split
  · exact cancelled_own hK hsource hne
  · exact return_safe

lemma cancelLoaded_own : Keeps t K (cancelLoaded (.load sid row)) := by
  unfold cancelLoaded
  split
  case h_1 hs => exact cancelled_own hK hsource fun h => by cases h.trans hs
  case h_2 hs =>
    unfold cancelSwapping
    split
    · exact return_safe
    refine (ask hK (by trivial)).bind fun swap => ?_
    cases swap with
    | none => exact return_safe
    | some swap =>
      dsimp only
      split
      · exact return_safe
      · exact cancelBoth_own hK hsource (fun h => by cases h.trans hs) _
  case h_3 => exact return_safe
  case h_4 => exact return_safe
  case h_5 hs =>
    have hne : .cancelled ≠ row.status := fun h => by cases h.trans hs
    unfold cancelAwaiting
    split
    · exact cancelled_own hK hsource hne
    refine (ask hK (by trivial)).bind fun swap => ?_
    cases swap with
    | none => exact cancelled_own hK hsource hne
    | some swap =>
      dsimp only
      split
      · exact cancelBoth_own hK hsource hne _
      · exact cancelled_own hK hsource hne
  case h_6 hs =>
    unfold cancelBeforeFunds
    split
    · exact cancelled_own hK hsource fun h => by cases h.trans hs
    · refine (commit_safe hK fun w hk => Sound.setError ?_ _).bind fun _ => return_safe
      exact (load_handled hsource).moved w hk .failed rfl fun h => by cases h.trans hs
  case h_7 =>
    split <;> exact return_safe

lemma dispatch_safe (settings : Settings) (hon : row.sourceKind = .extLightning →
      row.status = .created ∧ .awaitingLnFunds ∉ row.statusHistory ∨ row.status.asked) :
    Keeps t K (dispatch settings (.load sid row)) := by
  by_cases he : row.sourceKind = .extLightning
  · unfold dispatch
    split
    case h_1 hs =>
      have hf : row.status = .created ∧ .awaitingLnFunds ∉ row.statusHistory := by
        refine (hon he).resolve_right fun ha => ?_
        have hs : row.status = .created := hs
        rw [hs] at ha
        cases ha
      unfold dispatchCreated
      rw [if_pos ⟨he, hf.2⟩]
      exact createdExtLightning_safe hK hsource hf.1
    case h_2 hs => exact awaitingLn_safe hK hsource hs
    case h_6 hs => exact swapping_safe hK hsource hs
    case h_7 =>
      have hsk : advanceFailedSelfHeal (.load sid row) = .ret () := by
        refine if_pos (show row.sourceKind ∉ _ from ?_)
        rw [he]
        decide
      rw [hsk]
      exact return_safe
    case h_8 => exact return_safe
    -- no such session waits for funds on chain, for a lockup or for a channel
    all_goals
      rename_i hs
      have hs : row.status = _ := hs
      rcases hon he with ⟨hc, -⟩ | ha
      · cases hc.symm.trans hs
      · rw [hs] at ha
        cases ha
  · have ho : Others sid row.sourceKind K := ⟨hK, hsource, he⟩
    have hm : Mine sid row.sourceKind (.load sid row) := ⟨rfl, rfl, rfl⟩
    unfold dispatch
    split
    case h_1 =>
      unfold dispatchCreated
      rw [if_neg fun h => he h.1]
      split
      · exact ho.ticks.advanceCreatedExtOnchain hm
      split
      · exact ho.ticks.advanceCreated ho.reverseLeg hm
      split
      · exact ho.viaChannel settings hm
      · split
        · exact ho.advanceCreatedOnchain hm
        · exact ho.ticks.advanceCreated ho.reverseLeg hm
    case h_2 hs => exact awaitingLn_safe hK hsource hs
    case h_3 => exact ho.ticks.advanceAwaitingOnchainFunds hm
    case h_4 => exact ho.ticks.advanceSubmarineSwapping ho.reverseLeg hm
    case h_5 => exact ho.ticks.advanceOpeningChannel ho.reverseLeg hm
    case h_6 hs => exact swapping_safe hK hsource hs
    case h_7 => exact ho.ticks.bind (ho.ticks.attempt (ho.ticks.advanceFailedSelfHeal hm)) fun _ => return_safe
    case h_8 => exact return_safe

end Loaded

lemma closeOwn_safe (hK : Persists K) : (own T).Safe t (Returns fun _ => K) (call .close) K :=
  .answered (fun _ => hK.stable) fun w _ w' _ hk hx => ⟨trivial, (), hx.2.1, fun _ => hK w w' (exec_grows hx.2) hk⟩

def ReadSession (sid : SessionId) : Except Raised (Option BraiinsDepositSession) → World T → Prop
  | .ok (some row), w => Source sid row.sourceKind w ∧ (row.sourceKind = .extLightning →
      row.status = .created ∧ .awaitingLnFunds ∉ row.statusHistory ∨ row.status.asked)
  | _, _ => True

lemma selectSession_safe (sid : SessionId) :
    (own T).Safe t (ReadSession sid) (call (.selectSessionForUpdate sid)) fun _ => True := by
  refine .call (fun r => ?_) fun w r w' hi _ ⟨_, hx⟩ => ⟨trivial, fun _ => ?_⟩
  · rcases r with _ | (_ | row)
    · exact .const _
    · exact .const _
    · exact (persists_source sid _).stable.and (.const _)
  · rcases hx with ⟨hr | rfl, rfl⟩ | ⟨⟨e, rfl⟩, -⟩
    · cases hro : w'.sessions sid with
      | none =>
        rw [hro] at hr
        subst hr
        trivial
      | some row =>
        rw [hro] at hr
        subst hr
        refine ⟨fun row' hro' => ?_, fun he => (hi.sessions sid row hro he).once⟩
        cases hro.symm.trans hro'
        rfl
    · trivial
    · trivial

lemma advance_safe (settings : Settings) (sid : SessionId) : (own T).Obeys t (advance settings sid) := by
  refine .tryFinally ?_ fun _ => closeOwn_safe persists_true
  refine (selectSession_safe sid).andThen fun row => ?_
  cases row with
  | none => exact .ret
  | some row =>
    exact .weaken (.and fun ho => (dispatch_safe (persists_source sid _) (fun _ hk => hk) settings
      ho).silent) fun w _ h => ⟨h.2, h.1⟩

lemma cancelSession_own (sid : SessionId) : (own T).Obeys t (cancelSession sid) := by
  refine .tryFinally ?_ fun _ => closeOwn_safe persists_true
  refine (selectSession_safe sid).andThen fun row => ?_
  cases row with
  | none => exact .ret
  | some row => exact ((cancelLoaded_own (persists_source sid _) fun _ hk => hk).silent).weaken fun w _ h => h.1

end Ticks

/-! ## The other tasks -/

section Tasks

variable {t : T} {K : World T → Prop} {settings : Settings}

structure Invoiced (id : SwapId) (invoice : Option String) (swap : Copy) : Prop where
  id : swap.id = id
  current : swap.current.boltzInvoice = invoice
  stored : swap.stored.boltzInvoice = invoice

lemma invoiced_closed (id : SwapId) (invoice : Option String) : Closed (Invoiced id invoice) where
  set h hi _ := ⟨h.id, hi.trans h.current, h.stored⟩
  saved h := ⟨h.id, h.current, h.current⟩
  rolledBack h := ⟨h.id, h.stored, h.stored⟩

/-- A task that drives a swap of the wallet pays its invoice and no other. -/
lemma processCopy_own {invoice : Option String} {swap : Copy} (hs : Invoiced id invoice swap) (percent : ℚ) :
    (own T).Safe t (fun _ => Known id .wallet invoice) (processCopy settings swap percent) (Known id .wallet invoice) := by
  have hw : (processCopy settings swap percent).Within
      (Drives (Invoiced id invoice) fun id' text => id' = id ∧ invoice = some text) fun _ => True :=
    processCopy_within (invoiced_closed id invoice) hs (fun _ _ h ht => ⟨h.id, h.current.symm.trans ht⟩) percent
  refine (within_safe hw (persists_known id .wallet invoice) fun c w hc hk => permitted_of_drives hc ?_).post
    fun _ _ _ h => h.2
  rintro _ _ ⟨rfl, rfl⟩
  exact hk

lemma processRow_own (id : SwapId) (invoice : Option String) (percent : ℚ) :
    (own T).Safe t (fun _ => Known id .wallet invoice) (processRow settings id percent) (Known id .wallet invoice) := by
  have hre : (own T).Safe t (fun r w => (∀ row, r = .ok (some row) → row.boltzInvoice = invoice) ∧
      Known id .wallet invoice w) (call (.selectSwap .processSwap id)) (Known id .wallet invoice) := by
    refine .call (fun r => (Protocol.Stable.const _).and (persists_known id .wallet invoice).stable)
      fun w r w' _ hk ⟨_, hx⟩ => ⟨trivial, fun _ => ⟨fun row hr => ?_, hk.mono (exec_grows hx)⟩⟩
    rcases hx with ⟨hre, -⟩ | ⟨⟨e, he⟩, -⟩
    · obtain ⟨-, row', hr', hi⟩ := hk
      rw [hr, hr'] at hre
      cases hre
      exact hi
    · rw [hr] at he
      cases he
  refine hre.bind (fun row => ?_) fun _ _ _ h => h.2
  cases row with
  | none => exact fun _ _ h => h.2
  | some row =>
    refine .and fun hi => ?_
    dsimp only
    split
    · exact return_safe
    · have hc : Invoiced id invoice (.load id row) := ⟨rfl, hi row rfl, hi row rfl⟩
      exact processCopy_own hc percent

lemma runProcessSwap_own (id : SwapId) (invoice : Option String) (percent : ℚ) :
    (own T).Safe t (fun _ => Known id .wallet invoice) (runProcessSwap settings id percent) (Known id .wallet invoice) := by
  refine .tryFinally ?_ fun _ => closeOwn_safe (persists_known id .wallet invoice)
  exact (processRow_own id invoice percent).tryExcept (fun _ => return_safe) fun _ _ _ hk => hk

lemma markSwapFailed_own (hK : Persists K) (id : SwapId) (text : String) : Keeps t K (markSwapFailed id text) := by
  refine .tryFinally ?_ fun _ => closeOwn_safe hK
  refine (ask hK (by trivial)).bind fun row => ?_
  cases row with
  | none => exact return_safe
  | some row =>
    dsimp only
    split
    · exact return_safe
    · exact commitRows_safe hK _

lemma processBoltzSwap_own {message : Message} (invoice : Option String) :
    (own T).Obeys t (processBoltzSwap settings message) (Known message.swapId .wallet invoice) := by
  have hK : Persists (Known message.swapId .wallet invoice : World T → Prop) := persists_known _ _ _
  refine (runProcessSwap_own message.swapId invoice _).andThen fun result => ?_
  split
  · exact .ret
  refine (call_safe (c := .retry message) hK fun _ hk => ⟨invoice, hk⟩).andThen fun again => ?_
  split
  · exact .ret
  · exact (markSwapFailed_own hK _ _).attempt.seq fun _ _ _ _ => trivial

/-- A message in the queue is about a row that the wallet pays. -/
lemma runWorker_own : (own T).Obeys t (runWorker settings) := by
  have hr : (own T).Safe t (IfReturns fun message w => ∃ invoice, Known message.swapId .wallet invoice w)
      (call .receive) fun _ => True := by
    refine .call (Protocol.Stable.ifReturns fun message => .exists fun invoice =>
      (persists_known _ _ invoice).stable) fun w r w' hi _ ⟨_, hx⟩ => ⟨trivial, fun _ => ?_⟩
    obtain ⟨message, hm, rfl, rfl⟩ := hx
    exact hi.queue message hm
  exact hr.andThen fun message => .exists fun invoice => processBoltzSwap_own invoice

/-- The rows that a sweep queues are those that the wallet pays. -/
def Queues (rows : List (SwapId × BoltzSwap)) (w : World T) : Prop :=
  ∀ id row, (id, row) ∈ rows → row.status ∈ [SwapStatus.created, .payingInvoice] → ∃ invoice, Known id .wallet invoice w

lemma persists_queues (rows : List (SwapId × BoltzSwap)) : Persists (Queues (T := T) rows) := by
  intro w w' hg h id row hm hs
  obtain ⟨invoice, hk⟩ := h id row hm hs
  exact ⟨invoice, hk.mono hg⟩

lemma recoverEach_own (unsaved : List Copy) (rows : List (SwapId × BoltzSwap)) :
    (own T).Obeys t (recoverEach unsaved rows) (Queues rows) := by
  induction rows generalizing unsaved with
  | nil => exact .ret
  | cons entry rows ih =>
    obtain ⟨id, row⟩ := entry
    have hr : ∀ unsaved, (own T).Obeys t (recoverEach unsaved rows) (Queues ((id, row) :: rows)) :=
      fun unsaved => (ih unsaved).weaken fun w _ h id' row' hm => h id' row' (List.mem_cons_of_mem _ hm)
    have hK : Persists (Queues (T := T) ((id, row) :: rows)) := persists_queues _
    unfold recoverEach
    split
    case isTrue hs =>
      have hq : ∀ w : World T, Queues ((id, row) :: rows) w → Permitted (.delay { swapId := id }) w :=
        fun w h => h id row List.mem_cons_self hs
      refine (call_safe hK hq).attempt.seq fun queued => ?_
      exact (hr unsaved).andThen fun _ => .ret
    case isFalse =>
      refine (advanceSwap_safe hK _ _).andThen fun advanced => ?_
      exact (hr _).andThen fun _ => .ret

lemma runRecoverSwaps_own : (own T).Obeys t runRecoverSwaps := by
  have hs : (own T).Safe t (IfReturns Queues) (call .selectPending) fun _ => True := by
    refine .call (Protocol.Stable.ifReturns fun rows => (persists_queues rows).stable)
      fun w r w' _ _ ⟨hc, hx⟩ => ⟨trivial, fun _ => ?_⟩
    rcases hx with ⟨rows, rfl, -, hro, rfl⟩ | ⟨⟨e, rfl⟩, -⟩
    · intro id row hm hst
      obtain ⟨hrow, -⟩ := (hro id row).1 hm
      exact ⟨row.boltzInvoice, hc id row hrow hst, row, hrow, rfl⟩
    · trivial
  have hr : (own T).Obeys t recoverPendingSwaps :=
    hs.andThen fun rows => recoverEach_own [] rows
  refine .tryFinally ?_ fun _ => closeOwn_safe persists_true
  exact hr.tryExcept (fun _ _ _ _ => trivial) fun _ _ _ _ => trivial

lemma claimAgain_own (hK : Persists K) (swap : Copy) {claim : Code (Except String String)}
    (hc : Keeps t K claim) : Keeps t K (claimAgain swap claim) := by
  refine (ask hK (by trivial)).bind fun existing => ?_
  cases existing with
  | some existing => exact (commitRows_safe hK _).bind fun _ => return_safe
  | none =>
    refine hc.bind fun answer => ?_
    cases answer with
    | error err => exact (commitRows_safe hK _).bind fun _ => return_safe
    | ok txid =>
      refine (ask hK (by trivial)).bind fun existing => ?_
      exact (commitRows_safe hK _).bind fun _ => return_safe

lemma retryCooperativeClaim_own (hK : Persists K) (swap : Copy) : Keeps t K (retryCooperativeClaim swap) := by
  unfold retryCooperativeClaim
  split
  · exact return_safe
  split
  · exact return_safe
  refine (ask hK (by trivial)).bind fun lockup => ?_
  rcases lockup with err | (_ | lockupHex)
  · exact return_safe
  · exact return_safe
  · exact claimAgain_own hK swap (ask hK (by trivial))

lemma retryUnilateralClaim_own (hK : Persists K) (swap : Copy) (tip : Option ℤ) :
    Keeps t K (retryUnilateralClaim swap tip) := by
  unfold retryUnilateralClaim
  split
  · exact return_safe
  · exact return_safe
  refine (ask hK (by trivial)).bind fun lockup => ?_
  rcases lockup with err | (_ | lockupHex)
  · exact return_safe
  · exact return_safe
  · exact claimAgain_own hK swap (ask hK (by trivial))

lemma onRow_own {α : Type} (hK : Persists K) (reader : Reader) (id : SwapId) (missing : α) {work : Copy → Code α}
    (hw : ∀ swap, Keeps t K (work swap)) : Keeps t K (onRow reader id missing work) := by
  refine .tryFinally ?_ fun _ => closeOwn_safe hK
  refine (ask hK (by trivial)).bind fun row => ?_
  cases row with
  | none => exact return_safe
  | some row => exact hw _

lemma code_own (program : Program) : (own T).Obeys t (program.code settings) := by
  cases program with
  | worker => exact runWorker_own.andThen fun _ => .ret
  | sweep => exact runRecoverSwaps_own.andThen fun _ => .ret
  | tick session => exact (advance_safe settings session).andThen fun _ => .ret
  | initiate sats destination chan percent queue =>
    exact (initiateSwap_safe sats destination chan percent queue).andThen fun _ => .ret
  | cooperativeClaim swap =>
    exact (onRow_own persists_true _ swap _ fun copy => retryCooperativeClaim_own persists_true copy).andThen fun _ => .ret
  | unilateralClaim swap tip =>
    exact (onRow_own persists_true _ swap _ fun copy => retryUnilateralClaim_own persists_true copy tip).andThen fun _ => .ret
  | cancel swap =>
    exact (onRow_own persists_true _ swap _ fun copy => cancelRow_safe persists_true copy).andThen fun _ => .ret
  | cancelDeposit session => exact (cancelSession_own session).andThen fun _ => .ret

end Tasks

/-! ## Whole runs -/

/-- Nothing has happened yet: there are no rows, and the sessions are as created. -/
structure Fresh (w : World T) : Prop where
  swaps : ∀ id, w.swaps id = none
  queue : w.queue = []
  log : w.log = []
  sessions : ∀ id session, w.sessions id = some session →
    session.status = .created ∧ session.statusHistory = [.created] ∧ session.boltzSwapId = none

/-- The invoice is one that the wallet is not meant to pay: that of a submarine swap,
or that of a reverse swap which the user of a deposit is asked to pay. -/
def Misdirected (w : World T) (invoice : String) : Prop :=
  (∃ id row, w.swaps id = some row ∧ row.boltzInvoice = some invoice ∧ w.payer id = .boltz) ∨
  ∃ sid session id row, w.sessions sid = some session ∧ session.sourceKind = .extLightning ∧
    session.status = .awaitingLnFunds ∧ session.boltzSwapId = some id ∧ w.swaps id = some row ∧
    row.boltzInvoice = some invoice

lemma Fresh.meant {w : World T} (h : Fresh w) : Meant w := by
  refine ⟨fun message hm => ?_, fun id invoice hm => ?_, fun id _ row _ hr => ?_, fun id session hs _ => ?_⟩
  · rw [h.queue] at hm
    cases hm
  · unfold World.sends at hm
    rw [h.log] at hm
    cases hm
  · cases (h.swaps id).symm.trans hr
  · obtain ⟨hst, hh, hl⟩ := h.sessions id session hs
    refine ⟨fun swap hsw => ?_, .inl ⟨hst, ?_⟩⟩
    · cases hl.symm.trans hsw
    · rw [hh]
      decide

lemma Meant.not_misdirected {w : World T} (h : Meant w) {invoice : String} (hse : (id, invoice) ∈ w.sends) :
    ¬ Misdirected w invoice := by
  obtain ⟨hp, row, hr, hi⟩ := h.sent id invoice hse
  -- another row with this invoice would be one that the wallet pays
  have ho : ∀ id' row', w.swaps id' = some row' → row'.boltzInvoice = some invoice → w.payer id' = .wallet := by
    intro id' row' hr' hi'
    rcases h.invoice id id' row row' hr hr' (hi.trans hi'.symm) with rfl | ⟨hb, -⟩
    · exact hp
    · cases hp.symm.trans hb
  rintro (⟨id', row', hr', hi', hb⟩ | ⟨sid, session, id', row', hs, he, -, hl, hr', hi'⟩)
  · cases (ho id' row' hr' hi').symm.trans hb
  · obtain ⟨_, hu, -⟩ := (h.sessions sid session hs he).swap id' hl
    cases (ho id' row' hr' hi').symm.trans hu

/-- The wallet pays only what it is meant to pay, as long as each sweep reads the
table when whatever is unpaid there is for the wallet to pay. -/
theorem pays_only_its_own {settings : Settings} {programs : T → Program} {w : World T} (hfresh : Fresh w)
    {cfg : Config T Command Reply Raised Outcome (World T)}
    (hreach : (sweepsOwn T).Reach ⟨w, fun t => (programs t).code settings⟩ cfg) :
    ∀ id invoice, (id, invoice) ∈ cfg.shared.sends → ¬ Misdirected cfg.shared invoice := by
  have hh : (own T).Holds (fun _ _ _ => True) ⟨w, fun t => (programs t).code settings⟩ :=
    ⟨hfresh.meant, fun t => ⟨fun _ => True, .const _, trivial, code_own (programs t)⟩⟩
  have hm : Meant cfg.shared := (hh.reach hreach).1
  intro id invoice hme
  exact hm.not_misdirected hme

/-! ## What a sweep pays -/

def onchainWorld : World ℕ where
  swaps := fun _ => none
  payer := fun _ => .wallet
  sessions := fun id => if id = 0 then some { sourceKind := .onchain } else none
  queue := []
  log := []
  reading := fun _ => none
  failing := fun _ => none

lemma onchainWorld_fresh : Fresh onchainWorld where
  swaps := fun _ => rfl
  queue := rfl
  log := rfl
  sessions := by
    intro id session hs
    have hid : (if id = 0 then some { sourceKind := .onchain } else none : Option BraiinsDepositSession) = some session :=
      hs
    split at hid
    · cases hid
      exact ⟨rfl, rfl, rfl⟩
    · cases hid

def withdrawal (n : ℕ) : Program := if n = 0 then .initiate 100000 "bc1q" none 3 true else .worker

theorem pays_only_its_own_withdrawal :
    ∃ cfg, (sweepsOwn ℕ).Reach ⟨onchainWorld, fun n => (withdrawal n).code {}⟩ cfg ∧
      cfg.shared.sends = [(0, "lnbc1")] ∧ ¬ Misdirected cfg.shared "lnbc1" := by
  have h0 : (sweepsOwn ℕ).Reach _ ⟨onchainWorld, fun n => (withdrawal n).code {}⟩ := .refl
  have h1 := h0.run 0 rfl (.ok (.ok ({ boltzSwapId := "a" }, "lnbc1"))) ⟨trivial, rfl⟩
  have h2 := h1.run 0 rfl (.ok (0 : ℕ)) ⟨trivial, .inl ⟨0, rfl, .inl rfl, rfl, fun _ _ h => by cases h⟩⟩
  have h3 := h2.run 0 rfl (.ok ()) ⟨trivial, .inl ⟨rfl, rfl⟩⟩
  have h4 := h3.run 1 rfl (.ok { swapId := 0 }) ⟨trivial, _, List.mem_singleton_self _, rfl, rfl⟩
  have h5 := h4.run 1 rfl (.ok (some freshRow)) ⟨trivial, .inl ⟨rfl, rfl⟩⟩
  have h6 := h5.run 1 rfl (.ok ()) ⟨trivial, .inl ⟨rfl, .inl rfl⟩⟩
  have h7 := h6.run 1 rfl (.ok ()) ⟨trivial, .inl ⟨rfl, .inl rfl⟩⟩
  exact ⟨_, h7, rfl, pays_only_its_own onchainWorld_fresh h7 0 "lnbc1" (List.mem_singleton_self _)⟩

def depositAndSweep (n : ℕ) : Program :=
  match n with
  | 0 => .tick 0
  | 1 => .sweep
  | _ => .worker

def submarineRow : BoltzSwap := {
  boltzSwapId := "a"
  invoiceAmountSats := 100000
  destinationAddress := ""
  boltzInvoice := some "lnbc1" }

/-- The tick of a deposit from on-chain funds makes the row of its submarine swap.
The sweep finds it in CREATED and queues its payment, and a worker hands the
invoice, which Boltz is to pay to this wallet, to LND. -/
theorem sweep_pays_submarine :
    ∃ cfg, (machine ℕ).Reach ⟨onchainWorld, fun n => (depositAndSweep n).code {}⟩ cfg ∧
      cfg.shared.sends = [(0, "lnbc1")] ∧ Misdirected cfg.shared "lnbc1" := by
  have h0 : (machine ℕ).Reach _ ⟨onchainWorld, fun n => (depositAndSweep n).code {}⟩ := .refl
  -- the tick: quote, invoice, its hash, the offer of Boltz, the row
  have h1 := h0.run 0 rfl (.ok (some { sourceKind := .onchain })) (.inl ⟨.inl rfl, rfl⟩)
  have h2 := h1.run 0 rfl (.ok (.ok { invoiceAmountSats := 1, submarineInvoiceAmountSats := 100000 })) rfl
  have h3 := h2.run 0 rfl (.ok (.ok { paymentRequest := "lnbc1", paymentHash := "h" })) rfl
  have h4 := h3.run 0 rfl (.ok ()) (.inl ⟨rfl, .inl rfl⟩)
  have h5 := h4.run 0 rfl (.ok (.ok { boltzSwapId := "a" })) rfl
  have h6 := h5.run 0 rfl (.ok (0 : ℕ)) (.inl ⟨0, rfl, .inl rfl, rfl, fun _ _ h => by cases h⟩)
  -- the sweep, and then a worker
  have h7 := h6.run 1 rfl (.ok [(0, submarineRow)]) (.inl ⟨_, rfl, List.pairwise_singleton _ _, ?rows, rfl⟩)
  case rows =>
    intro id row
    constructor
    · intro hm
      cases List.mem_singleton.1 hm
      exact ⟨rfl, rfl⟩
    · rintro ⟨hr, -⟩
      by_cases hid : id = 0
      · subst hid
        cases hr
        exact List.mem_singleton_self _
      · have hr : Function.update onchainWorld.swaps 0 (some submarineRow) id = some row := hr
        rw [Function.update_of_ne hid] at hr
        cases hr
  have h8 := h7.run 1 rfl (.ok ()) (.inl ⟨rfl, rfl⟩)
  have h9 := h8.run 2 rfl (.ok { swapId := 0 }) ⟨_, List.mem_singleton_self _, rfl, rfl⟩
  have h10 := h9.run 2 rfl (.ok (some submarineRow)) (.inl ⟨rfl, rfl⟩)
  have h11 := h10.run 2 rfl (.ok ()) (.inl ⟨rfl, .inl rfl⟩)
  have h12 := h11.run 2 rfl (.ok ()) (.inl ⟨rfl, .inl rfl⟩)
  exact ⟨_, h12, rfl, .inl ⟨0, _, rfl, rfl, rfl⟩⟩

end AgentWallet.Swaps
