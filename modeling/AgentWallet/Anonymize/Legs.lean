import AgentWallet.Anonymize.Effects
/-!
# The legs of a session pay once

The exit and the self payment are sent for a request that was committed in an earlier
transaction, so every send of a leg is for the same request.
-/

namespace AgentWallet.Anonymize.Session

open AgentWallet.Lib

variable (row : Row)

def Row.funds :
    Setup × SubmarineKeys × ReverseKeys × SelfPayKeys × LiquidKeys × Option Bolt12Outcome :=
  (row.setup, row.submarine, row.reverse, row.selfPay, row.liquid, row.bolt12)

@[simp] lemma funds_park (reason : String) : (row.park reason).funds = row.funds := by
  unfold Row.park
  split <;> rfl

lemma stamp_of_reads {α : Type} {f : Row → α} (hf : ∀ row now, f { row with updatedAt := now } = f row) (old : Row)
    (now : ℕ) : f (row.stamp now old) = f row := by
  unfold Row.stamp
  split
  · next h => rw [h]
  · exact hf row now

@[simp] lemma funds_stamp (row old : Row) (now : ℕ) : (row.stamp now old).funds = row.funds :=
  stamp_of_reads row (fun _ _ => rfl) old now

@[simp] lemma status_stamp (row old : Row) (now : ℕ) : (row.stamp now old).status = row.status :=
  stamp_of_reads row (fun _ _ => rfl) old now

@[simp] lemma funds_transition (status : Status) : (row.transition status).funds = row.funds := by
  unfold Row.transition
  split <;> rfl

@[simp] lemma funds_tickSession (obs : TickObservations) : (tickSession row obs).funds = row.funds := by
  unfold tickSession
  split
  · rfl
  · rfl
  · exact funds_park row _

@[simp] lemma funds_attemptReconciliation (now : ℕ) : (attemptReconciliation row now).funds = row.funds := by
  simp only [attemptReconciliation]
  split <;> rfl

@[simp] lemma funds_apply (s : Settings) (now : ℕ) (row : Row) (p : Pass) : (p.apply s now row).funds = row.funds := by
  cases p
  case claimWatch => rfl
  all_goals simp only [Pass.apply]
  case cancel | refund => exact funds_transition row _
  all_goals
    repeat' split
    all_goals first | simp only [funds_park, funds_transition, funds_attemptReconciliation] | rfl

/-- What an act does to the funds: nothing, what its tick has done, or only what the tick
has committed on the way, with some of its calls. -/
inductive FundsStep (w : World) (e : Act) (w' : World) : Prop
  | none (hrow : w'.row.funds = w.row.funds) (hmoves : w'.moves = w.moves) (hswaps : w'.swaps = w.swaps)
      (hmemory : ∀ q, w'.memory q = w.memory q ∨ w'.memory q = []) (howner : w'.owner = w.owner)
  | committed (p : ℕ) (a : Answers) (t : Tick) (he : e = .tick p a .committed) (hop : HopStep a w.row (w.memory p) t)
      (hrow : w'.row.funds = t.row.funds) (hmoves : w'.moves = w.moves ++ t.moves) (hswaps : w'.swaps = w.swaps ++ t.swaps)
      (hmemory : w'.memory = Function.update w.memory p t.memory) (howner : w'.owner = some p)
  | lost (p : ℕ) (a : Answers) (fate : Fate) (t : Tick) (ms : List Moved) (mem : SwapState) (he : e = .tick p a fate)
      (hop : HopStep a w.row (w.memory p) t) (hrow : w'.row.funds = t.saved.1.funds) (hms : ms ⊆ t.moves)
      (hmoves : w'.moves = w.moves ++ ms) (hswaps : w'.swaps = w.swaps ++ t.swaps)
      (hmemory : w'.memory = Function.update w.memory p mem) (howner : w'.owner = some p)
      (hmem : mem = [] ∨ mem = t.memory ∧ (fate = .rolledBack ∨ t.raised = true))
      (hfate : fate = .committed → t.raised = true)

lemma step_funds (s : Settings) (w : World) (e : Act) : FundsStep w e (w.step s e) := by
  have same : ∀ q, w.memory q = w.memory q ∨ w.memory q = [] := fun q => .inl rfl
  cases e with
  | deposit => exact .none rfl rfl rfl same rfl
  | restart p =>
    refine .none rfl rfl rfl (fun q => ?_) rfl
    by_cases hq : q = p
    · exact .inr (by rw [hq]; exact Function.update_self ..)
    · exact .inl (Function.update_of_ne hq ..)
  | pass now p => exact .none ((funds_stamp ..).trans (funds_apply ..)) rfl rfl same rfl
  | tick p a fate =>
    obtain heq | hs := step_tick s w p a fate
    · rw [heq]
      exact .none rfl rfl rfl same rfl
    generalize w.step s (.tick p a fate) = w' at hs
    cases hs with
    | committed t hop hr hf =>
      exact .committed p a t (by rw [hf]) hop ((funds_stamp ..).trans (funds_tickSession ..)) rfl rfl rfl rfl
    | rolledBack t hop hf =>
      refine .lost p a fate t _ _ rfl hop rfl (List.Subset.refl _) rfl rfl rfl rfl (.inr ⟨rfl, hf⟩) fun h => ?_
      exact hf.resolve_left (by rw [h]; decide)
    | crashed t ms hop hms hf hc =>
      exact .lost p a fate t ms _ rfl hop rfl hms rfl rfl rfl rfl (.inl rfl) fun h => (hf h).elim

/-! ## One invoice for the exit, one for the self payment -/

def Committed : Move → Prop
  | .swapInvoice invoice => row.reverse.swapId ≠ "" ∧ row.reverse.invoice = invoice
  | .selfPayment invoice => row.selfPay.Minted ∧ row.selfPay.invoice = invoice
  | _ => True

def Row.requests : String × String × SelfPayKeys := (row.reverse.swapId, row.reverse.invoice, row.selfPay)

lemma Committed.congr {row r : Row} {call : Move} (h : Committed row call) (hr : r.requests = row.requests) :
    Committed r call := by
  simp only [Row.requests, Prod.mk.injEq] at hr
  cases call <;> simp_all [Committed]

lemma requests_of_funds {row r : Row} (h : r.funds = row.funds) : r.requests = row.requests := by
  simp only [Row.funds, Prod.mk.injEq] at h
  simp [Row.requests, h]

/-- A row that has the invoices of the calls so far, and of those of the tick. -/
def Follows (moves : List Moved) (r : Row) : Prop :=
  (∀ call, Committed row call → Committed r call) ∧ ∀ m ∈ moves, Committed r m.call

lemma Follows.of_requests {row r : Row} {moves : List Moved} (h : r.requests = row.requests)
    (hmo : ∀ m ∈ moves, Committed row m.call) : Follows row moves r :=
  ⟨fun _ hc => hc.congr h, fun m hm => (hmo m hm).congr h⟩

lemma HopEffect.follows {row : Row} {memory : SwapState} {t : Tick} (h : HopEffect row memory t) :
    Follows row t.moves t.row ∧ Follows row t.moves t.saved.1 := by
  cases h with
  | selfPays k k' at' ms es es' raised hs hso hk hse hk' hms =>
    have follows : ∀ k', k' = k ∨ k' = { k with settled := true } → Follows row ms { row with selfPay := k' } := by
      intro k' hk'
      refine ⟨?_, ?_⟩
      · rintro (_ | _ | _ | _ | _ | _) hc
        case selfPayment => obtain rfl := hk hc.1; rcases hk' with rfl | rfl <;> exact hc
        all_goals exact hc
      · rcases hms with rfl | ⟨hmi, o, rfl⟩
        · simp
        · rcases hk' with rfl | rfl <;> simpa [Committed, SelfPayKeys.Minted] using hmi
    exact ⟨follows k' hk', follows k (.inl rfl)⟩
  | createsReverse k es es' hs hid =>
    refine ⟨⟨?_, by simp⟩, .of_requests rfl (by simp)⟩
    rintro (_ | _ | _ | _ | _ | _) hc
    case swapInvoice => exact (hc.1 hid).elim
    all_goals exact hc
  | decrements k es es' o hs hid hk =>
    have hm : Committed row (.swapInvoice row.reverse.invoice) := ⟨hid, rfl⟩
    exact ⟨.of_requests (by simp [Row.requests, hk]) (by simpa using hm), .of_requests rfl (by simpa using hm)⟩
  | claims claimedAt ms es es' raised hs hid hms =>
    have hm : ∀ m ∈ ms, Committed row m.call := by
      rcases hms with rfl | ⟨o, rfl⟩ <;> simp [Committed, hid]
    exact ⟨.of_requests rfl hm, .of_requests rfl hm⟩
  | parksExiting es es' o hs hid =>
    exact ⟨.of_requests rfl (by simp [Committed, hid]), .of_requests rfl (by simp [Committed, hid])⟩
  | _ => exact ⟨.of_requests rfl (by simp [Committed]), .of_requests rfl (by simp [Committed])⟩

lemma LiquidEffect.follows {a : Answers} {row : Row} {m : SwapState} {t : Tick} (h : LiquidEffect a row m t) :
    Follows row t.moves t.row ∧ Follows row t.moves t.saved.1 := by
  have pure : ∀ m ∈ t.moves, Committed row m.call := by
    cases h with
    | abandons _ _ _ _ _ _ _ _ _ _ _ hms => rcases hms with ⟨rfl, -⟩ | ⟨rfl, -⟩ <;> simp [Committed]
    | _ => simp [Committed, lockMove]
  exact ⟨.of_requests (by cases h <;> rfl) pure, .of_requests (by cases h <;> rfl) pure⟩

lemma HopStep.follows {a : Answers} {row : Row} {memory : SwapState} {t : Tick} (h : HopStep a row memory t) :
    Follows row t.moves t.row ∧ Follows row t.moves t.saved.1 := by
  cases h with
  | other h => exact h.follows
  | @liquid t h =>
    obtain ⟨blob, heq⟩ := t.persist_eq
    rw [heq]
    exact h.follows

def World.Committed (w : World) : Prop := ∀ m ∈ w.moves, Session.Committed w.row m.call

lemma step_committed {s : Settings} {w : World} (h : w.Committed) (e : Act) : (w.step s e).Committed := by
  have grow : ∀ {moves ms r}, Follows w.row moves r → ms ⊆ moves → ∀ m ∈ w.moves ++ ms, Session.Committed r m.call :=
    fun hf hms m hm => (List.mem_append.1 hm).elim (fun hm => hf.1 _ (h m hm)) fun hm => hf.2 m (hms hm)
  unfold World.Committed
  cases step_funds s w e with
  | none hr hmo => exact hmo ▸ fun m hm => (h m hm).congr (requests_of_funds hr)
  | committed p a t he hop hr hmo =>
    exact hmo ▸ fun m hm => (grow hop.follows.1 (List.Subset.refl _) m hm).congr (requests_of_funds hr)
  | lost p a fate t ms mem he hop hr hms hmo =>
    exact hmo ▸ fun m hm => (grow hop.follows.2 hms m hm).congr (requests_of_funds hr)

/-- All sends of the exit leg of a session are for one payment request, and so are all
sends of its self payment. -/
theorem one_invoice_per_leg (s : Settings) (row : Row) (events : List Event) (swaps : List BoltzSwap)
    (memory : ℕ → SwapState) (acts : List Act) (o o' : Outcome) (invoice invoice' : String) :
    let moves := (World.run s { row, events, swaps, memory } acts).moves
    (⟨.swapInvoice invoice, o⟩ ∈ moves → ⟨.swapInvoice invoice', o'⟩ ∈ moves → invoice = invoice') ∧
    (⟨.selfPayment invoice, o⟩ ∈ moves → ⟨.selfPayment invoice', o'⟩ ∈ moves → invoice = invoice') := by
  have inv : (World.run s { row, events, swaps, memory } acts).Committed :=
    World.run_of_step (I := World.Committed) (fun w e h => step_committed h e) (by simp [World.Committed])
  exact ⟨fun h h' => (inv _ h).2.symm.trans (inv _ h').2, fun h h' => (inv _ h).2.symm.trans (inv _ h').2⟩

end AgentWallet.Anonymize.Session
