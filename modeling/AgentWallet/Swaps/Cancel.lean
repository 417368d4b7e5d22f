import AgentWallet.Swaps.Footprint
/-!
# A cancelled swap and its payment (`cancel_swap`, `cancel_session`)

A cancel looks at its copy of the row and commits CANCELLED; `process_boltz_swap`
looks at its copy and commits PAYING_INVOICE before it pays. Neither looks at the
row again, so a payment that has read the row goes on after the cancel has
succeeded (`paid_after_cancel`).

A cancel holds for good if no task that has read the row is still at work on it
when the cancel commits (`cancel_is_final`). Two more things must not happen: a
task that runs out of retries marks a cancelled row FAILED, and `cancel_session`
answers success for a session that awaits its Lightning payment although its swap
has left CREATED.
-/

namespace AgentWallet.Swaps

open AgentWallet.Lib World Machine

variable {T : Type} [DecidableEq T]

/-- The task has read the row and has not closed its session. -/
def AtWork (s : SwapId) (w : World T) (u : T) : Prop :=
  w.reading u = some (.processSwap, s) ∨ w.reading u = some (.markSwapFailed, s)

/-- No cancel commits while a task is at work on the row, none is answered on a
row that is past cancelling, and no task gives up a cancelled row. -/
def Undisturbed (s : SwapId) (_ : T) (c : Command) (w : World T) (_ : Except Raised (Reply c)) (_ : World T) : Prop :=
  match c with
  | .commit swaps _ => (∃ swap ∈ swaps, swap.id = s ∧ swap.current.status = .cancelled) → ∀ u, ¬ AtWork s w u
  | .selectSwap .markSwapFailed id => id = s → w.status s ≠ some .cancelled
  | .selectSwap .cancelAwaiting id => id = s → w.status s = some .created ∨ w.status s = some .cancelled
  | _ => True

abbrev undisturbed (T : Type) [DecidableEq T] (s : SwapId) : Machine T Command Reply Raised (World T) :=
  (machine T).restrict (Undisturbed s) fun _ _ => True

structure Linked (s : SwapId) (session : BraiinsDepositSession) : Prop where
  swap : session.boltzSwapId = some s
  begun : session.status ≠ .created
  past : session.status ≠ .awaitingOnchainFunds

structure OneRow (s : SwapId) (w : World T) : Prop where
  row : (w.swaps s).isSome
  queue : ∀ message ∈ w.queue, message.swapId = s
  sessions : ∀ id session, w.sessions id = some session → Linked s session

/-! ## Commits -/

variable {session : SessionCopy}

section Commits

variable {s : SwapId} {w w' : World T} {t : T} {swaps : List Copy}

lemma status_eq_iff {status : SwapStatus} :
    w.status s = some status ↔ ∃ row, w.swaps s = some row ∧ row.status = status :=
  Option.map_eq_some_iff

lemma write_status (swap : Copy) (row : BoltzSwap) :
    (swap.write row).status = row.status ∧ swap.current.status = swap.stored.status ∨
      (swap.write row).status = swap.current.status ∧ swap.current.status ≠ swap.stored.status := by
  by_cases hs : swap.current.status = swap.stored.status
  · exact .inl ⟨if_pos hs, hs⟩
  · exact .inr ⟨if_neg hs, hs⟩

lemma cancelled_foldl (hw : w.status s = some .cancelled)
    (hk : ∀ swap ∈ swaps, swap.current.status = swap.stored.status ∨ swap.current.status = .cancelled) :
    (swaps.foldl World.writeSwap w).status s = some .cancelled := by
  obtain ⟨row, hr, hs⟩ := status_eq_iff.1 hw
  refine status_eq_iff.2 (foldl_writeSwap_row hr hs fun swap hm _ before hb => ?_)
  rcases write_status swap before with ⟨heq, -⟩ | ⟨heq, hne⟩
  · exact heq.trans hb
  · exact heq.trans ((hk swap hm).resolve_left hne)

lemma not_cancelled_foldl (hw : w.status s ≠ some .cancelled)
    (hn : ∀ swap ∈ swaps, swap.id = s → swap.current.status ≠ .cancelled) :
    (swaps.foldl World.writeSwap w).status s ≠ some .cancelled := by
  intro hc
  obtain ⟨row, hr, hs⟩ := status_eq_iff.1 hc
  have ha : ∀ row', (swaps.foldl World.writeSwap w).swaps s = some row' → row'.status ≠ .cancelled := by
    apply foldl_writeSwap_induction
    · intro swap hm hid before hb
      rcases write_status swap before with ⟨heq, -⟩ | ⟨heq, -⟩
      · rw [heq]
        exact hb
      · rw [heq]
        exact hn swap hm hid
    · intro row' hr' hst
      exact hw (status_eq_iff.2 ⟨row', hr', hst⟩)
  exact ha row hr hs

structure KeepsLink (session : SessionCopy) : Prop where
  swap : session.current.boltzSwapId = session.stored.boltzSwapId
  begun : session.current.status ≠ .created
  past : session.current.status ≠ .awaitingOnchainFunds

lemma Linked.write {row : BraiinsDepositSession} (h : Linked s row) (hk : KeepsLink session) :
    Linked s (session.write row) := by
  have hsw : (session.write row).boltzSwapId = row.boltzSwapId := if_pos hk.swap
  by_cases hsa : session.current.status = session.stored.status
  · have hs : (session.write row).status = row.status := if_pos hsa
    exact ⟨hsw.trans h.swap, hs ▸ h.begun, hs ▸ h.past⟩
  · have hs : (session.write row).status = session.current.status := if_neg hsa
    exact ⟨hsw.trans h.swap, hs ▸ hk.begun, hs ▸ hk.past⟩

lemma OneRow.write (h : OneRow s w) {session : Option SessionCopy} (hk : ∀ copy, session = some copy → KeepsLink copy) :
    OneRow s (w.write swaps session) := by
  refine ⟨?_, ?_, fun id row hr => ?_⟩
  · rw [write_swaps, foldl_writeSwap_isSome]
    exact h.row
  · rw [write_eq]
    exact h.queue
  · rcases write_session hr with hs | ⟨copy, before, hc, -, hb, rfl⟩
    · exact h.sessions id row hs
    · exact (h.sessions id before hb).write (hk copy hc)

end Commits

/-! ## The protocol -/

section Protocol

variable {s : SwapId} {w w' : World T} {t : T}

/-- A copy of the row that may be committed: on a cancelled row it leaves the
status alone, or cancels. -/
def Harmless (s : SwapId) (w : World T) (swap : Copy) : Prop :=
  swap.id = s ∧ (swap.current.status = swap.stored.status ∨ swap.current.status = .cancelled ∨
    w.status s ≠ some .cancelled)

def Allowed (s : SwapId) (c : Command) (w : World T) : Prop :=
  match c with
  | .commit swaps session => (∀ swap ∈ swaps, Harmless s w swap) ∧ ∀ copy, session = some copy → KeepsLink copy
  | .sendPaymentV2 _ _ => w.status s ≠ some .cancelled
  | .retry message => message.swapId = s
  | .insertSwap _ _ | .delay _ => False
  | _ => True

/-- What others leave to a task: CANCELLED stays, its session stays open, and its
row is not cancelled while it is at work. -/
structure Leaves (s : SwapId) (t : T) (w w' : World T) : Prop where
  cancelled : w.status s = some .cancelled → w'.status s = some .cancelled
  reading : w'.reading t = w.reading t
  working : AtWork s w t → w.status s ≠ some .cancelled → w'.status s ≠ some .cancelled

lemma Frame.leaves (h : Frame t w w') (hi : OneRow s w) : OneRow s w' ∧ ∀ u, u ≠ t → Leaves s u w w' := by
  have hs : w'.status s = w.status s := by
    unfold World.status
    rw [h.swaps]
  refine ⟨⟨h.swaps ▸ hi.row, h.queue ▸ hi.queue, h.sessions ▸ hi.sessions⟩, fun u hu => ⟨?_, h.reading u hu, ?_⟩⟩
  · intro hc
    exact hs.trans hc
  · intro _ hn
    rw [hs]
    exact hn

lemma leaves_enqueue (hi : OneRow s w) {message : Message} (hm : message.swapId = s) :
    OneRow s (w.enqueue message) ∧ ∀ u, u ≠ t → Leaves s u w (w.enqueue message) := by
  refine ⟨⟨hi.row, fun m hme => ?_, hi.sessions⟩, fun u _ => ⟨id, rfl, fun _ => id⟩⟩
  rcases List.mem_append.1 hme with hme | hme
  · exact hi.queue m hme
  · rw [List.mem_singleton.1 hme]
    exact hm

lemma leaves_commit (hi : OneRow s w) {swaps : List Copy} {session : Option SessionCopy}
    (hp : Allowed s (.commit swaps session) w)
    (ha : (∃ swap ∈ swaps, swap.id = s ∧ swap.current.status = .cancelled) → ∀ u, ¬ AtWork s w u) :
    OneRow s ((w.write swaps session).committed t) ∧
      ∀ u, u ≠ t → Leaves s u w ((w.write swaps session).committed t) := by
  obtain ⟨hsw, hs⟩ := hp
  have hw : OneRow s (w.write swaps session) := hi.write hs
  refine ⟨⟨hw.row, hw.queue, hw.sessions⟩, fun u _ => ⟨fun hc => ?_, ?_, fun hwo hn => ?_⟩⟩
  · refine (w.write_status swaps session).trans (cancelled_foldl hc fun swap hm => ?_)
    rcases (hsw swap hm).2 with hsa | hca | hn
    · exact .inl hsa
    · exact .inr hca
    · exact (hn hc).elim
  · exact congrFun (w.write_reading swaps session) u
  · have hk : ∀ swap ∈ swaps, swap.id = s → swap.current.status ≠ .cancelled :=
      fun swap hm hid hca => ha ⟨swap, hm, hid, hca⟩ u hwo
    intro hc
    exact not_cancelled_foldl hn hk ((w.write_status swaps session).symm.trans hc)

/-- Cancels are final on a row that is undisturbed. -/
def final (T : Type) [DecidableEq T] (s : SwapId) : Protocol (undisturbed T s) where
  inv := OneRow s
  pre _ c w := Allowed s c w
  rely := Leaves s
  exec := by
    rintro t c w w' r hi hpre ⟨hcond, hx⟩
    by_cases hwrites : c.writes = false
    · exact (exec_frame hwrites hx).leaves hi
    cases c with
    | commit swaps session =>
      rcases hx with ⟨rfl, -⟩ | ⟨-, rfl⟩
      · exact leaves_commit hi hpre hcond
      · exact (Frame.refl t w').leaves hi
    | retry message =>
      obtain ⟨-, rfl⟩ := hx
      split
      · exact leaves_enqueue hi hpre
      · exact (Frame.record t w _).leaves hi
    | insertSwap | delay => exact hpre.elim
    | _ => exact (hwrites rfl).elim
  env := by
    rintro w w' - ⟨-, hfalse⟩
    exact hfalse.elim

end Protocol

/-! ## The tasks -/

section Tasks

variable {s : SwapId} {t : T} {settings : Settings}

def Working (s : SwapId) (t : T) (w : World T) : Prop := AtWork s w t ∧ w.status s ≠ some .cancelled

lemma working_stable : (final T s).Stable t (Working s t) := by
  rintro w w' - - hl ⟨hw, hn⟩
  refine ⟨?_, hl.working hw hn⟩
  unfold AtWork
  rw [hl.reading]
  exact hw

structure Uncancelled (s : SwapId) (swap : Copy) : Prop where
  id : swap.id = s
  current : swap.current.status ≠ .cancelled
  stored : swap.stored.status ≠ .cancelled

lemma uncancelled_closed : Closed (Uncancelled s) where
  set := by
    intro swap f h _ hs
    refine ⟨h.id, ?_, h.stored⟩
    rcases hs with hsa | hne
    · exact fun hc => h.current (hsa.symm.trans hc)
    · exact hne
  saved h := ⟨h.id, h.current, h.current⟩
  rolledBack h := ⟨h.id, h.stored, h.stored⟩

lemma drives_writes {fine : Copy → Prop} {pays : SwapId → String → Prop} {c : Command} (hc : Drives fine pays c) :
    c.opens = false ∧ (c.writes = false ∨ ∃ swaps, c = .commit swaps none) := by
  cases c with
  | commit swaps session =>
    cases session with
    | none => exact ⟨rfl, .inr ⟨swaps, rfl⟩⟩
    | some copy => exact hc.elim
  | selectSwap | close | insertSwap | delay | retry => exact hc.elim
  | _ => exact ⟨rfl, .inl rfl⟩

lemma drives_step {c : Command} {w w' : World T} {r : Except Raised (Reply c)}
    (hc : Drives (Uncancelled s) (fun _ _ => True) c) (hk : Working s t w) (hx : (undisturbed T s).exec t c w r w') :
    Allowed s c w ∧ Working s t w' := by
  obtain ⟨-, hx⟩ := hx
  obtain ⟨ho, hw⟩ := drives_writes hc
  have hr := exec_reading ho hx
  have hwo : w'.status s ≠ some .cancelled → Working s t w' := by
    intro hn
    refine ⟨?_, hn⟩
    unfold AtWork
    rw [hr]
    exact hk.1
  rcases hw with hw | ⟨swaps, rfl⟩
  · have hs : w'.status s = w.status s := by
      unfold World.status
      rw [(exec_frame hw hx).swaps]
    refine ⟨?_, hwo (hs ▸ hk.2)⟩
    cases c with
    | sendPaymentV2 id payment => exact hk.2
    | commit | insertSwap | delay | retry => cases hw
    | _ => trivial
  · have hp : Allowed s (.commit swaps none) w :=
      ⟨fun swap hm => ⟨(hc swap hm).id, .inr (.inr hk.2)⟩, fun _ h => by cases h⟩
    refine ⟨hp, hwo ?_⟩
    rcases hx with ⟨rfl, -⟩ | ⟨-, rfl⟩
    · intro hca
      exact not_cancelled_foldl hk.2 (fun swap hm _ => (hc swap hm).current)
        ((w.write_status swaps none).symm.trans hca)
    · exact hk.2

lemma driven_safe {α : Type} {p : Code α} {ψ : α → Prop} (h : p.Within (Drives (Uncancelled s) fun _ _ => True) ψ) :
    (final T s).Obeys t p (Working s t) :=
  (Protocol.Safe.within h working_stable
    fun _ _ _ _ hc _ hk hx => (drives_step hc hk hx).imp_right fun hk' _ => hk').silent

def Loaded (s : SwapId) (t : T) : Except Raised (Option BoltzSwap) → World T → Prop
  | .ok (some row), w => row.status ≠ .cancelled → Working s t w
  | _, _ => True

lemma loaded_stable (r : Except Raised (Option BoltzSwap)) : (final T s).Stable t (Loaded s t r) := by
  rcases r with _ | (_ | row)
  · exact .const _
  · exact .const _
  · exact fun w w' hi hi' hl h hne => working_stable w w' hi hi' hl (h hne)

lemma loaded_of_exec {reader : Reader} (hr : reader = .processSwap ∨ reader = .markSwapFailed)
    {w w' : World T} {r : Except Raised (Option BoltzSwap)} (hx : (machine T).exec t (.selectSwap reader s) w r w') :
    Loaded s t r w' := by
  rcases hx with ⟨rfl, rfl⟩ | ⟨⟨e, rfl⟩, -⟩
  · cases hro : w.swaps s with
    | none => trivial
    | some row =>
      intro hne
      have hse : (w.read t reader s).reading t = some (reader, s) := Function.update_self ..
      refine ⟨?_, ?_⟩
      · unfold AtWork
        rw [hse]
        rcases hr with rfl | rfl
        · exact .inl rfl
        · exact .inr rfl
      · intro hc
        obtain ⟨row', hro', hs⟩ := status_eq_iff.1 hc
        have heq : some row = some row' := hro.symm.trans hro'
        cases heq
        exact hne hs
  · trivial

lemma select_safe : (final T s).Safe t (Loaded s t) (call (.selectSwap .processSwap s)) fun _ => True :=
  .call loaded_stable fun _ _ _ _ _ hx => ⟨trivial, fun _ => loaded_of_exec (.inl rfl) hx.2⟩

/-- A task that gives up does not find the row cancelled. -/
lemma selectMark_safe :
    (final T s).Safe t (fun r w => (∀ row, r = .ok (some row) → row.status ≠ .cancelled) ∧ Loaded s t r w)
      (call (.selectSwap .markSwapFailed s)) fun _ => True := by
  refine .call (fun r => (Protocol.Stable.const _).and (loaded_stable r)) fun w r w' _ _ ⟨hc, hx⟩ => ?_
  refine ⟨trivial, fun _ => ⟨fun row hr hs => ?_, loaded_of_exec (.inr rfl) hx⟩⟩
  rcases hx with ⟨hre, -⟩ | ⟨⟨e, he⟩, -⟩
  · rw [hr] at hre
    exact hc rfl (status_eq_iff.2 ⟨row, (Except.ok.inj hre).symm, hs⟩)
  · rw [hr] at he
    cases he

lemma close_safe {Q : World T → Prop} (hQ : ∀ w : World T, Q w → Q (w.close t)) (hst : (final T s).Stable t Q) :
    (final T s).Safe t (Returns fun _ => Q) (call .close) Q := by
  refine .answered (fun _ => hst) fun w r w' _ hw ⟨_, hr, hx⟩ => ?_
  subst hx
  exact ⟨trivial, (), hr, fun _ => hQ w hw⟩

lemma processRow_safe (percent : ℚ) :
    (final T s).Obeys t (processRow settings s percent) := by
  refine select_safe.andThen fun row => ?_
  cases row with
  | none => exact .ret
  | some row =>
    dsimp only
    split
    case isTrue => exact .ret
    rename_i hr
    have hne : row.status ≠ .cancelled := fun h => hr (h ▸ rfl)
    have hc : Uncancelled s (.load s row) := ⟨rfl, hne, hne⟩
    exact (driven_safe (processCopy_within uncancelled_closed hc (fun _ _ _ _ => trivial) percent)).mono
      (fun _ _ (h : Loaded s t (.ok (some row)) _) => h hne) fun _ _ _ h => h

lemma runProcessSwap_safe (percent : ℚ) :
    (final T s).Obeys t (runProcessSwap settings s percent) := by
  have ht : (final T s).Obeys t (Lib.Task.tryExcept (processRow settings s percent) fun e =>
      return ⟨"error", some e.text⟩) :=
    (processRow_safe percent).tryExcept (fun _ _ _ _ => trivial) fun _ _ _ _ => trivial
  exact ht.tryFinally fun _ => close_safe (fun _ _ => trivial) (.const _)

lemma markRow_safe (text : String) : (final T s).Obeys t (markRow s text) := by
  refine selectMark_safe.andThen fun row => ?_
  cases row with
  | none => exact .ret
  | some row =>
    refine .and fun hf => ?_
    have hne := hf row rfl
    have hl : Uncancelled s (.load s row) := ⟨rfl, hne, hne⟩
    have hc := uncancelled_closed.setError (uncancelled_closed.setStatus hl (by decide : SwapStatus.failed ≠ _))
      (some text)
    dsimp only
    split
    case isTrue => exact fun _ _ _ => trivial
    case isFalse =>
      exact (driven_safe (commit_within hc)).mono (fun _ _ (h : Loaded s t (.ok (some row)) _) => h hne)
        fun _ _ _ h => h

lemma markSwapFailed_safe (text : String) :
    (final T s).Obeys t (markSwapFailed s text) :=
  (markRow_safe text).tryFinally fun _ => close_safe (fun _ _ => trivial) (.const _)

lemma processBoltzSwap_safe {message : Message} (hm : message.swapId = s) :
    (final T s).Obeys t (processBoltzSwap settings message) := by
  unfold processBoltzSwap
  rw [hm]
  refine (runProcessSwap_safe _).andThen fun result => ?_
  split
  · exact .ret
  have hr : (final T s).Obeys t (call (.retry message)) :=
    .call (fun _ => .const _) fun _ _ _ _ _ _ => ⟨hm, fun _ => trivial⟩
  refine hr.andThen fun again => ?_
  cases again with
  | true => exact .ret
  | false =>
    exact ((markSwapFailed_safe _).attempt.andThen fun _ => .ret)

lemma runWorker_safe : (final T s).Obeys t (runWorker settings) := by
  have hre : (final T s).Safe t (Yields fun message : Message => message.swapId = s) (call .receive) fun _ => True := by
    refine .yields_call fun w r w' hi _ ⟨_, message, hme, hr, _⟩ => ⟨trivial, fun x hx => ?_⟩
    rw [hr] at hx
    cases hx
    exact hi.queue message hme
  refine hre.andThen fun message => ?_
  exact (Protocol.Safe.and processBoltzSwap_safe).weaken fun _ _ hm => ⟨hm, trivial⟩

/-! ### Cancels -/

/-- A cancel that has answered success has left the row cancelled. -/
def Success (s : SwapId) (answer : Bool × Option String) (w : World T) : Prop :=
  answer.1 = true → w.status s = some .cancelled

lemma cancelled_stable : (final T s).Stable t fun w => w.status s = some .cancelled :=
  fun _ _ _ _ hl h => hl.cancelled h

lemma success_tryFinally {p : Code (Bool × Option String)} {A : World T → Prop}
    (h : (final T s).Safe t (IfReturns (Success s)) p A) :
    (final T s).Safe t (IfReturns (Success s)) (Lib.Task.tryFinally p (call .close)) A := by
  have hst (answer) : (final T s).Stable t (Success s answer) := fun _ _ _ _ hl h hok => hl.cancelled (h hok)
  refine h.tryFinally fun r => close_safe (fun w hw => ?_) (Protocol.Stable.ifReturns hst r)
  cases r with
  | ok answer => exact hw
  | error e => trivial

lemma commit_cancelled {w : World T} (hi : OneRow s w) {swap : Copy} (hid : swap.id = s)
    (hs : swap.stored.status = .created) (hc : swap.current.status = .cancelled) :
    (w.write [swap] none).status s = some .cancelled := by
  obtain ⟨row, hr⟩ := Option.isSome_iff_exists.1 hi.row
  subst hid
  refine status_eq_iff.2 ⟨swap.write row, ?_, ?_⟩
  · rw [write_swaps, List.foldl_cons, List.foldl_nil, writeSwap_self, hr]
    rfl
  rcases write_status swap row with ⟨-, hsa⟩ | ⟨hst, -⟩
  · rw [hs, hc] at hsa
    cases hsa
  · exact hst.trans hc

lemma cancelSwap_safe {row : BoltzSwap} :
    (final T s).Safe t (IfReturns (Success s)) (cancelSwap (.load s row)) fun _ => True := by
  unfold cancelSwap
  split
  case isTrue => exact fun _ _ _ hf => by cases hf
  rename_i hc
  have hs : row.status = .created := not_not.1 hc
  have hco : (final T s).Safe t (IfReturns fun _ w => w.status s = some .cancelled) (call (.commit
      [((Copy.load s row).setStatus .cancelled).setError (some "Cancelled by API client")] none)) fun _ => True := by
    refine .call (Protocol.Stable.ifReturns fun _ => cancelled_stable) fun w r w' hi _ ⟨_, hx⟩ => ?_
    refine ⟨⟨fun swap hm => ?_, fun _ h => by cases h⟩, fun _ => ?_⟩
    · rw [List.mem_singleton.1 hm]
      exact ⟨rfl, .inr (.inl rfl)⟩
    rcases hx with ⟨rfl, rfl | ⟨e, rfl⟩⟩ | ⟨⟨e, rfl⟩, -⟩
    · exact commit_cancelled hi rfl hs rfl
    · trivial
    · trivial
  exact hco.ifReturns fun _ _ _ h _ => h

lemma cancel_safe (missing : Option String) :
    (final T s).Safe t (IfReturns (Success s)) (onRow .cancelSwap s (false, missing) cancelSwap) fun _ => True := by
  have hr : (final T s).Obeys t (call (.selectSwap .cancelSwap s)) :=
    .call (fun _ => .const _) fun _ _ _ _ _ _ => ⟨trivial, fun _ => trivial⟩
  refine success_tryFinally (hr.ifReturns fun row => ?_)
  cases row with
  | none => exact fun _ _ _ hf => by cases hf
  | some row => exact cancelSwap_safe

lemma cancelled_safe (hs : session.current.boltzSwapId = session.stored.boltzSwapId) :
    (final T s).Safe t (IfReturns (Success s)) (cancelled session) fun w => w.status s = some .cancelled := by
  have hc : (final T s).Safe t (IfReturns fun _ w => w.status s = some .cancelled)
      (call (.commit [] (some (session.transition .cancelled)))) fun w => w.status s = some .cancelled := by
    refine .call (Protocol.Stable.ifReturns fun _ => cancelled_stable) fun w r w' _ hw ⟨_, hx⟩ => ?_
    refine ⟨⟨fun _ hm => (List.not_mem_nil hm).elim, fun copy hco => ?_⟩, fun _ => ?_⟩
    · cases hco
      exact ⟨hs, (by decide : BraiinsDepositStatus.cancelled ≠ _), (by decide : BraiinsDepositStatus.cancelled ≠ _)⟩
    cases r with
    | error e => trivial
    | ok _ =>
      rcases hx with ⟨rfl, -⟩ | ⟨⟨e, he⟩, -⟩
      · exact hw
      · cases he
  exact hc.ifReturns fun _ _ _ h _ => h

lemma cancelBoth_safe {row : BoltzSwap} (hs : session.current.boltzSwapId = session.stored.boltzSwapId) :
    (final T s).Safe t (IfReturns (Success s)) (cancelBoth session (.load s row)) fun _ => True := by
  refine cancelSwap_safe.ifReturns fun ⟨ok, err⟩ => ?_
  cases ok with
  | true => exact (cancelled_safe hs).weaken fun _ _ h => h rfl
  | false => exact fun _ _ _ hf => by cases hf

lemma cancelSwapping_safe (hl : session.current.boltzSwapId = some s)
    (hs : session.current.boltzSwapId = session.stored.boltzSwapId) :
    (final T s).Safe t (IfReturns (Success s)) (cancelSwapping session) fun _ => True := by
  have hr : (final T s).Obeys t (call (.selectSwap .cancelSwapping s)) :=
    .call (fun _ => .const _) fun _ _ _ _ _ _ => ⟨trivial, fun _ => trivial⟩
  unfold cancelSwapping
  rw [hl]
  refine hr.ifReturns fun row => ?_
  cases row with
  | none => exact fun _ _ _ hf => by cases hf
  | some row =>
    dsimp only
    split
    · exact fun _ _ _ hf => by cases hf
    · exact cancelBoth_safe hs

/-- A session that awaits its payment finds its swap in CREATED, or cancelled. -/
lemma cancelAwaiting_safe (hli : session.current.boltzSwapId = some s)
    (hs : session.current.boltzSwapId = session.stored.boltzSwapId) :
    (final T s).Safe t (IfReturns (Success s)) (cancelAwaiting session) fun _ => True := by
  have hr : (final T s).Safe t (IfReturns fun (row : Option BoltzSwap) w => row.map BoltzSwap.status = some .created ∨
      w.status s = some .cancelled) (call (.selectSwap .cancelAwaiting s)) fun _ => True := by
    refine .call (Protocol.Stable.ifReturns fun _ w w' _ _ hl h => h.imp_right hl.cancelled)
      fun w r w' _ _ ⟨hco, hx⟩ => ⟨trivial, fun _ => ?_⟩
    rcases hx with ⟨rfl, rfl⟩ | ⟨⟨e, rfl⟩, -⟩
    · exact hco rfl
    · trivial
  unfold cancelAwaiting
  rw [hli]
  refine hr.ifReturns fun row => ?_
  cases row with
  | none => exact (cancelled_safe hs).weaken fun _ _ h => h.resolve_left nofun
  | some row =>
    dsimp only
    split
    case isTrue => exact (cancelBoth_safe hs).weaken fun _ _ _ => trivial
    case isFalse hne =>
      refine (cancelled_safe hs).weaken fun _ _ h => ?_
      exact h.resolve_left fun hc => hne (Option.some.inj hc)

lemma cancelLoaded_safe {id : SessionId} {row : BraiinsDepositSession} (h : Linked s row) :
    (final T s).Safe t (IfReturns (Success s)) (cancelLoaded (.load id row)) fun _ => True := by
  unfold cancelLoaded
  split
  case h_1 hs => exact (h.begun hs).elim
  case h_2 => exact cancelSwapping_safe h.swap rfl
  case h_3 => exact fun _ _ _ hf => by cases hf
  case h_4 => exact fun _ _ _ hf => by cases hf
  case h_5 => exact cancelAwaiting_safe h.swap rfl
  case h_6 hs => exact (h.past hs).elim
  case h_7 =>
    split <;> exact fun _ _ _ hf => by cases hf

lemma cancelSession_safe (id : SessionId) :
    (final T s).Safe t (IfReturns (Success s)) (cancelSession id) fun _ => True := by
  have hre : (final T s).Safe t (Yields fun row : Option BraiinsDepositSession => ∀ session, row = some session →
      Linked s session) (call (.selectSessionForUpdate id)) fun _ => True := by
    refine .yields_call fun w r w' hi _ ⟨_, hx⟩ => ⟨trivial, fun row hr session hs => ?_⟩
    rcases hx with ⟨hre | hre, -⟩ | ⟨⟨e, he⟩, -⟩
    · rw [hr] at hre
      exact hi.sessions id session ((Except.ok.inj hre).symm.trans hs)
    · rw [hr, hs] at hre
      cases hre
    · rw [hr] at he
      cases he
  refine success_tryFinally (hre.ifReturns fun row => ?_)
  cases row with
  | none => exact fun _ _ _ hf => by cases hf
  | some row =>
    exact (Protocol.Safe.and fun hl => cancelLoaded_safe (hl row rfl)).weaken fun _ _ hl => ⟨hl, trivial⟩

end Tasks

/-! ## Cancels are final -/

/-- The tasks that process the row, and the calls that cancel it. -/
def Program.Concerns (s : SwapId) : Program → Prop
  | .worker => True
  | .cancel swap => swap = s
  | .cancelDeposit _ => True
  | _ => False

variable {s : SwapId} {settings : Settings}

def Finished (s : SwapId) (outcome : Outcome) (w : World T) : Prop :=
  ∀ error, outcome = .cancelled true error → w.status s = some .cancelled

lemma code_safe {t : T} {program : Program} (h : program.Concerns s) :
    (final T s).Safe t (IfReturns (Finished s)) (program.code settings) fun _ => True := by
  cases program with
  | worker =>
    refine runWorker_safe.bind (fun result _ _ _ _ ho => ?_) fun _ _ _ _ => trivial
    cases ho
  | cancel swap =>
    cases h
    refine (cancel_safe _).ifReturns fun ⟨ok, error⟩ w _ hs error' ho => ?_
    cases ho
    exact hs rfl
  | cancelDeposit session =>
    refine (cancelSession_safe session).ifReturns fun ⟨ok, error⟩ w _ hs error' ho => ?_
    cases ho
    exact hs rfl
  | _ => exact h.elim

lemma sends_step {Q : ℕ → Except Raised Outcome → World ℕ → Prop} {cfg cfg' : Config ℕ Command Reply Raised Outcome (World ℕ)}
    (hh : (final ℕ s).Holds Q cfg) (hc : cfg.shared.status s = some .cancelled)
    (hs : (undisturbed ℕ s).Step cfg cfg') : cfg'.shared.sends = cfg.shared.sends := by
  cases hs with
  | run ht hx =>
    rcases exec_sends hx.2 with hsa | ⟨id, payment, rfl, -⟩
    · exact hsa
    · exact (hh.pre ht hx hc).elim
  | env he => exact he.2.elim

/-- However the tasks that process a row and the calls that cancel it are
interleaved: once a cancel has answered success, nothing is handed to LND any more
and the row stays CANCELLED, as long as no task is at work on the row when a cancel
commits, none gives up a cancelled row, and no session that awaits its payment is
cancelled on a swap that has left CREATED. -/
theorem cancel_is_final (settings : Settings) (s : SwapId) (programs : ℕ → Program) (start : World ℕ)
    (hprograms : ∀ n, (programs n).Concerns s) (hstart : OneRow s start)
    (cfg cfg' : Config ℕ Command Reply Raised Outcome (World ℕ)) (n : ℕ) (error : Option String)
    (hreach : (undisturbed ℕ s).Reach ⟨start, fun n => (programs n).code settings⟩ cfg)
    (hsuccess : cfg.tasks n = .ret (.cancelled true error)) (hlater : (undisturbed ℕ s).Reach cfg cfg') :
    cfg'.shared.status s = some .cancelled ∧ cfg'.shared.sends = cfg.shared.sends := by
  have hb : (final ℕ s).Holds (fun _ => IfReturns (Finished s)) ⟨start, fun n => (programs n).code settings⟩ :=
    ⟨hstart, fun n => ⟨fun _ => True, .const _, trivial, code_safe (hprograms n)⟩⟩
  have hh := hb.reach hreach
  -- the task that has answered stays as it is, so what it knows holds in every later state
  have hl : (final ℕ s).Holds (fun _ => IfReturns (Finished s)) cfg' ∧ cfg'.tasks n = .ret (.cancelled true error) ∧
      cfg'.shared.sends = cfg.shared.sends := by
    induction hlater with
    | refl => exact ⟨hh, hsuccess, rfl⟩
    | tail _ hst ih =>
      obtain ⟨hm, ht, hs⟩ := ih
      exact ⟨hm.step hst, hst.ret ht, (sends_step hm (hm.ret ht error rfl) hst).trans hs⟩
  obtain ⟨hm, ht, hs⟩ := hl
  exact ⟨hm.ret ht error rfl, hs⟩

/-! ## A cancel that is not -/

def freshRow : BoltzSwap := {
  boltzSwapId := "a"
  invoiceAmountSats := 100000
  destinationAddress := "bc1q"
  boltzInvoice := some "lnbc1" }

def freshWorld : World ℕ where
  swaps := fun id => if id = 0 then some freshRow else none
  payer := fun _ => .wallet
  sessions := fun _ => none
  queue := [{ swapId := 0 }]
  log := []
  reading := fun _ => none
  failing := fun _ => none

lemma freshWorld_oneRow : OneRow 0 freshWorld where
  row := rfl
  queue := by
    intro message hm
    rw [List.mem_singleton.1 hm]
  sessions := by
    intro id session hs
    cases hs

def oneCancel (n : ℕ) : Program := if n = 1 then .cancel 0 else .worker

lemma oneCancel_concerns (n : ℕ) : (oneCancel n).Concerns 0 := by
  unfold oneCancel
  split
  · rfl
  · trivial

theorem cancel_is_final_alone :
    ∃ cfg, (undisturbed ℕ 0).Reach ⟨freshWorld, fun n => (oneCancel n).code {}⟩ cfg ∧
      cfg.tasks 1 = .ret (.cancelled true none) ∧
      ∀ cfg', (undisturbed ℕ 0).Reach cfg cfg' →
        cfg'.shared.status 0 = some .cancelled ∧ cfg'.shared.sends = cfg.shared.sends := by
  have h0 : (undisturbed ℕ 0).Reach _ ⟨freshWorld, fun n => (oneCancel n).code {}⟩ := .refl
  have h1 := h0.run 1 rfl (.ok (some freshRow)) ⟨trivial, .inl ⟨rfl, rfl⟩⟩
  have h2 := h1.run 1 rfl (.ok ()) ⟨?alone, .inl ⟨rfl, .inl rfl⟩⟩
  case alone =>
    rintro - u hw
    by_cases hu : u = 1
    · subst hu
      rcases hw with h | h
      · cases h
      · cases h
    · rcases hw with h | h
      · rw [show (freshWorld.read 1 .cancelSwap 0).reading u = none from Function.update_of_ne hu ..] at h
        cases h
      · rw [show (freshWorld.read 1 .cancelSwap 0).reading u = none from Function.update_of_ne hu ..] at h
        cases h
  have h3 := h2.run 1 rfl (.ok ()) ⟨trivial, rfl, rfl⟩
  refine ⟨_, h3, rfl, fun cfg' hl => ?_⟩
  exact cancel_is_final {} 0 oneCancel freshWorld oneCancel_concerns freshWorld_oneRow _ cfg' 1 none h3 rfl hl

/-- A worker and a cancel both read the row in CREATED. The cancel commits and
answers success, and then the worker marks the row and pays it. -/
theorem paid_after_cancel :
    ∃ cfg, (machine ℕ).Reach ⟨freshWorld, fun n => (oneCancel n).code {}⟩ cfg ∧
      cfg.tasks 1 = .ret (.cancelled true none) ∧ cfg.shared.status 0 = some .cancelled ∧ cfg.shared.sends = [] ∧
      ∃ cfg', (machine ℕ).Reach cfg cfg' ∧
        cfg'.shared.status 0 = some .payingInvoice ∧ cfg'.shared.sends = [(0, "lnbc1")] := by
  have h0 : (machine ℕ).Reach _ ⟨freshWorld, fun n => (oneCancel n).code {}⟩ := .refl
  have h1 := h0.run 0 rfl (.ok { swapId := 0 }) ⟨_, List.mem_singleton_self _, rfl, rfl⟩
  have h2 := h1.run 0 rfl (.ok (some freshRow)) (.inl ⟨rfl, rfl⟩)
  have h3 := h2.run 1 rfl (.ok (some freshRow)) (.inl ⟨rfl, rfl⟩)
  have h4 := h3.run 1 rfl (.ok ()) (.inl ⟨rfl, .inl rfl⟩)
  have h5 := h4.run 1 rfl (.ok ()) ⟨rfl, rfl⟩
  refine ⟨_, h5, rfl, rfl, rfl, ?_⟩
  refine Reach.next 0 rfl (.ok ()) (.inl ⟨rfl, .inl rfl⟩) ?_
  refine Reach.next 0 rfl (.ok ()) (.inl ⟨rfl, .inl rfl⟩) ?_
  exact ⟨_, .refl, rfl, rfl⟩

end AgentWallet.Swaps
