import AgentWallet.Swaps.Footprint
/-!
# One funding of the first leg (`_advance_created_onchain`, `_advance_created_onchain_via_channel`)

A deposit from on-chain funds first locks them, in a submarine swap or in a
channel. What keeps a later tick from doing so again is the id of the funding
transaction in the row of the session, which is written after the call that
broadcasts has returned. A tick that is cut off in between, a commit that fails,
or an error of LND for a transaction that went out after all, and the next tick or
the next peer is funded as well (`funded_again`).

If LND's errors mean that nothing went out, and every broadcast is followed by its
commit, there is one funding (`funds_once`).
-/

namespace AgentWallet.Swaps

open AgentWallet.Lib List Option

/-! ## Ticks that fund nothing -/

structure Untouched (session : SessionCopy) : Prop where
  lockup : session.current.submarineFundingTxid = session.stored.submarineFundingTxid
  channel : session.current.channelOpenTxid = session.stored.channelOpenTxid

def Modest : Command → Prop
  | .commit _ (some session) => Untouched session
  | .sendCoins _ _ | .openChannel _ _ _ => False
  | _ => True

variable {swaps : List Copy}

section Modest

variable {session : SessionCopy} {α : Type}

def Done : α → Prop := fun _ => True

lemma Untouched.load (sid : SessionId) (row : BraiinsDepositSession) : Untouched (.load sid row) := ⟨rfl, rfl⟩

lemma Untouched.saved : Untouched session.saved := ⟨rfl, rfl⟩

lemma ask_modest {c : Command} (hc : Modest c) : (call c).Within Modest Done := Task.within_call hc fun _ => trivial

lemma modest_of_routine {c : Command} (h : Routine c) : Modest c := by
  cases c with
  | commit swaps session =>
    cases session with
    | none => trivial
    | some session => exact h.elim
  | sendCoins | openChannel => exact h.elim
  | _ => trivial

lemma modest : Ticks (fun p => p.Within Modest Done) Untouched where
  ret _ := trivial
  bind hp hf := hp.bind fun a _ => hf a
  attempt hp := hp.attempt.mono (fun _ h => h) fun _ _ => trivial
  ask hc := ask_modest (modest_of_routine hc)
  commit h := ask_modest h
  set h hf := ⟨(hf _).2.1.trans h.lockup, (hf _).2.2.trans h.channel⟩
  saved _ := ⟨rfl, rfl⟩
  rolledBack _ := ⟨rfl, rfl⟩

lemma reverseLeg_modest (quote : Quote) (address : String) (chan : Option String) (h : Untouched session) :
    (reverseLeg session quote address chan).Within Modest Done := by
  refine modest.demand h (modest.createReverseSwap _ _ _ _) (fun ⟨id, row⟩ => ?_) _
  refine modest.save ⟨h.lockup, h.channel⟩ fun _ => ?_
  exact modest.bind (modest.attempt (ask_modest (by trivial))) fun _ => trivial

lemma advanceSwap_modest (swap : Copy) (unsaved : List Copy) : (advanceSwap swap unsaved).Within Modest Done := by
  have ha : Closed fun _ : Copy => True := ⟨fun _ _ _ => trivial, fun _ => trivial, fun _ => trivial⟩
  have hw : (advanceSwap swap unsaved).Within (Drives (fun _ => True) fun _ _ => True)
      (Advanced.Fine fun _ => True) :=
    advanceSwap_within ha trivial fun _ _ => trivial
  refine hw.mono (fun c hc => ?_) fun _ _ => trivial
  cases c with
  | commit swaps session =>
    cases session with
    | none => trivial
    | some copy => exact hc.elim
  | sendCoins | openChannel => exact hc.elim
  | _ => trivial

variable (h : Untouched session)
include h

lemma createdExtLightning_modest : (advanceCreatedExtLightning session).Within Modest Done := by
  refine modest.demand h (ask_modest (c := .quote) trivial) (fun quote => ?_) _
  refine modest.demand h (ask_modest (c := .newAddress) trivial) (fun address => ?_) _
  refine modest.demand h (modest.createReverseSwap _ _ _ _) (fun ⟨id, row⟩ => ?_) _
  exact modest.saveLast ⟨h.lockup, h.channel⟩

lemma followUserPaid_modest (advanced : Advanced) : (followUserPaid session advanced).Within Modest Done := by
  unfold followUserPaid
  dsimp only
  split
  · exact modest.saveLast (modest.transition h _)
  · exact modest.saveLast (modest.setError (modest.transition h _) _)
  · exact modest.saveLast (modest.setError (modest.transition h _) _)
  · split
    · exact modest.saveLast (modest.transition h _)
    · trivial

lemma awaitingLn_modest : (advanceAwaitingLnFunds session).Within Modest Done := by
  unfold advanceAwaitingLnFunds
  split
  · exact modest.hardFail h _
  refine modest.guarded h (ask_modest (by trivial)) fun swap => ?_
  cases swap with
  | none => exact modest.hardFail h _
  | some swap =>
    refine modest.bind (advanceSwap_modest _ _) fun advanced => ?_
    split
    · trivial
    refine modest.guarded h (ask_modest (by trivial)) fun again => ?_
    cases again with
    | none => trivial
    | some again => exact followUserPaid_modest h advanced

lemma swapping_modest : (advanceSwapping session).Within Modest Done := by
  unfold advanceSwapping
  split
  · exact modest.hardFail h _
  refine modest.guarded h (ask_modest (by trivial)) fun swap => ?_
  cases swap with
  | none => exact modest.hardFail h _
  | some swap =>
    dsimp only
    split
    · exact modest.saveLast (modest.transition h _)
    · exact modest.saveLast (modest.setError (modest.transition h _) _)
    · exact modest.saveLast (modest.setError (modest.transition h _) _)
    · trivial

end Modest

/-! ## The protocol -/

/-- The ticks of a session run one after the other. -/
abbrev Tick : Type := World Unit

variable {sid : SessionId}

/-- A funding call of LND whose error means that nothing went out. A commit is made
if it follows a broadcast, and no tick is cut off between the two. -/
def Prompt (_ : Unit) (c : Command) (w : Tick) (r : Except Raised (Reply c)) (w' : Tick) : Prop :=
  match c with
  | .sendCoins _ _ => (∃ txid, r = .ok (.ok txid)) ∨ w' = w
  | .openChannel _ _ _ => (∃ txid, r = .ok (.ok txid)) ∨ w' = w
  | .commit _ _ => w.broadcasting () ≠ none → r = .ok ()
  | .selectSessionForUpdate _ => w.broadcasting () = none
  | _ => True

abbrev prompt : Machine Unit Command Reply Raised Tick := (machine Unit).restrict Prompt fun _ _ => True

/-- What has been broadcast for the session is in its row. -/
structure Recorded (sid : SessionId) (w : Tick) : Prop where
  lockup : .lockupFunded sid ∈ w.log → ∀ row, w.sessions sid = some row → row.submarineFundingTxid.isSome
  channel : .channelFunded sid ∈ w.log → ∀ row, w.sessions sid = some row → row.channelOpenTxid.isSome

/-- One funding of each kind, recorded unless it has just gone out. -/
structure FundedOnce (sid : SessionId) (w : Tick) : Prop where
  lockup : w.log.count (.lockupFunded sid) ≤ 1
  channel : w.log.count (.channelFunded sid) ≤ 1
  recorded : w.broadcasting () = none → Recorded sid w

/-- A tick may commit if all is recorded then, and may fund what was not. -/
def MayFund (sid : SessionId) (c : Command) (w : Tick) : Prop :=
  match c with
  | .commit swaps session => Recorded sid (w.write swaps session)
  | .sendCoins session _ => session = sid → .lockupFunded sid ∉ w.log
  | .openChannel session _ _ => session = sid → .channelFunded sid ∉ w.log
  | _ => True

variable {w : Tick} {e : Event}

section Steps

variable {w w' : Tick} {c : Command} {r : Except Raised (Reply c)}

lemma says_not_funding (hc : c.funds = false) (h : Says c r e) (session : SessionId) :
    e ≠ .lockupFunded session ∧ e ≠ .channelFunded session := by
  constructor <;> rintro rfl <;> cases c <;> simp_all [Says, Command.funds]

/-- The events that matter are the same, and so are the rows of the sessions. -/
structure SameFunding (sid : SessionId) (w w' : Tick) : Prop where
  lockup : w'.log.count (.lockupFunded sid) = w.log.count (.lockupFunded sid)
  channel : w'.log.count (.channelFunded sid) = w.log.count (.channelFunded sid)
  sessions : w'.sessions = w.sessions
  broadcasting : w'.broadcasting = w.broadcasting

lemma sameFunding_record (he : e ≠ .lockupFunded sid ∧ e ≠ .channelFunded sid) (w : Tick) :
    SameFunding sid w (w.record e) := by
  have hc : ∀ e', e ≠ e' → (w.log ++ [e]).count e' = w.log.count e' := by
    intro e' hne
    rw [count_append, count_singleton, beq_eq_false_iff_ne.2 hne]
    rfl
  exact ⟨hc _ he.1, hc _ he.2, rfl, rfl⟩

lemma SameFunding.refl (w : Tick) : SameFunding sid w w := ⟨rfl, rfl, rfl, rfl⟩

lemma mem_of_count {l l' : List Event} (h : l'.count e = l.count e) (hm : e ∈ l') : e ∈ l := by
  rw [← count_pos_iff] at hm ⊢
  rwa [← h]

lemma SameFunding.recorded (h : SameFunding sid w w') (hw : Recorded sid w) : Recorded sid w' := by
  refine ⟨fun hm row hr => ?_, fun hm row hr => ?_⟩
  · exact hw.lockup (mem_of_count h.lockup hm) row (h.sessions ▸ hr)
  · exact hw.channel (mem_of_count h.channel hm) row (h.sessions ▸ hr)

lemma SameFunding.fundedOnce (h : SameFunding sid w w') (hw : FundedOnce sid w) : FundedOnce sid w' := by
  refine ⟨h.lockup ▸ hw.lockup, h.channel ▸ hw.channel, fun hn => h.recorded (hw.recorded ?_)⟩
  rw [← hn, h.broadcasting]

lemma exec_funding (sid : SessionId) (hx : (machine Unit).exec () c w r w') : SameFunding sid w w' ∨
      (∃ swaps session, c = .commit swaps session ∧ w' = (w.write swaps session).committed ()) ∨
      c.funds = true ∧ ∃ e, Says c r e ∧ w' = w.fund () e := by
  cases exec_effect hx with
  | nothing => exact .inl (.refl w)
  | speaks hc h => exact .inl (sameFunding_record (says_not_funding hc h sid) w)
  | funds hc h => exact .inr (.inr ⟨hc, _, h, rfl⟩)
  | @tells id _ h =>
    have hr : SameFunding sid w (w.record (.paymentFailed id)) :=
      sameFunding_record (e := .paymentFailed id) ⟨nofun, nofun⟩ w
    exact .inl ⟨hr.lockup, hr.channel, rfl, rfl⟩
  | commits => exact .inr (.inl ⟨_, _, rfl, rfl⟩)
  | _ => exact .inl ⟨rfl, rfl, rfl, rfl⟩

lemma FundedOnce.fund (h : FundedOnce sid w) (hl : e = .lockupFunded sid → .lockupFunded sid ∉ w.log)
    (hc : e = .channelFunded sid → .channelFunded sid ∉ w.log) : FundedOnce sid (w.fund () e) := by
  have hco : ∀ e', (e = e' → e' ∉ w.log) → w.log.count e' ≤ 1 → (w.log ++ [e]).count e' ≤ 1 := by
    intro e' hne hle
    rw [count_append, count_singleton]
    split
    case isTrue heq =>
      rw [count_eq_zero.2 (hne (beq_iff_eq.1 heq))]
    case isFalse => exact hle
  refine ⟨hco _ hl h.lockup, hco _ hc h.channel, fun hn => ?_⟩
  have hs : (w.fund () e).broadcasting () = some e := by
    simp [World.fund]
  cases hs.symm.trans hn

lemma FundedOnce.commit (h : FundedOnce sid w) {session : Option SessionCopy}
    (hr : Recorded sid (w.write swaps session)) : FundedOnce sid ((w.write swaps session).committed ()) := by
  have hl : ((w.write swaps session).committed ()).log = w.log := w.write_log swaps session
  exact ⟨hl ▸ h.lockup, hl ▸ h.channel, fun _ => ⟨hr.lockup, hr.channel⟩⟩

end Steps

/-- One tick at a time, with one funding at most. -/
def once (sid : SessionId) : Protocol prompt where
  inv := FundedOnce sid
  pre _ := MayFund sid
  rely _ w w' := w' = w
  exec := by
    rintro ⟨⟩ c w w' r hi hpre ⟨-, hx⟩
    refine ⟨?_, fun u hu => (hu (Subsingleton.elim u ())).elim⟩
    rcases exec_funding sid hx with hsame | ⟨swaps, session, rfl, rfl⟩ | ⟨hfunds, e, he, rfl⟩
    · exact hsame.fundedOnce hi
    · exact hi.commit hpre
    cases c with
    | sendCoins session address =>
      cases he
      exact hi.fund (fun h => hpre (Event.lockupFunded.inj h)) nofun
    | openChannel session pubkey sats =>
      cases he
      exact hi.fund nofun fun h => hpre (Event.channelFunded.inj h)
    | _ => cases hfunds
  env := by
    rintro w w' - ⟨-, hfalse⟩
    exact hfalse.elim

/-! ## Between two fundings -/

section Idle

variable {α : Type} {session : SessionCopy}

def Idle (w : Tick) : Prop := w.broadcasting () = none

lemma stable_once (A : Tick → Prop) : (once sid).Stable () A := by
  rintro w w' - - rfl h
  exact h

lemma idle_committed (w : Tick) : Idle (w.committed ()) := by
  simp [Idle, World.committed]

lemma SameFunding.idle {w' : Tick} (h : SameFunding sid w w') (hw : Idle w) : Idle w' :=
  (congrFun h.broadcasting ()).trans hw

variable {row : BraiinsDepositSession}

lemma write_session_self {copy : SessionCopy} (hid : copy.id = sid)
    (h : w.sessions sid = some row) : (w.write swaps (some copy)).sessions sid = some (copy.write row) := by
  subst hid
  rw [World.write_eq]
  exact (World.writeSession_self copy).trans (congrArg _ h)

lemma write_session {copy : SessionCopy} (hid : copy.id = sid)
    (h : (w.write swaps (some copy)).sessions sid = some row) :
    ∃ before, w.sessions sid = some before ∧ row = copy.write before := by
  cases hb : w.sessions sid with
  | some before => exact ⟨before, rfl, some.inj (h.symm.trans (write_session_self hid hb))⟩
  | none =>
    subst hid
    rw [World.write_eq] at h
    cases h.symm.trans ((World.writeSession_self copy).trans (congrArg _ hb))

lemma column_untouched {β : Type} [DecidableEq β] {stored current : β} (h : current = stored) (row : β) :
    column stored current row = row :=
  if_pos h

lemma Recorded.write {copy : Option SessionCopy} (hw : Recorded sid w) (hco : ∀ c, copy = some c → Untouched c) :
    Recorded sid (w.write swaps copy) := by
  have hk : ∀ row, (w.write swaps copy).sessions sid = some row → ∃ before, w.sessions sid = some before ∧
      row.submarineFundingTxid = before.submarineFundingTxid ∧ row.channelOpenTxid = before.channelOpenTxid := by
    intro row hr
    rcases World.write_session hr with hsa | ⟨copy, before, hs, -, hb, rfl⟩
    · exact ⟨row, hsa, rfl, rfl⟩
    · refine ⟨before, hb, column_untouched (hco copy hs).lockup _, column_untouched (hco copy hs).channel _⟩
  refine ⟨fun hm row hr => ?_, fun hm row hr => ?_⟩
  · obtain ⟨before, hb, hl, -⟩ := hk row hr
    exact hl ▸ hw.lockup (w.write_log swaps copy ▸ hm) before hb
  · obtain ⟨before, hb, -, hc⟩ := hk row hr
    exact hc ▸ hw.channel (w.write_log swaps copy ▸ hm) before hb

lemma modest_safe {code : Code α} {ψ : α → Prop} (h : code.Within Modest ψ) : (once sid).Obeys () code Idle := by
  refine (Protocol.Safe.within h (stable_once _) fun c w r w' hc hi hidle hx => ?_).silent
  obtain ⟨-, hx⟩ := hx
  rcases exec_funding sid hx with hs | ⟨swaps, copy, rfl, rfl⟩ | ⟨hf, -⟩
  · refine ⟨?_, fun _ => hs.idle hidle⟩
    cases c with
    | commit swaps copy =>
      refine (hi.recorded hidle).write fun c hc' => ?_
      subst hc'
      exact hc
    | sendCoins | openChannel => exact hc.elim
    | _ => trivial
  · refine ⟨(hi.recorded hidle).write fun c hc' => ?_, fun _ => idle_committed _⟩
    subst hc'
    exact hc
  · cases c with
    | sendCoins | openChannel => exact hc.elim
    | _ => cases hf

end Idle

/-! ## The fundings -/

/-- The commands between two commits of a tick that is about to fund something. -/
def Still : Command → Prop
  | .commit _ _ | .sendCoins _ _ | .openChannel _ _ _ => False
  | _ => True

/-- The copy of a tick agrees with the row about the fundings. -/
def Agrees (sid : SessionId) (session : SessionCopy) (w : Tick) : Prop :=
  ∃ row, w.sessions sid = some row ∧ row.submarineFundingTxid = session.stored.submarineFundingTxid ∧
    row.channelOpenTxid = session.stored.channelOpenTxid

def Ready (sid : SessionId) (session : SessionCopy) (w : Tick) : Prop := Idle w ∧ Agrees sid session w

abbrev Proceeds (sid : SessionId) (session : SessionCopy) {α : Type} (code : Code α) : Prop :=
  (once sid).Obeys () code (Ready sid session)

section Fundings

variable {α : Type} {session : SessionCopy}

lemma SameFunding.agrees {w' : Tick} (h : SameFunding sid w w') (hw : Agrees sid session w) :
    Agrees sid session w' := by
  obtain ⟨row, hr, hc⟩ := hw
  exact ⟨row, h.sessions ▸ hr, hc⟩

variable {code : Code α} {next : α → Code Unit}

lemma still_safe {ψ : α → Prop} (h : code.Within Still ψ) :
    (once sid).Safe () (fun _ => Ready sid session) code (Ready sid session) := by
  have hsa : (once sid).Safe () (fun r w => Task.Okay ψ r ∧ Ready sid session w) code (Ready sid session) := by
    refine .within h (stable_once _) fun c w r w' hc hi hr hx => ?_
    obtain ⟨-, hx⟩ := hx
    rcases exec_funding sid hx with hs | ⟨swaps, copy, rfl, -⟩ | ⟨hf, -⟩
    · refine ⟨?_, fun _ => ⟨hs.idle hr.1, hs.agrees hr.2⟩⟩
      cases c with
      | commit | sendCoins | openChannel => exact hc.elim
      | _ => trivial
    · exact hc.elim
    · cases c with
      | sendCoins | openChannel => exact hc.elim
      | _ => cases hf
  exact hsa.post fun _ _ _ h => h.2

lemma ask_still {c : Command} (hc : Still c) : (call c).Within Still Done := Task.within_call hc fun _ => trivial

lemma Ready.idle (h : Ready sid session w) : Idle w := h.1

lemma modest_ready {ψ : α → Prop} (h : code.Within Modest ψ) : Proceeds sid session code :=
  (modest_safe h).weaken fun _ _ h => h.idle

lemma guarded_ready (h : Untouched session) (hc : code.Within Still Done)
    (hn : ∀ answer, Proceeds sid session (next answer)) : Proceeds sid session (guarded session code next) := by
  refine (still_safe hc).attempt.seq fun answer => ?_
  cases answer with
  | ok answer => exact hn answer
  | error e => exact modest_ready (modest.transient h e)

lemma demand_ready {code : Code (Except String α)} {text : String} (h : Untouched session) (hc : code.Within Still Done)
    (hn : ∀ answer, Proceeds sid session (next answer)) : Proceeds sid session (demand session text code next) := by
  refine guarded_ready h hc fun answer => ?_
  cases answer with
  | ok value => exact hn value
  | error err => exact modest_ready (modest.hardFail h _)

def Committed (sid : SessionId) (session : SessionCopy) (r : Except Raised Unit) (w : World Unit) : Prop :=
  match r with
  | .ok _ => Ready sid session.saved w
  | .error _ => Idle w

lemma save_ready {next : SessionCopy → Code Unit} (h : Untouched session) (hid : session.id = sid)
    (hn : Proceeds sid session.saved (next session.saved)) : Proceeds sid session (saveSession swaps session next) := by
  have hco : (once sid).Safe () (Committed sid session) (call (.commit swaps (some session))) (Ready sid session) := by
    refine .call (fun _ => stable_once _) fun w r w' hi hre hx => ?_
    refine ⟨(hi.recorded hre.1).write fun c hc => some.inj hc ▸ h, fun _ => ?_⟩
    obtain ⟨-, hx⟩ := hx
    rcases hx with ⟨rfl, hr⟩ | ⟨⟨e, rfl⟩, rfl⟩
    · cases r with
      | error e => exact idle_committed _
      | ok _ =>
        refine ⟨idle_committed _, ?_⟩
        obtain ⟨row, hro, hl, hch⟩ := hre.2
        refine ⟨session.write row, write_session_self hid hro, ?_, ?_⟩
        · exact (column_untouched h.lockup _).trans (hl.trans h.lockup.symm)
        · exact (column_untouched h.channel _).trans (hch.trans h.channel.symm)
    · exact hre.1
  refine hco.attempt.seq fun answer => ?_
  cases answer with
  | ok _ => exact hn
  | error e => exact modest_safe (modest.transient (modest.rolledBack h) e)

/-- A funding has gone out, and the copy that is to be saved records it. -/
def Aloft (sid : SessionId) (session : SessionCopy) (w : Tick) : Prop :=
  w.broadcasting () ≠ none ∧ ∀ swaps, Recorded sid (w.write swaps (some session))

lemma save_aloft {next : SessionCopy → Code Unit} (hn : (next session.saved).Within Modest Done) :
    (once sid).Obeys () (saveSession swaps session next) (Aloft sid session) := by
  have hc : (once sid).Safe () (Returns fun _ => Idle) (call (.commit swaps (some session)))
      (Aloft sid session) := by
    refine .answered (fun _ => stable_once _) fun w r w' hi ha hx => ?_
    obtain ⟨hp, hx⟩ := hx
    have hr : r = .ok () := hp ha.1
    refine ⟨ha.2 swaps, (), hr, fun _ => ?_⟩
    rcases hx with ⟨rfl, -⟩ | ⟨⟨e, he⟩, -⟩
    · exact idle_committed _
    · cases he.symm.trans hr
  exact hc.attempted fun _ => modest_safe hn

lemma column_set {β : Type} {stored current : Option β} {b : β} (hs : stored = none) (hc : current = some b)
    [DecidableEq β] (row : Option β) : (column stored current row).isSome := by
  subst hs hc
  rfl

lemma Agrees.lockup_new (h : Agrees sid session w) (hw : Recorded sid w)
    (hn : session.stored.submarineFundingTxid = none) : .lockupFunded sid ∉ w.log := by
  intro hm
  obtain ⟨row, hr, hl, -⟩ := h
  have hs := hw.lockup hm row hr
  rw [hl, hn] at hs
  cases hs

lemma Agrees.channel_new (h : Agrees sid session w) (hw : Recorded sid w)
    (hn : session.stored.channelOpenTxid = none) : .channelFunded sid ∉ w.log := by
  intro hm
  obtain ⟨row, hr, -, hc⟩ := h
  have hs := hw.channel hm row hr
  rw [hc, hn] at hs
  cases hs

lemma aloft (hid : session.id = sid) (hl : .lockupFunded sid ∈ w.log ++ [e] → ∀ before, w.sessions sid = some before →
      (session.write before).submarineFundingTxid.isSome)
    (hc : .channelFunded sid ∈ w.log ++ [e] → ∀ before, w.sessions sid = some before →
      (session.write before).channelOpenTxid.isSome) : Aloft sid session (w.fund () e) := by
  refine ⟨by simp [World.fund], fun swaps => ⟨fun hm row hr => ?_, fun hm row hr => ?_⟩⟩
  · obtain ⟨before, hb, rfl⟩ := write_session hid hr
    rw [World.write_log] at hm
    exact hl hm before hb
  · obtain ⟨before, hb, rfl⟩ := write_session hid hr
    rw [World.write_log] at hm
    exact hc hm before hb

/-- What a funding call leaves: its transaction, or nothing. -/
def Funded (ready : Tick → Prop) (aloft : String → Tick → Prop) : Except Raised (Except String String) → Tick → Prop
  | .ok (.ok txid), w => aloft txid w
  | _, w => ready w

lemma createSubmarineSwap_still (invoice : String) (sats : ℕ) :
    (createSubmarineSwap invoice sats).Within Still Done := by
  refine .bind (ask_still (by trivial)) fun offer _ => ?_
  cases offer with
  | error err => trivial
  | ok offer => exact .bind (ask_still (by trivial)) fun id _ => trivial

variable (h : Untouched session) (hid : session.id = sid)
include h hid

lemma sendCoins_once (hn : session.current.submarineFundingTxid = none) (address : Option String) :
    (once sid).Safe ()
      (Funded (Ready sid session) fun txid =>
        Aloft sid (session.set fun s => { s with submarineFundingTxid := some txid }))
      (call (.sendCoins session.id address)) (Ready sid session) := by
  have hs : session.stored.submarineFundingTxid = none := h.lockup.symm.trans hn
  refine .call (fun _ => stable_once _) fun w r w' hi hr hx => ?_
  refine ⟨fun _ => hr.2.lockup_new (hi.recorded hr.1) hs, fun _ => ?_⟩
  obtain ⟨hp, hx⟩ := hx
  rcases r with e | (err | txid)
  · exact (hp.resolve_left nofun) ▸ hr
  · exact (hp.resolve_left nofun) ▸ hr
  rcases hx with rfl | ⟨-, hno⟩
  · subst hid
    refine aloft rfl (fun _ _ _ => column_set hs rfl _) fun hm before hb => ?_
    have hk := (hi.recorded hr.1).channel ((mem_append.1 hm).resolve_right (by simp)) before hb
    exact (congrArg Option.isSome (column_untouched h.channel _)).trans hk
  · exact (hno txid rfl).elim

lemma fundSubmarine_once (swap : Copy) : Proceeds sid session (fundSubmarine session swap) := by
  unfold fundSubmarine
  split
  · exact modest_ready (modest.submarineFunded h)
  rename_i hn
  refine guarded_ready h (ask_still (by trivial)) fun refusal => ?_
  cases refusal with
  | some refusal =>
    exact modest_ready (modest.bind (modest.attempt (modest.cancelSwap swap)) fun _ => modest.hardFail h refusal)
  | none =>
    refine (sendCoins_once h hid hn _).attempt.seq fun answer => ?_
    rcases answer with e | (err | txid)
    · exact modest_ready (modest.transient h e)
    · exact modest_ready (modest.hardFail h _)
    · exact save_aloft (modest.submarineFunded .saved)

lemma makeSubmarine_once (quote : Quote) (invoice : Option Invoice) :
    Proceeds sid session (makeSubmarine session quote invoice) := by
  unfold makeSubmarine
  split
  · refine guarded_ready h (ask_still (by trivial)) fun row => ?_
    cases row with
    | none => exact modest_ready (modest.hardFail h _)
    | some row => exact fundSubmarine_once h hid _
  · exact modest_ready (modest.hardFail h _)
  · refine demand_ready h (createSubmarineSwap_still _ _) fun ⟨id, row⟩ => ?_
    exact save_ready ⟨h.lockup, h.channel⟩ hid (fundSubmarine_once .saved (by exact hid) _)

lemma createdOnchain_once : Proceeds sid session (advanceCreatedOnchain session) := by
  refine demand_ready h (ask_still (by trivial)) fun quote => ?_
  split
  · refine demand_ready h (ask_still (by trivial)) fun invoice => ?_
    exact save_ready ⟨h.lockup, h.channel⟩ hid (makeSubmarine_once .saved (by exact hid) _ _)
  · exact demand_ready h (ask_still (by trivial)) fun invoice => makeSubmarine_once h hid _ _
  · exact makeSubmarine_once h hid _ _

def SessionCopy.opening (session : SessionCopy) (txid : String) : SessionCopy :=
  ((session.set fun s => { s with channelOpenTxid := some txid }).setError none).transition .openingChannel

lemma openChannel_call_once (hn : session.current.channelOpenTxid = none) (pubkey : String) (sats : ℕ) :
    (once sid).Safe () (Funded (Ready sid session) fun txid => Aloft sid (session.opening txid))
      (call (.openChannel session.id pubkey sats)) (Ready sid session) := by
  have hs : session.stored.channelOpenTxid = none := h.channel.symm.trans hn
  refine .call (fun _ => stable_once _) fun w r w' hi hr hx => ?_
  refine ⟨fun _ => hr.2.channel_new (hi.recorded hr.1) hs, fun _ => ?_⟩
  obtain ⟨hp, hx⟩ := hx
  rcases r with e | (err | txid)
  · exact (hp.resolve_left nofun) ▸ hr
  · exact (hp.resolve_left nofun) ▸ hr
  rcases hx with rfl | ⟨-, hno⟩
  · subst hid
    refine aloft rfl (fun hm before hb => ?_) fun _ _ _ => column_set hs rfl _
    have hk := (hi.recorded hr.1).lockup ((mem_append.1 hm).resolve_right (by simp)) before hb
    exact (congrArg Option.isSome (column_untouched h.lockup _)).trans hk
  · exact (hno txid rfl).elim

/-- How the search for a peer leaves the session. -/
def Searched (ready : Tick → Prop) (aloft : String → Tick → Prop) : Except Raised Opened → Tick → Prop
  | .ok (.funded txid), w => aloft txid w
  | _, w => ready w

/-- The loop over the peers: with no funding so far, the next one may be asked. -/
lemma openWithAny_once (hn : session.current.channelOpenTxid = none) (sats : ℕ) (peers : List ChannelPeer)
    (openErrors connectErrors : List String) :
    (once sid).Safe () (Searched (Ready sid session) fun txid => Aloft sid (session.opening txid))
      (openWithAny session.id sats openErrors connectErrors peers) (Ready sid session) := by
  induction peers generalizing openErrors connectErrors with
  | nil => exact fun _ _ hr => hr
  | cons peer peers ih =>
    refine (still_safe (ask_still (by trivial))).bind (fun connected => ?_) fun _ _ _ hr => hr
    cases connected with
    | error err => exact ih _ _
    | ok _ =>
      refine (openChannel_call_once h hid hn _ _).bind (fun opened => ?_) fun _ _ _ hr => hr
      cases opened with
      | error err => exact ih _ _
      | ok txid => exact fun _ _ ha => ha

lemma openChannel_once (settings : Settings) (hn : session.current.channelOpenTxid = none) (quote : Quote) :
    Proceeds sid session (openChannel settings session quote) := by
  unfold openChannel
  split
  · exact modest_ready (modest.hardFail h _)
  · exact modest_ready (modest.hardFail h _)
  refine (openWithAny_once h hid hn _ _ _ _).attempt.seq fun answer => ?_
  rcases answer with e | (txid | ⟨openErrors, connectErrors⟩)
  · exact modest_ready (modest.transient h e)
  · exact save_aloft trivial
  · cases openErrors with
    | nil => exact modest_ready (modest.transient h _)
    | cons err errs => exact modest_ready (modest.hardFail h _)

lemma viaChannel_once (settings : Settings) :
    Proceeds sid session (advanceCreatedOnchainViaChannel settings session) := by
  unfold advanceCreatedOnchainViaChannel
  split
  · refine modest_ready (ψ := Done) ?_
    split
    · exact modest.saveLast ⟨h.lockup, h.channel⟩
    · trivial
  · rename_i hn
    exact demand_ready h (ask_still (by trivial)) fun quote => openChannel_once h hid settings hn quote

end Fundings

/-! ## Ticks -/

section Ticks

variable {session : SessionCopy} {settings : Settings}

lemma dispatchCreated_once (h : Untouched session) (hid : session.id = sid) :
    Proceeds sid session (dispatchCreated settings session) := by
  unfold dispatchCreated
  dsimp only
  split
  · exact modest_ready (createdExtLightning_modest h)
  split
  · exact modest_ready (modest.advanceCreatedExtOnchain h)
  split
  · exact modest_ready (modest.advanceCreated reverseLeg_modest h)
  split
  · exact viaChannel_once h hid settings
  · split
    · exact createdOnchain_once h hid
    · exact modest_ready (modest.advanceCreated reverseLeg_modest h)

lemma dispatch_once (h : Untouched session) (hid : session.id = sid) :
    Proceeds sid session (dispatch settings session) := by
  unfold dispatch
  split
  · exact dispatchCreated_once h hid
  · exact modest_ready (awaitingLn_modest h)
  · exact modest_ready (modest.advanceAwaitingOnchainFunds h)
  · exact modest_ready (modest.advanceSubmarineSwapping reverseLeg_modest h)
  · exact modest_ready (modest.advanceOpeningChannel reverseLeg_modest h)
  · exact modest_ready (swapping_modest h)
  · exact modest_ready (ψ := Done) (modest.bind (modest.attempt (modest.advanceFailedSelfHeal h)) fun _ => trivial)
  · exact .ret

/-- A tick reads the row while no funding is on its way. -/
lemma selectSession_once :
    (once sid).Safe ()
      (fun r w => match r with | .ok (some row) => Ready sid (.load sid row) w | _ => Idle w)
      (call (.selectSessionForUpdate sid)) fun _ => True := by
  refine .call (fun _ => stable_once _) fun w r w' hi _ hx => ⟨trivial, fun _ => ?_⟩
  obtain ⟨hidle, hx⟩ := hx
  rcases hx with ⟨rfl | rfl, rfl⟩ | ⟨⟨e, rfl⟩, rfl⟩
  · cases hr : w'.sessions sid with
    | none => exact hidle
    | some row => exact ⟨hidle, row, hr, rfl, rfl⟩
  · exact hidle
  · exact hidle

lemma advance_once : (once sid).Obeys () (advance settings sid) := by
  refine .tryFinally (selectSession_once.andThen fun row => ?_) fun _ => ?_
  · cases row with
    | none => exact .ret
    | some row => exact dispatch_once (.load sid row) rfl
  refine .answered (fun _ => stable_once _) fun w r w' _ _ hx => ?_
  exact ⟨trivial, (), hx.2.1, fun _ => trivial⟩

end Ticks

/-- The fundings of the session that have been broadcast. -/
theorem funds_once (settings : Settings) {start w : Tick} (hlockup : .lockupFunded sid ∉ start.log)
    (hchannel : .channelFunded sid ∉ start.log) (hidle : start.broadcasting () = none)
    (h : prompt.Restarts (advance settings sid) start w) :
    w.log.count (.lockupFunded sid) ≤ 1 ∧ w.log.count (.channelFunded sid) ≤ 1 := by
  have hs : FundedOnce sid start := by
    refine ⟨?_, ?_, fun _ => ⟨fun hm => (hlockup hm).elim, fun hm => (hchannel hm).elim⟩⟩
    · exact (count_eq_zero.2 hlockup).trans_le zero_le_one
    · exact (count_eq_zero.2 hchannel).trans_le zero_le_one
  have he : FundedOnce sid w := Protocol.restarts (P := once sid) advance_once hs h
  exact ⟨he.lockup, he.channel⟩

def awaitedRow : BoltzSwap := {
  boltzSwapId := "a"
  invoiceAmountSats := 100000
  destinationAddress := ""
  boltzInvoice := some "lnbc1"
  boltzLockupAddress := some "bc1q" }

def unfundedRow (strategy : BraiinsDepositFundingStrategy) : BraiinsDepositSession := {
  sourceKind := .onchain
  fundingStrategy := strategy
  submarineBoltzSwapId := some 0
  submarinePaymentHashHex := some "h" }

def unfundedWorld (strategy : BraiinsDepositFundingStrategy) : Tick where
  swaps := fun _ => some awaitedRow
  payer := fun _ => .boltz
  sessions := fun _ => some (unfundedRow strategy)
  queue := []
  log := []
  reading := fun _ => none
  failing := fun _ => none

def twoPeers : Settings where
  channelOpenCandidates := fun _ => [⟨"02aa", "a:9735", "a"⟩, ⟨"02bb", "b:9735", "b"⟩]

def anyQuote : Quote where
  invoiceAmountSats := 1
  submarineInvoiceAmountSats := 1

theorem funds_once_lockup :
    ∃ w, prompt.Restarts (advance {} 0) (unfundedWorld .swap) w ∧ w.log = [.lockupFunded 0] ∧
      w.log.count (.lockupFunded 0) ≤ 1 ∧ w.log.count (.channelFunded 0) ≤ 1 := by
  have h0 : prompt.Reach _ ⟨unfundedWorld .swap, fun _ => advance {} 0⟩ := .refl
  have h1 := h0.run () rfl (.ok (some (unfundedRow .swap))) ⟨rfl, .inl ⟨.inl rfl, rfl⟩⟩
  have h2 := h1.run () rfl (.ok (.ok anyQuote)) ⟨trivial, rfl⟩
  have h3 := h2.run () rfl (.ok (some awaitedRow)) ⟨trivial, .inl ⟨rfl, rfl⟩⟩
  have h4 := h3.run () rfl (.ok none) ⟨trivial, rfl⟩
  have h5 := h4.run () rfl (.ok (.ok "tx")) ⟨.inl ⟨"tx", rfl⟩, .inl rfl⟩
  have h6 := h5.run () rfl (.ok ()) ⟨fun _ => rfl, .inl ⟨rfl, .inl rfl⟩⟩
  refine ⟨_, .single ⟨_, h6⟩, rfl, ?_⟩
  exact funds_once {} not_mem_nil not_mem_nil rfl (.single ⟨_, h6⟩)

/-- A tick that is cut off after its call and before its commit funds the lockup
again when it is run again. In one tick, a peer whose open ends in an error after
its transaction went out is followed by the next peer. -/
theorem funded_again :
    (∃ w, (machine Unit).Restarts (advance {} 0) (unfundedWorld .swap) w ∧
      w.log = [.lockupFunded 0, .lockupFunded 0]) ∧
    ∃ w, (machine Unit).Restarts (advance twoPeers 0) (unfundedWorld .channel) w ∧
      w.log = [.channelFunded 0, .channelFunded 0] := by
  constructor
  · have h0 : (machine Unit).Reach _ ⟨unfundedWorld .swap, fun _ => advance {} 0⟩ := .refl
    have h1 := h0.run () rfl (.ok (some (unfundedRow .swap))) (.inl ⟨.inl rfl, rfl⟩)
    have h2 := h1.run () rfl (.ok (.ok anyQuote)) rfl
    have h3 := h2.run () rfl (.ok (some awaitedRow)) (.inl ⟨rfl, rfl⟩)
    have h4 := h3.run () rfl (.ok none) rfl
    have h5 := h4.run () rfl (.ok (.ok "tx")) (.inl rfl)
    -- the tick is cut off here, and the next one reads the same row
    let w := ((unfundedWorld .swap).read () .depositTick 0).fund () (.lockupFunded 0)
    have k0 : (machine Unit).Reach ⟨w, fun _ => advance {} 0⟩ ⟨w, fun _ => advance {} 0⟩ := .refl
    have k1 := k0.run () rfl (.ok (some (unfundedRow .swap))) (.inl ⟨.inl rfl, rfl⟩)
    have k2 := k1.run () rfl (.ok (.ok anyQuote)) rfl
    have k3 := k2.run () rfl (.ok (some awaitedRow)) (.inl ⟨rfl, rfl⟩)
    have k4 := k3.run () rfl (.ok none) rfl
    have k5 := k4.run () rfl (.ok (.ok "tx2")) (.inl rfl)
    exact ⟨_, .tail (.single ⟨_, h5⟩) ⟨_, k5⟩, rfl⟩
  · have h0 : (machine Unit).Reach _ ⟨unfundedWorld .channel, fun _ => advance twoPeers 0⟩ := .refl
    have h1 := h0.run () rfl (.ok (some (unfundedRow .channel))) (.inl ⟨.inl rfl, rfl⟩)
    have h2 := h1.run () rfl (.ok (.ok anyQuote)) rfl
    have h3 := h2.run () rfl (.ok (.ok ())) rfl
    have h4 := h3.run () rfl (.ok (.error "Connection failed: ")) (.inl rfl)
    have h5 := h4.run () rfl (.ok (.ok ())) rfl
    have h6 := h5.run () rfl (.ok (.ok "tx")) (.inl rfl)
    exact ⟨_, .single ⟨_, h6⟩, rfl⟩

end AgentWallet.Swaps
