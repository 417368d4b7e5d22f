import AgentWallet.Channels.OpenOnce
/-!
# Which channel an entry acts on

A parallel run looks its channels up by their peer, and so does the drain of a bootstrap
round; only the wait of a round asks for its outpoint. With another channel to the peer
an entry may be promoted by that channel, or drain it (`drains_older_channel`).
-/

namespace AgentWallet.Channels

open AgentWallet.Lib List Option

def Channel.With (pubkey : String) (ch : Channel) : Prop := lower ch.remotePubkey = lower pubkey

def LastWith (channels : List Channel) (pubkey : String) (ch : Channel) : Prop :=
  lower pubkey ≠ "" ∧ ch.With pubkey ∧
    ∃ before after, channels = before ++ ch :: after ∧ ∀ other ∈ after, ¬ other.With pubkey

def FirstActive (channels : List Channel) (pubkey : String) (ch : Channel) : Prop :=
  ch.With pubkey ∧ ch.active = true ∧
    ∃ before after, channels = before ++ ch :: after ∧ ∀ other ∈ before, other.With pubkey → other.active = false

/-- The channel with the outpoint is active. -/
def Up (channels : List Channel) (point : Option String) : Prop :=
  ∃ own ∈ channels, some own.channelPoint = point ∧ own.active = true

/-- A swap is sized from the channel with the outpoint, and pinned to it. -/
def Pinned (channels : List Channel) (point : Option String) : Command → Prop
  | .requestReverseSwap amountSats _ chan =>
    ∃ own ∈ channels, some own.channelPoint = point ∧ chan = some own.chanId ∧ amountSats = drainOf own.drainable
  | _ => True

variable {channels : List Channel} {pubkey : String} {ch : Channel} {point : Option String}

lemma channelWith_eq_some : channelWith channels pubkey = some ch ↔ LastWith channels pubkey ch := by
  simp only [channelWith, find?_eq_some_iff_append, LastWith, Channel.With]
  constructor
  · rintro ⟨hp, as, bs, hs, has⟩
    refine ⟨by grind, by grind, bs.reverse, as.reverse, ?_, fun other ho => ?_⟩
    · simpa using congrArg List.reverse hs
    · have := has other (by simpa using ho)
      grind
  · rintro ⟨hne, hch, before, after, rfl, ha⟩
    refine ⟨by grind, after.reverse, before.reverse, by simp, fun other ho => ?_⟩
    have := ha other (by simpa using ho)
    grind

lemma find_active : (channels.find? fun ch => lower ch.remotePubkey = lower pubkey ∧ ch.active) = some ch ↔
    FirstActive channels pubkey ch := by
  simp only [find?_eq_some_iff_append, FirstActive, Channel.With]
  grind

lemma keepWaiting_within {φ : Command → Prop} (hp : φ .getPendingChannelsDetail) (hc : φ .getChannels)
    {c : Copy} {idx : ℕ} {entry : Round} (he : c.run.rounds[idx]? = some entry) (now : ℕ) (what : String) :
    (keepWaiting now c idx entry what).Within φ fun c' =>
      ∀ next ∈ c'.run.rounds[idx]?, next.state = .openActive → entry.state = .openActive := by
  have hf := flagStuckIfWaiting_leads now he what
  unfold keepWaiting
  generalize flagStuckIfWaiting now c idx entry what = flagged at hf ⊢
  obtain ⟨-, hr, hs⟩ := hf
  refine .bind (stuckReason_within hp hc _ _ _ _ _) fun reason _ => ?_
  cases reason with
  | none =>
    intro next hn ha
    exact hs.symm.trans (some.inj (hr.symm.trans hn) ▸ ha)
  | some reason =>
    intro next hn ha
    have hse := getElem?_set_self (a := flagged.2.stop reason) (List.getElem?_eq_some_iff.1 hr).1
    obtain rfl := some.inj (hse.symm.trans hn)
    unfold Round.stop at ha
    split at ha <;> cases ha

lemma drainRound_pinned (c : Copy) (idx : ℕ) (entry : Round) :
    (drainRound c idx entry ch).Within (Pinned channels point) (fun _ => True) ↔
      (boltzMinSats ≤ drainOf ch.drainable → ∃ own ∈ channels, some own.channelPoint = point ∧ own.chanId = ch.chanId ∧
        drainOf own.drainable = drainOf ch.drainable) := by
  unfold drainRound
  dsimp only
  split
  case isTrue h => exact iff_of_true trivial fun hle => absurd h (not_lt.2 hle)
  rename_i h
  constructor
  · intro hw _
    -- with an address, the swap is requested
    obtain ⟨own, ho, hp, hc, ha⟩ := ((hw.2 (.ok (.ok (some "")))) : _ ∧ _).1
    exact ⟨own, ho, hp, (some.inj hc).symm, ha.symm⟩
  · intro ho
    obtain ⟨own, hm, hp, hc, ha⟩ := ho (not_lt.1 h)
    refine .bind (Task.within_call (c := Command.newAddress) trivial fun _ => trivial) fun address _ => ?_
    rcases address with err | (_ | destination)
    · trivial
    · trivial
    dsimp only
    refine Task.Within.bind (show Task.Within _ (fun _ => True) _ from ?_) fun ⟨c, swap⟩ _ => ?_
    · refine .bind (Task.within_call (c := Command.requestReverseSwap _ _ _) ?_ fun _ => trivial) fun answer _ => ?_
      · exact ⟨own, hm, hp, hc ▸ rfl, ha.symm⟩
      cases answer with
      | error err => trivial
      | ok swapId =>
        refine .bind (Task.within_call (c := Command.commitSwap _ _ _) trivial fun _ => trivial) fun _ _ => ?_
        exact .bind (Task.within_call (c := Command.refreshSwap _) trivial fun _ => trivial) fun _ _ => trivial
    · cases swap with
      | error err =>
        dsimp only
        split <;> trivial
      | ok swapId => exact .bind (Task.within_call (c := Command.commit _ _) trivial fun _ => trivial) fun _ _ => trivial

/-- Which channels entries act on, when LND reports these. A pending entry of a parallel
run is promoted by its own channel unless the last channel with its peer is another one
that is active; a round asks for its own outpoint; and it drains its own channel unless
the first active channel with its peer is another one that can be drained. -/
theorem own_channel_iff (channels : List Channel) :
    (∀ entry : ChannelEntry, entry.openState ≠ .openActive →
      (((entry.refresh channels).openState = .openActive → Up channels entry.point) ↔
        (entry.openState = .openPending →
          ∀ ch, LastWith channels entry.peerPubkey ch → ch.active = true → Up channels entry.point))) ∧
    ∀ (now : ℕ) (c : Copy) (idx : ℕ), ∀ entry ∈ c.run.rounds[idx]?,
      (entry.state = .openPending → ∀ point ∈ entry.point, ∃ k,
        advanceBootstrapRound now c idx = .await (.channelIsActive point) k ∧
          ∀ r, r ≠ .ok (some true) → (k r).Within (fun _ => True) fun c' =>
            ∀ next ∈ c'.run.rounds[idx]?, next.state ≠ .openActive) ∧
      (entry.state = .openActive → ∃ k, advanceBootstrapRound now c idx = .await .getChannels k ∧
        ((k (.ok (some channels))).Within (Pinned channels entry.point) (fun _ => True) ↔
          ∀ ch, FirstActive channels entry.peerPubkey ch → boltzMinSats ≤ drainOf ch.drainable →
            ∃ own ∈ channels, some own.channelPoint = entry.point ∧ own.chanId = ch.chanId ∧
              drainOf own.drainable = drainOf ch.drainable)) := by
  refine ⟨fun entry hi => ?_, fun now c idx entry he => ⟨fun hs point hp => ?_, fun hs => ?_⟩⟩
  · have hre : (entry.refresh channels).openState = .openActive ↔
        entry.openState = .openPending ∧ ∃ ch, LastWith channels entry.peerPubkey ch ∧ ch.active = true := by
      simp only [← channelWith_eq_some, ← Option.any_eq_true]
      unfold ChannelEntry.refresh
      split <;> simp_all
    rw [hre]
    exact ⟨fun h ho ch hl ha => h ⟨ho, ch, hl, ha⟩,
      fun h ⟨ho, ch, hl, ha⟩ => h ho ch hl ha⟩
  · obtain ⟨txid, ht, rfl⟩ := Option.map_eq_some_iff.1 hp
    constructor
    constructor
    · rw [advanceBootstrapRound, Option.mem_def.1 he]
      simp only [hs]
      rw [ht]
      rfl
    rintro (e | _ | _ | _) hr
    · trivial
    · intro next hn
      rw [← some.inj ((Option.mem_def.1 he).symm.trans hn), hs]
      nofun
    · exact (keepWaiting_within trivial trivial he now _).mono (fun _ h => h) fun c' hc' next hn ha =>
        nomatch hs.symm.trans (hc' next hn ha)
    · exact (hr rfl).elim
  · refine ⟨_, by simp only [advanceBootstrapRound, Option.mem_def.1 he, hs]; rfl, ?_⟩
    simp only [← find_active]
    rw [Lib.Task.result, Lib.Task.bind]
    dsimp only
    cases channels.find? _ with
    | none => exact iff_of_true ((keepWaiting_within trivial trivial he now _).mono (fun _ h => h) fun _ _ => trivial) nofun
    | some ch => simpa using drainRound_pinned c idx entry

/-- Another channel to the peer of the round, listed first, is drained in the place of the
round's own. -/
theorem drains_older_channel :
    let older : Channel := ⟨"peer", "old:0", "1", true, 900000, 10000, 0, 0⟩
    let own : Channel := ⟨"peer", "new:0", "2", true, 900000, 10000, 0, 0⟩
    let entry : Round :=
      { roundIndex := 0, state := .openActive, peerAlias := "", peerPubkey := "peer", peerHost := "",
        capacitySats := 900000, drainTargetSats := 0, spendableBeforeSats := 0, openTxid := some "new" }
    let run : Run := { mode := .bootstrap, rounds := [entry] }
    ∃ k, advanceBootstrapRound 0 ⟨run, run⟩ 0 = .await .getChannels k ∧
      ¬ (k (.ok (some [older, own]))).Within (Pinned [older, own] entry.point) fun _ => True := by
  intro older own entry run
  refine ⟨_, rfl, ?_⟩
  have hf : ([older, own].find? fun ch => lower ch.remotePubkey = lower entry.peerPubkey ∧ ch.active) =
      some older := find?_cons_of_pos (by simp [older, entry])
  rw [Lib.Task.result, Lib.Task.bind]
  dsimp only
  rw [hf]
  dsimp only
  rw [drainRound_pinned]
  decide

end AgentWallet.Channels
