import AgentWallet.Swaps.Store
import Mathlib.Data.Rat.Floor
/-!
# The channel-mix executor (`_run_one_mix`)

A run opens the channels of a plan. In parallel mode each tick opens every queued
channel and commits once, at its end. In bootstrap mode the channels are opened
one after the other: each round opens a channel, drains it with a reverse swap and
waits for the claim, and the row is committed after the open and after the swap.

A tick takes the row with a lock that its first commit drops. It works on a copy,
and a commit writes the columns that the copy has changed. The funding transactions
that LND has broadcast are the list `World.funded`.
-/

namespace AgentWallet.Channels

open AgentWallet.Lib
open AgentWallet.Swaps (SwapStatus Raised column)

/-! ## Runs -/

inductive RunState
  | queued
  | inProgress
  | awaitingFunds
  | complete
  | partialFailure
  | stoppedInsufficient
  | cancelled
deriving DecidableEq

def RunState.terminal : RunState → Bool
  | .complete | .partialFailure | .stoppedInsufficient | .cancelled => true
  | .queued | .inProgress | .awaitingFunds => false

inductive Mode
  | parallel
  | bootstrap
deriving DecidableEq

/-- `CHANNEL_OPEN_STATES` -/
inductive OpenState
  | queued
  | opening
  | openPending
  | openActive
  | openFailed
deriving DecidableEq

/-- `CHANNEL_SEED_STATES` -/
inductive SeedState
  | skipped
  | queued
  | swapping
  | seeded
  | seedFailed
deriving DecidableEq

structure ChannelEntry where
  peerAlias : String
  peerPubkey : String
  peerHost : String
  capacitySats : ℕ
  pushSat : ℕ
  expectedInboundSeedSats : ℕ
  openState : OpenState := .queued
  openTxid : Option String := none
  openOutputIndex : Option ℕ := none
  openPendingSince : Option ℕ := none
  openError : Option String := none
  seedState : SeedState := .skipped
  seedSwapId : Option String := none
  seedError : Option String := none
deriving DecidableEq

/-- `BOOTSTRAP_ROUND_STATES` -/
inductive RoundState
  | opening
  | openPending
  | openActive
  | swapping
  | swapPending
  | settled
  | openFailed
  | swapFailed
deriving DecidableEq

def RoundState.terminal : RoundState → Bool
  | .settled | .openFailed | .swapFailed => true
  | .opening | .openPending | .openActive | .swapping | .swapPending => false

structure Round where
  roundIndex : ℕ
  state : RoundState := .opening
  peerAlias : String
  peerPubkey : String
  peerHost : String
  capacitySats : ℕ
  drainTargetSats : ℕ
  expectedInboundSats : ℕ := 0
  spendableBeforeSats : ℕ
  openFeeSats : ℕ := 0
  openTxid : Option String := none
  openOutputIndex : Option ℕ := none
  openError : Option String := none
  swapId : Option String := none
  swapLockupTxid : Option String := none
  swapClaimTxid : Option String := none
  recycledSats : Option ℕ := none
  swapError : Option String := none
  connectAttempts : ℕ := 0
  reserveShrinkAttempts : ℕ := 0
  swapAttempts : ℕ := 0
  triedPubkeys : List String := []
  waitingSince : Option ℕ := none
deriving DecidableEq

structure Peer where
  peerAlias : String
  nodeIdHex : String
  address : String
deriving DecidableEq

/-- The columns of `channel_mix_runs` that a tick reads or writes. The entries of
the column `channels` are `channels` in a parallel run and `rounds` in a bootstrap
run; `eligiblePeers` is the pool that `bootstrap_params` determine. -/
structure Run where
  mode : Mode
  state : RunState := .queued
  channels : List ChannelEntry := []
  rounds : List Round := []
  eligiblePeers : List Peer := []
  targetInboundSats : Option ℕ := none
  realizedInboundSats : ℕ := 0
  totalFeesSats : ℕ := 0
  stopRequested : Bool := false
  awaitingSince : Option ℕ := none
  warnings : List String := []
  errorMessage : Option String := none
  startedAt : Option ℕ := none
  completedAt : Option ℕ := none
deriving DecidableEq

/-- What a commit of a copy that was read as `before` makes of the row. -/
def Run.write (before after row : Run) : Run :=
  { row with
    state := column before.state after.state row.state
    channels := column before.channels after.channels row.channels
    rounds := column before.rounds after.rounds row.rounds
    realizedInboundSats := column before.realizedInboundSats after.realizedInboundSats row.realizedInboundSats
    totalFeesSats := column before.totalFeesSats after.totalFeesSats row.totalFeesSats
    awaitingSince := column before.awaitingSince after.awaitingSince row.awaitingSince
    warnings := column before.warnings after.warnings row.warnings
    errorMessage := column before.errorMessage after.errorMessage row.errorMessage
    completedAt := column before.completedAt after.completedAt row.completedAt }

/-- The copy of a session: as it was last read or committed, and as it is now. -/
structure Copy where
  before : Run
  run : Run

def Copy.modify (c : Copy) (f : Run → Run) : Copy := { c with run := f c.run }

/-- `run.channels[idx] = entry` -/
def Copy.setChannel (c : Copy) (idx : ℕ) (entry : ChannelEntry) : Copy :=
  c.modify fun run => { run with channels := run.channels.set idx entry }

/-- `run.channels[idx] = entry` -/
def Copy.setRound (c : Copy) (idx : ℕ) (entry : Round) : Copy :=
  c.modify fun run => { run with rounds := run.rounds.set idx entry }

def Copy.setState (c : Copy) (state : RunState) : Copy := c.modify fun run => { run with state := state }

def Copy.warn (c : Copy) (text : String) : Copy :=
  c.modify fun run => { run with warnings := run.warnings ++ [text] }

def Copy.finalizeRun (now : ℕ) (c : Copy) (state : RunState) : Copy :=
  if c.run.state.terminal then c
  else c.modify fun run => { run with state := state, completedAt := some now }

/-! ## Commands -/

structure OpenChannel where
  pubkey : String
  capacitySats : ℕ
  satPerVbyte : Option ℕ := none
  pushSat : ℕ

structure Opened where
  fundingTxid : String
  outputIndex : ℕ

structure Channel where
  remotePubkey : String
  channelPoint : String
  chanId : String
  active : Bool
  localBalance : ℕ
  localChanReserveSat : ℕ
  commitFee : ℕ
  unsettledBalance : ℕ

structure PendingChannel where
  channelPoint : String
  pendingOpen : Bool

structure Balance where
  confirmedBalance : ℕ
  reservedBalanceAnchorChan : ℕ

structure Swap where
  status : SwapStatus
  onchainAmountSats : ℕ
  lockupTxid : Option String
  claimTxid : Option String

/-- What `_audit_channel_open` records of an attempt. -/
structure Attempt where
  peerAlias : String
  peerPubkey : String
  capacitySats : ℕ
  pushSat : ℕ
  openTxid : Option String
  error : Option String

/-- What a tick awaits. An open is for an entry. `requestReverseSwap` is
`create_reverse_swap` up to the swap it stores, `commitSwap` the commit that stores
the swap, and with it what the copy of the run has changed. -/
inductive Command
  | selectForUpdate
  | commit (before after : Run)
  | commitSwap (swapId : String) (before after : Run)
  | close
  | connectPeer (pubkey host : String)
  | listPeerPubkeys
  | openChannel (channelIdx : ℕ) (request : OpenChannel)
  | auditChannelOpen (channelIdx : ℕ) (attempt : Attempt)
  | getChannels
  | getPendingChannelsDetail
  | channelIsActive (channelPoint : String)
  | newAddress
  | requestReverseSwap (amountSats : ℕ) (destination : String) (outgoingChanId : Option String)
  | refreshSwap (swapId : String)
  | selectSwap (swapId : String)
  | getWalletBalance
  | getRecommendedFees

/-- Answers. Where only the absence of an answer is looked at, an error is `none`. -/
abbrev Reply : Command → Type
  | .selectForUpdate => Option Run
  | .commit _ _ | .commitSwap _ _ _ | .close | .auditChannelOpen _ _ | .refreshSwap _ => Unit
  | .connectPeer _ _ => Except String Unit
  | .listPeerPubkeys => Option (List String)
  | .openChannel _ _ => Except String Opened
  | .getChannels => Option (List Channel)
  | .getPendingChannelsDetail => Option (List PendingChannel)
  | .channelIsActive _ => Option Bool
  | .newAddress => Except String (Option String)
  | .requestReverseSwap _ _ _ => Except String String
  | .selectSwap _ => Option Swap
  | .getWalletBalance => Option Balance
  | .getRecommendedFees => Option ℚ

abbrev Code (α : Type) : Type := Lib.Task Command Reply Raised α

def call (c : Command) : Code (Reply c) := Lib.Task.call c

/-! ## The state -/

/-- The row and its lock, the ticks whose worker was killed, and the entry of each
funding transaction that LND broadcast. Of the past of a tick it is kept whether it
had a funding transaction broadcast that it has not committed since, and whether
the last thing it committed was a swap. -/
structure World (T : Type) where
  row : Run
  lock : Option T := none
  dead : T → Bool := fun _ => false
  funded : List ℕ := []
  owes : T → Bool := fun _ => false
  apart : T → Bool := fun _ => false

variable {T : Type} [DecidableEq T]

variable (w : World T) (t : T)

/-- The lock after the transaction of `t` has ended. -/
def release (lock : Option T) : Option T := if lock = some t then none else lock

/-- The row is written, with the lock on it, and the transaction ends. -/
def World.commit (before after : Run) (swap : Bool) : World T :=
  { w with
    row := before.write after w.row
    lock := release t w.lock
    owes := Function.update w.owes t false
    apart := Function.update w.apart t swap }

def World.rollback : World T :=
  { w with lock := release t w.lock, apart := Function.update w.apart t false }

def World.broadcast (channelIdx : ℕ) : World T :=
  { w with funded := channelIdx :: w.funded, owes := Function.update w.owes t true }

def World.kill : World T :=
  { w with dead := Function.update w.dead t true, lock := release t w.lock }

/-- A commit that changes the row waits for the lock. It may fail, before or after it
was made. -/
def Commits (before after : Run) (swap : Bool) (w : World T) (r : Except Raised Unit) (w' : World T) : Prop :=
  (before = after ∨ w.lock = none ∨ w.lock = some t) ∧
    (w' = w.commit t before after swap ∨ w' = w.rollback t ∧ ∃ e, r = .error e)

/-- Any command may fail. LND may broadcast the funding transaction of an open
whatever it answers, and has done so if it returns one. A worker may be killed at any
time. -/
def machine (T : Type) [DecidableEq T] : Machine T Command Reply Raised (World T) where
  exec t c w r w' := w.dead t = false ∧
    match c with
    | .selectForUpdate =>
        w.lock = none ∧ r = .ok (some w.row) ∧ w' = { w with lock := some t } ∨
          w' = w ∧ ∀ run, r ≠ .ok (some run)
    | .commit before after => Commits t before after false w r w'
    | .commitSwap _ before after => Commits t before after true w r w'
    | .close => w' = w.rollback t
    | .openChannel channelIdx _ => w' = w.broadcast t channelIdx ∨ w' = w ∧ ∀ opened, r ≠ .ok (.ok opened)
    | _ => w' = w
  env w w' := ∃ t, w' = w.kill t

/-! ## Opening the channels of a parallel run -/

/-- `text[:512]` -/
def clip (text : String) : String := String.ofList (text.toList.take 512)

def lower (text : String) : String := text.map Char.toLower

/-- `marker in str(err).lower()` -/
def mentions (err marker : String) : Bool := decide (marker.toList <:+: (lower err).toList)

def peerConnectWaitPolls : ℕ := 15

def waitPeerConnected (pubkey : String) : ℕ → Code Bool
  | 0 => return false
  | polls + 1 => do
    match ← call .listPeerPubkeys with
    | some pubs => if pubkey ∈ pubs then return true else waitPeerConnected pubkey polls
    | none => waitPeerConnected pubkey polls

inductive Connection
  | online
  | refused (err : String)
  | offline

/-- LND only initiates a connection, so it is waited for. -/
def connect (pubkey host : String) : Code Connection := do
  match ← call (.connectPeer pubkey host) with
  | .ok () => awaitPeer
  | .error err => if mentions err "already connected" then awaitPeer else return .refused err
where
  awaitPeer : Code Connection := do
    let online ← waitPeerConnected pubkey peerConnectWaitPolls
    return if online then .online else .offline

/-- No channel means no seed step. -/
def ChannelEntry.fail (entry : ChannelEntry) (error : String) : ChannelEntry :=
  { entry with
    openState := .openFailed
    openError := some (clip error)
    seedState := if entry.seedState = .queued then .skipped else entry.seedState }

/-- `_audit_channel_open`, of a channel. -/
def auditChannel (idx : ℕ) (entry : ChannelEntry) (error : Option String) : Code Unit :=
  call (.auditChannelOpen idx ⟨entry.peerAlias, entry.peerPubkey, entry.capacitySats, entry.pushSat, entry.openTxid,
    error⟩)

variable (now : ℕ) (c : Copy) (idx : ℕ) (entry : ChannelEntry)

def failChannel (error : String) : Code Copy := do
  auditChannel idx (entry.fail error) (some error)
  return c.setChannel idx (entry.fail error)

def ChannelEntry.pending (now : ℕ) (opened : Opened) : ChannelEntry :=
  { entry with
    openState := .openPending
    openPendingSince := some now
    openTxid := if opened.fundingTxid = "" then entry.openTxid else some opened.fundingTxid
    openOutputIndex := some opened.outputIndex }

/-- `_open_one_channel`, of a queued channel that is now opening. -/
def openChannel : Code Copy := do
  match ← connect entry.peerPubkey entry.peerHost with
  | .refused err => failChannel c idx entry ("connect failed: " ++ err)
  | .offline => failChannel c idx entry "connect failed: peer did not come online"
  | .online =>
    let answer : Except String Opened ← call (.openChannel idx
      { pubkey := entry.peerPubkey, capacitySats := entry.capacitySats, pushSat := entry.pushSat })
    match answer with
    | .error err => failChannel c idx entry ("open failed: " ++ err)
    | .ok opened =>
      auditChannel idx (entry.pending now opened) none
      return c.setChannel idx (entry.pending now opened)

def openOneChannel : Code Copy :=
  match c.run.channels[idx]? with
  | none => return c
  | some entry =>
    if entry.openState ≠ .queued then return c
    else
      let entry := { entry with openState := .opening }
      openChannel now (c.setChannel idx entry) idx entry

/-- The first loop of a parallel tick: the copy, and the channels that were opened. -/
def openQueued (now : ℕ) : List ℕ → Copy → List ℕ → Code (Copy × List ℕ)
  | [], c, opened => return (c, opened)
  | idx :: rest, c, opened =>
    if (c.run.channels[idx]?).any fun entry => entry.openState = .queued then do
      let c ← openOneChannel now c idx
      openQueued now rest c (idx :: opened)
    else openQueued now rest c opened

/-! ## What has become of them -/

/-- `by_pubkey.get(…)`: the last of the channels with the peer. -/
def channelWith (channels : List Channel) (pubkey : String) : Option Channel :=
  channels.reverse.find? fun ch => lower ch.remotePubkey ≠ "" ∧ lower ch.remotePubkey = lower pubkey

/-- A channel that waits for its confirmations and is active by now. -/
def ChannelEntry.refresh (channels : List Channel) (entry : ChannelEntry) : ChannelEntry :=
  if entry.openState = .openPending ∧ (channelWith channels entry.peerPubkey).any Channel.active then
    { entry with openState := .openActive }
  else entry

def refreshOpenPendingStates : Code Copy :=
  if c.run.channels.any fun entry => entry.openState = .openPending then do
    match ← call .getChannels with
    | none => return c
    | some active => return c.modify fun run => { run with channels := run.channels.map (ChannelEntry.refresh active) }
  else return c

def channelPoint (txid : String) (outputIndex : ℕ) : String := txid ++ ":" ++ toString outputIndex

def channelConfirmedDead (point : String) : Code (Option Bool) := do
  match ← call .getPendingChannelsDetail with
  | none => return none
  | some pending =>
    match pending.find? fun pch => pch.channelPoint = point with
    | some pch => return some (!pch.pendingOpen)
    | none =>
      match ← call .getChannels with
      | none => return none
      | some active => return some (active.all fun ch => ch.channelPoint ≠ point)

/-- `CHANNEL_MIX_WAIT_HARD_TIMEOUT_MINUTES`, in seconds. -/
def waitHardTimeout : ℕ := 24 * 60 * 60

def waitHardTimedOut (since : Option ℕ) (now : ℕ) : Bool := since.any fun since => waitHardTimeout ≤ now - since

/-- Why a wait is over, if it is: the channel is gone, or it took too long. -/
def stuckReason (point : Option String) (since : Option ℕ) (now : ℕ) (gone late : String) : Code (Option String) :=
  match point with
  | none => return if waitHardTimedOut since now then some late else none
  | some point => do
    let dead ← channelConfirmedDead point
    return if dead = some true then some gone else if waitHardTimedOut since now then some late else none

def ChannelEntry.point : Option String :=
  match entry.openTxid, entry.openOutputIndex with
  | some txid, some outputIndex => some (channelPoint txid outputIndex)
  | _, _ => none

def resolveStuckChannel : Code Copy := do
  let reason ← stuckReason entry.point entry.openPendingSince now
    "the channel was force-closed or abandoned before it confirmed"
    "the channel didn't confirm within the safety window"
  match reason with
  | none => return c
  | some reason =>
    let peer := if entry.peerAlias = "" then "peer" else entry.peerAlias
    return (c.setChannel idx (entry.fail reason)).warn
      ("Channel to " ++ peer ++ ": stopped automatically — " ++ reason ++ ".")

def resolveStuckParallelChannels (now : ℕ) (skip : List ℕ) : List ℕ → Copy → Code Copy
  | [], c => return c
  | idx :: rest, c =>
    match c.run.channels[idx]? with
    | none => resolveStuckParallelChannels now skip rest c
    | some entry =>
      if idx ∈ skip ∨ entry.openState ≠ .openPending then resolveStuckParallelChannels now skip rest c
      else do
        let c ← resolveStuckChannel now c idx entry
        resolveStuckParallelChannels now skip rest c

/-! ## Swaps -/

/-- `create_reverse_swap`. The swap is committed in the session of the tick. -/
def createReverseSwap (amountSats : ℕ) (destination : String) (outgoingChanId : Option String) :
    Code (Copy × Except String String) := do
  let answer : Except String String ← call (.requestReverseSwap amountSats destination outgoingChanId)
  match answer with
  | .error err => return (c, .error err)
  | .ok swapId =>
    call (.commitSwap swapId c.before c.run)
    call (.refreshSwap swapId)
    return ({ c with before := c.run }, .ok swapId)

def failSeed (error : String) : Copy :=
  c.setChannel idx { entry with seedState := .seedFailed, seedError := some error }

/-- `_seed_one_channel`, of an active channel. -/
def seedChannel : Code Copy :=
  if entry.expectedInboundSeedSats = 0 then return c.setChannel idx { entry with seedState := .skipped }
  else do
    let address : Except String (Option String) ← call .newAddress
    match address with
    | .error err => return failSeed c idx entry (clip ("derive address: " ++ err))
    | .ok none => return failSeed c idx entry "derive address: no address returned"
    | .ok (some destination) =>
      let entry := { entry with seedState := .swapping }
      let (c, swap) ← createReverseSwap (c.setChannel idx entry) entry.expectedInboundSeedSats destination none
      match swap with
      | .error err => return failSeed c idx entry (clip ("create swap: " ++ err))
      | .ok swapId => return c.setChannel idx { entry with seedSwapId := some swapId, seedState := .seeded }

/-- The last loop of a parallel tick. -/
def seedActive : List ℕ → Copy → Code Copy
  | [], c => return c
  | idx :: rest, c =>
    match c.run.channels[idx]? with
    | none => seedActive rest c
    | some entry =>
      if entry.seedState = .queued ∧ entry.openState = .openActive then do
        let c ← seedChannel c idx entry
        seedActive rest c
      else seedActive rest c

variable (run : Run)

def rollupState : RunState :=
  if run.channels.isEmpty then .complete
  else if (run.channels.all fun e => e.openState = .openActive || e.openState = .openFailed) &&
      (run.channels.all fun e => e.seedState = .skipped || e.seedState = .seeded || e.seedState = .seedFailed) then
    if run.channels.any fun e => e.openState = .openFailed || e.seedState = .seedFailed then .partialFailure
    else .complete
  else .inProgress

/-- The state of the run, from those of its channels. -/
def rollUp : Copy :=
  if rollupState c.run = c.run.state then c
  else if (rollupState c.run).terminal then c.finalizeRun now (rollupState c.run)
  else c.setState (rollupState c.run)

def advanceParallel : Code Copy := do
  let c := c.setState .inProgress
  let (c, opened) ← openQueued now (List.range c.run.channels.length) c []
  let c ← refreshOpenPendingStates c
  let c ← resolveStuckParallelChannels now opened (List.range c.run.channels.length) c
  let c ← seedActive (List.range c.run.channels.length) c
  return rollUp now c

/-! ## Rounds -/

/-- `BOOTSTRAP_STUCK_MINUTES`, in seconds. -/
def bootstrapStuck : ℕ := 90 * 60

variable (entry : Round)

def flagStuckIfWaiting (what : String) : Copy × Round :=
  match entry.waitingSince with
  | none =>
    let entry := { entry with waitingSince := some now }
    (c.setRound idx entry, entry)
  | some since =>
    if bootstrapStuck ≤ now - since then
      (c.modify fun run => { run with
        errorMessage := some ("Round " ++ toString entry.roundIndex ++ ": " ++ what ++
          " is taking longer than expected to confirm — this can happen when fees are low. " ++
          "It will continue on its own; no action needed.") }, entry)
    else (c, entry)

def clearWaiting : Copy := c.modify fun run => { run with errorMessage := none }

def switchToNextPeer (peers : List Peer) (entry : Round) (reason : String) : Option Round :=
  let tried := if entry.peerPubkey ∈ entry.triedPubkeys then entry.triedPubkeys else entry.triedPubkeys ++ [entry.peerPubkey]
  match peers.find? fun p => p.nodeIdHex ∉ tried with
  | none => none
  | some next => some { entry with
      peerPubkey := next.nodeIdHex
      peerHost := next.address
      peerAlias := next.peerAlias
      triedPubkeys := tried
      connectAttempts := 0
      openError := some (clip (reason ++ ", trying " ++ next.peerAlias)) }

def Round.point : Option String :=
  entry.openTxid.map fun txid => channelPoint txid (entry.openOutputIndex.getD 0)

/-- A round that is stopped is a failed open before it has a swap, and a failed swap
after. -/
def Round.stop (reason : String) : Round :=
  if entry.swapId.isSome then
    { entry with waitingSince := none, state := .swapFailed, swapError := some (clip reason) }
  else { entry with waitingSince := none, state := .openFailed, openError := some (clip reason) }

def resolveStuckRound : Code Copy := do
  let reason ← stuckReason entry.point entry.waitingSince now
    "the channel was force-closed or abandoned before the round finished"
    "the round didn't confirm within the safety window"
  match reason with
  | none => return c
  | some reason =>
    return ((clearWaiting c).setRound idx (entry.stop reason)).warn
      ("Round " ++ toString entry.roundIndex ++ ": stopped automatically — " ++ reason ++ ".")

def keepWaiting (what : String) : Code Copy :=
  let (c, entry) := flagStuckIfWaiting now c idx entry what
  resolveStuckRound now c idx entry

def inflightIndex : Option ℕ := run.rounds.findIdx? fun entry => !entry.state.terminal

def settledCount : ℕ := run.rounds.countP fun entry => entry.state = .settled

def targetReached : Bool := run.targetInboundSats.any fun target => target ≤ run.realizedInboundSats

/-- `BOOTSTRAP_MAX_DURATION_MINUTES`, in seconds. -/
def bootstrapMaxDuration : ℕ := 24 * 60 * 60

def durationExceeded (now : ℕ) : Bool :=
  run.startedAt.any fun started => bootstrapMaxDuration ≤ now - started

/-- `BOOTSTRAP_AWAITING_FUNDS_TIMEOUT_MINUTES`, in seconds. -/
def awaitingFundsTimeout : ℕ := 90 * 60

def awaitingTimedOut (now : ℕ) : Bool := run.awaitingSince.any fun since => awaitingFundsTimeout ≤ now - since

def fallbackSatPerVb : ℚ := 20

def feerateSatVb : Code ℚ := do
  match ← (call .getRecommendedFees).attempt with
  | .ok (some rate) => return if 0 < rate then rate else fallbackSatPerVb
  | _ => return fallbackSatPerVb

/-! ### Opening -/

def maxConnectAttempts : ℕ := 3

def anchorReservePerChan : ℕ := 10000

def maxAnchorReserve : ℕ := 100000

def perChannelFloorSats : ℕ := 150000

/-- `_audit_channel_open`, of a round (`_bootstrap_audit_entry`). -/
def auditRound (error : Option String) : Code Unit :=
  call (.auditChannelOpen idx ⟨entry.peerAlias, entry.peerPubkey, entry.capacitySats, 0, entry.openTxid, error⟩)

def failRound (error audited : String) : Code Copy := do
  auditRound idx { entry with state := .openFailed, openError := some (clip error) } (some audited)
  return c.setRound idx { entry with state := .openFailed, openError := some (clip error) }

/-- The next peer is tried, on the next tick. Without one the round has failed. -/
def switchOrFail (reason error audited : String) : Code Copy :=
  match switchToNextPeer c.run.eligiblePeers entry reason with
  | some entry => return c.setRound idx entry
  | none => failRound c idx entry error audited

def connectFailed (err reason : String) : Code Copy :=
  let entry := { entry with connectAttempts := entry.connectAttempts + 1 }
  if entry.connectAttempts < maxConnectAttempts then
    return c.setRound idx { entry with
      openError := some (clip ("connect (retry " ++ toString entry.connectAttempts ++ "): " ++ err)) }
  else switchOrFail c idx entry reason ("connect: " ++ err) ("connect: " ++ err)

/-- The capacity reduced by what LND reserves for a channel, if enough is left. -/
def Round.shrink : Option Round :=
  let shrinks := entry.reserveShrinkAttempts + 1
  let newCap : ℤ := entry.capacitySats - anchorReservePerChan
  if perChannelFloorSats ≤ newCap ∧ shrinks ≤ maxAnchorReserve / anchorReservePerChan then
    some { entry with
      reserveShrinkAttempts := shrinks
      capacitySats := newCap.toNat
      openError := some ("resizing for LND anchor reserve (retry " ++ toString shrinks ++ ")") }
  else none

def shrinkOrFail (err : String) : Code Copy :=
  match entry.shrink with
  | some entry => return c.setRound idx entry
  | none =>
    failRound c idx { entry with reserveShrinkAttempts := entry.reserveShrinkAttempts + 1 } ("open: " ++ err)
      ("open: " ++ err)

def openRejected : Option String → Code Copy
  | none => switchOrFail c idx entry "open rejected (no funding_txid)" "open: no funding_txid" "open: None"
  | some err =>
    let next (entry : Round) := switchOrFail c idx entry ("open rejected (" ++ err ++ ")") ("open: " ++ err) ("open: " ++ err)
    if mentions err "reserved wallet balance" then shrinkOrFail c idx entry err
    else if mentions err "not online" ∨ mentions err "not connected" then
      let entry := { entry with connectAttempts := entry.connectAttempts + 1 }
      if entry.connectAttempts < maxConnectAttempts then
        return c.setRound idx { entry with
          openError := some ("open (retry " ++ toString entry.connectAttempts ++ "): peer not online yet") }
      else next entry
    else next entry

def Round.opened (entry : Round) (opened : Opened) : Round :=
  { entry with
    openTxid := some opened.fundingTxid
    openOutputIndex := some opened.outputIndex
    state := .openPending
    openError := none }

/-- The funding transaction is committed at once. -/
def saveOpened : Code Copy := do
  call (.commit c.before c.run)
  auditRound idx entry none
  return { c with before := c.run }

/-- `_advance_bootstrap_round`, opening, for a round without a funding transaction. -/
def openRound : Code Copy := do
  let satPerVb ← feerateSatVb
  match ← connect entry.peerPubkey entry.peerHost with
  | .refused err => connectFailed c idx entry err ("peer unreachable (" ++ err ++ ")")
  | .offline => connectFailed c idx entry "peer did not come online" "peer did not come online"
  | .online =>
    let answer : Except String Opened ← call (.openChannel idx
      { pubkey := entry.peerPubkey
        capacitySats := entry.capacitySats
        satPerVbyte := some (max 1 ⌊satPerVb⌋₊)
        pushSat := 0 })
    match answer with
    | .error err => openRejected c idx entry (some err)
    | .ok opened =>
      if opened.fundingTxid = "" then openRejected c idx entry none
      else saveOpened (c.setRound idx (entry.opened opened)) idx (entry.opened opened)

/-! ### Draining -/

def maxSwapAttempts : ℕ := 4

/-- `BOOTSTRAP_DEFAULT_BOLTZ_MIN_SATS` -/
def boltzMinSats : ℕ := 25000

/-- `BOOTSTRAP_DEFAULT_BOLTZ_MAX_SATS` -/
def boltzMaxSats : ℕ := 25000000

/-- What can be drained if the payment and its routing fee of 3 % have to fit. -/
def drainOf (drainable : ℕ) : ℕ := min (drainable * 100 / 103) boltzMaxSats

def Channel.drainable (ch : Channel) : ℕ :=
  ch.localBalance - ch.localChanReserveSat - ch.commitFee - ch.unsettledBalance

/-- The channel is too small to be drained, and is kept. -/
def settleUndrained : Copy :=
  ((c.setRound idx { entry with
      expectedInboundSats := 0
      recycledSats := some 0
      swapError := some "drainable below Boltz minimum — channel kept as outbound"
      state := .settled }).warn
    ("Round " ++ toString entry.roundIndex ++ ": channel opened but its drainable amount fell below the Boltz " ++
      "minimum — kept as outbound.")).modify fun run =>
    { run with totalFeesSats := run.totalFeesSats + entry.openFeeSats }

/-- `_advance_bootstrap_round`, with an active channel. -/
def drainRound (ch : Channel) : Code Copy :=
  let drain := drainOf ch.drainable
  if drain < boltzMinSats then return settleUndrained c idx entry
  else do
    let address : Except String (Option String) ← call .newAddress
    match address with
    | .ok (some destination) =>
      let (c, swap) ← createReverseSwap c drain destination (some ch.chanId)
      match swap with
      | .error err =>
        let entry := { entry with swapAttempts := entry.swapAttempts + 1 }
        if maxSwapAttempts ≤ entry.swapAttempts then
          return c.setRound idx { entry with state := .swapFailed, swapError := some (clip ("create swap: " ++ err)) }
        else
          return c.setRound idx { entry with
            swapError := some (clip ("create swap (retry " ++ toString entry.swapAttempts ++ "): " ++ err)) }
      | .ok swapId =>
        let c := c.setRound idx { entry with
          swapId := some swapId
          drainTargetSats := drain
          expectedInboundSats := drain
          state := .swapPending
          swapError := none
          waitingSince := none }
        call (.commit c.before c.run)
        return { c with before := c.run }
    | _ => return c

/-- The claim has returned the capital. -/
def settleRound (swap : Swap) : Copy :=
  let recycled := swap.onchainAmountSats
  ((clearWaiting c).setRound idx { entry with
      recycledSats := some recycled
      swapError := none
      waitingSince := none
      state := .settled }).modify fun run =>
    { run with
      realizedInboundSats := run.realizedInboundSats + entry.expectedInboundSats
      totalFeesSats := run.totalFeesSats + entry.openFeeSats + (entry.expectedInboundSats - recycled) }

def drainFailed (status : SwapStatus) : Copy :=
  let entry := { entry with swapAttempts := entry.swapAttempts + 1, waitingSince := none }
  if maxSwapAttempts ≤ entry.swapAttempts then
    (clearWaiting c).setRound idx { entry with
      state := .swapFailed
      swapError := some (clip ("drain failed (" ++ status.value ++ ")")) }
  else
    (clearWaiting c).setRound idx { entry with
      state := .openActive
      swapId := none
      swapError := some (clip ("drain attempt " ++ toString entry.swapAttempts ++ " failed (" ++ status.value ++
        "); retrying")) }

/-- `_advance_bootstrap_round`, with a swap. -/
def awaitClaim : Code Copy :=
  match entry.swapId with
  | none => return c.setRound idx { entry with state := .openActive }
  | some swapId => do
    let row : Option Swap ← call (.selectSwap swapId)
    match row with
    | none => return c.setRound idx { entry with state := .openActive, swapId := none }
    | some swap =>
      let entry := { entry with
        swapLockupTxid := swap.lockupTxid <|> entry.swapLockupTxid
        swapClaimTxid := swap.claimTxid <|> entry.swapClaimTxid }
      let c := c.setRound idx entry
      match swap.status with
      | .completed => return settleRound c idx entry swap
      | .failed | .cancelled | .refunded => return drainFailed c idx entry swap.status
      | _ => keepWaiting now c idx entry "the swap claim"

def advanceBootstrapRound : Code Copy :=
  match c.run.rounds[idx]? with
  | none => return c
  | some entry =>
    match entry.state with
    | .opening =>
      match entry.openTxid with
      | some _ => return c.setRound idx { entry with state := .openPending }
      | none => openRound c idx entry
    | .openPending => do
      let active : Option Bool ← call (.channelIsActive (channelPoint (entry.openTxid.getD "None")
        (entry.openOutputIndex.getD 0)))
      match active with
      | none => return c
      | some false => keepWaiting now c idx entry "the channel open"
      | some true => return (clearWaiting c).setRound idx { entry with waitingSince := none, state := .openActive }
    | .openActive => do
      let channels : Option (List Channel) ← call .getChannels
      match channels with
      | none => return c
      | some channels =>
        match channels.find? fun ch => lower ch.remotePubkey = lower entry.peerPubkey ∧ ch.active with
        | none => keepWaiting now c idx entry "the channel open"
        | some ch => drainRound c idx entry ch
    | .swapPending => awaitClaim now c idx entry
    | .swapping | .settled | .openFailed | .swapFailed => return c

/-! ### The next round -/

def maxRounds : ℕ := 40

def headroomSats : ℕ := 10000

/-- `_open_fee_sats(1, …)`, an open of `VBYTES_PER_CHANNEL_OPEN`. -/
def openFeeSats (satPerVb : ℚ) : ℕ := ⌈250 * satPerVb⌉₊

def reserveForCapacity (capacitySats : ℕ) : ℕ := max (capacitySats / 100) 5000

def capacityCap : ℕ :=
  let neededDrainable := (boltzMaxSats * 103 + 99) / 100
  neededDrainable + reserveForCapacity neededDrainable

def drainForCapacity (capacitySats : ℕ) : ℕ := drainOf (capacitySats - reserveForCapacity capacitySats)

def nextCapacity (bal : Balance) (openFee : ℕ) : ℤ :=
  let anchorReserve := min (bal.reservedBalanceAnchorChan + anchorReservePerChan) maxAnchorReserve
  min (bal.confirmedBalance - openFee - max headroomSats anchorReserve : ℤ) capacityCap

def stopCondition : Option (RunState × Option String) :=
  if run.stopRequested then some (.cancelled, some "Stopped after the current round at your request.")
  else if targetReached run then some (.complete, none)
  else if maxRounds ≤ settledCount run then
    some (.complete, some ("Reached the " ++ toString maxRounds ++ "-round cap."))
  else if durationExceeded run now then some (.complete, some "Reached the maximum run duration.")
  else none

def finish (state : RunState) : Option String → Copy
  | none => c.finalizeRun now state
  | some text => (c.finalizeRun now state).warn text

def insufficient (openFee : ℕ) : Copy :=
  if settledCount c.run = 0 then
    finish now c .stoppedInsufficient (some ("Not enough confirmed on-chain balance to open the first channel (need ~" ++
      thousands (perChannelFloorSats + openFee) ++ " sats)."))
  else if awaitingTimedOut c.run now then
    finish now c .stoppedInsufficient
      (some "Stopped — recyclable balance stayed below the next channel for too long.")
  else
    c.modify fun run => { run with
      awaitingSince := if run.state = .awaitingFunds then run.awaitingSince else some now
      state := .awaitingFunds }

def nextPeer (roundIndex : ℕ) : Option Peer := run.eligiblePeers[roundIndex % run.eligiblePeers.length]?

def makeRound (roundIndex : ℕ) (peer : Peer) (capacitySats drain confirmed openFee : ℕ) : Round where
  roundIndex := roundIndex
  peerAlias := peer.peerAlias
  peerPubkey := peer.nodeIdHex
  peerHost := peer.address
  capacitySats := capacitySats
  drainTargetSats := drain
  spendableBeforeSats := confirmed
  openFeeSats := openFee

def startRound : Copy :=
  c.modify fun run => { run with rounds := run.rounds ++ [entry], state := .inProgress }

/-- A run whose last round could not be opened has failed. -/
def failedOpen : Copy :=
  if (c.run.rounds.getLast?).any fun entry => entry.state = .openFailed then c.finalizeRun now .partialFailure else c

/-- `_bootstrap_maybe_start_round`, when the wallet can fund a channel. -/
def startNextRound (capacitySats confirmed openFee : ℕ) : Code Copy :=
  let c := c.modify fun run => { run with awaitingSince := none }
  let drain := drainForCapacity capacitySats
  if drain < boltzMinSats then
    return finish now c .complete
      (some "Reached the practical limit — the remaining balance can't be drained by swap.")
  else
    match nextPeer c.run (settledCount c.run) with
    | none => return finish now c .complete (some "No eligible peer available to open another channel.")
    | some peer => do
      let c := startRound c (makeRound (settledCount c.run) peer capacitySats drain confirmed openFee)
      let c ← advanceBootstrapRound now c (c.run.rounds.length - 1)
      return failedOpen now c

def maybeStartRound : Code Copy :=
  match stopCondition now c.run with
  | some (state, text) => return finish now c state text
  | none => do
    let balance : Option Balance ← call .getWalletBalance
    match balance with
    | none => return c.setState .inProgress
    | some bal =>
      let satPerVb ← feerateSatVb
      let openFee := openFeeSats satPerVb
      if nextCapacity bal openFee < perChannelFloorSats then return insufficient now c openFee
      else startNextRound now c (nextCapacity bal openFee).toNat bal.confirmedBalance openFee

def advanceBootstrap : Code Copy :=
  match inflightIndex c.run with
  | none => maybeStartRound now c
  | some idx => do
    let c ← advanceBootstrapRound now c idx
    if (inflightIndex c.run).isSome then return c.setState .inProgress
    else if (c.run.rounds.getLast?).any fun entry => entry.state = .openFailed ∨ entry.state = .swapFailed then
      return c.finalizeRun now .partialFailure
    else maybeStartRound now c

/-! ## A tick -/

/-- What `_run_one_mix` returns. -/
inductive Ticked
  | missing
  | status (state : RunState) (mode : Mode)

def advance : Code Copy :=
  match c.run.mode with
  | .bootstrap => advanceBootstrap now c
  | .parallel => advanceParallel now c

/-- The body of `_run_one_mix`, in its session. -/
def tick : Code Ticked := do
  let row : Option Run ← call .selectForUpdate
  match row with
  | none => return .missing
  | some run =>
    if run.state.terminal then return .status run.state run.mode
    else
      let c ← advance now ⟨run, run⟩
      call (.commit c.before c.run)
      return .status c.run.state c.run.mode

def runOneMix : Code Ticked := (tick now).tryFinally (call .close)

/-- A tick that is not to be retried returns its result. -/
inductive Outcome
  | returned (result : Ticked)
  | retry

/-- `process_channel_mix_run`. A retry is another tick. -/
def processChannelMixRun : Code Outcome := do
  match ← (runOneMix now).attempt with
  | .error _ => return .retry
  | .ok .missing => return .retry
  | .ok (.status state mode) =>
    return if state.terminal ∨ mode = .bootstrap then .returned (.status state mode) else .retry

end AgentWallet.Channels
