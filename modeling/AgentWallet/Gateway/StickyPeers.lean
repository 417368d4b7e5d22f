import AgentWallet.Lib.Runs
import Mathlib.Logic.Function.Basic
import Mathlib.Order.Lattice
/-!
# Dialling the peers of the gateway (`sticky_peers.rs`)

`dial_peer` runs under a mutex of its pubkey, which `DialLocks` makes at its first use and
`gc` drops once nobody else refers to it. The map is only looked at under its own lock, so
a call goes from one await or drop to the next in one step. A mutex is a number, and `refs`
has the tasks that hold a clone of its `Arc`.

The reconnect loop dials the sticky peers that are down, one after the other, and waits
longer after each failure. A deadline is counted from the start of the pass, not from the
end of the dial, so a slow dial uses up its own backoff (`redials_at_once`).
-/

namespace AgentWallet.Gateway

open AgentWallet.Lib Function

/-! ## The dial locks -/

/-- Where a call of `dial_peer` is. The guard that is `leaving` has unlocked the mutex and
still refers to it. -/
inductive Stage
  | waiting
  | dialling
  | leaving
  deriving DecidableEq

structure Dial (K : Type) where
  stage : Stage
  key : K
  mutex : ℕ

structure DialLocks (K T : Type) where
  inner : K → Option ℕ := fun _ => none
  made : ℕ := 0
  refs : ℕ → List T := fun _ => []
  holder : ℕ → Option T := fun _ => none
  dial : T → Option (Dial K) := fun _ => none

inductive LockEvent (K T : Type)
  | lock (t : T) (key : K)
  | acquire (t : T)
  /-- The dial has ended or was cancelled, and the guard unlocks the mutex. -/
  | unlock (t : T)
  /-- A guard, or a waiting task that is cancelled, drops its reference. -/
  | drop (t : T)
  | gc (keep : List K)

variable {K T : Type} [DecidableEq K] [DecidableEq T]

namespace DialLocks

variable (g : DialLocks K T)

def move (t : T) (d : Dial K) (stage : Stage) : DialLocks K T := { g with dial := update g.dial t (some { d with stage }) }

def strongCount (m : ℕ) : ℕ := 1 + (g.refs m).length

/-- The next step of a task that has called `dial_peer`. -/
def act (t : T) (d : Dial K) : LockEvent K T → Option (DialLocks K T)
  | .acquire _ =>
    if d.stage = .waiting ∧ g.holder d.mutex = none then
      some ({ g with holder := update g.holder d.mutex (some t) }.move t d .dialling)
    else none
  | .unlock _ =>
    if d.stage = .dialling then some ({ g with holder := update g.holder d.mutex none }.move t d .leaving) else none
  | .drop _ =>
    if d.stage = .dialling then none
    else some { g with refs := update g.refs d.mutex ((g.refs d.mutex).erase t), dial := update g.dial t none }
  | _ => none

def step (g : DialLocks K T) (e : LockEvent K T) : Option (DialLocks K T) :=
  match e with
  | .lock t key =>
    let m := (g.inner key).getD g.made
    if (g.dial t).isSome then none
    else some { g with
      inner := update g.inner key (some m)
      made := max g.made (m + 1)
      refs := update g.refs m (t :: g.refs m)
      dial := update g.dial t (some ⟨.waiting, key, m⟩) }
  | .acquire t | .unlock t | .drop t => (g.dial t).bind fun d => g.act t d e
  | .gc keep => some { g with inner := fun k => (g.inner k).filter fun m => k ∈ keep ∨ g.strongCount m > 1 }

/-- A task that dials has its lock in the map, refers to it, and holds it while dialling. -/
structure Sound : Prop where
  listed : ∀ t d, g.dial t = some d → g.inner d.key = some d.mutex ∧ t ∈ g.refs d.mutex
  held : ∀ t d, g.dial t = some d → d.stage = .dialling → g.holder d.mutex = some t

variable {g} {g' : DialLocks K T} {t : T} {d : Dial K}

lemma Sound.lock (h : Sound g) {key : K} (hs : g.step (.lock t key) = some g') : Sound g' := by
  simp only [step, Option.ite_none_left_eq_some, Option.some.injEq] at hs
  obtain ⟨-, rfl⟩ := hs
  constructor
  · intro u c hc
    have hu := h.listed u c
    grind [update_apply]
  · intro u c hc hi
    have hu := h.held u c
    grind [update_apply]

omit [DecidableEq K] in
/-- A step of a task that leaves the others their locks. -/
lemma Sound.move (h : Sound g) (hd : g.dial t = some d) {holder : ℕ → Option T} {stage : Stage}
    (ht : stage = .dialling → holder d.mutex = some t) (ho : ∀ m u, u ≠ t → g.holder m = some u → holder m = some u) :
    Sound ({ g with holder }.move t d stage) := by
  constructor
  · intro u c hc
    by_cases hu : u = t
    · obtain rfl : { d with stage } = c := by simpa [hu, DialLocks.move] using hc
      exact hu ▸ h.listed t d hd
    · exact h.listed u c (by simpa [hu, DialLocks.move] using hc)
  · intro u c hc hi
    by_cases hu : u = t
    · obtain rfl : { d with stage } = c := by simpa [hu, DialLocks.move] using hc
      exact hu ▸ ht hi
    · exact ho _ u hu (h.held u c (by simpa [hu, DialLocks.move] using hc) hi)

omit [DecidableEq K] in
lemma Sound.act (h : Sound g) (hd : g.dial t = some d) {e : LockEvent K T} (hs : g.act t d e = some g') : Sound g' := by
  cases e <;> simp only [DialLocks.act, Option.ite_none_right_eq_some, Option.ite_none_left_eq_some, Option.some.injEq,
    reduceCtorEq] at hs <;> obtain ⟨hg, rfl⟩ := hs
  case acquire => exact h.move hd (by simp) (by grind [update_apply])
  case unlock =>
    have hh := h.held t d hd hg
    exact h.move hd nofun (by grind [update_apply])
  case drop =>
    constructor
    · intro u c hc
      have hu := h.listed u c
      grind [update_apply]
    · exact fun u c hc => h.held u c (by grind [update_apply])

/-- A lock that a task refers to is not collected. -/
lemma Sound.gc (h : Sound g) {keep : List K} (hs : g.step (.gc keep) = some g') : Sound g' := by
  cases hs
  refine ⟨fun u c hc => ?_, h.held⟩
  obtain ⟨hl, hr⟩ := h.listed u c hc
  have hp : 0 < (g.refs c.mutex).length := List.length_pos_of_mem hr
  exact ⟨by simp [hl, Option.filter, strongCount, hp], hr⟩

lemma Sound.step (h : Sound g) {e : LockEvent K T} (hs : g.step e = some g') : Sound g' := by
  cases e with
  | lock => exact h.lock hs
  | gc => exact h.gc hs
  | acquire t | unlock t | drop t =>
    obtain ⟨d, hd, ha⟩ := Option.bind_eq_some_iff.1 hs
    exact h.act hd ha

end DialLocks

/-- At most one task dials a pubkey, and the lock of a task that holds or awaits it stays in
the map, whatever is collected. -/
theorem dials_exclude (ρ : Run (DialLocks.step (K := K) (T := T)) {}) (n : ℕ) :
    (∀ t d u d', (ρ.state n).dial t = some d → (ρ.state n).dial u = some d' → d.key = d'.key →
      d.stage = .dialling → d'.stage = .dialling → t = u) ∧
    ∀ t d, (ρ.state n).dial t = some d → (ρ.state n).inner d.key = some d.mutex := by
  have h0 : (ρ.state 0).Sound := by
    rw [ρ.zero]
    exact ⟨by nofun, by nofun⟩
  have h : (ρ.state n).Sound := ρ.lasts h0 (fun m _ h => h.step (ρ.succ m)) n.zero_le
  refine ⟨fun t d u d' ht hu hk hi hi' => ?_, fun t d ht => (h.listed t d ht).1⟩
  have hm := (h.listed t d ht).1.symm.trans ((congrArg _ hk).trans (h.listed u d' hu).1)
  have := h.held t d ht hi
  rw [Option.some.inj hm, h.held u d' hu hi'] at this
  exact (Option.some.inj this).symm

/-! ## The reconnect loop -/

structure ReconnectConfig where
  initialBackoff : ℕ
  maxBackoff : ℕ
  pollInterval : ℕ

/-- What the loop does, newest first. A dial that fails is to be retried after some time. -/
inductive Event (K : Type)
  | dialled (key : K) (pass start finish : ℕ) (retryIn : Option ℕ)
  | connected (key : K)
  | retained (keys : List K)

structure Loop (K : Type) where
  clock : ℕ := 0
  backoff : K → Option ℕ := fun _ => none
  nextAttempt : K → Option ℕ := fun _ => none
  log : List (Event K) := []

/-- An entry of the sticky set, with what the loop finds and how its dial would go. -/
structure Visit (K : Type) where
  key : K
  up : Bool := false
  took : ℕ := 0
  ok : Bool := false

/-- A turn of the loop: the sticky set at its start and at its end, and by how much the
sleep is too long. -/
structure Pass (K : Type) where
  snapshot : List (Visit K)
  current : List K
  late : ℕ := 0

variable (config : ReconnectConfig)

def dialPeer (now : ℕ) (l : Loop K) (v : Visit K) : Loop K :=
  let finish := l.clock + v.took
  if v.ok then
    ⟨finish, update l.backoff v.key none, update l.nextAttempt v.key none, .dialled v.key now l.clock finish none :: l.log⟩
  else
    let cur := (l.backoff v.key).getD config.initialBackoff
    ⟨finish, update l.backoff v.key (some (min (cur * 2) config.maxBackoff)), update l.nextAttempt v.key (some (now + cur)),
      .dialled v.key now l.clock finish (some cur) :: l.log⟩

def visit (now : ℕ) (l : Loop K) (v : Visit K) : Loop K :=
  if v.up then
    ⟨l.clock, update l.backoff v.key none, update l.nextAttempt v.key none, .connected v.key :: l.log⟩
  else if (l.nextAttempt v.key).any (now < ·) then l
  else dialPeer config now l v

def pass (l : Loop K) (p : Pass K) : Loop K :=
  let l' := p.snapshot.foldl (visit config l.clock) l
  ⟨l'.clock + config.pollInterval + p.late, fun k => if k ∈ p.current then l'.backoff k else none,
    fun k => if k ∈ p.current then l'.nextAttempt k else none, .retained p.current :: l'.log⟩

def spawn (passes : List (Pass K)) : Loop K := passes.foldl (pass config) {}

/-- A dial that failed: the start of its pass, its end and the time until it may be retried. -/
structure Failure where
  pass : ℕ
  finish : ℕ
  wait : ℕ

/-- The failure whose backoff counts: the last dial of the peer, if it failed and the
peer has neither been up nor left the set since. -/
def lastFailure (k : K) : List (Event K) → Option Failure
  | [] => none
  | .dialled key pass _ finish retryIn :: log => if key = k then retryIn.map (⟨pass, finish, ·⟩) else lastFailure k log
  | .connected key :: log => if key = k then none else lastFailure k log
  | .retained keys :: log => if k ∈ keys then lastFailure k log else none

/-- A dial does not start before the end of the backoff of a failure in `P`. If it fails, the
backoff is doubled, or set to the initial one. -/
def Follows (P : Failure → Prop) (start : ℕ) (retryIn : Option ℕ) : Option Failure → Prop
  | none => ∀ wait ∈ retryIn, wait = config.initialBackoff
  | some f => (P f → f.finish + f.wait ≤ start) ∧ ∀ wait ∈ retryIn, wait = min (f.wait * 2) config.maxBackoff

def Kept (P : Failure → Prop) : List (Event K) → Prop
  | .dialled k _ start _ retryIn :: log => Kept P log ∧ Follows config P start retryIn (lastFailure k log)
  | _ :: log => Kept P log
  | [] => True

/-- The dial failed as its pass began, or its backoff is within the pause of the loop. -/
def Prompt (f : Failure) : Prop := f.finish = f.pass ∨ f.wait ≤ config.pollInterval

/-- What the loop knows of a peer, in a pass that began at `now`. -/
def Knows (now : ℕ) (l : Loop K) (k : K) : Prop :=
  match lastFailure k l.log with
  | none => l.backoff k = none
  | some f => l.backoff k = some (min (f.wait * 2) config.maxBackoff) ∧ ∃ deadline, l.nextAttempt k = some deadline ∧
    (Prompt config f → f.finish + f.wait ≤ max deadline l.clock ∨
      now < deadline ∧ f.finish ≤ l.clock ∧ f.wait ≤ config.pollInterval)

structure Sound (now : ℕ) (l : Loop K) : Prop where
  begun : now ≤ l.clock
  kept : Kept config (Prompt config) l.log
  knows : ∀ k, Knows config now l k

variable {config} {now : ℕ} {l : Loop K}

/-- Time that passes and the events of other peers change nothing. -/
lemma Knows.mono {l' : Loop K} {k : K} (h : Knows config now l k) (hf : lastFailure k l'.log = lastFailure k l.log)
    (hb : l'.backoff k = l.backoff k) (hn : l'.nextAttempt k = l.nextAttempt k) (hc : l.clock ≤ l'.clock) :
    Knows config now l' k := by
  unfold Knows at h ⊢
  rw [hf, hb, hn]
  split at h
  · exact h
  · obtain ⟨hb, d, hd, hp⟩ := h
    refine ⟨hb, d, hd, fun hpr => ?_⟩
    have := hp hpr
    omega

/-- The backoff of a failure is over when the peer is due. -/
lemma Sound.due (h : Sound config now l) {k : K} (hd : ¬ (l.nextAttempt k).any (now < ·)) :
    Follows config (Prompt config) l.clock (some ((l.backoff k).getD config.initialBackoff)) (lastFailure k l.log) := by
  have hk := h.knows k
  unfold Knows at hk
  split at hk
  · simp [Follows, *]
  · rename_i hl
    obtain ⟨hb, d, hn, hp⟩ := hk
    rw [hl, Follows]
    rw [hn] at hd
    refine ⟨fun hpr => ?_, by simp [hb]⟩
    have := hp hpr
    have := h.begun
    simp at hd
    omega

lemma Sound.dialPeer (h : Sound config now l) {v : Visit K} (hd : ¬ (l.nextAttempt v.key).any (now < ·)) :
    Sound config now (dialPeer config now l v) := by
  have hdue := h.due hd
  unfold Gateway.dialPeer
  split
  · refine ⟨Nat.le_add_right_of_le h.begun, ⟨h.kept, ?_⟩, fun k => ?_⟩
    · cases hl : lastFailure v.key l.log with
      | none => nofun
      | some f => exact ⟨(hl ▸ hdue).1, nofun⟩
    · by_cases hk : v.key = k
      · simp [Knows, lastFailure, hk]
      · refine (h.knows k).mono ?_ ?_ ?_ (Nat.le_add_right ..) <;> simp [lastFailure, hk, Ne.symm hk]
  · refine ⟨Nat.le_add_right_of_le h.begun, ⟨h.kept, hdue⟩, fun k => ?_⟩
    by_cases hk : v.key = k
    · have := h.begun
      simp [Knows, lastFailure, Prompt, hk]
      omega
    · refine (h.knows k).mono ?_ ?_ ?_ (Nat.le_add_right ..) <;> simp [lastFailure, hk, Ne.symm hk]

lemma Sound.visit (h : Sound config now l) (v : Visit K) : Sound config now (visit config now l v) := by
  unfold Gateway.visit
  split
  · refine ⟨h.begun, h.kept, fun k => ?_⟩
    by_cases hk : v.key = k
    · simp [Knows, lastFailure, hk]
    · refine (h.knows k).mono ?_ ?_ ?_ le_rfl <;> simp [lastFailure, hk, Ne.symm hk]
  · split
    · exact h
    · exact h.dialPeer ‹_›

lemma Sound.pass (h : Sound config l.clock l) (p : Pass K) : Sound config (pass config l p).clock (pass config l p) := by
  have hv : Sound config l.clock (p.snapshot.foldl (Gateway.visit config l.clock) l) := by
    generalize l.clock = now at h
    induction p.snapshot generalizing l with
    | nil => exact h
    | cons v vs ih => exact ih (h.visit v)
  refine ⟨le_rfl, hv.kept, fun k => ?_⟩
  have hk := hv.knows k
  unfold Knows at hk ⊢
  by_cases hc : k ∈ p.current
  · simp only [Gateway.pass, lastFailure, hc, if_true]
    split at hk
    · exact hk
    · obtain ⟨hb, d, hd, hp⟩ := hk
      refine ⟨hb, d, hd, fun hpr => ?_⟩
      have := hp hpr
      omega
  · simp [Gateway.pass, lastFailure, hc]

/-- A peer is dialled again only after the backoff of a prompt failure, and the backoff
doubles with each failure in a row. -/
theorem backoff_kept (config : ReconnectConfig) (passes : List (Pass K)) :
    Kept config (Prompt config) (spawn config passes).log := by
  suffices hs : ∀ l : Loop K, Sound config l.clock l → Kept config (Prompt config) (passes.foldl (pass config) l).log from
    hs {} ⟨le_rfl, trivial, fun _ => rfl⟩
  induction passes with
  | nil => exact fun _ h => h.kept
  | cons p ps ih => exact fun l h => ih _ (h.pass p)

/-- A dial takes ten seconds and fails. It sets a backoff of ten seconds, and the peer is
dialled again after one. -/
lemma redials_at_once : ¬ Kept ⟨10, 60, 1⟩ (fun _ => True)
    (spawn ⟨10, 60, 1⟩ (List.replicate 2 ⟨[⟨(), false, 10, false⟩], [()], 0⟩)).log := by
  simp [spawn, pass, visit, dialPeer, Kept, Follows, lastFailure]

end AgentWallet.Gateway
