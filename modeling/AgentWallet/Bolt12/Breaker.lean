import Mathlib.Algebra.Order.Field.Rat
import Mathlib.Data.List.Induction
import AgentWallet.Lib.Dict
/-!
# The breaker of the introduction nodes

Each introduction node of a blinded path has a breaker: failures open it for a
cooldown, after which one mint may probe the node. The cooldown ends lazily, in
the lookup that first sees it over, and that lookup also claims the probe. Only a
reported outcome gives the probe back.

Times are the readings of the monotonic clock, in seconds.
-/

namespace AgentWallet.Bolt12

open AgentWallet.Lib List Option

variable {history : List Call}

namespace Breaker

structure Settings where
  enabled : Bool := true
  failuresToOpen : ℕ := 2
  initialCooldownS : ℕ := 600
  cooldownCapS : ℕ := 86400

inductive Status
  | closed
  | open
  | halfOpen
  deriving DecidableEq, Repr

structure BreakerState where
  state : Status := .closed
  consecutiveFailures : ℕ := 0
  openedAt : ℚ := 0
  cooldownS : ℚ := 0
  probationaryProbeClaimed : Bool := false
  deriving DecidableEq

namespace BreakerState

def isEffectivelyOpen (st : BreakerState) (now : ℚ) : Bool :=
  (st.state = .open ∧ now - st.openedAt < st.cooldownS) ∨ (st.state = .halfOpen ∧ st.probationaryProbeClaimed)

def canProbeHalfOpen (st : BreakerState) (now : ℚ) : Bool :=
  st.state = .open ∧ st.cooldownS ≤ now - st.openedAt

/-- The lookup's first part: an open breaker whose cooldown is over goes half-open. -/
def tick (st : BreakerState) (now : ℚ) : BreakerState :=
  if st.canProbeHalfOpen now then { st with state := .halfOpen, probationaryProbeClaimed := false } else st

/-- The lookup's second part: a half-open breaker reported as not open is claimed. -/
def claim (st : BreakerState) (now : ℚ) : BreakerState :=
  if !st.isEffectivelyOpen now && st.state = .halfOpen && !st.probationaryProbeClaimed then
    { st with probationaryProbeClaimed := true }
  else st

/-- What `is_open` answers for a known node, and the state it leaves. -/
def isOpen (st : BreakerState) (now : ℚ) : Bool × BreakerState :=
  let st := st.tick now
  (st.isEffectivelyOpen now, st.claim now)

variable (settings : Settings)

def reopen (st : BreakerState) (now : ℚ) : BreakerState :=
  { st with
    state := .open
    cooldownS := min (if st.cooldownS ≠ 0 then st.cooldownS * 2 else settings.initialCooldownS) settings.cooldownCapS
    openedAt := now }

def recordFailure (st : BreakerState) (now : ℚ) : BreakerState :=
  let st := { st with consecutiveFailures := st.consecutiveFailures + 1, probationaryProbeClaimed := false }
  if st.state = .halfOpen then st.reopen settings now
  else if settings.failuresToOpen ≤ st.consecutiveFailures ∧ st.state = .closed then
    { st with state := .open, cooldownS := settings.initialCooldownS, openedAt := now }
  else st

/-- Every field is reset. -/
def recordSuccess (_ : BreakerState) : BreakerState :=
  { state := .closed, consecutiveFailures := 0, cooldownS := 0, openedAt := 0, probationaryProbeClaimed := false }

end BreakerState

abbrev PathBreakerRegistry := Dict String BreakerState

def MAX_ENTRIES : ℕ := 8192

namespace PathBreakerRegistry

variable (r : PathBreakerRegistry) (intro : String)

/-- `_get`: the state of a node, with a new entry for one that is not tracked. The
oldest entries go when there are too many. -/
def get : BreakerState × PathBreakerRegistry :=
  match r.get? intro with
  | some st => (st, r)
  | none =>
    let inserted := r.set intro {}
    ({}, inserted.dropOldest (inserted.length - MAX_ENTRIES))

def report (write : BreakerState → BreakerState) : PathBreakerRegistry :=
  if intro = "" then r
  else
    let (st, r) := r.get intro
    r.set intro (write st)

def recordFailure (settings : Settings) (r : PathBreakerRegistry) (intro : String) (now : ℚ) : PathBreakerRegistry :=
  r.report intro fun st => st.recordFailure settings now

def recordSuccess : PathBreakerRegistry :=
  r.report intro BreakerState.recordSuccess

def isOpen (now : ℚ) : Bool × PathBreakerRegistry :=
  if intro = "" then (false, r)
  else
    match r.get? intro with
    | none => (false, r)
    | some st =>
      let (effectivelyOpen, st) := st.isOpen now
      (effectivelyOpen, r.set intro st)

end PathBreakerRegistry

/-! ## One lookup -/

namespace BreakerState

variable {st : BreakerState} {now : ℚ}

lemma isOpen_of_closed (h : st.state = .closed) : st.isOpen now = (false, st) := by
  simp [isOpen, tick, claim, canProbeHalfOpen, isEffectivelyOpen, h]

lemma isOpen_of_cooling (h : st.state = .open) (hn : now - st.openedAt < st.cooldownS) :
    st.isOpen now = (true, st) := by
  have hc : ¬ st.cooldownS ≤ now - st.openedAt := not_le.2 hn
  simp [isOpen, tick, claim, canProbeHalfOpen, isEffectivelyOpen, h, hn, hc]

/-- The lookup that ends the cooldown claims the probe. -/
lemma isOpen_of_elapsed (h : st.state = .open) (hn : st.cooldownS ≤ now - st.openedAt) :
    st.isOpen now = (false, { st with state := .halfOpen, probationaryProbeClaimed := true }) := by
  simp [isOpen, tick, claim, canProbeHalfOpen, isEffectivelyOpen, h, hn]

lemma isOpen_of_unclaimed (h : st.state = .halfOpen) (hc : st.probationaryProbeClaimed = false) :
    st.isOpen now = (false, { st with probationaryProbeClaimed := true }) := by
  simp [isOpen, tick, claim, canProbeHalfOpen, isEffectivelyOpen, h, hc]

lemma isOpen_of_claimed (h : st.state = .halfOpen) (hc : st.probationaryProbeClaimed = true) :
    st.isOpen now = (true, st) := by
  simp [isOpen, tick, claim, canProbeHalfOpen, isEffectivelyOpen, h, hc]

lemma halfOpen_isOpen : (st.isOpen now).2.state = .halfOpen ↔
    st.state = .halfOpen ∨ st.state = .open ∧ st.cooldownS ≤ now - st.openedAt := by
  cases hs : st.state with
  | closed => rw [isOpen_of_closed hs, hs]; simp
  | «open» =>
    by_cases hn : st.cooldownS ≤ now - st.openedAt
    · rw [isOpen_of_elapsed hs hn]
      simp [hn]
    · rw [isOpen_of_cooling hs (not_le.1 hn), hs]
      simp [hn]
  | halfOpen =>
    cases hc : st.probationaryProbeClaimed with
    | true => rw [isOpen_of_claimed hs hc, hs]; simp
    | false => rw [isOpen_of_unclaimed hs hc]; simp [hs]

lemma state_recordFailure (settings : Settings) : (st.recordFailure settings now).state ≠ .halfOpen := by
  simp only [recordFailure, reopen]
  split
  case isTrue => simp
  case isFalse h => split <;> simp_all

/-- The cooldown is bounded, and a half-open breaker has its probe claimed. -/
structure Sound (settings : Settings) (st : BreakerState) : Prop where
  bounded : st.cooldownS ≤ max (settings.initialCooldownS : ℚ) settings.cooldownCapS
  claimed : st.state = .halfOpen → st.probationaryProbeClaimed = true

variable {settings : Settings}

lemma sound_default : Sound settings {} where
  bounded := le_max_of_le_left (Nat.cast_nonneg _)
  claimed h := by cases h

lemma Sound.isOpen (h : Sound settings st) : Sound settings (st.isOpen now).2 := by
  cases hs : st.state with
  | closed => rw [isOpen_of_closed hs]; exact h
  | «open» =>
    by_cases hn : st.cooldownS ≤ now - st.openedAt
    · rw [isOpen_of_elapsed hs hn]
      exact ⟨h.bounded, fun _ => rfl⟩
    · rw [isOpen_of_cooling hs (not_le.1 hn)]
      exact h
  | halfOpen =>
    rw [isOpen_of_claimed hs (h.claimed hs)]
    exact h

lemma Sound.recordFailure (h : Sound settings st) : Sound settings (st.recordFailure settings now) := by
  refine ⟨?_, fun hh => absurd hh (state_recordFailure settings)⟩
  simp only [BreakerState.recordFailure, reopen]
  split
  case isTrue => exact le_max_of_le_right (min_le_right _ _)
  split
  case isTrue => exact le_max_left _ _
  case isFalse => exact h.bounded

lemma Sound.recordSuccess : Sound settings st.recordSuccess := sound_default

end BreakerState

namespace PathBreakerRegistry

variable {r : PathBreakerRegistry} {intro other : String} {now : ℚ}

lemma isOpen_of_known {st : BreakerState} (hne : intro ≠ "") (h : r.get? intro = some st) :
    r.isOpen intro now = ((st.isOpen now).1, r.set intro (st.isOpen now).2) := by
  rw [isOpen, if_neg hne, h]

lemma isOpen_of_unknown (h : r.get? intro = none) : r.isOpen intro now = (false, r) := by
  rw [isOpen, h]
  split <;> rfl

lemma get?_isOpen_of_ne (h : other ≠ intro) : (r.isOpen intro now).2.get? other = r.get? other := by
  rw [isOpen]
  split
  case isTrue => rfl
  split
  · rfl
  · exact Dict.get?_set_of_ne r _ h

lemma length_isOpen : (r.isOpen intro now).2.length = r.length := by
  rw [isOpen]
  split
  case isTrue => rfl
  split
  · rfl
  · exact Dict.length_set_of_get? _ (by assumption)

lemma get?_report (hl : r.length < MAX_ENTRIES) (hne : intro ≠ "") (write : BreakerState → BreakerState) :
    (r.report intro write).get? other =
      if other = intro then some (write ((r.get? intro).getD {})) else r.get? other := by
  rw [report, if_neg hne, get]
  cases hg : r.get? intro with
  | some st =>
    simp only [getD_some]
    split
    case isTrue h => rw [h, Dict.get?_set_self]
    case isFalse h => exact Dict.get?_set_of_ne _ _ h
  | none =>
    have hk : (r.set intro {}).length - MAX_ENTRIES = 0 := by
      have := (Dict.length_set_le r intro {}).2
      omega
    simp only [hk, Dict.dropOldest_zero, getD_none]
    split
    case isTrue h => rw [h, Dict.get?_set_self]
    case isFalse h => rw [Dict.get?_set_of_ne _ _ h, Dict.get?_set_of_ne _ _ h]

lemma length_get (hl : MAX_ENTRIES ≤ r.length) : MAX_ENTRIES ≤ (r.get intro).2.length := by
  rw [get]
  cases hg : r.get? intro with
  | some st => exact hl
  | none =>
    have hs := (Dict.length_set_le r intro {}).1
    simp only [Dict.length, Dict.dropOldest, length_drop] at hl hs ⊢
    omega

lemma length_report (hl : MAX_ENTRIES ≤ r.length) (write : BreakerState → BreakerState) :
    MAX_ENTRIES ≤ (r.report intro write).length := by
  rw [report]
  split
  case isTrue => exact hl
  case isFalse => exact le_trans (length_get hl) (Dict.length_set_le _ _ _).1

end PathBreakerRegistry

/-! ## Histories -/

inductive Op
  | isOpen
  | recordFailure
  | recordSuccess
  deriving DecidableEq, Repr

/-- A call on the registry, at the time the clock shows then. -/
structure Call where
  op : Op
  intro : String
  now : ℚ
  deriving DecidableEq

/-- A `record_*` call for a node. -/
def Call.Reports (c : Call) (intro : String) : Prop := c.op ≠ .isOpen ∧ c.intro = intro

section

variable (settings : Settings)

def step (r : PathBreakerRegistry) (c : Call) : PathBreakerRegistry :=
  match c.op with
  | .isOpen => (r.isOpen c.intro c.now).2
  | .recordFailure => r.recordFailure settings c.intro c.now
  | .recordSuccess => r.recordSuccess c.intro

def runFrom (r : PathBreakerRegistry) (calls : List Call) : PathBreakerRegistry := calls.foldl (step settings) r

def run (history : List Call) : PathBreakerRegistry := runFrom settings Dict.empty history

/-- How many of the calls are lookups of `intro` that return `False`. -/
def admitted (intro : String) : PathBreakerRegistry → List Call → ℕ
  | _, [] => 0
  | r, c :: cs =>
    (if c.op = .isOpen ∧ c.intro = intro ∧ (r.isOpen c.intro c.now).1 = false then 1 else 0) +
      admitted intro (step settings r c) cs

end

def HalfOpen (r : PathBreakerRegistry) (intro : String) : Prop :=
  ∃ st, r.get? intro = some st ∧ st.state = .halfOpen

/-- The breaker of `intro` is open and its cooldown is over. -/
def Elapsed (r : PathBreakerRegistry) (intro : String) (now : ℚ) : Prop :=
  ∃ st, r.get? intro = some st ∧ st.state = .open ∧ st.cooldownS ≤ now - st.openedAt

def InOrder (calls : List Call) : Prop := (calls.map Call.now).Pairwise (· ≤ ·)

/-- At most one `False` from reports to reports once `intro` has gone half-open. -/
def SingleProbe (settings : Settings) (history : List Call) (intro : String) : Prop :=
  ∀ before between, history = before ++ between → (∀ c ∈ between, ¬ c.Reports intro) →
    HalfOpen (run settings history) intro → admitted settings intro (run settings before) between ≤ 1

def BoundedCooldown (settings : Settings) (history : List Call) (intro : String) : Prop :=
  ∀ st, (run settings history).get? intro = some st →
    st.cooldownS ≤ max (settings.initialCooldownS : ℚ) settings.cooldownCapS

/-- There is a time such that lookups alone, the last of them for `intro` then or
later, return `False` for `intro` once. -/
def Recoverable (settings : Settings) (history : List Call) (intro : String) : Prop :=
  ∃ time, ∀ later, InOrder (history ++ later) → (∀ c ∈ later, c.op = .isOpen) →
    (∃ c ∈ later, c.intro = intro ∧ time ≤ c.now) → 0 < admitted settings intro (run settings history) later

/-- Some lookup of `intro` found its cooldown over, and no outcome was reported since. -/
def Unresolved (settings : Settings) (history : List Call) (intro : String) : Prop :=
  ∃ before c after, history = before ++ c :: after ∧ c.op = .isOpen ∧ c.intro = intro ∧
    Elapsed (run settings before) intro c.now ∧ ∀ c' ∈ after, ¬ c'.Reports intro

variable {settings : Settings} {r : PathBreakerRegistry} {c : Call} {intro : String}

lemma run_concat (history : List Call) (c : Call) :
    run settings (history ++ [c]) = step settings (run settings history) c := by
  simp [run, runFrom]

lemma run_append (before after : List Call) :
    run settings (before ++ after) = runFrom settings (run settings before) after := by
  simp [run, runFrom]

lemma length_step (hl : (step settings r c).length < MAX_ENTRIES) : r.length < MAX_ENTRIES := by
  by_contra hf
  apply not_le.2 hl
  rw [not_lt] at hf
  rw [step]
  split
  · rw [PathBreakerRegistry.length_isOpen]
    exact hf
  · exact PathBreakerRegistry.length_report hf _
  · exact PathBreakerRegistry.length_report hf _

lemma length_runFrom {calls : List Call} (hl : (runFrom settings r calls).length < MAX_ENTRIES) :
    r.length < MAX_ENTRIES := by
  induction calls generalizing r with
  | nil => exact hl
  | cons c cs ih => exact length_step (ih hl)

lemma get?_step_of_ne (hl : r.length < MAX_ENTRIES) (hne : c.intro ≠ intro) :
    (step settings r c).get? intro = r.get? intro := by
  have hr (write : BreakerState → BreakerState) : (r.report c.intro write).get? intro = r.get? intro := by
    by_cases he : c.intro = ""
    · rw [PathBreakerRegistry.report, if_pos he]
    · rw [PathBreakerRegistry.get?_report hl he, if_neg (Ne.symm hne)]
  rw [step]
  split
  · exact PathBreakerRegistry.get?_isOpen_of_ne (Ne.symm hne)
  · exact hr _
  · exact hr _

lemma get?_empty_step (h : r.get? "" = none) (hl : r.length < MAX_ENTRIES) :
    (step settings r c).get? "" = none := by
  by_cases hne : c.intro = ""
  · rw [step]
    split
    · rw [hne, PathBreakerRegistry.isOpen_of_unknown h, h]
    · rw [PathBreakerRegistry.recordFailure, PathBreakerRegistry.report, if_pos hne, h]
    · rw [PathBreakerRegistry.recordSuccess, PathBreakerRegistry.report, if_pos hne, h]
  · rw [get?_step_of_ne hl hne, h]

lemma get?_step_isOpen (hop : c.op = .isOpen) (h : r.get? "" = none) :
    (step settings r c).get? c.intro = (r.get? c.intro).map fun st => (st.isOpen c.now).2 := by
  simp only [step, hop]
  cases hg : r.get? c.intro with
  | none => rw [PathBreakerRegistry.isOpen_of_unknown hg, hg]; rfl
  | some st =>
    have hne : c.intro ≠ "" := fun he => by rw [he, h] at hg; cases hg
    rw [PathBreakerRegistry.isOpen_of_known hne hg, Dict.get?_set_self]
    rfl

def outcome (settings : Settings) (c : Call) (st : BreakerState) : BreakerState :=
  if c.op = .recordFailure then st.recordFailure settings c.now else st.recordSuccess

lemma get?_step_report (hl : r.length < MAX_ENTRIES) (hne : c.intro ≠ "") (hop : c.op ≠ .isOpen) :
    (step settings r c).get? c.intro = some (outcome settings c ((r.get? c.intro).getD {})) := by
  rw [step, outcome]
  split
  case h_1 h => exact absurd h hop
  case h_2 h => rw [PathBreakerRegistry.recordFailure, PathBreakerRegistry.get?_report hl hne, if_pos rfl, if_pos h]
  case h_3 h =>
    rw [PathBreakerRegistry.recordSuccess, PathBreakerRegistry.get?_report hl hne, if_pos rfl, if_neg (by simp [h])]

lemma state_outcome (st : BreakerState) : (outcome settings c st).state ≠ .halfOpen := by
  rw [outcome]
  split
  · exact BreakerState.state_recordFailure settings
  · simp [BreakerState.recordSuccess]

/-! ## Every history -/

/-- What holds of the registry after every history that stays below the cap. -/
structure Inv (settings : Settings) (r : PathBreakerRegistry) : Prop where
  unnamed : r.get? "" = none
  sound : ∀ intro st, r.get? intro = some st → st.Sound settings

lemma Inv.step (h : Inv settings r) (hl : r.length < MAX_ENTRIES) (c : Call) :
    Inv settings (step settings r c) := by
  refine ⟨get?_empty_step h.unnamed hl, fun intro st hst => ?_⟩
  by_cases hi : c.intro = intro
  · subst hi
    by_cases hop : c.op = .isOpen
    · rw [get?_step_isOpen hop h.unnamed] at hst
      obtain ⟨st₀, hst₀, rfl⟩ := map_eq_some_iff.1 hst
      exact (h.sound _ _ hst₀).isOpen
    · by_cases hne : c.intro = ""
      · rw [hne, get?_empty_step h.unnamed hl] at hst
        cases hst
      rw [get?_step_report hl hne hop] at hst
      obtain rfl := some.inj hst
      have ho : BreakerState.Sound settings ((r.get? c.intro).getD {}) := by
        cases hg : r.get? c.intro with
        | none => exact BreakerState.sound_default
        | some st₀ => exact h.sound _ _ hg
      rw [outcome]
      split
      · exact ho.recordFailure
      · exact BreakerState.Sound.recordSuccess
  · rw [get?_step_of_ne hl hi] at hst
    exact h.sound _ _ hst

lemma inv_run (hl : (run settings history).length < MAX_ENTRIES) : Inv settings (run settings history) := by
  induction history using List.reverseRecOn with
  | nil => exact ⟨rfl, fun _ _ h => by cases h⟩
  | append_singleton history c ih =>
    rw [run_concat] at hl ⊢
    exact (ih (length_step hl)).step (length_step hl) c

/-- A node is half-open after a call that ended its cooldown, or when it was
half-open and the call reports no outcome for it. -/
lemma halfOpen_step (h : Inv settings r) (hl : r.length < MAX_ENTRIES) :
    HalfOpen (step settings r c) intro ↔
      (c.op = .isOpen ∧ c.intro = intro ∧ Elapsed r intro c.now) ∨ (HalfOpen r intro ∧ ¬ c.Reports intro) := by
  by_cases hi : c.intro = intro
  · subst hi
    by_cases hop : c.op = .isOpen
    · simp only [HalfOpen, Elapsed, get?_step_isOpen hop h.unnamed, Call.Reports, hop]
      constructor
      · rintro ⟨st, hst, hh⟩
        obtain ⟨st₀, hst₀, rfl⟩ := map_eq_some_iff.1 hst
        rcases BreakerState.halfOpen_isOpen.1 hh with hh | ⟨ho, hov⟩
        · exact .inr ⟨⟨st₀, hst₀, hh⟩, by simp⟩
        · exact .inl ⟨trivial, trivial, st₀, hst₀, ho, hov⟩
      · rintro (⟨-, -, st₀, hst₀, ho, hov⟩ | ⟨⟨st₀, hst₀, hh⟩, -⟩)
        · exact ⟨_, by rw [hst₀]; rfl, BreakerState.halfOpen_isOpen.2 (.inr ⟨ho, hov⟩)⟩
        · exact ⟨_, by rw [hst₀]; rfl, BreakerState.halfOpen_isOpen.2 (.inl hh)⟩
    · have hn : ¬ HalfOpen (step settings r c) c.intro := by
        rintro ⟨st, hst, hh⟩
        by_cases hne : c.intro = ""
        · rw [hne, get?_empty_step h.unnamed hl] at hst
          cases hst
        · rw [get?_step_report hl hne hop] at hst
          obtain rfl := some.inj hst
          exact state_outcome _ hh
      simp [hn, hop, Call.Reports]
  · simp [HalfOpen, get?_step_of_ne hl hi, hi, Call.Reports]

lemma unresolved_concat (history : List Call) :
    Unresolved settings (history ++ [c]) intro ↔
      (c.op = .isOpen ∧ c.intro = intro ∧ Elapsed (run settings history) intro c.now) ∨
        (Unresolved settings history intro ∧ ¬ c.Reports intro) := by
  constructor
  · rintro ⟨before, c', after, heq, hop, hi, he, ha⟩
    rcases eq_nil_or_concat after with rfl | ⟨after, last, rfl⟩
    · obtain ⟨rfl, hc⟩ := append_inj' heq rfl
      obtain rfl := singleton_inj.1 hc
      exact .inl ⟨hop, hi, he⟩
    · rw [concat_eq_append, ← cons_append, ← append_assoc] at heq
      obtain ⟨rfl, hc⟩ := append_inj' heq rfl
      obtain rfl := singleton_inj.1 hc
      rw [concat_eq_append] at ha
      exact .inr ⟨⟨before, c', after, rfl, hop, hi, he,
        fun d hd => ha d (mem_append_left _ hd)⟩, ha c (by simp)⟩
  · rintro (⟨hop, hi, he⟩ | ⟨⟨before, c', after, rfl, hop, hi, he, ha⟩, hc⟩)
    · exact ⟨history, c, [], rfl, hop, hi, he, by simp⟩
    refine ⟨before, c', after ++ [c], by simp, hop, hi, he, fun d hd => ?_⟩
    rcases mem_append.1 hd with hd | hd
    · exact ha d hd
    · exact mem_singleton.1 hd ▸ hc

lemma unresolved_iff_halfOpen (hl : (run settings history).length < MAX_ENTRIES) :
    Unresolved settings history intro ↔ HalfOpen (run settings history) intro := by
  induction history using List.reverseRecOn with
  | nil =>
    constructor
    · rintro ⟨before, c, after, heq, -⟩
      simp at heq
    · rintro ⟨st, hst, -⟩
      cases hst
  | append_singleton history c ih =>
    rw [run_concat] at hl ⊢
    have hb := length_step hl
    rw [unresolved_concat, halfOpen_step (inv_run hb) hb, ih hb]

/-! ## Lookups between two reports -/

section

variable {calls : List Call} {st : BreakerState}

lemma get?_step_of_quiet (h : Inv settings r) (hl : r.length < MAX_ENTRIES) (hq : ¬ c.Reports intro) :
    (step settings r c).get? intro =
      if c.intro = intro then (r.get? intro).map fun st => (st.isOpen c.now).2 else r.get? intro := by
  split
  case isTrue hi =>
    subst hi
    exact get?_step_isOpen (by_contra fun hop => hq ⟨hop, rfl⟩) h.unnamed
  case isFalse hi => exact get?_step_of_ne hl hi

/-- While the probe is claimed no lookup returns `False`. -/
lemma admitted_of_halfOpen (h : Inv settings r) (hl : (runFrom settings r calls).length < MAX_ENTRIES)
    (hq : ∀ c ∈ calls, ¬ c.Reports intro) (hh : HalfOpen r intro) : admitted settings intro r calls = 0 := by
  induction calls generalizing r with
  | nil => rfl
  | cons c cs ih =>
    have hr := length_runFrom hl
    have hn : HalfOpen (step settings r c) intro :=
      (halfOpen_step h hr).2 (.inr ⟨hh, hq c mem_cons_self⟩)
    rw [admitted, ih (h.step hr c) hl (fun d hd => hq d (mem_cons_of_mem c hd)) hn, if_neg]
    rintro ⟨-, rfl, hf⟩
    obtain ⟨st, hst, hs⟩ := hh
    have hne : c.intro ≠ "" := fun he => by rw [he, h.unnamed] at hst; cases hst
    rw [PathBreakerRegistry.isOpen_of_known hne hst,
      BreakerState.isOpen_of_claimed hs ((h.sound _ _ hst).claimed hs)] at hf
    cases hf

lemma admitted_of_open (h : Inv settings r) (hl : (runFrom settings r calls).length < MAX_ENTRIES)
    (hq : ∀ c ∈ calls, ¬ c.Reports intro) (hst : r.get? intro = some st) (ho : st.state = .open) :
    admitted settings intro r calls ≤ 1 := by
  induction calls generalizing r with
  | nil => exact Nat.zero_le 1
  | cons c cs ih =>
    have hr := length_runFrom hl
    have hc := hq c mem_cons_self
    have hcs : ∀ d ∈ cs, ¬ d.Reports intro := fun d hd => hq d (mem_cons_of_mem c hd)
    by_cases hen : c.op = .isOpen ∧ c.intro = intro ∧ Elapsed r intro c.now
    · -- This lookup claims the probe, and no later one gets it.
      have hh : HalfOpen (step settings r c) intro := (halfOpen_step h hr).2 (.inl hen)
      rw [admitted, admitted_of_halfOpen (h.step hr c) hl hcs hh]
      split <;> simp
    · have hk : (step settings r c).get? intro = some st ∧
          ¬ (c.op = .isOpen ∧ c.intro = intro ∧ (r.isOpen c.intro c.now).1 = false) := by
        by_cases hi : c.intro = intro
        · subst hi
          have hop : c.op = .isOpen := by_contra fun hop => hc ⟨hop, rfl⟩
          have hco : c.now - st.openedAt < st.cooldownS :=
            not_le.1 fun hov => hen ⟨hop, rfl, st, hst, ho, hov⟩
          have hne : c.intro ≠ "" := fun he => by rw [he, h.unnamed] at hst; cases hst
          rw [get?_step_isOpen hop h.unnamed, hst, PathBreakerRegistry.isOpen_of_known hne hst, map_some,
            BreakerState.isOpen_of_cooling ho hco]
          simp
        · exact ⟨(get?_step_of_ne hr hi).trans hst, fun ha => hi ha.2.1⟩
      rw [admitted, if_neg hk.2, Nat.zero_add]
      exact ih (h.step hr c) hl hcs hk.1

lemma not_halfOpen_of_closed (h : Inv settings r) (hl : (runFrom settings r calls).length < MAX_ENTRIES)
    (hq : ∀ c ∈ calls, ¬ c.Reports intro) (hc : ∀ st, r.get? intro = some st → st.state = .closed) :
    ¬ HalfOpen (runFrom settings r calls) intro := by
  induction calls generalizing r with
  | nil =>
    rintro ⟨st, hst, hh⟩
    rw [hc st hst] at hh
    cases hh
  | cons c cs ih =>
    have hr := length_runFrom hl
    refine ih (h.step hr c) hl (fun d hd => hq d (mem_cons_of_mem c hd)) fun st hst => ?_
    rw [get?_step_of_quiet h hr (hq c mem_cons_self)] at hst
    split at hst
    · obtain ⟨st₀, hst₀, rfl⟩ := map_eq_some_iff.1 hst
      rw [BreakerState.isOpen_of_closed (hc st₀ hst₀)]
      exact hc st₀ hst₀
    · exact hc st hst

end

lemma singleProbe (hl : (run settings history).length < MAX_ENTRIES) (intro : String) :
    SingleProbe settings history intro := by
  rintro before between rfl hq hh
  rw [run_append] at hl hh
  have hi := inv_run (length_runFrom hl)
  by_cases hc : ∀ st, (run settings before).get? intro = some st → st.state = .closed
  · exact absurd hh (not_halfOpen_of_closed hi hl hq hc)
  push Not at hc
  obtain ⟨st, hst, hne⟩ := hc
  cases hs : st.state with
  | closed => exact absurd hs hne
  | «open» => exact admitted_of_open hi hl hq hst hs
  | halfOpen =>
    rw [admitted_of_halfOpen hi hl hq ⟨st, hst, hs⟩]
    exact Nat.zero_le 1

/-! ## Recovery -/

/-- The time from which a lookup of `intro` returns `False`. -/
def readyAt (r : PathBreakerRegistry) (intro : String) : ℚ :=
  match r.get? intro with
  | none => 0
  | some st => st.openedAt + st.cooldownS

lemma admitted_pos {calls : List Call} (h : Inv settings r) (hl : r.length < MAX_ENTRIES)
    (hops : ∀ c ∈ calls, c.op = .isOpen) (hh : ¬ HalfOpen r intro)
    (hca : ∃ c ∈ calls, c.intro = intro ∧ readyAt r intro ≤ c.now) : 0 < admitted settings intro r calls := by
  induction calls generalizing r with
  | nil =>
    obtain ⟨c, hc, -⟩ := hca
    cases hc
  | cons c cs ih =>
    have hop := hops c mem_cons_self
    have hn : (step settings r c).length < MAX_ENTRIES := by
      simp only [step, hop, PathBreakerRegistry.length_isOpen]
      exact hl
    rw [admitted]
    by_cases ha : c.op = .isOpen ∧ c.intro = intro ∧ (r.isOpen c.intro c.now).1 = false
    · rw [if_pos ha]
      exact Nat.add_pos_left Nat.one_pos _
    rw [if_neg ha, Nat.zero_add]
    -- The lookup was of another node or came during the cooldown, so it changed nothing for `intro`.
    have hk : (step settings r c).get? intro = r.get? intro ∧ ¬ (c.intro = intro ∧ readyAt r intro ≤ c.now) := by
      by_cases hi : c.intro = intro
      · subst hi
        cases hg : r.get? c.intro with
        | none => exact absurd ⟨hop, rfl, by rw [PathBreakerRegistry.isOpen_of_unknown hg]⟩ ha
        | some st =>
          have hne : c.intro ≠ "" := fun he => by rw [he, h.unnamed] at hg; cases hg
          rw [PathBreakerRegistry.isOpen_of_known hne hg] at ha
          rw [get?_step_isOpen hop h.unnamed, readyAt, hg, map_some]
          cases hs : st.state with
          | closed => exact absurd ⟨hop, rfl, by rw [BreakerState.isOpen_of_closed hs]⟩ ha
          | «open» =>
            by_cases ho : st.cooldownS ≤ c.now - st.openedAt
            · exact absurd ⟨hop, rfl, by rw [BreakerState.isOpen_of_elapsed hs ho]⟩ ha
            · rw [BreakerState.isOpen_of_cooling hs (not_le.1 ho)]
              exact ⟨rfl, fun hr => ho (le_sub_iff_add_le'.2 hr.2)⟩
          | halfOpen => exact absurd ⟨st, hg, hs⟩ hh
      · exact ⟨get?_step_of_ne hl hi, fun hr => hi hr.1⟩
    refine ih (h.step hl c) hn (fun d hd => hops d (mem_cons_of_mem c hd)) ?_ ?_
    · rintro ⟨st, hst, hs⟩
      exact hh ⟨st, hk.1 ▸ hst, hs⟩
    obtain ⟨d, hd, hr⟩ := hca
    have hsa : readyAt (step settings r c) intro = readyAt r intro := by rw [readyAt, readyAt, hk.1]
    rcases mem_cons.1 hd with rfl | hd
    · exact absurd hr hk.2
    · exact ⟨d, hd, hr.1, hsa ▸ hr.2⟩

lemma exists_last (history : List Call) : ∃ last, ∀ c ∈ history, c.now ≤ last := by
  induction history with
  | nil => exact ⟨0, fun c hc => by cases hc⟩
  | cons c cs ih =>
    obtain ⟨last, hl⟩ := ih
    refine ⟨max c.now last, fun d hd => ?_⟩
    rcases mem_cons.1 hd with rfl | hd
    · exact le_max_left _ _
    · exact le_max_of_le_right (hl d hd)

lemma recoverable_iff (hcl : InOrder history) (hle : (run settings history).length < MAX_ENTRIES) (intro : String) :
    Recoverable settings history intro ↔ ¬ HalfOpen (run settings history) intro := by
  constructor
  · rintro ⟨time, hr⟩ hh
    -- One lookup, at that time or after the last call of the history if that is later.
    obtain ⟨last, hl⟩ := exists_last history
    have hp := hr [⟨.isOpen, intro, max time last⟩] ?_ (by simp)
      ⟨_, mem_singleton_self _, rfl, le_max_left _ _⟩
    · have hz : admitted settings intro (run settings history) [⟨.isOpen, intro, max time last⟩] = 0 := by
        apply admitted_of_halfOpen (inv_run hle) _ _ hh
        · simpa [runFrom, step, PathBreakerRegistry.length_isOpen] using hle
        · simp [Call.Reports]
      exact absurd hz hp.ne'
    · rw [InOrder, map_append, pairwise_append]
      refine ⟨hcl, pairwise_singleton _ _, fun a ha b hb => ?_⟩
      obtain ⟨c, hc, rfl⟩ := mem_map.1 ha
      rw [map_singleton, mem_singleton] at hb
      rw [hb]
      exact le_max_of_le_right (hl c hc)
  · intro hh
    exact ⟨readyAt (run settings history) intro, fun later _ ho hca =>
      admitted_pos (inv_run hle) hle ho hh hca⟩

/-- A node gets one probe between two reports, its cooldown is bounded, and it is
locked out exactly while a probe has had no outcome. -/
theorem recovers_iff_resolved (settings : Settings) (history : List Call) (hclock : InOrder history)
    (hlen : (run settings history).length < MAX_ENTRIES) (intro : String) :
    (SingleProbe settings history intro ∧ BoundedCooldown settings history intro ∧
      Recoverable settings history intro) ↔ ¬ Unresolved settings history intro := by
  rw [unresolved_iff_halfOpen hlen, ← recoverable_iff hclock hlen]
  constructor
  · exact fun h => h.2.2
  · intro h
    exact ⟨singleProbe hlen intro, fun st hst => ((inv_run hlen).sound intro st hst).bounded, h⟩

def settled : List Call :=
  [⟨.recordFailure, "02ab", 10⟩, ⟨.recordFailure, "02ab", 20⟩, ⟨.isOpen, "02ab", 620⟩, ⟨.recordSuccess, "02ab", 640⟩]

def probed : List Call :=
  [⟨.recordFailure, "02ab", 10⟩, ⟨.recordFailure, "02ab", 20⟩, ⟨.isOpen, "02ab", 620⟩]

theorem settled_recovers : SingleProbe {} settled "02ab" ∧ BoundedCooldown {} settled "02ab" ∧
    Recoverable {} settled "02ab" := by
  have hc : InOrder settled := by unfold InOrder settled; decide +kernel
  have hl : (run {} settled).length < MAX_ENTRIES := by decide +kernel
  apply (recovers_iff_resolved {} settled hc hl "02ab").2
  rw [unresolved_iff_halfOpen hl]
  rintro ⟨st, hst, hh⟩
  have hg : (run {} settled).get? "02ab" = some (BreakerState.recordSuccess {}) := by decide +kernel
  rw [hg] at hst
  obtain rfl := some.inj hst
  cases hh

/-- With no outcome for the probe, lookups never return `False` again. -/
theorem probed_locked_out : InOrder probed ∧ (run {} probed).length < MAX_ENTRIES ∧ ¬ Recoverable {} probed "02ab" := by
  have hc : InOrder probed := by unfold InOrder probed; decide +kernel
  have hl : (run {} probed).length < MAX_ENTRIES := by decide +kernel
  refine ⟨hc, hl, fun hr => (recoverable_iff hc hl "02ab").1 hr ?_⟩
  have hg : (run {} probed).get? "02ab" = some
      { state := .halfOpen, consecutiveFailures := 2, openedAt := 20, cooldownS := 600,
        probationaryProbeClaimed := true } := by decide +kernel
  exact ⟨_, hg, rfl⟩

end Breaker

end AgentWallet.Bolt12
