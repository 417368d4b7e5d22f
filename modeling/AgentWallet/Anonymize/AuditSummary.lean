import Mathlib.Algebra.BigOperators.Group.List.Basic
import Mathlib.Data.List.Chain
import Mathlib.Data.List.Range
import Mathlib.Tactic.Ring
/-!
# The audit summaries (`audit_summary.py`, `audit_emitter.py`)

The sessions that ended are counted by time bucket. A tick of the emitter writes one row
about the buckets since the last one: a bucket with few sessions is left out of it, and
says nothing but that there is such a bucket.

The row is committed on its own, before the mark that says how far the rows go. A tick
that ends in between is repeated: its buckets are reported twice.
-/

namespace AgentWallet.Anonymize.AuditSummary

open List

structure Settings where
  bucketS : ℤ := 3600
  emitJitterS : ℤ := 900
  minBucketCount : ℤ := 5

structure Counts where
  byTerminalState : List (String × ℕ)
  bySourceKind : List (String × ℕ)

def Counts.total (c : Counts) : ℕ := (c.byTerminalState.map Prod.snd).sum

def quantizeCount (count : ℕ) : String :=
  if count = 0 then "0"
  else if count ≤ 3 then "1-3"
  else if count ≤ 10 then "4-10"
  else if count ≤ 30 then "11-30"
  else "30+"

structure BucketSummary where
  bucketStart : ℤ
  suppressed : Bool
  byTerminalState : List (String × String) := []
  bySourceKind : List (String × String) := []
  rawTotal : ℕ

variable (s : Settings)

def buildBucketSummary (start : ℤ) (c : Counts) : BucketSummary :=
  if 0 < s.minBucketCount ∧ c.total < s.minBucketCount then ⟨start, true, [], [], c.total⟩
  else ⟨start, false, c.byTerminalState.map (Prod.map id quantizeCount), c.bySourceKind.map (Prod.map id quantizeCount),
    c.total⟩

/-- The raw total is not part of a row. -/
structure Payload where
  windowStart : ℤ
  windowEnd : ℤ
  hadSuppressedBuckets : Bool
  buckets : List (ℤ × ℤ × List (String × String) × List (String × String))

/-- The row about some buckets: `aggregate_window_emission` and `build_audit_payload` -/
def buildAuditPayload (history : ℤ → Counts) (pending : List ℤ) : Payload :=
  let summaries := pending.map fun start => buildBucketSummary s start (history start)
  { windowStart := pending.headD 0
    windowEnd := pending.getLastD 0 + s.bucketS
    hadSuppressedBuckets := summaries.any BucketSummary.suppressed
    buckets := (summaries.filter fun x => !x.suppressed).map fun x =>
      (x.bucketStart, s.bucketS, x.byTerminalState, x.bySourceKind) }

def enumeratePendingBuckets (lastEmitted : Option ℤ) (now : ℤ) : List ℤ :=
  if s.bucketS ≤ 0 then []
  else
    let cutoff := now - max 0 s.emitJitterS
    let latest := cutoff / s.bucketS * s.bucketS - s.bucketS
    let first := lastEmitted.elim latest (· + s.bucketS)
    if latest < 0 ∨ latest < first then []
    else (range ((latest - first) / s.bucketS + 1).toNat).map fun k : ℕ => first + s.bucketS * k

/-- The mark in `anonymize_runtime_state`, and the buckets of each row so far. -/
structure State where
  mark : Option ℤ
  emitted : List (List ℤ) := []

/-- A tick at a time in whole seconds, which may end once the row is committed. -/
structure Tick where
  now : ℤ
  cut : Bool := false

/-- `_run` of `make_audit_emit_run_fn` -/
def tick (e : State) (k : Tick) : State :=
  let pending := enumeratePendingBuckets s e.mark k.now
  if pending = [] then e
  else { mark := if k.cut then e.mark else pending.getLast?, emitted := e.emitted ++ [pending] }

def run (mark : Option ℤ) (ticks : List Tick) : State := ticks.foldl (tick s) ⟨mark, []⟩

def Consecutive (starts : List ℤ) : Prop := IsChain (fun a b => b = a + s.bucketS) starts

variable {s} {e : State} {k : Tick}

lemma pending_spec (mark : Option ℤ) (now : ℤ) : Consecutive s (enumeratePendingBuckets s mark now) ∧
    ∀ last ∈ mark, ∀ first ∈ (enumeratePendingBuckets s mark now).head?, first = last + s.bucketS := by
  unfold enumeratePendingBuckets Consecutive
  split
  · simp
  dsimp only
  split
  · simp
  constructor
  · rw [isChain_map, isChain_range]
    intro k _
    push_cast
    ring
  · rintro last ⟨⟩
    cases ((_ : ℤ) / s.bucketS + 1).toNat with
    | zero => simp
    | succ n => simp [range_succ_eq_map]

/-- The rows so far are about consecutive buckets, up to the mark. -/
def State.Steady (s : Settings) (e : State) : Prop :=
  Consecutive s e.emitted.flatten ∧ (e.emitted.flatten ≠ [] → e.mark = e.emitted.flatten.getLast?)

lemma State.Steady.tick (h : e.Steady s) (hk : k.cut = false) : (tick s e k).Steady s := by
  obtain ⟨hp, hnext⟩ := pending_spec (s := s) e.mark k.now
  rw [AuditSummary.tick]
  split
  · exact h
  · rename_i hne
    simp only [State.Steady, hk, Bool.false_eq_true, if_false, flatten_append, flatten_singleton]
    refine ⟨isChain_append.2 ⟨h.1, hp, fun last hl first => hnext last ?_ first⟩, fun _ => ?_⟩
    · rwa [h.2 (fun hnil => by simp [hnil] at hl)]
    · rw [getLast?_append_of_ne_nil _ hne]

/-- A bucket whose count is too small in both histories is suppressed in both. -/
lemma summary_congr {c₁ c₂ : Counts} (start : ℤ)
    (h : s.minBucketCount ≤ c₁.total ∨ s.minBucketCount ≤ c₂.total → c₁ = c₂) :
    buildBucketSummary s start c₁ = buildBucketSummary s start c₂ ∨
      (buildBucketSummary s start c₁).suppressed = true ∧ (buildBucketSummary s start c₂).suppressed = true := by
  by_cases hc : s.minBucketCount ≤ c₁.total ∨ s.minBucketCount ≤ c₂.total
  · exact .inl (by rw [h hc])
  · right
    simp only [buildBucketSummary]
    rw [if_pos (by omega), if_pos (by omega)]
    exact ⟨rfl, rfl⟩

lemma payload_congr {c₁ c₂ : ℤ → Counts} (pending : List ℤ)
    (h : ∀ b, s.minBucketCount ≤ (c₁ b).total ∨ s.minBucketCount ≤ (c₂ b).total → c₁ b = c₂ b) :
    buildAuditPayload s c₁ pending = buildAuditPayload s c₂ pending := by
  have hb := fun b => summary_congr (s := s) b (h b)
  simp only [buildAuditPayload, Payload.mk.injEq, true_and]
  constructor
  · rw [any_map, any_map]
    congr 1
    funext b
    rcases hb b with heq | ⟨h₁, h₂⟩
    · rw [Function.comp, heq, Function.comp]
    · rw [Function.comp, h₁, Function.comp, h₂]
  · induction pending with
    | nil => rfl
    | cons b pending ih =>
      rcases hb b with heq | ⟨h₁, h₂⟩
      · simp only [map_cons, filter_cons, heq]
        split <;> simp [ih]
      · simpa [h₁, h₂] using ih

theorem summaries_confined (s : Settings) (c₁ c₂ : ℤ → Counts) (mark : Option ℤ) (ticks : List Tick)
    (hagree : ∀ b, s.minBucketCount ≤ (c₁ b).total ∨ s.minBucketCount ≤ (c₂ b).total → c₁ b = c₂ b)
    (huncut : ∀ k ∈ ticks, k.cut = false) :
    (run s mark ticks).emitted.map (buildAuditPayload s c₁) = (run s mark ticks).emitted.map (buildAuditPayload s c₂) ∧
    Consecutive s (run s mark ticks).emitted.flatten := by
  refine ⟨map_congr_left fun pending _ => payload_congr pending hagree, ?_⟩
  have hsteady : ∀ e : State, e.Steady s → (ticks.foldl (tick s) e).Steady s := by
    induction ticks with
    | nil => exact fun e h => h
    | cons k ticks ih =>
      exact fun e h => ih (fun j hj => huncut j (mem_cons_of_mem _ hj)) _ (h.tick (huncut k mem_cons_self))
  exact (hsteady ⟨mark, []⟩ ⟨isChain_nil, by simp⟩).1

def few : Counts := ⟨[("completed", 2)], [("lightning", 2)]⟩

theorem summaries_confined_few :
    (run {} none [⟨7200, false⟩, ⟨10800, false⟩]).emitted.map (buildAuditPayload {} fun _ => few) =
      (run {} none [⟨7200, false⟩, ⟨10800, false⟩]).emitted.map (buildAuditPayload {} fun _ => ⟨[], []⟩) ∧
    Consecutive {} (run {} none [⟨7200, false⟩, ⟨10800, false⟩]).emitted.flatten :=
  summaries_confined {} _ _ none _ (fun _ h => absurd h (by decide)) (by decide)

/-- The process ends between the two commits: the next tick reports the same bucket. -/
theorem bucket_reported_twice : (run {} none [⟨7200, true⟩, ⟨7300, false⟩]).emitted = [[0], [0]] := by decide

end AgentWallet.Anonymize.AuditSummary
