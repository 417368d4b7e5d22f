import Mathlib.Data.List.Basic
import Mathlib.Order.Lattice
/-!
# Degraded operators (`operator_health.py`)

An operator with too many outliers is flagged and left out of the selection. The counter
and the flag change only when an outlier is recorded: the counter starts again after a
day without one, not when an outlier is a day old, and the flag outlives the auto-clear
period. They agree with the window of the last day while the outliers come in bursts, and
a burst that reaches the threshold is still recent when the operator is looked up.
-/

namespace AgentWallet.Anonymize.OperatorHealth

open List

structure Settings where
  outlierThreshold : ℤ := 3
  autoclearS : ℤ := 604800

/-- A row of `anonymize_operator_health`. Times are in microseconds. -/
structure Health where
  outlierCount24h : ℕ
  lastOutlierTs : ℤ
  degraded : Bool

def rollingWindow : ℤ := 24 * 3600 * 1000000

variable (s : Settings)

def threshold : ℤ := max 1 s.outlierThreshold

def autoclear : ℤ := s.autoclearS * 1000000

/-- `record_operator_outlier` -/
def recordOperatorOutlier (row : Option Health) (now : ℤ) : Option Health :=
  let row : Health := match row with
    | none => ⟨1, now, false⟩
    | some row =>
      if autoclear s ≤ now - row.lastOutlierTs then ⟨1, now, false⟩
      else if rollingWindow ≤ now - row.lastOutlierTs then ⟨1, now, row.degraded⟩
      else ⟨row.outlierCount24h + 1, now, row.degraded⟩
  some { row with degraded := row.degraded ∨ threshold s ≤ row.outlierCount24h }

/-- `_evaluate_candidate` skips the operator, after the outliers at these times. -/
def excluded (outliers : List ℤ) : Bool := (outliers.foldl (recordOperatorOutlier s) none).elim false Health.degraded

/-- Enough outliers in the day before `t`, and the latest within the auto-clear period. -/
def Misbehaves (outliers : List ℤ) (t : ℤ) : Prop :=
  threshold s ≤ outliers.countP (t - · < rollingWindow) ∧ ∃ last, outliers.getLast? = some last ∧ t - last < autoclear s

def Recent (t x : ℤ) : Prop := t - x < rollingWindow ∧ t - x < autoclear s

/-- The outliers end in a burst, far from the others, that at `t` is recent or too small. -/
def InBursts (outliers : List ℤ) (t : ℤ) : Prop :=
  ∃ old burst, outliers = old ++ burst ∧ (burst = [] → old = []) ∧
    (∀ x ∈ old, ∀ y ∈ burst, rollingWindow ≤ y - x ∧ autoclear s ≤ y - x) ∧
    ((burst.length : ℤ) < threshold s ∨ ∀ x ∈ burst, Recent s t x)

/-- The row after `k` outliers of a burst, which may be recent. -/
structure Counted (recent : Prop) (k : ℕ) (row : Health) : Prop where
  le : row.outlierCount24h ≤ k
  flagged : row.degraded = true → threshold s ≤ k
  exact : recent → row.outlierCount24h = k ∧ (threshold s ≤ k → row.degraded = true)

variable {s} {t : ℤ} {recent : Prop} {old burst : List ℤ}

lemma record_last (row : Option Health) (y : ℤ) :
    ∃ row', recordOperatorOutlier s row y = some row' ∧ row'.lastOutlierTs = y := by
  refine ⟨_, rfl, ?_⟩
  dsimp only
  repeat' split
  all_goals rfl

lemma Counted.record {row row' : Health} {k : ℕ} {y : ℤ} (h : Counted s recent k row)
    (hr : recent → Recent s t row.lastOutlierTs) (hy : y ≤ t) (heq : recordOperatorOutlier s (some row) y = some row') :
    Counted s recent (k + 1) row' := by
  obtain ⟨hk, hf, he⟩ := h
  -- within a recent burst no gap is long enough to start again
  have hgap : recent → ¬ autoclear s ≤ y - row.lastOutlierTs ∧ ¬ rollingWindow ≤ y - row.lastOutlierTs := fun h => by
    obtain ⟨hw, ha⟩ := hr h
    omega
  cases heq
  constructor <;> dsimp only <;> repeat' split
  all_goals simp
  all_goals grind

lemma foldl_burst {row : Health} {k : ℕ} (h : Counted s recent k row) (hr : recent → Recent s t row.lastOutlierTs)
    (hle : ∀ y ∈ burst, y ≤ t) (hb : recent → ∀ x ∈ burst, Recent s t x) : ∃ row',
      burst.foldl (recordOperatorOutlier s) (some row) = some row' ∧ Counted s recent (k + burst.length) row' := by
  induction burst generalizing row k with
  | nil => exact ⟨row, rfl, h⟩
  | cons y burst ih =>
    obtain ⟨row', heq, hl⟩ := record_last (s := s) (some row) y
    rw [foldl_cons, heq, length_cons, ← Nat.add_assoc, Nat.add_right_comm]
    exact ih (h.record hr (hle y mem_cons_self) heq) (fun h => hl ▸ hb h y mem_cons_self)
      (fun z hz => hle z (mem_cons_of_mem _ hz)) fun h x hx => hb h x (mem_cons_of_mem _ hx)

lemma record_first {y : ℤ} (h : ∀ x ∈ old, autoclear s ≤ y - x) :
    recordOperatorOutlier s (old.foldl (recordOperatorOutlier s) none) y = some ⟨1, y, threshold s ≤ 1⟩ := by
  rcases eq_nil_or_concat old with rfl | ⟨init, x, rfl⟩
  · simp [recordOperatorOutlier]
  · obtain ⟨row, heq, rfl⟩ := record_last (s := s) (init.foldl (recordOperatorOutlier s) none) x
    rw [concat_eq_append, foldl_append, foldl_cons, foldl_nil, heq]
    simp [recordOperatorOutlier, h row.lastOutlierTs (by simp)]

theorem excluded_iff (s : Settings) (outliers : List ℤ) (t : ℤ) (hpast : ∀ x ∈ outliers, x ≤ t)
    (h : InBursts s outliers t) : excluded s outliers = true ↔ Misbehaves s outliers t := by
  obtain ⟨old, burst, rfl, hne, hfar, hcase⟩ := h
  cases burst with
  | nil =>
    rw [hne rfl]
    simp [excluded, Misbehaves]
  | cons y burst =>
    have hb : ∀ z ∈ y :: burst, z ≤ t := fun z hz => hpast z (mem_append_right _ hz)
    have hfirst : Counted s (∀ x ∈ y :: burst, Recent s t x) 1 ⟨1, y, threshold s ≤ 1⟩ := ⟨le_rfl, by simp, by simp⟩
    obtain ⟨row, heq, hc⟩ := foldl_burst hfirst (fun h => h y mem_cons_self)
      (fun z hz => hb z (mem_cons_of_mem _ hz)) fun h x hx => h x (mem_cons_of_mem _ hx)
    have hex : excluded s (old ++ y :: burst) = row.degraded := by
      rw [excluded, foldl_append, foldl_cons, record_first fun x hx => (hfar x hx y mem_cons_self).2, heq]
      rfl
    -- the older outliers are out of the window
    have hold : old.countP (t - · < rollingWindow) = 0 := countP_eq_zero.2 fun x hx => by
      have := (hfar x hx y mem_cons_self).1
      have := hb y mem_cons_self
      simp only [decide_eq_true_eq]
      omega
    rw [hex, Misbehaves, countP_append, hold, Nat.zero_add]
    rw [Nat.add_comm, ← length_cons] at hc
    rcases hcase with hsmall | hrec
    · have := countP_le_length (p := (t - · < rollingWindow)) (l := y :: burst)
      refine ⟨fun hd => absurd (hc.flagged hd) (not_le.2 hsmall), fun hm => ?_⟩
      have := hm.1
      omega
    · rw [countP_eq_length.2 fun x hx => decide_eq_true (hrec x hx).1]
      have hl : (old ++ y :: burst).getLast? = some ((y :: burst).getLast (cons_ne_nil _ _)) := by
        rw [getLast?_append_of_ne_nil _ (cons_ne_nil _ _), getLast?_eq_some_getLast]
      exact ⟨fun hd => ⟨hc.flagged hd, _, hl, (hrec _ (getLast_mem _)).2⟩, fun hm => (hc.exact hrec).2 hm.1⟩

/-- Three outliers within a minute, looked up an hour later. -/
theorem excluded_iff_burst : excluded {} [0, 30000000, 60000000] = true ↔
    Misbehaves {} [0, 30000000, 60000000] 3600000000 :=
  excluded_iff {} _ _ (by decide) ⟨[], _, rfl, by simp, by simp, .inr (by unfold Recent; decide)⟩

/-- The flag stays after a month without outliers. -/
theorem excluded_for_ever : excluded {} [0, 30000000, 60000000] = true ∧
    ¬ Misbehaves {} [0, 30000000, 60000000] (30 * 24 * 3600 * 1000000) := by
  refine ⟨by decide, fun h => absurd h.1 (by decide)⟩

end AgentWallet.Anonymize.OperatorHealth
