import Mathlib.Data.List.Pairwise
import Mathlib.Data.List.Sort
import Mathlib.Data.Rat.Floor
import Mathlib.Tactic.Linarith
/-!
# The clock skew (`aggregate_samples`)

The probe samples how far the clocks of some servers are from ours, drops the same
share of the samples at both ends and takes the middle one of the rest. Whatever the
share, that is the middle one of all samples. While fewer than half of them are
forged, an honest sample lies on either side of it.
-/

namespace AgentWallet.Anonymize.Clock

open List

/-- A `Date` header drops the fraction of its second: half a second on average. -/
def truncationBiasMs : ℤ := 500

/-- `aggregate_samples`. A product below zero drops nothing, as zero does. -/
def aggregateSamples (rawDeltaMs : List ℤ) (trimFraction : ℚ) (minSamples : ℤ) : Option ℤ :=
  if rawDeltaMs = [] ∨ (rawDeltaMs.length : ℤ) < minSamples then none
  else
    let ordered := rawDeltaMs.insertionSort (· ≤ ·)
    let drop := ⌊ordered.length * trimFraction⌋.toNat
    let trimmed := if 0 < drop then (ordered.take (ordered.length - drop)).drop drop else ordered
    -- a trim that leaves nothing falls back to all samples
    let kept := if trimmed = [] then ordered else trimmed
    kept[kept.length / 2]?.map (· + truncationBiasMs)

/-- A sample, and whether the server made it up. -/
structure Sample where
  deltaMs : ℤ
  forged : Bool

variable {l s : List ℤ} {p : ℤ → Bool} {skew : ℤ}

lemma length_le_countP (h : s.Sublist l) (hs : ∀ x ∈ s, p x = true) : s.length ≤ l.countP p :=
  (countP_eq_length.2 hs).ge.trans h.countP_le

/-- Half of the samples or more are on either side of the middle one. -/
lemma countP_middle (h : l.Pairwise (· ≤ ·)) (hl : l[l.length / 2]? = some skew) :
    l.length ≤ 2 * l.countP (· ≤ skew) ∧ l.length ≤ 2 * l.countP (skew ≤ ·) := by
  obtain ⟨hi, rfl⟩ := List.getElem?_eq_some_iff.1 hl
  constructor
  · have hle := length_le_countP (p := (· ≤ l[l.length / 2])) (l.take_sublist (l.length / 2 + 1)) fun x hx => by
      obtain ⟨j, hj, rfl⟩ := mem_take_iff_getElem.1 hx
      exact decide_eq_true (h.rel_get_of_le (a := ⟨j, by omega⟩) (b := ⟨_, hi⟩) (Fin.mk_le_mk.2 (by omega)))
    rw [length_take_of_le hi] at hle
    omega
  · have hle := length_le_countP (p := (l[l.length / 2] ≤ ·)) (l.drop_sublist (l.length / 2)) fun x hx => by
      obtain ⟨j, hj, rfl⟩ := mem_drop_iff_getElem.1 hx
      exact decide_eq_true (h.rel_get_of_le (a := ⟨_, hi⟩) (b := ⟨_ + j, by omega⟩) (Fin.mk_le_mk.2 (Nat.le_add_right ..)))
    rw [length_drop] at hle
    omega

/-- Trimmed or not, the middle sample is the one in the middle of all samples. -/
lemma aggregateSamples_eq (trim : ℚ) {min : ℤ} (hne : l ≠ []) (hm : min ≤ l.length) :
    aggregateSamples l trim min = (l.insertionSort (· ≤ ·))[l.length / 2]?.map (· + truncationBiasMs) := by
  have hl := length_insertionSort (r := (· ≤ ·)) (l := l)
  rw [aggregateSamples, if_neg (by simp [hne, hm])]
  dsimp only
  generalize l.insertionSort (· ≤ ·) = ordered at hl ⊢
  generalize ⌊(ordered.length : ℚ) * trim⌋.toNat = drop
  rw [← hl]
  by_cases hd : 0 < drop
  · rw [if_pos hd]
    split
    · rfl
    · -- dropping as many at both ends leaves the middle where it is
      rename_i hk
      simp only [drop_eq_nil_iff, length_take] at hk
      rw [getElem?_drop, length_drop, length_take, getElem?_take, if_pos (by omega)]
      congr 2
      omega
  · rw [if_neg hd, ite_self]

/-- The skew, before the bias is added back, lies between two honest samples. -/
theorem skew_between_honest (samples : List Sample) (trimFraction : ℚ) (minSamples : ℤ)
    (hh : 2 * samples.countP Sample.forged < samples.length) (hmi : minSamples ≤ samples.length) :
    ∃ skew, aggregateSamples (samples.map Sample.deltaMs) trimFraction minSamples = some (skew + truncationBiasMs) ∧
      (∃ x ∈ samples, x.forged = false ∧ x.deltaMs ≤ skew) ∧ ∃ x ∈ samples, x.forged = false ∧ skew ≤ x.deltaMs := by
  set l := samples.map Sample.deltaMs with hl
  have hlen : l.length = samples.length := length_map _
  have hlt : l.length / 2 < (l.insertionSort (· ≤ ·)).length := by
    rw [length_insertionSort]
    omega
  have hs := getElem?_eq_getElem hlt
  generalize (l.insertionSort (· ≤ ·))[l.length / 2] = skew at hs
  rw [aggregateSamples_eq _ (length_pos_iff.1 (by omega)) (by omega), hs]
  refine ⟨skew, rfl, ?_⟩
  rw [← length_insertionSort (r := (· ≤ ·)) (l := l)] at hs
  have hm := countP_middle (pairwise_insertionSort _ l) hs
  rw [length_insertionSort, (perm_insertionSort _ l).countP_eq, (perm_insertionSort _ l).countP_eq,
    hl, countP_map, countP_map, ← hl, hlen] at hm
  -- if every sample on a side were forged, half of the samples would be
  have hsi : ∀ p : ℤ → Bool, samples.length ≤ 2 * samples.countP (p ∘ Sample.deltaMs) →
      ∃ x ∈ samples, x.forged = false ∧ p x.deltaMs = true := by
    intro p hp
    by_contra hno
    push Not at hno
    have := countP_mono_left (p := p ∘ Sample.deltaMs) (q := Sample.forged) (l := samples) fun x hx hpx => by
      by_contra hf
      exact hno x hx (Bool.eq_false_iff.2 hf) hpx
    omega
  obtain ⟨x, hx, hf, hle⟩ := hsi _ hm.1
  obtain ⟨y, hy, hg, hge⟩ := hsi _ hm.2
  exact ⟨⟨x, hx, hf, of_decide_eq_true hle⟩, y, hy, hg, of_decide_eq_true hge⟩

/-- One forged sample out of three, with a third dropped at each end. -/
theorem skew_between_honest_three : ∃ skew, aggregateSamples [40, -70000, 60] (1 / 3) 3 = some (skew + 500) ∧
    40 ≤ skew ∧ skew ≤ 60 := by
  obtain ⟨skew, heq, ⟨x, hx, hf, hle⟩, y, hy, hg, hge⟩ := skew_between_honest
    [⟨40, false⟩, ⟨-70000, true⟩, ⟨60, false⟩] (1 / 3) 3 (by decide) (by decide)
  refine ⟨skew, heq, ?_⟩
  simp only [mem_cons, not_mem_nil, or_false] at hx hy
  rcases hx with rfl | rfl | rfl <;> rcases hy with rfl | rfl | rfl <;> simp_all <;> omega

end AgentWallet.Anonymize.Clock
