import Mathlib.Algebra.Order.BigOperators.Group.List
import Mathlib.Algebra.Order.Group.Defs
import Mathlib.Tactic.Linarith
/-!
# Sliding windows

Items with a time and a weight. They are capped when in every window
`(t - W, t]` the weights add up to at most the cap, whatever `t` is.
-/

namespace AgentWallet.Lib

open List

variable {ι τ : Type} [AddCommGroup τ] [LinearOrder τ] [IsOrderedAddMonoid τ] {W now : τ} {cap : ℤ} {time : ι → τ}
  {weight : ι → ℕ} {items : List ι} {new : ι}

def Capped (W : τ) (cap : ℤ) (time : ι → τ) (weight : ι → ℕ) (items : List ι) : Prop :=
  ∀ t, (((items.filter fun i => t - W < time i ∧ time i ≤ t).map weight).sum : ℤ) ≤ cap

lemma sum_filter_le {p q : ι → Bool} (h : ∀ i ∈ items, p i = true → q i = true) :
    ((items.filter p).map weight).sum ≤ ((items.filter q).map weight).sum := by
  refine List.Sublist.sum_le_sum (List.Sublist.map _ ?_) fun _ _ => Nat.zero_le _
  have : items.filter p = (items.filter q).filter p := by
    rw [filter_filter]
    refine filter_congr fun i hi => ?_
    by_cases hp : p i = true
    · simp [hp, h i hi hp]
    · simp [hp]
  rw [this]
  exact filter_sublist

lemma Capped.append (h : Capped W cap time weight items) (hne : time new = now)
    (hr : (((items.filter fun i => now - W < time i).map weight).sum + weight new : ℤ) ≤ cap) :
    Capped W cap time weight (items ++ [new]) := by
  intro t
  by_cases ht : now ≤ t
  · have hs : ((items.filter fun i => t - W < time i ∧ time i ≤ t).map weight).sum ≤
        ((items.filter fun i => now - W < time i).map weight).sum := by
      refine sum_filter_le fun i _ hi => ?_
      rw [decide_eq_true_eq] at hi ⊢
      exact lt_of_le_of_lt (sub_le_sub_right ht W) hi.1
    have ho : (([new].filter fun i => t - W < time i ∧ time i ≤ t).map weight).sum ≤ weight new := by
      by_cases hp : t - W < time new ∧ time new ≤ t
      · simp [hp]
      · simp [hp]
    rw [filter_append, map_append, sum_append, Nat.cast_add]
    omega
  · have hn : ([new].filter fun i => t - W < time i ∧ time i ≤ t) = [] := by
      simp [hne, ht]
    rw [filter_append, hn, append_nil]
    exact h t

lemma Capped.filter (h : Capped W cap time weight items) (p : ι → Bool) :
    Capped W cap time weight (items.filter p) := by
  intro t
  refine le_trans ?_ (h t)
  rw [filter_filter]
  exact_mod_cast sum_filter_le fun i _ hi => (Bool.and_eq_true_iff.1 hi).1

lemma Capped.map (h : Capped W cap time weight items) {f : ι → ι} (ht : ∀ i ∈ items, time (f i) = time i)
    (hw : ∀ i ∈ items, weight (f i) ≤ weight i) : Capped W cap time weight (items.map f) := by
  intro t
  refine le_trans ?_ (h t)
  have hf : (items.map f).filter (fun i => t - W < time i ∧ time i ≤ t) =
      (items.filter fun i => t - W < time i ∧ time i ≤ t).map f := by
    rw [filter_map]
    congr 1
    refine filter_congr fun i hi => ?_
    simp [ht i hi]
  rw [hf, map_map]
  exact_mod_cast sum_le_sum fun i hi => hw i (mem_filter.1 hi).1

end AgentWallet.Lib
