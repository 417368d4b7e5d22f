import Mathlib.Algebra.Ring.Parity
import Mathlib.Tactic.Cases
/-!
# Trees built level by level

A list is folded by joining its neighbours, level after level; a last element without a
neighbour goes up as it is. `levels_append`: a list that starts with a power of two of
elements, and goes on with no more than that, is the join of the two parts.
-/

namespace AgentWallet.Lib

open List

variable {α : Type} (g : α → α → α)

/-- One level: neighbours are joined. -/
def pairLevel : List α → List α
  | [] => []
  | [x] => [x]
  | x :: y :: rest => g x y :: pairLevel rest

lemma length_pairLevel (xs : List α) : (pairLevel g xs).length = (xs.length + 1) / 2 := by
  induction xs using pairLevel.induct with
  | case1 | case2 x => simp [pairLevel]
  | case3 x y rest ih => simp only [pairLevel, length_cons, ih]; omega

/-- The levels until one element is left. -/
def levels (xs : List α) : Option α :=
  match xs with
  | [] => none
  | [x] => some x
  | x :: y :: rest => levels (pairLevel g (x :: y :: rest))
termination_by xs.length
decreasing_by simp only [length_pairLevel, List.length_cons]; omega

lemma levels_pairLevel (xs : List α) : levels g (pairLevel g xs) = levels g xs := by
  match xs with
  | [] => rfl
  | [x] => rfl
  | x :: y :: rest => rw [levels.eq_3]

lemma pairLevel_append {xs : List α} (h : Even xs.length) (ys : List α) :
    pairLevel g (xs ++ ys) = pairLevel g xs ++ pairLevel g ys := by
  induction xs using pairLevel.induct with
  | case1 => rfl
  | case2 x => simp at h
  | case3 x y rest ih =>
    have hr : Even rest.length := by simpa [Nat.even_add_one] using h
    simp only [cons_append, pairLevel, ih hr]

lemma levels_append (k : ℕ) {xs ys : List α} {a b : α} (hx : xs.length = 2 ^ k) (hy : ys.length ≤ 2 ^ k)
    (ha : levels g xs = some a) (hb : levels g ys = some b) : levels g (xs ++ ys) = some (g a b) := by
  induction k generalizing xs ys with
  | zero =>
    obtain ⟨x, rfl⟩ := length_eq_one_iff.1 hx
    have hne : ys ≠ [] := fun h => by simp [h, levels] at hb
    obtain ⟨y, rfl⟩ := length_eq_one_iff.1 (le_antisymm hy (length_pos_iff.2 hne))
    simp_all [levels, pairLevel]
  | succ k ih =>
    -- one level up the first part is half as long, and so is the bound on the second
    have he : Even xs.length := by rw [hx, pow_succ]; exact even_two.mul_left _
    rw [← levels_pairLevel, pairLevel_append g he]
    apply ih
    · rw [length_pairLevel, hx]; omega
    · rw [length_pairLevel]; omega
    · rwa [levels_pairLevel]
    · rwa [levels_pairLevel]

end AgentWallet.Lib
