import Mathlib
/-!
# Digits with leading zeros

A list of digits, most significant first, is given by the number of its leading
zeros and by its value (`eq_canon`). So rewriting digits in another base with the
leading zeros kept one for one loses nothing.
-/

namespace AgentWallet.Lib.Numeral

open List

def value (b : ℕ) (ds : List ℕ) : ℕ := ds.foldl (fun n d => n * b + d) 0

def zeros : List ℕ → ℕ
  | [] => 0
  | d :: ds => if d = 0 then zeros ds + 1 else 0

/-- `z` zeros and then the digits of `n`. -/
def canon (b z n : ℕ) : List ℕ := List.replicate z 0 ++ (Nat.digits b n).reverse

variable {b : ℕ} {ds : List ℕ}

lemma value_concat (ds : List ℕ) (d : ℕ) : value b (ds ++ [d]) = value b ds * b + d := by
  simp [value]

lemma value_eq_ofDigits (ds : List ℕ) : value b ds = Nat.ofDigits b ds.reverse := by
  induction ds using List.reverseRecOn with
  | nil => rfl
  | append_singleton ds d ih =>
    rw [value_concat, ih, reverse_append, reverse_singleton, singleton_append, Nat.ofDigits_cons]
    ring

lemma value_zero_cons (ds : List ℕ) : value b (0 :: ds) = value b ds := by simp [value]

lemma value_replicate_append (z : ℕ) (ds : List ℕ) : value b (List.replicate z 0 ++ ds) = value b ds := by
  induction z with
  | zero => rfl
  | succ z ih => rw [replicate_succ, cons_append, value_zero_cons, ih]

lemma value_canon (b z n : ℕ) : value b (canon b z n) = n := by
  rw [canon, value_replicate_append, value_eq_ofDigits, reverse_reverse, Nat.ofDigits_digits]

lemma zeros_replicate_append (z : ℕ) (ds : List ℕ) : zeros (List.replicate z 0 ++ ds) = z + zeros ds := by
  induction z with
  | zero => simp
  | succ z ih =>
    rw [replicate_succ, cons_append, zeros, if_pos rfl, ih]
    omega

lemma zeros_of_head {d : ℕ} (h : d ≠ 0) : zeros (d :: ds) = 0 := if_neg h

lemma zeros_digits (b n : ℕ) : zeros (Nat.digits b n).reverse = 0 := by
  cases h : (Nat.digits b n).reverse with
  | nil => rfl
  | cons d ds =>
    have hne : Nat.digits b n ≠ [] := by
      rintro hn
      rw [hn] at h
      cases h
    have hl : (Nat.digits b n).getLast hne = d := by
      have hh := head_reverse (l := Nat.digits b n) (by rw [h]; simp)
      rw [← hh]
      simp [h]
    apply zeros_of_head
    rw [← hl]
    exact Nat.getLast_digit_ne_zero b (fun h0 => hne (by rw [h0, Nat.digits_zero]))

lemma zeros_canon (b z n : ℕ) : zeros (canon b z n) = z := by
  rw [canon, zeros_replicate_append, zeros_digits, Nat.add_zero]

lemma eq_canon (hb : 1 < b) (h : ∀ d ∈ ds, d < b) : canon b (zeros ds) (value b ds) = ds := by
  induction ds with
  | nil => simp [canon, zeros, value]
  | cons d ds ih =>
    by_cases hd : d = 0
    · subst hd
      have hr := ih fun d hd => h d (mem_cons_of_mem 0 hd)
      rw [canon, zeros, if_pos rfl, replicate_succ, value_zero_cons, cons_append, ← canon, hr]
    · rw [zeros_of_head hd, canon, value_eq_ofDigits, Nat.digits_ofDigits b hb]
      · simp
      · exact fun e he => h e (mem_reverse.1 he)
      · intro hne
        simpa using hd

lemma eq_replicate_of_value (hb : 1 < b) (h : ∀ d ∈ ds, d < b) (hv : value b ds = 0) :
    ds = List.replicate ds.length 0 := by
  have hc := eq_canon hb h
  rw [hv] at hc
  simp only [canon, Nat.digits_zero, reverse_nil, append_nil] at hc
  rw [← hc, length_replicate]

lemma canon_lt (hb : 1 < b) {z n d : ℕ} (h : d ∈ canon b z n) : d < b := by
  rcases mem_append.1 h with h | h
  · rw [(mem_replicate.1 h).2]
    omega
  · exact Nat.digits_lt_base hb (mem_reverse.1 h)

lemma length_canon (b z n : ℕ) : (canon b z n).length = z + (Nat.digits b n).length := by
  simp [canon]

lemma value_lt (hb : 1 < b) (h : ∀ d ∈ ds, d < b) : value b ds < b ^ ds.length := by
  rw [value_eq_ofDigits, ← length_reverse]
  exact Nat.ofDigits_lt_base_pow_length hb (by simpa using h)

lemma value_cons (d : ℕ) (ds : List ℕ) : value b (d :: ds) = d * b ^ ds.length + value b ds := by
  rw [value_eq_ofDigits, value_eq_ofDigits, reverse_cons, Nat.ofDigits_append, Nat.ofDigits_singleton,
    length_reverse]
  ring

end AgentWallet.Lib.Numeral
