import AgentWallet.Lib.Words
/-!
# The bech32 checksum

A checksum of six words of five bits, from a register of thirty bits. A step of
the register is linear in exclusive or, and what is fed in during the last six
steps never reaches the top of the register, so the words before a checksum
determine it (`checksum_unique`).
-/

namespace AgentWallet.Lib.Polymod

open List

def generator : List ℕ := [0x3B6A57B2, 0x26508E6D, 0x1EA119FA, 0x3D4233DD, 0x2A1462B3]

/-- The generators selected by the bits of `b`, added to `chk`. -/
def reduce (b chk : ℕ) : ℕ :=
  (List.range 5).foldl (fun chk i => chk ^^^ (if (b >>> i) &&& 1 ≠ 0 then generator.getD i 0 else 0)) chk

def step (chk v : ℕ) : ℕ := reduce (chk >>> 25) (((chk &&& 0x1FFFFFF) <<< 5) ^^^ v)

def polymod (values : List ℕ) : ℕ := values.foldl step 1

/-- The part of a step that does not depend on the word read. -/
def feed (chk : ℕ) : ℕ := step chk 0

def term (b i : ℕ) : ℕ := if (b >>> i) &&& 1 ≠ 0 then generator.getD i 0 else 0

lemma reduce_eq (b chk : ℕ) :
    reduce b chk = chk ^^^ term b 0 ^^^ term b 1 ^^^ term b 2 ^^^ term b 3 ^^^ term b 4 := rfl

lemma term_xor (a b i : ℕ) : term (a ^^^ b) i = term a i ^^^ term b i := by
  have hb (n : ℕ) : (n >>> i) &&& 1 ≠ 0 ↔ n.testBit i = true := by
    simp [Nat.testBit, Nat.and_comm]
  simp only [term, hb, Nat.testBit_xor]
  cases a.testBit i <;> cases b.testBit i <;> simp

lemma step_eq (chk v : ℕ) : step chk v = feed chk ^^^ v := by
  simp only [feed, step, reduce_eq, Nat.xor_zero]
  ac_rfl

lemma feed_xor (x y : ℕ) : feed (x ^^^ y) = feed x ^^^ feed y := by
  simp only [feed, step, reduce_eq, Nat.xor_zero, Nat.shiftRight_xor_distrib, Nat.and_xor_distrib_right,
    Nat.shiftLeft_xor_distrib, term_xor]
  ac_rfl

/-- The difference of two registers is the register of the differences. -/
lemma foldl_step_xor {c d : List ℕ} (hl : c.length = d.length) (x y : ℕ) :
    c.foldl step x ^^^ d.foldl step y = (List.zipWith (· ^^^ ·) c d).foldl step (x ^^^ y) := by
  induction c generalizing d x y with
  | nil =>
    obtain rfl := length_eq_zero_iff.1 hl.symm
    rfl
  | cons v c ih =>
    obtain ⟨w, d, rfl⟩ := exists_cons_of_length_eq_add_one hl.symm
    have hs : step x v ^^^ step y w = step (x ^^^ y) (v ^^^ w) := by
      simp only [step_eq, feed_xor]
      ac_rfl
    rw [foldl_cons, foldl_cons, ih (by simpa using hl), hs, zipWith_cons_cons, foldl_cons]

/-- A register whose top is clear only moves up. -/
lemma step_of_lt {chk v : ℕ} (hc : chk < 2 ^ 25) (hv : v < 2 ^ 5) : step chk v = 2 ^ 5 * chk + v := by
  have ht : chk >>> 25 = 0 := by rw [Nat.shiftRight_eq_div_pow, Nat.div_eq_of_lt hc]
  have hl : chk &&& 0x1FFFFFF = chk := by
    rw [show 0x1FFFFFF = 2 ^ 25 - 1 from rfl, Nat.and_two_pow_sub_one_eq_mod, Nat.mod_eq_of_lt hc]
  have hz (i : ℕ) : term 0 i = 0 := by simp [term]
  simp only [step, reduce_eq, ht, hl, hz, Nat.xor_zero]
  apply Nat.eq_of_testBit_eq
  intro j
  rw [Nat.testBit_two_pow_mul_add chk hv, Nat.testBit_xor, Nat.testBit_shiftLeft]
  split
  case isTrue h => simp [Nat.not_le.2 h]
  rename_i h
  have hh : v.testBit j = false :=
    Nat.testBit_lt_two_pow (hv.trans_le (Nat.pow_le_pow_right (by decide) (Nat.not_lt.1 h)))
  simp [Nat.not_lt.1 h, hh]

lemma foldl_step_zero {d : List ℕ} (hl : d.length ≤ 6) (hd : ∀ v ∈ d, v < 2 ^ 5) :
    d.foldl step 0 = ofWords 5 d := by
  induction d using List.reverseRecOn with
  | nil => simp
  | append_singleton d v ih =>
    have hd' : ∀ w ∈ d, w < 2 ^ 5 := fun w hw => hd w (mem_append_left _ hw)
    rw [length_append, length_singleton] at hl
    have hlt : ofWords 5 d < 2 ^ 25 := by
      have hp : ofWords 5 d < (2 ^ 5) ^ d.length := by
        have := Nat.ofDigits_lt_base_pow_length (b := 2 ^ 5) (by decide) (l := d.reverse) (by simpa using hd')
        simpa [ofWords] using this
      exact hp.trans_le (by rw [← pow_mul]; exact Nat.pow_le_pow_right (by decide) (by omega))
    rw [foldl_append, ih (by omega) hd', foldl_cons, foldl_nil,
      step_of_lt hlt (hd v (by simp)), ofWords_concat]
    ring

/-- After the same words, two checksums of the same length and remainder are the same. -/
lemma checksum_unique {pre c d : List ℕ} (hl : c.length = d.length) (hs : c.length ≤ 6)
    (hc : ∀ v ∈ c, v < 2 ^ 5) (hd : ∀ v ∈ d, v < 2 ^ 5) (h : polymod (pre ++ c) = polymod (pre ++ d)) : c = d := by
  simp only [polymod, foldl_append] at h
  have hze := foldl_step_xor hl (pre.foldl step 1) (pre.foldl step 1)
  have hw : ∀ v ∈ List.zipWith (· ^^^ ·) c d, v < 2 ^ 5 := by
    intro v hv
    obtain ⟨i, hi, rfl⟩ := getElem_of_mem hv
    rw [getElem_zipWith]
    exact Nat.xor_lt_two_pow (hc _ (getElem_mem _)) (hd _ (getElem_mem _))
  have hs' : (List.zipWith (· ^^^ ·) c d).length ≤ 6 := by
    rw [length_zipWith]
    omega
  rw [h, Nat.xor_self, Nat.xor_self, foldl_step_zero hs' hw] at hze
  have hn : List.zipWith (· ^^^ ·) c d = List.replicate (List.zipWith (· ^^^ ·) c d).length 0 := by
    apply ofWords_inj (by decide : 0 < 5) hw
    · intro v hv
      rw [(mem_replicate.1 hv).2]
      decide
    · simp
    · rw [← hze]
      simp [ofWords, Nat.ofDigits_replicate_zero]
  apply ext_getElem hl
  intro i hi hi'
  have hz : i < (List.zipWith (· ^^^ ·) c d).length := by
    rw [length_zipWith]
    omega
  have ha : ∀ v ∈ List.zipWith (· ^^^ ·) c d, v = 0 := by
    intro v hv
    rw [hn] at hv
    exact eq_of_mem_replicate hv
  have hx := ha _ (getElem_mem hz)
  rw [getElem_zipWith] at hx
  exact Nat.xor_eq_zero_iff.1 hx

end AgentWallet.Lib.Polymod
