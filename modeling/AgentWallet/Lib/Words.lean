import Mathlib
/-!
# Regrouping words of bits

A stream of words of `src` bits is rewritten as words of `dst` bits through an
accumulator that is never cut: it is the number of all words read. So the words
written are the leading digits of one number, and what is left is its remainder
(`regroup_spec`).
-/

namespace AgentWallet.Lib

open List

/-- The number a list of words of `w` bits stands for, most significant first. -/
def ofWords (w : Nat) (l : List Nat) : Nat := Nat.ofDigits (2 ^ w) l.reverse

@[simp] lemma ofWords_nil (w : Nat) : ofWords w [] = 0 := by simp [ofWords]

@[simp] lemma ofWords_concat (w : Nat) (l : List Nat) (x : Nat) :
    ofWords w (l ++ [x]) = x + 2 ^ w * ofWords w l := by
  simp [ofWords, Nat.ofDigits_cons]

/-- Words within their width are determined by their number and how many there are. -/
lemma ofWords_inj {w : Nat} (hw : 0 < w) {l m : List Nat} (hl : ∀ x ∈ l, x < 2 ^ w) (hm : ∀ x ∈ m, x < 2 ^ w)
    (hle : l.length = m.length) (h : ofWords w l = ofWords w m) : l = m := by
  have hb : 1 < 2 ^ w := Nat.one_lt_two_pow hw.ne'
  refine reverse_injective (Nat.ofDigits_inj_of_len_eq hb ?_ ?_ ?_ h)
  · simpa using hle
  · simpa using hl
  · simpa using hm

/-- The accumulator, how many of its low bits are still to be written, and the
words written so far. -/
structure Regroup where
  acc : Nat := 0
  bits : Nat := 0
  out : List Nat := []

namespace Regroup

/-- Writes words of `dst` bits while there are bits for one. -/
def drain (dst : Nat) (s : Regroup) : Regroup :=
  if 0 < dst ∧ dst ≤ s.bits then
    drain dst
      { s with bits := s.bits - dst, out := s.out ++ [(s.acc >>> (s.bits - dst)) &&& (2 ^ dst - 1)] }
  else s
termination_by s.bits

/-- Reads one word of `src` bits. -/
def push (src dst : Nat) (s : Regroup) (v : Nat) : Regroup :=
  drain dst { s with acc := (s.acc <<< src) ||| v, bits := s.bits + src }

/-- The words written are those of the accumulator without its low `bits` bits. -/
structure Written (dst : Nat) (s : Regroup) : Prop where
  value : ofWords dst s.out = s.acc / 2 ^ s.bits
  words : ∀ x ∈ s.out, x < 2 ^ dst

lemma Written.turn {dst : Nat} {s : Regroup} (h : s.Written dst) (hb : dst ≤ s.bits) :
    Written dst { s with
      bits := s.bits - dst, out := s.out ++ [(s.acc >>> (s.bits - dst)) &&& (2 ^ dst - 1)] } := by
  have hw : (s.acc >>> (s.bits - dst)) &&& (2 ^ dst - 1) = s.acc / 2 ^ (s.bits - dst) % 2 ^ dst := by
    rw [Nat.and_two_pow_sub_one_eq_mod, Nat.shiftRight_eq_div_pow]
  rw [hw]
  constructor
  · have hq : s.acc / 2 ^ s.bits = s.acc / 2 ^ (s.bits - dst) / 2 ^ dst := by
      rw [Nat.div_div_eq_div_mul, ← pow_add, Nat.sub_add_cancel hb]
    rw [ofWords_concat, h.value, hq]
    exact Nat.mod_add_div _ _
  · intro x hx
    rcases mem_append.1 hx with hx | hx
    · exact h.words x hx
    · rw [mem_singleton.1 hx]
      exact Nat.mod_lt _ (by positivity)

/-- `drain` leaves less than a word, keeps the accumulator and loses no bit. -/
lemma drain_spec {dst : Nat} (hd : 0 < dst) {s : Regroup} (h : s.Written dst) :
    (s.drain dst).Written dst ∧ (s.drain dst).acc = s.acc ∧ (s.drain dst).bits < dst ∧
      dst * (s.drain dst).out.length + (s.drain dst).bits = dst * s.out.length + s.bits := by
  fun_induction drain dst s with
  | case1 s hb ih =>
    obtain ⟨hw, ha, hlt, hs⟩ := ih (h.turn hb.2)
    refine ⟨hw, ha, hlt, hs.trans ?_⟩
    have hle := hb.2
    change dst * (s.out ++ [_]).length + (s.bits - dst) = _
    rw [length_append, length_singleton, Nat.mul_add, Nat.mul_one]
    omega
  | case2 s hb =>
    refine ⟨h, rfl, ?_, rfl⟩
    by_contra hge
    exact hb ⟨hd, by omega⟩

end Regroup

open Regroup in
/-- The whole stream: the accumulator is the number of the words read, and the
words written are its leading bits, in whole words. -/
lemma regroup_spec (src dst : Nat) (hd : 0 < dst) {l : List Nat} (hl : ∀ v ∈ l, v < 2 ^ src) :
    let s := l.foldl (push src dst) {}
    s.Written dst ∧ s.acc = ofWords src l ∧ s.bits < dst ∧ dst * s.out.length + s.bits = src * l.length := by
  induction l using List.reverseRecOn with
  | nil => exact ⟨⟨by simp, by simp⟩, by simp, hd, by simp⟩
  | append_singleton l v ih =>
    obtain ⟨hw, ha, -, hsu⟩ := ih fun x hx => hl x (by simp [hx])
    have hv : v < 2 ^ src := hl v (by simp)
    simp only [foldl_append, foldl_cons, foldl_nil] at hw ha hsu ⊢
    set s := l.foldl (push src dst) {} with hs
    -- Reading a word shifts what is already written along with the rest.
    have hor : (s.acc <<< src) ||| v = 2 ^ src * s.acc + v := by
      rw [← Nat.shiftLeft_add_eq_or_of_lt hv, Nat.shiftLeft_eq, Nat.mul_comm]
    have hr : Written dst { s with acc := (s.acc <<< src) ||| v, bits := s.bits + src } := by
      refine ⟨?_, hw.words⟩
      change ofWords dst s.out = ((s.acc <<< src) ||| v) / 2 ^ (s.bits + src)
      rw [hw.value, hor, Nat.add_comm s.bits src, pow_add, ← Nat.div_div_eq_div_mul,
        Nat.mul_add_div (by positivity), Nat.div_eq_of_lt hv, Nat.add_zero]
    obtain ⟨hw', ha', hlt', hsu'⟩ := drain_spec hd hr
    refine ⟨hw', ?_, hlt', ?_⟩
    · rw [ofWords_concat, ← ha, Nat.add_comm]
      exact ha'.trans hor
    · rw [length_append, length_singleton, Nat.mul_add, Nat.mul_one, ← hsu, Nat.add_assoc]
      exact hsu'

end AgentWallet.Lib
