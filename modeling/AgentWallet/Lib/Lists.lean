import Mathlib
/-!
# Lists

Lists related element by element, search by key, chains that end in the same element,
and words that lie on one side of a separator.
-/

namespace AgentWallet.Lib

open List

variable {α : Type}

lemma forall₂_set {β : Type} {R : α → β → Prop} {l : List α} {m : List β} (h : List.Forall₂ R l m) {i : Nat} {a : α}
    {b : β} (hi : l[i]? = some a) (hb : R a b) : List.Forall₂ R l (m.set i b) := by
  induction h generalizing i with
  | nil => simp at hi
  | cons hab _ ih =>
    cases i with
    | zero =>
      obtain rfl : _ = a := by simpa using hi
      exact .cons hb ‹_›
    | succ i => exact .cons hab (ih (by simpa using hi))

/-- An element with a key of its own is the one found under that key. -/
lemma find?_of_nodup_map {κ : Type} [DecidableEq κ] (key : α → κ) {l : List α} (hnd : (l.map key).Nodup) {a : α}
    (ha : a ∈ l) : l.find? (key · = key a) = some a := by
  induction l with
  | nil => simp at ha
  | cons b l ih =>
    rw [map_cons, nodup_cons] at hnd
    rcases mem_cons.1 ha with rfl | ha
    · simp
    · have hne : key b ≠ key a := fun he => hnd.1 (he ▸ mem_map_of_mem ha)
      simp [hne, ih hnd.2 ha]

/-- Two chains of one length that end in the same element are equal, if an
element determines the one before it. -/
lemma chain_eq_of_last {R : α → α → Prop} {l m : List α} (hd : ∀ a ∈ l, ∀ b ∈ m, ∀ c, R a c → R b c → a = b)
    (hl : l.IsChain R) (hm : m.IsChain R) (hle : l.length = m.length) (hlast : l.getLast? = m.getLast?) : l = m := by
  induction l using List.reverseRecOn generalizing m with
  | nil => exact (length_eq_zero_iff.1 hle.symm).symm
  | append_singleton l a ih =>
    obtain ⟨m', b, rfl⟩ := (eq_nil_or_concat m).resolve_left (by rintro rfl; simp at hle)
    rw [concat_eq_append] at *
    obtain rfl : a = b := by simpa using hlast
    obtain ⟨hl', -, hla⟩ := isChain_append.1 hl
    obtain ⟨hm', -, hma⟩ := isChain_append.1 hm
    have hle' : l.length = m'.length := by simpa using hle
    have hp : l.getLast? = m'.getLast? := by
      rcases eq_nil_or_concat l with rfl | ⟨l₀, x, rfl⟩
      · rw [length_eq_zero_iff.1 hle'.symm]
      obtain ⟨m₀, y, rfl⟩ := (eq_nil_or_concat m').resolve_left (by rintro rfl; simp at hle')
      have hx := hla x (by simp) a (by simp)
      have hy := hma y (by simp) a (by simp)
      simp [hd x (by simp) y (by simp) a hx hy]
    rw [ih (fun x hx y hy => hd x (by simp [hx]) y (by simp [hy])) hl' hm' hle' hp]

end AgentWallet.Lib
