import Mathlib
/-!
# Letters of an alphabet

A text over an alphabet without repetitions is a list of indices into it.
-/

namespace AgentWallet.Lib

open List Option

variable {α : Type} [DecidableEq α] {alphabet : List α} {x : α}

lemma getD_mem {i : ℕ} (h : i < alphabet.length) : alphabet.getD i x ∈ alphabet := by
  rw [getD_eq_getElem _ _ h]
  exact getElem_mem h

lemma getD_inj (hnd : alphabet.Nodup) {i j : ℕ} (hi : i < alphabet.length) (hj : j < alphabet.length)
    (h : alphabet.getD i x = alphabet.getD j x) : i = j := by
  rw [getD_eq_getElem _ _ hi, getD_eq_getElem _ _ hj] at h
  exact hnd.getElem_inj_iff.1 h

lemma idxOf?_eq_some_iff (hnd : alphabet.Nodup) (x : α) {c : α} {i : ℕ} :
    alphabet.idxOf? c = some i ↔ i < alphabet.length ∧ alphabet.getD i x = c := by
  constructor
  · intro h
    obtain ⟨hlt, hc, -⟩ := findIdx?_eq_some_iff_getElem.1 h
    refine ⟨hlt, ?_⟩
    rw [getD_eq_getElem _ _ hlt]
    exact eq_of_beq hc
  · rintro ⟨hi, rfl⟩
    apply findIdx?_eq_some_iff_getElem.2
    refine ⟨hi, ?_, fun j hj => ?_⟩
    · rw [getD_eq_getElem _ _ hi]
      exact beq_self_eq_true _
    · have hne : alphabet.getD j x ≠ alphabet.getD i x := fun he => hj.ne (getD_inj hnd (hj.trans hi) hi he)
      rw [getD_eq_getElem _ _ (hj.trans hi)] at hne
      simpa using hne

lemma mapM_idxOf? (hnd : alphabet.Nodup) (x : α) {s : List α} {ds : List ℕ} :
    s.mapM (alphabet.idxOf? ·) = some ds ↔
      (∀ d ∈ ds, d < alphabet.length) ∧ ds.map (alphabet.getD · x) = s := by
  induction s generalizing ds with
  | nil =>
    rw [mapM_nil, map_eq_nil_iff]
    constructor
    · intro h
      obtain rfl := some.inj h
      simp
    · rintro ⟨-, rfl⟩
      rfl
  | cons c s ih =>
    rw [mapM_cons]
    constructor
    · intro h
      obtain ⟨d, hd, h⟩ := Option.bind_eq_some_iff.1 h
      obtain ⟨es, hes, h⟩ := Option.bind_eq_some_iff.1 h
      obtain rfl := some.inj h
      obtain ⟨hlt, rfl⟩ := (idxOf?_eq_some_iff hnd x).1 hd
      obtain ⟨ha, rfl⟩ := ih.1 hes
      exact ⟨forall_mem_cons.2 ⟨hlt, ha⟩, rfl⟩
    · rintro ⟨ha, hm⟩
      obtain ⟨d, es, rfl, rfl, rfl⟩ := map_eq_cons_iff.1 hm
      obtain ⟨hlt, ha⟩ := forall_mem_cons.1 ha
      rw [(idxOf?_eq_some_iff hnd x).2 ⟨hlt, rfl⟩, ih.2 ⟨ha, rfl⟩]
      rfl

end AgentWallet.Lib
