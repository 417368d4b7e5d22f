import Mathlib
/-!
# Computations that raise

Python functions that can raise become `Except` computations. The two bind
rules take such a computation apart, one statement at a time; `raiseIf` is the
guard `if bad: raise e`.
-/

namespace AgentWallet.Lib

open List

variable {ε α β σ : Type}

variable {x : Except ε α} {f g : α → Except ε β} {e : ε} {a : α} {l : List α}

lemma bind_eq_ok {b : β} : (x >>= f) = .ok b ↔ ∃ a, x = .ok a ∧ f a = .ok b := by
  cases x <;> simp [bind, Except.bind]

lemma bind_eq_error : (x >>= f) = .error e ↔ x = .error e ∨ ∃ a, x = .ok a ∧ f a = .error e := by
  cases x <;> simp [bind, Except.bind]

@[simp] lemma pure_eq_ok {b : α} : (pure a : Except ε α) = .ok b ↔ a = b := by
  simp [pure, Except.pure]

@[simp] lemma pure_ne_error : (pure a : Except ε α) ≠ .error e := by
  simp [pure, Except.pure]

lemma map_eq_ok {f : α → β} {b : β} : x.map f = .ok b ↔ ∃ a, x = .ok a ∧ f a = b := by
  cases x <;> simp [Except.map]

lemma mapError_eq_ok {ε' : Type} {f : ε → ε'} : x.mapError f = .ok a ↔ x = .ok a := by
  cases x <;> simp [Except.mapError]

lemma mapError_eq_error {ε' : Type} {f : ε → ε'} {e : ε'} :
    x.mapError f = .error e ↔ ∃ e', x = .error e' ∧ f e' = e := by
  cases x <;> simp [Except.mapError]

/-- `if bad: raise e`. -/
def raiseIf (bad : Bool) (e : ε) : Except ε Unit := if bad then .error e else .ok ()

@[simp] lemma raiseIf_eq_ok {bad : Bool} {u : Unit} : raiseIf bad e = .ok u ↔ bad = false := by
  cases bad <;> simp [raiseIf]

@[simp] lemma raiseIf_eq_error {bad : Bool} {e' : ε} : raiseIf bad e = .error e' ↔ bad = true ∧ e = e' := by
  cases bad <;> simp [raiseIf]

/-- The rest of a function after a guard that does not end with its result. -/
lemma ite_passed {p : Prop} [Decidable p] {x y z : α} (h : (if p then x else y) = z) (hx : x ≠ z := by nofun) :
    ¬ p ∧ y = z := by
  rcases ite_eq_iff.1 h with ⟨-, h⟩ | h
  · exact (hx h).elim
  · exact h

lemma mapM_ok [Inhabited β] {ys : List β} (h : l.mapM g = .ok ys) :
    ∃ f : α → β, (∀ a ∈ l, g a = .ok (f a)) ∧ ys = l.map f := by
  refine ⟨fun a => (g a).toOption.getD default, ?_⟩
  induction l generalizing ys with
  | nil => simp [mapM_nil] at h; simp [h]
  | cons a l ih =>
    simp only [mapM_cons, bind_eq_ok, pure_eq_ok] at h
    obtain ⟨b, hb, bs, hbs, rfl⟩ := h
    obtain ⟨h1, h2⟩ := ih hbs
    refine ⟨?_, by simp [hb, h2, Except.toOption]⟩
    rintro c (_ | ⟨_, hc⟩)
    · simp [hb, Except.toOption]
    · exact h1 c hc

lemma exists_mapM (h : ∀ a ∈ l, ∃ b, g a = .ok b) : ∃ ys, l.mapM g = .ok ys := by
  induction l with
  | nil => exact ⟨[], rfl⟩
  | cons a l ih =>
    obtain ⟨b, hb⟩ := h a (by simp)
    obtain ⟨bs, hbs⟩ := ih fun c hc => h c (by simp [hc])
    exact ⟨b :: bs, by simp [mapM_cons, bind_eq_ok, hb, hbs]⟩

lemma mapM_eq {f : α → β} (h : ∀ a ∈ l, g a = .ok (f a)) : l.mapM g = .ok (l.map f) := by
  induction l with
  | nil => rfl
  | cons a l ih =>
    rw [forall_mem_cons] at h
    simp [mapM_cons, bind_eq_ok, h.1, ih h.2]

/-- The invariant rule of a loop that can raise. -/
lemma foldlM_ok {step : σ → α → Except ε σ} (I : List α → σ → Prop) {s s' : σ}
    (h : l.foldlM step s = .ok s') (h0 : I [] s)
    (hs : ∀ done a rest t t', l = done ++ a :: rest → I done t → step t a = .ok t' → I (done ++ [a]) t') : I l s' := by
  suffices ∀ rest done t, l = done ++ rest → I done t → rest.foldlM step t = .ok s' → I l s' from
    this l [] s rfl h0 h
  intro rest
  induction rest with
  | nil =>
    intro done t hl hi hr
    rw [foldlM_nil, pure_eq_ok] at hr
    rw [hl, append_nil, ← hr]
    exact hi
  | cons a rest ih =>
    intro done t hl hi hr
    rw [foldlM_cons, bind_eq_ok] at hr
    obtain ⟨t', ht, hr⟩ := hr
    exact ih (done ++ [a]) t' (by simp [hl]) (hs done a rest t t' hl hi ht) hr

end AgentWallet.Lib
