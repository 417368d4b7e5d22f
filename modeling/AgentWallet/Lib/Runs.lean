import Mathlib.Data.Nat.Find
import Mathlib.Logic.Function.Iterate
import Mathlib.Tactic.Choose
/-!
# Endless runs

The runs of a partial step function, as the states and the event of each step.
-/

namespace AgentWallet.Lib

variable {σ ι : Type} {step : σ → ι → Option σ} {start : σ}

/-- The first time from `n` on. -/
lemma exists_first {p : ℕ → Prop} {n : ℕ} (h : ∃ m, n ≤ m ∧ p m) : ∃ m, n ≤ m ∧ p m ∧ ∀ k, n ≤ k → k < m → ¬ p k := by
  classical
  obtain ⟨hle, hp⟩ := Nat.find_spec h
  exact ⟨Nat.find h, hle, hp, fun k hk hlt hpk => Nat.find_min h hlt ⟨hk, hpk⟩⟩

structure Run (step : σ → ι → Option σ) (start : σ) where
  state : ℕ → σ
  event : ℕ → ι
  zero : state 0 = start
  succ : ∀ n, step (state n) (event n) = some (state (n + 1))

namespace Run

lemma invariant (ρ : Run step start) {I : σ → Prop} {cond : σ → ι → Prop} (hst : I start)
    (hs : ∀ s e s', I s → cond s e → step s e = some s' → I s')
    (hc : ∀ n, cond (ρ.state n) (ρ.event n)) (n : ℕ) : I (ρ.state n) := by
  induction n with
  | zero => rwa [ρ.zero]
  | succ n ih => exact hs _ _ _ ih (hc n) (ρ.succ n)

/-- What holds at some time and is kept from then on. -/
lemma lasts (ρ : Run step start) {I : σ → Prop} {from_ : ℕ} (h : I (ρ.state from_))
    (hs : ∀ n, from_ ≤ n → I (ρ.state n) → I (ρ.state (n + 1))) {n : ℕ} (hn : from_ ≤ n) : I (ρ.state n) := by
  induction n, hn using Nat.le_induction with
  | base => exact h
  | succ n hn ih => exact hs n hn ih

/-- Some events that pass a check, and from then on an event that stays possible. -/
lemma exists_of_events (check : σ → ι → Bool) {idle : ι} (J : σ → Prop)
    (hid : ∀ s, J s → ∃ s', step s idle = some s' ∧ J s') {events : List ι} {s : σ}
    (h : events.foldlM (fun s e => if check s e then step s e else none) start = some s) (hJ : J s) :
    ∃ ρ : Run step start, (∀ n, events.length ≤ n → J (ρ.state n) ∧ ρ.event n = idle) ∧
      ∀ n, n < events.length → events[n]? = some (ρ.event n) ∧ check (ρ.state n) (ρ.event n) = true := by
  induction events generalizing start with
  | nil =>
    cases h
    choose f hf using fun s : { s // J s } => hid s.1 s.2
    let next : { s // J s } → { s // J s } := fun s => ⟨f s, (hf s).2⟩
    refine ⟨⟨fun n => (next^[n] ⟨s, hJ⟩).1, fun _ => idle, rfl, fun n => ?_⟩,
      fun n _ => ⟨(next^[n] ⟨s, hJ⟩).2, rfl⟩, by simp⟩
    rw [Function.iterate_succ_apply']
    exact (hf _).1
  | cons e events ih =>
    rw [List.foldlM_cons] at h
    obtain ⟨s₁, hs₁, h⟩ := Option.bind_eq_some_iff.1 h
    obtain ⟨hch, hs₁⟩ := Option.ite_none_right_eq_some.1 hs₁
    obtain ⟨ρ, hi, hc⟩ := ih h
    refine ⟨⟨fun n => n.casesOn start ρ.state, fun n => n.casesOn e ρ.event, rfl, ?_⟩, ?_, ?_⟩
    · rintro (_ | n)
      · exact hs₁.trans (congrArg some ρ.zero.symm)
      · exact ρ.succ n
    · rintro (_ | n) hn
      · simp at hn
      · exact hi n (by simpa using hn)
    · rintro (_ | n) hn
      · exact ⟨rfl, hch⟩
      · exact hc n (by simpa using hn)

end Run

end AgentWallet.Lib
