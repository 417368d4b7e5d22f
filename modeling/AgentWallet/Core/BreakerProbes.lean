import AgentWallet.Core.BreakerRuns
import Mathlib.Algebra.Ring.Nat
/-!
# Probes of the circuit breaker

Whoever is let through after waiting for the lock is not asked again whether the
breaker is open. As long as the lock is handed on only while the breaker is closed,
and no probe fails over the heads of waiting calls, one call is admitted for each
open period.
-/

namespace AgentWallet.Resilience

open AgentWallet.Lib Option

section Probes

variable {T : Type} [DecidableEq T] {calls : T → Call} {w w' : World T} {e : Event T}

/-- Since the breaker opened at most one call was admitted for each open period that
has passed, and no call runs that was waiting when a probe failed. -/
structure OneProbe (w : World T) : Prop where
  perPeriod : ∀ spell, w.spell = some spell → spell.since + spell.admitted * w.breaker.openDuration ≤ w.clock
  refused : ∀ t ∈ w.passedOver, (w.pc t).underWay = false

/-- No operation fails while the breaker is half-open and calls wait for the lock, and
the lock is handed on only while the breaker is closed. -/
def Unhurried (w : World T) (e : Event T) : Prop :=
  (e.failure = true → w.breaker.state = .halfOpen → w.lock.waiters = []) ∧
    (e.isGrant = true → w.breaker.state = .closed)

instance (w : World T) (e : Event T) : Decidable (Unhurried w e) := inferInstanceAs (Decidable (_ ∧ _))

/-- While the breaker is open the admitted calls are accounted for by the time at which
it last opened; while it is half-open and the lock is free there is room for one more. -/
structure Counted (w : World T) : Prop where
  passed : w.passedOver = []
  closed : w.breaker.state = .closed → w.spell = none
  opened : w.breaker.state = .opened → ∃ openedAt spell, w.breaker.openedAt = some openedAt ∧ w.spell = some spell ∧
    spell.since + spell.admitted * w.breaker.openDuration ≤ openedAt ∧ openedAt ≤ w.clock
  half : w.breaker.state = .halfOpen → ∃ spell, w.spell = some spell ∧
    spell.since + spell.admitted * w.breaker.openDuration ≤ w.clock ∧
    (w.lock.holder = none → spell.since + (spell.admitted + 1) * w.breaker.openDuration ≤ w.clock)

section

variable (h : Counted w)
include h

lemma Counted.oneProbe : OneProbe w := by
  refine ⟨fun spell hs => ?_, by simp [h.passed]⟩
  cases hst : w.breaker.state with
  | closed => simp [h.closed hst] at hs
  | opened =>
    obtain ⟨openedAt, spell', -, hs', hle, hn⟩ := h.opened hst
    obtain rfl : spell' = spell := some.inj (hs'.symm.trans hs)
    exact hle.trans hn
  | halfOpen =>
    obtain ⟨spell', hs', hle, -⟩ := h.half hst
    obtain rfl : spell' = spell := some.inj (hs'.symm.trans hs)
    exact hle

/-- An open breaker whose period has passed has room for a call. -/
lemma Counted.maybeHalfOpen : Counted { w with breaker := w.breaker.maybeHalfOpen w.clock } := by
  rcases w.breaker.maybeHalfOpen_cases w.clock with hb | ⟨openedAt, hs, ho, he, hb⟩
  · rw [hb]
    exact h
  obtain ⟨openedAt', spell, ho', hsp, hle, -⟩ := h.opened hs
  obtain rfl : openedAt' = openedAt := some.inj (ho'.symm.trans ho)
  have hr : spell.since + (spell.admitted + 1) * w.breaker.openDuration ≤ w.clock := by
    rw [add_one_mul]
    omega
  rw [hb]
  exact ⟨h.passed, by simp, by simp, fun _ => ⟨spell, hsp, by dsimp only; omega, fun _ => hr⟩⟩

lemma Counted.setPc (t : T) (pc : Pc) : Counted (w.setPc t pc) :=
  ⟨h.passed, h.closed, h.opened, h.half⟩

lemma Counted.queue (waiters : List T) :
    Counted { w with lock := { w.lock with waiters := waiters } } :=
  ⟨h.passed, h.closed, h.opened, h.half⟩

lemma Counted.letThrough_closed (t : T) (hc : w.breaker.state = .closed) (lock : Lock T) :
    Counted ({ w with lock := lock }.letThrough t) := by
  have hs := h.closed hc
  exact ⟨h.passed, by simp [World.letThrough, World.setPc, hs], by simp [World.letThrough, World.setPc, hc],
    by simp [World.letThrough, World.setPc, hc]⟩

lemma Counted.letThrough_probe (t : T) (hh : w.breaker.state = .halfOpen)
    (hf : w.lock.holder = none) : Counted ({ w with lock := { w.lock with holder := some t } }.letThrough t) := by
  obtain ⟨spell, hs, -, hr⟩ := h.half hh
  refine ⟨h.passed, by simp [World.letThrough, World.setPc, hh], by simp [World.letThrough, World.setPc, hh], ?_⟩
  intro _
  refine ⟨{ spell with admitted := spell.admitted + 1 }, by simp [World.letThrough, hs], hr hf, ?_⟩
  simp [World.letThrough, World.setPc]

lemma Counted.beforeCall (t : T) (call : Call) : Counted (w.beforeCall t call) := by
  have hb := h.maybeHalfOpen
  simp only [World.beforeCall]
  split
  · exact hb.setPc t _
  · exact hb.letThrough_closed t ‹_› w.lock
  · split
    · exact hb.letThrough_probe t ‹_› (And.left ‹_›)
    · exact (hb.queue _).setPc t _

lemma Counted.recordFailure (error : String)
    (hw : w.breaker.state = .halfOpen → w.lock.waiters = []) : Counted (w.recordFailure error) := by
  cases hs : w.breaker.state with
  | halfOpen =>
    obtain ⟨spell, hsp, hle, -⟩ := h.half hs
    simp only [World.recordFailure, hs, CircuitBreaker.recordFailure]
    exact ⟨by simp [hw hs, h.passed], by simp, fun _ => ⟨w.clock, spell, rfl, hsp, hle, le_rfl⟩, by simp⟩
  | opened =>
    simp only [World.recordFailure, hs, CircuitBreaker.recordFailure]
    exact ⟨h.passed, by simp, fun _ => h.opened hs, by simp⟩
  | closed =>
    simp only [World.recordFailure, hs, CircuitBreaker.recordFailure]
    split
    · exact ⟨h.passed, by simp, fun _ => ⟨w.clock, ⟨w.clock, 0⟩, rfl, by simp, by simp, le_rfl⟩, by simp⟩
    · exact ⟨h.passed, by simp, by simp, by simp⟩

lemma Counted.step (hco : Unhurried w e) (hst : w.step calls e = some w') : Counted w' := by
  cases effect_of_step hst with
  | start t => exact h.beforeCall t (calls t)
  | grant t rest => exact h.letThrough_closed t (hco.2 rfl) _
  | success t ending =>
    have hc : Counted w.recordSuccess := ⟨h.passed, fun _ => rfl, by nofun, by nofun⟩
    exact hc.setPc t _
  | failure t error ending hw he hf => exact (h.recordFailure error (hco.1 hf)).setPc t _
  | drop t ending | backOff t attempts | wake t attempts => exact h.setPc t _
  | leave t => exact (h.queue _).setPc t _
  | pass time =>
    refine ⟨h.passed, h.closed, fun hop => ?_, fun hh => ?_⟩
    · obtain ⟨openedAt, spell, ho, hs, hle, hn⟩ := h.opened hop
      exact ⟨openedAt, spell, ho, hs, hle, Nat.le_add_right_of_le hn⟩
    · obtain ⟨spell, hs, hle, hr⟩ := h.half hh
      exact ⟨spell, hs, Nat.le_add_right_of_le hle, fun hfr => Nat.le_add_right_of_le (hr hfr)⟩
  | reset => exact ⟨h.passed, fun _ => rfl, by nofun, by nofun⟩

end

/-- If no operation fails while calls wait for a probe and the lock is handed on only
while the breaker is closed, there is one probe for each open period. -/
theorem oneProbe_of_unhurried {name : String} {failureThreshold openDuration : ℕ}
    (ρ : Run (World.step calls) (World.initial T name failureThreshold openDuration))
    (hcond : ∀ n, Unhurried (ρ.state n) (ρ.event n)) (n : ℕ) : OneProbe (ρ.state n) := by
  have hi : Counted (World.initial T name failureThreshold openDuration) :=
    ⟨rfl, fun _ => rfl, by nofun, by nofun⟩
  exact (ρ.invariant hi (fun _ _ _ h hcond => h.step hcond) hcond n).oneProbe

end Probes

lemma stampede_runs : ∃ w, stampede.foldlM
      (fun w e => if true then World.step (fun _ => .mutating) w e else none)
      (World.initial (Fin 7) "lnd" 5 30000000) = some w ∧ 6 ∈ w.passedOver ∧ (w.pc 6).underWay = true := by
  refine ⟨_, rfl, ?_⟩
  decide

theorem lnd_breaker_admits_waiting :
    ∃ (ρ : Run (World.step fun _ => .mutating) (World.initial (Fin 7) "lnd" 5 30000000)) (n : ℕ),
      ¬ OneProbe (ρ.state n) := by
  obtain ⟨w, hw, hr⟩ := stampede_runs
  obtain ⟨ρ, hi, -⟩ := Run.exists_of_events (fun _ _ => true) (fun w => 6 ∈ w.passedOver ∧ (w.pc 6).underWay = true)
    (fun w hw => ⟨_, pass_one w, hw⟩) hw hr
  obtain ⟨hp, hwa⟩ := (hi 15 le_rfl).1
  refine ⟨ρ, 15, fun h => ?_⟩
  simp [h.refused 6 hp] at hwa

lemma comeback_unhurried : ∃ w, comeback.foldlM
      (fun w e => if decide (Unhurried w e) then World.step (fun _ => .mutating) w e else none)
      (World.initial (Fin 7) "lnd" 5 30000000) = some w :=
  ⟨_, rfl⟩

theorem lnd_breaker_one_probe :
    ∃ ρ : Run (World.step fun _ => .mutating) (World.initial (Fin 7) "lnd" 5 30000000),
      (∀ n, Unhurried (ρ.state n) (ρ.event n)) ∧ ∀ n, OneProbe (ρ.state n) := by
  obtain ⟨w, hw⟩ := comeback_unhurried
  obtain ⟨ρ, hi, hch⟩ :=
    Run.exists_of_events _ (fun _ => True) (fun w _ => ⟨_, pass_one w, trivial⟩) hw trivial
  have hc : ∀ n, Unhurried (ρ.state n) (ρ.event n) := by
    intro n
    by_cases hn : n < 13
    · exact of_decide_eq_true (hch n hn).2
    · rw [(hi n (not_lt.1 hn)).2]
      exact ⟨by nofun, by nofun⟩
  exact ⟨ρ, hc, oneProbe_of_unhurried ρ hc⟩

end AgentWallet.Resilience
