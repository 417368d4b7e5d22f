import AgentWallet.Core.CircuitBreaker
import AgentWallet.Lib.Runs
/-!
# Runs of the circuit breaker

The probe lock is taken by `before_call` and given back by `record_success` and
`record_failure` while the breaker is half-open. A call that holds the lock and ends
without recording anything keeps it for ever, and so does a call that was handed the
lock after the breaker had closed. Without such calls the breaker recovers.
-/

namespace AgentWallet.Resilience

open AgentWallet.Lib World Option

variable {T : Type} [DecidableEq T]

/-! ## The parts of the state -/

namespace World

variable (w : World T) (t : T)

@[simp] lemma setPc_self (pc : Pc) : (w.setPc t pc).pc t = pc := Function.update_self ..

variable {u : T}

lemma setPc_of_ne {pc : Pc} (h : u ≠ t) : (w.setPc t pc).pc u = w.pc u := Function.update_of_ne h ..

lemma finish_of_ne {ending : Ending} (h : u ≠ t) : (w.finish t ending).pc u = w.pc u :=
  Function.update_of_ne h ..

lemma letThrough_of_ne (h : u ≠ t) : (w.letThrough t).pc u = w.pc u := Function.update_of_ne h ..

@[simp] lemma letThrough_self : (w.letThrough t).pc t = .running 1 := Function.update_self ..

@[simp] lemma recordFailure_pc (error : String) : (w.recordFailure error).pc = w.pc := by
  simp only [recordFailure]
  split <;> rfl

@[simp] lemma recordFailure_clock (error : String) : (w.recordFailure error).clock = w.clock := by
  simp only [recordFailure]
  split <;> rfl

@[simp] lemma recordFailure_breaker (error : String) :
    (w.recordFailure error).breaker = w.breaker.recordFailure w.clock error := by
  simp only [recordFailure]
  split <;> rfl

end World

lemma CircuitBreaker.maybeHalfOpen_cases (b : CircuitBreaker) (now : ℕ) :
    b.maybeHalfOpen now = b ∨ ∃ openedAt, b.state = .opened ∧ b.openedAt = some openedAt ∧
      openedAt + b.openDuration ≤ now ∧ b.maybeHalfOpen now = { b with state := .halfOpen } := by
  cases ho : b.openedAt with
  | none => left; simp [maybeHalfOpen, ho]
  | some openedAt =>
    by_cases h : b.state = .opened ∧ openedAt + b.openDuration ≤ now
    · right
      exact ⟨openedAt, h.1, rfl, h.2, by simp [maybeHalfOpen, ho, h]⟩
    · left
      simp [maybeHalfOpen, ho, h]

/-! ## What a step does -/

def Event.task : Event T → Option T
  | .start t | .grant t | .attempted t _ | .streamed t _ | .noClient t _ | .wake t | .cancel t => some t
  | .pass _ | .reset => none

def Event.isStart : Event T → Bool
  | .start _ => true
  | _ => false

def Event.isGrant : Event T → Bool
  | .grant _ => true
  | _ => false

/-- An operation ends, and not with success. -/
def Event.failure : Event T → Bool
  | .attempted _ (.error _) | .streamed _ (.error _) | .streamed _ (.ok (.httpError _ _)) | .noClient _ _ => true
  | _ => false

def unrecorded (calls : T → Call) : Event T → Option T
  | .attempted t (.error e) =>
    match calls t with
    | .mutating => if e.retryable then none else some t
    | .withRetry _ | .sendPaymentV2 => none
  | .streamed t (.error .cancelled) | .noClient t _ | .cancel t => some t
  | _ => none

inductive Effect (calls : T → Call) (w : World T) : Event T → World T → Prop
  | start (t : T) (h : w.pc t = .idle) : Effect calls w (.start t) (w.beforeCall t (calls t))
  | grant (t : T) (rest : List T) (h : w.pc t = .waiting) (hfree : w.lock.holder = none)
    (hhead : w.lock.waiters = t :: rest) :
    Effect calls w (.grant t) ({ w with lock := ⟨some t, rest⟩ }.letThrough t)
  | success {e : Event T} (t : T) (ending : Ending) (h : (w.pc t).underWay = true) (he : e.task = some t)
    (hok : e.failure = false) : Effect calls w e (w.recordSuccess.finish t ending)
  | failure {e : Event T} (t : T) (error : String) (ending : Ending) (h : (w.pc t).underWay = true)
    (he : e.task = some t) (hfail : e.failure = true) : Effect calls w e ((w.recordFailure error).finish t ending)
  | drop {e : Event T} (t : T) (ending : Ending) (h : (w.pc t).underWay = true) (he : e.task = some t)
    (hdrop : unrecorded calls e = some t) : Effect calls w e (w.finish t ending)
  | backOff {e : Event T} (t : T) (attempts : ℕ) (h : (w.pc t).underWay = true) (he : e.task = some t)
    (hfail : e.failure = true) : Effect calls w e (w.setPc t (.sleeping attempts))
  | wake (t : T) (attempts : ℕ) (h : w.pc t = .sleeping attempts) :
    Effect calls w (.wake t) (w.setPc t (.running (attempts + 1)))
  | leave (t : T) (h : w.pc t = .waiting) : Effect calls w (.cancel t)
      ({ w with lock := { w.lock with waiters := w.lock.waiters.erase t } }.finish t (.raised .cancelled))
  | pass (time : ℕ) : Effect calls w (.pass time) { w with clock := w.clock + time }
  | reset : Effect calls w .reset { w with breaker := w.breaker.reset, lock := {}, spell := none }

variable {calls : T → Call} {w : World T}

lemma attempted_effect {w' : World T} {t : T} {attempts : ℕ} {result : Except Exc String}
    (hpc : w.pc t = .running attempts) (h : w.attempted t (calls t) attempts result = some w') :
    Effect calls w (.attempted t result) w' := by
  have hw : (w.pc t).underWay = true := by rw [hpc]; rfl
  cases hc : calls t with
  | sendPaymentV2 => simp [World.attempted, hc] at h
  | mutating =>
    cases result with
    | ok data =>
      simp only [World.attempted, hc, some.injEq] at h
      subst h
      exact .success t _ hw rfl rfl
    | error e =>
      simp only [World.attempted, hc] at h
      split at h <;> cases h
      · exact .failure t _ _ hw rfl rfl
      · exact .drop t _ hw rfl (by simp_all [unrecorded])
  | withRetry delays =>
    cases result with
    | ok data =>
      simp only [World.attempted, hc, some.injEq] at h
      subst h
      exact .success t _ hw rfl rfl
    | error e =>
      simp only [World.attempted, hc] at h
      split at h <;> cases h
      · exact .backOff t attempts hw rfl rfl
      · exact .failure t _ _ hw rfl rfl

lemma streamed_effect {t : T} {result : Except Exc Streamed}
    (hw : (w.pc t).underWay = true) : Effect calls w (.streamed t result) (w.streamed t result) := by
  cases result with
  | ok streamed =>
    cases streamed with
    | httpError status text => exact .failure t _ _ hw rfl rfl
    | _ => exact .success t _ hw rfl rfl
  | error e =>
    cases e with
    | cancelled => exact .drop t _ hw rfl rfl
    | _ => exact .failure t _ _ hw rfl rfl

lemma effect_of_step {w' : World T} {e : Event T} (h : w.step calls e = some w') : Effect calls w e w' := by
  cases e with
  | start t =>
    simp only [World.step, ite_none_right_eq_some, some.injEq] at h
    obtain ⟨hpc, rfl⟩ := h
    exact .start t hpc
  | grant t =>
    simp only [World.step, ite_none_right_eq_some, some.injEq] at h
    obtain ⟨⟨hpc, hf, hh⟩, rfl⟩ := h
    obtain ⟨rest, hr⟩ := List.head?_eq_some_iff.1 hh
    rw [hr, List.tail_cons]
    exact .grant t rest hpc hf hr
  | attempted t result =>
    simp only [World.step] at h
    split at h
    · exact attempted_effect ‹_› h
    · cases h
  | streamed t result =>
    simp only [World.step] at h
    split at h
    · cases h
      exact streamed_effect (by simp_all [Pc.underWay])
    · cases h
  | noClient t e =>
    simp only [World.step] at h
    split at h
    · cases h
      exact .drop t _ (by simp_all [Pc.underWay]) rfl rfl
    · cases h
  | wake t =>
    simp only [World.step] at h
    split at h
    · cases h
      exact .wake t _ ‹_›
    · cases h
  | cancel t =>
    simp only [World.step] at h
    split at h
    · cases h
      exact .leave t ‹_›
    · cases h
      exact .drop t _ (by simp_all [Pc.underWay]) rfl rfl
    · cases h
  | pass time => cases h; exact .pass time
  | reset => cases h; exact .reset

/-! ## Runs -/

def World.initial (T : Type) (name : String) (failureThreshold openDuration : ℕ) : World T :=
  { breaker := { name := name, failureThreshold := failureThreshold, openDuration := openDuration } }

section Wedge

variable {calls : T → Call} {w w' : World T} {e : Event T}

/-- No call comes while the breaker is half-open, and the call that holds the lock
does not end with nothing recorded. -/
def Orderly (calls : T → Call) (w : World T) (e : Event T) : Prop :=
  (e.isStart = true → w.breaker.state ≠ .halfOpen) ∧
    (unrecorded calls e ≠ none → unrecorded calls e ≠ w.lock.holder)

instance (calls : T → Call) (w : World T) (e : Event T) : Decidable (Orderly calls w e) :=
  inferInstanceAs (Decidable (_ ∧ _))

lemma Orderly.holder_ne (h : Orderly calls w e) {t : T} (ht : unrecorded calls e = some t) :
    w.lock.holder ≠ some t := by
  intro hh
  apply h.2
  · simp [ht]
  · rw [ht, hh]

/-- The lock is held by a probe under way, and only while the breaker is half-open. -/
structure Sound (w : World T) : Prop where
  queue : w.lock.waiters = []
  gate : ∀ t, w.pc t ≠ .waiting
  holder : ∀ t, w.lock.holder = some t → w.breaker.state = .halfOpen ∧ (w.pc t).underWay = true
  probe : w.breaker.state = .halfOpen → w.lock.holder ≠ none
  opened : w.breaker.state = .opened → w.breaker.openedAt ≠ none

section

variable (h : Sound w)
include h

lemma Sound.beforeCall (t : T) (call : Call) (hi : w.pc t = .idle)
    (hh : w.breaker.state ≠ .halfOpen) : Sound (w.beforeCall t call) := by
  have hf : w.lock.holder = none := by
    rw [eq_none_iff_forall_ne_some]
    exact fun u hu => hh (h.holder u hu).1
  have hg : ∀ (u : T) (pc : Pc), pc ≠ .waiting → Function.update w.pc t pc u ≠ .waiting := by
    intro u pc hpc
    by_cases hu : u = t
    · subst hu
      simpa using hpc
    · simpa [hu] using h.gate u
  rcases w.breaker.maybeHalfOpen_cases w.clock with hb | ⟨openedAt, hs, -, -, hb⟩
  · cases hs : w.breaker.state with
    | halfOpen => exact absurd hs hh
    | closed =>
      simp only [World.beforeCall, hb, hs]
      exact ⟨h.queue, fun u => hg u _ (by nofun), by simp [World.letThrough, World.setPc, hf],
        by simp [World.letThrough, World.setPc, hs], by simp [World.letThrough, World.setPc, hs]⟩
    | opened =>
      simp only [World.beforeCall, hb, hs]
      exact ⟨h.queue, fun u => hg u _ (by nofun), by simp [World.finish, World.setPc, hf],
        by simp [World.finish, World.setPc, hs], fun _ => h.opened hs⟩
  · -- the first call after the open period is the probe
    simp only [World.beforeCall, hb, hf, h.queue, and_self, if_true]
    refine ⟨rfl, fun u => hg u _ (by nofun), ?_, by simp [World.letThrough, World.setPc],
      by simp [World.letThrough, World.setPc]⟩
    intro u hu
    obtain rfl : t = u := by simpa [World.letThrough, World.setPc] using hu
    exact ⟨rfl, by simp [Pc.underWay]⟩

lemma Sound.setPc {t : T} {pc : Pc} (hpc : pc ≠ .waiting)
    (hh : w.lock.holder = some t → pc.underWay = true) : Sound (w.setPc t pc) := by
  refine ⟨h.queue, fun u => ?_, fun u hu => ⟨(h.holder u hu).1, ?_⟩, h.probe, h.opened⟩
  · by_cases hu : u = t
    · subst hu
      simpa using hpc
    · rw [w.setPc_of_ne t hu]
      exact h.gate u
  · by_cases hut : u = t
    · subst hut
      simpa using hh hu
    · rw [w.setPc_of_ne t hut]
      exact (h.holder u hu).2

lemma Sound.recordSuccess : Sound w.recordSuccess := by
  have hl : w.recordSuccess.lock.holder = none := by
    by_cases hh : w.breaker.state = .halfOpen
    · simp [World.recordSuccess, hh]
    rw [eq_none_iff_forall_ne_some]
    intro u hu
    simp only [World.recordSuccess, hh, if_false] at hu
    exact hh (h.holder u hu).1
  have hq : w.recordSuccess.lock.waiters = [] := by
    simp only [World.recordSuccess]
    split <;> exact h.queue
  exact ⟨hq, h.gate, by simp [hl], by simp [World.recordSuccess, CircuitBreaker.recordSuccess],
    by simp [World.recordSuccess, CircuitBreaker.recordSuccess]⟩

lemma Sound.recordFailure (error : String) : Sound (w.recordFailure error) := by
  cases hst : w.breaker.state with
  | halfOpen =>
    simp only [World.recordFailure, hst]
    exact ⟨h.queue, h.gate, by simp, by simp [CircuitBreaker.recordFailure, hst],
      by simp [CircuitBreaker.recordFailure, hst]⟩
  | opened =>
    simp only [World.recordFailure, hst]
    refine ⟨h.queue, h.gate, fun u hu => ?_, by simp [CircuitBreaker.recordFailure, hst], fun _ => ?_⟩
    · exact absurd (h.holder u hu).1 (by simp [hst])
    · simpa [CircuitBreaker.recordFailure, hst] using h.opened hst
  | closed =>
    have hh : (w.breaker.recordFailure w.clock error).state ≠ .halfOpen := by
      simp only [CircuitBreaker.recordFailure, hst]
      split <;> simp
    have ho : (w.breaker.recordFailure w.clock error).state = .opened →
        (w.breaker.recordFailure w.clock error).openedAt ≠ none := by
      simp only [CircuitBreaker.recordFailure, hst]
      split <;> simp
    simp only [World.recordFailure, hst]
    refine ⟨h.queue, h.gate, fun u hu => ?_, fun hs => absurd hs hh, ho⟩
    exact absurd (h.holder u hu).1 (by simp [hst])

lemma Sound.recordSuccess_free (t : T) : w.recordSuccess.lock.holder ≠ some t := by
  intro hh
  have := h.recordSuccess.holder t hh
  simp [World.recordSuccess, CircuitBreaker.recordSuccess] at this

lemma Sound.recordFailure_free (error : String) (t : T) : (w.recordFailure error).lock.holder ≠ some t := by
  intro hh
  have hha := ((h.recordFailure error).holder t hh).1
  cases hs : w.breaker.state <;>
    simp only [recordFailure_breaker, CircuitBreaker.recordFailure, hs] at hha
  · split at hha <;> simp_all
  · simp_all
  · simp_all

lemma Sound.step (hord : Orderly calls w e) (hstep : w.step calls e = some w') : Sound w' := by
  cases effect_of_step hstep with
  | start t hi => exact h.beforeCall t (calls t) hi (hord.1 rfl)
  | grant t rest hpc | leave t hpc => exact absurd hpc (h.gate t)
  | success t ending => exact h.recordSuccess.setPc (by nofun) fun hu => absurd hu (h.recordSuccess_free t)
  | failure t error ending =>
    exact (h.recordFailure error).setPc (by nofun) fun hu => absurd hu (h.recordFailure_free error t)
  | drop t ending hw he hd => exact h.setPc (by nofun) fun hu => absurd hu (hord.holder_ne hd)
  | backOff t attempts | wake t attempts => exact h.setPc (by nofun) fun _ => rfl
  | pass time => exact ⟨h.queue, h.gate, h.holder, h.probe, h.opened⟩
  | reset => exact ⟨rfl, h.gate, by simp, by simp [CircuitBreaker.reset], by simp [CircuitBreaker.reset]⟩

end

section

variable (hstep : w.step calls e = some w')
include hstep

lemma pc_of_step {t : T} (ht : e.task ≠ some t) : w'.pc t = w.pc t := by
  have hne : ∀ u, e.task = some u → t ≠ u := fun u hu htu => ht (htu ▸ hu)
  cases effect_of_step hstep with
  | start u =>
    have hu := hne u rfl
    simp only [World.beforeCall]
    split
    · exact finish_of_ne _ _ hu
    · exact letThrough_of_ne _ _ hu
    · split
      · exact letThrough_of_ne _ _ hu
      · exact setPc_of_ne _ _ hu
  | grant u => exact letThrough_of_ne _ _ (hne u rfl)
  | success u ending hw he | drop u ending hw he => exact finish_of_ne _ _ (hne u he)
  | failure u error ending hw he =>
    rw [finish_of_ne _ _ (hne u he), recordFailure_pc]
  | backOff u attempts hw he => exact setPc_of_ne _ _ (hne u he)
  | wake u => exact setPc_of_ne _ _ (hne u rfl)
  | leave u => exact finish_of_ne _ _ (hne u rfl)
  | pass time | reset => rfl

lemma breaker_of_step (hok : e.failure = false) :
    w'.breaker.state = .closed ∨ (∀ t, e ≠ .start t) ∧ w'.breaker = w.breaker ∨
      ∃ t, e = .start t ∧ w'.breaker = w.breaker.maybeHalfOpen w.clock := by
  cases effect_of_step hstep with
  | start t =>
    refine .inr (.inr ⟨t, rfl, ?_⟩)
    simp only [World.beforeCall]
    split
    · rfl
    · rfl
    · split <;> rfl
  | success t | reset => exact .inl rfl
  | failure t error ending hw he hf | backOff t attempts hw he hf => simp [hok] at hf
  | drop t ending hw he hd =>
    refine .inr (.inl ⟨?_, rfl⟩)
    rintro u rfl
    cases hd
  | _ => exact .inr (.inl ⟨by nofun, rfl⟩)

lemma closed_of_step (hok : e.failure = false) (h : w.breaker.state = .closed) : w'.breaker.state = .closed := by
  rcases breaker_of_step hstep hok with hc | ⟨-, hb⟩ | ⟨t, -, hb⟩
  · exact hc
  · rw [hb]
    exact h
  rcases w.breaker.maybeHalfOpen_cases w.clock with hs | ⟨openedAt, ho, -⟩
  · rw [hb, hs]
    exact h
  · rw [h] at ho
    cases ho

omit hstep in
/-- Without failures a probe goes on until it closes the breaker, and all it can do
before is to wake up. -/
lemma probe_of_step (hs : Sound w) (hord : Orderly calls w e) (hstep : w.step calls e = some w')
    (hok : e.failure = false) {t : T} (ht : w.lock.holder = some t) :
    w'.breaker.state = .closed ∨ w'.lock.holder = some t ∧
      (e.task = some t → ∃ attempts, w.pc t = .sleeping attempts ∧ w'.pc t = .running (attempts + 1)) := by
  obtain ⟨hh, hw⟩ := hs.holder t ht
  cases effect_of_step hstep with
  | start u => exact absurd hh (hord.1 rfl)
  | grant u rest hpc | leave u hpc => exact absurd hpc (hs.gate u)
  | success u | reset => exact .inl rfl
  | failure u error ending hw he hf | backOff u attempts hw he hf => simp [hok] at hf
  | drop u ending hu he hd =>
    refine .inr ⟨ht, fun hta => ?_⟩
    obtain rfl : u = t := some.inj (he.symm.trans hta)
    exact absurd ht (hord.holder_ne hd)
  | wake u attempts hu =>
    refine .inr ⟨ht, fun hta => ?_⟩
    obtain rfl : u = t := some.inj hta
    exact ⟨attempts, hu, w.setPc_self u _⟩
  | pass time => exact .inr ⟨ht, by nofun⟩

lemma clock_le_of_step : w.clock ≤ w'.clock := by
  cases effect_of_step hstep with
  | start t =>
    simp only [World.beforeCall]
    split
    · exact le_rfl
    · exact le_rfl
    · split <;> exact le_rfl
  | failure t error ending => exact (w.recordFailure_clock error).ge
  | pass time => exact Nat.le_add_right _ _
  | _ => exact le_rfl

end

end Wedge

/-! ### Recovery -/

section Recovery

variable {calls : T → Call} {start : World T} (ρ : Run (World.step calls) start)

/-- Every operation and every sleep ends, and the head of the queue of a free lock
runs. -/
structure Fair : Prop where
  ends : ∀ n t, ((ρ.state n).pc t).underWay = true → ∃ m, n ≤ m ∧ (ρ.event m).task = some t
  grants : ∀ n t, (∀ m, n ≤ m → (ρ.state m).pc t = .waiting ∧ (ρ.state m).lock.holder = none ∧
    (ρ.state m).lock.waiters.head? = some t) → ∃ m, n ≤ m ∧ (ρ.event m).task = some t

/-- Time passes and calls keep coming. -/
structure Busy : Prop where
  time : ∀ time, ∃ n, time ≤ (ρ.state n).clock
  calls : ∀ n, ∃ m, n ≤ m ∧ ∃ t, ρ.event m = .start t

/-- Every `before_call` returns or raises, the lock is free whenever no probe is under
way, and once all operations succeed the breaker becomes and stays closed. -/
structure NeverWedges : Prop where
  gate : ∀ n t, (ρ.state n).pc t = .waiting → ∃ m, n ≤ m ∧ (ρ.state m).pc t ≠ .waiting
  lock : ∀ n t, (ρ.state n).lock.holder = some t → ((ρ.state n).pc t).underWay = true
  recovers : Busy ρ → ∀ since, (∀ n, since ≤ n → (ρ.event n).failure = false) →
    ∃ m, ∀ n, m ≤ n → (ρ.state n).breaker.state = .closed

lemma clock_mono {n m : ℕ} (h : n ≤ m) : (ρ.state n).clock ≤ (ρ.state m).clock := by
  induction m, h using Nat.le_induction with
  | base => exact le_rfl
  | succ m _ ih => exact ih.trans (clock_le_of_step (ρ.succ m))

variable {ρ}

variable {since : ℕ} (hsound : ∀ n, Sound (ρ.state n)) (hord : ∀ n, Orderly calls (ρ.state n) (ρ.event n))
  (hok : ∀ n, since ≤ n → (ρ.event n).failure = false)

include hsound hord hok

lemma closed_of_probe (hf : Fair ρ) {n : ℕ} (hn : since ≤ n) {t : T} (ht : (ρ.state n).lock.holder = some t) :
    ∃ m, since ≤ m ∧ (ρ.state m).breaker.state = .closed := by
  by_contra hne
  push Not at hne
  have hstep : ∀ m, n ≤ m → (ρ.state m).lock.holder = some t → (ρ.state (m + 1)).lock.holder = some t ∧
      ((ρ.event m).task = some t → ∃ attempts, (ρ.state m).pc t = .sleeping attempts ∧
        (ρ.state (m + 1)).pc t = .running (attempts + 1)) := by
    intro m hm hmt
    exact (probe_of_step (hsound m) (hord m) (ρ.succ m) (hok m (hn.trans hm)) hmt).resolve_left
      (hne (m + 1) (by omega))
  have hh : ∀ m, n ≤ m → (ρ.state m).lock.holder = some t := by
    intro m hm
    exact ρ.lasts (I := fun w => w.lock.holder = some t) ht (fun k hk hkt => (hstep k hk hkt).1) hm
  -- the probe's next event can only be that it wakes up, and then it has no next event
  obtain ⟨m, hm, hta⟩ := hf.ends n t ((hsound n).holder t ht).2
  obtain ⟨attempts, -, hru⟩ := (hstep m hm (hh m hm)).2 hta
  have hr : ∀ k, m + 1 ≤ k → (ρ.state k).pc t = .running (attempts + 1) := by
    intro k hk
    refine ρ.lasts (I := fun w => w.pc t = .running (attempts + 1)) hru (fun k hk hkt => ?_) hk
    rw [pc_of_step (ρ.succ k), hkt]
    intro hta
    obtain ⟨attempts', hs, -⟩ := (hstep k (by omega) (hh k (by omega))).2 hta
    simp [hkt] at hs
  obtain ⟨k, hk, hta⟩ := hf.ends (m + 1) t (by rw [hru]; rfl)
  obtain ⟨attempts', hs, -⟩ := (hstep k (by omega) (hh k (by omega))).2 hta
  simp [hr k hk] at hs

lemma probe_or_closed (hbu : Busy ρ) :
    ∃ m, since ≤ m ∧ ((ρ.state m).breaker.state = .closed ∨ ∃ t, (ρ.state m).lock.holder = some t) := by
  by_contra hnever
  push Not at hnever
  have ho : ∀ m, since ≤ m → (ρ.state m).breaker.state = .opened := by
    intro m hm
    obtain ⟨hc, hho⟩ := hnever m hm
    cases hs : (ρ.state m).breaker.state with
    | opened => rfl
    | closed => exact absurd hs hc
    | halfOpen =>
      obtain ⟨t, ht⟩ := ne_none_iff_exists'.1 ((hsound m).probe hs)
      exact absurd ht (hho t)
  obtain ⟨openedAt, hop⟩ := ne_none_iff_exists'.1 ((hsound since).opened (ho since le_rfl))
  have hsa : ∀ m, since ≤ m → (ρ.state m).breaker = (ρ.state since).breaker := by
    intro m hm
    refine ρ.lasts (I := fun w => w.breaker = (ρ.state since).breaker) rfl (fun k hk hkb => ?_) hm
    rcases breaker_of_step (ρ.succ k) (hok k hk) with hc | ⟨-, hb⟩ | ⟨t, -, hb⟩
    · exact absurd hc (hnever (k + 1) (by omega)).1
    · rw [hb, hkb]
    rcases (ρ.state k).breaker.maybeHalfOpen_cases (ρ.state k).clock with hstay | ⟨_, -, -, -, hh⟩
    · rw [hb, hstay, hkb]
    · have := ho (k + 1) (by omega)
      simp [hb, hh] at this
  obtain ⟨n, hn⟩ := hbu.time (openedAt + (ρ.state since).breaker.openDuration)
  obtain ⟨m, hm, t, hst⟩ := hbu.calls (max n since)
  have hcl := hn.trans (clock_mono ρ (le_of_max_le_left hm))
  have hsi := le_of_max_le_right hm
  -- this call comes after the open period
  have hh : ((ρ.state m).breaker.maybeHalfOpen (ρ.state m).clock).state = .halfOpen := by
    simp [CircuitBreaker.maybeHalfOpen, hsa m hsi, hop, ho since le_rfl, hcl]
  rcases breaker_of_step (ρ.succ m) (hok m hsi) with hc | ⟨hne, -⟩ | ⟨_, -, hb⟩
  · exact (hnever (m + 1) (by omega)).1 hc
  · exact hne t hst
  · have := ho (m + 1) (by omega)
    simp [hb, hh] at this

lemma closed_for_good (hf : Fair ρ) (hb : Busy ρ) : ∃ m, ∀ n, m ≤ n → (ρ.state n).breaker.state = .closed := by
  have hcl : ∃ m, since ≤ m ∧ (ρ.state m).breaker.state = .closed := by
    obtain ⟨m, hm, hc | ⟨t, ht⟩⟩ := probe_or_closed hsound hord hok hb
    · exact ⟨m, hm, hc⟩
    · exact closed_of_probe hsound hord hok hf hm ht
  obtain ⟨m, hm, hc⟩ := hcl
  refine ⟨m, fun n hn => ?_⟩
  exact ρ.lasts (I := fun w => w.breaker.state = .closed) hc
    (fun k hk hkc => closed_of_step (ρ.succ k) (hok k (hm.trans hk)) hkc) hn

end Recovery

lemma Sound.initial (name : String) (failureThreshold openDuration : ℕ) :
    Sound (World.initial T name failureThreshold openDuration) :=
  ⟨rfl, by nofun, by simp [World.initial], by simp [World.initial], by simp [World.initial]⟩

/-- If no call comes while the breaker is half-open and the call that holds the lock
always records how it ended, the breaker never wedges. -/
theorem neverWedges_of_orderly {calls : T → Call} {name : String} {failureThreshold openDuration : ℕ}
    (ρ : Run (World.step calls) (World.initial T name failureThreshold openDuration)) (hfair : Fair ρ)
    (hord : ∀ n, Orderly calls (ρ.state n) (ρ.event n)) : NeverWedges ρ := by
  have hsound := ρ.invariant (Sound.initial name failureThreshold openDuration) (fun _ _ _ h hord => h.step hord) hord
  refine ⟨fun n t hw => absurd hw ((hsound n).gate t), fun n t ht => ((hsound n).holder t ht).2, ?_⟩
  intro hb since hok
  exact closed_for_good hsound hord hok hfair hb

/-- A run after whose events no call is under way and the lock is held is fair. -/
lemma Fair.of_settled {start : World T} {ρ : Run (World.step calls) start} {since : ℕ}
    (he : ∀ n, since ≤ n → ∀ t, ((ρ.state n).pc t).underWay = false)
    (hg : ∀ n, since ≤ n → ∀ t, ¬ ((ρ.state n).pc t = .waiting ∧ (ρ.state n).lock.holder = none)) : Fair ρ := by
  refine ⟨fun n t hwa => ?_, fun n t hgr => ?_⟩
  · by_contra hn
    push Not at hn
    have hs := ρ.lasts (I := fun w => w.pc t = (ρ.state n).pc t) rfl
      (fun m hm hmt => (pc_of_step (ρ.succ m) (hn m hm)).trans hmt) (le_max_left n since)
    have hd := he (max n since) (le_max_right n since) t
    simp [hs, hwa] at hd
  · obtain ⟨hw, hf, -⟩ := hgr (max n since) (le_max_left n since)
    exact absurd ⟨hw, hf⟩ (hg _ (le_max_right n since) t)

/-- Five mutating requests in turn fail to connect, and the breaker opens. -/
def outage : List (Event (Fin 7)) :=
  [0, 1, 2, 3, 4].flatMap fun t => [.start t, .attempted t (.error (.connection "ConnectError" "refused"))]

/-- The lock is held by a request that has ended, and another waits for it. -/
def Wedged (w : World (Fin 7)) : Prop :=
  w.lock.holder = some 5 ∧ w.pc 6 = .waiting ∧ ∀ t, (w.pc t).underWay = false

/-- After the open period, the probe is a request that LND answers with a 409. -/
def conflict : List (Event (Fin 7)) :=
  outage ++ [.pass 30000000, .start 5,
    .attempted 5 (.error (.httpStatus 409 "payment is in transition" "409 Conflict")), .start 6]

/-- A request waits while the probe fails, and then it is run. -/
def stampede : List (Event (Fin 7)) :=
  outage ++ [.pass 30000000, .start 5, .start 6, .attempted 5 (.error (.connection "ConnectError" "refused")), .grant 6]

lemma pass_one (w : World (Fin 7)) :
    w.step (fun _ => .mutating) (.pass 1) = some { w with clock := w.clock + 1 } := rfl

lemma conflict_wedges : ∃ w, conflict.foldlM (fun w e => if true then World.step (fun _ => .mutating) w e else none)
      (World.initial (Fin 7) "lnd" 5 30000000) = some w ∧ Wedged w := by
  refine ⟨_, rfl, rfl, rfl, ?_⟩
  decide

theorem lnd_breaker_wedges :
    ∃ ρ : Run (World.step fun _ => .mutating) (World.initial (Fin 7) "lnd" 5 30000000), Fair ρ ∧ ¬ NeverWedges ρ := by
  obtain ⟨w, hw, hwe⟩ := conflict_wedges
  obtain ⟨ρ, hi, -⟩ := Run.exists_of_events (fun _ _ => true) Wedged (fun w hw => ⟨_, pass_one w, hw⟩) hw hwe
  have hs : ∀ n, 14 ≤ n → Wedged (ρ.state n) := fun n hn => (hi n hn).1
  refine ⟨ρ, .of_settled (fun n hn => (hs n hn).2.2) (fun n hn t h => ?_), fun h => ?_⟩
  · simp [(hs n hn).1] at h
  · have hwa := h.lock 14 5 (hs 14 le_rfl).1
    simp [(hs 14 le_rfl).2.2] at hwa

def comeback : List (Event (Fin 7)) := outage ++ [.pass 30000000, .start 5, .attempted 5 (.ok "")]

def Quiet (w : World (Fin 7)) : Prop := ∀ t, (w.pc t).underWay = false ∧ w.pc t ≠ .waiting

lemma comeback_quiet : ∃ w, comeback.foldlM
      (fun w e => if decide (Orderly (fun _ => .mutating) w e) then World.step (fun _ => .mutating) w e else none)
      (World.initial (Fin 7) "lnd" 5 30000000) = some w ∧ Quiet w := by
  refine ⟨_, rfl, ?_⟩
  unfold Quiet
  decide

theorem lnd_breaker_comes_back :
    ∃ ρ : Run (World.step fun _ => .mutating) (World.initial (Fin 7) "lnd" 5 30000000),
      Fair ρ ∧ (∀ n, Orderly (fun _ => .mutating) (ρ.state n) (ρ.event n)) ∧ NeverWedges ρ := by
  obtain ⟨w, hw, hqu⟩ := comeback_quiet
  obtain ⟨ρ, hi, hc⟩ := Run.exists_of_events _ Quiet (fun w hw => ⟨_, pass_one w, hw⟩) hw hqu
  have hq : ∀ n, 13 ≤ n → Quiet (ρ.state n) := fun n hn => (hi n hn).1
  have hf : Fair ρ :=
    .of_settled (fun n hn t => (hq n hn t).1) fun n hn t h => (hq n hn t).2 h.1
  have hord : ∀ n, Orderly (fun _ => .mutating) (ρ.state n) (ρ.event n) := by
    intro n
    by_cases hn : n < 13
    · exact of_decide_eq_true (hc n hn).2
    · rw [(hi n (not_lt.1 hn)).2]
      exact ⟨by nofun, by simp [unrecorded]⟩
  exact ⟨ρ, hf, hord, neverWedges_of_orderly ρ hf hord⟩

end AgentWallet.Resilience
