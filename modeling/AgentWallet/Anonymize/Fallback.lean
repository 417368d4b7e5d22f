import AgentWallet.Anonymize.Legs
/-!
# The splitting of the exit payment (`k_decrement`)

A payment that failed is tried again with fewer parts. The hop asks the settings of the
moment for the mode and for the floor, `get_frozen_fallback_mode` is not called: a session
that was created as strict takes a second decrement once the setting is legacy, and a floor
above what was requested does not stop the first attempt.
-/

namespace AgentWallet.Anonymize.Session

open List

def Settings.floor (s : Settings) : ℕ := max 1 s.mppKMinExecuted

/-- The `max_parts` of the next attempt. -/
def Row.maxParts (row : Row) : ℕ := row.reverse.kLastAttempted.getD row.setup.mppK

/-- The number of parts is kept or one less, as far as the settings let it. -/
def Tries (s : Settings) (row row' : Row) : Prop :=
  row'.maxParts = row.maxParts ∧ row'.reverse.kDecrementsUsed = row.reverse.kDecrementsUsed ∨
    row'.maxParts = row.maxParts - 1 ∧ row'.reverse.kDecrementsUsed = row.reverse.kDecrementsUsed + 1 ∧
      s.floor ≤ row.maxParts - 1 ∧
      (s.mppFallbackMode = .legacy ∨ s.mppFallbackMode = .strict ∧ row.reverse.kDecrementsUsed < 1)

lemma Tries.of_funds {s : Settings} {row row' : Row} (h : row'.funds = row.funds) : Tries s row row' := by
  simp only [Row.funds, Prod.mk.injEq] at h
  exact .inl ⟨by rw [Row.maxParts, h.1, h.2.2.1]; rfl, by rw [h.2.2.1]⟩

lemma Tries.congr {s : Settings} {row r r' : Row} (h : Tries s row r) (hr : r'.funds = r.funds) : Tries s row r' := by
  simp only [Row.funds, Prod.mk.injEq] at hr
  simpa only [Tries, Row.maxParts, hr.1, hr.2.2.1] using h

lemma HopStep.tries {a : Answers} {row : Row} {memory : SwapState} {t : Tick} (h : HopStep a row memory t) (s : Settings) :
    Tries s row t.saved.1 ∧ (row.status ≠ .exiting → Tries s row t.row) := by
  cases h with
  | other h =>
    cases h
    case createsReverse hs _ => exact ⟨.inl ⟨rfl, rfl⟩, fun h => (h hs).elim⟩
    case decrements hs _ _ => exact ⟨.inl ⟨rfl, rfl⟩, fun h => (h hs).elim⟩
    all_goals exact ⟨.inl ⟨rfl, rfl⟩, fun _ => .inl ⟨rfl, rfl⟩⟩
  | @liquid t h =>
    obtain ⟨blob, heq⟩ := t.persist_eq
    rw [heq]
    cases h <;> exact ⟨.inl ⟨rfl, rfl⟩, fun _ => .inl ⟨rfl, rfl⟩⟩

lemma defaultHopStep_tries (s : Settings) (a : Answers) (row : Row) (events : List Event) (memory : SwapState) :
    Tries s row (defaultHopStep s a (Tick.load row events memory)).row := by
  by_cases he : row.status = .exiting
  case neg => exact ((defaultHopStep_step s a row events memory).tries s).2 he
  -- of the hops only the last two take a session that is exiting
  simp only [defaultHopStep]
  split
  case isTrue h => simp [Tick.load, he] at h
  split
  · simp only [executeBolt12PayHopStep]
    repeat' split
    all_goals exact .inl ⟨rfl, rfl⟩
  split
  case isTrue h => simp [Tick.load, he] at h
  split
  case isTrue h => simp [Tick.load, he] at h
  simp only [executeReverseHopStep, issueReverseSwap, pollAndClaim, pollLockup, payFailed]
  repeat' split
  all_goals first
    | exact .inl ⟨rfl, rfl⟩
    | exact .of_funds (funds_park row _)
    | next hs => exact .inr ⟨rfl, rfl, hs⟩

lemma step_tries (s : Settings) (w : World) (e : Act) : Tries s w.row (w.step s e).row := by
  cases e with
  | deposit | restart => exact .inl ⟨rfl, rfl⟩
  | pass now p => exact .of_funds ((funds_stamp ..).trans (funds_apply ..))
  | tick p a fate =>
    have hro := defaultHopStep_tries s a w.row w.events (w.memory p)
    have hs := ((defaultHopStep_step s a w.row w.events (w.memory p)).tries s).1
    simp only [World.step, World.ticked, runTick]
    generalize defaultHopStep s a (Tick.load w.row w.events (w.memory p)) = t at hro hs
    split
    case isTrue => exact .inl ⟨rfl, rfl⟩
    cases hr : t.raised <;> cases fate <;> simp only [World.finish, Tick.modify, hr, if_true]
    case false.committed => exact hro.congr ((funds_stamp ..).trans (funds_tickSession ..))
    all_goals exact hs

/-! ## Runs under changing settings -/

/-- The `max_parts` of each payment of the exit, with the floor at that time. -/
def attempts : World → List (Settings × Act) → List (ℕ × ℕ)
  | _, [] => []
  | w, (s, e) :: acts =>
    let sent := (w.step s e).moves.drop w.moves.length
    (sent.filter (·.call = .swapInvoice w.row.reverse.invoice)).map (fun _ => (w.row.maxParts, s.floor)) ++
      attempts (w.step s e) acts

/-- `frozen` is what the pipeline has as `reverse_payment_mpp_fallback_mode`. -/
def Bounded (frozen : FallbackMode) (w : World) (acts : List (Settings × Act)) : Prop :=
  (attempts w acts).Pairwise (fun p q => q.1 ≤ p.1) ∧ (∀ p ∈ attempts w acts, p.2 ≤ p.1) ∧
    (frozen = .strict → (acts.foldl (fun w act => w.step act.1 act.2) w).row.reverse.kDecrementsUsed ≤ 1)

/-- The floor starts at most at `bound` and does not rise, and a session that is frozen as
strict meets no legacy setting. -/
def Steady (frozen : FallbackMode) : ℕ → List (Settings × Act) → Prop
  | _, [] => True
  | bound, (s, _) :: acts =>
    s.floor ≤ bound ∧ (frozen = .strict → s.mppFallbackMode ≠ .legacy) ∧ Steady frozen s.floor acts

lemma Steady.bounded {frozen : FallbackMode} {w : World} {bound : ℕ} {acts : List (Settings × Act)}
    (h : Steady frozen bound acts) (hb : bound ≤ w.row.maxParts)
    (hu : frozen = .strict → w.row.reverse.kDecrementsUsed ≤ 1) :
    Bounded frozen w acts ∧ ∀ p ∈ attempts w acts, p.1 ≤ w.row.maxParts := by
  induction acts generalizing w bound with
  | nil => exact ⟨⟨.nil, nofun, hu⟩, nofun⟩
  | cons act acts ih =>
    obtain ⟨s, e⟩ := act
    obtain ⟨hfloor, hmo, h⟩ := h
    have hst := step_tries s w e
    have hle : (w.step s e).row.maxParts ≤ w.row.maxParts ∧ s.floor ≤ (w.step s e).row.maxParts := by
      unfold Tries at hst
      omega
    have hu' (hf : frozen = .strict) : (w.step s e).row.reverse.kDecrementsUsed ≤ 1 := by
      have := hu hf
      have := hmo hf
      grind [Tries]
    obtain ⟨⟨hs, hfl, he⟩, hm⟩ := ih h hle.2 hu'
    refine ⟨⟨pairwise_append.2 ⟨?_, hs, fun p hp q hq => ?_⟩, ?_, he⟩, ?_⟩
    · exact pairwise_map.2 (pairwise_of_forall fun _ _ => le_rfl)
    · obtain ⟨_, _, rfl⟩ := mem_map.1 hp
      exact (hm q hq).trans hle.1
    · exact forall_mem_append.2 ⟨forall_mem_map.2 fun _ _ => hfloor.trans hb, hfl⟩
    · exact forall_mem_append.2 ⟨forall_mem_map.2 fun _ _ => le_rfl, fun q hq => (hm q hq).trans hle.1⟩

theorem fallback_bounded {frozen : FallbackMode} {w : World} {acts : List (Settings × Act)} (hnew : w.row.reverse = {})
    (h : Steady frozen w.row.setup.mppK acts) : Bounded frozen w acts := by
  refine (h.bounded (le_of_eq ?_) fun _ => ?_).1
  · rw [Row.maxParts, hnew]
    rfl
  · rw [hnew]
    exact Nat.zero_le 1

def exiting : World := { row := { setup := { sourceKind := .lightningSelf, mppK := 4 }, status := .exiting } }

def issues : Act := .tick 0 { reverseOffer := some ("swap", "lnbc") } .committed

def failsToPay : Act := .tick 0 { sent := .error "Payment failed: FAILURE_REASON_NO_ROUTE" } .committed

theorem fallback_bounded_twice : Bounded .strict exiting [({}, issues), ({}, failsToPay), ({}, failsToPay)] :=
  fallback_bounded rfl (by simp [Steady, Settings.floor, exiting])

/-- After its decrement the session meets a legacy setting. -/
theorem strict_decrements_twice : ¬ Bounded .strict exiting
    [({}, issues), ({}, failsToPay), ({ mppFallbackMode := .legacy }, failsToPay)] :=
  fun h => absurd (h.2.2 rfl) (by decide +kernel)

end AgentWallet.Anonymize.Session
