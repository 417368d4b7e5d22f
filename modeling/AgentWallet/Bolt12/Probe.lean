import AgentWallet.Bolt12.Breaker
import AgentWallet.Bolt12.Responder
/-!
# The breaker within one mint

A mint looks each of its introduction nodes up several times: when its paths are
sorted, when the deprioritised ones are counted, and when the responder asks
whether all of them are open. The first lookup after a cooldown claims the probe
of the node, so the later ones of the same mint find the node open.
-/

namespace AgentWallet.Bolt12.Breaker

open AgentWallet.Lib List

/-- A mint under way: the registry, and how often it has read the clock. -/
structure Mint where
  registry : PathBreakerRegistry
  reads : ℕ

section

variable {P : Type} (settings : Settings) (clock : ℕ → ℚ) (introOf : P → String)

/-- `is_open` without a time: the clock is read for a node that is tracked. -/
def Mint.isOpen (m : Mint) (intro : String) : Bool × Mint :=
  if intro = "" ∨ m.registry.get? intro = none then (false, m)
  else
    let (effectivelyOpen, registry) := m.registry.isOpen intro (clock m.reads)
    (effectivelyOpen, ⟨registry, m.reads + 1⟩)

def classify : List P → Mint → List P × List P × Mint
  | [], m => ([], [], m)
  | p :: ps, m =>
    let (isOpen, m) := m.isOpen clock (introOf p)
    let (healthy, deprioritised, m) := classify ps m
    if isOpen then (healthy, p :: deprioritised, m) else (p :: healthy, deprioritised, m)

def applyBreakerFilter (paths : List P) (m : Mint) : List P × Mint :=
  if !settings.enabled then (paths, m)
  else
    let (healthy, deprioritised, m) := classify clock introOf paths m
    (healthy ++ deprioritised, m)

def countOpen : List P → Mint → ℕ × Mint
  | [], m => (0, m)
  | p :: ps, m =>
    let (isOpen, m) := m.isOpen clock (introOf p)
    let (deprio, m) := countOpen ps m
    (if isOpen then deprio + 1 else deprio, m)

structure PostprocessResult (P : Type) where
  paths : List P
  deprioritisedByBreaker : ℕ

/-- The pipeline's last stage, after the stages `select` that work on the paths
alone. -/
def postprocessBlindedPaths (select : List P → List P) (rawPaths : List P) (m : Mint) : PostprocessResult P × Mint :=
  let paths := select rawPaths
  if settings.enabled then
    let (paths, m) := applyBreakerFilter settings clock introOf paths m
    let (deprio, m) := countOpen clock introOf paths m
    (⟨paths, deprio⟩, m)
  else (⟨paths, 0⟩, m)

/-- `all(breaker.is_open(…) for p in paths)`, which stops at the first `False`. -/
def allOpen : List P → Mint → Bool × Mint
  | [], m => (true, m)
  | p :: ps, m =>
    let (isOpen, m) := m.isOpen clock (introOf p)
    if isOpen then allOpen ps m else (false, m)

def allIntrosOpen (paths : List P) (m : Mint) : Bool × Mint :=
  if paths.isEmpty then (false, m)
  else if !settings.enabled then (false, m)
  else allOpen clock introOf paths m

/-- If the breaker stage finds some path healthy, then `all_intros_open` on the
paths it returns is `False`. -/
def KeepsProbe (select : List P → List P) (rawPaths : List P) (registry : PathBreakerRegistry) : Prop :=
  let m : Mint := ⟨registry, 0⟩
  let done := postprocessBlindedPaths settings clock introOf select rawPaths m
  settings.enabled = true → (classify clock introOf (select rawPaths) m).1 ≠ [] →
    (allIntrosOpen settings clock introOf done.1.paths done.2).1 = false

end

variable (clock : ℕ → ℚ) (r : PathBreakerRegistry) (intro : String)

/-- The node is not named, not tracked or closed. -/
def Healthy : Prop :=
  intro = "" ∨ ∀ st, r.get? intro = some st → st.state = .closed

/-- The next lookup, at `now`, gets the node's probe. -/
def Ready (now : ℚ) : Prop :=
  intro ≠ "" ∧ ∃ st, r.get? intro = some st ∧
    (st.state = .open ∧ st.cooldownS ≤ now - st.openedAt ∨
      st.state = .halfOpen ∧ st.probationaryProbeClaimed = false)

/-- Every reading of the mint's clock is on the same side of the end of the node's cooldown. -/
def SameStatus : Prop :=
  ∀ st, r.get? intro = some st → ∀ i j,
    (st.cooldownS ≤ clock i - st.openedAt ↔ st.cooldownS ≤ clock j - st.openedAt)

/-- No lookup gets the node's probe. -/
def Barred : Prop :=
  intro ≠ "" ∧ ∃ st, r.get? intro = some st ∧
    (st.state = .open ∧ (∀ i, clock i - st.openedAt < st.cooldownS) ∨
      st.state = .halfOpen ∧ st.probationaryProbeClaimed = true)

/-- The next lookup gets the node's probe, or none does. -/
def Suspect : Prop :=
  Barred clock r intro ∨ ∀ i, Ready r intro (clock i)

/-! ## One lookup of a mint -/

variable {m : Mint}

section

variable {clock : ℕ → ℚ} {m : Mint} {intro other : String}

lemma Mint.isOpen_of_known {st : BreakerState} (hne : intro ≠ "") (h : m.registry.get? intro = some st) :
    m.isOpen clock intro =
      ((st.isOpen (clock m.reads)).1, ⟨m.registry.set intro (st.isOpen (clock m.reads)).2, m.reads + 1⟩) := by
  rw [Mint.isOpen, if_neg (by simp [hne, h]), PathBreakerRegistry.isOpen_of_known hne h]

lemma Mint.get?_isOpen_of_ne (h : other ≠ intro) :
    (m.isOpen clock intro).2.registry.get? other = m.registry.get? other := by
  rw [Mint.isOpen]
  split
  · rfl
  · exact PathBreakerRegistry.get?_isOpen_of_ne h

lemma Mint.isOpen_of_healthy (h : Healthy m.registry intro) :
    (m.isOpen clock intro).1 = false ∧ Healthy (m.isOpen clock intro).2.registry intro := by
  by_cases hs : intro = "" ∨ m.registry.get? intro = none
  · rw [Mint.isOpen, if_pos hs]
    exact ⟨rfl, h⟩
  obtain ⟨hne, hk⟩ := not_or.1 hs
  obtain ⟨st, hst⟩ := Option.ne_none_iff_exists'.1 hk
  have hc : st.state = .closed := h.resolve_left hne st hst
  rw [Mint.isOpen_of_known hne hst, BreakerState.isOpen_of_closed hc]
  refine ⟨rfl, .inr fun st' hst' => ?_⟩
  rw [Dict.get?_set_self] at hst'
  exact Option.some.inj hst' ▸ hc

lemma Mint.isOpen_of_barred (h : Barred clock m.registry intro) :
    (m.isOpen clock intro).1 = true ∧ Barred clock (m.isOpen clock intro).2.registry intro := by
  obtain ⟨hne, st, hst, hb⟩ := h
  have ho : st.isOpen (clock m.reads) = (true, st) := by
    rcases hb with ⟨hs, hco⟩ | ⟨hs, hc⟩
    · exact BreakerState.isOpen_of_cooling hs (hco m.reads)
    · exact BreakerState.isOpen_of_claimed hs hc
  rw [Mint.isOpen_of_known hne hst, ho]
  exact ⟨rfl, hne, st, Dict.get?_set_self _ _ _, hb⟩

lemma Mint.isOpen_of_ready (h : ∀ i, Ready m.registry intro (clock i)) :
    (m.isOpen clock intro).1 = false ∧ Barred clock (m.isOpen clock intro).2.registry intro := by
  obtain ⟨hne, st, hst, hr⟩ := h m.reads
  rw [Mint.isOpen_of_known hne hst]
  rcases hr with ⟨hs, ho⟩ | ⟨hs, hc⟩
  · rw [BreakerState.isOpen_of_elapsed hs ho]
    exact ⟨rfl, hne, _, Dict.get?_set_self _ _ _, .inr ⟨rfl, rfl⟩⟩
  · rw [BreakerState.isOpen_of_unclaimed hs hc]
    exact ⟨rfl, hne, _, Dict.get?_set_self _ _ _, .inr ⟨hs, rfl⟩⟩

lemma Suspect.barred (h : Suspect clock m.registry intro) : Barred clock (m.isOpen clock intro).2.registry intro := by
  rcases h with h | h
  · exact (Mint.isOpen_of_barred h).2
  · exact (Mint.isOpen_of_ready h).2

/-! ### What every lookup keeps -/

lemma Healthy.isOpen (h : Healthy m.registry other) : Healthy (m.isOpen clock intro).2.registry other := by
  by_cases heq : other = intro
  · subst heq
    exact (Mint.isOpen_of_healthy h).2
  · rw [Healthy, Mint.get?_isOpen_of_ne heq]
    exact h

lemma Barred.isOpen (h : Barred clock m.registry other) : Barred clock (m.isOpen clock intro).2.registry other := by
  by_cases heq : other = intro
  · subst heq
    exact (Mint.isOpen_of_barred h).2
  · rw [Barred, Mint.get?_isOpen_of_ne heq]
    exact h

lemma Suspect.isOpen (h : Suspect clock m.registry other) : Suspect clock (m.isOpen clock intro).2.registry other := by
  by_cases heq : other = intro
  · subst heq
    exact .inl h.barred
  · rw [Suspect, Barred]
    simp only [Ready, Mint.get?_isOpen_of_ne heq]
    exact h

end

/-! ## The loops -/

section

variable {P : Type} {clock : ℕ → ℚ} {introOf : P → String} {Q : Mint → Prop}

lemma classify_keeps (hQ : ∀ m intro, Q m → Q (m.isOpen clock intro).2) (paths : List P) (h : Q m) :
    Q (classify clock introOf paths m).2.2 := by
  induction paths generalizing m with
  | nil => exact h
  | cons p ps ih =>
    rw [classify]
    dsimp only
    split <;> exact ih (hQ _ _ h)

lemma countOpen_keeps (hQ : ∀ m intro, Q m → Q (m.isOpen clock intro).2) (paths : List P) (h : Q m) :
    Q (countOpen clock introOf paths m).2 := by
  induction paths generalizing m with
  | nil => exact h
  | cons p ps ih => exact ih (hQ _ _ h)

lemma classify_perm (paths : List P) (m : Mint) :
    ((classify clock introOf paths m).1 ++ (classify clock introOf paths m).2.1).Perm paths := by
  induction paths generalizing m with
  | nil => exact List.Perm.nil
  | cons p ps ih =>
    rw [classify]
    dsimp only
    split
    · exact perm_middle.trans ((ih _).cons p)
    · exact (ih _).cons p

variable {paths : List P} {p : P}

lemma classify_of_barred (h : ∀ p ∈ paths, Barred clock m.registry (introOf p)) :
    (classify clock introOf paths m).1 = [] := by
  induction paths generalizing m with
  | nil => rfl
  | cons p ps ih =>
    rw [classify]
    dsimp only
    rw [if_pos (Mint.isOpen_of_barred (h p mem_cons_self)).1]
    exact ih fun q hq => (h q (mem_cons_of_mem p hq)).isOpen

lemma classify_of_ready (hp : p ∈ paths) (h : ∀ i, Ready m.registry (introOf p) (clock i)) :
    (classify clock introOf paths m).1 ≠ [] := by
  induction paths generalizing m with
  | nil => cases hp
  | cons q qs ih =>
    rw [classify]
    dsimp only
    split
    case isFalse => simp
    rename_i ho
    -- `q` was found open, so its node is another one.
    have hne : introOf p ≠ introOf q := by
      intro heq
      rw [heq] at h
      rw [(Mint.isOpen_of_ready h).1] at ho
      cases ho
    have hm : p ∈ qs := (mem_cons.1 hp).resolve_left fun heq => hne (congrArg introOf heq)
    apply ih hm
    intro i
    rw [Ready, Mint.get?_isOpen_of_ne hne]
    exact h i

lemma classify_barred (hp : p ∈ paths) (h : Suspect clock m.registry (introOf p)) :
    Barred clock (classify clock introOf paths m).2.2.registry (introOf p) := by
  induction paths generalizing m with
  | nil => cases hp
  | cons q qs ih =>
    have ha : Barred clock (classify clock introOf qs (m.isOpen clock (introOf q)).2).2.2.registry (introOf p) := by
      rcases mem_cons.1 hp with rfl | hp
      · exact classify_keeps (Q := fun m => Barred clock m.registry (introOf p)) (fun _ _ hb => hb.isOpen) qs h.barred
      · exact ih hp h.isOpen
    rw [classify]
    dsimp only
    split <;> exact ha

lemma allOpen_of_barred (h : ∀ p ∈ paths, Barred clock m.registry (introOf p)) :
    (allOpen clock introOf paths m).1 = true := by
  induction paths generalizing m with
  | nil => rfl
  | cons p ps ih =>
    rw [allOpen]
    dsimp only
    rw [if_pos (Mint.isOpen_of_barred (h p mem_cons_self)).1]
    exact ih fun q hq => (h q (mem_cons_of_mem p hq)).isOpen

lemma allOpen_of_healthy (hp : p ∈ paths) (h : Healthy m.registry (introOf p)) :
    (allOpen clock introOf paths m).1 = false := by
  induction paths generalizing m with
  | nil => cases hp
  | cons q qs ih =>
    rw [allOpen]
    dsimp only
    split
    case isFalse => rfl
    rename_i ho
    rcases mem_cons.1 hp with rfl | hp
    · rw [(Mint.isOpen_of_healthy h).1] at ho
      cases ho
    · exact ih hp h.isOpen

end

/-! ## A whole mint -/

section

variable {clock : ℕ → ℚ} {r : PathBreakerRegistry} {intro : String}

/-- On one side of the end of the cooldown a node keeps its status for the whole mint. -/
lemma SameStatus.ready (hsa : SameStatus clock r intro) {j : ℕ} (h : Ready r intro (clock j)) (i : ℕ) :
    Ready r intro (clock i) := by
  obtain ⟨hne, st, hst, ⟨hs, ho⟩ | hu⟩ := h
  · exact ⟨hne, st, hst, .inl ⟨hs, (hsa st hst j i).1 ho⟩⟩
  · exact ⟨hne, st, hst, .inr hu⟩

lemma SameStatus.suspect (hsa : SameStatus clock r intro) (h : ¬ Healthy r intro) : Suspect clock r intro := by
  obtain ⟨hne, ho⟩ := not_or.1 h
  push Not at ho
  obtain ⟨st, hst, hstate⟩ := ho
  cases hs : st.state with
  | closed => exact absurd hs hstate
  | «open» =>
    by_cases hov : st.cooldownS ≤ clock 0 - st.openedAt
    · exact .inr (hsa.ready ⟨hne, st, hst, .inl ⟨hs, hov⟩⟩)
    · exact .inl ⟨hne, st, hst, .inl ⟨hs, fun i => not_le.1 fun hi => hov ((hsa st hst i 0).1 hi)⟩⟩
  | halfOpen =>
    cases hc : st.probationaryProbeClaimed with
    | true => exact .inl ⟨hne, st, hst, .inr ⟨hs, hc⟩⟩
    | false => exact .inr fun _ => ⟨hne, st, hst, .inr ⟨hs, hc⟩⟩

end

section

variable {P : Type} {settings : Settings} {clock : ℕ → ℚ} {introOf : P → String} {select : List P → List P}
  {rawPaths : List P} {m : Mint}

lemma postprocess_perm (settings : Settings) (clock : ℕ → ℚ) (introOf : P → String) (select : List P → List P)
    (rawPaths : List P) (m : Mint) :
    (postprocessBlindedPaths settings clock introOf select rawPaths m).1.paths.Perm (select rawPaths) := by
  cases he : settings.enabled with
  | true =>
    simp only [postprocessBlindedPaths, applyBreakerFilter, he, if_true, Bool.not_true, Bool.false_eq_true,
      if_false]
    exact classify_perm (select rawPaths) m
  | false =>
    simp only [postprocessBlindedPaths, he, Bool.false_eq_true, if_false]
    exact List.Perm.refl _

lemma postprocess_keeps (he : settings.enabled = true) {Q : Mint → Prop}
    (hQ : ∀ m intro, Q m → Q (m.isOpen clock intro).2) (h : Q (classify clock introOf (select rawPaths) m).2.2) :
    Q (postprocessBlindedPaths settings clock introOf select rawPaths m).2 := by
  simp only [postprocessBlindedPaths, applyBreakerFilter, he, if_true, Bool.not_true, Bool.false_eq_true,
    if_false]
  exact countOpen_keeps hQ _ h

lemma allIntrosOpen_of_healthy (he : settings.enabled = true) {p : P} (hp : p ∈ select rawPaths)
    (h : Healthy m.registry (introOf p)) :
    let done := postprocessBlindedPaths settings clock introOf select rawPaths m
    (allIntrosOpen settings clock introOf done.1.paths done.2).1 = false := by
  intro done
  have hme : p ∈ done.1.paths := (postprocess_perm settings clock introOf select rawPaths m).mem_iff.2 hp
  have hk : Healthy done.2.registry (introOf p) :=
    postprocess_keeps he (Q := fun m => Healthy m.registry (introOf p)) (fun _ _ hm => hm.isOpen)
      (classify_keeps (Q := fun m => Healthy m.registry (introOf p)) (fun _ _ hm => hm.isOpen) _ h)
  rw [allIntrosOpen, if_neg (by simp [ne_nil_of_mem hme]), if_neg (by simp [he])]
  exact allOpen_of_healthy hme hk

lemma allIntrosOpen_of_suspect (he : settings.enabled = true) (hne : select rawPaths ≠ [])
    (h : ∀ p ∈ select rawPaths, Suspect clock m.registry (introOf p)) :
    let done := postprocessBlindedPaths settings clock introOf select rawPaths m
    (allIntrosOpen settings clock introOf done.1.paths done.2).1 = true := by
  intro done
  have hpe : done.1.paths.Perm (select rawPaths) := postprocess_perm settings clock introOf select rawPaths m
  have hn : done.1.paths ≠ [] := fun hni => hne (nil_perm.1 (hni ▸ hpe))
  rw [allIntrosOpen, if_neg (by simp [hn]), if_neg (by simp [he])]
  apply allOpen_of_barred
  intro p hp
  have hme := hpe.mem_iff.1 hp
  exact postprocess_keeps he (Q := fun m => Barred clock m.registry (introOf p)) (fun _ _ hm => hm.isOpen)
    (classify_barred hme (h p hme))

/-- A mint keeps the probe it claims exactly when, besides a node that is due for
a probe, one of its nodes is healthy. -/
theorem keepsProbe_iff (settings : Settings) (clock : ℕ → ℚ) (introOf : P → String) (select : List P → List P)
    (rawPaths : List P) (registry : PathBreakerRegistry)
    (hsame : ∀ p ∈ select rawPaths, SameStatus clock registry (introOf p)) :
    KeepsProbe settings clock introOf select rawPaths registry ↔
      (settings.enabled = true → (∃ p ∈ select rawPaths, Ready registry (introOf p) (clock 0)) →
        ∃ p ∈ select rawPaths, Healthy registry (introOf p)) := by
  constructor
  · rintro hk he ⟨p, hp, hr⟩
    by_contra hn
    push Not at hn
    have hf := classify_of_ready (m := ⟨registry, 0⟩) hp ((hsame p hp).ready hr)
    have hfa := hk he hf
    have ht := allIntrosOpen_of_suspect (m := ⟨registry, 0⟩) he (ne_nil_of_mem hp)
      fun q hq => (hsame q hq).suspect (hn q hq)
    exact absurd (hfa.symm.trans ht) (by simp)
  · intro hc he hf
    -- Some node was not barred: it is healthy, or due and so another one is.
    have hhe : ∃ p ∈ select rawPaths, Healthy registry (introOf p) := by
      by_contra hn
      push Not at hn
      apply hf
      apply classify_of_barred
      intro p hp
      rcases (hsame p hp).suspect (hn p hp) with hb | hr
      · exact hb
      · obtain ⟨q, hq, hh⟩ := hc he ⟨p, hp, hr 0⟩
        exact absurd hh (hn q hq)
    obtain ⟨p, hp, hh⟩ := hhe
    exact allIntrosOpen_of_healthy he hp hh

end

def due : PathBreakerRegistry :=
  Dict.empty.set "02ab" { state := .open, consecutiveFailures := 2, openedAt := 0, cooldownS := 60 }

lemma due_sameStatus (intro : String) : SameStatus (fun _ => 100) due intro := fun _ _ _ _ => Iff.rfl

/-- With a node that is not tracked among the paths, the probe of the other is kept. -/
theorem keepsProbe_with_healthy : KeepsProbe {} (fun _ => 100) id id ["02ab", "03cd"] due := by
  apply (keepsProbe_iff {} (fun _ => 100) id id ["02ab", "03cd"] due fun p _ => due_sameStatus p).2
  intro _ _
  have hn : due.get? "03cd" = none := by decide
  exact ⟨"03cd", by simp, .inr fun st hst => absurd (hn.symm.trans hst) (by simp)⟩

/-- A mint whose only node is due for its probe claims the probe, and then finds
all of its nodes open. -/
theorem probe_discarded : (∀ p ∈ ["02ab"], SameStatus (fun _ => 100) due p) ∧
    (classify (fun _ => 100) id ["02ab"] ⟨due, 0⟩).1 = ["02ab"] ∧
    ¬ KeepsProbe {} (fun _ => 100) id id ["02ab"] due := by
  have hf : (classify (fun _ => 100) id ["02ab"] ⟨due, 0⟩).1 = ["02ab"] := by decide +kernel
  refine ⟨fun p _ => due_sameStatus p, hf, fun hk => ?_⟩
  have hfa := hk rfl (by rw [id_eq, hf]; simp)
  revert hfa
  decide +kernel

/-! ## What the answer is for -/

end AgentWallet.Bolt12.Breaker
