import AgentWallet.Bolt12.Probe
/-!
# Diverse paths

`select_diverse_paths` keeps the cheapest path of each introduction node and of
these the cheapest `max_count`. The breaker stage after it only reorders.
-/

namespace AgentWallet.Bolt12.Breaker

open AgentWallet.Lib List

section Select

variable {κ P : Type} [DecidableEq κ] (key : P → κ) (fee : P → ℤ)

/-- The loop body of `select_diverse_paths`. -/
def keepCheapest (byIntro : Dict κ P) (p : P) : Dict κ P :=
  match byIntro.get? (key p) with
  | none => byIntro.set (key p) p
  | some existing => if fee p < fee existing then byIntro.set (key p) p else byIntro

/-- `l[:n]` -/
def upTo (n : ℤ) (l : List P) : List P := l.take (if n < 0 then l.length + n else n).toNat

lemma upTo_eq (n : ℤ) (l : List P) : ∃ k : ℕ, upTo n l = l.take k ∧ (0 ≤ n → k ≤ n) :=
  ⟨_, rfl, fun h => by rw [if_neg (not_lt.2 h), Int.toNat_of_nonneg h]⟩

/-- One cheapest path for each key, and no key left out is cheaper. -/
structure Optimal (maxCount : ℤ) (paths chosen : List P) : Prop where
  count : 0 ≤ maxCount → chosen.length ≤ maxCount
  mem : ∀ p ∈ chosen, p ∈ paths
  diverse : chosen.Pairwise fun p q => key p ≠ key q
  cheapest : ∀ p ∈ chosen, ∀ q ∈ paths, key q = key p → fee p ≤ fee q
  sorted : chosen.Pairwise fun p q => fee p ≤ fee q
  rest : ∀ q ∈ paths, (∀ p ∈ chosen, key p ≠ key q) → ∀ p ∈ chosen, fee p ≤ fee q

/-- The dictionary has the cheapest path seen for each key. -/
structure Cheapest (seen : List P) (d : Dict κ P) : Prop where
  entry : ∀ k p, d.get? k = some p → p ∈ seen ∧ key p = k ∧ ∀ q ∈ seen, key q = k → fee p ≤ fee q
  covers : ∀ q ∈ seen, ∃ p, d.get? (key q) = some p

variable {key fee} {seen : List P} {d : Dict κ P}

lemma Cheapest.step (h : Cheapest key fee seen d) (p : P) :
    Cheapest key fee (seen ++ [p]) (keepCheapest key fee d p) := by
  obtain ⟨he, hc⟩ := h
  cases hd : d.get? (key p) with
  | none =>
    simp only [keepCheapest, hd]
    constructor <;> grind [Dict.get?_set_self, Dict.get?_set_of_ne]
  | some existing =>
    simp only [keepCheapest, hd]
    split <;> constructor <;> grind [Dict.get?_set_self, Dict.get?_set_of_ne]

lemma Cheapest.run (paths : List P) : Cheapest key fee paths (paths.foldl (keepCheapest key fee) .empty) := by
  induction paths using List.reverseRecOn with
  | nil => exact ⟨fun k p h => (by cases h), by simp⟩
  | append_singleton paths p ih =>
    rw [foldl_append]
    exact ih.step p

variable (key fee) in
/-- The selection: the values of the dictionary, sorted and cut. -/
def select (maxCount : ℤ) (paths : List P) : List P :=
  upTo maxCount (((paths.foldl (keepCheapest key fee) .empty).entries.map Prod.snd).mergeSort fun p q => fee p ≤ fee q)

lemma optimal_select (maxCount : ℤ) (paths : List P) :
    Optimal key fee maxCount paths (select key fee maxCount paths) := by
  have hr : Cheapest key fee paths _ := .run paths
  unfold select
  set d := paths.foldl (keepCheapest key fee) .empty
  set sorted := (d.entries.map Prod.snd).mergeSort fun p q => fee p ≤ fee q
  have hpe : sorted.Perm (d.entries.map Prod.snd) := mergeSort_perm ..
  have hen : ∀ e ∈ d.entries, e.2 ∈ paths ∧ key e.2 = e.1 ∧ ∀ q ∈ paths, key q = e.1 → fee e.2 ≤ fee q :=
    fun e he => hr.entry e.1 e.2 (Dict.get?_of_mem he)
  have hme : ∀ p ∈ sorted, p ∈ paths ∧ ∀ q ∈ paths, key q = key p → fee p ≤ fee q := by
    intro p hp
    obtain ⟨e, he, rfl⟩ := mem_map.1 (hpe.mem_iff.1 hp)
    obtain ⟨hin, hke, hm⟩ := hen e he
    exact ⟨hin, hke ▸ hm⟩
  have hle : sorted.Pairwise fun p q => fee p ≤ fee q := by
    have hs : sorted.Pairwise fun p q => decide (fee p ≤ fee q) = true :=
      pairwise_mergeSort (fun a b c => by simpa using le_trans) (fun a b => by simpa using le_total _ _) _
    simpa using hs
  obtain ⟨n, hn, hc⟩ := upTo_eq maxCount sorted
  rw [hn]
  refine ⟨fun h => ?_, fun p hp => (hme p (mem_of_mem_take hp)).1, ?_,
    fun p hp => (hme p (mem_of_mem_take hp)).2, hle.sublist (take_sublist ..), fun q hq hl p hp => ?_⟩
  · have := length_take_le n sorted
    have := hc h
    omega
  · have hk : (d.entries.map Prod.snd).map key = d.entries.map Prod.fst := by
      rw [map_map]
      exact map_congr_left fun e he => (hen e he).2.1
    have hno : (sorted.map key).Nodup := (hpe.map key).nodup_iff.2 (hk ▸ d.nodup)
    exact (pairwise_map.1 hno).sublist (take_sublist ..)
  · -- the cheapest path with the key of `q` comes after the cut
    obtain ⟨_, hg⟩ := hr.covers q hq
    obtain ⟨e, he, hke⟩ := mem_map.1 (Dict.mem_keys_of_get? hg)
    obtain ⟨-, ho, hm⟩ := hen e he
    have hla : e.2 ∈ sorted.drop n := by
      have hin := hpe.mem_iff.2 (mem_map_of_mem he)
      rw [← take_append_drop n sorted, mem_append] at hin
      exact hin.resolve_left fun h => hl e.2 h (ho.trans hke)
    rw [← take_append_drop n sorted] at hle
    exact ((pairwise_append.1 hle).2.2 p hp e.2 hla).trans (hm q hq hke.symm)

end Select

/-! ## The two stages -/

/-- What the selection reads of a path, which is a reference to a dictionary. -/
structure PathFields (P : Type) where
  introPubkeyHex : P → String
  baseFeeMsat : P → ℤ
  proportionalFeeRate : P → ℤ

section Stages

variable {P : Type} [DecidableEq P] (fields : PathFields P) (amountMsat : ℤ)

def pathEffectiveFeeMsat (p : P) : ℤ := fields.baseFeeMsat p + amountMsat * fields.proportionalFeeRate p / 1000000

/-- The introduction node or, if that is not known, the path's identity. -/
def introKey (p : P) : String ⊕ P := if fields.introPubkeyHex p = "" then .inr p else .inl (fields.introPubkeyHex p)

def selectDiversePaths (paths : List P) (maxCount : ℤ) : List P :=
  select (introKey fields) (pathEffectiveFeeMsat fields amountMsat) maxCount paths

def verdicts (clock : ℕ → ℚ) (introOf : P → String) : List P → Mint → List Bool
  | [], _ => []
  | p :: ps, m => (m.isOpen clock (introOf p)).1 :: verdicts clock introOf ps (m.isOpen clock (introOf p)).2

def group (paths : List P) (answers : List Bool) (isOpen : Bool) : List P :=
  ((paths.zip answers).filter (·.2 == isOpen)).map Prod.fst

lemma classify_eq (clock : ℕ → ℚ) (introOf : P → String) (paths : List P) (m : Mint) :
    (classify clock introOf paths m).1 = group paths (verdicts clock introOf paths m) false ∧
      (classify clock introOf paths m).2.1 = group paths (verdicts clock introOf paths m) true := by
  induction paths generalizing m with
  | nil => exact ⟨rfl, rfl⟩
  | cons p ps ih =>
    obtain ⟨hh, ho⟩ := ih (m.isOpen clock (introOf p)).2
    cases hp : (m.isOpen clock (introOf p)).1 <;> simp_all [classify, verdicts, group]

theorem selection_optimal (paths : List P) (maxCount : ℤ) (settings : Settings) (clock : ℕ → ℚ) (m : Mint) :
    Optimal (introKey fields) (pathEffectiveFeeMsat fields amountMsat) maxCount paths
      (selectDiversePaths fields amountMsat paths maxCount) ∧
    (applyBreakerFilter settings clock fields.introPubkeyHex paths m).1.Perm paths ∧
    (applyBreakerFilter settings clock fields.introPubkeyHex paths m).1 =
      if settings.enabled then
        group paths (verdicts clock fields.introPubkeyHex paths m) false ++
          group paths (verdicts clock fields.introPubkeyHex paths m) true
      else paths := by
  refine ⟨optimal_select maxCount paths, ?_⟩
  unfold applyBreakerFilter
  cases settings.enabled with
  | false => exact ⟨.refl _, rfl⟩
  | true =>
    obtain ⟨hh, ho⟩ := classify_eq clock fields.introPubkeyHex paths m
    exact ⟨classify_perm paths m, congrArg₂ _ hh ho⟩

end Stages

/-- Of two paths, a count of −1 leaves one: the slice cuts from the end. -/
theorem selection_negative_count : ∃ (fields : PathFields Bool) (paths : List Bool),
    (selectDiversePaths fields 0 paths (-1)).length = 1 ∧
      ¬ ((selectDiversePaths fields 0 paths (-1)).length : ℤ) ≤ -1 := by
  refine ⟨⟨fun _ => "", fun _ => 0, fun _ => 0⟩, [false, true], ?_, by omega⟩
  rw [selectDiversePaths, select, upTo, length_take, length_mergeSort]
  decide

end AgentWallet.Bolt12.Breaker
