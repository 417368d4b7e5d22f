import Mathlib.Algebra.Order.BigOperators.Group.List
import Mathlib.Algebra.Order.Ring.Int
import Mathlib.Data.List.Dedup
import Mathlib.Data.List.Sort
import Mathlib.Data.String.Basic
/-!
# How a self-payment is routed (`self_pay_routing.py`)

A self-payment leaves through one channel that holds enough, or is split over several. In
automatic mode the number of channels alone decides for a split: if the split is then not
viable, a channel that could pay alone is not tried. And a split has two parts at
least, also if the settings allow one.
-/

namespace AgentWallet.Anonymize.SelfPayRouting

open List

structure Channel where
  active : Bool
  remotePubkey : String
  chanId : String
  localBalance : ℤ

inductive SelfPayRoute
  | pinned (outgoingChanId : String)
  | split (maxParts : ℤ) (ignoredPairs : List (String × String))

def activeUnblocked (channels : List Channel) (avoid : List String) : List Channel :=
  channels.filter fun ch => ch.active ∧ ch.remotePubkey ∉ avoid ∧ ch.chanId ≠ ""

def eligiblePinnedChannels (channels : List Channel) (amount : ℤ) (avoid : List String) : List Channel :=
  (activeUnblocked channels avoid).filter fun ch => amount ≤ ch.localBalance

def buildIgnoredPairs (ourPubkey : String) (avoid : List String) : List (String × String) :=
  if ourPubkey = "" then []
  else ((avoid.dedup.insertionSort (· ≤ ·)).filter fun p => p ≠ "" ∧ p ≠ ourPubkey).map (ourPubkey, ·)

/-- The loop of `choose_pinned_channel`, at the number that was drawn. If it runs out, it is the last. -/
def choosePinnedChannel (pick : ℤ) : List Channel → ℤ → Option String
  | [], _ => none
  | [ch], _ => some ch.chanId
  | ch :: rest, upto =>
    let upto := upto + max 1 ch.localBalance
    if pick < upto then some ch.chanId else choosePinnedChannel pick rest upto

inductive ModePolicy
  | pinned | split | auto
deriving DecidableEq

structure Request where
  channels : List Channel
  ourPubkey : String
  avoidPubkeys : List String
  binAmountSat : ℤ
  modePolicy : ModePolicy
  splitMinChannels : ℤ
  mppMaxParts : ℤ

namespace Request

variable (r : Request)

def avoid : List String := r.avoidPubkeys.filter (· ≠ "")

def active : List Channel := activeUnblocked r.channels r.avoid

def split : Except String SelfPayRoute :=
  if (r.active.map Channel.localBalance).sum < r.binAmountSat ∨ r.active.length < 2 then
    .error "insufficient_local_balance_for_self_pay"
  else if r.avoid ≠ [] ∧ buildIgnoredPairs r.ourPubkey r.avoid = [] then .error "self_pay_blocklist_unenforceable"
  else .ok (.split (max 2 (min r.mppMaxParts r.active.length)) (buildIgnoredPairs r.ourPubkey r.avoid))

def WantSplit : Prop := r.modePolicy = .split ∨ r.modePolicy = .auto ∧ r.splitMinChannels ≤ r.active.length

instance : Decidable r.WantSplit := inferInstanceAs (Decidable (_ ∨ _))

/-- `resolve_self_pay_route` -/
def resolve (pick : ℤ) : Except String SelfPayRoute :=
  if r.binAmountSat ≤ 0 then .error "bin_amount_sat must be positive"
  else if r.WantSplit then r.split
  else
    match choosePinnedChannel pick (eligiblePinnedChannels r.channels r.binAmountSat r.avoid) 0 with
    | some chanId => .ok (.pinned chanId)
    | none => r.split

/-! ## What is viable -/

/-- The channel can pay alone. -/
def Sources (ch : Channel) : Prop :=
  ch ∈ r.channels ∧ r.binAmountSat ≤ ch.localBalance ∧ ch.active = true ∧ ch.remotePubkey ∉ r.avoid ∧ ch.chanId ≠ ""

def PinViable : Prop := 0 < r.binAmountSat ∧ ∃ ch, r.Sources ch

def SplitViable : Prop :=
  0 < r.binAmountSat ∧ r.binAmountSat ≤ (r.active.map Channel.localBalance).sum ∧ 2 ≤ r.active.length ∧
    (r.avoid = [] ∨ r.ourPubkey ≠ "" ∧ ∃ p ∈ r.avoid, p ≠ r.ourPubkey)

/-- What is wanted of a plan. A pinned payment may fall back to a split. -/
def Sound : SelfPayRoute → Prop
  | .pinned chanId => ∃ ch, r.Sources ch ∧ ch.chanId = chanId
  | .split parts pairs => 2 ≤ parts ∧ parts ≤ min r.mppMaxParts r.active.length ∧
      ∀ p ∈ r.avoid, p ≠ r.ourPubkey → (r.ourPubkey, p) ∈ pairs

def Correct : Prop := ∀ pick, ((∃ route, r.resolve pick = .ok route) ↔
  r.SplitViable ∨ r.modePolicy ≠ .split ∧ r.PinViable) ∧ ∀ route, r.resolve pick = .ok route → r.Sound route

variable {r : Request} {pick upto : ℤ}

lemma choose_mem {l : List Channel} {chanId : String} (h : choosePinnedChannel pick l upto = some chanId) :
    ∃ ch ∈ l, ch.chanId = chanId := by
  fun_induction choosePinnedChannel pick l upto <;> grind

lemma choose_none {l : List Channel} : choosePinnedChannel pick l upto = none ↔ l = [] := by
  fun_induction choosePinnedChannel pick l upto <;> grind

lemma mem_eligible {ch : Channel} :
    ch ∈ eligiblePinnedChannels r.channels r.binAmountSat r.avoid ↔ r.Sources ch := by
  simp [eligiblePinnedChannels, activeUnblocked, Sources]

lemma mem_pairs {q : String × String} : q ∈ buildIgnoredPairs r.ourPubkey r.avoid ↔
    r.ourPubkey ≠ "" ∧ ∃ p ∈ r.avoid, p ≠ r.ourPubkey ∧ q = (r.ourPubkey, p) := by
  have hne : ∀ p ∈ r.avoid, p ≠ "" := fun p hp => of_decide_eq_true (mem_filter.1 hp).2
  unfold buildIgnoredPairs
  split
  · simp [*]
  · simp only [mem_map, mem_filter, mem_insertionSort, mem_dedup, decide_eq_true_eq]
    grind

lemma split_ok (hpos : 0 < r.binAmountSat) {route : SelfPayRoute} : r.split = .ok route ↔ r.SplitViable ∧
    route = .split (max 2 (min r.mppMaxParts r.active.length)) (buildIgnoredPairs r.ourPubkey r.avoid) := by
  have hpairs : buildIgnoredPairs r.ourPubkey r.avoid = [] ↔
      ¬ (r.ourPubkey ≠ "" ∧ ∃ p ∈ r.avoid, p ≠ r.ourPubkey) := by
    simp only [eq_nil_iff_forall_not_mem, mem_pairs]
    grind
  unfold Request.split SplitViable
  grind

lemma resolve_split (hpos : 0 < r.binAmountSat) (h : r.WantSplit ∨ ¬ r.PinViable) : r.resolve pick = r.split := by
  rw [resolve, if_neg (not_le.2 hpos)]
  split
  · rfl
  · have hnil : eligiblePinnedChannels r.channels r.binAmountSat r.avoid = [] :=
      eq_nil_iff_forall_not_mem.2 fun ch hch =>
        (h.resolve_left (by assumption)) ⟨hpos, ch, mem_eligible.1 hch⟩
    rw [hnil]
    rfl

lemma resolve_pinned (pick : ℤ) (hw : ¬ r.WantSplit) (hpin : r.PinViable) :
    ∃ ch, r.Sources ch ∧ r.resolve pick = .ok (.pinned ch.chanId) := by
  obtain ⟨hpos, ch, hch⟩ := hpin
  rw [resolve, if_neg (not_le.2 hpos), if_neg hw]
  cases hc : choosePinnedChannel pick (eligiblePinnedChannels r.channels r.binAmountSat r.avoid) 0 with
  | none => exact absurd (mem_eligible.2 hch) (choose_none.1 hc ▸ not_mem_nil)
  | some chanId =>
    obtain ⟨ch, hm, rfl⟩ := choose_mem hc
    exact ⟨ch, mem_eligible.1 hm, rfl⟩

/-- A plan is returned whenever one is viable, and is sound, if and only if automatic mode does not insist on a split
that is not viable where one channel would do, and a split that is due may have two parts. -/
theorem correct_iff (r : Request) : r.Correct ↔
    (r.WantSplit → r.modePolicy ≠ .split → r.PinViable → r.SplitViable) ∧
    (r.SplitViable → r.WantSplit ∨ ¬ r.PinViable → 2 ≤ r.mppMaxParts) := by
  constructor
  · intro h
    refine ⟨fun hw hs hp => ?_, fun hs hw => ?_⟩
    · obtain ⟨route, hroute⟩ := (h 0).1.2 (.inr ⟨hs, hp⟩)
      rw [resolve_split hp.1 (.inl hw)] at hroute
      exact ((split_ok hp.1).1 hroute).1
    · have := (h 0).2 _ ((resolve_split hs.1 hw).trans ((split_ok hs.1).2 ⟨hs, rfl⟩))
      have := this.2.1
      omega
  · rintro ⟨hv, hparts⟩ pick
    by_cases hpos : 0 < r.binAmountSat
    · by_cases hw : r.WantSplit ∨ ¬ r.PinViable
      · simp only [resolve_split hpos hw, split_ok hpos]
        refine ⟨⟨fun ⟨_, hs, _⟩ => .inl hs, fun h => ⟨_, h.elim id fun ⟨hs, hp⟩ => ?_, rfl⟩⟩, ?_⟩
        · exact hv (hw.resolve_right (not_not.2 hp)) hs hp
        · rintro route ⟨hs, rfl⟩
          have := hparts hs hw
          obtain ⟨-, -, hlen, hours⟩ := hs
          refine ⟨by omega, by omega, fun p hp hne => mem_pairs.2 ⟨?_, p, hp, hne, rfl⟩⟩
          exact (hours.resolve_left (ne_nil_of_mem hp)).1
      · obtain ⟨hw, hp⟩ := not_or.1 hw
        obtain ⟨ch, hch, heq⟩ := resolve_pinned pick hw (not_not.1 hp)
        rw [heq]
        refine ⟨⟨fun _ => .inr ⟨fun hs => hw (.inl hs), not_not.1 hp⟩, fun _ => ⟨_, rfl⟩⟩, ?_⟩
        rintro _ ⟨⟩
        exact ⟨ch, hch, rfl⟩
    · simp [resolve, not_lt.1 hpos, SplitViable, PinViable, hpos]

end Request

def wealthy (n : String) : Channel := ⟨true, n, n, 1000⟩

/-- A peer is blocked and our own key is unknown: no split, but either channel could pay alone. -/
theorem split_masks_pin : ¬ Request.Correct ⟨[wealthy "1", wealthy "2"], "", ["3"], 500, .auto, 2, 4⟩ := by
  intro h
  obtain ⟨route, hroute⟩ := (h 0).1.2 (.inr ⟨by decide, by decide, wealthy "1", mem_cons_self, by decide, rfl,
    by decide, by decide⟩)
  cases hroute

end AgentWallet.Anonymize.SelfPayRouting
