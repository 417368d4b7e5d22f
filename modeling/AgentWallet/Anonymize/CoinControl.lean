import AgentWallet.Bolt12.Bech32
import AgentWallet.Lib.Text
import Mathlib.Data.List.Sort
import Mathlib.Data.Rat.Floor
/-!
# Funding a submarine lockup (`_build_and_broadcast_funding_tx`)

The adapter pays the lockup address of a submarine swap from LND's wallet. If the
wallet has a coin of about the right value, the transaction is pinned to it. Else the
lockup is paid by a consolidation with a decoy output, or by a plain send, and LND
picks the inputs.

Coins that carry a do-not-spend label are left out when a coin is picked. They are
not left out of what LND picks.
-/

namespace AgentWallet.Anonymize.CoinControl

open AgentWallet.Lib List Option

/-! ## Coins -/

structure Outpoint where
  txid : String
  vout : ℕ
deriving DecidableEq

/-- A coin as `list_unspent` gives it. -/
structure Utxo where
  outpoint : Outpoint
  amountSat : ℕ
  confirmations : ℕ
deriving DecidableEq

/-- A row of `utxo_label`. -/
structure LabelRow where
  outpoint : Outpoint
  label : String
deriving DecidableEq

def doNotSpendLabels : List String :=
  ["auto:anonymize-refund", "auto:anonymize-overpad", "auto:anonymize-decoy", "auto:anonymize-change"]

def isDoNotSpendLabel (label : String) : Bool :=
  label ≠ "" ∧ ∃ start ∈ doNotSpendLabels, start.toList <+: label.toList

def Utxo.key (u : Utxo) : Outpoint := { u.outpoint with txid := u.outpoint.txid.toLower }

/-- `label_by_outpoint.get(key, "")` -/
def labelOf (rows : List LabelRow) (key : Outpoint) : String :=
  ((rows.reverse.find? fun row => row.outpoint = key).map LabelRow.label).getD ""

def Locked (rows : List LabelRow) (u : Utxo) : Prop := isDoNotSpendLabel (labelOf rows u.key) = true

instance (rows : List LabelRow) (u : Utxo) : Decidable (Locked rows u) := inferInstanceAs (Decidable (_ = _))

/-! ## The selection of a coin -/

structure Settings where
  amountBins : List ℕ
  exactBinToleranceSat : ℕ := 50
  overpadResampleLimit : ℕ := 16

def distance (a b : ℕ) : ℕ := max a b - min a b

def collidesWithAnyBin (settings : Settings) (valueSat : ℕ) : Bool :=
  settings.amountBins.any fun b => distance valueSat b ≤ settings.exactBinToleranceSat

/-- `is_utxo_refused_as_anonymize_source`, for a coin that was confirmed ten minutes
before `now` for each of its confirmations. Times are in seconds, days are numbered. -/
def isUtxoRefused (settings : Settings) (now : ℤ) (featureDay : Option ℤ) (u : Utxo) : Bool :=
  match featureDay with
  | none => false
  | some day => collidesWithAnyBin settings u.amountSat ∧ day ≤ (now - 600 * u.confirmations) / 86400

def selectExactBinFunding (utxos : List Utxo) (binAmountSat maxEstimatedFeeSat toleranceSat : ℕ) : Option Utxo :=
  let target := binAmountSat + maxEstimatedFeeSat
  let confirmed := utxos.filter fun u => u.confirmations > 0 ∧ u.amountSat > 0
  let candidates := confirmed.insertionSort fun u v => distance u.amountSat target ≤ distance v.amountSat target
  candidates.find? fun u => distance u.amountSat target ≤ toleranceSat

/-! ## The adapter -/

/-- What the calls of the adapter come to, up to the request to LND. `utxos` and
`labels` are `none` if the listing or the query fails; `decoyAddress` is empty if LND
gives none. The others are what is drawn at random. -/
structure Answers where
  now : ℤ
  economy : Option ℚ
  utxos : Option (List Utxo)
  labels : Option (List LabelRow)
  featureDay : Option ℤ
  decoyAddress : String
  jitter : ℚ
  overPads : ℕ → ℕ
  decoyValueSat : ℕ

inductive Request
  | sendCoins (address : String) (amountSat : ℕ) (satPerVbyte : Option ℤ) (outpoints : Option (List Outpoint))
    (label : String)
  | sendOutputs (outputs : List (String × ℕ)) (satPerVbyte : Option ℤ) (label : String)

/-- How the adapter gets to its request: it raises, returns an error, or asks LND. -/
inductive Attempt
  | raises (error : String)
  | refuses (error : String)
  | sends (request : Request)

/-- `round` -/
def roundHalfEven (q : ℚ) : ℤ :=
  let fraction := q - ⌊q⌋
  if fraction < 1 / 2 then ⌊q⌋
  else if 1 / 2 < fraction then ⌊q⌋ + 1
  else if ⌊q⌋ % 2 = 0 then ⌊q⌋ else ⌊q⌋ + 1

def maxSaneFeerate : ℚ := 2000

def satPerVbyte (answers : Answers) : Option ℤ :=
  match answers.economy with
  | none => none
  | some economy =>
    if 0 < economy then some (max 1 (roundHalfEven (min (max 1 (economy * answers.jitter)) maxSaneFeerate))) else none

def maxEstimatedFeeSat : ℕ := 400

variable (settings : Settings) (answers : Answers) (lockupAddress : String) (amountSat : ℕ)

/-- The coins that may be picked. A failed label query counts as no labels. -/
def candidates : List Utxo :=
  (answers.utxos.getD []).filter fun u =>
    u.outpoint.txid ≠ "" ∧ ¬ Locked (answers.labels.getD []) u ∧
      ¬ isUtxoRefused settings answers.now answers.featureDay u

def collidesWithOtherBin (valueSat targetBin : ℕ) : Bool :=
  settings.amountBins.any fun b => b ≠ targetBin ∧ distance valueSat b ≤ settings.exactBinToleranceSat

/-- `sample_over_pad`, with the draws that are left. -/
def sampleOverPad (settings : Settings) (binAmountSat : ℕ) (overPads : ℕ → ℕ) : ℕ → Option ℕ
  | 0 => none
  | left + 1 =>
    let candidate := binAmountSat + maxEstimatedFeeSat + overPads left
    if collidesWithOtherBin settings candidate binAmountSat then sampleOverPad settings binAmountSat overPads left
    else some candidate

/-- `build_decoy_consolidation_outputs`: the value of the decoy output. -/
def buildDecoyConsolidationOutputs (binAmountSat : ℕ) : Except String ℕ :=
  if binAmountSat = 0 then .error "bin_amount_sat must be positive"
  else
    let cap := max 1 settings.overpadResampleLimit
    match sampleOverPad settings binAmountSat answers.overPads cap with
    | none => .error ("could not find a bin-clear over-pad value within " ++ toString cap ++ " samples")
    | some _ => .ok answers.decoyValueSat

/-- An output that `send_outputs` does not take. -/
def malformed (output : String × ℕ) : Bool := strip output.1.toList = [] ∨ output.2 = 0

def malformedText (output : String × ℕ) : String :=
  "malformed output: \x7b'address': " ++ Bolt12.Bech32.pyRepr output.1.toList ++ ", 'amount': " ++ toString output.2 ++
    "\x7d"

/-- `send_outputs`, up to the request. -/
def sendOutputs (outputs : List (String × ℕ)) (satPerVbyte : Option ℤ) (label : String) : Attempt :=
  match outputs.find? malformed with
  | some output => .refuses (malformedText output)
  | none => .sends (.sendOutputs outputs satPerVbyte label)

/-- The consolidation, or a plain send if there is no decoy address. -/
def sendUnpinned (sessionId : String) : Attempt :=
  if answers.decoyAddress = "" then
    .sends (.sendCoins lockupAddress amountSat (satPerVbyte answers) none ("anonymize-submarine-" ++ sessionId))
  else
    match buildDecoyConsolidationOutputs settings answers amountSat with
    | .error error => .raises error
    | .ok decoyValueSat =>
      sendOutputs [(lockupAddress, amountSat), (answers.decoyAddress, decoyValueSat)] (satPerVbyte answers)
        ("anonymize-submarine-consolidation-" ++ sessionId)

/-- `_build_and_broadcast_funding_tx`, up to the request to LND. -/
def buildAndBroadcastFundingTx (sessionId : String) : Attempt :=
  match selectExactBinFunding (candidates settings answers) amountSat maxEstimatedFeeSat
    settings.exactBinToleranceSat with
  | some u =>
    .sends (.sendCoins lockupAddress amountSat (satPerVbyte answers) (some [u.key])
      ("anonymize-submarine-" ++ sessionId))
  | none => sendUnpinned settings answers lockupAddress amountSat sessionId

inductive Answer
  | raised (text : String)
  | returned (txid : Option String) (error : Option String)

structure Funding where
  txid : String
  satPerVbyte : Option ℤ
  pinnedOutpoints : Option (List Outpoint)
  decoy : Option (String × ℕ)

def Request.funding (request : Request) : Answer → Except String Funding
  | .raised text => .error text
  | .returned _ (some "") | .returned none none =>
    match request with
    | .sendCoins _ _ _ _ _ => .error "send_coins returned no result"
    | .sendOutputs _ _ _ => .error "send_outputs returned no result"
  | .returned _ (some error) => .error error
  | .returned (some txid) none =>
    match request with
    | .sendCoins _ _ satPerVbyte outpoints _ => .ok ⟨txid, satPerVbyte, outpoints, none⟩
    | .sendOutputs outputs satPerVbyte _ => .ok ⟨txid, satPerVbyte, none, outputs.getLast?⟩

/-! ## What LND may spend -/

/-- The coins that the transaction of a request may spend: those it is pinned to, or
any. -/
def MaySpend (wallet : List Utxo) : Request → Utxo → Prop
  | .sendCoins _ _ _ (some outpoints) _, u => u ∈ wallet ∧ u.key ∈ outpoints
  | .sendCoins _ _ _ none _, u | .sendOutputs _ _ _, u => u ∈ wallet

/-- The answers of an adapter with this wallet and these labels, where the listing and
the label query may fail. -/
def Answers.about (answers : Answers) (wallet : List Utxo) (rows : List LabelRow) (listed labelled : Bool) : Answers :=
  { answers with utxos := if listed then some wallet else none, labels := if labelled then some rows else none }

/-! ## The coin that is picked -/

/-- The item of the list that is closest, the first one of several. -/
def First {α : Type} (d : α → ℕ) (l : List α) (u : α) : Prop :=
  ∃ before after, l = before ++ u :: after ∧ (∀ v ∈ before, d u < d v) ∧ ∀ v ∈ after, d u ≤ d v

lemma first_cons {α : Type} {d : α → ℕ} {a u : α} {l : List α} :
    First d (a :: l) u ↔ u = a ∧ (∀ v ∈ l, d a ≤ d v) ∨ d u < d a ∧ First d l u := by
  constructor
  · rintro ⟨before, after, hl, hb, ha⟩
    cases before with
    | nil =>
      cases hl
      exact .inl ⟨rfl, ha⟩
    | cons b before =>
      cases hl
      exact .inr ⟨hb a (by simp), before, after, rfl, fun v hv => hb v (by simp [hv]), ha⟩
  · rintro (⟨rfl, hle⟩ | ⟨hlt, before, after, rfl, hb, ha⟩)
    · exact ⟨[], l, rfl, by simp, hle⟩
    refine ⟨a :: before, after, rfl, fun v hv => ?_, ha⟩
    rcases mem_cons.1 hv with rfl | hv
    · exact hlt
    · exact hb v hv

lemma First.le {α : Type} {d : α → ℕ} {l : List α} {u v : α} (h : First d l u) (hv : v ∈ l) : d u ≤ d v := by
  obtain ⟨before, after, rfl, hb, ha⟩ := h
  rcases mem_append.1 hv with hv | hv
  · exact (hb v hv).le
  · rcases mem_cons.1 hv with rfl | hv
    · exact le_rfl
    · exact ha v hv

lemma First.mem {α : Type} {d : α → ℕ} {l : List α} {u : α} (h : First d l u) : u ∈ l := by
  obtain ⟨before, after, rfl, -⟩ := h
  simp

lemma head?_insertionSort {α : Type} {d : α → ℕ} {l : List α} {u : α} :
    (l.insertionSort fun a b => d a ≤ d b).head? = some u ↔ First d l u := by
  induction l generalizing u with
  | nil => simp [First]
  | cons a l ih =>
    rw [insertionSort_cons, first_cons]
    cases hs : l.insertionSort fun a b => d a ≤ d b with
    | nil =>
      obtain rfl : l = [] := length_eq_zero_iff.1 (by simpa using congrArg List.length hs)
      simp [First, eq_comm]
    | cons b rest =>
      have hf : First d l b := ih.1 (by rw [hs]; rfl)
      rw [orderedInsert_cons]
      by_cases hab : d a ≤ d b
      · rw [if_pos hab, head?_cons, some.injEq]
        constructor
        · rintro rfl
          exact .inl ⟨rfl, fun v hv => hab.trans (hf.le hv)⟩
        · rintro (⟨rfl, -⟩ | ⟨hlt, hu⟩)
          · rfl
          · exact absurd (hab.trans (hf.le hu.mem)) (not_le.2 hlt)
      · rw [if_neg hab, head?_cons, some.injEq]
        constructor
        · rintro rfl
          exact .inr ⟨not_le.1 hab, hf⟩
        · rintro (⟨rfl, hle⟩ | ⟨-, hu⟩)
          · exact absurd (hle b hf.mem) hab
          · simpa [hs] using ih.2 hu

lemma find?_le_of_sorted {α : Type} {d : α → ℕ} {tol : ℕ} {l : List α} (h : l.Pairwise fun a b => d a ≤ d b) :
    (l.find? fun a => d a ≤ tol) = l.head?.filter fun a => d a ≤ tol := by
  cases l with
  | nil => rfl
  | cons a l =>
    by_cases ha : d a ≤ tol
    · simp [Option.filter, ha]
    · have hr : ∀ b ∈ l, tol < d b := fun b hb => (not_le.1 ha).trans_le (rel_of_pairwise_cons h hb)
      simpa [Option.filter, ha] using hr

/-- The coins that `select_exact_bin_funding` looks at. -/
def eligible (settings : Settings) (answers : Answers) : List Utxo :=
  (candidates settings answers).filter fun u => u.confirmations > 0 ∧ u.amountSat > 0

def offTarget (amountSat : ℕ) (u : Utxo) : ℕ := distance u.amountSat (amountSat + maxEstimatedFeeSat)

variable {settings : Settings} {amountSat : ℕ}

lemma select_eq_some {answers : Answers} {u : Utxo} :
    selectExactBinFunding (candidates settings answers) amountSat maxEstimatedFeeSat settings.exactBinToleranceSat =
      some u ↔ First (offTarget amountSat) (eligible settings answers) u ∧
        offTarget amountSat u ≤ settings.exactBinToleranceSat := by
  have hs := pairwise_insertionSort (fun u v => offTarget amountSat u ≤ offTarget amountSat v)
    (eligible settings answers)
  rw [← head?_insertionSort]
  simp only [selectExactBinFunding]
  exact (congrArg (· = some u) (find?_le_of_sorted hs)).to_iff.trans (by simp [Option.filter_eq_some_iff])

lemma select_eq_none {answers : Answers} :
    selectExactBinFunding (candidates settings answers) amountSat maxEstimatedFeeSat settings.exactBinToleranceSat =
      none ↔ ∀ u ∈ eligible settings answers, settings.exactBinToleranceSat < offTarget amountSat u := by
  simp only [selectExactBinFunding, find?_eq_none, mem_insertionSort, decide_eq_true_eq, not_le]
  rfl

/-! ## Locked coins -/

lemma sampleOverPad_eq_none {overPads : ℕ → ℕ} {draws : ℕ} :
    sampleOverPad settings amountSat overPads draws = none ↔ ∀ i < draws,
      collidesWithOtherBin settings (amountSat + maxEstimatedFeeSat + overPads i) amountSat = true := by
  induction draws with
  | zero => simp [sampleOverPad]
  | succ draws ih =>
    simp only [sampleOverPad]
    split
    · rw [ih]
      constructor
      · intro h i hi
        rcases Nat.lt_succ_iff_lt_or_eq.1 hi with hi | rfl
        · exact h i hi
        · assumption
      · exact fun h i hi => h i (by omega)
    · simp only [reduceCtorEq, false_iff, not_forall]
      exact ⟨draws, Nat.lt_succ_self _, ‹_›⟩

/-- The consolidation cannot be built, or `send_outputs` does not take it. -/
def Unfit (settings : Settings) (answers : Answers) (lockupAddress : String) (amountSat : ℕ) : Prop :=
  answers.decoyAddress ≠ "" ∧ (amountSat = 0 ∨
    (∀ i < max 1 settings.overpadResampleLimit,
      collidesWithOtherBin settings (amountSat + maxEstimatedFeeSat + answers.overPads i) amountSat = true) ∨
    malformed (lockupAddress, amountSat) = true ∨ malformed (answers.decoyAddress, answers.decoyValueSat) = true)

variable {settings : Settings} {answers : Answers} {lockupAddress : String} {amountSat : ℕ} {sessionId : String}

lemma build_eq_ok : (∃ value, buildDecoyConsolidationOutputs settings answers amountSat = .ok value) ↔
    amountSat ≠ 0 ∧ ¬ ∀ i < max 1 settings.overpadResampleLimit,
      collidesWithOtherBin settings (amountSat + maxEstimatedFeeSat + answers.overPads i) amountSat = true := by
  rw [← sampleOverPad_eq_none]
  by_cases hz : amountSat = 0
  · simp [buildDecoyConsolidationOutputs, hz]
  · cases hp : sampleOverPad settings amountSat answers.overPads (max 1 settings.overpadResampleLimit) with
    | none | some pad => simp [buildDecoyConsolidationOutputs, hz, hp]

lemma build_value {value : ℕ} (h : buildDecoyConsolidationOutputs settings answers amountSat = .ok value) :
    value = answers.decoyValueSat := by
  simp only [buildDecoyConsolidationOutputs] at h
  split at h
  · cases h
  split at h
  · cases h
  · cases h
    rfl

lemma sendUnpinned_fit (sessionId : String) (h : ¬ Unfit settings answers lockupAddress amountSat) :
    ∃ request, sendUnpinned settings answers lockupAddress amountSat sessionId = .sends request ∧
      ∀ wallet u, MaySpend wallet request u ↔ u ∈ wallet := by
  by_cases hd : answers.decoyAddress = ""
  · simp only [sendUnpinned, hd, if_true]
    exact ⟨_, rfl, fun wallet u => Iff.rfl⟩
  simp only [Unfit, ne_eq, hd, not_false_eq_true, true_and, not_or] at h
  obtain ⟨hz, hp, hl, hv⟩ := h
  obtain ⟨value, hb⟩ := build_eq_ok.2 ⟨hz, hp⟩
  have hn : [(lockupAddress, amountSat), (answers.decoyAddress, value)].find? malformed = none := by
    simp [build_value hb, hl, hv]
  simp only [sendUnpinned, hd, if_false, hb, sendOutputs, hn]
  exact ⟨_, rfl, fun wallet u => Iff.rfl⟩

lemma sendUnpinned_unfit (h : Unfit settings answers lockupAddress amountSat) (request : Request) :
    sendUnpinned settings answers lockupAddress amountSat sessionId ≠ .sends request := by
  obtain ⟨hd, hu⟩ := h
  cases hb : buildDecoyConsolidationOutputs settings answers amountSat with
  | error error => simp [sendUnpinned, hd, hb]
  | ok value =>
    obtain ⟨hz, hp⟩ := build_eq_ok.1 ⟨value, hb⟩
    have hma : malformed (lockupAddress, amountSat) = true ∨ malformed (answers.decoyAddress, value) = true := by
      rw [build_value hb]
      exact (hu.resolve_left hz).resolve_left hp
    cases hf : [(lockupAddress, amountSat), (answers.decoyAddress, value)].find? malformed with
    | some output => simp [sendUnpinned, hd, hb, sendOutputs, hf]
    | none =>
      rw [find?_eq_none] at hf
      rcases hma with hm | hm <;> exact absurd hm (hf _ (by simp))

/-- No transaction of the adapter spends a coin that carries a do-not-spend label. -/
def KeepsLocked (settings : Settings) (answers : Answers) (lockupAddress : String) (amountSat : ℕ) (sessionId : String)
    (wallet : List Utxo) (rows : List LabelRow) : Prop :=
  ∀ request, buildAndBroadcastFundingTx settings answers lockupAddress amountSat sessionId = .sends request →
    ∀ u, MaySpend wallet request u → ¬ Locked rows u

lemma keepsLocked_of_pin {u : Utxo} {wallet : List Utxo} {rows : List LabelRow} (hm : u ∈ wallet)
    (hp : selectExactBinFunding (candidates settings answers) amountSat maxEstimatedFeeSat
      settings.exactBinToleranceSat = some u) :
    KeepsLocked settings answers lockupAddress amountSat sessionId wallet rows ↔ ¬ Locked rows u := by
  simp only [KeepsLocked, buildAndBroadcastFundingTx, hp, Attempt.sends.injEq, forall_eq']
  constructor
  · exact fun h => h u ⟨hm, by simp⟩
  · rintro hu v ⟨-, hk⟩ hv
    rw [Locked, (by simpa using hk : v.key = u.key)] at hv
    exact hu hv

/-- The adapter keeps the locked coins if and only if there are none, or it pins the
transaction to a coin that is not locked, or it sends nothing. -/
theorem keepsLocked_iff (draws : Answers) (wallet : List Utxo) (rows : List LabelRow) (listed labelled : Bool) :
    KeepsLocked settings (draws.about wallet rows listed labelled) lockupAddress amountSat sessionId wallet rows ↔
      (∀ u ∈ wallet, ¬ Locked rows u) ∨
      (∃ u, First (offTarget amountSat) (eligible settings (draws.about wallet rows listed labelled)) u ∧
        offTarget amountSat u ≤ settings.exactBinToleranceSat ∧ ¬ Locked rows u) ∨
      (∀ u ∈ eligible settings (draws.about wallet rows listed labelled),
        settings.exactBinToleranceSat < offTarget amountSat u) ∧
        Unfit settings draws lockupAddress amountSat := by
  have hun : Unfit settings (draws.about wallet rows listed labelled) lockupAddress amountSat ↔
      Unfit settings draws lockupAddress amountSat := Iff.rfl
  generalize ha : draws.about wallet rows listed labelled = answers at hun ⊢
  cases hse : selectExactBinFunding (candidates settings answers) amountSat maxEstimatedFeeSat
    settings.exactBinToleranceSat with
  | some u =>
    obtain ⟨hf, ht⟩ := select_eq_some.1 hse
    have hm : u ∈ wallet := by
      have hu := hf.mem
      subst ha
      simp only [eligible, candidates, mem_filter] at hu
      cases listed with
      | false => simp [Answers.about] at hu
      | true => simpa [Answers.about] using hu.1.1
    rw [keepsLocked_of_pin hm hse]
    constructor
    · exact fun hu => .inr (.inl ⟨u, hf, ht, hu⟩)
    rintro (hn | ⟨v, hv, hvt, hl⟩ | ⟨hfa, -⟩)
    · exact hn u hm
    · obtain rfl : u = v := some.inj (hse.symm.trans (select_eq_some.2 ⟨hv, hvt⟩))
      exact hl
    · exact absurd (hfa u hf.mem) (not_lt.2 ht)
  | none =>
    have hfa := select_eq_none.1 hse
    simp only [KeepsLocked, buildAndBroadcastFundingTx, hse]
    constructor
    · intro hk
      by_cases h : Unfit settings answers lockupAddress amountSat
      · exact .inr (.inr ⟨hfa, hun.1 h⟩)
      · obtain ⟨request, hs, hsp⟩ := sendUnpinned_fit sessionId h
        exact .inl fun u hu => hk request hs u ((hsp wallet u).2 hu)
    · rintro (hn | ⟨u, hu, ht, -⟩ | ⟨-, h⟩) request hs v hv
      · refine hn v ?_
        by_cases h : Unfit settings answers lockupAddress amountSat
        · exact absurd hs (sendUnpinned_unfit h request)
        · obtain ⟨request', hs', hsp⟩ := sendUnpinned_fit sessionId h
          cases hs.symm.trans hs'
          exact (hsp wallet v).1 hv
      · exact absurd (hfa u hu.mem) (not_lt.2 ht)
      · exact absurd hs (sendUnpinned_unfit (hun.2 h) request)

def refunded : Utxo := ⟨⟨"f4184fc596403b9d638783cf57adfe4c75c605f6356fbc91338530e9831e9e16", 0⟩, 1000000, 10⟩

def refundLabel : LabelRow := ⟨refunded.key, "auto:anonymize-refund"⟩

def quietAnswers : Answers where
  now := 1700000000
  economy := none
  utxos := some [refunded]
  labels := some [refundLabel]
  featureDay := none
  decoyAddress := "bc1pdecoy"
  jitter := 1
  overPads := fun _ => 0
  decoyValueSat := 20000

lemma refunded_locked : Locked [refundLabel] refunded := by
  simp [Locked, labelOf, refundLabel, isDoNotSpendLabel, doNotSpendLabels]

theorem refund_spent :
    ¬ KeepsLocked { amountBins := [100000] } quietAnswers "bc1plockup" 100000 "session" [refunded] [refundLabel] := by
  intro h
  have hu : ¬ Unfit { amountBins := [100000] } quietAnswers "bc1plockup" 100000 := by
    unfold Unfit
    decide
  have hn : selectExactBinFunding (candidates { amountBins := [100000] } quietAnswers) 100000 maxEstimatedFeeSat 50 =
      none := by
    simp [candidates, quietAnswers, refunded_locked, selectExactBinFunding]
  obtain ⟨request, hs, hsp⟩ := sendUnpinned_fit "session" hu
  refine h request ?_ refunded ((hsp _ _).2 (by simp)) refunded_locked
  simpa only [buildAndBroadcastFundingTx, hn] using hs

/-! ## Exact funding -/

/-- The coin pays for the lockup and for `vsize` vbytes at the feerate, and what is left is dust. -/
def FundsExactly (vsize dust amountSat feerate : ℕ) (u : Utxo) : Prop :=
  amountSat + vsize * feerate ≤ u.amountSat ∧ u.amountSat < amountSat + vsize * feerate + dust

lemma select_single {amountSat tol : ℕ} (value : ℕ) (hv : 0 < value)
    (h : distance value (amountSat + maxEstimatedFeeSat) ≤ tol) :
    selectExactBinFunding [⟨⟨"", 0⟩, value, 1⟩] amountSat maxEstimatedFeeSat tol = some ⟨⟨"", 0⟩, value, 1⟩ := by
  simp [selectExactBinFunding, hv, h]

/-- The allowance for the fee is fixed: the coins within the tolerance of it fund the lockup
exactly if and only if the fee at the feerate is that close to the allowance too. -/
theorem funds_exactly_iff (vsize dust feerate tol : ℕ) :
    (∀ utxos amountSat u, selectExactBinFunding utxos amountSat maxEstimatedFeeSat tol = some u →
      FundsExactly vsize dust amountSat feerate u) ↔
    vsize * feerate + tol ≤ maxEstimatedFeeSat ∧ maxEstimatedFeeSat + tol < vsize * feerate + dust := by
  constructor
  · intro h
    -- the coins at both ends of the tolerance
    have hl := h _ tol _ (select_single maxEstimatedFeeSat (by decide) (by unfold distance; omega))
    have hh := h _ 0 _ (select_single (maxEstimatedFeeSat + tol) (by simp [maxEstimatedFeeSat])
      (by unfold distance; omega))
    simp only [FundsExactly] at hl hh
    omega
  · intro h utxos amountSat u hu
    have hd := of_decide_eq_true (find?_some (a := u) hu)
    unfold distance at hd
    unfold FundsExactly
    omega

/-- At four sat/vB a coin of the exact target cannot pay for a transaction of 111 vbytes. -/
theorem exact_coin_short :
    selectExactBinFunding [⟨⟨"", 0⟩, 100400, 6⟩] 100000 maxEstimatedFeeSat 50 = some ⟨⟨"", 0⟩, 100400, 6⟩ ∧
    ¬ FundsExactly 111 330 100000 4 ⟨⟨"", 0⟩, 100400, 6⟩ := by
  unfold FundsExactly
  decide

end AgentWallet.Anonymize.CoinControl
