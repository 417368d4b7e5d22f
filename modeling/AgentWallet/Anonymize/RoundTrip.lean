import Mathlib.Algebra.Order.Ring.Int
/-!
# What the Liquid round trip costs

The first leg pays an invoice of the session's amount and is credited less than that: the
operator keeps its fee, and the claim pays for itself. The second leg asks for an
invoice of the same amount, so it has to lock more than that. The request to lock
takes the operator's answer as it is.
-/

namespace AgentWallet.Anonymize.RoundTrip

/-- `create_reverse_swap_to_lbtc`: the amount that the operator is to lock. -/
def createReverseSwapToLbtc (invoiceAmountSat onchainAmount : ℤ) : Except String ℤ :=
  if onchainAmount < invoiceAmountSat * 80 / 100 then
    .error s!"Boltz reverse (L-BTC) onchainAmount {onchainAmount} is below 80% of invoice {invoiceAmountSat}; refusing"
  else .ok onchainAmount

/-- What the operators answer, and what the network takes for the claim. -/
structure Answers where
  onchainAmount : ℤ
  claimFeeSat : ℤ
  expectedAmount : ℤ

structure LiquidLockRequest where
  utxoValueSat : ℤ
  destinationAmountSat : ℤ

/-- `_lock_for_submarine`: a value of zero counts as missing. -/
def lockForSubmarine (walletUtxoValueSat expectedAmountSat : ℤ) : Except String LiquidLockRequest :=
  if walletUtxoValueSat = 0 then .error "leg-1 missing 'wallet_utxo_value_sat'"
  else .ok ⟨walletUtxoValueSat, expectedAmountSat⟩

/-- The amounts of both legs: what the claim credits is what the second leg spends.
`create_submarine_swap_from_lbtc` checks nothing about the amount it is asked for. -/
def roundTrip (binAmountSat : ℤ) (a : Answers) : Except String LiquidLockRequest := do
  let onchain ← createReverseSwapToLbtc binAmountSat a.onchainAmount
  lockForSubmarine (onchain - a.claimFeeSat) a.expectedAmount

/-- The request asks for no more than the coin holds, and the operator keeps `margin` at most. -/
def LiquidLockRequest.Fair (r : LiquidLockRequest) (binAmountSat margin : ℤ) : Prop :=
  r.destinationAmountSat ≤ r.utxoValueSat ∧ r.destinationAmountSat - binAmountSat ≤ margin

/-- An operator that takes the two fees. -/
def honest (binAmountSat reverseFee submarineFee claimFeeSat : ℤ) : Answers :=
  ⟨binAmountSat - reverseFee, claimFeeSat, binAmountSat + submarineFee⟩

lemma roundTrip_eq {bin : ℤ} {a : Answers} {r : LiquidLockRequest} (h : roundTrip bin a = .ok r) :
    r = ⟨a.onchainAmount - a.claimFeeSat, a.expectedAmount⟩ := by
  unfold roundTrip createReverseSwapToLbtc lockForSubmarine at h
  simp only [bind, Except.bind] at h
  repeat' split at h
  all_goals grind

/-- The honest round trip can be paid for only if nobody takes a fee, and a request is fair only if the
operators' answers are. -/
theorem round_trip_iff (binAmountSat margin lockFeeSat : ℤ) (hlock : 0 ≤ lockFeeSat) :
    (∀ f g c r, 0 ≤ f → 0 ≤ g → 0 ≤ c → roundTrip binAmountSat (honest binAmountSat f g c) = .ok r →
      (r.destinationAmountSat + lockFeeSat ≤ r.utxoValueSat ↔ f = 0 ∧ g = 0 ∧ c = 0 ∧ lockFeeSat = 0)) ∧
    ∀ a r, roundTrip binAmountSat a = .ok r → (r.Fair binAmountSat margin ↔
      a.expectedAmount ≤ a.onchainAmount - a.claimFeeSat ∧ a.expectedAmount ≤ binAmountSat + margin) := by
  constructor
  · intro f g c r hf hg hc h
    rw [roundTrip_eq h, honest]
    constructor
    · intro hle
      simp only at hle
      omega
    · rintro ⟨rfl, rfl, rfl, rfl⟩
      simp
  · intro a r h
    rw [roundTrip_eq h, LiquidLockRequest.Fair]
    constructor <;> (intro hr; simp only at hr ⊢; omega)

theorem round_trip_iff_free : ∃ r, roundTrip 100000 (honest 100000 0 0 0) = .ok r ∧
    r.destinationAmountSat + 0 ≤ r.utxoValueSat :=
  ⟨⟨100000, 100000⟩, rfl, ((round_trip_iff 100000 0 0 le_rfl).1 0 0 0 _ le_rfl le_rfl le_rfl rfl).2 (by simp)⟩

/-- Fees of a tenth of a percent and 100 sats for the claim: the coin holds less than the lockup takes. Nor is
an operator refused that asks for a hundred times the amount. -/
theorem round_trip_short :
    (∃ r, roundTrip 100000 (honest 100000 100 100 100) = .ok r ∧ r.utxoValueSat < r.destinationAmountSat) ∧
    ∃ r, roundTrip 100000 ⟨99900, 100, 10000000⟩ = .ok r ∧ r.destinationAmountSat = 10000000 :=
  ⟨⟨⟨99800, 100100⟩, rfl, by decide⟩, ⟨99800, 10000000⟩, rfl, rfl⟩

end AgentWallet.Anonymize.RoundTrip
