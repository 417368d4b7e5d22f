import AgentWallet.Chain.Address
import AgentWallet.Lib.Text
/-!
# Plans with several outputs

A request with several destinations becomes a plan: each destination is parsed
and validated, each amount is rounded down to a bin, and the plan as a whole is
checked for repeated addresses and for its total. The check compares the texts of
the addresses; since a script has one accepted address, the scripts differ too.
-/

namespace AgentWallet.Anonymize

open AgentWallet.Lib AgentWallet.Core.Validation AgentWallet.Chain.Address List Except
open AgentWallet.Chain.ElectrumProtocol (addressToScriptPubkey)
open AgentWallet.Bolt12.Bech32 (lower pyRepr)

/-! ## Destinations -/

inductive ScriptType
  | p2tr
  | p2wpkh
  | p2wsh
  | p2shP2wpkh
  deriving DecidableEq, Repr

def ScriptType.text : ScriptType → String
  | .p2tr => "p2tr"
  | .p2wpkh => "p2wpkh"
  | .p2wsh => "p2wsh"
  | .p2shP2wpkh => "p2sh-p2wpkh"

section Case

variable (unicodeLower unicodeUpper : List Char → List Char)

end Case

/-! ## Plans -/

/-- Quantize an amount down to the nearest bin; 0 below the smallest. -/
def quantizeToBin (amountSat : ℤ) (bins : List ℤ) : ℤ :=
  let eligible := (bins.mergeSort (· ≤ ·)).filter (· ≤ amountSat)
  eligible.getLast?.getD 0

structure OutputSpec where
  destinationAddress : String
  destinationScriptType : String
  binAmountSat : ℤ
  deriving DecidableEq, Repr

structure Settings where
  network : Network
  minSat : ℤ := 50000
  maxSat : ℤ := 10000000
  amountBins : List ℤ := [50000, 100000, 250000, 500000, 1000000, 2000000, 5000000]
  multiOutputMaxCount : ℤ := 5
  multiOutputMaxTotalSat : ℤ := 10000000
  distinctLegsConfigured : Bool := false

section

variable (settings : Settings)

section Case

variable (unicodeLower unicodeUpper : List Char → List Char)

end Case

end

/-! ## What a plan pays -/

variable {destinations : List (String × ℤ)} {specs : List OutputSpec} {spec : OutputSpec}

section

variable {settings : Settings} {unicodeLower unicodeUpper : List Char → List Char}

lemma quantizeToBin_spec (amountSat : ℤ) (bins : List ℤ) : quantizeToBin amountSat bins = 0 ∨
      (quantizeToBin amountSat bins ∈ bins ∧ quantizeToBin amountSat bins ≤ amountSat) := by
  rw [quantizeToBin]
  cases hl : ((bins.mergeSort (· ≤ ·)).filter (· ≤ amountSat)).getLast? with
  | none => exact .inl rfl
  | some b =>
    obtain ⟨hm, hle⟩ := mem_filter.1 (mem_of_getLast? hl)
    exact .inr ⟨mem_mergeSort.1 hm, of_decide_eq_true hle⟩

variable {i : ℕ} {plan : MultiOutputPlan}

structure Built (settings : Settings) (unicodeLower unicodeUpper : List Char → List Char) (destination : String × ℤ)
    (spec : OutputSpec) : Prop where
  accepted : Accepts unicodeLower unicodeUpper settings.network spec.destinationAddress
  amount : spec.binAmountSat = quantizeToBin destination.2 settings.amountBins

lemma Built.within {destination : String × ℤ} (h : Built settings unicodeLower unicodeUpper destination spec)
    (hp : 0 < spec.binAmountSat) : spec.binAmountSat ∈ settings.amountBins ∧ spec.binAmountSat ≤ destination.2 := by
  rw [h.amount] at hp ⊢
  rcases quantizeToBin_spec destination.2 settings.amountBins with hz | hb
  · omega
  · exact hb

end

end AgentWallet.Anonymize
