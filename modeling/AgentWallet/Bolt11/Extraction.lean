import AgentWallet.Bolt11.Agreement
/-!
# What the reader of swap invoices returns

For an invoice of well formed tagged fields the payment hash is that of the first field
of a payment hash. The principal is what the human-readable part denotes, unless that
ends in a line feed, which `$` lets pass, or has a digit beyond ASCII, which `\d` lets
pass (`extraction_faithful_iff`).
-/

namespace AgentWallet.Bolt11

open AgentWallet.Lib List
open AgentWallet.Bolt12.Bech32 (lower)
open AgentWallet.Chain.Address (bech32Char Parts)

/-! ## Invoices -/

/-- The groups of a field: its tag, two groups of its length, and the payload. -/
def Field.groups (f : Field) : List ℕ := f.tag :: f.payload.length / 32 :: f.payload.length % 32 :: f.payload

structure Invoice where
  hrp : List Char
  timestamp : List ℕ
  fields : List Field
  signature : List ℕ
  checksum : List ℕ
  seven : timestamp.length = 7
  whole : signature.length = 104
  six : checksum.length = 6
  lengths : ∀ f ∈ fields, f.payload.length < 32 * 32
  words : ∀ v ∈ timestamp ++ fields.flatMap Field.groups ++ signature ++ checksum, v < 32

namespace Invoice

def groups (i : Invoice) : List ℕ := i.timestamp ++ i.fields.flatMap Field.groups ++ i.signature ++ i.checksum

def text (i : Invoice) : List Char := i.hrp ++ '1' :: i.groups.map bech32Char

end Invoice

def firstHash (fields : List Field) : Option String :=
  (fields.find? Field.isHash).map fun f => hexdigest (toBE 32 (hashBits f.payload))

def Multiplier.perBitcoin : Multiplier → ℕ
  | .btc => 1
  | .milli => 10 ^ 3
  | .micro => 10 ^ 6
  | .nano => 10 ^ 9
  | .pico => 10 ^ 12

/-- `ln`, the letters of a currency, at most 14 digits, a multiplier and an ending make
the human-readable part, and the amount is `n` satoshi. -/
structure Writes (u : Unicode) (hrp : List Char) (n : ℕ) (digits ending : List Char) : Prop where
  split : ∃ name : List Char, ∃ multiplier : Multiplier, ∃ value, name ≠ [] ∧ (∀ c ∈ name, 'a' ≤ c ∧ c ≤ 'z') ∧
    hrp = "ln".toList ++ (name ++ (digits ++ (multiplier.text ++ ending))) ∧
    intOfDigits u digits = some value ∧ n * multiplier.perBitcoin = value * 10 ^ 8
  some : digits ≠ []
  few : digits.length ≤ 14

/-- The human-readable part denotes `n` satoshi. -/
def Denotes (u : Unicode) (hrp : List Char) (n : ℕ) : Prop :=
  ∃ digits, Writes u hrp n digits [] ∧ ∀ c ∈ digits, '0' ≤ c ∧ c ≤ '9'

def Extracts (u : Unicode) (s : List Char) (i : Invoice) : Prop :=
  paymentHashFromBolt11 u s = firstHash i.fields ∧ ∀ n, principalSatsFromBolt11 u s = some n ↔ Denotes u i.hrp n

/-- The pattern reads an amount off a text with a line feed or a character beyond ASCII. -/
def Misread (u : Unicode) (hrp : List Char) : Prop :=
  (∃ c ∈ hrp, c = '\n' ∨ isAscii c = false) ∧ ∃ n digits ending, atEnd ending ∧ Writes u hrp n digits ending

/-! ## The payment hash -/

lemma findPaymentHash_fields (fields : List Field) (hl : ∀ f ∈ fields, f.payload.length < 32 * 32)
    (hw : ∀ v ∈ fields.flatMap Field.groups, v < 32) :
    findPaymentHash ((fields.flatMap Field.groups).map bech32Char) = firstHash fields := by
  induction fields with
  | nil => simp [findPaymentHash, firstHash]
  | cons f fields ih =>
    obtain ⟨hlen, hl⟩ := forall_mem_cons.1 hl
    rw [flatMap_cons, forall_mem_append] at hw
    obtain ⟨hf, hr⟩ := hw
    have hc : f.payload.length / 32 * 32 + f.payload.length % 32 = f.payload.length := Nat.div_add_mod' _ _
    have hp : ∀ v ∈ f.payload, v < 32 := fun v hv => hf v (by simp [Field.groups, hv])
    have hle : ¬ f.payload.length / 32 * 32 + f.payload.length % 32 >
        (f.payload ++ fields.flatMap Field.groups).length := by
      rw [hc, length_append]
      omega
    have hhi : f.payload.length / 32 < 32 := Nat.div_lt_of_lt_mul hlen
    have hlo : f.payload.length % 32 < 32 := Nat.mod_lt _ (by decide)
    rw [flatMap_cons, Field.groups, cons_append, cons_append, cons_append]
    by_cases hh : f.tag = 1 ∧ f.payload.length = 52
    · have ha : ∀ v ∈ f.payload ++ fields.flatMap Field.groups, v < 32 := forall_mem_append.2 ⟨hp, hr⟩
      rw [findPaymentHash_hash ha hhi hlo hle (by rwa [hc]), hc, take_left,
        (hashBytes_eq hp hh.2).1, firstHash, find?_cons_of_pos (by simpa [Field.isHash] using hh)]
      rfl
    · rw [findPaymentHash_other (hf _ (by simp [Field.groups])) hhi hlo hle (by rwa [hc]), hc, drop_left,
        ih hl hr, firstHash, firstHash, find?_cons_of_neg (by simpa [Field.isHash] using hh)]

section Read

variable {u : Unicode} {s : List Char} {i : Invoice}

lemma startsWith_text (i : Invoice) : startsWith i.text "ln" = startsWith i.hrp "ln" := by
  unfold startsWith Invoice.text
  rcases i.hrp with _ | ⟨a, _ | ⟨b, hrp⟩⟩ <;> simp [List.isPrefixOf]

lemma paymentHash_of_form (h : lower u.lower (strip s) = i.text) :
    paymentHashFromBolt11 u s = if startsWith i.hrp "ln" then firstHash i.fields else none := by
  split
  case isTrue hln =>
    have hs : i.groups.take (i.groups.length - 6) = i.timestamp ++ i.fields.flatMap Field.groups ++ i.signature := by
      rw [Invoice.groups, length_append, i.six, Nat.add_sub_cancel, take_left]
    have hf : tagged (i.timestamp ++ i.fields.flatMap Field.groups ++ i.signature) =
        i.fields.flatMap Field.groups := by
      rw [tagged, length_append, i.whole, Nat.add_sub_cancel, take_left, ← i.seven, drop_left]
    have hl : 7 + 104 ≤ (i.groups.take (i.groups.length - 6)).length := by
      rw [hs, length_append, length_append, i.seven, i.whole]
      omega
    have hp : Parts i.hrp i.groups (lower u.lower (strip s)) := by
      refine ⟨?_, ?_, i.words, h⟩
      · rintro hn
        simp [hn, startsWith] at hln
      · simp [Invoice.groups, i.six]
        omega
    rw [paymentHashFromBolt11_eq hp hln hl, hs, hf]
    exact findPaymentHash_fields _ i.lengths fun v hv => i.words v (by simp [hv])
  case isFalse hln =>
    rw [paymentHashFromBolt11, h]
    exact if_pos (by rwa [startsWith_text])

/-! ## The principal -/

lemma lettersPattern_some {s : List Char} {found : List Char × Multiplier} (h : lettersPattern u s = some found) :
    ∃ name rest, name ≠ [] ∧ (∀ c ∈ name, 'a' ≤ c ∧ c ≤ 'z') ∧ s = name ++ rest ∧ amountPattern u rest = some found := by
  induction s with
  | nil => cases h
  | cons c s ih =>
    rw [lettersPattern] at h
    obtain ⟨hc, h⟩ := Option.ite_none_right_eq_some.1 h
    split at h
    case _ hf =>
      cases h
      exact ⟨[c], s, by simp, by simpa using hc, rfl, hf⟩
    case _ =>
      obtain ⟨name, rest, -, hl, rfl, hf⟩ := ih h
      exact ⟨c :: name, rest, by simp, forall_mem_cons.2 ⟨hc, hl⟩, rfl, hf⟩

lemma msatOf_whole (value n : ℕ) (multiplier : Multiplier) :
    msatOf value multiplier = some (1000 * n) ↔ n * multiplier.perBitcoin = value * 10 ^ 8 := by
  cases multiplier <;> simp [msatOf, Multiplier.perBitcoin] <;> omega

lemma principal_writes (h : lower u.lower (strip s) = i.text) (n : ℕ) :
    principalSatsFromBolt11 u s = some n ↔ ∃ digits ending, atEnd ending ∧ Writes u i.hrp n digits ending := by
  rw [principal_iff h i.words]
  simp only [msatOf_whole]
  constructor
  · rintro ⟨digits, multiplier, value, hre, hv, hn⟩
    obtain ⟨hln, hre⟩ := Option.ite_none_right_eq_some.1 hre
    obtain ⟨name, rest, hna, hl, hr, hre⟩ := lettersPattern_some hre
    obtain ⟨hne, hle, -, ending, he, rfl⟩ := amountPattern_iff.1 hre
    obtain ⟨tail, ht⟩ := isPrefixOf_iff_prefix.1 hln
    have hh : tail = name ++ (digits ++ (multiplier.text ++ ending)) := by rwa [← ht] at hr
    exact ⟨digits, ending, he, ⟨name, multiplier, value, hna, hl, hh ▸ ht.symm, hv, hn⟩, hne, hle⟩
  · rintro ⟨digits, ending, he, ⟨name, multiplier, value, hna, hl, hh, hv, hn⟩, hne, hle⟩
    have ha : amountPattern u (digits ++ (multiplier.text ++ ending)) = some (digits, multiplier) :=
      amountPattern_iff.2 ⟨hne, hle, isDecimal_of_int hv, ending, he, rfl⟩
    refine ⟨digits, multiplier, value, ?_, hv, hn⟩
    rw [hh, hrpAmountRe, ← lettersPattern_append hna hl ha]
    rfl

/-- An amount has neither a line feed nor a character beyond ASCII. -/
lemma Denotes.plain {hrp : List Char} {n : ℕ} (h : Denotes u hrp n) : ∀ c ∈ hrp, ¬ (c = '\n' ∨ isAscii c = false) := by
  obtain ⟨digits, ⟨⟨name, multiplier, -, -, hl, rfl, -⟩, -, -⟩, hd⟩ := h
  have hln : ∀ c ∈ "ln".toList, '0' ≤ c ∧ c ≤ 'z' := by simp
  have ht : ∀ c ∈ multiplier.text, '0' ≤ c ∧ c ≤ 'z' := by cases multiplier <;> simp [Multiplier.text]
  intro c hc
  have hr : '0' ≤ c ∧ c ≤ 'z' := by
    simp only [mem_append, append_nil] at hc
    rcases hc with hc | hc | hc | hc
    · exact hln c hc
    · exact ⟨le_trans (by decide) (hl c hc).1, (hl c hc).2⟩
    · exact ⟨(hd c hc).1, le_trans (hd c hc).2 (by decide)⟩
    · exact ht c hc
  rintro (rfl | ha)
  · exact absurd hr.1 (by decide)
  · have hz : c.toNat ≤ 122 := hr.2
    rw [isAscii, decide_eq_false_iff_not] at ha
    omega

lemma principal_faithful_iff (h : lower u.lower (strip s) = i.text) :
    (∀ n, principalSatsFromBolt11 u s = some n ↔ Denotes u i.hrp n) ↔ ¬ Misread u i.hrp := by
  constructor
  · rintro hal ⟨⟨c, hc, hb⟩, n, hw⟩
    exact ((hal n).1 ((principal_writes h n).2 hw)).plain c hc hb
  intro hcl n
  refine (principal_writes h n).trans ⟨?_, ?_⟩
  · rintro ⟨digits, ending, he, hw⟩
    have hp : ∀ c ∈ i.hrp, ¬ (c = '\n' ∨ isAscii c = false) := fun c hc hb =>
      hcl ⟨⟨c, hc, hb⟩, n, digits, ending, he, hw⟩
    obtain ⟨name, multiplier, value, -, -, hh, hv, -⟩ := hw.split
    have hn : ending = [] := by
      refine (of_decide_eq_true he).resolve_right fun hf => ?_
      exact hp '\n' (by simp [hh, hf]) (.inl rfl)
    refine ⟨digits, hn ▸ hw, fun c hc => ?_⟩
    -- of the characters of ASCII only ten are digits
    have ha := not_or.1 (hp c (by simp [hh, hc]))
    have hd := isDecimal_of_int hv c hc
    by_contra hdi
    simp [isDecimal, digitValue, hdi, ha.2] at hd
  · rintro ⟨digits, hw, -⟩
    exact ⟨digits, [], rfl, hw⟩

end Read

/-! ## Faithful extraction -/

theorem extraction_faithful_iff (u : Unicode) (s : List Char) (i : Invoice) (h : lower u.lower (strip s) = i.text) :
    Extracts u s i ↔
      (startsWith i.hrp "ln" ∨ ∀ f ∈ i.fields, f.isHash = false) ∧ ¬ Misread u i.hrp := by
  refine and_congr ?_ (principal_faithful_iff h)
  have hn : firstHash i.fields = none ↔ ∀ f ∈ i.fields, f.isHash = false := by simp [firstHash]
  rw [paymentHash_of_form h, ← hn]
  cases startsWith i.hrp "ln" <;> simp [eq_comm]

def oneHash (hrp : String) : Invoice where
  hrp := hrp.toList
  timestamp := List.replicate 7 0
  fields := [⟨1, List.replicate 52 0⟩]
  signature := List.replicate 104 0
  checksum := List.replicate 6 0
  seven := rfl
  whole := rfl
  six := rfl
  lengths := by decide
  words := by decide +kernel

theorem extraction_faithful_single : Extracts asciiOnly (oneHash "lnbc25m").text (oneHash "lnbc25m") := by
  refine (extraction_faithful_iff _ _ _ (by decide +kernel)).2 ⟨.inl rfl, ?_⟩
  rintro ⟨⟨c, hc, hb⟩, -⟩
  have hp : (oneHash "lnbc25m").hrp.all (fun c => ¬ (c = '\n' ∨ isAscii c = false)) = true := by decide
  exact of_decide_eq_true (all_eq_true.1 hp c hc) hb

theorem extraction_past_line_feed : ¬ ∀ (u : Unicode) (s : List Char) (i : Invoice),
    lower u.lower (strip s) = i.text → Extracts u s i := by
  intro h
  have he := h asciiOnly (oneHash "lnbc25m\n").text (oneHash "lnbc25m\n") (by decide +kernel)
  exact ((he.2 2500000).1 (by decide +kernel)).plain '\n' (by decide +kernel) (.inl rfl)

end AgentWallet.Bolt11
