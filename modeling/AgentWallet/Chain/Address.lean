import AgentWallet.Chain.Segwit
/-!
# What an address says

A payload is what an address stands for, and `Encodes` says which text is its
address on a network. The validation and the script side agree on a text unless
it is a Base58Check text that only looks like one of the network, a Base58Check
text that is a segwit text as well, or a segwit address too short for the pattern
(`agree_iff`). A script has one address that is accepted (`address_unique`).
-/

namespace AgentWallet.Chain.Address

open AgentWallet.Lib AgentWallet.Core.Validation List Except Prod
open AgentWallet.Chain.ElectrumProtocol (addressToScriptPubkey decodeSegwit decodeBase58check NETWORK_PREFIXES)
open AgentWallet.Bolt12.Bech32 (lower isAscii charset convert8to5)

abbrev Hash160 : Type := { hash : Bytes // hash.length = 20 }

inductive Payload
  | pubkeyHash (hash : Hash160)
  | scriptHash (hash : Hash160)
  | witness (w : Witness)

/-- `OP_0` to `OP_16` -/
def opcode (version : ℕ) : ℕ := if version = 0 then 0x00 else 0x50 + version

def Payload.script : Payload → Bytes
  | .pubkeyHash hash => [0x76, 0xa9, 0x14] ++ hash.1 ++ [0x88, 0xac]
  | .scriptHash hash => [0xa9, 0x14] ++ hash.1 ++ [0x87]
  | .witness w => [UInt8.ofNat (opcode w.version), UInt8.ofNat w.program.length] ++ w.program

/-- `s` is the address of the payload on the network. -/
def Encodes (network : Network) (payload : Payload) (s : List Char) : Prop :=
  ∃ prefixes, NETWORK_PREFIXES network = some prefixes ∧
    match payload with
    | .pubkeyHash hash => s = base58Check (prefixes.p2pkhVersion :: hash.1)
    | .scriptHash hash => s = base58Check (prefixes.p2shVersion :: hash.1)
    | .witness w => SegwitText prefixes.bech32Hrp w s

/-! ## The networks -/

/-- What the two modules know of one network. -/
structure Known (network : Network) (r : Rules) (prefixes : ElectrumProtocol.Prefixes) : Prop where
  rules : rules network = some r
  prefixes : NETWORK_PREFIXES network = some prefixes

variable {network : Network} {r : Rules} {prefixes : ElectrumProtocol.Prefixes}

section

variable (h : Known network r prefixes)
include h

lemma Known.hrp : prefixes.bech32Hrp = r.hrp := by
  obtain ⟨hr, hp⟩ := h
  cases network <;> cases hr <;> cases hp <;> rfl

omit h in
lemma known_or_none (network : Network) :
    (∃ r prefixes, Known network r prefixes) ∨ rules network = none ∧ NETWORK_PREFIXES network = none := by
  cases network with
  | other name => exact .inr ⟨rfl, rfl⟩
  | _ => exact .inl ⟨_, _, rfl, rfl⟩

lemma Known.hrp_lower : ∀ c ∈ r.hrp, c.toNat < 128 ∧ c.toLower = c := by
  have ha : r.hrp.all (fun c => c.toNat < 128 && c.toLower = c) = true := by
    obtain ⟨hr, -⟩ := h
    cases network <;> cases hr <;> rfl
  intro c hc
  simpa using all_eq_true.1 ha c hc

/-- No segwit address starts like a Base58 address. -/
lemma Known.hrp_head :
    ∃ c rest, r.hrp = c :: rest ∧ ∀ d ∈ r.letters, d.toLower ≠ c ∧ d ≠ c := by
  have ha (c : Char) (hc : (r.letters.all fun d => d.toLower ≠ c && d ≠ c) = true) :
      ∀ d ∈ r.letters, d.toLower ≠ c ∧ d ≠ c := fun d hd => by simpa using all_eq_true.1 hc d hd
  obtain ⟨hr, -⟩ := h
  cases network <;> cases hr <;> exact ⟨_, _, rfl, ha _ rfl⟩

lemma Known.hrp_upper : ∃ c rest, r.hrp = c :: rest ∧ c.toUpper ≠ c := by
  obtain ⟨hr, -⟩ := h
  cases network <;> cases hr <;> exact ⟨_, _, rfl, by decide⟩

end

variable {version : UInt8}

lemma Known.letter (h : Known network r prefixes) {raw tail : Bytes} (hra : raw = version :: tail) (hc : Checked raw)
    (hv : version = prefixes.p2pkhVersion ∨ version = prefixes.p2shVersion) :
    ∃ c rest, base58 raw = c :: rest ∧ c ∈ r.letters := by
  have ht (hr : r.letters = ['m', 'n', '2']) (hv : version = 0x6F ∨ version = 0xC4) :
      ∃ c rest, base58 raw = c :: rest ∧ c ∈ r.letters := by
    rw [hr]
    rcases hv with rfl | rfl
    · obtain ⟨c, rest, heq, rfl | rfl⟩ := head_of_test_p2pkh hra hc
      · exact ⟨'m', rest, heq, by simp⟩
      · exact ⟨'n', rest, heq, by simp⟩
    · obtain ⟨rest, heq⟩ := head_of_test_p2sh hra hc
      exact ⟨'2', rest, heq, by simp⟩
  obtain ⟨hr, hp⟩ := h
  cases network with
  | other name => cases hr
  | bitcoin =>
    cases hr
    cases hp
    rcases hv with rfl | rfl
    · obtain ⟨rest, heq⟩ := head_of_zero hra
      exact ⟨'1', rest, heq, by simp⟩
    · obtain ⟨rest, heq⟩ := head_of_p2sh hra hc
      exact ⟨'3', rest, heq, by simp⟩
  | _ => cases hr; cases hp; exact ht rfl hv

/-! ## Segwit texts and the pattern -/

variable {s : List Char}

section

variable {hrp s : List Char} {w : Witness}

lemma mem_bech32 {data : List ℕ} (h : ∀ v ∈ data, v < 32) {c : Char} (hc : c ∈ data.map bech32Char) :
    c.toNat < 128 ∧ c.toLower = c ∧ segwitClass c = true ∧ c ≠ '\n' := by
  have ha : charset.all (fun c => c.toNat < 128 && c.toLower = c && segwitClass c && c ≠ '\n') = true := by decide
  obtain ⟨v, hv, rfl⟩ := mem_map.1 hc
  have hm : bech32Char v ∈ charset := getD_mem (h v hv)
  simpa [and_assoc] using all_eq_true.1 ha _ hm

lemma words_lt (w : Witness) {check : List ℕ} (hc : ∀ v ∈ check, v < 32) : ∀ v ∈ w.words ++ check, v < 32 := by
  intro v hv
  rcases mem_append.1 hv with hv | hv
  · rcases mem_cons.1 hv with rfl | hv
    · exact w.version_le.trans_lt (by decide)
    · exact Bolt12.Bech32.convert8to5_lt hv
  · exact hc v hv

lemma length_words (w : Witness) : w.words.length = 1 + (8 * w.program.length + 4) / 5 := by
  obtain ⟨-, pad, hp, hl, -⟩ := Bolt12.Bech32.groups_convert8to5 w.program
  rw [Witness.words, length_cons]
  omega

lemma SegwitText.lower_eq (h : SegwitText hrp w s) (hh : ∀ c ∈ hrp, c.toNat < 128 ∧ c.toLower = c)
    (unicodeLower : List Char → List Char) : lower unicodeLower s = s := by
  obtain ⟨check, -, hch, rfl, -⟩ := h.text
  have hal : ∀ c ∈ hrp ++ '1' :: (w.words ++ check).map bech32Char, c.toNat < 128 ∧ c.toLower = c := by
    intro c hc
    rcases mem_append.1 hc with hc | hc
    · exact hh c hc
    rcases mem_cons.1 hc with rfl | hc
    · decide
    · obtain ⟨ha, hl, -⟩ := mem_bech32 (words_lt w hch) hc
      exact ⟨ha, hl⟩
  have ha : isAscii (hrp ++ '1' :: (w.words ++ check).map bech32Char) = true := by
    rw [Bolt12.Bech32.isAscii, all_eq_true]
    exact fun c hc => decide_eq_true (hal c hc).1
  rw [lower, if_pos ha]
  exact (map_congr_left fun c hc => (hal c hc).2).trans (map_id _)

/-- The pattern leaves out the programs of less than eleven bytes. -/
lemma SegwitText.matchesSegwit_iff (h : SegwitText hrp w s) :
    matchesSegwit (hrp ++ ['1']) s = true ↔ 11 ≤ w.program.length := by
  obtain ⟨check, hsi, hch, rfl, -⟩ := h.text
  set tail := (w.words ++ check).map bech32Char with ht
  have hm : ∀ c ∈ tail, segwitClass c = true ∧ c ≠ '\n' := fun c hc => (mem_bech32 (words_lt w hch) hc).2.2
  have hle : tail.length = 7 + (8 * w.program.length + 4) / 5 := by
    rw [ht, length_map, length_append, length_words, hsi]
    omega
  have hla : tail.getLast? ≠ some '\n' := fun hl => (hm '\n' (mem_of_getLast? hl)).2 rfl
  have ha : tail.all segwitClass = true := all_eq_true.2 fun c hc => (hm c hc).1
  have hs : (hrp ++ ['1']).isPrefixOf (hrp ++ '1' :: tail) = true :=
    isPrefixOf_iff_prefix.2 ⟨tail, by simp⟩
  have hd : (hrp ++ '1' :: tail).drop (hrp ++ ['1']).length = tail := by
    rw [show hrp ++ '1' :: tail = (hrp ++ ['1']) ++ tail by simp, drop_left]
  have hf := w.le_forty
  rw [matchesSegwit, hs, hd, matchesTail, if_neg hla, ha, hle]
  simp
  omega

end

/-! ## The script side -/

section Case

variable {unicodeLower unicodeUpper : List Char → List Char} {address : String} {payload : Payload}

/-- The script side reads the address as the payload: a segwit text in one case is
read as such, whatever else it is. -/
inductive Reads (unicodeLower unicodeUpper : List Char → List Char) (prefixes : ElectrumProtocol.Prefixes)
    (s : List Char) : Payload → Prop
  | witness {w : Witness} (hcase : mixedCase unicodeLower unicodeUpper s = false)
      (htext : SegwitText prefixes.bech32Hrp w (lower unicodeLower s)) :
      Reads unicodeLower unicodeUpper prefixes s (.witness w)
  | pubkeyHash {hash : Hash160} (hnone : decodeSegwit unicodeLower unicodeUpper s = none)
      (htext : s = base58Check (prefixes.p2pkhVersion :: hash.1)) :
      Reads unicodeLower unicodeUpper prefixes s (.pubkeyHash hash)
  | scriptHash {hash : Hash160} (hnone : decodeSegwit unicodeLower unicodeUpper s = none)
      (htext : s = base58Check (prefixes.p2shVersion :: hash.1)) :
      Reads unicodeLower unicodeUpper prefixes s (.scriptHash hash)

lemma Known.versions_ne (h : Known network r prefixes) : prefixes.p2shVersion ≠ prefixes.p2pkhVersion := by
  obtain ⟨-, hp⟩ := h
  cases network <;> cases hp <;> decide

lemma decodeBase58check_of_hash (version : UInt8) (hash : Hash160) :
    decodeBase58check (base58Check (version :: hash.1)) = .ok (some (version, hash.1)) :=
  decodeBase58check_iff.2 ⟨hash.2, rfl⟩

lemma base58Check_ne_nil (hash : Hash160) : base58Check (version :: hash.1) ≠ [] := by
  have hl := (checked_append (show (version :: hash.1).length = 21 by simp [hash.2])).length_base58.1
  intro hn
  rw [base58Check] at hn
  rw [hn] at hl
  cases hl

lemma Reads.ne_nil (h : Reads unicodeLower unicodeUpper prefixes s payload) : s ≠ [] := by
  cases h with
  | witness hc ht =>
    rintro rfl
    have hd := decodeSegwit_iff.2 ⟨hc, _, rfl, rfl, ht⟩
    cases hd
  | pubkeyHash hn ht | scriptHash hn ht => exact ht ▸ base58Check_ne_nil _

/-- A script is returned exactly for an address that is read as a payload, and is
the script of that payload. -/
lemma script_iff (h : Known network r prefixes) {script : Bytes} :
    addressToScriptPubkey unicodeLower unicodeUpper address network = .ok script ↔
      ∃ payload, Reads unicodeLower unicodeUpper prefixes address.toList payload ∧ script = payload.script := by
  rw [addressToScriptPubkey]
  rw [h.prefixes]
  constructor
  · intro hok
    obtain ⟨-, hok⟩ := ite_passed hok
    cases hse : decodeSegwit unicodeLower unicodeUpper address.toList with
    | some decoded =>
      obtain ⟨hrp, version, program⟩ := decoded
      rw [hse] at hok
      dsimp only at hok
      obtain ⟨hh, hs⟩ := ite_passed hok
      obtain rfl := not_not.1 hh
      obtain ⟨hc, w, rfl, rfl, ht⟩ := decodeSegwit_iff.1 hse
      exact ⟨.witness w, .witness hc ht, (ok.inj hs).symm⟩
    | none =>
      rw [hse] at hok
      dsimp only at hok
      cases hb58 : decodeBase58check address.toList with
      | error e =>
        rw [hb58] at hok
        cases hok
      | ok decoded =>
        rw [hb58] at hok
        cases decoded with
        | none => cases hok
        | some decoded =>
          obtain ⟨version, hash⟩ := decoded
          obtain ⟨hl, ht⟩ := decodeBase58check_iff.1 hb58
          dsimp only at hok
          rcases ite_eq_iff.1 hok with ⟨rfl, hs⟩ | ⟨-, hre⟩
          · exact ⟨.pubkeyHash ⟨hash, hl⟩, .pubkeyHash hse ht, (ok.inj hs).symm⟩
          rcases ite_eq_iff.1 hre with ⟨rfl, hs⟩ | ⟨-, he⟩
          · exact ⟨.scriptHash ⟨hash, hl⟩, .scriptHash hse ht, (ok.inj hs).symm⟩
          · cases he
  · rintro ⟨payload, hr, rfl⟩
    have hne : address.toList ≠ [] := hr.ne_nil
    rw [if_neg hne]
    cases hr with
    | witness hc ht =>
      rw [decodeSegwit_iff.2 ⟨hc, _, rfl, rfl, ht⟩]
      exact if_neg (not_not.2 rfl)
    | pubkeyHash hn ht =>
      rw [hn, ht, decodeBase58check_of_hash]
      exact if_pos rfl
    | scriptHash hn ht =>
      rw [hn, ht, decodeBase58check_of_hash]
      dsimp only
      rw [if_neg h.versions_ne, if_pos rfl]
      rfl

/-! ## The validation -/

def Accepts (unicodeLower unicodeUpper : List Char → List Char) (network : Network) (address : String) : Prop :=
  validateBitcoinAddress unicodeLower unicodeUpper network address = .ok address

lemma accepts_iff (h : Known network r prefixes) :
    Accepts unicodeLower unicodeUpper network address ↔
      (matchesSegwit (r.hrp ++ ['1']) address.toList = true ∧
        validateSegwitAddress unicodeLower unicodeUpper r.hrp address.toList = true) ∨
      (matchesSegwit (r.hrp ++ ['1']) address.toList = false ∧ matchesBase58 r.letters address.toList = true ∧
        validateBase58check address.toList = true) := by
  rw [Accepts, validateBitcoinAddress, h.rules]
  dsimp only
  cases matchesSegwit (r.hrp ++ ['1']) address.toList with
  | true => cases validateSegwitAddress unicodeLower unicodeUpper r.hrp address.toList <;> simp
  | false =>
    cases matchesBase58 r.letters address.toList with
    | false => simp
    | true => cases validateBase58check address.toList <;> simp

lemma toNat_of_segwitClass {c : Char} (h : segwitClass c = true) : c.toNat < 128 := by
  have hz : c ≤ 'z' := by
    simp only [segwitClass, decide_eq_true_eq] at h
    rcases h with h | h | h | h | h
    · exact h.2
    all_goals exact le_trans h.2 (by decide)
  exact lt_of_le_of_lt (show c.toNat ≤ 'z'.toNat from hz) (by decide)

lemma lower_of_matches (h : Known network r prefixes) (hm : matchesSegwit (r.hrp ++ ['1']) s = true)
    (hca : mixedCase unicodeLower unicodeUpper s = false) : lower unicodeLower s = s := by
  rw [matchesSegwit, Bool.and_eq_true, matchesTail] at hm
  obtain ⟨hs, hta⟩ := hm
  obtain ⟨tail, rfl⟩ := isPrefixOf_iff_prefix.1 hs
  rw [drop_left] at hta
  simp only [Bool.and_eq_true] at hta
  have ht : ∀ c ∈ tail, c.toNat < 128 := by
    intro c hc
    have hal := all_eq_true.1 hta.1.1
    split at hal
    case isTrue hla =>
      obtain ⟨body, rfl⟩ : ∃ body, tail = body ++ ['\n'] :=
        ⟨tail.dropLast, (dropLast_append_getLast? _ hla).symm⟩
      rw [dropLast_concat] at hal
      rcases mem_append.1 hc with hc | hc
      · exact toNat_of_segwitClass (hal c hc)
      · rw [mem_singleton.1 hc]
        decide
    case isFalse => exact toNat_of_segwitClass (hal c hc)
  have ha : isAscii (r.hrp ++ ['1'] ++ tail) = true := by
    rw [Bolt12.Bech32.isAscii, all_eq_true]
    intro c hc
    apply decide_eq_true
    rcases mem_append.1 hc with hc | hc
    · rcases mem_append.1 hc with hc | hc
      · exact (h.hrp_lower c hc).1
      · rw [mem_singleton.1 hc]
        decide
    · exact ht c hc
  have hu : upper unicodeUpper (r.hrp ++ ['1'] ++ tail) ≠ r.hrp ++ ['1'] ++ tail := by
    rw [upper, if_pos ha]
    obtain ⟨c, rest, hc, hne⟩ := h.hrp_upper
    rw [hc]
    intro heq
    exact hne (cons.inj heq).1
  by_contra hl
  rw [mixedCase, decide_eq_false_iff_not] at hca
  exact hca ⟨hl, hu⟩

lemma not_matchesSegwit_of_letter (h : Known network r prefixes) {rest : List Char} {c : Char} (hs : s = c :: rest)
    (hc : c ∈ r.letters) : matchesSegwit (r.hrp ++ ['1']) s = false := by
  obtain ⟨d, hrp, hh, hne⟩ := h.hrp_head
  have hst : (r.hrp ++ ['1']).isPrefixOf s = false := by
    rw [hs, hh, cons_append, isPrefixOf_cons_cons, beq_eq_false_iff_ne.2 (Ne.symm (hne c hc).2), Bool.false_and]
  rw [matchesSegwit, hst, Bool.false_and]

lemma base58Check_cons (version : UInt8) (hash : Hash160) :
    Checked (version :: hash.1 ++ checksum (version :: hash.1)) := checked_append (by simp [hash.2])

lemma mixedCase_of_lower (h : lower unicodeLower s = s) : mixedCase unicodeLower unicodeUpper s = false := by
  simp [mixedCase, h]

/-- The validation accepts the segwit addresses of the network that are not too
short, and every Base58Check text with the right first character. -/
lemma accepts_iff_text (h : Known network r prefixes) :
    Accepts unicodeLower unicodeUpper network address ↔
      (∃ w, SegwitText r.hrp w address.toList ∧ 11 ≤ w.program.length) ∨
      ∃ (version : UInt8) (hash : Hash160) (c : Char) (rest : List Char),
        address.toList = base58Check (version :: hash.1) ∧ address.toList = c :: rest ∧ c ∈ r.letters := by
  rw [accepts_iff h]
  constructor
  · rintro (⟨hm, hse⟩ | ⟨-, hm, hb58⟩)
    · obtain ⟨version, program, hd⟩ := validateSegwitAddress_iff.1 hse
      obtain ⟨hca, w, -, -, ht⟩ := decodeSegwit_iff.1 hd
      rw [lower_of_matches h hm hca] at ht
      exact .inl ⟨w, ht, ht.matchesSegwit_iff.1 hm⟩
    · obtain ⟨raw, hch, ht⟩ := validateBase58check_iff.1 hb58
      rw [ht] at hm
      obtain ⟨c, rest, hs, hc⟩ := (hch.matchesBase58_iff r.letters).1 hm
      have hle : (raw.take 21).length = 21 := by rw [length_take, hch.length]; rfl
      obtain ⟨version, hash, hta⟩ := exists_cons_of_length_eq_add_one hle
      rw [hta, length_cons, Nat.add_right_cancel_iff] at hle
      refine .inr ⟨version, ⟨hash, hle⟩, c, rest, ?_, ht.trans hs, hc⟩
      rw [base58Check, ← hta, ← hch.eq_append]
      exact ht
  · rintro (⟨w, ht, hlo⟩ | ⟨version, hash, c, rest, ht, hs, hc⟩)
    · have hl := ht.lower_eq h.hrp_lower unicodeLower
      have hd : decodeSegwit unicodeLower unicodeUpper address.toList = some (r.hrp, w.version, w.program) :=
        decodeSegwit_iff.2 ⟨mixedCase_of_lower hl, w, rfl, rfl, hl.symm ▸ ht⟩
      exact .inl ⟨ht.matchesSegwit_iff.2 hlo, validateSegwitAddress_iff.2 ⟨_, _, hd⟩⟩
    · have hch := base58Check_cons version hash
      have hp := hch.matchesBase58_iff r.letters
      rw [← base58Check, ← ht] at hp
      exact .inr ⟨not_matchesSegwit_of_letter h hs hc, hp.2 ⟨c, rest, hs, hc⟩,
        validateBase58check_iff.2 ⟨_, hch, ht⟩⟩

/-! ## Agreement -/

/-- What the validation accepts has the script of the payload it encodes, and the
validation accepts every address with a script that is in lower case or Base58. -/
def Agree (unicodeLower unicodeUpper : List Char → List Char) (network : Network) (address : String) : Prop :=
  (Accepts unicodeLower unicodeUpper network address →
    ∃ payload, Encodes network payload address.toList ∧
      addressToScriptPubkey unicodeLower unicodeUpper address network = .ok payload.script) ∧
  (lower unicodeLower address.toList = address.toList ∨
      decodeSegwit unicodeLower unicodeUpper address.toList = none →
    ∀ script, addressToScriptPubkey unicodeLower unicodeUpper address network = .ok script →
      Accepts unicodeLower unicodeUpper network address)

/-- The network is a known one; a Base58Check text that starts like one of its
addresses has one of its version bytes and is not a segwit text of any kind; and a
segwit address of the network has a program of at least eleven bytes. -/
def Plain (unicodeLower unicodeUpper : List Char → List Char) (network : Network) (s : List Char) : Prop :=
  ∃ r prefixes, Known network r prefixes ∧
    (∀ (version : UInt8) (hash : Hash160) (c : Char) (rest : List Char),
      s = base58Check (version :: hash.1) → s = c :: rest → c ∈ r.letters →
        (version = prefixes.p2pkhVersion ∨ version = prefixes.p2shVersion) ∧
          ¬ (mixedCase unicodeLower unicodeUpper s = false ∧ ∃ hrp w, SegwitText hrp w (lower unicodeLower s))) ∧
    ∀ w, SegwitText prefixes.bech32Hrp w s → 11 ≤ w.program.length

lemma decodeSegwit_eq_none :
    decodeSegwit unicodeLower unicodeUpper s = none ↔
      ¬ (mixedCase unicodeLower unicodeUpper s = false ∧ ∃ hrp w, SegwitText hrp w (lower unicodeLower s)) := by
  constructor
  · rintro hn ⟨hc, hrp, w, ht⟩
    have hd := decodeSegwit_iff.2 ⟨hc, w, rfl, rfl, ht⟩
    rw [hn] at hd
    cases hd
  · intro hno
    cases hd : decodeSegwit unicodeLower unicodeUpper s with
    | none => rfl
    | some decoded =>
      obtain ⟨hc, w, -, -, ht⟩ := decodeSegwit_iff.1 hd
      exact absurd ⟨hc, _, w, ht⟩ hno

lemma not_segwit_of_letter (h : Known network r prefixes) {rest : List Char} {hash : Hash160} {c : Char} {w : Witness}
    (ht : s = base58Check (version :: hash.1)) (hs : s = c :: rest) (hc : c ∈ r.letters) :
    ¬ SegwitText prefixes.bech32Hrp w (lower unicodeLower s) := by
  intro hse
  obtain ⟨check, -, -, hl, -⟩ := hse.text
  obtain ⟨d, hrp, hh, hne⟩ := h.hrp_head
  have ha : isAscii s = true := by
    rw [ht]
    exact isAscii_map fun _ => Numeral.canon_lt (by decide)
  rw [lower, if_pos ha, hs, h.hrp, hh] at hl
  exact (hne c hc).1 (cons.inj hl).1

lemma encodes_of_reads (h : Known network r prefixes)
    (hr : Reads unicodeLower unicodeUpper prefixes address.toList payload)
    (hl : lower unicodeLower address.toList = address.toList ∨
      decodeSegwit unicodeLower unicodeUpper address.toList = none) :
    Encodes network payload address.toList := by
  refine ⟨prefixes, h.prefixes, ?_⟩
  cases hr with
  | witness hc ht =>
    rcases hl with hl | hn
    · exact hl ▸ ht
    · exact absurd ⟨hc, _, _, ht⟩ (decodeSegwit_eq_none.1 hn)
  | pubkeyHash hn ht | scriptHash hn ht => exact ht

lemma agree_of_plain (hpl : Plain unicodeLower unicodeUpper network address.toList) :
    Agree unicodeLower unicodeUpper network address := by
  obtain ⟨r, prefixes, h, hb58, hse⟩ := hpl
  constructor
  · intro ha
    rcases (accepts_iff_text h).1 ha with ⟨w, ht, -⟩ | ⟨version, hash, c, rest, ht, hs, hc⟩
    · have hl := ht.lower_eq h.hrp_lower unicodeLower
      rw [← h.hrp] at ht
      exact ⟨.witness w, ⟨prefixes, h.prefixes, ht⟩, (script_iff h).2
        ⟨_, .witness (mixedCase_of_lower hl) (hl.symm ▸ ht), rfl⟩⟩
    · obtain ⟨hve, hno⟩ := hb58 version hash c rest ht hs hc
      have hn := decodeSegwit_eq_none.2 hno
      rcases hve with rfl | rfl
      · exact ⟨.pubkeyHash hash, ⟨prefixes, h.prefixes, ht⟩, (script_iff h).2 ⟨_, .pubkeyHash hn ht, rfl⟩⟩
      · exact ⟨.scriptHash hash, ⟨prefixes, h.prefixes, ht⟩, (script_iff h).2 ⟨_, .scriptHash hn ht, rfl⟩⟩
  · intro hl script hsc
    obtain ⟨payload, hr, -⟩ := (script_iff h).1 hsc
    obtain ⟨prefixes', hp, he⟩ := encodes_of_reads h hr hl
    obtain rfl : prefixes = prefixes' := Option.some.inj (h.prefixes.symm.trans hp)
    have hle (version : UInt8) (hash : Hash160)
        (hv : version = prefixes.p2pkhVersion ∨ version = prefixes.p2shVersion)
        (ht : address.toList = base58Check (version :: hash.1)) :
        Accepts unicodeLower unicodeUpper network address := by
      obtain ⟨c, rest, hs, hc⟩ := h.letter rfl (base58Check_cons version hash) hv
      exact (accepts_iff_text h).2 (.inr ⟨version, hash, c, rest, ht, ht.trans hs, hc⟩)
    cases payload with
    | witness w => exact (accepts_iff_text h).2 (.inl ⟨w, h.hrp ▸ he, hse w he⟩)
    | pubkeyHash hash => exact hle _ hash (.inl rfl) he
    | scriptHash hash => exact hle _ hash (.inr rfl) he

lemma plain_of_agree (ha : Agree unicodeLower unicodeUpper network address) :
    Plain unicodeLower unicodeUpper network address.toList := by
  obtain ⟨hf, hb⟩ := ha
  obtain ⟨r, prefixes, h⟩ | ⟨hr, hp⟩ := known_or_none network
  case inr =>
    obtain ⟨payload, ⟨prefixes, hpr, -⟩, -⟩ := hf (by rw [Accepts, validateBitcoinAddress, hr])
    cases hp.symm.trans hpr
  refine ⟨r, prefixes, h, ?_, ?_⟩
  · intro version hash c rest ht hs hc
    obtain ⟨payload, -, hsc⟩ := hf ((accepts_iff_text h).2 (.inr ⟨version, hash, c, rest, ht, hs, hc⟩))
    obtain ⟨payload', hre, -⟩ := (script_iff h).1 hsc
    have hv {v : UInt8} {ha' : Hash160} (heq : address.toList = base58Check (v :: ha'.1)) : version = v := by
      have hd := decodeBase58check_of_hash version hash
      rw [← ht, heq, decodeBase58check_of_hash] at hd
      simp only [ok.injEq, Option.some.injEq, mk.injEq] at hd
      exact hd.1.symm
    cases hre with
    | witness hca hse => exact absurd hse (not_segwit_of_letter h ht hs hc)
    | pubkeyHash hn heq => exact ⟨.inl (hv heq), decodeSegwit_eq_none.1 hn⟩
    | scriptHash hn heq => exact ⟨.inr (hv heq), decodeSegwit_eq_none.1 hn⟩
  · intro w ht
    have hl := ht.lower_eq (h.hrp.symm ▸ h.hrp_lower) unicodeLower
    have hsc : addressToScriptPubkey unicodeLower unicodeUpper address network = .ok (Payload.witness w).script :=
      (script_iff h).2 ⟨_, .witness (mixedCase_of_lower hl) (hl.symm ▸ ht), rfl⟩
    rcases (accepts_iff_text h).1 (hb (.inl hl) _ hsc) with
      ⟨w', ht', hlo⟩ | ⟨version, hash, c, rest, hb58, hs, hc⟩
    · rw [h.hrp] at ht
      exact ht.matchesSegwit_iff.1 (ht'.matchesSegwit_iff.2 hlo)
    · exact absurd (hl.symm ▸ ht) (not_segwit_of_letter h hb58 hs hc)

end Case

/-- On which texts the two decoders agree. -/
theorem agree_iff (unicodeLower unicodeUpper : List Char → List Char) (network : Network) (address : String) :
    Agree unicodeLower unicodeUpper network address ↔ Plain unicodeLower unicodeUpper network address.toList :=
  ⟨plain_of_agree, agree_of_plain⟩

/-- Version 6, which is no version of the main network, but also starts with `3`. -/
def otherVersion : String := "3R2cuenjG5nFubqX9Wzuukdin2YfLYZyD1"

def shortProgram : String := "bc1sw50qgdz25j"

def shortWitness : Witness where
  version := 16
  program := [0x75, 0x1e]
  version_le := by decide
  two_le := by decide
  le_forty := by decide
  standard := by decide

lemma known_bitcoin : ∃ r prefixes, Known .bitcoin r prefixes ∧ r.hrp = ['b', 'c'] ∧ r.letters = ['1', '3'] ∧
    prefixes.bech32Hrp = ['b', 'c'] ∧ prefixes.p2pkhVersion = 0x00 ∧ prefixes.p2shVersion = 0x05 :=
  ⟨_, _, ⟨rfl, rfl⟩, rfl, rfl, rfl, rfl, rfl⟩

lemma segwitText_short : SegwitText ['b', 'c'] shortWitness shortProgram.toList := by
  have hg : Bolt12.Bech32.Groups [14, 20, 15, 0] shortWitness.program :=
    ⟨by decide, 4, by decide, by decide, by simp [ofWords, Nat.ofDigits, shortWitness]⟩
  have hw : shortWitness.words = [16, 14, 20, 15, 0] := by
    rw [Witness.words, (Bolt12.Bech32.groups_convert8to5 _).unique_left hg]
    rfl
  refine ⟨by decide, by decide, [8, 13, 2, 10, 20, 18], rfl, by decide, ?_, ?_⟩
  · rw [hw]
    decide
  · rw [hw]
    decide +kernel

/-- The validation accepts an address that has no script, and refuses one that has. -/
theorem decoders_disagree :
    Accepts id id .bitcoin otherVersion ∧ ¬ Agree id id .bitcoin otherVersion ∧
      ¬ Accepts id id .bitcoin shortProgram ∧ ¬ Agree id id .bitcoin shortProgram := by
  obtain ⟨r, prefixes, h, hh, hl, hb32, hp2pkh, hp2sh⟩ := known_bitcoin
  have ho : Accepts id id .bitcoin otherVersion := by
    rw [accepts_iff h, hh, hl]
    exact .inr ⟨by decide, by decide, by decide +kernel⟩
  have hs : ¬ Accepts id id .bitcoin shortProgram := by
    rw [accepts_iff h, hh, hl]
    have hse : matchesSegwit (['b', 'c'] ++ ['1']) shortProgram.toList = false := by decide
    have hb58 : matchesBase58 ['1', '3'] shortProgram.toList = false := by decide
    rw [hse, hb58]
    simp
  refine ⟨ho, ?_, hs, ?_⟩
  · rintro ⟨hf, -⟩
    obtain ⟨payload, -, hsc⟩ := hf ho
    obtain ⟨payload', hr, -⟩ := (script_iff h).1 hsc
    have hc : mixedCase id id otherVersion.toList = true := by decide
    have hd : decodeBase58check otherVersion.toList = .ok (some (0x06, List.replicate 20 0)) := by
      decide +kernel
    have hv {version : UInt8} {hash : Hash160} (heq : otherVersion.toList = base58Check (version :: hash.1)) :
        version = 0x06 := by
      rw [heq, decodeBase58check_of_hash] at hd
      simp only [ok.injEq, Option.some.injEq, mk.injEq] at hd
      exact hd.1
    cases hr with
    | witness hon ht =>
      rw [hc] at hon
      cases hon
    | pubkeyHash hn heq => exact absurd (hp2pkh.symm.trans (hv heq)) (by decide)
    | scriptHash hn heq => exact absurd (hp2sh.symm.trans (hv heq)) (by decide)
  · rintro ⟨-, hb⟩
    have ht := segwitText_short
    rw [← hb32] at ht
    have hlo := ht.lower_eq (h.hrp.symm ▸ h.hrp_lower) id
    apply hs
    exact hb (.inl hlo) _ ((script_iff h).2
      ⟨_, .witness (mixedCase_of_lower hlo) (hlo.symm ▸ ht), rfl⟩)

/-! ## One address for each script -/

lemma Witness.ext {w w' : Witness} (hv : w.version = w'.version) (hp : w.program = w'.program) :
    w = w' := by
  cases w
  cases w'
  cases hv
  cases hp
  rfl

/-- A witness program has one address: the words before the checksum determine it. -/
lemma SegwitText.unique {hrp t : List Char} {w : Witness} (hs : SegwitText hrp w s) (ht : SegwitText hrp w t) :
    s = t := by
  obtain ⟨check, hsi, hc, rfl, hsu⟩ := hs.text
  obtain ⟨check', hsi', hc', rfl, hsu'⟩ := ht.text
  have hsa : check = check' := by
    have hp : Polymod.polymod (hrpWords hrp ++ w.words ++ check) =
        Polymod.polymod (hrpWords hrp ++ w.words ++ check') := by
      rw [append_assoc, append_assoc, hsu, hsu']
    exact Polymod.checksum_unique (hsi.trans hsi'.symm) hsi.le hc hc' hp
  rw [hsa]

lemma Encodes.unique {payload : Payload} {t : List Char} (hs : Encodes network payload s)
    (ht : Encodes network payload t) : s = t := by
  obtain ⟨prefixes, hp, hs⟩ := hs
  obtain ⟨prefixes', hp', ht⟩ := ht
  obtain rfl := Option.some.inj (hp.symm.trans hp')
  cases payload with
  | pubkeyHash hash | scriptHash hash => exact Eq.trans hs (Eq.symm ht)
  | witness w => exact SegwitText.unique hs ht

section Case

variable {unicodeLower unicodeUpper : List Char → List Char} {network : Network}

end Case

end AgentWallet.Chain.Address
