import AgentWallet.Lib.Alphabet
import AgentWallet.Chain.ElectrumProtocol
/-!
# Base58Check texts

`base58` writes a byte string in base 58, a `1` for each leading zero byte. The
two decoders read it back: both accept exactly the texts of a byte, twenty bytes
and their checksum (`validateBase58check_iff`, `decodeBase58check_iff`). They
differ on a text of `1`s only, which has no valid checksum.
-/

namespace AgentWallet.Chain.Address

open AgentWallet.Lib AgentWallet.Lib.Numeral AgentWallet.Core.Validation List

def nats (raw : Bytes) : List ℕ := raw.map UInt8.toNat

def base58Char (d : ℕ) : Char := B58_ALPHABET.getD d '1'

def base58 (raw : Bytes) : List Char := (canon 58 (zeros (nats raw)) (value 256 (nats raw))).map base58Char

def base58Check (payload : Bytes) : List Char := base58 (payload ++ checksum payload)

variable {raw : Bytes}

lemma nats_lt {n : ℕ} (h : n ∈ nats raw) : n < 256 := by
  obtain ⟨x, -, rfl⟩ := mem_map.1 h
  exact x.toNat_lt

lemma nats_inj {raw' : Bytes} (h : nats raw = nats raw') : raw = raw' :=
  map_injective_iff.2 (fun _ _ he => UInt8.toNat_inj.1 he) h

lemma ofBE_eq_value (raw : Bytes) : ofBE raw = value 256 (nats raw) := by
  simp [ofBE, value, nats, foldl_map]

/-! ## The bytes of a number -/

lemma bitLength_bounds {n : ℕ} (hn : n ≠ 0) : 2 ^ (bitLength n - 1) ≤ n ∧ n < 2 ^ bitLength n ∧ 0 < bitLength n := by
  rw [bitLength, if_neg hn]
  exact ⟨Nat.log2_self_le hn, Nat.lt_log2_self, Nat.succ_pos _⟩

lemma nats_toBytes {n : ℕ} (hn : n ≠ 0) : nats (toBytes n) = canon 256 0 n := by
  obtain ⟨hlo, hh, hp⟩ := bitLength_bounds hn
  set w := (bitLength n + 7) / 8 with hw
  have hf : n < 256 ^ w := by
    apply hh.trans_le
    rw [show (256 : ℕ) = 2 ^ 8 from rfl, ← pow_mul]
    exact Nat.pow_le_pow_right (by decide) (by omega)
  have hl : 256 ^ (w - 1) ≤ n := by
    refine le_trans ?_ hlo
    rw [show (256 : ℕ) = 2 ^ 8 from rfl, ← pow_mul]
    exact Nat.pow_le_pow_right (by decide) (by omega)
  have hv : value 256 (nats (toBytes n)) = n := by
    rw [← ofBE_eq_value]
    exact ofBE_toBE w n hf
  have hz : zeros (nats (toBytes n)) = 0 := by
    have hle : (nats (toBytes n)).length = w := by simp [nats, toBytes, hw]
    cases hb : nats (toBytes n) with
    | nil => rfl
    | cons d ds =>
      apply zeros_of_head
      rintro rfl
      -- With a leading zero the number would fit in one byte less.
      have hds : ∀ e ∈ ds, e < 256 := fun e he => nats_lt (hb ▸ mem_cons_of_mem 0 he)
      have hlt := value_lt (by decide) hds
      rw [hb, value_zero_cons] at hv
      rw [hb, length_cons] at hle
      rw [hv, show ds.length = w - 1 by omega] at hlt
      omega
  have hby : ∀ d ∈ nats (toBytes n), d < 256 := fun _ => nats_lt
  have hc := eq_canon (by decide) hby
  rw [hz, hv] at hc
  exact hc.symm

/-! ## Digits and characters -/

lemma nodup_alphabet : B58_ALPHABET.Nodup := by decide

variable {ds : List ℕ} {s : List Char}

lemma mapM_alphabet : s.mapM (B58_ALPHABET.idxOf? ·) = some ds ↔ (∀ d ∈ ds, d < 58) ∧ ds.map base58Char = s :=
  mapM_idxOf? nodup_alphabet '1'

lemma leadingOnes_map (h : ∀ d ∈ ds, d < 58) : leadingOnes (ds.map base58Char) = zeros ds := by
  induction ds with
  | nil => rfl
  | cons d ds ih =>
    obtain ⟨hd, hds⟩ := forall_mem_cons.1 h
    rw [map_cons, leadingOnes, takeWhile_cons, zeros]
    by_cases h0 : d = 0
    · subst h0
      rw [if_pos rfl, ← ih hds]
      rfl
    · have hne : base58Char d ≠ '1' := fun he => h0 (getD_inj nodup_alphabet hd (by decide) he)
      rw [if_neg h0]
      simp [hne]

lemma isAscii_map (h : ∀ d ∈ ds, d < 58) : Bolt12.Bech32.isAscii (ds.map base58Char) = true := by
  have ha : B58_ALPHABET.all (·.toNat < 128) = true := rfl
  rw [Bolt12.Bech32.isAscii, all_eq_true]
  intro c hc
  obtain ⟨d, hd, rfl⟩ := mem_map.1 hc
  exact all_eq_true.1 ha _ (getD_mem (h d hd))

/-! ## Decoding -/

/-- `raw` is what the digits `ds` say, in base 256. -/
def Rebased (ds : List ℕ) (raw : Bytes) : Prop := nats raw = canon 256 (zeros ds) (value 58 ds)

lemma Rebased.base58 (h : Rebased ds raw) (hds : ∀ d ∈ ds, d < 58) : base58 raw = ds.map base58Char := by
  rw [Address.base58, h, zeros_canon, value_canon, eq_canon (by decide) hds]

lemma rebased_base58 (raw : Bytes) : Rebased (canon 58 (zeros (nats raw)) (value 256 (nats raw))) raw := by
  rw [Rebased, zeros_canon, value_canon, eq_canon (by decide) fun _ => nats_lt]

lemma rebased_replicate (hv : value 58 ds ≠ 0) : Rebased ds (List.replicate (zeros ds) 0 ++ toBytes (value 58 ds)) := by
  rw [Rebased, nats, map_append, map_replicate, ← nats, nats_toBytes hv]
  simp [canon]

lemma Rebased.unique {raw' : Bytes} (h : Rebased ds raw) (h' : Rebased ds raw') : raw = raw' :=
  nats_inj (h.trans h'.symm)

lemma b58decode_of_digits (hds : ∀ d ∈ ds, d < 58) (hne : ds ≠ []) : b58decode (ds.map base58Char) =
      .ok (some (List.replicate (zeros ds) 0 ++ if value 58 ds ≠ 0 then toBytes (value 58 ds) else [])) := by
  rw [b58decode, if_neg (by simpa using hne), if_neg (by simp [isAscii_map hds]), mapM_alphabet.2 ⟨hds, rfl⟩,
    leadingOnes_map hds]

lemma b58decode_ok (h : b58decode s = .ok (some raw)) : ∃ ds, (∀ d ∈ ds, d < 58) ∧ ds ≠ [] ∧ ds.map base58Char = s := by
  rw [b58decode] at h
  obtain ⟨hne, h⟩ := ite_passed h
  obtain ⟨-, h⟩ := ite_passed h
  cases hds : s.mapM (B58_ALPHABET.idxOf? ·) with
  | none =>
    rw [hds] at h
    cases h
  | some ds =>
    obtain ⟨ha, rfl⟩ := mapM_alphabet.1 hds
    exact ⟨ds, ha, fun hn => hne (by rw [hn]; rfl), rfl⟩

open ElectrumProtocol in
lemma accumulate_map (hds : ∀ d ∈ ds, d < 58) (n : ℕ) :
    accumulate n (ds.map base58Char) = .ok (some (ds.foldl (fun n d => n * 58 + d) n)) := by
  induction ds generalizing n with
  | nil => rfl
  | cons d ds ih =>
    obtain ⟨hd, hds⟩ := forall_mem_cons.1 hds
    have hdi : ∀ e ∈ [d], e < 58 := by simpa using hd
    have hlt : ¬ 128 ≤ (base58Char d).toNat := by simpa [Bolt12.Bech32.isAscii] using isAscii_map hdi
    have hi : ElectrumProtocol.B58_ALPHABET.idxOf? (base58Char d) = some d :=
      (idxOf?_eq_some_iff nodup_alphabet '1').2 ⟨hd, rfl⟩
    rw [map_cons, accumulate, if_neg hlt, hi]
    exact ih hds _

open ElectrumProtocol in
lemma accumulate_ok {n m : ℕ} (h : accumulate n s = .ok (some m)) :
    ∃ ds : List ℕ, (∀ d ∈ ds, d < 58) ∧ ds.map base58Char = s := by
  induction s generalizing n with
  | nil => exact ⟨[], by simp, rfl⟩
  | cons c s ih =>
    rw [accumulate] at h
    obtain ⟨-, h⟩ := ite_passed h
    cases hi : ElectrumProtocol.B58_ALPHABET.idxOf? c with
    | none =>
      rw [hi] at h
      cases h
    | some d =>
      rw [hi] at h
      obtain ⟨hd, hc⟩ := (idxOf?_eq_some_iff nodup_alphabet '1').1 hi
      obtain ⟨ds, hds, rfl⟩ := ih h
      exact ⟨d :: ds, forall_mem_cons.2 ⟨hd, hds⟩, by rw [map_cons, ← hc]; rfl⟩

open ElectrumProtocol in
lemma b58Decode_of_digits (hds : ∀ d ∈ ds, d < 58) (hne : ds ≠ []) : b58Decode (ds.map base58Char) =
      .ok (some (List.replicate (zeros ds) 0 ++ if value 58 ds ≠ 0 then toBytes (value 58 ds) else [0])) := by
  rw [b58Decode, if_neg (by simpa using hne), accumulate_map hds, leadingOnes_map hds]
  change Except.ok (some (List.replicate (zeros ds) 0 ++
    toBE (if (bitLength (value 58 ds) + 7) / 8 = 0 then 1 else (bitLength (value 58 ds) + 7) / 8) (value 58 ds))) = _
  by_cases hv : value 58 ds = 0
  · rw [hv]
    rfl
  have hw : (bitLength (value 58 ds) + 7) / 8 ≠ 0 := by
    have := (bitLength_bounds hv).2.2
    omega
  rw [if_neg hw, if_pos hv, toBytes]

open ElectrumProtocol in
lemma b58Decode_ok (h : b58Decode s = .ok (some raw)) : ∃ ds, (∀ d ∈ ds, d < 58) ∧ ds ≠ [] ∧ ds.map base58Char = s := by
  rw [b58Decode] at h
  obtain ⟨hne, h⟩ := ite_passed h
  obtain ⟨n, hn, h⟩ := bind_eq_ok.1 h
  cases n with
  | none => cases h
  | some n =>
    obtain ⟨ds, hds, rfl⟩ := accumulate_ok hn
    exact ⟨ds, hds, fun hni => hne (by rw [hni]; rfl), rfl⟩

/-! ## Texts with a checksum -/

/-- A version byte, twenty bytes and their checksum. -/
structure Checked (raw : Bytes) : Prop where
  length : raw.length = 25
  sum : raw.drop 21 = checksum (raw.take 21)

lemma length_checksum (payload : Bytes) : (checksum payload).length = 4 := by
  simp [checksum, Sha256.length_sha256]

lemma checked_append {payload : Bytes} (h : payload.length = 21) : Checked (payload ++ checksum payload) where
  length := by rw [length_append, h, length_checksum]
  sum := by rw [drop_left' h, take_left' h]

lemma Checked.eq_append (h : Checked raw) : raw = raw.take 21 ++ checksum (raw.take 21) := by
  rw [← h.sum, take_append_drop]

lemma checksum_zeros : checksum (List.replicate 21 0) = [0x94, 0xa0, 0x09, 0x11] := by decide +kernel

lemma not_checked_zeros (n : ℕ) : ¬ Checked (List.replicate n 0) := by
  rintro ⟨hl, hs⟩
  rw [length_replicate] at hl
  subst hl
  rw [drop_replicate, take_replicate, show min 21 25 = 21 from rfl, checksum_zeros] at hs
  cases hs

lemma Checked.value_ne_zero (h : Checked raw) : value 256 (nats raw) ≠ 0 := by
  intro hv
  have hz : raw = List.replicate raw.length 0 := by
    apply nats_inj
    rw [eq_replicate_of_value (by decide) (fun _ => nats_lt) hv]
    simp [nats]
  rw [hz] at h
  exact not_checked_zeros _ h

/-- The common part of the two decoders: what they return for a text of digits,
up to one zero byte for a text of `1`s. -/
def Decodes (decode : List Char → Except UnicodeEncodeError (Option Bytes)) : Prop :=
  (∀ s raw, decode s = .ok (some raw) → ∃ ds, (∀ d ∈ ds, d < 58) ∧ ds ≠ [] ∧ ds.map base58Char = s) ∧
    ∃ n, ∀ ds, (∀ d ∈ ds, d < 58) → ds ≠ [] → decode (ds.map base58Char) =
      .ok (some (List.replicate (zeros ds) 0 ++
        if value 58 ds ≠ 0 then toBytes (value 58 ds) else List.replicate n 0))

lemma decodes_b58decode : Decodes b58decode :=
  ⟨fun _ _ => b58decode_ok, 0, fun _ => b58decode_of_digits⟩

lemma decodes_b58Decode : Decodes ElectrumProtocol.b58Decode :=
  ⟨fun _ _ => b58Decode_ok, 1, fun _ => b58Decode_of_digits⟩

/-- A decoder returns a byte string with a valid checksum exactly for its text. -/
lemma Decodes.checked_iff {decode : List Char → Except UnicodeEncodeError (Option Bytes)} (hde : Decodes decode)
    (hr : Checked raw) : decode s = .ok (some raw) ↔ s = base58 raw := by
  obtain ⟨hd, n, hof⟩ := hde
  constructor
  · intro h
    obtain ⟨ds, hds, hne, rfl⟩ := hd s raw h
    rw [hof ds hds hne, Except.ok.injEq, Option.some.injEq] at h
    by_cases hv : value 58 ds = 0
    · rw [if_neg (not_not.2 hv), replicate_append_replicate] at h
      exact absurd (h ▸ hr) (not_checked_zeros _)
    · rw [if_pos hv] at h
      exact (Rebased.base58 (h ▸ rebased_replicate hv) hds).symm
  · rintro rfl
    set ds := canon 58 (zeros (nats raw)) (value 256 (nats raw)) with hdsdef
    have hds : ∀ d ∈ ds, d < 58 := fun _ => canon_lt (by decide)
    have hv : value 58 ds ≠ 0 := by
      rw [hdsdef, value_canon]
      exact hr.value_ne_zero
    have hne : ds ≠ [] := fun hn => hv (by rw [hn]; rfl)
    have hs := (rebased_replicate hv).unique (rebased_base58 raw)
    rw [base58, hof ds hds hne, if_pos hv, hs]

lemma validateBase58check_iff : validateBase58check s = true ↔ ∃ raw, Checked raw ∧ s = base58 raw := by
  rw [validateBase58check]
  constructor
  · intro h
    cases hr : b58decode s with
    | error e =>
      rw [hr] at h
      cases h
    | ok raw =>
      rw [hr] at h
      cases raw with
      | none => cases h
      | some raw =>
        obtain ⟨hl, h⟩ := ite_passed h
        have hl : raw.length = 25 := not_not.1 hl
        rw [hl] at h
        have hc : Checked raw := ⟨hl, of_decide_eq_true h⟩
        exact ⟨raw, hc, (decodes_b58decode.checked_iff hc).1 hr⟩
  · rintro ⟨raw, hc, hs⟩
    rw [(decodes_b58decode.checked_iff hc).2 hs]
    have hl := hc.length
    simp [hl, hc.sum]

variable {version : UInt8}

lemma decodeBase58check_iff {payload : Bytes} : ElectrumProtocol.decodeBase58check s = .ok (some (version, payload)) ↔
      payload.length = 20 ∧ s = base58Check (version :: payload) := by
  rw [ElectrumProtocol.decodeBase58check]
  constructor
  · intro h
    obtain ⟨raw, hr, h⟩ := bind_eq_ok.1 h
    cases raw with
    | none => cases h
    | some raw =>
      obtain ⟨-, h⟩ := ite_passed h
      obtain ⟨hsu, h⟩ := ite_passed h
      obtain ⟨hl, h⟩ := ite_passed h
      rw [not_not] at hsu hl
      have hl25 : raw.length = 25 := by
        rw [length_take] at hl
        omega
      rw [hl25] at hsu hl h
      have hc : Checked raw := ⟨hl25, hsu.symm⟩
      have hs := (decodes_b58Decode.checked_iff hc).1 hr
      cases ht : raw.take 21 with
      | nil =>
        rw [ht] at hl
        cases hl
      | cons v p =>
        rw [show 25 - 4 = 21 from rfl, ht] at h hl
        obtain ⟨rfl, rfl⟩ : v = version ∧ p = payload := by simpa using h
        refine ⟨by simpa using hl, ?_⟩
        rw [base58Check, ← ht, ← hc.eq_append]
        exact hs
  · rintro ⟨hl, rfl⟩
    have hp : (version :: payload).length = 21 := by simp [hl]
    have hc := checked_append hp
    refine bind_eq_ok.2 ⟨_, (decodes_b58Decode.checked_iff hc).2 rfl, ?_⟩
    have ht : (version :: payload ++ checksum (version :: payload)).take 21 = version :: payload :=
      take_left' hp
    have hsu := hc.sum
    rw [ht] at hsu
    simp only [hc.length, show 25 - 4 = 21 from rfl, ht, hsu, hp]
    rw [if_neg (by decide), if_neg (by simp), if_neg (by decide)]
    rfl

/-! ## Length and first character -/

lemma mem_base58 {c : Char} (h : c ∈ base58 raw) : base58Class c = true ∧ c ≠ '\n' := by
  have ha : B58_ALPHABET.all (fun c => base58Class c && c ≠ '\n') = true := by decide
  obtain ⟨d, hd, rfl⟩ := mem_map.1 h
  have hm : base58Char d ∈ B58_ALPHABET := getD_mem (canon_lt (by decide) hd)
  simpa using all_eq_true.1 ha _ hm

lemma length_base58 (raw : Bytes) :
    (base58 raw).length = zeros (nats raw) + (Nat.digits 58 (value 256 (nats raw))).length := by
  rw [base58, length_map, length_canon]

lemma length_nats_eq (raw : Bytes) :
    raw.length = zeros (nats raw) + (Nat.digits 256 (value 256 (nats raw))).length := by
  rw [← length_canon, eq_canon (by decide) fun _ => nats_lt, nats, length_map]

lemma take_eq_replicate (hds : ∀ d ∈ ds, d < 256) {m : ℕ} (h : m ≤ zeros ds) : ds.take m = List.replicate m 0 := by
  rw [← eq_canon (by decide) hds, canon, take_append_of_le_length (by simpa using h), take_replicate,
    Nat.min_eq_left h]

lemma Checked.value_of_zeros (h : Checked raw) (hz : 21 ≤ zeros (nats raw)) : value 256 (nats raw) = 0x94a00911 := by
  have ht : raw.take 21 = List.replicate 21 0 := by
    apply nats_inj
    rw [nats, map_take, ← nats, take_eq_replicate (fun _ => nats_lt) hz]
    simp [nats]
  rw [h.eq_append, ht, checksum_zeros]
  decide

lemma Checked.length_base58 (h : Checked raw) : 26 ≤ (base58 raw).length ∧ (base58 raw).length ≤ 35 := by
  have hle := length_nats_eq raw
  rw [h.length] at hle
  rw [Address.length_base58]
  have hv := h.value_of_zeros
  set n := value 256 (nats raw) with hn
  set k := (Nat.digits 256 n).length with hk
  have hlo : ∀ k ≤ 25, 5 ≤ k → 58 ^ k ≤ 256 ^ (k - 1) := by decide
  have hh : ∀ k ≤ 25, 256 ^ k ≤ 58 ^ (k + 10) := by decide
  have hm : k < (Nat.digits 58 n).length := by
    rw [Nat.lt_digits_length_iff (by decide)]
    by_cases hf : 5 ≤ k
    · apply (hlo k (by omega) hf).trans
      exact (Nat.lt_digits_length_iff (by decide) n).1 (by omega)
    · rw [hv (by omega)]
      exact (Nat.pow_le_pow_right (by decide) (by omega : k ≤ 4)).trans (by decide)
  have hl : (Nat.digits 58 n).length ≤ k + 10 := by
    rw [Nat.digits_length_le_iff (by decide)]
    exact (Nat.lt_base_pow_length_digits (by decide)).trans_le (hh k (by omega))
  omega

variable {tail : Bytes}

lemma head_base58 (len low high : ℕ) (hlo : low * 58 ^ len ≤ value 256 (nats raw))
    (hh : value 256 (nats raw) < high * 58 ^ len) (hlo1 : 1 ≤ low) (hh58 : high ≤ 58)
    (hz : zeros (nats raw) = 0) : ∃ d tail, low ≤ d ∧ d < high ∧ base58 raw = base58Char d :: tail := by
  set n := value 256 (nats raw) with hn
  have hp : 0 < 58 ^ len := by positivity
  have hl : (canon 58 0 n).length = len + 1 := by
    rw [length_canon, Nat.zero_add]
    apply le_antisymm
    · rw [Nat.digits_length_le_iff (by decide), pow_succ]
      nlinarith
    · apply (Nat.lt_digits_length_iff (by decide) n).2
      nlinarith
  cases hds : canon 58 0 n with
  | nil =>
    rw [hds] at hl
    cases hl
  | cons d ds =>
    rw [hds, length_cons, Nat.add_right_cancel_iff] at hl
    have hds58 : ∀ e ∈ ds, e < 58 := fun e he => canon_lt (by decide) (hds ▸ mem_cons_of_mem d he)
    have hv := value_canon 58 0 n
    have hr := value_lt (by decide) hds58
    rw [hds, value_cons, hl] at hv
    rw [hl] at hr
    refine ⟨d, ds.map base58Char, ?_, ?_, ?_⟩
    · by_contra hd
      have hle : (d + 1) * 58 ^ len ≤ low * 58 ^ len := Nat.mul_le_mul_right _ (by omega)
      rw [Nat.add_mul] at hle
      omega
    · exact Nat.lt_of_mul_lt_mul_right (a := 58 ^ len) (by omega)
    · rw [base58, hz, ← hn, hds, map_cons]

lemma value_bounds (hr : raw = version :: tail) (h : Checked raw) :
    version.toNat * 256 ^ 24 ≤ value 256 (nats raw) ∧ value 256 (nats raw) < (version.toNat + 1) * 256 ^ 24 := by
  have hl : (nats tail).length = 24 := by
    have := h.length
    rw [hr, length_cons] at this
    simpa [nats] using this
  have ht := value_lt (by decide) (fun _ => nats_lt : ∀ n ∈ nats tail, n < 256)
  have hv : value 256 (nats raw) = version.toNat * 256 ^ 24 + value 256 (nats tail) := by
    rw [hr, nats, map_cons, ← nats, value_cons, hl]
  rw [hl] at ht
  omega

lemma zeros_of_version (hr : raw = version :: tail) (hv : version ≠ 0) : zeros (nats raw) = 0 := by
  rw [hr, nats, map_cons]
  apply zeros_of_head
  rw [ne_eq, ← UInt8.toNat_zero, UInt8.toNat_inj]
  exact hv

lemma head_of_zero (hr : raw = 0x00 :: tail) : ∃ rest, base58 raw = '1' :: rest := by
  have hz : zeros (nats raw) = zeros (nats tail) + 1 := by
    rw [hr, nats, map_cons, zeros, if_pos (by rfl)]
    rfl
  rw [base58, hz, canon, replicate_succ]
  exact ⟨_, rfl⟩

lemma head_of_version (len low high : ℕ) (hr : raw = version :: tail) (h : Checked raw) (hv : version ≠ 0)
    (hl : low * 58 ^ len ≤ version.toNat * 256 ^ 24) (hh : (version.toNat + 1) * 256 ^ 24 ≤ high * 58 ^ len)
    (hl1 : 1 ≤ low) (hh58 : high ≤ 58) : ∃ d rest, low ≤ d ∧ d < high ∧ base58 raw = base58Char d :: rest := by
  obtain ⟨hge, hlt⟩ := value_bounds hr h
  exact head_base58 len low high (hl.trans hge) (hlt.trans_le hh) hl1 hh58 (zeros_of_version hr hv)

lemma head_of_p2sh (hr : raw = 0x05 :: tail) (h : Checked raw) : ∃ rest, base58 raw = '3' :: rest := by
  obtain ⟨d, rest, hd, hd', heq⟩ := head_of_version 33 2 3 hr h (by decide) (by decide) (by decide) (by decide)
    (by decide)
  obtain rfl : d = 2 := by omega
  exact ⟨rest, heq⟩

lemma head_of_test_p2pkh (hr : raw = 0x6F :: tail) (h : Checked raw) :
    ∃ c rest, base58 raw = c :: rest ∧ (c = 'm' ∨ c = 'n') := by
  obtain ⟨d, rest, hd, hd', heq⟩ := head_of_version 33 44 46 hr h (by decide) (by decide) (by decide) (by decide)
    (by decide)
  obtain rfl | rfl : d = 44 ∨ d = 45 := by omega
  · exact ⟨'m', rest, heq, .inl rfl⟩
  · exact ⟨'n', rest, heq, .inr rfl⟩

lemma head_of_test_p2sh (hr : raw = 0xC4 :: tail) (h : Checked raw) : ∃ rest, base58 raw = '2' :: rest := by
  obtain ⟨d, rest, hd, hd', heq⟩ := head_of_version 34 1 2 hr h (by decide) (by decide) (by decide) (by decide)
    (by decide)
  obtain rfl : d = 1 := by omega
  exact ⟨rest, heq⟩

lemma Checked.matchesBase58_iff (h : Checked raw) (letters : List Char) :
    matchesBase58 letters (base58 raw) = true ↔ ∃ c rest, base58 raw = c :: rest ∧ c ∈ letters := by
  obtain ⟨hlo, hh⟩ := h.length_base58
  have hm : ∀ c ∈ base58 raw, base58Class c = true ∧ c ≠ '\n' := fun _ => mem_base58
  cases hs : base58 raw with
  | nil =>
    rw [hs] at hlo
    cases hlo
  | cons c rest =>
    rw [hs] at hlo hh hm
    rw [length_cons] at hlo hh
    have hla : rest.getLast? ≠ some '\n' := fun hl =>
      (hm '\n' (mem_cons_of_mem c (mem_of_getLast? hl))).2 rfl
    have ha : rest.all base58Class = true :=
      all_eq_true.2 fun d hd => (hm d (mem_cons_of_mem c hd)).1
    have ht : matchesTail base58Class 25 34 rest = true := by
      rw [matchesTail, if_neg hla, ha]
      simp
      omega
    simp [matchesBase58, ht]

end AgentWallet.Chain.Address
