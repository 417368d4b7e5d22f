import AgentWallet.Chain.Base58
/-!
# Segwit addresses

A segwit address is a human-readable part, the separator, the witness version,
the groups of five bits of the witness program and a checksum. Both decoders
accept exactly these texts, in lower case or in upper case
(`decodeSegwit_iff`, `validateSegwitAddress_iff`).
-/

namespace AgentWallet.Chain.Address

open AgentWallet.Lib AgentWallet.Core.Validation List
open AgentWallet.Bolt12.Bech32 (lower rfind rfind_of_append rfind_eq_some convert8to5 convert5to8 charset
  nodup_charset Whole convert5to8_eq_ok)

def bech32Char (v : ℕ) : Char := charset.getD v 'q'

/-- A witness version and program that an address can carry. -/
structure Witness where
  version : ℕ
  program : Bytes
  version_le : version ≤ 16
  two_le : 2 ≤ program.length
  le_forty : program.length ≤ 40
  standard : version = 0 → program.length = 20 ∨ program.length = 32

/-- bech32 for version 0, bech32m for the others. -/
def checksumConst (version : ℕ) : ℕ := if version = 0 then BECH32_CONST else BECH32M_CONST

def Witness.words (w : Witness) : List ℕ := w.version :: convert8to5 w.program

/-- `s` is the lower-case address of `w`. -/
structure SegwitText (hrp : List Char) (w : Witness) (s : List Char) : Prop where
  named : hrp ≠ []
  short : s.length ≤ 90
  text : ∃ check, check.length = 6 ∧ (∀ v ∈ check, v < 32) ∧
    s = hrp ++ '1' :: (w.words ++ check).map bech32Char ∧
    Polymod.polymod (hrpWords hrp ++ (w.words ++ check)) = checksumConst w.version

/-! ## Regrouping -/

variable {d : List ℕ}

lemma foldlM_pushBits {s s' : Regroup} :
    d.foldlM (pushBits 5 8) s = some s' ↔ (∀ v ∈ d, v < 2 ^ 5) ∧ d.foldl (Regroup.push 5 8) s = s' := by
  induction d generalizing s with
  | nil =>
    rw [foldlM_nil, foldl_nil]
    simp
  | cons v d ih =>
    have hf : v >>> 5 ≠ 0 ↔ ¬ v < 2 ^ 5 := by
      rw [Nat.shiftRight_eq_div_pow, not_lt, Nat.div_ne_zero_iff]
      simp
    rw [foldlM_cons, forall_mem_cons, foldl_cons, and_assoc, ← ih, pushBits]
    by_cases hv : v < 2 ^ 5
    · rw [if_neg (by rw [hf]; exact not_not.2 hv)]
      exact (and_iff_right hv).symm
    · rw [if_pos (hf.2 hv)]
      exact ⟨fun h => (by cases h), fun h => absurd h.1 hv⟩

lemma shifted_pad {acc bits : ℕ} (h : bits ≤ 8) : (acc <<< (8 - bits)) &&& 255 = 0 ↔ acc % 2 ^ bits = 0 := by
  rw [show 255 = 2 ^ 8 - 1 from rfl, Nat.and_two_pow_sub_one_eq_mod, Nat.shiftLeft_eq]
  have hp : 2 ^ 8 = 2 ^ bits * 2 ^ (8 - bits) := by rw [← pow_add, Nat.add_sub_cancel' h]
  rw [hp, Nat.mul_mod_mul_right]
  simp

lemma convertbits_eq_some {out : List ℕ} : convertbits d 5 8 false = some out ↔ ∃ s, Whole d s ∧ out = s.out := by
  rw [convertbits]
  constructor
  · intro h
    cases hs : d.foldlM (pushBits 5 8) {} with
    | none =>
      rw [hs] at h
      cases h
    | some s =>
      rw [hs] at h
      obtain ⟨hd, hst⟩ := foldlM_pushBits.1 hs
      rcases ite_eq_iff.1 h with ⟨hf, -⟩ | ⟨-, h⟩
      · cases hf
      obtain ⟨hba, h⟩ := ite_passed h
      obtain ⟨hb, hp⟩ := not_or.1 hba
      rw [not_le] at hb
      rw [not_not] at hp
      exact ⟨s, ⟨hd, hst, hb, (shifted_pad (by omega)).1 hp⟩, (Option.some.inj h).symm⟩
  · rintro ⟨s, ⟨hd, hst, hb, hp⟩, rfl⟩
    rw [foldlM_pushBits.2 ⟨hd, hst⟩]
    have hz : (s.acc <<< (8 - s.bits)) &&& 255 = 0 := (shifted_pad (by omega)).2 hp
    simp [hb, hz]

/-- `convertbits` from five to eight bits inverts the regrouping of a byte string. -/
lemma convertbits_iff {out : List ℕ} :
    convertbits d 5 8 false = some out ↔ ∃ p : Bytes, out = nats p ∧ convert8to5 p = d := by
  simp only [← Bolt12.Bech32.convert5to8_eq_ok_iff, convert5to8_eq_ok, convertbits_eq_some]
  constructor
  · rintro ⟨s, h, rfl⟩
    exact ⟨_, h.nats_out.symm, s, h, rfl⟩
  · rintro ⟨p, rfl, s, h, rfl⟩
    exact ⟨s, h, h.nats_out⟩

/-! ## The parts of a text -/

structure Parts (hrp : List Char) (data : List ℕ) (s : List Char) : Prop where
  named : hrp ≠ []
  six : 6 ≤ data.length
  words : ∀ v ∈ data, v < 32
  text : s = hrp ++ '1' :: data.map bech32Char

variable {data : List ℕ}

lemma mapM_charset {s : List Char} :
    s.mapM (charset.idxOf? ·) = some data ↔ (∀ v ∈ data, v < 32) ∧ data.map bech32Char = s :=
  mapM_idxOf? nodup_charset 'q'

lemma one_not_mem (h : ∀ v ∈ data, v < 32) : '1' ∉ data.map bech32Char := by
  intro hm
  obtain ⟨v, hv, heq⟩ := mem_map.1 hm
  have hin : bech32Char v ∈ charset := getD_mem (h v hv)
  rw [heq] at hin
  exact absurd hin (by decide)

lemma parts_iff {hrp s : List Char} :
    Parts hrp data s ↔ ∃ pos, rfind '1' s = some pos ∧ ¬ pos < 1 ∧ ¬ pos + 7 > s.length ∧ hrp = s.take pos ∧
      (s.drop (pos + 1)).mapM (charset.idxOf? ·) = some data := by
  constructor
  · rintro ⟨hne, hs, hw, rfl⟩
    have hp : 0 < hrp.length := length_pos_iff.2 hne
    have hd : (hrp ++ '1' :: data.map bech32Char).drop (hrp.length + 1) = data.map bech32Char := by simp
    refine ⟨hrp.length, rfind_of_append (one_not_mem hw), by omega, ?_, by simp, ?_⟩
    · simp
      omega
    · rw [hd]
      exact mapM_charset.2 ⟨hw, rfl⟩
  · rintro ⟨pos, hf, hp, hl, rfl, hda⟩
    obtain ⟨hw, hc⟩ := mapM_charset.1 hda
    have ht := rfind_eq_some hf
    have hdat : data.length = s.length - (pos + 1) := by
      rw [← length_drop, ← hc, length_map]
    refine ⟨?_, by omega, hw, ?_⟩
    · intro hn
      have := congrArg List.length hn
      rw [length_take, length_nil] at this
      omega
    · rw [hc]
      exact ht

lemma take_checked {groups check : List ℕ} (h : check.length = 6) :
    (groups ++ check).take ((groups ++ check).length - 6) = groups := by
  rw [length_append, h, Nat.add_sub_cancel, take_left]

/-! ## The two decoders -/

section Case

variable {unicodeLower unicodeUpper : List Char → List Char} {s hrp : List Char}

lemma bech32Decode_iff {encoding : ℕ} :
    bech32Decode unicodeLower unicodeUpper s = some (hrp, data, encoding) ↔
      mixedCase unicodeLower unicodeUpper s = false ∧ (lower unicodeLower s).length ≤ 90 ∧
        ∃ full, Parts hrp full (lower unicodeLower s) ∧ bech32VerifyChecksum hrp full = some encoding ∧
          data = full.take (full.length - 6) := by
  simp only [parts_iff]
  rw [bech32Decode]
  constructor
  · intro h
    obtain ⟨hc, h⟩ := ite_passed h
    dsimp only at h
    split at h
    · cases h
    rename_i pos hfi
    obtain ⟨hp, h⟩ := ite_passed h
    simp only [not_or, not_lt] at hp
    split at h
    · cases h
    rename_i full hf
    split at h
    · cases h
    rename_i encoding' he
    simp only [Option.some.injEq, Prod.mk.injEq] at h
    obtain ⟨rfl, rfl, rfl⟩ := h
    refine ⟨by simpa using hc, hp.2.2, full, ⟨pos, hfi, by omega, by omega, rfl, hf⟩, he, rfl⟩
  · rintro ⟨hc, hl, full, ⟨pos, hfi, hp, hp7, rfl, hf⟩, he, rfl⟩
    rw [hc, if_neg Bool.false_ne_true]
    dsimp only
    rw [hfi]
    dsimp only
    rw [if_neg (by omega)]
    have hf' : List.mapM (fun x => BECH32_CHARSET.idxOf? x) ((lower unicodeLower s).drop (pos + 1)) = some full := hf
    rw [hf']
    dsimp only
    rw [he]

lemma decodeSegwit_eq_some {version : ℕ} {program : Bytes} :
    ElectrumProtocol.decodeSegwit unicodeLower unicodeUpper s = some (hrp, version, program) ↔
      mixedCase unicodeLower unicodeUpper s = false ∧ (lower unicodeLower s).length ≤ 90 ∧
        ∃ rest, Parts hrp (version :: rest) (lower unicodeLower s) ∧ version ≤ 16 ∧
          Polymod.polymod (hrpWords hrp ++ version :: rest) = checksumConst version ∧
          convertbits (rest.take (rest.length - 6)) 5 8 false = some (nats program) ∧
          2 ≤ program.length ∧ program.length ≤ 40 ∧
          (version = 0 → program.length = 20 ∨ program.length = 32) := by
  simp only [parts_iff]
  rw [ElectrumProtocol.decodeSegwit]
  constructor
  · intro h
    obtain ⟨-, h⟩ := ite_passed h
    obtain ⟨hc, h⟩ := ite_passed h
    obtain ⟨hl, h⟩ := ite_passed h
    split at h
    · cases h
    rename_i pos hf
    obtain ⟨hp, h⟩ := ite_passed h
    dsimp only at h
    split at h
    · cases h
    rename_i data hda
    obtain ⟨hsi, h⟩ := ite_passed h
    cases data with
    | nil => cases h
    | cons witver rest =>
      obtain ⟨hv, h⟩ := ite_passed h
      obtain ⟨hsu, h⟩ := ite_passed h
      split at h
      · cases h
      rename_i decoded hd
      obtain ⟨hs, h⟩ := ite_passed h
      obtain ⟨hz, h⟩ := ite_passed h
      simp only [Option.some.injEq, Prod.mk.injEq] at h
      obtain ⟨rfl, rfl, rfl⟩ := h
      obtain ⟨t, ht, rfl⟩ := convertbits_eq_some.1 hd
      refine ⟨by simpa using hc, by omega, rest, ⟨pos, hf, by omega, by omega, rfl, hda⟩, by omega,
        not_not.1 hsu, ?_, by omega, by omega, fun h0 => ?_⟩
      · rw [nats, ht.nats_out]
        exact hd
      · by_contra hn
        exact hz ⟨h0, by omega, by omega⟩
  · rintro ⟨hc, hl, rest, ⟨pos, hf, hp, hp7, rfl, hda⟩, hv, hsu, hd, hs, hs', hz⟩
    have hsi : 6 ≤ (version :: rest).length := (parts_iff.2 ⟨pos, hf, hp, hp7, rfl, hda⟩).six
    have hne : s ≠ [] := by
      rintro rfl
      simp [lower, rfind, Bolt12.Bech32.isAscii] at hf
    rw [if_neg hne, hc, if_neg Bool.false_ne_true]
    rw [if_neg (by omega), hf]
    dsimp only
    rw [if_neg (by omega)]
    have hda' : List.mapM (fun x => ElectrumProtocol.BECH32_CHARSET.idxOf? x)
        ((lower unicodeLower s).drop (pos + 1)) = some (version :: rest) := hda
    rw [hda']
    dsimp only
    have hsu' : ElectrumProtocol.polymod (ElectrumProtocol.hrpExpand ((lower unicodeLower s).take pos) ++
        version :: rest) = if version = 0 then ElectrumProtocol.BECH32_CONST else ElectrumProtocol.BECH32M_CONST := hsu
    rw [if_neg (by omega), if_neg (by omega), if_neg (not_not.2 hsu'), ElectrumProtocol.convertbits, hd]
    have hb : (nats program).map UInt8.ofNat = program := by
      rw [nats, map_map]
      refine (map_congr_left fun x _ => ?_).trans (map_id _)
      simp
    dsimp only
    rw [hb, if_neg (by omega), if_neg]
    rintro ⟨h0, h20, h32⟩
    exact (hz h0).elim h20 h32

/-- The decoder of the script side accepts the segwit texts, in one case. -/
lemma decodeSegwit_iff {version : ℕ} {program : Bytes} :
    ElectrumProtocol.decodeSegwit unicodeLower unicodeUpper s = some (hrp, version, program) ↔
      mixedCase unicodeLower unicodeUpper s = false ∧
        ∃ w : Witness, w.version = version ∧ w.program = program ∧ SegwitText hrp w (lower unicodeLower s) := by
  rw [decodeSegwit_eq_some]
  constructor
  · rintro ⟨hca, hle, rest, hpa, hve, hsu, hd, hs, hs', hz⟩
    obtain ⟨p, hp, hg⟩ := convertbits_iff.1 hd
    obtain rfl := nats_inj hp
    have hsp : version :: rest = version :: convert8to5 program ++ rest.drop (rest.length - 6) := by
      rw [hg, cons_append, take_append_drop]
    have hl : 0 < (convert8to5 program).length := by
      rw [length_pos_iff, ne_eq, Bolt12.Bech32.convert8to5_eq_nil_iff]
      rintro rfl
      cases hs
    rw [hg, length_take] at hl
    refine ⟨hca, ⟨version, program, hve, hs, hs', hz⟩, rfl, rfl, hpa.named, hle,
      rest.drop (rest.length - 6), ?_, fun v hv => hpa.words v (mem_cons_of_mem _ (mem_of_mem_drop hv)),
      ?_, ?_⟩
    · rw [length_drop]
      omega
    · rw [Witness.words, ← hsp]
      exact hpa.text
    · rw [Witness.words, ← hsp]
      exact hsu
  · rintro ⟨hca, w, rfl, rfl, hn, hsh, check, hc, hc32, ht, hsu⟩
    have hw : ∀ v ∈ w.words ++ check, v < 32 := by
      intro v hv
      rcases mem_append.1 hv with hv | hv
      · rcases mem_cons.1 hv with rfl | hv
        · exact w.version_le.trans_lt (by decide)
        · exact Bolt12.Bech32.convert8to5_lt hv
      · exact hc32 v hv
    refine ⟨hca, hsh, convert8to5 w.program ++ check, ⟨hn, ?_, hw, ht⟩, w.version_le, hsu, ?_, w.two_le,
      w.le_forty, w.standard⟩
    · simp [hc]
    · rw [take_checked hc]
      exact convertbits_iff.2 ⟨w.program, rfl, rfl⟩

lemma bech32VerifyChecksum_iff {encoding : ℕ} :
    bech32VerifyChecksum hrp data = some encoding ↔
      Polymod.polymod (hrpWords hrp ++ data) = encoding ∧ (encoding = BECH32_CONST ∨ encoding = BECH32M_CONST) := by
  rw [bech32VerifyChecksum]
  change (if Polymod.polymod (hrpWords hrp ++ data) = BECH32_CONST then some BECH32_CONST
    else if Polymod.polymod (hrpWords hrp ++ data) = BECH32M_CONST then some BECH32M_CONST else none) = some encoding ↔ _
  constructor
  · intro h
    rcases ite_eq_iff.1 h with ⟨hs, h⟩ | ⟨-, h⟩
    · obtain rfl := Option.some.inj h
      exact ⟨hs, .inl rfl⟩
    rcases ite_eq_iff.1 h with ⟨hs, h⟩ | ⟨-, h⟩
    · obtain rfl := Option.some.inj h
      exact ⟨hs, .inr rfl⟩
    · cases h
  · rintro ⟨hs, rfl | rfl⟩
    · rw [if_pos hs]
    · rw [if_neg (by rw [hs]; decide), if_pos hs]

/-- The validation accepts the segwit texts of its network, in one case. -/
lemma validateSegwitAddress_iff :
    validateSegwitAddress unicodeLower unicodeUpper hrp s = true ↔
      ∃ version program,
        ElectrumProtocol.decodeSegwit unicodeLower unicodeUpper s = some (hrp, version, program) := by
  simp only [decodeSegwit_eq_some]
  rw [validateSegwitAddress]
  constructor
  · intro hv
    split at hv
    · cases hv
    rename_i decHrp data encoding hde
    obtain ⟨hc, hle, full, hpa, hen, rfl⟩ := bech32Decode_iff.1 hde
    obtain ⟨hsu, hen⟩ := bech32VerifyChecksum_iff.1 hen
    obtain ⟨hh, h⟩ := ite_passed hv
    obtain rfl := not_not.1 hh
    cases hg : full.take (full.length - 6) with
    | nil =>
      rw [hg] at h
      cases h
    | cons version groups =>
      rw [hg] at h
      dsimp only at h
      cases hpr : convertbits groups 5 8 false with
      | none =>
        rw [hpr] at h
        cases h
      | some witnessProgram =>
        rw [hpr] at h
        dsimp only at h
        obtain ⟨hs, h⟩ := ite_passed h
        obtain ⟨hz, h⟩ := ite_passed h
        obtain ⟨hconst, h⟩ := ite_passed h
        obtain ⟨hco, h⟩ := ite_passed h
        obtain ⟨hve, -⟩ := ite_passed h
        obtain ⟨program, rfl, -⟩ := convertbits_iff.1 hpr
        rw [nats, length_map] at hs hz
        have hf : full = version :: (groups ++ full.drop (full.length - 6)) := by
          rw [← cons_append, ← hg, take_append_drop]
        have he : encoding = checksumConst version := by
          rw [checksumConst]
          split
          case isTrue h0 => exact not_not.1 fun hne => hconst ⟨h0, hne⟩
          case isFalse h0 => exact not_not.1 fun hne => hco ⟨Nat.pos_of_ne_zero h0, hne⟩
        refine ⟨version, program, hc, hle, groups ++ full.drop (full.length - 6), ?_, by omega, ?_, ?_, by omega,
          by omega, fun h0 => ?_⟩
        · rw [← hf]
          exact hpa
        · rw [← hf, ← he]
          exact hsu
        · rw [take_checked (by rw [length_drop, Nat.sub_sub_self hpa.six])]
          exact hpr
        · by_contra hno
          exact hz ⟨h0, by omega, by omega⟩
  · rintro ⟨version, program, hc, hle, rest, hpa, hve, hsu, hd, hs, hs', hz⟩
    have hen : checksumConst version = BECH32_CONST ∨ checksumConst version = BECH32M_CONST := by
      rw [checksumConst]
      split
      · exact .inl rfl
      · exact .inr rfl
    have hl : 6 ≤ rest.length := by
      by_contra hsh
      rw [show rest.length - 6 = 0 by omega, take_zero] at hd
      obtain ⟨p, hp, hn⟩ := convertbits_iff.1 hd
      obtain rfl := nats_inj hp
      rw [Bolt12.Bech32.convert8to5_eq_nil_iff] at hn
      rw [hn] at hs
      cases hs
    have hde := bech32Decode_iff.2 ⟨hc, hle, version :: rest, hpa,
      bech32VerifyChecksum_iff.2 ⟨hsu, hen⟩, rfl⟩
    have ht : (version :: rest).take ((version :: rest).length - 6) = version :: rest.take (rest.length - 6) := by
      rw [length_cons, Nat.succ_sub hl, take_succ_cons]
    rw [hde, ht]
    dsimp only
    rw [if_neg (not_not.2 rfl), hd]
    dsimp only
    rw [nats, length_map, if_neg (by omega), if_neg, if_neg, if_neg, if_neg (by omega)]
    · rintro ⟨h1, hne⟩
      exact hne (if_neg (by omega))
    · rintro ⟨h0, hne⟩
      exact hne (if_pos h0)
    · rintro ⟨h0, h20, h32⟩
      exact (hz h0).elim h20 h32

end Case

end AgentWallet.Chain.Address
