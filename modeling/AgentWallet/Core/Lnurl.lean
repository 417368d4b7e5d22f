import AgentWallet.Chain.Segwit
/-!
# LNURL

The decoder of LNURL texts, and what it and the decoder of BOLT 12 texts accept
beyond ASCII. Both lower-case the whole text before they look at its characters,
and the lower case of the KELVIN SIGN is `k`.
-/

namespace AgentWallet.Core.Lnurl

open AgentWallet.Bolt12 AgentWallet.Core.Validation AgentWallet.Chain.Address List

def MAX_LNURL_LEN : ℕ := 2048

/-- What `decode_lnurl` does with the text in lower case. -/
def decodeLowered (s : List Char) : Option String :=
  match Bech32.rfind '1' s with
  | none => none
  | some pos =>
    if pos < 1 ∨ pos + 7 > s.length then none
    else
      let hrp := s.take pos
      if hrp ≠ "lnurl".toList then none
      else
        match (s.drop (pos + 1)).mapM (BECH32_CHARSET.idxOf? ·) with
        | none => none
        | some data =>
          if bech32Polymod (hrpWords hrp ++ data) ≠ BECH32_CONST then none
          else
            match convertbits (data.take (data.length - 6)) 5 8 false with
            | none => none
            | some decodedBytes => String.fromUTF8? ⟨(decodedBytes.map UInt8.ofNat).toArray⟩

def decodeLnurl (unicodeLower unicodeUpper : List Char → List Char) (s : List Char) : Option String :=
  if s = [] then none
  else if s.length > MAX_LNURL_LEN then none
  else if mixedCase unicodeLower unicodeUpper s then none
  else decodeLowered (Bech32.lower unicodeLower s)

/-! ## Case beyond ASCII -/

/-- KELVIN SIGN, the one character beyond ASCII with an ASCII lower case. -/
def KELVIN : Char := Char.ofNat 0x212A

def isPlain (c : Char) : Bool := c.toNat < 128 || c = KELVIN

def plainLower (c : Char) : Char := if c = KELVIN then 'k' else c.toLower

/-- `str.lower` and `str.upper`, as far as they touch ASCII. -/
structure CaseMapping where
  lower : List Char → List Char
  upper : List Char → List Char
  lower_plain : ∀ s, s.all isPlain = true → lower s = s.map plainLower
  upper_plain : ∀ s, s.all isPlain = true → upper s = s.map Char.toUpper
  lower_other : ∀ s, s.all isPlain = false → Bech32.isAscii (lower s) = false

variable {m : CaseMapping} {s : List Char} {text : String}

lemma lower_of_plain (h : s.all isPlain = true) : Bech32.lower m.lower s = s.map plainLower := by
  unfold Bech32.lower
  split
  · rename_i hs
    refine map_congr_left fun c hc => (if_neg ?_).symm
    rintro rfl
    exact absurd (all_eq_true.1 hs _ hc) (by decide)
  · exact m.lower_plain s h

lemma upper_of_plain (h : s.all isPlain = true) : upper m.upper s = s.map Char.toUpper := by
  unfold upper
  split
  · rfl
  · exact m.upper_plain s h

lemma plain_of_ascii (h : Bech32.isAscii s = true) : s.all isPlain = true := by
  simp_all [Bech32.isAscii, isPlain]

lemma plain_of_lower (h : Bech32.isAscii (Bech32.lower m.lower s) = true) : s.all isPlain = true := by
  by_cases hs : Bech32.isAscii s = true
  · exact plain_of_ascii hs
  · rw [Bech32.lower, if_neg hs] at h
    by_contra hp
    simp [m.lower_other s (Bool.eq_false_iff.2 hp)] at h

lemma plain_spec {c : Char} (h : isPlain c = true) : (plainLower c).toNat < 128 ∧
    plainLower (plainLower c) = plainLower c ∧ ¬ ('A' ≤ plainLower c ∧ plainLower c ≤ 'Z') ∧
    ¬ ('a' ≤ c.toUpper ∧ c.toUpper ≤ 'z') := by
  rcases Bool.or_eq_true_iff.1 h with h | h
  · have ha : ∀ n < 128, (fun c => (plainLower c).toNat < 128 ∧ plainLower (plainLower c) = plainLower c ∧
        ¬ ('A' ≤ plainLower c ∧ plainLower c ≤ 'Z') ∧ ¬ ('a' ≤ c.toUpper ∧ c.toUpper ≤ 'z')) (Char.ofNat n) := by
      decide +kernel
    simpa only [Char.ofNat_toNat] using ha c.toNat (of_decide_eq_true h)
  · rw [of_decide_eq_true h]
    decide +kernel

lemma lower_lowered (h : s.all isPlain = true) : Bech32.lower m.lower (s.map plainLower) = s.map plainLower := by
  rw [all_eq_true] at h
  rw [lower_of_plain, map_map]
  · exact map_congr_left fun c hc => (plain_spec (h c hc)).2.1
  · simpa [isPlain] using fun c hc => .inl (plain_spec (h c hc)).1

/-! ## What is accepted -/

lemma ascii_of_decode {r : Hrp × Lib.Bytes} (h : Bech32.decode m.lower text = .ok r) :
    Bech32.isAscii (Bech32.lower m.lower text.toList) = true := by
  obtain ⟨hrp, p⟩ := r
  obtain ⟨-, -, -, -, hs⟩ := Bech32.decode_ok_iff.1 h
  have hm : ∀ (l : List Char) skipping, ∀ c ∈ l,
      c ∈ Bech32.deleteContinuations skipping l ∨ c ∈ '+' :: Bech32.whitespace := by
    intro l
    induction l with
    | nil => simp
    | cons d l ih =>
      intro skipping c hc
      unfold Bech32.deleteContinuations
      grind
  refine all_eq_true.2 fun c hc => decide_eq_true (Bech32.lowerAscii_of_mem (mem_append.2 ?_)).ascii
  refine (hm _ false c hc).imp_left fun hin => ?_
  rw [← nil_append (Bech32.deleteContinuations _ _), ← Bech32.stripContinuations_ok hs] at hin
  exact Bech32.mem_textChars hin

lemma ascii_of_decodeLowered {url : String} (h : decodeLowered s = some url) : Bech32.isAscii s = true := by
  unfold decodeLowered at h
  split at h
  · cases h
  · rename_i pos hp
    simp only [Option.ite_none_left_eq_some] at h
    obtain ⟨-, hrp, h⟩ := h
    split at h
    · cases h
    · rename_i data hd
      obtain ⟨hw, hc⟩ := mapM_charset.1 hd
      have hd : Bech32.isAscii (data.map bech32Char) = true := by
        have ha : ∀ v < 32, (bech32Char v).toNat < 128 := by decide
        simpa [Bech32.isAscii] using fun v hv => ha v (hw v hv)
      rw [Bech32.rfind_eq_some hp, not_not.1 hrp, ← hc]
      simpa [Bech32.isAscii] using hd

/-- The text with `k` for the KELVIN SIGN, in lower case. -/
def plain (text : String) : String := String.ofList (text.toList.map plainLower)

lemma decode_iff_plain (hs : text.toList.all isPlain = true) : (∃ r, Bech32.decode m.lower text = .ok r) ↔
    Bech32.mixedCase text.toList = false ∧ ∃ r, Bech32.decode m.lower (plain text) = .ok r := by
  have hca : Bech32.mixedCase (text.toList.map plainLower) = false :=
    Bech32.mixedCase_map (.inr fun c hc => (plain_spec (all_eq_true.1 hs c hc)).2.2.1)
  simp only [Prod.exists, Bech32.decode_ok_iff, plain, String.toList_ofList, lower_of_plain hs, lower_lowered hs,
    hca, length_map, ne_eq, map_eq_nil_iff, exists_and_left]
  tauto

def OneCase (s : List Char) : Prop := s.map plainLower = s ∨ s.map Char.toUpper = s

lemma OneCase.not_mixed (h : OneCase s) (hs : s.all isPlain = true) : Bech32.mixedCase s = false := by
  rw [all_eq_true] at hs
  rcases h with h | h
  · rw [← h]
    exact Bech32.mixedCase_map (.inr fun c hc => (plain_spec (hs c hc)).2.2.1)
  · rw [← h]
    exact Bech32.mixedCase_map (.inl fun c hc => (plain_spec (hs c hc)).2.2.2)

lemma decodeLnurl_iff_plain (hs : s.all isPlain = true) {url : String} : decodeLnurl m.lower m.upper s = some url ↔
    OneCase s ∧ decodeLnurl m.lower m.upper (s.map plainLower) = some url := by
  simp [decodeLnurl, mixedCase, OneCase, lower_of_plain hs, upper_of_plain hs, lower_lowered hs]
  tauto

def OnlyAscii (m : CaseMapping) (text : String) : Prop :=
  ((∃ r, Bech32.decode m.lower text = .ok r) ∨ ∃ url, decodeLnurl m.lower m.upper text.toList = some url) →
    Bech32.isAscii text.toList = true ∧ Bech32.mixedCase text.toList = false

/-- A KELVIN SIGN takes the place of a `k`, in a text that is otherwise ASCII and in one case. -/
def HidesK (m : CaseMapping) (text : String) : Prop :=
  KELVIN ∈ text.toList ∧ text.toList.all isPlain = true ∧
    ((Bech32.mixedCase text.toList = false ∧ ∃ r, Bech32.decode m.lower (plain text) = .ok r) ∨
      OneCase text.toList ∧ ∃ url, decodeLnurl m.lower m.upper (plain text).toList = some url)

theorem only_ascii_iff (m : CaseMapping) (text : String) : OnlyAscii m text ↔ ¬ HidesK m text := by
  have hr : text.toList.all isPlain = true →
      ((∃ url, decodeLnurl m.lower m.upper text.toList = some url) ↔
        OneCase text.toList ∧ ∃ url, decodeLnurl m.lower m.upper (plain text).toList = some url) := by
    intro hs
    simp only [decodeLnurl_iff_plain hs, exists_and_left, plain, String.toList_ofList]
  constructor
  · rintro h ⟨hk, hs, ha⟩
    have hascii := (h (ha.imp (decode_iff_plain hs).2 (hr hs).2)).1
    exact absurd (all_eq_true.1 hascii _ hk) (by decide)
  · intro hno ha
    have hs : text.toList.all isPlain = true := by
      rcases ha with ⟨r, h⟩ | ⟨url, h⟩
      · exact plain_of_lower (ascii_of_decode h)
      · have hr : decodeLowered (Bech32.lower m.lower text.toList) = some url := by 
          simp_all [decodeLnurl]
        exact plain_of_lower (ascii_of_decodeLowered hr)
    have ha := ha.imp (decode_iff_plain hs).1 (hr hs).1
    refine ⟨all_eq_true.2 fun c hc => ?_, ha.elim (·.1) (·.1.not_mixed hs)⟩
    rcases Bool.or_eq_true_iff.1 (all_eq_true.1 hs c hc) with h | h
    · exact h
    · exact absurd ⟨of_decide_eq_true h ▸ hc, hs, ha⟩ hno

/-- `LNO1KQ` with the KELVIN SIGN for `K` is the offer of one byte. -/
theorem kelvin_accepted : ∃ (m : CaseMapping) (text : String), text.toList = ['L', 'N', 'O', '1', KELVIN, 'Q'] ∧
    (∃ r, Bech32.decode m.lower text = .ok r) ∧ ¬ OnlyAscii m text := by
  -- the other characters may have any lower case beyond ASCII, such as themselves
  let m : CaseMapping :=
    { lower := fun s => if s.all isPlain then s.map plainLower else s
      upper := List.map Char.toUpper
      lower_plain := fun s h => if_pos h
      upper_plain := fun s _ => rfl
      lower_other := fun s h => by
        rw [h, if_neg Bool.false_ne_true, Bool.eq_false_iff]
        exact fun hs => Bool.false_ne_true (h.symm.trans (plain_of_ascii hs)) }
  have hg : Bech32.convert8to5 [176] = [22, 0] := (Bech32.groups_convert8to5 [176]).unique_left
    ⟨by decide, 2, by decide, by decide, by simp [Lib.ofWords, Nat.ofDigits_cons]⟩
  have hp : plain (String.ofList ['L', 'N', 'O', '1', KELVIN, 'Q']) = Bech32.encode .lno [176] := by
    rw [← String.toList_inj, Bech32.toList_encode, Bech32.dataChars, hg, plain, String.toList_ofList,
      String.toList_ofList]
    decide
  have hs := String.toList_ofList (l := ['L', 'N', 'O', '1', KELVIN, 'Q'])
  have hd := (decode_iff_plain (m := m) (by rw [hs]; decide)).2 ⟨by rw [hs]; decide, _,
    hp ▸ (Bech32.decode_encode_ok_iff (by simp)).2 ⟨by decide, rfl⟩⟩
  exact ⟨m, _, hs, hd, fun h => absurd (h (.inl hd)).1 (by rw [hs]; decide)⟩

end AgentWallet.Core.Lnurl
