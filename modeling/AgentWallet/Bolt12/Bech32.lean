import AgentWallet.Lib.Words
import AgentWallet.Lib.Alphabet
import AgentWallet.Bolt12.Fields
/-!
# bech32 without checksum

The text form of a message: a known prefix, the separator `1` and the payload in
groups of five bits, one character each; the text may be written in upper case
and broken with `+` and whitespace. `decode_ok_iff` says what `decode` accepts:
the texts that normalise to the encoding of a non-empty payload.
-/

namespace AgentWallet.Bolt12.Bech32

open AgentWallet.Lib Except

def charset : List Char := ['q', 'p', 'z', 'r', 'y', '9', 'x', '8', 'g', 'f', '2', 't', 'v', 'd', 'w', '0',
  's', '3', 'j', 'n', '5', '4', 'k', 'h', 'c', 'e', '6', 'm', 'u', 'a', '7', 'l']

def charsetRev (c : Char) : Option Nat := charset.idxOf? c

def knownHrps : List Hrp := [.lno, .lnr, .lni]

def whitespace : List Char := [' ', '\t', '\r', '\n']

def MAX_INPUT_LEN : Nat := 8192

/-- `repr` of a text, with the escapes of the ASCII range. -/
def pyRepr (s : List Char) : String :=
  let single := Char.ofNat 39
  let quote := if single ∈ s ∧ '"' ∉ s then '"' else single
  let escaped (c : Char) : List Char :=
    if c = quote ∨ c = '\\' then ['\\', c]
    else if c = '\n' then ['\\', 'n']
    else if c = '\r' then ['\\', 'r']
    else if c = '\t' then ['\\', 't']
    else if c.toNat < 32 ∨ c.toNat = 127 then ['\\', 'x', hexDigit (c.toNat / 16), hexDigit (c.toNat % 16)]
    else [c]
  String.ofList (quote :: s.flatMap escaped ++ [quote])

/-- The scan of `_strip_continuations` from a position, with the output so far. -/
def stripContinuations (out : List Char) : List Char → Except Exn (List Char)
  | [] => .ok out
  | c :: cs =>
    if c = '+' then
      if out = [] then .error (.bolt12FormatError "bech32: leading '+'")
      else
        match _h : cs.dropWhile (· ∈ whitespace) with
        | [] => .error (.bolt12FormatError "bech32: trailing '+'")
        | d :: rest =>
          if d = '+' ∨ d ∈ whitespace then .error (.bolt12FormatError "bech32: '+' not followed by data char")
          else stripContinuations out (d :: rest)
    else if c ∈ whitespace then .error (.bolt12FormatError "bech32: stray whitespace")
    else stripContinuations (out ++ [c]) cs
termination_by s => s.length
decreasing_by
  · rw [← _h, List.length_cons]
    exact Nat.lt_succ_of_le (List.length_dropWhile_le _ _)
  · simp

/-- The loop body of `_convert_5_to_8`. -/
def pushGroup (s : Regroup) (v : Nat) : Except Exn Regroup := do
  raiseIf (v ≥ 32) (.bolt12FormatError "bech32: 5-bit value out of range")
  return s.push 5 8 v

def convert5to8 (data5 : List Nat) : Except Exn Bytes := do
  let s ← data5.foldlM pushGroup {}
  raiseIf (s.bits ≥ 5) (.bolt12FormatError "bech32: excess bits after decoding")
  raiseIf (s.bits > 0 ∧ s.acc &&& ((1 <<< s.bits) - 1) ≠ 0) (.bolt12FormatError "bech32: non-zero padding bits")
  return s.out.map UInt8.ofNat

def convert8to5 (data : Bytes) : List Nat :=
  let s := (data.map UInt8.toNat).foldl (Regroup.push 8 5) {}
  if s.bits > 0 then s.out ++ [(s.acc <<< (5 - s.bits)) &&& 0x1F] else s.out

/-- The index of the last `c`. -/
def rfind (c : Char) (s : List Char) : Option Nat := (s.reverse.findIdx? (· = c)).map (s.length - 1 - ·)

def dataValue (c : Char) : Except Exn Nat :=
  match charsetRev c with
  | none =>
    let shown := pyRepr [c]
    .error (.bolt12FormatError s!"bech32: invalid data char {shown}")
  | some v => .ok v

/-- What `decode` does with the normalised text. -/
def decodeNormalised (normalised : List Char) : Except Exn (Hrp × Bytes) :=
  match rfind '1' normalised with
  | none | some 0 => .error (.bolt12FormatError "bech32: missing or misplaced separator '1'")
  | some (i + 1) =>
    let hrp := normalised.take (i + 1)
    let dataPart := normalised.drop (i + 2)
    match knownHrps.find? (·.text.toList = hrp) with
    | none =>
      let shown := pyRepr hrp
      .error (.bolt12FormatError s!"bech32: unknown HRP {shown}")
    | some hrp => do
      raiseIf (dataPart = []) (.bolt12FormatError "bech32: empty data part")
      let data5 ← dataPart.mapM dataValue
      let payload ← convert5to8 data5
      return (hrp, payload)

def isAscii (s : List Char) : Bool := s.all (·.toNat < 128)

section Lower

-- Lower-casing of a text that is not ASCII: any function.
variable (unicodeLower : List Char → List Char)

def lower (s : List Char) : List Char := if isAscii s then s.map Char.toLower else unicodeLower s

def decode (text : String) : Except Exn (Hrp × Bytes) := do
  let s := text.toList
  raiseIf (s = []) (.bolt12FormatError "bech32: empty string")
  let n := s.length
  raiseIf (n > MAX_INPUT_LEN) (.bolt12FormatError s!"bech32: input too long ({n} > {MAX_INPUT_LEN})")
  let hasLower := s.any fun c => 'a' ≤ c && c ≤ 'z'
  let hasUpper := s.any fun c => 'A' ≤ c && c ≤ 'Z'
  raiseIf (hasLower && hasUpper) (.bolt12FormatError "bech32: mixed case")
  let normalised ← stripContinuations [] (lower unicodeLower s)
  decodeNormalised normalised

end Lower

def encode (hrp : Hrp) (payload : Bytes) : String :=
  let data5 := convert8to5 payload
  hrp.text ++ "1" ++ String.ofList (data5.map (charset.getD · 'q'))

/-! ## Groups of five bits -/

/-- The groups of a payload: its bits followed by fewer than five zero bits. -/
structure Groups (data5 : List Nat) (payload : Bytes) : Prop where
  words : ∀ v ∈ data5, v < 2 ^ 5
  value : ∃ pad < 5, 5 * data5.length = 8 * payload.length + pad ∧
    ofWords 5 data5 = ofWords 8 (payload.map UInt8.toNat) * 2 ^ pad

lemma groups_convert8to5 (payload : Bytes) : Groups (convert8to5 payload) payload := by
  have hl : ∀ v ∈ payload.map UInt8.toNat, v < 2 ^ 8 := by
    intro v hv
    obtain ⟨b, -, rfl⟩ := List.mem_map.1 hv
    exact b.toNat_lt
  obtain ⟨hw, ha, hlt, hsu⟩ := regroup_spec 8 5 (by decide) hl
  rw [List.length_map] at hsu
  unfold convert8to5
  set s := (payload.map UInt8.toNat).foldl (Regroup.push 8 5) {} with hs
  by_cases hb : s.bits > 0
  · rw [if_pos hb]
    -- The last group is the rest of the accumulator, shifted up to five bits.
    have hla : (s.acc <<< (5 - s.bits)) &&& 0x1F = s.acc * 2 ^ (5 - s.bits) % 2 ^ 5 := by
      rw [Nat.shiftLeft_eq]
      exact Nat.and_two_pow_sub_one_eq_mod _ 5
    have hd : s.acc / 2 ^ s.bits = s.acc * 2 ^ (5 - s.bits) / 2 ^ 5 := by
      rw [← Nat.mul_div_mul_right _ _ (show 0 < 2 ^ (5 - s.bits) by positivity), ← pow_add,
        Nat.add_sub_cancel' hlt.le]
    rw [hla]
    refine ⟨fun v hv => ?_, 5 - s.bits, by omega, ?_, ?_⟩
    · rcases List.mem_append.1 hv with hv | hv
      · exact hw.words v hv
      · rw [List.mem_singleton.1 hv]
        exact Nat.mod_lt _ (by decide)
    · rw [List.length_append, List.length_singleton]
      omega
    · rw [ofWords_concat, hw.value, hd, Nat.mod_add_div, ha]
  · rw [if_neg hb]
    have h0 : s.bits = 0 := by omega
    refine ⟨hw.words, 0, by decide, by omega, ?_⟩
    rw [hw.value, h0, ha, pow_zero, Nat.div_one, Nat.mul_one]

variable {d : List Nat}

lemma Groups.unique_left {d' : List Nat} {p : Bytes} (h : Groups d p) (h' : Groups d' p) : d = d' := by
  obtain ⟨hd, pad, hp, hl, hv⟩ := h
  obtain ⟨hd', pad', hp', hl', hv'⟩ := h'
  obtain rfl : pad = pad' := by omega
  exact ofWords_inj (by decide) hd hd' (by omega) (hv.trans hv'.symm)

lemma Groups.unique_right {p p' : Bytes} (h : Groups d p) (h' : Groups d p') : p = p' := by
  obtain ⟨-, pad, hp, hl, hv⟩ := h
  obtain ⟨-, pad', hp', hl', hv'⟩ := h'
  obtain rfl : pad = pad' := by omega
  have hva := Nat.eq_of_mul_eq_mul_right (by positivity) (hv.symm.trans hv')
  have hb : ∀ q : Bytes, ∀ x ∈ q.map UInt8.toNat, x < 2 ^ 8 := by
    intro q x hx
    obtain ⟨b, -, rfl⟩ := List.mem_map.1 hx
    exact b.toNat_lt
  have hm := ofWords_inj (by decide) (hb p) (hb p') (by simp; omega) hva
  exact List.map_injective_iff.2 (fun a b => UInt8.toNat_inj.1) hm

lemma pushGroup_loop {s s' : Regroup} :
    d.foldlM pushGroup s = .ok s' ↔ (∀ v ∈ d, v < 2 ^ 5) ∧ d.foldl (Regroup.push 5 8) s = s' := by
  induction d generalizing s with
  | nil => simp [List.foldlM_nil]
  | cons v d ih =>
    simp only [List.foldlM_cons, bind_eq_ok, pushGroup, raiseIf_eq_ok, pure_eq_ok, List.forall_mem_cons, List.foldl_cons]
    constructor
    · rintro ⟨t, ⟨⟨⟩, hv, rfl⟩, h⟩
      obtain ⟨hd, rfl⟩ := ih.1 h
      exact ⟨⟨by simpa using hv, hd⟩, rfl⟩
    · rintro ⟨⟨hv, hd⟩, rfl⟩
      exact ⟨s.push 5 8 v, ⟨(), by simpa using hv, rfl⟩, ih.2 ⟨hd, rfl⟩⟩

/-- What `d` regrouped to bytes leaves: too few bits for a group, all of them zero. -/
structure Whole (d : List Nat) (s : Regroup) : Prop where
  fits : ∀ v ∈ d, v < 2 ^ 5
  state : d.foldl (Regroup.push 5 8) {} = s
  bits : s.bits < 5
  pad : s.acc % 2 ^ s.bits = 0

lemma convert5to8_eq_ok {p : Bytes} : convert5to8 d = .ok p ↔ ∃ s, Whole d s ∧ p = s.out.map UInt8.ofNat := by
  have hm (s : Regroup) : s.acc &&& ((1 <<< s.bits) - 1) = s.acc % 2 ^ s.bits := by
    rw [Nat.one_shiftLeft, Nat.and_two_pow_sub_one_eq_mod]
  simp only [convert5to8, bind_eq_ok, raiseIf_eq_ok, pure_eq_ok, pushGroup_loop, hm]
  constructor
  · rintro ⟨s, ⟨hd, hs⟩, ⟨⟩, hb, ⟨⟩, hp, rfl⟩
    refine ⟨s, ⟨hd, hs, by simpa using hb, ?_⟩, rfl⟩
    by_cases h0 : s.bits = 0
    · rw [h0, pow_zero, Nat.mod_one]
    · simpa [Nat.pos_of_ne_zero h0] using hp
  · rintro ⟨s, ⟨hd, hs, hb, hp⟩, rfl⟩
    exact ⟨s, ⟨hd, hs⟩, (), by simpa using hb, (), by simp [hp], rfl⟩

lemma Whole.nats_out {s : Regroup} (h : Whole d s) : (s.out.map UInt8.ofNat).map UInt8.toNat = s.out := by
  obtain ⟨hw, -⟩ := regroup_spec 5 8 (by decide) h.fits
  rw [h.state] at hw
  rw [List.map_map]
  refine (List.map_congr_left fun x hx => ?_).trans (List.map_id _)
  have hx : x < 2 ^ 8 := hw.words x hx
  simp only [Function.comp_apply, UInt8.toNat_ofNat', id_eq]
  exact Nat.mod_eq_of_lt hx

lemma convert5to8_ok {p : Bytes} (h : convert5to8 d = .ok p) : Groups d p := by
  obtain ⟨s, hs, rfl⟩ := convert5to8_eq_ok.1 h
  obtain ⟨hw, ha, -, hsu⟩ := regroup_spec 5 8 (by decide) hs.fits
  rw [hs.state] at hw ha hsu
  refine ⟨hs.fits, s.bits, hs.bits, by rw [List.length_map]; omega, ?_⟩
  rw [hs.nats_out, hw.value, ← ha]
  exact (Nat.div_mul_cancel (Nat.dvd_of_mod_eq_zero hs.pad)).symm

lemma convert5to8_of_groups {p : Bytes} (h : Groups d p) : convert5to8 d = .ok p := by
  obtain ⟨hd, pad, hp, hl, hv⟩ := id h
  obtain ⟨-, ha, hlt, hs⟩ := regroup_spec 5 8 (by decide) hd
  -- The bits left over are the padding.
  have hb : (d.foldl (Regroup.push 5 8) {}).bits = pad := by omega
  have hok := convert5to8_eq_ok.2 ⟨_, ⟨hd, rfl, hb ▸ hp, by rw [ha, hv, hb, Nat.mul_mod_left]⟩, rfl⟩
  rw [hok, (convert5to8_ok hok).unique_right h]

lemma convert5to8_eq_ok_iff {p : Bytes} : convert5to8 d = .ok p ↔ convert8to5 p = d := by
  constructor
  · intro h
    exact (groups_convert8to5 p).unique_left (convert5to8_ok h)
  · rintro rfl
    exact convert5to8_of_groups (groups_convert8to5 p)

lemma convert8to5_lt {p : Bytes} {v : Nat} (hv : v ∈ convert8to5 p) : v < 32 := (groups_convert8to5 p).words v hv

lemma convert8to5_eq_nil_iff (p : Bytes) : convert8to5 p = [] ↔ p = [] := by
  obtain ⟨-, pad, hp, hl, -⟩ := groups_convert8to5 p
  rw [← List.length_eq_zero_iff, ← List.length_eq_zero_iff]
  omega

/-! ## The characters of an encoding -/

def dataChars (payload : Bytes) : List Char := (convert8to5 payload).map (charset.getD · 'q')

lemma toList_encode (hrp : Hrp) (payload : Bytes) :
    (encode hrp payload).toList = hrp.text.toList ++ '1' :: dataChars payload := by
  simp [encode, dataChars]

variable {c : Char}

lemma nodup_charset : charset.Nodup := by decide

lemma dataValue_ok {v : Nat} : dataValue c = .ok v ↔ v < 32 ∧ charset.getD v 'q' = c := by
  refine Iff.trans ?_ (idxOf?_eq_some_iff nodup_charset 'q')
  unfold dataValue charsetRev
  cases charset.idxOf? c <;> simp

lemma mapM_dataValue {cs : List Char} :
    cs.mapM dataValue = .ok d ↔ (∀ v ∈ d, v < 32) ∧ d.map (charset.getD · 'q') = cs := by
  induction cs generalizing d with
  | nil => 
    simp only [List.mapM_nil, pure_eq_ok, List.map_eq_nil_iff]
    constructor
    · rintro rfl; simp
    · rintro ⟨-, rfl⟩; rfl
  | cons c cs ih =>
    simp only [List.mapM_cons, bind_eq_ok, pure_eq_ok, dataValue_ok, ih]
    constructor
    · rintro ⟨v, ⟨hv, rfl⟩, d, ⟨hd, rfl⟩, rfl⟩
      exact ⟨by simpa using ⟨hv, hd⟩, rfl⟩
    rintro ⟨hd, h⟩
    obtain ⟨v, d, rfl, rfl, rfl⟩ := List.map_eq_cons_iff.1 h
    rw [List.forall_mem_cons] at hd
    exact ⟨v, ⟨hd.1, rfl⟩, d, ⟨hd.2, rfl⟩, rfl⟩

lemma mem_charset_of_mem_dataChars {p : Bytes} (h : c ∈ dataChars p) : c ∈ charset := by
  obtain ⟨v, hv, rfl⟩ := List.mem_map.1 h
  exact getD_mem (convert8to5_lt hv)

/-! ## The separator -/

lemma rfind_of_append {a b : List Char} (h : c ∉ b) : rfind c (a ++ c :: b) = some a.length := by
  have hb : b.reverse.findIdx? (· = c) = none := by
    rw [List.findIdx?_eq_none_iff]
    intro x hx
    simpa using fun he : x = c => h (he ▸ List.mem_reverse.1 hx)
  have hr : (a ++ c :: b).reverse = b.reverse ++ c :: a.reverse := by simp
  have hc : (c :: a.reverse).findIdx? (· = c) = some 0 := by simp [List.findIdx?_cons]
  rw [rfind, hr, List.findIdx?_append, hb, hc]
  simp

variable {s : List Char}

lemma rfind_eq_some {i : Nat} (h : rfind c s = some i) : s = s.take i ++ c :: s.drop (i + 1) := by
  obtain ⟨j, hj, rfl⟩ := Option.map_eq_some_iff.1 h
  rw [List.findIdx?_eq_some_iff_getElem] at hj
  obtain ⟨hlt, hc, -⟩ := hj
  rw [List.length_reverse] at hlt
  have hi : s.length - 1 - j < s.length := by omega
  have hg : s[s.length - 1 - j] = c := by simpa [List.getElem_reverse] using hc
  rw [← hg, List.getElem_cons_drop, List.take_append_drop]

lemma decodeNormalised_ok_iff {hrp : Hrp} {p : Bytes} :
    decodeNormalised s = .ok (hrp, p) ↔ p ≠ [] ∧ s = (encode hrp p).toList := by
  unfold decodeNormalised
  constructor
  · intro h
    split at h
    · simp at h
    · simp at h
    rename_i i hi
    cases hf : knownHrps.find? (·.text.toList = s.take (i + 1)) with
    | none => simp [hf] at h
    | some hrp' =>
      simp only [hf, bind_eq_ok, raiseIf_eq_ok, pure_eq_ok, Prod.mk.injEq] at h
      obtain ⟨⟨⟩, hne, data5, hd, payload, hpa, rfl, rfl⟩ := h
      obtain ⟨-, hc⟩ := mapM_dataValue.1 hd
      obtain rfl := convert5to8_eq_ok_iff.1 hpa
      refine ⟨fun hp => ?_, ?_⟩
      · rw [(convert8to5_eq_nil_iff payload).2 hp, List.map_nil] at hc
        simp [← hc] at hne
      · rw [toList_encode, dataChars, hc, show hrp'.text.toList = s.take (i + 1) by simpa using List.find?_some hf]
        exact rfind_eq_some hi
  · rintro ⟨hp, rfl⟩
    have hs : '1' ∉ dataChars p := fun hm => absurd (mem_charset_of_mem_dataChars hm) (by decide)
    have hl : hrp.text.toList.length = 3 := by cases hrp <;> rfl
    have hr : rfind '1' (encode hrp p).toList = some (2 + 1) := by
      rw [toList_encode, rfind_of_append hs, hl]
    have ht : (encode hrp p).toList.take (2 + 1) = hrp.text.toList := by
      rw [toList_encode, List.take_left' hl]
    have hdr : (encode hrp p).toList.drop (2 + 2) = dataChars p := by
      rw [toList_encode, List.drop_append, hl, List.drop_eq_nil_of_le (by omega)]
      rfl
    have hfi : knownHrps.find? (·.text.toList = hrp.text.toList) = some hrp := by cases hrp <;> rfl
    rw [hr]
    simp only [ht, hdr, hfi, bind_eq_ok, raiseIf_eq_ok, pure_eq_ok]
    have hne : dataChars p ≠ [] := by simpa [dataChars, convert8to5_eq_nil_iff] using hp
    have hv : (dataChars p).mapM dataValue = .ok (convert8to5 p) :=
      mapM_dataValue.2 ⟨fun v => convert8to5_lt, rfl⟩
    exact ⟨(), by simpa using hne, _, hv, p, convert5to8_eq_ok_iff.2 rfl, rfl⟩

/-! ## Continuations -/

/-- `t` is `s` with a `+` and a run of whitespace put between some of its characters. -/
inductive Continued : List Char → List Char → Prop
  | nil : Continued [] []
  | keep (c : Char) {s t : List Char} : Continued s t → Continued (c :: s) (c :: t)
  | plus (c d : Char) {s t : List Char} (run : List Char) : (∀ w ∈ run, w ∈ whitespace) →
      Continued (d :: s) t → Continued (c :: d :: s) (c :: '+' :: (run ++ t))

lemma Continued.refl : ∀ s, Continued s s
  | [] => .nil
  | c :: s => .keep c (Continued.refl s)

/-- Deletes every `+` with the whitespace after it; `skipping` says that such a
run is being deleted. -/
def deleteContinuations : Bool → List Char → List Char
  | _, [] => []
  | skipping, c :: cs =>
    if c = '+' then deleteContinuations true cs
    else if skipping && decide (c ∈ whitespace) then deleteContinuations true cs
    else c :: deleteContinuations false cs

lemma deleteContinuations_true (s : List Char) :
    deleteContinuations true s = deleteContinuations false (s.dropWhile (· ∈ whitespace)) := by
  induction s with
  | nil => rfl
  | cons c s ih =>
    by_cases hw : c ∈ whitespace
    · have hc : c ≠ '+' := by rintro rfl; exact absurd hw (by decide)
      rw [List.dropWhile_cons_of_pos (by simpa using hw), ← ih]
      simp [deleteContinuations, hc, hw]
    · rw [List.dropWhile_cons_of_neg (by simpa using hw)]
      simp [deleteContinuations, hw]

variable {out : List Char}

lemma stripContinuations_plus {cs rest : List Char} {d : Char} (ho : out ≠ [])
    (hr : cs.dropWhile (· ∈ whitespace) = d :: rest) (hd : ¬ (d = '+' ∨ d ∈ whitespace)) :
    stripContinuations out ('+' :: cs) = stripContinuations out (d :: rest) := by
  rw [stripContinuations, if_pos rfl, if_neg ho]
  split
  · rename_i h
    simp [hr] at h
  rename_i d' rest' h
  rw [hr, List.cons.injEq] at h
  obtain ⟨rfl, rfl⟩ := h
  rw [if_neg hd]

lemma stripContinuations_data {cs : List Char} (hc : c ≠ '+') (hw : c ∉ whitespace) :
    stripContinuations out (c :: cs) = stripContinuations (out ++ [c]) cs := by
  rw [stripContinuations, if_neg hc, if_neg hw]

lemma stripContinuations_ok {n : List Char} (h : stripContinuations out s = .ok n) :
    n = out ++ deleteContinuations false s := by
  fun_induction stripContinuations out s with
  | case1 out =>
    cases h
    simp [deleteContinuations]
  | case5 out cs ho d rest hr hd ih =>
    rw [ih h, ← hr, ← deleteContinuations_true]
    simp [deleteContinuations]
  | case7 out c cs hc hw ih =>
    rw [ih h]
    simp [deleteContinuations, hc]
  | _ => cases h

lemma stripContinuations_continued {t : List Char} (h : Continued s t) (hs : ∀ c ∈ s, c ≠ '+' ∧ c ∉ whitespace)
    (out : List Char) : stripContinuations out t = .ok (out ++ s) := by
  induction h generalizing out with
  | nil => simp [stripContinuations]
  | keep c _ ih =>
    rw [List.forall_mem_cons] at hs
    rw [stripContinuations_data hs.1.1 hs.1.2, ih hs.2]
    simp
  | @plus c d s t run hr ht ih =>
    rw [List.forall_mem_cons] at hs
    rw [stripContinuations_data hs.1.1 hs.1.2]
    have hd := hs.2 d (by simp)
    have hh : ∃ rest, t = d :: rest := by
      cases ht with
      | keep _ _ | plus _ _ _ _ => exact ⟨_, rfl⟩
    obtain ⟨rest, rfl⟩ := hh
    have hdr : (run ++ d :: rest).dropWhile (· ∈ whitespace) = d :: rest := by
      rw [List.dropWhile_append_of_pos (by simpa using hr), List.dropWhile_cons_of_neg (by simpa using hd.2)]
    rw [stripContinuations_plus (by simp) hdr (by simpa using hd), ih hs.2]
    simp

/-! ## What `decode` accepts -/

section Decode

variable {unicodeLower : List Char → List Char}

def mixedCase (s : List Char) : Bool := s.any (fun c => 'a' ≤ c && c ≤ 'z') && s.any fun c => 'A' ≤ c && c ≤ 'Z'

lemma decode_ok_iff {text : String} {hrp : Hrp} {p : Bytes} : decode unicodeLower text = .ok (hrp, p) ↔
    text.toList ≠ [] ∧ text.toList.length ≤ MAX_INPUT_LEN ∧ mixedCase text.toList = false ∧ p ≠ [] ∧
      stripContinuations [] (lower unicodeLower text.toList) = .ok (encode hrp p).toList := by
  simp only [decode, bind_eq_ok, raiseIf_eq_ok, decodeNormalised_ok_iff]
  constructor
  · rintro ⟨⟨⟩, hne, ⟨⟩, hl, ⟨⟩, hc, n, hs, hp, rfl⟩
    exact ⟨by simpa using hne, by simpa using hl, hc, hp, hs⟩
  · rintro ⟨hne, hl, hc, hp, hs⟩
    exact ⟨(), by simpa using hne, (), by simpa using hl, (), hc, _, hs, hp, rfl⟩

def textChars : List Char := ['l', 'n', 'o', 'r', 'i', '1'] ++ charset

lemma mem_textChars {hrp : Hrp} {p : Bytes} (h : c ∈ (encode hrp p).toList) : c ∈ textChars := by
  rw [toList_encode, List.mem_append, List.mem_cons] at h
  rcases h with h | rfl | h
  · have ha : hrp.text.toList.all (textChars.contains ·) = true := by cases hrp <;> rfl
    simpa using List.all_eq_true.1 ha c h
  · decide
  · exact List.mem_append_right _ (mem_charset_of_mem_dataChars h)

lemma Continued.mem {t : List Char} (h : Continued s t) (hc : c ∈ t) : c ∈ s ∨ c ∈ '+' :: whitespace := by
  induction h with
  | nil => simp at hc
  | keep d _ ih =>
    rcases List.mem_cons.1 hc with rfl | hc
    · simp
    · exact (ih hc).imp (List.mem_cons_of_mem _) id
  | plus d e run hr _ ih =>
    simp only [List.mem_cons, List.mem_append] at hc
    rcases hc with rfl | rfl | hc | hc
    · simp
    · simp
    · exact .inr (List.mem_cons_of_mem _ (hr c hc))
    · exact (ih hc).imp (List.mem_cons_of_mem _) id

/-- An ASCII character that is not upper case, and is given back by lower-casing
its upper case. -/
structure LowerAscii (c : Char) : Prop where
  ascii : c.toNat < 128
  lower : c.toLower = c
  not_upper : ¬ ('A' ≤ c ∧ c ≤ 'Z')
  ascii_upper : c.toUpper.toNat < 128
  lower_upper : c.toUpper.toLower = c
  upper_not_lower : ¬ ('a' ≤ c.toUpper ∧ c.toUpper ≤ 'z')

instance (c : Char) : Decidable (LowerAscii c) :=
  decidable_of_iff (c.toNat < 128 ∧ c.toLower = c ∧ ¬ ('A' ≤ c ∧ c ≤ 'Z') ∧ c.toUpper.toNat < 128 ∧
      c.toUpper.toLower = c ∧ ¬ ('a' ≤ c.toUpper ∧ c.toUpper ≤ 'z'))
    ⟨fun ⟨h1, h2, h3, h4, h5, h6⟩ => ⟨h1, h2, h3, h4, h5, h6⟩, fun ⟨h1, h2, h3, h4, h5, h6⟩ => ⟨h1, h2, h3, h4, h5, h6⟩⟩

lemma lowerAscii_of_mem (hc : c ∈ textChars ++ '+' :: whitespace) : LowerAscii c := by
  have ha : (textChars ++ '+' :: whitespace).all (LowerAscii ·) = true := rfl
  exact of_decide_eq_true (List.all_eq_true.1 ha c hc)

lemma lower_map {f : Char → Char} {t : List Char} (h : ∀ c ∈ t, (f c).toNat < 128 ∧ (f c).toLower = c) :
    lower unicodeLower (t.map f) = t := by
  have ha : isAscii (t.map f) = true := by
    simpa [isAscii] using fun c hc => (h c hc).1
  rw [lower, if_pos ha, List.map_map]
  refine (List.map_congr_left fun c hc => ?_).trans (List.map_id t)
  exact (h c hc).2

lemma mixedCase_map {f : Char → Char} {t : List Char}
    (h : (∀ c ∈ t, ¬ ('a' ≤ f c ∧ f c ≤ 'z')) ∨ ∀ c ∈ t, ¬ ('A' ≤ f c ∧ f c ≤ 'Z')) :
    mixedCase (t.map f) = false := by
  unfold mixedCase
  rw [Bool.and_eq_false_iff]
  refine h.imp (fun h => ?_) fun h => ?_ <;> simpa using h

lemma decode_spelling {hrp : Hrp} {p : Bytes} {t : List Char} {f : Char → Char} (hp : p ≠ [])
    (ht : Continued (encode hrp p).toList t) (hl : t.length ≤ MAX_INPUT_LEN)
    (hf : ∀ c ∈ t, (f c).toNat < 128 ∧ (f c).toLower = c) (hca : mixedCase (t.map f) = false) :
    decode unicodeLower (String.ofList (t.map f)) = .ok (hrp, p) := by
  have hs := stripContinuations_continued ht (fun c hc => by
    have ha : textChars.all (fun c => c ≠ '+' ∧ c ∉ whitespace) = true := rfl
    simpa using List.all_eq_true.1 ha c (mem_textChars hc)) []
  rw [decode_ok_iff, String.toList_ofList, lower_map hf]
  refine ⟨fun he => ?_, by simpa using hl, hca, hp, by simpa using hs⟩
  rw [List.map_eq_nil_iff] at he
  rw [he, stripContinuations, ok.injEq, toList_encode] at hs
  simp at hs

lemma length_encode (hrp : Hrp) (p : Bytes) : (encode hrp p).toList.length = 4 + (8 * p.length + 4) / 5 := by
  obtain ⟨-, pad, hp, hl, -⟩ := groups_convert8to5 p
  have hh : hrp.text.toList.length = 3 := by cases hrp <;> rfl
  rw [toList_encode, List.length_append, List.length_cons, dataChars, List.length_map, hh]
  omega

/-- An encoding is decoded to its prefix and payload as far as the limit on the input allows. -/
lemma decode_encode_ok_iff {hrp : Hrp} {p : Bytes} (hp : p ≠ []) {x : Hrp × Bytes} :
    decode unicodeLower (encode hrp p) = .ok x ↔ p.length ≤ 5117 ∧ x = (hrp, p) := by
  have hf : (encode hrp p).toList.length ≤ MAX_INPUT_LEN ↔ p.length ≤ 5117 := by
    rw [length_encode, show MAX_INPUT_LEN = 8192 from rfl]
    omega
  have hde : p.length ≤ 5117 → decode unicodeLower (encode hrp p) = .ok (hrp, p) := by
    intro hl
    have hch : ∀ c ∈ (encode hrp p).toList, LowerAscii c := fun c hc =>
      lowerAscii_of_mem (List.mem_append_left _ (mem_textChars hc))
    have hd := @decode_spelling unicodeLower hrp p _ id hp (Continued.refl _) (hf.2 hl)
      (fun c hc => ⟨(hch c hc).ascii, (hch c hc).lower⟩)
      (mixedCase_map (.inr fun c hc => (hch c hc).not_upper))
    rwa [List.map_id, String.ofList_toList] at hd
  constructor
  · intro h
    obtain ⟨-, hl, -⟩ := (@decode_ok_iff unicodeLower _ x.1 x.2).1 h
    have hl := hf.1 hl
    exact ⟨hl, ok.inj (h.symm.trans (hde hl))⟩
  · rintro ⟨hl, rfl⟩
    exact hde hl

end Decode

/-- The framing is exact on ASCII. An encoding is decoded to its prefix and
payload, also when it is broken by continuations and when it is written in upper
case; and a text that is decoded normalises to the encoding of the result, so
two texts with one message have one normal form. -/
theorem framing_exact (unicodeLower : List Char → List Char) :
    (∀ (hrp : Hrp) (p : Bytes) (t : List Char), p ≠ [] → Continued (encode hrp p).toList t →
      t.length ≤ MAX_INPUT_LEN →
      decode unicodeLower (String.ofList t) = .ok (hrp, p) ∧
      decode unicodeLower (String.ofList (t.map Char.toUpper)) = .ok (hrp, p)) ∧
    (∀ (s : String) (hrp : Hrp) (p : Bytes), isAscii s.toList = true → decode unicodeLower s = .ok (hrp, p) →
      encode hrp p = String.ofList (deleteContinuations false (s.toList.map Char.toLower))) ∧
    ∀ (s s' : String) (hrp : Hrp) (p : Bytes), isAscii s.toList = true → isAscii s'.toList = true →
      decode unicodeLower s = .ok (hrp, p) → decode unicodeLower s' = .ok (hrp, p) →
      deleteContinuations false (s.toList.map Char.toLower) =
        deleteContinuations false (s'.toList.map Char.toLower) := by
  have normal : ∀ (s : String) (hrp : Hrp) (p : Bytes), isAscii s.toList = true →
      decode unicodeLower s = .ok (hrp, p) →
      (encode hrp p).toList = deleteContinuations false (s.toList.map Char.toLower) := by
    intro s hrp p hs h
    obtain ⟨-, -, -, -, hst⟩ := decode_ok_iff.1 h
    rw [lower, if_pos hs] at hst
    simpa using stripContinuations_ok hst
  refine ⟨fun hrp p t hp ht hl => ?_, fun s hrp p hs h => ?_, fun s s' hrp p hs hs' h h' => ?_⟩
  · have hch : ∀ c ∈ t, LowerAscii c := fun c hc =>
      lowerAscii_of_mem (List.mem_append.2 ((ht.mem hc).imp mem_textChars id))
    constructor
    · have hd := @decode_spelling unicodeLower hrp p t id hp ht hl
        (fun c hc => ⟨(hch c hc).ascii, (hch c hc).lower⟩)
        (mixedCase_map (.inr fun c hc => (hch c hc).not_upper))
      rwa [List.map_id] at hd
    · exact decode_spelling hp ht hl (fun c hc => ⟨(hch c hc).ascii_upper, (hch c hc).lower_upper⟩)
        (mixedCase_map (.inl fun c hc => (hch c hc).upper_not_lower))
  · rw [← normal s hrp p hs h, String.ofList_toList]
  · rw [← normal s hrp p hs h, normal s' hrp p hs' h']

/-- One byte, its encoding broken after two characters, in both cases. -/
theorem framing_exact_byte : ∃ s s' : String,
    s.toList = ['l', 'n', '+', ' ', '\n', 'o', '1', 'p', 'g'] ∧ s'.toList = s.toList.map Char.toUpper ∧
    decode id s = .ok (.lno, [10]) ∧ decode id s' = .ok (.lno, [10]) ∧
    encode .lno [10] = String.ofList (deleteContinuations false (s.toList.map Char.toLower)) ∧
    deleteContinuations false (s.toList.map Char.toLower) = deleteContinuations false (s'.toList.map Char.toLower) := by
  have hg : convert8to5 [10] = [1, 8] :=
    (groups_convert8to5 [10]).unique_left ⟨by decide, 2, by decide, by decide, by simp [ofWords, Nat.ofDigits_cons]⟩
  have he : (encode .lno [10]).toList = ['l', 'n', 'o', '1', 'p', 'g'] := by
    rw [toList_encode, dataChars, hg]
    rfl
  have hb : Continued (encode .lno [10]).toList ['l', 'n', '+', ' ', '\n', 'o', '1', 'p', 'g'] := by
    rw [he]
    exact .keep 'l' (.plus 'n' 'o' [' ', '\n'] (by simp [whitespace]) (Continued.refl _))
  obtain ⟨forward, back, unique⟩ := framing_exact id
  obtain ⟨h, hup⟩ := forward .lno [10] _ (by decide) hb (by decide)
  have hs := String.toList_ofList (l := ['l', 'n', '+', ' ', '\n', 'o', '1', 'p', 'g'])
  have hs' := String.toList_ofList (l := ['l', 'n', '+', ' ', '\n', 'o', '1', 'p', 'g'].map Char.toUpper)
  refine ⟨_, _, hs, by rw [hs, hs'], h, hup, back _ _ _ ?_ h, unique _ _ _ _ ?_ ?_ h hup⟩
  · rw [hs]; rfl
  · rw [hs]; rfl
  · rw [hs']; rfl

end AgentWallet.Bolt12.Bech32
