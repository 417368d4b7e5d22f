import AgentWallet.Bolt11.Readers
import AgentWallet.Lib.Numeral
/-!
# Where the two readers agree

An invoice that the first reader accepts is a text in one case, with a known network,
an amount of at most 14 digits and whole tagged fields. The second reader finds the
same amount in it. It finds the same payment hash if and only if the first and the
last field of a payment hash hold the same one (`readers_agree_iff`): of several the
first reader takes the last, the second the first (`readers_disagree`).
-/

namespace AgentWallet.Bolt11

open AgentWallet.Lib List Except
open AgentWallet.Core.Validation (Network mixedCase bech32Polymod bech32HrpExpand BECH32_CHARSET)
open AgentWallet.Bolt12.Bech32 (lower rfind charset nodup_charset rfind_of_append)
open AgentWallet.Chain.Address (bech32Char Parts parts_iff mapM_charset one_not_mem)

/-! ## Tagged fields -/

structure Field where
  tag : ℕ
  payload : List ℕ

/-- The tagged fields, as far as they are whole. -/
def fieldsOf : List ℕ → List Field
  | tag :: hi :: lo :: rest =>
    if hi * 32 + lo > rest.length then []
    else ⟨tag, rest.take (hi * 32 + lo)⟩ :: fieldsOf (rest.drop (hi * 32 + lo))
  | _ => []
termination_by body => body.length
decreasing_by
  rw [List.length_drop]
  simp only [List.length_cons]
  omega

/-- A field of tag `p` and 52 groups. -/
def Field.isHash (f : Field) : Bool := f.tag = 1 ∧ f.payload.length = 52

def hashFields (body : List ℕ) : List (List ℕ) := ((fieldsOf body).filter Field.isHash).map Field.payload

def hashBits (payload : List ℕ) : ℕ := ofWords 5 payload / 2 ^ 4

def body (u : Unicode) (invoice : List Char) : List ℕ :=
  match bech32DecodeUnrestricted u invoice with
  | .ok (_, data) => tagged data
  | .error _ => []

def OneHash (u : Unicode) (invoice : List Char) : Prop :=
  ∀ p ∈ (hashFields (body u invoice)).head?, ∀ q ∈ (hashFields (body u invoice)).getLast?, hashBits p = hashBits q

/-! ## Payment hashes -/

def hashBytes (payload : List ℕ) : Bytes := (from5bitBytes payload).take 32

lemma u5ToU8Step_eq {s : Regroup} {v : ℕ} (hs : s.bits < 8) (hv : v < 32) :
    u5ToU8Step s v = .ok (s.push 5 8 v) ∧ (s.push 5 8 v).bits < 8 := by
  unfold u5ToU8Step Regroup.push
  rw [if_neg (by omega), Regroup.drain]
  by_cases hb : s.bits + 5 ≥ 8
  · have hr : ¬ (0 < 8 ∧ 8 ≤ s.bits + 5 - 8) := by omega
    rw [if_pos hb, if_pos ⟨by decide, hb⟩, Regroup.drain, if_neg hr]
    exact ⟨rfl, by dsimp only; omega⟩
  · rw [if_neg hb, if_neg fun h => hb h.2]
    exact ⟨rfl, by dsimp only; omega⟩

lemma foldlM_u5ToU8Step {data : List ℕ} (hd : ∀ v ∈ data, v < 32) {s : Regroup} (hs : s.bits < 8) :
    data.foldlM u5ToU8Step s = .ok (data.foldl (Regroup.push 5 8) s) := by
  induction data generalizing s with
  | nil => rfl
  | cons v data ih =>
    obtain ⟨hv, hd⟩ := forall_mem_cons.1 hd
    obtain ⟨hst, hb⟩ := u5ToU8Step_eq hs hv
    rw [foldlM_cons, hst]
    exact ih hd hb

lemma u5ToU8_eq {data : List ℕ} (hd : ∀ v ∈ data, v < 32) : u5ToU8 data = .ok (from5bitBytes data) := by
  unfold u5ToU8
  rw [foldlM_u5ToU8Step hd (by decide)]
  rfl

variable {p : List ℕ}

/-- A field of 52 groups is 32 bytes, and four bits that are dropped. -/
lemma from5bitBytes_hash (hp : ∀ v ∈ p, v < 32) (hle : p.length = 52) :
    (from5bitBytes p).length = 32 ∧ ofBE (from5bitBytes p) = hashBits p := by
  obtain ⟨⟨hv, hw⟩, ha, hb, hs⟩ := regroup_spec 5 8 (by decide) hp
  have ho : (p.foldl (Regroup.push 5 8) {}).out.length = 32 := by omega
  have hl : (p.foldl (Regroup.push 5 8) {}).bits = 4 := by omega
  refine ⟨by rw [from5bitBytes, length_map, ho], ?_⟩
  have hn : (from5bitBytes p).map UInt8.toNat = (p.foldl (Regroup.push 5 8) {}).out := by
    rw [from5bitBytes, map_map]
    refine (map_congr_left fun x hx => ?_).trans (map_id _)
    exact UInt8.toNat_ofNat_of_lt' (hw x hx)
  have hbe : ofBE (from5bitBytes p) = ofWords 8 ((from5bitBytes p).map UInt8.toNat) := by
    rw [ofWords, ← Numeral.value_eq_ofDigits, Numeral.value, foldl_map, ofBE]
    rfl
  rw [hbe, hn, hv, ha, hl, hashBits]

lemma hashBytes_eq (hp : ∀ v ∈ p, v < 32) (hl : p.length = 52) :
    hashBytes p = toBE 32 (hashBits p) ∧ ofBE (hashBytes p) = hashBits p := by
  obtain ⟨hb, hv⟩ := from5bitBytes_hash hp hl
  rw [hashBytes, take_of_length_le hb.le, ← hv, ← hb, toBE_ofBE]
  exact ⟨rfl, rfl⟩

lemma hexdigest_hashBytes_inj {q : List ℕ} (hp : ∀ v ∈ p, v < 32) (hq : ∀ v ∈ q, v < 32) (hpl : p.length = 52)
    (hql : q.length = 52) : hexdigest (hashBytes p) = hexdigest (hashBytes q) ↔ hashBits p = hashBits q := by
  obtain ⟨hpb, hpv⟩ := hashBytes_eq hp hpl
  obtain ⟨hqb, hqv⟩ := hashBytes_eq hq hql
  constructor
  · intro h
    have hb := congrArg fromHex h
    rw [fromHex_hexdigest, fromHex_hexdigest, ok.injEq] at hb
    rw [← hpv, ← hqv, hb]
  · intro h
    rw [hpb, hqb, h]

/-! ## The loops over the fields -/

lemma groupLength {hi lo : ℕ} (h : lo < 32) : (hi <<< 5) ||| lo = hi * 32 + lo := by
  have hlo : lo < 2 ^ 5 := h
  rw [← Nat.shiftLeft_add_eq_or_of_lt hlo, Nat.shiftLeft_eq]

lemma idxOf?_bech32Char {v : ℕ} (h : v < 32) : BECH32_CHARSET.idxOf? (bech32Char v) = some v :=
  (idxOf?_eq_some_iff nodup_charset 'q').2 ⟨h, rfl⟩

lemma to5bit_map (hp : ∀ v ∈ p, v < 32) : to5bit (p.map bech32Char) = p := by
  have hm : (p.map bech32Char).mapM (BECH32_CHARSET.idxOf? ·) = some p := mapM_charset.2 ⟨hp, rfl⟩
  rw [to5bit, hm, Option.getD_some]

lemma fieldsOf_short {body : List ℕ} (h : ∀ tag hi lo rest, body = tag :: hi :: lo :: rest → False) (fields : Fields) :
    fieldsOf body = [] ∧ readFields fields body = .ok fields ∧ findPaymentHash (body.map bech32Char) = none := by
  match body, h with
  | [], _ => simp [fieldsOf, readFields, findPaymentHash]
  | [_], _ => simp [fieldsOf, readFields, findPaymentHash]
  | [_, _], _ => simp [fieldsOf, readFields, findPaymentHash]
  | tag :: hi :: lo :: rest, h => exact (h tag hi lo rest rfl).elim

lemma readField_other {fields fields' : Fields} {tag : ℕ} {payload : List ℕ}
    (ho : ¬ (tag = 1 ∧ payload.length = 52)) (h : readField fields tag payload = .ok fields') :
    fields'.paymentHash = fields.paymentHash := by
  unfold readField at h
  rw [if_neg ho] at h
  split at h
  · obtain ⟨b, -, rfl⟩ := map_eq_ok.1 h
    rfl
  split at h
  · cases h
    rfl
  · cases h
    rfl

lemma hashFields_cons (tag hi lo : ℕ) (rest : List ℕ) (hle : ¬ hi * 32 + lo > rest.length) :
    hashFields (tag :: hi :: lo :: rest) =
      (if tag = 1 ∧ hi * 32 + lo = 52 then [rest.take (hi * 32 + lo)] else []) ++
        hashFields (rest.drop (hi * 32 + lo)) := by
  have hl : (rest.take (hi * 32 + lo)).length = hi * 32 + lo := by
    rw [length_take]
    omega
  rw [hashFields, fieldsOf, if_neg hle, filter_cons]
  by_cases hh : tag = 1 ∧ hi * 32 + lo = 52
  · rw [if_pos hh, if_pos (by simpa [Field.isHash, hl] using hh)]
    rfl
  · rw [if_neg hh, if_neg (by simpa [Field.isHash, hl] using hh)]
    rfl

lemma bech32Char_eq_p : ∀ v < 32, bech32Char v = 'p' ↔ v = 1 := by decide

section Found

variable {tag hi lo : ℕ} {rest : List ℕ}

lemma findPaymentHash_hash (hr : ∀ v ∈ rest, v < 32) (hhi : hi < 32) (hlo : lo < 32)
    (hle : ¬ hi * 32 + lo > rest.length) (hh : tag = 1 ∧ hi * 32 + lo = 52) :
    findPaymentHash ((tag :: hi :: lo :: rest).map bech32Char) =
      some (hexdigest (hashBytes (rest.take (hi * 32 + lo)))) := by
  have ht : ∀ v ∈ rest.take (hi * 32 + lo), v < 32 := fun v hv => hr v (mem_of_mem_take hv)
  have hl : (rest.take (hi * 32 + lo)).length = 52 := by
    rw [length_take]
    omega
  have hp : bech32Char tag = 'p' ∧ hi * 32 + lo = 52 := ⟨by rw [hh.1]; rfl, hh.2⟩
  have hf := (from5bitBytes_hash ht hl).1
  simp only [map_cons, findPaymentHash, idxOf?_bech32Char hhi, idxOf?_bech32Char hlo, length_map]
  rw [if_neg hle, if_pos hp, ← map_take, to5bit_map ht, if_neg (by omega), hashBytes]

lemma findPaymentHash_other (ht : tag < 32) (hhi : hi < 32) (hlo : lo < 32) (hle : ¬ hi * 32 + lo > rest.length)
    (hh : ¬ (tag = 1 ∧ hi * 32 + lo = 52)) :
    findPaymentHash ((tag :: hi :: lo :: rest).map bech32Char) =
      findPaymentHash ((rest.drop (hi * 32 + lo)).map bech32Char) := by
  have hp : ¬ (bech32Char tag = 'p' ∧ hi * 32 + lo = 52) := by
    rw [bech32Char_eq_p tag ht]
    exact hh
  rw [map_cons, map_cons, map_cons, findPaymentHash, idxOf?_bech32Char hhi, idxOf?_bech32Char hlo]
  dsimp only
  rw [length_map, if_neg hle, if_neg hp, map_drop]

end Found

/-- On fields that are all whole, the one loop returns the last payment hash and the
other the first. -/
lemma readFields_spec (body : List ℕ) (hb : ∀ v ∈ body, v < 32) {fields fields' : Fields}
    (h : readFields fields body = .ok fields') :
    fields'.paymentHash = ((hashFields body).getLast?.map hashBytes).or fields.paymentHash ∧
      findPaymentHash (body.map bech32Char) = (hashFields body).head?.map fun p => hexdigest (hashBytes p) := by
  induction body using fieldsOf.induct generalizing fields with
  | case1 tag hi lo rest hgt =>
    simp only [forall_mem_cons] at hb
    rw [readFields, groupLength hb.2.2.1, if_pos hgt] at h
    cases h
  | case2 tag hi lo rest hle ih =>
    simp only [forall_mem_cons] at hb
    obtain ⟨hta, hhi, hlo, hr⟩ := hb
    have hd : ∀ v ∈ rest.drop (hi * 32 + lo), v < 32 := fun v hv => hr v (mem_of_mem_drop hv)
    have ht : ∀ v ∈ rest.take (hi * 32 + lo), v < 32 := fun v hv => hr v (mem_of_mem_take hv)
    rw [readFields, groupLength hlo, if_neg hle] at h
    obtain ⟨fields₁, hf, h⟩ := bind_eq_ok.1 h
    obtain ⟨hl, hfi⟩ := ih hd h
    rw [hashFields_cons tag hi lo rest hle]
    by_cases hh : tag = 1 ∧ hi * 32 + lo = 52
    · rw [if_pos hh, findPaymentHash_hash hr hhi hlo hle hh]
      refine ⟨?_, rfl⟩
      -- a later payment hash, if there is one, overwrites this one
      have hlen : (rest.take (hi * 32 + lo)).length = 52 := by
        rw [length_take]
        omega
      rw [readField, if_pos ⟨hh.1, hlen⟩, u5ToU8_eq ht] at hf
      cases hf
      rw [hl, getLast?_append]
      cases (hashFields (rest.drop (hi * 32 + lo))).getLast? with
      | none | some last => rfl
    · have ho : ¬ (tag = 1 ∧ (rest.take (hi * 32 + lo)).length = 52) := by
        rw [length_take]
        omega
      rw [if_neg hh, nil_append, hl, readField_other ho hf,
        findPaymentHash_other hta hhi hlo hle hh, hfi]
      exact ⟨rfl, rfl⟩
  | case3 body hs =>
    obtain ⟨hn, hre, hfind⟩ := fieldsOf_short hs fields
    rw [hre, ok.injEq] at h
    subst h
    rw [hfind, hashFields, hn]
    exact ⟨rfl, rfl⟩

/-! ## The text -/

variable {c : Char}

section Text

variable {u : Unicode} {s hrp : List Char} {data : List ℕ}

/-- What the first reader has checked of the text. -/
lemma bech32DecodeUnrestricted_ok (h : bech32DecodeUnrestricted u s = .ok (hrp, data)) :
    ∃ full, Parts hrp full (lower u.lower s) ∧ data = full.take (full.length - 6) := by
  unfold bech32DecodeUnrestricted at h
  split at h
  · cases h
  dsimp only at h
  split at h
  · cases h
  case _ pos hp =>
    split at h
    · cases h
    rename_i hl
    simp only [not_or] at hl
    split at h
    · cases h
    case _ full hf =>
      split at h
      · cases h
      · cases h
        exact ⟨full, parts_iff.2 ⟨pos, hp, hl.1, hl.2, rfl, hf⟩, rfl⟩

lemma strip_eq_self (hf : ∀ c ∈ s.head?, isSpace c = false) (hl : ∀ c ∈ s.getLast?, isSpace c = false) :
    strip s = s := by
  have hd : ∀ {t : List Char}, (∀ c ∈ t.head?, isSpace c = false) → t.dropWhile isSpace = t := by
    intro t ht
    cases t with
    | nil => rfl
    | cons c t => exact dropWhile_cons_of_neg (by rw [ht c rfl]; exact Bool.false_ne_true)
  have hr : ∀ c ∈ s.reverse.head?, isSpace c = false := by
    rw [head?_reverse]
    exact hl
  rw [strip, stripBy, hd hf, hd hr, reverse_reverse]

lemma toLower_space (h : isSpace c = true) : c.toLower = c := by
  have hu : ¬ (c.val ≥ 65 ∧ c.val ≤ 90) := by
    rintro ⟨hge, hle⟩
    have hge' : 65 ≤ c.toNat := hge
    have hle' : c.toNat ≤ 90 := hle
    simp only [isSpace, decide_eq_true_eq] at h
    omega
  exact dif_neg hu

lemma lower_space (h : isSpace c = true) (t : List Char) :
    (lower u.lower (c :: t)).head? = some c ∧ (lower u.lower (t ++ [c])).getLast? = some c := by
  constructor
  · unfold lower
    split
    · rw [map_cons, head?_cons, toLower_space h]
    · exact u.lower_first c t h
  · unfold lower
    split
    · rw [map_append, map_singleton, getLast?_concat, toLower_space h]
    · exact u.lower_last c t h

lemma not_space_of_charset (h : c ∈ charset) : isSpace c = false := by
  have hr : charset.all (fun c => 33 ≤ c.toNat ∧ c.toNat < 128) = true := by decide
  have hc := of_decide_eq_true (all_eq_true.1 hr c h)
  simp only [isSpace, decide_eq_false_iff_not]
  omega

lemma strip_of_parts (hp : Parts hrp data (lower u.lower s)) (hln : startsWith hrp "ln" = true) : strip s = s := by
  obtain ⟨rest, hr⟩ := isPrefixOf_iff_prefix.1 hln
  apply strip_eq_self
  · intro c hc
    by_contra hs
    obtain ⟨t, rfl⟩ := head?_eq_some_iff.1 hc
    have hh := (lower_space (u := u) (by simpa using hs) t).1
    rw [hp.text, ← hr] at hh
    cases hh
    exact hs (by decide)
  · intro c hc
    by_contra hs
    obtain ⟨t, rfl⟩ := getLast?_eq_some_iff.1 hc
    have hl := (lower_space (u := u) (by simpa using hs) t).2
    rcases eq_nil_or_concat' data with rfl | ⟨init, v, rfl⟩
    · exact absurd hp.six (by decide)
    have he : hrp ++ '1' :: (init ++ [v]).map bech32Char = (hrp ++ '1' :: init.map bech32Char) ++ [bech32Char v] := by
      simp
    rw [hp.text, he, getLast?_concat] at hl
    cases hl
    exact hs (not_space_of_charset (getD_mem (hp.words v (by simp))))

lemma paymentHashFromBolt11_eq {full : List ℕ} (hp : Parts hrp full (lower u.lower (strip s)))
    (hln : startsWith hrp "ln" = true) (hl : 7 + 104 ≤ (full.take (full.length - 6)).length) :
    paymentHashFromBolt11 u s = findPaymentHash ((tagged (full.take (full.length - 6))).map bech32Char) := by
  have hs : startsWith (hrp ++ '1' :: full.map bech32Char) "ln" = true := by
    obtain ⟨rest, rfl⟩ := isPrefixOf_iff_prefix.1 hln
    exact isPrefixOf_iff_prefix.2 ⟨rest ++ '1' :: full.map bech32Char, by simp⟩
  have hd : (hrp ++ '1' :: full.map bech32Char).drop (hrp.length + 1) = full.map bech32Char := by simp
  have ht : tagged ((full.map bech32Char).take (full.length - 6)) =
      (tagged (full.take (full.length - 6))).map bech32Char := by
    simp only [tagged, ← map_take, ← map_drop, length_map]
  rw [length_take] at hl
  rw [paymentHashFromBolt11, hp.text]
  rw [if_neg (by rw [hs]; decide), rfind_of_append (one_not_mem hp.words)]
  dsimp only
  rw [hd, length_map, if_neg (by omega), ht]

end Text

/-! ## The amount -/

variable {multiplier : Multiplier} {digits : List Char}

section Amount

variable {u : Unicode} {s rest hrp : List Char}

lemma not_decimal_of_letter (h : 'a' ≤ c ∧ c ≤ 'z') : isDecimal u c = false := by
  have hge : 97 ≤ c.toNat := h.1
  have hle : c.toNat ≤ 122 := h.2
  have hd : ¬ ('0' ≤ c ∧ c ≤ '9') := by
    rintro ⟨-, h9⟩
    have h9' : c.toNat ≤ 57 := h9
    omega
  have ha : isAscii c = true := by
    rw [isAscii, decide_eq_true_eq]
    omega
  rw [isDecimal, digitValue, if_neg hd, if_pos ha]
  rfl

lemma amountPattern_letter (h : 'a' ≤ c ∧ c ≤ 'z') : amountPattern u (c :: rest) = none := by
  have hn : (c :: rest).takeWhile (isDecimal u) = [] :=
    takeWhile_cons_of_neg (by rw [not_decimal_of_letter h]; exact Bool.false_ne_true)
  rw [amountPattern, hn]
  exact if_pos (.inl rfl)

lemma lettersPattern_append {name : List Char} {found : List Char × Multiplier} (hne : name ≠ [])
    (hl : ∀ c ∈ name, 'a' ≤ c ∧ c ≤ 'z') (hf : amountPattern u rest = some found) :
    lettersPattern u (name ++ rest) = some found := by
  induction name with
  | nil => exact (hne rfl).elim
  | cons c name ih =>
    obtain ⟨hc, hn⟩ := forall_mem_cons.1 hl
    rw [cons_append, lettersPattern, if_pos hc]
    cases name with
    | nil =>
      rw [nil_append, hf]
    | cons c' name =>
      rw [cons_append, amountPattern_letter (hn c' (by simp))]
      exact ih (by simp) hn

def Multiplier.text : Multiplier → List Char
  | .btc => []
  | .milli => ['m']
  | .micro => ['u']
  | .nano => ['n']
  | .pico => ['p']

lemma multiplierOf_text (h : multiplierOf c = some multiplier) : multiplier.text = [c] := by
  unfold multiplierOf at h
  split at h
  case h_5 => cases h
  all_goals
    cases h
    rfl

lemma multiplierPattern_iff :
    multiplierPattern rest = some multiplier ↔ ∃ tail, atEnd tail ∧ rest = multiplier.text ++ tail := by
  constructor
  · intro h
    cases rest with
    | nil =>
      cases h
      exact ⟨[], rfl, rfl⟩
    | cons c rest =>
      rw [multiplierPattern] at h
      split at h
      case _ found hf =>
        obtain ⟨he, h⟩ := Option.ite_none_right_eq_some.1 h
        cases h
        exact ⟨rest, he, by rw [multiplierOf_text hf]; rfl⟩
      case _ =>
        obtain ⟨he, h⟩ := Option.ite_none_right_eq_some.1 h
        cases h
        exact ⟨c :: rest, he, rfl⟩
  · rintro ⟨tail, he, rfl⟩
    obtain rfl | rfl := of_decide_eq_true he
    · cases multiplier <;> rfl
    · cases multiplier <;> rfl

lemma amountPattern_iff : amountPattern u rest = some (digits, multiplier) ↔ digits ≠ [] ∧ digits.length ≤ 14 ∧
    (∀ c ∈ digits, isDecimal u c = true) ∧ ∃ tail, atEnd tail ∧ rest = digits ++ (multiplier.text ++ tail) := by
  unfold amountPattern
  constructor
  · intro h
    obtain ⟨hb, h⟩ := Option.ite_none_left_eq_some.1 h
    obtain ⟨found, hf, h⟩ := Option.map_eq_some_iff.1 h
    cases h
    obtain ⟨tail, he, ht⟩ := multiplierPattern_iff.1 hf
    obtain ⟨hne, hl⟩ := not_or.1 hb
    refine ⟨hne, Nat.not_lt.1 hl, fun c hc => mem_takeWhile_imp hc, tail, he, ?_⟩
    rw [← ht, takeWhile_append_dropWhile]
  · rintro ⟨hne, hl, hd, tail, he, rfl⟩
    -- no digit follows, so the pattern takes these
    have hs : ∀ c ∈ (multiplier.text ++ tail).head?, isDecimal u c = false := by
      obtain rfl | rfl := of_decide_eq_true he <;> cases multiplier <;> rintro c ⟨⟩ <;> rfl
    have hsp : (multiplier.text ++ tail).takeWhile (isDecimal u) = [] ∧
        (multiplier.text ++ tail).dropWhile (isDecimal u) = multiplier.text ++ tail := by
      cases ht : multiplier.text ++ tail with
      | nil => exact ⟨rfl, rfl⟩
      | cons c rest =>
        rw [ht] at hs
        simp [hs c rfl]
    have hb : ¬ (digits = [] ∨ digits.length > 14) := by simp [hne, hl]
    rw [takeWhile_append_of_pos hd, dropWhile_append_of_pos hd, hsp.1, hsp.2, append_nil,
      if_neg hb, multiplierPattern_iff.2 ⟨tail, he, rfl⟩, Option.map_some]

lemma isDecimal_of_int {value : ℕ} (h : intOfDigits u digits = some value) : ∀ c ∈ digits, isDecimal u c = true := by
  obtain ⟨values, hm, -⟩ := Option.map_eq_some_iff.1 h
  clear h
  induction digits generalizing values with
  | nil => exact fun c hc => (not_mem_nil hc).elim
  | cons d digits ih =>
    rw [mapM_cons] at hm
    obtain ⟨v, hv, hm⟩ := Option.bind_eq_some_iff.1 hm
    obtain ⟨vs, hvs, -⟩ := Option.bind_eq_some_iff.1 hm
    refine forall_mem_cons.2 ⟨?_, ih vs hvs⟩
    rw [isDecimal, hv]
    rfl

lemma amountPattern_eq {value : ℕ} (hs : splitMultiplier rest = (digits, multiplier))
    (hdi : isDigits u digits = true) (hle : ¬ digits.length > 14) (hv : intOfDigits u digits = some value) :
    amountPattern u rest = some (digits, multiplier) := by
  have hne : digits ≠ [] := by
    rintro rfl
    exact absurd hdi (by simp [isDigits])
  have hd := isDecimal_of_int hv
  unfold splitMultiplier at hs
  split at hs
  case _ hl =>
    cases hs
    exact (hne (getLast?_eq_none_iff.1 hl)).elim
  case _ c hl =>
    obtain ⟨init, rfl⟩ := getLast?_eq_some_iff.1 hl
    split at hs
    case _ found hf =>
      -- the last character is the multiplier
      rw [dropLast_concat] at hs
      cases hs
      exact amountPattern_iff.2 ⟨hne, Nat.not_lt.1 hle, hd, [], rfl, by rw [multiplierOf_text hf]; rfl⟩
    case _ hn =>
      cases hs
      exact amountPattern_iff.2 ⟨hne, Nat.not_lt.1 hle, hd, [], rfl, by simp [Multiplier.text]⟩

lemma networkOf_letters {name : String} (h : networkOf rest = some name) :
    name.toList ≠ [] ∧ (∀ c ∈ name.toList, 'a' ≤ c ∧ c ≤ 'z') ∧ rest = name.toList ++ rest.drop name.length := by
  have hn : ∀ name ∈ networkPrefixOrder,
      name.toList ≠ [] ∧ name.toList.all (fun c => 'a' ≤ c ∧ c ≤ 'z') = true := by decide
  obtain ⟨hne, hl⟩ := hn name (mem_of_find?_eq_some h)
  refine ⟨hne, fun c hc => of_decide_eq_true (all_eq_true.1 hl c hc), ?_⟩
  have hs : startsWith rest name = true := find?_some h
  obtain ⟨tail, ht⟩ := isPrefixOf_iff_prefix.1 hs
  rw [← ht, ← String.length_toList, drop_left]

lemma parseAmountDigits_ok {msat : ℕ} (h : parseAmountDigits u digits multiplier = .ok msat) :
    isDigits u digits = true ∧ ¬ digits.length > 14 ∧
      ∃ value, intOfDigits u digits = some value ∧ msatOf value multiplier = some msat := by
  unfold parseAmountDigits at h
  split at h
  · cases h
  rename_i hd
  split at h
  · cases h
  rename_i hl
  split at h
  · cases h
  case _ value hv =>
    split at h
    · cases h
    case _ found hm =>
      split at h
      · cases h
      · cases h
        exact ⟨by simpa using hd, hl, value, hv, hm⟩

lemma hrpAmountRe_eq {network : Network} {msat : ℕ} (hn : validateBolt11Network network hrp = .ok ())
    (hln : startsWith hrp "ln" = true) (h : parseBolt11Amount u hrp = .ok (some msat)) :
    ∃ digits multiplier value, hrpAmountRe u hrp = some (digits, multiplier) ∧ intOfDigits u digits = some value ∧
      msatOf value multiplier = some msat := by
  rw [validateBolt11Network, if_pos hln] at hn
  rw [parseBolt11Amount, if_neg (by rw [hln]; decide)] at h
  dsimp only at hn h
  split at hn
  case _ name hna =>
    rw [hna] at h
    dsimp only at h
    obtain ⟨hne, hl, hr⟩ := networkOf_letters hna
    split at h
    · cases h
    obtain ⟨found, hpa, hs⟩ := map_eq_ok.1 h
    cases hs
    obtain ⟨hd, hle, value, hv, hm⟩ := parseAmountDigits_ok hpa
    have hp := amountPattern_eq (Prod.mk.eta).symm hd hle hv
    refine ⟨_, _, value, ?_, hv, hm⟩
    have hl' := lettersPattern_append hne hl hp
    rw [← hr] at hl'
    rw [hrpAmountRe, if_pos hln, hl']
  · cases hn

/-- The principal is that of the amount that the pattern finds, if it is whole. -/
lemma principal_iff {full : List ℕ} {n : ℕ} (ht : lower u.lower (strip s) = hrp ++ '1' :: full.map bech32Char)
    (hw : ∀ v ∈ full, v < 32) : principalSatsFromBolt11 u s = some n ↔ ∃ digits multiplier value,
      hrpAmountRe u hrp = some (digits, multiplier) ∧ intOfDigits u digits = some value ∧
        msatOf value multiplier = some (1000 * n) := by
  rw [principalSatsFromBolt11, ht, rfind_of_append (one_not_mem hw)]
  simp only [take_left]
  rcases hrpAmountRe u hrp with _ | ⟨digits, multiplier⟩
  · simp
  cases hv : intOfDigits u digits with
  | none => simp [hv]
  | some value =>
    cases hm : msatOf value multiplier with
    | none => simp [hv, hm]
    | some msat =>
      simp [hv, hm]
      omega

lemma startsWith_of_amount {amount : Option ℕ} (h : parseBolt11Amount u hrp = .ok amount) :
    startsWith hrp "ln" = true := by
  unfold parseBolt11Amount at h
  split at h
  · cases h
  case isFalse hln => simpa using hln

end Amount

/-! ## Agreement -/

section Agreement

variable {u : Unicode} {network : Network} {s : List Char} {d : Bolt11Decoded}

/-- What the first reader has accepted. -/
structure Accepted (u : Unicode) (network : Network) (s : List Char) (d : Bolt11Decoded) (hrp : List Char)
    (full : List ℕ) (fields : Fields) : Prop where
  parts : Parts hrp full (lower u.lower s)
  body : body u s = tagged (full.take (full.length - 6))
  network : validateBolt11Network network hrp = .ok ()
  amount : parseBolt11Amount u hrp = .ok d.amountMsat
  long : 7 + 104 ≤ (full.take (full.length - 6)).length
  read : readFields {} (tagged (full.take (full.length - 6))) = .ok fields
  hash : ∃ paymentHash, fields.paymentHash = some paymentHash ∧ d.paymentHashHex = hexdigest paymentHash

lemma decodeBolt11Minimal_ok (h : decodeBolt11Minimal u network s = .ok d) :
    ∃ hrp full fields, Accepted u network s d hrp full fields := by
  obtain ⟨⟨hrp, data⟩, hd, h⟩ := bind_eq_ok.1 h
  obtain ⟨_, hn, h⟩ := bind_eq_ok.1 h
  obtain ⟨amount, ha, h⟩ := bind_eq_ok.1 h
  obtain ⟨full, hp, rfl⟩ := bech32DecodeUnrestricted_ok hd
  split at h
  · cases h
  rename_i hl
  obtain ⟨fields, hf, h⟩ := bind_eq_ok.1 h
  split at h
  · cases h
  case _ paymentHash hh =>
    cases h
    refine ⟨hrp, full, fields, hp, ?_, hn, ha, Nat.not_lt.1 hl, hf, paymentHash, hh, rfl⟩
    rw [body, hd]

def Agree (u : Unicode) (s : List Char) (d : Bolt11Decoded) : Prop :=
  paymentHashFromBolt11 u s = some d.paymentHashHex ∧
    ∀ n, d.amountMsat = some (1000 * n) → principalSatsFromBolt11 u s = some n

lemma principal_of_accepted {hrp : List Char} {full : List ℕ} {fields : Fields}
    (h : Accepted u network s d hrp full fields) {n : ℕ} (hn : d.amountMsat = some (1000 * n)) :
    principalSatsFromBolt11 u s = some n := by
  have hln := startsWith_of_amount h.amount
  have ha := h.amount
  rw [hn] at ha
  refine (principal_iff ?_ h.parts.words).2 (hrpAmountRe_eq h.network hln ha)
  rw [strip_of_parts h.parts hln, h.parts.text]

lemma mem_of_mem_fieldsOf (body : List ℕ) : ∀ f ∈ fieldsOf body, ∀ v ∈ f.payload, v ∈ body := by
  fun_induction fieldsOf body with
  | case1 | case3 => exact fun f hf => (not_mem_nil hf).elim
  | case2 tag hi lo rest hle ih =>
    rw [forall_mem_cons]
    have hr : ∀ v ∈ rest, v ∈ tag :: hi :: lo :: rest := fun v hv => by simp [hv]
    exact ⟨fun v hv => hr v (mem_of_mem_take hv), fun f hf v hv => hr v (mem_of_mem_drop (ih f hf v hv))⟩

lemma mem_hashFields {body : List ℕ} (hb : ∀ v ∈ body, v < 32) (hp : p ∈ hashFields body) :
    (∀ v ∈ p, v < 32) ∧ p.length = 52 := by
  obtain ⟨f, hf, rfl⟩ := mem_map.1 hp
  obtain ⟨hm, hh⟩ := mem_filter.1 hf
  simp only [Field.isHash, decide_eq_true_eq] at hh
  exact ⟨fun v hv => hb v (mem_of_mem_fieldsOf body f hm v hv), hh.2⟩

/-- An accepted invoice is read alike by both if and only if its first and its last
payment hash are the same. -/
theorem readers_agree_iff (u : Unicode) (network : Network) (s : List Char) (d : Bolt11Decoded)
    (h : decodeBolt11Minimal u network s = .ok d) : Agree u s d ↔ OneHash u s := by
  obtain ⟨hrp, full, fields, ha⟩ := decodeBolt11Minimal_ok h
  have hw : ∀ v ∈ tagged (full.take (full.length - 6)), v < 32 := fun v hv =>
    ha.parts.words v (mem_of_mem_take (mem_of_mem_take (mem_of_mem_drop hv)))
  obtain ⟨hl, hf⟩ := readFields_spec _ hw ha.read
  have hln := startsWith_of_amount ha.amount
  have hfo := paymentHashFromBolt11_eq ((strip_of_parts ha.parts hln).symm ▸ ha.parts) hln ha.long
  obtain ⟨paymentHash, hh, hhe⟩ := ha.hash
  rw [← ha.body] at hw hl hf hfo
  -- the first reader has found a payment hash, so there is a last and a first one
  rw [hh, Option.or_none] at hl
  obtain ⟨q, hq, rfl⟩ := Option.map_eq_some_iff.1 hl.symm
  obtain ⟨p, hp⟩ : ∃ p, (hashFields (body u s)).head? = some p := by
    cases hfi : hashFields (body u s) with
    | nil =>
      rw [hfi] at hq
      cases hq
    | cons p rest => exact ⟨p, rfl⟩
  rw [hp, Option.map_some] at hf
  obtain ⟨hpw, hpl⟩ := mem_hashFields hw (mem_of_head? hp)
  obtain ⟨hqw, hql⟩ := mem_hashFields hw (mem_of_getLast? hq)
  have hs : Agree u s d ↔ hexdigest (hashBytes p) = hexdigest (hashBytes q) := by
    rw [Agree, hfo, hf, hhe, Option.some.injEq]
    exact and_iff_left fun n hn => principal_of_accepted ha hn
  have ho : OneHash u s ↔ hashBits p = hashBits q := by
    simp [OneHash, hp, hq]
  rw [hs, ho, hexdigest_hashBytes_inj hpw hqw hpl hql]

end Agreement

/-! ## Two payment hashes -/

def asciiOnly : Unicode where
  lower := id
  upper := id
  digit _ := none
  superscript _ := false
  lower_first _ _ _ := rfl
  lower_last _ _ _ := List.getLast?_concat

def hashField (c : Char) : List Char := "pp5".toList ++ List.replicate 52 c

def invoiceOf (fields : List Char) (checksum : String) : List Char :=
  "lnbc25m1".toList ++ List.replicate 7 'q' ++ fields ++ List.replicate 104 'q' ++ checksum.toList

def decodedOf (v : ℕ) : Bolt11Decoded := ⟨0, 3600, some 2500000000, none, hexdigest (hashBytes (List.replicate 52 v))⟩

/-- With one payment hash they agree. -/
theorem readers_agree_single : Agree asciiOnly (invoiceOf (hashField 'q') "thyx93") (decodedOf 0) := by
  have hf : hashFields (body asciiOnly (invoiceOf (hashField 'q') "thyx93")) = [List.replicate 52 0] := by
    decide +kernel
  refine (readers_agree_iff asciiOnly .bitcoin _ _ (by decide +kernel)).2 ?_
  rw [OneHash, hf]
  rintro p ⟨⟩ q ⟨⟩
  rfl

/-- With two payment hashes the readers disagree. -/
theorem readers_disagree : ¬ ∀ (u : Unicode) (network : Network) (s : List Char) (d : Bolt11Decoded),
    decodeBolt11Minimal u network s = .ok d → Agree u s d := by
  intro h
  have ha := h asciiOnly .bitcoin (invoiceOf (hashField 'q' ++ hashField 'r') "swvdyl") (decodedOf 3) (by decide +kernel)
  exact absurd ha.1 (by decide +kernel)

end AgentWallet.Bolt11
