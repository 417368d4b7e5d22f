import AgentWallet.Lib.Exceptions
import AgentWallet.Bolt12.BigSize
/-!
# TLV streams

A BOLT 12 message is a sequence of records `type, length, value` in strictly
ascending type order. `decodeStream` is the source's loop over an offset;
`decodeStreamFrom_ok_iff` is its invariant: from any offset it returns the
records collected so far followed by a canonical list whose encoding is the
rest of the input.
-/

namespace AgentWallet.Bolt12

open AgentWallet.Lib List Option Prod

def SIG_TYPE_MIN : Nat := 240
def SIG_TYPE_MAX : Nat := 1000

def isSignatureType (t : Nat) : Bool := SIG_TYPE_MIN ≤ t && t ≤ SIG_TYPE_MAX

structure TLVRecord where
  type : Nat
  value : Bytes
  deriving DecidableEq, Repr

namespace TLVRecord

def encode (r : TLVRecord) : Except Exn Bytes := do
  let t ← BigSize.encode r.type
  let l ← BigSize.encode r.value.length
  return t ++ l ++ r.value

def typeBytes (r : TLVRecord) : Except Exn Bytes := BigSize.encode r.type

def Fits (r : TLVRecord) : Prop := r.type < 2 ^ 64 ∧ r.value.length < 2 ^ 64

instance (r : TLVRecord) : Decidable r.Fits := inferInstanceAs (Decidable (_ ∧ _))

end TLVRecord

/-- The optional caps of `decode_stream`. -/
structure Caps where
  maxRecords : Option Nat := none
  maxValueBytes : Option Nat := none

def checkOrder (lastType : Option Nat) (t : Nat) : Except Exn Unit :=
  match lastType with
  | none => .ok ()
  | some l =>
    if t = l then .error (.bolt12DecodeError s!"TLV: duplicate type {t}")
    else if t < l then .error (.bolt12DecodeError s!"TLV: type {t} out of order after {l}")
    else .ok ()

/-- One turn of the loop: the record at `offset` and the offset after it, when
`count` records have been read and the last of them has type `lastType`. -/
def decodeRecord (caps : Caps) (data : Bytes) (offset : Nat) (lastType : Option Nat) (count : Nat) :
    Except Exn (TLVRecord × Nat) := do
  let (t, offset) ← BigSize.decode data offset
  let (length, offset) ← BigSize.decode data offset
  let valueCap := caps.maxValueBytes.getD length
  raiseIf (length > valueCap)
    (.bolt12DecodeError s!"TLV: record of type {t} declares length {length} > cap {valueCap}")
  let available := data.length - offset
  raiseIf (offset + length > data.length)
    (.bolt12DecodeError s!"TLV: value of type {t} truncated (need {length} bytes, have {available})")
  let value := slice data offset (offset + length)
  checkOrder lastType t
  let recordCap := caps.maxRecords.getD (count + 1)
  raiseIf (count ≥ recordCap) (.bolt12DecodeError s!"TLV: record count exceeds cap {recordCap}")
  return (⟨t, value⟩, offset + length)

/-! ## One record -/

open BigSize (At)

variable {data b : Bytes} {i offset count : Nat} {r : TLVRecord} {caps : Caps} {last : Option Nat}
  {rs out : List TLVRecord}

lemma at_trans {b' : Bytes} {j k : Nat} (h : At data i b j) (h' : At data j b' k) : At data i (b ++ b') k := by
  obtain ⟨hj, -, hd⟩ := h
  obtain ⟨hk, hle, hd'⟩ := h'
  refine ⟨by simp; omega, hle, ?_⟩
  rw [hd, hd', append_assoc]

lemma at_append {b' : Bytes} {k : Nat} (h : At data i (b ++ b') k) :
    At data i b (i + b.length) ∧ At data (i + b.length) b' k := by
  obtain ⟨hk, hle, hd⟩ := h
  have hd' : data.drop (i + b.length) = b' ++ data.drop k := by
    rw [← drop_drop, hd, append_assoc, drop_left]
  rw [length_append] at hk
  refine ⟨⟨rfl, by omega, ?_⟩, by omega, hle, hd'⟩
  rw [hd, hd', append_assoc]

lemma at_slice {n : Nat} (h : i + n ≤ data.length) :
    At data i (slice data i (i + n)) (i + n) :=
  ⟨by simp; omega, h, (slice_append_drop data (by omega)).symm⟩

lemma slice_of_at {j : Nat} (h : At data i b j) : slice data i (i + b.length) = b := by
  obtain ⟨rfl, -, hd⟩ := h
  simp [slice, hd]

lemma checkOrder_ok (last : Option Nat) (t : Nat) : checkOrder last t = .ok () ↔ ∀ l ∈ last, l < t := by
  cases last with
  | none => simp [checkOrder]
  | some l =>
    simp only [checkOrder, Option.mem_def, some.injEq, forall_eq']
    split_ifs <;> simp <;> omega

lemma TLVRecord.encode_ok_iff (r : TLVRecord) (b : Bytes) : r.encode = .ok b ↔
    ∃ t l, BigSize.encode r.type = .ok t ∧ BigSize.encode r.value.length = .ok l ∧ b = t ++ l ++ r.value := by
  simp only [encode, bind_eq_ok, pure, Except.pure, Except.ok.injEq]
  constructor
  · rintro ⟨t, ht, l, hl, rfl⟩; exact ⟨t, l, ht, hl, rfl⟩
  · rintro ⟨t, l, ht, hl, rfl⟩; exact ⟨t, ht, l, hl, rfl⟩

lemma TLVRecord.fits_iff (r : TLVRecord) : r.Fits ↔ ∃ b, r.encode = .ok b := by
  constructor
  · rintro ⟨ht, hl⟩
    obtain ⟨t, ht⟩ := BigSize.exists_encode ht
    obtain ⟨l, hl⟩ := BigSize.exists_encode hl
    exact ⟨_, (encode_ok_iff r _).2 ⟨t, l, ht, hl, rfl⟩⟩
  · rintro ⟨b, hb⟩
    obtain ⟨t, l, ht, hl, -⟩ := (encode_ok_iff r b).1 hb
    exact ⟨BigSize.encode_ok_lt ht, BigSize.encode_ok_lt hl⟩

lemma TLVRecord.encode_length_pos (h : r.encode = .ok b) : 0 < b.length := by
  obtain ⟨t, l, ht, -, rfl⟩ := (encode_ok_iff r b).1 h
  have := BigSize.encode_length_pos ht
  simp; omega

lemma decodeRecord_ok {offset' : Nat} (h : decodeRecord caps data offset last count = .ok (r, offset')) :
    (∀ l ∈ last, l < r.type) ∧ ∃ b, r.encode = .ok b ∧ At data offset b offset' := by
  simp only [decodeRecord, bind_eq_ok, Prod.exists, raiseIf_eq_ok, pure_eq_ok, mk.injEq] at h
  obtain ⟨t, o1, ht, n, o2, hn, -, -, -, hl, ⟨⟩, ho, -, -, rfl, rfl⟩ := h
  obtain ⟨bt, hbt, hat⟩ := BigSize.decode_ok ht
  obtain ⟨bn, hbn, han⟩ := BigSize.decode_ok hn
  have hle : o2 + n ≤ data.length := by simpa using hl
  have hn' : (slice data o2 (o2 + n)).length = n := by simp; omega
  refine ⟨(checkOrder_ok last t).1 ho, bt ++ bn ++ slice data o2 (o2 + n), ?_, ?_⟩
  · exact (TLVRecord.encode_ok_iff _ _).2 ⟨bt, bn, hbt, by rw [hn']; exact hbn, rfl⟩
  · exact at_trans (at_trans hat han) (at_slice hle)

lemma decodeRecord_of_at {offset' : Nat}
    (hb : r.encode = .ok b) (hat : At data offset b offset') (ho : ∀ l ∈ last, l < r.type) :
    decodeRecord {} data offset last count = .ok (r, offset') := by
  obtain ⟨bt, bn, ht, hn, rfl⟩ := (TLVRecord.encode_ok_iff r b).1 hb
  obtain ⟨h12, h3⟩ := at_append hat
  obtain ⟨h1, h2⟩ := at_append h12
  have hv := slice_of_at h3
  obtain ⟨he, hle, -⟩ := h3
  simp only [decodeRecord, bind_eq_ok, Prod.exists, raiseIf_eq_ok, pure_eq_ok, mk.injEq]
  refine ⟨_, _, (BigSize.decode_ok_iff _ _ _ _).2 ⟨bt, ht, h1⟩, _, _,
    (BigSize.decode_ok_iff _ _ _ _).2 ⟨bn, hn, h2⟩, (), ?_, (), ?_, (), (checkOrder_ok last _).2 ho, (), ?_, ?_, ?_⟩
  · simp
  · simp only [length_append] at he ⊢
    simp; omega
  · simp
  · rw [hv]
  · exact he.symm

lemma decodeRecord_error {e : Exn}
    (h : decodeRecord caps data offset last count = .error e) : ∃ msg, e = .bolt12DecodeError msg := by
  simp only [decodeRecord, bind_eq_error, Prod.exists, raiseIf_eq_error, pure_ne_error, and_false, exists_false,
    or_false] at h
  rcases h with h | ⟨t, o1, -, h | ⟨n, o2, -, ⟨-, rfl⟩ | ⟨-, -, ⟨-, rfl⟩ | ⟨-, -, h | ⟨-, -, -, rfl⟩⟩⟩⟩⟩
  · exact BigSize.decode_error h
  · exact BigSize.decode_error h
  · exact ⟨_, rfl⟩
  · exact ⟨_, rfl⟩
  · cases last with
    | none => simp [checkOrder] at h
    | some l =>
      simp only [checkOrder] at h
      split_ifs at h <;> cases h <;> exact ⟨_, rfl⟩
  · exact ⟨_, rfl⟩

/-! ## The stream -/

/-- The loop from `offset`, with the records `out` read so far. -/
def decodeStreamFrom (caps : Caps) (data : Bytes) (offset : Nat) (lastType : Option Nat) (out : List TLVRecord) :
    Except Exn (List TLVRecord) :=
  if offset < data.length then
    match _h : decodeRecord caps data offset lastType out.length with
    | .error e => .error e
    | .ok (r, offset') => decodeStreamFrom caps data offset' (some r.type) (out ++ [r])
  else .ok out
termination_by data.length - offset
decreasing_by
  obtain ⟨-, b, hb, hat⟩ := decodeRecord_ok ‹_›
  have := TLVRecord.encode_length_pos hb
  have := hat.1
  have := hat.2.1
  omega

def decodeStream (data : Bytes) (caps : Caps) : Except Exn (List TLVRecord) :=
  decodeStreamFrom caps data 0 none []

def encodeStream : List TLVRecord → Except Exn Bytes
  | [] => .ok []
  | r :: rs => do
    let b ← r.encode
    let bs ← encodeStream rs
    return b ++ bs

/-- Strictly ascending types, each record within its 64-bit bounds: what
`encode_stream`'s callers have to supply. -/
def Canonical (rs : List TLVRecord) : Prop :=
  rs.Pairwise (fun r s => r.type < s.type) ∧ ∀ r ∈ rs, r.Fits

instance (rs : List TLVRecord) : Decidable (Canonical rs) := inferInstanceAs (Decidable (_ ∧ _))

lemma encodeStream_ok_iff (rs : List TLVRecord) : (∃ d, encodeStream rs = .ok d) ↔ ∀ r ∈ rs, r.Fits := by
  induction rs with
  | nil => simp [encodeStream]
  | cons r rs ih =>
    rw [forall_mem_cons, ← ih, TLVRecord.fits_iff]
    simp only [encodeStream, bind_eq_ok, pure_eq_ok]
    constructor
    · rintro ⟨_, b, hb, bs, hbs, -⟩; exact ⟨⟨b, hb⟩, bs, hbs⟩
    · rintro ⟨⟨b, hb⟩, bs, hbs⟩; exact ⟨_, b, hb, bs, hbs, rfl⟩

/-- A canonical list whose types are all above `last`. -/
def CanonicalAfter (last : Option Nat) (rs : List TLVRecord) : Prop :=
  Canonical rs ∧ ∀ l ∈ last, ∀ r ∈ rs, l < r.type

lemma canonicalAfter_cons :
    CanonicalAfter last (r :: rs) ↔ (∀ l ∈ last, l < r.type) ∧ r.Fits ∧ CanonicalAfter (some r.type) rs := by
  simp only [CanonicalAfter, Canonical, pairwise_cons, mem_cons, forall_eq_or_imp, Option.mem_def,
    some.injEq, forall_eq']
  constructor
  · rintro ⟨⟨⟨hlt, hp⟩, hf, hfs⟩, hl⟩
    exact ⟨fun l h => (hl l h).1, hf, ⟨hp, hfs⟩, hlt⟩
  · rintro ⟨hl, hf, ⟨hp, hfs⟩, hlt⟩
    exact ⟨⟨⟨hlt, hp⟩, hf, hfs⟩, fun l h => ⟨hl l h, fun s hs => (hl l h).trans (hlt s hs)⟩⟩

/-- What the loop returns, with or without caps: the records read so far and a
canonical list whose encoding is the rest of the input. -/
lemma decodeStreamFrom_ok (h : decodeStreamFrom caps data offset last out = .ok rs) :
    ∃ tail, rs = out ++ tail ∧ CanonicalAfter last tail ∧ encodeStream tail = .ok (data.drop offset) := by
  fun_induction decodeStreamFrom caps data offset last out with
  | case1 => cases h
  | case2 offset last out hlt r offset' hr ih =>
    obtain ⟨tail, rfl, hc, he⟩ := ih h
    obtain ⟨ho, b, hb, hat⟩ := decodeRecord_ok hr
    refine ⟨r :: tail, by simp, canonicalAfter_cons.2 ⟨ho, (r.fits_iff).2 ⟨b, hb⟩, hc⟩, ?_⟩
    simp only [encodeStream, bind_eq_ok, pure_eq_ok]
    exact ⟨b, hb, _, he, hat.2.2.symm⟩
  | case3 offset last out hge =>
    cases h
    have hd : data.drop offset = [] := drop_eq_nil_of_le (by omega)
    exact ⟨[], by simp, by simp [CanonicalAfter, Canonical], by rw [hd]; rfl⟩

lemma decodeStreamFrom_of_encode {tail : List TLVRecord}
    (hc : CanonicalAfter last tail) (he : encodeStream tail = .ok (data.drop offset)) :
    decodeStreamFrom {} data offset last out = .ok (out ++ tail) := by
  induction tail generalizing offset last out with
  | nil =>
    have hd : data.drop offset = [] := by simpa [encodeStream] using he.symm
    rw [decodeStreamFrom, if_neg (by simpa using hd)]
    simp
  | cons r tail ih =>
    obtain ⟨ho, -, hc'⟩ := canonicalAfter_cons.1 hc
    simp only [encodeStream, bind_eq_ok, pure_eq_ok] at he
    obtain ⟨b, hb, bs, hbs, hd⟩ := he
    have hp := TLVRecord.encode_length_pos hb
    have hl := congrArg List.length hd
    simp only [length_append, length_drop] at hl
    have hre : data.drop (offset + b.length) = bs := by rw [← drop_drop, ← hd, drop_left]
    have hat : BigSize.At data offset b (offset + b.length) := ⟨rfl, by omega, by rw [hre, hd]⟩
    have hr : decodeRecord {} data offset last out.length = .ok (r, offset + b.length) :=
      decodeRecord_of_at hb hat ho
    rw [decodeStreamFrom, if_pos (by omega)]
    split <;> rename_i hr1 <;> cases hr.symm.trans hr1
    rw [ih hc' (by rw [hre]; exact hbs)]
    simp

lemma decodeStreamFrom_error {e : Exn} (h : decodeStreamFrom caps data offset last out = .error e) :
    ∃ msg, e = .bolt12DecodeError msg := by
  fun_induction decodeStreamFrom caps data offset last out with
  | case1 offset last out hlt e' he =>
    cases h
    exact decodeRecord_error he
  | case2 offset last out hlt r offset' hr ih => exact ih h
  | case3 => cases h

/-- A decoded stream is canonical and encodes to the input, whatever the caps. -/
lemma decodeStream_ok {d : Bytes} (h : decodeStream d caps = .ok rs) : Canonical rs ∧ encodeStream rs = .ok d := by
  obtain ⟨tail, rfl, hc, he⟩ := decodeStreamFrom_ok h
  exact ⟨by simpa using hc.1, by simpa using he⟩

lemma decodeStream_of_encode {d : Bytes} (hc : Canonical rs)
    (he : encodeStream rs = .ok d) : decodeStream d {} = .ok rs := by
  have h : decodeStreamFrom {} d 0 none [] = .ok ([] ++ rs) :=
    decodeStreamFrom_of_encode ⟨hc, by simp⟩ (by simpa using he)
  simpa [decodeStream] using h

/-- Decoding inverts encoding on canonical lists, and accepts nothing but their
encodings: a byte string that encodes no canonical list is a
`Bolt12DecodeError`. -/
theorem decodeStream_exact :
    (∀ rs, Canonical rs → ∃ d, encodeStream rs = .ok d ∧ decodeStream d {} = .ok rs) ∧
    (∀ d rs, decodeStream d {} = .ok rs ↔ Canonical rs ∧ encodeStream rs = .ok d) ∧
    (∀ d, (¬ ∃ rs, Canonical rs ∧ encodeStream rs = .ok d) →
      ∃ msg, decodeStream d {} = .error (.bolt12DecodeError msg)) := by
  refine ⟨fun rs hc => ?_, fun d rs => ⟨decodeStream_ok, fun h => decodeStream_of_encode h.1 h.2⟩, fun d hno => ?_⟩
  · obtain ⟨d, hd⟩ := (encodeStream_ok_iff rs).2 hc.2
    exact ⟨d, hd, decodeStream_of_encode hc hd⟩
  cases h : decodeStream d {} with
  | ok rs => exact absurd ⟨rs, decodeStream_ok h⟩ hno
  | error e =>
    obtain ⟨msg, rfl⟩ := decodeStreamFrom_error h
    exact ⟨msg, rfl⟩

theorem decodeStream_exact_two : ∃ d, encodeStream [⟨8, [1]⟩, ⟨300, []⟩] = .ok d ∧
    decodeStream d {} = .ok [⟨8, [1]⟩, ⟨300, []⟩] :=
  decodeStream_exact.1 _ (by decide)

end AgentWallet.Bolt12
