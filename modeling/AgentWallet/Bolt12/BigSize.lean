import AgentWallet.Lib.Bytes
/-!
# BigSize integers

The variable-length integers of BOLT 1: one byte below `0xFD`, else a marker
byte and the number in 2, 4 or 8 bytes. `decode` reads at an offset of the
whole input, as the source does. `decode_ok_iff` says what it accepts: exactly
the bytes `encode` writes.
-/

namespace AgentWallet.Bolt12

open AgentWallet.Lib List Except Prod

/-- The exceptions the codec raises, with their messages. -/
inductive Exn
  | valueError (msg : String)
  | unicodeDecodeError
  | unicodeEncodeError
  | bolt12FormatError (msg : String)
  | bolt12DecodeError (msg : String)
  deriving DecidableEq, Repr

/-- `Bolt12Error` and its subclasses. -/
def Exn.isBolt12Error : Exn → Bool
  | .bolt12FormatError _ | .bolt12DecodeError _ => true
  | _ => false

namespace BigSize

def encode (n : Nat) : Except Exn Bytes :=
  if n < 0xFD then .ok [UInt8.ofNat n]
  else if n < 0x10000 then .ok (0xFD :: toBE 2 n)
  else if n < 0x100000000 then .ok (0xFE :: toBE 4 n)
  else if n < 0x10000000000000000 then .ok (0xFF :: toBE 8 n)
  else .error (.valueError "BigSize value exceeds 64 bits")

/-- A marker at `offset` with the number in the next `width` bytes, which has
to be at least `least`: the three long forms of `decode`. -/
def decodeForm (data : Bytes) (offset width least : Nat) : Except Exn (Nat × Nat) :=
  let form := width + 1
  if offset + form > data.length then .error (.bolt12DecodeError s!"BigSize: truncated {form}-byte form")
  else
    let v := ofBE (slice data (offset + 1) (offset + form))
    if v < least then .error (.bolt12DecodeError s!"BigSize: non-canonical {form}-byte encoding")
    else .ok (v, offset + form)

/-- One BigSize at `offset`, with the offset after it. -/
def decode (data : Bytes) (offset : Nat) : Except Exn (Nat × Nat) :=
  match data[offset]? with
  | none => .error (.bolt12DecodeError "BigSize: unexpected end of stream")
  | some head =>
    if head < 0xFD then .ok (head.toNat, offset + 1)
    else if head = 0xFD then decodeForm data offset 2 0xFD
    else if head = 0xFE then decodeForm data offset 4 0x10000
    else decodeForm data offset 8 0x100000000

/-! ## Encoding -/

variable {n offset : Nat} {b data : Bytes}

lemma encode_ok_lt (h : encode n = .ok b) : n < 2 ^ 64 := by
  unfold encode at h
  split_ifs at h <;> omega

lemma exists_encode (h : n < 2 ^ 64) : ∃ b, encode n = .ok b := by
  unfold encode
  split_ifs <;> first | exact ⟨_, rfl⟩ | omega

lemma encode_cases (h : encode n = .ok b) :
    (n < 0xFD ∧ b = [UInt8.ofNat n]) ∨ (0xFD ≤ n ∧ n < 256 ^ 2 ∧ b = 0xFD :: toBE 2 n) ∨
    (0x10000 ≤ n ∧ n < 256 ^ 4 ∧ b = 0xFE :: toBE 4 n) ∨ (0x100000000 ≤ n ∧ n < 256 ^ 8 ∧ b = 0xFF :: toBE 8 n) := by
  unfold encode at h
  split_ifs at h with h1 h2 h3 h4 <;> simp only [ok.injEq] at h <;> subst h
  · exact .inl ⟨h1, rfl⟩
  · exact .inr (.inl ⟨by omega, by omega, rfl⟩)
  · exact .inr (.inr (.inl ⟨by omega, by omega, rfl⟩))
  · exact .inr (.inr (.inr ⟨by omega, by omega, rfl⟩))

lemma encode_length_pos (h : encode n = .ok b) : 0 < b.length := by
  rcases encode_cases h with ⟨-, rfl⟩ | ⟨-, -, rfl⟩ | ⟨-, -, rfl⟩ | ⟨-, -, rfl⟩ <;> simp

/-! ## Decoding what was encoded -/

lemma decodeForm_append (pre post : Bytes) (m : UInt8) (w least n : Nat) (hlo : least ≤ n) (hhi : n < 256 ^ w) :
    decodeForm (pre ++ ((m :: toBE w n) ++ post)) pre.length w least = .ok (n, pre.length + (w + 1)) := by
  have hs : slice (pre ++ ((m :: toBE w n) ++ post)) (pre.length + 1) (pre.length + (w + 1)) = toBE w n := by
    have := slice_mid (pre ++ [m]) (toBE w n) post (i := pre.length + 1) (j := pre.length + (w + 1))
      (by simp) (by simp; omega)
    simpa using this
  simp only [decodeForm]
  rw [if_neg (by simp), hs, ofBE_toBE w n hhi, if_neg (by omega)]

lemma decode_append (h : encode n = .ok b) (pre post : Bytes) :
    decode (pre ++ (b ++ post)) pre.length = .ok (n, pre.length + b.length) := by
  rcases encode_cases h with ⟨hn, rfl⟩ | ⟨h1, h2, rfl⟩ | ⟨h1, h2, rfl⟩ | ⟨h1, h2, rfl⟩
  · have hlt : UInt8.ofNat n < 0xFD := by
      rw [UInt8.lt_iff_toNat_lt, UInt8.toNat_ofNat', Nat.mod_eq_of_lt (by omega)]; exact hn
    have hv : n % 256 = n := Nat.mod_eq_of_lt (by omega)
    simp [decode, hlt, hv]
  · have := decodeForm_append pre post 0xFD 2 0xFD n h1 h2
    simpa [decode] using this
  · have := decodeForm_append pre post 0xFE 4 0x10000 n h1 h2
    simpa [decode] using this
  · have := decodeForm_append pre post 0xFF 8 0x100000000 n h1 h2
    simpa [decode] using this

/-! ## What is decoded was encoded -/

/-- `b` stands in `data` at `offset` and ends at `offset'`. -/
def At (data : Bytes) (offset : Nat) (b : Bytes) (offset' : Nat) : Prop :=
  offset' = offset + b.length ∧ offset' ≤ data.length ∧ data.drop offset = b ++ data.drop offset'

lemma decodeForm_ok {w least offset' : Nat} {m : UInt8} (hm : data[offset]? = some m)
    (h : decodeForm data offset w least = .ok (n, offset')) :
    least ≤ n ∧ n < 256 ^ w ∧ At data offset (m :: toBE w n) offset' := by
  simp only [decodeForm] at h
  split_ifs at h with h1 h2
  simp only [ok.injEq, mk.injEq] at h
  obtain ⟨rfl, rfl⟩ := h
  have hl : (slice data (offset + 1) (offset + (w + 1))).length = w := by simp; omega
  have hlt := ofBE_lt (slice data (offset + 1) (offset + (w + 1)))
  have hto := toBE_ofBE (slice data (offset + 1) (offset + (w + 1)))
  rw [hl] at hlt hto
  refine ⟨by omega, hlt, by simp, by omega, ?_⟩
  rw [hto, cons_append, slice_append_drop data (by omega)]
  obtain ⟨hi, rfl⟩ := List.getElem?_eq_some_iff.1 hm
  exact drop_eq_getElem_cons hi

lemma decode_ok {offset' : Nat} (h : decode data offset = .ok (n, offset')) :
    ∃ b, encode n = .ok b ∧ At data offset b offset' := by
  unfold decode at h
  cases hm : data[offset]? with
  | none => simp [hm] at h
  | some m =>
    simp only [hm] at h
    split_ifs at h with h1 h2 h3
    · simp only [ok.injEq, mk.injEq] at h
      obtain ⟨rfl, rfl⟩ := h
      obtain ⟨hi, rfl⟩ := List.getElem?_eq_some_iff.1 hm
      have hlt : data[offset].toNat < 0xFD := by simpa [UInt8.lt_iff_toNat_lt] using h1
      refine ⟨[data[offset]], by simp [encode, hlt], by simp, by omega, ?_⟩
      exact drop_eq_getElem_cons hi
    · obtain ⟨hlo, hhi, hat⟩ := decodeForm_ok hm h
      subst h2
      exact ⟨_, by rw [encode, if_neg (by omega), if_pos (by omega)], hat⟩
    · obtain ⟨hlo, hhi, hat⟩ := decodeForm_ok hm h
      subst h3
      exact ⟨_, by rw [encode, if_neg (by omega), if_neg (by omega), if_pos (by omega)], hat⟩
    · obtain ⟨hlo, hhi, hat⟩ := decodeForm_ok hm h
      -- Nothing is left for the marker but `0xFF`.
      have hm' : m = 0xFF := by
        apply UInt8.toNat_inj.1
        have h1' : ¬ m.toNat < 253 := by simpa [UInt8.lt_iff_toNat_lt] using h1
        have h2' : m.toNat ≠ 253 := fun e => h2 (UInt8.toNat_inj.1 e)
        have h3' : m.toNat ≠ 254 := fun e => h3 (UInt8.toNat_inj.1 e)
        have := m.toNat_lt
        show m.toNat = 255
        omega
      subst hm'
      exact ⟨_, by rw [encode, if_neg (by omega), if_neg (by omega), if_neg (by omega), if_pos (by omega)], hat⟩

/-- `decode` accepts exactly the encodings. -/
lemma decode_ok_iff (data : Bytes) (offset n offset' : Nat) :
    decode data offset = .ok (n, offset') ↔ ∃ b, encode n = .ok b ∧ At data offset b offset' := by
  refine ⟨decode_ok, ?_⟩
  rintro ⟨b, hb, rfl, hle, hd⟩
  have hp : (data.take offset).length = offset := by simp; omega
  have hda : data = data.take offset ++ (b ++ data.drop (offset + b.length)) := by
    rw [← hd, take_append_drop]
  have := decode_append hb (data.take offset) (data.drop (offset + b.length))
  rwa [← hda, hp] at this

lemma decode_error {e : Exn} (h : decode data offset = .error e) : ∃ msg, e = .bolt12DecodeError msg := by
  have hf : ∀ w least, decodeForm data offset w least = .error e → ∃ msg, e = .bolt12DecodeError msg := by
    intro w least h
    simp only [decodeForm] at h
    split_ifs at h <;> simp only [error.injEq] at h <;> exact ⟨_, h.symm⟩
  unfold decode at h
  split at h
  · simp only [error.injEq] at h; exact ⟨_, h.symm⟩
  · split_ifs at h
    all_goals exact hf _ _ h

end BigSize

end AgentWallet.Bolt12
