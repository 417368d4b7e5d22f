import Mathlib
/-!
# Byte strings

Byte strings as lists, their slices, and big-endian numbers of a fixed width.
`ofBE` and `toBE` are inverse on the numbers that fit (`ofBE_toBE`) and on
every byte string of the width (`toBE_ofBE`).
-/

namespace AgentWallet.Lib

open List

abbrev Bytes := List UInt8

/-- The bytes of `b` from index `i` up to, but not including, index `j`. -/
def slice (b : Bytes) (i j : Nat) : Bytes := (b.drop i).take (j - i)

def utf8 (s : String) : Bytes := s.toByteArray.data.toList

section

variable (b : Bytes)

@[simp] lemma length_slice (i j : Nat) : (slice b i j).length = min (j - i) (b.length - i) := by
  simp [slice]

lemma slice_append_drop {i j : Nat} (h : i ≤ j) : slice b i j ++ b.drop j = b.drop i := by
  have hd : b.drop j = (b.drop i).drop (j - i) := by
    rw [drop_drop]; congr 1; omega
  rw [slice, hd, take_append_drop]

lemma slice_mid (pre mid post : Bytes) {i j : Nat} (hi : i = pre.length) (hj : j = i + mid.length) :
    slice (pre ++ (mid ++ post)) i j = mid := by
  subst hi hj
  simp [slice]

/-! ## Hexadecimal text -/

def hexDigits : List Char := ['0', '1', '2', '3', '4', '5', '6', '7', '8', '9', 'a', 'b', 'c', 'd', 'e', 'f']

def hexDigit (n : Nat) : Char := hexDigits.getD n '0'

def hexdigest (b : Bytes) : String :=
  String.ofList (b.flatMap fun x => [hexDigit (x.toNat / 16), hexDigit (x.toNat % 16)])

def hexValue (c : Char) : Option Nat :=
  if '0' ≤ c ∧ c ≤ '9' then some (c.toNat - 48)
  else if 'a' ≤ c ∧ c ≤ 'f' then some (c.toNat - 87)
  else if 'A' ≤ c ∧ c ≤ 'F' then some (c.toNat - 55)
  else none

/-- The characters between two bytes that `fromHex` skips. -/
def hexSpaces : List Char := [' ', '\t', '\n', '\r', '\x0b', '\x0c']

/-- The bytes of the digits from position `i`, or the position of the first
character that is no digit. -/
def fromHexFrom : List Char → Nat → Except Nat Bytes
  | [], _ => .ok []
  | [c], i => if c ∈ hexSpaces then .ok [] else if (hexValue c).isNone then .error i else .error (i + 1)
  | c :: d :: cs, i =>
    if c ∈ hexSpaces then fromHexFrom (d :: cs) (i + 1)
    else match hexValue c, hexValue d with
      | none, _ => .error i
      | some _, none => .error (i + 1)
      | some hi, some lo => do
        let rest ← fromHexFrom cs (i + 2)
        return UInt8.ofNat (16 * hi + lo) :: rest

/-- The bytes of a hexadecimal text; in a text with a character beyond ASCII,
the first of those is the one that is reported. -/
def fromHex (s : String) : Except Nat Bytes :=
  match s.toList.findIdx? (128 ≤ ·.toNat) with
  | some i => .error i
  | none => fromHexFrom s.toList 0

lemma hexDigit_mem (n : Nat) : hexDigit n ∈ hexDigits := by
  unfold hexDigit
  rw [getD_eq_getElem?_getD]
  cases h : hexDigits[n]? with
  | none => decide
  | some c => exact mem_of_getElem? h

lemma mem_hexdigest {b : Bytes} {c : Char} (h : c ∈ (hexdigest b).toList) : c ∈ hexDigits := by
  rw [hexdigest, String.toList_ofList, mem_flatMap] at h
  obtain ⟨x, -, hx⟩ := h
  simp only [mem_cons, not_mem_nil, or_false] at hx
  rcases hx with rfl | rfl <;> exact hexDigit_mem _

lemma hexdigest_ne_empty {b : Bytes} (h : b ≠ []) : hexdigest b ≠ "" := by
  obtain ⟨x, b, rfl⟩ := exists_cons_of_ne_nil h
  intro he
  have := congrArg String.toList he
  simp [hexdigest] at this

lemma hexValue_hexDigit {n : Nat} (h : n < 16) :
    hexValue (hexDigit n) = some n ∧ hexDigit n ∉ hexSpaces := by
  have ha : ∀ n < 16, hexValue (hexDigit n) = some n ∧ hexDigit n ∉ hexSpaces := by decide
  exact ha n h

lemma fromHexFrom_digits (i : Nat) :
    fromHexFrom (b.flatMap fun x => [hexDigit (x.toNat / 16), hexDigit (x.toNat % 16)]) i = .ok b := by
  induction b generalizing i with
  | nil => rfl
  | cons x b ih =>
    have hx := x.toNat_lt
    obtain ⟨hhi, hs⟩ := hexValue_hexDigit (n := x.toNat / 16) (by omega)
    obtain ⟨hlo, -⟩ := hexValue_hexDigit (n := x.toNat % 16) (by omega)
    have hb : UInt8.ofNat (16 * (x.toNat / 16) + x.toNat % 16) = x := by
      rw [Nat.div_add_mod]
      exact UInt8.ofNat_toNat
    rw [flatMap_cons, cons_append, cons_append, nil_append, fromHexFrom, if_neg hs, hhi, hlo]
    simp only [ih, hb]
    rfl

lemma fromHex_hexdigest : fromHex (hexdigest b) = .ok b := by
  have ha : (hexdigest b).toList.findIdx? (128 ≤ ·.toNat) = none := by
    rw [findIdx?_eq_none_iff]
    intro c hc
    have hal : hexDigits.all (fun c => !decide (128 ≤ c.toNat)) = true := rfl
    simpa using all_eq_true.1 hal c (mem_hexdigest hc)
  rw [fromHex, ha]
  rw [hexdigest, String.toList_ofList]
  exact fromHexFrom_digits b 0

/-! ## Big-endian numbers -/

def ofBE (b : Bytes) : Nat := b.foldl (fun n x => n * 256 + x.toNat) 0

/-- The `w` low bytes of `n`, most significant first. -/
def toBE : Nat → Nat → Bytes
  | 0, _ => []
  | w + 1, n => toBE w (n / 256) ++ [UInt8.ofNat n]

@[simp] lemma ofBE_nil : ofBE [] = 0 := rfl

@[simp] lemma ofBE_concat (x : UInt8) : ofBE (b ++ [x]) = ofBE b * 256 + x.toNat := by
  simp [ofBE]

@[simp] lemma length_toBE (w n : Nat) : (toBE w n).length = w := by
  induction w generalizing n with
  | zero => rfl
  | succ w ih => simp [toBE, ih]

lemma ofBE_lt : ofBE b < 256 ^ b.length := by
  induction b using List.reverseRecOn with
  | nil => simp
  | append_singleton b x ih =>
    have hx := x.toNat_lt
    simp only [ofBE_concat, length_append, length_singleton, pow_succ]
    omega

lemma ofBE_toBE (w n : Nat) (h : n < 256 ^ w) : ofBE (toBE w n) = n := by
  induction w generalizing n with
  | zero => simp at h; simp [toBE, h]
  | succ w ih =>
    have hq : n / 256 < 256 ^ w := by
      rw [pow_succ] at h; omega
    rw [toBE, ofBE_concat, ih _ hq, UInt8.toNat_ofNat']
    omega

lemma toBE_ofBE : toBE b.length (ofBE b) = b := by
  induction b using List.reverseRecOn with
  | nil => rfl
  | append_singleton b x ih =>
    have hx := x.toNat_lt
    have hq : (ofBE b * 256 + x.toNat) / 256 = ofBE b := by omega
    have hr : UInt8.ofNat (ofBE b * 256 + x.toNat) = x := by
      apply UInt8.toNat_inj.1
      rw [UInt8.toNat_ofNat']; omega
    rw [length_append, length_singleton, toBE, ofBE_concat, hq, hr, ih]

end

lemma le_ofBE (x : UInt8) (b : Bytes) (hx : x ≠ 0) : 256 ^ b.length ≤ ofBE (x :: b) := by
  have h0 : x.toNat ≠ 0 := fun h => hx (UInt8.toNat_inj.1 (by simpa using h))
  induction b using List.reverseRecOn with
  | nil => simp [ofBE]; omega
  | append_singleton b y ih =>
    rw [← cons_append, ofBE_concat, length_append, length_singleton, pow_succ]
    omega

end AgentWallet.Lib
