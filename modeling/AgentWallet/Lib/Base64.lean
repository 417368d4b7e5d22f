import Mathlib.Data.List.TakeDrop
import AgentWallet.Lib.Alphabet
import AgentWallet.Lib.Bytes
import AgentWallet.Lib.Text
/-!
# Base64 as Python writes and reads it

`b64encode` pads to a multiple of four characters. `a2b` is the decoder without
validation: characters outside the alphabet are skipped, and nothing is read
after the padding that completes a group of four. So many texts are read as the
same bytes; `a2b_b64encode` says that what the encoder writes is one of them.
-/

namespace AgentWallet.Lib.Base64

open List

def alphabet : List Char :=
  "ABCDEFGHIJKLMNOPQRSTUVWXYZabcdefghijklmnopqrstuvwxyz0123456789+/".toList

def digit (n : Nat) : Char := alphabet.getD n 'A'

def value (c : Char) : Option Nat := alphabet.idxOf? c

/-! ## Writing -/

def body : Bytes → List Char
  | [] => []
  | [a] => [digit (a.toNat / 4), digit (a.toNat % 4 * 16)]
  | [a, b] => [digit (a.toNat / 4), digit (a.toNat % 4 * 16 + b.toNat / 16), digit (b.toNat % 16 * 4)]
  | a :: b :: c :: rest =>
    digit (a.toNat / 4) :: digit (a.toNat % 4 * 16 + b.toNat / 16) :: digit (b.toNat % 16 * 4 + c.toNat / 64) ::
      digit (c.toNat % 64) :: body rest

/-- How many `=` a text of `n` characters lacks: `-n % 4`. -/
def lacking (n : Nat) : Nat := (4 - n % 4) % 4

def b64encode (b : Bytes) : List Char := body b ++ List.replicate (lacking (body b).length) '='

/-- `text.rstrip("=")` -/
def rstrip (s : List Char) : List Char := (s.reverse.dropWhile (· == '=')).reverse

/-! ## Reading -/

def tooFew (written : Nat) : String :=
  "Invalid base64-encoded string: number of data characters (" ++ toString (written / 3 * 4 + 1) ++
    ") cannot be 1 more than a multiple of 4"

/-- `binascii.a2b_base64`: `pos` characters of a group are read, of which the bits
`left` are still to be written; `pads` is the padding seen since, and `written`
counts the bytes. -/
def a2bFrom (pos left pads written : Nat) : List Char → Except String Bytes
  | [] =>
    if pos = 0 then .ok []
    else if pos = 1 then .error (tooFew written)
    else .error "Incorrect padding"
  | c :: rest =>
    if c = '=' then
      if 2 ≤ pos ∧ 4 ≤ pos + (pads + 1) then .ok []
      else a2bFrom pos left (if 2 ≤ pos then pads + 1 else pads) written rest
    else
      match value c with
      | none => a2bFrom pos left pads written rest
      | some v =>
        match pos with
        | 0 => a2bFrom 1 v 0 written rest
        | 1 => (a2bFrom 2 (v % 16) 0 (written + 1) rest).map (UInt8.ofNat (left * 4 + v / 16) :: ·)
        | 2 => (a2bFrom 3 (v % 4) 0 (written + 1) rest).map (UInt8.ofNat (left * 16 + v / 4) :: ·)
        | _ => (a2bFrom 0 0 0 (written + 1) rest).map (UInt8.ofNat (left * 64 + v) :: ·)

def a2b (s : List Char) : Except String Bytes := a2bFrom 0 0 0 0 s

/-! ## The URL-safe variant -/

def toUrl (c : Char) : Char := if c = '+' then '-' else if c = '/' then '_' else c

def ofUrl (c : Char) : Char := if c = '-' then '+' else if c = '_' then '/' else c

def urlsafeB64encode (b : Bytes) : List Char := (b64encode b).map toUrl

def urlsafeB64decode (s : List Char) : Except String Bytes := a2b (s.map ofUrl)

/-! ## What is written is read back -/

variable {n : Nat} {c : Char}

lemma digit_mem (h : n < 64) : digit n ∈ alphabet := getD_mem (show n < alphabet.length from h)

lemma value_digit (h : n < 64) : value (digit n) = some n :=
  (idxOf?_eq_some_iff (by decide +kernel) 'A').2 ⟨h, rfl⟩

lemma digit_ne_pad (h : n < 64) : digit n ≠ '=' := by
  intro he
  have hm := digit_mem h
  rw [he] at hm
  exact absurd hm (by decide)

section Read

variable {pos left pads written n : Nat} {rest : List Char}

lemma read_zero (h : n < 64) : a2bFrom 0 left pads written (digit n :: rest) = a2bFrom 1 n 0 written rest := by
  rw [a2bFrom, if_neg (digit_ne_pad h), value_digit h]
  rfl

lemma read_one (h : n < 64) : a2bFrom 1 left pads written (digit n :: rest) =
    (a2bFrom 2 (n % 16) 0 (written + 1) rest).map (UInt8.ofNat (left * 4 + n / 16) :: ·) := by
  rw [a2bFrom, if_neg (digit_ne_pad h), value_digit h]
  rfl

lemma read_two (h : n < 64) : a2bFrom 2 left pads written (digit n :: rest) =
    (a2bFrom 3 (n % 4) 0 (written + 1) rest).map (UInt8.ofNat (left * 16 + n / 4) :: ·) := by
  rw [a2bFrom, if_neg (digit_ne_pad h), value_digit h]
  rfl

lemma read_three (h : n < 64) : a2bFrom 3 left pads written (digit n :: rest) =
    (a2bFrom 0 0 0 (written + 1) rest).map (UInt8.ofNat (left * 64 + n) :: ·) := by
  rw [a2bFrom, if_neg (digit_ne_pad h), value_digit h]
  rfl

lemma ofNat_eq {x : UInt8} (h : n = x.toNat) : UInt8.ofNat n = x := by
  rw [h, UInt8.ofNat_toNat]

end Read

lemma a2bFrom_b64encode (b : Bytes) (pads written : Nat) : a2bFrom 0 0 pads written (b64encode b) = .ok b := by
  unfold b64encode
  induction b using body.induct generalizing pads written with
  | case1 => rfl
  | case2 a =>
    have ha : a.toNat < 256 := a.toNat_lt
    show a2bFrom 0 0 pads written [digit (a.toNat / 4), digit (a.toNat % 4 * 16), '=', '='] = _
    rw [read_zero (by omega), read_one (by omega), ofNat_eq (x := a) (by omega)]
    rfl
  | case3 a b =>
    have ha : a.toNat < 256 := a.toNat_lt
    have hb : b.toNat < 256 := b.toNat_lt
    show a2bFrom 0 0 pads written [digit (a.toNat / 4), digit (a.toNat % 4 * 16 + b.toNat / 16),
      digit (b.toNat % 16 * 4), '='] = _
    rw [read_zero (by omega), read_one (by omega), read_two (by omega), ofNat_eq (x := a) (by omega),
      ofNat_eq (x := b) (by omega)]
    rfl
  | case4 a b c rest ih =>
    have ha : a.toNat < 256 := a.toNat_lt
    have hb : b.toNat < 256 := b.toNat_lt
    have hc : c.toNat < 256 := c.toNat_lt
    have hl : lacking (body (a :: b :: c :: rest)).length = lacking (body rest).length := by
      simp only [body, length_cons, lacking]
      omega
    rw [hl]
    simp only [body, cons_append]
    rw [read_zero (by omega), read_one (by omega), read_two (by omega), read_three (by omega), ih,
      ofNat_eq (x := a) (by omega), ofNat_eq (x := b) (by omega), ofNat_eq (x := c) (by omega)]
    rfl

lemma mem_body {b : Bytes} (h : c ∈ body b) : c ∈ alphabet := by
  induction b using body.induct with
  | case1 => cases h
  | case2 a =>
    have ha : a.toNat < 256 := a.toNat_lt
    simp only [body, mem_cons, not_mem_nil, or_false] at h
    rcases h with rfl | rfl <;> exact digit_mem (by omega)
  | case3 a b =>
    have ha : a.toNat < 256 := a.toNat_lt
    have hb : b.toNat < 256 := b.toNat_lt
    simp only [body, mem_cons, not_mem_nil, or_false] at h
    rcases h with rfl | rfl | rfl <;> exact digit_mem (by omega)
  | case4 a b c rest ih =>
    have ha : a.toNat < 256 := a.toNat_lt
    have hb : b.toNat < 256 := b.toNat_lt
    have hc : c.toNat < 256 := c.toNat_lt
    simp only [body, mem_cons] at h
    rcases h with rfl | rfl | rfl | rfl | h
    case inr.inr.inr.inr => exact ih h
    all_goals exact digit_mem (by omega)

lemma rstrip_append_pad {s : List Char} (h : '=' ∉ s) (n : Nat) : rstrip (s ++ List.replicate n '=') = s := by
  unfold rstrip
  rw [reverse_append, reverse_replicate, dropWhile_append_of_pos (by simp)]
  cases hs : s.reverse with
  | nil => simpa using hs
  | cons c rest =>
    have hc : c ≠ '=' := by
      rintro rfl
      exact h (mem_reverse.1 (hs ▸ mem_cons_self))
    rw [dropWhile_cons_of_neg (by simpa using hc), ← hs, reverse_reverse]

lemma toUrl_mem {b : Bytes} (h : c ∈ (body b).map toUrl) : c ≠ '=' ∧ c ≠ '.' ∧ isAscii c = true := by
  obtain ⟨d, hd, rfl⟩ := mem_map.1 h
  have ha : (alphabet.all fun d => toUrl d != '=' && toUrl d != '.' && isAscii (toUrl d)) = true := by
    decide +kernel
  simpa [and_assoc] using all_eq_true.1 ha d (mem_body hd)

lemma ofUrl_toUrl (h : c ∈ alphabet) : ofUrl (toUrl c) = c := by
  have ha : (alphabet.all fun d => ofUrl (toUrl d) == d) = true := by decide +kernel
  simpa using all_eq_true.1 ha c h

lemma map_ofUrl_toUrl (b : Bytes) : ((body b).map toUrl).map ofUrl = body b := by
  rw [map_map]
  conv_rhs => rw [← map_id (body b)]
  exact map_congr_left fun c hc => ofUrl_toUrl (mem_body hc)

lemma rstrip_urlsafeB64encode (b : Bytes) : rstrip (urlsafeB64encode b) = (body b).map toUrl := by
  have hp : '=' ∉ (body b).map toUrl := fun h => (toUrl_mem h).1 rfl
  rw [urlsafeB64encode, b64encode, map_append, map_replicate]
  exact rstrip_append_pad hp _

lemma urlsafeB64decode_rstrip (b : Bytes) : urlsafeB64decode (rstrip (urlsafeB64encode b) ++
      List.replicate (lacking (rstrip (urlsafeB64encode b)).length) '=') = .ok b := by
  have h := a2bFrom_b64encode b 0 0
  rw [rstrip_urlsafeB64encode, urlsafeB64decode, map_append, map_ofUrl_toUrl, map_replicate,
    length_map]
  exact h

lemma a2b_b64encode (b : Bytes) : a2b (b64encode b) = .ok b := a2bFrom_b64encode b 0 0

end AgentWallet.Lib.Base64
