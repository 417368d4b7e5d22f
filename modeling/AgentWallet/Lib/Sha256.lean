import AgentWallet.Lib.Bytes
/-!
# SHA-256

The hash function of FIPS 180-4 on byte strings, as a concrete instance of the
hashes the models take as a parameter. The state is eight words, so a digest
has 32 bytes by construction (`length_sha256`). `hmac` is RFC 2104 over any
such hash.
-/

namespace AgentWallet.Lib.Sha256

open List

structure State where
  a : UInt32
  b : UInt32
  c : UInt32
  d : UInt32
  e : UInt32
  f : UInt32
  g : UInt32
  h : UInt32

def init : State :=
  ⟨0x6a09e667, 0xbb67ae85, 0x3c6ef372, 0xa54ff53a, 0x510e527f, 0x9b05688c, 0x1f83d9ab, 0x5be0cd19⟩

def roundConstants : List UInt32 := [
  0x428a2f98, 0x71374491, 0xb5c0fbcf, 0xe9b5dba5, 0x3956c25b, 0x59f111f1, 0x923f82a4, 0xab1c5ed5,
  0xd807aa98, 0x12835b01, 0x243185be, 0x550c7dc3, 0x72be5d74, 0x80deb1fe, 0x9bdc06a7, 0xc19bf174,
  0xe49b69c1, 0xefbe4786, 0x0fc19dc6, 0x240ca1cc, 0x2de92c6f, 0x4a7484aa, 0x5cb0a9dc, 0x76f988da,
  0x983e5152, 0xa831c66d, 0xb00327c8, 0xbf597fc7, 0xc6e00bf3, 0xd5a79147, 0x06ca6351, 0x14292967,
  0x27b70a85, 0x2e1b2138, 0x4d2c6dfc, 0x53380d13, 0x650a7354, 0x766a0abb, 0x81c2c92e, 0x92722c85,
  0xa2bfe8a1, 0xa81a664b, 0xc24b8b70, 0xc76c51a3, 0xd192e819, 0xd6990624, 0xf40e3585, 0x106aa070,
  0x19a4c116, 0x1e376c08, 0x2748774c, 0x34b0bcb5, 0x391c0cb3, 0x4ed8aa4a, 0x5b9cca4f, 0x682e6ff3,
  0x748f82ee, 0x78a5636f, 0x84c87814, 0x8cc70208, 0x90befffa, 0xa4506ceb, 0xbef9a3f7, 0xc67178f2]

def rotr (x : UInt32) (n : UInt32) : UInt32 := (x >>> n) ||| (x <<< (32 - n))

/-- One step of the message schedule: the word after `w`, which holds at least 16. -/
def nextWord (w : List UInt32) : UInt32 :=
  let at_ (back : Nat) := w.getD (w.length - back) 0
  let s0 := rotr (at_ 15) 7 ^^^ rotr (at_ 15) 18 ^^^ (at_ 15 >>> 3)
  let s1 := rotr (at_ 2) 17 ^^^ rotr (at_ 2) 19 ^^^ (at_ 2 >>> 10)
  at_ 16 + s0 + at_ 7 + s1

variable (s : State) (block : Bytes)

def schedule : List UInt32 :=
  let first := (List.range 16).map fun i => UInt32.ofNat (ofBE (slice block (4 * i) (4 * i + 4)))
  (List.range 48).foldl (fun w _ => w ++ [nextWord w]) first

def round (kw : UInt32 × UInt32) : State :=
  let s1 := rotr s.e 6 ^^^ rotr s.e 11 ^^^ rotr s.e 25
  let ch := (s.e &&& s.f) ^^^ (~~~s.e &&& s.g)
  let t1 := s.h + s1 + ch + kw.1 + kw.2
  let s0 := rotr s.a 2 ^^^ rotr s.a 13 ^^^ rotr s.a 22
  let maj := (s.a &&& s.b) ^^^ (s.a &&& s.c) ^^^ (s.b &&& s.c)
  ⟨t1 + s0 + maj, s.a, s.b, s.c, s.d + t1, s.e, s.f, s.g⟩

def compress : State :=
  let r := (roundConstants.zip (schedule block)).foldl round s
  ⟨s.a + r.a, s.b + r.b, s.c + r.c, s.d + r.d, s.e + r.e, s.f + r.f, s.g + r.g, s.h + r.h⟩

/-- The message, a one bit, zeros, and the bit length in eight bytes: a multiple
of 64 bytes. -/
def pad (msg : Bytes) : Bytes :=
  msg ++ [0x80] ++ List.replicate ((119 - msg.length % 64) % 64) 0 ++ toBE 8 (8 * msg.length)

def digest : Bytes :=
  [s.a, s.b, s.c, s.d, s.e, s.f, s.g, s.h].flatMap fun x => toBE 4 x.toNat

def sha256 (msg : Bytes) : Bytes :=
  let padded := pad msg
  digest ((List.range (padded.length / 64)).foldl (fun s i => compress s (slice padded (64 * i) (64 * i + 64))) init)

lemma length_sha256 (msg : Bytes) : (sha256 msg).length = 32 := by
  simp [sha256, digest]

/-! ## The schedule backwards

The words of a block newest first, so that evaluation does not walk to the end of
the list for each of them. -/

def nextWordRev (r : List UInt32) : UInt32 :=
  let s0 := rotr (r.getD 14 0) 7 ^^^ rotr (r.getD 14 0) 18 ^^^ (r.getD 14 0 >>> 3)
  let s1 := rotr (r.getD 1 0) 17 ^^^ rotr (r.getD 1 0) 19 ^^^ (r.getD 1 0 >>> 10)
  r.getD 15 0 + s0 + r.getD 6 0 + s1

def scheduleRev : List UInt32 :=
  let first := (List.range 16).map fun i => UInt32.ofNat (ofBE (slice block (4 * i) (4 * i + 4)))
  ((List.range 48).foldl (fun r _ => nextWordRev r :: r) first.reverse).reverse

lemma nextWordRev_reverse {w : List UInt32} (h : 16 ≤ w.length) : nextWordRev w.reverse = nextWord w := by
  have hat : ∀ back, 0 < back → back ≤ 16 → w.reverse.getD (back - 1) 0 = w.getD (w.length - back) 0 := by
    intro back hp hle
    rw [getD_eq_getElem _ _ (by rw [length_reverse]; omega), getElem_reverse,
      getD_eq_getElem _ _ (by omega)]
    congr 1
    omega
  simp only [nextWordRev, nextWord, ← hat 15 (by decide) (by decide), ← hat 2 (by decide) (by decide),
    ← hat 16 (by decide) (by decide), ← hat 7 (by decide) (by decide)]

lemma foldl_nextWordRev (steps : List Nat) {w : List UInt32} (h : 16 ≤ w.length) :
    (steps.foldl (fun r _ => nextWordRev r :: r) w.reverse).reverse = steps.foldl (fun w _ => w ++ [nextWord w]) w := by
  induction steps generalizing w with
  | nil => exact reverse_reverse w
  | cons i steps ih =>
    have hs : nextWordRev w.reverse :: w.reverse = (w ++ [nextWord w]).reverse := by
      rw [nextWordRev_reverse h, reverse_append]
      rfl
    rw [foldl_cons, foldl_cons, hs]
    apply ih
    simp only [length_append, length_cons, length_nil]
    omega

lemma scheduleRev_eq : scheduleRev block = schedule block := by
  apply foldl_nextWordRev
  simp

def compressRev : State :=
  let r := (roundConstants.zip (scheduleRev block)).foldl round s
  ⟨s.a + r.a, s.b + r.b, s.c + r.c, s.d + r.d, s.e + r.e, s.f + r.f, s.g + r.g, s.h + r.h⟩

def sha256Rev (msg : Bytes) : Bytes :=
  let padded := pad msg
  digest ((List.range (padded.length / 64)).foldl (fun s i => compressRev s (slice padded (64 * i) (64 * i + 64))) init)

lemma sha256Rev_eq : sha256Rev = sha256 := by
  funext msg
  simp only [sha256Rev, sha256, compressRev, compress, scheduleRev_eq]

end AgentWallet.Lib.Sha256

namespace AgentWallet.Lib

def hmac (hash : Bytes → Bytes) (key msg : Bytes) : Bytes :=
  let short := if key.length > 64 then hash key else key
  let block := short ++ List.replicate (64 - short.length) 0
  hash (block.map (· ^^^ 0x5c) ++ hash (block.map (· ^^^ 0x36) ++ msg))

lemma length_hmac {hash : Bytes → Bytes} (h : ∀ x, (hash x).length = 32) (key msg : Bytes) :
    (hmac hash key msg).length = 32 := h _

end AgentWallet.Lib
