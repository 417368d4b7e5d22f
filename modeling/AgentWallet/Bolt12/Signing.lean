import AgentWallet.Bolt12.Fields
/-!
# BIP-340 signatures of messages

The curve library is a parameter: `schnorr` answers whether a signature verifies
for an x-only key and a digest, `false` where the library raises, and a signer
holds a compressed public key and its signing function.
-/

namespace AgentWallet.Bolt12

open AgentWallet.Lib

/-- `(x-only key, signature, digest)` to the answer of the library. -/
abbrev Schnorr := Bytes → Bytes → Bytes → Bool

def xonlyFromCompressed (point33 : Bytes) : Except Exn Bytes :=
  if point33.length ≠ 33 ∨ (point33.head? ≠ some 2 ∧ point33.head? ≠ some 3) then
    .error (.valueError "expected 33-byte compressed pubkey (0x02/0x03 prefix)")
  else .ok (point33.drop 1)

def verifyBip340 (schnorr : Schnorr) (pubkey33 message32 signature64 : Bytes) : Bool :=
  if message32.length ≠ 32 ∨ signature64.length ≠ 64 then false
  else match xonlyFromCompressed pubkey33 with
    | .error _ => false
    | .ok xonly => schnorr xonly signature64 message32

/-- A signer with its compressed public key; a digest of 32 bytes gets a
signature of 64 bytes. -/
structure Signer where
  publicKey : Bytes
  signSchnorr : Bytes → Bytes
  compressed : ∃ xonly, xonlyFromCompressed publicKey = .ok xonly
  length_sign : ∀ digest, digest.length = 32 → (signSchnorr digest).length = 64

def Signer.sign (signer : Signer) (digest32 : Bytes) : Except Exn Bytes :=
  if digest32.length ≠ 32 then .error (.valueError "digest must be 32 bytes") else .ok (signer.signSchnorr digest32)

def zeroSigner : Signer where
  publicKey := 2 :: List.replicate 32 0
  signSchnorr _ := List.replicate 64 0
  compressed := ⟨List.replicate 32 0, rfl⟩
  length_sign _ _ := rfl

/-- A stream of records within their bounds, one of them no signature, has a digest. -/
lemma exists_signatureDigest {sha256 : Bytes → Bytes} (hl : ∀ x, (sha256 x).length = 32) (hrp : Hrp)
    {rs : List TLVRecord} (hne : nonSig rs ≠ []) (hf : ∀ r ∈ nonSig rs, r.Fits) :
    ∃ digest, Bolt12String.signatureDigest sha256 ⟨hrp, rs⟩ = .ok digest ∧ digest.length = 32 := by
  obtain ⟨root, hr⟩ := exists_merkleRoot sha256 hne hf
  have hrl := length_merkleRoot hl hr
  refine ⟨_, ?_, length_taggedHash hl (utf8 "lightning" ++ utf8 hrp.messageName ++ utf8 "signature") root⟩
  rw [Bolt12String.signatureDigest, bind_eq_ok]
  have ha : ¬ ¬ (hrp.messageName.toList ++ "signature".toList).all (·.toNat < 128) = true := by cases hrp <;> decide
  exact ⟨root, hr, by rw [signatureMessageHash, if_neg (by simp [hrl]), if_neg ha]⟩

section Messages

variable (sha256 : Bytes → Bytes)

def signInvoiceRequest (invreq : InvoiceRequest) (signer : Signer) : Except Exn InvoiceRequest :=
  match invreq.payerId with
  | none => .error (.valueError "invoice_request has no payer_id; cannot sign")
  | some payerId => do
    let own ← xonlyFromCompressed payerId
    let key ← xonlyFromCompressed signer.publicKey
    raiseIf (own ≠ key) (.valueError "signer.public_key x-only does not match invreq.payer_id")
    let digest ← invreq.signatureDigest sha256
    let sig ← signer.sign digest
    return { invreq with signature := some sig }

def verifyInvoiceRequest (schnorr : Schnorr) (invreq : InvoiceRequest) : Except Exn Bool :=
  match invreq.payerId, invreq.signature with
  | some payerId, some signature => do
    let digest ← invreq.signatureDigest sha256
    return verifyBip340 schnorr payerId digest signature
  | _, _ => .ok false

def signInvoice (invoice : Invoice) (signer : Signer) : Except Exn Invoice :=
  match invoice.nodeId with
  | none => .error (.valueError "invoice has no node_id; cannot sign")
  | some nodeId => do
    let own ← xonlyFromCompressed nodeId
    let key ← xonlyFromCompressed signer.publicKey
    raiseIf (own ≠ key) (.valueError "signer.public_key x-only does not match invoice.node_id")
    let digest ← invoice.signatureDigest sha256
    let sig ← signer.sign digest
    return { invoice with signature := some sig }

def verifyInvoice (schnorr : Schnorr) (invoice : Invoice) : Except Exn Bool :=
  match invoice.nodeId, invoice.signature with
  | some nodeId, some signature => do
    let digest ← invoice.signatureDigest sha256
    return verifyBip340 schnorr nodeId digest signature
  | _, _ => .ok false

end Messages

lemma verifyInvoiceRequest_of_digest {sha256 : Bytes → Bytes} (schnorr : Schnorr) {q : InvoiceRequest}
    {key sig digest : Bytes} (hk : q.payerId = some key) (hs : q.signature = some sig)
    (hd : q.signatureDigest sha256 = .ok digest) :
    verifyInvoiceRequest sha256 schnorr q = .ok (verifyBip340 schnorr key digest sig) := by
  simp only [verifyInvoiceRequest, hk, hs, hd]
  rfl

end AgentWallet.Bolt12
