import AgentWallet.Bolt12.Signing
import AgentWallet.Bolt12.Written
/-!
# Requests that mirror an offer

A request repeats the records of an offer and adds its own fields, merged by
type. `mirrors_iff` says for which offers the signed request is read back as
itself: the types of an offer's unknown records must stay apart from those of
the request.
-/

namespace AgentWallet.Bolt12

open AgentWallet.Lib List

structure RequestFields where
  metadata : Bytes
  payerId : Bytes
  amount : Option Nat := none
  quantity : Option Nat := none
  payerNote : Option String := none
  chain : Option Bytes := none
  features : Option Bytes := none
  paths : Option Bytes := none

/-- The request that mirrors `o` with the given fields. -/
def RequestFields.mirror (f : RequestFields) (o : Offer) : Except Exn InvoiceRequest :=
  InvoiceRequest.fromOffer o f.metadata f.payerId f.amount f.quantity f.payerNote f.chain f.features f.paths

/-- Fields that fit: the payer's key is that of the signer, numbers are below
2^64, a chain hash has 32 bytes, and no byte string has 2^64 bytes. -/
structure RequestFields.Valid (f : RequestFields) (payer : Signer) : Prop where
  key : xonlyFromCompressed f.payerId = xonlyFromCompressed payer.publicKey
  amount_lt : ∀ n ∈ f.amount, n < 2 ^ 64
  quantity_lt : ∀ n ∈ f.quantity, n < 2 ^ 64
  chain_length : ∀ c ∈ f.chain, c.length = 32
  metadata_fits : f.metadata.length < 2 ^ 64
  note_fits : ∀ s ∈ f.payerNote, (utf8 s).length < 2 ^ 64
  features_fit : ∀ v ∈ f.features, v.length < 2 ^ 64
  paths_fit : ∀ v ∈ f.paths, v.length < 2 ^ 64

/-- The request built from `o` is signed, written, decoded and parsed back as
itself, with `o` as its offer, and its check recomputes the digest that was
signed. -/
def Mirrors (sha256 : Bytes → Bytes) (schnorr : Schnorr) (o : Offer) (f : RequestFields) (payer : Signer) : Prop :=
  ∃ unsigned signed digest records data decoded, f.mirror o = .ok unsigned ∧
    unsigned.signatureDigest sha256 = .ok digest ∧ signInvoiceRequest sha256 unsigned payer = .ok signed ∧
    signed.toRecords true = .ok records ∧ encodeStream records = .ok data ∧ decodeStream data {} = .ok decoded ∧
    InvoiceRequest.parse ⟨.lnr, decoded⟩ = .ok signed ∧ signed.offer = o ∧
    verifyInvoiceRequest sha256 schnorr signed = .ok (verifyBip340 schnorr f.payerId digest (payer.signSchnorr digest))

def Sound (r : TLVRecord) : Prop := (badText r = false ∧ badValue r = false) ∧ r.Fits

variable {f : RequestFields} {payer : Signer} {sha256 : Bytes → Bytes} {rs : List TLVRecord}

lemma mirror_ok (hf : f.Valid payer) (o : Offer) :
    ∃ q, f.mirror o = .ok q ∧ q.offer = o ∧ q.payerId = some f.payerId ∧ q.metadata = some f.metadata ∧
      q.unknownRecords = [] ∧ List.Forall₂ (Filled Sound) InvoiceRequest.types q.pieces := by
  obtain ⟨xonly, hke⟩ := payer.compressed
  have hp : f.payerId.length = 33 ∧ (f.payerId.head? = some 2 ∨ f.payerId.head? = some 3) := by
    have hok := hf.key.trans hke
    obtain ⟨h, -⟩ := ite_passed hok
    · simpa [not_or, imp_iff_or_not, or_comm] using h
  have hch : ∀ c ∈ f.chain, checkChainHash "invreq_chain" c = .ok () := by
    intro c hc
    simp [checkChainHash, raiseIf_eq_ok, hf.chain_length c hc]
  let q : InvoiceRequest :=
    { offer := o, metadata := some f.metadata, chain := f.chain, amount := f.amount, features := f.features,
      quantity := f.quantity, payerId := some f.payerId, payerNote := f.payerNote, paths := f.paths }
  refine ⟨q, ?_, rfl, rfl, rfl, rfl, ?_⟩
  · simp only [RequestFields.mirror, InvoiceRequest.fromOffer, bind_eq_ok, checkPoint, raiseIf_eq_ok]
    refine ⟨(), ⟨(), by simp [hp.1], by rcases hp.2 with h | h <;> simp [h]⟩, ?_⟩
    cases hc : f.chain with
    | none => simp [q, hc]
    | some c => simp [q, hc, hch c hc]
  · have raw : ∀ (v : Option Bytes) (t : Nat), (∀ x, badText ⟨t, x⟩ = false ∧ badValue ⟨t, x⟩ = false) → t < 2 ^ 64 →
        (∀ x ∈ v, x.length < 2 ^ 64) → Filled Sound t (optRecord t v .ok) := fun v t hb ht hv =>
      filled_optRecord fun x hx => ⟨x, rfl, hb x, ht, hv x hx⟩
    have number : ∀ (v : Option Nat) (t : Nat), (∀ x, badText ⟨t, x⟩ = false ∧ badValue ⟨t, x⟩ = badTu64 x) →
        t < 2 ^ 64 → (∀ n ∈ v, n < 2 ^ 64) → Filled Sound t (optRecord t v fun n => .ok (encodeTu64 n)) := by
      intro v t hb ht hv
      refine filled_optRecord fun n hn => ⟨_, rfl, ⟨(hb _).1, ?_⟩, ht, ?_⟩
      · rw [(hb _).2, badTu64_encodeTu64 (hv n hn)]
      · exact Nat.lt_of_le_of_lt (length_encodeTu64 (hv n hn)) (by decide)
    have chain : Filled Sound INVREQ_CHAIN (optRecord INVREQ_CHAIN f.chain .ok) := by
      refine filled_optRecord fun c hc => ⟨c, rfl, ⟨rfl, ?_⟩, of_decide_eq_true rfl, ?_⟩
      · show decide (c.length ≠ 32) = false
        simp [hf.chain_length c hc]
      · rw [hf.chain_length c hc]
        decide
    have key : Filled Sound INVREQ_PAYER_ID (optRecord INVREQ_PAYER_ID (some f.payerId) .ok) := by
      refine filled_optRecord fun k hk => ?_
      obtain rfl := Option.some.inj hk
      refine ⟨f.payerId, rfl, ⟨rfl, ?_⟩, of_decide_eq_true rfl, ?_⟩
      · show badPoint f.payerId = false
        rcases hp with ⟨h33, h | h⟩ <;> simp [badPoint, h33, h]
      · rw [hp.1]
        decide
    have note : Filled Sound INVREQ_PAYER_NOTE (optRecord INVREQ_PAYER_NOTE f.payerNote fun s => .ok (utf8 s)) := by
      refine filled_optRecord fun s hs => ⟨_, rfl, ⟨?_, rfl⟩, of_decide_eq_true rfl, hf.note_fits s hs⟩
      show (!validUtf8 (utf8 s)) = false
      rw [validUtf8_utf8]
      rfl
    refine .cons (raw _ _ (fun _ => ⟨rfl, rfl⟩) (by decide) (by simpa [q] using hf.metadata_fits)) <| .cons chain <|
      .cons (number _ _ (fun _ => ⟨rfl, rfl⟩) (by decide) hf.amount_lt) <|
      .cons (raw _ _ (fun _ => ⟨rfl, rfl⟩) (by decide) hf.features_fit) <|
      .cons (number _ _ (fun _ => ⟨rfl, rfl⟩) (by decide) hf.quantity_lt) <| .cons key <| .cons note <|
      .cons (raw _ _ (fun _ => ⟨rfl, rfl⟩) (by decide) hf.paths_fit) <| .cons (filled_nil _ _) .nil

lemma mirrorable_of_mirrors {schnorr : Schnorr} {o : Offer} (ho : Offer.fromRecords rs OFFER_RANGE = .ok o)
    (h : Mirrors sha256 schnorr o f payer) : Offer.Mirrorable rs := by
  obtain ⟨-, signed, -, -, data, decoded, -, -, -, -, -, hd, hp, rfl, -⟩ := h
  have ha : Ascending decoded := (decodeStream_ok hd).1.1
  obtain ⟨ho', -⟩ := InvoiceRequest.layers_of_parse ha.distinct rfl hp
  -- The unknown records of the offer are those of its layer in the stream.
  have hu : rs.filter (·.type ∉ Offer.types) = (decoded.filter (isOfferType ·.type)).filter (·.type ∉ Offer.types) := by
    rw [← Offer.unknown_of_fromRecords ho, Offer.unknown_of_fromRecords ho']
  refine ⟨fun r hr => ?_, ?_⟩
  · have hof : isOfferType r.type = true := by
      by_cases hin : r.type ∈ Offer.types
      · have hal : ∀ t ∈ Offer.types, isOfferType t = true := by decide
        exact hal r.type hin
      · have hm := hu ▸ mem_filter.2 ⟨hr, by simpa using hin⟩
        exact (mem_filter.1 (mem_filter.1 hm).1).2
    refine ⟨by simpa using (Bool.and_eq_true_iff.1 hof).2, ?_⟩
    by_contra hs
    rw [Bool.not_eq_false] at hs
    rw [not_offer_of_signature hs] at hof
    cases hof
  · rw [hu]
    exact (ha.filter _).filter _

lemma mirrors_of_mirrorable (hl : ∀ x, (sha256 x).length = 32) (schnorr : Schnorr) {o : Offer}
    (ho : Offer.fromRecords rs OFFER_RANGE = .ok o) (hfit : ∀ r ∈ rs, r.value.length < 2 ^ 64) (hf : f.Valid payer)
    (hm : Offer.Mirrorable rs) : Mirrors sha256 schnorr o f payer := by
  obtain ⟨offerRecs, hof, -, hom, hop⟩ := Offer.fromRecords_toRecords ho hm
  obtain ⟨q, hq, rfl, hqi, hqm, hqu, hfilled⟩ := mirror_ok hf o
  -- The records for a signature of 64 bytes, whatever it is.
  have hw : ∀ sig : Bytes, sig.length = 64 → ∃ out,
      ({ q with signature := some sig } : InvoiceRequest).toRecords true = .ok out ∧ Ascending out ∧
      InvoiceRequest.parse ⟨.lnr, out⟩ = .ok { q with signature := some sig } ∧ (∀ r ∈ out, r.Fits) ∧
      ⟨INVREQ_METADATA, f.metadata⟩ ∈ out := by
    intro sig hsig
    obtain ⟨out, hto, ha, hp, hmem, hpi⟩ := InvoiceRequest.parse_toRecords
      (q := { q with signature := some sig }) hof (fun r hr => (hom r hr).2) hqu hop hfilled (fun r hr => hr.1)
      rfl hsig
    refine ⟨out, hto, ha, hp, fun r hr => ?_, ?_⟩
    · rcases hmem r hr with h | h | rfl
      · exact ⟨Nat.lt_trans (lt_of_isOfferType (hom r h).2) (by decide), hfit r (hom r h).1⟩
      · exact h.2.2
      refine ⟨?_, ?_⟩
      · show SIGNATURE < 2 ^ 64
        decide
      · rw [hsig]
        decide
    · refine hpi [⟨INVREQ_METADATA, f.metadata⟩] ?_ _ (by simp)
      simp [InvoiceRequest.pieces, hqm, optRecord]
  -- The digest reads the records without the signature.
  obtain ⟨digest, hdi, hd⟩ : ∃ digest, q.signatureDigest sha256 = .ok digest ∧ digest.length = 32 := by
    obtain ⟨out, -, ha, hp, hfi, hme⟩ := hw (List.replicate 64 0) (by simp)
    obtain ⟨unsigned, hun, hpe, -⟩ := InvoiceRequest.toRecords_of_parse ha.distinct hp false
    have hfi' : ∀ r ∈ nonSig unsigned, r.Fits := fun r hr =>
      hfi r (mem_of_mem_filter (mem_of_mem_kept (hpe.subset (mem_of_mem_filter hr))))
    have hmem : (⟨INVREQ_METADATA, f.metadata⟩ : TLVRecord) ∈ nonSig unsigned := by
      refine mem_filter.2 ⟨hpe.symm.subset ?_, rfl⟩
      exact mem_filter.2 ⟨mem_filter.2 ⟨hme, rfl⟩, rfl⟩
    obtain ⟨digest, hdi, hd⟩ := exists_signatureDigest hl .lnr (ne_nil_of_mem hmem) hfi'
    refine ⟨digest, ?_, hd⟩
    rw [InvoiceRequest.signatureDigest, bind_eq_ok]
    exact ⟨unsigned, hun, hdi⟩
  have hs := payer.length_sign digest hd
  obtain ⟨out, hto, ha, hp, hfi, -⟩ := hw (payer.signSchnorr digest) hs
  obtain ⟨data, hda⟩ := (encodeStream_ok_iff out).2 hfi
  have hde : decodeStream data {} = .ok out := decodeStream_of_encode ⟨ha, hfi⟩ hda
  have hsi : signInvoiceRequest sha256 q payer = .ok { q with signature := some (payer.signSchnorr digest) } := by
    obtain ⟨xonly, hk⟩ := payer.compressed
    simp only [signInvoiceRequest, hqi, bind_eq_ok, hf.key, hk, raiseIf_eq_ok, hdi]
    have hsign : payer.sign digest = .ok (payer.signSchnorr digest) := by simp [Signer.sign, hd]
    exact ⟨xonly, rfl, xonly, rfl, (), by simp, digest, rfl, _, hsign, rfl⟩
  refine ⟨q, _, digest, out, data, out, hq, hdi, hsi, hto, hda, hde, hp, rfl, ?_⟩
  exact verifyInvoiceRequest_of_digest schnorr hqi rfl hdi

/-- For every accepted offer and all request fields that fit: the request that
mirrors the offer goes through exactly when the offer has no record of type 0 or
of a signature type and its unknown records ascend. -/
theorem mirrors_iff {sha256 : Bytes → Bytes} (hlen : ∀ x, (sha256 x).length = 32) (schnorr : Schnorr)
    {b12 : Bolt12String} {o : Offer} (ho : Offer.parse b12 = .ok o) (hfit : ∀ r ∈ b12.records, r.value.length < 2 ^ 64)
    {f : RequestFields} {payer : Signer} (hf : f.Valid payer) :
    Mirrors sha256 schnorr o f payer ↔ Offer.Mirrorable b12.records := by
  have hfr : Offer.fromRecords b12.records OFFER_RANGE = .ok o := by
    simp only [Offer.parse, bind_eq_ok] at ho
    obtain ⟨-, -, ho⟩ := ho
    exact ho
  exact ⟨mirrorable_of_mirrors hfr, mirrors_of_mirrorable hlen schnorr hfr hfit hf⟩

def zeroFields : RequestFields := { metadata := [7], payerId := zeroSigner.publicKey, amount := some 1000 }

lemma zeroFields_valid : zeroFields.Valid zeroSigner where
  key := rfl
  amount_lt := by simp [zeroFields]
  quantity_lt := by simp [zeroFields]
  chain_length := by simp [zeroFields]
  metadata_fits := by simp [zeroFields]
  note_fits := by simp [zeroFields]
  features_fit := by simp [zeroFields]
  paths_fit := by simp [zeroFields]

/-- The requests of an offer with a description and an unknown record mirror it. -/
theorem mirrors_iff_described : ∃ o, Offer.parse ⟨.lno, [⟨OFFER_DESCRIPTION, utf8 "tea"⟩, ⟨33, [5]⟩]⟩ = .ok o ∧
    Mirrors Sha256.sha256 (fun _ _ _ => true) o zeroFields zeroSigner := by
  have hp : Offer.parse ⟨.lno, [⟨OFFER_DESCRIPTION, utf8 "tea"⟩, ⟨33, [5]⟩]⟩ =
      .ok { description := some "tea", unknownRecords := [⟨33, [5]⟩] } := by
    rfl
  refine ⟨_, hp, (mirrors_iff Sha256.length_sha256 _ hp (by decide) zeroFields_valid).2 ⟨by decide, ?_⟩⟩
  exact pairwise_singleton _ _

/-- An offer may carry a record of type 0, which is also the type of the
request's metadata: signing its request raises. -/
theorem mirror_metadata_twice : zeroFields.Valid zeroSigner ∧ ∃ o unsigned, Offer.parse ⟨.lno, [⟨0, [1]⟩]⟩ = .ok o ∧
    zeroFields.mirror o = .ok unsigned ∧ signInvoiceRequest Sha256.sha256 unsigned zeroSigner =
      .error (.bolt12FormatError "duplicate TLV type 0") := by
  refine ⟨zeroFields_valid, { unknownRecords := [⟨0, [1]⟩] }, _, rfl, rfl, ?_⟩
  have ho : sortAndCheck [⟨0, [1]⟩] = .ok [⟨0, [1]⟩] := by
    rw [sortAndCheck, mergeSort_of_pairwise (by decide)]
    rfl
  have ha : sortAndCheck [⟨0, [1]⟩, ⟨0, [7]⟩, ⟨INVREQ_AMOUNT, encodeTu64 1000⟩,
      ⟨INVREQ_PAYER_ID, zeroSigner.publicKey⟩] = .error (.bolt12FormatError "duplicate TLV type 0") := by
    rw [sortAndCheck, mergeSort_of_pairwise (by decide)]
    rfl
  have hd : ∀ q : InvoiceRequest, q.toRecords false = .error (.bolt12FormatError "duplicate TLV type 0") →
      q.signatureDigest Sha256.sha256 = .error (.bolt12FormatError "duplicate TLV type 0") := by
    intro q hq
    rw [InvoiceRequest.signatureDigest, hq]
    rfl
  simp only [signInvoiceRequest]
  rw [hd]
  · rfl
  · rw [InvoiceRequest.toRecords, Offer.toRecords]
    simp only [bind_eq_error]
    exact .inr ⟨_, ho, .inr ⟨_, rfl, ha⟩⟩

end AgentWallet.Bolt12
