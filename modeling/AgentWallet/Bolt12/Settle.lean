import AgentWallet.Bolt12.Price
/-!
# The invoice that is settled

Before an invoice is paid, the reply is checked field by field against the
request. `checkInvoice_ok_iff` is the list of these checks. Of the records that a
reply has to mirror, only the metadata and the key of the payer are among them,
so what is settled is an invoice for the wallet's own request exactly when the
recipient left all others as they were sent (`bound_iff`).
-/

namespace AgentWallet.Bolt12

open AgentWallet.Lib List Except

variable {rs : List TLVRecord}

lemma Ascending.eq_of_mem_iff {ss : List TLVRecord} (hr : Ascending rs) (hs : Ascending ss) (h : ∀ r, r ∈ rs ↔ r ∈ ss) : rs = ss := by
  have hn : ∀ {l : List TLVRecord}, Ascending l → l.Nodup := fun hl => hl.imp fun hlt he => by simp [he] at hlt
  exact hr.eq_of_perm hs ((perm_ext_iff_of_nodup (hn hr) (hn hs)).2 h)

lemma Distinct.eq_of_mem (h : Distinct rs) {r s : TLVRecord} (hr : r ∈ rs) (hs : s ∈ rs) (ht : r.type = s.type) :
    r = s := by
  have hsy : Std.Symm fun r s : TLVRecord => r.type ≠ s.type := ⟨fun _ _ => Ne.symm⟩
  by_contra hne
  exact List.Pairwise.forall h hr hs hne ht

namespace Payer

open Responder (Host)

variable {P : Type} {host : Host P} {offer : Offer} {session : Session} {amount : Nat} {payload : Bytes}
  {invoice : Invoice}

/-! ## What was checked -/

/-- A reply with the records `rs` that was accepted as `invoice`. -/
structure Accepted (host : Host P) (offer : Offer) (session : Session) (amount : Nat) (payload : Bytes)
    (invoice : Invoice) (rs : List TLVRecord) : Prop where
  decoded : decodeStream payload host.settings.caps = .ok rs
  parsed : Invoice.parse ⟨.lni, rs⟩ = .ok invoice
  hash : invoice.paymentHash ≠ none
  payerId : invoice.invreq.payerId = some session.payer.publicKey
  metadata : invoice.invreq.metadata = some session.invreqMetadata
  signed : ∃ key sig digest, verifyingKeyOf offer invoice = .ok (some key) ∧ invoice.signature = some sig ∧
    invoice.signatureDigest host.sha256 = .ok digest ∧ verifyBip340 host.schnorr key digest sig = true
  amount_eq : invoice.amount = some amount

lemma parseInvoice_ok_iff :
    parseInvoice host payload = .ok invoice ↔
      ∃ rs, decodeStream payload host.settings.caps = .ok rs ∧ Invoice.parse ⟨.lni, rs⟩ = .ok invoice := by
  simp only [parseInvoice, bind_eq_ok]

lemma checkInvoice_ok_iff :
    checkInvoice host offer session amount payload = .ok invoice ↔
      ∃ rs, Accepted host offer session amount payload invoice rs := by
  constructor
  · intro h
    unfold checkInvoice at h
    split at h
    · split at h <;> cases h
    rename_i i hi
    obtain ⟨rs, hde, hp⟩ := parseInvoice_ok_iff.1 hi
    split at h
    · cases h
    · cases h
    rename_i hash sig hh hs
    obtain ⟨hid, h⟩ := ite_passed h
    obtain ⟨hm, h⟩ := ite_passed h
    obtain ⟨key, hk, h⟩ := bind_eq_ok.1 h
    split at h
    · cases h
    rename_i key
    split at h
    · cases h
    rename_i digest hd
    obtain ⟨hv, h⟩ := ite_passed h
    split at h
    · cases h
    rename_i got hg
    obtain ⟨ha, h⟩ := ite_passed h
    obtain rfl := ok.inj h
    refine ⟨rs, hde, hp, ?_, not_not.1 hid, not_not.1 hm, ?_, ?_⟩
    · rw [hh]
      exact Option.some_ne_none _
    · exact ⟨key, sig, digest, hk, hs, hd, by simpa using hv⟩
    · rw [hg, not_not.1 ha]
  · rintro ⟨rs, hde, hp, hh, hid, hm, ⟨key, sig, digest, hk, hs, hd, hv⟩, ha⟩
    obtain ⟨hash, hh⟩ := Option.ne_none_iff_exists'.1 hh
    have hi := parseInvoice_ok_iff.2 ⟨rs, hde, hp⟩
    simp only [checkInvoice, hi, hh, hs, hid, hm, ne_eq, not_true_eq_false, if_false, bind_eq_ok]
    refine ⟨some key, hk, ?_⟩
    simp [hd, hv, ha]

/-! ## The records of the request -/

def requestRecords (rs : List TLVRecord) : List TLVRecord := rs.filter (·.type < INVREQ_RANGE)

def unchecked (rs : List TLVRecord) : List TLVRecord :=
  rs.filter fun r => r.type < INVREQ_RANGE ∧ r.type ≠ INVREQ_METADATA ∧ r.type ≠ INVREQ_PAYER_ID

lemma unchecked_eq (rs : List TLVRecord) :
    unchecked rs = (requestRecords rs).filter fun r => r.type ≠ INVREQ_METADATA ∧ r.type ≠ INVREQ_PAYER_ID := by
  rw [requestRecords, unchecked, filter_filter]
  apply filter_congr
  intro r _
  simp [and_comm]

/-- The reply is an invoice for the request with the records `sent`: it has the
same records in the request's range, it bills the amount, and for a direct offer
its signature is one of the issuer over what was received. -/
def Bound (host : Host P) (offer : Offer) (amount : Nat) (sent : List TLVRecord) (payload : Bytes) (invoice : Invoice) :
    Prop :=
  ∃ rs, decodeStream payload host.settings.caps = .ok rs ∧ requestRecords rs = requestRecords sent ∧
    invoice.amount = some amount ∧ ∀ issuerId ∈ offer.issuerId, offer.paths = none → ∃ sig digest,
      ⟨SIGNATURE, sig⟩ ∈ rs ∧ Bolt12String.signatureDigest host.sha256 ⟨.lni, rs⟩ = .ok digest ∧
        verifyBip340 host.schnorr issuerId digest sig = true

lemma verifyingKeyOf_direct {issuerId key : Bytes} (hid : offer.issuerId = some issuerId)
    (hp : offer.paths = none) (h : verifyingKeyOf offer invoice = .ok (some key)) : key = issuerId := by
  unfold verifyingKeyOf at h
  rw [hid, hp] at h
  dsimp only at h
  split at h
  · rcases ite_eq_iff.1 h with ⟨-, h⟩ | ⟨-, h⟩
    · cases h
    · exact (Option.some.inj (ok.inj h)).symm
  · exact (Option.some.inj (ok.inj h)).symm

lemma mem_of_field (hd : Distinct rs) (hpa : Invoice.parse ⟨.lni, rs⟩ = .ok invoice) {t : Nat} {v : Bytes}
    (hp : .ok [⟨t, v⟩] ∈ invoice.invreq.pieces) : ⟨t, v⟩ ∈ rs := by
  obtain ⟨-, hpi, -⟩ := Invoice.layers_of_parse hd hpa
  rw [hpi] at hp
  obtain ⟨t', -, hs⟩ := mem_map.1 hp
  have hm : (⟨t, v⟩ : TLVRecord) ∈ slot rs t' := by
    rw [ok.inj hs]
    exact mem_singleton_self _
  exact (mem_filter.1 hm).1

lemma mem_iff_of_type {ss : List TLVRecord} (hr : Distinct rs) (hs : Distinct ss) {x r : TLVRecord} (hxr : x ∈ rs)
    (hxs : x ∈ ss) (ht : r.type = x.type) : r ∈ rs ↔ r ∈ ss :=
  ⟨fun h => hr.eq_of_mem h hxr ht ▸ hxs, fun h => hs.eq_of_mem h hxs ht ▸ hxr⟩

variable {req : PayOfferRequest} {replyPath : Bytes} {signed : InvoiceRequest} {wire : Bytes} {sent : List TLVRecord}

/-- A request is not sent with an empty list of chains. -/
lemma kept_sent (ho : decodeOfferOr400 host req.offer = .ok offer)
    (hse : Sent host offer req amount session replyPath signed sent wire) : kept sent = sent := by
  obtain ⟨b12, hb12, hp⟩ := decodeOfferOr400_ok ho
  obtain ⟨-, hc⟩ := Codec.decode_without_caps hb12
  have hof := @Offer.toRecords_parse offer b12.hrp b12.records hc.1 hp
  obtain ⟨sig, -, hs⟩ := hse.signed_eq
  have hre := hse.records_eq
  simp only [InvoiceRequest.toRecords, bind_eq_ok] at hre
  obtain ⟨offerRecs, ho, recs, hrecs, hso⟩ := hre
  obtain ⟨hm, -, -⟩ := slots_of_concat signed.shaped InvoiceRequest.types_nodup hrecs
  have hsa : signed.offer = offer := by rw [hs]; rfl
  have hu : signed.unknownRecords = [] := by rw [hs]; rfl
  rw [hsa, hof] at ho
  obtain rfl := ok.inj ho
  apply kept_eq_self.2
  intro r hr ht
  have hr := (sortAndCheck_ok hso).1.subset hr
  rw [hu, append_nil, mem_append, mem_append] at hr
  rcases hr with (hr | hr) | hr
  · have hn := (mem_filter.1 hr).2
    intro he
    simp [emptyChains, ht, he] at hn
  · have ha : ∀ t ∈ InvoiceRequest.types, t ≠ OFFER_CHAINS := by decide
    exact absurd ht (ha _ (hm r hr))
  · rw [type_of_mem_signatureRecord hr] at ht
    cases ht

/-- With the checked fields equal, the request's records are the same as soon as the unchecked ones are. -/
lemma requestRecords_eq (ha : Accepted host offer session amount payload invoice rs)
    (hse : Sent host offer req amount session replyPath signed sent wire) (h : unchecked rs = unchecked sent) :
    requestRecords rs = requestRecords sent := by
  have hasc : Ascending rs := (decodeStream_ok ha.decoded).1.1
  have hs : Ascending sent := hse.canonical.1
  obtain ⟨sig, -, hsi⟩ := hse.signed_eq
  have hme : (⟨INVREQ_METADATA, session.invreqMetadata⟩ : TLVRecord) ∈ rs := by
    apply mem_of_field hasc.distinct ha.parsed
    simp [InvoiceRequest.pieces, ha.metadata, optRecord]
  have hm : (⟨INVREQ_METADATA, session.invreqMetadata⟩ : TLVRecord) ∈ sent := by
    apply InvoiceRequest.mem_toRecords hse.records_eq (z := [⟨INVREQ_METADATA, session.invreqMetadata⟩])
    · rw [hsi]
      simp [InvoiceRequest.pieces, requestOf, fields, optRecord]
    · exact mem_singleton_self _
  have hke : (⟨INVREQ_PAYER_ID, session.payer.publicKey⟩ : TLVRecord) ∈ rs := by
    apply mem_of_field hasc.distinct ha.parsed
    simp [InvoiceRequest.pieces, ha.payerId, optRecord]
  have hk : (⟨INVREQ_PAYER_ID, session.payer.publicKey⟩ : TLVRecord) ∈ sent := by
    apply InvoiceRequest.mem_toRecords hse.records_eq (z := [⟨INVREQ_PAYER_ID, session.payer.publicKey⟩])
    · rw [hsi]
      simp [InvoiceRequest.pieces, requestOf, fields, optRecord]
    · exact mem_singleton_self _
  apply Ascending.eq_of_mem_iff (hasc.filter _) (hs.filter _)
  intro r
  simp only [mem_filter]
  apply and_congr_left
  intro hlt
  -- A record of a checked type is the one both lists have, any other is among the unchecked ones.
  by_cases h0 : r.type = INVREQ_METADATA
  · exact mem_iff_of_type hasc.distinct hs.distinct hme hm h0
  by_cases h88 : r.type = INVREQ_PAYER_ID
  · exact mem_iff_of_type hasc.distinct hs.distinct hke hk h88
  have hmem : ∀ l : List TLVRecord, r ∈ l ↔ r ∈ unchecked l := by
    intro l
    simp [unchecked, h0, h88, of_decide_eq_true hlt]
  rw [hmem rs, hmem sent, h]

lemma digest_of_received (ha : Accepted host offer session amount payload invoice rs) (hk : kept rs = rs) :
    invoice.signatureDigest host.sha256 = Bolt12String.signatureDigest host.sha256 ⟨.lni, rs⟩ := by
  have hasc : Ascending rs := (decodeStream_ok ha.decoded).1.1
  rw [Invoice.signatureDigest, Invoice.toRecords_parse hasc ha.parsed, ← selected_kept, hk]
  exact signatureDigest_selected host.sha256 _ rs

/-- For every offer and every reply that is accepted for a request that was
built for it: what is settled is bound to that request exactly when the reply has
the same records of the request's types other than the metadata and the payer's
key. -/
theorem bound_iff (hoffer : decodeOfferOr400 host req.offer = .ok offer)
    (hbuild : builder host offer req amount session replyPath = .ok (signed, wire))
    (hwire : decodeStream wire {} = .ok sent) (hok : checkInvoice host offer session amount payload = .ok invoice) :
    Bound host offer amount sent payload invoice ↔
      ∃ rs, decodeStream payload host.settings.caps = .ok rs ∧ unchecked rs = unchecked sent := by
  obtain ⟨records, hs⟩ := sent_of_build hbuild
  obtain rfl := ok.inj (hs.decode.symm.trans hwire)
  obtain ⟨rs, ha⟩ := checkInvoice_ok_iff.1 hok
  constructor
  · rintro ⟨rs', hde, hsa, -, -⟩
    exact ⟨rs', hde, by rw [unchecked_eq, unchecked_eq, hsa]⟩
  rintro ⟨rs', hde, hsa⟩
  obtain rfl := ok.inj (ha.decoded.symm.trans hde)
  have hal := requestRecords_eq ha hs hsa
  have hk : kept rs = rs := by
    apply kept_eq_self.2
    intro r hr ht
    have hm : r ∈ requestRecords records := by
      rw [← hal, requestRecords, mem_filter, ht]
      exact ⟨hr, rfl⟩
    exact kept_eq_self.1 (kept_sent hoffer hs) r (mem_filter.1 hm).1 ht
  refine ⟨rs, hde, hal, ha.amount_eq, fun issuerId hid hp => ?_⟩
  obtain ⟨key, sig, digest, hke, hsi, hd, hv⟩ := ha.signed
  obtain rfl := verifyingKeyOf_direct hid hp hke
  refine ⟨sig, digest, ?_, ?_, hv⟩
  · have hasc : Ascending rs := (decodeStream_ok hde).1.1
    obtain ⟨-, -, -, hsl, -⟩ := Invoice.layers_of_parse hasc.distinct ha.parsed
    have hm : (⟨SIGNATURE, sig⟩ : TLVRecord) ∈ slot rs SIGNATURE := by
      rw [← hsl, hsi]
      exact mem_singleton_self _
    exact (mem_filter.1 hm).1
  · rw [← hd, digest_of_received ha hk]

/-! ## Two replies -/

def recipientRecords : List TLVRecord := [⟨INVOICE_PAYMENT_HASH, List.replicate 32 0⟩,
  ⟨INVOICE_AMOUNT, encodeTu64 1000⟩, ⟨INVOICE_NODE_ID, zeroSigner.publicKey⟩, ⟨SIGNATURE, List.replicate 64 0⟩]

/-- The two checked fields of the request, and the recipient's. -/
def Expected (i : Invoice) : Prop :=
  (i.invreq.metadata = some [7] ∧ i.invreq.payerId = some zeroSigner.publicKey) ∧
    i.paymentHash = some (List.replicate 32 0) ∧ i.amount = some 1000 ∧ i.nodeId = some zeroSigner.publicKey ∧
    i.signature = some (List.replicate 64 0)

lemma exists_reply {offer : Offer} (hid : offer.issuerId = some zeroSigner.publicKey) (hpaths : offer.paths = none)
    {lower : List TLVRecord} {invoice : Invoice} (hc : Canonical (lower ++ recipientRecords))
    (hp : Invoice.parse ⟨.lni, lower ++ recipientRecords⟩ = .ok invoice) (hre : Expected invoice) :
    ∃ payload, decodeStream payload {} = .ok (lower ++ recipientRecords) ∧
      checkInvoice openHost offer zeroSession 1000 payload = .ok invoice := by
  obtain ⟨hch, hf⟩ := hre
  obtain ⟨payload, hpa⟩ := (encodeStream_ok_iff _).2 hc.2
  have hde : decodeStream payload {} = .ok (lower ++ recipientRecords) := decodeStream_of_encode hc hpa
  obtain ⟨digest, hd, hdl⟩ :
      ∃ digest, invoice.signatureDigest Sha256.sha256 = .ok digest ∧ digest.length = 32 := by
    rw [Invoice.signatureDigest, Invoice.toRecords_parse hc.1 hp]
    apply exists_signatureDigest Sha256.length_sha256 .lni
    · apply ne_nil_of_mem (a := ⟨INVOICE_AMOUNT, encodeTu64 1000⟩)
      simp [nonSig, kept, selected, recipientRecords, emptyChains, isSignatureType, SIG_TYPE_MIN, INVOICE_AMOUNT,
        SIGNATURE]
    · intro r hr
      exact hc.2 r (mem_of_mem_filter (mem_of_mem_kept (mem_of_mem_filter hr)))
  refine ⟨payload, hde, checkInvoice_ok_iff.2 ⟨lower ++ recipientRecords, ?_⟩⟩
  refine ⟨hde, hp, by simp [hf], hch.2, hch.1, ?_, hf.2.1⟩
  refine ⟨zeroSigner.publicKey, _, digest, ?_, hf.2.2.2, hd, ?_⟩
  · simp [verifyingKeyOf, hid, hpaths, hf]
  · simp [verifyBip340, hdl, zeroSigner, xonlyFromCompressed, openHost, Responder.plainHost]

/-- The records of the request for one item of `teaIssue`. -/
def teaSent : List TLVRecord := [⟨INVREQ_METADATA, [7]⟩] ++ teaRecords ++
  [⟨INVREQ_AMOUNT, encodeTu64 1000⟩, ⟨INVREQ_PAYER_ID, zeroSigner.publicKey⟩, ⟨INVREQ_PAYS_PATHS, []⟩]

lemma requestRecords_tea {text : String} {signed : InvoiceRequest} {sent : List TLVRecord} {wire : Bytes}
    (h : Sent openHost (issuedOffer openHost teaIssue teaIssuance) (teaRequest text none (by simp)) 1000 zeroSession []
      signed sent wire) : requestRecords sent = teaSent := by
  obtain ⟨sig, -, hs⟩ := h.signed_eq
  have hr := h.records_eq
  simp only [hs, InvoiceRequest.toRecords, requestOf, bind_eq_ok, tea_toRecords, ok.injEq, exists_eq_left']
    at hr
  obtain ⟨recs, hrecs, hso⟩ := hr
  obtain rfl : [⟨INVREQ_METADATA, [7]⟩, ⟨INVREQ_AMOUNT, encodeTu64 1000⟩, ⟨INVREQ_PAYER_ID, zeroSigner.publicKey⟩,
      ⟨INVREQ_PAYS_PATHS, []⟩] = recs := ok.inj hrecs
  have hp : (requestRecords sent).Perm (requestRecords (teaSent ++ [⟨SIGNATURE, sig⟩])) := by
    apply ((sortAndCheck_ok hso).1.trans _).filter
    simp only [append_nil, teaSent, append_assoc, cons_append, nil_append]
    exact perm_middle
  have hre : requestRecords (teaSent ++ [⟨SIGNATURE, sig⟩]) = teaSent := rfl
  rw [hre] at hp
  have ha : Ascending (requestRecords sent) := h.canonical.1.filter _
  exact ha.eq_of_perm (by unfold Ascending; decide) hp

/-- A reply that repeats all records of the request is bound to it. -/
theorem bound_mirrored : ∃ offer sent payload invoice, Bound openHost offer 1000 sent payload invoice := by
  obtain ⟨row, offer, signed, wire, hi, ho, -, hb⟩ := @exists_tea none (by simp) (by simp)
  obtain ⟨rfl, -⟩ := eq_of_issued hi ho
  obtain ⟨sent, hs⟩ := sent_of_build hb
  obtain ⟨invoice, hp, hre⟩ : ∃ i, Invoice.parse ⟨.lni, teaSent ++ recipientRecords⟩ = .ok i ∧ Expected i := by
    refine ⟨_, bind_eq_ok.2 ⟨(), rfl, bind_eq_ok.2 ⟨_, rfl, bind_eq_ok.2 ⟨_, rfl, bind_eq_ok.2 ⟨_, tea_toRecords, rfl⟩⟩⟩⟩, ?_⟩
    exact ⟨⟨rfl, rfl⟩, rfl, rfl, rfl, rfl⟩
  obtain ⟨payload, hd, hok⟩ := @exists_reply (issuedOffer openHost teaIssue teaIssuance) rfl rfl teaSent invoice
    (by decide) hp hre
  have ho' : decodeOfferOr400 openHost (teaRequest row.bolt12 none (by simp)).offer = .ok _ := ho
  refine ⟨_, sent, payload, invoice, (bound_iff ho' hb hs.decode hok).2 ⟨_, hd, ?_⟩⟩
  have hr : requestRecords (teaSent ++ recipientRecords) = teaSent := rfl
  rw [unchecked_eq, unchecked_eq, hr, requestRecords_tea hs]

/-- A recipient can leave out the offer and the rest of the request: the reply is accepted all the same. -/
theorem stripped_reply_accepted : ∃ row offer signed wire sent payload invoice,
    performIssueOffer openHost teaIssue teaIssuance = .ok row ∧ decodeOfferOr400 openHost row.bolt12 = .ok offer ∧
    builder openHost offer (teaRequest row.bolt12 none (by simp)) 1000 zeroSession [] = .ok (signed, wire) ∧
    decodeStream wire {} = .ok sent ∧ checkInvoice openHost offer zeroSession 1000 payload = .ok invoice ∧
    ¬ Bound openHost offer 1000 sent payload invoice := by
  obtain ⟨row, offer, signed, wire, hi, ho, -, hb⟩ := @exists_tea none (by simp) (by simp)
  obtain ⟨rfl, -⟩ := eq_of_issued hi ho
  obtain ⟨sent, hs⟩ := sent_of_build hb
  let lower : List TLVRecord := [⟨INVREQ_METADATA, [7]⟩, ⟨INVREQ_PAYER_ID, zeroSigner.publicKey⟩]
  obtain ⟨invoice, hp, hr⟩ : ∃ i, Invoice.parse ⟨.lni, lower ++ recipientRecords⟩ = .ok i ∧ Expected i := by
    refine ⟨_, bind_eq_ok.2 ⟨(), rfl, bind_eq_ok.2 ⟨_, rfl, bind_eq_ok.2 ⟨_, rfl, bind_eq_ok.2 ⟨_, Responder.toRecords_emptyOffer,
      rfl⟩⟩⟩⟩, ?_⟩
    exact ⟨⟨rfl, rfl⟩, rfl, rfl, rfl, rfl⟩
  obtain ⟨payload, hd, hok⟩ := @exists_reply (issuedOffer openHost teaIssue teaIssuance) rfl rfl lower invoice
    (by decide) hp hr
  refine ⟨row, _, signed, wire, sent, payload, invoice, hi, ho, hb, hs.decode, hok, ?_⟩
  rintro ⟨rs, hrs, hsa, -⟩
  obtain rfl := ok.inj (hd.symm.trans hrs)
  rw [requestRecords_tea hs] at hsa
  have hl := congrArg List.length hsa
  have hsh : (requestRecords (lower ++ recipientRecords)).length = 2 := rfl
  rw [hsh] at hl
  cases hl

end Payer

end AgentWallet.Bolt12
