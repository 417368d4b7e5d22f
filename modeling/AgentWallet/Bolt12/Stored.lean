import AgentWallet.Bolt12.Responder
/-!
# What the responder stores

The signed invoice is stored as a text and returned as bytes, and a repeated
request is answered from the text. The text is longer than the bytes, and the
decoder of texts has a limit of its own, so a stored invoice is replayed exactly
when it has at most 5117 bytes, 66 of them for the signature, whatever the cap on
outbound invoices (`replayed_iff`).
-/

namespace AgentWallet.Bolt12

open AgentWallet.Lib List Except

/-! ## The length of a stream -/

/-- How many bytes `BigSize.encode` writes. -/
def BigSize.encodedLength (n : Nat) : Nat :=
  if n < 0xFD then 1 else if n < 0x10000 then 3 else if n < 0x100000000 then 5 else 9

def TLVRecord.encodedLength (r : TLVRecord) : Nat :=
  BigSize.encodedLength r.type + BigSize.encodedLength r.value.length + r.value.length

def wireLength (rs : List TLVRecord) : Nat := (rs.map (·.encodedLength)).sum

lemma BigSize.length_encode {n : Nat} {b : Bytes} (h : BigSize.encode n = .ok b) :
    b.length = BigSize.encodedLength n := by
  unfold BigSize.encodedLength
  rcases BigSize.encode_cases h with ⟨h1, rfl⟩ | ⟨h1, h2, rfl⟩ | ⟨h1, h2, rfl⟩ | ⟨h1, -, rfl⟩
  · rw [if_pos h1]
    rfl
  · rw [if_neg (by omega), if_pos (by omega)]
    simp
  · rw [if_neg (by omega), if_neg (by omega), if_pos (by omega)]
    simp
  · rw [if_neg (by omega), if_neg (by omega), if_neg (by omega)]
    simp

lemma BigSize.encodedLength_le (n : Nat) : BigSize.encodedLength n ≤ 9 := by
  unfold BigSize.encodedLength
  split_ifs <;> decide

lemma length_encodeStream {rs : List TLVRecord} {d : Bytes} (h : encodeStream rs = .ok d) :
    d.length = wireLength rs := by
  induction rs generalizing d with
  | nil =>
    obtain rfl := ok.inj h
    rfl
  | cons r rs ih =>
    simp only [encodeStream, bind_eq_ok, pure_eq_ok] at h
    obtain ⟨b, hb, bs, hbs, rfl⟩ := h
    obtain ⟨t, l, ht, hl, rfl⟩ := (TLVRecord.encode_ok_iff r b).1 hb
    have hr : bs.length = (rs.map (·.encodedLength)).sum := ih hbs
    rw [wireLength, map_cons, sum_cons, ← hr, TLVRecord.encodedLength, ← BigSize.length_encode ht,
      ← BigSize.length_encode hl, length_append, length_append, length_append]

lemma wireLength_perm {rs rs' : List TLVRecord} (h : rs.Perm rs') : wireLength rs = wireLength rs' :=
  (h.map _).sum_eq

lemma wireLength_append (rs rs' : List TLVRecord) : wireLength (rs ++ rs') = wireLength rs + wireLength rs' := by
  simp [wireLength]

lemma wireLength_bounds (rs : List TLVRecord) :
    (rs.map (·.value.length)).sum ≤ wireLength rs ∧ wireLength rs ≤ (rs.map (·.value.length + 18)).sum := by
  constructor
  · apply sum_le_sum
    intro r _
    exact Nat.le_add_left _ _
  · apply sum_le_sum
    intro r _
    have := BigSize.encodedLength_le r.type
    have := BigSize.encodedLength_le r.value.length
    simp only [TLVRecord.encodedLength]
    omega

namespace Responder

variable {P : Type} {host : Host P}

/-! ## Encoding -/

/-- What is known of an invoice that was encoded. -/
structure Encoded (host : Host P) (unsigned : Invoice) (records : List TLVRecord) (text : String)
    (bytes : Bytes) : Prop where
  unsigned_ok : ∃ rs, unsigned.toRecords false = .ok rs
  signed : ∃ sig, sig.length = 64 ∧ ({ unsigned with signature := some sig } : Invoice).toRecords true = .ok records
  canonical : Canonical records
  text_eq : Codec.encode ⟨.lni, records⟩ = .ok text
  bytes_eq : encodeStream records = .ok bytes

lemma encodeInvoice_ok {unsigned : Invoice} {signer : Signer} {text : String} {bytes : Bytes}
    (h : encodeInvoice host unsigned signer = .ok (text, bytes)) :
    ∃ records, Encoded host unsigned records text bytes := by
  simp only [encodeInvoice, bind_eq_ok, pure_eq_ok, Prod.mk.injEq] at h
  obtain ⟨signed, hs, records, hr, _, ht, _, hb, rfl, rfl⟩ := h
  have hf := (encodeStream_ok_iff records).1 ⟨_, hb⟩
  have ha := Invoice.ascending_toRecords hr
  unfold signInvoice at hs
  split at hs
  · cases hs
  simp only [bind_eq_ok, pure_eq_ok] at hs
  obtain ⟨_, -, _, -, _, -, digest, hd, sig, hsig, rfl⟩ := hs
  rw [Invoice.signatureDigest, bind_eq_ok] at hd
  obtain ⟨rs, hrs, -⟩ := hd
  unfold Signer.sign at hsig
  split at hsig
  · cases hsig
  rename_i hl
  obtain rfl := ok.inj hsig
  have hsi := signer.length_sign digest (by simpa using hl)
  exact ⟨records, ⟨rs, hrs⟩, ⟨_, hsi, hr⟩, ⟨ha, hf⟩, ht, hb⟩

lemma Encoded.length_unsigned {unsigned : Invoice} {records : List TLVRecord} {text : String} {bytes : Bytes}
    (h : Encoded host unsigned records text bytes) :
    ∃ rs, unsigned.toRecords false = .ok rs ∧ bytes.length = wireLength rs + 66 := by
  obtain ⟨rs, hrs⟩ := h.unsigned_ok
  obtain ⟨sig, hsi, hr⟩ := h.signed
  refine ⟨rs, hrs, ?_⟩
  simp only [Invoice.toRecords, bind_eq_ok] at hrs hr
  obtain ⟨lower, hl, own, ho, hso⟩ := hrs
  obtain ⟨lower', hl', own', ho', hso'⟩ := hr
  obtain rfl : lower = lower' := ok.inj (hl.symm.trans hl')
  obtain rfl : own = own' := ok.inj (ho.symm.trans ho')
  have hp := (sortAndCheck_ok hso).1
  have hp' := (sortAndCheck_ok hso').1
  have hs : wireLength [⟨SIGNATURE, sig⟩] = 66 := by
    simp only [wireLength, TLVRecord.encodedLength, map_cons, map_nil, sum_cons, sum_nil, hsi]
    rfl
  have hn : InvoiceRequest.signatureRecord false unsigned.signature = [] := rfl
  rw [length_encodeStream h.bytes_eq, wireLength_perm hp', wireLength_append, wireLength_perm hp, hn,
    append_nil]
  exact congrArg _ hs

lemma exists_encodeInvoice (hle : ∀ x, (host.sha256 x).length = 32) {unsigned : Invoice} {signer : Signer}
    {lower own : List TLVRecord} (hk : unsigned.nodeId = some signer.publicKey)
    (hl : unsigned.invreq.toRecords false = .ok lower) (ho : unsigned.pieces.concat = .ok own)
    (hu : unsigned.unknownRecords = []) (hd : Distinct (lower ++ own))
    (hsig : ∀ r ∈ lower ++ own, r.type ≠ SIGNATURE) (hf : ∀ r ∈ lower ++ own, r.Fits)
    (hne : nonSig (lower ++ own) ≠ []) :
    ∃ sig records text bytes, sig.length = 64 ∧ records.Perm (lower ++ own ++ [⟨SIGNATURE, sig⟩]) ∧
      Ascending records ∧ encodeStream records = .ok bytes ∧ Codec.encode ⟨.lni, records⟩ = .ok text ∧
      encodeInvoice host unsigned signer = .ok (text, bytes) := by
  obtain ⟨out, hou, hp, -⟩ := exists_sortAndCheck hd
  have hto : unsigned.toRecords false = .ok out := by
    simp only [Invoice.toRecords, bind_eq_ok]
    refine ⟨lower, hl, own, ho, ?_⟩
    rw [hu, append_nil]
    simpa [InvoiceRequest.signatureRecord] using hou
  have hn : (nonSig out).Perm (nonSig (lower ++ own)) := hp.filter _
  obtain ⟨digest, hdig, hdl⟩ := exists_signatureDigest hle .lni
    (fun h => hne (nil_perm.1 (h ▸ hn)))
    fun r hr => hf r (hp.subset (mem_of_mem_filter hr))
  have hs := signer.length_sign digest hdl
  set sig := signer.signSchnorr digest
  have hd' : Distinct (lower ++ own ++ [⟨SIGNATURE, sig⟩]) := by
    refine pairwise_append.2 ⟨hd, pairwise_singleton _ _, fun a ha b hb => ?_⟩
    obtain rfl := mem_singleton.1 hb
    exact hsig a ha
  obtain ⟨records, hre, hp', hasc⟩ := exists_sortAndCheck hd'
  have hf' : ∀ r ∈ records, r.Fits := by
    intro r hr
    rcases mem_append.1 (hp'.subset hr) with hr | hr
    · exact hf r hr
    · rw [mem_singleton.1 hr]
      exact ⟨of_decide_eq_true rfl, by rw [hs]; decide⟩
  obtain ⟨bytes, hby⟩ := (encodeStream_ok_iff records).2 hf'
  have ht : Codec.encode ⟨.lni, records⟩ = .ok (Bech32.encode .lni bytes) := by
    simp [Codec.encode, hby]
  refine ⟨sig, records, _, bytes, hs, hp', hasc, hby, ht, ?_⟩
  have hsi : signInvoice host.sha256 unsigned signer = .ok { unsigned with signature := some sig } := by
    obtain ⟨xonly, hx⟩ := signer.compressed
    have hdi : unsigned.signatureDigest host.sha256 = .ok digest := by
      rw [Invoice.signatureDigest, bind_eq_ok]
      exact ⟨out, hto, hdig⟩
    have hsign : signer.sign digest = .ok sig := by simp [Signer.sign, hdl, sig]
    simp only [signInvoice, hk, bind_eq_ok, hx, hdi, raiseIf_eq_ok]
    exact ⟨xonly, rfl, xonly, rfl, (), by simp, digest, rfl, sig, hsign, rfl⟩
  simp only [encodeInvoice, bind_eq_ok, hsi, ok.injEq, exists_eq_left']
  refine ⟨records, ?_, _, ht, bytes, hby, rfl⟩
  simp only [Invoice.toRecords, bind_eq_ok]
  refine ⟨lower, hl, own, ho, ?_⟩
  rw [hu, append_nil]
  exact hre

/-- The text of an encoded invoice decodes as far as the limit of the decoder allows. -/
lemma Encoded.decode_iff {unsigned : Invoice} {records : List TLVRecord} {text : String} {bytes key : Bytes}
    (h : Encoded host unsigned records text bytes) (hk : unsigned.nodeId = some key) (b12 : Bolt12String) :
    Codec.decode host.unicodeLower text {} = .ok b12 ↔ bytes.length ≤ 5117 ∧ b12 = ⟨.lni, records⟩ := by
  obtain ⟨-, ⟨sig, -, hr⟩, hc, ht, hb⟩ := h
  have hn : (⟨INVOICE_NODE_ID, key⟩ : TLVRecord) ∈ records := by
    apply Invoice.mem_toRecords hr (z := [⟨INVOICE_NODE_ID, key⟩])
    · simp [Invoice.pieces, hk, optRecord]
    · exact mem_singleton_self _
  exact Codec.decode_encode hc (ne_nil_of_mem hn) hb ht b12

/-- The stored text decodes to records that encode to `bytes`, and a request
that finds the row as it was stored is answered with them. -/
def Replayed (host : Host P) (row : Bolt12Invoice) (bytes : Bytes) : Prop :=
  (∃ b12, Codec.decode host.unicodeLower row.invoiceBolt12 {} = .ok b12 ∧ encodeStream b12.records = .ok bytes) ∧
    (do
      let expired ← invoiceExpired row
      if expired then return none else replayBytes host row : Code P (Option Bytes)) = .ret (some bytes)

/-- Whatever the responder signs, encodes and stores is replayed as the bytes it
returned if and only if the request's records and the fields of the invoice take
at most 5051 bytes, so that the text fits the decoder with the signature. This is
the same under every cap on outbound invoices. -/
theorem replayed_iff (host : Host P) (invreq : InvoiceRequest) (paths blindedpay : Bytes) (createdAt : Nat)
    (paymentHash : Bytes) (amountMsat : Nat) (signer : Signer) {text : String} {bytes : Bytes}
    (henc : encodeInvoice host (unsignedInvoice invreq paths blindedpay createdAt paymentHash amountMsat signer)
      signer = .ok (text, bytes)) :
    Replayed host { invoiceBolt12 := text, amountMsat, paymentHashHex := hexdigest paymentHash } bytes ↔
      ∃ rs, (unsignedInvoice invreq paths blindedpay createdAt paymentHash amountMsat signer).toRecords false = .ok rs ∧
        wireLength rs ≤ 5051 := by
  obtain ⟨records, henc⟩ := encodeInvoice_ok henc
  have hd := henc.decode_iff rfl
  have hb := henc.bytes_eq
  obtain ⟨rs, hrs, hl⟩ := henc.length_unsigned
  constructor
  · rintro ⟨⟨b12, hb12, -⟩, -⟩
    have := ((hd b12).1 hb12).1
    exact ⟨rs, hrs, by omega⟩
  · rintro ⟨rs', hrs', hle⟩
    obtain rfl : rs = rs' := ok.inj (hrs.symm.trans hrs')
    have hb12 := (hd _).2 ⟨by omega, rfl⟩
    refine ⟨⟨_, hb12, hb⟩, ?_⟩
    show replayBytes host _ = _
    unfold replayBytes
    rw [hb12]
    simp only [hb]
    rfl

/-! The configured caps admit more than that. -/

def plainHost : Host Unit where
  settings := {}
  sha256 := Sha256.sha256
  schnorr _ _ _ := true
  unicodeLower := id
  classifyTorFailure _ := false
  encodeInvoicePaths _ := none
  loadSigner _ := none

def plainRequest : InvoiceRequest :=
  { offer := {}, metadata := some [7], payerId := some zeroSigner.publicKey, amount := some 1000 }

def plainRecords (amount : Nat) : List TLVRecord := [⟨INVREQ_METADATA, [7]⟩, ⟨INVREQ_AMOUNT, encodeTu64 amount⟩,
  ⟨INVREQ_PAYER_ID, zeroSigner.publicKey⟩]

lemma toRecords_emptyOffer : ({} : Offer).toRecords = .ok [] := by
  rw [Offer.toRecords, bind_eq_ok]
  exact ⟨[], rfl, by rw [sortAndCheck, mergeSort_of_pairwise (by decide)]; rfl⟩

lemma toRecords_plainRequest : plainRequest.toRecords false = .ok (plainRecords 1000) := by
  simp only [InvoiceRequest.toRecords, bind_eq_ok]
  refine ⟨[], toRecords_emptyOffer, plainRecords 1000, rfl, ?_⟩
  rw [sortAndCheck, mergeSort_of_pairwise (by decide)]
  rfl

/-- The row with an invoice for `plainRequest`. -/
def plainRow (text : String) : Bolt12Invoice :=
  { invoiceBolt12 := text, amountMsat := 1000, paymentHashHex := hexdigest (List.replicate 32 0) }

/-- An invoice with these paths for a request of `plainRecords` is encoded, in little more than their bytes. -/
lemma exists_plainInvoice (hle : ∀ x, (host.sha256 x).length = 32) {q : InvoiceRequest} {amount : Nat}
    (hq : q.toRecords false = .ok (plainRecords amount)) (ha : amount < 2 ^ 64) {paths hash : Bytes}
    (hpa : paths.length ≤ 6000) (hh : hash.length = 32) : ∃ text bytes,
    encodeInvoice host (unsignedInvoice q paths [] 0 hash amount zeroSigner) zeroSigner = .ok (text, bytes) ∧
      paths.length ≤ bytes.length ∧ bytes.length ≤ paths.length + 500 := by
  let own : List TLVRecord := [⟨INVOICE_PATHS, paths⟩, ⟨INVOICE_BLINDEDPAY, []⟩, ⟨INVOICE_CREATED_AT, []⟩,
    ⟨INVOICE_RELATIVE_EXPIRY, encodeTu64 3600⟩, ⟨INVOICE_PAYMENT_HASH, hash⟩, ⟨INVOICE_AMOUNT, encodeTu64 amount⟩,
    ⟨INVOICE_NODE_ID, zeroSigner.publicKey⟩]
  have ham : (encodeTu64 amount).length ≤ 8 := length_encodeTu64 ha
  have h3600 : (encodeTu64 3600).length ≤ 8 := length_encodeTu64 (by decide)
  have hk : zeroSigner.publicKey.length = 33 := rfl
  have ht : (plainRecords amount ++ own).map (·.type) = [INVREQ_METADATA, INVREQ_AMOUNT, INVREQ_PAYER_ID,
    INVOICE_PATHS, INVOICE_BLINDEDPAY, INVOICE_CREATED_AT, INVOICE_RELATIVE_EXPIRY, INVOICE_PAYMENT_HASH,
    INVOICE_AMOUNT, INVOICE_NODE_ID] := rfl
  have hasc : Ascending (plainRecords amount ++ own) := by
    apply pairwise_map.1
    rw [ht]
    decide
  have hs : ∀ r ∈ plainRecords amount ++ own, r.type ≠ SIGNATURE := by
    have hne : ∀ t ∈ (plainRecords amount ++ own).map (·.type), t ≠ SIGNATURE := by
      rw [ht]
      decide
    exact fun r hr => hne _ (mem_map_of_mem hr)
  have hf : ∀ r ∈ plainRecords amount ++ own, r.Fits := by
    have hsm : ∀ t ∈ (plainRecords amount ++ own).map (·.type), t < 2 ^ 64 := by
      rw [ht]
      decide
    have hl : ∀ n ∈ (plainRecords amount ++ own).map (·.value.length), n ≤ 6000 := by
      simp only [plainRecords, own, cons_append, nil_append, map_cons, map_nil,
        forall_mem_cons, length_cons, length_nil, hh, hk]
      simp
      omega
    intro r hr
    have hle := hl _ (mem_map_of_mem hr)
    exact ⟨hsm _ (mem_map_of_mem hr), Nat.lt_of_le_of_lt hle (by decide)⟩
  have hne : nonSig (plainRecords amount ++ own) ≠ [] :=
    ne_nil_of_mem (mem_filter.2 ⟨mem_cons_self .., of_decide_eq_true rfl⟩)
  obtain ⟨sig, records, text, bytes, hsi, hp, -, hb, -, he⟩ := @exists_encodeInvoice _ host hle
    (unsignedInvoice q paths [] 0 hash amount zeroSigner) zeroSigner (plainRecords amount) own rfl hq rfl rfl
    hasc.distinct hs hf hne
  have hsu := wireLength_bounds records
  rw [(hp.map _).sum_eq, (hp.map _).sum_eq, ← length_encodeStream hb] at hsu
  simp only [plainRecords, own, cons_append, nil_append, map_cons, map_nil, sum_cons,
    sum_nil, length_cons, length_nil, hh, hsi, hk] at hsu
  exact ⟨text, bytes, he, by omega, by omega⟩

theorem replayed_without_paths : ∃ text bytes, Replayed plainHost (plainRow text) bytes := by
  obtain ⟨text, bytes, hen, -, hle⟩ := @exists_plainInvoice _ plainHost Sha256.length_sha256 plainRequest 1000
    toRecords_plainRequest (by decide) [] (List.replicate 32 0) (by decide) (by decide)
  obtain ⟨_, he⟩ := encodeInvoice_ok hen
  obtain ⟨rs, hrs, hl⟩ := he.length_unsigned
  rw [length_nil] at hle
  exact ⟨text, bytes, (replayed_iff plainHost plainRequest [] [] 0 _ 1000 zeroSigner hen).2 ⟨rs, hrs, by omega⟩⟩

/-- An invoice with 6000 bytes of paths is under the default cap, and its text is too long to be decoded. -/
theorem stored_too_long : ∃ text bytes, 4096 ≤ plainHost.settings.maxOutboundInvoiceBytes ∧
    plainHost.settings.maxOutboundInvoiceBytes ≤ 65536 ∧
    encodeInvoice plainHost (unsignedInvoice plainRequest (List.replicate 6000 0) [] 0 (List.replicate 32 0) 1000
      zeroSigner) zeroSigner = .ok (text, bytes) ∧
    ¬ bytes.length > plainHost.settings.maxOutboundInvoiceBytes ∧
    ¬ Replayed plainHost (plainRow text) bytes := by
  have hp : (List.replicate 6000 (0 : UInt8)).length = 6000 := length_replicate
  obtain ⟨text, bytes, he, hge, hle⟩ := @exists_plainInvoice _ plainHost Sha256.length_sha256 plainRequest 1000
    toRecords_plainRequest (by decide) _ (List.replicate 32 0) hp.le (by decide)
  rw [hp] at hge hle
  refine ⟨text, bytes, by decide, by decide, he, ?_, ?_⟩
  · show ¬ bytes.length > 32768
    omega
  rintro ⟨⟨b12, hb12, -⟩, -⟩
  obtain ⟨_, he⟩ := encodeInvoice_ok he
  have := ((he.decode_iff rfl b12).1 hb12).1
  omega

end Responder

end AgentWallet.Bolt12
