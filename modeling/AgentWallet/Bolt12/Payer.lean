import AgentWallet.Core.Idempotency
import AgentWallet.Bolt12.Mirror
import AgentWallet.Bolt12.Responder
/-!
# The payer

Offers the wallet issues and the pure part of paying one: the offer is decoded,
the amount decided, a request built and signed, and the reply checked before it
is settled. `Sent` says what is known of a request that was built, `eq_of_issued`
that the payer sees the offer the wallet issued.
-/

namespace AgentWallet.Bolt12

open AgentWallet.Lib List Except

/-- An `HTTPException`, or another exception. -/
abbrev HttpExn := Idempotency.Exn

lemma Codec.decode_without_caps {unicodeLower : List Char → List Char} {s : String} {caps : Caps} {x : Bolt12String}
    (h : decode unicodeLower s caps = .ok x) : decode unicodeLower s {} = .ok x ∧ Canonical x.records := by
  simp only [decode, bind_eq_ok, pure_eq_ok] at h ⊢
  obtain ⟨p, hp, records, hr, rfl⟩ := h
  obtain ⟨hc, he⟩ := decodeStream_ok hr
  exact ⟨⟨p, hp, records, decodeStream_of_encode hc he, rfl⟩, hc⟩

namespace Payer

open Responder (Host Bolt12Offer)

def MAX_AMOUNT_MSAT : Nat := 21000000 * 100000000 * 1000

/-! ## Issuing -/

structure IssueOfferRequest where
  description : String
  amountMsat : Option Nat := none
  currency : Option String := none
  issuer : Option String := none
  quantityMax : Option Nat := none
  absoluteExpiry : Option Nat := none
  amount_bounds : ∀ n ∈ amountMsat, 1 ≤ n ∧ n ≤ MAX_AMOUNT_MSAT
  quantityMax_pos : ∀ n ∈ quantityMax, 1 ≤ n
  absoluteExpiry_pos : ∀ n ∈ absoluteExpiry, 1 ≤ n

section

variable {P : Type} (host : Host P)

/-- What was drawn or looked up for an offer before it is encoded. -/
structure Issuance where
  apiKeyId : String
  issuerSigner : Signer
  metadata : Bytes
  offerPaths : Option Bytes := none
  encryptedSeed : String
  minRealHopsOverride : Option Nat := none

def issuedOffer (req : IssueOfferRequest) (iss : Issuance) : Offer :=
  let ourChain := chainHashFor host.settings.bitcoinNetwork
  { chains := if ourChain = MAINNET_CHAIN_HASH then [] else [ourChain]
    description := some req.description
    amount := req.amountMsat
    currency := req.currency
    issuer := req.issuer
    quantityMax := req.quantityMax
    absoluteExpiry := req.absoluteExpiry
    issuerId := some iss.issuerSigner.publicKey
    paths := iss.offerPaths
    metadata := some iss.metadata }

/-- The text of an offer with its row, which does not keep the expiry. -/
def performIssueOffer (req : IssueOfferRequest) (iss : Issuance) : Except HttpExn Bolt12Offer :=
  let text := do
    let records ← (issuedOffer host req iss).toRecords
    Codec.encode ⟨.lno, records⟩
  match text with
  | .error (.bolt12FormatError msg) => .error (.http 500 s!"Failed to encode offer: {msg}")
  | .error (.bolt12DecodeError msg) => .error (.http 500 s!"Failed to encode offer: {msg}")
  | .error _ => .error .raised
  | .ok bolt12 => .ok
    { apiKeyId := iss.apiKeyId
      bolt12 := bolt12
      amountMsat := req.amountMsat
      quantityMax := req.quantityMax
      encryptedMetadata := some iss.encryptedSeed
      minRealHopsOverride := iss.minRealHopsOverride }

/-! ## Paying -/

structure PayOfferRequest where
  offer : String
  amountMsat : Option Nat := none
  quantity : Option Nat := none
  payerNote : Option String := none
  amount_bounds : ∀ n ∈ amountMsat, 1 ≤ n ∧ n ≤ MAX_AMOUNT_MSAT
  quantity_pos : ∀ n ∈ quantity, 1 ≤ n

def decodeOfferOr400 (raw : String) : Except HttpExn Offer :=
  match Codec.decode host.unicodeLower raw host.settings.caps with
  | .error e => if e.isBolt12Error then .error (.http 400 "Invalid BOLT 12 string") else .error .raised
  | .ok wire =>
    match Offer.parse wire with
    | .error e => if e.isBolt12Error then .error (.http 400 "Invalid BOLT 12 string") else .error .raised
    | .ok offer => .ok offer

def resolvePayAmount (offer : Offer) (requestedMsat : Option Nat) : Except HttpExn Nat :=
  match offer.amount with
  | some amount =>
    match requestedMsat with
    | none => .ok amount
    | some requested =>
      if requested < amount then .error (.http 400 s!"amount_msat ({requested}) is below offer minimum ({amount})")
      else .ok requested
  | none =>
    match requestedMsat with
    | none => .error (.http 400 "Offer has no fixed amount; amount_msat is required")
    | some requested => .ok requested

/-- What the payer drew for one request: a transient key and its metadata. -/
structure Session where
  payer : Signer
  invreqMetadata : Bytes

/-- The signed request and its stream, once the gateway has built the reply path. -/
def builder (offer : Offer) (req : PayOfferRequest) (finalAmountMsat : Nat) (session : Session) (replyPath : Bytes) :
    Except Exn (InvoiceRequest × Bytes) := do
  let ourChain := chainHashFor host.settings.bitcoinNetwork
  let invreqChain := if ourChain = MAINNET_CHAIN_HASH then none else some ourChain
  let unsigned ← InvoiceRequest.fromOffer offer session.invreqMetadata session.payer.publicKey (some finalAmountMsat)
    req.quantity req.payerNote invreqChain none (some replyPath)
  let signed ← signInvoiceRequest host.sha256 unsigned session.payer
  let records ← signed.toRecords true
  let wire ← encodeStream records
  return (signed, wire)

/-! ## The reply -/

def parseInvoice (invoicePayload : Bytes) : Except Exn Invoice := do
  let records ← decodeStream invoicePayload host.settings.caps
  Invoice.parse ⟨.lni, records⟩

def xonly (key : Bytes) : Bytes := if key.length = 33 then key.drop 1 else key

/-- The key the invoice has to be signed with: for a direct offer that of the issuer. -/
def verifyingKeyOf (offer : Offer) (invoice : Invoice) : Except HttpExn (Option Bytes) :=
  match offer.issuerId, offer.paths with
  | some issuerId, none =>
    match invoice.nodeId with
    | some nodeId =>
      if xonly nodeId ≠ xonly issuerId then .error (.http 502 "Invoice node_id does not match the offer's issuer_id")
      else .ok (some issuerId)
    | none => .ok (some issuerId)
  | issuerId, _ =>
    match invoice.nodeId with
    | some (b :: bs) => .ok (some (b :: bs))
    | _ => .ok issuerId

/-- The checks between the reply and its settlement. -/
def checkInvoice (offer : Offer) (session : Session) (finalAmountMsat : Nat) (invoicePayload : Bytes) :
    Except HttpExn Invoice :=
  match parseInvoice host invoicePayload with
  | .error e => if e.isBolt12Error then .error (.http 502 "Recipient returned a malformed invoice") else .error .raised
  | .ok invoice =>
    match invoice.paymentHash, invoice.signature with
    | none, _ => .error (.http 502 "Invoice missing payment_hash")
    | some _, none => .error (.http 502 "Invoice missing signature")
    | some _, some signature =>
      if invoice.invreq.payerId ≠ some session.payer.publicKey then
        .error (.http 502 "Invoice payer_id does not mirror our invreq")
      else if invoice.invreq.metadata ≠ some session.invreqMetadata then
        .error (.http 502 "Invoice invreq_metadata does not mirror our invreq")
      else do
        let verifyingKey ← verifyingKeyOf offer invoice
        match verifyingKey with
        | none => .error (.http 502 "Invoice signature invalid")
        | some key =>
          match invoice.signatureDigest host.sha256 with
          | .error _ => .error .raised
          | .ok digest =>
            if !verifyBip340 host.schnorr key digest signature then .error (.http 502 "Invoice signature invalid")
            else
              match invoice.amount with
              | none => .error (.http 502 "Invoice missing amount")
              | some amount =>
                if amount ≠ finalAmountMsat then
                  .error (.http 502 s!"Invoice amount ({amount}) does not match invreq ({finalAmountMsat})")
                else .ok invoice

end

/-! ## What is sent -/

variable {P : Type} {host : Host P}

def fields (host : Host P) (req : PayOfferRequest) (finalAmountMsat : Nat) (session : Session) (replyPath : Bytes) :
    RequestFields where
  metadata := session.invreqMetadata
  payerId := session.payer.publicKey
  amount := some finalAmountMsat
  quantity := req.quantity
  payerNote := req.payerNote
  chain :=
    let ourChain := chainHashFor host.settings.bitcoinNetwork
    if ourChain = MAINNET_CHAIN_HASH then none else some ourChain
  paths := some replyPath

def requestOf (f : RequestFields) (o : Offer) : InvoiceRequest :=
  { offer := o, metadata := some f.metadata, chain := f.chain, amount := f.amount, features := f.features,
    quantity := f.quantity, payerId := some f.payerId, payerNote := f.payerNote, paths := f.paths }

lemma mirror_eq {f : RequestFields} {o : Offer} {q : InvoiceRequest} (h : f.mirror o = .ok q) :
    q = requestOf f o := by
  simp only [RequestFields.mirror, InvoiceRequest.fromOffer, bind_eq_ok] at h
  obtain ⟨-, -, h⟩ := h
  split at h
  · exact (pure_eq_ok.1 h).symm
  · obtain ⟨-, -, h⟩ := bind_eq_ok.1 h
    exact (pure_eq_ok.1 h).symm

structure Sent (host : Host P) (offer : Offer) (req : PayOfferRequest) (finalAmountMsat : Nat) (session : Session)
    (replyPath : Bytes) (signed : InvoiceRequest) (records : List TLVRecord) (wire : Bytes) : Prop where
  signed_eq : ∃ sig, sig.length = 64 ∧
    signed = { requestOf (fields host req finalAmountMsat session replyPath) offer with signature := some sig }
  records_eq : signed.toRecords true = .ok records
  canonical : Canonical records
  wire_eq : encodeStream records = .ok wire

section Sent

variable {offer : Offer} {req : PayOfferRequest} {finalAmountMsat : Nat} {session : Session} {replyPath : Bytes}
  {signed : InvoiceRequest} {records : List TLVRecord} {wire : Bytes}

lemma sent_of_build (h : builder host offer req finalAmountMsat session replyPath = .ok (signed, wire)) :
    ∃ records, Sent host offer req finalAmountMsat session replyPath signed records wire := by
  simp only [builder, bind_eq_ok, pure_eq_ok, Prod.mk.injEq] at h
  obtain ⟨unsigned, hun, signed, hs, records, hr, wire, hw, rfl, rfl⟩ := h
  obtain rfl := @mirror_eq (fields host req finalAmountMsat session replyPath) offer unsigned hun
  have hf := (encodeStream_ok_iff records).1 ⟨_, hw⟩
  have ha := InvoiceRequest.ascending_toRecords hr
  refine ⟨records, ?_, hr, ⟨ha, hf⟩, hw⟩
  unfold signInvoiceRequest at hs
  split at hs
  · cases hs
  simp only [bind_eq_ok, pure_eq_ok] at hs
  obtain ⟨_, -, _, -, _, -, digest, -, sig, hsi, rfl⟩ := hs
  unfold Signer.sign at hsi
  split at hsi
  · cases hsi
  · rename_i hl
    obtain rfl := ok.inj hsi
    exact ⟨_, session.payer.length_sign digest (by simpa using hl), rfl⟩

variable (h : Sent host offer req finalAmountMsat session replyPath signed records wire)
include h

lemma Sent.decode : decodeStream wire {} = .ok records := decodeStream_of_encode h.canonical h.wire_eq

/-- The fields fit when their numbers do: the stream was encoded. -/
lemma Sent.valid (ha : finalAmountMsat < 2 ^ 64) (hq : ∀ q ∈ req.quantity, q < 2 ^ 64) :
    (fields host req finalAmountMsat session replyPath).Valid session.payer := by
  obtain ⟨sig, -, rfl⟩ := h.signed_eq
  have hf : ∀ t v, .ok [⟨t, v⟩] ∈ (requestOf (fields host req finalAmountMsat session replyPath) offer).pieces →
      v.length < 2 ^ 64 := by
    intro t v hv
    exact (h.canonical.2 _ (InvoiceRequest.mem_toRecords h.records_eq hv _ (mem_singleton_self _))).2
  refine ⟨rfl, by simpa [fields] using ha, hq, ?_, ?_, ?_, by simp [fields], ?_⟩
  · intro c hc
    simp only [fields] at hc
    split at hc
    · cases hc
    · obtain rfl := Option.some.inj hc
      exact length_chainHashFor _
  · apply hf INVREQ_METADATA
    simp [InvoiceRequest.pieces, requestOf, fields, optRecord]
  · intro note hn
    apply hf INVREQ_PAYER_NOTE
    rw [Option.mem_def] at hn
    simp [InvoiceRequest.pieces, requestOf, hn, optRecord]
  · intro paths hp
    apply hf INVREQ_PAYS_PATHS
    rw [Option.mem_def] at hp
    simp [InvoiceRequest.pieces, requestOf, hp, optRecord]

section

variable {offerRecs : List TLVRecord} (hoff : offer.toRecords = .ok offerRecs)
  (hot : ∀ r ∈ offerRecs, isOfferType r.type = true) (hparse : Offer.fromRecords offerRecs OFFER_RANGE = .ok offer)
include hoff hot hparse

lemma Sent.eq_of_parse {q : InvoiceRequest} (hq : InvoiceRequest.parse ⟨.lnr, records⟩ = .ok q) : q = signed := by
  obtain ⟨sig, -, rfl⟩ := h.signed_eq
  exact InvoiceRequest.eq_of_written hoff hot rfl (fun o ho => ok.inj (ho.symm.trans hparse)) h.records_eq hq

lemma Sent.parse (ha : finalAmountMsat < 2 ^ 64) (hqu : ∀ q ∈ req.quantity, q < 2 ^ 64) :
    InvoiceRequest.parse ⟨.lnr, records⟩ = .ok signed := by
  have hv := h.valid ha hqu
  obtain ⟨sig, hs, rfl⟩ := h.signed_eq
  obtain ⟨q, hq, -, -, -, -, hf⟩ := mirror_ok hv offer
  obtain rfl := mirror_eq hq
  obtain ⟨out, hto, -, ho, -⟩ := InvoiceRequest.parse_toRecords
    (q := { requestOf (fields host req finalAmountMsat session replyPath) offer with signature := some sig })
    hoff hot rfl hparse hf (fun r hr => hr.1) rfl hs
  rwa [ok.inj (hto.symm.trans h.records_eq)] at ho

end

end Sent

/-! ## Issued offers -/

section Issued

variable {req : IssueOfferRequest} {iss : Issuance} {row : Bolt12Offer}

lemma length_issued_chain (req : IssueOfferRequest) (iss : Issuance) :
    ∀ c ∈ (issuedOffer host req iss).chains, c.length = 32 := by
  intro c hc
  simp only [issuedOffer] at hc
  split at hc
  · cases hc
  · obtain rfl := mem_singleton.1 hc
    exact length_chainHashFor _

lemma performIssueOffer_ok (h : performIssueOffer host req iss = .ok row) :
    ∃ records, (issuedOffer host req iss).toRecords = .ok records ∧ Codec.encode ⟨.lno, records⟩ = .ok row.bolt12 ∧
      row.amountMsat = req.amountMsat ∧ row.quantityMax = req.quantityMax := by
  unfold performIssueOffer at h
  dsimp only at h
  split at h
  · cases h
  · cases h
  · cases h
  rename_i text ht
  obtain rfl := ok.inj h
  obtain ⟨records, hr, ht⟩ := bind_eq_ok.1 ht
  exact ⟨records, hr, ht, rfl, rfl⟩

lemma decodeOfferOr400_ok {raw : String} {offer : Offer} (h : decodeOfferOr400 host raw = .ok offer) :
    ∃ wire, Codec.decode host.unicodeLower raw host.settings.caps = .ok wire ∧ Offer.parse wire = .ok offer := by
  unfold decodeOfferOr400 at h
  split at h
  · split at h <;> cases h
  rename_i wire hw
  split at h
  · split at h <;> cases h
  · rename_i o ho
    obtain rfl := ok.inj h
    exact ⟨wire, hw, ho⟩

lemma canonical_issued {records : List TLVRecord} {text : String}
    (hr : (issuedOffer host req iss).toRecords = .ok records) (ht : Codec.encode ⟨.lno, records⟩ = .ok text) :
    Canonical records ∧ records ≠ [] ∧ ∃ payload, encodeStream records = .ok payload := by
  simp only [Codec.encode, bind_eq_ok] at ht
  obtain ⟨payload, hp, -⟩ := ht
  refine ⟨⟨Offer.ascending_toRecords hr, (encodeStream_ok_iff records).1 ⟨_, hp⟩⟩, ?_, payload, hp⟩
  apply ne_nil_of_mem (a := ⟨OFFER_METADATA, iss.metadata⟩)
  apply Offer.mem_toRecords hr (z := [⟨OFFER_METADATA, iss.metadata⟩])
  · simp [Offer.pieces, issuedOffer, optRecord]
  · exact mem_singleton_self _

lemma eq_of_issued (h : performIssueOffer host req iss = .ok row) {offer : Offer}
    (hd : decodeOfferOr400 host row.bolt12 = .ok offer) :
    offer = issuedOffer host req iss ∧ ∃ records, offer.toRecords = .ok records ∧
      (∀ r ∈ records, isOfferType r.type = true) ∧ Offer.fromRecords records OFFER_RANGE = .ok offer := by
  obtain ⟨records, hre, ht, -, -⟩ := performIssueOffer_ok h
  obtain ⟨wire, hw, ho⟩ := decodeOfferOr400_ok hd
  obtain ⟨hc, hne, payload, hp⟩ := canonical_issued hre ht
  obtain ⟨-, rfl⟩ := (Codec.decode_encode hc hne hp ht wire).1 (Codec.decode_without_caps hw).1
  simp only [Offer.parse, bind_eq_ok] at ho
  obtain ⟨-, -, ho⟩ := ho
  have hu : (issuedOffer host req iss).unknownRecords = [] := rfl
  have hs := Offer.eq_of_written (by simp [hu]) (by simp [hu, Ascending]) (length_issued_chain req iss) hre ho
  refine ⟨hs, records, by rw [hs, hre], ?_, ho⟩
  simp only [Offer.toRecords, bind_eq_ok] at hre
  obtain ⟨recs, hrecs, hso⟩ := hre
  obtain ⟨hm, -, -⟩ := slots_of_concat (Offer.shaped _) Offer.types_nodup hrecs
  intro r hr
  have ha : ∀ t ∈ Offer.types, isOfferType t = true := by decide
  apply ha
  apply hm
  simpa [issuedOffer] using (sortAndCheck_ok hso).1.subset hr

end Issued

end Payer

end AgentWallet.Bolt12
