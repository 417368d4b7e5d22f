import AgentWallet.Bolt12.Payer
import AgentWallet.Bolt12.Stored
/-!
# The price

The payer and the responder decide the amount of a request each by a rule of its
own. The payer takes the pinned amount of the offer as a minimum for the whole
request, the responder as the exact price of one item, and the responder also has
a ceiling on quantities. `agreed_iff` says where the two rules agree.
-/

namespace AgentWallet.Bolt12.Payer

open AgentWallet.Lib Except
open Responder (Host Bolt12Offer validateQuantity resolveAmount HARD_QUANTITY_MAX plainHost)

/-- The responder reads the request on the wire, lets its quantity pass and
resolves the amount the payer put into it, which covers the pinned amount for
every item. -/
def Agreed (row : Bolt12Offer) (finalAmountMsat : Nat) (wire : Bytes) : Prop :=
  ∃ records invreq, decodeStream wire {} = .ok records ∧ InvoiceRequest.parse ⟨.lnr, records⟩ = .ok invreq ∧
    invreq.amount = some finalAmountMsat ∧ validateQuantity invreq row = true ∧
    resolveAmount invreq row = some finalAmountMsat ∧
    row.amountMsat.getD 0 * invreq.quantity.getD 1 ≤ finalAmountMsat

lemma validateQuantity_iff {invreq : InvoiceRequest} {row : Bolt12Offer} (hp : ∀ q ∈ invreq.quantity, 1 ≤ q)
    (hma : ∀ q ∈ invreq.quantity, ∀ m ∈ row.quantityMax, q ≤ m) :
    validateQuantity invreq row = true ↔ ∀ q ∈ invreq.quantity, q ≤ HARD_QUANTITY_MAX := by
  unfold validateQuantity
  cases hq : invreq.quantity with
  | none => simp
  | some q =>
    have hp' : ¬ q < 1 := Nat.not_lt.2 (hp q hq)
    cases hm : row.quantityMax with
    | none => simp [hp']
    | some m =>
      have hle : q ≤ m := hma q hq m hm
      simp [hp', hle]

/-- With an amount in the request, the resolved amount is that amount or none. -/
lemma resolveAmount_iff {invreq : InvoiceRequest} {row : Bolt12Offer} {amount : Nat}
    (ha : invreq.amount = some amount) (hpo : ∀ q ∈ invreq.quantity, 1 ≤ q)
    (hf : row.amountMsat = none → 1 ≤ amount) :
    resolveAmount invreq row = some amount ↔ ∀ p ∈ row.amountMsat, amount = p * invreq.quantity.getD 1 := by
  have hq : ¬ invreq.quantity.getD 1 < 1 := by
    cases hq : invreq.quantity with
    | none => simp
    | some q => exact Nat.not_lt.2 (hpo q hq)
  unfold resolveAmount
  cases hp : row.amountMsat with
  | none =>
    have := hf hp
    simp [ha, Nat.ne_of_gt this]
  | some p =>
    simp only [ha, if_neg hq]
    by_cases heq : amount = p * invreq.quantity.getD 1
    · simp [heq]
    · simp [heq]

lemma resolvePayAmount_ok {offer : Offer} {requested : Option Nat} {amount : Nat}
    (h : resolvePayAmount offer requested = .ok amount) :
    (∀ p ∈ offer.amount, amount = requested.getD p ∧ p ≤ amount) ∧ (offer.amount = none → requested = some amount) := by
  unfold resolvePayAmount at h
  cases hp : offer.amount with
  | none =>
    simp only [hp] at h
    cases requested with
    | none => cases h
    | some r =>
      obtain rfl := ok.inj h
      simp
  | some p =>
    simp only [hp] at h
    cases requested with
    | none =>
      obtain rfl := ok.inj h
      simp
    | some r =>
      obtain ⟨hle, h⟩ := ite_passed h
      · obtain rfl := ok.inj h
        simpa using hle

variable {P : Type} {host : Host P}

/-- For every offer the wallet issued and every request for it that the payer
accepts and builds, with a quantity within the offer's limit: the two sides agree
exactly when the quantity is within the responder's ceiling and the amount asked
for, or else the pinned one, is the price of all items. -/
theorem agreed_iff {issue : IssueOfferRequest} {iss : Issuance} {row : Bolt12Offer}
    (hissue : performIssueOffer host issue iss = .ok row) {req : PayOfferRequest} (htext : req.offer = row.bolt12)
    {offer : Offer} (hoffer : decodeOfferOr400 host req.offer = .ok offer) {amount : Nat}
    (hamount : resolvePayAmount offer req.amountMsat = .ok amount)
    (hmax : ∀ q ∈ req.quantity, ∀ m ∈ row.quantityMax, q ≤ m) {session : Session} {replyPath : Bytes}
    {signed : InvoiceRequest} {wire : Bytes}
    (hbuild : builder host offer req amount session replyPath = .ok (signed, wire)) :
    Agreed row amount wire ↔ (∀ q ∈ req.quantity, q ≤ HARD_QUANTITY_MAX) ∧
      ∀ p ∈ row.amountMsat, req.amountMsat.getD p = p * req.quantity.getD 1 := by
  obtain ⟨-, -, -, hro, -⟩ := performIssueOffer_ok hissue
  obtain ⟨hsa, offerRecs, hof, hot, hpa⟩ := eq_of_issued hissue (htext ▸ hoffer)
  obtain ⟨hpi, hf⟩ := resolvePayAmount_ok hamount
  have ho : offer.amount = row.amountMsat := by rw [hsa, hro]; rfl
  rw [ho] at hpi hf
  obtain ⟨records, hse⟩ := sent_of_build hbuild
  obtain ⟨sig, -, hsigned⟩ := hse.signed_eq
  have hsi : signed.amount = some amount := by rw [hsigned]; rfl
  have hs : signed.quantity = req.quantity := by rw [hsigned]; rfl
  have ha : row.amountMsat = none → 1 ≤ amount := fun hn => (req.amount_bounds amount (hf hn)).1
  have hqu : validateQuantity signed row = true ↔ ∀ q ∈ req.quantity, q ≤ HARD_QUANTITY_MAX := by
    rw [← hs]
    apply validateQuantity_iff
    · rw [hs]
      exact req.quantity_pos
    · rw [hs]
      exact hmax
  have hres : resolveAmount signed row = some amount ↔
      ∀ p ∈ row.amountMsat, req.amountMsat.getD p = p * req.quantity.getD 1 := by
    rw [resolveAmount_iff hsi (by rw [hs]; exact req.quantity_pos) ha, hs]
    refine forall₂_congr fun p hp => ?_
    rw [(hpi p hp).1]
  rw [← hqu, ← hres]
  constructor
  · rintro ⟨records', invreq, hd, hq, -, hv, hre, -⟩
    obtain rfl := ok.inj (hd.symm.trans hse.decode)
    obtain rfl := hse.eq_of_parse hof hot hpa hq
    exact ⟨hv, hre⟩
  · rintro ⟨hv, hre⟩
    have hc := hqu.1 hv
    have hpr := hres.1 hre
    have hb : amount ≤ MAX_AMOUNT_MSAT := by
      cases hr : req.amountMsat with
      | some r =>
        cases hp : row.amountMsat with
        | none => exact (req.amount_bounds amount (hf hp)).2
        | some p =>
          rw [(hpi p hp).1, hr]
          exact (req.amount_bounds r hr).2
      | none =>
        cases hp : row.amountMsat with
        | none =>
          rw [hf hp] at hr
          cases hr
        | some p =>
          rw [(hpi p hp).1, hr]
          exact (issue.amount_bounds p (hro ▸ hp)).2
    have hsmall : amount < 2 ^ 64 := Nat.lt_of_le_of_lt hb (by decide)
    have hsm : ∀ q ∈ req.quantity, q < 2 ^ 64 := fun q hq => Nat.lt_of_le_of_lt (hc q hq) (by decide)
    refine ⟨records, signed, hse.decode, hse.parse hof hot hpa hsmall hsm, hsi, hv,
      hre, ?_⟩
    rw [hs]
    cases hp : row.amountMsat with
    | none => simp
    | some p =>
      have hpay := (hpi p hp).1
      rw [hpr p hp] at hpay
      exact hpay.ge

/-! An offer of 1000 msat an item. -/

def openHost : Host Unit := { plainHost with settings := { maxTlvRecords := 0, maxTlvValueBytes := 0 } }

def teaIssue : IssueOfferRequest where
  description := "tea"
  amountMsat := some 1000
  amount_bounds := by simp [MAX_AMOUNT_MSAT]
  quantityMax_pos := by simp
  absoluteExpiry_pos := by simp

def teaIssuance : Issuance := { apiKeyId := "", issuerSigner := zeroSigner, metadata := [7], encryptedSeed := "" }

def zeroSession : Session := ⟨zeroSigner, [7]⟩

/-- A request for `teaIssue` without an amount. -/
def teaRequest (text : String) (quantity : Option Nat) (h : ∀ n ∈ quantity, 1 ≤ n) : PayOfferRequest where
  offer := text
  quantity := quantity
  amount_bounds := by simp
  quantity_pos := h

def teaRecords : List TLVRecord := [⟨OFFER_METADATA, [7]⟩, ⟨OFFER_AMOUNT, encodeTu64 1000⟩,
  ⟨OFFER_DESCRIPTION, utf8 "tea"⟩, ⟨OFFER_ISSUER_ID, zeroSigner.publicKey⟩]

lemma tea_toRecords : (issuedOffer openHost teaIssue teaIssuance).toRecords = .ok teaRecords := by
  rw [Offer.toRecords, bind_eq_ok]
  refine ⟨teaRecords, rfl, ?_⟩
  rw [sortAndCheck, List.mergeSort_of_pairwise (by decide)]
  rfl

lemma exists_tea {quantity : Option Nat} (h : ∀ n ∈ quantity, 1 ≤ n) (hsm : ∀ n ∈ quantity, n < 2 ^ 64) :
    ∃ row offer signed wire, performIssueOffer openHost teaIssue teaIssuance = .ok row ∧
      decodeOfferOr400 openHost row.bolt12 = .ok offer ∧ resolvePayAmount offer none = .ok 1000 ∧
      builder openHost offer (teaRequest row.bolt12 quantity h) 1000 zeroSession [] = .ok (signed, wire) := by
  have hf : ∀ r ∈ teaRecords, r.Fits := by
    decide
  obtain ⟨payload, hp⟩ := (encodeStream_ok_iff teaRecords).2 hf
  have hl : payload.length ≤ 5117 := by
    have hb := (wireLength_bounds teaRecords).2
    have hsu : (teaRecords.map (·.value.length + 18)).sum ≤ 5117 := by decide
    rw [length_encodeStream hp]
    exact hb.trans hsu
  have ht : Codec.encode ⟨.lno, teaRecords⟩ = .ok (Bech32.encode .lno payload) := by
    simp [Codec.encode, hp]
  have hc : Canonical teaRecords := ⟨Offer.ascending_toRecords tea_toRecords, hf⟩
  have hwi : Codec.decode openHost.unicodeLower (Bech32.encode .lno payload) openHost.settings.caps =
      .ok ⟨.lno, teaRecords⟩ :=
    (Codec.decode_encode hc (List.cons_ne_nil _ _) hp ht _).2 ⟨hl, rfl⟩
  have hpa : Offer.parse ⟨.lno, teaRecords⟩ = .ok (issuedOffer openHost teaIssue teaIssuance) := rfl
  let row : Bolt12Offer := { apiKeyId := "", bolt12 := Bech32.encode .lno payload, amountMsat := some 1000,
                             encryptedMetadata := some "" }
  let req := teaRequest row.bolt12 quantity h
  have hv : (fields openHost req 1000 zeroSession []).Valid zeroSession.payer :=
    { key := rfl
      amount_lt := by simp [fields]
      quantity_lt := hsm
      chain_length := by simp [fields, openHost, plainHost, chainHashFor]
      metadata_fits := by simp [fields, zeroSession]
      note_fits := by simp [fields, req, teaRequest]
      features_fit := by simp [fields]
      paths_fit := by simp [fields] }
  have hm : Offer.Mirrorable teaRecords := ⟨by decide, by unfold Ascending; decide⟩
  obtain ⟨unsigned, signed, -, out, wire, -, hun, -, hs, ho, hw, -⟩ :=
    mirrors_of_mirrorable Sha256.length_sha256 (fun _ _ _ => true)
      (hpa : Offer.fromRecords teaRecords OFFER_RANGE = .ok _) (fun r hr => (hf r hr).2) hv hm
  refine ⟨row, issuedOffer openHost teaIssue teaIssuance, signed, wire, ?_, ?_, rfl, ?_⟩
  · have hb12 : (do
        let records ← (issuedOffer openHost teaIssue teaIssuance).toRecords
        Codec.encode ⟨.lno, records⟩) = .ok row.bolt12 := by
      rw [tea_toRecords]
      exact ht
    simp only [performIssueOffer, hb12]
    rfl
  · simp only [decodeOfferOr400, row, hwi, hpa]
  · simp only [builder, bind_eq_ok, pure_eq_ok, Prod.mk.injEq]
    exact ⟨unsigned, hun, signed, hs, out, ho, wire, hw, rfl, rfl⟩

/-- One item at the pinned amount: both sides say 1000 msat. -/
theorem agreed_on_one :
    ∃ row wire, performIssueOffer openHost teaIssue teaIssuance = .ok row ∧ Agreed row 1000 wire := by
  obtain ⟨row, offer, signed, wire, hi, ho, ha, hb⟩ := @exists_tea none (by simp) (by simp)
  obtain ⟨-, -, -, hr, -⟩ := performIssueOffer_ok hi
  have ht : (teaRequest row.bolt12 none (by simp)).offer = row.bolt12 := rfl
  refine ⟨row, wire, hi, (agreed_iff hi ht ho ha (by simp [teaRequest]) hb).2 ?_⟩
  rw [hr]
  simp [teaRequest, teaIssue]

/-- Two items without an amount: the payer puts the pinned 1000 msat into the
request, the responder resolves no amount. -/
theorem two_items_disagree : ∃ row offer signed wire, performIssueOffer openHost teaIssue teaIssuance = .ok row ∧
    decodeOfferOr400 openHost row.bolt12 = .ok offer ∧ resolvePayAmount offer none = .ok 1000 ∧
    builder openHost offer (teaRequest row.bolt12 (some 2) (by simp)) 1000 zeroSession [] = .ok (signed, wire) ∧
    (∀ m ∈ row.quantityMax, 2 ≤ m) ∧ resolveAmount signed row = none ∧ ¬ Agreed row 1000 wire := by
  obtain ⟨row, offer, signed, wire, hi, ho, ha, hb⟩ := @exists_tea (some 2) (by simp) (by simp)
  obtain ⟨-, -, -, hro, hm⟩ := performIssueOffer_ok hi
  obtain ⟨hsa, offerRecs, hof, hot, hp⟩ := eq_of_issued hi ho
  obtain ⟨records, hs⟩ := sent_of_build hb
  obtain ⟨sig, -, hsi⟩ := hs.signed_eq
  have hn : resolveAmount signed row = none := by
    rw [hsi]
    simp [resolveAmount, hro, teaIssue, requestOf, fields, teaRequest]
  refine ⟨row, offer, signed, wire, hi, ho, ha, hb, by simp [hm, teaIssue], hn, ?_⟩
  rintro ⟨records', invreq, hd, hq, -, -, hr, -⟩
  obtain rfl := ok.inj (hd.symm.trans hs.decode)
  obtain rfl := hs.eq_of_parse hof hot hp hq
  rw [hn] at hr
  cases hr

end AgentWallet.Bolt12.Payer
