import AgentWallet.Bolt12.Inbound
/-!
# Replies that mirror their request

A fresh invoice mirrors the request it is minted for. A replayed one mirrors the
request that was stored under the same key, and the key is the metadata the payer
chose and the owner of the offer. Over all interleavings of requests, every reply
mirrors its own request as long as no two requests share a key without being the
same but for the signature (`mirrored_of_unmixed`).
-/

namespace AgentWallet.Bolt12.Responder

open AgentWallet.Lib Except Option Prod

variable {P T : Type}

/-- The reply is parsed as an invoice for the request: its request part has the
request's records without signatures, and it bills the amount resolved for it. -/
def Mirrored (host : Host P) (catalog : Catalog) (payload bytes : Bytes) : Prop :=
  ∃ records key amount written i, Resolved host catalog payload records key amount ∧
    decodeStream bytes {} = .ok written ∧ Invoice.parse ⟨.lni, written⟩ = .ok i ∧
    i.invreq.toRecords false = .ok (nonSig records) ∧ i.amount = some amount

/-- No request has an empty list of chains, and two requests under one key have
the same records but for signatures. -/
structure Unmixed (host : Host P) (catalog : Catalog) (requests : T → String × Bytes) : Prop where
  chains : ∀ t records invreq, parseInvreq host (requests t).2 = .ok (records, invreq) → ChainsNonempty records
  same : ∀ t u records records' key amount amount', Resolved host catalog (requests t).2 records key amount →
    Resolved host catalog (requests u).2 records' key amount' → nonSig records = nonSig records'

/-! ## The resolved amount -/

/-- Positive, and at most the ceiling and the configured cap. -/
def Bounded (settings : Settings) (amount : Nat) : Prop :=
  0 < amount ∧ amount ≤ 100000000000 ∧ (0 < settings.inboundMaxAmountMsat → amount ≤ settings.inboundMaxAmountMsat)

/-- On a priced offer the amount is the price times the quantity, which is 1 when absent,
and the request names no other amount. Nothing of the mirrored offer goes into it. -/
def Priced (invreq : InvoiceRequest) (row : Bolt12Offer) (amount : Nat) : Prop :=
  ∀ price ∈ row.amountMsat, amount = price * invreq.quantity.getD 1 ∧
    1 ≤ invreq.quantity.getD 1 ∧ invreq.quantity.getD 1 ≤ 1000000 ∧
    (∀ most ∈ row.quantityMax, 1 ≤ most → invreq.quantity.getD 1 ≤ most) ∧ ∀ a ∈ invreq.amount, a = amount

def MayMint (host : Host P) (catalog : Catalog) (payload : Bytes) (amount : Nat) : Prop :=
  Bounded host.settings amount ∧ ∃ records invreq, parseInvreq host payload = .ok (records, invreq) ∧
    (invreq.offer.issuerId = none ∧ invreq.amount = some amount ∨
      ∃ issuerId row, invreq.offer.issuerId = some issuerId ∧ catalog issuerId = some row ∧ Priced invreq row amount)

/-- A command that mints an invoice, at the node or in the database, does so for an amount
with `φ`, and the text that is stored is an invoice over it. -/
def Mints (host : Host P) (φ : Nat → Prop) : Cmd P → Prop
  | .addBlindedInvoice amount _ => φ amount
  | .insertRows _ row => φ row.amountMsat ∧ ∃ unsigned signer bytes, unsigned.amount = some row.amountMsat ∧
      encodeInvoice host unsigned signer = .ok (row.invoiceBolt12, bytes)
  | _ => True

lemma bounded_of_withinCaps {host : Host P} {amount : Nat} (hp : ¬ amount ≤ 0) (h : withinCaps host amount = true) :
    Bounded host.settings amount := by
  simp only [withinCaps, HARD_MAX_INBOUND_AMOUNT_MSAT, Bool.and_eq_true, Bool.not_eq_true', Bool.and_eq_false_iff,
    decide_eq_false_iff_not] at h
  refine ⟨by omega, Nat.not_lt.1 (of_decide_eq_false h.2), ?_⟩
  rcases h.1 with h | h <;> omega

lemma priced_of_resolved {invreq : InvoiceRequest} {row : Bolt12Offer} {amount : Nat}
    (hq : validateQuantity invreq row = true) (h : resolveAmount invreq row = some amount) : Priced invreq row amount := by
  intro price hp
  simp only [resolveAmount, Option.mem_def.1 hp, validateQuantity, HARD_QUANTITY_MAX] at hq h
  cases hqu : invreq.quantity <;> cases hm : row.quantityMax <;> cases ha : invreq.amount <;>
    simp_all <;> grind

lemma slot_nonSig (rs : List TLVRecord) {t : Nat} (ht : isSignatureType t = false) : slot (nonSig rs) t = slot rs t :=
  slot_filter (p := fun t => !isSignatureType t) (by simp [ht]) rs

/-- Requests with the same records but for signatures are the same but for what is read from those. -/
lemma invreq_of_nonSig {rs rs' : List TLVRecord} {q q' : InvoiceRequest} (hrs : Ascending rs) (hrs' : Ascending rs')
    (h : nonSig rs = nonSig rs') (hq : InvoiceRequest.parse ⟨.lnr, rs⟩ = .ok q)
    (hq' : InvoiceRequest.parse ⟨.lnr, rs'⟩ = .ok q') :
    { q with unknownRecords := [], signature := none } = { q' with unknownRecords := [], signature := none } := by
  obtain ⟨ho, hp, -⟩ := InvoiceRequest.layers_of_parse hrs.distinct rfl hq
  obtain ⟨ho', hp', -⟩ := InvoiceRequest.layers_of_parse hrs'.distinct rfl hq'
  have hl : ∀ l : List TLVRecord, l.filter (isOfferType ·.type) = (nonSig l).filter (isOfferType ·.type) := by
    intro l
    rw [nonSig, List.filter_filter]
    apply List.filter_congr
    intro r _
    by_cases hs : isSignatureType r.type = true
    · simp [hs, not_offer_of_signature hs]
    · simp [hs]
  have hsl : ∀ (l : List TLVRecord), ∀ t ∈ InvoiceRequest.types,
      slot (l.filter (InvoiceRequest.isOwnType ·.type)) t = slot (nonSig l) t := by
    intro l t ht
    have ha : ∀ t ∈ InvoiceRequest.types, InvoiceRequest.isOwnType t = true ∧ isSignatureType t = false := by decide
    rw [slot_filter (p := InvoiceRequest.isOwnType) (ha t ht).1, slot_nonSig l (ha t ht).2]
  apply @InvoiceRequest.eq_of_slots (nonSig rs)
  · exact hp.trans (List.map_congr_left fun t ht => by rw [hsl _ t ht])
  · exact hp'.trans (List.map_congr_left fun t ht => by rw [hsl _ t ht, h])
  · rw [hl, ← h, ← hl, ho] at ho'
    exact ok.inj ho'
  · rfl
  · rfl

variable {amount : Nat}

lemma amount_of_nonSig {host : Host P} {catalog : Catalog} {payload payload' : Bytes} {rs rs' : List TLVRecord}
    {key key' : Key} {amount' : Nat} (h : Resolved host catalog payload rs key amount)
    (h' : Resolved host catalog payload' rs' key' amount') (hsa : nonSig rs = nonSig rs') : amount = amount' := by
  obtain ⟨q, _, hq, -, h⟩ := h
  obtain ⟨q', _, hq', -, h'⟩ := h'
  obtain ⟨-, hasc, hparse⟩ := parseInvreq_ok hq
  obtain ⟨-, hasc', hp'⟩ := parseInvreq_ok hq'
  have hqq := invreq_of_nonSig hasc hasc' hsa hparse hp'
  have hi : q.offer.issuerId = q'.offer.issuerId := congrArg (·.offer.issuerId) hqq
  have ham : q.amount = q'.amount := congrArg (·.amount) hqq
  have hqu : q.quantity = q'.quantity := congrArg (·.quantity) hqq
  rcases h with ⟨hn, -, ha⟩ | ⟨issuer, offer, hs, ho, -, ha⟩
  · rcases h' with ⟨-, -, ha'⟩ | ⟨issuer', offer', hs', -⟩
    · exact some.inj (ha.symm.trans (ham.trans ha'))
    · rw [← hi, hn] at hs'
      cases hs'
  · rcases h' with ⟨hn', -⟩ | ⟨issuer', offer', hs', ho', -, ha'⟩
    · rw [← hi, hs] at hn'
      cases hn'
    obtain rfl : issuer = issuer' := some.inj (hs.symm.trans (hi.trans hs'))
    obtain rfl : offer = offer' := some.inj (ho.symm.trans ho')
    have hr : resolveAmount q offer = resolveAmount q' offer := by
      unfold resolveAmount
      rw [ham, hqu]
    exact some.inj (ha.symm.trans (hr.trans ha'))

/-! ## What is stored under a key -/

variable {row : Bolt12Invoice}

section Protocol

variable (host : Host P) (catalog : Catalog) (requests : T → String × Bytes)

/-- The bytes are an invoice for some request under the key. -/
def Known (key : Key) (bytes : Bytes) : Prop :=
  ∃ u records amount written hash, Resolved host catalog (requests u).2 records key amount ∧
    decodeStream bytes {} = .ok written ∧ Answers written records amount hash

def Replies (key : Key) (reply : Option Bytes) : Prop := ∀ bytes ∈ reply, Known host catalog requests key bytes

def Faithful (key : Key) (text : String) : Prop :=
  ∀ b12 bytes, Codec.decode host.unicodeLower text {} = .ok b12 → encodeStream b12.records = .ok bytes →
    Known host catalog requests key bytes

/-- Every row was written for a request under its key. -/
def Filed (s : World T) : Prop :=
  ∀ key id, s.invreqs key = some id → id < s.nextId ∧
    ∀ row, s.invoices id = some row → Faithful host catalog requests key row.invoiceBolt12

variable {host catalog requests}

lemma Filed.of_later {s s' : World T} (hi : Filed host catalog requests s) (h : Later s s')
    (hk : ∀ key id, s'.invreqs key = some id → s.invreqs key = some id) : Filed host catalog requests s' := by
  intro key id hid
  obtain ⟨hlt, hro⟩ := hi key id (hk key id hid)
  refine ⟨hlt.trans_le h.nextId, fun row' hro' => ?_⟩
  obtain ⟨row, hr, ht, -⟩ := h.rows id hlt row' hro'
  rw [ht]
  exact hro row hr

lemma Filed.insert {s : World T} (hi : Filed host catalog requests s) {key : Key}
    (hro : Faithful host catalog requests key row.invoiceBolt12) : Filed host catalog requests (s.insert key row) := by
  intro k id hid
  by_cases hk : k = key
  · subst hk
    obtain rfl : s.nextId = id := by simpa [World.insert] using hid
    refine ⟨Nat.lt_succ_self _, fun row' hro' => ?_⟩
    obtain rfl : row = row' := by simpa [World.insert] using hro'
    exact hro
  · obtain ⟨hlt, hr⟩ := hi k id (by simpa [World.insert, hk] using hid)
    refine ⟨hlt.trans (Nat.lt_succ_self _), fun row' hro' => ?_⟩
    exact hr row' (by simpa [World.insert, hlt.ne] using hro')

variable (host catalog requests)

def mirroring : Protocol (inbound P T catalog) where
  inv := Filed host catalog requests
  pre t c _ := Mints host (MayMint host catalog (requests t).2) c ∧
    ∀ key row, c = .insertRows key row → Faithful host catalog requests key row.invoiceBolt12
  rely _ := Later
  exec := by
    intro t c s s' r hi hpre hx
    refine ⟨?_, fun _ _ => hx.later⟩
    have hlater := hx.later
    cases hx with
    | insertRows key row hfree => exact hi.insert (hpre.2 key row rfl)
    | _ => exact hi.of_later hlater fun _ _ h => h
  env := by
    intro s s' hi hx
    refine ⟨?_, fun _ => hx.later⟩
    have hlater := hx.later
    cases hx with
    | purgeInvreq key =>
      apply hi.of_later hlater
      intro k id hid
      by_cases hkey : k = key
      · simp [hkey] at hid
      · simpa [hkey] using hid
    | _ => exact hi.of_later hlater fun _ _ h => h

end Protocol

/-! ## One request -/

variable {hash : Bytes}

section Request

variable {host : Host P} {catalog : Catalog} {requests : T → String × Bytes} {t : T} {key : Key}

/-- A value that the task returns satisfies `φ`, whatever other requests do. -/
abbrev Gives {α : Type} (host : Host P) (catalog : Catalog) (requests : T → String × Bytes) (t : T) (φ : α → Prop)
    (p : Code P α) : Prop :=
  (mirroring host catalog requests).Safe t (Yields φ) p fun _ => True

lemma free_call {c : Cmd P} {φ : Reply c → Prop} (hm : Mints host (MayMint host catalog (requests t).2) c)
    (hc : ∀ key row, c ≠ .insertRows key row)
    (h : ∀ s r s', (mirroring host catalog requests).inv s → Exec catalog t s c r s' → ∀ x, r = .ok x → φ x) :
    Gives host catalog requests t φ (call c) := by
  apply Protocol.Safe.yields_call
  intro s r s' hi _ hx
  exact ⟨⟨hm, fun key row he => absurd he (hc key row)⟩, h s r s' hi hx⟩

lemma silent_call {c : Cmd P} (hm : Mints host (MayMint host catalog (requests t).2) c := by trivial)
    (hc : ∀ key row, c ≠ .insertRows key row := by nofun) :
    Gives host catalog requests t (fun _ => True) (call c) :=
  free_call hm hc fun _ _ _ _ _ _ _ => trivial

lemma mint_call (hmay : MayMint host catalog (requests t).2 amount) {numHops : Nat} :
    Gives host catalog requests t (fun _ => True) (call (.addBlindedInvoice amount numHops) : Code P _) :=
  free_call hmay nofun fun _ _ _ _ _ _ _ => trivial

lemma yields_ret {α : Type} {φ : α → Prop} {a : α} (h : φ a) :
    Gives host catalog requests t φ (.ret a : Code P α) := fun _ _ _ => h

lemma branch_yields {α β : Type} {φ : β → Prop} {ψ : α → Prop} {b : Bool} {p q : Code P β} {rest : β → Code P α}
    (hp : Gives host catalog requests t φ p) (hq : Gives host catalog requests t φ q)
    (hr : ∀ a, φ a → Gives host catalog requests t ψ (rest a)) :
    Gives host catalog requests t ψ (if b then p.bind rest else q.bind rest) := by
  cases b with
  | true => exact hp.yields_bind hr
  | false => exact hq.yields_bind hr

lemma yields_raise {α : Type} {φ : α → Prop} {e : Failure} :
    Gives host catalog requests t φ (.raise e : Code P α) := fun _ _ _ => trivial

lemma now_yields :
    Gives host catalog requests t (fun n : Nat => n < 2 ^ 64) (call .now : Code P _) := by
  refine free_call trivial (fun _ _ h => by cases h) fun s r s' _ hx n hr => ?_
  subst hr
  cases hx
  exact s.clock.toNat_lt

lemma expiryPassed_yields (expiry : Option Nat) :
    Gives host catalog requests t (fun _ => True) (expiryPassed expiry : Code P _) := by
  cases expiry with
  | none => exact yields_ret trivial
  | some time => exact now_yields.yields_bind fun _ _ => yields_ret trivial

lemma invoiceExpired_yields (row : Bolt12Invoice) :
    Gives host catalog requests t (fun _ => True) (invoiceExpired row : Code P _) := by
  unfold invoiceExpired
  split
  · exact yields_ret trivial
  · exact yields_ret trivial
  · exact yields_ret trivial
  · exact expiryPassed_yields row.expiry

lemma replayBytes_yields (h : Faithful host catalog requests key row.invoiceBolt12) :
    Gives host catalog requests t (Replies host catalog requests key) (replayBytes host row) := by
  unfold replayBytes
  split
  · split
    · exact yields_ret (by simp [Replies])
    · exact yields_raise
  · rename_i b12 hb12
    split
    · rename_i bytes hb
      exact yields_ret (by simpa [Replies] using h b12 bytes hb12 hb)
    · exact yields_raise

/-- The id was given out, and the row under it, if there is one, belongs to the key. -/
def Holds (host : Host P) (catalog : Catalog) (requests : T → String × Bytes) (key : Key) (id : Nat)
    (s : World T) : Prop :=
  id < s.nextId ∧ ∀ row, s.invoices id = some row → Faithful host catalog requests key row.invoiceBolt12

lemma stable_holds (id : Nat) : (mirroring host catalog requests).Stable t (Holds host catalog requests key id) := by
  rintro s s' _ _ hl ⟨hlt, hro⟩
  refine ⟨hlt.trans_le hl.nextId, fun row' hr' => ?_⟩
  obtain ⟨row, hr, ht, -⟩ := hl.rows id hlt row' hr'
  rw [ht]
  exact hro row hr

/-- What a request is found to be stored under belongs to its key, also when it is looked up later. -/
lemma refetchAndReplay_yields :
    Gives host catalog requests t (Replies host catalog requests key) (refetchAndReplay host key) := by
  have hs : (mirroring host catalog requests).Safe t (fun r s => ∀ id, r = .ok (some id) →
      Holds host catalog requests key id s) (call (.selectInvreq key)) fun _ => True := by
    apply Protocol.Safe.call
    · intro r s s' hi hi' hl h id hr
      exact stable_holds (t := t) id s s' hi hi' hl (h id hr)
    intro s r s' hi _ hx
    refine ⟨⟨trivial, fun _ _ he => by cases he⟩, fun _ id hr => ?_⟩
    cases hx with
    | selectInvreq => exact hi key id (ok.inj hr)
    | raised => cases hr
  refine hs.bind (fun prior => ?_) fun _ _ _ _ => trivial
  cases prior with
  | none => exact fun _ _ _ bytes h => by cases h
  | some id =>
    have hro : (mirroring host catalog requests).Safe t (Yields fun found : Option Bolt12Invoice =>
        ∀ row ∈ found, Faithful host catalog requests key row.invoiceBolt12) (call (.selectInvoice id))
        (Holds host catalog requests key id) := by
      apply Protocol.Safe.yields_call
      intro s r s' hi hh hx
      refine ⟨⟨trivial, fun _ _ he => by cases he⟩, fun found hr row hf => ?_⟩
      cases hx with
      | selectInvoice =>
        obtain rfl := ok.inj hr
        exact hh.2 row hf
      | raised => cases hr
    refine .mono (hro.yields_bind fun found hf => ?_) (fun s _ h => h id rfl) fun _ _ _ h => h
    cases found with
    | none => exact yields_ret (fun _ h => by cases h)
    | some row =>
      refine (invoiceExpired_yields row).yields_bind fun expired _ => ?_
      cases expired with
      | true => exact yields_ret (fun _ h => by cases h)
      | false => exact replayBytes_yields (hf row rfl)

section

variable (hmay : MayMint host catalog (requests t).2 amount)
include hmay

lemma addWithRetries_yields (numHops attempts : Nat) :
    Gives host catalog requests t (fun _ => True) (addWithRetries host amount numHops attempts) := by
  induction attempts with
  | zero => exact (mint_call hmay).yields_bind fun _ _ => yields_ret trivial
  | succ attempts ih =>
    refine (mint_call hmay).yields_bind fun answer _ => ?_
    cases answer.2 with
    | none => exact yields_ret trivial
    | some err =>
      dsimp only
      split
      · exact ih
      · exact yields_ret trivial

variable (result : BlindedInvoiceResult P)

lemma fallbackToOneHop_yields (primaryNumHops : Nat) :
    Gives host catalog requests t (fun _ => True) (fallbackToOneHop result amount primaryNumHops) := by
  unfold fallbackToOneHop
  split
  · exact (mint_call hmay).yields_bind fun _ _ => yields_ret trivial
  · exact yields_ret trivial

omit hmay in
lemma postprocess_yields (paths : List P) (amountMsat : Nat) :
    Gives host catalog requests t (fun _ => True) (postprocess paths amountMsat) := by
  unfold postprocess
  cases paths.isEmpty
  · exact silent_call
  · exact yields_ret trivial

omit hmay in
lemma length_paymentHashOf {result : BlindedInvoiceResult P} (h : paymentHashOf result = some hash) :
    hash.length = 32 := by
  unfold paymentHashOf at h
  split at h
  · cases h
  split at h
  · cases h
  rcases ite_eq_iff.1 h with ⟨-, h⟩ | ⟨hl, h⟩
  · cases h
  · obtain rfl := some.inj h
    exact not_not.1 hl

lemma maybeFlipToAltDepth_yields (lndPaths : List P) (hh : hash.length = 32) (primaryNumHops : Nat) :
    Gives host catalog requests t (fun out => out.2.length = 32)
      (maybeFlipToAltDepth host result lndPaths hash primaryNumHops amount) := by
  have hc (rHash : String) : Gives host catalog requests t (fun _ => True)
      ((call (.cancelInvoice rHash)).tryExcept fun _ => (.ret false : Code P Bool)) :=
    (silent_call).tryExcept (fun _ => yields_ret trivial) fun _ _ _ h => h
  unfold maybeFlipToAltDepth
  split
  · exact yields_ret hh
  refine (silent_call).yields_bind fun primaryOpen _ => ?_
  split
  · exact yields_ret hh
  refine (mint_call hmay).yields_bind fun answer _ => ?_
  split
  · exact yields_ret hh
  refine (postprocess_yields _ _).yields_bind fun altPaths _ => ?_
  refine branch_yields (yields_ret trivial) (silent_call) fun altOpen _ => ?_
  dsimp only
  split
  · rename_i altHash ha
    have hl : altHash.length = 32 := by
      split at ha
      · cases ha
      · exact length_paymentHashOf ha
    split
    · exact (silent_call).yields_bind fun _ _ => yields_ret hl
    · exact yields_ret hl
  · split
    · exact (hc _).yields_bind fun _ _ => yields_ret hh
    · exact yields_ret hh

omit hmay in
/-- A fresh invoice is one for the request, and so is what the text in its row is replayed as. -/
lemma known_of_encoded {records written : List TLVRecord} {invreq : InvoiceRequest} {createdAt : Nat}
    {paths blindedpay bytes : Bytes} {signer : Signer} {text : String}
    (hparse : parseInvreq host (requests t).2 = .ok (records, invreq))
    (hres : Resolved host catalog (requests t).2 records key amount) (hc : createdAt < 2 ^ 64)
    (hh : hash.length = 32) (ha : amount < 2 ^ 64)
    (h : Encoded host (unsignedInvoice invreq paths blindedpay createdAt hash amount signer) written text bytes) :
    Known host catalog requests key bytes ∧ Faithful host catalog requests key text := by
  obtain ⟨-, hasc, hi⟩ := parseInvreq_ok hparse
  have hk : Known host catalog requests key bytes := by
    refine ⟨t, records, amount, written, hash, hres, ?_, h.answers hasc hi hc hh ha⟩
    exact decodeStream_of_encode h.canonical h.bytes_eq
  refine ⟨hk, fun b12 bytes' hb12 hb' => ?_⟩
  obtain ⟨-, rfl⟩ := (h.decode_iff rfl b12).1 hb12
  obtain rfl := ok.inj (h.bytes_eq.symm.trans hb')
  exact hk

omit hmay in
lemma finish_yields {records : List TLVRecord} {invreq : InvoiceRequest}
    (hparse : parseInvreq host (requests t).2 = .ok (records, invreq))
    (hres : Resolved host catalog (requests t).2 records key amount) (hh : hash.length = 32)
    (hmay : MayMint host catalog (requests t).2 amount) (paths : Bytes × Bytes) (signer : Signer) :
    Gives host catalog requests t (Replies host catalog requests key)
      (finish host key invreq amount paths hash signer) := by
  have hn : Replies host catalog requests key none := fun _ h => by cases h
  refine now_yields.yields_bind fun createdAt hc => ?_
  split
  · exact yields_ret hn
  rename_i text bytes hen
  split
  · exact yields_ret hn
  obtain ⟨written, hw⟩ := encodeInvoice_ok hen
  have ha : amount < 2 ^ 64 := Nat.lt_of_le_of_lt hmay.1.2.1 (by decide)
  obtain ⟨hk, hf⟩ := known_of_encoded hparse hres hc hh ha hw
  have hfr : Replies host catalog requests key (some bytes) := by simpa [Replies] using hk
  have hp : Gives host catalog requests t (fun _ => True)
    (persist key { invoiceBolt12 := text, amountMsat := amount, paymentHashHex := hexdigest hash }) := by
    have hin : Gives host catalog requests t (fun _ => True)
      (call (.insertRows key { invoiceBolt12 := text, amountMsat := amount, paymentHashHex := hexdigest hash })) := by
      apply Protocol.Safe.yields_call
      intro s r s' hi _ hx
      refine ⟨⟨⟨hmay, _, signer, bytes, rfl, hen⟩, fun k row he => ?_⟩, fun _ _ => trivial⟩
      cases he
      exact hf
    refine (hin.yields_bind fun _ _ => yields_ret trivial).tryExcept (fun e => ?_) fun _ _ _ h => h
    cases e with
    | integrityError | other => exact yields_ret trivial
  refine hp.yields_bind fun outcome _ => ?_
  cases outcome with
  | stored | failed => exact yields_ret hfr
  | conflict =>
    refine refetchAndReplay_yields.yields_bind fun replay hr => ?_
    cases replay with
    | none => exact yields_ret hfr
    | some bytes => exact (silent_call).yields_bind fun _ _ => yields_ret hr

end

section Mint

variable {records : List TLVRecord} {invreq : InvoiceRequest} {amount : Nat}
  (hparse : parseInvreq host (requests t).2 = .ok (records, invreq))
  (hres : Resolved host catalog (requests t).2 records key amount) (hmay : MayMint host catalog (requests t).2 amount)
include hparse hres hmay

lemma mintOfferless_yields (primaryNumHops : Nat) :
    Gives host catalog requests t (Replies host catalog requests key)
      (mintOfferless host key invreq amount primaryNumHops) := by
  have hn : Replies host catalog requests key none := fun _ h => by cases h
  refine (mint_call hmay).yields_bind fun answer _ => ?_
  split
  · exact yields_ret hn
  refine (fallbackToOneHop_yields hmay _ _).yields_bind fun ⟨fallback, fellBack⟩ _ => ?_
  dsimp only
  split
  · exact yields_ret hn
  split
  · exact yields_ret hn
  rename_i hash hh
  refine (postprocess_yields _ _).yields_bind fun lndPaths _ => ?_
  have hl := length_paymentHashOf hh
  refine branch_yields (yields_ret hl) (maybeFlipToAltDepth_yields hmay _ _ hl _) fun chosen hc => ?_
  split
  · exact yields_ret hn
  refine (silent_call).yields_bind fun signer _ => ?_
  exact finish_yields hparse hres hc hmay _ signer

lemma mintForOffer_yields (issuerId : Bytes) (encryptedMetadata : String) (primaryNumHops : Nat) :
    Gives host catalog requests t (Replies host catalog requests key)
      (mintForOffer host key invreq issuerId encryptedMetadata amount primaryNumHops) := by
  have hn : Replies host catalog requests key none := fun _ h => by cases h
  refine (addWithRetries_yields hmay _ _).yields_bind fun answer _ => ?_
  split
  · exact yields_ret hn
  refine (fallbackToOneHop_yields hmay _ _).yields_bind fun ⟨fallback, fellBack⟩ _ => ?_
  dsimp only
  split
  · exact yields_ret hn
  split
  · exact yields_ret hn
  rename_i hash hh
  split
  · exact yields_ret hn
  rename_i signer _
  split
  · exact yields_ret hn
  refine (postprocess_yields _ _).yields_bind fun lndPaths _ => ?_
  have hl := length_paymentHashOf hh
  refine branch_yields (yields_ret hl) (maybeFlipToAltDepth_yields hmay _ _ hl _) fun chosen hc => ?_
  split
  · exact yields_ret hn
  exact finish_yields hparse hres hc hmay _ signer

end Mint

/-- A reply to the request is known under the key that the request resolves to. -/
def Mine (host : Host P) (catalog : Catalog) (requests : T → String × Bytes) (t : T) (reply : Option Bytes) : Prop :=
  ∀ bytes ∈ reply, ∃ records key amount, Resolved host catalog (requests t).2 records key amount ∧
    Known host catalog requests key bytes

lemma Replies.mine {records : List TLVRecord} {reply : Option Bytes}
    (hres : Resolved host catalog (requests t).2 records key amount) (h : Replies host catalog requests key reply) :
    Mine host catalog requests t reply :=
  fun bytes hb => ⟨records, key, amount, hres, h bytes hb⟩

lemma mine_none : Mine host catalog requests t none := fun _ h => by cases h

lemma attempt_yields {α : Type} (x : Except Exn α) :
    Gives host catalog requests t (fun a => x = .ok a) (attempt x : Code P α) := by
  cases x with
  | ok a => exact yields_ret rfl
  | error e => exact yields_raise

section Respond

variable {records : List TLVRecord} {invreq : InvoiceRequest}
  (hparse : parseInvreq host (requests t).2 = .ok (records, invreq))
include hparse

lemma respondToOfferlessInvreq_yields (hi : invreq.offer.issuerId = none) :
    Gives host catalog requests t (Mine host catalog requests t) (respondToOfferlessInvreq host invreq) := by
  unfold respondToOfferlessInvreq
  split
  · exact yields_ret mine_none
  rename_i amount ha
  split
  · exact yields_ret mine_none
  rename_i hp
  split
  · exact yields_ret mine_none
  rename_i hc
  have hmay : MayMint host catalog (requests t).2 amount :=
    ⟨bounded_of_withinCaps hp (by simpa using hc), records, invreq, hparse, .inl ⟨hi, ha⟩⟩
  refine (attempt_yields _).yields_bind fun metadataHex hh => ?_
  have hres : Resolved host catalog (requests t).2 records ⟨DASHBOARD_KEY_ID, metadataHex⟩ amount :=
    ⟨invreq, metadataHex, hparse, hh, .inl ⟨hi, rfl, ha⟩⟩
  refine refetchAndReplay_yields.yields_bind fun replay hr => ?_
  cases replay with
  | some bytes => exact yields_ret (hr.mine hres)
  | none =>
    have hm := mintOfferless_yields hparse hres hmay
      (max 1 host.settings.blindedPathMinRealHops)
    exact hm.post fun r _ _ h => by
      cases r with
      | ok reply => exact Replies.mine hres h
      | error e => trivial

lemma respondToOffer_yields {issuerId : Bytes} (hi : invreq.offer.issuerId = some issuerId) :
    Gives host catalog requests t (Mine host catalog requests t) (respondToOffer host invreq issuerId) := by
  have ho : Gives host catalog requests t (fun row : Option Bolt12Offer =>
      ∀ offer ∈ row, catalog issuerId = some offer) (call (.selectOffer issuerId) : Code P _) := by
    refine free_call trivial (fun _ _ h => by cases h) fun s r s' _ hx row hr offer hro => ?_
    cases hx with
    | selectOffer =>
      obtain rfl := ok.inj hr
      exact hro
    | offerGone =>
      obtain rfl := ok.inj hr
      cases hro
    | raised => cases hr
  refine ho.yields_bind fun row hro => ?_
  split
  · exact yields_ret mine_none
  rename_i offerRow
  have hc := hro offerRow rfl
  split
  · exact yields_ret mine_none
  rename_i encryptedMetadata _
  refine (expiryPassed_yields _).yields_bind fun expired _ => ?_
  split
  · exact yields_ret mine_none
  split
  · exact yields_ret mine_none
  rename_i hq
  split
  · exact yields_ret mine_none
  rename_i amount ha
  split
  · exact yields_ret mine_none
  rename_i hp
  refine (attempt_yields _).yields_bind fun metadataHex hh => ?_
  have hres : Resolved host catalog (requests t).2 records ⟨offerRow.apiKeyId, metadataHex⟩ amount :=
    ⟨invreq, metadataHex, hparse, hh, .inr ⟨issuerId, offerRow, hi, hc, rfl, ha⟩⟩
  refine refetchAndReplay_yields.yields_bind fun replay hre => ?_
  cases replay with
  | some bytes => exact yields_ret (hre.mine hres)
  | none =>
    dsimp only
    split
    · exact yields_ret mine_none
    rename_i hca
    have hmay : MayMint host catalog (requests t).2 amount :=
      ⟨bounded_of_withinCaps hp (by simpa using hca), records, invreq, hparse, .inr ⟨issuerId, offerRow, hi, hc,
        priced_of_resolved (by simpa using hq) ha⟩⟩
    have hm := mintForOffer_yields hparse hres hmay issuerId encryptedMetadata
    refine (hm _).post fun r _ _ h => ?_
    cases r with
    | ok reply => exact Replies.mine hres h
    | error e => trivial

end Respond

lemma respondToInvreq_yields :
    Gives host catalog requests t (Mine host catalog requests t) (inboundRequests host requests t) := by
  unfold inboundRequests respondToInvreq
  split
  · exact yields_ret mine_none
  split
  · split
    · exact yields_ret mine_none
    · exact yields_raise
  rename_i records invreq hparse
  refine (attempt_yields _).yields_bind fun valid _ => ?_
  split
  · exact yields_ret mine_none
  split
  · exact yields_ret mine_none
  refine (silent_call).yields_bind fun allowed _ => ?_
  split
  · exact yields_ret mine_none
  split
  · rename_i hi
    split
    · exact yields_ret mine_none
    · exact respondToOfferlessInvreq_yields hparse hi
  · rename_i issuerId hi
    exact respondToOffer_yields hparse hi

/-- Every reply is known, and no command mints what it may not. -/
lemma holds_of_reach [DecidableEq T] {cfg : Config T (Cmd P) Reply Failure (Option Bytes) (World T)}
    (hr : (inbound P T catalog).Reach ⟨.initial T, inboundRequests host requests⟩ cfg) :
    (mirroring host catalog requests).Holds (fun t => Yields (Mine host catalog requests t)) cfg := by
  refine Protocol.Holds.reach ⟨fun _ _ h => ?_, fun t => ⟨fun _ => True, .const _, trivial, respondToInvreq_yields⟩⟩ hr
  cases h

end Request

/-- In every interleaving of any requests, with any answers of the node and the database,
an invoice is only minted for a bounded amount, which on a priced offer is the price of
its row for the quantity. -/
theorem minted_within_bounds [DecidableEq T] (host : Host P) (catalog : Catalog) (requests : T → String × Bytes)
    {cfg : Config T (Cmd P) Reply Failure (Option Bytes) (World T)}
    (hreach : (inbound P T catalog).Reach ⟨.initial T, inboundRequests host requests⟩ cfg) {t : T} {c : Cmd P}
    {k : Except Failure (Reply c) → Code P (Option Bytes)} (ht : cfg.tasks t = .await c k) :
    Mints host (MayMint host catalog (requests t).2) c :=
  ((holds_of_reach hreach).pre ht (.raised c)).1

/-- In every interleaving of any requests, with any answers of the node and the
database: if the requests under one key are the same but for signatures and none
has an empty list of chains, then every reply mirrors the request it answers. -/
theorem mirrored_of_unmixed [DecidableEq T] (host : Host P) (catalog : Catalog) (requests : T → String × Bytes)
    (hunmixed : Unmixed host catalog requests) {cfg : Config T (Cmd P) Reply Failure (Option Bytes) (World T)}
    (hreach : (inbound P T catalog).Reach ⟨.initial T, inboundRequests host requests⟩ cfg) {t : T} {bytes : Bytes}
    (ht : cfg.tasks t = .ret (some bytes)) : Mirrored host catalog (requests t).2 bytes := by
  obtain ⟨records, key, amount, hres, u, records', amount', written, hash, hr', hw, i, hi, hin, ha, -⟩ :=
    (holds_of_reach hreach).ret ht bytes rfl
  have hs := hunmixed.same t u records records' key amount amount' hres hr'
  obtain rfl := amount_of_nonSig hres hr' hs
  obtain ⟨invreq, -, hparse, -⟩ := id hr'
  refine ⟨records, key, amount, written, i, hres, hw, hi, ?_, ha⟩
  rw [hin, hs]
  congr 1
  apply kept_eq_self.2
  intro r hr
  exact hunmixed.chains u records' invreq hparse r (List.mem_of_mem_filter hr)

/-! ## Requests that run alone -/

/-- A wallet that answers requests without an offer, with one hop and no second depth. -/
def quickHost : Host Unit where
  settings := { maxPayloadBytes := 0, maxTlvRecords := 0, maxTlvValueBytes := 0, acceptOfferlessInvreqs := true,
                blindedPathMinRealHops := 1, adaptiveDepthFallbackEnabled := false }
  sha256 := Sha256.sha256
  schnorr _ _ _ := true
  unicodeLower := id
  classifyTorFailure _ := false
  encodeInvoicePaths _ := some ([], [])
  loadSigner _ := none

def quickRecords (amount : Nat) : List TLVRecord := plainRecords amount ++ [⟨SIGNATURE, List.replicate 64 0⟩]

def quickRequest (amount : Nat) : InvoiceRequest :=
  { offer := {}, metadata := some [7], payerId := some zeroSigner.publicKey, amount := some amount,
    signature := some (List.replicate 64 0) }

def quickKey : Key := ⟨DASHBOARD_KEY_ID, hexdigest [7]⟩

/-- The payload holds the request for `amount`, which is parsed as such. -/
structure Quick (amount : Nat) (payload : Bytes) : Prop where
  positive : 0 < amount
  capped : amount ≤ 100000000
  parsed : parseInvreq quickHost payload = .ok (quickRecords amount, quickRequest amount)

namespace Quick

variable {amount : Nat} {payload : Bytes} (h : Quick amount payload)

lemma exists_payload (hpo : 0 < amount) (hc : amount ≤ 100000000)
    (hparse : InvoiceRequest.parse ⟨.lnr, quickRecords amount⟩ = .ok (quickRequest amount)) :
    ∃ payload, Quick amount payload := by
  have ha : Ascending (quickRecords amount) := by
    apply List.pairwise_map.1
    show [INVREQ_METADATA, INVREQ_AMOUNT, INVREQ_PAYER_ID, SIGNATURE].Pairwise (· < ·)
    decide
  have hl := length_encodeTu64 (Nat.lt_of_le_of_lt hc (by decide))
  have hf : ∀ r ∈ quickRecords amount, r.Fits := by
    simp only [quickRecords, plainRecords, List.cons_append, List.nil_append, List.forall_mem_cons]
    refine ⟨by decide, ⟨of_decide_eq_true rfl, Nat.lt_of_le_of_lt hl (by decide)⟩, by decide, by decide, by simp⟩
  obtain ⟨payload, hp⟩ := (encodeStream_ok_iff _).2 hf
  have hd : decodeStream payload quickHost.settings.caps = .ok (quickRecords amount) :=
    decodeStream_of_encode ⟨ha, hf⟩ hp
  refine ⟨payload, hpo, hc, ?_⟩
  simp only [parseInvreq, bind_eq_ok, hd, ok.injEq, exists_eq_left']
  exact ⟨_, hparse, rfl⟩

include h

lemma toRecords : (quickRequest amount).toRecords false = .ok (plainRecords amount) := by
  obtain ⟨-, ha, hparse⟩ := parseInvreq_ok h.parsed
  rw [InvoiceRequest.toRecords_parse ha hparse]
  rfl

lemma verified : verifyInvoiceRequest quickHost.sha256 quickHost.schnorr (quickRequest amount) = .ok true := by
  obtain ⟨hde, -, -⟩ := parseInvreq_ok h.parsed
  have hf := (decodeStream_ok hde).1.2
  obtain ⟨digest, hd, hl⟩ :
      ∃ digest, (quickRequest amount).signatureDigest Sha256.sha256 = .ok digest ∧ digest.length = 32 := by
    rw [InvoiceRequest.signatureDigest, h.toRecords]
    apply exists_signatureDigest Sha256.length_sha256 .lnr
    · exact List.ne_nil_of_mem (List.mem_filter.2 ⟨List.mem_cons_self .., of_decide_eq_true rfl⟩)
    · intro r hr
      exact hf r (List.mem_append_left _ (List.mem_of_mem_filter hr))
  have hv := @verifyInvoiceRequest_of_digest Sha256.sha256 quickHost.schnorr (quickRequest amount) _ _ _ rfl rfl
    hd
  refine hv.trans ?_
  simp [verifyBip340, hl, zeroSigner, xonlyFromCompressed, quickHost]

end Quick

section Runs

variable {catalog : Catalog} {t : T} {s s₁ s' : World T} {amount : Nat} {payload : Bytes} {recvId : String}
  {res : Except Failure (Option Bytes)}

lemma Quick.ends (h : Quick amount payload) {prior : Option Bytes}
    (hp : (inbound Unit T catalog).Ends t s (refetchAndReplay quickHost quickKey) (.ok prior) s₁)
    (hr : (inbound Unit T catalog).Ends t s₁ (match prior with
      | some bytes => .ret (some bytes)
      | none => mintOfferless quickHost quickKey (quickRequest amount) amount 1) res s') :
    (inbound Unit T catalog).Ends t s (respondToInvreq quickHost recvId payload) res s' := by
  have hc : withinCaps quickHost amount = true := by
    have := h.capped
    simp [withinCaps, quickHost, HARD_MAX_INBOUND_AMOUNT_MSAT]
    omega
  have ho :
      (inbound Unit T catalog).Ends t s (respondToOfferlessInvreq quickHost (quickRequest amount)) res s' := by
    have hpo : ¬ amount ≤ 0 := Nat.not_le.2 h.positive
    simp only [respondToOfferlessInvreq, quickRequest, hpo, if_false, hc]
    exact hp.bind hr
  unfold respondToInvreq
  rw [if_neg (by simp [quickHost]), h.parsed]
  dsimp only
  rw [h.verified]
  exact .await (.checkRate _ _ true) ho

lemma refetch_ends_none {host : Host P} {key : Key} (h : s.invreqs key = none) :
    (inbound P T catalog).Ends t s (refetchAndReplay host key) (.ok none) s := by
  refine .await (.selectInvreq key) ?_
  rw [h]
  exact .ret

lemma refetch_ends {host : Host P} {key : Key} {id : Nat} (hid : s.invreqs key = some id)
    (hr : s.invoices id = some row) {prior : Option Bytes}
    (h : (do let expired ← invoiceExpired row if expired then return none else replayBytes host row : Code P (Option Bytes)) = .ret prior) :
    (inbound P T catalog).Ends t s (refetchAndReplay host key) (.ok prior) s := by
  refine .await (.selectInvreq key) ?_
  rw [hid]
  refine .await (.selectInvoice id) ?_
  rw [hr]
  show Machine.Ends _ t s (do
      let expired ← invoiceExpired row
      if expired then return none else replayBytes host row : Code P (Option Bytes)) _ s
  rw [h]
  exact .ret

lemma mint_ends (hh : hash.length = 32) (hn : ∀ e ∈ s.ledger, e.rHash ≠ some (hexdigest hash))
    (h : (inbound Unit T catalog).Ends t (s.mint (some (hexdigest hash)) t) (finish quickHost quickKey (quickRequest amount) amount ([], []) hash zeroSigner) res s') :
    (inbound Unit T catalog).Ends t s (mintOfferless quickHost quickKey (quickRequest amount) amount 1) res s' := by
  let result : BlindedInvoiceResult Unit := ⟨some (hexdigest hash), [()]⟩
  have hr : paymentHashOf result = some hash := by
    simp [paymentHashOf, result, fromHex_hexdigest, hh]
  have hf : ∀ rHash ∈ result.rHash, ∀ e ∈ s.ledger, e.rHash ≠ some rHash := by
    rintro _ ⟨⟩ e he
    exact hn e he
  refine .await (.minted amount 1 result hf) ?_
  conv => enter [4]; whnf
  rw [hr]
  refine .bind (.await (.postprocessPaths [()] [()] amount) .ret) ?_
  exact .await (.generateSigner zeroSigner) h

/-- The row that is stored for the request, with an invoice that is read back as one for it. -/
structure Issue (amount : Nat) (hash : Bytes) (row : Bolt12Invoice) (bytes : Bytes) : Prop where
  encoded : encodeInvoice quickHost (unsignedInvoice (quickRequest amount) [] [] 0 hash amount zeroSigner) zeroSigner =
    .ok (row.invoiceBolt12, bytes)
  short : bytes.length ≤ 500
  row_eq : row = { invoiceBolt12 := row.invoiceBolt12, amountMsat := amount, paymentHashHex := hexdigest hash }

lemma Quick.exists_issue (h : Quick amount payload) (hh : hash.length = 32) :
    ∃ row bytes, Issue amount hash row bytes := by
  obtain ⟨text, bytes, he, -, hle⟩ := @exists_plainInvoice _ quickHost Sha256.length_sha256 (quickRequest amount) amount
    h.toRecords (Nat.lt_of_le_of_lt h.capped (by decide)) [] hash (by decide) hh
  exact ⟨⟨text, amount, hexdigest hash, .OPEN, none⟩, bytes, he, by simpa using hle, rfl⟩

namespace Issue

variable {hash bytes : Bytes} {row : Bolt12Invoice} (h : Issue amount hash row bytes)
include h

lemma answers (hq : Quick amount payload) (hh : hash.length = 32) :
    ∃ written, decodeStream bytes {} = .ok written ∧ Answers written (quickRecords amount) amount hash := by
  obtain ⟨written, he⟩ := encodeInvoice_ok h.encoded
  obtain ⟨-, ha, hparse⟩ := parseInvreq_ok hq.parsed
  refine ⟨written, decodeStream_of_encode he.canonical he.bytes_eq, ?_⟩
  exact he.answers ha hparse (by decide) hh (Nat.lt_of_le_of_lt hq.capped (by decide))

lemma replay : (do
    let expired ← invoiceExpired row
    if expired then return none else replayBytes quickHost row : Code Unit (Option Bytes)) = .ret (some bytes) := by
  obtain ⟨written, he⟩ := encodeInvoice_ok h.encoded
  have hd := (he.decode_iff rfl _).2 ⟨h.short.trans (by decide), rfl⟩
  rw [h.row_eq]
  show replayBytes quickHost _ = _
  unfold replayBytes
  rw [hd]
  simp only [he.bytes_eq]
  rfl

lemma finish_stored (hc : s.clock = 0) (hf : s.invreqs quickKey = none) :
    (inbound Unit T catalog).Ends t s (finish quickHost quickKey (quickRequest amount) amount ([], []) hash zeroSigner)
      (.ok (some bytes)) (s.insert quickKey row) := by
  refine .await .now ?_
  rw [hc]
  conv => enter [4]; whnf
  rw [UInt64.toNat_zero, h.encoded]
  have hca : ¬ bytes.length > quickHost.settings.maxOutboundInvoiceBytes := Nat.not_lt.2 (h.short.trans (by decide))
  dsimp only
  rw [if_neg hca]
  have hr := h.row_eq
  refine .await (.insertRows quickKey _ hf) ?_
  rw [← hr]
  exact .ret

end Issue

lemma Quick.stored (h : Quick amount payload) {bytes : Bytes} (hh : hash.length = 32)
    (hi : Issue amount hash row bytes) (hc : s.clock = 0) (hf : s.invreqs quickKey = none)
    (hn : ∀ e ∈ s.ledger, e.rHash ≠ some (hexdigest hash)) :
    (inbound Unit T catalog).Ends t s (respondToInvreq quickHost recvId payload) (.ok (some bytes))
      ((s.mint (some (hexdigest hash)) t).insert quickKey row) :=
  h.ends (refetch_ends_none hf) (mint_ends hh hn (hi.finish_stored hc hf))

end Runs

/-- The request is let through, finds no row and asks the node for its invoice. -/
theorem minted_within_bounds_once : ∃ payload,
    Mints quickHost (MayMint quickHost (fun _ => none) payload) (.addBlindedInvoice 1000 1) := by
  obtain ⟨payload, hq⟩ := @Quick.exists_payload 1000 (by decide) (by decide) rfl
  obtain ⟨k, hk, k', hk', k'', hk''⟩ : ∃ k, inboundRequests quickHost (fun _ : Unit => ("", payload)) () =
      .await (.checkRate (hexdigest zeroSigner.publicKey) none) k ∧ ∃ k', k (.ok true) = .await (.selectInvreq quickKey) k' ∧
      ∃ k'', k' (.ok none) = .await (.addBlindedInvoice 1000 1) k'' := by
    unfold inboundRequests respondToInvreq
    rw [if_neg (by simp [quickHost]), hq.parsed]
    dsimp only
    rw [hq.verified]
    exact ⟨_, rfl, _, rfl, _, rfl⟩
  have ha := Machine.Reach.run (M := inbound Unit Unit fun _ => none) (s := .initial Unit) .refl () hk (.ok true)
    (.checkRate _ _ true)
  have hf := ha.run () ((Function.update_self ..).trans hk') (.ok none) (.selectInvreq quickKey)
  exact ⟨payload, minted_within_bounds quickHost _ _ hf (t := ()) (k := k'') (by simp [hk''])⟩

/-- A row of which none may be ordered is still sold to a request without a quantity. -/
theorem minted_above_quantityMax : ∃ row : Bolt12Offer, ∃ k₁ k₂ k₃,
    respondToOffer quickHost (quickRequest 1000) [] = .await (.selectOffer []) k₁ ∧
    k₁ (.ok (some row)) = .await (.selectInvreq ⟨row.apiKeyId, hexdigest [7]⟩) k₂ ∧
    k₂ (.ok none) = .await (.addBlindedInvoice 1000 1) k₃ ∧
    row.amountMsat = some 1000 ∧ ¬ ∀ most ∈ row.quantityMax, (quickRequest 1000).quantity.getD 1 ≤ most :=
  ⟨{ apiKeyId := "", amountMsat := some 1000, quantityMax := some 0, encryptedMetadata := some "" }, _, _, _, rfl, rfl, rfl,
    rfl, by decide⟩

/-- Of one request alone. -/
theorem mirrored_once : ∃ payload bytes, Mirrored quickHost (fun _ => none) payload bytes := by
  obtain ⟨payload, hq⟩ := @Quick.exists_payload 1000 (by decide) (by decide) rfl
  obtain ⟨row, bytes, hi⟩ := hq.exists_issue (show (List.replicate 32 (0 : UInt8)).length = 32 from rfl)
  have hu : Unmixed quickHost (fun _ => none) fun _ : Unit => ("", payload) := by
    refine ⟨fun t records invreq hparse => ?_, fun t u records records' key amount amount' h h' => ?_⟩
    · obtain ⟨rfl, -⟩ := mk.inj (ok.inj (hq.parsed.symm.trans hparse))
      decide
    obtain ⟨_, _, hparse, -⟩ := h
    obtain ⟨_, _, hp', -⟩ := h'
    obtain ⟨rfl, -⟩ := mk.inj (ok.inj (hparse.symm.trans hp'))
    rfl
  have hru : (inbound Unit Unit fun _ => none).Ends () (.initial Unit) (inboundRequests quickHost
      (fun _ => ("", payload)) ()) (.ok (some bytes)) _ := hq.stored rfl hi rfl rfl (by simp [World.initial])
  have hr : (inbound Unit Unit fun _ => none).Reach ⟨_, inboundRequests quickHost fun _ => ("", payload)⟩ _ :=
    hru.reach rfl
  exact ⟨payload, bytes, mirrored_of_unmixed quickHost (fun _ => none) (fun _ => ("", payload)) hu hr
    (t := ()) (by simp [Lib.Task.result])⟩

/-- Two requests with the metadata of the same payer and different amounts: the
second one is answered with the invoice of the first. -/
theorem replayed_for_another_amount : ∃ (requests : Bool → String × Bytes)
    (cfg : Config Bool (Cmd Unit) Reply Failure (Option Bytes) (World Bool)) (bytes : Bytes),
    (inbound Unit Bool fun _ => none).Reach ⟨.initial Bool, inboundRequests quickHost requests⟩ cfg ∧
    cfg.tasks true = .ret (some bytes) ∧ ¬ Mirrored quickHost (fun _ => none) (requests true).2 bytes := by
  obtain ⟨payload, hq⟩ := @Quick.exists_payload 1000 (by decide) (by decide) rfl
  obtain ⟨payload', hq'⟩ := @Quick.exists_payload 2000 (by decide) (by decide) rfl
  obtain ⟨row, bytes, his⟩ := hq.exists_issue (show (List.replicate 32 (0 : UInt8)).length = 32 from rfl)
  let requests : Bool → String × Bytes := fun
    | false => ("", payload)
    | true => ("", payload')
  have hf : (inbound Unit Bool fun _ => none).Ends false (.initial Bool) (inboundRequests quickHost requests false)
      (.ok (some bytes)) _ := hq.stored rfl his rfl rfl (by simp [World.initial])
  let stored := ((World.initial Bool).mint (some (hexdigest (List.replicate 32 0))) false).insert quickKey row
  have hid : stored.invreqs quickKey = some 0 := by simp [stored, World.insert, World.mint, World.initial]
  have hro : stored.invoices 0 = some row := by simp [stored, World.insert, World.mint, World.initial]
  have hs : (inbound Unit Bool fun _ => none).Ends true stored (inboundRequests quickHost requests true)
      (.ok (some bytes)) stored := hq'.ends (refetch_ends hid hro his.replay) .ret
  have hr : (inbound Unit Bool fun _ => none).Reach ⟨_, inboundRequests quickHost requests⟩ _ := hf.reach rfl
  have hr' : (inbound Unit Bool fun _ => none).Reach
      ⟨stored, Function.update (inboundRequests quickHost requests) false (.ret (some bytes))⟩ _ := hs.reach rfl
  refine ⟨requests, _, bytes, hr.trans hr', by simp [Lib.Task.result], ?_⟩
  rintro ⟨records, key, amount, written, i, ⟨invreq, _, hparse, -, hres⟩, hw, hi, -, ha⟩
  -- The reply bills 1000, the request asks for 2000.
  obtain ⟨-, rfl⟩ := mk.inj (ok.inj (hq'.parsed.symm.trans hparse))
  obtain rfl : 2000 = amount := by
    rcases hres with ⟨-, -, h⟩ | ⟨issuer, offer, h, -⟩
    · exact some.inj h
    · cases h
  obtain ⟨written', hw', i', hi', -, ha', -⟩ := his.answers hq rfl
  obtain rfl := ok.inj (hw.symm.trans hw')
  obtain rfl := ok.inj (hi.symm.trans hi')
  rw [ha] at ha'
  cases ha'

end AgentWallet.Bolt12.Responder
