import AgentWallet.Bolt12.Stored
/-!
# Inbound requests against one wallet

The responder's requests share two tables, the node and a clock. Each command is
one step of `inbound`: what is stored is found again, one row a key is inserted,
an invoice the node mints has a new hash, and everything else may answer anything
or raise. Between two commands rows can change their status or be purged.

What the responder encodes is read back as an invoice for the request it answers
(`Encoded.answers`).
-/

namespace AgentWallet.Bolt12.Responder

open AgentWallet.Lib List Except

variable {P T : Type} {host : Host P}

/-! ## What is read back -/

lemma badPoint_publicKey (signer : Signer) : badPoint signer.publicKey = false := by
  obtain ⟨x, hx⟩ := signer.compressed
  obtain ⟨h, -⟩ := ite_passed hx
  · rw [not_or, not_not] at h
    simp only [badPoint, h.1, h.2, ne_eq, not_true_eq_false, decide_false, Bool.or_self]

variable {invreq : InvoiceRequest} {paths blindedpay hash : Bytes} {createdAt amount : Nat} {signer : Signer}
  {rs records : List TLVRecord}

lemma own_fine {sig : Bytes} (hc : createdAt < 2 ^ 64) (hh : hash.length = 32) (ha : amount < 2 ^ 64)
    {own : List TLVRecord}
    (ho : ({ unsignedInvoice invreq paths blindedpay createdAt hash amount signer with
      signature := some sig } : Invoice).pieces.concat = .ok own) :
    ∀ r ∈ own, r.type ∈ Invoice.types ∧ Invoice.badOwn r = false := by
  obtain rfl : [⟨INVOICE_PATHS, paths⟩, ⟨INVOICE_BLINDEDPAY, blindedpay⟩, ⟨INVOICE_CREATED_AT, encodeTu64 createdAt⟩,
    ⟨INVOICE_RELATIVE_EXPIRY, encodeTu64 DEFAULT_INVOICE_EXPIRY⟩, ⟨INVOICE_PAYMENT_HASH, hash⟩,
    ⟨INVOICE_AMOUNT, encodeTu64 amount⟩, ⟨INVOICE_NODE_ID, signer.publicKey⟩] = own := ok.inj ho
  simp only [forall_mem_cons]
  refine ⟨⟨by decide, rfl⟩, ⟨by decide, rfl⟩, ⟨by decide, ?_⟩, ⟨by decide, by decide⟩, ⟨by decide, ?_⟩, ⟨by decide, ?_⟩,
    ⟨by decide, ?_⟩, by simp⟩
  · exact badTu64_encodeTu64 hc
  · show decide (hash.length ≠ 32) = false
    simp [hh]
  · exact badTu64_encodeTu64 ha
  · exact badPoint_publicKey signer

/-- The records of an encoded invoice: those of the request, fields that can be read back, and a signature. -/
lemma Encoded.layers (hrs : Ascending rs) (hq : InvoiceRequest.parse ⟨.lnr, rs⟩ = .ok invreq)
    (hc : createdAt < 2 ^ 64) (hh : hash.length = 32) (ha : amount < 2 ^ 64) {text : String} {bytes : Bytes}
    (h : Encoded host (unsignedInvoice invreq paths blindedpay createdAt hash amount signer) records text bytes) :
    ∃ own sig, records.Perm (kept (selected false rs) ++ own ++ [⟨SIGNATURE, sig⟩]) ∧ sig.length = 64 ∧
      ∀ r ∈ own, r.type ∈ Invoice.types ∧ Invoice.badOwn r = false := by
  obtain ⟨sig, hsi, hr⟩ := h.signed
  simp only [Invoice.toRecords, bind_eq_ok] at hr
  obtain ⟨lower, hl, own, ho, hs⟩ := hr
  have hk := InvoiceRequest.toRecords_parse hrs hq false
  obtain rfl : kept (selected false rs) = lower := ok.inj (hk.symm.trans hl)
  refine ⟨own, sig, ?_, hsi, own_fine hc hh ha ho⟩
  have := (sortAndCheck_ok hs).1
  simpa [unsignedInvoice, InvoiceRequest.signatureRecord] using this

lemma parse_of_layers (ha : Ascending records) (hq : InvoiceRequest.parse ⟨.lnr, rs⟩ = .ok invreq)
    {own : List TLVRecord} {sig : Bytes} (hp : records.Perm (kept (selected false rs) ++ own ++ [⟨SIGNATURE, sig⟩]))
    (hsi : sig.length = 64) (ho : ∀ r ∈ own, r.type ∈ Invoice.types ∧ Invoice.badOwn r = false) :
    ∃ i, Invoice.parse ⟨.lni, records⟩ = .ok i := by
  have hl : ∀ r ∈ kept (selected false rs), r ∈ rs ∧ r.type ≠ SIGNATURE := by
    intro r hr
    have hr := mem_filter.1 (mem_of_mem_kept hr)
    exact ⟨hr.1, by simpa using hr.2⟩
  have hra : ∀ r ∈ own, INVREQ_RANGE ≤ r.type ∧ r.type < INVOICE_RANGE := by
    intro r hr
    have hal : ∀ t ∈ Invoice.types, INVREQ_RANGE ≤ t ∧ t < INVOICE_RANGE := by decide
    exact hal _ (ho r hr).1
  have hc : ∀ r ∈ records, r ∈ kept (selected false rs) ∨ r ∈ own ∨ r = ⟨SIGNATURE, sig⟩ := by
    intro r hr
    simpa [or_assoc] using hp.subset hr
  apply Invoice.exists_parse ha
  · intro r hr
    rcases hc r hr with hr | hr | rfl
    · obtain ⟨hm, hne⟩ := hl r hr
      by_cases hs : isSignatureType r.type = true
      · simp [badFrame, hs, hne]
      · have hlt := (InvoiceRequest.signatureType_iff (InvoiceRequest.record_of_parse hq hm).1).1 (by simpa using hs)
        exact badFrame_of_lt (by decide) (Nat.lt_trans hlt (by decide))
    · exact badFrame_of_lt (by decide) (hra r hr).2
    · have hs : isSignatureType SIGNATURE = true := rfl
      simp [badFrame, hsi, hs]
  · intro r hr hlt
    rcases hc r hr with hr | hr | rfl
    · obtain ⟨hm, hne⟩ := hl r hr
      exact (InvoiceRequest.record_of_parse hq hm).2 hne
    · exact absurd hlt (Nat.not_lt.2 (hra r hr).1)
    · exact absurd hlt (of_decide_eq_true rfl : ¬ SIGNATURE < INVREQ_RANGE)
  · intro r hr hle hne
    rcases hc r hr with hr | hr | rfl
    · have hf := (InvoiceRequest.record_of_parse hq (hl r hr).1).1
      apply Invoice.badOwn_of_signature
      by_contra hs
      exact absurd ((InvoiceRequest.signatureType_iff hf).1 (by simpa using hs)) (Nat.not_lt.2 hle)
    · exact (ho r hr).2
    · exact absurd rfl hne

lemma request_of_layers (hq : InvoiceRequest.parse ⟨.lnr, rs⟩ = .ok invreq) {own : List TLVRecord} {sig : Bytes}
    (how : ∀ r ∈ own, r.type ∈ Invoice.types ∧ Invoice.badOwn r = false) :
    List.filter (·.type < INVREQ_RANGE) (kept (selected false rs) ++ own ++ [⟨SIGNATURE, sig⟩]) = kept (nonSig rs) := by
  have ha : ∀ t ∈ Invoice.types, ¬ t < INVREQ_RANGE := by decide
  have ho : own.filter (·.type < INVREQ_RANGE) = [] :=
    filter_eq_nil_iff.2 fun r hr => by simpa using ha _ (how r hr).1
  have hsi : [(⟨SIGNATURE, sig⟩ : TLVRecord)].filter (·.type < INVREQ_RANGE) = [] := rfl
  rw [filter_append, filter_append, ho, hsi, append_nil, append_nil]
  simp only [kept, selected, nonSig, filter_filter]
  apply filter_congr
  intro r hr
  have hi := InvoiceRequest.signatureType_iff (InvoiceRequest.record_of_parse hq hr).1
  by_cases hlt : r.type < INVREQ_RANGE
  · have hne : r.type ≠ SIGNATURE := (Nat.lt_trans hlt (by decide)).ne
    simp [hlt, hne, hi.2 hlt]
  · have hs : isSignatureType r.type = true := by simpa using mt hi.1 hlt
    simp [hlt, hs]

/-- The records `written` are parsed as an invoice for the request `rs`. -/
def Answers (written rs : List TLVRecord) (amount : Nat) (hash : Bytes) : Prop :=
  ∃ i, Invoice.parse ⟨.lni, written⟩ = .ok i ∧ i.invreq.toRecords false = .ok (kept (nonSig rs)) ∧
    i.amount = some amount ∧ i.paymentHash = some hash

/-- An invoice that the responder encodes is read back as one for the request. -/
lemma Encoded.answers (hrs : Ascending rs) (hq : InvoiceRequest.parse ⟨.lnr, rs⟩ = .ok invreq)
    (hc : createdAt < 2 ^ 64) (hh : hash.length = 32) (ha : amount < 2 ^ 64) {text : String} {bytes : Bytes}
    (h : Encoded host (unsignedInvoice invreq paths blindedpay createdAt hash amount signer) records text bytes) :
    Answers records rs amount hash := by
  have hasc : Ascending records := h.canonical.1
  obtain ⟨own, sig, hpe, hs, ho⟩ := h.layers hrs hq hc hh ha
  obtain ⟨i, hi⟩ := parse_of_layers hasc hq hpe hs ho
  obtain ⟨⟨lower, hlower, hl, hlo⟩, -, hp, -⟩ := Invoice.layers_of_parse hasc.distinct hi
  refine ⟨i, hi, ?_, ?_⟩
  · rw [hlower]
    congr 1
    have hn : Ascending (nonSig rs) := hrs.filter _
    apply hlo.eq_of_perm hn.kept
    have hre := hpe.filter (·.type < INVREQ_RANGE)
    rw [request_of_layers hq ho] at hre
    rw [← kept_kept (nonSig rs)]
    exact hl.trans (hre.filter _)
  · obtain ⟨sig', -, hrec⟩ := h.signed
    have hm : ∀ r : TLVRecord, .ok [r] ∈ (unsignedInvoice invreq paths blindedpay createdAt hash amount signer).pieces →
        slot records r.type = [r] := fun r hr =>
      slot_of_mem hasc.distinct (Invoice.mem_toRecords hrec hr r (mem_singleton_self r))
    simp only [Invoice.pieces, Invoice.types, map_cons, map_nil, cons.injEq, and_true] at hp
    obtain ⟨-, -, -, -, hh, ha, -⟩ := hp
    rw [hm ⟨INVOICE_PAYMENT_HASH, hash⟩ (by simp [Invoice.pieces, unsignedInvoice, optRecord])] at hh
    rw [hm ⟨INVOICE_AMOUNT, encodeTu64 amount⟩ (by simp [Invoice.pieces, unsignedInvoice, optRecord])] at ha
    exact ⟨optRecord_inj number_inj ha rfl, optRecord_inj raw_inj hh rfl⟩

/-! ## The wallet -/

/-- An invoice on the node, with the request it was minted for. -/
structure LndInvoice (T : Type) where
  rHash : Option String
  mintedFor : T
  isOpen : Bool := true

/-- The clock in seconds, the id of the next inbound row, the inbound rows under
the columns of their unique index, the invoice rows under the id of their
request, and the node's invoices. -/
structure World (T : Type) where
  clock : UInt64
  nextId : Nat
  invreqs : Key → Option Nat
  invoices : Nat → Option Bolt12Invoice
  ledger : List (LndInvoice T)

namespace World

def initial (T : Type) : World T where
  clock := 0
  nextId := 0
  invreqs _ := none
  invoices _ := none
  ledger := []

def insert (s : World T) (key : Key) (row : Bolt12Invoice) : World T :=
  { s with nextId := s.nextId + 1,
           invreqs := Function.update s.invreqs key (some s.nextId),
           invoices := Function.update s.invoices s.nextId (some row) }

def mint (s : World T) (rHash : Option String) (t : T) : World T :=
  { s with ledger := ⟨rHash, t, true⟩ :: s.ledger }

def close (s : World T) (rHash : String) : World T :=
  { s with ledger := s.ledger.map fun e => if e.rHash = some rHash then { e with isOpen := false } else e }

def mark (s : World T) (id : Nat) (status : Bolt12InvoiceStatus) : World T :=
  { s with invoices := Function.update s.invoices id ((s.invoices id).map ({ · with status })) }

end World

/-- The offers of the wallet, by their issuer. One that is inactive or deleted is not found. -/
abbrev Catalog : Type := Bytes → Option Bolt12Offer

/-- What a command of request `t` does and answers. -/
inductive Exec (catalog : Catalog) (t : T) (s : World T) : (c : Cmd P) → Except Failure (Reply c) → World T → Prop
  | checkRate (peerKey : String) (offerKey : Option String) (allowed : Bool) :
    Exec catalog t s (.checkRate peerKey offerKey) (.ok allowed) s
  | selectOffer (issuerId : Bytes) : Exec catalog t s (.selectOffer issuerId) (.ok (catalog issuerId)) s
  | offerGone (issuerId : Bytes) : Exec catalog t s (.selectOffer issuerId) (.ok none) s
  | now : Exec catalog t s .now (.ok s.clock.toNat) s
  | selectInvreq (key : Key) : Exec catalog t s (.selectInvreq key) (.ok (s.invreqs key)) s
  | selectInvoice (id : Nat) : Exec catalog t s (.selectInvoice id) (.ok (s.invoices id)) s
  | minted (amountMsat numHops : Nat) (result : BlindedInvoiceResult P)
    (hnew : ∀ rHash ∈ result.rHash, ∀ e ∈ s.ledger, e.rHash ≠ some rHash) :
    Exec catalog t s (.addBlindedInvoice amountMsat numHops) (.ok (some result, none)) (s.mint result.rHash t)
  | refused (amountMsat numHops : Nat) (answer : Option (BlindedInvoiceResult P) × Option String)
    (h : Responder.minted answer = none) : Exec catalog t s (.addBlindedInvoice amountMsat numHops) (.ok answer) s
  -- The answer is an error or is lost, and the invoice was added all the same.
  | unnoticed (amountMsat numHops : Nat) (r : Except Failure (Option (BlindedInvoiceResult P) × Option String))
    (h : ∀ answer, r = .ok answer → Responder.minted answer = none) (rHash : Option String) :
    Exec catalog t s (.addBlindedInvoice amountMsat numHops) r (s.mint rHash t)
  | postprocessPaths (paths paths' : List P) (amountMsat : Nat) :
    Exec catalog t s (.postprocessPaths paths amountMsat) (.ok paths') s
  | allIntrosOpen (paths : List P) (answer : Bool) : Exec catalog t s (.allIntrosOpen paths) (.ok answer) s
  | generateSigner (signer : Signer) : Exec catalog t s .generateSigner (.ok signer) s
  | insertRows (key : Key) (row : Bolt12Invoice) (hfree : s.invreqs key = none) :
    Exec catalog t s (.insertRows key row) (.ok ()) (s.insert key row)
  | conflict (key : Key) (row : Bolt12Invoice) (htaken : s.invreqs key ≠ none) :
    Exec catalog t s (.insertRows key row) (.error .integrityError) s
  | cancelled (rHash : String) : Exec catalog t s (.cancelInvoice rHash) (.ok true) (s.close rHash)
  | notCancelled (rHash : String) : Exec catalog t s (.cancelInvoice rHash) (.ok false) s
  | raised (c : Cmd P) : Exec catalog t s c (.error .other) s

inductive Env (s : World T) : World T → Prop
  | clock (n : UInt64) : Env s { s with clock := n }
  | mark (id : Nat) (status : Bolt12InvoiceStatus) : Env s (s.mark id status)
  | close (rHash : String) : Env s (s.close rHash)
  | purgeInvoice (id : Nat) : Env s { s with invoices := Function.update s.invoices id none }
  | purgeInvreq (key : Key) : Env s { s with invreqs := Function.update s.invreqs key none }

def inbound (P T : Type) (catalog : Catalog) : Machine T (Cmd P) Reply Failure (World T) where
  exec t c s r s' := Exec catalog t s c r s'
  env := Env

/-! ## Rows -/

/-- Ids are given out once, and a row that is there keeps its text and its hash. -/
structure Later (s s' : World T) : Prop where
  nextId : s.nextId ≤ s'.nextId
  rows : ∀ id < s.nextId, ∀ row', s'.invoices id = some row' → ∃ row, s.invoices id = some row ∧
    row'.invoiceBolt12 = row.invoiceBolt12 ∧ row'.paymentHashHex = row.paymentHashHex ∧ row'.expiry = row.expiry

lemma later_of_invoices {s s' : World T} (hid : s'.nextId = s.nextId) (h : s'.invoices = s.invoices) : Later s s' where
  nextId := hid.ge
  rows _ _ row' hr := ⟨row', h ▸ hr, rfl, rfl, rfl⟩

lemma Exec.later {catalog : Catalog} {t : T} {s s' : World T} {c : Cmd P} {r : Except Failure (Reply c)}
    (h : Exec catalog t s c r s') : Later s s' := by
  cases h with
  | insertRows key row hf =>
    refine ⟨Nat.le_succ _, fun id hid row' hr => ⟨row', ?_, rfl, rfl, rfl⟩⟩
    simpa [World.insert, hid.ne] using hr
  | _ => exact later_of_invoices rfl rfl

lemma Env.later {s s' : World T} (h : Env s s') : Later s s' := by
  cases h with
  | mark id status =>
    refine ⟨le_rfl, fun i _ row' hr => ?_⟩
    by_cases hi : i = id
    · obtain ⟨row, hr', rfl⟩ : ∃ row, s.invoices i = some row ∧ { row with status } = row' := by
        simpa [World.mark, hi] using hr
      exact ⟨row, hr', rfl, rfl, rfl⟩
    · exact ⟨row', by simpa [World.mark, hi] using hr, rfl, rfl, rfl⟩
  | purgeInvoice id =>
    refine ⟨le_rfl, fun i _ row' hr => ⟨row', ?_, rfl, rfl, rfl⟩⟩
    by_cases hi : i = id
    · simp [hi] at hr
    · simpa [hi] using hr
  | _ => exact later_of_invoices rfl rfl

/-! ## Requests -/

def inboundRequests (host : Host P) (requests : T → String × Bytes) (t : T) : Code P (Option Bytes) :=
  respondToInvreq host (requests t).1 (requests t).2

/-- The request holds `records`, and belongs to the row under `key` with `amount`. -/
def Resolved (host : Host P) (catalog : Catalog) (payload : Bytes) (records : List TLVRecord) (key : Key)
    (amount : Nat) : Prop :=
  ∃ invreq metadataHex, parseInvreq host payload = .ok (records, invreq) ∧
    invreqIdempotencyKey host invreq = .ok metadataHex ∧
    ((invreq.offer.issuerId = none ∧ key = ⟨DASHBOARD_KEY_ID, metadataHex⟩ ∧ invreq.amount = some amount) ∨
      ∃ issuerId offer, invreq.offer.issuerId = some issuerId ∧ catalog issuerId = some offer ∧
        key = ⟨offer.apiKeyId, metadataHex⟩ ∧ resolveAmount invreq offer = some amount)

lemma parseInvreq_ok {payload : Bytes} {records : List TLVRecord} {invreq : InvoiceRequest}
    (h : parseInvreq host payload = .ok (records, invreq)) :
    decodeStream payload host.settings.caps = .ok records ∧ Ascending records ∧
      InvoiceRequest.parse ⟨.lnr, records⟩ = .ok invreq := by
  simp only [parseInvreq, bind_eq_ok, pure_eq_ok, Prod.mk.injEq] at h
  obtain ⟨_, hd, _, hp, rfl, rfl⟩ := h
  exact ⟨hd, (decodeStream_ok hd).1.1, hp⟩

end AgentWallet.Bolt12.Responder
