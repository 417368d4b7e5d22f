import AgentWallet.Bolt12.Merkle
/-!
# Typed messages

The field codec of the three BOLT 12 messages. `parse` reads a record list into
a typed value, one field for each record type it knows; `toRecords` writes the
fields back, adds the records of unknown type and sorts. Each message lists its
fields in `pieces`, one entry for each field in the order the source writes
them.
-/

namespace AgentWallet.Bolt12

open AgentWallet.Lib

/-! ## TLV numbers -/

abbrev OFFER_CHAINS : Nat := 2
abbrev OFFER_METADATA : Nat := 4
abbrev OFFER_CURRENCY : Nat := 6
abbrev OFFER_AMOUNT : Nat := 8
abbrev OFFER_DESCRIPTION : Nat := 10
abbrev OFFER_FEATURES : Nat := 12
abbrev OFFER_ABSOLUTE_EXPIRY : Nat := 14
abbrev OFFER_PATHS : Nat := 16
abbrev OFFER_ISSUER : Nat := 18
abbrev OFFER_QUANTITY_MAX : Nat := 20
abbrev OFFER_ISSUER_ID : Nat := 22

abbrev INVREQ_METADATA : Nat := 0
abbrev INVREQ_CHAIN : Nat := 80
abbrev INVREQ_AMOUNT : Nat := 82
abbrev INVREQ_FEATURES : Nat := 84
abbrev INVREQ_QUANTITY : Nat := 86
abbrev INVREQ_PAYER_ID : Nat := 88
abbrev INVREQ_PAYER_NOTE : Nat := 89
abbrev INVREQ_PAYS_PATHS : Nat := 90
abbrev INVREQ_BIP353_NAME : Nat := 91

abbrev INVOICE_PATHS : Nat := 160
abbrev INVOICE_BLINDEDPAY : Nat := 162
abbrev INVOICE_CREATED_AT : Nat := 164
abbrev INVOICE_RELATIVE_EXPIRY : Nat := 166
abbrev INVOICE_PAYMENT_HASH : Nat := 168
abbrev INVOICE_AMOUNT : Nat := 170
abbrev INVOICE_FALLBACKS : Nat := 172
abbrev INVOICE_FEATURES : Nat := 174
abbrev INVOICE_NODE_ID : Nat := 176

abbrev SIGNATURE : Nat := 240

/-- The types below `bound`: the source's `OFFER_RANGE` (80), `INVREQ_RANGE`
(160) and `INVOICE_RANGE` (240). -/
def inRange (bound t : Nat) : Bool := t < bound

abbrev OFFER_RANGE : Nat := 80
abbrev INVREQ_RANGE : Nat := 160
abbrev INVOICE_RANGE : Nat := 240

/-! ## Primitive codecs -/

def encodeTu64 (n : Nat) : Bytes := if n = 0 then [] else toBE ((n.size + 7) / 8) n

def decodeTu64 (data : Bytes) : Except Exn Nat := do
  raiseIf (data.length > 8) (.bolt12FormatError "tu64: value exceeds 8 bytes")
  raiseIf (data.head? = some 0) (.bolt12FormatError "tu64: leading zero byte not allowed")
  return ofBE data

def encodeTu32 (n : Nat) : Except Exn Bytes :=
  if n > 0xFFFFFFFF then .error (.valueError "tu32 out of range") else .ok (encodeTu64 n)

def decodeTu32 (data : Bytes) : Except Exn Nat := do
  raiseIf (data.length > 4) (.bolt12FormatError "tu32: value exceeds 4 bytes")
  decodeTu64 data

def checkPoint (name : String) (value : Bytes) : Except Exn Unit := do
  raiseIf (value.length ≠ 33) (.bolt12FormatError s!"{name}: must be a 33-byte compressed pubkey")
  raiseIf (value.head? ≠ some 2 ∧ value.head? ≠ some 3)
    (.bolt12FormatError s!"{name}: invalid compressed-pubkey prefix")

def checkChainHash (name : String) (value : Bytes) : Except Exn Unit :=
  raiseIf (value.length ≠ 32) (.bolt12FormatError s!"{name}: must be a 32-byte chain hash")

/-- `v.decode("ascii")`. -/
def decodeAscii (v : Bytes) : Except Exn String :=
  if v.all (· < 128) then .ok (String.ofList (v.map fun b => Char.ofNat b.toNat)) else .error .unicodeDecodeError

/-- `s.encode("ascii")`. -/
def encodeAscii (s : String) : Except Exn Bytes :=
  if s.toList.all (·.toNat < 128) then .ok (s.toList.map fun c => UInt8.ofNat c.toNat)
  else .error .unicodeEncodeError

/-- `v.decode("utf-8")`. -/
def decodeUtf8 (v : Bytes) : Except Exn String :=
  match String.fromUTF8? ⟨v.toArray⟩ with
  | some s => .ok s
  | none => .error .unicodeDecodeError

def chunks32 (v : Bytes) : List Bytes := (List.range ((v.length + 31) / 32)).map fun i => slice v (32 * i) (32 * i + 32)

/-! ## Records of a message -/

/-- The adjacent-duplicate check of `_sort_and_check`. -/
def checkDuplicates : List TLVRecord → Except Exn Unit
  | r :: s :: rest => do
    let t := s.type
    raiseIf (s.type = r.type) (.bolt12FormatError s!"duplicate TLV type {t}")
    checkDuplicates (s :: rest)
  | _ => .ok ()

def sortAndCheck (recs : List TLVRecord) : Except Exn (List TLVRecord) := do
  let out := recs.mergeSort fun r s => r.type ≤ s.type
  checkDuplicates out
  return out

def optRecord {α : Type} (t : Nat) (field : Option α) (enc : α → Except Exn Bytes) : Except Exn (List TLVRecord) :=
  match field with
  | none => .ok []
  | some x => do
    let v ← enc x
    return [⟨t, v⟩]

abbrev Pieces := List (Except Exn (List TLVRecord))

def Pieces.concat (pieces : Pieces) : Except Exn (List TLVRecord) := do
  let recs ← pieces.mapM id
  return recs.flatten

/-! ## Offer -/

structure Offer where
  chains : List Bytes := []
  metadata : Option Bytes := none
  currency : Option String := none
  amount : Option Nat := none
  description : Option String := none
  features : Option Bytes := none
  absoluteExpiry : Option Nat := none
  paths : Option Bytes := none
  issuer : Option String := none
  quantityMax : Option Nat := none
  issuerId : Option Bytes := none
  unknownRecords : List TLVRecord := []
  deriving DecidableEq, Repr

namespace Offer

/-- The loop body of `_from_records`. -/
def addRecord (allowedRange : Nat) (o : Offer) (r : TLVRecord) : Except Exn Offer :=
  let t := r.type
  let v := r.value
  if t = OFFER_CHAINS then do
    raiseIf (v.length % 32 ≠ 0) (.bolt12FormatError "offer_chains: length not a multiple of 32")
    return { o with chains := chunks32 v }
  else if t = OFFER_METADATA then .ok { o with metadata := some v }
  else if t = OFFER_CURRENCY then do
    let x ← decodeAscii v
    return { o with currency := some x }
  else if t = OFFER_AMOUNT then do
    let x ← decodeTu64 v
    return { o with amount := some x }
  else if t = OFFER_DESCRIPTION then do
    let x ← decodeUtf8 v
    return { o with description := some x }
  else if t = OFFER_FEATURES then .ok { o with features := some v }
  else if t = OFFER_ABSOLUTE_EXPIRY then do
    let x ← decodeTu64 v
    return { o with absoluteExpiry := some x }
  else if t = OFFER_PATHS then .ok { o with paths := some v }
  else if t = OFFER_ISSUER then do
    let x ← decodeUtf8 v
    return { o with issuer := some x }
  else if t = OFFER_QUANTITY_MAX then do
    let x ← decodeTu64 v
    return { o with quantityMax := some x }
  else if t = OFFER_ISSUER_ID then do
    checkPoint "offer_issuer_id" v
    return { o with issuerId := some v }
  else if inRange allowedRange t || isSignatureType t then
    .ok { o with unknownRecords := o.unknownRecords ++ [r] }
  else .error (.bolt12FormatError s!"unexpected TLV type {t} for Offer")

def fromRecords (records : List TLVRecord) (allowedRange : Nat) : Except Exn Offer :=
  records.foldlM (addRecord allowedRange) {}

def pieces (o : Offer) : Pieces := [
  .ok (if o.chains = [] then [] else [⟨OFFER_CHAINS, o.chains.flatten⟩]),
  optRecord OFFER_METADATA o.metadata .ok,
  optRecord OFFER_CURRENCY o.currency encodeAscii,
  optRecord OFFER_AMOUNT o.amount fun n => .ok (encodeTu64 n),
  optRecord OFFER_DESCRIPTION o.description fun s => .ok (utf8 s),
  optRecord OFFER_FEATURES o.features .ok,
  optRecord OFFER_ABSOLUTE_EXPIRY o.absoluteExpiry fun n => .ok (encodeTu64 n),
  optRecord OFFER_PATHS o.paths .ok,
  optRecord OFFER_ISSUER o.issuer fun s => .ok (utf8 s),
  optRecord OFFER_QUANTITY_MAX o.quantityMax fun n => .ok (encodeTu64 n),
  optRecord OFFER_ISSUER_ID o.issuerId fun v => do
    checkPoint "offer_issuer_id" v
    return v]

def toRecords (o : Offer) : Except Exn (List TLVRecord) := do
  let recs ← o.pieces.concat
  sortAndCheck (recs ++ o.unknownRecords)

end Offer

/-! ## Framing -/

inductive Hrp
  | lno
  | lnr
  | lni
  deriving DecidableEq, Repr

namespace Hrp

def text : Hrp → String
  | lno => "lno"
  | lnr => "lnr"
  | lni => "lni"

def messageName : Hrp → String
  | lno => "offer"
  | lnr => "invoice_request"
  | lni => "invoice"

end Hrp

structure Bolt12String where
  hrp : Hrp
  records : List TLVRecord

def Bolt12String.signatureDigest (sha256 : Bytes → Bytes) (b12 : Bolt12String) : Except Exn Bytes := do
  let root ← merkleRoot sha256 b12.records
  signatureMessageHash sha256 b12.hrp.messageName "signature" root

/-- The `hrp` check at the head of each `parse`. -/
def checkHrp (cls : String) (want got : Hrp) : Except Exn Unit :=
  let w := want.text
  let g := got.text
  raiseIf (got ≠ want) (.bolt12FormatError s!"{cls}.parse: expected hrp '{w}', got '{g}'")

def Offer.parse (b12 : Bolt12String) : Except Exn Offer := do
  checkHrp "Offer" .lno b12.hrp
  Offer.fromRecords b12.records OFFER_RANGE

/-! ## InvoiceRequest -/

structure InvoiceRequest where
  offer : Offer
  metadata : Option Bytes := none
  chain : Option Bytes := none
  amount : Option Nat := none
  features : Option Bytes := none
  quantity : Option Nat := none
  payerId : Option Bytes := none
  payerNote : Option String := none
  paths : Option Bytes := none
  bip353Name : Option Bytes := none
  signature : Option Bytes := none
  unknownRecords : List TLVRecord := []
  deriving DecidableEq, Repr

namespace InvoiceRequest

/-- The records of a message, by the layer that parses them. -/
structure Layers where
  offer : List TLVRecord := []
  own : List TLVRecord := []
  signature : Option Bytes := none

/-- The body of the first loop of `parse`. -/
def splitRecord (l : Layers) (r : TLVRecord) : Except Exn Layers :=
  if isSignatureType r.type then
    if r.type = SIGNATURE then do
      raiseIf (r.value.length ≠ 64) (.bolt12FormatError "signature: must be 64 bytes")
      return { l with signature := some r.value }
    else .ok { l with own := l.own ++ [r] }
  else if inRange OFFER_RANGE r.type && r.type != INVREQ_METADATA then .ok { l with offer := l.offer ++ [r] }
  else if inRange INVREQ_RANGE r.type then .ok { l with own := l.own ++ [r] }
  else
    let t := r.type
    .error (.bolt12FormatError s!"unexpected TLV type {t} for InvoiceRequest")

/-- The body of the second loop of `parse`. -/
def addRecord (q : InvoiceRequest) (r : TLVRecord) : Except Exn InvoiceRequest :=
  let t := r.type
  let v := r.value
  if t = INVREQ_METADATA then .ok { q with metadata := some v }
  else if t = INVREQ_CHAIN then do
    checkChainHash "invreq_chain" v
    return { q with chain := some v }
  else if t = INVREQ_AMOUNT then do
    let x ← decodeTu64 v
    return { q with amount := some x }
  else if t = INVREQ_FEATURES then .ok { q with features := some v }
  else if t = INVREQ_QUANTITY then do
    let x ← decodeTu64 v
    return { q with quantity := some x }
  else if t = INVREQ_PAYER_ID then do
    checkPoint "invreq_payer_id" v
    return { q with payerId := some v }
  else if t = INVREQ_PAYER_NOTE then do
    let x ← decodeUtf8 v
    return { q with payerNote := some x }
  else if t = INVREQ_PAYS_PATHS then .ok { q with paths := some v }
  else if t = INVREQ_BIP353_NAME then .ok { q with bip353Name := some v }
  else .ok { q with unknownRecords := q.unknownRecords ++ [r] }

def parse (b12 : Bolt12String) : Except Exn InvoiceRequest := do
  checkHrp "InvoiceRequest" .lnr b12.hrp
  let layers ← b12.records.foldlM splitRecord {}
  let offer ← Offer.fromRecords layers.offer OFFER_RANGE
  layers.own.foldlM addRecord { offer := offer, signature := layers.signature }

/-- An unsigned request that mirrors `offer`. -/
def fromOffer (offer : Offer) (metadata payerId : Bytes) (amount quantity : Option Nat) (payerNote : Option String)
    (chain features paths : Option Bytes) : Except Exn InvoiceRequest := do
  checkPoint "invreq_payer_id" payerId
  match chain with
  | none => pure ()
  | some c => checkChainHash "invreq_chain" c
  return {
    offer := offer
    metadata := some metadata
    chain := chain
    amount := amount
    features := features
    quantity := quantity
    payerId := some payerId
    payerNote := payerNote
    paths := paths }

def pieces (q : InvoiceRequest) : Pieces := [
  optRecord INVREQ_METADATA q.metadata .ok,
  optRecord INVREQ_CHAIN q.chain .ok,
  optRecord INVREQ_AMOUNT q.amount fun n => .ok (encodeTu64 n),
  optRecord INVREQ_FEATURES q.features .ok,
  optRecord INVREQ_QUANTITY q.quantity fun n => .ok (encodeTu64 n),
  optRecord INVREQ_PAYER_ID q.payerId .ok,
  optRecord INVREQ_PAYER_NOTE q.payerNote fun s => .ok (utf8 s),
  optRecord INVREQ_PAYS_PATHS q.paths .ok,
  optRecord INVREQ_BIP353_NAME q.bip353Name .ok]

def signatureRecord (includeSignature : Bool) (signature : Option Bytes) : List TLVRecord :=
  match includeSignature, signature with
  | true, some s => [⟨SIGNATURE, s⟩]
  | _, _ => []

def toRecords (q : InvoiceRequest) (includeSignature : Bool) : Except Exn (List TLVRecord) := do
  let offerRecs ← q.offer.toRecords
  let recs ← q.pieces.concat
  sortAndCheck (offerRecs ++ recs ++ q.unknownRecords ++ signatureRecord includeSignature q.signature)

def signatureDigest (sha256 : Bytes → Bytes) (q : InvoiceRequest) : Except Exn Bytes := do
  let unsigned ← q.toRecords false
  Bolt12String.signatureDigest sha256 ⟨.lnr, unsigned⟩

end InvoiceRequest

/-! ## Invoice -/

structure Invoice where
  invreq : InvoiceRequest
  paths : Option Bytes := none
  blindedpay : Option Bytes := none
  createdAt : Option Nat := none
  relativeExpiry : Option Nat := none
  paymentHash : Option Bytes := none
  amount : Option Nat := none
  fallbacks : Option Bytes := none
  features : Option Bytes := none
  nodeId : Option Bytes := none
  signature : Option Bytes := none
  unknownRecords : List TLVRecord := []
  deriving DecidableEq, Repr

namespace Invoice

structure Layers where
  offer : List TLVRecord := []
  invreq : List TLVRecord := []
  own : List TLVRecord := []
  signature : Option Bytes := none

/-- The body of the first loop of `parse`. -/
def splitRecord (l : Layers) (r : TLVRecord) : Except Exn Layers :=
  if isSignatureType r.type then
    if r.type = SIGNATURE then do
      raiseIf (r.value.length ≠ 64) (.bolt12FormatError "signature: must be 64 bytes")
      return { l with signature := some r.value }
    else .ok { l with own := l.own ++ [r] }
  else if inRange OFFER_RANGE r.type && r.type != INVREQ_METADATA then .ok { l with offer := l.offer ++ [r] }
  else if inRange INVREQ_RANGE r.type then .ok { l with invreq := l.invreq ++ [r] }
  else if inRange INVOICE_RANGE r.type then .ok { l with own := l.own ++ [r] }
  else
    let t := r.type
    .error (.bolt12FormatError s!"unexpected TLV type {t} for Invoice")

/-- The body of the second loop of `parse`. -/
def addRecord (i : Invoice) (r : TLVRecord) : Except Exn Invoice :=
  let t := r.type
  let v := r.value
  if t = INVOICE_PATHS then .ok { i with paths := some v }
  else if t = INVOICE_BLINDEDPAY then .ok { i with blindedpay := some v }
  else if t = INVOICE_CREATED_AT then do
    let x ← decodeTu64 v
    return { i with createdAt := some x }
  else if t = INVOICE_RELATIVE_EXPIRY then do
    let x ← decodeTu32 v
    return { i with relativeExpiry := some x }
  else if t = INVOICE_PAYMENT_HASH then do
    raiseIf (v.length ≠ 32) (.bolt12FormatError "invoice_payment_hash: must be 32 bytes")
    return { i with paymentHash := some v }
  else if t = INVOICE_AMOUNT then do
    let x ← decodeTu64 v
    return { i with amount := some x }
  else if t = INVOICE_FALLBACKS then .ok { i with fallbacks := some v }
  else if t = INVOICE_FEATURES then .ok { i with features := some v }
  else if t = INVOICE_NODE_ID then do
    checkPoint "invoice_node_id" v
    return { i with nodeId := some v }
  else .ok { i with unknownRecords := i.unknownRecords ++ [r] }

/-- The lower two layers are parsed by delegation: the offer's records are
written back and parsed again as part of an unsigned invoice request. -/
def parse (b12 : Bolt12String) : Except Exn Invoice := do
  checkHrp "Invoice" .lni b12.hrp
  let layers ← b12.records.foldlM splitRecord {}
  let offer ← Offer.fromRecords layers.offer OFFER_RANGE
  let offerRecs ← offer.toRecords
  let invreq ← InvoiceRequest.parse ⟨.lnr, offerRecs ++ layers.invreq⟩
  layers.own.foldlM addRecord { invreq := invreq, signature := layers.signature }

def pieces (i : Invoice) : Pieces := [
  optRecord INVOICE_PATHS i.paths .ok,
  optRecord INVOICE_BLINDEDPAY i.blindedpay .ok,
  optRecord INVOICE_CREATED_AT i.createdAt fun n => .ok (encodeTu64 n),
  optRecord INVOICE_RELATIVE_EXPIRY i.relativeExpiry encodeTu32,
  optRecord INVOICE_PAYMENT_HASH i.paymentHash .ok,
  optRecord INVOICE_AMOUNT i.amount fun n => .ok (encodeTu64 n),
  optRecord INVOICE_FALLBACKS i.fallbacks .ok,
  optRecord INVOICE_FEATURES i.features .ok,
  optRecord INVOICE_NODE_ID i.nodeId .ok]

def toRecords (i : Invoice) (includeSignature : Bool) : Except Exn (List TLVRecord) := do
  let lower ← i.invreq.toRecords false
  let recs ← i.pieces.concat
  sortAndCheck (lower ++ recs ++ i.unknownRecords ++
    InvoiceRequest.signatureRecord includeSignature i.signature)

def signatureDigest (sha256 : Bytes → Bytes) (i : Invoice) : Except Exn Bytes := do
  let unsigned ← i.toRecords false
  Bolt12String.signatureDigest sha256 ⟨.lni, unsigned⟩

end Invoice

end AgentWallet.Bolt12
