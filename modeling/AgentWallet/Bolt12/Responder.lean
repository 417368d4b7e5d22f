import AgentWallet.Lib.Task
import AgentWallet.Bolt12.Signing
import AgentWallet.Bolt12.Written
/-!
# The responder

Answers to inbound invoice requests. A request is parsed and verified, its offer
is looked up, the amount is resolved, and then an invoice is either replayed from
the row stored under the request's key or minted on the node, signed, stored and
returned. The commands are the awaits on the database and on the node, so any
number of requests can be interleaved between them.
-/

namespace AgentWallet.Bolt12

open AgentWallet.Lib

/-! ## Chains -/

/-- The values of `bitcoin_network` that have a chain hash. -/
inductive Network
  | bitcoin
  | mainnet
  | testnet
  | testnet3
  | signet
  | regtest
  deriving DecidableEq, Repr

def MAINNET_CHAIN_HASH : Bytes := [0x6f, 0xe2, 0x8c, 0x0a, 0xb6, 0xf1, 0xb3, 0x72, 0xc1, 0xa6, 0xa2, 0x46, 0xae, 0x63,
  0xf7, 0x4f, 0x93, 0x1e, 0x83, 0x65, 0xe1, 0x5a, 0x08, 0x9c, 0x68, 0xd6, 0x19, 0x00, 0x00, 0x00, 0x00, 0x00]

def TESTNET_CHAIN_HASH : Bytes := [0x43, 0x49, 0x7f, 0xd7, 0xf8, 0x26, 0x95, 0x71, 0x08, 0xf4, 0xa3, 0x0f, 0xd9, 0xce,
  0xc3, 0xae, 0xba, 0x79, 0x97, 0x20, 0x84, 0xe9, 0x0e, 0xad, 0x01, 0xea, 0x33, 0x09, 0x00, 0x00, 0x00, 0x00]

def SIGNET_CHAIN_HASH : Bytes := [0xf6, 0x1e, 0xee, 0x3b, 0x63, 0xa3, 0x80, 0xa4, 0x77, 0xa0, 0x63, 0xaf, 0x32, 0xb2,
  0xbb, 0xc9, 0x7e, 0x9e, 0x0a, 0x82, 0x5b, 0x5d, 0xdf, 0x80, 0xb4, 0x0d, 0x6b, 0x4f, 0x2d, 0xc4, 0xe6, 0xe4]

def REGTEST_CHAIN_HASH : Bytes := [0x06, 0x22, 0x6e, 0x46, 0x11, 0x1a, 0x0b, 0x59, 0xca, 0xaf, 0x12, 0x60, 0x43, 0xeb,
  0x5b, 0xbf, 0x28, 0xc3, 0x4f, 0x3a, 0x5e, 0x33, 0x2a, 0x1f, 0xc7, 0xb2, 0xb7, 0x3c, 0xf1, 0x88, 0x91, 0x0f]

def chainHashFor : Network → Bytes
  | .bitcoin => MAINNET_CHAIN_HASH
  | .mainnet => MAINNET_CHAIN_HASH
  | .testnet => TESTNET_CHAIN_HASH
  | .testnet3 => TESTNET_CHAIN_HASH
  | .signet => SIGNET_CHAIN_HASH
  | .regtest => REGTEST_CHAIN_HASH

lemma length_chainHashFor (network : Network) : (chainHashFor network).length = 32 := by cases network <;> rfl

def acceptsChain (ourNetwork : Network) (invreqChain : Option Bytes) (offerChains : List Bytes) : Bool :=
  let ourHash := chainHashFor ourNetwork
  let chainOk := match invreqChain with
    | none => ourHash = MAINNET_CHAIN_HASH
    | some chain => chain = ourHash
  let offerOk := if offerChains ≠ [] then decide (ourHash ∈ offerChains) else decide (ourHash = MAINNET_CHAIN_HASH)
  chainOk && offerOk

namespace Responder

/-! ## Settings and rows -/

structure Settings where
  maxPayloadBytes : Nat := 65536
  maxTlvRecords : Nat := 512
  maxTlvValueBytes : Nat := 8192
  maxOutboundInvoiceBytes : Nat := 32768
  inboundMaxAmountMsat : Nat := 100000000
  acceptOfferlessInvreqs : Bool := false
  blindedPathMinRealHops : Nat := 2
  adaptiveDepthFallbackEnabled : Bool := true
  bitcoinNetwork : Network := .bitcoin

/-- `settings.x or None`: zero is no cap. -/
def capOf (n : Nat) : Option Nat := if n = 0 then none else some n

def Settings.caps (settings : Settings) : Caps :=
  { maxRecords := capOf settings.maxTlvRecords, maxValueBytes := capOf settings.maxTlvValueBytes }

/-- A row of an offer that is active and not deleted. -/
structure Bolt12Offer where
  apiKeyId : String
  bolt12 : String := ""
  amountMsat : Option Nat := none
  quantityMax : Option Nat := none
  absoluteExpiry : Option Nat := none
  encryptedMetadata : Option String := none
  minRealHopsOverride : Option Nat := none

inductive Bolt12InvoiceStatus
  | OPEN
  | PAID
  | EXPIRED
  | FAILED
  deriving DecidableEq, Repr

structure Bolt12Invoice where
  invoiceBolt12 : String
  amountMsat : Nat
  paymentHashHex : String
  status : Bolt12InvoiceStatus := .OPEN
  expiry : Option Nat := none
  deriving DecidableEq, Repr

/-- The columns of the unique index on inbound requests. -/
structure Key where
  apiKeyId : String
  invreqMetadataHex : String
  deriving DecidableEq, Repr

def DASHBOARD_KEY_ID : String := "00000000-0000-0000-0000-da5b0a4d0000"

/-- `_DEFAULT_INVOICE_EXPIRY`, `_HARD_QUANTITY_MAX`, `_HARD_MAX_INBOUND_AMOUNT_MSAT` -/
def DEFAULT_INVOICE_EXPIRY : Nat := 3600
def HARD_QUANTITY_MAX : Nat := 1000000
def HARD_MAX_INBOUND_AMOUNT_MSAT : Nat := 100000000000

/-- The answer of the node to `AddInvoice`, with paths the caller does not look into. -/
structure BlindedInvoiceResult (P : Type) where
  rHash : Option String
  blindedPaths : List P

/-! ## Amount and quantity -/

def resolveAmount (invreq : InvoiceRequest) (offerRow : Bolt12Offer) : Option Nat :=
  match offerRow.amountMsat with
  | some pinned =>
    let quantity := invreq.quantity.getD 1
    if quantity < 1 then none
    else
      let total := pinned * quantity
      match invreq.amount with
      | some amount => if amount ≠ total then none else some total
      | none => some total
  | none =>
    match invreq.amount with
    | some amount => if amount ≤ 0 then none else some amount
    | none => none

def validateQuantity (invreq : InvoiceRequest) (offerRow : Bolt12Offer) : Bool :=
  match invreq.quantity with
  | none => true
  | some q =>
    if q < 1 then false
    else if q > HARD_QUANTITY_MAX then false
    else
      match offerRow.quantityMax with
      | none => true
      | some qmax => q ≤ qmax

/-! ## Collaborators -/

/-- What the responder calls that is not a database or the node: hashing, the
curve library, lower-casing, the classification of errors, the encoding of the
node's paths and the decryption of an issuer key. -/
structure Host (P : Type) where
  settings : Settings
  sha256 : Bytes → Bytes
  schnorr : Schnorr
  unicodeLower : List Char → List Char
  classifyTorFailure : String → Bool
  encodeInvoicePaths : List P → Option (Bytes × Bytes)
  loadSigner : String → Option Signer

/-- An `IntegrityError`, or any other exception. -/
inductive Failure
  | integrityError
  | other
  deriving DecidableEq, Repr

inductive Cmd (P : Type)
  | checkRate (peerKey : String) (offerKey : Option String)
  | selectOffer (issuerId : Bytes)
  | now
  | selectInvreq (key : Key)
  | selectInvoice (invreqId : Nat)
  | addBlindedInvoice (amountMsat numHops : Nat)
  | postprocessPaths (paths : List P) (amountMsat : Nat)
  | allIntrosOpen (paths : List P)
  | generateSigner
  | insertRows (key : Key) (invoiceRow : Bolt12Invoice)
  | cancelInvoice (rHashHex : String)

def Reply {P : Type} : Cmd P → Type
  | .checkRate _ _ => Bool
  | .selectOffer _ => Option Bolt12Offer
  | .now => Nat
  | .selectInvreq _ => Option Nat
  | .selectInvoice _ => Option Bolt12Invoice
  | .addBlindedInvoice _ _ => Option (BlindedInvoiceResult P) × Option String
  | .postprocessPaths _ _ => List P
  | .allIntrosOpen _ => Bool
  | .generateSigner => Signer
  | .insertRows _ _ => Unit
  | .cancelInvoice _ => Bool

variable {P : Type}

abbrev Code (P α : Type) : Type := Task (Cmd P) Reply Failure α

def call (c : Cmd P) : Code P (Reply c) := Task.call c

/-! ## Replay -/

def expiryPassed (expiry : Option Nat) : Code P Bool :=
  match expiry with
  | none => return false
  | some time => do
    let now : Nat ← call .now
    return decide (time ≤ now)

def invoiceExpired (row : Bolt12Invoice) : Code P Bool :=
  match row.status with
  | .PAID => return false
  | .FAILED => return true
  | .EXPIRED => return true
  | .OPEN => expiryPassed row.expiry

section

variable (host : Host P)

/-- The bytes of a stored invoice; `None` when it does not decode. -/
def replayBytes (row : Bolt12Invoice) : Code P (Option Bytes) :=
  match Codec.decode host.unicodeLower row.invoiceBolt12 {} with
  | .error e => if e.isBolt12Error then return none else .raise .other
  | .ok b12 =>
    match encodeStream b12.records with
    | .ok bytes => return some bytes
    | .error _ => .raise .other

def refetchAndReplay (key : Key) : Code P (Option Bytes) := do
  let priorInvreq : Option Nat ← call (.selectInvreq key)
  match priorInvreq with
  | none => return none
  | some id => do
    let priorInvoice : Option Bolt12Invoice ← call (.selectInvoice id)
    match priorInvoice with
    | none => return none
    | some row => do
      let expired ← invoiceExpired row
      if expired then return none else replayBytes host row

/-! ## Minting -/

def paymentHashOf (result : BlindedInvoiceResult P) : Option Bytes :=
  match result.rHash with
  | none => none
  | some text =>
    match fromHex text with
    | .error _ => none
    | .ok hash => if hash.length ≠ 32 then none else some hash

/-- `result`, unless `err is not None or result is None`. -/
def minted (answer : Option (BlindedInvoiceResult P) × Option String) : Option (BlindedInvoiceResult P) :=
  if answer.2.isSome then none else answer.1

/-- The loop over the attempts, of which `attempts + 1` are left. -/
def addWithRetries (amountMsat numHops : Nat) : Nat → Code P (Option (BlindedInvoiceResult P))
  | 0 => do
    let answer : Option (BlindedInvoiceResult P) × Option String ← call (.addBlindedInvoice amountMsat numHops)
    return minted answer
  | attempts + 1 => do
    let answer : Option (BlindedInvoiceResult P) × Option String ← call (.addBlindedInvoice amountMsat numHops)
    match answer.2 with
    | some err =>
      if host.classifyTorFailure err then addWithRetries amountMsat numHops attempts else return none
    | none => return answer.1

/-- The re-mint with one hop when the node built no path, and whether it was made. -/
def fallbackToOneHop (result : BlindedInvoiceResult P) (amountMsat primaryNumHops : Nat) :
    Code P (Option (BlindedInvoiceResult P) × Bool) :=
  if primaryNumHops > 1 ∧ result.blindedPaths.isEmpty then do
    let answer : Option (BlindedInvoiceResult P) × Option String ← call (.addBlindedInvoice amountMsat 1)
    return (minted answer, true)
  else return (some result, false)

def postprocess (paths : List P) (amountMsat : Nat) : Code P (List P) :=
  if paths.isEmpty then return paths else call (.postprocessPaths paths amountMsat)

/-- The paths and the hash to go on with: those of the other depth when all
introduction nodes of the first are marked open and some of the second are not.
The invoice that is not used is cancelled. -/
def maybeFlipToAltDepth (result : BlindedInvoiceResult P) (lndPaths : List P) (paymentHash : Bytes)
    (primaryNumHops amountMsat : Nat) : Code P (List P × Bytes) :=
  if !host.settings.adaptiveDepthFallbackEnabled || lndPaths.isEmpty then return (lndPaths, paymentHash)
  else do
    let primaryOpen : Bool ← call (.allIntrosOpen lndPaths)
    if !primaryOpen then return (lndPaths, paymentHash)
    else do
      let altDepth := if primaryNumHops = 1 then 2 else 1
      let answer : Option (BlindedInvoiceResult P) × Option String ← call (.addBlindedInvoice amountMsat altDepth)
      match minted answer with
      | none => return (lndPaths, paymentHash)
      | some altResult => do
        let altPaths ← postprocess altResult.blindedPaths amountMsat
        let altOpen : Bool ← if altPaths.isEmpty then (.ret true : Code P Bool) else call (.allIntrosOpen altPaths)
        match if altOpen then none else paymentHashOf altResult with
        | some altPaymentHash => do
          let primaryRHash := result.rHash.getD ""
          if primaryRHash ≠ "" then do
            let _ : Bool ← call (.cancelInvoice primaryRHash)
            return (altPaths, altPaymentHash)
          else return (altPaths, altPaymentHash)
        | none => do
          let altRHash := altResult.rHash.getD ""
          if altRHash ≠ "" then do
            let _ : Bool ← (call (.cancelInvoice altRHash)).tryExcept fun _ => (.ret false : Code P Bool)
            return (lndPaths, paymentHash)
          else return (lndPaths, paymentHash)

/-! ## The invoice -/

def unsignedInvoice (invreq : InvoiceRequest) (paths blindedpay : Bytes) (createdAt : Nat) (paymentHash : Bytes)
    (amountMsat : Nat) (signer : Signer) : Invoice where
  invreq := invreq
  paths := some paths
  blindedpay := some blindedpay
  createdAt := some createdAt
  relativeExpiry := some DEFAULT_INVOICE_EXPIRY
  paymentHash := some paymentHash
  amount := some amountMsat
  nodeId := some signer.publicKey

/-- The signed invoice as the text that is stored and as the bytes that are returned. -/
def encodeInvoice (unsigned : Invoice) (signer : Signer) : Except Exn (String × Bytes) := do
  let signed ← signInvoice host.sha256 unsigned signer
  let records ← signed.toRecords true
  let invoiceBolt12 ← Codec.encode ⟨.lni, records⟩
  let invoiceBytes ← encodeStream records
  return (invoiceBolt12, invoiceBytes)

inductive Persisted
  | stored
  | conflict
  | failed

def persist (key : Key) (invoiceRow : Bolt12Invoice) : Code P Persisted :=
  Task.tryExcept
    (do
      let _ : Unit ← call (.insertRows key invoiceRow)
      return .stored)
    fun
    | .integrityError => return .conflict
    | .other => return .failed

def finish (key : Key) (invreq : InvoiceRequest) (amountMsat : Nat) (paths : Bytes × Bytes) (paymentHash : Bytes)
    (signer : Signer) : Code P (Option Bytes) := do
  let createdAt : Nat ← call .now
  match encodeInvoice host (unsignedInvoice invreq paths.1 paths.2 createdAt paymentHash amountMsat signer) signer with
  | .error _ => return none
  | .ok (invoiceBolt12, invoiceBytes) =>
    if invoiceBytes.length > host.settings.maxOutboundInvoiceBytes then return none
    else do
      let paymentHashHex := hexdigest paymentHash
      let outcome ← persist key { invoiceBolt12, amountMsat, paymentHashHex }
      match outcome with
      | .conflict => do
        let replay ← refetchAndReplay host key
        match replay with
        | some bytes => do
          let _ : Bool ← call (.cancelInvoice paymentHashHex)
          return some bytes
        | none => return some invoiceBytes
      | .stored => return some invoiceBytes
      | .failed => return some invoiceBytes

/-- The amount is within the configured cap and the hard ceiling. -/
def withinCaps (amountMsat : Nat) : Bool :=
  !(host.settings.inboundMaxAmountMsat > 0 && amountMsat > host.settings.inboundMaxAmountMsat) &&
    !(amountMsat > HARD_MAX_INBOUND_AMOUNT_MSAT)

/-! ## Requests -/

def invreqIdempotencyKey (invreq : InvoiceRequest) : Except Exn String :=
  match invreq.metadata with
  | some (b :: bs) => .ok (hexdigest (b :: bs))
  | _ => do
    let digest ← invreq.signatureDigest host.sha256
    return "sd:" ++ hexdigest digest

/-- `x`, where an exception of it is not caught. -/
def attempt {α : Type} (x : Except Exn α) : Code P α :=
  match x with
  | .ok a => .ret a
  | .error _ => .raise .other

/-- From the node's first answer to the reply, for an offer of the wallet. -/
def mintForOffer (key : Key) (invreq : InvoiceRequest) (issuerId : Bytes) (encryptedMetadata : String)
    (amountMsat primaryNumHops : Nat) : Code P (Option Bytes) := do
  let answer ← addWithRetries host amountMsat primaryNumHops 2
  match answer with
  | none => return none
  | some first => do
    let (fallback, fellBack) ← fallbackToOneHop first amountMsat primaryNumHops
    match fallback with
    | none => return none
    | some result =>
      match paymentHashOf result with
      | none => return none
      | some hash =>
        match host.loadSigner encryptedMetadata with
        | none => return none
        | some signer =>
          if signer.publicKey ≠ issuerId then return none
          else do
            let lndPaths ← postprocess result.blindedPaths amountMsat
            let (lndPaths, hash) ←
              if fellBack then (.ret (lndPaths, hash) : Code P (List P × Bytes))
              else maybeFlipToAltDepth host result lndPaths hash primaryNumHops amountMsat
            match host.encodeInvoicePaths lndPaths with
            | none => return none
            | some paths => finish host key invreq amountMsat paths hash signer

def respondToOffer (invreq : InvoiceRequest) (issuerId : Bytes) : Code P (Option Bytes) := do
  let row : Option Bolt12Offer ← call (.selectOffer issuerId)
  match row with
  | none => return none
  | some offerRow =>
    match offerRow.encryptedMetadata with
    | none => return none
    | some encryptedMetadata => do
      let expired ← expiryPassed offerRow.absoluteExpiry
      if expired then return none
      else if !validateQuantity invreq offerRow then return none
      else
        match resolveAmount invreq offerRow with
        | none => return none
        | some amountMsat =>
          if amountMsat ≤ 0 then return none
          else do
            let metadataHex ← attempt (invreqIdempotencyKey host invreq)
            let key : Key := ⟨offerRow.apiKeyId, metadataHex⟩
            let replay ← refetchAndReplay host key
            match replay with
            | some bytes => return some bytes
            | none =>
              if !withinCaps host amountMsat then return none
              else
                let primaryNumHops := match offerRow.minRealHopsOverride with
                  | some n => if n ≥ 1 then n else max 1 host.settings.blindedPathMinRealHops
                  | none => max 1 host.settings.blindedPathMinRealHops
                mintForOffer host key invreq issuerId encryptedMetadata amountMsat primaryNumHops

/-- From the node's first answer to the reply, for a request without an offer. -/
def mintOfferless (key : Key) (invreq : InvoiceRequest) (amountMsat primaryNumHops : Nat) : Code P (Option Bytes) := do
  let answer : Option (BlindedInvoiceResult P) × Option String ← call (.addBlindedInvoice amountMsat primaryNumHops)
  match minted answer with
  | none => return none
  | some first => do
    let (fallback, fellBack) ← fallbackToOneHop first amountMsat primaryNumHops
    match fallback with
    | none => return none
    | some result =>
      match paymentHashOf result with
      | none => return none
      | some hash => do
        let lndPaths ← postprocess result.blindedPaths amountMsat
        let (lndPaths, hash) ←
          if fellBack then (.ret (lndPaths, hash) : Code P (List P × Bytes))
          else maybeFlipToAltDepth host result lndPaths hash primaryNumHops amountMsat
        match host.encodeInvoicePaths lndPaths with
        | none => return none
        | some paths => do
          let signer : Signer ← call .generateSigner
          finish host key invreq amountMsat paths hash signer

def respondToOfferlessInvreq (invreq : InvoiceRequest) : Code P (Option Bytes) :=
  match invreq.amount with
  | none => return none
  | some amountMsat =>
    if amountMsat ≤ 0 then return none
    else if !withinCaps host amountMsat then return none
    else do
      let metadataHex ← attempt (invreqIdempotencyKey host invreq)
      let key : Key := ⟨DASHBOARD_KEY_ID, metadataHex⟩
      let replay ← refetchAndReplay host key
      match replay with
      | some bytes => return some bytes
      | none => mintOfferless host key invreq amountMsat (max 1 host.settings.blindedPathMinRealHops)

def parseInvreq (payload : Bytes) : Except Exn (List TLVRecord × InvoiceRequest) := do
  let records ← decodeStream payload host.settings.caps
  let invreq ← InvoiceRequest.parse ⟨.lnr, records⟩
  return (records, invreq)

def respondToInvreq (recvId : String) (payload : Bytes) : Code P (Option Bytes) :=
  if host.settings.maxPayloadBytes > 0 ∧ payload.length > host.settings.maxPayloadBytes then return none
  else
    match parseInvreq host payload with
    | .error e => if e.isBolt12Error then return none else .raise .other
    | .ok (_, invreq) => do
      let valid ← attempt (verifyInvoiceRequest host.sha256 host.schnorr invreq)
      if !valid then return none
      else if !acceptsChain host.settings.bitcoinNetwork invreq.chain invreq.offer.chains then return none
      else do
        let peerKey := (invreq.payerId.map hexdigest).getD recvId
        let allowed : Bool ← call (.checkRate peerKey (invreq.offer.issuerId.map hexdigest))
        if !allowed then return none
        else
          match invreq.offer.issuerId with
          | none =>
            if !host.settings.acceptOfferlessInvreqs then return none else respondToOfferlessInvreq host invreq
          | some issuerId => respondToOffer host invreq issuerId

end

end Responder

end AgentWallet.Bolt12
