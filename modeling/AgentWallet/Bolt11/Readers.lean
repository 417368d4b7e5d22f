import AgentWallet.Lib.Text
import AgentWallet.Chain.Segwit
/-!
# Two readers of BOLT 11 invoices

`_decode_bolt11_minimal` checks an invoice that an LNURL service has returned: its
case, its checksum, its network and its amount, and reads the tagged fields of which
the last of a kind counts. `payment_hash_from_bolt11` and
`principal_sats_from_bolt11` read the payment hash and the amount of the invoice of
a swap from its text alone. The first payment hash they find is the one they return.
-/

namespace AgentWallet.Bolt11

open AgentWallet.Lib
open AgentWallet.Core.Validation (Network mixedCase bech32Polymod bech32HrpExpand BECH32_CHARSET)
open AgentWallet.Bolt12.Bech32 (lower rfind)

/-- What `str` takes from the Unicode tables for characters beyond ASCII: the case of
a text with such a character, the values of decimal digits, and the other characters
that `isdigit` accepts. White space has no case. -/
structure Unicode where
  lower : List Char → List Char
  upper : List Char → List Char
  digit : Char → Option ℕ
  superscript : Char → Bool
  lower_first : ∀ c s, isSpace c = true → (lower (c :: s)).head? = some c
  lower_last : ∀ c s, isSpace c = true → (lower (s ++ [c])).getLast? = some c

/-- An exception of the reader. `int` raises a `ValueError`. -/
inductive Raised
  | bolt11Error (text : String)
  | valueError
deriving DecidableEq

/-! ## Characters and digits -/

section Digits

variable (u : Unicode)

/-- `\d` of a pattern. -/
def isDecimal (c : Char) : Bool := (digitValue u.digit c).isSome

/-- `text.isdigit()` -/
def isDigits (text : List Char) : Bool :=
  text ≠ [] ∧ text.all fun c => isDecimal u c || (!isAscii c && u.superscript c)

/-- `int(text)` of a text of digits. -/
def intOfDigits (text : List Char) : Option ℕ :=
  (text.mapM (digitValue u.digit)).map fun digits => digits.foldl (fun n d => n * 10 + d) 0

end Digits

/-! ## The reader of LNURL invoices -/

section Minimal

variable (u : Unicode) (network : Network)

def bech32DecodeUnrestricted (s : List Char) : Except Raised (List Char × List ℕ) :=
  if mixedCase u.lower u.upper s then .error (.bolt11Error "mixed case")
  else
    let s := lower u.lower s
    match rfind '1' s with
    | none => .error (.bolt11Error "malformed bech32")
    | some pos =>
      if pos < 1 ∨ pos + 7 > s.length then .error (.bolt11Error "malformed bech32")
      else
        let hrp := s.take pos
        match (s.drop (pos + 1)).mapM (BECH32_CHARSET.idxOf? ·) with
        | none => .error (.bolt11Error "invalid bech32 char")
        | some data =>
          if bech32Polymod (bech32HrpExpand hrp ++ data) ≠ 1 then .error (.bolt11Error "checksum failed")
          else .ok (hrp, data.take (data.length - 6))

/-- One group of `_u5_to_u8`. -/
def u5ToU8Step (s : Regroup) (v : ℕ) : Except Raised Regroup :=
  if v > 31 then .error (.bolt11Error "invalid 5-bit value")
  else
    let acc := (s.acc <<< 5) ||| v
    let bits := s.bits + 5
    if bits ≥ 8 then .ok ⟨acc, bits - 8, s.out ++ [(acc >>> (bits - 8)) &&& 0xFF]⟩ else .ok ⟨acc, bits, s.out⟩

def u5ToU8 (data : List ℕ) : Except Raised Bytes :=
  (data.foldlM u5ToU8Step {}).map fun s => s.out.map UInt8.ofNat

def networkHrpPrefixes : Network → List String
  | .bitcoin => ["bc"]
  | .testnet => ["tb"]
  | .signet => ["tbs", "sb"]
  | .regtest => ["bcrt"]
  | .other _ => []

def networkPrefixOrder : List String := ["bcrt", "tbs", "tb", "bc", "sb"]

def maxBolt11Msat : ℕ := 21000000 * 100000000000

/-- `text.startswith(…)` -/
def startsWith (text : List Char) (start : String) : Bool := start.toList.isPrefixOf text

def networkOf (rest : List Char) : Option String := networkPrefixOrder.find? (startsWith rest)

def validateBolt11Network (hrp : List Char) : Except Raised Unit :=
  let rest := if startsWith hrp "ln" then hrp.drop 2 else hrp
  match networkOf rest with
  | some name =>
    if name ∈ networkHrpPrefixes network then .ok ()
    else .error (.bolt11Error ("BOLT11 network prefix '" ++ name ++ "' does not match configured network '" ++
      network.text ++ "'"))
  | none => .error (.bolt11Error "BOLT11 HRP missing a recognized network prefix")

inductive Multiplier
  | btc
  | milli
  | micro
  | nano
  | pico
deriving DecidableEq

def multiplierOf : Char → Option Multiplier
  | 'm' => some .milli
  | 'u' => some .micro
  | 'n' => some .nano
  | 'p' => some .pico
  | _ => none

/-- The multiplier is the last character, if it is one. -/
def splitMultiplier (rest : List Char) : List Char × Multiplier :=
  match rest.getLast? with
  | none => (rest, .btc)
  | some c =>
    match multiplierOf c with
    | some multiplier => (rest.dropLast, multiplier)
    | none => (rest, .btc)

/-- The amount in millisatoshi. A tenth of one is no amount. -/
def msatOf (value : ℕ) : Multiplier → Option ℕ
  | .btc => some (value * 100000000000)
  | .milli => some (value * 100000000)
  | .micro => some (value * 100000)
  | .nano => some (value * 100)
  | .pico => if value % 10 ≠ 0 then none else some (value / 10)

def parseAmountDigits (digits : List Char) (multiplier : Multiplier) : Except Raised ℕ :=
  if ¬ isDigits u digits then .error (.bolt11Error "invalid amount in HRP")
  else if digits.length > 14 then .error (.bolt11Error "BOLT11 amount has too many digits")
  else
    match intOfDigits u digits with
    | none => .error .valueError
    | some value =>
      match msatOf value multiplier with
      | none => .error (.bolt11Error "p-multiplier amount not a multiple of 10")
      | some msat =>
        if msat > maxBolt11Msat then .error (.bolt11Error "BOLT11 amount exceeds the protocol maximum") else .ok msat

def parseBolt11Amount (hrp : List Char) : Except Raised (Option ℕ) :=
  if ¬ startsWith hrp "ln" then .error (.bolt11Error "HRP missing 'ln' prefix")
  else
    let rest := hrp.drop 2
    let rest := match networkOf rest with
      | some name => rest.drop name.length
      | none => rest
    if rest = [] then .ok none
    else (parseAmountDigits u (splitMultiplier rest).1 (splitMultiplier rest).2).map some

structure Bolt11Decoded where
  timestamp : ℕ
  expirySeconds : ℕ
  amountMsat : Option ℕ
  descriptionHash : Option Bytes
  paymentHashHex : String
deriving DecidableEq

def bigEndian (groups : List ℕ) : ℕ := groups.foldl (fun n v => (n <<< 5) ||| v) 0

structure Fields where
  expirySeconds : ℕ := 3600
  descriptionHash : Option Bytes := none
  paymentHash : Option Bytes := none

def readField (fields : Fields) (tag : ℕ) (payload : List ℕ) : Except Raised Fields :=
  if tag = 1 ∧ payload.length = 52 then (u5ToU8 payload).map fun b => { fields with paymentHash := some (b.take 32) }
  else if tag = 23 ∧ payload.length = 52 then
    (u5ToU8 payload).map fun b => { fields with descriptionHash := some (b.take 32) }
  else if tag = 6 then .ok { fields with expirySeconds := bigEndian payload }
  else .ok fields

def readFields (fields : Fields) : List ℕ → Except Raised Fields
  | tag :: hi :: lo :: rest =>
    let length := (hi <<< 5) ||| lo
    if length > rest.length then .error (.bolt11Error "truncated tagged field")
    else do
      let fields ← readField fields tag (rest.take length)
      readFields fields (rest.drop length)
  | _ => .ok fields
termination_by body => body.length
decreasing_by
  rw [List.length_drop]
  simp only [List.length_cons]
  omega

/-- `data[7:-104]`, of at least 111 groups. -/
def tagged {α : Type} (data : List α) : List α := (data.take (data.length - 104)).drop 7

def decodeBolt11Minimal (invoice : List Char) : Except Raised Bolt11Decoded := do
  let (hrp, data) ← bech32DecodeUnrestricted u invoice
  validateBolt11Network network hrp
  let amountMsat ← parseBolt11Amount u hrp
  if data.length < 7 + 104 then .error (.bolt11Error "payload too short")
  else
    let fields ← readFields {} (tagged data)
    match fields.paymentHash with
    | none => .error (.bolt11Error "missing payment_hash")
    | some paymentHash =>
      .ok ⟨bigEndian (data.take 7), fields.expirySeconds, amountMsat, fields.descriptionHash, hexdigest paymentHash⟩

end Minimal

/-! ## The reader of swap invoices -/

section Swap

variable (u : Unicode)

def to5bit (s : List Char) : List ℕ := (s.mapM (BECH32_CHARSET.idxOf? ·)).getD []

def from5bitBytes (values : List ℕ) : Bytes := (values.foldl (Regroup.push 5 8) {}).out.map UInt8.ofNat

/-- The loop of `payment_hash_from_bolt11`, from a position on. -/
def findPaymentHash : List Char → Option String
  | tag :: hi :: lo :: rest =>
    match BECH32_CHARSET.idxOf? hi, BECH32_CHARSET.idxOf? lo with
    | some high, some low =>
      let count := high * 32 + low
      if count > rest.length then none
      else if tag = 'p' ∧ count = 52 then
        let payload := from5bitBytes (to5bit (rest.take count))
        if payload.length < 32 then none else some (hexdigest (payload.take 32))
      else findPaymentHash (rest.drop count)
    | _, _ => none
  | _ => none
termination_by body => body.length
decreasing_by
  rw [List.length_drop]
  simp only [List.length_cons]
  omega

def paymentHashFromBolt11 (invoice : List Char) : Option String :=
  let inv := lower u.lower (strip invoice)
  if ¬ startsWith inv "ln" then none
  else
    match rfind '1' inv with
    | none => none
    | some pos =>
      let dataPart := inv.drop (pos + 1)
      if dataPart.length < 6 + 7 + 104 then none
      else findPaymentHash (tagged (dataPart.take (dataPart.length - 6)))

/-- `$`: the end, or a line feed at it. -/
def atEnd (s : List Char) : Bool := s = [] ∨ s = ['\n']

/-- `([munp]?)$` -/
def multiplierPattern : List Char → Option Multiplier
  | [] => some .btc
  | c :: rest =>
    match multiplierOf c with
    | some multiplier => if atEnd rest then some multiplier else none
    | none => if atEnd (c :: rest) then some .btc else none

/-- `(\d{1,14})([munp]?)$`. The digits cannot be fewer than there are, as what follows
would be a digit. -/
def amountPattern (s : List Char) : Option (List Char × Multiplier) :=
  let digits := s.takeWhile (isDecimal u)
  if digits = [] ∨ digits.length > 14 then none
  else (multiplierPattern (s.dropWhile (isDecimal u))).map fun multiplier => (digits, multiplier)

/-- `[a-z]+?` before it, as few letters as possible. -/
def lettersPattern : List Char → Option (List Char × Multiplier)
  | [] => none
  | c :: rest =>
    if 'a' ≤ c ∧ c ≤ 'z' then
      match amountPattern u rest with
      | some found => some found
      | none => lettersPattern rest
    else none

def hrpAmountRe (hrp : List Char) : Option (List Char × Multiplier) :=
  if startsWith hrp "ln" then lettersPattern u (hrp.drop 2) else none

def principalSatsFromBolt11 (invoice : List Char) : Option ℕ :=
  let inv := lower u.lower (strip invoice)
  match rfind '1' inv with
  | none => none
  | some pos =>
    match hrpAmountRe u (inv.take pos) with
    | none => none
    | some (digits, multiplier) =>
      match intOfDigits u digits with
      | none => none
      | some value =>
        match msatOf value multiplier with
        | none => none
        | some msat => if msat % 1000 ≠ 0 then none else some (msat / 1000)

end Swap

end AgentWallet.Bolt11
