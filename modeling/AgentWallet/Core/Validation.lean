import AgentWallet.Lib.Numeral
import AgentWallet.Lib.Polymod
import AgentWallet.Lib.Sha256
import AgentWallet.Bolt12.Bech32
/-!
# Address validation

The check of a destination address before money is sent to it: a pattern for the
configured network, and then the checksum, bech32 or Base58Check. The version
byte of a Base58Check text is not looked at.
-/

namespace AgentWallet.Core.Validation

open AgentWallet.Lib
open AgentWallet.Bolt12 (Bech32.lower Bech32.isAscii Bech32.rfind)

/-- `settings.bitcoin_network` -/
inductive Network
  | bitcoin
  | testnet
  | signet
  | regtest
  | other (name : String)
  deriving DecidableEq, Repr

def Network.text : Network → String
  | .bitcoin => "bitcoin"
  | .testnet => "testnet"
  | .signet => "signet"
  | .regtest => "regtest"
  | .other name => name

/-! ## bech32 and bech32m -/

def BECH32_CHARSET : List Char := Bolt12.Bech32.charset

def BECH32_CONST : ℕ := 1

def BECH32M_CONST : ℕ := 0x2BC830A3

def bech32Polymod (values : List ℕ) : ℕ := Polymod.polymod values

/-- The words of the human-readable part: the high bits, a zero and the low bits. -/
def hrpWords (hrp : List Char) : List ℕ := hrp.map (·.toNat >>> 5) ++ [0] ++ hrp.map (·.toNat &&& 31)

def bech32HrpExpand (hrp : List Char) : List ℕ := hrpWords hrp

def bech32VerifyChecksum (hrp : List Char) (data : List ℕ) : Option ℕ :=
  let polymod := bech32Polymod (bech32HrpExpand hrp ++ data)
  if polymod = BECH32_CONST then some BECH32_CONST
  else if polymod = BECH32M_CONST then some BECH32M_CONST
  else none

/-- One value of the data: `None` when it does not fit. -/
def pushBits (frombits tobits : ℕ) (s : Regroup) (value : ℕ) : Option Regroup :=
  if value >>> frombits ≠ 0 then none else some (s.push frombits tobits value)

def convertbits (data : List ℕ) (frombits tobits : ℕ) (pad : Bool) : Option (List ℕ) :=
  match data.foldlM (pushBits frombits tobits) {} with
  | none => none
  | some s =>
    let maxv := (1 <<< tobits) - 1
    if pad then
      some (if s.bits ≠ 0 then s.out ++ [(s.acc <<< (tobits - s.bits)) &&& maxv] else s.out)
    else if s.bits ≥ frombits ∨ (s.acc <<< (tobits - s.bits)) &&& maxv ≠ 0 then none
    else some s.out

section Case

-- The case of a text that is not ASCII: any functions.
variable (unicodeLower unicodeUpper : List Char → List Char)

def upper (s : List Char) : List Char := if Bech32.isAscii s then s.map Char.toUpper else unicodeUpper s

/-- `addr.lower() != addr and addr.upper() != addr` -/
def mixedCase (addr : List Char) : Bool := Bech32.lower unicodeLower addr ≠ addr ∧ upper unicodeUpper addr ≠ addr

def bech32Decode (addr : List Char) : Option (List Char × List ℕ × ℕ) :=
  if mixedCase unicodeLower unicodeUpper addr then none
  else
    let addr := Bech32.lower unicodeLower addr
    match Bech32.rfind '1' addr with
    | none => none
    | some pos =>
      if pos < 1 ∨ pos + 7 > addr.length ∨ addr.length > 90 then none
      else
        let hrp := addr.take pos
        match (addr.drop (pos + 1)).mapM (BECH32_CHARSET.idxOf? ·) with
        | none => none
        | some data =>
          match bech32VerifyChecksum hrp data with
          | none => none
          | some encoding => some (hrp, data.take (data.length - 6), encoding)

def validateSegwitAddress (hrp addr : List Char) : Bool :=
  match bech32Decode unicodeLower unicodeUpper addr with
  | none => false
  | some (decHrp, data, encoding) =>
    if decHrp ≠ hrp then false
    else
      match data with
      | [] => false
      | witnessVersion :: groups =>
        match convertbits groups 5 8 false with
        | none => false
        | some witnessProgram =>
          let progLen := witnessProgram.length
          if progLen < 2 ∨ progLen > 40 then false
          else if witnessVersion = 0 ∧ progLen ≠ 20 ∧ progLen ≠ 32 then false
          else if witnessVersion = 0 ∧ encoding ≠ BECH32_CONST then false
          else if witnessVersion ≥ 1 ∧ encoding ≠ BECH32M_CONST then false
          else if witnessVersion > 16 then false
          else true

end Case

/-! ## Base58Check -/

def B58_ALPHABET : List Char := ['1', '2', '3', '4', '5', '6', '7', '8', '9', 'A', 'B', 'C', 'D', 'E', 'F', 'G', 'H',
  'J', 'K', 'L', 'M', 'N', 'P', 'Q', 'R', 'S', 'T', 'U', 'V', 'W', 'X', 'Y', 'Z', 'a', 'b', 'c', 'd', 'e', 'f', 'g',
  'h', 'i', 'j', 'k', 'm', 'n', 'o', 'p', 'q', 'r', 's', 't', 'u', 'v', 'w', 'x', 'y', 'z']

def bitLength (n : ℕ) : ℕ := if n = 0 then 0 else n.log2 + 1

/-- `n.to_bytes((n.bit_length() + 7) // 8, "big")` -/
def toBytes (n : ℕ) : Bytes := toBE ((bitLength n + 7) / 8) n

/-- How many `1`s the text begins with. -/
def leadingOnes (s : List Char) : ℕ := (s.takeWhile (· = '1')).length

inductive UnicodeEncodeError
  | ascii
  deriving DecidableEq, Repr

def b58decode (v : List Char) : Except UnicodeEncodeError (Option Bytes) :=
  if v = [] then .ok none
  else if ¬ Bech32.isAscii v then .error .ascii
  else
    match v.mapM (B58_ALPHABET.idxOf? ·) with
    | none => .ok none
    | some indices =>
      let acc := Numeral.value 58 indices
      let body := if acc ≠ 0 then toBytes acc else []
      .ok (some (List.replicate (leadingOnes v) 0 ++ body))

def checksum (payload : Bytes) : Bytes := (Sha256.sha256 (Sha256.sha256 payload)).take 4

def validateBase58check (addr : List Char) : Bool :=
  match b58decode addr with
  | .error _ => false
  | .ok none => false
  | .ok (some raw) =>
    if raw.length ≠ 25 then false
    else raw.drop (raw.length - 4) = checksum (raw.take (raw.length - 4))

/-! ## The patterns -/

/-- `[a-zA-HJ-NP-Z0-9]` -/
def segwitClass (c : Char) : Bool :=
  ('a' ≤ c ∧ c ≤ 'z') ∨ ('A' ≤ c ∧ c ≤ 'H') ∨ ('J' ≤ c ∧ c ≤ 'N') ∨ ('P' ≤ c ∧ c ≤ 'Z') ∨ ('0' ≤ c ∧ c ≤ '9')

/-- `[a-km-zA-HJ-NP-Z1-9]` -/
def base58Class (c : Char) : Bool :=
  ('a' ≤ c ∧ c ≤ 'k') ∨ ('m' ≤ c ∧ c ≤ 'z') ∨ ('A' ≤ c ∧ c ≤ 'H') ∨ ('J' ≤ c ∧ c ≤ 'N') ∨ ('P' ≤ c ∧ c ≤ 'Z') ∨
    ('1' ≤ c ∧ c ≤ '9')

/-- The end of a pattern, `class{lo,hi}$`; `$` also matches before a final newline. -/
def matchesTail (inClass : Char → Bool) (lo hi : ℕ) (tail : List Char) : Bool :=
  let body := if tail.getLast? = some '\n' then tail.dropLast else tail
  body.all inClass && lo ≤ body.length && body.length ≤ hi

/-- `^<start>[a-zA-HJ-NP-Z0-9]{25,87}$` -/
def matchesSegwit (start address : List Char) : Bool :=
  start.isPrefixOf address && matchesTail segwitClass 25 87 (address.drop start.length)

/-- `^[<letters>][a-km-zA-HJ-NP-Z1-9]{25,34}$` -/
def matchesBase58 (letters address : List Char) : Bool :=
  match address with
  | [] => false
  | c :: tail => c ∈ letters && matchesTail base58Class 25 34 tail

/-- What the check of a network uses: the start of its segwit addresses, the first
characters of its other ones, and the two error texts. -/
structure Rules where
  hrp : List Char
  letters : List Char
  badChecksum : String
  badStart : String

def rules : Network → Option Rules
  | .bitcoin => some {
      hrp := ['b', 'c']
      letters := ['1', '3']
      badChecksum := "Invalid Bitcoin mainnet address (bad checksum)"
      badStart := "Invalid Bitcoin mainnet address (must start with bc1, 1, or 3)" }
  | .testnet | .signet => some {
      hrp := ['t', 'b']
      letters := ['m', 'n', '2']
      badChecksum := "Invalid testnet/signet address (bad checksum)"
      badStart := "Invalid testnet/signet address (must start with tb1, m, n, or 2)" }
  | .regtest => some {
      hrp := ['b', 'c', 'r', 't']
      letters := ['m', 'n', '2']
      badChecksum := "Invalid regtest address (bad checksum)"
      badStart := "Invalid regtest address (must start with bcrt1, m, n, or 2)" }
  | .other _ => none

section Case

variable (unicodeLower unicodeUpper : List Char → List Char)

/-- The address, or the text of the `ValueError`. An unknown network accepts every text. -/
def validateBitcoinAddress (network : Network) (address : String) : Except String String :=
  match rules network with
  | none => .ok address
  | some r =>
    let s := address.toList
    if matchesSegwit (r.hrp ++ ['1']) s then
      if validateSegwitAddress unicodeLower unicodeUpper r.hrp s then .ok address else .error r.badChecksum
    else if matchesBase58 r.letters s then
      if validateBase58check s then .ok address else .error r.badChecksum
    else .error r.badStart

end Case

end AgentWallet.Core.Validation
