import AgentWallet.Core.Validation
/-!
# Addresses as scripts

The script an address pays to, from the text of the address. This module has its
own decoders for bech32 and Base58Check; it looks at the version byte and at the
human-readable part where the validation looks at the start of the text.
-/

namespace AgentWallet.Chain.ElectrumProtocol

open AgentWallet.Lib
open AgentWallet.Core.Validation (Network bitLength leadingOnes mixedCase hrpWords checksum UnicodeEncodeError)
open AgentWallet.Bolt12 (Bech32.lower Bech32.rfind Bech32.pyRepr)

def BECH32_CHARSET : List Char := Bolt12.Bech32.charset

def BECH32_CONST : ℕ := 1

def BECH32M_CONST : ℕ := 0x2BC830A3

def polymod (values : List ℕ) : ℕ := Polymod.polymod values

def hrpExpand (hrp : List Char) : List ℕ := hrpWords hrp

def convertbits (data : List ℕ) (frombits tobits : ℕ) (pad : Bool) : Option (List ℕ) :=
  Core.Validation.convertbits data frombits tobits pad

section Case

variable (unicodeLower unicodeUpper : List Char → List Char)

def decodeSegwit (addr : List Char) : Option (List Char × ℕ × Bytes) :=
  if addr = [] then none
  else if mixedCase unicodeLower unicodeUpper addr then none
  else
    let addr := Bech32.lower unicodeLower addr
    if addr.length > 90 ∨ addr.length < 8 then none
    else
      match Bech32.rfind '1' addr with
      | none => none
      | some pos =>
        if pos < 1 ∨ pos + 7 > addr.length then none
        else
          let hrp := addr.take pos
          match (addr.drop (pos + 1)).mapM (BECH32_CHARSET.idxOf? ·) with
          | none => none
          | some data =>
            if data.length < 6 then none
            else
              match data with
              | [] => none
              | witver :: rest =>
                if witver > 16 then none
                else
                  let expectedConst := if witver = 0 then BECH32_CONST else BECH32M_CONST
                  if polymod (hrpExpand hrp ++ witver :: rest) ≠ expectedConst then none
                  else
                    -- `data[1:-6]`: empty when the data is the checksum alone.
                    match convertbits (rest.take (rest.length - 6)) 5 8 false with
                    | none => none
                    | some decoded =>
                      let witprog := decoded.map UInt8.ofNat
                      if witprog.length < 2 ∨ witprog.length > 40 then none
                      else if witver = 0 ∧ witprog.length ≠ 20 ∧ witprog.length ≠ 32 then none
                      else some (hrp, witver, witprog)

end Case

def B58_ALPHABET : List Char := Core.Validation.B58_ALPHABET

def accumulate : ℕ → List Char → Except UnicodeEncodeError (Option ℕ)
  | n, [] => .ok (some n)
  | n, ch :: s =>
    if 128 ≤ ch.toNat then .error .ascii
    else
      match B58_ALPHABET.idxOf? ch with
      | none => .ok none
      | some idx => accumulate (n * 58 + idx) s

def b58Decode (s : List Char) : Except UnicodeEncodeError (Option Bytes) :=
  if s = [] then .ok none
  else do
    match ← accumulate 0 s with
    | none => return none
    | some n =>
      -- `(n.bit_length() + 7) // 8 or 1`
      let width := (bitLength n + 7) / 8
      let full := toBE (if width = 0 then 1 else width) n
      return some (List.replicate (leadingOnes s) 0 ++ full)

def decodeBase58check (addr : List Char) : Except UnicodeEncodeError (Option (UInt8 × Bytes)) := do
  match ← b58Decode addr with
  | none => return none
  | some raw =>
    if raw.length < 5 then return none
    else
      let payload := raw.take (raw.length - 4)
      if checksum payload ≠ raw.drop (raw.length - 4) then return none
      else if payload.length ≠ 21 then return none
      else
        match payload with
        | [] => return none
        | version :: rest => return some (version, rest)

structure Prefixes where
  bech32Hrp : List Char
  p2pkhVersion : UInt8
  p2shVersion : UInt8

def NETWORK_PREFIXES : Network → Option Prefixes
  | .bitcoin => some ⟨['b', 'c'], 0x00, 0x05⟩
  | .testnet => some ⟨['t', 'b'], 0x6F, 0xC4⟩
  | .signet => some ⟨['t', 'b'], 0x6F, 0xC4⟩
  | .regtest => some ⟨['b', 'c', 'r', 't'], 0x6F, 0xC4⟩
  | .other _ => none

/-- A `ValueError`, of which `UnicodeEncodeError` is a kind. -/
inductive ValueError
  | message (text : String)
  | unicode (e : UnicodeEncodeError)
  deriving DecidableEq, Repr

section Case

variable (unicodeLower unicodeUpper : List Char → List Char)

def addressToScriptPubkey (address : String) (network : Network) : Except ValueError Bytes :=
  let s := address.toList
  let name := Bech32.pyRepr network.text.toList
  if s = [] then .error (.message "address must be a non-empty string")
  else
    match NETWORK_PREFIXES network with
    | none => .error (.message s!"unsupported network {name}")
    | some prefixes =>
      match decodeSegwit unicodeLower unicodeUpper s with
      | some (hrp, witver, witprog) =>
        if hrp ≠ prefixes.bech32Hrp then
          let shown := Bech32.pyRepr hrp
          let expected := Bech32.pyRepr prefixes.bech32Hrp
          .error (.message s!"address HRP {shown} does not match network {name} (expected {expected})")
        else
          let opN := if witver = 0 then 0x00 else 0x50 + witver
          .ok ([UInt8.ofNat opN, UInt8.ofNat witprog.length] ++ witprog)
      | none =>
        match decodeBase58check s with
        | .error e => .error (.unicode e)
        | .ok (some (version, payload)) =>
          if version = prefixes.p2pkhVersion then .ok ([0x76, 0xa9, 0x14] ++ payload ++ [0x88, 0xac])
          else if version = prefixes.p2shVersion then .ok ([0xa9, 0x14] ++ payload ++ [0x87])
          else
            let shown := hexdigest [version]
            .error (.message s!"unsupported base58check version 0x{shown} for network {name}")
        | .ok none =>
          let shown := Bech32.pyRepr s
          .error (.message s!"unrecognised address format: {shown}")

end Case

end AgentWallet.Chain.ElectrumProtocol
