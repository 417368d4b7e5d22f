import Mathlib.Data.List.Basic
/-!
# Text as Python reads it

`str.strip` and `int(text)`, character by character. The values of the decimal
digits outside ASCII are a parameter.
-/

namespace AgentWallet.Lib

/-- The characters that `str.strip` removes. -/
def isSpace (c : Char) : Bool :=
  let n := c.toNat
  (9 ≤ n ∧ n ≤ 13) ∨ (28 ≤ n ∧ n ≤ 32) ∨ n = 0x85 ∨ n = 0xA0 ∨ n = 0x1680 ∨ (0x2000 ≤ n ∧ n ≤ 0x200A) ∨ n = 0x2028 ∨
    n = 0x2029 ∨ n = 0x202F ∨ n = 0x205F ∨ n = 0x3000

def stripBy (space : Char → Bool) (s : List Char) : List Char := ((s.dropWhile space).reverse.dropWhile space).reverse

def strip (s : List Char) : List Char := stripBy isSpace s

/-- The digits in groups of three, the last digit first. -/
def groupThree : List Char → List Char
  | a :: b :: c :: d :: rest => a :: b :: c :: ',' :: groupThree (d :: rest)
  | digits => digits

/-- `{n:,}` -/
def thousands (n : Nat) : String := String.ofList (groupThree (toString n).toList.reverse).reverse

example : thousands 1234567 = "1,234,567" := by decide

def isAscii (c : Char) : Bool := c.toNat < 128

/-- The space that `int` skips in a text of ASCII characters only. -/
def isAsciiSpace (c : Char) : Bool := (9 ≤ c.toNat ∧ c.toNat ≤ 13) ∨ c = ' '

/-- Why a text with other characters cannot be encoded as ASCII. -/
def asciiCodecError (s : List Char) : String :=
  let start := s.findIdx (!isAscii ·)
  let bad := (s.drop start).takeWhile (!isAscii ·)
  let reason := "ordinal not in range(128)"
  match bad with
  | [c] =>
    let digits := Nat.toDigits 16 c.toNat
    let (letter, width) := if c.toNat < 0x100 then ('x', 2) else if c.toNat < 0x10000 then ('u', 4) else ('U', 8)
    "'ascii' codec can't encode character '\\" ++ String.ofList (letter :: (List.replicate (width - digits.length) '0' ++ digits)) ++
      "' in position " ++ toString start ++ ": " ++ reason
  | _ =>
    "'ascii' codec can't encode characters in position " ++ toString start ++ "-" ++ toString (start + bad.length - 1) ++
      ": " ++ reason

section Int

variable (unicodeDigit : Char → Option Nat)

def digitValue (c : Char) : Option Nat :=
  if '0' ≤ c ∧ c ≤ '9' then some (c.toNat - 48) else if isAscii c then none else unicodeDigit c

/-- Digits, with at most one underscore between two of them. -/
def readDigits : List Char → Option (List Nat)
  | [] => none
  | [c] => (digitValue unicodeDigit c).map ([·])
  | c :: d :: rest =>
    if d = '_' then do
      let value ← digitValue unicodeDigit c
      let more ← readDigits rest
      return value :: more
    else do
      let value ← digitValue unicodeDigit c
      let more ← readDigits (d :: rest)
      return value :: more

def MAX_STR_DIGITS : Nat := 4300

def readNat (s : List Char) : Option Nat := do
  let digits ← readDigits unicodeDigit s
  if digits.length > MAX_STR_DIGITS then none else return digits.foldl (fun n d => n * 10 + d) 0

/-- `int(text)`; `none` is a `ValueError`. -/
def readInt (s : List Char) : Option Int :=
  match stripBy (if s.all isAscii then isAsciiSpace else isSpace) s with
  | '-' :: rest => (readNat unicodeDigit rest).map fun n => -(n : Int)
  | '+' :: rest => (readNat unicodeDigit rest).map Int.ofNat
  | rest => (readNat unicodeDigit rest).map Int.ofNat

example : readInt unicodeDigit "0".toList = some 0 := rfl
example : readInt unicodeDigit " -0_0\n".toList = some 0 := rfl
example : readInt unicodeDigit "1__0".toList = none := rfl

end Int

end AgentWallet.Lib
