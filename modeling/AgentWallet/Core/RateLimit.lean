import Mathlib.Algebra.GroupWithZero.Nat
import Mathlib.Algebra.Order.Ring.Rat
import AgentWallet.Lib.SortedSet
import AgentWallet.Lib.Task
/-!
# The payment limits (`rate_limit.py`)

Two sliding windows per API key in Redis: the sats sent and the number of sends.
A check is one Lua script, a roll-back one `ZREM`; in between, other requests run.

Times are rationals, which a float is and on which `now - window` is exact: the
window is a whole number of seconds. Lua's numbers are exact up to `2 ^ 53`,
more than there are sats.
-/

namespace AgentWallet.RateLimit

open AgentWallet.Lib

structure Settings where
  lndRateLimitSats : Int := 100000
  lndRateLimitWindowSeconds : Nat := 3600
  lndVelocityMaxTxns : Int := 5
  lndVelocityWindowSeconds : Nat := 900
  rateLimitFailPolicy : String := "closed"

/-! ## Members -/

structure Hex where
  text : List Char
  length : text.length = 32
deriving DecidableEq

/-- A float of `time.time()` and its `str`. -/
structure Reading where
  value : ℚ
  text : List Char

/-- A member of a set: what is in front of the colon, and the uuid. -/
def member (front : List Char) (uuid : Hex) : String := String.ofList (front ++ ':' :: uuid.text)

def spendMember (amountSats : Nat) (uuid : Hex) : String := member (Nat.toDigits 10 amountSats) uuid

def velocityMember (now : Reading) (uuid : Hex) : String := member now.text uuid

/-- `string.match(m, '^(%d+):')` and `tonumber` -/
def memberAmount (m : String) : Option Nat :=
  let digits := m.toList.takeWhile Char.isDigit
  if digits ≠ [] ∧ (m.toList.drop digits.length).head? = some ':' then some (Nat.ofDigitChars 10 digits 0) else none

/-! ## Redis -/

inductive Key
  | spend (apiKeyId : String)
  | velocity (apiKeyId : String)
deriving DecidableEq

def Key.text : Key → String
  | .spend apiKeyId => "lwa:spend:" ++ apiKeyId
  | .velocity apiKeyId => "lwa:velocity:" ++ apiKeyId

/-- The sorted set under a key, and when the key expires. -/
structure Stored where
  set : ZSet String ℚ := .empty
  expireAt : Option ℚ := none

namespace Stored

/-- A key whose set is empty is gone, and its expiry with it. -/
def normal (k : Stored) : Stored := if k.set.entries = [] then {} else k

def zrem (k : Stored) (m : String) : Stored := normal { k with set := k.set.zrem m }

def zremrangebyscore (k : Stored) (max : ℚ) : Stored := normal { k with set := k.set.zremrangebyscore max }

def zadd (k : Stored) (score : ℚ) (m : String) : Stored := { k with set := k.set.zadd score m }

def live (k : Stored) (now : ℚ) : Stored := if ∃ d ∈ k.expireAt, d ≤ now then {} else k

end Stored

/-- Lua's `tostring` of a whole number, in the format `%.14g`. -/
def tostring (n : Nat) : String :=
  if n < 10 ^ 14 then toString n
  else
    let e := (Nat.toDigits 10 n).length - 1
    let unit := 10 ^ (e - 13)
    let q := n / unit
    let rest := n % unit
    -- printf rounds half to even
    let q := if unit < 2 * rest ∨ (2 * rest = unit ∧ q % 2 = 1) then q + 1 else q
    let (q, e) := if q = 10 ^ 14 then (10 ^ 13, e + 1) else (q, e)
    match ((Nat.toDigits 10 q).reverse.dropWhile (· = '0')).reverse with
    | d :: [] => String.ofList (d :: 'e' :: '+' :: Nat.toDigits 10 e)
    | d :: ds => String.ofList (d :: '.' :: ds ++ 'e' :: '+' :: Nat.toDigits 10 e)
    | [] => ""

/-- `_SPEND_CHECK_SCRIPT`: the key after it, and its two answers. -/
def spendCheckScript (k : Stored) (clock windowStart now : ℚ) (amount : Nat) (limit : Int) (member : String) (ttl : Nat) :
    Stored × Int × String :=
  let k := k.zremrangebyscore windowStart
  let total := ((k.set.zrangebyscore windowStart).filterMap memberAmount).sum
  if (total + amount : Int) > limit then (k, 0, tostring total)
  else ({ k.zadd now member with expireAt := some (clock + ttl) }, 1, tostring (total + amount))

def velocityCheckScript (k : Stored) (clock windowStart now : ℚ) (maxTxns : Int) (member : String) (ttl : Nat) :
    Stored × Int × String :=
  let k := k.zremrangebyscore windowStart
  let count := k.set.zcard
  if (count : Int) ≥ maxTxns then (k, 0, tostring count)
  else ({ k.zadd now member with expireAt := some (clock + ttl) }, 1, tostring (count + 1))

def reconcileSpendScript (k : Stored) (oldMember newMember : String) : Stored × Int :=
  match k.set.zscore oldMember with
  | none => (k, 0)
  | some score => ((k.zrem oldMember).zadd score newMember, 1)

/-! ## The functions -/

inductive Cmd
  | time
  | uuid4
  | evalSpend (key : Key) (windowStart now : ℚ) (amount : Nat) (limit : Int) (member : String) (ttl : Nat)
  | evalVelocity (key : Key) (windowStart now : ℚ) (maxTxns : Int) (member : String) (ttl : Nat)
  | evalReconcile (key : Key) (oldMember newMember : String)
  | zrem (key : Key) (member : String)

abbrev Cmd.Reply : Cmd → Type
  | .time => Reading
  | .uuid4 => Hex
  | .evalSpend .. => Int × String
  | .evalVelocity .. => Int × String
  | .evalReconcile .. => Int
  | .zrem .. => Unit

/-- The limiter's code. It raises what Redis raises, with its text. -/
abbrev Code := Task Cmd Cmd.Reply String

/-- `f"{n:,}"` -/
def withCommas (n : Int) : String :=
  let rec group : List Char → List Char
    | a :: b :: c :: d :: rest => a :: b :: c :: ',' :: group (d :: rest)
    | cs => cs
  (if n < 0 then "-" else "") ++ String.ofList (group (Nat.toDigits 10 n.natAbs).reverse).reverse

def unavailable : String := "Rate limiting unavailable — payments temporarily blocked for safety."

variable (settings : Settings) (amountSats : Nat) (apiKeyId : String)

/-- The `except` branch of the two checks. -/
def failPolicy : Code (Bool × Option String × Option String) :=
  if settings.rateLimitFailPolicy = "open" then return (true, none, none)
  else return (false, some unavailable, none)

def checkSpendLimit :
    Code (Bool × Option String × Option String) :=
  let limit := settings.lndRateLimitSats
  if limit ≤ 0 then return (true, none, none)
  else Task.tryExcept (do
    let now : Reading ← Task.call Cmd.time
    let windowStart := now.value - settings.lndRateLimitWindowSeconds
    let uuid : Hex ← Task.call Cmd.uuid4
    let member := spendMember amountSats uuid
    let ttl := settings.lndRateLimitWindowSeconds + 60
    let result : Int × String ← Task.call (Cmd.evalSpend (.spend apiKeyId) windowStart now.value amountSats limit member ttl)
    if result.1 = 1 then return (true, none, some member)
    else
      let windowMins := settings.lndRateLimitWindowSeconds / 60
      return (false, some ("Cumulative spend limit reached. " ++
        "Current window total: " ++ result.2 ++ " sats, " ++
        "requested: " ++ withCommas amountSats ++ " sats, " ++
        "limit: " ++ withCommas limit ++ " sats per " ++ toString windowMins ++ " min window."), none))
    fun _ => failPolicy settings

def checkVelocityLimit : Code (Bool × Option String × Option String) :=
  let maxTxns := settings.lndVelocityMaxTxns
  if maxTxns ≤ 0 then return (true, none, none)
  else Task.tryExcept (do
    let now : Reading ← Task.call Cmd.time
    let windowStart := now.value - settings.lndVelocityWindowSeconds
    let uuid : Hex ← Task.call Cmd.uuid4
    let member := velocityMember now uuid
    let ttl := settings.lndVelocityWindowSeconds + 60
    let result : Int × String ← Task.call (Cmd.evalVelocity (.velocity apiKeyId) windowStart now.value maxTxns member ttl)
    if result.1 = 1 then return (true, none, some member)
    else
      let windowMins := settings.lndVelocityWindowSeconds / 60
      return (false, some ("Transaction velocity limit reached. " ++
        result.2 ++ " transactions in the last " ++ toString windowMins ++ " min " ++
        "(limit: " ++ toString maxTxns ++ ")."), none))
    fun _ => failPolicy settings

def rollbackMember (key : Key) (member : String) : Code Unit :=
  Task.tryExcept (Task.call (Cmd.zrem key member)) fun _ => return ()

/-- `if member: await _rollback_member(key, member)` -/
def rollbackNamed (key : Key) : Option String → Code Unit
  | some member => rollbackMember key member
  | none => return ()

structure Reservation where
  apiKeyId : String
  spendMember : Option String
  velocityMember : Option String
  amountSats : Nat

def checkPaymentLimits :
    Code (Bool × Option String × Option Reservation) := do
  let (allowed, error, spendMember) ← checkSpendLimit settings amountSats apiKeyId
  if !allowed then return (false, error, none)
  else
    let (allowed, error, velocityMember) ← checkVelocityLimit settings apiKeyId
    if !allowed then
      rollbackNamed (.spend apiKeyId) spendMember
      return (false, error, none)
    else return (true, none, some ⟨apiKeyId, spendMember, velocityMember, amountSats⟩)

/-- The reservation comes back as the call leaves it. -/
def reconcileSpendLimit (reservation : Reservation) (actualSats : Int) : Code Reservation :=
  match reservation.spendMember with
  | none => return reservation
  | some old => Task.tryExcept (do
      let uuid : Hex ← Task.call Cmd.uuid4
      let newMember := spendMember (max 0 actualSats).toNat uuid
      let _ ← Task.call (Cmd.evalReconcile (.spend reservation.apiKeyId) old newMember)
      return { reservation with spendMember := some newMember })
      fun _ => return reservation

def rollbackPaymentLimits (reservation : Reservation) : Code Unit := do
  rollbackNamed (.spend reservation.apiKeyId) reservation.spendMember
  rollbackNamed (.velocity reservation.apiKeyId) reservation.velocityMember

end AgentWallet.RateLimit
