import Mathlib.Data.List.Sort
import Mathlib.Data.PNat.Defs
import Mathlib.Algebra.Order.Ring.Rat
import AgentWallet.Lib.Json
import AgentWallet.Lib.Lists
import AgentWallet.Lib.Sha256
import AgentWallet.Lib.Task
/-!
# Idempotency keys (`idempotency.py`)

One Redis slot per API key and `Idempotency-Key`. It is empty, or holds the JSON
text of a record: a request in flight, one whose outcome is unknown, or a
response. The reservation and the write of a result are Lua scripts; a release
is a `GET` and then a `DELETE`, with other requests in between.

A slot is modelled by its record, which its text determines (`Json.dumps_inj`);
the store script searches the text (`Record.carriesSentinel`). Redis answers
every command. What a caller awaits besides Redis is the parameter `S`.
-/

namespace AgentWallet.Idempotency

open AgentWallet.Lib

/-! ## Fingerprints -/

mutual

/-- `sort_keys=True`, for the objects at every depth -/
def sortKeys : Json → Json
  | .arr l => .arr (sortKeysList l)
  | .obj items => .obj ((sortKeysItems items).insertionSort fun a b => a.1 ≤ b.1)
  | v => v

def sortKeysList : List Json → List Json
  | [] => []
  | v :: l => sortKeys v :: sortKeysList l

def sortKeysItems : List (String × Json) → List (String × Json)
  | [] => []
  | (k, v) :: items => (k, sortKeys v) :: sortKeysItems items

end

structure Fingerprint where
  text : String
  hex : ∀ c ∈ text.toList, c ∈ hexDigits
deriving DecidableEq

def fingerprint (body : Json) : Fingerprint :=
  ⟨hexdigest (Sha256.sha256 (utf8 (sortKeys body).dumps)), fun _ => mem_hexdigest⟩

/-! ## Records -/

def keyPrefix : String := "agent_wallet:idem:"
def ttlSeconds : ℕ+ := 60 * 60 * 24
def inflightTtl : ℕ+ := 360
def inflightSentinel : String := "__inflight__"

inductive State
  | inflight
  | pending
  | completed
deriving DecidableEq

/-- What a slot holds; `ts` is a reading of `time.time()`. -/
inductive Record
  | inflight (fp : Fingerprint) (ts : FloatText)
  | pending (fp : Fingerprint) (ts : FloatText) (paymentHash : String)
  | completed (fp : Fingerprint) (ts : FloatText) (statusCode : Int) (response : Json)

namespace Record

def state : Record → State
  | inflight _ _ => .inflight
  | pending _ _ _ => .pending
  | completed _ _ _ _ => .completed

def fp : Record → Fingerprint
  | inflight fp _ => fp
  | pending fp _ _ => fp
  | completed fp _ _ _ => fp

def json : Record → Json
  | inflight fp ts =>
    .obj [("state", .str "inflight"), ("sentinel", .str inflightSentinel), ("fp", .str fp.text), ("ts", .float ts)]
  | pending fp ts paymentHash =>
    .obj [("state", .str "pending"), ("sentinel", .str inflightSentinel), ("fp", .str fp.text), ("ts", .float ts),
      ("payment_hash", .str paymentHash)]
  | completed fp ts statusCode response =>
    .obj [("state", .str "completed"), ("fp", .str fp.text), ("ts", .float ts), ("status_code", .int statusCode),
      ("response", response)]

/-- `string.find(existing, ARGV[3], 1, true)` on the text of the slot -/
def carriesSentinel (r : Record) : Bool := decide (inflightSentinel.toList <:+: r.json.dumps.toList)

lemma sentinel_infix_quoted : inflightSentinel.toList <:+: (Json.str inflightSentinel).chars := by decide

@[simp] lemma carriesSentinel_inflight (fp : Fingerprint) (ts : FloatText) :
    (inflight fp ts).carriesSentinel = true := by
  rw [carriesSentinel, decide_eq_true_iff, Json.dumps, String.toList_ofList]
  exact sentinel_infix_quoted.trans (Json.infix_obj (k := "sentinel") (by simp))

@[simp] lemma carriesSentinel_pending (fp : Fingerprint) (ts : FloatText) (paymentHash : String) :
    (pending fp ts paymentHash).carriesSentinel = true := by
  rw [carriesSentinel, decide_eq_true_iff, Json.dumps, String.toList_ofList]
  exact sentinel_infix_quoted.trans (Json.infix_obj (k := "sentinel") (by simp))

end Record

def redisKey (apiKeyId idemKey : String) : String := keyPrefix ++ apiKeyId ++ ":" ++ idemKey

/-! ## Redis -/

structure Entry where
  record : Record
  expireAt : ℚ

structure Redis where
  slots : String → Option Entry
  clock : ℚ

namespace Redis

variable (s : Redis) (key : String)

/-- `SET key record EX ttl` -/
def set (record : Record) (ttl : ℕ+) : Redis :=
  { s with slots := Function.update s.slots key (some ⟨record, s.clock + (ttl : ℕ)⟩) }

def get : Option Record := (s.slots key).map Entry.record

def delete : Redis := { s with slots := Function.update s.slots key none }

/-- `_RESERVE_LUA`: its answer and the store after it. -/
def reserve (marker : Record) (ttl : ℕ+) : Option Record × Redis :=
  match s.get key with
  | some existing => (some existing, s)
  | none => (none, s.set key marker ttl)

/-- Whether `_STORE_LUA` writes. -/
def storable : Bool :=
  match s.get key with
  | some existing => existing.carriesSentinel
  | none => true

def store (payload : Record) (ttl : ℕ+) : Bool × Redis :=
  if s.storable key then (true, s.set key payload ttl) else (false, s)

def advance (now : ℚ) : Redis where
  slots key := (s.slots key).filter fun e => decide (now < e.expireAt)
  clock := now

end Redis

/-! ## Commands -/

inductive Cmd (S : Type)
  | time
  | reserve (key : String) (marker : Record) (ttl : ℕ+)
  | store (key : String) (payload : Record) (ttl : ℕ+)
  | set (key : String) (payload : Record) (ttl : ℕ+)
  | get (key : String)
  | delete (key : String)
  | service (c : S)

/-- An `HTTPException`, or another exception or a cancellation. -/
inductive Exn
  | http (statusCode : Nat) (detail : String)
  | raised
deriving DecidableEq

variable {S T : Type}

def Reply (RS : S → Type) : Cmd S → Type
  | .time => FloatText
  | .reserve _ _ _ => Option Record
  | .store _ _ _ => Bool
  | .set _ _ _ => Unit
  | .get _ => Option Record
  | .delete _ => Unit
  | .service c => RS c

abbrev Code (RS : S → Type) (α : Type) : Type := Task (Cmd S) (Reply RS) Exn α

variable {RS : S → Type}

def call (c : Cmd S) : Code RS (Reply RS c) := Task.call c

/-- A command on Redis. The answer of a service is any, also an exception. -/
def Redis.exec : (c : Cmd S) → Redis → Except Exn (Reply RS c) → Redis → Prop
  | .time, s, r, s' => (∃ ts, r = .ok ts) ∧ s' = s
  | .reserve key marker ttl, s, r, s' => r = .ok (s.reserve key marker ttl).1 ∧ s' = (s.reserve key marker ttl).2
  | .store key payload ttl, s, r, s' => r = .ok (s.store key payload ttl).1 ∧ s' = (s.store key payload ttl).2
  | .set key payload ttl, s, r, s' => r = .ok () ∧ s' = s.set key payload ttl
  | .get key, s, r, s' => r = .ok (s.get key) ∧ s' = s
  | .delete key, s, r, s' => r = .ok () ∧ s' = s.delete key
  | .service _, s, _, s' => s' = s

namespace Redis

variable (s : Redis) (key : String) (record : Record) (ttl : ℕ+)

lemma get_advance (now : ℚ) (key : String) :
    (s.advance now).get key = s.get key ∨ (s.advance now).get key = none := by
  simp only [get, advance]
  cases s.slots key with
  | none => exact .inl rfl
  | some e =>
    by_cases h : now < e.expireAt
    · exact .inl (by simp [h])
    · exact .inr (by simp [not_lt.1 h])

lemma slots_set_of_ne {s : Redis} {key k : String} {record : Record} {ttl : ℕ+} (h : key ≠ k) :
    (s.set k record ttl).slots key = s.slots key :=
  Function.update_of_ne h _ _

lemma slots_reserve {s : Redis} {key k : String} {marker : Record} {ttl : ℕ+} {e : Entry} (h : s.slots key = some e) :
    (s.reserve k marker ttl).2.slots key = some e := by
  unfold reserve
  split
  · exact h
  next hk =>
  have hne : key ≠ k := by
    rintro rfl
    simp [Redis.get, h] at hk
  rw [slots_set_of_ne hne, h]

lemma slots_store {s : Redis} {key k : String} {payload : Record} {ttl : ℕ+} {e : Entry} (h : s.slots key = some e)
    (he : e.record.carriesSentinel = false) : (s.store k payload ttl).2.slots key = some e := by
  unfold store
  split
  · next hk =>
    have hne : key ≠ k := by
      rintro rfl
      simp [storable, Redis.get, h, he] at hk
    rw [slots_set_of_ne hne, h]
  · exact h

lemma clock_exec {c : Cmd S} {s s' : Redis} {r : Except Exn (Reply RS c)} (h : exec c s r s') :
    s'.clock = s.clock := by
  cases c with
  | time | get k => rw [h.2]
  | reserve k marker ttl =>
    rw [h.2, reserve]
    split <;> rfl
  | store k payload ttl =>
    rw [h.2, store]
    split <;> rfl
  | set k payload ttl | delete k => rw [h.2]; rfl
  | service c => rw [show s' = s from h]

end Redis

/-! ## The functions -/

def differentBody : String :=
  "Idempotency-Key reused with a different request body. Use a fresh UUID for a new request."

def stillInFlight : String :=
  "A request with this Idempotency-Key is still in flight; wait for the prior response or retry later."

/-- What `lookup_or_reserve` makes of a slot that was there. -/
def answerStored (stored : Record) (fp : Fingerprint) : Except Exn (Option Json) :=
  if stored.fp ≠ fp then .error (.http 409 differentBody)
  else
    match stored with
    | .inflight _ _ => .error (.http 409 stillInFlight)
    | .pending _ _ _ => .error (.http 409 stillInFlight)
    | .completed _ _ _ .null => .ok none
    | .completed _ _ _ response => .ok (some response)

variable (apiKeyId idemKey : String) (requestBody : Json)

/-- `None` when the slot was reserved, or the stored response. -/
def lookupOrReserve (ttl : ℕ+ := inflightTtl) :
    Code RS (Option Json) := do
  let fp := fingerprint requestBody
  let ts : FloatText ← call .time
  let raw : Option Record ←
    (call (.reserve (redisKey apiKeyId idemKey) (.inflight fp ts) ttl)).tryExcept fun _ =>
      .raise (.http 503 "Idempotency backend unavailable — please retry.")
  match raw with
  | none => return none
  | some stored => .result (answerStored stored fp)

def storeResult (requestBody response : Json) (statusCode : Int := 200) : Code RS Unit :=
  Task.tryExcept
    (do
      let key := redisKey apiKeyId idemKey
      let ts : FloatText ← call .time
      let payload := Record.completed (fingerprint requestBody) ts statusCode response
      Task.tryExcept
        (do
          let _ : Bool ← call (.store key payload ttlSeconds)
          return ())
        fun _ => call (.set key payload ttlSeconds))
    fun _ => return ()

/-- Deletes the slot if its record is in the state. -/
def releaseState (state : State) (apiKeyId idemKey : String) : Code RS Unit :=
  Task.tryExcept
    (do
      let key := redisKey apiKeyId idemKey
      let stored : Option Record ← call (.get key)
      if stored.map Record.state = some state then call (.delete key) else return ())
    fun _ => return ()

def releaseInflight : Code RS Unit := releaseState .inflight apiKeyId idemKey

def peek : Code RS (Option Record) :=
  Task.tryExcept (call (.get (redisKey apiKeyId idemKey))) fun _ => return none

def markPending (paymentHash : String) (ttl : ℕ+ := ttlSeconds) :
    Code RS Unit :=
  Task.tryExcept
    (do
      let ts : FloatText ← call .time
      let payload := Record.pending (fingerprint requestBody) ts paymentHash
      let _ : Bool ← call (.store (redisKey apiKeyId idemKey) payload ttl)
      return ())
    fun _ => return ()

def releasePending : Code RS Unit := releaseState .pending apiKeyId idemKey

/-! ## Callers -/

inductive Call
  | lookupOrReserve (requestBody : Json) (ttl : ℕ+)
  | storeResult (requestBody response : Json) (statusCode : Int)
  | markPending (requestBody : Json) (paymentHash : String) (ttl : ℕ+)
  | releaseInflight
  | releasePending

def Call.code : Call → Code RS Unit
  | .lookupOrReserve requestBody ttl => do
    let _ ← Idempotency.lookupOrReserve apiKeyId idemKey requestBody ttl
    return ()
  | .storeResult requestBody response statusCode =>
    Idempotency.storeResult apiKeyId idemKey requestBody response statusCode
  | .markPending requestBody paymentHash ttl => Idempotency.markPending apiKeyId idemKey requestBody paymentHash ttl
  | .releaseInflight => Idempotency.releaseInflight apiKeyId idemKey
  | .releasePending => Idempotency.releasePending apiKeyId idemKey

/-- Callers on one Redis, while time passes. -/
def machine : Machine T (Cmd S) (Reply RS) Exn Redis where
  exec _ := Redis.exec
  env s s' := ∃ now, s.clock ≤ now ∧ s' = s.advance now

/-- `0.0`, a reading of the clock in a run. -/
def startOfTime : FloatText := ⟨['0', '.', '0'], by decide, by decide⟩

/-! ## Rules for the functions

From what is known of the commands they issue. -/

section Rules

variable {σ : Type} {M : Machine T (Cmd S) (Reply RS) Exn σ} {P : Protocol M} {t : T} {A B : σ → Prop}
  {apiKeyId idemKey : String} {requestBody : Json}

section

variable (htime : P.Safe t (Returns fun _ => A) (call .time) A)
include htime

lemma lookupOrReserve_safe {Q : Except Exn (Option Json) → σ → Prop} {K : Option Record → σ → Prop} {ttl : ℕ+}
    (hr : ∀ ts, P.Safe t (Returns K)
      (call (.reserve (redisKey apiKeyId idemKey) (.inflight (fingerprint requestBody) ts) ttl)) A)
    (hn : ∀ s, P.inv s → K none s → Q (.ok none) s)
    (hs : ∀ stored s, P.inv s → K (some stored) s → Q (answerStored stored (fingerprint requestBody)) s) :
    P.Safe t Q (lookupOrReserve apiKeyId idemKey requestBody ttl) A := by
  refine .seq htime fun ts => ?_
  refine .seq (hr ts).tried fun raw => ?_
  cases raw with
  | none => exact hn
  | some stored => exact .result (hs stored)

lemma storeResult_safe {response : Json} {statusCode : Int} (hs : ∀ ts, P.Safe t (Returns fun _ => B) (call (.store (redisKey apiKeyId idemKey)
      (.completed (fingerprint requestBody) ts statusCode response) ttlSeconds)) A) :
    P.Safe t (Returns fun _ => B) (storeResult apiKeyId idemKey requestBody response statusCode) A := by
  apply Protocol.Safe.tried
  refine .seq htime fun ts => ?_
  apply Protocol.Safe.tried
  refine .seq (hs ts) fun _ => ?_
  exact fun _ _ hb => hb

lemma markPending_safe {paymentHash : String} {ttl : ℕ+} (hs : ∀ ts, P.Safe t (Returns fun _ => B) (call (.store (redisKey apiKeyId idemKey)
      (.pending (fingerprint requestBody) ts paymentHash) ttl)) A) :
    P.Safe t (Returns fun _ => B) (markPending apiKeyId idemKey requestBody paymentHash ttl) A := by
  apply Protocol.Safe.tried
  refine .seq htime fun ts => ?_
  refine .seq (hs ts) fun _ => ?_
  exact fun _ _ hb => hb

end

lemma releaseState_safe {state : State} {K : Option Record → σ → Prop}
    (hg : P.Safe t (Returns K) (call (.get (redisKey apiKeyId idemKey))) A)
    (hd : ∀ stored, stored.map Record.state = some state →
      P.Safe t (Returns fun _ => B) (call (.delete (redisKey apiKeyId idemKey))) (K stored))
    (hke : ∀ stored s, stored.map Record.state ≠ some state → P.inv s → K stored s → B s) :
    P.Safe t (Returns fun _ => B) (releaseState state apiKeyId idemKey) A := by
  apply Protocol.Safe.tried
  refine .seq hg fun stored => ?_
  by_cases h : stored.map Record.state = some state
  · simp only [h]
    exact hd stored h
  · simp only [h]
    exact fun s hi hk => hke stored s h hi hk

end Rules

end AgentWallet.Idempotency
