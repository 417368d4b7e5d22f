import AgentWallet.Lib.Exceptions
import AgentWallet.Lib.Json
import AgentWallet.Lib.Sha256
/-!
# The audit log

The hash chain over the `audit_logs` table and the signed high-water row.
A database is the rows of the table, in no particular order, and the one row
of `audit_chain_state`. Each operation runs in one transaction under the
chain's lock: it returns the database it commits, or raises and leaves the
database as it was. Wall-clock readings and new UUIDs are arguments.
-/

namespace AgentWallet.Audit

open AgentWallet.Lib List

/-- A UUID by its canonical text. The texts order as the 128-bit numbers do. -/
structure Uuid where
  text : String
  length : text.length = 36
  deriving DecidableEq

/-- What the functions take from the platform: the hash under HMAC and the ISO
text of a time in UTC, counted in microseconds. -/
structure Platform where
  sha256 : Bytes → Bytes
  isoformat : Int → String

structure Settings where
  secretKey : String
  secretKeyPrevious : String := ""

/-- The columns a caller sets. A dict is its items in key order. -/
structure Entry where
  apiKeyId : Option Uuid
  apiKeyName : String
  action : String
  resource : String
  details : Option (List (String × Json))
  amountSats : Option Int
  success : Bool
  errorMessage : Option String
  ipAddress : Option String

@[ext]
structure AuditLog extends Entry where
  id : Uuid
  prevHash : Option String
  entryHash : Option String
  createdAt : Int

structure AuditChainState where
  entryCount : Int
  headHash : Option String
  stateHmac : String

structure Db where
  rows : List AuditLog := []
  highWater : Option AuditChainState := none

/-! ## Keyed hashes -/

def auditChainContext : Bytes := utf8 "agent-wallet/audit-chain/v1"

/-- Python's `x or ""`. -/
def orEmpty (x : Option String) : String := x.getD ""

section

variable (pf : Platform) (settings : Settings)

def auditChainHmac (payload : String) (secret : Option String) : String :=
  let key := if orEmpty secret = "" then settings.secretKey else orEmpty secret
  let chainKey := hmac pf.sha256 (utf8 key) auditChainContext
  hexdigest (hmac pf.sha256 chainKey (utf8 payload))

def AuditLog.payload (r : AuditLog) : Json := .obj [
  ("action", .str r.action),
  ("amount_sats", (r.amountSats.map Json.int).getD .null),
  ("api_key_id", .str ((r.apiKeyId.map Uuid.text).getD "None")),
  ("api_key_name", .str r.apiKeyName),
  ("created_at", .str (pf.isoformat r.createdAt)),
  ("details", (r.details.map Json.obj).getD .null),
  ("error_message", (r.errorMessage.map Json.str).getD .null),
  ("id", .str r.id.text),
  ("ip_address", (r.ipAddress.map Json.str).getD .null),
  ("prev_hash", .str (orEmpty r.prevHash)),
  ("resource", .str r.resource),
  ("success", .bool r.success)]

def AuditLog.computeHash (r : AuditLog) (secret : Option String) : String :=
  auditChainHmac pf settings (r.payload pf).dumps secret

/-! ## Ways to leave a function -/

inductive AuditError
  | typeError
  | integrityError
  deriving DecidableEq, Repr

structure Summary where
  checked : Nat
  ok : Bool
  firstBadId : Option String
  firstBadReason : Option String
  deriving DecidableEq, Repr

/-- A raised exception, or an early `return`. -/
inductive Stop
  | raised (e : AuditError)
  | returned (s : Summary)
  deriving DecidableEq, Repr

def isAscii (s : String) : Bool := s.toList.all (·.toNat < 128)

/-- `hmac.compare_digest` on strings. -/
def compareDigest (a b : String) : Except AuditError Bool := do
  raiseIf (!isAscii a || !isAscii b) .typeError
  return a == b

/-- The stored text is the expected one under the current or the previous
key, if there is one. -/
def matchesEitherKey (expected : Option String → String) (stored : String) : Except AuditError Bool := do
  let current ← compareDigest (expected none) stored
  if current then return true
  else if settings.secretKeyPrevious = "" then return false
  else compareDigest (expected (some settings.secretKeyPrevious)) stored

/-! ## The high-water row -/

def signHighWater (entryCount : Int) (headHash : Option String) (secret : Option String) : String :=
  let head := orEmpty headHash
  auditChainHmac pf settings s!"{entryCount}:{head}" secret

def highWaterSignatureValid (state : AuditChainState) : Except AuditError Bool :=
  matchesEitherKey settings (signHighWater pf settings state.entryCount state.headHash) state.stateHmac

variable (db : Db) (entry : Entry) (uuid : Uuid) (now : Int)

def countAuditRows : Int := db.rows.length

def recordHighWater (entryCount : Int) (headHash : Option String) : Db :=
  let count := max 0 entryCount
  { db with highWater := some ⟨count, headHash, signHighWater pf settings count headHash none⟩ }

def bumpHighWaterOnAppend (headHash : Option String) : Except AuditError Db :=
  match db.highWater with
  | none => .ok (recordHighWater pf settings db (countAuditRows db) headHash)
  | some state => do
    let valid ← highWaterSignatureValid pf settings state
    -- a row that does not verify is left as it is
    return if valid then recordHighWater pf settings db (state.entryCount + 1) headHash else db

structure HighWaterCheck where
  present : Bool
  ok : Bool
  reason : Option String
  recordedCount : Option Int
  liveCount : Int

def checkHighWater : Except AuditError HighWaterCheck :=
  let liveCount := countAuditRows db
  match db.highWater with
  | none => .ok ⟨false, true, none, none, liveCount⟩
  | some state => do
    let valid ← highWaterSignatureValid pf settings state
    if !valid then return ⟨true, false, some "high-water signature mismatch", some state.entryCount, liveCount⟩
    else if liveCount < state.entryCount then
      return ⟨true, false, some "row count below recorded high-water (truncation)", some state.entryCount, liveCount⟩
    else return ⟨true, true, none, some state.entryCount, liveCount⟩

/-! ## Order of the rows -/

def AuditLog.cursor (r : AuditLog) : Int × Uuid := (r.createdAt, r.id)

/-- The `where` clause of a page. -/
def isAfter (cursor : Int × Uuid) (r : AuditLog) : Bool :=
  r.createdAt > cursor.1 || (r.createdAt == cursor.1 && r.id.text > cursor.2.text)

/-- `ORDER BY created_at, id`. -/
def ordered (rows : List AuditLog) : List AuditLog := rows.mergeSort fun r s => !isAfter s.cursor r

def getLastHash : Option String × Option Int :=
  match (ordered db.rows).getLast? with
  | none => (none, none)
  | some r => (r.entryHash, some r.createdAt)

/-! ## Appending -/

/-- The time of a new row: the clock reading, moved behind the newest row. -/
def stampTime (prevCreatedAt : Option Int) (now : Int) : Int :=
  match prevCreatedAt with
  | none => now
  | some p => if now ≤ p then p + 1 else now

def newRow : AuditLog :=
  let (prevHash, prevCreatedAt) := getLastHash db
  let row : AuditLog :=
    { entry with id := uuid, prevHash := prevHash, entryHash := none, createdAt := stampTime prevCreatedAt now }
  { row with entryHash := some (row.computeHash pf settings none) }

/-- `_finalize_entry` on a new entry, at clock reading `now` and with `uuid` for
its id. -/
def finalizeEntry : Except AuditError (Db × AuditLog) := do
  let row := newRow pf settings db entry uuid now
  raiseIf (db.rows.any (·.id = uuid)) .integrityError
  let db ← bumpHighWaterOnAppend pf settings { db with rows := db.rows ++ [row] } row.entryHash
  return (db, row)

def logAction (apiKeyId : Uuid) (apiKeyName action resource : String)
    (details : Option (List (String × Json))) (amountSats : Option Int) (success : Bool)
    (errorMessage ipAddress : Option String) (uuid : Uuid) (now : Int) : Except AuditError (Db × AuditLog) :=
  finalizeEntry pf settings db ⟨some apiKeyId, apiKeyName, action, resource, details, amountSats, success,
    errorMessage, ipAddress⟩ uuid now

def logDashboardAction (dashboardKeyId : Uuid) (action resource : String)
    (details : Option (List (String × Json))) (amountSats : Option Int) (success : Bool)
    (errorMessage ipAddress : Option String) (uuid : Uuid) (now : Int) : Except AuditError (Db × AuditLog) :=
  finalizeEntry pf settings db ⟨some dashboardKeyId, "__dashboard__", action, resource, details, amountSats, success,
    errorMessage, ipAddress⟩ uuid now

/-! ## Verifying -/

/-- The local variables of the walk: `prev` is unset before the first row. -/
structure Walk where
  prev : Option (Option String) := none
  checked : Nat := 0
  cursor : Option (Int × Uuid) := none

def hashMatches (e : AuditLog) : Except AuditError Bool :=
  matchesEitherKey settings (e.computeHash pf settings) (orEmpty e.entryHash)

/-- The back-link of a row, which the first row may choose. -/
def linkMatches (prev : Option (Option String)) (e : AuditLog) : Except AuditError Bool :=
  match prev with
  | none => .ok true
  | some p => compareDigest (orEmpty e.prevHash) (orEmpty p)

def checkEntry (w : Walk) (e : AuditLog) : Except Stop Walk := do
  let linked ← (linkMatches w.prev e).mapError .raised
  raiseIf (!linked) (.returned ⟨w.checked, false, some e.id.text, some "prev_hash mismatch"⟩)
  let matched ← (hashMatches pf settings e).mapError .raised
  raiseIf (!matched) (.returned ⟨w.checked, false, some e.id.text, some "entry_hash mismatch"⟩)
  return ⟨some e.entryHash, w.checked + 1, some e.cursor⟩

def remainingRows (rows : List AuditLog) (cursor : Option (Int × Uuid)) : List AuditLog :=
  (ordered rows).filter fun r => cursor.all (isAfter · r)

lemma isAfter_trans {c : Int × Uuid} {e r : AuditLog} (h : isAfter c e = true) (h' : isAfter e.cursor r = true) :
    isAfter c r = true := by
  simp only [isAfter, AuditLog.cursor, gt_iff_lt, Bool.or_eq_true, decide_eq_true_eq, Bool.and_eq_true,
    beq_iff_eq] at h h' ⊢
  rcases h with h | ⟨h, ht⟩ <;> rcases h' with h' | ⟨h', ht'⟩
  · exact .inl (by omega)
  · exact .inl (by omega)
  · exact .inl (by omega)
  · exact .inr ⟨by omega, lt_trans ht ht'⟩

lemma not_isAfter_self (r : AuditLog) : isAfter r.cursor r = false := by
  simp [isAfter, AuditLog.cursor]

variable {pf settings} in
lemma cursor_of_page {entries : List AuditLog} {w w' : Walk} (h : entries.foldlM (checkEntry pf settings) w = .ok w') :
    w'.cursor = (entries.getLast?.map AuditLog.cursor).or w.cursor := by
  refine foldlM_ok (fun done v => v.cursor = (done.getLast?.map AuditLog.cursor).or w.cursor) h rfl ?_
  intro done e rest v v' _ _ hv
  simp only [checkEntry, bind_eq_ok, pure_eq_ok] at hv
  obtain ⟨-, -, -, -, -, -, -, -, rfl⟩ := hv
  simp

lemma remainingRows_of_mem {rows : List AuditLog} {cursor : Option (Int × Uuid)} {e : AuditLog}
    (he : e ∈ remainingRows rows cursor) :
    remainingRows rows (some e.cursor) = (remainingRows rows cursor).filter (isAfter e.cursor) := by
  simp only [remainingRows, filter_filter, Option.all_some]
  refine filter_congr fun r _ => ?_
  cases hr : isAfter e.cursor r with
  | false => rfl
  | true =>
    cases hc : cursor with
    | none => rfl
    | some c =>
      have hec : isAfter c e = true := by simpa [remainingRows, hc] using (mem_filter.1 he).2
      simp [isAfter_trans hec hr]

variable {pf settings} in
lemma remainingRows_lt {rows entries : List AuditLog} {w w' : Walk} {n : Nat}
    (he : entries = (remainingRows rows w.cursor).take n) (hne : entries ≠ [])
    (h : entries.foldlM (checkEntry pf settings) w = .ok w') :
    (remainingRows rows w'.cursor).length < (remainingRows rows w.cursor).length := by
  obtain ⟨done, e, rfl⟩ := (eq_nil_or_concat entries).resolve_left hne
  have hm : e ∈ remainingRows rows w.cursor := by
    have hl : e ∈ done.concat e := by simp
    rw [he] at hl
    exact mem_of_mem_take hl
  have hc : w'.cursor = some e.cursor := by simpa using cursor_of_page h
  rw [hc, remainingRows_of_mem hm]
  exact length_filter_lt_length_iff_exists.2 ⟨e, hm, by simp [not_isAfter_self]⟩

/-- The `while` loop of `verify_chain`. -/
def verifyLoop (rows : List AuditLog) (limit : Option Nat) (batchSize : Nat) (w : Walk) : Except Stop Walk :=
  let remaining := limit.map (· - w.checked)
  if remaining = some 0 then .ok w
  else
    let pageSize := match remaining with
      | none => batchSize
      | some n => min batchSize n
    let entries := (remainingRows rows w.cursor).take pageSize
    if hne : entries = [] then .ok w
    else
      match h : entries.foldlM (checkEntry pf settings) w with
      | .error e => .error e
      | .ok w' => if entries.length < pageSize then .ok w' else verifyLoop rows limit batchSize w'
termination_by (remainingRows rows w.cursor).length
decreasing_by exact remainingRows_lt rfl hne h

def verifyChain (limit : Option Nat) (batchSize : Nat) : Except AuditError Summary :=
  match verifyLoop pf settings db.rows limit batchSize {} with
  | .error (.raised e) => .error e
  | .error (.returned s) => .ok s
  | .ok w =>
    if limit.isSome then .ok ⟨w.checked, true, none, none⟩
    else do
      let hw ← checkHighWater pf settings db
      return if hw.ok then ⟨w.checked, true, none, none⟩ else ⟨w.checked, false, none, hw.reason⟩

/-! ## Pruning and re-anchoring -/

/-- The default page size of `verify_chain`. -/
def defaultBatchSize : Nat := 1000

/-- Retention lowers the recorded count by the rows it removed. -/
def lowerHighWater (deletedCount : Int) : Except AuditError Db :=
  match db.highWater with
  | none => .ok db
  | some state => do
    let valid ← highWaterSignatureValid pf settings state
    return if valid then recordHighWater pf settings db (state.entryCount - deletedCount) state.headHash else db

structure PruneResult where
  deleted : Int
  anchorId : Option Uuid
  skipped : Bool

def truncateEntry (dashboardKeyId : Uuid) (deletedCount cutoff : Int) : Entry where
  apiKeyId := some dashboardKeyId
  apiKeyName := "__retention__"
  action := "audit_truncate"
  resource := "audit_log"
  details := some [("deleted_count", .int deletedCount), ("truncated_before", .str (pf.isoformat cutoff))]
  amountSats := none
  success := true
  errorMessage := none
  ipAddress := none

def pruneAuditLog (cutoff : Int) (dashboardKeyId uuid : Uuid) (now : Int) :
    Except AuditError (Db × PruneResult) :=
  -- a verification that raises counts as failed
  let verified := match verifyChain pf settings db none defaultBatchSize with
    | .ok s => s.ok
    | .error _ => false
  if !verified then .ok (db, ⟨0, none, true⟩)
  else
    let survivors := db.rows.filter fun r => !(r.createdAt < cutoff)
    let deletedCount : Int := db.rows.length - survivors.length
    if deletedCount > 0 then do
      let db ← lowerHighWater pf settings { db with rows := survivors } deletedCount
      if countAuditRows db > 0 then
        let (db, anchor) ← finalizeEntry pf settings db (truncateEntry pf dashboardKeyId deletedCount cutoff) uuid now
        return (db, ⟨deletedCount, some anchor.id, false⟩)
      else return (db, ⟨deletedCount, none, false⟩)
    else .ok (db, ⟨0, none, false⟩)

/-- The loop of `reanchor_chain` over the rows in order. -/
def relink (prev : Option String) : List AuditLog → List AuditLog
  | [] => []
  | r :: rest =>
    let r := { r with prevHash := prev }
    let r := { r with entryHash := some (r.computeHash pf settings none) }
    r :: relink r.entryHash rest

structure ReanchorResult where
  reanchored : Nat
  wasConsistent : Bool
  firstBadId : Option String

def reanchorEntry (actorKeyId : Uuid) (actorName : String) (reanchoredCount : Nat) (pre : Summary) : Entry where
  apiKeyId := some actorKeyId
  apiKeyName := actorName
  action := "audit_chain_reanchor"
  resource := "audit_log"
  details := some [
    ("pre_first_bad_id", (pre.firstBadId.map Json.str).getD .null),
    ("pre_first_bad_reason", (pre.firstBadReason.map Json.str).getD .null),
    ("reanchored_count", .int reanchoredCount),
    ("was_consistent", .bool pre.ok)]
  amountSats := none
  success := true
  errorMessage := none
  ipAddress := none

def reanchorChain (actorKeyId : Uuid) (actorName : String) (uuid : Uuid) (now : Int) :
    Except AuditError (Db × ReanchorResult) := do
  let pre : Summary := match verifyChain pf settings db none defaultBatchSize with
    | .ok s => s
    | .error _ => ⟨0, false, none, some "verify raised"⟩
  let survivors := relink pf settings none (ordered db.rows)
  let (db, anchor) ← finalizeEntry pf settings { db with rows := survivors }
    (reanchorEntry actorKeyId actorName survivors.length pre) uuid now
  return (recordHighWater pf settings db (countAuditRows db) anchor.entryHash,
    ⟨survivors.length, pre.ok, pre.firstBadId⟩)

end

end AgentWallet.Audit
