import AgentWallet.Core.Idempotency
/-!
# Completed results

How long a slot keeps a completed result, whatever calls are made on its key. The
store script takes a slot for a reservation when the sentinel occurs anywhere in
its text, so the answer depends on the text of the response.
-/

namespace AgentWallet.Idempotency

open AgentWallet.Lib

/-! ## The sentinel in a text -/

namespace Record

variable (fp : Fingerprint) (ts : FloatText) (statusCode : Int) (response : Json)

end Record

variable {S T : Type} {RS : S → Type}

/-! ## A record without the sentinel -/

section Kept

variable (key : String) (e : Entry)

def Kept (s : Redis) : Prop := s.clock < e.expireAt → s.slots key = some e

/-- The commands that leave the entry: a `DELETE` of its key only after it has expired. -/
def Spares : Cmd S → Redis → Prop
  | .set _ _ _, _ => False
  | .delete k, s => k = key → e.expireAt ≤ s.clock
  | _, _ => True

variable {key e}

lemma Kept.exec (he : e.record.carriesSentinel = false) {c : Cmd S} {s s' : Redis} {r : Except Exn (Reply RS c)}
    (h : Kept key e s) (hc : Spares key e c s) (hx : Redis.exec c s r s') : Kept key e s' := by
  intro hlt
  rw [Redis.clock_exec hx] at hlt
  have hs := h hlt
  cases c with
  | time | get k => rw [hx.2, hs]
  | reserve k marker ttl => rw [hx.2, Redis.slots_reserve hs]
  | store k payload ttl => rw [hx.2, Redis.slots_store hs he]
  | set k payload ttl => exact hc.elim
  | delete k =>
    have hne : key ≠ k := fun hk => absurd (hc hk.symm) (not_le.2 hlt)
    rw [hx.2, ← hs]
    exact Function.update_of_ne hne _ _
  | service c => rw [show s' = s from hx, hs]

lemma Kept.advance {s : Redis} {now : ℚ} (h : Kept key e s) (hle : s.clock ≤ now) :
    Kept key e (s.advance now) := by
  intro hlt
  have hlt : now < e.expireAt := hlt
  simp [Redis.advance, h (lt_of_le_of_lt hle hlt), hlt]

variable (T RS key e) in
def kept (he : e.record.carriesSentinel = false) : Protocol (machine : Machine T (Cmd S) (Reply RS) Exn Redis) where
  inv := Kept key e
  pre _ := Spares key e
  rely _ s s' := s.clock ≤ s'.clock
  exec hi hp hx := ⟨hi.exec he hp hx, fun _ _ => (Redis.clock_exec hx).ge⟩
  env := by
    rintro s _ hi ⟨now, hle, rfl⟩
    exact ⟨hi.advance hle, fun _ => hle⟩

variable {he : e.record.carriesSentinel = false} {t : T} {α : Type}

/-- A Redis command that is always allowed, when nothing need be known of its answer. -/
lemma command_safe {c : Cmd S} (hc : ∀ s, Spares key e c s)
    (hok : ∀ (s : Redis) (r : Except Exn (Reply RS c)) s', Redis.exec c s r s' → ∃ x, r = .ok x) :
    (kept T RS key e he).Safe t (Returns fun _ _ => True) (call c) fun _ => True := by
  refine .answered (fun _ => .const _) fun s r s' _ _ hx => ⟨hc s, ?_⟩
  obtain ⟨x, rfl⟩ := hok s r s' hx
  exact ⟨x, rfl, fun _ => trivial⟩

lemma time_safe : (kept T RS key e he).Safe t (Returns fun _ _ => True) (call .time) fun _ => True :=
  command_safe (fun _ => trivial) fun _ _ _ hx => hx.1

lemma reserve_safe (k : String) (marker : Record) (ttl : ℕ+) :
    (kept T RS key e he).Safe t (Returns fun _ _ => True) (call (.reserve k marker ttl)) fun _ => True :=
  command_safe (fun _ => trivial) fun _ _ _ hx => ⟨_, hx.1⟩

lemma store_safe (k : String) (payload : Record) (ttl : ℕ+) :
    (kept T RS key e he).Safe t (Returns fun _ _ => True) (call (.store k payload ttl)) fun _ => True :=
  command_safe (fun _ => trivial) fun _ _ _ hx => ⟨_, hx.1⟩

lemma get_safe (k : String) :
    (kept T RS key e he).Safe t (Returns fun stored s => k = key → s.clock < e.expireAt → stored = some e.record)
      (call (.get k)) fun _ => True := by
  refine .answered (fun stored s s' _ _ hr h hk hlt => h hk (lt_of_le_of_lt hr hlt)) ?_
  rintro s r s' hi - ⟨rfl, rfl⟩
  refine ⟨trivial, _, rfl, fun _ => ?_⟩
  rintro rfl hlt
  rw [Redis.get, hi hlt, Option.map_some]

lemma release_safe {state : State} (hs : e.record.state ≠ state) (apiKeyId idemKey : String) :
    (kept T RS key e he).Safe t (Returns fun _ _ => True) (releaseState state apiKeyId idemKey) fun _ => True := by
  refine releaseState_safe (get_safe _) (fun stored h => ?_) fun _ _ _ _ _ => trivial
  refine .answered (fun _ => .const _) ?_
  rintro s r s' - ha ⟨rfl, rfl⟩
  refine ⟨fun hk => not_lt.1 fun hlt => hs ?_, _, rfl, fun _ => trivial⟩
  -- Not expired: it is the entry that the `GET` found, which is not in the state.
  rw [ha hk hlt, Option.map_some] at h
  exact Option.some.inj h

lemma code_safe (hc : e.record.state = .completed) (apiKeyId idemKey : String) (call : Call) :
    (kept T RS key e he).Obeys t (call.code apiKeyId idemKey) := by
  cases call with
  | lookupOrReserve requestBody ttl =>
    have hl : (kept T RS key e he).Obeys t
        (lookupOrReserve apiKeyId idemKey requestBody ttl) fun _ => True :=
      lookupOrReserve_safe time_safe (fun ts => reserve_safe _ _ _) (fun _ _ _ => trivial) fun _ _ _ _ => trivial
    exact hl.andThen fun _ => .ret
  | storeResult requestBody response statusCode => exact (storeResult_safe time_safe fun ts => store_safe _ _ _).silent
  | markPending requestBody paymentHash ttl => exact (markPending_safe time_safe fun ts => store_safe _ _ _).silent
  | releaseInflight | releasePending => exact (release_safe (by simp [hc]) apiKeyId idemKey).silent

end Kept

/-! ## Calls that run alone -/

end AgentWallet.Idempotency
