import AgentWallet.Core.Slot
/-!
# Who may release a slot

A release checks the state of the record, not who wrote it, and deletes with a
command of its own. What it takes for the slot to stay with the request it was
granted to.
-/

namespace AgentWallet.Idempotency

open AgentWallet.Lib List Function Option

variable {S T H : Type} {RS : S → Type} [DecidableEq T]

/-- Who is granted the slot, by what it holds. -/
def Owned (key : String) (w : World T H) : Prop :=
  match (w.slot key).map Record.state with
  | none => w.granted = []
  | some .inflight => ∃ t, w.granted = [t] ∧ w.writer = some t
  | some .pending => w.granted = []
  | some .completed => w.granted.length ≤ 1

variable {key : String} {w w' : World T H} {t : T}

lemma Owned.length_le (h : Owned key w) : w.granted.length ≤ 1 := by
  unfold Owned at h
  split at h
  · simp [h]
  · obtain ⟨t, ht, -⟩ := h
    simp [ht]
  · simp [h]
  · exact h

/-- What a command needs to know: a `DELETE` takes a pending record or the
request's own marker. -/
def Allowed (key : String) (t : T) : Cmd S → World T H → Prop
  | .reserve k marker _, _ => k = key ∧ marker.state = .inflight
  | .store k payload _, _ => k = key ∧ payload.state ≠ .inflight
  | .set _ _ _, _ => False
  | .get k, _ => k = key
  | .delete k, w => k = key ∧
    ∀ record, w.slot key = some record → record.state = .pending ∨ (record.state = .inflight ∧ w.writer = some t)
  | _, _ => True

structure Rely (key : String) (t : T) (w w' : World T H) : Prop where
  read : w'.read t = w.read t
  version : w.version ≤ w'.version
  slot : w'.version = w.version → w'.slot key = w.slot key ∨ w'.slot key = none

/-! ## One command -/

lemma owned_of_none (hs : w.slot key = none) (h : w.granted = []) : Owned key w := by
  unfold Owned
  rw [hs]
  exact h

variable {note : T → (c : S) → Except Exn (RS c) → World T H → H}

lemma Owned.tick (h : Owned key w) (now : ℚ) : Owned key (w.tick key now) := by
  by_cases hn : (w.redis.advance now).get key = none
  · exact owned_of_none hn (if_pos hn)
  have hs : (w.tick key now).slot key = w.slot key := (Redis.get_advance w.redis now key).resolve_right hn
  have hg : (w.tick key now).granted = w.granted := if_neg hn
  unfold Owned at h ⊢
  rwa [hs, hg]

variable {apiKeyId idemKey : String}

def marker : Record := .inflight (fingerprint (.obj [])) startOfTime

def expired : World ℕ Unit := { redis := ⟨fun _ => none, 360⟩, writer := some 0, version := 1, history := () }

end AgentWallet.Idempotency
