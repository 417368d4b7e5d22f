import Mathlib.Data.List.Basic
import AgentWallet.Core.Idempotency
/-!
# Requests on one slot

The requests of one `Idempotency-Key` against Redis, one command at a time, with
a record of what happened to the slot: who was granted it, who wrote what it
holds, how often it was written, and how much of that each request has read. The
record follows Redis and never steers it. `H` is what is recorded of the other
services.
-/

namespace AgentWallet.Idempotency

open AgentWallet.Lib

variable {S T H : Type} {RS : S → Type} [DecidableEq T]

structure World (T H : Type) where
  redis : Redis
  /-- The requests that installed their marker, until they write or delete the
  slot or its record expires. -/
  granted : List T := []
  writer : Option T := none
  version : ℕ := 0
  /-- The version at the last `GET` of a request. -/
  read : T → ℕ := fun _ => 0
  history : H

namespace World

def slot (key : String) (w : World T H) : Option Record := w.redis.get key

/-- The world when a command has left Redis in a state. -/
def after (key : String) (note : T → (c : S) → Except Exn (RS c) → World T H → H) (t : T) :
    (c : Cmd S) → World T H → Except Exn (Reply RS c) → Redis → World T H
  | .time, w, _, s => { w with redis := s }
  | .reserve k _ _, w, _, s =>
    if k = key ∧ w.slot key = none then
      { w with redis := s, granted := w.granted ++ [t], writer := some t, version := w.version + 1 }
    else { w with redis := s }
  | .store k _ _, w, _, s =>
    if k = key then
      if w.redis.storable key then
        { w with redis := s, granted := w.granted.erase t, writer := some t, version := w.version + 1 }
      else { w with redis := s, granted := w.granted.erase t }
    else { w with redis := s }
  | .set k _ _, w, _, s =>
    if k = key then { w with redis := s, granted := w.granted.erase t, writer := some t, version := w.version + 1 }
    else { w with redis := s }
  | .get k, w, _, s =>
    if k = key then { w with redis := s, read := Function.update w.read t w.version } else { w with redis := s }
  | .delete k, w, _, s =>
    if k = key then { w with redis := s, granted := w.granted.erase t, version := w.version + 1 } else { w with redis := s }
  | .service c, w, r, s => { w with redis := s, history := note t c r w }

/-- Time passes; with the record that expires, the grants are gone. -/
def tick (key : String) (now : ℚ) (w : World T H) : World T H :=
  { w with
    redis := w.redis.advance now
    granted := if (w.redis.advance now).get key = none then [] else w.granted }

end World

def requests (key : String) (note : T → (c : S) → Except Exn (RS c) → World T H → H) :
    Machine T (Cmd S) (Reply RS) Exn (World T H) where
  exec t c w r w' := ∃ s, Redis.exec c w.redis r s ∧ w' = w.after key note t c r s
  env w w' := ∃ now, w.redis.clock ≤ now ∧ w' = w.tick key now

/-! ## What a command does -/

section

variable {key : String} {note : T → (c : S) → Except Exn (RS c) → World T H → H} {t : T} {w w' : World T H}

end

end AgentWallet.Idempotency
