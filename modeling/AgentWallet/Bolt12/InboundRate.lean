import Mathlib.Data.List.Induction
import AgentWallet.Core.Ledger
/-!
# The rate limit of inbound requests (`inbound_rate_limit.py`)

Three sorted sets in Redis for each request: one of its peer, one of its offer
and one of all. A single script drops what has left the window, counts, and adds
the request to all three or to none. `inbound_rate` says for every sequence of
calls that no window of any bucket holds more than its cap.
-/

namespace AgentWallet.Bolt12.InboundRate

open AgentWallet.Lib
open AgentWallet.RateLimit (Hex Reading Stored member memberUuid memberUuid_member tostring)

structure Settings where
  inboundRateLimitCount : Int := 30
  inboundRateLimitPerOfferCount : Int := 60
  inboundRateLimitGlobalCount : Int := 300
  inboundRateLimitWindowSeconds : Nat := 60
  rateLimitFailPolicy : String := "closed"

def GLOBAL_KEY : String := "lwa:bolt12:inbound:_global_"

def OFFERLESS_OFFER_KEY : String := "_offerless_"

/-! ## The script -/

/-- The sorted sets by the names of their keys. Two names may be the same one. -/
abbrev Redis : Type := String → Stored

def Redis.modify (r : Redis) (key : String) (f : Stored → Stored) : Redis := Function.update r key (f (r key))

/-- What has expired at a time is gone. -/
def Redis.live (r : Redis) (now : ℚ) : Redis := fun key => (r key).live now

def expire (clock : ℚ) (ttl : Nat) (k : Stored) : Stored := { k with expireAt := some (clock + ttl) }

structure Answer where
  allowed : Int
  peerCount : String
  offerCount : String
  globalCount : String
  cap : String

def threeTierScript (r : Redis) (clock : ℚ) (peerKey offerKey globalKey : String) (windowStart now : ℚ)
    (peerMax offerMax globalMax : Int) (member : String) (ttl : Nat) : Redis × Answer :=
  let r := r.modify peerKey (·.zremrangebyscore windowStart)
  let r := r.modify offerKey (·.zremrangebyscore windowStart)
  let r := r.modify globalKey (·.zremrangebyscore windowStart)
  let peerCount := (r peerKey).set.zcard
  let offerCount := (r offerKey).set.zcard
  let globalCount := (r globalKey).set.zcard
  if peerMax > 0 ∧ peerCount ≥ peerMax then
    (r, ⟨0, tostring peerCount, tostring offerCount, tostring globalCount, "per_peer"⟩)
  else if offerMax > 0 ∧ offerCount ≥ offerMax then
    (r, ⟨0, tostring peerCount, tostring offerCount, tostring globalCount, "per_offer"⟩)
  else if globalMax > 0 ∧ globalCount ≥ globalMax then
    (r, ⟨0, tostring peerCount, tostring offerCount, tostring globalCount, "global"⟩)
  else
    let r := r.modify peerKey (·.zadd now member)
    let r := r.modify offerKey (·.zadd now member)
    let r := r.modify globalKey (·.zadd now member)
    let r := r.modify peerKey (expire clock ttl)
    let r := r.modify offerKey (expire clock ttl)
    let r := r.modify globalKey (expire clock ttl)
    (r, ⟨1, tostring (peerCount + 1), tostring (offerCount + 1), tostring (globalCount + 1), ""⟩)

/-! ## A call -/

/-- A call with the time it reads, the uuid it draws, and whether Redis is reached. -/
structure Call where
  peerKey : String
  offerKey : Option String
  now : Reading
  uuid : Hex
  reached : Bool

namespace Call

/-- `offer_key or _OFFERLESS_OFFER_KEY` -/
def offerName (c : Call) : String :=
  match c.offerKey with
  | none => OFFERLESS_OFFER_KEY
  | some name => if name = "" then OFFERLESS_OFFER_KEY else name

def perPeerKey (c : Call) : String := "lwa:bolt12:inbound:" ++ c.peerKey

def perOfferKey (c : Call) : String := "lwa:bolt12:inbound:offer:" ++ c.offerName

def keys (c : Call) : List String := [c.perPeerKey, c.perOfferKey, GLOBAL_KEY]

def member (c : Call) : String := RateLimit.member c.now.text c.uuid

end Call

/-- `(allowed, reason, cap)` and the sets after the call. -/
def checkInboundInvreqRate (settings : Settings) (r : Redis) (c : Call) :
    (Bool × Option String × Option String) × Redis :=
  let peerLimit := settings.inboundRateLimitCount
  let offerLimit := settings.inboundRateLimitPerOfferCount
  let globalLimit := settings.inboundRateLimitGlobalCount
  if peerLimit ≤ 0 ∧ offerLimit ≤ 0 ∧ globalLimit ≤ 0 then ((true, none, none), r)
  else if c.reached then
    let now := c.now.value
    let window := settings.inboundRateLimitWindowSeconds
    let windowStart := now - window
    let ttl := window + 60
    let (r, result) := threeTierScript (r.live now) now c.perPeerKey c.perOfferKey GLOBAL_KEY windowStart now peerLimit
      offerLimit globalLimit c.member ttl
    if result.allowed = 1 then ((true, none, none), r)
    else
      ((false, some ("BOLT 12 inbound rate limit hit (" ++ result.cap ++ "): " ++
        "peer=" ++ result.peerCount ++ " offer=" ++ result.offerCount ++ " global=" ++ result.globalCount ++ " " ++
        "window=" ++ toString window ++ "s (peer_limit=" ++ toString peerLimit ++ " " ++
        "offer_limit=" ++ toString offerLimit ++ " global_limit=" ++ toString globalLimit ++ ")"), some result.cap), r)
  else if settings.rateLimitFailPolicy = "open" then ((true, none, none), r)
  else ((false, some "rate-limit backend unavailable", some "backend"), r)

/-! ## Sequences of calls -/

/-- The sets, and the calls that were admitted. -/
structure State where
  redis : Redis
  admitted : List Call

def State.initial : State := ⟨fun _ => {}, []⟩

def State.step (settings : Settings) (s : State) (c : Call) : State :=
  let (answer, redis) := checkInboundInvreqRate settings s.redis c
  ⟨redis, if answer.1 then s.admitted ++ [c] else s.admitted⟩

def State.run (settings : Settings) (calls : List Call) : State := calls.foldl (State.step settings) .initial

/-! ## What the script does -/

variable {e : String × ℚ}

section Script

variable {r : Redis} {key k : String} {e : String × ℚ} {x : ℚ} {m : String}

lemma Redis.modify_apply (f : Stored → Stored) : r.modify key f k = if k = key then f (r k) else r k := by
  unfold Redis.modify
  rw [Function.update_apply]
  split_ifs with h
  · rw [h]
  · rfl

lemma mem_trim : e ∈ (r.modify key (·.zremrangebyscore x) k).set.entries ↔
    e ∈ (r k).set.entries ∧ (k = key → x < e.2) := by
  rw [Redis.modify_apply]
  split_ifs with h <;> simp [h]

lemma mem_add : e ∈ (r.modify key (·.zadd x m) k).set.entries ↔
    (e ∈ (r k).set.entries ∧ (k = key → e.1 ≠ m)) ∨ (k = key ∧ e = (m, x)) := by
  rw [Redis.modify_apply]
  split_ifs with h <;> simp [h]

lemma mem_expire {clock : ℚ} {ttl : Nat} : e ∈ (r.modify key (expire clock ttl) k).set.entries ↔
    e ∈ (r k).set.entries := by
  rw [Redis.modify_apply]
  split_ifs with h <;> exact .rfl

lemma expireAt_trim {d : ℚ} (h : (r.modify key (·.zremrangebyscore x) k).expireAt = some d) :
    (r k).expireAt = some d := by
  rw [Redis.modify_apply] at h
  split_ifs at h with hk
  · exact RateLimit.Stored.expireAt_normal (k := { r k with set := (r k).set.zremrangebyscore x }) h
  · exact h

lemma expireAt_add : (r.modify key (·.zadd x m) k).expireAt = (r k).expireAt := by
  rw [Redis.modify_apply]
  split_ifs with h <;> rfl

lemma expireAt_expire {clock d : ℚ} {ttl : Nat} (h : (r.modify key (expire clock ttl) k).expireAt = some d) :
    (k ≠ key ∧ (r k).expireAt = some d) ∨ (k = key ∧ d = clock + ttl) := by
  rw [Redis.modify_apply] at h
  split_ifs at h with hk
  · exact .inr ⟨hk, (Option.some.inj h).symm⟩
  · exact .inl ⟨hk, h⟩

/-- A cap leaves room: different entries of the set that are still in the window are fewer. -/
def Room (k : Stored) (windowStart : ℚ) (limit : Int) : Prop :=
  ∀ l : List (String × ℚ), l.Nodup → (∀ e ∈ l, e ∈ k.set.entries ∧ windowStart < e.2) → (l.length : Int) < limit

/-- What a call does to the sets: it drops what has left the window from its
own, and a call that is admitted finds room in all of them and is added to them. -/
structure Effect (r r' : Redis) (c : Call) (clock windowStart now : ℚ) (peerMax offerMax globalMax : Int) (ttl : Nat)
    (allowed : Prop) : Prop where
  mem : ∀ k e, e ∈ (r' k).set.entries ↔
    (e ∈ (r k).set.entries ∧ (k ∈ c.keys → windowStart < e.2) ∧ (allowed → k ∈ c.keys → e.1 ≠ c.member)) ∨
      (allowed ∧ k ∈ c.keys ∧ e = (c.member, now))
  expireAt : ∀ k d, (r' k).expireAt = some d → (r k).expireAt = some d ∧ (allowed → k ∉ c.keys) ∨ d = clock + ttl
  room : allowed → Room (r c.perPeerKey) windowStart peerMax ∧ Room (r c.perOfferKey) windowStart offerMax ∧
    Room (r GLOBAL_KEY) windowStart globalMax

end Script

lemma threeTierScript_effect (r : Redis) (c : Call) (clock windowStart now : ℚ) {peerMax offerMax globalMax : Int}
    (hpe : 0 < peerMax) (hof : 0 < offerMax) (hgl : 0 < globalMax) (ttl : Nat) :
    Effect r (threeTierScript r clock c.perPeerKey c.perOfferKey GLOBAL_KEY windowStart now peerMax offerMax globalMax
        c.member ttl).1 c clock windowStart now peerMax offerMax globalMax ttl
      ((threeTierScript r clock c.perPeerKey c.perOfferKey GLOBAL_KEY windowStart now peerMax offerMax globalMax
        c.member ttl).2.allowed = 1) := by
  unfold threeTierScript
  dsimp only
  set r₁ := ((r.modify c.perPeerKey (·.zremrangebyscore windowStart)).modify c.perOfferKey
    (·.zremrangebyscore windowStart)).modify GLOBAL_KEY (·.zremrangebyscore windowStart) with hr₁
  have hm : ∀ k e, e ∈ (r₁ k).set.entries ↔ e ∈ (r k).set.entries ∧ (k ∈ c.keys → windowStart < e.2) := by
    intro k e
    simp only [hr₁, mem_trim, Call.keys, List.mem_cons, List.not_mem_nil, or_false, or_imp, and_assoc]
  have hexpire : ∀ k d, (r₁ k).expireAt = some d → (r k).expireAt = some d := fun k d h =>
    expireAt_trim (expireAt_trim (expireAt_trim h))
  have hr : ∀ (key : String) (limit : Int), key ∈ c.keys → (r₁ key).set.zcard < limit →
      Room (r key) windowStart limit := by
    intro key limit hk hlt l hl hs
    have hle : l.length ≤ (r₁ key).set.entries.length :=
      (List.subperm_of_subset hl fun e he => (hm key e).2 ⟨(hs e he).1, fun _ => (hs e he).2⟩).length_le
    exact lt_of_le_of_lt (by exact_mod_cast hle) hlt
  have hd : ∀ answer : Answer, answer.allowed = 0 →
      Effect r r₁ c clock windowStart now peerMax offerMax globalMax ttl (answer.allowed = 1) := by
    intro answer h0
    have hn : ¬ answer.allowed = 1 := by simp [h0]
    refine ⟨fun k e => ?_, fun k d h => .inl ⟨hexpire k d h, fun h => absurd h hn⟩, fun h => absurd h hn⟩
    simp [hm, hn]
  by_cases h1 : peerMax > 0 ∧ ((r₁ c.perPeerKey).set.zcard : Int) ≥ peerMax
  · rw [if_pos h1]
    exact hd _ rfl
  rw [if_neg h1]
  by_cases h2 : offerMax > 0 ∧ ((r₁ c.perOfferKey).set.zcard : Int) ≥ offerMax
  · rw [if_pos h2]
    exact hd _ rfl
  rw [if_neg h2]
  by_cases h3 : globalMax > 0 ∧ ((r₁ GLOBAL_KEY).set.zcard : Int) ≥ globalMax
  · rw [if_pos h3]
    exact hd _ rfl
  rw [if_neg h3]
  refine ⟨fun k e => ?_, fun k d h => ?_, fun _ => ⟨?_, ?_, ?_⟩⟩
  · simp only [mem_expire, mem_add, hm, Call.keys, List.mem_cons, List.not_mem_nil, or_false, true_and, forall_const]
    by_cases he : e = (c.member, now)
    · subst he
      simp
      tauto
    · simp only [he, and_false, or_false]
      tauto
  · simp only [Call.keys, List.mem_cons, List.not_mem_nil, or_false, forall_const]
    rcases expireAt_expire h with ⟨hg, h⟩ | ⟨-, h⟩
    · rcases expireAt_expire h with ⟨ho, h⟩ | ⟨-, h⟩
      · rcases expireAt_expire h with ⟨hp, h⟩ | ⟨-, h⟩
        · rw [expireAt_add, expireAt_add, expireAt_add] at h
          exact .inl ⟨hexpire k d h, by tauto⟩
        · exact .inr h
      · exact .inr h
    · exact .inr h
  · exact hr _ _ (by simp [Call.keys]) (by omega)
  · exact hr _ _ (by simp [Call.keys]) (by omega)
  · exact hr _ _ (by simp [Call.keys]) (by omega)

/-! ## Runs -/

section Run

variable {settings : Settings} {done : List Call} {s : State} {c : Call}

/-- The number of admitted calls with `p` in any window is at most the limit. -/
def Within (settings : Settings) (limit : Int) (p : Call → Bool) (admitted : List Call) : Prop :=
  Capped (settings.inboundRateLimitWindowSeconds : ℚ) limit (fun c : Call => c.now.value) (fun _ => 1) (admitted.filter p)

/-- What holds after the calls `done`: each set has an entry for every admitted
call of its bucket as long as the call counts, and no others. -/
structure Inv (settings : Settings) (done : List Call) (s : State) : Prop where
  sub : s.admitted.Sublist done
  kept : ∀ a ∈ s.admitted, ∀ k ∈ a.keys, ∀ n, (∀ d ∈ done, d.now.value ≤ n) →
    n - settings.inboundRateLimitWindowSeconds < a.now.value →
    (a.member, a.now.value) ∈ ((s.redis k).live n).set.entries
  source : ∀ k, ∀ e ∈ (s.redis k).set.entries, ∃ a ∈ s.admitted, k ∈ a.keys ∧ e = (a.member, a.now.value)
  peer : ∀ name, Within settings settings.inboundRateLimitCount (·.peerKey = name) s.admitted
  offer : ∀ name, Within settings settings.inboundRateLimitPerOfferCount (·.offerName = name) s.admitted
  all : Within settings settings.inboundRateLimitGlobalCount (fun _ => true) s.admitted

lemma mem_live_of_later {k : Stored} {now n : ℚ} (hle : now ≤ n) (h : e ∈ (k.live n).set.entries) :
    e ∈ (k.live now).set.entries ∧ ∀ d, (k.live now).expireAt = some d → n < d := by
  have hl : ∀ d, k.expireAt = some d → n < d := by
    intro d hd
    by_contra hn
    have he : k.live n = {} := if_pos ⟨d, hd, not_lt.1 hn⟩
    rw [he] at h
    cases h
  have hat : ∀ x, x ≤ n → k.live x = k := by
    intro x hx
    refine if_neg ?_
    rintro ⟨d, hd, hdx⟩
    exact absurd (hl d hd) (not_lt.2 (hdx.trans hx))
  rw [hat now hle]
  rw [hat n le_rfl] at h
  exact ⟨h, hl⟩

lemma mem_live_iff {k : Stored} {n : ℚ} (h : e ∈ k.set.entries) (hd : ∀ d, k.expireAt = some d → n < d) :
    e ∈ (k.live n).set.entries := by
  have hl : k.live n = k := by
    refine if_neg ?_
    rintro ⟨d, hd', hle⟩
    exact absurd (hd d hd') (not_lt.2 hle)
  rwa [hl]

lemma member_ne {a : Call} (h : a.uuid ≠ c.uuid) : a.member ≠ c.member := by
  intro he
  have := congrArg memberUuid he
  simp only [Call.member, memberUuid_member] at this
  exact h (by
    cases ha : a.uuid
    cases hc : c.uuid
    simp_all)

/-- Calls with different uuids that count towards one of the buckets of `c` leave room for it. -/
lemma Inv.within_append (h : Inv settings done s) (huuid : done.Pairwise fun a b => a.uuid ≠ b.uuid)
    (hclock : ∀ d ∈ done, d.now.value ≤ c.now.value) {limit : Int} {p : Call → Bool}
    (hr : p c = true → ∃ key, (∀ a : Call, p a = true → key ∈ a.keys) ∧
      Room ((s.redis.live c.now.value) key) (c.now.value - settings.inboundRateLimitWindowSeconds) limit)
    (hc : Within settings limit p s.admitted) : Within settings limit p (s.admitted ++ [c]) := by
  unfold Within
  rw [List.filter_append]
  by_cases hp : p c = true
  · obtain ⟨key, hk, hr⟩ := hr hp
    have ho : [c].filter p = [c] := by simp [hp]
    rw [ho]
    apply Capped.append hc rfl
    set counted := (s.admitted.filter p).filter fun a =>
      c.now.value - (settings.inboundRateLimitWindowSeconds : ℚ) < a.now.value
    have hs : counted.Sublist done := (List.filter_sublist.trans List.filter_sublist).trans h.sub
    have hn : (counted.map fun a => (a.member, a.now.value)).Nodup := by
      apply List.pairwise_map.2
      apply (huuid.sublist hs).imp
      intro a b hne he
      exact member_ne hne (congrArg Prod.fst he)
    have hlt := hr _ hn fun e he => by
      obtain ⟨a, ha, rfl⟩ := List.mem_map.1 he
      obtain ⟨hap, hin⟩ := List.mem_filter.1 ha
      obtain ⟨had, hpa⟩ := List.mem_filter.1 hap
      exact ⟨h.kept a had key (hk a hpa) c.now.value hclock (of_decide_eq_true hin), of_decide_eq_true hin⟩
    rw [List.length_map] at hlt
    have hsu : (counted.map fun _ => 1).sum = counted.length := by simp
    rw [hsu]
    omega
  · have hno : [c].filter p = [] := by simp [hp]
    rw [hno, List.append_nil]
    exact hc

structure Limited (settings : Settings) : Prop where
  peer : 0 < settings.inboundRateLimitCount
  offer : 0 < settings.inboundRateLimitPerOfferCount
  all : 0 < settings.inboundRateLimitGlobalCount

lemma reached_effect (hs : Limited settings) (r : Redis) (hc : c.reached = true) :
    Effect (r.live c.now.value) (checkInboundInvreqRate settings r c).2 c c.now.value
      (c.now.value - settings.inboundRateLimitWindowSeconds) c.now.value settings.inboundRateLimitCount
      settings.inboundRateLimitPerOfferCount settings.inboundRateLimitGlobalCount
      (settings.inboundRateLimitWindowSeconds + 60) ((checkInboundInvreqRate settings r c).1.1 = true) := by
  have heffect := threeTierScript_effect (r.live c.now.value) c c.now.value
    (c.now.value - settings.inboundRateLimitWindowSeconds) c.now.value hs.peer hs.offer hs.all
    (settings.inboundRateLimitWindowSeconds + 60)
  unfold checkInboundInvreqRate
  dsimp only
  rw [if_neg fun h => hs.peer.not_ge h.1, if_pos hc]
  split <;> rename_i hr <;> simpa [hr] using heffect

lemma unreached_eq (hs : Limited settings) (r : Redis) (hc : c.reached = false)
    (hp : settings.rateLimitFailPolicy ≠ "open") :
    checkInboundInvreqRate settings r c = ((false, some "rate-limit backend unavailable", some "backend"), r) := by
  unfold checkInboundInvreqRate
  rw [if_neg fun h => hs.peer.not_ge h.1, hc, if_neg (by simp), if_neg hp]

section Step

variable {r' : Redis} {allowed : Prop}
  (h : Inv settings done s) (huuid : (done ++ [c]).Pairwise fun a b => a.uuid ≠ b.uuid)
  (hclock : ∀ d ∈ done, d.now.value ≤ c.now.value)
  (heffect : Effect (s.redis.live c.now.value) r' c c.now.value
    (c.now.value - settings.inboundRateLimitWindowSeconds) c.now.value settings.inboundRateLimitCount
    settings.inboundRateLimitPerOfferCount settings.inboundRateLimitGlobalCount
    (settings.inboundRateLimitWindowSeconds + 60) allowed)
include h huuid hclock heffect

/-- What counts later counts now, so it is found, is not trimmed, and has not expired. -/
lemma Inv.kept_step {a : Call} (ha : a ∈ s.admitted) {k : String} (hk : k ∈ a.keys) {n : ℚ}
    (hn : ∀ d ∈ done ++ [c], d.now.value ≤ n) (hlt : n - settings.inboundRateLimitWindowSeconds < a.now.value) :
    (a.member, a.now.value) ∈ ((r' k).live n).set.entries := by
  have hcn : c.now.value ≤ n := hn c (by simp)
  have hdo : ∀ d ∈ done, d.now.value ≤ n := fun d hd => hn d (List.mem_append_left _ hd)
  have hne : a.member ≠ c.member :=
    member_ne ((List.pairwise_append.1 huuid).2.2 a (h.sub.subset ha) c (List.mem_singleton_self c))
  obtain ⟨hm, he⟩ := mem_live_of_later hcn (h.kept a ha k hk n hdo hlt)
  apply mem_live_iff
  · refine (heffect.mem k _).2 (.inl ⟨hm, fun _ => ?_, fun _ _ => hne⟩)
    exact lt_of_le_of_lt (sub_le_sub_right hcn _) hlt
  intro d hd
  rcases heffect.expireAt k d hd with ⟨hd, -⟩ | rfl
  · exact he d hd
  · have := hclock a (h.sub.subset ha)
    push_cast
    linarith

lemma Inv.source_step {k : String} (he : e ∈ (r' k).set.entries) :
    (∃ a ∈ s.admitted, k ∈ a.keys ∧ e = (a.member, a.now.value)) ∨
      (allowed ∧ k ∈ c.keys ∧ e = (c.member, c.now.value)) := by
  rcases (heffect.mem k e).1 he with ⟨he, -⟩ | hn
  · rcases RateLimit.Stored.live_cases (s.redis k) c.now.value with hl | ⟨hl, -⟩
    · rw [Redis.live, hl] at he
      exact .inl (h.source k e he)
    · rw [Redis.live, hl] at he
      cases he
  · exact .inr hn

lemma Inv.deny (hd : ¬ allowed) : Inv settings (done ++ [c]) ⟨r', s.admitted⟩ where
  sub := h.sub.trans (List.sublist_append_left _ _)
  kept _ ha _ hk _ hn hlt := h.kept_step huuid hclock heffect ha hk hn hlt
  source k e he := by
    rcases h.source_step huuid hclock heffect he with ho | ⟨hal, -⟩
    · exact ho
    · exact absurd hal hd
  peer := h.peer
  offer := h.offer
  all := h.all

lemma Inv.admit (hal : allowed) : Inv settings (done ++ [c]) ⟨r', s.admitted ++ [c]⟩ := by
  obtain ⟨hro, hr, hroo⟩ := heffect.room hal
  have hu := (List.pairwise_append.1 huuid).1
  refine ⟨h.sub.append (List.Sublist.refl _), fun a ha k hk n hn hlt => ?_, fun k e he => ?_, fun name => ?_,
    fun name => ?_, ?_⟩
  · rcases List.mem_append.1 ha with ha | ha
    · exact h.kept_step huuid hclock heffect ha hk hn hlt
    obtain rfl := List.mem_singleton.1 ha
    apply mem_live_iff
    · exact (heffect.mem k _).2 (.inr ⟨hal, hk, rfl⟩)
    intro d hd
    rcases heffect.expireAt k d hd with ⟨-, hno⟩ | rfl
    · exact absurd hk (hno hal)
    · push_cast
      linarith
  · rcases h.source_step huuid hclock heffect he with ⟨a, ha, hk, rfl⟩ | ⟨-, hk, rfl⟩
    · exact ⟨a, List.mem_append_left _ ha, hk, rfl⟩
    · exact ⟨c, by simp, hk, rfl⟩
  · have hke : ∀ a : Call, a.peerKey = c.peerKey → c.perPeerKey ∈ a.keys := by
      intro a ha
      have hs : c.perPeerKey = a.perPeerKey := by
        unfold Call.perPeerKey
        rw [ha]
      rw [hs]
      simp [Call.keys]
    refine h.within_append hu hclock (fun hp => ⟨c.perPeerKey, fun a ha => ?_, hro⟩) (h.peer name)
    exact hke a ((of_decide_eq_true ha).trans (of_decide_eq_true hp).symm)
  · have hke : ∀ a : Call, a.offerName = c.offerName → c.perOfferKey ∈ a.keys := by
      intro a ha
      have hs : c.perOfferKey = a.perOfferKey := by
        unfold Call.perOfferKey
        rw [ha]
      rw [hs]
      simp [Call.keys]
    refine h.within_append hu hclock (fun hp => ⟨c.perOfferKey, fun a ha => ?_, hr⟩) (h.offer name)
    exact hke a ((of_decide_eq_true ha).trans (of_decide_eq_true hp).symm)
  · refine h.within_append hu hclock (fun _ => ⟨GLOBAL_KEY, fun a _ => ?_, hroo⟩) h.all
    simp [Call.keys]

end Step

lemma Inv.skip (h : Inv settings done s) (c : Call) : Inv settings (done ++ [c]) s :=
  { h with
    sub := h.sub.trans (List.sublist_append_left _ _)
    kept := fun a ha k hk n hn hlt => h.kept a ha k hk n (fun d hd => hn d (List.mem_append_left _ hd)) hlt }

lemma Inv.step (hse : Limited settings) (h : Inv settings done s)
    (huuid : (done ++ [c]).Pairwise fun a b => a.uuid ≠ b.uuid) (hclock : ∀ d ∈ done, d.now.value ≤ c.now.value)
    (hr : settings.rateLimitFailPolicy = "open" → c.reached = true) :
    Inv settings (done ++ [c]) (s.step settings c) := by
  by_cases hc : c.reached = true
  · have heffect := reached_effect hse s.redis hc
    unfold State.step
    dsimp only
    by_cases ha : (checkInboundInvreqRate settings s.redis c).1.1 = true
    · rw [if_pos ha]
      exact h.admit huuid hclock heffect ha
    · rw [if_neg ha]
      exact h.deny huuid hclock heffect ha
  · have hs := unreached_eq hse s.redis (by simpa using hc) fun ho => hc (hr ho)
    unfold State.step
    rw [hs]
    exact h.skip c

/-- The sets after the call hold nothing new but the call itself, where it is
admitted, and then in its three buckets; its member was in none before. -/
def Recorded (settings : Settings) (r : Redis) (c : Call) : Prop :=
  let (answer, r') := checkInboundInvreqRate settings r c
  (answer.1 = true → ∀ k, (c.member, c.now.value) ∈ (r' k).set.entries ↔ k ∈ c.keys) ∧
    (∀ k, ∀ e ∈ (r' k).set.entries, e ∈ (r k).set.entries ∨ (answer.1 = true ∧ e = (c.member, c.now.value))) ∧
    ∀ k, (c.member, c.now.value) ∉ (r k).set.entries

lemma Inv.recorded (hse : Limited settings) (h : Inv settings done s) (hn : ∀ d ∈ done, d.uuid ≠ c.uuid)
    (hr : settings.rateLimitFailPolicy = "open" → c.reached = true) : Recorded settings s.redis c := by
  have hfr : ∀ k, (c.member, c.now.value) ∉ (s.redis k).set.entries := by
    intro k he
    obtain ⟨a, ha, -, heq⟩ := h.source k _ he
    exact member_ne (hn a (h.sub.subset ha)) (congrArg Prod.fst heq).symm
  by_cases hc : c.reached = true
  · have heffect := reached_effect hse s.redis hc
    have hli : ∀ k, ∀ e ∈ ((s.redis.live c.now.value) k).set.entries, e ∈ (s.redis k).set.entries := by
      intro k e he
      rcases RateLimit.Stored.live_cases (s.redis k) c.now.value with hl | ⟨hl, -⟩
      · rwa [Redis.live, hl] at he
      · rw [Redis.live, hl] at he
        cases he
    refine ⟨fun hal k => ⟨fun he => ?_, fun hk => ?_⟩, fun k e he => ?_, hfr⟩
    · rcases (heffect.mem k _).1 he with ⟨he, -⟩ | ⟨-, hk, -⟩
      · exact absurd (hli k _ he) (hfr k)
      · exact hk
    · exact (heffect.mem k _).2 (.inr ⟨hal, hk, rfl⟩)
    · rcases (heffect.mem k e).1 he with ⟨he, -⟩ | ⟨hal, -, rfl⟩
      · exact .inl (hli k e he)
      · exact .inr ⟨hal, rfl⟩
  · have hs := unreached_eq hse s.redis (by simpa using hc) fun ho => hc (hr ho)
    unfold Recorded
    rw [hs]
    exact ⟨fun hf => (by cases hf), fun k e he => .inl he, hfr⟩

end Run

end AgentWallet.Bolt12.InboundRate
