import Mathlib.Data.List.Perm.Subperm
import Mathlib.Tactic.Ring
import AgentWallet.Lib.Window
import AgentWallet.Core.RateLimit
/-!
# The ledger of the payment limits

Beside Redis a ledger is kept: an item for each admission, changed by a
reconciliation and taken out by a roll-back, which no trimming and no expiry
ever touches. The sets hold every item that is still in its window, and that is
why the ledger is capped (`Inv`). Here each command is shown to keep that.
-/

namespace AgentWallet.RateLimit

open AgentWallet.Lib List Function

/-! ## Members -/

def memberUuid (m : String) : List Char := m.toList.drop (m.toList.length - 32)

@[simp] lemma memberUuid_member (front : List Char) (uuid : Hex) : memberUuid (member front uuid) = uuid.text := by
  have hl : (front ++ ':' :: uuid.text).length - 32 = (front ++ [':']).length := by
    simp [uuid.length]
  rw [memberUuid, member, String.toList_ofList, hl, append_cons front ':' uuid.text, drop_left]

@[simp] lemma memberAmount_spendMember (amount : Nat) (uuid : Hex) :
    memberAmount (spendMember amount uuid) = some amount := by
  have hd : ∀ c ∈ Nat.toDigits 10 amount, c.isDigit = true :=
    fun c hc => Nat.isDigit_of_mem_toDigits (by decide) (by decide) hc
  have hco : (':' :: uuid.text).takeWhile Char.isDigit = [] := rfl
  have ht : (spendMember amount uuid).toList.takeWhile Char.isDigit = Nat.toDigits 10 amount := by
    rw [spendMember, member, String.toList_ofList, takeWhile_append_of_pos hd, hco, append_nil]
  have hdr : (spendMember amount uuid).toList.drop (Nat.toDigits 10 amount).length = ':' :: uuid.text := by
    rw [spendMember, member, String.toList_ofList, drop_left]
  simp [memberAmount, ht, hdr, Nat.toDigits_ne_nil, Nat.ofDigitChars_toDigits]

def memberWeight : Key → String → Nat
  | .spend _, m => (memberAmount m).getD 0
  | .velocity _, _ => 1

/-! ## Stored sets -/

namespace Stored

variable {k : Stored} {e : String × ℚ} {m : String} {x : ℚ}

@[simp] lemma mem_normal : e ∈ k.normal.set.entries ↔ e ∈ k.set.entries := by
  unfold normal
  by_cases h : k.set.entries = []
  · simp [h]
  · simp [h]

lemma expireAt_normal {d : ℚ} (h : k.normal.expireAt = some d) : k.expireAt = some d := by
  unfold normal at h
  by_cases hk : k.set.entries = []
  · simp [hk] at h
  · simpa [hk] using h

@[simp] lemma mem_zrem : e ∈ (k.zrem m).set.entries ↔ e ∈ k.set.entries ∧ e.1 ≠ m := by simp [zrem]

@[simp] lemma mem_zremrangebyscore : e ∈ (k.zremrangebyscore x).set.entries ↔ e ∈ k.set.entries ∧ x < e.2 := by
  simp [zremrangebyscore]

@[simp] lemma mem_zadd : e ∈ (k.zadd x m).set.entries ↔ (e ∈ k.set.entries ∧ e.1 ≠ m) ∨ e = (m, x) := by
  simp [zadd]

lemma live_cases (k : Stored) (now : ℚ) :
    (k.live now = k) ∨ (k.live now = {} ∧ ∃ d, k.expireAt = some d ∧ d ≤ now) := by
  by_cases h : ∃ d ∈ k.expireAt, d ≤ now
  · exact .inr ⟨if_pos h, h⟩
  · exact .inl (if_neg h)

def load (key : Key) (k : Stored) : Nat := (k.set.entries.map fun e => memberWeight key e.1).sum

end Stored

/-! ## The two checks are one -/

/-- What a check script does to its set: it drops what has left the window, and
adds the member when there is room. -/
inductive Checked (key : Key) (k : Stored) (clock windowStart now : ℚ) (weight : Nat) (limit : Int) (m : String) (ttl : Nat) :
    Stored × Int × String → Prop
  | refused (text : String) :
    Checked key k clock windowStart now weight limit m ttl (k.zremrangebyscore windowStart, 0, text)
  | admitted (text : String) (room : ((k.zremrangebyscore windowStart).load key + weight : ℤ) ≤ limit) :
    Checked key k clock windowStart now weight limit m ttl
      ({ (k.zremrangebyscore windowStart).zadd now m with expireAt := some (clock + ttl) }, 1, text)

lemma sum_filterMap {α : Type} (f : α → Option Nat) (l : List α) :
    (l.filterMap f).sum = (l.map fun x => (f x).getD 0).sum := by
  induction l with
  | nil => rfl
  | cons x l ih => cases hx : f x <;> simp [hx, ih]

lemma spendCheckScript_checked (apiKeyId : String) (k : Stored) (clock windowStart now : ℚ) (amount : Nat) (limit : Int)
    (m : String) (ttl : Nat) : Checked (.spend apiKeyId) k clock windowStart now amount limit m ttl
      (spendCheckScript k clock windowStart now amount limit m ttl) := by
  have ht : (((k.zremrangebyscore windowStart).set.zrangebyscore windowStart).filterMap memberAmount).sum =
      (k.zremrangebyscore windowStart).load (.spend apiKeyId) := by
    have ha : ((k.zremrangebyscore windowStart).set.entries.filter fun e => windowStart ≤ e.2) =
        (k.zremrangebyscore windowStart).set.entries := by
      rw [filter_eq_self]
      intro e he
      exact decide_eq_true (Stored.mem_zremrangebyscore.1 he).2.le
    rw [sum_filterMap, ZSet.zrangebyscore, ha, map_map]
    rfl
  unfold spendCheckScript
  simp only [ht]
  by_cases h : ((k.zremrangebyscore windowStart).load (.spend apiKeyId) + amount : ℤ) > limit
  · rw [if_pos h]
    exact .refused _
  · rw [if_neg h]
    exact .admitted _ (not_lt.1 h)

lemma velocityCheckScript_checked (apiKeyId : String) (k : Stored) (clock windowStart now : ℚ) (maxTxns : Int)
    (m : String) (ttl : Nat) : Checked (.velocity apiKeyId) k clock windowStart now 1 maxTxns m ttl
      (velocityCheckScript k clock windowStart now maxTxns m ttl) := by
  have hc : (k.zremrangebyscore windowStart).set.zcard = (k.zremrangebyscore windowStart).load (.velocity apiKeyId) := by
    simp [Stored.load, memberWeight, ZSet.zcard]
  unfold velocityCheckScript
  simp only [hc]
  by_cases h : ((k.zremrangebyscore windowStart).load (.velocity apiKeyId) : ℤ) ≥ maxTxns
  · rw [if_pos h]
    exact .refused _
  · rw [if_neg h]
    exact .admitted _ (by push_cast; omega)

/-! ## The machine -/

structure Item where
  key : Key
  member : String
  time : ℚ
  weight : Nat

/-- Redis and its clock. What no command reads is kept beside it: who drew which
uuid, and the ledger. -/
structure World (T : Type) where
  keys : Key → Stored := fun _ => {}
  clock : ℚ
  owner : List Char → Option T := fun _ => none
  ledger : List Item := []

namespace World

variable {T : Type}

def advance (w : World T) (now : ℚ) : World T :=
  { w with clock := max w.clock now, keys := fun k => (w.keys k).live (max w.clock now) }

def put (w : World T) (key : Key) (k : Stored) : World T := { w with keys := Function.update w.keys key k }

/-- The effect of a check: its set, and an item when it admitted. -/
def checked (w : World T) (res : Stored × Int × String) (item : Item) : World T :=
  { w.put item.key res.1 with ledger := if res.2.1 = 1 then w.ledger ++ [item] else w.ledger }

def reconciled (key : Key) (oldMember newMember : String) (i : Item) : Item :=
  if i.key = key ∧ i.member = oldMember then
    { i with member := newMember, weight := (memberAmount newMember).getD 0 }
  else i

/-- The member carries a uuid that the task drew. -/
def Mine (w : World T) (t : T) (m : String) : Prop := w.owner (memberUuid m) = some t

instance [DecidableEq T] (w : World T) (t : T) (m : String) : Decidable (w.Mine t m) :=
  inferInstanceAs (Decidable (_ = _))

end World

/-- A script runs at the time its caller read. Uuids are new. -/
def exec {T : Type} (t : T) : (c : Cmd) → World T → Except String c.Reply → World T → Prop
  | .time, w, r, w' => (∃ now, r = .ok now) ∧ w' = w
  | .uuid4, w, r, w' => ∃ u : Hex, w.owner u.text = none ∧ r = .ok u ∧
      w' = { w with owner := Function.update w.owner u.text (some t) }
  | .evalSpend key windowStart now amount limit m ttl, w, r, w' =>
      let w := w.advance now
      let res := spendCheckScript (w.keys key) w.clock windowStart now amount limit m ttl
      r = .ok res.2 ∧ w' = w.checked res ⟨key, m, now, amount⟩
  | .evalVelocity key windowStart now maxTxns m ttl, w, r, w' =>
      let w := w.advance now
      let res := velocityCheckScript (w.keys key) w.clock windowStart now maxTxns m ttl
      r = .ok res.2 ∧ w' = w.checked res ⟨key, m, now, 1⟩
  | .evalReconcile key oldMember newMember, w, r, w' =>
      let res := reconcileSpendScript (w.keys key) oldMember newMember
      r = .ok res.2 ∧
        w' = { w.put key res.1 with ledger := w.ledger.map (World.reconciled key oldMember newMember) }
  | .zrem key m, w, r, w' => r = .ok () ∧
      w' = { w.put key ((w.keys key).zrem m) with ledger := w.ledger.filter fun i => ¬(i.key = key ∧ i.member = m) }

/-- Redis is available: no command raises. -/
def limiter (T : Type) : Machine T Cmd Cmd.Reply String (World T) where
  exec := exec
  env w w' := ∃ now, w' = w.advance now

/-- Clock readings do not decrease, and a reconciliation does not exceed what is
reserved. -/
def Orderly {T : Type} (_ : T) : Cmd → World T → Prop
  | .evalSpend _ _ now _ _ _ _, w => w.clock ≤ now
  | .evalVelocity _ _ now _ _ _, w => w.clock ≤ now
  | .evalReconcile key oldMember newMember, w =>
      ∀ i ∈ w.ledger, i.key = key → i.member = oldMember → (memberAmount newMember).getD 0 ≤ i.weight
  | _, _ => True

/-! ## The invariant -/

def Settings.window (settings : Settings) : Key → Nat
  | .spend _ => settings.lndRateLimitWindowSeconds
  | .velocity _ => settings.lndVelocityWindowSeconds

def Settings.cap (settings : Settings) : Key → Int
  | .spend _ => settings.lndRateLimitSats
  | .velocity _ => settings.lndVelocityMaxTxns

section

variable {T : Type} {settings : Settings} {w : World T}

/-- A key lives as long as its entries are in the window, and entries are of
the past. -/
structure SetsOk (settings : Settings) (w : World T) : Prop where
  lasting : ∀ key d, (w.keys key).expireAt = some d → ∀ e ∈ (w.keys key).set.entries, e.2 + settings.window key + 60 ≤ d
  entered : ∀ key, ∀ e ∈ (w.keys key).set.entries, e.2 ≤ w.clock ∧ w.owner (memberUuid e.1) ≠ none

structure Inv (settings : Settings) (w : World T) : Prop extends SetsOk settings w where
  capped : ∀ key, Capped (settings.window key : ℚ) (settings.cap key) Item.time Item.weight
    (w.ledger.filter fun i => i.key = key)
  past : ∀ i ∈ w.ledger, i.time ≤ w.clock
  kept : ∀ i ∈ w.ledger, w.clock - settings.window i.key < i.time → (i.member, i.time) ∈ (w.keys i.key).set.entries
  weighed : ∀ i ∈ w.ledger, memberWeight i.key i.member = i.weight
  distinct : (w.ledger.map fun i => memberUuid i.member).Nodup
  drawn : ∀ i ∈ w.ledger, w.owner (memberUuid i.member) ≠ none

lemma World.mem_advance {now : ℚ} {key : Key} {e : String × ℚ} (h : e ∈ ((w.advance now).keys key).set.entries) :
    e ∈ (w.keys key).set.entries := by
  change e ∈ ((w.keys key).live _).set.entries at h
  rcases (w.keys key).live_cases (max w.clock now) with hl | ⟨hl, -⟩
  · rwa [hl] at h
  · rw [hl] at h
    cases h

/-- A key expires after all its entries have left the window. -/
lemma Inv.advance (h : Inv settings w) (now : ℚ) : Inv settings (w.advance now) := by
  refine ⟨⟨?_, fun key e he => (h.entered key e (World.mem_advance he)).imp_left fun hle => hle.trans (le_max_left _ _)⟩,
    h.capped, fun i hi => (h.past i hi).trans (le_max_left _ _), ?_, h.weighed, h.distinct, h.drawn⟩
  · intro key d hd e he
    change ((w.keys key).live (max w.clock now)).expireAt = some d at hd
    rcases (w.keys key).live_cases (max w.clock now) with hl | ⟨hl, -⟩
    · rw [hl] at hd
      exact h.lasting key d hd e (World.mem_advance he)
    · rw [hl] at hd
      cases hd
  · intro i hi hin
    have hm := h.kept i hi (lt_of_le_of_lt (sub_le_sub_right (le_max_left _ _) _) hin)
    rcases (w.keys i.key).live_cases (max w.clock now) with hl | ⟨-, d, hd, hle⟩
    · change _ ∈ ((w.keys i.key).live _).set.entries
      rwa [hl]
    · have hla := h.lasting i.key d hd _ hm
      change max w.clock now - _ < i.time at hin
      linarith

lemma World.forall_put {P : Key → Stored → Prop} {key : Key} {k : Stored} (hk : P key k)
    (h : ∀ key', key' ≠ key → P key' (w.keys key')) (key' : Key) : P key' ((w.put key k).keys key') := by
  by_cases hke : key' = key
  · subst hke
    simpa [World.put] using hk
  · simpa [World.put, hke] using h key' hke

lemma SetsOk.put (h : SetsOk settings w) {key : Key} {k : Stored}
    (hl : ∀ d, k.expireAt = some d → ∀ e ∈ k.set.entries, e.2 + settings.window key + 60 ≤ d)
    (he : ∀ e ∈ k.set.entries, e.2 ≤ w.clock ∧ w.owner (memberUuid e.1) ≠ none) : SetsOk settings (w.put key k) := by
  constructor
  · exact World.forall_put (P := fun key k => ∀ d, k.expireAt = some d → ∀ e ∈ k.set.entries,
      e.2 + settings.window key + 60 ≤ d) hl fun key' _ => h.lasting key'
  · exact World.forall_put (P := fun _ k => ∀ e ∈ k.set.entries, e.2 ≤ w.clock ∧ w.owner (memberUuid e.1) ≠ none)
      he fun key' _ => h.entered key'

lemma Inv.put (h : Inv settings w) {key : Key} {k : Stored}
    (hke : ∀ i ∈ w.ledger, i.key = key → w.clock - settings.window key < i.time → (i.member, i.time) ∈ k.set.entries)
    (hl : ∀ d, k.expireAt = some d → ∀ e ∈ k.set.entries, e.2 + settings.window key + 60 ≤ d)
    (he : ∀ e ∈ k.set.entries, e.2 ≤ w.clock ∧ w.owner (memberUuid e.1) ≠ none) : Inv settings (w.put key k) := by
  refine ⟨h.toSetsOk.put hl he, h.capped, h.past, ?_, h.weighed, h.distinct, h.drawn⟩
  intro i hi hin
  by_cases hk : i.key = key
  · have := hke i hi hk (hk ▸ hin)
    simpa [World.put, hk] using this
  · simpa [World.put, hk] using h.kept i hi hin

lemma Inv.append (h : Inv settings w) {item : Item} (ht : item.time = w.clock)
    (hin : (item.member, item.time) ∈ (w.keys item.key).set.entries)
    (hw : memberWeight item.key item.member = item.weight)
    (hu : ∀ i ∈ w.ledger, memberUuid i.member ≠ memberUuid item.member)
    (hr : ((((w.ledger.filter fun i => i.key = item.key).filter fun i =>
      w.clock - settings.window item.key < i.time).map Item.weight).sum + item.weight : ℤ) ≤ settings.cap item.key) :
    Inv settings { w with ledger := w.ledger ++ [item] } := by
  have hl : ∀ {p : Item → Prop}, (∀ i ∈ w.ledger, p i) → p item → ∀ i ∈ w.ledger ++ [item], p i := by
    intro p hp hit i hi
    rcases mem_append.1 hi with hi | hi
    · exact hp i hi
    · rw [mem_singleton.1 hi]
      exact hit
  refine ⟨⟨h.lasting, h.entered⟩, ?_, hl h.past ht.le, hl h.kept fun _ => hin, hl h.weighed hw, ?_,
    hl h.drawn (h.entered _ _ hin).2⟩
  · intro key
    rw [filter_append]
    by_cases hk : item.key = key
    · subst hk
      have ho : [item].filter (fun i => i.key = item.key) = [item] := by simp
      rw [ho]
      exact (h.capped item.key).append ht hr
    · have hn : [item].filter (fun i => i.key = key) = [] := by simp [hk]
      rw [hn, append_nil]
      exact h.capped key
  · rw [map_append, nodup_append]
    refine ⟨h.distinct, nodup_singleton _, ?_⟩
    intro a ha b hb
    obtain ⟨i, hi, rfl⟩ := mem_map.1 ha
    rw [mem_singleton.1 hb]
    exact hu i hi

/-- The items of a set weigh no more than its entries. -/
lemma sum_le_load {items : List Item} {key : Key} {k : Stored} (hd : (items.map fun i => memberUuid i.member).Nodup)
    (hin : ∀ i ∈ items, (i.member, i.time) ∈ k.set.entries) (hw : ∀ i ∈ items, memberWeight key i.member = i.weight) :
    (items.map Item.weight).sum ≤ k.load key := by
  have hn : (items.map fun i => (i.member, i.time)).Nodup := by
    refine List.Nodup.of_map (fun e : String × ℚ => memberUuid e.1) ?_
    rwa [map_map]
  have hs : (items.map fun i => (i.member, i.time)).Subperm k.set.entries := by
    refine hn.subperm fun e he => ?_
    obtain ⟨i, hi, rfl⟩ := mem_map.1 he
    exact hin i hi
  obtain ⟨l, hp, hl⟩ := hs
  have hsu : (items.map Item.weight).sum = (l.map fun e => memberWeight key e.1).sum := by
    rw [(hp.map _).sum_eq, map_map]
    exact congrArg List.sum (map_congr_left fun i hi => (hw i hi).symm)
  rw [hsu]
  exact (hl.map _).sum_le_sum fun _ _ => Nat.zero_le _

lemma Inv.checked (h : Inv settings w) {item : Item} {limit : Int} {ttl : Nat} {res : Stored × Int × String}
    (ht : item.time = w.clock) (hl : limit = settings.cap item.key) (htt : ttl = settings.window item.key + 60)
    (hw : memberWeight item.key item.member = item.weight) (hdr : w.owner (memberUuid item.member) ≠ none)
    (hf : ∀ i ∈ w.ledger, memberUuid i.member ≠ memberUuid item.member)
    (hr : Checked item.key (w.keys item.key) w.clock (item.time - settings.window item.key) item.time item.weight limit
      item.member ttl res) : Inv settings (w.checked res item) := by
  set start := item.time - settings.window item.key with hs
  have hke : ∀ i ∈ w.ledger, i.key = item.key → w.clock - settings.window item.key < i.time →
      (i.member, i.time) ∈ ((w.keys item.key).zremrangebyscore start).set.entries := by
    intro i hi hk hin
    rw [Stored.mem_zremrangebyscore, hs, ht]
    exact ⟨hk ▸ h.kept i hi (hk ▸ hin), hin⟩
  have hen : ∀ e ∈ ((w.keys item.key).zremrangebyscore start).set.entries,
      e.2 ≤ w.clock ∧ w.owner (memberUuid e.1) ≠ none :=
    fun e he => h.entered _ e (Stored.mem_zremrangebyscore.1 he).1
  cases hr with
  | refused text =>
    simp only [World.checked]
    refine h.put hke ?_ hen
    intro d hd e he
    have hd := Stored.expireAt_normal hd
    exact h.lasting item.key d hd e (Stored.mem_zremrangebyscore.1 he).1
  | admitted text room =>
    simp only [World.checked, if_true]
    have hp : Inv settings (w.put item.key
        { ((w.keys item.key).zremrangebyscore start).zadd item.time item.member with expireAt := some (w.clock + ttl) }) := by
      refine h.put ?_ ?_ ?_
      · intro i hi hk hin
        refine Stored.mem_zadd.2 (.inl ⟨hke i hi hk hin, fun hm => hf i hi ?_⟩)
        exact congrArg memberUuid hm
      · intro d hd e he
        obtain rfl := Option.some.inj hd
        have hle : e.2 ≤ w.clock := by
          rcases Stored.mem_zadd.1 he with ⟨he, -⟩ | rfl
          · exact (hen e he).1
          · exact ht.le
        rw [htt]
        push_cast
        linarith
      · intro e he
        rcases Stored.mem_zadd.1 he with ⟨he, -⟩ | rfl
        · exact hen e he
        · exact ⟨ht.le, hdr⟩
    refine hp.append ht ?_ hw hf ?_
    · simp [World.put]
    rw [hl] at room
    refine le_trans ?_ room
    have hsu := @sum_le_load ((w.ledger.filter fun i => i.key = item.key).filter fun i =>
        w.clock - settings.window item.key < i.time) item.key ((w.keys item.key).zremrangebyscore start)
      (h.distinct.sublist ((filter_sublist.trans filter_sublist).map _)) ?_ ?_
    · change (((((w.ledger.filter fun i => i.key = item.key).filter fun i =>
        w.clock - settings.window item.key < i.time).map Item.weight).sum : ℤ) + item.weight) ≤ _
      omega
    · intro i hi
      obtain ⟨hi, hin⟩ := mem_filter.1 hi
      obtain ⟨hi, hk⟩ := mem_filter.1 hi
      exact hke i hi (of_decide_eq_true hk) (of_decide_eq_true hin)
    · intro i hi
      obtain ⟨hi, hk⟩ := mem_filter.1 (mem_filter.1 hi).1
      rw [← of_decide_eq_true hk]
      exact h.weighed i hi

lemma Inv.zrem (h : Inv settings w) (key : Key) (m : String) :
    Inv settings { w.put key ((w.keys key).zrem m) with
      ledger := w.ledger.filter fun i => ¬(i.key = key ∧ i.member = m) } := by
  have hs : ∀ {i}, i ∈ w.ledger.filter (fun i => ¬(i.key = key ∧ i.member = m)) → i ∈ w.ledger :=
    fun hi => (mem_filter.1 hi).1
  have hf : Inv settings { w with ledger := w.ledger.filter fun i => ¬(i.key = key ∧ i.member = m) } := by
    refine ⟨⟨h.lasting, h.entered⟩, ?_, fun i hi => h.past i (hs hi), fun i hi => h.kept i (hs hi),
      fun i hi => h.weighed i (hs hi), h.distinct.sublist (filter_sublist.map _), fun i hi => h.drawn i (hs hi)⟩
    intro key'
    rw [filter_comm]
    exact (h.capped key').filter _
  refine hf.put ?_ ?_ ?_
  · intro i hi hk hin
    rw [Stored.mem_zrem]
    refine ⟨hk ▸ h.kept i (hs hi) (hk ▸ hin), fun hm => ?_⟩
    exact of_decide_eq_true (mem_filter.1 hi).2 ⟨hk, hm⟩
  · intro d hd e he
    have hd := Stored.expireAt_normal hd
    exact h.lasting key d hd e (Stored.mem_zrem.1 he).1
  · intro e he
    exact h.entered key e (Stored.mem_zrem.1 he).1

variable (key : Key) (oldMember newMember : String) (i : Item)

lemma reconciled_cases :
    (i.key = key ∧ i.member = oldMember ∧ World.reconciled key oldMember newMember i =
      ⟨i.key, newMember, i.time, (memberAmount newMember).getD 0⟩) ∨
    (¬(i.key = key ∧ i.member = oldMember) ∧ World.reconciled key oldMember newMember i = i) := by
  by_cases h : i.key = key ∧ i.member = oldMember
  · exact .inl ⟨h.1, h.2, if_pos h⟩
  · exact .inr ⟨h, if_neg h⟩

@[simp] lemma reconciled_key :
    (World.reconciled key oldMember newMember i).key = i.key := by
  rcases reconciled_cases key oldMember newMember i with ⟨-, -, h⟩ | ⟨-, h⟩ <;> rw [h]

@[simp] lemma reconciled_time :
    (World.reconciled key oldMember newMember i).time = i.time := by
  rcases reconciled_cases key oldMember newMember i with ⟨-, -, h⟩ | ⟨-, h⟩ <;> rw [h]

/-- The set after the script: unchanged when the old member is not there, else
with the new member under the old score. -/
lemma reconcileSpendScript_cases (k : Stored) (oldMember newMember : String) :
    ((∀ x, (oldMember, x) ∉ k.set.entries) ∧ (reconcileSpendScript k oldMember newMember).1 = k) ∨
    ∃ score, (oldMember, score) ∈ k.set.entries ∧
      (reconcileSpendScript k oldMember newMember).1 = (k.zrem oldMember).zadd score newMember := by
  unfold reconcileSpendScript
  cases h : k.set.zscore oldMember with
  | none =>
    refine .inl ⟨fun x hx => ?_, rfl⟩
    rw [ZSet.zscore_of_mem hx] at h
    cases h
  | some score => exact .inr ⟨score, ZSet.mem_of_zscore h, rfl⟩

lemma mem_reconcileSpendScript {k : Stored} {oldMember newMember : String} {e : String × ℚ}
    (h : e ∈ (reconcileSpendScript k oldMember newMember).1.set.entries) :
    (e ∈ k.set.entries ∧ e.1 ≠ oldMember) ∨ (e.1 = newMember ∧ (oldMember, e.2) ∈ k.set.entries) := by
  rcases reconcileSpendScript_cases k oldMember newMember with ⟨hno, hk⟩ | ⟨score, hs, hk⟩
  · rw [hk] at h
    refine .inl ⟨h, fun he => hno e.2 ?_⟩
    rw [← he]
    exact h
  · rw [hk, Stored.mem_zadd, Stored.mem_zrem] at h
    rcases h with ⟨h, -⟩ | rfl
    · exact .inl h
    · exact .inr ⟨rfl, hs⟩

lemma Inv.reconcile (h : Inv settings w) {apiKeyId oldMember newMember : String}
    (hle : ∀ i ∈ w.ledger, i.key = .spend apiKeyId → i.member = oldMember → (memberAmount newMember).getD 0 ≤ i.weight)
    (hdr : w.owner (memberUuid newMember) ≠ none)
    (hfr : ∀ i ∈ w.ledger, memberUuid i.member ≠ memberUuid newMember) :
    Inv settings { w.put (.spend apiKeyId) (reconcileSpendScript (w.keys (.spend apiKeyId)) oldMember newMember).1 with
      ledger := w.ledger.map (World.reconciled (.spend apiKeyId) oldMember newMember) } := by
  set key := Key.spend apiKeyId with hke
  set k := (reconcileSpendScript (w.keys key) oldMember newMember).1 with hk
  have hf : ∀ {p : Item → Prop}, (∀ i ∈ w.ledger, p (World.reconciled key oldMember newMember i)) →
      ∀ i ∈ w.ledger.map (World.reconciled key oldMember newMember), p i := by
    intro p hp i hi
    obtain ⟨j, hj, rfl⟩ := mem_map.1 hi
    exact hp j hj
  have hexpire : ∀ d, k.expireAt = some d → (w.keys key).expireAt = some d := by
    intro d hd
    rcases reconcileSpendScript_cases (w.keys key) oldMember newMember with ⟨-, hk'⟩ | ⟨score, -, hk'⟩
    · rwa [hk, hk'] at hd
    · rw [hk, hk'] at hd
      have hd := Stored.expireAt_normal hd
      exact hd
  have hse : SetsOk settings (w.put key k) := by
    refine h.toSetsOk.put ?_ ?_
    · intro d hd e he
      rcases mem_reconcileSpendScript he with ⟨he, -⟩ | ⟨-, he⟩
      · exact h.lasting key d (hexpire d hd) e he
      · exact h.lasting key d (hexpire d hd) (oldMember, e.2) he
    · intro e he
      rcases mem_reconcileSpendScript he with ⟨he, -⟩ | ⟨hm, he⟩
      · exact h.entered key e he
      · exact ⟨(h.entered key _ he).1, hm ▸ hdr⟩
  refine ⟨⟨hse.lasting, hse.entered⟩, ?_, ?_, ?_, ?_, ?_, ?_⟩
  · intro key'
    have hfi : (w.ledger.map (World.reconciled key oldMember newMember)).filter (fun i => i.key = key') =
        (w.ledger.filter fun i => i.key = key').map (World.reconciled key oldMember newMember) := by
      rw [filter_map]
      simp [comp_def]
    rw [hfi]
    refine (h.capped key').map (fun i _ => reconciled_time _ _ _ _) ?_
    intro i hi
    have hi := (mem_filter.1 hi).1
    rcases reconciled_cases key oldMember newMember i with ⟨hik, him, hr⟩ | ⟨-, hr⟩
    · rw [hr]
      exact hle i hi hik him
    · rw [hr]
  · refine hf fun i hi => ?_
    rw [reconciled_time]
    exact h.past i hi
  · refine hf fun i hi hin => ?_
    rw [reconciled_key, reconciled_time] at hin ⊢
    have hme := h.kept i hi hin
    by_cases hik : i.key = key
    · rw [hik] at hme ⊢
      simp only [World.put, update_self]
      rcases reconcileSpendScript_cases (w.keys key) oldMember newMember with ⟨hno, hk'⟩ | ⟨score, hs, hk'⟩
      · rw [hk, hk']
        rcases reconciled_cases key oldMember newMember i with ⟨-, him, -⟩ | ⟨-, hr⟩
        · exact absurd (him ▸ hme) (hno i.time)
        · rwa [hr]
      · rw [hk, hk', Stored.mem_zadd, Stored.mem_zrem]
        rcases reconciled_cases key oldMember newMember i with ⟨-, him, hr⟩ | ⟨hne, hr⟩
        · rw [hr]
          have hsc := (ZSet.zscore_of_mem hs).symm.trans (ZSet.zscore_of_mem (him ▸ hme))
          exact .inr (by rw [Option.some.inj hsc])
        · rw [hr]
          exact .inl ⟨⟨hme, fun him => hne ⟨hik, him⟩⟩, fun him => hfr i hi (congrArg memberUuid him)⟩
    · rcases reconciled_cases key oldMember newMember i with ⟨hik', -, -⟩ | ⟨-, hr⟩
      · exact absurd hik' hik
      · rw [hr]
        simpa [World.put, hik] using hme
  · refine hf fun i hi => ?_
    rcases reconciled_cases key oldMember newMember i with ⟨hik, -, hr⟩ | ⟨-, hr⟩
    · rw [hr, hik]
      rfl
    · rw [hr]
      exact h.weighed i hi
  · rw [map_map]
    have hp := pairwise_map.1 h.distinct
    refine pairwise_map.2 (hp.imp_of_mem ?_)
    intro a b ha hb hab
    simp only [comp_apply]
    rcases reconciled_cases key oldMember newMember a with ⟨-, ham, hra⟩ | ⟨-, hra⟩ <;>
      rcases reconciled_cases key oldMember newMember b with ⟨-, hbm, hrb⟩ | ⟨-, hrb⟩ <;> rw [hra, hrb]
    · exact absurd (by rw [ham, hbm]) hab
    · exact (hfr b hb).symm
    · exact hfr a ha
    · exact hab
  · refine hf fun i hi => ?_
    rcases reconciled_cases key oldMember newMember i with ⟨-, -, hr⟩ | ⟨-, hr⟩
    · rw [hr]
      exact hdr
    · rw [hr]
      exact h.drawn i hi

/-! ## What the invariant says of a window -/

/-- The number of sends admitted in `(t - W, t]` and not rolled back. -/
def World.sends (w : World T) (apiKeyId : String) (window : Nat) (now : ℚ) : Nat :=
  (w.ledger.filter fun i => i.key = .velocity apiKeyId ∧ now - window < i.time ∧ i.time ≤ now).length

end

end AgentWallet.RateLimit
