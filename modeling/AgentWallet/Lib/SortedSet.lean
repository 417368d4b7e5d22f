import Mathlib.Data.List.Nodup
import Mathlib.Order.Lattice
/-!
# Sorted sets

Redis's sorted sets: members with a score each. The order of the entries is not
observed by the commands here, so a set is a list of entries with distinct
members.
-/

namespace AgentWallet.Lib

open List

structure ZSet (α β : Type) where
  entries : List (α × β)
  nodup : (entries.map Prod.fst).Nodup

namespace ZSet

variable {α β : Type} [DecidableEq α] [LinearOrder β]

def empty : ZSet α β := ⟨[], List.nodup_nil⟩

variable (s : ZSet α β) (member : α)

/-- The entries that satisfy `p`. -/
def restrict (p : α × β → Bool) : ZSet α β :=
  ⟨s.entries.filter p, s.nodup.sublist (List.filter_sublist.map _)⟩

def zrem : ZSet α β := s.restrict fun e => e.1 ≠ member

/-- `ZREMRANGEBYSCORE key -inf max` -/
def zremrangebyscore (max : β) : ZSet α β := s.restrict fun e => max < e.2

/-- `ZRANGE key min +inf BYSCORE` -/
def zrangebyscore (min : β) : List α := (s.entries.filter fun e => min ≤ e.2).map Prod.fst

def zcard : Nat := s.entries.length

def zscore : Option β := (s.entries.find? fun e => e.1 = member).map Prod.snd

/-- `ZADD`: a member that is there gets the new score. -/
def zadd (score : β) (member : α) : ZSet α β where
  entries := (s.zrem member).entries ++ [(member, score)]
  nodup := by
    rw [List.map_append, List.nodup_append]
    refine ⟨(s.zrem member).nodup, List.nodup_singleton _, ?_⟩
    intro a ha b hb
    obtain ⟨e, he, rfl⟩ := List.mem_map.1 ha
    rw [List.mem_singleton.1 hb]
    simpa [zrem, restrict] using (List.mem_filter.1 he).2

variable {s : ZSet α β} {e : α × β} {m : α} {x : β}

@[simp] lemma entries_empty : (empty : ZSet α β).entries = [] := rfl

@[simp] lemma mem_restrict {p : α × β → Bool} : e ∈ (s.restrict p).entries ↔ e ∈ s.entries ∧ p e = true := by
  simp [restrict]

@[simp] lemma mem_zrem : e ∈ (s.zrem m).entries ↔ e ∈ s.entries ∧ e.1 ≠ m := by simp [zrem]

@[simp] lemma mem_zremrangebyscore : e ∈ (s.zremrangebyscore x).entries ↔ e ∈ s.entries ∧ x < e.2 := by
  simp [zremrangebyscore]

@[simp] lemma mem_zadd : e ∈ (s.zadd x m).entries ↔ (e ∈ s.entries ∧ e.1 ≠ m) ∨ e = (m, x) := by
  simp [zadd]

lemma mem_of_zscore (h : s.zscore m = some x) : (m, x) ∈ s.entries := by
  obtain ⟨e, he, rfl⟩ := Option.map_eq_some_iff.1 h
  have hm := find?_some he
  rw [← of_decide_eq_true hm]
  exact mem_of_find?_eq_some he

lemma zscore_of_mem (h : (m, x) ∈ s.entries) : s.zscore m = some x := by
  have hs : (s.entries.find? fun e => e.1 = m).isSome := find?_isSome.2 ⟨_, h, by simp⟩
  obtain ⟨e, he⟩ := Option.isSome_iff_exists.1 hs
  have hm := find?_some he
  have : e = (m, x) := inj_on_of_nodup_map s.nodup (mem_of_find?_eq_some he) h (of_decide_eq_true hm)
  rw [zscore, he, this]
  rfl

end ZSet

end AgentWallet.Lib
