import Mathlib.Data.List.Nodup
import Mathlib.Data.List.Infix
/-!
# Insertion-ordered dictionaries

A dictionary keeps the order in which its keys were first written. Writing a key
that is present changes its value in place, so the first entry is the oldest.
-/

namespace AgentWallet.Lib

open List

variable {κ α : Type} [DecidableEq κ]

/-- Write `key`: in place when it is present, at the end when it is not. -/
def setEntry (key : κ) (value : α) : List (κ × α) → List (κ × α)
  | [] => [(key, value)]
  | e :: es => if e.1 = key then (key, value) :: es else e :: setEntry key value es

lemma keys_setEntry (key : κ) (value : α) (es : List (κ × α)) :
    (setEntry key value es).map Prod.fst =
      if key ∈ es.map Prod.fst then es.map Prod.fst else es.map Prod.fst ++ [key] := by
  induction es with
  | nil => rfl
  | cons e es ih =>
    rw [setEntry]
    split
    case isTrue h => simp [h]
    rename_i h
    have hne : ¬ key = e.1 := fun he => h he.symm
    simp only [map_cons, ih, mem_cons, hne, false_or]
    split <;> rfl

structure Dict (κ α : Type) where
  entries : List (κ × α)
  nodup : (entries.map Prod.fst).Nodup

namespace Dict

def empty : Dict κ α := ⟨[], List.nodup_nil⟩

variable (d : Dict κ α) (key : κ) (value : α)

def get? : Option α := d.entries.lookup key

def length : Nat := d.entries.length

def set : Dict κ α where
  entries := setEntry key value d.entries
  nodup := by
    rw [keys_setEntry]
    split
    case isTrue => exact d.nodup
    case isFalse h => exact List.nodup_append.2 ⟨d.nodup, List.nodup_singleton key,
      fun a ha b hb => by rintro rfl; exact h (List.mem_singleton.1 hb ▸ ha)⟩

/-- Delete the `n` oldest entries. -/
def dropOldest (n : Nat) : Dict κ α where
  entries := d.entries.drop n
  nodup := d.nodup.sublist ((List.drop_sublist n d.entries).map Prod.fst)

@[simp] lemma dropOldest_zero : d.dropOldest 0 = d := rfl

lemma lookup_cons_eq (key k : κ) (v : α) (es : List (κ × α)) :
    ((k, v) :: es).lookup key = if key = k then some v else es.lookup key := by
  rw [lookup_cons]
  split
  case h_1 h => rw [if_pos (eq_of_beq h)]
  case h_2 h => rw [if_neg (ne_of_beq_false h)]

lemma lookup_setEntry (key other : κ) (value : α) (es : List (κ × α)) :
    (setEntry key value es).lookup other = if other = key then some value else es.lookup other := by
  induction es with
  | nil => exact lookup_cons_eq other key value []
  | cons e es ih =>
    obtain ⟨k, v⟩ := e
    rw [setEntry, lookup_cons_eq]
    grind [lookup_cons_eq]

@[simp] lemma get?_set_self : (d.set key value).get? key = some value := by
  simp [get?, set, lookup_setEntry]

lemma get?_set_of_ne {key other : κ} (value : α) (h : other ≠ key) :
    (d.set key value).get? other = d.get? other := by
  simp [get?, set, lookup_setEntry, h]

lemma mem_keys_of_get? {d : Dict κ α} {key : κ} {value : α} (h : d.get? key = some value) :
    key ∈ d.entries.map Prod.fst := by
  by_contra hm
  have hn : d.entries.lookup key = none := lookup_eq_none_iff.2 fun p hp => by
    simp only [bne_iff_ne, ne_eq]
    rintro rfl
    exact hm (mem_map_of_mem hp)
  rw [get?, hn] at h
  cases h

lemma get?_of_mem {d : Dict κ α} {key : κ} {value : α} (h : (key, value) ∈ d.entries) : d.get? key = some value := by
  obtain ⟨es, hn⟩ := d
  rw [get?]
  induction es with
  | nil => cases h
  | cons e es ih =>
    rw [lookup_cons_eq]
    grind

lemma length_set_of_get? {d : Dict κ α} {key : κ} {old : α} (value : α) (h : d.get? key = some old) :
    (d.set key value).length = d.length := by
  have hk := congrArg List.length (keys_setEntry key value d.entries)
  rw [if_pos (mem_keys_of_get? h)] at hk
  simpa [length, set] using hk

lemma length_set_le :
    d.length ≤ (d.set key value).length ∧ (d.set key value).length ≤ d.length + 1 := by
  have hk := congrArg List.length (keys_setEntry key value d.entries)
  simp only [length_map] at hk
  simp only [length, set, hk]
  split <;> simp

end Dict

end AgentWallet.Lib
