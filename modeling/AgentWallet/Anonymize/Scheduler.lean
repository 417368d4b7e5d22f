import Mathlib.Algebra.Order.Ring.Rat
import Mathlib.Data.List.Sort
import Mathlib.Data.Prod.Lex
import Mathlib.Data.String.Basic
import Mathlib.Tactic.Linarith
/-!
# The recurring tasks (`scheduler.py`)

One supervisor runs the recurring tasks, one at a time: the one that has been due for
longest. After a run a task is due an interval later, and later still if the run
failed. So a task that is due waits for one run of each other task at most.

That holds as long as the supervisor lives. The cooldown is computed from `2.0 ** n`,
which raises for `n = 1024`: the failure after 1024 others in a row ends the loop.
-/

namespace AgentWallet.Anonymize.Scheduler

open List

structure RecurringTask where
  name : String
  intervalS : ℚ
  lastRunAt : Option ℚ := none
  consecutiveFailures : ℕ := 0
  cooldownUntil : Option ℚ := none

/-- `due_at_unix_s` -/
def RecurringTask.dueAt (t : RecurringTask) : WithBot ℚ :=
  let base : WithBot ℚ := t.lastRunAt.elim ⊥ fun last => ((last + t.intervalS : ℚ) : WithBot ℚ)
  t.cooldownUntil.elim base fun cooldown => max base cooldown

def RecurringTask.key (t : RecurringTask) : WithBot ℚ ×ₗ String := toLex (t.dueAt, t.name)

def pickNextDueTask (tasks : List RecurringTask) (now : ℚ) : Option RecurringTask :=
  ((tasks.filter fun t => t.dueAt ≤ (now : WithBot ℚ)).insertionSort fun t u => t.key ≤ u.key).head?

structure Backoff where
  baseS : ℚ := 5
  capS : ℚ := 600

variable (b : Backoff)

/-- `record_run_outcome`: the task after a run, and whether the bookkeeping raises. -/
def recordRunOutcome (t : RecurringTask) (success : Bool) (now : ℚ) : RecurringTask × Bool :=
  if success then ({ t with lastRunAt := some now, consecutiveFailures := 0, cooldownUntil := none }, false)
  else
    let failed := { t with lastRunAt := some now, consecutiveFailures := t.consecutiveFailures + 1 }
    -- `2.0 ** 1024` is an `OverflowError`
    if 1024 ≤ t.consecutiveFailures then (failed, true)
    else ({ failed with cooldownUntil := some (now + min (b.baseS * 2 ^ t.consecutiveFailures) b.capS) }, false)

/-- `running` is false once the loop has been left by an exception. -/
structure SchedulerState where
  tasks : List RecurringTask
  running : Bool := true

/-- A pass of the loop: when it picks a task, and when and how the run of the task ends. -/
structure Pass where
  pickedAt : ℚ
  endedAt : ℚ
  success : Bool

def started (s : SchedulerState) (p : Pass) : Option RecurringTask :=
  if s.running then pickNextDueTask s.tasks p.pickedAt else none

/-- A pass of `_run_loop`, with `_run_one` -/
def pass (s : SchedulerState) (p : Pass) : SchedulerState :=
  match started s p with
  | none => s
  | some t =>
    let (ran, raised) := recordRunOutcome b t p.success p.endedAt
    { tasks := s.tasks.map fun u => if u.name = t.name then ran else u, running := !raised }

def run (s : SchedulerState) (ps : List Pass) : SchedulerState := ps.foldl (pass b) s

def starts : SchedulerState → List Pass → List String
  | _, [] => []
  | s, p :: ps => ((started s p).map RecurringTask.name).toList ++ starts (pass b s p) ps

def Clocked : ℚ → List Pass → Prop
  | _, [] => True
  | t, p :: ps => t ≤ p.pickedAt ∧ p.pickedAt ≤ p.endedAt ∧ Clocked p.endedAt ps

/-- The pass is not a failure of a task that has failed 1024 times in a row. -/
def Recovers (s : SchedulerState) (p : Pass) : Prop :=
  ∀ t, started s p = some t → p.success = false → t.consecutiveFailures < 1024

def AllRecover : SchedulerState → List Pass → Prop
  | _, [] => True
  | s, p :: ps => Recovers s p ∧ AllRecover (pass b s p) ps

/-- The cooldown ends within the cap of the last run. -/
def RecurringTask.Sound (t : RecurringTask) : Prop :=
  0 < t.intervalS ∧ ∀ cooldown, t.cooldownUntil = some cooldown → ∃ last, t.lastRunAt = some last ∧
    cooldown ≤ last + b.capS

/-- What is wanted of a state and the passes from it. -/
structure Fair (s : SchedulerState) (ps : List Pass) : Prop where
  running : s.running = true
  sound : ∀ t ∈ s.tasks, t.Sound b
  /-- Until a task that is due is started, each pass starts another one. -/
  waits : ∀ a ∈ s.tasks, ∀ t : ℚ, a.dueAt ≤ (t : WithBot ℚ) → Clocked t ps → a.name ∉ starts b s ps →
    (starts b s ps).Nodup ∧ (starts b s ps).length = ps.length ∧ starts b s ps ⊆ s.tasks.map RecurringTask.name
  /-- A run touches no other task. -/
  others : ∀ p t, started s p = some t → ∀ u ∈ s.tasks, u.name ≠ t.name → u ∈ (pass b s p).tasks

variable {b} {s : SchedulerState} {p : Pass} {a t u : RecurringTask} {ran : List String}

variable {now : ℚ} {t' : RecurringTask}

lemma pick_some {tasks : List RecurringTask} (h : pickNextDueTask tasks now = some t) :
    t ∈ tasks ∧ ∀ u ∈ tasks, u.dueAt ≤ (now : WithBot ℚ) → t.dueAt ≤ u.dueAt := by
  obtain ⟨rest, hl⟩ := head?_eq_some_iff.1 h
  have hm : ∀ u, u ∈ t :: rest ↔ u ∈ tasks ∧ u.dueAt ≤ (now : WithBot ℚ) := fun u => by
    rw [← hl, mem_insertionSort, mem_filter, decide_eq_true_eq]
  refine ⟨((hm t).1 mem_cons_self).1, fun u hu hd => ?_⟩
  rcases mem_cons.1 ((hm u).2 ⟨hu, hd⟩) with rfl | hr
  · exact le_rfl
  · have hp := pairwise_insertionSort (fun t u : RecurringTask => t.key ≤ u.key)
      (tasks.filter fun t => t.dueAt ≤ (now : WithBot ℚ))
    rw [hl] at hp
    rcases Prod.Lex.toLex_le_toLex.1 (rel_of_pairwise_cons hp hr) with hlt | ⟨heq, -⟩
    · exact hlt.le
    · exact heq.le

/-- What a run leaves of its task, if the bookkeeping does not raise. -/
lemma record_spec {success : Bool} (h : t.Sound b) (hok : success = false → t.consecutiveFailures < 1024) :
    ∃ t', recordRunOutcome b t success now = (t', false) ∧ t'.Sound b ∧ (now : WithBot ℚ) < t'.dueAt := by
  have hlt : (now : WithBot ℚ) < ((now + t.intervalS : ℚ) : WithBot ℚ) := by
    have := h.1
    exact WithBot.coe_lt_coe.2 (by linarith)
  cases success with
  | true => exact ⟨_, rfl, ⟨h.1, by simp⟩, hlt⟩
  | false =>
    simp only [recordRunOutcome, if_neg (not_le.2 (hok rfl)), Bool.false_eq_true, if_false]
    refine ⟨_, rfl, ⟨h.1, ?_⟩, lt_max_of_lt_left hlt⟩
    rintro cooldown ⟨⟩
    exact ⟨now, rfl, by simp⟩

lemma record_name (success : Bool) (now : ℚ) : (recordRunOutcome b t success now).1.name = t.name := by
  unfold recordRunOutcome
  repeat' split
  all_goals rfl

lemma started_mem (h : started s p = some t) : t ∈ s.tasks := by
  unfold started at h
  split at h
  · exact (pick_some h).1
  · cases h

lemma mem_pass {raised : Bool} (h : started s p = some t)
    (hr : recordRunOutcome b t p.success p.endedAt = (t', raised)) :
    u ∈ (pass b s p).tasks ↔ u ∈ s.tasks ∧ u.name ≠ t.name ∨ u = t' := by
  have hm := started_mem h
  simp only [pass, h, hr, mem_map]
  grind

lemma running_pass {raised : Bool} (h : started s p = some t)
    (hr : recordRunOutcome b t p.success p.endedAt = (t', raised)) : (pass b s p).running = !raised := by
  simp only [pass, h, hr]

def Live (b : Backoff) (s : SchedulerState) : Prop := s.running = true ∧ ∀ t ∈ s.tasks, t.Sound b

lemma Live.pass (h : Live b s) (hok : Recovers s p) : Live b (pass b s p) := by
  cases ht : started s p with
  | none =>
    simp only [Scheduler.pass, ht]
    exact h
  | some t =>
    obtain ⟨t', hr, hs, -⟩ := record_spec (h.2 t (started_mem ht)) (hok t ht)
    refine ⟨running_pass ht hr, fun u hu => ?_⟩
    rcases (mem_pass ht hr).1 hu with ⟨hu, -⟩ | rfl
    · exact h.2 u hu
    · exact hs

/-- `a` waits, and those that have been run since are due after it. -/
def Waiting (a : RecurringTask) (ran : List String) (s : SchedulerState) : Prop :=
  a ∈ s.tasks ∧ ∀ u ∈ s.tasks, u.name ∈ ran → a.dueAt < u.dueAt

lemma Waiting.pass (h : Waiting a ran s) (hl : Live b s) (hd : a.dueAt ≤ (p.pickedAt : WithBot ℚ))
    (he : p.pickedAt ≤ p.endedAt) (hok : Recovers s p) :
    ∃ t, started s p = some t ∧ t.name ∉ ran ∧ (t.name ≠ a.name → Waiting a (t.name :: ran) (pass b s p)) := by
  have hst : started s p = pickNextDueTask s.tasks p.pickedAt := if_pos hl.1
  cases ht : started s p with
  | none =>
    rw [hst, pickNextDueTask, head?_eq_none_iff] at ht
    have : a ∈ ([] : List RecurringTask) := by
      rw [← ht, mem_insertionSort]
      exact mem_filter.2 ⟨h.1, decide_eq_true hd⟩
    exact absurd this not_mem_nil
  | some t =>
    obtain ⟨hm, hle⟩ := pick_some (hst ▸ ht)
    refine ⟨t, rfl, fun hr => (h.2 t hm hr).not_ge (hle a h.1 hd), fun hne => ?_⟩
    obtain ⟨t', hr, -, hlt⟩ := record_spec (hl.2 t hm) (hok t ht)
    refine ⟨(mem_pass ht hr).2 (.inl ⟨h.1, hne.symm⟩), fun u hu hra => ?_⟩
    rcases (mem_pass ht hr).1 hu with ⟨hu, hn⟩ | rfl
    · exact h.2 u hu ((mem_cons.1 hra).resolve_left hn)
    · exact (hd.trans (WithBot.coe_le_coe.2 he)).trans_lt hlt

lemma Waiting.starts {ps : List Pass} (h : Waiting a ran s) (hl : Live b s)
    (hd : a.dueAt ≤ (now : WithBot ℚ)) (hc : Clocked now ps) (hok : AllRecover b s ps) (hn : a.name ∉ starts b s ps) :
    (starts b s ps).Nodup ∧ (starts b s ps).length = ps.length ∧ ∀ n ∈ starts b s ps, n ∉ ran := by
  induction ps generalizing s ran now with
  | nil => simp [Scheduler.starts]
  | cons p ps ih =>
    have hd' := hd.trans (WithBot.coe_le_coe.2 hc.1)
    obtain ⟨t, ht, hra, hw⟩ := h.pass hl hd' hc.2.1 hok.1
    simp only [Scheduler.starts, ht, Option.map_some, Option.toList_some, singleton_append, mem_cons,
      not_or] at hn ⊢
    obtain ⟨hnd, hle, hne⟩ := ih (hw (Ne.symm hn.1)) (hl.pass hok.1) (hd'.trans (WithBot.coe_le_coe.2 hc.2.1)) hc.2.2
      hok.2 hn.2
    refine ⟨nodup_cons.2 ⟨fun hm => hne _ hm mem_cons_self, hnd⟩, by simp [hle], ?_⟩
    rintro n (rfl | hm)
    · exact hra
    · exact fun hr => hne n hm (mem_cons_of_mem _ hr)

lemma Live.run {ps qs : List Pass} (h : Live b s) (hok : AllRecover b s (ps ++ qs)) :
    Live b (run b s ps) ∧ AllRecover b (run b s ps) qs := by
  induction ps generalizing s with
  | nil => exact ⟨h, hok⟩
  | cons p ps ih => exact ih (h.pass hok.1) hok.2

lemma starts_subset (ps : List Pass) : starts b s ps ⊆ s.tasks.map RecurringTask.name := by
  induction ps generalizing s with
  | nil => exact nil_subset _
  | cons p ps ih =>
    rw [starts]
    cases ht : started s p with
    | none => simpa [pass, ht] using ih (s := pass b s p)
    | some t =>
      have hm := mem_map_of_mem (f := RecurringTask.name) (started_mem ht)
      refine cons_subset.2 ⟨hm, fun n hn => ?_⟩
      replace hn := ih hn
      obtain ⟨u, hu, rfl⟩ := mem_map.1 hn
      rcases (mem_pass ht rfl).1 hu with ⟨hu, -⟩ | rfl
      · exact mem_map_of_mem hu
      · exact (congrArg (· ∈ s.tasks.map RecurringTask.name) (record_name ..)).mpr hm

/-- In every state of a run in which each task succeeds once in 1025 runs, the scheduler is fair. -/
theorem scheduler_fair (b : Backoff) (tasks : List RecurringTask) (ps qs : List Pass)
    (hne : ∀ t ∈ tasks, 0 < t.intervalS ∧ t.cooldownUntil = none) (hok : AllRecover b ⟨tasks, true⟩ (ps ++ qs)) :
    Fair b (run b ⟨tasks, true⟩ ps) qs := by
  have hli : Live b ⟨tasks, true⟩ := ⟨rfl, fun t ht => ⟨(hne t ht).1, by simp [(hne t ht).2]⟩⟩
  obtain ⟨hl, hr⟩ := hli.run hok
  refine ⟨hl.1, hl.2, fun a ha t hd hc hn => ?_, fun p t ht u hu hn => (mem_pass ht rfl).2 (.inl ⟨hu, hn⟩)⟩
  have hw : Waiting a [] _ := ⟨ha, by simp⟩
  obtain ⟨hnd, hle, -⟩ := hw.starts hl hd hc hr hn
  exact ⟨hnd, hle, starts_subset qs⟩

def gc : RecurringTask := { name := "gc", intervalS := 60 }

theorem scheduler_fair_gc : Fair {} (run {} ⟨[gc], true⟩ [⟨0, 1, true⟩]) [⟨100, 101, true⟩] :=
  scheduler_fair {} _ _ _ (by simp [gc]) ⟨by simp [Recovers], by simp [Recovers], trivial⟩

/-- The garbage collection alone, through `n` failures. -/
def outage (n : ℕ) : SchedulerState := run {} ⟨[gc], true⟩ ((List.range n).map fun k : ℕ => ⟨1000 * k, 1000 * k, false⟩)

lemma outage_succ {n : ℕ} (h : outage n = ⟨[t], true⟩) (hd : t.dueAt ≤ ((1000 * n : ℚ) : WithBot ℚ)) :
    outage (n + 1) = ⟨[(recordRunOutcome {} t false (1000 * n)).1], !(recordRunOutcome {} t false (1000 * n)).2⟩ := by
  have hp : pickNextDueTask [t] (1000 * n) = some t := by
    rw [pickNextDueTask, filter_eq_self.2 fun u hu => decide_eq_true (mem_singleton.1 hu ▸ hd)]
    rfl
  rw [outage, run] at h
  simp only [outage, run, range_succ, map_append, foldl_append, h]
  simp [pass, started, hp]

lemma outage_eq (n : ℕ) (hn : n ≤ 1024) : ∃ t, outage n = ⟨[t], true⟩ ∧ t.intervalS = 60 ∧
    t.consecutiveFailures = n ∧ t.dueAt ≤ ((1000 * n : ℚ) : WithBot ℚ) := by
  induction n with
  | zero => exact ⟨gc, rfl, rfl, rfl, bot_le⟩
  | succ n ih =>
    obtain ⟨t, hr, hi, hf, hd⟩ := ih (by omega)
    rw [outage_succ hr hd]
    simp only [recordRunOutcome, Bool.false_eq_true, if_false, if_neg (show ¬ 1024 ≤ t.consecutiveFailures by omega)]
    refine ⟨_, rfl, hi, by rw [hf], max_le (WithBot.coe_le_coe.2 ?_) (WithBot.coe_le_coe.2 ?_)⟩
    · push_cast
      linarith
    · have := min_le_right ((5 : ℚ) * 2 ^ t.consecutiveFailures) 600
      push_cast
      linarith

/-- A week of failures ends the loop: the task is due sooner or later, and nothing is ever started. -/
theorem outage_ends_loop :
    (∃ t ∈ (outage 1025).tasks, ∃ now : ℚ, t.dueAt ≤ (now : WithBot ℚ)) ∧ ∀ ps, starts {} (outage 1025) ps = [] := by
  obtain ⟨t, hr, -, hf, hd⟩ := outage_eq 1024 le_rfl
  rw [outage_succ hr hd, recordRunOutcome, if_neg (by simp), if_pos hf.ge]
  constructor
  · refine ⟨_, mem_cons_self, ?_⟩
    generalize RecurringTask.dueAt _ = due
    cases due with
    | bot => exact ⟨0, bot_le⟩
    | coe due => exact ⟨due, le_rfl⟩
  · intro ps
    induction ps with
    | nil => rfl
    | cons p ps ih => simpa [starts, started, pass] using ih

end AgentWallet.Anonymize.Scheduler
