import AgentWallet.Channels.Mix
/-!
# One funding transaction per planned channel

A parallel tick opens its channels before it commits. A funding transaction that
went out while the tick fails before its commit, be it at the audit row of the open,
is forgotten with the rollback, and the next tick opens the channel again
(`funded_twice`).

In the runs where a tick that had a transaction broadcast commits before its session
ends, where an open of a bootstrap round that returned no transaction has broadcast
none, and where no tick takes a bootstrap run between the commit of a drain swap and
that of its round, no entry is funded twice (`funded_once`). The tick that holds the
lock knows that no entry it could open has been funded. A tick without the lock only
commits what leaves every other entry as it is.
-/

namespace AgentWallet.Channels

open AgentWallet.Lib List Machine
open AgentWallet.Swaps (SwapStatus Raised column column_same column_stored)

/-! ## Entries that a tick would open -/

def ChannelEntry.unfunded (entry : ChannelEntry) : Prop := entry.openState = .queued

def Round.unfunded (entry : Round) : Prop := entry.state = .opening ∧ entry.openTxid = none

/-- A tick that reads the run would open the entry, or append it. -/
def Run.fundable (run : Run) (i : ℕ) : Prop :=
  match run.mode with
  | .parallel => ∃ entry ∈ run.channels[i]?, entry.unfunded
  | .bootstrap => ∀ entry ∈ run.rounds[i]?, entry.unfunded

section Runs

variable {run before after row : Run} {i : ℕ}

lemma Run.fundable_parallel (h : run.mode = .parallel) :
    run.fundable i ↔ ∃ entry ∈ run.channels[i]?, entry.unfunded := by
  simp [Run.fundable, h]

lemma Run.fundable_bootstrap (h : run.mode = .bootstrap) :
    run.fundable i ↔ ∀ entry ∈ run.rounds[i]?, entry.unfunded := by
  simp [Run.fundable, h]

lemma Run.fundable_congr {run' : Run} (hm : run.mode = run'.mode) (hc : run.channels = run'.channels)
    (hr : run.rounds = run'.rounds) : run.fundable i ↔ run'.fundable i := by
  simp only [Run.fundable, hm, hc, hr]

@[simp] lemma Run.write_mode : (before.write after row).mode = row.mode := rfl

@[simp] lemma Run.write_same : before.write before row = row := by simp [Run.write]

lemma Run.fundable_write (hm : after.mode = before.mode) :
    (before.write after before).fundable i ↔ after.fundable i := by
  apply Run.fundable_congr
  · exact hm.symm
  · exact column_stored _ _
  · exact column_stored _ _

end Runs

/-! ## Runs of ticks without a lost record -/

variable {T : Type} [DecidableEq T]

/-- A step that loses no record of a funding transaction. The transaction of a tick
that owes one is not rolled back. An open of a bootstrap round without a funding
transaction in its answer has broadcast none. A bootstrap run is not read between the
commit of a swap and the next one of its tick. -/
def Recorded (t : T) (c : Command) (w : World T) (r : Except Raised (Reply c)) (w' : World T) : Prop :=
  match c with
  | .close => w.owes t = false
  | .commit before after => w.owes t = true → w' = w.commit t before after false
  | .commitSwap _ before after => w.owes t = true → w' = w.commit t before after true
  | .openChannel _ _ => w.row.mode = .bootstrap → w'.funded ≠ w.funded →
      ∀ answer, r = .ok answer → ∃ opened, answer = .ok opened ∧ opened.fundingTxid ≠ ""
  | .selectForUpdate => w.row.mode = .bootstrap → ∀ u, w.apart u = true → w.dead u = true
  | _ => True

/-- The worker of a tick that owes a record is not killed. -/
def Survives (w w' : World T) : Prop := ∀ t, w.owes t = true → w.dead t = false → w'.dead t = false

abbrev recording (T : Type) [DecidableEq T] : Machine T Command Reply Raised (World T) :=
  (machine T).restrict Recorded Survives

/-- No entry was funded twice, and none that was funded is open to be funded again,
unless the tick that holds the lock has yet to record it. -/
structure FundedOnce (w : World T) : Prop where
  once : ∀ i, w.funded.count i ≤ 1
  fresh : ∀ i, w.row.fundable i → w.funded.count i = 0 ∨ ∃ t, w.lock = some t ∧ w.owes t = true
  alive : ∀ t, w.lock = some t → w.dead t = false
  apart : w.row.mode = .bootstrap → ∀ t, w.apart t = true → w.dead t = false → w.lock = none

/-- A commit opens no entry that was funded. Without the lock it opens none at all. -/
def Closes (t : T) (before after : Run) (w : World T) : Prop :=
  ∀ i, (before.write after w.row).fundable i → w.row.fundable i ∧ w.lock ≠ some t ∨ w.funded.count i = 0

def MayIssue (t : T) (c : Command) (w : World T) : Prop :=
  match c with
  | .commit before after => Closes t before after w
  | .commitSwap _ before after => Closes t before after w ∧ (w.row.mode = .bootstrap → w.lock = some t)
  | .openChannel i _ => w.lock = some t ∧ w.funded.count i = 0
  | _ => True

/-- What the others leave alone: the row and the fundings while the tick holds the
lock, and in a bootstrap run while it has to record a swap. -/
structure LeftTo (t : T) (w w' : World T) : Prop where
  dead : w'.dead t = false → w.dead t = false
  apart : w'.apart t = w.apart t
  mode : w'.row.mode = w.row.mode
  lock : w'.dead t = false → (w'.lock = some t ↔ w.lock = some t)
  held : w'.dead t = false → w.lock = some t → w'.row = w.row ∧ w'.funded = w.funded
  swap : w'.dead t = false → w.row.mode = .bootstrap → w.apart t = true → w'.funded = w.funded

section Steps

variable {t u : T} {lock : Option T} {w w' : World T} {before after : Run} {swap : Bool} {i : ℕ}

@[simp] lemma release_self : release t (some t) = none := by simp [release]

lemma release_eq_some : release t lock = some u ↔ lock = some u ∧ u ≠ t := by
  unfold release
  split
  case isTrue h => simp [h, eq_comm]
  rename_i h
  refine ⟨fun hu => ⟨hu, ?_⟩, fun hu => hu.1⟩
  rintro rfl
  exact h hu

lemma release_none : release t (none : Option T) = none := by simp [release]

lemma LeftTo.refl : LeftTo t w w := ⟨id, rfl, rfl, fun _ => .rfl, fun _ _ => ⟨rfl, rfl⟩, fun _ _ _ => rfl⟩

section

variable (h : FundedOnce w)
include h

/-- The funding that is owed, if one is, is that of another tick. -/
lemma FundedOnce.released (hi : w.row.fundable i) (hs : w.lock = some t → w.owes t = false) :
    w.funded.count i = 0 ∨ ∃ u ≠ t, release t w.lock = some u ∧ w.owes u = true := by
  rcases h.fresh i hi with hc | ⟨u, hu, ho⟩
  · exact .inl hc
  have hne : u ≠ t := by
    rintro rfl
    simp [hs hu] at ho
  exact .inr ⟨u, hne, release_eq_some.2 ⟨hu, hne⟩, ho⟩

lemma FundedOnce.commit (hc : Closes t before after w)
    (hs : swap = true → w.row.mode = .bootstrap → w.lock = some t) : FundedOnce (w.commit t before after swap) where
  once := h.once
  fresh := by
    intro i hi
    rcases hc i hi with ⟨hr, hl⟩ | hco
    · refine (h.released hr fun h => (hl h).elim).imp_right fun ⟨u, hne, hu, ho⟩ => ⟨u, hu, ?_⟩
      simp [World.commit, hne, ho]
    · exact .inl hco
  alive := fun u hu => h.alive u (release_eq_some.1 hu).1
  apart := by
    intro hm u ha hd
    by_cases hu : u = t
    · subst hu
      have hl := hs (by simpa [World.commit] using ha) hm
      simp [World.commit, hl]
    · have hl := h.apart hm u (by simpa [World.commit, hu] using ha) hd
      simp [World.commit, hl, release_none]

lemma FundedOnce.rollback (ho : w.owes t = false) : FundedOnce (w.rollback t) where
  once := h.once
  fresh := fun _ hi => (h.released hi fun _ => ho).imp_right fun ⟨u, _, hu⟩ => ⟨u, hu⟩
  alive := fun u hu => h.alive u (release_eq_some.1 hu).1
  apart := by
    intro hm u ha hd
    have hne : u ≠ t := by
      rintro rfl
      simp [World.rollback] at ha
    have hl := h.apart hm u (by simpa [World.rollback, hne] using ha) hd
    simp [World.rollback, hl, release_none]

lemma FundedOnce.broadcast (hl : w.lock = some t) (hc : w.funded.count i = 0) :
    FundedOnce (w.broadcast t i) where
  once := by
    intro j
    have hj := h.once j
    by_cases hij : i = j
    · subst hij
      simp [World.broadcast, hc]
    · simpa [World.broadcast, count_cons, hij] using hj
  fresh := fun _ _ => .inr ⟨t, hl, by simp [World.broadcast]⟩
  alive := h.alive
  apart := h.apart

lemma FundedOnce.select (hl : w.lock = none) (hd : w.dead t = false)
    (ha : w.row.mode = .bootstrap → ∀ u, w.apart u = true → w.dead u = true) :
    FundedOnce { w with lock := some t } where
  once := h.once
  fresh := by
    intro i hi
    rcases h.fresh i hi with hc | ⟨u, hu, -⟩
    · exact .inl hc
    · rw [hl] at hu
      cases hu
  alive := by
    rintro u hu
    cases hu
    exact hd
  apart := by
    intro hm u hu hli
    have hg := ha hm u hu
    rw [hli] at hg
    cases hg

lemma FundedOnce.kill (ho : w.owes t = true → w.dead t = true) : FundedOnce (w.kill t) where
  once := h.once
  fresh := by
    intro i hi
    refine (h.released hi fun hl => ?_).imp_right fun ⟨u, _, hu⟩ => ⟨u, hu⟩
    have hli := h.alive t hl
    grind
  alive := by
    intro u hu
    obtain ⟨hu, hne⟩ := release_eq_some.1 hu
    simpa [World.kill, hne] using h.alive u hu
  apart := by
    intro hm u ha hd
    have hne : u ≠ t := by
      rintro rfl
      simp [World.kill] at hd
    have hl := h.apart hm u ha (by simpa [World.kill, hne] using hd)
    simp [World.kill, hl, release_none]

end

lemma LeftTo.commit (hne : u ≠ t) (hlo : before = after ∨ w.lock = none ∨ w.lock = some t) :
    LeftTo u w (w.commit t before after swap) where
  dead := id
  apart := by simp [World.commit, hne]
  mode := rfl
  lock := fun _ => release_eq_some.trans (and_iff_left hne)
  held := by
    intro _ hu
    rcases hlo with rfl | hl | hl
    · exact ⟨Run.write_same, rfl⟩
    · rw [hl] at hu
      cases hu
    · rw [hl] at hu
      cases hu
      exact (hne rfl).elim
  swap := fun _ _ _ => rfl

lemma LeftTo.rollback (hne : u ≠ t) : LeftTo u w (w.rollback t) where
  dead := id
  apart := by simp [World.rollback, hne]
  mode := rfl
  lock := fun _ => release_eq_some.trans (and_iff_left hne)
  held := fun _ _ => ⟨rfl, rfl⟩
  swap := fun _ _ _ => rfl

lemma LeftTo.broadcast (h : FundedOnce w) (hne : u ≠ t) (hl : w.lock = some t) : LeftTo u w (w.broadcast t i) where
  dead := id
  apart := rfl
  mode := rfl
  lock := fun _ => .rfl
  held := by
    intro _ hu
    rw [hl] at hu
    cases hu
    exact (hne rfl).elim
  swap := by
    intro hd hm ha
    have hn := h.apart hm u ha hd
    rw [hl] at hn
    cases hn

lemma LeftTo.select (hne : u ≠ t) (hl : w.lock = none) : LeftTo u w { w with lock := some t } where
  dead := id
  apart := rfl
  mode := rfl
  lock := by
    intro _
    simp [hl, hne.symm]
  held := fun _ _ => ⟨rfl, rfl⟩
  swap := fun _ _ _ => rfl

lemma LeftTo.kill : LeftTo u w (w.kill t) where
  dead := by
    intro h
    by_cases hu : u = t
    · simp [World.kill, hu] at h
    · simpa [World.kill, hu] using h
  apart := rfl
  mode := rfl
  lock := by
    intro h
    have hne : u ≠ t := by
      rintro rfl
      simp [World.kill] at h
    exact release_eq_some.trans (and_iff_left hne)
  held := fun _ _ => ⟨rfl, rfl⟩
  swap := fun _ _ _ => rfl

lemma Commits.keeps {r : Except Raised Unit} (hi : FundedOnce w) (h : Commits t before after swap w r w')
    (hr : w.owes t = true → w' = w.commit t before after swap) (hc : Closes t before after w)
    (hs : swap = true → w.row.mode = .bootstrap → w.lock = some t) :
    FundedOnce w' ∧ ∀ u, u ≠ t → LeftTo u w w' := by
  obtain ⟨hl, rfl | ⟨rfl, -⟩⟩ := h
  · exact ⟨hi.commit hc hs, fun u hu => .commit hu hl⟩
  cases ho : w.owes t with
  | false => exact ⟨hi.rollback ho, fun u hu => .rollback hu⟩
  | true =>
    rw [hr ho]
    exact ⟨hi.commit hc hs, fun u hu => .commit hu hl⟩

end Steps

def Command.asks : Command → Bool
  | .selectForUpdate | .commit _ _ | .commitSwap _ _ _ | .close | .openChannel _ _ => false
  | _ => true

lemma exec_asks {t : T} {c : Command} {w w' : World T} {r : Except Raised (Reply c)} (hc : c.asks = true)
    (h : (recording T).exec t c w r w') : w' = w := by
  obtain ⟨-, -, h⟩ := h
  cases c with
  | selectForUpdate | commit | commitSwap | close | openChannel => cases hc
  | _ => exact h

def onceOpened (T : Type) [DecidableEq T] : Protocol (recording T) where
  inv := FundedOnce
  pre := MayIssue
  rely := LeftTo
  exec := by
    intro t c w w' r hi hpre hx
    have hask : c.asks = true → FundedOnce w' ∧ ∀ u, u ≠ t → LeftTo u w w' := by
      intro hc
      rw [exec_asks hc hx]
      exact ⟨hi, fun u _ => .refl⟩
    obtain ⟨hrecorded, hdead, hx⟩ := hx
    cases c with
    | selectForUpdate =>
      obtain ⟨hlock, -, rfl⟩ | ⟨rfl, -⟩ := hx
      · exact ⟨hi.select hlock hdead hrecorded, fun u hu => .select hu hlock⟩
      · exact ⟨hi, fun u _ => .refl⟩
    | commit before after => exact Commits.keeps hi hx hrecorded hpre nofun
    | commitSwap swapId before after => exact Commits.keeps hi hx hrecorded hpre.1 fun _ => hpre.2
    | close =>
      subst hx
      exact ⟨hi.rollback hrecorded, fun u hu => .rollback hu⟩
    | openChannel i request =>
      obtain ⟨hlock, hcount⟩ := hpre
      obtain rfl | ⟨rfl, -⟩ := hx
      · exact ⟨hi.broadcast hlock hcount, fun u hu => .broadcast hi hu hlock⟩
      · exact ⟨hi, fun u _ => .refl⟩
    | _ => exact hask rfl
  env := by
    rintro w w' hi ⟨hsurvives, t, rfl⟩
    have howes : w.owes t = true → w.dead t = true := by
      intro h
      by_contra hdead
      have hlive := hsurvives t h (by simpa using hdead)
      simp [World.kill] at hlive
    exact ⟨hi.kill howes, fun u => .kill⟩

/-! ## What a tick knows -/

structure Held (t : T) (c : Copy) (w : World T) : Prop where
  lock : w.lock = some t
  row : w.row = c.before
  mode : c.run.mode = c.before.mode
  fresh : ∀ i, c.run.fundable i → w.funded.count i = 0

structure AllOpened (t : T) (c : Copy) (w : World T) : Prop where
  mode : w.row.mode = .parallel
  none : ∀ entry ∈ c.run.channels, ¬ entry.unfunded
  row : w.lock = some t → w.row = c.before

structure Saved (t : T) (c : Copy) (w : World T) : Prop where
  mode : w.row.mode = .bootstrap
  lock : w.lock ≠ some t
  rounds : c.run.rounds = c.before.rounds

/-- A tick of a bootstrap run that has stored a swap and not yet its round. -/
structure Apart (t : T) (c : Copy) (w : World T) : Prop where
  mode : w.row.mode = .bootstrap
  same : c.run.mode = .bootstrap
  lock : w.lock ≠ some t
  apart : w.apart t = true
  fresh : ∀ i, c.run.fundable i → w.funded.count i = 0

def Live (t : T) (A : World T → Prop) (w : World T) : Prop := w.dead t = false → A w

section Known

variable {t : T} {c : Copy} {w w' : World T} {before after : Run}

abbrev Lasts (t : T) (A : World T → Prop) : Prop := (onceOpened T).Stable t (Live t A)

/-- What a tick with the lock knows of the row and the fundings. -/
lemma locked_stable {A : World T → Prop} (hl : ∀ w, A w → w.lock = some t)
    (hc : ∀ w w' : World T, w'.lock = w.lock → w'.row = w.row → w'.funded = w.funded → A w → A w') :
    Lasts t A := by
  intro w w' _ _ hr h hd
  have ha := h (hr.dead hd)
  obtain ⟨hro, hf⟩ := hr.held hd (hl w ha)
  exact hc w w' (((hr.lock hd).2 (hl w ha)).trans (hl w ha).symm) hro hf ha

lemma Held.congr (hl : w'.lock = w.lock) (hr : w'.row = w.row) (hf : w'.funded = w.funded)
    (h : Held t c w) : Held t c w' :=
  ⟨hl.trans h.lock, hr.trans h.row, h.mode, fun i hi => by rw [hf]; exact h.fresh i hi⟩

lemma Held.stable : Lasts t (Held t c) := locked_stable (fun _ h => h.lock) fun _ _ => Held.congr

lemma AllOpened.stable : Lasts t (AllOpened t c) := by
  intro w w' _ _ hr h hd
  obtain ⟨hm, hn, hro⟩ := h (hr.dead hd)
  refine ⟨hr.mode.trans hm, hn, fun hl => ?_⟩
  have hl := (hr.lock hd).1 hl
  exact (hr.held hd hl).1.trans (hro hl)

lemma Saved.stable : Lasts t (Saved t c) := by
  intro w w' _ _ hr h hd
  obtain ⟨hm, hlo, hro⟩ := h (hr.dead hd)
  exact ⟨hr.mode.trans hm, fun hl => hlo ((hr.lock hd).1 hl), hro⟩

lemma Apart.stable : Lasts t (Apart t c) := by
  intro w w' _ _ hr h hd
  obtain ⟨hm, hs, hlo, ha, hf⟩ := h (hr.dead hd)
  refine ⟨hr.mode.trans hm, hs, fun hl => hlo ((hr.lock hd).1 hl), hr.apart.trans ha, ?_⟩
  intro i hi
  rw [hr.swap hd hm ha]
  exact hf i hi

lemma Held.closes (h : Held t c w) : Closes t c.before c.run w := by
  intro i hi
  rw [h.row, Run.fundable_write h.mode] at hi
  exact .inr (h.fresh i hi)

lemma AllOpened.closes (h : AllOpened t c w) : Closes t c.before c.run w := by
  intro i hi
  obtain ⟨entry, hentry, hu⟩ := (Run.fundable_parallel (Run.write_mode.trans h.mode)).1 hi
  have ho : ∀ channels, channels = c.run.channels → entry ∉ channels[i]? := by
    rintro _ rfl hm
    exact h.none entry (mem_of_getElem? hm) hu
  have hc : entry ∈ (column c.before.channels c.run.channels w.row.channels)[i]? := hentry
  unfold column at hc
  split at hc
  case isTrue hs =>
    refine .inl ⟨(Run.fundable_parallel h.mode).2 ⟨entry, hc, hu⟩, fun hl => ?_⟩
    rw [h.row hl] at hc
    exact ho _ hs.symm hc
  case isFalse => exact (ho _ rfl hc).elim

lemma Saved.closes (h : Saved t c w) : Closes t c.before c.run w := by
  intro i hi
  have hc : column c.before.rounds c.run.rounds w.row.rounds = w.row.rounds := if_pos h.rounds
  have hu := (Run.fundable_bootstrap (Run.write_mode.trans h.mode)).1 hi
  exact .inl ⟨(Run.fundable_bootstrap h.mode).2 (hc ▸ hu), h.lock⟩

lemma Apart.closes (h : Apart t c w) : Closes t c.before c.run w := by
  intro i hi
  have hc : ∀ entry ∈ (column c.before.rounds c.run.rounds w.row.rounds)[i]?, entry.unfunded :=
    (Run.fundable_bootstrap (Run.write_mode.trans h.mode)).1 hi
  unfold column at hc
  split at hc
  case isTrue => exact .inl ⟨(Run.fundable_bootstrap h.mode).2 hc, h.lock⟩
  case isFalse => exact .inr (h.fresh i ((Run.fundable_bootstrap h.same).2 hc))

end Known

/-! ## Rules for commands -/

section Rules

abbrev Asks {α : Type} (p : Code α) (ψ : α → Prop) : Prop := p.Within (fun c => c.asks = true) ψ

lemma ask {c : Command} (hc : c.asks = true) : Asks (call c) fun _ => True := Task.within_call hc fun _ => trivial

abbrev Does (t : T) (A : World T → Prop) {α : Type} (p : Code α) (Q : α → World T → Prop) : Prop :=
  (onceOpened T).Safe t (IfReturns Q) p (Live t A)

variable {t : T} {α β : Type} {c : Copy}

lemma asks_safe {p : Code α} {ψ : α → Prop} {K : World T → Prop} (h : Asks p ψ)
    (hst : (onceOpened T).Stable t K) :
    (onceOpened T).Safe t (IfReturns fun a w => ψ a ∧ K w) p K := by
  have hs := Protocol.Safe.within (P := onceOpened T) h hst fun c w r w' hc _ hk hx => by
    refine ⟨?_, fun _ => by rw [exec_asks hc hx]; exact hk⟩
    cases c with
    | commit | commitSwap | openChannel => cases hc
    | _ => trivial
  refine hs.post fun r w _ hq => ?_
  cases r with
  | ok a => exact hq
  | error e => trivial

lemma asks_post {p : Code α} {ψ : α → Prop} {Q : α → World T → Prop} {A : World T → Prop} (h : Asks p ψ)
    (hst : Lasts t A) (hQ : ∀ a w, ψ a → Live t A w → Q a w) : Does t A p Q := by
  refine (asks_safe h hst).post fun r w _ hq => ?_
  cases r with
  | ok a => exact hQ a w hq.1 hq.2
  | error e => trivial

lemma asks_then {p : Code α} {f : α → Code β} {ψ : α → Prop} {Q : β → World T → Prop} {A : World T → Prop}
    (h : Asks p ψ) (hst : Lasts t A) (hf : ∀ a, ψ a → Does t A (f a) Q) : Does t A (p.bind f) Q :=
  (asks_safe h hst).ifReturns fun a => .and (hf a)

lemma Commits.after {B : World T → Prop} {before after : Run} {swap : Bool} {w w' : World T} {r : Except Raised Unit}
    (h : Commits t before after swap w r w') (hB : B (w.commit t before after swap)) :
    IfReturns (fun _ => Live t B) r w' := by
  cases r with
  | error e => trivial
  | ok _ =>
    obtain ⟨-, rfl | ⟨-, _, hr⟩⟩ := h
    · exact fun _ => hB
    · cases hr

lemma commit_safe {A B : World T → Prop} {before after : Run} (hst : Lasts t B)
    (hc : ∀ w, FundedOnce w → A w → Closes t before after w)
    (hB : ∀ w, FundedOnce w → A w → B (w.commit t before after false)) :
    Does t A (call (.commit before after)) fun _ => Live t B := by
  refine .call (fun r => .ifReturns (fun _ => hst) r) fun w r w' hi ha hx => ?_
  obtain ⟨-, hd, hx⟩ := hx
  exact ⟨hc w hi (ha hd), fun _ => Commits.after hx (hB w hi (ha hd))⟩

lemma commitSwap_safe {A B : World T → Prop} {swapId : String} {before after : Run}
    (hst : Lasts t B) (hc : ∀ w, FundedOnce w → A w → Closes t before after w)
    (hl : ∀ w, A w → w.row.mode = .bootstrap → w.lock = some t)
    (hB : ∀ w, FundedOnce w → A w → B (w.commit t before after true)) :
    Does t A (call (.commitSwap swapId before after)) fun _ => Live t B := by
  refine .call (fun r => .ifReturns (fun _ => hst) r) fun w r w' hi ha hx => ?_
  obtain ⟨-, hd, hx⟩ := hx
  exact ⟨⟨hc w hi (ha hd), hl w (ha hd)⟩, fun _ => Commits.after hx (hB w hi (ha hd))⟩

/-- After a request for a reverse swap: the row is saved if there is one. -/
def Requested (t : T) (c : Copy) (A B : World T → Prop) (r : Copy × Except String String) (w : World T) : Prop :=
  match r.2 with
  | .error _ => r.1 = c ∧ Live t A w
  | .ok _ => r.1 = { c with before := c.run } ∧ Live t B w

lemma createReverseSwap_then {A B : World T → Prop} {Q : β → World T → Prop} {amountSats : ℕ} {destination : String}
    {chan : Option String} {f : Copy × Except String String → Code β} (hA : Lasts t A)
    (hB : Lasts t B)
    (hc : ∀ swapId, Does t A (call (.commitSwap swapId c.before c.run)) fun _ => Live t B)
    (hr : ∀ err, Does t A (f (c, .error err)) Q)
    (hs : ∀ swapId, Does t B (f ({ c with before := c.run }, .ok swapId)) Q) :
    Does t A ((createReverseSwap c amountSats destination chan).bind f) Q := by
  have ha : Asks (call (.requestReverseSwap amountSats destination chan)) fun _ => True := ask rfl
  have hsw : Does t A (createReverseSwap c amountSats destination chan) (Requested t c A B) := by
    refine asks_then ha hA fun answer _ => ?_
    cases answer with
    | error err => exact fun w _ h => ⟨rfl, h⟩
    | ok swapId =>
      refine .ifReturns (hc swapId) fun _ => ?_
      exact asks_then (ask rfl) hB fun _ _ w _ h => ⟨rfl, h⟩
  refine .ifReturns hsw fun ⟨c', swap⟩ => ?_
  cases swap with
  | error err => exact .and (by rintro rfl; exact hr err)
  | ok swapId => exact .and (by rintro rfl; exact hs swapId)

/-- After the call that opens a channel. An open of a bootstrap round that returned no
transaction has broadcast none. -/
structure Called (t : T) (c : Copy) (idx : ℕ) (answer : Except String Opened) (w : World T) : Prop where
  lock : w.lock = some t
  row : w.row = c.before
  mode : c.run.mode = c.before.mode
  others : ∀ i, i ≠ idx → c.run.fundable i → w.funded.count i = 0
  refused : c.run.mode = .bootstrap → (∀ opened, answer = .ok opened → opened.fundingTxid = "") →
    w.funded.count idx = 0

lemma Called.stable {idx : ℕ} {answer : Except String Opened} :
    Lasts t (Called t c idx answer) := by
  refine locked_stable (fun _ h => h.lock) fun w w' hl hr hf h => ?_
  refine ⟨hl.trans h.lock, hr.trans h.row, h.mode, ?_, ?_⟩
  · rw [hf]
    exact h.others
  · rw [hf]
    exact h.refused

lemma openChannel_call (c : Copy) (idx : ℕ) (request : OpenChannel) :
    Does t (fun w => Held t c w ∧ w.funded.count idx = 0) (call (.openChannel idx request)) fun answer =>
      Live t (Called t c idx answer) := by
  refine .call (fun r => .ifReturns (fun _ => Called.stable) r) fun w r w' hi ha hx => ?_
  obtain ⟨hr, hd, hx⟩ := hx
  obtain ⟨hh, hc⟩ := ha hd
  refine ⟨⟨hh.lock, hc⟩, fun _ => ?_⟩
  cases r with
  | error e => trivial
  | ok answer =>
    intro _
    obtain rfl | ⟨rfl, -⟩ := hx
    · refine ⟨hh.lock, hh.row, hh.mode, fun i hne hi => ?_, fun hm hn => ?_⟩
      · have hz := hh.fresh i hi
        simpa [World.broadcast, count_cons, hne.symm] using hz
      -- the answer holds a transaction
      have hb : w.row.mode = .bootstrap := by rw [hh.row, ← hh.mode, hm]
      obtain ⟨opened, ho, ht⟩ := hr hb (by simp [World.broadcast]) answer rfl
      exact (ht (hn opened ho)).elim
    · exact ⟨hh.lock, hh.row, hh.mode, fun i _ hi => hh.fresh i hi, fun _ _ => hc⟩

end Rules

/-! ## Parallel ticks -/

lemma waitPeerConnected_asks (pubkey : String) (polls : ℕ) : Asks (waitPeerConnected pubkey polls) fun _ => True := by
  induction polls with
  | zero => trivial
  | succ polls ih =>
    refine .bind (ask (c := .listPeerPubkeys) rfl) fun pubs _ => ?_
    cases pubs with
    | none => exact ih
    | some pubs =>
      dsimp only
      split
      · trivial
      · exact ih

lemma connect_asks (pubkey host : String) : Asks (connect pubkey host) fun _ => True := by
  have ha : Asks (connect.awaitPeer pubkey) fun _ => True :=
    (waitPeerConnected_asks pubkey _).bind fun _ _ => trivial
  refine .bind (ask (c := .connectPeer pubkey host) rfl) fun answer _ => ?_
  cases answer with
  | ok _ => exact ha
  | error err =>
    dsimp only
    split
    · exact ha
    · trivial

section Parallel

variable {t : T} {c c' : Copy} {idx i : ℕ} {entry : ChannelEntry} {w : World T}

def Passes (idx : ℕ) (c c' : Copy) : Prop :=
  c'.before = c.before ∧ c'.run.mode = c.run.mode ∧
    ∃ entry : ChannelEntry, ¬ entry.unfunded ∧ c'.run.channels = c.run.channels.set idx entry

lemma Passes.fundable (h : Passes idx c c') (hm : c.run.mode = .parallel) (hi : c'.run.fundable i) :
    c.run.fundable i ∧ i ≠ idx := by
  obtain ⟨-, hs, entry, hentry, hse⟩ := h
  obtain ⟨found, hf, hu⟩ := (Run.fundable_parallel (hs.trans hm)).1 hi
  rw [hse, getElem?_set] at hf
  have hne : i ≠ idx := by
    rintro rfl
    rw [if_pos rfl] at hf
    split at hf
    · cases hf
      exact hentry hu
    · cases hf
  rw [if_neg hne.symm] at hf
  exact ⟨(Run.fundable_parallel hm).2 ⟨found, hf, hu⟩, hne⟩

lemma Passes.trans {c₁ c₂ : Copy} (h₁ : Passes idx c c₁) (h₂ : Passes idx c₁ c₂) : Passes idx c c₂ := by
  obtain ⟨hb₁, hm₁, entry₁, -, hs₁⟩ := h₁
  obtain ⟨hb₂, hm₂, entry₂, he₂, hs₂⟩ := h₂
  refine ⟨hb₂.trans hb₁, hm₂.trans hm₁, entry₂, he₂, ?_⟩
  rw [hs₂, hs₁, set_set]

lemma Passes.set (h : ¬ entry.unfunded) : Passes idx c (c.setChannel idx entry) := ⟨rfl, rfl, entry, h, rfl⟩

lemma not_unfunded_fail (error : String) : ¬ (entry.fail error).unfunded := nofun

lemma Held.passes (h : Held t c w) (hp : Passes idx c c') (hm : c.run.mode = .parallel) : Held t c' w :=
  ⟨h.lock, h.row.trans hp.1.symm, by rw [hp.1, hp.2.1, h.mode], fun i hi => h.fresh i (hp.fundable hm hi).1⟩

lemma Called.passes {answer : Except String Opened} (h : Called t c idx answer w) (hp : Passes idx c c')
    (hm : c.run.mode = .parallel) : Held t c' w := by
  refine ⟨h.lock, h.row.trans hp.1.symm, by rw [hp.1, hp.2.1, h.mode], fun i hi => ?_⟩
  obtain ⟨hf, hne⟩ := hp.fundable hm hi
  exact h.others i hne hf

lemma failChannel_asks (error : String) : Asks (failChannel c idx entry error) (Passes idx c) :=
  .bind (ask rfl) fun _ _ => Passes.set (not_unfunded_fail error)

variable (now : ℕ)

lemma openChannel_safe (c : Copy) (idx : ℕ) (entry : ChannelEntry) (hm : c.run.mode = .parallel) :
    Does t (fun w => Held t c w ∧ w.funded.count idx = 0) (openChannel now c idx entry) fun c' w =>
      Passes idx c c' ∧ Live t (Held t c') w := by
  have hst : Lasts t fun w => Held t c w ∧ w.funded.count idx = 0 := by
    refine locked_stable (fun _ h => h.1.lock) fun w w' hl hr hf h => ?_
    exact ⟨h.1.congr hl hr hf, by rw [hf]; exact h.2⟩
  -- a failure, from whatever shows that the copy may be committed
  have hfa : ∀ (error : String) (K : World T → Prop), Lasts t K →
      (∀ c' w, Passes idx c c' → K w → Held t c' w) →
      Does t K (failChannel c idx entry error) fun c' w => Passes idx c c' ∧ Live t (Held t c') w := by
    intro error K hK hh
    refine asks_post (failChannel_asks error) hK fun c' w hc h => ?_
    exact ⟨hc, fun hd => hh c' w hc (h hd)⟩
  refine asks_then (connect_asks _ _) hst fun connection _ => ?_
  cases connection with
  | refused err | offline => exact hfa _ _ hst fun c' w hp h => h.1.passes hp hm
  | online =>
    refine .ifReturns (openChannel_call c idx _) fun answer => ?_
    cases answer with
    | error err => exact hfa _ _ Called.stable fun c' w hp h => h.passes hp hm
    | ok opened =>
      refine .ifReturns (asks_safe (ask rfl) Called.stable) fun _ => ?_
      have hp : Passes idx c (c.setChannel idx (entry.pending now opened)) := Passes.set nofun
      exact fun w _ h => ⟨hp, fun hd => (h.2 hd).passes hp hm⟩

lemma openOneChannel_safe (hm : c.run.mode = .parallel) (hqu : c.run.fundable idx) :
    Does t (Held t c) (openOneChannel now c idx) fun c' w => Passes idx c c' ∧ Live t (Held t c') w := by
  obtain ⟨entry, hentry, hu⟩ := (Run.fundable_parallel hm).1 hqu
  have hc : openOneChannel now c idx =
      openChannel now (c.setChannel idx { entry with openState := .opening }) idx { entry with openState := .opening } := by
    unfold openOneChannel
    rw [Option.mem_def.1 hentry]
    exact if_neg fun h => h hu
  have hp : Passes idx c (c.setChannel idx { entry with openState := .opening }) := Passes.set nofun
  rw [hc]
  refine (openChannel_safe now _ idx { entry with openState := .opening } (hp.2.1.trans hm)).mono (fun w _ h hd => ?_) fun r w _ hq => ?_
  · exact ⟨(h hd).passes hp hm, (h hd).fresh idx hqu⟩
  · cases r with
    | error e => trivial
    | ok c' => exact ⟨hp.trans hq.1, hq.2⟩

/-- The first loop of a tick. The positions that are not to come are done with. -/
lemma openQueued_safe (rest : List ℕ) (c : Copy) (opened : List ℕ) (hm : c.run.mode = .parallel)
    (hd : ∀ i, c.run.fundable i → i ∈ rest) :
    Does t (Held t c) (openQueued now rest c opened) fun r w =>
      (∀ i, ¬ r.1.run.fundable i) ∧ r.1.run.mode = .parallel ∧ Live t (Held t r.1) w := by
  induction rest generalizing c opened with
  | nil => exact fun w _ h => ⟨fun i hi => not_mem_nil (hd i hi), hm, h⟩
  | cons idx rest ih =>
    unfold openQueued
    split
    case isTrue ha =>
      have hq : c.run.fundable idx := by
        obtain ⟨entry, hentry, hs⟩ := (Option.any_eq_true _ _).1 ha
        exact (Run.fundable_parallel hm).2 ⟨entry, hentry, of_decide_eq_true (p := entry.openState = .queued) hs⟩
      refine .ifReturns (openOneChannel_safe now hm hq) fun c' => ?_
      refine .and fun hp => ih c' (idx :: opened) (hp.2.1.trans hm) fun i hi => ?_
      obtain ⟨hf, hne⟩ := hp.fundable hm hi
      exact (mem_cons.1 (hd i hf)).resolve_left hne
    rename_i ha
    refine ih c opened hm fun i hi => (mem_cons.1 (hd i hi)).resolve_left ?_
    rintro rfl
    obtain ⟨entry, hentry, hu⟩ := (Run.fundable_parallel hm).1 hi
    exact ha ((Option.any_eq_true _ _).2 ⟨entry, hentry, decide_eq_true (p := entry.openState = .queued) hu⟩)

/-! ### After the opens -/

/-- No channel is queued again. -/
def Tidies (c c' : Copy) : Prop :=
  c'.before = c.before ∧
    ((∀ entry ∈ c.run.channels, ¬ entry.unfunded) → ∀ entry ∈ c'.run.channels, ¬ entry.unfunded)

lemma Tidies.refl : Tidies c c := ⟨rfl, id⟩

lemma Tidies.trans {c₁ c₂ : Copy} (h₁ : Tidies c c₁) (h₂ : Tidies c₁ c₂) : Tidies c c₂ :=
  ⟨h₂.1.trans h₁.1, fun h => h₂.2 (h₁.2 h)⟩

lemma Tidies.of_eq (hb : c'.before = c.before) (hc : c'.run.channels = c.run.channels) : Tidies c c' :=
  ⟨hb, fun h => by rw [hc]; exact h⟩

lemma Tidies.set (h : ¬ entry.unfunded) : Tidies c (c.setChannel idx entry) := by
  refine ⟨rfl, fun ha found hf => ?_⟩
  rcases mem_or_eq_of_mem_set hf with hm | rfl
  · exact ha found hm
  · exact h

lemma AllOpened.tidies (h : AllOpened t c w) (ht : Tidies c c') : AllOpened t c' w :=
  ⟨h.mode, ht.2 h.none, fun hl => (h.row hl).trans ht.1.symm⟩

lemma tidies_safe {p : Code Copy} (h : Asks p (Tidies c)) :
    Does t (AllOpened t c) p fun c' => Live t (AllOpened t c') := by
  refine asks_post h AllOpened.stable fun c' w hc h => ?_
  exact fun hd => (h hd).tidies hc

lemma not_unfunded_refresh (active : List Channel) (h : ¬ entry.unfunded) : ¬ (entry.refresh active).unfunded := by
  unfold ChannelEntry.refresh
  split
  · nofun
  · exact h

lemma refreshOpenPendingStates_asks : Asks (refreshOpenPendingStates c) (Tidies c) := by
  unfold refreshOpenPendingStates
  split
  · refine .bind (ask (c := .getChannels) rfl) fun active _ => ?_
    cases active with
    | none => exact Tidies.refl
    | some active =>
      refine ⟨rfl, fun ha found hf => ?_⟩
      obtain ⟨entry, hentry, rfl⟩ := mem_map.1 hf
      exact not_unfunded_refresh active (ha entry hentry)
  · exact Tidies.refl

lemma stuckReason_within {φ : Command → Prop} (hp : φ .getPendingChannelsDetail) (hc : φ .getChannels)
    (point : Option String) (since : Option ℕ) (now : ℕ) (gone late : String) :
    (stuckReason point since now gone late).Within φ fun _ => True := by
  have hd (point : String) : (channelConfirmedDead point).Within φ fun _ => True := by
    refine .bind (Task.within_call hp fun _ => trivial) fun pending _ => ?_
    cases pending with
    | none => trivial
    | some pending =>
      dsimp only
      split
      · trivial
      · refine .bind (Task.within_call hc fun _ => trivial) fun active _ => ?_
        cases active <;> trivial
  cases point with
  | none => trivial
  | some point => exact (hd point).bind fun _ _ => trivial

lemma resolveStuckChannel_asks : Asks (resolveStuckChannel now c idx entry) (Tidies c) := by
  refine .bind (stuckReason_within (by rfl) (by rfl) _ _ _ _ _) fun reason _ => ?_
  cases reason with
  | none => exact Tidies.refl
  | some reason => exact (Tidies.set (not_unfunded_fail reason)).trans (.of_eq rfl rfl)

lemma resolveStuckParallelChannels_asks (skip rest : List ℕ) (c : Copy) :
    Asks (resolveStuckParallelChannels now skip rest c) (Tidies c) := by
  induction rest generalizing c with
  | nil => exact Tidies.refl
  | cons idx rest ih =>
    unfold resolveStuckParallelChannels
    split
    · exact ih c
    split
    · exact ih c
    · refine (resolveStuckChannel_asks now).bind fun c' hc' => ?_
      exact (ih c').mono (fun _ h => h) fun _ h => hc'.trans h

lemma commitSwap_opened (swapId : String) :
    Does t (AllOpened t c) (call (.commitSwap swapId c.before c.run)) fun _ =>
      Live t (AllOpened t { c with before := c.run }) := by
  refine commitSwap_safe AllOpened.stable (fun w _ h => h.closes) (fun w h hb => ?_) fun w _ h => ?_
  · cases h.mode.symm.trans hb
  · exact ⟨h.mode, h.none, fun hl => ((release_eq_some.1 hl).2 rfl).elim⟩

lemma seedChannel_safe (hentry : ¬ entry.unfunded) :
    Does t (AllOpened t c) (seedChannel c idx entry) fun c' => Live t (AllOpened t c') := by
  have hs : ∀ (c : Copy) (seed : SeedState) (id error : Option String) (w : World T), AllOpened t c w →
      AllOpened t (c.setChannel idx { entry with seedState := seed, seedSwapId := id, seedError := error }) w :=
    fun c _ _ _ w h => h.tidies (Tidies.set hentry)
  unfold seedChannel
  split
  · exact fun w _ h hd => hs _ _ _ _ _ (h hd)
  refine asks_then (ask rfl) AllOpened.stable fun address _ => ?_
  rcases address with err | (_ | destination)
  · exact fun w _ h hd => hs _ _ _ _ _ (h hd)
  · exact fun w _ h hd => hs _ _ _ _ _ (h hd)
  refine .weaken (A := Live t (AllOpened t (c.setChannel idx { entry with seedState := .swapping }))) ?_
    fun w _ h hd => hs _ _ _ _ _ (h hd)
  refine createReverseSwap_then AllOpened.stable AllOpened.stable commitSwap_opened (fun err => ?_) fun swapId => ?_ <;>
    exact fun w _ h hd => hs _ _ _ _ _ (h hd)

lemma seedActive_safe (rest : List ℕ) (c : Copy) :
    Does t (AllOpened t c) (seedActive rest c) fun c' => Live t (AllOpened t c') := by
  induction rest generalizing c with
  | nil => exact fun w _ h => h
  | cons idx rest ih =>
    unfold seedActive
    split
    · exact ih c
    split
    case _ entry _ ha =>
      have hentry : ¬ entry.unfunded := by
        intro h
        rw [ChannelEntry.unfunded, ha.2] at h
        cases h
      exact .ifReturns (seedChannel_safe hentry) fun c' => ih c'
    · exact ih c

lemma rollUp_tidies : Tidies c (rollUp now c) := by
  unfold rollUp Copy.finalizeRun
  split
  · exact Tidies.refl
  split
  · split
    · exact Tidies.refl
    · exact Tidies.of_eq rfl rfl
  · exact Tidies.of_eq rfl rfl

lemma advanceParallel_safe (hm : c.run.mode = .parallel) :
    Does t (Held t c) (advanceParallel now c) fun c' => Live t (AllOpened t c') := by
  have hs : ∀ w, Held t c w → Held t (c.setState .inProgress) w := by
    intro w h
    exact ⟨h.lock, h.row, h.mode, fun i hi => h.fresh i ((Run.fundable_congr rfl rfl rfl).1 hi)⟩
  have hop := (openQueued_safe (t := t) now (List.range (c.setState .inProgress).run.channels.length)
    (c.setState .inProgress) [] hm fun i hi => ?_).mono
      (fun w _ (h : Live t (Held t c) w) hd => hs w (h hd)) fun _ _ _ hq => hq
  · refine .ifReturns hop fun ⟨c₁, opened⟩ => ?_
    refine .and fun hn => .and fun hm₁ => ?_
    have ho : ∀ w, Held t c₁ w → AllOpened t c₁ w := by
      intro w h
      refine ⟨by rw [h.row, ← h.mode, hm₁], fun entry hentry hu => ?_, fun _ => h.row⟩
      obtain ⟨i, hi⟩ := mem_iff_getElem?.1 hentry
      exact hn i ((Run.fundable_parallel hm₁).2 ⟨entry, hi, hu⟩)
    refine .weaken (A := Live t (AllOpened t c₁)) ?_ fun w _ h hd => ho w (h hd)
    refine .ifReturns (tidies_safe refreshOpenPendingStates_asks) fun c₂ => ?_
    refine .ifReturns (tidies_safe (resolveStuckParallelChannels_asks now opened _ c₂)) fun c₃ => ?_
    refine .ifReturns (seedActive_safe _ c₃) fun c₄ => ?_
    exact fun w _ h hd => (h hd).tidies (rollUp_tidies now)
  · obtain ⟨entry, hentry, -⟩ := (Run.fundable_parallel hm).1 hi
    exact mem_range.2 (List.getElem?_eq_some_iff.1 hentry).1

end Parallel

/-! ## Bootstrap ticks -/

section Bootstrap

variable {t : T} {c c' : Copy} {idx i : ℕ} {entry : Round} {w : World T}

/-- No round is open to be funded that was not. -/
def Leads (c c' : Copy) : Prop :=
  c'.before = c.before ∧ c'.run.mode = c.run.mode ∧
    ∀ i : ℕ, (∀ entry ∈ c'.run.rounds[i]?, entry.unfunded) → ∀ entry ∈ c.run.rounds[i]?, entry.unfunded

lemma Leads.of_eq (hb : c'.before = c.before) (hm : c'.run.mode = c.run.mode)
    (hr : c'.run.rounds = c.run.rounds) : Leads c c' :=
  ⟨hb, hm, fun i h => by rw [← hr]; exact h⟩

lemma Leads.refl : Leads c c := .of_eq rfl rfl rfl

lemma Leads.trans {c₁ c₂ : Copy} (h₁ : Leads c c₁) (h₂ : Leads c₁ c₂) : Leads c c₂ :=
  ⟨h₂.1.trans h₁.1, h₂.2.1.trans h₁.2.1, fun i h => h₁.2.2 i (h₂.2.2 i h)⟩

lemma Leads.set {next : Round} (hentry : c.run.rounds[idx]? = some entry) (h : next.unfunded → entry.unfunded) :
    Leads c (c.setRound idx next) := by
  refine ⟨rfl, rfl, fun i hi found hf => ?_⟩
  have hs : ∀ found ∈ (c.run.rounds.set idx next)[i]?, found.unfunded := hi
  by_cases hne : idx = i
  · subst hne
    rw [hentry] at hf
    cases hf
    obtain ⟨hlt, -⟩ := List.getElem?_eq_some_iff.1 hentry
    exact h (hs next (getElem?_set_self hlt))
  · rw [getElem?_set_ne hne] at hs
    exact hs found hf

lemma Leads.move {c₁ : Copy} {next : Round} (hentry : c.run.rounds[idx]? = some entry)
    (h : next.unfunded → entry.unfunded) (hb : c₁.before = c.before) (hm : c₁.run.mode = c.run.mode)
    (hr : c₁.run.rounds = c.run.rounds.set idx next) : Leads c c₁ :=
  (Leads.set hentry h).trans (.of_eq hb hm hr)

lemma Leads.fundable (h : Leads c c') (hm : c.run.mode = .bootstrap) (hi : c'.run.fundable i) : c.run.fundable i :=
  (Run.fundable_bootstrap hm).2 (h.2.2 i ((Run.fundable_bootstrap (h.2.1.trans hm)).1 hi))

lemma Held.leads (h : Held t c w) (hl : Leads c c') (hm : c.run.mode = .bootstrap) : Held t c' w :=
  ⟨h.lock, h.row.trans hl.1.symm, by rw [hl.1, hl.2.1, h.mode], fun i hi => h.fresh i (hl.fundable hm hi)⟩

lemma Held.rowMode (h : Held t c w) (hm : c.run.mode = .bootstrap) : w.row.mode = .bootstrap := by
  rw [h.row, ← h.mode, hm]

/-- A copy that can be committed: nothing is yet, or the round in flight is. -/
def Advanced (t : T) (c : Copy) (w : World T) : Prop :=
  c.run.mode = .bootstrap ∧ Live t (fun w => Held t c w ∨ Saved t c w ∧ (inflightIndex c.run).isSome) w

lemma leads_safe {p : Code Copy} (h : Asks p (Leads c)) (hm : c.run.mode = .bootstrap) :
    Does t (Held t c) p (Advanced t) := by
  refine asks_post h Held.stable fun c' w hc h => ?_
  exact ⟨hc.2.1.trans hm, fun hd => .inl ((h hd).leads hc hm)⟩

lemma inflight_set {next : Round} (hentry : c.run.rounds[idx]? = some entry)
    (hs : next.state.terminal = false) : (inflightIndex (c.setRound idx next).run).isSome := by
  obtain ⟨hlt, -⟩ := List.getElem?_eq_some_iff.1 hentry
  rw [inflightIndex, findIdx?_isSome, any_eq_true]
  exact ⟨next, mem_set hlt next, by simp [hs]⟩

lemma feerateSatVb_asks : Asks feerateSatVb fun _ => True := by
  refine .bind (ask (c := .getRecommendedFees) rfl).attempt fun fees _ => ?_
  rcases fees with _ | (_ | rate) <;> trivial

lemma switchToNextPeer_unfunded {peers : List Peer} {next next' : Round} {reason : String}
    (h : switchToNextPeer peers next reason = some next') : next'.unfunded ↔ next.unfunded := by
  unfold switchToNextPeer at h
  dsimp only at h
  split at h
  · cases h
  · cases h
    exact Iff.rfl

lemma shrink_unfunded {next : Round} (h : entry.shrink = some next) : next.unfunded ↔ entry.unfunded := by
  rcases ite_eq_iff.1 h with ⟨-, hn⟩ | ⟨-, hn⟩
  · cases hn
    exact Iff.rfl
  · cases hn

/-! ### Rounds that wait -/

section

variable (now : ℕ)

section

variable (hentry : c.run.rounds[idx]? = some entry)
include hentry

lemma flagStuckIfWaiting_leads (what : String) :
    let flagged := flagStuckIfWaiting now c idx entry what
    Leads c flagged.1 ∧ flagged.1.run.rounds[idx]? = some flagged.2 ∧ flagged.2.state = entry.state := by
  obtain ⟨hlt, -⟩ := List.getElem?_eq_some_iff.1 hentry
  unfold flagStuckIfWaiting
  split
  · exact ⟨Leads.set hentry id, getElem?_set_self hlt, rfl⟩
  · split
    · exact ⟨.of_eq rfl rfl rfl, hentry, rfl⟩
    · exact ⟨.refl, hentry, rfl⟩

lemma resolveStuckRound_asks :
    Asks (resolveStuckRound now c idx entry) (Leads c) := by
  refine .bind (stuckReason_within (by rfl) (by rfl) _ _ _ _ _) fun reason _ => ?_
  cases reason with
  | none => exact Leads.refl
  | some reason =>
    refine Leads.move hentry ?_ rfl rfl rfl
    unfold Round.stop
    split <;> nofun

lemma keepWaiting_asks (what : String) :
    Asks (keepWaiting now c idx entry what) (Leads c) := by
  obtain ⟨hl, hf, -⟩ := flagStuckIfWaiting_leads now hentry what
  exact (resolveStuckRound_asks now hf).mono (fun _ h => h) fun _ h => hl.trans h

/-! ### Opening -/

lemma failRound_asks (error audited : String) {next : Round} :
    Asks (failRound c idx next error audited) (Leads c) :=
  .bind (ask rfl) fun _ _ => Leads.set hentry nofun

lemma switchOrFail_asks (reason error audited : String) {next : Round}
    (hn : next.unfunded → entry.unfunded) : Asks (switchOrFail c idx next reason error audited) (Leads c) := by
  unfold switchOrFail
  split
  case _ next' hs => exact Leads.set hentry fun h => hn ((switchToNextPeer_unfunded hs).1 h)
  · exact failRound_asks hentry error audited

lemma connectFailed_asks (err reason : String) :
    Asks (connectFailed c idx entry err reason) (Leads c) := by
  unfold connectFailed
  dsimp only
  split
  · exact Leads.set hentry id
  · exact switchOrFail_asks hentry _ _ _ id

lemma shrinkOrFail_asks (err : String) :
    Asks (shrinkOrFail c idx entry err) (Leads c) := by
  unfold shrinkOrFail
  split
  case _ next hs => exact Leads.set hentry (shrink_unfunded hs).1
  · exact failRound_asks hentry _ _

lemma openRejected_asks (err : Option String) :
    Asks (openRejected c idx entry err) (Leads c) := by
  cases err with
  | none => exact switchOrFail_asks hentry _ _ _ id
  | some err =>
    unfold openRejected
    dsimp only
    split
    · exact shrinkOrFail_asks hentry err
    split
    · split
      · exact Leads.set hentry id
      · exact switchOrFail_asks hentry _ _ _ id
    · exact switchOrFail_asks hentry _ _ _ id

end

lemma saveRound_safe {A : World T → Prop}
    (hA : ∀ w, FundedOnce w → A w → Closes t c.before c.run w ∧ w.row.mode = .bootstrap) :
    Does t A (call (.commit c.before c.run)) fun _ => Live t (Saved t { c with before := c.run }) :=
  commit_safe Saved.stable (fun w hi h => (hA w hi h).1) fun w hi h =>
    ⟨(hA w hi h).2, fun hl => (release_eq_some.1 hl).2 rfl, rfl⟩

/-- The open is committed before anything else happens. -/
lemma saveOpened_safe (hm : c.run.mode = .bootstrap) (hin : (inflightIndex c.run).isSome) :
    Does t (Held t c) (saveOpened c idx entry) (Advanced t) := by
  refine .ifReturns (saveRound_safe fun w _ h => ⟨h.closes, h.rowMode hm⟩) fun _ => ?_
  refine .ifReturns (asks_safe (ask rfl) Saved.stable) fun _ => ?_
  exact fun w _ h => ⟨hm, fun hd => .inr ⟨h.2 hd, hin⟩⟩

lemma Called.rejected {answer : Except String Opened} (h : Called t c idx answer w) (hm : c.run.mode = .bootstrap)
    (hn : ∀ opened, answer = .ok opened → opened.fundingTxid = "") : Held t c w := by
  refine ⟨h.lock, h.row, h.mode, fun i hi => ?_⟩
  by_cases hne : i = idx
  · subst hne
    exact h.refused hm hn
  · exact h.others i hne hi

lemma Called.opened {answer : Except String Opened} (h : Called t c idx answer w) (hm : c.run.mode = .bootstrap)
    (hentry : c.run.rounds[idx]? = some entry) (result : Opened) : Held t (c.setRound idx (entry.opened result)) w := by
  have hl : Leads c (c.setRound idx (entry.opened result)) := Leads.set hentry nofun
  refine ⟨h.lock, h.row, h.mode, fun i hi => h.others i ?_ (hl.fundable hm hi)⟩
  rintro rfl
  obtain ⟨hlt, -⟩ := List.getElem?_eq_some_iff.1 hentry
  have hr : (c.setRound i (entry.opened result)).run.rounds[i]? = some (entry.opened result) :=
    getElem?_set_self hlt
  have hm' : (c.setRound i (entry.opened result)).run.mode = .bootstrap := hm
  cases ((Run.fundable_bootstrap hm').1 hi _ hr).1

lemma openRound_safe (hm : c.run.mode = .bootstrap) (hentry : c.run.rounds[idx]? = some entry)
    (hu : entry.unfunded) :
    Does t (Held t c) (openRound c idx entry) (Advanced t) := by
  have hf : c.run.fundable idx := by
    refine (Run.fundable_bootstrap hm).2 fun found hfo => ?_
    rw [hentry] at hfo
    cases hfo
    exact hu
  refine asks_then feerateSatVb_asks Held.stable fun satPerVb _ => ?_
  refine asks_then (connect_asks _ _) Held.stable fun connection _ => ?_
  cases connection with
  | refused err | offline => exact leads_safe (connectFailed_asks hentry _ _) hm
  | online =>
    have hc (request : OpenChannel) := (openChannel_call (t := t) c idx request).mono
      (fun w _ (h : Live t (Held t c) w) hd => ⟨h hd, (h hd).fresh idx hf⟩) fun _ _ _ hq => hq
    refine .ifReturns (hc _) fun answer => ?_
    have hr : (∀ opened, answer = .ok opened → opened.fundingTxid = "") → ∀ err,
        Does t (Called t c idx answer) (openRejected c idx entry err) (Advanced t) := by
      intro hn err
      exact (leads_safe (openRejected_asks hentry err) hm).weaken fun w _ h hd => (h hd).rejected hm hn
    cases answer with
    | error err => exact hr nofun (some err)
    | ok opened =>
      dsimp only
      split
      case isTrue ht => exact hr (fun _ h => by cases h; exact ht) none
      have hin : (inflightIndex (c.setRound idx (entry.opened opened)).run).isSome := inflight_set hentry rfl
      have hm' : (c.setRound idx (entry.opened opened)).run.mode = .bootstrap := hm
      exact (saveOpened_safe hm' hin).weaken fun w _ h hd => (h hd).opened hm hentry opened

/-! ### Draining -/

lemma Apart.leads (h : Apart t c w) (hl : Leads c c') : Apart t c' w :=
  ⟨h.mode, hl.2.1.trans h.same, h.lock, h.apart, fun i hi => h.fresh i (hl.fundable h.same hi)⟩

lemma commitSwap_apart (hm : c.run.mode = .bootstrap) (swapId : String) :
    Does t (Held t c) (call (.commitSwap swapId c.before c.run)) fun _ => Live t (Apart t { c with before := c.run }) := by
  refine commitSwap_safe Apart.stable (fun w _ h => h.closes) (fun w h _ => h.lock) fun w _ h => ?_
  refine ⟨h.rowMode hm, hm, fun hl => (release_eq_some.1 hl).2 rfl, ?_, h.fresh⟩
  simp [World.commit]

lemma drainRound_safe (hm : c.run.mode = .bootstrap) (hentry : c.run.rounds[idx]? = some entry)
    (hs : entry.state = .openActive) (ch : Channel) :
    Does t (Held t c) (drainRound c idx entry ch) (Advanced t) := by
  have ha : ∀ {next : Round}, next.state = .openActive → next.unfunded → entry.unfunded := by
    intro next hn hu
    rw [Round.unfunded, hn] at hu
    cases hu.1
  unfold drainRound
  dsimp only
  split
  · exact leads_safe (p := .ret _) (Leads.move hentry (by nofun) rfl rfl rfl) hm
  refine asks_then (ask rfl) Held.stable fun address _ => ?_
  rcases address with err | (_ | destination)
  · exact leads_safe (p := .ret _) Leads.refl hm
  · exact leads_safe (p := .ret _) Leads.refl hm
  refine createReverseSwap_then Held.stable Apart.stable (commitSwap_apart hm) (fun err => ?_) fun swapId => ?_
  · dsimp only
    split
    · exact leads_safe (p := .ret _) (Leads.set hentry nofun) hm
    · exact leads_safe (p := .ret _) (Leads.set hentry (ha hs)) hm
  · -- the round is committed before another tick can read it
    have hsa : ∀ next : Round, next.state = .swapPending →
        (onceOpened T).Safe t (IfReturns (Advanced t)) (do
          let _ : Unit ← call (.commit c.run (c.setRound idx next).run)
          return { before := (c.setRound idx next).run, run := (c.setRound idx next).run })
          (Live t (Apart t { c with before := c.run })) := by
      intro next hn
      have hin : (inflightIndex (c.setRound idx next).run).isSome := inflight_set hentry (by rw [hn]; rfl)
      have hl : Leads { c with before := c.run } { before := c.run, run := (c.setRound idx next).run } := by
        refine Leads.move hentry (fun h => ?_) rfl rfl rfl
        rw [Round.unfunded, hn] at h
        cases h.1
      refine .ifReturns (saveRound_safe (c := ⟨c.run, (c.setRound idx next).run⟩) fun w _ h =>
        ⟨(Apart.leads h hl).closes, h.mode⟩) fun _ => ?_
      exact fun w _ h => ⟨hm, fun hd => .inr ⟨h hd, hin⟩⟩
    exact hsa _ rfl

lemma drainFailed_leads (status : SwapStatus) (hentry : c.run.rounds[idx]? = some entry) :
    Leads c (drainFailed c idx entry status) := by
  unfold drainFailed
  dsimp only
  split <;> exact Leads.move hentry (by nofun) rfl rfl rfl

lemma awaitClaim_asks (hentry : c.run.rounds[idx]? = some entry) :
    Asks (awaitClaim now c idx entry) (Leads c) := by
  unfold awaitClaim
  split
  · exact Leads.set hentry nofun
  refine .bind (ask (by trivial)) fun row _ => ?_
  cases row with
  | none => exact Leads.set hentry nofun
  | some swap =>
    -- the transactions of the swap are shown while they confirm
    have hs : ∀ (lockup claim : Option String),
        let next := { entry with swapLockupTxid := lockup, swapClaimTxid := claim }
        Leads c (c.setRound idx next) ∧ (c.setRound idx next).run.rounds[idx]? = some next := by
      intro lockup claim
      obtain ⟨hlt, -⟩ := List.getElem?_eq_some_iff.1 hentry
      exact ⟨Leads.set hentry id, getElem?_set_self hlt⟩
    obtain ⟨hl, hr⟩ := hs (swap.lockupTxid <|> entry.swapLockupTxid) (swap.claimTxid <|> entry.swapClaimTxid)
    dsimp only
    split
    · exact hl.trans (Leads.move hr (by nofun) rfl rfl rfl)
    · exact hl.trans (drainFailed_leads _ hr)
    · exact hl.trans (drainFailed_leads _ hr)
    · exact hl.trans (drainFailed_leads _ hr)
    · exact (keepWaiting_asks now hr _).mono (fun _ h => h) fun _ h => hl.trans h

lemma advanceBootstrapRound_safe (now idx : ℕ) (hm : c.run.mode = .bootstrap) :
    Does t (Held t c) (advanceBootstrapRound now c idx) (Advanced t) := by
  unfold advanceBootstrapRound
  split
  · exact leads_safe (p := .ret _) Leads.refl hm
  case _ entry hentry =>
    split
    case _ hs =>
      split
      · exact leads_safe (p := .ret _) (Leads.set hentry nofun) hm
      case _ ht => exact openRound_safe hm hentry ⟨hs, ht⟩
    case _ hs =>
      refine leads_safe (.bind (ask (by trivial)) fun active _ => ?_) hm
      rcases active with _ | (_ | _)
      · exact Leads.refl
      · exact keepWaiting_asks now hentry _
      · exact Leads.move hentry (by nofun) rfl rfl rfl
    case _ hs =>
      refine asks_then (ask rfl) Held.stable fun channels _ => ?_
      cases channels with
      | none => exact leads_safe (p := .ret _) Leads.refl hm
      | some channels =>
        dsimp only
        split
        · exact leads_safe (keepWaiting_asks now hentry _) hm
        case _ ch _ => exact drainRound_safe hm hentry hs ch
    · exact leads_safe (awaitClaim_asks now hentry) hm
    all_goals exact leads_safe (p := .ret _) Leads.refl hm

/-! ### The next round -/

lemma finalizeRun_leads (state : RunState) : Leads c (c.finalizeRun now state) := by
  unfold Copy.finalizeRun
  split
  · exact Leads.refl
  · exact .of_eq rfl rfl rfl

lemma finish_leads (state : RunState) (text : Option String) : Leads c (finish now c state text) := by
  cases text with
  | none => exact finalizeRun_leads now state
  | some text => exact (finalizeRun_leads now state).trans (.of_eq rfl rfl rfl)

lemma insufficient_leads (now openFee : ℕ) : Leads c (insufficient now c openFee) := by
  unfold insufficient
  split
  · exact finish_leads now _ _
  · split
    · exact finish_leads now _ _
    · exact .of_eq rfl rfl rfl

lemma startRound_leads (entry : Round) : Leads c (startRound c entry) := by
  refine ⟨rfl, rfl, fun i hi found hf => hi found ?_⟩
  obtain ⟨hlt, -⟩ := List.getElem?_eq_some_iff.1 hf
  exact (getElem?_append_left hlt).trans hf

def Committable (t : T) (c : Copy) : World T → Prop := Live t (Closes t c.before c.run)

lemma committable_leads {p : Code Copy} (h : Asks p (Leads c)) (hm : c.run.mode = .bootstrap) :
    Does t (Held t c) p (Committable t) := by
  refine asks_post h Held.stable fun c' w hc h => ?_
  exact fun hd => ((h hd).leads hc hm).closes

/-- Columns other than the rounds may still be written. -/
lemma Advanced.committable (h : Advanced t c w) (hl : Leads c c') (hr : c'.run.rounds = c.run.rounds) :
    Committable t c' w := by
  intro hd
  rcases h.2 hd with hh | ⟨hs, -⟩
  · exact (hh.leads hl h.1).closes
  · have hs' : Saved t c' w := ⟨hs.mode, hs.lock, by rw [hr, hl.1, hs.rounds]⟩
    exact hs'.closes

lemma startNextRound_safe (now capacitySats confirmed openFee : ℕ) (hm : c.run.mode = .bootstrap) :
    Does t (Held t c) (startNextRound now c capacitySats confirmed openFee) (Committable t) := by
  unfold startNextRound
  dsimp only
  have hc : Leads c (c.modify fun run => { run with awaitingSince := none }) := .of_eq rfl rfl rfl
  split
  · exact committable_leads (p := .ret _) (hc.trans (finish_leads now _ _)) hm
  split
  · exact committable_leads (p := .ret _) (hc.trans (finish_leads now _ _)) hm
  case _ peer _ =>
    have hr := hc.trans (startRound_leads (makeRound
      (settledCount (c.modify fun run => { run with awaitingSince := none }).run) peer capacitySats
      (drainForCapacity capacitySats) confirmed openFee))
    have ha := fun idx => (advanceBootstrapRound_safe (t := t) now idx (hr.2.1.trans hm)).mono
      (fun w _ (h : Live t (Held t c) w) hd => (h hd).leads hr hm) fun _ _ _ hq => hq
    refine .ifReturns (ha _) fun c' w _ h => ?_
    unfold failedOpen
    split
    · exact h.committable (finalizeRun_leads now _) (by unfold Copy.finalizeRun; split <;> rfl)
    · exact h.committable Leads.refl rfl

lemma maybeStartRound_safe (hm : c.run.mode = .bootstrap) :
    Does t (Held t c) (maybeStartRound now c) (Committable t) := by
  unfold maybeStartRound
  split
  · exact committable_leads (p := .ret _) (finish_leads now _ _) hm
  refine asks_then (ask rfl) Held.stable fun balance _ => ?_
  cases balance with
  | none => exact committable_leads (p := .ret _) (.of_eq rfl rfl rfl) hm
  | some bal =>
    refine asks_then feerateSatVb_asks Held.stable fun satPerVb _ => ?_
    dsimp only
    split
    · exact committable_leads (p := .ret _) (insufficient_leads now _) hm
    · exact startNextRound_safe now _ _ _ hm

lemma advanceBootstrap_safe (hm : c.run.mode = .bootstrap) :
    Does t (Held t c) (advanceBootstrap now c) (Committable t) := by
  unfold advanceBootstrap
  split
  · exact maybeStartRound_safe now hm
  refine .ifReturns (advanceBootstrapRound_safe now _ hm) fun c' => ?_
  split
  · exact fun w _ h => h.committable (.of_eq rfl rfl rfl) rfl
  rename_i hn
  -- a round that is over was not committed, so the lock is still held
  refine .and fun hm' => ?_
  have hh : ∀ w, Live t (fun w => Held t c' w ∨ Saved t c' w ∧ (inflightIndex c'.run).isSome) w →
      Live t (Held t c') w :=
    fun w h hd => (h hd).resolve_right fun hs => hn hs.2
  split
  · exact fun w _ h hd => ((hh w h hd).leads (finalizeRun_leads now _) hm').closes
  · exact (maybeStartRound_safe now hm').weaken fun w _ h => hh w h

end

end Bootstrap

/-! ## Ticks -/

section Ticks

variable {t : T}

/-- A tick that takes the row knows that no entry it would open was funded. -/
lemma selectForUpdate_safe :
    (onceOpened T).Safe t (IfReturns fun row => match row with
        | none => fun _ => True
        | some run => Live t (Held t ⟨run, run⟩)) (call .selectForUpdate) fun _ => True := by
  refine .call (fun r => ?_) fun w r w' hi _ hx => ⟨trivial, fun _ => ?_⟩
  · rcases r with e | (_ | run)
    · exact .const _
    · exact .const _
    · exact Held.stable
  · obtain ⟨-, -, ⟨hl, rfl, rfl⟩ | ⟨rfl, hn⟩⟩ := hx
    · refine fun _ => ⟨rfl, rfl, rfl, fun i hi' => (hi.fresh i hi').resolve_right ?_⟩
      rintro ⟨u, hu, -⟩
      rw [hl] at hu
      cases hu
    · rcases r with e | (_ | run)
      · trivial
      · trivial
      · exact (hn run rfl).elim

lemma tick_safe (now : ℕ) : (onceOpened T).Obeys t (tick now) := by
  have hc : ∀ c : Copy, (onceOpened T).Safe t (IfReturns fun _ => Live t fun _ => True)
      (call (.commit c.before c.run)) (Committable t c) :=
    fun c => commit_safe (fun _ _ _ _ _ _ _ => trivial) (fun w _ h => h) fun _ _ _ => trivial
  have ha : ∀ c : Copy, Does t (Held t c) (advance now c) (Committable t) := by
    intro c
    unfold advance
    split
    case _ hm => exact advanceBootstrap_safe now hm
    case _ hm =>
      refine (advanceParallel_safe now hm).post fun r w _ hq => ?_
      cases r with
      | error e => trivial
      | ok c' => exact fun hd => (hq hd).closes
  have ht : (onceOpened T).Safe t (IfReturns fun _ _ => True) (tick now) fun _ => True := by
    refine .ifReturns selectForUpdate_safe fun row => ?_
    cases row with
    | none => exact fun w _ _ => trivial
    | some run =>
      dsimp only
      split
      · exact fun w _ _ => trivial
      · exact .ifReturns (ha ⟨run, run⟩) fun c => .ifReturns (hc c) fun _ _ _ _ => trivial
  exact ht.silent

lemma processChannelMixRun_safe (now : ℕ) :
    (onceOpened T).Obeys t (processChannelMixRun now) := by
  have hc : (onceOpened T).Obeys t (call .close) :=
    .call (fun _ => .const _) fun _ _ _ _ _ _ => ⟨trivial, fun _ => trivial⟩
  have hr : (onceOpened T).Obeys t (runOneMix now) :=
    (tick_safe now).attempt.seq fun r =>
      hc.andThen fun _ => .result fun _ _ _ => trivial
  refine hr.attempt.seq fun r => ?_
  rcases r with e | (_ | ⟨state, mode⟩) <;> exact fun _ _ _ => trivial

end Ticks

/-- In every run of ticks that loses no record of a funding transaction, at most one is
broadcast for each entry. -/
theorem funded_once (row : Run) (now : T → ℕ) {cfg : Config T Command Reply Raised Outcome (World T)}
    (h : (recording T).Reach ⟨{ row := row }, fun t => processChannelMixRun (now t)⟩ cfg) (i : ℕ) :
    cfg.shared.funded.count i ≤ 1 := by
  have hi : FundedOnce ({ row := row } : World T) := by
    refine ⟨fun _ => ?_, fun _ _ => .inl rfl, nofun, nofun⟩
    simp
  have hs : (onceOpened T).Holds (fun _ _ _ => True) ⟨{ row := row }, fun t => processChannelMixRun (now t)⟩ :=
    ⟨hi, fun t => ⟨fun _ => True, .const _, trivial, processChannelMixRun_safe (now t)⟩⟩
  exact (hs.reach h).1.once i

/-! ## A lost record -/

def oneChannel : Run where
  mode := .parallel
  channels := [⟨"alice", "02aa", "host:9735", 200000, 0, 0, .queued, none, none, none, none, .skipped, none, none⟩]

/-- A run in which the channel of the plan is opened. -/
theorem funded_once_opened : ∃ cfg, (recording Bool).Reach
    ⟨{ row := oneChannel }, fun _ => processChannelMixRun 0⟩ cfg ∧ cfg.shared.funded = [0] ∧
      ∀ i, cfg.shared.funded.count i ≤ 1 := by
  have hru : ∃ cfg, (recording Bool).Reach ⟨{ row := oneChannel }, fun _ => processChannelMixRun 0⟩ cfg ∧
      cfg.shared.funded = [0] := by
    refine Reach.next false rfl (.ok (some oneChannel)) ⟨nofun, rfl, .inl ⟨rfl, rfl, rfl⟩⟩ ?_
    refine Reach.next false rfl (.ok (.ok ())) ⟨trivial, rfl, rfl⟩ ?_
    refine Reach.next false rfl (.ok (some ["02aa"])) ⟨trivial, rfl, rfl⟩ ?_
    refine Reach.next false rfl (.ok (.ok ⟨"f0", 1⟩)) ⟨nofun, rfl, .inl rfl⟩ ?_
    exact ⟨_, .refl, rfl⟩
  obtain ⟨cfg, hr, hf⟩ := hru
  exact ⟨cfg, hr, hf, funded_once oneChannel (fun _ => 0) hr⟩

/-- The audit row of the open cannot be written. The tick is rolled back, and the next
one opens the channel again. -/
theorem funded_twice : ¬ ∀ cfg, (machine Bool).Reach
    ⟨{ row := oneChannel }, fun _ => processChannelMixRun 0⟩ cfg → ∀ i, cfg.shared.funded.count i ≤ 1 := by
  have hru : ∃ cfg, (machine Bool).Reach ⟨{ row := oneChannel }, fun _ => processChannelMixRun 0⟩ cfg ∧
      cfg.shared.funded = [0, 0] := by
    refine Reach.next false rfl (.ok (some oneChannel)) ⟨rfl, .inl ⟨rfl, rfl, rfl⟩⟩ ?_
    refine Reach.next false rfl (.ok (.ok ())) ⟨rfl, rfl⟩ ?_
    refine Reach.next false rfl (.ok (some ["02aa"])) ⟨rfl, rfl⟩ ?_
    refine Reach.next false rfl (.ok (.ok ⟨"f0", 1⟩)) ⟨rfl, .inl rfl⟩ ?_
    refine Reach.next false rfl (.error ⟨"connection lost"⟩) ⟨rfl, rfl⟩ ?_
    refine Reach.next false rfl (.ok ()) ⟨rfl, rfl⟩ ?_
    refine Reach.next true rfl (.ok (some oneChannel)) ⟨rfl, .inl ⟨rfl, rfl, rfl⟩⟩ ?_
    refine Reach.next true rfl (.ok (.ok ())) ⟨rfl, rfl⟩ ?_
    refine Reach.next true rfl (.ok (some ["02aa"])) ⟨rfl, rfl⟩ ?_
    refine Reach.next true rfl (.ok (.ok ⟨"f1", 1⟩)) ⟨rfl, .inl rfl⟩ ?_
    exact ⟨_, .refl, rfl⟩
  obtain ⟨cfg, hr, hf⟩ := hru
  intro h
  have hc := h cfg hr 0
  rw [hf] at hc
  exact absurd hc (by decide)

end AgentWallet.Channels
