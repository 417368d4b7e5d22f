import Mathlib.Logic.Function.Basic
import Mathlib.Logic.Relation
/-!
# Tasks that share a state

A task is the tree of the commands it awaits. Any number of tasks run against
one shared state, one command at a time, in any order (`Machine.Step`).

To prove something about every interleaving, state a `Protocol`: an invariant
of the shared state, what a task has to know when it issues a command, and what
a task may rely on while others run. `Safe` is then a Hoare triple for one task
alone, with rules for `bind`, `tryExcept` and a single command, and
`Protocol.reach` puts the tasks together.
-/

namespace AgentWallet.Lib

/-- A task returns, raises, or awaits a command and goes on with its answer,
which may be an exception. -/
inductive Task (C : Type) (R : C → Type) (ε α : Type) : Type
  | ret (a : α)
  | raise (e : ε)
  | await (c : C) (k : Except ε (R c) → Task C R ε α)

variable {T C σ ε α β : Type} {R : C → Type}

namespace Task

def bind : Task C R ε α → (α → Task C R ε β) → Task C R ε β
  | .ret a, f => f a
  | .raise e, _ => .raise e
  | .await c k, f => .await c fun r => (k r).bind f

instance : Monad (Task C R ε) where
  pure := .ret
  bind := .bind

/-- `try: p except e: h e` -/
def tryExcept : Task C R ε α → (ε → Task C R ε α) → Task C R ε α
  | .ret a, _ => .ret a
  | .raise e, h => h e
  | .await c k, h => .await c fun r => (k r).tryExcept h

def result : Except ε α → Task C R ε α
  | .ok a => .ret a
  | .error e => .raise e

/-- What the task returns or raises, as a value. -/
def attempt : Task C R ε α → Task C R ε (Except ε α)
  | .ret a => .ret (.ok a)
  | .raise e => .ret (.error e)
  | .await c k => .await c fun r => (k r).attempt

/-- `try: p finally: last` -/
def tryFinally (p : Task C R ε α) (last : Task C R ε Unit) : Task C R ε α :=
  p.attempt.bind fun r => last.bind fun _ => .result r

def call (c : C) : Task C R ε (R c) := .await c result

/-! ### What a task can do -/

/-- A value that is returned satisfies `ψ`. -/
def Okay (ψ : α → Prop) : Except ε α → Prop
  | .ok a => ψ a
  | .error _ => True

/-- Whatever is answered, the task only awaits commands with `φ`, and only returns
values with `ψ`. -/
def Within (φ : C → Prop) (ψ : α → Prop) : Task C R ε α → Prop
  | .ret a => ψ a
  | .raise _ => True
  | .await c k => φ c ∧ ∀ r, (k r).Within φ ψ

variable {φ : C → Prop} {ψ : α → Prop} {p : Task C R ε α}

lemma within_result {r : Except ε α} (h : Okay ψ r) : (result r : Task C R ε α).Within φ ψ := by
  cases r with
  | ok a => exact h
  | error e => trivial

lemma within_call {c : C} {ψ : R c → Prop} (hc : φ c) (hψ : ∀ a, ψ a) : (call c : Task C R ε (R c)).Within φ ψ := by
  refine ⟨hc, fun r => within_result ?_⟩
  cases r with
  | ok a => exact hψ a
  | error e => trivial

lemma Within.mono {φ' : C → Prop} {ψ' : α → Prop} (h : p.Within φ ψ) (hφ : ∀ c, φ c → φ' c) (hψ : ∀ a, ψ a → ψ' a) :
    p.Within φ' ψ' := by
  induction p with
  | ret a => exact hψ a h
  | raise e => trivial
  | await c k ih => exact ⟨hφ c h.1, fun r => ih r (h.2 r)⟩

lemma Within.bind {p : Task C R ε β} {f : β → Task C R ε α} {ψ' : β → Prop} (h : p.Within φ ψ')
    (hf : ∀ b, ψ' b → (f b).Within φ ψ) : (p.bind f).Within φ ψ := by
  induction p with
  | ret b => exact hf b h
  | raise e => trivial
  | await c k ih => exact ⟨h.1, fun r => ih r (h.2 r)⟩

lemma Within.tryExcept {ha : ε → Task C R ε α} (h : p.Within φ ψ) (hh : ∀ e, (ha e).Within φ ψ) :
    (p.tryExcept ha).Within φ ψ := by
  induction p with
  | ret a => exact h
  | raise e => exact hh e
  | await c k ih => exact ⟨h.1, fun r => ih r (h.2 r)⟩

lemma Within.attempt (h : p.Within φ ψ) : p.attempt.Within φ (Okay ψ) := by
  induction p with
  | ret a => exact h
  | raise e => trivial
  | await c k ih => exact ⟨h.1, fun r => ih r (h.2 r)⟩

lemma Within.tryFinally {last : Task C R ε Unit} {ψ' : Unit → Prop} (h : p.Within φ ψ) (hl : last.Within φ ψ') :
    (p.tryFinally last).Within φ ψ :=
  h.attempt.bind fun _ hr => hl.bind fun _ _ => within_result hr

end Task

/-! ## Runs -/

/-- How a command of a task changes the shared state and what it answers, and
how the state changes by itself. -/
structure Machine (T C : Type) (R : C → Type) (ε σ : Type) where
  exec (t : T) (c : C) (s : σ) (r : Except ε (R c)) (s' : σ) : Prop
  env (s s' : σ) : Prop

def Machine.when (M : Machine T C R ε σ) (cond : T → C → σ → Prop) : Machine T C R ε σ where
  exec t c s r s' := cond t c s ∧ M.exec t c s r s'
  env := M.env

def Machine.restrict (M : Machine T C R ε σ) (step : T → (c : C) → σ → Except ε (R c) → σ → Prop)
    (own : σ → σ → Prop) : Machine T C R ε σ where
  exec t c s r s' := step t c s r s' ∧ M.exec t c s r s'
  env s s' := own s s' ∧ M.env s s'

structure Config (T C : Type) (R : C → Type) (ε α σ : Type) where
  shared : σ
  tasks : T → Task C R ε α

inductive Machine.Step [DecidableEq T] (M : Machine T C R ε σ) : Config T C R ε α σ → Config T C R ε α σ → Prop
  | run {cfg : Config T C R ε α σ} {t : T} {c : C} {k : Except ε (R c) → Task C R ε α} {r : Except ε (R c)} {s : σ}
    (ht : cfg.tasks t = .await c k) (hx : M.exec t c cfg.shared r s) :
    M.Step cfg ⟨s, Function.update cfg.tasks t (k r)⟩
  | env {cfg : Config T C R ε α σ} {s : σ} (h : M.env cfg.shared s) : M.Step cfg ⟨s, cfg.tasks⟩

variable {M : Machine T C R ε σ} {t : T} {s s₁ s' : σ} {c : C} {k : Except ε (R c) → Task C R ε α} {p : Task C R ε α}
  {tasks : T → Task C R ε α} {cfg cfg' : Config T C R ε α σ} {tr : List ((c : C) × Except ε (R c))} {res : Except ε α}

/-- The interleavings from a configuration. -/
def Machine.Reach [DecidableEq T] (M : Machine T C R ε σ) : Config T C R ε α σ → Config T C R ε α σ → Prop :=
  Relation.ReflTransGen M.Step

lemma Machine.Reach.run [DecidableEq T] (h : M.Reach cfg ⟨s, tasks⟩) (t : T) (ht : tasks t = .await c k)
    (r : Except ε (R c)) (hx : M.exec t c s r s') : M.Reach cfg ⟨s', Function.update tasks t (k r)⟩ :=
  .tail h (.run ht hx)

lemma Machine.Reach.next [DecidableEq T] {p : Config T C R ε α σ → Prop} (t : T) (ht : tasks t = .await c k)
    (r : Except ε (R c)) (hx : M.exec t c s r s') (h : ∃ cfg, M.Reach ⟨s', Function.update tasks t (k r)⟩ cfg ∧ p cfg) :
    ∃ cfg, M.Reach ⟨s, tasks⟩ cfg ∧ p cfg := by
  obtain ⟨cfg, hr, hp⟩ := h
  exact ⟨cfg, .head (.run ht hx) hr, hp⟩

variable {a : α} {f : β → Task C R ε α} {r : Except ε (R c)}

lemma Machine.Step.ret [DecidableEq T] (h : M.Step cfg cfg') (ht : cfg.tasks t = .ret a) : cfg'.tasks t = .ret a := by
  cases h with
  | @run u c k r s hu hx =>
    have hne : t ≠ u := by
      rintro rfl
      rw [ht] at hu
      cases hu
    exact (Function.update_of_ne hne ..).trans ht
  | env h => exact ht

/-- One task, started again and again: each time it runs for a while and is cut off,
or ends. -/
def Machine.Restarts (M : Machine Unit C R ε σ) (p : Task C R ε α) : σ → σ → Prop :=
  Relation.ReflTransGen fun s s' => ∃ tasks, M.Reach ⟨s, fun _ => p⟩ ⟨s', tasks⟩

/-- A run whose steps are all steps of another machine is a run of that machine. -/
lemma Machine.Reach.mono [DecidableEq T] {M N : Machine T C R ε σ}
    (hx : ∀ t c s r s', M.exec t c s r s' → N.exec t c s r s') (he : ∀ s s', M.env s s' → N.env s s')
    (h : M.Reach cfg cfg') : N.Reach cfg cfg' := by
  have hst : ∀ a b : Config T C R ε α σ, M.Step a b → N.Step a b := by
    intro a b hs
    cases hs with
    | run ht hs => exact .run ht (hx _ _ _ _ _ hs)
    | env hs => exact .env (he _ _ hs)
  exact Relation.ReflTransGen.mono hst _ _ h

/-- A task that runs to its end with no other in between: the commands it issued
with their answers, and its result. -/
inductive Machine.Runs (M : Machine T C R ε σ) (t : T) :
    σ → Task C R ε α → List ((c : C) × Except ε (R c)) → Except ε α → σ → Prop
  | ret {s : σ} {a : α} : M.Runs t s (.ret a) [] (.ok a) s
  | raise {s : σ} {e : ε} : M.Runs t s (.raise e) [] (.error e) s
  | await {s s₁ s' : σ} {c : C} {k : Except ε (R c) → Task C R ε α} {r : Except ε (R c)}
    {tr : List ((c : C) × Except ε (R c))} {res : Except ε α} (hx : M.exec t c s r s₁) (h : M.Runs t s₁ (k r) tr res s') :
    M.Runs t s (.await c k) (⟨c, r⟩ :: tr) res s'

lemma Machine.Runs.next (r : Except ε (R c)) (hx : M.exec t c s r s₁) (h : ∃ tr s', M.Runs t s₁ (k r) tr res s') : ∃
    tr s', M.Runs t s (.await c k) tr res s' := by
  obtain ⟨tr, s', h⟩ := h
  exact ⟨_, s', .await hx h⟩

lemma Machine.Runs.bind {p : Task C R ε β} {tr tr' : List ((c : C) × Except ε (R c))} {b : β}
    (h : M.Runs t s p tr (.ok b) s₁) (hf : M.Runs t s₁ (f b) tr' res s') : M.Runs t s (p.bind f) (tr ++ tr') res s' :=
    by
  generalize hr : Except.ok b = r at h
  induction h with
  | ret => cases hr; exact hf
  | raise => cases hr
  | await hx _ ih => exact .await hx (ih hf hr)

lemma Machine.Runs.reach [DecidableEq T] (h : M.Runs t s p tr res s') (ht : tasks t = p) : M.Reach ⟨s, tasks⟩
    ⟨s', Function.update tasks t (.result res)⟩ := by
  induction h generalizing tasks with
  | ret | raise => rw [← Function.update_eq_self t tasks, ht, Function.update_idem]; exact .refl
  | await hx h ih =>
    have hs : M.Step ⟨_, tasks⟩ ⟨_, Function.update tasks t _⟩ := .run ht hx
    have hr := @ih (Function.update tasks t _) (Function.update_self t _ tasks)
    rw [Function.update_idem] at hr
    exact .head hs hr

/-- The task ends with the result when it runs alone, by whatever commands. -/
def Machine.Ends (M : Machine T C R ε σ) (t : T) (s : σ) (p : Task C R ε α) (res : Except ε α) (s' : σ) : Prop :=
  ∃ tr, M.Runs t s p tr res s'

lemma Machine.Ends.ret : M.Ends t s (.ret a) (.ok a) s := ⟨[], .ret⟩

lemma Machine.Ends.await (hx : M.exec t c s r s₁) (h : M.Ends t s₁ (k r) res s') : M.Ends t s (.await c k) res s' := by
  obtain ⟨tr, h⟩ := h
  exact ⟨_, .await hx h⟩

lemma Machine.Ends.step (h : M.Ends t s (.await c k) res s') : ∃ r s₁, M.exec t c s r s₁ ∧ M.Ends t s₁ (k r) res s' :=
    by
  obtain ⟨tr, h⟩ := h
  cases h with
  | await hx h => exact ⟨_, _, hx, _, h⟩

lemma Machine.Ends.done (h : M.Ends t s (.ret a) res s') : s' = s := by
  obtain ⟨tr, h⟩ := h
  cases h with
  | ret => rfl

lemma Machine.Ends.next {q : σ → Prop} (hp : p = .await c k) (r : Except ε (R c)) (hx : M.exec t c s r s₁)
    (h : ∃ s', M.Ends t s₁ (k r) res s' ∧ q s') : ∃ s', M.Ends t s p res s' ∧ q s' := by
  obtain ⟨s', he, hq⟩ := h
  exact ⟨s', hp ▸ .await hx he, hq⟩

lemma Machine.Ends.bind {p : Task C R ε β} {b : β} (h : M.Ends t s p (.ok b) s₁)
    (hf : M.Ends t s₁ (f b) res s') : M.Ends t s (p.bind f) res s' := by
  obtain ⟨tr, h⟩ := h
  obtain ⟨tr', hf⟩ := hf
  exact ⟨_, h.bind hf⟩

lemma Machine.Ends.reach [DecidableEq T] (h : M.Ends t s p res s') (ht : tasks t = p) : M.Reach ⟨s, tasks⟩
    ⟨s', Function.update tasks t (.result res)⟩ := by
  obtain ⟨tr, h⟩ := h
  exact h.reach ht

/-! ## Protocols -/

structure Protocol (M : Machine T C R ε σ) where
  inv : σ → Prop
  pre : T → C → σ → Prop
  rely : T → σ → σ → Prop
  exec {t : T} {c : C} {s s' : σ} {r : Except ε (R c)} : inv s → pre t c s → M.exec t c s r s' →
    inv s' ∧ ∀ u, u ≠ t → rely u s s'
  env {s s' : σ} : inv s → M.env s s' → inv s' ∧ ∀ u, rely u s s'

/-- What a task knows survives the steps of others. -/
def Protocol.Stable (P : Protocol M) (t : T) (A : σ → Prop) : Prop :=
  ∀ s s', P.inv s → P.inv s' → P.rely t s s' → A s → A s'

/-- From a state with `A`, the task only issues commands it may issue, and what
it returns or raises satisfies `Q`. -/
def Protocol.Safe (P : Protocol M) (t : T) (Q : Except ε α → σ → Prop) : Task C R ε α → (σ → Prop) → Prop
  | .ret a, A => ∀ s, P.inv s → A s → Q (.ok a) s
  | .raise e, A => ∀ s, P.inv s → A s → Q (.error e) s
  | .await c k, A => ∀ s r s', P.inv s → A s → M.exec t c s r s' →
      P.pre t c s ∧ (P.inv s' → ∃ B, P.Stable t B ∧ B s' ∧ P.Safe t Q (k r) B)

variable {P : Protocol M} {A B : σ → Prop} {Q Q' : Except ε α → σ → Prop}

lemma Protocol.Stable.and (ha : P.Stable t A) (hb : P.Stable t B) : P.Stable t fun s => A s ∧ B s :=
  fun s s' hi hi' hr h => ⟨ha s s' hi hi' hr h.1, hb s s' hi hi' hr h.2⟩

lemma Protocol.Stable.exists {A : β → σ → Prop} (h : ∀ b, P.Stable t (A b)) : P.Stable t fun s => ∃ b, A b s :=
  fun s s' hi hi' hr ⟨b, hb⟩ => ⟨b, h b s s' hi hi' hr hb⟩

lemma Protocol.Stable.const (p : Prop) : P.Stable t fun _ => p := fun _ _ _ _ _ h => h

lemma Protocol.Safe.await {k' : Except ε (R c) → Task C R ε β} {Q' : Except ε β → σ → Prop}
    (h : P.Safe t Q (.await c k) A) (hk : ∀ r B, P.Safe t Q (k r) B → P.Safe t Q' (k' r) B) : P.Safe t Q' (.await c k')
    A := by
  intro s r s' hi ha hx
  obtain ⟨hp, hn⟩ := h s r s' hi ha hx
  refine ⟨hp, fun hi' => ?_⟩
  obtain ⟨D, hst, hd, hs⟩ := hn hi'
  exact ⟨D, hst, hd, hk r D hs⟩

lemma Protocol.Safe.mono (h : P.Safe t Q p A) (hA : ∀ s, P.inv s → B s → A s) (hQ : ∀ r s, P.inv s → Q r s → Q' r s) :
    P.Safe t Q' p B := by
  induction p generalizing A B with
  | ret a | raise e => exact fun s hi hb => hQ _ s hi (h s hi (hA s hi hb))
  | await c k ih => exact fun s r s' hi hb => h.await (fun r _ hk => ih r hk fun _ _ hd => hd) s r s' hi (hA s hi hb)

lemma Protocol.Safe.weaken (h : P.Safe t Q p A) (hA : ∀ s, P.inv s → B s → A s) : P.Safe t Q p B :=
  h.mono hA fun _ _ _ hq => hq

lemma Protocol.Safe.post (h : P.Safe t Q p A) (hQ : ∀ r s, P.inv s → Q r s → Q' r s) : P.Safe t Q' p A :=
  h.mono (fun _ _ ha => ha) hQ

/-- From a state with `A`, the task only issues commands it may issue. -/
def Protocol.Obeys (P : Protocol M) (t : T) (p : Task C R ε α) (A : σ → Prop := fun _ => True) : Prop :=
  P.Safe t (fun _ _ => True) p A

lemma Protocol.Obeys.ret : P.Obeys t (.ret a) A := fun _ _ _ => trivial

lemma Protocol.Obeys.anywhere (h : P.Obeys t p) : P.Obeys t p A := h.weaken fun _ _ _ => trivial

lemma Protocol.Safe.silent (h : P.Safe t Q p A) : P.Obeys t p A := h.post fun _ _ _ _ => trivial

lemma Protocol.Safe.bind {p : Task C R ε β} {Q' : Except ε β → σ → Prop} (h : P.Safe t Q' p A)
    (hf : ∀ b, P.Safe t Q (f b) (Q' (.ok b))) (he : ∀ e s, P.inv s → Q' (.error e) s → Q (.error e) s) : P.Safe t Q
    (p.bind f) A := by
  induction p generalizing A with
  | ret b => exact (hf b).mono h fun _ _ _ hq => hq
  | raise e => exact fun s hi ha => he e s hi (h s hi ha)
  | await c k ih => exact h.await fun r _ => ih r

lemma Protocol.Safe.andThen {p : Task C R ε β} {Q' : Except ε β → σ → Prop}
    (h : P.Safe t Q' p A) (hf : ∀ b, P.Obeys t (f b) (Q' (.ok b))) : P.Obeys t (p.bind f) A :=
  h.bind hf fun _ _ _ _ => trivial

lemma Protocol.Safe.tryExcept {h : ε → Task C R ε α} (hp : P.Safe t Q' p A)
    (hh : ∀ e, P.Safe t Q (h e) (Q' (.error e))) (hok : ∀ a s, P.inv s → Q' (.ok a) s → Q (.ok a) s) : P.Safe t Q
    (p.tryExcept h) A := by
  induction p generalizing A with
  | ret a => exact fun s hi ha => hok a s hi (hp s hi ha)
  | raise e => exact (hh e).mono hp fun _ _ _ hq => hq
  | await c k ih => exact hp.await fun r _ => ih r

lemma Protocol.Safe.call {c : C} {Q : Except ε (R c) → σ → Prop} (hst : ∀ r, P.Stable t (Q r))
    (h : ∀ s r s', P.inv s → A s → M.exec t c s r s' → P.pre t c s ∧ (P.inv s' → Q r s')) : P.Safe t Q (Task.call c) A
    := by
  intro s r s' hi ha hx
  obtain ⟨hp, hq⟩ := h s r s' hi ha hx
  refine ⟨hp, fun hi' => ⟨Q r, hst r, hq hi', ?_⟩⟩
  cases r with
  | ok a | error e => exact fun _ _ hq => hq

lemma Protocol.Safe.exists {A : β → σ → Prop} (h : ∀ b, P.Safe t Q p (A b)) : P.Safe t Q p fun s => ∃ b, A b s := by
  cases p with
  | ret a | raise e => exact fun s hi ⟨b, hb⟩ => h b s hi hb
  | await c k => exact fun s r s' hi ⟨b, hb⟩ => h b s r s' hi hb

lemma Protocol.Safe.and {φ : Prop} (h : φ → P.Safe t Q p A) : P.Safe t Q p fun s => φ ∧ A s := by
  cases p with
  | ret a | raise e => exact fun s hi ⟨hφ, ha⟩ => h hφ s hi ha
  | await c k => exact fun s r s' hi ⟨hφ, ha⟩ => h hφ s r s' hi ha

lemma Protocol.Safe.known {φ : Prop} (h : φ → P.Safe t Q p fun _ => True) : P.Safe t Q p fun _ => φ :=
  (Protocol.Safe.and h).weaken fun _ _ hφ => ⟨hφ, trivial⟩

lemma Protocol.Safe.result {r : Except ε α} (h : ∀ s, P.inv s → A s → Q r s) : P.Safe t Q (.result r) A := by
  cases r with
  | ok a | error e => exact h

def Returns (Q : α → σ → Prop) : Except ε α → σ → Prop
  | .ok a, s => Q a s
  | .error _, _ => False

lemma Protocol.Safe.answered {c : C} {Q : R c → σ → Prop} (hst : ∀ x, P.Stable t (Q x))
    (h : ∀ s r s', P.inv s → A s → M.exec t c s r s' → P.pre t c s ∧ ∃ x, r = .ok x ∧ (P.inv s' → Q x s')) : P.Safe t
    (Returns Q) (Task.call c) A := by
  refine Protocol.Safe.call (fun r => ?_) fun s r s' hi ha hx => ?_
  · cases r with
    | ok x => exact hst x
    | error e => exact .const _
  · obtain ⟨hp, x, rfl, hq⟩ := h s r s' hi ha hx
    exact ⟨hp, hq⟩

lemma Protocol.Safe.seq {p : Task C R ε β} {Q' : β → σ → Prop} (h : P.Safe t (Returns Q') p A)
    (hf : ∀ b, P.Safe t Q (f b) (Q' b)) : P.Safe t Q (p.bind f) A :=
  h.bind hf fun _ _ _ hf => hf.elim

/-- If the task returns, then with `Q`. -/
def IfReturns (Q : α → σ → Prop) : Except ε α → σ → Prop
  | .ok a, s => Q a s
  | .error _, _ => True

lemma Protocol.Stable.ifReturns {Q : α → σ → Prop} (h : ∀ a, P.Stable t (Q a)) (r : Except ε α) : P.Stable t
    (IfReturns Q r) := by
  cases r with
  | ok a => exact h a
  | error e => exact .const _

lemma Protocol.Safe.ifReturns {p : Task C R ε β} {Q' : Except ε β → σ → Prop}
    {Q : α → σ → Prop} (h : P.Safe t Q' p A) (hf : ∀ b, P.Safe t (IfReturns Q) (f b) (Q' (.ok b))) : P.Safe t
    (IfReturns Q) (p.bind f) A :=
  h.bind hf fun _ _ _ _ => trivial

/-- A value that the task returns satisfies `φ`. -/
def Yields (φ : α → Prop) : Except ε α → σ → Prop
  | .ok a, _ => φ a
  | .error _, _ => True

lemma Protocol.Safe.yields_call {c : C} {φ : R c → Prop}
    (h : ∀ s r s', P.inv s → A s → M.exec t c s r s' → P.pre t c s ∧ ∀ x, r = .ok x → φ x) : P.Safe t (Yields φ)
    (Task.call c) A := by
  refine Protocol.Safe.call (fun r => ?_) fun s r s' hi ha hx => ?_
  · cases r with
    | ok x | error e => exact .const _
  · obtain ⟨hp, hφ⟩ := h s r s' hi ha hx
    refine ⟨hp, fun _ => ?_⟩
    cases r with
    | ok x => exact hφ x rfl
    | error e => trivial

lemma Protocol.Safe.yields_bind {p : Task C R ε β} {φ : β → Prop} {ψ : α → Prop}
    (h : P.Safe t (Yields φ) p A) (hf : ∀ b, φ b → P.Safe t (Yields ψ) (f b) fun _ => True) : P.Safe t (Yields ψ)
    (p.bind f) A :=
  h.bind (fun b => .known (hf b)) fun _ _ _ _ => trivial

lemma Protocol.Safe.attempt (h : P.Safe t Q p A) : P.Safe t (Returns Q) p.attempt A := by
  induction p generalizing A with
  | ret a | raise e => exact h
  | await c k ih => exact h.await fun r _ => ih r

lemma Protocol.Safe.tryFinally {last : Task C R ε Unit} (hp : P.Safe t Q' p A)
    (hl : ∀ r, P.Safe t (Returns fun _ s => Q r s) last (Q' r)) : P.Safe t Q (p.tryFinally last) A :=
  hp.attempt.seq fun r => (hl r).seq fun _ => .result fun _ _ h => h

/-- What no step of the task undoes holds throughout. -/
lemma Protocol.Safe.frame {Q : α → σ → Prop} {F : σ → Prop} (h : P.Safe t (Returns Q) p A) (hst : P.Stable t F)
    (hF : ∀ c s r s', F s → M.exec t c s r s' → F s') : P.Safe t (Returns fun a s => Q a s ∧ F s) p fun s => A s ∧ F s
    := by
  induction p generalizing A with
  | ret a => exact fun s hi ⟨ha, hf⟩ => ⟨h s hi ha, hf⟩
  | raise e => exact fun s hi ⟨ha, _⟩ => h s hi ha
  | await c k ih =>
    rintro s r s' hi ⟨ha, hf⟩ hx
    obtain ⟨hp, hn⟩ := h s r s' hi ha hx
    refine ⟨hp, fun hi' => ?_⟩
    obtain ⟨D, hd, hds, hk⟩ := hn hi'
    exact ⟨fun s => D s ∧ F s, hd.and hst, ⟨hds, hF c s r s' hf hx⟩, ih r hk⟩

lemma Protocol.Safe.absurd (h : ∀ s, ¬ A s) : P.Safe t Q p A := by
  cases p with
  | ret a | raise e => exact fun s _ ha => (h s ha).elim
  | await c k => exact fun s _ _ _ ha => (h s ha).elim

/-- A task that returns is not found to have raised. -/
lemma Protocol.Safe.attempted {p : Task C R ε β} {f : Except ε β → Task C R ε α} {Q' : β → σ → Prop}
    (h : P.Safe t (Returns Q') p A) (hf : ∀ b, P.Safe t Q (f (.ok b)) (Q' b)) : P.Safe t Q (p.attempt.bind f) A := by
  refine h.attempt.seq fun r => ?_
  cases r with
  | ok b => exact hf b
  | error e => exact .absurd fun _ h => h

lemma Protocol.Safe.tried {h : ε → Task C R ε α} {Q : α → σ → Prop} (hp : P.Safe t (Returns Q) p A) : P.Safe t
    (Returns Q) (p.tryExcept h) A :=
  hp.tryExcept (fun _ => .absurd fun _ hf => hf) fun _ _ _ hq => hq

/-- What the commands of the task keep and may rely on, it has throughout. -/
lemma Protocol.Safe.within {φ : C → Prop} {ψ : α → Prop} {K : σ → Prop} (h : p.Within φ ψ) (hst : P.Stable t K)
    (hK : ∀ c s r s', φ c → P.inv s → K s → M.exec t c s r s' → P.pre t c s ∧ (P.inv s' → K s')) : P.Safe t
    (fun r s => Task.Okay ψ r ∧ K s) p K := by
  induction p with
  | ret a => exact fun s _ hk => ⟨h, hk⟩
  | raise e => exact fun s _ hk => ⟨trivial, hk⟩
  | await c k ih =>
    intro s r s' hi hk hx
    obtain ⟨hp, hn⟩ := hK c s r s' h.1 hi hk hx
    exact ⟨hp, fun hi' => ⟨K, hst, hn hi', ih r (h.2 r)⟩⟩

/-- What is known of a configuration: the invariant, and each task is safe from
something it knows. -/
def Protocol.Holds (P : Protocol M) (Q : T → Except ε α → σ → Prop) (cfg : Config T C R ε α σ) : Prop :=
  P.inv cfg.shared ∧ ∀ t, ∃ A, P.Stable t A ∧ A cfg.shared ∧ P.Safe t (Q t) (cfg.tasks t) A

variable {Q : T → Except ε α → σ → Prop}

lemma Protocol.Holds.step [DecidableEq T] (h : P.Holds Q cfg) (hs : M.Step cfg cfg') : P.Holds Q cfg' := by
  obtain ⟨hi, hsa⟩ := h
  cases hs with
  | @run t c k r s ht hx =>
    obtain ⟨A, -, ha, hp⟩ := hsa t
    rw [ht] at hp
    obtain ⟨hpr, hn⟩ := hp _ r s hi ha hx
    obtain ⟨hi', hr⟩ := P.exec hi hpr hx
    refine ⟨hi', fun u => ?_⟩
    by_cases hu : u = t
    · subst hu
      obtain ⟨B, hst, hb, hk⟩ := hn hi'
      exact ⟨B, hst, hb, by simpa using hk⟩
    · obtain ⟨D, hst, hd, hk⟩ := hsa u
      exact ⟨D, hst, hst _ _ hi hi' (hr u hu) hd, by simpa [hu] using hk⟩
  | env h =>
    obtain ⟨hi', hr⟩ := P.env hi h
    refine ⟨hi', fun u => ?_⟩
    obtain ⟨D, hst, hd, hk⟩ := hsa u
    exact ⟨D, hst, hst _ _ hi hi' (hr u) hd, hk⟩

lemma Protocol.Holds.reach [DecidableEq T] {Q : T → Except ε α → σ → Prop} (h : P.Holds Q cfg) (hr : M.Reach cfg cfg')
    : P.Holds Q cfg' := by
  induction hr with
  | refl => exact h
  | tail _ hs ih => exact ih.step hs

/-- The invariant of a task that is cut off and started again. -/
lemma Protocol.restarts {M : Machine Unit C R ε σ} {P : Protocol M} {Q : Except ε α → σ → Prop}
    (hp : P.Safe () Q p fun _ => True) (hs : P.inv s) (h : M.Restarts p s s') : P.inv s' := by
  induction h with
  | refl => exact hs
  | tail _ hru ih =>
    obtain ⟨tasks, hr⟩ := hru
    have hst : P.Holds (fun _ => Q) ⟨_, fun _ => p⟩ := ⟨ih, fun _ => ⟨fun _ => True, .const _, trivial, hp⟩⟩
    exact (hst.reach hr).1

lemma Protocol.Holds.pre (h : P.Holds Q cfg) (ht : cfg.tasks t = .await c k)
    (hx : M.exec t c cfg.shared r s') : P.pre t c cfg.shared := by
  obtain ⟨A, -, ha, hp⟩ := h.2 t
  rw [ht] at hp
  exact (hp _ r s' h.1 ha hx).1

lemma Protocol.Holds.raise (h : P.Holds Q cfg) {e : ε} (ht : cfg.tasks t = .raise e) : Q t (.error e) cfg.shared := by
  obtain ⟨A, -, ha, hp⟩ := h.2 t
  rw [ht] at hp
  exact hp _ h.1 ha

lemma Protocol.Holds.ret (h : P.Holds Q cfg) (ht : cfg.tasks t = .ret a) : Q t (.ok a) cfg.shared := by
  obtain ⟨A, -, ha, hp⟩ := h.2 t
  rw [ht] at hp
  exact hp _ h.1 ha

end AgentWallet.Lib
