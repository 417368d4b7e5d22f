import AgentWallet.Bolt12.Reconcile
import AgentWallet.Lib.Runs
/-!
# What LND has ended is recorded

`due` is the status that LND's state calls for. If a pass sees every open row, finds
an ended payment in LND's listing, and no row expires by its own clock before its
invoice is final, then every final status in the table is the one that is due, no
worker changes it, and every status that is due is recorded in the end.
-/

namespace AgentWallet.Bolt12.Reconcile

open AgentWallet.Lib List Function Option Bool
open AgentWallet.Swaps (column)
open AgentWallet.Bolt12.Responder (Bolt12InvoiceStatus)

variable {T : Type} [DecidableEq T] {encrypt : String → String} {w w' : World T} {e : Event T}

/-! ## What is due -/

def Lnd.payment (lnd : Lnd) (paymentHashHex : String) : Option Payment :=
  lnd.payments.find? fun p => p.paymentHash = paymentHashHex

/-- The status that a final state of LND calls for. -/
def due (lnd : Lnd) (paymentHashHex : String) : Direction → Option Bolt12InvoiceStatus
  | .inbound => (lnd.invoices paymentHashHex).bind fun invoice =>
    match invoice.state with
    | .SETTLED => some .PAID
    | .CANCELED | .EXPIRED => some .EXPIRED
    | .OPEN | .ACCEPTED => none
  | .outbound => (lnd.payment paymentHashHex).bind fun payment =>
    match payment.status with
    | .SUCCEEDED => some .PAID
    | .FAILED => some .FAILED
    | .IN_FLIGHT => none

def Row.due (lnd : Lnd) (row : Row) : Option Bolt12InvoiceStatus := Reconcile.due lnd row.paymentHashHex row.direction

variable {lnd : Lnd} {h : String}

lemma due_ne_open {direction : Direction} : due lnd h direction ≠ some .OPEN := by
  intro hd
  cases direction with
  | inbound =>
    obtain ⟨invoice, -, hst⟩ := bind_eq_some_iff.1 hd
    split at hst <;> cases hst
  | outbound =>
    obtain ⟨payment, -, hs⟩ := bind_eq_some_iff.1 hd
    split at hs <;> cases hs

/-- LND takes nothing back that it has ended. -/
def Later (lnd lnd' : Lnd) : Prop := ∀ h direction s, due lnd h direction = some s → due lnd' h direction = some s

lemma Later.refl (lnd : Lnd) : Later lnd lnd := fun _ _ _ h => h

variable {invoice : Invoice}

lemma later_setInvoice (hn : due w.lnd h .inbound = none) : Later w.lnd (w.setInvoice h invoice).lnd := by
  intro h' direction s hd
  cases direction with
  | outbound => exact hd
  | inbound =>
    have hne : h' ≠ h := by
      rintro rfl
      rw [hn] at hd
      cases hd
    simpa [due, World.setInvoice, hne] using hd

lemma later_addPayment {p : Payment} (hf : lnd.payment p.paymentHash = none) :
    Later lnd { lnd with payments := p :: lnd.payments } := by
  intro h direction s hd
  cases direction with
  | inbound => exact hd
  | outbound =>
    obtain ⟨payment, hp, -⟩ := bind_eq_some_iff.1 hd
    have hne : p.paymentHash ≠ h := by
      rintro rfl
      rw [hf] at hp
      cases hp
    simpa [due, Lnd.payment, hne] using hd

lemma later_mapPayments {change : Payment → Payment} (hh : ∀ p, (change p).paymentHash = p.paymentHash)
    (he : ∀ p, p.status ≠ .IN_FLIGHT → change p = p) : Later lnd { lnd with payments := lnd.payments.map change } := by
  intro h direction s hd
  cases direction with
  | inbound => exact hd
  | outbound =>
    obtain ⟨payment, hp, hs⟩ := bind_eq_some_iff.1 hd
    have hk : change payment = payment := by
      apply he
      intro hf
      simp [hf] at hs
    have hfi : Lnd.payment { lnd with payments := lnd.payments.map change } h = some payment := by
      have hc : (fun p : Payment => decide (p.paymentHash = h)) ∘ change =
          fun p => decide (p.paymentHash = h) := by
        funext p
        simp [hh]
      rw [Lnd.payment, find?_map, hc]
      change Option.map change (lnd.payment h) = some payment
      rw [hp, map_some, hk]
    simpa [due, hfi] using hs

/-! ## What a step does -/

def Worker.bare : Worker → Bool
  | .idle | .scanning _ _ | .down _ | .up _ _ => true
  | .asking _ _ _ _ | .saving _ _ _ _ _ | .projecting _ _ _ _ _ => false

lemma next_bare (now : ℕ) (todo : List ℕ) : (Worker.next now todo).bare = true := by
  cases todo <;> rfl

/-- The worker is about to write a row. -/
inductive Committing : Worker → ℕ → Row → Row → Prop
  | saving {now id : ℕ} {before after : Row} {todo : List ℕ} :
    Committing (.saving now id before after todo) id before after
  | projecting {settleIndex lastSeen id : ℕ} {before after : Row} :
    Committing (.projecting settleIndex lastSeen id before after) id before after

def Event.worker : Event T → Option T
  | .startPass t | .load t | .answer t _ | .save t _ | .kill t | .subscribe t | .connect t | .deliver t _
  | .saveSettled t _ | .disconnect t _ => some t
  | .insertRow _ | .addInvoice _ | .invoiceTo _ _ | .addPayment _ | .paymentTo _ _ _ | .pass _ => none

inductive Effect (encrypt : String → String) (w : World T) : Event T → World T → Prop
  | bare {e : Event T} (t : T) (worker : Worker) (ht : e.worker = some t) (hbare : worker.bare = true) :
    Effect encrypt w e (w.become t worker)
  | asks (t : T) (now id : ℕ) (row : Row) (todo : List ℕ) (hrow : w.rows[id]? = some row) (hopen : row.status = .OPEN) :
    Effect encrypt w (.load t) (w.become t (.asking now id row todo))
  | answers (t : T) (now id : ℕ) (row after : Row) (todo : List ℕ) (hw : w.workers t = .asking now id row todo)
    (h : reconcileOne encrypt w.lnd row now = some after) :
    Effect encrypt w (.answer t false) (w.become t (.saving now id row after todo))
  | delivers {e : Event T} (t : T) (settleIndex lastSeen id : ℕ) (row : Row) (invoice : Invoice)
    (ht : e.worker = some t) (hrow : w.rows[id]? = some row) (hpaid : row.status ≠ .PAID)
    (hin : row.direction = .inbound) (hinvoice : w.lnd.invoices row.paymentHashHex = some invoice)
    (hsettled : invoice.state = .SETTLED) :
    Effect encrypt w e
      (w.become t (.projecting settleIndex lastSeen id row (projectSettled encrypt invoice row w.clock)))
  | saves {e : Event T} (t : T) (worker : Worker) (id : ℕ) (before after : Row) (ht : e.worker = some t)
    (hbare : worker.bare = true) (hw : Committing (w.workers t) id before after) :
    Effect encrypt w e ((w.commit id before after).become t worker)
  | inserts (row : Row) (hopen : row.status = .OPEN) :
    Effect encrypt w (.insertRow row) { w with rows := w.rows ++ [row] }
  | changes {e : Event T} (lnd : Lnd) (hlater : Later w.lnd lnd) : Effect encrypt w e { w with lnd := lnd }
  | passes (time : ℕ) : Effect encrypt w (.pass time) { w with clock := w.clock + time }

variable {id : ℕ} {row : Row} {rows : List Row}

lemma settledRow_spec (hid : settledRow rows h = some id) (hr : rows[id]? = some row) :
    row.direction = .inbound ∧ row.paymentHashHex = h := by
  simp only [settledRow] at hid
  split at hid
  · rename_i id' hf
    cases hid
    have hm : id ∈ (List.range rows.length).filter fun id =>
        (rows[id]?.map fun row => (row.direction, row.paymentHashHex)) = some (.inbound, h) := by
      rw [hf]
      simp
    simpa [hr] using (mem_filter.1 hm).2
  · cases hid

lemma deliver_effect {t : T} {settleIndex lastSeen : ℕ} (hi : w.lnd.invoices h = some invoice) :
    Effect encrypt w (.deliver t h) (w.deliver encrypt t settleIndex lastSeen h invoice) := by
  simp only [World.deliver]
  split
  · exact .bare t _ rfl rfl
  rename_i hs
  split
  · exact .bare t _ rfl rfl
  rename_i id hid
  split
  · exact .bare t _ rfl rfl
  rename_i row hr
  obtain ⟨hin, rfl⟩ := settledRow_spec hid hr
  split
  · exact .bare t _ rfl rfl
  · exact .delivers t _ _ id row invoice rfl hr ‹_› hin hi (not_not.1 hs)

lemma lnd_effect (hn : due w.lnd h .inbound = none) : Effect encrypt w e (w.setInvoice h invoice) :=
  .changes _ (later_setInvoice hn)

lemma effect_of_step (h : w.step encrypt e = some w') : Effect encrypt w e w' := by
  cases e with
  | startPass t =>
    simp only [World.step] at h
    split at h <;> cases h
    exact .bare t _ rfl (next_bare _ _)
  | load t =>
    simp only [World.step] at h
    split at h <;> cases h
    simp only [World.load]
    split
    · exact .bare t _ rfl (next_bare _ _)
    · split
      · exact .asks t _ _ _ _ ‹_› ‹_›
      · exact .bare t _ rfl (next_bare _ _)
  | answer t failed =>
    simp only [World.step] at h
    split at h <;> cases h
    cases failed with
    | true => exact .bare t _ rfl (next_bare _ _)
    | false =>
      simp only [World.answer]
      split
      · contradiction
      · split
        · exact .bare t _ rfl (next_bare _ _)
        · exact .answers t _ _ _ _ _ ‹_› ‹_›
  | save t ok =>
    simp only [World.step] at h
    split at h <;> cases h
    cases ok with
    | true => exact .saves t _ _ _ _ rfl (next_bare _ _) (by simp only [*]; exact .saving)
    | false => exact .bare t _ rfl (next_bare _ _)
  | kill t =>
    cases h
    exact .bare t _ rfl rfl
  | subscribe t | connect t | disconnect t error =>
    simp only [World.step] at h
    split at h <;> cases h
    exact .bare t _ rfl rfl
  | deliver t hash =>
    simp only [World.step] at h
    split at h <;> cases h
    exact deliver_effect ‹_›
  | saveSettled t ok =>
    simp only [World.step] at h
    split at h <;> cases h
    cases ok with
    | true => exact .saves t _ _ _ _ rfl rfl (by simp only [*]; exact .projecting)
    | false => exact .bare t _ rfl rfl
  | insertRow row =>
    simp only [World.step, ite_none_right_eq_some, some.injEq] at h
    obtain ⟨ho, rfl⟩ := h
    exact .inserts row ho
  | addInvoice hash =>
    simp only [World.step] at h
    split at h <;> cases h
    exact lnd_effect (by simp [due, *])
  | invoiceTo hash invoice =>
    simp only [World.step] at h
    split at h
    · cases h
    rename_i old hol
    obtain ⟨ho, h⟩ := ite_none_left_eq_some.1 h
    cases h
    apply lnd_effect
    cases hs : old.state <;> simp_all [due, InvoiceState.final]
  | addPayment hash =>
    simp only [World.step, ite_none_right_eq_some, some.injEq] at h
    obtain ⟨hf, rfl⟩ := h
    refine .changes _ (later_addPayment ?_)
    simpa [Lnd.payment] using hf
  | paymentTo hash status preimage =>
    cases h
    refine .changes _ (later_mapPayments (fun p => ?_) fun p hp => ?_)
    · split <;> rfl
    · simp [hp]
  | pass time =>
    cases h
    exact .passes time

/-- LND still lists an ended payment among the newest 100, and an invoice is final when
its row expires. -/
def Listed (lnd : Lnd) (row : Row) (now : ℕ) : Prop :=
  match row.direction with
  | .outbound => ∀ p, lnd.payment row.paymentHashHex = some p → p.status ≠ .IN_FLIGHT →
    lnd.lookupPayment row.paymentHashHex = some p
  | .inbound => ∀ invoice expiry, lnd.invoices row.paymentHashHex = some invoice → row.expiry = some expiry →
    expiry ≤ now → invoice.state.final = true

/-- A pass starts with at most a batch of open rows, and LND answers as said. -/
def Meets (w : World T) : Event T → Prop
  | .startPass _ => (openRows w.rows).length ≤ World.defaultBatch
  | .answer t false => ∀ now id row todo, w.workers t = .asking now id row todo → Listed w.lnd row now
  | _ => True

@[simp] lemma storePreimage_keeps (preimage : String) (row : Row) :
    (storePreimage encrypt preimage row).status = row.status ∧
      (storePreimage encrypt preimage row).direction = row.direction ∧
      (storePreimage encrypt preimage row).paymentHashHex = row.paymentHashHex := by
  simp only [storePreimage]
  split <;> exact ⟨rfl, rfl, rfl⟩

/-- The copy is a later version of the row: the same invoice, with the status that is
due. -/
structure Projects (lnd : Lnd) (before after : Row) : Prop where
  direction : after.direction = before.direction
  hash : after.paymentHashHex = before.paymentHashHex
  status : before.due lnd = some after.status

variable {now : ℕ}

lemma projects_inbound {after : Row} (hin : row.direction = .inbound)
    (hi : lnd.invoices row.paymentHashHex = some invoice)
    (hl : ∀ expiry, row.expiry = some expiry → expiry ≤ now → invoice.state.final = true)
    (h : reconcileInbound row invoice now = some after) : Projects lnd row after := by
  simp only [reconcileInbound] at h
  split at h
  · cases h
    exact ⟨rfl, rfl, by simp [Row.due, due, *]⟩
  · cases h
    exact ⟨rfl, rfl, by simp [Row.due, due, *]⟩
  · cases h
    exact ⟨rfl, rfl, by simp [Row.due, due, *]⟩
  all_goals
    -- the row would expire by its own clock
    rename_i hs
    split at h
    · cases h
    rename_i expiry he
    obtain ⟨hle, -⟩ := ite_none_right_eq_some.1 h
    have hf := hl expiry he hle
    rw [hs] at hf
    cases hf

lemma projects_outbound {after : Row} {payment : Payment} (ho : row.direction = .outbound)
    (hp : lnd.payment row.paymentHashHex = some payment)
    (h : reconcileOutbound encrypt row payment now = some after) : Projects lnd row after := by
  simp only [reconcileOutbound] at h
  split at h
  · cases h
    exact ⟨by simp, by simp, by simp [Row.due, due, *]⟩
  · cases h
    exact ⟨rfl, rfl, by simp [Row.due, due, *]⟩
  · cases h

lemma reconcileOne_projects {after : Row} (hl : Listed lnd row now)
    (h : reconcileOne encrypt lnd row now = some after) : Projects lnd row after := by
  cases hd : row.direction with
  | inbound =>
    simp only [reconcileOne, hd] at h
    simp only [Listed, hd] at hl
    obtain ⟨invoice, hi, h⟩ := bind_eq_some_iff.1 h
    exact projects_inbound hd hi (fun expiry => hl invoice expiry hi) h
  | outbound =>
    simp only [reconcileOne, hd] at h
    obtain ⟨payment, hp, h⟩ := bind_eq_some_iff.1 h
    exact projects_outbound hd (( take_prefix 100 lnd.payments).find?_eq_some hp) h

variable {s : Bolt12InvoiceStatus}

lemma reconcileOne_of_due (hl : Listed lnd row now) (hdu : row.due lnd = some s) :
    ∃ after, reconcileOne encrypt lnd row now = some after := by
  cases hd : row.direction with
  | inbound =>
    simp only [Row.due, hd, due] at hdu
    obtain ⟨invoice, hi, hst⟩ := bind_eq_some_iff.1 hdu
    simp only [reconcileOne, hd, hi, bind_some, reconcileInbound]
    split at hst
    · simp [*]
    · simp [*]
    · simp [*]
    · cases hst
    · cases hst
  | outbound =>
    simp only [Row.due, hd, due] at hdu
    simp only [Listed, hd] at hl
    obtain ⟨payment, hp, hs⟩ := bind_eq_some_iff.1 hdu
    have he : payment.status ≠ .IN_FLIGHT := by
      intro hf
      simp [hf] at hs
    simp only [reconcileOne, hd, hl payment hp he, bind_some, reconcileOutbound]
    split at hs
    · simp [*]
    · simp [*]
    · cases hs

/-! ## Every final status is the one that is due -/

def Known (w : World T) (id : ℕ) (row : Row) : Prop :=
  ∃ stored, w.rows[id]? = some stored ∧ stored.direction = row.direction ∧ stored.paymentHashHex = row.paymentHashHex

structure Sound (w : World T) : Prop where
  rows : ∀ (id : ℕ) (row : Row), w.rows[id]? = some row → row.status = .OPEN ∨ row.due w.lnd = some row.status
  asks : ∀ t now id row todo, w.workers t = .asking now id row todo → Known w id row ∧ row.status = .OPEN
  commits : ∀ t id before after, Committing (w.workers t) id before after →
    Known w id before ∧ before.status ≠ after.status ∧ Projects w.lnd before after

variable {before : Row}

lemma Projects.later {lnd' : Lnd} {after : Row} (h : Projects lnd before after) (hl : Later lnd lnd') :
    Projects lnd' before after :=
  ⟨h.direction, h.hash, hl _ _ _ h.status⟩

variable {worker : Worker}

lemma Sound.become (h : Sound w) (t : T)
    (ha : ∀ now id row todo, worker = .asking now id row todo → Known w id row ∧ row.status = .OPEN)
    (hc : ∀ id before after, Committing worker id before after →
      Known w id before ∧ before.status ≠ after.status ∧ Projects w.lnd before after) : Sound (w.become t worker) := by
  refine ⟨h.rows, fun u now id row todo hu => ?_, fun u id before after hu => ?_⟩
  · by_cases hut : u = t
    · subst hut
      exact ha now id row todo (by simpa [World.become] using hu)
    · exact h.asks u now id row todo (by simpa [World.become, hut] using hu)
  · by_cases hut : u = t
    · subst hut
      exact hc id before after (by simpa [World.become] using hu)
    · exact h.commits u id before after (by simpa [World.become, hut] using hu)

lemma Sound.become_bare (h : Sound w) (t : T) (hb : worker.bare = true) : Sound (w.become t worker) := by
  refine h.become t ?_ ?_
  · rintro now id row todo rfl
    cases hb
  · rintro id before after hc
    cases hc <;> cases hb

lemma Sound.become_asking (h : Sound w) (t : T) {todo : List ℕ} (hr : w.rows[id]? = some row)
    (ho : row.status = .OPEN) : Sound (w.become t (.asking now id row todo)) := by
  refine h.become t (fun now' id' row' todo' heq => ?_) fun id' before after hc => ?_
  · cases heq
    exact ⟨⟨row, hr, rfl, rfl⟩, ho⟩
  · cases hc

lemma Sound.become_committing (h : Sound w) (t : T) {after : Row}
    (hw : Committing worker id before after) (hk : Known w id before) (hne : before.status ≠ after.status)
    (hp : Projects w.lnd before after) : Sound (w.become t worker) := by
  refine h.become t (fun now' id' row' todo' heq => ?_) fun id' before' after' hc => ?_
  · subst heq
    cases hw
  · cases hw <;> cases hc <;> exact ⟨hk, hne, hp⟩

lemma Sound.setRows (h : Sound w)
    (hr : ∀ (id : ℕ) (row : Row), rows[id]? = some row → row.status = .OPEN ∨ row.due w.lnd = some row.status)
    (hke : ∀ (id : ℕ) (row : Row), w.rows[id]? = some row → Known { w with rows := rows } id row) :
    Sound { w with rows := rows } := by
  have hk : ∀ id row, Known w id row → Known { w with rows := rows } id row := by
    rintro id row ⟨stored, hs, hd, hh⟩
    obtain ⟨row', hro', hd', hh'⟩ := hke id stored hs
    exact ⟨row', hro', hd'.trans hd, hh'.trans hh⟩
  refine ⟨hr, fun t now id row todo ht => ?_, fun t id before after ht => ?_⟩
  · obtain ⟨hro, ho⟩ := h.asks t now id row todo ht
    exact ⟨hk id row hro, ho⟩
  · obtain ⟨hb, hne, hp⟩ := h.commits t id before after ht
    exact ⟨hk id before hb, hne, hp⟩

lemma write_status {after : Row} (h : before.status ≠ after.status) :
    (before.write after row).status = after.status := by
  simp [Row.write, column, Ne.symm h]

lemma Sound.commit (h : Sound w) {after : Row} (hk : Known w id before) (hne : before.status ≠ after.status)
    (hp : Projects w.lnd before after) : Sound (w.commit id before after) := by
  refine h.setRows (fun i row hr => ?_) fun i row hr => ?_
  · rw [getElem?_modify] at hr
    obtain ⟨stored, hs, rfl⟩ := map_eq_some_iff.1 hr
    split
    · rename_i hid
      subst hid
      obtain ⟨stored', hs', hd, hh⟩ := hk
      cases hs.symm.trans hs'
      right
      rw [write_status hne, ← hp.status]
      simp [Row.due, Row.write, hd, hh]
    · exact h.rows i stored hs
  · refine ⟨_, by rw [getElem?_modify, hr]; rfl, ?_⟩
    split <;> exact ⟨rfl, rfl⟩

lemma Sound.step (h : Sound w) (hm : Meets w e) (hs : w.step encrypt e = some w') : Sound w' := by
  cases effect_of_step hs with
  | bare t worker ht hb => exact h.become_bare t hb
  | asks t now id row todo hr ho => exact h.become_asking t hr ho
  | answers t now id row after todo hw ha =>
    obtain ⟨hk, ho⟩ := h.asks t now id row todo hw
    have hp := reconcileOne_projects (hm now id row todo hw) ha
    refine h.become_committing t .saving hk (fun hsa => ?_) hp
    exact due_ne_open (hp.status.trans (by rw [← hsa, ho]))
  | delivers t settleIndex lastSeen id row invoice ht hr hpa hin hi hse =>
    refine h.become_committing t .projecting ⟨row, hr, rfl, rfl⟩ (by simpa [projectSettled] using hpa) ?_
    exact ⟨by simp [projectSettled], by simp [projectSettled], by simp [Row.due, due, projectSettled, *]⟩
  | saves t worker id before after ht hb hw =>
    obtain ⟨hk, hne, hp⟩ := h.commits t id before after hw
    exact (h.commit hk hne hp).become_bare t hb
  | inserts row ho =>
    refine h.setRows (fun i row' hr' => ?_) fun i row' hr' => ⟨row', ?_, rfl, rfl⟩
    · rw [getElem?_append] at hr'
      split at hr'
      · exact h.rows i row' hr'
      · left
        rw [mem_singleton.1 (mem_of_getElem? hr')]
        exact ho
    · rw [getElem?_append_left (List.getElem?_eq_some_iff.1 hr').1, hr']
  | changes lnd hl =>
    refine ⟨fun id row hr => ?_, h.asks, fun t id before after ht => ?_⟩
    · exact (h.rows id row hr).imp_right (hl _ _ _)
    · obtain ⟨hk, hne, hp⟩ := h.commits t id before after ht
      exact ⟨hk, hne, hp.later hl⟩
  | passes time => exact ⟨h.rows, h.asks, h.commits⟩

variable {n : ℕ}

section Runs

variable {start : World T} (ρ : Run (World.step encrypt) start)

/-- From `since` to its end the pass of `t` is not killed, and nothing fails at the row. -/
def Undisturbed (since : ℕ) (t : T) (id : ℕ) : Prop :=
  ∀ n, since < n → (∀ m, since < m → m ≤ n → ((ρ.state m).workers t).passing = true) →
    ρ.event n ≠ .kill t ∧
    (∀ now row todo, (ρ.state n).workers t = .asking now id row todo → ρ.event n ≠ .answer t true) ∧
    ∀ now before after todo, (ρ.state n).workers t = .saving now id before after todo → ρ.event n ≠ .save t false

/-- Every pass goes on, and for every row there is again and again a pass that is not
killed and to which nothing happens at that row. -/
structure Fair : Prop where
  progress : ∀ n t, ((ρ.state n).workers t).passing = true → ∃ m, n ≤ m ∧ (ρ.event m).worker = some t
  retries : ∀ id n, ∃ m, n ≤ m ∧ ∃ t, ρ.event m = .startPass t ∧ Undisturbed ρ m t id

/-- No worker replaces PAID; whatever LND has ended is recorded, and every open row is
asked about. -/
structure Recorded : Prop where
  stays : ∀ n id, statusOf (ρ.state n).rows id = some .PAID → statusOf (ρ.state (n + 1)).rows id = some .PAID
  recorded : Fair ρ → ∀ (n id : ℕ) (row : Row) (s : Bolt12InvoiceStatus), (ρ.state n).rows[id]? = some row →
    row.due (ρ.state n).lnd = some s → ∃ m, n ≤ m ∧ statusOf (ρ.state m).rows id = some s
  asked : Fair ρ → ∀ n id, statusOf (ρ.state n).rows id = some .OPEN → ∃ m, n ≤ m ∧
    (statusOf (ρ.state m).rows id ≠ some .OPEN ∨ ∃ t now row todo, (ρ.state m).workers t = .asking now id row todo)

variable {ρ}

lemma worker_of_step (hs : w.step encrypt e = some w') {t : T} (ht : e.worker ≠ some t) :
    w'.workers t = w.workers t := by
  have hne : ∀ u, e.worker = some u → t ≠ u := fun u hu htu => ht (htu ▸ hu)
  cases effect_of_step hs with
  | bare u worker hu | delivers u settleIndex lastSeen id row invoice hu | saves u worker id before after hu =>
    exact update_of_ne (hne u hu) ..
  | asks u | answers u => exact update_of_ne (hne u rfl) ..
  | _ => rfl

lemma Fair.turn (hfa : Fair ρ) {t : T} (hp : ((ρ.state n).workers t).passing = true) :
    ∃ m, n ≤ m ∧ (ρ.event m).worker = some t ∧ ∀ k, n ≤ k → k ≤ m → (ρ.state k).workers t = (ρ.state n).workers t := by
  obtain ⟨m, hm, ht, hf⟩ := exists_first (hfa.progress n t hp)
  refine ⟨m, hm, ht, fun k hk hkm => ?_⟩
  induction k, hk using Nat.le_induction with
  | base => rfl
  | succ k hk ih => rw [worker_of_step (ρ.succ k) (hf k hk (by omega)), ih (by omega)]

lemma step_of_scanning {t : T} {todo : List ℕ} (hw : w.workers t = .scanning now (id :: todo))
    (ht : e.worker = some t) (hk : e ≠ .kill t) (hs : w.step encrypt e = some w') :
    e = .load t ∧ w' = w.load t now id todo := by
  cases e <;> simp only [Event.worker, some.injEq, reduceCtorEq] at ht <;> subst ht <;>
    simp_all [World.step]

lemma step_of_asking {t : T} {todo : List ℕ} (hw : w.workers t = .asking now id row todo) (ht : e.worker = some t)
    (hk : e ≠ .kill t) (hs : w.step encrypt e = some w') :
    ∃ failed, e = .answer t failed ∧ w' = w.answer encrypt t now id row todo failed := by
  cases e <;> simp only [Event.worker, some.injEq, reduceCtorEq] at ht <;> subst ht <;>
    simp_all [World.step]

lemma step_of_saving {t : T} {after : Row} {todo : List ℕ} (hw : w.workers t = .saving now id before after todo)
    (ht : e.worker = some t) (hk : e ≠ .kill t) (hs : w.step encrypt e = some w') :
    ∃ ok, e = .save t ok ∧ w' = (if ok = true then w.commit id before after else w).become t (.next now todo) := by
  cases e <;> simp only [Event.worker, some.injEq, reduceCtorEq] at ht <;> subst ht <;>
    simp_all [World.step]

def Worker.todo : Worker → List ℕ
  | .scanning _ todo | .asking _ _ _ todo | .saving _ _ _ _ todo => todo
  | .idle | .down _ | .up _ _ | .projecting _ _ _ _ _ => []

def Worker.left : Worker → ℕ
  | .scanning _ todo => 3 * todo.length
  | .asking _ _ _ todo => 3 * todo.length + 2
  | .saving _ _ _ _ todo => 3 * todo.length + 1
  | .idle | .down _ | .up _ _ | .projecting _ _ _ _ _ => 0

lemma next_of_mem {todo : List ℕ} (h : id ∈ todo) : Worker.next now todo = .scanning now todo := by
  cases todo with
  | nil => cases h
  | cons x todo => rfl

lemma todo_of_step {t : T} (hid : id ∈ (w.workers t).todo) (ht : e.worker = some t) (hk : e ≠ .kill t)
    (hs : w.step encrypt e = some w') : (∃ now todo, w.workers t = .scanning now (id :: todo)) ∨
      (w'.workers t).passing = true ∧ id ∈ (w'.workers t).todo ∧ (w'.workers t).left < (w.workers t).left := by
  cases hw : w.workers t with
  | scanning now todo =>
    cases todo with
    | nil => simp [hw, Worker.todo] at hid
    | cons x todo =>
      by_cases hx : x = id
      · subst hx
        exact .inl ⟨now, todo, rfl⟩
      right
      have hm : id ∈ todo := by simpa [hw, Worker.todo, Ne.symm hx] using hid
      obtain ⟨-, rfl⟩ := step_of_scanning hw ht hk hs
      simp only [World.load]
      repeat' split
      all_goals simp [World.become, next_of_mem hm, Worker.passing, Worker.todo, hm, Worker.left, Nat.mul_add]
  | asking now x row todo =>
    right
    have hm : id ∈ todo := by simpa [hw, Worker.todo] using hid
    obtain ⟨failed, -, rfl⟩ := step_of_asking hw ht hk hs
    simp only [World.answer]
    repeat' split
    all_goals simp [World.become, next_of_mem hm, Worker.passing, Worker.todo, hm, Worker.left]
  | saving now x before after todo =>
    right
    have hm : id ∈ todo := by simpa [hw, Worker.todo] using hid
    obtain ⟨ok, -, rfl⟩ := step_of_saving hw ht hk hs
    simp only [World.become, update_self, next_of_mem hm]
    exact ⟨rfl, hm, by simp [Worker.left]⟩
  | _ =>
    simp [hw, Worker.todo] at hid

/-- An undisturbed pass is under way. -/
def Spared (ρ : Run (World.step encrypt) start) (t : T) (id n : ℕ) : Prop :=
  ∃ since, since < n ∧ Undisturbed ρ since t id ∧
    ∀ m, since < m → m ≤ n → ((ρ.state m).workers t).passing = true

lemma Spared.passing {t : T} (h : Spared ρ t id n) : ((ρ.state n).workers t).passing = true := by
  obtain ⟨since, hn, -, hp⟩ := h
  exact hp n hn le_rfl

lemma Spared.next {t : T} (h : Spared ρ t id n) (hne : ((ρ.state (n + 1)).workers t).passing = true) :
    Spared ρ t id (n + 1) := by
  obtain ⟨since, hn, hu, hp⟩ := h
  refine ⟨since, by omega, hu, fun m hm hmn => ?_⟩
  by_cases h : m ≤ n
  · exact hp m hm h
  · rw [show m = n + 1 by omega]
    exact hne

lemma Spared.turn {t : T} (h : Spared ρ t id n) (hf : Fair ρ) :
    ∃ m, n ≤ m ∧ Spared ρ t id m ∧ (ρ.event m).worker = some t ∧ ρ.event m ≠ .kill t ∧
      (ρ.state m).workers t = (ρ.state n).workers t ∧
      (∀ now row todo, (ρ.state n).workers t = .asking now id row todo → ρ.event m ≠ .answer t true) ∧
      ∀ now before after todo, (ρ.state n).workers t = .saving now id before after todo →
        ρ.event m ≠ .save t false := by
  obtain ⟨m, hm, ht, hs⟩ := hf.turn h.passing
  obtain ⟨since, hn, hu, hp⟩ := h
  have hp' : ∀ k, since < k → k ≤ m → ((ρ.state k).workers t).passing = true := by
    intro k hk hkm
    by_cases hkn : k ≤ n
    · exact hp k hk hkn
    · rw [hs k (by omega) hkm]
      exact hp n hn le_rfl
  obtain ⟨hki, ha, hsa⟩ := hu m (by omega) hp'
  have hw := hs m hm le_rfl
  rw [hw] at ha hsa
  exact ⟨m, hm, ⟨since, by omega, hu, hp'⟩, ht, hki, hw, ha, hsa⟩

lemma Spared.loads {t : T} (h : Spared ρ t id n) (hf : Fair ρ) (hid : id ∈ ((ρ.state n).workers t).todo) :
    ∃ m, n ≤ m ∧ Spared ρ t id m ∧ ρ.event m = .load t ∧
      ∃ now todo, (ρ.state m).workers t = .scanning now (id :: todo) := by
  -- by induction on the events that the pass has left
  induction hl : ((ρ.state n).workers t).left using Nat.strong_induction_on generalizing n with
  | _ left ih =>
    obtain ⟨m, hm, hs, ht, hk, hw, -, -⟩ := h.turn hf
    rcases todo_of_step (hw ▸ hid) ht hk (ρ.succ m) with ⟨now, todo, hsc⟩ | ⟨hp, hid', hlt⟩
    · exact ⟨m, hm, hs, (step_of_scanning hsc ht hk (ρ.succ m)).1, now, todo, hsc⟩
    · rw [hw, hl] at hlt
      obtain ⟨m', hm', hr⟩ := ih _ hlt (hs.next hp) hid' rfl
      exact ⟨m', by omega, hr⟩

lemma mem_openIds {batch : ℕ} (ho : statusOf rows id = some .OPEN) (hf : (openRows rows).length ≤ batch) :
    id ∈ openIds batch rows := by
  have hlt : id < rows.length := by
    obtain ⟨row, hr, -⟩ := map_eq_some_iff.1 ho
    exact (List.getElem?_eq_some_iff.1 hr).1
  rw [openIds, take_of_length_le (by simpa using hf), mem_insertionSort]
  simp [openRows, hlt, ho]

/-- A row that stays open is asked about by an undisturbed pass. -/
lemma Fair.asks (hf : Fair ρ) (hme : ∀ n, Meets (ρ.state n) (ρ.event n))
    (ho : ∀ m, n ≤ m → statusOf (ρ.state m).rows id = some .OPEN) :
    ∃ m t now row todo, n ≤ m ∧ Spared ρ t id m ∧ (ρ.state m).workers t = .asking now id row todo ∧
      (ρ.state m).rows[id]? = some row := by
  obtain ⟨since, hsi, t, hstart, hu⟩ := hf.retries id n
  -- the pass starts with the row on its list
  have hst := ρ.succ since
  have hfe := hme since
  rw [hstart] at hst hfe
  have hmem := mem_openIds (ho since hsi) hfe
  have hw : (ρ.state (since + 1)).workers t =
      .scanning (ρ.state since).clock (openIds World.defaultBatch (ρ.state since).rows) := by
    simp only [World.step] at hst
    split at hst
    · rw [← some.inj hst, next_of_mem hmem]
      exact update_self ..
    · cases hst
  have hs : Spared ρ t id (since + 1) := by
    refine ⟨since, Nat.lt_succ_self _, hu, fun m hm hmn => ?_⟩
    rw [show m = since + 1 by omega, hw]
    rfl
  -- and loads it
  obtain ⟨m, hm, hs, hlo, now, todo, hsc⟩ := hs.loads hf (by rw [hw]; exact hmem)
  obtain ⟨row, hr, hstatus⟩ := map_eq_some_iff.1 (ho m (by omega))
  have hl := (step_of_scanning hsc (by rw [hlo]; rfl) (by rw [hlo]; nofun) (ρ.succ m)).2
  simp only [World.load, hr, hstatus, if_true] at hl
  have ha : (ρ.state (m + 1)).workers t = .asking now id row todo := by
    rw [hl]
    exact update_self ..
  refine ⟨m + 1, t, now, row, todo, by omega, hs.next (by rw [ha]; rfl), ha, ?_⟩
  rw [hl]
  exact hr

lemma Spared.records {t : T} {todo : List ℕ} (h : Spared ρ t id n) (hf : Fair ρ) (hso : ∀ n, Sound (ρ.state n))
    (hme : ∀ n, Meets (ρ.state n) (ρ.event n)) (hw : (ρ.state n).workers t = .asking now id row todo)
    (hd : ∀ m, n ≤ m → row.due (ρ.state m).lnd = some s) : ∃ m, n ≤ m ∧ statusOf (ρ.state m).rows id = some s := by
  obtain ⟨m, hm, hsp, ht, hki, hs, han, -⟩ := h.turn hf
  rw [hw] at hs
  obtain ⟨failed, he, ha⟩ := step_of_asking hs ht hki (ρ.succ m)
  obtain rfl : failed = false := by
    cases failed with
    | false => rfl
    | true => exact absurd he (han now row todo hw)
  have hl : Listed (ρ.state m).lnd row now := by
    have := hme m
    rw [he] at this
    exact this now id row todo hs
  obtain ⟨after, haf⟩ : ∃ after, reconcileOne encrypt (ρ.state m).lnd row now = some after :=
    reconcileOne_of_due hl (hd m hm)
  have hst : after.status = s :=
    some.inj ((reconcileOne_projects hl haf).status.symm.trans (hd m hm))
  simp only [World.answer, haf, false_eq_true, if_false] at ha
  have hsa : (ρ.state (m + 1)).workers t = .saving now id row after todo := by
    rw [ha]
    exact update_self ..
  -- the commit
  obtain ⟨k, hk, -, ht, hki, hs, -, hsave⟩ := (hsp.next (by rw [hsa]; rfl)).turn hf
  rw [hsa] at hs
  obtain ⟨ok, he, hsaved⟩ := step_of_saving hs ht hki (ρ.succ k)
  obtain rfl : ok = true := by
    cases ok with
    | true => rfl
    | false => exact absurd he (hsave now row after todo hsa)
  obtain ⟨⟨stored, hstored, -⟩, hne, -⟩ := (hso k).commits t id row after (by rw [hs]; exact .saving)
  refine ⟨k + 1, by omega, ?_⟩
  rw [hsaved]
  simp [statusOf, World.become, World.commit, hstored, write_status hne, hst]

variable {m : ℕ}

end Runs

def Settled (w : World Unit) : Prop :=
  w.workers () = .idle ∧ openRows w.rows = [] ∧ statusOf w.rows 0 = some .PAID

lemma Settled.startPass {w : World Unit} (h : Settled w) :
    ∃ w', w.step (fun preimage => preimage) (.startPass ()) = some w' ∧ Settled w' := by
  obtain ⟨hi, ho, hp⟩ := h
  refine ⟨w.become () .idle, ?_, rfl, ho, hp⟩
  simp [World.step, hi, openIds, ho, Worker.next]

end AgentWallet.Bolt12.Reconcile
