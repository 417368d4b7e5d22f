import AgentWallet.Core.Ledger
/-!
# The payment limits hold over whole runs

Any number of requests check, reconcile and roll back against the two sets, one
Redis command at a time. What a task may do and what it may rely on is the
`protocol`; each function is then followed once (`…_safe`), and the limits hold
in every state of every run (`limits_hold`).
-/

namespace AgentWallet.RateLimit

open AgentWallet.Lib World Option Prod Machine

variable {r : Reservation} {oldMember newMember : String}

section

variable {T : Type} {settings : Settings} {w w' : World T} {t : T}

/-! ## What a task knows and may do -/

variable {u : T} {uuid : Hex} {key : Key} {res : Stored × Int × String} {own : List Item}

lemma World.Mine.ne {m : String} (h : w.Mine t m) (hu : u ≠ t) : ¬ w.Mine u m := by
  intro h'
  exact hu (some.inj (h'.symm.trans h))

structure Fresh (t : T) (w : World T) (uuid : Hex) : Prop where
  owner : w.owner uuid.text = some t
  items : ∀ i ∈ w.ledger, memberUuid i.member ≠ uuid.text
  entries : ∀ key, ∀ e ∈ (w.keys key).set.entries, memberUuid e.1 ≠ uuid.text

lemma Fresh.mine (h : Fresh t w uuid) {front : List Char} : w.Mine t (member front uuid) := by
  unfold World.Mine
  rw [memberUuid_member]
  exact h.owner

variable [DecidableEq T]

/-- Others leave alone what carries a uuid of the task. -/
structure Rely (t : T) (w w' : World T) : Prop where
  owner : ∀ x, w'.owner x = some t ↔ w.owner x = some t
  items : (w'.ledger.filter fun i => w.Mine t i.member) = w.ledger.filter fun i => w.Mine t i.member
  entries : ∀ key, ∀ e ∈ (w'.keys key).set.entries, w.Mine t e.1 → e ∈ (w.keys key).set.entries

def Pre (settings : Settings) (t : T) : Cmd → World T → Prop
  | .time, _ => True
  | .uuid4, _ => True
  | .evalSpend key windowStart now amount limit m ttl, w => ∃ apiKeyId uuid, key = .spend apiKeyId ∧
      m = spendMember amount uuid ∧ windowStart = now - settings.window key ∧ limit = settings.cap key ∧
      ttl = settings.window key + 60 ∧ Fresh t w uuid
  | .evalVelocity key windowStart now maxTxns m ttl, w => ∃ apiKeyId front uuid, key = .velocity apiKeyId ∧
      m = member front uuid ∧ windowStart = now - settings.window key ∧ maxTxns = settings.cap key ∧
      ttl = settings.window key + 60 ∧ Fresh t w uuid
  | .evalReconcile key oldMember newMember, w => ∃ apiKeyId amount uuid, key = .spend apiKeyId ∧ w.Mine t oldMember ∧
      newMember = spendMember amount uuid ∧ Fresh t w uuid
  | .zrem key m, w => w.Mine t m ∧ (∀ i ∈ w.ledger, i.key = key → w.Mine t i.member → i.member = m) ∧
      ∀ e ∈ (w.keys key).set.entries, w.Mine t e.1 → ∃ i ∈ w.ledger, i.key = key ∧ i.member = m ∧ e = (m, i.time)

lemma World.advance_rely (u : T) (w : World T) (now : ℚ) : Rely u w (w.advance now) :=
  ⟨fun _ => Iff.rfl, rfl, fun _ _ he _ => mem_advance he⟩

lemma World.put_rely {k : Stored} {ledger : List Item}
    (hl : (ledger.filter fun i => w.Mine u i.member) = w.ledger.filter fun i => w.Mine u i.member)
    (hk : ∀ e ∈ k.set.entries, w.Mine u e.1 → e ∈ (w.keys key).set.entries) :
    Rely u w { w.put key k with ledger := ledger } :=
  ⟨fun _ => Iff.rfl, hl, forall_put (P := fun key k => ∀ e ∈ k.set.entries, w.Mine u e.1 →
    e ∈ (w.keys key).set.entries) hk fun _ _ _ he _ => he⟩

lemma Rely.trans {w₁ w₂ : World T} (h : Rely u w w₁) (h' : Rely u w₁ w₂) : Rely u w w₂ := by
  have hmi : ∀ m, w₁.Mine u m ↔ w.Mine u m := fun m => h.owner (memberUuid m)
  refine ⟨fun x => (h'.owner x).trans (h.owner x), ?_, ?_⟩
  · have hi := h'.items
    simp only [hmi] at hi
    exact hi.trans h.items
  · intro key e he hm
    exact h.entries key e (h'.entries key e he ((hmi _).2 hm)) hm

/-- A check of a task, whichever of the two: the invariant holds after it, and
other tasks' members are left alone. -/
lemma checked_sound (h : Inv settings w) (item : Item) {limit : Int} {ttl : Nat}
    {front : List Char} (hme : item.member = member front uuid) (hf : Fresh t w uuid)
    (hor : w.clock ≤ item.time) (hl : limit = settings.cap item.key) (ht : ttl = settings.window item.key + 60)
    (hw : memberWeight item.key item.member = item.weight)
    (hre : Checked item.key ((w.advance item.time).keys item.key) (w.advance item.time).clock
      (item.time - settings.window item.key) item.time item.weight limit item.member ttl res) :
    Inv settings ((w.advance item.time).checked res item) ∧
      ∀ u, u ≠ t → Rely u w ((w.advance item.time).checked res item) := by
  have hmi : w.Mine t item.member := hme ▸ hf.mine
  refine ⟨?_, ?_⟩
  · refine (h.advance item.time).checked (max_eq_right hor).symm hl ht hw ?_ ?_ hre
    · exact fun hn => Option.some_ne_none t (hmi.symm.trans hn)
    · intro i hi
      rw [hme, memberUuid_member]
      exact hf.items i hi
  · intro u hu
    refine (w.advance_rely u item.time).trans ?_
    have ho : ¬ (w.advance item.time).Mine u item.member := hmi.ne hu
    refine put_rely ?_ ?_
    · by_cases hr : res.2.1 = 1
      · rw [if_pos hr, List.filter_append]
        have hn : [item].filter (fun i => (w.advance item.time).Mine u i.member) = [] := by
          simpa using ho
        rw [hn, List.append_nil]
      · rw [if_neg hr]
    · intro e he hm
      cases hre with
      | refused text => exact (Stored.mem_zremrangebyscore.1 he).1
      | admitted text room =>
        rcases Stored.mem_zadd.1 he with ⟨he, -⟩ | rfl
        · exact (Stored.mem_zremrangebyscore.1 he).1
        · exact absurd hm ho

lemma filter_reconciled {p : String → Bool} (ho : p oldMember = false) (hn : p newMember = false) (ledger : List Item) :
    ((ledger.map (World.reconciled key oldMember newMember)).filter fun i => p i.member) =
      ledger.filter fun i => p i.member := by
  induction ledger with
  | nil => rfl
  | cons i ledger ih =>
    rcases reconciled_cases key oldMember newMember i with ⟨-, him, hr⟩ | ⟨-, hr⟩
    · rw [List.map_cons, hr, List.filter_cons_of_neg (by simp [hn]), List.filter_cons_of_neg (by simp [him, ho]), ih]
    · rw [List.map_cons, hr, List.filter_cons, List.filter_cons, ih]

lemma exec_sound {c : Cmd} {r : Except String c.Reply} (h : Inv settings w) (hp : Pre settings t c w)
    (ho : Orderly t c w) (hx : exec t c w r w') : Inv settings w' ∧ ∀ u, u ≠ t → Rely u w w' := by
  cases c with
  | time =>
    obtain ⟨-, rfl⟩ := hx
    exact ⟨h, fun u _ => ⟨fun _ => Iff.rfl, rfl, fun _ _ he _ => he⟩⟩
  | uuid4 =>
    obtain ⟨uuid, hn, -, rfl⟩ := hx
    have hmo : ∀ {x}, w.owner x ≠ none → Function.update w.owner uuid.text (some t) x ≠ none := by
      intro x hx
      by_cases hxu : x = uuid.text
      · simp [hxu]
      · simpa [hxu] using hx
    refine ⟨⟨⟨h.lasting, fun key e he => ⟨(h.entered key e he).1, hmo (h.entered key e he).2⟩⟩, h.capped, h.past, h.kept,
      h.weighed, h.distinct, fun i hi => hmo (h.drawn i hi)⟩, ?_⟩
    intro u hu
    refine ⟨?_, rfl, fun _ _ he _ => he⟩
    intro x
    by_cases hxu : x = uuid.text
    · subst hxu
      simp [hn, Ne.symm hu]
    · simp [hxu]
  | evalSpend key windowStart now amount limit m ttl =>
    obtain ⟨apiKeyId, uuid, rfl, rfl, rfl, hl, ht, hf⟩ := hp
    obtain ⟨-, rfl⟩ := hx
    have hw : memberWeight (.spend apiKeyId) (spendMember amount uuid) = amount := by simp [memberWeight]
    exact checked_sound h ⟨.spend apiKeyId, spendMember amount uuid, now, amount⟩ rfl hf ho hl ht hw
      (spendCheckScript_checked apiKeyId _ _ _ _ _ _ _ _)
  | evalVelocity key windowStart now maxTxns m ttl =>
    obtain ⟨apiKeyId, front, uuid, rfl, rfl, rfl, hl, ht, hf⟩ := hp
    obtain ⟨-, rfl⟩ := hx
    exact checked_sound h ⟨.velocity apiKeyId, member front uuid, now, 1⟩ rfl hf ho hl ht rfl
      (velocityCheckScript_checked apiKeyId _ _ _ _ _ _ _)
  | evalReconcile key oldMember newMember =>
    obtain ⟨apiKeyId, amount, uuid, rfl, hol, rfl, hf⟩ := hp
    obtain ⟨-, rfl⟩ := hx
    have hne : w.Mine t (spendMember amount uuid) := hf.mine
    refine ⟨h.reconcile ho ?_ ?_, ?_⟩
    · exact fun hn => Option.some_ne_none t (hne.symm.trans hn)
    · intro i hi
      rw [spendMember, memberUuid_member]
      exact hf.items i hi
    · intro u hu
      refine put_rely ?_ ?_
      · exact filter_reconciled (p := fun m => w.Mine u m) (decide_eq_false (hol.ne hu)) (decide_eq_false (hne.ne hu)) _
      intro e he hm
      rcases mem_reconcileSpendScript he with ⟨he, -⟩ | ⟨hna, -⟩
      · exact he
      · exact absurd (hna ▸ hm) (hne.ne hu)
  | zrem key m =>
    obtain ⟨-, rfl⟩ := hx
    refine ⟨h.zrem key m, ?_⟩
    intro u hu
    refine put_rely ?_ ?_
    · rw [List.filter_filter]
      refine List.filter_congr fun i _ => ?_
      by_cases hm : i.member = m
      · simp [hm, hp.1.ne hu]
      · simp [hm]
    · intro e he _
      exact (Stored.mem_zrem.1 he).1

def protocol (T : Type) [DecidableEq T] (settings : Settings) : Protocol ((limiter T).when Orderly) where
  inv := Inv settings
  pre := Pre settings
  rely := Rely
  exec h hpre hx := exec_sound h hpre hx.1 hx.2
  env h hx := by
    obtain ⟨now, rfl⟩ := hx
    exact ⟨h.advance now, fun u => World.advance_rely u _ now⟩

/-- The task has these items in the ledger, and no entry but theirs. -/
structure Holds (t : T) (own : List Item) (w : World T) : Prop where
  items : (w.ledger.filter fun i => w.Mine t i.member) = own
  entries : ∀ key, ∀ e ∈ (w.keys key).set.entries, w.Mine t e.1 → ∃ i ∈ own, i.key = key ∧ e = (i.member, i.time)

lemma Holds.fresh (h : Holds t own w) (ho : w.owner uuid.text = some t)
    (hi : ∀ i ∈ own, memberUuid i.member ≠ uuid.text) : Fresh t w uuid := by
  refine ⟨ho, ?_, ?_⟩
  · intro i him hu
    have hm : w.Mine t i.member := by rw [World.Mine, hu]; exact ho
    refine hi i ?_ hu
    rw [← h.items]
    exact List.mem_filter.2 ⟨him, decide_eq_true hm⟩
  · intro key e he hu
    have hm : w.Mine t e.1 := by rw [World.Mine, hu]; exact ho
    obtain ⟨i, him, -, rfl⟩ := h.entries key e he hm
    exact hi i him hu

/-! ## The functions -/

lemma time_safe {A : World T → Prop} (hA : (protocol T settings).Stable t A) :
    (protocol T settings).Safe t (Returns fun _ => A) (Task.call Cmd.time) A := by
  refine .answered (fun _ => hA) ?_
  rintro w r w' - ha ⟨-, ⟨now, rfl⟩, rfl⟩
  exact ⟨trivial, now, rfl, fun _ => ha⟩

lemma Holds.put {own' ledger : List Item} {k : Stored} (h : Holds t own w)
    (hit : (ledger.filter fun i => w.Mine t i.member) = own') (hke : ∀ i ∈ own, i.key ≠ key → i ∈ own')
    (hk : ∀ e ∈ k.set.entries, w.Mine t e.1 → ∃ i ∈ own', i.key = key ∧ e = (i.member, i.time)) :
    Holds t own' { w.put key k with ledger := ledger } := by
  refine ⟨hit, forall_put (P := fun key k => ∀ e ∈ k.set.entries, w.Mine t e.1 →
    ∃ i ∈ own', i.key = key ∧ e = (i.member, i.time)) hk fun key' hkey e he hm => ?_⟩
  obtain ⟨i, hi, hik, he⟩ := h.entries key' e he hm
  exact ⟨i, hke i hi (hik ▸ hkey), hik, he⟩

lemma Holds.checked {item : Item} {windowStart : ℚ} {clock : ℚ} {limit : Int} {ttl : Nat}
    (h : Holds t own w) (hmi : w.Mine t item.member)
    (hr : Checked item.key ((w.advance item.time).keys item.key) clock windowStart item.time item.weight limit item.member
      ttl res) : Holds t (if res.2.1 = 1 then own ++ [item] else own) ((w.advance item.time).checked res item) := by
  have ha : Holds t own (w.advance item.time) := ⟨h.items, fun key e he => h.entries key e (mem_advance he)⟩
  have ho := fun e he => ha.entries item.key e (Stored.mem_zremrangebyscore (x := windowStart).1 he).1
  cases hr with
  | refused text => exact ha.put h.items (fun i hi _ => hi) ho
  | admitted text room =>
    refine ha.put ?_ (fun i hi _ => List.mem_append_left _ hi) fun e he hm => ?_
    · have hon : [item].filter (fun i => w.Mine t i.member) = [item] := by simpa using hmi
      exact (List.filter_append ..).trans (congrArg₂ (· ++ ·) h.items hon)
    rcases Stored.mem_zadd.1 he with ⟨he, -⟩ | he
    · obtain ⟨i, hi, hik, he⟩ := ho e he hm
      exact ⟨i, List.mem_append_left _ hi, hik, he⟩
    · exact ⟨item, by simp, rfl, he⟩

def Reservation.Names (r : Reservation) (own : List Item) : Prop :=
  ∀ i ∈ own, (i.key = .spend r.apiKeyId ∧ r.spendMember = some i.member) ∨
    (i.key = .velocity r.apiKeyId ∧ r.velocityMember = some i.member)

lemma Holds.mine (h : Holds t own w) {i : Item} (hi : i ∈ own) : w.Mine t i.member := by
  rw [← h.items] at hi
  exact of_decide_eq_true (List.mem_filter.1 hi).2

lemma Holds.reconcile (h : Holds t own w) (ho : w.Mine t oldMember) (hnew : w.Mine t newMember) :
    Holds t (own.map (World.reconciled key oldMember newMember))
      { w.put key (reconcileSpendScript (w.keys key) oldMember newMember).1 with
        ledger := w.ledger.map (World.reconciled key oldMember newMember) } := by
  have hmi : ∀ i, w.Mine t (World.reconciled key oldMember newMember i).member ↔ w.Mine t i.member := by
    intro i
    rcases reconciled_cases key oldMember newMember i with ⟨-, him, hr⟩ | ⟨-, hr⟩
    · rw [hr, him]
      exact iff_of_true hnew ho
    · rw [hr]
  refine h.put ?_ ?_ ?_
  · rw [List.filter_map, ← h.items]
    simp only [Function.comp_def, hmi]
  · intro i hio hik
    rcases reconciled_cases key oldMember newMember i with ⟨hik', -, -⟩ | ⟨-, hr⟩
    · exact absurd hik' hik
    · exact List.mem_map.2 ⟨i, hio, hr⟩
  · intro e he hm
    rcases mem_reconcileSpendScript he with ⟨he, hne⟩ | ⟨hn, he⟩
    · obtain ⟨i, hio, hik, hie⟩ := h.entries _ e he hm
      rcases reconciled_cases key oldMember newMember i with ⟨-, him, -⟩ | ⟨-, hr⟩
      · exact absurd (by rw [hie, him]) hne
      · exact ⟨i, List.mem_map.2 ⟨i, hio, hr⟩, hik, hie⟩
    · obtain ⟨i, hio, hik, hie⟩ := h.entries _ _ he ho
      rcases reconciled_cases key oldMember newMember i with ⟨-, -, hr⟩ | ⟨hne, -⟩
      · exact ⟨_, List.mem_map.2 ⟨i, hio, hr⟩, hik, Prod.ext hn (mk.inj hie).2⟩
      · exact absurd ⟨hik, (mk.inj hie).1.symm⟩ hne

lemma Reservation.Names.reconcile (h : r.Names own) (ho : r.spendMember = some oldMember) :
    Reservation.Names { r with spendMember := some newMember }
      (own.map (World.reconciled (.spend r.apiKeyId) oldMember newMember)) := by
  intro i hi
  obtain ⟨j, hj, rfl⟩ := List.mem_map.1 hi
  rcases reconciled_cases (.spend r.apiKeyId) oldMember newMember j with ⟨hjk, -, hr⟩ | ⟨hne, hr⟩
  · rw [hr]
    exact .inl ⟨hjk, rfl⟩
  rw [hr]
  rcases h j hj with ⟨hjk, hjm⟩ | hj
  · exact absurd ⟨hjk, (some.inj (ho.symm.trans hjm)).symm⟩ hne
  · exact .inr hj

inductive Op
  | reconcile (actualSats : Int)
  | rollback

/-- A request checks the limits, and when it is admitted it goes on to reconcile
and roll back its reservation in any order. -/
structure Request where
  amountSats : Nat
  apiKeyId : String
  ops : List Op

inductive Outcome
  | refused (error : Option String)
  | reserved
  | rolledBack

def Request.finish : Reservation → Outcome → List Op → Code Outcome
  | _, outcome, [] => return outcome
  | reservation, outcome, .reconcile actualSats :: ops => do
    let reservation ← reconcileSpendLimit reservation actualSats
    finish reservation outcome ops
  | reservation, _, .rollback :: ops => do
    rollbackPaymentLimits reservation
    finish reservation .rolledBack ops

def Request.run (settings : Settings) (request : Request) : Code Outcome := do
  let (_, error, reservation) ← checkPaymentLimits settings request.amountSats request.apiKeyId
  match reservation with
  | none => return .refused error
  | some reservation => Request.finish reservation .reserved request.ops

end

end AgentWallet.RateLimit
