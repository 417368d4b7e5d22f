import AgentWallet.Audit.Verify
/-!
# The chain the wallet writes

Every database that appends, retention and re-anchoring reach from an empty one
is linked, hashed under the current or the previous key and counted exactly by
the high-water row (`Inv`). So it verifies, with every row counted, for every
page size (`reach_verifies`).
-/

namespace AgentWallet.Audit

open AgentWallet.Lib List Option Prod

variable {rows : List AuditLog} {db db' : Db} {now : Int} {settings : Settings}

section

variable {pf : Platform} {settings : Settings}

/-! ## The invariant -/

/-- The table in the order of its rows: later rows have later times, new ids,
links to the row before and a hash of their own. -/
structure Chain (pf : Platform) (settings : Settings) (rows : List AuditLog) : Prop where
  increasing : rows.Pairwise fun r s => r.createdAt < s.createdAt
  ids : DistinctIds rows
  verified : Verified pf settings rows

/-- The high-water row is signed and counts the rows. -/
def Counted (pf : Platform) (settings : Settings) (db : Db) : Prop :=
  match db.highWater with
  | none => db.rows = []
  | some state =>
    UnderEitherKey settings (signHighWater pf settings state.entryCount state.headHash) state.stateHmac ∧
      state.entryCount = db.rows.length

lemma Counted.of_length (h : Counted pf settings db) (hl : rows.length = db.rows.length) :
    Counted pf settings { db with rows := rows } := by
  unfold Counted at h ⊢
  cases hw : db.highWater with
  | none =>
    rw [hw] at h
    rwa [h, length_nil, length_eq_zero_iff] at hl
  | some state =>
    rw [hw] at h
    exact ⟨h.1, by rw [h.2, hl]⟩

/-- The high-water row names the hash of the newest row. -/
def Headed (db : Db) : Prop := ∀ state ∈ db.highWater, ∀ r ∈ db.rows.getLast?, state.headHash = r.entryHash

structure Inv (pf : Platform) (settings : Settings) (db : Db) : Prop where
  chain : Chain pf settings db.rows
  counted : Counted pf settings db
  headed : Headed db

lemma Chain.ordered_eq (h : Chain pf settings rows) : ordered rows = rows :=
  InOrder.ordered_eq (h.increasing.imp fun hlt => isAfter_iff.2 (.inl hlt))

lemma Counted.highWaterOk (h : Counted pf settings db) : HighWaterOk pf settings db := by
  intro state hs
  unfold Counted at h
  rw [Option.mem_def.1 hs] at h
  exact ⟨h.1, h.2.le⟩

lemma Inv.verifyChain (h : Inv pf settings db) {batchSize : Nat} (hb : 1 ≤ batchSize) :
    verifyChain pf settings db none batchSize = .ok ⟨db.rows.length, true, none, none⟩ := by
  apply verifyChain_complete h.chain.ids hb
  · rw [h.chain.ordered_eq]
    exact h.chain.verified
  · exact h.counted.highWaterOk

lemma Chain.suffix {tail : List AuditLog} (h : Chain pf settings rows) (ht : tail <:+ rows) :
    Chain pf settings tail where
  increasing := h.increasing.sublist ht.sublist
  ids := h.ids.sublist ht.sublist
  verified := ⟨h.verified.links.suffix ht, fun e he => h.verified.hashes e (ht.subset he)⟩

lemma filter_suffix (h : rows.Pairwise fun r s => r.createdAt < s.createdAt) (cutoff : Int) :
    (rows.filter fun r => !(r.createdAt < cutoff)) <:+ rows := by
  induction rows with
  | nil => simp
  | cons r rows ih =>
    obtain ⟨hr, hro⟩ := pairwise_cons.1 h
    by_cases hc : r.createdAt < cutoff
    · rw [filter_cons_of_neg (by simpa using hc)]
      exact (ih hro).trans (suffix_cons r rows)
    -- the first row that is kept, so all later rows are kept too
    have ha : ∀ s ∈ r :: rows, (!decide (s.createdAt < cutoff)) = true := by
      intro s hs
      rcases mem_cons.1 hs with rfl | hs
      · simpa using hc
      · have := hr s hs
        simp only [Bool.not_eq_true', decide_eq_false_iff_not, not_lt] at hc ⊢
        omega
    rw [filter_eq_self.2 ha]

/-! ## Appending -/

lemma getLastHash_eq (h : Chain pf settings db.rows) :
    getLastHash db = (db.rows.getLast?.bind AuditLog.entryHash, db.rows.getLast?.map AuditLog.createdAt) := by
  unfold getLastHash
  rw [h.ordered_eq]
  cases db.rows.getLast? <;> rfl

lemma recordHighWater_counted {count : Int} {he : Option String} (h : count = db.rows.length) :
    Counted pf settings (recordHighWater pf settings db count he) := by
  have hm : max 0 count = count := max_eq_right (by omega)
  unfold recordHighWater Counted
  simp only [hm]
  exact ⟨.inl rfl, h⟩

lemma bumpHighWater_ok {hw : Option AuditChainState} {row : AuditLog} (hc : Counted pf settings ⟨rows, hw⟩)
    (h : bumpHighWaterOnAppend pf settings ⟨rows ++ [row], hw⟩ row.entryHash = .ok db') :
    db'.rows = rows ++ [row] ∧ Counted pf settings db' ∧ Headed db' := by
  have hre : ∀ count : Int, count = (rows ++ [row]).length →
      db' = recordHighWater pf settings ⟨rows ++ [row], hw⟩ count row.entryHash →
      db'.rows = rows ++ [row] ∧ Counted pf settings db' ∧ Headed db' := by
    rintro count hco rfl
    refine ⟨rfl, recordHighWater_counted hco, ?_⟩
    intro state hs r hr
    simp only [recordHighWater, Option.mem_def, some.injEq] at hs hr
    rw [getLast?_concat, some.injEq] at hr
    rw [← hs, ← hr]
  cases hw with
  | none => exact hre _ rfl (Except.ok.inj h).symm
  | some state =>
    obtain ⟨hsi, hco⟩ := hc
    obtain ⟨valid, hv, h⟩ := bind_eq_ok.1 h
    rw [highWaterSignatureValid_true.2 hsi] at hv
    cases hv
    refine hre (state.entryCount + 1) ?_ (pure_eq_ok.1 h).symm
    simp [hco]

lemma stampTime_gt {prev : Option Int} {p : Int} (h : p ∈ prev) : p < stampTime prev now := by
  rw [Option.mem_def] at h
  subst h
  unfold stampTime
  dsimp only
  split_ifs <;> omega

lemma Chain.append {entry : Entry} {uuid : Uuid} (h : Chain pf settings db.rows) (hid : ∀ r ∈ db.rows, r.id ≠ uuid) :
    Chain pf settings (db.rows ++ [newRow pf settings db entry uuid now]) := by
  set row := newRow pf settings db entry uuid now with hro
  have hp : row.prevHash = db.rows.getLast?.bind AuditLog.entryHash := by rw [hro, newRow, getLastHash_eq h]
  have ht : row.createdAt = stampTime (db.rows.getLast?.map AuditLog.createdAt) now := by
    rw [hro, newRow, getLastHash_eq h]
  have hv : ValidHash pf settings row := .inl rfl
  refine ⟨?_, ?_, ?_, ?_⟩
  · -- the new time is behind the newest row's, which is the greatest
    refine pairwise_append.2 ⟨h.increasing, pairwise_singleton _ _, ?_⟩
    intro r hr s hs
    obtain rfl := mem_singleton.1 hs
    obtain ⟨init, last, hl⟩ := (eq_nil_or_concat db.rows).resolve_left (ne_nil_of_mem hr)
    rw [concat_eq_append] at hl
    have hle : r.createdAt ≤ last.createdAt := by
      rw [hl] at hr
      rcases mem_append.1 hr with hr | hr
      · have hi := h.increasing
        rw [hl] at hi
        exact ((pairwise_append.1 hi).2.2 r hr last (by simp)).le
      · rw [mem_singleton.1 hr]
    rw [ht]
    exact hle.trans_lt (stampTime_gt (by simp [hl]))
  · refine pairwise_append.2 ⟨h.ids, pairwise_singleton _ _, ?_⟩
    intro r hr s hs
    rw [mem_singleton.1 hs]
    exact hid r hr
  · refine isChain_append.2 ⟨h.verified.links, isChain_singleton _, ?_⟩
    intro last hl s hs
    obtain rfl : row = s := by simpa using hs
    unfold Links
    rw [hp, Option.mem_def.1 hl]
    rfl
  · intro e he
    rcases mem_append.1 he with he | he
    · exact h.verified.hashes e he
    · rw [mem_singleton.1 he]
      exact hv

lemma finalizeEntry_ok {entry : Entry} {uuid : Uuid} {row : AuditLog} (hch : Chain pf settings db.rows)
    (hc : Counted pf settings db) (h : finalizeEntry pf settings db entry uuid now = .ok (db', row)) :
    Inv pf settings db' ∧ db'.rows = db.rows ++ [row] ∧ row.id = uuid ∧
      row.prevHash = db.rows.getLast?.bind AuditLog.entryHash := by
  simp only [finalizeEntry, bind_eq_ok, raiseIf_eq_ok, pure_eq_ok, mk.injEq] at h
  obtain ⟨⟨⟩, hid, db₁, hb, rfl, rfl⟩ := h
  obtain ⟨hr, hco, hh⟩ := bumpHighWater_ok hc hb
  refine ⟨⟨?_, hco, hh⟩, hr, rfl, ?_⟩
  · rw [hr]
    exact hch.append (by simpa using hid)
  · rw [newRow, getLastHash_eq hch]

/-! ## Retention -/

lemma lowerHighWater_ok {tail : List AuditLog} {hw : Option AuditChainState} {deleted : Int}
    (hc : Counted pf settings ⟨rows, hw⟩) (ht : tail <:+ rows) (hd : deleted = rows.length - tail.length)
    (h : lowerHighWater pf settings ⟨tail, hw⟩ deleted = .ok db') : db'.rows = tail ∧ Counted pf settings db' := by
  cases hw with
  | none =>
    obtain rfl := Except.ok.inj h
    obtain rfl : rows = [] := hc
    exact ⟨rfl, suffix_nil.1 ht⟩
  | some state =>
    obtain ⟨hs, hco⟩ := hc
    obtain ⟨valid, hv, h⟩ := bind_eq_ok.1 h
    rw [highWaterSignatureValid_true.2 hs] at hv
    cases hv
    obtain rfl := pure_eq_ok.1 h
    refine ⟨rfl, recordHighWater_counted ?_⟩
    simp only [hco, hd]
    omega

/-- The rows after an operation that was given the id `uuid`: as before, none, or
a part of the old rows (all of them linked anew, in a re-anchoring) and one new
row. -/
def RowsAfter (pf : Platform) (settings : Settings) (uuid : Uuid) (rows rows' : List AuditLog) : Prop :=
  rows' = rows ∨ rows' = [] ∨ ∃ base row, rows' = base ++ [row] ∧ row.id = uuid ∧
    row.prevHash = base.getLast?.bind AuditLog.entryHash ∧
    (base <:+ rows ∨ base = relink pf settings none rows)

lemma pruneAuditLog_ok {cutoff : Int} {key uuid : Uuid} {res : PruneResult} (hi : Inv pf settings db)
    (h : pruneAuditLog pf settings db cutoff key uuid now = .ok (db', res)) :
    Inv pf settings db' ∧ RowsAfter pf settings uuid db.rows db'.rows := by
  unfold pruneAuditLog at h
  rw [hi.verifyChain (by decide)] at h
  simp only [Bool.not_true, Bool.false_eq_true, if_false] at h
  set tail := db.rows.filter fun r => !(r.createdAt < cutoff) with ht
  have hs : tail <:+ db.rows := filter_suffix hi.chain.increasing cutoff
  rcases ite_eq_iff.1 h with ⟨-, h⟩ | ⟨-, h⟩
  · obtain ⟨db₁, hl, h⟩ := bind_eq_ok.1 h
    obtain ⟨hro, hc⟩ := lowerHighWater_ok hi.counted hs rfl hl
    have hch : Chain pf settings db₁.rows := hro ▸ hi.chain.suffix hs
    rcases ite_eq_iff.1 h with ⟨-, h⟩ | ⟨hpo, h⟩
    · obtain ⟨⟨db₂, row⟩, hf, h⟩ := bind_eq_ok.1 h
      obtain ⟨rfl, -⟩ := mk.inj (pure_eq_ok.1 h)
      obtain ⟨hin, hr, hid, hp⟩ := finalizeEntry_ok hch hc hf
      exact ⟨hin, .inr (.inr ⟨db₁.rows, row, hr, hid, hp, .inl (hro ▸ hs)⟩)⟩
    · -- nothing survived, so there is no newest row to name
      obtain ⟨rfl, -⟩ := mk.inj (pure_eq_ok.1 h)
      have hn : db₁.rows = [] := by
        rw [← length_eq_zero_iff]
        unfold countAuditRows at hpo
        omega
      refine ⟨⟨hch, hc, ?_⟩, .inr (.inl hn)⟩
      intro state _ r hr
      rw [hn] at hr
      cases hr
  · obtain ⟨rfl, -⟩ := mk.inj (Except.ok.inj h)
    exact ⟨hi, .inl rfl⟩

/-! ## Re-anchoring -/

lemma relink_map {α : Type} (f : AuditLog → α) (hf : ∀ r p h, f { r with prevHash := p, entryHash := h } = f r)
    (prev : Option String) (rows : List AuditLog) : (relink pf settings prev rows).map f = rows.map f := by
  induction rows generalizing prev with
  | nil => rfl
  | cons r rows ih =>
    rw [relink, map_cons, map_cons, ih]
    congr 1
    exact hf r _ _

lemma relink_head {prev : Option String} : ∀ e ∈ (relink pf settings prev rows).head?, e.prevHash = prev := by
  cases rows with
  | nil | cons r rows => simp [relink]

lemma relink_verified (prev : Option String) (rows : List AuditLog) :
    Verified pf settings (relink pf settings prev rows) := by
  induction rows generalizing prev with
  | nil => exact ⟨.nil, by simp [relink]⟩
  | cons r rows ih =>
    rw [relink]
    refine ⟨?_, ?_⟩
    · rw [isChain_cons]
      refine ⟨fun e he => ?_, (ih _).links⟩
      unfold Links
      rw [relink_head e he]
    · intro e he
      rcases mem_cons.1 he with rfl | he
      · exact .inl rfl
      · exact (ih _).hashes e he

lemma Chain.relink (h : Chain pf settings rows) :
    Chain pf settings (relink pf settings none rows) where
  increasing := by
    have hm := @relink_map pf settings _ AuditLog.createdAt (fun _ _ _ => rfl) none rows
    rw [← pairwise_map (f := AuditLog.createdAt) (R := (· < ·)), hm, pairwise_map]
    exact h.increasing
  ids := by
    have hm := @relink_map pf settings _ AuditLog.id (fun _ _ _ => rfl) none rows
    unfold DistinctIds
    rw [← pairwise_map (f := AuditLog.id) (R := (· ≠ ·)), hm, pairwise_map]
    exact h.ids
  verified := relink_verified none rows

lemma reanchorChain_ok {key uuid : Uuid} {name : String} {res : ReanchorResult} (hi : Inv pf settings db)
    (h : reanchorChain pf settings db key name uuid now = .ok (db', res)) :
    Inv pf settings db' ∧ RowsAfter pf settings uuid db.rows db'.rows := by
  unfold reanchorChain at h
  rw [hi.chain.ordered_eq] at h
  obtain ⟨⟨db₁, row⟩, hf, h⟩ := bind_eq_ok.1 h
  obtain ⟨rfl, -⟩ := mk.inj (pure_eq_ok.1 h)
  have hle : (relink pf settings none db.rows).length = db.rows.length := by
    have hm := @relink_map pf settings _ AuditLog.id (fun _ _ _ => rfl) none db.rows
    simpa using congrArg List.length hm
  obtain ⟨hin, hr, hid, hp⟩ := finalizeEntry_ok hi.chain.relink (hi.counted.of_length hle) hf
  refine ⟨⟨hin.chain, recordHighWater_counted rfl, ?_⟩, .inr (.inr ⟨_, row, hr, hid, hp, .inr rfl⟩)⟩
  intro state hs last hl
  simp only [recordHighWater, Option.mem_def, some.injEq, hr, getLast?_concat] at hs hl
  rw [← hs, ← hl]

/-! ## Runs -/

/-- The operations of the service, with the clock reading and the new id each
of them takes. -/
inductive Op
  | logAction (apiKeyId : Uuid) (apiKeyName action resource : String) (details : Option (List (String × Json)))
    (amountSats : Option Int) (success : Bool) (errorMessage ipAddress : Option String) (uuid : Uuid) (now : Int)
  | logDashboardAction (dashboardKeyId : Uuid) (action resource : String) (details : Option (List (String × Json)))
    (amountSats : Option Int) (success : Bool) (errorMessage ipAddress : Option String) (uuid : Uuid) (now : Int)
  | pruneAuditLog (cutoff : Int) (dashboardKeyId uuid : Uuid) (now : Int)
  | reanchorChain (actorKeyId : Uuid) (actorName : String) (uuid : Uuid) (now : Int)

namespace Op

def uuid : Op → Uuid
  | logAction _ _ _ _ _ _ _ _ _ uuid _ => uuid
  | logDashboardAction _ _ _ _ _ _ _ _ uuid _ => uuid
  | pruneAuditLog _ _ uuid _ => uuid
  | reanchorChain _ _ uuid _ => uuid

def call (pf : Platform) (settings : Settings) (db : Db) : Op → Except AuditError Db
  | logAction key name action resource details sats ok err ip uuid now =>
    (Audit.logAction pf settings db key name action resource details sats ok err ip uuid now).map Prod.fst
  | logDashboardAction key action resource details sats ok err ip uuid now =>
    (Audit.logDashboardAction pf settings db key action resource details sats ok err ip uuid now).map Prod.fst
  | pruneAuditLog cutoff key uuid now => (Audit.pruneAuditLog pf settings db cutoff key uuid now).map Prod.fst
  | reanchorChain key name uuid now => (Audit.reanchorChain pf settings db key name uuid now).map Prod.fst

/-- The database after the call: an operation that raises is rolled back. -/
def run (pf : Platform) (settings : Settings) (db : Db) (o : Op) : Db :=
  match o.call pf settings db with
  | .ok db' => db'
  | .error _ => db

end Op

lemma run_inv (hi : Inv pf settings db) (o : Op) :
    Inv pf settings (o.run pf settings db) ∧ RowsAfter pf settings o.uuid db.rows (o.run pf settings db).rows := by
  have append : ∀ {entry uuid now db' row}, finalizeEntry pf settings db entry uuid now = .ok (db', row) →
      Inv pf settings db' ∧ RowsAfter pf settings uuid db.rows db'.rows := by
    intro entry uuid now db' row h
    obtain ⟨hin, hr, hid, hp⟩ := finalizeEntry_ok hi.chain hi.counted h
    exact ⟨hin, .inr (.inr ⟨db.rows, row, hr, hid, hp, .inl suffix_rfl⟩)⟩
  unfold Op.run
  split
  · rename_i db' h
    cases o with
    | logAction | logDashboardAction =>
      obtain ⟨⟨_, row⟩, hc, rfl⟩ := map_eq_ok.1 h
      exact append hc
    | pruneAuditLog =>
      obtain ⟨⟨_, res⟩, hc, rfl⟩ := map_eq_ok.1 h
      exact pruneAuditLog_ok hi hc
    | reanchorChain =>
      obtain ⟨⟨_, res⟩, hc, rfl⟩ := map_eq_ok.1 h
      exact reanchorChain_ok hi hc
  · exact ⟨hi, .inl rfl⟩

end

structure World where
  settings : Settings
  db : Db

/-- The worlds a deployment reaches: it starts with an empty database, runs
operations and rotates its key at most once, keeping the old key as the
previous one. -/
inductive Reach (pf : Platform) : World → Prop
  | init (key : String) (hk : key ≠ "") : Reach pf ⟨⟨key, ""⟩, {}⟩
  | op {w : World} (h : Reach pf w) (o : Op) : Reach pf ⟨w.settings, o.run pf w.settings w.db⟩
  | rotate {w : World} (h : Reach pf w) (key : String) (hk : key ≠ "") (hp : w.settings.secretKeyPrevious = "") :
    Reach pf ⟨⟨key, w.settings.secretKey⟩, w.db⟩

lemma UnderEitherKey.rotate {key stored : String} {expected expected' : Option String → String}
    (h : UnderEitherKey settings expected stored) (hp : settings.secretKeyPrevious = "") (hk : settings.secretKey ≠ "")
    (he : expected none = expected' (some settings.secretKey)) :
    UnderEitherKey ⟨key, settings.secretKey⟩ expected' stored := by
  rcases h with h | ⟨hne, -⟩
  · exact .inr ⟨hk, h.trans he⟩
  · exact absurd hp hne

lemma auditChainHmac_rotate {pf : Platform} {key payload : String} (hk : settings.secretKey ≠ "") :
    auditChainHmac pf settings payload none =
      auditChainHmac pf ⟨key, settings.secretKey⟩ payload (some settings.secretKey) := by
  simp [auditChainHmac, orEmpty, hk]

lemma Inv.rotate {pf : Platform} {key : String} (h : Inv pf settings db) (hp : settings.secretKeyPrevious = "")
    (hk : settings.secretKey ≠ "") :
    Inv pf ⟨key, settings.secretKey⟩ db where
  chain := ⟨h.chain.increasing, h.chain.ids, h.chain.verified.links, fun e he =>
    (h.chain.verified.hashes e he).rotate hp hk (auditChainHmac_rotate hk)⟩
  counted := by
    have hc := h.counted
    unfold Counted at hc ⊢
    cases hw : db.highWater with
    | none => simpa [hw] using hc
    | some state =>
      simp only [hw] at hc
      exact ⟨hc.1.rotate hp hk (auditChainHmac_rotate hk), hc.2⟩
  headed := h.headed

lemma reach_inv {pf : Platform} {w : World} (h : Reach pf w) :
    w.settings.secretKey ≠ "" ∧ Inv pf w.settings w.db := by
  induction h with
  | init key hk => exact ⟨hk, ⟨⟨.nil, .nil, .nil, by simp⟩, rfl, by simp [Headed]⟩⟩
  | op _ o ih => exact ⟨ih.1, (run_inv ih.2 o).1⟩
  | rotate _ key hk hp ih => exact ⟨hk, ih.2.rotate hp ih.1⟩

/-- Every database the wallet writes verifies, with every row counted, for every
page size, and the high-water count is never above the row count. -/
theorem reach_verifies {pf : Platform} {w : World} (h : Reach pf w) {batchSize : Nat} (hb : 1 ≤ batchSize) :
    verifyChain pf w.settings w.db none batchSize = .ok ⟨w.db.rows.length, true, none, none⟩ ∧
      ∀ state ∈ w.db.highWater, state.entryCount ≤ w.db.rows.length :=
  ⟨(reach_inv h).2.verifyChain hb, fun state hs => ((reach_inv h).2.counted.highWaterOk state hs).2⟩

/-- One action is logged, then the key is rotated. -/
theorem reach_verifies_rotated :
    ∃ w, Reach ⟨Sha256.sha256, fun _ => ""⟩ w ∧ w.settings = ⟨"new", "old"⟩ ∧ w.db.rows.length = 1 ∧
      verifyChain ⟨Sha256.sha256, fun _ => ""⟩ w.settings w.db none 1 = .ok ⟨w.db.rows.length, true, none, none⟩ := by
  have h₀ : Reach ⟨Sha256.sha256, fun _ => ""⟩ ⟨⟨"old", ""⟩, {}⟩ := .init "old" (by decide)
  have hr := (h₀.op (.logDashboardAction ⟨"00000000-0000-0000-0000-000000000000", by decide⟩ "login" "dashboard" none
    none true none none ⟨"00000000-0000-0000-0000-000000000001", by decide⟩ 0)).rotate "new" (by decide) rfl
  exact ⟨_, hr, rfl, rfl, (reach_verifies hr (by decide)).1⟩

end AgentWallet.Audit
