import AgentWallet.Lib.Lists
import AgentWallet.Audit.Chain
/-!
# Tampering with the audit log

An attacker without the key replaces the rows of the table by rows whose hashes
the wallet has written at some time, and leaves the high-water row. Against such
an attacker verification is complete as long as no row that retention removed
comes back: a table that verifies is then the wallet's own
(`tampering_detected`). It is not complete without that condition: the check
compares the count of the high-water row and not its head, so a removed row can
make up for the newest one (`newest_row_replaced`).
-/

namespace AgentWallet.Audit

open AgentWallet.Lib List Prod

/-! ## Histories -/

/-- A deployment and all the rows it has written, each as it was at some time.
New ids were never used before. -/
inductive History (pf : Platform) : List AuditLog → World → Prop
  | init (key : String) (hk : key ≠ "") : History pf [] ⟨⟨key, ""⟩, {}⟩
  | op {written : List AuditLog} {w : World} (h : History pf written w) (o : Op)
    (hnew : ∀ r ∈ written, r.id ≠ o.uuid) :
    History pf (written ++ (o.run pf w.settings w.db).rows) ⟨w.settings, o.run pf w.settings w.db⟩
  | rotate {written : List AuditLog} {w : World} (h : History pf written w) (key : String) (hk : key ≠ "")
    (hp : w.settings.secretKeyPrevious = "") : History pf written ⟨⟨key, w.settings.secretKey⟩, w.db⟩

variable {written : List AuditLog} {w : World}

lemma History.reach {pf : Platform} (h : History pf written w) : Reach pf w := by
  induction h with
  | init key hk => exact .init key hk
  | op _ o _ ih => exact ih.op o
  | rotate _ key hk hp ih => exact ih.rotate key hk hp

/-- Every row that was written at some time, in relation to the table now. -/
structure Told (pf : Platform) (written : List AuditLog) (w : World) : Prop where
  live : ∀ r ∈ w.db.rows, r ∈ written
  valid : ∀ v ∈ written, ValidHash pf w.settings v
  prev : ∀ v ∈ written, v.prevHash ≠ some ""
  time : ∀ v ∈ written, ∀ r ∈ w.db.rows, v.id = r.id → v.createdAt = r.createdAt
  newest : ∀ v ∈ written, ∀ r ∈ w.db.rows.getLast?, v.id = r.id → v = r

variable {rows : List AuditLog} {db : Db}

section

variable {pf : Platform} {settings : Settings}

section

variable (hlen : ∀ x, (pf.sha256 x).length = 32)
include hlen

variable {e : AuditLog} {prev : Option String}

lemma ValidHash.ne_empty (h : ValidHash pf settings e) : orEmpty e.entryHash ≠ "" := by
  have hne : ∀ payload secret, auditChainHmac pf settings payload secret ≠ "" := by
    intro payload secret
    refine hexdigest_ne_empty fun hn => ?_
    have := length_hmac hlen (hmac pf.sha256 (utf8 (if orEmpty secret = "" then settings.secretKey else orEmpty secret))
      auditChainContext) (utf8 payload)
    rw [hn] at this
    cases this
  rcases h with h | ⟨-, h⟩ <;> rw [h] <;> exact hne _ _

lemma ValidHash.entryHash_ne (h : ValidHash pf settings e) : e.entryHash ≠ some "" := by
  intro he
  apply h.ne_empty hlen
  rw [he]
  rfl

omit hlen in
lemma relink_prev : ∀ e ∈ relink pf settings prev rows, e.prevHash = prev ∨
      ∃ f ∈ relink pf settings prev rows, e.prevHash = f.entryHash := by
  induction rows generalizing prev with
  | nil => simp [relink]
  | cons r rows ih =>
    intro e he
    rw [relink] at he ⊢
    rcases mem_cons.1 he with rfl | he
    · exact .inl rfl
    · rcases ih e he with h | ⟨f, hf, h⟩
      · exact .inr ⟨_, mem_cons_self, h⟩
      · exact .inr ⟨f, mem_cons_of_mem _ hf, h⟩

omit hlen in
lemma mem_relink (h : e ∈ relink pf settings prev rows) : ∃ r ∈ rows, r.id = e.id ∧ r.createdAt = e.createdAt := by
  have hm := @relink_map pf settings _ (fun r : AuditLog => (r.id, r.createdAt)) (fun _ _ _ => rfl) prev rows
  have he : (e.id, e.createdAt) ∈ rows.map fun r => (r.id, r.createdAt) := by
    rw [← hm]
    exact mem_map.2 ⟨e, h, rfl⟩
  obtain ⟨r, hr, heq⟩ := mem_map.1 he
  exact ⟨r, hr, (mk.inj heq).1, (mk.inj heq).2⟩

lemma Told.op (h : Told pf written w) (hi : Inv pf w.settings w.db) (o : Op) (hne : ∀ r ∈ written, r.id ≠ o.uuid) :
    Told pf (written ++ (o.run pf w.settings w.db).rows) ⟨w.settings, o.run pf w.settings w.db⟩ := by
  obtain ⟨hin, hro⟩ := run_inv hi o
  set db' := o.run pf w.settings w.db with hdb'
  have hva : ∀ v ∈ written ++ db'.rows, ValidHash pf w.settings v := by
    intro v hv
    rcases mem_append.1 hv with hv | hv
    · exact h.valid v hv
    · exact hin.chain.verified.hashes v hv
  rcases hro with hsa | hn | ⟨base, row, hro, hid, hpr, hba⟩
  · -- nothing was written
    have ho : ∀ {v}, v ∈ written ++ db'.rows → v ∈ written := by
      intro v hv
      rcases mem_append.1 hv with hv | hv
      · exact hv
      · exact h.live v (hsa ▸ hv)
    exact ⟨fun r hr => mem_append_right _ hr, hva, fun v hv => h.prev v (ho hv),
      fun v hv r hr => h.time v (ho hv) r (hsa ▸ hr), fun v hv r hr => h.newest v (ho hv) r (hsa ▸ hr)⟩
  · refine ⟨fun r hr => mem_append_right _ hr, hva, fun v hv => h.prev v (by simpa [hn] using hv), ?_, ?_⟩
    · intro v _ r hr
      rw [hn] at hr
      cases hr
    · intro v _ r hr
      rw [hn] at hr
      cases hr
  · -- a row of the base stands for an old row, and the new row has a new id
    have ho : ∀ b ∈ base, ∃ r ∈ w.db.rows, r.id = b.id ∧ r.createdAt = b.createdAt := by
      intro b hb
      rcases hba with hsu | rfl
      · exact ⟨b, hsu.subset hb, rfl, rfl⟩
      · exact mem_relink hb
    have hfr : ∀ v ∈ written ++ base, v.id ≠ row.id := by
      intro v hv
      rw [hid]
      rcases mem_append.1 hv with hv | hv
      · exact hne v hv
      · obtain ⟨r, hr, hri, -⟩ := ho v hv
        rw [← hri]
        exact hne r (h.live r hr)
    have hm : ∀ {v}, v ∈ written ++ db'.rows → v ∈ written ++ base ∨ v = row := by
      intro v hv
      rwa [hro, ← append_assoc, mem_append, mem_singleton] at hv
    have hbm : ∀ b ∈ base, b ∈ db'.rows := by
      intro b hb
      rw [hro]
      exact mem_append_left _ hb
    have hbt : ∀ v ∈ written ++ base, ∀ b ∈ base, v.id = b.id → v.createdAt = b.createdAt := by
      intro v hv b hb hvb
      obtain ⟨r, hr, hri, hrt⟩ := ho b hb
      rcases mem_append.1 hv with hv | hv
      · rw [← hrt]
        exact h.time v hv r hr (hvb.trans hri.symm)
      · obtain ⟨s, hs, hsi, hst⟩ := ho v hv
        rw [← hst, ← hrt]
        exact h.time s (h.live s hs) r hr (hsi.trans (hvb.trans hri.symm))
    refine ⟨fun r hr => mem_append_right _ hr, hva, ?_, ?_, ?_⟩
    · intro v hv
      rcases hm hv with hv | rfl
      · rcases mem_append.1 hv with hv | hv
        · exact h.prev v hv
        rcases hba with hsu | rfl
        · exact h.prev v (h.live v (hsu.subset hv))
        · rcases relink_prev v hv with hp | ⟨f, hf, hp⟩
          · rw [hp]; exact Option.some_ne_none _ |>.symm
          · rw [hp]; exact (hin.chain.verified.hashes f (hbm f hf)).entryHash_ne hlen
      · rw [hpr]
        cases hl : base.getLast? with
        | none => exact Option.some_ne_none _ |>.symm
        | some last => exact (hin.chain.verified.hashes last (hbm last (mem_of_getLast? hl))).entryHash_ne hlen
    · intro v hv r hr hvr
      have hr' : r ∈ base ∨ r = row := by
        change r ∈ db'.rows at hr
        rw [hro] at hr
        simpa using hr
      rcases hm hv with hv | rfl <;> rcases hr' with hr' | rfl
      · exact hbt v hv r hr' hvr
      · exact absurd hvr (hfr v hv)
      · exact absurd hvr.symm (hfr r (mem_append_right _ hr'))
      · rfl
    · intro v hv r hr hvr
      change r ∈ db'.rows.getLast? at hr
      rw [hro, getLast?_concat, Option.mem_def, Option.some.injEq] at hr
      subst hr
      rcases hm hv with hv | rfl
      · exact absurd hvr (hfr v hv)
      · rfl

lemma history_told (h : History pf written w) : Told pf written w := by
  induction h with
  | init key hk => exact ⟨by simp, by simp, by simp, by simp, by simp⟩
  | op h o hn ih => exact ih.op hlen (reach_inv h.reach).2 o hn
  | rotate h key hk hp ih =>
    exact ⟨ih.live, fun v hv => (ih.valid v hv).rotate hp (reach_inv h.reach).1
      (auditChainHmac_rotate (reach_inv h.reach).1), ih.prev, ih.time, ih.newest⟩

end

/-! ## Rows and hashes -/

def CollisionFree (pf : Platform) (settings : Settings) (texts : List String) : Prop :=
  ∀ p ∈ texts, ∀ q ∈ texts, ∀ k ∈ [none, some settings.secretKeyPrevious], ∀ k' ∈ [none, some settings.secretKeyPrevious],
    auditChainHmac pf settings p k = auditChainHmac pf settings q k' → p = q

def AuditLog.text (pf : Platform) (r : AuditLog) : String := (r.payload pf).dumps

lemma Uuid.text_inj {a b : Uuid} (h : a.text = b.text) : a = b := by
  by_contra hne
  exact Uuid.text_ne hne h

lemma keyText_inj {a b : Option Uuid} (h : (a.map Uuid.text).getD "None" = (b.map Uuid.text).getD "None") : a = b := by
  have hn : ∀ u : Uuid, u.text ≠ "None" := by
    intro u hu
    have hlen := u.length
    rw [hu] at hlen
    exact absurd hlen (by decide)
  cases a with
  | none =>
    cases b with
    | none => rfl
    | some v => exact absurd h.symm (hn v)
  | some u =>
    cases b with
    | none => exact absurd h (hn u)
    | some v => rw [Uuid.text_inj h]

lemma optJson_inj {α : Type} {f : α → Json} (hf : ∀ x y, f x = f y → x = y) (hn : ∀ x, f x ≠ .null)
    {a b : Option α} (h : (a.map f).getD .null = (b.map f).getD .null) : a = b := by
  cases a with
  | none =>
    cases b with
    | none => rfl
    | some y => exact absurd h.symm (hn y)
  | some x =>
    cases b with
    | none => exact absurd h (hn x)
    | some y => rw [hf x y h]

lemma orEmpty_inj {a b : Option String} (ha : a ≠ some "") (hb : b ≠ some "") (h : orEmpty a = orEmpty b) : a = b := by
  cases a <;> cases b <;> simp_all [orEmpty]

lemma row_of_text (hi : Function.Injective pf.isoformat) {r s : AuditLog} (h : r.text pf = s.text pf)
    (hr : r.prevHash ≠ some "") (hs : s.prevHash ≠ some "") (he : r.entryHash = s.entryHash) : r = s := by
  have hp := Json.dumps_inj h
  simp only [AuditLog.payload, Json.obj.injEq, cons.injEq, mk.injEq, true_and, and_true, Json.str.injEq,
    Json.bool.injEq] at hp
  obtain ⟨ha, hsa, hk, hn, ht, hd, her, hid, hip, hpr, hre, hsu⟩ := hp
  exact AuditLog.ext (keyText_inj hk) hn ha hre
    (optJson_inj (fun _ _ => Json.obj.inj) (by simp) hd) (optJson_inj (fun _ _ => Json.int.inj) (by simp) hsa)
    hsu (optJson_inj (fun _ _ => Json.str.inj) (by simp) her) (optJson_inj (fun _ _ => Json.str.inj) (by simp) hip)
    (Uuid.text_inj hid) (orEmpty_inj hr hs hpr) he (hi ht)

lemma row_of_hash (hi : Function.Injective pf.isoformat)
    (hcf : CollisionFree pf settings (rows.map (AuditLog.text pf))) {r s : AuditLog} (hr : r ∈ rows) (hs : s ∈ rows)
    (hrv : ValidHash pf settings r) (hsv : ValidHash pf settings s) (hrp : r.prevHash ≠ some "")
    (hsp : s.prevHash ≠ some "") (he : r.entryHash = s.entryHash) : r = s := by
  have key : ∀ {e}, ValidHash pf settings e → ∃ k ∈ [none, some settings.secretKeyPrevious],
      orEmpty e.entryHash = auditChainHmac pf settings (e.text pf) k := by
    rintro e (h | ⟨-, h⟩)
    · exact ⟨none, by simp, h⟩
    · exact ⟨_, by simp, h⟩
  obtain ⟨k, hk, hrk⟩ := key hrv
  obtain ⟨k', hk', hsk⟩ := key hsv
  refine row_of_text hi ?_ hrp hsp he
  refine hcf _ (mem_map.2 ⟨r, hr, rfl⟩) _ (mem_map.2 ⟨s, hs, rfl⟩) k hk k' hk' ?_
  rw [← hrk, ← hsk, he]

/-! ## Detection -/

lemma mem_of_ids {live : List AuditLog} (hid : DistinctIds rows) (hsub : ∀ r ∈ rows, ∃ s ∈ live, s.id = r.id)
    (hlen : live.length ≤ rows.length) : rows.length = live.length ∧ ∀ s ∈ live, ∃ r ∈ rows, r.id = s.id := by
  have hn : (rows.map AuditLog.id).Nodup := pairwise_map.2 hid
  have hsu : rows.map AuditLog.id ⊆ live.map AuditLog.id := by
    intro i hi
    obtain ⟨r, hr, rfl⟩ := mem_map.1 hi
    obtain ⟨s, hs, hsr⟩ := hsub r hr
    exact mem_map.2 ⟨s, hs, hsr⟩
  have hp := (subperm_of_subset hn hsu).perm_of_length_le (by simpa using hlen)
  refine ⟨by simpa using hp.length_eq, fun s hs => ?_⟩
  exact mem_map.1 (hp.mem_iff.2 (mem_map.2 ⟨s, hs, rfl⟩))

lemma getLast_ordered {newest : AuditLog} (hid : DistinctIds rows) (hm : newest ∈ rows)
    (hlate : ∀ r ∈ rows, r ≠ newest → r.createdAt < newest.createdAt) : (ordered rows).getLast? = some newest := by
  have hm' : newest ∈ ordered rows := (ordered_perm rows).mem_iff.2 hm
  obtain ⟨init, last, hl⟩ := (eq_nil_or_concat (ordered rows)).resolve_left (ne_nil_of_mem hm')
  rw [concat_eq_append] at hl
  by_cases hla : last = newest
  · simp [hl, hla]
  have hlt := hlate last ((ordered_perm rows).mem_iff.1 (by simp [hl])) hla
  have hin : newest ∈ init := by
    rw [hl] at hm'
    rcases mem_append.1 hm' with hin | hin
    · exact hin
    · exact absurd (mem_singleton.1 hin).symm hla
  have ho := ordered_inOrder hid
  rw [hl] at ho
  have ha := isAfter_iff.1 ((pairwise_append.1 ho).2.2 newest hin last (by simp))
  omega

/-- **Tampering is detected** as long as no removed row is put back. Take a
history and replace the table by rows whose hashes the wallet has written. If
the result verifies, it is the wallet's own table: the newest row, which the
high-water row names, and all rows before it are there and unchanged. -/
theorem tampering_detected (hlen : ∀ x, (pf.sha256 x).length = 32) (hiso : Function.Injective pf.isoformat)
    {written : List AuditLog} {w : World} (h : History pf written w) {rows : List AuditLog} (hid : DistinctIds rows)
    (hhash : ∀ r ∈ rows, ∃ v ∈ written, r.entryHash = v.entryHash)
    (hcf : CollisionFree pf w.settings ((rows ++ written).map (AuditLog.text pf)))
    (hback : ∀ r ∈ rows, ∀ v ∈ written, v.id = r.id → ∃ s ∈ w.db.rows, s.id = r.id)
    (hnull : ∀ r ∈ rows, r.prevHash ≠ some "")
    {batchSize : Nat} (hb : 1 ≤ batchSize) {s : Summary}
    (hv : verifyChain pf w.settings ⟨rows, w.db.highWater⟩ none batchSize = .ok s) (hok : s.ok = true) :
    (∀ r, r ∈ rows ↔ r ∈ w.db.rows) ∧
      ∀ newest ∈ w.db.rows.getLast?, newest ∈ rows ∧
        ∀ state ∈ w.db.highWater, state.headHash = newest.entryHash := by
  have hi := (reach_inv h.reach).2
  have ht := history_told hlen h
  obtain ⟨hve, hhw⟩ := verifyChain_sound hid hb hv hok
  have hp : (ordered rows).Perm rows := ordered_perm rows
  have hva : ∀ r ∈ rows, ValidHash pf w.settings r := fun r hr => hve.hashes r (hp.mem_iff.2 hr)
  -- every row is a row the wallet wrote, and stands for a row of the table
  have ho : ∀ r ∈ rows, r ∈ written := by
    intro r hr
    obtain ⟨v, hvw, he⟩ := hhash r hr
    rw [row_of_hash hiso hcf (mem_append_left _ hr) (mem_append_right _ hvw) (hva r hr) (ht.valid v hvw)
      (hnull r hr) (ht.prev v hvw) he]
    exact hvw
  have hli : ∀ r ∈ rows, ∃ s ∈ w.db.rows, s.id = r.id := fun r hr => hback r hr r (ho r hr) rfl
  have hco : w.db.rows.length ≤ rows.length := by
    have hc := hi.counted
    unfold Counted at hc
    cases hstate : w.db.highWater with
    | none => rw [hstate] at hc; simp [hc]
    | some state =>
      rw [hstate] at hc
      have := (hhw state (by simp [hstate])).2
      rw [hc.2] at this
      simpa using this
  obtain ⟨hle, hids⟩ := mem_of_ids hid hli hco
  -- the newest row was written once, so the row with its id is that row
  have hnewest : ∀ newest ∈ w.db.rows.getLast?, newest ∈ rows := by
    intro newest hn
    obtain ⟨r, hr, hri⟩ := hids newest (mem_of_getLast? hn)
    rw [← ht.newest r (ho r hr) newest hn hri]
    exact hr
  have hsa : ordered rows = w.db.rows := by
    refine chain_eq_of_last ?_ hve.links hi.chain.verified.links (hp.length_eq.trans hle) ?_
    · -- the back-link of a row determines the row before it
      intro a ha b hbm c hac hbc
      have har := hp.mem_iff.1 ha
      have hbw := ht.live b hbm
      refine row_of_hash hiso hcf (mem_append_left _ har) (mem_append_right _ hbw) (hva a har)
        (ht.valid b hbw) (hnull a har) (ht.prev b hbw) ?_
      exact orEmpty_inj ((hva a har).entryHash_ne hlen) ((ht.valid b hbw).entryHash_ne hlen) (hac.symm.trans hbc)
    · cases hl : w.db.rows.getLast? with
      | none =>
        have hni : rows = [] := by
          rw [getLast?_eq_none_iff] at hl
          rwa [hl, length_nil, length_eq_zero_iff] at hle
        simp [hni, ordered]
      | some newest =>
        refine getLast_ordered hid (hnewest newest hl) ?_
        intro r hr hne
        obtain ⟨s, hs, hsi⟩ := hli r hr
        rw [ht.time r (ho r hr) s hs hsi.symm]
        obtain ⟨init, hin⟩ := getLast?_eq_some_iff.1 hl
        have hinc := hi.chain.increasing
        rw [hin] at hs hinc
        rcases mem_append.1 hs with hs | hs
        · exact (pairwise_append.1 hinc).2.2 s hs newest (by simp)
        · rw [mem_singleton.1 hs] at hsi
          exact absurd (ht.newest r (ho r hr) newest hl hsi.symm) hne
  refine ⟨fun r => ?_, fun newest hn => ⟨hnewest newest hn, fun state hst => hi.headed state hst newest hn⟩⟩
  rw [← hp.mem_iff, hsa]

end

/-! ## The gap -/

section

variable {pf : Platform} {settings : Settings}

lemma run_of_call {o : Op} {db' : Db} (h : o.call pf settings db = .ok db') : o.run pf settings db = db' := by
  unfold Op.run
  rw [h]

variable {uuid : Uuid} {tail : List AuditLog}

lemma exists_finalizeEntry (hc : Counted pf settings db) (hid : ∀ r ∈ db.rows, r.id ≠ uuid)
    (entry : Entry) (now : Int) :
    ∃ db', finalizeEntry pf settings db entry uuid now = .ok (db', newRow pf settings db entry uuid now) := by
  have hb : ∀ row : AuditLog, ∃ db', bumpHighWaterOnAppend pf settings { db with rows := db.rows ++ [row] }
      row.entryHash = .ok db' := by
    intro row
    unfold bumpHighWaterOnAppend
    unfold Counted at hc
    cases hw : db.highWater with
    | none => exact ⟨_, rfl⟩
    | some state =>
      rw [hw] at hc
      simp only [bind_eq_ok, highWaterSignatureValid_true.2 hc.1, pure_eq_ok]
      exact ⟨_, true, rfl, rfl⟩
  obtain ⟨db', hdb'⟩ := hb (newRow pf settings db entry uuid now)
  refine ⟨db', ?_⟩
  simp only [finalizeEntry, bind_eq_ok, raiseIf_eq_ok, pure_eq_ok]
  exact ⟨(), by simpa using hid, db', hdb', rfl⟩

lemma exists_lowerHighWater (hc : Counted pf settings db) (rows : List AuditLog) (deleted : Int) :
    ∃ db', lowerHighWater pf settings { db with rows := rows } deleted = .ok db' := by
  unfold lowerHighWater
  unfold Counted at hc
  cases hw : db.highWater with
  | none => exact ⟨_, rfl⟩
  | some state =>
    rw [hw] at hc
    simp only [bind_eq_ok, highWaterSignatureValid_true.2 hc.1, pure_eq_ok]
    exact ⟨_, true, rfl, rfl⟩

lemma History.log (h : History pf written w) (uuid : Uuid) (hn : ∀ r ∈ written, r.id ≠ uuid)
    (hl : ∀ r ∈ w.db.rows, r ∈ written) (now : Int) :
    ∃ w' row, History pf (written ++ w'.db.rows) w' ∧ w'.settings = w.settings ∧ w'.db.rows = w.db.rows ++ [row] ∧
      row.id = uuid ∧ row.createdAt = stampTime (w.db.rows.getLast?.map AuditLog.createdAt) now := by
  have hi := (reach_inv h.reach).2
  obtain ⟨db', hf⟩ := exists_finalizeEntry hi.counted (fun r hr => hn r (hl r hr))
    ⟨some uuid, "__dashboard__", "login", "dashboard", none, none, true, none, none⟩ now
  obtain ⟨-, hro, hid, -⟩ := finalizeEntry_ok hi.chain hi.counted hf
  have hru : (Op.logDashboardAction uuid "login" "dashboard" none none true none none uuid now).run pf w.settings w.db =
      db' := run_of_call (map_eq_ok.2 ⟨_, hf, rfl⟩)
  refine ⟨⟨w.settings, db'⟩, newRow pf w.settings w.db _ uuid now, ?_, rfl, hro, hid, ?_⟩
  · rw [← hru]
    exact h.op (.logDashboardAction uuid "login" "dashboard" none none true none none uuid now) hn
  · rw [newRow, getLastHash_eq hi.chain]

lemma run_pruneAuditLog (hi : Inv pf settings db) (hid : ∀ r ∈ db.rows, r.id ≠ uuid) {cutoff : Int}
    (ht : (db.rows.filter fun r => !(r.createdAt < cutoff)) = tail)
    (hd : tail.length < db.rows.length) (hne : tail ≠ []) (key : Uuid) (now : Int) :
    ∃ row, ((Op.pruneAuditLog cutoff key uuid now).run pf settings db).rows = tail ++ [row] ∧ row.id = uuid := by
  have hs : tail <:+ db.rows := ht ▸ filter_suffix hi.chain.increasing cutoff
  obtain ⟨db₁, hl⟩ := exists_lowerHighWater hi.counted tail (db.rows.length - tail.length)
  obtain ⟨hro, hc⟩ := lowerHighWater_ok hi.counted hs rfl hl
  have hch : Chain pf settings db₁.rows := hro ▸ hi.chain.suffix hs
  obtain ⟨db₂, hf⟩ := exists_finalizeEntry hc (fun r hr => hid r (hs.subset (hro ▸ hr)))
    (truncateEntry pf key (db.rows.length - tail.length) cutoff) now
  obtain ⟨-, hr, hri, -⟩ := finalizeEntry_ok hch hc hf
  refine ⟨_, ?_, hri⟩
  have hp : countAuditRows db₁ > 0 := by
    unfold countAuditRows
    rw [hro]
    exact_mod_cast length_pos_iff.2 hne
  have hca : pruneAuditLog pf settings db cutoff key uuid now =
      .ok (db₂, ⟨db.rows.length - tail.length, some uuid, false⟩) := by
    unfold pruneAuditLog
    rw [hi.verifyChain (by decide)]
    simp only [Bool.not_true, Bool.false_eq_true, if_false, ht]
    rw [if_pos (by omega)]
    refine bind_eq_ok.2 ⟨db₁, hl, ?_⟩
    rw [if_pos hp]
    exact bind_eq_ok.2 ⟨_, hf, rfl⟩
  have hru : (Op.pruneAuditLog cutoff key uuid now).run pf settings db = db₂ :=
    run_of_call (map_eq_ok.2 ⟨_, hca, rfl⟩)
  rw [hru, hr, hro]

/-- When retention has removed one row, the table as it was before still
verifies: it has as many rows as the high-water row counts. -/
lemma verifies_after_prune (hi : Inv pf settings db) (hid : ∀ r ∈ db.rows, r.id ≠ uuid) {cutoff : Int}
    {first : AuditLog} (hr : db.rows = first :: tail) (hne : tail ≠ [])
    (ht : (db.rows.filter fun r => !(r.createdAt < cutoff)) = tail) (key : Uuid) (now : Int) {batchSize : Nat}
    (hb : 1 ≤ batchSize) :
    verifyChain pf settings ⟨db.rows, ((Op.pruneAuditLog cutoff key uuid now).run pf settings db).highWater⟩ none
      batchSize = .ok ⟨db.rows.length, true, none, none⟩ ∧
    ∃ newest ∈ ((Op.pruneAuditLog cutoff key uuid now).run pf settings db).rows.getLast?, newest ∉ db.rows := by
  obtain ⟨row, hro, hri⟩ := run_pruneAuditLog hi hid ht (by simp [hr]) hne key now
  have hi' := (run_inv hi (.pruneAuditLog cutoff key uuid now)).1
  refine ⟨?_, row, by simp [hro], fun hm => hid row hm hri⟩
  set attacked : Db := ⟨db.rows, ((Op.pruneAuditLog cutoff key uuid now).run pf settings db).highWater⟩
  have hids : DistinctIds attacked.rows := hi.chain.ids
  refine verifyChain_complete hids hb ?_ ?_
  · rw [hi.chain.ordered_eq]
    exact hi.chain.verified
  intro state hs
  obtain ⟨hsi, hle⟩ := hi'.counted.highWaterOk state hs
  refine ⟨hsi, ?_⟩
  simpa [attacked, hro, hr] using hle

end

/-- The failing history: two actions are logged, retention removes the first and
logs that it did. The table as it was before retention has as many rows as the
high-water row counts, so it verifies, though the newest row is gone. -/
theorem newest_row_replaced :
    ∃ written w rows, History ⟨Sha256.sha256, fun t => String.ofList (intText t)⟩ written w ∧ DistinctIds rows ∧
      (∀ r ∈ rows, r ∈ written) ∧
      verifyChain ⟨Sha256.sha256, fun t => String.ofList (intText t)⟩ w.settings ⟨rows, w.db.highWater⟩ none
        defaultBatchSize = .ok ⟨2, true, none, none⟩ ∧
      ∃ newest ∈ w.db.rows.getLast?, newest ∉ rows := by
  set pf : Platform := ⟨Sha256.sha256, fun t => String.ofList (intText t)⟩
  set u₁ : Uuid := ⟨"00000000-0000-0000-0000-000000000001", by decide⟩
  set u₂ : Uuid := ⟨"00000000-0000-0000-0000-000000000002", by decide⟩
  set u₃ : Uuid := ⟨"00000000-0000-0000-0000-000000000003", by decide⟩
  have h₀ : History pf [] ⟨⟨"key", ""⟩, {}⟩ := .init "key" (by decide)
  obtain ⟨w₁, r₁, h₁, -, hr₁, hid₁, ht₁⟩ := h₀.log u₁ (by simp) (by simp) 0
  have hr₁ : w₁.db.rows = [r₁] := hr₁
  obtain ⟨w₂, r₂, h₂, -, hr₂, hid₂, ht₂⟩ := h₁.log u₂ (by simp [hr₁, hid₁, u₁, u₂]) (by simp) 10
  have hr₂ : w₂.db.rows = [r₁, r₂] := by rw [hr₂, hr₁]; rfl
  have ht₁ : r₁.createdAt = 0 := ht₁
  have ht₂ : r₂.createdAt = 10 := by rw [ht₂, hr₁]; simp [ht₁]; rfl
  have hne : ∀ r ∈ ([] ++ w₁.db.rows) ++ w₂.db.rows, r.id ≠ u₃ := by
    simp [hr₁, hr₂, hid₁, hid₂, u₁, u₂, u₃]
  have ht : (w₂.db.rows.filter fun r => !(r.createdAt < 5)) = [r₂] := by simp [hr₂, ht₁, ht₂]
  obtain ⟨hv, hn⟩ := verifies_after_prune (reach_inv h₂.reach).2 (fun r hr => hne r (mem_append_right _ hr)) hr₂
    (by simp) ht u₁ 20 (by decide : 1 ≤ defaultBatchSize)
  refine ⟨_, _, w₂.db.rows, h₂.op (.pruneAuditLog 5 u₁ u₃ 20) hne, (reach_inv h₂.reach).2.chain.ids, ?_, ?_, hn⟩
  · intro r hr
    exact mem_append_left _ (mem_append_right _ hr)
  · rw [hr₂] at hv ⊢
    exact hv

/-- One logged action, and the table left as it is. -/
theorem tampering_detected_logged :
    ∃ written w, History ⟨Sha256.sha256, fun t => String.ofList (intText t)⟩ written w ∧
      ∃ newest ∈ w.db.rows.getLast?, newest ∈ w.db.rows ∧
        ∀ state ∈ w.db.highWater, state.headHash = newest.entryHash := by
  set pf : Platform := ⟨Sha256.sha256, fun t => String.ofList (intText t)⟩
  have h₀ : History pf [] ⟨⟨"key", ""⟩, {}⟩ := .init "key" (by decide)
  obtain ⟨w, r, h, -, hr, -⟩ := h₀.log ⟨"00000000-0000-0000-0000-000000000001", by decide⟩ (by simp) (by simp) 0
  have hr : w.db.rows = [r] := hr
  have hi := (reach_inv h.reach).2
  have his : Function.Injective pf.isoformat := fun a b hab => intText_inj (String.ofList_injective hab)
  have hn : ∀ q ∈ w.db.rows, q.prevHash ≠ some "" :=
    fun q hq => (history_told Sha256.length_sha256 h).prev q (by simpa using hq)
  refine ⟨_, w, h, r, by simp [hr], ?_⟩
  refine (tampering_detected Sha256.length_sha256 his h hi.chain.ids (fun q hq => ⟨q, by simpa using hq, rfl⟩) ?_
    (fun q hq _ _ _ => ⟨q, hq, rfl⟩) hn (by decide : 1 ≤ defaultBatchSize) (hi.verifyChain (by decide)) rfl).2 r
    (by simp [hr])
  intro p hp q hq _ _ _ _ _
  simp only [hr, nil_append, cons_append, map_cons, map_nil, mem_cons, not_mem_nil,
    or_false, or_self] at hp hq
  rw [hp, hq]

end AgentWallet.Audit
