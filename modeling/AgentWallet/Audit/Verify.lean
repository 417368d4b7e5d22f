import AgentWallet.Audit.Service
/-!
# What verification accepts

`verifyChain` reads the table page by page behind a cursor. On a table whose
ids are distinct it walks every row once, in order, whatever the page size
(`verifyLoop_eq`), and reports `ok` exactly when the rows are linked, every
hash holds under one of the two keys, and the high-water row is signed and not
above the row count (`verifyChain_sound`, `verifyChain_complete`).
-/

namespace AgentWallet.Audit

open AgentWallet.Lib List

/-! ## Comparing under two keys -/

lemma compareDigest_ok {a b : String} {r : Bool} (ha : isAscii a = true) :
    compareDigest a b = .ok r ↔ isAscii b = true ∧ r = (a == b) := by
  simp only [compareDigest, bind_eq_ok, raiseIf_eq_ok, pure_eq_ok, ha]
  constructor
  · rintro ⟨-, hb, rfl⟩; exact ⟨by simpa using hb, rfl⟩
  · rintro ⟨hb, rfl⟩; exact ⟨(), by simpa using hb, rfl⟩

section

variable {pf : Platform} {settings : Settings}

lemma isAscii_auditChainHmac (payload : String) (secret : Option String) :
    isAscii (auditChainHmac pf settings payload secret) = true := by
  have hd : hexDigits.all (·.toNat < 128) = true := rfl
  unfold isAscii
  rw [all_eq_true] at hd ⊢
  intro c hc
  exact hd c (mem_hexdigest hc)

/-- The stored text is the expected one under one of the keys. -/
def UnderEitherKey (settings : Settings) (expected : Option String → String) (stored : String) : Prop :=
  stored = expected none ∨
    (settings.secretKeyPrevious ≠ "" ∧ stored = expected (some settings.secretKeyPrevious))

lemma matchesEitherKey_true {expected : Option String → String} {stored : String}
    (he : ∀ secret, isAscii (expected secret) = true) :
    matchesEitherKey settings expected stored = .ok true ↔ UnderEitherKey settings expected stored := by
  simp only [matchesEitherKey, bind_eq_ok, compareDigest_ok (he none)]
  constructor
  · rintro ⟨r, ⟨hs, rfl⟩, h⟩
    rcases ite_eq_iff.1 h with ⟨heq, -⟩ | ⟨-, h⟩
    · exact .inl (beq_iff_eq.1 heq).symm
    rcases ite_eq_iff.1 h with ⟨-, h⟩ | ⟨hne, h⟩
    · simp at h
    · obtain ⟨-, h⟩ := (compareDigest_ok (he _)).1 h
      exact .inr ⟨hne, (beq_iff_eq.1 h.symm).symm⟩
  · intro h
    have hs : isAscii stored = true := by
      rcases h with rfl | ⟨-, rfl⟩ <;> exact he _
    refine ⟨_, ⟨hs, rfl⟩, ?_⟩
    by_cases heq : expected none = stored
    · simp [heq]
    rcases h with rfl | ⟨hne, h⟩
    · exact absurd rfl heq
    · rw [if_neg (by simpa using heq), if_neg hne]
      exact (compareDigest_ok (he _)).2 ⟨hs, by simp [h]⟩

/-! ## One row -/

def ValidHash (pf : Platform) (settings : Settings) (e : AuditLog) : Prop :=
  UnderEitherKey settings (e.computeHash pf settings) (orEmpty e.entryHash)

variable {e s r : AuditLog} {rows : List AuditLog}

lemma ValidHash.isAscii (h : ValidHash pf settings e) : isAscii (orEmpty e.entryHash) = true := by
  rcases h with h | ⟨-, h⟩ <;> rw [h] <;> exact isAscii_auditChainHmac _ _

lemma linkMatches_true {prev : Option (Option String)} (hp : ∀ p ∈ prev, isAscii (orEmpty p) = true) :
    linkMatches prev e = .ok true ↔ ∀ p ∈ prev, orEmpty e.prevHash = orEmpty p := by
  cases prev with
  | none => simp [linkMatches]
  | some p =>
    have hp := hp p rfl
    simp only [linkMatches, compareDigest, bind_eq_ok, raiseIf_eq_ok, pure_eq_ok, Option.mem_def,
      Option.some.injEq, forall_eq']
    constructor
    · rintro ⟨-, -, h⟩; exact beq_iff_eq.1 h
    · intro h; exact ⟨(), by simp [h, hp], by simp [h]⟩

lemma checkEntry_ok {w w' : Walk} (hp : ∀ p ∈ w.prev, isAscii (orEmpty p) = true) :
    checkEntry pf settings w e = .ok w' ↔ (∀ p ∈ w.prev, orEmpty e.prevHash = orEmpty p) ∧
      ValidHash pf settings e ∧ w' = ⟨some e.entryHash, w.checked + 1, some e.cursor⟩ := by
  have hm : hashMatches pf settings e = .ok true ↔ ValidHash pf settings e :=
    matchesEitherKey_true fun _ => isAscii_auditChainHmac _ _
  simp only [checkEntry, bind_eq_ok, mapError_eq_ok, raiseIf_eq_ok, pure_eq_ok, Bool.not_eq_eq_eq_not, Bool.not_false]
  rw [← linkMatches_true hp, ← hm]
  constructor
  · rintro ⟨a, ha, -, rfl, b, hb, -, rfl, rfl⟩; exact ⟨ha, hb, rfl⟩
  · rintro ⟨ha, hb, rfl⟩; exact ⟨true, ha, (), rfl, true, hb, (), rfl, rfl⟩

/-! ## The whole walk -/

def Links (a b : AuditLog) : Prop := orEmpty b.prevHash = orEmpty a.entryHash

/-- The rows are linked and every stored hash holds. -/
structure Verified (pf : Platform) (settings : Settings) (rows : List AuditLog) : Prop where
  links : rows.IsChain Links
  hashes : ∀ e ∈ rows, ValidHash pf settings e

lemma walk_ok_iff {w : Walk} (hp : ∀ p ∈ w.prev, isAscii (orEmpty p) = true) :
    (∃ w', rows.foldlM (checkEntry pf settings) w = .ok w') ↔
      (∀ p ∈ w.prev, ∀ e ∈ rows.head?, orEmpty e.prevHash = orEmpty p) ∧ Verified pf settings rows := by
  induction rows generalizing w with
  | nil => simp; exact ⟨.nil, by simp⟩
  | cons e rows ih =>
    simp only [foldlM_cons, bind_eq_ok, checkEntry_ok hp]
    constructor
    · rintro ⟨w', w₁, ⟨hl, hv, rfl⟩, hw⟩
      obtain ⟨hhe, hch, hh⟩ := (ih (by simpa using hv.isAscii)).1 ⟨w', hw⟩
      refine ⟨by simpa using hl, ?_, by simpa using ⟨hv, hh⟩⟩
      rw [isChain_cons]
      exact ⟨fun f hf => hhe _ rfl f hf, hch⟩
    · rintro ⟨hl, hch, hh⟩
      rw [isChain_cons] at hch
      have hv := hh e (by simp)
      obtain ⟨w', hw⟩ := (@ih ⟨some e.entryHash, w.checked + 1, some e.cursor⟩ (by simpa using hv.isAscii)).2
        ⟨by simpa [Links] using hch.1, hch.2, fun f hf => hh f (by simp [hf])⟩
      exact ⟨w', _, ⟨by simpa using hl, hv, rfl⟩, hw⟩

lemma walk_checked {w w' : Walk} (h : rows.foldlM (checkEntry pf settings) w = .ok w') :
    w'.checked = w.checked + rows.length := by
  refine foldlM_ok (fun done v => v.checked = w.checked + done.length) h rfl ?_
  intro done e rest v v' _ hi hv
  simp only [checkEntry, bind_eq_ok, pure_eq_ok] at hv
  obtain ⟨-, -, -, -, -, -, -, -, rfl⟩ := hv
  rw [hi, length_append, length_singleton, Nat.add_assoc]

lemma returned_not_ok {w : Walk} {s : Summary}
    (h : rows.foldlM (checkEntry pf settings) w = .error (.returned s)) : s.ok = false := by
  induction rows generalizing w with
  | nil => cases h
  | cons e rows ih =>
    rw [foldlM_cons, bind_eq_error] at h
    rcases h with h | ⟨w', -, h⟩
    · simp only [checkEntry, bind_eq_error, mapError_eq_error, raiseIf_eq_error, pure_ne_error, and_false,
        exists_false, or_false] at h
      rcases h with ⟨_, -, h⟩ | ⟨_, -, ⟨-, h⟩ | ⟨_, -, ⟨_, -, h⟩ | ⟨_, -, -, h⟩⟩⟩
      · cases h
      · cases h; rfl
      · cases h
      · cases h; rfl
    · exact ih h

/-! ## Pages -/

lemma ordered_perm (rows : List AuditLog) : (ordered rows).Perm rows := mergeSort_perm ..

lemma Uuid.text_ne {a b : Uuid} (h : a ≠ b) : a.text ≠ b.text := by
  intro ht
  obtain ⟨s, hs⟩ := a
  obtain ⟨t, hst⟩ := b
  cases ht
  exact h rfl

lemma isAfter_iff : isAfter r.cursor s = true ↔
    r.createdAt < s.createdAt ∨ (r.createdAt = s.createdAt ∧ r.id.text < s.id.text) := by
  simp only [isAfter, AuditLog.cursor, gt_iff_lt, Bool.or_eq_true, decide_eq_true_eq, Bool.and_eq_true, beq_iff_eq]
  rw [@eq_comm _ s.createdAt]

lemma notAfter_iff : (!isAfter s.cursor r) = true ↔
    r.createdAt < s.createdAt ∨ (r.createdAt = s.createdAt ∧ r.id.text ≤ s.id.text) := by
  rw [Bool.not_eq_true', ← Bool.not_eq_true, isAfter_iff, not_or, not_and, not_lt, not_lt, le_iff_lt_or_eq]
  constructor
  · rintro ⟨hlt | heq, ht⟩
    · exact .inl hlt
    · exact .inr ⟨heq, ht heq.symm⟩
  · rintro (hlt | ⟨heq, ht⟩)
    · exact ⟨.inl hlt, fun heq => absurd heq (ne_of_gt hlt)⟩
    · exact ⟨.inr heq, fun _ => ht⟩

lemma isAfter_of_not (hid : r.id ≠ s.id) (h : (!isAfter s.cursor r) = true) : isAfter r.cursor s = true := by
  rw [isAfter_iff]
  rcases notAfter_iff.1 h with hlt | ⟨heq, ht⟩
  · exact .inl hlt
  · exact .inr ⟨heq, lt_of_le_of_ne ht (Uuid.text_ne hid)⟩

lemma isAfter_asymm (h : isAfter r.cursor s = true) : isAfter s.cursor r = false := by
  cases hs : isAfter s.cursor r with
  | false => rfl
  | true => rw [← not_isAfter_self r, ← isAfter_trans h hs]

def DistinctIds (rows : List AuditLog) : Prop := rows.Pairwise fun r s => r.id ≠ s.id

def InOrder (rows : List AuditLog) : Prop := rows.Pairwise fun r s => isAfter r.cursor s = true

lemma ordered_inOrder (h : DistinctIds rows) : InOrder (ordered rows) := by
  have hid : DistinctIds (ordered rows) := (ordered_perm rows).symm.pairwise h fun hne => hne.symm
  have hs : (ordered rows).Pairwise fun r s => (!isAfter s.cursor r) = true := by
    refine pairwise_mergeSort ?_ ?_ rows
    · intro a b c hab hbc
      rw [notAfter_iff] at hab hbc ⊢
      rcases hab with hab | ⟨hab, hab'⟩ <;> rcases hbc with hbc | ⟨hbc, hbc'⟩
      · exact .inl (hab.trans hbc)
      · exact .inl (hbc ▸ hab)
      · exact .inl (hab ▸ hbc)
      · exact .inr ⟨hab.trans hbc, hab'.trans hbc'⟩
    · intro a b
      rw [Bool.or_eq_true, notAfter_iff, notAfter_iff]
      rcases lt_trichotomy a.createdAt b.createdAt with h | h | h
      · exact .inl (.inl h)
      · rcases le_total a.id.text b.id.text with ht | ht
        · exact .inl (.inr ⟨h, ht⟩)
        · exact .inr (.inr ⟨h.symm, ht⟩)
      · exact .inr (.inl h)
  exact (hid.and hs).imp fun h => isAfter_of_not h.1 h.2

lemma InOrder.ordered_eq (h : InOrder rows) : ordered rows = rows := by
  refine mergeSort_of_pairwise (h.imp fun {r s} hrs => ?_)
  simp [isAfter_asymm hrs]

lemma remainingRows_page {page rest : List AuditLog} {c : Option (Int × Uuid)}
    (hid : DistinctIds rows) (h : remainingRows rows c = page ++ e :: rest) :
    remainingRows rows (some e.cursor) = rest := by
  have hin : InOrder (remainingRows rows c) := (ordered_inOrder hid).filter _
  rw [h] at hin
  obtain ⟨-, hre, hp⟩ := pairwise_append.1 hin
  obtain ⟨ha, -⟩ := pairwise_cons.1 hre
  have he : e ∈ remainingRows rows c := by simp [h]
  rw [remainingRows_of_mem he, h, filter_append, filter_cons]
  have h1 : page.filter (isAfter e.cursor) = [] := by
    rw [filter_eq_nil_iff]
    intro r hr
    rw [isAfter_asymm (hp r hr e (by simp))]
    decide
  rw [h1, not_isAfter_self, filter_eq_self.2 ha]
  rfl

/-- The pages are the rows after the cursor, each once and in order. -/
lemma verifyLoop_eq (hid : DistinctIds rows) {batchSize : Nat} (hb : 1 ≤ batchSize) (w : Walk) :
    verifyLoop pf settings rows none batchSize w = (remainingRows rows w.cursor).foldlM (checkEntry pf settings) w := by
  induction hn : (remainingRows rows w.cursor).length using Nat.strong_induction_on generalizing w with
  | _ n ih =>
    subst hn
    set rem := remainingRows rows w.cursor with hre
    rw [verifyLoop]
    simp only [Option.map_none, reduceCtorEq, if_false, ← hre]
    by_cases hni : rem.take batchSize = []
    · rw [dif_pos hni]
      rcases take_eq_nil_iff.1 hni with h0 | h0
      · omega
      · rw [h0]; rfl
    rw [dif_neg hni]
    split
    · rename_i err he
      conv_rhs => rw [← take_append_drop batchSize rem, foldlM_append, he]
      rfl
    · rename_i w' hw
      have hs : rem.foldlM (checkEntry pf settings) w =
          (rem.drop batchSize).foldlM (checkEntry pf settings) w' := by
        conv_lhs => rw [← take_append_drop batchSize rem, foldlM_append, hw]
        rfl
      rw [hs]
      split_ifs with hsh
      · -- a short page is the last one
        have hen : rem.drop batchSize = [] := by
          rw [length_take] at hsh
          exact drop_eq_nil_of_le (by omega)
        rw [hen]
        rfl
      · obtain ⟨page, e, hp⟩ := (eq_nil_or_concat (rem.take batchSize)).resolve_left hni
        have hc : w'.cursor = some e.cursor := by
          rw [cursor_of_page hw, ← hre, hp]
          simp
        have hr : remainingRows rows w.cursor = page ++ e :: rem.drop batchSize := by
          rw [← concat_append, ← hp, take_append_drop]
        rw [ih _ (remainingRows_lt rfl hni hw) w' rfl, hc, remainingRows_page hid hr]

/-! ## The verdict -/

/-- The high-water row is signed and its count is not above the row count. -/
def HighWaterOk (pf : Platform) (settings : Settings) (db : Db) : Prop :=
  ∀ state ∈ db.highWater,
    UnderEitherKey settings (signHighWater pf settings state.entryCount state.headHash) state.stateHmac ∧
      state.entryCount ≤ db.rows.length

lemma highWaterSignatureValid_true {state : AuditChainState} :
    highWaterSignatureValid pf settings state = .ok true ↔
      UnderEitherKey settings (signHighWater pf settings state.entryCount state.headHash) state.stateHmac :=
  matchesEitherKey_true fun _ => isAscii_auditChainHmac _ _

lemma checkHighWater_ok {db : Db} :
    (∃ hw, checkHighWater pf settings db = .ok hw ∧ hw.ok = true) ↔ HighWaterOk pf settings db := by
  unfold checkHighWater HighWaterOk
  cases db.highWater with
  | none => simp
  | some state =>
    simp only [bind_eq_ok, Option.mem_def, Option.some.injEq, forall_eq', ← highWaterSignatureValid_true]
    constructor
    · rintro ⟨hw, ⟨valid, hv, h⟩, hok⟩
      rcases ite_eq_iff.1 h with ⟨-, h⟩ | ⟨hvt, h⟩
      · cases pure_eq_ok.1 h; cases hok
      rcases ite_eq_iff.1 h with ⟨-, h⟩ | ⟨hlt, -⟩
      · cases pure_eq_ok.1 h; cases hok
      · obtain rfl : valid = true := by simpa using hvt
        exact ⟨hv, not_lt.1 hlt⟩
    · rintro ⟨hv, hle⟩
      refine ⟨⟨true, true, none, some state.entryCount, countAuditRows db⟩, ⟨true, hv, ?_⟩, rfl⟩
      have hlt : ¬ countAuditRows db < state.entryCount := not_lt.2 hle
      rw [if_neg (by decide), if_neg hlt, pure_eq_ok]

lemma verifyLoop_start (hid : DistinctIds rows) {batchSize : Nat} (hb : 1 ≤ batchSize) :
    verifyLoop pf settings rows none batchSize {} = (ordered rows).foldlM (checkEntry pf settings) {} := by
  have hr : remainingRows rows none = ordered rows := filter_eq_self.2 fun _ _ => rfl
  rw [verifyLoop_eq hid hb, hr]

/-- What a report of `ok` means. -/
lemma verifyChain_sound {db : Db} (hid : DistinctIds db.rows) {batchSize : Nat} (hb : 1 ≤ batchSize) {s : Summary}
    (h : verifyChain pf settings db none batchSize = .ok s) (hok : s.ok = true) :
    Verified pf settings (ordered db.rows) ∧ HighWaterOk pf settings db := by
  unfold verifyChain at h
  rw [verifyLoop_start hid hb] at h
  split at h
  · cases h
  · rename_i s' hs
    cases h
    rw [returned_not_ok hs] at hok
    cases hok
  · rename_i w hw
    simp only [Option.isSome_none, Bool.false_eq_true, if_false, bind_eq_ok, pure_eq_ok] at h
    obtain ⟨hwc, hhw, rfl⟩ := h
    refine ⟨((walk_ok_iff (by simp)).1 ⟨w, hw⟩).2, checkHighWater_ok.1 ⟨hwc, hhw, ?_⟩⟩
    cases hk : hwc.ok with
    | true => rfl
    | false => simp [hk] at hok

/-- A linked and signed table is reported as such, with every row counted. -/
lemma verifyChain_complete {db : Db} (hid : DistinctIds db.rows) {batchSize : Nat} (hb : 1 ≤ batchSize)
    (hv : Verified pf settings (ordered db.rows)) (hw : HighWaterOk pf settings db) :
    verifyChain pf settings db none batchSize = .ok ⟨db.rows.length, true, none, none⟩ := by
  obtain ⟨w, hwa⟩ := (@walk_ok_iff pf settings (ordered db.rows) {} (by simp)).2 ⟨by simp, hv⟩
  have hc : w.checked = db.rows.length := by
    rw [walk_checked hwa, (ordered_perm db.rows).length_eq, Nat.zero_add]
  obtain ⟨hwc, hhw, hok⟩ := checkHighWater_ok.2 hw
  unfold verifyChain
  rw [verifyLoop_start hid hb, hwa]
  simp only [Option.isSome_none, Bool.false_eq_true, if_false, bind_eq_ok, pure_eq_ok]
  exact ⟨hwc, hhw, by rw [if_pos hok, hc]⟩

end

end AgentWallet.Audit
