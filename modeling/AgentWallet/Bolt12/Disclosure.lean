import AgentWallet.Lib.Lists
import AgentWallet.Bolt12.Signing
/-!
# Selective disclosure

A proof reveals some records of a signed stream and gives one hash for each of
the others; the verifier puts them back in the order of a schema and folds them
to a root. The prover chooses the nonce tag, the revealed records and the hashes,
which may have any length. `revealed_mem_of_root` holds nevertheless: a subtree
with a revealed record has a root of 32 bytes, so the length of a branch input
fixes that of its sibling, and the tags do the rest. A proof that `build_proof` makes
is judged like the signature of the whole stream (`verifyProof_buildProof`).
-/

namespace AgentWallet.Bolt12

open AgentWallet.Lib List Except Option Prod

/-- One hash for an omitted record; `side` is informational. -/
structure ProofStep where
  side : String
  hashHex : String

structure RevealedRecord where
  type : ℤ
  valueHex : String

structure SelectiveDisclosureProof where
  revealed : List RevealedRecord
  omittedPairedHashes : List ProofStep
  firstTlvEncodingHex : String
  messageName : String
  fieldName : String

def bytesFromhex (s : String) : Except Exn Bytes :=
  match fromHex s with
  | .ok b => .ok b
  | .error i => .error (.valueError s!"non-hexadecimal number found in fromhex() arg at position {i}")

/-- `to_record`. A negative type is refused where the record is encoded. -/
def RevealedRecord.toRecord (rev : RevealedRecord) : Except Exn TLVRecord := do
  let value ← bytesFromhex rev.valueHex
  if rev.type < 0 then .error (.valueError "BigSize values must be non-negative")
  else return ⟨rev.type.toNat, value⟩

section Verify

variable (sha256 : Bytes → Bytes)

/-- The loop over the schema: the nodes in stream order and the hashes left
over. `none` is an early `return False`. -/
def splice (nonceTag : Bytes) (revealed : List RevealedRecord) :
    List ℤ → List ProofStep → Except Exn (Option (List Bytes × List ProofStep))
  | [], omitted => .ok (some ([], omitted))
  | t :: types, omitted =>
    if isSignatureType t.toNat then .ok none
    else match revealed.find? (·.type = t) with
      | some rev => do
        let r ← rev.toRecord
        let node ← pairedNode sha256 nonceTag r
        let after ← splice nonceTag revealed types omitted
        return after.map fun (paired, left) => (node :: paired, left)
      | none =>
        match omitted with
        | [] => .ok none
        | step :: omitted =>
          match bytesFromhex step.hashHex with
          | .error _ => .ok none
          | .ok node => do
            let after ← splice nonceTag revealed types omitted
            return after.map fun (paired, left) => (node :: paired, left)

/-- The root that `verify_proof` reconstructs for a schema, `none` where it
returns `False` before it has one. -/
def reconstructRoot (proof : SelectiveDisclosureProof) (types : List ℤ) : Except Exn (Option Bytes) := do
  let firstEncoding ← bytesFromhex proof.firstTlvEncodingHex
  if firstEncoding = [] then return none
  let nonceTag := lnNonce ++ firstEncoding
  if ¬ (proof.revealed.map (·.type)).Nodup then return none
  match ← splice sha256 nonceTag proof.revealed types proof.omittedPairedHashes with
  | none => return none
  | some (paired, left) =>
    if left ≠ [] then return none
    else if ¬ proof.revealed.all (types.contains ·.type) then return none
    else if paired = [] then return none
    else
      let root ← fold sha256 paired
      return some root

def verifyProof (schnorr : Schnorr) (proof : SelectiveDisclosureProof) (types : List ℤ)
    (pubkey33 signature64 : Bytes) : Except Exn Bool := do
  if pubkey33.length ≠ 33 then return false
  if signature64.length ≠ 64 then return false
  match ← reconstructRoot sha256 proof types with
  | none => return false
  | some root =>
    let digest ← signatureMessageHash sha256 proof.messageName proof.fieldName root
    return verifyBip340 schnorr pubkey33 digest signature64

/-- The `(tag, message)` inputs of the hashes computed for the root of a proof. -/
def proofInputs (proof : SelectiveDisclosureProof) (types : List ℤ) : List (Bytes × Bytes) :=
  match bytesFromhex proof.firstTlvEncodingHex with
  | .error _ => []
  | .ok firstEncoding =>
    let nonceTag := lnNonce ++ firstEncoding
    let records := proof.revealed.filterMap fun rev => rev.toRecord.toOption
    records.flatMap (pairedInputs sha256 nonceTag) ++
      match splice sha256 nonceTag proof.revealed types proof.omittedPairedHashes with
      | .ok (some (paired, _)) => foldInputs sha256 paired
      | _ => []

/-! ## The nodes of a proof -/

/-- The node of a revealed record, or the hash given for an omitted one. -/
def itemNode (nonceTag : Bytes) : TLVRecord ⊕ Bytes → Bytes
  | .inl r => (pairedNode sha256 nonceTag r).toOption.getD []
  | .inr hash => hash

variable {types : List ℤ} {proof : SelectiveDisclosureProof}

/-- The loop puts a node for every revealed record whose type is in the schema. -/
lemma splice_ok {nonceTag : Bytes} {revealed : List RevealedRecord} {omitted left : List ProofStep}
    {paired : List Bytes} (h : splice sha256 nonceTag revealed types omitted = .ok (some (paired, left))) :
    ∃ items : List (TLVRecord ⊕ Bytes), paired = items.map (itemNode sha256 nonceTag) ∧
      (∀ r, .inl r ∈ items → (∃ rev ∈ revealed, rev.toRecord = .ok r) ∧
        pairedNode sha256 nonceTag r = .ok (itemNode sha256 nonceTag (.inl r))) ∧
      ∀ t ∈ types, ∀ rev, revealed.find? (·.type = t) = some rev →
        ∃ r, rev.toRecord = .ok r ∧ .inl r ∈ items := by
  induction types generalizing omitted paired with
  | nil =>
    simp only [splice, ok.injEq, some.injEq, mk.injEq] at h
    exact ⟨[], by simp [← h.1], by simp, by simp⟩
  | cons t types ih =>
    unfold splice at h
    by_cases hs : isSignatureType t.toNat = true
    · simp [hs] at h
    rw [if_neg hs] at h
    cases hf : revealed.find? (·.type = t) with
    | some rev =>
      simp only [hf, bind_eq_ok, pure_eq_ok, Option.map_eq_some_iff, mk.injEq, Prod.exists] at h
      obtain ⟨r, hr, node, hn, after, ha, paired', left', rfl, rfl, rfl⟩ := h
      obtain ⟨items, rfl, hin, hal⟩ := ih ha
      have hi : itemNode sha256 nonceTag (.inl r) = node := by simp [itemNode, hn, Except.toOption]
      refine ⟨.inl r :: items, by simp [hi], fun r' hr' => ?_, fun t' ht' rev' hre' => ?_⟩
      · rcases mem_cons.1 hr' with e | hr'
        · obtain rfl : r' = r := by simpa using e
          exact ⟨⟨rev, mem_of_find?_eq_some hf, hr⟩, hi ▸ hn⟩
        · exact hin r' hr'
      · rcases mem_cons.1 ht' with rfl | ht'
        · obtain rfl : rev = rev' := some.inj (hf.symm.trans hre')
          exact ⟨r, hr, mem_cons_self⟩
        · obtain ⟨r', hr', hm⟩ := hal t' ht' rev' hre'
          exact ⟨r', hr', mem_cons_of_mem _ hm⟩
    | none =>
      cases omitted with
      | nil => simp [hf] at h
      | cons step omitted =>
        cases hh : bytesFromhex step.hashHex with
        | error e => simp [hf, hh] at h
        | ok node =>
          simp only [hf, hh, bind_eq_ok, pure_eq_ok, Option.map_eq_some_iff, mk.injEq, Prod.exists] at h
          obtain ⟨after, ha, paired', left', rfl, rfl, rfl⟩ := h
          obtain ⟨items, rfl, hin, hal⟩ := ih ha
          refine ⟨.inr node :: items, by simp [itemNode], fun r' hr' => ?_, fun t' ht' rev' hre' => ?_⟩
          · exact hin r' (by simpa using hr')
          rcases mem_cons.1 ht' with rfl | ht'
          · simp [hf] at hre'
          · obtain ⟨r', hr', hm⟩ := hal t' ht' rev' hre'
            exact ⟨r', hr', mem_cons_of_mem _ hm⟩

lemma reconstructRoot_cases {root : Bytes} (h : reconstructRoot sha256 proof types = .ok (some root)) :
    ∃ first paired, bytesFromhex proof.firstTlvEncodingHex = .ok first ∧ (proof.revealed.map (·.type)).Nodup ∧
      splice sha256 (lnNonce ++ first) proof.revealed types proof.omittedPairedHashes = .ok (some (paired, [])) ∧
      (∀ rev ∈ proof.revealed, rev.type ∈ types) ∧ paired ≠ [] ∧ fold sha256 paired = .ok root := by
  simp only [reconstructRoot, bind_eq_ok] at h
  obtain ⟨first, hf, h⟩ := h
  by_cases he : first = []
  · simp [he, pure_eq_ok] at h
  by_cases hn : (proof.revealed.map (·.type)).Nodup
  · simp only [he, if_false, hn, not_true_eq_false, bind_eq_ok] at h
    obtain ⟨sp, hsp, h⟩ := h
    cases sp with
    | none => simp [pure_eq_ok] at h
    | some sp =>
      obtain ⟨paired, left⟩ := sp
      dsimp only at h
      split_ifs at h with hl ha hp
      · simp [pure_eq_ok] at h
      · simp [pure_eq_ok] at h
      · simp only [bind_eq_ok, pure_eq_ok, some.injEq] at h
        obtain ⟨root', hr, rfl⟩ := h
        rw [not_not] at hl
        subst hl
        exact ⟨first, paired, hf, hn, hsp, by simpa using ha, hp, hr⟩
      · simp [pure_eq_ok] at h
  · simp [he, hn, pure_eq_ok] at h

/-- A reconstructed root is the root of a tree over the revealed records and the
given hashes, in which every revealed record is a leaf. -/
lemma reconstructRoot_ok {root : Bytes} (h : reconstructRoot sha256 proof types = .ok (some root)) :
    ∃ (f : TLVRecord ⊕ Bytes → Bytes) (t : HashTree (TLVRecord ⊕ Bytes)), t.root f (branch sha256) = root ∧
      (∀ p ∈ t.joins f (branch sha256), branchInput p ∈ proofInputs sha256 proof types) ∧
      (∀ r, .inl r ∈ t.leaves → NodeOf sha256 (proofInputs sha256 proof types) r (f (.inl r))) ∧
      ∀ rev ∈ proof.revealed, ∃ r, rev.toRecord = .ok r ∧ .inl r ∈ t.leaves := by
  obtain ⟨first, paired, hfi, hn, hs, ht, hne, hf⟩ := reconstructRoot_cases sha256 h
  have hI : proofInputs sha256 proof types =
      (proof.revealed.filterMap fun rev => rev.toRecord.toOption).flatMap (pairedInputs sha256 (lnNonce ++ first)) ++
        foldInputs sha256 paired := by
    simp only [proofInputs, hfi, hs]
  obtain ⟨items, rfl, hin, ha⟩ := splice_ok sha256 hs
  obtain ⟨t, hl, hro, hj⟩ := fold_eq sha256 (itemNode sha256 (lnNonce ++ first)) items (by simpa using hne)
  rw [hro, ok.injEq] at hf
  refine ⟨_, t, hf, fun p hp => ?_, fun r hr => ?_, fun rev hre => ?_⟩
  · rw [hI, hj]
    exact mem_append_right _ (mem_map_of_mem hp)
  · rw [hl] at hr
    obtain ⟨⟨rev, hre, hrec⟩, hno⟩ := hin r hr
    refine (pairedNode_ok hno).mono fun i hi => ?_
    rw [hI]
    refine mem_append_left _ (mem_flatMap.2 ⟨r, mem_filterMap.2 ⟨rev, hre, ?_⟩, hi⟩)
    simp [hrec, Except.toOption]
  · rw [hl]
    refine ha rev.type (ht rev hre) rev ?_
    -- The types are distinct, so the dictionary gives back this record.
    exact find?_of_nodup_map (·.type) hn hre

end Verify

/-! ## Soundness -/

section Soundness

variable {sha256 : Bytes → Bytes} (hlen : ∀ x, (sha256 x).length = 32)
include hlen

/-- If the root reconstructed from a proof, for any schema, is the Merkle root of
a stream, then every revealed record is in the stream, unless two of the inputs
hashed for the two roots collide. -/
theorem revealed_mem_of_root {rs : List TLVRecord} {proof : SelectiveDisclosureProof} {types : List ℤ}
    {root : Bytes} (hrs : merkleRoot sha256 rs = .ok root)
    (hproof : reconstructRoot sha256 proof types = .ok (some root)) :
    (∀ rev ∈ proof.revealed, ∃ r ∈ rs, rev.toRecord = .ok r) ∨
      Collision sha256 (merkleInputs sha256 rs ++ proofInputs sha256 proof types) := by
  refine or_iff_not_imp_right.2 fun hno rev hm => ?_
  obtain ⟨f, t, rfl, hj, hn, hre⟩ := reconstructRoot_ok sha256 hproof
  obtain ⟨r, hr, hl⟩ := hre rev hm
  have hin := subset_append_right (merkleInputs sha256 rs) (proofInputs sha256 proof types)
  have hs := mem_nonSig_of_root hlen hno (subset_append_left _ _) hrs (fun p hp => hin (hj p hp)) hl
    ((hn r hl).mono hin)
  exact ⟨r, mem_of_mem_filter hs, hr⟩

end Soundness

/-- A stream of one record and the proof that reveals it. -/
theorem revealed_mem_of_root_one : ∃ root,
    merkleRoot Sha256.sha256 [⟨10, [0x61]⟩] = .ok root ∧
    reconstructRoot Sha256.sha256 ⟨[⟨10, "61"⟩], [], "0a0161", "offer", "signature"⟩ [10] = .ok (some root) ∧
    ((∀ rev ∈ [RevealedRecord.mk 10 "61"], ∃ r ∈ [TLVRecord.mk 10 [0x61]], rev.toRecord = .ok r) ∨
      Collision Sha256.sha256 (merkleInputs Sha256.sha256 [⟨10, [0x61]⟩] ++
        proofInputs Sha256.sha256 ⟨[⟨10, "61"⟩], [], "0a0161", "offer", "signature"⟩ [10])) := by
  obtain ⟨root, h⟩ := @exists_merkleRoot Sha256.sha256 [⟨10, [0x61]⟩] (by decide) (by decide)
  have h' : reconstructRoot Sha256.sha256 ⟨[⟨10, "61"⟩], [], "0a0161", "offer", "signature"⟩ [10] = .ok (some root) := by
    have hm : reconstructRoot Sha256.sha256 ⟨[⟨10, "61"⟩], [], "0a0161", "offer", "signature"⟩ [10] =
        (merkleRoot Sha256.sha256 [⟨10, [0x61]⟩]).map some := rfl
    rw [hm, h]
    rfl
  exact ⟨root, h, h', revealed_mem_of_root Sha256.length_sha256 h h'⟩

/-! ## Completeness -/

section Build

variable (sha256 : Bytes → Bytes)

def reveal (r : TLVRecord) : RevealedRecord := ⟨r.type, hexdigest r.value⟩

/-- The loop appends each record that is not a signature to one of two lists. -/
def buildProof (records : List TLVRecord) (revealTypes : List ℤ) (messageName fieldName : String) :
    Except Exn SelectiveDisclosureProof :=
  match nonSig records with
  | [] => .error (.valueError "selective disclosure: no non-signature records")
  | first :: rest => do
    let firstEncoding ← first.encode
    let (shown, hidden) := (first :: rest).partition fun r => (r.type : ℤ) ∈ revealTypes
    let omitted ← hidden.mapM (pairedNode sha256 (lnNonce ++ firstEncoding))
    return ⟨shown.map reveal, omitted.map fun node => ⟨"R", hexdigest node⟩, hexdigest firstEncoding, messageName, fieldName⟩

variable {sha256}

lemma toRecord_reveal (r : TLVRecord) : (reveal r).toRecord = .ok r := by
  simp [RevealedRecord.toRecord, reveal, bytesFromhex, fromHex_hexdigest, bind, Except.bind, pure, Except.pure,
    (Int.natCast_nonneg r.type).not_gt]

/-- The verifier puts the nodes back in the order of the stream. -/
lemma splice_reveal {nonceTag : Bytes} {revealed : List RevealedRecord} {shown : TLVRecord → Bool} {f : TLVRecord → Bytes}
    {rs : List TLVRecord} (hf : ∀ r ∈ rs, pairedNode sha256 nonceTag r = .ok (f r))
    (hs : ∀ r ∈ rs, isSignatureType r.type = false)
    (hr : ∀ r ∈ rs, revealed.find? (·.type = (r.type : ℤ)) = if shown r then some (reveal r) else none) :
    splice sha256 nonceTag revealed (rs.map fun r => (r.type : ℤ))
      ((rs.filter fun r => !shown r).map fun r => ⟨"R", hexdigest (f r)⟩) = .ok (some (rs.map f, [])) := by
  induction rs with
  | nil => rfl
  | cons r rs ih =>
    simp only [forall_mem_cons] at hf hs hr
    have ih := ih hf.2 hs.2 hr.2
    cases hsh : shown r <;>
      simp [splice, hs.1, hr.1, hsh, toRecord_reveal, hf.1, ih, bytesFromhex, fromHex_hexdigest, bind, Except.bind, pure,
        Except.pure]

variable {rs : List TLVRecord}

lemma buildProof_eq {first : TLVRecord} {rest : List TLVRecord} {x : Bytes} {f : TLVRecord → Bytes}
    (hns : nonSig rs = first :: rest) (hx : first.encode = .ok x)
    (hf : ∀ r ∈ nonSig rs, pairedNode sha256 (lnNonce ++ x) r = .ok (f r)) (revealTypes : List ℤ)
    (messageName fieldName : String) : buildProof sha256 rs revealTypes messageName fieldName = .ok
      ⟨((nonSig rs).filter fun r => (r.type : ℤ) ∈ revealTypes).map reveal,
        ((nonSig rs).filter fun r => !decide ((r.type : ℤ) ∈ revealTypes)).map fun r => ⟨"R", hexdigest (f r)⟩,
        hexdigest x, messageName, fieldName⟩ := by
  rw [hns] at hf ⊢
  have hm := mapM_eq fun r hr => hf r (mem_of_mem_filter (p := fun r => !decide ((r.type : ℤ) ∈ revealTypes)) hr)
  simp only [buildProof, hns, hx, partition_eq_filter_filter, Function.comp_def, hm, List.map_map, bind, Except.bind, pure,
    Except.pure]

variable (hc : Canonical rs)
include hc

lemma nodup_nonSig : ((nonSig rs).map (·.type)).Nodup :=
  pairwise_map.2 ((hc.1.filter _).imp fun h => Nat.ne_of_lt h)

lemma nodup_revealed (shown : TLVRecord → Bool) : ((((nonSig rs).filter shown).map reveal).map (·.type)).Nodup := by
  simp only [Nodup, pairwise_map, reveal, ne_eq, Int.ofNat_inj]
  exact (pairwise_map.1 (nodup_nonSig hc)).filter _

lemma find?_revealed (shown : TLVRecord → Bool) {r : TLVRecord} (hr : r ∈ nonSig rs) :
    (((nonSig rs).filter shown).map reveal).find? (·.type = (r.type : ℤ)) =
      if shown r then some (reveal r) else none := by
  split_ifs with hs
  · exact find?_of_nodup_map RevealedRecord.type (nodup_revealed hc shown) (mem_map_of_mem (mem_filter.2 ⟨hr, hs⟩))
  · rw [find?_eq_none]
    intro _ hm he
    obtain ⟨r', hr', rfl⟩ := mem_map.1 hm
    rw [mem_filter] at hr'
    obtain rfl := inj_on_of_nodup_map (nodup_nonSig hc) hr'.1 hr (by simpa [reveal] using he)
    exact hs hr'.2

variable (sha256) in
/-- A proof that the prover makes has the root of the stream. -/
lemma reconstructRoot_buildProof (hne : nonSig rs ≠ []) (revealTypes : List ℤ) (messageName fieldName : String) :
    ∃ proof root, buildProof sha256 rs revealTypes messageName fieldName = .ok proof ∧
      proof.revealed = ((nonSig rs).filter fun r => (r.type : ℤ) ∈ revealTypes).map reveal ∧
      proof.messageName = messageName ∧ proof.fieldName = fieldName ∧ merkleRoot sha256 rs = .ok root ∧
      reconstructRoot sha256 proof ((nonSig rs).map fun r => (r.type : ℤ)) = .ok (some root) := by
  have hsig : ∀ r ∈ nonSig rs, isSignatureType r.type = false := by simp [nonSig]
  have hfit : ∀ r ∈ nonSig rs, r.Fits := fun r hr => hc.2 r (mem_of_mem_filter hr)
  obtain ⟨root, hroot⟩ := exists_merkleRoot sha256 hne hfit
  obtain ⟨first, rest, hns⟩ := exists_cons_of_ne_nil hne
  have hroot' := hroot
  rw [merkleRoot, hns] at hroot'
  simp only [bind_eq_ok] at hroot'
  obtain ⟨x, hx, paired, hp, hfold⟩ := hroot'
  obtain ⟨f, hf, rfl⟩ := mapM_ok hp
  rw [← hns] at hf hfold
  have hb := buildProof_eq hns hx hf revealTypes messageName fieldName
  refine ⟨_, root, hb, rfl, rfl, rfl, hroot, ?_⟩
  have hs := splice_reveal hf hsig fun r => find?_revealed hc (fun r => (r.type : ℤ) ∈ revealTypes)
  have hx0 : x ≠ [] := length_pos_iff.1 (TLVRecord.encode_length_pos hx)
  have hall : (((nonSig rs).filter fun r => (r.type : ℤ) ∈ revealTypes).map reveal).all
      (((nonSig rs).map fun r => (r.type : ℤ)).contains ·.type) := by
    simp only [List.all_map, List.all_eq_true, mem_filter, Function.comp_apply, reveal, contains_iff_mem]
    exact fun r hr => mem_map_of_mem hr.1
  simp only [reconstructRoot, bytesFromhex, fromHex_hexdigest, hs, hx0, nodup_revealed hc, hfold, hall, map_eq_nil_iff, hne,
    bind, Except.bind, pure, Except.pure, not_true_eq_false, if_false, ne_eq]

/-- The verdict on a proof is the verdict on the signature of the whole stream. -/
theorem verifyProof_buildProof (hl : ∀ x, (sha256 x).length = 32) (hne : nonSig rs ≠ []) (hrp : Hrp)
    (revealTypes : List ℤ) : ∃ proof digest, buildProof sha256 rs revealTypes hrp.messageName "signature" = .ok proof ∧
      proof.revealed = ((nonSig rs).filter fun r => (r.type : ℤ) ∈ revealTypes).map reveal ∧
      Bolt12String.signatureDigest sha256 ⟨hrp, rs⟩ = .ok digest ∧
      ∀ schnorr pubkey33 signature64,
        verifyProof sha256 schnorr proof ((nonSig rs).map fun r => (r.type : ℤ)) pubkey33 signature64 =
          .ok (verifyBip340 schnorr pubkey33 digest signature64) := by
  obtain ⟨proof, root, hb, hrev, hm, hf, hroot, hre⟩ :=
    reconstructRoot_buildProof sha256 hc hne revealTypes hrp.messageName "signature"
  obtain ⟨digest, hd, -⟩ := exists_signatureDigest hl hrp hne fun r hr => hc.2 r (mem_of_mem_filter hr)
  refine ⟨proof, digest, hb, hrev, hd, fun schnorr pubkey33 signature64 => ?_⟩
  have hmsg : signatureMessageHash sha256 proof.messageName proof.fieldName root = .ok digest := by
    rw [Bolt12String.signatureDigest, hroot] at hd
    rw [hm, hf]
    exact hd
  by_cases hp : pubkey33.length = 33
  · by_cases hs : signature64.length = 64
    · simp [verifyProof, hp, hs, hre, hmsg, bind, Except.bind, pure, Except.pure]
    · simp [verifyProof, verifyBip340, hp, hs, pure, Except.pure]
  · have hk : verifyBip340 schnorr pubkey33 digest signature64 = false := by
      simp [verifyBip340, xonlyFromCompressed, hp]
    simp [verifyProof, hp, hk, pure, Except.pure]

end Build

/-- Two of three records are shown. -/
theorem verifyProof_buildProof_three : Canonical [⟨8, [1]⟩, ⟨10, [0x61]⟩, ⟨22, [2, 3]⟩, ⟨240, [9]⟩] ∧
    ∃ proof digest, buildProof Sha256.sha256 [⟨8, [1]⟩, ⟨10, [0x61]⟩, ⟨22, [2, 3]⟩, ⟨240, [9]⟩] [10, 22, 240]
      Hrp.lno.messageName "signature" = .ok proof ∧ proof.revealed = [⟨10, "61"⟩, ⟨22, "0203"⟩] ∧
      Bolt12String.signatureDigest Sha256.sha256 ⟨.lno, [⟨8, [1]⟩, ⟨10, [0x61]⟩, ⟨22, [2, 3]⟩, ⟨240, [9]⟩]⟩ = .ok digest ∧
      ∀ schnorr pubkey33 signature64, verifyProof Sha256.sha256 schnorr proof [8, 10, 22] pubkey33 signature64 =
        .ok (verifyBip340 schnorr pubkey33 digest signature64) :=
  have hc : Canonical [⟨8, [1]⟩, ⟨10, [0x61]⟩, ⟨22, [2, 3]⟩, ⟨240, [9]⟩] := by decide
  ⟨hc, verifyProof_buildProof hc Sha256.length_sha256 (by decide) .lno [10, 22, 240]⟩

end AgentWallet.Bolt12
