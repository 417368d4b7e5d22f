import AgentWallet.Lib.HashTree
import AgentWallet.Lib.Levels
import AgentWallet.Lib.Sha256
import AgentWallet.Bolt12.Tlv
/-!
# The Merkle root of a TLV stream

Every non-signature record gives a leaf hash and a nonce hash, which `branch`
joins to a node; `fold` joins the nodes to the root. The proof of
`merkleRoot_binds` reads `fold` as the root of a tree over the records
(`fold_eq`) and uses the binding lemma of `Lib.HashTree`: the tags keep leaves,
nonces and branches apart, and a branch hashes its two children in order of
their bytes, so equal branches have the same two children. `fold_eq_levels`: the split
of `fold` gives the tree that the standard builds level by level.
-/

namespace AgentWallet.Bolt12

open AgentWallet.Lib List

def lnLeaf : Bytes := utf8 "LnLeaf"
def lnNonce : Bytes := utf8 "LnNonce"
def lnBranch : Bytes := utf8 "LnBranch"

/-- The two byte strings one after the other, the smaller one first. -/
def orderedPair (a b : Bytes) : Bytes := if a ≤ b then a ++ b else b ++ a

/-- The largest power of two up to `n`, doubling `pow2` from 1. -/
def growPow2 (n pow2 : Nat) : Nat :=
  if 0 < pow2 ∧ pow2 * 2 ≤ n then growPow2 n (pow2 * 2) else pow2
termination_by n - pow2

/-- Where `fold` splits a list of `n` nodes. -/
def splitPoint (n : Nat) : Nat :=
  let pow2 := growPow2 n 1
  if pow2 = n then n / 2 else pow2

lemma growPow2_bounds (n p : Nat) (hp : 0 < p) (h : p ≤ n) : p ≤ growPow2 n p ∧ growPow2 n p ≤ n := by
  induction p using growPow2.induct n with
  | case1 p hlt ih =>
    rw [growPow2, if_pos hlt]
    have := ih (by omega) hlt.2
    omega
  | case2 p hge => rw [growPow2, if_neg hge]; exact ⟨le_refl _, h⟩

lemma splitPoint_bounds {n : Nat} (h : 2 ≤ n) : 0 < splitPoint n ∧ splitPoint n < n := by
  have hb := growPow2_bounds n 1 (by omega) (by omega)
  simp only [splitPoint]
  split_ifs <;> omega

section Hash

variable (sha256 : Bytes → Bytes)

def taggedHash (tag msg : Bytes) : Bytes :=
  let th := sha256 tag
  sha256 (th ++ th ++ msg)

def branch (a b : Bytes) : Bytes := taggedHash sha256 lnBranch (orderedPair a b)

def pairWithNonce (leaf nonce : Bytes) : Bytes := branch sha256 leaf nonce

def fold (nodes : List Bytes) : Except Exn Bytes :=
  match nodes with
  | [] => .error (.valueError "merkle: empty node list")
  | [x] => .ok x
  | x :: y :: rest => do
    let nodes := x :: y :: rest
    let left ← fold (nodes.take (splitPoint nodes.length))
    let right ← fold (nodes.drop (splitPoint nodes.length))
    return branch sha256 left right
termination_by nodes.length
decreasing_by
  all_goals
    have hb := splitPoint_bounds (n := (x :: y :: rest).length) (by simp)
    simp only [List.length_take, List.length_drop]
    omega

def pairedNode (nonceTag : Bytes) (r : TLVRecord) : Except Exn Bytes := do
  let enc ← r.encode
  let ty ← r.typeBytes
  return pairWithNonce sha256 (taggedHash sha256 lnLeaf enc) (taggedHash sha256 nonceTag ty)

def nonSig (records : List TLVRecord) : List TLVRecord := records.filter fun r => !isSignatureType r.type

def merkleRoot (records : List TLVRecord) : Except Exn Bytes :=
  match nonSig records with
  | [] => .error (.valueError "merkle: no non-signature TLV records")
  | first :: rest => do
    let firstTlvEncoding ← first.encode
    let nonceTag := lnNonce ++ firstTlvEncoding
    let paired ← (first :: rest).mapM (pairedNode sha256 nonceTag)
    fold sha256 paired

def signatureMessageHash (messageName fieldName : String) (root : Bytes) : Except Exn Bytes :=
  if root.length ≠ 32 then .error (.valueError "merkle root must be 32 bytes")
  else if ¬ (messageName.toList ++ fieldName.toList).all (·.toNat < 128) then .error .unicodeEncodeError
  else .ok (taggedHash sha256 (utf8 "lightning" ++ utf8 messageName ++ utf8 fieldName) root)

/-! ## The inputs of the hashes -/

/-- The inputs of the branches `fold` computes. -/
def foldInputs (nodes : List Bytes) : List (Bytes × Bytes) :=
  match nodes with
  | [] => []
  | [_] => []
  | x :: y :: rest =>
    let nodes := x :: y :: rest
    let left := nodes.take (splitPoint nodes.length)
    let right := nodes.drop (splitPoint nodes.length)
    let top := match fold sha256 left, fold sha256 right with
      | .ok l, .ok r => [(lnBranch, orderedPair l r)]
      | _, _ => []
    foldInputs left ++ foldInputs right ++ top
termination_by nodes.length
decreasing_by
  all_goals
    have hb := splitPoint_bounds (n := (x :: y :: rest).length) (by simp)
    simp only [List.length_take, List.length_drop]
    omega

def pairedInputs (nonceTag : Bytes) (r : TLVRecord) : List (Bytes × Bytes) :=
  match r.encode, r.typeBytes with
  | .ok enc, .ok ty =>
    [(lnLeaf, enc), (nonceTag, ty),
      (lnBranch, orderedPair (taggedHash sha256 lnLeaf enc) (taggedHash sha256 nonceTag ty))]
  | _, _ => []

/-- The `(tag, message)` inputs of all tagged hashes computed for the root of `records`. -/
def merkleInputs (records : List TLVRecord) : List (Bytes × Bytes) :=
  match nonSig records with
  | [] => []
  | first :: rest =>
    match first.encode with
    | .error _ => []
    | .ok firstTlvEncoding =>
      let nonceTag := lnNonce ++ firstTlvEncoding
      (first :: rest).flatMap (pairedInputs sha256 nonceTag) ++
        match (first :: rest).mapM (pairedNode sha256 nonceTag) with
        | .ok paired => foldInputs sha256 paired
        | .error _ => []

/-- Two distinct inputs among `inputs` with one tagged hash. -/
def Collision (inputs : List (Bytes × Bytes)) : Prop :=
  ∃ x ∈ inputs, ∃ y ∈ inputs, x ≠ y ∧ taggedHash sha256 x.1 x.2 = taggedHash sha256 y.1 y.2

end Hash

/-! ## Equal hashes -/

@[simp] lemma length_orderedPair (a b : Bytes) : (orderedPair a b).length = a.length + b.length := by
  unfold orderedPair
  split_ifs <;> simp [Nat.add_comm]

variable {b : Bytes}

/-- The length of one half is enough: the total gives that of the other. -/
lemma orderedPair_inj {n : Nat} {a c d : Bytes} (hab : a.length = n ∨ b.length = n) (hc : c.length = n)
    (hd : d.length = n) (h : orderedPair a b = orderedPair c d) : (a = c ∧ b = d) ∨ (a = d ∧ b = c) := by
  have hlen := congrArg List.length h
  rw [length_orderedPair, length_orderedPair] at hlen
  have ha : a.length = n := by omega
  have hb : b.length = n := by omega
  simp only [orderedPair] at h
  split_ifs at h
  · exact .inl (append_inj h (ha.trans hc.symm))
  · exact .inr (append_inj h (ha.trans hd.symm))
  · exact .inr (append_inj h (hb.trans hc.symm)).symm
  · exact .inl (append_inj h (hb.trans hd.symm)).symm

lemma lnBranch_ne_nonce (x : Bytes) : lnBranch ≠ lnNonce ++ x := by
  intro h
  have h3 : lnBranch.take 3 = lnNonce.take 3 := by rw [h, take_append_of_le_length (by decide)]
  exact absurd h3 (by decide)

lemma lnLeaf_ne_nonce (x : Bytes) : lnLeaf ≠ lnNonce ++ x := by
  intro h
  have h3 : lnLeaf.take 3 = lnNonce.take 3 := by rw [h, take_append_of_le_length (by decide)]
  exact absurd h3 (by decide)

variable {r : TLVRecord}

lemma TLVRecord.encode_inj {s : TLVRecord} (hr : r.encode = .ok b) (hs : s.encode = .ok b) : r = s := by
  have one : ∀ t : TLVRecord, t.encode = .ok b → decodeStream b {} = .ok [t] := by
    intro t ht
    refine decodeStream_of_encode ⟨by simp, by simpa using (t.fits_iff).2 ⟨b, ht⟩⟩ ?_
    simp [encodeStream, ht, bind, Except.bind, pure, Except.pure]
  have := (one r hr).symm.trans (one s hs)
  simpa using this

variable {I : List (Bytes × Bytes)}

section Binding

variable {sha256 : Bytes → Bytes}

/-- Without a collision among `I`, an equal hash means an equal input. -/
lemma input_eq (hno : ¬ Collision sha256 I) {t m t' m' : Bytes} (h : (t, m) ∈ I) (h' : (t', m') ∈ I)
    (he : taggedHash sha256 t m = taggedHash sha256 t' m') : t = t' ∧ m = m' := by
  by_contra hne
  exact hno ⟨_, h, _, h', fun e => hne (by simpa using e), he⟩

/-! ## The fold as a tree -/

def branchInput (p : Bytes × Bytes) : Bytes × Bytes := (lnBranch, orderedPair p.1 p.2)

lemma fold_eq (sha256 : Bytes → Bytes) {α : Type} (f : α → Bytes) (l : List α) (h : l ≠ []) :
    ∃ t : HashTree α, t.leaves = l ∧ fold sha256 (l.map f) = .ok (t.root f (branch sha256)) ∧
      foldInputs sha256 (l.map f) = (t.joins f (branch sha256)).map branchInput := by
  induction hn : l.length using Nat.strong_induction_on generalizing l with
  | _ n ih =>
    match l, h with
    | [a], _ => exact ⟨.leaf a, rfl, by simp [fold, HashTree.root], by simp [foldInputs, HashTree.joins]⟩
    | a :: b :: rest, _ =>
      have hb := splitPoint_bounds (n := (a :: b :: rest).length) (by simp)
      obtain ⟨tl, hl, hfl, hil⟩ := ih _ (by rw [← hn, length_take]; omega)
        ((a :: b :: rest).take (splitPoint (a :: b :: rest).length)) (by simpa using hb.1.ne') rfl
      obtain ⟨tr, hr, hfr, hir⟩ := ih _ (by rw [← hn, length_drop]; omega)
        ((a :: b :: rest).drop (splitPoint (a :: b :: rest).length)) (by simpa using hb.2) rfl
      simp only [map_take, map_drop, map_cons, length_cons] at hfl hfr hil hir hl hr
      refine ⟨.node tl tr, by rw [HashTree.leaves, hl, hr, take_append_drop], ?_, ?_⟩
      · simp only [map_cons]
        rw [fold]
        simp only [length_cons, length_map, hfl, hfr]
        rfl
      · simp only [map_cons]
        rw [foldInputs]
        simp only [length_cons, length_map, hfl, hfr, hil, hir]
        simp [HashTree.joins, branchInput]

/-- `node` is the node of `r`, with the inputs of its three hashes among `I`. -/
def NodeOf (sha256 : Bytes → Bytes) (I : List (Bytes × Bytes)) (r : TLVRecord) (node : Bytes) : Prop :=
  ∃ enc x ty, r.encode = .ok enc ∧
    node = branch sha256 (taggedHash sha256 lnLeaf enc) (taggedHash sha256 (lnNonce ++ x) ty) ∧
    (lnLeaf, enc) ∈ I ∧ (lnNonce ++ x, ty) ∈ I ∧
    branchInput (taggedHash sha256 lnLeaf enc, taggedHash sha256 (lnNonce ++ x) ty) ∈ I

lemma pairedNode_ok {x : Bytes} {node : Bytes} (h : pairedNode sha256 (lnNonce ++ x) r = .ok node) :
    NodeOf sha256 (pairedInputs sha256 (lnNonce ++ x) r) r node := by
  simp only [pairedNode, bind_eq_ok, pure_eq_ok] at h
  obtain ⟨enc, he, ty, hty, rfl⟩ := h
  refine ⟨enc, x, ty, he, rfl, ?_⟩
  simp [pairedInputs, he, hty, branchInput]

lemma NodeOf.mono {J : List (Bytes × Bytes)} {node : Bytes} (h : NodeOf sha256 I r node) (hIJ : I ⊆ J) :
    NodeOf sha256 J r node := by
  obtain ⟨enc, x, ty, he, hn, h1, h2, h3⟩ := h
  exact ⟨enc, x, ty, he, hn, hIJ h1, hIJ h2, hIJ h3⟩

/-- A root is the root of a tree over the non-signature records. -/
lemma merkleRoot_ok {rs : List TLVRecord} {root : Bytes} (h : merkleRoot sha256 rs = .ok root) :
    ∃ (f : TLVRecord → Bytes) (t : HashTree TLVRecord), t.leaves = nonSig rs ∧ t.root f (branch sha256) = root ∧
      (∀ p ∈ t.joins f (branch sha256), branchInput p ∈ merkleInputs sha256 rs) ∧
      ∀ r ∈ t.leaves, NodeOf sha256 (merkleInputs sha256 rs) r (f r) := by
  unfold merkleRoot at h
  cases hns : nonSig rs with
  | nil => simp [hns] at h
  | cons first rest =>
    simp only [hns, bind_eq_ok] at h
    obtain ⟨x, hx, paired, hp, hf⟩ := h
    have hI : merkleInputs sha256 rs = (first :: rest).flatMap (pairedInputs sha256 (lnNonce ++ x)) ++
        foldInputs sha256 paired := by
      simp only [merkleInputs, hns, hx, hp]
    obtain ⟨f, hn, rfl⟩ := mapM_ok hp
    obtain ⟨t, hl, hro, hin⟩ := fold_eq sha256 f (first :: rest) (by simp)
    rw [hro, Except.ok.injEq] at hf
    refine ⟨f, t, hl, hf, fun p hp => ?_, fun r hr => ?_⟩
    · rw [hI, hin]
      exact mem_append_right _ (mem_map_of_mem hp)
    rw [hl] at hr
    refine (pairedNode_ok (hn r hr)).mono fun i hi => ?_
    rw [hI]
    exact mem_append_left _ (mem_flatMap.2 ⟨r, hr, hi⟩)

lemma pairedNode_iff (sha256 : Bytes → Bytes) (nonceTag : Bytes) (r : TLVRecord) :
    (∃ node, pairedNode sha256 nonceTag r = .ok node) ↔ r.Fits := by
  rw [r.fits_iff]
  constructor
  · rintro ⟨node, h⟩
    obtain ⟨enc, he, -⟩ := bind_eq_ok.1 h
    exact ⟨enc, he⟩
  · rintro ⟨enc, he⟩
    obtain ⟨ty, hty⟩ := BigSize.exists_encode ((r.fits_iff).2 ⟨enc, he⟩).1
    refine ⟨pairWithNonce sha256 (taggedHash sha256 lnLeaf enc) (taggedHash sha256 nonceTag ty), ?_⟩
    simp [pairedNode, TLVRecord.typeBytes, bind_eq_ok, he, hty]

/-- A stream of records within their bounds, one of them no signature, has a root. -/
lemma exists_merkleRoot (sha256 : Bytes → Bytes) {rs : List TLVRecord} (hne : nonSig rs ≠ [])
    (hf : ∀ r ∈ nonSig rs, r.Fits) : ∃ root, merkleRoot sha256 rs = .ok root := by
  unfold merkleRoot
  cases hns : nonSig rs with
  | nil => exact absurd hns hne
  | cons first rest =>
    rw [hns] at hf
    obtain ⟨x, hx⟩ := (first.fits_iff).1 (hf first (by simp))
    obtain ⟨paired, hp⟩ := exists_mapM fun r hr => (pairedNode_iff sha256 (lnNonce ++ x) r).2 (hf r hr)
    obtain ⟨f, -, rfl⟩ := mapM_ok hp
    obtain ⟨t, -, hro, -⟩ := fold_eq sha256 f (first :: rest) (by simp)
    exact ⟨_, by simp only [bind_eq_ok]; exact ⟨x, hx, _, hp, hro⟩⟩

/-! ## The root binds the records -/

variable (hlen : ∀ x, (sha256 x).length = 32)
include hlen

lemma length_taggedHash (tag msg : Bytes) : (taggedHash sha256 tag msg).length = 32 := hlen _

omit hlen in
/-- Equal branches over hashes have the same two children. -/
lemma branch_eq (hno : ¬ Collision sha256 I) {a c d : Bytes} (hab : branchInput (a, b) ∈ I)
    (hcd : branchInput (c, d) ∈ I) (ha : a.length = 32 ∨ b.length = 32) (hc : c.length = 32) (hd : d.length = 32)
    (h : branch sha256 a b = branch sha256 c d) : (a = c ∧ b = d) ∨ (a = d ∧ b = c) :=
  orderedPair_inj ha hc hd (input_eq hno hab hcd h).2

lemma nodeOf_inj (hno : ¬ Collision sha256 I) {s : TLVRecord} {n : Bytes} (hr : NodeOf sha256 I r n)
    (hs : NodeOf sha256 I s n) : r = s := by
  obtain ⟨e, x, ty, he, rfl, h1, h2, h3⟩ := hr
  obtain ⟨e', x', ty', he', hn, h1', h2', h3'⟩ := hs
  have len := length_taggedHash hlen
  rcases branch_eq hno h3 h3' (.inl (len _ _)) (len _ _) (len _ _) hn with ⟨hl, -⟩ | ⟨hl, -⟩
  · have hee := (input_eq hno h1 h1' hl).2
    subst hee
    exact TLVRecord.encode_inj he he'
  · exact absurd (input_eq hno h1 h2' hl).1 (lnLeaf_ne_nonce x')

/-- `x` is a branch hash with its input among `I`. -/
def IsBranch (sha256 : Bytes → Bytes) (I : List (Bytes × Bytes)) (x : Bytes) : Prop :=
  ∃ m, (lnBranch, m) ∈ I ∧ x = taggedHash sha256 lnBranch m

omit hlen in
lemma NodeOf.isBranch {n : Bytes} (h : NodeOf sha256 I r n) : IsBranch sha256 I n := by
  obtain ⟨e, x, ty, -, rfl, -, -, h3⟩ := h
  exact ⟨_, h3, rfl⟩

lemma IsBranch.length {x : Bytes} (h : IsBranch sha256 I x) : x.length = 32 := by
  obtain ⟨m, -, rfl⟩ := h
  exact length_taggedHash hlen _ _

/-- A record's node is not a branch over a branch. -/
lemma nodeOf_ne_branch (hno : ¬ Collision sha256 I) {n a : Bytes} (hr : NodeOf sha256 I r n)
    (hin : branchInput (a, b) ∈ I) (hab : IsBranch sha256 I a ∨ IsBranch sha256 I b) : n ≠ branch sha256 a b := by
  obtain ⟨e, x, ty, -, rfl, h1, h2, h3⟩ := hr
  have len := length_taggedHash hlen
  intro hn
  have hch := branch_eq hno hin h3 (hab.imp (IsBranch.length hlen) (IsBranch.length hlen)) (len _ _) (len _ _) hn.symm
  -- A branch is neither the leaf hash nor the nonce hash.
  have hl : ∀ {y}, IsBranch sha256 I y → y ≠ taggedHash sha256 lnLeaf e := by
    rintro _ ⟨m, hm, rfl⟩ he
    exact absurd (input_eq hno hm h1 he).1 (by decide)
  have hnonce : ∀ {y}, IsBranch sha256 I y → y ≠ taggedHash sha256 (lnNonce ++ x) ty := by
    rintro _ ⟨m, hm, rfl⟩ he
    exact lnBranch_ne_nonce x (input_eq hno hm h2 he).1
  rcases hch with ⟨ha, hb⟩ | ⟨ha, hb⟩
  · exact hab.elim (fun h => hl h ha) (fun h => hnonce h hb)
  · exact hab.elim (fun h => hnonce h ha) (fun h => hl h hb)

lemma length_merkleRoot {rs : List TLVRecord} {root : Bytes} (h : merkleRoot sha256 rs = .ok root) :
    root.length = 32 := by
  obtain ⟨f, t, -, rfl, -, hn⟩ := merkleRoot_ok h
  exact t.root_of_hashes (P := fun x : Bytes => x.length = 32) (fun r hr => IsBranch.length hlen (hn r hr).isBranch)
    fun _ _ => length_taggedHash hlen _ _

/-- The leaf of `r` in a tree with the Merkle root of a stream is a record of the stream. -/
lemma mem_nonSig_of_root {α : Type} {f : α → Bytes} {t : HashTree α} {rs : List TLVRecord} (hno : ¬ Collision sha256 I)
    (hI : merkleInputs sha256 rs ⊆ I) (h : merkleRoot sha256 rs = .ok (t.root f (branch sha256)))
    (hj : ∀ p ∈ t.joins f (branch sha256), branchInput p ∈ I) {a : α} (ha : a ∈ t.leaves)
    (hn : NodeOf sha256 I r (f a)) : r ∈ nonSig rs := by
  obtain ⟨f₂, t₂, hl₂, ht₂, hj₂, hn₂⟩ := merkleRoot_ok h
  replace hn₂ := fun r hr => (hn₂ r hr).mono hI
  replace hj₂ := fun p hp => hI (hj₂ p hp)
  -- Every join over the records is over branch hashes.
  have hb₂ := t₂.joins_of_hashes (P := IsBranch sha256 I) (fun r hr => (hn₂ r hr).isBranch)
    (fun p hp => ⟨_, hj₂ p hp, rfl⟩)
  have len : ∀ {x}, IsBranch sha256 I x → x.length = 32 := IsBranch.length hlen
  have hop : HashTree.Opening (· = a) (IsBranch sha256 I) (fun _ s => r = s) f f₂ (branch sha256) t t₂ :=
    { known_leaf := fun _ _ hR => hR ▸ hn.isBranch
      known_node := fun p hp => ⟨_, hj p hp, rfl⟩
      leaf_leaf := fun _ _ hR s hs he => nodeOf_inj hlen hno hn (hR ▸ he ▸ hn₂ s hs)
      leaf_node := fun _ _ hR p hp => hR ▸ nodeOf_ne_branch hlen hno hn (hj₂ p hp) (.inl (hb₂ p hp).1)
      node_leaf := fun p hp hH s hs => (nodeOf_ne_branch hlen hno (hn₂ s hs) (hj p hp) hH).symm
      node_node := fun p hp hH q hq he => by
        have := branch_eq hno (hj p hp) (hj₂ q hq) (hH.imp len len) (len (hb₂ q hq).1) (len (hb₂ q hq).2) he
        simpa [Prod.ext_iff] using this }
  obtain ⟨s, hs, rfl⟩ := t.leaf_of_root_eq t₂ hop ht₂.symm ha rfl
  rwa [hl₂] at hs

lemma nonSig_subset_of_root {rs rs' : List TLVRecord} {root : Bytes} (hno : ¬ Collision sha256 I)
    (hI : merkleInputs sha256 rs ⊆ I) (hI' : merkleInputs sha256 rs' ⊆ I) (h : merkleRoot sha256 rs = .ok root)
    (h' : merkleRoot sha256 rs' = .ok root) : nonSig rs ⊆ nonSig rs' := by
  obtain ⟨f, t, hl, rfl, hj, hn⟩ := merkleRoot_ok h
  rw [← hl]
  exact fun r hr => mem_nonSig_of_root hlen hno hI' h' (fun p hp => hI (hj p hp)) hr ((hn r hr).mono hI)

/-- Two strictly ascending streams with one Merkle root have the same
non-signature records, unless two of the inputs hashed for the two roots collide. -/
theorem merkleRoot_binds {rs₁ rs₂ : List TLVRecord} (h₁ : rs₁.Pairwise fun r s => r.type < s.type)
    (h₂ : rs₂.Pairwise fun r s => r.type < s.type) {root : Bytes}
    (hr₁ : merkleRoot sha256 rs₁ = .ok root) (hr₂ : merkleRoot sha256 rs₂ = .ok root) :
    nonSig rs₁ = nonSig rs₂ ∨ Collision sha256 (merkleInputs sha256 rs₁ ++ merkleInputs sha256 rs₂) := by
  refine or_iff_not_imp_right.2 fun hno => ?_
  have h₁₂ := nonSig_subset_of_root hlen hno (subset_append_left _ _) (subset_append_right _ _) hr₁ hr₂
  have h₂₁ := nonSig_subset_of_root hlen hno (subset_append_right _ _) (subset_append_left _ _) hr₂ hr₁
  -- Both lists are strictly ascending, so the same records are the same list.
  have : Std.Irrefl fun r s : TLVRecord => r.type < s.type := ⟨fun _ => Nat.lt_irrefl _⟩
  have : Std.Antisymm fun r s : TLVRecord => r.type < s.type := ⟨fun _ _ h h' => absurd h h'.not_gt⟩
  exact Subset.antisymm_of_pairwise (h₁.filter _) (h₂.filter _) h₁₂ h₂₁

end Binding

/-- A signed stream and the same stream without its signature. -/
theorem merkleRoot_binds_signed : ∃ root,
    merkleRoot Sha256.sha256 [⟨10, [0x61]⟩, ⟨240, [1]⟩] = .ok root ∧
    merkleRoot Sha256.sha256 [⟨10, [0x61]⟩] = .ok root ∧
    (nonSig [⟨10, [0x61]⟩, ⟨240, [1]⟩] = nonSig [⟨10, [0x61]⟩] ∨
      Collision Sha256.sha256 (merkleInputs Sha256.sha256 [⟨10, [0x61]⟩, ⟨240, [1]⟩] ++
        merkleInputs Sha256.sha256 [⟨10, [0x61]⟩])) := by
  obtain ⟨root, h⟩ := @exists_merkleRoot Sha256.sha256 [⟨10, [0x61]⟩] (by decide) (by decide)
  have h' : merkleRoot Sha256.sha256 [⟨10, [0x61]⟩, ⟨240, [1]⟩] = .ok root := h
  exact ⟨root, h', h, merkleRoot_binds Sha256.length_sha256 (by decide) (by decide) h' h⟩

/-! ## Level by level -/

lemma growPow2_two_pow {n : ℕ} (p : ℕ) (hp : ∃ k, p = 2 ^ k) (h : p ≤ n) :
    (∃ k, growPow2 n p = 2 ^ k) ∧ n < 2 * growPow2 n p := by
  induction p using growPow2.induct n with
  | case1 p hlt ih =>
    obtain ⟨k, rfl⟩ := hp
    rw [growPow2, if_pos hlt]
    exact ih ⟨k + 1, (pow_succ 2 k).symm⟩ hlt.2
  | case2 p hge =>
    obtain ⟨k, rfl⟩ := hp
    rw [growPow2, if_neg hge]
    have := Nat.two_pow_pos k
    exact ⟨⟨k, rfl⟩, by omega⟩

lemma splitPoint_two_pow {n : ℕ} (h : 2 ≤ n) : ∃ k, splitPoint n = 2 ^ k ∧ n - splitPoint n ≤ 2 ^ k := by
  obtain ⟨⟨k, hk⟩, hlt⟩ := growPow2_two_pow 1 ⟨0, rfl⟩ (show 1 ≤ n by omega)
  simp only [splitPoint]
  split
  case isTrue heq =>
    obtain ⟨k, rfl⟩ : ∃ j, k = j + 1 := ⟨k - 1, by rcases k with _ | k <;> omega⟩
    rw [pow_succ] at hk
    exact ⟨k, by omega, by omega⟩
  case isFalse => exact ⟨k, hk, by omega⟩

/-- `fold` is the construction that joins neighbours level by level. -/
theorem fold_eq_levels (sha256 : Bytes → Bytes) (nodes : List Bytes) (hne : nodes ≠ []) :
    ∃ root, fold sha256 nodes = .ok root ∧ levels (branch sha256) nodes = some root := by
  induction hn : nodes.length using Nat.strong_induction_on generalizing nodes with
  | _ n ih =>
    match nodes, hne with
    | [x], _ => exact ⟨x, by rw [fold], by rw [levels]⟩
    | x :: y :: rest, _ =>
      have hb := splitPoint_bounds (n := (x :: y :: rest).length) (by simp)
      obtain ⟨k, hk, hle⟩ := splitPoint_two_pow (n := (x :: y :: rest).length) (by simp)
      generalize hs : splitPoint (x :: y :: rest).length = s at hb hk hle
      obtain ⟨left, hl, hl'⟩ := ih _ (by rw [← hn, length_take]; omega)
        ((x :: y :: rest).take s) (by simpa using hb.1.ne') rfl
      obtain ⟨right, hr, hr'⟩ := ih _ (by rw [← hn, length_drop]; omega)
        ((x :: y :: rest).drop s) (by simpa using hb.2) rfl
      refine ⟨branch sha256 left right, ?_, ?_⟩
      · rw [fold, hs, hl, hr]
        rfl
      rw [← take_append_drop s (x :: y :: rest)]
      refine levels_append _ k ?_ ?_ hl' hr'
      · rw [length_take]; omega
      · rw [length_drop]; omega

theorem fold_eq_levels_three : ∃ root, fold Sha256.sha256 [[1], [2], [3]] = .ok root ∧
    levels (branch Sha256.sha256) [[1], [2], [3]] = some root :=
  fold_eq_levels Sha256.sha256 _ (by decide)

end AgentWallet.Bolt12
