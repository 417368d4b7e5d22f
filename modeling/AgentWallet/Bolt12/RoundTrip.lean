import AgentWallet.Lib.Lists
import AgentWallet.Bolt12.Fields
/-!
# Typed round trip

What `parse` reads, `toRecords` writes back: a record of a field goes to that
field and comes out of it again, every other record is carried along. The one
exception is an `offer_chains` record without content: it is read into the
empty tuple of chains, which `toRecords` takes for an absent field.
-/

namespace AgentWallet.Bolt12

open AgentWallet.Lib Except

/-! ## Primitive codecs -/

variable {v : Bytes}

/-- The canonical form of a `tu64`: what is decoded is encoded the same way. -/
lemma encodeTu64_decodeTu64 {n : Nat} (h : decodeTu64 v = .ok n) : encodeTu64 n = v := by
  simp only [decodeTu64, bind_eq_ok, raiseIf_eq_ok, pure_eq_ok, decide_eq_false_iff_not] at h
  obtain ⟨-, -, ⟨⟩, hz, rfl⟩ := h
  cases v with
  | nil => rfl
  | cons x b =>
    have hx : x ≠ 0 := by simpa using hz
    have hle : 2 ^ (8 * b.length) ≤ ofBE (x :: b) := by
      simpa [pow_mul] using le_ofBE x b hx
    have hlt : ofBE (x :: b) < 2 ^ (8 * (b.length + 1)) := by
      simpa [pow_mul] using ofBE_lt (x :: b)
    have hp : ofBE (x :: b) ≠ 0 := by
      have := Nat.two_pow_pos (8 * b.length)
      omega
    have hs : ((ofBE (x :: b)).size + 7) / 8 = (x :: b).length := by
      have h1 := Nat.lt_size.2 hle
      have h2 := Nat.size_le.2 hlt
      rw [List.length_cons]
      omega
    rw [encodeTu64, if_neg hp, hs, toBE_ofBE]

lemma encodeTu32_decodeTu32 {n : Nat} (h : decodeTu32 v = .ok n) : encodeTu32 n = .ok v := by
  simp only [decodeTu32, bind_eq_ok, raiseIf_eq_ok, decide_eq_false_iff_not, not_lt] at h
  obtain ⟨⟨⟩, hl, h⟩ := h
  have hn : n = ofBE v := by
    simp only [decodeTu64, bind_eq_ok, raiseIf_eq_ok, pure_eq_ok] at h
    obtain ⟨-, -, -, -, rfl⟩ := h
    rfl
  have hlt : n < 256 ^ 4 := by
    rw [hn]
    exact (ofBE_lt v).trans_le (Nat.pow_le_pow_right (by decide) hl)
  rw [encodeTu32, if_neg (by omega), encodeTu64_decodeTu64 h]

lemma encodeAscii_decodeAscii {s : String} (h : decodeAscii v = .ok s) : encodeAscii s = .ok v := by
  unfold decodeAscii at h
  split_ifs at h with hv
  obtain rfl := ok.inj h
  have hb : ∀ b ∈ v, (Char.ofNat b.toNat).toNat = b.toNat := by
    intro b hb
    have hlt : b.toNat < 128 := by simpa [UInt8.lt_iff_toNat_lt] using List.all_eq_true.1 hv b hb
    rw [Char.toNat_ofNat, if_pos (Or.inl (by omega))]
  have ha : (v.map fun b => Char.ofNat b.toNat).all (·.toNat < 128) = true := by
    simp only [List.all_map, List.all_eq_true, Function.comp_apply, decide_eq_true_eq]
    intro b hm
    rw [hb b hm]
    simpa [UInt8.lt_iff_toNat_lt] using List.all_eq_true.1 hv b hm
  rw [encodeAscii, String.toList_ofList, if_pos ha, List.map_map]
  congr 1
  conv_rhs => rw [← List.map_id v]
  refine List.map_congr_left fun b hm => ?_
  rw [Function.comp_apply, hb b hm]
  exact UInt8.ofNat_toNat

lemma utf8_decodeUtf8 {s : String} (h : decodeUtf8 v = .ok s) : utf8 s = v := by
  unfold decodeUtf8 at h
  split at h
  · rename_i s' hs
    obtain rfl := ok.inj h
    unfold String.fromUTF8? at hs
    split_ifs at hs
    obtain rfl := Option.some.inj hs
    rfl
  · cases h

lemma flatten_chunks32 (h : v.length % 32 = 0) : (chunks32 v).flatten = v := by
  -- the first `n` pieces are the first `32 * n` bytes
  have ht : ∀ n, ((List.range n).map fun i => slice v (32 * i) (32 * i + 32)).flatten = v.take (32 * n) := by
    intro n
    induction n with
    | zero => simp
    | succ n ih =>
      rw [List.range_succ, List.map_append, List.flatten_append, ih, Nat.mul_succ, List.take_add]
      simp [slice]
  rw [chunks32, ht]
  exact List.take_of_length_le (by omega)

lemma chunks32_eq_nil : chunks32 v = [] ↔ v = [] := by
  rw [chunks32, List.map_eq_nil_iff, List.range_eq_nil, ← List.length_eq_zero_iff]
  omega

/-! ## Sorting -/

def Distinct (rs : List TLVRecord) : Prop := rs.Pairwise fun r s => r.type ≠ s.type

def Ascending (rs : List TLVRecord) : Prop := rs.Pairwise fun r s => r.type < s.type

variable {rs : List TLVRecord}

lemma Ascending.distinct (h : Ascending rs) : Distinct rs := h.imp Nat.ne_of_lt

variable {ss recs : List TLVRecord}

lemma Distinct.perm (h : Distinct rs) (hp : rs.Perm ss) : Distinct ss :=
  hp.pairwise h fun hne => hne.symm

lemma Ascending.eq_of_perm (hr : Ascending rs) (hs : Ascending ss) (hp : rs.Perm ss) :
    rs = ss :=
  hp.eq_of_pairwise (fun _ _ _ _ h h' => absurd h' (Nat.lt_asymm h)) hr hs

lemma checkDuplicates_ok (h : Distinct rs) : checkDuplicates rs = .ok () := by
  induction rs using checkDuplicates.induct with
  | case1 r s rest ih =>
    obtain ⟨hr, hre⟩ := List.pairwise_cons.1 h
    have hne : s.type ≠ r.type := (hr s (by simp)).symm
    simp only [checkDuplicates, bind_eq_ok, raiseIf_eq_ok]
    exact ⟨(), by simp [hne], ih hre⟩
  | case2 rs hrs => rw [checkDuplicates]; exact hrs

variable {r : TLVRecord}

lemma pairwise_sort (recs : List TLVRecord) :
    (recs.mergeSort fun r s => r.type ≤ s.type).Pairwise fun r s => r.type ≤ s.type := by
  have hle := @List.pairwise_mergeSort _ (fun r s : TLVRecord => decide (r.type ≤ s.type))
    (by intro a b c; simp only [decide_eq_true_eq]; exact Nat.le_trans)
    (by intro a b; simpa using Nat.le_total a.type b.type) recs
  simpa using hle

lemma exists_sortAndCheck (h : Distinct recs) : ∃ out, sortAndCheck recs = .ok out ∧ out.Perm recs ∧ Ascending out := by
  set out := recs.mergeSort fun r s => r.type ≤ s.type with ho
  have hp : out.Perm recs := List.mergeSort_perm recs _
  have hd : Distinct out := h.perm hp.symm
  refine ⟨out, ?_, hp, (hd.and (pairwise_sort recs)).imp fun h => by omega⟩
  rw [sortAndCheck, bind_eq_ok]
  exact ⟨(), checkDuplicates_ok hd, rfl⟩

lemma sortAndCheck_ok {out : List TLVRecord} (h : sortAndCheck recs = .ok out) : out.Perm recs ∧ Ascending out := by
  simp only [sortAndCheck, bind_eq_ok, pure_eq_ok] at h
  obtain ⟨⟨⟩, hd, rfl⟩ := h
  refine ⟨List.mergeSort_perm recs _, ?_⟩
  have hso := pairwise_sort recs
  generalize (recs.mergeSort fun r s => r.type ≤ s.type) = out at hd hso
  induction out using checkDuplicates.induct with
  | case1 r s rest ih =>
    simp only [checkDuplicates, bind_eq_ok, raiseIf_eq_ok, decide_eq_false_iff_not] at hd
    obtain ⟨⟨⟩, hne, hre⟩ := hd
    obtain ⟨hr, hs⟩ := List.pairwise_cons.1 hso
    have hrs : r.type < s.type := Nat.lt_of_le_of_ne (hr s (by simp)) fun h => hne h.symm
    refine List.pairwise_cons.2 ⟨fun x hx => ?_, ih hre hs⟩
    rcases List.mem_cons.1 hx with rfl | hx
    · exact hrs
    · exact Nat.lt_of_lt_of_le hrs ((List.pairwise_cons.1 hs).1 x hx)
  | case2 out ho =>
    rcases out with _ | ⟨r, _ | ⟨s, rest⟩⟩
    · exact .nil
    · exact List.pairwise_singleton _ _
    · exact absurd rfl (ho r s rest)

/-! ## What one record does to a message -/

/-- The record that a round trip drops. -/
def emptyChains (r : TLVRecord) : Bool := r.type = OFFER_CHAINS ∧ r.value = []

def kept (rs : List TLVRecord) : List TLVRecord := rs.filter fun r => !emptyChains r

@[simp] lemma kept_append (rs ss : List TLVRecord) : kept (rs ++ ss) = kept rs ++ kept ss := List.filter_append ..

lemma kept_kept (rs : List TLVRecord) : kept (kept rs) = kept rs := by simp [kept]

lemma mem_of_mem_kept (h : r ∈ kept rs) : r ∈ rs := List.mem_of_mem_filter h

lemma kept_of_types (h : ∀ r ∈ rs, r.type ≠ OFFER_CHAINS) : kept rs = rs :=
  List.filter_eq_self.2 fun r hr => by simp [emptyChains, h r hr]

lemma Distinct.kept (h : Distinct rs) : Distinct (kept rs) := h.filter _

lemma Ascending.kept (h : Ascending rs) : Ascending (kept rs) := h.filter _

lemma kept_eq_self : kept rs = rs ↔ ∀ r ∈ rs, r.type = OFFER_CHAINS → r.value ≠ [] := by
  simp [kept, List.filter_eq_self, emptyChains, imp_iff_not_or]

def slot (rs : List TLVRecord) (t : Nat) : List TLVRecord := rs.filter (·.type = t)

lemma slot_append (rs ss : List TLVRecord) (t : Nat) : slot (rs ++ ss) t = slot rs t ++ slot ss t :=
  List.filter_append ..

variable {t : Nat}

lemma slot_eq_nil (h : ∀ r ∈ rs, r.type ≠ t) : slot rs t = [] :=
  List.filter_eq_nil_iff.2 fun r hr => by simpa using h r hr

lemma slot_eq_self (h : ∀ r ∈ rs, r.type = t) : slot rs t = rs :=
  List.filter_eq_self.2 fun r hr => by simpa using h r hr

lemma length_slot (hd : Distinct rs) (t : Nat) : (slot rs t).length ≤ 1 := by
  by_contra hlt
  obtain ⟨a, b, rest, hab⟩ : ∃ a b rest, slot rs t = a :: b :: rest := by
    match hs : slot rs t with
    | [] => simp [hs] at hlt
    | [a] => simp [hs] at hlt
    | a :: b :: rest => exact ⟨a, b, rest, rfl⟩
  have hdi : Distinct (slot rs t) := hd.filter _
  have ht : ∀ r ∈ slot rs t, r.type = t := fun r hr => by simpa using (List.mem_filter.1 hr).2
  rw [hab] at hdi ht
  exact (List.pairwise_cons.1 hdi).1 b (by simp) ((ht a (by simp)).trans (ht b (by simp)).symm)

/-- The record `r` sets the field of its type or is added to the unknown
records. -/
inductive Effect (types : List Nat) (pieces : Pieces) (unknown : List TLVRecord) (r : TLVRecord) :
    Pieces → List TLVRecord → Prop
  | field (i : Nat) (hi : types[i]? = some r.type) :
    Effect types pieces unknown r (pieces.set i (.ok (kept [r]))) unknown
  | unknown (hnew : r.type ∉ types) (hr : kept [r] = [r]) : Effect types pieces unknown r pieces (unknown ++ [r])

lemma decoded {α M : Type} {dec : Except Exn α} {f : α → M} {m : M}
    (h : (do let x ← dec; return f x) = .ok m) : ∃ x, dec = .ok x ∧ f x = m := by
  obtain ⟨x, hx, hm⟩ := bind_eq_ok.1 h
  exact ⟨x, hx, pure_eq_ok.1 hm⟩

lemma optRecord_some {α : Type} {x : α} {enc : α → Except Exn Bytes} (h : enc x = .ok v) :
    optRecord t (some x) enc = .ok [⟨t, v⟩] := by
  simp [optRecord, h, bind, Except.bind, pure, Except.pure]

section Reads

variable {M R : Type} {types : List Nat} {pieces : M → Pieces} {unknown : M → List TLVRecord} {rest : M → R} {m m' : M}
  {c : Nat} {x y : Except Exn M}

/-- `x` reads the record `r` into the message `m`, and leaves `rest` alone. -/
def Reads (types : List Nat) (pieces : M → Pieces) (unknown : M → List TLVRecord) (rest : M → R) (m : M)
    (r : TLVRecord) (x : Except Exn M) : Prop :=
  ∀ m', x = .ok m' → Effect types (pieces m) (unknown m) r (pieces m') (unknown m') ∧ rest m' = rest m

lemma Reads.field (i : Nat) (hi : types[i]? = some c)
    (hx : t = c → ∀ m', x = .ok m' → pieces m' = (pieces m).set i (.ok (kept [⟨c, v⟩])) ∧ unknown m' = unknown m ∧
      rest m' = rest m) (hy : t ≠ c → Reads types pieces unknown rest m ⟨t, v⟩ y) :
    Reads types pieces unknown rest m ⟨t, v⟩ (if t = c then x else y) := by
  intro m' h
  by_cases ht : t = c
  · subst ht
    obtain ⟨hp, hu, hr⟩ := hx rfl m' ((if_pos rfl).symm.trans h)
    rw [hp, hu]
    exact ⟨.field i hi, hr⟩
  · exact hy ht m' ((if_neg ht).symm.trans h)

lemma Reads.raw (i : Nat) (hi : types[i]? = some c) (ht : t ≠ OFFER_CHAINS)
    (hm : pieces m' = (pieces m).set i (.ok [⟨c, v⟩]) ∧ unknown m' = unknown m ∧ rest m' = rest m)
    (hy : t ≠ c → Reads types pieces unknown rest m ⟨t, v⟩ y) :
    Reads types pieces unknown rest m ⟨t, v⟩ (if t = c then .ok m' else y) := by
  refine .field i hi (fun hc m₁ h => ?_) hy
  obtain rfl := ok.inj h
  rwa [kept_of_types (by simpa using hc ▸ ht)]

lemma Reads.value (i : Nat) (hi : types[i]? = some c) (ht : t ≠ OFFER_CHAINS) {α : Type} {dec : Except Exn α}
    {f : α → M} (hm : ∀ a, dec = .ok a → pieces (f a) = (pieces m).set i (.ok [⟨c, v⟩]) ∧ unknown (f a) = unknown m ∧
      rest (f a) = rest m) (hy : t ≠ c → Reads types pieces unknown rest m ⟨t, v⟩ y) :
    Reads types pieces unknown rest m ⟨t, v⟩ (if t = c then (do let a ← dec; return f a) else y) := by
  refine .field i hi (fun hc m₁ h => ?_) hy
  obtain ⟨a, ha, rfl⟩ := decoded h
  rw [kept_of_types (by simpa using hc ▸ ht)]
  exact hm a ha

variable {add : M → TLVRecord → Except Exn M} (hadd : ∀ m, ∀ r ∈ rs, Reads types pieces unknown rest m r (add m r))
include hadd

lemma Reads.run (h : rs.foldlM add m = .ok m') :
    unknown m' = unknown m ++ rs.filter (·.type ∉ types) ∧ rest m' = rest m := by
  refine foldlM_ok (fun done m' => unknown m' = unknown m ++ done.filter (·.type ∉ types) ∧ rest m' = rest m) h
    (by simp) ?_
  rintro done r left n n' hl ⟨hu, hr⟩ hs
  obtain ⟨he, hsa⟩ := hadd n r (by simp [hl]) n' hs
  refine ⟨?_, hsa.trans hr⟩
  rw [List.filter_append, ← List.append_assoc, ← hu]
  generalize pieces n = p, pieces n' = p', unknown n' = u' at he ⊢
  cases he with
  | field i hi => simp [List.mem_of_getElem? hi]
  | unknown hn => simp [hn]

/-- In records of different types, the field of a type holds the record of that type. -/
lemma Reads.slots (hnd : types.Nodup) (h0 : pieces m = List.replicate types.length (.ok [])) (hrs : Distinct rs)
    (h : rs.foldlM add m = .ok m') : pieces m' = types.map fun t => .ok (slot (kept rs) t) := by
  refine foldlM_ok (fun done m => pieces m = types.map fun t => .ok (slot (kept done) t)) h ?_ ?_
  · rw [h0]
    exact List.map_const'.symm
  intro done r left n n' hl hi hs
  have hn : ∀ s ∈ kept done, s.type ≠ r.type := by
    rw [hl] at hrs
    exact fun s hs => (List.pairwise_append.1 hrs).2.2 s (mem_of_mem_kept hs) r (by simp)
  obtain ⟨hef, -⟩ := hadd n r (by simp [hl]) n' hs
  rw [hi] at hef
  generalize unknown n = u, pieces n' = p', unknown n' = u' at hef ⊢
  have ht : ∀ s ∈ kept [r], s.type = r.type := fun s hs => by rw [List.mem_singleton.1 (mem_of_mem_kept hs)]
  have hsl : ∀ s, slot (kept (done ++ [r])) s = if s = r.type then kept [r] else slot (kept done) s := by
    intro s
    rw [kept_append, slot_append]
    by_cases hs : s = r.type
    · subst hs
      rw [if_pos rfl, slot_eq_nil hn, slot_eq_self ht, List.nil_append]
    · have hem : slot (kept [r]) s = [] := slot_eq_nil fun q hq => (ht q hq).trans_ne (Ne.symm hs)
      rw [if_neg hs, hem, List.append_nil]
  simp only [hsl]
  cases hef with
  | field i hti =>
    refine List.ext_getElem? fun j => ?_
    by_cases hij : i = j
    · subst hij
      obtain ⟨hlt, -⟩ := List.getElem?_eq_some_iff.1 hti
      rw [List.getElem?_set_self (by simpa using hlt), List.getElem?_map, hti]
      simp
    · rw [List.getElem?_set_ne hij, List.getElem?_map, List.getElem?_map]
      cases hj : types[j]? with
      | none => rfl
      | some s =>
        -- another field has another type
        have hne : s ≠ r.type := by
          rintro rfl
          obtain ⟨hlt, -⟩ := List.getElem?_eq_some_iff.1 hti
          exact hij ((List.getElem?_inj hlt hnd).1 (hti.trans hj.symm))
        simp [hne]
  | unknown hno =>
    refine List.map_congr_left fun s hs => ?_
    have hne : s ≠ r.type := fun he => hno (he ▸ hs)
    rw [if_neg hne]

end Reads

lemma concat_slots {types : List Nat} (hnd : types.Nodup) (rs : List TLVRecord) :
    ∃ recs, Pieces.concat (types.map fun t => .ok (slot rs t)) = .ok recs ∧
      (recs ++ rs.filter (·.type ∉ types)).Perm rs := by
  have hm : ∀ ys : List (List TLVRecord), (ys.map .ok : Pieces).mapM id = .ok ys := by
    intro ys
    induction ys with
    | nil => rfl
    | cons y ys ih => simp [List.mapM_cons, bind_eq_ok, ih]
  refine ⟨(types.map (slot rs)).flatten, ?_, ?_⟩
  · have hma : (types.map fun t => (.ok (slot rs t) : Except Exn _)) = (types.map (slot rs)).map .ok := by simp
    rw [Pieces.concat, hma, hm]
    rfl
  · induction types with
    | nil => simp
    | cons t types ih =>
      obtain ⟨hn, hnd⟩ := List.nodup_cons.1 hnd
      -- the records of type `t` are among those of no later type
      have hs := List.filter_append_perm (fun r : TLVRecord => decide (r.type = t)) (rs.filter (·.type ∉ types))
      have hsl : (rs.filter (·.type ∉ types)).filter (fun r => decide (r.type = t)) = slot rs t := by
        rw [List.filter_filter]
        refine List.filter_congr fun r _ => ?_
        by_cases hr : r.type = t
        · simp [hr, hn]
        · simp [hr]
      have hre : (rs.filter (·.type ∉ types)).filter (fun r => !decide (r.type = t)) = rs.filter (·.type ∉ t :: types) := by
        rw [List.filter_filter]
        exact List.filter_congr fun r _ => by simp [not_or]
      rw [hsl, hre] at hs
      rw [List.map_cons, List.flatten_cons, List.append_assoc]
      calc (slot rs t ++ ((types.map (slot rs)).flatten ++ rs.filter (·.type ∉ t :: types))).Perm
            ((types.map (slot rs)).flatten ++ (slot rs t ++ rs.filter (·.type ∉ t :: types))) := by
            rw [← List.append_assoc, ← List.append_assoc]
            exact List.perm_append_comm.append_right _
        _ |>.Perm ((types.map (slot rs)).flatten ++ rs.filter (·.type ∉ types)) := hs.append_left _
        _ |>.Perm rs := ih hnd

/-! ## Offer -/

variable {o : Offer}

namespace Offer

/-- The types of the fields, in the order of `pieces`. -/
def types : List Nat := [OFFER_CHAINS, OFFER_METADATA, OFFER_CURRENCY, OFFER_AMOUNT, OFFER_DESCRIPTION,
  OFFER_FEATURES, OFFER_ABSOLUTE_EXPIRY, OFFER_PATHS, OFFER_ISSUER, OFFER_QUANTITY_MAX, OFFER_ISSUER_ID]

lemma types_nodup : types.Nodup := by decide

lemma addRecord_reads (range : Nat) (o : Offer) (r : TLVRecord) :
    Reads types pieces unknownRecords (fun _ => ()) o r (addRecord range o r) := by
  obtain ⟨t, v⟩ := r
  unfold addRecord
  dsimp only
  refine .field 0 rfl (fun _ o' h => ?_) fun h1 => ?_
  · obtain ⟨⟨⟩, hv, rfl⟩ := decoded h
    rw [raiseIf_eq_ok, decide_eq_false_iff_not, not_not] at hv
    refine ⟨?_, rfl, rfl⟩
    by_cases hn : v = []
    · simp [pieces, chunks32_eq_nil, kept, emptyChains, hn]
    · simp [pieces, chunks32_eq_nil, kept, emptyChains, hn, flatten_chunks32 hv]
  refine .raw 1 rfl h1 ⟨rfl, rfl, rfl⟩ fun h2 => ?_
  refine .value 2 rfl h1 (fun s h => ⟨?_, rfl, rfl⟩) fun h3 => ?_
  · rw [← optRecord_some (encodeAscii_decodeAscii h)]
    rfl
  refine .value 3 rfl h1 (fun n h => ⟨by rw [← encodeTu64_decodeTu64 h]; rfl, rfl, rfl⟩) fun h4 => ?_
  refine .value 4 rfl h1 (fun s h => ⟨by rw [← utf8_decodeUtf8 h]; rfl, rfl, rfl⟩) fun h5 => ?_
  refine .raw 5 rfl h1 ⟨rfl, rfl, rfl⟩ fun h6 => ?_
  refine .value 6 rfl h1 (fun n h => ⟨by rw [← encodeTu64_decodeTu64 h]; rfl, rfl, rfl⟩) fun h7 => ?_
  refine .raw 7 rfl h1 ⟨rfl, rfl, rfl⟩ fun h8 => ?_
  refine .value 8 rfl h1 (fun s h => ⟨by rw [← utf8_decodeUtf8 h]; rfl, rfl, rfl⟩) fun h9 => ?_
  refine .value 9 rfl h1 (fun n h => ⟨by rw [← encodeTu64_decodeTu64 h]; rfl, rfl, rfl⟩) fun h10 => ?_
  refine .value 10 rfl h1 (fun _ h => ⟨?_, rfl, rfl⟩) fun h11 => ?_
  · have hp : optRecord OFFER_ISSUER_ID (some v) (fun v => do checkPoint "offer_issuer_id" v; return v) =
        .ok [⟨OFFER_ISSUER_ID, v⟩] := optRecord_some (by simp [h, bind, Except.bind])
    rw [← hp]
    rfl
  intro o' h
  rcases ite_eq_iff.1 h with ⟨-, h⟩ | ⟨-, h⟩
  · obtain rfl := ok.inj h
    exact ⟨.unknown (by simp [types, *]) (kept_of_types (by simpa using h1)), rfl⟩
  · cases h

variable {range : Nat}

lemma unknown_of_fromRecords (h : fromRecords rs range = .ok o) :
    o.unknownRecords = rs.filter (·.type ∉ types) :=
  (Reads.run (fun o r _ => addRecord_reads range o r) h).1

lemma slots_of_fromRecords (hrs : Distinct rs) (h : fromRecords rs range = .ok o) :
    o.pieces = types.map fun t => .ok (slot (kept rs) t) :=
  Reads.slots (fun o r _ => addRecord_reads range o r) types_nodup rfl hrs h

/-- An offer is written as the records it was read from, without an empty
`offer_chains`. -/
lemma toRecords_of_fromRecords (hrs : Distinct rs) (h : fromRecords rs range = .ok o) :
    ∃ out, o.toRecords = .ok out ∧ out.Perm (kept rs) ∧ Ascending out := by
  obtain ⟨recs, hre, hpe⟩ := concat_slots types_nodup (kept rs)
  have hu : (kept rs).filter (·.type ∉ types) = o.unknownRecords := by
    rw [unknown_of_fromRecords h, kept, List.filter_filter]
    refine List.filter_congr fun r _ => ?_
    by_cases hr : r.type = OFFER_CHAINS
    · simp [hr, types]
    · simp [emptyChains, hr]
  rw [hu] at hpe
  obtain ⟨out, ho, hp, ha⟩ := exists_sortAndCheck (hrs.kept.perm hpe.symm)
  refine ⟨out, ?_, hp.trans hpe, ha⟩
  rw [toRecords, bind_eq_ok]
  exact ⟨recs, slots_of_fromRecords hrs h ▸ hre, ho⟩

end Offer

/-! ## InvoiceRequest -/

def selected (includeSignature : Bool) (rs : List TLVRecord) : List TLVRecord :=
  rs.filter fun r => includeSignature || r.type != SIGNATURE

lemma selected_append (b : Bool) (rs ss : List TLVRecord) : selected b (rs ++ ss) = selected b rs ++ selected b ss :=
  List.filter_append ..

lemma selected_of_types {b : Bool} (h : ∀ r ∈ rs, r.type ≠ SIGNATURE) : selected b rs = rs :=
  List.filter_eq_self.2 fun r hr => by simp [h r hr]

lemma Distinct.selected (h : Distinct rs) (b : Bool) : Distinct (selected b rs) := h.filter _

lemma Ascending.selected (h : Ascending rs) (b : Bool) : Ascending (selected b rs) := h.filter _

lemma selected_true (rs : List TLVRecord) : selected true rs = rs := List.filter_eq_self.2 fun _ _ => rfl

lemma selected_kept (b : Bool) (rs : List TLVRecord) : selected b (kept rs) = kept (selected b rs) :=
  List.filter_comm ..

open InvoiceRequest (signatureRecord)

lemma selected_signatureRecord (b : Bool) (s : Option Bytes) :
    selected b (signatureRecord true s) = signatureRecord b s := by
  cases b <;> cases s <;> simp [selected, signatureRecord]

lemma kept_signatureRecord (b : Bool) (s : Option Bytes) : kept (signatureRecord b s) = signatureRecord b s := by
  refine kept_of_types fun r hr => ?_
  cases b <;> cases s <;> simp [signatureRecord] at hr
  simp [hr]

lemma exists_written {lower unknown below own : List TLVRecord} {s : Option Bytes} (b : Bool) (hrs : Distinct rs)
    (hpe : (below ++ own ++ signatureRecord true s).Perm rs) (ht : ∀ r ∈ below ++ own, r.type ≠ SIGNATURE)
    (hl : lower.Perm (kept below)) (ho : (recs ++ unknown).Perm (kept own)) :
    ∃ out, sortAndCheck (lower ++ recs ++ unknown ++ signatureRecord b s) = .ok out ∧
      out.Perm (kept (selected b rs)) ∧ Ascending out := by
  have ha : (lower ++ recs ++ unknown ++ signatureRecord b s).Perm (kept (selected b rs)) := by
    refine List.Perm.trans ?_ ((hpe.filter _).filter _)
    change List.Perm _ (kept (selected b (below ++ own ++ signatureRecord true s)))
    rw [selected_append, selected_of_types ht, selected_signatureRecord, kept_append, kept_append,
      kept_signatureRecord, List.append_assoc lower]
    exact (hl.append ho).append_right _
  obtain ⟨out, hou, hp, hasc⟩ := exists_sortAndCheck ((hrs.selected _).kept.perm ha.symm)
  exact ⟨out, hou, hp.trans ha, hasc⟩

def lastSignature (rs : List TLVRecord) : Option Bytes := (slot rs SIGNATURE).getLast?.map (·.value)

lemma lastSignature_append (rs ss : List TLVRecord) :
    lastSignature (rs ++ ss) = (lastSignature ss).or (lastSignature rs) := by
  rw [lastSignature, slot_append, List.getLast?_append, Option.map_or]
  rfl

lemma signatureRecord_lastSignature (hd : Distinct rs) :
    signatureRecord true (lastSignature rs) = slot rs SIGNATURE := by
  unfold lastSignature
  match hs : slot rs SIGNATURE, length_slot hd SIGNATURE with
  | [], _ => rfl
  | [r], _ =>
    have hm : r ∈ slot rs SIGNATURE := by simp [hs]
    have ht : r.type = SIGNATURE := by simpa using (List.mem_filter.1 hm).2
    simp [signatureRecord, ← ht]

lemma ne_signature_of_not (h : ¬ isSignatureType t = true) : t ≠ SIGNATURE := by
  rintro rfl
  exact absurd h (by decide)

def isOfferType (t : Nat) : Bool := inRange OFFER_RANGE t && t != INVREQ_METADATA

lemma ne_chains_of_not_offer (h : isOfferType t = false) : t ≠ OFFER_CHAINS := by
  rintro rfl
  exact absurd h (by decide)

lemma ne_signature_of_offer (h : isOfferType t = true) : t ≠ SIGNATURE := by
  rintro rfl
  exact absurd h (by decide)

lemma lt_of_isOfferType (h : isOfferType t = true) : t < OFFER_RANGE :=
  of_decide_eq_true (Bool.and_eq_true_iff.1 h).1

lemma not_offer_of_le (h : OFFER_RANGE ≤ t) : isOfferType t = false := by
  by_contra hn
  exact absurd (lt_of_isOfferType (by simpa using hn)) (Nat.not_lt.2 h)

lemma not_offer_of_signature (h : isSignatureType t = true) : isOfferType t = false :=
  not_offer_of_le (Nat.le_trans (by decide) (of_decide_eq_true (Bool.and_eq_true_iff.1 h).1))

lemma perm_filter {p q : TLVRecord → Bool} (hpq : ∀ r, p r = true → q r = true) (rs : List TLVRecord) :
    (rs.filter p ++ rs.filter fun r => !p r && q r).Perm (rs.filter q) := by
  have hs := List.filter_append_perm p (rs.filter q)
  rw [List.filter_filter, List.filter_filter] at hs
  have hp : rs.filter (fun r => p r && q r) = rs.filter p := by
    refine List.filter_congr fun r _ => ?_
    cases hr : p r
    · rfl
    · simp [hpq r hr]
  rwa [hp] at hs

lemma perm_signature (rs : List TLVRecord) : (rs.filter (·.type != SIGNATURE) ++ slot rs SIGNATURE).Perm rs := by
  have hs : slot rs SIGNATURE = rs.filter fun r => !(r.type != SIGNATURE) := by
    refine List.filter_congr fun r _ => ?_
    by_cases hr : r.type = SIGNATURE <;> simp [hr]
  rw [hs]
  exact List.filter_append_perm _ _

lemma slot_filter {p : Nat → Bool} (hp : p t = true) (rs : List TLVRecord) :
    slot (rs.filter (p ·.type)) t = slot rs t := by
  unfold slot
  rw [List.filter_filter]
  apply List.filter_congr
  intro r _
  by_cases hr : r.type = t
  · simp [hr, hp]
  · simp [hr]

variable {q : InvoiceRequest} {l l' : Layers} {hrp : Hrp}

namespace InvoiceRequest

/-- The types of the fields, in the order of `pieces`. -/
def types : List Nat := [INVREQ_METADATA, INVREQ_CHAIN, INVREQ_AMOUNT, INVREQ_FEATURES, INVREQ_QUANTITY,
  INVREQ_PAYER_ID, INVREQ_PAYER_NOTE, INVREQ_PAYS_PATHS, INVREQ_BIP353_NAME]

lemma types_nodup : types.Nodup := by decide

@[simp] def isOwnType (t : Nat) : Bool := !isOfferType t && t != SIGNATURE

lemma addRecord_reads (q : InvoiceRequest) (hr : r.type ≠ OFFER_CHAINS) :
    Reads types pieces unknownRecords (fun q => (q.offer, q.signature)) q r (addRecord q r) := by
  obtain ⟨t, v⟩ := r
  unfold addRecord
  dsimp only
  refine .raw 0 rfl hr ⟨rfl, rfl, rfl⟩ fun h1 => ?_
  refine .value 1 rfl hr (fun _ _ => ⟨rfl, rfl, rfl⟩) fun h2 => ?_
  refine .value 2 rfl hr (fun n h => ⟨by rw [← encodeTu64_decodeTu64 h]; rfl, rfl, rfl⟩) fun h3 => ?_
  refine .raw 3 rfl hr ⟨rfl, rfl, rfl⟩ fun h4 => ?_
  refine .value 4 rfl hr (fun n h => ⟨by rw [← encodeTu64_decodeTu64 h]; rfl, rfl, rfl⟩) fun h5 => ?_
  refine .value 5 rfl hr (fun _ _ => ⟨rfl, rfl, rfl⟩) fun h6 => ?_
  refine .value 6 rfl hr (fun s h => ⟨by rw [← utf8_decodeUtf8 h]; rfl, rfl, rfl⟩) fun h7 => ?_
  refine .raw 7 rfl hr ⟨rfl, rfl, rfl⟩ fun h8 => ?_
  refine .raw 8 rfl hr ⟨rfl, rfl, rfl⟩ fun h9 => ?_
  intro q' h
  obtain rfl := ok.inj h
  exact ⟨.unknown (by simp [types, *]) (kept_of_types (by simpa using hr)), rfl⟩

lemma splitRecord_ok (h : splitRecord l r = .ok l') : l'.offer = l.offer ++ [r].filter (isOfferType ·.type) ∧
      l'.own = l.own ++ [r].filter (isOwnType ·.type) ∧ l'.signature = (lastSignature [r]).or l.signature := by
  rcases ite_eq_iff.1 h with ⟨hs, h⟩ | ⟨hs, h⟩
  · have hno := not_offer_of_signature hs
    rcases ite_eq_iff.1 h with ⟨ht, h⟩ | ⟨ht, h⟩
    · obtain ⟨⟨⟩, -, rfl⟩ := decoded h
      rw [ht] at hno
      simp [hno, ht, lastSignature, slot]
    · obtain rfl := ok.inj h
      simp [hno, ht, lastSignature, slot]
  have ht := ne_signature_of_not hs
  rcases ite_eq_iff.1 h with ⟨hof, h⟩ | ⟨hof, h⟩
  · have ho : isOfferType r.type = true := hof
    obtain rfl := ok.inj h
    simp [ho, ht, lastSignature, slot]
  have hno : isOfferType r.type = false := Bool.eq_false_iff.2 hof
  rcases ite_eq_iff.1 h with ⟨-, h⟩ | ⟨-, h⟩
  · obtain rfl := ok.inj h
    simp [hno, ht, lastSignature, slot]
  · cases h

/-- The layers hold the records of their types, in order. -/
def Split (rs : List TLVRecord) (l : Layers) : Prop :=
  l.offer = rs.filter (isOfferType ·.type) ∧ l.own = rs.filter (isOwnType ·.type) ∧ l.signature = lastSignature rs

lemma split_of_foldlM (h : rs.foldlM splitRecord {} = .ok l) : Split rs l := by
  refine foldlM_ok Split h ⟨rfl, rfl, rfl⟩ ?_
  rintro done r rest l l' - ⟨ho, hw, hs⟩ hst
  obtain ⟨ho', hw', hs'⟩ := splitRecord_ok hst
  rw [Split, ho', hw', hs', ho, hw, hs, lastSignature_append, List.filter_append, List.filter_append]
  exact ⟨rfl, rfl, rfl⟩

lemma own_types (hr : r ∈ rs.filter (isOwnType ·.type)) : isOfferType r.type = false ∧ r.type ≠ SIGNATURE := by
  simpa using (List.mem_filter.1 hr).2

/-- What a parsed request holds: its layers of the records, each read into its part. -/
lemma layers_of_parse {own : List TLVRecord} (hd : Distinct rs)
    (how : rs.filter (isOwnType ·.type) = own) (h : parse ⟨hrp, rs⟩ = .ok q) :
    Offer.fromRecords (rs.filter (isOfferType ·.type)) OFFER_RANGE = .ok q.offer ∧
      q.pieces = (types.map fun t => .ok (slot own t)) ∧ q.unknownRecords = own.filter (·.type ∉ types) ∧
      signatureRecord true q.signature = slot rs SIGNATURE := by
  simp only [parse, bind_eq_ok] at h
  obtain ⟨⟨⟩, -, l, hl, offer, ho, hq⟩ := h
  obtain ⟨hlo, hlw, hls⟩ := split_of_foldlM hl
  rw [hlo] at ho
  rw [hlw, how] at hq
  have ht : ∀ r ∈ own, r.type ≠ OFFER_CHAINS := fun r hr => ne_chains_of_not_offer (own_types (how ▸ hr)).1
  have hadd := fun q r hr => addRecord_reads q (ht r hr)
  obtain ⟨hu, hre⟩ := Reads.run hadd hq
  obtain ⟨rfl, hs⟩ := Prod.mk.inj hre
  refine ⟨ho, ?_, hu, ?_⟩
  · rw [Reads.slots hadd types_nodup rfl (how ▸ hd.filter _) hq, kept_of_types ht]
  · rw [hs, hls, signatureRecord_lastSignature hd]

/-- An invoice request is written as the records it was read from, without an
empty `offer_chains`. -/
lemma toRecords_of_parse {b12 : Bolt12String} (hrs : Distinct b12.records) (h : parse b12 = .ok q)
    (includeSignature : Bool) :
    ∃ out, q.toRecords includeSignature = .ok out ∧ out.Perm (kept (selected includeSignature b12.records)) ∧
      Ascending out := by
  obtain ⟨ho, hpi, hu, hs⟩ := layers_of_parse hrs rfl h
  obtain ⟨offerRecs, hof, hpo, -⟩ := Offer.toRecords_of_fromRecords (hrs.filter _) ho
  obtain ⟨recs, hre, how⟩ := concat_slots types_nodup (b12.records.filter (isOwnType ·.type))
  rw [← hpi] at hre
  rw [← hu, ← kept_of_types fun r hr => ne_chains_of_not_offer (own_types hr).1] at how
  have hl := perm_filter (p := fun r => isOfferType r.type) (q := (·.type != SIGNATURE))
    (fun r hr => by simpa using ne_signature_of_offer hr) b12.records
  obtain ⟨out, hou, hp⟩ := exists_written includeSignature hrs
    (hs ▸ (hl.append_right _).trans (perm_signature _))
    (fun r hr => by simpa using (List.mem_filter.1 (hl.subset hr)).2) hpo how
  refine ⟨out, ?_, hp⟩
  simp only [toRecords, bind_eq_ok]
  exact ⟨offerRecs, hof, recs, hre, hou⟩

end InvoiceRequest

/-! ## Invoice -/

variable {i : Invoice}

namespace Invoice

/-- The types of the fields, in the order of `pieces`. -/
def types : List Nat := [INVOICE_PATHS, INVOICE_BLINDEDPAY, INVOICE_CREATED_AT, INVOICE_RELATIVE_EXPIRY,
  INVOICE_PAYMENT_HASH, INVOICE_AMOUNT, INVOICE_FALLBACKS, INVOICE_FEATURES, INVOICE_NODE_ID]

lemma types_nodup : types.Nodup := by decide

@[simp] def isLowerType (t : Nat) : Bool := !isOfferType t && decide (t < INVREQ_RANGE)

@[simp] def isOwnType (t : Nat) : Bool := !decide (t < INVREQ_RANGE) && t != SIGNATURE

lemma addRecord_reads (i : Invoice) (hr : r.type ≠ OFFER_CHAINS) :
    Reads types pieces unknownRecords (fun i => (i.invreq, i.signature)) i r (addRecord i r) := by
  obtain ⟨t, v⟩ := r
  unfold addRecord
  dsimp only
  refine .raw 0 rfl hr ⟨rfl, rfl, rfl⟩ fun h1 => ?_
  refine .raw 1 rfl hr ⟨rfl, rfl, rfl⟩ fun h2 => ?_
  refine .value 2 rfl hr (fun n h => ⟨by rw [← encodeTu64_decodeTu64 h]; rfl, rfl, rfl⟩) fun h3 => ?_
  refine .value 3 rfl hr (fun n h => ⟨by rw [← optRecord_some (encodeTu32_decodeTu32 h)]; rfl, rfl, rfl⟩) fun h4 => ?_
  refine .value 4 rfl hr (fun _ _ => ⟨rfl, rfl, rfl⟩) fun h5 => ?_
  refine .value 5 rfl hr (fun n h => ⟨by rw [← encodeTu64_decodeTu64 h]; rfl, rfl, rfl⟩) fun h6 => ?_
  refine .raw 6 rfl hr ⟨rfl, rfl, rfl⟩ fun h7 => ?_
  refine .raw 7 rfl hr ⟨rfl, rfl, rfl⟩ fun h8 => ?_
  refine .value 8 rfl hr (fun _ _ => ⟨rfl, rfl, rfl⟩) fun h9 => ?_
  intro i' h
  obtain rfl := ok.inj h
  exact ⟨.unknown (by simp [types, *]) (kept_of_types (by simpa using hr)), rfl⟩

lemma splitRecord_ok (h : splitRecord l r = .ok l') : l'.offer = l.offer ++ [r].filter (isOfferType ·.type) ∧
      l'.invreq = l.invreq ++ [r].filter (isLowerType ·.type) ∧ l'.own = l.own ++ [r].filter (isOwnType ·.type) ∧
      l'.signature = (lastSignature [r]).or l.signature := by
  rcases ite_eq_iff.1 h with ⟨hs, h⟩ | ⟨hs, h⟩
  · have hno := not_offer_of_signature hs
    have hge : ¬ r.type < INVREQ_RANGE :=
      Nat.not_lt.2 (Nat.le_trans (by decide) (of_decide_eq_true (Bool.and_eq_true_iff.1 hs).1))
    rcases ite_eq_iff.1 h with ⟨ht, h⟩ | ⟨ht, h⟩
    · obtain ⟨⟨⟩, -, rfl⟩ := decoded h
      rw [ht] at hno hge
      simp [hno, hge, ht, lastSignature, slot]
    · obtain rfl := ok.inj h
      simp [hno, hge, ht, lastSignature, slot]
  have ht := ne_signature_of_not hs
  rcases ite_eq_iff.1 h with ⟨hof, h⟩ | ⟨hof, h⟩
  · have ho : isOfferType r.type = true := hof
    have hlt : r.type < INVREQ_RANGE := Nat.lt_trans (lt_of_isOfferType ho) (by decide)
    obtain rfl := ok.inj h
    simp [ho, hlt, ht, lastSignature, slot]
  have hno : isOfferType r.type = false := Bool.eq_false_iff.2 hof
  rcases ite_eq_iff.1 h with ⟨hq, h⟩ | ⟨hq, h⟩
  · have hlt : r.type < INVREQ_RANGE := of_decide_eq_true hq
    obtain rfl := ok.inj h
    simp [hno, hlt, ht, lastSignature, slot]
  rcases ite_eq_iff.1 h with ⟨-, h⟩ | ⟨-, h⟩
  · have hge : ¬ r.type < INVREQ_RANGE := fun hlt => hq (decide_eq_true hlt)
    obtain rfl := ok.inj h
    simp [hno, hge, ht, lastSignature, slot]
  · cases h

def Split (rs : List TLVRecord) (l : Layers) : Prop :=
  l.offer = rs.filter (isOfferType ·.type) ∧ l.invreq = rs.filter (isLowerType ·.type) ∧
    l.own = rs.filter (isOwnType ·.type) ∧ l.signature = lastSignature rs

lemma split_of_foldlM (h : rs.foldlM splitRecord {} = .ok l) : Split rs l := by
  refine foldlM_ok Split h ⟨rfl, rfl, rfl, rfl⟩ ?_
  rintro done r rest l l' - ⟨ho, hq, hw, hs⟩ hst
  obtain ⟨ho', hq', hw', hs'⟩ := splitRecord_ok hst
  rw [Split, ho', hq', hw', hs', ho, hq, hw, hs, lastSignature_append, List.filter_append, List.filter_append,
    List.filter_append]
  exact ⟨rfl, rfl, rfl, rfl⟩

lemma own_types (hr : r ∈ rs.filter (isOwnType ·.type)) : INVREQ_RANGE ≤ r.type ∧ r.type ≠ SIGNATURE := by
  simpa using (List.mem_filter.1 hr).2

lemma slot_own (ht : t ∈ types) (rs : List TLVRecord) : slot (rs.filter (isOwnType ·.type)) t = slot rs t := by
  have ha : ∀ t ∈ types, isOwnType t = true := by decide
  exact slot_filter (ha t ht) rs

/-- What a parsed invoice holds: the request of its lower layers, which is
written as the records below its own range, and the records of its own. -/
lemma layers_of_parse (hd : Distinct rs) (h : parse ⟨hrp, rs⟩ = .ok i) :
    (∃ lower, i.invreq.toRecords false = .ok lower ∧ lower.Perm (kept (rs.filter (·.type < INVREQ_RANGE))) ∧
      Ascending lower) ∧
      i.invreq.pieces = (InvoiceRequest.types.map fun t => .ok (slot rs t)) ∧
      i.pieces = (types.map fun t => .ok (slot rs t)) ∧
      signatureRecord true i.signature = slot rs SIGNATURE ∧
      i.unknownRecords =
        (rs.filter (isOwnType ·.type)).filter (·.type ∉ types) := by
  simp only [parse, bind_eq_ok] at h
  obtain ⟨⟨⟩, -, l, hl, o, ho, offerRecs, hoff, q, hq, hi⟩ := h
  obtain ⟨hlo, hlq, hlw, hls⟩ := split_of_foldlM hl
  rw [hlo] at ho
  rw [hlq] at hq
  rw [hlw] at hi
  obtain ⟨offerRecs', hoff', hpo, -⟩ := Offer.toRecords_of_fromRecords (hd.filter _) ho
  obtain rfl : offerRecs = offerRecs' := ok.inj (hoff.symm.trans hoff')
  set invreqs := rs.filter (isLowerType ·.type) with hin
  have hot : ∀ r ∈ offerRecs, isOfferType r.type = true := fun r hr =>
    (List.mem_filter.1 (mem_of_mem_kept (hpo.subset hr))).2
  have hqt : ∀ r ∈ invreqs, isOfferType r.type = false ∧ r.type < INVREQ_RANGE := fun r hr => by
    simpa using (List.mem_filter.1 hr).2
  -- the request is parsed from the records below the invoice's range
  have hm : (offerRecs ++ invreqs).Perm (kept (rs.filter (·.type < INVREQ_RANGE))) := by
    have hb : (rs.filter (isOfferType ·.type) ++ invreqs).Perm (rs.filter (·.type < INVREQ_RANGE)) :=
      perm_filter (fun r hr => decide_eq_true (Nat.lt_trans (lt_of_isOfferType hr) (by decide))) rs
    refine (hpo.append_right _).trans (List.Perm.trans ?_ (hb.filter _))
    change List.Perm _ (kept (rs.filter (isOfferType ·.type) ++ invreqs))
    rw [kept_append, kept_of_types fun r hr => ne_chains_of_not_offer (hqt r hr).1]
  have hdq : Distinct (offerRecs ++ invreqs) := (Distinct.kept (hd.filter _)).perm hm.symm
  have hty : ∀ r ∈ rs.filter (isOwnType ·.type), r.type ≠ OFFER_CHAINS :=
    fun r hr => (Nat.lt_of_lt_of_le (by decide) (own_types hr).1).ne'
  have hadd := fun i r hr => addRecord_reads i (hty r hr)
  obtain ⟨hu, hre⟩ := Reads.run hadd hi
  obtain ⟨rfl, hs⟩ := Prod.mk.inj hre
  obtain ⟨lower, hlow, hpl, hasc⟩ := InvoiceRequest.toRecords_of_parse hdq hq false
  obtain ⟨-, hp, -⟩ := InvoiceRequest.layers_of_parse hdq rfl hq
  refine ⟨⟨lower, hlow, hpl.trans ?_, hasc⟩, ?_, ?_, ?_, hu⟩
  · have hse : selected false (offerRecs ++ invreqs) = offerRecs ++ invreqs := by
      refine selected_of_types fun r hr => ?_
      rcases List.mem_append.1 hr with hr | hr
      · exact ne_signature_of_offer (hot r hr)
      · exact (Nat.lt_trans (hqt r hr).2 (by decide)).ne
    rw [hse, ← kept_kept (rs.filter _)]
    exact hm.filter _
  · rw [hp]
    refine List.map_congr_left fun t ht => ?_
    have ha : ∀ t ∈ InvoiceRequest.types, (!isOfferType t && t != SIGNATURE) = true ∧
        (!isOfferType t && decide (t < INVREQ_RANGE)) = true := by decide
    have hof : slot offerRecs t = [] := by
      apply slot_eq_nil
      rintro r hr rfl
      have := (ha _ ht).1
      simp [hot r hr] at this
    rw [slot_filter (p := InvoiceRequest.isOwnType) (ha t ht).1, slot_append, hof, List.nil_append,
      hin, slot_filter (p := isLowerType) (ha t ht).2]
  · rw [Reads.slots hadd types_nodup rfl (hd.filter _) hi, kept_of_types hty]
    exact List.map_congr_left fun t ht => congrArg _ (slot_own ht rs)
  · rw [hs, hls, signatureRecord_lastSignature hd]

/-- An invoice is written as the records it was read from, without an empty
`offer_chains`. -/
lemma toRecords_of_parse {b12 : Bolt12String} (hrs : Distinct b12.records) (h : parse b12 = .ok i)
    (includeSignature : Bool) :
    ∃ out, i.toRecords includeSignature = .ok out ∧ out.Perm (kept (selected includeSignature b12.records)) ∧
      Ascending out := by
  obtain ⟨⟨lower, hlo, hpl, -⟩, -, hpi, hs, hu⟩ := layers_of_parse hrs h
  obtain ⟨recs, hre, ho⟩ := concat_slots types_nodup (b12.records.filter (isOwnType ·.type))
  rw [List.map_congr_left fun t ht => congrArg _ (slot_own ht _), ← hpi] at hre
  rw [← hu, ← kept_of_types fun r hr => (Nat.lt_of_lt_of_le (by decide) (own_types hr).1).ne'] at ho
  have hl := perm_filter (p := fun r => decide (r.type < INVREQ_RANGE)) (q := (·.type != SIGNATURE))
    (fun r hr => by simpa using (Nat.lt_trans (of_decide_eq_true hr) (by decide : INVREQ_RANGE < SIGNATURE)).ne)
    b12.records
  obtain ⟨out, hou, hp⟩ := exists_written includeSignature hrs
    (hs ▸ (hl.append_right _).trans (perm_signature _))
    (fun r hr => by simpa using (List.mem_filter.1 (hl.subset hr)).2) hpl ho
  refine ⟨out, ?_, hp⟩
  simp only [toRecords, bind_eq_ok]
  exact ⟨lower, hlo, recs, hre, hou⟩

end Invoice

/-! ## The round trip -/

lemma signatureDigest_selected (sha256 : Bytes → Bytes) (hrp : Hrp) (rs : List TLVRecord) :
    Bolt12String.signatureDigest sha256 ⟨hrp, selected false rs⟩ = Bolt12String.signatureDigest sha256 ⟨hrp, rs⟩ := by
  have hns : nonSig (selected false rs) = nonSig rs := by
    simp only [nonSig, selected, List.filter_filter]
    refine List.filter_congr fun r _ => ?_
    by_cases hr : r.type = SIGNATURE
    · rw [hr]; rfl
    · simp [hr]
  simp only [Bolt12String.signatureDigest, merkleRoot, hns]

/-- The condition of the round trip: no `offer_chains` record is empty. -/
def ChainsNonempty (rs : List TLVRecord) : Prop := ∀ r ∈ rs, r.type = OFFER_CHAINS → r.value ≠ []

instance (rs : List TLVRecord) : Decidable (ChainsNonempty rs) :=
  inferInstanceAs (Decidable (∀ r ∈ rs, r.type = OFFER_CHAINS → r.value ≠ []))

section

variable {hrp : Hrp} {rs : List TLVRecord}

lemma Offer.toRecords_parse (hrs : Ascending rs) (h : Offer.parse ⟨hrp, rs⟩ = .ok o) : o.toRecords = .ok (kept rs) := by
  simp only [Offer.parse, bind_eq_ok] at h
  obtain ⟨-, -, h⟩ := h
  obtain ⟨out, ho, hp, ha⟩ := Offer.toRecords_of_fromRecords hrs.distinct h
  rw [ho, ha.eq_of_perm hrs.kept hp]

lemma InvoiceRequest.toRecords_parse (hrs : Ascending rs) (h : InvoiceRequest.parse ⟨hrp, rs⟩ = .ok q) (b : Bool) :
    q.toRecords b = .ok (kept (selected b rs)) := by
  obtain ⟨out, ho, hp, ha⟩ := toRecords_of_parse hrs.distinct h b
  rw [ho, ha.eq_of_perm (hrs.selected b).kept hp]

lemma Invoice.toRecords_parse {i : Invoice} (hrs : Ascending rs) (h : Invoice.parse ⟨hrp, rs⟩ = .ok i) (b : Bool) :
    i.toRecords b = .ok (kept (selected b rs)) := by
  obtain ⟨out, ho, hp, ha⟩ := toRecords_of_parse hrs.distinct h b
  rw [ho, ha.eq_of_perm (hrs.selected b).kept hp]

end

lemma written_iff (sha256 : Bytes → Bytes) (hrp : Hrp) {toRecords : Bool → Except Exn (List TLVRecord)}
    (h : ∀ b, toRecords b = .ok (kept (selected b rs))) :
    (toRecords true = .ok rs ∧ (toRecords false >>= fun unsigned => Bolt12String.signatureDigest sha256 ⟨hrp, unsigned⟩) =
      Bolt12String.signatureDigest sha256 ⟨hrp, rs⟩) ↔ ChainsNonempty rs := by
  rw [h, h, selected_true, ok.injEq, kept_eq_self]
  refine ⟨And.left, fun hne => ⟨hne, ?_⟩⟩
  rw [← selected_kept, kept_eq_self.2 hne]
  exact signatureDigest_selected sha256 hrp rs

/-- For every record list the stream decoder accepts, and every message parsed
from it: the message is written back as the same records, and signs the same
digest, exactly when no `offer_chains` record is empty. -/
theorem roundTrip_iff (sha256 : Bytes → Bytes) (caps : Caps) (d : Bytes) (rs : List TLVRecord)
    (hd : decodeStream d caps = .ok rs) (hrp : Hrp) :
    (∀ o, Offer.parse ⟨hrp, rs⟩ = .ok o → (o.toRecords = .ok rs ↔ ChainsNonempty rs)) ∧
    (∀ q, InvoiceRequest.parse ⟨hrp, rs⟩ = .ok q →
      (q.toRecords true = .ok rs ∧ q.signatureDigest sha256 = Bolt12String.signatureDigest sha256 ⟨hrp, rs⟩ ↔
        ChainsNonempty rs)) ∧
    (∀ i, Invoice.parse ⟨hrp, rs⟩ = .ok i →
      (i.toRecords true = .ok rs ∧ i.signatureDigest sha256 = Bolt12String.signatureDigest sha256 ⟨hrp, rs⟩ ↔
        ChainsNonempty rs)) := by
  have ha : Ascending rs := (decodeStream_ok hd).1.1
  refine ⟨fun o ho => ?_, fun q hq => ?_, fun i hi => ?_⟩
  · rw [Offer.toRecords_parse ha ho, ok.injEq]
    exact kept_eq_self
  · obtain rfl : hrp = .lnr := by
      simp only [InvoiceRequest.parse, bind_eq_ok, checkHrp, raiseIf_eq_ok] at hq
      obtain ⟨-, h, -⟩ := hq
      simpa using h
    exact written_iff sha256 _ (InvoiceRequest.toRecords_parse ha hq)
  · obtain rfl : hrp = .lni := by
      simp only [Invoice.parse, bind_eq_ok, checkHrp, raiseIf_eq_ok] at hi
      obtain ⟨-, h, -⟩ := hi
      simpa using h
    exact written_iff sha256 _ (Invoice.toRecords_parse ha hi)

theorem roundTrip_iff_noted :
    decodeStream [10, 1, 97, 89, 1, 98] {} = .ok [⟨10, [97]⟩, ⟨89, [98]⟩] ∧
    ∃ q, InvoiceRequest.parse ⟨.lnr, [⟨10, [97]⟩, ⟨89, [98]⟩]⟩ = .ok q ∧
      q.toRecords true = .ok [⟨10, [97]⟩, ⟨89, [98]⟩] ∧
      q.signatureDigest Sha256.sha256 =
        Bolt12String.signatureDigest Sha256.sha256 ⟨.lnr, [⟨10, [97]⟩, ⟨89, [98]⟩]⟩ := by
  have hd : decodeStream [10, 1, 97, 89, 1, 98] {} = .ok [⟨10, [97]⟩, ⟨89, [98]⟩] :=
    decodeStream_of_encode (by decide) rfl
  have hq : InvoiceRequest.parse ⟨.lnr, [⟨10, [97]⟩, ⟨89, [98]⟩]⟩ =
      .ok { offer := { description := some "a" }, payerNote := some "b" } := rfl
  exact ⟨hd, _, hq, ((roundTrip_iff Sha256.sha256 {} _ _ hd .lnr).2.1 _ hq).2 (by decide)⟩

/-- An empty `offer_chains` is accepted and not written back, neither by an
offer nor by a request that mirrors it. -/
theorem roundTrip_drops_emptyChains :
    decodeStream [2, 0, 10, 1, 97] {} = .ok [⟨2, []⟩, ⟨10, [97]⟩] ∧
    (∃ o, Offer.parse ⟨.lno, [⟨2, []⟩, ⟨10, [97]⟩]⟩ = .ok o ∧ o.toRecords = .ok [⟨10, [97]⟩]) ∧
    ∃ q, InvoiceRequest.parse ⟨.lnr, [⟨2, []⟩, ⟨10, [97]⟩]⟩ = .ok q ∧ q.toRecords true = .ok [⟨10, [97]⟩] := by
  have hd : decodeStream [2, 0, 10, 1, 97] {} = .ok [⟨2, []⟩, ⟨10, [97]⟩] :=
    decodeStream_of_encode (by decide) rfl
  have ha : Ascending [⟨2, []⟩, ⟨10, [97]⟩] := (decodeStream_ok hd).1.1
  have ho : Offer.parse ⟨.lno, [⟨2, []⟩, ⟨10, [97]⟩]⟩ = .ok { description := some "a" } := rfl
  have hq : InvoiceRequest.parse ⟨.lnr, [⟨2, []⟩, ⟨10, [97]⟩]⟩ = .ok { offer := { description := some "a" } } := rfl
  exact ⟨hd, ⟨_, ho, Offer.toRecords_parse ha ho⟩, _, hq, InvoiceRequest.toRecords_parse ha hq true⟩

end AgentWallet.Bolt12
