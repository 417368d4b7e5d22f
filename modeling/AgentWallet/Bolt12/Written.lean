import AgentWallet.Bolt12.Codec
/-!
# Messages written and read back

The round trip of `RoundTrip` starts from records; a message that is built from
values is followed the other way. Its fields hold at most one record each, of
the field's type (`Filled`), so what is written determines them (`eq_of_slots`),
and what is written from a message is parsed back as that message
(`Offer.fromRecords_toRecords`, `InvoiceRequest.parse_toRecords`).
-/

namespace AgentWallet.Bolt12

open AgentWallet.Lib Except List

/-! ## The records of the fields -/

/-- A field holds at most one record, of its type, with `S`. -/
def Filled (S : TLVRecord → Prop) (t : Nat) (piece : Except Exn (List TLVRecord)) : Prop :=
  ∃ z : List TLVRecord, piece = .ok z ∧ z.length ≤ 1 ∧ ∀ r ∈ z, r.type = t ∧ S r

variable {rs : List TLVRecord} {r : TLVRecord} {t : Nat}

lemma slot_of_mem (hd : Distinct rs) (hr : r ∈ rs) : slot rs r.type = [r] := by
  have hm : r ∈ slot rs r.type := List.mem_filter.2 ⟨hr, by simp⟩
  obtain ⟨a, ha⟩ := List.length_eq_one_iff.1 (Nat.le_antisymm (length_slot hd _) (List.length_pos_of_mem hm))
  rw [ha] at hm ⊢
  rw [List.mem_singleton.1 hm]

lemma slot_perm {ss : List TLVRecord} (hd : Distinct rs) (hp : rs.Perm ss) (t : Nat) : slot rs t = slot ss t := by
  have hsl : (slot rs t).Perm (slot ss t) := hp.filter _
  have ho := length_slot hd t
  match hs : slot rs t, ho with
  | [], _ =>
    rw [hs] at hsl
    exact (List.perm_nil.1 hsl.symm).symm
  | [a], _ =>
    rw [hs] at hsl
    exact (List.perm_singleton.1 hsl.symm).symm

variable {S : TLVRecord → Prop}

/-- What filled fields are written as, and back: the field of a type holds the
written records of that type. -/
lemma concat_of_filled {types : List Nat} {pieces : Pieces} (h : List.Forall₂ (Filled S) types pieces)
    (hnd : types.Nodup) :
    ∃ recs, pieces.concat = .ok recs ∧ (∀ r ∈ recs, r.type ∈ types ∧ S r) ∧ Distinct recs ∧
      pieces = types.map fun t => .ok (slot recs t) := by
  induction h with
  | nil => exact ⟨[], rfl, by simp, List.Pairwise.nil, rfl⟩
  | @cons t piece types pieces hp _ ih =>
    obtain ⟨hn, hnd⟩ := List.nodup_cons.1 hnd
    obtain ⟨z, rfl, hl, hz⟩ := hp
    obtain ⟨recs, hre, hm, hd, rfl⟩ := ih hnd
    have hzt : ∀ r ∈ z, r.type = t := fun r hr => (hz r hr).1
    have hrt : ∀ r ∈ recs, r.type ≠ t := fun r hr he => hn (he ▸ (hm r hr).1)
    refine ⟨z ++ recs, ?_, fun r hr => ?_, ?_, ?_⟩
    · simp only [Pieces.concat, bind_eq_ok, pure_eq_ok] at hre ⊢
      obtain ⟨ys, hys, rfl⟩ := hre
      exact ⟨z :: ys, by simp [List.mapM_cons, bind_eq_ok, hys], rfl⟩
    · rcases List.mem_append.1 hr with hr | hr
      · exact ⟨by simp [hzt r hr], (hz r hr).2⟩
      · exact ⟨List.mem_cons_of_mem _ (hm r hr).1, (hm r hr).2⟩
    · refine List.pairwise_append.2 ⟨?_, hd, fun a ha b hb => ?_⟩
      · match z, hl with
        | [], _ => exact List.Pairwise.nil
        | [a], _ => exact List.pairwise_singleton _ _
      · rw [hzt a ha]
        exact (hrt b hb).symm
    · rw [List.map_cons, slot_append, slot_eq_self hzt, slot_eq_nil hrt, List.append_nil]
      congr 1
      refine List.map_congr_left fun t' ht' => ?_
      have hne : t ≠ t' := fun he => hn (he ▸ ht')
      have hem : slot z t' = [] := slot_eq_nil fun r hr => by rw [hzt r hr]; exact hne
      rw [slot_append, hem, List.nil_append]

/-- A field is written as at most one record, of its type. -/
def Shaped (t : Nat) (piece : Except Exn (List TLVRecord)) : Prop :=
  ∀ z, piece = .ok z → z.length ≤ 1 ∧ ∀ r ∈ z, r.type = t

lemma shaped_optRecord {α : Type} (t : Nat) (f : Option α) (enc : α → Except Exn Bytes) :
    Shaped t (optRecord t f enc) := by
  intro z hz
  cases f with
  | none =>
    obtain rfl := ok.inj hz
    simp
  | some x =>
    obtain ⟨v, -, rfl⟩ := decoded hz
    simp

/-- What the fields are written as, and back: the field of a type holds the
written records of that type. -/
lemma slots_of_concat {types : List Nat} {pieces : Pieces} {recs : List TLVRecord}
    (h : List.Forall₂ Shaped types pieces) (hnd : types.Nodup) (hc : pieces.concat = .ok recs) :
    (∀ r ∈ recs, r.type ∈ types) ∧ Distinct recs ∧ pieces = types.map fun t => .ok (slot recs t) := by
  have hf : List.Forall₂ (Filled fun _ => True) types pieces := by
    simp only [Pieces.concat, bind_eq_ok] at hc
    obtain ⟨zs, hzs, -⟩ := hc
    clear hnd
    induction h generalizing zs with
    | nil => exact .nil
    | cons hp _ ih =>
      simp only [List.mapM_cons, bind_eq_ok, id] at hzs
      obtain ⟨z, rfl, zs', hzs', -⟩ := hzs
      obtain ⟨hl, hz⟩ := hp z rfl
      exact .cons ⟨z, rfl, hl, fun r hr => ⟨hz r hr, trivial⟩⟩ (ih zs' hzs')
  obtain ⟨recs', hre, hm, hd, hs⟩ := concat_of_filled hf hnd
  obtain rfl : recs = recs' := ok.inj (hc.symm.trans hre)
  exact ⟨fun r hr => (hm r hr).1, hd, hs⟩

variable {z : List TLVRecord}

lemma mem_of_concat {types : List Nat} {pieces : Pieces} {recs : List TLVRecord}
    (h : List.Forall₂ Shaped types pieces) (hnd : types.Nodup) (hc : pieces.concat = .ok recs) (hz : .ok z ∈ pieces) :
    ∀ r ∈ z, r ∈ recs := by
  intro r hr
  obtain ⟨-, -, hs⟩ := slots_of_concat h hnd hc
  rw [hs] at hz
  obtain ⟨t, -, hzt⟩ := List.mem_map.1 hz
  obtain rfl := ok.inj hzt
  exact (List.mem_filter.1 hr).1

lemma filled_nil (S : TLVRecord → Prop) (t : Nat) : Filled S t (.ok []) := ⟨[], rfl, by simp, by simp⟩

/-- A loop over any records leaves filled fields, with records it has read. -/
lemma filled_of_run {M R : Type} {add : M → TLVRecord → Except Exn M} {pieces : M → Pieces}
    {unknown : M → List TLVRecord} {rest : M → R} {types : List Nat} {m m' : M}
    (ha : ∀ m, ∀ r ∈ rs, Reads types pieces unknown rest m r (add m r))
    (h0 : pieces m = List.replicate types.length (.ok [])) (h : rs.foldlM add m = .ok m') :
    List.Forall₂ (Filled (· ∈ kept rs)) types (pieces m') := by
  refine foldlM_ok (fun _ m => List.Forall₂ (Filled (· ∈ kept rs)) types (pieces m)) h ?_ ?_
  · rw [h0]
    clear h0 ha h
    induction types with
    | nil => exact .nil
    | cons t types ih => exact .cons (filled_nil _ t) ih
  · intro done r rest t t' hl hi hs
    obtain ⟨he, -⟩ := ha t r (by simp [hl]) t' hs
    generalize pieces t = p, unknown t = u, pieces t' = p', unknown t' = u' at hi he ⊢
    cases he with
    | field i hti =>
      refine forall₂_set hi hti ⟨kept [r], rfl, ?_, fun s hs => ?_⟩
      · exact (List.length_filter_le _ _).trans (by simp)
      obtain rfl := List.mem_singleton.1 (mem_of_mem_kept hs)
      refine ⟨rfl, ?_⟩
      have hk := (List.mem_filter.1 hs).2
      exact List.mem_filter.2 ⟨by simp [hl], hk⟩
    | unknown _ => exact hi

/-! ## Encoders -/

lemma ofBE_encodeTu64 (n : Nat) : ofBE (encodeTu64 n) = n := by
  unfold encodeTu64
  by_cases hn : n = 0
  · simp [hn]
  rw [if_neg hn]
  refine ofBE_toBE _ _ ?_
  have hlt : n < 2 ^ n.size := Nat.lt_size_self n
  have hp : 2 ^ n.size ≤ 256 ^ ((n.size + 7) / 8) := by
    rw [show 256 = 2 ^ 8 from rfl, ← pow_mul]
    exact Nat.pow_le_pow_right (by decide) (by omega)
  exact hlt.trans_le hp

/-- A number of 64 bits is written without leading zeros in at most 8 bytes. -/
lemma badTu64_encodeTu64 {n : Nat} (h : n < 2 ^ 64) : badTu64 (encodeTu64 n) = false := by
  unfold encodeTu64
  by_cases hn : n = 0
  · simp [hn, badTu64]
  rw [if_neg hn]
  have hs : n.size ≤ 64 := Nat.size_le.2 h
  have hp : 0 < n.size := Nat.size_pos.2 (Nat.pos_of_ne_zero hn)
  have hl : (toBE ((n.size + 7) / 8) n).length ≤ 8 := by
    rw [length_toBE]
    omega
  have hv := ofBE_encodeTu64 n
  rw [encodeTu64, if_neg hn] at hv
  have hh : (toBE ((n.size + 7) / 8) n).head? ≠ some 0 := by
    intro h0
    -- With a zero in front, one byte less would do.
    obtain ⟨b, hb⟩ := List.head?_eq_some_iff.1 h0
    have hbl : b.length + 1 = (n.size + 7) / 8 := by
      have := congrArg List.length hb
      rw [length_toBE, List.length_cons] at this
      exact this.symm
    have hz : ofBE (0 :: b) = ofBE b := by simp [ofBE]
    have hle : 2 ^ (n.size - 1) ≤ n := Nat.lt_size.1 (by omega)
    have hlt : n < 2 ^ (8 * b.length) := by
      rw [← hv, hb, hz, pow_mul]
      exact ofBE_lt b
    have hpo : 2 ^ (8 * b.length) ≤ 2 ^ (n.size - 1) := Nat.pow_le_pow_right (by decide) (by omega)
    omega
  simp [badTu64, hh]
  simpa using hl

lemma length_encodeTu64 {n : Nat} (h : n < 2 ^ 64) : (encodeTu64 n).length ≤ 8 := by
  have := badTu64_encodeTu64 h
  simp only [badTu64, Bool.or_eq_false_iff, decide_eq_false_iff_not] at this
  omega

lemma utf8_inj {s t : String} (h : utf8 s = utf8 t) : s = t := by
  refine String.toByteArray_inj.1 (ByteArray.ext ?_)
  exact Array.toList_inj.1 h

lemma validUtf8_utf8 (s : String) : validUtf8 (utf8 s) = true := by
  have hb : (⟨(utf8 s).toArray⟩ : ByteArray) = s.toByteArray := by
    simp [utf8]
  rw [validUtf8, hb, String.fromUTF8?, dif_pos s.isValidUTF8]
  rfl

lemma decodeAscii_encodeAscii {s : String} {v : Bytes} (h : encodeAscii s = .ok v) : decodeAscii v = .ok s := by
  unfold encodeAscii at h
  split_ifs at h with hs
  obtain rfl := ok.inj h
  have hn : ∀ c ∈ s.toList, (UInt8.ofNat c.toNat).toNat = c.toNat := by
    intro c hc
    have hc := List.all_eq_true.1 hs c hc
    rw [decide_eq_true_eq] at hc
    rw [UInt8.toNat_ofNat', Nat.mod_eq_of_lt (by omega)]
  have ha : (s.toList.map fun c => UInt8.ofNat c.toNat).all (· < 128) = true := by
    simp only [List.all_map, List.all_eq_true, Function.comp_apply, decide_eq_true_eq]
    intro c hc
    rw [UInt8.lt_iff_toNat_lt, hn c hc]
    simpa using List.all_eq_true.1 hs c hc
  rw [decodeAscii, if_pos ha, List.map_map]
  congr 1
  refine (congrArg String.ofList ?_).trans String.ofList_toList
  refine (List.map_congr_left fun c hc => ?_).trans (List.map_id _)
  rw [Function.comp_apply, hn c hc]
  exact Char.ofNat_toNat c

lemma encodeAscii_inj {s t : String} {v : Bytes} (hs : encodeAscii s = .ok v) (ht : encodeAscii t = .ok v) : s = t :=
  ok.inj ((decodeAscii_encodeAscii hs).symm.trans (decodeAscii_encodeAscii ht))

lemma optRecord_inj {α : Type} {f f' : Option α} {enc : α → Except Exn Bytes}
    (hi : ∀ x y v, enc x = .ok v → enc y = .ok v → x = y) (h : optRecord t f enc = .ok z)
    (h' : optRecord t f' enc = .ok z) : f = f' := by
  have some_case : ∀ {f : Option α}, optRecord t f enc = .ok z →
      (f = none ∧ z = []) ∨ ∃ x v, f = some x ∧ enc x = .ok v ∧ z = [⟨t, v⟩] := by
    intro f h
    cases f with
    | none => exact .inl ⟨rfl, (ok.inj h).symm⟩
    | some x =>
      obtain ⟨v, hv, rfl⟩ := decoded h
      exact .inr ⟨x, v, rfl, hv, rfl⟩
  rcases some_case h with ⟨rfl, rfl⟩ | ⟨x, v, rfl, hx, rfl⟩
  · rcases some_case h' with ⟨rfl, -⟩ | ⟨y, w, rfl, hy, hz⟩
    · rfl
    · cases hz
  · rcases some_case h' with ⟨rfl, hz⟩ | ⟨y, w, rfl, hy, hz⟩
    · cases hz
    · obtain rfl : v = w := by simpa using hz
      rw [hi x y v hx hy]

lemma raw_inj (x y v : Bytes) (hx : (.ok x : Except Exn Bytes) = .ok v) (hy : (.ok y : Except Exn Bytes) = .ok v) :
    x = y :=
  ok.inj (hx.trans hy.symm)

lemma number_inj (x y : Nat) (v : Bytes) (hx : (.ok (encodeTu64 x) : Except Exn Bytes) = .ok v)
    (hy : (.ok (encodeTu64 y) : Except Exn Bytes) = .ok v) : x = y :=
  by rw [← ofBE_encodeTu64 x, ok.inj (hx.trans hy.symm), ofBE_encodeTu64]

lemma text_inj (x y : String) (v : Bytes) (hx : (.ok (utf8 x) : Except Exn Bytes) = .ok v)
    (hy : (.ok (utf8 y) : Except Exn Bytes) = .ok v) : x = y :=
  utf8_inj (ok.inj (hx.trans hy.symm))

lemma flatten_inj {cs ds : List Bytes} (hc : ∀ c ∈ cs, c.length = 32) (hd : ∀ d ∈ ds, d.length = 32)
    (h : cs.flatten = ds.flatten) : cs = ds := by
  induction cs generalizing ds with
  | nil =>
    cases ds with
    | nil => rfl
    | cons d ds =>
      have hl := congrArg List.length h
      simp [hd d (by simp)] at hl
      omega
  | cons c cs ih =>
    cases ds with
    | nil =>
      have hl := congrArg List.length h
      simp [hc c (by simp)] at hl
    | cons d ds =>
      rw [List.flatten_cons, List.flatten_cons] at h
      obtain ⟨rfl, ht⟩ := List.append_inj h ((hc c (by simp)).trans (hd d (by simp)).symm)
      rw [ih (fun x hx => hc x (List.mem_cons_of_mem _ hx)) (fun x hx => hd x (List.mem_cons_of_mem _ hx)) ht]

/-! ## Offer -/

variable {out : List TLVRecord} {o : Offer} {range : Nat}

namespace Offer

lemma length_chain (h : fromRecords rs range = .ok o) : ∀ c ∈ o.chains, c.length = 32 := by
  refine foldlM_ok (fun _ (o : Offer) => ∀ c ∈ o.chains, c.length = 32) h (by simp) ?_
  rintro done ⟨t, v⟩ rest o o' - hi hs
  unfold addRecord at hs
  dsimp only at hs
  rcases ite_eq_iff.1 hs with ⟨rfl, hs⟩ | ⟨h1, hs⟩
  · obtain ⟨⟨⟩, hv, rfl⟩ := decoded hs
    rw [raiseIf_eq_ok, decide_eq_false_iff_not, not_not] at hv
    intro c hc
    obtain ⟨i, hi, rfl⟩ := List.mem_map.1 hc
    rw [List.mem_range] at hi
    rw [length_slice]
    omega
  · have hsa : o'.chains = o.chains := by
      repeat
        rcases ite_eq_iff.1 hs with ⟨-, hs⟩ | ⟨-, hs⟩
        · first
          | (obtain ⟨_, -, rfl⟩ := decoded hs; rfl)
          | (obtain rfl := ok.inj hs; rfl)
      cases hs
    rwa [hsa]

lemma eq_of_slots {o' : Offer} (h : o.pieces = types.map fun t => .ok (slot rs t))
    (h' : o'.pieces = types.map fun t => .ok (slot rs t)) (hu : o.unknownRecords = o'.unknownRecords)
    (hc : ∀ c ∈ o.chains, c.length = 32) (hc' : ∀ c ∈ o'.chains, c.length = 32) : o = o' := by
  obtain ⟨chains, metadata, currency, amount, description, features, absoluteExpiry, paths, issuer, quantityMax,
    issuerId, unknown⟩ := o
  obtain ⟨chains', metadata', currency', amount', description', features', absoluteExpiry', paths', issuer',
    quantityMax', issuerId', unknown'⟩ := o'
  simp only [pieces, types, List.map_cons, List.map_nil, cons.injEq, and_true] at h h' hu
  obtain ⟨h1, h2, h3, h4, h5, h6, h7, h8, h9, h10, h11⟩ := h
  obtain ⟨h1', h2', h3', h4', h5', h6', h7', h8', h9', h10', h11'⟩ := h'
  have hch : chains = chains' := by
    have hs := ok.inj (h1.trans h1'.symm)
    by_cases hn : chains = []
    · by_cases hn' : chains' = []
      · rw [hn, hn']
      · simp [hn, hn'] at hs
    · by_cases hn' : chains' = []
      · simp [hn, hn'] at hs
      · exact flatten_inj hc hc' (by simpa [hn, hn'] using hs)
  have hp : issuerId = issuerId' := by
    refine optRecord_inj (fun x y v hx hy => ?_) h11 h11'
    obtain ⟨-, -, rfl⟩ := decoded hx
    obtain ⟨-, -, h⟩ := decoded hy
    exact h.symm
  subst hch hu hp
  rw [optRecord_inj raw_inj h2 h2', optRecord_inj (fun _ _ _ => encodeAscii_inj) h3 h3',
    optRecord_inj number_inj h4 h4', optRecord_inj text_inj h5 h5', optRecord_inj raw_inj h6 h6',
    optRecord_inj number_inj h7 h7', optRecord_inj raw_inj h8 h8', optRecord_inj text_inj h9 h9',
    optRecord_inj number_inj h10 h10']

lemma record_of_fromRecords (h : fromRecords rs OFFER_RANGE = .ok o) (hr : r ∈ rs) :
    (r.type < OFFER_RANGE ∨ isSignatureType r.type = true) ∧
      (isOfferType r.type = true → badText r = false ∧ badValue r = false) := by
  obtain ⟨ht, hv⟩ := (foldlM_isOk (fun o r _ => graded_record o r) {}).1 ⟨o, h⟩ r hr
  by_cases hlt : r.type < OFFER_RANGE
  · rw [if_pos hlt] at hv
    exact ⟨.inl hlt, fun ho => ⟨by simpa [ho] using ht, hv⟩⟩
  · rw [if_neg hlt] at hv
    exact ⟨.inr (by simpa using hv), fun ho => absurd (lt_of_isOfferType ho) hlt⟩

lemma shaped (o : Offer) : List.Forall₂ Shaped types o.pieces := by
  apply List.Forall₂.cons
  · intro z hz
    obtain rfl := ok.inj hz
    split
    · simp
    · simp
  · repeat apply List.Forall₂.cons (shaped_optRecord _ _ _)
    exact .nil

lemma mem_toRecords (h : o.toRecords = .ok out) (hz : .ok z ∈ o.pieces) : ∀ r ∈ z, r ∈ out := by
  intro r hr
  simp only [toRecords, bind_eq_ok] at h
  obtain ⟨recs, hre, hs⟩ := h
  apply (sortAndCheck_ok hs).1.symm.subset
  exact List.mem_append_left _ (mem_of_concat o.shaped types_nodup hre hz r hr)

lemma ascending_toRecords (h : o.toRecords = .ok out) : Ascending out := by
  simp only [toRecords, bind_eq_ok] at h
  obtain ⟨_, -, hs⟩ := h
  exact (sortAndCheck_ok hs).2

/-- What an offer is written as is not parsed as another offer, if its unknown records are in order. -/
lemma eq_of_written {o' : Offer} (hunk : ∀ r ∈ o.unknownRecords, r.type ∉ types) (hua : Ascending o.unknownRecords)
    (hc : ∀ c ∈ o.chains, c.length = 32) (hw : o.toRecords = .ok out) (hp : fromRecords out range = .ok o') :
    o' = o := by
  simp only [toRecords, bind_eq_ok] at hw
  obtain ⟨recs, hre, ho⟩ := hw
  obtain ⟨hpe, ha⟩ := sortAndCheck_ok ho
  obtain ⟨hm, -, hsl⟩ := slots_of_concat o.shaped types_nodup hre
  have hpi : o.pieces = types.map fun t => .ok (slot out t) := by
    rw [hsl]
    refine List.map_congr_left fun t ht => ?_
    have hem : slot o.unknownRecords t = [] := slot_eq_nil fun r hr he => hunk r hr (he ▸ ht)
    rw [slot_perm ha.distinct hpe, slot_append, hem, List.append_nil]
  have hk : kept out = out := by
    apply kept_eq_self.2
    intro r hr ht he
    -- The record of a non-empty list of chains has at least 32 bytes.
    have hs : r ∈ slot out OFFER_CHAINS := List.mem_filter.2 ⟨hr, by simpa using ht⟩
    have hf := congrArg (·[0]?) hpi
    simp only [pieces, types, List.map_cons, List.getElem?_cons_zero, Option.some.injEq, ok.injEq] at hf
    rw [← hf] at hs
    split at hs
    · simp at hs
    rename_i hne
    obtain rfl := List.mem_singleton.1 hs
    obtain ⟨c, cs, hcs⟩ := List.exists_cons_of_ne_nil hne
    have hl := congrArg List.length he
    rw [hcs, List.flatten_cons, List.length_append, hc c (by simp [hcs])] at hl
    simp at hl
  refine eq_of_slots ?_ hpi ?_ (length_chain hp) hc
  · rw [slots_of_fromRecords ha.distinct hp, hk]
  · rw [unknown_of_fromRecords hp]
    refine Ascending.eq_of_perm (ha.filter _) hua ((hpe.filter _).trans ?_)
    rw [List.filter_append, List.filter_eq_nil_iff.2 fun r hr => by simpa using hm r hr, List.nil_append,
      List.filter_eq_self.2 fun r hr => by simpa using hunk r hr]

/-- The offers that a request can mirror: no record is of type 0 or of a
signature type, and the records of unknown type are in ascending order. -/
def Mirrorable (rs : List TLVRecord) : Prop :=
  (∀ r ∈ rs, r.type ≠ INVREQ_METADATA ∧ isSignatureType r.type = false) ∧
    Ascending (rs.filter (·.type ∉ types))

/-- What a mirrorable offer is written as is parsed as that offer. -/
lemma fromRecords_toRecords (h : fromRecords rs OFFER_RANGE = .ok o) (hm : Mirrorable rs) :
    ∃ out, o.toRecords = .ok out ∧ Ascending out ∧
      (∀ r ∈ out, r ∈ rs ∧ isOfferType r.type = true) ∧ fromRecords out OFFER_RANGE = .ok o := by
  have hunk := unknown_of_fromRecords h
  have hof : ∀ r ∈ rs, isOfferType r.type = true := by
    intro r hr
    obtain ⟨h0, hs⟩ := hm.1 r hr
    have hlt : r.type < OFFER_RANGE := (record_of_fromRecords h hr).1.resolve_right (by simp [hs])
    have hin : inRange OFFER_RANGE r.type = true := decide_eq_true hlt
    simp [isOfferType, hin, h0]
  have hf : List.Forall₂ (Filled (· ∈ kept rs)) types o.pieces :=
    filled_of_run (fun o r _ => addRecord_reads OFFER_RANGE o r) rfl h
  obtain ⟨recs, hre, hme, hd, -⟩ := concat_of_filled hf types_nodup
  have hu : ∀ r ∈ o.unknownRecords, r ∈ rs ∧ r.type ∉ types := by
    intro r hr
    rw [hunk] at hr
    simpa using List.mem_filter.1 hr
  have hal : Distinct (recs ++ o.unknownRecords) := by
    refine List.pairwise_append.2 ⟨hd, ?_, fun a ha b hb he => (hu b hb).2 (he ▸ (hme a ha).1)⟩
    rw [hunk]
    exact hm.2.distinct
  obtain ⟨out, hout, hpe, hasc⟩ := exists_sortAndCheck hal
  have hou : ∀ r ∈ out, r ∈ kept rs := by
    intro r hr
    rcases List.mem_append.1 (hpe.subset hr) with hr | hr
    · exact (hme r hr).2
    · refine List.mem_filter.2 ⟨(hu r hr).1, ?_⟩
      have hne : r.type ≠ OFFER_CHAINS := fun he => (hu r hr).2 (he ▸ by decide)
      simp [emptyChains, hne]
  have ho : ∀ r ∈ out, isOfferType r.type = true := fun r hr => hof r (mem_of_mem_kept (hou r hr))
  have hp : ∃ o', fromRecords out OFFER_RANGE = .ok o' :=
    (foldlM_isOk (fun o r hr => graded_addRecord o r (lt_of_isOfferType (ho r hr))) {}).2 fun r hr =>
      (record_of_fromRecords h (mem_of_mem_kept (hou r hr))).2 (ho r hr)
  obtain ⟨o', ho'⟩ := hp
  have hw : o.toRecords = .ok out := by
    rw [toRecords, bind_eq_ok]
    exact ⟨recs, hre, hout⟩
  have heq : o' = o := eq_of_written (fun r hr => (hu r hr).2) (hunk ▸ hm.2) (length_chain h) hw ho'
  exact ⟨out, hw, hasc, fun r hr => ⟨mem_of_mem_kept (hou r hr), ho r hr⟩, heq ▸ ho'⟩

end Offer

/-! ## InvoiceRequest -/

open InvoiceRequest (signatureRecord)

variable {b : Bool} {s : Option Bytes}

lemma type_of_mem_signatureRecord (hr : r ∈ signatureRecord b s) : r.type = SIGNATURE := by
  cases b <;> cases s <;> simp [signatureRecord] at hr
  rw [hr]

lemma filled_optRecord {α : Type} {f : Option α} {enc : α → Except Exn Bytes}
    (h : ∀ x, f = some x → ∃ v, enc x = .ok v ∧ S ⟨t, v⟩) : Filled S t (optRecord t f enc) := by
  cases f with
  | none => exact filled_nil S t
  | some x =>
    obtain ⟨v, hv, hS⟩ := h x rfl
    exact ⟨[⟨t, v⟩], optRecord_some hv, by simp, by simpa using hS⟩

variable {q q' : InvoiceRequest}

namespace InvoiceRequest

lemma eq_of_slots (h : q.pieces = types.map fun t => .ok (slot rs t))
    (h' : q'.pieces = types.map fun t => .ok (slot rs t)) (ho : q.offer = q'.offer)
    (hu : q.unknownRecords = q'.unknownRecords) (hs : q.signature = q'.signature) : q = q' := by
  obtain ⟨offer, metadata, chain, amount, features, quantity, payerId, payerNote, paths, bip353Name, signature,
    unknown⟩ := q
  obtain ⟨offer', metadata', chain', amount', features', quantity', payerId', payerNote', paths', bip353Name',
    signature', unknown'⟩ := q'
  simp only [pieces, types, List.map_cons, List.map_nil, cons.injEq, and_true] at h h' ho hu hs
  obtain ⟨h1, h2, h3, h4, h5, h6, h7, h8, h9⟩ := h
  obtain ⟨h1', h2', h3', h4', h5', h6', h7', h8', h9'⟩ := h'
  subst ho hu hs
  rw [optRecord_inj raw_inj h1 h1', optRecord_inj raw_inj h2 h2', optRecord_inj number_inj h3 h3',
    optRecord_inj raw_inj h4 h4', optRecord_inj number_inj h5 h5', optRecord_inj raw_inj h6 h6',
    optRecord_inj text_inj h7 h7', optRecord_inj raw_inj h8 h8', optRecord_inj raw_inj h9 h9']

lemma shaped (q : InvoiceRequest) : List.Forall₂ Shaped types q.pieces := by
  unfold types pieces
  repeat apply List.Forall₂.cons (shaped_optRecord _ _ _)
  exact .nil

lemma mem_toRecords (h : q.toRecords b = .ok out) (hz : .ok z ∈ q.pieces) : ∀ r ∈ z, r ∈ out := by
  intro r hr
  simp only [toRecords, bind_eq_ok] at h
  obtain ⟨offerRecs, -, recs, hre, hs⟩ := h
  apply (sortAndCheck_ok hs).1.symm.subset
  simp [mem_of_concat q.shaped types_nodup hre hz r hr]

lemma ascending_toRecords (h : q.toRecords b = .ok out) : Ascending out := by
  simp only [toRecords, bind_eq_ok] at h
  obtain ⟨_, -, _, -, hs⟩ := h
  exact (sortAndCheck_ok hs).2

lemma exists_parse {offer : Offer} (hf : ∀ r ∈ rs, badFrame INVREQ_RANGE r = false)
    (ho : Offer.fromRecords (rs.filter (isOfferType ·.type)) OFFER_RANGE = .ok offer)
    (hfi : ∀ r ∈ rs, isOfferType r.type = false → r.type ≠ SIGNATURE → badText r = false ∧ badValue r = false) :
    ∃ q, parse ⟨.lnr, rs⟩ = .ok q := by
  obtain ⟨l, hl⟩ := (foldlM_isOk (fun l r _ => graded_splitRecord l r) {}).2 fun r hr => ⟨rfl, hf r hr⟩
  obtain ⟨hlo, hlw, -⟩ := split_of_foldlM hl
  have hm : ∀ r ∈ l.own, r ∈ rs ∧ isOfferType r.type = false ∧ r.type ≠ SIGNATURE := by
    intro r hr
    rw [hlw] at hr
    simpa using List.mem_filter.1 hr
  obtain ⟨q, hq⟩ := (foldlM_isOk (fun q r hr => graded_addRecord q r (hm r hr).2.1)
    { offer := offer, signature := l.signature }).2 fun r hr => hfi r (hm r hr).1 (hm r hr).2.1 (hm r hr).2.2
  refine ⟨q, ?_⟩
  simp only [parse, bind_eq_ok]
  exact ⟨(), rfl, l, hl, offer, by rw [hlo, ho], hq⟩

lemma record_of_parse (h : parse ⟨.lnr, rs⟩ = .ok q) (hr : r ∈ rs) :
    badFrame INVREQ_RANGE r = false ∧ (r.type ≠ SIGNATURE → badText r = false ∧ badValue r = false) := by
  simp only [parse, bind_eq_ok] at h
  obtain ⟨⟨⟩, -, l, hl, o, ho, hq⟩ := h
  obtain ⟨hlo, hlw, -⟩ := split_of_foldlM hl
  have hf := (foldlM_isOk (fun l r _ => graded_splitRecord l r) {}).1 ⟨l, hl⟩ r hr
  refine ⟨hf.2, fun hs => ?_⟩
  by_cases hof : isOfferType r.type = true
  · have hm : r ∈ l.offer := hlo ▸ List.mem_filter.2 ⟨hr, hof⟩
    exact (Offer.record_of_fromRecords ho hm).2 hof
  · have hm : r ∈ l.own := hlw ▸ List.mem_filter.2 ⟨hr, by simp [hof, hs]⟩
    rw [hlw] at hq hm
    exact (foldlM_isOk (fun q r hr => graded_addRecord q r (own_types hr).1) _).1 ⟨q, hq⟩ r hm

lemma signatureRecord_inj {s' : Option Bytes} (h : signatureRecord true s = signatureRecord true s') : s = s' := by
  cases s with
  | none =>
    cases s' with
    | none => rfl
    | some x => cases h
  | some x =>
    cases s' with
    | none => cases h
    | some y => simpa [signatureRecord] using h

section Written

variable {q : InvoiceRequest} {offerRecs out : List TLVRecord} (hoff : q.offer.toRecords = .ok offerRecs)
  (hot : ∀ r ∈ offerRecs, isOfferType r.type = true) (hunk : q.unknownRecords = [])
include hoff hot hunk

/-- What a request without unknown records of its own is written as, layer by layer. -/
lemma layers_of_written (hw : q.toRecords b = .ok out) :
    ∃ recs, Ascending out ∧ out.Perm (offerRecs ++ recs ++ signatureRecord b q.signature) ∧
      out.filter (isOfferType ·.type) = offerRecs ∧
      (out.filter (isOwnType ·.type)).Perm recs ∧
      slot out SIGNATURE = signatureRecord b q.signature ∧
      (∀ r ∈ recs, r.type ∈ types) ∧ q.pieces = types.map fun t => .ok (slot recs t) := by
  simp only [toRecords, bind_eq_ok, hoff, ok.injEq, exists_eq_left', hunk, List.append_nil] at hw
  obtain ⟨recs, hre, hou⟩ := hw
  obtain ⟨hp, ha⟩ := sortAndCheck_ok hou
  obtain ⟨hm, -, hsl⟩ := slots_of_concat q.shaped types_nodup hre
  have ho := Offer.ascending_toRecords hoff
  have how : ∀ r ∈ recs, isOfferType r.type = false ∧ r.type ≠ SIGNATURE := by
    intro r hr
    have hal : ∀ t ∈ types, isOfferType t = false ∧ t ≠ SIGNATURE := by decide
    exact hal r.type (hm r hr)
  have hsi : ∀ r ∈ signatureRecord b q.signature, r.type = SIGNATURE := fun r hr => type_of_mem_signatureRecord hr
  have hs : isOfferType SIGNATURE = false := rfl
  refine ⟨recs, ha, hp, ?_, ?_, ?_, hm, hsl⟩
  · refine Ascending.eq_of_perm (ha.filter _) ho ((hp.filter _).trans ?_)
    rw [List.filter_append, List.filter_append, List.filter_eq_self.2 hot,
      List.filter_eq_nil_iff.2 fun r hr => by simp [(how r hr).1],
      List.filter_eq_nil_iff.2 fun r hr => by simp [hsi r hr, hs]]
    simp
  · refine (hp.filter _).trans ?_
    rw [List.filter_append, List.filter_append, List.filter_eq_nil_iff.2 fun r hr => by simp [hot r hr],
      List.filter_eq_self.2 fun r hr => by simp [(how r hr).1, (how r hr).2],
      List.filter_eq_nil_iff.2 fun r hr => by simp [hsi r hr]]
    simp
  · rw [slot_perm ha.distinct hp, slot_append, slot_append, slot_eq_self hsi,
      slot_eq_nil fun r hr => ne_signature_of_offer (hot r hr), slot_eq_nil fun r hr => (how r hr).2]
    rfl

lemma eq_of_written (hsa : ∀ o, Offer.fromRecords offerRecs OFFER_RANGE = .ok o → o = q.offer)
    (hw : q.toRecords true = .ok out) (hp : parse ⟨.lnr, out⟩ = .ok q') : q' = q := by
  obtain ⟨recs, ha, -, ho, hre, hsi, hm, hs⟩ := layers_of_written hoff hot hunk hw
  obtain ⟨hqo, hqp, hqu, hqs⟩ := layers_of_parse ha.distinct rfl hp
  refine eq_of_slots hqp ?_ (hsa _ (ho ▸ hqo)) ?_ (signatureRecord_inj (hqs.trans hsi))
  · rw [hs]
    apply List.map_congr_left
    intro t _
    rw [slot_perm (ha.distinct.filter _) hre]
  · rw [hqu, hunk, List.filter_eq_nil_iff]
    intro r hr
    simpa using hm r (hre.subset hr)

/-- What a signed request over a mirrored offer is written as is parsed as that request. -/
lemma parse_toRecords {sig : Bytes} (hp : Offer.fromRecords offerRecs OFFER_RANGE = .ok q.offer)
    (hf : List.Forall₂ (Filled S) types q.pieces) (hS : ∀ r, S r → badText r = false ∧ badValue r = false)
    (hsi : q.signature = some sig) (hl : sig.length = 64) :
    ∃ out, q.toRecords true = .ok out ∧ Ascending out ∧ parse ⟨.lnr, out⟩ = .ok q ∧
      (∀ r ∈ out, r ∈ offerRecs ∨ (r.type ∈ types ∧ S r) ∨ r = ⟨SIGNATURE, sig⟩) ∧
      ∀ z, .ok z ∈ q.pieces → ∀ r ∈ z, r ∈ out := by
  obtain ⟨recs, hre, hm, hd, hsl⟩ := concat_of_filled hf types_nodup
  have how : ∀ r ∈ recs, isOfferType r.type = false ∧ r.type < INVREQ_RANGE ∧ r.type ≠ SIGNATURE := by
    intro r hr
    have hal : ∀ t ∈ types, isOfferType t = false ∧ t < INVREQ_RANGE ∧ t ≠ SIGNATURE := by decide
    exact hal r.type (hm r hr).1
  have hof := Offer.ascending_toRecords hoff
  have hal : Distinct (offerRecs ++ recs ++ [⟨SIGNATURE, sig⟩]) := by
    refine List.pairwise_append.2
      ⟨List.pairwise_append.2 ⟨hof.distinct, hd, ?_⟩, List.pairwise_singleton _ _, ?_⟩
    · intro a ha b hb he
      have := (how b hb).1
      rw [← he, hot a ha] at this
      cases this
    · intro a ha b hb
      obtain rfl := List.mem_singleton.1 hb
      rcases List.mem_append.1 ha with ha | ha
      · exact ne_signature_of_offer (hot a ha)
      · exact (how a ha).2.2
  obtain ⟨out, hout, hpe, hasc⟩ := exists_sortAndCheck hal
  have hw : q.toRecords true = .ok out := by
    simp only [toRecords, bind_eq_ok]
    refine ⟨offerRecs, hoff, recs, hre, ?_⟩
    rw [hunk, hsi, List.append_nil]
    exact hout
  have hou : ∀ r ∈ out, r ∈ offerRecs ∨ r ∈ recs ∨ r = ⟨SIGNATURE, sig⟩ := by
    intro r hr
    simpa [or_assoc] using hpe.subset hr
  obtain ⟨-, -, -, hoffers, -⟩ := layers_of_written hoff hot hunk hw
  have hfr : ∀ r ∈ out, badFrame INVREQ_RANGE r = false := by
    intro r hr
    rcases hou r hr with h | h | rfl
    · exact badFrame_of_lt (by decide) (Nat.lt_trans (lt_of_isOfferType (hot r h)) (by decide))
    · exact badFrame_of_lt (by decide) (how r h).2.1
    · simp [badFrame, hl, show isSignatureType SIGNATURE = true from rfl]
  obtain ⟨q', hq'⟩ := exists_parse hfr (hoffers ▸ hp) fun r hr ho hs => by
    rcases hou r hr with h | h | rfl
    · rw [hot r h] at ho
      cases ho
    · exact hS r (hm r h).2
    · exact absurd rfl hs
  have heq : q' = q := eq_of_written hoff hot hunk (fun o ho => ok.inj (ho.symm.trans hp)) hw hq'
  refine ⟨out, hw, hasc, heq ▸ hq', fun r hr => ?_, fun z hz r hr => ?_⟩
  · rcases hou r hr with h | h | h
    · exact .inl h
    · exact .inr (.inl (hm r h))
    · exact .inr (.inr h)
  · rw [hsl] at hz
    obtain ⟨t, -, hzt⟩ := List.mem_map.1 hz
    obtain rfl := ok.inj hzt
    exact hpe.symm.subset (by simp [(List.mem_filter.1 hr).1])

end Written

end InvoiceRequest

/-! ## Invoice -/

variable {i : Invoice}

namespace Invoice

lemma shaped (i : Invoice) : List.Forall₂ Shaped types i.pieces := by
  unfold types pieces
  repeat apply List.Forall₂.cons (shaped_optRecord _ _ _)
  exact .nil

lemma mem_toRecords (h : i.toRecords b = .ok out) (hz : .ok z ∈ i.pieces) : ∀ r ∈ z, r ∈ out := by
  intro r hr
  simp only [toRecords, bind_eq_ok] at h
  obtain ⟨lower, -, recs, hre, hs⟩ := h
  apply (sortAndCheck_ok hs).1.symm.subset
  simp [mem_of_concat i.shaped types_nodup hre hz r hr]

lemma ascending_toRecords (h : i.toRecords b = .ok out) : Ascending out := by
  simp only [toRecords, bind_eq_ok] at h
  obtain ⟨_, -, _, -, hs⟩ := h
  exact (sortAndCheck_ok hs).2

lemma exists_parse (ha : Ascending rs) (hfr : ∀ r ∈ rs, badFrame INVOICE_RANGE r = false)
    (hlower : ∀ r ∈ rs, r.type < INVREQ_RANGE → badText r = false ∧ badValue r = false)
    (how : ∀ r ∈ rs, INVREQ_RANGE ≤ r.type → r.type ≠ SIGNATURE → badOwn r = false) :
    ∃ i, parse ⟨.lni, rs⟩ = .ok i := by
  obtain ⟨l, hl⟩ := (foldlM_isOk (fun l r _ => graded_splitRecord l r) {}).2 fun r hr => ⟨rfl, hfr r hr⟩
  obtain ⟨hlo, hlq, hlw, -⟩ := split_of_foldlM hl
  have hof : ∀ r ∈ l.offer, r ∈ rs ∧ isOfferType r.type = true := by
    intro r hr
    rw [hlo] at hr
    exact List.mem_filter.1 hr
  have hf : ∀ r ∈ l.offer, badText r = false ∧ badValue r = false := fun r hr =>
    hlower r (hof r hr).1 (Nat.lt_trans (lt_of_isOfferType (hof r hr).2) (by decide))
  obtain ⟨o, ho⟩ : ∃ o, Offer.fromRecords l.offer OFFER_RANGE = .ok o := by
    refine (foldlM_isOk (fun o r hr => Offer.graded_addRecord o r ?_) {}).2 hf
    exact lt_of_isOfferType (hof r hr).2
  -- The offer's records are written back and parsed again.
  obtain ⟨offerRecs, hoff, hp, -⟩ := Offer.toRecords_of_fromRecords (hlo ▸ ha.distinct.filter _) ho
  have hre : ∀ r ∈ offerRecs, r ∈ l.offer := fun r hr => mem_of_mem_kept (hp.subset hr)
  have hin : ∀ r ∈ l.invreq, r ∈ rs ∧ isOfferType r.type = false ∧ r.type < INVREQ_RANGE := by
    intro r hr
    rw [hlq] at hr
    simpa using List.mem_filter.1 hr
  have hoffers : (offerRecs ++ l.invreq).filter (isOfferType ·.type) = offerRecs := by
    rw [List.filter_append, List.filter_eq_self.2 fun r hr => (hof r (hre r hr)).2,
      List.filter_eq_nil_iff.2 fun r hr => by simp [(hin r hr).2.1], List.append_nil]
  obtain ⟨o', ho'⟩ : ∃ o', Offer.fromRecords offerRecs OFFER_RANGE = .ok o' := by
    refine (foldlM_isOk (fun o r hr => Offer.graded_addRecord o r ?_) {}).2 fun r hr => hf r (hre r hr)
    exact lt_of_isOfferType (hof r (hre r hr)).2
  obtain ⟨q, hq⟩ : ∃ q, InvoiceRequest.parse ⟨.lnr, offerRecs ++ l.invreq⟩ = .ok q := by
    refine InvoiceRequest.exists_parse (fun r hr => ?_) (by rw [hoffers]; exact ho') fun r hr ho _ => ?_
    · apply badFrame_of_lt (by decide)
      rcases List.mem_append.1 hr with hr | hr
      · exact Nat.lt_trans (lt_of_isOfferType (hof r (hre r hr)).2) (by decide)
      · exact (hin r hr).2.2
    · rcases List.mem_append.1 hr with hr | hr
      · exact hf r (hre r hr)
      · exact hlower r (hin r hr).1 (hin r hr).2.2
  obtain ⟨i, hi⟩ : ∃ i, l.own.foldlM addRecord { invreq := q, signature := l.signature } = .ok i := by
    refine (foldlM_isOk (fun i r _ => graded_addRecord i r) _).2 fun r hr => ?_
    rw [hlw] at hr
    exact ⟨rfl, how r (List.mem_filter.1 hr).1 (own_types hr).1 (own_types hr).2⟩
  refine ⟨i, ?_⟩
  simp only [parse, bind_eq_ok]
  exact ⟨(), rfl, l, hl, o, ho, offerRecs, hoff, q, hq, hi⟩

end Invoice

end AgentWallet.Bolt12
