import AgentWallet.Bolt12.Bech32
import AgentWallet.Bolt12.RoundTrip
/-!
# Parsing untrusted input

`Codec.decode` reads the text form into records; the three `parse` functions read
the records into messages. They are to fail with `Bolt12Error` only, which is
what their callers catch. The text fields are decoded with `bytes.decode`, whose
`UnicodeDecodeError` is of another class, so this holds exactly when an error of
the codec is raised before the first text that cannot be decoded
(`parse_codecOnly_iff`).
-/

namespace AgentWallet.Bolt12

open AgentWallet.Lib List Except

namespace Codec

def decode (unicodeLower : List Char → List Char) (s : String) (caps : Caps) : Except Exn Bolt12String := do
  let (hrp, payload) ← Bech32.decode unicodeLower s
  let records ← decodeStream payload caps
  return ⟨hrp, records⟩

def encode (b12 : Bolt12String) : Except Exn String := do
  let payload ← encodeStream b12.records
  return Bech32.encode b12.hrp payload

/-- What the text of a message with a canonical stream is decoded to. -/
lemma decode_encode {unicodeLower : List Char → List Char} {b12 : Bolt12String} {payload : Bytes} {s : String}
    (hc : Canonical b12.records) (hne : b12.records ≠ []) (hp : encodeStream b12.records = .ok payload)
    (hs : encode b12 = .ok s) (x : Bolt12String) :
    decode unicodeLower s {} = .ok x ↔ payload.length ≤ 5117 ∧ x = b12 := by
  have hst : decodeStream payload {} = .ok b12.records := decodeStream_of_encode hc hp
  have hpa : payload ≠ [] := by
    rintro rfl
    have hn : decodeStream [] {} = .ok [] := decodeStream_of_encode ⟨.nil, by simp⟩ rfl
    exact hne (ok.inj (hst.symm.trans hn))
  obtain rfl : Bech32.encode b12.hrp payload = s := by
    simp only [encode, hp, bind_eq_ok, pure_eq_ok, ok.injEq, exists_eq_left'] at hs
    exact hs
  simp only [decode, bind_eq_ok, Bech32.decode_encode_ok_iff hpa, pure_eq_ok]
  constructor
  · rintro ⟨_, ⟨hl, rfl⟩, rs, hrs, rfl⟩
    rw [hst, ok.injEq] at hrs
    subst hrs
    exact ⟨hl, rfl⟩
  · rintro ⟨hl, rfl⟩
    exact ⟨_, ⟨hl, rfl⟩, _, hst, rfl⟩

end Codec

inductive Message
  | offer (o : Offer)
  | invoiceRequest (q : InvoiceRequest)
  | invoice (i : Invoice)

/-- `Offer.parse`, `InvoiceRequest.parse` or `Invoice.parse`. -/
def parseAs (kind : Hrp) (b12 : Bolt12String) : Except Exn Message :=
  match kind with
  | .lno => (Offer.parse b12).map .offer
  | .lnr => (InvoiceRequest.parse b12).map .invoiceRequest
  | .lni => (Invoice.parse b12).map .invoice

/-- The computation returns a value or raises `Bolt12Error`. -/
def CodecOnly {α : Type} (x : Except Exn α) : Prop := ∀ e, x = .error e → e.isBolt12Error = true

/-! ## Malformed records -/

def validUtf8 (v : Bytes) : Bool := (String.fromUTF8? ⟨v.toArray⟩).isSome

/-- A text that is not in the charset of its field: `offer_currency` in ASCII,
`offer_description`, `offer_issuer` and `invreq_payer_note` in UTF-8. -/
def badText (r : TLVRecord) : Bool :=
  if r.type = OFFER_CURRENCY then !r.value.all (· < 128)
  else if r.type ∈ [OFFER_DESCRIPTION, OFFER_ISSUER, INVREQ_PAYER_NOTE] then !validUtf8 r.value
  else false

def badTu64 (v : Bytes) : Bool := v.length > 8 || v.head? = some 0

def badPoint (v : Bytes) : Bool := v.length ≠ 33 || decide (v.head? ≠ some 2 ∧ v.head? ≠ some 3)

/-- A field of an offer or of an invoice request that the codec rejects. -/
def badValue (r : TLVRecord) : Bool :=
  if r.type = OFFER_CHAINS then r.value.length % 32 ≠ 0
  else if r.type ∈ [OFFER_AMOUNT, OFFER_ABSOLUTE_EXPIRY, OFFER_QUANTITY_MAX, INVREQ_AMOUNT, INVREQ_QUANTITY] then
    badTu64 r.value
  else if r.type ∈ [OFFER_ISSUER_ID, INVREQ_PAYER_ID] then badPoint r.value
  else if r.type = INVREQ_CHAIN then r.value.length ≠ 32
  else false

/-- A record that the first loop of `InvoiceRequest.parse` and of `Invoice.parse`
rejects: a signature of a wrong length, or a type beyond the message's range. -/
def badFrame (range : Nat) (r : TLVRecord) : Bool :=
  if isSignatureType r.type then r.type = SIGNATURE && r.value.length ≠ 64 else range ≤ r.type

/-- Every record with a bad text comes after a record with a bad value. -/
def TextAfterValue (text value : TLVRecord → Bool) (rs : List TLVRecord) : Prop :=
  ∀ r ∈ rs, text r = true → ∃ q ∈ rs, q.type < r.type ∧ value q = true

instance (text value : TLVRecord → Bool) (rs : List TLVRecord) : Decidable (TextAfterValue text value rs) :=
  inferInstanceAs (Decidable (∀ r ∈ rs, text r = true → ∃ q ∈ rs, q.type < r.type ∧ value q = true))

/-- The records of a message of the given kind can be parsed without meeting a
bad text: the codec rejects the message before. -/
def Readable (kind : Hrp) (rs : List TLVRecord) : Prop :=
  match kind with
  | .lno => TextAfterValue (fun r => isOfferType r.type && badText r) badValue rs
  | .lnr => (∃ r ∈ rs, badFrame INVREQ_RANGE r = true) ∨ TextAfterValue badText badValue rs
  | .lni => (∃ r ∈ rs, badFrame INVOICE_RANGE r = true) ∨ TextAfterValue badText badValue rs

/-! ## One step of a loop -/

/-- `text` and `codec` say how a step fails: with `UnicodeDecodeError`, with an
error of the codec, or not at all. -/
structure Graded {α : Type} (x : Except Exn α) (text codec : Bool) : Prop where
  text_error : text = true → x = .error .unicodeDecodeError
  codec_error : codec = true → ∃ e, x = .error e ∧ e.isBolt12Error = true
  ok : text = false → codec = false → ∃ a, x = .ok a

lemma graded_ok {α : Type} (a : α) : Graded (.ok a : Except Exn α) false false := ⟨by simp, by simp, by simp⟩

lemma graded_error {α : Type} {e : Exn} (he : e.isBolt12Error = true) :
    Graded (.error e : Except Exn α) false true := ⟨by simp, by simpa using he, by simp⟩

lemma Graded.map {α β : Type} {x : Except Exn α} {text codec : Bool} (h : Graded x text codec) (f : α → β) :
    Graded (do let a ← x; return f a) text codec := by
  refine ⟨fun ht => ?_, fun hc => ?_, fun ht hc => ?_⟩
  · rw [h.text_error ht]; rfl
  · obtain ⟨e, he, hb⟩ := h.codec_error hc
    exact ⟨e, by rw [he]; rfl, hb⟩
  · obtain ⟨a, ha⟩ := h.ok ht hc
    exact ⟨f a, by rw [ha]; rfl⟩

lemma graded_raiseIf (bad : Bool) (msg : String) : Graded (raiseIf bad (Exn.bolt12FormatError msg)) false bad := by
  cases bad
  · exact graded_ok ()
  · exact graded_error rfl

lemma graded_decodeAscii (v : Bytes) : Graded (decodeAscii v) (!v.all (· < 128)) false := by
  unfold decodeAscii
  split_ifs with h
  · rw [h]; exact graded_ok _
  · rw [Bool.not_eq_true] at h
    rw [h]
    exact ⟨fun _ => rfl, by simp, by simp⟩

lemma graded_decodeUtf8 (v : Bytes) : Graded (decodeUtf8 v) (!validUtf8 v) false := by
  unfold decodeUtf8 validUtf8
  split
  · rename_i s hs
    rw [hs]; exact graded_ok s
  · rename_i hs
    rw [hs]; exact ⟨fun _ => rfl, by simp, by simp⟩

lemma Graded.seq {α : Type} {x : Except Exn Unit} {y : Except Exn α} {c d : Bool} (hx : Graded x false c)
    (hy : Graded y false d) : Graded (do x; y) false (c || d) := by
  refine ⟨by simp, fun h => ?_, fun _ h => ?_⟩
  · cases c with
    | true =>
      obtain ⟨e, he, hb⟩ := hx.codec_error rfl
      exact ⟨e, by rw [he]; rfl, hb⟩
    | false =>
      obtain ⟨⟨⟩, hu⟩ := hx.ok rfl rfl
      obtain ⟨e, he, hb⟩ := hy.codec_error (by simpa using h)
      exact ⟨e, by rw [hu]; exact he, hb⟩
  · obtain ⟨hc, hd⟩ := Bool.or_eq_false_iff.1 h
    obtain ⟨⟨⟩, hu⟩ := hx.ok rfl hc
    obtain ⟨a, ha⟩ := hy.ok rfl hd
    exact ⟨a, by rw [hu]; exact ha⟩

lemma graded_decodeTu64 (v : Bytes) : Graded (decodeTu64 v) false (badTu64 v) :=
  (graded_raiseIf _ _).seq ((graded_raiseIf _ _).map fun _ => ofBE v)

lemma graded_checkPoint (name : String) (v : Bytes) : Graded (checkPoint name v) false (badPoint v) :=
  (graded_raiseIf _ _).seq (graded_raiseIf _ _)

lemma graded_ite {α : Type} {c : Prop} [Decidable c] {x y : Except Exn α} {text codec : Bool}
    (hx : c → Graded x text codec) (hy : ¬ c → Graded y text codec) : Graded (if c then x else y) text codec := by
  by_cases h : c
  · rw [if_pos h]; exact hx h
  · rw [if_neg h]; exact hy h

lemma graded_field {α : Type} {t c : Nat} {v : Bytes} {p q : TLVRecord → Bool} {x y : Except Exn α}
    (hx : Graded x (p ⟨c, v⟩) (q ⟨c, v⟩)) (hy : t ≠ c → Graded y (p ⟨t, v⟩) (q ⟨t, v⟩)) :
    Graded (if t = c then x else y) (p ⟨t, v⟩) (q ⟨t, v⟩) :=
  graded_ite (fun ht => ht ▸ hx) hy

/-! ## The field loops -/

lemma Offer.graded_addRecord (o : Offer) (r : TLVRecord) (h : r.type < OFFER_RANGE) :
    Graded (addRecord OFFER_RANGE o r) (badText r) (badValue r) := by
  obtain ⟨t, v⟩ := r
  refine graded_field ((graded_raiseIf _ _).map _) fun h1 => ?_
  refine graded_field (graded_ok _) fun h2 => ?_
  refine graded_field ((graded_decodeAscii v).map _) fun h3 => ?_
  refine graded_field ((graded_decodeTu64 v).map _) fun h4 => ?_
  refine graded_field ((graded_decodeUtf8 v).map _) fun h5 => ?_
  refine graded_field (graded_ok _) fun h6 => ?_
  refine graded_field ((graded_decodeTu64 v).map _) fun h7 => ?_
  refine graded_field (graded_ok _) fun h8 => ?_
  refine graded_field ((graded_decodeUtf8 v).map _) fun h9 => ?_
  refine graded_field ((graded_decodeTu64 v).map _) fun h10 => ?_
  refine graded_field ((graded_checkPoint _ v).map _) fun h11 => ?_
  have hne : ∀ c, OFFER_RANGE ≤ c → t ≠ c := fun c hc => (Nat.lt_of_lt_of_le h hc).ne
  have ht : badText ⟨t, v⟩ = false := by
    simp [badText, h3, h5, h9, hne INVREQ_PAYER_NOTE (by decide)]
  have hv : badValue ⟨t, v⟩ = false := by
    simp [badValue, h1, h4, h7, h10, h11, hne INVREQ_AMOUNT (by decide), hne INVREQ_QUANTITY (by decide),
      hne INVREQ_PAYER_ID (by decide), hne INVREQ_CHAIN (by decide)]
  rw [ht, hv]
  refine graded_ite (fun _ => graded_ok _) fun hr => ?_
  exact absurd (by simpa [inRange] using .inl h) hr

lemma InvoiceRequest.graded_addRecord (q : InvoiceRequest) (r : TLVRecord) (h : isOfferType r.type = false) :
    Graded (addRecord q r) (badText r) (badValue r) := by
  obtain ⟨t, v⟩ := r
  refine graded_field (graded_ok _) fun h1 => ?_
  refine graded_field ((graded_raiseIf _ _).map _) fun h2 => ?_
  refine graded_field ((graded_decodeTu64 v).map _) fun h3 => ?_
  refine graded_field (graded_ok _) fun h4 => ?_
  refine graded_field ((graded_decodeTu64 v).map _) fun h5 => ?_
  refine graded_field ((graded_checkPoint _ v).map _) fun h6 => ?_
  refine graded_field ((graded_decodeUtf8 v).map _) fun h7 => ?_
  refine graded_field (graded_ok _) fun h8 => ?_
  refine graded_field (graded_ok _) fun h9 => ?_
  have hne : ∀ c, isOfferType c = true → t ≠ c := by
    rintro c hc rfl
    exact absurd (h.symm.trans hc) (by decide)
  have ht : badText ⟨t, v⟩ = false := by
    simp [badText, h7, hne OFFER_CURRENCY rfl, hne OFFER_DESCRIPTION rfl, hne OFFER_ISSUER rfl]
  have hv : badValue ⟨t, v⟩ = false := by
    simp [badValue, h2, h3, h5, h6, hne OFFER_CHAINS rfl, hne OFFER_AMOUNT rfl, hne OFFER_ABSOLUTE_EXPIRY rfl,
      hne OFFER_QUANTITY_MAX rfl, hne OFFER_ISSUER_ID rfl]
  rw [ht, hv]
  exact graded_ok _

lemma Graded.codecOnly {α : Type} {x : Except Exn α} {codec : Bool} (h : Graded x false codec) : CodecOnly x := by
  intro e he
  cases codec with
  | true =>
    obtain ⟨e', he', hb⟩ := h.codec_error rfl
    rw [he, error.injEq] at he'
    rwa [he']
  | false =>
    obtain ⟨a, ha⟩ := h.ok rfl rfl
    rw [he] at ha
    cases ha

lemma codecOnly_ok {α : Type} (a : α) : CodecOnly (.ok a : Except Exn α) := fun _ h => by cases h

lemma codecOnly_bind {α β : Type} {x : Except Exn α} {f : α → Except Exn β} :
    CodecOnly (x >>= f) ↔ CodecOnly x ∧ ∀ a, x = .ok a → CodecOnly (f a) := by
  cases x with
  | error e | ok a => simp [CodecOnly, bind, Except.bind]

lemma codecOnly_map {α β : Type} {x : Except Exn α} {f : α → β} : CodecOnly (x.map f) ↔ CodecOnly x := by
  cases x <;> simp [CodecOnly, Except.map]

variable {r : TLVRecord}

section Loop

variable {σ : Type} {step : σ → TLVRecord → Except Exn σ} {text value : TLVRecord → Bool} {l : List TLVRecord}

/-- A loop fails with errors of the codec only when a bad value comes before the first bad text. -/
lemma codecOnly_foldlM (hasc : Ascending l) (hs : ∀ s, ∀ r ∈ l, Graded (step s r) (text r) (value r)) (s : σ) :
    CodecOnly (l.foldlM step s) ↔ TextAfterValue text value l := by
  induction l generalizing s with
  | nil => exact iff_of_true (codecOnly_ok s) (by simp [TextAfterValue])
  | cons a l ih =>
    obtain ⟨hlt, hasc⟩ := pairwise_cons.1 hasc
    have ha := hs s a (by simp)
    rw [foldlM_cons]
    by_cases ht : text a = true
    · rw [ha.text_error ht]
      refine iff_of_false (fun h => absurd (h _ rfl) (by decide)) fun h => ?_
      obtain ⟨q, hq, hqa, -⟩ := h a (by simp) ht
      rcases mem_cons.1 hq with rfl | hq
      · omega
      · have := hlt q hq
        omega
    by_cases hv : value a = true
    · obtain ⟨e, he, hb⟩ := ha.codec_error hv
      rw [he]
      refine iff_of_true (fun e' he' => ?_) fun r hr hrt => ?_
      · cases he'
        exact hb
      · rcases mem_cons.1 hr with rfl | hr
        · exact absurd hrt ht
        · exact ⟨a, by simp, hlt r hr, hv⟩
    obtain ⟨s', hs'⟩ := ha.ok (by simpa using ht) (by simpa using hv)
    rw [hs']
    refine (ih hasc (fun t r hr => hs t r (by simp [hr])) s').trans ?_
    -- The head is neither a bad text nor a bad value.
    simp only [TextAfterValue, forall_mem_cons, exists_mem_cons_iff, ht, hv]
    simp

lemma foldlM_isOk (hs : ∀ s, ∀ r ∈ l, Graded (step s r) (text r) (value r)) (s : σ) :
    (∃ s', l.foldlM step s = .ok s') ↔ ∀ r ∈ l, text r = false ∧ value r = false := by
  induction l generalizing s with
  | nil => exact iff_of_true ⟨s, rfl⟩ (by simp)
  | cons a l ih =>
    have ha := hs s a (by simp)
    rw [foldlM_cons, forall_mem_cons]
    by_cases ht : text a = true
    · rw [ha.text_error ht]
      exact iff_of_false (by rintro ⟨s', h⟩; cases h) (by simp [ht])
    by_cases hv : value a = true
    · obtain ⟨e, he, -⟩ := ha.codec_error hv
      rw [he]
      exact iff_of_false (by rintro ⟨s', h⟩; cases h) (by simp [hv])
    obtain ⟨s', hs'⟩ := ha.ok (by simpa using ht) (by simpa using hv)
    rw [hs']
    refine (ih (fun t r hr => hs t r (by simp [hr])) s').trans ?_
    simp [ht, hv]

end Loop

lemma codecOnly_foldlM_of_step {σ α : Type} {step : σ → α → Except Exn σ} (hs : ∀ s a, CodecOnly (step s a))
    (l : List α) (s : σ) : CodecOnly (l.foldlM step s) := by
  induction l generalizing s with
  | nil => exact codecOnly_ok s
  | cons a l ih =>
    rw [foldlM_cons]
    exact codecOnly_bind.2 ⟨hs s a, fun s' _ => ih s'⟩

variable {rs : List TLVRecord}

/-- Two layers parsed one after the other, when the bad records of the second
come after all records of the first. -/
lemma textAfterValue_layers {text value : TLVRecord → Bool} {first second : List TLVRecord} (hf : first ⊆ rs)
    (hs : second ⊆ rs) (hc : ∀ r ∈ rs, text r = true ∨ value r = true → r ∈ first ∨ r ∈ second)
    (hlt : ∀ r ∈ first, ∀ s ∈ second, text s = true ∨ value s = true → r.type < s.type) :
    TextAfterValue text value rs ↔ TextAfterValue text value first ∧
      ((∀ r ∈ first, text r = false ∧ value r = false) → TextAfterValue text value second) := by
  constructor
  · refine fun h => ⟨fun r hr ht => ?_, fun hfi r hr ht => ?_⟩
    · obtain ⟨q, hq, hqr, hv⟩ := h r (hf hr) ht
      rcases hc q hq (.inr hv) with hq | hq
      · exact ⟨q, hq, hqr, hv⟩
      · have := hlt r hr q hq (.inr hv)
        omega
    · obtain ⟨q, hq, hqr, hv⟩ := h r (hs hr) ht
      rcases hc q hq (.inr hv) with hq | hq
      · simp [(hfi q hq).2] at hv
      · exact ⟨q, hq, hqr, hv⟩
  · rintro ⟨h1, h2⟩ r hr ht
    rcases hc r hr (.inl ht) with hr | hr
    · obtain ⟨q, hq, hqr, hv⟩ := h1 r hr ht
      exact ⟨q, hf hq, hqr, hv⟩
    by_cases hfi : ∀ r ∈ first, text r = false ∧ value r = false
    · obtain ⟨q, hq, hqr, hv⟩ := h2 hfi r hr ht
      exact ⟨q, hs hq, hqr, hv⟩
    -- The first layer fails; a bad text in it comes after a bad value.
    push Not at hfi
    obtain ⟨p, hp, hb⟩ := hfi
    by_cases hpv : value p = true
    · exact ⟨p, hf hp, hlt p hp r hr (.inl ht), hpv⟩
    have hpt : text p = true := by
      by_contra hpt
      exact hb (by simpa using hpt) (by simpa using hpv)
    obtain ⟨q, hq, -, hv⟩ := h1 p hp hpt
    exact ⟨q, hf hq, hlt q hq r hr (.inl ht), hv⟩

/-! ## The layers of a message -/

/-- A record with a bad text or a bad value is in the offer layer or in the invoice request's. -/
lemma type_of_bad (h : badText r = true ∨ badValue r = true) :
    isOfferType r.type = true ∨ (OFFER_RANGE ≤ r.type ∧ r.type < INVREQ_RANGE) := by
  by_contra hn
  have ht : ∀ c, isOfferType c = true ∨ (OFFER_RANGE ≤ c ∧ c < INVREQ_RANGE) → r.type ≠ c := fun c hc he => hn (he ▸ hc)
  have ho : ∀ c, isOfferType c = true → r.type ≠ c := fun c hc => ht c (.inl hc)
  have hq : ∀ c, OFFER_RANGE ≤ c ∧ c < INVREQ_RANGE → r.type ≠ c := fun c hc => ht c (.inr hc)
  simp [badText, badValue, ho OFFER_CURRENCY rfl, ho OFFER_DESCRIPTION rfl, ho OFFER_ISSUER rfl, ho OFFER_CHAINS rfl,
    ho OFFER_AMOUNT rfl, ho OFFER_ABSOLUTE_EXPIRY rfl, ho OFFER_QUANTITY_MAX rfl, ho OFFER_ISSUER_ID rfl,
    hq INVREQ_PAYER_NOTE (by decide), hq INVREQ_AMOUNT (by decide), hq INVREQ_QUANTITY (by decide),
    hq INVREQ_PAYER_ID (by decide), hq INVREQ_CHAIN (by decide)] at h

lemma Offer.graded_addRecord_beyond (o : Offer) (r : TLVRecord) (h : ¬ r.type < OFFER_RANGE) :
    Graded (addRecord OFFER_RANGE o r) false (!isSignatureType r.type) := by
  have hne : ∀ c, c < OFFER_RANGE → ¬ r.type = c := fun c hc he => h (he ▸ hc)
  unfold addRecord
  rw [if_neg (hne OFFER_CHAINS (by decide)), if_neg (hne OFFER_METADATA (by decide)),
    if_neg (hne OFFER_CURRENCY (by decide)), if_neg (hne OFFER_AMOUNT (by decide)),
    if_neg (hne OFFER_DESCRIPTION (by decide)), if_neg (hne OFFER_FEATURES (by decide)),
    if_neg (hne OFFER_ABSOLUTE_EXPIRY (by decide)), if_neg (hne OFFER_PATHS (by decide)),
    if_neg (hne OFFER_ISSUER (by decide)), if_neg (hne OFFER_QUANTITY_MAX (by decide)),
    if_neg (hne OFFER_ISSUER_ID (by decide))]
  have hr : inRange OFFER_RANGE r.type = false := decide_eq_false h
  rw [hr, Bool.false_or]
  cases hs : isSignatureType r.type with
  | true => exact graded_ok _
  | false => exact graded_error rfl

lemma Offer.graded_layer : ∀ o, ∀ r ∈ rs.filter (isOfferType ·.type),
    Graded (addRecord OFFER_RANGE o r) (badText r) (badValue r) := by
  intro o r hr
  exact graded_addRecord o r (lt_of_isOfferType (mem_filter.1 hr).2)

/-- Beyond the range of an offer there is no bad text, and signatures are carried along. -/
lemma Offer.graded_record (o : Offer) (r : TLVRecord) :
    Graded (addRecord OFFER_RANGE o r) (isOfferType r.type && badText r)
      (if r.type < OFFER_RANGE then badValue r else !isSignatureType r.type) := by
  by_cases hr : r.type < OFFER_RANGE
  · rw [if_pos hr]
    have ht : (isOfferType r.type && badText r) = badText r := by
      cases hb : badText r with
      | false => simp
      | true =>
        rcases type_of_bad (.inl hb) with h | h
        · simp [h]
        · exact absurd hr (Nat.not_lt.2 h.1)
    rw [ht]
    exact graded_addRecord o r hr
  · rw [if_neg hr, not_offer_of_le (Nat.not_lt.1 hr), Bool.false_and]
    exact graded_addRecord_beyond o r hr

lemma Offer.codecOnly_parse (ha : Ascending rs) : CodecOnly (parse ⟨.lno, rs⟩) ↔ Readable .lno rs := by
  have hp : parse ⟨.lno, rs⟩ = rs.foldlM (addRecord OFFER_RANGE) {} := rfl
  rw [hp, codecOnly_foldlM ha (fun o r _ => graded_record o r) {}]
  refine forall₃_congr fun r hr ht => exists_congr fun q => and_congr_right fun _ => and_congr_right fun hlt => ?_
  -- What comes before a bad text is within the range.
  have hr80 := lt_of_isOfferType (Bool.and_eq_true_iff.1 ht).1
  change (if q.type < OFFER_RANGE then _ else _) = true ↔ _
  rw [if_pos (Nat.lt_trans hlt hr80)]

lemma badFrame_of_lt {range : Nat} (hr : range ≤ SIG_TYPE_MIN) (h : r.type < range) : badFrame range r = false := by
  have hs : isSignatureType r.type = false := by
    have hm : ¬ SIG_TYPE_MIN ≤ r.type := Nat.not_le.2 (Nat.lt_of_lt_of_le h hr)
    simp [isSignatureType, hm]
  rw [badFrame, hs]
  exact decide_eq_false (Nat.not_le.2 h)

lemma InvoiceRequest.signatureType_iff (h : badFrame INVREQ_RANGE r = false) :
    isSignatureType r.type = false ↔ r.type < INVREQ_RANGE := by
  constructor
  · intro hs
    rw [badFrame, hs] at h
    exact Nat.not_le.1 (of_decide_eq_false h)
  · intro hlt
    have hm : ¬ SIG_TYPE_MIN ≤ r.type := Nat.not_le.2 (Nat.lt_trans hlt (by decide))
    simp [isSignatureType, hm]

/-- The first loop of a message rejects a badly framed record; else the rest of `parse` decides. -/
lemma codecOnly_frame {σ α : Type} {step : σ → TLVRecord → Except Exn σ} {frame : TLVRecord → Bool}
    (hs : ∀ s r, Graded (step s r) false (frame r)) {s : σ} {f : σ → Except Exn α} {P : Prop}
    (hf : ∀ l, rs.foldlM step s = .ok l → (CodecOnly (f l) ↔ P)) :
    CodecOnly (rs.foldlM step s >>= f) ↔ (∃ r ∈ rs, frame r = true) ∨ P := by
  have hg := fun s r (_ : r ∈ rs) => hs s r
  have hlo : CodecOnly (rs.foldlM step s) := codecOnly_foldlM_of_step (fun s r => (hs s r).codecOnly) rs s
  rw [codecOnly_bind]
  by_cases hfr : ∃ r ∈ rs, frame r = true
  · obtain ⟨r, hr, hb⟩ := id hfr
    refine iff_of_true ⟨hlo, fun l hl => ?_⟩ (.inl hfr)
    have hfi := ((foldlM_isOk hg s).1 ⟨l, hl⟩ r hr).2
    simp [hb] at hfi
  · obtain ⟨l, hl⟩ := (foldlM_isOk hg s).2 fun r hr => ⟨rfl, by
      by_contra h
      exact hfr ⟨r, hr, by simpa using h⟩⟩
    simp only [hl, ok.injEq, forall_eq', hfr, false_or, hf l hl]
    exact and_iff_right (codecOnly_ok l)

lemma codecOnly_offer {α : Type} (ha : Ascending (rs.filter (isOfferType ·.type))) {f : Offer → Except Exn α} {P : Prop}
    (hf : ∀ o, Offer.fromRecords (rs.filter (isOfferType ·.type)) OFFER_RANGE = .ok o → (CodecOnly (f o) ↔ P)) :
    CodecOnly (Offer.fromRecords (rs.filter (isOfferType ·.type)) OFFER_RANGE >>= f) ↔
      TextAfterValue badText badValue (rs.filter (isOfferType ·.type)) ∧
        ((∀ r ∈ rs.filter (isOfferType ·.type), badText r = false ∧ badValue r = false) → P) := by
  have hl : CodecOnly (Offer.fromRecords (rs.filter (isOfferType ·.type)) OFFER_RANGE) ↔ _ :=
    codecOnly_foldlM ha Offer.graded_layer {}
  rw [codecOnly_bind, hl, ← foldlM_isOk Offer.graded_layer {}]
  refine and_congr_right fun _ => ?_
  exact ⟨fun h ⟨o, ho⟩ => (hf o ho).1 (h o ho), fun h o ho => (hf o ho).2 (h ⟨o, ho⟩)⟩

section Frame

variable {α : Type} {range : Nat} {l l' : α} {x : Except Exn α}

lemma graded_below (h : r.type < range) (l : α) : Graded (.ok l : Except Exn α) false (range ≤ r.type) := by
  rw [decide_eq_false (Nat.not_le.2 h)]
  exact graded_ok l

lemma graded_beyond (h : ¬ inRange range r.type = true) {msg : String} :
    Graded (.error (.bolt12FormatError msg) : Except Exn α) false (range ≤ r.type) := by
  have hge : range ≤ r.type := Nat.not_lt.1 fun hlt => h (decide_eq_true hlt)
  rw [decide_eq_true hge]
  exact graded_error rfl

lemma graded_frame (hx : Graded x false (range ≤ r.type)) :
    Graded (if isSignatureType r.type then if r.type = SIGNATURE then do
        raiseIf (r.value.length ≠ 64) (.bolt12FormatError "signature: must be 64 bytes") return l
      else .ok l' else x) false (badFrame range r) := by
  unfold badFrame
  by_cases hs : isSignatureType r.type = true
  · rw [if_pos hs, if_pos hs]
    by_cases ht : r.type = SIGNATURE
    · rw [if_pos ht]
      simp only [ht, decide_true, Bool.true_and]
      exact (graded_raiseIf _ _).map _
    · rw [if_neg ht]
      simp only [ht, decide_false, Bool.false_and]
      exact graded_ok _
  · rw [if_neg hs, if_neg hs]
    exact hx

end Frame

namespace InvoiceRequest

lemma graded_splitRecord (l : Layers) (r : TLVRecord) : Graded (splitRecord l r) false (badFrame INVREQ_RANGE r) := by
  refine graded_frame ?_
  refine graded_ite (fun ho => graded_below (Nat.lt_trans (lt_of_isOfferType ho) (by decide)) _) fun _ => ?_
  exact graded_ite (fun hq => graded_below (of_decide_eq_true hq) _) fun h => graded_beyond h

lemma codecOnly_parse_layers (ho : Ascending (rs.filter (isOfferType ·.type)))
    (hw : Ascending (rs.filter (isOwnType ·.type))) :
    CodecOnly (parse ⟨.lnr, rs⟩) ↔ (∃ r ∈ rs, badFrame INVREQ_RANGE r = true) ∨
      (TextAfterValue badText badValue (rs.filter (isOfferType ·.type)) ∧
        ((∀ r ∈ rs.filter (isOfferType ·.type), badText r = false ∧ badValue r = false) →
          TextAfterValue badText badValue (rs.filter (isOwnType ·.type)))) := by
  refine codecOnly_frame graded_splitRecord fun l hl => ?_
  obtain ⟨hlo, hlw, -⟩ := split_of_foldlM hl
  rw [hlo, hlw]
  exact codecOnly_offer ho fun o _ => codecOnly_foldlM hw (fun q r hr => graded_addRecord q r (own_types hr).1) _

end InvoiceRequest

lemma textAfterValue_offer {p : TLVRecord → Bool} (hp : ∀ r, OFFER_RANGE ≤ r.type → r.type < INVREQ_RANGE → p r = true)
    (hno : ∀ r, p r = true → isOfferType r.type = false) :
    TextAfterValue badText badValue rs ↔ TextAfterValue badText badValue (rs.filter (isOfferType ·.type)) ∧
      ((∀ r ∈ rs.filter (isOfferType ·.type), badText r = false ∧ badValue r = false) →
        TextAfterValue badText badValue (rs.filter p)) := by
  refine textAfterValue_layers (filter_subset_self rs) (filter_subset_self rs) (fun r hr hb => ?_) ?_
  · rcases type_of_bad hb with h | ⟨h1, h2⟩
    · exact .inl (mem_filter.2 ⟨hr, h⟩)
    · exact .inr (mem_filter.2 ⟨hr, hp r h1 h2⟩)
  · intro r hr s hs hb
    rcases type_of_bad hb with h | ⟨h1, -⟩
    · simp [hno s (mem_filter.1 hs).2] at h
    · exact Nat.lt_of_lt_of_le (lt_of_isOfferType (mem_filter.1 hr).2) h1

lemma InvoiceRequest.codecOnly_parse (ha : Ascending rs) : CodecOnly (parse ⟨.lnr, rs⟩) ↔ Readable .lnr rs := by
  rw [codecOnly_parse_layers (ha.filter _) (ha.filter _), Readable, ← textAfterValue_offer]
  · intro r h1 h2
    rw [isOwnType, not_offer_of_le h1, Bool.not_false, Bool.true_and, bne_iff_ne]
    exact (Nat.lt_trans h2 (by decide)).ne
  · intro r hr
    simpa using (Bool.and_eq_true_iff.1 hr).1

namespace Invoice

def badOwn (r : TLVRecord) : Bool :=
  if r.type ∈ [INVOICE_CREATED_AT, INVOICE_AMOUNT] then badTu64 r.value
  else if r.type = INVOICE_RELATIVE_EXPIRY then decide (r.value.length > 4) || badTu64 r.value
  else if r.type = INVOICE_PAYMENT_HASH then r.value.length ≠ 32
  else if r.type = INVOICE_NODE_ID then badPoint r.value
  else false

lemma badOwn_of_signature (h : isSignatureType r.type = true) : badOwn r = false := by
  have ha : ∀ t ∈ types, isSignatureType t = false := by decide
  have hne : ∀ t ∈ types, r.type ≠ t := by
    rintro t ht rfl
    simp [ha _ ht] at h
  simp [badOwn, hne INVOICE_CREATED_AT (by decide), hne INVOICE_AMOUNT (by decide),
    hne INVOICE_RELATIVE_EXPIRY (by decide), hne INVOICE_PAYMENT_HASH (by decide), hne INVOICE_NODE_ID (by decide)]

lemma graded_addRecord (i : Invoice) (r : TLVRecord) : Graded (addRecord i r) false (badOwn r) := by
  obtain ⟨t, v⟩ := r
  refine graded_field (p := fun _ => false) (graded_ok _) fun h1 => ?_
  refine graded_field (p := fun _ => false) (graded_ok _) fun h2 => ?_
  refine graded_field (p := fun _ => false) ((graded_decodeTu64 v).map _) fun h3 => ?_
  refine graded_field (p := fun _ => false) (((graded_raiseIf _ _).seq (graded_decodeTu64 v)).map _) fun h4 => ?_
  refine graded_field (p := fun _ => false) ((graded_raiseIf _ _).map _) fun h5 => ?_
  refine graded_field (p := fun _ => false) ((graded_decodeTu64 v).map _) fun h6 => ?_
  refine graded_field (p := fun _ => false) (graded_ok _) fun h7 => ?_
  refine graded_field (p := fun _ => false) (graded_ok _) fun h8 => ?_
  refine graded_field (p := fun _ => false) ((graded_checkPoint _ v).map _) fun h9 => ?_
  have hv : badOwn ⟨t, v⟩ = false := by
    simp [badOwn, h3, h4, h5, h6, h9]
  rw [hv]
  exact graded_ok _

lemma graded_splitRecord (l : Layers) (r : TLVRecord) : Graded (splitRecord l r) false (badFrame INVOICE_RANGE r) := by
  refine graded_frame ?_
  refine graded_ite (fun ho => graded_below (Nat.lt_trans (lt_of_isOfferType ho) (by decide)) _) fun _ => ?_
  refine graded_ite (fun hq => graded_below (Nat.lt_trans (of_decide_eq_true hq) (by decide)) _) fun _ => ?_
  exact graded_ite (fun hi => graded_below (of_decide_eq_true hi) _) fun h => graded_beyond h

lemma codecOnly_parse (ha : Ascending rs) : CodecOnly (parse ⟨.lni, rs⟩) ↔ Readable .lni rs := by
  rw [Readable, textAfterValue_offer (p := (isLowerType ·.type))]
  · refine codecOnly_frame graded_splitRecord fun l hl => ?_
    obtain ⟨hlo, hlq, -⟩ := split_of_foldlM hl
    rw [hlo, hlq]
    set offers := rs.filter (isOfferType ·.type) with hoffers
    set invreqs := rs.filter (isLowerType ·.type) with hin
    refine codecOnly_offer (ha.filter _) fun o ho => ?_
    -- The offer is written back, and its records are parsed a second time.
    obtain ⟨out, hout, hp, hou⟩ := Offer.toRecords_of_fromRecords (Ascending.distinct (ha.filter _)) ho
    have hfi := (foldlM_isOk Offer.graded_layer {}).1 ⟨o, ho⟩
    have hm : ∀ r ∈ out, r ∈ offers := fun r hr => mem_of_mem_kept (hp.subset hr)
    have hof : ∀ r ∈ out, isOfferType r.type = true := fun r hr => (mem_filter.1 (hm r hr)).2
    have hi : ∀ r ∈ invreqs, isOfferType r.type = false ∧ r.type < INVREQ_RANGE := fun r hr => by
      simpa using (mem_filter.1 hr).2
    have hout1 : (out ++ invreqs).filter (isOfferType ·.type) = out := by
      rw [filter_append, filter_eq_self.2 hof,
        filter_eq_nil_iff.2 fun r hr => by simp [(hi r hr).1], append_nil]
    have hout2 : (out ++ invreqs).filter (InvoiceRequest.isOwnType ·.type) = invreqs := by
      rw [filter_append, filter_eq_nil_iff.2 fun r hr => by simp [hof r hr], nil_append]
      refine filter_eq_self.2 fun r hr => ?_
      have hs : r.type ≠ SIGNATURE := (Nat.lt_trans (hi r hr).2 (by decide)).ne
      simp [(hi r hr).1, hs]
    have hfr : ¬ ∃ r ∈ out ++ invreqs, badFrame INVREQ_RANGE r = true := by
      rintro ⟨r, hr, hb⟩
      have hlt : r.type < INVREQ_RANGE := by
        rcases mem_append.1 hr with hr | hr
        · exact Nat.lt_trans (lt_of_isOfferType (hof r hr)) (by decide)
        · exact (hi r hr).2
      rw [badFrame_of_lt (by decide) hlt] at hb
      cases hb
    simp only [codecOnly_bind, hout, ok.injEq, forall_eq']
    have hlower : CodecOnly (InvoiceRequest.parse ⟨.lnr, out ++ invreqs⟩) ↔ TextAfterValue badText badValue invreqs := by
      have hf : ∀ r ∈ out, badText r = false ∧ badValue r = false := fun r hr => hfi r (hm r hr)
      have hte : TextAfterValue badText badValue out := fun r hr ht => by simp [(hf r hr).1] at ht
      rw [InvoiceRequest.codecOnly_parse_layers (by rwa [hout1]) (by rw [hout2]; exact ha.filter _), hout1, hout2]
      simp only [hfr, false_or, hte, true_and]
      exact ⟨fun h => h hf, fun h _ => h⟩
    rw [hlower]
    refine ⟨fun h => h.2.1, fun h => ⟨codecOnly_ok _, h, fun q _ => ?_⟩⟩
    exact codecOnly_foldlM_of_step (fun i r => (graded_addRecord i r).codecOnly) _ _
  · intro r h1 h2
    simp [not_offer_of_le h1, h2]
  · intro r hr
    simpa using (Bool.and_eq_true_iff.1 hr).1

end Invoice

/-! ## The three parsers -/

lemma parseAs_codecOnly {kind : Hrp} (ha : Ascending rs) : CodecOnly (parseAs kind ⟨kind, rs⟩) ↔ Readable kind rs := by
  cases kind with
  | lno => exact codecOnly_map.trans (Offer.codecOnly_parse ha)
  | lnr => exact codecOnly_map.trans (InvoiceRequest.codecOnly_parse ha)
  | lni => exact codecOnly_map.trans (Invoice.codecOnly_parse ha)

lemma parseAs_codecOnly_of_ne {kind hrp : Hrp} (h : hrp ≠ kind) (rs : List TLVRecord) :
    CodecOnly (parseAs kind ⟨hrp, rs⟩) := by
  have hc : ∀ {α : Type} cls (f : Unit → Except Exn α), CodecOnly (checkHrp cls kind hrp >>= f) := by
    intro α cls f e he
    rw [checkHrp, raiseIf, if_pos (decide_eq_true h)] at he
    cases he
    rfl
  cases kind <;> exact codecOnly_map.2 (hc _ _)

lemma codecOnly_decodeStream (data : Bytes) (caps : Caps) : CodecOnly (decodeStream data caps) := by
  intro e he
  obtain ⟨msg, rfl⟩ := decodeStreamFrom_error he
  rfl

namespace Bech32

lemma codecOnly_stripContinuations (out s : List Char) : CodecOnly (stripContinuations out s) := by
  fun_induction stripContinuations out s with
  | case1 => exact codecOnly_ok _
  | case5 _ _ _ _ _ _ _ ih | case7 _ _ _ _ _ ih => exact ih
  | _ =>
    intro e he
    cases he
    rfl

lemma codecOnly_raiseIf (bad : Bool) (msg : String) : CodecOnly (raiseIf bad (.bolt12FormatError msg)) :=
  (graded_raiseIf bad msg).codecOnly

lemma codecOnly_convert5to8 (data5 : List Nat) : CodecOnly (convert5to8 data5) := by
  have hp : ∀ s v, CodecOnly (pushGroup s v) := fun s v => ((graded_raiseIf _ _).map _).codecOnly
  refine codecOnly_bind.2 ⟨codecOnly_foldlM_of_step hp data5 {}, fun s _ => ?_⟩
  refine codecOnly_bind.2 ⟨codecOnly_raiseIf _ _, fun _ _ => ?_⟩
  exact codecOnly_bind.2 ⟨codecOnly_raiseIf _ _, fun _ _ => codecOnly_ok _⟩

lemma codecOnly_dataValues (cs : List Char) : CodecOnly (cs.mapM dataValue) := by
  induction cs with
  | nil => exact codecOnly_ok []
  | cons c cs ih =>
    rw [mapM_cons]
    refine codecOnly_bind.2 ⟨fun e he => ?_, fun _ _ => codecOnly_bind.2 ⟨ih, fun _ _ => codecOnly_ok _⟩⟩
    unfold dataValue at he
    cases hc : charsetRev c with
    | none =>
      rw [hc] at he
      cases he
      rfl
    | some v =>
      rw [hc] at he
      cases he

lemma codecOnly_decodeNormalised (s : List Char) : CodecOnly (decodeNormalised s) := by
  unfold decodeNormalised
  split
  · exact fun e he => by cases he; rfl
  · exact fun e he => by cases he; rfl
  dsimp only
  split
  · exact fun e he => by cases he; rfl
  · refine codecOnly_bind.2 ⟨codecOnly_raiseIf _ _, fun _ _ => ?_⟩
    refine codecOnly_bind.2 ⟨codecOnly_dataValues _, fun data5 _ => ?_⟩
    exact codecOnly_bind.2 ⟨codecOnly_convert5to8 data5, fun _ _ => codecOnly_ok _⟩

lemma codecOnly_decode (unicodeLower : List Char → List Char) (s : String) :
    CodecOnly (Bech32.decode unicodeLower s) := by
  refine codecOnly_bind.2 ⟨codecOnly_raiseIf _ _, fun _ _ => ?_⟩
  refine codecOnly_bind.2 ⟨codecOnly_raiseIf _ _, fun _ _ => ?_⟩
  refine codecOnly_bind.2 ⟨codecOnly_raiseIf _ _, fun _ _ => ?_⟩
  exact codecOnly_bind.2 ⟨codecOnly_stripContinuations _ _, fun n _ => codecOnly_decodeNormalised n⟩

end Bech32

/-- For every byte string and every text, and each of the three parsers: a
message is returned or `Bolt12Error` is raised, exactly when the records can be
parsed without meeting a bad text. -/
theorem parse_codecOnly_iff (unicodeLower : List Char → List Char) (kind : Hrp) (caps : Caps) :
    (∀ data, CodecOnly (do let rs ← decodeStream data caps; parseAs kind ⟨kind, rs⟩) ↔
      ∀ rs, decodeStream data caps = .ok rs → Readable kind rs) ∧
    ∀ text, CodecOnly (do let b12 ← Codec.decode unicodeLower text caps; parseAs kind b12) ↔
      ∀ rs, Codec.decode unicodeLower text caps = .ok ⟨kind, rs⟩ → Readable kind rs := by
  constructor
  · intro data
    rw [codecOnly_bind, and_iff_right (codecOnly_decodeStream data caps)]
    refine forall₂_congr fun rs hrs => ?_
    exact parseAs_codecOnly (decodeStream_ok hrs).1.1
  · intro text
    have hde : CodecOnly (Codec.decode unicodeLower text caps) := by
      refine codecOnly_bind.2 ⟨Bech32.codecOnly_decode unicodeLower text, fun (hrp, payload) _ => ?_⟩
      exact codecOnly_bind.2 ⟨codecOnly_decodeStream payload caps, fun _ _ => codecOnly_ok _⟩
    rw [codecOnly_bind, and_iff_right hde]
    have ha : ∀ hrp rs, Codec.decode unicodeLower text caps = .ok ⟨hrp, rs⟩ → Ascending rs := by
      intro hrp rs hrs
      simp only [Codec.decode, bind_eq_ok, pure_eq_ok, Bolt12String.mk.injEq] at hrs
      obtain ⟨⟨_, payload⟩, -, _, hd, -, rfl⟩ := hrs
      exact (decodeStream_ok hd).1.1
    constructor
    · intro h rs hrs
      exact (parseAs_codecOnly (ha _ _ hrs)).1 (h _ hrs)
    rintro h ⟨hrp, rs⟩ hrs
    by_cases hk : hrp = kind
    · subst hk
      exact (parseAs_codecOnly (ha _ _ hrs)).2 (h rs hrs)
    · exact parseAs_codecOnly_of_ne hk rs

/-- An invoice request whose `offer_currency` is the byte `0x80`. -/
theorem parse_unicode_escapes :
    (do let rs ← decodeStream [0x06, 0x01, 0x80] {}; InvoiceRequest.parse ⟨.lnr, rs⟩) = .error .unicodeDecodeError ∧
      ¬ CodecOnly (do let rs ← decodeStream [0x06, 0x01, 0x80] {}; InvoiceRequest.parse ⟨.lnr, rs⟩) := by
  have hd : decodeStream [0x06, 0x01, 0x80] {} = .ok [⟨OFFER_CURRENCY, [0x80]⟩] :=
    decodeStream_of_encode (by decide) rfl
  have hp : (do let rs ← decodeStream [0x06, 0x01, 0x80] {}; InvoiceRequest.parse ⟨.lnr, rs⟩) =
      .error .unicodeDecodeError := by
    rw [hd]
    rfl
  exact ⟨hp, fun h => absurd (h _ hp) (by decide)⟩

end AgentWallet.Bolt12
