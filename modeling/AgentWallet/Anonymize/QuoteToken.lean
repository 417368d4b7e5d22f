import AgentWallet.Lib.Base64
import AgentWallet.Lib.Exceptions
import AgentWallet.Lib.JsonLoads
import AgentWallet.Lib.Sha256
/-!
# Quote tokens (`quote_token.py`)

A token is `<generation>.<payload in base64>.<MAC in hex>`. The generation that is
written is the number the loader gives to the active key, which is always 0; the
generation that is read is an index into the keys as they are loaded now. So a
token outlives a change of the keys only where the key at index 0 stays the same
(`survives_rotation_iff`).
-/

namespace AgentWallet.Anonymize.QuoteToken

open AgentWallet.Lib List

inductive Raised
  | quoteTokenError (text : String)
  | keysetUnconfiguredError (text : String)
  | valueError (text : String)
  | typeError
  | attributeError
  | jsonDecodeError
  | unicodeEncodeError
  | unicodeDecodeError
deriving DecidableEq

/-- What the runtime adds: decimal digits outside ASCII, and floats. -/
structure Python where
  unicodeDigit : Char → Option Nat
  floatInt : FloatText → Except Raised Int
  floatIsZero : FloatText → Bool

/-! ## Keys -/

structure QuoteTokenKeySet where
  keys : List Bytes
  activeGeneration : Int
  nonempty : keys ≠ []
  sized : ∀ k ∈ keys, k.length = 32
deriving DecidableEq

namespace QuoteTokenKeySet

/-- `__post_init__` -/
def create (keys : List Bytes) (activeGeneration : Int) : Except Raised QuoteTokenKeySet :=
  if hne : keys = [] then .error (.valueError "at least one quote-token HMAC key is required")
  else if hlen : ∀ k ∈ keys, k.length = 32 then .ok ⟨keys, activeGeneration, hne, hlen⟩
  else .error (.valueError ("quote-token HMAC key #" ++ toString (keys.findIdx (·.length ≠ 32)) ++ " must be 32 bytes"))

def activeKey (keyset : QuoteTokenKeySet) : Bytes := keyset.keys.head keyset.nonempty

lemma getElem?_zero (keyset : QuoteTokenKeySet) : keyset.keys[0]? = some keyset.activeKey := by
  rw [← head?_eq_getElem?]
  exact head?_eq_some_head keyset.nonempty

end QuoteTokenKeySet

def parseFernetBundleConfig (value : String) : Except Raised (List (List Char)) :=
  let raw := strip value.toList
  if raw = [] then .ok []
  else (((raw.splitOn ',').map strip).filter (· ≠ [])).mapM fun s =>
    if s.all isAscii then .ok s else .error .unicodeEncodeError

def decodeKey (entry : List Char) : Except Raised Bytes :=
  match Base64.urlsafeB64decode entry with
  | .error exc =>
    .error (.keysetUnconfiguredError ("ANONYMIZE_QUOTE_TOKEN_HMAC_KEY_FERNET entry is not valid base64: " ++ exc))
  | .ok material =>
    if material.length ≠ 32 then
      .error (.keysetUnconfiguredError ("each quote-token HMAC key must decode to 32 bytes; got " ++
        toString material.length))
    else .ok material

/-- The keys of the setting, newest first. -/
def loadQuoteTokenKeyset (setting : String) : Except Raised (Option QuoteTokenKeySet) := do
  let raw := strip setting.toList
  if raw = [] then return none
  let encoded ← parseFernetBundleConfig (String.ofList raw)
  if encoded = [] then return none
  let decoded ← encoded.mapM decodeKey
  let keyset ← QuoteTokenKeySet.create decoded 0
  return some keyset

/-! ## Signing -/

structure QuoteTokenPayload where
  canonicalPipelineJson : Bytes
  binAmountSat : Int
  submarineOperatorId : Option String
  reverseOperatorId : Option String
  delayMinS : Int
  delayMaxS : Int
  interLegMinS : Option Int
  interLegMaxS : Option Int
  requestedMppK : Int
  issuedAtUnixS : Int
  ttlS : Int
  cookieSubjectHmac : Bytes := []
  canonicalRequestBodyHash : Bytes := []
  usesLiquid : Bool := false
  selectionSource : String := ""

def textOrNull (s : Option String) : Json := s.elim .null .str

def intOrNull (n : Option Int) : Json := n.elim .null .int

def boundItems (p : QuoteTokenPayload) (pipeline : String) : List (String × Json) := [
  ("bin_amount_sat", .int p.binAmountSat),
  ("canonical_pipeline_json", .str pipeline),
  ("canonical_request_body_hash", .str (String.ofList (Base64.b64encode p.canonicalRequestBodyHash))),
  ("cookie_subject_hmac", .str (String.ofList (Base64.b64encode p.cookieSubjectHmac))),
  ("delay_max_s", .int p.delayMaxS),
  ("delay_min_s", .int p.delayMinS),
  ("inter_leg_max_s", intOrNull p.interLegMaxS),
  ("inter_leg_min_s", intOrNull p.interLegMinS),
  ("issued_at_unix_s", .int p.issuedAtUnixS),
  ("requested_mpp_k", .int p.requestedMppK),
  ("reverse_operator_id", textOrNull p.reverseOperatorId),
  ("selection_source", .str p.selectionSource),
  ("submarine_operator_id", textOrNull p.submarineOperatorId),
  ("ttl_s", .int p.ttlS),
  ("uses_liquid", .bool p.usesLiquid)]

def decodeUtf8 (b : Bytes) : Except Raised String :=
  match String.fromUTF8? ⟨b.toArray⟩ with
  | some s => .ok s
  | none => .error .unicodeDecodeError

def boundFields (p : QuoteTokenPayload) : Except Raised Json := do
  let pipeline ← decodeUtf8 p.canonicalPipelineJson
  return .obj (boundItems p pipeline)

def canonicalQuotePayload (p : QuoteTokenPayload) : Except Raised Bytes := do
  let obj ← boundFields p
  return utf8 (String.ofList (Json.compact obj))

/-- `hmac.new(key, message, hashlib.sha256).hexdigest()` -/
@[irreducible] def macHex (key message : Bytes) : String := hexdigest (hmac Sha256.sha256 key message)

def signQuoteToken (payload : QuoteTokenPayload) (keyset : QuoteTokenKeySet) : Except Raised String := do
  let canonical ← canonicalQuotePayload payload
  let mac := macHex keyset.activeKey canonical
  return String.ofList (List.intercalate ['.'] [intText keyset.activeGeneration,
    Base64.rstrip (Base64.urlsafeB64encode canonical), mac.toList])

/-! ## Verifying -/

section Verify

variable (python : Python)

/-- `bound.get(key)` -/
def get (bound : Json) (key : String) : Except Raised (Option Json) :=
  match bound with
  | .obj items => .ok (items.lookup key)
  | _ => .error .attributeError

/-- `int(value)` -/
def toInt : Json → Except Raised Int
  | .int n => .ok n
  | .bool b => .ok (if b then 1 else 0)
  | .float x => python.floatInt x
  | .str s =>
    match readInt python.unicodeDigit s.toList with
    | some n => .ok n
    | none => .error (.valueError "invalid literal for int() with base 10")
  | _ => .error .typeError

def truthy : Json → Bool
  | .null => false
  | .bool b => b
  | .int n => n ≠ 0
  | .float x => !python.floatIsZero x
  | .str s => s ≠ ""
  | .arr l => !l.isEmpty
  | .obj items => !items.isEmpty

/-- `base64.b64decode(value or "")` -/
def cookieBytes (value : Json) : Except Raised Bytes :=
  if truthy python value then
    match value with
    | .str s =>
      if s.toList.all isAscii then
        (Base64.a2b s.toList).mapError fun _ => .quoteTokenError "invalid cookie binding in token"
      else .error (.quoteTokenError "invalid cookie binding in token")
    | _ => .error (.quoteTokenError "invalid cookie binding in token")
  else .ok []

def decodeBody (b64Canonical : List Char) : Except Raised Bytes :=
  if b64Canonical.all isAscii then
    (Base64.urlsafeB64decode (b64Canonical ++ List.replicate (Base64.lacking b64Canonical.length) '=')).mapError
      fun exc => .quoteTokenError ("invalid base64 in quote token: " ++ exc)
  else .error (.quoteTokenError ("invalid base64 in quote token: " ++ asciiCodecError b64Canonical))

/-- `json.loads` of bytes -/
def loadsBytes (b : Bytes) : Except Raised Json := do
  let text ← decodeUtf8 b
  match Json.loads text.toList with
  | some v => return v
  | none => .error .jsonDecodeError

/-- The check of the cookie, when the caller passes one. -/
def checkCookie (bound : Json) (expectedCookieSubjectHmac : Option Bytes) : Except Raised Unit :=
  match expectedCookieSubjectHmac with
  | none => .ok ()
  | some expected => do
    let value ← get bound "cookie_subject_hmac"
    let boundCookie ← cookieBytes python (value.getD (.str ""))
    raiseIf (boundCookie ≠ expected) (.quoteTokenError "quote token bound to a different cookie")

def decodeQuoteToken (token : String) (keyset : QuoteTokenKeySet) (expectedCookieSubjectHmac : Option Bytes) (now : ℚ) :
    Except Raised Json :=
  match token.toList.splitOn '.' with
  | [genStr, b64Canonical, macPart] =>
    match readInt python.unicodeDigit genStr with
    | none => .error (.quoteTokenError "invalid quote-token generation")
    | some gen =>
      if gen < 0 ∨ gen ≥ keyset.keys.length then .error (.quoteTokenError "unknown quote-token key generation")
      else do
        let boundCanonical ← decodeBody b64Canonical
        let expected := macHex (keyset.keys.getD gen.toNat []) boundCanonical
        raiseIf (!macPart.all isAscii) .typeError
        raiseIf (expected.toList ≠ macPart) (.quoteTokenError "quote-token HMAC mismatch")
        let bound ← loadsBytes boundCanonical
        let issued ← toInt python ((← get bound "issued_at_unix_s").getD (.int 0))
        let ttl ← toInt python ((← get bound "ttl_s").getD (.int 0))
        raiseIf (decide ((issued + ttl : ℚ) < now)) (.quoteTokenError "quote token expired")
        checkCookie python bound expectedCookieSubjectHmac
        return bound
  | _ => .error (.quoteTokenError "malformed quote token")

def verifyQuoteToken (token : String) (keyset : QuoteTokenKeySet) (candidate : QuoteTokenPayload) (now : ℚ) :
    Except Raised Unit := do
  let _ ← decodeQuoteToken python token keyset none now
  let candidateCanonical ← canonicalQuotePayload candidate
  match token.toList.splitOn '.' with
  | [_, b64Canonical, _] => do
    let boundCanonical ← decodeBody b64Canonical
    raiseIf (boundCanonical ≠ candidateCanonical) (.quoteTokenError "quote-token bound payload differs from request")
  | _ => .error (.valueError "not enough values to unpack (expected 3)")

end Verify

/-! ## What is accepted -/

variable {pipeline : String} {macPart : List Char} {canonical : Bytes}

section Accepted

variable {python : Python} {token : String} {keyset : QuoteTokenKeySet} {cookie : Option Bytes} {now : ℚ} {bound : Json}
  {key body : Bytes} {p : QuoteTokenPayload}

/-- The key that the generation of a token names, the bytes that the token stands
for, and its last part as it is written. -/
def Denotes (python : Python) (token : String) (keyset : QuoteTokenKeySet) (key body : Bytes) (macPart : List Char) : Prop :=
  ∃ (genStr b64Canonical : List Char) (gen : ℕ), token.toList.splitOn '.' = [genStr, b64Canonical, macPart] ∧
    readInt python.unicodeDigit genStr = some (gen : Int) ∧ keyset.keys[gen]? = some key ∧ decodeBody b64Canonical = .ok body

def Fresh (python : Python) (bound : Json) (now : ℚ) : Prop :=
  ∃ issuedField ttlField issued ttl, get bound "issued_at_unix_s" = .ok issuedField ∧
    toInt python (issuedField.getD (.int 0)) = .ok issued ∧ get bound "ttl_s" = .ok ttlField ∧
    toInt python (ttlField.getD (.int 0)) = .ok ttl ∧ now ≤ issued + ttl

lemma mem_macHex {key message : Bytes} {c : Char} (h : c ∈ (macHex key message).toList) : c ∈ hexDigits := by
  unfold macHex at h
  exact mem_hexdigest h

lemma isAscii_macHex (key message : Bytes) : (macHex key message).toList.all isAscii = true := by
  have ha : hexDigits.all isAscii = true := by decide
  rw [all_eq_true]
  exact fun c hc => all_eq_true.1 ha c (mem_macHex hc)

/-- A token is accepted when its MAC is that of the bytes it stands for under the
key it names, and the dictionary in them is fresh and bound to the cookie. -/
lemma decodeQuoteToken_iff : decodeQuoteToken python token keyset cookie now = .ok bound ↔
    ∃ key body, Denotes python token keyset key body (macHex key body).toList ∧ loadsBytes body = .ok bound ∧
      Fresh python bound now ∧ checkCookie python bound cookie = .ok () := by
  constructor
  · intro h
    unfold decodeQuoteToken at h
    split at h
    case h_2 => cases h
    rename_i genStr b64Canonical macPart hs
    split at h
    case h_1 => cases h
    rename_i gen hg
    obtain ⟨hr, hok⟩ := ite_passed h
    · simp only [bind_eq_ok, raiseIf_eq_ok, pure_eq_ok, decide_eq_false_iff_not, ne_eq, not_not, not_lt] at hok
      obtain ⟨body, hb, -, -, -, hmac, bound', hl, issuedField, hif, issued, hi, ttlField, htf, ttl, ht, -, hf,
        ⟨⟩, hc, rfl⟩ := hok
      have hlt : gen.toNat < keyset.keys.length := by omega
      refine ⟨keyset.keys[gen.toNat], body, ⟨genStr, b64Canonical, gen.toNat, ?_, ?_, getElem?_eq_getElem hlt, hb⟩,
        hl, ⟨issuedField, ttlField, issued, ttl, hif, hi, htf, ht, hf⟩, hc⟩
      · rw [hs, ← hmac, getD_eq_getElem _ _ hlt]
      · rw [hg, Int.toNat_of_nonneg (by omega)]
  · rintro ⟨key, body, ⟨genStr, b64Canonical, gen, hs, hg, hk, hb⟩, hl,
      ⟨issuedField, ttlField, issued, ttl, hif, hi, htf, ht, hf⟩, hc⟩
    obtain ⟨hlt, hk⟩ := List.getElem?_eq_some_iff.1 hk
    have hd : keyset.keys.getD gen [] = key := by rw [getD_eq_getElem _ _ hlt, hk]
    rw [decodeQuoteToken, hs]
    dsimp only
    rw [hg]
    dsimp only
    rw [if_neg (by omega), Int.toNat_natCast, hd]
    simp only [bind_eq_ok, raiseIf_eq_ok, pure_eq_ok, decide_eq_false_iff_not, ne_eq, not_not, not_lt]
    exact ⟨body, hb, (), by simp [isAscii_macHex], (), rfl, bound, hl, issuedField, hif, issued, hi, ttlField, htf, ttl, ht,
      (), hf, (), hc, rfl⟩

lemma decodeQuoteToken_mismatch (h : Denotes python token keyset key body macPart)
    (ha : macPart.all isAscii = true) (hne : (macHex key body).toList ≠ macPart) :
    decodeQuoteToken python token keyset cookie now = .error (.quoteTokenError "quote-token HMAC mismatch") := by
  obtain ⟨genStr, b64Canonical, gen, hs, hg, hk, hb⟩ := h
  obtain ⟨hlt, hk⟩ := List.getElem?_eq_some_iff.1 hk
  have hd : keyset.keys.getD gen [] = key := by rw [getD_eq_getElem _ _ hlt, hk]
  rw [decodeQuoteToken, hs]
  dsimp only
  rw [hg]
  dsimp only
  rw [if_neg (by omega), Int.toNat_natCast, hd, hb]
  simp [bind, Except.bind, raiseIf, ha, hne]

/-! ## What is signed -/

lemma decodeUtf8_utf8 (s : String) : decodeUtf8 (utf8 s) = .ok s := by
  have hb : (⟨(utf8 s).toArray⟩ : ByteArray) = s.toByteArray := by
    simp [utf8]
  rw [decodeUtf8, hb, String.fromUTF8?, dif_pos s.isValidUTF8]
  rfl

lemma readable_boundItems (p : QuoteTokenPayload) (pipeline : String) : Json.Readable (.obj (boundItems p pipeline)) := by
  have ht : ∀ s : Option String, Json.Readable (textOrNull s) := by
    rintro (_ | s)
    · exact .null
    · exact .str s
  have hi : ∀ n : Option Int, Json.Readable (intOrNull n) := by
    rintro (_ | n)
    · exact .null
    · exact .int n
  refine .obj ?_ ?_
  · simp only [boundItems, map_cons, map_nil]
    decide +kernel
  · simp only [boundItems, forall_mem_cons, not_mem_nil, false_implies, implies_true, and_true]
    exact ⟨.int _, .str _, .str _, .str _, .int _, .int _, hi _, hi _, .int _, .int _, ht _, .str _, ht _, .int _,
      .bool _⟩

lemma loadsBytes_canonical (h : canonicalQuotePayload p = .ok canonical) :
    ∃ pipeline, boundFields p = .ok (.obj (boundItems p pipeline)) ∧ loadsBytes canonical = .ok (.obj (boundItems p pipeline)) := by
  simp only [canonicalQuotePayload, boundFields, bind_eq_ok, pure_eq_ok] at h
  obtain ⟨_, ⟨pipeline, hp, rfl⟩, rfl⟩ := h
  refine ⟨pipeline, ?_, ?_⟩
  · simp only [boundFields, bind_eq_ok, pure_eq_ok]
    exact ⟨pipeline, hp, rfl⟩
  simp only [loadsBytes, decodeUtf8_utf8, bind_eq_ok]
  refine ⟨_, rfl, ?_⟩
  rw [String.toList_ofList, Json.loads_compact (readable_boundItems p pipeline)]
  rfl

lemma get_issued : get (.obj (boundItems p pipeline)) "issued_at_unix_s" = .ok (some (.int p.issuedAtUnixS)) := rfl

lemma get_ttl : get (.obj (boundItems p pipeline)) "ttl_s" = .ok (some (.int p.ttlS)) := rfl

lemma fresh_boundItems : Fresh python (.obj (boundItems p pipeline)) now ↔
    now ≤ p.issuedAtUnixS + p.ttlS := by
  constructor
  · rintro ⟨_, _, _, _, hif, hi, htf, ht, h⟩
    rw [get_issued] at hif
    rw [get_ttl] at htf
    cases hif
    cases htf
    cases hi
    cases ht
    exact h
  · intro h
    exact ⟨_, _, _, _, get_issued, rfl, get_ttl, rfl, h⟩

lemma isAscii_b64encode (b : Bytes) : (Base64.b64encode b).all isAscii = true := by
  have ha : Base64.alphabet.all isAscii = true := by decide
  rw [Base64.b64encode, all_append, Bool.and_eq_true, all_eq_true, all_eq_true]
  refine ⟨fun c hc => all_eq_true.1 ha c (Base64.mem_body hc), fun c hc => ?_⟩
  rw [eq_of_mem_replicate hc]
  rfl

lemma cookieBytes_b64encode (b : Bytes) : cookieBytes python (.str (String.ofList (Base64.b64encode b))) = .ok b := by
  rw [cookieBytes]
  by_cases hb : truthy python (.str (String.ofList (Base64.b64encode b))) = true
  · rw [if_pos hb]
    show (if _ then _ else _) = _
    rw [String.toList_ofList, if_pos (isAscii_b64encode b), Base64.a2b_b64encode]
    rfl
  · rw [if_neg hb]
    have he : Base64.b64encode b = [] := by
      simpa [truthy] using hb
    have hr := Base64.a2b_b64encode b
    rw [he] at hr
    cases hr
    rfl

lemma checkCookie_boundItems (h : cookie = none ∨ cookie = some p.cookieSubjectHmac) :
    checkCookie python (.obj (boundItems p pipeline)) cookie = .ok () := by
  rcases h with rfl | rfl
  · rfl
  · simp only [checkCookie, bind_eq_ok, raiseIf_eq_ok, decide_eq_false_iff_not, ne_eq, not_not]
    exact ⟨_, rfl, _, cookieBytes_b64encode p.cookieSubjectHmac, rfl⟩

lemma dot_notMem_intText {n : Int} : '.' ∉ intText n := by
  intro h
  rcases isDigit_intText h with hd | hm
  · exact absurd hd (by decide)
  · exact absurd hm (by decide)

lemma splitOn_parts {genStr : List Char} (hd : '.' ∉ genStr) (canonical : Bytes) :
    (String.ofList (List.intercalate ['.'] [genStr, Base64.rstrip (Base64.urlsafeB64encode canonical),
      (macHex key canonical).toList])).toList.splitOn '.' =
        [genStr, Base64.rstrip (Base64.urlsafeB64encode canonical), (macHex key canonical).toList] := by
  rw [String.toList_ofList]
  apply splitOn_intercalate
  · intro part hp
    simp only [mem_cons, not_mem_nil, or_false] at hp
    rcases hp with rfl | rfl | rfl
    · exact hd
    · rw [Base64.rstrip_urlsafeB64encode]
      exact fun hd => (Base64.toUrl_mem hd).2.1 rfl
    · exact fun hd => absurd (mem_macHex hd) (by decide)
  · exact cons_ne_nil _ _

lemma signQuoteToken_parts (h : signQuoteToken p keyset = .ok token) : ∃ canonical,
    canonicalQuotePayload p = .ok canonical ∧ token.toList.splitOn '.' = [intText keyset.activeGeneration,
      Base64.rstrip (Base64.urlsafeB64encode canonical), (macHex keyset.activeKey canonical).toList] := by
  simp only [signQuoteToken, bind_eq_ok, pure_eq_ok] at h
  obtain ⟨canonical, hc, rfl⟩ := h
  exact ⟨canonical, hc, splitOn_parts dot_notMem_intText canonical⟩

lemma decodeBody_rstrip (canonical : Bytes) :
    decodeBody (Base64.rstrip (Base64.urlsafeB64encode canonical)) = .ok canonical := by
  have ha : (Base64.rstrip (Base64.urlsafeB64encode canonical)).all isAscii = true := by
    rw [Base64.rstrip_urlsafeB64encode, all_eq_true]
    exact fun c hc => (Base64.toUrl_mem hc).2.2
  rw [decodeBody, if_pos ha, Base64.urlsafeB64decode_rstrip]
  rfl

lemma activeGeneration_of_load {setting : String} (h : loadQuoteTokenKeyset setting = .ok (some keyset)) :
    keyset.activeGeneration = 0 := by
  obtain ⟨-, hl⟩ := ite_passed h
  · obtain ⟨encoded, -, hl⟩ := bind_eq_ok.1 hl
    obtain ⟨-, hl⟩ := ite_passed hl
    · simp only [bind_eq_ok, pure_eq_ok, Option.some.injEq] at hl
      obtain ⟨decoded, -, keyset', hc, rfl⟩ := hl
      unfold QuoteTokenKeySet.create at hc
      split_ifs at hc
      cases hc
      rfl

lemma denotes_zero_iff {genStr : List Char} (hg : readInt python.unicodeDigit genStr = some 0)
    (hs : token.toList.splitOn '.' = [genStr, Base64.rstrip (Base64.urlsafeB64encode canonical), macPart])
    {macPart' : List Char} : Denotes python token keyset key body macPart' ↔
      key = keyset.activeKey ∧ body = canonical ∧ macPart' = macPart := by
  constructor
  · rintro ⟨genStr', b64Canonical, gen, hs', hg', hk, hb⟩
    rw [hs] at hs'
    cases hs'
    rw [hg, Option.some.injEq] at hg'
    obtain rfl : gen = 0 := by exact_mod_cast hg'.symm
    rw [keyset.getElem?_zero] at hk
    rw [decodeBody_rstrip] at hb
    cases hk
    cases hb
    exact ⟨rfl, rfl, rfl⟩
  · rintro ⟨rfl, rfl, rfl⟩
    exact ⟨_, _, 0, hs, hg, keyset.getElem?_zero, decodeBody_rstrip body⟩

/-- A token of a loaded keyset names the first key of whatever keyset reads it. -/
lemma denotes_iff {setting : String} {K : QuoteTokenKeySet} (hK : loadQuoteTokenKeyset setting = .ok (some K))
    (hc : canonicalQuotePayload p = .ok canonical) (hs : signQuoteToken p K = .ok token) :
    Denotes python token keyset key body macPart ↔
      key = keyset.activeKey ∧ body = canonical ∧ macPart = (macHex K.activeKey canonical).toList := by
  obtain ⟨canonical', hc', hp⟩ := signQuoteToken_parts hs
  rw [hc] at hc'
  cases hc'
  rw [activeGeneration_of_load hK] at hp
  exact denotes_zero_iff rfl hp

end Accepted

/-! ## Rotation -/

/-- Among these keys and messages, no two keys ever give the same MAC. -/
def Unforgeable (keys messages : Set Bytes) : Prop :=
  ∀ k ∈ keys, ∀ k' ∈ keys, ∀ m ∈ messages, ∀ m' ∈ messages, macHex k m = macHex k' m' → k = k'

/-- Until it expires the token is accepted and yields the fields of the payload. -/
def Survives (python : Python) (p : QuoteTokenPayload) (token : String) (keyset : QuoteTokenKeySet) : Prop :=
  ∀ now : ℚ, now ≤ p.issuedAtUnixS + p.ttlS →
    (∀ cookie, cookie = none ∨ cookie = some p.cookieSubjectHmac →
      decodeQuoteToken python token keyset cookie now = boundFields p) ∧
    verifyQuoteToken python token keyset p now = .ok ()

/-- A token whose MAC was made under a key that is not in the set is not accepted. -/
def RejectsOthers (python : Python) (keyset : QuoteTokenKeySet) (keys messages : Set Bytes) : Prop :=
  ∀ (token : String) (genStr b64Canonical : List Char), ∀ k ∈ keys, ∀ m ∈ messages,
    token.toList.splitOn '.' = [genStr, b64Canonical, (macHex k m).toList] → k ∉ keyset.keys →
    (∀ body, decodeBody b64Canonical = .ok body → body ∈ messages) →
    ∀ cookie now bound, decodeQuoteToken python token keyset cookie now ≠ .ok bound

section Rotation

variable {python : Python} {token setting : String} {p : QuoteTokenPayload} {K keyset : QuoteTokenKeySet}
  {canonical : Bytes} {keys messages : Set Bytes}

lemma rejectsOthers (hke : ∀ k ∈ keyset.keys, k ∈ keys) (hmac : Unforgeable keys messages) :
    RejectsOthers python keyset keys messages := by
  intro token genStr b64Canonical k hk m hm hs hn hb cookie now bound hd
  obtain ⟨key, body, ⟨_, _, gen, hs', -, hkey, hbo⟩, -⟩ := decodeQuoteToken_iff.1 hd
  rw [hs] at hs'
  obtain ⟨-, rfl, hp⟩ : genStr = _ ∧ b64Canonical = _ ∧ (macHex k m).toList = _ := by simpa using hs'
  have hme : key ∈ keyset.keys := mem_of_getElem? hkey
  have heq : macHex k m = macHex key body := String.toList_inj.1 hp
  have hsa := hmac k hk key (hke key hme) m hm body (hb body hbo) heq
  exact hn (hsa ▸ hme)

lemma survives_of_activeKey (hK : loadQuoteTokenKeyset setting = .ok (some K)) (hs : signQuoteToken p K = .ok token)
    (ha : keyset.activeKey = K.activeKey) : Survives python p token keyset := by
  intro now hn
  obtain ⟨canonical, hc, hp⟩ := signQuoteToken_parts hs
  obtain ⟨pipeline, hf, hl⟩ := loadsBytes_canonical hc
  have hd : ∀ cookie, cookie = none ∨ cookie = some p.cookieSubjectHmac →
      decodeQuoteToken python token keyset cookie now = boundFields p := by
    intro cookie hco
    rw [hf]
    apply decodeQuoteToken_iff.2
    refine ⟨keyset.activeKey, canonical, ?_, hl, fresh_boundItems.2 hn, checkCookie_boundItems hco⟩
    exact (denotes_iff hK hc hs).2 ⟨rfl, rfl, by rw [ha]⟩
  refine ⟨hd, ?_⟩
  rw [verifyQuoteToken, hd none (.inl rfl), hf, hc, hp]
  simp only [bind_eq_ok, decodeBody_rstrip, raiseIf_eq_ok, decide_eq_false_iff_not, ne_eq, not_not]
  exact ⟨_, rfl, _, rfl, _, rfl, rfl⟩

lemma activeKey_of_survives (hK : loadQuoteTokenKeyset setting = .ok (some K)) (hs : signQuoteToken p K = .ok token)
    (hc : canonicalQuotePayload p = .ok canonical) (h : Survives python p token keyset) :
    macHex keyset.activeKey canonical = macHex K.activeKey canonical := by
  obtain ⟨hde, -⟩ := h (p.issuedAtUnixS + p.ttlS) le_rfl
  obtain ⟨pipeline, hf, -⟩ := loadsBytes_canonical hc
  have hn := hde none (.inl rfl)
  rw [hf] at hn
  obtain ⟨key, body, hd, -⟩ := decodeQuoteToken_iff.1 hn
  obtain ⟨rfl, rfl, hp⟩ := (denotes_iff hK hc hs).1 hd
  exact String.toList_inj.1 hp

end Rotation

/-- A token outlives the rotation exactly when the new key is the one that was
already first, so that nothing was rotated. -/
theorem survives_rotation_iff (python : Python) (setting : String) (K K' : QuoteTokenKeySet) (knew : Bytes)
    (p : QuoteTokenPayload) (token : String) (keys messages : Set Bytes)
    (hK : loadQuoteTokenKeyset setting = .ok (some K)) (hrotated : K'.keys = knew :: K.keys)
    (hsign : signQuoteToken p K = .ok token) (hkeys : ∀ k ∈ K'.keys, k ∈ keys)
    (hmessage : ∀ canonical, canonicalQuotePayload p = .ok canonical → canonical ∈ messages)
    (hmac : Unforgeable keys messages) :
    Survives python p token K' ∧ RejectsOthers python K' keys messages ↔ knew = K.activeKey := by
  have ha : K'.activeKey = knew := by
    simp only [QuoteTokenKeySet.activeKey, hrotated, head_cons]
  constructor
  · rintro ⟨hs, -⟩
    obtain ⟨canonical, hc, -⟩ := signQuoteToken_parts hsign
    have hsa := activeKey_of_survives hK hsign hc hs
    have hm := hmessage canonical hc
    have ho : K.activeKey ∈ K'.keys := by
      rw [hrotated]
      exact mem_cons_of_mem _ (head_mem K.nonempty)
    rw [ha] at hsa
    exact hmac knew (hkeys knew (by rw [hrotated]; exact mem_cons_self)) _ (hkeys _ ho) _ hm _ hm hsa
  · rintro rfl
    exact ⟨survives_of_activeKey hK hsign ha, rejectsOthers hkeys hmac⟩

/-! ## A rotation -/

def oldSetting : String := "AAAAAAAAAAAAAAAAAAAAAAAAAAAAAAAAAAAAAAAAAAA="

def newSetting : String := "__________________________________________8=," ++ oldSetting

def zeroKey : Bytes := List.replicate 32 0

def onesKey : Bytes := List.replicate 32 255

def oldKeyset : QuoteTokenKeySet where
  keys := [zeroKey]
  activeGeneration := 0
  nonempty := by decide
  sized := by decide

def newKeyset : QuoteTokenKeySet where
  keys := [onesKey, zeroKey]
  activeGeneration := 0
  nonempty := by decide
  sized := by decide

lemma load_oldSetting : loadQuoteTokenKeyset oldSetting = .ok (some oldKeyset) := by decide +kernel

lemma load_newSetting : loadQuoteTokenKeyset newSetting = .ok (some newKeyset) := by decide +kernel

def smallQuote : QuoteTokenPayload where
  canonicalPipelineJson := []
  binAmountSat := 0
  submarineOperatorId := none
  reverseOperatorId := none
  delayMinS := 0
  delayMaxS := 0
  interLegMinS := none
  interLegMaxS := none
  requestedMppK := 0
  issuedAtUnixS := 0
  ttlS := 300

def smallCanonical : Bytes := utf8 (String.ofList (Json.compact (.obj (boundItems smallQuote ""))))

lemma canonical_smallQuote : canonicalQuotePayload smallQuote = .ok smallCanonical := by
  simp only [canonicalQuotePayload, boundFields, bind_eq_ok, pure_eq_ok]
  exact ⟨_, ⟨"", decodeUtf8_utf8 "", rfl⟩, rfl⟩

lemma macs_differ : macHex onesKey smallCanonical ≠ macHex zeroKey smallCanonical := by
  unfold macHex
  rw [← Sha256.sha256Rev_eq]
  decide +kernel

def smallToken : String := String.ofList (List.intercalate ['.'] [intText 0,
  Base64.rstrip (Base64.urlsafeB64encode smallCanonical), (macHex zeroKey smallCanonical).toList])

lemma sign_smallQuote : signQuoteToken smallQuote oldKeyset = .ok smallToken := by
  simp only [signQuoteToken, canonical_smallQuote, bind_eq_ok]
  exact ⟨_, rfl, rfl⟩

lemma unforgeable_two : Unforgeable {onesKey, zeroKey} {smallCanonical} := by
  intro k hk k' hk' m hm m' hm' heq
  rw [Set.mem_singleton_iff] at hm hm'
  rw [hm, hm'] at heq
  rcases hk with rfl | rfl
  · rcases hk' with rfl | rfl
    · rfl
    · exact absurd heq macs_differ
  · rcases hk' with rfl | rfl
    · exact absurd heq.symm macs_differ
    · rfl

/-- A token signed under the only key is refused once a new key is in front of it. -/
theorem rotated_token_refused :
    loadQuoteTokenKeyset oldSetting = .ok (some oldKeyset) ∧ loadQuoteTokenKeyset newSetting = .ok (some newKeyset) ∧
    newKeyset.keys = onesKey :: oldKeyset.keys ∧ signQuoteToken smallQuote oldKeyset = .ok smallToken ∧
    ∀ python, decodeQuoteToken python smallToken newKeyset none smallQuote.issuedAtUnixS =
      .error (.quoteTokenError "quote-token HMAC mismatch") := by
  refine ⟨load_oldSetting, load_newSetting, rfl, sign_smallQuote, fun python => ?_⟩
  apply decodeQuoteToken_mismatch
  · exact (denotes_iff load_oldSetting canonical_smallQuote sign_smallQuote).2 ⟨rfl, rfl, rfl⟩
  · exact isAscii_macHex _ _
  · exact fun heq => macs_differ (String.toList_inj.1 heq)

def asciiOnly : Python where
  unicodeDigit _ := none
  floatInt _ := .error .typeError
  floatIsZero _ := true

theorem survives_rotation_iff_ones :
    Survives asciiOnly smallQuote smallToken newKeyset ∧
      RejectsOthers asciiOnly newKeyset {onesKey, zeroKey} {smallCanonical} ↔ onesKey = oldKeyset.activeKey := by
  refine survives_rotation_iff asciiOnly oldSetting oldKeyset newKeyset onesKey smallQuote smallToken _ _ load_oldSetting rfl
    sign_smallQuote ?_ ?_ unforgeable_two
  · intro k hk
    simpa [newKeyset] using hk
  · intro canonical h
    rw [canonical_smallQuote] at h
    exact Set.mem_singleton_iff.2 (Except.ok.inj h).symm

end AgentWallet.Anonymize.QuoteToken
