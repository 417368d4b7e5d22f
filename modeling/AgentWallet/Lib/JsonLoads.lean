import AgentWallet.Lib.Dict
import AgentWallet.Lib.Json
/-!
# Reading JSON

`json.loads` as a recursive descent over the characters, and the compact text
that `json.dumps` writes with the separators `,` and `:`. A value without floats
whose objects have distinct keys is read back from its compact text
(`loads_compact`).
-/

namespace AgentWallet.Lib.Json

open List Option

/-! ## Compact texts -/

mutual

def compact : Json → List Char
  | null => ['n', 'u', 'l', 'l']
  | bool true => ['t', 'r', 'u', 'e']
  | bool false => ['f', 'a', 'l', 's', 'e']
  | int n => intText n
  | float x => x.text
  | str s => quote s
  | arr [] => ['[', ']']
  | arr (v :: l) => '[' :: (compact v ++ compactTail l)
  | obj [] => ['{', '}']
  | obj ((k, v) :: items) => '{' :: (quote k ++ ':' :: (compact v ++ compactItems items))

def compactTail : List Json → List Char
  | [] => [']']
  | v :: l => ',' :: (compact v ++ compactTail l)

def compactItems : List (String × Json) → List Char
  | [] => ['}']
  | (k, v) :: items => ',' :: (quote k ++ ':' :: (compact v ++ compactItems items))

end

/-! ## Reading -/

def isBlank (c : Char) : Bool := c == ' ' || c == '\t' || c == '\n' || c == '\r'

def skip (s : List Char) : List Char := s.dropWhile isBlank

def scanString : Nat → List Char → Option (List Char × List Char)
  | 0, _ => none
  | fuel + 1, s =>
    match s with
    | '"' :: rest => some ([], rest)
    | s => do
      let (c, s) ← scanChar s
      let (cs, s) ← scanString fuel s
      return (c :: cs, s)

/-- `0` or digits that do not start with it. -/
def scanWhole (s : List Char) : Option (List Char × List Char) :=
  match s with
  | '0' :: rest => some (['0'], rest)
  | s => if (s.takeWhile Char.isDigit).isEmpty then none else some (s.takeWhile Char.isDigit, s.dropWhile Char.isDigit)

def scanFraction (s : List Char) : List Char × List Char :=
  match s with
  | '.' :: rest =>
    if (rest.takeWhile Char.isDigit).isEmpty then ([], s)
    else ('.' :: rest.takeWhile Char.isDigit, rest.dropWhile Char.isDigit)
  | s => ([], s)

def scanSign (s : List Char) : List Char × List Char :=
  match s with
  | '-' :: rest => (['-'], rest)
  | '+' :: rest => (['+'], rest)
  | s => ([], s)

def scanExponent (s : List Char) : List Char × List Char :=
  match s with
  | c :: rest =>
    if c = 'e' ∨ c = 'E' then
      let (sign, digits) := scanSign rest
      if (digits.takeWhile Char.isDigit).isEmpty then ([], s)
      else ('e' :: (sign ++ digits.takeWhile Char.isDigit), digits.dropWhile Char.isDigit)
    else ([], s)
  | [] => ([], s)

def scanNumber (negative : Bool) (s : List Char) : Option (Json × List Char) := do
  let (whole, s) ← scanWhole s
  let (fraction, s) := scanFraction s
  let (exponent, s) := scanExponent s
  if fraction = [] ∧ exponent = [] then
    let n : Int := Nat.ofDigitChars 10 whole 0
    return (.int (if negative then -n else n), s)
  else
    let text := (if negative then ['-'] else []) ++ whole ++ fraction ++ exponent
    if h : text.all isNumChar = true ∧ ('.' ∈ text ∨ 'e' ∈ text) then return (.float ⟨text, h.1, h.2⟩, s) else none

/-- The last value of a key counts, at the place of its first. -/
def dictItems (items : List (String × Json)) : List (String × Json) :=
  items.foldl (fun d kv => setEntry kv.1 kv.2 d) []

mutual

def scanValue : Nat → List Char → Option (Json × List Char)
  | 0, _ => none
  | fuel + 1, s =>
    match s with
    | '"' :: s => do
      let (cs, s) ← scanString (s.length + 1) s
      return (.str (String.ofList cs), s)
    | '{' :: s =>
      match skip s with
      | '}' :: s => some (.obj [], s)
      | s => do
        let (items, s) ← scanItems fuel s
        return (.obj (dictItems items), s)
    | '[' :: s =>
      match skip s with
      | ']' :: s => some (.arr [], s)
      | s => do
        let (l, s) ← scanElements fuel s
        return (.arr l, s)
    | 'n' :: 'u' :: 'l' :: 'l' :: s => some (.null, s)
    | 't' :: 'r' :: 'u' :: 'e' :: s => some (.bool true, s)
    | 'f' :: 'a' :: 'l' :: 's' :: 'e' :: s => some (.bool false, s)
    | '-' :: s => scanNumber true s
    | s => scanNumber false s

def scanElements : Nat → List Char → Option (List Json × List Char)
  | 0, _ => none
  | fuel + 1, s => do
    let (v, s) ← scanValue fuel s
    match skip s with
    | c :: s =>
      if c = ',' then do
        let (l, s) ← scanElements fuel (skip s)
        return (v :: l, s)
      else if c = ']' then return ([v], s)
      else none
    | [] => none

def scanItems : Nat → List Char → Option (List (String × Json) × List Char)
  | 0, _ => none
  | fuel + 1, s =>
    match s with
    | '"' :: s => do
      let (k, s) ← scanString (s.length + 1) s
      match skip s with
      | c :: s =>
        if c = ':' then do
          let (v, s) ← scanValue fuel (skip s)
          match skip s with
          | c :: s =>
            if c = ',' then do
              let (items, s) ← scanItems fuel (skip s)
              return ((String.ofList k, v) :: items, s)
            else if c = '}' then return ([(String.ofList k, v)], s)
            else none
          | [] => none
        else none
      | [] => none
    | _ => none

end

/-- `json.loads`; `none` is a `JSONDecodeError`. -/
def loads (s : List Char) : Option Json := do
  let (v, s) ← scanValue (s.length + 1) (skip s)
  if skip s = [] then return v else none

/-! ## Strings -/

lemma scanString_escape (s r : List Char) {fuel : Nat} (h : s.length < fuel) :
    scanString fuel (escape s ++ '"' :: r) = some (s, r) := by
  induction s generalizing fuel with
  | nil =>
    cases fuel with
    | zero => cases h
    | succ fuel => rfl
  | cons c s ih =>
    cases fuel with
    | zero => cases h
    | succ fuel =>
      obtain ⟨a, e, he, ha⟩ := head?_escapeChar c
      have hc := scanChar_escapeChar c (escape s ++ '"' :: r)
      simp only [escape, flatMap_cons, append_assoc] at hc ⊢
      rw [he, cons_append] at hc ⊢
      rw [scanString.eq_def]
      dsimp only
      split
      case h_1 heq => exact absurd (cons.inj heq).1 ha
      rw [hc]
      have hr := ih (Nat.lt_of_succ_lt_succ h)
      rw [escape] at hr
      simp only [bind_eq_bind, bind_some, hr]
      rfl

lemma length_le_escape (s : List Char) : s.length ≤ (escape s).length := by
  induction s with
  | nil => exact le_refl 0
  | cons c s ih =>
    obtain ⟨a, e, he, -⟩ := head?_escapeChar c
    simp only [escape, flatMap_cons, length_append, length_cons, he] at ih ⊢
    omega

lemma scanString_quote (s : String) (r : List Char) :
    ∃ t, quote s ++ r = '"' :: t ∧ scanString (t.length + 1) t = some (s.toList, r) := by
  refine ⟨escape s.toList ++ '"' :: r, by simp [quote], ?_⟩
  apply scanString_escape
  have hl := length_le_escape s.toList
  simp only [length_append, length_cons]
  omega

/-! ## Integers -/

def Stop (r : List Char) : Prop := ∀ c ∈ r.head?, c = ',' ∨ c = ']' ∨ c = '}'

lemma head?_toDigits {n : Nat} (h : 0 < n) : (Nat.toDigits 10 n).head? ≠ some '0' := by
  induction n using Nat.strong_induction_on with
  | _ n ih =>
    rw [Nat.toDigits_eq_if (by decide)]
    split
    case isTrue hlt => interval_cases n <;> decide
    rename_i hge
    have hh := ih (n / 10) (by omega) (by omega)
    cases hd : Nat.toDigits 10 (n / 10) with
    | nil => exact absurd hd Nat.toDigits_ne_nil
    | cons c rest =>
      rw [hd] at hh
      exact hh

variable {r : List Char}

lemma span_digits {ds : List Char} (hd : ∀ c ∈ ds, c.isDigit = true) (hr : Stop r) :
    (ds ++ r).takeWhile Char.isDigit = ds ∧ (ds ++ r).dropWhile Char.isDigit = r := by
  have hs : r.takeWhile Char.isDigit = [] ∧ r.dropWhile Char.isDigit = r := by
    cases r with
    | nil => exact ⟨rfl, rfl⟩
    | cons c r =>
      rcases hr c rfl with rfl | rfl | rfl <;> exact ⟨rfl, rfl⟩
  constructor
  · rw [takeWhile_append_of_pos hd, hs.1, append_nil]
  · rw [dropWhile_append_of_pos hd, hs.2]

lemma scanWhole_toDigits (n : Nat) (hr : Stop r) :
    scanWhole (Nat.toDigits 10 n ++ r) = some (Nat.toDigits 10 n, r) := by
  have hdi : ∀ c ∈ Nat.toDigits 10 n, c.isDigit = true :=
    fun c hc => Nat.isDigit_of_mem_toDigits (by decide) (by decide) hc
  obtain ⟨ht, hdr⟩ := span_digits hdi hr
  rcases Nat.eq_zero_or_pos n with rfl | hn
  · rfl
  have hh := head?_toDigits hn
  unfold scanWhole
  split
  case h_1 rest heq =>
    cases hd : Nat.toDigits 10 n with
    | nil => exact absurd hd Nat.toDigits_ne_nil
    | cons c ds =>
      rw [hd] at heq hh
      exact absurd (congrArg some (cons.inj heq).1) hh
  case h_2 =>
    rw [ht, hdr, if_neg]
    simp [Nat.toDigits_ne_nil]

lemma scanNumber_toDigits (negative : Bool) (n : Nat) (hr : Stop r) :
    scanNumber negative (Nat.toDigits 10 n ++ r) = some (.int (if negative then -(n : Int) else n), r) := by
  have hf : scanFraction r = ([], r) := by
    cases r with
    | nil => rfl
    | cons c r => rcases hr c rfl with rfl | rfl | rfl <;> rfl
  have he : scanExponent r = ([], r) := by
    cases r with
    | nil => rfl
    | cons c r => rcases hr c rfl with rfl | rfl | rfl <;> rfl
  unfold scanNumber
  rw [scanWhole_toDigits n hr]
  simp only [bind_eq_bind, bind_some, hf, he, and_self, if_true,
    Nat.ofDigitChars_ten_toDigits]
  rfl

lemma scanValue_int (n : Int) (hr : Stop r) (fuel : Nat) :
    scanValue (fuel + 1) (intText n ++ r) = some (.int n, r) := by
  cases n with
  | ofNat n =>
    have hn := scanNumber_toDigits false n hr
    obtain ⟨c, ds, hd⟩ := exists_cons_of_ne_nil (Nat.toDigits_ne_nil (n := n) (b := 10))
    have hc : c.isDigit = true :=
      Nat.isDigit_of_mem_toDigits (by decide) (by decide) (hd ▸ mem_cons_self : c ∈ Nat.toDigits 10 n)
    have hne : ∀ d : Char, d.isDigit = false → c ≠ d := by
      rintro d hd rfl
      rw [hc] at hd
      cases hd
    show scanValue (fuel + 1) (Nat.toDigits 10 n ++ r) = _
    rw [hd, cons_append] at hn ⊢
    rw [scanValue.eq_def]
    dsimp only
    split
    case h_8 => exact hn
    all_goals
      rename_i heq
      exact absurd (cons.inj heq).1 (hne _ (by decide))
  | negSucc n => exact scanNumber_toDigits true (n + 1) hr

/-! ## Values -/

/-- The values that are read back: without floats, with distinct keys. -/
inductive Readable : Json → Prop
  | null : Readable .null
  | bool (b : Bool) : Readable (.bool b)
  | int (n : Int) : Readable (.int n)
  | str (s : String) : Readable (.str s)
  | arr {l : List Json} : (∀ v ∈ l, Readable v) → Readable (.arr l)
  | obj {items : List (String × Json)} : (items.map Prod.fst).Nodup → (∀ kv ∈ items, Readable kv.2) →
    Readable (.obj items)

lemma setEntry_of_notMem {k : String} {v : Json} {d : List (String × Json)} (h : k ∉ d.map Prod.fst) :
    setEntry k v d = d ++ [(k, v)] := by
  induction d with
  | nil => rfl
  | cons e d ih =>
    simp only [map_cons, mem_cons, not_or] at h
    rw [setEntry, if_neg fun he => h.1 he.symm, ih h.2]
    rfl

lemma dictItems_of_nodup {items : List (String × Json)} (h : (items.map Prod.fst).Nodup) : dictItems items = items := by
  suffices ha : ∀ (rest d : List (String × Json)), ((d ++ rest).map Prod.fst).Nodup →
      rest.foldl (fun d kv => setEntry kv.1 kv.2 d) d = d ++ rest from ha items [] h
  intro rest
  induction rest with
  | nil => intro d _; simp
  | cons kv rest ih =>
    intro d hnd
    have hn : kv.1 ∉ d.map Prod.fst := by
      rw [map_append, map_cons] at hnd
      intro hm
      exact (nodup_append.1 hnd).2.2 _ hm _ mem_cons_self rfl
    rw [foldl_cons, setEntry_of_notMem hn, ih _ (by simpa using hnd)]
    simp

lemma compact_head (v : Json) (h : Readable v) :
    ∃ c t, compact v = c :: t ∧ isBlank c = false ∧ c ≠ ']' ∧ c ≠ '}' := by
  cases h with
  | null | str s => exact ⟨_, _, rfl, by decide, by decide, by decide⟩
  | bool b => cases b <;> exact ⟨_, _, rfl, by decide, by decide, by decide⟩
  | int n =>
    obtain ⟨c, t, ht⟩ := exists_cons_of_ne_nil (intText_ne_nil n)
    have hc : c.isDigit = true ∨ c = '-' := isDigit_intText (ht ▸ mem_cons_self : c ∈ intText n)
    have hne : ∀ d : Char, d.isDigit = false → d ≠ '-' → c ≠ d := by
      rintro d hd hm rfl
      rcases hc with hc | hc
      · rw [hc] at hd
        cases hd
      · exact hm hc
    refine ⟨c, t, ht, ?_, hne _ (by decide) (by decide), hne _ (by decide) (by decide)⟩
    simp [isBlank, hne ' ' (by decide) (by decide), hne '\t' (by decide) (by decide),
      hne '\n' (by decide) (by decide), hne '\r' (by decide) (by decide)]
  | @arr l _ => cases l <;> exact ⟨_, _, rfl, by decide, by decide, by decide⟩
  | @obj items _ _ => cases items <;> exact ⟨_, _, rfl, by decide, by decide, by decide⟩

lemma skip_cons {c : Char} {t : List Char} (h : isBlank c = false) : skip (c :: t) = c :: t :=
  dropWhile_cons_of_neg (by simp [h])

lemma skip_compact {v : Json} (h : Readable v) (r : List Char) : skip (compact v ++ r) = compact v ++ r := by
  obtain ⟨c, t, ht, hc, -⟩ := compact_head v h
  rw [ht, cons_append, skip_cons hc]

lemma skip_quote (s : String) (r : List Char) : skip (quote s ++ r) = quote s ++ r := skip_cons (by decide)

/-- The value is read back, whatever follows it. -/
def ReadsBack (v : Json) : Prop :=
  ∀ (fuel : Nat) (r : List Char), Stop r → (compact v).length ≤ fuel → scanValue fuel (compact v ++ r) = some (v, r)

lemma stop_compactTail (l : List Json) (r : List Char) : Stop (compactTail l ++ r) := by
  intro c hc
  cases l <;> cases hc <;> simp

lemma stop_compactItems (items : List (String × Json)) (r : List Char) : Stop (compactItems items ++ r) := by
  intro c hc
  cases items <;> cases hc <;> simp

lemma length_compactTail_pos (l : List Json) : 0 < (compactTail l).length := by
  cases l <;> simp [compactTail]

lemma length_compactItems_pos (items : List (String × Json)) : 0 < (compactItems items).length := by
  cases items <;> simp [compactItems]

lemma scanElements_compact {v : Json} {l : List Json} (hv : ReadsBack v) (hl : ∀ w ∈ l, Readable w ∧ ReadsBack w)
    {fuel : Nat} (hf : (compact v).length + (compactTail l).length ≤ fuel) (r : List Char) :
    scanElements fuel (compact v ++ (compactTail l ++ r)) = some (v :: l, r) := by
  induction l generalizing v fuel with
  | nil =>
    cases fuel with
    | zero => simp [compactTail] at hf
    | succ fuel =>
      rw [compactTail, length_singleton] at hf
      rw [scanElements.eq_def]
      dsimp only
      rw [hv fuel _ (stop_compactTail [] r) (by omega)]
      rfl
  | cons w l ih =>
    cases fuel with
    | zero => simp [compactTail] at hf
    | succ fuel =>
      obtain ⟨hw, hb⟩ := hl w mem_cons_self
      simp only [compactTail, length_cons, length_append] at hf
      have ht := length_compactTail_pos l
      have hr := @ih w hb (fun u hu => hl u (mem_cons_of_mem _ hu)) fuel (by omega)
      rw [scanElements.eq_def]
      dsimp only
      rw [hv fuel _ (stop_compactTail (w :: l) r) (by omega)]
      simp only [bind_eq_bind, bind_some, compactTail, cons_append, append_assoc]
      rw [skip_cons (by decide)]
      dsimp only
      rw [if_pos rfl, skip_compact hw, hr]
      rfl

lemma scanItems_compact {k : String} {v : Json} {items : List (String × Json)} (hr : Readable v) (hv : ReadsBack v)
    (hl : ∀ kv ∈ items, Readable kv.2 ∧ ReadsBack kv.2) {fuel : Nat}
    (hf : (compact v).length + (compactItems items).length ≤ fuel) (r : List Char) :
    scanItems fuel (quote k ++ ':' :: (compact v ++ (compactItems items ++ r))) = some ((k, v) :: items, r) := by
  induction items generalizing k v fuel with
  | nil =>
    cases fuel with
    | zero => simp [compactItems] at hf
    | succ fuel =>
      rw [compactItems, length_singleton] at hf
      obtain ⟨t, ht, hs⟩ := scanString_quote k (':' :: (compact v ++ (compactItems [] ++ r)))
      rw [ht, scanItems.eq_def]
      simp only [hs, bind_eq_bind, bind_some]
      rw [skip_cons (by decide)]
      dsimp only
      rw [if_pos rfl, skip_compact hr, hv fuel _ (stop_compactItems [] r) (by omega), bind_some, compactItems,
        singleton_append, skip_cons (by decide), String.ofList_toList]
      rfl
  | cons e items ih =>
    cases fuel with
    | zero => simp [compactItems] at hf
    | succ fuel =>
      obtain ⟨k', w⟩ := e
      obtain ⟨hw, hb⟩ : Readable w ∧ ReadsBack w := hl (k', w) mem_cons_self
      simp only [compactItems, length_cons, length_append] at hf
      have hta := length_compactItems_pos items
      have hre := @ih k' w hw hb (fun u hu => hl u (mem_cons_of_mem _ hu)) fuel (by omega)
      obtain ⟨t, ht, hs⟩ := scanString_quote k (':' :: (compact v ++ (compactItems ((k', w) :: items) ++ r)))
      rw [ht, scanItems.eq_def]
      simp only [hs, bind_eq_bind, bind_some]
      rw [skip_cons (by decide)]
      dsimp only
      rw [if_pos rfl, skip_compact hr, hv fuel _ (stop_compactItems ((k', w) :: items) r) (by omega), bind_some]
      simp only [compactItems, cons_append, append_assoc]
      rw [skip_cons (by decide)]
      dsimp only
      rw [if_pos rfl, skip_quote, hre, String.ofList_toList]
      rfl

lemma scanValue_bracket (fuel : Nat) (s : List Char) : scanValue (fuel + 1) ('[' :: s) =
    match skip s with
    | ']' :: s => some (.arr [], s)
    | s => do
      let (l, s) ← scanElements fuel s
      return (.arr l, s) := rfl

lemma scanValue_brace (fuel : Nat) (s : List Char) : scanValue (fuel + 1) ('{' :: s) =
    match skip s with
    | '}' :: s => some (.obj [], s)
    | s => do
      let (items, s) ← scanItems fuel s
      return (.obj (dictItems items), s) := rfl

lemma readsBack_of_succ {v : Json} (h : Readable v) (hv : ∀ (fuel : Nat) (r : List Char), Stop r →
    (compact v).length ≤ fuel + 1 → scanValue (fuel + 1) (compact v ++ r) = some (v, r)) : ReadsBack v := by
  intro fuel r hr hf
  cases fuel with
  | zero =>
    obtain ⟨c, t, ht, -⟩ := compact_head v h
    rw [ht] at hf
    cases hf
  | succ fuel => exact hv fuel r hr hf

lemma Readable.readsBack {v : Json} (h : Readable v) : ReadsBack v := by
  induction h with
  | null => exact readsBack_of_succ .null fun _ _ _ _ => rfl
  | bool b =>
    refine readsBack_of_succ (.bool b) fun _ _ _ _ => ?_
    cases b <;> rfl
  | int n => exact readsBack_of_succ (.int n) fun fuel r hr _ => scanValue_int n hr fuel
  | str s =>
    refine readsBack_of_succ (.str s) fun fuel r _ _ => ?_
    obtain ⟨t, ht, hs⟩ := scanString_quote s r
    rw [compact, ht, scanValue.eq_def]
    simp only [hs, bind_eq_bind, bind_some, String.ofList_toList]
    rfl
  | @arr l h ih =>
    refine readsBack_of_succ (.arr h) fun fuel r _ hf => ?_
    cases l with
    | nil => rfl
    | cons v l =>
      obtain ⟨c, t, ht, hc, hne, -⟩ := compact_head v (h v mem_cons_self)
      have hel := scanElements_compact (ih v mem_cons_self)
        (fun w hw => ⟨h w (mem_cons_of_mem _ hw), ih w (mem_cons_of_mem _ hw)⟩)
        (show _ ≤ fuel by simp only [compact, length_cons, length_append] at hf; omega) r
      rw [ht, cons_append] at hel
      simp only [compact, cons_append, append_assoc, ht]
      rw [scanValue_bracket, skip_cons hc]
      split
      case h_1 heq => exact absurd (cons.inj heq).1 hne
      case h_2 =>
        rw [hel]
        rfl
  | @obj items hnd h ih =>
    refine readsBack_of_succ (.obj hnd h) fun fuel r _ hf => ?_
    cases items with
    | nil => rfl
    | cons e items =>
      obtain ⟨k, v⟩ := e
      have hv : Readable v ∧ ReadsBack v := ⟨h _ mem_cons_self, ih _ mem_cons_self⟩
      have hi := @scanItems_compact k v items hv.1 hv.2
        (fun e he => ⟨h e (mem_cons_of_mem _ he), ih e (mem_cons_of_mem _ he)⟩) fuel
        (by simp only [compact, length_cons, length_append] at hf; omega) r
      simp only [compact, cons_append, append_assoc]
      rw [scanValue_brace, skip_quote]
      split
      case h_1 heq => exact absurd (cons.inj heq).1 (by decide)
      rw [hi]
      show some (Json.obj (dictItems ((k, v) :: items)), r) = _
      rw [dictItems_of_nodup hnd]

lemma loads_compact {v : Json} (h : Readable v) : loads (compact v) = some v := by
  have hr := h.readsBack ((compact v).length + 1) [] (fun _ hc => by cases hc) (Nat.le_succ _)
  have hs := skip_compact h []
  rw [append_nil] at hr hs
  rw [loads, hs, hr]
  rfl

end AgentWallet.Lib.Json
