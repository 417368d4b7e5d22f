import AgentWallet.Lib.Bytes
/-!
# JSON texts

The values `json.dumps` takes and the text it writes with its default
separators and `ensure_ascii`. An object is its items in the order they are
written. The text determines the value (`dumps_inj`).
-/

namespace AgentWallet.Lib

open List Prod

/-! ## Characters of a string -/

def hex4 (n : Nat) : List Char :=
  [hexDigit (n / 4096 % 16), hexDigit (n / 256 % 16), hexDigit (n / 16 % 16), hexDigit (n % 16)]

def escapeChar (c : Char) : List Char :=
  if c = '"' then ['\\', '"']
  else if c = '\\' then ['\\', '\\']
  else if c = '\n' then ['\\', 'n']
  else if c = '\r' then ['\\', 'r']
  else if c = '\t' then ['\\', 't']
  else if c = '\x08' then ['\\', 'b']
  else if c = '\x0c' then ['\\', 'f']
  else if 0x20 ≤ c.toNat ∧ c.toNat ≤ 0x7e then [c]
  else if c.toNat < 0x10000 then '\\' :: 'u' :: hex4 c.toNat
  else
    let n := c.toNat - 0x10000
    ('\\' :: 'u' :: hex4 (0xd800 + n / 1024)) ++ ('\\' :: 'u' :: hex4 (0xdc00 + n % 1024))

namespace Json

def hexQuad (a b c d : Char) : Option Nat := do
  let a ← hexValue a
  let b ← hexValue b
  let c ← hexValue c
  let d ← hexValue d
  return a * 4096 + b * 256 + c * 16 + d

def unescape (c : Char) : Option Char :=
  if c = '"' ∨ c = '\\' ∨ c = '/' then some c
  else if c = 'b' then some '\x08'
  else if c = 'f' then some '\x0c'
  else if c = 'n' then some '\n'
  else if c = 'r' then some '\r'
  else if c = 't' then some '\t'
  else none

/-- One character of a string and the rest. A surrogate that is not part of a pair
is no character. -/
def scanChar : List Char → Option (Char × List Char)
  | '\\' :: 'u' :: a :: b :: c :: d :: rest => do
    let n ← hexQuad a b c d
    if 0xd800 ≤ n ∧ n < 0xdc00 then
      match rest with
      | '\\' :: 'u' :: a' :: b' :: c' :: d' :: rest' => do
        let m ← hexQuad a' b' c' d'
        if 0xdc00 ≤ m ∧ m < 0xe000 then
          return (Char.ofNat (0x10000 + (n - 0xd800) * 1024 + (m - 0xdc00)), rest')
        else none
      | _ => none
    else if 0xdc00 ≤ n ∧ n < 0xe000 then none
    else return (Char.ofNat n, rest)
  | '\\' :: c :: rest => (unescape c).map (·, rest)
  | c :: rest => if c = '\\' ∨ c.toNat < 0x20 then none else some (c, rest)
  | [] => none

lemma isValidChar_toNat (c : Char) : c.toNat < 0xd800 ∨ (0xdfff < c.toNat ∧ c.toNat < 0x110000) := c.valid

lemma hexQuad_hex4 {n : Nat} (h : n < 65536) :
    hexQuad (hexDigit (n / 4096 % 16)) (hexDigit (n / 256 % 16)) (hexDigit (n / 16 % 16)) (hexDigit (n % 16)) = some n := by
  unfold hexQuad
  have hd : ∀ m, hexValue (hexDigit (m % 16)) = some (m % 16) :=
    fun m => (hexValue_hexDigit (Nat.mod_lt m (by decide))).1
  rw [hd, hd, hd, hd]
  show some _ = some n
  congr 1
  omega

lemma scanChar_escapeChar (c : Char) (r : List Char) : scanChar (escapeChar c ++ r) = some (c, r) := by
  unfold escapeChar
  split_ifs with h1 h2 h3 h4 h5 h6 h7 h8 h9
  · rw [h1]; rfl
  · rw [h2]; rfl
  · rw [h3]; rfl
  · rw [h4]; rfl
  · rw [h5]; rfl
  · rw [h6]; rfl
  · rw [h7]; rfl
  · -- a character that stands for itself
    have hc : ¬ (c = '\\' ∨ c.toNat < 0x20) := by
      rintro (h | h)
      · exact h2 h
      · omega
    rw [singleton_append, scanChar.eq_def]
    split
    case h_1 => simp_all
    case h_2 => simp_all
    case h_3 heq =>
      obtain ⟨rfl, rfl⟩ := cons.inj heq
      rw [if_neg hc]
    case h_4 heq => cases heq
  · simp only [hex4, cons_append, nil_append, scanChar, hexQuad_hex4 h9, Option.bind_eq_bind, Option.bind_some]
    have hv := isValidChar_toNat c
    rw [if_neg (by omega), if_neg (by omega), Char.ofNat_toNat]
    rfl
  · -- a surrogate pair
    have hm : c.toNat < 0x110000 := by rcases isValidChar_toNat c with h | h <;> omega
    simp only [hex4, cons_append, nil_append, scanChar, Option.bind_eq_bind]
    rw [hexQuad_hex4 (by omega), hexQuad_hex4 (by omega), Option.bind_some, if_pos (by omega), Option.bind_some,
      if_pos (by omega)]
    have hn : 0x10000 + (0xd800 + (c.toNat - 0x10000) / 1024 - 0xd800) * 1024 +
        (0xdc00 + (c.toNat - 0x10000) % 1024 - 0xdc00) = c.toNat := by omega
    rw [hn, Char.ofNat_toNat]
    rfl

end Json

variable {r : List Char}

lemma head?_escapeChar (c : Char) : ∃ a r, escapeChar c = a :: r ∧ a ≠ '"' := by
  unfold escapeChar
  split_ifs <;> exact ⟨_, _, rfl, by first | decide | assumption⟩

def escape (s : List Char) : List Char := s.flatMap escapeChar

variable {r' : List Char}

lemma escape_inj {s t : List Char} (h : escape s ++ '"' :: r = escape t ++ '"' :: r') : s = t ∧ r = r' := by
  induction s generalizing t with
  | nil =>
    cases t with
    | nil => simpa using h
    | cons d t =>
      obtain ⟨a, e, he, ha⟩ := head?_escapeChar d
      simp only [escape, flatMap_cons, he] at h
      exact absurd (cons.inj h).1.symm ha
  | cons c s ih =>
    cases t with
    | nil =>
      obtain ⟨a, e, he, ha⟩ := head?_escapeChar c
      simp only [escape, flatMap_cons, he] at h
      exact absurd (cons.inj h).1 ha
    | cons d t =>
      simp only [escape, flatMap_cons, append_assoc] at h
      have hr := congrArg Json.scanChar h
      rw [Json.scanChar_escapeChar, Json.scanChar_escapeChar] at hr
      simp only [Option.some.injEq, mk.injEq] at hr
      obtain ⟨rfl, hre⟩ := hr
      obtain ⟨rfl, rfl⟩ := ih hre
      exact ⟨rfl, rfl⟩

/-! ## Numbers -/

def isPlain (c : Char) : Bool := c.isAlphanum || c == '_'

def isNumChar (c : Char) : Bool := c.isDigit || c == '-' || c == '+' || c == '.' || c == 'e'

/-- The text of a finite float, as its `repr`: it has a point or an exponent,
which no integer has. -/
structure FloatText where
  text : List Char
  num : text.all isNumChar = true
  point : ('.' ∈ text ∨ 'e' ∈ text)

def intText : Int → List Char
  | .ofNat n => Nat.toDigits 10 n
  | .negSucc n => '-' :: Nat.toDigits 10 (n + 1)

lemma isDigit_intText {n : Int} {c : Char} (h : c ∈ intText n) : c.isDigit = true ∨ c = '-' := by
  cases n with
  | ofNat n => exact .inl (Nat.isDigit_of_mem_toDigits (by decide) (by decide) h)
  | negSucc n =>
    rcases mem_cons.1 h with h | h
    · exact .inr h
    · exact .inl (Nat.isDigit_of_mem_toDigits (by decide) (by decide) h)

lemma intText_inj {n m : Int} (h : intText n = intText m) : n = m := by
  have hn : ∀ {a b : Nat}, Nat.toDigits 10 a = Nat.toDigits 10 b → a = b := by
    intro a b hab
    rw [← @Nat.ofDigitChars_toDigits 10 a (by decide) (by decide), hab,
      Nat.ofDigitChars_toDigits (by decide) (by decide)]
  have hm : ∀ {a : Nat} {l : List Char}, Nat.toDigits 10 a ≠ '-' :: l := by
    intro a l hl
    have := @Nat.isDigit_of_mem_toDigits 10 a '-' (by decide) (by decide) (by rw [hl]; simp)
    exact absurd this (by decide)
  cases n with
  | ofNat n =>
    cases m with
    | ofNat m => rw [hn h]
    | negSucc m => exact absurd h hm
  | negSucc n =>
    cases m with
    | ofNat m => exact absurd h.symm hm
    | negSucc m =>
      have := hn (cons.inj h).2
      rw [Nat.succ.inj this]

/-- A text that does not continue a number. -/
def Delim (r : List Char) : Prop := ∀ c ∈ r.head?, isNumChar c = false

lemma num_append_inj {a b : List Char} (ha : a.all isNumChar = true) (hb : b.all isNumChar = true) (hr : Delim r)
    (hr' : Delim r') (h : a ++ r = b ++ r') : a = b ∧ r = r' := by
  induction a generalizing b with
  | nil =>
    cases b with
    | nil => exact ⟨rfl, h⟩
    | cons d b =>
      have hd : isNumChar d = true := by simp at hb; exact hb.1
      have : isNumChar d = false := hr d (by rw [nil_append] at h; simp [h])
      simp [this] at hd
  | cons c a ih =>
    simp only [all_cons, Bool.and_eq_true] at ha
    cases b with
    | nil =>
      have : isNumChar c = false := hr' c (by rw [nil_append] at h; simp [← h])
      simp [this] at ha
    | cons d b =>
      simp only [all_cons, Bool.and_eq_true] at hb
      obtain ⟨rfl, hre⟩ := cons.inj h
      obtain ⟨rfl, rfl⟩ := ih ha.2 hb.2 hre
      exact ⟨rfl, rfl⟩

/-! ## Values -/

inductive Json
  | null
  | bool (b : Bool)
  | int (n : Int)
  | float (x : FloatText)
  | str (s : String)
  | arr (l : List Json)
  | obj (items : List (String × Json))

variable {v : Json}

namespace Json

def quote (s : String) : List Char := '"' :: (escape s.toList ++ ['"'])

mutual

def chars : Json → List Char
  | null => "null".toList
  | bool true => "true".toList
  | bool false => "false".toList
  | int n => intText n
  | float x => x.text
  | str s => quote s
  | arr [] => ['[', ']']
  | arr (v :: l) => '[' :: (chars v ++ charsTail l)
  | obj [] => ['{', '}']
  | obj ((k, v) :: items) => '{' :: (quote k ++ (": ".toList ++ (chars v ++ itemsTail items)))

def charsTail : List Json → List Char
  | [] => [']']
  | v :: l => ", ".toList ++ (chars v ++ charsTail l)

def itemsTail : List (String × Json) → List Char
  | [] => ['}']
  | (k, v) :: items => ", ".toList ++ (quote k ++ (": ".toList ++ (chars v ++ itemsTail items)))

end

def dumps (v : Json) : String := String.ofList (chars v)

/-! ## The text determines the value -/

/-- What the first character of a text says about its value. -/
inductive Kind
  | null
  | bool
  | num
  | str
  | arr
  | obj
  | other
  deriving DecidableEq

def kindOf (c : Char) : Kind :=
  if c = 'n' then .null else if c = 't' ∨ c = 'f' then .bool else if c = '"' then .str else if c = '[' then .arr
  else if c = '{' then .obj else if isNumChar c then .num else .other

def kind : Json → Kind
  | null => .null
  | bool _ => .bool
  | int _ => .num
  | float _ => .num
  | str _ => .str
  | arr _ => .arr
  | obj _ => .obj

lemma kindOf_num {c : Char} (h : isNumChar c = true) : kindOf c = .num := by
  unfold kindOf
  have hne : ∀ d, isNumChar d = false → c ≠ d := by
    rintro d hd rfl
    simp [hd] at h
  rw [if_neg (hne 'n' (by decide)), if_neg (not_or.2 ⟨hne 't' (by decide), hne 'f' (by decide)⟩),
    if_neg (hne '"' (by decide)), if_neg (hne '[' (by decide)), if_neg (hne '{' (by decide)), if_pos h]

lemma isNumChar_intText (n : Int) : (intText n).all isNumChar = true := by
  rw [all_eq_true]
  intro c hc
  rcases isDigit_intText hc with h | rfl
  · simp [isNumChar, h]
  · decide

lemma intText_ne_nil (n : Int) : intText n ≠ [] := by
  cases n with
  | ofNat n => exact Nat.toDigits_ne_nil
  | negSucc n => exact cons_ne_nil _ _

lemma head_chars (v : Json) : ∃ c r, chars v = c :: r ∧ kindOf c = kind v := by
  have hn : ∀ l : List Char, l ≠ [] → l.all isNumChar = true → ∃ c r, l = c :: r ∧ kindOf c = .num := by
    intro l hne ha
    obtain ⟨c, r, rfl⟩ := exists_cons_of_ne_nil hne
    simp only [all_cons, Bool.and_eq_true] at ha
    exact ⟨c, r, rfl, kindOf_num ha.1⟩
  cases v with
  | null | str s => exact ⟨_, _, rfl, rfl⟩
  | bool b => cases b <;> exact ⟨_, _, rfl, rfl⟩
  | int n => exact hn _ (intText_ne_nil n) (isNumChar_intText n)
  | float x =>
    refine hn x.text ?_ x.num
    intro hx
    have hp := x.point
    simp [hx] at hp
  | arr l => cases l <;> exact ⟨_, _, by rw [chars], rfl⟩
  | obj l =>
    cases l with
    | nil | cons p l => exact ⟨_, _, by rw [chars], rfl⟩

lemma kind_eq {w : Json} (h : chars v ++ r = chars w ++ r') : kind v = kind w := by
  obtain ⟨c, s, hv, hc⟩ := head_chars v
  obtain ⟨d, t, hw, hd⟩ := head_chars w
  rw [hv, hw, cons_append, cons_append] at h
  rw [← hc, ← hd, (cons.inj h).1]

lemma chars_ne_cons {c : Char} (hc : kindOf c = .other) : chars v ++ r ≠ c :: r' := by
  intro h
  obtain ⟨d, t, hv, hd⟩ := head_chars v
  rw [hv, cons_append] at h
  rw [(cons.inj h).1, hc] at hd
  cases v <;> cases hd

lemma quote_inj {s t : String} (h : quote s ++ r = quote t ++ r') : s = t ∧ r = r' := by
  simp only [quote, cons_append, append_assoc, nil_append, cons.injEq, true_and] at h
  obtain ⟨hs, hr⟩ := escape_inj h
  exact ⟨String.toList_inj.1 hs, hr⟩

lemma int_ne_float {n : Int} {x : FloatText} : intText n ≠ x.text := by
  intro h
  rcases x.point with hp | hp
  · rw [← h] at hp
    rcases isDigit_intText hp with hd | hd <;> exact absurd hd (by decide)
  · rw [← h] at hp
    rcases isDigit_intText hp with hd | hd <;> exact absurd hd (by decide)

lemma delim_charsTail (l : List Json) (r : List Char) : Delim (charsTail l ++ r) := by
  cases l <;> simp [charsTail, Delim, isNumChar]

lemma delim_itemsTail (l : List (String × Json)) (r : List Char) : Delim (itemsTail l ++ r) := by
  cases l <;> simp [itemsTail, Delim, isNumChar]

mutual

lemma chars_inj : ∀ (v w : Json) {r r' : List Char}, Delim r → Delim r' → chars v ++ r = chars w ++ r' →
    v = w ∧ r = r'
  | null, w, r, r', _, _, h => by
    have hk := kind_eq h
    cases w with
    | null => simpa using h
    | _ => cases hk
  | bool b, w, r, r', _, _, h => by
    have hk := kind_eq h
    cases w with
    | bool b' => cases b <;> cases b' <;> simp_all [chars]
    | _ => cases hk
  | int n, w, r, r', hr, hr', h => by
    have hk := kind_eq h
    cases w with
    | int m =>
      obtain ⟨hn, hre⟩ := num_append_inj (isNumChar_intText n) (isNumChar_intText m) hr hr' h
      exact ⟨by rw [intText_inj hn], hre⟩
    | float x => exact absurd (num_append_inj (isNumChar_intText n) x.num hr hr' h).1 int_ne_float
    | _ => cases hk
  | float x, w, r, r', hr, hr', h => by
    have hk := kind_eq h
    cases w with
    | int m => exact absurd (num_append_inj x.num (isNumChar_intText m) hr hr' h).1.symm int_ne_float
    | float y =>
      obtain ⟨hx, hre⟩ := num_append_inj x.num y.num hr hr' h
      obtain ⟨tx, _, _⟩ := x
      obtain ⟨ty, _, _⟩ := y
      exact ⟨by subst hx; rfl, hre⟩
    | _ => cases hk
  | str s, w, r, r', _, _, h => by
    have hk := kind_eq h
    cases w with
    | str t =>
      obtain ⟨rfl, hre⟩ := quote_inj h
      exact ⟨rfl, hre⟩
    | _ => cases hk
  | arr [], w, r, r', _, _, h => by
    have hk := kind_eq h
    cases w with
    | arr m =>
      cases m with
      | nil => simpa [chars] using h
      | cons v m =>
        simp only [chars, cons_append, nil_append, append_assoc, cons.injEq, true_and] at h
        exact absurd h.symm (chars_ne_cons rfl)
    | _ => cases hk
  | arr (v :: l), w, r, r', _, _, h => by
    have hk := kind_eq h
    cases w with
    | arr m =>
      cases m with
      | nil =>
        simp only [chars, cons_append, nil_append, append_assoc, cons.injEq, true_and] at h
        exact absurd h (chars_ne_cons rfl)
      | cons w m =>
        simp only [chars, cons_append, append_assoc, cons.injEq, true_and] at h
        obtain ⟨rfl, hl⟩ := chars_inj v w (delim_charsTail l r) (delim_charsTail m r') h
        obtain ⟨rfl, hre⟩ := charsTail_inj l m hl
        exact ⟨rfl, hre⟩
    | _ => cases hk
  | obj [], w, r, r', _, _, h => by
    have hk := kind_eq h
    cases w with
    | obj m =>
      cases m with
      | nil => simpa [chars] using h
      | cons p m => simp [chars, quote] at h
    | _ => cases hk
  | obj ((k, v) :: l), w, r, r', _, _, h => by
    have hk := kind_eq h
    cases w with
    | obj m =>
      cases m with
      | nil => simp [chars, quote] at h
      | cons p m =>
        obtain ⟨k', w⟩ := p
        simp only [chars, cons_append, append_assoc, cons.injEq, true_and] at h
        obtain ⟨rfl, hv⟩ := quote_inj h
        obtain ⟨rfl, hl⟩ := chars_inj v w (delim_itemsTail l r) (delim_itemsTail m r') (append_cancel_left hv)
        obtain ⟨rfl, hre⟩ := itemsTail_inj l m hl
        exact ⟨rfl, hre⟩
    | _ => cases hk

lemma charsTail_inj : ∀ (l m : List Json) {r r' : List Char}, charsTail l ++ r = charsTail m ++ r' →
    l = m ∧ r = r'
  | [], [], r, r', h => by simpa [charsTail] using h
  | [], w :: m, r, r', h => by simp [charsTail] at h
  | v :: l, [], r, r', h => by simp [charsTail] at h
  | v :: l, w :: m, r, r', h => by
    simp only [charsTail, append_assoc] at h
    obtain ⟨rfl, hl⟩ := chars_inj v w (delim_charsTail l r) (delim_charsTail m r') (append_cancel_left h)
    obtain ⟨rfl, hr⟩ := charsTail_inj l m hl
    exact ⟨rfl, hr⟩

lemma itemsTail_inj : ∀ (l m : List (String × Json)) {r r' : List Char}, itemsTail l ++ r = itemsTail m ++ r' →
    l = m ∧ r = r'
  | [], [], r, r', h => by simpa [itemsTail] using h
  | [], (k', w) :: m, r, r', h => by simp [itemsTail] at h
  | (k, v) :: l, [], r, r', h => by simp [itemsTail] at h
  | (k, v) :: l, (k', w) :: m, r, r', h => by
    simp only [itemsTail, append_assoc] at h
    obtain ⟨rfl, hv⟩ := quote_inj (append_cancel_left h)
    obtain ⟨rfl, hl⟩ := chars_inj v w (delim_itemsTail l r) (delim_itemsTail m r') (append_cancel_left hv)
    obtain ⟨rfl, hr⟩ := itemsTail_inj l m hl
    exact ⟨rfl, hr⟩

end

lemma dumps_inj {w : Json} (h : dumps v = dumps w) : v = w := by
  have hc : chars v ++ [] = chars w ++ [] := by
    have := congrArg String.toList h
    simpa [dumps] using this
  exact (chars_inj v w (by simp [Delim]) (by simp [Delim]) hc).1

/-! ## Values in an object -/

lemma infix_itemsTail {k : String} {items : List (String × Json)} (h : (k, v) ∈ items) :
    chars v <:+: itemsTail items := by
  induction items with
  | nil => cases h
  | cons kv items ih =>
    obtain ⟨k', v'⟩ := kv
    rw [itemsTail]
    rcases mem_cons.1 h with h | h
    · obtain ⟨rfl, rfl⟩ := mk.inj h
      apply infix_append_of_infix_right
      apply infix_append_of_infix_right
      apply infix_append_of_infix_right
      exact (prefix_append ..).isInfix
    · apply infix_append_of_infix_right
      apply infix_append_of_infix_right
      apply infix_append_of_infix_right
      exact infix_append_of_infix_right (ih h)

/-- The text of a value is part of the text of its object. -/
lemma infix_obj {kv : String × Json} {k : String} {items : List (String × Json)} (h : (k, v) ∈ items) :
    chars v <:+: chars (obj (kv :: items)) := by
  rw [chars, infix_cons_iff]
  right
  apply infix_append_of_infix_right
  apply infix_append_of_infix_right
  exact infix_append_of_infix_right (infix_itemsTail h)

end Json

end AgentWallet.Lib
