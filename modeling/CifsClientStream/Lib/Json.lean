import Mathlib.Data.List.Basic
import Mathlib.Data.Int.Basic

/-!
# JSON texts

`decode` reads a text of the JSON grammar. A number is kept as it is written,
`mantissa * 10 ^ exponent`, and an object as the list of its members.

`Denotes text v` says that `decode` makes `v` of the text wherever it stands.
A writer is checked piece by piece: the rules say when a string, a number, an
array and an object denote a value, given that their parts do.
-/

namespace CifsClientStream.Json

abbrev Text := List Char

inductive Value where
  | null
  | bool (b : Bool)
  | number (mantissa exponent : ℤ)
  | string (s : String)
  | array (items : List Value)
  | object (members : List (String × Value))

/-! ### The decoder -/

def isWs (c : Char) : Bool := c = ' ' ∨ c = '\t' ∨ c = '\n' ∨ c = '\r'

def skipWs (cs : Text) : Text := cs.dropWhile isWs

/-! Strings. -/

def hexVal (c : Char) : Option ℕ :=
  if '0' ≤ c ∧ c ≤ '9' then some (c.toNat - '0'.toNat)
  else if 'a' ≤ c ∧ c ≤ 'f' then some (c.toNat - 'a'.toNat + 10)
  else if 'A' ≤ c ∧ c ≤ 'F' then some (c.toNat - 'A'.toNat + 10)
  else none

/-- The four digits of a code unit. -/
def codeUnit : Text → Option (ℕ × Text)
  | a :: b :: c :: d :: rest => do
    let a ← hexVal a
    let b ← hexVal b
    let c ← hexVal c
    let d ← hexVal d
    some (a * 4096 + b * 256 + c * 16 + d, rest)
  | _ => none

/-- Behind `\u`; two escapes that are a surrogate pair give one character. -/
def unicodeEscape (cs : Text) : Option (Char × Text) := do
  let (hi, rest) ← codeUnit cs
  if hi < 0xd800 ∨ 0xdfff < hi then some (Char.ofNat hi, rest)
  else if 0xdbff < hi then none
  else match rest with
    | '\\' :: 'u' :: rest => do
      let (lo, rest) ← codeUnit rest
      if lo < 0xdc00 ∨ 0xdfff < lo then none
      else some (Char.ofNat (0x10000 + (hi - 0xd800) * 0x400 + (lo - 0xdc00)), rest)
    | _ => none

example : unicodeEscape "d83d\\ude00".toList = some ('😀', []) := by decide +kernel

def shortEscape (c : Char) : Option Char :=
  if c = '"' ∨ c = '\\' ∨ c = '/' then some c
  else if c = 'b' then some '\x08'
  else if c = 'f' then some '\x0c'
  else if c = 'n' then some '\n'
  else if c = 'r' then some '\r'
  else if c = 't' then some '\t'
  else none

/-- One character of a string, which may be escaped. -/
def oneChar : Text → Option (Char × Text)
  | [] => none
  | c :: rest =>
    if c = '\\' then match rest with
      | [] => none
      | e :: rest => if e = 'u' then unicodeEscape rest else (shortEscape e).map fun c => (c, rest)
    else if c.toNat < 0x20 then none
    else some (c, rest)

/-- The characters up to the closing quote. -/
def chars : ℕ → Text → Option (List Char × Text)
  | 0, _ => none
  | fuel + 1, cs =>
    if cs.head? = some '"' then some ([], cs.tail)
    else do
      let (c, rest) ← oneChar cs
      let (more, rest) ← chars fuel rest
      some (c :: more, rest)

/-! Numbers. -/

def digits (cs : Text) : Text × Text := (cs.takeWhile Char.isDigit, cs.dropWhile Char.isDigit)

def fraction (cs : Text) : Option (Text × Text) :=
  if cs.head? = some '.' then
    let (ds, rest) := digits cs.tail
    if ds = [] then none else some (ds, rest)
  else some ([], cs)

def exponent (cs : Text) : Option (ℤ × Text) :=
  if cs.head? = some 'e' ∨ cs.head? = some 'E' then
    let negative := cs.tail.head? = some '-'
    let signed := negative ∨ cs.tail.head? = some '+'
    let (ds, rest) := digits (if signed then cs.tail.tail else cs.tail)
    if ds = [] then none
    else some (if negative then -(Nat.ofDigitChars 10 ds 0 : ℤ) else Nat.ofDigitChars 10 ds 0, rest)
  else some (0, cs)

/-- No leading zeros, and digits on both sides of a point. -/
def number (cs : Text) : Option (Value × Text) := do
  let negative := cs.head? = some '-'
  let (int, rest) := digits (if negative then cs.tail else cs)
  if int = [] ∨ (int.head? = some '0' ∧ int ≠ ['0']) then none
  else do
    let (frac, rest) ← fraction rest
    let (exp, rest) ← exponent rest
    let mantissa : ℤ := Nat.ofDigitChars 10 (int ++ frac) 0
    some (.number (if negative then -mantissa else mantissa) (exp - frac.length), rest)

/-! Values. -/

/-- A value of one word, or a number. -/
def scalar (cs : Text) : Option (Value × Text) :=
  if ['t', 'r', 'u', 'e'].isPrefixOf cs then some (.bool true, cs.drop 4)
  else if ['f', 'a', 'l', 's', 'e'].isPrefixOf cs then some (.bool false, cs.drop 5)
  else if ['n', 'u', 'l', 'l'].isPrefixOf cs then some (.null, cs.drop 4)
  else number cs

mutual

def value : ℕ → Text → Option (Value × Text)
  | 0, _ => none
  | fuel + 1, cs =>
    match skipWs cs with
    | [] => none
    | c :: rest =>
      if c = '"' then (chars (rest.length + 1) rest).map fun r => (.string (String.ofList r.1), r.2)
      else if c = '[' then
        if (skipWs rest).head? = some ']' then some (.array [], (skipWs rest).tail)
        else (items fuel rest).map fun r => (.array r.1, r.2)
      else if c = '\x7b' then
        if (skipWs rest).head? = some '\x7d' then some (.object [], (skipWs rest).tail)
        else (members fuel rest).map fun r => (.object r.1, r.2)
      else scalar (c :: rest)

/-- The items of an array up to the closing bracket. -/
def items : ℕ → Text → Option (List Value × Text)
  | 0, _ => none
  | fuel + 1, cs => do
    let (v, rest) ← value fuel cs
    match skipWs rest with
    | [] => none
    | c :: rest =>
      if c = ',' then (items fuel rest).map fun r => (v :: r.1, r.2)
      else if c = ']' then some ([v], rest)
      else none

/-- The members of an object up to the closing brace. -/
def members : ℕ → Text → Option (List (String × Value) × Text)
  | 0, _ => none
  | fuel + 1, cs =>
    if (skipWs cs).head? = some '"' then do
      let (key, rest) ← chars cs.length (skipWs cs).tail
      if (skipWs rest).head? = some ':' then do
        let (v, rest) ← value fuel (skipWs rest).tail
        match skipWs rest with
        | [] => none
        | c :: rest =>
          if c = ',' then (members fuel rest).map fun r => ((String.ofList key, v) :: r.1, r.2)
          else if c = '\x7d' then some ([(String.ofList key, v)], rest)
          else none
      else none
    else none

end

/-- A text is one value, with whitespace around it. -/
def decode (text : String) : Option Value := do
  let (v, rest) ← value (text.toList.length + 1) text.toList
  if skipWs rest = [] then some v else none

example : (decode " [-2.50e+3, \x7b \"a\" : true \x7d ] ").isSome ∧ (decode "[1, 02]").isNone := by
  decide +kernel

/-! ### Texts that denote a value -/

/-- What stands behind a number does not continue it. -/
def Delimited (rest : Text) : Prop :=
  ∀ c ∈ rest.head?, c.isDigit = false ∧ c ≠ '.' ∧ c ≠ 'e' ∧ c ≠ 'E'

theorem delimited_nil : Delimited [] := by
  intro c hc
  cases hc

theorem delimited_cons (c : Char) (rest : Text)
    (h : c.isDigit = false ∧ c ≠ '.' ∧ c ≠ 'e' ∧ c ≠ 'E') : Delimited (c :: rest) := by
  intro d hd
  cases hd
  exact h

/-- `decode` makes `v` of the text wherever it stands. -/
def Denotes (text : Text) (v : Value) : Prop :=
  ∀ fuel rest, text.length < fuel → Delimited rest → value fuel (text ++ rest) = some (v, rest)

theorem decode_denotes {text : String} {v : Value} (h : Denotes text.toList v) :
    decode text = some v := by
  have hvalue := h (text.toList.length + 1) [] (Nat.lt_succ_self _) delimited_nil
  rw [List.append_nil] at hvalue
  unfold decode
  rw [hvalue]
  rfl

/-! Strings. -/

/-- The text is one character of a string. -/
def Spells (text : Text) (c : Char) : Prop :=
  (∀ rest, oneChar (text ++ rest) = some (c, rest)) ∧ text.head? ≠ some '"'

/-- The text is a string in quotes. -/
def Quotes (text : Text) (s : String) : Prop :=
  ∃ body, text = '"' :: body ∧ ∀ fuel rest, body.length ≤ fuel →
    chars fuel (body ++ rest) = some (s.toList, rest)

theorem Spells.ne_nil {text : Text} {c : Char} (h : Spells text c) : text ≠ [] := by
  rintro rfl
  cases h.1 []

theorem chars_spelled {f : Char → Text} (hf : ∀ c, Spells (f c) c) (cs : List Char) (fuel : ℕ)
    (rest : Text) (hfuel : (cs.flatMap f).length < fuel) :
    chars fuel (cs.flatMap f ++ '"' :: rest) = some (cs, rest) := by
  induction cs generalizing fuel with
  | nil =>
    cases fuel with
    | zero => cases hfuel
    | succ fuel => rfl
  | cons c cs ih =>
    obtain ⟨hone, hhead⟩ := hf c
    have hne := (hf c).ne_nil
    have hpos := List.length_pos_of_ne_nil hne
    rw [List.flatMap_cons, List.length_append] at hfuel
    cases fuel with
    | zero => cases hfuel
    | succ fuel =>
      have hquote : (f c ++ (cs.flatMap f ++ '"' :: rest)).head? ≠ some '"' := by
        rw [List.head?_append_of_ne_nil _ hne]
        exact hhead
      rw [List.flatMap_cons, List.append_assoc, chars, if_neg hquote, hone]
      change (chars fuel (cs.flatMap f ++ '"' :: rest) >>= _) = _
      rw [ih fuel (by omega)]
      rfl

/-- A writer that spells every character writes strings. -/
theorem spelled_quotes {f : Char → Text} (hf : ∀ c, Spells (f c) c) (s : String) :
    Quotes ('"' :: (s.toList.flatMap f ++ ['"'])) s := by
  refine ⟨_, rfl, fun fuel rest hfuel => ?_⟩
  rw [List.length_append, List.length_singleton] at hfuel
  rw [List.append_assoc]
  exact chars_spelled hf s.toList fuel rest (by omega)

theorem skipWs_cons {c : Char} (h : isWs c = false) (rest : Text) : skipWs (c :: rest) = c :: rest :=
  List.dropWhile_cons_of_neg (by rw [h]; exact Bool.false_ne_true)

theorem Quotes.denotes {text : Text} {s : String} (h : Quotes text s) :
    Denotes text (.string s) := by
  obtain ⟨body, rfl, hbody⟩ := h
  intro fuel rest hfuel _
  cases fuel with
  | zero => cases hfuel
  | succ fuel =>
    have hchars := hbody ((body ++ rest).length + 1) rest (by rw [List.length_append]; omega)
    rw [value, List.cons_append, skipWs_cons rfl]
    dsimp only
    rw [if_pos rfl, hchars]
    exact congrArg (fun s => some (Value.string s, rest)) String.ofList_toList

/-! Numbers. -/

theorem digits_append {ds rest : Text} (hds : ∀ c ∈ ds, c.isDigit) (hrest : Delimited rest) :
    digits (ds ++ rest) = (ds, rest) := by
  have hstop : rest.takeWhile Char.isDigit = [] ∧ rest.dropWhile Char.isDigit = rest := by
    cases rest with
    | nil => exact ⟨rfl, rfl⟩
    | cons c rest =>
      have hc : ¬c.isDigit := by
        rw [(hrest c rfl).1]
        exact Bool.false_ne_true
      exact ⟨List.takeWhile_cons_of_neg hc, List.dropWhile_cons_of_neg hc⟩
  rw [digits, List.takeWhile_append_of_pos hds, List.dropWhile_append_of_pos hds, hstop.1, hstop.2,
    List.append_nil]

theorem fraction_none {rest : Text} (h : Delimited rest) : fraction rest = some ([], rest) :=
  if_neg fun hc => (h '.' hc).2.1 rfl

theorem exponent_none {rest : Text} (h : Delimited rest) : exponent rest = some (0, rest) :=
  if_neg fun hc => hc.elim (fun he => (h 'e' he).2.2.1 rfl) fun he => (h 'E' he).2.2.2 rfl

/-- The digits of a number have no leading zero. -/
theorem toDigits_head (n : ℕ) (h : (Nat.toDigits 10 n).head? = some '0') :
    Nat.toDigits 10 n = ['0'] := by
  induction n using Nat.strong_induction_on with
  | _ n ih =>
    by_cases hn : n < 10
    · rw [Nat.toDigits_of_lt_base hn] at h ⊢
      exact congrArg (fun c => [c]) (Option.some.inj h)
    · rw [Nat.toDigits_of_base_le (by decide) (by omega),
        List.head?_append_of_ne_nil _ Nat.toDigits_ne_nil] at h
      have hzero := ih (n / 10) (by omega) h
      have hvalue : Nat.ofDigitChars 10 (Nat.toDigits 10 (n / 10)) 0 = 0 := by
        rw [hzero]
        rfl
      rw [Nat.ofDigitChars_ten_toDigits] at hvalue
      omega

theorem number_digits (n : ℕ) {rest : Text} (hrest : Delimited rest) :
    number (Nat.toDigits 10 n ++ rest) = some (.number n 0, rest) := by
  have hall : ∀ c ∈ Nat.toDigits 10 n, c.isDigit := fun c hc =>
    Nat.isDigit_of_mem_toDigits (by decide) (by decide) hc
  have hne : Nat.toDigits 10 n ≠ [] := Nat.toDigits_ne_nil
  have hsign : ¬(Nat.toDigits 10 n ++ rest).head? = some '-' := by
    rw [List.head?_append_of_ne_nil _ hne]
    intro hminus
    have hdigit := hall '-' (List.mem_of_mem_head? hminus)
    cases hdigit
  have hfirst : ¬(Nat.toDigits 10 n = [] ∨
      ((Nat.toDigits 10 n).head? = some '0' ∧ Nat.toDigits 10 n ≠ ['0'])) := by
    rintro (hnil | ⟨hzero, hmore⟩)
    · exact hne hnil
    · exact hmore (toDigits_head n hzero)
  unfold number
  simp only [hsign, if_false, digits_append hall hrest, hfirst, fraction_none hrest,
    exponent_none hrest, Option.bind_eq_bind, Option.bind_some, List.append_nil,
    Nat.ofDigitChars_ten_toDigits]
  rfl

theorem nat_denotes (n : ℕ) : Denotes (Nat.toDigits 10 n) (.number n 0) := by
  intro fuel rest hfuel hrest
  have hnumber := number_digits n hrest
  have hall : ∀ c ∈ Nat.toDigits 10 n, c.isDigit := fun c hc =>
    Nat.isDigit_of_mem_toDigits (by decide) (by decide) hc
  cases fuel with
  | zero => cases hfuel
  | succ fuel =>
    cases hds : Nat.toDigits 10 n with
    | nil => exact absurd hds Nat.toDigits_ne_nil
    | cons d ds =>
      rw [hds, List.cons_append] at hnumber
      have hd : d.isDigit := hall d (by rw [hds]; exact List.mem_cons_self)
      have hother : ∀ c : Char, c.isDigit = false → d ≠ c := by
        rintro c hc rfl
        rw [hc] at hd
        cases hd
      have hws : isWs d = false := by
        simp [isWs, hother ' ' rfl, hother '\t' rfl, hother '\n' rfl, hother '\r' rfl]
      rw [value, List.cons_append, skipWs_cons hws]
      dsimp only
      rw [if_neg (hother '"' rfl), if_neg (hother '[' rfl), if_neg (hother '\x7b' rfl), scalar]
      simp [List.isPrefixOf, (hother 't' rfl).symm, (hother 'f' rfl).symm, (hother 'n' rfl).symm,
        hnumber]

/-! Arrays and objects. -/

theorem intercalate_cons (first second : Text) (rest : List Text) :
    [','].intercalate (first :: second :: rest) =
      first ++ ',' :: [','].intercalate (second :: rest) := by
  rw [List.intercalate_cons_cons, List.append_assoc, List.singleton_append]

theorem value_not_closed {fuel : ℕ} {cs : Text} {r : Value × Text} (h : value fuel cs = some r) :
    (skipWs cs).head? ≠ some ']' := by
  intro hclosed
  cases fuel with
  | zero => cases h
  | succ fuel =>
    rw [value] at h
    cases hcs : skipWs cs with
    | nil =>
      rw [hcs] at hclosed
      cases hclosed
    | cons c rest =>
      rw [hcs] at h hclosed
      cases hclosed
      cases h

theorem items_denote {texts : List Text} {vs : List Value} (h : List.Forall₂ Denotes texts vs)
    (hne : texts ≠ []) (fuel : ℕ) (rest : Text)
    (hfuel : ([','].intercalate texts).length + 1 < fuel) :
    items fuel ([','].intercalate texts ++ ']' :: rest) = some (vs, rest) := by
  induction h generalizing fuel with
  | nil => exact absurd rfl hne
  | @cons text v texts vs hfirst hrest ih =>
    cases fuel with
    | zero => cases hfuel
    | succ fuel =>
      cases hrest with
      | nil =>
        rw [List.intercalate_singleton] at hfuel ⊢
        have hvalue := hfirst fuel (']' :: rest) (by omega) (delimited_cons _ _ (by decide))
        rw [items, hvalue]
        rfl
      | @cons second v' texts vs hsecond hothers =>
        rw [intercalate_cons, List.length_append, List.length_cons] at hfuel
        have hvalue := hfirst fuel (',' :: ([','].intercalate (second :: texts) ++ ']' :: rest))
          (by omega) (delimited_cons _ _ (by decide))
        have hmore := ih (List.cons_ne_nil _ _) fuel (by omega)
        rw [intercalate_cons, List.append_assoc, List.cons_append, items, hvalue]
        change (items fuel ([','].intercalate (second :: texts) ++ ']' :: rest)).map _ = _
        rw [hmore]
        rfl

theorem array_denotes {texts : List Text} {vs : List Value} (h : List.Forall₂ Denotes texts vs) :
    Denotes ('[' :: ([','].intercalate texts ++ [']'])) (.array vs) := by
  intro fuel rest hfuel _
  rw [List.length_cons, List.length_append, List.length_singleton] at hfuel
  cases fuel with
  | zero => cases hfuel
  | succ fuel =>
    rw [value, List.cons_append, skipWs_cons rfl, List.append_assoc, List.singleton_append]
    cases h with
    | nil => rfl
    | @cons text v texts vs hfirst hrest =>
      have hitems := items_denote (.cons hfirst hrest) (List.cons_ne_nil _ _) fuel rest (by omega)
      have hopen : ¬(skipWs ([','].intercalate (text :: texts) ++ ']' :: rest)).head? = some ']' := by
        cases fuel with
        | zero => cases hitems
        | succ fuel =>
          rw [items] at hitems
          obtain ⟨r, hvalue, _⟩ := Option.bind_eq_some_iff.mp hitems
          exact value_not_closed hvalue
      dsimp only
      rw [if_neg (by decide), if_pos rfl, if_neg hopen, hitems]
      rfl

/-- The text is a key in quotes, a colon and a value. -/
def Names (text : Text) (member : String × Value) : Prop :=
  ∃ key v, text = key ++ ':' :: v ∧ Quotes key member.1 ∧ Denotes v member.2

theorem members_one {text : Text} {member : String × Value} (h : Names text member) (fuel : ℕ)
    (c : Char) (rest : Text) (hfuel : text.length < fuel) (hc : c = ',' ∨ c = '\x7d') :
    members (fuel + 1) (text ++ c :: rest) =
      if c = ',' then (members fuel rest).map fun r => (member :: r.1, r.2)
      else some ([member], rest) := by
  obtain ⟨key, v, rfl, ⟨body, rfl, hbody⟩, hv⟩ := h
  simp only [List.length_append, List.length_cons] at hfuel
  have hws : isWs c = false ∧ c.isDigit = false ∧ c ≠ '.' ∧ c ≠ 'e' ∧ c ≠ 'E' := by
    rcases hc with rfl | rfl
    · decide
    · decide
  have hchars := hbody (('"' :: body ++ ':' :: v) ++ c :: rest).length (':' :: (v ++ c :: rest))
    (by simp only [List.length_append, List.length_cons]; omega)
  have hvalue := hv fuel (c :: rest) (by omega) (delimited_cons c rest hws.2)
  have htail : (skipWs (('"' :: body ++ ':' :: v) ++ c :: rest)).tail =
      body ++ ':' :: (v ++ c :: rest) := by
    rw [List.append_assoc]
    rfl
  have hhead : (skipWs (('"' :: body ++ ':' :: v) ++ c :: rest)).head? = some '"' := rfl
  have hcolon : skipWs (':' :: (v ++ c :: rest)) = ':' :: (v ++ c :: rest) := skipWs_cons rfl _
  rw [members, if_pos hhead, htail, hchars]
  simp only [Option.bind_eq_bind, Option.bind_some, hcolon, List.head?_cons, if_true,
    List.tail_cons, hvalue, skipWs_cons hws.1, String.ofList_toList]
  rcases hc with rfl | rfl
  · rfl
  · rfl

theorem members_denote {texts : List Text} {ms : List (String × Value)}
    (h : List.Forall₂ Names texts ms) (hne : texts ≠ []) (fuel : ℕ) (rest : Text)
    (hfuel : ([','].intercalate texts).length + 1 < fuel) :
    members fuel ([','].intercalate texts ++ '\x7d' :: rest) = some (ms, rest) := by
  induction h generalizing fuel with
  | nil => exact absurd rfl hne
  | @cons text member texts ms hfirst hrest ih =>
    cases fuel with
    | zero => cases hfuel
    | succ fuel =>
      cases hrest with
      | nil =>
        rw [List.intercalate_singleton] at hfuel ⊢
        rw [members_one hfirst fuel _ rest (by omega) (Or.inr rfl), if_neg (by decide)]
      | @cons second member' texts ms hsecond hothers =>
        rw [intercalate_cons, List.length_append, List.length_cons] at hfuel
        have hmore := ih (List.cons_ne_nil _ _) fuel (by omega)
        rw [intercalate_cons, List.append_assoc, List.cons_append,
          members_one hfirst fuel _ _ (by omega) (Or.inl rfl), if_pos rfl, hmore]
        rfl

theorem object_denotes {texts : List Text} {ms : List (String × Value)}
    (h : List.Forall₂ Names texts ms) :
    Denotes ('\x7b' :: ([','].intercalate texts ++ ['\x7d'])) (.object ms) := by
  intro fuel rest hfuel _
  rw [List.length_cons, List.length_append, List.length_singleton] at hfuel
  cases fuel with
  | zero => cases hfuel
  | succ fuel =>
    rw [value, List.cons_append, skipWs_cons rfl, List.append_assoc, List.singleton_append]
    cases h with
    | nil => rfl
    | @cons text member texts ms hfirst hrest =>
      have hmembers := members_denote (.cons hfirst hrest) (List.cons_ne_nil _ _) fuel rest
        (by omega)
      have hopen : ¬(skipWs ([','].intercalate (text :: texts) ++ '\x7d' :: rest)).head? =
          some '\x7d' := by
        obtain ⟨key, v, rfl, ⟨body, rfl, _⟩, _⟩ := hfirst
        intro hclosed
        cases texts with
        | nil =>
          rw [List.intercalate_singleton, List.cons_append, List.cons_append,
            skipWs_cons rfl] at hclosed
          cases hclosed
        | cons second texts =>
          rw [intercalate_cons, List.cons_append, List.cons_append, List.cons_append,
            skipWs_cons rfl] at hclosed
          cases hclosed
      dsimp only
      rw [if_neg (by decide), if_neg (by decide), if_pos rfl, if_neg hopen, hmembers]
      rfl

end CifsClientStream.Json
