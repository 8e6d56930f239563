import CifsClientStream.Lib.Cursor

/-!
# String codecs, padding and the DES key (src/utils.rs)

Strings come in two encodings: zero-terminated single bytes, which must be
UTF-8, and little-endian UTF-16. `decode_utf16le` pairs the bytes by index, so
a trailing single byte is an index past the end once the decoder gets to it.
-/

namespace CifsClientStream.Utils
open Cursor

inductive ParseStrError where
  | MissingTermination
  | InvalidUnicode
  deriving DecidableEq, Repr

def isSurrogate (u : UInt16) : Bool := 0xd800 ≤ u && u ≤ 0xdfff

def isLowSurrogate (u : UInt16) : Bool := 0xdc00 ≤ u && u ≤ 0xdfff

def pairChar (hi lo : UInt16) : Char :=
  Char.ofNat (0x10000 + (hi.toNat - 0xd800) * 0x400 + (lo.toNat - 0xdc00))

/-- `std::char::decode_utf16`, collected up to the first unpaired surrogate. -/
def decodeUtf16 : List UInt16 → Option (List Char)
  | [] => some []
  | u :: rest =>
    if !isSurrogate u then (decodeUtf16 rest).map (Char.ofNat u.toNat :: ·)
    else if isLowSurrogate u then none
    else match rest with
      | [] => none
      | v :: rest' =>
        if isLowSurrogate v then (decodeUtf16 rest').map (pairChar u v :: ·) else none

def unitLe (a b : UInt8) : UInt16 := UInt16.ofNat (a.toNat + 256 * b.toNat)

/-- `utils::decode_utf16le`: `none` for an unpaired surrogate. The units are
formed while they are decoded, so an unpaired surrogate before a trailing
single byte is an error and not a panic. -/
def decodeUtf16Le : Bytes → Except (Fault Unit) (List Char)
  | [] => .ok []
  | [_] => .error .panic
  | a :: b :: rest =>
    if !isSurrogate (unitLe a b) then
      (decodeUtf16Le rest).map (Char.ofNat (unitLe a b).toNat :: ·)
    else if isLowSurrogate (unitLe a b) then .error (.error ())
    else match rest with
      | [] => .error (.error ())
      | [_] => .error .panic
      | c :: d :: rest' =>
        if isLowSurrogate (unitLe c d) then
          (decodeUtf16Le rest').map (pairChar (unitLe a b) (unitLe c d) :: ·)
        else .error (.error ())

def encodeUtf16Char (c : Char) : List UInt16 :=
  if c.toNat < 0x10000 then [UInt16.ofNat c.toNat]
  else [UInt16.ofNat (0xd800 + (c.toNat - 0x10000) / 0x400),
    UInt16.ofNat (0xdc00 + (c.toNat - 0x10000) % 0x400)]

def encodeUtf16Le (msg : String) : Bytes :=
  msg.toList.flatMap fun c => (encodeUtf16Char c).flatMap putU16Le

def encodeUtf16Le0 (msg : String) : Bytes := encodeUtf16Le msg ++ [0, 0]

def splitNul : Bytes → Option (Bytes × Bytes)
  | [] => none
  | c :: rest => if c = 0 then some ([], rest) else (splitNul rest).map fun p => (c :: p.1, p.2)

def fromUtf8 (data : Bytes) : Option String := String.fromUTF8? ⟨data.toArray⟩

def parseStr0 (buffer : Bytes) : Except ParseStrError (String × Bytes) :=
  match splitNul buffer with
  | none => .error .MissingTermination
  | some (data, rest) =>
    match fromUtf8 data with
    | none => .error .InvalidUnicode
    | some s => .ok (s, rest)

def splitNul16 : Bytes → Option (List UInt16 × Bytes)
  | a :: b :: rest =>
    if unitLe a b = 0 then some ([], rest)
    else (splitNul16 rest).map fun p => (unitLe a b :: p.1, p.2)
  | _ => none

def parseUtf16Le0 (buffer : Bytes) : Except ParseStrError (String × Bytes) :=
  match splitNul16 buffer with
  | none => .error .MissingTermination
  | some (units, rest) =>
    match decodeUtf16 units with
    | none => .error .InvalidUnicode
    | some cs => .ok (String.ofList cs, rest)

/-- `str::len` of a decoded string is the number of bytes it was decoded from. -/
theorem fromUtf8_len (data : Bytes) (s : String) (h : fromUtf8 data = some s) :
    s.utf8ByteSize = data.length := by
  unfold fromUtf8 String.fromUTF8? at h
  split at h
  · cases h
    rfl
  · cases h

theorem splitNul_eq_some (b a r : Bytes) :
    splitNul b = some (a, r) ↔ b = a ++ 0 :: r ∧ 0 ∉ a := by
  induction b generalizing a with
  | nil => simp [splitNul]
  | cons c rest ih =>
    by_cases hc : c = 0
    · simp only [splitNul, hc, if_true, Option.some.injEq, Prod.mk.injEq]
      cases a with
      | nil => simp
      | cons x xs =>
        simp only [reduceCtorEq, false_and, List.cons_append, List.cons.injEq, List.mem_cons,
          not_or, false_iff, not_and]
        intro h h0
        exact absurd h.1 h0
    · simp only [splitNul, hc, if_false, Option.map_eq_some_iff, Prod.mk.injEq, Prod.exists]
      constructor
      · rintro ⟨a', r', h, rfl, rfl⟩
        obtain ⟨h1, h2⟩ := (ih a').mp h
        exact ⟨by rw [h1]; rfl, by simp [h2, Ne.symm hc]⟩
      · rintro ⟨h1, h2⟩
        cases a with
        | nil =>
          simp only [List.nil_append, List.cons.injEq] at h1
          exact absurd h1.1 hc
        | cons x xs =>
          simp only [List.cons_append, List.cons.injEq] at h1
          simp only [List.mem_cons, not_or] at h2
          exact ⟨xs, r, (ih xs).mpr ⟨h1.2, h2.2⟩, by rw [h1.1], rfl⟩

/-! ### Strings of the standard library -/

/-- `char::is_whitespace`, the Unicode property White_Space. -/
def isWhitespace (c : Char) : Bool :=
  (0x09 ≤ c.toNat && c.toNat ≤ 0x0d) || (0x2000 ≤ c.toNat && c.toNat ≤ 0x200a) ||
    [0x20, 0x85, 0xa0, 0x1680, 0x2028, 0x2029, 0x202f, 0x205f, 0x3000].contains c.toNat

def trimEndMatches (p : Char → Bool) (s : String) : String :=
  String.ofList (s.toList.reverse.dropWhile p).reverse

def trim (s : String) : String :=
  trimEndMatches isWhitespace (String.ofList (s.toList.dropWhile isWhitespace))

/-- `inner` is `s` without the whitespace at its ends. -/
structure Trimmed (s inner : String) : Prop where
  ends : ∃ left right : List Char, s.toList = left ++ inner.toList ++ right ∧
    (∀ c ∈ left, isWhitespace c) ∧ ∀ c ∈ right, isWhitespace c
  first : ∀ c ∈ inner.toList.head?, isWhitespace c = false
  last : ∀ c ∈ inner.toList.getLast?, isWhitespace c = false

theorem dropWhile_head {p : Char → Bool} {c : Char} (cs : List Char)
    (h : (cs.dropWhile p).head? = some c) : p c = false := by
  have hnot := List.head?_dropWhile_not p cs
  rw [h] at hnot
  simpa using hnot

theorem trim_trimmed (s : String) : Trimmed s (trim s) := by
  have hleft := List.takeWhile_append_dropWhile (p := isWhitespace) (l := s.toList)
  have hright := List.takeWhile_append_dropWhile (p := isWhitespace)
    (l := (s.toList.dropWhile isWhitespace).reverse)
  have htrim : (trim s).toList =
      ((s.toList.dropWhile isWhitespace).reverse.dropWhile isWhitespace).reverse := by
    simp only [trim, trimEndMatches, String.toList_ofList]
  have hcut : s.toList.dropWhile isWhitespace = (trim s).toList ++
      ((s.toList.dropWhile isWhitespace).reverse.takeWhile isWhitespace).reverse := by
    rw [htrim, ← List.reverse_append, hright, List.reverse_reverse]
  refine ⟨⟨s.toList.takeWhile isWhitespace,
    ((s.toList.dropWhile isWhitespace).reverse.takeWhile isWhitespace).reverse, ?_, ?_, ?_⟩,
    fun c hc => ?_, fun c hc => ?_⟩
  · rw [List.append_assoc, ← hcut, hleft]
  · intro c hc
    exact List.all_eq_true.mp List.all_takeWhile c hc
  · intro c hc
    exact List.all_eq_true.mp List.all_takeWhile c (List.mem_reverse.mp hc)
  · apply dropWhile_head s.toList
    rw [hcut, List.head?_append, hc]
    rfl
  · apply dropWhile_head (s.toList.dropWhile isWhitespace).reverse
    rw [← List.getLast?_reverse, ← htrim]
    exact hc

/-- `str::rsplit_once`: the text before and behind the last `sep`. -/
def rsplitOnce (sep : Char) : List Char → Option (List Char × List Char)
  | [] => none
  | c :: cs =>
    match rsplitOnce sep cs with
    | some (before, behind) => some (c :: before, behind)
    | none => if c = sep then some ([], cs) else none

/-- Windows paths are separated by backslashes. -/
def sanitizePath (path : String) : String :=
  path.map fun c => if c = '/' then '\\' else c

def roundUp4n (n : ℕ) : ℕ := 4 * ((n + 3) / 4)

def fillUp4n (n : ℕ) : ℕ := (4 - n % 4) % 4

theorem roundUp4n_eq (n : ℕ) : roundUp4n n = n + fillUp4n n := by
  unfold roundUp4n fillUp4n
  omega

def trySub (a b : ℕ) : Option ℕ := if a < b then none else some (a - b)

/-- `utils::decode_windows_time`: microseconds since January 1, 1601. -/
def decodeWindowsTime (time : UInt64) : ℕ := time.toNat / 10

/-- The instants of the calendar, in microseconds since January 1, 1601. It is the one of
another crate, and reaches 260000 years to either side. -/
structure UtcRange where
  first : ℤ
  last : ℤ
  before : first ≤ -(260000 * 365 * 86400 * 1000000)
  behind : 260000 * 365 * 86400 * 1000000 ≤ last

instance : Inhabited UtcRange where
  default := {
    first := -(260000 * 365 * 86400 * 1000000), last := 260000 * 365 * 86400 * 1000000
    before := Int.le_refl _, behind := Int.le_refl _ }

/-- `utils::decode_windows_time` with the cast to `i64` and the addition to the base time,
which panics outside the calendar. -/
def decodeWindowsTimeIn (range : UtcRange) (time : UInt64) : Except (Fault Unit) ℤ :=
  let delta : ℤ := Int.bmod (time.toNat / 10 : ℕ) (2 ^ 64)
  if range.first ≤ delta ∧ delta ≤ range.last then .ok delta else .error .panic

/-- No timestamp leaves the calendar. -/
theorem decodeWindowsTimeIn_eq (range : UtcRange) (time : UInt64) :
    decodeWindowsTimeIn range time = .ok (decodeWindowsTime time : ℤ) := by
  have htime := time.toNat_lt
  have hbefore := range.before
  have hbehind := range.behind
  have hdelta : Int.bmod (time.toNat / 10 : ℕ) (2 ^ 64) = (time.toNat / 10 : ℕ) :=
    Int.bmod_eq_of_le (by omega) (by omega)
  unfold decodeWindowsTimeIn decodeWindowsTime
  dsimp only
  rw [hdelta, if_pos ⟨by omega, by omega⟩]

/-- The loop of `expand_des_key`: seven bits of `value` at a time, each group
in the upper bits of the next byte. -/
def spreadDesKey (value : UInt64) : ℕ → UInt64
  | 0 => 0
  | i + 1 =>
    spreadDesKey value i |||
      (((value >>> UInt64.ofNat (7 * i)) &&& 0x7f) <<< UInt64.ofNat (8 * i + 1))

def beVal (b : Bytes) : ℕ := b.foldl (fun v x => v * 256 + x.toNat) 0

/-- `utils::expand_des_key`; more than seven bytes do not fit the padded key. -/
def expandDesKey (data : Bytes) : Except (Fault Unit) Bytes :=
  if data.length ≤ 7 then
    let padded := [0] ++ data ++ List.replicate (7 - data.length) 0
    .ok (putU64Le (spreadDesKey (UInt64.ofNat (beVal padded)) 8)).reverse
  else .error .panic

end CifsClientStream.Utils
