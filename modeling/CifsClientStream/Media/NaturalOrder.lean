import CifsClientStream.Media.NaturalKey
import CifsClientStream.Lib.KeySort
import Mathlib.Data.List.Pairwise

/-!
# The natural order of a listing (src/lib.rs)

The derived comparison of keys is a linear order. In a sorted listing folders
stand before files and numbers in names count by their value, and the listing
is the same for every order in which the server gave the entries.
-/

namespace CifsClientStream.Media
open Win Smb Utils Blocks Digits KeySort

/-! ### The comparison of keys is a linear order -/

def numberCmp : ℕ × String × ℕ → ℕ × String × ℕ → Ordering :=
  compareLex (compareOn Prod.fst)
    (compareLex (compareOn fun number => number.2.1) (compareOn fun number => number.2.2))

theorem NaturalToken.cmp_number (len len' raw raw' : ℕ) (text text' : String) :
    (Number len text raw).cmp (Number len' text' raw') =
      numberCmp (len, text, raw) (len', text', raw') := rfl

instance : Std.TransCmp numberCmp :=
  inferInstanceAs <| Std.TransCmp (compareLex _ (compareLex _ _))

theorem numberCmp_eq {number number' : ℕ × String × ℕ} (h : numberCmp number number' = .eq) :
    number = number' := by
  obtain ⟨len, text, raw⟩ := number
  obtain ⟨len', text', raw'⟩ := number'
  simp only [numberCmp, compareLex_eq_eq, compareOn, Std.LawfulEqCmp.compare_eq_iff_eq] at h
  rw [h.1, h.2.1, h.2.2]

instance : Std.OrientedCmp NaturalToken.cmp where
  eq_swap {a b} := by
    cases a with
    | Number len text raw =>
      cases b with
      | Number len' text' raw' =>
        rw [NaturalToken.cmp_number, NaturalToken.cmp_number]
        exact Std.OrientedCmp.eq_swap
      | Text text' => rfl
    | Text text =>
      cases b with
      | Number len' text' raw' => rfl
      | Text text' =>
        have h : compare text text' = (compare text' text).swap := Std.OrientedOrd.eq_swap
        exact h

instance : Std.TransCmp NaturalToken.cmp where
  isLE_trans {a b c} hab hbc := by
    cases a with
    | Number len text raw =>
      cases c with
      | Text text'' => rfl
      | Number len'' text'' raw'' =>
        cases b with
        | Text text' => cases hbc
        | Number len' text' raw' =>
          rw [NaturalToken.cmp_number] at hab hbc ⊢
          exact Std.TransCmp.isLE_trans hab hbc
    | Text text =>
      cases b with
      | Number len' text' raw' => cases hab
      | Text text' =>
        cases c with
        | Number len'' text'' raw'' => cases hbc
        | Text text'' =>
          have hle : (compare text text').isLE := hab
          have hle' : (compare text' text'').isLE := hbc
          exact Std.TransOrd.isLE_trans hle hle'

instance : Std.LawfulEqCmp NaturalToken.cmp where
  eq_of_compare {a b} h := by
    cases a with
    | Number len text raw =>
      cases b with
      | Number len' text' raw' =>
        rw [NaturalToken.cmp_number] at h
        have heq := numberCmp_eq h
        simp only [Prod.mk.injEq] at heq
        rw [heq.1, heq.2.1, heq.2.2]
      | Text text' => cases h
    | Text text =>
      cases b with
      | Number len' text' raw' => cases h
      | Text text' =>
        have htext : compare text text' = .eq := h
        rw [Std.LawfulEqCmp.eq_of_compare htext]

instance : Std.TransCmp NaturalNameKey.cmp := inferInstanceAs <| Std.TransCmp (List.compareLex _)

instance : Std.LawfulEqCmp NaturalNameKey.cmp :=
  inferInstanceAs <| Std.LawfulEqCmp (List.compareLex _)

theorem DirectorySortKey.cmp_eq_compareLex :
    DirectorySortKey.cmp =
      compareLex (compareOn DirectorySortKey.file)
        fun a b => NaturalNameKey.cmp a.name b.name := rfl

instance : Std.TransCmp DirectorySortKey.cmp := by
  have hname := transCmp_key NaturalNameKey.cmp DirectorySortKey.name
  rw [DirectorySortKey.cmp_eq_compareLex]
  infer_instance

theorem DirectorySortKey.cmp_eq {a b : DirectorySortKey} (h : a.cmp b = .eq) : a = b := by
  obtain ⟨file, name⟩ := a
  obtain ⟨file', name'⟩ := b
  simp only [DirectorySortKey.cmp, Ordering.then_eq_eq, Std.LawfulEqCmp.compare_eq_iff_eq] at h
  rw [h.1, h.2]

/-! ### A number in a name -/

/-- `name` is `before`, a maximal run of digits, and `after`. -/
structure NumberAt (name before digits after : String) : Prop where
  parts : name = before ++ digits ++ after
  nonempty : digits.toList ≠ []
  digits : ∀ c ∈ digits.toList, c.isDigit = true
  left : ∀ c ∈ before.toList.getLast?, c.isDigit = false
  right : ∀ c ∈ after.toList.head?, c.isDigit = false

section

variable {toLowercase : String → String}

theorem naturalNameKey_numberAt {name before digits after : String}
    (h : NumberAt name before digits after) :
    naturalNameKey toLowercase name =
      naturalNameKey toLowercase before ++
        numberToken digits.toList :: naturalNameKey toLowercase after := by
  obtain ⟨left, hleft⟩ := exists_cut (p := Char.isDigit) before.toList
  obtain ⟨right, hright⟩ := exists_cut (p := Char.isDigit) after.toList
  have hmiddle := Cut.block h.nonempty h.digits h.right hright
  have hname : name.toList = before.toList ++ (digits.toList ++ after.toList) := by
    rw [h.parts, String.toList_append, String.toList_append, List.append_assoc]
  have hcut : Cut Char.isDigit name.toList (left ++ digits.toList :: right) := by
    rw [hname]
    apply hleft.append hmiddle
    intro x hx y hy
    have hydigit : y ∈ digits.toList := by
      cases hd : digits.toList with
      | nil => exact absurd hd h.nonempty
      | cons d ds =>
        rw [hd] at hy
        cases hy
        exact List.mem_cons_self
    rw [h.left x hx]
    exact h.digits y hydigit
  have htoken := runToken_digits toLowercase h.digits
  rw [naturalNameKey_cut toLowercase hcut, naturalNameKey_cut toLowercase hleft,
    naturalNameKey_cut toLowercase hright, List.map_append, List.map_cons, htoken]

theorem naturalNameKey_lt {a b before before' digits digits' after after' : String}
    (ha : NumberAt a before digits after) (hb : NumberAt b before' digits' after')
    (hbefore : naturalNameKey toLowercase before = naturalNameKey toLowercase before')
    (hlt : number digits.toList < number digits'.toList) :
    (naturalNameKey toLowercase a).cmp (naturalNameKey toLowercase b) = .lt := by
  rw [naturalNameKey_numberAt ha, naturalNameKey_numberAt hb, ← hbefore]
  have hdigits := numberToken_lt ha.digits hb.digits hlt
  exact (compareLex_append_left _ _ _).trans (compareLex_cons_lt hdigits _ _)

theorem sortDirEntries_before {x y : DirInfo}
    (h : (directorySortKey toLowercase x).cmp (directorySortKey toLowercase y) = .lt)
    (entries : List DirInfo) : Before (sortDirEntries toLowercase entries) x y :=
  before_of_lt entries h

end

/-- Sorting rearranges; numbers in names order by value, and folders stand before files. -/
theorem sortDirEntries_numeric (toLowercase : String → String) :
    (∀ entries : List DirInfo, (sortDirEntries toLowercase entries).Perm entries) ∧
    (∀ a b before before' digits digits' after after' : String,
      NumberAt a before digits after → NumberAt b before' digits' after' →
      naturalNameKey toLowercase before = naturalNameKey toLowercase before' →
      number digits.toList < number digits'.toList →
        (naturalNameKey toLowercase a).cmp (naturalNameKey toLowercase b) = .lt ∧
        ∀ (entries : List DirInfo) (x y : DirInfo), x.filename = a → y.filename = b →
          isDirectory x = isDirectory y → Before (sortDirEntries toLowercase entries) x y) ∧
    ∀ (entries : List DirInfo) (x y : DirInfo), isDirectory x = true → isDirectory y = false →
      Before (sortDirEntries toLowercase entries) x y := by
  refine ⟨sortDirEntries_perm toLowercase, ?_, ?_⟩
  · intro a b before before' digits digits' after after' ha hb hbefore hlt
    have hkey := naturalNameKey_lt ha hb hbefore hlt
    constructor
    · exact hkey
    · intro entries x y hx hy hclass
      apply sortDirEntries_before
      simp only [directorySortKey, DirectorySortKey.cmp, hx, hy, hclass, hkey,
        Std.ReflCmp.compare_self]
      rfl
  · intro entries x y hx hy
    apply sortDirEntries_before
    simp only [directorySortKey, DirectorySortKey.cmp, hx, hy]
    rfl

def tenthEpisode : DirInfo := ⟨0, 0, 0, 0, "Episode 010.avi", 0, 0⟩

def secondEpisode : DirInfo := ⟨0, 0, 0, 0, "Episode 2.mkv", 0, 0⟩

theorem sortDirEntries_numeric_episode :
    (sortDirEntries id [tenthEpisode, secondEpisode]).Perm [tenthEpisode, secondEpisode] ∧
      Before (sortDirEntries id [tenthEpisode, secondEpisode]) secondEpisode tenthEpisode := by
  have hspace : "Episode ".toList.getLast? = some ' ' := by decide +kernel
  have hmkv : ".mkv".toList.head? = some '.' := by decide +kernel
  have havi : ".avi".toList.head? = some '.' := by decide +kernel
  have hother {o : Option Char} {d : Char} (ho : o = some d) (hd : d.isDigit = false) :
      ∀ c ∈ o, c.isDigit = false := by
    intro c hc
    rw [ho, Option.mem_some_iff] at hc
    rw [← hc]
    exact hd
  have hsecond : NumberAt "Episode 2.mkv" "Episode " "2" ".mkv" := by
    constructor
    · decide +kernel
    · decide +kernel
    · exact List.all_eq_true.mp (by decide +kernel)
    · exact hother hspace rfl
    · exact hother hmkv rfl
  have htenth : NumberAt "Episode 010.avi" "Episode " "010" ".avi" := by
    constructor
    · decide +kernel
    · decide +kernel
    · exact List.all_eq_true.mp (by decide +kernel)
    · exact hother hspace rfl
    · exact hother havi rfl
  obtain ⟨hperm, hnumeric, -⟩ := sortDirEntries_numeric id
  have hbefore := (hnumeric _ _ _ _ _ _ _ _ hsecond htenth (by decide +kernel) (by decide +kernel)).2
  exact ⟨hperm _, hbefore _ secondEpisode tenthEpisode rfl rfl rfl⟩

/-! ### One order for every arrangement -/

section

variable (toLowercase : String → String)

/-- No two entries of one class have names made of the same runs. -/
def Distinct (entries : List DirInfo) : Prop :=
  entries.Pairwise fun x y =>
    ¬(isDirectory x = isDirectory y ∧ SameName toLowercase x.filename y.filename)

theorem Distinct.eq_of_key {entries : List DirInfo} (h : Distinct toLowercase entries)
    {x y : DirInfo} (hx : x ∈ entries) (hy : y ∈ entries)
    (hkey : directorySortKey toLowercase x = directorySortKey toLowercase y) : x = y := by
  have hsymm : Std.Symm fun x y : DirInfo =>
      ¬(isDirectory x = isDirectory y ∧ SameName toLowercase x.filename y.filename) := by
    constructor
    intro x y hxy hyx
    rw [← naturalNameKey_eq_iff] at hxy hyx
    exact hxy ⟨hyx.1.symm, hyx.2.symm⟩
  simp only [directorySortKey, DirectorySortKey.mk.injEq, Bool.not_inj_iff] at hkey
  rw [naturalNameKey_eq_iff] at hkey
  by_contra hne
  exact List.Pairwise.forall h hx hy hne hkey

end

/-- The order of a listing is the names' own, whatever the server's was. -/
theorem sortDirEntries_canonical (toLowercase : String → String) :
    (∀ a b : String, naturalNameKey toLowercase a = naturalNameKey toLowercase b ↔
      SameName toLowercase a b) ∧
    ∀ entries : List DirInfo, Distinct toLowercase entries →
      ∀ entries' : List DirInfo, entries'.Perm entries →
        sortDirEntries toLowercase entries' = sortDirEntries toLowercase entries ∧
        (sortDirEntries toLowercase entries').Perm entries := by
  constructor
  · exact naturalNameKey_eq_iff toLowercase
  · intro entries hdistinct entries' hperm
    constructor
    · apply (sort_eq_of_perm hperm.symm _).symm
      intro x hx y hy hcmp
      exact hdistinct.eq_of_key toLowercase hx hy (DirectorySortKey.cmp_eq hcmp)
    · exact (sortDirEntries_perm toLowercase entries').trans hperm

theorem sortDirEntries_canonical_zeros :
    sortDirEntries id [⟨0, 0, 0, 0, "a01", 0, 0⟩, ⟨0, 0, 0, 0, "a1", 0, 0⟩] =
      sortDirEntries id [⟨0, 0, 0, 0, "a1", 0, 0⟩, ⟨0, 0, 0, 0, "a01", 0, 0⟩] := by
  have hkeys : naturalNameKey id "a1" ≠ naturalNameKey id "a01" := by
    decide +kernel
  have hdistinct : Distinct id
      [⟨0, 0, 0, 0, "a1", 0, 0⟩, ⟨0, 0, 0, 0, "a01", 0, 0⟩] := by
    simp only [Distinct, List.pairwise_cons, List.mem_singleton, forall_eq, List.not_mem_nil,
      false_implies, implies_true, List.Pairwise.nil, and_true, ← naturalNameKey_eq_iff]
    exact fun h => hkeys h.2
  exact ((sortDirEntries_canonical id).2 _ hdistinct _ (List.Perm.swap _ _ _)).1

end CifsClientStream.Media
