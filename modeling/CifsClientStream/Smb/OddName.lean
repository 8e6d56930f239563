import CifsClientStream.Smb.Entries
import CifsClientStream.Utf16

/-!
# Names with half a unit (src/smb/common.rs, src/smb/trans2/subreply)

Everything the directory parsers read is checked against the bytes that are
left, but the length of a name may be odd, and the name decoder indexes past
the end of such a name. `directory_panics_iff` says which entry has to come up
for this; the arithmetic of the timestamps is safe for every value.
-/

namespace CifsClientStream.Smb
open Cursor Utils Win

/-! ### One entry -/

def nameLength (raw : Bytes) : ℕ := (u32At raw 56).toNat

def nameBytes (raw : Bytes) : Bytes := (raw.drop 60).take (nameLength raw)

/-- The fixed part and the name are there. -/
def NameFits (raw : Bytes) : Prop := 60 + nameLength raw ≤ raw.length

/-- The name ends in half a unit, and the units before begin a text. -/
def OddName (raw : Bytes) : Prop :=
  NameFits raw ∧ nameLength raw % 2 = 1 ∧ StartsUtf16 (units (nameBytes raw))

def GoodName (raw : Bytes) : Prop :=
  NameFits raw ∧ nameLength raw % 2 = 0 ∧ (decodeUtf16 (units (nameBytes raw))).isSome

def DirInfo.ofBytes (raw : Bytes) (filename : String) : DirInfo where
  creationTime := decodeWindowsTime (u64At raw 4)
  accessTime := decodeWindowsTime (u64At raw 12)
  writeTime := decodeWindowsTime (u64At raw 20)
  changeTime := decodeWindowsTime (u64At raw 28)
  filename := filename
  filesize := u64At raw 36
  attributes := u32At raw 52 &&& ExtFileAttr.all

theorem nameBytes_length {raw : Bytes} (h : NameFits raw) :
    (nameBytes raw).length = nameLength raw := by
  unfold NameFits at h
  rw [nameBytes, List.length_take, List.length_drop]
  omega

theorem dirInfo_fields (raw : Bytes) (h : 60 ≤ raw.length) :
    DirInfo.fields raw = .ok ((DirInfo.ofBytes raw "", nameLength raw), raw.drop 60) := by
  rw [DirInfo.fields, advance_first raw 4 _ (by omega), getU64Le_at raw 4 _ (by omega),
    getU64Le_at raw 12 _ (by omega), getU64Le_at raw 20 _ (by omega),
    getU64Le_at raw 28 _ (by omega), getU64Le_at raw 36 _ (by omega),
    advance_at raw 44 8 _ (by omega), getU32Le_at raw 52 _ (by omega),
    getU32Le_at raw 56 _ (by omega)]
  rfl

theorem dirInfo_unfit {raw : Bytes} (h : ¬NameFits raw) :
    DirInfo.parse raw = .error (.error .InvalidData) := by
  unfold NameFits at h
  unfold DirInfo.parse
  by_cases h60 : raw.length < 60
  · rw [if_pos h60]
  · have hshort : (raw.drop 60).length < nameLength raw := by
      rw [List.length_drop]
      omega
    rw [if_neg h60, dirInfo_fields raw (by omega)]
    exact if_pos hshort

theorem dirInfo_fit {raw : Bytes} (h : NameFits raw) :
    DirInfo.parse raw = liftUtf16 (decodeUtf16Le (nameBytes raw)) >>= fun filename =>
      .ok (DirInfo.ofBytes raw filename) := by
  unfold NameFits at h
  unfold DirInfo.parse
  have hlong : ¬(raw.drop 60).length < nameLength raw := by
    rw [List.length_drop]
    omega
  rw [if_neg (by omega), dirInfo_fields raw (by omega)]
  refine (if_neg hlong).trans ?_
  rw [copyToBytes_eq _ _ (Nat.not_lt.mp hlong)]
  rfl

theorem liftUtf16_panic (x : Except (Fault Unit) (List Char)) :
    liftUtf16 x = .error .panic ↔ x = .error .panic := by
  cases x with
  | ok cs => exact ⟨fun h => (nomatch h), fun h => (nomatch h)⟩
  | error e =>
    cases e with
    | error u => exact ⟨fun h => (nomatch h), fun h => (nomatch h)⟩
    | panic => exact ⟨fun _ => rfl, fun _ => rfl⟩

/-- An entry makes the parser panic when its name ends in half a unit. -/
theorem dirInfo_noPanic (raw : Bytes) : NoPanic (DirInfo.parse raw) ↔ ¬OddName raw := by
  unfold OddName
  by_cases h : NameFits raw
  · have hname : NoPanic (liftUtf16 (decodeUtf16Le (nameBytes raw))) ↔
        ¬(nameLength raw % 2 = 1 ∧ StartsUtf16 (units (nameBytes raw))) := by
      rw [NoPanic, ne_eq, liftUtf16_panic, decodeUtf16Le_panic, nameBytes_length h]
    rw [dirInfo_fit h, noPanic_bind, hname]
    simp [h]
  · rw [dirInfo_unfit h]
    simp [h]

theorem dirInfo_good {raw : Bytes} (h : GoodName raw) :
    ∃ cs, decodeUtf16 (units (nameBytes raw)) = some cs ∧
      DirInfo.parse raw = .ok (DirInfo.ofBytes raw (String.ofList cs)) := by
  obtain ⟨hfit, heven, hname⟩ := h
  obtain ⟨cs, hcs⟩ := Option.isSome_iff_exists.mp hname
  have hdecode : decodeUtf16Le (nameBytes raw) = .ok cs := by
    rw [decodeUtf16Le_ok, nameBytes_length hfit]
    exact ⟨heven, hcs⟩
  refine ⟨cs, hcs, ?_⟩
  rw [dirInfo_fit hfit, hdecode]
  rfl

theorem dirInfo_accepts (raw : Bytes) : (∃ info, DirInfo.parse raw = .ok info) ↔ GoodName raw := by
  constructor
  · intro h
    obtain ⟨info, hinfo⟩ := h
    by_cases hfit : NameFits raw
    · rw [dirInfo_fit hfit, except_bind_ok] at hinfo
      obtain ⟨filename, hname, _⟩ := hinfo
      cases hdecode : decodeUtf16Le (nameBytes raw) with
      | ok cs =>
        rw [decodeUtf16Le_ok, nameBytes_length hfit] at hdecode
        exact ⟨hfit, hdecode.1, Option.isSome_iff_exists.mpr ⟨cs, hdecode.2⟩⟩
      | error e =>
        rw [hdecode] at hname
        cases e with
        | error u => cases hname
        | panic => cases hname
    · rw [dirInfo_unfit hfit] at hinfo
      cases hinfo
  · intro h
    obtain ⟨cs, _, hparse⟩ := dirInfo_good h
    exact ⟨_, hparse⟩

/-! ### The entries the loop gets to -/

section Loop

variable (entrySize : ℕ → ℕ → Option ℕ)

/-- The first entry and what follows it, when the next-entry offset leads past one. -/
def cut (data : Bytes) : Option (Bytes × Bytes) :=
  if data.length < 4 then none
  else match entrySize (u32At data 0).toNat (data.length - 4) with
    | none => none
    | some size =>
      if size = 0 ∨ data.length - 4 < size then none
      else some ((data.drop 4).take size, data.drop (4 + size))

/-- The loop gets to the entry `raw`: those before it are accepted. -/
inductive Reaches : Bytes → Bytes → Prop where
  | here {data raw rest : Bytes} (h : cut entrySize data = some (raw, rest)) : Reaches data raw
  | later {data first rest raw : Bytes} (h : cut entrySize data = some (first, rest))
      (hgood : GoodName first) (hrest : Reaches rest raw) : Reaches data raw

variable {entrySize}

theorem cut_rest {data raw rest : Bytes} (h : cut entrySize data = some (raw, rest)) :
    rest.length < data.length := by
  unfold cut at h
  split at h
  · cases h
  · split at h
    · cases h
    · split at h
      · cases h
      · cases h
        rw [List.length_drop]
        omega

/-- Without a further entry the loop ends, and not with a panic. -/
theorem entries_stop {data : Bytes} (h : cut entrySize data = none) :
    ∃ stop, NoPanic stop ∧ ∀ rounds, SubReply.entries entrySize (rounds + 1) data = stop := by
  unfold cut at h
  by_cases hlen : data.length < 4
  · by_cases h0 : data.length = 0
    · refine ⟨.ok [], noPanic_ok _, fun rounds => ?_⟩
      rw [SubReply.entries, if_pos h0]
    · refine ⟨.error (.error .InvalidData), noPanic_error _, fun rounds => ?_⟩
      rw [SubReply.entries, if_neg h0, if_pos hlen]
  · rw [if_neg hlen] at h
    have hstep := fun rounds => entries_step entrySize rounds data (Nat.not_lt.mp hlen)
    cases hsize : entrySize (u32At data 0).toNat (data.length - 4) with
    | none =>
      simp only [hsize] at hstep
      exact ⟨_, noPanic_error _, hstep⟩
    | some size =>
      simp only [hsize] at hstep h
      by_cases h0 : size = 0
      · simp only [if_pos h0] at hstep
        exact ⟨_, noPanic_ok _, hstep⟩
      · by_cases hfit : data.length - 4 < size
        · simp only [if_neg h0, if_pos hfit] at hstep
          exact ⟨_, noPanic_error _, hstep⟩
        · rw [if_neg (not_or.mpr ⟨h0, hfit⟩)] at h
          cases h

theorem entries_cut {data raw rest : Bytes} (rounds : ℕ)
    (h : cut entrySize data = some (raw, rest)) :
    SubReply.entries entrySize (rounds + 1) data =
      DirInfo.parse raw >>= fun info =>
        SubReply.entries entrySize rounds rest >>= fun infos => .ok (info :: infos) := by
  unfold cut at h
  split at h
  · cases h
  · rename_i hlen
    rw [entries_step _ _ _ (Nat.not_lt.mp hlen)]
    cases hsize : entrySize (u32At data 0).toNat (data.length - 4) with
    | none =>
      rw [hsize] at h
      cases h
    | some size =>
      simp only [hsize] at h
      split at h
      · cases h
      · rename_i hfit
        obtain ⟨h0, hfit⟩ := not_or.mp hfit
        cases h
        dsimp only
        rw [if_neg h0, if_neg hfit]

/-- The length of the data bounds the rounds: allowing more of them changes nothing. -/
theorem entries_rounds (rounds rounds' : ℕ) (data : Bytes) (h : data.length < rounds)
    (h' : data.length < rounds') :
    SubReply.entries entrySize rounds data = SubReply.entries entrySize rounds' data := by
  induction rounds generalizing rounds' data with
  | zero => omega
  | succ rounds ih =>
    obtain ⟨rounds', rfl⟩ := Nat.exists_eq_succ_of_ne_zero (show rounds' ≠ 0 by omega)
    cases hcut : cut entrySize data with
    | none =>
      obtain ⟨stop, _, hstop⟩ := entries_stop hcut
      rw [hstop, hstop]
    | some p =>
      obtain ⟨raw, rest⟩ := p
      have hrest := cut_rest hcut
      rw [entries_cut _ hcut, entries_cut _ hcut, ih rounds' rest (by omega) (by omega)]

theorem entries_noPanic (rounds : ℕ) (data : Bytes) (h : data.length < rounds) :
    NoPanic (SubReply.entries entrySize rounds data) ↔
      ∀ raw, Reaches entrySize data raw → ¬OddName raw := by
  induction rounds generalizing data with
  | zero => omega
  | succ rounds ih =>
    cases hcut : cut entrySize data with
    | none =>
      obtain ⟨stop, hsafe, hstop⟩ := entries_stop hcut
      rw [hstop]
      refine ⟨fun _ raw hraw => ?_, fun _ => hsafe⟩
      cases hraw with
      | here h' => rw [hcut] at h'; cases h'
      | later h' => rw [hcut] at h'; cases h'
    | some p =>
      obtain ⟨first, rest⟩ := p
      have hrest := ih rest (by have := cut_rest hcut; omega)
      rw [entries_cut _ hcut, noPanic_bind, dirInfo_noPanic]
      constructor
      · intro hsafe raw hraw
        cases hraw with
        | here h' =>
          rw [hcut] at h'
          cases h'
          exact hsafe.1
        | later h' hgood hlater =>
          rw [hcut] at h'
          cases h'
          obtain ⟨info, hinfo⟩ := (dirInfo_accepts _).mpr hgood
          exact hrest.mp ((noPanic_bind _ _).mp (hsafe.2 info hinfo)).1 raw hlater
      · intro hsafe
        refine ⟨hsafe first (.here hcut), fun info hinfo => ?_⟩
        have hgood := (dirInfo_accepts _).mp ⟨info, hinfo⟩
        refine (noPanic_bind _ _).mpr ⟨?_, fun _ _ => noPanic_ok _⟩
        exact hrest.mpr fun raw hraw => hsafe raw (.later hcut hgood hraw)

end Loop

/-! ### Both parsers -/

theorem checkCount_noPanic (count : ℕ) (finished : Bool) (info : List DirInfo) :
    NoPanic (SubReply.checkCount count finished info) := by
  unfold SubReply.checkCount
  split
  · exact noPanic_error _
  · split
    · exact noPanic_error _
    · exact noPanic_ok _

/-- The entries, the check of their number and the result. -/
theorem batch_noPanic {R : Type} (entrySize : ℕ → ℕ → Option ℕ) (count : ℕ) (finished : Bool)
    (data : Bytes) (reply : List DirInfo → R) :
    NoPanic (SubReply.entries entrySize (data.length + 1) data >>= fun info =>
        SubReply.checkCount count finished info >>= fun _ => .ok (reply info)) ↔
      ∀ raw, Reaches entrySize data raw → ¬OddName raw := by
  have hrest : ∀ info, NoPanic (SubReply.checkCount count finished info >>= fun _ =>
      (.ok (reply info) : Except (Fault Error) R)) := fun info =>
    (noPanic_bind _ _).mpr ⟨checkCount_noPanic _ _ _, fun _ _ => noPanic_ok _⟩
  rw [noPanic_bind, entries_noPanic _ _ (Nat.lt_succ_self _)]
  exact ⟨fun h => h.1, fun h => ⟨h, fun info _ => hrest info⟩⟩

theorem findFirst_noPanic (parameter data : Bytes) :
    NoPanic (SubReply.FindFirst2.parse parameter data) ↔ parameter.length < 10 ∨
      ∀ raw, Reaches SubReply.FindFirst2.entrySize data raw → ¬OddName raw := by
  unfold SubReply.FindFirst2.parse
  by_cases h : parameter.length < 10
  · rw [if_pos h]
    simp [h]
  · rw [if_neg h, findFirst_parameters _ (Nat.not_lt.mp h)]
    refine Iff.trans (batch_noPanic _ _ _ data _) ?_
    simp [h]

theorem findNext_noPanic (parameter data : Bytes) :
    NoPanic (SubReply.FindNext2.parse parameter data) ↔ parameter.length < 4 ∨
      ∀ raw, Reaches SubReply.FindNext2.entrySize data raw → ¬OddName raw := by
  unfold SubReply.FindNext2.parse
  by_cases h : parameter.length < 4
  · rw [if_pos h]
    simp [h]
  · rw [if_neg h, findNext_parameters _ (Nat.not_lt.mp h)]
    refine Iff.trans (batch_noPanic _ _ _ data _) ?_
    simp [h]

/-- The parsers of both replies end, and without a panic exactly when they do not get to an
entry whose name ends in half a unit; the timestamps stay inside the calendar. -/
theorem directory_panics_iff (range : UtcRange) (parameter data : Bytes) :
    (NoPanic (SubReply.FindFirst2.parse parameter data) ↔ parameter.length < 10 ∨
      ∀ raw, Reaches SubReply.FindFirst2.entrySize data raw → ¬OddName raw) ∧
    (NoPanic (SubReply.FindNext2.parse parameter data) ↔ parameter.length < 4 ∨
      ∀ raw, Reaches SubReply.FindNext2.entrySize data raw → ¬OddName raw) ∧
    (NoPanic (DirInfo.parse data) ↔ ¬OddName data) ∧
    (∀ entrySize rounds, data.length < rounds →
      SubReply.entries entrySize rounds data =
        SubReply.entries entrySize (data.length + 1) data) ∧
    ∀ time, decodeWindowsTimeIn range time = .ok (decodeWindowsTime time : ℤ) := by
  refine ⟨findFirst_noPanic _ _, findNext_noPanic _ _, dirInfo_noPanic _, ?_, ?_⟩
  · intro entrySize rounds hrounds
    exact entries_rounds _ _ _ hrounds (Nat.lt_succ_self _)
  · exact decodeWindowsTimeIn_eq range

/-- One entry with a name of one byte. -/
theorem odd_name_panics :
    ¬∀ parameter data, NoPanic (SubReply.FindFirst2.parse parameter data) := by
  intro hsafe
  refine hsafe (firstParameter 1 1 1 (putBytes 0 4))
    (putU32Le 65 ++ (putBytes 0 56 ++ putU32Le 1 ++ [0x61])) ?_
  decide +kernel

end CifsClientStream.Smb
