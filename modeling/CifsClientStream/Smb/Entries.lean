import CifsClientStream.Smb.Trans2

/-!
# The entries of a search reply (src/smb/trans2/subreply)

The replies to the first and to a further transaction of a search carry their
entries in the same way, and the two parsers differ in one place: how they take
a next-entry offset of zero. `parse_agree_iff` says for which data this shows.
-/

namespace CifsClientStream.Smb
open Cursor

/-! ### What the parsers accept -/

theorem checkCount_ok (count : ℕ) (finished : Bool) (info : List DirInfo) :
    SubReply.checkCount count finished info = .ok () ↔
      info.length = count ∧ (finished = true ∨ count ≠ 0) := by
  unfold SubReply.checkCount
  by_cases hlen : info.length = count
  · rw [if_neg (not_not.mpr hlen)]
    cases finished with
    | true => simp [hlen]
    | false =>
      by_cases h0 : count = 0
      · simp [h0]
      · simp [hlen, h0]
  · rw [if_pos hlen]
    simp [hlen]

theorem findFirst_parameters (parameter : Bytes) (h : 10 ≤ parameter.length) :
    SubReply.FindFirst2.parameters parameter =
      .ok ((u16At parameter 0, (u16At parameter 2).toNat, u16At parameter 4 != 0),
        parameter.drop 8) := by
  unfold SubReply.FindFirst2.parameters
  rw [getU16Le_first _ _ (by omega), getU16Le_at _ 2 _ (by omega), getU16Le_at _ 4 _ (by omega),
    advance_at _ 6 2 _ (by omega), pure_apply]

theorem findNext_parameters (parameter : Bytes) (h : 4 ≤ parameter.length) :
    SubReply.FindNext2.parameters parameter =
      .ok (((u16At parameter 0).toNat, u16At parameter 2 != 0), parameter.drop 4) := by
  unfold SubReply.FindNext2.parameters
  rw [getU16Le_first _ _ (by omega), getU16Le_at _ 2 _ (by omega), pure_apply]

theorem findFirst_parse (parameter data : Bytes) (r : SubReply.FindFirst2) :
    SubReply.FindFirst2.parse parameter data = .ok r ↔
      10 ≤ parameter.length ∧ r.sid = u16At parameter 0 ∧
        r.finished = (u16At parameter 4 != 0) ∧
        SubReply.entries SubReply.FindFirst2.entrySize (data.length + 1) data = .ok r.info ∧
        r.info.length = (u16At parameter 2).toNat ∧
        (r.finished = true ∨ (u16At parameter 2).toNat ≠ 0) := by
  unfold SubReply.FindFirst2.parse
  by_cases hlen : parameter.length < 10
  · rw [if_pos hlen]
    exact ⟨fun h => (nomatch h), fun h => by omega⟩
  · rw [if_neg hlen, findFirst_parameters _ (Nat.not_lt.mp hlen)]
    simp only [except_bind_ok]
    constructor
    · rintro ⟨_, ⟨rfl⟩, info, hinfo, u, hcount, h⟩
      cases h
      exact ⟨by omega, rfl, rfl, hinfo, (checkCount_ok _ _ _).mp hcount⟩
    · rintro ⟨_, hsid, hfinished, hinfo, hcount⟩
      refine ⟨_, rfl, r.info, hinfo, (), ?_, ?_⟩
      · rw [← hfinished]
        exact (checkCount_ok _ _ _).mpr hcount
      · rw [← hsid, ← hfinished]

theorem findNext_parse (parameter data : Bytes) (r : SubReply.FindNext2) :
    SubReply.FindNext2.parse parameter data = .ok r ↔
      4 ≤ parameter.length ∧ r.finished = (u16At parameter 2 != 0) ∧
        SubReply.entries SubReply.FindNext2.entrySize (data.length + 1) data = .ok r.info ∧
        r.info.length = (u16At parameter 0).toNat ∧
        (r.finished = true ∨ (u16At parameter 0).toNat ≠ 0) := by
  unfold SubReply.FindNext2.parse
  by_cases hlen : parameter.length < 4
  · rw [if_pos hlen]
    exact ⟨fun h => (nomatch h), fun h => by omega⟩
  · rw [if_neg hlen, findNext_parameters _ (Nat.not_lt.mp hlen)]
    simp only [except_bind_ok]
    constructor
    · rintro ⟨_, ⟨rfl⟩, info, hinfo, u, hcount, h⟩
      cases h
      exact ⟨by omega, rfl, hinfo, (checkCount_ok _ _ _).mp hcount⟩
    · rintro ⟨_, hfinished, hinfo, hcount⟩
      refine ⟨_, rfl, r.info, hinfo, (), ?_, ?_⟩
      · rw [← hfinished]
        exact (checkCount_ok _ _ _).mpr hcount
      · rw [← hfinished]

/-- A batch that is not the last is not empty. -/
theorem findFirst_nonempty {parameter data : Bytes} {r : SubReply.FindFirst2}
    (h : SubReply.FindFirst2.parse parameter data = .ok r) (hmore : r.finished = false) :
    r.info ≠ [] := by
  obtain ⟨_, _, _, _, hlen, hcount⟩ := (findFirst_parse _ _ _).mp h
  rw [hmore] at hcount
  intro hnil
  rw [hnil, List.length_nil] at hlen
  simp [← hlen] at hcount

theorem findNext_nonempty {parameter data : Bytes} {r : SubReply.FindNext2}
    (h : SubReply.FindNext2.parse parameter data = .ok r) (hmore : r.finished = false) :
    r.info ≠ [] := by
  obtain ⟨_, _, _, hlen, hcount⟩ := (findNext_parse _ _ _).mp h
  rw [hmore] at hcount
  intro hnil
  rw [hnil, List.length_nil] at hlen
  simp [← hlen] at hcount

/-! ### One round of the loop -/

theorem entries_nil (entrySize : ℕ → ℕ → Option ℕ) (rounds : ℕ) :
    SubReply.entries entrySize rounds [] = .ok [] := by
  cases rounds with
  | zero => rfl
  | succ rounds => rfl

theorem entries_step (entrySize : ℕ → ℕ → Option ℕ) (rounds : ℕ) (data : Bytes)
    (h : 4 ≤ data.length) :
    SubReply.entries entrySize (rounds + 1) data =
      match entrySize (u32At data 0).toNat (data.length - 4) with
      | none => .error (.error .InvalidData)
      | some size =>
        if size = 0 then .ok []
        else if data.length - 4 < size then .error (.error .InvalidData)
        else DirInfo.parse ((data.drop 4).take size) >>= fun info =>
          SubReply.entries entrySize rounds (data.drop (4 + size)) >>= fun rest =>
            .ok (info :: rest) := by
  have hget : (getU32Le : Reader Error UInt32) data = .ok (u32At data 0, data.drop 4) := by
    have hat := getU32Le_at (ε := Error) data 0 pure (by omega)
    rwa [bind_pure, List.drop_zero] at hat
  rw [SubReply.entries, if_neg (by omega), if_neg (by omega), hget]
  change (match entrySize (u32At data 0).toNat (data.drop 4).length with
    | none => _
    | some size => _) = _
  rw [List.length_drop]
  cases entrySize (u32At data 0).toNat (data.length - 4) with
  | none => rfl
  | some size =>
    dsimp only
    by_cases h0 : size = 0
    · rw [if_pos h0, if_pos h0]
    · by_cases hlen : data.length - 4 < size
      · rw [if_neg h0, if_neg h0, if_pos hlen, if_pos hlen]
      · rw [if_neg h0, if_neg h0, if_neg hlen, if_neg hlen,
          copyToBytes_eq (data.drop 4) size (by rw [List.length_drop]; omega), List.drop_drop]
        rfl

/-! ### A next-entry offset of zero -/

/-- Entries one after the other, each behind the offset of the next one. -/
def chain : List Bytes → Bytes → Bytes
  | [], tail => tail
  | raw :: raws, tail => putU32Le (UInt32.ofNat (raw.length + 4)) ++ raw ++ chain raws tail

def IsEntry (raw : Bytes) : Prop := raw.length + 4 < 2 ^ 32 ∧ ∃ info, DirInfo.parse raw = .ok info

/-- `count` entries, of which the last has the next-entry offset 0; or `count` entries and
such an offset with nothing behind it. -/
def ZeroEnded (data : Bytes) (count : ℕ) : Prop :=
  ∃ raws last, data = chain raws (putU32Le 0 ++ last) ∧ (∀ raw ∈ raws, IsEntry raw) ∧
    ((last = [] ∧ count = raws.length) ∨
      ((∃ info, DirInfo.parse last = .ok info) ∧ count = raws.length + 1))

theorem dirInfo_nonempty {raw : Bytes} {info : DirInfo} (h : DirInfo.parse raw = .ok info) :
    0 < raw.length := by
  unfold DirInfo.parse at h
  split at h
  · cases h
  · omega

theorem entries_more {entrySize : ℕ → ℕ → Option ℕ} {rounds size : ℕ} {data : Bytes}
    {info : List DirInfo} (hlen : 4 ≤ data.length)
    (hsize : entrySize (u32At data 0).toNat (data.length - 4) = some size) (h0 : size ≠ 0) :
    SubReply.entries entrySize (rounds + 1) data = .ok info ↔
      4 + size ≤ data.length ∧ ∃ first rest, info = first :: rest ∧
        DirInfo.parse ((data.drop 4).take size) = .ok first ∧
        SubReply.entries entrySize rounds (data.drop (4 + size)) = .ok rest := by
  rw [entries_step _ _ _ hlen, hsize]
  dsimp only
  rw [if_neg h0]
  by_cases hfit : data.length - 4 < size
  · rw [if_pos hfit]
    exact ⟨fun h => (nomatch h), fun h => by omega⟩
  · rw [if_neg hfit]
    simp only [except_bind_ok]
    constructor
    · rintro ⟨first, hfirst, rest, hrest, h⟩
      cases h
      exact ⟨by omega, first, rest, rfl, hfirst, hrest⟩
    · rintro ⟨_, first, rest, rfl, hfirst, hrest⟩
      exact ⟨first, hfirst, rest, hrest, rfl⟩

theorem entries_none {entrySize : ℕ → ℕ → Option ℕ} {rounds : ℕ} {data : Bytes}
    {info : List DirInfo} (hlen : 4 ≤ data.length)
    (hsize : entrySize (u32At data 0).toNat (data.length - 4) = none) :
    SubReply.entries entrySize (rounds + 1) data ≠ .ok info := by
  rw [entries_step _ _ _ hlen, hsize]
  exact fun h => (nomatch h)

theorem entries_short {entrySize : ℕ → ℕ → Option ℕ} {rounds : ℕ} {data : Bytes}
    {info : List DirInfo} (h0 : data ≠ []) (hlen : data.length < 4) :
    SubReply.entries entrySize (rounds + 1) data ≠ .ok info := by
  have hpos := List.length_pos_of_ne_nil h0
  rw [SubReply.entries, if_neg (by omega), if_pos hlen]
  exact fun h => (nomatch h)

theorem entries_end {entrySize : ℕ → ℕ → Option ℕ} {rounds : ℕ} {data : Bytes}
    {info : List DirInfo} (hlen : 4 ≤ data.length)
    (hsize : entrySize (u32At data 0).toNat (data.length - 4) = some 0) :
    SubReply.entries entrySize (rounds + 1) data = .ok info ↔ info = [] := by
  rw [entries_step _ _ _ hlen, hsize]
  simp [eq_comm]

theorem entrySize_ge {n : ℕ} (remaining : ℕ) (h : 4 ≤ n) :
    SubReply.FindFirst2.entrySize n remaining = some (n - 4) ∧
      SubReply.FindNext2.entrySize n remaining = some (n - 4) := by
  constructor
  · unfold SubReply.FindFirst2.entrySize
    rw [if_neg (by omega), if_pos h]
  · unfold SubReply.FindNext2.entrySize
    rw [if_neg (by omega)]

theorem entrySize_lt {n remaining : ℕ} (h : n < 4) (h0 : n ≠ 0) :
    SubReply.FindFirst2.entrySize n remaining = none := by
  unfold SubReply.FindFirst2.entrySize
  rw [if_neg h0, if_neg (by omega)]

theorem entrySize_next_lt {n remaining : ℕ} (h : n < 4) :
    SubReply.FindNext2.entrySize n remaining = none := by
  unfold SubReply.FindNext2.entrySize
  rw [if_pos h]

/-- What the further transaction accepts the first one accepts. -/
theorem entries_next_first (rounds : ℕ) (data : Bytes) (info : List DirInfo)
    (h : SubReply.entries SubReply.FindNext2.entrySize rounds data = .ok info) :
    SubReply.entries SubReply.FindFirst2.entrySize rounds data = .ok info := by
  induction rounds generalizing data info with
  | zero => exact h
  | succ rounds ih =>
    by_cases h0 : data = []
    · subst h0
      rw [entries_nil] at h ⊢
      exact h
    · by_cases hlen : 4 ≤ data.length
      · by_cases hn : 4 ≤ (u32At data 0).toNat
        · obtain ⟨hfirst, hnext⟩ := entrySize_ge (data.length - 4) hn
          by_cases hsize : (u32At data 0).toNat - 4 = 0
          · rw [hsize] at hfirst hnext
            rw [entries_end hlen hnext] at h
            rw [entries_end hlen hfirst]
            exact h
          · obtain ⟨hfit, first, rest, hinfo, hparse, hrest⟩ := (entries_more hlen hnext hsize).mp h
            exact (entries_more hlen hfirst hsize).mpr
              ⟨hfit, first, rest, hinfo, hparse, ih _ _ hrest⟩
        · exact absurd h (entries_none hlen (entrySize_next_lt (by omega)))
      · exact absurd h (entries_short h0 (by omega))

/-- An entry in front of data that ends with a next-entry offset of zero. -/
theorem ZeroEnded.cons {data : Bytes} {first : DirInfo} {count : ℕ}
    (hn : 4 ≤ (u32At data 0).toNat) (hfit : 4 + ((u32At data 0).toNat - 4) ≤ data.length)
    (hparse : DirInfo.parse ((data.drop 4).take ((u32At data 0).toNat - 4)) = .ok first)
    (h : ZeroEnded (data.drop (4 + ((u32At data 0).toNat - 4))) count) :
    ZeroEnded data (count + 1) := by
  obtain ⟨raws, last, htail, hraws, hcount⟩ := h
  have hlt := (u32At data 0).toNat_lt
  have hraw : ((data.drop 4).take ((u32At data 0).toNat - 4)).length + 4 =
      (u32At data 0).toNat := by
    rw [List.length_take, List.length_drop]
    omega
  refine ⟨(data.drop 4).take ((u32At data 0).toNat - 4) :: raws, last, ?_, ?_, ?_⟩
  · rw [chain, hraw, UInt32.ofNat_toNat, List.append_assoc, ← htail, ← List.drop_drop,
      List.take_append_drop, putU32Le_at data (by omega)]
  · intro raw hmem
    rcases List.mem_cons.mp hmem with rfl | hmem
    · exact ⟨by omega, first, hparse⟩
    · exact hraws raw hmem
  · rw [List.length_cons]
    rcases hcount with ⟨hlast, hc⟩ | ⟨hlast, hc⟩
    · exact Or.inl ⟨hlast, by omega⟩
    · exact Or.inr ⟨hlast, by omega⟩

/-- What the first transaction accepts behind a next-entry offset of zero. -/
theorem ZeroEnded.of_zero {rounds : ℕ} {data : Bytes} {info : List DirInfo}
    (hlen : 4 ≤ data.length) (hz : (u32At data 0).toNat = 0)
    (h : SubReply.entries SubReply.FindFirst2.entrySize (rounds + 1) data = .ok info) :
    ZeroEnded data info.length := by
  have hzero : u32At data 0 = 0 := UInt32.toNat_inj.mp hz
  have hdata := putU32Le_at data hlen
  rw [hzero] at hdata
  have hfirst : SubReply.FindFirst2.entrySize (u32At data 0).toNat (data.length - 4) =
      some (data.length - 4) := by
    unfold SubReply.FindFirst2.entrySize
    rw [if_pos hz]
  by_cases hsize : data.length - 4 = 0
  · rw [entries_end hlen (hfirst.trans (congrArg some hsize))] at h
    rw [h]
    exact ⟨[], data.drop 4, hdata.symm, fun raw hm => absurd hm List.not_mem_nil,
      Or.inl ⟨List.drop_eq_nil_of_le (by omega), rfl⟩⟩
  · obtain ⟨_, first, rest, rfl, hparse, hrest⟩ := (entries_more hlen hfirst hsize).mp h
    rw [List.drop_eq_nil_of_le (by omega), entries_nil] at hrest
    cases hrest
    rw [List.take_of_length_le (by rw [List.length_drop])] at hparse
    exact ⟨[], data.drop 4, hdata.symm, fun raw hm => absurd hm List.not_mem_nil,
      Or.inr ⟨⟨first, hparse⟩, rfl⟩⟩

/-- What only the first transaction accepts ends with a next-entry offset of zero. -/
theorem entries_first_next (rounds : ℕ) (data : Bytes) (info : List DirInfo)
    (hr : data.length < rounds)
    (h : SubReply.entries SubReply.FindFirst2.entrySize rounds data = .ok info) :
    SubReply.entries SubReply.FindNext2.entrySize rounds data = .ok info ∨
      ZeroEnded data info.length := by
  induction rounds generalizing data info with
  | zero => omega
  | succ rounds ih =>
    by_cases h0 : data = []
    · subst h0
      rw [entries_nil] at h ⊢
      exact Or.inl h
    · by_cases hlen : 4 ≤ data.length
      · by_cases hn : 4 ≤ (u32At data 0).toNat
        · obtain ⟨hfirst, hnext⟩ := entrySize_ge (data.length - 4) hn
          by_cases hsize : (u32At data 0).toNat - 4 = 0
          · rw [hsize] at hfirst hnext
            rw [entries_end hlen hfirst] at h
            exact Or.inl ((entries_end hlen hnext).mpr h)
          · obtain ⟨hfit, first, rest, rfl, hparse, hrest⟩ := (entries_more hlen hfirst hsize).mp h
            rcases ih _ _ (by rw [List.length_drop]; omega) hrest with hrest' | hzero
            · exact Or.inl ((entries_more hlen hnext hsize).mpr
                ⟨hfit, first, rest, rfl, hparse, hrest'⟩)
            · exact Or.inr (hzero.cons hn hfit hparse)
        · by_cases hz : (u32At data 0).toNat = 0
          · exact Or.inr (.of_zero hlen hz h)
          · exact absurd h (entries_none hlen (entrySize_lt (by omega) hz))
      · exact absurd h (entries_short h0 (by omega))

theorem chain_first {raw : Bytes} (raws : List Bytes) (tail : Bytes) (hraw : IsEntry raw) :
    (u32At (chain (raw :: raws) tail) 0).toNat = raw.length + 4 ∧
      4 ≤ (chain (raw :: raws) tail).length ∧
      4 + raw.length ≤ (chain (raw :: raws) tail).length ∧
      ((chain (raw :: raws) tail).drop 4).take raw.length = raw ∧
      (chain (raw :: raws) tail).drop (4 + raw.length) = chain raws tail := by
  have h4 : (putU32Le (UInt32.ofNat (raw.length + 4))).length = 4 := leBytes_length 4 _
  have hdrop : (chain (raw :: raws) tail).drop 4 = raw ++ chain raws tail := by
    rw [chain, List.append_assoc]
    exact List.drop_left' h4
  have hlen : (chain (raw :: raws) tail).length = 4 + raw.length + (chain raws tail).length := by
    rw [chain, List.length_append, List.length_append, h4]
  refine ⟨?_, by omega, by omega, ?_, ?_⟩
  · rw [chain, List.append_assoc, u32At_put, UInt32.toNat_ofNat', Nat.mod_eq_of_lt hraw.1]
  · rw [hdrop, List.take_left]
  · rw [← List.drop_drop, hdrop, List.drop_left]

/-- A next-entry offset of zero is accepted by the first transaction only. -/
theorem zero_entries (rounds : ℕ) (last : Bytes) :
    (last = [] → SubReply.entries SubReply.FindFirst2.entrySize (rounds + 1) (putU32Le 0 ++ last) =
      .ok []) ∧
    (∀ info, DirInfo.parse last = .ok info →
      SubReply.entries SubReply.FindFirst2.entrySize (rounds + 1) (putU32Le 0 ++ last) =
        .ok [info]) ∧
    ∀ info, SubReply.entries SubReply.FindNext2.entrySize (rounds + 1) (putU32Le 0 ++ last) ≠
      .ok info := by
  have h4 : (putU32Le 0).length = 4 := leBytes_length 4 _
  have hlen : 4 ≤ (putU32Le 0 ++ last).length := by
    rw [List.length_append]
    omega
  have hzero : (u32At (putU32Le 0 ++ last) 0).toNat = 0 := by
    rw [u32At_put]
    rfl
  have hrest : (putU32Le 0 ++ last).length - 4 = last.length := by
    rw [List.length_append]
    omega
  have hfirst : SubReply.FindFirst2.entrySize (u32At (putU32Le 0 ++ last) 0).toNat
      ((putU32Le 0 ++ last).length - 4) = some last.length := by
    unfold SubReply.FindFirst2.entrySize
    rw [if_pos hzero, hrest]
  refine ⟨?_, ?_, fun info => entries_none hlen (entrySize_next_lt (by omega))⟩
  · rintro rfl
    exact (entries_end hlen hfirst).mpr rfl
  · intro info hparse
    have hpos := dirInfo_nonempty hparse
    refine (entries_more hlen hfirst (by omega)).mpr ⟨by omega, info, [], rfl, ?_, ?_⟩
    · rw [List.drop_left' h4, List.take_length]
      exact hparse
    · rw [List.drop_eq_nil_of_le (by omega), entries_nil]

/-- Data that ends with a next-entry offset of zero is accepted by the first transaction
only. -/
theorem zeroEnded_entries (rounds : ℕ) (data : Bytes) (count : ℕ) (hr : data.length < rounds)
    (h : ZeroEnded data count) :
    (∃ info, SubReply.entries SubReply.FindFirst2.entrySize rounds data = .ok info ∧
      info.length = count) ∧
    ∀ info, SubReply.entries SubReply.FindNext2.entrySize rounds data ≠ .ok info := by
  obtain ⟨raws, last, rfl, hraws, hcount⟩ := h
  induction raws generalizing rounds count with
  | nil =>
    obtain ⟨rounds, rfl⟩ := Nat.exists_eq_succ_of_ne_zero (show rounds ≠ 0 by omega)
    obtain ⟨hbare, hlast, hno⟩ := zero_entries rounds last
    refine ⟨?_, hno⟩
    rcases hcount with ⟨hnil, rfl⟩ | ⟨⟨info, hparse⟩, rfl⟩
    · exact ⟨[], hbare hnil, rfl⟩
    · exact ⟨[info], hlast info hparse, rfl⟩
  | cons raw raws ih =>
    obtain ⟨rounds, rfl⟩ := Nat.exists_eq_succ_of_ne_zero (show rounds ≠ 0 by omega)
    have hraw := hraws raw List.mem_cons_self
    obtain ⟨hsize, hlen, hfit, htake, hdrop⟩ :=
      chain_first raws (putU32Le 0 ++ last) hraw
    obtain ⟨info, hparse⟩ := hraw.2
    have hpos := dirInfo_nonempty hparse
    have h4 : 4 ≤ (u32At (chain (raw :: raws) (putU32Le 0 ++ last)) 0).toNat := by omega
    obtain ⟨hfirst, hnext⟩ :=
      entrySize_ge ((chain (raw :: raws) (putU32Le 0 ++ last)).length - 4) h4
    rw [hsize, Nat.add_sub_cancel] at hfirst hnext
    rw [← hsize] at hfirst hnext
    have hshort : (chain raws (putU32Le 0 ++ last)).length < rounds := by
      have := congrArg List.length hdrop
      rw [List.length_drop] at this
      omega
    have hcount' : (last = [] ∧ count - 1 = raws.length) ∨
        ((∃ info, DirInfo.parse last = .ok info) ∧ count - 1 = raws.length + 1) := by
      rw [List.length_cons] at hcount
      rcases hcount with ⟨hl, hc⟩ | ⟨hl, hc⟩
      · exact Or.inl ⟨hl, by omega⟩
      · exact Or.inr ⟨hl, by omega⟩
    obtain ⟨⟨infos, hinfos, hinfosLen⟩, hno⟩ := ih rounds (count - 1) hshort
      (fun r hm => hraws r (List.mem_cons_of_mem _ hm)) hcount'
    constructor
    · refine ⟨info :: infos, (entries_more hlen hfirst (by omega)).mpr
        ⟨hfit, info, infos, rfl, ?_, ?_⟩, ?_⟩
      · rw [htake]
        exact hparse
      · rw [hdrop]
        exact hinfos
      · rw [List.length_cons] at hcount ⊢
        omega
    · intro infos' h'
      obtain ⟨_, first, rest, _, _, hrest⟩ := (entries_more hlen hnext (by omega)).mp h'
      rw [hdrop] at hrest
      exact hno rest hrest

/-! ### Both parsers -/

def firstParameter (sid count finished : UInt16) (more : Bytes) : Bytes :=
  putU16Le sid ++ (putU16Le count ++ (putU16Le finished ++ more))

def nextParameter (count finished : UInt16) (more : Bytes) : Bytes :=
  putU16Le count ++ (putU16Le finished ++ more)

theorem firstParameter_fields (sid count finished : UInt16) (more : Bytes) :
    u16At (firstParameter sid count finished more) 0 = sid ∧
      u16At (firstParameter sid count finished more) 2 = count ∧
      u16At (firstParameter sid count finished more) 4 = finished ∧
      (firstParameter sid count finished more).length = 6 + more.length := by
  refine ⟨u16At_put [] sid _, u16At_put (putU16Le sid) count _, ?_, ?_⟩
  · rw [firstParameter, ← List.append_assoc]
    exact u16At_put (putU16Le sid ++ putU16Le count) finished more
  · simp only [firstParameter, List.length_append, putU16Le, leBytes_length]
    omega

theorem nextParameter_fields (count finished : UInt16) (more : Bytes) :
    u16At (nextParameter count finished more) 0 = count ∧
      u16At (nextParameter count finished more) 2 = finished ∧
      (nextParameter count finished more).length = 4 + more.length := by
  refine ⟨u16At_put [] count _, u16At_put (putU16Le count) finished more, ?_⟩
  simp only [nextParameter, List.length_append, putU16Le, leBytes_length]
  omega

/-- Both replies are accepted or neither is, with the same entries and the same end flag. -/
def ParseAgree (sid count finished : UInt16) (more more' data : Bytes) : Prop :=
  ((∃ r, SubReply.FindNext2.parse (nextParameter count finished more') data = .ok r) ↔
    ∃ r, SubReply.FindFirst2.parse (firstParameter sid count finished more) data = .ok r) ∧
  ∀ r r', SubReply.FindFirst2.parse (firstParameter sid count finished more) data = .ok r →
    SubReply.FindNext2.parse (nextParameter count finished more') data = .ok r' →
    r.info = r'.info ∧ r.finished = r'.finished

/-- The two parsers agree except on data that is accepted with a next-entry offset of zero at
its end. -/
theorem parse_agree_iff (sid count finished : UInt16) (more more' data : Bytes)
    (h : 4 ≤ more.length) :
    ParseAgree sid count finished more more' data ↔
      ¬(ZeroEnded data count.toNat ∧ (finished ≠ 0 ∨ count ≠ 0)) := by
  obtain ⟨hf0, hf2, hf4, hflen⟩ := firstParameter_fields sid count finished more
  obtain ⟨hn0, hn2, hnlen⟩ := nextParameter_fields count finished more'
  have hflag : ((finished != 0) = true ∨ count.toNat ≠ 0) ↔ (finished ≠ 0 ∨ count ≠ 0) := by
    have hcount : count.toNat ≠ 0 ↔ count ≠ 0 := not_congr (UInt16.toNat_inj (b := 0))
    rw [bne_iff_ne, hcount]
  unfold ParseAgree
  simp only [findFirst_parse, findNext_parse, hf0, hf2, hf4, hflen, hn0, hn2, hnlen]
  constructor
  · rintro ⟨hiff, _⟩ ⟨hzero, hmore⟩
    obtain ⟨⟨info, hfirst, hlen⟩, hnext⟩ := zeroEnded_entries _ data _ (Nat.lt_succ_self _) hzero
    obtain ⟨r, _, _, hentries, _⟩ := hiff.mpr ⟨⟨sid, finished != 0, info⟩, by omega, rfl, rfl, hfirst,
      hlen, hflag.mpr hmore⟩
    exact hnext _ hentries
  · intro hno
    refine ⟨⟨?_, ?_⟩, ?_⟩
    · rintro ⟨r, _, hfinished, hentries, hlen, hmore⟩
      exact ⟨⟨sid, r.finished, r.info⟩, by omega, rfl, hfinished, entries_next_first _ _ _ hentries,
        hlen, hmore⟩
    · rintro ⟨r, _, _, hfinished, hentries, hlen, hmore⟩
      rcases entries_first_next _ data r.info (Nat.lt_succ_self _) hentries with hnext | hzero
      · exact ⟨⟨r.finished, r.info⟩, by omega, hfinished, hnext, hlen, hmore⟩
      · rw [hlen] at hzero
        rw [hfinished] at hmore
        exact absurd ⟨hzero, hflag.mp hmore⟩ hno
    · rintro r r' ⟨_, _, hfinished, hentries, _⟩ ⟨_, hfinished', hentries', _⟩
      have hsame := entries_next_first _ _ _ hentries'
      rw [hentries] at hsame
      exact ⟨Except.ok.inj hsame, hfinished.trans hfinished'.symm⟩

/-- A directory entry with the name "a". -/
def entryA : Bytes := putBytes 0 56 ++ putU32Le 2 ++ [0x61, 0]

def infoA : DirInfo where
  creationTime := Utils.decodeWindowsTime 0
  accessTime := Utils.decodeWindowsTime 0
  writeTime := Utils.decodeWindowsTime 0
  changeTime := Utils.decodeWindowsTime 0
  filename := "a"
  filesize := 0
  attributes := 0

theorem parse_agree_two :
    ParseAgree 1 2 1 (putBytes 0 4) (putBytes 0 4) (chain [entryA, entryA] []) := by
  refine (parse_agree_iff 1 2 1 (putBytes 0 4) (putBytes 0 4) _ (by decide)).mpr fun h => ?_
  have hno := (zeroEnded_entries _ _ _ (Nat.lt_succ_self _) h.1).2
  exact hno [infoA, infoA] (by decide +kernel)

/-- The last entry of a directory, with the next-entry offset 0. -/
theorem parse_disagree_zero :
    ¬ParseAgree 1 1 1 (putBytes 0 4) (putBytes 0 4) (putU32Le 0 ++ entryA) := by
  intro h
  obtain ⟨r, hr⟩ := h.1.mpr ⟨_, by rfl⟩
  have hnext : SubReply.FindNext2.parse (nextParameter 1 1 (putBytes 0 4))
      (putU32Le 0 ++ entryA) = .error (.error .InvalidData) := by decide +kernel
  rw [hnext] at hr
  cases hr

end CifsClientStream.Smb
