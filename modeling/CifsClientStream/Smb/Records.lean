import CifsClientStream.Smb.OddName
import Mathlib.Data.List.Forall2

/-!
# Encoding a directory (src/smb/common.rs, src/smb/trans2/subreply/findfirst2.rs)

A server lists a directory as records that point to the next one, each with a
fixed part, a name and padding. `findFirst_restores` says that the parser gives
back one entry for each record, in their order.
-/

namespace CifsClientStream.Smb
open Cursor Utils Win

/-- What one record says, the two fields that the parser skips included. -/
structure Record where
  fileIndex : UInt32
  creationTime : UInt64
  accessTime : UInt64
  writeTime : UInt64
  changeTime : UInt64
  filesize : UInt64
  allocationSize : UInt64
  attributes : UInt32
  filename : String
  padding : Bytes
  named : (encodeUtf16Le filename).length < 2 ^ 32

namespace Record

def raw (r : Record) : Bytes :=
  putU32Le r.fileIndex ++ putU64Le r.creationTime ++ putU64Le r.accessTime ++
    putU64Le r.writeTime ++ putU64Le r.changeTime ++ putU64Le r.filesize ++
    putU64Le r.allocationSize ++ putU32Le r.attributes ++
    putU32Le (UInt32.ofNat (encodeUtf16Le r.filename).length) ++
    (encodeUtf16Le r.filename ++ r.padding)

/-- The total size, the offset in front included. -/
def size (r : Record) : ℕ := r.raw.length + 4

def info (r : Record) : DirInfo where
  creationTime := decodeWindowsTime r.creationTime
  accessTime := decodeWindowsTime r.accessTime
  writeTime := decodeWindowsTime r.writeTime
  changeTime := decodeWindowsTime r.changeTime
  filename := r.filename
  filesize := r.filesize
  attributes := r.attributes &&& ExtFileAttr.all

theorem raw_length (r : Record) :
    r.raw.length = 60 + (encodeUtf16Le r.filename).length + r.padding.length := by
  simp only [raw, List.length_append, putU32Le, putU64Le, leBytes_length]
  omega

theorem raw_fields (r : Record) :
    DirInfo.fields r.raw = .ok (({ r.info with filename := "" }, (encodeUtf16Le r.filename).length),
      encodeUtf16Le r.filename ++ r.padding) := by
  have hname : (UInt32.ofNat (encodeUtf16Le r.filename).length).toNat =
      (encodeUtf16Le r.filename).length := by
    rw [UInt32.toNat_ofNat', Nat.mod_eq_of_lt r.named]
  rw [DirInfo.fields, raw]
  simp only [List.append_assoc]
  rw [advance_bind (putU32Le r.fileIndex) _ 4 _ (leBytes_length 4 _), getU64Le_bind, getU64Le_bind,
    getU64Le_bind, getU64Le_bind, getU64Le_bind,
    advance_bind (putU64Le r.allocationSize) _ 8 _ (leBytes_length 8 _), getU32Le_bind,
    getU32Le_bind, hname]
  rfl

/-- The parser gives back what the record says. -/
theorem parse_raw (r : Record) : DirInfo.parse r.raw = .ok r.info := by
  have hlen := r.raw_length
  have hlong : ¬(encodeUtf16Le r.filename ++ r.padding).length <
      (encodeUtf16Le r.filename).length := by
    rw [List.length_append]
    omega
  unfold DirInfo.parse
  rw [if_neg (by omega), r.raw_fields]
  refine (if_neg hlong).trans ?_
  rw [copyToBytes_append _ _ _ rfl]
  change (liftUtf16 (decodeUtf16Le (encodeUtf16Le r.filename)) >>= _) = _
  rw [decodeUtf16Le_encode]
  change Except.ok { r.info with filename := String.ofList r.filename.toList } = _
  rw [String.ofList_toList]
  rfl

end Record

/-! ### The list of records -/

/-- `data` is the encoding of the records. The last one has the offset 0 or, as the others, its
own size. -/
inductive Encoding : List Record → Bytes → Prop where
  | zero (r : Record) : Encoding [r] (putU32Le 0 ++ r.raw)
  | last (r : Record) (h : r.size < 2 ^ 32) : Encoding [r] (putU32Le (UInt32.ofNat r.size) ++ r.raw)
  | more (r : Record) {rest : List Record} {data : Bytes} (h : r.size < 2 ^ 32)
      (hrest : Encoding rest data) :
      Encoding (r :: rest) (putU32Le (UInt32.ofNat r.size) ++ (r.raw ++ data))

theorem cut_size (r : Record) (rest : Bytes) (h : r.size < 2 ^ 32) :
    cut SubReply.FindFirst2.entrySize (putU32Le (UInt32.ofNat r.size) ++ (r.raw ++ rest)) =
      some (r.raw, rest) := by
  have hraw := r.raw_length
  have h4 : (putU32Le (UInt32.ofNat r.size)).length = 4 := leBytes_length 4 _
  have hlen : (putU32Le (UInt32.ofNat r.size) ++ (r.raw ++ rest)).length =
      4 + (r.raw.length + rest.length) := by
    rw [List.length_append, List.length_append, h4]
  have hoffset : (u32At (putU32Le (UInt32.ofNat r.size) ++ (r.raw ++ rest)) 0).toNat = r.size := by
    rw [u32At_put, UInt32.toNat_ofNat', Nat.mod_eq_of_lt h]
  have hsize : r.size - 4 = r.raw.length := Nat.add_sub_cancel ..
  have hentry := (entrySize_ge (n := r.size)
    ((putU32Le (UInt32.ofNat r.size) ++ (r.raw ++ rest)).length - 4) (Nat.le_add_left 4 _)).1
  unfold cut
  rw [if_neg (by omega), hoffset, hentry, hsize]
  dsimp only
  rw [if_neg (by omega), ← List.drop_drop, List.drop_left' h4, List.take_left, List.drop_left]

theorem cut_zero (r : Record) :
    cut SubReply.FindFirst2.entrySize (putU32Le 0 ++ r.raw) = some (r.raw, []) := by
  have hraw := r.raw_length
  have h4 : (putU32Le 0).length = 4 := leBytes_length 4 _
  have hlen : (putU32Le 0 ++ r.raw).length = 4 + r.raw.length := by
    rw [List.length_append, h4]
  have hoffset : (u32At (putU32Le 0 ++ r.raw) 0).toNat = 0 := by
    rw [u32At_put]
    rfl
  have hentry : SubReply.FindFirst2.entrySize 0 ((putU32Le 0 ++ r.raw).length - 4) =
      some r.raw.length := by
    rw [hlen, Nat.add_sub_cancel_left]
    rfl
  unfold cut
  rw [if_neg (by omega), hoffset, hentry]
  dsimp only
  rw [if_neg (by omega), List.drop_left' h4, List.take_length,
    List.drop_eq_nil_of_le (by omega)]

theorem entries_record {rounds : ℕ} {data rest : Bytes} {infos : List DirInfo} (r : Record)
    (hcut : cut SubReply.FindFirst2.entrySize data = some (r.raw, rest))
    (h : SubReply.entries SubReply.FindFirst2.entrySize rounds rest = .ok infos) :
    SubReply.entries SubReply.FindFirst2.entrySize (rounds + 1) data = .ok (r.info :: infos) := by
  rw [entries_cut rounds hcut, r.parse_raw]
  change (SubReply.entries SubReply.FindFirst2.entrySize rounds rest >>= _) = _
  rw [h]
  rfl

/-- The loop takes the records one after the other and ends behind the last. -/
theorem entries_encoding {records : List Record} {data : Bytes} (h : Encoding records data)
    (rounds : ℕ) (hrounds : data.length < rounds) :
    SubReply.entries SubReply.FindFirst2.entrySize rounds data = .ok (records.map Record.info) := by
  induction h generalizing rounds with
  | zero r =>
    obtain ⟨rounds, rfl⟩ := Nat.exists_eq_succ_of_ne_zero (show rounds ≠ 0 by omega)
    exact entries_record r (cut_zero r) (entries_nil _ _)
  | last r hsize =>
    obtain ⟨rounds, rfl⟩ := Nat.exists_eq_succ_of_ne_zero (show rounds ≠ 0 by omega)
    have hcut := cut_size r [] hsize
    rw [List.append_nil] at hcut
    exact entries_record r hcut (entries_nil _ _)
  | @more r rest data hsize hrest ih =>
    obtain ⟨rounds, rfl⟩ := Nat.exists_eq_succ_of_ne_zero (show rounds ≠ 0 by omega)
    have hcut := cut_size r data hsize
    have hshort := cut_rest hcut
    exact entries_record r hcut (ih rounds (by omega))

/-! ### The round trip -/

/-- The microseconds of a timestamp in steps of 100 nanoseconds. -/
def Truncated (time : UInt64) (microseconds : ℕ) : Prop :=
  10 * microseconds ≤ time.toNat ∧ time.toNat < 10 * (microseconds + 1)

structure Restores (r : Record) (info : DirInfo) : Prop where
  filename : info.filename = r.filename
  filesize : info.filesize = r.filesize
  attributes : info.attributes = r.attributes &&& ExtFileAttr.all
  creationTime : Truncated r.creationTime info.creationTime
  accessTime : Truncated r.accessTime info.accessTime
  writeTime : Truncated r.writeTime info.writeTime
  changeTime : Truncated r.changeTime info.changeTime

theorem truncated_decode (time : UInt64) : Truncated time (decodeWindowsTime time) := by
  unfold Truncated decodeWindowsTime
  omega

theorem restores_info (r : Record) : Restores r r.info where
  filename := rfl
  filesize := rfl
  attributes := rfl
  creationTime := truncated_decode _
  accessTime := truncated_decode _
  writeTime := truncated_decode _
  changeTime := truncated_decode _

theorem Encoding.nonempty {records : List Record} {data : Bytes} (h : Encoding records data) :
    records.length ≠ 0 := by
  cases h with
  | zero r => exact Nat.one_ne_zero
  | last r _ => exact Nat.one_ne_zero
  | more r _ _ => exact Nat.succ_ne_zero _

/-- Decoding inverts encoding: with their number in the parameters, the records are parsed to
one entry each, in their order. -/
theorem findFirst_restores (records : List Record) (data parameter : Bytes)
    (h : Encoding records data) (hlen : 10 ≤ parameter.length)
    (hcount : (u16At parameter 2).toNat = records.length) :
    ∃ reply, SubReply.FindFirst2.parse parameter data = .ok reply ∧
      List.Forall₂ Restores records reply.info := by
  have hentries := entries_encoding h (data.length + 1) (Nat.lt_succ_self _)
  refine ⟨⟨u16At parameter 0, u16At parameter 4 != 0, records.map Record.info⟩, ?_, ?_⟩
  · rw [findFirst_parse]
    refine ⟨hlen, rfl, rfl, hentries, ?_, Or.inr ?_⟩
    · rw [List.length_map, hcount]
    · rw [hcount]
      exact h.nonempty
  · rw [List.forall₂_map_right_iff, List.forall₂_same]
    exact fun r _ => restores_info r

/-- A name outside the basic plane, and padding behind it. -/
def clef : Record where
  fileIndex := 0
  creationTime := 19
  accessTime := 0
  writeTime := 0
  changeTime := 0
  filesize := 1099511627776
  allocationSize := 0
  attributes := 0x20
  filename := "𝄞"
  padding := [0, 0, 0, 0]
  named := by decide

theorem findFirst_restores_two :
    ∃ reply, SubReply.FindFirst2.parse (firstParameter 1 2 1 (putBytes 0 4))
      (putU32Le (UInt32.ofNat clef.size) ++ (clef.raw ++ (putU32Le 0 ++ clef.raw))) = .ok reply ∧
      List.Forall₂ Restores [clef, clef] reply.info :=
  findFirst_restores [clef, clef] _ _ (.more clef (by decide) (.zero clef)) (by decide) (by decide)

end CifsClientStream.Smb
