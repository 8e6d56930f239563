import CifsClientStream.Smb.Layout
import CifsClientStream.Smb.Msg
import CifsClientStream.Utf16.Terminated

/-!
# The reply to a tree connect (src/smb/reply.rs)

A server pads by the place of the file system name in the frame, the parser
skips a byte by the parity of the service name. Data always start at an odd
offset, so the two agree.
-/

namespace CifsClientStream.Smb
open Cursor Win Utils

/-- A reply as a server writes it: what follows the 0xff of the AndX block, the other
parameters, the two names, the byte it pads with, and what stands behind the names. -/
structure TreeConnectReply where
  chain : Bytes
  parameter : Bytes
  service : String
  filesystem : String
  pad : UInt8
  more : Bytes
  chain_length : chain.length = 3
  support : 2 ≤ parameter.length
  whole_words : parameter.length % 2 = 0
  word_count : 4 + parameter.length < 512
  service_nulFree : '\x00' ∉ service.toList
  filesystem_nulFree : '\x00' ∉ filesystem.toList

namespace TreeConnectReply

def words (r : TreeConnectReply) : Bytes := 0xff :: r.chain ++ r.parameter

/-- Where the data start in the frame: behind the header and two counts. -/
def dataStart (r : TreeConnectReply) : ℕ := SMB_HEADER_LEN + 1 + r.words.length + 2

/-- One byte if the name behind the service and its zero would start at an odd offset. -/
def padding (r : TreeConnectReply) (unicode : Bool) : Bytes :=
  if unicode ∧ (r.dataStart + (asBytes r.service).length + 1) % 2 = 1 then [r.pad] else []

def name (r : TreeConnectReply) (unicode : Bool) : Bytes :=
  if unicode then encodeUtf16Le0 r.filesystem else asBytes r.filesystem ++ [0]

def data (r : TreeConnectReply) (unicode : Bool) : Bytes :=
  asBytes r.service ++ 0 :: (r.padding unicode ++ (r.name unicode ++ r.more))

def body (r : TreeConnectReply) (unicode : Bool) (rest : Bytes) : Bytes :=
  framed r.words (r.data unicode) rest

/-- The field at `offset` of the parameters, if they reach so far. -/
def rights (r : TreeConnectReply) (offset : ℕ) : Option UInt32 :=
  if offset + 4 ≤ r.parameter.length then some (u32At r.parameter offset &&& DirAccessMask.all)
  else none

variable (r : TreeConnectReply)

theorem words_length : r.words.length = 4 + r.parameter.length := by
  rw [words, List.length_append, List.length_cons, r.chain_length]

/-- The data start at an odd offset, whatever the number of words is. -/
theorem dataStart_odd : r.dataStart % 2 = 1 := by
  have heven := r.whole_words
  have hheader : SMB_HEADER_LEN = 32 := rfl
  rw [dataStart, words_length, hheader]
  omega

theorem padding_unicode :
    r.padding true = if (asBytes r.service).length % 2 = 1 then [r.pad] else [] := by
  have hodd := r.dataStart_odd
  have hparity : (r.dataStart + (asBytes r.service).length + 1) % 2 = 1 ↔
      (asBytes r.service).length % 2 = 1 := by omega
  simp only [padding, hparity, true_and]

theorem padding_single : r.padding false = [] := by
  simp only [padding, Bool.false_eq_true, false_and, if_false]

/-- The padding does what it is for: the UTF-16 name starts at an even offset of the frame. -/
theorem name_even (header rest : Bytes) (hheader : header.length = SMB_HEADER_LEN) :
    ∃ front, header ++ r.body true rest = front ++ (r.name true ++ (r.more ++ rest)) ∧
      front.length % 2 = 0 := by
  refine ⟨header ++ (putU8 (UInt8.ofNat (r.words.length / 2)) ++ (r.words ++
    (putU16Le (UInt16.ofNat (r.data true).length) ++ (asBytes r.service ++ 0 :: r.padding true)))),
    ?_, ?_⟩
  · simp only [body, framed, data, List.append_assoc, List.cons_append]
  · have hstart := r.dataStart_odd
    have hcount : (putU8 (UInt8.ofNat (r.words.length / 2))).length = 1 := rfl
    have hbytes : (putU16Le (UInt16.ofNat (r.data true).length)).length = 2 := leBytes_length 2 _
    unfold dataStart at hstart
    rw [padding_unicode]
    simp only [List.length_append, List.length_cons, hcount, hbytes, hheader]
    split
    · rw [List.length_singleton]
      omega
    · rw [List.length_nil]
      omega

/-! ### The parameters -/

theorem rights_read (offset : ℕ) :
    Share.rights (r.parameter.drop offset) = .ok (r.rights offset,
      if offset + 4 ≤ r.parameter.length then r.parameter.drop (offset + 4)
      else r.parameter.drop offset) := by
  rw [share_rights, List.length_drop, List.drop_drop]
  by_cases hfour : offset + 4 ≤ r.parameter.length
  · have hremaining : 4 ≤ r.parameter.length - offset := by omega
    rw [if_pos hremaining, rights, if_pos hfour, if_pos hfour]
    rfl
  · have hremaining : ¬4 ≤ r.parameter.length - offset := by omega
    rw [if_neg hremaining, rights, if_neg hfour, if_neg hfour]

theorem parameters_read :
    ∃ rest, Share.parameters r.parameter = .ok ((r.rights 2, r.rights 6), rest) := by
  have hfirst := r.rights_read 2
  rw [Share.parameters, advance_first _ 2 _ r.support, bind_apply, hfirst]
  dsimp only
  by_cases h : 2 + 4 ≤ r.parameter.length
  · have hsecond := r.rights_read 6
    rw [if_pos h, bind_apply, hsecond]
    exact ⟨_, rfl⟩
  · have hnone : r.rights 2 = none := by rw [rights, if_neg h]
    have hnone' : r.rights 6 = none := by rw [rights, if_neg (by omega)]
    rw [if_neg h, bind_apply, hfirst, hnone, hnone']
    exact ⟨_, rfl⟩

/-! ### The names -/

theorem parseStr0_asBytes {s : String} (h : '\x00' ∉ s.toList) (rest : Bytes) :
    parseStr0 (asBytes s ++ 0 :: rest) = .ok (s, rest) := by
  have hzero : 0 ∉ asBytes s := fun hmem => h ((zero_mem_asBytes s).mp hmem)
  have hsplit := (splitNul_eq_some _ (asBytes s) rest).mpr ⟨rfl, hzero⟩
  simp only [parseStr0, hsplit, fromUtf8_asBytes]

theorem filesystem_read (unicode : Bool) :
    Share.filesystemName unicode r.service (r.padding unicode ++ (r.name unicode ++ r.more)) =
      .ok (r.filesystem, r.more) := by
  have hlen := fromUtf8_len (asBytes r.service) r.service (fromUtf8_asBytes r.service)
  cases unicode with
  | false =>
    have hname := parseStr0_asBytes r.filesystem_nulFree r.more
    rw [padding_single]
    simp only [Share.filesystemName, name, Bool.false_eq_true, if_false, List.nil_append,
      List.append_assoc, List.singleton_append, hname]
    rfl
  | true =>
    have hname := parseUtf16Le0_encode r.filesystem_nulFree r.more
    rw [padding_unicode]
    simp only [Share.filesystemName, name, if_true, hlen]
    by_cases hodd : (asBytes r.service).length % 2 = 1
    · have hskip : advance (ε := Error) 1 ([r.pad] ++ (encodeUtf16Le0 r.filesystem ++ r.more)) =
          .ok ((), encodeUtf16Le0 r.filesystem ++ r.more) := rfl
      rw [if_pos hodd, if_pos hodd, hskip]
      exact congrArg liftStr hname
    · rw [if_neg hodd, if_neg hodd, List.nil_append, hname]
      rfl

/-! ### The whole reply -/

theorem andx_read : Reply.stripAndX true r.words = .ok r.parameter := by
  have hlen := r.words_length
  have hfirst : u8At r.words 0 = 0xff := rfl
  have hfront : (0xff :: r.chain).length = 4 := by rw [List.length_cons, r.chain_length]
  have hparameter : r.words.drop 4 = r.parameter := List.drop_left' hfront
  unfold Reply.stripAndX
  rw [if_pos rfl, andx_eq r.words (by omega), if_pos hfirst, hparameter]
  rfl

/-- What the client makes of the reply. -/
def share (info : Info) : Share where
  accessRights := r.rights 2
  guestRights := r.rights 6
  service := r.service
  filesystem := r.filesystem
  tid := info.tid

theorem create_read (info : Info) (dataOffset : ℕ) :
    Share.create { info, parameter := r.parameter,
                   data := r.data (contains info.flags2 Flags2.UNICODE), dataOffset } =
      .ok (r.share info) := by
  obtain ⟨behind, hparameters⟩ := r.parameters_read
  have hservice := parseStr0_asBytes r.service_nulFree
    (r.padding (contains info.flags2 Flags2.UNICODE) ++
      (r.name (contains info.flags2 Flags2.UNICODE) ++ r.more))
  have hfilesystem := r.filesystem_read (contains info.flags2 Flags2.UNICODE)
  unfold Share.create data
  rw [hparameters, hservice]
  change (Share.filesystemName _ _ _ >>= _) = _
  rw [hfilesystem]
  rfl

theorem parse_body (info : Info) (rest : Bytes)
    (hdata : (r.data (contains info.flags2 Flags2.UNICODE)).length < 65536) :
    Reply.parse Share info (r.body (contains info.flags2 Flags2.UNICODE) rest) =
      .ok (r.share info) := by
  have hlen := r.words_length
  have hwhole := r.whole_words
  have hcount := r.word_count
  have hsections := sections_framed r.words _ rest (by omega) (by omega) hdata
  unfold Reply.parse body
  rw [hsections]
  change (Reply.stripAndX true r.words >>= _) = _
  rw [andx_read]
  exact r.create_read info _

end TreeConnectReply

/-- The client reads from an aligned reply what the server wrote into it, and the name of the
file system stands at an even offset in the UTF-16 one. The byte count of a frame is a 16-bit
field, so a server writes no longer data. -/
theorem share_aligned (r : TreeConnectReply) (info : Info) (rest : Bytes)
    (hdata : (r.data (contains info.flags2 Flags2.UNICODE)).length < 65536) :
    (Reply.parse Share info (r.body (contains info.flags2 Flags2.UNICODE) rest) =
      .ok { accessRights := r.rights 2, guestRights := r.rights 6, service := r.service,
            filesystem := r.filesystem, tid := info.tid }) ∧
    (contains info.flags2 Flags2.UNICODE = true → ∀ header : Bytes,
      header.length = SMB_HEADER_LEN → ∃ front,
        header ++ r.body (contains info.flags2 Flags2.UNICODE) rest =
          front ++ (encodeUtf16Le0 r.filesystem ++ (r.more ++ rest)) ∧
        front.length % 2 = 0) := by
  constructor
  · exact r.parse_body info rest hdata
  · intro hunicode header hheader
    rw [hunicode]
    exact r.name_even header rest hheader

/-- Five words with one field of rights, and a service name of odd length. -/
def ipcReply : TreeConnectReply where
  chain := [0, 0, 0]
  parameter := putU16Le 1 ++ putU32Le 0x1ff
  service := "IPC"
  filesystem := "NTFS"
  pad := 0
  more := []
  chain_length := rfl
  support := by decide
  whole_words := by decide
  word_count := by decide
  service_nulFree := by decide
  filesystem_nulFree := by decide

theorem share_aligned_ipc :
    Reply.parse Share { Info.default .TreeConnect with flags2 := Flags2.UNICODE, tid := 3 }
        (ipcReply.body true []) =
      .ok { accessRights := some 0x1ff, guestRights := none, service := "IPC",
            filesystem := "NTFS", tid := 3 } := by
  have hunicode : contains Flags2.UNICODE Flags2.UNICODE = true := by decide
  have haccess : ipcReply.rights 2 = some 0x1ff := by decide +kernel
  have hguest : ipcReply.rights 6 = none := by decide +kernel
  have h := share_aligned ipcReply
    { Info.default .TreeConnect with flags2 := Flags2.UNICODE, tid := 3 } []
    (by simp only [hunicode]; decide +kernel)
  simp only [hunicode, haccess, hguest] at h
  exact h.1

end CifsClientStream.Smb
