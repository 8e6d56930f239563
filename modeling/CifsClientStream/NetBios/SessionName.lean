import CifsClientStream.NetBios.Frame
import CifsClientStream.Smb.Msg

/-!
# NetBIOS names and the session request (src/utils.rs, src/netbios.rs)

A name goes into the request as its first sixteen ASCII characters, padded
with spaces, each written as two letters of 'A' to 'P'. So a request has the
68 bytes that `Frame::encode` asks for, whatever the two names are.
-/

namespace CifsClientStream.NetBios
open Cursor Async Utils Smb

def isAscii (c : Char) : Bool := decide (c.toNat < 128)

/-- The two letters of a character. -/
def nibbles (c : Char) : List Char :=
  [Char.ofNat (65 + c.toNat / 16), Char.ofNat (65 + c.toNat % 16)]

/-- Sixteen spaces are enough of the endless ones: only sixteen characters are taken. -/
def encodeNetbiosName (name : String) : String :=
  String.ofList
    (((name.toList.filter isAscii ++ List.replicate 16 ' ').take 16).flatMap nibbles)

/-- The message that `create_session` builds. -/
def sessionRequest (dst src : String) : Bytes :=
  putU8 0x20 ++ asBytes (encodeNetbiosName dst) ++ putU8 0x00 ++
    putU8 0x20 ++ asBytes (encodeNetbiosName src) ++ putU8 0x00

def createSession (dst src : String) : Fut Error TcpStream Unit := do
  send (.SessionRequest (sessionRequest dst src))
  match ← recv with
  | .PositiveResponse => pure ()
  | .NegativeResponse code => raise (.CreateSession code)
  | _ => raise .InvalidFrame

/-! ### Letters and nibbles -/

theorem toNat_letter {n : ℕ} (h : n < 16) : (Char.ofNat (65 + n)).toNat = 65 + n := by
  have hall : ∀ k : Fin 16, (Char.ofNat (65 + k.val)).toNat = 65 + k.val := by decide
  exact hall ⟨n, h⟩

theorem nibbles_letters {c letter : Char} (h : c.toNat < 128) (hmem : letter ∈ nibbles c) :
    65 ≤ letter.toNat ∧ letter.toNat ≤ 80 := by
  have hhigh : c.toNat / 16 < 16 := by omega
  have hlow : c.toNat % 16 < 16 := Nat.mod_lt _ (by decide)
  simp only [nibbles, List.mem_cons, List.not_mem_nil, or_false] at hmem
  rcases hmem with rfl | rfl
  · rw [toNat_letter hhigh]
    omega
  · rw [toNat_letter hlow]
    omega

/-- Reads letters as nibbles and joins them two by two. -/
def readNibbles : List Char → List Char
  | high :: low :: rest =>
    Char.ofNat ((high.toNat - 65) * 16 + (low.toNat - 65)) :: readNibbles rest
  | _ => []

theorem readNibbles_nibbles {c : Char} (h : c.toNat < 128) (rest : List Char) :
    readNibbles (nibbles c ++ rest) = c :: readNibbles rest := by
  have hhigh : c.toNat / 16 < 16 := by omega
  have hlow : c.toNat % 16 < 16 := Nat.mod_lt _ (by decide)
  have hjoin : (65 + c.toNat / 16 - 65) * 16 + (65 + c.toNat % 16 - 65) = c.toNat := by omega
  simp only [nibbles, List.cons_append, List.nil_append, readNibbles, toNat_letter hhigh,
    toNat_letter hlow, hjoin, Char.ofNat_toNat]

theorem readNibbles_flatMap {cs : List Char} (h : ∀ c ∈ cs, c.toNat < 128) :
    readNibbles (cs.flatMap nibbles) = cs := by
  induction cs with
  | nil => rfl
  | cons c cs ih =>
    have hrest := ih fun d hd => h d (List.mem_cons_of_mem _ hd)
    rw [List.flatMap_cons, readNibbles_nibbles (h c List.mem_cons_self), hrest]

theorem flatMap_nibbles_length (cs : List Char) : (cs.flatMap nibbles).length = 2 * cs.length := by
  induction cs with
  | nil => rfl
  | cons c cs ih =>
    have hc : (nibbles c).length = 2 := rfl
    rw [List.flatMap_cons, List.length_append, hc, ih, List.length_cons]
    omega

/-! ### The sixteen characters -/

/-- The first sixteen ASCII characters of the name, padded with spaces. -/
def sixteen (name : String) : List Char :=
  (name.toList.filter isAscii).take 16 ++
    List.replicate (16 - (name.toList.filter isAscii).length) ' '

theorem take_padded (cs : List Char) :
    (cs ++ List.replicate 16 ' ').take 16 = cs.take 16 ++ List.replicate (16 - cs.length) ' ' := by
  have hmin : min (16 - cs.length) 16 = 16 - cs.length := by omega
  rw [List.take_append, List.take_replicate, hmin]

theorem toList_encodeNetbiosName (name : String) :
    (encodeNetbiosName name).toList = (sixteen name).flatMap nibbles := by
  rw [encodeNetbiosName, String.toList_ofList, take_padded]
  rfl

theorem sixteen_length (name : String) : (sixteen name).length = 16 := by
  simp only [sixteen, List.length_append, List.length_take, List.length_replicate]
  omega

theorem sixteen_ascii (name : String) : ∀ c ∈ sixteen name, c.toNat < 128 := by
  intro c hc
  rcases List.mem_append.mp hc with hname | hpad
  · have hfilter := (List.mem_filter.mp (List.mem_of_mem_take hname)).2
    exact of_decide_eq_true hfilter
  · rw [List.eq_of_mem_replicate hpad]
    decide

theorem sixteen_getElem? (name : String) {i : ℕ} (h : i < 16) :
    (sixteen name)[i]? = some ((name.toList.filter isAscii)[i]?.getD ' ') := by
  unfold sixteen
  by_cases hi : i < (name.toList.filter isAscii).length
  · have hlt : i < ((name.toList.filter isAscii).take 16).length := by
      rw [List.length_take]
      omega
    rw [List.getElem?_append_left hlt, List.getElem?_take_of_lt h, List.getElem?_eq_getElem hi]
    rfl
  · have hall : (name.toList.filter isAscii).take 16 = name.toList.filter isAscii :=
      List.take_of_length_le (by omega)
    have hpad : i - (name.toList.filter isAscii).length <
        16 - (name.toList.filter isAscii).length := by omega
    rw [hall, List.getElem?_append_right (Nat.not_lt.mp hi), List.getElem?_replicate, if_pos hpad,
      List.getElem?_eq_none (Nat.not_lt.mp hi)]
    rfl

theorem readNibbles_encode (name : String) :
    readNibbles (encodeNetbiosName name).toList = sixteen name := by
  rw [toList_encodeNetbiosName]
  exact readNibbles_flatMap (sixteen_ascii name)

theorem encodeNetbiosName_letters (name : String) :
    (encodeNetbiosName name).toList.length = 32 ∧
      ∀ c ∈ (encodeNetbiosName name).toList, 65 ≤ c.toNat ∧ c.toNat ≤ 80 := by
  rw [toList_encodeNetbiosName]
  constructor
  · rw [flatMap_nibbles_length, sixteen_length]
  · intro letter hletter
    obtain ⟨c, hc, hnibble⟩ := List.mem_flatMap.mp hletter
    exact nibbles_letters (sixteen_ascii name c hc) hnibble

theorem encodeNetbiosName_eq_iff (a b : String) :
    encodeNetbiosName a = encodeNetbiosName b ↔
      ∀ i < 16, (a.toList.filter isAscii)[i]?.getD ' ' = (b.toList.filter isAscii)[i]?.getD ' ' := by
  constructor
  · intro heq i hi
    have hsame : sixteen a = sixteen b := by
      rw [← readNibbles_encode, ← readNibbles_encode, heq]
    have hget := sixteen_getElem? a hi
    rw [hsame, sixteen_getElem? b hi] at hget
    exact (Option.some.inj hget).symm
  · intro hagree
    have hsame : sixteen a = sixteen b := by
      apply List.ext_getElem?
      intro i
      by_cases hi : i < 16
      · rw [sixteen_getElem? a hi, sixteen_getElem? b hi, hagree i hi]
      · rw [List.getElem?_eq_none, List.getElem?_eq_none]
        · rw [sixteen_length]
          omega
        · rw [sixteen_length]
          omega
    apply String.toList_inj.mp
    rw [toList_encodeNetbiosName, toList_encodeNetbiosName, hsame]

/-! ### The request -/

theorem asBytes_ascii_length {s : String} (h : ∀ c ∈ s.toList, c.toNat < 128) :
    (asBytes s).length = s.toList.length := by
  rw [asBytes_eq]
  generalize s.toList = cs at h
  induction cs with
  | nil => rfl
  | cons c cs ih =>
    have hc := (utf8_single c).mpr (h c List.mem_cons_self)
    have hrest := ih fun d hd => h d (List.mem_cons_of_mem _ hd)
    rw [List.flatMap_cons, List.length_append, hc, hrest, List.length_cons]
    omega

theorem asBytes_encodeNetbiosName_length (name : String) :
    (asBytes (encodeNetbiosName name)).length = 32 := by
  obtain ⟨hlen, hletters⟩ := encodeNetbiosName_letters name
  rw [asBytes_ascii_length, hlen]
  intro c hc
  have := hletters c hc
  omega

theorem sessionRequest_length (dst src : String) : (sessionRequest dst src).length = 68 := by
  have hbyte : ∀ n : UInt8, (putU8 n).length = 1 := fun n => rfl
  simp only [sessionRequest, List.length_append, hbyte, asBytes_encodeNetbiosName_length]

theorem encode_sessionRequest (dst src : String) :
    (Frame.SessionRequest (sessionRequest dst src)).encode =
      .ok (FrameType.SessionRequest.code :: be3 68 ++ sessionRequest dst src) := by
  have hlen := sessionRequest_length dst src
  have hfits : ¬(sessionRequest dst src).length ≠ 68 := fun h => h hlen
  simp only [Frame.encode]
  rw [if_neg hfits, hlen]

/-- Names of any text make a request that is always sent, in letters that say which
sixteen characters they stand for. -/
theorem netbios_names :
    (∀ name : String, (encodeNetbiosName name).toList.length = 32 ∧
      (∀ c ∈ (encodeNetbiosName name).toList, 'A' ≤ c ∧ c ≤ 'P') ∧
      readNibbles (encodeNetbiosName name).toList =
        (name.toList.filter isAscii).take 16 ++
          List.replicate (16 - (name.toList.filter isAscii).length) ' ') ∧
    (∀ dst src : String, (sessionRequest dst src).length = 68 ∧
      (∃ out, (Frame.SessionRequest (sessionRequest dst src)).encode = .ok out) ∧
      createSession dst src = (do
        writeExactly (FrameType.SessionRequest.code :: be3 68 ++ sessionRequest dst src)
        match ← recv with
        | .PositiveResponse => pure ()
        | .NegativeResponse code => raise (.CreateSession code)
        | _ => raise .InvalidFrame)) ∧
    ∀ a b : String, encodeNetbiosName a = encodeNetbiosName b ↔
      ∀ i < 16, (a.toList.filter isAscii)[i]?.getD ' ' = (b.toList.filter isAscii)[i]?.getD ' ' := by
  refine ⟨?_, ?_, encodeNetbiosName_eq_iff⟩
  · intro name
    obtain ⟨hlen, hletters⟩ := encodeNetbiosName_letters name
    refine ⟨hlen, ?_, readNibbles_encode name⟩
    intro c hc
    exact hletters c hc
  · intro dst src
    refine ⟨sessionRequest_length dst src, ⟨_, encode_sessionRequest dst src⟩, ?_⟩
    unfold createSession send
    rw [encode_sessionRequest]
    rfl

end CifsClientStream.NetBios
