import CifsClientStream.Smb.Layout

/-!
# The reply to a read (`Read::create` of src/smb/reply.rs)

The reply says how long its payload is and where it starts; the parser looks
at the length only. One byte more than announced is taken for padding, and
everything else is refused, so the payload is always the end of the data.
-/

namespace CifsClientStream.Smb
open Cursor Win

theorem u16At_drop (b : Bytes) (k i : ℕ) : u16At (b.drop k) i = u16At b (k + i) := by
  unfold u16At
  rw [List.drop_drop]

theorem read_create_eq (ctx : ReplyCtx) (h : 8 ≤ ctx.parameter.length) :
    (Reply.create ctx : Except (Fault Error) Reply.Read) =
      (Reply.Read.payload (u16At ctx.parameter 6).toNat ctx.data >>= fun data => .ok ⟨data⟩) := by
  have hparameters : Reply.Read.parameters ctx.parameter =
      .ok ((u16At ctx.parameter 6).toNat, ctx.parameter.drop 8) := by
    unfold Reply.Read.parameters
    rw [advance_first _ 2 _ (by omega), advance_at _ 2 2 _ (by omega),
      advance_at _ 4 2 _ (by omega), getU16Le_at _ 6 _ (by omega)]
    rfl
  change Reply.Read.create ctx = _
  unfold Reply.Read.create
  rw [hparameters]
  rfl

/-! ### What is accepted -/

/-- The length that the reply announces. -/
def readLength (body : Bytes) : ℕ := (u16At (wordsOf body) 10).toNat

theorem read_parse_eq (info : Info) (body : Bytes) (hfit : CountsFit body)
    (hwords : 12 ≤ wordBytes body) (hlast : u8At (wordsOf body) 0 = 0xff) :
    Reply.parse Reply.Read info body =
      (Reply.Read.payload (readLength body) (dataOf body) >>= fun data => .ok ⟨data⟩) := by
  have hlen := wordsOf_length body hfit
  obtain ⟨rest, hsections⟩ := sections_eq body hfit
  have hstrip : Reply.stripAndX true (wordsOf body) = .ok ((wordsOf body).drop 4) := by
    unfold Reply.stripAndX
    rw [if_pos rfl, andx_eq _ (by omega), if_pos hlast]
    rfl
  unfold Reply.parse
  rw [hsections]
  change (Reply.stripAndX true (wordsOf body) >>= fun p => Reply.create
    (⟨info, p, dataOf body, _⟩ : ReplyCtx)) = _
  rw [hstrip]
  refine (read_create_eq ⟨info, (wordsOf body).drop 4, dataOf body, _⟩ ?_).trans ?_
  · rw [List.length_drop]
    omega
  · rw [u16At_drop]
    rfl

/-- A chained command is refused. -/
theorem read_parse_chained (info : Info) (body : Bytes) (hfit : CountsFit body)
    (hwords : 12 ≤ wordBytes body) (hlast : u8At (wordsOf body) 0 ≠ 0xff) :
    ∃ e, Reply.parse Reply.Read info body = .error (.error e) := by
  have hlen := wordsOf_length body hfit
  obtain ⟨rest, hsections⟩ := sections_eq body hfit
  unfold Reply.parse
  rw [hsections]
  change ∃ e, (Reply.stripAndX true (wordsOf body) >>= _) = _
  unfold Reply.stripAndX
  rw [if_pos rfl, andx_eq _ (by omega), if_neg hlast]
  cases Cmd.tryFrom (u8At (wordsOf body) 0) with
  | none => exact ⟨_, rfl⟩
  | some c => exact ⟨_, rfl⟩

theorem read_parse_iff (info : Info) (body : Bytes) (hfit : CountsFit body)
    (hwords : 12 ≤ wordBytes body) (answer : Reply.Read) :
    Reply.parse Reply.Read info body = .ok answer ↔
      u8At (wordsOf body) 0 = 0xff ∧
      (byteCount body = readLength body ∨ byteCount body = readLength body + 1) ∧
      answer.data = (dataOf body).drop (byteCount body - readLength body) := by
  by_cases hlast : u8At (wordsOf body) 0 = 0xff
  · rw [read_parse_eq info body hfit hwords hlast, read_payload_eq, dataOf_length body hfit]
    by_cases hcount : byteCount body = readLength body ∨ byteCount body = readLength body + 1
    · rw [if_pos hcount]
      constructor
      · intro h
        cases h
        exact ⟨hlast, hcount, rfl⟩
      · intro ⟨_, _, h⟩
        rw [← h]
        rfl
    · rw [if_neg hcount]
      refine iff_of_false (fun h => ?_) fun h => hcount h.2.1
      cases h
  · obtain ⟨e, he⟩ := read_parse_chained info body hfit hwords hlast
    refine iff_of_false (fun h => ?_) fun h => hlast h.1
    cases he.symm.trans h

/-! ### What servers send -/

/-- A reply to a read: behind the block that names no further command the words in front of and
behind the length, which the parser skips, and a byte of padding or none. -/
structure ReadReply where
  block : Bytes
  reserved : Bytes
  behind : Bytes
  padding : Bytes
  payload : Bytes
  block_length : block.length = 3
  reserved_length : reserved.length = 6
  behind_even : behind.length % 2 = 0
  behind_length : behind.length ≤ 498
  padding_length : padding.length ≤ 1
  payload_length : payload.length ≤ SMB_LEGACY_READ_MAX

namespace ReadReply

def words (r : ReadReply) : Bytes :=
  putU8 Cmd.NoCommand.code ++ (r.block ++ (r.reserved ++
    (putU16Le (UInt16.ofNat r.payload.length) ++ r.behind)))

def body (r : ReadReply) (rest : Bytes) : Bytes := framed r.words (r.padding ++ r.payload) rest

theorem words_length (r : ReadReply) : r.words.length = 12 + r.behind.length := by
  simp only [words, List.length_append, putU8, putU16Le, leBytes_length, List.length_singleton,
    r.block_length, r.reserved_length]
  omega

theorem words_readLength (r : ReadReply) :
    u16At r.words 10 = UInt16.ofNat r.payload.length := by
  have hten : (putU8 Cmd.NoCommand.code ++ (r.block ++ r.reserved)).length = 10 := by
    simp only [List.length_append, putU8, List.length_singleton, r.block_length,
      r.reserved_length]
  have hput := u16At_put (putU8 Cmd.NoCommand.code ++ (r.block ++ r.reserved))
    (UInt16.ofNat r.payload.length) r.behind
  rw [hten] at hput
  simpa only [words, List.append_assoc] using hput

theorem parse_body (r : ReadReply) (info : Info) (rest : Bytes) :
    Reply.parse Reply.Read info (r.body rest) = .ok ⟨r.payload⟩ := by
  have hwords := r.words_length
  have hbehind := r.behind_length
  have heven := r.behind_even
  have hpadding := r.padding_length
  have hpayload : r.payload.length ≤ 65534 := r.payload_length
  have hdata : (r.padding ++ r.payload).length = r.padding.length + r.payload.length :=
    List.length_append
  obtain ⟨hfit, hw, hd⟩ := framed_fits r.words (r.padding ++ r.payload) rest (by omega) (by omega)
    (by omega)
  have hwordBytes := wordsOf_length _ hfit
  have hbyteCount := dataOf_length _ hfit
  have hlength : readLength (r.body rest) = r.payload.length := by
    unfold readLength body
    rw [hw, words_readLength, ofNat16_toNat (by omega)]
  rw [hw] at hwordBytes
  rw [hd] at hbyteCount
  refine (read_parse_iff info (r.body rest) hfit ?_ _).mpr ⟨?_, ?_, ?_⟩
  · change 12 ≤ wordBytes (framed _ _ _)
    omega
  · unfold body
    rw [hw]
    rfl
  · rw [hlength]
    change byteCount (framed _ _ _) = _ ∨ byteCount (framed _ _ _) = _
    omega
  · rw [hlength]
    unfold body
    rw [← hbyteCount, hd, hdata, Nat.add_sub_cancel, List.drop_left]

end ReadReply

/-- The payload of a reply comes out as it was put in, and nothing but the end of the data, of
the announced length, ever comes out. -/
theorem read_reply_exact :
    (∀ (r : ReadReply) (info : Info) (rest : Bytes),
      Reply.parse Reply.Read info (r.body rest) = .ok ⟨r.payload⟩) ∧
    ∀ (info : Info) (body : Bytes), CountsFit body → 12 ≤ wordBytes body →
      ∀ answer : Reply.Read, Reply.parse Reply.Read info body = .ok answer →
        (byteCount body = readLength body ∨ byteCount body = readLength body + 1) ∧
        answer.data.length = readLength body ∧ answer.data <:+ dataOf body := by
  refine ⟨ReadReply.parse_body, fun info body hfit hwords answer h => ?_⟩
  obtain ⟨_, hcount, hdata⟩ := (read_parse_iff info body hfit hwords answer).mp h
  refine ⟨hcount, ?_, ?_⟩
  · rw [hdata, List.length_drop, dataOf_length body hfit]
    omega
  · rw [hdata]
    exact List.drop_suffix _ _

end CifsClientStream.Smb
