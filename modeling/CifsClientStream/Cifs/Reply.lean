import CifsClientStream.Error
import CifsClientStream.Smb.Layout

/-!
# A received message (`PendingReply` and `parse_reply` of src/lib.rs)

A message is a header and a body. The header is parsed when the message
arrives, the body only when the operation that waits for it takes it, and then
as the reply type of that operation. The client does not ask whether the body
has the bytes the type's layout needs: `decode_noPanic_iff` says for which byte
strings this goes well, for a layout condition `fits` of the type.
-/

namespace CifsClientStream.Cifs
open Cursor Win Smb Utils

structure PendingReply where
  info : Info
  body : Bytes
  deriving DecidableEq, Repr

/-- The conversion `From<smb::Error> for Error` under `?`. -/
def liftSmb {α : Type} : Except (Fault Smb.Error) α → Except (Fault Error) α
  | .ok a => .ok a
  | .error f => .error (f.map .SMBError)

def checkStatus (info : Info) : Except (Fault Error) Unit :=
  match info.status with
  | .known status =>
    if status = .SUCCESS then .ok ()
    else if status = .MORE_PROCESSING ∧ info.cmd = .SessionSetup then .ok ()
    else .error (.error (.ServerError info.status))
  | .unknown _ => .error (.error (.ServerError info.status))

def parseReply (R : Type) [Reply R] (pending : PendingReply) : Except (Fault Error) R := do
  if pending.info.cmd ≠ Reply.CMD R then
    .error (.error (.UnexpectedReply (Reply.CMD R) pending.info.cmd))
  else
    checkStatus pending.info
    liftSmb (Reply.parse R pending.info pending.body)

/-- The header of a message, as `recv_frame` parses it. -/
def parseFrame (frame : Bytes) : Except (Fault Error) PendingReply := do
  let (info, body) ← liftSmb (Info.parse frame)
  .ok { info, body }

def decode (R : Type) [Reply R] (frame : Bytes) : Except (Fault Error) R := do
  let pending ← parseFrame frame
  parseReply R pending

theorem liftSmb_noPanic {α : Type} (x : Except (Fault Smb.Error) α) :
    NoPanic (liftSmb x) ↔ NoPanic x := by
  rcases x with (e | _) | a
  · exact iff_of_true (noPanic_error _) (noPanic_error _)
  · exact iff_of_false not_noPanic_panic not_noPanic_panic
  · exact iff_of_true (noPanic_ok _) (noPanic_ok _)

theorem parseFrame_noPanic (frame : Bytes) : NoPanic (parseFrame frame) := by
  unfold parseFrame
  rw [noPanic_bind, liftSmb_noPanic]
  exact ⟨Info.parse_not_panic frame, fun _ _ => noPanic_ok _⟩

/-! ### Messages that are handed to the reply parser -/

/-- The header of `frame` is a reply to the command of `R` with a status that is
let through; every other message is refused before its body is read. -/
structure Passes (R : Type) [Reply R] (frame : Bytes) : Prop where
  long : SMB_HEADER_LEN ≤ frame.length
  magic : frame.take 4 = SMB_MAGIC
  cmd : u8At frame 4 = (Reply.CMD R).code
  reply : contains (u8At frame 9) Flags1.REPLY
  status : u32At frame 5 = NTStatus.SUCCESS.code ∨
    (Reply.CMD R = .SessionSetup ∧ u32At frame 5 = NTStatus.MORE_PROCESSING.code)

theorem liftSmb_ok {α : Type} (x : Except (Fault Smb.Error) α) (a : α) :
    liftSmb x = .ok a ↔ x = .ok a := by
  have h : liftSmb x = x.mapError (·.map .SMBError) := by
    cases x with
    | ok b => rfl
    | error f => rfl
  rw [h, mapError_ok]

theorem checkStatus_eq (info : Info) :
    checkStatus info = if info.status = .known .SUCCESS ∨
        (info.cmd = .SessionSetup ∧ info.status = .known .MORE_PROCESSING) then .ok ()
      else .error (.error (.ServerError info.status)) := by
  unfold checkStatus
  split
  · rename_i s hs
    by_cases h1 : s = .SUCCESS
    · simp [hs, h1]
    · by_cases h2 : s = .MORE_PROCESSING ∧ info.cmd = .SessionSetup
      · simp [hs, h2]
      · rw [if_neg h1, if_neg h2, if_neg]
        rintro (h | ⟨hc, h⟩)
        · rw [hs] at h
          cases h
          exact h1 rfl
        · rw [hs] at h
          cases h
          exact h2 ⟨rfl, hc⟩
  · rename_i hs
    simp [hs]

theorem parseReply_cmd (R : Type) [Reply R] (pending : PendingReply)
    (h : pending.info.cmd = Reply.CMD R) :
    parseReply R pending = (do
      checkStatus pending.info
      liftSmb (Reply.parse R pending.info pending.body)) := by
  rw [parseReply, if_neg (not_not.mpr h)]

theorem parseFrame_write {info : Info} (h : info.Canonical) (body : Bytes) :
    parseFrame (info.write ++ body) = .ok ⟨info, body⟩ := by
  have hparse := Info.parse_write info h body
  simp [parseFrame, hparse, liftSmb]
  rfl

theorem parseReply_taken (R : Type) [Reply R] {info : Info} {body : Bytes}
    (hcmd : info.cmd = Reply.CMD R)
    (hstatus : info.status = .known .SUCCESS ∨
      (info.cmd = .SessionSetup ∧ info.status = .known .MORE_PROCESSING))
    {r : R} (h : Reply.parse R info body = .ok r) : parseReply R ⟨info, body⟩ = .ok r := by
  rw [parseReply_cmd R _ hcmd, checkStatus_eq, if_pos hstatus]
  change liftSmb (Reply.parse R info body) = _
  rw [h]
  rfl

theorem parseReply_success (R : Type) [Reply R] {info : Info} {body : Bytes}
    (hcmd : info.cmd = Reply.CMD R) (hstatus : info.status = .known .SUCCESS) {r : R}
    (h : Reply.parse R info body = .ok r) : parseReply R ⟨info, body⟩ = .ok r :=
  parseReply_taken R hcmd (Or.inl hstatus) h

theorem parseReply_otherCmd (R : Type) [Reply R] (pending : PendingReply)
    (h : pending.info.cmd ≠ Reply.CMD R) :
    parseReply R pending =
      .error (.error (.UnexpectedReply (Reply.CMD R) pending.info.cmd)) := by
  rw [parseReply, if_pos h]

theorem decode_passes (R : Type) [Reply R] (frame : Bytes) (h : Passes R frame) :
    decode R frame = liftSmb (Reply.parse R (Info.ofBytes (Reply.CMD R) frame)
      (frame.drop SMB_HEADER_LEN)) := by
  have hc := (Cmd.tryFrom_eq_some _ _).mpr h.cmd
  have hp : Info.parse frame =
      .ok (Info.ofBytes (Reply.CMD R) frame, frame.drop SMB_HEADER_LEN) := by
    rw [Info.parse_eq frame h.long, if_neg (not_not.mpr h.magic), hc, Info.flags1_all]
    dsimp only
    rw [if_neg (not_not.mpr h.reply)]
  have hs : checkStatus (Info.ofBytes (Reply.CMD R) frame) = .ok () := by
    rw [checkStatus_eq, if_pos]
    exact h.status.imp (Status.ofCode_known _ _).mpr
      fun h => ⟨h.1, (Status.ofCode_known _ _).mpr h.2⟩
  rw [decode, parseFrame, hp]
  change parseReply R ⟨Info.ofBytes (Reply.CMD R) frame, _⟩ = _
  rw [parseReply_cmd R _ rfl]
  dsimp only
  rw [hs]
  rfl

theorem decode_refused (R : Type) [Reply R] (frame : Bytes) (h : ¬Passes R frame) :
    NoPanic (decode R frame) := by
  unfold decode parseFrame
  by_cases hlen : SMB_HEADER_LEN ≤ frame.length
  · rw [Info.parse_eq frame hlen]
    by_cases hm : frame.take 4 = SMB_MAGIC
    · rw [if_neg (not_not.mpr hm)]
      cases hc : Cmd.tryFrom (u8At frame 4) with
      | none => exact noPanic_error _
      | some cmd =>
        dsimp only
        by_cases hr : contains (u8At frame 9 &&& Flags1.all) Flags1.REPLY
        · rw [if_neg (not_not.mpr hr)]
          change NoPanic (parseReply R ⟨Info.ofBytes cmd frame, _⟩)
          by_cases hcmd : cmd = Reply.CMD R
          · -- the right command, so it is the status that is not let through
            subst hcmd
            rw [parseReply_cmd R _ rfl]
            dsimp only
            rw [checkStatus_eq, if_neg]
            · exact noPanic_error _
            · rw [Info.flags1_all] at hr
              intro hst
              refine h ⟨hlen, hm, (Cmd.tryFrom_eq_some _ _).mp hc, hr, ?_⟩
              exact hst.imp (Status.ofCode_known _ _).mp
                fun h => ⟨h.1, (Status.ofCode_known _ _).mp h.2⟩
          · rw [parseReply_otherCmd R _ hcmd]
            exact noPanic_error _
        · rw [if_pos hr]
          exact noPanic_error _
    · rw [if_pos hm]
      exact noPanic_error _
  · rw [Info.parse_short frame (Nat.not_le.mp hlen)]
    exact noPanic_error _

/-- `frame` is refused by its header, or its body has the layout of type `R`. -/
def LaidOut (R : Type) [Reply R] (fits : UInt16 → Bytes → Bytes → ℕ → Prop) (frame : Bytes) :
    Prop :=
  Passes R frame →
    BodyFits R fits (u16At frame 10 &&& Flags2.all) (frame.drop SMB_HEADER_LEN)

theorem decode_noPanic_iff (R : Type) [Reply R] (fits : UInt16 → Bytes → Bytes → ℕ → Prop)
    (hfits : Lays R fits) (frame : Bytes) : NoPanic (decode R frame) ↔ LaidOut R fits frame := by
  unfold LaidOut
  by_cases h : Passes R frame
  · rw [decode_passes R frame h, liftSmb_noPanic, reply_parse_fits R fits hfits]
    simp only [h, forall_const]
    rfl
  · simp only [h, false_implies, iff_true]
    exact decode_refused R frame h

/-- Whatever bytes arrive: taking them as a reply of any of the types the client waits
for stays inside the buffers exactly when they have the layout of that type. -/
theorem decode_stays_inside (frame : Bytes) :
    (NoPanic (decode Reply.SessionSetup frame) ↔
      LaidOut Reply.SessionSetup SessionSetup.fits frame) ∧
    (NoPanic (decode Share frame) ↔ LaidOut Share Share.fits frame) ∧
    (NoPanic (decode Reply.TreeDisconnect frame) ↔
      LaidOut Reply.TreeDisconnect TreeDisconnect.fits frame) ∧
    (NoPanic (decode Handle frame) ↔ LaidOut Handle Handle.fits frame) ∧
    (NoPanic (decode Reply.Close frame) ↔ LaidOut Reply.Close Close.fits frame) ∧
    (NoPanic (decode Reply.Read frame) ↔ LaidOut Reply.Read Read.fits frame) ∧
    (NoPanic (decode Reply.Transact2 frame) ↔ LaidOut Reply.Transact2 Transact2.fits frame) :=
  ⟨decode_noPanic_iff _ _ sessionSetup_lays frame, decode_noPanic_iff _ _ share_lays frame,
    decode_noPanic_iff _ _ treeDisconnect_lays frame, decode_noPanic_iff _ _ handle_lays frame,
    decode_noPanic_iff _ _ close_lays frame, decode_noPanic_iff _ _ read_lays frame,
    decode_noPanic_iff _ _ transact2_lays frame⟩

def bareCloseReply : Bytes :=
  { Info.default .Close with flags1 := Flags1.REPLY }.write

theorem bareCloseReply_panics : ¬NoPanic (decode Reply.Close bareCloseReply) :=
  fun h => h rfl

end CifsClientStream.Cifs
