import CifsClientStream.Cifs.Setup
import CifsClientStream.Stream.Invariant

/-!
# Opening and closing a media stream (`openfile`, `open_media_stream` of src/lib.rs)

A media stream is opened in two steps: the server opens the file and answers
with its handle, then the options are checked. The handle has no destructor, so
a file that is open on the server stays open until a close request goes out
(`givesBack_iff`). `openFiles` are the files of the server; what it does on a
request is given by a function of everything before (`FileServer`).
-/

namespace CifsClientStream.Stream
open Cursor Async Smb Utils
open Cifs (Arrival WriteStep Sends Brings Refused Grown recv recv_moves grown_receives command_sent
  command_unsent command_ok_iff command_error_iff)

inductive FileRequest where
  | openRo (tid : UInt16) (path : String)
  | close (tid fid : UInt16)
  deriving DecidableEq, Repr

/-- What a server does on a request: which file it opens, if any, and what it sends; and what
becomes of the frame of the request. -/
structure FileAnswer where
  opened : Option UInt16
  arrivals : List Arrival
  writes : List WriteStep

abbrev FileServer := List UInt16 → Cifs → FileRequest → FileAnswer

structure Remote where
  cifs : Cifs
  openFiles : List UInt16

/-- The files that are open when the server has handled a request. -/
def FileRequest.handled (opened : Option UInt16) (openFiles : List UInt16) :
    FileRequest → List UInt16
  | .openRo _ _ => opened.toList ++ openFiles
  | .close _ fid => openFiles.erase fid

/-- The server handles the requests that got out. -/
def Remote.after (s : Remote) (c : Cifs) (request : FileRequest) (opened : Option UInt16) : Remote where
  cifs := c
  openFiles :=
    if s.cifs.history.sent.length < c.history.sent.length then request.handled opened s.openFiles
    else s.openFiles

section

variable (server : FileServer)

/-- `command` with a request that concerns files. -/
def fileCommand {M : Type} (R : Type) [Msg M] [Reply R] (request : FileRequest) (msg : M) :
    Fut Error Remote R := fun s =>
  let answer := server s.openFiles s.cifs request
  match Cifs.command R msg (s.cifs.arrive answer.arrivals answer.writes) with
  | .ok r c => .ok r (s.after c request answer.opened)
  | .error e c => .error e (s.after c request answer.opened)

def openfile (share : Share) (path : String) : Fut Error Remote Handle :=
  fileCommand server Handle (.openRo share.tid (sanitizePath path))
    (Msg.Open.fileRo share.tid (sanitizePath path))

def openStream (share : Share) (path : String) : Fut Error Remote FileStream := do
  let handle ← openfile server share path
  pure (FileStream.new handle)

def openMediaStreamWithOptions (share : Share) (path : String) (options : SmbMediaStreamOptions) :
    Fut Error Remote SmbMediaStream := do
  let stream ← openStream server share path
  ofExcept (SmbMediaStream.new stream options)

def openMediaStream (share : Share) (path : String) : Fut Error Remote SmbMediaStream :=
  openMediaStreamWithOptions server share path SmbMediaStreamOptions.default

def closeRef (file : Handle) : Fut Error Remote Unit := do
  let _ ← fileCommand server Reply.Close (.close file.tid file.fid) (Msg.Close.handle file)

end

/-! ### The two steps -/

/-- A new file stream becomes a media stream exactly with valid options. -/
theorem media_created (handle : Handle) (options : SmbMediaStreamOptions) :
    (options.Valid ∧ ∃ media, SmbMediaStream.new (FileStream.new handle) options = .ok media ∧
      media.worker.stream.handle = handle) ∨
    ¬options.Valid ∧ ∃ e, SmbMediaStream.new (FileStream.new handle) options = .error e := by
  unfold SmbMediaStream.new
  cases hv : options.validate with
  | error e =>
    refine Or.inr ⟨fun h => ?_, e, rfl⟩
    rw [(SmbMediaStreamOptions.validate_ok _).mpr h] at hv
    cases hv
  | ok _ =>
    have hvalid := (SmbMediaStreamOptions.validate_ok _).mp hv
    have hworker := (StreamingWorkerOptions.validate_ok _).mpr hvalid.worker
    refine Or.inl ⟨hvalid, ?_⟩
    unfold StreamingWorker.new StreamingWorkerState.new
    rw [hworker]
    exact ⟨_, rfl, rfl⟩

theorem openMedia_eq (server : FileServer) (share : Share) (path : String)
    (options : SmbMediaStreamOptions) (s : Remote) :
    openMediaStreamWithOptions server share path options s =
      match openfile server share path s with
      | .ok handle s' => (ofExcept (SmbMediaStream.new (FileStream.new handle) options) :
          Fut Error Remote SmbMediaStream) s'
      | .error e s' => .error e s' := by
  unfold openMediaStreamWithOptions openStream
  rw [fut_bind, fut_bind]
  cases openfile server share path s with
  | ok handle s' => rfl
  | error e s' => rfl

/-! ### A request that gets out -/

variable {server : FileServer}

/-- The client when it sends a request, with all that will arrive. -/
def Remote.asking (server : FileServer) (request : FileRequest) (s : Remote) : Cifs :=
  s.cifs.arrive (server s.openFiles s.cifs request).arrivals
    (server s.openFiles s.cifs request).writes

theorem fileCommand_eq {M : Type} (R : Type) [Msg M] [Reply R] (request : FileRequest) (msg : M)
    (s : Remote) :
    fileCommand server R request msg s =
      match Cifs.command R msg (s.asking server request) with
      | .ok r c => .ok r (s.after c request (server s.openFiles s.cifs request).opened)
      | .error e c => .error e (s.after c request (server s.openFiles s.cifs request).opened) := rfl

/-- A request that gets out is handled, however the call ends. -/
theorem fileCommand_sent {M : Type} (R : Type) [Msg M] [Reply R] {request : FileRequest} {msg : M}
    {s : Remote} (h : Sends msg (s.asking server request)) :
    (endState (fileCommand server R request msg s)).openFiles =
      request.handled (server s.openFiles s.cifs request).opened s.openFiles := by
  have hgrown := recv_moves grown_receives R
    ⟨(s.asking server request).mid, (s.asking server request).history.sent.length⟩
    (s.asking server request).logSent
  have hlater : ∀ c : Cifs, Grown (s.asking server request).logSent c →
      s.cifs.history.sent.length < c.history.sent.length := by
    intro c hg
    have hlen := hg.sent.length_le
    change (s.cifs.history.sent ++ [_]).length ≤ c.history.sent.length at hlen
    rw [List.length_append, List.length_singleton] at hlen
    omega
  rw [fileCommand_eq, command_sent R h]
  cases hr : recv R ⟨(s.asking server request).mid,
      (s.asking server request).history.sent.length⟩ (s.asking server request).logSent with
  | ok r c =>
    rw [hr] at hgrown
    exact if_pos (hlater c hgrown)
  | error e c =>
    rw [hr] at hgrown
    exact if_pos (hlater c hgrown)

/-- A request that does not get out fails and is not handled. -/
theorem fileCommand_unsent {M : Type} (R : Type) [Msg M] [Reply R] {request : FileRequest}
    {msg : M} {s : Remote} (h : ¬Sends msg (s.asking server request)) :
    ∃ e s', fileCommand server R request msg s = .error e s' ∧ s'.openFiles = s.openFiles := by
  obtain ⟨e, writes, hcommand⟩ := command_unsent R h
  rw [fileCommand_eq, hcommand]
  exact ⟨e, _, rfl, if_neg (Nat.lt_irrefl _)⟩

/-- A request that is answered was handled. -/
theorem fileCommand_handled {M R : Type} [Msg M] [Reply R] {request : FileRequest} {msg : M}
    {s s' : Remote} {r : R} (h : fileCommand server R request msg s = .ok r s') :
    s'.openFiles =
      request.handled (server s.openFiles s.cifs request).opened s.openFiles := by
  by_cases hsent : Sends msg (s.asking server request)
  · have hfiles := fileCommand_sent R hsent
    rw [h] at hfiles
    exact hfiles
  · obtain ⟨e, s1, hfail, _⟩ := fileCommand_unsent R hsent
    cases hfail.symm.trans h

theorem fileCommand_ok_iff {M : Type} (R : Type) [Msg M] [Reply R] {request : FileRequest}
    {msg : M} {s : Remote} (h : Sends msg (s.asking server request)) (answer : R) :
    (∃ s', fileCommand server R request msg s = .ok answer s') ↔
      Brings R (s.asking server request) answer := by
  rw [← command_ok_iff R h answer, fileCommand_eq]
  cases Cifs.command R msg (s.asking server request) with
  | ok r c =>
    constructor
    · intro ⟨_, hr⟩
      cases hr
      exact ⟨c, rfl⟩
    · intro ⟨_, hr⟩
      cases hr
      exact ⟨_, rfl⟩
  | error e c =>
    refine iff_of_false (fun ⟨_, hr⟩ => ?_) fun ⟨_, hr⟩ => ?_
    · cases hr
    · cases hr

theorem fileCommand_error_iff {M : Type} (R : Type) [Msg M] [Reply R] {request : FileRequest}
    {msg : M} {s : Remote} (h : Sends msg (s.asking server request)) :
    (∃ e s', fileCommand server R request msg s = .error (.error e) s') ↔
      Refused R (s.asking server request) := by
  rw [← command_error_iff R h, fileCommand_eq]
  cases Cifs.command R msg (s.asking server request) with
  | ok r c =>
    refine iff_of_false (fun ⟨_, _, hr⟩ => ?_) fun ⟨_, _, hr⟩ => ?_
    · cases hr
    · cases hr
  | error e c =>
    constructor
    · intro ⟨e', _, hr⟩
      cases hr
      exact ⟨e', c, rfl⟩
    · intro ⟨e', _, hr⟩
      cases hr
      exact ⟨e', _, rfl⟩

/-! ### What a failed open leaves behind -/

/-- When the call returns an error, the server has no more files open than before. -/
def GivesBack (server : FileServer) (share : Share) (path : String)
    (options : SmbMediaStreamOptions) (s : Remote) : Prop :=
  ∀ e s', openMediaStreamWithOptions server share path options s = .error (.error e) s' →
    s'.openFiles = s.openFiles

/-- The request to open gets out and the server opens a file. -/
structure Opens (server : FileServer) (share : Share) (path : String) (s : Remote) : Prop where
  sent : Sends (Msg.Open.fileRo share.tid (sanitizePath path))
    (s.asking server (.openRo share.tid (sanitizePath path)))
  opened : (server s.openFiles s.cifs (.openRo share.tid (sanitizePath path))).opened.isSome

theorem openfile_files (server : FileServer) (share : Share) (path : String) (s : Remote) :
    (endState (openfile server share path s)).openFiles = s.openFiles ↔
      ¬Opens server share path s := by
  by_cases hsent : Sends (Msg.Open.fileRo share.tid (sanitizePath path))
      (s.asking server (.openRo share.tid (sanitizePath path)))
  · have hfiles := fileCommand_sent Handle hsent
    unfold openfile
    rw [hfiles, FileRequest.handled]
    cases hopened : (server s.openFiles s.cifs (.openRo share.tid (sanitizePath path))).opened with
    | none =>
      refine iff_of_true rfl fun hopens => ?_
      have hsome := hopens.opened
      rw [hopened] at hsome
      cases hsome
    | some fid =>
      refine iff_of_false (List.cons_ne_self fid s.openFiles) fun hnot => hnot ⟨hsent, ?_⟩
      rw [hopened]
      rfl
  · obtain ⟨e, s1, hfail, hfiles⟩ := fileCommand_unsent Handle hsent
    unfold openfile
    rw [hfail]
    exact iff_of_true hfiles fun hopens => hsent hopens.sent

section

variable {server : FileServer} {share : Share} {path : String} {s s' : Remote} {handle : Handle}

theorem openfile_ok_iff (h : Opens server share path s) (handle : Handle) :
    (∃ s', openfile server share path s = .ok handle s') ↔
      Brings Handle (s.asking server (.openRo share.tid (sanitizePath path))) handle :=
  fileCommand_ok_iff Handle h.sent handle

theorem openfile_error_iff (h : Opens server share path s) :
    (∃ e s', openfile server share path s = .error (.error e) s') ↔
      Refused Handle (s.asking server (.openRo share.tid (sanitizePath path))) :=
  fileCommand_error_iff Handle h.sent

variable (options : SmbMediaStreamOptions)

theorem openMedia_failed {e : Stop Error} (h : openfile server share path s = .error e s') :
    openMediaStreamWithOptions server share path options s = .error e s' := by
  rw [openMedia_eq, h]

/-- Behind an opened file only the options decide. -/
theorem openMedia_opened (h : openfile server share path s = .ok handle s') :
    (options.Valid ∧ ∃ media,
      openMediaStreamWithOptions server share path options s = .ok media s' ∧
        media.worker.stream.handle = handle) ∨
    ¬options.Valid ∧
      ∃ e, openMediaStreamWithOptions server share path options s = .error (.error e) s' := by
  rw [openMedia_eq, h]
  dsimp only
  rcases media_created handle options with ⟨hvalid, media, hnew, hhandle⟩ | ⟨hinvalid, e, hnew⟩
  · rw [hnew]
    exact Or.inl ⟨hvalid, media, rfl, hhandle⟩
  · rw [hnew]
    exact Or.inr ⟨hinvalid, e, rfl⟩

end

/-- A failed open leaves no file open exactly when the server opens none, or its reply is not
refused and the options are valid if a handle is in it. -/
theorem givesBack_iff (server : FileServer) (share : Share) (path : String)
    (options : SmbMediaStreamOptions) (s : Remote) :
    GivesBack server share path options s ↔
      (Opens server share path s →
        ¬Refused Handle (s.asking server (.openRo share.tid (sanitizePath path))) ∧
        ((∃ handle, Brings Handle (s.asking server (.openRo share.tid (sanitizePath path)))
          handle) → options.Valid)) := by
  have hfiles := openfile_files server share path s
  constructor
  · intro hback hopens
    refine ⟨fun hrefused => ?_, fun ⟨handle, hbrings⟩ => ?_⟩
    · obtain ⟨e, s1, hopen⟩ := (openfile_error_iff hopens).mpr hrefused
      rw [hopen] at hfiles
      exact hfiles.mp (hback e s1 (openMedia_failed options hopen)) hopens
    · obtain ⟨s1, hopen⟩ := (openfile_ok_iff hopens handle).mpr hbrings
      rw [hopen] at hfiles
      rcases openMedia_opened options hopen with ⟨hvalid, _⟩ | ⟨_, e, hmedia⟩
      · exact hvalid
      · exact absurd hopens (hfiles.mp (hback e s1 hmedia))
  · intro hcond e s' hmedia
    cases hopen : openfile server share path s with
    | error e1 s1 =>
      rw [hopen] at hfiles
      cases (openMedia_failed options hopen).symm.trans hmedia
      exact hfiles.mpr fun hopens =>
        (hcond hopens).1 ((openfile_error_iff hopens).mp ⟨e, _, hopen⟩)
    | ok handle s1 =>
      rw [hopen] at hfiles
      rcases openMedia_opened options hopen with ⟨_, media, hx, _⟩ | ⟨hinvalid, e1, hx⟩
      · cases hx.symm.trans hmedia
      · cases hx.symm.trans hmedia
        exact hfiles.mpr fun hopens => hinvalid
          ((hcond hopens).2 ⟨handle, (openfile_ok_iff hopens handle).mp ⟨_, hopen⟩⟩)

/-- A server that opens file 5, whatever it is asked for. -/
def opensFive : FileServer := fun _ _ _ =>
  let reply := Cifs.serverReply .Create .SUCCESS 0 (putU8 34 ++ [0xff, 0, 0, 0] ++ putU8 0 ++
    putU16Le 5 ++ putU32Le 1 ++ putBytes 0 32 ++ putU32Le 0 ++ putU64Le 8 ++ putU64Le 8 ++
    putBytes 0 5 ++ putU16Le 0)
  { opened := some 5, arrivals := [.frame 0 (.Message (reply.info.write ++ reply.body))], writes := [] }

def musicShare : Share where
  accessRights := none
  guestRights := none
  service := "A:"
  filesystem := ""
  tid := 1

def noPipeline : SmbMediaStreamOptions :=
  { SmbMediaStreamOptions.default with
    workerOptions := { SmbMediaStreamOptions.default.workerOptions with pipelineDepth := 0 } }

theorem opensFive_opens :
    ∃ handle s', openfile opensFive musicShare "a.mkv" ⟨Cifs.fresh Cifs.noAuth, []⟩ = .ok handle s' ∧
      s'.openFiles = [5] := by
  have hpath : sanitizePath "a.mkv" = "a.mkv" := by
    apply String.toList_inj.mp
    unfold sanitizePath
    rw [String.toList_map]
    rfl
  unfold openfile
  rw [hpath]
  refine ⟨_, _, rfl, ?_⟩
  rfl

/-- Options that the check rejects leave the file open. -/
theorem invalid_options_leak :
    noPipeline.validate =
      .error (.InvalidConfig "streaming worker pipeline depth must be greater than zero") ∧
    ¬GivesBack opensFive musicShare "a.mkv" noPipeline ⟨Cifs.fresh Cifs.noAuth, []⟩ := by
  refine ⟨rfl, fun h => ?_⟩
  obtain ⟨handle, s', hopen, hfiles⟩ := opensFive_opens
  have hmedia := openMedia_eq opensFive musicShare "a.mkv" noPipeline
    ⟨Cifs.fresh Cifs.noAuth, []⟩
  rw [hopen] at hmedia
  have hback := h _ s' hmedia
  rw [hfiles] at hback
  cases hback

end CifsClientStream.Stream
