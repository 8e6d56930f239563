import CifsClientStream.Ffi.Ownership

/-!
# The files that an app has open

With servers that give each open file an id of its own, each file of the app is
open on the server of its session, and no two share one: what is read and what
is closed is never the file of another (`files_open`).
-/

namespace CifsClientStream.Ffi.Bridge
open Cursor Async Smb Utils Boxes
open Cifs hiding list
open Mailbox (receive_got)
open CifsClientStream.Stream (Remote FileServer FileRequest openfile closeRef fileCommand fileCommand_sent
  fileCommand_unsent fileCommand_handled fileCommand_ok_iff)

/-- The handle in an arrival that is a reply under the id of a request. -/
def handleIn (mid : UInt16) : Arrival → Option Handle
  | .frame _ (.Message raw) =>
    match parseFrame raw with
    | .ok reply => if reply.info.mid = mid then (parseReply Handle reply).toOption else none
    | .error _ => none
  | _ => none

/-- The server opens the file under an id that none of its open files has, and what it sends as a
reply names this id. No older reply to another open is left under the id of the request. -/
structure Names (server : FileServer) (share : Share) (name : String) (remote : Remote) : Prop where
  fresh : ∀ fid ∈ (server remote.openFiles remote.cifs
    (.openRo share.tid (sanitizePath name))).opened, fid ∉ remote.openFiles
  honest : ∀ arrival ∈ (server remote.openFiles remote.cifs
    (.openRo share.tid (sanitizePath name))).arrivals, ∀ handle ∈ handleIn remote.cifs.mid arrival,
      (server remote.openFiles remote.cifs (.openRo share.tid (sanitizePath name))).opened =
        some handle.fid
  unread : ∀ arrival ∈ remote.cifs.netbios.incoming, handleIn remote.cifs.mid arrival = none
  unstored : remote.cifs.pendingReplies remote.cifs.mid = none

def Named (heap : Heap Object) : BridgeCall → Prop
  | .sessionOpenMedia session path server _ => ∀ inner name,
    heap session = some (.session (some inner)) → requiredCString path "path" = .ok name →
      Names server inner.share name.text inner.remote
  | _ => True

/-- Each file of the app is open on the server of its session, under an id of its own. -/
structure FilesOpen (heap : Heap Object) : Prop where
  nodup : ∀ s inner, heap s = some (.session (some inner)) → inner.remote.openFiles.Nodup
  there : ∀ m s handle size inner, heap m = some (.media s (some handle) size) →
    heap s = some (.session (some inner)) → handle.fid ∈ inner.remote.openFiles
  apart : ∀ m m' s handle handle' size size', heap m = some (.media s (some handle) size) →
    heap m' = some (.media s (some handle') size') → handle.fid = handle'.fid → m = m'

variable {crypto : Ntlm.Crypto} {toLowercase : String → String} {io : IoText}
variable {owned : Owned} {heap changed : Heap Object} {a : Alloc} {call : BridgeCall}
variable {server : FileServer} {share : Share} {path : String} {remote remote' : Remote}
  {handle : Handle}

/-! ### What a request leaves open -/

theorem fileCommand_files {M : Type} (server : FileServer) (R : Type) [Msg M] [Reply R]
    (request : FileRequest) (msg : M) (remote : Remote) :
    (endState (fileCommand server R request msg remote)).openFiles = remote.openFiles ∨
      (endState (fileCommand server R request msg remote)).openFiles =
        request.handled (server remote.openFiles remote.cifs request).opened remote.openFiles := by
  by_cases hsent : Sends msg (remote.asking server request)
  · exact Or.inr (fileCommand_sent R hsent)
  · obtain ⟨e, s, hfail, hfiles⟩ := fileCommand_unsent R hsent
    rw [hfail]
    exact Or.inl hfiles

theorem openfile_left {e : Stop Error} (hnames : Names server share path remote) (hnodup : remote.openFiles.Nodup)
    (h : openfile server share path remote = .error e remote') :
    remote'.openFiles.Nodup ∧ remote.openFiles ⊆ remote'.openFiles := by
  have hfiles := fileCommand_files server Handle (.openRo share.tid (sanitizePath path))
    (Msg.Open.fileRo share.tid (sanitizePath path)) remote
  rw [openfile] at h
  rw [h] at hfiles
  have hfresh := hnames.fresh
  rcases hfiles with hsame | hopened
  · simp [endState] at hsame
    simp [hsame, hnodup]
  · simp only [endState, FileRequest.handled] at hopened
    rw [hopened]
    cases hfid : (server remote.openFiles remote.cifs (.openRo share.tid (sanitizePath path))).opened with
    | none => exact ⟨hnodup, List.Subset.refl _⟩
    | some fid => exact ⟨List.nodup_cons.mpr ⟨hfresh fid hfid, hnodup⟩, List.subset_cons_self _ _⟩

theorem heard_arrival {arrivals : List Arrival} {d : Delivery} (h : d ∈ heard arrivals) :
    ∃ raw, .frame d.answers (.Message raw) ∈ arrivals ∧ parseFrame raw = .ok d.reply := by
  induction arrivals with
  | nil => cases h
  | cons a rest ih =>
    unfold heard at h
    split at h
    next => cases h
    next hcons =>
      cases hcons
      split at h
      next hparse =>
        rcases List.mem_cons.mp h with rfl | hmore
        · exact ⟨_, List.mem_cons_self, hparse⟩
        · obtain ⟨raw, hraw, hread⟩ := ih hmore
          exact ⟨raw, List.mem_cons_of_mem _ hraw, hread⟩
      next => cases h
    next hcons =>
      cases hcons
      obtain ⟨raw, hraw, hread⟩ := ih h
      exact ⟨raw, List.mem_cons_of_mem _ hraw, hread⟩
    next => cases h

/-- The handle that an open returns names the file that the server has opened. -/
theorem Names.named (h : Names server share path remote)
    (hopen : openfile server share path remote = .ok handle remote') :
    (server remote.openFiles remote.cifs (.openRo share.tid (sanitizePath path))).opened =
      some handle.fid := by
  have hsent : Sends (Msg.Open.fileRo share.tid (sanitizePath path))
      (remote.asking server (.openRo share.tid (sanitizePath path))) := by
    by_contra hnot
    obtain ⟨e, s, hfail, -⟩ := fileCommand_unsent Handle hnot
    cases hfail.symm.trans hopen
  obtain ⟨d, hd, hparse⟩ := (fileCommand_ok_iff Handle hsent handle).mp ⟨remote', hopen⟩
  rcases receive_got Delivery.mid hd with hstored | ⟨hunread, hmid⟩
  · cases h.unstored.symm.trans hstored
  · obtain ⟨raw, hraw, hread⟩ := heard_arrival hunread
    have hhandle : handleIn remote.cifs.mid (.frame d.answers (.Message raw)) = some handle := by
      have hown : d.reply.info.mid = remote.cifs.mid := hmid
      simp only [handleIn, hread, hown, if_true, hparse, Except.toOption]
    rcases List.mem_append.mp hraw with hold | hnew
    · cases (h.unread _ hold).symm.trans hhandle
    · exact h.honest _ hnew handle hhandle

theorem openfile_opened (hnames : Names server share path remote)
    (h : openfile server share path remote = .ok handle remote') :
    remote'.openFiles = handle.fid :: remote.openFiles ∧ handle.fid ∉ remote.openFiles := by
  have hopened := hnames.named h
  have hfiles := fileCommand_handled h
  rw [FileRequest.handled, hopened] at hfiles
  exact ⟨hfiles, hnames.fresh handle.fid hopened⟩

theorem closeRef_closed (server : FileServer) (handle : Handle) (remote : Remote) :
    (endState (closeRef server handle remote)).openFiles = remote.openFiles ∨
      (endState (closeRef server handle remote)).openFiles = remote.openFiles.erase handle.fid := by
  have hfiles := fileCommand_files server Reply.Close (.close handle.tid handle.fid)
    (Msg.Close.handle handle) remote
  have hend : endState (closeRef server handle remote) = endState (fileCommand server Reply.Close
      (.close handle.tid handle.fid) (Msg.Close.handle handle) remote) := by
    rw [closeRef, fut_bind]
    cases fileCommand server Reply.Close (.close handle.tid handle.fid) (Msg.Close.handle handle)
      remote with
    | ok reply s => rfl
    | error e s => rfl
  rw [hend]
  exact hfiles

/-! ### One call -/

variable {p s : Pointer}

theorem FilesOpen.release (h : FilesOpen heap) (p : Pointer) :
    FilesOpen (Function.update heap p none) := by
  have hother {q : Pointer} {o : Object} (hq : Function.update heap p none q = some o) :
      heap q = some o := by
    by_cases hqp : q = p
    · simp [hqp] at hq
    · rwa [Function.update_of_ne hqp] at hq
  exact ⟨fun s inner hs => h.nodup s inner (hother hs),
    fun m s handle size inner hm hs => h.there m s handle size inner (hother hm) (hother hs),
    fun m m' s handle handle' size size' hm hm' =>
      h.apart m m' s handle handle' size size' (hother hm) (hother hm')⟩

/-- The server of a session may open and close other files. -/
theorem FilesOpen.session (h : FilesOpen heap) (inner : Inner)
    (hnodup : inner.remote.openFiles.Nodup)
    (hkeeps : ∀ m handle size, heap m = some (.media s (some handle) size) →
      handle.fid ∈ inner.remote.openFiles) :
    FilesOpen (Function.update heap s (some (.session (some inner)))) := by
  have hmedia {m t : Pointer} {handle : Handle} {size : UInt64}
      (hm : Function.update heap s (some (.session (some inner))) m =
        some (.media t (some handle) size)) : heap m = some (.media t (some handle) size) := by
    by_cases hms : m = s
    · simp [hms] at hm
    · rwa [Function.update_of_ne hms] at hm
  refine ⟨fun t other ht => ?_, fun m t handle size other hm ht => ?_,
    fun m m' t handle handle' size size' hm hm' =>
      h.apart m m' t handle handle' size size' (hmedia hm) (hmedia hm')⟩
  · by_cases hts : t = s
    · simp only [hts, Function.update_self, Option.some.injEq, Object.session.injEq] at ht
      exact ht ▸ hnodup
    · rw [Function.update_of_ne hts] at ht
      exact h.nodup t other ht
  · by_cases hts : t = s
    · subst hts
      simp only [Function.update_self, Option.some.injEq, Object.session.injEq] at ht
      exact ht ▸ hkeeps m handle size (hmedia hm)
    · rw [Function.update_of_ne hts] at ht
      exact h.there m t handle size other (hmedia hm) ht

theorem FilesOpen.text (h : FilesOpen heap) (p : Pointer) (bytes : Bytes) :
    FilesOpen (Function.update heap p (some (.text bytes))) := by
  have hother {q : Pointer} {o : Object} (ho : ∀ bytes, o ≠ .text bytes)
      (hq : Function.update heap p (some (.text bytes)) q = some o) : heap q = some o := by
    by_cases hqp : q = p
    · simp only [hqp, Function.update_self, Option.some.injEq] at hq
      exact absurd hq.symm (ho bytes)
    · rwa [Function.update_of_ne hqp] at hq
  exact ⟨fun s inner hs => h.nodup s inner (hother nofun hs),
    fun m s handle size inner hm hs =>
      h.there m s handle size inner (hother nofun hm) (hother nofun hs),
    fun m m' s handle handle' size size' hm hm' =>
      h.apart m m' s handle handle' size size' (hother nofun hm) (hother nofun hm')⟩

/-- A new file, under an id that no other file of the session has. -/
theorem FilesOpen.media {size : UInt64} (h : FilesOpen heap) (inner : Inner)
    (hs : heap s = some (.session (some inner))) (hin : handle.fid ∈ inner.remote.openFiles)
    (hnew : ∀ m handle' size, heap m = some (.media s (some handle') size) → handle'.fid ≠ handle.fid) :
    FilesOpen (Function.update heap p (some (.media s (some handle) size))) := by
  have hsession {t : Pointer} {other : Inner}
      (ht : Function.update heap p (some (.media s (some handle) size)) t =
        some (.session (some other))) : heap t = some (.session (some other)) := by
    by_cases htp : t = p
    · simp [htp] at ht
    · rwa [Function.update_of_ne htp] at ht
  refine ⟨fun t other ht => h.nodup t other (hsession ht), fun m t handle' size' other hm ht => ?_,
    fun m m' t handle1 handle2 size1 size2 hm hm' hfid => ?_⟩
  · by_cases hmp : m = p
    · simp only [hmp, Function.update_self, Option.some.injEq, Object.media.injEq] at hm
      obtain ⟨rfl, rfl, rfl⟩ := hm
      cases hs.symm.trans (hsession ht)
      exact hin
    · rw [Function.update_of_ne hmp] at hm
      exact h.there m t handle' size' other hm (hsession ht)
  · by_cases hmp : m = p
    · by_cases hmp' : m' = p
      · rw [hmp, hmp']
      · simp only [hmp, Function.update_self, Option.some.injEq, Object.media.injEq] at hm
        obtain ⟨rfl, rfl, rfl⟩ := hm
        rw [Function.update_of_ne hmp'] at hm'
        exact absurd hfid.symm (hnew m' handle2 size2 hm')
    · rw [Function.update_of_ne hmp] at hm
      by_cases hmp' : m' = p
      · simp only [hmp', Function.update_self, Option.some.injEq, Object.media.injEq] at hm'
        obtain ⟨rfl, rfl, rfl⟩ := hm'
        exact absurd hfid (hnew m handle1 size1 hm)
      · rw [Function.update_of_ne hmp'] at hm'
        exact h.apart m m' t handle1 handle2 size1 size2 hm hm' hfid

theorem FilesOpen.kept {object : Pointer} (h : FilesOpen heap) (hholds : Holds owned heap)
    (hnamed : Named heap call) (hfresh : a.Fresh heap) (hchange : Change call a heap object changed) :
    FilesOpen changed := by
  cases hchange with
  | nothing => exact h
  | @sessionOpened _ _ _ inner hmakes hfrees hfiles =>
    have hnone : inner.remote.openFiles.Nodup := by simp [hfiles]
    refine h.session inner hnone fun m handle size hm => ?_
    have hparent := hholds.parents m a.object (hholds.kind_at hm)
    rw [hholds.tracks.free.mp hfresh.object] at hparent
    cases hparent
  | @used _ _ _ session inner cifs hfrees hinner =>
    exact h.session { inner with remote := { inner.remote with cifs } }
      (h.nodup session inner hinner) fun m handle size hm => h.there m session handle size inner hm hinner
  | @openFailed _ _ session path server outMessage inner name e remote hname hinner hopen =>
    obtain ⟨hnodup, hkept⟩ := openfile_left (hnamed inner name hinner hname) (h.nodup session inner hinner) hopen
    exact h.session { inner with remote } hnodup fun m handle size hm =>
      hkept (h.there m session handle size inner hm hinner)
  | @mediaOpened _ _ session path server outMessage inner name handle remote hname hinner hopen =>
    obtain ⟨hfiles, hnew⟩ := openfile_opened (hnamed inner name hinner hname) hopen
    have hopened : FilesOpen (Function.update heap session
        (some (.session (some { inner with remote })))) := by
      refine h.session { inner with remote } ?_ fun m handle' size hm => ?_
      · simp only [hfiles]
        exact List.nodup_cons.mpr ⟨hnew, h.nodup session inner hinner⟩
      · simp only [hfiles]
        exact List.mem_cons_of_mem _ (h.there m session handle' size inner hm hinner)
    refine hopened.media { inner with remote } (Function.update_self ..) ?_
      fun m handle' size hm hfid => ?_
    · simp [hfiles]
    · by_cases hms : m = session
      · simp [hms] at hm
      · rw [Function.update_of_ne hms] at hm
        exact hnew (hfid ▸ h.there m session handle' size inner hm hinner)
  | @mediaClosed _ _ media session server handle inner hmedia hinner =>
    have hnodup := h.nodup session inner hinner
    have hclosed := closeRef_closed server handle inner.remote
    refine (h.release media).session { inner with
      remote := endState (closeRef server handle inner.remote) } ?_ fun m handle' size hm => ?_
    · rcases hclosed with hsame | herased
      · simp only [hsame]
        exact hnodup
      · simp only [herased]
        exact hnodup.erase _
    · by_cases hmm : m = media
      · simp [hmm] at hm
      · rw [Function.update_of_ne hmm] at hm
        have hin := h.there m session handle' size inner hm hinner
        have hne : handle'.fid ≠ handle.fid := fun hfid =>
          hmm (h.apart m media session handle' handle size _ hm hmedia hfid)
        rcases hclosed with hsame | herased
        · simp only [hsame]
          exact hin
        · simp only [herased]
          exact (List.mem_erase_of_ne hne).mpr hin
  | freed => exact h.release _

end CifsClientStream.Ffi.Bridge
