import CifsClientStream.Ffi.Bridge
import CifsClientStream.Smb.OpenReply

/-!
# An app that keeps track of its pointers

An app that hands in only pointers that it was given and has not given back,
and closes a session after its files, stays within the memory of the library,
whatever the servers do and wherever new boxes lie (`bridge_safe`).
-/

namespace CifsClientStream.Ffi.Bridge
open Cursor Async Smb Utils Boxes
open Cifs hiding list
open Mailbox (receive readFor)
open CifsClientStream.Stream (Remote FileServer openfile closeRef fileCommand_ok_iff)

/-- What the app takes a pointer for; a file, with the session that it was opened in. -/
inductive Kind where
  | session
  | media (session : Pointer)
  | text
  deriving DecidableEq, Repr

def Object.kind : Object → Kind
  | .session _ => .session
  | .media parent _ _ => .media parent
  | .text _ => .text

/-- A box as it is between two calls. -/
def Object.Whole : Object → Prop
  | .session inner => inner.isSome
  | .media _ handle fileSize => ∃ h, handle = some h ∧ fileSize = h.size
  | .text _ => True

abbrev Owned := Pointer → Option Kind

namespace BridgeCall

/-- The pointer that is given back with a call. -/
def frees : BridgeCall → Option Pointer
  | .mediaClose media _ => some media
  | .sessionClose session _ => some session
  | .freeString text => some text
  | _ => none

/-- What a call gives out when it succeeds. -/
def makes : BridgeCall → Option Kind
  | .sessionOpen .. => some .session
  | .sessionOpenMedia session .. => some (.media session)
  | _ => none

end BridgeCall

namespace Owned

def without (owned : Owned) : Option Pointer → Owned
  | some p => Function.update owned p none
  | none => owned

def withObject (owned : Owned) (p : Pointer) : Option Kind → Owned
  | some kind => if p = 0 then owned else Function.update owned p (some kind)
  | none => owned

def withText (owned : Owned) : Option Pointer → Owned
  | some p => Function.update owned p (some .text)
  | none => owned

/-- What the app owns after a call. -/
def after (owned : Owned) (call : BridgeCall) (r : Returned) : Owned :=
  ((owned.without call.frees).withObject r.object call.makes).withText r.text

/-- The pointer is null, or one of the app's of this kind. -/
def Has (owned : Owned) (p : Pointer) (kind : Kind → Prop) : Prop :=
  p = 0 ∨ ∃ k, owned p = some k ∧ kind k

/-- What the app may call. -/
def Permits (owned : Owned) : BridgeCall → Prop
  | .bridgeVersion => True
  | .smbProbe .. => True
  | .smbList .. => True
  | .smbListJson .. => True
  | .sessionOpen .. => True
  | .sessionListJson session .. => owned.Has session (· = .session)
  | .sessionOpenMedia session .. => owned.Has session (· = .session)
  | .mediaReadAt media .. => owned.Has media fun k => ∃ session, k = .media session
  | .mediaSize media => owned.Has media fun k => ∃ session, k = .media session
  | .mediaClose media _ => owned.Has media fun k => ∃ session, k = .media session
  | .sessionClose session _ =>
    owned.Has session (· = .session) ∧ ∀ media, owned media ≠ some (.media session)
  | .freeString text => owned.Has text (· = .text)

end Owned

/-- The allocator gives out memory that is not in use. -/
structure Alloc.Fresh (a : Alloc) (heap : Heap Object) : Prop where
  object_ne : a.object ≠ 0
  text_ne : a.text ≠ 0
  apart : a.object ≠ a.text
  object : heap a.object = none
  text : heap a.text = none

/-- The boxes are those that the app owns, none of them was closed, and each file belongs to an
open session. -/
structure Holds (owned : Owned) (heap : Heap Object) : Prop where
  tracks : Tracks Object.kind owned heap
  whole : ∀ p o, heap p = some o → o.Whole
  null : owned 0 = none
  parents : ∀ media session, owned media = some (.media session) → owned session = some .session

/-! ### What a call does to the boxes -/

inductive Change : BridgeCall → Alloc → Heap Object → Pointer → Heap Object → Prop
  | nothing {call : BridgeCall} {a : Alloc} {heap : Heap Object} : call.frees = none ∨ call.frees = some 0 →
      Change call a heap 0 heap
  | sessionOpened {call : BridgeCall} {a : Alloc} {heap : Heap Object} {inner : Inner} :
    call.makes = some .session → call.frees = none → inner.remote.openFiles = [] →
      Change call a heap a.object (Function.update heap a.object (some (.session (some inner))))
  | used {call : BridgeCall} {a : Alloc} {heap : Heap Object} {session : Pointer} {inner : Inner}
    {cifs : Cifs} : call.frees = none → heap session = some (.session (some inner)) →
      Change call a heap 0 (Function.update heap session
        (some (.session (some { inner with remote := { inner.remote with cifs } }))))
  | openFailed {a : Alloc} {heap : Heap Object} {session : Pointer} {path : CArg}
    {server : FileServer} {outMessage : Bool} {inner : Inner} {name : CText} {e : Stop Error} {remote : Remote} :
    requiredCString path "path" = .ok name → heap session = some (.session (some inner)) →
      openfile server inner.share name.text inner.remote = .error e remote →
      Change (.sessionOpenMedia session path server outMessage) a heap 0
        (Function.update heap session (some (.session (some { inner with remote }))))
  | mediaOpened {a : Alloc} {heap : Heap Object} {session : Pointer} {path : CArg}
    {server : FileServer} {outMessage : Bool} {inner : Inner} {name : CText} {handle : Handle} {remote : Remote} :
    requiredCString path "path" = .ok name → heap session = some (.session (some inner)) →
      openfile server inner.share name.text inner.remote = .ok handle remote →
      Change (.sessionOpenMedia session path server outMessage) a heap a.object
        (Function.update (Function.update heap session (some (.session (some { inner with remote }))))
          a.object (some (.media session (some handle) handle.size)))
  | mediaClosed {a : Alloc} {heap : Heap Object} {media session : Pointer} {server : FileServer}
    {handle : Handle} {inner : Inner} : heap media = some (.media session (some handle) handle.size) →
      heap session = some (.session (some inner)) →
      Change (.mediaClose media server) a heap 0
        (Function.update (Function.update heap media none) session
          (some (.session (some { inner with remote := endState (closeRef server handle inner.remote) }))))
  | freed {call : BridgeCall} {a : Alloc} {heap : Heap Object} {p : Pointer} : call.frees = some p →
    (∀ media server, call ≠ .mediaClose media server) → p ≠ 0 →
      Change call a heap 0 (Function.update heap p none)

/-- A text comes last. -/
def Effect (call : BridgeCall) (a : Alloc) (heap : Heap Object) (r : Returned) (heap' : Heap Object) :
    Prop :=
  ∃ changed, Change call a heap r.object changed ∧
    (r.text = none ∧ heap' = changed ∨
      ∃ bytes, r.text = some a.text ∧ heap' = Function.update changed a.text (some (.text bytes)))

variable {crypto : Ntlm.Crypto} {toLowercase : String → String} {io : IoText}
variable {owned : Owned} {heap heap' changed : Heap Object} {a : Alloc} {call : BridgeCall} {r : Returned}
  {p s : Pointer}

theorem Holds.session_at (h : Holds owned heap) (hp : owned p = some .session) :
    ∃ inner, heap p = some (.session (some inner)) := by
  obtain ⟨o, ho, hkind⟩ := h.tracks.find hp
  have hwhole := h.whole p o ho
  cases o with
  | session inner =>
    obtain ⟨inner, rfl⟩ := Option.isSome_iff_exists.mp hwhole
    exact ⟨inner, ho⟩
  | media _ _ _ => cases hkind
  | text _ => cases hkind

theorem Holds.media_at (h : Holds owned heap) (hp : owned p = some (.media s)) :
    ∃ handle, heap p = some (.media s (some handle) handle.size) := by
  obtain ⟨o, ho, hkind⟩ := h.tracks.find hp
  have hwhole := h.whole p o ho
  cases o with
  | session _ => cases hkind
  | media _ _ _ =>
    obtain ⟨handle, rfl, rfl⟩ := hwhole
    cases hkind
    exact ⟨handle, ho⟩
  | text _ => cases hkind

theorem setOutMessage_effect (outMessage : Bool) (message : String) {n : ℤ} {copied : Bytes}
    {object : Pointer} (h : Change call a heap object changed) :
    Safe (setOutMessage outMessage a message >>= fun text =>
      (pure ⟨object, text, n, copied⟩ : Raw Object Returned)) changed (Effect call a heap) := by
  cases outMessage with
  | false => exact Safe.bind (Safe.pure (Safe.pure ⟨changed, h, Or.inl ⟨rfl, rfl⟩⟩))
  | true =>
    refine Safe.bind ?_
    simp only [setOutMessage, if_true, giveText]
    cases stringIntoRaw message with
    | error e => exact safe_abort
    | ok bytes => exact ⟨changed, h, Or.inr ⟨bytes, rfl, rfl⟩⟩

theorem textReturned_effect (value : String) (h : Change call a heap 0 changed) :
    Safe (textReturned a value) changed (Effect call a heap) := by
  refine Safe.bind ?_
  rw [giveText]
  cases stringIntoRaw value with
  | error e => exact safe_abort
  | ok bytes => exact ⟨changed, h, Or.inr ⟨bytes, rfl, rfl⟩⟩

theorem openReturned_effect (operation : String) (outMessage : Bool)
    {result : Except (Fault String) String}
    (h : Change call a heap (if result.isOk then a.object else 0) changed) :
    Safe (openReturned operation outMessage a result) changed (Effect call a heap) := by
  cases result with
  | error e => exact setOutMessage_effect outMessage _ h
  | ok message => exact setOutMessage_effect outMessage _ h

theorem messageReturned_effect (operation : String) (result : Except (Fault String) String)
    (h : Change call a heap 0 changed) :
    Safe (messageReturned operation a result) changed (Effect call a heap) := by
  cases result with
  | error e => exact textReturned_effect _ h
  | ok message => exact textReturned_effect _ h

theorem jsonReturned_effect (operation : String) (result : Except (Fault String) String)
    (h : Change call a heap 0 changed) :
    Safe (jsonReturned operation a result) changed (Effect call a heap) := by
  rcases result with (message | _) | message
  · exact textReturned_effect _ h
  · exact textReturned_effect _ h
  · exact textReturned_effect _ h

theorem readReturned_effect (outMessage : Bool) (result : Except (Fault String) (ℕ × Bytes))
    (h : Change call a heap 0 changed) :
    Safe (readReturned outMessage a result) changed (Effect call a heap) := by
  rcases result with (message | _) | ⟨count, copied⟩
  · exact setOutMessage_effect outMessage _ h
  · exact setOutMessage_effect outMessage _ h
  · exact Safe.pure ⟨changed, h, Or.inl ⟨rfl, rfl⟩⟩

/-- A new session has no file open. -/
theorem openSession_files {host shareName user password : String} {o : Opening} {inner : Inner}
    (h : openSession crypto io host shareName user password o = .ok inner) :
    inner.remote.openFiles = [] := by
  unfold openSession at h
  obtain ⟨cifs, -, h⟩ := except_bind_ok.mp h
  obtain ⟨share, -, h⟩ := except_bind_ok.mp h
  cases h
  rfl

theorem sessionOpenFromC_files {host share user password : CArg} {o : Opening} {inner : Inner}
    {message : String} (h : sessionOpenFromC crypto io host share user password o = .ok (inner, message)) :
    inner.remote.openFiles = [] := by
  unfold sessionOpenFromC at h
  obtain ⟨host, -, h⟩ := except_bind_ok.mp h
  obtain ⟨share, -, h⟩ := except_bind_ok.mp h
  obtain ⟨user, -, h⟩ := except_bind_ok.mp h
  obtain ⟨password, -, h⟩ := except_bind_ok.mp h
  obtain ⟨⟨⟩, -, h⟩ := except_bind_ok.mp h
  obtain ⟨opened, hopen, h⟩ := except_bind_ok.mp h
  cases h
  exact openSession_files hopen

theorem sessionOpen_effect (host share user password : CArg) (o : Opening) (outMessage : Bool) :
    Safe (sessionOpen crypto io host share user password o outMessage a) heap
      (Effect (.sessionOpen host share user password o outMessage) a heap) := by
  unfold sessionOpen
  cases hopen : sessionOpenFromC crypto io host share user password o with
  | error e => exact openReturned_effect _ outMessage (.nothing (Or.inl rfl))
  | ok opened =>
    obtain ⟨inner, message⟩ := opened
    exact Safe.bind (safe_put (openReturned_effect _ outMessage
      (.sessionOpened rfl rfl (sessionOpenFromC_files hopen))))

theorem sessionListJson_effect (h : Holds owned heap) (session : Pointer) (path : CArg)
    (maxEntries : UInt64) (server : SearchServer) (elapsedMs : UInt64)
    (hpermits : owned.Has session (· = .session)) :
    Safe (sessionListJson toLowercase io session path maxEntries server elapsedMs a) heap
      (Effect (.sessionListJson session path maxEntries server elapsedMs) a heap) := by
  refine Safe.bind ?_
  unfold sessionListJsonFromC
  by_cases hnull : session = 0
  · rw [if_pos hnull]
    exact Safe.pure (jsonReturned_effect "session_list_json" _ (.nothing (Or.inl rfl)))
  · rw [if_neg hnull]
    obtain ⟨kind, hkind, rfl⟩ := hpermits.resolve_left hnull
    obtain ⟨inner, hinner⟩ := h.session_at hkind
    refine Safe.bind (safe_deref hinner rfl ?_)
    cases optionalCString path with
    | error e => exact Safe.pure (jsonReturned_effect "session_list_json" _ (.nothing (Or.inl rfl)))
    | ok path =>
      refine Safe.bind (safe_put (Safe.pure ?_))
      exact jsonReturned_effect "session_list_json" _ (.used rfl hinner)

theorem sessionOpenMedia_effect (h : Holds owned heap) (session : Pointer) (path : CArg)
    (server : FileServer) (outMessage : Bool) (hpermits : owned.Has session (· = .session)) :
    Safe (sessionOpenMedia io session path server outMessage a) heap
      (Effect (.sessionOpenMedia session path server outMessage) a heap) := by
  refine Safe.bind ?_
  unfold sessionOpenMediaFromC
  by_cases hnull : session = 0
  · rw [if_pos hnull]
    exact Safe.pure (openReturned_effect _ outMessage (.nothing (Or.inl rfl)))
  · rw [if_neg hnull]
    obtain ⟨kind, hkind, rfl⟩ := hpermits.resolve_left hnull
    obtain ⟨inner, hinner⟩ := h.session_at hkind
    refine Safe.bind (safe_deref hinner rfl ?_)
    cases hname : requiredCString path "path" with
    | error e => exact Safe.pure (openReturned_effect _ outMessage (.nothing (Or.inl rfl)))
    | ok name =>
      dsimp only
      cases hopen : openfile server inner.share name.text inner.remote with
      | ok handle remote =>
        exact Safe.bind (safe_put (Safe.bind (safe_put (Safe.pure
          (openReturned_effect _ outMessage (.mediaOpened hname hinner hopen))))))
      | error e remote =>
        have hfailed : Change (.sessionOpenMedia session path server outMessage) a heap 0
            (Function.update heap session (some (.session (some { inner with remote })))) :=
          .openFailed hname hinner hopen
        cases e with
        | error e => exact Safe.bind (safe_put (Safe.pure (openReturned_effect _ outMessage hfailed)))
        | panic => exact Safe.bind (safe_put (Safe.pure (openReturned_effect _ outMessage hfailed)))
        | dropped => exact Safe.bind (safe_put (Safe.pure (openReturned_effect _ outMessage hfailed)))

theorem mediaReadAt_effect (h : Holds owned heap) (media : Pointer) (offset : UInt64)
    (bufferIsNull : Bool) (bufferLen : UInt64) (server : ReadServer) (outMessage : Bool)
    (hpermits : owned.Has media fun k => ∃ session, k = .media session) :
    Safe (mediaReadAt io media offset bufferIsNull bufferLen server outMessage a) heap
      (Effect (.mediaReadAt media offset bufferIsNull bufferLen server outMessage) a heap) := by
  have hnothing (result : Except (Fault String) (ℕ × Bytes)) :
      Safe (pure result >>= readReturned outMessage a) heap
        (Effect (.mediaReadAt media offset bufferIsNull bufferLen server outMessage) a heap) :=
    Safe.bind (Safe.pure (readReturned_effect outMessage result (.nothing (Or.inl rfl))))
  unfold mediaReadAt mediaReadAtFromC
  by_cases hnull : media = 0
  · rw [if_pos hnull]
    exact hnothing _
  · rw [if_neg hnull]
    obtain ⟨kind, hkind, session, rfl⟩ := hpermits.resolve_left hnull
    obtain ⟨handle, hmedia⟩ := h.media_at hkind
    obtain ⟨inner, hinner⟩ := h.session_at (h.parents _ _ hkind)
    rw [bind_assoc]
    refine Safe.bind (safe_deref hmedia rfl ?_)
    dsimp only
    cases bufferIsNull with
    | true => exact hnothing _
    | false =>
      rw [if_neg Bool.false_ne_true]
      by_cases hlen : bufferLen = 0
      · rw [if_pos hlen]
        exact hnothing _
      · rw [if_neg hlen]
        by_cases hsession : session = 0
        · rw [if_pos hsession]
          exact hnothing _
        · rw [if_neg hsession, bind_assoc]
          refine Safe.bind (safe_deref hinner rfl ?_)
          rw [bind_assoc]
          exact Safe.bind (safe_put (Safe.bind (Safe.pure
            (readReturned_effect outMessage _ (.used rfl hinner)))))

/-- On a file of the app a read is the one of `Ffi.mediaReadAtFromC`, on the connection of its session. -/
theorem mediaReadAt_open {media session : Pointer} {handle : Handle} {size : UInt64} {inner : Inner}
    (hmedia : heap media = some (.media session (some handle) size))
    (hinner : heap session = some (.session (some inner))) (hmedia0 : media ≠ 0) (hsession0 : session ≠ 0)
    (offset : UInt64) (bufferIsNull : Bool) (bufferLen : UInt64) (server : ReadServer) :
    ∃ heap', mediaReadAtFromC io media offset bufferIsNull bufferLen server heap =
      .ok (readEnd (Ffi.mediaReadAtFromC (formatError io) server (some ⟨some ⟨true⟩, some handle⟩)
        offset bufferIsNull bufferLen (Reading.start inner.remote.cifs))).1 heap' := by
  have hfile : deref Object.asMedia media heap = .ok (session, some handle, size) heap :=
    deref_ok hmedia rfl
  have hconnection : deref Object.asSession session heap = .ok (some inner) heap :=
    deref_ok hinner rfl
  have hlen : bufferLen.toNat = 0 ↔ bufferLen = 0 := by
    simp [← UInt64.toNat_inj]
  unfold mediaReadAtFromC
  rw [if_neg hmedia0, raw_bind hfile]
  cases bufferIsNull with
  | true => exact ⟨heap, rfl⟩
  | false =>
    by_cases hzero : bufferLen = 0
    · subst hzero
      exact ⟨heap, rfl⟩
    · simp only [Bool.false_eq_true, if_false, if_neg hzero, if_neg hsession0, raw_bind hconnection,
        Ffi.mediaReadAtFromC, hlen, Bool.not_true]
      exact ⟨_, rfl⟩

theorem mediaSize_effect (h : Holds owned heap) (media : Pointer)
    (hpermits : owned.Has media fun k => ∃ session, k = .media session) :
    Safe (mediaSize media) heap (Effect (.mediaSize media) a heap) := by
  have hnothing (n : ℤ) : Effect (.mediaSize media) a heap ⟨0, none, n, []⟩ heap :=
    ⟨heap, .nothing (Or.inl rfl), Or.inl ⟨rfl, rfl⟩⟩
  unfold mediaSize
  by_cases hnull : media = 0
  · rw [if_pos hnull]
    exact Safe.pure (hnothing 0)
  · rw [if_neg hnull]
    obtain ⟨kind, hkind, session, rfl⟩ := hpermits.resolve_left hnull
    obtain ⟨handle, hmedia⟩ := h.media_at hkind
    exact Safe.bind (safe_deref hmedia rfl (Safe.pure (hnothing _)))

/-- A call that returns nothing. -/
theorem silent_effect {α : Type} {x : Raw Object α}
    (h : Safe x heap fun _ changed => Change call a heap 0 changed) :
    Safe (x >>= fun _ => (pure ⟨0, none, 0, []⟩ : Raw Object Returned)) heap (Effect call a heap) :=
  Safe.bind (h.mono fun _ changed hchange => ⟨changed, hchange, Or.inl ⟨rfl, rfl⟩⟩)

theorem mediaClose_effect (h : Holds owned heap) (media : Pointer) (server : FileServer)
    (hpermits : owned.Has media fun k => ∃ session, k = .media session) :
    Safe (mediaClose media server) heap fun _ changed => Change (.mediaClose media server) a heap 0 changed := by
  unfold mediaClose
  by_cases hnull : media = 0
  · rw [if_pos hnull]
    exact Safe.pure (.nothing (Or.inr (by rw [hnull]; rfl)))
  · rw [if_neg hnull]
    obtain ⟨kind, hkind, session, rfl⟩ := hpermits.resolve_left hnull
    obtain ⟨handle, hmedia⟩ := h.media_at hkind
    have hparent := h.parents _ _ hkind
    obtain ⟨inner, hinner⟩ := h.session_at hparent
    have hsession : session ≠ 0 := by
      rintro rfl
      rw [h.null] at hparent
      cases hparent
    have hne : session ≠ media := by
      rintro rfl
      rw [hmedia] at hinner
      cases hinner
    refine Safe.bind (safe_deref hmedia rfl (Safe.bind (safe_release ?_)))
    dsimp only
    rw [if_neg hsession]
    have hthere : Function.update heap media none session = some (.session (some inner)) := by
      rw [Function.update_of_ne hne, hinner]
    exact Safe.bind (safe_deref hthere rfl (safe_put (.mediaClosed hmedia hinner)))

theorem sessionClose_effect (h : Holds owned heap) (session : Pointer)
    (sent : Cifs → List Arrival × List WriteStep) (hpermits : owned.Has session (· = .session)) :
    Safe (sessionClose session sent) heap fun _ changed =>
      Change (.sessionClose session sent) a heap 0 changed := by
  unfold sessionClose
  by_cases hnull : session = 0
  · rw [if_pos hnull]
    exact Safe.pure (.nothing (Or.inr (by rw [hnull]; rfl)))
  · rw [if_neg hnull]
    obtain ⟨kind, hkind, rfl⟩ := hpermits.resolve_left hnull
    obtain ⟨inner, hinner⟩ := h.session_at hkind
    exact Safe.bind (safe_deref hinner rfl (Safe.bind (safe_release (Safe.pure
      (.freed rfl nofun hnull)))))

theorem freeString_effect (h : Holds owned heap) (text : Pointer)
    (hpermits : owned.Has text (· = .text)) :
    Safe (freeString text) heap fun _ changed => Change (.freeString text) a heap 0 changed := by
  unfold freeString
  by_cases hnull : text = 0
  · rw [if_pos hnull]
    exact Safe.pure (.nothing (Or.inr (by rw [hnull]; rfl)))
  · rw [if_neg hnull]
    obtain ⟨kind, hkind, rfl⟩ := hpermits.resolve_left hnull
    obtain ⟨o, ho, htext⟩ := h.tracks.find hkind
    cases o with
    | session _ => cases htext
    | media _ _ _ => cases htext
    | text bytes =>
      exact Safe.bind (safe_deref ho rfl (safe_release (.freed rfl nofun hnull)))

/-- What a call of such an app does. -/
theorem call_effect (h : Holds owned heap) (hpermits : owned.Permits call) :
    Safe (call.run crypto toLowercase io a) heap (Effect call a heap) := by
  have hnothing (call : BridgeCall) (hfrees : call.frees = none) : Change call a heap 0 heap :=
    .nothing (Or.inl hfrees)
  cases call with
  | bridgeVersion => exact textReturned_effect BRIDGE_VERSION (hnothing _ rfl)
  | smbProbe => exact messageReturned_effect _ _ (hnothing _ rfl)
  | smbList => exact messageReturned_effect _ _ (hnothing _ rfl)
  | smbListJson => exact jsonReturned_effect _ _ (hnothing _ rfl)
  | sessionOpen host share user password o outMessage =>
    exact sessionOpen_effect host share user password o outMessage
  | sessionListJson session path maxEntries server elapsedMs =>
    exact sessionListJson_effect h session path maxEntries server elapsedMs hpermits
  | sessionOpenMedia session path server outMessage =>
    exact sessionOpenMedia_effect h session path server outMessage hpermits
  | mediaReadAt media offset bufferIsNull bufferLen server outMessage =>
    exact mediaReadAt_effect h media offset bufferIsNull bufferLen server outMessage hpermits
  | mediaSize media => exact mediaSize_effect h media hpermits
  | mediaClose media server => exact silent_effect (mediaClose_effect h media server hpermits)
  | sessionClose session sent => exact silent_effect (sessionClose_effect h session sent hpermits.1)
  | freeString text => exact silent_effect (freeString_effect h text hpermits)

/-! ### What the app owns afterwards -/

theorem Holds.new {o : Object} (h : Holds owned heap) (hfree : owned p = none) (hp : p ≠ 0)
    (hwhole : o.Whole) (hparent : ∀ s, o.kind = .media s → owned s = some .session) :
    Holds (Function.update owned p (some o.kind)) (Function.update heap p (some o)) := by
  refine ⟨h.tracks.put p o, fun q o' hq => ?_, ?_, fun m s hm => ?_⟩
  · by_cases hqp : q = p
    · simp only [hqp, Function.update_self, Option.some.injEq] at hq
      exact hq ▸ hwhole
    · rw [Function.update_of_ne hqp] at hq
      exact h.whole q o' hq
  · rw [Function.update_of_ne hp.symm, h.null]
  · have hs : owned s = some .session := by
      by_cases hmp : m = p
      · simp only [hmp, Function.update_self, Option.some.injEq] at hm
        exact hparent s hm
      · rw [Function.update_of_ne hmp] at hm
        exact h.parents m s hm
    have hne : s ≠ p := by
      rintro rfl
      rw [hfree] at hs
      cases hs
    rw [Function.update_of_ne hne, hs]

theorem Holds.change {o : Object} (h : Holds owned heap) (hkind : owned p = some o.kind)
    (hwhole : o.Whole) : Holds owned (Function.update heap p (some o)) := by
  refine ⟨h.tracks.change hkind, fun q o' hq => ?_, h.null, h.parents⟩
  by_cases hqp : q = p
  · simp only [hqp, Function.update_self, Option.some.injEq] at hq
    exact hq ▸ hwhole
  · rw [Function.update_of_ne hqp] at hq
    exact h.whole q o' hq

/-- A box may go if no file belongs to it. -/
theorem Holds.release (h : Holds owned heap) (hno : ∀ m, owned m ≠ some (.media p)) :
    Holds (Function.update owned p none) (Function.update heap p none) := by
  refine ⟨h.tracks.release p, fun q o' hq => ?_, ?_, fun m s hm => ?_⟩
  · by_cases hqp : q = p
    · simp [hqp] at hq
    · rw [Function.update_of_ne hqp] at hq
      exact h.whole q o' hq
  · by_cases hp : p = 0
    · simp [hp]
    · rw [Function.update_of_ne (Ne.symm hp), h.null]
  · by_cases hmp : m = p
    · simp [hmp] at hm
    · rw [Function.update_of_ne hmp] at hm
      have hne : s ≠ p := by
        rintro rfl
        exact hno m hm
      rw [Function.update_of_ne hne]
      exact h.parents m s hm

/-- Only a session is the parent of a file. -/
theorem Holds.childless (h : Holds owned heap) (hp : owned p ≠ some .session) :
    ∀ m, owned m ≠ some (.media p) := fun m hm => hp (h.parents m p hm)

theorem Holds.kind_at {o : Object} (h : Holds owned heap) (ho : heap p = some o) :
    owned p = some o.kind := by
  rw [← h.tracks p, ho]
  rfl

/-- A session stays one, whatever becomes of its connection. -/
theorem Holds.session_used {inner inner' : Inner} (h : Holds owned heap)
    (hinner : heap p = some (.session (some inner))) :
    Holds owned (Function.update heap p (some (.session (some inner')))) := by
  have hkind : owned p = some .session := h.kind_at hinner
  exact h.change hkind rfl

theorem Holds.kept {object : Pointer} (h : Holds owned heap) (hpermits : owned.Permits call)
    (hfresh : a.Fresh heap) (hchange : Change call a heap object changed) :
    Holds ((owned.without call.frees).withObject object call.makes) changed := by
  have hobject : owned a.object = none := h.tracks.free.mp hfresh.object
  have hzero (owned : Owned) (kind : Option Kind) : owned.withObject 0 kind = owned := by
    cases kind <;> simp [Owned.withObject]
  cases hchange with
  | nothing hfrees =>
    rw [hzero]
    rcases hfrees with hfrees | hfrees
    · rw [hfrees]
      exact h
    · rw [hfrees]
      have hsame : Function.update owned 0 none = owned := by
        rw [← h.null]
        exact Function.update_eq_self 0 owned
      rw [Owned.without, hsame]
      exact h
  | @sessionOpened _ _ _ inner hmakes hfrees hfiles =>
    rw [hfrees, hmakes, Owned.withObject, if_neg hfresh.object_ne]
    have hparent (s : Pointer) (hs : Kind.session = .media s) : owned s = some .session := nomatch hs
    exact h.new (o := .session (some inner)) hobject hfresh.object_ne rfl hparent
  | used hfrees hinner =>
    rw [hzero, hfrees]
    exact h.session_used hinner
  | openFailed hname hinner hopen =>
    rw [hzero]
    exact h.session_used hinner
  | @mediaOpened _ _ session path server outMessage inner name handle remote hname hinner hopen =>
    have hkind := h.kind_at hinner
    have hmade : (owned.without (BridgeCall.sessionOpenMedia session path server outMessage).frees).withObject
        a.object (BridgeCall.sessionOpenMedia session path server outMessage).makes =
        Function.update owned a.object (some (.media session)) := if_neg hfresh.object_ne
    rw [hmade]
    refine (h.session_used hinner).new (o := .media session (some handle) handle.size) hobject hfresh.object_ne ⟨handle, rfl, rfl⟩ ?_
    rintro s hs
    cases hs
    exact hkind
  | @mediaClosed _ _ media session server handle inner hmedia hinner =>
    rw [hzero]
    have hkind := h.kind_at hinner
    have hne : session ≠ media := by
      rintro rfl
      rw [hmedia] at hinner
      cases hinner
    have hgone := h.release (h.childless (p := media) (by rw [h.kind_at hmedia]; nofun))
    refine hgone.change ?_ rfl
    rw [Function.update_of_ne hne]
    exact hkind
  | @freed _ _ _ p hfrees hnot hp =>
    rw [hzero, hfrees]
    refine h.release fun m hm => ?_
    have hparent := h.parents m p hm
    cases call with
    | mediaClose media server => exact hnot media server rfl
    | sessionClose session sent =>
      cases hfrees
      exact hpermits.2 m hm
    | freeString text =>
      cases hfrees
      obtain ⟨kind, hkind, rfl⟩ := hpermits.resolve_left hp
      rw [hkind] at hparent
      cases hparent
    | bridgeVersion => cases hfrees
    | smbProbe => cases hfrees
    | smbList => cases hfrees
    | smbListJson => cases hfrees
    | sessionOpen => cases hfrees
    | sessionListJson => cases hfrees
    | sessionOpenMedia => cases hfrees
    | mediaReadAt => cases hfrees
    | mediaSize => cases hfrees

theorem Change.text_free {object : Pointer} (hfresh : a.Fresh heap)
    (hchange : Change call a heap object changed) : changed a.text = none := by
  have hother {p : Pointer} {o : Object} (hp : heap p = some o) : a.text ≠ p := by
    rintro rfl
    rw [hfresh.text] at hp
    cases hp
  cases hchange with
  | nothing => exact hfresh.text
  | sessionOpened => rw [Function.update_of_ne hfresh.apart.symm, hfresh.text]
  | used _ hinner => rw [Function.update_of_ne (hother hinner), hfresh.text]
  | openFailed _ hinner => rw [Function.update_of_ne (hother hinner), hfresh.text]
  | mediaOpened _ hinner =>
    rw [Function.update_of_ne hfresh.apart.symm, Function.update_of_ne (hother hinner), hfresh.text]
  | mediaClosed hmedia hinner =>
    rw [Function.update_of_ne (hother hinner), Function.update_of_ne (hother hmedia), hfresh.text]
  | @freed _ _ _ p =>
    by_cases hp : a.text = p
    · rw [hp, Function.update_self]
    · rw [Function.update_of_ne hp, hfresh.text]

theorem Holds.after (h : Holds owned heap) (hpermits : owned.Permits call) (hfresh : a.Fresh heap)
    (heffect : Effect call a heap r heap') : Holds (owned.after call r) heap' := by
  obtain ⟨changed, hchange, htext⟩ := heffect
  have hchanged := h.kept hpermits hfresh hchange
  rcases htext with ⟨hnone, rfl⟩ | ⟨bytes, hsome, rfl⟩
  · rw [Owned.after, hnone]
    exact hchanged
  · rw [Owned.after, hsome]
    exact hchanged.new (o := .text bytes) (hchanged.tracks.free.mp (hchange.text_free hfresh))
      hfresh.text_ne trivial nofun

/-! ### Closing in the wrong order -/

/-- A file that is closed behind its session goes through the pointer of the session. -/
theorem mediaClose_dangling (h : Holds owned heap) (hp : owned p = some (.media s))
    (sent : Cifs → List Arrival × List WriteStep) (server : FileServer) :
    ∃ r heap1 heap2, (BridgeCall.sessionClose s sent).run crypto toLowercase io a heap = .ok r heap1 ∧
      (BridgeCall.mediaClose p server).run crypto toLowercase io a heap1 = .error .undefined heap2 := by
  have hparent := h.parents p s hp
  obtain ⟨inner, hinner⟩ := h.session_at hparent
  obtain ⟨handle, hmedia⟩ := h.media_at hp
  have hnull {q : Pointer} {kind : Kind} (hq : owned q = some kind) : q ≠ 0 := by
    rintro rfl
    rw [h.null] at hq
    cases hq
  have hne : p ≠ s := by
    rintro rfl
    rw [hmedia] at hinner
    cases hinner
  refine ⟨⟨0, none, 0, []⟩, Function.update heap s none,
    Function.update (Function.update heap s none) p none, ?_, ?_⟩
  · have hfirst : deref Object.asSession s heap = .ok (some inner) heap := deref_ok hinner rfl
    have hclose : sessionClose s sent heap = .ok (some (endState (umount inner.share
        (inner.remote.cifs.arrive (sent inner.remote.cifs).1 (sent inner.remote.cifs).2))))
        (Function.update heap s none) := by
      rw [sessionClose, if_neg (hnull hparent), raw_bind hfirst]
      rfl
    rw [BridgeCall.run, raw_bind hclose]
    rfl
  · have hstill : Function.update heap s none p = some (.media s (some handle) handle.size) := by
      rw [Function.update_of_ne hne, hmedia]
    have hgone : Function.update (Function.update heap s none) p none s = none := by
      rw [Function.update_of_ne hne.symm, Function.update_self]
    have hfirst : deref Object.asMedia p (Function.update heap s none) =
        .ok (s, some handle, handle.size) (Function.update heap s none) := deref_ok hstill rfl
    have hrelease : release p (Function.update heap s none) =
        .ok ⟨⟩ (Function.update (Function.update heap s none) p none) := rfl
    rw [BridgeCall.run]
    refine raw_bind_error ?_
    rw [mediaClose, if_neg (hnull hp), raw_bind hfirst]
    dsimp only
    rw [raw_bind hrelease, if_neg (hnull hparent)]
    exact raw_bind_error (deref_dangling _ hgone)

/-! ### Whole programs -/

/-- What an app that keeps to its pointers can reach with calls of this kind, and what it owns
then. -/
inductive Reached (crypto : Ntlm.Crypto) (toLowercase : String → String) (io : IoText)
    (kind : Heap Object → BridgeCall → Prop) : Owned → Heap Object → Prop
  | start : Reached crypto toLowercase io kind (fun _ => none) fun _ => none
  | call {owned : Owned} {heap heap' : Heap Object} {a : Alloc} {call : BridgeCall} {r : Returned} :
    Reached crypto toLowercase io kind owned heap → kind heap call → owned.Permits call → a.Fresh heap →
      call.run crypto toLowercase io a heap = .ok r heap' →
      Reached crypto toLowercase io kind (owned.after call r) heap'

variable {kind : Heap Object → BridgeCall → Prop}

theorem Reached.holds (h : Reached crypto toLowercase io kind owned heap) : Holds owned heap := by
  induction h with
  | start => exact ⟨fun p => rfl, nofun, rfl, nofun⟩
  | call _ _ hpermits hfresh hrun ih =>
    exact ih.after hpermits hfresh ((call_effect ih hpermits).returned hrun)

/-! ### An app that opens a film -/

def silentSystem : IoText := ⟨fun _ => "", fun _ => empty_text⟩

def message (reply : PendingReply) : Arrival := .frame 0 (.Message (reply.info.write ++ reply.body))

/-- A server with classic security, on which anyone may log in and mount. -/
def openServer : Opening where
  runtime := .ok ⟨⟩
  netbios := .ok ⟨[
    message (serverReply .Negotiate .SUCCESS 0 (putU8 17 ++ putU16Le 0 ++ putU8 3 ++ putU16Le 1 ++
      putU16Le 1 ++ putU32Le 65535 ++ putU32Le 65535 ++ putU32Le 0 ++ putU32Le Capabilities.UNICODE ++
      putU64Le 0 ++ putU16Le 0 ++ putU8 8 ++ putU16Le 8 ++ [1, 2, 3, 4, 5, 6, 7, 8])),
    message (serverReply .SessionSetup .SUCCESS 1 (putU8 3 ++ [0xff, 0, 0, 0] ++ putU16Le 0 ++
      putU16Le 0))], []⟩
  mount _ := ([message (serverReply .TreeConnect .SUCCESS 2 (putU8 3 ++ [0xff, 0, 0, 0] ++ putU16Le 0 ++
    putU16Le 5 ++ [0x41, 0x3a, 0, 0, 0]))], [])

/-- A film of eight bytes. -/
def filmReply (fid : UInt16) : OpenReply where
  chain := [0, 0, 6]
  oplock := 0
  fid
  disposition := 1
  createTime := 0
  accessTime := 0
  writeTime := 0
  changeTime := 0
  attributes := 0
  allocationSize := 8
  size := 8
  fileType := 0
  state := 0
  directory := false
  behind := [0, 0, 0, 0]
  chain_length := rfl
  behind_even := rfl
  behind_length := by decide

def nextFid (openFiles : List UInt16) : UInt16 := UInt16.ofNat (5 + openFiles.length)

def openedReply (mid fid : UInt16) : PendingReply :=
  serverReply .Create .SUCCESS mid ((filmReply fid).body [] [])

/-- Opens every file, under the next id. -/
def filmServer : FileServer := fun openFiles cifs _ =>
  { opened := some (nextFid openFiles)
    arrivals := [message (openedReply cifs.mid (nextFid openFiles))]
    writes := [] }

/-- The connection has nothing to read, and the next id is not in use. -/
structure Idle (remote : Remote) : Prop where
  unread : remote.cifs.netbios.incoming = []
  unstored : remote.cifs.pendingReplies remote.cifs.mid = none
  unused : nextFid remote.openFiles ∉ remote.openFiles

theorem openedReply_canonical (mid fid : UInt16) : (openedReply mid fid).info.Canonical where
  status := trivial
  reply := by
    have hreply : Win.contains Flags1.REPLY Flags1.REPLY := by decide
    exact hreply
  flags2 := by
    have hflags : (Info.default .Create).flags2 &&& Flags2.all = (Info.default .Create).flags2 := by decide
    exact hflags

theorem openedReply_parsed (mid fid : UInt16) :
    parseReply Handle (openedReply mid fid) =
      .ok ((filmReply fid).handle (Info.default .Create).tid) :=
  parseReply_success Handle rfl rfl
    ((filmReply fid).parse_body (openedReply mid fid).info [] [] (by decide))

theorem openedReply_heard (mid fid : UInt16) :
    heard [message (openedReply mid fid)] = [⟨openedReply mid fid, 0⟩] := by
  have hparse := parseFrame_write (openedReply_canonical mid fid) (openedReply mid fid).body
  rw [message, heard, hparse]
  rfl

theorem film_text : NulFree "film" := by decide

def film : CArg := .valid ⟨"film", film_text⟩

def openSessionCall : BridgeCall := .sessionOpen film film .null .null openServer false

def openFilmCall : BridgeCall := .sessionOpenMedia 16 film filmServer false

theorem filmServer_opens (share : Share) {remote : Remote} (h : Idle remote) : ∃ handle remote',
    openfile filmServer share "film" remote = .ok handle remote' := by
  have hfits (info : Info) : Encodes (Msg.Open.fileRo share.tid (sanitizePath "film")) info :=
    (message_encodes (.openFile (.fileRo share.tid (sanitizePath "film"))) info).mpr
      ⟨show 1 + (encodeUtf16Le0 (sanitizePath "film")).length < 65536 by decide +kernel, id⟩
  have hunread : (held (remote.asking filmServer (.openRo share.tid (sanitizePath "film")))).unread =
      [⟨openedReply remote.cifs.mid (nextFid remote.openFiles), 0⟩] := by
    rw [← openedReply_heard]
    simp [held, Remote.asking, Cifs.arrive, h.unread, filmServer]
  have htaken : taken (remote.asking filmServer (.openRo share.tid (sanitizePath "film"))) =
      .got ⟨openedReply remote.cifs.mid (nextFid remote.openFiles), 0⟩ := by
    have hstored : (held (remote.asking filmServer (.openRo share.tid (sanitizePath "film")))).stored
      remote.cifs.mid = none := h.unstored
    have hmid : (remote.asking filmServer (.openRo share.tid (sanitizePath "film"))).mid =
      remote.cifs.mid := rfl
    rw [taken, receive, hmid, hstored, hunread]
    simp [readFor, Delivery.mid, openedReply, serverReply]
  exact ⟨_, (fileCommand_ok_iff Handle ⟨hfits _, Or.inl rfl⟩ _).mpr
    ⟨_, htaken, openedReply_parsed remote.cifs.mid _⟩⟩

/-- The session at 16 is open, and nothing is under way in it. -/
def IdleAt (heap : Heap Object) : Prop :=
  ∃ inner, heap 16 = some (.session (some inner)) ∧ Idle inner.remote

theorem film_name : requiredCString film "path" = .ok ⟨"film", film_text⟩ := by
  have hblank : ¬(trim "film").isEmpty = true := by decide +kernel
  have hname : requiredCString film "path" = if (trim "film").isEmpty then
      .error ("path" ++ " must not be empty") else .ok ⟨"film", film_text⟩ := rfl
  rw [hname, if_neg hblank]

/-- The session stays where it is, and the new file comes to the given place. -/
theorem openFilm_run (h : IdleAt heap) : ∃ inner handle,
    openFilmCall.run silentCrypto id silentSystem a heap = .ok ⟨a.object, none, 0, []⟩
      (Function.update (Function.update heap 16 (some (.session (some inner)))) a.object
        (some (.media 16 (some handle) handle.size))) := by
  obtain ⟨inner, hinner, hidle⟩ := h
  obtain ⟨handle, remote, hopen⟩ := filmServer_opens inner.share hidle
  refine ⟨{ inner with remote }, handle, ?_⟩
  have hderef : deref Object.asSession 16 heap = .ok (some inner) heap := deref_ok hinner rfl
  rw [openFilmCall, BridgeCall.run, Bridge.sessionOpenMedia, sessionOpenMediaFromC]
  rw [if_neg (by decide), bind_assoc, raw_bind hderef, film_name]
  simp only [hopen, timed]
  rfl

def quietAt (heap : Heap Object) : Bool :=
  match heap 16 with
  | some (.session (some inner)) => inner.remote.cifs.netbios.incoming.isEmpty &&
      (inner.remote.cifs.pendingReplies inner.remote.cifs.mid).isNone &&
      !inner.remote.openFiles.contains (nextFid inner.remote.openFiles)
  | _ => false

theorem idleAt_of_quiet (h : quietAt heap) : IdleAt heap := by
  unfold quietAt at h
  split at h
  next inner hinner =>
    simp only [Bool.and_eq_true, List.isEmpty_iff, Option.isNone_iff_eq_none, Bool.not_eq_true',
      List.contains_eq_mem, decide_eq_false_iff_not] at h
    exact ⟨inner, hinner, h.1.1, h.1.2, h.2⟩
  next => cases h

def noHeap : Heap Object := fun _ => none

def sessionHeap : Heap Object :=
  endHeap (openSessionCall.run silentCrypto id silentSystem ⟨16, 24⟩ noHeap)

def filmHeap : Heap Object :=
  endHeap (openFilmCall.run silentCrypto id silentSystem ⟨32, 40⟩ sessionHeap)

def filmOwned : Owned :=
  ((Owned.after (fun _ => none) openSessionCall ⟨16, none, 0, []⟩).after openFilmCall
    ⟨32, none, 0, []⟩)

theorem session_idle : IdleAt sessionHeap := idleAt_of_quiet (by decide +kernel)

theorem film_reached (hopen : kind noHeap openSessionCall) (hfilm : kind sessionHeap openFilmCall) :
    Reached silentCrypto id silentSystem kind filmOwned filmHeap := by
  have hsession : returned (openSessionCall.run silentCrypto id silentSystem ⟨16, 24⟩ noHeap) =
      some ⟨16, none, 0, []⟩ := by decide +kernel
  have hobject : (sessionHeap 32).isNone := by decide +kernel
  have htext : (sessionHeap 40).isNone := by decide +kernel
  have hfresh : Alloc.Fresh ⟨32, 40⟩ sessionHeap := by
    rw [Option.isNone_iff_eq_none] at hobject htext
    exact ⟨by decide, by decide, by decide, hobject, htext⟩
  have hfirst : Reached silentCrypto id silentSystem kind
      (Owned.after (fun _ => none) openSessionCall ⟨16, none, 0, []⟩) sessionHeap :=
    .call .start hopen trivial ⟨by decide, by decide, by decide, rfl, rfl⟩ (returned_eq_some hsession)
  have hpermits : Owned.Permits (Owned.after (fun _ => none) openSessionCall ⟨16, none, 0, []⟩)
      openFilmCall := Or.inr ⟨.session, rfl, rfl⟩
  obtain ⟨inner, handle, hrun⟩ := openFilm_run (a := ⟨32, 40⟩) session_idle
  exact .call hfirst hfilm hpermits hfresh (returned_eq_some (by rw [hrun]; rfl))

/-- In every program of calls of which each is permitted by what the app owns, no call goes through
a pointer that stands for nothing or something else; the boxes are those that the app owns; and
no call meets a session or a file that is closed already. Closing a session before its files is
what the app must not do. -/
theorem bridge_safe (h : Reached crypto toLowercase io kind owned heap) :
    (∀ call a heap', owned.Permits call →
      call.run crypto toLowercase io a heap ≠ .error .undefined heap') ∧
    (∀ p, (heap p).map Object.kind = owned p) ∧
    (∀ p, owned p = some .session → ∃ inner, heap p = some (.session (some inner))) ∧
    (∀ p s, owned p = some (.media s) → owned s = some .session ∧
      ∃ handle, heap p = some (.media s (some handle) handle.size)) ∧
    ∀ p s, owned p = some (.media s) → ∀ sent server a, ∃ r heap1 heap2,
      (BridgeCall.sessionClose s sent).run crypto toLowercase io a heap = .ok r heap1 ∧
        (BridgeCall.mediaClose p server).run crypto toLowercase io a heap1 = .error .undefined heap2 := by
  have hholds := h.holds
  refine ⟨fun call a heap' hpermits => (call_effect hholds hpermits).defined, hholds.tracks,
    fun p hp => hholds.session_at hp, fun p s hp => ⟨hholds.parents p s hp, hholds.media_at hp⟩,
    fun p s hp sent server a => mediaClose_dangling hholds hp sent server⟩

theorem bridge_safe_film : ∃ r heap1 heap2,
    (BridgeCall.sessionClose 16 fun _ => ([], [])).run silentCrypto id silentSystem ⟨48, 56⟩ filmHeap =
      .ok r heap1 ∧
      (BridgeCall.mediaClose 32 filmServer).run silentCrypto id silentSystem ⟨48, 56⟩ heap1 =
        .error .undefined heap2 := by
  have hreached : Reached silentCrypto id silentSystem (fun _ _ => True) filmOwned filmHeap :=
    film_reached trivial trivial
  exact (bridge_safe hreached).2.2.2.2 32 16 rfl (fun _ => ([], [])) filmServer ⟨48, 56⟩

end CifsClientStream.Ffi.Bridge
