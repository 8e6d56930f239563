import CifsClientStream.Ffi.CText
import CifsClientStream.Ffi.ReadAt
import CifsClientStream.Lib.Boxes
import CifsClientStream.Stream.Open

/-!
# The calls of the C interface (src/ffi.rs)

A session and an open file are boxes, and the app has raw pointers to them; a
text that goes to the app is a box too. A file knows its session by its pointer
alone. What the network does during a call, and the addresses at which new
boxes lie, are arguments.
-/

namespace CifsClientStream.Ffi.Bridge
open Cursor Async Smb Utils Boxes
open Cifs hiding list
open CifsClientStream.Media (MediaEntry)
open CifsClientStream.Stream (Remote FileServer openfile closeRef)

/-- `CifsClientStreamSessionInner`; `remote` is the connection, with the files that are open on the
server. -/
structure Inner where
  remote : Remote
  share : Share
  host : String
  shareName : String

inductive Object where
  | session (inner : Option Inner)
  | media (session : Pointer) (handle : Option Handle) (fileSize : UInt64)
  | text (bytes : Bytes)

namespace Object

def asSession : Object → Option (Option Inner)
  | .session inner => some inner
  | _ => none

def asMedia : Object → Option (Pointer × Option Handle × UInt64)
  | .media parent handle fileSize => some (parent, handle, fileSize)
  | _ => none

def asText : Object → Option Bytes
  | .text bytes => some bytes
  | _ => none

end Object

/-- Where the allocator puts what a call makes. -/
structure Alloc where
  object : Pointer
  text : Pointer

/-- What the app gets: a session or a file or null, a text or none, a count, and what was copied to
its buffer. -/
structure Returned where
  object : Pointer
  text : Option Pointer
  count : ℤ
  copied : Bytes
  deriving DecidableEq

/-! ### Arguments and texts -/

/-- A `const char *`; `reason` says what is wrong with bytes that are not UTF-8. -/
inductive CArg where
  | null
  | invalid (reason : String)
  | valid (text : CText)

theorem empty_text : NulFree "" := by decide

def noText : CText := ⟨"", empty_text⟩

def optionalCString : CArg → Except String CText
  | .null => .ok noText
  | .invalid reason => .error ("invalid UTF-8 string from Swift/C: " ++ reason)
  | .valid text => .ok text

def requiredCString (arg : CArg) (name : String) : Except String CText := do
  let value ← optionalCString arg
  if (trim value.text).isEmpty then .error (name ++ " must not be empty") else .ok value

/-- A text goes to the app, or its conversion panics where no one catches it. -/
def giveBytes (a : Alloc) : Except (Fault Empty) Bytes → Raw Object Pointer
  | .ok bytes => do
    put a.text (.text bytes)
    pure a.text
  | .error _ => abort

/-- `string_into_raw`. -/
def giveText (a : Alloc) (value : String) : Raw Object Pointer := giveBytes a (stringIntoRaw value)

def setOutMessage (outMessage : Bool) (a : Alloc) (message : String) : Raw Object (Option Pointer) :=
  if outMessage then some <$> giveText a message else pure none

def textReturned (a : Alloc) (value : String) : Raw Object Returned := do
  let text ← giveText a value
  pure ⟨0, some text, 0, []⟩

def failed (operation : String) : Fault String → String
  | .error message => operation ++ message
  | .panic => operation ++ "Rust panic was caught"

def messageReturned (operation : String) (a : Alloc) :
    Except (Fault String) String → Raw Object Returned
  | .ok message => textReturned a message
  | .error e => textReturned a (failed operation e)

def jsonReturned (operation : String) (a : Alloc) :
    Except (Fault String) String → Raw Object Returned
  | .ok message => textReturned a message
  | .error (.error message) => textReturned a (jsonError operation message)
  | .error .panic => textReturned a (jsonError operation "Rust panic was caught")

def BRIDGE_VERSION : String := "cifs-client-stream tvOS bridge ok"

def bridgeVersion (a : Alloc) : Raw Object Returned := textReturned a BRIDGE_VERSION

def DEFAULT_LIST_ENTRIES : ℕ := 30
def MAX_LIST_ENTRIES : ℕ := 100

def normalizeMaxEntries (maxEntries : UInt64) : ℕ :=
  if maxEntries = 0 then DEFAULT_LIST_ENTRIES else min maxEntries.toNat MAX_LIST_ENTRIES

section

variable (crypto : Ntlm.Crypto) (toLowercase : String → String) (io : IoText)

/-- `tokio::time::timeout` and `format_error`. -/
def timed {α σ : Type} (timeout : String) :
    EStateM.Result (Stop Error) σ α → Except (Fault String) α × σ
  | .ok a s => (.ok a, s)
  | .error (.error e) s => (.error (.error (formatError io e)), s)
  | .error .dropped s => (.error (.error timeout), s)
  | .error .panic s => (.error .panic, s)

def timedOut : String := formatError io (.Timeout "operation timed out")

/-! ### Sessions -/

/-- What happens while a session is opened: whether there is a runtime, the transport with all that
arrives during the handshake, and what comes for the mount. -/
structure Opening where
  runtime : Except String Unit
  netbios : Except (Stop Error) Net
  mount : Cifs → List Arrival × List WriteStep

def authForHost (host user password : String) : Option Ntlm.Auth :=
  if user = "" then none
  else some { user, workstation := "APEXTVOS", domain := host, password }

/-- `Cifs::open`. -/
def openCifs (host : String) (netbios : Except (Stop Error) Net) (auth : Option Ntlm.Auth) :
    Except (Stop Error) Cifs := do
  let auth := auth.getD { user := "", workstation := "ANONYMOUS", domain := host, password := "" }
  let netbios ← netbios
  match setupConnection crypto { fresh auth with netbios } with
  | .ok _ cifs => .ok cifs
  | .error e _ => .error e

/-- `Cifs::open_timeout` for a host and a user, and `format_error`. -/
def openTimeout (host user password : String) (netbios : Except (Stop Error) Net) :
    Except (Fault String) Cifs :=
  match openCifs crypto host netbios (authForHost host user password) with
  | .error (.error e) => .error (.error (formatError io e))
  | .error .dropped => .error (.error (timedOut io))
  | .error .panic => .error .panic
  | .ok cifs => .ok cifs

def openSession (host shareName user password : String) (o : Opening) :
    Except (Fault String) Inner := do
  let cifs ← openTimeout crypto io host user password o.netbios
  let sent := o.mount cifs
  let (mounted, cifs) := timed io "timeout while mounting SMB share"
    (mount (mountPath host shareName) (cifs.arrive sent.1 sent.2))
  let share ← mounted
  .ok { remote := ⟨cifs, []⟩, share, host, shareName }

def sessionOpenFromC (host share user password : CArg) (o : Opening) :
    Except (Fault String) (Inner × String) := do
  let host ← (requiredCString host "host").mapError .error
  let share ← (requiredCString share "share").mapError .error
  let user ← (optionalCString user).mapError .error
  let password ← (optionalCString password).mapError .error
  o.runtime.mapError fun e => .error ("failed to create Tokio runtime: " ++ e)
  let inner ← openSession crypto io host.text share.text user.text password.text o
  .ok (inner, "SMB session opened: host=" ++ host.text ++ " share=" ++ share.text)

/-- How a call ends that opens something. -/
def openReturned (operation : String) (outMessage : Bool) (a : Alloc) :
    Except (Fault String) String → Raw Object Returned
  | .ok message => do
    let text ← setOutMessage outMessage a message
    pure ⟨a.object, text, 0, []⟩
  | .error e => do
    let text ← setOutMessage outMessage a (failed operation e)
    pure ⟨0, text, 0, []⟩

def sessionOpen (host share user password : CArg) (o : Opening) (outMessage : Bool) (a : Alloc) :
    Raw Object Returned :=
  match sessionOpenFromC crypto io host share user password o with
  | .ok (inner, message) => do
    put a.object (.session (some inner))
    openReturned "SMB session open failed: " outMessage a (.ok message)
  | .error e => openReturned "SMB session open failed: " outMessage a (.error e)

/-- `run_session_list_json`, in the part that uses the connection. -/
def runSessionListJson (inner : Inner) (path : String) (maxEntries : ℕ) (server : SearchServer)
    (elapsedMs : UInt64) : Except (Fault String) String × Inner :=
  let listed := timed io (timedOut io)
    (listMediaEntries toLowercase server inner.share path ⟨inner.remote.cifs, []⟩)
  (listed.1.map fun entries => formatListJson inner.host inner.shareName path entries maxEntries
    none (some elapsedMs),
    { inner with remote := { inner.remote with cifs := listed.2.cifs } })

def sessionListJsonFromC (session : Pointer) (path : CArg) (maxEntries : UInt64)
    (server : SearchServer) (elapsedMs : UInt64) :
    Raw Object (Except (Fault String) String) := do
  if session = 0 then pure (.error (.error "session pointer is null"))
  else
    let inner ← deref Object.asSession session
    match optionalCString path, inner with
    | .error e, _ => pure (.error (.error e))
    | .ok _, none => pure (.error (.error "session is already closed"))
    | .ok path, some inner => do
      let (result, inner) := runSessionListJson toLowercase io inner path.text
        (normalizeMaxEntries maxEntries) server elapsedMs
      put session (.session (some inner))
      pure result

def sessionListJson (session : Pointer) (path : CArg) (maxEntries : UInt64) (server : SearchServer)
    (elapsedMs : UInt64) (a : Alloc) : Raw Object Returned := do
  let result ← sessionListJsonFromC toLowercase io session path maxEntries server elapsedMs
  jsonReturned "session_list_json" a result

/-- The box goes first, then the share, and the connection with it; its last state is returned. -/
def sessionClose (session : Pointer) (sent : Cifs → List Arrival × List WriteStep) :
    Raw Object (Option Cifs) :=
  if session = 0 then pure none
  else do
    let inner ← deref Object.asSession session
    release session
    pure (inner.map fun inner => endState (umount inner.share
      (inner.remote.cifs.arrive (sent inner.remote.cifs).1 (sent inner.remote.cifs).2)))

/-! ### Calls with a connection of their own -/

/-- What happens during such a call: whether there is a runtime, the transport with all that arrives
during the handshake, and what comes for the requests behind it. -/
structure Visit where
  runtime : Except String Unit
  netbios : Except (Stop Error) Net
  server : ListServer

def visitEnd {α σ : Type} : EStateM.Result (Fault String) σ α → Except (Fault String) α
  | .ok a _ => .ok a
  | .error e _ => .error e

/-- Reads the arguments, opens a connection and runs `run` on it. -/
def visitFromC (host share user password path : CArg) (v : Visit)
    (run : CText → CText → CText → EStateM (Fault String) Search String) :
    Except (Fault String) String := do
  let host ← (requiredCString host "host").mapError .error
  let share ← (requiredCString share "share").mapError .error
  let user ← (optionalCString user).mapError .error
  let password ← (optionalCString password).mapError .error
  let path ← (optionalCString path).mapError .error
  v.runtime.mapError fun e => .error ("failed to create Tokio runtime: " ++ e)
  let cifs ← openTimeout crypto io host.text user.text password.text v.netbios
  visitEnd (run host share path ⟨cifs, []⟩)

theorem root_text : NulFree "/" := by decide

def probeMessage (host shareName : String) (entries : List MediaEntry) : String :=
  "SMB probe ok: host=" ++ host ++ " share=" ++ shareName ++ " entries=" ++
    toString entries.length ++ " folders=" ++ toString (entries.countP MediaEntry.isFolder) ++
    " audio=" ++ toString (entries.countP MediaEntry.isAudio) ++ " video=" ++
    toString (entries.countP MediaEntry.isVideo)

def runSmbProbe (server : ListServer) (host shareName : CText) :
    EStateM (Fault String) Search String := do
  let share ← mountShare io server host shareName
  let entries ← listEntries toLowercase io server ⟨"/", root_text⟩ share
  let result ← umountResult server share
  pure (appendUmountWarning io (probeMessage host.text shareName.text entries) result)

def smbProbe (host share user password : CArg) (v : Visit) (a : Alloc) : Raw Object Returned :=
  messageReturned "SMB probe failed: " a (visitFromC crypto io host share user password .null v
    fun host share _ => runSmbProbe toLowercase io v.server host share)

def smbList (host share user password path : CArg) (maxEntries : UInt64) (v : Visit) (a : Alloc) :
    Raw Object Returned :=
  messageReturned "SMB list failed: " a (visitFromC crypto io host share user password path v
    fun host share path => runSmbList toLowercase io v.server host share path
      (normalizeMaxEntries maxEntries))

def smbListJson (host share user password path : CArg) (maxEntries : UInt64) (v : Visit)
    (elapsedMs : UInt64) (a : Alloc) : Raw Object Returned :=
  jsonReturned "smb_list_json" a (visitFromC crypto io host share user password path v
    fun host share path => runSmbListJson toLowercase io v.server host share path
      (normalizeMaxEntries maxEntries) elapsedMs)

section

variable {crypto toLowercase io} {host share path : CText} {user password : CArg}
  {userText passwordText : CText} {v : Visit} {cifs : Cifs}
variable (hhost : ¬(trim host.text).isEmpty = true) (hshare : ¬(trim share.text).isEmpty = true)
  (huser : optionalCString user = .ok userText)
  (hpassword : optionalCString password = .ok passwordText) (hruntime : v.runtime = .ok ⟨⟩)
  (hopen : openTimeout crypto io host.text userText.text passwordText.text v.netbios = .ok cifs)
include hhost hshare huser hpassword hruntime hopen

theorem visitFromC_opened (run : CText → CText → CText → EStateM (Fault String) Search String) :
    visitFromC crypto io (.valid host) (.valid share) user password (.valid path) v run =
      visitEnd (run host share path ⟨cifs, []⟩) := by
  have hrequired {text : CText} (name : String) (h : ¬(trim text.text).isEmpty = true) :
      requiredCString (.valid text) name = .ok text := by
    simp only [requiredCString, optionalCString, bind_of_ok, if_neg h]
  have hpath : optionalCString (.valid path) = .ok path := rfl
  simp only [visitFromC, hrequired "host" hhost, hrequired "share" hshare, huser, hpassword, hpath,
    hruntime, hopen, Except.mapError, bind_of_ok]

/-- On an open connection the call gives out the text of `Ffi.smbList`. -/
theorem smbList_opened (maxEntries : UInt64) (a : Alloc) :
    smbList crypto toLowercase io (.valid host) (.valid share) user password (.valid path) maxEntries
      v a = (giveBytes a (Ffi.smbList toLowercase io v.server host share path
        (normalizeMaxEntries maxEntries) ⟨cifs, []⟩) >>= fun text =>
          pure ⟨0, some text, 0, []⟩) := by
  rw [smbList, visitFromC_opened hhost hshare huser hpassword hruntime hopen, Ffi.smbList]
  cases runSmbList toLowercase io v.server host share path (normalizeMaxEntries maxEntries)
      ⟨cifs, []⟩ with
  | ok message s => rfl
  | error e s => cases e <;> rfl

theorem smbListJson_opened (maxEntries : UInt64) (elapsedMs : UInt64) (a : Alloc) :
    smbListJson crypto toLowercase io (.valid host) (.valid share) user password (.valid path)
      maxEntries v elapsedMs a = (giveBytes a (Ffi.smbListJson toLowercase io v.server host share path
        (normalizeMaxEntries maxEntries) elapsedMs ⟨cifs, []⟩) >>= fun text =>
          pure ⟨0, some text, 0, []⟩) := by
  rw [smbListJson, visitFromC_opened hhost hshare huser hpassword hruntime hopen, Ffi.smbListJson]
  cases runSmbListJson toLowercase io v.server host share path (normalizeMaxEntries maxEntries)
      elapsedMs ⟨cifs, []⟩ with
  | ok message s => rfl
  | error e s => cases e <;> rfl

end

/-! ### Files -/

def sessionOpenMediaFromC (session : Pointer) (path : CArg) (server : FileServer) (a : Alloc) :
    Raw Object (Except (Fault String) String) := do
  if session = 0 then pure (.error (.error "session pointer is null"))
  else
    let inner ← deref Object.asSession session
    match requiredCString path "path", inner with
    | .error e, _ => pure (.error (.error e))
    | .ok _, none => pure (.error (.error "session is already closed"))
    | .ok path, some inner => do
      let (result, remote) := timed io "timeout while opening SMB media handle"
        (openfile server inner.share path.text inner.remote)
      put session (.session (some { inner with remote }))
      match result with
      | .error e => pure (.error e)
      | .ok handle =>
        put a.object (.media session (some handle) handle.size)
        pure (.ok ("SMB media opened: path=" ++ path.text ++ " size=" ++ toString handle.size))

def sessionOpenMedia (session : Pointer) (path : CArg) (server : FileServer) (outMessage : Bool)
    (a : Alloc) : Raw Object Returned := do
  let result ← sessionOpenMediaFromC io session path server a
  openReturned "SMB media open failed: " outMessage a result

/-- How a read ends, with the bytes in the buffer of the app, and the connection after it. -/
def readEnd : EStateM.Result (Stop String) Reading ℕ → Except (Fault String) (ℕ × Bytes) × Cifs
  | .ok count r => (.ok (count, r.copied), r.cifs)
  | .error (.error message) r => (.error (.error message), r.cifs)
  | .error _ r => (.error .panic, r.cifs)

def readFromMedia (handle : Handle) (offset bufferLen : UInt64) (server : ReadServer) (cifs : Cifs) :
    Except (Fault String) (ℕ × Bytes) × Cifs :=
  readEnd ((readMediaHandleAtForSession (formatError io) server handle offset bufferLen.toNat >>=
    copyOut bufferLen.toNat) (Reading.start cifs))

def mediaReadAtFromC (media : Pointer) (offset : UInt64) (bufferIsNull : Bool) (bufferLen : UInt64)
    (server : ReadServer) : Raw Object (Except (Fault String) (ℕ × Bytes)) := do
  if media = 0 then pure (.error (.error "media pointer is null"))
  else
    let (session, handle, _) ← deref Object.asMedia media
    if bufferIsNull then pure (.error (.error "output buffer pointer is null"))
    else if bufferLen = 0 then pure (.ok (0, []))
    else
      match handle with
      | none => pure (.error (.error "media handle is already closed"))
      | some handle =>
        if session = 0 then pure (.error (.error "media parent session pointer is null"))
        else do
          let inner ← deref Object.asSession session
          match inner with
          | none => pure (.error (.error "session is already closed"))
          | some inner => do
            let (result, cifs) := readFromMedia io handle offset bufferLen server inner.remote.cifs
            put session (.session (some { inner with remote := { inner.remote with cifs } }))
            pure result

def readReturned (outMessage : Bool) (a : Alloc) :
    Except (Fault String) (ℕ × Bytes) → Raw Object Returned
  | .ok (count, copied) => pure ⟨0, none, count, copied⟩
  | .error (.error message) => do
    let text ← setOutMessage outMessage a message
    pure ⟨0, text, -1, []⟩
  | .error .panic => do
    let text ← setOutMessage outMessage a "SMB media read failed: Rust panic was caught"
    pure ⟨0, text, -1, []⟩

def mediaReadAt (media : Pointer) (offset : UInt64) (bufferIsNull : Bool) (bufferLen : UInt64)
    (server : ReadServer) (outMessage : Bool) (a : Alloc) : Raw Object Returned := do
  let result ← mediaReadAtFromC io media offset bufferIsNull bufferLen server
  readReturned outMessage a result

def mediaSize (media : Pointer) : Raw Object Returned :=
  if media = 0 then pure ⟨0, none, 0, []⟩
  else do
    let (_, _, fileSize) ← deref Object.asMedia media
    pure ⟨0, none, fileSize.toNat, []⟩

/-- The box goes first, then the file on the server. -/
def mediaClose (media : Pointer) (server : FileServer) : Raw Object Unit :=
  if media = 0 then pure ()
  else do
    let (session, handle, _) ← deref Object.asMedia media
    release media
    match handle with
    | none => pure ()
    | some handle =>
      if session = 0 then pure ()
      else do
        let inner ← deref Object.asSession session
        match inner with
        | none => pure ()
        | some inner =>
          let remote := endState (closeRef server handle inner.remote)
          put session (.session (some { inner with remote }))

def freeString (text : Pointer) : Raw Object Unit :=
  if text = 0 then pure ()
  else do
    let _ ← deref Object.asText text
    release text

/-! ### All calls -/

inductive BridgeCall where
  | bridgeVersion
  | smbProbe (host share user password : CArg) (v : Visit)
  | smbList (host share user password path : CArg) (maxEntries : UInt64) (v : Visit)
  | smbListJson (host share user password path : CArg) (maxEntries : UInt64) (v : Visit)
      (elapsedMs : UInt64)
  | sessionOpen (host share user password : CArg) (o : Opening) (outMessage : Bool)
  | sessionListJson (session : Pointer) (path : CArg) (maxEntries : UInt64) (server : SearchServer)
      (elapsedMs : UInt64)
  | sessionOpenMedia (session : Pointer) (path : CArg) (server : FileServer) (outMessage : Bool)
  | mediaReadAt (media : Pointer) (offset : UInt64) (bufferIsNull : Bool) (bufferLen : UInt64)
      (server : ReadServer) (outMessage : Bool)
  | mediaSize (media : Pointer)
  | mediaClose (media : Pointer) (server : FileServer)
  | sessionClose (session : Pointer) (sent : Cifs → List Arrival × List WriteStep)
  | freeString (text : Pointer)

def BridgeCall.run (a : Alloc) : BridgeCall → Raw Object Returned
  | .bridgeVersion => Bridge.bridgeVersion a
  | .smbProbe host share user password v =>
    Bridge.smbProbe crypto toLowercase io host share user password v a
  | .smbList host share user password path maxEntries v =>
    Bridge.smbList crypto toLowercase io host share user password path maxEntries v a
  | .smbListJson host share user password path maxEntries v elapsedMs =>
    Bridge.smbListJson crypto toLowercase io host share user password path maxEntries v elapsedMs a
  | .sessionOpen host share user password o outMessage =>
    Bridge.sessionOpen crypto io host share user password o outMessage a
  | .sessionListJson session path maxEntries server elapsedMs =>
    Bridge.sessionListJson toLowercase io session path maxEntries server elapsedMs a
  | .sessionOpenMedia session path server outMessage =>
    Bridge.sessionOpenMedia io session path server outMessage a
  | .mediaReadAt media offset bufferIsNull bufferLen server outMessage =>
    Bridge.mediaReadAt io media offset bufferIsNull bufferLen server outMessage a
  | .mediaSize media => Bridge.mediaSize media
  | .mediaClose media server => do
    Bridge.mediaClose media server
    pure ⟨0, none, 0, []⟩
  | .sessionClose session sent => do
    let _ ← Bridge.sessionClose session sent
    pure ⟨0, none, 0, []⟩
  | .freeString text => do
    Bridge.freeString text
    pure ⟨0, none, 0, []⟩

end

end CifsClientStream.Ffi.Bridge
