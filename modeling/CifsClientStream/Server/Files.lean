import CifsClientStream.Cifs.Calls
import CifsClientStream.Lib.Slice
import CifsClientStream.Smb.OpenReply
import CifsClientStream.Smb.ShareReply

/-!
# A file server

What the client talks to. Files lie in shares, under names. A server gives out
tree ids for the shares that are connected and file ids for the files that are
open, never one that is in use, and may refuse whatever it is asked; but if it
does not refuse a request, it does what the request says (`Serves`).
-/

namespace CifsClientStream.Server
open Cursor hiding slice
open Smb Slice Win

/-- The bytes of a file, by the path of its share and its name. -/
abbrev Files := String → String → Option Bytes

/-- An open file, and the tree through which it was opened. -/
structure OpenFile where
  tree : UInt16
  content : Bytes

structure State where
  trees : UInt16 → Option String
  opened : UInt16 → Option OpenFile

inductive Answer where
  | refused (status : Status)
  | connected (tid : UInt16) (reply : TreeConnectReply)
  | disconnected
  | opened (tid : UInt16) (reply : OpenReply)
  | closed
  | data (reply : ReadReply)

namespace State

def connect (s : State) (tid : UInt16) (path : String) : State :=
  { s with trees := Function.update s.trees tid (some path) }

/-- The files that were opened through a tree are closed with it. -/
def disconnect (s : State) (tid : UInt16) : State where
  trees := Function.update s.trees tid none
  opened fid := (s.opened fid).filter fun file => file.tree ≠ tid

def withOpen (s : State) (fid : UInt16) (file : OpenFile) : State :=
  { s with opened := Function.update s.opened fid (some file) }

def close (s : State) (fid : UInt16) : State :=
  { s with opened := Function.update s.opened fid none }

end State

/-- A status that says that a request was not done. -/
structure Refuses (status : Status) : Prop where
  canonical : status.Canonical
  failed : status ≠ .known .SUCCESS
  final : status ≠ .known .MORE_PROCESSING

/-- What a server with these files may answer, and its state then. -/
inductive Serves (files : Files) (s : State) : Message → Answer → State → Prop
  | refused (m : Message) (status : Status) : Refuses status → Serves files s m (.refused status) s
  | connected (m : Msg.TreeConnect) (tid : UInt16) (reply : TreeConnectReply) :
    s.trees tid = none →
      Serves files s (.treeConnect m) (.connected tid reply) (s.connect tid m.path)
  | disconnected (tid : UInt16) (path : String) : s.trees tid = some path →
      Serves files s (.treeDisconnect ⟨tid⟩) .disconnected (s.disconnect tid)
  | opened (m : Msg.Open) (path : String) (content : Bytes) (reply : OpenReply) :
    s.trees m.tid = some path → files path m.filename = some content →
      s.opened reply.fid = none → reply.size.toNat = content.length →
        Serves files s (.openFile m) (.opened m.tid reply) (s.withOpen reply.fid ⟨m.tid, content⟩)
  | closed (m : Msg.Close) (file : OpenFile) : s.opened m.fid = some file → file.tree = m.tid →
      Serves files s (.close m) .closed (s.close m.fid)
  | data (m : Msg.Read) (file : OpenFile) (reply : ReadReply) : s.opened m.fid = some file →
    file.tree = m.tid → reply.payload <+: slice file.content m.offset.toNat m.count.toNat →
      Serves files s (.read m) (.data reply) s

/-! ### The reply to a request -/

namespace Answer

def status : Answer → Status
  | refused status => status
  | _ => .known .SUCCESS

/-- The tree id that the header of the reply must have. -/
def tree : Answer → Option UInt16
  | connected tid _ => some tid
  | opened tid _ => some tid
  | _ => none

/-- What the reply says behind its header, up to what the client does not look at. -/
inductive Body (info : Info) : Answer → Bytes → Prop
  | refused (status : Status) (body : Bytes) : Body info (.refused status) body
  | connected (tid : UInt16) (reply : TreeConnectReply) (rest : Bytes) :
    (reply.data (contains info.flags2 Flags2.UNICODE)).length < 65536 →
      Body info (.connected tid reply) (reply.body (contains info.flags2 Flags2.UNICODE) rest)
  | disconnected (words data rest : Bytes) : words.length % 2 = 0 → words.length < 512 →
    data.length < 65536 → Body info .disconnected (framed words data rest)
  | opened (tid : UInt16) (reply : OpenReply) (data rest : Bytes) : data.length < 65536 →
      Body info (.opened tid reply) (reply.body data rest)
  | closed (words data rest : Bytes) : words.length % 2 = 0 → words.length < 512 →
    data.length < 65536 → Body info .closed (framed words data rest)
  | data (reply : ReadReply) (rest : Bytes) : Body info (.data reply) (reply.body rest)

/-- A message that gives the answer to a request with the header `request`. -/
structure Written (a : Answer) (request : Info) (info : Info) (body : Bytes) : Prop where
  canonical : info.Canonical
  cmd : info.cmd = request.cmd
  mid : info.mid = request.mid
  status : info.status = a.status
  tree : ∀ tid ∈ a.tree, info.tid = tid
  body : a.Body info body

/-- What the answer comes to for the client. -/
def value : Answer → Except CifsClientStream.Error Value
  | refused status => .error (.ServerError status)
  | connected tid reply => .ok (.share {
      accessRights := reply.rights 2
      guestRights := reply.rights 6
      service := reply.service
      filesystem := reply.filesystem
      tid })
  | disconnected => .ok .done
  | opened tid reply => .ok (.handle (reply.handle tid))
  | closed => .ok .done
  | data reply => .ok (.bytes reply.payload)

end Answer

/-! ### What the client makes of a reply -/

/-- The messages that concern shares and files. -/
def Filing : Message → Prop
  | .treeConnect _ => True
  | .treeDisconnect _ => True
  | .openFile _ => True
  | .close _ => True
  | .read _ => True
  | _ => False

theorem messages_filing (call : Call) : ∀ m ∈ call.messages, Filing m := by
  intro m hm
  cases call with
  | readAt file offset count =>
    rw [Call.messages] at hm
    split at hm
    · cases hm
    · rw [List.mem_singleton.mp hm]
      trivial
  | readAtPipelined file requests depth counts =>
    obtain ⟨r, -, rfl⟩ := List.mem_map.mp hm
    trivial
  | mountPassword path password => rw [List.mem_singleton.mp hm]; trivial
  | umountRef share => rw [List.mem_singleton.mp hm]; trivial
  | openfile share path => rw [List.mem_singleton.mp hm]; trivial
  | closeRef file => rw [List.mem_singleton.mp hm]; trivial

variable {files : Files} {s s' : State} {m : Message} {a : Answer} {request info : Info} {body : Bytes}

theorem Answer.Written.understood (h : a.Written request info body) :
    understood (info.write ++ body) = some ⟨info, body⟩ := understood_write h.canonical body

theorem parseReply_refused (R : Type) [Reply R] (hcmd : info.cmd = Reply.CMD R)
    (h : Refuses info.status) :
    Cifs.parseReply R ⟨info, body⟩ = .error (.error (.ServerError info.status)) := by
  rw [Cifs.parseReply_cmd R _ hcmd, Cifs.checkStatus_eq, if_neg]
  · rfl
  · rintro (hsuccess | ⟨-, hmore⟩)
    · exact h.failed hsuccess
    · exact h.final hmore

/-- An answer is read as what it is. -/
theorem Serves.answered (hserves : Serves files s m a s') (hfiling : Filing m)
    (hcmd : request.cmd = m.cmd) (h : a.Written request info body) :
    Cifs.PendingReply.answer ⟨info, body⟩ m = a.value.mapError Fault.error := by
  have hinfo : info.cmd = m.cmd := h.cmd.trans hcmd
  have hstatus := h.status
  have hbody := h.body
  cases hserves with
  | refused m status hrefuses =>
    have hrefused : Refuses info.status := by
      rw [hstatus]
      exact hrefuses
    have herror (R : Type) [Reply R] (hr : info.cmd = Reply.CMD R) :
        Cifs.parseReply R ⟨info, body⟩ = .error (.error (.ServerError status)) := by
      rw [parseReply_refused R hr hrefused, hstatus]
      rfl
    cases m with
    | treeConnect m => rw [Cifs.PendingReply.answer, herror Share hinfo]; rfl
    | treeDisconnect m => rw [Cifs.PendingReply.answer, herror Reply.TreeDisconnect hinfo]; rfl
    | openFile m => rw [Cifs.PendingReply.answer, herror Handle hinfo]; rfl
    | close m => rw [Cifs.PendingReply.answer, herror Reply.Close hinfo]; rfl
    | read m => rw [Cifs.PendingReply.answer, herror Reply.Read hinfo]; rfl
    | negotiate m => cases hfiling
    | sessionSetup m => cases hfiling
    | findFirst m => cases hfiling
    | findNext m => cases hfiling
  | connected m tid reply hfree =>
    cases hbody with
    | connected tid reply rest hdata =>
      have hparse := reply.parse_body info rest hdata
      have htid : info.tid = tid := h.tree tid rfl
      rw [Cifs.PendingReply.answer, Cifs.parseReply_success Share hinfo hstatus hparse,
        TreeConnectReply.share, htid]
      rfl
  | disconnected tid path htree =>
    cases hbody with
    | disconnected words data rest heven hwords hdata =>
      have hparse : Reply.parse Reply.TreeDisconnect info (framed words data rest) = .ok {} := by
        rw [Reply.parse, sections_framed words data rest heven hwords hdata]
        rfl
      rw [Cifs.PendingReply.answer, Cifs.parseReply_success Reply.TreeDisconnect hinfo hstatus hparse]
      rfl
  | opened m path content reply htree hfile hfree hsize =>
    cases hbody with
    | opened tid reply data rest hdata =>
      have hparse := reply.parse_body info data rest hdata
      have htid : info.tid = m.tid := h.tree m.tid rfl
      rw [Cifs.PendingReply.answer, Cifs.parseReply_success Handle hinfo hstatus hparse, htid]
      rfl
  | closed m file hopen htree =>
    cases hbody with
    | closed words data rest heven hwords hdata =>
      have hparse : Reply.parse Reply.Close info (framed words data rest) = .ok {} := by
        rw [Reply.parse, sections_framed words data rest heven hwords hdata]
        rfl
      rw [Cifs.PendingReply.answer, Cifs.parseReply_success Reply.Close hinfo hstatus hparse]
      rfl
  | data m file reply hopen htree hpayload =>
    cases hbody with
    | data reply rest =>
      have hparse := reply.parse_body info rest
      rw [Cifs.PendingReply.answer, Cifs.parseReply_success Reply.Read hinfo hstatus hparse]
      rfl

end CifsClientStream.Server
