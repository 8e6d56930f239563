import CifsClientStream.Smb.Reply
import Mathlib.Data.List.Sort

/-!
# Transactions (src/smb/trans2)

A transaction request carries a sub-command (`SubCmd`); its reply may come in
several messages, each with a fragment of the parameters and of the data of
the sub-reply (`SubReply`). `CollectTrans2` puts the fragments together.
-/

namespace CifsClientStream.Smb
open Cursor Win Utils

/-! ### One reply message (src/smb/trans2/reply.rs) -/

/-- One message of a transaction reply: a fragment of each section, with its
displacement and the announced total. -/
structure Reply.Transact2 where
  parameter : Bytes
  parameterTotal : ℕ
  parameterOffset : ℕ
  data : Bytes
  dataTotal : ℕ
  dataOffset : ℕ
  deriving DecidableEq, Repr

/-- Where a section lies in the data bytes and where its fragment belongs. -/
structure Reply.Section where
  count : ℕ
  offset : ℕ
  displacement : ℕ

/-- Count, frame offset and displacement of one section; the frame offset is
made relative to the data bytes. -/
def Reply.readSection (dataOffset : ℕ) : Reader Error Reply.Section := do
  let count ← getU16Le
  let offset ← getU16Le
  match trySub offset.toNat dataOffset with
  | none => fail .InvalidData
  | some offset => do
    let displacement ← getU16Le
    pure { count := count.toNat, offset, displacement := displacement.toNat }

def Reply.Transact2.parameters (dataOffset : ℕ) :
    Reader Error (ℕ × ℕ × Reply.Section × Reply.Section) := do
  let totalParameterCount ← getU16Le
  let totalDataCount ← getU16Le
  advance 2
  let parameter ← Reply.readSection dataOffset
  let data ← Reply.readSection dataOffset
  pure (totalParameterCount.toNat, totalDataCount.toNat, parameter, data)

def Reply.Transact2.create (ctx : ReplyCtx) : Except (Fault Error) Reply.Transact2 := do
  let ((totalParameterCount, totalDataCount, p, d), _) ←
    Reply.Transact2.parameters ctx.dataOffset ctx.parameter
  let subParameter ← slice ctx.data p.offset (p.offset + p.count)
  let subData ← slice ctx.data d.offset (d.offset + d.count)
  .ok {
    parameter := subParameter, parameterTotal := totalParameterCount
    parameterOffset := p.displacement
    data := subData, dataTotal := totalDataCount, dataOffset := d.displacement }

instance : Reply Reply.Transact2 where
  CMD := .Transact2
  ANDX := false
  create := Reply.Transact2.create

/-! ### Reassembly (src/smb/trans2/collector.rs) -/

/-- Fragments by displacement. -/
structure Collector where
  fragments : List (ℕ × Bytes)
  total : Option ℕ
  deriving DecidableEq, Repr

namespace Collector

def new : Collector := ⟨[], none⟩

/-- The part of `Collector::add` behind the check of the total. -/
def insert (c : Collector) (data : Bytes) (offset : ℕ) : Except (Fault Error) Collector :=
  if data = [] then .ok c
  else if c.fragments.any (·.1 = offset) then
    .error (.error (.Reassemble s!"got fragment at offset {offset} twice"))
  else .ok { c with fragments := (offset, data) :: c.fragments }

def add (c : Collector) (data : Bytes) (offset total : ℕ) : Except (Fault Error) Collector :=
  match c.total with
  | some savedTotal =>
    if savedTotal ≠ total then
      .error (.error (.Reassemble
        s!"server changed it's mind about total packet size: {savedTotal} vs {total}"))
    else c.insert data offset
  | none => { c with total := some total }.insert data offset

def len (c : Collector) : ℕ := (c.fragments.map (·.2.length)).sum

def isReady (c : Collector) : Bool :=
  match c.total with
  | some total => total ≤ c.len
  | none => false

/-- The loop of `Collector::get` over the fragments in order of displacement. -/
def join (buffer : Bytes) : List (ℕ × Bytes) → Except (Fault Error) Bytes
  | [] => .ok buffer
  | (offset, data) :: rest =>
    if buffer.length ≠ offset then
      .error (.error (.Reassemble s!"offset mismatch, got: {offset}, expected: {buffer.length}"))
    else join (buffer ++ data) rest

def get (c : Collector) : Except (Fault Error) Bytes :=
  match c.total with
  | none => .error (.error .InvalidData)
  | some total =>
    if c.len ≠ total then
      .error (.error (.Reassemble s!"length does not match, want {total}, but got {c.len}"))
    else join [] (c.fragments.insertionSort fun a b => a.1 ≤ b.1)

end Collector

structure CollectTrans2 where
  parameter : Collector
  data : Collector
  deriving DecidableEq, Repr

namespace CollectTrans2

def new : CollectTrans2 := ⟨Collector.new, Collector.new⟩

/-- Adds one message and says whether the collection is complete. -/
def add (c : CollectTrans2) (msg : Reply.Transact2) :
    Except (Fault Error) (Bool × CollectTrans2) := do
  let parameter ← c.parameter.add msg.parameter msg.parameterOffset msg.parameterTotal
  let data ← c.data.add msg.data msg.dataOffset msg.dataTotal
  .ok (parameter.isReady && data.isReady, ⟨parameter, data⟩)

end CollectTrans2

class SubReply (R : Type) where
  SETUP : UInt16
  parse : Bytes → Bytes → Except (Fault Error) R

def CollectTrans2.getSubreply (R : Type) [SubReply R] (c : CollectTrans2) :
    Except (Fault Error) R := do
  let parameter ← c.parameter.get
  let data ← c.data.get
  SubReply.parse parameter data

/-! ### Directory entries (src/smb/common.rs) -/

structure DirInfo where
  creationTime : ℕ
  accessTime : ℕ
  writeTime : ℕ
  changeTime : ℕ
  filename : String
  filesize : UInt64
  attributes : UInt32
  deriving DecidableEq, Repr

def DirInfo.fields : Reader Error (DirInfo × ℕ) := do
  advance 4
  let creationTime ← getU64Le
  let accessTime ← getU64Le
  let writeTime ← getU64Le
  let changeTime ← getU64Le
  let filesize ← getU64Le
  advance 8
  let attributes ← getU32Le
  let filenameLength ← getU32Le
  pure ({
    creationTime := decodeWindowsTime creationTime
    accessTime := decodeWindowsTime accessTime
    writeTime := decodeWindowsTime writeTime
    changeTime := decodeWindowsTime changeTime
    filename := "", filesize
    attributes := attributes &&& ExtFileAttr.all }, filenameLength.toNat)

/-- `From<DecodeUtf16Error> for smb::Error`. -/
def liftUtf16 : Except (Fault Unit) (List Char) → Except (Fault Error) String
  | .ok cs => .ok (String.ofList cs)
  | .error (.error _) => .error (.error .InvalidData)
  | .error .panic => .error .panic

def DirInfo.parse (data : Bytes) : Except (Fault Error) DirInfo :=
  if data.length < 60 then .error (.error .InvalidData)
  else do
    let ((info, filenameLength), data) ← DirInfo.fields data
    if data.length < filenameLength then .error (.error .InvalidData)
    else
      let (rawFilename, _) ← copyToBytes filenameLength data
      let filename ← liftUtf16 (decodeUtf16Le rawFilename)
      .ok { info with filename }

/-! ### Sub-replies (src/smb/trans2/subreply) -/

structure SubReply.FindFirst2 where
  sid : UInt16
  finished : Bool
  info : List DirInfo
  deriving DecidableEq, Repr

structure SubReply.FindNext2 where
  finished : Bool
  info : List DirInfo
  deriving DecidableEq, Repr

def SubReply.FindFirst2.entrySize (nextEntry remaining : ℕ) : Option ℕ :=
  if nextEntry = 0 then some remaining
  else if 4 ≤ nextEntry then some (nextEntry - 4)
  else none

def SubReply.FindNext2.entrySize (rawsize _remaining : ℕ) : Option ℕ :=
  if rawsize < 4 then none else some (rawsize - 4)

/-- The loop over the directory entries. Each round takes at least four bytes,
so the length of the data bounds the rounds. -/
def SubReply.entries (entrySize : ℕ → ℕ → Option ℕ) :
    ℕ → Bytes → Except (Fault Error) (List DirInfo)
  | 0, _ => .ok []
  | rounds + 1, data =>
    if data.length = 0 then .ok []
    else if data.length < 4 then .error (.error .InvalidData)
    else do
      let (nextEntry, data) ← getU32Le data
      match entrySize nextEntry.toNat data.length with
      | none => .error (.error .InvalidData)
      | some size =>
        if size = 0 then .ok []
        else if data.length < size then .error (.error .InvalidData)
        else
          let (rawinfo, data) ← copyToBytes size data
          let info ← DirInfo.parse rawinfo
          let rest ← SubReply.entries entrySize rounds data
          .ok (info :: rest)

/-- The checks on the number of entries, the same in both sub-replies. -/
def SubReply.checkCount (count : ℕ) (finished : Bool) (info : List DirInfo) :
    Except (Fault Error) Unit :=
  if info.length ≠ count then .error (.error .InvalidData)
  else if !finished && count == 0 then .error (.error .InvalidData)
  else .ok ()

def SubReply.FindFirst2.parameters : Reader Error (UInt16 × ℕ × Bool) := do
  let sid ← getU16Le
  let count ← getU16Le
  let finished ← getU16Le
  advance 2
  pure (sid, count.toNat, finished != 0)

def SubReply.FindFirst2.parse (parameter data : Bytes) :
    Except (Fault Error) SubReply.FindFirst2 :=
  if parameter.length < 10 then .error (.error .InvalidData)
  else do
    let ((sid, count, finished), _) ← SubReply.FindFirst2.parameters parameter
    let info ← SubReply.entries SubReply.FindFirst2.entrySize (data.length + 1) data
    SubReply.checkCount count finished info
    .ok { sid, finished, info }

def SubReply.FindNext2.parameters : Reader Error (ℕ × Bool) := do
  let count ← getU16Le
  let finished ← getU16Le
  pure (count.toNat, finished != 0)

def SubReply.FindNext2.parse (parameter data : Bytes) :
    Except (Fault Error) SubReply.FindNext2 :=
  if parameter.length < 4 then .error (.error .InvalidData)
  else do
    let ((count, finished), _) ← SubReply.FindNext2.parameters parameter
    let info ← SubReply.entries SubReply.FindNext2.entrySize (data.length + 1) data
    SubReply.checkCount count finished info
    .ok { finished, info }

instance : SubReply SubReply.FindFirst2 where
  SETUP := 0x0001
  parse := SubReply.FindFirst2.parse

instance : SubReply SubReply.FindNext2 where
  SETUP := 0x0002
  parse := SubReply.FindNext2.parse

/-! ### Sub-commands (src/smb/trans2/subcmd) -/

def FindFlags.CLOSE_ON_EOS : UInt16 := 0x0002
def FindInfoLevel.DIRECTORY_INFO : UInt16 := 0x0101

class SubCmd (C : Type) where
  SETUP : UInt16
  MAX_SETUP_COUNT : UInt8
  MAX_PARAM_COUNT : UInt16
  MAX_DATA_COUNT : UInt16
  parameter : C → Bytes
  data : C → Bytes

structure SubCmd.FindFirst2 where
  search : UInt16
  count : UInt16
  flags : UInt16
  filename : String
  deriving DecidableEq, Repr

def SubCmd.FindFirst2.new (filename : String) (search : UInt16) : SubCmd.FindFirst2 :=
  { search, filename, count := 1024, flags := FindFlags.CLOSE_ON_EOS }

instance : SubCmd SubCmd.FindFirst2 where
  SETUP := 0x0001
  MAX_SETUP_COUNT := 0
  MAX_PARAM_COUNT := 10
  MAX_DATA_COUNT := 65535
  parameter c :=
    putU16Le c.search ++ putU16Le c.count ++ putU16Le c.flags ++
      putU16Le FindInfoLevel.DIRECTORY_INFO ++ putU32Le 0 ++ encodeUtf16Le0 c.filename
  data _ := []

structure SubCmd.FindNext2 where
  sid : UInt16
  count : UInt16
  flags : UInt16
  filename : String
  deriving DecidableEq, Repr

def SubCmd.FindNext2.new (sid : UInt16) (filename : String) : SubCmd.FindNext2 :=
  { sid, filename, count := 1024, flags := FindFlags.CLOSE_ON_EOS }

instance : SubCmd SubCmd.FindNext2 where
  SETUP := 0x0002
  MAX_SETUP_COUNT := 0
  MAX_PARAM_COUNT := 10
  MAX_DATA_COUNT := 65535
  parameter c :=
    putU16Le c.sid ++ putU16Le c.count ++ putU16Le FindInfoLevel.DIRECTORY_INFO ++ putU32Le 0 ++
      putU16Le c.flags ++ encodeUtf16Le0 c.filename
  data _ := []

end CifsClientStream.Smb
