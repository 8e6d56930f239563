import CifsClientStream.Cifs.TcpRefines

/-!
# Runs over bytes are runs over frames (struct `Cifs` of src/lib.rs, src/netbios.rs)

A run of operations on the TCP stream, the handshake among them. Where each
operation finds whole frames, the run has the outcomes of a run on the frames
themselves, in whatever segments they came and in however many writes the
requests went out (`tcp_refines`).
-/

namespace CifsClientStream
open Cursor Async Win Smb Utils Simulation

/-- An operation of the client; the first one of a connection sets it up. -/
inductive TcpOp : Type 1 where
  | setupConnection (crypto : Ntlm.Crypto)
  | call (op : Cifs.Op)

namespace TcpOp

def onFrames (c : Cifs) : TcpOp → Outcome Error × Cifs
  | setupConnection crypto => outcome (Cifs.setupConnection crypto c)
  | call (@Cifs.Op.command _ R _ _ msg) => outcome (Cifs.command R msg c)
  | call (.readAtPipelined file requests _) => outcome (Cifs.readAtPipelined file requests c)
  | call (@Cifs.Op.transact2 _ R _ _ tid subcmd) => outcome (Cifs.transact2 R tid subcmd c)

def onBytes (c : TcpCifs) : TcpOp → Outcome Error × TcpCifs
  | setupConnection crypto => outcome (TcpCifs.setupConnection crypto c)
  | call (@Cifs.Op.command _ R _ _ msg) => outcome (TcpCifs.command R msg c)
  | call (.readAtPipelined file requests _) => outcome (TcpCifs.readAtPipelined file requests c)
  | call (@Cifs.Op.transact2 _ R _ _ tid subcmd) => outcome (TcpCifs.transact2 R tid subcmd c)

end TcpOp

/-- An operation, what arrives while it runs, how much each write takes, and what becomes of the
writer then. -/
structure TcpInput : Type 1 where
  op : TcpOp
  arrivals : List NetBios.Arrival
  room : List ℕ
  blocked : Option IoErrorKind

structure FrameInput : Type 1 where
  op : TcpOp
  arrivals : List Cifs.Arrival
  writes : List Cifs.WriteStep

/-- An input that brings whole frames; `shut` says that the stream ends behind them. -/
structure WholeInput extends TcpInput where
  frames : List Cifs.Arrival
  shut : Bool
  carries : TcpCifs.Carries shut (NetBios.events arrivals) frames

def Cifs.stepFrames (c : Cifs) (i : FrameInput) : Outcome Error × Cifs :=
  i.op.onFrames (c.arrive i.arrivals i.writes)

/-- A call is a step of the runs over frames. -/
theorem Cifs.stepFrames_call (c : Cifs) (i : Cifs.Input) :
    Cifs.step c i = ((c.stepFrames ⟨.call i.op, i.arrivals, i.writes⟩).1.stop,
      (c.stepFrames ⟨.call i.op, i.arrivals, i.writes⟩).2) := by
  have hended {α : Type} (r : EStateM.Result (Stop Error) Cifs α) :
      Cifs.ended r = ((outcome r).1.stop, (outcome r).2) := by
    cases r with
    | ok a c' => rfl
    | error e c' => rfl
  obtain ⟨op, arrivals, writes⟩ := i
  cases op with
  | @command M R _ _ msg => exact hended _
  | readAtPipelined file requests depth => exact hended _
  | @transact2 C R _ _ tid subcmd => exact hended _

namespace TcpCifs

def arrive (c : TcpCifs) (i : TcpInput) : TcpCifs :=
  { c with netbios := { c.netbios with
    incoming := c.netbios.incoming ++ i.arrivals
    room := i.room
    blocked := i.blocked } }

def step (c : TcpCifs) (i : TcpInput) : Outcome Error × TcpCifs := i.op.onBytes (c.arrive i)

def fresh (auth : Ntlm.Auth) : TcpCifs where
  netbios := { incoming := [], room := [], blocked := none, written := [] }
  auth := auth
  maxSmbSize := 1024
  useUnicode := true
  uid := 0
  mid := 0
  ioStats := { readAtCalls := 0, readAtBytes := 0 }
  pendingReplies := fun _ => none
  sends := 0
  outbox := []

variable {shut : Bool} {s : TcpCifs} {t : Cifs}

theorem onBytes_matches (h : Running shut s t) (op : TcpOp) :
    ∃ script t', (∀ rest, op.onFrames (writing (script ++ rest) t) =
      ((op.onBytes s).1, writing rest t')) ∧ Ended shut (op.onBytes s).2 t' := by
  have hends {α : Type} {x : Fut Error TcpCifs α} {y : Fut Error Cifs α}
      (hmatches : Matches writing (fun a b s' t' => a = b ∧ Running shut s' t') (Ended shut)
        x s y t) := Matches.outcome (R := Ended shut)
    (hmatches.mono (fun _ _ _ _ h => ⟨h.1, h.2.ended⟩) fun _ _ h => h)
  cases op with
  | setupConnection crypto =>
    simp only [TcpOp.onFrames, TcpOp.onBytes]
    exact hends (setupConnection_matches crypto h)
  | call op =>
    cases op with
    | @command M R _ _ msg =>
      simp only [TcpOp.onFrames, TcpOp.onBytes]
      exact hends (command_matches R msg h)
    | readAtPipelined file requests depth =>
      simp only [TcpOp.onFrames, TcpOp.onBytes]
      exact hends (readAtPipelined_matches h file requests)
    | @transact2 C R _ _ tid subcmd =>
      simp only [TcpOp.onFrames, TcpOp.onBytes]
      exact hends (transact2_matches R tid subcmd h)

/-- What an earlier operation has left and what arrives now, at both levels. -/
theorem arrive_running (h : Ended shut s t) (i : WholeInput) :
    ∃ arrivals, (shut = false → arrivals = i.frames) ∧ ∀ script,
      Running (shut || i.shut) (s.arrive i.toTcpInput) (t.arrive arrivals script) := by
  obtain ⟨brought, hfirst, hcarries⟩ := h.stopped.next i.carries
  refine ⟨brought, hfirst, fun script => ⟨h.same, ?_⟩⟩
  change Carries _ (NetBios.events (s.netbios.incoming ++ i.arrivals)) _
  rw [NetBios.events_append]
  exact hcarries

theorem step_simulated (h : Ended shut s t) (i : WholeInput) :
    ∃ j : FrameInput, (j.op = i.op ∧ (shut = false → j.arrivals = i.frames)) ∧
      (step s i.toTcpInput).1 = (t.stepFrames j).1 ∧
      Ended (shut || i.shut) (step s i.toTcpInput).2 (t.stepFrames j).2 := by
  obtain ⟨arrivals, hfirst, hrunning⟩ := arrive_running h i
  obtain ⟨script, t', hframes, hended⟩ := onBytes_matches (hrunning []) i.op
  have hstep : t.stepFrames ⟨i.op, arrivals, script⟩ =
      ((step s i.toTcpInput).1, writing [] t') := by
    have hrun := hframes []
    rw [List.append_nil] at hrun
    exact hrun
  refine ⟨⟨i.op, arrivals, script⟩, ⟨rfl, hfirst⟩, ?_, ?_⟩
  · rw [hstep]
  · rw [hstep]
    exact ⟨hended.same, hended.stopped⟩

theorem fresh_ended (auth : Ntlm.Auth) : Ended false (fresh auth) (Cifs.fresh auth) where
  same := rfl
  stopped := Or.inl .done

/-- Over whole frames, the client on the TCP stream does what the client on frames does: the same
operations with the same frames have the same outcomes, and leave the session the same. -/
theorem tcp_refines (auth : Ntlm.Auth) (inputs : List WholeInput) :
    ∃ frames : List FrameInput,
      Paired (fun shut i => shut || i.shut)
        (fun shut i j => j.op = i.op ∧ (shut = false → j.arrivals = i.frames))
        false inputs frames ∧
      (Runs.run (fun c i => step c i.toTcpInput) (fresh auth) inputs).1 =
        (Runs.run Cifs.stepFrames (Cifs.fresh auth) frames).1 ∧
      Ended (inputs.foldl (fun shut i => shut || i.shut) false)
        (Runs.run (fun c i => step c i.toTcpInput) (fresh auth) inputs).2
        (Runs.run Cifs.stepFrames (Cifs.fresh auth) frames).2 :=
  run_simulated (R := Ended) (fun _ _ _ i h => step_simulated h i) false _ _ inputs
    (fresh_ended auth)

/-! ### A share that is left twice -/

def disconnected : Bytes :=
  { Info.default .TreeDisconnect with flags1 := Flags1.REPLY, tid := 7 }.write ++ [0, 0, 0]

def disconnect : TcpOp := .call (.command Reply.TreeDisconnect (Msg.TreeDisconnect.mk 7))

/-- The first of two segments ends behind two bytes of the reply. -/
def inSegments : List NetBios.Arrival :=
  [.segment 0x85 [0, 0, 0, 0, 0], .segment 0 (35 :: disconnected)]

theorem inSegments_carries : Carries false (NetBios.events inSegments)
    [.frame 0 .Keepalive, .frame 0 (.Message disconnected)] := by
  have hreply := @Carries.frame false _ _ 0
    ⟨NetBios.FrameType.Message.code, disconnected, by decide⟩ .done
  have hkeepalive := @Carries.frame false _ _ 0
    ⟨NetBios.FrameType.Keepalive.code, [], by decide⟩ hreply
  exact hkeepalive

/-- The request goes out in three writes, and is answered. -/
def answeredDisconnect : WholeInput where
  op := disconnect
  arrivals := inSegments
  room := [9, 9, 99]
  blocked := none
  frames := [.frame 0 .Keepalive, .frame 0 (.Message disconnected)]
  shut := false
  carries := inSegments_carries

/-- The request stops behind its tenth byte. -/
def stuckDisconnect : WholeInput where
  op := disconnect
  arrivals := []
  room := [9]
  blocked := none
  frames := []
  shut := false
  carries := .done

theorem tcp_refines_disconnect :
    ∃ frames : List FrameInput,
      Paired (fun shut i => shut || i.shut)
        (fun shut i j => j.op = i.op ∧ (shut = false → j.arrivals = i.frames))
        false [answeredDisconnect, stuckDisconnect] frames ∧
      (Runs.run Cifs.stepFrames (Cifs.fresh Cifs.noAuth) frames).1.map Outcome.stop =
        [none, some .dropped] := by
  obtain ⟨frames, hpaired, houtcomes, -⟩ := tcp_refines Cifs.noAuth [answeredDisconnect, stuckDisconnect]
  refine ⟨frames, hpaired, ?_⟩
  rw [← houtcomes]
  rfl

end TcpCifs

end CifsClientStream
