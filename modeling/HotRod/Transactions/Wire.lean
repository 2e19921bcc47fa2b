import HotRod.Operations.PrepareRequest
import HotRod.Transactions.Prepare
import HotRod.Transactions.Verdicts

/-! The calls of the transaction manager on the wire.

The loops of the manager know a PREPARE by its modifications and an answer by its
code. Here both are the bytes that the three operations write and read. -/

set_option autoImplicit false

namespace HotRod.Transactions

open Semantics.Execution
open Protocol HotRodConstants
open Operations (PreparedEntry HotRodOperation Awaiting)

variable {V : Type}

/-! ### Modifications -/

/-- The operation's view of an entry of the context. The marshaller matters only where
it is called, and an entry whose null value it would dereference has no view. -/
structure Views (key : Bytes) (ce : ContextEntry V) (e : PreparedEntry) : Prop where
  key : e.key = key
  controlByte : e.controlByte = ce.controlByte
  version : e.version = UInt64.ofInt ce.origMeta.version
  lifespan : e.lifespan = ce.metadata.lifespan
  maxIdle : e.maxIdle = ce.metadata.maxIdle
  marshalled : ce.controlByte &&& ControlBit.REMOVE_OP = 0 →
    marshalValue ce.valueMarshaller ce.value = e.marshalled.mapError .raised

def timeBytes (time : Option Int) : List UInt8 :=
  (time.map fun seconds => writeVLong (UInt64.ofNat seconds.toNat)).getD []

def Payload.bytes (payload : Payload) : List UInt8 :=
  writeByte payload.timeUnits ++ timeBytes payload.lifespan ++ timeBytes payload.maxIdle
    ++ writeArray payload.value

def Modification.bytes (m : Modification Bytes) : List UInt8 :=
  writeArray m.key ++ writeByte m.controlByte
    ++ (m.version.map fun version => writeLong (UInt64.ofInt version)).getD []
    ++ (m.payload.map Payload.bytes).getD []

theorem timeBytes_positive (time : Int) :
    timeBytes (positive time) = Operations.PrepareCommitOperation.writeTime time := by
  unfold positive Operations.PrepareCommitOperation.writeTime
  split_ifs <;> rfl

theorem versionBytes_sent (ce : ContextEntry V) :
    ((sentVersion ce).map fun version => writeLong (UInt64.ofInt version)).getD [] =
      if ce.controlByte &&& 0x03 = 0 then writeLong (UInt64.ofInt ce.origMeta.version) else [] := by
  have both : ControlBit.NON_EXISTING ||| ControlBit.NOT_READ = 0x03 := by decide
  unfold sentVersion
  rw [both]
  split_ifs <;> rfl

theorem writeEntry_modification {key : Bytes} {ce : ContextEntry V} {e : PreparedEntry}
    (views : Views key ce e) (s : Connection) :
    (∃ m, entryModification key ce = .ok m ∧
      Operations.PrepareCommitOperation.writeEntry e s = .ok () (s.filled m.bytes)) ∨
    ∃ raise bytes, entryModification key ce = .error (.raised raise) ∧
      Operations.PrepareCommitOperation.writeEntry e s = .error raise (s.filled bytes) := by
  rw [Operations.PrepareCommitOperation.writeEntry, bind_of_ok (write_apply _ s), views.key,
    views.controlByte, views.version, views.lifespan, views.maxIdle]
  by_cases stored : ce.controlByte &&& ControlBit.REMOVE_OP = 0
  · rw [entryModification_stored key stored, views.marshalled stored]
    rw [if_pos (show ce.controlByte &&& 0x04 = 0 from stored), bind_of_ok (write_apply _ _),
      filled_filled]
    cases e.marshalled with
    | ok value =>
      refine .inl ⟨_, rfl, ?_⟩
      simp only [write_apply, filled_filled, Modification.bytes, Option.map_some, Option.getD_some,
        Payload.bytes, sentPayload, versionBytes_sent, timeBytes_positive, List.append_assoc]
    | error raise => exact .inr ⟨raise, _, rfl, rfl⟩
  · rw [entryModification_bare key stored, if_neg (show ¬ ce.controlByte &&& 0x04 = 0 from stored)]
    refine .inl ⟨_, rfl, ?_⟩
    simp only [pure_apply, Modification.bytes, versionBytes_sent, Option.map_none, Option.getD_none,
      List.append_nil]

theorem writeEntries_modifications {entries : List (Bytes × ContextEntry V)}
    {context : List PreparedEntry}
    (views : List.Forall₂ (fun entry => Views entry.1 entry.2) entries context) (s : Connection) :
    (∃ mods, entries.mapM (fun entry => entryModification entry.1 entry.2) = .ok mods ∧
      Operations.PrepareCommitOperation.writeEntries context s =
        .ok () (s.filled (mods.flatMap Modification.bytes))) ∨
    ∃ raise bytes,
      entries.mapM (fun entry => entryModification entry.1 entry.2) = .error (.raised raise) ∧
      Operations.PrepareCommitOperation.writeEntries context s =
        .error raise (s.filled bytes) := by
  induction views generalizing s with
  | nil => exact .inl ⟨[], rfl, by simp [Operations.PrepareCommitOperation.writeEntries,
      Connection.filled]⟩
  | cons first rest ih =>
    rw [Operations.PrepareCommitOperation.writeEntries, List.mapM_cons]
    rcases writeEntry_modification first s with ⟨m, sent, wrote⟩ | ⟨raise, bytes, failed, wrote⟩
    · rw [sent, bind_of_ok wrote]
      rcases ih (s.filled m.bytes) with ⟨mods, sends, writes⟩ | ⟨raise, bytes, fails, writes⟩
      · refine .inl ⟨m :: mods, ?_, ?_⟩
        · rw [sends]
          rfl
        · rw [writes, filled_filled, List.flatMap_cons]
      · refine .inr ⟨raise, m.bytes ++ bytes, ?_, ?_⟩
        · rw [fails]
          rfl
        · rw [writes, filled_filled]
    · refine .inr ⟨raise, bytes, ?_, ?_⟩
      · rw [failed]
        rfl
      · exact bind_of_error wrote

/-! ### Codes -/

variable {C X R : Type} [LinearOrder C] {o : HotRodOperation} {s : Connection} {code : UInt32}

/-- The server answers with the code: a header whose topology, if it has one, can be taken
over, and the code behind it, all of it in time. -/
def Answered (s : Connection) (o : HotRodOperation) (opCode : OpCode) (code : UInt32) : Prop :=
  ∃ status topology n later, topologyRaises o.factory 0 topology = none ∧
    Awaiting s (header o.messageId opCode.toOpRespCode status topology ++
      WireFormat.fourByteInt.encode code) (some (n, later)) ∧
    (header o.messageId opCode.toOpRespCode status topology ++
      WireFormat.fourByteInt.encode code).length ≤ n

theorem Answered.returns {opCode : OpCode} {m : ConnectionM R} {finish : UInt8 → ConnectionM R}
    {r : R} (answered : Answered s o opCode code)
    (sent : ∀ {bytes n later}, Awaiting s bytes (some (n, later)) →
      m s = o.receive opCode finish (Operations.answered s bytes n later))
    (reads : ∀ status, Consumes (finish status) (WireFormat.fourByteInt.encode code) r) :
    ∃ t : Connection, m s = .ok r t ∧ t.Synchronised := by
  obtain ⟨status, topology, n, later, quiet, awaiting, came⟩ := answered
  rw [List.length_append] at came
  rw [sent awaiting, (Operations.reaches_receive o (.inl rfl) _).of_came rfl
    (Nat.le_trans (Nat.le_add_right _ _) came), Operations.actOnHeader_own, quiet, unlessRaised,
    (reads status).of_came (List.append_nil _).symm (Nat.le_sub_of_add_le' came)]
  exact ⟨_, rfl, rfl, rfl⟩

theorem returned_commit (answered : Answered s o .commit code) (xid : Operations.XID) :
    ∃ t : Connection, Operations.CommitOperation.executeOperation o xid s = .ok code t ∧
      t.Synchronised :=
  answered.returns (Operations.exchange_sent o _ _) fun _ =>
    consumes_read WireFormat.fourByteInt code

theorem returned_rollback (answered : Answered s o .rollback code) (xid : Operations.XID) :
    ∃ t : Connection, Operations.RollbackOperation.executeOperation o xid s = .ok 0 t ∧
      t.Synchronised :=
  answered.returns (Operations.exchange_sent o _ _) fun _ =>
    (consumes_read WireFormat.fourByteInt code).map _

theorem returned_prepare (answered : Answered s o .prepare code) (xid : Operations.XID)
    {entries : List (Bytes × ContextEntry V)} {context : List PreparedEntry}
    (views : List.Forall₂ (fun entry => Views entry.1 entry.2) entries context)
    {mods : List (Modification Bytes)}
    (sends : entries.mapM (fun entry => entryModification entry.1 entry.2) = .ok mods) :
    ∃ t : Connection, Operations.PrepareCommitOperation.executeOperation o xid context s =
      .ok code t ∧ t.Synchronised := by
  have reads : Consumes read4ByteInt (WireFormat.fourByteInt.encode code) code := consumes_read _ _
  refine answered.returns ?_ fun _ => reads
  intro bytes n later awaiting
  obtain ⟨headerBytes, header⟩ := Operations.writeHeader_eq o .prepare s
  rw [Operations.PrepareCommitOperation.executeOperation, bind_of_ok header,
    bind_of_ok (write_apply _ _)]
  rcases writeEntries_modifications views ((s.filled _).filled _) with
    ⟨mods, -, wrote⟩ | ⟨raise, bytes, fails, -⟩
  · rw [bind_of_ok wrote, filled_filled, filled_filled,
      bind_of_ok (Operations.flush_sent awaiting _)]
  · rw [sends] at fails
    cases fails

/-! ### Calls -/

-- The identifier as it is written, with the format every transaction shares.
def XID.sent (xid : XID) : Operations.XID where
  formatId := Operations.formatId
  globalTransactionId := xid.globalTransactionId
  branchQualifier := xid.branchQualifier

def request (servers : Servers C) (xid : XID) (cache : C) : Phase → ManagerM C X UInt32
  | .prepare => basePrepareCommit servers xid cache
  | .commit => baseCommit servers xid cache
  | .rollback => baseRollback servers xid cache

/-- The operation behind it, over the entries of the cache's context. -/
def execute (o : HotRodOperation) (xid : Operations.XID) (context : List PreparedEntry) :
    Phase → ConnectionM UInt32
  | .prepare => Operations.PrepareCommitOperation.executeOperation o xid context
  | .commit => Operations.CommitOperation.executeOperation o xid
  | .rollback => Operations.RollbackOperation.executeOperation o xid

def Phase.opCode : Phase → OpCode
  | .prepare => .prepare
  | .commit => .commit
  | .rollback => .rollback

-- Every call of the manager returns what its operation returns on a connection whose server answers
-- with the same code.
theorem request_as_executed (codes : C → UInt32) (cache : C) (phase : Phase)
    (answered : Answered s o phase.opCode (codes cache)) {entries : List (Bytes × ContextEntry V)}
    {context : List PreparedEntry}
    (views : List.Forall₂ (fun entry => Views entry.1 entry.2) entries context)
    {mods : List (Modification Bytes)}
    (sends : entries.mapM (fun entry => entryModification entry.1 entry.2) = .ok mods)
    (xid : XID) (session : Session C X) :
    ∃ code t session', execute o xid.sent context phase s = .ok code t ∧
      request (answering codes) xid cache phase session = .ok code session' := by
  cases phase with
  | prepare =>
    obtain ⟨t, returned, -⟩ := returned_prepare answered xid.sent views sends
    exact ⟨_, t, _, returned, rfl⟩
  | commit =>
    obtain ⟨t, returned, -⟩ := returned_commit answered xid.sent
    exact ⟨_, t, _, returned, rfl⟩
  | rollback =>
    -- both give 0 for whatever code has come
    obtain ⟨t, returned, -⟩ := returned_rollback answered xid.sent
    exact ⟨_, t, _, returned, rfl⟩

end HotRod.Transactions
