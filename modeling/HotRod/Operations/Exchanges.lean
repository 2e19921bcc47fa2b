import HotRod.Operations.Bodies

/-! Every pooled operation sends its request whole before it reads, and finishes
the response its protocol allows.

The two exceptions are visible in `Command.exchanges`: a value marshaller of
`PrepareCommitOperation` that raises, and `AddClientListenerOperation`, whose
answer has events before its header. -/

set_option autoImplicit false

namespace HotRod.Operations

open Semantics.Execution
open Protocol HotRodConstants
open WireFormat (Bytes)

variable {R : Type} {o : HotRodOperation} {opCode : OpCode} {m : ConnectionM R}
    {finish : UInt8 → ConnectionM R}
  {cmd : Command} {s : Connection} {bytes : List UInt8} {n : Nat} {later : List Nat}

/-- The program gives up its connection, or comes to read the answer with its
request out. -/
def Sends (m : ConnectionM R) (o : HotRodOperation) (opCode : OpCode)
    (finish : UInt8 → ConnectionM R) : Prop :=
  ∀ {s : Connection} {bytes : List UInt8} {arrivals : Option (Nat × List Nat)},
    Awaiting s bytes arrivals →
    (∃ e t, m s = .error e t ∧ e.isTransport = true) ∨
      ∃ t : Connection, t.unread = bytes ∧ t.output = [] ∧ m s = o.receive opCode finish t

theorem sends_exchange (o : HotRodOperation) (opCode : OpCode) (request : List UInt8)
    (finish : UInt8 → ConnectionM R) :
    Sends (o.exchange opCode request finish) o opCode finish := by
  intro s bytes arrivals awaiting
  match arrivals, awaiting with
  | none, awaiting =>
    obtain ⟨t, refused, -⟩ := exchange_refused o opCode finish awaiting
    exact .inl ⟨_, t, refused, rfl⟩
  | some (n, later), awaiting =>
    exact .inr ⟨answered s bytes n later, rfl, rfl, exchange_sent o opCode finish awaiting⟩

theorem receive_discard (o : HotRodOperation) (opCode : OpCode) (finish : UInt8 → ConnectionM R) :
    (discard (o.receive opCode finish) : ConnectionM PUnit) = o.receive opCode fun status =>
      discard (finish status) := by
  simp only [discard, Functor.discard, LawfulFunctor.map_const, Function.comp_apply,
    HotRodOperation.receive, map_bind]

theorem Sends.discarded (sends : Sends m o opCode finish) :
    Sends (discard m : ConnectionM PUnit) o opCode fun status => discard (finish status) := by
  intro s bytes arrivals awaiting
  rcases sends awaiting with ⟨e, t, raised, transport⟩ | ⟨t, unread, sent, reads⟩
  · refine .inl ⟨e, t, ?_, transport⟩
    change (Function.const R PUnit.unit <$> m) s = _
    rw [map_apply, raised]
  · refine .inr ⟨t, unread, sent, ?_⟩
    rw [← receive_discard]
    change (Function.const R PUnit.unit <$> m) s =
      (Function.const R PUnit.unit <$> o.receive opCode finish) t
    rw [map_apply, map_apply, reads]

theorem Finishes.discarded (finishes : Finishes cmd finish) :
    Finishes cmd fun status => (discard (finish status) : ConnectionM PUnit) where
  drains allowed clean unread sent := drains_discard (finishes.drains allowed clean unread sent)
  strands allowed unclean unread := strands_discard (finishes.strands allowed unclean unread)

/-! ### Requests of their own -/

-- The first key takes the header along, and its answer comes once.
theorem writeKeys_sent (awaiting : Awaiting s bytes (some (n, later))) (written : List UInt8)
    (item : List UInt8) (keySet : List (List UInt8)) :
    GetAllOperation.writeKeys (item :: keySet) (s.filled written) =
      .ok () (answered s bytes n later) := by
  have others : ∀ keys, GetAllOperation.writeKeys keys (answered s bytes n later) =
      .ok () (answered s bytes n later) := by
    intro keys
    induction keys with
    | nil => rfl
    | cons key keys ih =>
      have flushed : flush ((answered s bytes n later).filled (writeArray key)) =
          .ok () (answered s bytes n later) := rfl
      rw [GetAllOperation.writeKeys, bind_of_ok (write_apply _ _), bind_of_ok flushed, ih]
  rw [GetAllOperation.writeKeys, bind_of_ok (write_apply _ _), filled_filled,
    bind_of_ok (flush_sent awaiting _)]
  exact others keySet

theorem getAll_sent (o : HotRodOperation) (awaiting : Awaiting s bytes (some (n, later)))
    (item : List UInt8) (keySet : List (List UInt8)) :
    GetAllOperation.executeOperation o (item :: keySet) s =
      o.receive .getAll
        (fun status => if status = noErrorStatus then GetAllOperation.readResult else pure [])
        (answered s bytes n later) := by
  obtain ⟨headerBytes, header⟩ := writeHeader_eq o .getAll s
  rw [GetAllOperation.executeOperation, bind_of_ok header, bind_of_ok (write_apply _ _),
    filled_filled, bind_of_ok (writeKeys_sent awaiting _ item keySet)]

theorem sends_getAll (o : HotRodOperation) (keySet : List (List UInt8)) :
    Sends (GetAllOperation.executeOperation o keySet) o .getAll
      fun status => if status = noErrorStatus then GetAllOperation.readResult else pure [] := by
  intro s bytes arrivals awaiting
  obtain ⟨headerBytes, header⟩ := writeHeader_eq o .getAll s
  rw [GetAllOperation.executeOperation, bind_of_ok header, bind_of_ok (write_apply _ _),
    filled_filled]
  match keySet, arrivals, awaiting with
  | [], _, awaiting =>
    -- without a key nothing is flushed, and the server has nothing to answer
    rw [bind_of_ok (show GetAllOperation.writeKeys [] _ = .ok () _ from rfl)]
    exact .inl ⟨_, _, receive_starved o awaiting.unread, rfl⟩
  | item :: keySet, none, awaiting =>
    rw [GetAllOperation.writeKeys, bind_assoc, bind_of_ok (write_apply _ _), filled_filled,
      bind_assoc, bind_of_error (flush_refused awaiting _)]
    exact .inl ⟨_, _, rfl, rfl⟩
  | item :: keySet, some (n, later), awaiting =>
    refine .inr ⟨answered s bytes n later, rfl, rfl, ?_⟩
    rw [← getAll_sent o awaiting item keySet, GetAllOperation.executeOperation, bind_of_ok header,
      bind_of_ok (write_apply _ _), filled_filled]

theorem sends_getCounterNames (o : HotRodOperation)
    (finish : UInt8 → ConnectionM (List (List UInt8))) :
    Sends (GetCounterNamesOperation.executeOperation o) o .counterGetNames finish := by
  intro s bytes arrivals awaiting
  obtain ⟨headerBytes, header⟩ := writeHeader_eq o .counterGetNames s
  rw [GetCounterNamesOperation.executeOperation, bind_of_ok header]
  exact .inl ⟨_, _, receive_starved o awaiting.unread, rfl⟩

namespace PrepareCommitOperation

-- What the value marshaller of the entry raises, if it is called.
def entryRaises (e : PreparedEntry) : Option Exn :=
  match e.marshalled with
  | .error raised => if e.controlByte &&& 0x04 = 0 then some raised else none
  | .ok _ => none

def contextRaises (context : List PreparedEntry) : Option Exn := context.findSome? entryRaises

theorem writeEntry_eq (e : PreparedEntry) (s : Connection) : ∃ bytes, writeEntry e s =
    match entryRaises e with
    | some raised => .error raised (s.filled bytes)
    | none => .ok () (s.filled bytes) := by
  rw [writeEntry, bind_of_ok (write_apply _ s)]
  by_cases written : e.controlByte &&& 0x04 = 0
  · rw [if_pos written, bind_of_ok (write_apply _ _), filled_filled]
    cases marshalled : e.marshalled with
    | ok marshalledVal =>
      simp only [entryRaises, marshalled, write_apply, filled_filled]
      exact ⟨_, rfl⟩
    | error raised =>
      simp only [entryRaises, marshalled, if_pos written, throw_apply]
      exact ⟨_, rfl⟩
  · have quiet : entryRaises e = none := by
      unfold entryRaises
      split
      · exact if_neg written
      · rfl
    simp only [quiet, if_neg written, pure_apply]
    exact ⟨_, rfl⟩

theorem writeEntries_eq (context : List PreparedEntry) (s : Connection) :
    ∃ bytes, writeEntries context s =
    match contextRaises context with
    | some raised => .error raised (s.filled bytes)
    | none => .ok () (s.filled bytes) := by
  induction context generalizing s with
  | nil => exact ⟨[], by simp [writeEntries, contextRaises, Connection.filled]⟩
  | cons e context ih =>
    obtain ⟨first, wrote⟩ := writeEntry_eq e s
    cases raises : entryRaises e with
    | some raised =>
      rw [raises] at wrote
      exact ⟨first, by simp only [writeEntries, bind_of_error wrote, contextRaises,
        List.findSome?_cons, raises]⟩
    | none =>
      rw [raises] at wrote
      obtain ⟨rest, others⟩ := ih (s.filled first)
      refine ⟨first ++ rest, ?_⟩
      rw [filled_filled] at others
      simpa only [writeEntries, bind_of_ok wrote, contextRaises, List.findSome?_cons,
        raises] using others

theorem raises_unsent (o : HotRodOperation) (xid : XID) {context : List PreparedEntry}
    {raised : Exn} (raises : contextRaises context = some raised) (s : Connection) :
    ∃ t : Connection, executeOperation o xid context s = .error raised t ∧ t.output ≠ [] := by
  obtain ⟨headerBytes, header⟩ := writeHeader_eq o .prepare s
  obtain ⟨entries, wrote⟩ := writeEntries_eq context
    ((s.filled (requestMagic :: headerBytes)).filled
      (writeXID xid ++ writeByte 0 ++ writeVInt (UInt32.ofNat context.length)))
  rw [raises] at wrote
  rw [executeOperation, bind_of_ok header, bind_of_ok (write_apply _ _), bind_of_error wrote]
  exact ⟨_, rfl, by simp [Connection.filled]⟩

theorem sends_prepare (o : HotRodOperation) (xid : XID) {context : List PreparedEntry}
    (quiet : contextRaises context = none) :
    Sends (executeOperation o xid context) o .prepare fun _ => read4ByteInt := by
  intro s bytes arrivals awaiting
  obtain ⟨headerBytes, header⟩ := writeHeader_eq o .prepare s
  obtain ⟨entries, wrote⟩ := writeEntries_eq context
    ((s.filled (requestMagic :: headerBytes)).filled
      (writeXID xid ++ writeByte 0 ++ writeVInt (UInt32.ofNat context.length)))
  rw [quiet] at wrote
  rw [executeOperation, bind_of_ok header, bind_of_ok (write_apply _ _), bind_of_ok wrote,
    filled_filled, filled_filled]
  match arrivals, awaiting with
  | none, awaiting =>
    rw [bind_of_error (flush_refused awaiting _)]
    exact .inl ⟨_, _, rfl, rfl⟩
  | some (n, later), awaiting =>
    rw [bind_of_ok (flush_sent awaiting _)]
    exact .inr ⟨answered s bytes n later, rfl, rfl, rfl⟩

end PrepareCommitOperation

theorem sends_addCounterListener (o : HotRodOperation) (counterName listenerId : List UInt8) :
    Sends (AddCounterListenerOperation.executeOperation o counterName listenerId) o
      .counterAddListener
      fun status => if status ≠ noErrorStatus then setFailed true else pure () := by
  intro s bytes arrivals awaiting
  have reset : Awaiting { s with failed := false } bytes arrivals :=
    ⟨awaiting.unread, awaiting.inTime, awaiting.output, awaiting.coming⟩
  exact sends_exchange o .counterAddListener _ _ reset

/-! ### All operations -/

namespace Command

def writeRaises : Command → Option Exn
  | prepareCommit _ context => PrepareCommitOperation.contextRaises context
  | _ => none

-- The operation reads events before its response.
def listens : Command → Bool
  | addClientListener .. => true
  | _ => false

end Command

theorem Finishes.of_clean (clean : ∀ status, cmd.Clean status = true)
    (drains : ∀ {status : UInt8} {body : List UInt8} {u : Connection}, cmd.Body status body →
      u.unread = body →
      u.output = [] → Drains (finish status u)) : Finishes cmd finish where
  drains allowed _ unread sent := drains allowed unread sent
  strands _ unclean _ := by
    rw [clean] at unclean
    cases unclean

theorem Finishes.of_empty (clean : ∀ status, cmd.Clean status = true)
    (empty : ∀ {status : UInt8} {body : List UInt8}, cmd.Body status body → body = [])
    (drains : ∀ {status : UInt8} {u : Connection}, u.unread = [] → u.output = [] →
      Drains (finish status u)) :
    Finishes cmd finish :=
  .of_clean clean fun allowed unread sent => drains (unread.trans (empty allowed)) sent

section Payload

variable {payload : List UInt8 → Prop} {reader : ConnectionM R}

theorem Finishes.of_onSuccess (clean : ∀ status, cmd.Clean status = true)
    (body : cmd.Body = OnSuccess payload)
    (reads : ∀ {body : List UInt8}, payload body → ∃ r, Consumes reader body r) (default : R) :
    Finishes cmd fun status => if isSuccess status then reader else pure default := by
  refine .of_clean clean fun allowed unread sent => ?_
  rw [body] at allowed
  exact drains_onSuccess allowed reads (fun empty => drains_pure (unread.trans empty) sent)
    unread sent

theorem Finishes.of_checked (clean : ∀ status, cmd.Clean status = true)
    (body : cmd.Body = OnSuccess payload)
    (reads : ∀ {body : List UInt8}, payload body → ∃ r, Consumes reader body r) (e : UInt8 → Exn) :
    Finishes cmd fun status => if !isSuccess status then throw (e status) else reader := by
  refine .of_clean clean fun {status} {_} {u} allowed unread sent => ?_
  rw [body] at allowed
  have checked : (if !isSuccess status then throw (e status) else reader : ConnectionM R) =
      if isSuccess status then reader else throw (e status) := by
    cases isSuccess status <;> rfl
  rw [checked]
  exact drains_onSuccess allowed reads (fun empty => drains_throw (unread.trans empty) sent)
    unread sent

theorem Finishes.of_always (clean : ∀ status, cmd.Clean status = true)
    (body : cmd.Body = OnSuccess payload)
    (reads : ∀ {body : List UInt8}, payload body → ∃ r, Consumes reader body r)
    (starves : ∀ {u : Connection}, u.unread = [] → Drains (reader u)) :
    Finishes cmd fun _ => reader := by
  refine .of_clean clean fun allowed unread sent => ?_
  rw [body] at allowed
  exact drains_always allowed reads (fun empty => starves (unread.trans empty)) unread sent

end Payload

/-! ### Operations that leave bodies -/

theorem value_ne_nil {body : List UInt8} (value : IsValue body) : body ≠ [] := by
  obtain ⟨bytes, rfl⟩ := value
  exact array_encode_ne_nil bytes

theorem finishes_put (e : Entry) :
    Finishes (.put e) fun status =>
      if !isSuccess status then throw (unexpectedStatus status) else returnPossiblePrevValue
        status where
  drains {status body u} allowed clean unread sent := by
    cases success : isSuccess status with
    | true => exact drains_returnPossiblePrevValue allowed unread sent
    | false =>
      have none : hasPrevious status = false := by simpa [Command.Clean, success] using clean
      have empty : body = [] := by simpa [Command.Body, PreviousValue, none] using allowed
      exact drains_throw (unread.trans empty) sent
  strands {status body u} allowed unclean unread := by
    obtain ⟨fails, previous⟩ : isSuccess status = false ∧ hasPrevious status = true := by
      simpa [Command.Clean] using unclean
    have value : IsValue body := by simpa [Command.Body, PreviousValue, previous] using allowed
    rw [fails]
    exact strands_throw (unread ▸ value_ne_nil value)

theorem finishes_putIfAbsent (e : Entry) :
    Finishes (.putIfAbsent e) fun status =>
      if isNotExecuted status then returnPossiblePrevValue status else pure [] where
  drains {status body u} allowed clean unread sent := by
    cases refused : isNotExecuted status with
    | true => exact drains_returnPossiblePrevValue allowed unread sent
    | false =>
      have none : hasPrevious status = false := by simpa [Command.Clean, refused] using clean
      have empty : body = [] := by simpa [Command.Body, PreviousValue, none] using allowed
      exact drains_pure (unread.trans empty) sent
  strands {status body u} allowed unclean unread := by
    obtain ⟨fails, previous⟩ : isNotExecuted status = false ∧ hasPrevious status = true := by
      simpa [Command.Clean] using unclean
    have value : IsValue body := by simpa [Command.Body, PreviousValue, previous] using allowed
    rw [fails]
    exact strands_pure (unread ▸ value_ne_nil value)

theorem finishes_getAll (keySet : List (List UInt8)) :
    Finishes (.getAll keySet) fun status =>
      if status = noErrorStatus then GetAllOperation.readResult else pure [] where
  drains {status body u} allowed clean unread sent := by
    by_cases plain : status = noErrorStatus
    · subst plain
      obtain ⟨r, consumes⟩ := consumes_counted (fun n bound => UInt32.toNat_ofNat_of_lt' bound)
        consumes_readPair allowed
      exact consumes.drains unread sent
    · have fails : isSuccess status = false := by simpa [Command.Clean, plain] using clean
      have empty : body = [] := by simpa [Command.Body, OnSuccess, fails] using allowed
      rw [if_neg plain]
      exact drains_pure (unread.trans empty) sent
  strands {status body u} allowed unclean unread := by
    obtain ⟨compatible, success⟩ : status ≠ noErrorStatus ∧ isSuccess status = true := by
      simpa [Command.Clean] using unclean
    obtain ⟨xs, -, rfl⟩ : IsCounted (2 ^ 32) encodePair
        body := by simpa [Command.Body, OnSuccess, success] using allowed
    rw [if_neg compatible]
    apply strands_pure
    rw [unread]
    exact List.append_ne_nil_of_left_ne_nil (WireFormat.vInt.encode_ne_nil rfl _) _

theorem assertBoundaries_eq {counterName : List UInt8} {upper : Bool} {status : UInt8}
    (within : status ≠ notExecutedWithPrevious) (next : ConnectionM R) :
    (do
      assertBoundaries counterName upper status
      next) = next := by
  rw [assertBoundaries, if_neg within, pure_bind]

theorem drains_boundary {counterName : List UInt8} {upper : Bool} {body : List UInt8}
    {payload : List UInt8 → Prop} {u : Connection}
    (allowed : OnSuccess payload notExecutedWithPrevious body) (unread : u.unread = body)
    (sent : u.output = []) (next : ConnectionM R) :
    Drains ((do
      assertBoundaries counterName upper notExecutedWithPrevious
      next) u) := by
  have empty : body = [] := allowed
  rw [assertBoundaries, if_pos rfl]
  exact drains_throw (unread.trans empty) sent

theorem finishes_addAndGet (counterName : List UInt8) (delta : Int64) :
    Finishes (.addAndGetCounterValue counterName delta) (fun status => do
      assertBoundaries counterName (0 < delta) status
      if !isSuccess status then throw (counterError "GetCounterValue" counterName status)
        else readLong) := by
  refine .of_clean (fun _ => rfl) fun {status} {_} {u} allowed unread sent => ?_
  by_cases boundary : status = notExecutedWithPrevious
  · subst boundary
    exact drains_boundary allowed unread sent _
  · rw [assertBoundaries_eq boundary]
    have checked : Finishes (.addAndGetCounterValue counterName delta) fun status =>
        if !isSuccess status then throw (counterError "GetCounterValue" counterName status)
          else readLong :=
      .of_checked (fun _ => rfl) rfl consumes_encoded _
    exact checked.drains allowed rfl unread sent

theorem finishes_compareAndSwap (counterName : List UInt8) (expect update upperBound : Int64) :
    Finishes (.compareAndSwapCounterValue counterName expect update upperBound) (fun status => do
      assertBoundaries counterName (upperBound ≤ update) status
      if status ≠ noErrorStatus then throw (counterError "CompareAndSwap" counterName status)
        else readLong) where
  drains {status body u} allowed clean unread sent := by
    by_cases boundary : status = notExecutedWithPrevious
    · subst boundary
      exact drains_boundary allowed unread sent _
    rw [assertBoundaries_eq boundary]
    by_cases plain : status = noErrorStatus
    · subst plain
      obtain ⟨x, rfl⟩ : IsEncoded WireFormat.long body := allowed
      exact Consumes.drains (consumes_read WireFormat.long x) unread sent
    · have fails : isSuccess status = false := by simpa [Command.Clean, plain] using clean
      have empty : body = [] := by simpa [Command.Body, OnSuccess, fails] using allowed
      rw [if_pos plain]
      exact drains_throw (unread.trans empty) sent
  strands {status body u} allowed unclean unread := by
    obtain ⟨compatible, success⟩ : status ≠ noErrorStatus ∧ isSuccess status = true := by
      simpa [Command.Clean] using unclean
    have within : status ≠ notExecutedWithPrevious := by
      rintro rfl
      cases success
    obtain ⟨x, rfl⟩ : IsEncoded WireFormat.long body := by simpa [Command.Body, OnSuccess,
      success] using allowed
    rw [assertBoundaries_eq within, if_pos compatible]
    apply strands_throw
    rw [unread]
    exact WireFormat.long.encode_ne_nil rfl x

theorem rspCode_of_hasPrevious {status : UInt8} (previous : hasPrevious status = true) :
    rspCode status ≠ none := by
  simp only [hasPrevious, Bool.or_eq_true, beq_iff_eq] at previous
  rcases previous with ((rfl | rfl) | rfl) | rfl <;> decide

theorem drains_versioned {status : UInt8} {body : List UInt8} {u : Connection}
    (allowed : PreviousValue status body) (unread : u.unread = body) (sent : u.output = []) :
    Drains (returnVersionedOperationResponse status u) := by
  rw [returnVersionedOperationResponse]
  cases code : rspCode status with
  | none =>
    have previous : hasPrevious status = false :=
      Bool.eq_false_iff.mpr fun previous => rspCode_of_hasPrevious previous code
    have empty : body = [] := by simpa [PreviousValue, previous] using allowed
    exact drains_throw (unread.trans empty) sent
  | some rsp =>
    have read := drains_returnPossiblePrevValue allowed unread sent
    change Drains ((returnPossiblePrevValue status >>= fun prevValue => pure (prevValue, rsp)) u)
    rw [bind_apply]
    cases result : returnPossiblePrevValue status u with
    | ok value t => simpa only [Drains, result, meets_ok, pure_apply] using read
    | error e t => simpa only [Drains, result, meets_error] using read

theorem drains_checkCounter {operation : String} {counterName : List UInt8} {status : UInt8}
    {u : Connection} (unread : u.unread = []) (sent : u.output = []) :
    Drains (checkCounter operation counterName status u) := by
  rw [checkCounter]
  split_ifs
  · exact drains_throw unread sent
  · exact drains_pure unread sent

/-! ### All of them -/

theorem exchanges_of (sends : Sends m o opCode finish) (finishes : Finishes cmd finish) :
    ∃ finish : UInt8 → ConnectionM PUnit, Sends (discard m) o opCode finish ∧ Finishes cmd finish :=
  ⟨_, sends.discarded, finishes.discarded⟩

-- Every operation but the one that listens, if it can write its request, sends it and finishes the
-- responses its protocol allows.
theorem Command.exchanges (cmd : Command) (o : HotRodOperation) (ready : cmd.writeRaises = none)
    (pooled : cmd.listens = false) :
    ∃ finish : UInt8 → ConnectionM PUnit, Sends (cmd.executeOperation o) o cmd.opCode finish ∧
      Finishes cmd finish := by
  cases cmd with
  | get key =>
    exact exchanges_of (sends_exchange o _ _ _)
      (.of_onSuccess (fun _ => rfl) rfl consumes_value [])
  | put e => exact exchanges_of (sends_exchange o _ _ _) (finishes_put e)
  | putIfAbsent e => exact exchanges_of (sends_exchange o _ _ _) (finishes_putIfAbsent e)
  | replace e =>
    exact exchanges_of (sends_exchange o _ _ _) (.of_clean (fun _ => rfl)
      drains_returnPossiblePrevValue)
  | replaceIfUnmodified e version =>
    exact exchanges_of (sends_exchange o _ _ _) (.of_clean (fun _ => rfl) drains_versioned)
  | remove key =>
    exact exchanges_of (sends_exchange o _ _ _) (.of_clean (fun _ => rfl)
      drains_returnPossiblePrevValue)
  | removeIfUnmodified key version =>
    exact exchanges_of (sends_exchange o _ _ _) (.of_clean (fun _ => rfl) drains_versioned)
  | containsKey key =>
    exact exchanges_of (sends_exchange o _ _ _) (.of_empty (fun _ => rfl) id drains_pure)
  | getWithVersion key =>
    exact exchanges_of (sends_exchange o _ _ _) (.of_onSuccess (fun _ => rfl) rfl
      consumes_versioned none)
  | getWithMetadata key =>
    exact exchanges_of (sends_exchange o _ _ _) (.of_onSuccess (fun _ => rfl) rfl
      consumes_metadata none)
  | bulkGet entryCount =>
    exact exchanges_of (sends_exchange o _ _ _) (.of_always (fun _ => rfl) rfl
      (consumes_marked consumes_readPair) drains_readWhileMarked)
  | bulkGetKeys scope =>
    exact exchanges_of (sends_exchange o _ _ _) (.of_always (fun _ => rfl) rfl
      (consumes_marked consumes_readValue) drains_readWhileMarked)
  | clear => exact exchanges_of (sends_exchange o _ _ _) (.of_empty (fun _ => rfl) id drains_pure)
  | size =>
    exact exchanges_of (sends_exchange o _ _ _) (.of_always (fun _ => rfl) rfl
      consumes_encoded (drains_starved rfl))
  | stats =>
    exact exchanges_of (sends_exchange o _ _ _) (.of_always (fun _ => rfl) rfl
      (consumes_counted (fun _ bound => signed_count bound) consumes_readPair)
        (drains_bind_starved rfl))
  | ping =>
    exact exchanges_of (o := o) (sends_exchange { o with flags := 0 } _ _ _)
      (.of_empty (fun _ => rfl) id drains_pure)
  | query queryRequest =>
    exact exchanges_of (sends_exchange o _ _ _)
      (.of_onSuccess (fun _ => rfl) rfl consumes_value [])
  | executeCmd cmdName cmdArgs =>
    exact exchanges_of (sends_exchange o _ _ _) (.of_always (fun _ => rfl) rfl
      consumes_value (drains_bind_starved rfl))
  | getAll keySet => exact exchanges_of (sends_getAll o keySet) (finishes_getAll keySet)
  | prepareCommit xid context =>
    exact exchanges_of (PrepareCommitOperation.sends_prepare o xid ready)
      (.of_always (fun _ => rfl) rfl consumes_encoded (drains_starved rfl))
  | commit xid =>
    exact exchanges_of (sends_exchange o _ _ _) (.of_always (fun _ => rfl) rfl
      consumes_encoded (drains_starved rfl))
  | rollback xid =>
    -- the code is read, and then dropped
    exact exchanges_of (sends_exchange o _ _ _) (.of_always (fun _ => rfl) rfl
      (fun ⟨x, encoded⟩ => ⟨_, encoded ▸ (consumes_read WireFormat.fourByteInt x).map _⟩)
        (drains_bind_starved rfl))
  | defineCounter counterName configuration =>
    exact exchanges_of (sends_exchange o _ _ _) (.of_empty (fun _ => rfl) id drains_pure)
  | getCounterConfiguration counterName =>
    exact exchanges_of (sends_exchange o _ _ _) (.of_checked (fun _ => rfl) rfl
      consumes_configuration _)
  | resetCounter counterName =>
    exact ⟨_, sends_exchange o _ _ _, .of_empty (fun _ => rfl) id drains_checkCounter⟩
  | removeCounter counterName =>
    exact ⟨_, sends_exchange o _ _ _, .of_empty (fun _ => rfl) id drains_checkCounter⟩
  | getCounterNames =>
    -- the request is never sent, so it does not matter what would become of the response
    exact exchanges_of (sends_getCounterNames o _) (.of_onSuccess (fun _ => rfl) rfl
      (consumes_counted (fun _ bound => UInt32.toNat_ofNat_of_lt' bound) consumes_readValue) [])
  | isCounterDefined counterName =>
    exact exchanges_of (sends_exchange o _ _ _) (.of_empty (fun _ => rfl) id drains_pure)
  | getCounterValue counterName =>
    exact exchanges_of (sends_exchange o _ _ _) (.of_checked (fun _ => rfl) rfl
      consumes_encoded _)
  | addAndGetCounterValue counterName delta =>
    exact exchanges_of (sends_exchange o _ _ _) (finishes_addAndGet counterName delta)
  | compareAndSwapCounterValue counterName expect update upperBound =>
    exact exchanges_of (sends_exchange o _ _ _)
      (finishes_compareAndSwap counterName expect update upperBound)
  | addCounterListener counterName listenerId keepTransport =>
    refine ⟨_, sends_addCounterListener o counterName listenerId,
      .of_empty (fun _ => rfl) id fun unread sent => ?_⟩
    split_ifs
    · exact ⟨unread, sent⟩
    · exact drains_pure unread sent
  | removeCounterListener counterName listenerId =>
    exact exchanges_of (sends_exchange o _ _ _) (.of_empty (fun _ => rfl) id drains_pure)
  | removeClientListener listenerId =>
    exact exchanges_of (sends_exchange o _ _ _) (.of_empty (fun _ => rfl) id drains_pure)
  | addClientListener listener listenerId => cases pooled

end HotRod.Operations
