import HotRod.Protocol.Codec

/-! The bodies of the pooled operations, as programs over a connection.

Most of them write a request, flush it, read the header and then whatever their
status calls for; `exchange` is that sequence. The others keep their own bodies:
`GetAllOperation` flushes in its loop, `GetCounterNamesOperation` never does,
`PrepareCommitOperation` runs the user's marshallers while it writes, and
`AddClientListenerOperation` reads events before its response. -/

set_option autoImplicit false

namespace HotRod.Operations

open Protocol HotRodConstants

variable {R : Type}

/-- The members of `HotRodOperation`, the message id its request gets, and the
factory of its transport. -/
structure HotRodOperation where
  codec : Codec
  flags : UInt32
  cacheName : List UInt8
  topologyId : UInt32
  dataFormat : Option EntryMediaTypes
  messageId : UInt64
  factory : Protocol.TransportFactory

namespace HotRodOperation

-- An operation on the default cache, without any flags.
def plain : HotRodOperation where
  codec := .codec28
  flags := 0
  cacheName := []
  topologyId := 0
  dataFormat := none
  messageId := 1
  factory := { getTopologyId := none, topologyAge := 0, update := fun _ _ => none }

def params (o : HotRodOperation) (opCode : OpCode) : HeaderParams where
  opCode
  messageId := o.messageId
  cacheName := o.cacheName
  flags := o.flags
  topologyId := o.topologyId
  topologyAge := 0
  dataFormat := o.dataFormat

def writeHeader (o : HotRodOperation) (opCode : OpCode) : ConnectionM PUnit :=
  o.codec.writeHeader (o.params opCode)

def readHeaderAndValidate (o : HotRodOperation) (opCode : OpCode) : ConnectionM UInt8 :=
  readHeader o.factory (o.params opCode)

def receive (o : HotRodOperation) (opCode : OpCode) (finish : UInt8 → ConnectionM R) :
    ConnectionM R := do
  let status ← o.readHeaderAndValidate opCode
  finish status

def exchange (o : HotRodOperation) (opCode : OpCode) (body : List UInt8)
    (finish : UInt8 → ConnectionM R) : ConnectionM R := do
  o.writeHeader opCode
  write body
  flush
  o.receive opCode finish

end HotRodOperation

open HotRodOperation

/-! ### Keys and values -/

-- `Codec22` sends units, and no duration where there is none.
def writeExpirationParams (codec : Codec) (lifespan maxIdle : UInt32) : List UInt8 :=
  if codec.protocolVersion < 22 then writeVInt lifespan ++ writeVInt maxIdle
  else
    let units : UInt32 → UInt8 := fun duration => if duration = 0 then 0x07 else 0x00
    writeByte (units lifespan <<< 4 ||| units maxIdle)
      ++ (if lifespan = 0 then [] else writeVLong lifespan.toUInt64)
      ++ (if maxIdle = 0 then [] else writeVLong maxIdle.toUInt64)

structure Entry where
  key : List UInt8
  value : List UInt8
  lifespan : UInt32
  maxIdle : UInt32

def putBody (o : HotRodOperation) (e : Entry) : List UInt8 :=
  writeArray e.key ++ writeExpirationParams o.codec e.lifespan e.maxIdle ++ writeArray e.value

def readValue : ConnectionM (List UInt8) := do
  let value ← readArray
  pure value.1

def GetOperation.executeOperation (o : HotRodOperation) (key : List UInt8) :
    ConnectionM (List UInt8) :=
  o.exchange .get (writeArray key) fun status => if isSuccess status then readValue else pure []

-- The status goes into the stream as a character.
def unexpectedStatus (status : UInt8) : Exn :=
  .invalidResponse ("Unexpected response status: " ++ text [status])

def PutOperation.executeOperation (o : HotRodOperation) (e : Entry) : ConnectionM (List UInt8) :=
  o.exchange .put (putBody o e) fun status =>
    if !isSuccess status then throw (unexpectedStatus status) else returnPossiblePrevValue status

def PutIfAbsentOperation.executeOperation (o : HotRodOperation) (e : Entry) :
    ConnectionM (List UInt8) :=
  o.exchange .putIfAbsent (putBody o e) fun status =>
    if isNotExecuted status then returnPossiblePrevValue status else pure []

def ReplaceOperation.executeOperation (o : HotRodOperation) (e : Entry) :
    ConnectionM (List UInt8) :=
  o.exchange .replace (putBody o e) returnPossiblePrevValue

def RemoveOperation.executeOperation (o : HotRodOperation) (key : List UInt8) :
    ConnectionM (List UInt8) :=
  o.exchange .remove (writeArray key) returnPossiblePrevValue

inductive RspCode where
  | success | modifiedKey | noSuchKey
  deriving DecidableEq, Repr

def rspCode (status : UInt8) : Option RspCode :=
  if isSuccess status then some .success
  else if isNotExecuted status then some .modifiedKey
  else if status = keyDoesNotExistStatus then some .noSuchKey
  else none

def returnVersionedOperationResponse (status : UInt8) : ConnectionM (List UInt8 × RspCode) :=
  match rspCode status with
  | some code => do
    let prevValue ← returnPossiblePrevValue status
    pure (prevValue, code)
  | none => throw (.invalidResponse ("Unknown response status: " ++ hex status.toNat))

def ReplaceIfUnmodifiedOperation.executeOperation (o : HotRodOperation) (e : Entry)
    (version : UInt64) : ConnectionM (List UInt8 × RspCode) :=
  o.exchange .replaceIfUnmodified
    (writeArray e.key ++ writeExpirationParams o.codec e.lifespan e.maxIdle ++ writeLong version
      ++ writeArray e.value)
    returnVersionedOperationResponse

def RemoveIfUnmodifiedOperation.executeOperation (o : HotRodOperation) (key : List UInt8)
    (version : UInt64) : ConnectionM (List UInt8 × RspCode) :=
  o.exchange .removeIfUnmodified (writeArray key ++ writeLong version)
    returnVersionedOperationResponse

def ContainsKeyOperation.executeOperation (o : HotRodOperation) (key : List UInt8) :
    ConnectionM Bool :=
  o.exchange .containsKey (writeArray key) fun status => pure (isSuccess status)

/-- `none` is the default value an unsuccessful operation returns. -/
def readVersioned : ConnectionM (Option (UInt64 × List UInt8)) := do
  let version ← readLong
  let value ← readValue
  pure (some (version, value))

def GetWithVersionOperation.executeOperation (o : HotRodOperation) (key : List UInt8) :
    ConnectionM (Option (UInt64 × List UInt8)) :=
  o.exchange .getWithVersion (writeArray key) fun status =>
    if isSuccess status then readVersioned else pure none

/-- A time stamp and a duration, unless the flag says that it is infinite. -/
def readSpan (flag infinite : UInt8) : ConnectionM (Option (UInt64 × UInt32)) :=
  if flag &&& infinite ≠ infinite then do
    let stamp ← readLong
    let duration ← readVInt
    pure (some (stamp, duration))
  else pure none

structure Metadata where
  lifespan : Option (UInt64 × UInt32)
  maxIdle : Option (UInt64 × UInt32)
  version : UInt64
  value : List UInt8

def readMetadata : ConnectionM (Option Metadata) := do
  let flag ← readByte
  let lifespan ← readSpan flag infiniteLifespan
  let maxIdle ← readSpan flag infiniteMaxidle
  let version ← readLong
  let value ← readValue
  pure (some { lifespan, maxIdle, version, value })

def GetWithMetadataOperation.executeOperation (o : HotRodOperation) (key : List UInt8) :
    ConnectionM (Option Metadata) :=
  o.exchange .getWithMetadata (writeArray key) fun status =>
    if isSuccess status then readMetadata else pure none

/-! ### Whole caches -/

def readPair : ConnectionM (List UInt8 × List UInt8) := do
  let key ← readValue
  let value ← readValue
  pure (key, value)

def BulkGetOperation.executeOperation (o : HotRodOperation) (entryCount : UInt32) :
    ConnectionM (List (List UInt8 × List UInt8)) :=
  o.exchange .bulkGet (writeVInt entryCount) fun _ => readWhileMarked readPair

def BulkGetKeysOperation.executeOperation (o : HotRodOperation) (scope : UInt32) :
    ConnectionM (List (List UInt8)) :=
  o.exchange .bulkGetKeys (writeVInt scope) fun _ => readWhileMarked readValue

def ClearOperation.executeOperation (o : HotRodOperation) : ConnectionM (List UInt8) :=
  o.exchange .clear [] fun _ => pure []

def SizeOperation.executeOperation (o : HotRodOperation) : ConnectionM UInt32 :=
  o.exchange .size [] fun _ => readVInt

-- The count is a signed integer.
def readStats : ConnectionM (List (List UInt8 × List UInt8)) := do
  let nrOfStats ← readVInt
  readMany readPair nrOfStats.toInt32.toNatClampNeg

def StatsOperation.executeOperation (o : HotRodOperation) :
    ConnectionM (List (List UInt8 × List UInt8)) :=
  o.exchange .stats [] fun _ => readStats

inductive PingResult where
  | success | successWithCompat | fail
  deriving DecidableEq, Repr

def PingOperation.execute (o : HotRodOperation) : ConnectionM PingResult :=
  o.exchange .ping [] fun status =>
    pure (if isSuccess status then
        if hasCompatibility status then .successWithCompat else .success
      else .fail)

def FaultTolerantPingOperation.executeOperation (o : HotRodOperation) : ConnectionM PingResult :=
  PingOperation.execute { o with flags := 0 }

def QueryOperation.executeOperation (o : HotRodOperation) (queryRequest : List UInt8) :
    ConnectionM (List UInt8) :=
  o.exchange .query (writeArray queryRequest) fun status =>
    if isSuccess status then readValue else pure []

def writePair (pair : List UInt8 × List UInt8) : List UInt8 :=
  writeArray pair.1 ++ writeArray pair.2

/-- Also the body of `ExecuteCmdKeyOperation`, which differs in how it gets its
transport, and of `AdminOperation`. -/
def ExecuteCmdOperation.executeOperation (o : HotRodOperation) (cmdName : List UInt8)
    (cmdArgs : List (List UInt8 × List UInt8)) : ConnectionM (List UInt8) :=
  o.exchange .exec
    (writeArray cmdName ++ writeVInt (UInt32.ofNat cmdArgs.length) ++ cmdArgs.flatMap writePair)
    fun _ => readValue

-- The loop over the keys: each is flushed on its own.
def GetAllOperation.writeKeys : List (List UInt8) → ConnectionM PUnit
  | [] => pure ()
  | item :: keySet => do
    write (writeArray item)
    flush
    writeKeys keySet

def GetAllOperation.readResult : ConnectionM (List (List UInt8 × List UInt8)) := do
  let count ← readVInt
  readMany readPair count.toNat

def GetAllOperation.executeOperation (o : HotRodOperation) (keySet : List (List UInt8)) :
    ConnectionM (List (List UInt8 × List UInt8)) := do
  o.writeHeader .getAll
  write (writeVInt (UInt32.ofNat keySet.length))
  writeKeys keySet
  o.receive .getAll fun status => if status = noErrorStatus then readResult else pure []

/-! ### Transactions -/

structure XID where
  formatId : UInt32
  globalTransactionId : List UInt8
  branchQualifier : List UInt8

def writeXID (xid : XID) : List UInt8 :=
  writeVInt ((xid.formatId <<< 1) ^^^ (xid.formatId >>> 31)) ++ writeArray xid.globalTransactionId
    ++ writeArray xid.branchQualifier

/-- An entry of the transaction context with the outcome of its value marshaller. -/
structure PreparedEntry where
  key : List UInt8
  controlByte : UInt8
  version : UInt64
  lifespan : Int
  maxIdle : Int
  marshalled : Except Exn (List UInt8)

namespace PrepareCommitOperation

def writeTime (time : Int) : List UInt8 :=
  if 0 < time then writeVLong (UInt64.ofNat time.toNat) else []

def writeEntry (e : PreparedEntry) : ConnectionM PUnit := do
  write (writeArray e.key ++ writeByte e.controlByte
    ++ if e.controlByte &&& 0x03 = 0 then writeLong e.version else [])
  if e.controlByte &&& 0x04 = 0 then do
    write (writeByte 0x77 ++ writeTime e.lifespan ++ writeTime e.maxIdle)
    match e.marshalled with
    | .ok marshalledVal => write (writeArray marshalledVal)
    | .error raised => throw raised
  else pure ()

def writeEntries : List PreparedEntry → ConnectionM PUnit
  | [] => pure ()
  | e :: context => do
    writeEntry e
    writeEntries context

def executeOperation (o : HotRodOperation) (xid : XID) (context : List PreparedEntry) :
    ConnectionM UInt32 := do
  o.writeHeader .prepare
  write (writeXID xid ++ writeByte 0 ++ writeVInt (UInt32.ofNat context.length))
  writeEntries context
  flush
  o.receive .prepare fun _ => read4ByteInt

end PrepareCommitOperation

def CommitOperation.executeOperation (o : HotRodOperation) (xid : XID) : ConnectionM UInt32 :=
  o.exchange .commit (writeXID xid) fun _ => read4ByteInt

def RollbackOperation.executeOperation (o : HotRodOperation) (xid : XID) : ConnectionM UInt32 :=
  o.exchange .rollback (writeXID xid) fun _ => do
    let _ ← read4ByteInt
    pure 0

/-! ### Counters -/

inductive CounterType where
  | unboundedStrong | boundedStrong | weak
  deriving DecidableEq, Repr

structure CounterConfiguration where
  initialValue : UInt64
  lowerBound : UInt64 := 0
  upperBound : UInt64 := 0
  concurrencyLevel : UInt32 := 0
  type : CounterType
  persistent : Bool

def counterFlags (type : CounterType) (persistent : Bool) : UInt8 :=
  (match type with
    | .weak => 0x01
    | .boundedStrong => 0x02
    | .unboundedStrong => 0x00) ||| if persistent then 0x04 else 0x00

-- The fields after the flags depend on the type.
def writeCounterFields (c : CounterConfiguration) : List UInt8 :=
  match c.type with
  | .weak => writeVInt c.concurrencyLevel ++ writeLong c.initialValue
  | .boundedStrong => writeLong c.lowerBound ++ (writeLong c.upperBound ++ writeLong c.initialValue)
  | .unboundedStrong => writeLong c.initialValue

def writeConfiguration (c : CounterConfiguration) : List UInt8 :=
  writeByte (counterFlags c.type c.persistent) ++ writeCounterFields c

def counterType (flags : UInt8) : Option CounterType :=
  if flags &&& 0x03 = 0x00 then some .unboundedStrong
  else if flags &&& 0x03 = 0x01 then some .weak
  else if flags &&& 0x03 = 0x02 then some .boundedStrong
  else none

def readCounterFields (persistent : Bool) : CounterType → ConnectionM CounterConfiguration
  | .weak => do
    let concurrencyLevel ← readVInt
    let initialValue ← readLong
    pure { initialValue, concurrencyLevel, type := .weak, persistent }
  | .boundedStrong => do
    let lowerBound ← readLong
    let upperBound ← readLong
    let initialValue ← readLong
    pure { initialValue, lowerBound, upperBound, type := .boundedStrong, persistent }
  | .unboundedStrong => do
    let initialValue ← readLong
    pure { initialValue, type := .unboundedStrong, persistent }

def readConfiguration : ConnectionM CounterConfiguration := do
  let flags ← readByte
  match counterType flags with
  | some type => readCounterFields (flags &&& 0x04 != 0) type
  | none => throw (.hotRodClient ("Unknown counter type: " ++ toString flags.toNat))

def counterError (operation : String) (counterName : List UInt8) (status : UInt8) : Exn :=
  .hotRodClient ("Error in " ++ operation ++ " operation, counter name: " ++ text counterName
    ++ " status: " ++ toString status.toNat)

def DefineCounterOperation.executeOperation (o : HotRodOperation) (counterName : List UInt8)
    (configuration : CounterConfiguration) : ConnectionM Bool :=
  o.exchange .counterCreate (writeArray counterName ++ writeConfiguration configuration)
    fun status => pure (isSuccess status)

def GetCounterConfigurationOperation.executeOperation (o : HotRodOperation)
    (counterName : List UInt8) : ConnectionM CounterConfiguration :=
  o.exchange .counterGetConfiguration (writeArray counterName) fun status =>
    if !isSuccess status then throw (counterError "CounterGetConfiguration" counterName status)
    else readConfiguration

-- The checks of the two operations without a result.
def checkCounter (operation : String) (counterName : List UInt8) (status : UInt8) :
    ConnectionM PUnit :=
  if !isSuccess status && status != keyDoesNotExistStatus then
    throw (counterError operation counterName status)
  else pure ()

def ResetCounterOperation.executeOperation (o : HotRodOperation) (counterName : List UInt8) :
    ConnectionM PUnit :=
  o.exchange .counterReset (writeArray counterName) (checkCounter "CounterReset" counterName)

def RemoveCounterOperation.executeOperation (o : HotRodOperation) (counterName : List UInt8) :
    ConnectionM PUnit :=
  o.exchange .counterRemove (writeArray counterName) (checkCounter "CounterRemove" counterName)

/-- There is no flush, and the names are read if the status is no success. -/
def GetCounterNamesOperation.executeOperation (o : HotRodOperation) :
    ConnectionM (List (List UInt8)) := do
  o.writeHeader .counterGetNames
  o.receive .counterGetNames fun status =>
    if !isSuccess status then do
      let num ← readVInt
      readMany readValue num.toNat
    else pure []

-- The request is the one that creates a counter.
def IsCounterDefinedOperation.executeOperation (o : HotRodOperation) (counterName : List UInt8) :
    ConnectionM Bool :=
  o.exchange .counterCreate (writeArray counterName) fun status => pure (status == 0x00)

def GetCounterValueOperation.executeOperation (o : HotRodOperation) (counterName : List UInt8) :
    ConnectionM UInt64 :=
  o.exchange .counterGet (writeArray counterName) fun status =>
    if !isSuccess status then throw (counterError "GetCountervalue" counterName status)
    else readLong

-- `assertBoundaries`, with the comparison that picks the bound.
def assertBoundaries (counterName : List UInt8) (upper : Bool) (status : UInt8) :
    ConnectionM PUnit :=
  if status = notExecutedWithPrevious then
    throw (if upper then .counterUpperBound (text counterName)
      else .counterLowerBound (text counterName))
  else pure ()

def AddAndGetCounterValueOperation.executeOperation (o : HotRodOperation)
    (counterName : List UInt8) (delta : Int64) : ConnectionM UInt64 :=
  o.exchange .counterAddAndGet (writeArray counterName ++ writeLong delta.toUInt64) fun status => do
    assertBoundaries counterName (0 < delta) status
    if !isSuccess status then throw (counterError "GetCounterValue" counterName status)
    else readLong

def CompareAndSwapCounterValueOperation.executeOperation (o : HotRodOperation)
    (counterName : List UInt8) (expect update upperBound : Int64) : ConnectionM UInt64 :=
  o.exchange .counterCas
    (writeArray counterName ++ writeLong expect.toUInt64 ++ writeLong update.toUInt64)
    fun status => do
      assertBoundaries counterName (upperBound ≤ update) status
      if status ≠ noErrorStatus then throw (counterError "CompareAndSwap" counterName status)
      else readLong

def AddCounterListenerOperation.executeOperation (o : HotRodOperation)
    (counterName listenerId : List UInt8) : ConnectionM PUnit := do
  setFailed false
  o.exchange .counterAddListener (writeArray counterName ++ writeArray listenerId) fun status =>
    if status ≠ noErrorStatus then setFailed true else pure ()

def RemoveCounterListenerOperation.executeOperation (o : HotRodOperation)
    (counterName listenerId : List UInt8) : ConnectionM Bool :=
  o.exchange .counterRemoveListener (writeArray counterName ++ writeArray listenerId)
    fun status => pure (status == noErrorStatus)

/-! ### Listeners -/

-- What the status does to the notifier is not part of the connection.
def RemoveClientListenerOperation.executeOperation (o : HotRodOperation) (listenerId : List UInt8) :
    ConnectionM UInt8 :=
  o.exchange .removeClientListener (writeArray listenerId) pure

inductive ClientEvent where
  | custom (data : List UInt8) (isRetried : UInt8)
  | created (key : List UInt8) (version : UInt64) (isRetried : UInt8)
  | modified (key : List UInt8) (version : UInt64) (isRetried : UInt8)
  | removed (key : List UInt8) (isRetried : UInt8)

/-- A listener; `processEvent` is what the user's code raises for an event. -/
structure ClientListener where
  includeCurrentState : Bool
  filterFactoryName : List UInt8
  filterFactoryParams : List (List UInt8)
  converterFactoryName : List UInt8
  converterFactoryParams : List (List UInt8)
  useRawData : Bool
  interestFlag : UInt8
  processEvent : ClientEvent → (listId : List UInt8) → (isCustom : UInt8) → Option Exn

def writeNamedFactory (factoryName : List UInt8) (params : List (List UInt8)) : List UInt8 :=
  writeArray factoryName
    ++ if factoryName = [] then []
      else writeByte (UInt8.ofNat params.length) ++ params.flatMap writeArray

def writeClientListenerParams (codec : Codec) (listener : ClientListener) : List UInt8 :=
  let flag : Bool → List UInt8 := fun set => writeByte (if set then 1 else 0)
  flag listener.includeCurrentState
    ++ writeNamedFactory listener.filterFactoryName listener.filterFactoryParams
    ++ writeNamedFactory listener.converterFactoryName listener.converterFactoryParams
    ++ if 21 ≤ codec.protocolVersion then flag listener.useRawData else []

def writeClientListenerInterests (codec : Codec) (interestFlag : UInt8) : List UInt8 :=
  if 26 ≤ codec.protocolVersion then writeVInt interestFlag.toUInt32 else []

def readAddEventListenerResponseType : ConnectionM (UInt8 × UInt64) := do
  let magic ← readByte
  if magic ≠ responseMagic then throw (invalidMagic magic)
  else
    let receivedMessageId ← readVLong
    let receivedOpCode ← readByte
    pure (receivedOpCode, receivedMessageId)

def readPartialEventHeader : ConnectionM UInt8 := do
  let status ← readByte
  let _ ← readByte
  if !isSuccess status then
    checkForErrorsInResponseStatus status
    pure status
  else pure status

namespace AddClientListenerOperation

def notify (listener : ClientListener) (event : ClientEvent) (listId : List UInt8)
    (isCustom : UInt8) : ConnectionM PUnit :=
  unlessRaised (listener.processEvent event listId isCustom) (pure ())

-- The event of an expired entry has a body that nothing reads.
def processImmediateEvent (listener : ClientListener) (respOpCode : UInt8) : ConnectionM PUnit := do
  let listId ← readValue
  let isCustom ← readByte
  let isRetried ← readByte
  if isCustom ≠ 0 then do
    let data ← readValue
    notify listener (.custom data isRetried) listId isCustom
  else if respOpCode = cacheEntryCreatedEventResponse then do
    let key ← readValue
    let version ← readLong
    notify listener (.created key version isRetried) listId isCustom
  else if respOpCode = cacheEntryModifiedEventResponse then do
    let key ← readValue
    let version ← readLong
    notify listener (.modified key version isRetried) listId isCustom
  else if respOpCode = cacheEntryRemovedEventResponse then do
    let key ← readValue
    notify listener (.removed key isRetried) listId isCustom
  else pure ()

-- `catch (const HotRodClientException&)` takes transport exceptions as well.
def ignoring (status : UInt8) (body : ConnectionM UInt8) : ConnectionM UInt8 :=
  tryCatch body fun e => if e.isHotRodClient then pure status else throw e

def handleEvent (listener : ClientListener) (respOpCode status : UInt8) : ConnectionM UInt8 :=
  ignoring status do
    let status ← readPartialEventHeader
    ignoring status do
      if isSuccess status then processImmediateEvent listener respOpCode
      pure status

/-- The loop over the events. Every turn reads at least one byte or raises, so its
turns are bounded by what there is to read. -/
def immediateEvents (listener : ClientListener) :
    Nat → UInt8 → UInt64 → UInt8 → ConnectionM (UInt8 × UInt64 × UInt8)
  | 0, respOpCode, respMessageId, status => pure (respOpCode, respMessageId, status)
  | turns + 1, respOpCode, respMessageId, status =>
    if isEvent respOpCode then do
      let status ← handleEvent listener respOpCode status
      let (respOpCode, respMessageId) ← readAddEventListenerResponseType
      immediateEvents listener turns respOpCode respMessageId status
    else pure (respOpCode, respMessageId, status)

def finish (o : HotRodOperation) (respOpCode : UInt8) (respMessageId : UInt64) (status : UInt8) :
    ConnectionM PUnit :=
  if respMessageId ≠ o.messageId ∧ respMessageId ≠ 0 then
    throw (invalidMessageId o.messageId respMessageId)
  else if isSuccess status then do
    let status ← readPartialHeader o.factory (o.params .addClientListener) respOpCode
    setFailed !isSuccess status
  else setFailed true

def receive (o : HotRodOperation) (listener : ClientListener) : ConnectionM PUnit := do
  let turns := (← get).unread.length
  let (respOpCode, respMessageId) ← readAddEventListenerResponseType
  let (respOpCode, respMessageId, status) ←
    immediateEvents listener turns respOpCode respMessageId noErrorStatus
  finish o respOpCode respMessageId status

def body (o : HotRodOperation) (listener : ClientListener) (listenerId : List UInt8) : List UInt8 :=
  writeArray listenerId ++ writeClientListenerParams o.codec listener
    ++ writeClientListenerInterests o.codec listener.interestFlag

def executeOperation (o : HotRodOperation) (listener : ClientListener) (listenerId : List UInt8) :
    ConnectionM PUnit := do
  setFailed false
  o.writeHeader .addClientListener
  write (body o listener listenerId)
  flush
  tryCatch (receive o listener) fun e => do
    setFailed true
    throw e

end AddClientListenerOperation

/-! ### All of them -/

inductive Command where
  | get (key : List UInt8)
  | put (e : Entry)
  | putIfAbsent (e : Entry)
  | replace (e : Entry)
  | replaceIfUnmodified (e : Entry) (version : UInt64)
  | remove (key : List UInt8)
  | removeIfUnmodified (key : List UInt8) (version : UInt64)
  | containsKey (key : List UInt8)
  | getWithVersion (key : List UInt8)
  | getWithMetadata (key : List UInt8)
  | bulkGet (entryCount : UInt32)
  | bulkGetKeys (scope : UInt32)
  | clear
  | size
  | stats
  | ping
  | query (queryRequest : List UInt8)
  | executeCmd (cmdName : List UInt8) (cmdArgs : List (List UInt8 × List UInt8))
  | getAll (keySet : List (List UInt8))
  | prepareCommit (xid : XID) (context : List PreparedEntry)
  | commit (xid : XID)
  | rollback (xid : XID)
  | defineCounter (counterName : List UInt8) (configuration : CounterConfiguration)
  | getCounterConfiguration (counterName : List UInt8)
  | resetCounter (counterName : List UInt8)
  | removeCounter (counterName : List UInt8)
  | getCounterNames
  | isCounterDefined (counterName : List UInt8)
  | getCounterValue (counterName : List UInt8)
  | addAndGetCounterValue (counterName : List UInt8) (delta : Int64)
  | compareAndSwapCounterValue (counterName : List UInt8) (expect update upperBound : Int64)
  | addCounterListener (counterName listenerId : List UInt8) (keepTransport : Bool)
  | removeCounterListener (counterName listenerId : List UInt8)
  | removeClientListener (listenerId : List UInt8)
  | addClientListener (listener : ClientListener) (listenerId : List UInt8)

namespace Command

def executeOperation (o : HotRodOperation) : Command → ConnectionM PUnit
  | get key => discard (GetOperation.executeOperation o key)
  | put e => discard (PutOperation.executeOperation o e)
  | putIfAbsent e => discard (PutIfAbsentOperation.executeOperation o e)
  | replace e => discard (ReplaceOperation.executeOperation o e)
  | replaceIfUnmodified e version =>
    discard (ReplaceIfUnmodifiedOperation.executeOperation o e version)
  | remove key => discard (RemoveOperation.executeOperation o key)
  | removeIfUnmodified key version =>
    discard (RemoveIfUnmodifiedOperation.executeOperation o key version)
  | containsKey key => discard (ContainsKeyOperation.executeOperation o key)
  | getWithVersion key => discard (GetWithVersionOperation.executeOperation o key)
  | getWithMetadata key => discard (GetWithMetadataOperation.executeOperation o key)
  | bulkGet entryCount => discard (BulkGetOperation.executeOperation o entryCount)
  | bulkGetKeys scope => discard (BulkGetKeysOperation.executeOperation o scope)
  | clear => discard (ClearOperation.executeOperation o)
  | size => discard (SizeOperation.executeOperation o)
  | stats => discard (StatsOperation.executeOperation o)
  | ping => discard (FaultTolerantPingOperation.executeOperation o)
  | query queryRequest => discard (QueryOperation.executeOperation o queryRequest)
  | executeCmd cmdName cmdArgs => discard (ExecuteCmdOperation.executeOperation o cmdName cmdArgs)
  | getAll keySet => discard (GetAllOperation.executeOperation o keySet)
  | prepareCommit xid context => discard (PrepareCommitOperation.executeOperation o xid context)
  | commit xid => discard (CommitOperation.executeOperation o xid)
  | rollback xid => discard (RollbackOperation.executeOperation o xid)
  | defineCounter counterName configuration =>
    discard (DefineCounterOperation.executeOperation o counterName configuration)
  | getCounterConfiguration counterName =>
    discard (GetCounterConfigurationOperation.executeOperation o counterName)
  | resetCounter counterName => ResetCounterOperation.executeOperation o counterName
  | removeCounter counterName => RemoveCounterOperation.executeOperation o counterName
  | getCounterNames => discard (GetCounterNamesOperation.executeOperation o)
  | isCounterDefined counterName =>
    discard (IsCounterDefinedOperation.executeOperation o counterName)
  | getCounterValue counterName => discard (GetCounterValueOperation.executeOperation o counterName)
  | addAndGetCounterValue counterName delta =>
    discard (AddAndGetCounterValueOperation.executeOperation o counterName delta)
  | compareAndSwapCounterValue counterName expect update upperBound =>
    discard
      (CompareAndSwapCounterValueOperation.executeOperation o counterName expect update upperBound)
  | addCounterListener counterName listenerId _ =>
    AddCounterListenerOperation.executeOperation o counterName listenerId
  | removeCounterListener counterName listenerId =>
    discard (RemoveCounterListenerOperation.executeOperation o counterName listenerId)
  | removeClientListener listenerId =>
    discard (RemoveClientListenerOperation.executeOperation o listenerId)
  | addClientListener listener listenerId =>
    AddClientListenerOperation.executeOperation o listener listenerId

end Command

end HotRod.Operations
