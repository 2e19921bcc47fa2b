import HotRod.Protocol.Connection
import Mathlib.Data.List.Infix

/-! The request and response headers of the Hot Rod codecs.

`Codec20` reads every response header; the later codecs only override what is
written. -/

set_option autoImplicit false

namespace HotRod.Protocol

open Semantics.Execution
open WireFormat (Bytes)

/-! ### `HotRodConstants` -/

namespace HotRodConstants

def requestMagic : UInt8 := 0xA0
def responseMagic : UInt8 := 0xA1

def errorResponse : UInt8 := 0x50
def cacheEntryCreatedEventResponse : UInt8 := 0x60
def cacheEntryModifiedEventResponse : UInt8 := 0x61
def cacheEntryRemovedEventResponse : UInt8 := 0x62
def cacheEntryExpiredEventResponse : UInt8 := 0x63
def counterEventResponse : UInt8 := 0x66

def noErrorStatus : UInt8 := 0x00
def notPutRemovedReplacedStatus : UInt8 := 0x01
def keyDoesNotExistStatus : UInt8 := 0x02
def successWithPrevious : UInt8 := 0x03
def notExecutedWithPrevious : UInt8 := 0x04
def noErrorStatusCompat : UInt8 := 0x06
def successWithPreviousCompat : UInt8 := 0x07
def notExecutedWithPreviousCompat : UInt8 := 0x08

def invalidMagicOrMessageIdStatus : UInt8 := 0x81
def unknownCommandStatus : UInt8 := 0x82
def unknownVersionStatus : UInt8 := 0x83
def requestParsingErrorStatus : UInt8 := 0x84
def serverErrorStatus : UInt8 := 0x85
def commandTimeoutStatus : UInt8 := 0x86

def clientIntelligenceHashDistributionAware : UInt8 := 0x03

def infiniteLifespan : UInt8 := 0x01
def infiniteMaxidle : UInt8 := 0x02

def isSuccess (status : UInt8) : Bool :=
  status == noErrorStatus || status == noErrorStatusCompat || status == successWithPrevious
    || status == successWithPreviousCompat

def isNotExecuted (status : UInt8) : Bool :=
  status == notPutRemovedReplacedStatus || status == notExecutedWithPrevious
    || status == notExecutedWithPreviousCompat

def hasPrevious (status : UInt8) : Bool :=
  status == successWithPrevious || status == successWithPreviousCompat
    || status == notExecutedWithPrevious || status == notExecutedWithPreviousCompat

def hasCompatibility (status : UInt8) : Bool :=
  status == noErrorStatusCompat || status == successWithPreviousCompat
    || status == notExecutedWithPreviousCompat

def isEvent (opCode : UInt8) : Bool :=
  opCode == cacheEntryCreatedEventResponse || opCode == cacheEntryExpiredEventResponse
    || opCode == cacheEntryModifiedEventResponse || opCode == cacheEntryRemovedEventResponse

def isCounterEvent (opCode : UInt8) : Bool := opCode == counterEventResponse

def hasMessage (status : UInt8) : Bool :=
  status == invalidMagicOrMessageIdStatus || status == requestParsingErrorStatus
    || status == unknownCommandStatus || status == serverErrorStatus
    || status == commandTimeoutStatus || status == unknownVersionStatus

-- The error statuses after which the transport is no longer valid.
def invalidatesTransport (status : UInt8) : Bool :=
  status == invalidMagicOrMessageIdStatus || status == requestParsingErrorStatus
    || status == unknownCommandStatus || status == unknownVersionStatus

end HotRodConstants

open HotRodConstants

inductive OpCode where
  | put | get | putIfAbsent | replace | replaceIfUnmodified | remove | removeIfUnmodified
  | containsKey | getWithVersion | clear | stats | ping | bulkGet | getWithMetadata | bulkGetKeys
  | query | addClientListener | removeClientListener | size | exec | getAll
  | prepare | commit | rollback
  | counterCreate | counterGetConfiguration | counterAddAndGet | counterReset | counterGet
  | counterCas | counterAddListener | counterRemoveListener | counterRemove | counterGetNames
  deriving DecidableEq, Repr

namespace OpCode

def request : OpCode → UInt8
  | put => 0x01 | get => 0x03 | putIfAbsent => 0x05 | replace => 0x07 | replaceIfUnmodified => 0x09
  | remove => 0x0B | removeIfUnmodified => 0x0D | containsKey => 0x0F | getWithVersion => 0x11
  | clear => 0x13 | stats => 0x15 | ping => 0x17 | bulkGet => 0x19 | getWithMetadata => 0x1B
  | bulkGetKeys => 0x1D | query => 0x1F | addClientListener => 0x25 | removeClientListener => 0x27
  | size => 0x29 | exec => 0x2B | getAll => 0x2F | prepare => 0x3B | commit => 0x3D
  | rollback => 0x3F
  | counterCreate => 0x4B | counterGetConfiguration => 0x4D | counterAddAndGet => 0x52
  | counterReset => 0x54 | counterGet => 0x56 | counterCas => 0x58 | counterAddListener => 0x5A
  | counterRemoveListener => 0x5C | counterRemove => 0x5E | counterGetNames => 0x64

def toOpRespCode : OpCode → UInt8
  | put => 0x02 | get => 0x04 | putIfAbsent => 0x06 | replace => 0x08 | replaceIfUnmodified => 0x0A
  | remove => 0x0C | removeIfUnmodified => 0x0E | containsKey => 0x10 | getWithVersion => 0x12
  | clear => 0x14 | stats => 0x16 | ping => 0x18 | bulkGet => 0x1A | getWithMetadata => 0x1C
  | bulkGetKeys => 0x1E | query => 0x20 | addClientListener => 0x26 | removeClientListener => 0x28
  | size => 0x2A | exec => 0x2C | getAll => 0x30 | prepare => 0x3C | commit => 0x3E
  | rollback => 0x40
  | counterCreate => 0x4C | counterGetConfiguration => 0x4E | counterAddAndGet => 0x53
  | counterReset => 0x55 | counterGet => 0x57 | counterCas => 0x59 | counterAddListener => 0x5B
  | counterRemoveListener => 0x5D | counterRemove => 0x5F | counterGetNames => 0x65

theorem toOpRespCode_ne_errorResponse (op : OpCode) : op.toOpRespCode ≠ errorResponse := by
  cases op <;> decide

theorem toOpRespCode_not_event (op : OpCode) : isEvent op.toOpRespCode = false := by
  cases op <;> decide

end OpCode

-- The codec classes; each inherits from the one before.
inductive Codec where
  | codec20 | codec21 | codec22 | codec23 | codec24 | codec25 | codec26 | codec27 | codec28
  deriving DecidableEq, Repr

def Codec.protocolVersion : Codec → UInt8
  | codec20 => 20 | codec21 => 21 | codec22 => 22 | codec23 => 23 | codec24 => 24 | codec25 => 25
  | codec26 => 26 | codec27 => 27 | codec28 => 28

/-! ### Request headers -/

/-- The fields that are sent; `params` in the order of the map. -/
structure MediaType where
  typeSubtype : List UInt8
  params : List (List UInt8 × List UInt8)

structure EntryMediaTypes where
  keyMediaType : MediaType
  valueMediaType : MediaType

def ascii (s : String) : List UInt8 := s.toList.map fun c => UInt8.ofNat c.toNat

namespace IdsMediaTypes

def typesIds : List (List UInt8 × UInt32) :=
  [(ascii "application/x-java-object", 1),
   (ascii "application/json", 2),
   (ascii "application/octet-stream", 3),
   (ascii "application/pdf", 4),
   (ascii "application/rtf", 5),
   (ascii "application/zip", 6),
   (ascii "image/gif", 7),
   (ascii "image/jpeg", 8),
   (ascii "image/png", 9),
   (ascii "text/css", 10),
   (ascii "text/csv", 11),
   (ascii "application/x-protostream", 12),
   (ascii "text/plain", 13),
   (ascii "text/html", 14),
   (ascii "application/x-jboss-marshalling", 15),
   (ascii "application/x-infinispan-marshalling", 16)]

def getByMediaType (mediaType : List UInt8) : Option UInt32 :=
  (typesIds.find? fun entry => entry.1 = mediaType).map Prod.snd

def getById (id : UInt32) : Option (List UInt8) :=
  (typesIds.find? fun entry => entry.2 = id).map Prod.fst

end IdsMediaTypes

def writeMediaType (mediaType : MediaType) : List UInt8 :=
  if mediaType.typeSubtype = [] then writeByte 0
  else
    (match IdsMediaTypes.getByMediaType mediaType.typeSubtype with
      | some id => writeByte 1 ++ writeVInt id
      | none => writeByte 2 ++ writeString mediaType.typeSubtype)
    ++ writeVInt (UInt32.ofNat mediaType.params.length)
    ++ mediaType.params.flatMap fun (name, value) => writeString name ++ writeString value

/-- The message id is the value of the shared counter after its increment. -/
structure HeaderParams where
  opCode : OpCode
  messageId : UInt64
  cacheName : List UInt8
  flags : UInt32
  topologyId : UInt32
  topologyAge : Int
  dataFormat : Option EntryMediaTypes

def Codec.writeHeader (codec : Codec) (params : HeaderParams) : ConnectionM PUnit := do
  write (writeByte requestMagic ++ writeVLong params.messageId ++ writeByte codec.protocolVersion
    ++ writeByte params.opCode.request ++ writeArray params.cacheName ++ writeVInt params.flags
    ++ writeByte clientIntelligenceHashDistributionAware ++ writeVInt params.topologyId)
  if 28 ≤ codec.protocolVersion then
    match params.dataFormat with
    | some format =>
      write (writeMediaType format.keyMediaType ++ writeMediaType format.valueMediaType)
    | none => write (writeByte 0 ++ writeByte 0)

/-! ### Response headers -/

abbrev Address := Bytes × UInt16

/-- What the codec asks of the transport factory. `getTopologyId` is `none` where the
call raises, and `update` is what `updateServers` and `updateHashFunction` raise. -/
structure TransportFactory where
  getTopologyId : Option UInt32
  topologyAge : Int
  update : List Address → List (List (Option Address)) → Option Exn

/-- The topology a header carries; an owner is the address at its index, which the
code does not check. -/
structure TopologyView where
  topologyId : UInt32
  addresses : List Address
  segmentOwners : List (List (Option Address))

def readAddress : ConnectionM Address := do
  let host ← readString
  let port ← readUnsignedShort
  pure (host, port)

def readOwners (addresses : List Address) : ConnectionM (List (Option Address)) := do
  let numOwners ← readByte
  readMany (do
    let memberIndex ← readVInt
    pure addresses[memberIndex.toNat]?) numOwners.toNat

/-- Without a hash function there is a number of segments and no owner. -/
def readSegments (addresses : List Address) (hashFunctionVersion : UInt8) (numSegments : UInt32) :
    ConnectionM (List (List (Option Address))) :=
  if 0 < hashFunctionVersion then readMany (readOwners addresses) numSegments.toNat
  else pure (List.replicate numSegments.toNat [])

def readTopologyView : ConnectionM TopologyView := do
  let topologyId ← readVInt
  let clusterSize ← readVInt
  let addresses ← readMany readAddress clusterSize.toNat
  let hashFunctionVersion ← readByte
  let numSegments ← readVInt
  let segmentOwners ← readSegments addresses hashFunctionVersion numSegments
  pure { topologyId, addresses, segmentOwners }

/-- What taking over the view raises. A known topology is left alone. -/
def TransportFactory.raises (factory : TransportFactory) (topologyAge : Int) (view : TopologyView) :
    Option Exn :=
  if factory.getTopologyId = none
      ∨ (topologyAge = factory.topologyAge ∧ factory.getTopologyId ≠ some view.topologyId) then
    factory.update view.addresses view.segmentOwners
  else none

def updateTopology (factory : TransportFactory) (params : HeaderParams) (view : TopologyView) :
    ConnectionM PUnit :=
  unlessRaised (factory.raises params.topologyAge view) (pure ())

/-- Returns the topology id the caller's reference is set to. -/
def readNewTopologyAndHash (factory : TransportFactory) (params : HeaderParams) :
    ConnectionM UInt32 := do
  let view ← readTopologyView
  updateTopology factory params view
  pure view.topologyId

def readNewTopologyIfPresent (factory : TransportFactory) (params : HeaderParams) :
    ConnectionM (Option UInt32) := do
  if (← readByte) = 1 then some <$> readNewTopologyAndHash factory params else pure none

/-! ### Errors -/

def hex (n : Nat) : String := String.ofList (Nat.toDigits 16 n)

-- With a fill character and a width of two.
def hexByte (b : UInt8) : String := if b < 16 then "0" ++ hex b.toNat else hex b.toNat

def text (bytes : List UInt8) : String := String.ofList (bytes.map fun b => Char.ofNat b.toNat)

def invalidMagic (magic : UInt8) : Exn :=
  .invalidResponse ("Invalid magic number. Expected 0x" ++ hexByte responseMagic
    ++ " and received 0x" ++ hexByte magic)

def invalidMessageId (expected received : UInt64) : Exn :=
  .invalidResponse ("Invalid message id. Expected " ++ toString expected.toNat ++ " and received "
    ++ toString received.toNat)

def invalidOperation (expected received : UInt8) : Exn :=
  .invalidResponse ("Invalid response operation. Expected " ++ hex expected.toNat
    ++ " and received " ++ hex received.toNat)

def isSuspicion (message : List UInt8) : Bool :=
  let suspect := [0x53, 0x75, 0x73, 0x70, 0x65, 0x63, 0x74]
  let exception := [0x45, 0x78, 0x63, 0x65, 0x70, 0x74, 0x69, 0x6F, 0x6E]
  decide (suspect ++ exception <:+: message)
    || decide (suspect ++ [0x65, 0x64] ++ exception <:+: message)

def errorOf (message : List UInt8) : Exn :=
  if isSuspicion message then .remoteNodeSuspect (text message) else .hotRodClient (text message)

/-- The sum in the source moves a pointer into the literal, and past its end for
every error status, so the status is not part of the text. -/
def unknownStatus (status : UInt8) : Exn :=
  .internal (String.ofList ("Unknown status: ".toList.drop status.toNat))

def checkForErrorsInResponseStatus (status : UInt8) : ConnectionM PUnit :=
  tryCatch
    (if hasMessage status then do
      let msgFromServer ← readString
      throw (errorOf msgFromServer.1)
    else throw (unknownStatus status))
    fun e => do
      if e.isException && invalidatesTransport status then setValid false
      throw e

-- The common end of `readHeader` and `readPartialHeader`.
def checkOpCode (params : HeaderParams) (receivedOpCode status : UInt8) : ConnectionM UInt8 :=
  if receivedOpCode ≠ params.opCode.toOpRespCode then do
    if receivedOpCode = errorResponse then checkForErrorsInResponseStatus status
    throw (invalidOperation params.opCode.toOpRespCode receivedOpCode)
  else pure status

def readPartialHeader (factory : TransportFactory) (params : HeaderParams)
    (receivedOpCode : UInt8) : ConnectionM UInt8 := do
  let status ← readByte
  let _ ← readNewTopologyIfPresent factory params
  checkOpCode params receivedOpCode status

def readHeader (factory : TransportFactory) (params : HeaderParams) : ConnectionM UInt8 := do
  let magic ← readByte
  if magic ≠ responseMagic then throw (invalidMagic magic)
  else
    let receivedMessageId ← readVLong
    -- the server answers 0 to a request whose id it could not read
    if receivedMessageId ≠ params.messageId ∧ receivedMessageId ≠ 0 then
      throw (invalidMessageId params.messageId receivedMessageId)
    else
      let receivedOpCode ← readByte
      let status ← readByte
      let _ ← readNewTopologyIfPresent factory params
      checkOpCode params receivedOpCode status

structure EventHeaderParams where
  -- The topology byte of an event is discarded.
  messageId : UInt64
  opCode : UInt8
  status : UInt8

-- What follows the magic byte.
def readEventParams : ConnectionM EventHeaderParams := do
  let messageId ← readVLong
  let opCode ← readByte
  let status ← readByte
  let _ ← readByte
  pure { messageId, opCode, status }

/-- The message of the last exception names the received code as the expected one. -/
def readEventHeader : ConnectionM EventHeaderParams := do
  let magic ← readByte
  if magic ≠ responseMagic then throw (invalidMagic magic)
  else
    let params ← readEventParams
    if params.opCode = errorResponse then do
      checkForErrorsInResponseStatus params.status
      throw (invalidOperation params.opCode params.opCode)
    else pure params

def returnPossiblePrevValue (status : UInt8) : ConnectionM (List UInt8) := do
  if hasPrevious status then
    let value ← readArray
    pure value.1
  else pure []

end HotRod.Protocol
