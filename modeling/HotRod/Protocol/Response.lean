import HotRod.Protocol.Codec

/-! Well-formed responses, and what the codec reads of them.

A header is an encoding of the server's values. `reaches_readHeader` says that the
codec reads a header to its last byte before it acts on any of it; after that it
may still raise, and the body or the error message stays where it is. -/

set_option autoImplicit false

namespace HotRod.Protocol

open Semantics.Execution
open WireFormat (Bytes)
open HotRodConstants

variable {A B : Type}

/-! ### Topologies -/

/-- A topology as a server may send it: the counts fit the integers they are sent
in, owners are members, and there are no segments without a hash function. -/
structure TopologyUpdate where
  topologyId : UInt32
  servers : List Address
  hashFunctionVersion : UInt8
  segments : List (List UInt32)
  servers_fit : servers.length < 2 ^ 32
  segments_fit : segments.length < 2 ^ 32
  owners_fit : ∀ owners ∈ segments, owners.length < 2 ^ 8
  owners_known : ∀ owners ∈ segments, ∀ index ∈ owners, index.toNat < servers.length
  unhashed : hashFunctionVersion = 0 → segments = []

namespace TopologyUpdate

def encodeAddress (address : Address) : List UInt8 :=
  WireFormat.array.encode address.1 ++ WireFormat.unsignedShort.encode address.2

def encodeOwners (owners : List UInt32) : List UInt8 :=
  WireFormat.byte.encode (UInt8.ofNat owners.length) ++ owners.flatMap WireFormat.vInt.encode

def encode (t : TopologyUpdate) : List UInt8 :=
  WireFormat.vInt.encode t.topologyId ++ (WireFormat.vInt.encode (UInt32.ofNat t.servers.length)
    ++ (t.servers.flatMap encodeAddress ++ (WireFormat.byte.encode t.hashFunctionVersion
    ++ (WireFormat.vInt.encode (UInt32.ofNat t.segments.length) ++
      t.segments.flatMap encodeOwners))))

def view (t : TopologyUpdate) : TopologyView where
  topologyId := t.topologyId
  addresses := t.servers
  segmentOwners := t.segments.map fun owners => owners.map fun index => t.servers[index.toNat]?

theorem owners_found (t : TopologyUpdate) {owners : List (Option Address)}
    (member : owners ∈ t.view.segmentOwners) :
    none ∉ owners := by
  obtain ⟨indices, known, rfl⟩ := List.mem_map.mp member
  intro missing
  obtain ⟨index, among, beyond⟩ := List.mem_map.mp missing
  exact absurd (t.owners_known indices known index among)
    (Nat.not_lt.mpr (List.getElem?_eq_none_iff.mp beyond))

end TopologyUpdate

open TopologyUpdate

theorem consumes_readAddress (address : Address) :
    Consumes readAddress (encodeAddress address) address :=
  (consumes_read WireFormat.array address.1).bind ((consumes_read WireFormat.unsignedShort
    address.2).map _)

theorem consumes_readOwners (addresses : List Address) {owners : List UInt32}
    (fit : owners.length < 2 ^ 8) :
    Consumes (readOwners addresses) (encodeOwners owners)
      (owners.map fun index => addresses[index.toNat]?) := by
  apply (consumes_read WireFormat.byte (UInt8.ofNat owners.length)).bind
  rw [UInt8.toNat_ofNat_of_lt' fit]
  exact consumes_readMany fun index _ => (consumes_read WireFormat.vInt index).map _

theorem consumes_readSegments (t : TopologyUpdate) :
    Consumes (readSegments t.servers t.hashFunctionVersion (UInt32.ofNat t.segments.length))
      (t.segments.flatMap encodeOwners) t.view.segmentOwners := by
  rw [readSegments, UInt32.toNat_ofNat_of_lt' t.segments_fit]
  by_cases hashed : 0 < t.hashFunctionVersion
  · rw [if_pos hashed]
    exact consumes_readMany fun owners member => consumes_readOwners t.servers
      (t.owners_fit owners member)
  · have unhashed : t.segments = [] := t.unhashed (by simpa using hashed)
    rw [if_neg hashed]
    simp only [view, unhashed]
    exact consumes_pure []

theorem consumes_readTopologyView (t : TopologyUpdate) :
    Consumes readTopologyView t.encode t.view := by
  apply (consumes_read WireFormat.vInt t.topologyId).bind
  apply (consumes_read WireFormat.vInt (UInt32.ofNat t.servers.length)).bind
  rw [UInt32.toNat_ofNat_of_lt' t.servers_fit]
  have addresses : Consumes (readMany readAddress t.servers.length)
      (t.servers.flatMap encodeAddress) t.servers := by
    have all : Consumes (readMany readAddress t.servers.length) (t.servers.flatMap encodeAddress)
        (t.servers.map id) :=
      consumes_readMany fun address _ => consumes_readAddress address
    rwa [List.map_id] at all
  apply addresses.bind
  apply (consumes_read WireFormat.byte t.hashFunctionVersion).bind
  apply (consumes_read WireFormat.vInt (UInt32.ofNat t.segments.length)).bind
  exact (consumes_readSegments t).map _

/-! ### Headers -/

def encodeTopology : Option TopologyUpdate → List UInt8
  | none => WireFormat.byte.encode 0 ++ []
  | some t => WireFormat.byte.encode 1 ++ t.encode

def partialHeader (status : UInt8) (topology : Option TopologyUpdate) : List UInt8 :=
  WireFormat.byte.encode status ++ encodeTopology topology

def header (messageId : UInt64) (opCode status : UInt8) (topology : Option TopologyUpdate) :
    List UInt8 :=
  WireFormat.byte.encode responseMagic ++ (WireFormat.vLong.encode messageId
    ++ (WireFormat.byte.encode opCode ++ partialHeader status topology))

/-- What taking over the topology of a header raises, if it has one. -/
def topologyRaises (factory : TransportFactory) (topologyAge : Int)
    (topology : Option TopologyUpdate) : Option Exn :=
  topology.bind fun t => factory.raises topologyAge t.view

def actOnHeader (factory : TransportFactory) (params : HeaderParams) (opCode status : UInt8)
    (topology : Option TopologyUpdate) : ConnectionM UInt8 :=
  unlessRaised (topologyRaises factory params.topologyAge topology)
    (checkOpCode params opCode status)

section Header

variable (factory : TransportFactory) (params : HeaderParams)

theorem reaches_topology (topology : Option TopologyUpdate) (opCode status : UInt8) :
    Reaches (do
      let _ ← readNewTopologyIfPresent factory params
      checkOpCode params opCode status) (encodeTopology topology)
      (actOnHeader factory params opCode status topology) := by
  simp only [readNewTopologyIfPresent, bind_assoc]
  cases topology with
  | none => exact (consumes_read WireFormat.byte 0).bind (reaches_nil _)
  | some t =>
    apply (consumes_read WireFormat.byte 1).bind
    simp only [if_true, readNewTopologyAndHash, map_eq_pure_bind, bind_assoc, pure_bind]
    have acts : actOnHeader factory params opCode status (some t) = (do
        updateTopology factory params t.view
        checkOpCode params opCode status) := by
      simp only [actOnHeader, topologyRaises, Option.bind_some, updateTopology]
      cases factory.raises params.topologyAge t.view <;> rfl
    rw [acts]
    exact (consumes_readTopologyView t).reaches

theorem reaches_readPartialHeader (opCode status : UInt8) (topology : Option TopologyUpdate) :
    Reaches (readPartialHeader factory params opCode) (partialHeader status topology)
      (actOnHeader factory params opCode status topology) :=
  (consumes_read WireFormat.byte status).bind (reaches_topology factory params topology opCode
    status)

theorem reaches_readHeader {messageId : UInt64} (own : messageId = params.messageId ∨ messageId = 0)
    (opCode status : UInt8) (topology : Option TopologyUpdate) :
    Reaches (readHeader factory params) (header messageId opCode status topology)
      (actOnHeader factory params opCode status topology) := by
  apply (consumes_read WireFormat.byte responseMagic).bind
  rw [if_neg (not_not.mpr rfl)]
  apply (consumes_read WireFormat.vLong messageId).bind
  rw [if_neg fun mismatch => own.elim mismatch.1 mismatch.2]
  apply (consumes_read WireFormat.byte opCode).bind
  exact (consumes_read WireFormat.byte status).bind
    (reaches_topology factory params topology opCode status)

end Header

/-! ### Error messages -/

def afterError (status : UInt8) (s : Connection) : Connection :=
  if invalidatesTransport status then { s with valid := false } else s

@[simp] theorem afterError_unread (status : UInt8) (s : Connection) :
    (afterError status s).unread = s.unread := by
  unfold afterError
  split <;> rfl

@[simp] theorem afterError_output (status : UInt8) (s : Connection) :
    (afterError status s).output = s.output := by
  unfold afterError
  split <;> rfl

theorem afterError_synchronised {status : UInt8} {s : Connection} :
    (afterError status s).Synchronised ↔ s.Synchronised := by
  rw [Connection.Synchronised, afterError_unread, afterError_output, Connection.Synchronised]

theorem errorOf_isException (message : List UInt8) : (errorOf message).isException = true := by
  unfold errorOf
  split <;> rfl

theorem checkForErrors_of_error {status : UInt8} {s t : Connection} {e : Exn}
    (own : e.isException = true) (raise : (if hasMessage status then do
        let msgFromServer ← readString
        throw (errorOf msgFromServer.1)
      else throw (unknownStatus status) : ConnectionM PUnit) s = .error e t) :
    checkForErrorsInResponseStatus status s = .error e (afterError status t) := by
  rw [checkForErrorsInResponseStatus, tryCatch_of_error raise, own, Bool.true_and]
  cases invalid : invalidatesTransport status with
  | true =>
    rw [afterError, if_pos invalid]
    rfl
  | false =>
    rw [afterError, invalid]
    rfl

theorem checkForErrors_message {status : UInt8} (told : hasMessage status = true) {message : Bytes}
    {s : Connection} {rest : List UInt8}
    (unread : s.unread = WireFormat.array.encode message ++ rest) :
    checkForErrorsInResponseStatus status s =
      if (WireFormat.array.encode message).length ≤ s.inTime then
        .error (errorOf message.1) (afterError status
          (s.past (WireFormat.array.encode message) rest))
      else .error (s.ioError "timeout") (afterError status s.cut) := by
  have reads : Reaches (do
      let msgFromServer ← readString
      throw (errorOf msgFromServer.1) : ConnectionM PUnit) (WireFormat.array.encode message)
      (throw (errorOf message.1)) := (consumes_read WireFormat.array message).reaches
  by_cases came : (WireFormat.array.encode message).length ≤ s.inTime
  · rw [if_pos came]
    apply checkForErrors_of_error (errorOf_isException message.1)
    rw [if_pos told]
    exact reads.of_came unread came
  · rw [if_neg came]
    apply checkForErrors_of_error rfl
    rw [if_pos told]
    exact reads.of_late unread came

theorem hasMessage_of_invalidates {status : UInt8} (invalid : invalidatesTransport status = true) :
    hasMessage status = true := by
  simp only [invalidatesTransport, Bool.or_eq_true] at invalid
  simp only [hasMessage, Bool.or_eq_true]
  tauto

theorem checkForErrors_unknown {status : UInt8} (untold : hasMessage status = false)
    (s : Connection) :
    checkForErrorsInResponseStatus status s = .error (unknownStatus status) s := by
  have kept : afterError status s = s := by
    rw [afterError, if_neg]
    intro invalid
    rw [hasMessage_of_invalidates invalid] at untold
    cases untold
  have raise : checkForErrorsInResponseStatus status s =
      .error (unknownStatus status) (afterError status s) := by
    apply checkForErrors_of_error rfl
    rw [untold]
    rfl
  rw [raise, kept]

theorem checkOpCode_error (params : HeaderParams) (status : UInt8) (s : Connection) {e : Exn}
    {t : Connection} (raise : checkForErrorsInResponseStatus status s = .error e t) :
    checkOpCode params errorResponse status s = .error e t := by
  rw [checkOpCode, if_pos (OpCode.toOpRespCode_ne_errorResponse params.opCode).symm, if_pos rfl]
  exact bind_of_error raise

theorem checkOpCode_own (params : HeaderParams) (status : UInt8) :
    checkOpCode params params.opCode.toOpRespCode status = pure status := by
  rw [checkOpCode, if_neg (not_not.mpr rfl)]

/-! ### How calls end -/

/-- The call leaves nothing behind, or its connection is given up. -/
def Drains (result : EStateM.Result Exn Connection A) : Prop :=
  Meets result (fun _ t => t.Synchronised) (fun e t => e.isTransport = true ∨ t.Synchronised)

/-- The call leaves something behind, unless its connection is given up. -/
def Strands (result : EStateM.Result Exn Connection A) : Prop :=
  Meets result (fun _ t => ¬ t.Synchronised) (fun e t => e.isTransport = true ∨ ¬ t.Synchronised)

section Ends

variable {m : ConnectionM A} {s : Connection} {bytes : List UInt8}

theorem strands_of_final {result : EStateM.Result Exn Connection A}
    (left : ¬ (final result).Synchronised) :
    Strands result := by
  cases result with
  | ok a t => exact left
  | error e t => exact .inr left

theorem drains_discard (drains : Drains (m s)) : Drains ((discard m : ConnectionM PUnit) s) := by
  change Drains ((Function.const A PUnit.unit <$> m) s)
  rw [map_apply]
  cases result : m s with
  | ok a t => simpa only [Drains, result, meets_ok] using drains
  | error e t => simpa only [Drains, result, meets_error] using drains

theorem strands_discard (strands : Strands (m s)) :
    Strands ((discard m : ConnectionM PUnit) s) := by
  change Strands ((Function.const A PUnit.unit <$> m) s)
  rw [map_apply]
  cases result : m s with
  | ok a t => simpa only [Strands, result, meets_ok] using strands
  | error e t => simpa only [Strands, result, meets_error] using strands

theorem Consumes.drains {a : A} (consumes : Consumes m bytes a) (unread : s.unread = bytes)
    (sent : s.output = []) :
    Drains (m s) := by
  have all : s.unread = bytes ++ [] := by rw [unread, List.append_nil]
  by_cases came : bytes.length ≤ s.inTime
  · rw [consumes.of_came all came]
    exact ⟨rfl, sent⟩
  · rw [consumes.of_late all came]
    exact .inl rfl

theorem drains_starved {format : WireFormat A} (starves : format.decode [] = none)
    (unread : s.unread = []) :
    Drains (read format s) := by
  rw [read_starved starves unread]
  exact .inl rfl

end Ends

end HotRod.Protocol
