import HotRod.Counters.Configurations
import HotRod.Counters.Handles
import HotRod.Operations.Conversation
import HotRod.Semantics.Machines

/-! Counters over the wire and the counters of a server.

`CounterService` is what a server does with counters, whatever it keeps them in. A client
that talks to it gets from every call what the service itself would say, except that a bound
is only told apart from the other one by the arguments of the call. -/

set_option autoImplicit false

namespace HotRod.Counters

open Semantics.Execution Semantics.Machines
open Operations Protocol HotRodConstants
open WireFormat (Parser Bytes parse_encode parse_last)

/-! ### Services -/

inductive Outcome where
  | value (v : Int64)
  | upperBoundReached
  | lowerBoundReached
  | undefined
  deriving DecidableEq, Repr

/-- What a server does with counters, by their names. `reset` and `remove` tell whether the
counter was there. -/
structure CounterService (S : Type) where
  create : S → List UInt8 → CounterConfiguration → Bool × S
  configuration : S → List UInt8 → Option CounterConfiguration
  value : S → List UInt8 → Option Int64
  addAndGet : S → List UInt8 → Int64 → Outcome × S
  compareAndSwap : S → List UInt8 → Int64 → Int64 → Outcome × S
  reset : S → List UInt8 → Bool × S
  remove : S → List UInt8 → Bool × S

variable {S : Type}

/-! ### Requests as a server reads them -/

def parseCounterFields (persistent : Bool) : CounterType → Parser CounterConfiguration
  | .weak => do
    let concurrencyLevel ← WireFormat.vInt.parse
    let initialValue ← WireFormat.long.parse
    pure { initialValue, concurrencyLevel, type := .weak, persistent }
  | .boundedStrong => do
    let lowerBound ← WireFormat.long.parse
    let upperBound ← WireFormat.long.parse
    let initialValue ← WireFormat.long.parse
    pure { initialValue, lowerBound, upperBound, type := .boundedStrong, persistent }
  | .unboundedStrong => do
    let initialValue ← WireFormat.long.parse
    pure { initialValue, type := .unboundedStrong, persistent }

def parseConfiguration : Parser CounterConfiguration := do
  let flags ← WireFormat.byte.parse
  match counterType flags with
  | some type => parseCounterFields (flags &&& 0x04 != 0) type
  | none => fun _ => none

-- What follows the name.
def parseOperation : OpCode → Parser (Option CounterOperation)
  | .counterCreate => do
    let configuration ← parseConfiguration
    pure (some (.defineCounter configuration))
  | .counterGetConfiguration => pure (some .getCounterConfiguration)
  | .counterGet => pure (some .getCounterValue)
  | .counterAddAndGet => do
    let delta ← WireFormat.long.parse
    pure (some (.addAndGetCounterValue delta.toInt64))
  | .counterCas => do
    let expect ← WireFormat.long.parse
    let update ← WireFormat.long.parse
    pure (some (.compareAndSwapCounterValue expect.toInt64 update.toInt64))
  | .counterReset => pure (some .resetCounter)
  | .counterRemove => pure (some .removeCounter)
  | _ => pure none

def readCounterRequest (request : Request) : Option CounterRequest := do
  let opCode ← opCodeOf request.header.opCode
  let (counterName, rest) ← WireFormat.array.decode request.body
  match ← parseOperation opCode rest with
  | (some operation, []) => pure { counterName := counterName.1, operation }
  | _ => none

/-! ### Responses -/

namespace Response

def found (body : List UInt8) : Response := ⟨noErrorStatus, body⟩

def missing : Response := ⟨keyDoesNotExistStatus, []⟩

def ofDone (done : Bool) : Response := if done then found [] else missing

def ofOutcome : Outcome → Response
  | .value v => found (WireFormat.long.encode v.toUInt64)
  | .upperBoundReached | .lowerBoundReached => ⟨notExecutedWithPrevious, []⟩
  | .undefined => missing

end Response

def CounterService.perform (service : CounterService S) (s : S) (request : CounterRequest) :
    Option (Response × S) :=
  match request.operation with
  | .defineCounter configuration =>
    let (created, next) := service.create s request.counterName configuration
    some (if created then Response.found [] else ⟨notPutRemovedReplacedStatus, []⟩, next)
  | .getCounterConfiguration =>
    some (match service.configuration s request.counterName with
      | some configuration => Response.found (writeConfiguration configuration)
      | none => Response.missing, s)
  | .getCounterValue =>
    some (match service.value s request.counterName with
      | some v => Response.found (WireFormat.long.encode v.toUInt64)
      | none => Response.missing, s)
  | .addAndGetCounterValue delta =>
    let (outcome, next) := service.addAndGet s request.counterName delta
    some (Response.ofOutcome outcome, next)
  | .compareAndSwapCounterValue expect update =>
    let (outcome, next) := service.compareAndSwap s request.counterName expect update
    some (Response.ofOutcome outcome, next)
  | .resetCounter =>
    let (done, next) := service.reset s request.counterName
    some (Response.ofDone done, next)
  | .removeCounter =>
    let (done, next) := service.remove s request.counterName
    some (Response.ofDone done, next)
  | .isCounterDefined | .addCounterListener _ | .removeCounterListener _ => none

def CounterService.server (service : CounterService S) : Server S :=
  framed fun s request => (readCounterRequest request).bind (service.perform s)

/-! ### Handles -/

section Handles

variable (o : HotRodOperation) (counter : BaseCounterImpl)

def BaseCounterImpl.getValue : ConnectionM Int64 := do
  let ret ← GetCounterValueOperation.executeOperation o counter.name
  pure ret.toInt64

def BaseCounterImpl.reset : ConnectionM PUnit :=
  ResetCounterOperation.executeOperation o counter.name

def BaseCounterImpl.remove : ConnectionM PUnit :=
  RemoveCounterOperation.executeOperation o counter.name

namespace StrongCounterImpl

def addAndGet (delta : Int64) : ConnectionM Int64 := do
  let ret ← AddAndGetCounterValueOperation.executeOperation o counter.name delta
  pure ret.toInt64

def incrementAndGet : ConnectionM Int64 := addAndGet o counter 1

def decrementAndGet : ConnectionM Int64 := addAndGet o counter (-1)

-- The bound is the one that the handle was constructed with.
def compareAndSwap (expect update : Int64) : ConnectionM Int64 := do
  let ret ← CompareAndSwapCounterValueOperation.executeOperation o counter.name expect update
    counter.configuration.upperBound.toInt64
  pure ret.toInt64

def compareAndSet (expect update : Int64) : ConnectionM Bool := do
  let previous ← compareAndSwap o counter expect update
  pure (previous == expect)

end StrongCounterImpl

namespace WeakCounterImpl

def add (delta : Int64) : ConnectionM PUnit := do
  let _ ← AddAndGetCounterValueOperation.executeOperation o counter.name delta
  pure ()

def increment : ConnectionM PUnit := add o counter 1

def decrement : ConnectionM PUnit := add o counter (-1)

end WeakCounterImpl

end Handles

/-! ### Calls -/

inductive HandleCall where
  | getValue
  | reset
  | remove
  | addAndGet (delta : Int64)
  | incrementAndGet
  | decrementAndGet
  | compareAndSwap (expect update : Int64)
  | compareAndSet (expect update : Int64)
  | add (delta : Int64)
  | increment
  | decrement
  | defineCounter (configuration : CounterConfiguration)
  | getConfiguration

inductive Reply where
  | number (v : Int64)
  | flag (b : Bool)
  | configuration (c : CounterConfiguration)
  | done

namespace HandleCall

/-- One `executeOperation`. `execute()` sends the request again after an error of the server,
which leaves the service as it is and gives the same answer again. -/
def run (o : HotRodOperation) (counter : BaseCounterImpl) : HandleCall → ConnectionM Reply
  | getValue => do
    let v ← counter.getValue o
    pure (.number v)
  | reset => do
    counter.reset o
    pure .done
  | remove => do
    counter.remove o
    pure .done
  | addAndGet delta => do
    let v ← StrongCounterImpl.addAndGet o counter delta
    pure (.number v)
  | incrementAndGet => do
    let v ← StrongCounterImpl.incrementAndGet o counter
    pure (.number v)
  | decrementAndGet => do
    let v ← StrongCounterImpl.decrementAndGet o counter
    pure (.number v)
  | compareAndSwap expect update => do
    let v ← StrongCounterImpl.compareAndSwap o counter expect update
    pure (.number v)
  | compareAndSet expect update => do
    let b ← StrongCounterImpl.compareAndSet o counter expect update
    pure (.flag b)
  | add delta => do
    WeakCounterImpl.add o counter delta
    pure .done
  | increment => do
    WeakCounterImpl.increment o counter
    pure .done
  | decrement => do
    WeakCounterImpl.decrement o counter
    pure .done
  | defineCounter configuration => do
    let b ← DefineCounterOperation.executeOperation o counter.name configuration
    pure (.flag b)
  | getConfiguration => do
    let c ← GetCounterConfigurationOperation.executeOperation o counter.name
    pure (.configuration c)

end HandleCall

def Outcome.said (operation : String) (name : List UInt8) : Outcome → Except Exn Int64
  | .value v => .ok v
  | .upperBoundReached => .error (.counterUpperBound (text name))
  | .lowerBoundReached => .error (.counterLowerBound (text name))
  | .undefined => .error (counterError operation name keyDoesNotExistStatus)

-- The service itself, called with the same arguments.
def HandleCall.direct (service : CounterService S) (name : List UInt8) (s : S) :
    HandleCall → Except Exn Reply × S
  | getValue =>
    (match service.value s name with
      | some v => .ok (.number v)
      | none => .error (counterError "GetCountervalue" name keyDoesNotExistStatus), s)
  | reset => (.ok .done, (service.reset s name).2)
  | remove => (.ok .done, (service.remove s name).2)
  | addAndGet delta =>
    let (outcome, next) := service.addAndGet s name delta
    ((outcome.said "GetCounterValue" name).map .number, next)
  | incrementAndGet =>
    let (outcome, next) := service.addAndGet s name 1
    ((outcome.said "GetCounterValue" name).map .number, next)
  | decrementAndGet =>
    let (outcome, next) := service.addAndGet s name (-1)
    ((outcome.said "GetCounterValue" name).map .number, next)
  | compareAndSwap expect update =>
    let (outcome, next) := service.compareAndSwap s name expect update
    ((outcome.said "CompareAndSwap" name).map .number, next)
  | compareAndSet expect update =>
    let (outcome, next) := service.compareAndSwap s name expect update
    ((outcome.said "CompareAndSwap" name).map fun previous => .flag (previous == expect), next)
  | add delta =>
    let (outcome, next) := service.addAndGet s name delta
    ((outcome.said "GetCounterValue" name).map fun _ => .done, next)
  | increment =>
    let (outcome, next) := service.addAndGet s name 1
    ((outcome.said "GetCounterValue" name).map fun _ => .done, next)
  | decrement =>
    let (outcome, next) := service.addAndGet s name (-1)
    ((outcome.said "GetCounterValue" name).map fun _ => .done, next)
  | defineCounter configuration =>
    let (created, next) := service.create s name (sent configuration)
    (.ok (.flag created), next)
  | getConfiguration =>
    (match service.configuration s name with
      | some c => .ok (.configuration (sent c))
      | none => .error (counterError "CounterGetConfiguration" name keyDoesNotExistStatus), s)

/-- A call with the operation that carries it; what it sends fits its lengths. -/
structure CounterCall where
  operation : HotRodOperation
  sendable : operation.Sendable
  counter : BaseCounterImpl
  named : counter.name.length < 2 ^ 32
  call : HandleCall

def overWire (service : CounterService S) :
    Machine (S × Connection) CounterCall (Except Exn Reply) :=
  fun both c => answerOf (talk service.server (c.call.run c.operation c.counter) both)

def direct (service : CounterService S) : Machine S CounterCall (Except Exn Reply) :=
  fun s c => c.call.direct service c.counter.name s

/-- The bound is the one that the caller will take it for. -/
def Outcome.Apparent (upper : Bool) : Outcome → Prop
  | .upperBoundReached => upper = true
  | .lowerBoundReached => upper = false
  | .value _ | .undefined => True

/-- A bound that an update meets shows in the arguments of its call: the sign of what is
added, and the upper bound that the handle knows. -/
def Apparent (service : CounterService S) (s : S) (c : CounterCall) : Prop :=
  match c.call with
  | .addAndGet delta | .add delta =>
    (service.addAndGet s c.counter.name delta).1.Apparent (decide (0 < delta))
  | .incrementAndGet | .increment => (service.addAndGet s c.counter.name 1).1.Apparent true
  | .decrementAndGet | .decrement => (service.addAndGet s c.counter.name (-1)).1.Apparent false
  | .compareAndSwap expect update | .compareAndSet expect update =>
    (service.compareAndSwap s c.counter.name expect update).1.Apparent
      (decide (c.counter.configuration.upperBound.toInt64 ≤ update))
  | .getValue | .reset | .remove | .defineCounter _ | .getConfiguration => True

/-! ### Requests that arrive -/

theorem parseConfiguration_written (c : CounterConfiguration) :
    parseConfiguration (writeConfiguration c) = some (sent c, []) := by
  rw [parseConfiguration, writeConfiguration, WireFormat.parser_bind_apply]
  have flags :=
    parse_encode WireFormat.byte (counterFlags c.type c.persistent) (writeCounterFields c)
  rw [show writeByte _ ++ writeCounterFields c = WireFormat.byte.encode _ ++ writeCounterFields c
    from rfl, flags, Option.bind_some]
  simp only [counterType_counterFlags, persistent_counterFlags]
  obtain ⟨initialValue, lowerBound, upperBound, concurrencyLevel, type, persistent⟩ := c
  cases type with
  | weak =>
    simp only [parseCounterFields, writeCounterFields, WireFormat.parser_bind_apply, writeVInt,
      writeLong, parse_encode, parse_last, Option.bind_some]
    rfl
  | boundedStrong =>
    simp only [parseCounterFields, writeCounterFields, WireFormat.parser_bind_apply,
      writeLong, parse_encode, parse_last, Option.bind_some]
    rfl
  | unboundedStrong =>
    simp only [parseCounterFields, writeCounterFields, WireFormat.parser_bind_apply,
      writeLong, parse_last, Option.bind_some]
    rfl

section Requests

variable (o : HotRodOperation) {opCode : OpCode} {name arguments : List UInt8}
  {operation : CounterOperation}

theorem readCounterRequest_written (version : UInt8) (named : name.length < 2 ^ 32)
    (parsed : parseOperation opCode arguments = some (some operation, [])) :
    readCounterRequest ⟨version, (o.header opCode).said, writeArray name ++ arguments⟩ =
      some ⟨name, operation⟩ := by
  have known : opCodeOf (o.header opCode).said.opCode = some opCode := opCodeOf_request opCode
  have read : WireFormat.array.decode (writeArray name ++ arguments) =
      some (⟨name, named⟩, arguments) := WireFormat.array.decode_encode ⟨name, named⟩ arguments
  simp only [readCounterRequest, known, read, parsed, Option.bind_eq_bind, Option.bind_some,
    Option.pure_def]

theorem talk_request {R : Type} {service : CounterService S} (finish : UInt8 → ConnectionM R)
    {s : Connection} {server next : S} {response : Response} (sendable : o.Sendable)
    (idle : Idle s) (named : name.length < 2 ^ 32)
    (parsed : parseOperation opCode arguments = some (some operation, []))
    (performed : service.perform server ⟨name, operation⟩ = some (response, next)) :
    talk service.server (o.exchange opCode (writeArray name ++ arguments) finish) (server, s) =
      beside next (finish response.status (holding s response.body)) := by
  apply talk_exchange opCode _ finish sendable idle
  rw [readCounterRequest_written o _ named parsed, Option.bind_some, performed]

end Requests

/-! ### Answers that are read -/

def Outcome.read (upper : Bool) (operation : String) (name : List UInt8) :
    Outcome → Except Exn UInt64
  | .value v => .ok v.toUInt64
  | .upperBoundReached | .lowerBoundReached =>
    .error (if upper then .counterUpperBound (text name) else .counterLowerBound (text name))
  | .undefined => .error (counterError operation name keyDoesNotExistStatus)

theorem finish_outcome (outcome : Outcome) (upper : Bool) (operation : String) (name : List UInt8)
    {failed : UInt8 → Prop} [DecidablePred failed] (fine : ¬ failed noErrorStatus)
    (missing : failed keyDoesNotExistStatus) (s : Connection) :
    (do
      assertBoundaries name upper (Response.ofOutcome outcome).status
      if failed (Response.ofOutcome outcome).status then
        throw (counterError operation name (Response.ofOutcome outcome).status)
      else readLong : ConnectionM UInt64) (holding s (Response.ofOutcome outcome).body) =
      returning (outcome.read upper operation name) (holding s []) := by
  have quiet : ∀ status, status ≠ notExecutedWithPrevious →
      assertBoundaries name upper status = pure () := fun status other => if_neg other
  cases outcome with
  | value v =>
    change (assertBoundaries name upper noErrorStatus >>= fun _ => if failed noErrorStatus then _
      else readLong) (holding s (WireFormat.long.encode v.toUInt64)) = _
    rw [quiet _ (by decide), pure_bind, if_neg fine]
    exact finish_holding (consumes_read WireFormat.long v.toUInt64) s
  | upperBoundReached => cases upper <;> rfl
  | lowerBoundReached => cases upper <;> rfl
  | undefined =>
    change (assertBoundaries name upper keyDoesNotExistStatus >>= fun _ =>
      if failed keyDoesNotExistStatus then _ else readLong) (holding s []) = _
    rw [quiet _ (by decide), pure_bind, if_pos missing]
    rfl

theorem Outcome.map_read_eq_iff {A : Type} (outcome : Outcome) (upper : Bool) (operation : String)
    (name : List UInt8) (f : Int64 → A) :
    (outcome.read upper operation name).map (fun v => f v.toInt64) =
        (outcome.said operation name).map f ↔ outcome.Apparent upper := by
  cases outcome with
  | value v => simp [Outcome.read, Outcome.said, Outcome.Apparent, Except.map]
  | upperBoundReached =>
    cases upper <;> simp [Outcome.read, Outcome.said, Outcome.Apparent, Except.map]
  | lowerBoundReached =>
    cases upper <;> simp [Outcome.read, Outcome.said, Outcome.Apparent, Except.map]
  | undefined => simp [Outcome.read, Outcome.said, Outcome.Apparent, Except.map]

/-! ### Operations -/

section Operations

variable (service : CounterService S) {o : HotRodOperation} {s : Connection} {name : List UInt8}
  (sendable : o.Sendable) (idle : Idle s) (named : name.length < 2 ^ 32) (server : S)

include sendable idle named

theorem talk_outcome {opCode : OpCode} {arguments : List UInt8} {operation : CounterOperation}
    {outcome : Outcome} {next : S} (upper : Bool) (said : String) {p : UInt8 → Prop}
    [DecidablePred p] (fine : ¬ p noErrorStatus) (missing : p keyDoesNotExistStatus)
    (parsed : parseOperation opCode arguments = some (some operation, []))
    (performed : service.perform server ⟨name, operation⟩ =
      some (Response.ofOutcome outcome, next)) :
    answerOf (talk service.server (o.exchange opCode (writeArray name ++ arguments) fun status => do
        assertBoundaries name upper status
        if p status then throw (counterError said name status) else readLong) (server, s)) =
      (outcome.read upper said name, next, holding s []) := by
  rw [talk_request o _ sendable idle named parsed performed,
    finish_outcome outcome upper said name fine missing, answerOf_returning]

theorem talk_addAndGet (delta : Int64) :
    answerOf (talk service.server
        (AddAndGetCounterValueOperation.executeOperation o name delta) (server, s)) =
      ((service.addAndGet server name delta).1.read (decide (0 < delta)) "GetCounterValue" name,
        (service.addAndGet server name delta).2, holding s []) := by
  have parsed : parseOperation .counterAddAndGet (writeLong delta.toUInt64) =
      some (some (.addAndGetCounterValue delta), []) := by
    rw [parseOperation, WireFormat.parser_bind_apply, writeLong, parse_last]
    rfl
  rw [AddAndGetCounterValueOperation.executeOperation]
  exact talk_outcome service sendable idle named server _ _
    (p := fun status => (!isSuccess status) = true) (by decide) (by decide) parsed rfl

theorem talk_compareAndSwap (expect update upperBound : Int64) :
    answerOf (talk service.server (CompareAndSwapCounterValueOperation.executeOperation o name
        expect update upperBound) (server, s)) =
      ((service.compareAndSwap server name expect update).1.read (decide (upperBound ≤ update))
          "CompareAndSwap" name,
        (service.compareAndSwap server name expect update).2, holding s []) := by
  have parsed : parseOperation .counterCas
      (writeLong expect.toUInt64 ++ writeLong update.toUInt64) =
      some (some (.compareAndSwapCounterValue expect update), []) := by
    rw [parseOperation, WireFormat.parser_bind_apply, writeLong, parse_encode, Option.bind_some]
    simp only [WireFormat.parser_bind_apply, writeLong, parse_last, Option.bind_some]
    rfl
  rw [CompareAndSwapCounterValueOperation.executeOperation, List.append_assoc]
  exact talk_outcome service sendable idle named server _ _
    (p := fun status => status ≠ noErrorStatus) (by decide) (by decide) parsed rfl

theorem talk_getValue :
    answerOf (talk service.server (GetCounterValueOperation.executeOperation o name) (server, s)) =
      (match service.value server name with
        | some v => .ok v.toUInt64
        | none => .error (counterError "GetCountervalue" name keyDoesNotExistStatus),
        server, holding s []) := by
  have parsed : parseOperation .counterGet [] = some (some .getCounterValue, []) := rfl
  rw [GetCounterValueOperation.executeOperation, ← List.append_nil (writeArray name),
    talk_request o _ sendable idle named parsed rfl]
  cases service.value server name with
  | none => rfl
  | some v =>
    have read := finish_holding (consumes_read WireFormat.long v.toUInt64) s
    exact congrArg (fun result => answerOf (beside server result)) read

theorem talk_reset :
    answerOf (talk service.server (ResetCounterOperation.executeOperation o name) (server, s)) =
      (.ok (), (service.reset server name).2, holding s []) := by
  have parsed : parseOperation .counterReset [] = some (some .resetCounter, []) := rfl
  rw [ResetCounterOperation.executeOperation, ← List.append_nil (writeArray name),
    talk_request o _ sendable idle named parsed rfl]
  cases (service.reset server name).1 <;> rfl

theorem talk_remove :
    answerOf (talk service.server (RemoveCounterOperation.executeOperation o name) (server, s)) =
      (.ok (), (service.remove server name).2, holding s []) := by
  have parsed : parseOperation .counterRemove [] = some (some .removeCounter, []) := rfl
  rw [RemoveCounterOperation.executeOperation, ← List.append_nil (writeArray name),
    talk_request o _ sendable idle named parsed rfl]
  cases (service.remove server name).1 <;> rfl

theorem talk_define (configuration : CounterConfiguration) :
    answerOf (talk service.server
        (DefineCounterOperation.executeOperation o name configuration) (server, s)) =
      (.ok (service.create server name (sent configuration)).1,
        (service.create server name (sent configuration)).2, holding s []) := by
  have parsed : parseOperation .counterCreate (writeConfiguration configuration) =
      some (some (.defineCounter (sent configuration)), []) := by
    rw [parseOperation, WireFormat.parser_bind_apply, parseConfiguration_written]
    rfl
  rw [DefineCounterOperation.executeOperation, talk_request o _ sendable idle named parsed rfl]
  cases (service.create server name (sent configuration)).1 <;> rfl

theorem talk_getConfiguration :
    answerOf (talk service.server
        (GetCounterConfigurationOperation.executeOperation o name) (server, s)) =
      (match service.configuration server name with
        | some c => .ok (sent c)
        | none => .error (counterError "CounterGetConfiguration" name keyDoesNotExistStatus),
        server, holding s []) := by
  have parsed : parseOperation .counterGetConfiguration [] =
      some (some .getCounterConfiguration, []) := rfl
  rw [GetCounterConfigurationOperation.executeOperation, ← List.append_nil (writeArray name),
    talk_request o _ sendable idle named parsed rfl]
  cases service.configuration server name with
  | none => rfl
  | some c =>
    have read := finish_holding (consumes_sentConfiguration c) s
    exact congrArg (fun result => answerOf (beside server result)) read

end Operations

/-! ### Calls that are answered -/

/-- The client gets the answer of the service where a bound is apparent, and in any case the
server is left in the state of the service. -/
structure Alike (service : CounterService S) (server : S) (s : Connection) (c : CounterCall) :
    Prop where
  answer : (overWire service (server, s) c).1 = (direct service server c).1 ↔
    Apparent service server c
  next : (overWire service (server, s) c).2 = ((direct service server c).2, holding s [])

section Calls

variable (service : CounterService S) {server next : S} {s : Connection} {name : List UInt8}

theorem answerOf_update {m : ConnectionM UInt64} {outcome : Outcome} {upper : Bool} {said : String}
    (talked : answerOf (talk service.server m (server, s)) =
      (outcome.read upper said name, next, holding s [])) (f : Int64 → Reply) :
    ((answerOf (talk service.server (m >>= fun v => pure (f v.toInt64)) (server, s))).1 =
        (outcome.said said name).map f ↔ outcome.Apparent upper) ∧
      (answerOf (talk service.server (m >>= fun v => pure (f v.toInt64)) (server, s))).2 =
        (next, holding s []) := by
  rw [answerOf_talk_map, talked]
  exact ⟨outcome.map_read_eq_iff upper said name f, rfl⟩

theorem answerOf_other {A : Type} {m : ConnectionM A} {result : Except Exn A}
    {said : Except Exn Reply}
    (talked : answerOf (talk service.server m (server, s)) = (result, next, holding s []))
    (f : A → Reply) (same : result.map f = said) :
    ((answerOf (talk service.server (m >>= fun v => pure (f v)) (server, s))).1 = said ↔ True) ∧
      (answerOf (talk service.server (m >>= fun v => pure (f v)) (server, s))).2 =
        (next, holding s []) := by
  rw [answerOf_talk_map, talked]
  exact ⟨iff_of_true same trivial, rfl⟩

theorem alike_of_idle (server : S) (idle : Idle s) (c : CounterCall) :
    Alike service server s c := by
  obtain ⟨o, sendable, counter, named, call⟩ := c
  have updated := talk_addAndGet service sendable idle named server
  have swapped := talk_compareAndSwap service sendable idle named server
  suffices both : ((answerOf (talk service.server (call.run o counter) (server, s))).1 =
        (call.direct service counter.name server).1 ↔
      Apparent service server ⟨o, sendable, counter, named, call⟩) ∧
      (answerOf (talk service.server (call.run o counter) (server, s))).2 =
        ((call.direct service counter.name server).2, holding s []) from ⟨both.1, both.2⟩
  cases call with
  | getValue =>
    rw [HandleCall.run, BaseCounterImpl.getValue, bind_assoc]
    simp only [pure_bind]
    refine answerOf_other service (talk_getValue service sendable idle named server)
      (fun v => .number v.toInt64) ?_
    simp only [HandleCall.direct]
    cases service.value server counter.name with
    | none => rfl
    | some v => rfl
  | reset =>
    exact answerOf_other service (talk_reset service sendable idle named server)
      (fun _ => .done) rfl
  | remove =>
    exact answerOf_other service (talk_remove service sendable idle named server)
      (fun _ => .done) rfl
  | addAndGet delta =>
    rw [HandleCall.run, StrongCounterImpl.addAndGet, bind_assoc]
    simp only [pure_bind]
    exact answerOf_update service (updated delta) .number
  | incrementAndGet =>
    rw [HandleCall.run, StrongCounterImpl.incrementAndGet, StrongCounterImpl.addAndGet, bind_assoc]
    simp only [pure_bind]
    exact answerOf_update service (updated 1) .number
  | decrementAndGet =>
    rw [HandleCall.run, StrongCounterImpl.decrementAndGet, StrongCounterImpl.addAndGet, bind_assoc]
    simp only [pure_bind]
    exact answerOf_update service (updated (-1)) .number
  | compareAndSwap expect update =>
    rw [HandleCall.run, StrongCounterImpl.compareAndSwap, bind_assoc]
    simp only [pure_bind]
    exact answerOf_update service (swapped expect update _) .number
  | compareAndSet expect update =>
    rw [HandleCall.run, StrongCounterImpl.compareAndSet, StrongCounterImpl.compareAndSwap]
    simp only [bind_assoc, pure_bind]
    exact answerOf_update service (swapped expect update _) fun previous =>
      .flag (previous == expect)
  | add delta =>
    rw [HandleCall.run, WeakCounterImpl.add, bind_assoc]
    simp only [pure_bind]
    exact answerOf_update service (updated delta) fun _ => .done
  | increment =>
    rw [HandleCall.run, WeakCounterImpl.increment, WeakCounterImpl.add, bind_assoc]
    simp only [pure_bind]
    exact answerOf_update service (updated 1) fun _ => .done
  | decrement =>
    rw [HandleCall.run, WeakCounterImpl.decrement, WeakCounterImpl.add, bind_assoc]
    simp only [pure_bind]
    exact answerOf_update service (updated (-1)) fun _ => .done
  | defineCounter configuration =>
    exact answerOf_other service
      (talk_define service sendable idle named server configuration) .flag rfl
  | getConfiguration =>
    refine answerOf_other service (talk_getConfiguration service sendable idle named server)
      .configuration ?_
    simp only [HandleCall.direct]
    cases service.configuration server counter.name with
    | none => rfl
    | some c => rfl

end Calls

/-! ### Runs -/

-- The server with an idle connection, and the service.
theorem follows_direct (service : CounterService S) :
    Follows (overWire service) (direct service) (fun both server => both.1 = server ∧ Idle both.2)
      (Apparent service) := by
  constructor
  · rintro ⟨server, s⟩ _ c ⟨rfl, idle⟩
    exact (alike_of_idle service server idle c).answer
  · rintro ⟨server, s⟩ _ c ⟨rfl, idle⟩
    rw [(alike_of_idle service server idle c).next]
    exact ⟨rfl, idle_holding s⟩

end HotRod.Counters
