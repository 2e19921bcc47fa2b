import HotRod.Data.SortedMap
import HotRod.Manager.CacheNames
import HotRod.Operations.Bodies
import HotRod.Operations.Conversation
import HotRod.Semantics.Machines
import Mathlib.Data.Fintype.Card
import Mathlib.Data.String.Basic

/-! The administration of caches over the wire, and what the server does with it.

`RemoteCacheManagerAdmin` sends a command and a map of parameters. `AdminService` is what a
server does with caches, whatever it keeps them in. A client that talks to it gets from every
call what the service itself would say, but for names that it does not find in their array. -/

set_option autoImplicit false

namespace HotRod.Manager

open Semantics.Execution Semantics.Machines
open Operations Protocol HotRodConstants
open WireFormat (Bytes)

variable {S : Type}

/-! ### Commands -/

inductive Parameter where
  | name
  | template
  | configuration
  | flags
  deriving Repr

namespace Parameter

def key : Parameter → String
  | name => "name"
  | template => "template"
  | configuration => "configuration"
  | flags => "flags"

theorem key_injective : Function.Injective key := by
  intro p q same
  cases p <;> cases q <;> first | rfl | exact absurd same (by decide)

instance : LinearOrder Parameter := LinearOrder.lift' key key_injective

instance : Fintype Parameter where
  elems := {name, template, configuration, flags}
  complete p := by cases p <;> simp

def bytes (p : Parameter) : List UInt8 := ascii p.key

theorem bytes_inj {p q : Parameter} : p.bytes = q.bytes ↔ p = q := by
  cases p <;> cases q <;> decide +kernel

theorem length_bytes (p : Parameter) : p.bytes.length < 2 ^ 32 := by
  cases p <;> decide +kernel

end Parameter

abbrev Parameters := SortedMap Parameter (List UInt8)

inductive Command where
  | create
  | getOrCreate
  | remove
  | reindex
  | names
  deriving DecidableEq, Repr

namespace Command

def text : Command → String
  | create => "@@cache@create"
  | getOrCreate => "@@cache@getorcreate"
  | remove => "@@cache@remove"
  | reindex => "@@cache@reindex"
  | names => "@@cache@names"

def bytes (command : Command) : List UInt8 := ascii command.text

end Command

-- `PERMANENT` is the only flag there is.
def flags2Params (permanent : Bool) : List UInt8 := if permanent then ascii "PERMANENT" else []

-- `if (!flags.empty())`
def withFlags (permanent : Bool) (params : Parameters) : Parameters :=
  if permanent then params.insert .flags (flags2Params permanent) else params

-- Of `createCache` and `createCacheWithXml`, which send the source of the configuration under
-- different keys.
def createParameters (key : Parameter) (name source : List UInt8) (permanent : Bool) :
    Parameters :=
  let params := SortedMap.empty.insert .name name
  withFlags permanent (if source ≠ [] then params.insert key source else params)

inductive AdminCall where
  | createCache (name model : List UInt8)
  | createCacheWithXml (name conf : List UInt8)
  | getOrCreateCache (name model : List UInt8)
  | getOrCreateCacheWithXml (name conf : List UInt8)
  | removeCache (name : List UInt8)
  | reindexCache (name : List UInt8)
  | getCacheNames
  deriving DecidableEq, Repr

namespace AdminCall

def command : AdminCall → Command
  | createCache .. | createCacheWithXml .. => .create
  | getOrCreateCache .. | getOrCreateCacheWithXml .. => .getOrCreate
  | removeCache _ => .remove
  | reindexCache _ => .reindex
  | getCacheNames => .names

def params (permanent : Bool) : AdminCall → Parameters
  | createCache name model | getOrCreateCache name model =>
    createParameters .template name model permanent
  | createCacheWithXml name conf | getOrCreateCacheWithXml name conf =>
    createParameters .configuration name conf permanent
  | removeCache name => withFlags permanent (SortedMap.empty.insert .name name)
  | reindexCache name => SortedMap.empty.insert .name name
  | getCacheNames => SortedMap.empty

end AdminCall

inductive Reply where
  | done
  | names (result : Option (Finset (List UInt8)))
  deriving DecidableEq

def AdminCall.reply (result : List UInt8) : AdminCall → Reply
  | getCacheNames => .names ((digest none result).map List.toFinset)
  | _ => .done

/-- `executeAdminOperation`, with what the caller makes of its result. It is one
`executeOperation`: `execute()` sends a command again after an error of the server, which
leaves the service as it is. -/
def AdminCall.run (o : HotRodOperation) (permanent : Bool) (call : AdminCall) :
    ConnectionM Reply := do
  let params := (call.params permanent).entries.map fun entry => (entry.1.bytes, entry.2)
  let result ← ExecuteCmdOperation.executeOperation o call.command.bytes params
  pure (call.reply result)

/-! ### Services -/

inductive Source where
  | default
  | template (model : List UInt8)
  | configuration (conf : List UInt8)
  deriving DecidableEq, Repr

/-- What a server does with caches: the state that a command leaves, or the message of an
error. The names are those of all caches, which one response has room for. -/
structure AdminService (S : Type) where
  create : S → List UInt8 → Source → Bool → Except Bytes S
  getOrCreate : S → List UInt8 → Source → Bool → Except Bytes S
  remove : S → List UInt8 → Bool → Except Bytes S
  reindex : S → List UInt8 → Except Bytes S
  names : S → List (List UInt8)
  fits : ∀ s, (Json.array (names s)).length < 2 ^ 32

def ofDone (s : S) : Except Bytes S → Except Failure Response × S
  | .ok next => (.ok ⟨noErrorStatus, WireFormat.array.encode Bytes.empty⟩, next)
  | .error message => (.error ⟨serverErrorStatus, rfl, message⟩, s)

def sourceOf (param : Parameter → Option (List UInt8)) : Source :=
  match param .template, param .configuration with
  | some model, _ => .template model
  | none, some conf => .configuration conf
  | none, none => .default

def AdminService.act (service : AdminService S) (s : S) (command : Command) (name : List UInt8)
    (source : Source) (permanent : Bool) : Except Failure Response × S :=
  match command with
  | .create => ofDone s (service.create s name source permanent)
  | .getOrCreate => ofDone s (service.getOrCreate s name source permanent)
  | .remove => ofDone s (service.remove s name permanent)
  | .reindex => ofDone s (service.reindex s name)
  | .names => (.ok ⟨noErrorStatus, WireFormat.array.encode ⟨_, service.fits s⟩⟩, s)

def AdminService.perform (service : AdminService S) (s : S) (command : Command)
    (param : Parameter → Option (List UInt8)) : Except Failure Response × S :=
  service.act s command ((param .name).getD []) (sourceOf param)
    (param .flags == some (flags2Params true))

abbrev Sent := Bytes × WireFormat.Counted (Bytes × Bytes)

def sentFormat : WireFormat Sent :=
  WireFormat.array.seq (WireFormat.array.seq WireFormat.array).counted

def commandOf (bytes : List UInt8) : Option Command :=
  [.create, .getOrCreate, .remove, .reindex, Command.names].find? fun command =>
    command.bytes = bytes

theorem commandOf_bytes (command : Command) : commandOf command.bytes = some command := by
  cases command <;> decide +kernel

def AdminService.read (service : AdminService S) (s : S) (request : Request) :
    Option (Except Failure Response × S) := do
  let _ ← (opCodeOf request.header.opCode).filter (· = .exec)
  let ((text, params), _) ← (sentFormat.decode request.body).filter fun sent => sent.2 = []
  let command ← commandOf text.1
  pure (service.perform s command fun p =>
    (params.1.find? fun pair => pair.1.1 = p.bytes).map fun pair => pair.2.1)

def AdminService.server (service : AdminService S) : Server S := framedOrFailed service.read

def told (s : S) : Except Bytes S → Except Exn Reply × S
  | .ok next => (.ok .done, next)
  | .error message => (.error (errorOf message.1), s)

-- An empty text stands for the default configuration.
def given (source : List UInt8 → Source) (text : List UInt8) : Source :=
  if text = [] then .default else source text

-- The service itself, called with the same arguments.
def AdminCall.direct (service : AdminService S) (permanent : Bool) (s : S) :
    AdminCall → Except Exn Reply × S
  | createCache name model =>
    told s (service.create s name (given .template model) permanent)
  | createCacheWithXml name conf =>
    told s (service.create s name (given .configuration conf) permanent)
  | getOrCreateCache name model =>
    told s (service.getOrCreate s name (given .template model) permanent)
  | getOrCreateCacheWithXml name conf =>
    told s (service.getOrCreate s name (given .configuration conf) permanent)
  | removeCache name => told s (service.remove s name permanent)
  | reindexCache name => told s (service.reindex s name)
  | getCacheNames => (.ok (.names (some (service.names s).toFinset)), s)

/-- A call with the operation that carries it and the flags of the administrator; what it
sends fits its lengths. -/
structure AdminRequest where
  operation : HotRodOperation
  sendable : operation.Sendable
  permanent : Bool
  call : AdminCall
  fits : ∀ entry ∈ (call.params permanent).entries, entry.2.length < 2 ^ 32

def overWire (service : AdminService S) :
    Machine (S × Connection) AdminRequest (Except Exn Reply) :=
  fun both r => answerOf (talk service.server (r.call.run r.operation r.permanent) both)

def direct (service : AdminService S) : Machine S AdminRequest (Except Exn Reply) :=
  fun s r => r.call.direct service r.permanent s

/-- Where names are asked for, JSON writes all there are as they are. -/
def Legible (service : AdminService S) (s : S) (r : AdminRequest) : Prop :=
  r.call = .getCacheNames → ∀ name ∈ service.names s, name ≠ [] ∧ ∀ c ∈ name, Json.Verbatim c

/-! ### Requests that arrive -/

theorem find?_bytes (entries : List (Parameter × List UInt8)) (p : Parameter) :
    ((entries.map fun entry => (entry.1.bytes, entry.2)).find? fun pair =>
      pair.1 = p.bytes).map Prod.snd = SortedMap.find entries p := by
  induction entries with
  | nil => rfl
  | cons entry rest ih =>
    obtain ⟨q, value⟩ := entry
    rw [List.map_cons, SortedMap.find]
    by_cases same : q = p
    · subst same
      rw [List.find?_cons_of_pos (by simp), if_pos rfl]
      rfl
    · have other : ¬ q.bytes = p.bytes := mt Parameter.bytes_inj.mp same
      rw [List.find?_cons_of_neg (by simpa using other), if_neg same, ih]

theorem exists_sized {pairs : List (List UInt8 × List UInt8)}
    (fits : ∀ pair ∈ pairs, pair.1.length < 2 ^ 32 ∧ pair.2.length < 2 ^ 32) :
    ∃ sized : List (Bytes × Bytes), pairs = sized.map fun pair => (pair.1.1, pair.2.1) := by
  induction pairs with
  | nil => exact ⟨[], rfl⟩
  | cons pair rest ih =>
    obtain ⟨first, later⟩ := List.forall_mem_cons.mp fits
    obtain ⟨sized, same⟩ := ih later
    exact ⟨(⟨pair.1, first.1⟩, ⟨pair.2, first.2⟩) :: sized, by rw [List.map_cons, ← same]⟩

theorem exists_sent (command : Command) {params : Parameters}
    (fits : ∀ entry ∈ params.entries, entry.2.length < 2 ^ 32) :
    ∃ sent : Sent, sent.1.1 = command.bytes ∧
      (∀ p, ((sent.2.1.find? fun pair => pair.1.1 = p.bytes).map fun pair => pair.2.1) =
        params.get? p) ∧
      writeArray command.bytes
          ++ writeVInt (UInt32.ofNat (params.entries.map fun entry =>
            (entry.1.bytes, entry.2)).length)
          ++ (params.entries.map fun entry => (entry.1.bytes, entry.2)).flatMap writePair =
        sentFormat.encode sent := by
  have short : command.bytes.length < 2 ^ 32 := by cases command <;> decide +kernel
  have sizedKeys : ∀ pair ∈ params.entries.map fun entry => (entry.1.bytes, entry.2),
      pair.1.length < 2 ^ 32 ∧ pair.2.length < 2 ^ 32 := by
    intro pair member
    obtain ⟨⟨p, value⟩, there, rfl⟩ := List.mem_map.mp member
    exact ⟨p.length_bytes, fits _ there⟩
  obtain ⟨sized, same⟩ := exists_sized sizedKeys
  have few : params.keys.length ≤ 4 := params.keys_nodup.length_le_card
  have count : sized.length < 2 ^ 32 := by
    have lengths := congrArg List.length same
    rw [List.length_map, List.length_map] at lengths
    rw [SortedMap.keys, List.length_map, lengths] at few
    exact Nat.lt_of_le_of_lt few (by decide)
  refine ⟨(⟨command.bytes, short⟩, ⟨sized, count⟩), rfl, ?_, ?_⟩
  · intro p
    have found := find?_bytes params.entries p
    rw [same, List.find?_map, Option.map_map] at found
    exact found
  · rw [same, List.length_map, List.flatMap_map, List.append_assoc]
    rfl

section Requests

variable {o : HotRodOperation} {s : Connection} {params : Parameters}

theorem talk_exec (service : AdminService S) (command : Command) (sendable : o.Sendable)
    (idle : Idle s) (server : S) (fits : ∀ entry ∈ params.entries, entry.2.length < 2 ^ 32) :
    talk service.server (ExecuteCmdOperation.executeOperation o command.bytes
        (params.entries.map fun entry => (entry.1.bytes, entry.2))) (server, s) =
      match service.perform server command params.get? with
      | (.ok response, next) => beside next (readValue (holding s response.body))
      | (.error failure, next) => beside next (.error (errorOf failure.message.1)
          (afterError failure.status (holding s []))) := by
  obtain ⟨sent, text, lookups, written⟩ := exists_sent command fits
  have reads : service.read server ⟨o.codec.protocolVersion, (o.header .exec).said,
      sentFormat.encode sent⟩ = some (service.perform server command params.get?) := by
    have known : opCodeOf (o.header .exec).said.opCode = some .exec := opCodeOf_request .exec
    have decoded : sentFormat.decode (sentFormat.encode sent) = some (sent, []) := by
      have read := sentFormat.decode_encode sent []
      rwa [List.append_nil] at read
    simp only [AdminService.read, known, decoded, Option.filter_some, decide_true, if_true,
      Option.bind_eq_bind, Option.bind_some, text, commandOf_bytes, Option.pure_def]
    rw [funext lookups]
  rw [ExecuteCmdOperation.executeOperation, written, AdminService.server]
  cases performed : service.perform server command params.get? with
  | mk result next =>
    rw [performed] at reads
    cases result with
    | ok response => exact talk_exchange_ok .exec _ _ sendable idle reads
    | error failure => exact talk_exchange_error .exec _ _ sendable idle reads

end Requests

/-! ### Calls that are answered -/

section Calls

variable (service : AdminService S) (s : S) (name source : List UInt8) (permanent : Bool)

theorem get?_withFlags (params : Parameters) (p : Parameter) :
    (withFlags permanent params).get? p =
      if permanent ∧ p = .flags then some (flags2Params true) else params.get? p := by
  cases permanent <;> simp [withFlags, SortedMap.get?_insert]

theorem get?_createParameters (key p : Parameter) :
    (createParameters key name source permanent).get? p =
      if permanent ∧ p = .flags then some (flags2Params true)
      else if source ≠ [] ∧ p = key then some source
      else if p = .name then some name else none := by
  have named : ∀ q, (SortedMap.empty.insert Parameter.name name).get? q =
      if q = .name then some name else none := fun q => SortedMap.get?_insert _ _ _ _
  rw [createParameters, get?_withFlags]
  congr 1
  split
  · next filled => simp only [SortedMap.get?_insert, named, filled, ne_eq, not_false_eq_true,
      true_and]
  · next empty => simp only [named, empty, false_and, if_false]

theorem perform_createParameters (command : Command) {key : Parameter}
    {origin : List UInt8 → Source} (keyed : key = .template ∧ origin = .template ∨
      key = .configuration ∧ origin = .configuration) :
    service.perform s command (createParameters key name source permanent).get? =
      service.act s command name (given origin source) permanent := by
  have flags : ((createParameters key name source permanent).get? .flags ==
      some (flags2Params true)) = permanent := by
    rw [get?_createParameters]
    rcases keyed with ⟨rfl, rfl⟩ | ⟨rfl, rfl⟩ <;> cases permanent <;> simp
  have names : ((createParameters key name source permanent).get? .name).getD [] = name := by
    rw [get?_createParameters]
    rcases keyed with ⟨rfl, rfl⟩ | ⟨rfl, rfl⟩ <;> simp
  have sources : sourceOf (createParameters key name source permanent).get? =
      given origin source := by
    rw [sourceOf, get?_createParameters, get?_createParameters, given]
    rcases keyed with ⟨rfl, rfl⟩ | ⟨rfl, rfl⟩ <;> by_cases empty : source = [] <;> simp [empty]
  rw [AdminService.perform, flags, names, sources]

variable {call : AdminCall}

theorem perform_command (other : call ≠ .getCacheNames) :
    ∃ outcome, service.perform s call.command (call.params permanent).get? = ofDone s outcome ∧
      call.direct service permanent s = told s outcome := by
  cases call with
  | createCache name model =>
    exact ⟨_, perform_createParameters service s name model permanent .create (.inl ⟨rfl, rfl⟩),
      rfl⟩
  | createCacheWithXml name conf =>
    exact ⟨_, perform_createParameters service s name conf permanent .create (.inr ⟨rfl, rfl⟩), rfl⟩
  | getOrCreateCache name model =>
    exact ⟨_, perform_createParameters service s name model permanent .getOrCreate
      (.inl ⟨rfl, rfl⟩), rfl⟩
  | getOrCreateCacheWithXml name conf =>
    exact ⟨_, perform_createParameters service s name conf permanent .getOrCreate
      (.inr ⟨rfl, rfl⟩), rfl⟩
  | removeCache name =>
    exact ⟨_, perform_createParameters service s name [] permanent .remove (.inl ⟨rfl, rfl⟩), rfl⟩
  | reindexCache name =>
    exact ⟨_, perform_createParameters service s name [] false .reindex (.inl ⟨rfl, rfl⟩), rfl⟩
  | getCacheNames => exact absurd rfl other

end Calls

-- The client gets the answer of the service where the names are legible, and in any case the server
-- is left in the state of the service.
theorem alike_of_idle (service : AdminService S) (server : S) {s : Connection} (idle : Idle s)
    (r : AdminRequest) :
    ((overWire service (server, s) r).1 = (direct service server r).1 ↔
        Legible service server r) ∧
      (overWire service (server, s) r).2 = ((direct service server r).2, holding s []) := by
  obtain ⟨o, sendable, permanent, call, fits⟩ := r
  have talked := talk_exec service call.command sendable idle server fits
  rw [overWire, direct, AdminCall.run, answerOf_talk_map, talked]
  by_cases other : call = .getCacheNames
  · subst other
    have read := finish_holding (consumes_readValue ⟨_, service.fits server⟩) s
    have same : Legible service server ⟨o, sendable, permanent, .getCacheNames, fits⟩ ↔
        (digest none (Json.array (service.names server))).map List.toFinset =
          some (service.names server).toFinset := by
      rw [digest_array_iff]
      exact ⟨fun legible => legible rfl, fun plain _ => plain⟩
    have performed : service.perform server AdminCall.getCacheNames.command
        (AdminCall.getCacheNames.params permanent).get? =
          (.ok ⟨noErrorStatus, WireFormat.array.encode ⟨_, service.fits server⟩⟩, server) := rfl
    rw [same, performed]
    dsimp only
    rw [read]
    refine ⟨?_, rfl⟩
    change Except.ok (Reply.names _) = Except.ok (Reply.names _) ↔ _
    rw [Except.ok.injEq, Reply.names.injEq]
  · obtain ⟨outcome, performed, said⟩ := perform_command service server permanent other
    have legible : Legible service server ⟨o, sendable, permanent, call, fits⟩ :=
      fun names => absurd names other
    have replied : ∀ result, call.reply result = .done := by
      intro result
      cases call <;> first | rfl | exact absurd rfl other
    rw [performed, said]
    cases outcome with
    | ok next =>
      have read := finish_holding (consumes_readValue Bytes.empty) s
      dsimp only [ofDone]
      rw [read]
      refine ⟨iff_of_true ?_ legible, rfl⟩
      exact congrArg Except.ok (replied _)
    | error message => exact ⟨iff_of_true rfl legible, rfl⟩

/-! ### Runs -/

-- The server with an idle connection, and the service.
theorem follows_direct (service : AdminService S) :
    Follows (overWire service) (direct service) (fun both server => both.1 = server ∧ Idle both.2)
      (Legible service) := by
  constructor
  · rintro ⟨server, s⟩ _ r ⟨rfl, idle⟩
    exact (alike_of_idle service server idle r).1
  · rintro ⟨server, s⟩ _ r ⟨rfl, idle⟩
    rw [(alike_of_idle service server idle r).2]
    exact ⟨rfl, idle_holding s⟩

/-- Administrators, each with a connection of its own, get from a server what the service
itself would say to their calls in that order, errors included, exactly if JSON writes all
names as they are whenever one of them asks for the names. -/
theorem admin_answers_eq_direct_iff {I : Type} [DecidableEq I] (service : AdminService S)
    (server : S) {connections : I → Connection} (idle : ∀ i, Idle (connections i))
    (calls : List (I × AdminRequest)) :
    answers (sharing (overWire service)) (server, connections) calls =
        answers (anyone (direct service)) server calls ↔
      Throughout (anyone (direct service)) (fun s call => Legible service s call.2) server calls :=
  (follows_direct service).sharing.answers_eq_iff ⟨rfl, idle⟩

/-- The names of the caches, as many as one response has room for. -/
abbrev Names := { names : List (List UInt8) // (Json.array names).length < 2 ^ 32 }

def Names.of (names : List (List UInt8)) : Except Bytes Names :=
  if room : (Json.array names).length < 2 ^ 32 then .ok ⟨names, room⟩
  else .error ⟨ascii "full", by decide +kernel⟩

def cacheNames : AdminService Names where
  create s name _ _ :=
    if s.1.contains name then .error ⟨ascii "exists", by decide +kernel⟩ else Names.of (name :: s.1)
  getOrCreate s name _ _ := if s.1.contains name then .ok s else Names.of (name :: s.1)
  remove s name _ :=
    if s.1.contains name then Names.of (s.1.erase name)
    else .error ⟨ascii "missing", by decide +kernel⟩
  reindex s _ := .ok s
  names := Subtype.val
  fits := Subtype.prop

def adminRequest (call : AdminCall) (fits : ∀ entry ∈ (call.params false).entries,
    entry.2.length < 2 ^ 32) : AdminRequest where
  operation := .plain
  sendable := HotRodOperation.sendable_plain
  permanent := false
  call
  fits

theorem answers_of_administrators :
    answers (sharing (overWire cacheNames))
        (⟨[], by decide +kernel⟩, fun _ : Bool => { hostname := "localhost", port := 11222 })
        [(true, adminRequest (.createCache (ascii "a") []) (by decide +kernel)),
          (false, adminRequest (.createCache (ascii "a") []) (by decide +kernel)),
          (false, adminRequest .getCacheNames (by decide +kernel))] =
      [.ok .done, .error (.hotRodClient "exists"), .ok (.names (some {ascii "a"}))] := by
  refine ((admin_answers_eq_direct_iff cacheNames ⟨[], by decide +kernel⟩
    (fun _ => ⟨rfl, rfl, rfl⟩) _).mpr ?_).trans (by decide +kernel)
  refine ⟨nofun, nofun, ?_, trivial⟩
  rintro - name member
  rw [List.mem_singleton.mp member]
  decide +kernel

end HotRod.Manager
