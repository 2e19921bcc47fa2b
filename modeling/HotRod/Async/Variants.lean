import HotRod.Async.GoAsync
import HotRod.Async.Threads
import HotRod.Operations.Expiration

/-! The asynchronous variants of the calls of `RemoteCache`.

Three of them, `getAsync`, `putAsync` and `putIfAbsentAsync`, look the transaction up
when they are called and hand its pointer to the task; the others call the synchronous
function, which looks it up on the thread of the task. These three, `replaceAsync` and one
of the overloads of `putAllAsync` keep pointers to their arguments, which the task reads;
the others copy them. What is compared is what reaches `RemoteCacheBase`: the calls with
their arguments, and where each one runs. The layers below are taken to return. -/

set_option autoImplicit false

namespace HotRod.Async

open Semantics.Execution
open Events (Thrown)
open Transactions (TransactionStatus)
open Operations.Expiration (TimeUnit toSeconds)

variable {K V T : Type}

/-! ### `RemoteCacheBase` -/

inductive Kind where
  | get | put | putIfAbsent | replace | remove | replaceWithVersion | removeWithVersion
  deriving DecidableEq, Repr

inductive BaseCall (K V : Type) where
  | get (key : K)
  | put (key : K) (val : V) (life idle : Int64)
  | putIfAbsent (key : K) (val : V) (life idle : Int64)
  | replace (key : K) (val : V) (life idle : Int64)
  | remove (key : K)
  | replaceWithVersion (key : K) (val : V) (version life idle : Int64)
  | removeWithVersion (key : K) (version : Int64)
  deriving DecidableEq, Repr

def BaseCall.kind : BaseCall K V → Kind
  | .get _ => .get
  | .put .. => .put
  | .putIfAbsent .. => .putIfAbsent
  | .replace .. => .replace
  | .remove _ => .remove
  | .replaceWithVersion .. => .replaceWithVersion
  | .removeWithVersion .. => .removeWithVersion

-- What the transactional branch checks first; a `putIfAbsent` begins with a `get`.
def Kind.accepted : Kind → TransactionStatus → Bool
  | .get | .putIfAbsent => TransactionStatus.acceptRead
  | .put | .replace | .remove | .replaceWithVersion | .removeWithVersion =>
    TransactionStatus.acceptRW

def Kind.action : Kind → String
  | .get | .putIfAbsent => "get"
  | .put => "put"
  | .replace => "replace"
  | .remove => "remove"
  | .replaceWithVersion => "replaceWithVersion"
  | .removeWithVersion => "removeWithVersion"

inductive Place where
  | direct
  | inside (tx : Nat)
  | refused (e : Exn)
  deriving DecidableEq, Repr

def placeIn (kind : Kind) (tx : Nat) (status : TransactionStatus) : Place :=
  if status ≠ .NO_TRANSACTION then
    if kind.accepted status then .inside tx
    else .refused (.txState status.statusToString kind.action)
  else .direct

section Place

variable [DecidableEq T]

-- The branch that every `base_` function begins with.
def place (transactional : Bool) (m : Manager T) (thread : T) (currentTxPtr : Option Nat)
    (kind : Kind) : Place :=
  if transactional then
    match currentTxPtr with
    | some tx => placeIn kind tx (m.status tx)
    | none =>
      let (tx, m) := m.getCurrentTransaction thread
      placeIn kind tx (m.status tx)
  else .direct

end Place

structure Attempt (K V : Type) where
  call : BaseCall K V
  place : Place
  deriving DecidableEq, Repr

/-- Calls in turn, until one is refused; `placed` is where each of them goes. -/
def perform (placed : Nat → Kind → Place) : Nat → List (BaseCall K V) →
    EStateM Thrown (List (Attempt K V)) Unit
  | _, [] => pure ()
  | i, call :: rest => do
    modify (· ++ [⟨call, placed i call.kind⟩])
    match placed i call.kind with
    | .refused e => throw (.exn e)
    | _ => perform placed (i + 1) rest

/-! ### `RemoteCache` -/

-- The overloads of a call with a lifespan and a maximal idle time.
inductive Expiry where
  | seconds (lifespan maxIdle : UInt64)
  | inUnit (lifespan : UInt64) (lifespanUnit : TimeUnit)
  | inUnits (lifespan : UInt64) (lifespanUnit : TimeUnit) (maxIdle : UInt64) (maxIdleUnit : TimeUnit)
  deriving DecidableEq, Repr

/-- A call with its arguments, as both forms of it take them. A map is listed in the
order of the addresses of its entries. -/
inductive Request (K V : Type) where
  | get (key : K)
  | put (key : K) (val : V) (expiry : Expiry)
  | putIfAbsent (key : K) (val : V) (expiry : Expiry)
  | putAll (map : List (K × V)) (expiry : Expiry)
  | replace (key : K) (val : V) (expiry : Expiry)
  | replaceOld (key : K) (oldVal val : V) (lifespan maxIdle : UInt64)
  | replaceOldIn (key : K) (oldVal val : V) (lifespan : UInt64) (lifespanUnit : TimeUnit)
  | remove (key : K)
  | replaceWithVersion (key : K) (val : V) (version lifespan maxIdle : UInt64)
  | removeWithVersion (key : K) (version : UInt64)
  deriving DecidableEq, Repr

def Request.kind : Request K V → Kind
  | .get _ => .get
  | .put .. | .putAll .. => .put
  | .putIfAbsent .. => .putIfAbsent
  | .replace .. | .replaceOld .. | .replaceOldIn .. => .replace
  | .remove _ => .remove
  | .replaceWithVersion .. => .replaceWithVersion
  | .removeWithVersion .. => .removeWithVersion

-- The requests of the `goAsync` for `void` functions.
def Request.isVoid : Request K V → Bool
  | .putAll .. => true
  | _ => false

-- The asynchronous variants that look the transaction up themselves.
def Request.captures : Request K V → Bool
  | .get _ | .put .. | .putIfAbsent .. => true
  | _ => false

/-- What a task finds in the objects that the caller has passed: the key, the value and the
entries of the map, as its base calls read them. Of a destroyed object it finds nothing. -/
structure Arguments (K V : Type) where
  key : Option K
  val : Option V
  map : Option (List (K × V))

def Arguments.keyVal (arguments : Arguments K V) : Option (K × V) :=
  arguments.key.bind fun key => arguments.val.map fun val => (key, val)

/-- The request that the task carries out: what is kept as a pointer is what it finds. -/
def Request.read (arguments : Arguments K V) : Request K V → Option (Request K V)
  | .get _ => arguments.key.map .get
  | .put _ _ expiry => arguments.keyVal.map fun found => .put found.1 found.2 expiry
  | .putIfAbsent _ _ expiry => arguments.keyVal.map fun found => .putIfAbsent found.1 found.2 expiry
  | .replace _ _ expiry => arguments.keyVal.map fun found => .replace found.1 found.2 expiry
  | .putAll _ (.inUnits lifespan lifespanUnit maxIdle maxIdleUnit) =>
    arguments.map.map fun found =>
      .putAll found (.inUnits lifespan lifespanUnit maxIdle maxIdleUnit)
  | request => some request

-- The same arguments, with the entries of a map in any order.
def Request.Same : Request K V → Request K V → Prop
  | .putAll map expiry, .putAll map' expiry' => map.Perm map' ∧ expiry = expiry'
  | request, request' => request = request'

section Calls

-- `ceil(time / divisor)` in the arithmetic of `double`
variable (ceilQuotient : UInt64 → UInt64 → UInt64)

-- The overload that the other two call.
def durations (lifespan : UInt64) (lifespanUnit : TimeUnit) (maxIdle : UInt64)
    (maxIdleUnit : TimeUnit) : Except Exn (Int64 × Int64) := do
  let life ← toSeconds ceilQuotient lifespan lifespanUnit
  let idle ← toSeconds ceilQuotient maxIdle maxIdleUnit
  pure (life.toInt64, idle.toInt64)

def Expiry.durations : Expiry → Except Exn (Int64 × Int64)
  | .seconds lifespan maxIdle => Async.durations ceilQuotient lifespan .SECONDS maxIdle .SECONDS
  | .inUnit lifespan lifespanUnit =>
    Async.durations ceilQuotient lifespan lifespanUnit 0 .SECONDS
  | .inUnits lifespan lifespanUnit maxIdle maxIdleUnit =>
    Async.durations ceilQuotient lifespan lifespanUnit maxIdle maxIdleUnit

/-- The base calls of a synchronous call; `base_putAll` puts the entries one by one. -/
def sync : Request K V → Except Exn (List (BaseCall K V))
  | .get key => pure [.get key]
  | .put key val expiry => do
    let (life, idle) ← expiry.durations ceilQuotient
    pure [.put key val life idle]
  | .putIfAbsent key val expiry => do
    let (life, idle) ← expiry.durations ceilQuotient
    pure [.putIfAbsent key val life idle]
  | .putAll map expiry => do
    let (life, idle) ← expiry.durations ceilQuotient
    pure (map.map fun entry => .put entry.1 entry.2 life idle)
  | .replace key val expiry => do
    let (life, idle) ← expiry.durations ceilQuotient
    pure [.replace key val life idle]
  | .replaceOld .. | .replaceOldIn .. => throw .unsupported
  | .remove key => pure [.remove key]
  | .replaceWithVersion key val version lifespan maxIdle =>
    pure [.replaceWithVersion key val version.toInt64 lifespan.toInt64 maxIdle.toInt64]
  | .removeWithVersion key version => pure [.removeWithVersion key version.toInt64]

/-- A copy of a map has its entries at other addresses. -/
structure Copying (K V : Type) where
  copy : List (K × V) → List (K × V)
  perm : ∀ map, (copy map).Perm map

variable (copying : Copying K V)

/-- The base calls of the function that an asynchronous variant gives to `goAsync`. -/
def async : Request K V → Except Exn (List (BaseCall K V))
  | .get key => pure [.get key]
  | .put key val (.seconds lifespan maxIdle) =>
    pure [.put key val lifespan.toInt64 maxIdle.toInt64]
  | .put key val (.inUnit lifespan lifespanUnit) =>
    -- `lifespanUnit` stands where the maximal idle time is due
    pure [.put key val lifespan.toInt64 lifespanUnit.code.toUInt64.toInt64]
  | .put key val (.inUnits lifespan lifespanUnit maxIdle maxIdleUnit) => do
    let (life, idle) ← durations ceilQuotient lifespan lifespanUnit maxIdle maxIdleUnit
    pure [.put key val life idle]
  | .putIfAbsent key val (.seconds lifespan maxIdle) =>
    pure [.putIfAbsent key val lifespan.toInt64 maxIdle.toInt64]
  | .putIfAbsent key val (.inUnit lifespan lifespanUnit) => do
    let (life, idle) ← durations ceilQuotient lifespan lifespanUnit 0 .SECONDS
    pure [.putIfAbsent key val life idle]
  | .putIfAbsent key val (.inUnits lifespan lifespanUnit maxIdle maxIdleUnit) => do
    let (life, idle) ← durations ceilQuotient lifespan lifespanUnit maxIdle maxIdleUnit
    pure [.putIfAbsent key val life idle]
  | .putAll map (.seconds lifespan maxIdle) =>
    sync ceilQuotient (.putAll (copying.copy map) (.seconds lifespan maxIdle))
  | .putAll map (.inUnit lifespan lifespanUnit) =>
    sync ceilQuotient (.putAll (copying.copy map) (.inUnit lifespan lifespanUnit))
  | .putAll map (.inUnits lifespan lifespanUnit maxIdle maxIdleUnit) =>
    sync ceilQuotient (.putAll map (.inUnits lifespan lifespanUnit maxIdle maxIdleUnit))
  | .replace key val (.seconds lifespan maxIdle) =>
    sync ceilQuotient (.replace key val (.inUnits lifespan .SECONDS maxIdle .SECONDS))
  | .replace key val (.inUnit lifespan lifespanUnit) =>
    sync ceilQuotient (.replace key val (.inUnits lifespan lifespanUnit 0 .SECONDS))
  | .replace key val (.inUnits lifespan lifespanUnit maxIdle maxIdleUnit) =>
    sync ceilQuotient (.replace key val (.inUnits lifespan lifespanUnit maxIdle maxIdleUnit))
  | .replaceOld key oldVal val lifespan maxIdle =>
    sync ceilQuotient (.replaceOld key oldVal val lifespan maxIdle)
  | .replaceOldIn key oldVal val lifespan lifespanUnit =>
    sync ceilQuotient (.replaceOldIn key oldVal val lifespan lifespanUnit)
  | .remove key => sync ceilQuotient (.remove key)
  | .replaceWithVersion key val version lifespan maxIdle =>
    sync ceilQuotient (.replaceWithVersion key val version lifespan maxIdle)
  | .removeWithVersion key version => sync ceilQuotient (.removeWithVersion key version)

end Calls

/-! ### Both forms of a call -/

def quietly {W A : Type} (ended : Except Thrown A) : EStateM Thrown W A :=
  match ended with
  | .ok a => pure a
  | .error thrown => throw thrown

def body (asked : Except Exn (List (BaseCall K V))) (placed : Nat → Kind → Place) :
    EStateM Thrown (List (Attempt K V)) Unit :=
  match asked with
  | .ok calls => perform placed 0 calls
  | .error e => throw (.exn e)

/-- The task of a request, with the overload of `goAsync` that its function selects. -/
def task (request : Request K V) (f : EStateM Thrown (List (Attempt K V)) Unit)
    (success : Option (Except Thrown Unit)) (fail : Option (Exn → Except Thrown Unit)) :
    TaskM (List (Attempt K V)) Unit Unit :=
  if request.isVoid then goAsyncVoid f (success.map quietly) (fail.map fun fail e => quietly (fail e))
  else goAsync f (success.map fun ended _ => quietly ended) (fail.map fun fail e => quietly (fail e))

/-- The manager as the base calls of a task find it, with the calls of all threads
before each of them. -/
def Manager.later [DecidableEq T] (m : Manager T) (calls : Nat → List (ManagerCall T)) :
    Nat → Manager T
  | 0 => m.run (calls 0)
  | i + 1 => (m.later calls i).run (calls (i + 1))

/-- An asynchronous call: what happened before, who makes it, who runs it, what happens
until then and while it runs, and what becomes of the objects it was given. -/
structure Setting (K V T : Type) where
  transactional : Bool
  before : List (ManagerCall T)
  caller : T
  worker : T
  later : Nat → List (ManagerCall T)
  arguments : Arguments K V

namespace Setting

variable [DecidableEq T] (ceilQuotient : UInt64 → UInt64 → UInt64) (copying : Copying K V)
  (s : Setting K V T) (request : Request K V) (success : Option (Except Thrown Unit))
  (fail : Option (Exn → Except Thrown Unit))

def atCall : Manager T := Manager.initial.run s.before

def syncPlace (kind : Kind) : Place := place s.transactional s.atCall s.caller none kind

def syncAttempts : List (Attempt K V) :=
  final (body (sync ceilQuotient request) (fun _ => s.syncPlace) [])

def asyncPlace (i : Nat) (kind : Kind) : Place :=
  if request.captures then
    let (tx, m) := s.atCall.getCurrentTransaction s.caller
    place s.transactional (m.later s.later i) s.worker (some tx) kind
  else place s.transactional (s.atCall.later s.later i) s.worker none kind

def tasked : Except Exn (List (BaseCall K V)) :=
  match request.read s.arguments with
  | some found => async ceilQuotient copying found
  | none => pure []

def asyncAttempts : List (Attempt K V) :=
  (final (task request (body (s.tasked ceilQuotient copying request) (s.asyncPlace request)) success
    fail { world := [] })).world

-- Inside the transaction that is active on the calling thread, if one is.
def duePlace : Place :=
  if s.transactional then
    match s.atCall.active s.caller with
    | some tx => .inside tx
    | none => .direct
  else .direct

end Setting

/-- The task reads its arguments: its function is called, and the durations, which are
converted first, can be. -/
def Request.Reads (ceilQuotient : UInt64 → UInt64 → UInt64) (copying : Copying K V)
    (request : Request K V) (success : Option (Except Thrown Unit)) : Prop :=
  (request.isVoid → success = none) ∧ ∃ calls, async ceilQuotient copying request = .ok calls

/-- The asynchronous call does what the synchronous one would have done, and nothing that
is not defined. -/
structure Setting.DoesAsSync [DecidableEq T] (ceilQuotient : UInt64 → UInt64 → UInt64)
    (copying : Copying K V) (s : Setting K V T) (request : Request K V)
    (success : Option (Except Thrown Unit)) (fail : Option (Exn → Except Thrown Unit)) : Prop where
  alive : request.Reads ceilQuotient copying success → (request.read s.arguments).isSome
  calls : ((s.asyncAttempts ceilQuotient copying request success fail).map Attempt.call).Perm
    ((s.syncAttempts ceilQuotient request).map Attempt.call)
  places : ∀ a ∈ s.asyncAttempts ceilQuotient copying request success fail, a.place = s.duePlace

def size (ceilQuotient : UInt64 → UInt64 → UInt64) (request : Request K V) : Nat :=
  match sync ceilQuotient request with
  | .ok calls => calls.length
  | .error _ => 0

/-- The overload with one unit passes it for a duration. -/
def Request.Plumbed : Request K V → Prop
  | .put _ _ (.inUnit _ lifespanUnit) => lifespanUnit = .SECONDS
  | _ => True

def Setting.seen [DecidableEq T] (s : Setting K V T) (request : Request K V) (i : Nat) :
    Nat × TransactionStatus :=
  if request.captures then
    let (tx, m) := s.atCall.getCurrentTransaction s.caller
    (tx, (m.later s.later i).status tx)
  else
    let (tx, m) := (s.atCall.later s.later i).getCurrentTransaction s.worker
    (tx, m.status tx)

/-- That transaction is the one of the call, and still takes the base call; if there was
none, it has not been begun. -/
def Setting.Stands [DecidableEq T] (s : Setting K V T) (request : Request K V) (i : Nat) : Prop :=
  match s.atCall.active s.caller with
  | none => (s.seen request i).2 = .NO_TRANSACTION
  | some tx => (s.seen request i).1 = tx ∧ (s.seen request i).2 ≠ .NO_TRANSACTION ∧
      request.kind.accepted (s.seen request i).2

/-- The arguments arrive, as they were at the call, the function is called, and on a
transactional cache every base call finds the transaction of the asynchronous call. -/
structure Setting.Kept [DecidableEq T] (ceilQuotient : UInt64 → UInt64 → UInt64)
    (copying : Copying K V) (s : Setting K V T) (request : Request K V)
    (success : Option (Except Thrown Unit)) : Prop where
  plumbed : request.Plumbed
  unmoved : request.Reads ceilQuotient copying success →
    ∃ found, request.read s.arguments = some found ∧ found.Same request
  called : 0 < size ceilQuotient request → request.isVoid → success = none
  stands : s.transactional → ∀ i < size ceilQuotient request, s.Stands request i

/-! ### Base calls in turn -/

def attempts (placed : Nat → Place) : Nat → List (BaseCall K V) → List (Attempt K V)
  | _, [] => []
  | i, call :: rest =>
    ⟨call, placed i⟩ :: match placed i with
      | .refused _ => []
      | _ => attempts placed (i + 1) rest

theorem final_perform {placed : Nat → Kind → Place} {kind : Kind} {i : Nat}
    {calls : List (BaseCall K V)} (kinds : ∀ call ∈ calls, call.kind = kind)
    (log : List (Attempt K V)) :
    final (perform placed i calls log) = log ++ attempts (placed · kind) i calls := by
  induction calls generalizing i log with
  | nil => exact (List.append_nil log).symm
  | cons call rest ih =>
    have here : call.kind = kind := kinds call List.mem_cons_self
    have others : ∀ call ∈ rest, call.kind = kind := fun call member =>
      kinds call (List.mem_cons_of_mem _ member)
    rw [perform, bind_apply, modify_apply, attempts, here]
    cases there : placed i kind with
    | refused e => rfl
    | direct => exact (ih others _).trans (List.append_assoc _ _ _)
    | inside tx => exact (ih others _).trans (List.append_assoc _ _ _)

def Place.refuses : Place → Bool
  | .refused _ => true
  | _ => false

theorem attempts_cons_of_not_refuses {placed : Nat → Place} {i : Nat}
    (goes : (placed i).refuses = false) (call : BaseCall K V) (rest : List (BaseCall K V)) :
    attempts placed i (call :: rest) = ⟨call, placed i⟩ :: attempts placed (i + 1) rest := by
  rw [attempts]
  cases there : placed i with
  | refused e => rw [there] at goes; cases goes
  | direct => rfl
  | inside tx => rfl

theorem attempts_of_placed {placed : Nat → Place} {p : Place} (goes : p.refuses = false) {i : Nat}
    {calls : List (BaseCall K V)} (all : ∀ j < calls.length, placed (i + j) = p) :
    attempts placed i calls = calls.map fun call => ⟨call, p⟩ := by
  induction calls generalizing i with
  | nil => rfl
  | cons call rest ih =>
    have here : placed i = p := all 0 (Nat.zero_lt_succ _)
    rw [attempts_cons_of_not_refuses (by rw [here]; exact goes), here, List.map_cons, ih]
    intro j bound
    have there := all (j + 1) (Nat.succ_lt_succ bound)
    rwa [Nat.add_comm j 1, ← Nat.add_assoc] at there

theorem placed_of_attempts {placed : Nat → Place} {p : Place} (goes : p.refuses = false) {i : Nat}
    {calls : List (BaseCall K V)} (all : ∀ a ∈ attempts placed i calls, a.place = p) :
    ∀ j < calls.length, placed (i + j) = p := by
  induction calls generalizing i with
  | nil =>
    intro j bound
    cases bound
  | cons call rest ih =>
    have here : placed i = p := by
      rw [attempts] at all
      exact all _ List.mem_cons_self
    rw [attempts_cons_of_not_refuses (by rw [here]; exact goes)] at all
    have later := ih (fun a member => all a (List.mem_cons_of_mem _ member))
    intro j bound
    cases j with
    | zero => exact here
    | succ j =>
      have there := later j (Nat.lt_of_succ_lt_succ bound)
      rwa [Nat.add_assoc, Nat.add_comm 1 j] at there

/-! ### What a task leaves -/

section Worlds

variable {W : Type}

theorem final_quietly {A : Type} (ended : Except Thrown A) (w : W) :
    final (quietly ended w) = w := by
  cases ended <;> rfl

theorem world_handle (fail : Option (Exn → Except Thrown Unit)) (thrown : Thrown)
    (t : Tasked W Unit) :
    (final (handle (fail.map fun fail e => quietly (fail e)) thrown t)).world = t.world := by
  cases thrown with
  | foreign => rfl
  | exn e =>
    cases fail with
    | none => rfl
    | some fail => exact (world_invoke _ _ t).trans (final_quietly (fail e) t.world)

theorem world_tryCatch (block : TaskM W Unit Unit) (fail : Option (Exn → Except Thrown Unit))
    (t : Tasked W Unit) :
    (final (tryCatch block (handle (fail.map fun fail e => quietly (fail e))) t)).world =
      (final (block t)).world := by
  cases ended : block t with
  | ok a u => rw [tryCatch_of_ok ended]
  | error thrown u =>
    rw [tryCatch_of_error ended]
    exact world_handle fail thrown u

theorem world_goAsync (f : EStateM Thrown W Unit) (success : Option (Except Thrown Unit))
    (fail : Option (Exn → Except Thrown Unit)) (w : W) :
    (final (goAsync f (success.map fun ended _ => quietly ended)
      (fail.map fun fail e => quietly (fail e)) { world := w })).world = final (f w) := by
  have first := world_invoke .function f { world := w }
  cases success with
  | none => exact (world_tryCatch _ fail _).trans first
  | some ended =>
    refine (world_tryCatch _ fail _).trans ?_
    change (final ((invoke .function f >>= fun result =>
      invoke (.success result) (quietly ended)) { world := w })).world = _
    cases returned : invoke .function f { world := w } with
    | ok a u =>
      rw [returned] at first
      rw [bind_of_ok returned, world_invoke, final_quietly]
      exact first
    | error thrown u =>
      rw [returned] at first
      rw [bind_of_error returned]
      exact first

theorem world_goAsyncVoid (f : EStateM Thrown W Unit) (success : Option (Except Thrown Unit))
    (fail : Option (Exn → Except Thrown Unit)) (w : W) :
    (final (goAsyncVoid f (success.map quietly) (fail.map fun fail e => quietly (fail e))
      { world := w })).world = if success.isSome then w else final (f w) := by
  cases success with
  | none => exact (world_tryCatch _ fail _).trans (world_invoke .function f { world := w })
  | some ended =>
    exact (world_tryCatch _ fail _).trans
      ((world_invoke (.success ()) (quietly ended) { world := w }).trans (final_quietly ended w))

end Worlds

def asked : Except Exn (List (BaseCall K V)) → List (BaseCall K V)
  | .ok calls => calls
  | .error _ => []

theorem final_body {calls : Except Exn (List (BaseCall K V))} {kind : Kind}
    (kinds : ∀ call ∈ asked calls, call.kind = kind) (placed : Nat → Kind → Place) :
    final (body calls placed []) = attempts (placed · kind) 0 (asked calls) := by
  cases calls with
  | error e => rfl
  | ok calls => exact final_perform kinds []

theorem final_task (request : Request K V) (f : EStateM Thrown (List (Attempt K V)) Unit)
    (success : Option (Except Thrown Unit)) (fail : Option (Exn → Except Thrown Unit)) :
    (final (task request f success fail { world := [] })).world =
      if request.isVoid ∧ success.isSome then [] else final (f []) := by
  unfold task
  by_cases void : request.isVoid
  · rw [if_pos void, world_goAsyncVoid]
    simp only [void, true_and]
  · rw [if_neg void, world_goAsync, if_neg (fun both => void both.1)]

/-! ### Places -/

theorem placeIn_idle (kind : Kind) (tx : Nat) : placeIn kind tx .NO_TRANSACTION = .direct :=
  if_neg (not_not_intro rfl)

theorem placeIn_active (kind : Kind) (tx : Nat) : placeIn kind tx .ACTIVE = .inside tx := by
  cases kind <;> rfl

theorem placeIn_eq_direct {kind : Kind} {tx : Nat} {status : TransactionStatus} :
    placeIn kind tx status = .direct ↔ status = .NO_TRANSACTION := by
  unfold placeIn
  split
  · next busy =>
    refine iff_of_false ?_ busy
    split <;> exact Place.noConfusion
  · next idle => exact iff_of_true rfl (not_not.mp idle)

theorem placeIn_eq_inside {kind : Kind} {tx u : Nat} {status : TransactionStatus} :
    placeIn kind tx status = .inside u ↔
      tx = u ∧ status ≠ .NO_TRANSACTION ∧ kind.accepted status := by
  unfold placeIn
  split
  · next busy =>
    split
    · next takes =>
      rw [Place.inside.injEq]
      exact (and_iff_left ⟨busy, takes⟩).symm
    · next refuses => exact iff_of_false Place.noConfusion (fun all => refuses all.2.2)
  · next idle => exact iff_of_false Place.noConfusion (fun all => idle all.2.1)

namespace Setting

section Places

variable [DecidableEq T] (s : Setting K V T)

theorem duePlace_not_refuses : s.duePlace.refuses = false := by
  unfold duePlace
  split
  · split <;> rfl
  · rfl

theorem syncPlace_eq (kind : Kind) : s.syncPlace kind = s.duePlace := by
  have sound : s.atCall.Sound := Manager.sound_initial.run s.before
  unfold syncPlace duePlace place
  split
  · obtain ⟨idle, status⟩ | ⟨busy, status⟩ := Manager.status_getCurrentTransaction sound s.caller
    · rw [idle]
      exact (congrArg _ status).trans (placeIn_idle _ _)
    · rw [busy]
      exact (congrArg _ status).trans (placeIn_active _ _)
  · rfl

theorem asyncPlace_eq (request : Request K V) (i : Nat) (kind : Kind) :
    s.asyncPlace request i kind =
      if s.transactional then placeIn kind (s.seen request i).1 (s.seen request i).2
      else .direct := by
  unfold asyncPlace seen place
  split <;> rfl

-- A base call of the task is placed as one of the moment of the call was due.
theorem asyncPlace_eq_duePlace (request : Request K V) (i : Nat) :
    s.asyncPlace request i request.kind = s.duePlace ↔ (s.transactional → s.Stands request i) := by
  rw [asyncPlace_eq, duePlace, Stands]
  by_cases transactional : s.transactional
  · rw [if_pos transactional, if_pos transactional]
    cases s.atCall.active s.caller with
    | none => exact placeIn_eq_direct.trans ⟨fun idle _ => idle, fun idle => idle transactional⟩
    | some tx =>
      exact placeIn_eq_inside.trans ⟨fun stands _ => stands, fun stands => stands transactional⟩
  · rw [if_neg transactional, if_neg transactional]
    exact iff_of_true rfl (fun given => absurd given transactional)

end Places

end Setting

/-! ### Arguments -/

section Arguments

variable (ceilQuotient : UInt64 → UInt64 → UInt64) (copying : Copying K V)

theorem asked_putAll (map : List (K × V)) (expiry : Expiry) :
    asked (sync ceilQuotient (.putAll map expiry)) =
      map.flatMap fun entry => asked (sync ceilQuotient (.put entry.1 entry.2 expiry)) := by
  change asked (expiry.durations ceilQuotient >>= fun ends =>
    pure (map.map fun entry => BaseCall.put entry.1 entry.2 ends.1 ends.2)) =
      map.flatMap fun entry => asked (expiry.durations ceilQuotient >>= fun ends =>
        pure [BaseCall.put entry.1 entry.2 ends.1 ends.2])
  cases expiry.durations ceilQuotient with
  | error e => exact (List.flatMap_eq_nil_iff.mpr fun _ _ => rfl).symm
  | ok ends => exact List.map_eq_flatMap

theorem asked_async_perm {request : Request K V} (plumbed : request.Plumbed) :
    (asked (async ceilQuotient copying request)).Perm (asked (sync ceilQuotient request)) := by
  cases request with
  | put key val expiry =>
    cases expiry with
    | seconds lifespan maxIdle => exact .refl _
    | inUnits lifespan lifespanUnit maxIdle maxIdleUnit => exact .refl _
    | inUnit lifespan lifespanUnit =>
      have unit : lifespanUnit = .SECONDS := plumbed
      rw [unit]
      exact .refl _
  | putIfAbsent key val expiry => cases expiry <;> exact .refl _
  | putAll map expiry =>
    have copied := copying.perm map
    cases expiry with
    | seconds lifespan maxIdle =>
      rw [async, asked_putAll, asked_putAll]
      exact copied.flatMap_right _
    | inUnit lifespan lifespanUnit =>
      rw [async, asked_putAll, asked_putAll]
      exact copied.flatMap_right _
    | inUnits lifespan lifespanUnit maxIdle maxIdleUnit => exact .refl _
  | replace key val expiry => cases expiry <;> exact .refl _
  | get | remove | replaceOld | replaceOldIn | replaceWithVersion | removeWithVersion =>
    exact .refl _

theorem mem_asked_bind {A : Type} {x : Except Exn A} {g : A → List (BaseCall K V)}
    {call : BaseCall K V} (member : call ∈ asked (x >>= fun a => pure (g a))) :
    ∃ a, call ∈ g a := by
  cases x with
  | error e => cases member
  | ok a => exact ⟨a, member⟩

theorem kind_of_sync (request : Request K V) :
    ∀ call ∈ asked (sync ceilQuotient request), call.kind = request.kind := by
  intro call member
  cases request with
  | get | remove | replaceWithVersion | removeWithVersion =>
    rw [List.mem_singleton.mp member]
    rfl
  | replaceOld | replaceOldIn => cases member
  | put | putIfAbsent | replace =>
    obtain ⟨ends, member⟩ := mem_asked_bind member
    rw [List.mem_singleton.mp member]
    rfl
  | putAll map expiry =>
    obtain ⟨ends, member⟩ := mem_asked_bind member
    obtain ⟨entry, -, same⟩ := List.mem_map.mp member
    rw [← same]
    rfl

theorem kind_of_async (request : Request K V) :
    ∀ call ∈ asked (async ceilQuotient copying request), call.kind = request.kind := by
  intro call member
  by_cases plumbed : request.Plumbed
  · exact kind_of_sync ceilQuotient request call
      ((asked_async_perm ceilQuotient copying plumbed).subset member)
  · cases request with
    | put key val expiry =>
      cases expiry with
      | inUnit lifespan lifespanUnit =>
        rw [List.mem_singleton.mp member]
        rfl
      | seconds | inUnits => exact absurd trivial plumbed
    | get | putIfAbsent | putAll | replace | replaceOld | replaceOldIn | remove
    | replaceWithVersion | removeWithVersion => exact absurd trivial plumbed

theorem asked_inUnit (key found : K) (val read : V) (lifespan : UInt64) {lifespanUnit : TimeUnit}
    (other : lifespanUnit ≠ .SECONDS) :
    BaseCall.put found read lifespan.toInt64 lifespanUnit.code.toUInt64.toInt64 ∉
      asked (sync ceilQuotient (.put key val (.inUnit lifespan lifespanUnit))) := by
  intro member
  cases converted : toSeconds ceilQuotient lifespan lifespanUnit with
  | error e =>
    have asks : asked (sync ceilQuotient (.put key val (.inUnit lifespan lifespanUnit))) = [] := by
      rw [sync, Expiry.durations, durations, converted]
      rfl
    rw [asks] at member
    cases member
  | ok life =>
    have asks : asked (sync ceilQuotient (.put key val (.inUnit lifespan lifespanUnit))) =
        [.put key val life.toInt64 (0 : UInt64).toInt64] := by
      rw [sync, Expiry.durations, durations, converted]
      rfl
    rw [asks, List.mem_singleton] at member
    have idle : lifespanUnit.code.toUInt64.toInt64 = (0 : UInt64).toInt64 := by
      injection member
    cases lifespanUnit with
    | SECONDS => exact other rfl
    | MILLISECONDS | NANOSECONDS | MICROSECONDS | MINUTES | HOURS | DAYS | DEFAULT | INFINITUM =>
      exact absurd idle (by decide)

theorem size_eq (request : Request K V) :
    size ceilQuotient request = (asked (sync ceilQuotient request)).length := by
  unfold size
  cases sync ceilQuotient request <;> rfl

end Arguments

/-! ### Arguments that are read later -/

section Reading

variable {ceilQuotient : UInt64 → UInt64 → UInt64} {copying : Copying K V}
  {arguments : Arguments K V} {request found : Request K V}

structure Request.Alike (found request : Request K V) : Prop where
  -- Only what is kept as a pointer can be another one.
  kind : found.kind = request.kind
  plumbed : found.Plumbed ↔ request.Plumbed

theorem Request.alike_of_read (read : request.read arguments = some found) :
    found.Alike request := by
  cases request with
  | get key =>
    obtain ⟨k, -, rfl⟩ := Option.map_eq_some_iff.mp read
    exact ⟨rfl, .rfl⟩
  | put key val expiry =>
    obtain ⟨e, -, rfl⟩ := Option.map_eq_some_iff.mp read
    exact ⟨rfl, by cases expiry <;> exact .rfl⟩
  | putIfAbsent key val expiry =>
    obtain ⟨e, -, rfl⟩ := Option.map_eq_some_iff.mp read
    exact ⟨rfl, .rfl⟩
  | replace key val expiry =>
    obtain ⟨e, -, rfl⟩ := Option.map_eq_some_iff.mp read
    exact ⟨rfl, .rfl⟩
  | putAll map expiry =>
    cases expiry with
    | inUnits lifespan lifespanUnit maxIdle maxIdleUnit =>
      obtain ⟨m, -, rfl⟩ := Option.map_eq_some_iff.mp read
      exact ⟨rfl, .rfl⟩
    | seconds | inUnit =>
      cases read
      exact ⟨rfl, .rfl⟩
  | replaceOld | replaceOldIn | remove | replaceWithVersion | removeWithVersion =>
    cases read
    exact ⟨rfl, .rfl⟩

theorem asked_of_error {A : Type} {x : Except Exn A} {g : A → List (BaseCall K V)}
    (failed : ¬ ∃ calls, (x >>= fun a => pure (g a)) = .ok calls) (h : A → List (BaseCall K V)) :
    asked (x >>= fun a => pure (h a)) = [] := by
  cases x with
  | error e => rfl
  | ok a => exact absurd ⟨g a, rfl⟩ failed

theorem asked_of_not_converted (read : request.read arguments = some found)
    (failed : ¬ ∃ calls, async ceilQuotient copying request = .ok calls) :
    asked (async ceilQuotient copying found) = [] := by
  cases request with
  | get key => exact absurd ⟨_, rfl⟩ failed
  | put key val expiry =>
    obtain ⟨e, -, rfl⟩ := Option.map_eq_some_iff.mp read
    cases expiry with
    | seconds | inUnit => exact absurd ⟨_, rfl⟩ failed
    | inUnits => exact asked_of_error failed _
  | putIfAbsent key val expiry =>
    obtain ⟨e, -, rfl⟩ := Option.map_eq_some_iff.mp read
    cases expiry with
    | seconds => exact absurd ⟨_, rfl⟩ failed
    | inUnit | inUnits => exact asked_of_error failed _
  | replace key val expiry =>
    obtain ⟨e, -, rfl⟩ := Option.map_eq_some_iff.mp read
    cases expiry <;> exact asked_of_error failed _
  | putAll map expiry =>
    cases expiry with
    | inUnits lifespan lifespanUnit maxIdle maxIdleUnit =>
      obtain ⟨m, -, rfl⟩ := Option.map_eq_some_iff.mp read
      exact asked_of_error failed _
    | seconds | inUnit =>
      cases read
      exact asked_of_error failed _
  | replaceOld | replaceOldIn =>
    cases read
    rfl
  | remove | replaceWithVersion | removeWithVersion => exact absurd ⟨_, rfl⟩ failed

theorem asked_perm_of_same (same : found.Same request) :
    (asked (sync ceilQuotient found)).Perm (asked (sync ceilQuotient request)) := by
  cases request with
  | putAll map expiry =>
    cases found with
    | putAll map' expiry' =>
      obtain ⟨perm, rfl⟩ := same
      rw [asked_putAll, asked_putAll]
      exact perm.flatMap_right _
    | get | put | putIfAbsent | replace | replaceOld | replaceOldIn | remove
    | replaceWithVersion | removeWithVersion => cases same
  | get | put | putIfAbsent | replace | replaceOld | replaceOldIn | remove
  | replaceWithVersion | removeWithVersion =>
    cases found <;> simp_all [Request.Same]

theorem durations_of_async {expiry : Expiry} {g : Int64 × Int64 → List (BaseCall K V)}
    {asynchronous : Except Exn (List (BaseCall K V))}
    (units : ∀ lifespan lifespanUnit maxIdle maxIdleUnit,
      expiry = .inUnits lifespan lifespanUnit maxIdle maxIdleUnit →
      asynchronous = (expiry.durations ceilQuotient >>= fun ends => pure (g ends)))
    (unit : ∀ lifespan lifespanUnit, expiry = .inUnit lifespan lifespanUnit →
      lifespanUnit = .SECONDS ∨
        asynchronous = (expiry.durations ceilQuotient >>= fun ends => pure (g ends)))
    (converted : ∃ calls, asynchronous = .ok calls) :
    ∃ ends, expiry.durations ceilQuotient = .ok ends := by
  obtain ⟨calls, converted⟩ := converted
  have returned : ∀ {x : Except Exn (Int64 × Int64)},
      (x >>= fun ends => pure (g ends)) = .ok calls → ∃ ends, x = .ok ends := by
    intro x ok
    cases x with
    | error e => cases ok
    | ok ends => exact ⟨ends, rfl⟩
  cases expiry with
  | seconds lifespan maxIdle => exact ⟨_, rfl⟩
  | inUnit lifespan lifespanUnit =>
    obtain rfl | same := unit lifespan lifespanUnit rfl
    · exact ⟨_, rfl⟩
    · exact returned (same.symm.trans converted)
  | inUnits lifespan lifespanUnit maxIdle maxIdleUnit =>
    exact returned ((units _ _ _ _ rfl).symm.trans converted)

theorem same_of_asked_perm (read : request.read arguments = some found)
    (plumbed : request.Plumbed)
    (converted : ∃ calls, async ceilQuotient copying request = .ok calls)
    (perm : (asked (sync ceilQuotient found)).Perm (asked (sync ceilQuotient request))) :
    found.Same request := by
  cases request with
  | get key =>
    obtain ⟨k, -, rfl⟩ := Option.map_eq_some_iff.mp read
    cases List.singleton_perm_singleton.mp perm
    rfl
  | put key val expiry =>
    obtain ⟨e, -, rfl⟩ := Option.map_eq_some_iff.mp read
    obtain ⟨ends, there⟩ : ∃ ends, expiry.durations ceilQuotient = .ok ends :=
      durations_of_async (g := fun ends => [.put key val ends.1 ends.2])
        (fun _ _ _ _ units => by subst units; rfl) (fun _ _ unit => by subst unit; exact .inl plumbed)
        converted
    simp only [sync, there] at perm
    cases List.singleton_perm_singleton.mp perm
    rfl
  | putIfAbsent key val expiry =>
    obtain ⟨e, -, rfl⟩ := Option.map_eq_some_iff.mp read
    obtain ⟨ends, there⟩ : ∃ ends, expiry.durations ceilQuotient = .ok ends :=
      durations_of_async (g := fun ends => [.putIfAbsent key val ends.1 ends.2])
        (fun _ _ _ _ units => by subst units; rfl) (fun _ _ unit => by subst unit; exact .inr rfl)
        converted
    simp only [sync, there] at perm
    cases List.singleton_perm_singleton.mp perm
    rfl
  | replace key val expiry =>
    obtain ⟨e, -, rfl⟩ := Option.map_eq_some_iff.mp read
    obtain ⟨ends, there⟩ : ∃ ends, expiry.durations ceilQuotient = .ok ends :=
      durations_of_async (g := fun ends => [.replace key val ends.1 ends.2])
        (fun _ _ _ _ units => by subst units; rfl) (fun _ _ unit => by subst unit; exact .inr rfl)
        converted
    simp only [sync, there] at perm
    cases List.singleton_perm_singleton.mp perm
    rfl
  | putAll map expiry =>
    cases expiry with
    | inUnits lifespan lifespanUnit maxIdle maxIdleUnit =>
      obtain ⟨m, -, rfl⟩ := Option.map_eq_some_iff.mp read
      obtain ⟨ends, there⟩ : ∃ ends, (Expiry.inUnits lifespan lifespanUnit maxIdle
          maxIdleUnit).durations ceilQuotient = .ok ends :=
        durations_of_async (g := fun ends => map.map fun entry => .put entry.1 entry.2 ends.1 ends.2)
          (fun _ _ _ _ _ => rfl) (fun _ _ unit => by cases unit) converted
      have injective : Function.Injective fun entry : K × V =>
          BaseCall.put entry.1 entry.2 ends.1 ends.2 := by
        intro a b equal
        injection equal with key val
        exact Prod.ext key val
      simp only [sync, there] at perm
      exact ⟨(List.map_perm_map_iff injective).mp perm, rfl⟩
    | seconds | inUnit =>
      cases read
      exact ⟨.refl _, rfl⟩
  | replaceOld | replaceOldIn | remove | replaceWithVersion | removeWithVersion =>
    cases read
    rfl

end Reading

namespace Setting

section Both

variable [DecidableEq T] {ceilQuotient : UInt64 → UInt64 → UInt64} {copying : Copying K V}
  {s : Setting K V T} {request : Request K V} {success : Option (Except Thrown Unit)}
  {fail : Option (Exn → Except Thrown Unit)}

theorem syncAttempts_eq (ceilQuotient : UInt64 → UInt64 → UInt64) (s : Setting K V T)
    (request : Request K V) :
    s.syncAttempts ceilQuotient request =
      (asked (sync ceilQuotient request)).map fun call => ⟨call, s.duePlace⟩ := by
  rw [syncAttempts, final_body (kind_of_sync ceilQuotient request)]
  exact attempts_of_placed s.duePlace_not_refuses (fun j _ => s.syncPlace_eq request.kind)

omit [DecidableEq T] in
theorem map_call_placed (calls : List (BaseCall K V)) (p : Place) :
    (calls.map fun call => (⟨call, p⟩ : Attempt K V)).map Attempt.call = calls := by
  rw [List.map_map]
  exact List.map_id _

theorem map_call_syncAttempts (ceilQuotient : UInt64 → UInt64 → UInt64) (s : Setting K V T)
    (request : Request K V) :
    (s.syncAttempts ceilQuotient request).map Attempt.call =
      asked (sync ceilQuotient request) := by
  rw [syncAttempts_eq, map_call_placed]

omit [DecidableEq T] in
theorem kind_of_tasked (ceilQuotient : UInt64 → UInt64 → UInt64) (copying : Copying K V)
    (s : Setting K V T) (request : Request K V) :
    ∀ call ∈ asked (s.tasked ceilQuotient copying request), call.kind = request.kind := by
  unfold tasked
  cases read : request.read s.arguments with
  | none =>
    intro call member
    cases member
  | some found =>
    rw [← (Request.alike_of_read read).kind]
    exact kind_of_async ceilQuotient copying found

theorem asyncAttempts_eq (ceilQuotient : UInt64 → UInt64 → UInt64) (copying : Copying K V)
    (s : Setting K V T) (request : Request K V) (success : Option (Except Thrown Unit))
    (fail : Option (Exn → Except Thrown Unit)) :
    s.asyncAttempts ceilQuotient copying request success fail =
      if request.isVoid ∧ success.isSome then []
      else attempts (s.asyncPlace request · request.kind) 0
        (asked (s.tasked ceilQuotient copying request)) := by
  rw [asyncAttempts, final_task, final_body (s.kind_of_tasked ceilQuotient copying request)]

-- A function that is called makes all of its base calls where they are due.
theorem DoesAsSync.placed (does : s.DoesAsSync ceilQuotient copying request success fail)
    (called : request.isVoid → success = none) :
    (asked (s.tasked ceilQuotient copying request)).Perm (asked (sync ceilQuotient request)) ∧
      ∀ j < (asked (s.tasked ceilQuotient copying request)).length,
        s.asyncPlace request j request.kind = s.duePlace := by
  have runs : ¬ (request.isVoid ∧ success.isSome) := by
    rintro ⟨void, given⟩
    rw [called void] at given
    cases given
  have calls := does.calls
  have places := does.places
  rw [asyncAttempts_eq, if_neg runs] at calls places
  have there := placed_of_attempts s.duePlace_not_refuses places
  rw [attempts_of_placed s.duePlace_not_refuses there, map_call_syncAttempts,
    map_call_placed] at calls
  refine ⟨calls, fun j bound => ?_⟩
  have here := there j bound
  rwa [Nat.zero_add] at here

theorem DoesAsSync.plumbed (does : s.DoesAsSync ceilQuotient copying request success fail) :
    request.Plumbed := by
  by_contra unplumbed
  cases request with
  | put key val expiry =>
    cases expiry with
    | seconds | inUnits => exact unplumbed trivial
    | inUnit lifespan lifespanUnit =>
      have reads : Request.Reads ceilQuotient copying (.put key val (.inUnit lifespan lifespanUnit))
          success := ⟨Bool.noConfusion, _, rfl⟩
      obtain ⟨found, read⟩ := Option.isSome_iff_exists.mp (does.alive reads)
      have perm := (does.placed reads.1).1
      rw [tasked, read] at perm
      obtain ⟨e, -, rfl⟩ := Option.map_eq_some_iff.mp read
      exact asked_inUnit ceilQuotient key e.1 val e.2 lifespan unplumbed
        (perm.subset (List.mem_singleton_self _))
  | get | putIfAbsent | putAll | replace | replaceOld | replaceOldIn | remove
  | replaceWithVersion | removeWithVersion => exact unplumbed trivial

theorem DoesAsSync.called (does : s.DoesAsSync ceilQuotient copying request success fail)
    (some : 0 < size ceilQuotient request) (void : request.isVoid) : success = none := by
  have length := does.calls.length_eq
  rw [map_call_syncAttempts, List.length_map, ← size_eq] at length
  by_contra given
  rw [asyncAttempts_eq, if_pos ⟨void, Option.isSome_iff_ne_none.mpr given⟩] at length
  exact absurd some (by rw [← length]; exact Nat.lt_irrefl 0)

theorem DoesAsSync.unmoved (does : s.DoesAsSync ceilQuotient copying request success fail)
    (reads : request.Reads ceilQuotient copying success) :
    ∃ found, request.read s.arguments = some found ∧ found.Same request := by
  obtain ⟨found, read⟩ := Option.isSome_iff_exists.mp (does.alive reads)
  have plumbed := does.plumbed
  have perm := (does.placed reads.1).1
  rw [tasked, read] at perm
  have asks := asked_async_perm ceilQuotient copying ((Request.alike_of_read read).plumbed.mpr plumbed)
  exact ⟨found, read, same_of_asked_perm read plumbed reads.2 (asks.symm.trans perm)⟩

theorem DoesAsSync.stands (does : s.DoesAsSync ceilQuotient copying request success fail)
    (transactional : s.transactional) (i : Nat) (bound : i < size ceilQuotient request) :
    s.Stands request i := by
  obtain ⟨perm, placed⟩ := does.placed (does.called (Nat.zero_lt_of_lt bound))
  rw [size_eq, ← perm.length_eq] at bound
  exact (s.asyncPlace_eq_duePlace request i).mp (placed i bound) transactional

theorem Kept.tasked_perm (kept : s.Kept ceilQuotient copying request success)
    (called : request.isVoid → success = none) :
    (asked (s.tasked ceilQuotient copying request)).Perm (asked (sync ceilQuotient request)) := by
  by_cases converted : ∃ calls, async ceilQuotient copying request = .ok calls
  · obtain ⟨found, read, same⟩ := kept.unmoved ⟨called, converted⟩
    have plumbed := (Request.alike_of_read read).plumbed.mpr kept.plumbed
    rw [tasked, read]
    exact (asked_async_perm ceilQuotient copying plumbed).trans (asked_perm_of_same same)
  · have nothing : asked (async ceilQuotient copying request) = [] := by
      cases asks : async ceilQuotient copying request with
      | error e => rfl
      | ok calls => exact absurd ⟨calls, asks⟩ converted
    have due := asked_async_perm ceilQuotient copying kept.plumbed
    rw [nothing] at due
    rw [← due.nil_eq, tasked]
    cases read : request.read s.arguments with
    | none => exact .refl _
    | some found => exact .of_eq (asked_of_not_converted read converted)

theorem Kept.attempts_perm (kept : s.Kept ceilQuotient copying request success) :
    ∃ calls : List (BaseCall K V), calls.Perm (asked (sync ceilQuotient request)) ∧
      s.asyncAttempts ceilQuotient copying request success fail =
        calls.map fun call => ⟨call, s.duePlace⟩ := by
  rw [asyncAttempts_eq]
  by_cases skipped : request.isVoid ∧ success.isSome
  · -- the function is not called, which is right where it would call nothing
    have none : size ceilQuotient request = 0 := by
      by_contra some
      have absent := kept.called (Nat.pos_of_ne_zero some) skipped.1
      exact Option.isSome_iff_ne_none.mp skipped.2 absent
    rw [size_eq, List.length_eq_zero_iff] at none
    exact ⟨[], none ▸ .refl _, if_pos skipped⟩
  · have called : request.isVoid → success = .none := fun void =>
      Option.not_isSome_iff_eq_none.mp fun given => skipped ⟨void, given⟩
    have perm := kept.tasked_perm called
    refine ⟨_, perm, ?_⟩
    rw [if_neg skipped]
    refine attempts_of_placed s.duePlace_not_refuses fun j bound => ?_
    rw [Nat.zero_add]
    rw [perm.length_eq, ← size_eq] at bound
    exact (s.asyncPlace_eq_duePlace request j).mpr fun transactional =>
      kept.stands transactional j bound

/-- The asynchronous variant of a call does what the call does exactly where its arguments
are passed on and still hold what they held, its function is called, and its base calls
find the transaction of the moment of the call. -/
theorem doesAsSync_iff (ceilQuotient : UInt64 → UInt64 → UInt64) (copying : Copying K V)
    (s : Setting K V T) (request : Request K V) (success : Option (Except Thrown Unit))
    (fail : Option (Exn → Except Thrown Unit)) :
    s.DoesAsSync ceilQuotient copying request success fail ↔
      s.Kept ceilQuotient copying request success := by
  constructor
  · intro does
    exact ⟨does.plumbed, does.unmoved, does.called, does.stands⟩
  · intro kept
    obtain ⟨calls, perm, all⟩ : ∃ calls : List (BaseCall K V),
        calls.Perm (asked (sync ceilQuotient request)) ∧
          s.asyncAttempts ceilQuotient copying request success fail =
            calls.map fun call => ⟨call, s.duePlace⟩ := kept.attempts_perm
    constructor
    · intro reads
      obtain ⟨found, read, -⟩ := kept.unmoved reads
      rw [read]
      rfl
    · rw [all, map_call_syncAttempts, map_call_placed]
      exact perm
    · rw [all]
      intro a member
      obtain ⟨call, -, made⟩ := List.mem_map.mp member
      rw [← made]

theorem owned_later {m : Manager T} {owner : T} {tx : Nat} (owned : m.Owned owner tx)
    (calls : Nat → List (ManagerCall T)) (i : Nat) : (m.later calls i).Owned owner tx := by
  induction i with
  | zero => exact owned.run _
  | succ i ih => exact ih.run _

-- On another thread the variants that call the synchronous function stay out of the transaction of
-- the caller.
theorem not_stands_of_other_thread (s : Setting K V T) {request : Request K V}
    (uncaptured : request.captures = false) {tx : Nat}
    (active : s.atCall.active s.caller = some tx) (other : s.worker ≠ s.caller) (i : Nat) :
    ¬ s.Stands request i := by
  have sound : s.atCall.Sound := Manager.sound_initial.run s.before
  have held : s.atCall.currentTransactions s.caller = some tx :=
    (Option.filter_eq_some_iff.mp active).1
  have apart := (owned_later (sound.owned held) s.later i).other other
  intro stands
  rw [Stands, active, seen, uncaptured] at stands
  exact apart stands.1

end Both

end Setting

/-- A put of one minute is one of a second that may be idle for four. A put of 2 is one of 3,
if the caller's value has become 3 when the task reads it. -/
theorem not_doesAsSync_of_minutes :
    (¬ Setting.DoesAsSync (fun time _ => time) ⟨id, fun _ => .refl _⟩
      (⟨false, [], 0, 1, fun _ => [], ⟨some "key", some 2, none⟩⟩ : Setting String Nat Nat)
      (.put "key" 2 (.inUnit 1 .MINUTES)) none none) ∧
    ¬ Setting.DoesAsSync (fun time _ => time) ⟨id, fun _ => .refl _⟩
      (⟨false, [], 0, 1, fun _ => [], ⟨some "key", some 3, none⟩⟩ : Setting String Nat Nat)
      (.put "key" 2 (.seconds 0 0)) none none := by
  constructor
  · intro does
    have plumbed : TimeUnit.MINUTES = TimeUnit.SECONDS := does.plumbed
    exact absurd plumbed (by decide)
  · intro does
    obtain ⟨found, read, same⟩ := does.unmoved ⟨Bool.noConfusion, _, rfl⟩
    cases read
    cases same

end HotRod.Async
