import HotRod.Events.Decoders
import HotRod.Operations.BulkReads
import HotRod.Query.Projections
import HotRod.Semantics.Machines
import Mathlib.Data.List.ReduceOption
import Mathlib.Data.Option.Basic

/-! Continuous queries.

A server tells the listener of every entry that comes into the result of a query, changes in
it or leaves it. The calls of the listener add up to the result, for as long as the client can
make them: what it does with an event begins with reading a projection or a value, and of an
entry that leaves there is neither.

The events come before the read time-out of the connection, which would end the thread too.
What is said here to end the thread may end the process: reading past the last component of
an empty `RepeatedPtrField` dereferences a null pointer. -/

set_option autoImplicit false

namespace HotRod.Query

open Semantics.Execution
open Semantics.Machines (Machine answers Throughout)
open Events (Thrown Invocation Dispatching EventDispatcher turns Facing)
open Operations (ServerEvent ClientEvent)
open Operations.BulkReads (Marshaller unmarked)
open Protocol
open WireFormat (Bytes)

variable {D K V P E R : Type}

/-! ### The listener -/

inductive ResultType where
  | leaving | joining | updated
  deriving DecidableEq, Repr

structure ContinuousQueryResult (D : Type) where
  -- A missing value reads as no bytes.
  resultType : ResultType
  key : List UInt8
  value : List UInt8 := []
  projection : List (WrappedMessage D) := []

/-- The functions of the user, which are known by what they raise, or are not set. -/
structure ContinuousQueryListener (K P : Type) where
  joiningListener : Option (K → P → Option Thrown) := none
  leavingListener : Option (K → P → Option Thrown) := none
  updatedListener : Option (K → P → Option Thrown) := none

def ContinuousQueryListener.listener (cql : ContinuousQueryListener K P) :
    ResultType → Option (K → P → Option Thrown)
  | .joining => cql.joiningListener
  | .leaving => cql.leavingListener
  | .updated => cql.updatedListener

-- A null pointer is dereferenced to no good.
def deref {T : Type} : Except Exn (Option T) → Except Thrown T
  | .ok (some x) => .ok x
  | .ok none => .error .foreign
  | .error e => .error (.exn e)

section Lambdas

variable (parse : List UInt8 → ContinuousQueryResult D)
  (baseKeyUnmarshall : List UInt8 → Except Exn (Option K))
  (baseValueUnmarshall : List UInt8 → Except Exn (Option V))

/-- What a listener of projections is called with. The text that is thrown is no exception of
the library, and past the last component there is nothing to go on with. -/
def decodeProjection (params : List Column) (data : List UInt8) :
    Except Thrown (ResultType × K × Tuple D params) :=
  let r := parse data
  match popTuple (fun _ s => s) r.projection params 0 with
  | .error _ => .error .foreign
  | .ok (tp, _) =>
    match deref (baseKeyUnmarshall r.key) with
    | .error thrown => .error thrown
    | .ok k => .ok (r.resultType, k, tp)

def decodeEntry (data : List UInt8) : Except Thrown (ResultType × K × V) :=
  let r := parse data
  match deref (baseKeyUnmarshall r.key) with
  | .error thrown => .error thrown
  | .ok k =>
    match deref (baseValueUnmarshall r.value) with
    | .error thrown => .error thrown
    | .ok v => .ok (r.resultType, k, v)

end Lambdas

def listenerCustomEvent (cql : ContinuousQueryListener K P)
    (decode : List UInt8 → Except Thrown (ResultType × K × P)) (data : List UInt8) :
    Option Thrown :=
  match decode data with
  | .error thrown => some thrown
  | .ok (resultType, k, p) =>
    match cql.listener resultType with
    | some f => f k p
    | none => some (.exn (.std "bad_function_call"))

-- The listener that `cl` is: its only callback is for custom events.
def processEvent (baseKeyUnmarshall : List UInt8 → Except Exn (Option K))
    (customCallback : List UInt8 → Option Thrown) (log : List Invocation) : Option Thrown :=
  match log.getLast? with
  | some (.event (.custom data _) _ _) => customCallback data
  | some (.event (.created key _ _) _ _) | some (.event (.modified key _ _) _ _)
  | some (.event (.removed key _) _ _) | some (.expired key _ _) =>
    match deref (baseKeyUnmarshall key) with
    | .ok _ => none
    | .error thrown => some thrown
  | none => none

/-! ### What the calls add up to -/

section View

variable [DecidableEq K]

-- An entry that joins or is updated is kept under its key until it leaves.
def follow (view : K → Option P) : ResultType × K × P → K → Option P
  | (.joining, k, p) => Function.update view k (some p)
  | (.updated, k, p) => Function.update view k (some p)
  | (.leaving, k, _) => Function.update view k none

/-- The calls that were made of the user's functions. -/
def heard (decode : List UInt8 → Except Thrown (ResultType × K × P)) :
    List Invocation → List (ResultType × K × P) :=
  List.filterMap fun x =>
    match x with
    | .event (.custom data _) _ _ => (decode data).toOption
    | _ => none

def view (decode : List UInt8 → Except Thrown (ResultType × K × P))
    (s : Dispatching Invocation) : K → Option P :=
  (heard decode s.invoked).foldl follow fun _ => none

end View

/-! ### The server -/

structure Change (K E : Type) where
  key : K
  entry : Option E

inductive Notice (K R : Type) where
  | joining (key : K) (row : R)
  | updated (key : K) (row : R)
  | leaving (key : K)

section Server

variable [DecidableEq K] (select : E → Option R)

def resultSet (cache : K → Option E) (key : K) : Option R := (cache key).bind select

/-- What the listener is told of a change, if anything. -/
def notice (cache : K → Option E) (c : Change K E) : Option (Notice K R) :=
  match resultSet select cache c.key, c.entry.bind select with
  | none, none => none
  | none, some row => some (.joining c.key row)
  | some _, some row => some (.updated c.key row)
  | some _, none => some (.leaving c.key)

def server : Machine (K → Option E) (Change K E) (Option (Notice K R)) := fun cache c =>
  (notice select cache c, Function.update cache c.key c.entry)

def notices (cache : K → Option E) (changes : List (Change K E)) : List (Notice K R) :=
  (answers (server select) cache changes).reduceOption

def Leaves (cache : K → Option E) (c : Change K E) : Prop :=
  (resultSet select cache c.key).isSome ∧ c.entry.bind select = none

end Server

/-! ### Keeping up -/

section Mirrors

variable [DecidableEq K] {select : E → Option R}

/-- Under every key the client has what shows the row of the server, or neither has any. -/
def Mirrors (shows : P → R → Prop) (view : K → Option P) (result : K → Option R) : Prop :=
  ∀ k, Option.Rel shows (view k) (result k)

theorem mirrors_update_iff {shows : P → R → Prop} {view : K → Option P} {result : K → Option R}
    (mirrors : Mirrors shows view result) (k : K) (p : Option P) (r : Option R) :
    Mirrors shows (Function.update view k p) (Function.update result k r) ↔
      Option.Rel shows p r := by
  constructor
  · intro both
    simpa using both k
  · intro here other
    by_cases same : other = k
    · subst same
      simpa using here
    · simpa [Function.update_of_ne same] using mirrors other

theorem resultSet_update (cache : K → Option E) (c : Change K E) :
    resultSet select (Function.update cache c.key c.entry) =
      Function.update (resultSet select cache) c.key (c.entry.bind select) := by
  funext k
  by_cases same : k = c.key
  · subst same
    simp [resultSet]
  · simp [resultSet, Function.update_of_ne same]

theorem resultSet_of_untold {cache : K → Option E} {c : Change K E}
    (untold : notice select cache c = none) :
    resultSet select (Function.update cache c.key c.entry) = resultSet select cache := by
  rw [resultSet_update]
  unfold notice at untold
  split at untold
  · next absent gone => rw [gone, ← absent, Function.update_eq_self]
  · cases untold
  · cases untold
  · cases untold

end Mirrors

section Notices

variable (shown : R → P)

def Notice.apply [DecidableEq K] (view : K → Option P) : Notice K R → K → Option P
  | joining k row | updated k row => Function.update view k (some (shown row))
  | leaving k => Function.update view k none

/-- The data of an event, which the client reads `shown` of a row from. What it reads of an
entry that leaves is not said, but `leaves` is whether it can. -/
inductive Tells (decode : List UInt8 → Except Thrown (ResultType × K × P)) (leaves : Prop)
    (data : List UInt8) : Notice K R → Prop where
  | joining {k : K} {row : R} (read : decode data = .ok (.joining, k, shown row)) :
      Tells decode leaves data (.joining k row)
  | updated {k : K} {row : R} (read : decode data = .ok (.updated, k, shown row)) :
      Tells decode leaves data (.updated k row)
  | left {k : K} {p : P} (read : decode data = .ok (.leaving, k, p)) (can : leaves) :
      Tells decode leaves data (.leaving k)
  | unread {k : K} {thrown : Thrown} (raises : decode data = .error thrown) (cannot : ¬ leaves) :
      Tells decode leaves data (.leaving k)

def Carries (decode : List UInt8 → Except Thrown (ResultType × K × P)) (leaves : Prop)
    (e : ServerEvent) (n : Notice K R) : Prop :=
  ∃ isCustom marked data, e.body = .custom isCustom marked data ∧
    Tells shown decode leaves data.1 n

end Notices

/-- All functions are set, and none raises anything. -/
def ContinuousQueryListener.Quiet (cql : ContinuousQueryListener K P) : Prop :=
  ∀ resultType, ∃ f, cql.listener resultType = some f ∧ ∀ k p, f k p = none

section Turns

variable [DecidableEq K] {shown : R → P} {leaves : Prop}
  {decode : List UInt8 → Except Thrown (ResultType × K × P)}
  {baseKeyUnmarshall : List UInt8 → Except Exn (Option K)} {cql : ContinuousQueryListener K P}
  {s : Dispatching Invocation} {e : ServerEvent} {events : List ServerEvent} {rest : List UInt8}
  {n : Notice K R} {d : EventDispatcher}

omit [DecidableEq K] in
theorem processEvent_append (log : List Invocation) (data listId : List UInt8)
    (isRetried isCustom : UInt8) :
    processEvent baseKeyUnmarshall (listenerCustomEvent cql decode)
        (log ++ [.event (.custom data isRetried) listId isCustom]) =
      listenerCustomEvent cql decode data := by
  simp [processEvent]

theorem view_append (t : Dispatching Invocation) (data listId : List UInt8)
    (isRetried isCustom : UInt8)
    (called : t.invoked = s.invoked ++ [.event (.custom data isRetried) listId isCustom]) :
    view decode t = (decode data).toOption.elim (view decode s) (follow (view decode s)) := by
  unfold view heard
  rw [called, List.filterMap_append, List.foldl_append]
  cases read : decode data with
  | ok call => simp [read, Except.toOption]
  | error thrown => simp [read, Except.toOption]

-- A notice is followed, unless it is of an entry that leaves and cannot be read: then the thread
-- has come to its end.
theorem turn_of_carried (quiet : cql.Quiet)
    (listens : d.processEvent = processEvent baseKeyUnmarshall (listenerCustomEvent cql decode))
    (facing : Facing s (e :: events) rest) (carries : Carries shown decode leaves e n) :
    (∃ t, d.dispatcher.turn s = .ok true t ∧ Facing t events rest ∧
        view decode t = n.apply shown (view decode s) ∧ ((∃ k, n = .leaving k) → leaves)) ∨
      (∃ k, n = .leaving k) ∧ ¬ leaves ∧ (∀ t, d.dispatcher.turn s ≠ .ok true t) ∧
        view decode (final (d.dispatcher.turn s)) = view decode s := by
  obtain ⟨isCustom, marked, data, body, tells⟩ := carries
  obtain ⟨unread, came⟩ := Events.facing_head facing
  have asks : Events.invocation e =
      some (.event (.custom data.1 e.isRetried) e.listenerId.1 isCustom) := by
    simp [Events.invocation, ServerEvent.received, body]
  have raises : d.processEvent (s.invoked ++
        [.event (.custom data.1 e.isRetried) e.listenerId.1 isCustom]) =
      listenerCustomEvent cql decode data.1 := by
    rw [listens, processEvent_append]
  have goesOn : ∀ resultType k p, decode data.1 = .ok (resultType, k, p) →
      ∃ t, d.dispatcher.turn s = .ok true t ∧ Facing t events rest ∧
        view decode t = follow (view decode s) (resultType, k, p) := by
    intro resultType k p read
    obtain ⟨f, set, silent⟩ := quiet resultType
    have nothing : listenerCustomEvent cql decode data.1 = none := by
      simp [listenerCustomEvent, read, set, silent]
    rw [nothing] at raises
    refine ⟨_, Events.threadTurn_none d asks unread came raises, Events.facing_after facing _, ?_⟩
    rw [view_append _ _ _ _ _ rfl, read]
    rfl
  cases tells with
  | joining read =>
    obtain ⟨t, went, later, viewed⟩ := goesOn _ _ _ read
    refine .inl ⟨t, went, later, viewed, ?_⟩
    rintro ⟨_, same⟩
    cases same
  | updated read =>
    obtain ⟨t, went, later, viewed⟩ := goesOn _ _ _ read
    refine .inl ⟨t, went, later, viewed, ?_⟩
    rintro ⟨_, same⟩
    cases same
  | left read can =>
    obtain ⟨t, went, later, viewed⟩ := goesOn _ _ _ read
    exact .inl ⟨t, went, later, viewed, fun _ => can⟩
  | @unread k thrown raised cannot =>
    have stops : listenerCustomEvent cql decode data.1 = some thrown := by
      simp [listenerCustomEvent, raised]
    rw [stops] at raises
    obtain ⟨ends, -, called⟩ := Events.threadTurn_some d asks unread came raises
    refine .inr ⟨⟨k, rfl⟩, cannot, ends, ?_⟩
    rw [view_append _ _ _ _ _ called, raised]
    rfl

end Turns

/-! ### Runs -/

section Runs

variable [DecidableEq K] {select : E → Option R} {shows : P → R → Prop} {shown : R → P}
  {leaves : Prop} {decode : List UInt8 → Except Thrown (ResultType × K × P)}
  {s t : Dispatching Invocation} {d : EventDispatcher} {cache : K → Option E} {c : Change K E}
  {changes : List (Change K E)}

/-- After as many turns as the changes so far have notices, the client has the result. -/
def KeepsUp (select : E → Option R) (shows : P → R → Prop)
    (decode : List UInt8 → Except Thrown (ResultType × K × P)) (d : EventDispatcher)
    (s : Dispatching Invocation) (cache : K → Option E) (changes : List (Change K E)) : Prop :=
  ∀ sofar, sofar <+: changes →
    Mirrors shows
      (view decode (final (turns d.dispatcher.turn (notices select cache sofar).length s)))
      (resultSet select (Semantics.Machines.after (server select) cache sofar))

/-- What is shown of a row is what it says, and what leaves can be read. -/
def Readable (select : E → Option R) (shows : P → R → Prop) (shown : R → P) (leaves : Prop)
    (cache : K → Option E) (c : Change K E) : Prop :=
  (∀ row, c.entry.bind select = some row → shows (shown row) row) ∧
    (Leaves select cache c → leaves)

theorem notices_cons (cache : K → Option E) (c : Change K E) (changes : List (Change K E)) :
    notices select cache (c :: changes) = (notice select cache c).toList ++
      notices select (Function.update cache c.key c.entry) changes := by
  unfold notices
  rw [answers]
  cases told : notice select cache c with
  | none => simp [server, told, List.reduceOption_cons_of_none]
  | some n => simp [server, told, List.reduceOption_cons_of_some]

theorem after_cons (cache : K → Option E) (c : Change K E) (changes : List (Change K E)) :
    Semantics.Machines.after (server select) cache (c :: changes) =
      Semantics.Machines.after (server select) (Function.update cache c.key c.entry) changes := rfl

theorem keepsUp_nil (mirrors : Mirrors shows (view decode s) (resultSet select cache)) :
    KeepsUp select shows decode d s cache [] := by
  intro sofar before
  rw [List.prefix_nil.mp before]
  exact mirrors

theorem keepsUp_cons_untold (mirrors : Mirrors shows (view decode s) (resultSet select cache))
    (untold : notice select cache c = none) :
    KeepsUp select shows decode d s cache (c :: changes) ↔
      KeepsUp select shows decode d s (Function.update cache c.key c.entry) changes := by
  constructor
  · intro keeps sofar before
    have later := keeps (c :: sofar) (List.prefix_cons_inj c |>.mpr before)
    simpa [notices_cons, after_cons, untold] using later
  · intro keeps sofar before
    cases sofar with
    | nil => exact mirrors
    | cons first sofar =>
      obtain ⟨rfl, others⟩ := List.cons_prefix_cons.mp before
      simpa [notices_cons, after_cons, untold] using keeps sofar others

theorem keepsUp_cons_told {n : Notice K R}
    (mirrors : Mirrors shows (view decode s) (resultSet select cache))
    (told : notice select cache c = some n) (went : d.dispatcher.turn s = .ok true t) :
    KeepsUp select shows decode d s cache (c :: changes) ↔
      KeepsUp select shows decode d t (Function.update cache c.key c.entry) changes := by
  constructor
  · intro keeps sofar before
    have later := keeps (c :: sofar) (List.prefix_cons_inj c |>.mpr before)
    simpa [notices_cons, after_cons, told, Events.turns_of_goesOn went, Nat.add_comm 1] using later
  · intro keeps sofar before
    cases sofar with
    | nil => exact mirrors
    | cons first sofar =>
      obtain ⟨rfl, others⟩ := List.cons_prefix_cons.mp before
      simpa [notices_cons, after_cons, told, Events.turns_of_goesOn went, Nat.add_comm 1]
        using keeps sofar others

omit [DecidableEq K] in
theorem readable_of_untold (untold : notice select cache c = none) :
    Readable select shows shown leaves cache c := by
  unfold notice at untold
  unfold Readable Leaves
  split at untold
  · next absent gone => simp [absent, gone]
  · cases untold
  · cases untold
  · cases untold

omit [DecidableEq K] in
theorem leaves_of_told {k : K} (told : notice select cache c = some (.leaving k)) :
    k = c.key ∧ Leaves select cache c := by
  unfold notice at told
  unfold Leaves
  split at told
  · cases told
  · cases told
  · cases told
  · next row present gone =>
    cases told
    simp [present, gone]

omit [DecidableEq K] in
theorem told_of_leaves (leaves : Leaves select cache c) :
    notice select cache c = some (.leaving c.key) := by
  obtain ⟨present, gone⟩ := leaves
  obtain ⟨row, there⟩ := Option.isSome_iff_exists.mp present
  simp [notice, there, gone]

theorem mirrors_apply_iff {n : Notice K R} {view : K → Option P}
    (mirrors : Mirrors shows view (resultSet select cache))
    (told : notice select cache c = some n) :
    Mirrors shows (n.apply shown view)
        (resultSet select (Function.update cache c.key c.entry)) ↔
      ∀ row, c.entry.bind select = some row → shows (shown row) row := by
  rw [resultSet_update]
  unfold notice at told
  split at told
  · cases told
  · next row absent present =>
    cases told
    rw [Notice.apply, mirrors_update_iff mirrors, present]
    simp
  · next row before present =>
    cases told
    rw [Notice.apply, mirrors_update_iff mirrors, present]
    simp
  · next row before gone =>
    cases told
    rw [Notice.apply, mirrors_update_iff mirrors, gone]
    simp

theorem not_mirrors_of_left {view : K → Option P} {k : K}
    (mirrors : Mirrors shows view (resultSet select cache))
    (told : notice select cache c = some (.leaving k)) :
    ¬ Mirrors shows view (resultSet select (Function.update cache c.key c.entry)) := by
  obtain ⟨rfl, present, gone⟩ := leaves_of_told told
  intro still
  have before := mirrors c.key
  have now := still c.key
  rw [resultSet_update, Function.update_self, gone] at now
  cases there : view c.key with
  | none =>
    rw [there] at before
    cases absent : resultSet select cache c.key with
    | none => simp [absent] at present
    | some row =>
      rw [absent] at before
      cases before
  | some p =>
    rw [there] at now
    cases now

theorem keepsUp_iff {baseKeyUnmarshall : List UInt8 → Except Exn (Option K)}
    {cql : ContinuousQueryListener K P} {events : List ServerEvent} {rest : List UInt8}
    (quiet : cql.Quiet)
    (listens : d.processEvent = processEvent baseKeyUnmarshall (listenerCustomEvent cql decode))
    (mirrors : Mirrors shows (view decode s) (resultSet select cache))
    (facing : Facing s events rest)
    (carries : List.Forall₂ (Carries shown decode leaves) events (notices select cache changes)) :
    KeepsUp select shows decode d s cache changes ↔
      Throughout (server select) (Readable select shows shown leaves) cache changes := by
  induction changes generalizing s cache events with
  | nil => exact iff_of_true (keepsUp_nil mirrors) trivial
  | cons c changes ih =>
    rw [notices_cons] at carries
    cases told : notice select cache c with
    | none =>
      rw [told] at carries
      have same := resultSet_of_untold told
      rw [keepsUp_cons_untold mirrors told, ih (same ▸ mirrors) facing carries]
      exact (and_iff_right (readable_of_untold told)).symm
    | some n =>
      rw [told, Option.toList_some, List.singleton_append] at carries
      cases carries with
      | @cons e _ events _ first others =>
        obtain ⟨t, went, later, viewed, can⟩ | ⟨⟨k, left⟩, cannot, stops, viewed⟩ :=
          turn_of_carried quiet listens facing first
        · rw [keepsUp_cons_told mirrors told went]
          have shownIff : Mirrors shows (view decode t)
                (resultSet select (Function.update cache c.key c.entry)) ↔
              ∀ row, c.entry.bind select = some row → shows (shown row) row := by
            rw [viewed]
            exact mirrors_apply_iff mirrors told
          by_cases fine : ∀ row, c.entry.bind select = some row → shows (shown row) row
          · rw [ih (shownIff.mpr fine) later others]
            have readable : Readable select shows shown leaves cache c := by
              refine ⟨fine, ?_⟩
              intro goes
              rw [told_of_leaves goes] at told
              exact can ⟨c.key, (Option.some.inj told).symm⟩
            exact (and_iff_right readable).symm
          · refine iff_of_false ?_ fun all => fine all.1.1
            intro keeps
            exact fine (shownIff.mp (keeps [] List.nil_prefix))
        · subst left
          refine iff_of_false ?_ fun all => cannot (all.1.2 (leaves_of_told told).2)
          intro keeps
          have after := keeps [c] (List.prefix_cons_inj c |>.mpr List.nil_prefix)
          have once : (notices select cache [c]).length = 1 := by
            rw [notices_cons, told]
            rfl
          rw [once, Events.final_turns_of_stop stops, viewed] at after
          exact not_mirrors_of_left mirrors told after

end Runs

/-! ### Queries with projections -/

/-- The data of an event, as the server wrote it. -/
def Holds (parse : List UInt8 → ContinuousQueryResult D) (e : ServerEvent)
    (r : ContinuousQueryResult D) : Prop :=
  ∃ isCustom marked data, e.body = .custom isCustom marked data ∧ parse data.1 = r

section Projections

variable {params : List Column}

abbrev Row (D : Type) (params : List Column) :=
  { row : List (Cell D) // row.map Cell.column = params }

def Row.shown (row : Row D params) : Tuple D params := row.2 ▸ tupleOf (fun _ s => s) row.1

-- There is no projection with an entry that leaves.
def projectionResult (marshall : K → List UInt8) :
    Notice K (Row D params) → ContinuousQueryResult D
  | .joining k row =>
    { resultType := .joining, key := marshall k, projection := row.1.map Cell.wrap }
  | .updated k row =>
    { resultType := .updated, key := marshall k, projection := row.1.map Cell.wrap }
  | .leaving k => { resultType := .leaving, key := marshall k }

theorem popTuple_shown (row : Row D params) :
    ∃ k, popTuple (fun _ s => s) (row.1.map Cell.wrap) params 0 = .ok (row.shown, k) := by
  obtain ⟨row, rfl⟩ := row
  exact ⟨_, popTuple_tupleOf row (List.prefix_refl _)⟩

theorem shows_shown_iff (row : Row D params) : Shows row.shown row.1 ↔
    ∀ cell ∈ row.1, cell.Narrow := by
  obtain ⟨row, rfl⟩ := row
  refine (shows_tupleOf_iff (fun _ _ _ => rfl) row).trans ?_
  constructor
  · intro exact
    exact exact.narrow
  · intro narrow
    exact ⟨narrow, fun _ _ => rfl⟩

theorem popTuple_nothing (nonempty : params ≠ []) :
    popTuple (fun _ s => s) ([] : List (WrappedMessage D)) params 0 = .error .outOfBounds := by
  cases params with
  | nil => exact absurd rfl nonempty
  | cons c params => cases params <;> rfl

theorem carries_of_projection {parse : List UInt8 → ContinuousQueryResult D} (km : Marshaller K)
    (nonempty : params ≠ []) {e : ServerEvent} {n : Notice K (Row D params)}
    (holds : Holds parse e (projectionResult km.marshall n)) :
    Carries Row.shown (decodeProjection parse km.unmarshall params) False e n := by
  obtain ⟨isCustom, marked, data, body, parsed⟩ := holds
  refine ⟨isCustom, marked, data, body, ?_⟩
  cases n with
  | joining k row =>
    obtain ⟨cursor, popped⟩ := popTuple_shown row
    apply Tells.joining
    simp [decodeProjection, parsed, projectionResult, popped, km.unmarshall_marshall, deref]
  | updated k row =>
    obtain ⟨cursor, popped⟩ := popTuple_shown row
    apply Tells.updated
    simp [decodeProjection, parsed, projectionResult, popped, km.unmarshall_marshall, deref]
  | leaving k =>
    have raised : decodeProjection parse km.unmarshall params data.1 = .error .foreign := by
      simp [decodeProjection, parsed, projectionResult, popTuple_nothing nonempty]
    exact Tells.unread raised not_false

/-- A listener of projections keeps up with the result of its query exactly if no entry leaves
it and all integers in it have 32 bits. -/
theorem projections_keepUp_iff [DecidableEq K] (nonempty : params ≠ [])
    {parse : List UInt8 → ContinuousQueryResult D} {km : Marshaller K}
    {cql : ContinuousQueryListener K (Tuple D params)} (quiet : cql.Quiet) {d : EventDispatcher}
    (listens : d.processEvent = processEvent km.unmarshall
      (listenerCustomEvent cql (decodeProjection parse km.unmarshall params)))
    {select : E → Option (Row D params)} {s : Dispatching Invocation} {cache : K → Option E}
    (mirrors : Mirrors (fun tp row => Shows tp row.1)
      (view (decodeProjection parse km.unmarshall params) s) (resultSet select cache))
    {events : List ServerEvent} {rest : List UInt8} (facing : Facing s events rest)
    {changes : List (Change K E)} (told : List.Forall₂ (Holds parse) events
      ((notices select cache changes).map (projectionResult km.marshall))) :
    KeepsUp select (fun tp row => Shows tp row.1)
        (decodeProjection parse km.unmarshall params) d s cache changes ↔
      Throughout (server select) (fun cache c => ¬ Leaves select cache c ∧
        ∀ row, c.entry.bind select = some row → ∀ cell ∈ row.1, cell.Narrow) cache changes := by
  have carries : List.Forall₂
      (Carries Row.shown (decodeProjection parse km.unmarshall params) False) events
      (notices select cache changes) :=
    (List.forall₂_map_right_iff.mp told).imp fun _ _ => carries_of_projection km nonempty
  refine (keepsUp_iff quiet listens mirrors facing carries).trans ?_
  have same : ∀ (cache : K → Option E) c,
      Readable select (fun tp row => Shows tp row.1) Row.shown False cache c ↔
      ¬ Leaves select cache c ∧ ∀ row, c.entry.bind select = some row →
        ∀ cell ∈ row.1, cell.Narrow := by
    intro cache c
    simp only [Readable, shows_shown_iff]
    exact and_comm
  constructor
  · exact Throughout.imp fun cache c => (same cache c).mp
  · exact Throughout.imp fun cache c => (same cache c).mpr

end Projections

/-! ### An entry that is removed -/

def quietListener (K P : Type) : ContinuousQueryListener K P where
  joiningListener := some fun _ _ => none
  leavingListener := some fun _ _ => none
  updatedListener := some fun _ _ => none

theorem quiet_quietListener : (quietListener K P).Quiet := by
  intro resultType
  cases resultType <;> exact ⟨_, rfl, fun _ _ => rfl⟩

def leavingBytes : List UInt8 :=
  [0x98, 0x01, 0xB3, 0x22, 0x8A, 0x01, 0x05, 0x08, 0x00, 0x12, 0x01, 0x6B]

def joiningBytes : List UInt8 :=
  [0x98, 0x01, 0xB3, 0x22, 0x8A, 0x01, 0x0E, 0x08, 0x01, 0x12, 0x01, 0x6B,
    0x22, 0x02, 0x28, 0x07, 0x22, 0x03, 0x4A, 0x01, 0x54]

theorem marked : (1 : UInt8) ≠ 0 := by decide
theorem succeeds : HotRodConstants.isSuccess HotRodConstants.noErrorStatus = true := rfl
theorem leavingBytes_fits : leavingBytes.length < 2 ^ 32 := by decide
theorem joiningBytes_fits : joiningBytes.length < 2 ^ 32 := by decide

def noticeEvent (data : Bytes) : ServerEvent where
  kind := .created
  messageId := 0
  status := HotRodConstants.noErrorStatus
  success := succeeds
  listenerId := .empty
  isRetried := 0
  body := .custom 1 marked data

def seven : Row Rat [.int, .string] := ⟨[.int32 7, .string [0x54]], rfl⟩

def parseSeven (data : List UInt8) : ContinuousQueryResult Rat :=
  projectionResult id (if data = joiningBytes then .joining [0x6B] seven else .leaving [0x6B])

def sevenDispatcher : EventDispatcher where
  codec := .codec28
  processEvent := processEvent unmarked.unmarshall (listenerCustomEvent (quietListener _ _)
    (decodeProjection parseSeven unmarked.unmarshall [.int, .string]))
  recoveryCallback := none

def sevenEvents : List ServerEvent :=
  [noticeEvent ⟨joiningBytes, joiningBytes_fits⟩, noticeEvent ⟨leavingBytes, leavingBytes_fits⟩]

theorem not_keepsUp_of_removed :
    ¬ KeepsUp some (fun tp row => Shows tp row.1)
      (decodeProjection parseSeven unmarked.unmarshall [.int, .string]) sevenDispatcher
      (Events.before { transport := { hostname := "localhost", port := 11222 } } sevenEvents [] 0)
      (fun _ => none) [⟨[0x6B], some seven⟩, ⟨[0x6B], none⟩] := by
  intro keeps
  have told : List.Forall₂ (Holds parseSeven) sevenEvents
      ((notices some (fun _ => none) [⟨[0x6B], some seven⟩, ⟨[0x6B], none⟩]).map
        (projectionResult unmarked.marshall)) :=
    .cons ⟨1, marked, _, rfl, rfl⟩ (.cons ⟨1, marked, _, rfl, rfl⟩ .nil)
  have all := (projections_keepUp_iff (List.cons_ne_nil _ _) quiet_quietListener rfl
    (fun _ => .none) ⟨rfl, Nat.le_add_right _ _⟩ told).mp keeps
  exact all.2.1.1 ⟨rfl, rfl⟩

/-! ### Queries without -/

section Entries

-- There is no value with an entry that leaves.
def entryResult (marshallKey : K → List UInt8) (marshallValue : V → List UInt8) :
    Notice K V → ContinuousQueryResult D
  | .joining k v =>
    { resultType := .joining, key := marshallKey k, value := marshallValue v }
  | .updated k v =>
    { resultType := .updated, key := marshallKey k, value := marshallValue v }
  | .leaving k => { resultType := .leaving, key := marshallKey k }

theorem carries_of_entry {parse : List UInt8 → ContinuousQueryResult D} (km : Marshaller K)
    (vm : Marshaller V) {e : ServerEvent} {n : Notice K V}
    (holds : Holds parse e (entryResult km.marshall vm.marshall n)) :
    Carries id (decodeEntry parse km.unmarshall vm.unmarshall)
      (∃ v, vm.unmarshall [] = .ok (some v)) e n := by
  obtain ⟨isCustom, marked, data, body, parsed⟩ := holds
  refine ⟨isCustom, marked, data, body, ?_⟩
  cases n with
  | joining k v =>
    apply Tells.joining
    simp [decodeEntry, parsed, entryResult, km.unmarshall_marshall, vm.unmarshall_marshall, deref]
  | updated k v =>
    apply Tells.updated
    simp [decodeEntry, parsed, entryResult, km.unmarshall_marshall, vm.unmarshall_marshall, deref]
  | leaving k =>
    cases none : deref (vm.unmarshall []) with
    | ok v =>
      have can : vm.unmarshall [] = .ok (some v) := by
        unfold deref at none
        split at none
        · next same => rw [same, Except.ok.inj none]
        · cases none
        · cases none
      have read : decodeEntry parse km.unmarshall vm.unmarshall data.1 =
          .ok (.leaving, k, v) := by
        simp [decodeEntry, parsed, entryResult, km.unmarshall_marshall, can, deref]
      exact Tells.left read ⟨v, can⟩
    | error thrown =>
      have raised : decodeEntry parse km.unmarshall vm.unmarshall data.1 = .error thrown := by
        simp only [decodeEntry, parsed, entryResult, km.unmarshall_marshall, none]
        rfl
      refine Tells.unread raised ?_
      rintro ⟨v, can⟩
      rw [can] at none
      cases none

/-- A listener of entries keeps up with the result of its query exactly if its marshaller makes
a value of no bytes, or no entry leaves it. -/
theorem entries_keepUp_iff [DecidableEq K] {parse : List UInt8 → ContinuousQueryResult D}
    {km : Marshaller K} {vm : Marshaller V} {cql : ContinuousQueryListener K V}
    (quiet : cql.Quiet) {d : EventDispatcher}
    (listens : d.processEvent = processEvent km.unmarshall
      (listenerCustomEvent cql (decodeEntry parse km.unmarshall vm.unmarshall)))
    {select : E → Option V} {s : Dispatching Invocation} {cache : K → Option E}
    (mirrors : Mirrors Eq (view (decodeEntry parse km.unmarshall vm.unmarshall) s)
      (resultSet select cache))
    {events : List ServerEvent} {rest : List UInt8} (facing : Facing s events rest)
    {changes : List (Change K E)} (told : List.Forall₂ (Holds parse) events
      ((notices select cache changes).map (entryResult km.marshall vm.marshall))) :
    KeepsUp select Eq (decodeEntry parse km.unmarshall vm.unmarshall) d s cache changes ↔
      Throughout (server select) (fun cache c =>
        Leaves select cache c → ∃ v, vm.unmarshall [] = .ok (some v)) cache changes := by
  have carries : List.Forall₂ (Carries id (decodeEntry parse km.unmarshall vm.unmarshall)
      (∃ v, vm.unmarshall [] = .ok (some v))) events (notices select cache changes) :=
    (List.forall₂_map_right_iff.mp told).imp fun _ _ => carries_of_entry km vm
  refine (keepsUp_iff quiet listens mirrors facing carries).trans ?_
  constructor
  · exact Throughout.imp fun cache c readable => readable.2
  · exact Throughout.imp fun cache c can => ⟨fun _ _ => rfl, can⟩

def entryBytes : List UInt8 :=
  [0x98, 0x01, 0xB3, 0x22, 0x8A, 0x01, 0x08, 0x08, 0x01, 0x12, 0x01, 0x6B, 0x1A, 0x01, 0x76]

theorem entryBytes_fits : entryBytes.length < 2 ^ 32 := by decide

def parseEntry (data : List UInt8) : ContinuousQueryResult Rat :=
  entryResult id id (if data = entryBytes then .joining [0x6B] [0x76] else .leaving [0x6B])

def entryDispatcher : EventDispatcher where
  codec := .codec28
  processEvent := processEvent unmarked.unmarshall (listenerCustomEvent (quietListener _ _)
    (decodeEntry parseEntry unmarked.unmarshall unmarked.unmarshall))
  recoveryCallback := none

def entryEvents : List ServerEvent :=
  [noticeEvent ⟨entryBytes, entryBytes_fits⟩, noticeEvent ⟨leavingBytes, leavingBytes_fits⟩]

theorem keepsUp_of_removed :
    KeepsUp some Eq (decodeEntry parseEntry unmarked.unmarshall unmarked.unmarshall)
      entryDispatcher
      (Events.before { transport := { hostname := "localhost", port := 11222 } } entryEvents [] 0)
      (fun _ => none) [⟨[0x6B], some [0x76]⟩, ⟨[0x6B], none⟩] := by
  have told : List.Forall₂ (Holds parseEntry) entryEvents
      ((notices some (fun _ => none) [⟨[0x6B], some [0x76]⟩, ⟨[0x6B], none⟩]).map
        (entryResult unmarked.marshall unmarked.marshall)) :=
    .cons ⟨1, marked, _, rfl, rfl⟩ (.cons ⟨1, marked, _, rfl, rfl⟩ .nil)
  refine (entries_keepUp_iff quiet_quietListener rfl (fun _ => .none)
    ⟨rfl, Nat.le_add_right _ _⟩ told).mpr ⟨?_, ?_, trivial⟩
  · intro leaves
    exact ⟨[], rfl⟩
  · intro leaves
    exact ⟨[], rfl⟩

end Entries

end HotRod.Query
