import HotRod.Transactions.Footprint

/-! The pointers a transaction holds.

`put` stores a copy of the caller's object and `replace` the caller's object itself,
together with the deleter of the copies. What is read through such a pointer depends on
the caller's memory at that moment, and the next write to its key deletes an object that
belongs to the caller. -/

set_option autoImplicit false

namespace HotRod.Transactions

open Semantics.Execution

variable {K A V W : Type}

/-! ### Calls -/

/-- A `void*` of the context: an object of its own, or one of the caller's. -/
inductive Pointer (A V : Type) where
  | copy (v : V)
  | callers (a : A)
  deriving DecidableEq, Repr

namespace Pointer

/-- What the pointer leads to; a destroyed object reads as whatever is left there. -/
def read (memory : A → V) : Pointer A V → V
  | .copy v => v
  | .callers a => memory a

-- The argument of `replace` is a `const V&`: its object stays the caller's.
def isOwn : Pointer A V → Bool
  | .copy _ => true
  | .callers _ => false

end Pointer

/-- A handle whose calls come with the addresses of objects. The value marshaller is run
on a pointer by PREPARE, and then reads the memory of that moment. -/
def pointerHandle (force : Bool) (marshal : V → Except Exn Bytes) (atPrepare : A → V) :
    Handle (Pointer A V) where
  forceReturnValue := force
  valueMarshaller := fun pointer => marshal (pointer.read atPrepare)
  valueDestructor := Pointer.isOwn

/-- A call with the addresses of its arguments, and what it finds at its moment. -/
structure Call (K A V : Type) where
  remote : Remote K V
  memory : A → V
  op : Op K A

/-- The pointers the calls store: `put` and `putIfAbsent` through
`valueCopyConstructor`, `replace` the pointer it was given. -/
def Op.pointers (memory : A → V) : Op K A → Op K (Pointer A V)
  | .get key => .get key
  | .put key a life idle => .put key (.copy (memory a)) life idle
  | .putIfAbsent key a life idle => .putIfAbsent key (.copy (memory a)) life idle
  | .replace key a life idle => .replace key (.callers a) life idle
  | .remove key => .remove key

-- A value that comes from the servers is unmarshalled into an object of its own.
def Remote.pointers (remote : Remote K V) : Remote K (Pointer A V) :=
  fun key => (remote key).map (Prod.map .copy id)

section Run

variable [LinearOrder K]

/-- One call; a returned value is a copy made during the call. -/
def Call.run (cache : Handle (Pointer A V)) (status : TransactionStatus) (call : Call K A V) :
    CacheM K (Pointer A V) (Option V) := do
  let result ← (call.op.pointers call.memory).run cache status call.remote.pointers
  pure (result.map (Pointer.read call.memory))

def runCalls (cache : Handle (Pointer A V)) (status : TransactionStatus) :
    List (Call K A V) → CacheM K (Pointer A V) (List (Option V))
  | [] => pure []
  | call :: rest => do
    let result ← call.run cache status
    let results ← runCalls cache status rest
    pure (result :: results)

end Run

/-! ### Values with their owners -/

/-- A value the transaction holds, and the caller's object it was lent, if any. -/
structure Held (A V : Type) where
  value : V
  owner : Option A := none
  deriving DecidableEq, Repr

def Held.pointer (held : Held A V) : Pointer A V :=
  match held.owner with
  | none => .copy held.value
  | some a => .callers a

theorem Held.isOwn_pointer (held : Held A V) : held.pointer.isOwn = true ↔ held.owner = none := by
  cases lent : held.owner <;> simp [Held.pointer, Pointer.isOwn, lent]

def Op.map (f : V → W) : Op K V → Op K W
  | .get key => .get key
  | .put key val life idle => .put key (f val) life idle
  | .putIfAbsent key val life idle => .putIfAbsent key (f val) life idle
  | .replace key val life idle => .replace key (f val) life idle
  | .remove key => .remove key

@[simp] theorem Op.key_map (f : V → W) (op : Op K V) : (op.map f).key = op.key := by
  cases op <;> rfl

def Call.plain (call : Call K A V) : Op K V := call.op.map call.memory

/-- The call on held values: only `replace` leaves its object with the caller. -/
def Call.held (call : Call K A V) : Op K (Held A V) :=
  match call.op with
  | .get key => .get key
  | .put key a life idle => .put key { value := call.memory a } life idle
  | .putIfAbsent key a life idle => .putIfAbsent key { value := call.memory a } life idle
  | .replace key a life idle => .replace key { value := call.memory a, owner := some a } life idle
  | .remove key => .remove key

def Remote.held (remote : Remote K V) : Remote K (Held A V) :=
  fun key => (remote key).map fun found => ({ value := found.1 }, found.2)

theorem Call.held_value (call : Call K A V) : call.held.map Held.value = call.plain := by
  obtain ⟨remote, memory, op⟩ := call
  cases op <;> rfl

theorem Call.held_pointer (call : Call K A V) :
    call.held.map Held.pointer = call.op.pointers call.memory := by
  obtain ⟨remote, memory, op⟩ := call
  cases op <;> rfl

@[simp] theorem Call.held_key (call : Call K A V) : call.held.key = call.op.key := by
  obtain ⟨remote, memory, op⟩ := call
  cases op <;> rfl

theorem Call.key_pointers (call : Call K A V) :
    (call.op.pointers call.memory).key = call.op.key := by
  rw [← Call.held_pointer, Op.key_map, Call.held_key]

@[simp] theorem Call.held_reads (force : Bool) (call : Call K A V) :
    call.held.reads force = call.op.reads force := by
  obtain ⟨remote, memory, op⟩ := call
  cases op <;> rfl

/-- The objects behind the value have not changed since it was lent. -/
def Unmoved (memory : A → V) (seen : Option (Held A V)) : Prop :=
  ∀ held ∈ seen, ∀ a ∈ held.owner, memory a = held.value

theorem read_pointer_iff (memory : A → V) (held : Held A V) :
    held.pointer.read memory = held.value ↔ ∀ a ∈ held.owner, memory a = held.value := by
  cases lent : held.owner <;> simp [Held.pointer, Pointer.read, lent]

theorem read_pointers_iff (memory : A → V) (seen : Option (Held A V)) :
    (seen.map Held.pointer).map (Pointer.read memory) = seen.map Held.value ↔
      Unmoved memory seen := by
  cases seen with
  | none => simp [Unmoved]
  | some held => simp [Unmoved, read_pointer_iff]

-- The calls that write over what their key holds.
def Op.overwrites : Op K V → Bool
  | .get _ | .putIfAbsent .. => false
  | .put .. | .replace .. | .remove _ => true

/-- The call does not write over an object of the caller's. -/
def Call.Spares (call : Call K A V) (content : Option (Held A V)) : Prop :=
  call.op.overwrites = true → ∀ held ∈ content, held.owner = none

/-! ### The ledger -/

def Footprint.map (f : V → W) : Footprint V → Footprint W
  | .untouched => .untouched
  | .read content => .read (content.map f)
  | .wrote content => .wrote (content.map f)

theorem Footprint.observe_map (f : V → W) (found : Option V) (footprint : Footprint V) :
    (footprint.map f).observe (found.map f) = (footprint.observe found).map f := by
  cases footprint <;> rfl

@[simp] theorem Footprint.content_map (f : V → W) (footprint : Footprint V) :
    (footprint.map f).content = footprint.content.map f := by
  cases footprint <;> rfl

theorem Footprint.after_map (f : V → W) (found : Option V) (op : Op K V)
    (footprint : Footprint V) :
    (footprint.map f).after (found.map f) (op.map f) = (footprint.after found op).map f := by
  cases op with
  | get key => exact footprint.observe_map f found
  | put key val life idle => rfl
  | putIfAbsent key val life idle =>
    simp only [Footprint.after, Op.map, Footprint.observe_map, Footprint.content_map,
      Option.isNone_map]
    split <;> rfl
  | replace key val life idle =>
    simp only [Footprint.after, Op.map, Footprint.observe_map, Footprint.content_map,
      Option.isSome_map]
    split <;> rfl
  | remove key => rfl

theorem remote_pointers (remote : Remote K V) (key : K) :
    ((remote.pointers (A := A)) key).map Prod.fst =
      ((remote.held key).map Prod.fst).map Held.pointer := by
  cases found : remote key <;> simp [Remote.pointers, Remote.held, found, Held.pointer]

theorem Op.answer_pointers {W : Type} (force : Bool) (memory : A → V) (op : Op K A)
    (seen : Option W) : (op.pointers memory).answer force seen = op.answer force seen := by
  cases op <;> rfl

theorem own_iff (content : Option (Held A V)) :
    (content.map Held.pointer).all Pointer.isOwn = true ↔ ∀ held ∈ content, held.owner = none := by
  cases content with
  | none => simp
  | some held => simp [Held.isOwn_pointer]

theorem own_observe_iff (remote : Remote K V) (key : K) (footprint : Footprint (Held A V)) :
    (∀ held ∈ (footprint.observe ((remote.held key).map Prod.fst)).content, held.owner = none) ↔
      ∀ held ∈ footprint.content, held.owner = none := by
  cases footprint with
  | untouched =>
    cases found : remote key <;> simp [Footprint.observe, Footprint.content, Remote.held, found]
  | read content => rfl
  | wrote content => rfl

theorem deletes_iff (force : Bool) (call : Call K A V) (footprint : Footprint (Held A V)) :
    (footprint.map Held.pointer).deletes Pointer.isOwn force
        ((call.remote.pointers call.op.key).map Prod.fst) (call.op.pointers call.memory) = true ↔
      call.Spares footprint.content := by
  obtain ⟨remote, memory, op⟩ := call
  rw [remote_pointers]
  have observed := own_observe_iff (A := A) remote op.key footprint
  cases op with
  | get key => exact iff_of_true rfl fun writes => by cases writes
  | putIfAbsent key a life idle => exact iff_of_true rfl fun writes => by cases writes
  | replace key a life idle =>
    simp only [Op.pointers, Footprint.deletes, Footprint.observe_map, Footprint.content_map,
      own_iff, observed, Call.Spares, Op.overwrites, forall_const]
  | put key a life idle =>
    cases force <;>
      simp only [Op.pointers, Footprint.deletes, Footprint.observe_map, Footprint.content_map,
        own_iff, observed, Call.Spares, Op.overwrites, forall_const, if_true, Bool.false_eq_true,
        if_false]
  | remove key =>
    cases force <;>
      simp only [Op.pointers, Footprint.deletes, Footprint.observe_map, Footprint.content_map,
        own_iff, observed, Call.Spares, Op.overwrites, forall_const, if_true, Bool.false_eq_true,
        if_false]

variable [LinearOrder K]

def Ledger.pointers (ledger : Ledger K (Held A V)) : Ledger K (Pointer A V) :=
  fun key => (ledger key).map Held.pointer

theorem Ledger.pointers_step (ledger : Ledger K (Held A V)) (call : Call K A V) :
    ledger.pointers.step call.remote.pointers (call.op.pointers call.memory) =
      (ledger.step call.remote.held call.held).pointers := by
  funext key
  rw [← Call.held_pointer]
  simp only [Ledger.step, Ledger.pointers, Op.key_map, remote_pointers, Footprint.after_map]
  by_cases same : key = call.held.key
  · subst same
    simp
  · simp only [Function.update_of_ne same]
    rfl

def Ledger.afterCalls (ledger : Ledger K (Held A V)) (calls : List (Call K A V)) :
    Ledger K (Held A V) :=
  calls.foldl (fun ledger call => ledger.step call.remote.held call.held) ledger

/-- No call writes over an object that a `replace` has left with the caller. -/
def Ledger.Spared (ledger : Ledger K (Held A V)) : List (Call K A V) → Prop
  | [] => True
  | call :: rest => call.Spares (ledger call.op.key).content ∧
      Spared (ledger.step call.remote.held call.held) rest

/-! ### Runs -/

variable {force : Bool} {marshal : V → Except Exn Bytes} {atPrepare : A → V}
  {ledger : Ledger K (Held A V)} {tc : TransactionContext K (Pointer A V)}

theorem Call.run_refines (refines : Refines (pointerHandle force marshal atPrepare) ledger.pointers tc)
    {call : Call K A V} (spares : call.Spares (ledger call.op.key).content) :
    ∃ tc', call.run (pointerHandle force marshal atPrepare) .ACTIVE tc =
        .ok ((call.op.answer force ((((ledger call.op.key).observe
          ((call.remote.held call.op.key).map Prod.fst)).content).map Held.pointer)).map
            (Pointer.read call.memory)) tc' ∧
      Refines (pointerHandle force marshal atPrepare)
        (ledger.step call.remote.held call.held).pointers tc' := by
  have deletes : ledger.pointers.deletes (pointerHandle force marshal atPrepare)
      call.remote.pointers (call.op.pointers call.memory) = true := by
    rw [Ledger.deletes, call.key_pointers]
    exact (deletes_iff force call _).mpr spares
  obtain ⟨tc', returned, refines'⟩ := Op.run_refines refines deletes
  rw [Ledger.pointers_step] at refines'
  refine ⟨tc', ?_, refines'⟩
  rw [Call.run, bind_of_ok returned, call.key_pointers, Footprint.answer, Op.answer_pointers,
    remote_pointers, Ledger.pointers, Footprint.observe_map, Footprint.content_map]
  rfl

theorem Call.run_foreign (refines : Refines (pointerHandle force marshal atPrepare) ledger.pointers tc)
    {call : Call K A V} (foreign : ¬ call.Spares (ledger call.op.key).content) :
    ∃ tc', call.run (pointerHandle force marshal atPrepare) .ACTIVE tc =
      .error .foreignDelete tc' := by
  have meets : ledger.pointers.deletes (pointerHandle force marshal atPrepare)
      call.remote.pointers (call.op.pointers call.memory) = false := by
    rw [Ledger.deletes, call.key_pointers]
    exact Bool.eq_false_of_not_eq_true fun deletes => foreign ((deletes_iff force call _).mp deletes)
  obtain ⟨tc', raise⟩ := Op.run_foreign refines meets
  exact ⟨tc', by rw [Call.run, bind_of_error raise]⟩

-- A run that spares the caller's objects keeps the context in step with the ledger.
theorem runCalls_refines
    (refines : Refines (pointerHandle force marshal atPrepare) ledger.pointers tc)
    {calls : List (Call K A V)} (spared : ledger.Spared calls) :
    ∃ results tc', runCalls (pointerHandle force marshal atPrepare) .ACTIVE calls tc =
        .ok results tc' ∧
      Refines (pointerHandle force marshal atPrepare) (ledger.afterCalls calls).pointers tc' := by
  induction calls generalizing ledger tc with
  | nil => exact ⟨[], tc, rfl, refines⟩
  | cons call rest ih =>
    obtain ⟨middle, first, refines'⟩ := call.run_refines refines spared.1
    obtain ⟨results, tc', later, done⟩ := ih refines' spared.2
    exact ⟨_, tc', by rw [runCalls, bind_of_ok first, bind_of_ok later, pure_apply], done⟩

theorem runCalls_foreign
    (refines : Refines (pointerHandle force marshal atPrepare) ledger.pointers tc)
    {calls : List (Call K A V)} (foreign : ¬ ledger.Spared calls) :
    ∃ tc', runCalls (pointerHandle force marshal atPrepare) .ACTIVE calls tc =
      .error .foreignDelete tc' := by
  induction calls generalizing ledger tc with
  | nil => exact absurd trivial foreign
  | cons call rest ih =>
    by_cases spares : call.Spares (ledger call.op.key).content
    · obtain ⟨middle, first, refines'⟩ := call.run_refines refines spares
      obtain ⟨tc', raise⟩ := ih refines' fun spared => foreign ⟨spares, spared⟩
      exact ⟨tc', by rw [runCalls, bind_of_ok first, bind_of_error raise]⟩
    · obtain ⟨tc', raise⟩ := call.run_foreign refines spares
      exact ⟨tc', by rw [runCalls, bind_of_error raise]⟩

end HotRod.Transactions
