import HotRod.Transactions.Pointers

/-! The private map a transaction is meant to be.

Each call comes with the remote content and the memory of its moment; the reference is
a plain map over the values the calls were given. -/

set_option autoImplicit false

namespace HotRod.Transactions

open Semantics.Execution

variable {K A V W : Type}

/-! ### The plain map -/

def Op.plainResult (op : Op K V) (content : K → Option V) : Option V := content op.key

def Op.plainStep [DecidableEq K] (op : Op K V) (content : K → Option V) : K → Option V :=
  match op with
  | .get _ => content
  | .put key val _ _ => Function.update content key (some val)
  | .putIfAbsent key val _ _ =>
    if (content key).isNone then Function.update content key (some val) else content
  | .replace key val _ _ =>
    if (content key).isSome then Function.update content key (some val) else content
  | .remove key => Function.update content key none

def plainRun [DecidableEq K] (content : K → Option V) : List (Op K V) → List (Option V)
  | [] => []
  | op :: rest => op.plainResult content :: plainRun (op.plainStep content) rest

theorem Op.plainStep_map [DecidableEq K] (f : V → W) (op : Op K V) (content : K → Option V) :
    (op.map f).plainStep (fun key => (content key).map f) =
      fun key => (op.plainStep content key).map f := by
  have stored : ∀ key found, Function.update (fun key => (content key).map f) key
      (Option.map f found) = fun k => (Function.update content key found k).map f := by
    intro key found
    funext k
    by_cases same : k = key
    · subst same
      simp
    · simp [Function.update_of_ne same]
  cases op with
  | get key => rfl
  | put key val life idle => exact stored key (some val)
  | putIfAbsent key val life idle =>
    simp only [Op.map, Op.plainStep, Option.isNone_map]
    split
    · exact stored key (some val)
    · rfl
  | replace key val life idle =>
    simp only [Op.map, Op.plainStep, Option.isSome_map]
    split
    · exact stored key (some val)
    · rfl
  | remove key => exact stored key none

/-! ### The reference -/

-- The remote value at the first call that reads the key.
def initial [DecidableEq K] (force : Bool) : List (Call K A V) → K → Option V
  | [], _ => none
  | call :: rest, key =>
    if call.op.key = key ∧ call.op.reads force = true then (call.remote key).map Prod.fst
    else initial force rest key

def AgreeOn (relevant : Op K A → Bool) (calls : List (Call K A V))
    (results expected : List (Option V)) : Prop :=
  ∀ (i : Nat) (call : Call K A V), calls[i]? = some call → relevant call.op = true →
    results[i]? = expected[i]?

theorem agreeOn_cons {relevant : Op K A → Bool} {call : Call K A V} {calls : List (Call K A V)}
    {result expected : Option V} {results rest : List (Option V)} :
    AgreeOn relevant (call :: calls) (result :: results) (expected :: rest) ↔
      (relevant call.op = true → result = expected) ∧ AgreeOn relevant calls results rest := by
  unfold AgreeOn
  constructor
  · intro agree
    constructor
    · intro here
      have first := agree 0 call rfl here
      simpa using first
    · intro i later found here
      have next := agree (i + 1) later (by simpa using found) here
      simpa using next
  · rintro ⟨first, next⟩ i found
    cases i with
    | zero =>
      rintro same here
      cases same
      simpa using first here
    | succ i =>
      intro same here
      simpa using next i found (by simpa using same) here

/-! ### Conditions -/

/-- A condition on each call, its memory and what the plain map holds for its key. -/
def Throughout [DecidableEq K] (holds : Call K A V → Option (Held A V) → Prop)
    (content : K → Option (Held A V)) : List (Call K A V) → Prop
  | [] => True
  | call :: rest => holds call (content call.op.key) ∧
      Throughout holds (call.held.plainStep content) rest

/-- The map before the first call: objects of the transaction's own. -/
def fetched (content : K → Option V) : K → Option (Held A V) :=
  fun key => (content key).map fun value => { value }

theorem fetched_value (content : K → Option V) :
    (fun key => (fetched (A := A) content key).map Held.value) = content := by
  funext key
  cases found : content key <;> simp [fetched, found]

/-! ### The ledger -/

theorem Footprint.after_touched (found : Option V) (op : Op K V) (footprint : Footprint V) :
    footprint.after found op ≠ .untouched := by
  have observed := footprint.observe_touched found
  cases op with
  | get key => exact observed
  | put key val life idle => simp [Footprint.after]
  | putIfAbsent key val life idle =>
    simp only [Footprint.after]
    split
    · simp
    · exact observed
  | replace key val life idle =>
    simp only [Footprint.after]
    split
    · simp
    · exact observed
  | remove key => simp [Footprint.after]

theorem Footprint.content_after [DecidableEq K] {force : Bool} {found : Option V} {op : Op K V}
    {footprint : Footprint V} {content : K → Option V}
    (seen : op.reads force = true → content op.key = (footprint.observe found).content) :
    (footprint.after found op).content = op.plainStep content op.key := by
  cases op with
  | get key => exact (seen rfl).symm
  | put key val life idle => simp [Footprint.after, Footprint.content, Op.plainStep, Op.key]
  | putIfAbsent key val life idle =>
    have same : content key = _ := seen rfl
    simp only [Footprint.after, Op.plainStep, Op.key, same]
    split
    · simp [Footprint.content]
    · exact same.symm
  | replace key val life idle =>
    have same : content key = _ := seen rfl
    simp only [Footprint.after, Op.plainStep, Op.key, same]
    split
    · simp [Footprint.content]
    · exact same.symm
  | remove key => simp [Footprint.after, Footprint.content, Op.plainStep, Op.key]

theorem Op.plainStep_of_ne [DecidableEq K] (op : Op K V) (content : K → Option V) {key : K}
    (other : key ≠ op.key) : op.plainStep content key = content key := by
  cases op with
  | get k => rfl
  | put k val life idle => exact Function.update_of_ne other _ _
  | putIfAbsent k val life idle =>
    simp only [Op.plainStep]
    split
    · exact Function.update_of_ne other _ _
    · rfl
  | replace k val life idle =>
    simp only [Op.plainStep]
    split
    · exact Function.update_of_ne other _ _
    · rfl
  | remove k => exact Function.update_of_ne other _ _

variable [LinearOrder K]

/-- What the transaction sees of each key, an untouched one by its first read to come. -/
def Ledger.view (force : Bool) (calls : List (Call K A V)) (ledger : Ledger K (Held A V)) :
    K → Option (Held A V) := fun key =>
  match ledger key with
  | .untouched => (initial force calls key).map fun value => { value }
  | .read content | .wrote content => content

theorem view_of_touched {force : Bool} {calls : List (Call K A V)} {ledger : Ledger K (Held A V)}
    {key : K} (touched : ledger key ≠ .untouched) :
    ledger.view force calls key = (ledger key).content := by
  unfold Ledger.view
  cases seen : ledger key with
  | untouched => exact absurd seen touched
  | read content => rfl
  | wrote content => rfl

theorem view_of_reads {force : Bool} {call : Call K A V} (rest : List (Call K A V))
    (ledger : Ledger K (Held A V)) (reads : call.op.reads force = true) :
    ledger.view force (call :: rest) call.op.key =
      ((ledger call.op.key).observe ((call.remote.held call.op.key).map Prod.fst)).content := by
  cases seen : ledger call.op.key with
  | untouched =>
    have first : initial force (call :: rest) call.op.key =
        (call.remote call.op.key).map Prod.fst := by
      simp [initial, reads]
    simp only [Ledger.view, seen, first, Footprint.observe, Footprint.content, Remote.held]
    cases call.remote call.op.key <;> rfl
  | read content => simp [Ledger.view, seen, Footprint.observe, Footprint.content]
  | wrote content => simp [Ledger.view, seen, Footprint.observe, Footprint.content]

theorem view_of_ne {force : Bool} {call : Call K A V} (rest : List (Call K A V))
    (ledger : Ledger K (Held A V)) {key : K} (other : key ≠ call.op.key) :
    (ledger.step call.remote.held call.held).view force rest key =
      ledger.view force (call :: rest) key := by
  have later : initial force (call :: rest) key = initial force rest key := by
    simp [initial, Ne.symm other]
  simp [Ledger.view, Ledger.step, Function.update_of_ne other, later]

theorem plainStep_view (force : Bool) (call : Call K A V) (rest : List (Call K A V))
    (ledger : Ledger K (Held A V)) :
    call.held.plainStep (ledger.view force (call :: rest)) =
      (ledger.step call.remote.held call.held).view force rest := by
  funext key
  by_cases same : key = call.op.key
  · subst same
    have stepped : ledger.step call.remote.held call.held call.op.key =
        (ledger call.op.key).after ((call.remote.held call.op.key).map Prod.fst) call.held := by
      simp [Ledger.step]
    -- the call touches its key, so the first read to come no longer matters
    have touched := Footprint.after_touched ((call.remote.held call.op.key).map Prod.fst) call.held
      (ledger call.op.key)
    have seen : call.held.reads force = true → ledger.view force (call :: rest) call.held.key =
        ((ledger call.op.key).observe ((call.remote.held call.op.key).map Prod.fst)).content := by
      intro reads
      rw [Call.held_reads] at reads
      rw [Call.held_key]
      exact view_of_reads rest ledger reads
    rw [view_of_touched (stepped ▸ touched), stepped, Footprint.content_after seen, Call.held_key]
  · rw [view_of_ne rest ledger same]
    exact Op.plainStep_of_ne _ _ (by rwa [Call.held_key])

/-! ### Runs -/

variable {force : Bool} {marshal : V → Except Exn Bytes} {atPrepare : A → V}

/-- The transaction goes through, and the calls that matter return what the plain map does. -/
def AgreesOn (cache : Handle (Pointer A V)) (relevant : Op K A → Bool)
    (calls : List (Call K A V)) (tc : TransactionContext K (Pointer A V))
    (expected : List (Option V)) : Prop :=
  ∃ results tc', runCalls cache .ACTIVE calls tc = .ok results tc' ∧
    AgreeOn relevant calls results expected

theorem spares_view_iff (call : Call K A V) (calls : List (Call K A V))
    (ledger : Ledger K (Held A V)) :
    call.Spares (ledger.view force calls call.op.key) ↔
      call.Spares (ledger call.op.key).content := by
  unfold Ledger.view
  cases ledger call.op.key with
  | untouched =>
    cases initial force calls call.op.key <;> simp [Call.Spares, Footprint.content]
  | read content => rfl
  | wrote content => rfl

-- The calls that matter agree with the plain map exactly when each of them meets the condition
-- under which a single call does, and no call writes over an object of the caller's.
theorem runCalls_agree_iff {relevant : Op K A → Bool}
    {holds : Call K A V → Option (Held A V) → Prop}
    (reads : ∀ op, relevant op = true → op.reads force = true)
    (one : ∀ (call : Call K A V) seen, call.Spares seen → ((relevant call.op = true →
      (call.op.answer force (seen.map Held.pointer)).map
        (Pointer.read call.memory) = seen.map Held.value) ↔ holds call seen))
    {ledger : Ledger K (Held A V)} {tc : TransactionContext K (Pointer A V)}
    (refines : Refines (pointerHandle force marshal atPrepare) ledger.pointers tc)
    (calls : List (Call K A V)) :
    AgreesOn (pointerHandle force marshal atPrepare) relevant calls tc (plainRun
        (fun key => (ledger.view force calls key).map Held.value) (calls.map Call.plain)) ↔
      Throughout (fun call seen => call.Spares seen ∧ holds call seen)
        (ledger.view force calls) calls := by
  induction calls generalizing ledger tc with
  | nil => exact iff_of_true ⟨[], tc, rfl, fun i call found => by cases found⟩ trivial
  | cons call rest ih =>
    rw [Throughout, spares_view_iff, and_assoc]
    by_cases spares : call.Spares (ledger call.op.key).content
    · obtain ⟨middle, first, refines'⟩ := call.run_refines refines spares
      have own : call.Spares (ledger.view force (call :: rest) call.op.key) :=
        (spares_view_iff call (call :: rest) ledger).mpr spares
      have single := one call _ own
      rw [and_iff_right spares, plainStep_view, ← ih refines', List.map_cons, plainRun,
        ← call.held_value, Op.plainStep_map, plainStep_view, Op.plainResult, Op.key_map,
        Call.held_key, ← single]
      constructor
      · rintro ⟨results, tc', returned, agree⟩
        rw [runCalls, bind_of_ok first] at returned
        obtain ⟨others, tc'', later, done⟩ := exists_of_bind returned
        cases done
        obtain ⟨here, next⟩ := agreeOn_cons.mp agree
        refine ⟨fun matters => ?_, others, tc', later, next⟩
        -- what a relevant call observes is what the plain map holds for its key
        rw [view_of_reads rest ledger (reads _ matters)] at here ⊢
        exact here matters
      · rintro ⟨here, others, tc', later, next⟩
        refine ⟨_, tc', by rw [runCalls, bind_of_ok first, bind_of_ok later, pure_apply], ?_⟩
        refine agreeOn_cons.mpr ⟨fun matters => ?_, next⟩
        rw [view_of_reads rest ledger (reads _ matters)] at here ⊢
        exact here matters
    · obtain ⟨tc', raise⟩ := call.run_foreign refines spares
      refine iff_of_false ?_ fun all => spares all.1
      rintro ⟨results, tc'', returned, -⟩
      rw [runCalls, bind_of_error raise] at returned
      cases returned

def Op.isGet : Op K V → Bool
  | .get _ => true
  | _ => false

theorem view_fresh (force : Bool) (calls : List (Call K A V)) :
    Ledger.fresh.view force calls = fetched (initial force calls) := rfl

theorem refines_pointers_fresh (cache : Handle (Pointer A V)) :
    Refines cache (Ledger.fresh : Ledger K (Held A V)).pointers SortedMap.empty :=
  refines_fresh cache

/-- Reads are those of a private map exactly when no get meets an object that `replace`
has left with the caller and that has changed since, and no call writes over one. -/
theorem gets_like_private_map_iff (force : Bool) (marshal : V → Except Exn Bytes)
    (atPrepare : A → V) (calls : List (Call K A V)) :
    AgreesOn (pointerHandle force marshal atPrepare) Op.isGet calls SortedMap.empty
        (plainRun (initial force calls) (calls.map Call.plain)) ↔
      Throughout (fun call seen => call.Spares seen ∧
          (call.op.isGet = true → Unmoved call.memory seen))
        (fetched (initial force calls)) calls := by
  have reads : ∀ op : Op K A, op.isGet = true → op.reads force = true := by
    intro op
    cases op <;> simp [Op.isGet, Op.reads]
  have one : ∀ (call : Call K A V) seen, call.Spares seen → ((call.op.isGet = true →
      (call.op.answer force (seen.map Held.pointer)).map
        (Pointer.read call.memory) = seen.map Held.value) ↔
      (call.op.isGet = true → Unmoved call.memory seen)) := by
    intro call seen _
    rw [← read_pointers_iff]
    cases call.op <;> simp [Op.isGet, Op.answer]
  have agree := runCalls_agree_iff reads one
    (refines_pointers_fresh (pointerHandle force marshal atPrepare)) calls
  rwa [view_fresh, fetched_value] at agree

/-- A `putIfAbsent` returns no previous value, so there must be none. -/
def Call.Inserts (call : Call K A V) (seen : Option (Held A V)) : Prop :=
  match call.op with
  | .putIfAbsent .. => seen = none
  | _ => True

theorem unmoved_of_own {memory : A → V} {seen : Option (Held A V)}
    (own : ∀ held ∈ seen, held.owner = none) : Unmoved memory seen := by
  intro held member a lent
  rw [own held member] at lent
  cases lent

/-- With `forceReturnValue` the writes return what a plain map returns exactly when every
`putIfAbsent` inserts and no write meets an object of the caller's. -/
theorem writes_return_previous_iff (marshal : V → Except Exn Bytes) (atPrepare : A → V)
    (calls : List (Call K A V)) :
    AgreesOn (pointerHandle true marshal atPrepare) (fun op => !op.isGet) calls SortedMap.empty
        (plainRun (initial true calls) (calls.map Call.plain)) ↔
      Throughout (fun call seen => call.Spares seen ∧ call.Inserts seen)
        (fetched (initial true calls)) calls := by
  have reads : ∀ op : Op K A, (!op.isGet) = true → op.reads true = true := by
    intro op
    cases op <;> simp [Op.isGet, Op.reads]
  have one : ∀ (call : Call K A V) seen, call.Spares seen → (((!call.op.isGet) = true →
      (call.op.answer true (seen.map Held.pointer)).map
        (Pointer.read call.memory) = seen.map Held.value) ↔ call.Inserts seen) := by
    intro call seen spares
    obtain ⟨remote, memory, op⟩ := call
    cases op with
    | get key => simp [Op.isGet, Call.Inserts]
    | putIfAbsent key a life idle =>
      cases seen <;> simp [Op.isGet, Op.answer, Call.Inserts]
    | put key a life idle | replace key a life idle | remove key =>
      have unmoved := (read_pointers_iff memory seen).mpr (unmoved_of_own (spares rfl))
      exact iff_of_true (fun _ => unmoved) trivial
  have agree := runCalls_agree_iff reads one
    (refines_pointers_fresh (pointerHandle true marshal atPrepare)) calls
  rwa [view_fresh, fetched_value] at agree

def numbers : Handle (Pointer Unit Nat) := pointerHandle true (fun _ => .ok []) fun _ => 0

def changedObject : List (Call Nat Unit Nat) :=
  [{ remote := fun _ => some (1, {}), memory := fun _ => 2, op := .replace 0 () 0 0 },
    { remote := fun _ => some (1, {}), memory := fun _ => 3, op := .get 0 }]

theorem get_returns_changed_object :
    ¬ AgreesOn numbers Op.isGet changedObject SortedMap.empty
      (plainRun (initial true changedObject) (changedObject.map Call.plain)) := by
  rintro ⟨results, tc, returned, agree⟩
  have ran : runCalls numbers .ACTIVE changedObject SortedMap.empty = .ok [some 1, some 3] _ := rfl
  rw [ran] at returned
  injection returned with same
  subst same
  have second := agree 1 _ rfl rfl
  revert second
  decide

def presentKey : List (Call Nat Unit Nat) :=
  [{ remote := fun _ => some (1, {}), memory := fun _ => 2, op := .putIfAbsent 0 () 0 0 }]

theorem putIfAbsent_returns_null :
    ¬ AgreesOn numbers (fun op => !op.isGet) presentKey SortedMap.empty
      (plainRun (initial true presentKey) (presentKey.map Call.plain)) := by
  rintro ⟨results, tc, returned, agree⟩
  have ran : runCalls numbers .ACTIVE presentKey SortedMap.empty = .ok [none] _ := rfl
  rw [ran] at returned
  injection returned with same
  subst same
  have first := agree 0 _ rfl rfl
  revert first
  decide

end HotRod.Transactions
