import HotRod.Transactions.Entries

/-! The footprint of a transaction: what it has read of each key and what it
has made of it. The ledger is what the context is for, stated from the calls
alone; `Refines` ties every context the calls build to it. -/

set_option autoImplicit false

namespace HotRod.Transactions

open Semantics.Execution TransactionContext

variable {K V : Type}

inductive Footprint (V : Type) where
  | untouched
  | read (content : Option V)
  | wrote (content : Option V)
  deriving DecidableEq, Repr

namespace Footprint

def content : Footprint V → Option V
  | .untouched => none
  | .read content | .wrote content => content

-- The first read of a key fixes what the transaction sees of it.
def observe (found : Option V) : Footprint V → Footprint V
  | .untouched => .read found
  | seen => seen

/-- The meaning of each call on the key it names. -/
def after (found : Option V) (op : Op K V) (footprint : Footprint V) : Footprint V :=
  match op with
  | .get _ => footprint.observe found
  | .put _ val _ _ => .wrote (some val)
  | .putIfAbsent _ val _ _ =>
    if (footprint.observe found).content.isNone then .wrote (some val) else footprint.observe found
  | .replace _ val _ _ =>
    if (footprint.observe found).content.isSome then .wrote (some val) else footprint.observe found
  | .remove _ => .wrote none

/-- The object that a call deletes, if there is one, is one to be deleted. -/
def deletes (destructor : V → Bool) (force : Bool) (found : Option V) (op : Op K V)
    (footprint : Footprint V) : Bool :=
  match op with
  | .get _ | .putIfAbsent .. => true
  | .replace .. => (footprint.observe found).content.all destructor
  | .put .. | .remove _ =>
    (if force then footprint.observe found else footprint).content.all destructor

def answer (force : Bool) (found : Option V) (op : Op K V) (footprint : Footprint V) : Option V :=
  op.answer force (footprint.observe found).content

end Footprint

theorem observe_of_touched (found : Option V) {footprint : Footprint V}
    (touched : footprint ≠ .untouched) : footprint.observe found = footprint := by
  cases footprint with
  | untouched => exact absurd rfl touched
  | read content => rfl
  | wrote content => rfl

theorem Footprint.observe_touched (found : Option V) (footprint : Footprint V) :
    footprint.observe found ≠ .untouched := by
  cases footprint <;> simp [Footprint.observe]

def Tracks (cache : Handle V) : Footprint V → Option (ContextEntry V) → Prop
  | .untouched, found => found = none
  | .read content, found => ∃ ce, found = some ce ∧ ce.action = .set ∧ ce.value = content ∧
      ce.deleter = some cache.valueDestructor ∧
      ce.valueMarshaller = some cache.valueMarshaller ∧ ce.controlByte &&& ControlBit.REMOVE_OP = 0
  | .wrote (some v), found => ∃ ce, found = some ce ∧ ce.action = .set ∧ ce.value = some v ∧
      ce.deleter = some cache.valueDestructor ∧
      ce.valueMarshaller = some cache.valueMarshaller ∧ ce.controlByte &&& ControlBit.REMOVE_OP = 0
  | .wrote none, found => ∃ ce, found = some ce ∧ ce.action = .deleted ∧ ce.value = none ∧
      ce.controlByte &&& ControlBit.REMOVE_OP = 0

variable {cache : Handle V}

theorem Tracks.entry {footprint : Footprint V} {held : Option (ContextEntry V)}
    (tracks : Tracks cache footprint held) (touched : footprint ≠ .untouched) :
    ∃ ce, held = some ce ∧ visible ce = footprint.content ∧
      ce.deletable = footprint.content.all cache.valueDestructor ∧
      ce.controlByte &&& ControlBit.REMOVE_OP = 0 := by
  cases footprint with
  | untouched => exact absurd rfl touched
  | read content =>
    obtain ⟨ce, rfl, action, value, deleter, -, bit⟩ := tracks
    refine ⟨ce, rfl, by simp [visible, action, value, Footprint.content], ?_, bit⟩
    cases content <;> simp [ContextEntry.deletable, value, deleter, Footprint.content]
  | wrote content =>
    cases content with
    | none =>
      obtain ⟨ce, rfl, action, value, bit⟩ := tracks
      exact ⟨ce, rfl, by simp [visible, action, Footprint.content],
        by simp [ContextEntry.deletable, value, Footprint.content], bit⟩
    | some v =>
      obtain ⟨ce, rfl, action, value, deleter, -, bit⟩ := tracks
      exact ⟨ce, rfl, by simp [visible, action, value, Footprint.content],
        by simp [ContextEntry.deletable, value, deleter, Footprint.content], bit⟩

theorem none_bit : ControlBit.NONE &&& ControlBit.REMOVE_OP = 0 := by decide

theorem not_read_bit :
    (ControlBit.NONE ||| ControlBit.NOT_READ) &&& ControlBit.REMOVE_OP = 0 := by decide

theorem readEntry_bit (cache : Handle V) (found : Option (V × MetadataValue)) :
    (readEntry cache found).controlByte &&& ControlBit.REMOVE_OP = 0 := by
  simp only [readEntry]
  split <;> decide

theorem Tracks.observed {footprint : Footprint V} {held : Option (ContextEntry V)}
    (tracks : Tracks cache footprint held) (found : Option (V × MetadataValue)) :
    Tracks cache (footprint.observe (found.map Prod.fst)) (some (observed cache found held)) := by
  by_cases touched : footprint = .untouched
  · subst touched
    have absent : held = none := tracks
    subst absent
    exact ⟨_, rfl, rfl, rfl, rfl, rfl, readEntry_bit cache found⟩
  · obtain ⟨ce, rfl, -⟩ := tracks.entry touched
    rw [observe_of_touched _ touched]
    exact tracks

theorem Tracks.visible_observed {footprint : Footprint V} {held : Option (ContextEntry V)}
    (tracks : Tracks cache footprint held) (found : Option (V × MetadataValue)) :
    visible (Transactions.observed cache found held) =
      (footprint.observe (found.map Prod.fst)).content := by
  obtain ⟨ce, same, shown, -⟩ := (tracks.observed found).entry (footprint.observe_touched _)
  cases same
  exact shown

theorem Tracks.deletable_observed {footprint : Footprint V} {held : Option (ContextEntry V)}
    (tracks : Tracks cache footprint held) (found : Option (V × MetadataValue)) :
    (Transactions.observed cache found held).deletable =
      (footprint.observe (found.map Prod.fst)).content.all cache.valueDestructor := by
  obtain ⟨ce, same, -, deletable, -⟩ := (tracks.observed found).entry (footprint.observe_touched _)
  cases same
  exact deletable

theorem Tracks.deletable {footprint : Footprint V} {held : Option (ContextEntry V)}
    (tracks : Tracks cache footprint held) :
    held.all ContextEntry.deletable = footprint.content.all cache.valueDestructor ∧
      (held.getD {}).deletable = footprint.content.all cache.valueDestructor := by
  by_cases touched : footprint = .untouched
  · subst touched
    have absent : held = none := tracks
    subst absent
    exact ⟨rfl, rfl⟩
  · obtain ⟨ce, rfl, -, deletable, -⟩ := tracks.entry touched
    exact ⟨deletable, deletable⟩

theorem Tracks.deletes {footprint : Footprint V} {held : Option (ContextEntry V)}
    (tracks : Tracks cache footprint held) (found : Option (V × MetadataValue)) (op : Op K V) :
    op.deletes cache found held =
      footprint.deletes cache.valueDestructor cache.forceReturnValue (found.map Prod.fst) op := by
  have shown := tracks.visible_observed found
  have deletable := tracks.deletable_observed found
  cases op with
  | get key => rfl
  | put key val life idle =>
    cases force : cache.forceReturnValue with
    | false => simp [Op.deletes, Footprint.deletes, force, tracks.deletable.1]
    | true => simp [Op.deletes, Footprint.deletes, force, deletable]
  | putIfAbsent key val life idle =>
    simp only [Op.deletes, Footprint.deletes, shown, deletable]
    cases (footprint.observe (found.map Prod.fst)).content <;> simp
  | replace key val life idle =>
    simp only [Op.deletes, Footprint.deletes, shown, deletable]
    cases (footprint.observe (found.map Prod.fst)).content <;> simp
  | remove key =>
    cases force : cache.forceReturnValue with
    | false => simp [Op.deletes, Footprint.deletes, force, tracks.deletable.2]
    | true => simp [Op.deletes, Footprint.deletes, force, deletable]

theorem Tracks.bit {footprint : Footprint V} {held : Option (ContextEntry V)}
    (tracks : Tracks cache footprint held) :
    (held.getD {}).controlByte &&& ControlBit.REMOVE_OP = 0 := by
  by_cases touched : footprint = .untouched
  · subst touched
    have absent : held = none := tracks
    subst absent
    exact none_bit
  · obtain ⟨ce, rfl, -, -, bit⟩ := tracks.entry touched
    exact bit

theorem Tracks.setEntry {footprint : Footprint V} {ce : ContextEntry V}
    (tracks : Tracks cache footprint (some ce)) (val : V) (life idle : Int) :
    Tracks cache (.wrote (some val)) (some (setEntry cache ce val life idle)) :=
  ⟨_, rfl, rfl, rfl, rfl, rfl, tracks.bit⟩

theorem Tracks.storeEntry {footprint : Footprint V} {held : Option (ContextEntry V)}
    (tracks : Tracks cache footprint held) (val : V) (life idle : Int) :
    Tracks cache (.wrote (some val)) (some (storeEntry cache val life idle held)) := by
  cases held with
  | none => exact ⟨_, rfl, rfl, rfl, rfl, rfl, not_read_bit⟩
  | some ce => exact tracks.setEntry val life idle

theorem Tracks.deletedEntry {footprint : Footprint V} {held : Option (ContextEntry V)}
    (tracks : Tracks cache footprint held) :
    Tracks cache (.wrote none) (some (deletedEntry (held.getD {}))) :=
  ⟨_, rfl, rfl, rfl, tracks.bit⟩

theorem Tracks.entryAfter {footprint : Footprint V} {held : Option (ContextEntry V)}
    (tracks : Tracks cache footprint held) (found : Option (V × MetadataValue)) (op : Op K V) :
    Tracks cache (footprint.after (found.map Prod.fst) op)
      (some (op.entryAfter cache found held)) := by
  have observed := tracks.observed found
  have shown := tracks.visible_observed found
  cases op with
  | get key => exact observed
  | put key val life idle =>
    -- the flag decides whether the key is read before it is written
    cases force : cache.forceReturnValue with
    | false => simpa [Op.entryAfter, Footprint.after, force] using tracks.storeEntry val life idle
    | true => simpa [Op.entryAfter, Footprint.after, force] using observed.storeEntry val life idle
  | putIfAbsent key val life idle =>
    simp only [Op.entryAfter, Footprint.after, shown]
    split
    · exact observed.setEntry val life idle
    · exact observed
  | replace key val life idle =>
    simp only [Op.entryAfter, Footprint.after, shown]
    split
    · exact observed.setEntry val life idle
    · exact observed
  | remove key =>
    cases force : cache.forceReturnValue with
    | false => simpa [Op.entryAfter, Footprint.after, force] using tracks.deletedEntry
    | true => simpa [Op.entryAfter, Footprint.after, force] using observed.deletedEntry

variable [LinearOrder K]

abbrev Ledger (K V : Type) := K → Footprint V

def Ledger.step (remote : Remote K V) (op : Op K V) (ledger : Ledger K V) : Ledger K V :=
  Function.update ledger op.key ((ledger op.key).after ((remote op.key).map Prod.fst) op)

/-- The ledger of a transaction, from its calls alone. -/
def Ledger.of (ledger : Ledger K V) (calls : List (Remote K V × Op K V)) : Ledger K V :=
  calls.foldl (fun ledger call => ledger.step call.1 call.2) ledger

def Ledger.answers (force : Bool) (ledger : Ledger K V) :
    List (Remote K V × Op K V) → List (Option V)
  | [] => []
  | (remote, op) :: rest => (ledger op.key).answer force ((remote op.key).map Prod.fst) op ::
      answers force (ledger.step remote op) rest

def Ledger.fresh : Ledger K V := fun _ => .untouched

/-- The context holds exactly the footprints of the ledger. -/
def Refines (cache : Handle V) (ledger : Ledger K V) (tc : TransactionContext K V) : Prop :=
  ∀ key, Tracks cache (ledger key) (tc.get? key)

variable {ledger : Ledger K V} {tc : TransactionContext K V}

theorem refines_fresh (cache : Handle V) :
    Refines cache Ledger.fresh (SortedMap.empty : TransactionContext K V) := fun _ => rfl

theorem Refines.insert (refines : Refines cache ledger tc) {key : K} {footprint : Footprint V}
    {ce : ContextEntry V} (tracks : Tracks cache footprint (some ce)) :
    Refines cache (Function.update ledger key footprint) (tc.insert key ce) := by
  intro k
  by_cases same : k = key
  · subst same
    simpa using tracks
  · rw [Function.update_of_ne same, SortedMap.get?_insert_of_ne _ _ same]
    exact refines k

/-- The call finds an object to delete where it deletes one. -/
def Ledger.deletes (cache : Handle V) (ledger : Ledger K V) (remote : Remote K V) (op : Op K V) :
    Bool :=
  (ledger op.key).deletes cache.valueDestructor cache.forceReturnValue
    ((remote op.key).map Prod.fst) op

def Ledger.deletesAll (cache : Handle V) (ledger : Ledger K V) :
    List (Remote K V × Op K V) → Bool
  | [] => true
  | (remote, op) :: rest =>
    ledger.deletes cache remote op && deletesAll cache (ledger.step remote op) rest

-- Every call does to the context what it means for the ledger, and returns its answer.
theorem Op.run_refines (refines : Refines cache ledger tc) {remote : Remote K V} {op : Op K V}
    (deletes : ledger.deletes cache remote op = true) :
    ∃ tc', op.run cache .ACTIVE remote tc = .ok ((ledger op.key).answer cache.forceReturnValue
        ((remote op.key).map Prod.fst) op) tc' ∧
      Refines cache (ledger.step remote op) tc' := by
  refine ⟨_, ?_, refines.insert ((refines op.key).entryAfter (remote op.key) op)⟩
  have runs := ((refines op.key).deletes (remote op.key) op).trans deletes
  rw [Op.run_eq, if_pos runs, (refines op.key).visible_observed]
  rfl

theorem Op.run_foreign (refines : Refines cache ledger tc) {remote : Remote K V} {op : Op K V}
    (foreign : ledger.deletes cache remote op = false) :
    ∃ tc', op.run cache .ACTIVE remote tc = .error .foreignDelete tc' := by
  have meets := ((refines op.key).deletes (remote op.key) op).trans foreign
  rw [Op.run_eq, if_neg (Bool.not_eq_true _ ▸ meets)]
  exact ⟨_, rfl⟩

/-- A run of calls returns what the ledger answers, and leaves a context that refines the
ledger after them. -/
theorem runOps_refines (refines : Refines cache ledger tc) {calls : List (Remote K V × Op K V)}
    (deletes : ledger.deletesAll cache calls = true) :
    ∃ tc', runOps cache .ACTIVE calls tc =
        .ok (ledger.answers cache.forceReturnValue calls) tc' ∧
      Refines cache (ledger.of calls) tc' := by
  induction calls generalizing ledger tc with
  | nil => exact ⟨tc, rfl, refines⟩
  | cons call rest ih =>
    obtain ⟨remote, op⟩ := call
    obtain ⟨here, later⟩ := Bool.and_eq_true_iff.mp deletes
    obtain ⟨middle, first, refines'⟩ := Op.run_refines refines here
    obtain ⟨tc', last, done⟩ := ih refines' later
    refine ⟨tc', ?_, done⟩
    rw [runOps, bind_of_ok first, bind_of_ok last, pure_apply, Ledger.answers]

/-- A run in which some call would delete an object of the caller's ends there. -/
theorem runOps_foreign (refines : Refines cache ledger tc) {calls : List (Remote K V × Op K V)}
    (foreign : ledger.deletesAll cache calls = false) :
    ∃ tc', runOps cache .ACTIVE calls tc = .error .foreignDelete tc' := by
  induction calls generalizing ledger tc with
  | nil => cases foreign
  | cons call rest ih =>
    obtain ⟨remote, op⟩ := call
    cases here : ledger.deletes cache remote op with
    | false =>
      obtain ⟨tc', raise⟩ := Op.run_foreign refines here
      exact ⟨tc', by rw [runOps, bind_of_error raise]⟩
    | true =>
      have later : (ledger.step remote op).deletesAll cache rest = false := by
        simpa [Ledger.deletesAll, here] using foreign
      obtain ⟨middle, first, refines'⟩ := Op.run_refines refines here
      obtain ⟨tc', raise⟩ := ih refines' later
      exact ⟨tc', by rw [runOps, bind_of_ok first, bind_of_error raise]⟩

end HotRod.Transactions
