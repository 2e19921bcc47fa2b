import HotRod.Counters.Service
import HotRod.Data.FiniteMap

/-! A server whose counters stop at their bounds.

`boundedCounters` is one of the services that a client may talk to. Which bound an addition
meets shows in its sign. For a swap the client goes by the upper bound of its handle, which
was read when the handle was constructed; a handle of the counter that is there is right. -/

set_option autoImplicit false

namespace HotRod.Counters

open Semantics.Execution Semantics.Machines
open Operations Protocol
open RemoteCounterManagerImpl

/-! ### Counters -/

def lowest (c : CounterConfiguration) : Int64 :=
  if c.type = .boundedStrong then c.lowerBound.toInt64 else Int64.minValue

def highest (c : CounterConfiguration) : Int64 :=
  if c.type = .boundedStrong then c.upperBound.toInt64 else Int64.maxValue

structure BoundedCounter where
  configuration : CounterConfiguration
  value : Int64
  above : lowest configuration ≤ value
  below : value ≤ highest configuration

namespace BoundedCounter

variable (c : BoundedCounter)

-- A configuration whose bounds do not admit its initial value makes no counter.
def ofConfiguration (configuration : CounterConfiguration) : Option BoundedCounter :=
  if above : lowest configuration ≤ configuration.initialValue.toInt64 then
    if below : configuration.initialValue.toInt64 ≤ highest configuration then
      some { configuration, value := configuration.initialValue.toInt64, above, below }
    else none
  else none

theorem ordered : lowest c.configuration ≤ highest c.configuration :=
  Int64.le_trans c.above c.below

-- What is added goes no further than the bound.
def add (delta : Int64) : Outcome × BoundedCounter :=
  if high : (highest c.configuration).toInt < c.value.toInt + delta.toInt then
    (.upperBoundReached, { c with
      value := highest c.configuration, above := c.ordered, below := Int64.le_refl _ })
  else if low : c.value.toInt + delta.toInt < (lowest c.configuration).toInt then
    (.lowerBoundReached, { c with
      value := lowest c.configuration, above := Int64.le_refl _, below := c.ordered })
  else
    have within : (Int64.ofInt (c.value.toInt + delta.toInt)).toInt = c.value.toInt + delta.toInt :=
      Int64.toInt_ofInt_of_le
        (Int.le_trans (Int64.minValue_le_toInt (lowest c.configuration)) (Int.not_lt.mp low))
        (Int.lt_of_le_of_lt (Int.not_lt.mp high) (Int64.toInt_lt (highest c.configuration)))
    (.value (Int64.ofInt (c.value.toInt + delta.toInt)), { c with
      value := Int64.ofInt (c.value.toInt + delta.toInt)
      above := by rw [Int64.le_iff_toInt_le, within]; exact Int.not_lt.mp low
      below := by rw [Int64.le_iff_toInt_le, within]; exact Int.not_lt.mp high })

-- The value before is the answer, and stays where a bound is in the way.
def swap (expect update : Int64) : Outcome × BoundedCounter :=
  if c.value ≠ expect then (.value c.value, c)
  else if high : highest c.configuration < update then (.upperBoundReached, c)
  else if low : update < lowest c.configuration then (.lowerBoundReached, c)
  else (.value c.value, { c with
    value := update, above := Int64.not_lt.mp low, below := Int64.not_lt.mp high })

def restart : BoundedCounter := (ofConfiguration c.configuration).getD c

end BoundedCounter

abbrev BoundedCounters := FiniteMap (List UInt8) BoundedCounter

namespace BoundedCounters

-- What a counter does, if there is one.
def update {R : Type} (counters : BoundedCounters) (name : List UInt8) (absent : R)
    (f : BoundedCounter → R × BoundedCounter) : R × BoundedCounters :=
  match counters.lookup name with
  | none => (absent, counters)
  | some counter => ((f counter).1, counters.insert name (f counter).2)

end BoundedCounters

def boundedCounters : CounterService BoundedCounters where
  create counters name configuration :=
    match counters.lookup name, BoundedCounter.ofConfiguration configuration with
    | none, some counter => (true, counters.insert name counter)
    | _, _ => (false, counters)
  configuration counters name := (counters.lookup name).map BoundedCounter.configuration
  value counters name := (counters.lookup name).map BoundedCounter.value
  addAndGet counters name delta := counters.update name .undefined (·.add delta)
  compareAndSwap counters name expect update :=
    counters.update name .undefined (·.swap expect update)
  reset counters name := counters.update name false fun counter => (true, counter.restart)
  remove counters name := ((counters.lookup name).isSome, counters.erase name)

/-! ### Handles of the counters that are there -/

/-- The handle knows the upper bound that its counter has; other calls than swaps do not
go by it. -/
def Current (counters : BoundedCounters) (c : CounterCall) : Prop :=
  match c.call with
  | .compareAndSwap _ _ | .compareAndSet _ _ =>
    ∀ counter, counters.lookup c.counter.name = some counter →
      counter.configuration.type = .boundedStrong →
        c.counter.configuration.upperBound = counter.configuration.upperBound
  | _ => True

namespace BoundedCounter

theorem add_apparent (c : BoundedCounter) (delta : Int64) :
    (c.add delta).1.Apparent (decide (0 < delta)) := by
  have above := Int64.le_iff_toInt_le.mp c.above
  have below := Int64.le_iff_toInt_le.mp c.below
  have sign : 0 < delta ↔ 0 < delta.toInt := Int64.lt_iff_toInt_lt
  unfold add
  split
  · have positive : 0 < delta := sign.mpr (by omega)
    exact decide_eq_true positive
  · split
    · have negative : ¬ 0 < delta := fun positive => by have := sign.mp positive; omega
      exact decide_eq_false negative
    · trivial

theorem swap_apparent (c : BoundedCounter) (expect update upperBound : Int64)
    (current : c.configuration.type = .boundedStrong → upperBound = highest c.configuration) :
    (c.swap expect update).1.Apparent (decide (upperBound ≤ update)) := by
  have bounded : lowest c.configuration ≠ Int64.minValue ∨
      highest c.configuration ≠ Int64.maxValue → c.configuration.type = .boundedStrong := by
    intro other
    by_contra unbounded
    rw [lowest, highest, if_neg unbounded, if_neg unbounded] at other
    simp at other
  unfold swap
  split
  · trivial
  split
  · next high =>
    have reached : highest c.configuration ≠ Int64.maxValue := fun extreme =>
      absurd (extreme ▸ high) (Int64.not_lt.mpr (Int64.le_maxValue update))
    rw [current (bounded (.inr reached))]
    exact decide_eq_true (Int64.le_of_lt high)
  split
  · next low =>
    have reached : lowest c.configuration ≠ Int64.minValue := fun extreme =>
      absurd (extreme ▸ low) (Int64.not_lt.mpr (Int64.minValue_le update))
    rw [current (bounded (.inl reached))]
    exact decide_eq_false (Int64.not_le.mpr (Int64.lt_of_lt_of_le low c.ordered))
  · trivial

end BoundedCounter

theorem apparent_of_current {counters : BoundedCounters} {c : CounterCall}
    (current : Current counters c) : Apparent boundedCounters counters c := by
  obtain ⟨o, sendable, counter, named, call⟩ := c
  have added : ∀ delta : Int64, (boundedCounters.addAndGet counters counter.name delta).1.Apparent
      (decide (0 < delta)) := by
    intro delta
    simp only [boundedCounters, BoundedCounters.update]
    cases counters.lookup counter.name with
    | none => trivial
    | some there => exact there.add_apparent delta
  have swapped : (∀ there, counters.lookup counter.name = some there →
        there.configuration.type = .boundedStrong →
          counter.configuration.upperBound = there.configuration.upperBound) →
      ∀ expect update,
        (boundedCounters.compareAndSwap counters counter.name expect update).1.Apparent
          (decide (counter.configuration.upperBound.toInt64 ≤ update)) := by
    intro current expect update
    simp only [boundedCounters, BoundedCounters.update]
    cases found : counters.lookup counter.name with
    | none => trivial
    | some there =>
      apply there.swap_apparent
      intro bounded
      rw [current there found bounded, highest, if_pos bounded]
  cases call with
  | addAndGet delta => exact added delta
  | add delta => exact added delta
  | incrementAndGet => exact added 1
  | increment => exact added 1
  | decrementAndGet => exact added (-1)
  | decrement => exact added (-1)
  | compareAndSwap expect update => exact swapped current expect update
  | compareAndSet expect update => exact swapped current expect update
  | getValue => trivial
  | reset => trivial
  | remove => trivial
  | defineCounter configuration => trivial
  | getConfiguration => trivial

/-! ### Runs -/

variable {I : Type} [DecidableEq I]

/-- Whatever is called over any of the connections to a server, through handles of any
configuration and in any order, the answers are those of the service exactly if every bound
that is met is apparent. -/
theorem counter_answers_eq_direct_iff {S : Type} (service : CounterService S) (server : S)
    {connections : I → Connection} (idle : ∀ i, Idle (connections i))
    (calls : List (I × CounterCall)) :
    answers (sharing (overWire service)) (server, connections) calls =
        answers (anyone (direct service)) server calls ↔
      Throughout (anyone (direct service)) (fun s call => Apparent service s call.2) server calls :=
  (follows_direct service).sharing.answers_eq_iff ⟨rfl, idle⟩

theorem named_c : [(0x63 : UInt8)].length < 2 ^ 32 := WireFormat.one_fits 0x63

def callOfC (upperBound : UInt64) (call : HandleCall) : CounterCall where
  operation := .plain
  sendable := HotRodOperation.sendable_plain
  counter :=
    { constructedAs := .strong
      name := [0x63]
      configuration :=
        { initialValue := 0, upperBound, type := .boundedStrong, persistent := false } }
  named := named_c
  call

def defineC : CounterCall := callOfC 10 (.defineCounter (callOfC 10 .reset).counter.configuration)

theorem answers_ne_direct_of_stale :
    answers (sharing (overWire boundedCounters))
        (∅, fun _ : Bool => { hostname := "localhost", port := 11222 })
        [(true, defineC), (false, callOfC 100 (.compareAndSwap 0 20))] ≠
      answers (anyone (direct boundedCounters)) ∅
        [(true, defineC), (false, callOfC 100 (.compareAndSwap 0 20))] := by
  intro same
  have apparent :=
    (counter_answers_eq_direct_iff boundedCounters ∅ (fun _ => ⟨rfl, rfl, rfl⟩) _).mp same
  have upper : decide ((100 : Int64) ≤ 20) = true := apparent.2.1
  exact absurd upper (by decide)

/-- With handles that are current a client cannot tell the connections from the server. -/
theorem answers_eq_direct_of_current (counters : BoundedCounters) {connections : I → Connection}
    (idle : ∀ i, Idle (connections i)) {calls : List (I × CounterCall)}
    (current : Throughout (anyone (direct boundedCounters)) (fun s call => Current s call.2)
      counters calls) :
    answers (sharing (overWire boundedCounters)) (counters, connections) calls =
      answers (anyone (direct boundedCounters)) counters calls :=
  ((follows_direct boundedCounters).sharing.answers_eq_iff ⟨rfl, idle⟩).mpr
    (current.imp fun _ _ => apparent_of_current)

theorem answers_eq_direct_of_bounds :
    answers (sharing (overWire boundedCounters))
        (∅, fun _ : Bool => { hostname := "localhost", port := 11222 })
        [(true, defineC), (false, callOfC 10 (.addAndGet 7)),
          (true, callOfC 10 (.compareAndSwap 7 20))] =
      [.ok (.flag true), .ok (.number 7), .error (.counterUpperBound (text [0x63]))] := by
  have current : Throughout (anyone (direct boundedCounters)) (fun s call => Current s call.2) ∅
      [(true, defineC), (false, callOfC 10 (.addAndGet 7)),
        (true, callOfC 10 (.compareAndSwap 7 20))] := by
    refine ⟨trivial, trivial, ?_, trivial⟩
    intro counter found bounded
    cases found
    rfl
  exact (answers_eq_direct_of_current ∅ (fun _ => ⟨rfl, rfl, rfl⟩) current).trans rfl

end HotRod.Counters
