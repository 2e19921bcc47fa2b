import HotRod.Transport.Limits

/-! The limits of the pool over whole runs, under any schedule of its threads. -/

set_option autoImplicit false

namespace HotRod.Transport

open Semantics.Execution Semantics.Transition ConnectionPool

variable {K : Type} [LinearOrder K]

def Borrower.key : Borrower K → K
  | .waiting key _ | .popped key _ _ | .loaded key _ _ _ | .counted key _ _ => key

def Borrower.generation : Borrower K → Nat
  | .waiting _ generation | .popped _ generation _ | .loaded _ generation _ _
  | .counted _ generation _ => generation

def Attached (borrowers : SortedMap Thread (Borrower K)) (idle : SortedMap K (Option IdleQueue)) :
    Prop :=
  ∀ thread b, borrowers.get? thread = some b →
    ∃ q, idle.get? b.key = some (some q) ∧ q.generation = b.generation

/-- What a pool keeps whose steps are all timely. -/
structure Orderly (config : Configuration) (s : System K) : Prop where
  counted : Counted s.borrowers s.pool
  fits : Fits config s.borrowers [] s.pool
  attached : Attached s.borrowers s.pool.idle
  balanced : ∃ lost, Balanced s.pool (lost ++ carried s.borrowers)

-- The connection in hand is refused, so the borrow loop looks for a new one.
def Refused (config : Configuration) (validates : List (Except Exn Bool)) : Prop :=
  config.testOnBorrow = true ∧ validates.head? = some (.ok false)

-- No idle connection of the key, and room in its busy queue.
def Wanting (config : Configuration) (s : ConnectionPool K) (key : K) : Prop :=
  (∀ q, s.idle.get? key = some (some q) → q.items = []) ∧
    (config.maxActive < 0 ∨ (s.busyItems key).length < config.maxActive.toNat)

/-- The steps that count every connection in use. No borrower carries one outside
the lock while another section, or `addObject`, may create one; `addObject` does
not fill a queue beyond `maxActive`; a hand-back that serves another server finds room
for a connection of it; and no update of `totalIdle` is lost. -/
def Timely (config : Configuration) (s : System K) : Action K → Prop
  | .add _ _ => heldWeight (perKey one) s.borrowers = 0 ∧
    (0 ≤ config.maxActive → config.minIdle ≤ config.maxActive)
  | .borrow _ key _ validates =>
    Refused config validates ∨ Wanting config s.pool key → heldWeight (perKey one) s.borrowers = 0
  | .resume thread _ validates => Refused config validates →
    heldWeight (perKey one) (s.borrowers.erase thread) = 0
  | .giveBack key _ _ _ | .invalidate key _ _ => Roomy config s.borrowers s.pool key
  | .clear _ => False
  | .store thread lost => Fresh s thread lost
  | .pop _ | .load _ => True

variable {s base : ConnectionPool K} {key : K} {obj : Conn} {config : Configuration}
  {borrowers borrowers' : SortedMap Thread (Borrower K)} {thread : Thread}

/-! ### Sections that create nothing -/

theorem Counted.congr (counted : Counted borrowers s)
    (same : poppedWeight borrowers = poppedWeight borrowers') :
    Counted borrowers' s :=
  ⟨counted.sound, counted.asked, counted.listed, counted.active, same ▸ counted.idle⟩

theorem Fits.congr {slots : List K} (fits : Fits config borrowers slots s)
    (same : ∀ v, heldWeight (perKey v) borrowers = heldWeight (perKey v) borrowers') :
    Fits config borrowers' slots s := by
  apply fits.of_le
  intro v
  rw [useWeight, useWeight, same v]

omit [LinearOrder K] in
theorem poppedWeight_waiting (borrowers : SortedMap Thread (Borrower K)) (thread : Thread) (key : K)
    (generation : Nat) :
    poppedWeight (borrowers.insert thread (.waiting key generation)) =
      poppedWeight (borrowers.erase thread) :=
  SortedMap.weight_insert_eq _ borrowers thread _

theorem Attached.extend {idle idle' : SortedMap K (Option IdleQueue)}
    (attached : Attached borrowers idle) (extends_ : Extends idle idle') :
    Attached borrowers idle' := by
  intro thread b found
  obtain ⟨q, here, same⟩ := attached thread b found
  obtain ⟨q', here', same'⟩ := extends_ b.key q here
  exact ⟨q', here', same'.trans same⟩

theorem Attached.erase {idle : SortedMap K (Option IdleQueue)} (attached : Attached borrowers idle)
    (thread : Thread) : Attached (borrowers.erase thread) idle := by
  intro other b found
  rw [SortedMap.get?_erase] at found
  split at found
  · cases found
  · exact attached other b found

theorem Attached.insert {idle : SortedMap K (Option IdleQueue)} (attached : Attached borrowers idle)
    {b : Borrower K} {q : IdleQueue} (found : idle.get? b.key = some (some q))
    (same : q.generation = b.generation) (thread : Thread) :
    Attached (borrowers.insert thread b) idle := by
  intro other c here
  rw [SortedMap.get?_insert] at here
  split at here
  · cases here
    exact ⟨q, found, same⟩
  · exact attached other c here

theorem Orderly.defined {s : System K} (orderly : Orderly config s) {action : Action K}
    (timely : Timely config s action) {t : System K} (taken : step config s action = some t) :
    Defined config s action := by
  have deliverable : Deliverable config s.pool := fun _ k first =>
    orderly.counted.asked k (List.mem_of_mem_head? first)
  cases action with
  | giveBack key obj makes verdict =>
    obtain ⟨busy, -⟩ := step_giveBack taken
    exact ⟨deliverable, fun _ => orderly.counted.listed key (mem_busy_of_item busy)⟩
  | invalidate key obj makes => exact deliverable
  | clear key => exact timely.elim
  | add key makes => trivial
  | borrow thread key makes validates => trivial
  | pop thread => trivial
  | load thread => trivial
  | store thread lost => trivial
  | resume thread makes validates => trivial

/-! ### Steps -/

theorem Orderly.kempt {s : System K} (orderly : Orderly config s) (makes : List (Option Exn)) :
    Kempt config s.borrowers { s.pool with makes } [] { s.pool with makes } :=
  ⟨orderly.counted.frame s.pool.made s.pool.destroyed makes, Extends.refl _,
    orderly.fits.frame s.pool.made s.pool.destroyed makes⟩

theorem Kempt.orderly {t : ConnectionPool K} (kempt : Kempt config borrowers base [] t)
    (attached : Attached borrowers base.idle)
    (balanced : ∃ lost, Balanced t (lost ++ carried borrowers)) :
    Orderly config { pool := t, borrowers } :=
  ⟨kempt.counted, kempt.fits, attached.extend kempt.attached, balanced⟩

theorem Orderly.carryOn {s : System K} (orderly : Orderly config s) {b d : Borrower K}
    (found : s.borrowers.get? thread = some b) (at_key : d.key = b.key)
    (at_generation : d.generation = b.generation) (same : ∀ w, d.load w = b.load w)
    {totalIdle : Int}
    (counts : totalIdle + b.uncounted = s.pool.totalIdle + d.uncounted)
    (balanced : ∃ lost, Balanced { s.pool with totalIdle }
      (lost ++ carried (s.borrowers.insert thread d))) :
    Orderly config {
      pool := { s.pool with totalIdle }
      borrowers := s.borrowers.insert thread d } := by
  obtain ⟨q, here, current⟩ := orderly.attached thread b found
  have moved := fun f => s.borrowers.weight_replace f found d
  have pops : poppedWeight (s.borrowers.insert thread d) + b.uncounted =
      poppedWeight s.borrowers + d.uncounted := moved fun _ b => b.uncounted
  have carries : ∀ v, heldWeight (perKey v) s.borrowers =
      heldWeight (perKey v) (s.borrowers.insert thread d) := by
    intro v
    have weighs := moved fun _ b => b.load (perKey v)
    rw [same] at weighs
    exact (Nat.add_right_cancel weighs).symm
  have counted := orderly.counted
  refine ⟨⟨counted.sound, counted.asked, counted.listed, counted.active, ?_⟩, ?_, ?_, balanced⟩
  · have before := counted.idle
    simp only at before ⊢
    omega
  · have fits := orderly.fits.congr carries
    exact ⟨fits.total, fits.each⟩
  · exact orderly.attached.insert (at_key ▸ here) (current.trans at_generation.symm) thread

theorem Orderly.resuming {s : System K} {generation : Nat} (orderly : Orderly config s)
    (found : s.borrowers.get? thread = some (.counted key generation obj))
    (makes : List (Option Exn)) :
    Within config (s.borrowers.erase thread) { s.pool with makes } [key] { s.pool with makes } := by
  have leaves := s.borrowers.weight_erase (k := thread)
  simp only [found, Option.map_some, Option.getD_some] at leaves
  have pops : poppedWeight s.borrowers = poppedWeight (s.borrowers.erase thread) :=
    (leaves fun _ b => b.uncounted).symm
  have carries : ∀ v, heldWeight (perKey v) (s.borrowers.erase thread) + v key =
      heldWeight (perKey v) s.borrowers :=
    fun v => leaves fun _ b => b.load (perKey v)
  refine ⟨(orderly.kempt makes).counted.congr pops, Extends.refl _, le_rfl, fun _ => ?_⟩
  apply orderly.fits.of_le
  intro v
  have carried := carries v
  simp only [useWeight, List.map_cons, List.map_nil, List.sum_cons, List.sum_nil]
  omega

/-- Thread 1 waits for the connection of thread 0; between its pop and its next
section nothing counts the connection it carries, and thread 2 gets another one. -/
def overtaken : List (Action Nat) :=
  [.add 0 [], .borrow 0 0 [] [], .borrow 1 0 [] [], .giveBack 0 0 [] (.ok true), .pop 1, .load 1,
    .store 1 false, .borrow 2 0 [] []]

end HotRod.Transport
