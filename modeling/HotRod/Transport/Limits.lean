import HotRod.Transport.Conservation

/-! The limits of the pool under any schedule of its sections.

`Counted` ties the two counters to the queues: a connection that a borrower has
popped is in `totalIdle` until the borrower decrements it. `Fits` is what the
limits leave room for, next to the connections that are still to come (`slots`). -/

set_option autoImplicit false

namespace HotRod.Transport

open Semantics.Execution Semantics.Transition ConnectionPool

variable {K : Type} [LinearOrder K]

def perKey (v : K → Nat) : Weight K := fun key _ => v key

def one : K → Nat := fun _ => 1

def under (key : K) : K → Nat := fun k => if k = key then 1 else 0

-- The borrowers that have popped a connection and not yet decremented `totalIdle`.
def Borrower.uncounted : Borrower K → Nat
  | .popped _ _ _ | .loaded _ _ _ _ => 1
  | _ => 0

def poppedWeight (borrowers : SortedMap Thread (Borrower K)) : Nat :=
  borrowers.weight fun _ b => b.uncounted

def inUse (s : System K) : Nat :=
  idleWeight (perKey one) s.pool.idle + busyWeight (perKey one) s.pool.busy +
    heldWeight (perKey one) s.borrowers

omit [LinearOrder K] in
@[simp] theorem perKey_apply (v : K → Nat) (key : K) (obj : Conn) : perKey v key obj = v key := rfl

omit [LinearOrder K] in
@[simp] theorem one_apply (key : K) : one key = 1 := rfl

omit [LinearOrder K] in
@[simp] theorem sum_perKey (v : K → Nat) (key : K) (items : List Conn) :
    (items.map (perKey v key)).sum = items.length * v key := by
  induction items with
  | nil => simp
  | cons c rest ih =>
    rw [List.map_cons, List.sum_cons, ih, perKey_apply, List.length_cons, Nat.succ_mul,
      Nat.add_comm]

/-- The queues and counters of the pool agree, given the borrowers outside the lock. -/
structure Counted (borrowers : SortedMap Thread (Borrower K)) (s : ConnectionPool K) : Prop where
  sound : NullFree s.idle
  asked : ∀ k ∈ s.allocationQueue, k ∈ s.idle
  listed : ∀ k ∈ s.busy, k ∈ s.idle
  active : s.totalActive = busyWeight (perKey one) s.busy
  idle : s.totalIdle = (idleWeight (perKey one) s.idle + poppedWeight borrowers : Nat)

/-- The connections in use with those that `slots` keeps room for. -/
def useWeight (v : K → Nat) (borrowers : SortedMap Thread (Borrower K)) (slots : List K)
    (s : ConnectionPool K) : Nat :=
  idleWeight (perKey v) s.idle + busyWeight (perKey v) s.busy + heldWeight (perKey v) borrowers +
    (slots.map v).sum

/-- Both limits hold, idle connections of a server included. -/
structure Fits (config : Configuration) (borrowers : SortedMap Thread (Borrower K)) (slots : List K)
    (s : ConnectionPool K) : Prop where
  total : 0 < config.maxTotal → (useWeight one borrowers slots s : Int) ≤ config.maxTotal
  each : 0 ≤ config.maxActive →
    ∀ key, (useWeight (under key) borrowers slots s : Int) ≤ config.maxActive

variable {s t : ConnectionPool K} {key : K} {obj : Conn} {config : Configuration}
  {borrowers : SortedMap Thread (Borrower K)}

theorem Fits.of_le {borrowers' : SortedMap Thread (Borrower K)} {slots slots' : List K}
    (fits : Fits config borrowers slots s)
    (less : ∀ v, useWeight v borrowers' slots' t ≤ useWeight v borrowers slots s) :
    Fits config borrowers' slots' t where
  total limited := (Int.ofNat_le.mpr (less one)).trans (fits.total limited)
  each limited key := (Int.ofNat_le.mpr (less (under key))).trans (fits.each limited key)

theorem Fits.drop {slots : List K} (fits : Fits config borrowers slots s) :
    Fits config borrowers [] s :=
  fits.of_le fun _ => Nat.add_le_add_left (Nat.zero_le _) _

theorem Counted.frame (counted : Counted borrowers s) (made : Nat) (destroyed : List Conn)
    (makes : List (Option Exn)) : Counted borrowers { s with made, destroyed, makes } :=
  ⟨counted.sound, counted.asked, counted.listed, counted.active, counted.idle⟩

theorem Fits.frame {slots : List K} (fits : Fits config borrowers slots s) (made : Nat)
    (destroyed : List Conn) (makes : List (Option Exn)) :
      Fits config borrowers slots { s with made, destroyed, makes } :=
  ⟨fits.total, fits.each⟩

section Primitives

variable {q : IdleQueue} {generation : Nat} {rest : List Conn}

-- `idle[key]->push(obj)` with its increment of `totalIdle`.
def pushed (key : K) (obj : Conn) (q : IdleQueue) (s : ConnectionPool K) : ConnectionPool K :=
  { s with
    idle := s.idle.insert key (some { q with items := q.items ++ [obj] })
    totalIdle := s.totalIdle + 1 }

-- `idleQ->poll(obj)` with its decrement of `totalIdle`.
def polled (key : K) (generation : Nat) (rest : List Conn) (s : ConnectionPool K) :
    ConnectionPool K :=
  { s with
    idle := s.idle.insert key (some ⟨generation, rest⟩)
    totalIdle := s.totalIdle - 1 }

def registered (key : K) (obj : Conn) (s : ConnectionPool K) : ConnectionPool K :=
  { s with
    busy := s.busy.insert key (s.busyItems key ++ [obj])
    totalActive := s.totalActive + 1 }

theorem Counted.push (counted : Counted borrowers s) (found : s.idle.get? key = some (some q)) :
    Counted borrowers (pushed key obj q s) where
  sound := counted.sound.insert key _
  asked k member := (SortedMap.mem_insert _).mpr (.inr (counted.asked k member))
  listed k member := (SortedMap.mem_insert _).mpr (.inr (counted.listed k member))
  active := counted.active
  idle := by
    simp only [pushed, idleWeight_push found, counted.idle, perKey_apply, one_apply]
    omega

theorem Fits.push (fits : Fits config borrowers [key] s) (found : s.idle.get? key = some (some q)) :
    Fits config borrowers [] (pushed key obj q s) := by
  refine fits.of_le fun v => ?_
  simp only [useWeight, pushed, idleWeight_push found, perKey_apply, List.map_nil, List.map_cons,
    List.sum_nil, List.sum_cons]
  omega

theorem Counted.poll (counted : Counted borrowers s)
    (found : s.idle.get? key = some (some ⟨generation, obj :: rest⟩)) :
    Counted borrowers (polled key generation rest s) where
  sound := counted.sound.insert key _
  asked k member := (SortedMap.mem_insert _).mpr (.inr (counted.asked k member))
  listed k member := (SortedMap.mem_insert _).mpr (.inr (counted.listed k member))
  active := counted.active
  idle := by
    have taken := idleWeight_poll (w := perKey one) found generation
    simp only [perKey_apply, one_apply] at taken
    simp only [polled, counted.idle]
    omega

theorem Fits.poll (fits : Fits config borrowers [] s)
    (found : s.idle.get? key = some (some ⟨generation, obj :: rest⟩)) :
    Fits config borrowers [key] (polled key generation rest s) := by
  refine fits.of_le fun v => ?_
  have taken := idleWeight_poll (w := perKey v) found generation
  simp only [perKey_apply] at taken
  simp only [useWeight, polled, List.map_nil, List.map_cons, List.sum_nil, List.sum_cons]
  omega

theorem Counted.register (counted : Counted borrowers s) (known : key ∈ s.idle) :
    Counted borrowers (registered key obj s) where
  sound := counted.sound
  asked := counted.asked
  listed k member :=
    ((SortedMap.mem_insert _).mp member).elim (fun same => same ▸ known) (counted.listed k)
  active := by
    simp only [registered, busyItems, busyWeight_push, counted.active, perKey_apply, one_apply]
    omega
  idle := counted.idle

theorem Fits.register (fits : Fits config borrowers [key] s) :
    Fits config borrowers [] (registered key obj s) := by
  refine fits.of_le fun v => ?_
  simp only [useWeight, registered, busyItems, busyWeight_push, perKey_apply, List.map_nil,
    List.map_cons, List.sum_nil, List.sum_cons]
  omega

theorem Counted.known (counted : Counted borrowers s) (once : (s.busyItems key).count obj = 1) :
    key ∈ s.idle :=
  counted.listed key (mem_busy_of_item (List.count_pos_iff.mp (once ▸ Nat.one_pos)))

theorem Counted.unregister (counted : Counted borrowers s)
    (once : (s.busyItems key).count obj = 1) :
    Counted borrowers (unregistered key obj s) where
  sound := counted.sound
  asked := counted.asked
  listed k member := by
    rcases (SortedMap.mem_insert _).mp member with rfl | later
    · exact counted.known once
    · exact counted.listed k later
  active := by
    have removed := busyWeight_remove (perKey one) s.busy key obj
    simp only [busyItems] at once
    simp only [once, perKey_apply, one_apply] at removed
    simp only [unregistered, busyItems, counted.active]
    omega
  idle := counted.idle

theorem Fits.unregister (fits : Fits config borrowers [] s)
    (once : (s.busyItems key).count obj = 1) :
    Fits config borrowers [key] (unregistered key obj s) := by
  refine fits.of_le fun v => ?_
  have removed := busyWeight_remove (perKey v) s.busy key obj
  simp only [busyItems] at once
  simp only [once, Nat.one_mul, perKey_apply] at removed
  simp only [useWeight, unregistered, busyItems, List.map_nil, List.map_cons, List.sum_nil,
    List.sum_cons]
  omega

end Primitives

/-! ### Sections of `borrowObject` -/

/-- The queues a borrower may refer to are still there. -/
def Extends (idle idle' : SortedMap K (Option IdleQueue)) : Prop :=
  ∀ k q, idle.get? k = some (some q) → ∃ q', idle'.get? k = some (some q') ∧
    q'.generation = q.generation

theorem Extends.refl (idle : SortedMap K (Option IdleQueue)) : Extends idle idle :=
  fun _ q found => ⟨q, found, rfl⟩

theorem Extends.trans {a b c : SortedMap K (Option IdleQueue)} (first : Extends a b)
    (second : Extends b c) : Extends a c := by
  intro k q found
  obtain ⟨q', found', same⟩ := first k q found
  obtain ⟨q'', found'', same'⟩ := second k q' found'
  exact ⟨q'', found'', same'.trans same⟩

theorem Extends.insert {idle : SortedMap K (Option IdleQueue)} {q q' : IdleQueue}
    (found : idle.get? key = some (some q)) (same : q'.generation = q.generation) :
    Extends idle (idle.insert key (some q')) := by
  intro k p held
  by_cases here : k = key
  · subst here
    rw [found, Option.some.injEq, Option.some.injEq] at held
    exact ⟨q', SortedMap.get?_insert_self _ _ _, held ▸ same⟩
  · exact ⟨p, (SortedMap.get?_insert_of_ne _ _ here).trans held, rfl⟩

/-- The state inside a section that started in `base`. Where other borrowers
carry connections the limits are only known as long as nothing was created. -/
structure Within (config : Configuration) (borrowers : SortedMap Thread (Borrower K))
    (base : ConnectionPool K) (slots : List K) (s : ConnectionPool K) : Prop where
  counted : Counted borrowers s
  attached : Extends base.idle s.idle
  grown : base.made ≤ s.made
  fits : heldWeight (perKey one) borrowers = 0 ∨ s.made = base.made → Fits config borrowers slots s

variable {base : ConnectionPool K}

theorem Within.drop {slots : List K} (within : Within config borrowers base slots s) :
    Within config borrowers base [] s :=
  { within with fits := fun free => (within.fits free).drop }

theorem Within.frame {slots : List K} (within : Within config borrowers base slots s)
    (destroyed : List Conn) (makes : List (Option Exn)) :
      Within config borrowers base slots { s with destroyed, makes } where
  counted := within.counted.frame s.made destroyed makes
  attached := within.attached
  grown := within.grown
  fits free := (within.fits free).frame s.made destroyed makes

theorem Within.poll (within : Within config borrowers base [] s) {generation : Nat}
    {rest : List Conn} (found : s.idle.get? key = some (some ⟨generation, obj :: rest⟩)) :
    Within config borrowers base [key] (polled key generation rest s) where
  counted := within.counted.poll found
  attached := within.attached.trans (.insert found rfl)
  grown := within.grown
  fits free := (within.fits free).poll found

theorem Within.register (within : Within config borrowers base [key] s) {q : IdleQueue}
    (found : base.idle.get? key = some (some q)) :
      Within config borrowers base [] (registered key obj s) where
  counted := within.counted.register (by
    obtain ⟨q', found', -⟩ := within.attached key q found
    exact s.idle.mem_iff.mpr ⟨_, found'⟩)
  attached := within.attached
  grown := within.grown
  fits free := (within.fits free).register

theorem busyWeight_under (busy : SortedMap K (List Conn)) (key : K) :
    busyWeight (perKey (under key)) busy = ((busy.get? key).getD []).length := by
  rw [busyWeight, SortedMap.weight_of_support _ _ key]
  · cases busy.get? key <;> simp [under]
  · intro j items other
    simp [under, other]

theorem heldWeight_under_of_free (free : heldWeight (perKey one) borrowers = 0) (key : K) :
    heldWeight (perKey (under key)) borrowers = 0 := by
  refine Nat.le_zero.mp (free ▸ SortedMap.weight_mono (fun _ b => ?_) borrowers)
  cases b with
  | waiting k generation => exact le_rfl
  | popped k generation obj =>
    simp only [Borrower.load, perKey_apply, under, one_apply]; split <;> omega
  | loaded k generation obj read =>
    simp only [Borrower.load, perKey_apply, under, one_apply]; split <;> omega
  | counted k generation obj =>
    simp only [Borrower.load, perKey_apply, under, one_apply]; split <;> omega

theorem Fits.room (fits : Fits config borrowers [] s) (free : heldWeight (perKey one) borrowers = 0)
    (none_idle : idleWeight (perKey (under key)) s.idle = 0)
    (few : config.maxActive < 0 ∨ (s.busyItems key).length < config.maxActive.toNat)
    (total : 0 < config.maxTotal → (useWeight one borrowers [key] s : Int) ≤ config.maxTotal) :
    Fits config borrowers [key] s where
  total := total
  each limited k := by
    by_cases here : k = key
    · subst here
      have held := heldWeight_under_of_free free k
      have busy := busyWeight_under s.busy k
      have length : ((s.busy.get? k).getD []).length < config.maxActive.toNat :=
        few.resolve_left (not_lt.mpr limited)
      simp only [useWeight, none_idle, held, busy, List.map_nil, List.map_cons, List.sum_nil,
        List.sum_cons, under, if_true]
      omega
    · have bound := fits.each limited k
      have other : under k key = 0 := by simp [under, Ne.symm here]
      simp only [useWeight, List.map_nil, List.map_cons, List.sum_nil, List.sum_cons,
        other] at bound ⊢
      exact bound

/-- The state between the sections of a pool that keeps its limits. -/
structure Kempt (config : Configuration) (borrowers : SortedMap Thread (Borrower K))
    (base : ConnectionPool K) (slots : List K) (s : ConnectionPool K) : Prop where
  counted : Counted borrowers s
  attached : Extends base.idle s.idle
  fits : Fits config borrowers slots s

theorem Kempt.frame {slots : List K} (kempt : Kempt config borrowers base slots s) (made : Nat)
    (destroyed : List Conn) (makes : List (Option Exn)) :
    Kempt config borrowers base slots { s with made, destroyed, makes } :=
  ⟨kempt.counted.frame made destroyed makes, kempt.attached, kempt.fits.frame made destroyed makes⟩

theorem Kempt.drop {slots : List K} (kempt : Kempt config borrowers base slots s) :
    Kempt config borrowers base [] s := ⟨kempt.counted, kempt.attached, kempt.fits.drop⟩

theorem Kempt.unregister (kempt : Kempt config borrowers base [] s)
    (once : (s.busyItems key).count obj = 1) :
    Kempt config borrowers base [key] (unregistered key obj s) :=
  ⟨kempt.counted.unregister once, kempt.attached, kempt.fits.unregister once⟩

/-- A hand-back that serves another server finds room for a connection of it. -/
def Roomy (config : Configuration) (borrowers : SortedMap Thread (Borrower K))
    (s : ConnectionPool K) (key : K) : Prop :=
  Serves config s → ∀ k ∈ s.allocationQueue.head?, k ≠ key → 0 ≤ config.maxActive →
    (useWeight (under k) borrowers [] s : Int) < config.maxActive

theorem Roomy.unregistered (roomy : Roomy config borrowers s key) (obj : Conn) :
    s.hasReachedMaxTotal config = true → ∀ k ∈ s.allocationQueue.head?, k ≠ key →
      0 ≤ config.maxActive →
      (useWeight (under k) borrowers [] (unregistered key obj s) : Int) < config.maxActive := by
  intro reached k first other limited
  refine lt_of_le_of_lt (Int.ofNat_le.mpr ?_) (roomy ⟨reached, ?_⟩ k first other limited)
  · have removed := busyWeight_remove (perKey (under k)) s.busy key obj
    simp only [useWeight, Transport.unregistered, busyItems]
    omega
  · intro empty
    rw [empty] at first
    cases first

end HotRod.Transport
