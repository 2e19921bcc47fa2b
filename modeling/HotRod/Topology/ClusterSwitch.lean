import HotRod.Transport.Alone
import HotRod.Transport.Standing

/-! A cluster switch while other threads run their operations.

`clusterSwitch` closes the pool and puts a new one in its place. An operation keeps a
pointer to its connection and asks for the pool again when it hands the connection
back, so a connection may come to a pool that has not lent it. -/

set_option autoImplicit false

namespace HotRod.Topology

open Semantics.Execution Semantics.Transition HotRod.Transport HotRod.Transport.ConnectionPool

variable {K : Type} [LinearOrder K]

structure Loan (K : Type) where
  server : K
  obj : Conn
  pool : Nat
  deriving DecidableEq, Repr

/-- The factory with the threads of its operations. `stranded` are the threads that
were inside the pool when it was cleared, and `orphaned` the busy queues they refer to.
`misused` is a record of the connections used after they were destroyed. -/
structure SharedFactory (K : Type) [LinearOrder K] where
  system : System K := {}
  current : Nat := 0
  loans : SortedMap Thread (Loan K) := SortedMap.empty
  stranded : List Thread := []
  orphaned : SortedMap K (List Conn) := SortedMap.empty
  misused : List Conn := []

/-- A step of an operation, or of a `clusterSwitch`: `shut`, `clear`, `replace` and a
`prepare` for each server. The pointer of `getConnectionPool` is used at once: an
operation that is overtaken by `replace` between the two, and so calls `borrowObject` of
a pool that is gone, is not among the steps. -/
inductive Activity (K : Type) where
  | borrow (thread : Thread) (server : K) (makes : List (Option Exn))
    (validates : List (Except Exn Bool))
  | pop (thread : Thread)
  | load (thread : Thread)
  | store (thread : Thread) (lost : Bool)
  | resume (thread : Thread) (makes : List (Option Exn)) (validates : List (Except Exn Bool))
  | exchange (thread : Thread)
  | release (thread : Thread) (valid : Bool) (makes : List (Option Exn))
    (verdict : Except Exn Bool)
  | invalidate (thread : Thread) (server : K) (makes : List (Option Exn))
  | leave (thread : Thread)
  | shut
  | clear
  | replace
  | prepare (server : K) (makes : List (Option Exn))

namespace SharedFactory

def onPool (s : SharedFactory K) (pool : ConnectionPool K) : SharedFactory K :=
  { s with system := { s.system with pool } }

def lends (s : SharedFactory K) (thread : Thread) (server : K) :
    EStateM.Result Fault (ConnectionPool K) Borrowed → SortedMap Thread (Loan K)
  | .ok (.object obj) _ => s.loans.insert thread { server, obj, pool := s.current }
  | _ => s.loans

def settled (s : SharedFactory K) (thread : Thread) (server : K)
    (result : EStateM.Result Fault (ConnectionPool K) Borrowed) : SharedFactory K :=
  { s with
    system := settle s.system.borrowers thread server result
    loans := s.lends thread server result }

-- A stranded thread goes on with queues that are in no map of the pool.
def settledApart (config : Configuration) (s : SharedFactory K) (thread : Thread) (server : K)
    (generation : Nat) (obj : Conn) (makes : List (Option Exn))
    (validates : List (Except Exn Bool)) : SharedFactory K :=
  let result := testLoop config server generation validates obj
    { s.system.pool with makes, busy := s.orphaned }
  let t := s.settled thread server result
  { t.onPool { t.system.pool with busy := s.system.pool.busy } with
    orphaned := t.system.pool.busy }

-- The idle queue of a stranded thread stays empty.
def popOrphaned (config : Configuration) (s : SharedFactory K) (thread : Thread) :
    Option (SharedFactory K) :=
  match s.system.borrowers.get? thread with
  | some (.waiting _ _) =>
    if config.exhaustedAction = .EXCEPTION then
      some { s with system := { s.system with borrowers := s.system.borrowers.erase thread } }
    else none
  | _ => none

def touch (s : SharedFactory K) (obj : Conn) : SharedFactory K :=
  if obj ∈ s.system.pool.destroyed then { s with misused := s.misused ++ [obj] } else s

/-- A hand-back that raises leaves the operation with its connection. -/
def handBack (s : SharedFactory K) (thread : Thread) (obj : Conn) (makes : List (Option Exn))
    (call : PoolM K PUnit) : SharedFactory K :=
  match call { s.system.pool with makes } with
  | .ok _ pool => { (s.touch obj).onPool pool with loans := s.loans.erase thread }
  | .error _ pool => (s.touch obj).onPool pool

end SharedFactory

-- `valid` is what `isValid` answers.
def releaseTransport (config : Configuration) (loan : Loan K) (valid : Bool)
    (verdict : Except Exn Bool) : PoolM K PUnit :=
  if valid then returnObject config loan.server loan.obj verdict
  else invalidateObject config loan.server (some loan.obj)

-- The server is the one that the exception names.
def invalidateTransport (config : Configuration) (loan : Loan K) (server : K) : PoolM K PUnit :=
  invalidateObject config server (some loan.obj)

def happens (config : Configuration) (s : SharedFactory K) : Activity K → Option (SharedFactory K)
  | .borrow thread server makes validates =>
    if thread ∈ s.system.borrowers ∨ thread ∈ s.loans then none
    else some (s.settled thread server
      (borrowObject config server validates { s.system.pool with makes }))
  | .pop thread =>
    if thread ∈ s.stranded then s.popOrphaned config thread
    else (step config s.system (.pop thread)).map fun system => { s with system }
  | .load thread => (step config s.system (.load thread)).map fun system => { s with system }
  | .store thread lost =>
    (step config s.system (.store thread lost)).map fun system => { s with system }
  | .resume thread makes validates =>
    match s.system.borrowers.get? thread with
    | some (.counted server generation obj) =>
      if thread ∈ s.stranded then
        some (s.settledApart config thread server generation obj makes validates)
      else some (s.settled thread server
        (testLoop config server generation validates obj { s.system.pool with makes }))
    | _ => none
  | .exchange thread => (s.loans.get? thread).map fun loan => s.touch loan.obj
  | .release thread valid makes verdict => (s.loans.get? thread).map fun loan =>
    s.handBack thread loan.obj makes (releaseTransport config loan valid verdict)
  | .invalidate thread server makes => (s.loans.get? thread).map fun loan =>
    s.handBack thread loan.obj makes (invalidateTransport config loan server)
  -- an exception of a hand-back ends the operation
  | .leave thread =>
    if thread ∈ s.loans then some { s with loans := s.loans.erase thread } else none
  -- `close` sets its flag before it takes the lock
  | .shut => some (s.onPool { s.system.pool with closed := true })
  | .clear =>
    if s.system.pool.closed then some {
      s.onPool s.system.pool.clearAll with stranded := s.system.borrowers.keys }
    else none
  -- the destructor of the pool that goes clears it; who is inside has a pointer to nothing
  | .replace => some { s with
      system := { pool := {
        made := s.system.pool.made
        destroyed := s.system.pool.clearAll.destroyed } }
      current := s.current + 1
      stranded := []
      orphaned := SortedMap.empty }
  | .prepare server makes =>
    (step config s.system (.add server makes)).map fun system => { s with system }

theorem close_of_shut_clear (config : Configuration) (s : SharedFactory K) :
    (run (happens config) s [.shut, .clear]).map (·.system.pool) = some s.system.pool.close := rfl

def HandsBack (thread : Thread) : Activity K → Prop
  | .release other _ _ _ | .invalidate other _ _ => other = thread
  | _ => False

def Undisturbed (s t : ConnectionPool K) : Prop :=
  t.idle = s.idle ∧ t.busy = s.busy ∧ t.allocationQueue = s.allocationQueue ∧
    t.totalIdle = s.totalIdle ∧ t.totalActive = s.totalActive

structure SwitchSafe (config : Configuration) (s : SharedFactory K) : Prop where
  destroyed_once : s.system.pool.destroyed.Nodup
  unused : s.misused = []
  undisturbed : ∀ thread loan activity t, s.loans.get? thread = some loan →
    loan.pool ≠ s.current → HandsBack thread activity → happens config s activity = some t →
      Undisturbed s.system.pool t.system.pool

/-! ### When a switch finds nothing on its way -/

/-- No connection is lent, or on its way from an idle queue to a busy one. -/
def Unlent (s : SharedFactory K) : Prop :=
  (∀ thread, s.loans.get? thread = none) ∧
    ∀ thread b, s.system.borrowers.get? thread = some b → b.obj = none

/-- A pool goes when nothing of it is lent, and what a pool lists as borrowed is
invalidated under its server. -/
def InOrder (s : SharedFactory K) : Activity K → Prop
  | .clear | .replace => Unlent s
  | .invalidate thread server _ => ∀ loan, s.loans.get? thread = some loan →
    server = loan.server ∨ loan.obj ∉ s.system.pool.busyItems loan.server
  | _ => True

variable {s : SharedFactory K} {pool t : ConnectionPool K} {hand hands : List Conn}
  {config : Configuration} {key server : K} {obj : Conn} {thread : Thread}

/-! ### What is lent is not destroyed -/

/-- A connection that is listed as borrowed, or is left to the operation that has it. -/
def Belongs (pool : ConnectionPool K) (hands : List Conn) (server : K) (obj : Conn) : Prop :=
  obj ∈ pool.busyItems server ∨ obj ∈ hands

theorem Belongs.counted (belongs : Belongs pool hands server obj) (others : List Conn) :
    1 ≤ busyWeight (tag obj) pool.busy + (hands ++ others).count obj := by
  rw [List.count_append]
  rcases belongs with listed | left
  · have bound := sum_busy_le (tag obj) pool.busy server
    have once : 0 < (pool.busyItems server).count obj := List.count_pos_iff.mpr listed
    simp only [sum_tag, busyItems] at bound once
    omega
  · have once : 0 < hands.count obj := List.count_pos_iff.mpr left
    omega

theorem Belongs.not_destroyed (belongs : Belongs pool hands server obj) {others : List Conn}
    (balanced : Balanced pool (hands ++ others)) : obj ∉ pool.destroyed := by
  intro gone
  have once := balanced.le_one obj
  have here := belongs.counted others
  have there : 0 < pool.destroyed.count obj := List.count_pos_iff.mpr gone
  simp only [places] at once
  omega

theorem destroyed_nodup (balanced : Balanced pool hand) : pool.destroyed.Nodup := by
  refine List.nodup_iff_count_le_one.mpr fun c => ?_
  have once := balanced.le_one c
  simp only [places] at once
  omega

structure Backed (current : Nat) (pool : ConnectionPool K) (hands : List Conn)
    (loans : SortedMap Thread (Loan K)) : Prop where
  lent : ∀ thread loan, loans.get? thread = some loan → loan.pool = current ∧
    loan.server ∈ pool.busy ∧ Belongs pool hands loan.server loan.obj
  apart : ∀ thread thread' loan loan', loans.get? thread = some loan →
    loans.get? thread' = some loan' → loan.obj = loan'.obj → thread = thread'

section Loans

variable {current : Nat} {loans : SortedMap Thread (Loan K)} {hands' : List Conn}

theorem Belongs.mono (belongs : Belongs pool hands server obj)
    (busy : obj ∈ pool.busyItems server → obj ∈ t.busyItems server) (held : hands ⊆ hands') :
    Belongs t hands' server obj :=
  belongs.imp busy fun left => held left

theorem Backed.mono (backed : Backed current pool hands loans)
    (busy : ∀ k, pool.busyItems k ⊆ t.busyItems k) (listed : ∀ k ∈ pool.busy, k ∈ t.busy)
    (held : hands ⊆ hands') : Backed current t hands' loans where
  lent thread loan found := by
    obtain ⟨same, known, belongs⟩ := backed.lent thread loan found
    exact ⟨same, listed _ known, belongs.mono (fun here => busy _ here) held⟩
  apart := backed.apart

theorem Backed.erase (backed : Backed current pool hands loans)
    (kept : ∀ other loan, other ≠ thread → loans.get? other = some loan →
      loan.server ∈ t.busy ∧ Belongs t hands' loan.server loan.obj) :
    Backed current t hands' (loans.erase thread) := by
  have remains : ∀ {other loan}, (loans.erase thread).get? other = some loan →
      other ≠ thread ∧ loans.get? other = some loan := by
    intro other loan found
    rw [SortedMap.get?_erase] at found
    split at found
    · cases found
    · exact ⟨‹_›, found⟩
  refine ⟨fun other loan found => ?_, fun other other' loan loan' found found' => ?_⟩
  · obtain ⟨distinct, before⟩ := remains found
    exact ⟨(backed.lent other loan before).1, kept other loan distinct before⟩
  · exact backed.apart other other' loan loan' (remains found).2 (remains found').2

theorem Backed.insert (backed : Backed current pool hands loans) {loan : Loan K}
    (same : loan.pool = current) (listed : loan.server ∈ pool.busy)
    (belongs : Belongs pool hands loan.server loan.obj)
    (fresh : ∀ other loan', loans.get? other = some loan' → loan'.obj ≠ loan.obj) :
    Backed current pool hands (loans.insert thread loan) := by
  refine ⟨fun other loan' found => ?_, fun other other' l l' found found' shared => ?_⟩
  · rw [SortedMap.get?_insert] at found
    split at found
    · cases found
      exact ⟨same, listed, belongs⟩
    · exact backed.lent other loan' found
  · rw [SortedMap.get?_insert] at found found'
    split at found <;> split at found'
    · rename_i here here'
      exact here.trans here'.symm
    · cases found
      exact absurd shared.symm (fresh other' l' found')
    · cases found'
      exact absurd shared (fresh other l found)
    · exact backed.apart other other' l l' found found' shared

end Loans

structure Serving (s : SharedFactory K) (hands : List Conn) : Prop where
  stands : SystemStands s.system
  balanced : Balanced s.system.pool (hands ++ carried s.system.borrowers)
  backed : Backed s.current s.system.pool hands s.loans
  together : s.stranded = []

/-- The pool is closed and cleared, and nothing of it is lent. -/
structure Emptied (s : SharedFactory K) (hands : List Conn) : Prop where
  closed : s.system.pool.closed = true
  sound : NullFree s.system.pool.idle
  balanced : Balanced s.system.pool (hands ++ carried s.system.borrowers)
  unlent : Unlent s
  waiting : ∀ thread ∈ s.system.borrowers, thread ∈ s.stranded

def Owned (s : SharedFactory K) : Prop :=
  s.misused = [] ∧ ∃ hands, Serving s hands ∨ Emptied s hands

theorem Serving.advance (serving : Serving s hands) {u : System K} {clean : Prop}
    (stands : SystemStands u) (accounts : SystemAccounts clean hands u)
    (busy : ∀ k, u.pool.busyItems k = s.system.pool.busyItems k)
    (listed : ∀ k ∈ s.system.pool.busy, k ∈ u.pool.busy) :
    ∃ hands', Serving { s with system := u } hands' := by
  obtain ⟨-, lost, balanced, -⟩ := accounts
  refine ⟨lost ++ hands, stands, by rwa [List.append_assoc], ?_, serving.together⟩
  exact serving.backed.mono (fun k => (busy k).symm ▸ List.Subset.refl _) listed
    (List.subset_append_right _ _)

theorem Serving.lend (serving : Serving s hands) {lost others : List Conn}
    (busy : pool.busy =
      s.system.pool.busy.insert server (s.system.pool.busyItems server ++ [obj]))
    (balanced : Balanced pool (lost ++ (hands ++ others))) :
    Backed s.current pool (lost ++ hands)
      (s.loans.insert thread { server, obj, pool := s.current }) := by
  have items : ∀ k, pool.busyItems k =
      if k = server then s.system.pool.busyItems server ++ [obj]
        else s.system.pool.busyItems k := by
    intro k
    rw [← busyItems_registered, busyItems, busy]
    rfl
  have before : Backed s.current pool (lost ++ hands) s.loans := by
    refine serving.backed.mono (fun k => ?_) (fun k listed => ?_) (List.subset_append_right _ _)
    · rw [items]
      split
      · rename_i here
        exact here ▸ List.subset_append_left _ _
      · exact List.Subset.refl _
    · rw [busy]
      exact (SortedMap.mem_insert _).mpr (.inr listed)
  refine before.insert rfl ?_ (.inl ?_) ?_
  · rw [busy]
    exact (SortedMap.mem_insert _).mpr (.inl rfl)
  · rw [items, if_pos rfl]
    exact List.mem_append_right _ (List.mem_singleton_self _)
  · rintro other loan found rfl
    -- the connection would be there twice
    obtain ⟨-, -, belongs⟩ := serving.backed.lent other loan found
    have earlier := belongs.counted []
    have pushed := busyWeight_push (tag loan.obj) s.system.pool.busy server loan.obj
    have once := balanced.le_one loan.obj
    simp only [places, busy, List.count_append] at once
    simp only [busyItems, tag, if_true] at once pushed earlier
    simp only [List.count_append, List.count_nil] at earlier
    omega

theorem Serving.settled (serving : Serving s hands) {clean : Prop} {base : ConnectionPool K}
    {result : EStateM.Result Fault (ConnectionPool K) Borrowed}
    (stands : SystemStands (settle s.system.borrowers thread server result))
    (accounts : SystemAccounts clean hands (settle s.system.borrowers thread server result))
    (meets : Meets result
      (Leaves base server
        (fun obj t => t.busy = (registered server obj { t with busy := s.system.pool.busy }).busy)
        (fun t => t.busy = s.system.pool.busy))
      (fun _ t => (Standing t ∧ Extends base.idle t.idle) ∧ t.busy = s.system.pool.busy)) :
    ∃ hands', Serving (s.settled thread server result) hands' := by
  have unchanged : ∀ t : ConnectionPool K, t.busy = s.system.pool.busy →
      (∀ k, t.busyItems k = s.system.pool.busyItems k) ∧ ∀ k ∈ s.system.pool.busy, k ∈ t.busy := by
    intro t same
    refine ⟨fun k => ?_, fun k listed => same ▸ listed⟩
    rw [busyItems, same, busyItems]
  cases result with
  | error e pool =>
    obtain ⟨busy, listed⟩ := unchanged pool meets.2
    exact serving.advance stands accounts busy listed
  | ok outcome pool =>
    cases outcome with
    | wait generation =>
      obtain ⟨busy, listed⟩ := unchanged pool meets.2
      exact serving.advance stands accounts busy listed
    | object obj =>
      obtain ⟨-, lost, balanced, -⟩ := accounts
      exact ⟨lost ++ hands, stands, by rwa [List.append_assoc], serving.lend meets.2 balanced,
        serving.together⟩

theorem Serving.frame (serving : Serving s hands) (makes : List (Option Exn)) (closed : Bool) :
    Serving (s.onPool { s.system.pool with makes, closed }) hands where
  stands := {
    standing := ⟨serving.stands.standing.sound, serving.stands.standing.asked,
      serving.stands.standing.listed⟩
    attached := serving.stands.attached }
  balanced := serving.balanced
  backed := ⟨serving.backed.lent, serving.backed.apart⟩
  together := serving.together

/-! ### Hand-backs -/

/-- The busy queue of the server has lost the connection, and no queue has gone. -/
structure HandedBack (server : K) (obj : Conn) (pool t : ConnectionPool K) : Prop where
  busy : t.busy = (unregistered server obj pool).busy
  stays : Stays pool t

/-- What a hand-back is to do: the connection is off the operation's hands if it returns. -/
def HandsOver (server : K) (obj : Conn) (pool : ConnectionPool K) (call : PoolM K PUnit) : Prop :=
  ∀ hand, Kept (obj :: hand) (unregistered server obj pool) →
    Meets (call pool) (fun _ t => Kept hand t ∧ HandedBack server obj pool t)
      (fun _ t => Kept (obj :: hand) t ∧ HandedBack server obj pool t)

theorem returnObject_handsOver (config : Configuration) (standing : Standing pool)
    (listed : server ∈ pool.busy) (obj : Conn) (verdict : Except Exn Bool) :
    HandsOver server obj pool (returnObject config server obj verdict) := by
  intro hand inHand
  have handed : HandedBack server obj pool (final (returnObject config server obj verdict pool)) :=
    ⟨returnObject_busy config standing listed obj verdict,
      returnObject_stays config standing listed obj verdict⟩
  have returned := returnObject_kept config inHand listed
    (fun serves k first => standing.asked k (List.mem_of_mem_head? first))
    (fun _ => standing.listed server listed) verdict
  exact (returned.and (meets_of_final handed)).mono (fun _ _ both => both)
    fun _ _ both => ⟨both.1.1, both.2⟩

theorem invalidateObject_handsOver (config : Configuration) (standing : Standing pool)
    (listed : server ∈ pool.busy) (obj : Conn) :
    HandsOver server obj pool (invalidateObject config server (some obj)) := by
  intro hand inHand
  have handed : HandedBack server obj pool
      (final (invalidateObject config server (some obj) pool)) :=
    ⟨invalidateObject_busy config standing listed obj,
      invalidateObject_stays config standing listed obj⟩
  have invalidated := invalidateObject_kept config inHand listed
    fun serves k first => standing.asked k (List.mem_of_mem_head? first)
  exact (invalidated.and (meets_of_final handed)).mono (fun _ _ both => both)
    fun _ _ both => ⟨both.1.1, both.2⟩

section HandBack

variable {loan : Loan K} {makes : List (Option Exn)} {call : PoolM K PUnit}

theorem Serving.touch (serving : Serving s hands) (found : s.loans.get? thread = some loan) :
    s.touch loan.obj = s := by
  obtain ⟨-, -, belongs⟩ := serving.backed.lent thread loan found
  exact if_neg (belongs.not_destroyed serving.balanced)

theorem Serving.inHand (serving : Serving s hands) (found : s.loans.get? thread = some loan)
    (order : server = loan.server ∨ loan.obj ∉ s.system.pool.busyItems loan.server) :
    ∃ left, Kept (loan.obj :: (left ++ carried s.system.borrowers))
        (unregistered server loan.obj s.system.pool) ∧
      ∀ c ∈ hands, c ≠ loan.obj → c ∈ left := by
  obtain ⟨-, -, belongs⟩ := serving.backed.lent thread loan found
  have sound := serving.stands.standing.sound
  by_cases listed : loan.obj ∈ s.system.pool.busyItems loan.server
  · obtain rfl := order.resolve_right (not_not.mpr listed)
    exact ⟨hands, unregistered_kept ⟨sound, serving.balanced⟩ listed, fun c held _ => held⟩
  · have held : loan.obj ∈ hands := belongs.resolve_left listed
    have once := List.perm_cons_erase held
    refine ⟨hands.erase loan.obj, unregistered_kept_of_absent ⟨sound, ?_⟩ fun elsewhere => ?_,
      fun c held distinct => (List.mem_erase_of_ne distinct).mpr held⟩
    · exact serving.balanced.congr fun c => (once.append_right _).count_eq c
    · have twice := serving.balanced.le_one loan.obj
      have bound := sum_busy_le (tag loan.obj) s.system.pool.busy server
      have here : 0 < (s.system.pool.busyItems server).count loan.obj :=
        List.count_pos_iff.mpr elsewhere
      have there : 0 < hands.count loan.obj := List.count_pos_iff.mpr held
      simp only [sum_tag, places, busyItems, List.count_append] at twice bound here
      omega

theorem Serving.handBack (serving : Serving s hands) (found : s.loans.get? thread = some loan)
    (order : server = loan.server ∨ loan.obj ∉ s.system.pool.busyItems loan.server)
    (handsOver : HandsOver server loan.obj { s.system.pool with makes } call) :
    (s.handBack thread loan.obj makes call).misused = s.misused ∧
      ∃ hands', Serving (s.handBack thread loan.obj makes call) hands' := by
  obtain ⟨left, inHand, others⟩ := serving.inHand found order
  -- whoever else has a connection keeps it
  have kept : ∀ t, HandedBack server loan.obj { s.system.pool with makes } t →
      ∀ other loan', other ≠ thread → s.loans.get? other = some loan' →
        loan'.server ∈ t.busy ∧ Belongs t left loan'.server loan'.obj := by
    intro t handed other loan' distinct found'
    obtain ⟨-, listed, belongs⟩ := serving.backed.lent other loan' found'
    have apart : loan'.obj ≠ loan.obj :=
      fun same => distinct (serving.backed.apart other thread loan' loan found' found same)
    refine ⟨handed.busy ▸ (SortedMap.mem_insert _).mpr (.inr listed), belongs.imp ?_ ?_⟩
    · intro here
      have items : t.busyItems loan'.server =
          (unregistered server loan.obj s.system.pool).busyItems loan'.server := by
        rw [busyItems, handed.busy]
        rfl
      rw [items, busyItems_unregistered]
      split
      · rename_i same
        exact List.mem_filter.mpr ⟨same ▸ here, by simpa using apart⟩
      · exact here
    · exact fun held => others _ held apart
  have touched := serving.touch found
  have met := handsOver (left ++ carried s.system.borrowers) inHand
  unfold SharedFactory.handBack
  rw [touched]
  cases result : call { s.system.pool with makes } with
  | ok value t =>
    rw [result] at met
    refine ⟨rfl, left, met.2.stays.system serving.stands.attached, met.1.2, ?_,
      serving.together⟩
    exact serving.backed.erase (kept t met.2)
  | error e t =>
    rw [result] at met
    refine ⟨rfl, loan.obj :: left, met.2.stays.system serving.stands.attached, met.1.2, ?_,
      serving.together⟩
    refine ⟨fun other loan' found' => ?_, serving.backed.apart⟩
    obtain ⟨same, listed, -⟩ := serving.backed.lent other loan' found'
    refine ⟨same, ?_⟩
    by_cases own : other = thread
    · have here : s.loans.get? thread = some loan' := own ▸ found'
      rw [found] at here
      cases here
      exact ⟨met.2.busy ▸ (SortedMap.mem_insert _).mpr (.inr listed), .inr List.mem_cons_self⟩
    · obtain ⟨known, belongs⟩ := kept t met.2 other loan' own found'
      exact ⟨known, belongs.mono id (List.subset_cons_self _ _)⟩

end HandBack

/-! ### Steps -/

theorem Serving.moves (serving : Serving s hands) {u : System K} {action : Action K}
    (moved : step config s.system action = some u) (defined : Defined config s.system action)
    (remaining : Remaining action) :
    SystemStands u ∧ SystemAccounts (Lossless config s.system action) hands u :=
  ⟨step_stands serving.stands remaining moved,
    step_accounts hands serving.stands.standing.sound serving.balanced defined moved⟩

section Sections

variable {makes : List (Option Exn)} {validates : List (Except Exn Bool)}

theorem Serving.borrow (serving : Serving s hands) (absent : thread ∉ s.system.borrowers) :
    ∃ hands', Serving (s.settled thread server
      (borrowObject config server validates { s.system.pool with makes })) hands' := by
  have moved : step config s.system (.borrow thread server makes validates) = some (settle
      s.system.borrowers thread server
        (borrowObject config server validates { s.system.pool with makes })) := if_neg absent
  obtain ⟨stands, accounts⟩ := serving.moves moved trivial trivial
  exact serving.settled stands accounts
    (SectionRule.borrowObject (serving.stands.standing.makes makes) rfl
      (fun q _ => sectionRule_busy config _ server q.generation validates s.system.pool.busy)
      (fun _ _ _ _ => rfl) fun _ => rfl)

theorem Serving.resume (serving : Serving s hands) {generation : Nat}
    (found : s.system.borrowers.get? thread = some (.counted server generation obj)) :
    ∃ hands', Serving (s.settled thread server
      (testLoop config server generation validates obj { s.system.pool with makes })) hands' := by
  have moved : step config s.system (.resume thread makes validates) = some (settle
      s.system.borrowers thread server
        (testLoop config server generation validates obj { s.system.pool with makes })) := by
    simp only [step, found]
  obtain ⟨stands, accounts⟩ := serving.moves moved trivial trivial
  exact serving.settled stands accounts
    ((sectionRule_busy config _ server generation validates s.system.pool.busy).testLoop
      (serving.stands.resuming found makes) rfl)

end Sections

theorem Serving.pop (serving : Serving s hands) {u : System K}
    (moved : step config s.system (.pop thread) = some u) :
    ∃ hands', Serving { s with system := u } hands' := by
  obtain ⟨stands, accounts⟩ := serving.moves moved trivial trivial
  obtain ⟨key, generation, found, popped⟩ := step_pop moved
  obtain ⟨obj, rest, -, rfl⟩ | rfl := popIdle_cases popped
  · exact serving.advance stands accounts (fun _ => rfl) fun _ => id
  · exact serving.advance stands accounts (fun _ => rfl) fun _ => id

theorem Serving.load (serving : Serving s hands) {u : System K}
    (moved : step config s.system (.load thread) = some u) :
    ∃ hands', Serving { s with system := u } hands' := by
  obtain ⟨stands, accounts⟩ := serving.moves moved trivial trivial
  obtain ⟨key, generation, obj, found, rfl⟩ := step_load moved
  exact serving.advance stands accounts (fun _ => rfl) fun _ => id

theorem Serving.store (serving : Serving s hands) {u : System K} {lost : Bool}
    (moved : step config s.system (.store thread lost) = some u) :
    ∃ hands', Serving { s with system := u } hands' := by
  obtain ⟨stands, accounts⟩ := serving.moves moved trivial trivial
  obtain ⟨key, generation, obj, read, found, rfl⟩ := step_store moved
  exact serving.advance stands accounts (fun _ => rfl) fun _ => id

theorem Serving.prepare (serving : Serving s hands) {makes : List (Option Exn)} {u : System K}
    (moved : step config s.system (.add server makes) = some u) :
    ∃ hands', Serving { s with system := u } hands' := by
  obtain ⟨stands, accounts⟩ := serving.moves moved trivial trivial
  cases moved
  have opens := (addObject_opens config server { s.system.pool with makes }).final
  exact serving.advance stands accounts opens.busyItems fun k listed => opens.mem_busy listed

theorem Serving.release (serving : Serving s hands) {loan : Loan K}
    (found : s.loans.get? thread = some loan) (valid : Bool) (makes : List (Option Exn))
    (verdict : Except Exn Bool) :
    (s.handBack thread loan.obj makes (releaseTransport config loan valid verdict)).misused =
        s.misused ∧
      ∃ hands', Serving (s.handBack thread loan.obj makes
        (releaseTransport config loan valid verdict)) hands' := by
  have standing := serving.stands.standing.makes makes
  obtain ⟨-, listed, -⟩ := serving.backed.lent thread loan found
  refine serving.handBack found (.inl rfl) ?_
  cases valid with
  | true => exact returnObject_handsOver config standing listed _ verdict
  | false => exact invalidateObject_handsOver config standing listed _

theorem Serving.invalidate (serving : Serving s hands) {loan : Loan K}
    (found : s.loans.get? thread = some loan) (makes : List (Option Exn))
    (order : server = loan.server ∨ loan.obj ∉ s.system.pool.busyItems loan.server) :
    (s.handBack thread loan.obj makes (invalidateTransport config loan server)).misused =
        s.misused ∧
      ∃ hands', Serving (s.handBack thread loan.obj makes
        (invalidateTransport config loan server)) hands' := by
  by_cases listed : server ∈ s.system.pool.busy
  · exact serving.handBack found order (invalidateObject_handsOver config
      (serving.stands.standing.makes makes) listed loan.obj)
  · -- "No busy queue for address!"
    have refused : s.handBack thread loan.obj makes (invalidateTransport config loan server) =
        s.onPool { s.system.pool with makes } := by
      rw [SharedFactory.handBack, serving.touch found, invalidateTransport]
      simp [invalidateObject, bind_apply, listed]
    rw [refused]
    exact ⟨rfl, hands, serving.frame makes s.system.pool.closed⟩

omit [LinearOrder K] in
theorem carried_eq_nil {borrowers : SortedMap Thread (Borrower K)}
    (empty : ∀ thread b, borrowers.get? thread = some b → b.obj = none) :
    carried borrowers = [] := by
  refine List.filterMap_eq_nil_iff.mpr ?_
  rintro ⟨thread, b⟩ member
  exact empty thread b ((SortedMap.get?_eq_some _).mpr member)

theorem cleared_emptied {u : SharedFactory K} (unlent : Unlent s)
    (balanced : Balanced s.system.pool (hands ++ carried s.system.borrowers))
    (taken : happens config s .clear = some u) : u.misused = s.misused ∧ Emptied u hands := by
  simp only [happens, Option.ite_none_right_eq_some, Option.some.injEq] at taken
  obtain ⟨closed, rfl⟩ := taken
  refine ⟨rfl, closed, fun key found => ?_, balanced.clearAll, unlent, fun thread inside => inside⟩
  cases found

theorem replaced_serving {u : SharedFactory K} (unlent : Unlent s)
    (balanced : Balanced s.system.pool (hands ++ carried s.system.borrowers))
    (taken : happens config s .replace = some u) : u.misused = s.misused ∧ Serving u hands := by
  cases taken
  refine ⟨rfl, ⟨⟨fun k found => ?_, fun k asked => ?_, fun k listed => ?_⟩,
    fun thread b found => ?_⟩, fun c => ?_,
    ⟨fun thread loan found => ?_, fun thread _ loan _ found => ?_⟩, rfl⟩
  · cases found
  · cases asked
  · exact absurd listed SortedMap.not_mem_empty
  · cases found
  · have before := balanced.clearAll c
    rw [carried_eq_nil unlent.2] at before
    exact before
  · rw [unlent.1 thread] at found
    cases found
  · rw [unlent.1 thread] at found
    cases found

theorem Serving.happens {u : SharedFactory K} {activity : Activity K} (serving : Serving s hands)
    (order : InOrder s activity) (taken : happens config s activity = some u) :
    u.misused = s.misused ∧ ∃ hands', Serving u hands' ∨ Emptied u hands' := by
  have outside : ∀ thread, thread ∉ s.stranded := by
    intro thread
    rw [serving.together]
    exact List.not_mem_nil
  cases activity with
  | borrow thread server makes validates =>
    simp only [Topology.happens, Option.ite_none_left_eq_some, not_or, Option.some.injEq] at taken
    obtain ⟨⟨absent, -⟩, rfl⟩ := taken
    exact ⟨rfl, (serving.borrow absent).imp fun _ => .inl⟩
  | pop thread =>
    simp only [Topology.happens, outside, if_false, Option.map_eq_some_iff] at taken
    obtain ⟨v, moved, rfl⟩ := taken
    exact ⟨rfl, (serving.pop moved).imp fun _ => .inl⟩
  | load thread =>
    simp only [Topology.happens, Option.map_eq_some_iff] at taken
    obtain ⟨v, moved, rfl⟩ := taken
    exact ⟨rfl, (serving.load moved).imp fun _ => .inl⟩
  | store thread lost =>
    simp only [Topology.happens, Option.map_eq_some_iff] at taken
    obtain ⟨v, moved, rfl⟩ := taken
    exact ⟨rfl, (serving.store moved).imp fun _ => .inl⟩
  | resume thread makes validates =>
    simp only [Topology.happens, outside, if_false] at taken
    split at taken
    · rename_i server generation obj found
      cases taken
      exact ⟨rfl, (serving.resume found).imp fun _ => .inl⟩
    · cases taken
  | exchange thread =>
    simp only [Topology.happens, Option.map_eq_some_iff] at taken
    obtain ⟨loan, found, rfl⟩ := taken
    rw [serving.touch found]
    exact ⟨rfl, hands, .inl serving⟩
  | release thread valid makes verdict =>
    simp only [Topology.happens, Option.map_eq_some_iff] at taken
    obtain ⟨loan, found, rfl⟩ := taken
    exact (serving.release found valid makes verdict).imp id (.imp fun _ => .inl)
  | invalidate thread server makes =>
    simp only [Topology.happens, Option.map_eq_some_iff] at taken
    obtain ⟨loan, found, rfl⟩ := taken
    exact (serving.invalidate found makes (order loan found)).imp id (.imp fun _ => .inl)
  | leave thread =>
    simp only [Topology.happens, Option.ite_none_right_eq_some, Option.some.injEq] at taken
    obtain ⟨-, rfl⟩ := taken
    refine ⟨rfl, hands, .inl { serving with backed := serving.backed.erase ?_ }⟩
    exact fun other loan _ found => (serving.backed.lent other loan found).2
  | shut =>
    cases taken
    exact ⟨rfl, hands, .inl (serving.frame s.system.pool.makes true)⟩
  | clear =>
    obtain ⟨same, emptied⟩ := cleared_emptied order serving.balanced taken
    exact ⟨same, hands, .inr emptied⟩
  | replace =>
    obtain ⟨same, again⟩ := replaced_serving order serving.balanced taken
    exact ⟨same, hands, .inl again⟩
  | prepare server makes =>
    simp only [Topology.happens, Option.map_eq_some_iff] at taken
    obtain ⟨v, moved, rfl⟩ := taken
    exact ⟨rfl, (serving.prepare moved).imp fun _ => .inl⟩

theorem Emptied.borrow (emptied : Emptied s hands) (absent : thread ∉ s.system.borrowers)
    (makes : List (Option Exn)) (validates : List (Except Exn Bool)) :
    s.settled thread server
        (borrowObject config server validates { s.system.pool with makes }) =
      s.onPool { s.system.pool with makes } := by
  have turned : borrowObject config server validates { s.system.pool with makes } =
      .error (.raised (.hotRodClient "Pool is closed")) { s.system.pool with makes } := by
    simp [borrowObject, bind_apply, emptied.closed]
  rw [turned, SharedFactory.settled, settle, SortedMap.erase_of_not_mem absent]
  rfl

theorem Emptied.leave (emptied : Emptied s hands) (thread : Thread) :
    Emptied { s with
      system := { s.system with borrowers := s.system.borrowers.erase thread } } hands := by
  have unlent : ∀ other b, (s.system.borrowers.erase thread).get? other = some b →
      b.obj = none := by
    intro other b found
    rw [SortedMap.get?_erase] at found
    split at found
    · cases found
    · exact emptied.unlent.2 other b found
  refine ⟨emptied.closed, emptied.sound, ?_, ⟨emptied.unlent.1, unlent⟩, fun other here => ?_⟩
  · have before := emptied.balanced
    rw [carried_eq_nil emptied.unlent.2] at before
    rw [carried_eq_nil unlent]
    exact before
  · exact emptied.waiting other ((SortedMap.mem_erase _).mp here).2

-- Nobody has a connection of a pool that is cleared, and nobody gets one.
theorem Emptied.happens {u : SharedFactory K} {activity : Activity K} (emptied : Emptied s hands)
    (order : InOrder s activity) (taken : happens config s activity = some u) :
    u.misused = s.misused ∧ ∃ hands', Serving u hands' ∨ Emptied u hands' := by
  have empty_handed : ∀ {thread b}, s.system.borrowers.get? thread = some b → b.obj = none :=
    fun found => emptied.unlent.2 _ _ found
  cases activity with
  | borrow thread server makes validates =>
    simp only [Topology.happens, Option.ite_none_left_eq_some, not_or, Option.some.injEq] at taken
    obtain ⟨⟨absent, -⟩, rfl⟩ := taken
    rw [emptied.borrow absent]
    exact ⟨rfl, hands, .inr ⟨emptied.closed, emptied.sound, emptied.balanced, emptied.unlent,
      emptied.waiting⟩⟩
  | pop thread =>
    by_cases inside : thread ∈ s.stranded
    · simp only [Topology.happens, inside, if_true, SharedFactory.popOrphaned] at taken
      split at taken
      · simp only [Option.ite_none_right_eq_some, Option.some.injEq] at taken
        obtain ⟨-, rfl⟩ := taken
        exact ⟨rfl, hands, .inr (emptied.leave thread)⟩
      · cases taken
    · simp only [Topology.happens, inside, if_false, Option.map_eq_some_iff] at taken
      obtain ⟨v, moved, rfl⟩ := taken
      obtain ⟨key, generation, found, -⟩ := step_pop moved
      exact absurd (emptied.waiting thread (s.system.borrowers.mem_iff.mpr ⟨_, found⟩)) inside
  | load thread =>
    simp only [Topology.happens, Option.map_eq_some_iff] at taken
    obtain ⟨v, moved, rfl⟩ := taken
    obtain ⟨key, generation, obj, found, -⟩ := step_load moved
    cases empty_handed found
  | store thread lost =>
    simp only [Topology.happens, Option.map_eq_some_iff] at taken
    obtain ⟨v, moved, rfl⟩ := taken
    obtain ⟨key, generation, obj, read, found, -⟩ := step_store moved
    cases empty_handed found
  | resume thread makes validates =>
    simp only [Topology.happens] at taken
    split at taken
    · rename_i server generation obj found
      cases empty_handed found
    · cases taken
  | exchange thread | release thread valid makes verdict | invalidate thread server makes =>
    simp only [Topology.happens, emptied.unlent.1 thread] at taken
    cases taken
  | leave thread =>
    simp only [Topology.happens, Option.ite_none_right_eq_some, Option.some.injEq] at taken
    obtain ⟨has, -⟩ := taken
    obtain ⟨loan, found⟩ := s.loans.mem_iff.mp has
    rw [emptied.unlent.1 thread] at found
    cases found
  | shut =>
    cases taken
    exact ⟨rfl, hands, .inr ⟨rfl, emptied.sound, emptied.balanced, emptied.unlent,
      emptied.waiting⟩⟩
  | clear =>
    obtain ⟨same, again⟩ := cleared_emptied order emptied.balanced taken
    exact ⟨same, hands, .inr again⟩
  | replace =>
    obtain ⟨same, serving⟩ := replaced_serving order emptied.balanced taken
    exact ⟨same, hands, .inl serving⟩
  | prepare server makes =>
    simp only [Topology.happens, Option.map_eq_some_iff] at taken
    obtain ⟨v, moved, rfl⟩ := taken
    cases moved
    have opens := (addObject_opens config server { s.system.pool with makes }).final
    have before : Kept (hands ++ carried s.system.borrowers) { s.system.pool with makes } :=
      ⟨emptied.sound, emptied.balanced⟩
    have kept : Kept (hands ++ carried s.system.borrowers)
        (final (addObject config server { s.system.pool with makes })) :=
      (addObject_kept before).final
    exact ⟨rfl, hands, .inr ⟨opens.closed.trans emptied.closed, kept.1, kept.2, emptied.unlent,
      emptied.waiting⟩⟩

/-! ### Runs -/

theorem Owned.happens {u : SharedFactory K} {activity : Activity K} (owned : Owned s)
    (order : InOrder s activity) (taken : happens config s activity = some u) : Owned u := by
  obtain ⟨unused, hands, serving | emptied⟩ := owned
  · obtain ⟨same, later⟩ := serving.happens order taken
    exact ⟨same.trans unused, later⟩
  · obtain ⟨same, later⟩ := emptied.happens order taken
    exact ⟨same.trans unused, later⟩

theorem Owned.switchSafe (owned : Owned s) (config : Configuration) : SwitchSafe config s := by
  obtain ⟨unused, hands, serving | emptied⟩ := owned
  · refine ⟨destroyed_nodup serving.balanced, unused, fun thread loan _ _ found old _ _ => ?_⟩
    exact absurd (serving.backed.lent thread loan found).1 old
  · refine ⟨destroyed_nodup emptied.balanced, unused, fun thread loan _ _ found _ _ _ => ?_⟩
    rw [emptied.unlent.1 thread] at found
    cases found

/-- In every run in which a pool goes only when nothing of it is lent, whatever the
schedule, a switch destroys each connection once and none that is still used. -/
theorem switch_safe (config : Configuration) (activities : List (Activity K))
    {s : SharedFactory K} (guarded : Guarded (happens config) InOrder {} activities)
    (reached : run (happens config) {} activities = some s) : SwitchSafe config s := by
  have start : Owned ({} : SharedFactory K) := by
    refine ⟨rfl, [], .inl ⟨systemStands_empty, fun c => rfl, ⟨?_, ?_⟩, rfl⟩⟩
    · intro thread loan found
      cases found
    · intro thread _ loan _ found
      cases found
  exact (run_invariant Owned start (fun _ _ _ owned order taken => owned.happens order taken)
    guarded reached).switchSafe config

theorem handBack_misused (obj : Conn) (makes : List (Option Exn)) (call : PoolM K PUnit) :
    (s.handBack thread obj makes call).misused = (s.touch obj).misused := by
  unfold SharedFactory.handBack
  split
  · rfl
  · rfl

-- Without the condition there is no way out: an operation whose connection goes with its pool
-- cannot hand it back without a look at it.
theorem misused_of_cleared {loan : Loan K} {u v : SharedFactory K} {activity : Activity K}
    (found : s.loans.get? thread = some loan)
    (listed : loan.obj ∈ s.system.pool.busyItems loan.server)
    (cleared : happens config s .clear = some u) (back : HandsBack thread activity)
    (taken : happens config u activity = some v) : loan.obj ∈ v.misused := by
  simp only [happens, Option.ite_none_right_eq_some, Option.some.injEq] at cleared
  obtain ⟨-, rfl⟩ := cleared
  have destroyed : loan.obj ∈ s.system.pool.clearAll.destroyed := by
    obtain ⟨items, borrowed⟩ := s.system.pool.busy.mem_iff.mp (mem_busy_of_item listed)
    rw [busyItems, borrowed, Option.getD_some] at listed
    refine List.mem_append_right _ (List.mem_flatMap.mpr ⟨(loan.server, items), ?_, listed⟩)
    exact (SortedMap.get?_eq_some _).mp borrowed
  have touched : ∀ {t : SharedFactory K}, t.system.pool.destroyed =
      s.system.pool.clearAll.destroyed → loan.obj ∈ (t.touch loan.obj).misused := by
    intro t same
    rw [SharedFactory.touch, if_pos (same ▸ destroyed)]
    exact List.mem_append_right _ (List.mem_singleton_self _)
  cases activity with
  | release other valid makes verdict =>
    cases back
    simp only [happens, SharedFactory.onPool, found, Option.map_some, Option.some.injEq] at taken
    rw [← taken, handBack_misused]
    exact touched rfl
  | invalidate other server makes =>
    cases back
    simp only [happens, SharedFactory.onPool, found, Option.map_some, Option.some.injEq] at taken
    rw [← taken, handBack_misused]
    exact touched rfl
  | borrow | pop | load | store | resume | exchange | leave | shut | clear | replace | prepare =>
    exact back.elim

def overtaken : List (Activity Nat) :=
  [.prepare 0 [], .borrow 0 0 [] [], .shut, .clear, .replace, .prepare 0 []]

/-- The operation looks at a connection that the switch has destroyed, and the new pool
counts it as its own and destroys it again. -/
theorem old_connection_returned :
    ∃ s, run (happens {}) ({} : SharedFactory Nat) overtaken = some s ∧ ¬ SwitchSafe {} s ∧
      ∃ t, happens {} s (.release 0 false [] (.ok true)) = some t ∧ t.misused = [0] ∧
        t.system.pool.destroyed = [0, 0] ∧ t.system.pool.totalActive = -1 := by
  refine ⟨_, rfl, fun safe => ?_, _, rfl, rfl, rfl, rfl⟩
  have undisturbed := safe.undisturbed 0 ⟨0, 0, 0⟩ (.release 0 false [] (.ok true)) _ rfl
    (by decide) rfl rfl
  exact absurd undisturbed.2.2.2.2 (by decide)

theorem switch_safe_returned :
    ∃ s, run (happens {}) ({} : SharedFactory Nat) [.prepare 0 [], .borrow 0 0 [] [], .exchange 0,
        .release 0 true [] (.ok true), .shut, .clear, .replace, .prepare 1 [],
        .borrow 0 1 [] [], .exchange 0] = some s ∧ SwitchSafe {} s := by
  refine ⟨_, rfl, switch_safe {} [.prepare 0 [], .borrow 0 0 [] [], .exchange 0,
    .release 0 true [] (.ok true), .shut, .clear, .replace, .prepare 1 [], .borrow 0 1 [] [],
    .exchange 0] ?_ rfl⟩
  apply Guarded.cons rfl trivial
  apply Guarded.cons rfl trivial
  apply Guarded.cons rfl trivial
  apply Guarded.cons rfl trivial
  apply Guarded.cons rfl trivial
  refine Guarded.cons rfl ⟨fun thread => rfl, fun thread b found => ?_⟩ ?_
  · cases found
  refine Guarded.cons rfl ⟨fun thread => rfl, fun thread b found => ?_⟩ ?_
  · cases found
  apply Guarded.cons rfl trivial
  apply Guarded.cons rfl trivial
  exact Guarded.cons rfl trivial trivial

end HotRod.Topology
