import HotRod.Data.CyclicOrder
import HotRod.Topology.TopologyInfo

/-! Round robin over the servers of the balancer.

The loop of `nextServer` counts its turns in 32 bits, and compares them with a length of 64.
Where it ends, it goes once round the list; on a longer list without a server that has not
failed it never does. -/

set_option autoImplicit false

namespace HotRod.Topology

namespace RoundRobinBalancingStrategy

variable {A : Type} [DecidableEq A]

def noMoreServer : Exn := .hotRodClient "Balancing: No more server available."

/-- The loop of `nextServer` with its counter, for a number of turns; `none` if they do not
suffice. -/
def turnsFrom (failedServers : List A) :
    Nat → UInt32 → RoundRobinBalancingStrategy A →
      Option (Except Exn A × RoundRobinBalancingStrategy A)
  | 0, _, _ => none
  | turns + 1, i, balancer =>
    if more : i.toNat < balancer.servers.length then
      -- a loop that takes a turn has a first server
      let index : Fin balancer.servers.length :=
        ⟨CyclicOrder.next balancer.servers.length balancer.index,
          CyclicOrder.next_lt (Nat.zero_lt_of_lt more) balancer.index⟩
      let server := balancer.servers.get index
      if server ∈ failedServers then
        turnsFrom failedServers turns (i + 1) { balancer with index := index.1 }
      else some (.ok server, { balancer with index := index.1 })
    else some (.error noMoreServer, balancer)

def Calls (balancer : RoundRobinBalancingStrategy A) (failedServers : List A)
    (result : Except Exn A) (after : RoundRobinBalancingStrategy A) : Prop :=
  ∃ turns, turnsFrom failedServers turns 0 balancer = some (result, after)

inductive Reached : RoundRobinBalancingStrategy A → Prop where
  | start : Reached {}
  | setServers {balancer : RoundRobinBalancingStrategy A} (reached : Reached balancer)
    (servers : List A) : Reached (balancer.setServers servers)
  | nextServer {balancer after : RoundRobinBalancingStrategy A} {failedServers : List A}
    {result : Except Exn A} (reached : Reached balancer)
    (called : Calls balancer failedServers result after) : Reached after

/-- Calls one after the other that all return, with the positions of their servers. -/
inductive Consecutive (failedServers : List A) : RoundRobinBalancingStrategy A →
    List (A × Nat) → RoundRobinBalancingStrategy A → Prop where
  | none (balancer : RoundRobinBalancingStrategy A) :
    Consecutive failedServers balancer [] balancer
  | call {balancer after last : RoundRobinBalancingStrategy A} {server : A}
    {rest : List (A × Nat)} (called : Calls balancer failedServers (.ok server) after)
    (later : Consecutive failedServers after rest last) :
    Consecutive failedServers balancer ((server, after.index) :: rest) last

/-! ### One turn -/

variable {failed : List A} {balancer after : RoundRobinBalancingStrategy A}
  {result : Except Exn A} {turns : Nat} {i : UInt32}

def alive (servers failed : List A) (p : Nat) : Bool := servers[p]?.any fun server => server ∉ failed

theorem alive_iff {servers : List A} {p : Nat} :
    alive servers failed p = true ↔ ∃ server, servers[p]? = some server ∧ server ∉ failed := by
  rw [alive, Option.any_eq_true]
  simp only [decide_eq_true_eq]

def moved (balancer : RoundRobinBalancingStrategy A) (index : Nat) :
    RoundRobinBalancingStrategy A :=
  { balancer with index }

def advanced (balancer : RoundRobinBalancingStrategy A) : RoundRobinBalancingStrategy A :=
  balancer.moved (CyclicOrder.next balancer.servers.length balancer.index)

theorem turnsFrom_succ (failed : List A) (turns : Nat)
    (more : i.toNat < balancer.servers.length) :
    ∃ server, balancer.servers[balancer.advanced.index]? = some server ∧
      turnsFrom failed (turns + 1) i balancer =
        if server ∈ failed then turnsFrom failed turns (i + 1) balancer.advanced
        else some (.ok server, balancer.advanced) := by
  have inside := CyclicOrder.next_lt (Nat.zero_lt_of_lt more) balancer.index
  refine ⟨balancer.servers.get ⟨_, inside⟩, List.getElem?_eq_getElem inside, ?_⟩
  rw [turnsFrom, dif_pos more]
  rfl

theorem turnsFrom_end (enough : balancer.servers.length ≤ i.toNat) :
    turnsFrom failed (turns + 1) i balancer = some (.error noMoreServer, balancer) := by
  rw [turnsFrom, dif_neg (Nat.not_lt.mpr enough)]

theorem toNat_add_one_le (i : UInt32) : (i + 1).toNat ≤ i.toNat + 1 := by
  rw [UInt32.toNat_add]
  exact Nat.mod_le _ _

omit [DecidableEq A] in
theorem left_over (short : balancer.servers.length < 2 ^ 32)
    (left : i.toNat + (turns + 1) = balancer.servers.length) :
    (i + 1).toNat + turns = balancer.advanced.servers.length := by
  have room : i.toNat + 1 < 2 ^ 32 := by omega
  have counted : (i + 1).toNat = i.toNat + 1 := by
    rw [UInt32.toNat_add]
    exact Nat.mod_eq_of_lt room
  change (i + 1).toNat + turns = balancer.servers.length
  omega

theorem turnsFrom_mono {r : Except Exn A × RoundRobinBalancingStrategy A}
    (ended : turnsFrom failed turns i balancer = some r) (k : Nat) :
    turnsFrom failed (turns + k) i balancer = some r := by
  induction turns generalizing i balancer with
  | zero => cases ended
  | succ turns ih =>
    rw [Nat.succ_add]
    by_cases more : i.toNat < balancer.servers.length
    · obtain ⟨server, found, short⟩ := turnsFrom_succ failed turns more
      obtain ⟨other, found', long⟩ := turnsFrom_succ failed (turns + k) more
      rw [found] at found'
      cases found'
      rw [short] at ended
      rw [long]
      split at ended
      · next dead =>
        rw [if_pos dead]
        exact ih ended
      · next live =>
        rw [if_neg live]
        exact ended
    · have enough := Nat.le_of_not_lt more
      rw [turnsFrom_end enough] at ended ⊢
      exact ended

theorem Calls.unique {r : Except Exn A} {c : RoundRobinBalancingStrategy A}
    (first : Calls balancer failed result after) (second : Calls balancer failed r c) :
    r = result ∧ c = after := by
  obtain ⟨short, ended⟩ := first
  obtain ⟨long, ended'⟩ := second
  have both := turnsFrom_mono ended long
  rw [Nat.add_comm, turnsFrom_mono ended' short] at both
  cases both
  exact ⟨rfl, rfl⟩

/-! ### The loop -/

theorem turnsFrom_found {p : Nat}
    (found : (CyclicOrder.visits balancer.servers.length turns balancer.index).find?
      (alive balancer.servers failed) = some p)
    (room : i.toNat + turns ≤ balancer.servers.length ∨ 2 ^ 32 ≤ balancer.servers.length) :
    ∃ server, balancer.servers[p]? = some server ∧ server ∉ failed ∧
      turnsFrom failed turns i balancer = some (.ok server, balancer.moved p) := by
  induction turns generalizing i balancer with
  | zero => cases found
  | succ turns ih =>
    have more : i.toNat < balancer.servers.length := by
      have small := i.toNat_lt
      omega
    obtain ⟨server, here, turn⟩ := turnsFrom_succ failed turns more
    rw [CyclicOrder.find?_visits_succ] at found
    rw [turn]
    by_cases dead : server ∈ failed
    · have passed : ¬ alive balancer.servers failed balancer.advanced.index = true := by
        rw [alive, here]
        simp [dead]
      rw [if_pos dead]
      have less := toNat_add_one_le i
      have room_left : (i + 1).toNat + turns ≤ balancer.advanced.servers.length ∨
          2 ^ 32 ≤ balancer.advanced.servers.length := by
        change (i + 1).toNat + turns ≤ balancer.servers.length ∨ 2 ^ 32 ≤ balancer.servers.length
        omega
      have found_later : (CyclicOrder.visits balancer.advanced.servers.length turns
          balancer.advanced.index).find? (alive balancer.advanced.servers failed) = some p :=
        (if_neg passed).symm.trans found
      exact ih found_later room_left
    · have live : alive balancer.servers failed balancer.advanced.index = true :=
        alive_iff.mpr ⟨server, here, dead⟩
      have stopped : some balancer.advanced.index = some p := (if_pos live).symm.trans found
      cases stopped
      exact ⟨server, here, dead, if_neg dead⟩

-- Where all servers have failed, the index has gone round when the counter ends the loop.
theorem turnsFrom_exhausted (dead : ∀ server ∈ balancer.servers, server ∈ failed)
    (short : balancer.servers.length < 2 ^ 32) (left : i.toNat + turns = balancer.servers.length) :
    turnsFrom failed (turns + 1) i balancer =
      some (.error noMoreServer,
        balancer.moved ((CyclicOrder.next balancer.servers.length)^[turns] balancer.index)) := by
  induction turns generalizing i balancer with
  | zero => exact turnsFrom_end (Nat.le_of_eq left.symm)
  | succ turns ih =>
    have more : i.toNat < balancer.servers.length := by omega
    obtain ⟨server, here, turn⟩ := turnsFrom_succ failed (turns + 1) more
    rw [turn, if_pos (dead server (List.mem_of_getElem? here)), Function.iterate_succ_apply]
    exact ih dead short (left_over short left)

-- On a list that is longer than the counter goes, the loop does not end.
theorem turnsFrom_endless (dead : ∀ server ∈ balancer.servers, server ∈ failed)
    (long : 2 ^ 32 ≤ balancer.servers.length) : turnsFrom failed turns i balancer = none := by
  induction turns generalizing i balancer with
  | zero => rfl
  | succ turns ih =>
    have more : i.toNat < balancer.servers.length := Nat.lt_of_lt_of_le i.toNat_lt long
    obtain ⟨server, here, turn⟩ := turnsFrom_succ failed turns more
    rw [turn, if_pos (dead server (List.mem_of_getElem? here))]
    have dead_left : ∀ server ∈ balancer.advanced.servers, server ∈ failed := dead
    exact ih dead_left long

theorem nextFrom_succ (turns : Nat) {server : A}
    (here : balancer.servers[balancer.advanced.index]? = some server) :
    nextFrom failed (turns + 1) balancer =
      if server ∈ failed then nextFrom failed turns balancer.advanced
      else (some server, balancer.advanced) := by
  rw [nextFrom]
  split
  · next other found =>
    have same : some other = some server := found.symm.trans here
    cases same
    rfl
  · next missing =>
    have absent : none = some server := missing.symm.trans here
    cases absent

theorem turnsFrom_eq_nextFrom (short : balancer.servers.length < 2 ^ 32)
    (left : i.toNat + turns = balancer.servers.length) :
    turnsFrom failed (turns + 1) i balancer =
      some ((nextFrom failed turns balancer).1.elim (.error noMoreServer) .ok,
        (nextFrom failed turns balancer).2) := by
  induction turns generalizing i balancer with
  | zero => exact turnsFrom_end (Nat.le_of_eq left.symm)
  | succ turns ih =>
    have more : i.toNat < balancer.servers.length := by omega
    obtain ⟨server, here, turn⟩ := turnsFrom_succ failed (turns + 1) more
    rw [turn, nextFrom_succ turns here]
    by_cases dead : server ∈ failed
    · rw [if_pos dead, if_pos dead]
      exact ih short (left_over short left)
    · rw [if_neg dead, if_neg dead]
      rfl

theorem calls_nextServer (short : balancer.servers.length < 2 ^ 32) :
    Calls balancer failed ((nextServer balancer failed).1.elim (.error noMoreServer) .ok)
      (nextServer balancer failed).2 :=
  ⟨_, turnsFrom_eq_nextFrom (i := 0) short (Nat.zero_add _)⟩

/-! ### One call -/

def order (balancer : RoundRobinBalancingStrategy A) (failed : List A) : List Nat :=
  CyclicOrder.order (alive balancer.servers failed) balancer.servers.length balancer.index

def InRange (balancer : RoundRobinBalancingStrategy A) : Prop :=
  balancer.index < balancer.servers.length ∨ balancer.index = 0

omit [DecidableEq A] in
theorem InRange.inside (range : InRange balancer) (filled : balancer.servers ≠ []) :
    balancer.index < balancer.servers.length := by
  have positive := List.length_pos_iff.mpr filled
  obtain inside | zero := range
  · exact inside
  · rw [zero]
    exact positive

theorem order_eq_nil_iff (failed : List A) (range : InRange balancer) :
    order balancer failed = [] ↔ ∀ server ∈ balancer.servers, server ∈ failed := by
  by_cases filled : balancer.servers = []
  · rw [order, filled]
    simp [CyclicOrder.order, CyclicOrder.visits]
  · rw [order, CyclicOrder.order, List.filter_eq_nil_iff]
    simp only [CyclicOrder.mem_visits (range.inside filled), alive_iff, not_exists, not_and,
      not_not]
    constructor
    · intro dead server member
      obtain ⟨p, below, found⟩ := List.mem_iff_getElem.mp member
      exact dead p below server (List.getElem?_eq_some_iff.mpr ⟨below, found⟩)
    · intro dead p below server found
      exact dead server (List.mem_of_getElem? found)

theorem calls_of_order (range : InRange balancer) {p : Nat} {rest : List Nat}
    (round : order balancer failed = p :: rest) :
    ∃ server, balancer.servers[p]? = some server ∧ server ∉ failed ∧
      Calls balancer failed (.ok server) (balancer.moved p) ∧
      order (balancer.moved p) failed = rest ++ [p] ∧ InRange (balancer.moved p) := by
  have filled : balancer.servers ≠ [] := by
    intro empty
    have none := (order_eq_nil_iff failed range).mpr (by simp [empty])
    rw [none] at round
    cases round
  obtain ⟨first, below, next⟩ := CyclicOrder.order_of_cons (range.inside filled) round
  obtain ⟨server, here, live, ended⟩ :=
    turnsFrom_found (i := 0) first (.inl (Nat.le_of_eq (Nat.zero_add _)))
  exact ⟨server, here, live, ⟨_, ended⟩, next, .inl below⟩

theorem calls_of_dead (range : InRange balancer)
    (dead : ∀ server ∈ balancer.servers, server ∈ failed)
    (short : balancer.servers.length < 2 ^ 32) :
    Calls balancer failed (.error noMoreServer) balancer := by
  have round : (CyclicOrder.next balancer.servers.length)^[balancer.servers.length]
      balancer.index = balancer.index := by
    by_cases filled : balancer.servers = []
    · rw [filled]
      rfl
    · exact CyclicOrder.iterate_next_self (range.inside filled)
  have ended := turnsFrom_exhausted (i := 0) dead short (Nat.zero_add _)
  rw [round] at ended
  exact ⟨_, ended⟩

/-! ### Histories -/

theorem Calls.inRange (called : Calls balancer failed result after) (range : InRange balancer) :
    InRange after := by
  by_cases dead : ∀ server ∈ balancer.servers, server ∈ failed
  · by_cases short : balancer.servers.length < 2 ^ 32
    · obtain ⟨-, same⟩ := (calls_of_dead range dead short).unique called
      rwa [same]
    · obtain ⟨turns, ended⟩ := called
      rw [turnsFrom_endless dead (Nat.le_of_not_lt short)] at ended
      cases ended
  · rw [← order_eq_nil_iff failed range] at dead
    obtain ⟨p, rest, round⟩ := List.exists_cons_of_ne_nil dead
    obtain ⟨server, -, -, returns, -, inside⟩ := calls_of_order range round
    obtain ⟨-, same⟩ := returns.unique called
    rwa [same]

theorem Reached.inRange (reached : Reached balancer) : InRange balancer := by
  induction reached with
  | start => exact .inr rfl
  | @setServers balancer reached servers ih =>
    rw [InRange, RoundRobinBalancingStrategy.setServers]
    split
    · exact .inr rfl
    · next inside => exact .inl (Nat.lt_of_not_le inside)
  | nextServer reached called ih => exact called.inRange ih

theorem consecutive_of_order (range : InRange balancer) {positions rest : List Nat}
    (round : order balancer failed = positions ++ rest) :
    ∃ returned last, Consecutive failed balancer returned last ∧
      returned.map Prod.snd = positions ∧
      ∀ server p, (server, p) ∈ returned →
        balancer.servers[p]? = some server ∧ server ∉ failed := by
  induction positions generalizing balancer rest with
  | nil => exact ⟨[], balancer, .none balancer, rfl, fun _ _ member => by cases member⟩
  | cons p positions ih =>
    obtain ⟨server, here, live, called, later, inside⟩ := calls_of_order range round
    have resumed := later.trans (List.append_assoc positions rest [p])
    obtain ⟨returned, last, calls, same, servers⟩ := ih inside resumed
    refine ⟨(server, p) :: returned, last, .call called calls, congrArg (p :: ·) same, ?_⟩
    intro other q member
    obtain here' | member := List.mem_cons.mp member
    · cases here'
      exact ⟨here, live⟩
    · exact servers other q member

/-- What a call does, and what as many calls do as there are positions to return. -/
structure Fair (balancer : RoundRobinBalancingStrategy A) (failed : List A) : Prop where
  inRange : InRange balancer
  ends : ∃ result after, Calls balancer failed result after
  returns : ∀ server after, Calls balancer failed (.ok server) after →
    server ∈ balancer.servers ∧ server ∉ failed
  throws : ∀ e after, Calls balancer failed (.error e) after →
    (∀ server ∈ balancer.servers, server ∈ failed) ∧ after = balancer
  round : ∃ returned last, Consecutive failed balancer returned last ∧
    returned.map Prod.snd =
      ((List.range balancer.servers.length).rotate (balancer.index + 1)).filter
        (alive balancer.servers failed) ∧
    ∀ server p, (server, p) ∈ returned → balancer.servers[p]? = some server ∧ server ∉ failed

theorem round_of_inRange (range : InRange balancer) (failed : List A) :
    ∃ returned last, Consecutive failed balancer returned last ∧
      returned.map Prod.snd =
        ((List.range balancer.servers.length).rotate (balancer.index + 1)).filter
          (alive balancer.servers failed) ∧
      ∀ server p, (server, p) ∈ returned →
        balancer.servers[p]? = some server ∧ server ∉ failed := by
  have positions : order balancer failed =
      ((List.range balancer.servers.length).rotate (balancer.index + 1)).filter
        (alive balancer.servers failed) := by
    by_cases filled : balancer.servers = []
    · rw [order, filled]
      rfl
    · exact CyclicOrder.order_eq_rotate _ (range.inside filled)
  have whole : order balancer failed = order balancer failed ++ [] := (List.append_nil _).symm
  rw [← positions]
  exact consecutive_of_order range whole

theorem fair_of_live (range : InRange balancer) {p : Nat} {rest : List Nat}
    (positions : order balancer failed = p :: rest) : Fair balancer failed := by
  obtain ⟨server, here, live, called, -, -⟩ := calls_of_order range positions
  refine ⟨range, ⟨_, _, called⟩, ?_, ?_, round_of_inRange range failed⟩
  · intro other after returned
    obtain ⟨same, -⟩ := called.unique returned
    cases same
    exact ⟨List.mem_of_getElem? here, live⟩
  · intro e after thrown
    obtain ⟨same, -⟩ := called.unique thrown
    cases same

theorem fair_of_dead (range : InRange balancer)
    (dead : ∀ server ∈ balancer.servers, server ∈ failed)
    (short : balancer.servers.length < 2 ^ 32) : Fair balancer failed := by
  have called := calls_of_dead range dead short
  refine ⟨range, ⟨_, _, called⟩, ?_, ?_, round_of_inRange range failed⟩
  · intro server after returned
    obtain ⟨same, -⟩ := called.unique returned
    cases same
  · intro e after thrown
    exact ⟨dead, (called.unique thrown).2⟩

/-- After any history a call is fair exactly if the list is no longer than the counter goes, or
has a server that has not failed. -/
theorem balancing_fair_iff (reached : Reached balancer) (failed : List A) :
    Fair balancer failed ↔
      balancer.servers.length < 2 ^ 32 ∨ ∃ server ∈ balancer.servers, server ∉ failed := by
  have range := reached.inRange
  constructor
  · intro fair
    by_contra neither
    obtain ⟨long, dead⟩ := not_or.mp neither
    have all : ∀ server ∈ balancer.servers, server ∈ failed := by
      intro server member
      by_contra live
      exact dead ⟨server, member, live⟩
    obtain ⟨result, after, turns, ended⟩ := fair.ends
    rw [turnsFrom_endless all (Nat.le_of_not_lt long)] at ended
    cases ended
  · intro either
    by_cases dead : ∀ server ∈ balancer.servers, server ∈ failed
    · obtain short | ⟨server, member, live⟩ := either
      · exact fair_of_dead range dead short
      · exact absurd (dead server member) live
    · rw [← order_eq_nil_iff failed range] at dead
      obtain ⟨p, rest, positions⟩ := List.exists_cons_of_ne_nil dead
      exact fair_of_live range positions

theorem balancing_fair_of_two : Fair ((({} : RoundRobinBalancingStrategy Nat)).setServers [1, 2]) [1] :=
  (balancing_fair_iff (.setServers .start [1, 2]) [1]).mpr (.inl (by decide))

/-- A list of 2^32 servers that have all failed. -/
theorem not_fair_of_long :
    ¬ ∀ (balancer : RoundRobinBalancingStrategy Nat) (failed : List Nat), Reached balancer →
      Fair balancer failed := by
  intro all
  have reached := Reached.setServers .start (List.replicate (2 ^ 32) 0)
  obtain short | ⟨server, member, live⟩ :=
    (balancing_fair_iff reached [0]).mp (all _ [0] reached)
  · have length : (List.replicate (2 ^ 32) 0).length < 2 ^ 32 := short
    rw [List.length_replicate] at length
    exact Nat.lt_irrefl _ length
  · exact live (List.mem_singleton.mpr (List.eq_of_mem_replicate member))

end RoundRobinBalancingStrategy

end HotRod.Topology
