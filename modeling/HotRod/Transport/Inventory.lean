import HotRod.Transport.ConnectionPool

/-! Where connections are: a weighted count over the idle queues, the busy
queues and the borrowers outside the lock.

With the indicator of one connection as weight the count says how often that
connection is held; with weight one it is a number of connections, in all or
under one key. -/

set_option autoImplicit false

namespace HotRod.Transport

open Semantics.Execution ConnectionPool

variable {K : Type} [LinearOrder K]

/-- The weight of a connection under the key it belongs to. -/
abbrev Weight (K : Type) := K → Conn → Nat

def Borrower.load (w : Weight K) : Borrower K → Nat
  | .waiting _ _ => 0
  | .popped key _ obj | .loaded key _ obj _ | .counted key _ obj => w key obj

def Borrower.obj : Borrower K → Option Conn
  | .waiting _ _ => none
  | .popped _ _ obj | .loaded _ _ obj _ | .counted _ _ obj => some obj

def idleWeight (w : Weight K) (idle : SortedMap K (Option IdleQueue)) : Nat :=
  idle.weight fun key q => q.elim 0 fun q => (q.items.map (w key)).sum

def busyWeight (w : Weight K) (busy : SortedMap K (List Conn)) : Nat :=
  busy.weight fun key items => (items.map (w key)).sum

def heldWeight (w : Weight K) (borrowers : SortedMap Thread (Borrower K)) : Nat :=
  borrowers.weight fun _ b => b.load w

theorem sum_filter_ne (w : Conn → Nat) (obj : Conn) (items : List Conn) :
    ((items.filter (· ≠ obj)).map w).sum + items.count obj * w obj = (items.map w).sum := by
  induction items with
  | nil => simp
  | cons c rest ih =>
    by_cases here : c = obj
    · subst here
      simp only [ne_eq, not_true_eq_false, decide_false, Bool.false_eq_true, not_false_eq_true,
        List.filter_cons_of_neg, List.count_cons_self, List.map_cons, List.sum_cons,
        Nat.succ_mul] at ih ⊢
      omega
    · simp only [ne_eq, here, not_false_eq_true, decide_true, List.filter_cons_of_pos,
        List.map_cons, List.sum_cons, List.count_cons_of_ne here] at ih ⊢
      omega

section Maps

variable {w : Weight K} {idle : SortedMap K (Option IdleQueue)} {busy : SortedMap K (List Conn)}
  {borrowers : SortedMap Thread (Borrower K)} {key : K} {thread : Thread}

theorem idleWeight_insert {q : IdleQueue} (found : idle.get? key = some (some q)) (q' : IdleQueue) :
    idleWeight w (idle.insert key (some q')) + (q.items.map (w key)).sum =
      idleWeight w idle + (q'.items.map (w key)).sum := by
  simpa [idleWeight, found] using SortedMap.weight_insert (fun key (q : Option IdleQueue) =>
    q.elim 0 fun q => (q.items.map (w key)).sum) idle key (some q')

theorem idleWeight_erase {q : IdleQueue} (found : idle.get? key = some (some q)) :
    idleWeight w (idle.erase key) + (q.items.map (w key)).sum = idleWeight w idle := by
  simpa [idleWeight, found] using SortedMap.weight_erase (fun key (q : Option IdleQueue) =>
    q.elim 0 fun q => (q.items.map (w key)).sum) idle key

theorem idleWeight_add (absent : key ∉ idle) (generation : Nat) :
    idleWeight w (idle.insert key (some ⟨generation, []⟩)) = idleWeight w idle := by
  simpa [idleWeight, idle.get?_eq_none.mpr absent] using SortedMap.weight_insert
    (fun key (q : Option IdleQueue) => q.elim 0 fun q => (q.items.map (w key)).sum) idle key
      (some ⟨generation, []⟩)

theorem busyWeight_insert (busy : SortedMap K (List Conn)) (key : K) (items : List Conn) :
    busyWeight w (busy.insert key items) + (((busy.get? key).getD []).map (w key)).sum =
      busyWeight w busy + (items.map (w key)).sum := by
  have exchanged := SortedMap.weight_insert (fun key (items : List Conn) => (items.map (w key)).sum)
    busy key items
  cases found : busy.get? key <;> simpa [busyWeight, found] using exchanged

theorem idleWeight_push {q : IdleQueue} (found : idle.get? key = some (some q)) (obj : Conn) :
    idleWeight w (idle.insert key (some { q with items := q.items ++ [obj] })) = idleWeight w idle +
      w key obj := by
  have exchanged := idleWeight_insert (w := w) found { q with items := q.items ++ [obj] }
  simp only [List.map_append, List.map_cons, List.map_nil, List.sum_append,
    List.sum_singleton] at exchanged
  omega

theorem idleWeight_poll {generation : Nat} {obj : Conn} {rest : List Conn}
    (found : idle.get? key = some (some ⟨generation, obj :: rest⟩)) (generation' : Nat) :
    idleWeight w (idle.insert key (some ⟨generation', rest⟩)) + w key obj = idleWeight w idle := by
  have exchanged := idleWeight_insert (w := w) found ⟨generation', rest⟩
  simp only [List.map_cons, List.sum_cons] at exchanged
  omega

theorem busyWeight_push (w : Weight K) (busy : SortedMap K (List Conn)) (key : K) (obj : Conn) :
    busyWeight w (busy.insert key ((busy.get? key).getD [] ++ [obj])) = busyWeight w busy +
      w key obj := by
  have exchanged := busyWeight_insert (w := w) busy key ((busy.get? key).getD [] ++ [obj])
  simp only [List.map_append, List.map_cons, List.map_nil, List.sum_append,
    List.sum_singleton] at exchanged
  omega

theorem busyWeight_remove (w : Weight K) (busy : SortedMap K (List Conn)) (key : K) (obj : Conn) :
    busyWeight w (busy.insert key (((busy.get? key).getD []).filter (· ≠ obj))) +
      ((busy.get? key).getD []).count obj * w key obj = busyWeight w busy := by
  have exchanged := busyWeight_insert (w := w) busy key (((busy.get? key).getD []).filter (· ≠ obj))
  have taken := sum_filter_ne (w key) obj ((busy.get? key).getD [])
  omega

theorem sum_busy_le (w : Weight K) (busy : SortedMap K (List Conn)) (key : K) :
    (((busy.get? key).getD []).map (w key)).sum ≤ busyWeight w busy := by
  cases found : busy.get? key with
  | none => simp
  | some items =>
    exact SortedMap.le_weight (fun key (items : List Conn) => (items.map (w key)).sum) busy found

omit [LinearOrder K] in
theorem heldWeight_insert (b : Borrower K) :
    heldWeight w (borrowers.insert thread b) + ((borrowers.get? thread).map
      (Borrower.load w)).getD 0 =
      heldWeight w borrowers + b.load w :=
  SortedMap.weight_insert (fun _ (b : Borrower K) => b.load w) borrowers thread b

omit [LinearOrder K] in
theorem heldWeight_erase :
    heldWeight w (borrowers.erase thread) + ((borrowers.get? thread).map (Borrower.load w)).getD 0 =
      heldWeight w borrowers :=
  SortedMap.weight_erase (fun _ (b : Borrower K) => b.load w) borrowers thread

end Maps

variable {s : ConnectionPool K} {key : K}

theorem makeObject_eq (s : ConnectionPool K) : makeObject s = match s.makes.head?.join with
    | some e => .error (.raised e) { s with makes := s.makes.tail }
    | none => .ok s.made { s with makes := s.makes.tail, made := s.made + 1 } := by
  cases planned : s.makes.head?.join <;> simp [makeObject, bind_apply, map_apply, planned]

theorem pushIdle_eq {q : IdleQueue} (found : s.idle.get? key = some (some q)) (obj : Conn) :
    pushIdle key obj s =
      .ok () { s with idle := s.idle.insert key (some { q with items := q.items ++ [obj] }) } := by
  simp [pushIdle, bind_apply, found]

theorem pollIdle_of_cons {generation : Nat} {obj : Conn} {rest : List Conn}
    (found : s.idle.get? key = some (some ⟨generation, obj :: rest⟩)) :
    pollIdle key s = .ok (some obj)
      { s with idle := s.idle.insert key (some ⟨generation, rest⟩) } := by
  simp [pollIdle, bind_apply, map_apply, found]

theorem pollIdle_of_nil {generation : Nat}
    (found : s.idle.get? key = some (some ⟨generation, []⟩)) :
    pollIdle key s = .ok none s := by
  simp [pollIdle, bind_apply, found]

end HotRod.Transport
