import HotRod.Data.SortedMap

/-! `NearRemoteCacheImpl` between its threads, the server and the server's events.

Keys and values are in marshalled form; a marshaller is taken to write the bytes
it has read. Each access of the near map is one step, since it holds the lock, and
so is each remote call, at the moment the server executes it. The hit and removal
counters are left out. -/

set_option autoImplicit false

namespace HotRod.NearCache

abbrev Thread := Nat

structure Entry (V : Type) where
  value : V
  version : Nat
  deriving DecidableEq, Repr

/-! ### The server -/

/-- The last state of a key, and its number in the server's order of updates. -/
structure Slot (V : Type) where
  value : Option V
  stamp : Nat
  deriving DecidableEq, Repr

structure Server (K V : Type) [LinearOrder K] where
  slots : SortedMap K (Slot V) := SortedMap.empty
  clock : Nat := 0

inductive EventKind where
  | created
  | modified
  | removed
  | expired
  deriving DecidableEq, Repr

structure Event (K : Type) where
  kind : EventKind
  key : K
  stamp : Nat
  deriving DecidableEq, Repr

inductive Write (V : Type) where
  | put (value : V)
  | putIfAbsent (value : V)
  | replace (value : V)
  | remove
  | replaceWithVersion (value : V) (version : Nat)
  | removeWithVersion (version : Nat)
  deriving DecidableEq, Repr

variable {K V : Type} [LinearOrder K]

namespace Server

def find (s : Server K V) (key : K) : Option (Entry V) :=
  (s.slots.get? key).bind fun slot => slot.value.map fun value => ⟨value, slot.stamp⟩

def stamp (s : Server K V) (key : K) : Nat := ((s.slots.get? key).map Slot.stamp).getD 0

def update (s : Server K V) (key : K) (value : Option V) : Server K V :=
  { slots := s.slots.insert key ⟨value, s.clock + 1⟩, clock := s.clock + 1 }

end Server

def Write.effect : Write V → Option (Entry V) → Option (Option V)
  | .put value, _ => some (some value)
  | .putIfAbsent value, none => some (some value)
  | .replace value, some _ => some (some value)
  | .remove, some _ => some none
  | .replaceWithVersion value version, some e =>
    if e.version = version then some (some value) else none
  | .removeWithVersion version, some e => if e.version = version then some none else none
  | _, none => none
  | .putIfAbsent _, some _ => none

def eventKind : Option (Entry V) → Option V → EventKind
  | none, _ => .created
  | some _, some _ => .modified
  | some _, none => .removed

/-! ### The near map -/

structure NearMap (K V : Type) [LinearOrder K] where
  map : SortedMap K (Entry V) := SortedMap.empty
  fifo : List K := []

namespace NearMap

-- Drops the oldest key of the queue that is still in the map.
def evict (map : SortedMap K (Entry V)) : List K → NearMap K V
  | [] => { map }
  | key :: rest => if key ∈ map then { map := map.erase key, fifo := rest } else evict map rest

def makeRoom (maxEntries : Nat) (key : K) (near : NearMap K V) : NearMap K V :=
  if maxEntries > 0 then
    -- the key is queued first, and may be the one to go
    if near.map.entries.length ≥ maxEntries then evict near.map (near.fifo ++ [key])
    else { near with fifo := near.fifo ++ [key] }
  else near

def addElementToMap (maxEntries : Nat) (key : K) (value : Entry V) (near : NearMap K V) :
    NearMap K V :=
  let near := near.makeRoom maxEntries key
  { near with map := near.map.insert key value }

def removeElementFromMap (maxEntries : Nat) (key : K) (near : NearMap K V) : NearMap K V where
  map := near.map.erase key
  fifo := if maxEntries > 0 then near.fifo.erase key else near.fifo

end NearMap

/-! ### The client -/

inductive Call (K V : Type) where
  | write (key : K) (write : Write V)
  | clear
  deriving DecidableEq, Repr

-- `put`, `replace` and `remove` drop the near entry before the remote call.
def Write.dropsBefore : Write V → Bool
  | .put _ | .replace _ | .remove => true
  | _ => false

-- `replaceWithVersion` and `removeWithVersion` drop it once they have succeeded.
def Write.dropsAfter : Write V → Bool
  | .replaceWithVersion _ _ | .removeWithVersion _ => true
  | _ => false

/-- An operation in progress: a get that has missed, or that has fetched an entry;
a call that is about to be sent, or that has succeeded and is about to drop near
entries, with the states it has led to. -/
inductive Progress (K V : Type) where
  | missed (key : K)
  | fetched (key : K) (entry : Entry V)
  | sending (call : Call K V)
  | dropping (call : Call K V) (stamps : List (K × Nat))

/-- What a thread has seen of a key: the state a get returned, or the state a
successful write of its own has led to. -/
inductive Observation (K V : Type) where
  | got (key : K) (value : Option V) (stamp : Nat)
  | wrote (key : K) (stamp : Nat)
  deriving DecidableEq, Repr

structure System (K V : Type) [LinearOrder K] where
  server : Server K V := {}
  events : List (Event K) := []
  near : NearMap K V := {}
  threads : SortedMap Thread (Progress K V) := SortedMap.empty
  seen : List (Observation K V) := []

-- An update on the server, with its event for the listener.
def publish (s : System K V) (kind : EventKind) (key : K) (value : Option V) : System K V :=
  { s with
    server := s.server.update key value
    events := s.events ++ [⟨kind, key, s.server.clock + 1⟩] }

def execute (s : System K V) (key : K) (w : Write V) : System K V × Option Nat :=
  match w.effect (s.server.find key) with
  | none => (s, none)
  | some value =>
    (publish s (eventKind (s.server.find key) value) key value, some (s.server.clock + 1))

def executeClear (s : System K V) : System K V :=
  s.server.slots.keys.foldl (fun s key => (execute s key .remove).1) s

def stamps (s : System K V) : List (K × Nat) :=
  s.server.slots.keys.map fun key => (key, s.server.stamp key)

inductive Action (K V : Type) where
  | lookup (thread : Thread) (key : K)
  | fetch (thread : Thread)
  | insert (thread : Thread)
  | begin (thread : Thread) (call : Call K V)
  | send (thread : Thread)
  | drop (thread : Thread)
  | fail (thread : Thread) (executed : Bool)
  | other (call : Call K V)
  | expire (key : K)
  | deliver
  deriving DecidableEq, Repr

def executeCall (s : System K V) : Call K V → System K V
  | .write key w => (execute s key w).1
  | .clear => executeClear s

def lookup (s : System K V) (thread : Thread) (key : K) : System K V :=
  match s.near.map.get? key with
  | some e => { s with seen := s.seen ++ [.got key (some e.value) e.version] }
  | none => { s with threads := s.threads.insert thread (.missed key) }

-- Its remote call; a key the server does not hold is not entered in the map.
def fetch (s : System K V) (thread : Thread) (key : K) : System K V :=
  match s.server.find key with
  | some e => { s with threads := s.threads.insert thread (.fetched key e) }
  | none => { s with
      threads := s.threads.erase thread
      seen := s.seen ++ [.got key none (s.server.stamp key)] }

def begin (maxEntries : Nat) (s : System K V) (thread : Thread) (call : Call K V) : System K V :=
  let s := { s with threads := s.threads.insert thread (.sending call) }
  match call with
  | .write key w =>
    if w.dropsBefore then { s with near := s.near.removeElementFromMap maxEntries key } else s
  | .clear => s

def send (s : System K V) (thread : Thread) : Call K V → System K V
  | .write key w =>
    match execute s key w with
    | (s, none) => { s with threads := s.threads.erase thread }
    | (s, some stamp) =>
      if w.dropsAfter then
        { s with threads := s.threads.insert thread (.dropping (.write key w) [(key, stamp)]) }
      else { s with threads := s.threads.erase thread, seen := s.seen ++ [.wrote key stamp] }
  | .clear =>
    let s := executeClear s
    { s with threads := s.threads.insert thread (.dropping .clear (stamps s)) }

def drop (maxEntries : Nat) (s : System K V) (thread : Thread) (call : Call K V)
    (stamps : List (K × Nat)) : System K V :=
  { s with
    near := match call with
      | .write key _ => s.near.removeElementFromMap maxEntries key
      | .clear => {}
    threads := s.threads.erase thread
    seen := s.seen ++ stamps.map fun e => .wrote e.1 e.2 }

/-- One step of the client's threads, the other clients, the server or the listener. -/
def step (maxEntries : Nat) (s : System K V) : Action K V → Option (System K V)
  | .lookup thread key => if thread ∈ s.threads then none else some (lookup s thread key)
  | .fetch thread =>
    match s.threads.get? thread with
    | some (.missed key) => some (fetch s thread key)
    | _ => none
  | .insert thread =>
    match s.threads.get? thread with
    | some (.fetched key e) => some { s with
        near := s.near.addElementToMap maxEntries key e
        threads := s.threads.erase thread
        seen := s.seen ++ [.got key (some e.value) e.version] }
    | _ => none
  | .begin thread call => if thread ∈ s.threads then none else some (begin maxEntries s thread call)
  | .send thread =>
    match s.threads.get? thread with
    | some (.sending call) => some (send s thread call)
    | _ => none
  | .drop thread =>
    match s.threads.get? thread with
    | some (.dropping call stamps) => some (drop maxEntries s thread call stamps)
    | _ => none
  | .fail thread executed =>
    match s.threads.get? thread with
    | some (.missed _) => some { s with threads := s.threads.erase thread }
    | some (.sending call) =>
      -- the client cannot tell whether the server has executed a call that failed
      let s := if executed then executeCall s call else s
      some { s with threads := s.threads.erase thread }
    | _ => none
  | .other call => some (executeCall s call)
  | .expire key =>
    match s.server.find key with
    | none => none
    | some _ => some (publish s .expired key none)
  | .deliver =>
    match s.events with
    | [] => none
    | event :: rest => some { s with
        events := rest
        near := s.near.removeElementFromMap maxEntries event.key }

/-! ### What a step can do -/

section Inversion

variable {maxEntries : Nat} {s t : System K V} {thread : Thread}

theorem step_lookup {key : K} (taken : step maxEntries s (.lookup thread key) = some t) :
    thread ∉ s.threads ∧ t = lookup s thread key := by
  simp only [step, Option.ite_none_left_eq_some, Option.some.injEq] at taken
  exact ⟨taken.1, taken.2.symm⟩

theorem step_fetch (taken : step maxEntries s (.fetch thread) = some t) :
    ∃ key, t = fetch s thread key := by
  simp only [step] at taken
  split at taken <;> cases taken
  exact ⟨_, rfl⟩

theorem step_insert (taken : step maxEntries s (.insert thread) = some t) :
    ∃ key e, s.threads.get? thread = some (.fetched key e) ∧
      t = { s with
        near := s.near.addElementToMap maxEntries key e
        threads := s.threads.erase thread
        seen := s.seen ++ [.got key (some e.value) e.version] } := by
  simp only [step] at taken
  split at taken <;> cases taken
  rename_i carried
  exact ⟨_, _, carried, rfl⟩

theorem step_begin {call : Call K V} (taken : step maxEntries s (.begin thread call) = some t) :
    t = begin maxEntries s thread call := by
  simp only [step, Option.ite_none_left_eq_some, Option.some.injEq] at taken
  exact taken.2.symm

theorem step_send (taken : step maxEntries s (.send thread) = some t) :
    ∃ call, s.threads.get? thread = some (.sending call) ∧ t = send s thread call := by
  simp only [step] at taken
  split at taken <;> cases taken
  rename_i sending
  exact ⟨_, sending, rfl⟩

theorem step_drop (taken : step maxEntries s (.drop thread) = some t) :
    ∃ call stamps, s.threads.get? thread = some (.dropping call stamps) ∧
      t = drop maxEntries s thread call stamps := by
  simp only [step] at taken
  split at taken <;> cases taken
  rename_i dropping
  exact ⟨_, _, dropping, rfl⟩

-- A call that fails may have been executed; a get that fails has changed nothing.
theorem step_fail {executed : Bool} (taken : step maxEntries s (.fail thread executed) = some t) :
    ∃ u : System K V, (u = s ∨ ∃ call, u = executeCall s call) ∧
      t = { u with threads := u.threads.erase thread } := by
  simp only [step] at taken
  split at taken <;> cases taken
  · exact ⟨s, .inl rfl, rfl⟩
  · cases executed with
    | true => exact ⟨_, .inr ⟨_, rfl⟩, rfl⟩
    | false => exact ⟨s, .inl rfl, rfl⟩

theorem step_expire {key : K} (taken : step maxEntries s (.expire key) = some t) :
    t = publish s .expired key none := by
  simp only [step] at taken
  split at taken <;> cases taken
  rfl

theorem step_deliver (taken : step maxEntries s .deliver = some t) :
    ∃ event rest, s.events = event :: rest ∧
      t = { s with
        events := rest
        near := s.near.removeElementFromMap maxEntries event.key } := by
  simp only [step] at taken
  split at taken <;> cases taken
  rename_i queue
  exact ⟨_, _, queue, rfl⟩

end Inversion

/-! ### What the parts of a step do -/

section Facts

variable {s : System K V} {key k : K}

theorem Server.find_update (s : Server K V) (key k : K) (value : Option V) :
    (s.update key value).find k =
      if k = key then value.map (fun v => ⟨v, s.clock + 1⟩) else s.find k := by
  unfold Server.find Server.update
  rw [SortedMap.get?_insert]
  split <;> rfl

theorem Server.stamp_update (s : Server K V) (key k : K) (value : Option V) :
    (s.update key value).stamp k = if k = key then s.clock + 1 else s.stamp k := by
  unfold Server.stamp Server.update
  rw [SortedMap.get?_insert]
  split <;> rfl

theorem Server.version_of_find {s : Server K V} {e : Entry V} (found : s.find k = some e) :
    e.version = s.stamp k := by
  unfold Server.find at found
  unfold Server.stamp
  cases slot : s.slots.get? k with
  | none => simp [slot] at found
  | some slot' =>
    simp only [slot, Option.bind_some, Option.map_eq_some_iff] at found
    obtain ⟨value, -, rfl⟩ := found
    rfl

theorem executeCall_induction {P : System K V → Prop} (holds : P s)
    (published : ∀ s kind key value, P s → P (publish s kind key value)) (call : Call K V) :
    P (executeCall s call) := by
  have write : ∀ s : System K V, P s → ∀ key w, P (execute s key w).1 := fun s holds key w => by
    unfold execute
    split
    · exact holds
    · exact published s _ _ _ holds
  cases call with
  | write key w => exact write s holds key w
  | clear =>
    have removes : ∀ (keys : List K) (s : System K V), P s →
        P (keys.foldl (fun s key => (execute s key .remove).1) s) := by
      intro keys
      induction keys with
      | nil => exact fun _ holds => holds
      | cons key rest ih => exact fun s holds => ih _ (write s holds key .remove)
    exact removes _ s holds

namespace NearMap

variable {near : NearMap K V} {e : Entry V}

theorem get?_evict {map : SortedMap K (Entry V)} {fifo : List K}
    (found : (evict map fifo).map.get? k = some e) :
    map.get? k = some e := by
  induction fifo with
  | nil => exact found
  | cons key rest ih =>
    unfold evict at found
    split at found
    · rw [SortedMap.get?_erase] at found
      split at found
      · cases found
      · exact found
    · exact ih found

theorem get?_addElementToMap {maxEntries : Nat} {value : Entry V}
    (found : (near.addElementToMap maxEntries key value).map.get? k = some e) :
    k = key ∧ e = value ∨ near.map.get? k = some e := by
  simp only [addElementToMap, SortedMap.get?_insert] at found
  split at found
  · rename_i here
    exact .inl ⟨here, (Option.some.inj found).symm⟩
  · refine .inr ?_
    unfold makeRoom at found
    split at found
    · split at found
      · exact get?_evict found
      · exact found
    · exact found

theorem get?_removeElementFromMap {maxEntries : Nat}
    (found : (near.removeElementFromMap maxEntries key).map.get? k = some e) :
    k ≠ key ∧ near.map.get? k = some e := by
  simp only [removeElementFromMap, SortedMap.get?_erase] at found
  split at found
  · cases found
  · rename_i other
    exact ⟨other, found⟩

end NearMap

end Facts

end HotRod.NearCache
