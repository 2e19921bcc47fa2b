import HotRod.Exceptions
import HotRod.Semantics.Transition
import Mathlib.Data.List.Basic
import Mathlib.Logic.Function.Basic

/-! The sockets of the transports, and the descriptors that they hold.

`connect` tries the addresses of the preferred family first. `close` shuts the descriptor
down and does not give it back to the process, so that it is never taken for another socket.
The output stream hands over all that was written at once, and keeps it where that fails. -/

set_option autoImplicit false

namespace HotRod.Transport.Sockets

open Semantics.Transition

/-! ### Connecting -/

/-- What `poll` gives for a connection in progress; `got` if `getsockopt` returns 0. -/
inductive Poll where
  | failed
  | timedOut
  | ready (revents : UInt16) (got : Bool)
  deriving DecidableEq, Repr

inductive Connect where
  | connected
  | inProgress (poll : Poll)
  | failed
  deriving DecidableEq, Repr

def POLLOUT : UInt16 := 0x004

-- Whether the result is not negative. The error that `getsockopt` finds is not looked at.
def attemptConnect : Connect → Bool
  | .connected => true
  | .inProgress (.ready revents got) => if POLLOUT ^^^ revents ≠ 0 then false else got
  | .inProgress _ => false
  | .failed => false

/-- An entry of the list of `getaddrinfo`, with the descriptor that `socket` gives for it. -/
structure AddrInfo where
  family : Nat
  socket : Option Nat
  connect : Connect
  deriving DecidableEq, Repr

/-- The attempt with the address comes to a connection. -/
def AddrInfo.connects (addr : AddrInfo) : Bool :=
  addr.socket.isSome && attemptConnect addr.connect

-- `opened` has the descriptors of the process.
def connectToHost (preferredIPStack : Nat) (preferred : Bool) :
    List AddrInfo → List Nat → Option Nat × List Nat
  | [], opened => (none, opened)
  | addr :: rest, opened =>
    if decide (preferredIPStack = addr.family) ≠ preferred then
      connectToHost preferredIPStack preferred rest opened
    else
      match addr.socket with
      | none => connectToHost preferredIPStack preferred rest opened
      | some sock =>
        let opened := sock :: opened
        if attemptConnect addr.connect then (some sock, opened)
        else connectToHost preferredIPStack preferred rest (opened.erase sock)

structure Socket where
  -- No descriptor is -1.
  fd : Option Nat := none
  host : String := ""
  port : Int := -1
  deriving DecidableEq, Repr

namespace Socket

def ioErr (s : Socket) (message : String) : Exn := .throwIOErr s.host s.port message

-- The port is cast to `unsigned short`.
def connect (preferredIPStack : Nat) (host : String) (port : Int)
    (getaddrinfo : Except String (List AddrInfo)) (s : Socket) (opened : List Nat) :
    Option Exn × Socket × List Nat :=
  let s := { s with host, port := port % 65536 }
  if s.fd.isSome then (some (s.ioErr "reconnect attempt"), s, opened)
  else
    match getaddrinfo with
    | .error message =>
      (some (s.ioErr ("Error while invoking getaddrinfo: " ++ message)), s, opened)
    | .ok addrList =>
      let (fd, opened) :=
        match connectToHost preferredIPStack true addrList opened with
        | (some fd, opened) => (some fd, opened)
        | (none, opened) => connectToHost preferredIPStack false addrList opened
      match fd with
      | some fd => (none, { s with fd := some fd }, opened)
      | none => (some (s.ioErr "Failed to connect"), s, opened)

-- `shutdown` leaves the descriptor open.
def close (s : Socket) : Socket := { s with fd := none }

end Socket

-- A pass takes the first address of its families that comes to a connection, and closes what it has
-- opened for the others.
theorem connectToHost_eq (preferredIPStack : Nat) (preferred : Bool) (addrList : List AddrInfo)
    (opened : List Nat) :
    connectToHost preferredIPStack preferred addrList opened =
      match (addrList.filter fun addr => decide (preferredIPStack = addr.family) = preferred).find?
        AddrInfo.connects with
      | some addr => (addr.socket, addr.socket.toList ++ opened)
      | none => (none, opened) := by
  induction addrList generalizing opened with
  | nil => rfl
  | cons addr rest ih =>
    rw [connectToHost]
    by_cases taken : decide (preferredIPStack = addr.family) = preferred
    · rw [if_neg (not_not.mpr taken), List.filter_cons_of_pos (by simpa using taken)]
      cases sock : addr.socket with
      | none =>
        have fails : ¬ addr.connects = true := by simp [AddrInfo.connects, sock]
        rw [List.find?_cons_of_neg fails]
        exact ih opened
      | some fd =>
        by_cases attempt : attemptConnect addr.connect = true
        · have connects : addr.connects = true := by simp [AddrInfo.connects, sock, attempt]
          rw [List.find?_cons_of_pos connects]
          simp [attempt, sock]
        · have fails : ¬ addr.connects = true := by simp [AddrInfo.connects, attempt]
          rw [List.find?_cons_of_neg fails]
          simp only [attempt, List.erase_cons_head]
          exact ih opened
    · rw [if_pos taken, List.filter_cons_of_neg (by simpa using taken)]
      exact ih opened

def order (preferredIPStack : Nat) (addrList : List AddrInfo) : List AddrInfo :=
  addrList.filter (fun addr => decide (preferredIPStack = addr.family) = true) ++
    addrList.filter fun addr => decide (preferredIPStack = addr.family) = false

/-- A socket that is not connected connects to the first address, in that order, that an
attempt comes to a connection with, and fails where there is none. It opens no other
descriptor for good. -/
theorem connect_eq (preferredIPStack : Nat) (host : String) (port : Int)
    (addrList : List AddrInfo) {s : Socket} (unconnected : s.fd = none) (opened : List Nat) :
    s.connect preferredIPStack host port (.ok addrList) opened =
      match (order preferredIPStack addrList).find? AddrInfo.connects with
      | some addr => (none, { fd := addr.socket, host, port := port % 65536 },
          addr.socket.toList ++ opened)
      | none => (some (.throwIOErr host (port % 65536) "Failed to connect"),
          { s with host, port := port % 65536 }, opened) := by
  have connected : ∀ preferred addr,
      (addrList.filter fun addr => decide (preferredIPStack = addr.family) = preferred).find?
        AddrInfo.connects = some addr → addr.socket.isSome = true := by
    intro preferred addr found
    have connects := List.find?_some found
    rw [AddrInfo.connects, Bool.and_eq_true] at connects
    exact connects.1
  rw [Socket.connect, order, List.find?_append]
  simp only [unconnected, Option.isSome_none, connectToHost_eq]
  cases first : (addrList.filter fun addr =>
      decide (preferredIPStack = addr.family) = true).find? AddrInfo.connects with
  | some addr =>
    obtain ⟨fd, sock⟩ := Option.isSome_iff_exists.mp (connected true addr first)
    simp [sock]
  | none =>
    cases second : (addrList.filter fun addr =>
        decide (preferredIPStack = addr.family) = false).find? AddrInfo.connects with
    | some addr =>
      obtain ⟨fd, sock⟩ := Option.isSome_iff_exists.mp (connected false addr second)
      simp [sock]
    | none => simp [Socket.ioErr]

theorem connect_preferred :
    Socket.connect 2 "host" 65547 (.ok [⟨10, some 5, .connected⟩, ⟨2, some 5, .connected⟩]) {} [] =
      (none, { fd := some 5, host := "host", port := 11 }, [5]) :=
  (connect_eq 2 "host" 65547 [⟨10, some 5, .connected⟩, ⟨2, some 5, .connected⟩] (s := {}) rfl
    []).trans (by decide +kernel)

/-! ### Descriptors -/

structure Process where
  sockets : Nat → Socket := fun _ => {}
  opened : List Nat := []
  established : List Nat := []

inductive Event where
  | connect (socket : Nat) (host : String) (port : Int)
    (getaddrinfo : Except String (List AddrInfo))
  | close (socket : Nat)

def Event.fresh (opened : List Nat) : Event → Bool
  | .connect _ _ _ (.ok addrList) =>
    addrList.all fun addr => addr.socket.all fun sock => !opened.contains sock
  | _ => true

def step (preferredIPStack : Nat) (p : Process) (event : Event) : Option Process :=
  if event.fresh p.opened then
    match event with
    | .connect socket host port getaddrinfo =>
      match (p.sockets socket).connect preferredIPStack host port getaddrinfo p.opened with
      | (some _, s, opened) =>
        some { p with sockets := Function.update p.sockets socket s, opened }
      | (none, s, opened) => some
        { sockets := Function.update p.sockets socket s
          opened
          established := s.fd.toList ++ p.established }
    | .close socket =>
      some { p with sockets := Function.update p.sockets socket (p.sockets socket).close }
  else none

theorem connect_cases (preferredIPStack : Nat) {socket : Nat} {host : String} {port : Int}
    {getaddrinfo : Except String (List AddrInfo)} {s : Socket} {opened : List Nat}
    (fresh : (Event.connect socket host port getaddrinfo).fresh opened = true) :
    (∃ e s', s.connect preferredIPStack host port getaddrinfo opened = (some e, s', opened) ∧
        s'.fd = s.fd) ∨
      ∃ s' fd, s.connect preferredIPStack host port getaddrinfo opened =
        (none, s', fd :: opened) ∧ s'.fd = some fd ∧ s.fd = none ∧ fd ∉ opened := by
  cases held : s.fd with
  | some fd =>
    refine .inl ⟨.throwIOErr host (port % 65536) "reconnect attempt",
      { s with host, port := port % 65536 }, ?_, held⟩
    simp [Socket.connect, Socket.ioErr, held]
  | none =>
    cases getaddrinfo with
    | error message =>
      refine .inl ⟨.throwIOErr host (port % 65536)
        ("Error while invoking getaddrinfo: " ++ message), { s with host, port := port % 65536 },
        ?_, held⟩
      simp [Socket.connect, Socket.ioErr, held]
    | ok addrList =>
      rw [connect_eq preferredIPStack host port addrList held]
      cases found : (order preferredIPStack addrList).find? AddrInfo.connects with
      | none => exact .inl ⟨_, _, rfl, held⟩
      | some addr =>
        have connects := List.find?_some found
        rw [AddrInfo.connects, Bool.and_eq_true] at connects
        obtain ⟨fd, sock⟩ := Option.isSome_iff_exists.mp connects.1
        have listed : addr ∈ addrList := by
          have member := List.mem_of_find?_eq_some found
          rw [order, List.mem_append, List.mem_filter, List.mem_filter] at member
          exact member.elim And.left And.left
        refine .inr ⟨{ fd := addr.socket, host, port := port % 65536 }, fd, ?_, sock, rfl, ?_⟩
        · dsimp only
          rw [sock]
          rfl
        have new := List.all_eq_true.mp fresh addr listed
        rw [sock] at new
        simpa using new

/-- Each socket holds a descriptor of its own among those that are open. -/
structure Own (p : Process) : Prop where
  held : ∀ socket fd, (p.sockets socket).fd = some fd → fd ∈ p.established
  own : ∀ first second fd, (p.sockets first).fd = some fd → (p.sockets second).fd = some fd →
    first = second
  leaked : p.opened = p.established
  distinct : p.established.Nodup

theorem own_initial : Own {} where
  held _ _ found := by cases found
  own _ _ _ found := by cases found
  leaked := rfl
  distinct := List.nodup_nil

theorem Own.update {p : Process} (good : Own p) {socket : Nat} {s : Socket}
    (kept : ∀ fd, s.fd = some fd → (p.sockets socket).fd = some fd) :
    Own { p with sockets := Function.update p.sockets socket s } := by
  have before : ∀ other fd, (Function.update p.sockets socket s other).fd = some fd →
      (p.sockets other).fd = some fd := by
    intro other fd found
    by_cases same : other = socket
    · subst same
      rw [Function.update_self] at found
      exact kept fd found
    · rwa [Function.update_of_ne same] at found
  refine ⟨?_, ?_, good.leaked, good.distinct⟩
  · intro other fd found
    exact good.held other fd (before other fd found)
  · intro first second fd found found'
    exact good.own first second fd (before first fd found) (before second fd found')

theorem Own.step {preferredIPStack : Nat} {p q : Process} {event : Event} (good : Own p)
    (taken : step preferredIPStack p event = some q) : Own q := by
  unfold Sockets.step at taken
  split at taken
  · rename_i fresh
    cases event with
    | close socket =>
      cases taken
      exact good.update fun fd found => by cases found
    | connect socket host port getaddrinfo =>
      obtain ⟨e, s, connected, kept⟩ | ⟨s, fd, connected, found, free, new⟩ :=
        connect_cases preferredIPStack (s := p.sockets socket) fresh
      · dsimp only at taken
        rw [connected] at taken
        cases taken
        exact good.update fun fd found => kept ▸ found
      · dsimp only at taken
        rw [connected] at taken
        cases taken
        rw [good.leaked] at new
        have unheld : ∀ other, (p.sockets other).fd ≠ some fd := fun other found' =>
          new (good.held other fd found')
        have both : ∀ other fd', (Function.update p.sockets socket s other).fd = some fd' →
            other = socket ∧ fd' = fd ∨ other ≠ socket ∧ (p.sockets other).fd = some fd' := by
          intro other fd' found'
          by_cases same : other = socket
          · subst same
            rw [Function.update_self, found] at found'
            exact .inl ⟨rfl, (Option.some.inj found').symm⟩
          · rw [Function.update_of_ne same] at found'
            exact .inr ⟨same, found'⟩
        rw [found]
        refine ⟨?_, ?_, ?_, List.nodup_cons.mpr ⟨new, good.distinct⟩⟩
        · intro other fd' found'
          rcases both other fd' found' with ⟨-, rfl⟩ | ⟨-, before⟩
          · exact List.mem_cons_self
          · exact List.mem_cons_of_mem _ (good.held other fd' before)
        · intro first second fd' found' found''
          rcases both first fd' found' with ⟨rfl, rfl⟩ | ⟨-, before⟩
          · rcases both second fd' found'' with ⟨rfl, -⟩ | ⟨-, before⟩
            · rfl
            · exact absurd before (unheld second)
          · rcases both second fd' found'' with ⟨rfl, rfl⟩ | ⟨-, before'⟩
            · exact absurd before (unheld first)
            · exact good.own first second fd' before before'
        · rw [good.leaked]
          rfl
  · cases taken

/-- No connection is given the descriptor of another one, though that has been closed
before. The price is that a process keeps the descriptors of all connections it ever made. -/
theorem descriptors_of_run {preferredIPStack : Nat} {events : List Event} {p : Process}
    (taken : run (step preferredIPStack) {} events = some p) :
    p.established.Nodup ∧ p.opened = p.established ∧
      ∀ first second fd, (p.sockets first).fd = some fd → (p.sockets second).fd = some fd →
        first = second := by
  have good : Own p :=
    run_invariant_of_step Own own_initial (fun _ _ _ good next => good.step next) taken
  exact ⟨good.distinct, good.leaked, good.own⟩

theorem descriptors_of_reconnect :
    ∃ p, run (step 2) {} [.connect 0 "host" 11222 (.ok [⟨2, some 5, .connected⟩]), .close 0,
        .connect 1 "host" 11222 (.ok [⟨2, some 6, .connected⟩])] = some p ∧
      p.opened = p.established ∧ p.established = [6, 5] := by
  have taken : run (step 2) {} [.connect 0 "host" 11222 (.ok [⟨2, some 5, .connected⟩]), .close 0,
    .connect 1 "host" 11222 (.ok [⟨2, some 6, .connected⟩])] = some _ := rfl
  exact ⟨_, taken, (descriptors_of_run taken).2.1, rfl⟩

/-! ### Transports -/

/-- The transports of `TransportObjectFactory`, numbered as they are made; each has the socket
of its number. `handed` are those that it has given out and that were not destroyed since,
`unauthenticated` those that were connected and not given out. -/
structure Transports where
  process : Process := {}
  made : Nat := 0
  handed : List Nat := []
  unauthenticated : List Nat := []

/-- `makeObject` meets what `connect` does, what `setTimeout` or `setTcpNoDelay` raises, and
what `do_sasl_authentication` raises. -/
inductive TransportCall where
  | makeObject (host : String) (port : Int) (getaddrinfo : Except String (List AddrInfo))
    (options authentication : Option Exn)
  | destroyObject (transport : Nat)

/-- An exception in the constructor destroys the socket, and one after it leaves the transport
to nobody. The pool destroys what it was given. -/
def transportStep (preferredIPStack : Nat) (s : Transports) : TransportCall → Option Transports
  | .makeObject host port getaddrinfo options authentication =>
    (step preferredIPStack s.process (.connect s.made host port getaddrinfo)).bind fun process =>
      let s' := { s with process, made := s.made + 1 }
      if (process.sockets s.made).fd = none then some s'
      else if options.isSome then
        (step preferredIPStack process (.close s.made)).map fun process => { s' with process }
      else if authentication.isSome then
        some { s' with unauthenticated := s.made :: s.unauthenticated }
      else some { s' with handed := s.made :: s.handed }
  | .destroyObject transport =>
    if transport ∈ s.handed then
      (step preferredIPStack s.process (.close transport)).map fun process =>
        { s with process, handed := s.handed.erase transport }
    else none

/-- The sockets that are connected are those of the transports that were given out and those
that failed to authenticate. -/
structure Connected (s : Transports) : Prop where
  connected : ∀ i, (s.process.sockets i).fd.isSome = true ↔ i ∈ s.handed ∨ i ∈ s.unauthenticated
  made : ∀ i, (s.process.sockets i).fd.isSome = true → i < s.made
  once : s.handed.Nodup
  apart : ∀ i ∈ s.handed, i ∉ s.unauthenticated

theorem step_close {preferredIPStack : Nat} (p : Process) (socket : Nat) :
    step preferredIPStack p (.close socket) =
      some { p with sockets := Function.update p.sockets socket (p.sockets socket).close } := rfl

theorem sockets_of_connect {preferredIPStack : Nat} {p q : Process} {socket : Nat} {host : String}
    {port : Int} {getaddrinfo : Except String (List AddrInfo)}
    (taken : step preferredIPStack p (.connect socket host port getaddrinfo) = some q) (other : Nat)
    (distinct : other ≠ socket) : q.sockets other = p.sockets other := by
  unfold step at taken
  split at taken
  · dsimp only at taken
    split at taken <;> cases taken <;> exact Function.update_of_ne distinct _ _
  · cases taken

section Steps

variable {s : Transports} {process : Process}

theorem Connected.unmade (good : Connected s) :
    (s.process.sockets s.made).fd = none ∧ s.made ∉ s.handed ∧ s.made ∉ s.unauthenticated := by
  have absent : ¬ (s.process.sockets s.made).fd.isSome = true := fun held =>
    Nat.lt_irrefl _ (good.made s.made held)
  refine ⟨by simpa using absent, ?_, ?_⟩
  · exact fun member => absent ((good.connected s.made).mpr (.inl member))
  · exact fun member => absent ((good.connected s.made).mpr (.inr member))

theorem Connected.failed (good : Connected s)
    (others : ∀ i, i ≠ s.made → process.sockets i = s.process.sockets i)
    (closed : (process.sockets s.made).fd = none) :
    Connected { s with process, made := s.made + 1 } := by
  have same : ∀ i, (process.sockets i).fd = (s.process.sockets i).fd := by
    intro i
    by_cases here : i = s.made
    · rw [here, closed, good.unmade.1]
    · rw [others i here]
  refine ⟨?_, ?_, good.once, good.apart⟩
  · intro i
    exact (congrArg (fun fd => fd.isSome = true) (same i)).to_iff.trans (good.connected i)
  · intro i held
    rw [same i] at held
    exact Nat.lt_succ_of_lt (good.made i held)

section Made

variable (others : ∀ i, i ≠ s.made → process.sockets i = s.process.sockets i)
  (held : (process.sockets s.made).fd ≠ none)

include others held

theorem Connected.of_made (good : Connected s) (i : Nat) :
    ((process.sockets i).fd.isSome = true ↔
      i = s.made ∨ i ∈ s.handed ∨ i ∈ s.unauthenticated) ∧
      ((process.sockets i).fd.isSome = true → i < s.made + 1) := by
  by_cases here : i = s.made
  · subst here
    exact ⟨iff_of_true (Option.isSome_iff_ne_none.mpr held) (.inl rfl),
      fun _ => Nat.lt_succ_self _⟩
  · rw [others i here, good.connected i, or_iff_right here]
    exact ⟨Iff.rfl, fun before =>
      Nat.lt_succ_of_lt (good.made i ((good.connected i).mpr before))⟩

theorem Connected.unauthenticated (good : Connected s) :
    Connected { s with
      process, made := s.made + 1, unauthenticated := s.made :: s.unauthenticated } := by
  refine ⟨?_, fun i => (good.of_made others held i).2, good.once, ?_⟩
  · intro i
    rw [(good.of_made others held i).1, List.mem_cons, or_left_comm]
  · intro i member later
    rcases List.mem_cons.mp later with rfl | before
    · exact good.unmade.2.1 member
    · exact good.apart i member before

theorem Connected.given (good : Connected s) :
    Connected { s with process, made := s.made + 1, handed := s.made :: s.handed } := by
  refine ⟨?_, fun i => (good.of_made others held i).2,
    List.nodup_cons.mpr ⟨good.unmade.2.1, good.once⟩, ?_⟩
  · intro i
    rw [(good.of_made others held i).1, List.mem_cons, or_assoc]
  · intro i member
    rcases List.mem_cons.mp member with rfl | before
    · exact good.unmade.2.2
    · exact good.apart i before

end Made

theorem Connected.destroyed (good : Connected s) {transport : Nat} (member : transport ∈ s.handed)
    (others : ∀ i, i ≠ transport → process.sockets i = s.process.sockets i)
    (closed : (process.sockets transport).fd = none) :
    Connected { s with process, handed := s.handed.erase transport } := by
  have held : ∀ i, (process.sockets i).fd.isSome = true ↔
      i ≠ transport ∧ (i ∈ s.handed ∨ i ∈ s.unauthenticated) := by
    intro i
    by_cases here : i = transport
    · subst here
      simp [closed]
    · rw [others i here, good.connected i, and_iff_right here]
  refine ⟨?_, ?_, good.once.erase _, ?_⟩
  · intro i
    rw [held i, List.Nodup.mem_erase_iff good.once]
    constructor
    · rintro ⟨other, handed | unauthenticated⟩
      · exact .inl ⟨other, handed⟩
      · exact .inr unauthenticated
    · rintro (⟨other, handed⟩ | unauthenticated)
      · exact ⟨other, .inl handed⟩
      · refine ⟨?_, .inr unauthenticated⟩
        rintro rfl
        exact good.apart i member unauthenticated
  · intro i connected
    exact good.made i ((good.connected i).mpr ((held i).mp connected).2)
  · intro i left
    exact good.apart i (List.mem_of_mem_erase left)

theorem Connected.step {preferredIPStack : Nat} {t : Transports} {call : TransportCall}
    (good : Connected s) (taken : transportStep preferredIPStack s call = some t) :
    Connected t ∧ s.unauthenticated ⊆ t.unauthenticated := by
  cases call with
  | makeObject host port getaddrinfo options authentication =>
    obtain ⟨process, connected, rest⟩ := Option.bind_eq_some_iff.mp taken
    have others := sockets_of_connect connected
    dsimp only at rest
    split at rest
    · next closed =>
      cases rest
      exact ⟨good.failed others closed, List.Subset.refl _⟩
    · next held =>
      split at rest
      · rw [step_close] at rest
        cases rest
        refine ⟨good.failed ?_ ?_, List.Subset.refl _⟩
        · intro i distinct
          exact (Function.update_of_ne distinct _ _).trans (others i distinct)
        · dsimp only
          rw [Function.update_self]
          rfl
      · split at rest
        · cases rest
          exact ⟨good.unauthenticated others held, List.subset_cons_self _ _⟩
        · cases rest
          exact ⟨good.given others held, List.Subset.refl _⟩
  | destroyObject transport =>
    rw [transportStep] at taken
    split at taken
    · next member =>
      rw [step_close] at taken
      cases taken
      refine ⟨good.destroyed member ?_ ?_, List.Subset.refl _⟩
      · exact fun i distinct => Function.update_of_ne distinct _ _
      · dsimp only
        rw [Function.update_self]
        rfl
    · cases taken

end Steps

theorem connected_initial : Connected {} where
  connected i := by simp
  made i found := by cases found
  once := List.nodup_nil
  apart i member := by cases member

theorem Connected.run {preferredIPStack : Nat} {s t : Transports} {calls : List TransportCall}
    (good : Connected s) (taken : run (transportStep preferredIPStack) s calls = some t) :
    Connected t ∧ s.unauthenticated ⊆ t.unauthenticated := by
  refine run_invariant_of_step
    (fun t => Connected t ∧ s.unauthenticated ⊆ t.unauthenticated)
    ⟨good, List.Subset.refl _⟩ ?_ taken
  intro middle call last both next
  have later := both.1.step next
  exact ⟨later.1, List.Subset.trans both.2 later.2⟩

/-- Where an authentication fails, the connection is neither given out nor ever closed: what
is connected at any time are the transports in use and one for each such failure before. -/
theorem connected_of_run {preferredIPStack : Nat} {calls more : List TransportCall}
    {s t : Transports} (taken : run (transportStep preferredIPStack) {} calls = some s)
    (later : run (transportStep preferredIPStack) s more = some t) :
    (∀ i, (t.process.sockets i).fd.isSome = true ↔ i ∈ t.handed ∨ i ∈ t.unauthenticated) ∧
      ∀ i ∈ s.unauthenticated, (t.process.sockets i).fd.isSome = true ∧ i ∉ t.handed := by
  have before := (connected_initial.run taken).1
  obtain ⟨good, kept⟩ := before.run later
  refine ⟨good.connected, ?_⟩
  intro i member
  refine ⟨(good.connected i).mpr (.inr (kept member)), ?_⟩
  exact fun handed => good.apart i handed (kept member)

theorem connected_of_failure :
    ∃ s t, run (transportStep 2) {}
        [.makeObject "host" 11222 (.ok [⟨2, some 5, .connected⟩]) none none,
          .makeObject "host" 11222 (.ok [⟨2, some 6, .connected⟩]) none
            (some (.hotRodClient "Sasl error -1 : performing SASL negotiation"))] = some s ∧
      run (transportStep 2) s [.destroyObject 0] = some t ∧
      (t.process.sockets 1).fd.isSome = true ∧ t.handed = [] := by
  have taken : run (transportStep 2) {}
    [.makeObject "host" 11222 (.ok [⟨2, some 5, .connected⟩]) none none,
      .makeObject "host" 11222 (.ok [⟨2, some 6, .connected⟩]) none
        (some (.hotRodClient "Sasl error -1 : performing SASL negotiation"))] = some _ := rfl
  have kept := @connected_of_run 2 _ [.destroyObject 0] _ _ taken rfl
  exact ⟨_, _, taken, rfl, (kept.2 1 List.mem_cons_self).1, rfl⟩

/-! ### The output stream -/

/-- What `send` gives for the text of the stream; it takes no more than there is. -/
inductive Send where
  | failed
  | took (n : Nat)

/-- `sent` are the bytes that the socket has taken. Of the stream's past there is all that
was `written`, and the number of bytes that were taken when `flush` raised. -/
structure OutputStream where
  out : List UInt8 := []
  sent : List UInt8 := []
  written : List UInt8 := []
  partly : Nat := 0

namespace OutputStream

def write (p : List UInt8) (s : OutputStream) : OutputStream :=
  { s with out := s.out ++ p, written := s.written ++ p }

-- The stream is emptied after `socket.write`, which raises unless all is taken.
def flush (send : Send) (s : OutputStream) : Option String × OutputStream :=
  match send with
  | .failed => (some "write", s)
  | .took n =>
    if min n s.out.length = s.out.length then
      (none, { s with sent := s.sent ++ s.out, out := [] })
    else
      (some "write error",
        { s with sent := s.sent ++ s.out.take n, partly := s.partly + min n s.out.length })

end OutputStream

inductive StreamCall where
  | write (p : List UInt8)
  | flush (send : Send)

def streamStep (s : OutputStream) : StreamCall → Option OutputStream
  | .write p => some (s.write p)
  | .flush send => some (s.flush send).2

/-- What is written is taken once and in order if no `flush` has raised with a part taken,
and else not. -/
theorem sent_eq_written_iff {calls : List StreamCall} {s : OutputStream}
    (taken : run streamStep {} calls = some s) : s.sent ++ s.out = s.written ↔ s.partly = 0 := by
  have both : s.sent.length + s.out.length = s.written.length + s.partly ∧
      (s.partly = 0 → s.sent ++ s.out = s.written) := by
    refine run_invariant_of_step (fun s : OutputStream =>
      s.sent.length + s.out.length = s.written.length + s.partly ∧
        (s.partly = 0 → s.sent ++ s.out = s.written)) ⟨rfl, fun _ => rfl⟩ ?_ taken
    intro s call t holds next
    obtain ⟨lengths, whole⟩ := holds
    cases call with
    | write p =>
      cases next
      refine ⟨?_, ?_⟩
      · simp only [OutputStream.write, List.length_append]
        omega
      · intro never
        rw [OutputStream.write, ← List.append_assoc, whole never]
    | flush send =>
      cases next
      cases send with
      | failed => exact ⟨lengths, whole⟩
      | took n =>
        rw [OutputStream.flush]
        split
        · simpa using ⟨lengths, whole⟩
        · rename_i part
          refine ⟨?_, ?_⟩
          · simp only [List.length_append, List.length_take]
            omega
          · intro never
            dsimp only at never
            have nothing : n = 0 := by omega
            subst nothing
            simpa using whole (by omega)
  refine ⟨?_, both.2⟩
  intro same
  have lengths := congrArg List.length same
  rw [List.length_append] at lengths
  omega

theorem sent_of_part :
    ∃ s, run streamStep {} [.write [1, 2], .flush (.took 1), .flush (.took 2)] = some s ∧
      s.sent = [1, 1, 2] ∧ s.sent ++ s.out ≠ s.written := by
  have taken : run streamStep {} [.write [1, 2], .flush (.took 1), .flush (.took 2)] =
    some _ := rfl
  refine ⟨_, taken, rfl, ?_⟩
  intro same
  have never := (sent_eq_written_iff taken).mp same
  cases never

end HotRod.Transport.Sockets
