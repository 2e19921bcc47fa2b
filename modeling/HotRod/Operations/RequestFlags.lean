import HotRod.Data.SortedMap
import HotRod.Semantics.Transition

/-! The flags of the requests of one cache handle.

`OperationsFactory` has one word of flags for all calls of all threads: `withFlags` sets
it, a put ors its defaults into it, and the operation that is made reads it and sets it
to 0. A step here is one access to the word. -/

set_option autoImplicit false

namespace HotRod.Operations

open Semantics.Transition

abbrev Caller := Nat

/-! ### Flags and calls -/

namespace Flags

def FORCE_RETURN_VALUE : UInt32 := 0x01
def DEFAULT_LIFESPAN : UInt32 := 0x02
def DEFAULT_MAXIDLE : UInt32 := 0x04

end Flags

open Flags

/-- A request that a call sends, by whether `applyDefaultExpirationFlags` comes before it.
`pinging` is the `PingOperation` that a `FaultTolerantPingOperation` makes. -/
inductive Sending where
  | plain
  | expiring (lifespan maxIdle : UInt64)
  | pinging
  deriving DecidableEq, Repr

inductive Access where
  | load
  | store (f : UInt32)
  | read
  | reset
  deriving DecidableEq, Repr

def addFlags (f : UInt32) : List Access := [.load, .store f]

def applyDefaultExpirationFlags (lifespan maxIdle : UInt64) : List Access :=
  (if lifespan = 0 then addFlags DEFAULT_LIFESPAN else []) ++
    if maxIdle = 0 then addFlags DEFAULT_MAXIDLE else []

def getFlags : List Access := [.read, .reset]

namespace Sending

def accesses : Sending → List Access
  | plain | pinging => getFlags
  | expiring lifespan maxIdle => applyDefaultExpirationFlags lifespan maxIdle ++ getFlags

def defaults : Sending → UInt32
  | plain | pinging => 0
  | expiring lifespan maxIdle =>
    (if lifespan = 0 then DEFAULT_LIFESPAN else 0) ||| if maxIdle = 0 then DEFAULT_MAXIDLE else 0

-- The flags that are written, out of those that `getFlags` returns: a `PingOperation` is made with
-- 0.
def writes (flags : UInt32) : Sending → UInt32
  | pinging => 0
  | _ => flags

end Sending

/-- The calls of a cache. `getAll` sends one request for each group of keys; `entries` says
of each entry of a `putAll` whether its key is known to the transaction. `other` is any
call but a ping that sends one request in every layer. -/
inductive CacheCall where
  | get
  | getWithVersion
  | getWithMetadata
  | containsKey
  | getAll (groups : Nat)
  | put (lifespan maxIdle : UInt64)
  | putAll (lifespan maxIdle : UInt64) (entries : List Bool)
  | putIfAbsent (lifespan maxIdle : UInt64)
  | replace (lifespan maxIdle : UInt64)
  | remove
  | replaceWithVersion
  | removeWithVersion
  | getBulk
  | ping
  | other
  deriving DecidableEq, Repr

inductive Layer where
  | remoteCache
  | nearRemoteCache (cached : Bool)
  | transactional (forceReturnValue known : Bool)
  deriving DecidableEq, Repr

namespace CacheCall

def remote : CacheCall → List Sending
  | put lifespan maxIdle | putIfAbsent lifespan maxIdle | replace lifespan maxIdle =>
    [.expiring lifespan maxIdle]
  | putAll lifespan maxIdle entries => entries.map fun _ => .expiring lifespan maxIdle
  | getAll groups => List.replicate groups .plain
  | ping => [.pinging]
  | _ => [.plain]

-- `transactional_base_get`, which asks the server for a key it does not know.
def transactionalGet (known : Bool) : List Sending := if known then [] else [.plain]

-- `transactional_base_put` reads first if it has to return the previous value.
def transactionalPut (forceReturnValue known : Bool) : List Sending :=
  if forceReturnValue then transactionalGet known else []

def sendings : Layer → CacheCall → List Sending
  | .nearRemoteCache true, get | .nearRemoteCache true, getWithVersion => []
  | .transactional _ known, get | .transactional _ known, getWithVersion
  | .transactional _ known, getWithMetadata | .transactional _ known, containsKey
  | .transactional _ known, putIfAbsent _ _ | .transactional _ known, replace _ _
  | .transactional _ known, replaceWithVersion | .transactional _ known, removeWithVersion =>
    transactionalGet known
  | .transactional forceReturnValue known, put _ _ | .transactional forceReturnValue known, remove =>
    transactionalPut forceReturnValue known
  | .transactional forceReturnValue _, putAll _ _ entries =>
    entries.flatMap (transactionalPut forceReturnValue)
  -- what is missing in the transaction, and then all of it again
  | .transactional _ _, getBulk => [.plain, .plain]
  | _, call => call.remote

end CacheCall

/-! ### Threads -/

/-- A thread that has called `withFlags`, or is in a call with `later` requests to send;
while it makes a request it accesses the word. `given` are the flags of `withFlags`. -/
inductive Calling where
  | ready (given : UInt32)
  | between (given : UInt32) (later : List Sending)
  | making (given : UInt32) (sending : Sending) (accesses : List Access) (register : UInt32)
      (later : List Sending)
  deriving DecidableEq, Repr

structure Header where
  thread : Caller
  flags : UInt32
  own : UInt32
  deriving DecidableEq, Repr

structure FlagsState where
  -- `headers` is a record of the requests made.
  forceReturnValue : Bool := false
  flags : UInt32 := 0
  callers : SortedMap Caller Calling := SortedMap.empty
  headers : List Header := []

-- `finish` is the end of a call, also by an exception between its requests.
inductive FlagsStep where
  | withFlags (thread : Caller) (flags : UInt32)
  | call (thread : Caller) (layer : Layer) (call : CacheCall)
  | newOperation (thread : Caller)
  | access (thread : Caller)
  | finish (thread : Caller)
  deriving DecidableEq, Repr

-- After the last access the operation is made.
def Calling.resume (given : UInt32) (sending : Sending) (accesses : List Access)
    (register : UInt32) (later : List Sending) : Calling :=
  if accesses = [] then .between given later else .making given sending accesses register later

namespace FlagsState

def forced (s : FlagsState) : UInt32 := if s.forceReturnValue then FORCE_RETURN_VALUE else 0

def becomes (s : FlagsState) (thread : Caller) (calling : Calling) : FlagsState :=
  { s with callers := s.callers.insert thread calling }

def performs (s : FlagsState) (thread : Caller) (given : UInt32) (sending : Sending)
    (rest : List Access) (register : UInt32) (later : List Sending) : Access → FlagsState
  | .load => s.becomes thread (.resume given sending rest s.flags later)
  | .store f => { s with flags := register ||| f }.becomes thread
      (.resume given sending rest register later)
  | .read =>
    let header := {
      thread
      flags := sending.writes (s.flags ||| s.forced)
      own := given ||| sending.defaults ||| s.forced }
    { s with headers := s.headers ++ [header] }.becomes thread
      (.resume given sending rest register later)
  | .reset => { s with flags := 0 }.becomes thread (.resume given sending rest register later)

end FlagsState

open FlagsState

def stepFlags (s : FlagsState) : FlagsStep → Option FlagsState
  | .withFlags thread flags =>
    match s.callers.get? thread with
    | none | some (.ready _) => some ({ s with flags }.becomes thread (.ready flags))
    | _ => none
  | .call thread layer call =>
    match s.callers.get? thread with
    | none => some (s.becomes thread (.between 0 (call.sendings layer)))
    | some (.ready given) => some (s.becomes thread (.between given (call.sendings layer)))
    | _ => none
  | .newOperation thread =>
    match s.callers.get? thread with
    | some (.between given (sending :: later)) =>
      some (s.becomes thread (.making given sending sending.accesses 0 later))
    | _ => none
  | .access thread =>
    match s.callers.get? thread with
    | some (.making given sending (access :: rest) register later) =>
      some (s.performs thread given sending rest register later access)
    | _ => none
  | .finish thread =>
    match s.callers.get? thread with
    | some (.between _ _) => some { s with callers := s.callers.erase thread }
    | _ => none

/-- The flags of every request made are those of its own call. -/
def OwnFlags (s : FlagsState) : Prop := ∀ header ∈ s.headers, header.flags = header.own

/-! ### Calls that are kept apart -/

-- Flags of the thread are in the word, or are going to be.
def Calling.Flagged : Calling → Prop
  | ready given => given ≠ 0
  | between given later => given ≠ 0 ∧ later ≠ []
  | making given sending _ _ _ => given ||| sending.defaults ≠ 0

def Calling.Making : Calling → Prop
  | making _ _ _ _ _ => True
  | _ => False

def Unflagged (s : FlagsState) (thread : Caller) : Prop :=
  ∀ other calling, other ≠ thread → s.callers.get? other = some calling → ¬ calling.Flagged

-- No other thread has flags in the word, or is about to read or reset it.
def Undisturbed (s : FlagsState) (thread : Caller) : Prop :=
  ∀ other calling, other ≠ thread → s.callers.get? other = some calling →
    ¬ calling.Flagged ∧ ¬ calling.Making

/-- Flags come into the word when nobody else uses it, and a request without flags of its
own is made when nobody else's are in it. A call that was given flags sends exactly one
request, and does not end before. A ping has no flags, given or configured. -/
def Apart (s : FlagsState) : FlagsStep → Prop
  | .withFlags thread _ => Undisturbed s thread
  | .call thread layer call => ∀ given, s.callers.get? thread = some (.ready given) →
      given ≠ 0 → (call.sendings layer).length = 1
  | .newOperation thread => ∀ given sending later,
      s.callers.get? thread = some (.between given (sending :: later)) →
      Unflagged s thread ∧ (given ||| sending.defaults ≠ 0 → Undisturbed s thread) ∧
        (sending = .pinging → given ||| s.forced = 0)
  | .access _ => True
  | .finish thread => ∀ given later, s.callers.get? thread = some (.between given later) →
      given ≠ 0 → later = []

/-- From this word and this register on, the accesses read the given and the default
flags, and leave no flags behind. -/
def Leads (own : UInt32) : List Access → UInt32 → UInt32 → Prop
  | [], word, _ => word = 0
  | .load :: rest, word, _ => Leads own rest word word
  | .store f :: rest, _, register => Leads own rest (register ||| f) register
  | .read :: rest, word, register => word = own ∧ Leads own rest word register
  | .reset :: rest, _, register => Leads own rest 0 register

theorem leads_accesses (sending : Sending) (given register : UInt32) :
    Leads (given ||| sending.defaults) sending.accesses given register := by
  cases sending with
  | plain => simp [Sending.accesses, Sending.defaults, getFlags, Leads]
  | pinging => simp [Sending.accesses, Sending.defaults, getFlags, Leads]
  | expiring lifespan maxIdle =>
    by_cases life : lifespan = 0
    all_goals by_cases idle : maxIdle = 0
    all_goals
      simp [Sending.accesses, Sending.defaults, applyDefaultExpirationFlags, addFlags, getFlags,
        Leads, life, idle, UInt32.or_assoc]

theorem Sending.writes_own (sending : Sending) {given forced : UInt32}
    (pinged : sending = .pinging → given ||| forced = 0) :
    sending.writes (given ||| sending.defaults ||| forced) =
      given ||| sending.defaults ||| forced := by
  cases sending with
  | plain => rfl
  | expiring lifespan maxIdle => rfl
  | pinging =>
    have none : given ||| forced = 0 := pinged rfl
    simp only [Sending.writes, Sending.defaults, UInt32.or_zero, none]

theorem defaults_of_store {sending : Sending} {f : UInt32} (stores : .store f ∈ sending.accesses) :
    sending.defaults ≠ 0 := by
  cases sending with
  | plain => simp [Sending.accesses, getFlags] at stores
  | pinging => simp [Sending.accesses, getFlags] at stores
  | expiring lifespan maxIdle =>
    intro none
    simp only [Sending.defaults, UInt32.or_eq_zero_iff] at none
    obtain ⟨life, idle⟩ := none
    have lifespan_given : lifespan ≠ 0 := by
      rintro rfl
      revert life
      decide
    have maxIdle_given : maxIdle ≠ 0 := by
      rintro rfl
      revert idle
      decide
    simp [Sending.accesses, applyDefaultExpirationFlags, getFlags, lifespan_given,
      maxIdle_given] at stores

def Calling.Fits (forced word : UInt32) : Calling → Prop
  | ready given => given ≠ 0 → word = given
  | between given later => given ≠ 0 → later ≠ [] → later.length = 1 ∧ word = given
  | making given sending accesses register later => (given ≠ 0 → later = []) ∧
      (∀ f, .store f ∈ accesses → sending.defaults ≠ 0) ∧
      (sending = .pinging → given ||| forced = 0) ∧
      Leads (given ||| sending.defaults) accesses word register

theorem Calling.Fits.of_idle {forced word : UInt32} {calling : Calling}
    (unflagged : ¬ calling.Flagged) (idle : ¬ calling.Making) : calling.Fits forced word := by
  cases calling with
  | ready given => exact fun some_given => absurd some_given unflagged
  | between given later => exact fun some_given some_later => absurd ⟨some_given, some_later⟩ unflagged
  | making given sending accesses register later => exact absurd trivial idle

structure KeptApart (s : FlagsState) : Prop where
  alone : ∀ thread calling, s.callers.get? thread = some calling → calling.Flagged →
    Undisturbed s thread
  clean : (∀ thread calling, s.callers.get? thread = some calling → ¬ calling.Flagged) → s.flags = 0
  fits : ∀ thread calling, s.callers.get? thread = some calling →
    calling.Fits s.forced s.flags
  own : OwnFlags s

variable {s t : FlagsState} {thread : Caller}

-- A request is only made while no other thread has flags in the word.
theorem KeptApart.unflagged (apart : KeptApart s) {calling : Calling}
    (found : s.callers.get? thread = some calling) (making : calling.Making) : Unflagged s thread :=
  fun other calling' different found' flagged =>
    (apart.alone other calling' found' flagged thread calling different.symm found).2 making

theorem KeptApart.word_eq_zero (apart : KeptApart s)
    (mine : ∀ calling, s.callers.get? thread = some calling → ¬ calling.Flagged)
    (unflagged : Unflagged s thread) : s.flags = 0 := by
  refine apart.clean fun other calling found => ?_
  by_cases same : other = thread
  · subst same
    exact mine calling found
  · exact unflagged other calling same found

theorem KeptApart.becomes (apart : KeptApart s) {calling : Calling} {word : UInt32}
    {headers : List Header} (fits : calling.Fits s.forced word)
    (flagged : calling.Flagged → Undisturbed s thread)
    (making : calling.Making → Unflagged s thread)
    (others : word = s.flags ∨ Undisturbed s thread)
    (clean : ¬ calling.Flagged → Unflagged s thread → word = 0)
    (own : ∀ header ∈ headers, header.flags = header.own) :
    KeptApart ({ s with flags := word, headers }.becomes thread calling) where
  alone other calling' found marked third calling'' different found' := by
    simp only [FlagsState.becomes, SortedMap.get?_insert] at found found'
    by_cases mine : other = thread
    · subst mine
      rw [if_pos rfl] at found
      cases found
      rw [if_neg different] at found'
      exact flagged marked third calling'' different found'
    · rw [if_neg mine] at found
      by_cases his : third = thread
      · subst his
        rw [if_pos rfl] at found'
        cases found'
        -- the other thread's flags exclude that this one goes on so
        exact ⟨fun here => (flagged here other calling' mine found).1 marked,
          fun here => making here other calling' mine found marked⟩
      · rw [if_neg his] at found'
        exact apart.alone other calling' found marked third calling'' different found'
  clean none := by
    refine clean (none thread calling (SortedMap.get?_insert_self _ _ _)) ?_
    intro other calling' different found
    refine none other calling' ?_
    simp only [FlagsState.becomes, SortedMap.get?_insert, if_neg different, found]
  fits other calling' found := by
    simp only [FlagsState.becomes, SortedMap.get?_insert] at found
    split at found
    · cases found
      exact fits
    · rename_i different
      rcases others with same | undisturbed
      · exact same ▸ apart.fits other calling' found
      · obtain ⟨unflagged, idle⟩ := undisturbed other calling' different found
        exact .of_idle unflagged idle
  own := own

theorem KeptApart.keeps (apart : KeptApart s) {calling : Calling} (fits : calling.Fits s.forced s.flags)
    (flagged : calling.Flagged → Undisturbed s thread)
    (making : calling.Making → Unflagged s thread)
    (clean : ¬ calling.Flagged → Unflagged s thread → s.flags = 0) :
    KeptApart (s.becomes thread calling) := by
  have kept : KeptApart ({ s with flags := s.flags, headers := s.headers }.becomes thread calling) :=
    apart.becomes fits flagged making (.inl rfl) clean apart.own
  exact kept

theorem KeptApart.finish (apart : KeptApart s) {calling : Calling}
    (found : s.callers.get? thread = some calling) (unflagged : ¬ calling.Flagged) :
    KeptApart { s with callers := s.callers.erase thread } where
  alone other calling' found' marked third calling'' different found'' := by
    simp only [SortedMap.get?_erase] at found' found''
    split at found'
    · cases found'
    · split at found''
      · cases found''
      · exact apart.alone other calling' found' marked third calling'' different found''
  clean none := by
    have mine : ∀ calling', s.callers.get? thread = some calling' → ¬ calling'.Flagged := by
      intro calling' found'
      cases found.symm.trans found'
      exact unflagged
    have others : Unflagged s thread := by
      intro other calling' different found'
      refine none other calling' ?_
      simp only [SortedMap.get?_erase_of_ne _ different, found']
    exact apart.word_eq_zero mine others
  fits other calling' found' := by
    simp only [SortedMap.get?_erase] at found'
    split at found'
    · cases found'
    · exact apart.fits other calling' found'
  own := apart.own

/-! ### Accesses -/

section Accesses

variable {given register : UInt32} {sending : Sending} {rest : List Access}
  {later : List Sending} {word : UInt32}

theorem KeptApart.resume (apart : KeptApart s) {accesses : List Access}
    (found : s.callers.get? thread = some (.making given sending accesses register later))
    {register' : UInt32} {headers : List Header}
    (stores : ∀ f, .store f ∈ rest → .store f ∈ accesses)
    (leads : Leads (given ||| sending.defaults) rest word register')
    (neutral : given ||| sending.defaults = 0 → word = 0)
    (own : ∀ header ∈ headers, header.flags = header.own) :
    KeptApart ({ s with flags := word, headers }.becomes thread
      (.resume given sending rest register' later)) := by
  have others : Unflagged s thread := apart.unflagged found trivial
  obtain ⟨last, stored, pinged, -⟩ := apart.fits thread _ found
  have undisturbed : given ||| sending.defaults ≠ 0 → Undisturbed s thread :=
    apart.alone thread _ found
  have same : word = s.flags ∨ Undisturbed s thread := by
    by_cases flagged : given ||| sending.defaults = 0
    · have before : s.flags = 0 := by
        refine apart.word_eq_zero (fun calling found' => ?_) others
        cases found.symm.trans found'
        exact fun marked => marked flagged
      exact .inl ((neutral flagged).trans before.symm)
    · exact .inr (undisturbed flagged)
  unfold Calling.resume
  split
  · rename_i done
    subst done
    refine apart.becomes ?_ ?_ False.elim same (fun _ _ => leads) own
    · exact fun some_given some_later => absurd (last some_given) some_later
    · exact fun marked => absurd (last marked.1) marked.2
  · refine apart.becomes ⟨last, fun f member => stored f (stores f member), pinged, leads⟩ undisturbed
      (fun _ => others) same (fun unmarked _ => neutral (not_not.mp unmarked)) own

theorem KeptApart.performs (apart : KeptApart s) {access : Access}
    (found : s.callers.get? thread = some (.making given sending (access :: rest) register later)) :
    KeptApart (s.performs thread given sending rest register later access) := by
  obtain ⟨-, stored, pinged, leads⟩ := apart.fits thread _ found
  have stores : ∀ f, .store f ∈ rest → .store f ∈ access :: rest :=
    fun f member => List.mem_cons_of_mem _ member
  have before : given ||| sending.defaults = 0 → s.flags = 0 := by
    intro unflagged
    refine apart.word_eq_zero (fun calling found' => ?_) (apart.unflagged found trivial)
    cases found.symm.trans found'
    exact fun marked => marked unflagged
  cases access with
  | load => exact apart.resume found stores leads before apart.own
  | store f =>
    refine apart.resume found stores leads (fun unflagged => ?_) apart.own
    -- a request without flags of its own has no stores
    exact absurd (UInt32.or_eq_zero_iff.mp unflagged).2 (stored f List.mem_cons_self)
  | read =>
    refine apart.resume found stores leads.2 before fun header member => ?_
    rcases List.mem_append.mp member with earlier | last
    · exact apart.own header earlier
    · cases List.mem_singleton.mp last
      simp only [leads.1]
      exact sending.writes_own pinged
  | reset => exact apart.resume found stores leads (fun _ => rfl) apart.own

end Accesses

/-! ### Runs -/

theorem KeptApart.call (apart : KeptApart s) {given : UInt32} {later : List Sending}
    (found : s.callers.get? thread = some (.ready given)) (one : given ≠ 0 → later.length = 1) :
    KeptApart (s.becomes thread (.between given later)) := by
  have word := apart.fits thread _ found
  refine apart.keeps (fun some_given _ => ⟨one some_given, word some_given⟩)
    (fun marked => apart.alone thread _ found marked.1) False.elim
    (fun unmarked others => apart.word_eq_zero (fun calling found' => ?_) others)
  cases found.symm.trans found'
  intro some_given
  refine unmarked ⟨some_given, fun none => ?_⟩
  rw [none] at one
  cases one some_given

theorem KeptApart.newOperation (apart : KeptApart s) {given : UInt32} {sending : Sending}
    {later : List Sending}
    (found : s.callers.get? thread = some (.between given (sending :: later)))
    (others : Unflagged s thread)
    (undisturbed : given ||| sending.defaults ≠ 0 → Undisturbed s thread)
    (pinged : sending = .pinging → given ||| s.forced = 0) :
    KeptApart (s.becomes thread (.making given sending sending.accesses 0 later)) := by
  have fits := apart.fits thread _ found
  have none_given : given = 0 → s.flags = 0 := by
    intro none
    refine apart.word_eq_zero (fun calling found' => ?_) others
    cases found.symm.trans found'
    exact fun marked => marked.1 none
  have word : s.flags = given := by
    by_cases none : given = 0
    · rw [none_given none, none]
    · exact (fits none (List.cons_ne_nil _ _)).2
  have last : given ≠ 0 → later = [] := by
    intro some_given
    have length := (fits some_given (List.cons_ne_nil _ _)).1
    exact List.length_eq_zero_iff.mp (Nat.succ.inj length)
  refine apart.keeps
    ⟨last, fun _ stores => defaults_of_store stores, pinged,
      word ▸ leads_accesses sending s.flags 0⟩
    undisturbed (fun _ => others) (fun unmarked _ => ?_)
  exact none_given (UInt32.or_eq_zero_iff.mp (not_not.mp unmarked)).1

theorem KeptApart.step (apart : KeptApart s) {step : FlagsStep} (kept : Apart s step)
    (taken : stepFlags s step = some t) : KeptApart t := by
  cases step with
  | withFlags thread flags =>
    have given : KeptApart ({ s with flags }.becomes thread (.ready flags)) :=
      apart.becomes (fun _ => rfl) (fun _ => kept) False.elim (.inr kept)
        (fun unflagged _ => not_not.mp unflagged) apart.own
    simp only [stepFlags] at taken
    split at taken
    · cases taken
      exact given
    · cases taken
      exact given
    · cases taken
  | call thread layer call =>
    simp only [stepFlags] at taken
    split at taken
    · rename_i absent
      cases taken
      have mine : ∀ calling, s.callers.get? thread = some calling → ¬ calling.Flagged := by
        intro calling found
        cases absent.symm.trans found
      exact apart.keeps (fun some_given => absurd rfl some_given)
        (fun marked => absurd rfl marked.1) False.elim
        (fun _ others => apart.word_eq_zero mine others)
    · rename_i given found
      cases taken
      exact apart.call found (kept given found)
    · cases taken
  | newOperation thread =>
    simp only [stepFlags] at taken
    split at taken
    · rename_i given sending later found
      cases taken
      obtain ⟨others, undisturbed, pinged⟩ := kept given sending later found
      exact apart.newOperation found others undisturbed pinged
    · cases taken
  | access thread =>
    simp only [stepFlags] at taken
    split at taken
    · rename_i found
      cases taken
      exact apart.performs found
    · cases taken
  | finish thread =>
    simp only [stepFlags] at taken
    split at taken
    · rename_i given later found
      cases taken
      exact apart.finish found fun marked => marked.2 (kept given later found marked.1)
    · cases taken

/-- In every order of calls and accesses of any threads in which the calls are kept apart,
every request has the flags of its own call. -/
theorem own_flags (forceReturnValue : Bool) (steps : List FlagsStep)
    (guarded : Guarded stepFlags Apart { forceReturnValue } steps)
    (reached : run stepFlags { forceReturnValue } steps = some s) : OwnFlags s := by
  have start : KeptApart { forceReturnValue } := by
    refine ⟨fun thread calling found => ?_, fun _ => rfl, fun thread calling found => ?_,
      fun header member => ?_⟩
    · cases found
    · cases found
    · cases member
  exact (run_invariant KeptApart start (fun _ _ _ apart kept taken => apart.step kept taken)
    guarded reached).own

/-! ### Flags that are left behind -/

def nearHit : List FlagsStep :=
  [.withFlags 1 FORCE_RETURN_VALUE, .call 1 (.nearRemoteCache true) .get, .finish 1]

def removes : List FlagsStep :=
  [.call 2 (.nearRemoteCache true) .remove, .newOperation 2, .access 2, .access 2]

-- Two threads; the second makes its request while the first one's flags are in the word.
def putDisturbed : List FlagsStep :=
  [.call 1 .remoteCache (.put 0 0), .newOperation 1, .access 1, .access 1,
    .call 2 .remoteCache .get, .newOperation 2, .access 2, .access 2, .access 1, .access 1,
    .access 1, .access 1]

-- A ping takes the flags out of the word and is made without them.
def pingFlagged : List FlagsStep :=
  [.withFlags 1 FORCE_RETURN_VALUE, .call 1 .remoteCache .ping, .newOperation 1, .access 1,
    .access 1]

/-- The remove has the flags of the get before it. The get of the second thread has a
default flag of the first thread's put, which loses it. The ping has lost its own. -/
theorem flags_of_other_calls :
    (∃ s, run stepFlags {} (nearHit ++ removes) = some s ∧
      s.headers = [⟨2, FORCE_RETURN_VALUE, 0⟩] ∧ ¬ OwnFlags s) ∧
    (∃ s, run stepFlags {} putDisturbed = some s ∧
      s.headers = [⟨2, DEFAULT_LIFESPAN, 0⟩,
        ⟨1, DEFAULT_MAXIDLE, DEFAULT_LIFESPAN ||| DEFAULT_MAXIDLE⟩] ∧ ¬ OwnFlags s) ∧
    ∃ s, run stepFlags {} pingFlagged = some s ∧
      s.headers = [⟨1, 0, FORCE_RETURN_VALUE⟩] ∧ ¬ OwnFlags s := by
  refine ⟨?_, ?_, ?_⟩
  · refine ⟨_, rfl, rfl, fun own => ?_⟩
    have same := own ⟨2, FORCE_RETURN_VALUE, 0⟩ List.mem_cons_self
    revert same
    decide
  · refine ⟨_, rfl, rfl, fun own => ?_⟩
    have same := own ⟨2, DEFAULT_LIFESPAN, 0⟩ List.mem_cons_self
    revert same
    decide
  · refine ⟨_, rfl, rfl, fun own => ?_⟩
    have same := own ⟨1, 0, FORCE_RETURN_VALUE⟩ List.mem_cons_self
    revert same
    decide

theorem undisturbed_of_only (only : ∀ entry ∈ s.callers.entries, entry.1 = thread) :
    Undisturbed s thread := fun _ _ different found =>
  absurd (only _ ((SortedMap.get?_eq_some _).mp found)) different

theorem Undisturbed.unflagged (undisturbed : Undisturbed s thread) : Unflagged s thread :=
  fun other calling different found => (undisturbed other calling different found).1

theorem own_flags_get :
    ∃ s, run stepFlags {} [.withFlags 1 FORCE_RETURN_VALUE, .call 1 .remoteCache .get,
        .newOperation 1, .access 1, .access 1, .finish 1] = some s ∧
      s.headers = [⟨1, FORCE_RETURN_VALUE, FORCE_RETURN_VALUE⟩] ∧ OwnFlags s := by
  refine ⟨_, rfl, rfl, own_flags false [.withFlags 1 FORCE_RETURN_VALUE, .call 1 .remoteCache .get,
    .newOperation 1, .access 1, .access 1, .finish 1] ?_ rfl⟩
  refine .cons rfl ?_ (.cons rfl (fun _ _ _ => rfl) (.cons rfl (fun _ _ _ found => ?_)
    (.cons rfl trivial (.cons rfl trivial (.cons rfl (fun _ _ found _ => ?_) trivial)))))
  · exact undisturbed_of_only fun entry member => by cases member
  · cases found
    suffices undisturbed : Undisturbed _ 1 from
      ⟨undisturbed.unflagged, fun _ => undisturbed, Sending.noConfusion⟩
    refine undisturbed_of_only fun entry member => ?_
    cases List.mem_singleton.mp member
    rfl
  · cases found
    rfl

end HotRod.Operations
