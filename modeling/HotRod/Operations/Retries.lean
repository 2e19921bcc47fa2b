import HotRod.Operations.Pairing

/-! How often `RetryOnFailureOperation::execute` tries, and what it ends with.

The loop counter starts again with every cluster switch, so the number of
attempts is the number of switches times what one cluster is given. A `Route`
is the list of clusters the switches lead to until one of them finds no cluster
that answers. -/

set_option autoImplicit false

namespace HotRod.Operations

open Semantics.Execution Semantics.Transition

variable {T C : Type} [LinearOrder C] {op : Operation} {env : Surroundings C}

def segment (scripts : Nat → Script T) (i n : Nat) : List (Script T) :=
  (List.range' i n).map scripts

-- Attempts left on the current cluster, `retryCount` included.
def allowed (env : Surroundings C) (retryCount : Nat) : Nat := max 1 (env.maxRetries - retryCount)

inductive Route (env : Surroundings C) : Nat → C → List C → Prop where
  | stop {n : Nat} {c : C} : clusterSwitch env n c = .ok none → Route env n c []
  | go {n : Nat} {c d : C} {visited : List C} : clusterSwitch env n c = .ok (some d) →
      Route env (n + 1) d visited → Route env n c (d :: visited)

def Answers (e : Ended T) (log : List (Attempted C T)) : Prop :=
  ∃ a, log.getLast? = some a ∧ match e with
    | .returned r => ∃ succeeded, a.script.outcome = .returned r succeeded
    | .raised fault => a.failure = some fault

def attemptsOn (c : C) (log : List (Attempted C T)) : Nat := log.countP fun a => a.cluster = c

/-- Every pattern of results and failures leads `execute` to an end, with its last
result or failure, after at most `max 1 maxRetries` attempts on each cluster. The
pool answers the hand-backs of the n-th attempt by `pool n`. -/
def BoundedRetries (T : Type) (op : Operation) (env : Surroundings C)
    (pool : Nat → List (Option Exn)) (currCluster : C) : Prop :=
  ∀ scripts : Nat → Script T, (∀ n, (scripts n).pool = pool n) →
    ∃ (n : Nat) (s : Loop C T) (e : Ended T),
      run (turn op env) { currCluster } (segment scripts 0 n) = some s ∧ s.ended = some e ∧
        Answers e s.log ∧
      ∀ c, attemptsOn c s.log ≤ max 1 env.maxRetries

/-- The switches come to an end before they return to the first cluster or lead to
another one again (twice is within the bound for `maxRetries` 2), none succeeds
without retries, and the pool takes back the transports of the attempts. -/
def Settles (op : Operation) (env : Surroundings C) (pool : Nat → List (Option Exn))
    (currCluster : C) : Prop :=
  op ≠ .removeClientListener ∧ ∃ visited, Route env 0 currCluster visited ∧
    (visited ≠ [] → 0 < env.maxRetries) ∧
    currCluster ∉ visited ∧ (∀ c, visited.count c ≤ if env.maxRetries = 2 then 2 else 1) ∧
    ∀ i < max 1 env.maxRetries + visited.length * max 1 (env.maxRetries - 1),
      (pool i).head?.join = none

theorem attemptsOn_snoc (c : C) (log : List (Attempted C T)) (a : Attempted C T) :
    attemptsOn c (log ++ [a]) = attemptsOn c log + if a.cluster = c then 1 else 0 := by
  simp [attemptsOn, List.countP_append, List.countP_cons]

/-! ### One turn -/

section Turns

variable {script : Script T} {s : Attempt} {valid : Bool}

theorem releaseTransport_accepted (op : Operation) (valid : Bool)
    (accepts : s.answers.head?.join = none) {transport : Option Transport}
    (usable : transport ≠ none ∨ op ≠ .removeClientListener) :
    ∃ u, releaseTransport op valid transport s = .ok () u := by
  cases transport with
  | none =>
    have released := releaseTransport_none op valid s
    cases result : releaseTransport op valid none s with
    | ok a u => exact ⟨u, rfl⟩
    | error fault u =>
      rw [result] at released
      exact absurd released.2.1 (usable.resolve_left fun some => some rfl)
  | some t =>
    cases leaves : releases op s.failed with
    | false => exact ⟨s, releaseTransport_of_keeps leaves _⟩
    | true =>
      have released := releaseTransport_some leaves valid t
      cases result : releaseTransport op valid (some t) s with
      | ok a u => exact ⟨u, rfl⟩
      | error fault u =>
        rw [result] at released
        obtain ⟨-, e, -, raises⟩ := released
        rw [accepts] at raises
        cases raises

theorem handle_accepted (accepts : s.answers.head?.join = none)
    (usable : s.transport ≠ none ∨ op ≠ .removeClientListener) (e : Exn) :
    Meets (handle op valid e s) (fun _ _ => True) (fun fault _ => fault = .raised e) := by
  by_cases named : e.isTransport = true
  · match e with
    | .transport host port message =>
      simp only [handle, bind_apply, get_apply]
      cases s.transport with
      | none => trivial
      | some t =>
        simp only [invalidateTransport, TransportFactory.invalidateTransport, handBack_eq, accepts]
        trivial
  · rw [handle_eq (by simpa using named)]
    split
    · obtain ⟨u, released⟩ := releaseTransport_accepted op valid accepts usable
      rw [bind_of_ok released]
      split
      · trivial
      · rfl
    · rfl

theorem attempt_accepted (checked : op ≠ .removeClientListener)
    (accepts : s.answers.head?.join = none) (script : Script T) :
    (∃ r succeeded u, attempt op script s = .ok (.ok r) u ∧
      script.outcome = .returned r succeeded) ∨
    (∃ e u, attempt op script s = .ok (.error e) u ∧
      raised (tryBlock op script s) = some (.raised e)) ∨
    ∃ fault u, attempt op script s = .error fault u ∧
      raised (tryBlock op script s) = some fault := by
  -- the handler is entered with the answers of the pool still to come
  have failing : ∀ (e : Exn) (u : Attempt), u.answers = s.answers →
    tryBlock op script s = .error (.raised e) u →
      (∃ e u, attempt op script s = .ok (.error e) u ∧
        raised (tryBlock op script s) = some (.raised e)) ∨
      ∃ fault u, attempt op script s = .error fault u ∧
        raised (tryBlock op script s) = some fault := by
    intro e u same failure
    have handled : Meets (handle op script.valid e u) _ _ :=
      handle_accepted (same ▸ accepts) (.inr checked) e
    rw [attempt_of_raised failure, failure]
    cases result : handle op script.valid e u with
    | ok a v => exact .inl ⟨e, v, bind_of_ok result, rfl⟩
    | error fault v =>
      rw [result] at handled
      exact .inr ⟨fault, v, bind_of_error result, congrArg some
        (show Fault.raised e = fault from handled.symm)⟩
  match obtained : script.transport, body : script.outcome with
  | .error e, _ => exact .inr (failing e s rfl (tryBlock_of_error obtained))
  | .ok t, .raised e early =>
    refine .inr (failing (rethrown op t e early)
      { s with transport := some t, failed := failedAfter op early s.failed } rfl ?_)
    rw [tryBlock_of_ok obtained, body]
    exact bind_of_error (executeOperation_raised op t e early _)
  | .ok t, .returned r succeeded =>
    obtain ⟨failed, block, -⟩ := tryBlock_of_returned op s obtained body
    have release : ∃ u, releaseTransport op script.valid (some t)
        { s with transport := some t, failed } = .ok () u :=
      releaseTransport_accepted op script.valid (s := { s with transport := some t, failed })
        accepts (.inr checked)
    obtain ⟨u, released⟩ := release
    refine .inl ⟨r, succeeded, u, attempt_of_returned ?_, rfl⟩
    rw [block]
    exact bind_of_ok released

end Turns

section Loops

variable {s t : Loop C T} {script : Script T}

theorem logError_retry {e : Exn} (left : s.retryCount + 1 < env.maxRetries) :
    logErrorAndThrowExceptionIfNeeded env s e = { s with retryCount := s.retryCount + 1 } := by
  have again : ¬ (env.maxRetries : Int) - 1 ≤ s.retryCount := by omega
  rw [logErrorAndThrowExceptionIfNeeded, if_neg again, nextTurn, if_pos left.le]

structure Caught (s : Loop C T) (a : Attempted C T) (e : Exn) (u : Loop C T) : Prop where
  log : u.log = s.log ++ [a]
  failure : a.failure = some (.raised e)
  retryCount : u.retryCount = s.retryCount
  currCluster : u.currCluster = s.currCluster
  switches : u.switches = s.switches
  fresh : u.ended = none

omit [LinearOrder C] in
theorem Caught.answers {a : Attempted C T} {e : Exn} (caught : Caught s a e t) :
    Answers (.raised (.raised e)) t.log :=
  ⟨a, by rw [caught.log, List.getLast?_concat], caught.failure⟩

theorem turn_accepted (env : Surroundings C) (checked : op ≠ .removeClientListener)
    (fresh : s.ended = none) (accepts : script.pool.head?.join = none) :
    ∃ t, turn op env s script = some t ∧
      ((∃ e, t.ended = some e ∧ Answers e t.log) ∨
        ∃ e u, Caught s (record op s.currCluster s.failed script) e u ∧
          t = logErrorAndThrowExceptionIfNeeded env u e) := by
  simp only [turn, fresh]
  rcases attempt_accepted checked (s := { failed := s.failed, answers := script.pool }) accepts
    script with
    ⟨r, succeeded, u, result, returned⟩ | ⟨e, u, result, failure⟩ | ⟨fault, u, result, failure⟩
  · simp only [result]
    exact ⟨_, rfl, .inl ⟨_, rfl, _, List.getLast?_concat, succeeded, returned⟩⟩
  · simp only [result]
    exact ⟨_, rfl, .inr ⟨e, { s with
      failed := u.failed
      log := s.log ++ [record op s.currCluster s.failed script]
      ended := none }, ⟨rfl, failure, rfl, rfl, rfl, rfl⟩, rfl⟩⟩
  · simp only [result]
    exact ⟨_, rfl, .inl ⟨_, rfl, _, List.getLast?_concat, failure⟩⟩

theorem run_segment_succ {scripts : Nat → Script T} {i n : Nat} {u : Loop C T}
    (taken : turn op env s (scripts i) = some t)
    (later : run (turn op env) t (segment scripts (i + 1) n) = some u) :
    run (turn op env) s (segment scripts i (n + 1)) = some u :=
  run_cons_eq_some.mpr ⟨t, taken, later⟩

-- The attempts on one cluster: the loop ends among them, or the last one fails and the next cluster
-- is looked for.
theorem cluster_runs (checked : op ≠ .removeClientListener) (scripts : Nat → Script T)
    (left i : Nat) (s : Loop C T) (fresh : s.ended = none)
    (attempts : allowed env s.retryCount = left)
    (accepts : ∀ j, i ≤ j → j < i + left → (scripts j).pool.head?.join = none) :
    ∃ n ≤ left, ∃ t, run (turn op env) s (segment scripts i n) = some t ∧
      (((∃ e, t.ended = some e ∧ Answers e t.log) ∧
          ∀ d, attemptsOn d t.log ≤ attemptsOn d s.log + if s.currCluster = d then left else 0) ∨
        n = left ∧ ∃ u e, t = logErrorAndThrowExceptionIfNeeded env u e ∧
          (env.maxRetries : Int) - 1 ≤ u.retryCount ∧
          u.ended = none ∧ u.currCluster = s.currCluster ∧ u.switches = s.switches ∧
          Answers (.raised (.raised e)) u.log ∧
          ∀ d, attemptsOn d u.log ≤
            attemptsOn d s.log + if s.currCluster = d then left else 0) := by
  -- a cluster is always tried at least once, so the attempts left start at one
  induction left generalizing i s with
  | zero => simp [allowed] at attempts
  | succ left ih =>
    obtain ⟨t, taken, outcome⟩ := turn_accepted env checked fresh (accepts i le_rfl (by omega))
    have counts : ∀ u : Loop C T, u.log = s.log ++ [record op s.currCluster s.failed (scripts i)] →
        ∀ d, attemptsOn d u.log = attemptsOn d s.log + if s.currCluster = d then 1 else 0 := by
      intro u log d
      rw [log, attemptsOn_snoc]
      rfl
    have within : ∀ d, (if s.currCluster = d then 1 else 0) ≤
        if s.currCluster = d then left + 1 else 0 := by
      intro d
      split <;> omega
    rcases outcome with ended | ⟨e, u, caught, rfl⟩
    · refine ⟨1, by omega, t, run_segment_succ taken rfl, .inl ⟨ended, fun d => ?_⟩⟩
      rw [counts t (turn_log taken)]
      exact Nat.add_le_add_left (within d) _
    by_cases last : left = 0
    · subst last
      refine ⟨1, le_rfl, _, run_segment_succ taken rfl,
        .inr ⟨rfl, u, e, rfl, ?_, caught.fresh, caught.currCluster, caught.switches,
          caught.answers, fun d => ?_⟩⟩
      · simp only [allowed] at attempts
        rw [caught.retryCount]
        omega
      · exact (counts u caught.log d).le
    · have more : u.retryCount + 1 < env.maxRetries := by
        simp only [allowed] at attempts
        rw [caught.retryCount]
        omega
      have fewer : allowed env (u.retryCount + 1) = left := by
        simp only [allowed] at attempts ⊢
        rw [caught.retryCount]
        omega
      rw [logError_retry more] at taken
      obtain ⟨n, bound, t, later, outcome⟩ :=
        ih (i + 1) { u with retryCount := u.retryCount + 1 } caught.fresh fewer
          fun j lower upper => accepts j (by omega) (by omega)
      have total : ∀ d, attemptsOn d u.log + (if u.currCluster = d then left else 0) =
          attemptsOn d s.log + if s.currCluster = d then left + 1 else 0 := fun d => by
        rw [counts u caught.log, caught.currCluster]
        split <;> omega
      simp only [total] at outcome
      refine ⟨n + 1, by omega, t, run_segment_succ taken later, outcome.imp id ?_⟩
      rintro ⟨rfl, v, e, same, last, fresh, cluster, switches, rest⟩
      exact ⟨rfl, v, e, same, last, fresh, cluster.trans caught.currCluster,
        switches.trans caught.switches, rest⟩

theorem logError_last {e : Exn} (last : (env.maxRetries : Int) - 1 ≤ s.retryCount) :
    logErrorAndThrowExceptionIfNeeded env s e =
      match clusterSwitch env s.switches s.currCluster with
      | .error thrown => { s with ended := some (.raised (.raised thrown)) }
      | .ok none => { s with ended := some (.raised (.raised e)) }
      | .ok (some name) =>
        nextTurn env
          { s with currCluster := name, switches := s.switches + 1, retryCount := 0 } := by
  cases found : clusterSwitch env s.switches s.currCluster with
  | error thrown => simp only [logErrorAndThrowExceptionIfNeeded, if_pos last, found]
  | ok name => cases name <;> simp only [logErrorAndThrowExceptionIfNeeded, if_pos last, found]

theorem run_segment_add {scripts : Nat → Script T} {i m n : Nat} {u : Loop C T}
    (first : run (turn op env) s (segment scripts i m) = some t)
    (later : run (turn op env) t (segment scripts (i + m) n) = some u) :
    run (turn op env) s (segment scripts i (m + n)) = some u := by
  have split : segment scripts i (m + n) = segment scripts i m ++ segment scripts (i + m) n := by
    rw [segment, segment, segment, ← List.map_append, List.range'_append_1]
  rw [split, run_append, first]
  exact later

-- Along a route that ends, so does the loop.
theorem ends_of_route {k : Nat} {c : C} {visited : List C} (checked : op ≠ .removeClientListener)
    (scripts : Nat → Script T) (route : Route env k c visited)
    (retries : visited ≠ [] → 0 < env.maxRetries) (i : Nat) (fresh : s.ended = none)
    (cluster : s.currCluster = c) (switches : s.switches = k)
    (accepts : ∀ j, i ≤ j → j < i + allowed env s.retryCount + visited.length * allowed env 1 →
      (scripts j).pool.head?.join = none) :
    ∃ n t e, run (turn op env) s (segment scripts i n) = some t ∧ t.ended = some e ∧
      Answers e t.log ∧
      ∀ d, attemptsOn d t.log ≤ attemptsOn d s.log +
        (if c = d then allowed env s.retryCount else 0) +
        visited.count d * allowed env 1 := by
  induction route generalizing i s with
  | stop none_answers =>
    obtain ⟨n, -, t, reached, ⟨⟨e, ended, answers⟩, counts⟩ | ⟨-, u, e, rfl, last, fresh, here,
        number, answers, counts⟩⟩ :=
      cluster_runs checked scripts (allowed env s.retryCount) i s fresh rfl fun j lower upper =>
        accepts j lower (by omega)
    · exact ⟨n, t, e, reached, ended, answers, by simpa [cluster] using counts⟩
    · rw [logError_last last, here, cluster, number, switches, none_answers] at reached
      exact ⟨n, _, _, reached, rfl, answers, by simpa [cluster] using counts⟩
  | @go k c next visited answering route ih =>
    obtain ⟨n, -, t, reached, ⟨⟨e, ended, answers⟩, counts⟩ | ⟨rfl, u, e, rfl, last, fresh, here,
        number, answers, counts⟩⟩ :=
      cluster_runs checked scripts (allowed env s.retryCount) i s fresh rfl fun j lower upper =>
        accepts j lower (by omega)
    · refine ⟨n, t, e, reached, ended, answers, fun d => ?_⟩
      have bound := counts d
      rw [cluster] at bound
      omega
    · -- the turn after a switch counts as a retry, so a later cluster has one attempt less
      have positive := retries (List.cons_ne_nil _ _)
      have moved : logErrorAndThrowExceptionIfNeeded env u e =
          { u with currCluster := next, switches := k + 1, retryCount := 1 } := by
        rw [logError_last last, here, cluster, number, switches, answering]
        exact if_pos positive
      rw [moved] at reached
      obtain ⟨m, v, e', later, ended, answers, bounds⟩ :=
        ih (s := { u with currCluster := next, switches := k + 1, retryCount := 1 })
          (fun _ => positive) (i + allowed env s.retryCount) fresh rfl rfl
          fun j lower upper => accepts j (by omega) (by
            simp only [List.length_cons, Nat.succ_mul] at upper ⊢
            omega)
      refine ⟨_, v, e', run_segment_add reached later, ended, answers, fun d => ?_⟩
      have before := counts d
      have after := bounds d
      rw [cluster] at before
      rw [List.count_cons, Nat.add_mul]
      by_cases there : next = d
      · simp only [there, if_true, beq_self_eq_true, Nat.one_mul] at after ⊢
        omega
      · simp only [there, if_false, beq_iff_eq, Nat.zero_mul] at after ⊢
        omega

end Loops

/-! ### Attempts that all fail -/

section Failing

variable {pool : Nat → List (Option Exn)} {i n : Nat} {c : C}

def refusal (message : String) : Exn := .transport "" 0 message

-- Every attempt fails with a transport exception of its own server.
def refusing (T : Type) (pool : Nat → List (Option Exn)) (message : String) (n : Nat) :
    Script T where
  transport := .ok ⟨n, ⟨"", 0⟩⟩
  outcome := .raised (refusal message) false
  pool := pool n

-- A refused attempt is caught, unless the pool raises when the transport is handed back.
theorem turn_refusing (op : Operation) (env : Surroundings C) (pool : Nat → List (Option Exn))
    (i : Nat) {s : Loop C T} (fresh : s.ended = none) (message : String) :
    ∃ u, Caught s (record op s.currCluster s.failed (refusing T pool message i))
      (refusal message) u ∧
      turn op env s (refusing T pool message i) = some (match (pool i).head?.join with
        | none => logErrorAndThrowExceptionIfNeeded env u (refusal message)
        | some e => { u with ended := some (.raised (.raised e)) }) := by
  have same : rethrown op ⟨i, ⟨"", 0⟩⟩ (refusal message) false = refusal message := by
    cases op <;> rfl
  have failure : tryBlock op (refusing T pool message i) { failed := s.failed, answers := pool i } =
      .error (.raised (refusal message))
        { failed := failedAfter op false s.failed
          transport := some ⟨i, ⟨"", 0⟩⟩
          answers := pool i } := by
    rw [tryBlock_of_ok rfl]
    apply (bind_of_error (executeOperation_raised op _ _ _ _)).trans
    rw [same]
  have handled : attempt op (refusing T pool message i)
      { failed := s.failed, answers := pool i } = _ :=
    attempt_of_raised failure
  simp only [handle, refusal, bind_apply, get_apply, invalidateTransport,
    TransportFactory.invalidateTransport, handBack_eq] at handled
  have failing : (record op s.currCluster s.failed (refusing T pool message i)).failure =
      some (.raised (refusal message)) := congrArg raised failure
  refine ⟨{ s with
    failed := failedAfter op false s.failed
    log := s.log ++ [record op s.currCluster s.failed (refusing T pool message i)]
    ended := none }, ⟨rfl, failing, rfl, rfl, rfl, rfl⟩, ?_⟩
  cases answer : (pool i).head?.join with
  | none =>
    simp only [answer] at handled
    simp only [turn, fresh, refusing] at handled ⊢
    rw [handled]
    rfl
  | some e =>
    simp only [answer] at handled
    simp only [turn, fresh, refusing] at handled ⊢
    rw [handled]
    rfl

theorem run_of_ended {s t : Loop C T} {e : Ended T} {scripts : List (Script T)}
    (ended : s.ended = some e) (reached : run (turn op env) s scripts = some t) : t = s := by
  cases scripts with
  | nil => exact (Option.some.inj reached).symm
  | cons script rest =>
    obtain ⟨u, taken, -⟩ := run_cons_eq_some.mp reached
    simp [turn, ended] at taken

theorem first_turn {s t u : Loop C T} {e : Ended T} {scripts : Nat → Script T}
    (fresh : s.ended = none) (taken : turn op env s (scripts i) = some u)
    (reached : run (turn op env) s (segment scripts i n) = some t) (ended : t.ended = some e) :
    ∃ m, n = m + 1 ∧ run (turn op env) u (segment scripts (i + 1) m) = some t := by
  cases n with
  | zero =>
    cases reached
    rw [fresh] at ended
    cases ended
  | succ m =>
    obtain ⟨u', taken', later⟩ := run_cons_eq_some.mp reached
    rw [taken, Option.some.injEq] at taken'
    subst taken'
    exact ⟨m, rfl, later⟩

-- Loops at the same point that differ in the message of the refusals, each of which comes to a
-- proper end.
structure Stage (op : Operation) (env : Surroundings C) (pool : Nat → List (Option Exn)) (i : Nat)
    (s : String → Loop C T) (c : C) (retryCount switches : Nat) : Prop where
  fresh : ∀ x, (s x).ended = none
  currCluster : ∀ x, (s x).currCluster = c
  retryCount : ∀ x, (s x).retryCount = retryCount
  switches : ∀ x, (s x).switches = switches
  ends : ∀ x, ∃ n t e, run (turn op env) (s x) (segment (refusing T pool x) i n) = some t ∧
    t.ended = some e ∧ Answers e t.log

variable {s s' u : String → Loop C T} {r k : Nat}

theorem Stage.next (stage : Stage op env pool i s c r k)
    (taken : ∀ x, turn op env (s x) (refusing T pool x i) = some (s' x)) {d : C} {r' k' : Nat}
    (fresh : ∀ x, (s' x).ended = none) (currCluster : ∀ x, (s' x).currCluster = d)
    (retryCount : ∀ x, (s' x).retryCount = r') (switches : ∀ x, (s' x).switches = k') :
    Stage op env pool (i + 1) s' d r' k' := by
  refine ⟨fresh, currCluster, retryCount, switches, fun x => ?_⟩
  obtain ⟨n, t, e, reached, ended, answers⟩ := stage.ends x
  obtain ⟨m, -, later⟩ := first_turn (stage.fresh x) (taken x) reached ended
  exact ⟨m, t, e, later, ended, answers⟩

theorem Stage.not_ended (stage : Stage op env pool i s c r k)
    (caught : ∀ x, Caught (s x) (record op (s x).currCluster (s x).failed (refusing T pool x i))
      (refusal x) (u x))
    (taken : ∀ x, turn op env (s x) (refusing T pool x i) = some (s' x)) {e : Exn}
    (ended : ∀ x, (s' x).ended = some (.raised (.raised e))) : False := by
  have named : ∀ x, e = refusal x := fun x => by
    obtain ⟨n, t, e', reached, ended', answers⟩ := stage.ends x
    obtain ⟨m, -, later⟩ := first_turn (stage.fresh x) (taken x) reached ended'
    rw [run_of_ended (ended x) later] at ended' answers
    rw [ended x, Option.some.injEq] at ended'
    subst ended'
    obtain ⟨a, latest, failure⟩ := answers
    rw [turn_log (taken x), List.getLast?_concat, Option.some.injEq] at latest
    subst latest
    rw [(caught x).failure] at failure
    cases failure
    rfl
  -- it would have to carry every message at once
  have distinct : refusal "a" ≠ refusal "b" := by decide
  exact distinct ((named "a").symm.trans (named "b"))

/-- The refusals from the i-th on use up every attempt along the route, and lead from one
log to the other. -/
structure Exhausts (env : Surroundings C) (pool : Nat → List (Option Exn)) (i r k : Nat) (c : C)
    (visited : List C) (log log' : List (Attempted C T)) : Prop where
  route : Route env k c visited
  retries : visited ≠ [] → 0 < env.maxRetries
  accepts : ∀ j, i ≤ j → j < i + allowed env r + visited.length * allowed env 1 →
    (pool j).head?.join = none
  counts : ∀ d, attemptsOn d log' = attemptsOn d log + (if c = d then allowed env r else 0) +
    visited.count d * allowed env 1

section Exhausts

variable {visited : List C} {log middle log' : List (Attempted C T)}

theorem Exhausts.stop (single : allowed env r = 1) (answer : (pool i).head?.join = none)
    (switch : clusterSwitch env k c = .ok none)
    (once : ∀ d, attemptsOn d log' = attemptsOn d log + if c = d then 1 else 0) :
    Exhausts env pool i r k c [] log log' where
  route := .stop switch
  retries visits := absurd rfl visits
  accepts j lower upper := by
    rw [single, List.length_nil] at upper
    obtain rfl : j = i := by omega
    exact answer
  counts d := by
    rw [single, once d]
    simp

theorem Exhausts.switch {next : C} (single : allowed env r = 1)
    (answer : (pool i).head?.join = none) (switch : clusterSwitch env k c = .ok (some next))
    (positive : 0 < env.maxRetries)
    (once : ∀ d, attemptsOn d middle = attemptsOn d log + if c = d then 1 else 0)
    (later : Exhausts env pool (i + 1) 1 (k + 1) next visited middle log') :
    Exhausts env pool i r k c (next :: visited) log log' where
  route := .go switch later.route
  retries _ := positive
  accepts j lower upper := by
    rcases Nat.eq_or_lt_of_le lower with rfl | after
    · exact answer
    · apply later.accepts j after
      rw [List.length_cons, Nat.succ_mul, single] at upper
      omega
  counts d := by
    rw [later.counts d, once d, List.count_cons, Nat.add_mul, single]
    by_cases there : next = d
    · simp only [there, if_true, beq_self_eq_true]
      omega
    · simp only [there, if_false, beq_iff_eq]
      omega

theorem Exhausts.retry (more : r + 1 < env.maxRetries) (answer : (pool i).head?.join = none)
    (once : ∀ d, attemptsOn d middle = attemptsOn d log + if c = d then 1 else 0)
    (later : Exhausts env pool (i + 1) (r + 1) k c visited middle log') :
    Exhausts env pool i r k c visited log log' := by
  have fewer : allowed env r = allowed env (r + 1) + 1 := by
    unfold allowed
    omega
  refine ⟨later.route, later.retries, ?_, ?_⟩
  · intro j lower upper
    rcases Nat.eq_or_lt_of_le lower with rfl | after
    · exact answer
    · exact later.accepts j after (by omega)
  · intro d
    rw [later.counts d, once d, fewer]
    split <;> omega

end Exhausts

theorem route_of_refusing {t : Loop C T} {e : Ended T} (stage : Stage op env pool i s c r k)
    (reached : run (turn op env) (s "") (segment (refusing T pool "") i n) = some t)
    (ended : t.ended = some e) :
    ∃ visited, Exhausts env pool i r k c visited (s "").log t.log := by
  induction n generalizing i s c r k with
  | zero =>
    cases reached
    rw [stage.fresh] at ended
    cases ended
  | succ n ih =>
    choose u caught taken using fun x => turn_refusing op env pool i (stage.fresh x) x
    have once : ∀ d, attemptsOn d (u "").log =
        attemptsOn d (s "").log + if c = d then 1 else 0 := by
      intro d
      rw [(caught "").log, attemptsOn_snoc]
      simp only [record, stage.currCluster]
    have here : ∀ x, (u x).currCluster = c := fun x =>
      (caught x).currCluster.trans (stage.currCluster x)
    have tries : ∀ x, (u x).retryCount = r := fun x =>
      (caught x).retryCount.trans (stage.retryCount x)
    have number : ∀ x, (u x).switches = k := fun x =>
      (caught x).switches.trans (stage.switches x)
    obtain ⟨m, same, later⟩ := first_turn (stage.fresh "") (taken "") reached ended
    obtain rfl : n = m := by omega
    -- whatever ends the loop without naming the refusal contradicts the stage
    cases answer : (pool i).head?.join with
    | some e' =>
      simp only [answer] at taken
      exact (stage.not_ended caught taken fun _ => rfl).elim
    | none =>
      simp only [answer] at taken later
      by_cases last : (env.maxRetries : Int) - 1 ≤ r
      · have final : ∀ x, (env.maxRetries : Int) - 1 ≤ (u x).retryCount := by
          intro x
          rwa [tries]
        have single : allowed env r = 1 := by
          unfold allowed
          omega
        simp only [logError_last (final _), here, number] at taken later
        cases switch : clusterSwitch env k c with
        | error thrown =>
          simp only [switch] at taken
          exact (stage.not_ended caught taken fun _ => rfl).elim
        | ok found =>
          cases found with
          | none =>
            simp only [switch] at later
            rw [run_of_ended rfl later]
            exact ⟨[], .stop single answer switch once⟩
          | some next =>
            simp only [switch, nextTurn] at taken later
            by_cases positive : 0 + 1 ≤ env.maxRetries
            · simp only [positive, if_true] at taken later
              obtain ⟨visited, exhausts⟩ := ih (stage.next taken (fun x => (caught x).fresh)
                (fun _ => rfl) (fun _ => rfl) (fun _ => rfl)) later
              exact ⟨next :: visited, exhausts.switch single answer switch positive once⟩
            · -- without retries the loop ends right after the switch
              simp only [positive, if_false] at taken
              exact (stage.not_ended caught taken fun _ => rfl).elim
      · have more : ∀ x, (u x).retryCount + 1 < env.maxRetries := by
          intro x
          rw [tries]
          omega
        simp only [logError_retry (more _)] at taken later
        obtain ⟨visited, exhausts⟩ := ih (stage.next taken (fun x => (caught x).fresh) here
          (fun x => congrArg (· + 1) (tries x)) number) later
        exact ⟨visited, exhausts.retry (by omega) answer once⟩

end Failing

/-! ### The bound -/

theorem checked_of_bounded {pool : Nat → List (Option Exn)} {currCluster : C}
    (bounded : BoundedRetries T op env pool currCluster) : op ≠ .removeClientListener := by
  rintro rfl
  let unavailable : Nat → Script T := fun n =>
    { transport := .error (.hotRodClient "Internal: client listener not found")
      outcome := .raised (.hotRodClient "") false, pool := pool n }
  obtain ⟨n, s, e, reached, ended, answers, -⟩ := bounded unavailable fun _ => rfl
  obtain ⟨m, -, later⟩ := first_turn rfl
    (show turn .removeClientListener env { currCluster } (unavailable 0) = some _ from rfl)
      reached ended
  have stuck := run_of_ended rfl later
  subst stuck
  cases ended
  obtain ⟨a, latest, failure⟩ := answers
  cases latest
  cases failure

-- What the counts on every cluster say of the clusters visited.
theorem counts_within_iff (maxRetries : Nat) (first : C) (visited : List C) :
    (∀ d, (if first = d then max 1 maxRetries else 0) + visited.count d * max 1 (maxRetries - 1) ≤
      max 1 maxRetries) ↔
      first ∉ visited ∧ ∀ d, visited.count d ≤ if maxRetries = 2 then 2 else 1 := by
  constructor
  · intro within
    refine ⟨fun again => ?_, fun d => ?_⟩
    · have bound := within first
      have visits : 0 < visited.count first * max 1 (maxRetries - 1) :=
        Nat.mul_pos (List.count_pos_iff.mpr again) (by omega)
      rw [if_pos rfl] at bound
      omega
    · have bound : visited.count d * max 1 (maxRetries - 1) ≤ max 1 maxRetries := by
        have here := within d
        omega
      -- with two retries a later cluster has one attempt a visit, and two visits fit
      by_contra more
      have times : (if maxRetries = 2 then 3 else 2) * max 1 (maxRetries - 1) ≤ max 1 maxRetries :=
        (Nat.mul_le_mul_right _ (by split at more <;> split <;> omega)).trans bound
      split at times <;> omega
  · rintro ⟨absent, few⟩ d
    by_cases here : first = d
    · subst here
      simp [List.count_eq_zero_of_not_mem absent]
    · have times : visited.count d * max 1 (maxRetries - 1) ≤
          (if maxRetries = 2 then 2 else 1) * max 1 (maxRetries - 1) :=
        Nat.mul_le_mul_right _ (few d)
      rw [if_neg here]
      split at times <;> omega

/-- Retries are bounded exactly if the cluster switches settle. -/
theorem bounded_retries_iff (T : Type) (op : Operation) (env : Surroundings C)
    (pool : Nat → List (Option Exn)) (currCluster : C) :
    BoundedRetries T op env pool currCluster ↔ Settles op env pool currCluster := by
  constructor
  · intro bounded
    have stage : Stage op env pool 0 (fun _ => ({ currCluster } : Loop C T)) currCluster 0 0 := by
      refine ⟨fun _ => rfl, fun _ => rfl, fun _ => rfl, fun _ => rfl, fun x => ?_⟩
      obtain ⟨n, s, e, reached, ended, answers, -⟩ := bounded (refusing T pool x) fun _ => rfl
      exact ⟨n, s, e, reached, ended, answers⟩
    obtain ⟨n, s, e, reached, ended, -, within⟩ := bounded (refusing T pool "") fun _ => rfl
    obtain ⟨visited, exhausts⟩ := route_of_refusing stage reached ended
    obtain ⟨absent, few⟩ := (counts_within_iff env.maxRetries currCluster visited).mp fun d => by
      have count := exhausts.counts d
      have bound := within d
      simp only [allowed, attemptsOn, List.countP_nil, Nat.sub_zero, Nat.zero_add] at count bound
      omega
    refine ⟨checked_of_bounded bounded, visited, exhausts.route, exhausts.retries, absent, few, ?_⟩
    intro i upper
    exact exhausts.accepts i (Nat.zero_le _) (by simpa [allowed] using upper)
  · rintro ⟨checked, visited, route, retries, absent, few, accepts⟩ scripts same
    obtain ⟨n, s, e, reached, ended, answers, counts⟩ :=
      ends_of_route checked scripts route retries 0 (s := { currCluster }) rfl rfl rfl
        fun j _ upper => by
          rw [same]
          exact accepts j (by simpa [allowed] using upper)
    refine ⟨n, s, e, reached, ended, answers, fun d => ?_⟩
    have bound := (counts_within_iff env.maxRetries currCluster visited).mpr ⟨absent, few⟩ d
    have count := counts d
    simp only [allowed, attemptsOn, List.countP_nil, Nat.sub_zero, Nat.zero_add] at count ⊢
    omega

-- No retries, and a second cluster that answers.
def secondCluster : Surroundings Nat where
  maxRetries := 0
  serversMap := (SortedMap.empty.insert 0 [⟨"10.0.0.1", 11222⟩]).insert 1 [⟨"10.0.1.1", 11222⟩]
  ping _ _ := none
  prepare _ := none

/-- One failure, and the loop leaves by its last line. -/
theorem internal_exception_reached :
    (∃ s, run (turn .plain secondCluster) ({ currCluster := 0 } : Loop Nat Nat)
      [refusing Nat (fun _ => []) "connection refused" 0] = some s ∧
      s.ended = some (.raised (.raised (.internal "We should not reach here!")))) ∧
    ¬ BoundedRetries Nat .plain secondCluster (fun _ => []) 0 := by
  refine ⟨⟨_, rfl, rfl⟩, fun bounded => ?_⟩
  obtain ⟨n, s, e, reached, ended, answers, -⟩ :=
    bounded (refusing Nat (fun _ => []) "") fun _ => rfl
  obtain ⟨m, -, later⟩ := first_turn rfl
    (show turn .plain secondCluster { currCluster := 0 } (refusing Nat (fun _ => []) "" 0) =
      some _ from rfl)
    reached ended
  have stuck := run_of_ended rfl later
  subst stuck
  cases ended
  obtain ⟨a, latest, failure⟩ := answers
  cases latest
  cases failure

end HotRod.Operations
