import HotRod.Operations.RetryOnFailure
import HotRod.Semantics.Transition

/-! Every transport that an attempt obtains goes back to the pool once, under its
own address: when this holds of `RetryOnFailureOperation::execute`, and of which
attempts it does not. -/

set_option autoImplicit false

namespace HotRod.Operations

open Semantics.Execution Semantics.Transition

variable {T C : Type} {op : Operation} {valid : Bool} {s : Attempt} {t : Transport}

def taken (op : Operation) : Exn → Bool
  | .counterUpperBound _ | .counterLowerBound _ => op != .void
  | e => e.isHotRodClient

-- The transport stays with the listener that the operation has registered.
def keeps : Operation → Bool → Bool
  | .addClientListener, succeeded => succeeded
  | .addCounterListener keepTransport, succeeded => keepTransport && succeeded
  | _, _ => false

-- `releaseTransport` reaches the pool.
def releases : Operation → Bool → Bool
  | .addClientListener, failed => failed
  | .addCounterListener keepTransport, failed => failed || !keepTransport
  | _, _ => true

def ownCall (valid : Bool) (t : Transport) : PoolCall :=
  if valid then .returnObject t.serverAddress t else .invalidateObject t.serverAddress t

@[simp] theorem key_ownCall (valid : Bool) (t : Transport) :
    (ownCall valid t).key = t.serverAddress := by
  cases valid <;> rfl

@[simp] theorem val_ownCall (valid : Bool) (t : Transport) : (ownCall valid t).val = t := by
  cases valid <;> rfl

/-! ### One attempt -/

theorem handBack_eq (call : PoolCall) (s : Attempt) :
    handBack call s = match s.answers.head?.join with
    | some e => .error (.raised e) { s with calls := s.calls ++ [call], answers := s.answers.tail }
    | none => .ok () { s with calls := s.calls ++ [call], answers := s.answers.tail } := by
  cases answer : s.answers.head?.join <;> simp [handBack, bind_apply, answer]

theorem factoryRelease_eq (valid : Bool) (t : Transport) :
    TransportFactory.releaseTransport valid t = handBack (ownCall valid t) := by
  cases valid <;> rfl

theorem releaseTransport_listener (listens : op = .addClientListener ∨ ∃ keepTransport,
    op = .addCounterListener keepTransport)
    (valid : Bool) (transport : Option Transport) (s : Attempt) :
    releaseTransport op valid transport s =
      if releases op s.failed = true then
        (releaseChecked valid transport >>= fun _ => modify fun s => { s with failed := false }) s
      else .ok () s := by
  rcases listens with rfl | ⟨keepTransport, rfl⟩
  · simp only [releaseTransport, bind_apply, get_apply, releases]
    split <;> rfl
  · simp only [releaseTransport, bind_apply, get_apply, releases]
    split <;> rfl

theorem releaseTransport_of_keeps (stays : releases op s.failed = false)
    (transport : Option Transport) :
    releaseTransport op valid transport s = .ok () s := by
  cases op with
  | plain => cases stays
  | void => cases stays
  | removeClientListener => cases stays
  | addClientListener =>
    rw [releaseTransport_listener (.inl rfl), if_neg (by simp [stays])]
  | addCounterListener keepTransport =>
    rw [releaseTransport_listener (.inr ⟨_, rfl⟩), if_neg (by simp [stays])]

theorem releaseTransport_some (leaves : releases op s.failed = true) (valid : Bool)
    (t : Transport) :
    Meets (releaseTransport op valid (some t) s)
      (fun _ u => u.calls = s.calls ++ [ownCall valid t] ∧ s.answers.head?.join = none)
      (fun fault u =>
        u = { s with calls := s.calls ++ [ownCall valid t], answers := s.answers.tail } ∧
        ∃ e, fault = .raised e ∧ s.answers.head?.join = some e) := by
  have direct : Meets (releaseChecked valid (some t) s)
      (fun _ u => u.calls = s.calls ++ [ownCall valid t] ∧ s.answers.head?.join = none)
      (fun fault u =>
        u = { s with calls := s.calls ++ [ownCall valid t], answers := s.answers.tail } ∧
        ∃ e, fault = .raised e ∧ s.answers.head?.join = some e) := by
    rw [releaseChecked, factoryRelease_eq, handBack_eq]
    cases answer : s.answers.head?.join with
    | none => exact ⟨rfl, rfl⟩
    | some e => exact ⟨rfl, e, rfl, rfl⟩
  cases op with
  | plain => exact direct
  | void => exact direct
  | removeClientListener => exact direct
  | addClientListener =>
    rw [releaseTransport_listener (.inl rfl), if_pos leaves]
    exact direct.bind fun _ _ called => called
  | addCounterListener keepTransport =>
    rw [releaseTransport_listener (.inr ⟨_, rfl⟩), if_pos leaves]
    exact direct.bind fun _ _ called => called

theorem releaseTransport_none (op : Operation) (valid : Bool) (s : Attempt) :
    Meets (releaseTransport op valid none s)
      (fun _ u => u.calls = s.calls ∧ op ≠ .removeClientListener)
      (fun fault u => u.calls = s.calls ∧ op = .removeClientListener ∧
        fault = .nullDereference) := by
  cases op with
  | plain => exact ⟨rfl, by decide⟩
  | void => exact ⟨rfl, by decide⟩
  | removeClientListener => exact ⟨rfl, rfl, rfl⟩
  | addClientListener =>
    rw [releaseTransport_listener (.inl rfl)]
    split <;> exact ⟨rfl, by decide⟩
  | addCounterListener keepTransport =>
    rw [releaseTransport_listener (.inr ⟨_, rfl⟩)]
    split <;> exact ⟨rfl, by simp⟩

theorem handle_eq {e : Exn} (other : e.isTransport = false) (s : Attempt) :
    handle op valid e s =
      if taken op e = true then
        (releaseTransport op valid s.transport >>= fun _ =>
          if e.isHotRodClient = true then pure () else throw (.raised e)) s
      else .error (.raised e) s := by
  have client : releaseTransport op valid s.transport s =
      (releaseTransport op valid s.transport >>= fun _ => pure ()) s := by
    rw [bind_apply]
    cases releaseTransport op valid s.transport s <;> rfl
  cases e with
  | transport host port message => cases other
  | counterUpperBound name => by_cases void : op =
    .void <;> simp [handle, taken, void, bind_apply, Exn.isHotRodClient]
  | counterLowerBound name => by_cases void : op =
    .void <;> simp [handle, taken, void, bind_apply, Exn.isHotRodClient]
  | exception message => rfl
  | noSuchElement message => rfl
  | std what => rfl
  | hotRodClient message => exact client
  | invalidResponse message => exact client
  | remoteNodeSuspect message => exact client
  | internal message => exact client
  | notStarted message => exact client
  | unsupported => exact client
  | txState state action => exact client
  | rollback status => exact client
  | txRemoteState status => exact client

/-- The calls of the handlers for a transport in hand. -/
def handed (op : Operation) (valid failed : Bool) (e : Exn) (t : Transport) : List PoolCall :=
  match e with
  | .transport host port _ => [.invalidateObject (.new host port) t]
  | e => if taken op e = true ∧ releases op failed = true then [ownCall valid t] else []

theorem handle_some (held : s.transport = some t) (e : Exn) :
    (final (handle op valid e s)).calls = s.calls ++ handed op valid s.failed e t := by
  by_cases named : e.isTransport = true
  · match e with
    | .transport host port message =>
      simp only [handle, bind_apply, get_apply, held, invalidateTransport,
        TransportFactory.invalidateTransport, handBack_eq, handed]
      cases s.answers.head?.join <;> rfl
  · have other : e.isTransport = false := by simpa using named
    have plain : handed op valid s.failed e t =
        if taken op e = true ∧ releases op s.failed = true then [ownCall valid t] else [] := by
      cases e with
      | transport host port message => cases other
      | _ => rfl
    rw [handle_eq other, plain, held]
    by_cases caught : taken op e = true
    · rw [if_pos caught]
      cases leaves : releases op s.failed with
      | false =>
        rw [bind_of_ok (releaseTransport_of_keeps leaves (some t))]
        split <;> simp
      | true =>
        simp only [caught, and_self, if_true]
        have called : Meets (releaseTransport op valid (some t) s)
          (fun _ u => u.calls = s.calls ++ [ownCall valid t])
            (fun _ u => u.calls = s.calls ++ [ownCall valid t]) :=
          (releaseTransport_some leaves valid t).mono
            (fun _ _ => And.left) fun _ u failed => by rw [failed.1]
        refine Meets.final (P := fun u : Attempt => u.calls = s.calls ++ [ownCall valid t])
          (called.bind fun _ u called => ?_)
        split <;> exact called
    · simp [caught]

-- Without a transport nothing is handed back; one subclass dereferences it.
theorem handle_none (absent : s.transport = none) (e : Exn) :
    (final (handle op valid e s)).calls = s.calls ∧
      (raised (handle op valid e s) = some .nullDereference ↔
        op = .removeClientListener ∧ taken op e = true ∧ e.isTransport = false) := by
  by_cases named : e.isTransport = true
  · match e with
    | .transport host port message =>
      simp [handle, bind_apply, absent, invalidateTransport, Exn.isTransport]
  · have other : e.isTransport = false := by simpa using named
    rw [handle_eq other, absent]
    by_cases caught : taken op e = true
    · rw [if_pos caught]
      have released := releaseTransport_none op valid s
      cases result : releaseTransport op valid none s with
      | ok u t =>
        rw [result] at released
        rw [bind_of_ok result]
        split <;> simp [released.1, released.2]
      | error fault t =>
        rw [result] at released
        obtain ⟨same, rfl, rfl⟩ := released
        rw [bind_of_error result]
        simp [same, caught, other]
    · simp [caught]

def rethrown (op : Operation) (t : Transport) (e : Exn) (early : Bool) : Exn :=
  match op, early with
  | .addClientListener, false => readdress t e
  | _, _ => e

def failedAfter (op : Operation) (early failed : Bool) : Bool :=
  match op with
  | .addClientListener => !early
  | .addCounterListener _ => false
  | _ => failed

theorem executeOperation_raised (op : Operation) (t : Transport) (e : Exn) (early : Bool)
    (s : Attempt) :
    executeOperation op t (.raised e early : Outcome T) s =
      .error (.raised (rethrown op t e early))
        { s with failed := failedAfter op early s.failed } := by
  cases op <;> cases early <;> rfl

theorem executeOperation_returned (op : Operation) (t : Transport) (r : T) (succeeded : Bool)
    (s : Attempt) :
    ∃ failed, executeOperation op t (.returned r succeeded) s = .ok r { s with failed } ∧
      releases op failed = !keeps op succeeded := by
  cases op with
  | addClientListener => exact ⟨!succeeded, rfl, rfl⟩
  | addCounterListener keepTransport =>
    exact ⟨!succeeded, rfl, by cases keepTransport <;> cases succeeded <;> rfl⟩
  | plain => exact ⟨s.failed, rfl, rfl⟩
  | void => exact ⟨s.failed, rfl, rfl⟩
  | removeClientListener => exact ⟨s.failed, rfl, rfl⟩

section Attempts

variable {script : Script T} {e : Exn} {u : Attempt}

theorem attempt_of_raised (failure : tryBlock op script s = .error (.raised e) u) :
    attempt op script s = (handle op script.valid e >>= fun _ => pure (.error e)) u := by
  have block : ((Except.ok : T → Except Exn T) <$> tryBlock op script) s =
      .error (.raised e) u := by
    rw [map_apply, failure]
  rw [attempt, tryCatch_of_error block]

theorem attempt_of_returned {r : T} (returned : tryBlock op script s = .ok r u) :
    attempt op script s = .ok (.ok r) u := by
  have block : ((Except.ok : T → Except Exn T) <$> tryBlock op script) s = .ok (.ok r) u := by
    rw [map_apply, returned]
  rw [attempt, tryCatch_of_ok block]

theorem attempt_calls (failure : tryBlock op script s = .error (.raised e) u) :
    (final (attempt op script s)).calls = (final (handle op script.valid e u)).calls ∧
      raised (attempt op script s) = raised (handle op script.valid e u) := by
  rw [attempt_of_raised failure, bind_apply]
  cases handle op script.valid e u <;> exact ⟨rfl, rfl⟩

theorem tryBlock_of_error (unavailable : script.transport = .error e) :
    tryBlock op script s = .error (.raised e) s := by
  refine bind_of_error ?_
  simp [getTransport, unavailable]

theorem tryBlock_of_ok (obtained : script.transport = .ok t) :
    tryBlock op script s = (executeOperation op t script.outcome >>= fun result =>
      releaseTransport op script.valid (some t) >>= fun _ => pure result)
        { s with transport := some t } := by
  have got : getTransport script s = .ok t { s with transport := some t } := by
    simp [getTransport, obtained, map_apply]
  exact bind_of_ok got

theorem tryBlock_of_returned (op : Operation) (s : Attempt) {r : T} {succeeded : Bool}
    (obtained : script.transport = .ok t) (body : script.outcome = .returned r succeeded) :
    ∃ failed, tryBlock op script s =
        (releaseTransport op script.valid (some t) >>= fun _ => pure r)
          { s with transport := some t, failed } ∧
      releases op failed = !keeps op succeeded := by
  obtain ⟨failed, returns, leaves⟩ :=
    executeOperation_returned op t r succeeded { s with transport := some t }
  refine ⟨failed, ?_, leaves⟩
  rw [tryBlock_of_ok obtained, body]
  exact bind_of_ok returns

end Attempts

theorem releases_failedAfter (op : Operation) (early failed : Bool) :
    releases op (failedAfter op early failed) = releases op (failedAfter op early false) := by
  cases op <;> rfl

/-- What an attempt may meet so that its transport goes back once, under its own
address: without a transport, no clause that uses it; with a result, a pool that
takes the transport back, or no clause for its exception; with an exception, a
clause for it that hands the transport back, and under its own address. -/
def Sound (op : Operation) (script : Script T) : Prop :=
  match script.transport, script.outcome with
  | .error e, _ => op = .removeClientListener → taken op e = true → e.isTransport = true
  | .ok _, .returned _ succeeded =>
    keeps op succeeded = true ∨ ∀ e, script.pool.head?.join = some e → taken op e = false
  | .ok t, .raised e early =>
    match rethrown op t e early with
    | .transport host port _ => .new host port = t.serverAddress
    | e => taken op e = true ∧ releases op (failedAfter op early false) = true

/-- The transport of an attempt is handed back once, under its own address, or it
stays with a listener; without a transport no hand-back is tried. -/
def Paired (op : Operation) (a : Attempted C T) : Prop :=
  match a.script.transport, a.script.outcome with
  | .error _, _ => a.calls = [] ∧ a.escaped ≠ some .nullDereference
  | .ok t, .returned _ succeeded =>
    if keeps op succeeded = true then a.calls = [] else ∃ call,
      a.calls = [call] ∧ call.key = t.serverAddress ∧ call.val = t
  | .ok t, .raised _ _ => ∃ call, a.calls = [call] ∧ call.key = t.serverAddress ∧ call.val = t

theorem exists_own_call (valid : Bool) (t : Transport) {calls : List PoolCall}
    (one : calls = [ownCall valid t]) :
    ∃ call, calls = [call] ∧ call.key = t.serverAddress ∧ call.val = t :=
  ⟨_, one, key_ownCall valid t, val_ownCall valid t⟩

theorem handed_once_iff {failed : Bool} {e : Exn} :
    (∃ call, handed op valid failed e t = [call] ∧ call.key = t.serverAddress ∧ call.val = t) ↔
      match e with
      | .transport host port _ => .new host port = t.serverAddress
      | e => taken op e = true ∧ releases op failed = true := by
  by_cases named : e.isTransport = true
  · match e with
    | .transport host port message =>
      constructor
      · rintro ⟨call, one, own, -⟩
        simp only [handed, List.cons.injEq, and_true] at one
        subst one
        exact own
      · exact fun own => ⟨_, rfl, own, rfl⟩
  · have plain : (∃ call, (if taken op e = true ∧ releases op failed =
      true then [ownCall valid t] else []) = [call] ∧
        call.key = t.serverAddress ∧ call.val = t) ↔ taken op e = true ∧
          releases op failed = true := by
      split
      · rename_i both
        exact ⟨fun _ => both, fun _ => exists_own_call valid t rfl⟩
      · rename_i neither
        refine ⟨?_, fun both => absurd both neither⟩
        rintro ⟨call, one, -⟩
        cases one
    cases e with
    | transport host port message => exact absurd rfl named
    | _ => exact plain

theorem handed_twice_iff {failed : Bool} {e : Exn} (leaves : releases op failed = true) :
    (∃ call, [] ++ [ownCall valid t] ++ handed op valid failed e t = [call] ∧
      call.key = t.serverAddress ∧ call.val = t) ↔
      ∀ e', some e = some e' → taken op e' = false := by
  have second : handed op valid failed e t = [] ↔ taken op e = false := by
    cases e with
    | transport host port message => simp [handed, taken, Exn.isHotRodClient]
    | _ => simp [handed, leaves]
  simp only [Option.some.injEq, forall_eq', ← second]
  constructor
  · rintro ⟨call, one, -⟩
    exact (List.cons.inj one).2
  · intro none_left
    exact exists_own_call valid t (by simp [none_left])

section Records

variable {script : Script T} {e : Exn} (cluster : C) (failed : Bool)

theorem paired_of_error (unavailable : script.transport = .error e) :
    Paired op (record op cluster failed script) ↔
      (op = .removeClientListener → taken op e = true → e.isTransport = true) := by
  obtain ⟨calls, escaped⟩ :=
    attempt_calls (tryBlock_of_error (s := { failed, answers := script.pool }) unavailable)
  have null : (final (handle op script.valid e { failed, answers := script.pool })).calls =
      [] ∧ _ := handle_none rfl e
  obtain ⟨none_called, dereferenced⟩ := null
  simp only [Paired, record, unavailable]
  rw [calls, escaped, none_called, ne_eq, dereferenced]
  simp

theorem paired_of_raised {early : Bool} (obtained : script.transport = .ok t)
    (body : script.outcome = .raised e early) :
    Paired op (record op cluster failed script) ↔
      match rethrown op t e early with
      | .transport host port _ => .new host port = t.serverAddress
      | e => taken op e = true ∧ releases op (failedAfter op early false) = true := by
  have failure : tryBlock op script { failed, answers := script.pool } =
    .error (.raised (rethrown op t e early))
      { failed := failedAfter op early failed, transport := some t, answers := script.pool } := by
    rw [tryBlock_of_ok obtained, body]
    exact bind_of_error (executeOperation_raised op t e early _)
  have calls := (attempt_calls failure).1
  rw [handle_some rfl, List.nil_append] at calls
  simp only [Paired, record, obtained, body]
  rw [calls, handed_once_iff, releases_failedAfter]

theorem paired_of_returned {r : T} {succeeded : Bool} (obtained : script.transport = .ok t)
    (body : script.outcome = .returned r succeeded) :
    Paired op (record op cluster failed script) ↔
      (keeps op succeeded = true ∨ ∀ e, script.pool.head?.join = some e → taken op e = false) := by
  obtain ⟨failed', block, leaves⟩ :=
    tryBlock_of_returned op { failed, answers := script.pool } obtained body
  simp only [Paired, record, obtained, body]
  cases stays : keeps op succeeded with
  | true =>
    rw [stays] at leaves
    rw [bind_of_ok (releaseTransport_of_keeps leaves (some t))] at block
    rw [attempt_of_returned block]
    simp
  | false =>
    rw [stays] at leaves
    simp only [Bool.false_eq_true, if_false, false_or]
    have released := releaseTransport_some
        (s := { failed := failed', transport := some t, answers := script.pool })
      leaves script.valid t
    cases result : releaseTransport op script.valid (some t)
        { failed := failed', transport := some t, answers := script.pool } with
    | ok _ u =>
      rw [result] at released
      obtain ⟨called, accepted⟩ := released
      rw [bind_of_ok result] at block
      rw [attempt_of_returned block]
      refine ⟨fun _ e raises => ?_, fun _ => exists_own_call script.valid t called⟩
      rw [accepted] at raises
      cases raises
    | error fault u =>
      -- the release is inside the `try` block: the handlers hand the transport back again
      rw [result] at released
      obtain ⟨rfl, e, rfl, raises⟩ := released
      rw [bind_of_error result] at block
      have calls := (attempt_calls block).1
      rw [handle_some rfl] at calls
      rw [calls, raises]
      exact handed_twice_iff leaves

end Records

-- One attempt hands its transport back as it should exactly if it meets the condition.
theorem paired_record_iff (op : Operation) (cluster : C) (failed : Bool) (script : Script T) :
    Paired op (record op cluster failed script) ↔ Sound op script := by
  match obtained : script.transport, body : script.outcome with
  | .error e, _ => simpa only [Sound, obtained] using paired_of_error cluster failed obtained
  | .ok t, .returned r succeeded =>
    simpa only [Sound, obtained, body] using paired_of_returned cluster failed obtained body
  | .ok t, .raised e early =>
    simpa only [Sound, obtained, body] using paired_of_raised cluster failed obtained body

/-! ### Whole runs -/

variable [LinearOrder C]

theorem turn_log {env : Surroundings C} {s t : Loop C T} {script : Script T}
    (taken : turn op env s script = some t) :
    t.log = s.log ++ [record op s.currCluster s.failed script] := by
  have next : ∀ s : Loop C T, (nextTurn env s).log = s.log := fun s => by
    unfold nextTurn
    split <;> rfl
  have logged : ∀ (s : Loop C T) (e : Exn), (logErrorAndThrowExceptionIfNeeded env s e).log =
      s.log := fun s e => by
    unfold logErrorAndThrowExceptionIfNeeded
    split
    · split
      · rfl
      · rfl
      · exact next _
    · exact next _
  unfold turn at taken
  cases ended : s.ended with
  | some _ => simp [ended] at taken
  | none =>
    simp only [ended] at taken
    split at taken <;> cases taken
    · rfl
    · exact logged _ _
    · rfl

/-- In every run of `execute`, all transports obtained go back once and under their
own address exactly if every attempt meets the condition. -/
theorem transports_handed_back_iff (op : Operation) (env : Surroundings C) (currCluster : C)
    (scripts : List (Script T)) {s : Loop C T}
    (reached : run (turn op env) { currCluster } scripts = some s) :
    (∀ a ∈ s.log, Paired op a) ↔ ∀ a ∈ s.log, Sound op a.script := by
  have each : ∀ a ∈ s.log, (Paired op a ↔ Sound op a.script) := by
    refine run_invariant_of_step (fun s : Loop C T => ∀ a ∈ s.log,
      (Paired op a ↔ Sound op a.script)) ?_ ?_ reached
    · intro a member
      cases member
    · intro s script t earlier taken a member
      rw [turn_log taken] at member
      rcases List.mem_append.mp member with before | now
      · exact earlier a before
      · rw [List.mem_singleton.mp now]
        exact paired_record_iff op s.currCluster s.failed script
  exact forall₂_congr each

-- A connection breaks, and the next attempt succeeds.
def broken : List (Script Nat) :=
  [{ transport := .ok ⟨0, ⟨"10.0.0.1", 11222⟩⟩
     outcome := .raised (.transport "10.0.0.1" 11222 "broken pipe") false },
    { transport := .ok ⟨1, ⟨"10.0.0.2", 11222⟩⟩, outcome := .returned 7 true }]

theorem transports_handed_back_broken :
    ∃ s, run (turn .plain ⟨2, SortedMap.empty, fun _ _ => none, fun _ => none⟩)
      ({ currCluster := 0 } : Loop Nat Nat)
      broken = some s ∧ ∀ a ∈ s.log, Paired .plain a := by
  refine ⟨_, rfl, (transports_handed_back_iff .plain
    ⟨2, SortedMap.empty, fun _ _ => none, fun _ => none⟩ 0 broken
    rfl).mpr ?_⟩
  intro a member
  rcases List.mem_cons.mp member with rfl | member
  · exact (rfl : InetSocketAddress.new "10.0.0.1" 11222 = _)
  · rw [List.mem_singleton.mp member]
    exact .inr fun e raises => by cases raises

def misnamed : Script Nat where
  transport := .ok ⟨0, ⟨"10.0.0.1", 11222⟩⟩
  outcome := .raised (.transport "10.0.0.2" 11222 "connection refused") false

/-- The transport is invalidated under the address of the other server. -/
theorem transport_invalidated_elsewhere :
    ∃ s, run (turn .plain ⟨0, SortedMap.empty, fun _ _ => none, fun _ => none⟩)
      ({ currCluster := 0 } : Loop Nat Nat)
      [misnamed] = some s ∧ ∃ a ∈ s.log, ¬ Paired .plain a := by
  refine ⟨_, rfl, _, List.mem_singleton.mpr rfl, ?_⟩
  rintro ⟨call, one, own, -⟩
  cases one
  revert own
  decide

end HotRod.Operations
