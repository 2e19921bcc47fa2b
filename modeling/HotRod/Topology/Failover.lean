import HotRod.Operations.RetryOnFailure
import HotRod.Semantics.Transition
import HotRod.Topology.TransportFactory

/-! Which cluster the factory takes for the current one.

`start` and the automatic switch remember the name of the cluster that they choose. The switch
to a named cluster does not, and the next automatic one then passes over the wrong cluster. -/

set_option autoImplicit false

namespace HotRod.Topology

open Semantics.Execution Semantics.Transition HotRod.Transport
open HotRod.Operations (InetSocketAddress anyAnswers getNextWorkingServersConfiguration)

variable {C N K : Type} [LinearOrder C] [LinearOrder N] [LinearOrder K]

/-- The clusters of a configuration; `create` leaves none without any. -/
structure Clusters (C : Type) [LinearOrder C] where
  serversMap : SortedMap C (List InetSocketAddress)
  DEFAULT_CLUSTER_NAME : C
  filled : serversMap.entries ≠ []

namespace Clusters

-- The clusters in `ConfigurationBuilder::create`, with the server of a fresh builder.
def create (DEFAULT_CLUSTER_NAME : C) (server : InetSocketAddress)
    (m_serversMap : SortedMap C (List InetSocketAddress)) : Clusters C :=
  if filled : m_serversMap.entries ≠ [] then
    { serversMap := m_serversMap, DEFAULT_CLUSTER_NAME, filled }
  else
    { serversMap := SortedMap.empty.insert DEFAULT_CLUSTER_NAME [server]
      DEFAULT_CLUSTER_NAME
      filled := List.cons_ne_nil _ _ }

def servers (clusters : Clusters C) (name : C) : List InetSocketAddress :=
  (clusters.serversMap.get? name).getD []

def first (clusters : Clusters C) : C × List InetSocketAddress :=
  match clusters.serversMap.get? clusters.DEFAULT_CLUSTER_NAME with
  | some servers => (clusters.DEFAULT_CLUSTER_NAME, servers)
  | none => clusters.serversMap.entries.head clusters.filled

def AnotherAnswers (clusters : Clusters C) (answers : InetSocketAddress → Option Exn)
    (current : C) : Prop :=
  ∃ name servers, clusters.serversMap.get? name = some servers ∧ name ≠ current ∧
    ∃ server ∈ servers, answers server = none

end Clusters

/-- `inUse` is a record that the code does not keep: the cluster whose servers `start` or a
switch has put in place last. -/
structure ClusterFactory (C N K : Type) [LinearOrder N] [LinearOrder K] where
  factory : TransportFactory N K := {}
  currCluster : C
  inUse : C

structure Meeting (K : Type) where
  -- What the factory meets while it puts servers in place.
  makes : List (Option Exn) := []
  pings : List (Ping K) := []

/-- The answers to `pingExternalServer`, and the topologies that come with them; what a ping
raises over its topology is its answer. -/
structure Contacts (K : Type) extends Meeting K where
  answers : InetSocketAddress → Option Exn
  views : List (List K × List (Option Exn)) := []

inductive SwitchCall (C K : Type) where
  | automatic (contacts : Contacts K)
  | manual (clusterName : C) (meeting : Meeting K)

namespace ClusterFactory

variable (config : Configuration) (clusters : Clusters C) (address : InetSocketAddress → K)

abbrev Outcome (C N K : Type) [LinearOrder N] [LinearOrder K] :=
  EStateM.Result Fault (ClusterFactory C N K) (Option Bool)

/-- `none` if a ping blocks for ever. -/
def putInPlace (name : C) (configuredServers : List InetSocketAddress) (meeting : Meeting K)
    (s : ClusterFactory C N K) : Outcome C N K :=
  match switchTo config (configuredServers.map address) meeting.makes meeting.pings s.factory with
  | .ok returns factory => .ok (if returns then some true else none)
      { s with factory, inUse := name }
  | .error fault factory => .error fault { s with factory, inUse := name }

def start (meeting : Meeting K) : Outcome C N K :=
  putInPlace config address clusters.first.1 clusters.first.2 meeting
    { currCluster := clusters.first.1, inUse := clusters.first.1 }

-- The topologies are those of servers outside the cluster, and are put in place all the same.
def takeViews (views : List (List K × List (Option Exn))) (s : TransportFactory N K) :
    TransportFactory N K :=
  views.foldl (fun s view => final (updateServers config view.2 view.1 s)) s

/-- The cluster that the automatic switch leads to. -/
def selects (answers : InetSocketAddress → Option Exn) (s : ClusterFactory C N K) :
    Except Exn (Option C) :=
  getNextWorkingServersConfiguration answers s.currCluster clusters.serversMap.entries

def clusterSwitch (contacts : Contacts K) (s : ClusterFactory C N K) : Outcome C N K :=
  let pinged := { s with factory := takeViews config contacts.views s.factory }
  match selects clusters contacts.answers s with
  | .error e => .error (.raised e) pinged
  | .ok none => .ok (some false) pinged
  | .ok (some name) =>
    -- the name is remembered before anything is put in place
    let chosen := { pinged with currCluster := name }
    if clusters.servers name = [] then .ok (some false) chosen
    else
      let connectionPool := chosen.factory.connectionPool.close
      putInPlace config address name (clusters.servers name) contacts.toMeeting
        { chosen with factory := { chosen.factory with connectionPool } }

-- `clusterSwitch(clusterName)`.
def clusterSwitchTo (clusterName : C) (meeting : Meeting K) (s : ClusterFactory C N K) :
    Outcome C N K :=
  match clusters.serversMap.get? clusterName with
  | none => .ok (some false) s
  | some configuredServers =>
    -- `currCluster` stays as it is
    putInPlace config address clusterName configuredServers meeting s

-- The factory after a call that comes back, also if it raises.
def after : Outcome C N K → Option (ClusterFactory C N K)
  | .ok (some _) t => some t
  | .ok none _ => none
  | .error (.raised _) t => some t
  | .error _ _ => none

def switch (s : ClusterFactory C N K) : SwitchCall C K → Option (ClusterFactory C N K)
  | .automatic contacts => after (clusterSwitch config clusters address contacts s)
  | .manual clusterName meeting =>
    after (clusterSwitchTo config clusters address clusterName meeting s)

-- `getNextWorkingServersConfiguration` catches what the pings raise.
def Caught (answers : InetSocketAddress → Option Exn) : Prop :=
  ∀ server e, answers server = some e → e.isException = true

/-- The automatic switch leaves the cluster in use for one that answers, if there is any, and
the other one leaves everything as it is if it is given a name that is not known. -/
structure SwitchesAway (s : ClusterFactory C N K) : Prop where
  avoids : ∀ answers name, selects clusters answers s = .ok (some name) → name ≠ s.inUse
  false_iff : ∀ contacts b t, clusterSwitch config clusters address contacts s = .ok (some b) t →
    (b = false ↔ ¬ clusters.AnotherAnswers contacts.answers s.inUse)
  returns : ∀ contacts, Caught contacts.answers →
    ¬ clusters.AnotherAnswers contacts.answers s.inUse →
      ∃ t, clusterSwitch config clusters address contacts s = .ok (some false) t
  unknown : ∀ clusterName meeting, clusters.serversMap.get? clusterName = none →
    clusterSwitchTo config clusters address clusterName meeting s = .ok (some false) s

/-- A switch to a configured cluster is given the name that the factory remembers. -/
def Remembered (s : ClusterFactory C N K) : SwitchCall C K → Prop
  | .automatic _ => True
  | .manual clusterName _ =>
    clusters.serversMap.get? clusterName = none ∨ clusterName = s.currCluster

/-! ### The choice -/

section Choice

variable {ping : InetSocketAddress → Option Exn} {currCluster : C}

theorem anyAnswers_iff {servers : List InetSocketAddress} {b : Bool}
    (asked : anyAnswers ping servers = .ok b) :
    b = true ↔ ∃ server ∈ servers, ping server = none := by
  induction servers with
  | nil =>
    cases asked
    simp
  | cons v rest ih =>
    rw [anyAnswers] at asked
    cases met : ping v with
    | none =>
      rw [met] at asked
      cases asked
      exact iff_of_true rfl ⟨v, List.mem_cons_self, met⟩
    | some e =>
      simp only [met] at asked
      split at asked
      · rw [ih asked]
        simp [met]
      · cases asked

theorem anyAnswers_of_caught (caught : Caught ping) (servers : List InetSocketAddress) :
    ∃ b, anyAnswers ping servers = .ok b := by
  induction servers with
  | nil => exact ⟨false, rfl⟩
  | cons v rest ih =>
    rw [anyAnswers]
    cases met : ping v with
    | none => exact ⟨true, rfl⟩
    | some e =>
      simp only [caught v e met, if_true]
      exact ih

theorem chosen_answers {entries : List (C × List InetSocketAddress)} {name : C}
    (chosen : getNextWorkingServersConfiguration ping currCluster entries = .ok (some name)) :
    name ≠ currCluster ∧ ∃ servers, (name, servers) ∈ entries ∧
      ∃ server ∈ servers, ping server = none := by
  induction entries with
  | nil => cases chosen
  | cons head rest ih =>
    obtain ⟨other, servers⟩ := head
    have later : getNextWorkingServersConfiguration ping currCluster rest = .ok (some name) →
        name ≠ currCluster ∧ ∃ servers', (name, servers') ∈ (other, servers) :: rest ∧
          ∃ server ∈ servers', ping server = none := by
      intro found
      obtain ⟨distinct, servers', member, answering⟩ := ih found
      exact ⟨distinct, servers', List.mem_cons_of_mem _ member, answering⟩
    rw [getNextWorkingServersConfiguration] at chosen
    split at chosen
    · exact later chosen
    · next distinct =>
      split at chosen
      · cases chosen
      · next asked =>
        cases chosen
        exact ⟨distinct, servers, List.mem_cons_self, (anyAnswers_iff asked).mp rfl⟩
      · exact later chosen

theorem none_answers {entries : List (C × List InetSocketAddress)}
    (nothing : getNextWorkingServersConfiguration ping currCluster entries = .ok none) {name : C}
    {servers : List InetSocketAddress} (member : (name, servers) ∈ entries)
    (distinct : name ≠ currCluster) : ¬ ∃ server ∈ servers, ping server = none := by
  induction entries with
  | nil => cases member
  | cons head rest ih =>
    rw [getNextWorkingServersConfiguration] at nothing
    obtain rfl | later := List.mem_cons.mp member
    · rw [if_neg distinct] at nothing
      split at nothing
      · cases nothing
      · cases nothing
      · next asked =>
        rw [← anyAnswers_iff asked]
        exact Bool.false_ne_true
    · split at nothing
      · exact ih nothing later
      · split at nothing
        · cases nothing
        · cases nothing
        · exact ih nothing later

theorem chosen_of_caught (caught : Caught ping) (currCluster : C)
    (entries : List (C × List InetSocketAddress)) :
    ∃ found, getNextWorkingServersConfiguration ping currCluster entries = .ok found := by
  induction entries with
  | nil => exact ⟨none, rfl⟩
  | cons head rest ih =>
    rw [getNextWorkingServersConfiguration]
    split
    · exact ih
    · obtain ⟨b, asked⟩ := anyAnswers_of_caught caught head.2
      rw [asked]
      cases b with
      | true => exact ⟨some head.1, rfl⟩
      | false => exact ih

end Choice

variable {config clusters address}
  {s t : ClusterFactory C N K} {answers : InetSocketAddress → Option Exn} {contacts : Contacts K}

theorem selects_some {name : C} (selected : selects clusters answers s = .ok (some name)) :
    name ≠ s.currCluster ∧ clusters.AnotherAnswers answers s.currCluster ∧
      clusters.servers name ≠ [] := by
  obtain ⟨distinct, servers, member, server, listed, answering⟩ := chosen_answers selected
  have found := (SortedMap.get?_eq_some _).mpr member
  refine ⟨distinct, ⟨name, servers, found, distinct, server, listed, answering⟩, ?_⟩
  rw [Clusters.servers, found]
  exact List.ne_nil_of_mem listed

theorem selects_none (selected : selects clusters answers s = .ok none) :
    ¬ clusters.AnotherAnswers answers s.currCluster := by
  intro another
  obtain ⟨name, servers, found, distinct, answering⟩ := another
  exact none_answers selected ((SortedMap.get?_eq_some _).mp found) distinct answering

/-! ### The calls -/

omit [LinearOrder C] in
theorem putInPlace_cases (config : Configuration) (address : InetSocketAddress → K) (name : C)
    (configuredServers : List InetSocketAddress) (meeting : Meeting K) (s : ClusterFactory C N K) :
    Meets (putInPlace config address name configuredServers meeting s)
      (fun b t => b ≠ some false ∧ t.currCluster = s.currCluster ∧ t.inUse = name)
      (fun _ t => t.currCluster = s.currCluster ∧ t.inUse = name) := by
  unfold putInPlace
  split
  · next returns factory _ =>
    refine ⟨?_, rfl, rfl⟩
    cases returns <;> simp
  · exact ⟨rfl, rfl⟩

theorem clusterSwitch_of_none (selected : selects clusters contacts.answers s = .ok none) :
    clusterSwitch config clusters address contacts s =
      .ok (some false) { s with factory := takeViews config contacts.views s.factory } := by
  rw [clusterSwitch, selected]

-- The call returns false where nothing is chosen, and otherwise puts what is chosen in place.
theorem clusterSwitch_cases (config : Configuration) (clusters : Clusters C)
    (address : InetSocketAddress → K) (contacts : Contacts K) (s : ClusterFactory C N K) :
    Meets (clusterSwitch config clusters address contacts s)
      (fun b t => (b = some false ∧ ¬ clusters.AnotherAnswers contacts.answers s.currCluster ∧
          t.currCluster = s.currCluster ∧ t.inUse = s.inUse) ∨
        (b ≠ some false ∧ clusters.AnotherAnswers contacts.answers s.currCluster ∧
          t.currCluster = t.inUse))
      (fun _ t => (t.currCluster = s.currCluster ∧ t.inUse = s.inUse) ∨
        t.currCluster = t.inUse) := by
  unfold clusterSwitch
  split
  · exact .inl ⟨rfl, rfl⟩
  · next selected => exact .inl ⟨rfl, selects_none selected, rfl, rfl⟩
  · next name selected =>
    obtain ⟨-, another, filled⟩ := selects_some selected
    rw [if_neg filled]
    apply (putInPlace_cases config address name _ _ _).mono
    · intro b t placed
      obtain ⟨returned, current, used⟩ := placed
      exact .inr ⟨returned, another, current.trans used.symm⟩
    · intro fault t placed
      obtain ⟨current, used⟩ := placed
      exact .inr (current.trans used.symm)

omit [LinearOrder C] in
theorem after_meets {P : ClusterFactory C N K → Prop} {outcome : Outcome C N K}
    (meets : Meets outcome (fun _ t => P t) (fun _ t => P t)) (came : after outcome = some t) :
    P t := by
  unfold ClusterFactory.after at came
  split at came
  · cases came
    exact meets
  · cases came
  · cases came
    exact meets
  · cases came

/-! ### Runs -/

theorem start_remembers {meeting : Meeting K}
    (started : after (start config clusters address meeting) = some s) :
    s.currCluster = s.inUse := by
  apply after_meets _ started
  apply (putInPlace_cases config address _ _ _ _).mono
  · intro b t placed
    exact placed.2.1.trans placed.2.2.symm
  · intro fault t placed
    exact placed.1.trans placed.2.symm

theorem switch_remembers {call : SwitchCall C K} (current : s.currCluster = s.inUse)
    (remembered : Remembered clusters s call)
    (switched : switch config clusters address s call = some t) : t.currCluster = t.inUse := by
  cases call with
  | automatic contacts =>
    apply after_meets _ switched
    apply (clusterSwitch_cases config clusters address contacts s).mono
    · intro b t outcome
      obtain ⟨-, -, kept, used⟩ | ⟨-, -, same⟩ := outcome
      · rw [kept, used, current]
      · exact same
    · intro fault t outcome
      obtain ⟨kept, used⟩ | same := outcome
      · rw [kept, used, current]
      · exact same
  | manual clusterName meeting =>
    simp only [switch, clusterSwitchTo] at switched
    obtain unknown | same := remembered
    · rw [unknown] at switched
      cases switched
      exact current
    · split at switched
      · cases switched
        exact current
      · apply after_meets _ switched
        apply (putInPlace_cases config address _ _ _ _).mono
        · intro b t placed
          exact placed.2.1.trans (same.symm.trans placed.2.2.symm)
        · intro fault t placed
          exact placed.1.trans (same.symm.trans placed.2.symm)

theorem switchesAway_of_current (current : s.currCluster = s.inUse) :
    SwitchesAway config clusters address s where
  avoids answers name selected := current ▸ (selects_some selected).1
  false_iff contacts b t returned := by
    have outcome := clusterSwitch_cases config clusters address contacts s
    rw [returned, meets_ok, current] at outcome
    obtain ⟨failed, no_other, -⟩ | ⟨passed, another, -⟩ := outcome
    · cases failed
      exact iff_of_true rfl no_other
    · cases b with
      | false => exact absurd rfl passed
      | true => exact iff_of_false Bool.true_eq_false.mp (not_not.mpr another)
  returns contacts caught no_other := by
    rw [← current] at no_other
    obtain ⟨found, chosen⟩ :=
      chosen_of_caught caught s.currCluster clusters.serversMap.entries
    cases found with
    | none => exact ⟨_, clusterSwitch_of_none chosen⟩
    | some name => exact absurd (selects_some chosen).2.1 no_other
  unknown clusterName meeting absent := by
    rw [clusterSwitchTo, absent]

/-- In every run in which a switch to a configured cluster is given the name that the factory
remembers, the automatic switch leaves the cluster in use. -/
theorem failover_switches_away {meeting : Meeting K} {calls : List (SwitchCall C K)}
    (started : after (start config clusters address meeting) = some s)
    (guarded : Guarded (switch config clusters address) (Remembered clusters) s calls)
    (reached : run (switch config clusters address) s calls = some t) :
    SwitchesAway config clusters address t :=
  switchesAway_of_current (run_invariant (fun s => s.currCluster = s.inUse)
    (start_remembers started) (fun _ _ _ current remembered switched =>
      switch_remembers current remembered switched) guarded reached)

def twoClusters : Clusters Nat :=
  .create 0 ⟨"127.0.0.1", 11222⟩
    ((SortedMap.empty.insert 0 [⟨"nyc", 11222⟩]).insert 1 [⟨"lon", 11223⟩])

def byPort (server : InetSocketAddress) : Nat := server.port.toNat

def session (calls : List (SwitchCall Nat Nat)) : Option (ClusterFactory Nat Nat Nat) :=
  (after (start {} twoClusters byPort {})).bind fun s => run (switch {} twoClusters byPort) s calls

theorem switches_away_of_two :
    ∃ t, session [.automatic { answers := fun _ => none }, .manual 2 {}] = some t ∧
      SwitchesAway {} twoClusters byPort t := by
  have comes : (session [.automatic { answers := fun _ => none }, .manual 2 {}]).isSome = true := by
    decide +kernel
  obtain ⟨t, came⟩ := Option.isSome_iff_exists.mp comes
  obtain ⟨s, started, reached⟩ := Option.bind_eq_some_iff.mp came
  refine ⟨t, came, failover_switches_away started ?_ reached⟩
  exact ⟨trivial, fun _ _ => ⟨.inl rfl, fun _ _ => trivial⟩⟩

/-- After a switch to the second cluster, the automatic one leads to it again. -/
theorem not_switches_away_of_manual :
    ¬ ∀ calls t, session calls = some t → SwitchesAway {} twoClusters byPort t := by
  intro all
  have ends : (session [.manual 1 {}]).map (fun t => (t.currCluster, t.inUse)) = some (0, 1) := by
    decide +kernel
  obtain ⟨t, came, names⟩ := Option.map_eq_some_iff.mp ends
  have remembered : t.currCluster = 0 := congrArg Prod.fst names
  have used : t.inUse = 1 := congrArg Prod.snd names
  have selected : selects twoClusters (fun _ => none) t = .ok (some 1) := by
    rw [selects, remembered]
    rfl
  exact (all _ t came).avoids _ 1 selected used.symm

end ClusterFactory

end HotRod.Topology
