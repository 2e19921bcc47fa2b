import HotRod.Data.Lines
import HotRod.Data.SortedMap
import Mathlib.Data.String.Basic

/-! The server list of `ConfigurationBuilder`.

`addServers` keeps the variables for the host and for the port from one entry to the next. What
the stream of an entry does not deliver stays in them, and an entry that has no port gets the
one that is there. -/

set_option autoImplicit false

namespace HotRod

open Lines

abbrev Text := List UInt8

structure ServerConfiguration where
  host : Text
  port : Int
  deriving DecidableEq, Repr

structure ConfigurationBuilder where
  m_serversMap : SortedMap String (List ServerConfiguration) := SortedMap.empty

/-! ### Numbers in a stream -/

def isSpace (c : UInt8) : Bool := c == 0x20 || (0x09 ≤ c && c ≤ 0x0D)

def isDigit (c : UInt8) : Bool := 0x30 ≤ c && c ≤ 0x39

def decimal (text : Text) : Nat :=
  (text.takeWhile isDigit).foldl (fun n c => 10 * n + (c.toNat - 0x30)) 0

/-- What `>>` stores in an `int`: the nearest one if the number is too large, and 0 if there is
no number. It stores nothing where there is only white space. -/
def extractInt (text : Text) : Option Int :=
  match text.dropWhile isSpace with
  | [] => none
  | c :: rest =>
    let number : Int :=
      if c = 0x2D then -(decimal rest) else if c = 0x2B then decimal rest else decimal (c :: rest)
    some (max (-2 ^ 31) (min number (2 ^ 31 - 1)))

namespace ConfigurationBuilder

def DEFAULT_CLUSTER_NAME : String := "DEFAULT_CLUSTER_NAME"

def servers (builder : ConfigurationBuilder) : List ServerConfiguration :=
  (builder.m_serversMap.get? DEFAULT_CLUSTER_NAME).getD []

-- `addServer().host(...).port(...)`.
def addServer (builder : ConfigurationBuilder) (server : ServerConfiguration) :
    ConfigurationBuilder where
  m_serversMap := builder.m_serversMap.insert DEFAULT_CLUSTER_NAME (builder.servers ++ [server])

def semicolon : UInt8 := 0x3B

def colon : UInt8 := 0x3A

structure Helpers where
  hostHelper : Text := []
  portHelper : Text := []
  portInt : Int

-- What a turn of the loop leaves in its variables.
def readEntry (helpers : Helpers) (stringHelper : Text) : Helpers :=
  let host := getline colon { unread := stringHelper } helpers.hostHelper
  -- without a colon the stream has come to its end, and the variable keeps what it has
  let port := getline colon host.2.2 helpers.portHelper
  { hostHelper := host.2.1
    portHelper := port.2.1
    portInt := (extractInt port.2.1).getD helpers.portInt }

def addEntry (s : Helpers × ConfigurationBuilder) (stringHelper : Text) :
    Helpers × ConfigurationBuilder :=
  let helpers := readEntry s.1 stringHelper
  (helpers, s.2.addServer { host := helpers.hostHelper, port := helpers.portInt })

-- `indeterminate` is what `portInt` holds before anything is stored in it.
def addServers (indeterminate : Int) (servers : Text) (builder : ConfigurationBuilder) :
    ConfigurationBuilder :=
  (forLines semicolon addEntry { unread := servers } ({ portInt := indeterminate }, builder)).2

-- The server of a fresh `ServerConfigurationBuilder`.
def localhost : ServerConfiguration where
  host := [0x6C, 0x6F, 0x63, 0x61, 0x6C, 0x68, 0x6F, 0x73, 0x74]
  port := 11222

-- The clusters of the configuration that `create` returns.
def create (builder : ConfigurationBuilder) : SortedMap String (List ServerConfiguration) :=
  if builder.m_serversMap.entries = [] then
    SortedMap.empty.insert DEFAULT_CLUSTER_NAME [localhost]
  else builder.m_serversMap

def ISPN_CLIENT_HOTROD_SERVER_LIST : String := "infinispan.client.hotrod.server_list"

def buildConfig (indeterminate : Int) (properties : SortedMap String Text) :
    SortedMap String (List ServerConfiguration) :=
  match properties.get? ISPN_CLIENT_HOTROD_SERVER_LIST with
  | some serverList => (addServers indeterminate serverList {}).create
  | none => create {}

def entries (servers : Text) : List Text := lines semicolon servers

def added (indeterminate : Int) (servers : Text) : List ServerConfiguration :=
  (addServers indeterminate servers {}).servers

structure EntryWise (servers : Text) : Prop where
  own : ∀ (others : Text) (i : Nat) (entry : Text), (entries servers)[i]? = some entry →
    (entries others)[i]? = some entry →
      ∀ x y, (added x servers)[i]? = (added y others)[i]?
  apart : ∀ a b, a ≠ [] → a.getLast? ≠ some semicolon → servers = a ++ semicolon :: b →
    ∀ x y z builder, addServers x servers builder = addServers z b (addServers y a builder)

/-- What stands between the first colon and the second, or behind the only one. -/
def portText (entry : Text) : Option Text :=
  match left colon entry with
  | [] => none
  | _ :: rest => some (line colon rest)

def HasPort (entry : Text) : Prop :=
  ∃ text, portText entry = some text ∧ ∃ c ∈ text, isSpace c = false

/-! ### One entry -/

variable {entry : Text} {helpers : Helpers} {p x : Int}

theorem extractInt_isSome_iff (text : Text) :
    (extractInt text).isSome = true ↔ ∃ c ∈ text, isSpace c = false := by
  have rest_nil_iff : text.dropWhile isSpace = [] ↔ ∀ c ∈ text, isSpace c = true :=
    List.dropWhile_eq_nil_iff
  unfold extractInt
  split
  · next none_left =>
    refine iff_of_false (Bool.false_ne_true) ?_
    intro visible
    obtain ⟨c, member, seen⟩ := visible
    rw [rest_nil_iff.mp none_left c member] at seen
    cases seen
  · next c rest some_left =>
    refine iff_of_true rfl ?_
    by_contra blank
    have none_left := rest_nil_iff.mpr fun c member => by
      cases space : isSpace c with
      | true => rfl
      | false => exact absurd ⟨c, member, space⟩ blank
    rw [none_left] at some_left
    cases some_left

def ownPort (entry : Text) : Option Int := (portText entry).bind extractInt

theorem hasPort_iff : HasPort entry ↔ ∃ p, ownPort entry = some p := by
  rw [HasPort, ownPort]
  cases portText entry with
  | none => simp
  | some text =>
    rw [Option.bind_some, ← Option.isSome_iff_exists, extractInt_isSome_iff]
    simp

/-- The number is the one in the variable for the text, if there is one. -/
def Helpers.Consistent (helpers : Helpers) : Prop :=
  ∀ p, extractInt helpers.portHelper = some p → helpers.portInt = p

theorem readEntry_host : (readEntry helpers entry).hostHelper = line colon entry := by
  rw [readEntry]
  cases some_left : left colon entry with
  | nil => rw [getline_of_left_nil some_left]
  | cons c rest => rw [getline_of_left_cons some_left]

theorem readEntry_portHelper :
    (readEntry helpers entry).portHelper = (portText entry).getD helpers.portHelper := by
  rw [readEntry, portText]
  cases some_left : left colon entry with
  | nil =>
    rw [getline_of_left_nil some_left]
    rfl
  | cons c rest =>
    rw [getline_of_left_cons some_left]
    cases left_behind : left colon rest with
    | nil => exact congrArg (·.2.1) (getline_of_left_nil left_behind helpers.portHelper)
    | cons d later => exact congrArg (·.2.1) (getline_of_left_cons left_behind helpers.portHelper)

theorem readEntry_portInt :
    (readEntry helpers entry).portInt =
      (extractInt (readEntry helpers entry).portHelper).getD helpers.portInt := rfl

theorem readEntry_consistent : (readEntry helpers entry).Consistent := by
  intro p found
  rw [readEntry_portInt, found, Option.getD_some]

theorem Helpers.Consistent.port (consistent : helpers.Consistent) :
    (readEntry helpers entry).portInt = (ownPort entry).getD helpers.portInt := by
  rw [readEntry_portInt, readEntry_portHelper, ownPort]
  cases portText entry with
  | some text => rfl
  | none =>
    rw [Option.getD_none, Option.bind_none, Option.getD_none]
    cases before : extractInt helpers.portHelper with
    | none => rfl
    | some p => rw [Option.getD_some, consistent p before]

/-! ### The loop -/

/-- The servers of the entries, where the variable for the port holds `x` at first. -/
def serversOf (x : Int) : List Text → List ServerConfiguration
  | [] => []
  | entry :: rest =>
    let port := (ownPort entry).getD x
    { host := line colon entry, port } :: serversOf port rest

theorem foldl_addEntry (pieces : List Text) (consistent : helpers.Consistent)
    (builder : ConfigurationBuilder) :
    (pieces.foldl addEntry (helpers, builder)).2 =
      (serversOf helpers.portInt pieces).foldl addServer builder := by
  induction pieces generalizing helpers builder with
  | nil => rfl
  | cons entry rest ih =>
    rw [List.foldl_cons, serversOf, List.foldl_cons, ← consistent.port, ← readEntry_host]
    exact ih readEntry_consistent _

theorem addServers_eq (x : Int) (servers : Text) (builder : ConfigurationBuilder) :
    addServers x servers builder = (serversOf x (entries servers)).foldl addServer builder := by
  rw [addServers, forLines_eq, entries]
  apply foldl_addEntry
  intro p found
  cases found

theorem servers_addServer (builder : ConfigurationBuilder) (server : ServerConfiguration) :
    (builder.addServer server).servers = builder.servers ++ [server] := by
  rw [ConfigurationBuilder.servers, addServer, SortedMap.get?_insert_self, Option.getD_some]

theorem servers_foldl (more : List ServerConfiguration) (builder : ConfigurationBuilder) :
    (more.foldl addServer builder).servers = builder.servers ++ more := by
  induction more generalizing builder with
  | nil => exact (List.append_nil _).symm
  | cons server rest ih => rw [List.foldl_cons, ih, servers_addServer, List.append_assoc,
      List.singleton_append]

theorem added_eq (x : Int) (servers : Text) : added x servers = serversOf x (entries servers) := by
  rw [added, addServers_eq, servers_foldl]
  rfl

/-! ### Entries with ports -/

def ownServer (entry : Text) : ServerConfiguration where
  host := line colon entry
  port := (ownPort entry).getD 0

theorem serversOf_of_hasPort {pieces : List Text} (all : ∀ entry ∈ pieces, HasPort entry) (x : Int) :
    serversOf x pieces = pieces.map ownServer := by
  induction pieces generalizing x with
  | nil => rfl
  | cons entry rest ih =>
    obtain ⟨p, own⟩ := hasPort_iff.mp (all entry List.mem_cons_self)
    rw [serversOf, List.map_cons, ih fun other member => all other (List.mem_cons_of_mem _ member),
      ownServer, own]
    rfl

theorem serversOf_getElem? {pieces : List Text} {i : Nat} (here : pieces[i]? = some entry)
    (has : HasPort entry) (x : Int) : (serversOf x pieces)[i]? = some (ownServer entry) := by
  induction pieces generalizing x i with
  | nil => cases here
  | cons first rest ih =>
    cases i with
    | zero =>
      cases here
      obtain ⟨p, own⟩ := hasPort_iff.mp has
      rw [serversOf, ownServer, own]
      rfl
    | succ i => exact ih here _

-- Behind entries that are empty, an entry without a port gets what the variable held at first.
theorem serversOf_replicate (none_own : ownPort entry = none) (i : Nat) (x : Int) :
    (serversOf x (List.replicate i [] ++ [entry]))[i]? =
      some { host := line colon entry, port := x } := by
  induction i with
  | zero =>
    rw [List.replicate_zero, List.nil_append, serversOf, none_own]
    rfl
  | succ i ih =>
    rw [List.replicate_succ, List.cons_append, serversOf, List.getElem?_cons_succ]
    exact ih

theorem entries_apart {a : Text} (b : Text) (filled : a ≠ []) (last : a.getLast? ≠ some semicolon) :
    entries (a ++ semicolon :: b) = entries a ++ entries b :=
  lines_append b filled last

theorem entryWise_of_hasPort {servers : Text} (all : ∀ entry ∈ entries servers, HasPort entry) :
    EntryWise servers where
  own others i entry here there x y := by
    have has := all entry (List.mem_of_getElem? here)
    rw [added_eq, added_eq, serversOf_getElem? here has, serversOf_getElem? there has]
  apart a b filled last joined x y z builder := by
    subst joined
    rw [entries_apart b filled last] at all
    have first : ∀ entry ∈ entries a, HasPort entry :=
      fun entry member => all entry (List.mem_append_left _ member)
    have second : ∀ entry ∈ entries b, HasPort entry :=
      fun entry member => all entry (List.mem_append_right _ member)
    rw [addServers_eq, addServers_eq, addServers_eq, entries_apart b filled last,
      serversOf_of_hasPort all, serversOf_of_hasPort first, serversOf_of_hasPort second,
      List.map_append, List.foldl_append]

/-- A server list is read entry by entry exactly if every entry has a port. -/
theorem entry_wise_iff (servers : Text) :
    EntryWise servers ↔ ∀ entry ∈ entries servers, HasPort entry := by
  refine ⟨?_, entryWise_of_hasPort⟩
  intro entryWise entry member
  by_contra portless
  have none_own : ownPort entry = none := by
    rw [hasPort_iff, ← Option.isSome_iff_exists, Bool.not_eq_true,
      Option.isSome_eq_false_iff] at portless
    exact Option.isNone_iff_eq_none.mp portless
  obtain ⟨i, below, found⟩ := List.mem_iff_getElem.mp member
  have here : (entries servers)[i]? = some entry := List.getElem?_eq_some_iff.mpr ⟨below, found⟩
  -- the same entry in another list, in which nothing before it has a port
  have split_others : entries (terminated semicolon (List.replicate i [] ++ [entry])) =
      List.replicate i [] ++ [entry] := by
    apply lines_terminated
    intro piece listed
    obtain empty | last := List.mem_append.mp listed
    · rw [List.eq_of_mem_replicate empty]
      exact List.not_mem_nil
    · rw [List.mem_singleton.mp last]
      exact not_mem_of_lines member
  have there : (entries (terminated semicolon (List.replicate i [] ++ [entry])))[i]? =
      some entry := by
    rw [split_others, List.getElem?_append_right (by simp)]
    simp
  have port (x : Int) : (added 0 servers)[i]? = some { host := line colon entry, port := x } := by
    rw [entryWise.own _ i entry here there 0 x, added_eq, split_others,
      serversOf_replicate none_own]
  have one_two := (port 1).symm.trans (port 2)
  simp at one_two

/-- The second entry of "a:1;b" has no port. -/
theorem not_entry_wise_of_second : ¬ ∀ servers, EntryWise servers := by
  intro all
  have has := (entry_wise_iff [0x61, 0x3A, 0x31, 0x3B, 0x62]).mp (all _) [0x62] (by decide +kernel)
  obtain ⟨p, own⟩ := hasPort_iff.mp has
  cases own

/-- In "a:1;b", the second server gets the port of the first one. -/
example (x : Int) : added x [0x61, 0x3A, 0x31, 0x3B, 0x62] = [⟨[0x61], 1⟩, ⟨[0x62], 1⟩] := by
  rw [added_eq]
  rfl

/-! ### The configuration -/

theorem create_servers {builder : ConfigurationBuilder} {servers : List ServerConfiguration}
    (found : builder.m_serversMap.get? DEFAULT_CLUSTER_NAME = some servers) :
    builder.create.get? DEFAULT_CLUSTER_NAME = some servers := by
  rw [create, if_neg, found]
  intro empty
  rw [SortedMap.get?, empty] at found
  cases found

theorem get?_foldl (more : List ServerConfiguration) (filled : more ≠ [])
    (builder : ConfigurationBuilder) :
    (more.foldl addServer builder).m_serversMap.get? DEFAULT_CLUSTER_NAME =
      some (builder.servers ++ more) := by
  induction more generalizing builder with
  | nil => exact absurd rfl filled
  | cons server rest ih =>
    rw [List.foldl_cons]
    by_cases empty : rest = []
    · rw [empty, List.foldl_nil, addServer, SortedMap.get?_insert_self]
    · rw [ih empty, servers_addServer, List.append_assoc, List.singleton_append]

theorem buildConfig_servers (x : Int) {properties : SortedMap String Text} {serverList : Text}
    (given : properties.get? ISPN_CLIENT_HOTROD_SERVER_LIST = some serverList)
    (filled : serverList ≠ []) :
    (buildConfig x properties).get? DEFAULT_CLUSTER_NAME =
      some (serversOf x (entries serverList)) := by
  have some_servers : serversOf x (entries serverList) ≠ [] := by
    rw [entries, lines_eq filled, serversOf]
    exact List.cons_ne_nil _ _
  rw [buildConfig, given]
  apply create_servers
  rw [addServers_eq, get?_foldl _ some_servers]
  rfl

end ConfigurationBuilder

end HotRod
