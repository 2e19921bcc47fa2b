import HotRod.Data.WireFormat
import HotRod.Exceptions
import HotRod.Semantics.Execution

/-! The byte streams of one transport.

`unread` holds every byte the server has sent or is going to send for the
requests it was given; `inTime` says how many of them come before a read times
out, and `afterTimeout` how many more before each further time-out. A value that
does not come in time raises a transport exception, and what did come of it is
gone. -/

set_option autoImplicit false

namespace HotRod.Protocol

open Semantics.Execution
open WireFormat (Bytes)

/-- What a server does with a request: the answer it gives, and when the bytes of
it come. The socket does not take the request if there are no arrivals. -/
structure Delivery where
  bytes : List UInt8
  arrivals : Option (Nat × List Nat)

/-- `failed` is the member of the listener operations. -/
structure Connection where
  hostname : String
  port : Int
  unread : List UInt8 := []
  inTime : Nat := 0
  afterTimeout : List Nat := []
  output : List UInt8 := []
  coming : Option Delivery := none
  valid : Bool := true
  failed : Bool := false

/-- Nothing is left to read and nothing is left to send. -/
def Connection.Synchronised (s : Connection) : Prop := s.unread = [] ∧ s.output = []

abbrev ConnectionM := EStateM Exn Connection

variable {A B : Type}

namespace Connection

def ioError (s : Connection) (message : String) : Exn :=
  .throwIOErr s.hostname s.port message

def past (s : Connection) (bytes rest : List UInt8) : Connection :=
  { s with unread := rest, inTime := s.inTime - bytes.length }

-- A read has timed out.
def cut (s : Connection) : Connection :=
  { s with
    unread := s.unread.drop s.inTime
    inTime := s.afterTimeout.headD 0
    afterTimeout := s.afterTimeout.tail }

theorem past_past (s : Connection) (first second rest : List UInt8) :
    (s.past first (second ++ rest)).past second rest = s.past (first ++ second) rest := by
  simp only [past, List.length_append, Nat.sub_add_eq]

theorem not_synchronised_cut {s : Connection} (late : s.inTime < s.unread.length) :
    ¬ s.cut.Synchronised := by
  intro synchronised
  exact absurd (List.drop_eq_nil_iff.mp synchronised.1) (Nat.not_le.mpr late)

def filled (s : Connection) (bytes : List UInt8) : Connection :=
  { s with output := s.output ++ bytes }

theorem past_cut {s : Connection} {bytes rest : List UInt8} (unread : s.unread = bytes ++ rest)
    (came : bytes.length ≤ s.inTime) : (s.past bytes rest).cut = s.cut := by
  simp [past, cut, unread, List.drop_append, List.drop_eq_nil_of_le came]

end Connection

/-! ### `TcpTransport` and `AbstractTransport` -/

/-- The socket blocks until the last byte of the value is there. -/
def read (format : WireFormat A) : ConnectionM A := fun s =>
  match format.decode s.unread with
  | some (a, rest) =>
    if s.unread.length - rest.length ≤ s.inTime then
      .ok a { s with unread := rest, inTime := s.inTime - (s.unread.length - rest.length) }
    else .error (s.ioError "timeout") s.cut
  | none => .error (s.ioError "timeout") s.cut

def readByte : ConnectionM UInt8 := read WireFormat.byte

def readVInt : ConnectionM UInt32 := read WireFormat.vInt

def readVLong : ConnectionM UInt64 := read WireFormat.vLong

def readLong : ConnectionM UInt64 := read WireFormat.long

def readUnsignedShort : ConnectionM UInt16 := read WireFormat.unsignedShort

def read4ByteInt : ConnectionM UInt32 := read WireFormat.fourByteInt

def readArray : ConnectionM Bytes := read WireFormat.array

def readString : ConnectionM Bytes := readArray

def write (bytes : List UInt8) : ConnectionM PUnit := modify fun s => s.filled bytes

-- If the socket does not take the bytes, they stay in the buffer. The answer is to the request as a
-- whole, so a second flush of it brings no second answer.
def flush : ConnectionM PUnit := do
  let s ← get
  match s.coming with
  | none => set { s with output := [] }
  | some { bytes, arrivals := some (inTime, later) } =>
    set { s with
      output := []
      coming := none
      unread := s.unread ++ bytes
      inTime := s.inTime + inTime
      afterTimeout := later }
  | some { arrivals := none, .. } => throw (s.ioError "write")

def setValid (valid : Bool) : ConnectionM PUnit := modify fun s => { s with valid }

def setFailed (failed : Bool) : ConnectionM PUnit := modify fun s => { s with failed }

-- A call to code that is not modelled, by what it raises.
def unlessRaised (raised : Option Exn) (next : ConnectionM A) : ConnectionM A :=
  match raised with
  | some e => throw e
  | none => next

/-! ### Writing values -/

def writeByte (b : UInt8) : List UInt8 := WireFormat.byte.encode b

def writeVInt (n : UInt32) : List UInt8 := WireFormat.vInt.encode n

def writeVLong (n : UInt64) : List UInt8 := WireFormat.vLong.encode n

def writeLong (n : UInt64) : List UInt8 := WireFormat.long.encode n

-- The length is cast to 32 bits.
def writeArray (bytes : List UInt8) : List UInt8 := writeVInt (UInt32.ofNat bytes.length) ++ bytes

-- The length is cast to 32 bits, and as many bytes are written.
def writeString (str : List UInt8) : List UInt8 :=
  writeVInt (UInt32.ofNat str.length) ++ str.take (UInt32.ofNat str.length).toNat

theorem write_apply (bytes : List UInt8) (s : Connection) :
    write bytes s = .ok () (s.filled bytes) := rfl

theorem filled_filled (s : Connection) (first second : List UInt8) :
    (s.filled first).filled second = s.filled (first ++ second) := by
  simp only [Connection.filled, List.append_assoc]

/-! ### Loops -/

-- A `for` loop that reads one value a turn.
def readMany (body : ConnectionM A) : Nat → ConnectionM (List A)
  | 0 => pure []
  | n + 1 => do
    let a ← body
    let rest ← readMany body n
    pure (a :: rest)

/-- `while (readByte() == 1)`. Every turn reads a byte, so the turns are bounded by
what there is to read. -/
def readMarked (body : ConnectionM A) : Nat → ConnectionM (List A)
  | 0 => pure []
  | turns + 1 => do
    if (← readByte) = 1 then
      let a ← body
      let rest ← readMarked body turns
      pure (a :: rest)
    else pure []

def readWhileMarked (body : ConnectionM A) : ConnectionM (List A) := do
  readMarked body ((← get).unread.length + 1)

/-! ### What a program reads -/

/-- The program reads exactly these bytes and goes on as `next`, unless they do not
come in time. -/
def Reaches (m : ConnectionM A) (bytes : List UInt8) (next : ConnectionM A) : Prop :=
  ∀ (s : Connection) (rest : List UInt8), s.unread = bytes ++ rest →
    m s = if bytes.length ≤ s.inTime then next (s.past bytes rest) else .error
      (s.ioError "timeout") s.cut

def Consumes (m : ConnectionM A) (bytes : List UInt8) (a : A) : Prop := Reaches m bytes (pure a)

theorem reaches_nil (m : ConnectionM A) : Reaches m [] m := by
  intro s rest unread
  have same : s.past [] rest = s := by
    simp only [Connection.past, List.length_nil, Nat.sub_zero]
    rw [← List.nil_append rest, ← unread]
  simp only [List.length_nil, Nat.zero_le, if_true, same]

theorem consumes_pure (a : A) : Consumes (pure a) [] a := reaches_nil (pure a)

theorem decode_of_read {format : WireFormat A} {s t : Connection} {a : A}
    (returned : read format s = .ok a t) : format.decode s.unread = some (a, t.unread) := by
  rw [read] at returned
  split at returned
  · next decoded =>
    split at returned
    · cases returned
      exact decoded
    · cases returned
  · cases returned

theorem consumes_read (format : WireFormat A) (a : A) :
    Consumes (read format) (format.encode a) a := by
  intro s rest unread
  have size : s.unread.length - rest.length = (format.encode a).length := by
    rw [unread, List.length_append, Nat.add_sub_cancel]
  have decoded : format.decode s.unread = some (a, rest) := by rw [unread, format.decode_encode]
  simp only [read, decoded, size, Connection.past, pure_apply]

namespace Reaches

variable {m next : ConnectionM A} {xs : List UInt8}

theorem of_came (reaches : Reaches m xs next) {s : Connection} {rest : List UInt8}
    (unread : s.unread = xs ++ rest) (came : xs.length ≤ s.inTime) :
    m s = next (s.past xs rest) := by
  rw [reaches s rest unread, if_pos came]

theorem of_late (reaches : Reaches m xs next) {s : Connection} {rest : List UInt8}
    (unread : s.unread = xs ++ rest) (late : ¬ xs.length ≤ s.inTime) :
    m s = .error (s.ioError "timeout") s.cut := by
  rw [reaches s rest unread, if_neg late]

theorem bind (reaches : Reaches m xs next) (f : A → ConnectionM B) :
    Reaches (m >>= f) xs (next >>= f) := by
  intro s rest unread
  by_cases came : xs.length ≤ s.inTime
  · rw [if_pos came, bind_apply, bind_apply, reaches.of_came unread came]
  · rw [if_neg came, bind_of_error (reaches.of_late unread came)]

end Reaches

namespace Consumes

variable {m : ConnectionM A} {f : A → ConnectionM B} {next : ConnectionM B} {xs ys : List UInt8}
    {a : A}

theorem bind (first : Consumes m xs a) (second : Reaches (f a) ys next) :
    Reaches (m >>= f) (xs ++ ys) next := by
  intro s rest unread
  rw [List.append_assoc] at unread
  by_cases came : xs.length ≤ s.inTime
  · have returned : m s = .ok a (s.past xs (ys ++ rest)) := first.of_came unread came
    rw [bind_of_ok returned, second (s.past xs (ys ++ rest)) rest rfl,
      Connection.past_cut unread came]
    have total : xs.length + ys.length ≤ s.inTime ↔ ys.length ≤ s.inTime - xs.length := by omega
    simp only [Connection.past, Connection.ioError, List.length_append, Nat.sub_add_eq, total]
    congr
  · rw [bind_of_error (first.of_late unread came), if_neg]
    rw [List.length_append]
    omega

theorem map (first : Consumes m xs a) (g : A → B) :
    Consumes (m >>= fun a => pure (g a)) xs (g a) := by
  have both : Reaches (m >>= fun a => pure (g a)) (xs ++ []) (pure (g a)) :=
    first.bind (consumes_pure (g a))
  rwa [List.append_nil] at both

theorem reaches (first : Consumes m xs a) : Reaches (m >>= f) xs (f a) := by
  have both : Reaches (m >>= f) (xs ++ []) (f a) := first.bind (reaches_nil (f a))
  rwa [List.append_nil] at both

end Consumes

section Loops

variable {X : Type} {body : ConnectionM A} {encode : X → List UInt8} {value : X → A}

theorem consumes_readMany {xs : List X} (one : ∀ x ∈ xs, Consumes body (encode x) (value x)) :
    Consumes (readMany body xs.length) (xs.flatMap encode) (xs.map value) := by
  induction xs with
  | nil => exact consumes_pure []
  | cons x xs ih =>
    have later := ih fun y member => one y (List.mem_cons_of_mem _ member)
    exact (one x List.mem_cons_self).bind (later.map _)

theorem consumes_readMarked {xs : List X} {turns : Nat} {stop : UInt8}
    (one : ∀ x, Consumes body (encode x) (value x)) (enough : xs.length < turns)
    (stops : stop ≠ 1) :
    Consumes (readMarked body turns) (xs.flatMap (fun x => 1 :: encode x) ++ [stop])
      (xs.map value) := by
  induction xs generalizing turns with
  | nil =>
    obtain ⟨turns, rfl⟩ := Nat.exists_eq_succ_of_ne_zero (Nat.ne_of_gt enough)
    apply (consumes_read WireFormat.byte stop).bind
    rw [if_neg stops]
    exact consumes_pure []
  | cons x xs ih =>
    obtain ⟨turns, rfl⟩ := Nat.exists_eq_succ_of_ne_zero (Nat.ne_of_gt (Nat.zero_lt_of_lt enough))
    have later := ih (Nat.lt_of_succ_lt_succ enough)
    rw [List.flatMap_cons, List.append_assoc]
    apply (consumes_read WireFormat.byte 1).bind
    rw [if_pos rfl]
    exact (one x).bind (later.map _)

theorem length_flatMap_mark (encode : X → List UInt8) (xs : List X) :
    xs.length ≤ (xs.flatMap fun x => (1 : UInt8) :: encode x).length := by
  induction xs with
  | nil => exact Nat.le_refl 0
  | cons x xs ih =>
    rw [List.flatMap_cons, List.length_append, List.length_cons, List.length_cons]
    omega

theorem consumes_readWhileMarked {xs : List X} {stop : UInt8}
    (one : ∀ x, Consumes body (encode x) (value x)) (stops : stop ≠ 1) :
    Consumes (readWhileMarked body) (xs.flatMap (fun x => 1 :: encode x) ++ [stop])
      (xs.map value) := by
  intro s rest unread
  have enough : xs.length < s.unread.length + 1 := by
    have marks := length_flatMap_mark encode xs
    rw [unread, List.append_assoc, List.length_append]
    omega
  exact consumes_readMarked one enough stops s rest unread

end Loops

/-! ### Reading where there is nothing -/

theorem read_starved {format : WireFormat A} (starves : format.decode [] = none) {s : Connection}
    (unread : s.unread = []) : read format s = .error (s.ioError "timeout") s.cut := by
  simp only [read, unread, starves]

/-! ### Reading what has come -/

/-- All that was sent has come, and no more will. -/
def Connection.Arrived (s : Connection) : Prop := s.inTime = s.unread.length

def Connection.upTo (s : Connection) (rest : List UInt8) : Connection :=
  { s with unread := rest, inTime := rest.length }

/-- The program reads what the parser takes, and times out where it takes nothing. -/
def Parses (m : ConnectionM A) (p : WireFormat.Parser A) : Prop :=
  ∀ s : Connection, s.Arrived →
    (∀ a rest, p s.unread = some (a, rest) → m s = .ok a (s.upTo rest)) ∧
      (p s.unread = none → ∃ t, m s = .error (s.ioError "timeout") t)

theorem parses_pure (a : A) : Parses (pure a) (pure a) := by
  intro s arrived
  refine ⟨fun b rest parsed => ?_, nofun⟩
  cases parsed
  have same : s.upTo s.unread = s := by rw [Connection.upTo, ← arrived]
  rw [pure_apply, same]

theorem parses_read {format : WireFormat A} (shrinks : WireFormat.Shrinks format.parse) :
    Parses (read format) format.parse := by
  intro s arrived
  refine ⟨fun a rest parsed => ?_, fun starved => ⟨s.cut, ?_⟩⟩
  · have decoded : format.decode s.unread = some (a, rest) := parsed
    have shorter : rest.length ≤ s.unread.length := shrinks s.unread a rest parsed
    have left : s.inTime - (s.unread.length - rest.length) = rest.length := by
      rw [arrived]
      omega
    simp only [read, decoded, left, Connection.upTo]
    rw [if_pos]
    rw [arrived]
    exact Nat.sub_le _ _
  · have starved' : format.decode s.unread = none := starved
    simp only [read, starved']

namespace Parses

variable {m : ConnectionM A} {f : A → ConnectionM B} {p : WireFormat.Parser A}
  {q : A → WireFormat.Parser B}

theorem bind (first : Parses m p) (second : ∀ a, Parses (f a) (q a)) :
    Parses (m >>= f) (p >>= q) := by
  intro s arrived
  obtain ⟨reads, starves⟩ := first s arrived
  rw [WireFormat.parser_bind_apply]
  cases parsed : p s.unread with
  | none =>
    obtain ⟨t, raised⟩ := starves parsed
    exact ⟨nofun, fun _ => ⟨t, bind_of_error raised⟩⟩
  | some result =>
    obtain ⟨a, middle⟩ := result
    have here : (m >>= f) s = f a (s.upTo middle) := bind_of_ok (reads a middle parsed)
    rw [here]
    exact second a (s.upTo middle) rfl

theorem ite {P : Prop} [Decidable P] {n : ConnectionM A} {r : WireFormat.Parser A}
    (first : Parses m p) (second : Parses n r) :
    Parses (if P then m else n) (if P then p else r) := by
  split
  · exact first
  · exact second

end Parses

end HotRod.Protocol
