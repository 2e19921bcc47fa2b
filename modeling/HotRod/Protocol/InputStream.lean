import HotRod.Exceptions
import Mathlib.Data.List.Basic
import Mathlib.Data.List.Infix

/-! The buffer between the socket and the transport.

`InputStream::read` asks the socket for no more than it still needs, so nothing stays in the
buffer when it returns, whatever pieces the bytes come in. -/

set_option autoImplicit false

namespace HotRod.Protocol

/-! ### `posix::Socket` -/

/-- What a call of `recv` meets; it returns no more bytes than it is asked for. -/
inductive Recv where
  | received (most : Nat)
  | closed
  | interrupted
  | wouldBlock
  | failed
  deriving DecidableEq, Repr

/-- `incoming` is what has come or will come and was not taken. The `answers` are those of the
next calls of `recv`; when they have run out, it returns as much as there is. -/
structure Socket where
  host : String
  port : Int
  incoming : List UInt8
  answers : List Recv := []
  taken : Nat := 0

namespace Socket

def ioErr (s : Socket) (message : String) : Exn := .throwIOErr s.host s.port message

-- At least one byte; the receive times out where there is none.
def accept (s : Socket) (most length : Nat) (answers : List Recv) :
    Except Exn (List UInt8 × Socket) :=
  if s.incoming = [] then .error (s.ioErr "timeout")
  else
    let n := min (max 1 most) length
    .ok (s.incoming.take n, { s with
      incoming := s.incoming.drop n
      answers
      taken := s.taken + (s.incoming.take n).length })

-- After an interrupted call the next one counts.
def read (s : Socket) (length : Nat) : Except Exn (List UInt8 × Socket) :=
  match s.answers with
  | [] | [.interrupted] => s.accept length length []
  | .received most :: answers | .interrupted :: .received most :: answers =>
    s.accept most length answers
  | .closed :: _ | .interrupted :: .closed :: _ => .error (s.ioErr "no read")
  | .wouldBlock :: _ | .interrupted :: .wouldBlock :: _ => .error (s.ioErr "timeout")
  | .failed :: _ | .interrupted :: _ => .error (s.ioErr "read")

end Socket

/-! ### `InputStream` -/

def bufferSize : Nat := 1024

structure InputStream where
  socket : Socket
  buffer : List UInt8
  ptr : Nat := 0
  hasMore : Bool := true
  capacity : Nat := 0

namespace InputStream

def copied (s : InputStream) (n : Nat) : List UInt8 := (s.buffer.drop s.ptr).take n

def fill (s : InputStream) (size : Nat) : Except Exn InputStream :=
  match s.socket.read (if size < bufferSize then size else bufferSize) with
  | .error e => .error e
  | .ok (chunk, socket) => .ok
    { socket
      buffer := chunk ++ s.buffer.drop chunk.length
      ptr := 0
      hasMore := !decide (chunk.length < bufferSize)
      capacity := chunk.length }

/-- The loop of `read` with what it has copied, for a number of turns; `none` if they do not
suffice. -/
def readFrom : Nat → InputStream → Nat → List UInt8 →
    Option (Except Exn (List UInt8 × InputStream))
  | 0, _, _, _ => none
  | turns + 1, s, size, buf =>
    if s.capacity < size then
      -- what is left in the buffer goes first
      let buf := if s.capacity ≠ 0 then buf ++ s.copied s.capacity else buf
      let size := if s.capacity ≠ 0 then size - s.capacity else size
      match s.fill size with
      | .error e => some (.error e)
      | .ok t => readFrom turns t size buf
    else some (.ok (buf ++ s.copied size,
      { s with ptr := s.ptr + size, capacity := s.capacity - size }))

def Reads (s : InputStream) (size : Nat) (bytes : List UInt8) (t : InputStream) : Prop :=
  ∃ turns, readFrom turns s size [] = some (.ok (bytes, t))

inductive Succeeds : InputStream → List (Nat × List UInt8) → InputStream → Prop where
  | none (s : InputStream) : Succeeds s [] s
  | read {s t u : InputStream} {size : Nat} {bytes : List UInt8} {rest : List (Nat × List UInt8)}
    (first : Reads s size bytes t) (later : Succeeds t rest u) :
    Succeeds s ((size, bytes) :: rest) u

end InputStream

/-! ### What is in the buffer -/

theorem Socket.accept_ok {s t : Socket} {most length : Nat} {answers : List Recv}
    {chunk : List UInt8} (positive : 0 < length)
    (accepted : s.accept most length answers = .ok (chunk, t)) :
    s.incoming = chunk ++ t.incoming ∧ 0 < chunk.length ∧ chunk.length ≤ length ∧
      t.taken = s.taken + chunk.length := by
  unfold Socket.accept at accepted
  split at accepted
  · cases accepted
  · next some_left =>
    cases accepted
    have left := List.length_pos_iff.mpr some_left
    refine ⟨(List.take_append_drop _ _).symm, ?_, ?_, rfl⟩
    · rw [List.length_take]
      omega
    · rw [List.length_take]
      omega

theorem Socket.read_ok {s t : Socket} {length : Nat} {chunk : List UInt8} (positive : 0 < length)
    (returned : s.read length = .ok (chunk, t)) :
    s.incoming = chunk ++ t.incoming ∧ 0 < chunk.length ∧ chunk.length ≤ length ∧
      t.taken = s.taken + chunk.length := by
  unfold Socket.read at returned
  split at returned <;> first
    | exact Socket.accept_ok positive returned
    | cases returned

/-- Bytes will come without an error. -/
def Socket.Quiet (s : Socket) : Prop := ∀ answer ∈ s.answers, ∃ most, answer = .received most

theorem Socket.read_of_quiet {s : Socket} (quiet : s.Quiet) (some_left : s.incoming ≠ [])
    (length : Nat) : ∃ chunk t, s.read length = .ok (chunk, t) ∧ t.Quiet := by
  unfold Socket.read
  cases answers : s.answers with
  | nil =>
    refine ⟨_, _, if_neg some_left, ?_⟩
    intro answer member
    cases member
  | cons answer later =>
    rw [Socket.Quiet, answers] at quiet
    obtain ⟨most, rfl⟩ := quiet answer List.mem_cons_self
    exact ⟨_, _, if_neg some_left, fun other member => quiet other (List.mem_cons_of_mem _ member)⟩

namespace InputStream

variable {s t : InputStream} {chunk bytes buf : List UInt8} {size turns : Nat}

structure Holds (s : InputStream) (chunk : List UInt8) : Prop where
  capacity : s.capacity = chunk.length
  begins : chunk <+: s.buffer.drop s.ptr

theorem Holds.copied (holds : Holds s chunk) : s.copied chunk.length = chunk := by
  obtain ⟨rest, whole⟩ := holds.begins
  rw [InputStream.copied, ← whole, List.take_left]

theorem fill_ok (positive : 0 < size) (filled : s.fill size = .ok t) :
    ∃ chunk, Holds t chunk ∧ 0 < chunk.length ∧ chunk.length ≤ size ∧
      chunk.length ≤ bufferSize ∧ s.socket.incoming = chunk ++ t.socket.incoming ∧
      t.socket.taken = s.socket.taken + chunk.length := by
  have asked : 0 < if size < bufferSize then size else bufferSize := by
    split
    · exact positive
    · decide
  unfold fill at filled
  split at filled
  · cases filled
  · next chunk socket returned =>
    cases filled
    obtain ⟨incoming, some_read, bounded, taken⟩ := Socket.read_ok asked returned
    refine ⟨chunk, ⟨rfl, List.prefix_append _ _⟩, some_read, ?_, ?_, incoming, taken⟩
    · split at bounded
      · exact bounded
      · next large => exact bounded.trans (Nat.le_of_not_lt large)
    · split at bounded
      · next small => exact bounded.trans small.le
      · exact bounded

theorem readFrom_more (holds : Holds s chunk) (short : chunk.length < size) :
    readFrom (turns + 1) s size buf =
      match s.fill (size - chunk.length) with
      | .error e => some (.error e)
      | .ok t => readFrom turns t (size - chunk.length) (buf ++ chunk) := by
  have needs : s.capacity < size := holds.capacity.symm ▸ short
  rw [readFrom, if_pos needs, holds.capacity]
  by_cases empty : chunk.length = 0
  · have none : chunk = [] := List.length_eq_zero_iff.mp empty
    subst none
    simp only [List.length_nil, ne_eq, not_true_eq_false, if_false, Nat.sub_zero, List.append_nil]
  · simp only [ne_eq, empty, not_false_eq_true, if_true, holds.copied]

theorem readFrom_enough (holds : Holds s chunk) (exact_size : chunk.length = size) :
    readFrom (turns + 1) s size buf =
      some (.ok (buf ++ chunk, { s with ptr := s.ptr + size, capacity := 0 })) := by
  subst exact_size
  have enough : ¬ s.capacity < chunk.length := by
    rw [holds.capacity]
    exact Nat.lt_irrefl _
  rw [readFrom, if_neg enough, holds.copied, holds.capacity, Nat.sub_self]

-- Whatever was in the buffer and came to the socket is delivered or still with the socket.
theorem readFrom_ok (holds : Holds s chunk) (needed : chunk.length ≤ size)
    (returned : readFrom turns s size buf = some (.ok (bytes, t))) :
    Holds t [] ∧ ∃ got, bytes = buf ++ got ∧ got.length = size ∧
      chunk ++ s.socket.incoming = got ++ t.socket.incoming ∧
      t.socket.taken + chunk.length = s.socket.taken + size := by
  induction turns generalizing s chunk size buf with
  | zero => cases returned
  | succ turns ih =>
    obtain same | short := Nat.eq_or_lt_of_le needed
    · rw [readFrom_enough holds same] at returned
      cases returned
      exact ⟨⟨rfl, List.nil_prefix⟩, chunk, rfl, same, rfl, by rw [same]⟩
    · -- the buffer is copied out, and what the socket delivers takes its place
      rw [readFrom_more holds short] at returned
      split at returned
      · cases returned
      · next u filled =>
        obtain ⟨next, held, some_read, bounded, -, incoming, taken⟩ :=
          fill_ok (Nat.sub_pos_of_lt short) filled
        obtain ⟨left, got, delivered, length, kept, total⟩ := ih held bounded returned
        refine ⟨left, chunk ++ got, ?_, ?_, ?_, ?_⟩
        · rw [delivered, List.append_assoc]
        · rw [List.length_append, length]
          omega
        · rw [incoming, kept, List.append_assoc]
        · omega

-- Every turn takes a byte at least, so that as many turns as bytes are needed suffice.
theorem readFrom_returns (buf : List UInt8) (holds : Holds s chunk) (needed : chunk.length ≤ size)
    (quiet : s.socket.Quiet) (arrived : size ≤ chunk.length + s.socket.incoming.length)
    (enough : size - chunk.length < turns) :
    ∃ bytes t, readFrom turns s size buf = some (.ok (bytes, t)) := by
  induction turns generalizing s chunk size buf with
  | zero => cases enough
  | succ turns ih =>
    obtain same | short := Nat.eq_or_lt_of_le needed
    · exact ⟨_, _, readFrom_enough holds same⟩
    · have some_left : s.socket.incoming ≠ [] := by
        intro none
        rw [none, List.length_nil] at arrived
        omega
      obtain ⟨next, socket, returned, later⟩ := Socket.read_of_quiet quiet some_left
        (if size - chunk.length < bufferSize then size - chunk.length else bufferSize)
      have refilled : ∃ t, s.fill (size - chunk.length) = .ok t ∧ t.socket.Quiet := by
        unfold fill
        rw [returned]
        exact ⟨_, rfl, later⟩
      obtain ⟨t, filled, quiet⟩ := refilled
      obtain ⟨piece, held, some_read, bounded, -, incoming, -⟩ :=
        fill_ok (Nat.sub_pos_of_lt short) filled
      rw [readFrom_more holds short, filled]
      have total := congrArg List.length incoming
      rw [List.length_append] at total
      exact ih (buf ++ chunk) held bounded quiet (by omega) (by omega)

/-! ### Calls -/

theorem Reads.exact (reads : Reads s size bytes t) (empty : Holds s []) :
    Holds t [] ∧ bytes.length = size ∧ s.socket.incoming = bytes ++ t.socket.incoming ∧
      t.socket.taken = s.socket.taken + size := by
  obtain ⟨turns, returned⟩ := reads
  obtain ⟨left, got, delivered, length, kept, total⟩ :=
    readFrom_ok empty (Nat.zero_le size) returned
  rw [List.nil_append] at delivered
  subst delivered
  exact ⟨left, length, kept, total⟩

/-- What the calls have delivered, and what a further one will do. -/
structure Exact (s : InputStream) (calls : List (Nat × List UInt8)) (t : InputStream) : Prop where
  sizes : ∀ call ∈ calls, call.2.length = call.1
  delivered : s.socket.incoming = calls.flatMap Prod.snd ++ t.socket.incoming
  taken : t.socket.taken = s.socket.taken + (calls.flatMap Prod.snd).length
  ends : t.socket.Quiet → ∀ size ≤ t.socket.incoming.length, ∃ bytes u, Reads t size bytes u

theorem exact_of_succeeds {calls : List (Nat × List UInt8)} (succeeds : Succeeds s calls t)
    (empty : Holds s []) : Exact s calls t := by
  induction succeeds with
  | none s =>
    refine ⟨?_, rfl, rfl, ?_⟩
    · intro call member
      cases member
    · intro quiet size arrived
      have enough : size ≤ ([] : List UInt8).length + s.socket.incoming.length := by
        rwa [List.length_nil, Nat.zero_add]
      obtain ⟨bytes, u, returned⟩ :=
        readFrom_returns [] empty (Nat.zero_le size) quiet enough (Nat.lt_succ_self size)
      exact ⟨bytes, u, _, returned⟩
  | @read s m u size bytes rest first later ih =>
    obtain ⟨left, length, incoming, taken⟩ := first.exact empty
    obtain ⟨sizes, delivered, total, ends⟩ := ih left
    refine ⟨?_, ?_, ?_, ends⟩
    · intro call member
      obtain rfl | member := List.mem_cons.mp member
      · exact length
      · exact sizes call member
    · rw [incoming, delivered, List.flatMap_cons, List.append_assoc]
    · rw [total, taken, List.flatMap_cons, List.length_append, length, Nat.add_assoc]

/-- From the stream as it is constructed on, the calls that return deliver what comes, in its
order, and have taken no byte more from the socket. -/
theorem buffered_reads_exact (socket : Socket) (buffer : List UInt8)
    {calls : List (Nat × List UInt8)} {t : InputStream}
    (succeeds : Succeeds { socket, buffer } calls t) : Exact { socket, buffer } calls t :=
  exact_of_succeeds succeeds ⟨rfl, List.nil_prefix⟩

theorem buffered_reads_of_five :
    ∃ t, Exact
      { socket := { host := "localhost", port := 11222, incoming := [1, 2, 3, 4, 5],
                    answers := [.received 2, .received 1, .received 7] }
        buffer := [] } [(3, [1, 2, 3]), (2, [4, 5])] t :=
  ⟨_, buffered_reads_exact _ _ (.read ⟨4, rfl⟩ (.read ⟨2, rfl⟩ (.none _)))⟩

end InputStream

end HotRod.Protocol
