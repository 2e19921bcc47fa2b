import HotRod.Operations.Exchanges

/-! The names of the counters.

`GetCounterNamesOperation` waits for the answer to a request that is still in the buffer of
the output stream. Where an answer lies on the connection nevertheless, its success is what
keeps the names from being read. -/

set_option autoImplicit false

namespace HotRod.Counters

open Semantics.Execution
open Operations Protocol HotRodConstants
open WireFormat (Bytes Counted)

/-- The answer of a server that succeeds, with a topology that can be taken over. -/
structure NamesAnswer (o : HotRodOperation) where
  status : UInt8
  success : isSuccess status = true
  topology : Option TopologyUpdate
  quiet : topologyRaises o.factory 0 topology = none
  names : Counted Bytes

namespace NamesAnswer

variable {o : HotRodOperation} (answer : NamesAnswer o)

def header : List UInt8 :=
  Protocol.header o.messageId OpCode.counterGetNames.toOpRespCode answer.status answer.topology

def body : List UInt8 := WireFormat.array.counted.encode answer.names

def bytes : List UInt8 := answer.header ++ answer.body

def asked (s : Connection) : Connection :=
  { s with
    unread := []
    inTime := 0
    output := []
    coming := some { bytes := answer.bytes, arrivals := some (answer.bytes.length, []) } }

/-- The request goes out whole, the names come back as a set and nothing else stays. -/
def Obtained (s : Connection) : Prop :=
  ∃ returned t, GetCounterNamesOperation.executeOperation o (answer.asked s) = .ok returned t ∧
    (∀ name, name ∈ returned ↔ name ∈ answer.names.1.map Subtype.val) ∧
    t.coming = none ∧ t.output = [] ∧ t.unread = []

-- The server is not asked, and the read of the header times out.
theorem request_unsent (s : Connection) :
    ∃ t, GetCounterNamesOperation.executeOperation o (answer.asked s) =
        .error ((answer.asked s).ioError "timeout") t ∧
      t.coming = (answer.asked s).coming ∧ t.output ≠ [] := by
  obtain ⟨written, header⟩ := writeHeader_eq o .counterGetNames (answer.asked s)
  rw [GetCounterNamesOperation.executeOperation, bind_of_ok header, receive_starved o rfl]
  exact ⟨_, rfl, rfl, List.cons_ne_nil _ _⟩

-- Had the request been sent, the names would stay on the connection, for the next operation to take
-- them for its own answer.
theorem names_unread {t : Connection} {rest : List UInt8} (unread : t.unread = answer.bytes ++ rest)
    (came : answer.bytes.length ≤ t.inTime) :
    ∃ u, o.receive .counterGetNames (fun status =>
        if !isSuccess status then do
          let num ← readVInt
          readMany readValue num.toNat
        else pure []) t = .ok [] u ∧ u.unread = answer.body ++ rest := by
  have shorter : answer.header.length ≤ t.inTime := by
    rw [bytes, List.length_append] at came
    omega
  rw [bytes, List.append_assoc] at unread
  rw [(reaches_receive o (.inl rfl) _).of_came unread shorter, actOnHeader_own, answer.quiet,
    unlessRaised, answer.success]
  exact ⟨_, rfl, rfl⟩

theorem names_never_obtained (s : Connection) : ¬ answer.Obtained s := by
  rintro ⟨returned, t, executed, -⟩
  obtain ⟨u, raised, -⟩ := answer.request_unsent s
  rw [raised] at executed
  cases executed

end NamesAnswer

/-- One counter is enough. -/
theorem not_obtained_of_one :
    ¬ ∀ (o : HotRodOperation) (answer : NamesAnswer o) (s : Connection), answer.Obtained s := by
  intro all
  let answer : NamesAnswer .plain :=
    { status := noErrorStatus
      success := rfl
      topology := none
      quiet := rfl
      names := ⟨[⟨[0x63], by decide⟩], by decide⟩ }
  exact answer.names_never_obtained { hostname := "localhost", port := 11222 } (all .plain answer _)

end HotRod.Counters
