import Mathlib.Logic.Basic

/-! The client's exception hierarchy.

Every class of `exceptions.h` is one constructor; the predicates say which
`catch` clause takes it. `std` stands for any other `std::exception`: one a
user's marshaller raises, or `std::bad_function_call`. -/

set_option autoImplicit false

namespace HotRod

/-- An exception object, with the data its handlers read. -/
inductive Exn where
  | exception (message : String)
  | hotRodClient (message : String)
  | transport (host : String) (port : Int) (message : String)
  | invalidResponse (message : String)
  | remoteNodeSuspect (message : String)
  | internal (message : String)
  | notStarted (message : String)
  | unsupported
  | txState (state action : String)
  | rollback (status : UInt32)
  | txRemoteState (status : UInt32)
  | counterUpperBound (name : String)
  | counterLowerBound (name : String)
  | noSuchElement (message : String)
  | std (what : String)
  deriving DecidableEq, Repr

namespace Exn

def isHotRodClient : Exn → Bool
  | .hotRodClient _ | .transport .. | .invalidResponse _ | .remoteNodeSuspect _ | .internal _
  | .notStarted _ | .unsupported | .txState .. | .rollback _ | .txRemoteState _ => true
  | .exception _ | .counterUpperBound _ | .counterLowerBound _ | .noSuchElement _ | .std _ => false

def isTransport : Exn → Bool
  | .transport .. => true
  | _ => false

def isException : Exn → Bool
  | .std _ => false
  | _ => true

def isCounterBound : Exn → Bool
  | .counterUpperBound _ | .counterLowerBound _ => true
  | _ => false

-- `throwIOErr`. The text of `strerror`, which depends on the platform, is left out.
def throwIOErr (host : String) (port : Int) (msg : String) : Exn :=
  .transport host port (msg ++ " (host: " ++ host ++ " port: " ++ toString port ++ ")")

end Exn

/-- How a call can go wrong: an exception, or an access to memory that ends the process. -/
inductive Fault where
  | raised (e : Exn)
  | nullDereference
  -- a read behind the end of an object
  | outOfBounds
  -- a `delete` of an object that belongs to the caller
  | foreignDelete
  deriving DecidableEq, Repr

namespace Fault

def isHotRodClient : Fault → Bool
  | .raised e => e.isHotRodClient
  | .nullDereference | .outOfBounds | .foreignDelete => false

end Fault

/-! ### The status in a message -/

/-- The literal to which the constructor of `HotRodClientTxRemoteStateException` adds
its status. The sum is a pointer into the literal, not a longer text. -/
def remoteStatusText : String := "Remote transaction has status: "

/-- The memory behind the literal: the offsets from which a C string can be read. Every
offset within the literal is one. -/
structure Image where
  readable : UInt32 → Bool
  within : ∀ offset, offset.toNat ≤ remoteStatusText.length → readable offset = true

def txRemoteStateException (image : Image) (status : UInt32) : Fault :=
  if image.readable status then .raised (.txRemoteState status) else .outOfBounds

theorem txRemoteStateException_of_readable {image : Image} {status : UInt32}
    (readable : image.readable status = true) :
    txRemoteStateException image status = .raised (.txRemoteState status) := by
  rw [txRemoteStateException, if_pos readable]

theorem txRemoteStateException_eq_raised {image : Image} {status : UInt32} {e : Exn} :
    txRemoteStateException image status = .raised e ↔
      image.readable status = true ∧ e = .txRemoteState status := by
  unfold txRemoteStateException
  cases image.readable status <;> simp [eq_comm]

theorem length_remoteStatusText : remoteStatusText.length = 31 := rfl

theorem lt_page_of_inside (offset : UInt32) (inside : offset.toNat ≤ remoteStatusText.length) :
    decide (offset < 4096) = true := by
  rw [length_remoteStatusText] at inside
  apply decide_eq_true
  apply UInt32.lt_iff_toNat_lt.mpr
  apply Nat.lt_of_le_of_lt inside
  decide

-- A literal at the start of a page of constants. The negative codes lead gigabytes past it.
def onePage : Image where
  readable offset := offset < 4096
  within := lt_page_of_inside

end HotRod
