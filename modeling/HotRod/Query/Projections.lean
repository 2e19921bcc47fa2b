import HotRod.Exceptions
import Mathlib.Data.List.Forall2

/-! The rows of a query that selects projections.

The components of all rows come one after the other. The client takes them off with a cursor,
by the types that its caller names. A last one of type `double` passes through an `int`. -/

set_option autoImplicit false

namespace HotRod.Query

variable {D : Type}

/-! ### Responses -/

/-- The fields that components are read from; `D` are the numbers of type `double`. -/
structure WrappedMessage (D : Type) where
  wrappedDouble : Option D := none
  wrappedInt64 : Option Int64 := none
  wrappedInt32 : Option Int32 := none
  wrappedString : Option (List UInt8) := none

structure QueryResponse (D : Type) where
  projectionSize : Int32
  results : List (WrappedMessage D)

inductive Column where
  | int | string | double
  deriving DecidableEq, Repr

def Column.Value (D : Type) : Column → Type
  | int => Int32
  | string => List UInt8
  | double => D

inductive Tuple (D : Type) : List Column → Type where
  | nil : Tuple D []
  | cons {c : Column} {params : List Column} :
      c.Value D → Tuple D params → Tuple D (c :: params)

/-- A text that is thrown, or a result that is not there. -/
inductive Fault where
  | thrown (text : String)
  | outOfBounds
  deriving DecidableEq, Repr

def unwrapSingleValue : (c : Column) → WrappedMessage D → Except Fault (c.Value D)
  | .string, wm =>
    match wm.wrappedString with
    | some s => .ok s
    | none => .error (.thrown "std::string type not found in response")
  | .int, wm =>
    match wm.wrappedInt32, wm.wrappedInt64 with
    | some i, _ => .ok i
    | none, some i => .ok i.toInt32
    | none, none => .error (.thrown "int type not found in response")
  | .double, wm =>
    match wm.wrappedDouble with
    | some d => .ok d
    | none => .error (.thrown "double type not found in response")

def unwrapResult (c : Column) (results : List (WrappedMessage D)) (k : Nat) :
    Except Fault (c.Value D) :=
  match results[k]? with
  | some wm => unwrapSingleValue c wm
  | none => .error .outOfBounds

/-- `last` is what the variable of the specialisation for one component makes of it. There
is no tuple of none. -/
def popTuple (last : (c : Column) → c.Value D → c.Value D) (results : List (WrappedMessage D)) :
    (params : List Column) → Nat → Except Fault (Tuple D params × Nat)
  | [], k => .ok (.nil, k)
  | [c], k => do
    let s ← unwrapResult c results k
    pure (.cons (last c s) .nil, k + 1)
  | c :: d :: params, k => do
    let s ← unwrapResult c results k
    let (p, k) ← popTuple last results (d :: params) (k + 1)
    pure (.cons s p, k)

-- The loop of `unwrapProjection`. What is thrown leaves the rows before in `prjRes`.
def popTuples (last : (c : Column) → c.Value D → c.Value D) (results : List (WrappedMessage D))
    (params : List Column) :
    Nat → Nat → List (Tuple D params) → Except Fault Bool × List (Tuple D params)
  | 0, _, prjRes => (.ok true, prjRes)
  | n + 1, k, prjRes =>
    match popTuple last results params k with
    | .ok (tp, k) => popTuples last results params n k (prjRes ++ [tp])
    | .error fault => (.error fault, prjRes)

section Response

-- the conversions between `double` and `int`
variable (toInt : D → Int32) (ofInt : Int32 → D)

-- The variable for a last `double` is an `int`.
def intOfLast : (c : Column) → c.Value D → c.Value D
  | .double, s => ofInt (toInt s)
  | .string, s => s
  | .int, s => s

def unwrapProjection (params : List Column) (resp : QueryResponse D)
    (prjRes : List (Tuple D params)) : Except Fault Bool × List (Tuple D params) :=
  if resp.projectionSize = 0 then (.ok false, prjRes)
  else
    let numTuple := (resp.results.length : Int).tdiv resp.projectionSize.toInt
    popTuples (intOfLast toInt ofInt) resp.results params numTuple.toNat 0 prjRes

end Response

/-! ### What the server selects -/

inductive Cell (D : Type) where
  | int32 (i : Int32)
  | int64 (i : Int64)
  | string (s : List UInt8)
  | double (d : D)

namespace Cell

def column : Cell D → Column
  | int32 _ | int64 _ => .int
  | string _ => .string
  | double _ => .double

def wrap : Cell D → WrappedMessage D
  | int32 i => { wrappedInt32 := some i }
  | int64 i => { wrappedInt64 := some i }
  | string s => { wrappedString := some s }
  | double d => { wrappedDouble := some d }

def value : (cell : Cell D) → cell.column.Value D
  | int32 i => i
  | int64 i => i.toInt32
  | string s => s
  | double d => d

def Says : Cell D → (c : Column) → c.Value D → Prop
  | int32 i, .int, v => v = i
  | int64 i, .int, v => v.toInt = i.toInt
  | string s, .string, v => v = s
  | double d, .double, v => v = d
  | _, _, _ => False

/-- An integer is one of 32 bits. -/
def Narrow : Cell D → Prop
  | int64 i => Int32.minValue.toInt ≤ i.toInt ∧ i.toInt ≤ Int32.maxValue.toInt
  | int32 _ | string _ | double _ => True

theorem unwrapSingleValue_wrap (cell : Cell D) :
    unwrapSingleValue cell.column cell.wrap = .ok cell.value := by
  cases cell <;> rfl

theorem says_value_iff (cell : Cell D) : cell.Says cell.column cell.value ↔ cell.Narrow := by
  cases cell with
  | int32 i => exact iff_of_true rfl trivial
  | string s => exact iff_of_true rfl trivial
  | double d => exact iff_of_true rfl trivial
  | int64 i =>
    have least : Int32.minValue.toInt = -2147483648 := rfl
    have greatest : Int32.maxValue.toInt = 2147483647 := rfl
    show i.toInt32.toInt = i.toInt ↔ Int32.minValue.toInt ≤ i.toInt ∧ i.toInt ≤ Int32.maxValue.toInt
    rw [Int64.toInt_toInt32, least, greatest]
    unfold Int.bmod
    simp only
    split <;> omega

end Cell

def tupleOf (last : (c : Column) → c.Value D → c.Value D) :
    (row : List (Cell D)) → Tuple D (row.map Cell.column)
  | [] => .nil
  | [cell] => .cons (last cell.column cell.value) .nil
  | cell :: next :: row => .cons cell.value (tupleOf last (next :: row))

def Shows : {params : List Column} → Tuple D params → List (Cell D) → Prop
  | _, .nil, [] => True
  | _, .cons (c := c) v tuple, cell :: row => cell.Says c v ∧ Shows tuple row
  | _, _, _ => False

/-- All integers have 32 bits, and a last `double` is the one that its `int` gives. -/
structure Exact (last : (c : Column) → c.Value D → c.Value D) (row : List (Cell D)) : Prop where
  narrow : ∀ cell ∈ row, cell.Narrow
  whole : ∀ d, row.getLast? = some (.double d) → last .double d = d

variable {last : (c : Column) → c.Value D → c.Value D}
  (keeps : ∀ c, c ≠ .double → ∀ s, last c s = s)

include keeps

theorem says_last_iff (cell : Cell D) : cell.Says cell.column (last cell.column cell.value) ↔
    cell.Narrow ∧ ∀ d, cell = .double d → last .double d = d := by
  cases cell with
  | double d =>
    show last .double d = d ↔ _
    simp [Cell.Narrow]
  | _ =>
    rw [keeps _ (by simp [Cell.column]), Cell.says_value_iff]
    simp

theorem shows_tupleOf_iff (row : List (Cell D)) :
    Shows (tupleOf last row) row ↔ Exact last row := by
  induction row with
  | nil => exact iff_of_true trivial ⟨by simp, by simp⟩
  | cons cell row ih =>
    cases row with
    | nil =>
      show cell.Says cell.column (last cell.column cell.value) ∧ True ↔ _
      rw [and_true, says_last_iff keeps]
      constructor
      · intro both
        exact ⟨by simpa using both.1, by simpa using both.2⟩
      · intro exact
        exact ⟨exact.narrow cell (by simp), by simpa using exact.whole⟩
    | cons next row =>
      show cell.Says cell.column cell.value ∧ Shows (tupleOf last (next :: row)) (next :: row) ↔ _
      rw [Cell.says_value_iff, ih]
      constructor
      · intro both
        exact ⟨List.forall_mem_cons.mpr ⟨both.1, both.2.narrow⟩, by simpa using both.2.whole⟩
      · intro exact
        have cells := List.forall_mem_cons.mp exact.narrow
        exact ⟨cells.1, cells.2, by simpa using exact.whole⟩

omit keeps

/-! ### What the client reads -/

section Read

variable {results : List (WrappedMessage D)} {k : Nat}

theorem prefix_drop_cons {cell : Cell D} {row : List (Cell D)}
    (there : (cell :: row).map Cell.wrap <+: results.drop k) :
    results[k]? = some cell.wrap ∧ row.map Cell.wrap <+: results.drop (k + 1) := by
  rw [List.map_cons, List.cons_prefix_iff] at there
  obtain ⟨rest, same, later⟩ := there
  constructor
  · have found := congrArg (·[0]?) same
    simpa using found
  · rwa [← List.tail_drop, same, List.tail_cons]

theorem unwrapResult_of_there {cell : Cell D} (there : results[k]? = some cell.wrap) :
    unwrapResult cell.column results k = .ok cell.value := by
  simp only [unwrapResult, there]
  exact cell.unwrapSingleValue_wrap

theorem popTuple_tupleOf (row : List (Cell D)) (there : row.map Cell.wrap <+: results.drop k) :
    popTuple last results (row.map Cell.column) k = .ok (tupleOf last row, k + row.length) := by
  induction row generalizing k with
  | nil => rfl
  | cons cell row ih =>
    obtain ⟨here, later⟩ := prefix_drop_cons there
    have read := unwrapResult_of_there here
    cases row with
    | nil =>
      show (unwrapResult cell.column results k >>= fun s =>
        pure (Tuple.cons (last cell.column s) Tuple.nil, k + 1)) = _
      rw [read]
      rfl
    | cons next row =>
      show (unwrapResult cell.column results k >>= fun s =>
        popTuple last results ((next :: row).map Cell.column) (k + 1) >>= fun both =>
          pure (Tuple.cons s both.1, both.2)) = _
      have cursor : k + (cell :: next :: row).length = k + 1 + (next :: row).length := by
        simp only [List.length_cons]
        omega
      rw [read, ih later, cursor]
      rfl

theorem popTuples_table (keeps : ∀ c, c ≠ .double → ∀ s, last c s = s) {params : List Column}
    (table : List (List (Cell D))) (typed : ∀ row ∈ table, row.map Cell.column = params)
    (there : table.flatten.map Cell.wrap <+: results.drop k) (prjRes : List (Tuple D params)) :
    ∃ rows, popTuples last results params table.length k prjRes = (.ok true, prjRes ++ rows) ∧
      (List.Forall₂ Shows rows table ↔ ∀ row ∈ table, Exact last row) := by
  induction table generalizing k prjRes with
  | nil => exact ⟨[], by simp [popTuples], by simp⟩
  | cons row table ih =>
    obtain ⟨same, others⟩ := List.forall_mem_cons.mp typed
    subst same
    rw [List.flatten_cons, List.map_append] at there
    have here : row.map Cell.wrap <+: results.drop k := (List.prefix_append _ _).trans there
    have later : table.flatten.map Cell.wrap <+: results.drop (k + row.length) := by
      obtain ⟨rest, all⟩ := there
      rw [← List.drop_drop, ← all, List.append_assoc]
      exact ⟨rest, by simp⟩
    obtain ⟨rows, read, shows⟩ := ih others later (prjRes ++ [tupleOf last row])
    refine ⟨tupleOf last row :: rows, ?_, ?_⟩
    · simp only [List.length_cons, popTuples, popTuple_tupleOf row here]
      simpa using read
    · rw [List.forall₂_cons, List.forall_mem_cons, shows, shows_tupleOf_iff keeps]

end Read

section Response

variable (toInt : D → Int32) (ofInt : Int32 → D)

theorem length_flatten_of_typed {params : List Column} (table : List (List (Cell D)))
    (typed : ∀ row ∈ table, row.map Cell.column = params) :
    table.flatten.length = table.length * params.length := by
  induction table with
  | nil => simp
  | cons row table ih =>
    obtain ⟨same, others⟩ := List.forall_mem_cons.mp typed
    have width : row.length = params.length := by rw [← same, List.length_map]
    simp only [List.flatten_cons, List.length_append, List.length_cons, ih others, width]
    rw [Nat.add_one_mul, Nat.add_comm]

theorem exact_intOfLast_iff (row : List (Cell D)) : Exact (intOfLast toInt ofInt) row ↔
    (∀ cell ∈ row, cell.Narrow) ∧
      ∀ d, row.getLast? = some (.double d) → ofInt (toInt d) = d := by
  constructor
  · intro exact
    exact ⟨exact.narrow, exact.whole⟩
  · intro both
    exact ⟨both.1, both.2⟩

/-- The rows of the server come out as they are exactly if all their integers have 32 bits and
no number in a last column of type `double` is changed by its way through an `int`. -/
theorem unwrapProjection_shows_iff {params : List Column} (nonempty : params ≠ []) {size : Int32}
    (sized : size.toInt = params.length) (table : List (List (Cell D)))
    (typed : ∀ row ∈ table, row.map Cell.column = params) (prjRes : List (Tuple D params)) :
    ∃ rows, unwrapProjection toInt ofInt params ⟨size, table.flatten.map Cell.wrap⟩ prjRes =
        (.ok true, prjRes ++ rows) ∧
      (List.Forall₂ Shows rows table ↔
        ∀ row ∈ table, (∀ cell ∈ row, cell.Narrow) ∧
          ∀ d, row.getLast? = some (.double d) → ofInt (toInt d) = d) := by
  have keeps : ∀ c, c ≠ .double → ∀ s : c.Value D, intOfLast toInt ofInt c s = s := by
    intro c other s
    cases c with
    | double => exact absurd rfl other
    | _ => rfl
  have positive : 0 < params.length := List.length_pos_iff.mpr nonempty
  have components : (table.flatten.map (Cell.wrap (D := D))).length =
      table.length * params.length := by
    rw [List.length_map, length_flatten_of_typed table typed]
  have numTuple : ((table.flatten.map Cell.wrap).length : Int).tdiv size.toInt =
      table.length := by
    rw [components, sized]
    push_cast
    exact Int.mul_tdiv_cancel _ (by omega)
  have there : table.flatten.map Cell.wrap <+: (table.flatten.map Cell.wrap).drop 0 :=
    List.prefix_refl _
  obtain ⟨rows, read, shows⟩ := popTuples_table keeps table typed there prjRes
  refine ⟨rows, ?_, shows.trans (forall₂_congr fun row _ => exact_intOfLast_iff toInt ofInt row)⟩
  have some : size ≠ 0 := by
    intro none
    rw [none] at sized
    simp at sized
    omega
  rw [unwrapProjection, if_neg some]
  simp only [numTuple]
  exact read

end Response

def truncated (q : Rat) : Int32 := Int32.ofInt (q.num.tdiv q.den)

theorem unwrapProjection_of_fraction : ∃ rows,
    unwrapProjection truncated (fun i => i.toInt) [.int, .double]
        ⟨2, [{ wrappedInt64 := some 7 }, { wrappedDouble := some (3 / 2) }]⟩ [] =
      (.ok true, rows) ∧
      ¬ List.Forall₂ Shows rows [[.int64 7, .double (3 / 2 : Rat)]] := by
  obtain ⟨rows, read, shows⟩ := @unwrapProjection_shows_iff _ truncated (fun i => i.toInt)
    [.int, .double] (List.cons_ne_nil _ _) 2 rfl [[.int64 7, .double (3 / 2 : Rat)]]
    (by simp [Cell.column]) []
  refine ⟨rows, read, ?_⟩
  rw [shows]
  intro exact
  have whole := (exact _ (List.mem_singleton_self _)).2 (3 / 2) rfl
  revert whole
  decide +kernel

end HotRod.Query
