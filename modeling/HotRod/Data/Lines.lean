import Mathlib.Data.List.Basic
import Mathlib.Data.List.TakeWhile

/-! The lines of a text, as a stream delivers them one after the other.

A delimiter ends a line, so that there is no empty line behind the last one. A stream that has
come to the end of its text is not good, and delivers nothing more. -/

set_option autoImplicit false

namespace Lines

variable {A B : Type} [DecidableEq A] {d : A}

def lines (d : A) : List A → List (List A)
  | [] => []
  | c :: rest =>
    if c = d then [] :: lines d rest
    else match lines d rest with
      | [] => [[c]]
      | line :: more => (c :: line) :: more

theorem lines_delimiter (text : List A) : lines d (d :: text) = [] :: lines d text := by
  rw [lines, if_pos rfl]

theorem lines_of_ne {c : A} (distinct : c ≠ d) {text piece : List A} {more : List (List A)}
    (later : lines d text = piece :: more) : lines d (c :: text) = (c :: piece) :: more := by
  rw [lines, if_neg distinct, later]

/-- Up to the first delimiter. -/
def line (d : A) (text : List A) : List A := text.takeWhile (· ≠ d)

/-- From the first delimiter on. -/
def left (d : A) (text : List A) : List A := text.dropWhile (· ≠ d)

theorem lines_eq {text : List A} (filled : text ≠ []) :
    lines d text = line d text :: lines d (left d text).tail := by
  induction text with
  | nil => exact absurd rfl filled
  | cons c rest ih =>
    rw [line, left, List.takeWhile_cons, List.dropWhile_cons]
    by_cases same : c = d
    · simp [same, lines_delimiter]
    · simp only [same, ne_eq, not_false_eq_true, decide_true, if_true]
      cases rest with
      | nil => rw [lines, if_neg same, lines, List.takeWhile_nil, List.dropWhile_nil, List.tail_nil,
          lines]
      | cons next later => exact lines_of_ne same (ih (List.cons_ne_nil next later))

theorem not_mem_of_lines {text piece : List A} (member : piece ∈ lines d text) : d ∉ piece := by
  induction text generalizing piece with
  | nil => cases member
  | cons c rest ih =>
    rw [lines] at member
    split at member
    · obtain rfl | later := List.mem_cons.mp member
      · exact List.not_mem_nil
      · exact ih later
    · next distinct =>
      cases split_rest : lines d rest with
      | nil =>
        rw [split_rest, List.mem_singleton] at member
        rw [member, List.mem_singleton]
        exact Ne.symm distinct
      | cons first more =>
        rw [split_rest] at ih member
        obtain rfl | later := List.mem_cons.mp member
        · rw [List.mem_cons, not_or]
          exact ⟨Ne.symm distinct, ih List.mem_cons_self⟩
        · exact ih (List.mem_cons_of_mem _ later)

theorem lines_append {a : List A} (b : List A) (filled : a ≠ []) (last : a.getLast? ≠ some d) :
    lines d (a ++ d :: b) = lines d a ++ lines d b := by
  induction a with
  | nil => exact absurd rfl filled
  | cons c rest ih =>
    cases rest with
    | nil =>
      have distinct : c ≠ d := fun same => last (congrArg some same)
      simp [lines, distinct]
    | cons next later =>
      have split_later := ih (List.cons_ne_nil next later) (by simpa using last)
      rw [List.cons_append]
      by_cases same : c = d
      · rw [same, lines_delimiter, lines_delimiter, split_later, List.cons_append]
      · have first := lines_eq (d := d) (List.cons_ne_nil next later)
        rw [first] at split_later
        rw [lines_of_ne same first]
        exact lines_of_ne same split_later

def terminated (d : A) (pieces : List (List A)) : List A := pieces.flatMap (· ++ [d])

theorem lines_append_delimiter {piece : List A} (free : d ∉ piece) (text : List A) :
    lines d (piece ++ d :: text) = piece :: lines d text := by
  induction piece with
  | nil => simp [lines]
  | cons c rest ih =>
    rw [List.mem_cons, not_or] at free
    rw [List.cons_append, lines, if_neg (Ne.symm free.1), ih free.2]

theorem lines_terminated {pieces : List (List A)} (free : ∀ piece ∈ pieces, d ∉ piece) :
    lines d (terminated d pieces) = pieces := by
  induction pieces with
  | nil => rfl
  | cons piece rest ih =>
    have later := ih fun other member => free other (List.mem_cons_of_mem _ member)
    rw [terminated, List.flatMap_cons, List.append_assoc, List.singleton_append,
      lines_append_delimiter (free piece List.mem_cons_self)]
    exact congrArg (piece :: ·) later

/-! ### Streams -/

structure Stream (A : Type) where
  unread : List A
  good : Bool := true

/-- Whether there was a line, the variable that takes it, and the stream behind it. -/
def getline (d : A) (stream : Stream A) (before : List A) : Bool × List A × Stream A :=
  if stream.good then
    match left d stream.unread with
    | [] => (!(line d stream.unread).isEmpty, line d stream.unread, { unread := [], good := false })
    | _ :: rest => (true, line d stream.unread, { unread := rest })
  else (false, before, stream)

theorem getline_of_left_nil {text : List A} (none_left : left d text = []) (before : List A) :
    getline d { unread := text } before =
      (!(line d text).isEmpty, line d text, { unread := [], good := false }) := by
  simp only [getline, none_left, if_true]

theorem getline_of_left_cons {c : A} {text rest : List A} (some_left : left d text = c :: rest)
    (before : List A) :
    getline d { unread := text } before = (true, line d text, { unread := rest }) := by
  simp only [getline, some_left, if_true]

theorem getline_of_not_good (text before : List A) :
    getline d { unread := text, good := false } before =
      (false, before, { unread := text, good := false }) := rfl

theorem line_append_left (text : List A) : line d text ++ left d text = text :=
  List.takeWhile_append_dropWhile

theorem getline_shrinks {stream : Stream A} {before : List A}
    (more : (getline d stream before).1 = true) :
    (getline d stream before).2.2.unread.length + (getline d stream before).2.2.good.toNat <
      stream.unread.length + stream.good.toNat := by
  obtain ⟨text, good⟩ := stream
  cases good with
  | false => cases more
  | true =>
    have whole := congrArg List.length (line_append_left (d := d) text)
    rw [List.length_append] at whole
    cases rest : left d text with
    | nil =>
      rw [getline_of_left_nil rest] at more ⊢
      change 0 + 0 < text.length + 1
      omega
    | cons c later =>
      rw [getline_of_left_cons rest]
      rw [rest, List.length_cons] at whole
      change later.length + 1 < text.length + 1
      omega

-- `while (getline(stream, line, d))`, the body of which does not touch the stream.
def forLines (d : A) (body : B → List A → B) (stream : Stream A) (b : B) : B :=
  if _ : (getline d stream []).1 = true then
    forLines d body (getline d stream []).2.2 (body b (getline d stream []).2.1)
  else b
termination_by stream.unread.length + stream.good.toNat
decreasing_by exact getline_shrinks ‹_›

theorem forLines_of_not_good (body : B → List A → B) (text : List A) (b : B) :
    forLines d body { unread := text, good := false } b = b := by
  rw [forLines, getline_of_not_good, dif_neg Bool.false_ne_true]

theorem forLines_eq (body : B → List A → B) (text : List A) (b : B) :
    forLines d body { unread := text } b = (lines d text).foldl body b := by
  induction size : text.length using Nat.strong_induction_on generalizing text b with
  | h n ih =>
    have whole := line_append_left (d := d) text
    rw [forLines]
    cases some_left : left d text with
    | nil =>
      -- no delimiter is left, so that this is the last line, if it is one
      rw [getline_of_left_nil some_left]
      rw [some_left, List.append_nil] at whole
      by_cases empty : text = []
      · subst empty
        rfl
      · rw [lines_eq empty, some_left, whole]
        simp [empty, forLines_of_not_good, lines]
    | cons c rest =>
      have filled : text ≠ [] := by
        intro empty
        rw [empty] at some_left
        cases some_left
      have shorter : rest.length < n := by
        rw [← size, ← whole, some_left, List.length_append, List.length_cons]
        omega
      rw [getline_of_left_cons some_left, lines_eq filled, some_left]
      exact ih rest.length shorter rest _ rfl

end Lines
