import HotRod.Protocol.Codec
import Mathlib.Algebra.BigOperators.Group.Finset.Basic
import Mathlib.Algebra.Order.BigOperators.Group.Finset

/-! The names that `getCacheNames` finds in the JSON array of a server.

It takes what stands between one quote and the next for a name. That gives the names of the
server exactly if JSON writes each of them as it is. -/

set_option autoImplicit false

namespace HotRod.Manager

open Protocol (ascii)

/-! ### JSON -/

namespace Json

def quote : UInt8 := 0x22

def backslash : UInt8 := 0x5C

def hexDigit (n : Nat) : UInt8 := (ascii "0123456789abcdef").getD n 0x30

-- A quote, a backslash and a control character are not written as they are.
def escape (c : UInt8) : List UInt8 :=
  if c = quote ∨ c = backslash then [backslash, c]
  else if c < 0x20 then ascii "\\u00" ++ [hexDigit (c.toNat / 16), hexDigit (c.toNat % 16)]
  else [c]

def escaped (name : List UInt8) : List UInt8 := name.flatMap escape

def string (name : List UInt8) : List UInt8 := quote :: escaped name ++ [quote]

def array (names : List (List UInt8)) : List UInt8 :=
  ascii "[" ++ (ascii ",").intercalate (names.map string) ++ ascii "]"

def Verbatim (c : UInt8) : Prop := c ≠ quote ∧ c ≠ backslash ∧ ¬ c < 0x20

instance (c : UInt8) : Decidable (Verbatim c) :=
  inferInstanceAs (Decidable (_ ∧ _ ∧ _))

theorem escape_of_verbatim {c : UInt8} (verbatim : Verbatim c) : escape c = [c] := by
  rw [escape, if_neg, if_neg verbatim.2.2]
  exact not_or.mpr ⟨verbatim.1, verbatim.2.1⟩

theorem one_lt_length_escape {c : UInt8} (changed : ¬ Verbatim c) : 1 < (escape c).length := by
  unfold escape
  split_ifs with special control
  · exact Nat.lt_add_one 1
  · rw [List.length_append]
    exact Nat.lt_add_left _ (Nat.lt_add_one 1)
  · exact absurd ⟨fun same => special (.inl same), fun same => special (.inr same), control⟩ changed

theorem one_le_length_escape (c : UInt8) : 1 ≤ (escape c).length := by
  by_cases verbatim : Verbatim c
  · rw [escape_of_verbatim verbatim]
    exact Nat.le_refl 1
  · exact Nat.le_of_lt (one_lt_length_escape verbatim)

theorem length_le_escaped (name : List UInt8) : name.length ≤ (escaped name).length := by
  induction name with
  | nil => exact Nat.le_refl 0
  | cons c rest ih =>
    have first := one_le_length_escape c
    rw [escaped] at ih ⊢
    rw [List.flatMap_cons, List.length_append, List.length_cons]
    omega

theorem verbatim_of_length {name : List UInt8} (same : (escaped name).length = name.length) :
    ∀ c ∈ name, Verbatim c := by
  induction name with
  | nil => exact fun c member => nomatch member
  | cons c rest ih =>
    have first := one_le_length_escape c
    have later := length_le_escaped rest
    rw [escaped] at ih later same
    rw [List.flatMap_cons, List.length_append, List.length_cons] at same
    refine List.forall_mem_cons.mpr ⟨?_, ih (by omega)⟩
    by_contra changed
    have longer := one_lt_length_escape changed
    omega

theorem escaped_of_verbatim {name : List UInt8} (verbatim : ∀ c ∈ name, Verbatim c) :
    escaped name = name := by
  induction name with
  | nil => rfl
  | cons c rest ih =>
    obtain ⟨first, later⟩ := List.forall_mem_cons.mp verbatim
    rw [escaped, List.flatMap_cons, escape_of_verbatim first, ← escaped, ih later]
    rfl

theorem hexDigit_ne_quote (n : Nat) : hexDigit n ≠ quote := by
  have digits : ∀ d ∈ ascii "0123456789abcdef", d ≠ quote := by decide +kernel
  rw [hexDigit, List.getD_eq_getElem?_getD]
  cases digit : (ascii "0123456789abcdef")[n]? with
  | none => decide
  | some d => exact digits d (List.mem_of_getElem? digit)

theorem quote_not_mem_escaped {name : List UInt8} (unquoted : quote ∉ name) :
    quote ∉ escaped name := by
  rw [escaped, List.mem_flatMap]
  rintro ⟨c, member, there⟩
  have other : c ≠ quote := fun same => unquoted (same ▸ member)
  have prefixed : quote ∉ ascii "\\u00" := by decide +kernel
  unfold escape at there
  split_ifs at there
  · rcases List.mem_cons.mp there with same | same
    · exact absurd same (by decide)
    · exact other (List.mem_singleton.mp same).symm
  · rcases List.mem_append.mp there with same | same
    · exact prefixed same
    · rcases List.mem_cons.mp same with same | same
      · exact hexDigit_ne_quote _ same.symm
      · exact hexDigit_ne_quote _ (List.mem_singleton.mp same).symm
  · exact other (List.mem_singleton.mp there).symm

theorem verbatim_of_image {names : Finset (List UInt8)} (same : names.image escaped = names) :
    ∀ name ∈ names, ∀ c ∈ name, Verbatim c := by
  have distinct : Set.InjOn escaped names := by
    rw [← Finset.card_image_iff, same]
  have sums : ∑ name ∈ names, name.length = ∑ name ∈ names, (escaped name).length := by
    rw [← Finset.sum_image distinct, same]
  intro name member
  refine verbatim_of_length (Eq.symm ?_)
  exact (Finset.sum_eq_sum_iff_of_le fun name _ => length_le_escaped name).mp sums name member

end Json

/-! ### What the client makes of it -/

open Json

/-- The loop of `getCacheNames`, with what it has passed of a name: `none` before it has found
the first quote. A name that does not end leaves `found_end` past the end of the text, and an
empty one is ignored. -/
def digest : Option (List UInt8) → List UInt8 → Option (List (List UInt8))
  | none, [] => some []
  | some _, [] => none
  | none, c :: rest => if c = quote then digest (some []) rest else digest none rest
  | some s, c :: rest =>
    if c = quote then
      (digest none rest).map fun result => if s = [] then result else s :: result
    else digest (some (s ++ [c])) rest

theorem digest_none_cons (c : UInt8) (rest : List UInt8) : digest none (c :: rest) =
    if c = quote then digest (some []) rest else digest none rest := rfl

theorem digest_some_cons (s : List UInt8) (c : UInt8) (rest : List UInt8) :
    digest (some s) (c :: rest) =
      if c = quote then
        (digest none rest).map fun result => if s = [] then result else s :: result
      else digest (some (s ++ [c])) rest := rfl

theorem quote_not_mem_of_digest {passed : Option (List UInt8)} {text : List UInt8}
    {result : List (List UInt8)} (unquoted : ∀ s, passed = some s → quote ∉ s)
    (found : digest passed text = some result) :
    ∀ name ∈ result, name ≠ [] ∧ quote ∉ name := by
  have outside : ∀ s : List UInt8, none = some s → quote ∉ s := fun s started => nomatch started
  induction text generalizing passed result with
  | nil =>
    cases passed with
    | none =>
      cases found
      exact fun name member => nomatch member
    | some s => cases found
  | cons c rest ih =>
    cases passed with
    | none =>
      rw [digest_none_cons] at found
      split at found
      · refine ih ?_ found
        rintro _ ⟨⟩
        exact List.not_mem_nil
      · exact ih outside found
    | some s =>
      rw [digest_some_cons] at found
      split at found
      · obtain ⟨later, found, same⟩ := Option.map_eq_some_iff.mp found
        have others := ih outside found
        subst same
        split
        · exact others
        · next filled => exact List.forall_mem_cons.mpr ⟨⟨filled, unquoted s rfl⟩, others⟩
      · next other =>
        refine ih ?_ found
        rintro _ ⟨⟩
        rw [List.mem_append, List.mem_singleton]
        exact not_or.mpr ⟨unquoted s rfl, fun same => other same.symm⟩

theorem digest_outside {before : List UInt8} (unquoted : quote ∉ before) (rest : List UInt8) :
    digest none (before ++ rest) = digest none rest := by
  induction before with
  | nil => rfl
  | cons c before ih =>
    obtain ⟨other, later⟩ := not_or.mp (mt List.mem_cons.mpr unquoted)
    rw [List.cons_append, digest_none_cons, if_neg (Ne.symm other), ih later]

theorem digest_inside {piece : List UInt8} (unquoted : quote ∉ piece) (s rest : List UInt8) :
    digest (some s) (piece ++ quote :: rest) =
      (digest none rest).map fun result => if s ++ piece = [] then result
        else (s ++ piece) :: result := by
  induction piece generalizing s with
  | nil => rw [List.nil_append, digest_some_cons, if_pos rfl, List.append_nil]
  | cons c piece ih =>
    obtain ⟨other, later⟩ := not_or.mp (mt List.mem_cons.mpr unquoted)
    rw [List.cons_append, digest_some_cons, if_neg (Ne.symm other), ih later, List.append_assoc]
    rfl

theorem digest_string {name : List UInt8} (unquoted : quote ∉ name) (filled : name ≠ [])
    (rest : List UInt8) :
    digest none (string name ++ rest) = (digest none rest).map fun result =>
      escaped name :: result := by
  have written : escaped name ≠ [] := by
    intro empty
    have longer := length_le_escaped name
    rw [empty] at longer
    exact filled (List.length_eq_zero_iff.mp (Nat.le_zero.mp longer))
  rw [string, List.append_assoc, List.cons_append, digest_none_cons, if_pos rfl]
  refine (digest_inside (quote_not_mem_escaped unquoted) [] rest).trans ?_
  simp only [List.nil_append, if_neg written]

theorem digest_strings {names : List (List UInt8)}
    (fine : ∀ name ∈ names, name ≠ [] ∧ quote ∉ name) {rest : List UInt8}
    (unquoted : quote ∉ rest) :
    digest none ((ascii ",").intercalate (names.map string) ++ rest) =
      some (names.map escaped) := by
  have last : digest none rest = some [] := by
    have outside := digest_outside unquoted []
    rwa [List.append_nil] at outside
  induction names with
  | nil => exact last
  | cons name names ih =>
    obtain ⟨first, later⟩ := List.forall_mem_cons.mp fine
    cases names with
    | nil =>
      rw [List.map_singleton, List.intercalate_singleton, digest_string first.2 first.1, last]
      rfl
    | cons next names =>
      rw [List.map_cons, List.map_cons, List.intercalate_cons_cons, List.append_assoc,
        List.append_assoc, digest_string first.2 first.1,
        digest_outside (by decide +kernel : quote ∉ ascii ","), ← List.map_cons, ih later]
      rfl

/-- The set of names that is found is that of the server exactly if no name is empty and JSON
writes all of them as they are. -/
theorem digest_array_iff (names : List (List UInt8)) :
    (digest none (array names)).map List.toFinset = some names.toFinset ↔
      ∀ name ∈ names, name ≠ [] ∧ ∀ c ∈ name, Verbatim c := by
  have opening : ∀ rest, digest none (ascii "[" ++ rest) = digest none rest :=
    digest_outside (by decide +kernel)
  have closing : quote ∉ ascii "]" := by decide +kernel
  constructor
  · intro same
    obtain ⟨result, found, image⟩ := Option.map_eq_some_iff.mp same
    have fine : ∀ name ∈ names, name ≠ [] ∧ quote ∉ name := by
      intro name member
      rw [← List.mem_toFinset, ← image, List.mem_toFinset] at member
      exact @quote_not_mem_of_digest none _ _ (by simp) found name member
    rw [array, List.append_assoc, opening, digest_strings fine closing] at found
    cases found
    have written : names.toFinset.image escaped = names.toFinset := by
      refine Eq.trans ?_ image
      ext name
      simp
    intro name member
    exact ⟨(fine name member).1, verbatim_of_image written name (List.mem_toFinset.mpr member)⟩
  · intro plain
    have fine : ∀ name ∈ names, name ≠ [] ∧ quote ∉ name := fun name member =>
      ⟨(plain name member).1, fun quoted => ((plain name member).2 quote quoted).1 rfl⟩
    have same : names.map escaped = names := by
      conv_rhs => rw [← List.map_id names]
      exact List.map_congr_left fun name member => escaped_of_verbatim (plain name member).2
    rw [array, List.append_assoc, opening, digest_strings fine closing, same]
    rfl

end HotRod.Manager
