import Mathlib.Data.List.Basic
import Mathlib.Data.List.Infix
import Mathlib.Tactic.Common

/-!
# Records in a stream of items

A producer writes records of `w` items each into a stream, a consumer cuts the stream into pieces
of `w` items again.  If the pieces, put together, are a prefix of the records put together, then
the pieces ARE the first records (`prefix_of_flatten`): nothing is mixed or shifted.  The stream of
the records of some values has each at its place (`getElem?_flatMap_const`).
-/

variable {α β : Type*}

/-- pieces of the width of the records, read from the start of the stream, are records -/
theorem prefix_of_flatten {w : Nat} (hw : 0 < w) (rs bs : List (List α))
    (hr : ∀ r ∈ rs, r.length = w) (hb : ∀ b ∈ bs, b.length = w)
    (h : rs.flatten <+: bs.flatten) : rs <+: bs := by
  induction rs generalizing bs with
  | nil => exact List.nil_prefix
  | cons r rs ih =>
    have hrl := hr r List.mem_cons_self
    cases bs with
    | nil =>
      have hl := h.length_le
      simp only [List.flatten_cons, List.length_append, List.flatten_nil, List.length_nil] at hl
      omega
    | cons b bs =>
      have hbl := hb b List.mem_cons_self
      rw [List.flatten_cons, List.flatten_cons] at h
      obtain ⟨z, hz⟩ := h
      rw [List.append_assoc] at hz
      obtain ⟨e1, e2⟩ := List.append_inj hz (by rw [hrl, hbl])
      rw [e1]
      exact List.prefix_cons_inj b |>.mpr
        (ih bs (fun x hx => hr x (List.mem_cons_of_mem _ hx))
          (fun x hx => hb x (List.mem_cons_of_mem _ hx)) ⟨z, e2⟩)

/-- a stream of whole records, and a started one, is a prefix of a stream of whole records -/
theorem flatten_take_prefix (bs : List (List α)) (b : List α) (k : Nat) :
    bs.flatten ++ b.take k <+: (bs ++ [b]).flatten := by
  rw [List.flatten_append, List.flatten_cons, List.flatten_nil, List.append_nil]
  exact (List.prefix_append_right_inj _).mpr (List.take_prefix k b)

section
variable {f : α → List β} {w : Nat}

theorem length_flatMap_const (hf : ∀ a, (f a).length = w) (l : List α) :
    (l.flatMap f).length = w * l.length := by
  induction l with
  | nil => rfl
  | cons a l ih =>
    rw [List.flatMap_cons, List.length_append, ih, hf, List.length_cons, Nat.mul_succ]
    omega

theorem getElem?_flatMap_const (hf : ∀ a, (f a).length = w) {l : List α} {k h : Nat}
    (hk : k < l.length) (hh : h < w) : (l.flatMap f)[w * k + h]? = (f l[k])[h]? := by
  induction l generalizing k with
  | nil => cases hk
  | cons a l ih =>
    rw [List.flatMap_cons]
    cases k with
    | zero =>
      rw [Nat.mul_zero, Nat.zero_add, List.getElem?_append_left (by rw [hf]; exact hh)]
      rfl
    | succ k =>
      have hge : (f a).length ≤ w * (k + 1) + h := by
        rw [hf, Nat.mul_succ]
        omega
      have e : w * (k + 1) + h - w = w * k + h := by
        rw [Nat.mul_succ]
        omega
      rw [List.getElem?_append_right hge, hf, e]
      exact ih (Nat.lt_of_succ_lt_succ hk)

end
