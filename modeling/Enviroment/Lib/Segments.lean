import Mathlib.Algebra.GroupWithZero.Nat
import Mathlib.Data.List.Chain
import Mathlib.Logic.Function.Basic
import Mathlib.Tactic.Common

/-!
# A space cut into segments

`l : List Seg` cuts the space from `0` to `total l` into segments, some in use.

* `At l p s`                the segment `s` starts at `p`;
* `at_inj`, `at_disjoint`   a place belongs to one segment, two segments do not overlap;
* `Coalesced`               of two neighbours one is in use;
* `firstFree`               where the first free segment starts;
* `free_all`                a coalesced space in which nothing is in use is one segment.

Nothing here knows the program.
-/

namespace Segments

structure Seg where
  used : Bool
  len : Nat
deriving DecidableEq

def total (l : List Seg) : Nat := (l.map Seg.len).sum

@[simp] theorem total_nil : total [] = 0 := rfl
@[simp] theorem total_cons (s : Seg) (l : List Seg) : total (s :: l) = s.len + total l := by
  simp [total]
@[simp] theorem total_append (l l' : List Seg) : total (l ++ l') = total l + total l' := by
  simp [total]

/-- what is in use -/
def usedTotal (l : List Seg) : Nat := total (l.filter Seg.used)

theorem usedTotal_append (l l' : List Seg) : usedTotal (l ++ l') = usedTotal l + usedTotal l' := by
  unfold usedTotal
  rw [List.filter_append, total_append]

theorem usedTotal_cons (s : Seg) (l : List Seg) :
    usedTotal (s :: l) = (if s.used then s.len else 0) + usedTotal l := by
  unfold usedTotal
  rw [List.filter_cons]
  split
  · exact total_cons s _
  · exact (Nat.zero_add _).symm

/-! ## places -/

/-- the segment `s` starts at `p` -/
def At (l : List Seg) (p : Nat) (s : Seg) : Prop := ∃ pre post, l = pre ++ s :: post ∧ total pre = p

def Positive (l : List Seg) : Prop := ∀ s ∈ l, 0 < s.len

theorem at_append_iff {l l' : List Seg} {p : Nat} {s : Seg} :
    At (l ++ l') p s ↔ At l p s ∨ total l ≤ p ∧ At l' (p - total l) s := by
  constructor
  · rintro ⟨pre, post, h, rfl⟩
    rcases List.append_eq_append_iff.mp h with ⟨as, rfl, h'⟩ | ⟨bs, rfl, h'⟩
    · right
      rw [total_append]
      exact ⟨Nat.le_add_right _ _, as, post, h', by omega⟩
    · cases bs with
      | nil =>
        right
        rw [List.append_nil]
        exact ⟨Nat.le_refl _, [], post, h'.symm, by rw [Nat.sub_self]; rfl⟩
      | cons b bs =>
        obtain ⟨rfl, -⟩ := List.cons.inj h'
        exact Or.inl ⟨pre, bs, rfl, rfl⟩
  · rintro (⟨pre, post, rfl, rfl⟩ | ⟨hle, pre, post, rfl, hp⟩)
    · exact ⟨pre, post ++ l', by simp, rfl⟩
    · exact ⟨l ++ pre, post, by simp, by rw [total_append]; omega⟩

theorem at_cons_iff {s t : Seg} {l : List Seg} {p : Nat} :
    At (t :: l) p s ↔ p = 0 ∧ s = t ∨ t.len ≤ p ∧ At l (p - t.len) s := by
  constructor
  · rintro ⟨pre, post, h, rfl⟩
    cases pre with
    | nil =>
      obtain ⟨rfl, -⟩ := List.cons.inj h
      exact Or.inl ⟨rfl, rfl⟩
    | cons u pre =>
      obtain ⟨rfl, rfl⟩ := List.cons.inj h
      rw [total_cons]
      exact Or.inr ⟨Nat.le_add_right _ _, pre, post, rfl, by omega⟩
  · rintro (⟨rfl, rfl⟩ | ⟨hle, pre, post, rfl, hp⟩)
    · exact ⟨[], l, rfl, rfl⟩
    · exact ⟨t :: pre, post, rfl, by rw [total_cons]; omega⟩

theorem at_mid_iff {pre post : List Seg} {s t : Seg} {q : Nat} :
    At (pre ++ s :: post) q t ↔ At pre q t ∨ q = total pre ∧ t = s ∨
      total pre + s.len ≤ q ∧ At post (q - (total pre + s.len)) t := by
  rw [at_append_iff, at_cons_iff, Nat.sub_sub]
  refine or_congr_right ?_
  constructor
  · rintro ⟨hle, ⟨h0, e⟩ | ⟨hlen, h⟩⟩
    · exact Or.inl ⟨by omega, e⟩
    · exact Or.inr ⟨by omega, h⟩
  · rintro (⟨rfl, e⟩ | ⟨hlen, h⟩)
    · exact ⟨Nat.le_refl _, Or.inl ⟨Nat.sub_self _, e⟩⟩
    · exact ⟨by omega, Or.inr ⟨by omega, h⟩⟩

theorem At.mem {l : List Seg} {p : Nat} {s : Seg} (h : At l p s) : s ∈ l := by
  obtain ⟨pre, post, rfl, -⟩ := h
  exact List.mem_append_right _ List.mem_cons_self

theorem At.le_total {l : List Seg} {p : Nat} {s : Seg} (h : At l p s) : p + s.len ≤ total l := by
  obtain ⟨pre, post, rfl, rfl⟩ := h
  rw [total_append, total_cons]
  omega

/-- two segments do not overlap, unless they are the same -/
theorem at_disjoint {l : List Seg} {p q : Nat} {s t : Seg} (hs : At l p s) (ht : At l q t) :
    p + s.len ≤ q ∨ q + t.len ≤ p ∨ p = q ∧ s = t := by
  induction l generalizing p q with
  | nil =>
    obtain ⟨pre, post, h, -⟩ := hs
    cases pre <;> cases h
  | cons u l ih =>
    rcases at_cons_iff.mp hs with ⟨rfl, rfl⟩ | ⟨hle, hs'⟩
    · rcases at_cons_iff.mp ht with ⟨rfl, rfl⟩ | ⟨hle', -⟩
      · exact Or.inr (Or.inr ⟨rfl, rfl⟩)
      · exact Or.inl (by omega)
    · rcases at_cons_iff.mp ht with ⟨rfl, rfl⟩ | ⟨hle', ht'⟩
      · exact Or.inr (Or.inl (by omega))
      · rcases ih hs' ht' with h | h | ⟨h, e⟩
        · exact Or.inl (by omega)
        · exact Or.inr (Or.inl (by omega))
        · exact Or.inr (Or.inr ⟨by omega, e⟩)

theorem at_inj {l : List Seg} (hl : Positive l) {p : Nat} {s t : Seg} (hs : At l p s)
    (ht : At l p t) : s = t := by
  have h1 := hl s hs.mem
  have h2 := hl t ht.mem
  rcases at_disjoint hs ht with h | h | ⟨-, e⟩
  · omega
  · omega
  · exact e

theorem at_three {pre mid post : List Seg} {q : Nat} {s : Seg} :
    At (pre ++ (mid ++ post)) q s ↔ At pre q s ∨
      total pre ≤ q ∧ (At mid (q - total pre) s ∨
        total mid ≤ q - total pre ∧ At post (q - total pre - total mid) s) := by
  rw [at_append_iff, at_append_iff]

theorem not_at_nil {p : Nat} {s : Seg} : ¬ At [] p s := fun h => absurd h.mem (by simp)

theorem at_singleton {p : Nat} {s t : Seg} : At [t] p s ↔ p = 0 ∧ s = t := by
  rw [at_cons_iff]
  exact ⟨fun h => h.elim id fun h => absurd h.2 not_at_nil, Or.inl⟩

/-- the segments in use are the same -/
def SameUsed (l l' : List Seg) : Prop := ∀ p s, s.used = true → (At l p s ↔ At l' p s)

theorem SameUsed.trans {l l' l'' : List Seg} (h : SameUsed l l') (h' : SameUsed l' l'') :
    SameUsed l l'' :=
  fun p s hs => (h p s hs).trans (h' p s hs)

theorem sameUsed_refl (l : List Seg) : SameUsed l l := fun _ _ _ => Iff.rfl

/-- a free stretch may be cut in any way -/
theorem sameUsed_replace {pre mid mid' post : List Seg} (h : total mid = total mid')
    (hm : ∀ s ∈ mid, s.used = false) (hm' : ∀ s ∈ mid', s.used = false) :
    SameUsed (pre ++ (mid ++ post)) (pre ++ (mid' ++ post)) := by
  intro p s hs
  have h1 : ∀ q, ¬ At mid q s := by
    intro q hq
    rw [hm s hq.mem] at hs
    cases hs
  have h2 : ∀ q, ¬ At mid' q s := by
    intro q hq
    rw [hm' s hq.mem] at hs
    cases hs
  rw [at_three, at_three, h, or_iff_right (h1 _), or_iff_right (h2 _)]

/-- the length of the segment in use at `p` -/
def inUse : List Seg → Nat → Option Nat
  | [], _ => none
  | s :: l, p =>
    if p = 0 then if s.used then some s.len else none
    else if s.len ≤ p then inUse l (p - s.len) else none

theorem inUse_eq_some {l : List Seg} (hl : Positive l) {p k : Nat} :
    inUse l p = some k ↔ At l p ⟨true, k⟩ := by
  induction l generalizing p with
  | nil => exact ⟨fun h => (by cases h), fun h => absurd h not_at_nil⟩
  | cons s l ih =>
    have hs := hl s List.mem_cons_self
    obtain ⟨u, n⟩ := s
    dsimp only at hs
    rw [at_cons_iff, inUse]
    split
    next h0 =>
      have hn : ¬ n ≤ p := by omega
      rw [and_iff_right h0, or_iff_left fun h => hn h.1]
      cases u <;> simp [eq_comm]
    next h0 =>
      split
      next hle => rw [ih fun t ht => hl t (List.mem_cons_of_mem _ ht)]; simp [h0, hle]
      next hle => simp [h0, hle]

theorem inUse_free (n p : Nat) : inUse [⟨false, n⟩] p = none := by
  simp [inUse]

/-- `l'` has the segment `s` at `p` in use, and otherwise what `l` has in use -/
def Gains (l : List Seg) (p : Nat) (s : Seg) (l' : List Seg) : Prop :=
  ∀ q t, t.used = true → (At l' q t ↔ At l q t ∨ q = p ∧ t = s)

/-- the places of the segments in use, as a function -/
theorem SameUsed.inUse_eq {l l' : List Seg} (hl : Positive l) (hl' : Positive l')
    (h : SameUsed l l') : inUse l = inUse l' := by
  funext p
  refine Option.ext fun k => ?_
  rw [inUse_eq_some hl, inUse_eq_some hl']
  exact h p _ rfl

theorem Gains.inUse_eq {l l' : List Seg} {p n k : Nat} (hl : Positive l) (hl' : Positive l')
    (hp : At l p ⟨false, n⟩) (h : Gains l p ⟨true, k⟩ l') :
    inUse l p = none ∧ inUse l' = Function.update (inUse l) p (some k) := by
  have hnone : inUse l p = none := by
    refine Option.eq_none_iff_forall_ne_some.mpr fun m hm => ?_
    have := at_inj hl ((inUse_eq_some hl).mp hm) hp
    cases this
  refine ⟨hnone, funext fun q => Option.ext fun m => ?_⟩
  rw [inUse_eq_some hl', h q _ rfl]
  by_cases hq : q = p
  · subst hq
    rw [Function.update_self, ← inUse_eq_some hl, hnone]
    simp [eq_comm]
  · rw [Function.update_of_ne hq, inUse_eq_some hl, or_iff_left fun h => hq h.1]

theorem Gains.same {l l' l'' : List Seg} {p : Nat} {s : Seg} (h : Gains l p s l')
    (h' : SameUsed l' l'') : Gains l p s l'' :=
  fun q t ht => (h' q t ht).symm.trans (h q t ht)

/-- the front of a free segment is taken -/
theorem gains_cut {pre rest post : List Seg} {n k : Nat} (h : k + total rest = n)
    (hf : ∀ s ∈ rest, s.used = false) :
    Gains (pre ++ ⟨false, n⟩ :: post) (total pre) ⟨true, k⟩ (pre ++ (⟨true, k⟩ :: rest ++ post)) := by
  intro q t ht
  have e : pre ++ (⟨false, n⟩ : Seg) :: post = pre ++ ([⟨false, n⟩] ++ post) := rfl
  have hn : total [(⟨false, n⟩ : Seg)] = total (⟨true, k⟩ :: rest) := by simp [h]
  have h1 : ∀ r, ¬ At [(⟨false, n⟩ : Seg)] r t := by
    intro r hr
    rw [List.mem_singleton.mp hr.mem] at ht
    cases ht
  have h2 : ∀ r, At (⟨true, k⟩ :: rest) r t ↔ r = 0 ∧ t = ⟨true, k⟩ := by
    intro r
    rw [at_cons_iff]
    refine ⟨fun hr => hr.elim id fun hr => ?_, Or.inl⟩
    rw [hf t hr.2.mem] at ht
    cases ht
  rw [e, at_three, at_three, h2, hn, or_iff_right (h1 _), or_assoc]
  refine or_congr_right ?_
  constructor
  · rintro ⟨hle, ⟨h0, hts⟩ | hpost⟩
    · exact Or.inr ⟨by omega, hts⟩
    · exact Or.inl ⟨hle, hpost⟩
  · rintro (⟨hle, hpost⟩ | ⟨rfl, hts⟩)
    · exact ⟨hle, Or.inr hpost⟩
    · exact ⟨Nat.le_refl _, Or.inl ⟨Nat.sub_self _, hts⟩⟩

/-! ## free segments -/

/-- of two neighbours one is in use -/
def Coalesced (l : List Seg) : Prop := l.IsChain fun s t => s.used = true ∨ t.used = true

/-- where the first free segment starts -/
def firstFree (l : List Seg) : Nat := total (l.takeWhile Seg.used)

theorem firstFree_append_used {pre l : List Seg} (h : ∀ s ∈ pre, s.used = true) :
    firstFree (pre ++ l) = total pre + firstFree l := by
  unfold firstFree
  rw [List.takeWhile_append_of_pos h, total_append]

theorem firstFree_cons_free {s : Seg} (h : s.used = false) (l : List Seg) :
    firstFree (s :: l) = 0 := by
  unfold firstFree
  rw [List.takeWhile_cons, if_neg (by rw [h]; exact Bool.false_ne_true)]
  rfl

theorem firstFree_cons_used {s : Seg} (h : s.used = true) (l : List Seg) :
    firstFree (s :: l) = s.len + firstFree l := by
  have e := @firstFree_append_used [s] l fun t ht => (List.mem_singleton.mp ht) ▸ h
  rw [List.singleton_append, total_cons, total_nil, Nat.add_zero] at e
  exact e

theorem firstFree_append_free {pre : List Seg} (h : ∃ s ∈ pre, s.used = false) (l : List Seg) :
    firstFree (pre ++ l) = firstFree pre := by
  induction pre with
  | nil =>
    obtain ⟨s, hs, -⟩ := h
    cases hs
  | cons s pre ih =>
    cases hu : s.used with
    | false => rw [List.cons_append, firstFree_cons_free hu, firstFree_cons_free hu]
    | true =>
      have h' : ∃ t ∈ pre, t.used = false := by
        obtain ⟨t, ht, htu⟩ := h
        rcases List.mem_cons.mp ht with rfl | ht'
        · rw [hu] at htu
          cases htu
        · exact ⟨t, ht', htu⟩
      rw [List.cons_append, firstFree_cons_used hu, firstFree_cons_used hu, ih h']

theorem firstFree_append (pre l : List Seg) :
    firstFree (pre ++ l) =
      if ∀ s ∈ pre, s.used = true then total pre + firstFree l else firstFree pre := by
  split
  next h => exact firstFree_append_used h
  next h =>
    push Not at h
    obtain ⟨s, hs, hu⟩ := h
    exact firstFree_append_free ⟨s, hs, Bool.eq_false_iff.mpr hu⟩ l

/-- a free segment in front of a place is the first one, whatever comes behind the place -/
theorem firstFree_before {pre l : List Seg} (h : firstFree (pre ++ l) < total pre)
    (l' : List Seg) : firstFree (pre ++ l') = firstFree (pre ++ l) := by
  have hne : ¬ ∀ s ∈ pre, s.used = true := by
    intro hall
    rw [firstFree_append_used hall] at h
    omega
  rw [firstFree_append, firstFree_append, if_neg hne, if_neg hne]

/-- no free segment starts before the first one -/
theorem firstFree_le {l : List Seg} {p : Nat} {s : Seg} (h : At l p s) (hs : s.used = false) :
    firstFree l ≤ p := by
  induction l generalizing p with
  | nil => exact absurd h.mem (by simp)
  | cons t l ih =>
    cases ht : t.used with
    | false =>
      rw [firstFree_cons_free ht]
      exact Nat.zero_le p
    | true =>
      rcases at_cons_iff.mp h with ⟨-, rfl⟩ | ⟨hle, h'⟩
      · rw [ht] at hs
        cases hs
      · have := ih h'
        rw [firstFree_cons_used ht]
        omega

/-- everything before the first free segment is in use -/
theorem used_before {pre post : List Seg} (hl : Positive pre)
    (h : total pre ≤ firstFree (pre ++ post)) : ∀ s ∈ pre, s.used = true := by
  intro s hs
  obtain ⟨as, bs, rfl⟩ := List.append_of_mem hs
  by_contra hu
  have hat : At (as ++ s :: bs ++ post) (total as) s := ⟨as, bs ++ post, by simp, rfl⟩
  have hle := firstFree_le hat (Bool.eq_false_iff.mpr hu)
  have hpos := hl s hs
  rw [total_append, total_cons] at h
  omega

/-- the first free segment, if there is one -/
theorem firstFree_cases (l : List Seg) :
    (firstFree l = total l ∧ ∀ s ∈ l, s.used = true) ∨
      ∃ pre s post, l = pre ++ s :: post ∧ s.used = false ∧ (∀ t ∈ pre, t.used = true) ∧
        firstFree l = total pre := by
  induction l with
  | nil => exact Or.inl ⟨rfl, fun s hs => absurd hs (by simp)⟩
  | cons t l ih =>
    cases ht : t.used with
    | false =>
      exact Or.inr ⟨[], t, l, rfl, ht, fun u hu => absurd hu (by simp), firstFree_cons_free ht l⟩
    | true =>
      have e := firstFree_cons_used ht l
      rcases ih with ⟨h1, h2⟩ | ⟨pre, s, post, rfl, hs, hpre, h⟩
      · refine Or.inl ⟨by rw [e, h1, total_cons], fun s hs => ?_⟩
        rcases List.mem_cons.mp hs with rfl | hs'
        · exact ht
        · exact h2 s hs'
      · refine Or.inr ⟨t :: pre, s, post, rfl, hs, fun u hu => ?_, by rw [e, h, total_cons]⟩
        rcases List.mem_cons.mp hu with rfl | hu'
        · exact ht
        · exact hpre u hu'

/-- whether neighbours are free does not depend on their lengths -/
theorem coalesced_cons_len {u : Bool} {n : Nat} (m : Nat) {l : List Seg}
    (h : Coalesced (⟨u, n⟩ :: l)) : Coalesced (⟨u, m⟩ :: l) := by
  cases l with
  | nil => exact List.IsChain.singleton _
  | cons s l => exact List.isChain_cons_cons.mpr (List.isChain_cons_cons.mp h)

theorem coalesced_snoc_len {u : Bool} {n : Nat} (m : Nat) {l : List Seg}
    (h : Coalesced (l ++ [⟨u, n⟩])) : Coalesced (l ++ [⟨u, m⟩]) := by
  obtain ⟨h1, -, h3⟩ := List.isChain_append.mp h
  refine List.isChain_append.mpr ⟨h1, List.IsChain.singleton _, fun x hx y hy => ?_⟩
  cases hy
  exact h3 x hx ⟨u, n⟩ rfl

/-- **A coalesced space in which nothing is in use is one segment.** -/
theorem free_all {l : List Seg} (hne : l ≠ []) (hc : Coalesced l) (hf : ∀ s ∈ l, s.used = false) :
    l = [⟨false, total l⟩] := by
  match l, hne with
  | [s], _ =>
    have hs := hf s List.mem_cons_self
    rw [total_cons, total_nil, Nat.add_zero]
    exact congrArg (fun u => [(⟨u, s.len⟩ : Seg)]) hs
  | s :: t :: l, _ =>
    rcases (List.isChain_cons_cons.mp hc).1 with h | h
    · rw [hf s List.mem_cons_self] at h
      cases h
    · rw [hf t (List.mem_cons_of_mem s List.mem_cons_self)] at h
      cases h

end Segments
