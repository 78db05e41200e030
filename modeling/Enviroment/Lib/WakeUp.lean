import Mathlib.Data.List.Perm.Basic
import Mathlib.Logic.Function.Basic
import Mathlib.Tactic.Common

/-!
# A waiting room in front of a counted resource

A party that finds nothing goes to sleep; whoever brings one item wakes one sleeper.  The sleeper
looks again later: in between a passer-by may take the item.

* `WaitRoom`     who sleeps, in the order in which they are woken, and who is woken but has not
                 looked yet;
* `WaitsFor`     the room is kept in order, and `alert`: as long as somebody sleeps there is no
                 item without a woken party on its way;
* `waits_*`      what each event does to it;
* `exists_woken` nobody sleeps on an item for good.

Nothing here knows the program.
-/

namespace WakeUp

variable {ι : Type*}

structure WaitRoom (ι : Type*) where
  asleep : List ι
  woken : List ι

/-- where a party is -/
inductive Waiter where
  | out
  | asleep
  | woken
deriving DecidableEq

/-- the room of a resource of which `avail` are there; each party is where `pos` says -/
structure WaitsFor (r : WaitRoom ι) (avail : Nat) (pos : ι → Waiter) : Prop where
  asleep : ∀ i, i ∈ r.asleep ↔ pos i = .asleep
  woken : ∀ i, i ∈ r.woken ↔ pos i = .woken
  asleep_nodup : r.asleep.Nodup
  woken_nodup : r.woken.Nodup
  alert : r.asleep ≠ [] → avail ≤ r.woken.length

/-- the first sleeper is woken -/
def WaitRoom.wake (r : WaitRoom ι) : WaitRoom ι :=
  match r.asleep with
  | [] => r
  | i :: l => ⟨l, i :: r.woken⟩

def WaitRoom.leave [DecidableEq ι] (r : WaitRoom ι) (i : ι) : WaitRoom ι :=
  { r with asleep := r.asleep.erase i }

/-- a woken party looks; for any other one nothing happens -/
def WaitRoom.look [DecidableEq ι] (r : WaitRoom ι) (i : ι) : WaitRoom ι :=
  { r with woken := r.woken.erase i }

variable {r : WaitRoom ι} {avail : Nat} {pos : ι → Waiter}

theorem waits_empty : WaitsFor (⟨[], []⟩ : WaitRoom ι) avail fun _ => .out :=
  ⟨fun i => by simp, fun i => by simp, List.nodup_nil, List.nodup_nil, fun h => absurd rfl h⟩

/-- **Nobody sleeps on an item** unless a woken party is on its way to it. -/
theorem WaitsFor.exists_woken (h : WaitsFor r avail pos) {i : ι} (hi : pos i = .asleep)
    (ha : 0 < avail) : ∃ j, pos j = .woken := by
  have hne : r.asleep ≠ [] := List.ne_nil_of_mem ((h.asleep i).mpr hi)
  have hlen := h.alert hne
  obtain ⟨j, hj⟩ := List.exists_mem_of_length_pos (Nat.lt_of_lt_of_le ha hlen)
  exact ⟨j, (h.woken j).mp hj⟩

/-- an item comes, and nobody sleeps -/
theorem WaitsFor.post_nil (h : WaitsFor r avail pos) (hnil : r.asleep = []) (avail' : Nat) :
    WaitsFor r avail' pos :=
  ⟨h.asleep, h.woken, h.asleep_nodup, h.woken_nodup, fun hne => absurd hnil hne⟩

section
variable [DecidableEq ι]

theorem pos_update {i j : ι} {x y : Waiter} :
    Function.update pos i x j = y ↔ j = i ∧ x = y ∨ j ≠ i ∧ pos j = y := by
  by_cases hj : j = i
  · rw [hj, Function.update_self]
    simp
  · rw [Function.update_of_ne hj]
    simp [hj]

/-- an item comes, and the first sleeper is woken -/
theorem WaitsFor.post (h : WaitsFor r avail pos) {i : ι} {l : List ι} (hl : r.asleep = i :: l) :
    WaitsFor r.wake (avail + 1) (Function.update pos i .woken) := by
  have hnd := h.asleep_nodup
  rw [hl] at hnd
  obtain ⟨hi, hl'⟩ := List.nodup_cons.mp hnd
  have hpos : pos i = .asleep := (h.asleep i).mp (hl ▸ List.mem_cons_self)
  have hiw : i ∉ r.woken := by
    intro hw
    rw [(h.woken i).mp hw] at hpos
    cases hpos
  unfold WaitRoom.wake
  rw [hl]
  refine ⟨fun j => ?_, fun j => ?_, hl', List.nodup_cons.mpr ⟨hiw, h.woken_nodup⟩, fun _ => ?_⟩
  · dsimp only
    rw [pos_update, ← h.asleep, hl, List.mem_cons]
    constructor
    · intro hj
      have hne : j ≠ i := fun e => hi (e ▸ hj)
      exact Or.inr ⟨hne, Or.inr hj⟩
    · rintro (⟨-, hx⟩ | ⟨hne, hj⟩)
      · cases hx
      · exact hj.resolve_left hne
  · dsimp only
    rw [pos_update, ← h.woken, List.mem_cons]
    constructor
    · rintro (rfl | hj)
      · exact Or.inl ⟨rfl, rfl⟩
      · exact Or.inr ⟨fun e => hiw (e ▸ hj), hj⟩
    · rintro (⟨rfl, -⟩ | ⟨-, hj⟩)
      · exact Or.inl rfl
      · exact Or.inr hj
  · have := h.alert (by rw [hl]; exact List.cons_ne_nil i l)
    rw [List.length_cons]
    omega

/-- a party that does not sleep takes an item, or finds none -/
theorem WaitsFor.look (h : WaitsFor r avail pos) {i : ι} (hi : pos i ≠ .asleep) :
    WaitsFor (r.look i) (avail - 1) (Function.update pos i .out) := by
  refine ⟨fun j => ?_, fun j => ?_, h.asleep_nodup, h.woken_nodup.erase i, fun hne => ?_⟩
  · unfold WaitRoom.look
    dsimp only
    rw [pos_update, h.asleep]
    constructor
    · intro hj
      exact Or.inr ⟨fun e => hi (e ▸ hj), hj⟩
    · rintro (⟨-, hx⟩ | ⟨-, hj⟩)
      · cases hx
      · exact hj
  · unfold WaitRoom.look
    dsimp only
    rw [pos_update, h.woken_nodup.mem_erase_iff, h.woken]
    simp
  · have hlen := h.alert hne
    have herase := List.le_length_erase (a := i) (l := r.woken)
    unfold WaitRoom.look
    dsimp only
    omega

/-- a party goes to sleep, where there is nothing -/
theorem WaitsFor.sleep (h : WaitsFor r 0 pos) {i : ι} (hi : pos i = .out) {l : List ι}
    (hl : l.Perm (i :: r.asleep)) :
    WaitsFor ⟨l, r.woken⟩ 0 (Function.update pos i .asleep) := by
  have hia : i ∉ r.asleep := by
    rw [h.asleep, hi]
    exact fun e => (by cases e)
  refine ⟨fun j => ?_, fun j => ?_, hl.nodup_iff.mpr (List.nodup_cons.mpr ⟨hia, h.asleep_nodup⟩),
    h.woken_nodup, fun _ => Nat.zero_le _⟩
  · dsimp only
    rw [hl.mem_iff, List.mem_cons, h.asleep, pos_update]
    constructor
    · rintro (hj | hj)
      · exact Or.inl ⟨hj, rfl⟩
      · exact Or.inr ⟨fun e => (by rw [e, hi] at hj; cases hj), hj⟩
    · rintro (⟨hj, -⟩ | ⟨-, hj⟩)
      · exact Or.inl hj
      · exact Or.inr hj
  · dsimp only
    rw [pos_update, h.woken]
    constructor
    · intro hj
      exact Or.inr ⟨fun e => (by rw [e, hi] at hj; cases hj), hj⟩
    · rintro (⟨-, hx⟩ | ⟨-, hj⟩)
      · cases hx
      · exact hj

/-- a sleeper goes away, as nobody came in time -/
theorem WaitsFor.leave (h : WaitsFor r avail pos) {i : ι} (hi : pos i = .asleep) :
    WaitsFor (r.leave i) avail (Function.update pos i .out) := by
  refine ⟨fun j => ?_, fun j => ?_, h.asleep_nodup.erase i, h.woken_nodup, fun hne => ?_⟩
  · unfold WaitRoom.leave
    dsimp only
    rw [pos_update, h.asleep_nodup.mem_erase_iff, h.asleep]
    simp
  · unfold WaitRoom.leave
    dsimp only
    rw [pos_update, h.woken]
    constructor
    · intro hj
      exact Or.inr ⟨fun e => (by rw [e, hi] at hj; cases hj), hj⟩
    · rintro (⟨-, hx⟩ | ⟨-, hj⟩)
      · cases hx
      · exact hj
  · refine h.alert fun hnil => hne ?_
    unfold WaitRoom.leave
    rw [hnil]
    rfl

end

/-- all sleepers are sent away -/
theorem WaitsFor.clear (h : WaitsFor r avail pos) (avail' : Nat) :
    WaitsFor ⟨[], r.woken⟩ avail' fun i => if pos i = .asleep then .out else pos i := by
  refine ⟨fun i => ?_, fun i => ?_, List.nodup_nil, h.woken_nodup, fun hne => absurd rfl hne⟩
  · dsimp only
    split
    next => simp
    next hi => simp [hi]
  · dsimp only
    rw [h.woken]
    split
    next hi => simp [hi]
    next => exact Iff.rfl

end WakeUp
