import Mathlib.Data.List.Basic
import Mathlib.Tactic.Common

/-!
# Runs of a labelled partial step

A system is a partial step `step : σ → α → Option σ`: the label carries every choice that the
environment or the scheduler makes, `none` means that the label is not enabled.  A RUN is a list
of labels.

* `run step s as`       the state after the labels `as`, if all of them are enabled;
* `Along step P s as`   every step `s, a, t` that the run takes satisfies `P s a t`;
* `run_inv`             what one step preserves, a run preserves;
* `Along.imp_of_inv`    a guard on the steps turned into a property of the steps, by an invariant;
* `last_iff_along`      what a step can only lose is there at the end exactly if no step lost it;
* `times`               a step without labels, so many times;
* `run_guarded`         a run that keeps to its guards does not stop;
* `along_iff_of_step`   the guard and the property are the same thing along every run as soon as
                        they are the same thing at each step from an invariant state.

Nothing here knows the program.
-/

namespace Trace

variable {σ α : Type*} {step : σ → α → Option σ}

/-- the state after a list of labels -/
def run (step : σ → α → Option σ) : σ → List α → Option σ
  | s, [] => some s
  | s, a :: as => (step s a).bind fun t => run step t as

/-- every step of the run satisfies `P` -/
def Along (step : σ → α → Option σ) (P : σ → α → σ → Prop) : σ → List α → Prop
  | _, [] => True
  | s, a :: as => ∀ t, step s a = some t → P s a t ∧ Along step P t as

@[simp] theorem run_nil (s : σ) : run step s [] = some s := rfl

theorem run_cons (s : σ) (a : α) (as : List α) :
    run step s (a :: as) = (step s a).bind fun t => run step t as := rfl

theorem run_cons_some {s t : σ} {a : α} (h : step s a = some t) (as : List α) :
    run step s (a :: as) = run step t as := by
  rw [run_cons, h]; rfl

theorem run_append (s : σ) (as bs : List α) :
    run step s (as ++ bs) = (run step s as).bind fun t => run step t bs := by
  induction as generalizing s with
  | nil => rfl
  | cons a as ih =>
    rw [List.cons_append, run_cons, run_cons]
    cases step s a with
    | none => rfl
    | some t => exact ih t

theorem run_cons_inv {s u : σ} {a : α} {as : List α} (h : run step s (a :: as) = some u) :
    ∃ t, step s a = some t ∧ run step t as = some u := by
  rw [run_cons] at h
  exact Option.bind_eq_some_iff.mp h

@[simp] theorem along_nil (P : σ → α → σ → Prop) (s : σ) : Along step P s [] := trivial

theorem along_cons {P : σ → α → σ → Prop} {s t : σ} {a : α} (h : step s a = some t)
    (as : List α) : Along step P s (a :: as) ↔ P s a t ∧ Along step P t as := by
  constructor
  · intro hp
    exact hp t h
  · intro hp t' ht'
    have e : t = t' := Option.some.inj (h.symm.trans ht')
    exact e ▸ hp

theorem along_append {P : σ → α → σ → Prop} {s t : σ} {as : List α} (h : run step s as = some t)
    (bs : List α) : Along step P s (as ++ bs) ↔ Along step P s as ∧ Along step P t bs := by
  induction as generalizing s with
  | nil =>
    cases h
    exact (and_iff_right trivial).symm
  | cons a as ih =>
    obtain ⟨u, hu, hr⟩ := run_cons_inv h
    rw [List.cons_append, along_cons hu, along_cons hu, ih hr, and_assoc]

theorem along_of_forall {P : σ → α → σ → Prop} (h : ∀ s a t, P s a t) (s : σ) (as : List α) :
    Along step P s as := by
  induction as generalizing s with
  | nil => trivial
  | cons a as ih => exact fun t _ => ⟨h s a t, ih t⟩

theorem along_of_mem {P : α → Prop} {as : List α} (h : ∀ a ∈ as, P a) (s : σ) :
    Along step (fun _ a _ => P a) s as := by
  induction as generalizing s with
  | nil => trivial
  | cons a as ih =>
    exact fun t _ => ⟨h a List.mem_cons_self, ih (fun b hb => h b (List.mem_cons_of_mem _ hb)) t⟩

theorem along_congr_of_mem {P Q : σ → α → σ → Prop} {as : List α}
    (h : ∀ a ∈ as, ∀ s t, step s a = some t → (P s a t ↔ Q s a t)) (s : σ) :
    Along step P s as ↔ Along step Q s as := by
  induction as generalizing s with
  | nil => exact Iff.rfl
  | cons a as ih =>
    refine forall_congr' fun t => forall_congr' fun ht => and_congr ?_ ?_
    · exact h a List.mem_cons_self s t ht
    · exact ih (fun b hb => h b (List.mem_cons_of_mem _ hb)) t

/-- **What one guarded step preserves, a guarded run preserves.** -/
theorem run_inv {I : σ → Prop} {G : σ → α → σ → Prop}
    (hstep : ∀ s a t, I s → step s a = some t → G s a t → I t) (as : List α) :
    ∀ s t, I s → Along step G s as → run step s as = some t → I t := by
  induction as with
  | nil =>
    intro s t hs _ hr
    exact Option.some.inj hr ▸ hs
  | cons a as ih =>
    intro s t hs hg hr
    obtain ⟨u, hu, hr'⟩ := run_cons_inv hr
    obtain ⟨hga, hg'⟩ := hg u hu
    exact ih u t (hstep s a u hs hu hga) hg' hr'

/-- a property of every state that a run reaches holds of its last state -/
theorem along_last {P : σ → Prop} {s t : σ} {as : List α} (hs : P s)
    (h : Along step (fun _ _ u => P u) s as) (hr : run step s as = some t) : P t :=
  run_inv (I := P) (fun _ _ _ _ _ hp => hp) as s t hs h hr

/-- **A guard on the steps of a run becomes a property of its steps**, through an invariant. -/
theorem Along.imp_of_inv {I : σ → Prop} {G P : σ → α → σ → Prop}
    (hstep : ∀ s a t, I s → step s a = some t → G s a t → P s a t ∧ I t) {s : σ} {as : List α}
    (hs : I s) (hg : Along step G s as) : Along step P s as := by
  induction as generalizing s with
  | nil => trivial
  | cons a as ih =>
    intro t ht
    obtain ⟨hga, hg'⟩ := hg t ht
    obtain ⟨hp, hi⟩ := hstep s a t hs ht hga
    exact ⟨hp, ih hi hg'⟩

/-- Guard and property agree along a run if they agree at each step and the guard keeps the
invariant. -/
theorem along_iff_of_step {I : σ → Prop} {G P : σ → α → σ → Prop}
    (hiff : ∀ s a t, I s → step s a = some t → (G s a t ↔ P s a t))
    (hinv : ∀ s a t, I s → step s a = some t → G s a t → I t) {s : σ} (hs : I s)
    (as : List α) : Along step G s as ↔ Along step P s as := by
  induction as generalizing s with
  | nil => exact Iff.rfl
  | cons a as ih =>
    constructor
    · intro hg t ht
      obtain ⟨hga, hg'⟩ := hg t ht
      exact ⟨(hiff s a t hs ht).mp hga, (ih (hinv s a t hs ht hga)).mp hg'⟩
    · intro hp t ht
      obtain ⟨hpa, hp'⟩ := hp t ht
      have hga := (hiff s a t hs ht).mpr hpa
      exact ⟨hga, (ih (hinv s a t hs ht hga)).mpr hp'⟩

/-- **What is lost for good.**  If a step leaves a property of the states exactly when the guard holds
and it held before, then it holds at the end of a run exactly when the guard held along it. -/
theorem last_iff_along {I P : σ → Prop} {G : σ → α → σ → Prop}
    (hinv : ∀ s a t, I s → step s a = some t → I t)
    (hiff : ∀ s a t, I s → step s a = some t → (P t ↔ P s ∧ G s a t)) (as : List α) :
    ∀ s t, I s → run step s as = some t → (P t ↔ P s ∧ Along step G s as) := by
  induction as with
  | nil =>
    intro s t _ hr
    cases hr
    exact ⟨fun h => ⟨h, trivial⟩, fun h => h.1⟩
  | cons a as ih =>
    intro s t hs hr
    obtain ⟨u, hu, hr'⟩ := run_cons_inv hr
    rw [ih u t (hinv s a u hs hu) hr', hiff s a u hs hu, along_cons hu, and_assoc]

/-- `Along`, read as a statement about every step that some prefix of the run reaches -/
theorem along_iff {P : σ → α → σ → Prop} (s : σ) (as : List α) :
    Along step P s as ↔ ∀ pre a post, as = pre ++ a :: post → ∀ s' t, run step s pre = some s' →
      step s' a = some t → P s' a t := by
  induction as generalizing s with
  | nil =>
    refine ⟨fun _ pre a post h => ?_, fun _ => trivial⟩
    exact absurd h.symm (by simp)
  | cons b as ih =>
    constructor
    · intro h pre a post hsplit s' t hpre ht
      cases pre with
      | nil =>
        obtain ⟨rfl, rfl⟩ := List.cons.inj hsplit
        cases hpre
        exact (h t ht).1
      | cons c pre =>
        obtain ⟨rfl, hrest⟩ := List.cons.inj hsplit
        obtain ⟨u, hu, hpre'⟩ := run_cons_inv hpre
        exact (ih u).mp (h u hu).2 pre a post hrest s' t hpre' ht
    · intro h t ht
      refine ⟨h [] b as rfl s t rfl ht, (ih t).mpr ?_⟩
      intro pre a post hsplit s' u hpre hu
      refine h (b :: pre) a post (by rw [hsplit, List.cons_append]) s' u ?_ hu
      rw [run_cons_some ht]
      exact hpre

/-- every label of the run is one that `G` allows where it stands -/
def Guarded (step : σ → α → Option σ) (G : σ → α → Prop) : σ → List α → Prop
  | _, [] => True
  | s, a :: as => G s a ∧ ∀ t, step s a = some t → Guarded step G t as

/-- a condition on the labels that stand in the run is part of the guard -/
theorem Guarded.and_mem {G : σ → α → Prop} {P : α → Prop} {as : List α} {s : σ}
    (h : Guarded step G s as) (hp : ∀ a ∈ as, P a) :
    Guarded step (fun s a => G s a ∧ P a) s as := by
  induction as generalizing s with
  | nil => trivial
  | cons a as ih =>
    exact ⟨⟨h.1, hp a List.mem_cons_self⟩,
      fun t ht => ih (h.2 t ht) fun b hb => hp b (List.mem_cons_of_mem _ hb)⟩

/-- **A guarded run does not stop**, if no guarded step does that starts where the invariant holds,
and the invariant is kept; with what of the run is still to come. -/
theorem run_guarded_append {I : σ → Prop} {G : σ → α → Prop}
    (hstep : ∀ s a, I s → G s a → ∃ t, step s a = some t ∧ I t) (as bs : List α) :
    ∀ s, I s → Guarded step G s (as ++ bs) →
      ∃ t, run step s as = some t ∧ I t ∧ Guarded step G t bs := by
  induction as with
  | nil => exact fun s hs hg => ⟨s, rfl, hs, hg⟩
  | cons a as ih =>
    intro s hs hg
    obtain ⟨u, hu, hi⟩ := hstep s a hs hg.1
    obtain ⟨t, ht, hit⟩ := ih u hi (hg.2 u hu)
    exact ⟨t, (run_cons_some hu as).trans ht, hit⟩

theorem run_guarded {I : σ → Prop} {G : σ → α → Prop}
    (hstep : ∀ s a, I s → G s a → ∃ t, step s a = some t ∧ I t) (as : List α) {s : σ} (hs : I s)
    (h : Guarded step G s as) : ∃ t, run step s as = some t ∧ I t := by
  obtain ⟨t, ht, hi, -⟩ := run_guarded_append hstep as [] s hs (by rwa [List.append_nil])
  exact ⟨t, ht, hi⟩

/-- along one concrete run a decidable guard is decided step by step -/
instance decidableGuarded {G : σ → α → Prop} [∀ s a, Decidable (G s a)] :
    (s : σ) → (as : List α) → Decidable (Guarded step G s as)
  | _, [] => isTrue trivial
  | s, a :: as =>
    match h : step s a with
    | none => decidable_of_iff (G s a)
        ⟨fun hg => ⟨hg, fun t ht => absurd (h.symm.trans ht) (by simp)⟩, And.left⟩
    | some t =>
      haveI := decidableGuarded (G := G) t as
      decidable_of_iff (G s a ∧ Guarded step G t as) (and_congr_right fun _ =>
        ⟨fun hg u hu => Option.some.inj (h.symm.trans hu) ▸ hg, fun hg => hg t h⟩)

/-- a step without labels, `n` times -/
def times (f : σ → Option σ) : Nat → σ → Option σ
  | 0, s => some s
  | n + 1, s => (f s).bind (times f n)

theorem times_succ {f : σ → Option σ} {s t : σ} (h : f s = some t) (n : Nat) :
    times f (n + 1) s = times f n t := by
  rw [times, h]; rfl

theorem times_add (f : σ → Option σ) (m n : Nat) (s : σ) :
    times f (m + n) s = (times f m s).bind (times f n) := by
  induction m generalizing s with
  | zero =>
    rw [Nat.zero_add]
    rfl
  | succ m ih =>
    rw [Nat.add_right_comm, times, times]
    cases f s with
    | none => rfl
    | some t => exact ih t

theorem times_add_some {f : σ → Option σ} {m : Nat} {s t : σ} (h : times f m s = some t) (n : Nat) :
    times f (m + n) s = times f n t := by
  rw [times_add, h]; rfl

/-- along one concrete run a decidable property is decided step by step -/
instance decidableAlong {P : σ → α → σ → Prop} [∀ s a t, Decidable (P s a t)] :
    (s : σ) → (as : List α) → Decidable (Along step P s as)
  | _, [] => isTrue trivial
  | s, a :: as =>
    match h : step s a with
    | none => isTrue fun t ht => absurd (h.symm.trans ht) (by simp)
    | some t =>
      haveI := decidableAlong (P := P) t as
      decidable_of_iff (P s a t ∧ Along step P t as) (along_cons h as).symm

end Trace
