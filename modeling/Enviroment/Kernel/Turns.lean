import Enviroment.Kernel.Thread
import Mathlib.Data.List.Rotate

/-!
# Threads of one priority (`scheduler.c`, `clock.c`)

`rt_schedule` takes the first of the most urgent list and puts the current thread at its end; the
tick calls it when the time slice of the current thread is over.

* `Sched.onTurn`    the first of a list runs, and the others stand in their list in this order;
* `yield_turns`     the threads of the most urgent list take turns, and after a full round
                    everything is as it was;
* `slices_turn`     so they do with the time slices of the tick;
* `slices_share`    and with the tick itself as long as no timer expires, each for its own slice.
-/

set_option linter.unusedSectionVars false

namespace ENV

open MarkedQueues Trace

section
variable {ι : Type*} [DecidableEq ι] {s : Sched ι} {c i j : ι}

/-! ## taking turns -/

/-- the first of the list runs and the others stand in the list `p`, in this order -/
def Sched.onTurn (s : Sched ι) (p : Fin 32) : List ι → Sched ι
  | [] => s
  | a :: l =>
    { s with
      thread := fun i =>
        if i = a then { s.thread i with stat := .running }
        else if i ∈ l then { s.thread i with stat := .ready }
        else s.thread i
      table := Function.update s.table p l
      current := some a }

/-- the current thread `c` runs, and nobody who is ready is more urgent -/
structure OnTop (s : Sched ι) (c : ι) : Prop where
  inv : SchedInv s
  lockNest : s.lockNest = 0
  current : s.current = some c
  running : (s.thread c).Running
  top : ∀ i, (s.thread i).Ready → (s.thread c).currentPriority ≤ (s.thread i).currentPriority

/-- who takes turns with the current thread `c` -/
def Sched.round (s : Sched ι) (c : ι) : List ι := c :: s.table (s.thread c).currentPriority

theorem body_onTurn (p : Fin 32) (l : List ι) (i : ι) :
    ((s.onTurn p l).thread i).body = (s.thread i).body := by
  cases l with
  | nil => rfl
  | cons a l =>
    show (ite _ _ _ : Thread).body = _
    split
    · rfl
    · split <;> rfl

theorem lockNest_onTurn (p : Fin 32) (l : List ι) : (s.onTurn p l).lockNest = s.lockNest := by
  cases l <;> rfl

section
variable {p : Fin 32} {a : ι} {l : List ι}

theorem stat_onTurn_self : ((s.onTurn p (a :: l)).thread a).stat = .running := by
  show (ite _ _ _ : Thread).stat = _
  rw [if_pos rfl]

theorem stat_onTurn_mem (hi : i ∈ l) (hia : i ≠ a) :
    ((s.onTurn p (a :: l)).thread i).stat = .ready := by
  show (ite _ _ _ : Thread).stat = _
  rw [if_neg hia, if_pos hi]

theorem stat_onTurn_not_mem (hi : i ∉ a :: l) :
    ((s.onTurn p (a :: l)).thread i).stat = (s.thread i).stat := by
  show (ite _ _ _ : Thread).stat = _
  rw [if_neg (List.ne_of_not_mem_cons hi), if_neg (List.not_mem_of_not_mem_cons hi)]

end

theorem OnTop.mem_round (h : OnTop s c) :
    i ∈ s.round c ↔ i = c ∨ (s.thread i).Ready ∧
      (s.thread i).currentPriority = (s.thread c).currentPriority := by
  rw [Sched.round, List.mem_cons, h.inv.mem]
  rfl

theorem OnTop.nodup_round (h : OnTop s c) : (s.round c).Nodup :=
  List.nodup_cons.mpr ⟨fun hc => (h.inv.current c h.current).1 ((h.inv.mem c _).mp hc).1,
    h.inv.nodup _⟩

/-- it is the turn of the current thread -/
theorem OnTop.onTurn_round (h : OnTop s c) :
    s.onTurn (s.thread c).currentPriority (s.round c) = s := by
  refine Sched.ext (funext fun i => ?_) (Function.update_eq_self _ _) rfl h.current.symm rfl
  refine eq_of_body (body_onTurn _ _ i) ?_
  by_cases hi : i ∈ s.round c
  · rcases List.mem_cons.mp hi with rfl | hl
    · rw [Sched.round, stat_onTurn_self, h.running]
    · have hic : i ≠ c := fun e => (List.nodup_cons.mp h.nodup_round).1 (e ▸ hl)
      rw [Sched.round, stat_onTurn_mem hl hic]
      exact ((h.inv.mem i _).mp hl).1.symm
  · exact stat_onTurn_not_mem hi

/-- whoever's turn it is, the lists are in order and it is on top -/
theorem OnTop.turn (h : OnTop s c) {a : ι} {l : List ι} (hr : (a :: l).Perm (s.round c)) :
    OnTop (s.onTurn (s.thread c).currentPriority (a :: l)) a := by
  set p := (s.thread c).currentPriority with hp
  have hnd : (a :: l).Nodup := hr.nodup_iff.mpr h.nodup_round
  have hal : a ∉ l := (List.nodup_cons.mp hnd).1
  have hround : ∀ i, i ∈ a :: l ↔ i = c ∨ (s.thread i).Ready ∧ (s.thread i).currentPriority = p :=
    fun i => hr.mem_iff.trans h.mem_round
  have hprio : ∀ i ∈ a :: l, (s.thread i).currentPriority = p := fun i hi => by
    rcases (hround i).mp hi with rfl | h'
    · rfl
    · exact h'.2
  have hout : ∀ i, i ∉ a :: l → ((s.onTurn p (a :: l)).thread i).stat = (s.thread i).stat :=
    fun i hi => stat_onTurn_not_mem hi
  have hbody := body_onTurn (s := s) p (a :: l)
  have hq : Queued (s.onTurn p (a :: l)) := by
    refine ⟨?_, fun i q => ?_, fun q => ?_, fun i hi => ?_⟩
    · refine h.inv.marks.keep fun q => ?_
      show Function.update s.table p l q = [] ↔ _
      by_cases hq : q = p
      · subst hq
        have hlen := hr.length_eq
        rw [Sched.round, List.length_cons, List.length_cons, ← hp] at hlen
        rw [Function.update_self, ← List.length_eq_zero_iff, ← List.length_eq_zero_iff]
        omega
      · rw [Function.update_of_ne hq]
    · rw [priority_of_body (hbody i)]
      show i ∈ Function.update s.table p l q ↔ _
      by_cases hia : i = a
      · subst hia
        rw [stat_onTurn_self]
        refine iff_of_false (fun hi => ?_) fun hi => (by cases hi.1)
        by_cases hq : q = p
        · rw [hq, Function.update_self] at hi
          exact hal hi
        · rw [Function.update_of_ne hq, h.inv.mem, hprio i List.mem_cons_self] at hi
          exact hq hi.2.symm
      by_cases hil : i ∈ l
      · have hpi := hprio i (List.mem_cons_of_mem _ hil)
        rw [stat_onTurn_mem hil hia, hpi]
        by_cases hq : q = p
        · subst hq
          rw [Function.update_self]
          exact iff_of_true hil ⟨rfl, rfl⟩
        · rw [Function.update_of_ne hq, h.inv.mem, hpi]
          exact iff_of_false (fun hi => hq hi.2.symm) fun hi => hq hi.2.symm
      · have hi : i ∉ a :: l := fun hi => (List.mem_cons.mp hi).elim hia hil
        rw [hout i hi]
        by_cases hq : q = p
        · subst hq
          rw [Function.update_self]
          exact iff_of_false hil fun h' => hi ((hround i).mpr (Or.inr h'))
        · rw [Function.update_of_ne hq]
          exact h.inv.mem i q
    · show (Function.update s.table p l q).Nodup
      by_cases hq : q = p
      · subst hq
        rw [Function.update_self]
        exact (List.nodup_cons.mp hnd).2
      · rw [Function.update_of_ne hq]
        exact h.inv.nodup q
    · rw [mask_of_body (hbody i), priority_of_body (hbody i)]
      refine h.inv.mask i ?_
      by_cases hir : i ∈ a :: l
      · rcases (hround i).mp hir with rfl | h'
        · exact h.running.live
        · exact h'.1.live
      · unfold Thread.Live at hi ⊢
        rw [hout i hir] at hi
        exact hi
  refine ⟨⟨hq, fun i hi => ?_, fun i hi => ?_⟩, (lockNest_onTurn _ _).trans h.lockNest, rfl,
    stat_onTurn_self, fun i hi => ?_⟩
  · by_cases hia : i = a
    · rw [hia]
      rfl
    by_cases hil : i ∈ l
    · rw [stat_onTurn_mem hil hia] at hi
      cases hi
    · have hir : i ∉ a :: l := fun h' => (List.mem_cons.mp h').elim hia hil
      have := h.inv.running i ((hout i hir).symm.trans hi)
      exact absurd ((hround i).mpr (Or.inl (Option.some.inj (this.symm.trans h.current)))) hir
  · have hia : a = i := Option.some.inj hi
    rw [← hia, stat_onTurn_self]
    exact ⟨by decide, by decide⟩
  · rw [priority_of_body (hbody a), priority_of_body (hbody i), hprio a List.mem_cons_self]
    by_cases hir : i ∈ a :: l
    · exact (hprio i hir).symm ▸ Fin.le_refl _
    · exact h.top i ((hout i hir).symm.trans hi)

theorem table_switch (hrun : (s.thread c).stat = .running) (hjc : j ≠ c) :
    (s.switch c j).table = fun q => (Function.update s.table (s.thread c).currentPriority
      (s.table (s.thread c).currentPriority ++ [c]) q).erase j := by
  unfold Sched.switch
  dsimp only
  rw [if_pos hrun, insert_eq fun e => hjc (Option.some.inj e), remove_eq]
  rfl

/-- the switch to the next of the round -/
theorem OnTop.switch_turn (h : OnTop s c) {a b : ι} {l : List ι}
    (hr : (a :: b :: l).Perm (s.round c)) :
    (s.onTurn (s.thread c).currentPriority (a :: b :: l)).switch a b =
      s.onTurn (s.thread c).currentPriority (b :: (l ++ [a])) := by
  have ht := h.turn hr
  have ht' := h.turn (a := b) (l := l ++ [a])
    ((List.perm_append_singleton a (b :: l)).trans hr)
  set p := (s.thread c).currentPriority with hp
  have hprio : ∀ i ∈ a :: b :: l, ((s.onTurn p (a :: b :: l)).thread i).currentPriority = p :=
    fun i hi => by
      rw [priority_of_body (body_onTurn p _ i)]
      rcases h.mem_round.mp (hr.mem_iff.mp hi) with rfl | h'
      · rfl
      · exact h'.2
  obtain ⟨hal, hnd⟩ := List.nodup_cons.mp (hr.nodup_iff.mpr h.nodup_round)
  obtain ⟨hbl, -⟩ := List.nodup_cons.mp hnd
  have hba : b ≠ a := fun e => hal (e ▸ List.mem_cons_self)
  have hb : ((s.onTurn p (a :: b :: l)).thread b).Ready := stat_onTurn_mem List.mem_cons_self hba
  have hsw := switched (s := s.onTurn p (a :: b :: l)) hba
  have hinv := ht.inv.switch ht.current hb hba
  have htab : ((s.onTurn p (a :: b :: l)).switch a b).table =
      (s.onTurn p (b :: (l ++ [a]))).table := by
    rw [table_switch stat_onTurn_self hba, hprio a List.mem_cons_self]
    funext q
    show (Function.update (Function.update s.table p (b :: l)) p _ q).erase b =
      Function.update s.table p (l ++ [a]) q
    by_cases hq : q = p
    · subst hq
      rw [Function.update_self, Function.update_self]
      show ((Function.update s.table p (b :: l) p) ++ [a]).erase b = _
      rw [Function.update_self, List.cons_append, List.erase_cons_head]
    · rw [Function.update_of_ne hq, Function.update_of_ne hq, Function.update_of_ne hq]
      refine List.erase_of_not_mem fun hm => hq ?_
      have := hprio b (List.mem_cons_of_mem _ List.mem_cons_self)
      rw [priority_of_body (body_onTurn p _ b)] at this
      exact ((h.inv.mem b q).mp hm).2.symm.trans this
  refine Sched.ext (funext fun i => ?_) htab ?_ hsw.current ?_
  · refine eq_of_body ?_ ?_
    · rw [hsw.body, body_onTurn, body_onTurn]
    · by_cases hib : i = b
      · rw [hib, stat_onTurn_self]
        exact hsw.next
      by_cases hia : i = a
      · rw [hia, hsw.last, if_pos stat_onTurn_self,
          stat_onTurn_mem (List.mem_append_right _ List.mem_cons_self) (Ne.symm hba)]
      · rw [hsw.others i hia hib]
        by_cases hil : i ∈ l
        · rw [stat_onTurn_mem (List.mem_cons_of_mem _ hil) hia,
            stat_onTurn_mem (List.mem_append_left _ hil) hib]
        · rw [stat_onTurn_not_mem (by simp [hia, hib, hil]),
            stat_onTurn_not_mem (by simp [hia, hib, hil])]
  · exact hinv.marks.unique (htab ▸ ht'.inv.marks)
  · rw [hsw.lockNest, lockNest_onTurn, lockNest_onTurn]

/-- **One turn**: the next of the round runs, and the last one goes to its end. -/
theorem OnTop.schedule_turn (h : OnTop s c) {r : List ι} (hr : r.Perm (s.round c)) :
    rtSchedule (s.onTurn (s.thread c).currentPriority r) =
      some (s.onTurn (s.thread c).currentPriority (r.rotate 1)) := by
  obtain ⟨a, l, rfl⟩ := List.exists_cons_of_ne_nil (l := r) fun e => by
    rw [e] at hr
    exact List.cons_ne_nil _ _ hr.symm.eq_nil
  have ht := h.turn hr
  have hswitch := fun b l' (e : l = b :: l') => h.switch_turn (e ▸ hr)
  set p := (s.thread c).currentPriority with hp
  have htable : (s.onTurn p (a :: l)).table p = l := Function.update_self ..
  have ha : ((s.onTurn p (a :: l)).thread a).currentPriority = p := by
    rw [priority_of_body (body_onTurn p _ a)]
    rcases h.mem_round.mp (hr.mem_iff.mp List.mem_cons_self) with rfl | h'
    · rfl
    · exact h'.2
  have hfirst : ∀ b l', l = b :: l' → ((s.onTurn p (a :: l)).thread b).Ready ∧
      ((s.onTurn p (a :: l)).thread b).currentPriority = p := fun b l' e =>
    (ht.inv.mem b p).mp (by rw [htable, e]; exact List.mem_cons_self)
  rcases schedule_cases ht.inv ht.current with
    ⟨hno, hs⟩ | ⟨-, -, hless, hs⟩ | ⟨-, j, hhead, hj, -, -, hle, hs⟩
  · rcases l with _ | ⟨b, l⟩
    · rw [List.rotate_singleton]
      exact hs
    · exact absurd (hfirst b l rfl).1 (hno.resolve_left (not_not.mpr ht.lockNest) b)
  · rcases l with _ | ⟨b, l⟩
    · rw [List.rotate_singleton]
      exact hs
    · have := hless b (hfirst b l rfl).1
      rw [ha, (hfirst b l rfl).2] at this
      exact absurd this (Nat.lt_irrefl _)
  · have hjp : ((s.onTurn p (a :: l)).thread j).currentPriority = p :=
      Fin.le_antisymm (ha ▸ hle ht.running) (ha ▸ ht.top j hj)
    rw [hjp, htable] at hhead
    rcases l with _ | ⟨b, l⟩
    · cases hhead
    · obtain rfl : b = j := Option.some.inj hhead
      rw [hs, hswitch b l rfl]
      rfl

theorem OnTop.times_turn (h : OnTop s c) (n : Nat) :
    times rtSchedule n s = some (s.onTurn (s.thread c).currentPriority ((s.round c).rotate n)) := by
  induction n with
  | zero =>
    rw [List.rotate_zero, h.onTurn_round]
    rfl
  | succ n ih =>
    rw [times_add_some ih, ← List.rotate_rotate]
    exact (times_succ (h.schedule_turn (List.rotate_perm _ n)) 0)

/-- **Threads of one priority take turns.**  As long as nobody more urgent is ready, each
`rt_thread_yield` hands over to the next of the round, and when everyone has had his turn everything
is as it was. -/
theorem yield_turns (h : OnTop s c) :
    (∀ n i, (s.round c)[n]? = some i →
      ∃ t, times rtSchedule n s = some t ∧ t.current = some i ∧ (t.thread i).Running) ∧
    times rtSchedule (s.round c).length s = some s := by
  refine ⟨fun n i hi => ?_, ?_⟩
  · obtain ⟨hn, hget⟩ := List.getElem?_eq_some_iff.mp hi
    have hhead : ((s.round c).rotate n).head? = some i := by
      rw [List.head?_rotate hn, hi]
    obtain ⟨l, hl⟩ : ∃ l, (s.round c).rotate n = i :: l := by
      cases hrot : (s.round c).rotate n with
      | nil => rw [hrot] at hhead; cases hhead
      | cons a l => rw [hrot] at hhead; cases hhead; exact ⟨l, rfl⟩
    rw [h.times_turn n, hl]
    exact ⟨_, rfl, rfl, stat_onTurn_self⟩
  · rw [h.times_turn, List.rotate_length, h.onTurn_round]

/-! ## time slices -/

theorem tickSlice_eq (hc : s.current = some c) : rtTickSlice s =
    if (s.thread c).remainingTick - 1 = 0 then
      rtSchedule (s.edit c fun t => { t with remainingTick := t.initTick })
    else some (s.edit c fun t => { t with remainingTick := t.remainingTick - 1 }) := by
  rw [rtTickSlice, hc, Option.bind_some]
  dsimp only
  rw [thread_edit_self, edit_edit]

theorem toNat_sub_ofNat {m : BitVec 32} {k : Nat} (hk : k ≤ m.toNat) :
    (m - BitVec.ofNat 32 k).toNat = m.toNat - k := by
  have hm := m.isLt
  rw [BitVec.toNat_sub_of_le, BitVec.toNat_ofNat, Nat.mod_eq_of_lt (by omega)]
  rw [BitVec.le_def, BitVec.toNat_ofNat, Nat.mod_eq_of_lt (by omega)]
  exact hk

theorem sub_ofNat_succ (m : BitVec 32) (k : Nat) :
    m - BitVec.ofNat 32 k - 1 = m - BitVec.ofNat 32 (k + 1) := by
  rw [BitVec.ofNat_add]
  bv_omega

/-- before its time slice is over a thread runs on -/
theorem slice_run (hc : s.current = some c) {k : Nat} (hk : k < (s.thread c).remainingTick.toNat) :
    times rtTickSlice k s =
      some (s.edit c fun t => { t with remainingTick := t.remainingTick - BitVec.ofNat 32 k }) := by
  induction k with
  | zero => exact congrArg some (edit_eq_self (by rw [BitVec.sub_zero])).symm
  | succ k ih =>
    have hne : (s.thread c).remainingTick - BitVec.ofNat 32 (k + 1) ≠ 0 := fun e => (by
      have := toNat_sub_ofNat (Nat.le_of_lt hk)
      rw [e] at this
      have h0 : (0 : BitVec 32).toNat = 0 := rfl
      omega)
    rw [times_add_some (ih (Nat.lt_of_succ_lt hk))]
    refine times_succ ?_ 0
    rw [tickSlice_eq (s := s.edit c _) hc, thread_edit_self, sub_ofNat_succ, if_neg hne, edit_edit]
    simp only [sub_ofNat_succ]

theorem reload_full {t : Thread} (h : t.remainingTick = t.initTick) :
    { t with remainingTick := t.initTick } = t := by
  cases t
  cases h
  rfl

/-- the whole time slice -/
theorem slice_full (hc : s.current = some c)
    (hfull : (s.thread c).remainingTick = (s.thread c).initTick) (hpos : (s.thread c).initTick ≠ 0) :
    times rtTickSlice (s.thread c).initTick.toNat s = rtSchedule s := by
  obtain ⟨n, hn⟩ := Nat.exists_eq_succ_of_ne_zero fun e => hpos (BitVec.eq_of_toNat_eq e)
  have hlast : (s.thread c).remainingTick - BitVec.ofNat 32 (n + 1) = 0 := by
    apply BitVec.eq_of_toNat_eq
    rw [toNat_sub_ofNat (by rw [hfull, hn]), hfull, hn]
    exact Nat.sub_self _
  have hreload : s.edit c (fun t => { t with remainingTick := t.initTick }) = s :=
    edit_eq_self (reload_full hfull)
  rw [hn, Nat.succ_eq_add_one, times_add_some (slice_run hc (by rw [hfull, hn]; omega)), times]
  rw [tickSlice_eq (s := s.edit c _) hc, thread_edit_self, sub_ofNat_succ, if_pos hlast, edit_edit]
  dsimp only
  rw [hreload]
  cases rtSchedule s <;> rfl

/-- the ticks that a list of threads has in one round -/
def Sched.ticks (s : Sched ι) (l : List ι) : Nat := (l.map fun i => (s.thread i).initTick.toNat).sum

theorem OnTop.slices_turn (h : OnTop s c)
    (hfull : ∀ i ∈ s.round c, (s.thread i).remainingTick = (s.thread i).initTick ∧
      (s.thread i).initTick ≠ 0) (l₁ : List ι) :
    ∀ l₂, s.round c = l₁ ++ l₂ → times rtTickSlice (s.ticks l₁) s =
      some (s.onTurn (s.thread c).currentPriority (l₂ ++ l₁)) := by
  induction l₁ using List.reverseRecOn with
  | nil =>
    intro l₂ hl
    rw [List.append_nil, ← List.nil_append l₂, ← hl, h.onTurn_round]
    rfl
  | append_singleton l a ih =>
    intro l₂ hl
    rw [List.append_assoc, List.singleton_append] at hl
    have hticks : s.ticks (l ++ [a]) = s.ticks l + (s.thread a).initTick.toNat := by
      simp [Sched.ticks]
    have hr : (a :: (l₂ ++ l)).Perm (s.round c) := by
      rw [hl, ← List.cons_append]
      exact List.perm_append_comm
    have hbody := body_onTurn (s := s) (s.thread c).currentPriority (a :: (l₂ ++ l)) a
    obtain ⟨hf, hpos⟩ := hfull a (hl ▸ List.mem_append_right _ List.mem_cons_self)
    have hinit : ((s.onTurn (s.thread c).currentPriority (a :: (l₂ ++ l))).thread a).initTick =
        (s.thread a).initTick := (congrArg Thread.initTick hbody :)
    have hrem : ((s.onTurn (s.thread c).currentPriority (a :: (l₂ ++ l))).thread a).remainingTick =
        (s.thread a).remainingTick := (congrArg Thread.remainingTick hbody :)
    rw [hticks, times_add_some (ih (a :: l₂) hl), List.cons_append, ← hinit,
      slice_full rfl (by rw [hrem, hinit, hf]) (by rw [hinit]; exact hpos), h.schedule_turn hr]
    simp [List.rotate_cons_succ]

/-! ## ticks -/

/-- at none of the next `n` ticks the first timer of the list has expired -/
def TimerSt.NoneDue (t : TimerSt ι) (n : Nat) : Prop :=
  ∀ m < n, ∀ i ∈ t.list.head?,
    ¬ t.rtTick + BitVec.ofNat 32 (m + 1) - (t.timer i).timeoutTick < halfTick

instance (t : TimerSt ι) (n : Nat) : Decidable (t.NoneDue n) :=
  inferInstanceAs (Decidable (∀ m < n, ∀ i ∈ t.list.head?, ¬ _))

/-- `n` ticks later -/
def TimerSt.later (t : TimerSt ι) (n : Nat) : TimerSt ι :=
  { t with rtTick := t.rtTick + BitVec.ofNat 32 n }

theorem TimerSt.NoneDue.mono {t : TimerSt ι} {m n : Nat} (h : t.NoneDue n) (hm : m ≤ n) :
    t.NoneDue m :=
  fun k hk => h k (Nat.lt_of_lt_of_le hk hm)

theorem later_succ (t : TimerSt ι) (n : Nat) :
    (t.later n).rtTick + 1 = (t.later (n + 1)).rtTick := by
  show t.rtTick + BitVec.ofNat 32 n + 1 = t.rtTick + BitVec.ofNat 32 (n + 1)
  rw [BitVec.ofNat_add, BitVec.add_assoc]
  rfl

/-- `rt_timer_check` finds nothing to do -/
theorem tickTimers_later {σ : Type*} {t : TimerSt ι} {n : Nat} (h : t.NoneDue (n + 1))
    (timeout : ι → σ → Option σ) (x : σ) :
    rtTickTimers timeout (t.later n) x = some (t.later (n + 1), x) := by
  have hdue := h n (Nat.lt_succ_self n)
  have e : { t.later n with rtTick := (t.later n).rtTick + 1 } = t.later (n + 1) := by
    rw [later_succ]
    rfl
  unfold rtTickTimers
  rw [e, rtTimerCheck]
  cases hl : t.list with
  | nil =>
    have hlist : (t.later (n + 1)).list = [] := hl
    rw [hlist]
  | cons i l =>
    have hlist : (t.later (n + 1)).list = i :: l := hl
    rw [hlist]
    exact if_neg (hdue i (by rw [hl]; rfl))

/-- as long as no timer expires, the ticks are their time slices -/
theorem times_tickIncrease {k : KernelSt ι} {n : Nat} (h : k.timers.NoneDue n) :
    times rtTickIncrease n k =
      (times rtTickSlice n k.sched).map fun s => ⟨s, k.timers.later n, k.now + n⟩ := by
  induction n with
  | zero =>
    have e : k.timers.later 0 = k.timers := by
      unfold TimerSt.later
      rw [BitVec.add_zero]
    show some k = some _
    rw [e]
    rfl
  | succ n ih =>
    rw [times_add, times_add, ih (h.mono (Nat.le_succ n))]
    cases times rtTickSlice n k.sched with
    | none => rfl
    | some s =>
      show (rtTickIncrease ⟨s, k.timers.later n, k.now + n⟩).bind some =
        ((rtTickSlice s).bind some).map _
      rw [Option.bind_fun_some, Option.bind_fun_some]
      unfold rtTickIncrease
      dsimp only
      cases rtTickSlice s with
      | none => rfl
      | some s' =>
        rw [Option.bind_some, tickTimers_later h]
        rfl

/-- **Each thread has its time slice.**  Threads of one priority, as long as nobody more urgent is
ready and no timer expires: each one runs for its `init_tick` ticks in a row, and after the sum of
these the threads, the lists and the current thread are as they were. -/
theorem slices_share {k : KernelSt ι} (h : OnTop k.sched c)
    (hfull : ∀ i ∈ k.sched.round c, (k.sched.thread i).remainingTick = (k.sched.thread i).initTick ∧
      (k.sched.thread i).initTick ≠ 0)
    (hdue : k.timers.NoneDue (k.sched.ticks (k.sched.round c))) :
    (∀ l₁ i l₂, k.sched.round c = l₁ ++ i :: l₂ → ∀ n < (k.sched.thread i).initTick.toNat,
      ∃ t, times rtTickIncrease (k.sched.ticks l₁ + n) k = some t ∧ t.sched.current = some i ∧
        (t.sched.thread i).Running) ∧
    ∃ t, times rtTickIncrease (k.sched.ticks (k.sched.round c)) k = some t ∧ t.sched = k.sched := by
  refine ⟨fun l₁ i l₂ hl n hn => ?_, ?_⟩
  · have hi := hfull i (hl ▸ List.mem_append_right _ List.mem_cons_self)
    have hbody := body_onTurn (s := k.sched) (k.sched.thread c).currentPriority (i :: (l₂ ++ l₁)) i
    have hrem : ((k.sched.onTurn (k.sched.thread c).currentPriority
        (i :: (l₂ ++ l₁))).thread i).remainingTick = (k.sched.thread i).remainingTick :=
      (congrArg Thread.remainingTick hbody :)
    have hsum : k.sched.ticks l₁ + n ≤ k.sched.ticks (k.sched.round c) := by
      rw [hl]
      unfold Sched.ticks
      simp only [List.map_append, List.sum_append, List.map_cons, List.sum_cons]
      omega
    rw [times_tickIncrease (hdue.mono hsum), times_add_some (h.slices_turn hfull l₁ (i :: l₂) hl) n,
      List.cons_append, slice_run (c := i) rfl (by rw [hrem, hi.1]; exact hn)]
    refine ⟨_, rfl, rfl, ?_⟩
    dsimp only
    rw [Thread.Running, thread_edit_self]
    exact stat_onTurn_self
  · rw [times_tickIncrease hdue, h.slices_turn hfull (k.sched.round c) [] (List.append_nil _).symm,
      List.nil_append, h.onTurn_round]
    exact ⟨_, rfl, rfl⟩

end

/-- two threads of priority 10, the first one running, with slices of 2 and 3 ticks, a more urgent
one that sleeps until the tick 100, and the idle thread -/
def twoSlices : KernelSt (Fin 4) :=
  ⟨⟨fun i =>
      if i = 0 then ⟨.running, 10, 10, 1024, 2, 2, rtEok⟩
      else if i = 1 then ⟨.ready, 10, 10, 1024, 3, 3, rtEok⟩
      else if i = 2 then ⟨.suspend, 5, 5, 32, 5, 5, rtEok⟩
      else ⟨.ready, 31, 31, 2147483648, 32, 32, rtEok⟩,
    fun p => if p = 10 then [1] else if p = 31 then [3] else [], 2147484672, some 0, 0⟩,
    ⟨0, [2], fun i => if i = 2 then ⟨100, 100, false, true⟩ else rtTimerInit 0 false⟩, 0⟩

theorem onTop_twoSlices : OnTop twoSlices.sched 0 := by
  have hlive : ∀ b, (twoSlices.sched.thread b).numberMask =
      1#32 <<< (twoSlices.sched.thread b).currentPriority.val := by decide
  have hmem : ∀ i p, i ∈ twoSlices.sched.table p ↔ (twoSlices.sched.thread i).stat = .ready ∧
      (twoSlices.sched.thread i).currentPriority = p := by
    decide +kernel
  have hmarks : ∀ p : Fin 32,
      twoSlices.sched.group.getLsbD p = true ↔ twoSlices.sched.table p ≠ [] := by
    decide +kernel
  have hnodup : ∀ p, (twoSlices.sched.table p).Nodup := by decide +kernel
  have hrun : ∀ i, (twoSlices.sched.thread i).stat = .running →
      twoSlices.sched.current = some i := by decide
  have hcur : ∀ c, twoSlices.sched.current = some c →
      (twoSlices.sched.thread c).stat ≠ .ready ∧ (twoSlices.sched.thread c).stat ≠ .init := by
    decide
  have htop : ∀ i, (twoSlices.sched.thread i).stat = .ready →
      (twoSlices.sched.thread 0).currentPriority ≤ (twoSlices.sched.thread i).currentPriority := by
    decide
  exact ⟨⟨⟨hmarks, hmem, hnodup, fun i _ => hlive i⟩, hrun, hcur⟩, rfl, rfl, rfl, htop⟩

theorem slices_share_two :
    (∀ l₁ i l₂, twoSlices.sched.round 0 = l₁ ++ i :: l₂ →
      ∀ n < (twoSlices.sched.thread i).initTick.toNat, ∃ t,
        times rtTickIncrease (twoSlices.sched.ticks l₁ + n) twoSlices = some t ∧
          t.sched.current = some i ∧ (t.sched.thread i).Running) ∧
    ∃ t, times rtTickIncrease (twoSlices.sched.ticks (twoSlices.sched.round 0)) twoSlices = some t ∧
      t.sched = twoSlices.sched :=
  slices_share onTop_twoSlices (by decide) (by decide +kernel)

end ENV
