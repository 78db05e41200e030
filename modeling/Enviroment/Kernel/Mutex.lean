import Enviroment.Kernel.Ipc
import Enviroment.Lib.Trace

/-!
# A mutex between any number of threads (`ipc.c`)

The owner may take the mutex again: `hold` counts that in eight bits.  A thread that waits lends the
owner its priority, and a release hands the mutex to the first thread of the list.

* `rtMutexTake`, `rtMutexRelease`   the calls, each taken as one step;
* `MutexInv`         who owns, who waits, and whose priority is changed;
* `mutex_owned_iff`  whoever is inside owns the mutex: exactly as long as no release finds `hold`
                     wrapped round to `1`;
* `mutex_lent_iff`   the owner is as urgent as each of the waiting: exactly as long as the mutex is
                     not handed past a more urgent one, which `RT_IPC_FLAG_PRIO` rules out.
-/

set_option linter.unusedSectionVars false

namespace ENV

open Trace

inductive MutexPc where
  /-- the last call has returned `ret` -/
  | idle (ret : RtErr)
  /-- suspended in `rt_mutex_take(mutex, time)` -/
  | asleep (time : Int)

/-- `struct rt_mutex`, and the threads -/
structure MutexSt (ι : Type*) where
  value : Nat
  owner : Option ι
  /-- `original_priority` -/
  orig : Nat
  hold : Byte
  /-- `suspend_thread` -/
  waiting : List ι
  /-- `current_priority`; a lower number is more urgent -/
  cur : ι → Nat
  pc : ι → MutexPc
  /-- bookkeeping: the takes of a thread that it has not released -/
  depth : ι → Nat

section
variable {ι : Type*} [DecidableEq ι]

/-- `rt_mutex_create(name, flag)` -/
def rtMutexCreate (base : ι → Nat) : MutexSt ι :=
  ⟨1, none, 0xff, 0, [], base, fun _ => .idle rtEok, fun _ => 0⟩

/-- a more urgent thread lends the owner its priority -/
def MutexSt.lend (s : MutexSt ι) (i : ι) : MutexSt ι :=
  match s.owner with
  | some o => if s.cur i < s.cur o then { s with cur := Function.update s.cur o (s.cur i) } else s
  | none => s

/-- `rt_mutex_take(mutex, time)` by `i` -/
def rtMutexTake (flag : IpcFlag) (s : MutexSt ι) (i : ι) (time : Int) : MutexSt ι :=
  if s.owner = some i then
    { s with
      hold := s.hold + 1
      pc := Function.update s.pc i (.idle rtEok)
      depth := Function.update s.depth i (s.depth i + 1) }
  else if s.value > 0 then
    { s with
      value := s.value - 1
      owner := some i
      orig := s.cur i
      hold := s.hold + 1
      pc := Function.update s.pc i (.idle rtEok)
      depth := Function.update s.depth i (s.depth i + 1) }
  else if time = 0 then { s with pc := Function.update s.pc i (.idle (-rtEtimeout)) }
  else
    let s := s.lend i
    { s with
      waiting := rtIpcListSuspend s.cur flag s.waiting i
      pc := Function.update s.pc i (.asleep time) }

/-- the owner `i` has released the mutex for the last time -/
def MutexSt.handOff (s : MutexSt ι) (i : ι) : MutexSt ι :=
  let s := { s with cur := Function.update s.cur i s.orig }
  match s.waiting with
  | j :: l =>
    { s with
      owner := some j
      orig := s.cur j
      hold := s.hold + 1
      waiting := l
      pc := Function.update s.pc j (.idle rtEok)
      depth := Function.update s.depth j (s.depth j + 1) }
  | [] => { s with value := s.value + 1, owner := none, orig := 0xff }

/-- `rt_mutex_release(mutex)` by `i` -/
def rtMutexRelease (s : MutexSt ι) (i : ι) : MutexSt ι :=
  if s.owner = some i then
    let s := { s with
      hold := s.hold - 1
      pc := Function.update s.pc i (.idle rtEok)
      depth := Function.update s.depth i (s.depth i - 1) }
    if s.hold = 0 then s.handOff i else s
  else { s with pc := Function.update s.pc i (.idle (-rtError)) }

inductive MutexAct (ι : Type*) where
  | take (i : ι) (time : Int)
  | release (i : ι)
  /-- the timer of `i` -/
  | expire (i : ι)

def mutexStep (flag : IpcFlag) (s : MutexSt ι) : MutexAct ι → Option (MutexSt ι)
  | .take i time =>
    match s.pc i with
    | .idle _ => some (rtMutexTake flag s i time)
    | .asleep _ => none
  | .release i =>
    match s.pc i with
    | .idle _ => some (rtMutexRelease s i)
    | .asleep _ => none
  | .expire i =>
    match s.pc i with
    | .asleep time =>
      if time > 0 then
        some { s with
          waiting := s.waiting.erase i
          pc := Function.update s.pc i (.idle (-rtEtimeout)) }
      else none
    | .idle _ => none

/-! ## who owns, who waits -/

def MutexPc.Asleep : MutexPc → Prop
  | .asleep _ => True
  | .idle _ => False

structure MutexInv (base : ι → Nat) (flag : IpcFlag) (s : MutexSt ι) : Prop where
  free : s.owner = none → s.value = 1 ∧ s.hold = 0 ∧ s.waiting = []
  held : ∀ o, s.owner = some o →
    s.value = 0 ∧ s.orig = base o ∧ s.cur o ≤ base o ∧ ¬ (s.pc o).Asleep
  others : ∀ i, s.owner ≠ some i → s.cur i = base i
  waiting : ∀ i, i ∈ s.waiting ↔ (s.pc i).Asleep
  nodup : s.waiting.Nodup
  urgent : flag = .prio → Urgent s.cur s.waiting

variable {base : ι → Nat} {flag : IpcFlag} {s : MutexSt ι}

theorem mutexInv_create (base : ι → Nat) (flag : IpcFlag) :
    MutexInv base flag (rtMutexCreate base) :=
  ⟨fun _ => ⟨rfl, rfl, rfl⟩, fun o h => (by cases h), fun _ _ => rfl,
    fun i => ⟨fun h => (by cases h), fun h => h.elim⟩, List.nodup_nil, fun _ => List.Pairwise.nil⟩

/-- a thread moves from one place outside the list to another -/
theorem asleep_update {pc : ι → MutexPc} {i : ι} {x : MutexPc} (h : x.Asleep ↔ (pc i).Asleep)
    (j : ι) : (Function.update pc i x j).Asleep ↔ (pc j).Asleep := by
  by_cases hj : j = i
  · rw [hj, Function.update_self]
    exact h
  · rw [Function.update_of_ne hj]

/-- the list is in order for priorities that are the same on it -/
theorem urgent_congr {prio prio' : ι → Nat} {l : List ι} (h : Urgent prio l)
    (he : ∀ i ∈ l, prio' i = prio i) : Urgent prio' l := by
  refine List.Pairwise.imp_of_mem ?_ h
  intro i j hi hj hij
  rw [he i hi, he j hj]
  exact hij

/-- the priorities after a loan -/
theorem lend_eq (s : MutexSt ι) (i : ι) :
    ∃ cur, s.lend i = { s with cur := cur } ∧
      (∀ o, s.owner = some o → cur o = min (s.cur i) (s.cur o)) ∧
      ∀ j, s.owner ≠ some j → cur j = s.cur j := by
  obtain ⟨value, owner, orig, hold, waiting, cur, pc, depth⟩ := s
  unfold MutexSt.lend
  cases owner with
  | none => exact ⟨cur, rfl, fun o h => (by cases h), fun _ _ => rfl⟩
  | some o =>
    dsimp only
    split
    next hlt =>
      refine ⟨_, rfl, fun o' h => ?_, fun j hj => ?_⟩
      · cases h
        rw [Function.update_self]
        exact (Nat.min_eq_left (Nat.le_of_lt hlt)).symm
      · have hne : j ≠ o := fun e => hj (by rw [e])
        exact Function.update_of_ne hne ..
    next hge =>
      refine ⟨cur, rfl, fun o' h => ?_, fun _ _ => rfl⟩
      cases h
      exact (Nat.min_eq_right (Nat.not_lt.mp hge)).symm

theorem MutexInv.owner_not_mem (h : MutexInv base flag s) {o : ι} (ho : s.owner = some o) :
    o ∉ s.waiting := fun hm => (h.held o ho).2.2.2 ((h.waiting o).mp hm)

theorem mutexInv_take {i : ι} (h : MutexInv base flag s) (hi : ¬ (s.pc i).Asleep) (time : Int) :
    MutexInv base flag (rtMutexTake flag s i time) := by
  have hpc : ∀ r j, (Function.update s.pc i (.idle r) j).Asleep ↔ (s.pc j).Asleep := fun r =>
    asleep_update (iff_of_false (fun hc => hc.elim) hi)
  unfold rtMutexTake
  split
  next ho =>
    refine ⟨fun hn => ?_, fun o hown => ?_, h.others, fun j => ?_, h.nodup, h.urgent⟩
    · rw [ho] at hn
      cases hn
    · obtain ⟨h1, h2, h3, h4⟩ := h.held o hown
      exact ⟨h1, h2, h3, fun hc => h4 ((hpc _ o).mp hc)⟩
    · exact (h.waiting j).trans (hpc _ j).symm
  next hne =>
    split
    next hv =>
      have hnone : s.owner = none := by
        cases ho : s.owner with
        | none => rfl
        | some o =>
          have := (h.held o ho).1
          omega
      obtain ⟨hval, -, -⟩ := h.free hnone
      have hcur := h.others i hne
      refine ⟨fun hn => (by cases hn), fun o hown => ?_, fun j hj => h.others j ?_, fun j => ?_, h.nodup,
        h.urgent⟩
      · cases hown
        exact ⟨by show s.value - 1 = 0; omega, hcur, Nat.le_of_eq hcur, fun hc => hi ((hpc _ i).mp hc)⟩
      · rw [hnone]
        exact fun e => (by cases e)
      · exact (h.waiting j).trans (hpc _ j).symm
    next hv =>
      split
      next =>
        refine ⟨h.free, fun o hown => ?_, h.others, fun j => ?_, h.nodup, h.urgent⟩
        · obtain ⟨h1, h2, h3, h4⟩ := h.held o hown
          exact ⟨h1, h2, h3, fun hc => h4 ((hpc _ o).mp hc)⟩
        · exact (h.waiting j).trans (hpc _ j).symm
      next =>
        obtain ⟨cur, he, hlent, hsame⟩ := lend_eq s i
        have hmem : i ∉ s.waiting := fun hm => hi ((h.waiting i).mp hm)
        have hperm := suspend_perm cur flag s.waiting i
        rw [he]
        dsimp only
        refine ⟨fun hn => ?_, fun o hown => ?_, fun j hj => ?_, fun j => ?_, ?_, fun hflag => ?_⟩
        · have := (h.free hn).1
          omega
        · obtain ⟨h1, h2, h3, h4⟩ := h.held o hown
          have hoi : o ≠ i := fun e => hne (e ▸ hown)
          refine ⟨h1, h2, ?_, ?_⟩
          · show cur o ≤ base o
            rw [hlent o hown]
            omega
          · show ¬ (Function.update s.pc i _ o).Asleep
            rw [Function.update_of_ne hoi]
            exact h4
        · exact (hsame j hj).trans (h.others j hj)
        · dsimp only
          rw [hperm.mem_iff, List.mem_cons, h.waiting]
          by_cases hj : j = i
          · rw [hj, Function.update_self]
            exact iff_of_true (Or.inl rfl) trivial
          · rw [Function.update_of_ne hj]
            exact or_iff_right hj
        · exact hperm.nodup_iff.mpr (List.nodup_cons.mpr ⟨hmem, h.nodup⟩)
        · subst hflag
          refine insertPrio_urgent cur (urgent_congr (h.urgent rfl) fun j hj => hsame j fun hown => ?_) i
          exact h.owner_not_mem hown hj

theorem mutexInv_handOff {i : ι} {hold : Byte} {pc : ι → MutexPc} {depth : ι → Nat}
    (h : MutexInv base flag s) (ho : s.owner = some i) (h0 : hold = 0)
    (hpc : ∀ j, (pc j).Asleep ↔ (s.pc j).Asleep) :
    MutexInv base flag (MutexSt.handOff { s with hold := hold, pc := pc, depth := depth } i) := by
  obtain ⟨hval, horig, -, hiasleep⟩ := h.held i ho
  have hmem := h.owner_not_mem ho
  have hcur : ∀ j ∈ s.waiting, Function.update s.cur i s.orig j = s.cur j := by
    intro j hj
    have hne : j ≠ i := fun e => hmem (e ▸ hj)
    exact Function.update_of_ne hne ..
  have hbase : ∀ j, Function.update s.cur i s.orig j = base j := by
    intro j
    by_cases hj : j = i
    · rw [hj, Function.update_self, horig]
    · rw [Function.update_of_ne hj]
      exact h.others j fun e => hj (Option.some.inj (e.symm.trans ho))
  unfold MutexSt.handOff
  dsimp only
  cases hw : s.waiting with
  | nil =>
    refine ⟨fun _ => ⟨by show s.value + 1 = 1; omega, h0, rfl⟩, fun o hn => (by cases hn),
      fun j _ => hbase j, fun j => ?_, List.nodup_nil, fun _ => List.Pairwise.nil⟩
    have hj := (h.waiting j).trans (hpc j).symm
    rw [hw] at hj
    exact hj
  | cons j l =>
    have hj : j ∈ s.waiting := hw ▸ List.mem_cons_self
    have hnd := h.nodup
    rw [hw] at hnd
    obtain ⟨hjl, hl⟩ := List.nodup_cons.mp hnd
    refine ⟨fun hn => (by cases hn), fun o hown => ?_, fun k _ => hbase k, fun k => ?_, hl, fun hflag => ?_⟩
    · cases hown
      refine ⟨hval, hbase j, Nat.le_of_eq (hbase j), ?_⟩
      dsimp only
      rw [Function.update_self]
      exact fun hc => hc.elim
    · dsimp only
      by_cases hk : k = j
      · rw [hk, Function.update_self]
        exact iff_of_false hjl fun hc => hc.elim
      · rw [Function.update_of_ne hk, hpc, ← h.waiting, hw, List.mem_cons]
        exact (or_iff_right hk).symm
    · have hu := h.urgent hflag
      rw [hw] at hu
      exact urgent_congr (List.pairwise_cons.mp hu).2 fun k hk => hcur k (hw ▸ List.mem_cons_of_mem j hk)

theorem mutexInv_release {i : ι} (h : MutexInv base flag s) (hi : ¬ (s.pc i).Asleep) :
    MutexInv base flag (rtMutexRelease s i) := by
  have hpc : ∀ r j, (Function.update s.pc i (.idle r) j).Asleep ↔ (s.pc j).Asleep := fun r =>
    asleep_update (iff_of_false (fun hc => hc.elim) hi)
  unfold rtMutexRelease
  split
  next ho =>
    dsimp only
    split
    next h0 => exact mutexInv_handOff h ho h0 (hpc _)
    next =>
      refine ⟨fun hn => ?_, fun o hown => ?_, h.others, fun j => ?_, h.nodup, h.urgent⟩
      · rw [ho] at hn
        cases hn
      · obtain ⟨h1, h2, h3, h4⟩ := h.held o hown
        exact ⟨h1, h2, h3, fun hc => h4 ((hpc _ o).mp hc)⟩
      · exact (h.waiting j).trans (hpc _ j).symm
  next =>
    refine ⟨h.free, fun o hown => ?_, h.others, fun j => ?_, h.nodup, h.urgent⟩
    · obtain ⟨h1, h2, h3, h4⟩ := h.held o hown
      exact ⟨h1, h2, h3, fun hc => h4 ((hpc _ o).mp hc)⟩
    · exact (h.waiting j).trans (hpc _ j).symm

theorem mutexInv_step (s : MutexSt ι) (a : MutexAct ι) (t : MutexSt ι) (h : MutexInv base flag s)
    (ht : mutexStep flag s a = some t) : MutexInv base flag t := by
  cases a with
  | take i time =>
    unfold mutexStep at ht
    dsimp only at ht
    cases hpc : s.pc i with
    | idle r =>
      rw [hpc] at ht
      cases ht
      exact mutexInv_take h (by rw [hpc]; exact fun hc => hc.elim) time
    | asleep _ =>
      rw [hpc] at ht
      cases ht
  | release i =>
    unfold mutexStep at ht
    dsimp only at ht
    cases hpc : s.pc i with
    | idle r =>
      rw [hpc] at ht
      cases ht
      exact mutexInv_release h (by rw [hpc]; exact fun hc => hc.elim)
    | asleep _ =>
      rw [hpc] at ht
      cases ht
  | expire i =>
    unfold mutexStep at ht
    dsimp only at ht
    cases hpc : s.pc i with
    | idle r =>
      rw [hpc] at ht
      cases ht
    | asleep time =>
      rw [hpc] at ht
      dsimp only at ht
      split at ht
      next =>
        cases ht
        have hasleep : (s.pc i).Asleep := by
          rw [hpc]
          trivial
        have hmem : i ∈ s.waiting := (h.waiting i).mpr hasleep
        refine ⟨fun hn => ?_, fun o hown => ?_, h.others, fun j => ?_, h.nodup.erase i, fun hflag => ?_⟩
        · rw [(h.free hn).2.2] at hmem
          cases hmem
        · obtain ⟨h1, h2, h3, h4⟩ := h.held o hown
          have hne : o ≠ i := fun e => h4 (e ▸ hasleep)
          refine ⟨h1, h2, h3, ?_⟩
          dsimp only
          rw [Function.update_of_ne hne]
          exact h4
        · dsimp only
          rw [h.nodup.mem_erase_iff, h.waiting]
          by_cases hj : j = i
          · rw [hj, Function.update_self]
            exact iff_of_false (fun hc => hc.1 rfl) fun hc => hc.elim
          · rw [Function.update_of_ne hj]
            exact and_iff_right hj
        · exact (h.urgent hflag).sublist List.erase_sublist
      next => cases ht

/-! ## who is inside -/

/-- whoever is inside owns the mutex -/
def OwnedByInside (s : MutexSt ι) : Prop := ∀ i, 0 < s.depth i → s.owner = some i

/-- `hold` counts the takes of the owner -/
structure Exclusive (s : MutexSt ι) : Prop where
  one : OwnedByInside s
  count : ∀ o, s.owner = some o → 0 < s.depth o ∧ s.hold = BitVec.ofNat 8 (s.depth o)

/-- a release that finds `hold = 1` is the last one -/
def TrueLast (s : MutexSt ι) : MutexAct ι → Prop
  | .release i => s.owner = some i → s.depth i % 256 = 1 → s.depth i = 1
  | _ => True

theorem ofNat_succ (d : Nat) : BitVec.ofNat 8 (d + 1) = BitVec.ofNat 8 d + 1 := BitVec.ofNat_add ..

theorem ofNat_pred {d : Nat} (hd : 0 < d) : BitVec.ofNat 8 d - 1 = BitVec.ofNat 8 (d - 1) := by
  obtain ⟨d, rfl⟩ := Nat.exists_eq_succ_of_ne_zero (Nat.ne_of_gt hd)
  rw [ofNat_succ, BitVec.add_sub_cancel]
  rfl

theorem ofNat_pred_eq_zero {d : Nat} (hd : 0 < d) : BitVec.ofNat 8 d - 1 = 0 ↔ d % 256 = 1 := by
  rw [ofNat_pred hd, ← BitVec.toNat_inj]
  simp only [BitVec.toNat_ofNat, BitVec.ofNat_eq_ofNat]
  omega

theorem exclusive_take {i : ι} (h : MutexInv base flag s) (hx : Exclusive s) (time : Int) :
    Exclusive (rtMutexTake flag s i time) := by
  unfold rtMutexTake
  split
  next ho =>
    obtain ⟨-, hhold⟩ := hx.count i ho
    refine ⟨fun j hj => ?_, fun o hown => ?_⟩
    · by_cases hji : j = i
      · exact hji ▸ ho
      · dsimp only at hj
        rw [Function.update_of_ne hji] at hj
        exact hx.one j hj
    · obtain rfl : i = o := Option.some.inj (ho.symm.trans hown)
      dsimp only
      rw [Function.update_self, ofNat_succ, hhold]
      exact ⟨Nat.succ_pos _, rfl⟩
  next hne =>
    split
    next hv =>
      have hnone : s.owner = none := by
        cases ho : s.owner with
        | none => rfl
        | some o =>
          have := (h.held o ho).1
          omega
      have hzero : ∀ j, s.depth j = 0 := by
        intro j
        by_contra hj
        have := hx.one j (Nat.pos_of_ne_zero hj)
        rw [hnone] at this
        cases this
      refine ⟨fun j hj => ?_, fun o hown => ?_⟩
      · by_cases hji : j = i
        · rw [hji]
        · dsimp only at hj
          rw [Function.update_of_ne hji, hzero] at hj
          cases hj
      · cases hown
        dsimp only
        rw [Function.update_self, hzero, (h.free hnone).2.1]
        exact ⟨Nat.one_pos, rfl⟩
    next =>
      split
      next => exact ⟨hx.one, hx.count⟩
      next =>
        obtain ⟨cur, he, -, -⟩ := lend_eq s i
        rw [he]
        exact ⟨hx.one, hx.count⟩

theorem exclusive_release {i : ι} (h : MutexInv base flag s) (hx : Exclusive s) :
    (TrueLast s (.release i) → Exclusive (rtMutexRelease s i)) ∧
      (OwnedByInside (rtMutexRelease s i) → TrueLast s (.release i)) := by
  unfold rtMutexRelease
  split
  next ho =>
    obtain ⟨hpos, hhold⟩ := hx.count i ho
    have hothers : ∀ j, j ≠ i → s.depth j = 0 := by
      intro j hj
      by_contra hd
      exact hj (Option.some.inj ((hx.one j (Nat.pos_of_ne_zero hd)).symm.trans ho))
    have hne : ∀ j ∈ s.waiting, j ≠ i := fun j hj e => h.owner_not_mem ho (e ▸ hj)
    dsimp only
    rw [hhold]
    split
    next h0 =>
      have hmod := (ofNat_pred_eq_zero hpos).mp h0
      constructor
      · intro hlast
        have h1 := hlast ho hmod
        have hzero : ∀ j, Function.update s.depth i (s.depth i - 1) j = 0 := by
          intro j
          by_cases hj : j = i
          · rw [hj, Function.update_self, h1]
          · rw [Function.update_of_ne hj]
            exact hothers j hj
        unfold MutexSt.handOff
        dsimp only
        cases hw : s.waiting with
        | nil =>
          refine ⟨fun j hj => ?_, fun o hown => (by cases hown)⟩
          dsimp only at hj
          rw [hzero] at hj
          cases hj
        | cons j l =>
          refine ⟨fun k hk => ?_, fun o hown => ?_⟩
          · dsimp only at hk ⊢
            by_cases hkj : k = j
            · rw [hkj]
            · rw [Function.update_of_ne hkj, hzero] at hk
              cases hk
          · cases hown
            dsimp only
            rw [Function.update_self, hzero, h0]
            exact ⟨Nat.one_pos, rfl⟩
      · intro hown _ _
        by_contra hd
        unfold MutexSt.handOff at hown
        dsimp only at hown
        have hin : 0 < Function.update s.depth i (s.depth i - 1) i := by
          rw [Function.update_self]
          omega
        cases hw : s.waiting with
        | nil =>
          rw [hw] at hown
          have := hown i hin
          cases this
        | cons j l =>
          have hji : i ≠ j := (hne j (hw ▸ List.mem_cons_self)).symm
          rw [hw] at hown
          have hin' : 0 < Function.update (Function.update s.depth i (s.depth i - 1)) j
              (Function.update s.depth i (s.depth i - 1) j + 1) i := by
            rw [Function.update_of_ne hji]
            exact hin
          exact hji (Option.some.inj (hown i hin')).symm
    next hn0 =>
      have hmod : s.depth i % 256 ≠ 1 := fun hm => hn0 ((ofNat_pred_eq_zero hpos).mpr hm)
      refine ⟨fun _ => ⟨fun j hj => ?_, fun o hown => ?_⟩, fun _ _ hm => absurd hm hmod⟩
      · by_cases hji : j = i
        · exact hji ▸ ho
        · dsimp only at hj
          rw [Function.update_of_ne hji] at hj
          exact hx.one j hj
      · obtain rfl : i = o := Option.some.inj (ho.symm.trans hown)
        dsimp only
        rw [Function.update_self, ofNat_pred hpos]
        exact ⟨by omega, rfl⟩
  next hne => exact ⟨fun _ => ⟨hx.one, hx.count⟩, fun _ ho => absurd ho hne⟩

theorem exclusive_step (s : MutexSt ι) (a : MutexAct ι) (t : MutexSt ι) (h : MutexInv base flag s)
    (hx : Exclusive s) (ht : mutexStep flag s a = some t) :
    (TrueLast s a → Exclusive t) ∧ (OwnedByInside t → TrueLast s a) := by
  cases a with
  | take i time =>
    refine ⟨fun _ => ?_, fun _ => trivial⟩
    unfold mutexStep at ht
    dsimp only at ht
    split at ht
    · cases ht
      exact exclusive_take h hx time
    · cases ht
  | release i =>
    unfold mutexStep at ht
    dsimp only at ht
    split at ht
    · cases ht
      exact exclusive_release h hx
    · cases ht
  | expire i =>
    refine ⟨fun _ => ?_, fun _ => trivial⟩
    unfold mutexStep at ht
    dsimp only at ht
    split at ht
    · split at ht
      · cases ht
        exact ⟨hx.one, hx.count⟩
      · cases ht
    · cases ht

/-- **Whoever has taken the mutex and not released it owns it**, in every state of a run, exactly if
no release finds `hold = 1` while the thread is inside 257 times, or 513 times, and so on. -/
theorem mutex_owned_iff (base : ι → Nat) (flag : IpcFlag) (as : List (MutexAct ι)) :
    Along (mutexStep flag) (fun _ _ t => OwnedByInside t) (rtMutexCreate base) as ↔
      Along (mutexStep flag) (fun s a _ => TrueLast s a) (rtMutexCreate base) as := by
  have h0 : Exclusive (rtMutexCreate base) :=
    ⟨fun i hi => absurd hi (Nat.lt_irrefl 0), fun o ho => (by cases ho)⟩
  refine (along_iff_of_step (I := fun s => MutexInv base flag s ∧ Exclusive s) ?_ ?_
    ⟨mutexInv_create base flag, h0⟩ as).symm
  · rintro s a t ⟨h, hx⟩ ht
    obtain ⟨h1, h2⟩ := exclusive_step s a t h hx ht
    exact ⟨fun hl => (h1 hl).one, h2⟩
  · rintro s a t ⟨h, hx⟩ ht hl
    exact ⟨mutexInv_step s a t h ht, (exclusive_step s a t h hx ht).1 hl⟩

/-! ## whose priority is lent -/

/-- the owner is as urgent as each thread that waits for it -/
def Lent (s : MutexSt ι) : Prop := ∀ o, s.owner = some o → ∀ j ∈ s.waiting, s.cur o ≤ s.cur j

/-- the mutex is handed to a thread that is as urgent as those behind it -/
def HandsFair (s : MutexSt ι) : MutexAct ι → Prop
  | .release i => s.owner = some i → s.hold = 1 →
      ∀ j ∈ s.waiting.head?, ∀ k ∈ s.waiting.tail, s.cur j ≤ s.cur k
  | _ => True

instance (s : MutexSt ι) : ∀ a, Decidable (HandsFair s a)
  | .release _ => inferInstanceAs (Decidable (_ → _ → ∀ _ ∈ _, ∀ _ ∈ _, _))
  | .take _ _ | .expire _ => inferInstanceAs (Decidable True)

theorem lent_take {i : ι} (h : MutexInv base flag s) (hl : Lent s) (time : Int) :
    Lent (rtMutexTake flag s i time) := by
  unfold rtMutexTake
  split
  next => exact hl
  next =>
    split
    next hv =>
      have hnil : s.waiting = [] := by
        cases ho : s.owner with
        | none => exact (h.free ho).2.2
        | some o =>
          have := (h.held o ho).1
          omega
      intro o _ j hj
      dsimp only at hj
      rw [hnil] at hj
      cases hj
    next =>
      split
      next => exact hl
      next =>
        obtain ⟨cur, he, hlent, hsame⟩ := lend_eq s i
        rw [he]
        intro o ho j hj
        have hmem := (suspend_perm cur flag s.waiting i).mem_iff.mp hj
        show cur o ≤ cur j
        rw [hlent o ho]
        by_cases hown : s.owner = some j
        · obtain rfl : o = j := Option.some.inj (ho.symm.trans hown)
          exact Nat.le_of_eq (hlent o ho).symm
        · rw [hsame j hown]
          rcases List.mem_cons.mp hmem with rfl | hw
          · exact Nat.min_le_left _ _
          · exact Nat.le_trans (Nat.min_le_right _ _) (hl o ho j hw)

theorem lent_release {i : ι} (h : MutexInv base flag s) (hl : Lent s) :
    Lent (rtMutexRelease s i) ↔ HandsFair s (.release i) := by
  have hone : s.hold - 1 = 0 ↔ s.hold = 1 := by
    rw [← BitVec.toNat_inj, ← BitVec.toNat_inj]
    simp only [BitVec.toNat_sub, BitVec.toNat_ofNat, BitVec.ofNat_eq_ofNat]
    have := s.hold.isLt
    omega
  unfold rtMutexRelease
  split
  next ho =>
    dsimp only
    split
    next h0 =>
      have hmem := h.owner_not_mem ho
      have hcur : ∀ j ∈ s.waiting, Function.update s.cur i s.orig j = s.cur j := by
        intro j hj
        have hne : j ≠ i := fun e => hmem (e ▸ hj)
        exact Function.update_of_ne hne ..
      unfold MutexSt.handOff HandsFair
      dsimp only
      cases hw : s.waiting with
      | nil =>
        exact iff_of_true (fun o hown => (by cases hown)) fun _ _ j hj => (by cases hj)
      | cons j l =>
        rw [hw] at hcur
        have hj := hcur j List.mem_cons_self
        constructor
        · rintro hlent _ _ j' hj' k hk
          cases hj'
          have := hlent j rfl k hk
          dsimp only at this
          rw [hj, hcur k (List.mem_cons_of_mem j hk)] at this
          exact this
        · rintro hfair o hown k hk
          cases hown
          show Function.update s.cur i s.orig j ≤ Function.update s.cur i s.orig k
          rw [hj, hcur k (List.mem_cons_of_mem j hk)]
          exact hfair ho (hone.mp h0) j rfl k hk
    next hn0 => exact iff_of_true hl fun _ h1 => absurd (hone.mpr h1) hn0
  next hne => exact iff_of_true hl fun ho => absurd ho hne

theorem lent_step (s : MutexSt ι) (a : MutexAct ι) (t : MutexSt ι) (h : MutexInv base flag s)
    (hl : Lent s) (ht : mutexStep flag s a = some t) : Lent t ↔ HandsFair s a := by
  cases a with
  | take i time =>
    unfold mutexStep at ht
    dsimp only at ht
    split at ht
    · cases ht
      exact iff_of_true (lent_take h hl time) trivial
    · cases ht
  | release i =>
    unfold mutexStep at ht
    dsimp only at ht
    split at ht
    · cases ht
      exact lent_release h hl
    · cases ht
  | expire i =>
    unfold mutexStep at ht
    dsimp only at ht
    split at ht
    · split at ht
      · cases ht
        exact iff_of_true (fun o ho j hj => hl o ho j (List.mem_of_mem_erase hj)) trivial
      · cases ht
    · cases ht

/-- a list with the most urgent thread first is handed on fairly -/
theorem handsFair_prio (h : MutexInv base .prio s) (a : MutexAct ι) : HandsFair s a := by
  cases a with
  | release i =>
    intro _ _ j hj k hk
    have hu := h.urgent rfl
    cases hw : s.waiting with
    | nil =>
      rw [hw] at hj
      cases hj
    | cons j' l =>
      rw [hw] at hj hk hu
      cases hj
      exact (List.pairwise_cons.mp hu).1 k hk
  | _ => trivial

/-- **No thread waits for a less urgent one**, in every state of a run, exactly if the mutex is never
handed past a more urgent thread; with `RT_IPC_FLAG_PRIO` it never is.  A thread that does not own
the mutex has the priority it was made with. -/
theorem mutex_lent_iff (base : ι → Nat) (flag : IpcFlag) (as : List (MutexAct ι)) :
    (Along (mutexStep flag) (fun _ _ t => Lent t) (rtMutexCreate base) as ↔
        Along (mutexStep flag) (fun s a _ => HandsFair s a) (rtMutexCreate base) as) ∧
      (flag = .prio → Along (mutexStep flag) (fun _ _ t => Lent t) (rtMutexCreate base) as) ∧
      ∀ t, run (mutexStep flag) (rtMutexCreate base) as = some t →
        ∀ i, t.owner ≠ some i → t.cur i = base i := by
  have h0 : MutexInv base flag (rtMutexCreate base) := mutexInv_create base flag
  have hl0 : Lent (rtMutexCreate base) := fun o ho => (by cases ho)
  refine ⟨(along_iff_of_step (I := fun s => MutexInv base flag s ∧ Lent s) ?_ ?_ ⟨h0, hl0⟩ as).symm,
    fun hflag => ?_, fun t hr => ?_⟩
  · rintro s a t ⟨h, hl⟩ ht
    exact (lent_step s a t h hl ht).symm
  · rintro s a t ⟨h, hl⟩ ht hf
    exact ⟨mutexInv_step s a t h ht, (lent_step s a t h hl ht).mpr hf⟩
  · subst hflag
    refine Along.imp_of_inv (I := fun s => MutexInv base .prio s ∧ Lent s)
      (G := fun _ _ _ => True) ?_ ⟨h0, hl0⟩ (along_of_forall (fun _ _ _ => trivial) _ as)
    rintro s a t ⟨h, hl⟩ ht _
    have hlt := (lent_step s a t h hl ht).mpr (handsFair_prio h a)
    exact ⟨hlt, mutexInv_step s a t h ht, hlt⟩
  · exact (run_inv (I := MutexInv base flag) (G := fun _ _ _ => True)
      (fun s a u hs hu _ => mutexInv_step s a u hs hu) as _ t h0
      (along_of_forall (fun _ _ _ => trivial) _ as) hr).others

end

/-- with `RT_IPC_FLAG_FIFO` the mutex is handed past a more urgent thread -/
example : ¬ Along (mutexStep .fifo) (fun s a _ => HandsFair s a) (rtMutexCreate fun i => i)
    [.take 30 (-1), .take 20 (-1), .take 10 (-1), .release 30] := by decide

theorem mutex_lent_prio : Along (mutexStep .prio) (fun _ _ t => Lent t) (rtMutexCreate fun i => i)
    [.take 30 (-1), .take 20 (-1), .take 10 (-1), .release 30] :=
  (mutex_lent_iff _ .prio _).2.1 rfl

end ENV
