import Enviroment.Kernel.Alloc

/-!
# The blocks and their owners (`mem.c`)

The threads call `rt_malloc`, `rt_free` and `rt_realloc` in any order; every call runs alone, under
`heap_sem`.  `held` is what the callers have: the blocks handed out and not given back, with the
sizes they asked for.  The heap has at least `MIN_SIZE_ALIGNED` bytes; in a smaller one the search of
`rt_malloc` does not end.

* `Proper`        a caller gives back only what it has, and its sizes do not wrap;
* `heap_safe`     no call fails an assertion, the blocks of the callers are apart;
* `heap_whole`    when all is given back, the heap is one free block again;
* `memory_found`  as long as no cut leaves a hole below `lfree`, memory is found if there is any.
-/

namespace ENV

open Segments Trace

/-- a call; a block is named by its data -/
inductive HeapAct where
  | malloc (size : Nat)
  | free (rmem : Option Nat)
  | realloc (rmem : Option Nat) (newsize : Nat)

structure HeapSt where
  heap : Heap
  /-- the sizes asked for -/
  held : Nat → Option Nat

/-- a caller gives a block back -/
def giveBack (held : Nat → Option Nat) : Option Nat → Nat → Option Nat
  | none => held
  | some p => Function.update held p none

/-- `none` is a failed assertion; a caller that gets `NULL` from `rt_realloc` keeps its block, unless
it asked for nothing -/
def heapStep (s : HeapSt) : HeapAct → Option HeapSt
  | .malloc n =>
    (rtMalloc s.heap n).map fun
      | (none, h) => ⟨h, s.held⟩
      | (some p, h) => ⟨h, Function.update s.held p (some n)⟩
  | .free p => (rtFree s.heap p).map fun h => ⟨h, giveBack s.held p⟩
  | .realloc p n =>
    (rtRealloc s.heap p n).map fun
      | (none, h) => ⟨h, if n = 0 then giveBack s.held p else s.held⟩
      | (some q, h) => ⟨h, Function.update (giveBack s.held p) q (some n)⟩

/-- the sizes that `RT_ALIGN` does not wrap -/
def maxAsk : Nat := 2 ^ 32 - 4

/-- the callers keep to the rules -/
def Proper (s : HeapSt) : HeapAct → Prop
  | .malloc n => n ≤ maxAsk
  | .free p => ∀ q ∈ p, (s.held q).isSome
  | .realloc p n => n ≤ maxAsk ∧ ∀ q ∈ p, (s.held q).isSome

/-- a cut that leaves a hole below `lfree` -/
def HolesBelow (s : HeapSt) : HeapAct → Prop
  | .realloc (some p) n =>
    LeavesHole s.heap (p - 12) ((s.heap.mem (p - 12)).next - (p - 12)) (rtAlign n)
  | _ => False

instance : ∀ s a, Decidable (Proper s a)
  | _, .malloc _ => inferInstanceAs (Decidable (_ ≤ _))
  | _, .free _ => inferInstanceAs (Decidable (∀ _ ∈ _, _))
  | _, .realloc _ _ => inferInstanceAs (Decidable (_ ∧ ∀ _ ∈ _, _))

instance : ∀ s a, Decidable (HolesBelow s a)
  | _, .malloc _ | _, .free _ | _, .realloc none _ => inferInstanceAs (Decidable False)
  | _, .realloc (some _) _ => inferInstanceAs (Decidable (_ ∧ _ ∧ _ ∧ (_ → _)))

/-! ## what is held, and what is in use -/

/-- what the callers have is what is in use -/
structure Covers (held use : Nat → Option Nat) : Prop where
  block : ∀ p n, held p = some n → ∃ q k, p = q + 12 ∧ use q = some k ∧ n + 12 ≤ k
  owner : ∀ q k, use q = some k → (held (q + 12)).isSome

variable {held use : Nat → Option Nat}

theorem Covers.take {q n k : Nat} (hh : Covers held use) (hk : n + 12 ≤ k) :
    Covers (Function.update held (q + 12) (some n)) (Function.update use q (some k)) := by
  constructor
  · intro p m hp
    by_cases hpq : p = q + 12
    · subst hpq
      rw [Function.update_self] at hp
      cases hp
      exact ⟨q, k, rfl, Function.update_self .., hk⟩
    · rw [Function.update_of_ne hpq] at hp
      obtain ⟨r, j, rfl, hr, hj⟩ := hh.block p m hp
      refine ⟨r, j, rfl, ?_, hj⟩
      rw [Function.update_of_ne fun e => hpq (by rw [e])]
      exact hr
  · intro r j hr
    by_cases hrq : r = q
    · rw [hrq, Function.update_self]
      rfl
    · rw [Function.update_of_ne hrq] at hr
      rw [Function.update_of_ne fun e => hrq (by omega)]
      exact hh.owner r j hr

theorem Covers.drop {q : Nat} (hh : Covers held use) :
    Covers (Function.update held (q + 12) none) (Function.update use q none) := by
  constructor
  · intro p m hp
    by_cases hpq : p = q + 12
    · rw [hpq, Function.update_self] at hp
      cases hp
    · rw [Function.update_of_ne hpq] at hp
      obtain ⟨r, j, rfl, hr, hj⟩ := hh.block p m hp
      refine ⟨r, j, rfl, ?_, hj⟩
      rw [Function.update_of_ne fun e => hpq (by rw [e])]
      exact hr
  · intro r j hr
    by_cases hrq : r = q
    · rw [hrq, Function.update_self] at hr
      cases hr
    · rw [Function.update_of_ne hrq] at hr
      rw [Function.update_of_ne fun e => hrq (by omega)]
      exact hh.owner r j hr

/-- the heap is a list of segments, and the callers have those in use -/
structure Owned (s : HeapSt) (l : List Seg) : Prop where
  inv : HeapInv s.heap l
  held : Covers s.held (inUse l)
  /-- a full heap is not empty -/
  full : s.heap.lfree = s.heap.fin → ∃ q, (inUse l q).isSome

/-- what a call leaves: the heap is in order, and `lfree` is the lowest free block unless a hole was
left below it -/
def Leaves (s : HeapSt) (l : List Seg) (hole : Prop) (t : HeapSt) : Prop :=
  t.heap.size = s.heap.size ∧ ∃ l', Owned t l' ∧
    (s.heap.lfree = firstFree l → ¬ hole → t.heap.lfree = firstFree l')

variable {s : HeapSt} {l : List Seg}

theorem owned_take {need n q : Nat} {h' : Heap} {l' : List Seg} (ho : Owned s l)
    (ht : Taken s.heap l need q h' l') (hn : n ≤ need) :
    Owned ⟨h', Function.update s.held (q + 12) (some n)⟩ l' := by
  obtain ⟨k, hu, hk, -⟩ := ht.use
  refine ⟨ht.inv, hu ▸ ho.held.take (by omega), fun _ => ⟨q, ?_⟩⟩
  rw [hu, Function.update_self]
  rfl

theorem owned_drop {q : Nat} {h' : Heap} {l' : List Seg} (ho : Owned s l)
    (hf : Freed s.heap l q h' l') : Owned ⟨h', giveBack s.held (some (q + 12))⟩ l' := by
  refine ⟨hf.inv, hf.use ▸ ho.held.drop, fun hfull => ?_⟩
  -- the block that was given back is free, so `lfree` is not the end
  obtain ⟨t, ht, -⟩ := hf.hole
  have hle := ht.le_total
  have hpos := hf.inv.positive t ht.mem
  rw [hf.inv.total] at hle
  dsimp only at hfull
  omega

theorem leaves_refl (ho : Owned s l) (hole : Prop) : Leaves s l hole s :=
  ⟨rfl, l, ho, fun h _ => h⟩

/-- a call that returns what `rt_malloc` returns -/
theorem leaves_malloc (ho : Owned s l) {m n : Nat} (hn : n ≤ allocSize m) (hole : Prop) :
    rtMalloc s.heap m = some (none, s.heap) ∨
      ∃ p h, rtMalloc s.heap m = some (some p, h) ∧
        Leaves s l hole ⟨h, Function.update s.held p (some n)⟩ := by
  rcases malloc_spec ho.inv m with hr | ⟨q, h', l', hr, ht⟩
  · exact Or.inl hr
  · exact Or.inr ⟨q + 12, h', hr, ht.size, l', owned_take ho ht hn, fun hf _ => ht.lowest hf⟩

theorem le_allocSize {n : Nat} (hn : n ≤ maxAsk) : n ≤ allocSize n :=
  (le_rtAlign hn).trans (allocSize_ge n).2

theorem rtAlign_eq_zero {n : Nat} (hn : n ≤ maxAsk) : rtAlign n = 0 ↔ n = 0 := by
  have := le_rtAlign hn
  constructor
  · intro h0
    omega
  · rintro rfl
    rfl

theorem leaves_realloc_null (ho : Owned s l) {n : Nat} (hn : n ≤ maxAsk) (hole : Prop) :
    ∃ t, heapStep s (.realloc none n) = some t ∧ Leaves s l hole t := by
  have hkeep : (if n = 0 then giveBack s.held none else s.held) = s.held := by
    split <;> rfl
  unfold heapStep rtRealloc
  dsimp only
  by_cases hbig : rtAlign n > s.heap.size
  · rw [if_pos hbig]
    refine ⟨_, rfl, ?_⟩
    dsimp only
    rw [hkeep]
    exact leaves_refl ho hole
  rw [if_neg hbig]
  by_cases h0 : rtAlign n = 0
  · rw [if_pos h0]
    refine ⟨_, rfl, ?_⟩
    dsimp only
    rw [hkeep]
    exact leaves_refl ho hole
  rw [if_neg h0]
  have hle : n ≤ allocSize (rtAlign n) := by
    have := (allocSize_ge (rtAlign n)).2
    rw [rtAlign_rtAlign] at this
    exact (le_rtAlign hn).trans this
  rcases leaves_malloc ho hle hole with hr | ⟨p, h', hr, hm⟩
  · rw [hr]
    refine ⟨_, rfl, ?_⟩
    dsimp only
    rw [hkeep]
    exact leaves_refl ho hole
  · rw [hr]
    exact ⟨_, rfl, hm⟩

theorem leaves_realloc (ho : Owned s l) {p n : Nat} (hn : n ≤ maxAsk) (hp : (s.held p).isSome) :
    ∃ t, heapStep s (.realloc (some p) n) = some t ∧
      Leaves s l (HolesBelow s (.realloc (some p) n)) t := by
  obtain ⟨m, hm⟩ := Option.isSome_iff_exists.mp hp
  obtain ⟨q, k, rfl, hu, hk⟩ := ho.held.block p m hm
  obtain ⟨r, h', l', hr, hres, hlow⟩ := realloc_spec ho.inv hu n
  have hlen : (s.heap.mem q).next - q = k := by
    obtain ⟨pre, post, rfl, rfl⟩ := (inUse_eq_some ho.inv.positive).mp hu
    rw [ho.inv.header]
    exact Nat.add_sub_cancel_left _ _
  have hhole : HolesBelow s (.realloc (some (q + 12)) n) = LeavesHole s.heap q k (rtAlign n) := by
    unfold HolesBelow
    dsimp only
    rw [Nat.add_sub_cancel, hlen]
  unfold heapStep
  dsimp only
  rw [hr, hhole]
  refine ⟨_, rfl, ?_⟩
  cases hres with
  | freed h0 hF =>
    have hn0 := (rtAlign_eq_zero hn).mp h0
    dsimp only
    rw [if_pos hn0]
    exact ⟨hF.size, l', owned_drop ho hF, fun hf hno => (hlow hf).mpr hno⟩
  | refused h0 =>
    have hn0 : n ≠ 0 := fun h => h0 ((rtAlign_eq_zero hn).mpr h)
    dsimp only
    rw [if_neg hn0]
    exact leaves_refl ho _
  | @moved p m _ _ h0 hp hm hi hs hu' =>
    have hle := le_rtAlign hn
    refine ⟨hs, l', ⟨hi, ?_, fun _ => ⟨p, ?_⟩⟩, fun hf hno => (hlow hf).mpr hno⟩
    · rw [hu']
      exact ho.held.drop.take (by omega)
    · rw [hu', Function.update_self]
      rfl

/-- **No call fails an assertion**, and each leaves the heap in order. -/
theorem heap_step (ho : Owned s l) {a : HeapAct} (ha : Proper s a) :
    ∃ t, heapStep s a = some t ∧ Leaves s l (HolesBelow s a) t := by
  cases a with
  | malloc n =>
    unfold heapStep
    dsimp only
    rcases leaves_malloc ho (le_allocSize ha) (HolesBelow s (.malloc n)) with hr | ⟨p, h', hr, hm⟩
    · rw [hr]
      exact ⟨_, rfl, leaves_refl ho _⟩
    · rw [hr]
      exact ⟨_, rfl, hm⟩
  | free p =>
    cases p with
    | none => exact ⟨_, rfl, leaves_refl ho _⟩
    | some p =>
      obtain ⟨m, hm⟩ := Option.isSome_iff_exists.mp (ha p rfl)
      obtain ⟨q, k, rfl, hu, -⟩ := ho.held.block p m hm
      obtain ⟨h', l', hr, hF⟩ := free_spec ho.inv hu
      unfold heapStep
      dsimp only
      rw [hr]
      exact ⟨_, rfl, hF.size, l', owned_drop ho hF, fun hf _ => hF.lowest hf⟩
  | realloc p n =>
    cases p with
    | none => exact leaves_realloc_null ho ha.1 _
    | some p => exact leaves_realloc ho ha.1 (ha.2 p rfl)

/-! ## runs -/

/-- the heap after `rt_system_heap_init`; nobody has a block -/
theorem owned_init {mem : Nat → HeapMem} {beginAddr endAddr : Nat} {h : Heap}
    (hinit : rtSystemHeapInit mem beginAddr endAddr = some h) (hroom : minSizeAligned ≤ h.size) :
    Owned ⟨h, fun _ => none⟩ [⟨false, h.fin⟩] ∧ h.lfree = 0 := by
  unfold rtSystemHeapInit at hinit
  dsimp only at hinit
  split at hinit
  next hcond =>
    cases hinit
    have hsize : 4 ∣ endAddr / 4 * 4 - rtAlign beginAddr - 2 * sizeofStructMem :=
      Nat.dvd_sub (Nat.dvd_sub (Nat.dvd_mul_left _ _) (rtAlign_dvd _)) ⟨6, rfl⟩
    generalize endAddr / 4 * 4 - rtAlign beginAddr - 2 * sizeofStructMem = size at *
    have hfin : (0 : Nat) ≠ size + sizeofStructMem := by unfold sizeofStructMem; omega
    have hhole : HoleAt ((⟨mem, 0, size, 0, 0⟩ : Heap).set 0 ⟨heapMagic, false, size + sizeofStructMem, 0⟩)
      [⟨false, size + sizeofStructMem⟩] := ⟨_, at_singleton.mpr ⟨rfl, rfl⟩, rfl⟩
    refine ⟨⟨⟨⟨⟨?_, ?_, ?_, ?_⟩, rfl⟩, Or.inr hhole, List.IsChain.singleton _, hroom⟩, ?_, ?_⟩, rfl⟩
    · refine chain_cons.mpr ⟨?_, trivial⟩
      dsimp only
      rw [set_of_ne _ hfin, set_self, Nat.zero_add]
      rfl
    · simp
    · intro s hs
      obtain rfl := List.mem_singleton.mp hs
      have h12 : 12 ≤ size := hroom
      exact ⟨(by omega : 16 ≤ size + 12), Nat.dvd_add hsize ⟨3, rfl⟩⟩
    · show ((Heap.set _ (size + sizeofStructMem) _).mem (size + sizeofStructMem)).used = true
      rw [set_self]
    · refine ⟨fun p n hp => (by cases hp), fun q k hq => ?_⟩
      rw [inUse_free] at hq
      cases hq
    · intro hfull
      exact absurd hfull hfin
  next => cases hinit

theorem owned_run {mem : Nat → HeapMem} {beginAddr endAddr : Nat} {h : Heap}
    (hinit : rtSystemHeapInit mem beginAddr endAddr = some h) (hroom : minSizeAligned ≤ h.size)
    (as : List HeapAct) (t : HeapSt) (hr : run heapStep ⟨h, fun _ => none⟩ as = some t)
    (hp : Along heapStep (fun s a _ => Proper s a) ⟨h, fun _ => none⟩ as) :
    t.heap.size = h.size ∧ ∃ l, Owned t l := by
  refine run_inv (I := fun s => s.heap.size = h.size ∧ ∃ l, Owned s l) ?_ as _ t
    ⟨rfl, _, (owned_init hinit hroom).1⟩ hp hr
  intro s a u ⟨hsize, l, ho⟩ hu ha
  obtain ⟨u', hu', hsize', l', ho', -⟩ := heap_step ho ha
  obtain rfl : u = u' := Option.some.inj (hu.symm.trans hu')
  exact ⟨hsize'.trans hsize, l', ho'⟩

/-- the blocks of the callers are apart, and inside the heap -/
structure Apart (s : HeapSt) : Prop where
  inside : ∀ p n, s.held p = some n → 12 ≤ p ∧ 4 ∣ p ∧ p + n ≤ s.heap.fin
  /-- the header of the second block is behind the first one, too -/
  apart : ∀ p q n m, s.held p = some n → s.held q = some m → p < q → p + n + 12 ≤ q

theorem Owned.apart {l : List Seg} (ho : Owned s l) : Apart s := by
  constructor
  · intro p n hp
    obtain ⟨q, k, rfl, hu, hk⟩ := ho.held.block p n hp
    have hat := (inUse_eq_some ho.inv.positive).mp hu
    have hle := hat.le_total
    rw [ho.inv.total] at hle
    obtain ⟨pre, post, rfl, rfl⟩ := hat
    have h4 : 4 ∣ total pre := total_dvd fun s hs => ho.inv.lens s (List.mem_append_left _ hs)
    dsimp only at hle
    exact ⟨by omega, by omega, by omega⟩
  · intro p q n m hp hq hlt
    obtain ⟨p', k, rfl, hup, hk⟩ := ho.held.block p n hp
    obtain ⟨q', j, rfl, huq, -⟩ := ho.held.block q m hq
    have hatp := (inUse_eq_some ho.inv.positive).mp hup
    have hatq := (inUse_eq_some ho.inv.positive).mp huq
    have hj := ho.inv.positive _ hatq.mem
    have h3 := at_disjoint hatp hatq
    dsimp only at h3 hj
    omega

/-- **Whatever the callers do, no assertion of the heap fails, and no two of them get the same
byte.** -/
theorem heap_safe {mem : Nat → HeapMem} {beginAddr endAddr : Nat} {h : Heap}
    (hinit : rtSystemHeapInit mem beginAddr endAddr = some h) (hroom : minSizeAligned ≤ h.size)
    (as : List HeapAct) (t : HeapSt) (hr : run heapStep ⟨h, fun _ => none⟩ as = some t)
    (hp : Along heapStep (fun s a _ => Proper s a) ⟨h, fun _ => none⟩ as) :
    Apart t ∧ ∀ a, Proper t a → (heapStep t a).isSome := by
  obtain ⟨-, l, ho⟩ := owned_run hinit hroom as t hr hp
  refine ⟨ho.apart, fun a ha => ?_⟩
  obtain ⟨u, hu, -⟩ := heap_step ho ha
  rw [hu]
  rfl

/-- a heap of 256 bytes -/
def heap256 : Heap :=
  ((⟨fun _ => ⟨0, false, 0, 0⟩, 0, 256, 0, 0⟩ : Heap).set 0 ⟨heapMagic, false, 268, 0⟩).set 268
    ⟨heapMagic, true, 268, 268⟩

theorem heap256_init : rtSystemHeapInit (fun _ => ⟨0, false, 0, 0⟩) 0 280 = some heap256 := rfl

theorem heap_safe_ok : ∃ t, run heapStep ⟨heap256, fun _ => none⟩
    [.malloc 100, .malloc 20, .free (some 12), .realloc (some 124) 60] = some t ∧
      Apart t ∧ ∀ a, Proper t a → (heapStep t a).isSome :=
  ⟨_, rfl, heap_safe heap256_init (by decide)
    [.malloc 100, .malloc 20, .free (some 12), .realloc (some 124) 60] _ rfl (by decide)⟩

/-- **When everything is given back, the heap is one free block, as it was at the start.** -/
theorem heap_whole {mem : Nat → HeapMem} {beginAddr endAddr : Nat} {h : Heap}
    (hinit : rtSystemHeapInit mem beginAddr endAddr = some h) (hroom : minSizeAligned ≤ h.size)
    (as : List HeapAct) (t : HeapSt) (hr : run heapStep ⟨h, fun _ => none⟩ as = some t)
    (hp : Along heapStep (fun s a _ => Proper s a) ⟨h, fun _ => none⟩ as)
    (hnone : ∀ p, t.held p = none) :
    t.heap.mem 0 = ⟨heapMagic, false, h.fin, 0⟩ ∧ t.heap.lfree = 0 ∧ t.heap.usedMem = 0 := by
  obtain ⟨hsize, l, ho⟩ := owned_run hinit hroom as t hr hp
  have hfin : t.heap.fin = h.fin := congrArg (· + sizeofStructMem) hsize
  have huse : ∀ q, inUse l q = none := by
    intro q
    refine Option.eq_none_iff_forall_ne_some.mpr fun k hk => ?_
    have := ho.held.owner q k hk
    rw [hnone] at this
    cases this
  have hfree : ∀ s ∈ l, s.used = false := by
    intro s hs
    obtain ⟨pre, post, rfl⟩ := List.append_of_mem hs
    obtain ⟨u, n⟩ := s
    cases u with
    | false => rfl
    | true =>
      have hat : At (pre ++ ⟨true, n⟩ :: post) (total pre) ⟨true, n⟩ := ⟨pre, post, rfl, rfl⟩
      rw [← inUse_eq_some ho.inv.positive, huse] at hat
      cases hat
  have hne : l ≠ [] := by
    rintro rfl
    have := ho.inv.total
    unfold Heap.fin sizeofStructMem at this
    rw [total_nil] at this
    omega
  obtain ⟨hi, -, hfull⟩ := ho
  have htot := hi.total
  rw [free_all hne hi.coalesced hfree, htot, hfin] at hi
  refine ⟨?_, ?_, hi.usedMem⟩
  · have := (chain_cons.mp hi.chain).1
    rw [Nat.zero_add] at this
    exact this
  · rcases hi.free with hend | ⟨s, hs, -⟩
    · -- a full heap is not empty
      obtain ⟨q, hq⟩ := hfull hend
      rw [huse] at hq
      cases hq
    · exact (at_singleton.mp hs).1

/-- three blocks, given back from the middle on -/
def threeBlocks : List HeapAct :=
  [.malloc 40, .malloc 60, .malloc 20, .free (some 64), .free (some 136), .free (some 12)]

theorem threeBlocks_runs : (run heapStep ⟨heap256, fun _ => none⟩ threeBlocks).isSome := by
  decide +kernel

theorem threeBlocks_proper :
    Along heapStep (fun s a _ => Proper s a) ⟨heap256, fun _ => none⟩ threeBlocks := by
  decide +kernel

theorem threeBlocks_back : ∀ p < 269,
    ((run heapStep ⟨heap256, fun _ => none⟩ threeBlocks).get threeBlocks_runs).held p = none := by
  decide +kernel

theorem heap_whole_ok : ∃ t, run heapStep ⟨heap256, fun _ => none⟩ threeBlocks = some t ∧
    t.heap.mem 0 = ⟨heapMagic, false, 268, 0⟩ ∧ t.heap.lfree = 0 ∧ t.heap.usedMem = 0 := by
  have hrun := (Option.some_get threeBlocks_runs).symm
  have hroom : minSizeAligned ≤ heap256.size := by decide
  obtain ⟨hsize, l, ho⟩ := owned_run heap256_init hroom threeBlocks _ hrun threeBlocks_proper
  refine ⟨_, hrun, heap_whole heap256_init hroom threeBlocks _ hrun threeBlocks_proper fun p => ?_⟩
  rcases Nat.lt_or_ge p 269 with hlt | hge
  · exact threeBlocks_back p hlt
  · -- no block is behind the end
    refine Option.eq_none_iff_forall_ne_some.mpr fun n hn => ?_
    have hin := (ho.apart.inside p n hn).2.2
    unfold Heap.fin at hin
    rw [hsize] at hin
    replace hin : p + n ≤ 268 := hin
    omega

/-- **Memory is found if there is any**, as long as no cut leaves a hole below `lfree`; but for the
last block when it fits exactly. -/
theorem memory_found {mem : Nat → HeapMem} {beginAddr endAddr : Nat} {h : Heap}
    (hinit : rtSystemHeapInit mem beginAddr endAddr = some h) (hroom : minSizeAligned ≤ h.size)
    (as : List HeapAct) (t : HeapSt) (hr : run heapStep ⟨h, fun _ => none⟩ as = some t)
    (hp : Along heapStep (fun s a _ => Proper s a ∧ ¬ HolesBelow s a) ⟨h, fun _ => none⟩ as) :
    ∃ l, HeapInv t.heap l ∧ ∀ n, rtMalloc t.heap n = some (none, t.heap) ↔
      n = 0 ∨ t.heap.size < rtAlign n ∨ ∀ q, Fits l (allocSize n) q →
        At l q ⟨false, allocSize n + 12⟩ ∧ q + (allocSize n + 12) = t.heap.fin := by
  obtain ⟨h0, h1⟩ := owned_init hinit hroom
  obtain ⟨l, ho, hlow⟩ := run_inv (I := fun s => ∃ l, Owned s l ∧ s.heap.lfree = firstFree l)
    (fun s a u ⟨l, ho, hlow⟩ hu hg => by
      obtain ⟨u', hu', -, l', ho', hlow'⟩ := heap_step ho hg.1
      obtain rfl : u = u' := Option.some.inj (hu.symm.trans hu')
      exact ⟨l', ho', hlow' hlow hg.2⟩)
    as _ t ⟨_, h0, h1⟩ hp hr
  refine ⟨l, ho.inv, fun n => (malloc_none_iff ho.inv).trans ?_⟩
  refine or_congr_right (or_congr_right (forall_congr' fun q => forall_congr' fun hq => ?_))
  refine ⟨fun hc => hc ?_, fun hc _ => hc⟩
  obtain ⟨m, hat, -⟩ := hq
  rw [hlow]
  exact firstFree_le hat rfl

/-- the second block is given back, and the first one is cut to 30 bytes -/
def movedBlock : List HeapAct :=
  [.malloc 100, .malloc 20, .malloc 20, .free (some 124), .realloc (some 12) 30]

theorem movedBlock_runs : (run heapStep ⟨heap256, fun _ => none⟩ movedBlock).isSome := by
  decide +kernel

theorem memory_found_ok : ∃ t, run heapStep ⟨heap256, fun _ => none⟩ movedBlock = some t ∧
    ∃ l, HeapInv t.heap l ∧ ∀ n, rtMalloc t.heap n = some (none, t.heap) ↔
      n = 0 ∨ t.heap.size < rtAlign n ∨ ∀ q, Fits l (allocSize n) q →
        At l q ⟨false, allocSize n + 12⟩ ∧ q + (allocSize n + 12) = t.heap.fin :=
  have hrun := (Option.some_get movedBlock_runs).symm
  ⟨_, hrun, memory_found heap256_init (by decide) movedBlock _ hrun (by decide +kernel)⟩

/-- a cut of the first block of a full heap: 96 bytes are free, and no 50 of them are found -/
example : (run heapStep ⟨heap256, fun _ => none⟩
    [.malloc 100, .malloc 100, .malloc 20, .realloc (some 12) 4]).map
      (fun s => (s.heap.usedMem, (rtMalloc s.heap 50).map Prod.fst)) = some (172, some none) := by
  decide

end ENV
