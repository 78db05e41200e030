import Enviroment.Kernel.Owners

/-!
# The response objects (`at_client.c`, lines 40 to 90)

A thread that sends a command calls `at_create_resp` first and `at_delete_resp` at the end.  Two
threads do so: the one of the modem, and the parser of the AT client inside a URC handler.  The
heap is theirs in turns, one call of `rt_calloc` or `rt_free` at a time.

* `respStep`       any number of threads, and where each is in the two functions;
* `Accounted`      what is in use is what was in use before, and what the threads have;
* `resp_no_leak`   no assertion of the heap fails; when no thread has a response object, every block
                   is back, even where `at_create_resp` found memory for the object only.
-/

namespace ENV

open Segments Trace

/-- where a thread is -/
inductive RespPc where
  | idle
  /-- `resp` is there, the buffer is not -/
  | object (resp bufSize : Nat)
  /-- `at_create_resp` has returned `resp` -/
  | ready (resp buf : Nat)
  /-- only `rt_free(resp)` is left -/
  | drop (resp : Nat)
deriving DecidableEq

def RespPc.blocks : RespPc → List Nat
  | .idle => []
  | .object resp _ => [resp]
  | .ready resp buf => [buf, resp]
  | .drop resp => [resp]

structure RespSt (ι : Type*) where
  mem : HeapSt
  pc : ι → RespPc

inductive RespAct (ι : Type*) where
  /-- the thread `i` enters `at_create_resp(buf_size, ..)` -/
  | create (i : ι) (bufSize : Nat)
  /-- its next call -/
  | go (i : ι)

/-- `sizeof(struct at_response)` -/
def sizeofResponse : Nat := 20

section
variable {ι : Type*} [DecidableEq ι]

/-- the block that `rt_calloc` returns goes to `i`, which is at `pc` then; else it is at `pc'` -/
def RespSt.calloc (s : RespSt ι) (i : ι) (size : Nat) (pc : Nat → RespPc) (pc' : RespPc) :
    Option (RespSt ι) :=
  (rtCalloc s.mem.heap 1 size).map fun
    | (some p, h) => ⟨⟨h, Function.update s.mem.held p (some size)⟩, Function.update s.pc i (pc p)⟩
    | (none, h) => ⟨⟨h, s.mem.held⟩, Function.update s.pc i pc'⟩

/-- `rt_free(p)`, then `i` is at `pc` -/
def RespSt.free (s : RespSt ι) (i : ι) (p : Nat) (pc : RespPc) : Option (RespSt ι) :=
  (rtFree s.mem.heap (some p)).map fun h =>
    ⟨⟨h, Function.update s.mem.held p none⟩, Function.update s.pc i pc⟩

def respStep (s : RespSt ι) : RespAct ι → Option (RespSt ι)
  | .create i bufSize =>
    match s.pc i with
    | .idle => s.calloc i sizeofResponse (fun resp => .object resp bufSize) .idle
    | _ => none
  | .go i =>
    match s.pc i with
    | .idle => none
    | .object resp bufSize => s.calloc i bufSize (.ready resp) (.drop resp)
    -- `at_delete_resp`: the buffer first
    | .ready resp buf => s.free i buf (.drop resp)
    | .drop resp => s.free i resp .idle

end

/-! ## what the threads have -/

/-- the sizes that are asked for do not wrap -/
def RespPc.Asks : RespPc → Prop
  | .object _ bufSize => bufSize ≤ maxAsk
  | _ => True

section
variable {ι : Type*}

/-- what is in use is what `base` has, and what the threads have -/
structure Accounted (base : Nat → Option Nat) (s : RespSt ι) : Prop where
  owned : ∃ l, Owned s.mem l
  mine : ∀ i, ∀ p ∈ (s.pc i).blocks, (s.mem.held p).isSome ∧ base p = none
  apart : ∀ i j p, p ∈ (s.pc i).blocks → p ∈ (s.pc j).blocks → i = j
  nodup : ∀ i, (s.pc i).blocks.Nodup
  rest : ∀ p, (∀ i, p ∉ (s.pc i).blocks) → s.mem.held p = base p
  asks : ∀ i, (s.pc i).Asks

variable {base : Nat → Option Nat} {s : RespSt ι}

theorem Accounted.not_mem {i : ι} {p : Nat} (ha : Accounted base s) (hp : s.mem.held p = none) :
    p ∉ (s.pc i).blocks := by
  intro hmem
  have := (ha.mine i p hmem).1
  rw [hp] at this
  cases this

end

section
variable {ι : Type*} [DecidableEq ι] {base : Nat → Option Nat} {s : RespSt ι}

/-- what one thread does leaves the places of the others -/
theorem forall_moved {pc : ι → RespPc} (P : RespPc → Prop) {i : ι} {x : RespPc} (hx : P x)
    (h : ∀ j, P (pc j)) (j : ι) : P (Function.update pc i x j) :=
  (Function.forall_update_iff pc fun _ y => P y).mpr ⟨hx, fun k _ => h k⟩ j

/-- a thread gets a block -/
theorem accounted_take {i : ι} {p n : Nat} {pc : RespPc} {h : Heap} (ha : Accounted base s)
    (ho : ∃ l, Owned ⟨h, Function.update s.mem.held p (some n)⟩ l) (hp : s.mem.held p = none)
    (hpc : pc.blocks = p :: (s.pc i).blocks) (hask : pc.Asks) :
    Accounted base ⟨⟨h, Function.update s.mem.held p (some n)⟩, Function.update s.pc i pc⟩ := by
  have hbase : base p = none := by
    rw [← ha.rest p fun j => ha.not_mem hp]
    exact hp
  have hmem : ∀ j q, q ∈ (Function.update s.pc i pc j).blocks →
      q ∈ (s.pc j).blocks ∨ j = i ∧ q = p := by
    intro j q hq
    by_cases hj : j = i
    · subst hj
      rw [Function.update_self, hpc] at hq
      exact (List.mem_cons.mp hq).elim (fun e => Or.inr ⟨rfl, e⟩) Or.inl
    · rw [Function.update_of_ne hj] at hq
      exact Or.inl hq
  have hmono : ∀ j q, q ∈ (s.pc j).blocks → q ∈ (Function.update s.pc i pc j).blocks := by
    intro j q hq
    by_cases hj : j = i
    · subst hj
      rw [Function.update_self, hpc]
      exact List.mem_cons_of_mem p hq
    · rw [Function.update_of_ne hj]
      exact hq
  have hnew : p ∈ (Function.update s.pc i pc i).blocks := by
    rw [Function.update_self, hpc]
    exact List.mem_cons_self
  refine ⟨ho, fun j q hq => ?_, fun j k q hj hk => ?_, forall_moved (·.blocks.Nodup) ?_ ha.nodup,
    fun q hq => ?_, forall_moved RespPc.Asks hask ha.asks⟩
  · rcases hmem j q hq with hq | ⟨-, rfl⟩
    · have hne : q ≠ p := fun e => ha.not_mem hp (e ▸ hq)
      dsimp only
      rw [Function.update_of_ne hne]
      exact ha.mine j q hq
    · dsimp only
      rw [Function.update_self]
      exact ⟨rfl, hbase⟩
  · rcases hmem j q hj with hj | ⟨hji, hqp⟩
    · rcases hmem k q hk with hk | ⟨-, hqp⟩
      · exact ha.apart j k q hj hk
      · exact absurd (hqp ▸ hj) (ha.not_mem hp)
    · rcases hmem k q hk with hk | ⟨hki, -⟩
      · exact absurd (hqp ▸ hk) (ha.not_mem hp)
      · exact hji.trans hki.symm
  · rw [hpc]
    exact List.nodup_cons.mpr ⟨ha.not_mem hp, ha.nodup i⟩
  · have hne : q ≠ p := fun e => hq i (e ▸ hnew)
    dsimp only
    rw [Function.update_of_ne hne]
    exact ha.rest q fun j hj => hq j (hmono j q hj)

/-- a thread gives a block back -/
theorem accounted_drop {i : ι} {p : Nat} {pc : RespPc} {h : Heap} (ha : Accounted base s)
    (ho : ∃ l, Owned ⟨h, Function.update s.mem.held p none⟩ l)
    (hpc : (s.pc i).blocks = p :: pc.blocks) (hask : pc.Asks) :
    Accounted base ⟨⟨h, Function.update s.mem.held p none⟩, Function.update s.pc i pc⟩ := by
  have hpi : p ∈ (s.pc i).blocks := hpc ▸ List.mem_cons_self
  have hnd := hpc ▸ ha.nodup i
  have hmem : ∀ j q, q ∈ (Function.update s.pc i pc j).blocks → q ∈ (s.pc j).blocks ∧ q ≠ p := by
    intro j q hq
    by_cases hj : j = i
    · subst hj
      rw [Function.update_self] at hq
      exact ⟨hpc ▸ List.mem_cons_of_mem p hq, fun e => (List.nodup_cons.mp hnd).1 (e ▸ hq)⟩
    · rw [Function.update_of_ne hj] at hq
      exact ⟨hq, fun e => hj (ha.apart j i p (e ▸ hq) hpi)⟩
  refine ⟨ho, fun j q hq => ?_, fun j k q hj hk => ?_,
    forall_moved (·.blocks.Nodup) (List.nodup_cons.mp hnd).2 ha.nodup, fun q hq => ?_,
    forall_moved RespPc.Asks hask ha.asks⟩
  · obtain ⟨hq, hne⟩ := hmem j q hq
    dsimp only
    rw [Function.update_of_ne hne]
    exact ha.mine j q hq
  · exact ha.apart j k q (hmem j q hj).1 (hmem k q hk).1
  · dsimp only
    by_cases hqp : q = p
    · rw [hqp, Function.update_self, (ha.mine i p hpi).2]
    · rw [Function.update_of_ne hqp]
      refine ha.rest q fun j hj => hq j ?_
      dsimp only
      by_cases hji : j = i
      · subst hji
        rw [Function.update_self]
        rw [hpc] at hj
        exact (List.mem_cons.mp hj).resolve_left hqp
      · rw [Function.update_of_ne hji]
        exact hj

/-- nothing but the place of a thread changes -/
theorem accounted_move {i : ι} {pc : RespPc} (ha : Accounted base s)
    (hpc : pc.blocks = (s.pc i).blocks) (hask : pc.Asks) :
    Accounted base ⟨s.mem, Function.update s.pc i pc⟩ := by
  have hb : ∀ j, (Function.update s.pc i pc j).blocks = (s.pc j).blocks := by
    intro j
    by_cases hj : j = i
    · subst hj
      rw [Function.update_self, hpc]
    · rw [Function.update_of_ne hj]
  refine ⟨ha.owned, fun j q hq => ha.mine j q (hb j ▸ hq), fun j k q hj hk =>
    ha.apart j k q (hb j ▸ hj) (hb k ▸ hk), fun j => (hb j).symm ▸ ha.nodup j, fun q hq =>
    ha.rest q fun j => hb j ▸ hq j, forall_moved RespPc.Asks hask ha.asks⟩

theorem accounted_calloc {i : ι} {size : Nat} {pc : Nat → RespPc} {pc' : RespPc}
    (ha : Accounted base s) (hsize : size ≤ maxAsk)
    (hpc : ∀ p, (pc p).blocks = p :: (s.pc i).blocks) (hask : ∀ p, (pc p).Asks)
    (hpc' : pc'.blocks = (s.pc i).blocks) (hask' : pc'.Asks) :
    ∃ t, s.calloc i size pc pc' = some t ∧ Accounted base t := by
  obtain ⟨l, ho⟩ := ha.owned
  have he : 1 * size % 2 ^ 32 = size := by
    unfold maxAsk at hsize
    omega
  unfold RespSt.calloc rtCalloc
  rw [he]
  rcases malloc_spec ho.inv size with hr | ⟨q, h', l', hr, ht⟩
  · rw [hr]
    exact ⟨_, rfl, accounted_move ha hpc' hask'⟩
  · have hp : s.mem.held (q + 12) = none := by
      refine Option.eq_none_iff_forall_ne_some.mpr fun m hm => ?_
      obtain ⟨q', k, hq, hu, -⟩ := ho.held.block _ m hm
      obtain rfl : q = q' := by omega
      rw [ht.fresh] at hu
      cases hu
    rw [hr]
    exact ⟨_, rfl,
      accounted_take ha ⟨l', owned_take ho ht (le_allocSize hsize)⟩ hp (hpc _) (hask _)⟩

theorem accounted_free {i : ι} {p : Nat} {pc : RespPc} (ha : Accounted base s)
    (hpc : (s.pc i).blocks = p :: pc.blocks) (hask : pc.Asks) :
    ∃ t, s.free i p pc = some t ∧ Accounted base t := by
  obtain ⟨l, ho⟩ := ha.owned
  obtain ⟨m, hm⟩ := Option.isSome_iff_exists.mp (ha.mine i p (hpc ▸ List.mem_cons_self)).1
  obtain ⟨q, k, rfl, hu, -⟩ := ho.held.block p m hm
  obtain ⟨h', l', hr, hF⟩ := free_spec ho.inv hu
  unfold RespSt.free
  rw [hr]
  exact ⟨_, rfl, accounted_drop ha ⟨l', owned_drop ho hF⟩ hpc hask⟩

/-- a thread in the middle of something can go on -/
theorem resp_go (ha : Accounted base s) {i : ι} (hi : s.pc i ≠ .idle) :
    ∃ t, respStep s (.go i) = some t ∧ Accounted base t := by
  have hask := ha.asks i
  unfold respStep
  dsimp only
  cases hpc : s.pc i with
  | idle => exact absurd hpc hi
  | object resp bufSize =>
    rw [hpc] at hask
    refine accounted_calloc ha hask ?_ (fun _ => trivial) ?_ trivial
    · intro p
      rw [hpc]
      rfl
    · rw [hpc]
      rfl
  | ready resp buf => exact accounted_free ha (by rw [hpc]; rfl) trivial
  | drop resp => exact accounted_free ha (by rw [hpc]; rfl) trivial

theorem resp_create (ha : Accounted base s) {i : ι} (hi : s.pc i = .idle) {bufSize : Nat}
    (hb : bufSize ≤ maxAsk) :
    ∃ t, respStep s (.create i bufSize) = some t ∧ Accounted base t := by
  unfold respStep
  dsimp only
  rw [hi]
  refine accounted_calloc ha (by decide) ?_ (fun _ => hb) ?_ trivial
  · intro p
    rw [hi]
    rfl
  · rw [hi]

/-- the buffers that are asked for do not wrap -/
def RespAct.Fits : RespAct ι → Prop
  | .create _ bufSize => bufSize ≤ maxAsk
  | .go _ => True

instance RespAct.decidableFits : ∀ a : RespAct ι, Decidable a.Fits
  | .create _ _ => inferInstanceAs (Decidable (_ ≤ _))
  | .go _ => inferInstanceAs (Decidable True)

theorem accounted_step (a : RespAct ι) (t : RespSt ι) (ha : Accounted base s)
    (ht : respStep s a = some t) (hf : a.Fits) : Accounted base t := by
  cases a with
  | create i bufSize =>
    have hi : s.pc i = .idle := by
      cases hpc : s.pc i with
      | idle => rfl
      | _ =>
        unfold respStep at ht
        dsimp only at ht
        rw [hpc] at ht
        cases ht
    obtain ⟨u, hu, hau⟩ := resp_create ha hi hf
    rw [ht] at hu
    exact Option.some.inj hu ▸ hau
  | go i =>
    have hi : s.pc i ≠ .idle := by
      intro hpc
      unfold respStep at ht
      dsimp only at ht
      rw [hpc] at ht
      cases ht
    obtain ⟨u, hu, hau⟩ := resp_go ha hi
    rw [ht] at hu
    exact Option.some.inj hu ▸ hau

/-- **No response object is leaked.** -/
theorem resp_no_leak {m : HeapSt} {l : List Seg} (ho : Owned m l) (as : List (RespAct ι))
    (t : RespSt ι) (hr : run respStep ⟨m, fun _ => .idle⟩ as = some t)
    (hf : ∀ a ∈ as, a.Fits) :
    Apart t.mem ∧
      (∀ i bufSize, t.pc i = .idle → bufSize ≤ maxAsk → (respStep t (.create i bufSize)).isSome) ∧
      (∀ i, t.pc i ≠ .idle → (respStep t (.go i)).isSome) ∧
      ((∀ i, t.pc i = .idle) → t.mem.held = m.held) := by
  have h0 : Accounted m.held (⟨m, fun _ => .idle⟩ : RespSt ι) :=
    ⟨⟨l, ho⟩, fun i p hp => absurd hp List.not_mem_nil, fun i j p hp => absurd hp List.not_mem_nil,
      fun _ => List.nodup_nil, fun _ _ => rfl, fun _ => trivial⟩
  have ha : Accounted m.held t := run_inv (I := Accounted m.held) (G := fun _ a _ => a.Fits)
    (fun s a u hs hu hg => accounted_step a u hs hu hg) as _ t h0 (along_of_mem hf _) hr
  refine ⟨?_, fun i bufSize hi hb => ?_, fun i hi => ?_, fun hidle => ?_⟩
  · obtain ⟨l', ho'⟩ := ha.owned
    exact ho'.apart
  · obtain ⟨u, hu, -⟩ := resp_create ha hi hb
    rw [hu]
    rfl
  · obtain ⟨u, hu, -⟩ := resp_go ha hi
    rw [hu]
    rfl
  · refine funext fun p => ha.rest p fun i hp => ?_
    rw [hidle] at hp
    cases hp

end

/-- the second thread finds memory for the object, and none for the buffer -/
def twoCommands : List (RespAct Bool) :=
  [.create false 64, .create true 180, .go false, .go true, .go true, .go false, .go false]

theorem twoCommands_runs :
    (run respStep ⟨⟨heap256, fun _ => none⟩, fun _ => .idle⟩ twoCommands).isSome := by
  decide +kernel

theorem twoCommands_back (i : Bool) :
    ((run respStep ⟨⟨heap256, fun _ => none⟩, fun _ => .idle⟩ twoCommands).get
      twoCommands_runs).pc i = .idle := by
  revert i
  decide +kernel

theorem resp_no_leak_ok : ∃ t : RespSt Bool,
    run respStep ⟨⟨heap256, fun _ => none⟩, fun _ => .idle⟩ twoCommands = some t ∧
      t.mem.held = fun _ => none :=
  have hrun := (Option.some_get twoCommands_runs).symm
  ⟨_, hrun, (resp_no_leak (owned_init heap256_init (by decide)).1 twoCommands _ hrun
    (by decide)).2.2.2 twoCommands_back⟩

end ENV
