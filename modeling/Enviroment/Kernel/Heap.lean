import Enviroment.Kernel.Types
import Enviroment.Lib.Segments
import Mathlib.Logic.Function.Basic

/-!
# The heap (`mem.c`)

The heap is a chain of blocks, each behind a header with the offsets of its neighbours.  Offsets
count from `heap_ptr`; a header has 12 bytes, and the heap ends with one more, at `heap_end`.

* `rtMalloc`, `rtFree`, `rtRealloc`   the functions, on the table of the headers; `none` is a failed
                                      assertion;
* `Chain`                             the headers at the starts of the segments of a list;
* `Laid`, `HeapInv`                   the heap is such a list; of two neighbours one is in use;
* `malloc_spec`, `free_spec`, `realloc_spec`   what the functions do to the list;
* `malloc_none_iff`                   when there is no memory.
-/

namespace ENV

open Segments

/-! ## headers -/

def heapMagic : Word := 0x1ea0

/-- `struct heap_mem` -/
structure HeapMem where
  magic : Word
  used : Bool
  next : Nat
  prev : Nat

/-- `SIZEOF_STRUCT_MEM` -/
def sizeofStructMem : Nat := 12

/-- `MIN_SIZE_ALIGNED`, also `MIN_SIZE` -/
def minSizeAligned : Nat := 12

/-- `RT_ALIGN(size, RT_ALIGN_SIZE)`, on 32 bits -/
def rtAlign (size : Nat) : Nat := (size + 3) % 2 ^ 32 / 4 * 4

/-- the variables of `mem.c` -/
structure Heap where
  mem : Nat → HeapMem
  /-- the lowest free block, or `heap_end` -/
  lfree : Nat
  /-- `mem_size_aligned` -/
  size : Nat
  usedMem : Nat
  maxMem : Nat

/-- `heap_end` -/
def Heap.fin (h : Heap) : Nat := h.size + sizeofStructMem

def Heap.set (h : Heap) (p : Nat) (m : HeapMem) : Heap := { h with mem := Function.update h.mem p m }
def Heap.setNext (h : Heap) (p next : Nat) : Heap := h.set p { h.mem p with next := next }
def Heap.setPrev (h : Heap) (p prev : Nat) : Heap := h.set p { h.mem p with prev := prev }

/-- `used_mem += n; if (max_mem < used_mem) max_mem = used_mem;` -/
def Heap.addUsed (h : Heap) (n : Nat) : Heap :=
  { h with usedMem := h.usedMem + n, maxMem := max h.maxMem (h.usedMem + n) }

/-! ## the functions -/

/-- the block at `q` becomes part of the one at `p` -/
def Heap.join (h : Heap) (p q : Nat) : Heap :=
  let h := if h.lfree = q then { h with lfree := p } else h
  let next := (h.mem q).next
  (h.setNext p next).setPrev next p

/-- `plug_holes`, forward -/
def Heap.plugForward (h : Heap) (mem : Nat) : Heap :=
  let nmem := (h.mem mem).next
  if mem ≠ nmem ∧ (h.mem nmem).used = false ∧ nmem ≠ h.fin then h.join mem nmem else h

/-- `plug_holes`, backward -/
def Heap.plugBackward (h : Heap) (mem : Nat) : Heap :=
  let pmem := (h.mem mem).prev
  if pmem ≠ mem ∧ (h.mem pmem).used = false then h.join pmem mem else h

/-- `plug_holes` behind its assertions -/
def Heap.plug (h : Heap) (mem : Nat) : Heap := (h.plugForward mem).plugBackward mem

/-- `plug_holes(mem)`; the first assertion, `mem >= heap_ptr`, holds of every offset -/
def Heap.plugHoles (h : Heap) (mem : Nat) : Option Heap :=
  if mem < h.fin ∧ (h.mem mem).used = false then some (h.plug mem) else none

/-- `rt_system_heap_init(begin_addr, end_addr)`; the end is in the address space -/
def rtSystemHeapInit (mem : Nat → HeapMem) (beginAddr endAddr : Nat) : Option Heap :=
  let beginAlign := rtAlign beginAddr
  let endAlign := endAddr / 4 * 4
  if endAlign > 2 * sizeofStructMem ∧ endAlign - 2 * sizeofStructMem ≥ beginAlign then
    let size := endAlign - beginAlign - 2 * sizeofStructMem
    let fin := size + sizeofStructMem
    let h : Heap := ⟨mem, 0, size, 0, 0⟩
    some ((h.set 0 ⟨heapMagic, false, fin, 0⟩).set fin ⟨heapMagic, true, fin, fin⟩)
  else none

/-- the search of `rt_malloc`; the heap has at least `MIN_SIZE_ALIGNED` bytes, else
`mem_size_aligned - size` wraps and the search does not end -/
def Heap.find (h : Heap) (size : Nat) : Nat → Nat → Option Nat
  | 0, _ => none
  | fuel + 1, ptr =>
    if ptr < h.size - size then
      if (h.mem ptr).used = false ∧ (h.mem ptr).next - (ptr + sizeofStructMem) ≥ size then some ptr
      else h.find size fuel (h.mem ptr).next
    else none

/-- a block is cut in two: the second one is free and starts at `ptr2` -/
def Heap.split (h : Heap) (ptr ptr2 : Nat) : Heap :=
  let next := (h.mem ptr).next
  let h := h.set ptr2 ⟨heapMagic, false, next, ptr⟩
  let h := h.setNext ptr ptr2
  if next ≠ h.size + sizeofStructMem then h.setPrev next ptr2 else h

/-- `rt_malloc` takes the block at `ptr`, or the front of it -/
def Heap.carve (h : Heap) (ptr size : Nat) : Heap :=
  let mem := h.mem ptr
  let h := h.set ptr { mem with magic := heapMagic, used := true }
  if mem.next - (ptr + sizeofStructMem) ≥ size + sizeofStructMem + minSizeAligned then
    (h.split ptr (ptr + sizeofStructMem + size)).addUsed (size + sizeofStructMem)
  else h.addUsed (mem.next - ptr)

/-- `while (lfree->used && lfree != heap_end) lfree = lfree->next;` -/
def Heap.nextFree (h : Heap) : Nat → Nat → Nat
  | 0, p => p
  | fuel + 1, p => if (h.mem p).used ∧ p ≠ h.fin then h.nextFree fuel (h.mem p).next else p

/-- `lfree` goes up to the next free block -/
def Heap.raise (h : Heap) : Option Heap :=
  let lfree := h.nextFree (h.size + 1) h.lfree
  if lfree = h.fin ∨ (h.mem lfree).used = false then some { h with lfree := lfree } else none

/-- the block at `ptr` is taken; the next free block is the lowest one now -/
def Heap.take (h : Heap) (ptr size : Nat) : Option Heap :=
  let h := h.carve ptr size
  (if ptr = h.lfree then h.raise else some h).bind fun h =>
    -- the assertions behind `rt_sem_release`
    if ptr + sizeofStructMem + size ≤ h.fin ∧ (ptr + sizeofStructMem) % 4 = 0 ∧ ptr % 4 = 0 then
      some h
    else none

/-- every data block is at least `MIN_SIZE_ALIGNED` long -/
def allocSize (size : Nat) : Nat :=
  if rtAlign size < minSizeAligned then minSizeAligned else rtAlign size

/-- `rt_malloc(size)`: the data of the block -/
def rtMalloc (h : Heap) (size : Nat) : Option (Option Nat × Heap) :=
  if size = 0 then some (none, h)
  else if rtAlign size > h.size then some (none, h)
  else
    match h.find (allocSize size) (h.size + 1) h.lfree with
    | none => some (none, h)
    | some ptr => (h.take ptr (allocSize size)).map fun h => (some (ptr + sizeofStructMem), h)

/-- `rt_calloc(count, size)`; the bytes of the block are not modelled -/
def rtCalloc (h : Heap) (count size : Nat) : Option (Option Nat × Heap) :=
  rtMalloc h (count * size % 2 ^ 32)

/-- the block at `ptr` is marked free -/
def Heap.clear (h : Heap) (ptr : Nat) : Heap :=
  let mem := h.mem ptr
  let h := h.set ptr { mem with magic := heapMagic, used := false }
  let h := if ptr < h.lfree then { h with lfree := ptr } else h
  { h with usedMem := h.usedMem - (mem.next - ptr) }

/-- `rt_free(rmem)`; a header before `heap_ptr` fails an assertion, at the latest the first one of
`plug_holes` -/
def rtFree (h : Heap) (rmem : Option Nat) : Option Heap :=
  match rmem with
  | none => some h
  | some rmem =>
    if rmem % 4 = 0 ∧ rmem < h.fin ∧ sizeofStructMem ≤ rmem then
      let ptr := rmem - sizeofStructMem
      let mem := h.mem ptr
      if mem.used = true ∧ mem.magic = heapMagic then (h.clear ptr).plugHoles ptr else none
    else none

/-- the block at `ptr` is cut behind `newsize` bytes -/
def Heap.shrink (h : Heap) (ptr size newsize : Nat) : Option Heap :=
  let ptr2 := ptr + sizeofStructMem + newsize
  let h := { h with usedMem := h.usedMem - (size - newsize) }
  (h.split ptr ptr2).plugHoles ptr2

/-- `rt_realloc(rmem, newsize)`, where `rmem` is behind a header; the bytes of the blocks are not
modelled -/
def rtRealloc (h : Heap) (rmem : Option Nat) (newsize : Nat) : Option (Option Nat × Heap) :=
  let newsize := rtAlign newsize
  if newsize > h.size then some (none, h)
  else if newsize = 0 then (rtFree h rmem).map fun h => (none, h)
  else
    match rmem with
    | none => rtMalloc h newsize
    | some rmem =>
      if rmem ≥ h.fin then some (some rmem, h)
      else
        let ptr := rmem - sizeofStructMem
        let size := (h.mem ptr).next - ptr - sizeofStructMem
        if size = newsize then some (some rmem, h)
        else if newsize + sizeofStructMem + minSizeAligned < size then
          (h.shrink ptr size newsize).map fun h => (some rmem, h)
        else
          (rtMalloc h newsize).bind fun
            | (none, h) => some (none, h)
            | (some nmem, h) => (rtFree h (some rmem)).map fun h => (some nmem, h)

/-! ## the chain of the blocks -/

/-- the headers of the segments `l` from `p` on, behind a block that starts at `prev` -/
def Chain (mem : Nat → HeapMem) : Nat → Nat → List Seg → Prop
  | _, _, [] => True
  | prev, p, s :: l => mem p = ⟨heapMagic, s.used, p + s.len, prev⟩ ∧ Chain mem p (p + s.len) l

/-- the start of the last segment -/
def lastStart : Nat → Nat → List Seg → Nat
  | prev, _, [] => prev
  | _, p, s :: l => lastStart p (p + s.len) l

variable {mem mem' : Nat → HeapMem}

theorem chain_append {prev p : Nat} {l l' : List Seg} :
    Chain mem prev p (l ++ l') ↔
      Chain mem prev p l ∧ Chain mem (lastStart prev p l) (p + total l) l' := by
  induction l generalizing prev p with
  | nil => exact (and_iff_right trivial).symm
  | cons s l ih =>
    rw [List.cons_append, Chain, Chain, ih, total_cons, ← Nat.add_assoc, and_assoc]
    rfl

theorem chain_congr {prev p : Nat} {l : List Seg} (hl : Positive l)
    (h : ∀ q, p ≤ q → q < p + total l → mem q = mem' q) :
    Chain mem prev p l ↔ Chain mem' prev p l := by
  induction l generalizing prev p with
  | nil => exact Iff.rfl
  | cons s l ih =>
    rw [total_cons] at h
    have hs := hl s List.mem_cons_self
    rw [Chain, Chain, h p (Nat.le_refl p) (by omega)]
    refine and_congr_right fun _ => ih (fun t ht => hl t (List.mem_cons_of_mem s ht)) ?_
    intro q h1 h2
    exact h q (by omega) (by omega)

/-- a write elsewhere -/
theorem chain_update {prev p q : Nat} {l : List Seg} (hl : Positive l) (m : HeapMem)
    (hq : q < p ∨ p + total l ≤ q) :
    Chain (Function.update mem q m) prev p l ↔ Chain mem prev p l := by
  refine chain_congr hl fun r h1 h2 => Function.update_of_ne ?_ m mem
  omega

/-- the block behind gets a new neighbour -/
theorem chain_setPrev {prev p : Nat} {l : List Seg} (hl : Positive l) (h : Chain mem prev p l)
    (prev' : Nat) : Chain (Function.update mem p { mem p with prev := prev' }) prev' p l := by
  cases l with
  | nil => trivial
  | cons s l =>
    obtain ⟨hs, hrest⟩ := h
    have h0 := hl s List.mem_cons_self
    refine ⟨?_, (chain_update (fun t ht => hl t (List.mem_cons_of_mem s ht)) _ (by omega)).mpr hrest⟩
    rw [Function.update_self, hs]

theorem chain_cons {prev p : Nat} {s : Seg} {l : List Seg} :
    Chain mem prev p (s :: l) ↔
      mem p = ⟨heapMagic, s.used, p + s.len, prev⟩ ∧ Chain mem p (p + s.len) l := Iff.rfl

theorem lastStart_snoc (prev p : Nat) (l : List Seg) (s : Seg) :
    lastStart prev p (l ++ [s]) = p + total l := by
  induction l generalizing prev p with
  | nil => rfl
  | cons t l ih =>
    rw [List.cons_append, lastStart, ih, total_cons, Nat.add_assoc]

/-- a cut of the chain at a segment -/
theorem chain_middle {pre post : List Seg} {s : Seg} :
    Chain mem 0 0 (pre ++ s :: post) ↔ Chain mem 0 0 pre ∧
      mem (total pre) = ⟨heapMagic, s.used, total pre + s.len, lastStart 0 0 pre⟩ ∧
      Chain mem (total pre) (total pre + s.len) post := by
  rw [chain_append, Nat.zero_add, chain_cons]

/-- two neighbours become one -/
theorem chain_join {pre post : List Seg} {s t : Seg} (hl : Positive (pre ++ s :: t :: post))
    (h : Chain mem 0 0 (pre ++ s :: t :: post)) :
    let next := total pre + s.len + t.len
    let mem' := Function.update mem (total pre) { mem (total pre) with next := next }
    Chain (Function.update mem' next { mem' next with prev := total pre }) 0 0
      (pre ++ ⟨s.used, s.len + t.len⟩ :: post) := by
  have hpre : Positive pre := fun u hu => hl u (List.mem_append_left _ hu)
  have hs := hl s (List.mem_append_right _ List.mem_cons_self)
  have ht := hl t (List.mem_append_right _ (List.mem_cons_of_mem s List.mem_cons_self))
  have hpost : Positive post := fun u hu =>
    hl u (List.mem_append_right _ (List.mem_cons_of_mem s (List.mem_cons_of_mem t hu)))
  obtain ⟨h1, h2, h3⟩ := chain_middle.mp h
  obtain ⟨h4, h5⟩ := chain_cons.mp h3
  refine chain_middle.mpr ⟨?_, ?_, ?_⟩
  · rw [chain_update hpre _ (by omega), chain_update hpre _ (by omega)]
    exact h1
  · rw [Function.update_of_ne (by omega), Function.update_self, h2]
    show HeapMem.mk _ _ (total pre + s.len + t.len) _ = _
    rw [Nat.add_assoc]
  · show Chain _ (total pre) (total pre + (s.len + t.len)) post
    rw [← Nat.add_assoc]
    exact chain_setPrev hpost ((chain_update hpost _ (by omega)).mpr h5) (total pre)

/-- one segment becomes two -/
theorem chain_split {pre post : List Seg} {s : Seg} {k : Nat} (hl : Positive (pre ++ s :: post))
    (hk : 0 < k) (hks : k < s.len) (h : Chain mem 0 0 (pre ++ s :: post)) :
    let ptr := total pre
    let mem1 := Function.update mem (ptr + k) ⟨heapMagic, false, ptr + s.len, ptr⟩
    let mem2 := Function.update mem1 ptr { mem1 ptr with next := ptr + k }
    Chain (Function.update mem2 (ptr + s.len) { mem2 (ptr + s.len) with prev := ptr + k }) 0 0
      (pre ++ ⟨s.used, k⟩ :: ⟨false, s.len - k⟩ :: post) ∧
    (post = [] → Chain mem2 0 0 (pre ++ ⟨s.used, k⟩ :: ⟨false, s.len - k⟩ :: post)) := by
  have hpre : Positive pre := fun u hu => hl u (List.mem_append_left _ hu)
  have hpost : Positive post := fun u hu =>
    hl u (List.mem_append_right _ (List.mem_cons_of_mem s hu))
  obtain ⟨h1, h2, h3⟩ := chain_middle.mp h
  have e : total pre + k + (s.len - k) = total pre + s.len := by omega
  constructor
  · refine chain_middle.mpr ⟨?_, ?_, chain_cons.mpr ⟨?_, ?_⟩⟩
    · rw [chain_update hpre _ (by omega), chain_update hpre _ (by omega),
        chain_update hpre _ (by omega)]
      exact h1
    · rw [Function.update_of_ne (by omega), Function.update_self, Function.update_of_ne (by omega),
        h2]
    · dsimp only
      rw [Function.update_of_ne (by omega), Function.update_of_ne (by omega), Function.update_self,
        e]
    · show Chain _ _ (total pre + k + (s.len - k)) post
      rw [e]
      refine @chain_setPrev _ (total pre) _ _ hpost ?_ _
      rw [chain_update hpost _ (by omega), chain_update hpost _ (by omega)]
      exact h3
  · rintro rfl
    refine chain_middle.mpr ⟨?_, ?_, chain_cons.mpr ⟨?_, trivial⟩⟩
    · rw [chain_update hpre _ (by omega), chain_update hpre _ (by omega)]
      exact h1
    · rw [Function.update_self, Function.update_of_ne (by omega), h2]
    · dsimp only
      rw [Function.update_of_ne (by omega), Function.update_self, e]

theorem chain_mark {pre post : List Seg} {s : Seg} (hl : Positive (pre ++ s :: post))
    (h : Chain mem 0 0 (pre ++ s :: post)) (u : Bool) :
    Chain (Function.update mem (total pre) { mem (total pre) with magic := heapMagic, used := u })
      0 0 (pre ++ ⟨u, s.len⟩ :: post) := by
  have hpre : Positive pre := fun u hu => hl u (List.mem_append_left _ hu)
  have hs := hl s (List.mem_append_right _ List.mem_cons_self)
  have hpost : Positive post := fun u hu =>
    hl u (List.mem_append_right _ (List.mem_cons_of_mem s hu))
  obtain ⟨h1, h2, h3⟩ := chain_middle.mp h
  refine chain_middle.mpr ⟨(chain_update hpre _ (by omega)).mpr h1, ?_, ?_⟩
  · rw [Function.update_self, h2]
  · exact (chain_update hpost _ (by dsimp only; omega)).mpr h3

/-! ## the heap as a list of segments -/

structure Shape (h : Heap) (l : List Seg) : Prop where
  chain : Chain h.mem 0 0 l
  total : total l = h.fin
  lens : ∀ s ∈ l, 16 ≤ s.len ∧ 4 ∣ s.len
  fin_used : (h.mem h.fin).used = true

structure Laid (h : Heap) (l : List Seg) : Prop extends Shape h l where
  usedMem : h.usedMem = usedTotal l

/-- `lfree` is the start of a free block -/
def HoleAt (h : Heap) (l : List Seg) : Prop := ∃ s, At l h.lfree s ∧ s.used = false

structure HeapInv (h : Heap) (l : List Seg) : Prop extends Laid h l where
  free : h.lfree = h.fin ∨ HoleAt h l
  coalesced : Coalesced l
  room : minSizeAligned ≤ h.size

theorem Shape.positive {h : Heap} {l : List Seg} (hl : Shape h l) : Positive l := by
  intro s hs
  have := (hl.lens s hs).1
  omega

/-- the header of a block -/
theorem Shape.header {h : Heap} {pre post : List Seg} {s : Seg} (hl : Shape h (pre ++ s :: post)) :
    h.mem (Segments.total pre) = ⟨heapMagic, s.used, Segments.total pre + s.len, lastStart 0 0 pre⟩ :=
  (chain_middle.mp hl.chain).2.1

/-- the block behind the last one is `heap_end` -/
theorem Shape.end_of_nil {h : Heap} {pre : List Seg} {s : Seg} (hl : Shape h (pre ++ [s])) :
    Segments.total pre + s.len = h.fin := by
  have := hl.total
  simpa using this

theorem Shape.lt_end {h : Heap} {pre post : List Seg} {s t : Seg}
    (hl : Shape h (pre ++ s :: t :: post)) : Segments.total pre + s.len < h.fin := by
  have ht := (hl.lens t (by simp)).1
  have := hl.total
  simp at this
  omega

/-! ### joining -/

theorem join_mem (h : Heap) (p q : Nat) :
    (h.join p q).mem =
      let mem' := Function.update h.mem p { h.mem p with next := (h.mem q).next }
      Function.update mem' (h.mem q).next { mem' (h.mem q).next with prev := p } := by
  unfold Heap.join
  split <;> rfl

theorem join_lfree (h : Heap) (p q : Nat) :
    (h.join p q).lfree = if h.lfree = q then p else h.lfree := by
  unfold Heap.join
  split <;> rfl

theorem join_rest (h : Heap) (p q : Nat) :
    (h.join p q).size = h.size ∧ (h.join p q).usedMem = h.usedMem := by
  unfold Heap.join
  split <;> exact ⟨rfl, rfl⟩

theorem laid_join {h : Heap} {pre post : List Seg} {n m : Nat}
    (hl : Laid h (pre ++ ⟨false, n⟩ :: ⟨false, m⟩ :: post)) :
    Laid (h.join (total pre) (total pre + n)) (pre ++ ⟨false, n + m⟩ :: post) := by
  have hn := (hl.lens ⟨false, n⟩ (by simp)).1
  have hchain := chain_join hl.positive hl.chain
  have hnext : (h.mem (total pre + n)).next = total pre + n + m := by
    have hl' : Laid h ((pre ++ [⟨false, n⟩]) ++ ⟨false, m⟩ :: post) := by simpa using hl
    have h2 := hl'.header
    rw [total_append, total_cons, total_nil, Nat.add_zero] at h2
    rw [h2]
  obtain ⟨hsize, hused⟩ := join_rest h (total pre) (total pre + n)
  have hfin : (h.join (total pre) (total pre + n)).fin = h.fin := by
    unfold Heap.fin
    rw [hsize]
  have hlt := hl.lt_end
  refine ⟨⟨?_, ?_, ?_, ?_⟩, ?_⟩
  · rw [join_mem, hnext]
    exact hchain
  · rw [hfin, ← hl.total]
    simp
    omega
  · intro s hs
    rcases List.mem_append.mp hs with hs | hs
    · exact hl.lens s (List.mem_append_left _ hs)
    · rcases List.mem_cons.mp hs with rfl | hs
      · have h1 := hl.lens ⟨false, n⟩ (by simp)
        have h2 := hl.lens ⟨false, m⟩ (by simp)
        dsimp only at h1 h2 ⊢
        omega
      · exact hl.lens s (by simp [hs])
  · rw [hfin, join_mem, hnext]
    dsimp only
    by_cases he : h.fin = total pre + n + m
    · rw [← he, Function.update_self, Function.update_of_ne (by omega)]
      exact hl.fin_used
    · rw [Function.update_of_ne he, Function.update_of_ne (by dsimp only at hlt; omega)]
      exact hl.fin_used
  · rw [hused, hl.usedMem]
    simp [usedTotal_append, usedTotal_cons]

/-! ### plugging holes -/

/-- `h'` is `h` with free neighbours put together -/
structure Plugged (h : Heap) (l : List Seg) (h' : Heap) (l' : List Seg) : Prop where
  laid : Laid h' l'
  size : h'.size = h.size
  same : SameUsed l l'
  hole : HoleAt h l → HoleAt h' l'
  fin : h.lfree = h.fin → h'.lfree = h'.fin
  first : firstFree l' = firstFree l
  lowest : h.lfree = firstFree l → h'.lfree = firstFree l'

theorem plugged_refl {h : Heap} {l : List Seg} (hl : Laid h l) : Plugged h l h l :=
  ⟨hl, rfl, sameUsed_refl l, id, id, rfl, id⟩

theorem Plugged.trans {h h' h'' : Heap} {l l' l'' : List Seg} (p : Plugged h l h' l')
    (p' : Plugged h' l' h'' l'') : Plugged h l h'' l'' :=
  ⟨p'.laid, p'.size.trans p.size, p.same.trans p'.same, p'.hole ∘ p.hole, p'.fin ∘ p.fin,
    p'.first.trans p.first, p'.lowest ∘ p.lowest⟩

theorem plugged_join {h : Heap} {pre post : List Seg} {n m : Nat}
    (hl : Laid h (pre ++ ⟨false, n⟩ :: ⟨false, m⟩ :: post)) :
    Plugged h (pre ++ ⟨false, n⟩ :: ⟨false, m⟩ :: post) (h.join (total pre) (total pre + n))
      (pre ++ ⟨false, n + m⟩ :: post) := by
  have hn := (hl.lens ⟨false, n⟩ (by simp)).1
  have hlt := hl.lt_end
  dsimp only at hn hlt
  obtain ⟨hsize, -⟩ := join_rest h (total pre) (total pre + n)
  have hmid : total [(⟨false, n⟩ : Seg), ⟨false, m⟩] = total [(⟨false, n + m⟩ : Seg)] := by simp
  have hfirst : firstFree (pre ++ (⟨false, n + m⟩ : Seg) :: post) =
      firstFree (pre ++ (⟨false, n⟩ : Seg) :: ⟨false, m⟩ :: post) := by
    rw [firstFree_append, firstFree_append, firstFree_cons_free rfl, firstFree_cons_free rfl]
  refine ⟨laid_join hl, hsize, ?_, ?_, ?_, hfirst, ?_⟩
  · refine @sameUsed_replace pre [⟨false, n⟩, ⟨false, m⟩] [⟨false, n + m⟩] post hmid ?_ ?_
    · simp
    · simp
  · rintro ⟨s, hs, hf⟩
    unfold HoleAt
    rw [join_lfree]
    split
    next => exact ⟨⟨false, n + m⟩, ⟨pre, post, rfl, rfl⟩, rfl⟩
    next hne =>
      rcases at_mid_iff.mp hs with hpre | ⟨h0, -⟩ | ⟨hle, hs'⟩
      · exact ⟨s, at_mid_iff.mpr (Or.inl hpre), hf⟩
      · exact ⟨⟨false, n + m⟩, at_mid_iff.mpr (Or.inr (Or.inl ⟨h0, rfl⟩)), rfl⟩
      · dsimp only at hle hs'
        rcases at_cons_iff.mp hs' with ⟨h0, -⟩ | ⟨hge, hpost⟩
        · exact absurd (by omega : h.lfree = total pre + n) hne
        · dsimp only at hge hpost
          refine ⟨s, at_mid_iff.mpr (Or.inr (Or.inr ⟨?_, ?_⟩)), hf⟩
          · dsimp only
            omega
          · dsimp only
            rw [Nat.sub_sub, Nat.add_assoc] at hpost
            exact hpost
  · intro hfin
    rw [join_lfree, if_neg (by omega), hfin]
    unfold Heap.fin
    rw [hsize]
  · intro hlow
    have hle : firstFree (pre ++ (⟨false, n⟩ : Seg) :: ⟨false, m⟩ :: post) ≤ total pre :=
      firstFree_le ⟨pre, _, rfl, rfl⟩ rfl
    rw [join_lfree, if_neg (by omega), hfirst]
    exact hlow

theorem plugForward_join {h : Heap} {pre post : List Seg} {n m : Nat}
    (hl : Laid h (pre ++ ⟨false, n⟩ :: ⟨false, m⟩ :: post)) :
    h.plugForward (total pre) = h.join (total pre) (total pre + n) := by
  have hn := (hl.lens ⟨false, n⟩ (by simp)).1
  have hl' : Laid h ((pre ++ [⟨false, n⟩]) ++ ⟨false, m⟩ :: post) := by simpa using hl
  have hm := hl'.header
  rw [total_append, total_cons, total_nil, Nat.add_zero] at hm
  have hlt := hl.lt_end
  dsimp only at hn hm hlt
  unfold Heap.plugForward
  rw [hl.header]
  dsimp only
  rw [hm]
  exact if_pos ⟨by omega, rfl, Nat.ne_of_lt hlt⟩

/-- behind the block comes one in use, or the end -/
theorem plugForward_stay {h : Heap} {pre post : List Seg} {n : Nat}
    (hl : Laid h (pre ++ ⟨false, n⟩ :: post)) (hpost : ∀ s ∈ post.head?, s.used = true) :
    h.plugForward (total pre) = h := by
  unfold Heap.plugForward
  rw [hl.header]
  cases post with
  | nil => exact if_neg fun hcond => hcond.2.2 hl.end_of_nil
  | cons t post =>
    have hl' : Laid h ((pre ++ [⟨false, n⟩]) ++ t :: post) := by simpa using hl
    have ht := hl'.header
    rw [total_append, total_cons, total_nil, Nat.add_zero] at ht
    dsimp only at ht ⊢
    rw [ht, hpost t rfl]
    exact if_neg fun hcond => (by cases hcond.2.1)

theorem plugForward_spec {h : Heap} {pre post : List Seg} {n : Nat}
    (hl : Laid h (pre ++ ⟨false, n⟩ :: post)) (hc : Coalesced post) :
    ∃ n' post', Plugged h (pre ++ ⟨false, n⟩ :: post) (h.plugForward (total pre))
      (pre ++ ⟨false, n'⟩ :: post') ∧ Coalesced (⟨false, n'⟩ :: post') := by
  match post with
  | [] =>
    rw [plugForward_stay hl fun s hs => (by cases hs)]
    exact ⟨n, [], plugged_refl hl, List.IsChain.singleton _⟩
  | ⟨true, m⟩ :: post =>
    rw [plugForward_stay hl fun s hs => (by cases hs; rfl)]
    exact ⟨n, _, plugged_refl hl, List.isChain_cons_cons.mpr ⟨Or.inr rfl, hc⟩⟩
  | ⟨false, m⟩ :: post =>
    rw [plugForward_join hl]
    exact ⟨n + m, post, plugged_join hl, coalesced_cons_len _ hc⟩

/-- before the block is one in use -/
theorem plugBackward_stay {h : Heap} {pre post : List Seg} {s : Seg} {m : Nat}
    (hl : Laid h (pre ++ [⟨true, m⟩] ++ s :: post)) :
    h.plugBackward (total (pre ++ [⟨true, m⟩])) = h := by
  have e : pre ++ [(⟨true, m⟩ : Seg)] ++ s :: post = pre ++ ⟨true, m⟩ :: s :: post := by simp
  unfold Heap.plugBackward
  rw [hl.header, lastStart_snoc, Nat.zero_add]
  rw [e] at hl
  dsimp only
  rw [hl.header]
  exact if_neg fun hcond => (by cases hcond.2)

theorem plugBackward_join {h : Heap} {pre post : List Seg} {n m : Nat}
    (hl : Laid h (pre ++ ⟨false, m⟩ :: ⟨false, n⟩ :: post)) :
    h.plugBackward (total pre + m) = h.join (total pre) (total pre + m) := by
  have hm := (hl.lens ⟨false, m⟩ (by simp)).1
  have hl' : Laid h ((pre ++ [⟨false, m⟩]) ++ ⟨false, n⟩ :: post) := by simpa using hl
  have hn := hl'.header
  rw [total_append, total_cons, total_nil, Nat.add_zero, lastStart_snoc, Nat.zero_add] at hn
  dsimp only at hm hn
  unfold Heap.plugBackward
  rw [hn]
  dsimp only
  rw [hl.header]
  exact if_pos ⟨by omega, rfl⟩

theorem plugBackward_spec {h : Heap} {pre post : List Seg} {n : Nat}
    (hl : Laid h (pre ++ ⟨false, n⟩ :: post)) (hc : Coalesced pre) :
    ∃ pre' n', Plugged h (pre ++ ⟨false, n⟩ :: post) (h.plugBackward (total pre))
      (pre' ++ ⟨false, n'⟩ :: post) ∧ Coalesced (pre' ++ [⟨false, n'⟩]) := by
  rcases List.eq_nil_or_concat pre with rfl | ⟨pre0, ⟨u, m⟩, rfl⟩
  · have hstay : h.plugBackward (total []) = h := by
      unfold Heap.plugBackward
      rw [hl.header]
      exact if_neg fun hcond => hcond.1 rfl
    rw [hstay]
    exact ⟨[], n, plugged_refl hl, List.IsChain.singleton _⟩
  rw [List.concat_eq_append] at hl hc ⊢
  cases u with
  | true =>
    rw [plugBackward_stay hl]
    refine ⟨_, n, plugged_refl hl, ?_⟩
    refine List.isChain_append.mpr ⟨hc, List.IsChain.singleton _, fun x hx y _ => Or.inl ?_⟩
    rw [List.getLast?_concat] at hx
    cases hx
    rfl
  | false =>
    have e : pre0 ++ [(⟨false, m⟩ : Seg)] ++ ⟨false, n⟩ :: post =
        pre0 ++ ⟨false, m⟩ :: ⟨false, n⟩ :: post := by simp
    rw [e] at hl ⊢
    rw [total_append, total_cons, total_nil, Nat.add_zero, plugBackward_join hl]
    exact ⟨pre0, m + n, plugged_join hl, coalesced_snoc_len _ hc⟩

/-- the assertions of `plug_holes` hold of a free block -/
theorem plugHoles_eq {h : Heap} {pre post : List Seg} {n : Nat}
    (hl : Shape h (pre ++ ⟨false, n⟩ :: post)) :
    h.plugHoles (total pre) = some (h.plug (total pre)) := by
  have hn := (hl.lens ⟨false, n⟩ (by simp)).1
  have htot := hl.total
  rw [total_append, total_cons] at htot
  dsimp only at hn htot
  unfold Heap.plugHoles
  rw [hl.header]
  exact if_pos ⟨by omega, rfl⟩

/-- after `plug_holes` no two neighbours are free -/
theorem plug_spec {h : Heap} {pre post : List Seg} {n : Nat}
    (hl : Laid h (pre ++ ⟨false, n⟩ :: post)) (hpre : Coalesced pre) (hpost : Coalesced post) :
    ∃ l', Plugged h (pre ++ ⟨false, n⟩ :: post) (h.plug (total pre)) l' ∧ Coalesced l' := by
  obtain ⟨n1, post', h1, hc1⟩ := plugForward_spec hl hpost
  obtain ⟨pre', n2, h2, hc2⟩ := plugBackward_spec h1.laid hpre
  refine ⟨_, h1.trans h2, List.isChain_split.mpr ⟨hc2, coalesced_cons_len _ hc1⟩⟩

/-! ### cutting -/

/-- the flag of a block is written -/
theorem shape_mark {h : Heap} {pre post : List Seg} {s : Seg} (hl : Shape h (pre ++ s :: post))
    (u : Bool) :
    Shape (h.set (total pre) { h.mem (total pre) with magic := heapMagic, used := u })
      (pre ++ ⟨u, s.len⟩ :: post) := by
  have hs := hl.lens s (by simp)
  have htot := hl.total
  rw [total_append, total_cons] at htot
  refine ⟨chain_mark hl.positive hl.chain u, ?_, ?_, ?_⟩
  · rw [total_append, total_cons]
    exact htot
  · intro t ht
    rcases List.mem_append.mp ht with ht | ht
    · exact hl.lens t (List.mem_append_left _ ht)
    · rcases List.mem_cons.mp ht with rfl | ht
      · exact hs
      · exact hl.lens t (by simp [ht])
  · show (Function.update h.mem (total pre) _ h.fin).used = true
    rw [Function.update_of_ne (by omega)]
    exact hl.fin_used

@[simp] theorem set_self (h : Heap) (p : Nat) (m : HeapMem) : (h.set p m).mem p = m := by
  unfold Heap.set
  exact Function.update_self ..

theorem set_of_ne (h : Heap) {p q : Nat} (hq : q ≠ p) (m : HeapMem) :
    (h.set p m).mem q = h.mem q := by
  unfold Heap.set
  exact Function.update_of_ne hq ..

/-- the links are written without the flags -/
theorem setNext_used (h : Heap) (p q r : Nat) :
    ((h.setNext p q).mem r).used = (h.mem r).used := by
  unfold Heap.setNext
  by_cases hr : r = p
  · rw [hr, set_self]
  · rw [set_of_ne h hr]

theorem setPrev_used (h : Heap) (p q r : Nat) :
    ((h.setPrev p q).mem r).used = (h.mem r).used := by
  unfold Heap.setPrev
  by_cases hr : r = p
  · rw [hr, set_self]
  · rw [set_of_ne h hr]

theorem split_used (h : Heap) {p q r : Nat} (hr : r ≠ q) :
    ((h.split p q).mem r).used = (h.mem r).used := by
  unfold Heap.split
  dsimp only
  split
  · rw [setPrev_used, setNext_used, set_of_ne h hr]
  · rw [setNext_used, set_of_ne h hr]

theorem split_rest (h : Heap) (p q : Nat) :
    (h.split p q).size = h.size ∧ (h.split p q).lfree = h.lfree ∧
      (h.split p q).usedMem = h.usedMem := by
  unfold Heap.split
  dsimp only
  split <;> exact ⟨rfl, rfl, rfl⟩

theorem shape_split {h : Heap} {pre post : List Seg} {s : Seg} {k : Nat}
    (hl : Shape h (pre ++ s :: post)) (hk : 16 ≤ k) (hk4 : 4 ∣ k) (hks : k + 16 ≤ s.len) :
    Shape (h.split (total pre) (total pre + k)) (pre ++ ⟨s.used, k⟩ :: ⟨false, s.len - k⟩ :: post) := by
  have hs := hl.lens s (by simp)
  have hhead := hl.header
  have hnext : (h.mem (total pre)).next = total pre + s.len := by rw [hhead]
  have htot := hl.total
  rw [total_append, total_cons] at htot
  obtain ⟨hsize, -⟩ := split_rest h (total pre) (total pre + k)
  have hfin : (h.split (total pre) (total pre + k)).fin = h.fin := by
    unfold Heap.fin
    rw [hsize]
  obtain ⟨hchain, hchain0⟩ := chain_split hl.positive (by omega : 0 < k) (by omega) hl.chain
  refine ⟨?_, ?_, ?_, ?_⟩
  · unfold Heap.split
    dsimp only
    rw [hnext]
    split
    next => exact hchain
    next hne =>
      have hend : total pre + s.len = h.fin := not_not.mp hne
      cases post with
      | nil => exact hchain0 rfl
      | cons t post => exact absurd hend (Nat.ne_of_lt hl.lt_end)
  · rw [hfin, total_append, total_cons, total_cons, ← htot]
    dsimp only
    omega
  · intro t ht
    rcases List.mem_append.mp ht with ht | ht
    · exact hl.lens t (List.mem_append_left _ ht)
    · rcases List.mem_cons.mp ht with rfl | ht
      · exact ⟨hk, hk4⟩
      · rcases List.mem_cons.mp ht with rfl | ht
        · exact ⟨by dsimp only; omega, Nat.dvd_sub hs.2 hk4⟩
        · exact hl.lens t (by simp [ht])
  · rw [hfin, split_used _ (by omega)]
    exact hl.fin_used

/-- what `rt_malloc` makes of a free block of `n` bytes -/
def cut (n size : Nat) : List Seg :=
  if size + 36 ≤ n then [⟨true, size + 12⟩, ⟨false, n - (size + 12)⟩] else [⟨true, n⟩]

/-- a block of `n` bytes is cut so: its length, and what remains -/
theorem cut_cases {n size : Nat} (hn : size + 12 ≤ n) :
    ∃ k rest, cut n size = ⟨true, k⟩ :: rest ∧ k + total rest = n ∧ size + 12 ≤ k ∧
      k < size + 36 ∧ ∀ s ∈ rest, s.used = false := by
  unfold cut
  split
  next h => exact ⟨size + 12, _, rfl, by simp; omega, by omega, by omega, by simp⟩
  next h => exact ⟨n, [], rfl, by simp, hn, by omega, by simp⟩

theorem carve_spec {h : Heap} {pre post : List Seg} {n size : Nat}
    (hl : Laid h (pre ++ ⟨false, n⟩ :: post)) (h4 : 4 ∣ size) (hmin : 12 ≤ size)
    (hn : size + 12 ≤ n) :
    Laid (h.carve (total pre) size) (pre ++ (cut n size ++ post)) ∧
      (h.carve (total pre) size).lfree = h.lfree ∧ (h.carve (total pre) size).size = h.size := by
  have hhead : h.mem (total pre) = ⟨heapMagic, false, total pre + n, lastStart 0 0 pre⟩ := hl.header
  have hmark := shape_mark hl.toShape true
  unfold Heap.carve cut
  dsimp only
  by_cases hbig : size + 36 ≤ n
  · rw [if_pos hbig, if_pos (by rw [hhead]; simp only [sizeofStructMem, minSizeAligned]; omega)]
    have e : total pre + sizeofStructMem + size = total pre + (size + 12) := by
      unfold sizeofStructMem
      omega
    rw [e]
    obtain ⟨h1, h2, h3⟩ := split_rest
      (h.set (total pre) { h.mem (total pre) with magic := heapMagic, used := true })
      (total pre) (total pre + (size + 12))
    refine ⟨⟨?_, ?_⟩, h2, h1⟩
    · have hs := shape_split (k := size + 12) hmark (by omega) (by omega) (by dsimp only; omega)
      exact ⟨hs.chain, hs.total, hs.lens, hs.fin_used⟩
    · show (Heap.split _ _ _).usedMem + _ = _
      rw [h3]
      show h.usedMem + _ = _
      rw [hl.usedMem]
      simp [usedTotal_append, usedTotal_cons, sizeofStructMem]
      omega
  · rw [if_neg hbig, if_neg (by rw [hhead]; simp only [sizeofStructMem, minSizeAligned]; omega)]
    refine ⟨⟨⟨hmark.chain, hmark.total, hmark.lens, hmark.fin_used⟩, ?_⟩, rfl, rfl⟩
    show h.usedMem + _ = _
    rw [hl.usedMem, hhead]
    simp [usedTotal_append, usedTotal_cons]
    omega

theorem coalesced_cut {pre post : List Seg} {n : Nat} (size : Nat)
    (hc : Coalesced (pre ++ ⟨false, n⟩ :: post)) : Coalesced (pre ++ (cut n size ++ post)) := by
  obtain ⟨hpre, hpost⟩ := List.isChain_split.mp hc
  obtain ⟨hpre', -, -⟩ := List.isChain_append.mp hpre
  have hjoin : ∀ k, Coalesced (pre ++ [⟨true, k⟩]) := by
    intro k
    refine List.isChain_append.mpr ⟨hpre', List.IsChain.singleton _, fun x _ y hy => Or.inr ?_⟩
    cases hy
    rfl
  unfold cut
  split
  · refine List.isChain_split.mpr ⟨hjoin _, List.isChain_cons_cons.mpr ⟨Or.inl rfl, ?_⟩⟩
    exact coalesced_cons_len _ hpost
  · refine List.isChain_split.mpr ⟨hjoin _, ?_⟩
    cases post with
    | nil => exact List.IsChain.singleton _
    | cons t post =>
      exact List.isChain_cons_cons.mpr ⟨Or.inl rfl, (List.isChain_cons_cons.mp hpost).2⟩

end ENV
