import Enviroment.Kernel.Heap
import Enviroment.Lib.Trace

/-!
# What the heap promises (`mem.c`)

* `find_none`, `find_some`   the search takes the first block that fits, from `lfree` on;
* `malloc_spec`, `free_spec`, `realloc_spec`   the blocks in use after a call;
* `malloc_none_iff`          when there is no memory.
-/

namespace ENV

open Segments

variable {h : Heap} {l pre suf post : List Seg}

/-! ## the searches -/

/-- a free block for `size` bytes starts at `q` -/
def Fits (l : List Seg) (size q : Nat) : Prop := ∃ n, At l q ⟨false, n⟩ ∧ size + 12 ≤ n

theorem total_snoc (l : List Seg) (s : Seg) : total (l ++ [s]) = total l + s.len := by simp

theorem find_nil (hl : Shape h pre) (size fuel : Nat) : h.find size (fuel + 1) (total pre) = none := by
  unfold Heap.find
  refine if_neg ?_
  rw [hl.total]
  simp only [Heap.fin]
  omega

theorem find_cons {s : Seg} (hl : Shape h (pre ++ s :: suf)) (size fuel : Nat) :
    h.find size (fuel + 1) (total pre) =
      if total pre < h.size - size then
        if s.used = false ∧ size + 12 ≤ s.len then some (total pre)
        else h.find size fuel (total (pre ++ [s]))
      else none := by
  have hs := (hl.lens s (by simp)).1
  have e : size ≤ total pre + s.len - (total pre + sizeofStructMem) ↔ size + 12 ≤ s.len := by
    unfold sizeofStructMem
    omega
  rw [Heap.find, hl.header, total_snoc]
  simp only [ge_iff_le, e]

/-- a block that does not fit is passed -/
theorem Fits.next {s : Seg} {size q : Nat} (hl : Shape h (pre ++ s :: suf))
    (hs : ¬ (s.used = false ∧ size + 12 ≤ s.len)) (hq : Fits (pre ++ s :: suf) size q)
    (hle : total pre ≤ q) : total (pre ++ [s]) ≤ q := by
  obtain ⟨n, hat, hn⟩ := hq
  rw [total_snoc]
  rcases at_mid_iff.mp hat with hp | ⟨-, rfl⟩ | ⟨hge, -⟩
  · have := hp.le_total
    dsimp only at this
    omega
  · exact absurd ⟨rfl, hn⟩ hs
  · exact hge

theorem find_none {size : Nat} (hl : Shape h (pre ++ suf)) {fuel : Nat} (hf : suf.length < fuel)
    (hnone : h.find size fuel (total pre) = none) {q : Nat} (hq : Fits (pre ++ suf) size q)
    (hle : total pre ≤ q) : h.size - size ≤ q := by
  induction suf generalizing pre fuel with
  | nil =>
    have := hl.total
    rw [List.append_nil] at this
    unfold Heap.fin at this
    omega
  | cons s suf ih =>
    obtain _ | fuel := fuel
    · omega
    rw [find_cons hl] at hnone
    split at hnone
    next hlt =>
      split at hnone
      next => cases hnone
      next hs =>
        have e : pre ++ s :: suf = pre ++ [s] ++ suf := by simp
        have hnext := hq.next hl hs hle
        rw [e] at hl hq
        rw [List.length_cons] at hf
        exact ih hl (by omega) hnone hq hnext
    next hlt => omega

/-- the first block that fits -/
theorem find_some {size q : Nat} (hl : Shape h (pre ++ suf)) {fuel : Nat}
    (hsome : h.find size fuel (total pre) = some q) :
    Fits (pre ++ suf) size q ∧ total pre ≤ q ∧ q < h.size - size ∧
      ∀ r, Fits (pre ++ suf) size r → total pre ≤ r → q ≤ r := by
  induction suf generalizing pre fuel with
  | nil =>
    rw [List.append_nil] at hl
    obtain _ | fuel := fuel
    · cases hsome
    rw [find_nil hl] at hsome
    cases hsome
  | cons s suf ih =>
    obtain _ | fuel := fuel
    · cases hsome
    rw [find_cons hl] at hsome
    split at hsome
    next hlt =>
      split at hsome
      next hs =>
        cases hsome
        obtain ⟨u, n⟩ := s
        obtain ⟨rfl, hn⟩ := hs
        exact ⟨⟨n, ⟨pre, suf, rfl, rfl⟩, hn⟩, Nat.le_refl _, hlt, fun r _ hr => hr⟩
      next hs =>
        have e : pre ++ s :: suf = pre ++ [s] ++ suf := by simp
        obtain ⟨h1, h2, h3, h4⟩ := ih (e ▸ hl) hsome
        rw [← e] at h1 h4
        refine ⟨h1, ?_, h3, fun r hr hle => h4 r hr (hr.next hl hs hle)⟩
        rw [total_snoc] at h2
        omega
    next => cases hsome

theorem nextFree_spec (hl : Shape h (pre ++ suf)) {fuel : Nat} (hf : suf.length < fuel) :
    h.nextFree fuel (total pre) = total pre + firstFree suf := by
  induction suf generalizing pre fuel with
  | nil =>
    obtain _ | fuel := fuel
    · omega
    have htot := hl.total
    rw [List.append_nil] at htot
    rw [Heap.nextFree, if_neg fun hc => hc.2 htot]
    rfl
  | cons s suf ih =>
    obtain _ | fuel := fuel
    · omega
    rw [Heap.nextFree, hl.header]
    have hs := (hl.lens s (by simp)).1
    have hne : total pre ≠ h.fin := by
      have := hl.total
      rw [total_append, total_cons] at this
      omega
    cases hu : s.used with
    | false =>
      rw [if_neg fun hc => (by cases hc.1), firstFree_cons_free hu]
      rfl
    | true =>
      have e : pre ++ s :: suf = pre ++ [s] ++ suf := by simp
      rw [List.length_cons] at hf
      have := @ih (pre ++ [s]) (e ▸ hl) fuel (by omega)
      rw [if_pos ⟨rfl, hne⟩, firstFree_cons_used hu, ← Nat.add_assoc, ← total_snoc]
      exact this

/-- the assertion behind the search for the next free block holds -/
theorem raise_spec (hl : Shape h (pre ++ suf)) (hp : h.lfree = total pre)
    (hf : suf.length < h.size + 1) :
    h.raise = some { h with lfree := total pre + firstFree suf } := by
  have hnext := nextFree_spec hl hf
  unfold Heap.raise
  dsimp only
  rw [hp, hnext]
  refine if_pos ?_
  rcases firstFree_cases suf with ⟨he, -⟩ | ⟨as, s, bs, rfl, hs, -, hfirst⟩
  · left
    rw [he, ← total_append]
    exact hl.total
  · right
    rw [← List.append_assoc] at hl
    rw [hfirst, ← total_append, hl.header]
    exact hs

/-! ## `rt_malloc` -/

theorem length_le (hl : Shape h l) (hroom : 12 ≤ h.size) : l.length < h.size + 1 := by
  have hsum : ∀ m : List Seg, (∀ s ∈ m, 16 ≤ s.len) → 16 * m.length ≤ total m := by
    intro m
    induction m with
    | nil => exact fun _ => Nat.le_refl 0
    | cons s m ih =>
      intro hm
      have h1 := hm s List.mem_cons_self
      have h2 := ih fun t ht => hm t (List.mem_cons_of_mem s ht)
      rw [List.length_cons, total_cons]
      omega
  have h1 := hsum l fun s hs => (hl.lens s hs).1
  have h2 := hl.total
  unfold Heap.fin sizeofStructMem at h2
  omega

/-- the search starts at the seam of two parts -/
theorem lfree_cut (hi : HeapInv h l) : ∃ pre suf, l = pre ++ suf ∧ total pre = h.lfree := by
  rcases hi.free with hfin | ⟨s, ⟨pre, post, rfl, hp⟩, -⟩
  · exact ⟨l, [], (List.append_nil l).symm, hi.total.trans hfin.symm⟩
  · exact ⟨pre, s :: post, rfl, hp⟩

/-- `h'` is `h` with one more block in use, at `q`, for `need` bytes -/
structure Taken (h : Heap) (l : List Seg) (need q : Nat) (h' : Heap) (l' : List Seg) : Prop where
  inv : HeapInv h' l'
  size : h'.size = h.size
  fresh : inUse l q = none
  use : ∃ k, inUse l' = Function.update (inUse l) q (some k) ∧ need + 12 ≤ k ∧ k < need + 36
  lowest : h.lfree = firstFree l → h'.lfree = firstFree l'

theorem total_dvd (hl : ∀ s ∈ l, 16 ≤ s.len ∧ 4 ∣ s.len) : 4 ∣ total l := by
  induction l with
  | nil => exact ⟨0, rfl⟩
  | cons s l ih =>
    rw [total_cons]
    exact Nat.dvd_add (hl s List.mem_cons_self).2 (ih fun t ht => hl t (List.mem_cons_of_mem s ht))

/-- a free block in front of a place is there, whatever comes behind the place -/
theorem hole_before {h' : Heap} {suf suf' : List Seg} (hf : HoleAt h (pre ++ suf))
    (hlt : h.lfree < total pre) (e : h'.lfree = h.lfree) : HoleAt h' (pre ++ suf') := by
  obtain ⟨s, hs, hu⟩ := hf
  rcases at_append_iff.mp hs with hs | ⟨hge, -⟩
  · exact ⟨s, at_append_iff.mpr (Or.inl (e ▸ hs)), hu⟩
  · omega

/-- the first free block behind a place, if there is one -/
theorem hole_behind {suf : List Seg} (hl : Shape h (pre ++ suf))
    (hp : h.lfree = total pre + firstFree suf) : h.lfree = h.fin ∨ HoleAt h (pre ++ suf) := by
  rcases firstFree_cases suf with ⟨he, -⟩ | ⟨as, s, bs, rfl, hs, -, hfirst⟩
  · left
    rw [hp, he, ← total_append]
    exact hl.total
  · right
    refine ⟨s, ⟨pre ++ as, bs, by rw [List.append_assoc], ?_⟩, hs⟩
    rw [total_append, hp, hfirst]

/-- the assertions of `rt_malloc` hold of a block that fits -/
theorem take_eq {n size : Nat} (hi : HeapInv h (pre ++ ⟨false, n⟩ :: post)) (h4 : 4 ∣ size)
    (hmin : 12 ≤ size) (hn : size + 12 ≤ n) :
    h.take (total pre) size = some (if total pre = h.lfree then
      { h.carve (total pre) size with lfree := total pre + firstFree (cut n size ++ post) }
      else h.carve (total pre) size) := by
  obtain ⟨hl, hlfree, hsize⟩ := carve_spec hi.toLaid h4 hmin hn
  have hfuel := length_le hl.toShape (by rw [hsize]; exact hi.room)
  have hpre : 4 ∣ total pre := total_dvd fun s hs => hi.lens s (List.mem_append_left _ hs)
  have htot := hi.total
  rw [total_append, total_cons] at htot
  dsimp only at htot
  have hfin : (h.carve (total pre) size).fin = h.fin := by
    unfold Heap.fin
    rw [hsize]
  have hassert : total pre + sizeofStructMem + size ≤ (h.carve (total pre) size).fin ∧
      (total pre + sizeofStructMem) % 4 = 0 ∧ total pre % 4 = 0 := by
    rw [hfin]
    unfold sizeofStructMem
    omega
  unfold Heap.take
  dsimp only
  rw [hlfree]
  by_cases hq : total pre = h.lfree
  · rw [if_pos hq, if_pos hq, raise_spec hl.toShape (hlfree.trans hq.symm)
      (lt_of_le_of_lt (by simp) hfuel), Option.bind_some]
    exact if_pos hassert
  · rw [if_neg hq, if_neg hq, Option.bind_some]
    exact if_pos hassert

theorem take_spec {n size : Nat} (hi : HeapInv h (pre ++ ⟨false, n⟩ :: post)) (h4 : 4 ∣ size)
    (hmin : 12 ≤ size) (hn : size + 12 ≤ n) (hlow : h.lfree ≤ total pre) :
    ∃ h', h.take (total pre) size = some h' ∧
      Taken h (pre ++ ⟨false, n⟩ :: post) size (total pre) h' (pre ++ (cut n size ++ post)) := by
  refine ⟨_, take_eq hi h4 hmin hn, ?_⟩
  obtain ⟨hl, hlfree, hsize⟩ := carve_spec hi.toLaid h4 hmin hn
  obtain ⟨k, rest, hcut, hk, hk1, hk2, hrest⟩ := cut_cases hn
  have hgain := @gains_cut pre _ post _ _ hk hrest
  rw [← hcut] at hgain
  have hat : At (pre ++ ⟨false, n⟩ :: post) (total pre) ⟨false, n⟩ := ⟨pre, post, rfl, rfl⟩
  obtain ⟨hfresh, huse⟩ := hgain.inUse_eq hi.positive hl.positive hat
  have hposp : Positive pre := fun s hs => hi.positive s (List.mem_append_left _ hs)
  have hfin : (h.carve (total pre) size).fin = h.fin := by
    unfold Heap.fin
    rw [hsize]
  have hbefore := hat.le_total
  rw [hi.total] at hbefore
  have hn0 := hi.positive _ hat.mem
  dsimp only at hbefore hn0
  by_cases hq : total pre = h.lfree
  · -- the next free block is behind
    rw [if_pos hq]
    have hl' : Laid { h.carve (total pre) size with
        lfree := total pre + firstFree (cut n size ++ post) } (pre ++ (cut n size ++ post)) :=
      ⟨⟨hl.chain, hl.total, hl.lens, hl.fin_used⟩, hl.usedMem⟩
    refine ⟨⟨hl', hole_behind hl'.toShape rfl, coalesced_cut size hi.coalesced, ?_⟩, hsize, hfresh,
      ⟨k, huse, hk1, hk2⟩, fun hfirst => ?_⟩
    · show _ ≤ (h.carve _ _).size
      rw [hsize]
      exact hi.room
    · exact (firstFree_append_used (used_before hposp (by rw [hq, hfirst]))).symm
  · rw [if_neg hq]
    have hlt : h.lfree < total pre := by omega
    refine ⟨⟨hl, ?_, coalesced_cut size hi.coalesced, by rw [hsize]; exact hi.room⟩, hsize, hfresh,
      ⟨k, huse, hk1, hk2⟩, fun hfirst => ?_⟩
    · rw [hfin, hlfree]
      exact hi.free.imp_right fun hhole => hole_before hhole hlt hlfree
    · rw [hfirst] at hlt
      rw [hlfree, hfirst]
      exact (firstFree_before hlt _).symm

theorem rtAlign_dvd (n : Nat) : 4 ∣ rtAlign n := Nat.dvd_mul_left _ _

theorem allocSize_dvd (n : Nat) : 4 ∣ allocSize n := by
  unfold allocSize
  split
  · exact ⟨3, rfl⟩
  · exact rtAlign_dvd n

theorem allocSize_ge (n : Nat) : 12 ≤ allocSize n ∧ rtAlign n ≤ allocSize n := by
  unfold allocSize minSizeAligned
  split <;> omega

theorem allocSize_le {n m : Nat} (hn : rtAlign n ≤ m) (hm : minSizeAligned ≤ m) :
    allocSize n ≤ m := by
  unfold allocSize
  split <;> assumption

/-- the least length that is asked for: the sizes up to `2 ^ 32 - 4` do not wrap -/
theorem le_rtAlign {n : Nat} (hn : n ≤ 2 ^ 32 - 4) : n ≤ rtAlign n := by
  unfold rtAlign
  omega

theorem rtAlign_rtAlign (n : Nat) : rtAlign (rtAlign n) = rtAlign n := by
  unfold rtAlign
  omega

/-- **No assertion of `rt_malloc` fails**: there is no memory, or a block is handed out. -/
theorem malloc_spec (hi : HeapInv h l) (n : Nat) : rtMalloc h n = some (none, h) ∨
    ∃ q h' l', rtMalloc h n = some (some (q + 12), h') ∧ Taken h l (allocSize n) q h' l' := by
  unfold rtMalloc
  by_cases h0 : n = 0
  · rw [if_pos h0]
    exact Or.inl rfl
  by_cases hbig : rtAlign n > h.size
  · rw [if_neg h0, if_pos hbig]
    exact Or.inl rfl
  rw [if_neg h0, if_neg hbig]
  cases hfind : h.find (allocSize n) (h.size + 1) h.lfree with
  | none => exact Or.inl rfl
  | some q =>
    right
    obtain ⟨pre, suf, rfl, hp⟩ := lfree_cut hi
    rw [← hp] at hfind
    obtain ⟨⟨m, ⟨as, bs, he, rfl⟩, hm⟩, hle, -, -⟩ := find_some hi.toShape hfind
    obtain ⟨h', htake, ht⟩ :=
      take_spec (he ▸ hi) (allocSize_dvd n) (allocSize_ge n).1 hm (hp ▸ hle)
    rw [← he] at ht
    refine ⟨total as, h', _, ?_, ht⟩
    dsimp only
    rw [htake]
    rfl

/-- behind a block comes another one, or the end -/
theorem at_end {q : Nat} {s : Seg} (hl : Shape h l) (hat : At l q s) :
    q + s.len = h.fin ∨ q + s.len + 16 ≤ h.fin := by
  obtain ⟨pre, post, rfl, rfl⟩ := hat
  have htot := hl.total
  rw [total_append, total_cons] at htot
  cases post with
  | nil => exact Or.inl htot
  | cons t post =>
    have ht := (hl.lens t (by simp)).1
    rw [total_cons] at htot
    exact Or.inr (by omega)

/-- **When there is no memory**: no free block from `lfree` on is long enough, but for the last one,
which is not found when it fits exactly. -/
theorem malloc_none_iff {n : Nat} (hi : HeapInv h l) :
    rtMalloc h n = some (none, h) ↔ n = 0 ∨ h.size < rtAlign n ∨
      ∀ q, Fits l (allocSize n) q → h.lfree ≤ q →
        At l q ⟨false, allocSize n + 12⟩ ∧ q + (allocSize n + 12) = h.fin := by
  by_cases h0 : n = 0
  · rw [rtMalloc, if_pos h0]
    exact ⟨fun _ => Or.inl h0, fun _ => rfl⟩
  by_cases hbig : rtAlign n > h.size
  · rw [rtMalloc, if_neg h0, if_pos hbig]
    exact ⟨fun _ => Or.inr (Or.inl hbig), fun _ => rfl⟩
  have hneed : allocSize n ≤ h.size := allocSize_le (by omega) hi.room
  obtain ⟨pre, suf, rfl, hp⟩ := lfree_cut hi
  have hfuel : suf.length < h.size + 1 :=
    lt_of_le_of_lt (by simp) (length_le hi.toShape hi.room)
  rw [rtMalloc, if_neg h0, if_neg hbig, or_iff_right h0, or_iff_right hbig, ← hp]
  constructor
  · intro hnone q hq hle
    cases hfind : h.find (allocSize n) (h.size + 1) (total pre) with
    | some r =>
      rw [hfind] at hnone
      obtain ⟨u, -, hu⟩ := Option.map_eq_some_iff.mp hnone
      cases congrArg Prod.fst hu
    | none =>
      have hge := find_none hi.toShape hfuel hfind hq hle
      obtain ⟨m, hat, hm⟩ := hq
      have hend := at_end hi.toShape hat
      dsimp only at hend
      unfold Heap.fin sizeofStructMem at hend ⊢
      obtain rfl : m = allocSize n + 12 := by omega
      exact ⟨hat, by omega⟩
  · intro hall
    cases hfind : h.find (allocSize n) (h.size + 1) (total pre) with
    | none => rfl
    | some q =>
      obtain ⟨hq, hle, hlt, -⟩ := find_some hi.toShape hfind
      obtain ⟨-, hend⟩ := hall q hq hle
      unfold Heap.fin sizeofStructMem at hend
      omega

/-! ## `rt_free` -/

/-- `h'` is `h` without the block at `q` -/
structure Freed (h : Heap) (l : List Seg) (q : Nat) (h' : Heap) (l' : List Seg) : Prop where
  inv : HeapInv h' l'
  size : h'.size = h.size
  use : inUse l' = Function.update (inUse l) q none
  hole : HoleAt h' l'
  lowest : h.lfree = firstFree l → h'.lfree = firstFree l'

/-- the flag of a block in use is cleared -/
theorem inUse_clear {k : Nat} (hl : Positive (pre ++ ⟨true, k⟩ :: post))
    (hl' : Positive (pre ++ ⟨false, k⟩ :: post)) :
    inUse (pre ++ ⟨false, k⟩ :: post) =
      Function.update (inUse (pre ++ ⟨true, k⟩ :: post)) (total pre) none := by
  have hgain := @gains_cut pre [] post k k rfl (by simp)
  obtain ⟨hnone, huse⟩ := hgain.inUse_eq hl' hl ⟨pre, post, rfl, rfl⟩
  have e : inUse (pre ++ ⟨true, k⟩ :: post) =
      Function.update (inUse (pre ++ ⟨false, k⟩ :: post)) (total pre) (some k) := huse
  rw [e, Function.update_idem, ← hnone, Function.update_eq_self]

theorem coalesced_sides {s : Seg} (hc : Coalesced (pre ++ s :: post)) :
    Coalesced pre ∧ Coalesced post := by
  obtain ⟨h1, h2, -⟩ := List.isChain_append.mp hc
  exact ⟨h1, h2.tail⟩

theorem clear_rest (h : Heap) (p : Nat) :
    (h.clear p).size = h.size ∧ (h.clear p).lfree = min p h.lfree ∧
      (h.clear p).mem = (h.set p { h.mem p with magic := heapMagic, used := false }).mem ∧
      (h.clear p).usedMem = h.usedMem - ((h.mem p).next - p) := by
  unfold Heap.clear
  dsimp only
  split
  next hlt => exact ⟨rfl, (Nat.min_eq_left (Nat.le_of_lt hlt)).symm, rfl, rfl⟩
  next hle => exact ⟨rfl, (Nat.min_eq_right (Nat.not_lt.mp hle)).symm, rfl, rfl⟩

theorem laid_clear {k : Nat} (hl : Laid h (pre ++ ⟨true, k⟩ :: post)) :
    Laid (h.clear (total pre)) (pre ++ ⟨false, k⟩ :: post) := by
  obtain ⟨hsize, -, hmem, hused⟩ := clear_rest h (total pre)
  have hmark := shape_mark hl.toShape false
  have hfin : (h.clear (total pre)).fin = h.fin := by
    unfold Heap.fin
    rw [hsize]
  refine ⟨⟨hmem ▸ hmark.chain, ?_, hmark.lens, ?_⟩, ?_⟩
  · rw [hfin]
    exact hmark.total
  · rw [hfin, hmem]
    exact hmark.fin_used
  · rw [hused, hl.usedMem, hl.header]
    simp [usedTotal_append, usedTotal_cons]
    omega

theorem free_spec {q k : Nat} (hi : HeapInv h l) (hu : inUse l q = some k) :
    ∃ h' l', rtFree h (some (q + 12)) = some h' ∧ Freed h l q h' l' := by
  have hat := (inUse_eq_some hi.positive).mp hu
  have hle := hat.le_total
  have hk := (hi.lens _ hat.mem).1
  obtain ⟨pre, post, rfl, rfl⟩ := hat
  obtain ⟨hsize, hlfree, -, -⟩ := clear_rest h (total pre)
  have hl1 := laid_clear hi.toLaid
  obtain ⟨hcpre, hcpost⟩ := coalesced_sides hi.coalesced
  obtain ⟨l', hplug, hc⟩ := plug_spec hl1 hcpre hcpost
  have hfin : (h.clear (total pre)).fin = h.fin := by
    unfold Heap.fin
    rw [hsize]
  have hposp : Positive pre := fun s hs => hi.positive s (List.mem_append_left _ hs)
  have hhole : HoleAt (h.clear (total pre)) (pre ++ ⟨false, k⟩ :: post) := by
    rcases Nat.lt_or_ge h.lfree (total pre) with hlt | hge
    · rcases hi.free with hend | hf
      · rw [hi.total] at hle
        omega
      · exact hole_before hf hlt (hlfree.trans (Nat.min_eq_right (Nat.le_of_lt hlt)))
    · unfold HoleAt
      rw [hlfree, Nat.min_eq_left hge]
      exact ⟨⟨false, k⟩, ⟨pre, post, rfl, rfl⟩, rfl⟩
  refine ⟨(h.clear (total pre)).plug (total pre), l', ?_, ?_, ?_, ?_, hplug.hole hhole, ?_⟩
  · have h4 : 4 ∣ total pre := total_dvd fun s hs => hi.lens s (List.mem_append_left _ hs)
    have hlt : total pre + 12 < h.fin := by
      rw [hi.total] at hle
      dsimp only at hle hk
      omega
    unfold rtFree
    dsimp only
    rw [if_pos ⟨by omega, hlt, Nat.le_add_left _ _⟩]
    have e : total pre + 12 - sizeofStructMem = total pre := Nat.add_sub_cancel _ _
    rw [e, if_pos ⟨by rw [hi.header], by rw [hi.header]⟩]
    exact plugHoles_eq hl1.toShape
  · exact ⟨hplug.laid, Or.inr (hplug.hole hhole), hc, by rw [hplug.size, hsize]; exact hi.room⟩
  · rw [hplug.size, hsize]
  · rw [← hplug.same.inUse_eq hl1.positive hplug.laid.positive]
    exact inUse_clear hi.positive hl1.positive
  · intro hfirst
    refine hplug.lowest ?_
    rw [hlfree, hfirst]
    rcases Nat.lt_or_ge (firstFree (pre ++ ⟨true, k⟩ :: post)) (total pre) with hlt | hge
    · rw [Nat.min_eq_right (Nat.le_of_lt hlt)]
      exact (firstFree_before hlt _).symm
    · rw [Nat.min_eq_left hge, firstFree_append_used (used_before hposp hge),
        firstFree_cons_free (s := ⟨false, k⟩) rfl, Nat.add_zero]

/-! ## `rt_realloc` -/

/-- the block is cut, and its end is above the lowest free block on record -/
def LeavesHole (h : Heap) (q k newsize : Nat) : Prop :=
  0 < newsize ∧ newsize + 36 < k ∧ q < h.lfree ∧ (h.lfree = q + k → h.lfree = h.fin)

theorem inUse_shrink {k j : Nat} (hl : Positive (pre ++ ⟨true, k⟩ :: post))
    (hl' : Positive (pre ++ ⟨true, j⟩ :: ⟨false, k - j⟩ :: post)) (hj : j ≤ k) :
    inUse (pre ++ ⟨true, j⟩ :: ⟨false, k - j⟩ :: post) =
      Function.update (inUse (pre ++ ⟨true, k⟩ :: post)) (total pre) (some j) := by
  have hk := hl ⟨true, k⟩ (by simp)
  have hl0 : Positive (pre ++ ⟨false, k⟩ :: post) := by
    intro s hs
    rcases List.mem_append.mp hs with hs | hs
    · exact hl s (List.mem_append_left _ hs)
    · rcases List.mem_cons.mp hs with rfl | hs
      · exact hk
      · exact hl s (by simp [hs])
  have hat : At (pre ++ ⟨false, k⟩ :: post) (total pre) ⟨false, k⟩ := ⟨pre, post, rfl, rfl⟩
  have hgain := @gains_cut pre [⟨false, k - j⟩] post k j (by simp; omega) (by simp)
  obtain ⟨-, huse⟩ := hgain.inUse_eq hl0 hl' hat
  have e : inUse (pre ++ ⟨true, j⟩ :: ⟨false, k - j⟩ :: post) =
      Function.update (inUse (pre ++ ⟨false, k⟩ :: post)) (total pre) (some j) := huse
  rw [e, inUse_clear hl hl0, Function.update_idem]

/-- the heap between the cut and `plug_holes` -/
theorem laid_split {k newsize : Nat} (hl : Laid h (pre ++ ⟨true, k⟩ :: post)) (h4 : 4 ∣ newsize)
    (h0 : 0 < newsize) (hk : newsize + 36 < k) :
    let h1 := { h with usedMem := h.usedMem - (k - 12 - newsize) }
    Laid (h1.split (total pre) (total pre + (newsize + 12)))
      (pre ++ ⟨true, newsize + 12⟩ :: ⟨false, k - (newsize + 12)⟩ :: post) := by
  intro h1
  have hl1 : Shape h1 (pre ++ ⟨true, k⟩ :: post) := ⟨hl.chain, hl.total, hl.lens, hl.fin_used⟩
  refine ⟨shape_split hl1 (by omega) (by omega) (by dsimp only; omega), ?_⟩
  rw [(split_rest h1 _ _).2.2]
  show h.usedMem - _ = _
  rw [hl.usedMem]
  simp [usedTotal_append, usedTotal_cons]
  omega

/-- where the lowest free block is after the cut -/
theorem firstFree_cut {k j m : Nat} (hp : Positive pre)
    (hfirst : h.lfree = firstFree (pre ++ ⟨true, k⟩ :: post)) :
    h.lfree < total pre ∧
        firstFree (pre ++ ⟨true, j⟩ :: ⟨false, m⟩ :: post) = h.lfree ∨
      total pre + k ≤ h.lfree ∧ h.lfree = total pre + k + firstFree post ∧
        firstFree (pre ++ ⟨true, j⟩ :: ⟨false, m⟩ :: post) = total pre + j := by
  rw [hfirst, firstFree_append, firstFree_append, firstFree_cons_used (s := ⟨true, k⟩) rfl,
    firstFree_cons_used (s := ⟨true, j⟩) rfl, firstFree_cons_free (s := ⟨false, m⟩) rfl]
  split
  next hall => exact Or.inr ⟨by dsimp only; omega, by dsimp only; omega, rfl⟩
  next hne =>
    refine Or.inl ⟨?_, rfl⟩
    by_contra hge
    refine hne (@used_before _ [] hp ?_)
    rw [List.append_nil]
    omega

/-- a cut leaves the free blocks where they are -/
theorem hole_cut {h' : Heap} {k j : Nat} (hj : j ≤ k) (hf : HoleAt h (pre ++ ⟨true, k⟩ :: post))
    (e : h'.lfree = h.lfree) : HoleAt h' (pre ++ ⟨true, j⟩ :: ⟨false, k - j⟩ :: post) := by
  obtain ⟨s, hs, hu⟩ := hf
  unfold HoleAt
  rw [e]
  rcases at_mid_iff.mp hs with h1 | ⟨-, rfl⟩ | ⟨h1, as, bs, rfl, hp⟩
  · exact ⟨s, at_append_iff.mpr (Or.inl h1), hu⟩
  · cases hu
  · refine ⟨s, ⟨pre ++ ⟨true, j⟩ :: ⟨false, k - j⟩ :: as, bs, by simp, ?_⟩, hu⟩
    rw [total_append, total_cons, total_cons]
    dsimp only at h1 hp ⊢
    omega

/-- `lfree` is the lowest free block after the cut, unless the cut leaves a hole below it -/
theorem lowest_cut {h2 : Heap} {l' : List Seg} {k newsize : Nat}
    (hi : HeapInv h (pre ++ ⟨true, k⟩ :: post)) (h0 : 0 < newsize) (hk : newsize + 36 < k)
    (hl2 : Laid h2 (pre ++ [⟨true, newsize + 12⟩] ++ ⟨false, k - (newsize + 12)⟩ :: post))
    (hlfree : h2.lfree = h.lfree)
    (hplug : Plugged h2 (pre ++ ⟨true, newsize + 12⟩ :: ⟨false, k - (newsize + 12)⟩ :: post)
      (h2.plug (total pre + (newsize + 12))) l')
    (hfirst : h.lfree = firstFree (pre ++ ⟨true, k⟩ :: post)) :
    (h2.plug (total pre + (newsize + 12))).lfree = firstFree l' ↔
      ¬ LeavesHole h (total pre) k newsize := by
  have hposp : Positive pre := fun s hs => hi.positive s (List.mem_append_left _ hs)
  have htot : total (pre ++ [(⟨true, newsize + 12⟩ : Seg)]) = total pre + (newsize + 12) := by simp
  rcases firstFree_cut (j := newsize + 12) (m := k - (newsize + 12)) hposp hfirst with
    ⟨hlt, hf⟩ | ⟨hge, hpost, hf⟩
  · -- the lowest free block is below the cut
    have hkeep := hplug.lowest (by rw [hlfree, hf])
    refine iff_of_true hkeep fun hhole => ?_
    have := hhole.2.2.1
    omega
  · rw [hplug.first, hf]
    -- nothing to join behind the cut: `lfree` stays
    have hstay : (∀ s ∈ post.head?, s.used = true) →
        (h2.plug (total pre + (newsize + 12))).lfree = h.lfree := by
      intro hpost
      unfold Heap.plug
      rw [← htot, plugForward_stay hl2 hpost, plugBackward_stay hl2, hlfree]
    match post with
    | [] =>
      rw [hstay fun s hs => (by cases hs)]
      have hend := hi.end_of_nil
      refine iff_of_false (by omega) (not_not_intro ⟨h0, hk, by omega, fun hq => ?_⟩)
      rw [hq]
      exact hend
    | ⟨true, m⟩ :: post =>
      have hm := (hi.lens ⟨true, m⟩ (by simp)).1
      rw [firstFree_cons_used (s := ⟨true, m⟩) rfl] at hpost
      dsimp only at hm hpost
      rw [hstay fun s hs => (by cases hs; rfl)]
      exact iff_of_false (by omega) (not_not_intro ⟨h0, hk, by omega, fun hq => by omega⟩)
    | ⟨false, m⟩ :: post =>
      rw [firstFree_cons_free (s := ⟨false, m⟩) rfl, Nat.add_zero] at hpost
      have hjoin := plugForward_join hl2
      have hlt := hi.lt_end
      dsimp only at hlt
      refine iff_of_true ?_ fun hhole => ?_
      · have hl3 := laid_join hl2
        unfold Heap.plug
        rw [← htot, hjoin, plugBackward_stay hl3, join_lfree, htot, hlfree, if_pos (by omega)]
      · have := hhole.2.2.2 hpost
        omega

theorem shrink_spec {k newsize : Nat} (hi : HeapInv h (pre ++ ⟨true, k⟩ :: post))
    (h4 : 4 ∣ newsize) (h0 : 0 < newsize) (hk : newsize + 36 < k) :
    ∃ h' l', h.shrink (total pre) (k - 12) newsize = some h' ∧ HeapInv h' l' ∧
      h'.size = h.size ∧
      inUse l' = Function.update (inUse (pre ++ ⟨true, k⟩ :: post)) (total pre)
        (some (newsize + 12)) ∧
      (h.lfree = firstFree (pre ++ ⟨true, k⟩ :: post) →
        (h'.lfree = firstFree l' ↔ ¬ LeavesHole h (total pre) k newsize)) := by
  have hl2 := laid_split hi.toLaid h4 h0 hk
  dsimp only at hl2
  have e : h.shrink (total pre) (k - 12) newsize =
      ({ h with usedMem := h.usedMem - (k - 12 - newsize) }.split (total pre)
        (total pre + (newsize + 12))).plugHoles (total pre + (newsize + 12)) := by
    unfold Heap.shrink sizeofStructMem
    rw [Nat.add_comm newsize 12, ← Nat.add_assoc]
  rw [e]
  obtain ⟨hsize, hlfree, -⟩ := split_rest { h with usedMem := h.usedMem - (k - 12 - newsize) }
    (total pre) (total pre + (newsize + 12))
  generalize hg : ({ h with usedMem := h.usedMem - (k - 12 - newsize) } : Heap).split (total pre)
    (total pre + (newsize + 12)) = h2 at *
  replace hlfree : h2.lfree = h.lfree := hlfree
  have hassoc : pre ++ (⟨true, newsize + 12⟩ : Seg) :: ⟨false, k - (newsize + 12)⟩ :: post =
      pre ++ [⟨true, newsize + 12⟩] ++ ⟨false, k - (newsize + 12)⟩ :: post := by simp
  have htot : total (pre ++ [(⟨true, newsize + 12⟩ : Seg)]) = total pre + (newsize + 12) := by simp
  obtain ⟨hcpre, hcpost⟩ := coalesced_sides hi.coalesced
  have hcpre' : Coalesced (pre ++ [⟨true, newsize + 12⟩]) := by
    refine List.isChain_append.mpr ⟨hcpre, List.IsChain.singleton _, fun x _ y hy => Or.inr ?_⟩
    cases hy
    rfl
  obtain ⟨l', hplug, hc⟩ := plug_spec (hassoc ▸ hl2) hcpre' hcpost
  have heq := plugHoles_eq (hassoc ▸ hl2).toShape
  rw [htot] at heq
  rw [htot, ← hassoc] at hplug
  have hfin : h2.fin = h.fin := by
    unfold Heap.fin
    rw [hsize]
  have hsize' : (h2.plug (total pre + (newsize + 12))).size = h.size := by
    rw [hplug.size, hsize]
  refine ⟨_, l', heq, ⟨hplug.laid, ?_, hc, by rw [hsize']; exact hi.room⟩, hsize', ?_,
    lowest_cut hi h0 hk (hassoc ▸ hl2) hlfree hplug⟩
  · rcases hi.free with h1 | hf
    · exact Or.inl (hplug.fin (by rw [hfin, hlfree]; exact h1))
    · exact Or.inr (hplug.hole (hole_cut (by omega) hf hlfree))
  · rw [← hplug.same.inUse_eq hl2.positive hplug.laid.positive]
    exact inUse_shrink hi.positive hl2.positive (by omega)

/-- what `rt_realloc` returns for the block of `k` bytes at `q`, and what it leaves -/
inductive Resized (h : Heap) (l : List Seg) (q n : Nat) : Option Nat → Heap → List Seg → Prop
  | freed {h' l'} (h0 : rtAlign n = 0) (hf : Freed h l q h' l') : Resized h l q n none h' l'
  | refused (h0 : rtAlign n ≠ 0) : Resized h l q n none h l
  | moved {p m h' l'} (h0 : rtAlign n ≠ 0) (hp : p = q ∨ inUse l p = none)
      (hm : rtAlign n + 12 ≤ m) (hi : HeapInv h' l') (hs : h'.size = h.size)
      (hu : inUse l' = Function.update (Function.update (inUse l) q none) p (some m)) :
      Resized h l q n (some (p + 12)) h' l'

theorem realloc_spec {q k : Nat} (hi : HeapInv h l) (hu : inUse l q = some k) (n : Nat) :
    ∃ r h' l', rtRealloc h (some (q + 12)) n = some (r, h') ∧ Resized h l q n r h' l' ∧
      (h.lfree = firstFree l → (h'.lfree = firstFree l' ↔ ¬ LeavesHole h q k (rtAlign n))) := by
  have hat := (inUse_eq_some hi.positive).mp hu
  have hle := hat.le_total
  have hk := (hi.lens _ hat.mem).1
  have hk4 := (hi.lens _ hat.mem).2
  rw [hi.total] at hle
  dsimp only at hle hk hk4
  have hfin : h.fin = h.size + 12 := rfl
  unfold rtRealloc
  dsimp only
  by_cases hbig : rtAlign n > h.size
  · rw [if_pos hbig]
    refine ⟨none, h, l, rfl, .refused (by omega), fun hf => iff_of_true hf fun hl => ?_⟩
    have := hl.2.1
    omega
  rw [if_neg hbig]
  by_cases h0 : rtAlign n = 0
  · obtain ⟨h', l', hfree, hF⟩ := free_spec hi hu
    rw [if_pos h0, hfree]
    exact ⟨none, h', l', rfl, .freed h0 hF, fun hf => iff_of_true (hF.lowest hf) fun hl =>
      absurd h0 (Nat.ne_of_gt hl.1)⟩
  have hnext : (h.mem q).next - q - sizeofStructMem = k - 12 := by
    obtain ⟨pre, post, rfl, rfl⟩ := hat
    rw [hi.header]
    simp only [sizeofStructMem]
    omega
  have e : q + 12 - sizeofStructMem = q := Nat.add_sub_cancel _ _
  rw [if_neg h0, if_neg (by omega), e, hnext]
  by_cases hsame : k - 12 = rtAlign n
  · rw [if_pos hsame]
    refine ⟨some (q + 12), h, l, rfl, .moved h0 (Or.inl rfl) (by omega : _ ≤ k) hi rfl ?_, ?_⟩
    · rw [Function.update_idem, ← hu, Function.update_eq_self]
    · exact fun hf => iff_of_true hf fun hl => absurd hl.2.1 (by omega)
  rw [if_neg hsame]
  by_cases hcut : rtAlign n + sizeofStructMem + minSizeAligned < k - 12
  · have hcut' : rtAlign n + 36 < k := by
      unfold sizeofStructMem minSizeAligned at hcut
      omega
    obtain ⟨pre, post, rfl, rfl⟩ := hat
    obtain ⟨h', l', hshrink, hi', hs', hu', hlow⟩ := shrink_spec hi (rtAlign_dvd n) (by omega) hcut'
    rw [if_pos hcut, hshrink]
    refine ⟨_, h', l', rfl, .moved h0 (Or.inl rfl) (Nat.le_refl _) hi' hs' ?_, hlow⟩
    rw [Function.update_idem]
    exact hu'
  have hno : ¬ LeavesHole h q k (rtAlign n) := by
    intro hl
    have := hl.2.1
    unfold sizeofStructMem minSizeAligned at hcut
    omega
  rw [if_neg hcut]
  rcases malloc_spec hi (rtAlign n) with hr | ⟨p, h1, l1, hr, ht⟩
  · rw [hr]
    exact ⟨none, h, l, rfl, .refused h0, fun hf => iff_of_true hf hno⟩
  · -- the data is moved: the old block is still there when the new one is taken
    obtain ⟨m, hu1, hm, -⟩ := ht.use
    have hne : q ≠ p := by
      rintro rfl
      rw [ht.fresh] at hu
      cases hu
    have hu1q : inUse l1 q = some k := by rw [hu1, Function.update_of_ne hne, hu]
    obtain ⟨h2, l2, hfree, hF⟩ := free_spec ht.inv hu1q
    have hneed := (allocSize_ge (rtAlign n)).2
    rw [rtAlign_rtAlign] at hneed
    rw [hr, Option.bind_some]
    dsimp only
    rw [hfree]
    refine ⟨_, h2, l2, rfl, .moved h0 (Or.inr ht.fresh) (by omega : _ ≤ m) hF.inv
      (hF.size.trans ht.size) ?_, fun hf => iff_of_true (hF.lowest (ht.lowest hf)) hno⟩
    rw [hF.use, hu1, Function.update_comm hne]

end ENV
