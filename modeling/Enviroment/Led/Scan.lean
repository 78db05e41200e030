import Enviroment.Led.Legible

/-!
# The display, frame by frame (`LED_SendData`, `LED_thread_entry`)

The panel has three banks of sixteen rows.  A bank lights one row in four at a time: the pins A and B
select it, the pins OE1 to OE3 (low: light) the bank, and the light shows the 48 bytes that the SPI
sent last.

* `Hw`, `Panel`            what the driver does to the pins and the SPI, and what is lit by it;
* `Displays`               actions that show given rows, from dark to dark, without a glitch;
* `frame`, `frame_pixel`   the rows of a frame; a pixel of the bitmap is in exactly one of them;
* `scan_shows`             what is lit after any number of frames;
* `ledFrames`, `page_shown`   the frames of the thread: a new page every 500, alternately.
-/

namespace ENV

/-! ## the hardware -/

/-- `P12_A`, `P12_B`, `P12_OE1` to `P12_OE3` -/
inductive P12 where
  | a
  | b
  | oe (k : Fin 3)
deriving DecidableEq

inductive Hw where
  /-- `rt_pin_write(pin, value)` -/
  | write (pin : P12) (value : Bool)
  /-- `rt_spi_send(spi_dev, data, 48)` -/
  | send (data : List Byte)
  /-- `rt_hw_us_delay(us)` -/
  | delay (us : Nat)

/-- rows of a bank that were lit for a time -/
structure Exposure where
  bank : Fin 3
  line : Nat
  data : List Byte
  us : Nat
deriving DecidableEq

structure Panel where
  a : Bool
  b : Bool
  oe : Fin 3 → Bool
  latch : List Byte
  /-- what was lit, in order -/
  lit : List Exposure

/-- the row that A and B select -/
def Panel.line (s : Panel) : Nat := (if s.a then 1 else 0) + (if s.b then 2 else 0)

/-- what is lit, if nothing changes for a time -/
def Panel.expose (s : Panel) (us : Nat) : List Exposure :=
  ((List.finRange 3).filter fun k => !s.oe k).map fun k => ⟨k, s.line, s.latch, us⟩

def hwStep (s : Panel) : Hw → Option Panel
  | .write .a v => some { s with a := v }
  | .write .b v => some { s with b := v }
  | .write (.oe k) v => some { s with oe := Function.update s.oe k v }
  | .send data => some { s with latch := data }
  | .delay us => some { s with lit := s.lit ++ s.expose us }

/-- no bank is lit -/
def Panel.Dark (s : Panel) : Prop := ∀ k, s.oe k = true

/-- only the bank `k` is lit -/
def Panel.Only (s : Panel) (k : Fin 3) : Prop := ∀ j, s.oe j = false ↔ j = k

/-- no glitch: rows are selected and sent in the dark, and one bank is lit at a time -/
def Clean (s : Panel) : Hw → Panel → Prop
  | .write (.oe _) true, _ => True
  | .delay _, _ => ∃ k, s.Only k
  | _, _ => s.Dark

/-! ## the driver -/

/-- `LED_SelectLine(line)` -/
def ledSelectLine (line : Nat) : List Hw :=
  [.write .a (line &&& 1 != 0), .write .b (line &&& 2 != 0)]

/-- the pins and the SPI in `LED_12_Init` -/
def led12Init : List Hw :=
  [.write .a false, .write .b false, .write (.oe 0) true, .write (.oe 1) true, .write (.oe 2) true]

theorem row_lt (row : Fin 4) (k : Fin 3) : row.val + 4 * k.val < 12 := by omega

/-- `LED_DATA[row+4*k]` -/
def LedData.row (d : LedData) (row : Fin 4) (k : Fin 3) : List Byte :=
  List.ofFn fun c => d (⟨row + 4 * k, row_lt row k⟩, c)

/-- the part of the loop of `LED_SendData` for the bank `k` -/
def ledSendRow (d : LedData) (row : Fin 4) (k : Fin 3) : List Hw :=
  [.write (.oe k) true] ++ ledSelectLine row ++ [.send (d.row row k)] ++
    [.write (.oe k) false, .delay 800, .write (.oe k) true]

/-- `LED_SendData()` -/
def ledSendData (d : LedData) : List Hw :=
  (List.finRange 4).flatMap fun row => (List.finRange 3).flatMap fun k => ledSendRow d row k

/-! ## what is displayed -/

/-- from a dark panel the actions light exactly `ex`, without a glitch, and leave it dark -/
def Displays (acts : List Hw) (ex : List Exposure) : Prop :=
  ∀ s : Panel, s.Dark → Trace.Along hwStep Clean s acts ∧
    ∃ t, Trace.run hwStep s acts = some t ∧ t.Dark ∧ t.lit = s.lit ++ ex

theorem Displays.append {acts acts' : List Hw} {ex ex' : List Exposure} (h : Displays acts ex)
    (h' : Displays acts' ex') : Displays (acts ++ acts') (ex ++ ex') := by
  intro s hs
  obtain ⟨hc, t, hr, ht, hl⟩ := h s hs
  obtain ⟨hc', u, hr', hu, hl'⟩ := h' t ht
  refine ⟨(Trace.along_append hr acts').mpr ⟨hc, hc'⟩, u, ?_, hu, ?_⟩
  · rw [Trace.run_append, hr]
    exact hr'
  · rw [hl', hl, List.append_assoc]

theorem displays_nil : Displays [] [] :=
  fun s hs => ⟨trivial, s, rfl, hs, (List.append_nil _).symm⟩

theorem displays_flatMap {ι : Type*} (acts : ι → List Hw) (ex : ι → List Exposure) (l : List ι)
    (h : ∀ i ∈ l, Displays (acts i) (ex i)) : Displays (l.flatMap acts) (l.flatMap ex) := by
  induction l with
  | nil => exact displays_nil
  | cons i l ih =>
    rw [List.flatMap_cons, List.flatMap_cons]
    exact (h i List.mem_cons_self).append (ih fun j hj => h j (List.mem_cons_of_mem i hj))

/-- the rows of a frame, in the order of the scan -/
def frame (d : LedData) : List Exposure :=
  (List.finRange 4).flatMap fun (row : Fin 4) => (List.finRange 3).flatMap fun (k : Fin 3) =>
    [⟨k, row, d.row row k, 800⟩]

theorem filter_finRange : ∀ k : Fin 3, (List.finRange 3).filter (fun j => decide (j = k)) = [k] := by
  decide

theorem expose_only {s : Panel} {k : Fin 3} (h : s.Only k) (us : Nat) :
    s.expose us = [⟨k, s.line, s.latch, us⟩] := by
  have e : ((List.finRange 3).filter fun j => !s.oe j) = [k] := by
    rw [← filter_finRange k]
    refine List.filter_congr fun j _ => ?_
    have hj := h j
    cases hoe : s.oe j with
    | true =>
      rw [hoe] at hj
      exact (decide_eq_false fun e => Bool.noConfusion (hj.mpr e)).symm
    | false => exact (decide_eq_true (hj.mp hoe)).symm
  unfold Panel.expose
  rw [e]
  rfl

theorem dark_update {s : Panel} {k : Fin 3} (h : ∀ j, j ≠ k → s.oe j = true) :
    ({ s with oe := Function.update s.oe k true } : Panel).Dark := by
  intro j
  show Function.update s.oe k true j = true
  by_cases hj : j = k
  · rw [hj, Function.update_self]
  · rw [Function.update_of_ne hj, h j hj]

theorem only_update {s : Panel} (hs : s.Dark) (k : Fin 3) :
    ({ s with oe := Function.update s.oe k false } : Panel).Only k := by
  intro j
  show Function.update s.oe k false j = false ↔ j = k
  by_cases hj : j = k
  · rw [hj, Function.update_self]
    exact iff_of_true rfl rfl
  · rw [Function.update_of_ne hj, hs j]
    exact iff_of_false Bool.noConfusion hj

theorem line_select : ∀ row : Fin 4,
    (if row.val &&& 1 != 0 then 1 else 0) + (if row.val &&& 2 != 0 then 2 else 0) = row.val := by
  decide

/-- **A pass of the loop shows its row, in its bank, for 800 microseconds.** -/
theorem displays_row (d : LedData) (row : Fin 4) (k : Fin 3) :
    Displays (ledSendRow d row k) [⟨k, row, d.row row k, 800⟩] := by
  intro s hs
  -- the bank is dark while its row is selected and sent
  let s1 : Panel := { s with
    oe := Function.update s.oe k true
    a := row.val &&& 1 != 0
    b := row.val &&& 2 != 0
    latch := d.row row k }
  have h0 : ({ s with oe := Function.update s.oe k true } : Panel).Dark :=
    dark_update fun j _ => hs j
  have h1 : s1.Dark := h0
  have hon : ({ s1 with oe := Function.update s1.oe k false } : Panel).Only k := only_update h1 k
  have hex := expose_only hon 800
  have hline : s1.line = row := line_select row
  have hoff : ∀ j, j ≠ k → Function.update s1.oe k false j = true := by
    intro j hj
    rw [Function.update_of_ne hj]
    exact h1 j
  refine ⟨?_, _, rfl, ?_, ?_⟩
  · refine (Trace.along_cons rfl _).mpr ⟨trivial, ?_⟩
    refine (Trace.along_cons rfl _).mpr ⟨fun j => h0 j, ?_⟩
    refine (Trace.along_cons rfl _).mpr ⟨fun j => h0 j, ?_⟩
    refine (Trace.along_cons rfl _).mpr ⟨fun j => h0 j, ?_⟩
    refine (Trace.along_cons rfl _).mpr ⟨h1, ?_⟩
    refine (Trace.along_cons rfl _).mpr ⟨⟨k, hon⟩, ?_⟩
    exact (Trace.along_cons rfl _).mpr ⟨trivial, trivial⟩
  · exact dark_update hoff
  · refine congrArg (s.lit ++ ·) (hex.trans ?_)
    rw [← hline]
    rfl

theorem displays_frame (d : LedData) : Displays (ledSendData d) (frame d) :=
  displays_flatMap _ _ _ fun row _ => displays_flatMap _ _ _ fun k _ => displays_row d row k

/-! ## pixels -/

/-- what was lit at the byte of the column `C` and the row `R` of the bitmap, and for how long -/
def litAt (C : Fin 12) (R : Fin 48) (ex : List Exposure) : List (Option Byte × Nat) :=
  (ex.filter fun e => e.bank.val = R.val / 16 ∧ e.line = R.val % 4).map fun e =>
    (e.data[4 * C.val + 3 - R.val % 16 / 4]?, e.us)

theorem litAt_append (C : Fin 12) (R : Fin 48) (ex ex' : List Exposure) :
    litAt C R (ex ++ ex') = litAt C R ex ++ litAt C R ex' := by
  unfold litAt
  rw [List.filter_append, List.map_append]

/-- one row of the scan belongs to a bank and a line -/
theorem frame_filter (d : LedData) (k : Fin 3) (row : Fin 4) :
    ((frame d).filter fun e => e.bank.val = k.val ∧ e.line = row.val) = [⟨k, row, d.row row k, 800⟩] := by
  match k, row with
  | 0, 0 | 0, 1 | 0, 2 | 0, 3 => rfl
  | 1, 0 | 1, 1 | 1, 2 | 1, 3 => rfl
  | 2, 0 | 2, 1 | 2, 2 | 2, 3 => rfl

/-- **A frame shows every byte of the bitmap once.** -/
theorem litAt_frame (C : Fin 12) (R : Fin 48) (d : LedData) :
    litAt C R (frame d) = [(some (d (cellOf C R)), 800)] := by
  have hk : R.val / 16 < 3 := by omega
  have hrow : R.val % 4 < 4 := by omega
  have hc : 4 * C.val + 3 - R.val % 16 / 4 < 48 := by omega
  have hf := frame_filter d ⟨R.val / 16, hk⟩ ⟨R.val % 4, hrow⟩
  unfold litAt
  rw [hf, List.map_singleton]
  have e : (d.row ⟨R.val % 4, hrow⟩ ⟨R.val / 16, hk⟩)[4 * C.val + 3 - R.val % 16 / 4]? =
      some (d (cellOf C R)) := by
    unfold LedData.row
    rw [List.getElem?_ofFn, dif_pos hc]
    rfl
  exact congrArg (fun x => [(x, 800)]) e

theorem litAt_frames (C : Fin 12) (R : Fin 48) (ds : List LedData) :
    litAt C R (ds.flatMap frame) = ds.map fun d => (some (d (cellOf C R)), 800) := by
  induction ds with
  | nil => rfl
  | cons d ds ih =>
    rw [List.flatMap_cons, litAt_append, litAt_frame, ih]
    rfl

theorem init_dark (s : Panel) : ∃ t, Trace.run hwStep s led12Init = some t ∧ t.Dark ∧ t.lit = s.lit := by
  refine ⟨_, rfl, fun j => ?_, rfl⟩
  match j with
  | 0 | 1 | 2 => rfl

/-- **Every frame lights every byte of `LED_DATA` once, at its column and row, for 800
microseconds; no row is selected or sent while a bank is lit, and no two banks are lit at once.** -/
theorem scan_shows (s : Panel) (ds : List LedData) :
    ∃ t u, Trace.run hwStep s led12Init = some t ∧
      Trace.run hwStep t (ds.flatMap ledSendData) = some u ∧
      Trace.Along hwStep Clean t (ds.flatMap ledSendData) ∧ u.Dark ∧
      ∀ C R, litAt C R u.lit = litAt C R s.lit ++ ds.map fun d => (some (d (cellOf C R)), 800) := by
  obtain ⟨t, ht, hdark, hlit⟩ := init_dark s
  obtain ⟨hclean, u, hu, hdark', hlit'⟩ :=
    displays_flatMap ledSendData frame ds (fun d _ => displays_frame d) t hdark
  refine ⟨t, u, ht, hu, hclean, hdark', fun C R => ?_⟩
  rw [hlit', hlit, litAt_append, litAt_frames]

/-! ## the thread -/

/-- the frames that a run of the loop sends -/
def ledFrames (s : LedThread) : List LedIn → List LedData
  | [] => []
  | a :: as =>
    match ledTurn s a with
    | none => []
    | some t => t.data :: ledFrames t as

/-- the page that a redraw leaves, in the turn with `i` -/
def pageOf (i : Nat) (l : LedLocals) : Option LedData :=
  if i % 1000 = 0 then screenTwo l else screenOne l

theorem ledFrames_cons {s t : LedThread} {a : LedIn} (h : ledTurn s a = some t) (as : List LedIn) :
    ledFrames s (a :: as) = t.data :: ledFrames t as := by
  rw [ledFrames, h]

theorem ledFrames_append {s t : LedThread} {as : List LedIn} (h : Trace.run ledTurn s as = some t)
    (bs : List LedIn) : ledFrames s (as ++ bs) = ledFrames s as ++ ledFrames t bs := by
  induction as generalizing s with
  | nil =>
    cases h
    rfl
  | cons a as ih =>
    obtain ⟨u, hu, hr⟩ := Trace.run_cons_inv h
    rw [List.cons_append, ledFrames_cons hu, ledFrames_cons hu, ih hr, List.cons_append]

theorem length_ledFrames {s t : LedThread} {as : List LedIn} (h : Trace.run ledTurn s as = some t) :
    (ledFrames s as).length = as.length := by
  induction as generalizing s with
  | nil => rfl
  | cons a as ih =>
    obtain ⟨u, hu, hr⟩ := Trace.run_cons_inv h
    rw [ledFrames_cons hu, List.length_cons, ih hr, List.length_cons]

/-- a turn counts, and redraws every 500 -/
theorem turn_page {s t : LedThread} {a : LedIn} (hf : a.Fits) (h : ledTurn s a = some t) :
    t.locals.i = (if s.locals.i % 1000 = 0 then 0 else s.locals.i) + 1 ∧
      (s.locals.i % 500 ≠ 0 → t.data = s.data) ∧
      (s.locals.i % 500 = 0 → pageOf s.locals.i (s.received a) = some t.data) := by
  have hi : (s.received a).i = s.locals.i := by
    cases a with
    | idle => rfl
    | sample r clobbered =>
      have hfit : r.Fits := hf
      rw [LedThread.received, if_pos hfit]
      rfl
  obtain ⟨d1, h1, -⟩ := screenOne_shows (s.received a)
  obtain ⟨d2, h2, -⟩ := screenTwo_shows (s.received a)
  have ht := Option.some.inj h
  unfold pageOf
  rw [← ht, hi, h1, h2]
  refine ⟨rfl, fun h5 => ?_, fun h5 => ?_⟩
  · have h10 : ¬ s.locals.i % 1000 = 0 := by omega
    dsimp only
    rw [if_neg h10, if_neg h5]
  · dsimp only
    by_cases h10 : s.locals.i % 1000 = 0
    · rw [if_pos h10, if_pos h10]
      rfl
    · rw [if_neg h10, if_neg h10, if_pos h5]
      rfl

/-- the counter of the loop, after `k` turns -/
def Counted (k : Nat) (s : LedThread) : Prop := s.locals.i % 1000 = k % 1000 ∧ s.locals.i ≤ 1000

theorem counted_turn {k : Nat} {s t : LedThread} {a : LedIn} (hs : Counted k s) (hf : a.Fits)
    (h : ledTurn s a = some t) : Counted (k + 1) t := by
  obtain ⟨hi, -⟩ := turn_page hf h
  obtain ⟨h1, h2⟩ := hs
  unfold Counted
  rw [hi]
  split <;> omega

theorem counted_run {k : Nat} {s t : LedThread} {as : List LedIn} (hs : Counted k s)
    (hf : ∀ a ∈ as, a.Fits) (h : Trace.run ledTurn s as = some t) :
    Counted (k + as.length) t := by
  induction as generalizing k s with
  | nil =>
    cases h
    exact hs
  | cons a as ih =>
    obtain ⟨u, hu, hr⟩ := Trace.run_cons_inv h
    have hu' := counted_turn hs (hf a List.mem_cons_self) hu
    have ht := ih hu' (fun b hb => hf b (List.mem_cons_of_mem a hb)) hr
    rw [List.length_cons, show k + (as.length + 1) = k + 1 + as.length by omega]
    exact ht

/-- between two redraws the frames are alike -/
theorem frames_alike {k : Nat} {s t : LedThread} {as : List LedIn} (hs : Counted k s)
    (hk : k % 500 ≠ 0) (hlen : k % 500 + as.length ≤ 500) (hf : ∀ a ∈ as, a.Fits)
    (h : Trace.run ledTurn s as = some t) :
    ledFrames s as = List.replicate as.length s.data := by
  induction as generalizing k s with
  | nil => rfl
  | cons a as ih =>
    obtain ⟨u, hu, hr⟩ := Trace.run_cons_inv h
    have hfa := hf a List.mem_cons_self
    obtain ⟨-, hsame, -⟩ := turn_page hfa hu
    have hd := hsame (by have := hs.1; omega)
    rw [List.length_cons] at hlen
    rw [ledFrames_cons hu, List.length_cons, List.replicate_succ, hd]
    cases as with
    | nil => rfl
    | cons b bs =>
      rw [List.length_cons] at hlen
      rw [ih (counted_turn hs hfa hu) (by omega) (by rw [List.length_cons]; omega)
        (fun c hc => hf c (List.mem_cons_of_mem a hc)) hr, hd]

/-- **Pages.**  The turns number 0, 500, 1000, ... redraw, by turns the dust page and the other one,
from what the locals hold then; the 500 frames from there on show this page. -/
theorem page_shown (d : LedData) (pre post : List LedIn) (a : LedIn) (u t : LedThread)
    (hf : ∀ x ∈ pre ++ a :: post, x.Fits) (hpre : pre.length % 500 = 0) (hpost : post.length < 500)
    (hu : Trace.run ledTurn (ledInit d) pre = some u)
    (ht : Trace.run ledTurn (ledInit d) (pre ++ a :: post) = some t) :
    ∃ page, pageOf pre.length (u.received a) = some page ∧
      (ledFrames (ledInit d) (pre ++ a :: post)).drop pre.length =
        List.replicate (post.length + 1) page := by
  have hcount : Counted (0 + pre.length) u :=
    counted_run ⟨rfl, Nat.zero_le _⟩ (fun x hx => hf x (List.mem_append_left _ hx)) hu
  rw [Nat.zero_add] at hcount
  have hmod := hcount.1
  have hfa : a.Fits := hf a (List.mem_append_right _ List.mem_cons_self)
  have hr : Trace.run ledTurn u (a :: post) = some t := by
    rw [Trace.run_append, hu] at ht
    exact ht
  obtain ⟨v, hv, hr'⟩ := Trace.run_cons_inv hr
  obtain ⟨-, -, hpage⟩ := turn_page hfa hv
  have halike := frames_alike (counted_turn hcount hfa hv) (by omega) (by omega)
    (fun x hx => hf x (List.mem_append_right _ (List.mem_cons_of_mem a hx))) hr'
  refine ⟨v.data, ?_, ?_⟩
  · have e : pageOf pre.length (u.received a) = pageOf u.locals.i (u.received a) := by
      unfold pageOf
      rw [hmod]
    rw [e]
    exact hpage (by omega)
  · rw [ledFrames_append hu, ← length_ledFrames hu, List.drop_left, ledFrames_cons hv, halike,
      List.replicate_succ]

/-- a turn always ends -/
theorem ledTurn_run (s : LedThread) (as : List LedIn) : ∃ t, Trace.run ledTurn s as = some t := by
  induction as generalizing s with
  | nil => exact ⟨s, rfl⟩
  | cons a as ih =>
    obtain ⟨t, ht⟩ := ih ((ledTurn s a).get rfl)
    exact ⟨t, (Trace.run_cons_some rfl as).trans ht⟩

/-- a sample, and the turns in which the first page is shown -/
def firstPage : List LedIn :=
  .sample ⟨some 231, some 450, some 512, some 5, some 8⟩ ledLocalsInit :: List.replicate 499 .idle

theorem fits_firstPage (x : LedIn) (hx : x ∈ firstPage ++ .idle :: [.idle]) : x.Fits := by
  simp only [firstPage, List.cons_append, List.mem_cons, List.mem_append, List.mem_replicate,
    List.not_mem_nil, or_false] at hx
  rcases hx with rfl | ⟨-, rfl⟩ | rfl | rfl
  · show Received.Fits _
    decide
  · trivial
  · trivial
  · trivial

/-- the second page is drawn from the sample -/
theorem page_shown_second : ∃ u, Trace.run ledTurn (ledInit ledClear) firstPage = some u ∧
    ∃ page, pageOf 500 (u.received .idle) = some page ∧
      (ledFrames (ledInit ledClear) (firstPage ++ [.idle, .idle])).drop 500 =
        List.replicate 2 page := by
  obtain ⟨u, hu⟩ := ledTurn_run (ledInit ledClear) firstPage
  obtain ⟨t, ht⟩ := ledTurn_run (ledInit ledClear) (firstPage ++ [.idle, .idle])
  have hlen : firstPage.length = 500 := by
    rw [firstPage, List.length_cons, List.length_replicate]
  have h := page_shown ledClear firstPage [.idle] .idle u t fits_firstPage (by rw [hlen])
    (by decide) hu ht
  rw [hlen] at h
  exact ⟨u, hu, h⟩

end ENV
