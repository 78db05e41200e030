import Mathlib.Data.List.ReduceOption
import Enviroment.Threads.System
import Enviroment.Lib.Blocks

/-!
# Samples through the mailboxes

A mailbox holds five mails and a send to a full one is rejected; the sensor thread ignores that.
If the five sends of a sample meet different fates, a remainder of the sample stays in the queue
and every later tuple is shifted.

* `mails_flow`        what a mailbox accepted is what its reader took and what is still in it;
* `Aligned`           what a mailbox accepted is made of whole samples, and of the first part of
                      the one being published;
* `Steady`            the steps at which a sample or a round of `LED` stays in one piece: its sends
                      meet the same fate, its receives all get a mail or all time out;
* `intact_of_steady`  in a steady run every tuple reported or shown is one published sample.
-/

namespace ENV

/-! ## the steps that keep samples in one piece -/

/-- the next send finds the mailbox as the send before it found it -/
def SteadySend (s : Station) : ByhPc → Prop
  | .send b _ res => ∀ r ∈ res.getLast?, (r = -rtEfull ↔ (s.box b).full)
  | _ => True

/-- after a timeout the next receive of the round finds nothing -/
def SteadyRecv (s : Station) : LedPc → Prop
  | .recv got => got.getLast? = some none → s.led.mails = []
  | _ => True

/-- after a mail no receive of the round times out -/
def SteadyTimer : LedPc → Prop
  | .waitMb got => ∀ x ∈ got.getLast?, x = none
  | _ => True

/-- the fate of the next send or receive is the fate of the one before it -/
def Steady (s : Station) (a : Turn) (_ : Station) : Prop :=
  match a with
  | .byh _ => SteadySend s s.byhPc
  | .nb => True
  | .led => SteadyRecv s s.ledPc
  | .ledTimer => SteadyTimer s.ledPc

instance (s : Station) : (pc : ByhPc) → Decidable (SteadySend s pc)
  | .send _ _ res => inferInstanceAs (Decidable (∀ r ∈ res.getLast?, _))
  | .start | .waitOne | .acquire | .releaseOne | .releaseTwo => instDecidableTrue

instance (s : Station) : (pc : LedPc) → Decidable (SteadyRecv s pc)
  | .recv _ => inferInstanceAs (Decidable (_ → _))
  | .poll | .waitMb _ => instDecidableTrue

instance : (pc : LedPc) → Decidable (SteadyTimer pc)
  | .waitMb got => inferInstanceAs (Decidable (∀ x ∈ got.getLast?, x = none))
  | .poll | .recv _ => instDecidableTrue

instance (s : Station) : (a : Turn) → (t : Station) → Decidable (Steady s a t)
  | .byh _, _ => inferInstanceAs (Decidable (SteadySend s s.byhPc))
  | .nb, _ => instDecidableTrue
  | .led, _ => inferInstanceAs (Decidable (SteadyRecv s s.ledPc))
  | .ledTimer, _ => inferInstanceAs (Decidable (SteadyTimer s.ledPc))

/-- the tuples reported are published samples, in their order; so are the rounds of `LED` that
received anything -/
structure Intact (s : Station) : Prop where
  reports : List.Sublist s.reports (s.published.map Sample.mails)
  rounds : ∃ l, List.Sublist l s.published ∧
    s.rounds.filter (fun r => r.any Option.isSome) = l.map fun smp => smp.mails.map some

/-! ## the streams -/

/-- all items equal in being a mail or not -/
def Uniform (got : List (Option Mail)) : Prop :=
  (∀ x ∈ got, x = none) ∨ ∃ ms : List Mail, got = ms.map some

/-- the mails of a list of receives -/
def gotMails (got : List (Option Mail)) : List Mail := got.reduceOption

theorem gotMails_none (got : List (Option Mail)) (h : ∀ x ∈ got, x = none) : gotMails got = [] := by
  unfold gotMails
  induction got with
  | nil => rfl
  | cons x got ih =>
    have hx := h x List.mem_cons_self
    subst hx
    rw [List.reduceOption_cons_of_none]
    exact ih fun y hy => h y (List.mem_cons_of_mem _ hy)

theorem gotMails_map_some (ms : List Mail) : gotMails (ms.map some) = ms := by
  unfold gotMails
  induction ms with
  | nil => rfl
  | cons m ms ih => rw [List.map_cons, List.reduceOption_cons_of_some, ih]

theorem gotMails_append (a b : List (Option Mail)) :
    gotMails (a ++ b) = gotMails a ++ gotMails b := by
  unfold gotMails List.reduceOption
  rw [List.filterMap_append]

/-- the sample on its way to mailbox `b`, and what its sends to `b` returned so far -/
def ByhPc.under (b : Mb) : ByhPc → Option (Sample × List RtErr)
  | .send .iot smp res => match b with
    | .iot => some (smp, res)
    | .led => some (smp, [])
  | .send .led smp res => match b with
    | .iot => none
    | .led => some (smp, res)
  | _ => none

/-- the mails of a list of samples -/
def sampleMails (l : List Sample) : List Mail := (l.map Sample.mails).flatten

theorem sampleMails_append (l m : List Sample) :
    sampleMails (l ++ m) = sampleMails l ++ sampleMails m := by
  unfold sampleMails
  rw [List.map_append, List.flatten_append]

/-- `log` is made of whole published samples, and of the part of `smp` that was accepted -/
def Partial (log : List Mail) (published : List Sample) (smp : Sample) (res : List RtErr) : Prop :=
  ∃ ps acc, published = ps ++ [smp] ∧ List.Sublist acc ps ∧ res.length < 5 ∧
    (((∀ r ∈ res, r = rtEok) ∧ log = sampleMails acc ++ smp.mails.take res.length) ∨
      (res ≠ [] ∧ (∀ r ∈ res, r = -rtEfull) ∧ log = sampleMails acc))

/-- `log` is made of whole published samples -/
def Whole (log : List Mail) (published : List Sample) : Prop :=
  ∃ acc, List.Sublist acc published ∧ log = sampleMails acc

def Aligned (b : Mb) (log : List Mail) (published : List Sample) (pc : ByhPc) : Prop :=
  match pc.under b with
  | some (smp, res) => Partial log published smp res
  | none => Whole log published

/-- an aligned log is a prefix of whole published samples -/
theorem Aligned.prefix_samples {b : Mb} {log : List Mail} {published : List Sample} {pc : ByhPc}
    (h : Aligned b log published pc) :
    ∃ acc, List.Sublist acc published ∧ log <+: sampleMails acc := by
  unfold Aligned at h
  split at h
  next smp res _ =>
    obtain ⟨ps, acc, hps, hacc, -, ⟨-, hlog⟩ | ⟨-, -, hlog⟩⟩ := h
    · refine ⟨acc ++ [smp], hps ▸ List.Sublist.append hacc (List.Sublist.refl _), ?_⟩
      rw [hlog]
      have hp := flatten_take_prefix (acc.map Sample.mails) smp.mails res.length
      unfold sampleMails
      rw [List.map_append, List.map_cons, List.map_nil]
      exact hp
    · refine ⟨acc, hps ▸ hacc.trans (List.sublist_append_left ps [smp]), ?_⟩
      rw [hlog]
  next =>
    obtain ⟨acc, hacc, hlog⟩ := h
    exact ⟨acc, hacc, by rw [hlog]⟩

theorem Whole.unfinished {log : List Mail} {published : List Sample} (h : Whole log published)
    (smp : Sample) : Partial log (published ++ [smp]) smp [] := by
  obtain ⟨acc, hacc, hlog⟩ := h
  refine ⟨published, acc, rfl, hacc, by decide, Or.inl ⟨fun r hr => absurd hr List.not_mem_nil, ?_⟩⟩
  rw [hlog, List.length_nil, List.take_zero, List.append_nil]

theorem take_five (smp : Sample) : smp.mails.take 5 = smp.mails := rfl

/-- the results of a steady publication are all equal -/
theorem Partial.alike {log : List Mail} {published : List Sample} {smp : Sample} {res : List RtErr}
    (h : Partial log published smp res) (r : RtErr) (hr : r = rtEok ∨ r = -rtEfull)
    (hsame : ∀ x, res.getLast? = some x → (x = -rtEfull ↔ r = -rtEfull)) : ∀ x ∈ res, x = r := by
  obtain ⟨ps, acc, -, -, -, hcase⟩ := h
  intro x hx
  have hne : res ≠ [] := List.ne_nil_of_mem hx
  have hsl := hsame _ (List.getLast?_eq_some_getLast hne)
  have hmem := List.getLast_mem hne
  rcases hcase with ⟨hok, -⟩ | ⟨-, hfull, -⟩
  · rw [hok _ hmem] at hsl
    rcases hr with rfl | rfl
    · exact hok x hx
    · exact absurd (hsl.mpr rfl) neg_rtEfull_ne_rtEok.symm
  · rw [hfull x hx]
    exact (hsl.mp (hfull _ hmem)).symm

/-- **One send of a steady publication**: the log stays aligned with the sample, or with the whole
samples after the fifth send. -/
theorem Partial.send {log : List Mail} {published : List Sample} {smp : Sample} {res : List RtErr}
    (h : Partial log published smp res) {v : Mail} (hv : smp.mails[res.length]? = some v)
    (r : RtErr) (hr : r = rtEok ∨ r = -rtEfull)
    (hsame : ∀ x, res.getLast? = some x → (x = -rtEfull ↔ r = -rtEfull)) :
    let log' := if r = rtEok then log ++ [v] else log
    if res.length + 1 = 5 then Whole log' published
    else Partial log' published smp (res ++ [r]) := by
  have hall := h.alike r hr hsame
  obtain ⟨ps, acc, hps, hacc, hlen, hcase⟩ := h
  have hall' : ∀ x ∈ res ++ [r], x = r := by
    intro x hx
    rcases List.mem_append.mp hx with h1 | h1
    · exact hall x h1
    · exact List.mem_singleton.mp h1
  have htake : smp.mails.take (res.length + 1) = smp.mails.take res.length ++ [v] := by
    rw [List.take_add_one, hv, Option.toList_some]
  rcases hr with rfl | rfl
  · -- accepted: nothing was rejected before
    have hlog : log = sampleMails acc ++ smp.mails.take res.length := by
      rcases hcase with ⟨-, hlog⟩ | ⟨hne, hfull, -⟩
      · exact hlog
      · obtain ⟨x, hx⟩ := List.exists_mem_of_ne_nil res hne
        exact absurd ((hfull x hx).symm.trans (hall x hx)) neg_rtEfull_ne_rtEok
    simp only [↓reduceIte]
    split
    next h5 =>
      refine ⟨acc ++ [smp], hps ▸ List.Sublist.append hacc (List.Sublist.refl _), ?_⟩
      rw [hlog, List.append_assoc, ← htake, h5, take_five, sampleMails_append]
      simp [sampleMails]
    next h5 =>
      refine ⟨ps, acc, hps, hacc, by rw [List.length_append]; simp; omega, Or.inl ⟨hall', ?_⟩⟩
      rw [hlog, List.append_assoc, ← htake, List.length_append]
      rfl
  · -- rejected: nothing was accepted before
    have hlog : log = sampleMails acc := by
      rcases hcase with ⟨hok, hlog⟩ | ⟨-, -, hlog⟩
      · have hnil : res = [] := by
          by_contra hne
          obtain ⟨x, hx⟩ := List.exists_mem_of_ne_nil res hne
          exact absurd ((hall x hx).symm.trans (hok x hx)) neg_rtEfull_ne_rtEok
        rw [hlog, hnil, List.length_nil, List.take_zero, List.append_nil]
      · exact hlog
    simp only [if_neg neg_rtEfull_ne_rtEok]
    split
    next h5 => exact ⟨acc, hps ▸ hacc.trans (List.sublist_append_left ps [smp]), hlog⟩
    next h5 =>
      exact ⟨ps, acc, hps, hacc, by rw [List.length_append]; simp; omega,
        Or.inr ⟨by simp, hall', hlog⟩⟩

/-! ## the reader of each mailbox -/

/-- how many mails a place of `NB_IOT` has received -/
def NbPc.Width : NbPc → Prop
  | .recv got | .waitMb got => got.length < 5
  | .report got => got.length = 5
  | _ => True

/-- the mails that `iot_mb` accepted were reported, are with the reader, or are in the queue -/
structure NbFlow (log : List Mail) (reports : List (List Mail)) (pc : NbPc) (mails : List Mail) :
    Prop where
  flow : log = reports.flatten ++ pc.got ++ mails
  reports : ∀ r ∈ reports, r.length = 5
  width : pc.Width

/-- the mails that `led_mb` accepted were shown, are with the reader, or are in the queue -/
structure LedFlow (log : List Mail) (rounds : List (List (Option Mail))) (pc : LedPc)
    (mails : List Mail) : Prop where
  flow : log = gotMails (rounds.flatten ++ pc.got) ++ mails
  rounds : ∀ r ∈ rounds, r.length = 5 ∧ Uniform r
  width : pc.got.length < 5
  uniform : Uniform pc.got

theorem NbFlow.move {log mails : List Mail} {reports : List (List Mail)} {pc : NbPc}
    (h : NbFlow log reports pc mails) (pc' : NbPc) (hg : pc'.got = pc.got) (hw : pc'.Width) :
    NbFlow log reports pc' mails :=
  ⟨by rw [hg]; exact h.flow, h.reports, hw⟩

theorem LedFlow.move {log mails : List Mail} {rounds : List (List (Option Mail))} {pc : LedPc}
    (h : LedFlow log rounds pc mails) (pc' : LedPc) (hg : pc'.got = pc.got) :
    LedFlow log rounds pc' mails :=
  ⟨by rw [hg]; exact h.flow, h.rounds, by rw [hg]; exact h.width, by rw [hg]; exact h.uniform⟩

theorem NbFlow.send {log mails : List Mail} {reports : List (List Mail)} {pc : NbPc}
    (h : NbFlow log reports pc mails) (v : Mail) :
    NbFlow (log ++ [v]) reports pc (mails ++ [v]) :=
  ⟨by rw [h.flow, List.append_assoc], h.reports, h.width⟩

theorem LedFlow.send {log mails : List Mail} {rounds : List (List (Option Mail))} {pc : LedPc}
    (h : LedFlow log rounds pc mails) (v : Mail) :
    LedFlow (log ++ [v]) rounds pc (mails ++ [v]) :=
  ⟨by rw [h.flow, List.append_assoc], h.rounds, h.width, h.uniform⟩

/-- one more mail keeps the receives of a round alike if the last one was a mail -/
theorem Uniform.append_some {got : List (Option Mail)} (h : Uniform got) (v : Mail)
    (hl : got.getLast? ≠ some none) : Uniform (got ++ [some v]) := by
  rcases h with hnone | ⟨ms, hms⟩
  · cases hg : got.getLast? with
    | none =>
      rw [List.getLast?_eq_none_iff.mp hg]
      exact Or.inr ⟨[v], rfl⟩
    | some x =>
      have hx := hnone x (List.mem_of_getLast? hg)
      exact absurd (hx ▸ hg) hl
  · refine Or.inr ⟨ms ++ [v], ?_⟩
    rw [hms, List.map_append, List.map_cons, List.map_nil]

theorem Uniform.append_none {got : List (Option Mail)} (h : Uniform got)
    (hl : ∀ x, got.getLast? = some x → x = none) : Uniform (got ++ [none]) := by
  refine Or.inl fun x hx => ?_
  rcases List.mem_append.mp hx with hx | hx
  · rcases h with hnone | ⟨ms, hms⟩
    · exact hnone x hx
    · -- a mail among the receives would make the last one a mail
      have hne : ms ≠ [] := by
        rintro rfl
        rw [hms] at hx
        exact List.not_mem_nil hx
      have hlast : got.getLast? = some (some (ms.getLast hne)) := by
        rw [hms, List.getLast?_map, List.getLast?_eq_some_getLast hne]
        rfl
      exact absurd (hl _ hlast) (by simp)
  · exact List.mem_singleton.mp hx

theorem LedFlow.next {s : Station} {got : List (Option Mail)}
    (hflow : s.ledLog = gotMails (s.rounds.flatten ++ got) ++ s.led.mails)
    (hrounds : ∀ r ∈ s.rounds, r.length = 5 ∧ Uniform r) (hlen : got.length ≤ 5)
    (hu : Uniform got) :
    LedFlow s.ledLog (s.ledNext got).rounds (s.ledNext got).ledPc s.led.mails := by
  unfold Station.ledNext
  split
  next h5 =>
    refine ⟨?_, ?_, Nat.zero_lt_succ _, Or.inl fun x hx => absurd hx List.not_mem_nil⟩
    · show s.ledLog = gotMails ((s.rounds ++ [got]).flatten ++ []) ++ s.led.mails
      rw [List.append_nil, List.flatten_append, List.flatten_singleton]
      exact hflow
    · intro r hr
      rcases List.mem_append.mp hr with hr | hr
      · exact hrounds r hr
      · rw [List.mem_singleton.mp hr]
        exact ⟨h5, hu⟩
  next h5 => exact ⟨hflow, hrounds, by show got.length < 5; omega, hu⟩

/-! ## the invariant -/

structure FlowInv (s : Station) : Prop where
  iotAligned : Aligned .iot s.iotLog s.published s.byhPc
  ledAligned : Aligned .led s.ledLog s.published s.byhPc
  nb : NbFlow s.iotLog s.reports s.nbPc s.iot.mails
  led : LedFlow s.ledLog s.rounds s.ledPc s.led.mails

theorem flow_init : FlowInv stationInit where
  iotAligned := ⟨[], List.Sublist.refl _, rfl⟩
  ledAligned := ⟨[], List.Sublist.refl _, rfl⟩
  nb := ⟨(mails_init (τ := Tid) (by decide : 0 < 5)).symm,
    fun r hr => absurd hr List.not_mem_nil, trivial⟩
  led := ⟨(mails_init (τ := Tid) (by decide : 0 < 5)).symm,
    fun r hr => absurd hr List.not_mem_nil, by decide,
    Or.inl fun x hx => absurd hx List.not_mem_nil⟩

/-- a move of the sensor thread that sends nothing -/
theorem Aligned.move {b : Mb} {log : List Mail} {published : List Sample} {pc : ByhPc}
    (h : Aligned b log published pc) (pc' : ByhPc) (hu : pc'.under b = pc.under b) :
    Aligned b log published pc' := by
  unfold Aligned at h ⊢
  rw [hu]
  exact h

theorem FlowInv.wake {s : Station} (h : FlowInv s) (o : Option Tid) : FlowInv (s.wake o) := by
  rcases wake_cases s o with e | ⟨hp, e⟩ | ⟨hp, e⟩ | ⟨got, hp, e⟩ | ⟨got, hp, e⟩
  · rw [e]
    exact h
  · rw [e]
    exact ⟨h.iotAligned.move _ (by rw [hp]; rfl), h.ledAligned.move _ (by rw [hp]; rfl), h.nb,
      h.led⟩
  · rw [e]
    exact ⟨h.iotAligned, h.ledAligned, h.nb.move _ (by rw [hp]; rfl) (Nat.zero_lt_succ _), h.led⟩
  · rw [e]
    have hw := h.nb.width
    rw [hp] at hw
    exact ⟨h.iotAligned, h.ledAligned, h.nb.move _ (by rw [hp]; rfl) hw, h.led⟩
  · rw [e]
    exact ⟨h.iotAligned, h.ledAligned, h.nb, h.led.move _ (by rw [hp]; rfl)⟩

/-! ## one step -/

/-- an aligned log after one more send of a steady publication -/
theorem Aligned.send {b : Mb} {log : List Mail} {published : List Sample} {smp : Sample}
    {res : List RtErr} (h : Aligned b log published (.send b smp res)) {v : Mail}
    (hv : smp.mails[res.length]? = some v) (r : RtErr) (hr : r = rtEok ∨ r = -rtEfull)
    (hsame : ∀ x, res.getLast? = some x → (x = -rtEfull ↔ r = -rtEfull)) :
    Aligned b (if r = rtEok then log ++ [v] else log) published (afterSend b smp (res ++ [r])) := by
  have hpart : Partial log published smp res := by
    cases b with
    | iot => exact h
    | led => exact h
  have hs := hpart.send hv r hr hsame
  unfold afterSend
  rw [List.length_append, List.length_singleton]
  by_cases h5 : res.length + 1 = 5
  · rw [if_pos h5]
    simp only [if_pos h5] at hs
    cases b with
    | iot => exact hs
    | led => exact hs
  · rw [if_neg h5]
    simp only [if_neg h5] at hs
    cases b with
    | iot => exact hs
    | led => exact hs

/-- the sends to one mailbox do not touch the other -/
theorem Aligned.send_other {b b' : Mb} (hb : b ≠ b') {log : List Mail} {published : List Sample}
    {smp : Sample} {res : List RtErr} (h : Aligned b' log published (.send b smp res)) (r : RtErr) :
    Aligned b' log published (afterSend b smp (res ++ [r])) := by
  refine h.move _ ?_
  unfold afterSend
  cases b with
  | iot =>
    cases b' with
    | iot => exact absurd rfl hb
    | led => split <;> rfl
  | led =>
    cases b' with
    | iot => split <;> rfl
    | led => exact absurd rfl hb

theorem send_result (mb : Mailbox Tid 5) (v : Mail) :
    ((rtMbSend mb v).1 = rtEok ∧ ¬ mb.full ∧ (rtMbSend mb v).2.2.mails = mb.mails ++ [v]) ∨
      ((rtMbSend mb v).1 = -rtEfull ∧ mb.full ∧ (rtMbSend mb v).2.2.mails = mb.mails) := by
  by_cases hf : mb.full
  · rw [send_full mb v hf]
    exact Or.inr ⟨rfl, hf, rfl⟩
  · obtain ⟨h1, -, h3, -⟩ := send_room mb v hf
    exact Or.inl ⟨h1, hf, h3⟩

theorem flow_send {s : Station} (h : FlowInv s) {b : Mb} {smp : Sample} {res : List RtErr}
    (hpc : s.byhPc = .send b smp res) {v : Mail} (hv : smp.mails[res.length]? = some v)
    (hsteady : ∀ r, res.getLast? = some r → (r = -rtEfull ↔ (s.box b).full)) :
    FlowInv { (s.mbSend b v).2.2 with byhPc := afterSend b smp (res ++ [(s.mbSend b v).1]) } := by
  have hi := h.iotAligned
  have hl := h.ledAligned
  rw [hpc] at hi hl
  have hres := send_result (s.box b) v
  have hsame : ∀ r, res.getLast? = some r →
      (r = -rtEfull ↔ (rtMbSend (s.box b) v).1 = -rtEfull) := by
    intro r hr
    rw [hsteady r hr]
    rcases hres with ⟨h1, hf, -⟩ | ⟨h1, hf, -⟩
    · rw [h1]
      exact ⟨fun x => absurd x hf, fun x => absurd x.symm neg_rtEfull_ne_rtEok⟩
    · exact ⟨fun _ => h1, fun _ => hf⟩
  have hr : (rtMbSend (s.box b) v).1 = rtEok ∨ (rtMbSend (s.box b) v).1 = -rtEfull := by
    rcases hres with ⟨h1, -⟩ | ⟨h1, -⟩
    · exact Or.inl h1
    · exact Or.inr h1
  cases b with
  | iot =>
    refine ⟨hi.send hv _ hr hsame, hl.send_other (by decide) _, ?_, h.led⟩
    show NbFlow (if (rtMbSend s.iot v).1 = rtEok then s.iotLog ++ [v] else s.iotLog) s.reports
      s.nbPc (rtMbSend s.iot v).2.2.mails
    rcases hres with ⟨h1, -, h3⟩ | ⟨h1, -, h3⟩
    · rw [show (rtMbSend s.iot v).1 = rtEok from h1, if_pos rfl,
        show (rtMbSend s.iot v).2.2.mails = s.iot.mails ++ [v] from h3]
      exact h.nb.send v
    · rw [show (rtMbSend s.iot v).1 = -rtEfull from h1, if_neg neg_rtEfull_ne_rtEok,
        show (rtMbSend s.iot v).2.2.mails = s.iot.mails from h3]
      exact h.nb
  | led =>
    refine ⟨hi.send_other (by decide) _, hl.send hv _ hr hsame, h.nb, ?_⟩
    show LedFlow (if (rtMbSend s.led v).1 = rtEok then s.ledLog ++ [v] else s.ledLog) s.rounds
      s.ledPc (rtMbSend s.led v).2.2.mails
    rcases hres with ⟨h1, -, h3⟩ | ⟨h1, -, h3⟩
    · rw [show (rtMbSend s.led v).1 = rtEok from h1, if_pos rfl,
        show (rtMbSend s.led v).2.2.mails = s.led.mails ++ [v] from h3]
      exact h.led.send v
    · rw [show (rtMbSend s.led v).1 = -rtEfull from h1, if_neg neg_rtEfull_ne_rtEok,
        show (rtMbSend s.led v).2.2.mails = s.led.mails from h3]
      exact h.led

theorem flow_byh {s t : Station} {smp : Sample} (h : FlowInv s) (ht : byhStep s smp = some t)
    (hsteady : Steady s (.byh smp) t) : FlowInv t := by
  unfold byhStep at ht
  replace hsteady : SteadySend s s.byhPc := hsteady
  cases hpc : s.byhPc with
  | start =>
    simp only [hpc, Option.some.injEq] at ht
    subst ht
    refine ⟨h.iotAligned.move _ ?_, h.ledAligned.move _ ?_, h.nb, h.led⟩
    · rw [hpc]
      split <;> rfl
    · rw [hpc]
      split <;> rfl
  | waitOne =>
    simp only [hpc] at ht
    cases ht
  | acquire =>
    simp only [hpc, Option.some.injEq] at ht
    subst ht
    have hi := h.iotAligned
    have hl := h.ledAligned
    rw [hpc] at hi hl
    exact ⟨Whole.unfinished hi smp, Whole.unfinished hl smp, h.nb, h.led⟩
  | send b cur res =>
    simp only [hpc] at ht
    rw [hpc] at hsteady
    split at ht
    next => cases ht
    next v hv =>
      cases ht
      exact (flow_send h hpc hv hsteady).wake _
  | releaseOne =>
    simp only [hpc, Option.some.injEq] at ht
    subst ht
    apply FlowInv.wake
    refine ⟨h.iotAligned.move _ ?_, h.ledAligned.move _ ?_, h.nb, h.led⟩
    · rw [hpc]; rfl
    · rw [hpc]; rfl
  | releaseTwo =>
    simp only [hpc, Option.some.injEq] at ht
    subst ht
    apply FlowInv.wake
    refine ⟨h.iotAligned.move _ ?_, h.ledAligned.move _ ?_, h.nb, h.led⟩
    · rw [hpc]; rfl
    · rw [hpc]; rfl

theorem flow_nb {s t : Station} (h : FlowInv s) (ht : nbStep s = some t) : FlowInv t := by
  unfold nbStep at ht
  have hw := h.nb.width
  cases hpc : s.nbPc with
  | init =>
    simp only [hpc, Option.some.injEq] at ht
    subst ht
    apply FlowInv.wake
    exact ⟨h.iotAligned, h.ledAligned, h.nb.move _ (by rw [hpc]; rfl) trivial, h.led⟩
  | take =>
    simp only [hpc, Option.some.injEq] at ht
    subst ht
    split
    · exact ⟨h.iotAligned, h.ledAligned, h.nb.move _ (by rw [hpc]; rfl) (Nat.zero_lt_succ _), h.led⟩
    · exact ⟨h.iotAligned, h.ledAligned, h.nb.move _ (by rw [hpc]; rfl) trivial, h.led⟩
  | waitOne =>
    simp only [hpc] at ht
    cases ht
  | recv got =>
    have hflow := h.nb.flow
    rw [hpc] at hw hflow
    simp only [hpc] at ht
    cases hm : s.iot.mails with
    | nil =>
      simp only [recv_nil s.iot .nb hm, Option.some.injEq] at ht
      subst ht
      exact ⟨h.iotAligned, h.ledAligned, h.nb.move _ (by rw [hpc]; rfl) hw, h.led⟩
    | cons v l =>
      obtain ⟨h1, h2, -⟩ := recv_cons s.iot .nb hm
      simp only [h1, Option.some.injEq] at ht
      subst ht
      have hlog : s.iotLog = s.reports.flatten ++ (got ++ [v]) ++ l := by
        rw [hflow, hm]
        simp [NbPc.got]
      refine ⟨h.iotAligned, h.ledAligned, ?_, h.led⟩
      show NbFlow s.iotLog s.reports _ (rtMbRecv s.iot .nb).2.mails
      rw [h2]
      split
      next h5 => exact ⟨hlog, h.nb.reports, h5⟩
      next h5 =>
        refine ⟨hlog, h.nb.reports, ?_⟩
        show (got ++ [v]).length < 5
        rw [List.length_append, List.length_singleton] at h5 ⊢
        have : got.length < 5 := hw
        omega
  | waitMb got =>
    simp only [hpc] at ht
    cases ht
  | report got =>
    have hflow := h.nb.flow
    rw [hpc] at hw hflow
    simp only [hpc, Option.some.injEq] at ht
    subst ht
    refine ⟨h.iotAligned, h.ledAligned, ⟨?_, ?_, trivial⟩, h.led⟩
    · show s.iotLog = (s.reports ++ [got]).flatten ++ [] ++ s.iot.mails
      rw [List.append_nil, List.flatten_append, List.flatten_singleton]
      exact hflow
    · intro r hr
      rcases List.mem_append.mp hr with hr | hr
      · exact h.nb.reports r hr
      · exact List.mem_singleton.mp hr ▸ hw

/-- `ledNext` touches neither mailbox nor the other threads -/
theorem flow_ledNext {s : Station} {got : List (Option Mail)}
    (hi : Aligned .iot s.iotLog s.published s.byhPc)
    (hl : Aligned .led s.ledLog s.published s.byhPc)
    (hn : NbFlow s.iotLog s.reports s.nbPc s.iot.mails)
    (hled : LedFlow s.ledLog (s.ledNext got).rounds (s.ledNext got).ledPc s.led.mails) :
    FlowInv (s.ledNext got) := by
  unfold Station.ledNext at hled ⊢
  split
  next h5 =>
    rw [if_pos h5] at hled
    exact ⟨hi, hl, hn, hled⟩
  next h5 =>
    rw [if_neg h5] at hled
    exact ⟨hi, hl, hn, hled⟩

theorem flow_led {s t : Station} (h : FlowInv s) (ht : ledStep s = some t)
    (hsteady : Steady s .led t) : FlowInv t := by
  unfold ledStep at ht
  replace hsteady : SteadyRecv s s.ledPc := hsteady
  cases hpc : s.ledPc with
  | poll =>
    simp only [hpc, Option.some.injEq] at ht
    subst ht
    refine ⟨h.iotAligned, h.ledAligned, h.nb, h.led.move _ ?_⟩
    rw [hpc]
    split <;> rfl
  | recv got =>
    simp only [hpc] at ht
    rw [hpc] at hsteady
    cases hm : s.led.mails with
    | nil =>
      simp only [recv_nil s.led .led hm, Option.some.injEq] at ht
      subst ht
      exact ⟨h.iotAligned, h.ledAligned, h.nb, h.led.move _ (by rw [hpc]; rfl)⟩
    | cons v l =>
      obtain ⟨h1, h2, -⟩ := recv_cons s.led .led hm
      simp only [h1, Option.some.injEq] at ht
      subst ht
      have hled := h.led
      rw [hpc] at hled
      have hlast : got.getLast? ≠ some none := by
        intro hn
        have hnil := hsteady hn
        rw [hm] at hnil
        cases hnil
      refine flow_ledNext h.iotAligned h.ledAligned h.nb (LedFlow.next ?_ h.led.rounds ?_ ?_)
      · show s.ledLog = gotMails (s.rounds.flatten ++ (got ++ [some v])) ++
          (rtMbRecv s.led .led).2.mails
        rw [h2, hled.flow, hm, ← List.append_assoc, gotMails_append (s.rounds.flatten ++ got)]
        simp [LedPc.got, gotMails]
      · have : got.length < 5 := hled.width
        rw [List.length_append, List.length_singleton]
        omega
      · exact Uniform.append_some hled.uniform v hlast
  | waitMb got =>
    simp only [hpc] at ht
    cases ht

theorem flow_ledTimer {s t : Station} (h : FlowInv s) (ht : ledTimerStep s = some t)
    (hsteady : Steady s .ledTimer t) : FlowInv t := by
  unfold ledTimerStep at ht
  replace hsteady : SteadyTimer s.ledPc := hsteady
  cases hpc : s.ledPc with
  | waitMb got =>
    simp only [hpc, Option.some.injEq] at ht
    rw [hpc] at hsteady
    subst ht
    have hled := h.led
    rw [hpc] at hled
    refine flow_ledNext h.iotAligned h.ledAligned h.nb (LedFlow.next ?_ h.led.rounds ?_ ?_)
    · show s.ledLog = gotMails (s.rounds.flatten ++ (got ++ [none])) ++ s.led.mails
      rw [hled.flow, ← List.append_assoc, gotMails_append (s.rounds.flatten ++ got)]
      simp [LedPc.got, gotMails]
    · have : got.length < 5 := hled.width
      rw [List.length_append, List.length_singleton]
      omega
    · exact Uniform.append_none hled.uniform hsteady
  | _ =>
    simp only [hpc] at ht
    cases ht

/-- **One steady step keeps the samples in one piece.** -/
theorem flow_step (s : Station) (a : Turn) (t : Station) (h : FlowInv s)
    (ht : stationStep s a = some t) (hsteady : Steady s a t) : FlowInv t := by
  cases a with
  | byh smp => exact flow_byh h ht hsteady
  | nb => exact flow_nb h ht
  | led => exact flow_led h ht hsteady
  | ledTimer => exact flow_ledTimer h ht hsteady

/-! ## the tuples -/

theorem samples_of_prefix {rs : List (List Mail)} {published acc : List Sample}
    (hacc : List.Sublist acc published) (hlen : ∀ r ∈ rs, r.length = 5)
    (hp : rs.flatten <+: sampleMails acc) :
    ∃ l, List.Sublist l published ∧ rs = l.map Sample.mails := by
  have hpre := prefix_of_flatten (by decide : 0 < 5) rs (acc.map Sample.mails) hlen
    (fun b hb => by
      obtain ⟨smp, -, rfl⟩ := List.mem_map.mp hb
      exact smp.length_mails) hp
  refine ⟨acc.take rs.length, (List.take_sublist _ _).trans hacc, ?_⟩
  rw [List.map_take]
  exact List.prefix_iff_eq_take.mp hpre

theorem rounds_mails (rounds : List (List (Option Mail)))
    (h : ∀ r ∈ rounds, r.length = 5 ∧ Uniform r) :
    ∃ rs : List (List Mail), (rounds.filter fun r => r.any Option.isSome) = rs.map (List.map some) ∧
      (∀ r ∈ rs, r.length = 5) ∧ gotMails rounds.flatten = rs.flatten := by
  induction rounds with
  | nil => exact ⟨[], rfl, fun r hr => absurd hr List.not_mem_nil, rfl⟩
  | cons r rounds ih =>
    obtain ⟨rs, h1, h2, h3⟩ := ih fun x hx => h x (List.mem_cons_of_mem _ hx)
    obtain ⟨hlen, hnone | ⟨ms, rfl⟩⟩ := h r List.mem_cons_self
    · refine ⟨rs, ?_, h2, ?_⟩
      · rw [List.filter_cons_of_neg, h1]
        intro ha
        obtain ⟨x, hx, hsome⟩ := List.any_eq_true.mp ha
        rw [hnone x hx] at hsome
        cases hsome
      · rw [List.flatten_cons, gotMails_append, gotMails_none r hnone, List.nil_append, h3]
    · rw [List.length_map] at hlen
      refine ⟨ms :: rs, ?_, ?_, ?_⟩
      · rw [List.filter_cons_of_pos, h1, List.map_cons]
        cases ms with
        | nil => cases hlen
        | cons m ms => rfl
      · intro x hx
        rcases List.mem_cons.mp hx with rfl | hx
        · exact hlen
        · exact h2 x hx
      · rw [List.flatten_cons, gotMails_append, gotMails_map_some, h3, List.flatten_cons]

theorem intact_of_flow {s : Station} (h : FlowInv s) : Intact s := by
  constructor
  · obtain ⟨acc, hacc, hlog⟩ := h.iotAligned.prefix_samples
    have hp : s.reports.flatten <+: sampleMails acc := by
      refine List.IsPrefix.trans ?_ hlog
      rw [h.nb.flow, List.append_assoc]
      exact List.prefix_append _ _
    obtain ⟨l, hl, hr⟩ := samples_of_prefix hacc h.nb.reports hp
    rw [hr]
    exact hl.map Sample.mails
  · obtain ⟨acc, hacc, hlog⟩ := h.ledAligned.prefix_samples
    obtain ⟨rs, h1, h2, h3⟩ := rounds_mails s.rounds h.led.rounds
    have hp : rs.flatten <+: sampleMails acc := by
      refine List.IsPrefix.trans ?_ hlog
      rw [h.led.flow, gotMails_append, h3, List.append_assoc]
      exact List.prefix_append _ _
    obtain ⟨l, hl, hr⟩ := samples_of_prefix hacc h2 hp
    refine ⟨l, hl, ?_⟩
    rw [h1, hr, List.map_map]
    rfl

/-- **In a steady run every tuple reported or shown is one published sample.** -/
theorem intact_of_steady (as : List Turn) (h : Trace.Along stationStep Steady stationInit as) :
    Trace.Along stationStep (fun _ _ t => Intact t) stationInit as :=
  Trace.Along.imp_of_inv
    (fun s a t hs ht hg => ⟨intact_of_flow (flow_step s a t hs ht hg), flow_step s a t hs ht hg⟩)
    flow_init h

/-! ## runs -/

def smpOne : Sample := ⟨250, 600, 450, 25, 40⟩
def smpTwo : Sample := ⟨260, 610, 460, 26, 41⟩
def smpThree : Sample := ⟨270, 620, 470, 27, 42⟩

/-- both threads start; the sensor thread publishes `smpOne`, `LED` shows it, `NB_IOT` reports it -/
def onceRun : List Turn :=
  [.nb, .byh smpOne] ++ List.replicate 13 (.byh smpOne) ++ List.replicate 6 .led ++
    List.replicate 7 .nb

theorem intact_of_steady_once :
    Trace.Along stationStep (fun _ _ t => Intact t) stationInit onceRun :=
  intact_of_steady onceRun (by decide +kernel)

/-- the first send of `smpTwo` meets the full mailbox, then `NB_IOT` empties it and the other four
sends find room; the first mail of `smpThree` completes the tuple -/
def mixRun : List Turn :=
  [.nb, .byh smpOne] ++ List.replicate 13 (.byh smpOne) ++ List.replicate 2 (.byh smpTwo) ++
    List.replicate 7 .nb ++ List.replicate 10 (.byh smpTwo) ++ List.replicate 6 .nb ++
    List.replicate 3 (.byh smpThree) ++ List.replicate 2 .nb

/-- humidity, noise, PM2.5 and PM10 of `smpTwo` and the temperature of `smpThree` are reported as
one tuple -/
theorem intact_fails : ¬ Trace.Along stationStep (fun _ _ t => Intact t) stationInit mixRun := by
  intro h
  have hrun : (Trace.run stationStep stationInit mixRun).map (fun t => (t.reports, t.published)) =
      some ([smpOne.mails, [610, 460, 26, 41, 270]], [smpOne, smpTwo, smpThree]) := by
    decide +kernel
  obtain ⟨t, ht, heq⟩ := Option.map_eq_some_iff.mp hrun
  obtain ⟨hrep, hpub⟩ := Prod.mk.inj heq
  have hi := (Trace.along_last (intact_of_flow flow_init) h ht).reports
  rw [hrep, hpub] at hi
  exact absurd hi (by decide)

end ENV
