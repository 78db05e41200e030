import Mathlib.Logic.Function.Basic
import Enviroment.Sensor.Line

/-!
# What the sensor thread publishes (`BYH_M_thread_entry`)

The thread calls the three get functions in turn and after each PM call sends the five values of
its data block to both mailboxes, whatever the calls returned.  The first acquisition drops the
return codes, the later ones only print them, so both are the same step here.

* `publish`           the ten sends, in the order of the source;
* `acqStep`           one get call, with the publication that follows the PM call;
* `Provenance`        every value published is the one of the most recent accepted reply to the
                      call that reads this quantity;
* `provenance_iff`    a run has it exactly if the three calls of the first acquisition accept.
-/

namespace ENV

/-- `(rt_uint32_t)` of an `rt_int16_t` -/
def mail (v : Word) : Mail := v.signExtend 32

/-- the ten sends of a cycle -/
def publish (byh : ByhM) : List (Mb × Mail) :=
  [(.iot, mail byh.temperature_x10), (.iot, mail byh.humidity_x10), (.iot, mail byh.noise_x10),
    (.iot, mail byh.pm2_5), (.iot, mail byh.pm10),
    (.led, mail byh.temperature_x10), (.led, mail byh.humidity_x10), (.led, mail byh.noise_x10),
    (.led, mail byh.pm2_5), (.led, mail byh.pm10)]

/-! ## quantities -/

inductive Quantity where
  | temperature
  | humidity
  | noise
  | pm2_5
  | pm10
deriving DecidableEq

/-- the call that reads it -/
def Quantity.get : Quantity → Get
  | .temperature => .humiture
  | .humidity => .humiture
  | .noise => .noise
  | .pm2_5 => .pm
  | .pm10 => .pm

/-- the field that holds it -/
def Quantity.field : Quantity → ByhM → Word
  | .temperature => ByhM.temperature_x10
  | .humidity => ByhM.humidity_x10
  | .noise => ByhM.noise_x10
  | .pm2_5 => ByhM.pm2_5
  | .pm10 => ByhM.pm10

/-- the number of its register among those the call asks for: the first or the second -/
def Quantity.index : Quantity → Nat
  | .temperature => 1
  | .humidity => 0
  | .noise => 0
  | .pm2_5 => 0
  | .pm10 => 1

/-- its value in a reply frame -/
def Quantity.inReply (x : Quantity) (f : List Byte) : Word :=
  word (f.getD (3 + 2 * x.index) 0) (f.getD (4 + 2 * x.index) 0)

/-- the order in which a cycle sends the quantities, to one mailbox and then to the other -/
def sendOrder : List (Mb × Quantity) :=
  [Mb.iot, Mb.led].flatMap fun b =>
    [.temperature, .humidity, .noise, .pm2_5, .pm10].map fun x => (b, x)

theorem publish_eq (byh : ByhM) :
    publish byh = sendOrder.map fun bx => (bx.1, mail (bx.2.field byh)) := rfl

/-! ## the thread -/

/-- one `rt_device_read`: what it delivers and what the local buffer held before -/
structure ReadIn where
  d : List Byte
  temp : Temp

structure Acq where
  next : Get
  byh : ByhM
  /-- the mails sent so far -/
  sent : List (Mb × Mail)
  /-- the frame that each get function accepted last -/
  accepted : Get → Option (List Byte)

def acqInit : Acq := ⟨.humiture, byhDataInit, [], fun _ => none⟩

/-- the buffer of a call after its read -/
def ReadIn.buffer (a : ReadIn) (g : Get) : Temp := rtDeviceRead (a.d.take g.query.n) a.temp

/-- the checksum test passes -/
def ReadIn.accepts (a : ReadIn) (g : Get) : Prop := crcTest g.query (a.buffer g) = true

instance (a : ReadIn) (g : Get) : Decidable (a.accepts g) := inferInstanceAs (Decidable (_ = _))

def acqStep (s : Acq) (a : ReadIn) : Option Acq :=
  let r := s.next.call (a.d.take s.next.query.n) a.temp s.byh
  some
    { next := s.next.succ
      byh := r.2
      sent := if s.next = .pm then s.sent ++ publish r.2 else s.sent
      accepted := if r.1 = rtEok then
          Function.update s.accepted s.next (some ((a.buffer s.next).take s.next.query.n))
        else s.accepted }

/-- every value that the step publishes is the value of that quantity in the most recent frame that
its call accepted -/
def Provenance (s : Acq) (_ : ReadIn) (t : Acq) : Prop :=
  s.next = .pm → ∃ f : Get → List Byte, (∀ g, t.accepted g = some (f g)) ∧
    t.sent = s.sent ++ sendOrder.map fun bx => (bx.1, mail (bx.2.inReply (f bx.2.get)))

/-- the three calls of the first acquisition, if the run gets so far, accept their frames -/
def FirstAccepted : List ReadIn → Prop
  | a :: b :: c :: _ => a.accepts .humiture ∧ b.accepts .noise ∧ c.accepts .pm
  | _ => True

/-- the fields of the data block are those of the frames accepted last -/
def Fresh (s : Acq) : Prop :=
  ∀ x : Quantity, ∀ f, s.accepted x.get = some f → x.field s.byh = x.inReply f

/-! ## one step -/

theorem acqStep_accept (s : Acq) (a : ReadIn) (h : a.accepts s.next) :
    acqStep s a = some
      { next := s.next.succ
        byh := s.next.save (a.buffer s.next) s.byh
        sent := if s.next = .pm then
            s.sent ++ publish (s.next.save (a.buffer s.next) s.byh) else s.sent
        accepted :=
          Function.update s.accepted s.next (some ((a.buffer s.next).take s.next.query.n)) } := by
  have hr : s.next.call (a.d.take s.next.query.n) a.temp s.byh
      = (rtEok, s.next.save (a.buffer s.next) s.byh) := by
    rw [s.next.call_eq]
    exact if_pos h
  unfold acqStep
  simp only [hr, ↓reduceIte]

theorem acqStep_reject (s : Acq) (a : ReadIn) (h : ¬ a.accepts s.next) :
    acqStep s a = some
      { s with
        next := s.next.succ
        sent := if s.next = .pm then s.sent ++ publish s.byh else s.sent } := by
  have hr : s.next.call (a.d.take s.next.query.n) a.temp s.byh = (rtError, s.byh) := by
    rw [s.next.call_eq]
    exact if_neg h
  unfold acqStep
  simp only [hr, if_neg rtError_ne_rtEok]

/-- saving a buffer puts the quantities of the call there and leaves the others -/
theorem field_save (x : Quantity) (g : Get) (temp : Temp) (byh : ByhM) :
    x.field (g.save temp byh) =
      if x.get = g then x.inReply (temp.take g.query.n) else x.field byh := by
  cases g <;> cases x <;> rfl

theorem fresh_step (s t : Acq) (a : ReadIn) (hs : Fresh s) (h : acqStep s a = some t) :
    Fresh t := by
  by_cases ha : a.accepts s.next
  · rw [acqStep_accept s a ha] at h
    obtain rfl := Option.some.inj h
    intro x f hf
    rw [field_save]
    by_cases hx : x.get = s.next
    · rw [if_pos hx]
      have hf' : Function.update s.accepted s.next
          (some ((a.buffer s.next).take s.next.query.n)) x.get = some f := hf
      rw [hx, Function.update_self] at hf'
      rw [Option.some.inj hf']
    · rw [if_neg hx]
      have hf' : Function.update s.accepted s.next
          (some ((a.buffer s.next).take s.next.query.n)) x.get = some f := hf
      rw [Function.update_of_ne hx] at hf'
      exact hs x f hf'
  · rw [acqStep_reject s a ha] at h
    obtain rfl := Option.some.inj h
    exact hs

theorem accepted_iff (s t : Acq) (a : ReadIn) (h : acqStep s a = some t) (g : Get) :
    (t.accepted g).isSome ↔ (s.accepted g).isSome ∨ (g = s.next ∧ a.accepts s.next) := by
  by_cases ha : a.accepts s.next
  · rw [acqStep_accept s a ha] at h
    obtain rfl := Option.some.inj h
    by_cases hn : g = s.next
    · simp [hn, ha]
    · simp [hn]
  · rw [acqStep_reject s a ha] at h
    obtain rfl := Option.some.inj h
    simp [ha]

/-- a frame once accepted is only ever replaced by a newer one -/
theorem accepted_step (s t : Acq) (a : ReadIn) (h : acqStep s a = some t) (g : Get)
    (hg : (s.accepted g).isSome) : (t.accepted g).isSome :=
  (accepted_iff s t a h g).mpr (Or.inl hg)

/-- once every quantity has been read, a publication has provenance -/
theorem provenance_of_fresh (s t : Acq) (a : ReadIn) (h : acqStep s a = some t) (ht : Fresh t)
    (hall : ∀ g, (t.accepted g).isSome) : Provenance s a t := by
  intro hpm
  refine ⟨fun g => (t.accepted g).get (hall g), fun g => (Option.some_get (hall g)).symm, ?_⟩
  have hsent : t.sent = s.sent ++ publish t.byh := by
    unfold acqStep at h
    obtain rfl := Option.some.inj h
    simp only [hpm, ↓reduceIte]
  rw [hsent, publish_eq]
  congr 1
  refine List.map_congr_left fun bx _ => ?_
  rw [ht bx.2 _ (Option.some_get (hall bx.2.get)).symm]

/-! ## runs -/

theorem fresh_init : Fresh acqInit := by
  intro x f hf
  cases hf

theorem next_step (s t : Acq) (a : ReadIn) (h : acqStep s a = some t) : t.next = s.next.succ := by
  unfold acqStep at h
  obtain rfl := Option.some.inj h
  rfl

theorem acqStep_total (s : Acq) (a : ReadIn) : ∃ t, acqStep s a = some t := ⟨_, rfl⟩

theorem accepted_first {t u v : Acq} {a b c : ReadIn} (ht : acqStep acqInit a = some t)
    (hu : acqStep t b = some u) (hv : acqStep u c = some v) (as : List ReadIn) :
    (∀ g, (v.accepted g).isSome) ↔ FirstAccepted (a :: b :: c :: as) := by
  have nt : t.next = .noise := next_step _ _ _ ht
  have nu : u.next = .pm := by rw [next_step _ _ _ hu, nt]; rfl
  simp only [FirstAccepted, accepted_iff _ _ _ hv, accepted_iff _ _ _ hu, accepted_iff _ _ _ ht,
    nt, nu]
  constructor
  · intro h
    have hh := h .humiture
    have hn := h .noise
    have hp := h .pm
    simp [acqInit] at hh hn hp
    exact ⟨hh, hn, hp⟩
  · rintro ⟨hh, hn, hp⟩ g
    cases g with
    | humiture => exact Or.inl (Or.inl (Or.inr ⟨rfl, hh⟩))
    | noise => exact Or.inl (Or.inr ⟨rfl, hn⟩)
    | pm => exact Or.inr ⟨rfl, hp⟩

theorem provenance_run {s : Acq} (hs : Fresh s) (hall : ∀ g, (s.accepted g).isSome)
    (as : List ReadIn) : Trace.Along acqStep Provenance s as := by
  refine Trace.Along.imp_of_inv (I := fun s => Fresh s ∧ ∀ g, (s.accepted g).isSome)
    (G := fun _ _ _ => True) ?_ ⟨hs, hall⟩ (Trace.along_of_forall (fun _ _ _ => trivial) s as)
  rintro s a t ⟨hs, hg⟩ h -
  have ht := fresh_step s t a hs h
  have hg' := fun g => accepted_step s t a h g (hg g)
  exact ⟨provenance_of_fresh s t a h ht hg', ht, hg'⟩

/-- **Every published value has provenance exactly if the first acquisition succeeds** (or the run
ends before its first publication). -/
theorem provenance_iff (as : List ReadIn) :
    Trace.Along acqStep Provenance acqInit as ↔ FirstAccepted as := by
  -- the first two calls publish nothing
  have hquiet : ∀ s a t, s.next ≠ Get.pm → Provenance s a t := fun s a t hn hpm => absurd hpm hn
  match as with
  | [] => exact ⟨fun _ => trivial, fun _ => trivial⟩
  | [a] =>
    refine ⟨fun _ => trivial, fun _ t ht => ⟨hquiet _ a t (by decide), trivial⟩⟩
  | [a, b] =>
    refine ⟨fun _ => trivial, fun _ t ht => ⟨hquiet _ a t (by decide), fun u hu => ?_⟩⟩
    exact ⟨hquiet _ b u (by rw [next_step _ _ _ ht]; decide), trivial⟩
  | a :: b :: c :: as =>
    obtain ⟨t, ht⟩ := acqStep_total acqInit a
    obtain ⟨u, hu⟩ := acqStep_total t b
    obtain ⟨v, hv⟩ := acqStep_total u c
    have nt : t.next = .noise := next_step _ _ _ ht
    have nu : u.next = .pm := by rw [next_step _ _ _ hu, nt]; rfl
    have fv : Fresh v := fresh_step _ _ _ (fresh_step _ _ _ (fresh_step _ _ _ fresh_init ht) hu) hv
    rw [Trace.along_cons ht, Trace.along_cons hu, Trace.along_cons hv,
      ← accepted_first ht hu hv as]
    constructor
    · rintro ⟨-, -, hp, -⟩ g
      obtain ⟨f, hf, -⟩ := hp nu
      rw [hf g]
      rfl
    · intro hall
      exact ⟨hquiet _ a t (by decide), hquiet t b u (by rw [nt]; decide),
        provenance_of_fresh u v c hv fv hall, provenance_run fv hall as⟩

/-- nothing is delivered in the first acquisition and the stack holds zeros -/
def silentRun : List ReadIn := List.replicate 3 ⟨[], fun _ => 0⟩

/-- the initial zeros are published as measurements -/
theorem provenance_fails : ¬ Trace.Along acqStep Provenance acqInit silentRun := by
  intro h
  have hlast := (Trace.along_iff acqInit silentRun).mp h (silentRun.take 2) ⟨[], fun _ => 0⟩ []
    rfl _ _ rfl rfl
  obtain ⟨f, hf, -⟩ := hlast (by decide +kernel)
  have hn := (accepted_iff _ _ _ rfl .humiture).mp (by rw [hf .humiture]; rfl)
  exact absurd hn (by decide +kernel)

end ENV
