import Enviroment.Threads.System

/-!
# The start of the station: one semaphore, two signals

`sem_one` carries the start signal of `NB_IOT` to `BYH_M` and the data-ready signal back.  Nothing
tells the two tokens apart: if `NB_IOT` reaches the `rt_sem_take` of its loop before `BYH_M` has
reached its own, it takes back the token that it has just released.

* `Handshake`        what the two threads rely on;
* `HsInv`            the phases of the start, each with its tokens and suspended threads;
* `Prompt`           `BYH_M` has reached its `rt_sem_take` when `NB_IOT` takes;
* `handshake_iff`    a run keeps the handshake exactly if it is prompt.
-/

namespace ENV

/-- the start token went to `BYH_M`, `NB_IOT` passes on the tokens of `BYH_M` only, and the two
threads do not wait for each other -/
structure Handshake (s : Station) : Prop where
  token : s.nbPc ≠ .init →
    (s.byhPc = .start ∧ s.nbPc = .take ∧ s.one.value = 1) ∨ s.byhPc.passed
  passes : s.passes ≤ s.releases
  sample : 0 < s.passes →
    ∃ smp rest, s.published = smp :: rest ∧ smp.mails <+: s.iotLog
  live : ∀ got, s.nbPc = .waitMb got → s.iot.mails = [] →
    ¬ (s.byhPc = .waitOne ∧ s.one.value = 0)

/-- whenever `NB_IOT` takes, the sensor thread has reached its first `rt_sem_take` -/
def Prompt (s : Station) (a : Turn) (_ : Station) : Prop :=
  match a with
  | .nb => s.nbPc = .take → s.byhPc ≠ .start
  | _ => True

/-! ## phases -/

/-- what the two threads see of the station -/
structure Shake where
  one : Semaphore Tid
  iot : Mailbox Tid 5
  byh : ByhPc
  nb : NbPc
  published : List Sample
  iotLog : List Mail
  releases : Nat
  passes : Nat

def Station.shake (s : Station) : Shake :=
  ⟨s.one, s.iot, s.byhPc, s.nbPc, s.published, s.iotLog, s.releases, s.passes⟩

/-- nothing published yet -/
structure Untouched (v : Shake) : Prop where
  mails : v.iot.mails = []
  waits : v.iot.suspended = []
  published : v.published = []
  iotLog : v.iotLog = []
  releases : v.releases = 0
  passes : v.passes = 0

/-- `NB_IOT` is in `NB_IOT_Init` -/
structure Before (v : Shake) : Prop where
  untouched : Untouched v
  nb : v.nb = .init
  byh : (v.byh = .start ∧ v.one = ⟨0, []⟩) ∨ (v.byh = .waitOne ∧ v.one = ⟨0, [.byh]⟩)

/-- the start token is in the semaphore and `BYH_M` has not come for it -/
structure Offered (v : Shake) : Prop where
  untouched : Untouched v
  nb : v.nb = .take
  byh : v.byh = .start
  one : v.one = ⟨1, []⟩

/-- how far the first publication has come: the empty mailbox takes all of it -/
def Shake.Queued (v : Shake) : Prop :=
  match v.byh with
  | .acquire => v.published = [] ∧ v.iotLog = [] ∧ v.iot.mails = []
  | .send .iot smp res => v.published = [smp] ∧ v.iotLog = smp.mails.take res.length ∧
      v.iot.mails = smp.mails.take res.length ∧ res.length < 5
  | .send .led _ _ | .releaseOne => ∃ smp, v.published = [smp] ∧ v.iotLog = smp.mails
  | _ => False

/-- `BYH_M` has the start token and has not released yet: `NB_IOT` cannot pass -/
structure First (v : Shake) : Prop where
  nb : (v.nb = .take ∧ v.one = ⟨0, []⟩) ∨ (v.nb = .waitOne ∧ v.one = ⟨0, [.nb]⟩)
  waits : v.iot.suspended = []
  releases : v.releases = 0
  passes : v.passes = 0
  queued : v.Queued

/-- who is suspended on `sem_one` and on `iot_mb` once `BYH_M` runs -/
def NbPc.onOne : NbPc → List Tid
  | .waitOne => [.nb]
  | _ => []

def NbPc.onIot : NbPc → List Tid
  | .waitMb _ => [.nb]
  | _ => []

/-- `BYH_M` has released -/
structure Running (v : Shake) : Prop where
  byh : v.byh.passed
  nb : v.nb ≠ .init
  one : v.one.suspended = v.nb.onOne
  iot : v.iot.suspended = v.nb.onIot
  count : v.passes + v.one.value.toNat ≤ v.releases
  first : ∃ smp rest, v.published = smp :: rest ∧ smp.mails <+: v.iotLog

def Phase (v : Shake) : Prop := Before v ∨ Offered v ∨ First v ∨ Running v

/-- the invariant of a prompt run -/
structure HsInv (s : Station) : Prop where
  phase : Phase s.shake
  led : ∀ t ∈ s.led.suspended, t = .led
  two : s.two.suspended = []

theorem HsInv.running {s : Station} (hled : ∀ t ∈ s.led.suspended, t = .led)
    (htwo : s.two.suspended = []) (h : Running s.shake) : HsInv s :=
  ⟨Or.inr (Or.inr (Or.inr h)), hled, htwo⟩

theorem HsInv.beforeRelease {s : Station} (hled : ∀ t ∈ s.led.suspended, t = .led)
    (htwo : s.two.suspended = []) (h : First s.shake) : HsInv s :=
  ⟨Or.inr (Or.inr (Or.inl h)), hled, htwo⟩

theorem hs_init : HsInv stationInit where
  phase := Or.inl ⟨⟨mails_init (τ := Tid) (by decide : 0 < 5), rfl, rfl, rfl, rfl, rfl⟩, rfl,
    Or.inl ⟨rfl, rfl⟩⟩
  led := fun t ht => absurd ht List.not_mem_nil
  two := rfl

/-- until the first release `NB_IOT` has no token, and does not wait for a mail -/
theorem First.waiting {s : Station} (h : First s.shake) : s.nbPc ≠ .init ∧
    s.one.suspended = s.nbPc.onOne ∧ s.iot.suspended = s.nbPc.onIot ∧
    s.passes + s.one.value.toNat ≤ s.releases := by
  have hps : s.passes = 0 := h.passes
  have hwaits : s.iot.suspended = [] := h.waits
  rw [hwaits, hps]
  rcases h.nb with ⟨hn, hone⟩ | ⟨hn, hone⟩
  · replace hn : s.nbPc = .take := hn
    replace hone : s.one = ⟨0, []⟩ := hone
    rw [hn, hone]
    exact ⟨fun h => (by cases h), rfl, rfl, Nat.zero_le _⟩
  · replace hn : s.nbPc = .waitOne := hn
    replace hone : s.one = ⟨0, [.nb]⟩ := hone
    rw [hn, hone]
    exact ⟨fun h => (by cases h), rfl, rfl, Nat.zero_le _⟩

theorem Shake.Queued.passed {v : Shake} (h : v.Queued) : v.byh.passed := by
  unfold Shake.Queued at h
  cases hp : v.byh with
  | start => rw [hp] at h; exact h.elim
  | waitOne => rw [hp] at h; exact h.elim
  | _ => trivial

/-- every phase keeps the handshake -/
theorem handshake_of_inv {s : Station} (h : HsInv s) : Handshake s := by
  have hlate : s.byhPc.passed → ∀ got, s.nbPc = .waitMb got → s.iot.mails = [] →
      ¬ (s.byhPc = .waitOne ∧ s.one.value = 0) := by
    rintro hp got - - ⟨hw, -⟩
    rw [hw] at hp
    exact hp
  rcases h.phase with h | h | h | h
  · have hnb : s.nbPc = .init := h.nb
    have hps : s.passes = 0 := h.untouched.passes
    refine ⟨fun hn => absurd hnb hn, by omega, by omega, fun got hg => ?_⟩
    rw [hnb] at hg
    cases hg
  · have hnb : s.nbPc = .take := h.nb
    have hps : s.passes = 0 := h.untouched.passes
    have hone : s.one = ⟨1, []⟩ := h.one
    refine ⟨fun _ => Or.inl ⟨h.byh, hnb, by rw [hone]⟩, by omega, by omega, fun got hg => ?_⟩
    rw [hnb] at hg
    cases hg
  · have hps : s.passes = 0 := h.passes
    exact ⟨fun _ => Or.inr h.queued.passed, by omega, by omega, hlate h.queued.passed⟩
  · have hc : s.passes + s.one.value.toNat ≤ s.releases := h.count
    exact ⟨fun _ => Or.inr h.byh, by omega, fun _ => h.first, hlate h.byh⟩

/-! ## the steps of `LED` -/

theorem shake_ledNext (s : Station) (got : List (Option Mail)) :
    (s.ledNext got).shake = s.shake := by
  unfold Station.ledNext
  split <;> rfl

/-- a step of `LED` or of its timer leaves the two threads alone -/
theorem shake_led {s t : Station} (ht : ledStep s = some t ∨ ledTimerStep s = some t) :
    t.shake = s.shake := by
  rcases ht with ht | ht
  · unfold ledStep at ht
    cases hpc : s.ledPc with
    | poll =>
      simp only [hpc, Option.some.injEq] at ht
      subst ht
      rfl
    | recv got =>
      simp only [hpc] at ht
      split at ht
      · cases ht
        exact shake_ledNext _ _
      · cases ht
        rfl
    | waitMb got =>
      simp only [hpc] at ht
      cases ht
  · unfold ledTimerStep at ht
    split at ht
    · cases ht
      exact shake_ledNext _ _
    · cases ht

/-- only `LED` is ever suspended on `led_mb`, and nobody on `sem_two` -/
def LedWaits (s : Station) : Prop := (∀ t ∈ s.led.suspended, t = .led) ∧ s.two.suspended = []

theorem ledWaits_ledNext {s : Station} (h : LedWaits s) (got : List (Option Mail)) :
    LedWaits (s.ledNext got) := by
  unfold Station.ledNext
  split
  · exact h
  · exact h

theorem ledWaits_led {s t : Station} (h : LedWaits s)
    (ht : ledStep s = some t ∨ ledTimerStep s = some t) : LedWaits t := by
  obtain ⟨hled, htwo⟩ := h
  rcases ht with ht | ht
  · unfold ledStep at ht
    cases hpc : s.ledPc with
    | poll =>
      simp only [hpc, Option.some.injEq] at ht
      subst ht
      refine ⟨hled, ?_⟩
      show (rtSemTrytake s.two).2.suspended = []
      unfold rtSemTrytake
      split
      · exact htwo
      · exact htwo
    | recv got =>
      simp only [hpc] at ht
      cases hm : s.led.mails with
      | nil =>
        simp only [recv_nil s.led .led hm, Option.some.injEq] at ht
        subst ht
        refine ⟨fun x hx => ?_, htwo⟩
        rcases List.mem_append.mp hx with hx | hx
        · exact hled x hx
        · exact List.mem_singleton.mp hx
      | cons v l =>
        obtain ⟨h1, -, h3⟩ := recv_cons s.led .led hm
        simp only [h1, Option.some.injEq] at ht
        subst ht
        have hw : LedWaits { s with led := (rtMbRecv s.led .led).2 } :=
          ⟨fun x hx => hled x (h3 ▸ hx), htwo⟩
        exact ledWaits_ledNext hw _
    | waitMb got =>
      simp only [hpc] at ht
      cases ht
  · unfold ledTimerStep at ht
    cases hpc : s.ledPc with
    | waitMb got =>
      simp only [hpc, Option.some.injEq] at ht
      subst ht
      have hw : LedWaits { s with led := { s.led with suspended := s.led.suspended.erase .led } } :=
        ⟨fun x hx => hled x (List.mem_of_mem_erase hx), htwo⟩
      exact ledWaits_ledNext hw _
    | _ =>
      simp only [hpc] at ht
      cases ht

theorem hs_led {s t : Station} (h : HsInv s) (ht : ledStep s = some t ∨ ledTimerStep s = some t) :
    HsInv t := by
  obtain ⟨hled, htwo⟩ := ledWaits_led ⟨h.led, h.two⟩ ht
  exact ⟨by rw [shake_led ht]; exact h.phase, hled, htwo⟩

/-- so does resuming `LED` -/
theorem HsInv.wake_led {s : Station} (h : HsInv s) {o : Option Tid} (ho : ∀ t ∈ o, t = .led) :
    HsInv (s.wake o) := by
  cases o with
  | none => exact h
  | some t =>
    have e : t = .led := ho t rfl
    subst e
    cases hpc : s.ledPc with
    | waitMb got =>
      simp only [Station.wake, hpc]
      exact ⟨h.phase, h.led, h.two⟩
    | _ =>
      simp only [Station.wake, hpc]
      exact h

/-! ## the steps of `BYH_M` -/

theorem afterSend_led (smp : Sample) (res : List RtErr) :
    afterSend .led smp res = .releaseOne ∨ afterSend .led smp res = .send .led smp res := by
  unfold afterSend
  split
  · exact Or.inl rfl
  · exact Or.inr rfl

theorem afterSend_passed (b : Mb) (smp : Sample) (res : List RtErr) :
    (afterSend b smp res).passed := by
  unfold afterSend
  split
  · cases b <;> trivial
  · trivial

/-- a send to `led_mb` moves only the place of `BYH_M` and `LED` -/
theorem hs_send_led {s : Station} (h : HsInv s) (v : Mail) (pc : ByhPc)
    (hp : Phase { s.shake with byh := pc }) :
    HsInv (Station.wake { (s.mbSend .led v).2.2 with byhPc := pc } (s.mbSend .led v).2.1) := by
  have hsend : (∀ t ∈ (rtMbSend s.led v).2.1, t = .led) ∧
      ∀ t ∈ (rtMbSend s.led v).2.2.suspended, t = .led := by
    by_cases hf : s.led.full
    · rw [send_full s.led v hf]
      exact ⟨fun t ht => absurd ht (Option.not_mem_none t), h.led⟩
    · obtain ⟨-, h2, -, h4⟩ := send_room s.led v hf
      rw [h2, h4]
      exact ⟨fun t ht => h.led t (List.mem_of_mem_head? ht),
        fun t ht => h.led t (List.mem_of_mem_tail ht)⟩
  have hi : HsInv { (s.mbSend .led v).2.2 with byhPc := pc } := ⟨hp, hsend.2, h.two⟩
  exact hi.wake_led hsend.1

/-- a send to `iot_mb` during the first publication finds room and resumes nobody -/
theorem hs_send_first {s : Station} (h : HsInv s) (hf : First s.shake) {smp : Sample}
    {res : List RtErr} (hpc : s.byhPc = .send .iot smp res) {v : Mail}
    (hv : smp.mails[res.length]? = some v) :
    HsInv (Station.wake { (s.mbSend .iot v).2.2 with
      byhPc := afterSend .iot smp (res ++ [(s.mbSend .iot v).1]) } (s.mbSend .iot v).2.1) := by
  obtain ⟨hpub, hlog, hm, hlen⟩ : s.published = [smp] ∧
      s.iotLog = smp.mails.take res.length ∧ s.iot.mails = smp.mails.take res.length ∧
      res.length < 5 := by
    have hq := hf.queued
    unfold Shake.Queued at hq
    rw [show s.shake.byh = .send .iot smp res from hpc] at hq
    exact hq
  have hroom : ¬ s.iot.full := by
    unfold Mailbox.full
    rw [hm, List.length_take]
    omega
  obtain ⟨h1, h2, h3, h4⟩ := send_room s.iot v hroom
  have hsusp : s.iot.suspended = [] := hf.waits
  rw [hsusp] at h2 h4
  have htake : smp.mails.take (res.length + 1) = smp.mails.take res.length ++ [v] := by
    rw [List.take_add_one, hv, Option.toList_some]
  have hwake : (s.mbSend .iot v).2.1 = none := h2
  have hlog' : (s.mbSend .iot v).2.2.iotLog = smp.mails.take (res.length + 1) := by
    show (if (rtMbSend s.iot v).1 = rtEok then s.iotLog ++ [v] else s.iotLog) = _
    rw [if_pos h1, hlog, htake]
  have hm' : (s.mbSend .iot v).2.2.iot.mails = smp.mails.take (res.length + 1) := by
    show (rtMbSend s.iot v).2.2.mails = _
    rw [h3, hm, htake]
  rw [hwake]
  refine .beforeRelease h.led h.two ⟨hf.nb, h4, hf.releases, hf.passes, ?_⟩
  unfold Shake.Queued
  show match afterSend .iot smp (res ++ [(s.mbSend .iot v).1]) with
    | .acquire => _
    | .send .iot smp res => _
    | .send .led _ _ | .releaseOne => _
    | _ => _
  unfold afterSend
  rw [List.length_append, List.length_singleton]
  by_cases h5 : res.length + 1 = 5
  · rw [if_pos h5]
    refine ⟨smp, hpub, hlog'.trans ?_⟩
    rw [h5]
    rfl
  · rw [if_neg h5]
    refine ⟨hpub, ?_, ?_, ?_⟩
    · rw [List.length_append, List.length_singleton]
      exact hlog'
    · rw [List.length_append, List.length_singleton]
      exact hm'
    · rw [List.length_append, List.length_singleton]
      omega

/-- later sends to `iot_mb` may be rejected and may resume `NB_IOT` in `rt_mb_recv` -/
theorem hs_send_running {s : Station} (h : HsInv s) (hr : Running s.shake) (v : Mail) (pc : ByhPc)
    (hpc : pc.passed) :
    HsInv (Station.wake { (s.mbSend .iot v).2.2 with byhPc := pc } (s.mbSend .iot v).2.1) := by
  have hsusp : s.iot.suspended = s.nbPc.onIot := hr.iot
  have hfirst : ∃ smp rest, s.published = smp :: rest ∧
      smp.mails <+: (if (rtMbSend s.iot v).1 = rtEok then s.iotLog ++ [v] else s.iotLog) := by
    obtain ⟨smp, rest, hpub, hpre⟩ := hr.first
    refine ⟨smp, rest, hpub, ?_⟩
    split
    · exact hpre.trans (List.prefix_append _ _)
    · exact hpre
  by_cases hfull : s.iot.full
  · have hs := send_full s.iot v hfull
    have hwake : (s.mbSend .iot v).2.1 = none := congrArg (·.2.1) hs
    have hsusp' : (s.mbSend .iot v).2.2.iot.suspended = s.nbPc.onIot := by
      show (rtMbSend s.iot v).2.2.suspended = _
      rw [hs]
      exact hsusp
    rw [hwake]
    exact .running h.led h.two ⟨hpc, hr.nb, hr.one, hsusp', hr.count, hfirst⟩
  · obtain ⟨-, h2, -, h4⟩ := send_room s.iot v hfull
    rw [hsusp] at h2 h4
    have hwake : (s.mbSend .iot v).2.1 = s.nbPc.onIot.head? := h2
    have hsusp' : (s.mbSend .iot v).2.2.iot.suspended = s.nbPc.onIot.tail := h4
    rw [hwake]
    have hone : s.one.suspended = s.nbPc.onOne := hr.one
    cases hnb : s.nbPc with
    | waitMb got =>
      rw [hnb] at hsusp' hone
      show HsInv (Station.wake _ (some .nb))
      simp only [Station.wake, show (s.mbSend .iot v).2.2.nbPc = .waitMb got from hnb]
      exact .running h.led h.two ⟨hpc, fun h => (by cases h), hone, hsusp', hr.count, hfirst⟩
    | _ =>
      rw [hnb] at hsusp'
      refine .running h.led h.two ⟨hpc, hr.nb, hr.one, ?_, hr.count, hfirst⟩
      show (s.mbSend .iot v).2.2.iot.suspended = s.nbPc.onIot
      rw [hsusp', hnb]
      rfl

/-- a release by `BYH_M` hands its token to `NB_IOT` or leaves it in the semaphore -/
theorem hs_releaseOne {s : Station} (hled : ∀ t ∈ s.led.suspended, t = .led)
    (htwo : s.two.suspended = []) (hnb : s.nbPc ≠ .init) (hone : s.one.suspended = s.nbPc.onOne)
    (hiot : s.iot.suspended = s.nbPc.onIot) (hcount : s.passes + s.one.value.toNat ≤ s.releases)
    (hfirst : ∃ smp rest, s.published = smp :: rest ∧ smp.mails <+: s.iotLog) :
    HsInv (Station.wake { s with
      one := (rtSemRelease s.one).2, byhPc := .releaseTwo, releases := s.releases + 1 }
      (rtSemRelease s.one).1) := by
  unfold rtSemRelease
  rw [hone]
  cases hp : s.nbPc with
  | waitOne =>
    rw [hp] at hiot
    simp only [NbPc.onOne, Station.wake]
    refine .running hled htwo ⟨trivial, fun h => (by cases h), rfl, hiot, ?_, hfirst⟩
    show s.passes + 1 + s.one.value.toNat ≤ s.releases + 1
    omega
  | init => exact absurd hp hnb
  | _ =>
    rw [hp] at hiot
    simp only [NbPc.onOne, Station.wake]
    refine .running hled htwo ⟨trivial, fun h => (by cases h), rfl, hiot, ?_, hfirst⟩
    show s.passes + (s.one.value + 1).toNat ≤ s.releases + 1
    have : (s.one.value + 1).toNat ≤ s.one.value.toNat + 1 := by
      rw [BitVec.toNat_add]
      exact Nat.mod_le _ _
    omega

section
variable {s t : Station} {smp : Sample} (h : HsInv s)
include h

theorem hs_byh_before (hp : Before s.shake) (ht : byhStep s smp = some t) : HsInv t := by
  unfold byhStep at ht
  rcases hp.byh with ⟨hb, hone⟩ | ⟨hb, -⟩
  · replace hb : s.byhPc = .start := hb
    replace hone : s.one = ⟨0, []⟩ := hone
    simp only [hb, hone, semTake_zero, Option.some.injEq] at ht
    subst ht
    exact ⟨Or.inl ⟨⟨hp.untouched.mails, hp.untouched.waits, hp.untouched.published,
      hp.untouched.iotLog, hp.untouched.releases, hp.untouched.passes⟩, hp.nb,
      Or.inr ⟨rfl, rfl⟩⟩, h.led, h.two⟩
  · replace hb : s.byhPc = .waitOne := hb
    simp only [hb] at ht
    cases ht

theorem hs_byh_offered (hp : Offered s.shake) (ht : byhStep s smp = some t) : HsInv t := by
  unfold byhStep at ht
  have hb : s.byhPc = .start := hp.byh
  have hone : s.one = ⟨1, []⟩ := hp.one
  simp only [hb, hone, semTake_one, Option.some.injEq] at ht
  subst ht
  exact .beforeRelease h.led h.two ⟨Or.inl ⟨hp.nb, rfl⟩, hp.untouched.waits,
    hp.untouched.releases, hp.untouched.passes, hp.untouched.published, hp.untouched.iotLog,
    hp.untouched.mails⟩

theorem hs_byh_first (hp : First s.shake) (ht : byhStep s smp = some t) : HsInv t := by
  unfold byhStep at ht
  have hq := hp.queued
  unfold Shake.Queued at hq
  cases hb : s.byhPc with
  | acquire =>
    rw [show s.shake.byh = .acquire from hb] at hq
    obtain ⟨hpub, hlog, hm⟩ : s.published = [] ∧ s.iotLog = [] ∧ s.iot.mails = [] := hq
    simp only [hb, Option.some.injEq] at ht
    subst ht
    refine .beforeRelease h.led h.two ⟨hp.nb, hp.waits, hp.releases, hp.passes, ?_⟩
    exact ⟨by show s.published ++ [smp] = [smp]; rw [hpub]; rfl, hlog, hm, Nat.zero_lt_succ _⟩
  | send b cur res =>
    simp only [hb] at ht
    split at ht
    next => cases ht
    next v hv =>
      cases ht
      cases b with
      | iot => exact hs_send_first h hp hb hv
      | led =>
        rw [show s.shake.byh = .send .led cur res from hb] at hq
        refine hs_send_led h v _ (Or.inr (Or.inr (Or.inl
          ⟨hp.nb, hp.waits, hp.releases, hp.passes, ?_⟩)))
        unfold Shake.Queued
        rcases afterSend_led cur (res ++ [(s.mbSend .led v).1]) with e | e
        · rw [e]
          exact hq
        · rw [e]
          exact hq
  | releaseOne =>
    rw [show s.shake.byh = .releaseOne from hb] at hq
    obtain ⟨cur, hpub, hlog⟩ : ∃ cur, s.published = [cur] ∧ s.iotLog = cur.mails := hq
    simp only [hb, Option.some.injEq] at ht
    subst ht
    obtain ⟨hnb, hone, hiot, hcount⟩ := hp.waiting
    exact hs_releaseOne h.led h.two hnb hone hiot hcount
      ⟨cur, [], hpub, hlog ▸ List.prefix_refl _⟩
  | start =>
    rw [show s.shake.byh = .start from hb] at hq
    exact hq.elim
  | waitOne =>
    rw [show s.shake.byh = .waitOne from hb] at hq
    exact hq.elim
  | releaseTwo =>
    rw [show s.shake.byh = .releaseTwo from hb] at hq
    exact hq.elim

theorem hs_byh_running (hp : Running s.shake) (ht : byhStep s smp = some t) : HsInv t := by
  unfold byhStep at ht
  have hpassed : s.byhPc.passed := hp.byh
  cases hb : s.byhPc with
  | acquire =>
    simp only [hb, Option.some.injEq] at ht
    subst ht
    obtain ⟨cur, rest, hpub, hpre⟩ := hp.first
    replace hpub : s.published = cur :: rest := hpub
    refine .running h.led h.two
      ⟨trivial, hp.nb, hp.one, hp.iot, hp.count, cur, rest ++ [smp], ?_, hpre⟩
    show s.published ++ [smp] = _
    rw [hpub, List.cons_append]
  | send b cur res =>
    simp only [hb] at ht
    split at ht
    next => cases ht
    next v hv =>
      cases ht
      cases b with
      | iot => exact hs_send_running h hp v _ (afterSend_passed _ _ _)
      | led =>
        exact hs_send_led h v _ (Or.inr (Or.inr (Or.inr
          ⟨afterSend_passed _ _ _, hp.nb, hp.one, hp.iot, hp.count, hp.first⟩)))
  | releaseOne =>
    simp only [hb, Option.some.injEq] at ht
    subst ht
    exact hs_releaseOne h.led h.two hp.nb hp.one hp.iot hp.count hp.first
  | releaseTwo =>
    simp only [hb, Option.some.injEq] at ht
    subst ht
    unfold rtSemRelease
    rw [h.two]
    exact .running h.led rfl ⟨trivial, hp.nb, hp.one, hp.iot, hp.count, hp.first⟩
  | start =>
    rw [hb] at hpassed
    exact hpassed.elim
  | waitOne =>
    rw [hb] at hpassed
    exact hpassed.elim

theorem hs_byh (ht : byhStep s smp = some t) : HsInv t := by
  rcases h.phase with hp | hp | hp | hp
  · exact hs_byh_before h hp ht
  · exact hs_byh_offered h hp ht
  · exact hs_byh_first h hp ht
  · exact hs_byh_running h hp ht

end

/-! ## the steps of `NB_IOT` -/

section
variable {s t : Station} (h : HsInv s)
include h

theorem hs_nb_before (hp : Before s.shake) (ht : nbStep s = some t) : HsInv t := by
  unfold nbStep at ht
  have hn : s.nbPc = .init := hp.nb
  simp only [hn, Option.some.injEq] at ht
  subst ht
  obtain ⟨hm, hw, hpub, hlog, hrel, hps⟩ := hp.untouched
  rcases hp.byh with ⟨hb, hone⟩ | ⟨hb, hone⟩
  · replace hone : s.one = ⟨0, []⟩ := hone
    rw [hone]
    exact ⟨Or.inr (Or.inl ⟨⟨hm, hw, hpub, hlog, hrel, hps⟩, rfl, hb, rfl⟩), h.led, h.two⟩
  · replace hone : s.one = ⟨0, [.byh]⟩ := hone
    replace hb : s.byhPc = .waitOne := hb
    rw [hone]
    simp only [rtSemRelease, Station.wake, hb]
    exact .beforeRelease h.led h.two ⟨Or.inl ⟨rfl, rfl⟩, hw, hrel, hps, hpub, hlog, hm⟩

theorem hs_nb_first (hp : First s.shake) (ht : nbStep s = some t) : HsInv t := by
  unfold nbStep at ht
  rcases hp.nb with ⟨hn, hone⟩ | ⟨hn, -⟩
  · replace hn : s.nbPc = .take := hn
    replace hone : s.one = ⟨0, []⟩ := hone
    simp only [hn, hone, semTake_zero, Option.some.injEq] at ht
    subst ht
    exact .beforeRelease h.led h.two
      ⟨Or.inr ⟨rfl, rfl⟩, hp.waits, hp.releases, hp.passes, hp.queued⟩
  · replace hn : s.nbPc = .waitOne := hn
    simp only [hn] at ht
    cases ht

theorem hs_nb_running (hp : Running s.shake) (ht : nbStep s = some t) : HsInv t := by
  unfold nbStep at ht
  have hone : s.one.suspended = s.nbPc.onOne := hp.one
  have hiot : s.iot.suspended = s.nbPc.onIot := hp.iot
  have hcount : s.passes + s.one.value.toNat ≤ s.releases := hp.count
  cases hn : s.nbPc with
  | init => exact absurd hn hp.nb
  | take =>
    rw [hn] at hone hiot
    simp only [hn, Option.some.injEq] at ht
    subst ht
    unfold rtSemTake
    by_cases hv : 0 < s.one.value
    · rw [if_pos hv]
      refine .running h.led h.two ⟨hp.byh, fun h => (by cases h), hone, hiot, ?_, hp.first⟩
      show s.passes + 1 + (s.one.value - 1).toNat ≤ s.releases
      have hlt : 0 < s.one.value.toNat := hv
      have e : (s.one.value - 1).toNat = s.one.value.toNat - 1 :=
        BitVec.toNat_sub_of_le (y := 1) hlt
      omega
    · rw [if_neg hv]
      refine .running h.led h.two ⟨hp.byh, fun h => (by cases h), ?_, hiot, hp.count, hp.first⟩
      show s.one.suspended ++ [.nb] = [.nb]
      rw [hone]
      rfl
  | waitOne =>
    simp only [hn] at ht
    cases ht
  | recv got =>
    rw [hn] at hone hiot
    simp only [hn] at ht
    cases hm : s.iot.mails with
    | nil =>
      simp only [recv_nil s.iot .nb hm, Option.some.injEq] at ht
      subst ht
      refine .running h.led h.two ⟨hp.byh, fun h => (by cases h), hone, ?_, hp.count, hp.first⟩
      show s.iot.suspended ++ [.nb] = [.nb]
      rw [hiot]
      rfl
    | cons v l =>
      obtain ⟨h1, -, h3⟩ := recv_cons s.iot .nb hm
      simp only [h1, Option.some.injEq] at ht
      subst ht
      have hsusp : (rtMbRecv s.iot .nb).2.suspended = [] := h3.trans hiot
      split
      · exact .running h.led h.two
          ⟨hp.byh, fun h => (by cases h), hone, hsusp, hp.count, hp.first⟩
      · exact .running h.led h.two
          ⟨hp.byh, fun h => (by cases h), hone, hsusp, hp.count, hp.first⟩
  | waitMb got =>
    simp only [hn] at ht
    cases ht
  | report got =>
    rw [hn] at hone hiot
    simp only [hn, Option.some.injEq] at ht
    subst ht
    exact .running h.led h.two ⟨hp.byh, fun h => (by cases h), hone, hiot, hp.count, hp.first⟩

theorem hs_nb (ht : nbStep s = some t) (hg : Prompt s .nb t) : HsInv t := by
  rcases h.phase with hp | hp | hp | hp
  · exact hs_nb_before h hp ht
  · -- the token would go back to `NB_IOT`
    exact absurd hp.byh (hg hp.nb)
  · exact hs_nb_first h hp ht
  · exact hs_nb_running h hp ht

end

/-! ## runs -/

theorem hs_step (s : Station) (a : Turn) (t : Station) (h : HsInv s) (ht : stationStep s a = some t)
    (hg : Prompt s a t) : HsInv t := by
  cases a with
  | byh smp => exact hs_byh h ht
  | nb => exact hs_nb h ht hg
  | led => exact hs_led h (Or.inl ht)
  | ledTimer => exact hs_led h (Or.inr ht)

/-- a take that is not prompt gives `NB_IOT` its own token -/
theorem prompt_of_handshake {s t : Station} {a : Turn} (h : HsInv s) (ht : stationStep s a = some t)
    (hs : Handshake t) : Prompt s a t := by
  cases a with
  | nb =>
    intro hn hb
    have hone : s.one = ⟨1, []⟩ := by
      rcases h.phase with hp | hp | hp | hp
      · cases hn.symm.trans hp.nb
      · exact hp.one
      · have hpassed := hp.queued.passed
        rw [show s.shake.byh = .start from hb] at hpassed
        exact hpassed.elim
      · have hpassed := hp.byh
        rw [show s.shake.byh = .start from hb] at hpassed
        exact hpassed.elim
    have ht' : nbStep s = some t := ht
    simp only [nbStep, hn, hone, semTake_one, if_pos, Option.some.injEq] at ht'
    subst ht'
    rcases hs.token (fun h => by cases h) with ⟨-, hn', -⟩ | hpassed
    · cases hn'
    · rw [show (_ : Station).byhPc = .start from hb] at hpassed
      exact hpassed.elim
  | _ => trivial

/-- **The handshake holds along a run exactly if `BYH_M` comes to the semaphore first.** -/
theorem handshake_iff (as : List Turn) :
    Trace.Along stationStep Prompt stationInit as ↔
      Trace.Along stationStep (fun _ _ t => Handshake t) stationInit as :=
  Trace.along_iff_of_step
    (fun s a t h ht => ⟨fun hg => handshake_of_inv (hs_step s a t h ht hg),
      prompt_of_handshake h ht⟩)
    hs_step hs_init as

/-- `NB_IOT` is through its loop's `rt_sem_take` before `BYH_M` comes to its own -/
def hastyRun : List Turn := [.nb, .nb, .nb, .byh ⟨0, 0, 0, 0, 0⟩]

theorem handshake_fails :
    ¬ Trace.Along stationStep (fun _ _ t => Handshake t) stationInit hastyRun := by
  intro h
  have hs := Trace.along_last (handshake_of_inv hs_init) h
    (rfl : Trace.run stationStep stationInit hastyRun = some _)
  exact hs.live [] rfl rfl ⟨rfl, rfl⟩

/-- Once `NB_IOT` waits for a mail and `BYH_M` for the start signal, no interleaving gets the
station out: only `LED` has steps. -/
theorem stuck_forever (as : List Turn) (s t : Station) (got : List Mail)
    (hs : s.byhPc = .waitOne ∧ s.nbPc = .waitMb got) (ht : Trace.run stationStep s as = some t) :
    t.byhPc = .waitOne ∧ t.nbPc = .waitMb got := by
  refine Trace.run_inv (I := fun u => u.byhPc = .waitOne ∧ u.nbPc = .waitMb got)
    (G := fun _ _ _ => True) ?_ as s t hs (Trace.along_of_forall (fun _ _ _ => trivial) s as) ht
  rintro u a v ⟨hb, hn⟩ hv -
  have hled : ledStep u = some v ∨ ledTimerStep u = some v := by
    cases a with
    | byh smp => exact absurd hv (by simp [stationStep, byhStep, hb])
    | nb => exact absurd hv (by simp [stationStep, nbStep, hn])
    | led => exact Or.inl hv
    | ledTimer => exact Or.inr hv
  have e := shake_led hled
  exact ⟨(congrArg Shake.byh e).trans hb, (congrArg Shake.nb e).trans hn⟩

end ENV
