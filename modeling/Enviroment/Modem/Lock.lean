import Enviroment.Modem.Exec

/-!
# The lock of the client and the numbers of the commands

What every step keeps, whatever the threads and the modem do.

* `ExecPc.Owns`        the places between `rt_mutex_take` and `rt_mutex_release`;
* `Locked`             the owner of `client->lock` is the thread in such a place, and it alone can
                       be suspended on `resp_notice`;
* `Numbered`           a command has a number of its own, and answers have numbers of commands;
* `mutual_exclusion`   the two threads are never in a command at the same time.
-/

namespace ENV

/-! ## the lock -/

def ExecPc.Owns : ExecPc → Prop
  | .idle | .lock | .lockWait => False
  | .locked | .wrote | .waiting | .woken | .timedOut => True

/-- the command is out, and the call has not returned -/
def ExecPc.Out : ExecPc → Prop
  | .wrote | .waiting | .woken | .timedOut => True
  | .idle | .lock | .lockWait | .locked => False

theorem ExecPc.Out.owns {p : ExecPc} (h : p.Out) : p.Owns := by
  cases p <;> trivial

/-- who is suspended on `resp_notice` -/
def At.waiters (s : At) : List Th :=
  match s.owner with
  | some t => if s.pc t = .waiting then [t] else []
  | none => []

structure Locked (s : At) : Prop where
  owner : ∀ t, (s.pc t).Owns ↔ s.owner = some t
  waiters : s.notice.suspended = s.waiters
  resp : ∀ t, s.resp = some t → (s.pc t).Out

theorem Locked.waiters_owner {s : At} (h : Locked s) {t : Th} (ht : (s.pc t).Owns) :
    s.notice.suspended = if s.pc t = .waiting then [t] else [] := by
  rw [h.waiters, At.waiters, (h.owner t).mp ht]

theorem Locked.alone {s : At} (h : Locked s) {t : Th} (ht : (s.pc t).Owns) {u : Th} (hu : u ≠ t) :
    ¬ (s.pc u).Owns := by
  intro hc
  exact hu (Option.some.inj (((h.owner u).mp hc).symm.trans ((h.owner t).mp ht)))

/-- a thread moves, does not wait, and keeps the lock if it has it -/
theorem Locked.move {s s' : At} (h : Locked s) {t : Th} {v : ExecPc}
    (hp : s'.pc = Function.update s.pc t v) (ho : s'.owner = s.owner)
    (hv : v.Owns ↔ (s.pc t).Owns) (hw : v ≠ .waiting)
    (hn : s'.notice.suspended = if s.pc t = .waiting then [] else s.notice.suspended)
    (hr : s'.resp = s.resp ∨ s'.resp = none) (hout : (s.pc t).Out → v.Out) : Locked s' := by
  have hself : s'.pc t = v := by
    rw [hp]
    exact Function.update_self _ _ _
  have hother : ∀ u, u ≠ t → s'.pc u = s.pc u := fun u hu => by
    rw [hp]
    exact Function.update_of_ne hu _ _
  refine ⟨fun u => ?_, ?_, fun u hu => ?_⟩
  · rw [ho, ← h.owner u]
    by_cases hu : u = t
    · rw [hu, hself]
      exact hv
    · rw [hother u hu]
  · rw [hn, h.waiters]
    unfold At.waiters
    rw [ho]
    cases hown : s.owner with
    | none => exact ite_self _
    | some u =>
      show (if s.pc t = .waiting then [] else if s.pc u = .waiting then [u] else []) =
        if s'.pc u = .waiting then [u] else []
      by_cases hu : u = t
      · rw [hu, hself, if_neg hw]
        split <;> rfl
      · have hno : s.pc t ≠ .waiting := by
          intro hc
          refine hu (Option.some.inj (hown.symm.trans ((h.owner t).mp ?_)))
          rw [hc]
          trivial
        rw [if_neg hno, hother u hu]
  · rcases hr with hr | hr
    · rw [hr] at hu
      have hold := h.resp u hu
      by_cases e : u = t
      · rw [e, hself]
        exact hout (e ▸ hold)
      · rw [hother u e]
        exact hold
    · rw [hr] at hu
      cases hu

theorem locked_finish {s : At} (h : Locked s) {t : Th} (ht : (s.pc t).Owns)
    (hw : s.pc t ≠ .waiting) (result : RtErr) : Locked (s.finish t result) := by
  have hs := h.waiters_owner ht
  rw [if_neg hw] at hs
  have hno := h.alone ht (other_ne t)
  have hself := finish_pc_self s t result
  have hother := finish_pc_other s t result
  have howner : (s.finish t result).owner =
    if s.pc t.other = .lockWait then some t.other else none := rfl
  by_cases hl : s.pc t.other = .lockWait
  · rw [if_pos hl] at hother howner
    refine ⟨fun u => ?_, ?_, fun u hu => by cases hu⟩
    · rw [howner]
      rcases eq_or_other t u with rfl | rfl
      · rw [hself]
        exact iff_of_false id fun hc => other_ne u (Option.some.inj hc)
      · rw [hother]
        exact iff_of_true trivial rfl
    · rw [At.waiters, howner]
      show s.notice.suspended = if (s.finish t result).pc t.other = .waiting then _ else []
      rw [hs, hother]
      rfl
  · rw [if_neg hl] at hother howner
    refine ⟨fun u => ?_, ?_, fun u hu => by cases hu⟩
    · rw [howner]
      rcases eq_or_other t u with rfl | rfl
      · rw [hself]
        exact iff_of_false id (Option.some_ne_none _).symm
      · rw [hother]
        exact iff_of_false hno (Option.some_ne_none _).symm
    · rw [At.waiters, howner]
      exact hs

theorem locked_exec {s u : At} {t : Th} (h : Locked s) (hu : execStep s t = some u) : Locked u := by
  have hself : ∀ v, Function.update s.pc t v t = v := fun v => Function.update_self _ _ _
  cases exec_cases hu with
  | take hp ho =>
    have hs := h.waiters
    rw [At.waiters, ho] at hs
    refine ⟨fun v => ?_, ?_, fun v hv => ?_⟩
    · by_cases hv : v = t
      · subst hv
        show (Function.update s.pc v .locked v).Owns ↔ _
        rw [hself]
        exact iff_of_true trivial rfl
      · show (Function.update s.pc t .locked v).Owns ↔ some t = some v
        rw [Function.update_of_ne hv, h.owner v, ho]
        exact iff_of_false (Option.some_ne_none _).symm fun hc => hv (Option.some.inj hc).symm
    · show s.notice.suspended = if Function.update s.pc t .locked t = .waiting then [t] else []
      rw [hs, hself]
      rfl
    · have hne : v ≠ t := by
        rintro rfl
        have hout := h.resp v hv
        rw [hp] at hout
        exact hout
      show (Function.update s.pc t .locked v).Out
      rw [Function.update_of_ne hne]
      exact h.resp v hv
  | suspend hp =>
    exact h.move rfl rfl (by rw [hp]; exact Iff.rfl) (by decide) (by rw [hp]; rfl) (Or.inl rfl)
      (by rw [hp]; exact id)
  | write hp =>
    have h' : Locked { s with pc := Function.update s.pc t .wrote } :=
      h.move rfl rfl (by rw [hp]; exact Iff.rfl) (by decide) (by rw [hp]; rfl) (Or.inl rfl)
        (fun _ => trivial)
    refine ⟨h'.owner, h'.waiters, fun v hv => ?_⟩
    obtain rfl : t = v := Option.some.inj hv
    show (Function.update s.pc t .wrote t).Out
    rw [hself]
    trivial
  | token hp =>
    exact h.move rfl rfl (by rw [hp]; exact Iff.rfl) (by decide) (by rw [hp]; rfl) (Or.inl rfl)
      (fun _ => trivial)
  | wait hp =>
    have ht : (s.pc t).Owns := by
      rw [hp]
      trivial
    have hs := h.waiters_owner ht
    rw [hp] at hs
    refine ⟨fun v => ?_, ?_, fun v hv => ?_⟩
    · show (Function.update s.pc t .waiting v).Owns ↔ _
      rw [← h.owner v]
      by_cases hv : v = t
      · rw [hv, hself]
        exact iff_of_true trivial ht
      · rw [Function.update_of_ne hv]
    · show s.notice.suspended ++ [t] = match s.owner with
        | some u => if Function.update s.pc t .waiting u = .waiting then [u] else []
        | none => []
      rw [(h.owner t).mp ht, hs]
      show _ = if Function.update s.pc t .waiting t = .waiting then [t] else []
      rw [hself]
      rfl
    · show (Function.update s.pc t .waiting v).Out
      by_cases e : v = t
      · rw [e, hself]
        trivial
      · rw [Function.update_of_ne e]
        exact h.resp v hv
  | done hp => exact locked_finish h (by rw [hp]; trivial) (by rw [hp]; decide) _
  | giveUp hp =>
    exact locked_finish (s := { s with status := .timeout }) ⟨h.owner, h.waiters, h.resp⟩
      (by show (s.pc t).Owns; rw [hp]; trivial) (by show s.pc t ≠ _; rw [hp]; decide) _

/-- a thread that is suspended on `resp_notice` waits in its command, alone -/
theorem Locked.suspended {s : At} (h : Locked s) {t : Th} {ts : List Th}
    (hs : s.notice.suspended = t :: ts) : s.pc t = .waiting ∧ ts = [] := by
  have hw := h.waiters
  rw [hs, At.waiters] at hw
  split at hw
  next u hu =>
    split at hw
    next hp =>
      obtain ⟨rfl, rfl⟩ := List.cons.inj hw
      exact ⟨hp, rfl⟩
    next => cases hw
  next => cases hw

theorem locked_release {s : At} (h : Locked s) : Locked s.release := by
  rcases release_cases s with ⟨hs, e⟩ | ⟨t, ts, hs, e⟩
  · rw [e]
    exact ⟨h.owner, hs.symm.trans h.waiters, h.resp⟩
  · have hw := h.suspended hs
    rw [e]
    exact h.move rfl rfl (by rw [hw.1]; exact Iff.rfl) (by decide) (by rw [if_pos hw.1]; exact hw.2)
      (Or.inl rfl) (fun _ => trivial)

theorem locked_response {s : At} (h : Locked s) (text : List Char) : Locked (s.response text) := by
  cases hr : s.resp with
  | none =>
    rw [response_none hr]
    exact h
  | some t =>
    cases hend : (respond (s.obj t) s.prog s.status text).2.2.2 with
    | true =>
      rw [response_last hr rfl hend]
      exact locked_release ⟨h.owner, h.waiters, fun u hu => by cases hu⟩
    | false =>
      rw [response_more hr rfl hend]
      exact ⟨h.owner, h.waiters, h.resp⟩

theorem locked_begin {s : At} (h : Locked s) {t : Th} (hp : s.pc t = .idle)
    (bufSize lineNum : Nat) : Locked (s.begin t bufSize lineNum) :=
  h.move rfl rfl (by rw [hp]; exact Iff.rfl) (by decide) (by rw [hp]; rfl) (Or.inl rfl)
    (by rw [hp]; exact id)

theorem locked_step (s : At) (a : Act) (t : At) (h : Locked s) (ht : atStep s a = some t) :
    Locked t := by
  cases a with
  | call bufSize lineNum =>
    obtain ⟨hp, rfl⟩ := call_cases ht
    exact locked_begin h hp _ _
  | exec th => exact locked_exec h ht
  | timer th =>
    obtain ⟨hp, rfl⟩ := timer_cases ht
    have ho : (s.pc th).Owns := by
      rw [hp]
      trivial
    have hs := h.waiters_owner ho
    rw [if_pos hp] at hs
    refine h.move rfl rfl (by rw [hp]; exact Iff.rfl) (by decide) ?_ (Or.inl rfl)
      (fun _ => trivial)
    show s.notice.suspended.erase th = _
    rw [hs, if_pos hp, List.erase_cons_head]
  | parse | recvTimeout =>
    obtain ⟨hp, line, k, -, hr⟩ := parse_cases ht
    have h' : Locked { s with uart := dropChars s.uart k } := ⟨h.owner, h.waiters, h.resp⟩
    cases hr with
    | lost | note => exact h'
    | closing => exact locked_begin h' hp _ _
    | line => exact locked_response h' _
  | modem line =>
    obtain ⟨-, rfl⟩ := modem_cases ht
    exact ⟨h.owner, h.waiters, h.resp⟩

theorem locked_init : Locked atInit :=
  ⟨fun _ => iff_of_false id (Option.some_ne_none _).symm, rfl, fun _ h => by cases h⟩

/-- **In every run at most one thread is between the two calls on the lock.** -/
theorem mutual_exclusion {as : List Act} {s : At} (h : Trace.run atStep atInit as = some s)
    {t u : Th} (ht : (s.pc t).Owns) (hu : (s.pc u).Owns) : t = u := by
  have hl : Locked s := Trace.run_inv (G := fun _ _ _ => True)
    (fun s a t hi hs _ => locked_step s a t hi hs) as atInit s locked_init
    (Trace.along_of_forall (fun _ _ _ => trivial) _ _) h
  by_contra hne
  exact hl.alone hu hne ht

/-! ## the numbers of the commands -/

structure Numbered (s : At) : Prop where
  cmd : ∀ t, s.pc t ≠ .idle → s.cmd t < s.next
  distinct : ∀ t, s.pc t ≠ .idle → s.pc t.other ≠ .idle → s.cmd t ≠ s.cmd t.other
  rets : ∀ r ∈ s.rets, r.cmd < s.next ∧ ∀ t, s.pc t ≠ .idle → r.cmd ≠ s.cmd t
  written : ∀ k ∈ s.written, k < s.next
  lines : ∀ l, l ∈ s.uart ∨ l ∈ s.emitted → ∀ k ∈ l.answers, k < s.next

theorem Numbered.move {s s' : At} (h : Numbered s) (hp : ∀ t, s'.pc t ≠ .idle → s.pc t ≠ .idle)
    (hc : s'.cmd = s.cmd) (hx : s'.next = s.next) (hr : s'.rets = s.rets)
    (hw : ∀ k ∈ s'.written, k < s.next)
    (hl : ∀ l, l ∈ s'.uart ∨ l ∈ s'.emitted → l ∈ s.uart ∨ l ∈ s.emitted) : Numbered s' := by
  refine ⟨fun t ht => ?_, fun t ht ho => ?_, fun r hm => ?_, fun k hk => ?_, fun l hm => ?_⟩
  · rw [hc, hx]
    exact h.cmd t (hp t ht)
  · rw [hc]
    exact h.distinct t (hp t ht) (hp _ ho)
  · rw [hr] at hm
    rw [hx, hc]
    exact ⟨(h.rets r hm).1, fun t ht => (h.rets r hm).2 t (hp t ht)⟩
  · rw [hx]
    exact hw k hk
  · rw [hx]
    exact h.lines l (hl l hm)

theorem update_busy {f : Th → ExecPc} {t : Th} (v : ExecPc) (h : f t ≠ .idle) (u : Th)
    (hu : Function.update f t v u ≠ .idle) : f u ≠ .idle := by
  by_cases e : u = t
  · rw [e]
    exact h
  · rw [Function.update_of_ne e] at hu
    exact hu

theorem numbered_begin {s : At} (h : Numbered s) (t : Th) (bufSize lineNum : Nat) :
    Numbered (s.begin t bufSize lineNum) := by
  obtain ⟨-, hcmd, -⟩ := begin_self s t bufSize lineNum
  have hcmd' : ∀ u, u ≠ t → (s.begin t bufSize lineNum).pc u ≠ .idle →
      (s.begin t bufSize lineNum).cmd u < s.next := fun u hu hne => by
    obtain ⟨e1, e2, -⟩ := begin_other s hu bufSize lineNum
    rw [e1] at hne
    rw [e2]
    exact h.cmd u hne
  refine ⟨fun u hne => ?_, fun u hne hne' => ?_, fun r hr => ⟨?_, fun u hne => ?_⟩,
    fun k hk => Nat.lt_succ_of_lt (h.written k hk),
    fun l hl k hk => Nat.lt_succ_of_lt (h.lines l hl k hk)⟩
  · by_cases hu : u = t
    · rw [hu, hcmd]
      exact Nat.lt_succ_self _
    · exact Nat.lt_succ_of_lt (hcmd' u hu hne)
  · -- one of the two numbers is the new one
    by_cases hu : u = t
    · rw [hu] at hne' ⊢
      rw [hcmd]
      exact (Nat.ne_of_lt (hcmd' _ (other_ne t) hne')).symm
    · have ho : u.other = t := (eq_or_other u t).resolve_left (Ne.symm hu) |>.symm
      rw [ho, hcmd]
      exact Nat.ne_of_lt (hcmd' u hu hne)
  · exact Nat.lt_succ_of_lt (h.rets r hr).1
  · by_cases hu : u = t
    · rw [hu, hcmd]
      exact Nat.ne_of_lt (h.rets r hr).1
    · obtain ⟨e1, e2, -⟩ := begin_other s hu bufSize lineNum
      rw [e1] at hne
      rw [e2]
      exact (h.rets r hr).2 u hne

theorem numbered_finish {s : At} (h : Numbered s) {t : Th} (ht : s.pc t ≠ .idle)
    (result : RtErr) : Numbered (s.finish t result) := by
  have hself := finish_pc_self s t result
  -- only the other thread may still be in a command, and it was before
  have hbusy : ∀ u, (s.finish t result).pc u ≠ .idle → u = t.other ∧ s.pc u ≠ .idle := by
    intro u hu
    rcases eq_or_other t u with rfl | rfl
    · exact absurd hself hu
    · refine ⟨rfl, fun hc => hu ?_⟩
      rw [finish_pc_other, hc]
      rfl
  refine ⟨fun u hu => h.cmd u (hbusy u hu).2, fun u hu ho => ?_, fun r hr => ?_, h.written,
    h.lines⟩
  · exact h.distinct u (hbusy u hu).2 (hbusy _ ho).2
  · rcases List.mem_append.mp hr with hr | hr
    · exact ⟨(h.rets r hr).1, fun u hu => (h.rets r hr).2 u (hbusy u hu).2⟩
    · rw [List.mem_singleton.mp hr]
      refine ⟨h.cmd t ht, fun u hu => ?_⟩
      obtain ⟨rfl, hne⟩ := hbusy u hu
      exact h.distinct t ht hne

theorem numbered_exec {s u : At} {t : Th} (h : Numbered s) (hu : execStep s t = some u) :
    Numbered u := by
  cases exec_cases hu with
  | take hp | suspend hp | token hp | wait hp =>
    exact h.move (update_busy _ (by rw [hp]; decide)) rfl rfl rfl h.written fun _ hm => hm
  | write hp =>
    have hne : s.pc t ≠ .idle := by
      rw [hp]
      decide
    refine h.move (update_busy _ hne) rfl rfl rfl (fun k hk => ?_) fun _ hm => hm
    rcases List.mem_append.mp hk with hk | hk
    · exact h.written k hk
    · rw [List.mem_singleton.mp hk]
      exact h.cmd t hne
  | done hp => exact numbered_finish h (by rw [hp]; decide) _
  | giveUp hp =>
    exact numbered_finish (s := { s with status := .timeout })
      ⟨h.cmd, h.distinct, h.rets, h.written, h.lines⟩ (by show s.pc t ≠ _; rw [hp]; decide) _

theorem numbered_response {s : At} (h : Numbered s) (hl : Locked s) (text : List Char) :
    Numbered (s.response text) := by
  cases hr : s.resp with
  | none =>
    rw [response_none hr]
    exact h
  | some t =>
    cases hend : (respond (s.obj t) s.prog s.status text).2.2.2 with
    | true =>
      rw [response_last hr rfl hend]
      rcases release_cases { s.store t (respond (s.obj t) s.prog s.status text) with resp := none }
        with ⟨-, e⟩ | ⟨u, us, hs, e⟩
      · rw [e]
        exact h.move (fun _ hne => hne) rfl rfl rfl h.written fun _ hm => hm
      · rw [e]
        refine h.move (update_busy _ ?_) rfl rfl rfl h.written fun _ hm => hm
        show s.pc u ≠ _
        rw [(hl.suspended hs).1]
        decide
    | false =>
      rw [response_more hr rfl hend]
      exact h.move (fun _ hne => hne) rfl rfl rfl h.written fun _ hm => hm

theorem numbered_drop {s : At} (h : Numbered s) (k : Nat) :
    Numbered { s with uart := dropChars s.uart k } := by
  refine ⟨h.cmd, h.distinct, h.rets, h.written, fun l hm k hk => ?_⟩
  rcases hm with hm | hm
  · rcases mem_dropChars hm with hm | hno
    · exact h.lines l (Or.inl hm) k hk
    · rw [hno] at hk
      cases hk
  · exact h.lines l (Or.inr hm) k hk

theorem numbered_step (s : At) (a : Act) (t : At) (h : Numbered s) (hl : Locked s)
    (ht : atStep s a = some t) : Numbered t := by
  cases a with
  | call bufSize lineNum =>
    obtain ⟨-, rfl⟩ := call_cases ht
    exact numbered_begin h _ _ _
  | exec th => exact numbered_exec h ht
  | timer th =>
    obtain ⟨hp, rfl⟩ := timer_cases ht
    exact h.move (update_busy _ (by rw [hp]; decide)) rfl rfl rfl h.written fun _ hm => hm
  | parse | recvTimeout =>
    obtain ⟨-, line, k, -, hr⟩ := parse_cases ht
    have h' := numbered_drop h k
    cases hr with
    | lost | note => exact h'
    | closing => exact numbered_begin h' _ _ _
    | line => exact numbered_response h' ⟨hl.owner, hl.waiters, hl.resp⟩ _
  | modem line =>
    obtain ⟨hk, rfl⟩ := modem_cases ht
    refine ⟨h.cmd, h.distinct, h.rets, h.written, fun l hm k hka => ?_⟩
    have hm' : (l ∈ s.uart ∨ l ∈ s.emitted) ∨ l = line := by
      rcases hm with hm | hm <;> rcases List.mem_append.mp hm with hm | hm
      · exact Or.inl (Or.inl hm)
      · exact Or.inr (List.mem_singleton.mp hm)
      · exact Or.inl (Or.inr hm)
      · exact Or.inr (List.mem_singleton.mp hm)
    rcases hm' with hm | rfl
    · exact h.lines l hm k hka
    · exact h.written k (hk k hka)

theorem numbered_init : Numbered atInit :=
  ⟨fun _ h => absurd rfl h, fun _ h => absurd rfl h, fun _ h => absurd h List.not_mem_nil,
    fun _ h => absurd h List.not_mem_nil,
    fun _ h => absurd h (not_or.mpr ⟨List.not_mem_nil, List.not_mem_nil⟩)⟩

end ENV
