import Enviroment.Modem.Exec

/-!
# The handler that waits for its own thread (`urc_httpContent_func`)

The handler of `+HTTPNMIC:` runs in the parser thread.  When the flag asks for it, it issues
`AT+HTTPCLOSE` with `at_exec_cmd`: it takes the lock of the client and waits for `resp_notice`,
which only the parser releases.

* `SelfWait`               the parser is suspended and nobody else can resume it before a timeout;
* `Ends`                   the parser alone ends the wait of `NB_IOT` with what has arrived;
* `ParserFree`             a step leaves no `SelfWait`, no notification takes the end of a wait away,
                           and no command of `NB_IOT` times out while the parser is in the handler;
* `NoClose`                the modem emits no notification that closes an instance, and its contents
                           have the length that the handler takes;
* `parserFree_of_noClose`  then the parser is free in every run;
* `handler_needs_timer`    and otherwise no run without a timeout gets it out of the handler.
-/

namespace ENV

/-- suspended on the lock or on `resp_notice` in the handler -/
def Blocked (s : At) : Prop := s.pc .parser = .lockWait ∨ s.pc .parser = .waiting

/-- a step of `NB_IOT` or of the modem, and no timeout -/
def Act.Outside : Act → Prop
  | .call _ _ | .exec .nb | .modem _ => True
  | .exec .parser | .timer _ | .parse | .recvTimeout => False

def SelfWait (s : At) : Prop :=
  Blocked s ∧ ∀ as t, (∀ a ∈ as, a.Outside) → Trace.run atStep s as = some t → Blocked t

/-- the lines that the parser reads next end the wait of `NB_IOT` -/
def Ends (s : At) : Prop :=
  ∃ n t, Trace.times (fun u => parseStep u false) n s = some t ∧ t.pc .nb = .woken

/-- without the notifications in the stream -/
def At.quiet (s : At) : At :=
  { s with uart := s.uart.filter fun r => getUrcObj r.text = none }

structure ParserFree (s : At) (a : Act) (t : At) : Prop where
  free : ¬ SelfWait t
  /-- a reply that has arrived is not lost on a notification -/
  replies : Ends t.quiet → Ends t
  timeouts : a = .timer .nb → s.pc .parser = .idle
  /-- the command of the handler can be answered -/
  answers : t.pc .parser ≠ .idle → ∃ as u, (∀ a ∈ as, ∀ th, a ≠ .timer th) ∧
    Trace.run atStep t as = some u ∧ u.pc .parser = .idle

/-- a line that the parser takes with its content, and that closes no instance -/
def Reply.Harmless (r : Reply) : Prop := r.Taken ∧ ∀ data ∈ r.line, ¬ closes data

instance (r : Reply) : Decidable r.Harmless := inferInstanceAs (Decidable (_ ∧ _))

def NoClose (_ : At) (a : Act) (_ : At) : Prop :=
  match a with
  | .modem line => line.Harmless
  | _ => True

instance (s : At) : (a : Act) → (t : At) → Decidable (NoClose s a t)
  | .modem line, _ => inferInstanceAs (Decidable line.Harmless)
  | .call _ _, _ | .exec _, _ | .timer _, _ | .parse, _ | .recvTimeout, _ => instDecidableTrue

/-! ## without a closing notification -/

/-- the parser is in no command, and no line under way gets it into one -/
structure ParserIdle (s : At) : Prop where
  pc : s.pc .parser = .idle
  waits : Th.parser ∉ s.notice.suspended
  uart : ∀ r ∈ s.uart, r.Harmless

theorem idle_release {s : At} (h : ParserIdle s) : ParserIdle s.release := by
  rcases release_cases s with ⟨-, e⟩ | ⟨t, ts, hs, e⟩
  · rw [e]
    exact ⟨h.pc, List.not_mem_nil, h.uart⟩
  · have hw := h.waits
    rw [hs] at hw
    obtain ⟨ht, hts⟩ := not_or.mp (List.mem_cons.not.mp hw)
    rw [e]
    exact ⟨(Function.update_of_ne ht _ _).trans h.pc, hts, h.uart⟩

theorem idle_response {s : At} (h : ParserIdle s) (text : List Char) :
    ParserIdle (s.response text) := by
  cases hr : s.resp with
  | none =>
    rw [response_none hr]
    exact h
  | some t =>
    cases hend : (respond (s.obj t) s.prog s.status text).2.2.2 with
    | true =>
      rw [response_last hr rfl hend]
      exact idle_release ⟨h.pc, h.waits, h.uart⟩
    | false =>
      rw [response_more hr rfl hend]
      exact ⟨h.pc, h.waits, h.uart⟩

theorem idle_finish {s : At} (h : ParserIdle s) (result : RtErr) :
    ParserIdle (s.finish .nb result) := by
  have hno : s.pc Th.nb.other ≠ .lockWait := by
    show s.pc .parser ≠ _
    rw [h.pc]
    decide
  rw [finish_free hno]
  exact ⟨(update_nb_other s.pc .idle).trans h.pc, h.waits, h.uart⟩

theorem idle_exec {s t : At} {th : Th} (h : ParserIdle s) (ht : execStep s th = some t) :
    ParserIdle t := by
  cases th with
  | parser =>
    unfold execStep at ht
    rw [h.pc] at ht
    cases ht
  | nb =>
    have hmove : ∀ v, Function.update s.pc .nb v .parser = .idle :=
      fun v => (update_nb_other _ _).trans h.pc
    cases exec_cases ht with
    | take => exact ⟨hmove .locked, h.waits, h.uart⟩
    | suspend => exact ⟨hmove .lockWait, h.waits, h.uart⟩
    | write => exact ⟨hmove .wrote, h.waits, h.uart⟩
    | token => exact ⟨hmove .woken, h.waits, h.uart⟩
    | wait =>
      refine ⟨hmove .waiting, fun hm => ?_, h.uart⟩
      rcases List.mem_append.mp hm with hm | hm
      · exact h.waits hm
      · exact absurd (List.mem_singleton.mp hm) (by decide)
    | done => exact idle_finish h _
    | giveUp => exact idle_finish (s := { s with status := .timeout }) ⟨h.pc, h.waits, h.uart⟩ _

/-- a line is read with its content, and leaves the parser idle -/
theorem idle_parsed {s : At} (h : ParserIdle s) {r : Reply} {l : List Reply} (hu : s.uart = r :: l) :
    ParserIdle (s.parsed r.line l) := by
  have hr := h.uart r (by rw [hu]; exact List.mem_cons_self)
  have h' : ParserIdle { s with uart := l } :=
    ⟨h.pc, h.waits, fun x hx => h.uart x (by rw [hu]; exact List.mem_cons_of_mem _ hx)⟩
  have hp := parsed_cases s r.line l
  generalize hline : r.line = line at hp hr ⊢
  generalize s.parsed line l = t at hp ⊢
  cases hp with
  | lost | note => exact h'
  | closing hc => exact absurd hc (hr.2 _ (by rw [hline]; rfl))
  | line => exact idle_response h' _

theorem idle_parse {s t : At} {late : Bool} (h : ParserIdle s) (ht : parseStep s late = some t) :
    ParserIdle t := by
  cases hu : s.uart with
  | nil =>
    -- nothing to read
    unfold parseStep At.reads at ht
    rw [hu, if_neg (not_not.mpr h.pc)] at ht
    cases ht
  | cons r l =>
    have hr := (h.uart r (by rw [hu]; exact List.mem_cons_self)).1
    rw [parseStep_taken h.pc hu hr] at ht
    cases late with
    | true => cases ht
    | false =>
      cases ht
      exact idle_parsed h hu

theorem idle_step (s : At) (a : Act) (t : At) (h : ParserIdle s) (ht : atStep s a = some t)
    (hg : NoClose s a t) : ParserIdle t := by
  cases a with
  | call bufSize lineNum =>
    obtain ⟨-, rfl⟩ := call_cases ht
    exact ⟨(update_nb_other s.pc .lock).trans h.pc, h.waits, h.uart⟩
  | exec th => exact idle_exec h ht
  | timer th =>
    obtain ⟨hw, rfl⟩ := timer_cases ht
    cases th with
    | parser => cases h.pc.symm.trans hw
    | nb =>
      exact ⟨(update_nb_other s.pc .timedOut).trans h.pc,
        fun hm => h.waits (List.mem_of_mem_erase hm), h.uart⟩
  | parse | recvTimeout => exact idle_parse h ht
  | modem line =>
    obtain ⟨-, rfl⟩ := modem_cases ht
    refine ⟨h.pc, h.waits, fun r hr => ?_⟩
    rcases List.mem_append.mp hr with hr | hr
    · exact h.uart r hr
    · rw [List.mem_singleton.mp hr]
      exact hg

theorem idle_init : ParserIdle atInit := ⟨rfl, List.not_mem_nil, fun _ h => absurd h List.not_mem_nil⟩

theorem Ends.cons {s t : At} (h : parseStep s false = some t) (ht : Ends t) : Ends s := by
  obtain ⟨n, u, hr, hu⟩ := ht
  exact ⟨n + 1, u, (Trace.times_succ h n).trans hr, hu⟩

/-- a notification is read and gone -/
theorem parsed_note {s : At} {r : Reply} {l : List Reply} (hr : r.Harmless)
    (hn : getUrcObj r.text ≠ none) : s.parsed r.line l = { s with uart := l } := by
  have hp := parsed_cases s r.line l
  generalize hline : r.line = line at hp ⊢
  generalize s.parsed line l = t at hp ⊢
  cases hp with
  | lost | note => rfl
  | closing hc => exact absurd hc (hr.2 _ (by rw [hline]; rfl))
  | line hu =>
    refine absurd ?_ hn
    unfold Reply.line at hline
    split at hline
    · rw [Option.some.inj hline]
      exact hu
    · cases hline

theorem quiet_parsed (s : At) (line : Option (List Char)) (l : List Reply) :
    (s.parsed line l).quiet =
      s.quiet.parsed line (l.filter fun r => getUrcObj r.text = none) := by
  have e := parsed_uart s line l (l.filter fun r => getUrcObj r.text = none)
  unfold At.quiet
  rw [uart_parsed]
  exact e

/-- **With or without the notifications, the lines that have arrived end the wait.** -/
theorem ends_of_quiet {s : At} (h : ParserIdle s) (hq : Ends s.quiet) : Ends s := by
  generalize hu : s.uart = l
  induction l generalizing s with
  | nil =>
    have e : s.quiet = s := by
      unfold At.quiet
      rw [hu]
      show { s with uart := [] } = s
      rw [← hu]
    rw [e] at hq
    exact hq
  | cons r l ih =>
    have hr := h.uart r (by rw [hu]; exact List.mem_cons_self)
    have hi := idle_parsed h hu
    have hstep := parseStep_taken h.pc hu hr.1 false
    by_cases hn : getUrcObj r.text = none
    · obtain ⟨n, t, ht, hw⟩ := hq
      have hqu : s.quiet.uart = r :: l.filter fun r => getUrcObj r.text = none := by
        show s.uart.filter _ = _
        rw [hu, List.filter_cons_of_pos (by exact decide_eq_true hn)]
      cases n with
      | zero =>
        cases ht
        exact ⟨0, s, rfl, hw⟩
      | succ n =>
        -- both read the line, and differ in what is behind it
        rw [Trace.times_succ (parseStep_taken (s := s.quiet) h.pc hqu hr.1 false)] at ht
        refine Ends.cons hstep (ih hi ⟨n, t, ?_, hw⟩ (uart_parsed s r.line l))
        rw [quiet_parsed]
        exact ht
    · rw [parsed_note hr hn] at hi hstep
      refine Ends.cons hstep (ih hi ?_ rfl)
      have e : At.quiet { s with uart := l } = s.quiet := by
        unfold At.quiet
        rw [hu, List.filter_cons_of_neg (by simpa using hn)]
      rw [e]
      exact hq

/-- the parser waits for a lock that `NB_IOT` keeps while it waits for the parser -/
theorem selfWait_of_lock {s : At} (hp : s.pc .parser = .lockWait) (hn : s.pc .nb = .waiting) :
    SelfWait s := by
  refine ⟨Or.inl hp, fun as t hout hr => Or.inl ?_⟩
  suffices h : t.pc .parser = .lockWait ∧ t.pc .nb = .waiting from h.1
  refine Trace.run_inv (I := fun u => u.pc .parser = .lockWait ∧ u.pc .nb = .waiting)
    (G := fun _ a _ => a.Outside) ?_ as s t ⟨hp, hn⟩ (Trace.along_of_mem hout s) hr
  rintro u a v ⟨hp, hn⟩ hv hout
  cases a with
  | call bufSize lineNum => cases hn.symm.trans (call_cases hv).1
  | exec th =>
    cases th with
    | nb =>
      replace hv : execStep u .nb = some v := hv
      simp only [execStep, hn, reduceCtorEq] at hv
    | parser => exact absurd hout id
  | timer th => exact absurd hout id
  | parse | recvTimeout => exact absurd hout id
  | modem line =>
    obtain ⟨-, rfl⟩ := modem_cases hv
    exact ⟨hp, hn⟩

/-- the parser is in its own command, and nobody has released `resp_notice` -/
structure Held (s : At) : Prop where
  pc : s.pc .parser = .lock ∨ s.pc .parser = .lockWait ∨ s.pc .parser = .locked ∨
    s.pc .parser = .wrote ∨ s.pc .parser = .waiting
  value : s.notice.value = 0

theorem held_finish {s : At} (h : Held s) (result : RtErr) : Held (s.finish .nb result) := by
  have hpc : (s.finish .nb result).pc .parser = _ := finish_pc_other s .nb result
  refine ⟨?_, h.value⟩
  rw [hpc]
  split
  · exact Or.inr (Or.inr (Or.inl rfl))
  · exact h.pc

theorem held_exec {s t : At} {th : Th} (h : Held s) (ht : execStep s th = some t) : Held t := by
  have hno : ¬ 0 < s.notice.value := by
    rw [h.value]
    decide
  cases th with
  | parser =>
    have hself : ∀ v, Function.update s.pc .parser v .parser = v :=
      fun v => Function.update_self _ _ _
    cases exec_cases ht with
    | take => exact ⟨Or.inr (Or.inr (Or.inl (hself .locked))), h.value⟩
    | suspend => exact ⟨Or.inr (Or.inl (hself .lockWait)), h.value⟩
    | write => exact ⟨Or.inr (Or.inr (Or.inr (Or.inl (hself .wrote)))), h.value⟩
    | token _ hv => exact absurd hv hno
    | wait => exact ⟨Or.inr (Or.inr (Or.inr (Or.inr (hself .waiting)))), h.value⟩
    | done hp | giveUp hp => rcases h.pc with e | e | e | e | e <;> cases hp.symm.trans e
  | nb =>
    have hmove : ∀ v, Function.update s.pc .nb v .parser = s.pc .parser :=
      fun v => update_nb_other s.pc v
    cases exec_cases ht with
    | take => exact ⟨(hmove .locked).symm ▸ h.pc, h.value⟩
    | suspend => exact ⟨(hmove .lockWait).symm ▸ h.pc, h.value⟩
    | write => exact ⟨(hmove .wrote).symm ▸ h.pc, h.value⟩
    | token _ hv => exact absurd hv hno
    | wait => exact ⟨(hmove .waiting).symm ▸ h.pc, h.value⟩
    | done => exact held_finish h _
    | giveUp => exact held_finish (s := { s with status := .timeout }) ⟨h.pc, h.value⟩ _

theorem held_step (s : At) (a : Act) (t : At) (h : Held s) (ht : atStep s a = some t)
    (hg : ∀ th, a ≠ .timer th) : Held t := by
  cases a with
  | call bufSize lineNum =>
    obtain ⟨-, rfl⟩ := call_cases ht
    exact ⟨h.pc, h.value⟩
  | exec th => exact held_exec h ht
  | timer th => exact absurd rfl (hg th)
  | parse | recvTimeout =>
    -- the parser is not at its line
    obtain ⟨hidle, -⟩ := parse_cases ht
    rcases h.pc with hp | hp | hp | hp | hp <;> cases hidle.symm.trans hp
  | modem line =>
    obtain ⟨-, rfl⟩ := modem_cases ht
    exact ⟨h.pc, h.value⟩

/-- **Once the handler has begun its command, no run without a timeout ends it.** -/
theorem handler_needs_timer {s t : At} {as : List Act} (hp : s.pc .parser = .lock)
    (hv : s.notice.value = 0) (hnt : ∀ a ∈ as, ∀ th, a ≠ .timer th)
    (hr : Trace.run atStep s as = some t) : t.pc .parser ≠ .idle := by
  have h := Trace.run_inv (I := Held) (G := fun _ a _ => ∀ th, a ≠ .timer th) held_step as s t
    ⟨Or.inl hp, hv⟩ (Trace.along_of_mem hnt s) hr
  intro hidle
  rcases h.pc with hp | hp | hp | hp | hp <;> cases hidle.symm.trans hp

/-! ## runs -/

def okReply (cmd : Nat) : Reply := ⟨"OK\r\n".toList, some cmd, []⟩

/-- a command that is answered in time -/
def answeredRun : List Act :=
  [.call 64 0, .exec .nb, .exec .nb, .exec .nb, .modem (okReply 0), .parse, .exec .nb]

/-- instance 5 has sent everything -/
def closeNote : Reply := ⟨"+HTTPNMIC:5,0,3,3\r\n".toList, none, "ok\n".toList⟩

/-- the reply of the command in progress is behind the notification -/
def closeRun : List Act :=
  [.call 64 0, .exec .nb, .exec .nb, .exec .nb, .modem closeNote, .modem (okReply 0), .parse,
    .exec .parser]

end ENV
