import Enviroment.Lib.Trace
import Enviroment.Modem.Client
import Enviroment.Modem.Report

/-!
# The HTTP instances of the upload loop (`NB_IOT_thread_entry`)

Every iteration creates an HTTP instance at the modem, fills it and sends it, and ignores all four
results.  The id is kept in `HTTP_EXAMPLE`; only the handler of `+HTTPNMIC:` closes an instance.

* `Answer`                  what a command comes to: no memory for its response, or a result and the
                            response;
* `nbIotHttpCreate`, …      the functions of the loop: what they send, their result, their data;
* `Http`, `httpStep`        the loop, and the instances that are open at the modem;
* `Disciplined`             commands go to the open instance of their iteration, and an instance
                            whose exchange failed is closed when the next one is created;
* `Served`                  nothing fails: each `HTTPCREATE` returns a digit, each later command is
                            confirmed, and the instance stays open until the iteration is over;
* `disciplined_of_served`   then the loop is disciplined in every run;
* `opens_unbounded`         in general any number of instances is open when an iteration starts.
-/

namespace ENV

/-! ## the functions of the loop -/

/-- `at_create_resp` fails, or `at_exec_cmd` returns -/
inductive Answer where
  | noMemory
  | returned (result : RtErr) (resp : Resp)

/-- the part of `IOT_DATA_t` that the loop uses -/
structure IotData where
  httpExample : Char
  httpUrl : List Char
  httpHeader : List Char
  httpContent : List Char
  httpSendUrl : List Char

/-- `at_resp_get_line_by_kw(resp, keyword)` -/
def atRespGetLineByKw (resp : Resp) (keyword : List Char) : Option (List Char) :=
  resp.lines.find? (keyword <:+: ·)

/-- the string that `rt_sprintf` leaves in a buffer with room for it -/
def sprintf (fmt : List Char) (args : List Arg) : Option (List Char) :=
  (vformat fmt args).map cString

/-- `%c` -/
def charArg (c : Char) : Arg := .int (BitVec.ofNat 32 c.toNat)

def createFormat : List Char := "AT+HTTPCREATE=\"%s\"".toList
def headerFormat : List Char := "AT+HTTPHEADER=%c,\"%s\"".toList
def sendFormat : List Char := "AT+HTTPSEND=%c,%d,\"%s\"".toList
def closeFormat : List Char := "AT+HTTPCLOSE=%c".toList

def okLine : List Char := "OK".toList
def createLine : List Char := "+HTTPCREATE:".toList

/-- a function that sends one command: what is sent, and its result; `result` is what it starts
with -/
def httpCall (result : RtErr) (cmd : Option (List Char)) : Answer → Option (List Char) × RtErr
  | .noMemory => (none, rtError)
  | .returned i resp =>
    (cmd,
      if i ≠ rtEok then (if i = -rtEtimeout then rtEtimeout else rtError)
      else if (atRespGetLineByKw resp okLine).isSome then rtEok
      else result)

/-- `NB_IOT_HTTPHEADER(args)` -/
def nbIotHttpHeader (args : IotData) : Answer → Option (List Char) × RtErr :=
  httpCall rtEok
    (sprintf headerFormat [charArg args.httpExample, .str (some args.httpHeader)])

/-- `NB_IOT_HTTPCONTENT(args)` -/
def nbIotHttpContent (args : IotData) : Answer → Option (List Char) × RtErr :=
  httpCall rtError
    (sprintf contentFormat [charArg args.httpExample, .str (some args.httpContent)])

/-- `NB_IOT_HTTPSEND(args, mode)` -/
def nbIotHttpSend (args : IotData) (mode : BitVec 32) : Answer → Option (List Char) × RtErr :=
  httpCall rtError
    (sprintf sendFormat [charArg args.httpExample, .int mode, .str (some args.httpSendUrl)])

/-- the example number behind `+HTTPCREATE:`; `nullByte` is what a read behind a null pointer
gives -/
def exampleOf (nullByte : Char) (resp : Resp) : Char :=
  match atRespGetLineByKw resp createLine with
  | some found => (found[12]?).getD nul
  | none => nullByte

/-- `NB_IOT_HTTPCREATE(args)` -/
def nbIotHttpCreate (nullByte : Char) (args : IotData) :
    Answer → Option (List Char) × RtErr × IotData
  | .noMemory => (none, rtError, args)
  | .returned i resp =>
    (sprintf createFormat [.str (some args.httpUrl)],
      if i ≠ rtEok then (rtError, args)
      else if (atRespGetLineByKw resp okLine).isSome then
        (rtEok, { args with httpExample := exampleOf nullByte resp })
      else (rtEok, args))

/-- `urc_httpContent_func(data, size)`: the command that closes the instance -/
def urcHttpContentFunc (data : List Char) : Option (List Char) :=
  if data[12]? = some '0' then sprintf closeFormat [charArg ((data[10]?).getD nul)] else none

/-! ## the modem -/

/-- the instance that a command is for -/
def commandId (cmd : List Char) : List Char :=
  ((cmd.dropWhile (· ≠ '=')).drop 1).takeWhile (· ≠ ',')

/-- the id that a successful `HTTPCREATE` returns: what stands behind `+HTTPCREATE:`, up to the
carriage return that a line is stored with -/
def createdId : Answer → Option (List Char)
  | .noMemory => none
  | .returned i resp =>
    if i = rtEok ∧ (atRespGetLineByKw resp okLine).isSome then
      (atRespGetLineByKw resp createLine).bind fun line =>
        if createLine <+: line then some ((line.drop createLine.length).takeWhile (· ≠ '\r'))
        else none
    else none

/-- an instance that is open at the modem -/
structure Inst where
  id : List Char
  /-- the whole exchange of its iteration has succeeded -/
  done : Bool
deriving DecidableEq

/-! ## the loop -/

/-- the next command of an iteration -/
inductive Place where
  | create
  | content
  | header
  | send
deriving DecidableEq

structure Http where
  data : IotData
  place : Place
  /-- the id that the `HTTPCREATE` of this iteration returned -/
  created : Option (List Char)
  /-- no later command of this iteration has failed -/
  well : Bool
  opens : List Inst

inductive HttpAct where
  /-- a sample is formatted, and `NB_IOT_HTTPCREATE` called; the modem may open an instance -/
  | create (content : List Char) (a : Answer) (opened : Option (List Char))
  /-- the next function of the iteration -/
  | call (a : Answer)
  /-- the parser reads a `+HTTPNMIC:` line -/
  | notify (data : List Char)
  /-- the modem closes an instance by itself -/
  | drop (id : List Char)

/-- the next function: what it sends, its result, and the place behind it -/
def Http.next (s : Http) (a : Answer) : Option ((Option (List Char) × RtErr) × Place) :=
  match s.place with
  | .create => none
  | .content => some (nbIotHttpContent s.data a, .header)
  | .header => some (nbIotHttpHeader s.data a, .send)
  | .send => some (nbIotHttpSend s.data 1 a, .create)

/-- the exchange of an iteration is over -/
def markDone (created : Option (List Char)) (opens : List Inst) : List Inst :=
  opens.map fun i => if created = some i.id then { i with done := true } else i

/-- the state behind a function of the iteration -/
def Http.after (s : Http) (result : RtErr) (place : Place) : Http :=
  { s with
    place
    well := s.well && decide (result = rtEok)
    opens := if place = .create ∧ s.well ∧ result = rtEok then markDone s.created s.opens
      else s.opens }

def closeInst (id : List Char) (opens : List Inst) : List Inst := opens.filter (·.id ≠ id)

def Answer.sent : Answer → Bool
  | .noMemory => false
  | .returned _ _ => true

/-- an instance gets an id that is not in use, and the id that is returned is that of the
instance -/
def Opens (s : Http) (a : Answer) (opened : Option (List Char)) : Prop :=
  (opened.isSome → a.sent) ∧ (∀ id ∈ createdId a, opened = some id) ∧
    ∀ id ∈ opened, ∀ i ∈ s.opens, i.id ≠ id

instance (s : Http) (a : Answer) (opened : Option (List Char)) : Decidable (Opens s a opened) :=
  inferInstanceAs (Decidable (_ ∧ _))

def httpStep (nullByte : Char) (s : Http) : HttpAct → Option Http
  | .create content a opened =>
    if s.place = .create ∧ Opens s a opened then
      some
        { data := (nbIotHttpCreate nullByte { s.data with httpContent := content } a).2.2
          place := .content
          created := createdId a
          well := true
          opens := s.opens ++ opened.toList.map (⟨·, false⟩) }
    else none
  | .call a => (s.next a).map fun r => s.after r.1.2 r.2
  | .notify data =>
    match urcHttpContentFunc data with
    | some cmd => some { s with opens := closeInst (commandId cmd) s.opens }
    | none => some s
  | .drop id => some { s with opens := closeInst id s.opens }

def httpInit : Http :=
  ⟨⟨nul, "www.ycdemo.cn".toList,
      "Content-Type: application/x-www-form-urlencoded; charset=UTF-8\\r\\n".toList, [],
      "www.ycdemo.cn/api/postdata".toList⟩, .create, none, true, []⟩

/-! ## the statement -/

/-- what the loop owes in a step -/
def Disciplined (s : Http) (a : HttpAct) (_ : Http) : Prop :=
  match a with
  | .create _ _ _ => ∀ i ∈ s.opens, i.done
  | .call a => ∀ r ∈ s.next a, ∀ cmd ∈ r.1.1,
      ∃ id ∈ s.created, commandId cmd = id ∧ ∃ i ∈ s.opens, i.id = id
  | .notify _ | .drop _ => True

/-- one digit -/
def oneDigit : Option (List Char) → Bool
  | some [c] => c.isDigit
  | _ => false

/-- `RT_EOK` with a line `OK` -/
def Answer.confirms : Answer → Bool
  | .noMemory => false
  | .returned i resp => decide (i = rtEok) && (atRespGetLineByKw resp okLine).isSome

/-- the instance of the iteration that is under way -/
def Http.inUse (s : Http) (id : List Char) : Prop := s.place ≠ .create ∧ s.created = some id

instance (s : Http) (id : List Char) : Decidable (s.inUse id) :=
  inferInstanceAs (Decidable (_ ∧ _))

def Served (s : Http) (a : HttpAct) (_ : Http) : Prop :=
  match a with
  | .create _ a _ => oneDigit (createdId a)
  | .call a => a.confirms
  | .notify data => ∀ id ∈ (urcHttpContentFunc data).map commandId, ¬ s.inUse id
  | .drop id => ¬ s.inUse id

instance (s : Http) : (a : HttpAct) → (t : Http) → Decidable (Disciplined s a t)
  | .create _ _ _, _ => inferInstanceAs (Decidable (∀ i ∈ s.opens, i.done))
  | .call a, _ => inferInstanceAs (Decidable (∀ r ∈ s.next a, ∀ cmd ∈ r.1.1,
      ∃ id ∈ s.created, commandId cmd = id ∧ ∃ i ∈ s.opens, i.id = id))
  | .notify _, _ | .drop _, _ => instDecidableTrue

instance (s : Http) : (a : HttpAct) → (t : Http) → Decidable (Served s a t)
  | .create _ a _, _ => inferInstanceAs (Decidable (oneDigit (createdId a) = true))
  | .call a, _ => inferInstanceAs (Decidable (a.confirms = true))
  | .notify data, _ =>
    inferInstanceAs (Decidable (∀ id ∈ (urcHttpContentFunc data).map commandId, ¬ s.inUse id))
  | .drop id, _ => inferInstanceAs (Decidable (¬ s.inUse id))

/-! ## the commands carry the id -/

/-- the id is what stands between the `=` and the first comma -/
theorem commandId_text {name : List Char} (hname : '=' ∉ name) (hnul : nul ∉ name) {c : Char}
    (hc : c.isDigit) (z : List Char) :
    commandId (cString (name ++ '=' :: c :: ',' :: z)) = [c] := by
  have hne : ∀ d, ¬ d.isDigit → c ≠ d := by
    rintro d hd rfl
    exact hd hc
  have hpre : ∀ x ∈ name ++ ['=', c, ','], decide (x ≠ nul) = true := by
    intro x hx
    refine decide_eq_true fun e => ?_
    rw [e] at hx
    rcases List.mem_append.mp hx with hx | hx
    · exact hnul hx
    · simp only [List.mem_cons, List.not_mem_nil, or_false] at hx
      rcases hx with hx | hx | hx
      · exact absurd hx (by decide)
      · exact hne nul (by decide) hx.symm
      · exact absurd hx (by decide)
  have hstr : cString (name ++ '=' :: c :: ',' :: z) = name ++ '=' :: c :: ',' :: cString z := by
    unfold cString
    rw [show name ++ '=' :: c :: ',' :: z = (name ++ ['=', c, ',']) ++ z by simp,
      List.takeWhile_append_of_pos hpre]
    simp
  have hcomma : c ≠ ',' := hne ',' (by decide)
  have hdrop : ∀ x ∈ name, decide (x ≠ '=') = true := by
    intro x hx
    exact decide_eq_true fun e => hname (e ▸ hx)
  unfold commandId
  rw [hstr, List.dropWhile_append_of_pos hdrop, List.dropWhile_cons_of_neg (by decide),
    List.drop_succ_cons, List.drop_zero,
    List.takeWhile_cons_of_pos (p := fun x => decide (x ≠ ',')) (decide_eq_true hcomma),
    List.takeWhile_cons_of_neg (by decide)]

theorem sprintf_id (name : List Char) {post cmd : List Char} {args : List Arg} {c : Char}
    (hname : '=' ∉ name) (hnul : nul ∉ name) (hper : '%' ∉ name ++ ['=']) (hc : c.isDigit)
    (h : sprintf (name ++ ['='] ++ '%' :: 'c' :: ',' :: post) (charArg c :: args) = some cmd) :
    commandId cmd = [c] := by
  obtain ⟨text, ht, rfl⟩ := Option.map_eq_some_iff.mp h
  have hcomma : vformat (',' :: post) args = (vformat post args).map ([','] ++ ·) :=
    vformat_copy post args (show '%' ∉ [','] by decide)
  have hbyte := char_of_byte (Text.toNat_lt_of_isDigit hc)
  rw [vformat_copy _ _ hper, charArg, vformat_c, hbyte, hcomma] at ht
  obtain ⟨u, hu, rfl⟩ := Option.map_eq_some_iff.mp ht
  obtain ⟨v, hv, rfl⟩ := Option.map_eq_some_iff.mp hu
  obtain ⟨w, -, rfl⟩ := Option.map_eq_some_iff.mp hv
  have e : name ++ ['='] ++ ([c] ++ ([','] ++ w)) = name ++ '=' :: c :: ',' :: w := by simp
  rw [e]
  exact commandId_text hname hnul hc w

theorem sprintf_content (args : IotData) : ∃ cmd,
    sprintf contentFormat [charArg args.httpExample, .str (some args.httpContent)] = some cmd :=
  ⟨_, congrArg (Option.map cString) (vformat_contentFormat _ _)⟩

/-- what the next function sends is for the example number -/
theorem commandId_next {s : Http} {a : Answer} {r : (Option (List Char) × RtErr) × Place}
    (h : s.next a = some r) (hc : s.data.httpExample.isDigit) :
    ∀ cmd ∈ r.1.1, commandId cmd = [s.data.httpExample] := by
  intro cmd hcmd
  unfold Http.next at h
  cases a with
  | noMemory => split at h <;> cases h <;> cases hcmd
  | returned i resp =>
    split at h
    · cases h
    · cases h
      exact sprintf_id "AT+HTTPCONTENT".toList (by decide) (by decide) (by decide) hc hcmd
    · cases h
      exact sprintf_id "AT+HTTPHEADER".toList (by decide) (by decide) (by decide) hc hcmd
    · cases h
      exact sprintf_id "AT+HTTPSEND".toList (by decide) (by decide) (by decide) hc hcmd

/-! ## answers -/

theorem create_example {nullByte : Char} {args : IotData} {a : Answer} {c : Char}
    (h : createdId a = some [c]) : (nbIotHttpCreate nullByte args a).2.2.httpExample = c := by
  cases a with
  | noMemory => cases h
  | returned i resp =>
    simp only [createdId] at h
    split at h
    next hok =>
      obtain ⟨line, hline, hid⟩ := Option.bind_eq_some_iff.mp h
      split at hid
      next hpre =>
        obtain ⟨z, rfl⟩ := hpre
        obtain ⟨y, hz⟩ : ∃ y, z = c :: y := by
          rw [List.drop_left' rfl] at hid
          obtain ⟨y, hy⟩ := List.takeWhile_prefix (l := z) (· ≠ '\r')
          exact ⟨y, by rw [← hy, Option.some.inj hid]; rfl⟩
        simp only [nbIotHttpCreate, if_neg (not_not.mpr hok.1), if_pos hok.2]
        show exampleOf nullByte resp = c
        unfold exampleOf
        rw [hline, hz]
        rfl
      next => cases hid
    next => cases h

theorem oneDigit_iff {o : Option (List Char)} :
    oneDigit o = true ↔ ∃ c, o = some [c] ∧ c.isDigit := by
  constructor
  · intro h
    unfold oneDigit at h
    split at h
    next c => exact ⟨c, rfl, h⟩
    next => cases h
  · rintro ⟨c, rfl, hc⟩
    exact hc

theorem httpCall_confirms {result : RtErr} {cmd : Option (List Char)} {a : Answer}
    (h : a.confirms) : (httpCall result cmd a).2 = rtEok := by
  cases a with
  | noMemory => cases h
  | returned i resp =>
    obtain ⟨hi, hok⟩ := Bool.and_eq_true_iff.mp h
    unfold httpCall
    simp only
    rw [if_neg (not_not.mpr (of_decide_eq_true hi)), if_pos hok]

theorem next_confirms {s : Http} {a : Answer} {r : (Option (List Char) × RtErr) × Place}
    (h : s.next a = some r) (ha : a.confirms) : r.1.2 = rtEok := by
  unfold Http.next at h
  split at h
  · cases h
  · cases h
    exact httpCall_confirms ha
  · cases h
    exact httpCall_confirms ha
  · cases h
    exact httpCall_confirms ha

/-! ## the invariant -/

/-- all instances but that of the iteration under way are done, and its id is the example number -/
structure Kept (s : Http) : Prop where
  others : ∀ i ∈ s.opens, i.done ∨ s.inUse i.id
  current : s.place ≠ .create → ∃ c, c.isDigit ∧ s.data.httpExample = c ∧ s.created = some [c] ∧
    ⟨[c], false⟩ ∈ s.opens ∧ s.well

theorem kept_init : Kept httpInit :=
  ⟨fun _ h => absurd h List.not_mem_nil, fun h => absurd rfl h⟩

theorem done_markDone {created : Option (List Char)} {opens : List Inst}
    (h : ∀ i ∈ opens, i.done ∨ created = some i.id) : ∀ i ∈ markDone created opens, i.done := by
  intro i hi
  obtain ⟨j, hj, rfl⟩ := List.mem_map.mp hi
  split
  next => rfl
  next hne => exact (h j hj).resolve_right hne

theorem kept_close {s : Http} (h : Kept s) {id : List Char} (hid : ¬ s.inUse id) :
    Kept { s with opens := closeInst id s.opens } := by
  refine ⟨fun i hi => h.others i (List.mem_filter.mp hi).1, fun hp => ?_⟩
  obtain ⟨c, hc, hex, hcr, hi, hw⟩ := h.current hp
  refine ⟨c, hc, hex, hcr, List.mem_filter.mpr ⟨hi, decide_eq_true ?_⟩, hw⟩
  rintro rfl
  exact hid ⟨hp, hcr⟩

theorem kept_create {nullByte : Char} {s t : Http} {content : List Char} {a : Answer}
    {opened : Option (List Char)} (h : Kept s)
    (ht : httpStep nullByte s (.create content a opened) = some t)
    (hg : oneDigit (createdId a)) : (∀ i ∈ s.opens, i.done) ∧ Kept t := by
  obtain ⟨c, hid, hc⟩ := oneDigit_iff.mp hg
  unfold httpStep at ht
  simp only at ht
  split at ht
  next hen =>
    cases ht
    have hdone : ∀ i ∈ s.opens, i.done := fun i hi =>
      (h.others i hi).resolve_right fun hu => hu.1 hen.1
    have hopened : opened = some [c] := hen.2.2.1 [c] hid
    refine ⟨hdone, fun i hi => ?_, fun _ => ⟨c, hc, create_example hid, hid, ?_, rfl⟩⟩
    · rcases List.mem_append.mp hi with hi | hi
      · exact Or.inl (hdone i hi)
      · rw [hopened] at hi
        rw [List.mem_singleton.mp hi]
        exact Or.inr ⟨by show Place.content ≠ .create; decide, hid⟩
    · refine List.mem_append_right _ ?_
      rw [hopened]
      exact List.mem_singleton.mpr rfl
  next => cases ht

theorem kept_call {nullByte : Char} {s t : Http} {a : Answer} (h : Kept s)
    (ht : httpStep nullByte s (.call a) = some t) (hg : a.confirms) :
    (∀ r ∈ s.next a, ∀ cmd ∈ r.1.1,
      ∃ id ∈ s.created, commandId cmd = id ∧ ∃ i ∈ s.opens, i.id = id) ∧ Kept t := by
  obtain ⟨r, hr, rfl⟩ := Option.map_eq_some_iff.mp ht
  have hp : s.place ≠ .create := by
    intro hp
    unfold Http.next at hr
    rw [hp] at hr
    cases hr
  obtain ⟨c, hc, hex, hcr, hopen, hw⟩ := h.current hp
  have hok := next_confirms hr hg
  refine ⟨fun r' hr' cmd hcmd => ⟨[c], hcr, ?_, _, hopen, rfl⟩, ?_⟩
  · rw [commandId_next hr' (by rw [hex]; exact hc) cmd hcmd, hex]
  · have hothers : ∀ i ∈ s.opens, i.done ∨ s.created = some i.id := fun i hi =>
      (h.others i hi).imp_right And.right
    have hwell : (s.after r.1.2 r.2).well :=
      Bool.and_eq_true_iff.mpr ⟨hw, decide_eq_true hok⟩
    by_cases hlast : r.2 = .create
    · -- the iteration is over
      have hopens : (s.after r.1.2 r.2).opens = markDone s.created s.opens :=
        if_pos ⟨hlast, hw, hok⟩
      refine ⟨fun i hi => Or.inl ?_, fun hne => absurd hlast hne⟩
      rw [hopens] at hi
      exact done_markDone hothers i hi
    · have hopens : (s.after r.1.2 r.2).opens = s.opens := if_neg fun hx => hlast hx.1
      refine ⟨fun i hi => ?_, fun _ => ⟨c, hc, hex, hcr, ?_, hwell⟩⟩
      · rw [hopens] at hi
        exact (hothers i hi).imp_right fun hx => ⟨hlast, hx⟩
      · rw [hopens]
        exact hopen

theorem kept_step (nullByte : Char) (s : Http) (a : HttpAct) (t : Http) (h : Kept s)
    (ht : httpStep nullByte s a = some t) (hg : Served s a t) : Disciplined s a t ∧ Kept t := by
  cases a with
  | create content a opened => exact kept_create h ht hg
  | call a => exact kept_call h ht hg
  | notify data =>
    refine ⟨trivial, ?_⟩
    unfold httpStep at ht
    simp only at ht
    split at ht
    next cmd hcmd =>
      cases ht
      exact kept_close h (hg (commandId cmd) (by rw [hcmd]; rfl))
    next =>
      cases ht
      exact h
  | drop id =>
    cases ht
    exact ⟨trivial, kept_close h hg⟩

/-! ## what a failure leads to -/

/-- **After a `HTTPCREATE` without an id the next command that is sent is undisciplined.** -/
theorem stale_of_create {nullByte : Char} {s t : Http} {content : List Char} {a : Answer}
    {opened : Option (List Char)} (h : httpStep nullByte s (.create content a opened) = some t)
    (hid : createdId a = none) (i : RtErr) (resp : Resp) (u : Http) :
    ¬ Disciplined t (.call (.returned i resp)) u := by
  unfold httpStep at h
  simp only at h
  split at h
  next =>
    cases h
    intro hd
    obtain ⟨cmd, hcmd⟩ := sprintf_content (nbIotHttpCreate nullByte
      { s.data with httpContent := content } a).2.2
    obtain ⟨id, hc, -⟩ := hd _ rfl cmd hcmd
    cases hid.symm.trans hc
  next => cases h

/-- an instance that no function of the loop closes -/
structure Leaking (s : Http) : Prop where
  well : s.well = false
  leak : ∃ i ∈ s.opens, ¬ i.done

theorem leaking_step {nullByte : Char} {s t : Http} {a : Answer} (h : Leaking s)
    (ht : httpStep nullByte s (.call a) = some t) : Leaking t := by
  obtain ⟨r, -, rfl⟩ := Option.map_eq_some_iff.mp ht
  have hopens : (s.after r.1.2 r.2).opens = s.opens := if_neg fun hx => by
    rw [h.well] at hx
    cases hx.2.1
  refine ⟨?_, ?_⟩
  · show (s.well && _) = false
    rw [h.well]
    rfl
  · rw [hopens]
    exact h.leak

/-- **An instance whose exchange fails is open when the next one is created**, unless the modem
closes it by itself. -/
theorem leak_of_failure {nullByte : Char} {s t u : Http} {a : Answer} {as : List HttpAct}
    {r : (Option (List Char) × RtErr) × Place} (hs : Kept s) (hr : s.next a = some r)
    (hf : r.1.2 ≠ rtEok) (ht : httpStep nullByte s (.call a) = some t)
    (has : ∀ b ∈ as, ∃ a, b = .call a) (hu : Trace.run (httpStep nullByte) t as = some u)
    (content : List Char) (a' : Answer) (opened : Option (List Char)) (v : Http) :
    ¬ Disciplined u (.create content a' opened) v := by
  have hp : s.place ≠ .create := by
    intro hp
    unfold Http.next at hr
    rw [hp] at hr
    cases hr
  obtain ⟨c, -, -, -, hopen, -⟩ := hs.current hp
  have hleak : Leaking t := by
    obtain ⟨r', hr', rfl⟩ := Option.map_eq_some_iff.mp ht
    obtain rfl := Option.some.inj (hr.symm.trans hr')
    have hopens : (s.after r.1.2 r.2).opens = s.opens := if_neg fun hx => hf hx.2.2
    refine ⟨?_, ⟨[c], false⟩, ?_, Bool.false_ne_true⟩
    · show (s.well && decide (r.1.2 = rtEok)) = false
      rw [decide_eq_false hf, Bool.and_false]
    · rw [hopens]
      exact hopen
  have hend := Trace.run_inv (I := Leaking) (G := fun _ b _ => ∃ a, b = HttpAct.call a)
    (fun s b t hl hb hc => by
      obtain ⟨a, rfl⟩ := hc
      exact leaking_step hl hb) as t u hleak (Trace.along_of_mem has t) hu
  obtain ⟨i, hi, hnd⟩ := hend.leak
  exact fun hd => hnd (hd i hi)

/-- the reply to `HTTPCREATE` and all that follow are lost -/
def lateAnswer : Answer := .returned (-rtEtimeout) ⟨64, 0, [], 0⟩

def lostIteration (id : List Char) : List HttpAct :=
  [.create [] lateAnswer (some id), .call lateAnswer, .call lateAnswer, .call lateAnswer]

theorem lost_iteration (nullByte : Char) {s : Http} (hp : s.place = .create) (id : List Char)
    (hid : ∀ i ∈ s.opens, i.id ≠ id) :
    ∃ t, Trace.run (httpStep nullByte) s (lostIteration id) = some t ∧ t.place = .create ∧
      t.opens = s.opens ++ [⟨id, false⟩] := by
  have hopens : Opens s lateAnswer (some id) := by
    have hnone : createdId lateAnswer = none := by decide
    refine ⟨fun _ => rfl, fun x hx => ?_, fun x hx => ?_⟩
    · rw [hnone] at hx
      cases hx
    · cases hx
      exact hid
  have hcreate : httpStep nullByte s (.create [] lateAnswer (some id)) =
      some ⟨{ s.data with httpContent := [] }, .content, none, true,
        s.opens ++ [⟨id, false⟩]⟩ := if_pos ⟨hp, hopens⟩
  unfold lostIteration
  rw [Trace.run_cons_some hcreate]
  exact ⟨_, rfl, rfl, rfl⟩

/-- **Any number of instances can be open when an iteration starts.** -/
theorem opens_unbounded (nullByte : Char) (n : Nat) :
    ∃ as s, Trace.run (httpStep nullByte) httpInit as = some s ∧ s.place = .create ∧
      s.opens.length = n := by
  suffices h : ∃ as s, Trace.run (httpStep nullByte) httpInit as = some s ∧ s.place = .create ∧
      s.opens.length = n ∧ ∀ i ∈ s.opens, i.id.length < n by
    obtain ⟨as, s, hr, hp, hl, -⟩ := h
    exact ⟨as, s, hr, hp, hl⟩
  induction n with
  | zero => exact ⟨[], httpInit, rfl, rfl, rfl, fun _ h => absurd h List.not_mem_nil⟩
  | succ n ih =>
    obtain ⟨as, s, hr, hp, hl, hlen⟩ := ih
    obtain ⟨t, ht, hp', ho⟩ := lost_iteration nullByte hp (List.replicate n '1')
      fun i hi e => by
        have := hlen i hi
        rw [e, List.length_replicate] at this
        omega
    refine ⟨as ++ lostIteration (List.replicate n '1'), t, ?_, hp', ?_, fun i hi => ?_⟩
    · rw [Trace.run_append, hr]
      exact ht
    · rw [ho, List.length_append, hl, List.length_singleton]
    · rw [ho] at hi
      rcases List.mem_append.mp hi with hi | hi
      · exact Nat.lt_succ_of_lt (hlen i hi)
      · rw [List.mem_singleton.mp hi]
        show (List.replicate n '1').length < _
        rw [List.length_replicate]
        exact Nat.lt_succ_self n

/-! ## runs -/

/-- **A loop that is served is disciplined in every run.** -/
theorem disciplined_of_served (nullByte : Char) (as : List HttpAct)
    (h : Trace.Along (httpStep nullByte) Served httpInit as) :
    Trace.Along (httpStep nullByte) Disciplined httpInit as :=
  Trace.Along.imp_of_inv (kept_step nullByte) kept_init h

/-- a response with the given lines, each with its carriage return -/
def respOf (ls : List (List Char)) : Resp :=
  ⟨64, 0, ls.flatMap (· ++ [nul]), ls.length⟩

def okAnswer : Answer := .returned rtEok (respOf ["OK\r".toList])
def createAnswer : Answer := .returned rtEok (respOf ["+HTTPCREATE:5\r".toList, "OK\r".toList])

/-- two uploads, the second one before the first instance is closed -/
def servedRun : List HttpAct :=
  [.create "t=1".toList createAnswer (some ['5']), .call okAnswer, .call okAnswer, .call okAnswer,
    .notify "+HTTPNMIC:5,0,3,3\r\n".toList,
    .create "t=2".toList createAnswer (some ['5']), .call okAnswer, .call okAnswer, .call okAnswer]

theorem disciplined_of_served_twice :
    Trace.Along (httpStep nul) Disciplined httpInit servedRun :=
  disciplined_of_served nul servedRun (by decide +kernel)

/-- the last command of the first upload times out, and no further instance is created -/
def leakRun : List HttpAct :=
  [.create "t=1".toList createAnswer (some ['5']), .call okAnswer, .call okAnswer, .call lateAnswer,
    .create "t=2".toList lateAnswer none, .call okAnswer]

theorem disciplined_fails : ¬ Trace.Along (httpStep nul) Disciplined httpInit leakRun := by
  decide +kernel

end ENV
