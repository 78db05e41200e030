import Enviroment.Modem.Framing
import Enviroment.Serial.Notice

/-!
# The parser on the serial line (`at_recv_readline`, `at_client_obj_recv`)

`Enviroment.Modem.Framing` cuts a whole stream into lines.  The parser gets it a character at a
time, from a device with a short buffer, in bursts that interrupt it anywhere.

* `ParserLocals`, `clientParser`   `client_parser` as a caller of `at_client_getchar`;
* `ParserLocals.rest`              what it makes of the characters that follow;
* `parse_foldl`                    one character after the other is the same as the whole stream;
* `parser_events`                  a parser that sleeps has handled all that came, as `parse` says;
* `clientRecv`, `recv_all_or_none` `at_client_obj_recv` gives all the characters, or throws away
                                   those that it took.
-/

namespace ENV

/-! ## a character at a time -/

structure ParserLocals where
  /-- `recv_buffer` up to `cur_recv_len`, `is_full` and `last_ch` of `at_recv_readline` -/
  buf : List Char
  full : Bool
  last : Char
  /-- in `at_client_obj_recv`: the notification, its line, and the content so far -/
  content : Option (Urc × List Char × List Char)
  /-- the lines that were not too long -/
  lines : Nat
  events : List Event

/-- `at_recv_readline` is called again -/
def ParserLocals.again (l : ParserLocals) (lines : Nat) (events : List Event) : ParserLocals :=
  ⟨[], false, nul, none, lines, l.events ++ events⟩

def parserStart : ParserLocals := ⟨[], false, nul, none, 0, []⟩

/-- a line that was read goes to the handler of its notification, or to the response -/
def ParserLocals.take (l : ParserLocals) (rooms : Rooms) (data : List Char) : ParserLocals :=
  match getUrcObj data with
  | some u =>
    if u.takes = 0 then l.again (l.lines + 1) [.handled u data []]
    else { l.again (l.lines + 1) [] with content := some (u, data, []) }
  | none => l.again (l.lines + 1) [ordinary (rooms l.lines) data]

/-- one character of a line -/
def ParserLocals.inLine (l : ParserLocals) (bufsz : Nat) (rooms : Rooms) (ch : Char) :
    ParserLocals :=
  let room := l.buf.length < bufsz
  let buf := if room then l.buf ++ [ch] else l.buf
  let full := if room then l.full else true
  if (ch = '\n' ∧ l.last = '\r') ∨ (getUrcObj buf).isSome then
    if full then l.again l.lines [] else l.take rooms buf
  else { l with buf := buf, full := full, last := ch }

/-- one character of the content of a notification -/
def ParserLocals.inContent (l : ParserLocals) (u : Urc) (data content : List Char) (ch : Char) :
    ParserLocals :=
  let content := content ++ [ch]
  if content.length = u.takes then l.again l.lines [.handled u data content]
  else { l with content := some (u, data, content) }

def ParserLocals.feed (bufsz : Nat) (rooms : Rooms) (l : ParserLocals) (ch : Char) :
    ParserLocals :=
  match l.content with
  | some (u, data, content) => l.inContent u data content ch
  | none => l.inLine bufsz rooms ch

/-- a content that does not come in time -/
def ParserLocals.failed (l : ParserLocals) : ParserLocals :=
  match l.content with
  | some (u, data, _) => l.again l.lines [.handled u data []]
  | none => l

/-- `client_parser`; it never returns -/
def clientParser (bufsz : Nat) (rooms : Rooms) : Caller Char ParserLocals where
  feed := ParserLocals.feed bufsz rooms
  enough _ := false
  timed l := l.content.isSome
  failed := ParserLocals.failed

/-! ## the whole stream -/

def Rooms.from (rooms : Rooms) (lines : Nat) : Rooms := fun n => rooms (lines + n)

theorem from_zero (rooms : Rooms) : rooms.from 0 = rooms := by
  funext n
  exact congrArg rooms (Nat.zero_add n)

theorem tail_from (rooms : Rooms) (lines : Nat) :
    (rooms.from lines).tail = rooms.from (lines + 1) := by
  funext n
  exact congrArg rooms (by omega)

/-- what `client_parser` does after a call of `at_recv_readline` -/
def afterLine (bufsz : Nat) (rooms : Rooms) :
    Option (Option (List Char) × List Char) → List Event
  | none => []
  | some (none, rest) => parse bufsz rooms rest
  | some (some data, rest) =>
    match getUrcObj data with
    | some u => .handled u data (rest.take u.takes) :: parse bufsz rooms.tail (rest.drop u.takes)
    | none => ordinary (rooms 0) data :: parse bufsz rooms.tail rest

theorem parse_eq (bufsz : Nat) (rooms : Rooms) (stream : List Char) :
    parse bufsz rooms stream = afterLine bufsz rooms (readLine bufsz stream) := by
  rw [parse]
  split <;> next h => rw [h]; rfl

/-- what the parser makes of the characters that follow -/
def ParserLocals.rest (bufsz : Nat) (rooms : Rooms) (l : ParserLocals) (stream : List Char) :
    List Event :=
  match l.content with
  | some (u, data, content) =>
    .handled u data (content ++ stream.take (u.takes - content.length)) ::
      parse bufsz (rooms.from l.lines) (stream.drop (u.takes - content.length))
  | none => afterLine bufsz (rooms.from l.lines) (readLoop bufsz stream l.buf l.full l.last)

/-- a content is never longer than the handler takes -/
def ParserLocals.Short (l : ParserLocals) : Prop :=
  ∀ u data content, l.content = some (u, data, content) → content.length < u.takes

theorem again_rest (bufsz : Nat) (rooms : Rooms) (l : ParserLocals) (lines : Nat)
    (events : List Event) (stream : List Char) :
    (l.again lines events).rest bufsz rooms stream = parse bufsz (rooms.from lines) stream :=
  (parse_eq bufsz (rooms.from lines) stream).symm

theorem afterLine_urc {data : List Char} {u : Urc} (hu : getUrcObj data = some u) (bufsz : Nat)
    (rooms : Rooms) (rest : List Char) : afterLine bufsz rooms (some (some data, rest)) =
      .handled u data (rest.take u.takes) :: parse bufsz rooms.tail (rest.drop u.takes) := by
  rw [afterLine, hu]

theorem afterLine_ordinary {data : List Char} (hu : getUrcObj data = none) (bufsz : Nat)
    (rooms : Rooms) (rest : List Char) : afterLine bufsz rooms (some (some data, rest)) =
      ordinary (rooms 0) data :: parse bufsz rooms.tail rest := by
  rw [afterLine, hu]

theorem take_rest (bufsz : Nat) (rooms : Rooms) (l : ParserLocals) (data stream : List Char) :
    (l.take rooms data).events ++ (l.take rooms data).rest bufsz rooms stream =
      l.events ++ afterLine bufsz (rooms.from l.lines) (some (some data, stream)) := by
  unfold ParserLocals.take
  cases hu : getUrcObj data with
  | none =>
    rw [afterLine_ordinary hu, tail_from]
    dsimp only
    rw [again_rest]
    show l.events ++ _ ++ _ = _
    rw [List.append_assoc]
    rfl
  | some u =>
    rw [afterLine_urc hu, tail_from]
    dsimp only
    split
    next h0 =>
      rw [again_rest, h0]
      show l.events ++ _ ++ _ = _
      rw [List.append_assoc]
      rfl
    next h0 =>
      show l.events ++ [] ++ _ = _
      rw [List.append_nil]
      rfl

theorem inLine_rest (bufsz : Nat) (rooms : Rooms) (l : ParserLocals) (ch : Char)
    (stream : List Char) (hc : l.content = none) :
    (l.inLine bufsz rooms ch).events ++ (l.inLine bufsz rooms ch).rest bufsz rooms stream =
      l.events ++ afterLine bufsz (rooms.from l.lines)
        (readLoop bufsz (ch :: stream) l.buf l.full l.last) := by
  rw [readLoop]
  unfold ParserLocals.inLine
  dsimp only
  generalize (if l.buf.length < bufsz then l.buf ++ [ch] else l.buf) = buf
  generalize (if l.buf.length < bufsz then l.full else true) = full
  split
  next =>
    cases full with
    | true =>
      rw [if_pos rfl, if_pos rfl, again_rest]
      show l.events ++ [] ++ _ = _
      rw [List.append_nil]
      rfl
    | false => exact take_rest bufsz rooms l buf stream
  next =>
    unfold ParserLocals.rest
    dsimp only
    rw [hc]

theorem inContent_rest (bufsz : Nat) (rooms : Rooms) (l : ParserLocals) (u : Urc)
    (data content : List Char) (ch : Char) (stream : List Char) (hlen : content.length < u.takes) :
    (l.inContent u data content ch).events ++
        (l.inContent u data content ch).rest bufsz rooms stream =
      l.events ++ .handled u data (content ++ (ch :: stream).take (u.takes - content.length)) ::
        parse bufsz (rooms.from l.lines) ((ch :: stream).drop (u.takes - content.length)) := by
  have hone : (content ++ [ch]).length = content.length + 1 := List.length_append
  have hk : u.takes - content.length = u.takes - (content.length + 1) + 1 := by omega
  rw [hk, List.take_succ_cons, List.drop_succ_cons]
  unfold ParserLocals.inContent
  dsimp only
  rw [hone]
  split
  next h =>
    rw [again_rest, h, Nat.sub_self, List.take_zero, List.drop_zero]
    show l.events ++ _ ++ _ = _
    rw [List.append_assoc]
    rfl
  next h =>
    unfold ParserLocals.rest
    dsimp only
    rw [hone, List.append_assoc]
    rfl

/-- **One more character leaves what the parser has done and will do as it was.** -/
theorem feed_rest (bufsz : Nat) (rooms : Rooms) {l : ParserLocals} (hl : l.Short) (ch : Char)
    (stream : List Char) :
    (l.feed bufsz rooms ch).events ++ (l.feed bufsz rooms ch).rest bufsz rooms stream =
      l.events ++ l.rest bufsz rooms (ch :: stream) := by
  unfold ParserLocals.feed
  cases hc : l.content with
  | none =>
    refine (inLine_rest bufsz rooms l ch stream hc).trans (congrArg (l.events ++ ·) ?_)
    unfold ParserLocals.rest
    rw [hc]
  | some p =>
    obtain ⟨u, data, content⟩ := p
    have hlen := hl u data content hc
    refine (inContent_rest bufsz rooms l u data content ch stream hlen).trans
      (congrArg (l.events ++ ·) ?_)
    unfold ParserLocals.rest
    rw [hc]

theorem short_again (l : ParserLocals) (lines : Nat) (events : List Event) :
    (l.again lines events).Short := by
  intro u data content h
  cases h

theorem short_take (l : ParserLocals) (rooms : Rooms) (data : List Char) :
    (l.take rooms data).Short := by
  unfold ParserLocals.take
  split
  next u hu =>
    split
    next => exact short_again l _ _
    next h0 =>
      rintro v data content h
      cases h
      exact Nat.pos_of_ne_zero h0
  next => exact short_again l _ _

theorem short_feed (bufsz : Nat) (rooms : Rooms) {l : ParserLocals} (hl : l.Short) (ch : Char) :
    (l.feed bufsz rooms ch).Short := by
  unfold ParserLocals.feed
  cases hc : l.content with
  | none =>
    unfold ParserLocals.inLine
    dsimp only
    generalize (if l.buf.length < bufsz then l.buf ++ [ch] else l.buf) = buf
    generalize (if l.buf.length < bufsz then l.full else true) = full
    split
    next =>
      split
      next => exact short_again l _ _
      next => exact short_take l rooms buf
    next =>
      intro u data content h
      exact hl u data content h
  | some p =>
    obtain ⟨u, data, content⟩ := p
    have hlen := hl u data content hc
    have hone : (content ++ [ch]).length = content.length + 1 := List.length_append
    unfold ParserLocals.inContent
    dsimp only
    split
    next => exact short_again l _ _
    next h =>
      rintro v data' content' e
      cases e
      omega

theorem foldl_rest (bufsz : Nat) (rooms : Rooms) (front stream : List Char) {l : ParserLocals}
    (hl : l.Short) :
    let l' := front.foldl (ParserLocals.feed bufsz rooms) l
    l'.events ++ l'.rest bufsz rooms stream = l.events ++ l.rest bufsz rooms (front ++ stream) := by
  induction front generalizing l with
  | nil => rfl
  | cons ch front ih => exact (ih (short_feed bufsz rooms hl ch)).trans (feed_rest bufsz rooms hl ch _)

/-- **One character after the other is the same as the whole stream.** -/
theorem parse_foldl (bufsz : Nat) (rooms : Rooms) (front stream : List Char) :
    let l := front.foldl (ParserLocals.feed bufsz rooms) parserStart
    parse bufsz rooms (front ++ stream) = l.events ++ l.rest bufsz rooms stream := by
  have h := foldl_rest bufsz rooms front stream (short_again parserStart 0 [])
  have e := again_rest bufsz rooms parserStart 0 [] (front ++ stream)
  rw [from_zero] at e
  exact e.symm.trans h.symm

/-! ## on the device -/

variable {n : Nat}

/-- **A parser that sleeps between two notifications has handled all the characters that came, in
whatever bursts they came, as `parse` handles their stream.** -/
theorem parser_events (bufsz : Nat) (rooms : Rooms) (fifo : RxFifo Char n) (value : BitVec 16)
    (as : List (RxAct Char)) (t : Rx Char ParserLocals n)
    (hno : RxAct.timeout ∉ as)
    (hg : Trace.Along (rxStep (clientParser bufsz rooms))
      (fun s a t => RoomFor s a t ∧ Heeded s a t)
      (rxCall (clientParser bufsz rooms) fifo value parserStart) as)
    (hr : Trace.run (rxStep (clientParser bufsz rooms))
      (rxCall (clientParser bufsz rooms) fifo value parserStart) as = some t)
    (hp : t.pc = .asleep) (hc : t.locals.content = none) :
    parse bufsz rooms t.came = t.locals.events := by
  have hserved := Trace.along_last ⟨intact_call fifo value parserStart, fun h => by cases h⟩
    ((served_iff _ fifo value parserStart as).mp hg) hr
  have hfold := locals_eq_foldl hno (rxInv_call fifo value parserStart) rfl hr
  have hnil := hserved.awake hp
  have hcame : t.got ++ [] = t.came := hnil ▸ hserved.intact
  have h := parse_foldl bufsz rooms t.got []
  rw [hcame] at h
  have e : t.got.foldl (ParserLocals.feed bufsz rooms) parserStart = t.locals := hfold.symm
  rw [e] at h
  rw [h]
  unfold ParserLocals.rest
  rw [hc]
  exact List.append_nil _

/-- the line arrives in three bursts, two of them while the parser is about to sleep -/
def okBursts : List (RxAct Char) :=
  [.isr ['O', 'K'], .thread, .thread, .thread, .thread, .isr ['\r'], .thread, .thread, .thread,
    .thread, .isr ['\n'], .thread, .thread, .thread, .thread, .thread]

theorem parser_events_ok :
    parse 512 (fun _ => some 64) ['O', 'K', '\r', '\n'] = [.response ['O', 'K', '\r', '\n']] :=
  parser_events 512 (fun _ => some 64) (RxFifo.opened nul one_lt_rbBufsz) 0 okBursts _ (by decide)
    (by decide) rfl rfl rfl

/-- a `\n` between the empty read and the reset: the parser sleeps on the end of the line -/
example : ∃ t, Trace.run (rxStep (clientParser 512 fun _ => none))
    (rxCall (clientParser 512 fun _ => none) (RxFifo.opened nul one_lt_rbBufsz) 0 parserStart)
    [.isr ['O', 'K', '\r'], .thread, .thread, .thread, .thread, .isr ['\n'], .thread, .thread] =
      some t ∧ t.pc = .asleep ∧ t.fifo.contents = ['\n'] :=
  ⟨_, rfl, rfl, by decide⟩

/-! ## characters for a handler -/

/-- the locals of `at_client_obj_recv(client, buf, size, timeout)`, and its result -/
structure RecvLocals where
  buf : List Char
  ret : Option Nat

/-- `read_idx` has reached `size` -/
def recvReturn (size : Nat) (buf : List Char) : RecvLocals :=
  ⟨buf, if buf.length < size then none else some buf.length⟩

def clientRecv (size : Nat) : Caller Char RecvLocals where
  feed l ch := recvReturn size (l.buf ++ [ch])
  enough l := l.ret.isSome
  timed _ := true
  failed l := ⟨l.buf, some 0⟩

/-- what `at_client_obj_recv` has done: it waits, it has the next `size` characters, or it gave up
after some of them -/
def RecvLocals.Fair (size : Nat) (l : RecvLocals) (pc : RxPc) : Prop :=
  (l.ret = none ∧ l.buf.length < size ∧ pc ≠ .back) ∨
    (l.ret = some size ∧ l.buf.length = size ∧ pc = .back) ∨
      (l.ret = some 0 ∧ l.buf.length < size ∧ pc = .back)

theorem recvReturn_fair {size : Nat} {buf : List Char} (h : buf.length ≤ size) :
    (recvReturn size buf).Fair size ((clientRecv size).next (recvReturn size buf)) := by
  unfold recvReturn
  split
  next hlt => exact Or.inl ⟨rfl, hlt, RxPc.noConfusion⟩
  next hge =>
    have e : buf.length = size := by omega
    exact Or.inr (Or.inl ⟨congrArg some e, e, rfl⟩)

theorem RecvLocals.Fair.waiting {size : Nat} {l : RecvLocals} {pc pc' : RxPc} (h : l.Fair size pc)
    (hp : pc ≠ .back) (hp' : pc' ≠ .back) : l.Fair size pc' ∧ l.buf.length < size := by
  rcases h with ⟨hret, hlen, -⟩ | ⟨-, -, e⟩ | ⟨-, -, e⟩
  · exact ⟨Or.inl ⟨hret, hlen, hp'⟩, hlen⟩
  · exact absurd e hp
  · exact absurd e hp

structure RecvInv (size : Nat) (s : Rx Char RecvLocals n) : Prop where
  rx : RxInv s
  intact : s.uart.Intact
  fair : s.locals.Fair size s.pc
  got : s.got = s.locals.buf

theorem recv_step {size : Nat} {s t : Rx Char RecvLocals n} {a : RxAct Char} (hs : RxInv s)
    (hf : s.locals.Fair size s.pc) (hg : s.got = s.locals.buf)
    (h : rxStep (clientRecv size) s a = some t) :
    t.locals.Fair size t.pc ∧ t.got = t.locals.buf := by
  cases a with
  | isr chs =>
    obtain ⟨-, -, hgot, hloc, -, hpc⟩ := rx_isr hs h
    rw [hgot, hloc]
    refine ⟨?_, hg⟩
    rcases hpc with ⟨-, hp, -⟩ | ⟨-, hp, hp', -⟩ | ⟨-, -, hp, -⟩
    · rw [hp]
      exact hf
    · exact (hf.waiting (hp ▸ RxPc.noConfusion) (hp' ▸ RxPc.noConfusion)).1
    · rw [hp]
      exact hf
  | thread =>
    rcases rx_thread h with ⟨hp, -, rfl⟩ | ⟨hp, ch, -, hgot, -, hloc, -, hpt⟩ | ⟨hp, rfl⟩ |
      ⟨hp, -, rfl⟩ | ⟨hp, -, rfl⟩
    · exact ⟨(hf.waiting (hp ▸ RxPc.noConfusion) RxPc.noConfusion).1, hg⟩
    · have hlt := (@RecvLocals.Fair.waiting _ _ _ .read hf (hp ▸ RxPc.noConfusion) RxPc.noConfusion).2
      have hlen : (s.locals.buf ++ [ch]).length ≤ size := by
        rw [List.length_append, List.length_singleton]
        omega
      rw [hpt, hloc, hgot, hg]
      exact ⟨recvReturn_fair hlen, rfl⟩
    · exact ⟨(hf.waiting (hp ▸ RxPc.noConfusion) RxPc.noConfusion).1, hg⟩
    · exact ⟨(hf.waiting (hp ▸ RxPc.noConfusion) RxPc.noConfusion).1, hg⟩
    · exact ⟨(hf.waiting (hp ▸ RxPc.noConfusion) RxPc.noConfusion).1, hg⟩
  | timeout =>
    obtain ⟨hp, rfl⟩ := rx_timeout h
    have hlt := (@RecvLocals.Fair.waiting _ _ _ .read hf (hp ▸ RxPc.noConfusion) RxPc.noConfusion).2
    exact ⟨Or.inr (Or.inr ⟨rfl, hlt, rfl⟩), hg⟩

theorem recvInv_step {size : Nat} {s t : Rx Char RecvLocals n} {a : RxAct Char}
    (hs : RecvInv size s) (h : rxStep (clientRecv size) s a = some t) (hroom : RoomFor s a t) :
    RecvInv size t := by
  obtain ⟨hf, hg⟩ := recv_step hs.rx hs.fair hs.got h
  exact ⟨rxInv_step hs.rx h, rx_intact hs.rx hs.intact h hroom, hf, hg⟩

theorem foldl_clientRecv (size : Nat) (got buf : List Char) :
    got.foldl (clientRecv size).feed (recvReturn size buf) = recvReturn size (buf ++ got) := by
  induction got generalizing buf with
  | nil => rw [List.append_nil]; rfl
  | cons ch got ih =>
    rw [List.foldl_cons, List.append_cons]
    exact ih (buf ++ [ch])

/-- **`at_client_obj_recv` returns with the next `size` characters of the device; or its time is
over, and the characters that it took are in no line any more.** -/
theorem recv_all_or_none (size : Nat) (fifo : RxFifo Char n) (value : BitVec 16)
    (as : List (RxAct Char)) (t : Rx Char RecvLocals n)
    (hroom : Trace.Along (rxStep (clientRecv size)) RoomFor
      (rxCall (clientRecv size) fifo value (recvReturn size [])) as)
    (hr : Trace.run (rxStep (clientRecv size))
      (rxCall (clientRecv size) fifo value (recvReturn size [])) as = some t)
    (hp : t.pc = .back) :
    (t.locals.ret = some size ∧ t.locals.buf = t.came.take size ∧
        t.fifo.contents = t.came.drop size) ∨
      (RxAct.timeout ∈ as ∧ t.locals.ret = some 0 ∧ t.locals.buf.length < size ∧
        t.locals.buf ++ t.fifo.contents = t.came) := by
  have hstart := rxInv_call (c := clientRecv size) fifo value (recvReturn size [])
  have hinv := Trace.run_inv (fun _ _ _ hs h hg => recvInv_step hs h hg) as _ t
    ⟨hstart, intact_call fifo value _, recvReturn_fair (Nat.zero_le size), rfl⟩ hroom hr
  obtain ⟨-, hi, hf, hg⟩ := hinv
  have hcame : t.locals.buf ++ t.fifo.contents = t.came := hg ▸ hi
  rcases hf with ⟨-, -, hne⟩ | ⟨hret, hlen, -⟩ | ⟨hret, hlen, -⟩
  · exact absurd hp hne
  · refine Or.inl ⟨hret, ?_, ?_⟩
    · rw [← hcame, ← hlen, List.take_left]
    · rw [← hcame, ← hlen, List.drop_left]
  · refine Or.inr ⟨?_, hret, hlen, hcame⟩
    by_contra hno
    -- without a time-out the function does not give up
    have h : t.locals = recvReturn size t.got :=
      (locals_eq_foldl hno hstart rfl hr).trans (foldl_clientRecv size t.got [])
    have hb : t.locals.buf = t.got := congrArg RecvLocals.buf h
    rw [h] at hret
    unfold recvReturn at hret
    rw [if_pos (hb ▸ hlen)] at hret
    cases hret

/-- the handler of `+HTTPNMIC:` waits for three characters and gets two in time -/
def slowContent : List (RxAct Char) :=
  [.isr ['1', '2'], .thread, .thread, .thread, .thread, .thread, .timeout, .isr ['3']]

theorem recv_gave_up : ∃ t, Trace.run (rxStep (clientRecv 3))
    (rxCall (clientRecv 3) (RxFifo.opened nul one_lt_rbBufsz) 0 (recvReturn 3 [])) slowContent =
      some t ∧ ['1', '2'] ++ t.fifo.contents = t.came := by
  refine ⟨_, rfl, ?_⟩
  have h := recv_all_or_none 3 (RxFifo.opened nul one_lt_rbBufsz) 0 slowContent _ (by decide) rfl rfl
  rcases h with ⟨hret, -⟩ | ⟨-, -, -, hcame⟩
  · cases hret
  · exact hcame

end ENV
