import Enviroment.Modem.Client

/-!
# The stream of the modem, cut into lines and notifications

The notification test of `at_recv_readline` runs after every character and fires on the first
prefix that ends with the suffix; the handler of `+HTTPNMIC:` then takes three characters from the
stream, however many were announced.

* `ModemLine`, `Item`     the lines of a modem: ordinary ones, and notifications with their content;
* `parse`            what `client_parser` does with a stream;
* `expected`         what it should do with a list of items;
* `Consumed`         no `+NNMI:` line, three characters of content, room for the ordinary lines;
* `framed_iff`       the parser does the expected exactly in this case.
-/

namespace ENV

/-! ## the parser -/

/-- what becomes of a line that was read, and of the characters that a handler takes -/
inductive Event where
  | handled (u : Urc) (data content : List Char)
  | response (data : List Char)
  /-- the pending response has no room for it -/
  | refused (data : List Char)
  /-- no response is pending -/
  | dropped (data : List Char)
deriving DecidableEq

/-- `at_client_recv(tmp1, 3, 5000)` in `urc_httpContent_func`; the other handlers take nothing -/
def Urc.takes : Urc → Nat
  | .httpContent => 3
  | _ => 0

/-- an ordinary line, with the room left in the pending response, if there is one -/
def ordinary (room : Option Nat) (data : List Char) : Event :=
  match room with
  | none => .dropped data
  | some r => if data.length < r then .response data else .refused data

/-- the room in the pending response at the next line, and at the lines after it -/
abbrev Rooms := Nat → Option Nat

def Rooms.tail (rooms : Rooms) : Rooms := fun n => rooms (n + 1)

/-- `client_parser` on a stream -/
def parse (bufsz : Nat) (rooms : Rooms) (stream : List Char) : List Event :=
  match _h : readLine bufsz stream with
  | none => []
  | some (none, rest) => parse bufsz rooms rest
  | some (some data, rest) =>
    match getUrcObj data with
    | some u =>
      .handled u data (rest.take u.takes) :: parse bufsz rooms.tail (rest.drop u.takes)
    | none => ordinary (rooms 0) data :: parse bufsz rooms.tail rest
termination_by stream.length
decreasing_by
  · exact length_readLine _h
  · have := length_readLine _h
    rw [List.length_drop]
    omega
  · exact length_readLine _h

theorem parse_nil (bufsz : Nat) (rooms : Rooms) : parse bufsz rooms [] = [] := by
  rw [parse]
  rfl

theorem parse_urc {bufsz : Nat} {stream data rest : List Char} {u : Urc}
    (h : readLine bufsz stream = some (some data, rest)) (hu : getUrcObj data = some u)
    (rooms : Rooms) : parse bufsz rooms stream =
      .handled u data (rest.take u.takes) :: parse bufsz rooms.tail (rest.drop u.takes) := by
  rw [parse]
  split
  next heq => cases heq.symm.trans h
  next heq => cases heq.symm.trans h
  next heq =>
    cases heq.symm.trans h
    rw [hu]

theorem parse_ordinary {bufsz : Nat} {stream data rest : List Char}
    (h : readLine bufsz stream = some (some data, rest)) (hu : getUrcObj data = none)
    (rooms : Rooms) :
    parse bufsz rooms stream = ordinary (rooms 0) data :: parse bufsz rooms.tail rest := by
  rw [parse]
  split
  next heq => cases heq.symm.trans h
  next heq => cases heq.symm.trans h
  next heq =>
    cases heq.symm.trans h
    rw [hu]

/-! ## the lines of a modem -/

/-- a line that fits the receive buffer, without its `\r\n` -/
structure ModemLine (bufsz : Nat) where
  text : List Char
  one_end : ¬ crlf <:+: text
  fits : text.length + 2 ≤ bufsz

variable {bufsz : Nat}

/-- the line as it is sent -/
def ModemLine.full (l : ModemLine bufsz) : List Char := l.text ++ crlf

/-- an ordinary line starts with no prefix of the table; a notification does, and a `+HTTPNMIC:`
line is followed by the content that it announces -/
inductive Item (bufsz : Nat) where
  | line (l : ModemLine bufsz) (h : ∀ u ∈ urcTable, ¬ u.pre <+: l.full)
  | note (u : Urc) (l : ModemLine bufsz) (h : u.pre <+: l.text) (content : List Char)
      (hc : u ≠ .httpContent → content = [])

def Item.chars : Item bufsz → List Char
  | .line l _ => l.full
  | .note _ l _ content _ => l.full ++ content

def stream (items : List (Item bufsz)) : List Char := items.flatMap Item.chars

/-- every line goes where it belongs, whole, and every content to its handler -/
def expected (rooms : Rooms) : List (Item bufsz) → List Event
  | [] => []
  | .line l _ :: items =>
    (if rooms 0 = none then .dropped l.full else .response l.full) :: expected rooms.tail items
  | .note u l _ content _ :: items => .handled u l.full content :: expected rooms.tail items

def Framed (rooms : Rooms) (items : List (Item bufsz)) : Prop :=
  parse bufsz rooms (stream items) = expected rooms items

/-- a pending response has room for the ordinary lines, no line starts with `+NNMI:`, and the
announced contents have three characters (fewer only at the end of the stream) -/
def Consumed (rooms : Rooms) : List (Item bufsz) → Prop
  | [] => True
  | .line l _ :: items => (∀ r, rooms 0 = some r → l.full.length < r) ∧ Consumed rooms.tail items
  | .note u _ _ content _ :: items =>
    u ≠ .nnmi ∧
      (u = .httpContent → content.length = 3 ∨ (content.length < 3 ∧ items = [])) ∧
      Consumed rooms.tail items

/-! ## one line -/

theorem ModemLine.length_full (l : ModemLine bufsz) : l.full.length = l.text.length + 2 := by
  unfold ModemLine.full
  rw [List.length_append]
  rfl

theorem ModemLine.eq_of_crlf {l : ModemLine bufsz} {p q : List Char} (h : l.full = p ++ q)
    (hp : crlf <:+ p) : q = [] := by
  obtain ⟨z, rfl⟩ := hp
  have e : l.text ++ ['\r'] ++ ['\n'] = z ++ crlf ++ q := by
    rw [← h, List.append_assoc]
    rfl
  rcases List.eq_nil_or_concat q with rfl | ⟨q, c, rfl⟩
  · rfl
  · rw [List.concat_eq_append, ← List.append_assoc] at e
    obtain ⟨e1, -⟩ := List.append_inj' e rfl
    rcases List.eq_nil_or_concat q with rfl | ⟨q, d, rfl⟩
    · -- the carriage return would be the newline
      rw [List.append_nil, show crlf = ['\r'] ++ ['\n'] from rfl, ← List.append_assoc] at e1
      exact absurd (List.append_inj' e1 rfl).2 (by decide)
    · rw [List.concat_eq_append, ← List.append_assoc] at e1
      obtain ⟨e2, -⟩ := List.append_inj' e1 rfl
      exact absurd ⟨z, q, e2.symm⟩ l.one_end

theorem ModemLine.stop (l : ModemLine bufsz) : Stop l.full := Or.inl (List.suffix_append _ _)

/-- the line is read up to its first prefix that ends a line -/
theorem ModemLine.read (l : ModemLine bufsz) (rest : List Char) :
    ∃ p q, l.full = p ++ q ∧ Stop p ∧
      readLine bufsz (l.full ++ rest) = some (some p, q ++ rest) :=
  readLine_first l.stop (l.length_full ▸ l.fits) rest

theorem ModemLine.read_full {l : ModemLine bufsz} (h : ∀ p, p <+: l.full → ∀ u,
    getUrcObj p = some u → crlf <:+ p) (rest : List Char) :
    readLine bufsz (l.full ++ rest) = some (some l.full, rest) := by
  obtain ⟨p, q, e, hstop, hread⟩ := l.read rest
  have hp : crlf <:+ p := by
    rcases hstop with hp | hu
    · exact hp
    · obtain ⟨u, hu⟩ := Option.isSome_iff_exists.mp hu
      exact h p ⟨q, e.symm⟩ u hu
  have hq := ModemLine.eq_of_crlf e hp
  rw [hq, List.append_nil] at e
  rw [hread, hq, e, List.nil_append]

/-- the only entry of the table that a prefix of a notification can match -/
theorem urc_of_pre {u v : Urc} {l : ModemLine bufsz} (hu : u.pre <+: l.text) {p : List Char}
    (hp : p <+: l.full) (hv : getUrcObj p = some v) : v = u :=
  pre_inj ((getUrcObj_some hv).1.trans hp) (hu.trans (List.prefix_append _ _))

theorem getUrcObj_ordinary {l : ModemLine bufsz} (h : ∀ u ∈ urcTable, ¬ u.pre <+: l.full)
    {p : List Char} (hp : p <+: l.full) : getUrcObj p = none := by
  cases hu : getUrcObj p with
  | none => rfl
  | some u =>
    have hmem : u ∈ urcTable := List.mem_of_find?_eq_some hu
    exact absurd ((getUrcObj_some hu).1.trans hp) (h u hmem)

/-- the whole line of a notification matches its entry -/
theorem getUrcObj_full {u : Urc} {l : ModemLine bufsz} (h : u.pre <+: l.text)
    (hn : u ≠ .nnmi) : getUrcObj l.full = some u := by
  have hsuf : u.suf = crlf := by
    cases u with
    | nnmi => exact absurd rfl hn
    | _ => rfl
  have hmatch : u.pre.length + u.suf.length ≤ l.full.length ∧ u.pre <+: l.full ∧
      u.suf <:+ l.full := by
    refine ⟨?_, h.trans (List.prefix_append _ _), ?_⟩
    · have := h.length_le
      rw [l.length_full, hsuf]
      show u.pre.length + 2 ≤ _
      omega
    · rw [hsuf]
      exact List.suffix_append _ _
  cases hv : getUrcObj l.full with
  | none =>
    have hmem : u ∈ urcTable := by cases u <;> decide
    have := List.find?_eq_none.mp hv u hmem
    exact absurd (decide_eq_true hmatch) this
  | some v => rw [urc_of_pre h (List.prefix_refl _) hv]

/-! ## one item -/

theorem stream_cons (item : Item bufsz) (items : List (Item bufsz)) :
    stream (item :: items) = item.chars ++ stream items := List.flatMap_cons

theorem parse_line {l : ModemLine bufsz} (h : ∀ u ∈ urcTable, ¬ u.pre <+: l.full) (rooms : Rooms)
    (rest : List Char) :
    parse bufsz rooms (l.full ++ rest) =
      ordinary (rooms 0) l.full :: parse bufsz rooms.tail rest := by
  refine parse_ordinary (ModemLine.read_full (fun p hp u hu => ?_) rest)
    (getUrcObj_ordinary h (List.prefix_refl _)) rooms
  rw [getUrcObj_ordinary h hp] at hu
  cases hu

theorem parse_note {u : Urc} {l : ModemLine bufsz} (h : u.pre <+: l.text) (hn : u ≠ .nnmi)
    (rooms : Rooms) (rest : List Char) : parse bufsz rooms (l.full ++ rest) =
      .handled u l.full (rest.take u.takes) :: parse bufsz rooms.tail (rest.drop u.takes) := by
  refine parse_urc (ModemLine.read_full (fun p hp v hv => ?_) rest) (getUrcObj_full h hn) rooms
  have e := urc_of_pre h hp hv
  subst e
  have hs := (getUrcObj_some hv).2
  cases v with
  | nnmi => exact absurd rfl hn
  | _ => exact hs

/-- **A `+NNMI:` line never reaches its handler whole.** -/
theorem parse_nnmi {l : ModemLine bufsz} (h : Urc.nnmi.pre <+: l.text) (rooms : Rooms)
    (rest : List Char) : ∃ e es, parse bufsz rooms (l.full ++ rest) = e :: es ∧
      ∀ content, e ≠ .handled .nnmi l.full content := by
  obtain ⟨p, q, e, hstop, hread⟩ := l.read rest
  cases hu : getUrcObj p with
  | some v =>
    -- the suffix `00` has been seen, and the line ends with a newline
    refine ⟨_, _, parse_urc hread hu rooms, fun content heq => ?_⟩
    have hv := urc_of_pre h ⟨q, e.symm⟩ hu
    have hdata : p = l.full := by
      injection heq
    have hsuf := (getUrcObj_some hu).2
    rw [hv, hdata] at hsuf
    have hend : crlf <:+ l.full := List.suffix_append _ _
    have := List.suffix_of_suffix_length_le hsuf hend (by decide)
    exact absurd this (by decide)
  | none =>
    -- the line went to the response
    refine ⟨_, _, parse_ordinary hread hu rooms, fun content heq => ?_⟩
    unfold ordinary at heq
    split at heq
    · cases heq
    · split at heq <;> cases heq

/-! ## streams -/

theorem two_le_chars (item : Item bufsz) : 2 ≤ item.chars.length := by
  cases item with
  | line l h =>
    show 2 ≤ l.full.length
    rw [l.length_full]
    omega
  | note u l h content hc =>
    show 2 ≤ (l.full ++ content).length
    rw [List.length_append, l.length_full]
    omega

theorem take_content (content : List Char) (items : List (Item bufsz)) :
    (content ++ stream items).take 3 = content ↔
      content.length = 3 ∨ (content.length < 3 ∧ items = []) := by
  have hlen : (content ++ stream items).take 3 = content →
      ((content ++ stream items).take 3).length = content.length := congrArg List.length
  rw [List.length_take, List.length_append] at hlen
  constructor
  · intro h
    replace hlen := hlen h
    cases items with
    | nil =>
      simp only [and_true]
      omega
    | cons item items =>
      rw [stream_cons, List.length_append] at hlen
      have := two_le_chars item
      exact Or.inl (by omega)
  · rintro (h3 | ⟨h3, rfl⟩)
    · exact List.take_left' h3
    · show (content ++ []).take 3 = content
      rw [List.append_nil]
      exact List.take_of_length_le (by omega)

theorem drop_content {content rest : List Char} {n : Nat} (h : (content ++ rest).take n = content) :
    (content ++ rest).drop n = rest := by
  have e := List.take_append_drop n (content ++ rest)
  rw [h] at e
  exact List.append_cancel_left e

theorem ordinary_iff (room : Option Nat) (data : List Char) :
    ordinary room data = (if room = none then .dropped data else .response data) ↔
      ∀ r, room = some r → data.length < r := by
  cases room with
  | none => exact ⟨fun _ _ h => (by cases h), fun _ => rfl⟩
  | some r =>
    show (if data.length < r then Event.response data else .refused data) = .response data ↔ _
    by_cases h : data.length < r
    · rw [if_pos h]
      exact ⟨fun _ r' hr' => Option.some.inj hr' ▸ h, fun _ => rfl⟩
    · rw [if_neg h]
      exact ⟨fun hc => (by cases hc), fun hall => absurd (hall r rfl) h⟩

/-- **The parser does the expected exactly on the streams that are consumed.** -/
theorem framed_iff (rooms : Rooms) (items : List (Item bufsz)) :
    Framed rooms items ↔ Consumed rooms items := by
  unfold Framed
  induction items generalizing rooms with
  | nil => exact ⟨fun _ => trivial, fun _ => parse_nil bufsz rooms⟩
  | cons item items ih =>
    rw [stream_cons]
    cases item with
    | line l h =>
      show parse bufsz rooms (l.full ++ stream items) = _ :: expected rooms.tail items ↔ _ ∧ _
      rw [parse_line h, List.cons.injEq, ordinary_iff, ih]
    | note u l h content hc =>
      show parse bufsz rooms (l.full ++ content ++ stream items) =
        .handled u l.full content :: expected rooms.tail items ↔ u ≠ .nnmi ∧ _ ∧ _
      rw [List.append_assoc]
      by_cases hn : u = .nnmi
      · subst hn
        obtain ⟨e, es, hparse, hne⟩ := parse_nnmi h rooms (content ++ stream items)
        rw [hparse]
        exact ⟨fun heq => absurd (List.cons.inj heq).1 (hne content), fun hc => absurd rfl hc.1⟩
      · have htake : (content ++ stream items).take u.takes = content ↔
            (u = .httpContent → content.length = 3 ∨ (content.length < 3 ∧ items = [])) := by
          by_cases hu : u = .httpContent
          · subst hu
            rw [show Urc.httpContent.takes = 3 from rfl, take_content]
            exact ⟨fun h _ => h, fun h => h rfl⟩
          · have h0 : u.takes = 0 := by cases u <;> first | rfl | exact absurd rfl hu
            rw [h0, hc hu]
            exact ⟨fun _ hu' => absurd hu' hu, fun _ => rfl⟩
        rw [parse_note h hn, List.cons.injEq, Event.handled.injEq]
        constructor
        · rintro ⟨⟨-, -, ht⟩, hrest⟩
          rw [drop_content ht] at hrest
          exact ⟨hn, htake.mp ht, (ih _).mp hrest⟩
        · rintro ⟨-, ht, hrest⟩
          have ht' := htake.mpr ht
          rw [drop_content ht']
          exact ⟨⟨rfl, rfl, ht'⟩, (ih _).mpr hrest⟩

/-! ## a notification of received data -/

/-- the notification that `urc_func` compares with -/
def nnmiLine : ModemLine 512 := ⟨"+NNMI:4,AAAA0000".toList, by decide, by decide⟩

def nnmiItem : Item 512 := .note .nnmi nnmiLine (by decide) [] (fun _ => rfl)

/-- the handler gets the first 14 characters, and the other four are taken for a line -/
theorem nnmi_fragment (rooms : Rooms) : parse 512 rooms (stream [nnmiItem]) =
    [.handled .nnmi "+NNMI:4,AAAA00".toList [], ordinary (rooms 1) ['0', '0', '\r', '\n']] := by
  have hread : readLine 512 (stream [nnmiItem]) =
      some (some "+NNMI:4,AAAA00".toList, ['0', '0', '\r', '\n']) := by decide +kernel
  have hrest : readLine 512 ['0', '0', '\r', '\n'] = some (some ['0', '0', '\r', '\n'], []) := by
    decide +kernel
  rw [parse_urc hread (u := .nnmi) (by decide +kernel),
    show List.drop Urc.nnmi.takes ['0', '0', '\r', '\n'] = ['0', '0', '\r', '\n'] from rfl,
    parse_ordinary hrest (by decide +kernel), parse_nil]
  rfl

theorem framed_fails : ¬ Framed (fun _ => some 64) [nnmiItem] := by
  intro h
  unfold Framed at h
  rw [nnmi_fragment] at h
  exact absurd h (by decide +kernel)

end ENV
