import Enviroment.Modem.Http

/-!
# The commands in their buffers (`NB_IOT.c`)

Each function prints its arguments into a local array, or copies them, and hands the array to
`at_exec_cmd`, where it is the FORMAT of `at_vprintfln`, whose own buffer has `AT_CMD_MAX_LEN`
characters.

* `plainText`             `vsnprintf` of a format without arguments;
* `atVprintfln`           what is written to the modem;
* `httpCreateCall`, …     the functions with their arrays;
* `connectLoop`           the loop that copies the address in `NB_IOT_Connect`;
* `Intended`              a call refuses, or the command is written as it is intended;
* `intended_iff`          for which arguments it is.
-/

namespace ENV

/-! ## the AT layer -/

/-- `vsnprintf` without arguments: an ordinary character is copied, and `%%` is a percent sign;
`none` is any other conversion, which lacks its argument -/
def plainText : List Char → Option (List Char)
  | [] => some []
  | '%' :: '%' :: fmt => (plainText fmt).map ('%' :: ·)
  | c :: fmt => if c = '%' then none else (plainText fmt).map (c :: ·)

/-- `at_vprintfln(device, format)`: what is written to the device; `none` also if more is written
than `send_buf` holds -/
def atVprintfln (format : List Char) : Option (List Char) :=
  (plainText format).bind fun text =>
    if text.length ≤ atCmdMaxLen then some ((store atCmdMaxLen text).take text.length ++ crlf)
    else none

/-- what the modem receives -/
inductive Wire where
  | silent
  | bytes (sent : List Char)
  /-- a conversion without its argument, or characters from behind an array -/
  | wild

def Wire.ofFormat (format : List Char) : Wire := (atVprintfln format).elim .wild .bytes

/-! ## calls -/

/-- an array of `n` characters in memory; the address behind it is one, too -/
structure LocalArray (n : Nat) where
  addr : BitVec 32
  behind : addr.toNat + n < 2 ^ 32

/-- what a call meets: no memory for its response, an error of `at_exec_cmd` before it prints the
command, or an answer -/
inductive Fate where
  | noMemory
  | refused (err : RtErr) (h : err ≠ rtEok) (resp : Resp)
  | printed (result : RtErr) (resp : Resp)

def Fate.answer : Fate → Answer
  | .noMemory => .noMemory
  | .refused err _ resp => .returned err resp
  | .printed result resp => .returned result resp

/-- what is written when `format` is handed to `at_exec_cmd` -/
def Fate.wire (format : List Char) : Fate → Wire
  | .printed _ _ => Wire.ofFormat format
  | .noMemory | .refused _ _ _ => .silent

/-- what is written when an array is handed to `at_exec_cmd`: without a NUL it is read to beyond its
end -/
def Fate.wireOf (cmd : List Char) (fate : Fate) : Wire :=
  if nul ∈ cmd then fate.wire (cString cmd)
  else
    match fate with
    | .printed _ _ => .wild
    | .noMemory | .refused _ _ _ => .silent

/-- what a call does: the characters that it stores from its array on, what the modem receives, and
the result -/
structure Call where
  buf : List Char
  wire : Wire
  result : RtErr

/-- `rt_sprintf(tmp, fmt, ...)` and `at_exec_cmd(resp, tmp)` -/
def execTmp {n : Nat} (tmp : LocalArray n) (fmt : List Char) (args : List Arg) (result : RtErr)
    (fate : Fate) : Option Call :=
  match fate with
  | .noMemory => some ⟨[], .silent, result⟩
  | .refused _ _ _ | .printed _ _ =>
    (rtSprintf tmp.addr fmt args).map fun buf => ⟨buf, fate.wire (cString buf), result⟩

/-! ## the functions -/

/-- `NB_IOT_HTTPCREATE(args)`; its result does not depend on what it stores -/
def httpCreateCall (tmp : LocalArray 50) (args : IotData) (fate : Fate) : Option Call :=
  execTmp tmp createFormat [.str (some args.httpUrl)] (nbIotHttpCreate nul args fate.answer).2.1
    fate

/-- `NB_IOT_HTTPHEADER(args)` -/
def httpHeaderCall (tmp : LocalArray atCmdMaxLen) (args : IotData) (fate : Fate) : Option Call :=
  execTmp tmp headerFormat [charArg args.httpExample, .str (some args.httpHeader)]
    (nbIotHttpHeader args fate.answer).2 fate

/-- `NB_IOT_HTTPCONTENT(args)` -/
def httpContentCall (tmp : LocalArray atCmdMaxLen) (args : IotData) (fate : Fate) : Option Call :=
  execTmp tmp contentFormat [charArg args.httpExample, .str (some args.httpContent)]
    (nbIotHttpContent args fate.answer).2 fate

/-- `NB_IOT_HTTPSEND(args, mode)` -/
def httpSendCall (tmp : LocalArray atCmdMaxLen) (args : IotData) (mode : BitVec 32) (fate : Fate) :
    Option Call :=
  execTmp tmp sendFormat [charArg args.httpExample, .int mode, .str (some args.httpSendUrl)]
    (nbIotHttpSend args mode fate.answer).2 fate

/-- the result of `NB_IOT_HTTPCLOSE`, which has no timeout of its own -/
def httpCloseResult : Answer → RtErr
  | .noMemory => rtError
  | .returned i resp =>
    if i ≠ rtEok then rtError
    else if (atRespGetLineByKw resp okLine).isSome then rtEok
    else rtError

/-- `NB_IOT_HTTPCLOSE(args)` -/
def httpCloseCall (tmp : LocalArray 30) (args : IotData) (fate : Fate) : Option Call :=
  execTmp tmp closeFormat [charArg args.httpExample] (httpCloseResult fate.answer) fate

/-- `char cmd[25]={"AT+NCDP="}` -/
def ncdp : List Char := "AT+NCDP=".toList ++ List.replicate 17 nul

/-- the loop of `NB_IOT_Connect` over the address, from the index `i` on -/
def connectLoop : Nat → List Char → List Char → List Char
  | i, [], cmd => if i < 25 then cmd.set i nul else cmd
  | i, c :: ip, cmd => if i < 25 then connectLoop (i + 1) ip (cmd.set i c) else cmd

def errorLine : List Char := "ERROR".toList

def connectResult : Answer → RtErr
  | .noMemory => rtError
  | .returned i resp =>
    if i ≠ rtEok then rtError
    else if (atRespGetLineByKw resp okLine).isSome then rtEok
    else if (atRespGetLineByKw resp errorLine).isSome then rtError
    else rtEok

/-- `NB_IOT_Connect(IP)` -/
def connectCall (ip : List Char) (fate : Fate) : Call :=
  let cmd := connectLoop 8 ip ncdp
  ⟨cmd, fate.wireOf cmd, connectResult fate.answer⟩

/-! ## the statement -/

/-- data whose strings and whose character are those of C -/
structure HttpArgs extends IotData where
  example_byte : httpExample.toNat < 256
  example_ne : httpExample ≠ nul
  url_str : nul ∉ httpUrl
  header_str : nul ∉ httpHeader
  content_str : nul ∉ httpContent
  send_str : nul ∉ httpSendUrl

inductive Request where
  | create
  | header
  | content
  | send (mode : BitVec 32)
  | close
  | connect (ip : List Char) (h : nul ∉ ip)

/-- the size of the array of the function -/
def Request.size : Request → Nat
  | .create => 50
  | .header | .content | .send _ => atCmdMaxLen
  | .close => 30
  | .connect _ _ => 25

def Request.call (args : HttpArgs) : (r : Request) → LocalArray r.size → Fate → Option Call
  | .create, tmp, fate => httpCreateCall tmp args.toIotData fate
  | .header, tmp, fate => httpHeaderCall tmp args.toIotData fate
  | .content, tmp, fate => httpContentCall tmp args.toIotData fate
  | .send mode, tmp, fate => httpSendCall tmp args.toIotData mode fate
  | .close, tmp, fate => httpCloseCall tmp args.toIotData fate
  | .connect ip _, _, fate => some (connectCall ip fate)

/-- the command that is intended -/
def Request.text (args : HttpArgs) : Request → List Char
  | .create => "AT+HTTPCREATE=\"".toList ++ args.httpUrl ++ ['"']
  | .header => "AT+HTTPHEADER=".toList ++ [args.httpExample] ++ [',', '"'] ++ args.httpHeader ++
      ['"']
  | .content => contentText args.httpExample args.httpContent
  | .send mode => "AT+HTTPSEND=".toList ++ [args.httpExample] ++ [','] ++ Text.decimal mode.toInt ++
      [',', '"'] ++ args.httpSendUrl ++ ['"']
  | .close => "AT+HTTPCLOSE=".toList ++ [args.httpExample]
  | .connect ip _ => "AT+NCDP=".toList ++ ip

/-- the call refuses and sends nothing, or it stays in its array, ends the text there, and the modem
receives the command -/
def Intended (n : Nat) (text : List Char) (c : Call) : Prop :=
  (c.result ≠ rtEok ∧ c.wire = .silent) ∨
    (c.buf.length ≤ n ∧ nul ∈ c.buf ∧ c.wire = .bytes (text ++ crlf))

def Fate.Silent : Fate → Prop
  | .noMemory | .refused _ _ _ => True
  | .printed _ _ => False

/-- the arguments are short, and without a percent sign -/
def Request.Fits (args : HttpArgs) : Request → Prop
  | .create => args.httpUrl.length ≤ 33 ∧ '%' ∉ args.httpUrl
  | .header => args.httpHeader.length ≤ 109 ∧ args.httpExample ≠ '%' ∧ '%' ∉ args.httpHeader
  | .content => args.httpContent.length ≤ 108 ∧ args.httpExample ≠ '%' ∧ '%' ∉ args.httpContent
  | .send mode => args.httpSendUrl.length + (Text.decimal mode.toInt).length ≤ 110 ∧
      args.httpExample ≠ '%' ∧ '%' ∉ args.httpSendUrl
  | .close => args.httpExample ≠ '%'
  | .connect ip _ => ip.length ≤ 16 ∧ '%' ∉ ip

/-! ## `vsnprintf` without arguments -/

theorem plainText_of_not_mem {fmt : List Char} (h : '%' ∉ fmt) : plainText fmt = some fmt := by
  induction fmt with
  | nil => rfl
  | cons c fmt ih =>
    obtain ⟨hc, hf⟩ := not_or.mp (List.mem_cons.not.mp h)
    have hc' : c ≠ '%' := fun e => hc e.symm
    rw [plainText, if_neg hc', ih hf]
    · rfl
    · rintro fmt rfl
      exact absurd rfl hc

theorem length_plainText {fmt text : List Char} (h : plainText fmt = some text) :
    text.length ≤ fmt.length ∧ ('%' ∈ fmt → text.length < fmt.length) := by
  fun_induction plainText fmt generalizing text with
  | case1 =>
    cases h
    exact ⟨Nat.le_refl _, fun hm => absurd hm List.not_mem_nil⟩
  | case2 fmt ih =>
    obtain ⟨rest, hr, rfl⟩ := Option.map_eq_some_iff.mp h
    have hle := (ih hr).1
    simp only [List.length_cons]
    omega
  | case3 => cases h
  | case4 c fmt _ hc ih =>
    obtain ⟨rest, hr, rfl⟩ := Option.map_eq_some_iff.mp h
    obtain ⟨hle, hlt⟩ := ih hr
    simp only [List.length_cons]
    refine ⟨Nat.succ_le_succ hle, fun hm => Nat.succ_lt_succ (hlt ?_)⟩
    rcases List.mem_cons.mp hm with e | hm
    · exact absurd e.symm hc
    · exact hm

/-! ## what is written -/

theorem atVprintfln_of_not_mem {format : List Char} (hp : '%' ∉ format)
    (hl : format.length < atCmdMaxLen) : atVprintfln format = some (format ++ crlf) := by
  unfold atVprintfln
  rw [plainText_of_not_mem hp, Option.bind_some, if_pos (Nat.le_of_lt hl), store_room hl,
    List.take_left' rfl]

theorem length_store_take (text : List Char) (h : text.length ≤ atCmdMaxLen) :
    ((store atCmdMaxLen text).take text.length).length = text.length := by
  unfold store
  rw [if_neg (by decide)]
  split
  next hlt =>
    rw [List.take_left' rfl]
  next hge =>
    rw [List.length_take, List.length_append, List.length_take, List.length_singleton]
    unfold atCmdMaxLen at *
    omega

/-- what is written is at most as long as the format; a text of its length, without a NUL, is the
format, and there is no percent sign in it -/
theorem atVprintfln_some {format text : List Char} (h : atVprintfln format = some (text ++ crlf))
    (hnul : nul ∉ text) :
    text.length ≤ format.length ∧
      (text.length = format.length → '%' ∉ format ∧ format.length < atCmdMaxLen) := by
  obtain ⟨t, ht, h⟩ := Option.bind_eq_some_iff.mp h
  split at h
  next hle =>
    have hw : (store atCmdMaxLen t).take t.length = text :=
      List.append_cancel_right (Option.some.inj h)
    have hlen : text.length = t.length := by
      rw [← hw, length_store_take t hle]
    obtain ⟨hshort, hpercent⟩ := length_plainText ht
    refine ⟨hlen ▸ hshort, fun heq => ⟨fun hm => ?_, ?_⟩⟩
    · have hlt := hpercent hm
      omega
    · -- a text of 128 characters loses its last one to the NUL
      by_contra hge
      have hfull : t.length = atCmdMaxLen := by omega
      apply hnul
      rw [← hw, hfull]
      unfold store
      rw [if_neg (by decide), if_neg (by omega), List.take_of_length_le]
      · exact List.mem_append_right _ List.mem_cons_self
      · rw [List.length_append, List.length_take, List.length_singleton]
        unfold atCmdMaxLen at *
        omega
  next => cases h

/-! ## printed commands -/

theorem store_intended_iff {n cap : Nat} {text : List Char} (hn : 0 < n) (hcap : n ≤ cap)
    (hnul : nul ∉ text) :
    ((store cap text).length ≤ n ∧ nul ∈ store cap text ∧
        atVprintfln (cString (store cap text)) = some (text ++ crlf)) ↔
      text.length < n ∧ text.length < atCmdMaxLen ∧ '%' ∉ text := by
  constructor
  · rintro ⟨hlen, -, hw⟩
    by_cases hroom : text.length < cap
    · rw [store_room hroom, List.length_append, List.length_singleton] at hlen
      rw [store_room hroom, cString_store hnul] at hw
      obtain ⟨hp, hl⟩ := (atVprintfln_some hw hnul).2 rfl
      exact ⟨hlen, hl, hp⟩
    · -- a text that is cut cannot be written whole
      have hstore : store cap text = text.take (cap - 1) ++ [nul] := by
        unfold store
        rw [if_neg (by omega), if_neg hroom]
      have hnul' : nul ∉ text.take (cap - 1) := fun hm => hnul (List.mem_of_mem_take hm)
      rw [hstore, cString_store hnul'] at hw
      have hle := (atVprintfln_some hw hnul).1
      rw [List.length_take] at hle
      omega
  · rintro ⟨h1, h2, h3⟩
    rw [store_room (by omega), cString_store hnul]
    refine ⟨?_, List.mem_append_right _ List.mem_cons_self, atVprintfln_of_not_mem h3 h2⟩
    rw [List.length_append, List.length_singleton]
    exact h1

theorem ofFormat_eq_bytes {format sent : List Char} :
    Wire.ofFormat format = .bytes sent ↔ atVprintfln format = some sent := by
  unfold Wire.ofFormat
  cases atVprintfln format with
  | none => exact ⟨fun h => (nomatch h), fun h => (nomatch h)⟩
  | some b =>
    constructor
    · intro h
      exact congrArg some (Wire.bytes.inj h)
    · intro h
      exact congrArg Wire.bytes (Option.some.inj h)

theorem ofFormat_ne_silent (format : List Char) : Wire.ofFormat format ≠ .silent := by
  unfold Wire.ofFormat
  cases atVprintfln format with
  | none => exact fun h => (nomatch h)
  | some b => exact fun h => (nomatch h)

theorem execTmp_intended {n : Nat} (tmp : LocalArray n) (hn : 0 < n) {fmt text : List Char}
    {args : List Arg} (ht : vformat fmt args = some text) (hnul : nul ∉ text) {result : RtErr}
    {fate : Fate} (hres : fate.Silent → result ≠ rtEok) :
    (∃ c, execTmp tmp fmt args result fate = some c ∧ Intended n text c) ↔
      fate.Silent ∨ (text.length < n ∧ text.length < atCmdMaxLen ∧ '%' ∉ text) := by
  have hbuf : rtSprintf tmp.addr fmt args = some (store (2 ^ 32 - 1 - tmp.addr.toNat) text) := by
    unfold rtSprintf rtVsnprintf
    rw [ht, room_rest]
    rfl
  cases fate with
  | noMemory => exact ⟨fun _ => Or.inl trivial, fun _ => ⟨_, rfl, Or.inl ⟨hres trivial, rfl⟩⟩⟩
  | refused err h resp =>
    refine ⟨fun _ => Or.inl trivial, fun _ => ?_⟩
    unfold execTmp
    rw [hbuf]
    exact ⟨_, rfl, Or.inl ⟨hres trivial, rfl⟩⟩
  | printed i resp =>
    have hcap : n ≤ 2 ^ 32 - 1 - tmp.addr.toNat := by
      have := tmp.behind
      omega
    have hiff := store_intended_iff hn hcap hnul
    rw [← ofFormat_eq_bytes] at hiff
    unfold execTmp
    rw [hbuf]
    constructor
    · rintro ⟨c, hc, hi⟩
      cases hc
      rcases hi with ⟨-, hs⟩ | hi
      · exact absurd hs (ofFormat_ne_silent _)
      · exact Or.inr (hiff.mp hi)
    · rintro (hs | hf)
      · exact hs.elim
      · exact ⟨_, rfl, Or.inr (hiff.mpr hf)⟩

/-! ## the texts -/

theorem vformat_create (args : HttpArgs) :
    vformat createFormat [.str (some args.httpUrl)] = some (Request.text args .create) := by
  have hfmt : createFormat = "AT+HTTPCREATE=\"".toList ++ ('%' :: 's' :: ['"']) := rfl
  rw [hfmt, vformat_copy _ _ (by decide), vformat_s, vformat_end (by decide)]
  unfold Request.text
  rw [List.append_assoc]
  rfl

theorem vformat_header (args : HttpArgs) :
    vformat headerFormat [charArg args.httpExample, .str (some args.httpHeader)] =
      some (Request.text args .header) := by
  have hfmt : headerFormat = "AT+HTTPHEADER=".toList ++ ('%' :: 'c' :: ([',', '"'] ++
      ('%' :: 's' :: ['"']))) := rfl
  rw [hfmt, vformat_copy _ _ (by decide), charArg, vformat_c, vformat_copy _ _ (by decide),
    vformat_s, vformat_end (by decide), char_of_byte args.example_byte]
  unfold Request.text
  rw [List.append_assoc, List.append_assoc, List.append_assoc]
  rfl

theorem vformat_content_args (args : HttpArgs) :
    vformat contentFormat [charArg args.httpExample, .str (some args.httpContent)] =
      some (Request.text args .content) := by
  rw [charArg, vformat_contentFormat, char_of_byte args.example_byte]
  rfl

theorem vformat_send (args : HttpArgs) (mode : BitVec 32) :
    vformat sendFormat [charArg args.httpExample, .int mode, .str (some args.httpSendUrl)] =
      some (Request.text args (.send mode)) := by
  have hfmt : sendFormat = "AT+HTTPSEND=".toList ++ ('%' :: 'c' :: ([','] ++
      ('%' :: 'd' :: ([',', '"'] ++ ('%' :: 's' :: ['"']))))) := rfl
  rw [hfmt, vformat_copy _ _ (by decide), charArg, vformat_c, vformat_copy _ _ (by decide),
    vformat_d, vformat_copy _ _ (by decide), vformat_s, vformat_end (by decide),
    char_of_byte args.example_byte]
  unfold Request.text
  simp only [List.append_assoc]
  rfl

theorem vformat_close (args : HttpArgs) :
    vformat closeFormat [charArg args.httpExample] = some (Request.text args .close) := by
  have hfmt : closeFormat = "AT+HTTPCLOSE=".toList ++ ('%' :: 'c' :: []) := rfl
  rw [hfmt, vformat_copy _ _ (by decide), charArg, vformat_c, vformat_nil,
    char_of_byte args.example_byte]
  rfl

/-- the fixed parts of the commands -/
def fixedParts : List (List Char) :=
  ["AT+HTTPCREATE=\"".toList, "AT+HTTPHEADER=".toList, "AT+HTTPCONTENT=".toList,
    "AT+HTTPSEND=".toList, "AT+HTTPCLOSE=".toList, "AT+NCDP=".toList, [',', '"'], [','], ['"']]

/-- the character is in no argument of the command -/
def Request.Free (c : Char) (args : HttpArgs) : Request → Prop
  | .create => c ∉ args.httpUrl
  | .header => args.httpExample ≠ c ∧ c ∉ args.httpHeader
  | .content => args.httpExample ≠ c ∧ c ∉ args.httpContent
  | .send _ => args.httpExample ≠ c ∧ c ∉ args.httpSendUrl
  | .close => args.httpExample ≠ c
  | .connect ip _ => c ∉ ip

theorem not_mem_text_iff {c : Char} (hs : c ≠ '-') (hd : ¬ c.isDigit)
    (hfixed : ∀ part ∈ fixedParts, c ∉ part) (args : HttpArgs) (r : Request) :
    c ∉ r.text args ↔ r.Free c args := by
  have hcomma : c ∉ [',', '"'] := hfixed _ (by decide)
  have hquote : c ∉ ['"'] := hfixed _ (by decide)
  have hex : c ∈ [args.httpExample] ↔ args.httpExample = c :=
    List.mem_singleton.trans eq_comm
  unfold Request.text Request.Free
  cases r with
  | create =>
    have h : c ∉ "AT+HTTPCREATE=\"".toList := hfixed _ (by decide)
    simp only [List.mem_append, h, hquote, false_or, or_false]
  | header =>
    have h : c ∉ "AT+HTTPHEADER=".toList := hfixed _ (by decide)
    simp only [List.mem_append, h, hex, hcomma, hquote, false_or, or_false, not_or, ne_eq]
  | content =>
    have h : c ∉ "AT+HTTPCONTENT=".toList := hfixed _ (by decide)
    unfold contentText
    simp only [List.mem_append, h, hex, hcomma, hquote, false_or, or_false, not_or, ne_eq]
  | send mode =>
    have h : c ∉ "AT+HTTPSEND=".toList := hfixed _ (by decide)
    have h1 : c ∉ [','] := hfixed _ (by decide)
    have h2 := Text.not_mem_decimal hs hd mode.toInt
    simp only [List.mem_append, h, h1, h2, hex, hcomma, hquote, false_or, or_false, not_or, ne_eq]
  | close =>
    have h : c ∉ "AT+HTTPCLOSE=".toList := hfixed _ (by decide)
    simp only [List.mem_append, h, hex, false_or, ne_eq]
  | connect ip hip =>
    have h : c ∉ "AT+NCDP=".toList := hfixed _ (by decide)
    simp only [List.mem_append, h, false_or]

theorem nul_not_mem_text (args : HttpArgs) (r : Request) : nul ∉ r.text args := by
  refine (not_mem_text_iff (by decide) (by decide) (by decide) args r).mpr ?_
  cases r with
  | create => exact args.url_str
  | header => exact ⟨args.example_ne, args.header_str⟩
  | content => exact ⟨args.example_ne, args.content_str⟩
  | send mode => exact ⟨args.example_ne, args.send_str⟩
  | close => exact args.example_ne
  | connect ip h => exact h

theorem length_text (args : HttpArgs) (r : Request) :
    (r.text args).length = match r with
      | .create => args.httpUrl.length + 16
      | .header => args.httpHeader.length + 18
      | .content => args.httpContent.length + 19
      | .send mode => args.httpSendUrl.length + (Text.decimal mode.toInt).length + 17
      | .close => 14
      | .connect ip _ => ip.length + 8 := by
  unfold Request.text
  cases r with
  | create =>
    have h : "AT+HTTPCREATE=\"".toList.length = 15 := by decide
    simp only [List.length_append, List.length_cons, List.length_nil, h]
    omega
  | header =>
    have h : "AT+HTTPHEADER=".toList.length = 14 := by decide
    simp only [List.length_append, List.length_cons, List.length_nil, h]
    omega
  | content => exact length_contentText _ _
  | send mode =>
    have h : "AT+HTTPSEND=".toList.length = 12 := by decide
    simp only [List.length_append, List.length_cons, List.length_nil, h]
    omega
  | close => rfl
  | connect ip _ =>
    have h : "AT+NCDP=".toList.length = 8 := by decide
    simp only [List.length_append, h]
    omega

theorem fits_iff_text (args : HttpArgs) (r : Request) :
    r.Fits args ↔ (r.text args).length < r.size ∧ (r.text args).length < atCmdMaxLen ∧
      '%' ∉ r.text args := by
  rw [not_mem_text_iff (by decide) (by decide) (by decide), length_text]
  unfold Request.Fits Request.size Request.Free atCmdMaxLen
  cases r with
  | close =>
    have h1 : 14 < 30 := by decide
    have h2 : 14 < 128 := by decide
    exact ⟨fun h => ⟨h1, h2, h⟩, fun h => h.2.2⟩
  | create | header | content | send mode | connect ip h =>
    simp only
    refine Iff.trans ?_ and_assoc
    exact and_congr_left' (by omega)

/-! ## arrays -/

/-- what holds without a response, and with every error, holds of a call that sends nothing -/
theorem Fate.Silent.answer {P : Answer → Prop} {fate : Fate} (h : fate.Silent) (hno : P .noMemory)
    (herr : ∀ i resp, i ≠ rtEok → P (.returned i resp)) : P fate.answer := by
  cases fate with
  | noMemory => exact hno
  | refused i hi resp => exact herr i resp hi
  | printed i resp => exact h.elim

theorem wireOf_silent {fate : Fate} (h : fate.Silent) (cmd : List Char) :
    fate.wireOf cmd = .silent := by
  unfold Fate.wireOf
  cases fate with
  | noMemory => exact ite_self _
  | refused err herr resp => exact ite_self _
  | printed i resp => exact h.elim

theorem cString_pad {text : List Char} (h : nul ∉ text) {n : Nat} (hn : 0 < n) :
    cString (text ++ List.replicate n nul) = text := by
  obtain ⟨k, rfl⟩ := Nat.exists_eq_add_one.mpr hn
  rw [List.replicate_succ]
  exact cString_nul h _

/-- without a NUL, more than the array is read -/
theorem wireOf_wild {cmd : List Char} (h : nul ∉ cmd) (i : RtErr) (resp : Resp) :
    (Fate.printed i resp).wireOf cmd = .wild := if_neg h

theorem wireOf_ended {cmd : List Char} (h : nul ∈ cmd) (i : RtErr) (resp : Resp) :
    (Fate.printed i resp).wireOf cmd = Wire.ofFormat (cString cmd) := if_pos h

/-! ## `NB_IOT_Connect` -/

theorem set_pad (pre : List Char) (c : Char) (n : Nat) :
    (pre ++ List.replicate (n + 1) nul).set pre.length c = pre ++ c :: List.replicate n nul := by
  rw [List.set_append_right _ _ (Nat.le_refl _), Nat.sub_self]
  rfl

/-- what the loop leaves behind its start, which `pre` fills -/
theorem connectLoop_eq (ip pre : List Char) {n : Nat} (hn : pre.length + n = 25) :
    connectLoop pre.length ip (pre ++ List.replicate n nul) =
      pre ++ ip.take n ++ List.replicate (n - ip.length) nul := by
  induction ip generalizing pre n with
  | nil =>
    rw [connectLoop, List.take_nil, List.append_nil]
    cases n with
    | zero => rw [if_neg (by omega)]; rfl
    | succ n => rw [if_pos (by omega), set_pad]; rfl
  | cons c ip ih =>
    rw [connectLoop]
    cases n with
    | zero => rw [if_neg (by omega), Nat.zero_sub, List.take_zero, List.append_nil]
    | succ n =>
      have h := ih (pre ++ [c]) (n := n) (by rw [List.length_append, List.length_singleton]; omega)
      rw [List.length_append, List.length_singleton] at h
      rw [if_pos (by omega), set_pad, List.take_succ_cons, List.length_cons, Nat.succ_sub_succ]
      simp only [List.append_assoc, List.cons_append] at h ⊢
      exact h

theorem connect_buf (ip : List Char) : connectLoop 8 ip ncdp =
    "AT+NCDP=".toList ++ ip.take 17 ++ List.replicate (17 - ip.length) nul :=
  connectLoop_eq ip "AT+NCDP=".toList (n := 17) rfl

/-- the address is copied whole, and ended, if one character is left for the NUL -/
theorem connect_terminated {ip : List Char} (h : nul ∉ ip) :
    nul ∈ connectLoop 8 ip ncdp ↔ ip.length ≤ 16 := by
  have hpre : nul ∉ "AT+NCDP=".toList := by decide
  have htake : nul ∉ ip.take 17 := fun hm => h (List.mem_of_mem_take hm)
  rw [connect_buf]
  simp only [List.mem_append, hpre, htake, false_or, List.mem_replicate, and_true]
  omega

theorem cString_connect {ip : List Char} (h : nul ∉ ip) (hl : ip.length ≤ 16) :
    cString (connectLoop 8 ip ncdp) = "AT+NCDP=".toList ++ ip := by
  have hnul : nul ∉ "AT+NCDP=".toList ++ ip :=
    fun hm => (List.mem_append.mp hm).elim (by decide) h
  rw [connect_buf, List.take_of_length_le (by omega)]
  exact cString_pad hnul (by omega)

theorem length_connect (ip : List Char) : (connectLoop 8 ip ncdp).length = 25 := by
  rw [connect_buf]
  have h : "AT+NCDP=".toList.length = 8 := by decide
  simp only [List.length_append, List.length_take, List.length_replicate, h]
  omega

theorem connectResult_ne {fate : Fate} (h : fate.Silent) : connectResult fate.answer ≠ rtEok := by
  apply h.answer (P := fun a => connectResult a ≠ rtEok)
  · exact rtError_ne_rtEok
  · intro i resp hi
    rw [connectResult, if_pos hi]
    exact rtError_ne_rtEok

theorem connect_intended {ip : List Char} (h : nul ∉ ip) (fate : Fate) :
    Intended 25 ("AT+NCDP=".toList ++ ip) (connectCall ip fate) ↔
      fate.Silent ∨ (ip.length ≤ 16 ∧ '%' ∉ ip) := by
  by_cases hs : fate.Silent
  · exact ⟨fun _ => Or.inl hs, fun _ => Or.inl ⟨connectResult_ne hs, wireOf_silent hs _⟩⟩
  · cases fate with
    | noMemory => exact absurd trivial hs
    | refused err herr resp => exact absurd trivial hs
    | printed i resp =>
      rw [or_iff_right hs]
      by_cases hl : ip.length ≤ 16
      · have hend := (connect_terminated h).mpr hl
        have hwire : (connectCall ip (.printed i resp)).wire =
            Wire.ofFormat ("AT+NCDP=".toList ++ ip) :=
          (wireOf_ended hend i resp).trans (congrArg _ (cString_connect h hl))
        have hnul : nul ∉ "AT+NCDP=".toList ++ ip :=
          fun hm => (List.mem_append.mp hm).elim (by decide) h
        have hlen : ("AT+NCDP=".toList ++ ip).length = ip.length + 8 := by
          rw [List.length_append]
          exact Nat.add_comm _ _
        have hper : '%' ∈ "AT+NCDP=".toList ++ ip ↔ '%' ∈ ip := by
          rw [List.mem_append]
          exact or_iff_right (by decide)
        constructor
        · rintro (⟨-, hi⟩ | ⟨-, -, hi⟩)
          · rw [hwire] at hi
            exact absurd hi (ofFormat_ne_silent _)
          · rw [hwire, ofFormat_eq_bytes] at hi
            exact ⟨hl, fun hm => ((atVprintfln_some hi hnul).2 rfl).1 (hper.mpr hm)⟩
        · rintro ⟨-, hp⟩
          refine Or.inr ⟨Nat.le_of_eq (length_connect ip), hend, ?_⟩
          rw [hwire, ofFormat_eq_bytes]
          refine atVprintfln_of_not_mem (fun hm => hp (hper.mp hm)) ?_
          rw [hlen]
          unfold atCmdMaxLen
          omega
      · -- the loop leaves no NUL
        have hno : nul ∉ connectLoop 8 ip ncdp := fun hm => hl ((connect_terminated h).mp hm)
        refine ⟨?_, fun hf => absurd hf.1 hl⟩
        rintro (⟨-, hi⟩ | ⟨-, hi, -⟩)
        · cases (wireOf_wild hno i resp).symm.trans hi
        · exact absurd hi hno

/-! ## all commands -/

theorem httpCall_silent {fate : Fate} (h : fate.Silent) (result : RtErr)
    (cmd : Option (List Char)) : (httpCall result cmd fate.answer).2 ≠ rtEok := by
  apply h.answer (P := fun a => (httpCall result cmd a).2 ≠ rtEok)
  · exact rtError_ne_rtEok
  · intro i resp hi
    show (if i ≠ rtEok then (if i = -rtEtimeout then rtEtimeout else rtError) else _) ≠ rtEok
    rw [if_pos hi]
    split
    · decide
    · decide

theorem httpCreate_silent {fate : Fate} (h : fate.Silent) (args : IotData) :
    (nbIotHttpCreate nul args fate.answer).2.1 ≠ rtEok := by
  apply h.answer (P := fun a => (nbIotHttpCreate nul args a).2.1 ≠ rtEok)
  · exact rtError_ne_rtEok
  · intro i resp hi
    unfold nbIotHttpCreate
    simp only
    rw [if_pos hi]
    exact rtError_ne_rtEok

theorem httpClose_silent {fate : Fate} (h : fate.Silent) :
    httpCloseResult fate.answer ≠ rtEok := by
  apply h.answer (P := fun a => httpCloseResult a ≠ rtEok)
  · exact rtError_ne_rtEok
  · intro i resp hi
    rw [httpCloseResult, if_pos hi]
    exact rtError_ne_rtEok

/-- **A command is intended exactly if it fits**: short arguments, none of them with a percent
sign; or the call refuses before it sends anything. -/
theorem intended_iff (args : HttpArgs) (r : Request) (tmp : LocalArray r.size) (fate : Fate) :
    (∃ c, r.call args tmp fate = some c ∧ Intended r.size (r.text args) c) ↔
      fate.Silent ∨ r.Fits args := by
  rw [fits_iff_text]
  have hnul := nul_not_mem_text args r
  cases r with
  | create =>
    exact execTmp_intended tmp (by decide) (vformat_create args) hnul
      (httpCreate_silent · args.toIotData)
  | header =>
    exact execTmp_intended tmp (by decide) (vformat_header args) hnul (httpCall_silent · _ _)
  | content =>
    exact execTmp_intended tmp (by decide) (vformat_content_args args) hnul
      (httpCall_silent · _ _)
  | send mode =>
    have hn : 0 < atCmdMaxLen := by decide
    exact execTmp_intended tmp hn (vformat_send args mode) hnul (httpCall_silent · _ _)
  | close => exact execTmp_intended tmp (by decide) (vformat_close args) hnul httpClose_silent
  | connect ip hip =>
    rw [← fits_iff_text args (.connect ip hip)]
    constructor
    · rintro ⟨c, hc, hi⟩
      cases hc
      exact (connect_intended hip fate).mp hi
    · intro h
      exact ⟨_, rfl, (connect_intended hip fate).mpr h⟩

def demoArgs : HttpArgs where
  httpExample := '5'
  httpUrl := "www.ycdemo.cn".toList
  httpHeader := []
  httpContent := "t=%d".toList
  httpSendUrl := []
  example_byte := by decide
  example_ne := by decide
  url_str := by decide
  header_str := by decide
  content_str := by decide
  send_str := by decide

/-- an address of 18 characters leaves no room for the NUL, and a percent sign in the content is
taken for a conversion -/
theorem intended_fails :
    ¬ Intended 25 "AT+NCDP=183.230.40.40,5683".toList
      (connectCall "183.230.40.40,5683".toList (.printed rtEok ⟨16, 0, [], 0⟩)) ∧
    ∀ c ∈ Request.call demoArgs .content ⟨0x20001000, by decide⟩ (.printed rtEok ⟨64, 0, [], 0⟩),
      ¬ Intended 128 (Request.text demoArgs .content) c := by
  constructor
  · exact fun h => absurd ((connect_intended (by decide) _).mp h) (by
      rintro (h | h)
      · exact h
      · exact absurd h.1 (by decide))
  · intro c hc hi
    have hn : 0 < atCmdMaxLen := by decide
    have hres : (Fate.printed rtEok ⟨64, 0, [], 0⟩).Silent →
        (nbIotHttpContent demoArgs.toIotData (.returned rtEok ⟨64, 0, [], 0⟩)).2 ≠ rtEok :=
      fun h => h.elim
    have hcall := execTmp_intended (⟨0x20001000, by decide⟩ : LocalArray atCmdMaxLen) hn
      (vformat_content_args demoArgs) (nul_not_mem_text demoArgs .content) hres
    rcases hcall.mp ⟨c, hc, hi⟩ with h | h
    · exact h
    · exact h.2.2 (by decide)

end ENV
