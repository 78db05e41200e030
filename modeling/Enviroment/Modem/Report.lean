import Enviroment.Kernel.Printf
import Enviroment.Sensor.Sample
import Enviroment.Threads.System

/-!
# The report of a sample to the modem

`NB_IOT_thread_entry` prints the five received values into `tmp[100]`, `NB_IOT_HTTPCONTENT` prints
that text into a command in `tmp[AT_CMD_MAX_LEN]`, and `at_exec_cmd` hands the command to
`vsnprintf` as a FORMAT, into a third buffer, before it is written to the modem.

* `sampleOf`            the five mails of the data block of the sensor thread;
* `upload`              the three buffers and what is written, for the addresses of the first two;
* `reported`            what a reader of the command finds under a key;
* `upload_round_trip`   every sample arrives whole, distinct samples in distinct commands.

`vsnprintf` is the one of the C library, so it is a parameter.
-/

namespace ENV

/-! ## the five mails -/

def sampleOf (byh : ByhM) : Sample :=
  ⟨mail byh.temperature_x10, mail byh.humidity_x10, mail byh.noise_x10, mail byh.pm2_5,
    mail byh.pm10⟩

theorem toInt_mail (v : Word) : (mail v).toInt = v.toInt :=
  BitVec.toInt_signExtend_of_le (by decide)

theorem natAbs_mail_lt (v : Word) : (mail v).toInt.natAbs < 10 ^ 5 := by
  have h1 := BitVec.toInt_lt (x := v)
  have h2 := BitVec.le_toInt (x := v)
  rw [toInt_mail]
  omega

/-! ## the code -/

def atCmdMaxLen : Nat := 128

/-- `vsnprintf(buf, size, fmt)` without arguments: what it leaves in `buf`, and its result -/
abbrev Vsnprintf := Nat → List Char → List Char × Nat

/-- a format without `%` is copied -/
def Verbatim (vsnprintf : Vsnprintf) : Prop :=
  ∀ size fmt, '%' ∉ fmt → vsnprintf size fmt = (store size fmt, fmt.length)

/-- `at_vprintf(device, format)`: what `send_buf` holds, and what of it is written to the device -/
def atVprintf (vsnprintf : Vsnprintf) (format : List Char) : List Char × List Char :=
  let r := vsnprintf atCmdMaxLen format
  (r.1, r.1.take r.2)

theorem atVprintf_verbatim {vsnprintf : Vsnprintf} (hv : Verbatim vsnprintf) {text : List Char}
    (hp : '%' ∉ text) (hl : text.length < atCmdMaxLen) :
    atVprintf vsnprintf text = (text ++ [nul], text) := by
  unfold atVprintf
  rw [hv _ _ hp, store_room hl]
  exact congrArg _ (List.take_left' rfl)

/-- an array of `n` characters in memory -/
structure CharArray (n : Nat) where
  addr : BitVec 32
  fits : addr.toNat + n ≤ 2 ^ 32

def reportFormat : List Char :=
  "user=xiaochunming&pawd=qwertyuiop&t=%d&h=%d&n=%d&p2=%d&p10=%d".toList

def contentFormat : List Char := "AT+HTTPCONTENT=%c,\"%s\"".toList

/-- what a report leaves in its buffers, and what `at_vprintf` writes -/
structure Upload where
  /-- `tmp[100]` of `NB_IOT_thread_entry` -/
  tmp : List Char
  /-- `tmp[AT_CMD_MAX_LEN]` of `NB_IOT_HTTPCONTENT` -/
  cmd : List Char
  sendBuf : List Char
  written : List Char

/-- the way of one received sample through the two `rt_sprintf` and `at_exec_cmd` -/
def upload (vsnprintf : Vsnprintf) (tmp : CharArray 100) (cmd : CharArray atCmdMaxLen)
    (httpExample : Char) (smp : Sample) : Option Upload :=
  (rtSprintf tmp.addr reportFormat
    [.int smp.t, .int smp.h, .int smp.n, .int smp.p2, .int smp.p10]).bind fun tmp =>
  (rtSprintf cmd.addr contentFormat
    [.int (BitVec.ofNat 32 httpExample.toNat), .str (some (cString tmp))]).map fun cmd =>
  let r := atVprintf vsnprintf (cString cmd)
  ⟨tmp, cmd, r.1, r.2⟩

/-! ## reading a command -/

/-- the text between the first two quotes of a command -/
def postData (cmd : List Char) : List Char :=
  ((cmd.dropWhile (· ≠ '"')).drop 1).takeWhile (· ≠ '"')

/-- the number under a key of the posted data -/
def reported (cmd key : List Char) : Option Int :=
  (Text.fieldOf '&' (key ++ ['=']) (postData cmd)).bind Text.readDecimal

/-! ## the texts -/

open Text

def reportItems (smp : Sample) : List (List Char) :=
  ["user=xiaochunming".toList, "pawd=qwertyuiop".toList, "t=".toList ++ decimal smp.t.toInt,
    "h=".toList ++ decimal smp.h.toInt, "n=".toList ++ decimal smp.n.toInt,
    "p2=".toList ++ decimal smp.p2.toInt, "p10=".toList ++ decimal smp.p10.toInt]

def reportText (smp : Sample) : List Char := ['&'].intercalate (reportItems smp)

def contentText (httpExample : Char) (text : List Char) : List Char :=
  "AT+HTTPCONTENT=".toList ++ [httpExample] ++ [',', '"'] ++ text ++ ['"']

theorem vformat_report (smp : Sample) :
    vformat reportFormat [.int smp.t, .int smp.h, .int smp.n, .int smp.p2, .int smp.p10] =
      some (reportText smp) := by
  have hfmt : reportFormat =
      "user=xiaochunming&pawd=qwertyuiop&t=".toList ++ ('%' :: 'd' :: ("&h=".toList ++
        ('%' :: 'd' :: ("&n=".toList ++ ('%' :: 'd' :: ("&p2=".toList ++
          ('%' :: 'd' :: ("&p10=".toList ++ ('%' :: 'd' :: []))))))))) := rfl
  rw [hfmt, vformat_copy _ _ (by decide), vformat_d, vformat_copy _ _ (by decide), vformat_d,
    vformat_copy _ _ (by decide), vformat_d, vformat_copy _ _ (by decide), vformat_d,
    vformat_copy _ _ (by decide), vformat_d, vformat_nil]
  simp [reportText, reportItems, List.intercalate]

theorem vformat_contentFormat (v : BitVec 32) (text : List Char) :
    vformat contentFormat [.int v, .str (some text)] =
      some (contentText (Char.ofNat (v.toNat % 256)) text) := by
  have hfmt : contentFormat = "AT+HTTPCONTENT=".toList ++ ('%' :: 'c' :: ([',', '"'] ++
      ('%' :: 's' :: ['"']))) := rfl
  rw [hfmt, vformat_copy _ _ (by decide), vformat_c, vformat_copy _ _ (by decide), vformat_s,
    vformat_end (by decide)]
  unfold contentText
  rw [List.append_assoc, List.append_assoc, List.append_assoc]
  rfl

theorem vformat_content (httpExample : Char) (hex : httpExample.isDigit) (text : List Char) :
    vformat contentFormat [.int (BitVec.ofNat 32 httpExample.toNat), .str (some text)] =
      some (contentText httpExample text) := by
  rw [vformat_contentFormat, char_of_byte (Text.toNat_lt_of_isDigit hex)]

/-- the fixed parts of a report -/
def reportKeys : List (List Char) :=
  ["user=xiaochunming".toList, "pawd=qwertyuiop".toList, "t=".toList, "h=".toList, "n=".toList,
    "p2=".toList, "p10=".toList]

/-- a character that is in no key and in no decimal is in no item -/
theorem not_mem_reportItems {c : Char} (hs : c ≠ '-') (hd : ¬ c.isDigit)
    (h : ∀ key ∈ reportKeys, c ∉ key) (smp : Sample) : ∀ item ∈ reportItems smp, c ∉ item := by
  have happ : ∀ key ∈ reportKeys, ∀ z, c ∉ key ++ decimal z := by
    intro key hk z hc
    rcases List.mem_append.mp hc with hc | hc
    · exact h key hk hc
    · exact not_mem_decimal hs hd z hc
  intro item hi
  simp only [reportItems, List.mem_cons, List.not_mem_nil, or_false] at hi
  rcases hi with rfl | rfl | rfl | rfl | rfl | rfl | rfl
  · exact h _ (by decide)
  · exact h _ (by decide)
  · exact happ _ (by decide) _
  · exact happ _ (by decide) _
  · exact happ _ (by decide) _
  · exact happ _ (by decide) _
  · exact happ _ (by decide) _

theorem not_mem_reportText {c : Char} (hs : c ≠ '-') (hd : ¬ c.isDigit) (ha : c ≠ '&')
    (h : ∀ key ∈ reportKeys, c ∉ key) (smp : Sample) : c ∉ reportText smp :=
  not_mem_join ha (not_mem_reportItems hs hd h smp)

/-! ## lengths -/

theorem length_reportText (byh : ByhM) : (reportText (sampleOf byh)).length ≤ 81 := by
  have hd : ∀ v : Word, (decimal (mail v).toInt).length ≤ 6 := fun v =>
    length_decimal_le (by decide) (natAbs_mail_lt v)
  have h1 := hd byh.temperature_x10
  have h2 := hd byh.humidity_x10
  have h3 := hd byh.noise_x10
  have h4 := hd byh.pm2_5
  have h5 := hd byh.pm10
  unfold reportText reportItems
  simp only [join_cons, List.intercalate_singleton, List.length_append, List.length_cons,
    String.length_toList, sampleOf]
  rw [show "user=xiaochunming".length = 17 from rfl, show "pawd=qwertyuiop".length = 15 from rfl,
    show "t=".length = 2 from rfl, show "h=".length = 2 from rfl, show "n=".length = 2 from rfl,
    show "p2=".length = 3 from rfl, show "p10=".length = 4 from rfl]
  omega

theorem length_contentText (httpExample : Char) (text : List Char) :
    (contentText httpExample text).length = text.length + 19 := by
  unfold contentText
  simp

/-! ## reading back -/

theorem postData_contentText {httpExample : Char} (hex : httpExample.isDigit) {text : List Char}
    (h : '"' ∉ text) : postData (contentText httpExample text) = text := by
  have hq : httpExample ≠ '"' := by
    rintro rfl
    exact absurd hex (by decide)
  have hpre : ∀ c ∈ "AT+HTTPCONTENT=".toList ++ [httpExample] ++ [','], c ≠ '"' := by
    intro c hc
    rcases List.mem_append.mp hc with hc | hc
    · rcases List.mem_append.mp hc with hc | hc
      · rintro rfl
        exact absurd hc (by decide)
      · rw [List.mem_singleton.mp hc]
        exact hq
    · rw [List.mem_singleton.mp hc]
      decide
  have hsplit : contentText httpExample text =
      ("AT+HTTPCONTENT=".toList ++ [httpExample] ++ [',']) ++ '"' :: (text ++ ['"']) := by
    unfold contentText
    simp
  have htext : ∀ c ∈ text, decide (c ≠ '"') = true := by
    intro c hc
    exact decide_eq_true fun e => h (e ▸ hc)
  unfold postData
  rw [hsplit, List.dropWhile_append_of_pos fun c hc => decide_eq_true (hpre c hc),
    List.dropWhile_cons_of_neg (by decide), List.drop_succ_cons, List.drop_zero,
    List.takeWhile_append_of_pos htext,
    List.takeWhile_cons_of_neg (by decide), List.append_nil]

theorem reported_report {httpExample : Char} (hex : httpExample.isDigit) (smp : Sample) :
    ["t".toList, "h".toList, "n".toList, "p2".toList, "p10".toList].map
        (reported (contentText httpExample (reportText smp))) =
      [some smp.t.toInt, some smp.h.toInt, some smp.n.toInt, some smp.p2.toInt,
        some smp.p10.toInt] := by
  have hpost := postData_contentText hex
    (not_mem_reportText (c := '"') (by decide) (by decide) (by decide) (by decide) smp)
  have hjoin : ∀ key, fieldOf '&' key (reportText smp) =
      (reportItems smp).findSome? fun item =>
        if key <+: item then some (item.drop key.length) else none :=
    fieldOf_join (by simp [reportItems])
      (not_mem_reportItems (by decide) (by decide) (by decide) smp)
  unfold reported
  rw [hpost]
  simp [hjoin, reportItems, readDecimal_decimal]

/-! ## the upload -/

theorem not_mem_contentText {httpExample : Char} (hex : httpExample.isDigit) {c : Char}
    (hs : c ≠ '-') (hd : ¬ c.isDigit) (ha : c ≠ '&') (hk : ∀ key ∈ reportKeys, c ∉ key)
    (hc : c ∉ "AT+HTTPCONTENT=".toList ++ [',', '"', '"']) (smp : Sample) :
    c ∉ contentText httpExample (reportText smp) := by
  have hr := not_mem_reportText hs hd ha hk smp
  have he : c ≠ httpExample := by
    rintro rfl
    exact hd hex
  intro hm
  unfold contentText at hm
  simp only [List.mem_append, List.mem_cons, List.not_mem_nil, or_false] at hm hc
  tauto

/-- the three buffers hold the texts and their NUL, and the command is written as it is -/
theorem upload_eq {vsnprintf : Vsnprintf} (hv : Verbatim vsnprintf) (tmp : CharArray 100)
    (cmd : CharArray atCmdMaxLen) {httpExample : Char} (hex : httpExample.isDigit) (byh : ByhM) :
    upload vsnprintf tmp cmd httpExample (sampleOf byh) =
      some ⟨reportText (sampleOf byh) ++ [nul],
        contentText httpExample (reportText (sampleOf byh)) ++ [nul],
        contentText httpExample (reportText (sampleOf byh)) ++ [nul],
        contentText httpExample (reportText (sampleOf byh))⟩ := by
  have hlen := length_reportText byh
  generalize hsmp : sampleOf byh = smp at hlen ⊢
  have hlen' := length_contentText httpExample (reportText smp)
  have hnul : nul ∉ reportText smp :=
    not_mem_reportText (by decide) (by decide) (by decide) (by decide) smp
  have hnul' : nul ∉ contentText httpExample (reportText smp) :=
    not_mem_contentText hex (by decide) (by decide) (by decide) (by decide) (by decide) smp
  have hpercent : '%' ∉ contentText httpExample (reportText smp) :=
    not_mem_contentText hex (by decide) (by decide) (by decide) (by decide) (by decide) smp
  unfold upload
  rw [rtSprintf_fits (vformat_report smp) tmp.fits (by omega), Option.bind_some, cString_store hnul,
    rtSprintf_fits (vformat_content httpExample hex _) cmd.fits (by unfold atCmdMaxLen; omega),
    Option.map_some, cString_store hnul',
    atVprintf_verbatim hv hpercent (by unfold atCmdMaxLen; omega)]

/-- the mails of a sample determine its command, and the command the mails -/
theorem sample_of_command {httpExample : Char} (hex : httpExample.isDigit) {smp smp' : Sample}
    (h : contentText httpExample (reportText smp) = contentText httpExample (reportText smp')) :
    smp = smp' := by
  have e := reported_report hex smp
  rw [h, reported_report hex smp'] at e
  simp only [List.cons.injEq, Option.some.injEq, and_true] at e
  obtain ⟨h1, h2, h3, h4, h5⟩ := e
  cases smp
  cases smp'
  congr
  · exact (BitVec.eq_of_toInt_eq h1).symm
  · exact (BitVec.eq_of_toInt_eq h2).symm
  · exact (BitVec.eq_of_toInt_eq h3).symm
  · exact (BitVec.eq_of_toInt_eq h4).symm
  · exact (BitVec.eq_of_toInt_eq h5).symm

/-- **Round trip of a report.**  For every content of the three frames that the get calls accepted,
no buffer is overrun, the command is written whole, and reading it gives the five registers as
two's-complement numbers; distinct samples give distinct commands. -/
theorem upload_round_trip (vsnprintf : Vsnprintf) (hv : Verbatim vsnprintf) (tmp : CharArray 100)
    (cmd : CharArray atCmdMaxLen) (httpExample : Char) (hex : httpExample.isDigit) :
    (∀ (humiture noise pm : Temp) (byh : ByhM), ∃ u,
      upload vsnprintf tmp cmd httpExample
          (sampleOf (savePM pm (saveNoise noise (saveHumiture humiture byh)))) = some u ∧
        u.tmp.length ≤ 100 ∧ u.cmd.length ≤ atCmdMaxLen ∧ u.sendBuf.length ≤ atCmdMaxLen ∧
        u.written = cString u.cmd ∧
        ["t".toList, "h".toList, "n".toList, "p2".toList, "p10".toList].map (reported u.written) =
          [some (twosComplement (humiture 5) (humiture 6)),
            some (twosComplement (humiture 3) (humiture 4)),
            some (twosComplement (noise 3) (noise 4)), some (twosComplement (pm 3) (pm 4)),
            some (twosComplement (pm 5) (pm 6))]) ∧
    ∀ byh byh' : ByhM,
      (upload vsnprintf tmp cmd httpExample (sampleOf byh)).map Upload.written =
        (upload vsnprintf tmp cmd httpExample (sampleOf byh')).map Upload.written →
      sampleOf byh = sampleOf byh' := by
  constructor
  · intro humiture noise pm byh
    have hup := upload_eq hv tmp cmd hex (savePM pm (saveNoise noise (saveHumiture humiture byh)))
    have hlen := length_reportText (savePM pm (saveNoise noise (saveHumiture humiture byh)))
    have hrep := reported_report hex
      (sampleOf (savePM pm (saveNoise noise (saveHumiture humiture byh))))
    refine ⟨_, hup, ?_, ?_, ?_, ?_, ?_⟩
    · rw [List.length_append, List.length_singleton]
      omega
    · rw [List.length_append, List.length_singleton, length_contentText]
      unfold atCmdMaxLen
      omega
    · rw [List.length_append, List.length_singleton, length_contentText]
      unfold atCmdMaxLen
      omega
    · exact (cString_store (not_mem_contentText hex (by decide) (by decide) (by decide) (by decide)
        (by decide) _)).symm
    · rw [hrep]
      simp only [sampleOf, toInt_mail, savePM, saveNoise, saveHumiture, toInt_word]
  · intro byh byh' h
    rw [upload_eq hv tmp cmd hex, upload_eq hv tmp cmd hex] at h
    exact sample_of_command hex (Option.some.inj h)

/-! ## a cold day -/

def copyVsnprintf : Vsnprintf := fun size fmt => (store size fmt, fmt.length)

/-- 60.0 % and -5.0 C -/
def coldFrame : Temp := fun i => [0x0b, 0x03, 0x04, 0x02, 0x58, 0xff, 0xce, 0, 0, 0].getD i 0

theorem upload_round_trip_cold : ∃ u,
    upload copyVsnprintf ⟨0x20001000, by decide⟩ ⟨0x20002000, by decide⟩ '5'
        (sampleOf (savePM coldFrame (saveNoise coldFrame (saveHumiture coldFrame byhDataInit)))) =
      some u ∧ u.tmp.length ≤ 100 ∧ u.cmd.length ≤ 128 ∧ u.sendBuf.length ≤ 128 ∧
      u.written = cString u.cmd ∧
      ["t".toList, "h".toList, "n".toList, "p2".toList, "p10".toList].map (reported u.written) =
        [some (-50), some 600, some 600, some 600, some (-50)] :=
  (upload_round_trip copyVsnprintf (fun _ _ _ => rfl) ⟨0x20001000, by decide⟩
    ⟨0x20002000, by decide⟩ '5' (by decide)).1 coldFrame coldFrame coldFrame byhDataInit

end ENV
