import Enviroment.Lib.Trace
import Enviroment.Modem.Query

/-!
# The signal strength (`NB_IOT_GetSignal` and its loop in `NB_IOT_Init`)

The function tests the two digits of the signal one by one, and the loop looks at what is stored,
not at the result of the function.

* `CsqReply`         a response with the line `OK` and a signal of one or two digits;
* `SignalRight`      the signal is stored, whatever was stored before; 99 is an error;
* `signalTry`        one attempt of the loop, `LeavesRight` what it owes;
* `Storable`, `Heard`   the signals that are stored, and what the loop needs of an attempt;
* `getSignal_one`, `getSignal_two`   what the function does with a signal;
* `signal_iff`       which signals are stored, and which runs of the loop end as they should.
-/

namespace ENV

/-! ## the signal -/

/-- the number of a decimal -/
def rssi (ds : List Char) : Nat := Nat.ofDigitChars 10 ds 0

/-- the first line with `+CSQ:` is `+CSQ:`, one or two digits, a comma and more -/
structure CsqReply (resp : Resp) (ds rest : List Char) : Prop where
  ok : (atRespGetLineByKw resp okLine).isSome
  line : atRespGetLineByKw resp csqLine = some (csqLine ++ ds ++ ',' :: rest)
  digits : ∀ c ∈ ds, c.isDigit
  length : ds.length = 1 ∨ ds.length = 2

/-- a number below 100 with two digits -/
def twoDigits (n : Nat) : List Char := [Nat.digitChar (n / 10), Nat.digitChar (n % 10)]

def SignalRight (resp : Resp) (n : Nat) : Prop :=
  ∀ d, nbIotGetSignal anywhere d (.returned rtEok resp) =
    some (if n = 99 then (rtError, { d with signal := ['9', '9'] })
      else (rtEok, { d with signal := twoDigits n }))

/-- one digit, or two digits from 13 on without 20, 21 and 22 -/
def Storable (ds : List Char) : Prop :=
  ds.length = 1 ∨ (13 ≤ rssi ds ∧ ¬ (20 ≤ rssi ds ∧ rssi ds ≤ 22))

/-! ## the loop -/

structure Attempts where
  data : NbData
  count : Nat
  /-- the loop was left by its `break` -/
  left : Bool

def signalInit (d : NbData) : Attempts := ⟨d, 0, false⟩

/-- an attempt; behind a null pointer, or outside the buffer, anything may be read, so that the loop
may be left -/
def signalTry (s : Attempts) (a : Answer) : Option Attempts :=
  if s.left ∨ 10 ≤ s.count then none
  else
    match nbIotGetSignal anywhere s.data a with
    | some r => some ⟨r.2, s.count + 1, decide (r.2.signal.head? ≠ some '9')⟩
    | none => some ⟨s.data, s.count + 1, true⟩

/-- the attempt stores a signal that is not 99 -/
def StoresReal : Answer → Prop
  | .noMemory => False
  | .returned i resp => i = rtEok ∧ ∃ ds rest, CsqReply resp ds rest ∧ rssi ds ≠ 99 ∧
      SignalRight resp (rssi ds)

/-- before the tenth attempt the loop is left only behind a real signal -/
def LeavesRight (s : Attempts) (a : Answer) (t : Attempts) : Prop :=
  s.count < 9 → t.left → StoresReal a

/-- an answer fails, lacks the line `OK`, or has a signal -/
def Regular : Answer → Prop
  | .noMemory => True
  | .returned i resp => i = rtEok → (atRespGetLineByKw resp okLine).isSome →
      ∃ ds rest, CsqReply resp ds rest

/-- an answer with a signal that is stored -/
def Stores : Answer → Prop
  | .noMemory => False
  | .returned i resp => i = rtEok ∧ ∃ ds rest, CsqReply resp ds rest ∧ Storable ds

/-- the answer has a signal that is stored, or a 9 is stored already -/
def Heard (s : Attempts) (a : Answer) (_ : Attempts) : Prop :=
  Regular a ∧ (s.count < 9 → Stores a ∨ s.data.signal.head? = some '9')

/-! ## what the function does -/

theorem anywhere_of_lt {p : List Char} {k : Nat} (h : k < (cString p).length) :
    anywhere p k = (cString p)[k]? := by
  obtain ⟨z, hz⟩ : cString p <+: p := List.takeWhile_prefix _
  have hread : (cString p ++ z)[k]? = (cString p)[k]? := List.getElem?_append_left h
  rw [hz] at hread
  exact hread

theorem getSignal_eq {resp : Resp} {ds rest : List Char} (h : CsqReply resp ds rest) :
    ∃ p, (∀ k < 6 + ds.length, anywhere p k = (csqLine ++ ds ++ ',' :: rest)[k]?) ∧
      ∀ d, nbIotGetSignal anywhere d (.returned rtEok resp) = signalAt anywhere d p := by
  have hline := line_pointerByKw resp csqLine
  rw [h.line] at hline
  obtain ⟨p, hp, hstr⟩ := Option.map_eq_some_iff.mp hline
  refine ⟨p, fun k hk => ?_, fun d => ?_⟩
  · rw [anywhere_of_lt, hstr]
    rw [hstr, List.length_append, List.length_append, List.length_cons]
    have h5 : csqLine.length = 5 := by decide
    omega
  · have hrun : nbIotGetSignal anywhere d (.returned rtEok resp) =
        (resp.pointerByKw csqLine).bind (signalAt anywhere d) :=
      run_found .signal anywhere d h.ok
    rw [hrun, hp, Option.bind_some]

theorem getSignal_one {resp : Resp} {c : Char} {rest : List Char} (h : CsqReply resp [c] rest)
    (d : NbData) : nbIotGetSignal anywhere d (.returned rtEok resp) =
      some (rtEok, { d with signal := ['0', c] }) := by
  obtain ⟨p, hread, hrun⟩ := getSignal_eq h
  have h5 : anywhere p 5 = some c := hread 5 (by decide : 5 < 7)
  have h6 : anywhere p 6 = some ',' := hread 6 (by decide : 6 < 7)
  rw [hrun, signalAt, h6, Option.bind_some, if_pos rfl, h5, Option.map_some]

theorem getSignal_two {resp : Resp} {c c' : Char} {rest : List Char}
    (h : CsqReply resp [c, c'] rest) (d : NbData) :
    nbIotGetSignal anywhere d (.returned rtEok resp) =
      some (if c = '9' ∧ c' = '9' then (rtError, { d with signal := ['9', '9'] })
        else if Passes c c' then (rtEok, { d with signal := [c, c'] }) else (rtEok, d)) := by
  obtain ⟨p, hread, hrun⟩ := getSignal_eq h
  have h5 : anywhere p 5 = some c := hread 5 (by decide : 5 < 8)
  have h6 : anywhere p 6 = some c' := hread 6 (by decide : 6 < 8)
  have h7 : anywhere p 7 = some ',' := hread 7 (by decide : 7 < 8)
  have hne : c' ≠ ',' := by
    rintro rfl
    exact absurd (h.digits ',' (List.mem_cons_of_mem _ List.mem_cons_self)) (by decide)
  rw [hrun, signalAt, h6, Option.bind_some, if_neg hne, h7, Option.bind_some, if_pos rfl, h5,
    Option.map_some]

/-! ## digits -/

theorem digitChar_of_isDigit {c : Char} (h : c.isDigit) : ∃ k < 10, c = Nat.digitChar k := by
  have hn : 48 ≤ c.toNat ∧ c.toNat ≤ 57 := Char.isDigit_iff_toNat.mp h
  have hk : c.toNat - 48 < 10 := by omega
  have hval : (Nat.digitChar (c.toNat - 48)).toNat = c.toNat := by
    rw [Nat.toNat_digitChar_of_lt_ten hk, Nat.add_sub_cancel' hn.1]
  exact ⟨c.toNat - 48, hk, Char.toNat_inj.mp hval.symm⟩

theorem rssi_one : ∀ j < 10, rssi [Nat.digitChar j] = j ∧
    twoDigits j = ['0', Nat.digitChar j] := by decide

theorem rssi_two : ∀ j < 10, ∀ k < 10, rssi [Nat.digitChar j, Nat.digitChar k] = 10 * j + k ∧
    twoDigits (10 * j + k) = [Nat.digitChar j, Nat.digitChar k] := by decide +kernel

/-- the test of the characters, as a test of the digits -/
theorem passes_digits : ∀ j < 10, ∀ k < 10,
    (Passes (Nat.digitChar j) (Nat.digitChar k) ↔ (0 < j ∧ 2 < k) ∨ 2 < j) ∧
      (Nat.digitChar j = '9' ∧ Nat.digitChar k = '9' ↔ j = 9 ∧ k = 9) := by decide +kernel

theorem twoDigits_ne_blank (n : Nat) : twoDigits n ≠ blankData.signal := by
  have hd : ∀ k < 10, Nat.digitChar k ≠ nul := by decide
  intro h
  exact hd (n % 10) (Nat.mod_lt n (by decide)) (List.cons.inj (List.cons.inj h).2).1

/-! ## which signals are stored -/

/-- a function that leaves its data alone does not store a signal -/
theorem not_right_of_kept {resp : Resp} {n : Nat}
    (h : nbIotGetSignal anywhere blankData (.returned rtEok resp) = some (rtEok, blankData)) :
    ¬ SignalRight resp n := by
  intro hr
  have e := Option.some.inj (h.symm.trans (hr blankData))
  split at e
  next => exact absurd (congrArg Prod.fst e) (by decide)
  next => exact twoDigits_ne_blank n (congrArg (fun r => r.2.signal) e).symm

/-- what an attempt does with a signal: it is stored, or everything stays as it is -/
theorem getSignal_cases {resp : Resp} {ds rest : List Char} (h : CsqReply resp ds rest) :
    (Storable ds ∧ SignalRight resp (rssi ds)) ∨
      (¬ Storable ds ∧
        ∀ d, nbIotGetSignal anywhere d (.returned rtEok resp) = some (rtEok, d)) := by
  rcases h.length with hl | hl
  · obtain ⟨c, rfl⟩ := List.length_eq_one_iff.mp hl
    obtain ⟨j, hj, rfl⟩ := digitChar_of_isDigit (h.digits c List.mem_cons_self)
    obtain ⟨hv, h2⟩ := rssi_one j hj
    refine Or.inl ⟨Or.inl rfl, fun d => ?_⟩
    rw [getSignal_one h, hv, if_neg (by omega), h2]
  · obtain ⟨c, c', rfl⟩ := List.length_eq_two.mp hl
    obtain ⟨j, hj, rfl⟩ := digitChar_of_isDigit (h.digits c List.mem_cons_self)
    obtain ⟨k, hk, rfl⟩ :=
      digitChar_of_isDigit (h.digits c' (List.mem_cons_of_mem _ List.mem_cons_self))
    obtain ⟨hv, h2⟩ := rssi_two j hj k hk
    obtain ⟨hpass, h99⟩ := passes_digits j hj k hk
    have hst : Storable [Nat.digitChar j, Nat.digitChar k] ↔ (0 < j ∧ 2 < k) ∨ 2 < j := by
      unfold Storable
      rw [hv, hl]
      omega
    by_cases hp : (0 < j ∧ 2 < k) ∨ 2 < j
    · refine Or.inl ⟨hst.mpr hp, fun d => ?_⟩
      rw [getSignal_two h, hv]
      by_cases h9 : j = 9 ∧ k = 9
      · rw [if_pos (h99.mpr h9), if_pos (by omega)]
      · rw [if_neg (fun e => h9 (h99.mp e)), if_pos (hpass.mpr hp), if_neg (by omega), h2]
    · refine Or.inr ⟨fun e => hp (hst.mp e), fun d => ?_⟩
      rw [getSignal_two h, if_neg (fun e => hp (by have := h99.mp e; omega)),
        if_neg (fun e => hp (hpass.mp e))]

theorem signalRight_iff {resp : Resp} {ds rest : List Char} (h : CsqReply resp ds rest) :
    SignalRight resp (rssi ds) ↔ Storable ds := by
  rcases getSignal_cases h with ⟨hs, hr⟩ | ⟨hs, hkept⟩
  · exact iff_of_true hr hs
  · exact iff_of_false (not_right_of_kept (hkept blankData)) hs

/-! ## the attempts -/

/-- an attempt that stores a signal stores a real one, or the loop goes on; any other regular
attempt leaves the data as they are -/
theorem signalTry_cases {s t : Attempts} {a : Answer} (ht : signalTry s a = some t)
    (hreg : Regular a) :
    (Stores a ∧ (t.left → StoresReal a)) ∨
      (¬ Stores a ∧ ¬ StoresReal a ∧ (t.left ↔ s.data.signal.head? ≠ some '9')) := by
  unfold signalTry at ht
  split at ht
  next => cases ht
  next =>
    -- an attempt that stores nothing
    have hkept : ∀ r, nbIotGetSignal anywhere s.data a = some (r, s.data) →
        (t.left ↔ s.data.signal.head? ≠ some '9') := by
      intro r hr
      rw [hr] at ht
      cases ht
      exact decide_eq_true_iff
    cases a with
    | noMemory => exact Or.inr ⟨id, id, hkept rtError rfl⟩
    | returned i resp =>
      by_cases hi : i = rtEok
      · subst hi
        by_cases hok : (atRespGetLineByKw resp okLine).isSome
        · obtain ⟨ds, rest, h⟩ := hreg rfl hok
          rcases getSignal_cases h with ⟨hs, hr⟩ | ⟨hs, hall⟩
          · refine Or.inl ⟨⟨rfl, ds, rest, h, hs⟩, fun hleft => ?_⟩
            refine ⟨rfl, ds, rest, h, ?_, hr⟩
            intro h99
            rw [hr s.data, if_pos h99] at ht
            cases ht
            have hne : some '9' ≠ some '9' := of_decide_eq_true hleft
            exact hne rfl
          · refine Or.inr ⟨?_, ?_, hkept rtEok (hall s.data)⟩
            · rintro ⟨-, ds', rest', h', hs'⟩
              exact not_right_of_kept (hall blankData) ((signalRight_iff h').mpr hs')
            · rintro ⟨-, ds', rest', h', -, hr'⟩
              exact not_right_of_kept (hall blankData) hr'
        · refine Or.inr ⟨fun h => ?_, fun h => ?_, hkept rtEok ?_⟩
          · obtain ⟨-, ds, rest, h, -⟩ := h
            exact hok h.ok
          · obtain ⟨-, ds, rest, h, -⟩ := h
            exact hok h.ok
          · exact run_missing .signal anywhere s.data hok
      · refine Or.inr ⟨fun h => hi h.1, fun h => hi h.1, hkept rtError ?_⟩
        exact if_pos hi

/-- for a regular answer, what an attempt needs is what it owes -/
theorem heard_iff {s t : Attempts} {a : Answer} (ht : signalTry s a = some t) (hreg : Regular a) :
    Heard s a t ↔ LeavesRight s a t := by
  unfold Heard LeavesRight
  rcases signalTry_cases ht hreg with ⟨hs, hleft⟩ | ⟨hs, hno, hleft⟩
  · exact iff_of_true ⟨hreg, fun _ => Or.inl hs⟩ fun _ => hleft
  · constructor
    · rintro ⟨-, h⟩ hc hl
      exact absurd ((h hc).resolve_left hs) (hleft.mp hl)
    · intro h
      refine ⟨hreg, fun hc => Or.inr ?_⟩
      by_contra h9
      exact hno (h hc (hleft.mpr h9))

/-- **Which signals are stored, and how the loop is left.**  A signal is stored whatever was stored
before exactly if it is `Storable`; a run of which every attempt is heard is left before its tenth
attempt only behind a real signal, and of the regular runs no others are. -/
theorem signal_iff (resp : Resp) (ds rest : List Char) (d : NbData) (as : List Answer) :
    (CsqReply resp ds rest → (SignalRight resp (rssi ds) ↔ Storable ds)) ∧
    (Trace.Along signalTry Heard (signalInit d) as →
      Trace.Along signalTry LeavesRight (signalInit d) as) ∧
    ((∀ a ∈ as, Regular a) → (Trace.Along signalTry Heard (signalInit d) as ↔
      Trace.Along signalTry LeavesRight (signalInit d) as)) := by
  refine ⟨signalRight_iff, fun h => ?_, fun hreg => ?_⟩
  · refine h.imp_of_inv (I := fun _ => True) (fun s a t _ ht hh => ⟨?_, trivial⟩) trivial
    exact (heard_iff ht hh.1).mp hh
  · refine Trace.along_congr_of_mem (fun a ha s t ht => ?_) _
    exact heard_iff ht (hreg a ha)

/-- `+CSQ:30,99` and `OK` -/
def thirtyResp : Resp := respOf ["+CSQ:30,99\r".toList, "OK\r".toList]

theorem csqReply_thirty : CsqReply thirtyResp "30".toList "99\r".toList :=
  ⟨by decide, by decide, List.all_eq_true.mp (by decide), by decide⟩

/-- a timeout of the first attempt, with a 9 stored, and then a signal -/
theorem signal_iff_thirty :
    (SignalRight thirtyResp 30 ↔ Storable "30".toList) ∧
      Trace.Along signalTry LeavesRight (signalInit { blankData with signal := ['9', '9'] })
        [lateAnswer, .returned rtEok thirtyResp] := by
  have h := signal_iff thirtyResp "30".toList "99\r".toList { blankData with signal := ['9', '9'] }
    [lateAnswer, .returned rtEok thirtyResp]
  refine ⟨h.1 csqReply_thirty, h.2.1 fun _ _ => ⟨⟨?_, ?_⟩, fun _ _ => ⟨⟨?_, ?_⟩, trivial⟩⟩⟩
  · intro hi
    exact absurd hi (by decide)
  · exact fun _ => Or.inr rfl
  · exact fun _ _ => ⟨_, _, csqReply_thirty⟩
  · exact fun _ => Or.inl ⟨rfl, _, _, csqReply_thirty, Or.inr (by decide)⟩

/-- 21 is not stored, and behind a first timeout the loop is left with no signal at all -/
theorem signal_fails :
    (∃ resp rest, CsqReply resp "21".toList rest ∧ ¬ SignalRight resp 21) ∧
      ¬ Trace.Along signalTry LeavesRight (signalInit blankData) [lateAnswer] := by
  constructor
  · have h : CsqReply (respOf ["+CSQ:21,99\r".toList, "OK\r".toList]) "21".toList "99\r".toList :=
      ⟨by decide, by decide, List.all_eq_true.mp (by decide), by decide⟩
    exact ⟨_, _, h, not_right_of_kept (getSignal_two h blankData)⟩
  · intro h
    obtain ⟨h1, -⟩ := h _ rfl
    exact absurd (h1 (by decide) rfl).1 (by decide)

end ENV
