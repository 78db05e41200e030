/-!
# Types and error codes of the kernel (`rtdef.h`), names of the mailboxes
-/

namespace ENV

/-- `rt_uint8_t` -/
abbrev Byte := BitVec 8
/-- `rt_uint16_t` and the bit pattern of an `rt_int16_t` -/
abbrev Word := BitVec 16
/-- `rt_ubase_t`, what a mailbox stores -/
abbrev Mail := BitVec 32

/-- the two mailboxes of the station, `iot_mb` and `led_mb` -/
inductive Mb where
  | iot
  | led
deriving DecidableEq

/-- `rt_err_t`; the kernel returns the codes negated, the drivers as they are -/
abbrev RtErr := Int
def rtEok : RtErr := 0
def rtError : RtErr := 1
def rtEtimeout : RtErr := 2
def rtEfull : RtErr := 3

theorem rtError_ne_rtEok : rtError ≠ rtEok := by decide
theorem neg_rtEfull_ne_rtEok : -rtEfull ≠ rtEok := by decide

end ENV
