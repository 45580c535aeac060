import Mathlib.Data.List.DropRight
import NanoHat.Hal.UbusHal

/-!
# The list of monitored services

`service_config_init` of `service_config.c`, for an arbitrary value of `MONITORED_SERVICES`. The
configuration is the list of the names stored, in the order of the array.
-/

namespace NanoHat

open UbusHal

/-- `MAX_MONITORED_SERVICES`. -/
abbrev maxMonitoredServices : ℕ := 8

/-- `SERVICE_NAME_MAX_LEN`. -/
abbrev serviceNameMaxLen : ℕ := 32

namespace ServiceConfig

/-- The blanks that are stripped from a token. -/
def isBlank (c : Char) : Bool := c = ' ' || c = '\t'

/-- The tokens that repeated calls of `strtok_r` yield: the nonempty pieces between commas. -/
def strtok (s : CStr) : List CStr := (s.splitOn ',').filter (· ≠ [])

/-- One turn of the loop of `service_config_init`, which stops when the array is full. -/
def addToken (services : List CStr) (token : CStr) : List CStr :=
  if services.length < maxMonitoredServices then
    let name := (token.dropWhile isBlank).rdropWhile isBlank
    if 0 < name.length ∧ name.length < serviceNameMaxLen then
      services ++ [strncpy serviceNameMaxLen name]
    else services
  else services

end ServiceConfig

open ServiceConfig

/-- `service_config_init`. -/
def serviceConfigInit (servicesStr : CStr) : List CStr :=
  (strtok (strncpy 256 servicesStr)).foldl addToken []

namespace ServiceConfig

/-- What every configuration satisfies: it fits the array, and every name fits its entry. -/
structure Valid (services : List CStr) : Prop where
  length : services.length ≤ maxMonitoredServices
  name : ∀ name ∈ services, 0 < name.length ∧ name.length < serviceNameMaxLen

theorem Valid.addToken {services : List CStr} (h : Valid services) (token : CStr) :
    Valid (addToken services token) := by
  simp only [ServiceConfig.addToken]
  split
  · split
    · rename_i hlt hname
      refine ⟨by rw [List.length_append]; exact Nat.succ_le_of_lt hlt, fun name hm => ?_⟩
      rcases List.mem_append.1 hm with hm | hm
      · exact h.name name hm
      · rw [List.mem_singleton.1 hm, strncpy, List.length_take]
        omega
    · exact h
  · exact h

theorem Valid.foldl {services : List CStr} (h : Valid services) (tokens : List CStr) :
    Valid (tokens.foldl ServiceConfig.addToken services) := by
  induction tokens generalizing services with
  | nil => exact h
  | cons token tokens ih => exact ih (h.addToken token)

theorem valid_serviceConfigInit (servicesStr : CStr) : Valid (serviceConfigInit servicesStr) :=
  Valid.foldl ⟨Nat.zero_le _, by simp⟩ _

end ServiceConfig

end NanoHat
