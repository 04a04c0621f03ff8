import Mathlib.Algebra.Ring.Nat
import Mathlib.Data.List.Basic
import Mathlib.Data.List.TakeWhile
import Mathlib.Tactic.Common

/-!
# Settings

`settings.h`: the radio tuning, the device settings with their validation
rules, and the persistence they are kept in.
-/
namespace MeshPigeon

/-- A `char[n]` that holds a C string: one of its bytes is the terminator. -/
abbrev CharArray (n : Nat) := { bs : List UInt8 // bs.length = n ∧ 0 ∈ bs }

/-- The bytes before the terminator. -/
def cstr (bs : List UInt8) : List UInt8 := bs.takeWhile (· ≠ 0)

namespace CharArray

def str {n : Nat} (a : CharArray n) : List UInt8 := cstr a.1

def strlen {n : Nat} (a : CharArray n) : Nat := a.str.length

/-- `strcmp(a, b) == 0` -/
def strEq {n : Nat} (a b : CharArray n) : Bool := a.str = b.str

/-- A string and zeros up to the end of the field. -/
def padded (n : Nat) (s : List UInt8) (fits : s.length < n) : CharArray n :=
  ⟨s ++ List.replicate (n - s.length) 0, by simp; omega, by simp; omega⟩

end CharArray

/-- Copy a C string into a field of `cap + 1` bytes: truncated, terminated and zero-padded. -/
def copyStr (cap : Nat) (src : List UInt8) : CharArray (cap + 1) :=
  CharArray.padded (cap + 1) ((cstr src).take cap) (Nat.lt_succ_of_le (List.length_take_le ..))

/-! ## Radio settings -/

structure RadioSettings where
  version : UInt8
  region : UInt8
  freqHz : UInt32
  /-- in 0.01 kHz units -/
  bwX100khz : UInt16
  sf : UInt8
  cr : UInt8
  powerDbm : UInt8
  configEpoch : UInt32
  deriving DecidableEq, Repr

def RadioSettings.unset : RadioSettings where
  version := 1
  region := 0
  freqHz := 869525000
  bwX100khz := 12500
  sf := 9
  cr := 5
  powerDbm := 14
  configEpoch := 0

/-! ## Device settings -/

abbrev kNameMax : Nat := 20
abbrev kPinMin : Nat := 4
abbrev kPinMax : Nat := 8
abbrev kSsidMax : Nat := 32
abbrev kPassMax : Nat := 63
def kWifiPortDefault : UInt16 := 5000

structure DeviceSettings where
  name : CharArray (kNameMax + 1)
  pin : CharArray (kPinMax + 1)
  wifiEnabled : Bool
  wifiSsid : CharArray (kSsidMax + 1)
  wifiPassword : CharArray (kPassMax + 1)
  wifiPort : UInt16
  deriving DecidableEq, Repr

namespace DeviceSettings

/-- "0000" -/
def kDefaultPin : List UInt8 := [0x30, 0x30, 0x30, 0x30]

def defaults : DeviceSettings where
  name := copyStr kNameMax []
  pin := copyStr kPinMax kDefaultPin
  wifiEnabled := false
  wifiSsid := copyStr kSsidMax []
  wifiPassword := copyStr kPassMax []
  wifiPort := kWifiPortDefault

def pinIsDefault (d : DeviceSettings) : Bool := d.pin.str = kDefaultPin

/-- `operator==` -/
def same (d o : DeviceSettings) : Bool :=
  d.name.strEq o.name && d.pin.strEq o.pin && d.wifiEnabled == o.wifiEnabled &&
    d.wifiSsid.strEq o.wifiSsid && d.wifiPassword.strEq o.wifiPassword && d.wifiPort == o.wifiPort

/-- Printable only; bytes from 0x80 on are left alone. -/
def validName (s : List UInt8) : Bool :=
  s.length ≤ kNameMax && s.all fun c => ¬(c < 0x20 ∨ c = 0x7F)

/-- A PIN value is 4 to 8 ASCII digits. -/
def validPin (s : List UInt8) : Bool :=
  kPinMin ≤ s.length && s.length ≤ kPinMax && s.all fun c => ¬(c < 0x30 ∨ c > 0x39)

/-- A PIN, or the empty string, which restores the default. -/
def validPinSet (s : List UInt8) : Bool := s.length = 0 || validPin s

/-- Bounded by `validPinSet`. -/
def setPin (s : List UInt8) : CharArray (kPinMax + 1) :=
  copyStr kPinMax (if s = [] then kDefaultPin else s)

def validSsid (s : List UInt8) : Bool := s.length ≤ kSsidMax
def validPassword (s : List UInt8) : Bool := s.length ≤ kPassMax
def validPort (port : UInt32) : Bool := port ≠ 0 && port ≤ 0xFFFF

end DeviceSettings

/-! ## Persistence -/

/-- `SettingsStore`: what a board offers to keep the two records in. A load
answers `none` when the record was never written. -/
class SettingsStore (σ : Type) where
  save : σ → RadioSettings → σ
  load : σ → Option RadioSettings
  saveDevice : σ → DeviceSettings → σ
  loadDevice : σ → DeviceSettings
  clearDevice : σ → σ

/-- The in-memory store of the tests and the simulator. -/
structure MemorySettingsStore where
  saved : Option RadioSettings := none
  savedDevice : Option DeviceSettings := none
  deriving DecidableEq, Repr

instance : SettingsStore MemorySettingsStore where
  save s r := { s with saved := some r }
  load s := s.saved
  saveDevice s d := { s with savedDevice := some d }
  loadDevice s := s.savedDevice.getD DeviceSettings.defaults
  clearDevice s := { s with savedDevice := none }

/-! ## Strings in their fields -/

theorem cstr_clean {s : List UInt8} (h : 0 ∉ s) : cstr s = s := by
  apply List.takeWhile_eq_self_iff.mpr
  intro c hc
  exact decide_eq_true fun zero => h (zero ▸ hc)

theorem zero_not_mem_cstr (s : List UInt8) : 0 ∉ cstr s := by
  intro h
  have := List.mem_takeWhile_imp h
  simp at this

@[simp] theorem cstr_cstr (s : List UInt8) : cstr (cstr s) = cstr s :=
  cstr_clean (zero_not_mem_cstr s)

theorem cstr_append_zero {s t : List UInt8} (h : 0 ∉ s) : cstr (s ++ 0 :: t) = s := by
  unfold cstr
  rw [List.takeWhile_append_of_pos]
  · simp
  · intro c hc
    exact decide_eq_true fun zero => h (zero ▸ hc)

theorem CharArray.str_padded {n : Nat} {s : List UInt8} (fits : s.length < n) (h : 0 ∉ s) :
    (CharArray.padded n s fits).str = s := by
  have room : List.replicate (n - s.length) (0 : UInt8) =
      0 :: List.replicate (n - s.length - 1) 0 := by
    rw [← List.replicate_succ, Nat.sub_add_cancel (by omega)]
  show cstr (s ++ List.replicate (n - s.length) 0) = s
  rw [room, cstr_append_zero h]

theorem str_copyStr (cap : Nat) (src : List UInt8) :
    (copyStr cap src).str = (cstr src).take cap :=
  CharArray.str_padded _ fun zero => zero_not_mem_cstr src (List.mem_of_mem_take zero)

theorem CharArray.strlen_lt {n : Nat} (a : CharArray n) : a.strlen < n := by
  obtain ⟨bs, len, zero⟩ := a
  subst len
  apply Nat.lt_of_le_of_ne (List.takeWhile_sublist _).length_le
  intro all
  have whole : cstr bs = bs := (List.takeWhile_sublist _).eq_of_length all
  rw [← whole] at zero
  exact zero_not_mem_cstr bs zero

theorem CharArray.take_strlen {n : Nat} (a : CharArray n) : a.1.take a.strlen = a.str := by
  have split : a.str ++ a.1.dropWhile (· ≠ 0) = a.1 := List.takeWhile_append_dropWhile
  calc a.1.take a.strlen = (a.str ++ a.1.dropWhile (· ≠ 0)).take a.str.length := by rw [split]; rfl
    _ = a.str := List.take_left' rfl

/-- A string ends where its terminator stands. -/
theorem CharArray.str_eq_iff {n : Nat} (a : CharArray n) {s : List UInt8} (clean : 0 ∉ s)
    (short : s.length < n) : a.str = s ↔ a.1.take s.length = s ∧ a.1.getD s.length 0 = 0 := by
  have inside : s.length < a.1.length := by rw [a.2.1]; exact short
  have split : a.1 = a.1.take s.length ++ a.1[s.length] :: a.1.drop (s.length + 1) := by
    rw [← List.drop_eq_getElem_cons inside, List.take_append_drop]
  rw [List.getD_eq_getElem?_getD, List.getElem?_eq_getElem inside, Option.getD_some]
  constructor
  · rintro rfl
    refine ⟨a.take_strlen, ?_⟩
    apply Classical.byContradiction
    intro more
    have longer : a.str = a.str ++ cstr (a.1[a.str.length] :: a.1.drop (a.str.length + 1)) := by
      have taken := a.take_strlen
      unfold strlen at taken
      rw [taken] at split
      calc a.str = cstr (a.str ++ a.1[a.str.length] :: a.1.drop (a.str.length + 1)) := by
            rw [← split]; rfl
        _ = _ := List.takeWhile_append_of_pos fun c hc => decide_eq_true fun zero => clean (zero ▸ hc)
    have grown := congrArg List.length longer
    rw [cstr, List.takeWhile_cons_of_pos (by simpa using more)] at grown
    simp at grown
  · rintro ⟨taken, last⟩
    rw [taken, last] at split
    calc a.str = cstr (s ++ 0 :: a.1.drop (s.length + 1)) := by rw [← split]; rfl
      _ = s := cstr_append_zero clean

theorem DeviceSettings.pinIsDefault_iff (d : DeviceSettings) :
    d.pinIsDefault = true ↔ d.pin.str = kDefaultPin := decide_eq_true_iff

theorem DeviceSettings.defaults_pinIsDefault : defaults.pinIsDefault = true := by decide

theorem DeviceSettings.validPinSet_clean {s : List UInt8} (h : validPinSet s = true) :
    0 ∉ s ∧ s.length ≤ kPinMax := by
  simp only [validPinSet, validPin, Bool.or_eq_true, Bool.and_eq_true, decide_eq_true_eq,
    List.all_eq_true] at h
  rcases h with empty | ⟨⟨_, short⟩, digits⟩
  · rw [List.length_eq_zero_iff.mp empty]
    exact ⟨by simp, by decide⟩
  · refine ⟨fun zero => ?_, short⟩
    exact absurd (digits 0 zero) (by decide)

/-- A validated PIN is what the field then holds. -/
theorem DeviceSettings.str_setPin {s : List UInt8} (h : validPinSet s = true) :
    (setPin s).str = if s = [] then kDefaultPin else s := by
  obtain ⟨clean, short⟩ := validPinSet_clean h
  rw [setPin, str_copyStr]
  split
  · rfl
  · rw [cstr_clean clean, List.take_of_length_le short]

end MeshPigeon
