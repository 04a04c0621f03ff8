import MeshPigeon.Core.Reboot
import MeshPigeon.Lib.Files

/-!
# The nRF52's records on its file system

`BoardSettingsStore` of `main.cpp` over LittleFS, down to the steps of
`write_record`, and what a power cut can do to the three records.
-/
namespace MeshPigeon

open Files (Disk Step Cut exec replace)
open LittleEndian

/-- "/tmp.bin", "/radio.bin", "/boots.bin" and "/dev.bin". -/
inductive RecordPath where
  | tmp
  | radio
  | boots
  | dev
  deriving DecidableEq, Repr

abbrev Flash := Disk RecordPath UInt8

/-! ## Reading -/

namespace Flash

def load (f : Flash) : Option RadioSettings := do
  let file ← f .radio
  let buf ← fileRead RadioSettings.kSerializedSize file
  RadioSettings.deserialize buf

/-- A missing or short file counts as no boot. -/
def loadBootCount (f : Flash) : UInt32 :=
  (do
    let file ← f .boots
    let buf ← fileRead 4 file
    some (UInt32.ofNat (get buf)) : Option UInt32).getD 0

def loadDevice (f : Flash) : DeviceSettings :=
  (do
    let file ← f .dev
    let buf ← fileRead DeviceSettings.kSerializedSize file
    DeviceSettings.deserialize buf : Option DeviceSettings).getD DeviceSettings.defaults

end Flash

/-! ## Writing -/

/-- What the file system answers to one `write_record`. -/
structure FileAnswers where
  opened : Bool := true
  /-- how many of the bytes `write` takes -/
  taken : Nat
  renamed : Bool := true

/-- The steps that take effect, and what is returned. -/
def writeRecord (fs : FileAnswers) (path : RecordPath) (buf : List UInt8) :
    List (Step RecordPath UInt8) × Bool :=
  if !fs.opened then ([.remove .tmp], false)
  else
    let draft := [.remove .tmp, .openAppend .tmp, .write .tmp (buf.take fs.taken), .close .tmp]
    let ok := min fs.taken buf.length = buf.length
    if ok && fs.renamed then (draft ++ [.rename .tmp path], true) else (draft, false)

/-- A call on the store. -/
inductive StoreOp where
  | save (s : RadioSettings)
  | saveDevice (d : DeviceSettings)
  | saveBootCount (n : UInt32)
  | clearDevice

/-- `save_boot_count` and `clear_device` return nothing. -/
def StoreOp.steps (fs : FileAnswers) : StoreOp → List (Step RecordPath UInt8) × Bool
  | .save s => writeRecord fs .radio s.serialize
  | .saveDevice d => writeRecord fs .dev d.serialize
  | .saveBootCount n => writeRecord fs .boots (put 4 n.toNat)
  | .clearDevice => ([.remove .dev], true)

/-- A call that ends, or one that the power is cut in. -/
inductive StoreTurn where
  | ends (op : StoreOp) (fs : FileAnswers)
  | cut (op : StoreOp) (fs : FileAnswers) (done : List (Step RecordPath UInt8))
    (h : Cut (op.steps fs).1 done)

def StoreTurn.steps : StoreTurn → List (Step RecordPath UInt8)
  | .ends op fs => (op.steps fs).1
  | .cut _ _ done _ => done

/-- The flash after calls in a row, each cut followed by a boot. -/
def Flash.after (f : Flash) (turns : List StoreTurn) : Flash :=
  turns.foldl (fun f t => exec f t.steps) f

/-! ## What is read back -/

/-- What the next boot loads. -/
structure Loaded where
  radio : Option RadioSettings
  boots : UInt32
  dev : DeviceSettings
  deriving DecidableEq, Repr

def Flash.loaded (f : Flash) : Loaded := ⟨f.load, f.loadBootCount, f.loadDevice⟩

/-- A call as its effect on what is loaded: the record it is about gets the value written. -/
def StoreOp.apply (l : Loaded) : StoreOp → Loaded
  | .save s => { l with radio := RadioSettings.deserialize s.serialize }
  | .saveDevice d =>
    { l with dev := (DeviceSettings.deserialize d.serialize).getD DeviceSettings.defaults }
  | .saveBootCount n => { l with boots := n }
  | .clearDevice => { l with dev := DeviceSettings.defaults }

namespace Flash

/-- The temporary file is never loaded. -/
theorem loaded_congr {f g : Flash} (same : ∀ q, q ≠ RecordPath.tmp → g q = f q) :
    g.loaded = f.loaded := by
  simp [loaded, load, loadBootCount, loadDevice, same]

end Flash

/-- Everything went well. -/
structure FileAnswers.Good (fs : FileAnswers) (buf : List UInt8) : Prop where
  opened : fs.opened = true
  whole : buf.length ≤ fs.taken
  renamed : fs.renamed = true

theorem writeRecord_good {fs : FileAnswers} {buf : List UInt8} (good : fs.Good buf)
    (path : RecordPath) : writeRecord fs path buf = (replace .tmp path buf, true) := by
  obtain ⟨opened, whole, renamed⟩ := good
  simp [writeRecord, opened, whole, renamed, List.take_of_length_le, replace]

/-- The record is replaced and true is returned, or only the temporary file was touched. -/
theorem writeRecord_cases (fs : FileAnswers) (path : RecordPath) (buf : List UInt8) :
    fs.Good buf ∧ writeRecord fs path buf = (replace .tmp path buf, true) ∨
    ¬fs.Good buf ∧ (writeRecord fs path buf).2 = false ∧
      ∀ s ∈ (writeRecord fs path buf).1, s.Within .tmp := by
  by_cases good : fs.Good buf
  · exact .inl ⟨good, writeRecord_good good path⟩
  · right
    by_cases opened : fs.opened = true
    · have failed : (decide (min fs.taken buf.length = buf.length) && fs.renamed) = false := by
        rw [Bool.and_eq_false_iff, decide_eq_false_iff_not]
        by_contra both
        rw [not_or, not_not, Bool.not_eq_false] at both
        exact good ⟨opened, by omega, both.2⟩
      have written : writeRecord fs path buf = ([.remove .tmp, .openAppend .tmp,
          .write .tmp (buf.take fs.taken), .close .tmp], false) := by
        unfold writeRecord
        rw [opened, if_neg (by decide)]
        dsimp only
        rw [failed, if_neg (by decide)]
      rw [written]
      exact ⟨good, rfl, Files.draft_within RecordPath.tmp (buf.take fs.taken)⟩
    · have written : writeRecord fs path buf = ([.remove .tmp], false) := by
        unfold writeRecord
        rw [Bool.eq_false_iff.mpr opened]
        rfl
      rw [written]
      refine ⟨good, rfl, fun s hs => ?_⟩
      rw [List.mem_singleton.mp hs]
      exact .remove

/-! ## The three records -/

namespace Flash

variable {f g : Flash}

theorem load_write {s : RadioSettings} (written : g .radio = some s.serialize) :
    g.load = RadioSettings.deserialize s.serialize := by
  simp only [load, written, Option.bind_eq_bind, Option.bind_some,
    fileRead_whole _ _ s.length_serialize]

theorem loadDevice_write {d : DeviceSettings} (written : g .dev = some d.serialize) :
    g.loadDevice = (DeviceSettings.deserialize d.serialize).getD DeviceSettings.defaults := by
  simp only [loadDevice, written, Option.bind_eq_bind, Option.bind_some,
    fileRead_whole _ _ d.length_serialize]

theorem loadBootCount_write {n : UInt32} (written : g .boots = some (put 4 n.toNat)) :
    g.loadBootCount = n := by
  simp only [loadBootCount, written, Option.bind_eq_bind, Option.bind_some,
    fileRead_whole _ _ (length_put 4 _), uint32_roundtrip, Option.getD_some]

end Flash

namespace StoreOp

/-- The record a call is about, and what it is to hold. -/
def path : StoreOp → RecordPath
  | save _ => .radio
  | saveDevice _ => .dev
  | saveBootCount _ => .boots
  | clearDevice => .dev

def content : StoreOp → Option (List UInt8)
  | save s => some s.serialize
  | saveDevice d => some d.serialize
  | saveBootCount n => some (put 4 n.toNat)
  | clearDevice => none

/-- The flash with the record replaced. -/
def written (f : Flash) (op : StoreOp) : Flash := Function.update f op.path op.content

theorem loaded_written (f : Flash) (op : StoreOp) :
    Flash.loaded (op.written f) = op.apply f.loaded := by
  have own : op.written f op.path = op.content := Function.update_self ..
  have other {q : RecordPath} (h : q ≠ op.path) : op.written f q = f q := Function.update_of_ne h ..
  generalize op.written f = g at own other ⊢
  cases op with
  | save s =>
    rw [Flash.loaded, Flash.load_write own, Flash.loadBootCount, Flash.loadDevice,
      other (by simp [path]), other (by simp [path])]
    rfl
  | saveDevice d =>
    rw [Flash.loaded, Flash.loadDevice_write own, Flash.load, Flash.loadBootCount,
      other (by simp [path]), other (by simp [path])]
    rfl
  | saveBootCount n =>
    rw [Flash.loaded, Flash.loadBootCount_write own, Flash.load, Flash.loadDevice,
      other (by simp [path]), other (by simp [path])]
    rfl
  | clearDevice =>
    have gone : g .dev = none := own
    rw [Flash.loaded, Flash.load, Flash.loadBootCount, Flash.loadDevice, gone,
      other (by simp [path]), other (by simp [path])]
    rfl

/-- The three shapes of a call: a replacement, a removal, and a failure that
touches the temporary file only. -/
inductive Shape (op : StoreOp) (fs : FileAnswers) : Prop where
  | replaces {buf : List UInt8} : op.content = some buf → fs.Good buf →
      op.steps fs = (replace .tmp op.path buf, true) → Shape op fs
  | removes : op.content = none → op.steps fs = ([.remove op.path], true) → Shape op fs
  | fails {buf : List UInt8} : op.content = some buf → ¬fs.Good buf → (op.steps fs).2 = false →
      (∀ s ∈ (op.steps fs).1, s.Within .tmp) → Shape op fs

theorem shape (op : StoreOp) (fs : FileAnswers) : Shape op fs := by
  have record {buf : List UInt8} (content : op.content = some buf)
      (steps : op.steps fs = writeRecord fs op.path buf) : Shape op fs := by
    rcases writeRecord_cases fs op.path buf with ⟨good, done⟩ | ⟨bad, failed, within⟩
    · exact .replaces content good (steps.trans done)
    · rw [← steps] at failed within
      exact .fails content bad failed within
  cases op with
  | save s => exact record rfl rfl
  | saveDevice d => exact record rfl rfl
  | saveBootCount n => exact record rfl rfl
  | clearDevice => exact .removes rfl rfl

/-- The replacement leaves the temporary file out of account. -/
theorem exec_replaces (f : Flash) {op : StoreOp} {buf : List UInt8}
    (content : op.content = some buf) :
    Flash.loaded (exec f (replace .tmp op.path buf)) = op.apply f.loaded := by
  rw [← loaded_written, Files.exec_replace]
  apply Flash.loaded_congr
  intro q temporary
  unfold written
  rw [content]
  by_cases own : q = op.path
  · rw [own, Function.update_self, Function.update_self]
  · rw [Function.update_of_ne own, Function.update_of_ne own, Function.update_of_ne temporary]

/-- A call that ends either succeeds, its record replaced, or fails and is not noticed. -/
theorem ends (f : Flash) (op : StoreOp) (fs : FileAnswers) :
    ((op.steps fs).2 = true → Flash.loaded (exec f (op.steps fs).1) = op.apply f.loaded) ∧
    ((op.steps fs).2 = false → Flash.loaded (exec f (op.steps fs).1) = f.loaded) := by
  cases op.shape fs with
  | replaces content good steps =>
    rw [steps]
    exact ⟨fun _ => exec_replaces f content, by simp⟩
  | removes content steps =>
    rw [steps]
    refine ⟨fun _ => ?_, by simp⟩
    rw [← loaded_written, written, content]
    rfl
  | fails content bad failed within =>
    rw [failed]
    exact ⟨by simp, fun _ => Flash.loaded_congr fun q other => Files.exec_within within f other⟩

/-- A call that is cut: every record is as before, or its own is as after. -/
theorem cut (f : Flash) {op : StoreOp} {fs : FileAnswers} {done : List (Step RecordPath UInt8)}
    (h : Cut (op.steps fs).1 done) :
    Flash.loaded (exec f done) = f.loaded ∨ Flash.loaded (exec f done) = op.apply f.loaded := by
  cases op.shape fs with
  | replaces content good steps =>
    rw [steps] at h
    rcases Files.replace_cut h with before | after
    · exact .inl (Flash.loaded_congr before)
    · right
      rw [after]
      exact exec_replaces f content
  | removes content steps =>
    rw [steps] at h
    rcases h.remove with rfl | rfl
    · exact .inl rfl
    · right
      rw [← loaded_written, written, content]
      rfl
  | fails content bad failed within =>
    exact .inl (Flash.loaded_congr fun q other => Files.exec_within (h.within within) f other)

end StoreOp

/-- The record the processor keeps is the flash seen through its two files. -/
def Flash.settings (f : Flash) : BoardSettingsStore fileRead := ⟨f .radio, f .dev⟩

/-- What succeeds here is what the settings store of the processor does. -/
theorem Flash.settings_refines (f : Flash) (fs : FileAnswers) :
    f.load = SettingsStore.load f.settings ∧ f.loadDevice = SettingsStore.loadDevice f.settings ∧
    (∀ s, fs.Good s.serialize → Flash.settings (exec f ((StoreOp.save s).steps fs).1) =
      SettingsStore.save f.settings s) ∧
    (∀ d, fs.Good d.serialize → Flash.settings (exec f ((StoreOp.saveDevice d).steps fs).1) =
      SettingsStore.saveDevice f.settings d) ∧
    Flash.settings (exec f (StoreOp.clearDevice.steps fs).1) =
      SettingsStore.clearDevice f.settings := by
  refine ⟨rfl, rfl, fun s good => ?_, fun d good => ?_, ?_⟩
  · rw [StoreOp.steps, writeRecord_good good, Files.exec_replace]
    rfl
  · rw [StoreOp.steps, writeRecord_good good, Files.exec_replace]
    rfl
  · rfl

theorem Flash.after_concat (f : Flash) (turns : List StoreTurn) (t : StoreTurn) :
    f.after (turns ++ [t]) = exec (f.after turns) t.steps := by
  rw [after, List.foldl_append]
  rfl

/-- **The records survive a power cut.** After any calls and cuts on any flash: a
call that succeeds gives its record the value written, one that fails is not
noticed, and one that is cut leaves everything as before or as after it. A record
is only reported written when it was opened, wholly taken and renamed, and what
is written is what is then loaded. -/
theorem records_survive_power_cut (f : Flash) (before : List StoreTurn) :
    let g := f.after before
    (∀ op fs, let h := f.after (before ++ [.ends op fs])
      ((op.steps fs).2 = true → h.loaded = op.apply g.loaded) ∧
      ((op.steps fs).2 = false → h.loaded = g.loaded)) ∧
    (∀ op fs done cut, let h := f.after (before ++ [.cut op fs done cut])
      h.loaded = g.loaded ∨ h.loaded = op.apply g.loaded) ∧
    (∀ (op : StoreOp) (fs : FileAnswers) buf, op.content = some buf →
      ((op.steps fs).2 = true ↔ fs.Good buf)) ∧
    ∀ l : Loaded,
      (∀ s, s.version = kSerializedVersion →
        (StoreOp.save s).apply l = { l with radio := some s }) ∧
      (∀ d, d.Closed → (StoreOp.saveDevice d).apply l = { l with dev := d }) ∧
      (∀ n, (StoreOp.saveBootCount n).apply l = { l with boots := n }) ∧
      StoreOp.clearDevice.apply l = { l with dev := DeviceSettings.defaults } := by
  refine ⟨fun op fs => ?_, fun op fs done cut => ?_, fun op fs buf content => ?_, fun l =>
    ⟨fun s version => ?_, fun d closed => ?_, fun n => rfl, rfl⟩⟩
  · rw [Flash.after_concat]
    exact op.ends (f.after before) fs
  · rw [Flash.after_concat]
    exact StoreOp.cut (f.after before) cut
  · cases op.shape fs with
    | replaces content' good steps =>
      obtain rfl := Option.some.inj (content.symm.trans content')
      rw [steps]
      exact iff_of_true rfl good
    | removes none steps =>
      rw [content] at none
      cases none
    | fails content' bad failed _ =>
      obtain rfl := Option.some.inj (content.symm.trans content')
      rw [failed]
      exact iff_of_false (by decide) bad
  · rw [StoreOp.apply, RadioSettings.deserialize_serialize version]
  · rw [StoreOp.apply, DeviceSettings.deserialize_serialize closed]
    rfl

end MeshPigeon
