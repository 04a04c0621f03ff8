import MeshPigeon.Radio.Agreement

/-!
# The part behind the driver

What a retune leaves of the tuning the part was on when one of the driver calls
fails half way. A setter takes effect and succeeds, or fails and changes
nothing; `standby` ends receiving. What a failed `standby` does is left open.
-/
namespace MeshPigeon

/-- The parameters a part is set to, and whether it is receiving on them. -/
structure Part where
  freqHz : UInt32
  bwX100khz : UInt16
  sf : UInt8
  cr : UInt8
  preambleLength : Nat
  powerDbm : Int8
  crcLen : UInt8
  receiving : Bool
  deriving DecidableEq, Repr

namespace Part

/-- A part that is receiving on a tuning. -/
def listening (t : Traits) (s : RadioSettings) : Part where
  freqHz := s.freqHz
  bwX100khz := s.bwX100khz
  sf := s.sf
  cr := s.cr
  preambleLength := if s.sf ≤ 8 then 32 else 16
  powerDbm := s.powerDbm.toInt8
  crcLen := t.crcLen
  receiving := true

/-- The part after a command that succeeded. -/
def obey (m : Part) : Command → Part
  | .setFrequency freqHz => { m with freqHz }
  | .setBandwidth bwX100khz => { m with bwX100khz }
  | .setSpreadingFactor sf => { m with sf }
  | .setCodingRate cr => { m with cr }
  | .setPreambleLength preambleLength => { m with preambleLength }
  | .setOutputPower powerDbm => { m with powerDbm }
  | .setCrc crcLen => { m with crcLen }
  | .startReceive => { m with receiving := true }
  | .standby | .startTransmit _ | .finishTransmit => { m with receiving := false }
  | .readData _ => m

/-- The part after a call; `kept` says whether a failed `standby` leaves it receiving. -/
def answer (kept : Bool) (m : Part) : DriverCall → Part
  | .command c state =>
    if state = 0 then m.obey c
    else if c = .standby then { m with receiving := m.receiving && kept }
    else m
  | _ => m

def after (kept : Bool) (m : Part) (calls : List DriverCall) : Part := calls.foldl (answer kept) m

variable {kept : Bool} {m : Part}

theorem after_cons (c : DriverCall) (calls : List DriverCall) :
    m.after kept (c :: calls) = (m.answer kept c).after kept calls := rfl

theorem answer_ok {d : Driver} {c : Command} (ok : d.status c = 0) :
    m.answer kept (d.call c) = m.obey c := if_pos ok

/-- A part that does not receive goes on not receiving, but for `startReceive`. -/
theorem answer_deaf (deaf : m.receiving = false) (d : Driver) {c : Command}
    (other : c ≠ .startReceive ∨ d.status c ≠ 0) :
    (m.answer kept (d.call c)).receiving = false := by
  unfold Driver.call answer
  dsimp only
  split
  · rename_i ok
    cases c with
    | startReceive => exact absurd ok (other.resolve_left (absurd rfl))
    | standby | startTransmit raw | finishTransmit => rfl
    | _ => exact deaf
  · split
    · rw [deaf]
      rfl
    · exact deaf

/-- A sequence that fails before the part receives again. -/
theorem after_deaf (deaf : m.receiving = false) (d : Driver) {setters : List Command}
    (others : ∀ c ∈ setters, c ≠ .startReceive)
    (failed : (d.calls (setters ++ [.startReceive])).2 = false) :
    (m.after kept (d.calls (setters ++ [.startReceive])).1).receiving = false := by
  induction setters generalizing m with
  | nil =>
    rw [List.nil_append, Driver.calls] at failed ⊢
    split at failed
    · rename_i refused
      rw [if_pos refused]
      exact answer_deaf deaf d (.inr refused)
    · cases failed
  | cons c setters ih =>
    have here : (m.answer kept (d.call c)).receiving = false :=
      answer_deaf deaf d (.inl (others c List.mem_cons_self))
    rw [List.cons_append, Driver.calls] at failed ⊢
    split at failed
    · rename_i refused
      rw [if_pos refused]
      exact here
    · rename_i done
      rw [if_neg done, after_cons]
      exact ih here (fun c hc => others c (List.mem_cons_of_mem _ hc)) failed

end Part

namespace LoraRadio

variable {kept : Bool} {m : Part} {t : Traits} {d : Driver} {p : LoraRadio} {s : RadioSettings}

theorem apply_done_iff (free : p.txStarted = false) :
    (p.apply t d s).result = true ↔ ∀ c ∈ tuning t s, d.status c = 0 := by
  rw [apply, free]
  show (d.calls (tuning t s)).2 = true ↔ _
  rw [calls_result, List.all_eq_true]
  simp only [decide_eq_true_eq]

/-- A tuning that is refused at `standby` has not touched the parameters. -/
theorem apply_standby (free : p.txStarted = false) (refused : d.standby ≠ 0) :
    m.after kept (p.apply t d s).calls = { m with receiving := m.receiving && kept } := by
  have first : d.calls (tuning t s) = ([d.call .standby], false) := if_pos refused
  rw [apply, free]
  show m.after kept (d.calls (tuning t s)).1 = _
  rw [first]
  exact if_neg refused

/-- A tuning that is refused later leaves the part deaf. -/
theorem apply_deaf (free : p.txStarted = false) (left : d.standby = 0)
    (refused : (p.apply t d s).result = false) :
    (m.after kept (p.apply t d s).calls).receiving = false := by
  obtain ⟨setters, split, others⟩ : ∃ setters, tuning t s = .standby :: (setters ++ [.startReceive]) ∧
      ∀ c ∈ setters, c ≠ .startReceive :=
    ⟨(tuning t s).tail.dropLast, rfl, by simp [tuning]⟩
  have first : d.calls (tuning t s) =
      (d.call .standby :: (d.calls (setters ++ [.startReceive])).1,
        (d.calls (setters ++ [.startReceive])).2) := by
    rw [split, Driver.calls]
    exact if_neg (not_not.mpr left)
  rw [apply, free] at refused ⊢
  change (d.calls (tuning t s)).2 = false at refused
  show (m.after kept (d.calls (tuning t s)).1).receiving = false
  have stood : m.answer kept (d.call .standby) = { m with receiving := false } :=
    Part.answer_ok (c := .standby) left
  rw [first] at refused ⊢
  rw [Part.after_cons, stood]
  exact Part.after_deaf rfl d others refused

end LoraRadio

/-! ## What the processor says meanwhile -/

namespace CommandProcessor

variable {σ : Type} [SettingsStore σ]

/-- Where the radio was asked and refuses, TX_FAILED is answered and the tuning
reported stays. -/
theorem setRadioSettings_asked {s : CommandProcessor σ} {env : Env} {id : UInt32}
    {settings : Option RadioSettingsMessage} {sink : Sink} {tuning : RadioSettings}
    (asked : .radioApply tuning ∈ (s.handleSetRadioSettings env id settings sink).acts)
    (refused : env.applyOk = false) :
    s.handleSetRadioSettings env id settings sink =
      { state := { s with response := ⟨id, .error .txFailed []⟩ }
        acts := [.radioApply tuning, .frame [sink] ⟨id, .error .txFailed []⟩] } := by
  have unasked (code : ErrorCode) : .radioApply tuning ∉ (s.sendError id code sink).acts := by
    rw [sendError_eq]
    simp [answer]
  unfold handleSetRadioSettings requireAuth at asked ⊢
  split at asked
  · rename_i authorized
    rw [if_pos authorized]
    cases settings with
    | none => exact absurd asked (unasked _)
    | some msg =>
      dsimp only at asked ⊢
      split at asked
      · exact absurd asked (unasked _)
      rename_i valid
      rw [if_neg valid]
      split at asked
      · exact absurd asked (unasked _)
      rename_i free
      rw [if_neg free]
      rw [refused] at asked ⊢
      have same : tuning = requestedTuning msg := by
        rcases List.mem_cons.mp asked with same | answered
        · exact (Act.radioApply.inj same)
        · exact absurd answered (unasked _)
      rw [same]
      rfl
  · exact absurd asked (unasked _)

end CommandProcessor

namespace RadioBoard

variable {σ : Type} {t : Traits}

theorem core_mem_perform {d : Driver} {p : LoraRadio} {acts : List Act} {a : Act}
    (seen : .core a ∈ (perform t d p acts).2) : a ∈ acts := by
  induction acts generalizing p with
  | nil => cases seen
  | cons a' acts ih =>
    rcases List.mem_append.mp seen with here | later
    · rcases List.mem_cons.mp here with same | called
      · rw [Seen.core.inj same]
        exact List.mem_cons_self
      · obtain ⟨c, _, call⟩ := List.mem_map.mp called
        cases call
    · exact List.mem_cons_of_mem _ (ih later)

variable [SettingsStore σ] {pbDecode : List UInt8 → Option ClientToRadio}

/-- A refused retune as the core and its log have it: TX_FAILED, and nothing changed. -/
structure ReportedKept (t : Traits) (b : RadioBoard σ) (d : Driver) (s : RadioSettings)
    (id : UInt32) (sink : Sink) (stepped : RadioBoard σ × List Seen) : Prop where
  core : stepped.1.core = { b.core with response := ⟨id, .error .txFailed []⟩ }
  log : stepped.2 = .core (.radioApply s) :: (b.radio.apply t d s).calls.map .driver ++
    [.core (.frame [sink] ⟨id, .error .txFailed []⟩)]

theorem reportedKept {b : RadioBoard σ} {d : Driver} {s : RadioSettings} {hooks : Option Hooks}
    {data : List UInt8} {sink : Sink} {req : ClientToRadio}
    {settings : Option RadioSettingsMessage}
    (decoded : CommandProcessor.decodeEnvelope pbDecode data = some req)
    (body : req.body = .setRadioSettings settings)
    (asked : .core (.radioApply s) ∈ (b.step pbDecode t (.envelope hooks data sink d)).2)
    (refused : (b.radio.apply t d s).result = false) :
    ReportedKept t b d s req.id sink (b.step pbDecode t (.envelope hooks data sink d)) := by
  have handled (env : Env) : b.core.step pbDecode (.envelope env data sink) =
      b.core.handleSetRadioSettings env req.id settings sink := by
    rw [CommandProcessor.step, CommandProcessor.onEnvelope, decoded]
    dsimp only
    rw [CommandProcessor.handleRequest, body]
  have answer : b.radio.applies t d = false := (b.radio.apply_result t d s).symm.trans refused
  rw [step] at asked ⊢
  dsimp only at asked ⊢
  rw [handled] at asked ⊢
  rw [CommandProcessor.setRadioSettings_asked (core_mem_perform asked) answer]
  refine ⟨rfl, ?_⟩
  simp only [perform, callRadio, List.map_nil, List.append_nil]

/-- **A refused retune keeps the tuning exactly when `standby` refuses it.** The
core answers TX_FAILED and goes on reporting the tuning it had. The part, which
was receiving on it, is unchanged whenever `apply` returns false if and only if
no driver call fails, or `standby` itself does and leaves the part receiving. -/
theorem refused_retune_keeps_iff (pbDecode : List UInt8 → Option ClientToRadio) (t : Traits)
    (b : RadioBoard σ) (free : b.radio.txStarted = false) (m : Part)
    (receiving : m.receiving = true) (kept : Bool) (d : Driver) (s : RadioSettings) :
    (((b.radio.apply t d s).result = false → m.after kept (b.radio.apply t d s).calls = m) ↔
      (∀ c ∈ LoraRadio.tuning t s, d.status c = 0) ∨ d.standby ≠ 0 ∧ kept = true) ∧
    ∀ hooks data sink req settings,
      CommandProcessor.decodeEnvelope pbDecode data = some req →
      req.body = .setRadioSettings settings →
      .core (.radioApply s) ∈ (b.step pbDecode t (.envelope hooks data sink d)).2 →
      (b.radio.apply t d s).result = false →
      ReportedKept t b d s req.id sink (b.step pbDecode t (.envelope hooks data sink d)) := by
  refine ⟨⟨?_, ?_⟩, ?_⟩
  · intro keeps
    by_cases done : (b.radio.apply t d s).result = true
    · exact .inl ((LoraRadio.apply_done_iff free).mp done)
    · right
      have refused := Bool.eq_false_iff.mpr done
      have same := congrArg Part.receiving (keeps refused)
      rw [receiving] at same
      by_cases left : d.standby = 0
      · rw [LoraRadio.apply_deaf free left refused] at same
        cases same
      · rw [LoraRadio.apply_standby free left, receiving] at same
        exact ⟨left, same⟩
  · intro condition refused
    rcases condition with done | ⟨stood, rfl⟩
    · rw [(LoraRadio.apply_done_iff free).mpr done] at refused
      cases refused
    · rw [LoraRadio.apply_standby free stood, Bool.and_true]
  · intro hooks data sink req settings decoded body asked refused
    exact reportedKept decoded body asked refused

/-! A part on 869.525 MHz is given a bandwidth of 100 kHz, which the core lets
through and the SX1262 lacks. -/

def wideTuning : RadioSettings :=
  { RadioSettings.unset with
    freqHz := 869525000, bwX100khz := 25000, sf := 11, cr := 5, powerDbm := 22 }

def oddTuning : RadioSettings :=
  { RadioSettings.unset with
    freqHz := 868000000, bwX100khz := 10000, sf := 9, cr := 5, powerDbm := 14 }

/-- `RADIOLIB_ERR_INVALID_BANDWIDTH` -/
def lacksBandwidth : Driver := { setBandwidth := -8 }

theorem refused_retune_deaf :
    (({} : LoraRadio).apply sampleTraits lacksBandwidth oddTuning).result = false ∧
    (Part.listening sampleTraits wideTuning).after true
        (({} : LoraRadio).apply sampleTraits lacksBandwidth oddTuning).calls =
      { Part.listening sampleTraits wideTuning with freqHz := 868000000, receiving := false } ∧
    ¬((({} : LoraRadio).apply sampleTraits lacksBandwidth oddTuning).result = false →
      (Part.listening sampleTraits wideTuning).after true
        (({} : LoraRadio).apply sampleTraits lacksBandwidth oddTuning).calls =
          Part.listening sampleTraits wideTuning) := by
  decide

theorem refused_retune_keeps_odd :
    (((({} : LoraRadio).apply sampleTraits lacksBandwidth oddTuning).result = false →
      (Part.listening sampleTraits wideTuning).after true
        (({} : LoraRadio).apply sampleTraits lacksBandwidth oddTuning).calls =
          Part.listening sampleTraits wideTuning) ↔
      (∀ c ∈ LoraRadio.tuning sampleTraits oddTuning, lacksBandwidth.status c = 0) ∨
        lacksBandwidth.standby ≠ 0 ∧ true = true) ∧
    ∀ hooks data sink req settings,
      CommandProcessor.decodeEnvelope CommandProcessor.sampleDecode data = some req →
      req.body = .setRadioSettings settings →
      .core (.radioApply oddTuning) ∈ ((⟨CommandProcessor.sampleBoot, {}⟩ : RadioBoard _).step
        CommandProcessor.sampleDecode sampleTraits (.envelope hooks data sink lacksBandwidth)).2 →
      (({} : LoraRadio).apply sampleTraits lacksBandwidth oddTuning).result = false →
      ReportedKept sampleTraits ⟨CommandProcessor.sampleBoot, {}⟩ lacksBandwidth oddTuning req.id sink
        ((⟨CommandProcessor.sampleBoot, {}⟩ : RadioBoard _).step CommandProcessor.sampleDecode
          sampleTraits (.envelope hooks data sink lacksBandwidth)) :=
  refused_retune_keeps_iff CommandProcessor.sampleDecode sampleTraits
    ⟨CommandProcessor.sampleBoot, {}⟩ rfl (Part.listening sampleTraits wideTuning) rfl true
    lacksBandwidth oddTuning

end RadioBoard

end MeshPigeon
