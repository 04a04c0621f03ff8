import MeshPigeon.Core.Run

/-! What a connection that has not authenticated can make the processor do. -/
namespace MeshPigeon.CommandProcessor

variable {σ : Type}

/-- The PIN in force, spelled exactly; a PIN is never empty. -/
def ExactPin (s : CommandProcessor σ) (pin : CharArray (kPinMax + 1)) : Prop :=
  pin.str ≠ [] ∧ pin.str = s.device.pin.str

theorem pinMatches_iff (s : CommandProcessor σ) (pin : CharArray (kPinMax + 1)) :
    s.pinMatches pin.1 pin.strlen = true ↔ s.ExactPin pin := by
  have short := pin.strlen_lt
  have ends := s.device.pin.str_eq_iff (zero_not_mem_cstr pin.1) short
  unfold pinMatches ExactPin
  by_cases empty : pin.strlen = 0
  · rw [if_pos (Or.inl empty)]
    have : pin.str = [] := List.length_eq_zero_iff.mp empty
    simp [this]
  · have nonempty : pin.str ≠ [] := fun h => empty (List.length_eq_zero_iff.mpr h)
    rw [if_neg (by rintro (h | h) <;> omega), pin.take_strlen, Bool.and_eq_true, decide_eq_true_eq,
      decide_eq_true_eq]
    constructor
    · rintro ⟨same, last⟩
      exact ⟨nonempty, (ends.mpr ⟨same.symm, last⟩).symm⟩
    · rintro ⟨_, same⟩
      obtain ⟨taken, last⟩ := ends.mp same.symm
      exact ⟨taken.symm, last⟩

/-- The request proves the PIN: an Auth with it, outside a penalty window. -/
def Proves (s : CommandProcessor σ) (body : Request) : Prop :=
  ∃ pin, body = .auth pin ∧ s.ExactPin pin ∧ s.authBackoffActive = false

/-- Only the sender's flag, the failure counter, the penalty deadline and the
response scratch may differ, and only the sender is sent anything. -/
structure Contained (s : CommandProcessor σ) (sink : Sink) (o : Outcome σ) : Prop where
  state : ∃ flag fails until' response, o.state =
    { s.setAuthenticated sink flag with
      authFails := fails, authBackoffUntil := until', response := response }
  acts : ∀ a ∈ o.acts, ∃ msg, a = .frame [sink] msg

variable {s : CommandProcessor σ} {sink : Sink}

theorem setAuthenticated_self : s.setAuthenticated sink (s.authenticated sink) = s := by
  have same : (fun c => if c = sink then s.authenticated sink else s.authenticated c) =
      s.authenticated := by
    funext c
    split
    · rename_i h
      rw [h]
    · rfl
  rw [setAuthenticated, same]

theorem contained_answer (response : RadioToClient) : Contained s sink (s.answer response sink) := by
  constructor
  · refine ⟨s.authenticated sink, s.authFails, s.authBackoffUntil, response, ?_⟩
    rw [setAuthenticated_self]
    rfl
  · intro a ha
    exact ⟨response, List.mem_singleton.mp ha⟩

theorem isAuthorized_stranger (locked : s.device.pinIsDefault = false)
    (stranger : s.authenticated sink = false) : s.isAuthorized sink = false := by
  simp [isAuthorized, locked, stranger]

/-- What a stranger is answered to anything but an Auth. -/
def strangerAnswer (s : CommandProcessor σ) (hooks : Option Hooks) (req : ClientToRadio)
    (sink : Sink) : RadioToClient :=
  match req.body with
  | .ping payload => ⟨req.id, .pong (payload.take 500)⟩
  | .getDeviceInfo => ⟨req.id, .deviceInfo (s.deviceInfoMessage hooks sink)⟩
  | .getStatus => ⟨req.id, .status (statusMessage (hooks.map Hooks.link))⟩
  | .unknown => ⟨req.id, .error .badCommand []⟩
  | _ => ⟨req.id, .error .authRequired []⟩

/-- What a stranger's request comes to: an answer to it alone, or an evaluated Auth. -/
theorem handleRequest_stranger [SettingsStore σ] (env : Env) (req : ClientToRadio)
    (locked : s.device.pinIsDefault = false) (stranger : s.authenticated sink = false)
    (other : ∀ pin, req.body ≠ .auth pin) :
    s.handleRequest env req sink = s.answer (s.strangerAnswer env.hooks req sink) sink := by
  have refused := isAuthorized_stranger locked stranger
  obtain ⟨id, body⟩ := req
  cases body with
  | ping payload => exact sendPong_eq ..
  | getDeviceInfo => exact sendDeviceInfo_eq ..
  | getStatus => exact sendStatus_eq ..
  | auth pin => exact absurd rfl (other pin)
  | unknown => exact sendError_eq ..
  | _ => exact requireAuth_stranger _ _ refused _

/-- A wrong guess is counted, unless a penalty window is open. -/
theorem handleAuth_wrong (id : UInt32) {guess : CharArray (kPinMax + 1)}
    (locked : s.device.pinIsDefault = false) (stranger : s.authenticated sink = false)
    (wrong : ¬s.ExactPin guess) : s.handleAuth id guess sink =
      (if s.authBackoffActive then s else s.noteAuthFailure).answer
        ⟨id, .error .authRequired []⟩ sink := by
  have unmatched : s.pinMatches guess.1 guess.strlen = false :=
    Bool.eq_false_iff.mpr fun h => wrong ((pinMatches_iff s guess).mp h)
  unfold handleAuth
  cases s.authBackoffActive with
  | true => exact sendError_eq ..
  | false => simp [locked, stranger, unmatched, sendError_eq]

theorem handleAuth_stranger (id : UInt32) (pin : CharArray (kPinMax + 1))
    (locked : s.device.pinIsDefault = false) (stranger : s.authenticated sink = false) :
    Contained s sink (s.handleAuth id pin sink) ∧
      ((s.handleAuth id pin sink).state.authenticated sink = true ↔
        s.ExactPin pin ∧ s.authBackoffActive = false) := by
  by_cases exact' : s.ExactPin pin
  · unfold handleAuth
    cases penalty : s.authBackoffActive with
    | true =>
      rw [if_pos rfl, sendError_eq]
      refine ⟨contained_answer _, ?_⟩
      simp [answer, stranger]
    | false =>
      rw [if_neg (by simp), if_pos (by simp [(pinMatches_iff s pin).mpr exact']), sendOk_eq]
      refine ⟨⟨⟨true, 0, s.authBackoffUntil, _, rfl⟩, ?_⟩, by simp [answer, setAuthenticated, exact']⟩
      intro a ha
      exact ⟨_, List.mem_singleton.mp ha⟩
  · rw [handleAuth_wrong id locked stranger exact']
    split
    · refine ⟨contained_answer _, ?_⟩
      simp [answer, stranger, exact']
    · refine ⟨⟨⟨false, s.noteAuthFailure.authFails, s.noteAuthFailure.authBackoffUntil,
        ⟨id, .error .authRequired []⟩, ?_⟩, ?_⟩, ?_⟩
      · have same : s.setAuthenticated sink (s.authenticated sink) = s := setAuthenticated_self
        rw [stranger] at same
        rw [same]
        rfl
      · intro a ha
        exact ⟨_, List.mem_singleton.mp ha⟩
      · simp [answer, noteAuthFailure, stranger, exact']

/-- **Integrity of the PIN gate.** Whatever bytes a connection that is not
authenticated hands over, on a device with a PIN of its own, it changes nothing
but its own flag and the brute-force state, it reaches nobody but itself, and
its flag is set exactly by an Auth with the PIN outside a penalty window. -/
theorem gate_integrity [SettingsStore σ] (pbDecode : List UInt8 → Option ClientToRadio)
    (s : CommandProcessor σ) (env : Env) (data : List UInt8) (sink : Sink)
    (locked : s.device.pinIsDefault = false) (stranger : s.authenticated sink = false) :
    Contained s sink (s.onEnvelope pbDecode env data sink) ∧
      ((s.onEnvelope pbDecode env data sink).state.authenticated sink = true ↔
        ∃ req, decodeEnvelope pbDecode data = some req ∧ s.Proves req.body) := by
  unfold onEnvelope
  cases decoded : decodeEnvelope pbDecode data with
  | none =>
    constructor
    · constructor
      · refine ⟨s.authenticated sink, s.authFails, s.authBackoffUntil, s.response, ?_⟩
        rw [setAuthenticated_self]
        rfl
      · intro a ha
        cases ha
    · simp [quiet, stranger]
  | some req =>
    by_cases auth : ∃ pin, req.body = .auth pin
    · obtain ⟨pin, hpin⟩ := auth
      have handled : s.handleRequest env req sink = s.handleAuth req.id pin sink := by
        rw [handleRequest, hpin]
      obtain ⟨contained, flag⟩ := handleAuth_stranger req.id pin locked stranger
      simp only [handled]
      refine ⟨contained, flag.trans ?_⟩
      constructor
      · intro proof
        exact ⟨req, rfl, pin, hpin, proof⟩
      · rintro ⟨_, same, pin', hpin', proof⟩
        obtain rfl := Option.some.inj same
        obtain rfl := Request.auth.inj (hpin.symm.trans hpin')
        exact proof
    · have handled := handleRequest_stranger env req locked stranger fun pin h => auth ⟨pin, h⟩
      simp only [handled]
      refine ⟨contained_answer _, ?_⟩
      constructor
      · intro set
        simp [answer, stranger] at set
      · rintro ⟨_, same, pin, hpin, _⟩
        obtain rfl := Option.some.inj same
        exact absurd ⟨pin, hpin⟩ auth

/-- Two connections, and the first sends a wrong PIN. -/
def strangers : CommandProcessor MemorySettingsStore :=
  (sampleBoot.run sampleDecode [.connect 1, .connect 2]).state

def wrongPin : List UInt8 := [0x08, 0x02, 0x62, 0x06, 0x0A, 0x04, 0x34, 0x33, 0x32, 0x31]

theorem gate_integrity_wrong_pin :
    Contained strangers 1 (strangers.onEnvelope sampleDecode ⟨none, true, true⟩ wrongPin 1) ∧
      ((strangers.onEnvelope sampleDecode ⟨none, true, true⟩ wrongPin 1).state.authenticated 1 =
          true ↔
        ∃ req, decodeEnvelope sampleDecode wrongPin = some req ∧ strangers.Proves req.body) :=
  gate_integrity sampleDecode strangers ⟨none, true, true⟩ wrongPin 1 (by decide) rfl

end MeshPigeon.CommandProcessor
