import MeshPigeon.Core.Confidential
import MeshPigeon.Core.Handled

/-! Requests and their answers. -/
namespace MeshPigeon.CommandProcessor

variable {σ : Type}

/-- The frames a connection is handed that carry a request's id. -/
def replies (c : Sink) (acts : List Act) : List RadioToClient :=
  (framesTo c acts).filter fun msg => msg.id ≠ 0

/-- The sender is handed one frame that ends the answer, after the entries of a
fetch; every other frame of the call carries the id 0. -/
structure OneAnswer (req : ClientToRadio) (sink : Sink) (acts : List Act) : Prop where
  own : ∃ (entries : List PacketEntry) (body : Body), body.terminal = true ∧
    (entries ≠ [] → ∃ sinceSeq maxCount, req.body = .fetchPackets sinceSeq maxCount) ∧
    replies sink acts = entries.map (⟨req.id, .packetEntry ·⟩) ++ [⟨req.id, body⟩]
  others : ∀ c, c ≠ sink → replies c acts = []

/-- Whatever the calls send, it answers no request. -/
def Unasked (acts : List Act) : Prop := ∀ dest msg, .frame dest msg ∈ acts → msg.id = 0

theorem replies_append (c : Sink) (acts acts' : List Act) :
    replies c (acts ++ acts') = replies c acts ++ replies c acts' := by
  rw [replies, framesTo_append, List.filter_append]
  rfl

theorem Unasked.replies {acts : List Act} (h : Unasked acts) (c : Sink) : replies c acts = [] := by
  rw [CommandProcessor.replies, List.filter_eq_nil_iff]
  intro msg hmsg
  obtain ⟨a, ha, out⟩ := List.mem_flatMap.mp hmsg
  cases a with
  | frame dest msg' =>
    obtain ⟨_, _, rfl⟩ := List.mem_map.mp out
    simp [h dest msg' ha]
  | _ => cases out

theorem replies_own {id : UInt32} (request : id ≠ 0) (c : Sink) (body : Body) :
    replies c [.frame [c] ⟨id, body⟩] = [⟨id, body⟩] := by
  simp [replies, framesTo, request]

theorem replies_other {c sink : Sink} (other : c ≠ sink) (msg : RadioToClient) :
    replies c [.frame [sink] msg] = [] := by
  simp [replies, framesTo, Ne.symm other]

theorem unasked_nil : Unasked [] := by
  intro dest msg h
  cases h

theorem unasked_push (s : CommandProcessor σ) (body : Body) (except : Option Sink)
    (authorizedOnly : Bool) : Unasked (s.push ⟨0, body⟩ except authorizedOnly).acts := by
  intro dest msg h
  obtain ⟨rfl, rfl⟩ := Act.frame.inj (List.mem_singleton.mp h)
  rfl

theorem Unasked.append {k l : List Act} (h : Unasked k) (h' : Unasked l) : Unasked (k ++ l) := by
  intro dest msg sent
  rcases List.mem_append.mp sent with first | second
  · exact h dest msg first
  · exact h' dest msg second

theorem unasked_hookCalls (calls : List HookCall) (s : CommandProcessor σ) :
    Unasked (s.hookCalls calls).acts := by
  induction calls generalizing s with
  | nil => exact unasked_nil
  | cons call calls ih =>
    apply Unasked.append _ (ih _)
    cases call with
    | wifiStateChanged link =>
      rw [hookCall, onWifiStateChanged_eq]
      exact unasked_push s _ none false
    | removeSink c => exact unasked_nil

theorem unasked_announceName (s : CommandProcessor σ) (env : Env) (m : SetDeviceSettingsMessage) :
    Unasked (s.announceName env m).acts := by
  intro dest msg h
  unfold announceName at h
  split at h <;> simp at h

theorem unasked_applyWifi (s : CommandProcessor σ) (env : Env) (m : SetDeviceSettingsMessage) :
    Unasked (s.applyWifi env m).acts := by
  unfold applyWifi
  split
  · exact unasked_nil
  · split
    · apply Unasked.append _ (unasked_hookCalls _ _)
      intro dest msg h
      simp at h
    · exact unasked_nil

variable {req : ClientToRadio} {sink : Sink} {b : Body} {k l : List Act}

/-- One answer, between calls that answer nothing. -/
theorem oneAnswer_of (request : req.id ≠ 0) (terminal : b.terminal = true)
    (unasked : Unasked k) (unasked' : Unasked l) :
    OneAnswer req sink (k ++ .frame [sink] ⟨req.id, b⟩ :: l) := by
  rw [← List.singleton_append, ← List.append_assoc]
  constructor
  · refine ⟨[], b, terminal, fun some => absurd rfl some, ?_⟩
    rw [replies_append, replies_append, unasked.replies, unasked'.replies, replies_own request]
    rfl
  · intro c other
    rw [replies_append, replies_append, unasked.replies, unasked'.replies, replies_other other]
    rfl

theorem replies_entries {id : UInt32} (request : id ≠ 0) (sink : Sink) (es : List StoredPacket) :
    replies sink (es.map fun e => .frame [sink] ⟨id, .packetEntry (packetEntry e)⟩) =
        (es.map packetEntry).map (⟨id, .packetEntry ·⟩) ∧
      ∀ c, c ≠ sink →
        replies c (es.map fun e => .frame [sink] ⟨id, .packetEntry (packetEntry e)⟩) = [] := by
  induction es with
  | nil => exact ⟨rfl, fun _ _ => rfl⟩
  | cons e es ih =>
    obtain ⟨own, others⟩ := ih
    rw [List.map_cons, ← List.singleton_append]
    constructor
    · rw [replies_append, own, replies_own request]
      rfl
    · intro c other
      rw [replies_append, others c other, replies_other other]
      rfl

theorem unasked_stored (stored : Option StoredPacket) :
    Unasked (stored.toList.map .storeAppend) := by
  intro dest msg h
  obtain ⟨e, _, same⟩ := List.mem_map.mp h
  cases same

/-- A call on the board or the store sends nothing. -/
theorem unasked_calls {acts : List Act} (h : ∀ a ∈ acts, ∀ dest msg, a ≠ .frame dest msg) :
    Unasked acts := fun dest msg sent => absurd rfl (h _ sent dest msg)

variable [SettingsStore σ]

theorem Handled.oneAnswer {s : CommandProcessor σ} {env : Env} {o : Outcome σ}
    (h : Handled s env req sink o) (request : req.id ≠ 0) : OneAnswer req sink o.acts := by
  cases h with
  | answered terminal _ same =>
    rw [same]
    exact oneAnswer_of request terminal unasked_nil unasked_nil
  | @auth pin _ same =>
    obtain ⟨_, _, _, _, terminal, _, answers⟩ := handleAuth_answers s req.id pin sink
    rw [same, answers]
    exact oneAnswer_of request terminal unasked_nil unasked_nil
  | retuneFailed _ _ _ _ acts =>
    rw [acts]
    exact oneAnswer_of (k := [_]) request rfl (unasked_calls (by simp)) unasked_nil
  | retuned _ _ _ _ response _ acts =>
    rw [acts, response]
    refine oneAnswer_of (k := [_, _, _]) request rfl ?_ unasked_nil
    intro dest msg sent
    simp only [List.mem_cons, List.not_mem_nil, or_false, reduceCtorEq, false_or] at sent
    rw [(Act.frame.inj sent).2]
  | storeRefused _ _ _ acts =>
    rw [acts]
    exact oneAnswer_of request rfl (unasked_stored _) unasked_nil
  | sent _ _ _ _ _ acts =>
    rw [acts]
    exact oneAnswer_of request rfl (unasked_stored _) (unasked_calls (by simp))
  | sendFailed _ _ _ _ _ acts =>
    rw [acts]
    refine oneAnswer_of request rfl (unasked_stored _) ?_
    intro dest msg sent
    simp only [List.mem_cons, List.not_mem_nil, or_false, reduceCtorEq, false_or] at sent
    rw [(Act.frame.inj sent).2]
  | @fetched sinceSeq maxCount _ fetch _ response _ acts =>
    rw [acts, response]
    obtain ⟨own, others⟩ := replies_entries request sink (s.requestedPage sinceSeq maxCount)
    constructor
    · refine ⟨(s.requestedPage sinceSeq maxCount).map packetEntry,
        .fetchEnd (UInt32.ofNat (s.requestedPage sinceSeq maxCount).length), rfl,
        fun _ => ⟨sinceSeq, maxCount, fetch⟩, ?_⟩
      rw [replies_append, own, replies_own request]
    · intro c other
      rw [replies_append, others c other, replies_other other]
      rfl
  | purged _ _ acts =>
    rw [acts]
    exact oneAnswer_of (k := [_]) request rfl (unasked_calls (by simp)) unasked_nil
  | restarted call _ acts =>
    rw [acts]
    refine oneAnswer_of (k := []) request rfl unasked_nil (unasked_calls ?_)
    intro a ha dest msg
    rcases call with ⟨_, rfl⟩ | ⟨_, rfl⟩ <;> (split at ha <;> simp at ha; simp [ha])
  | reset _ _ acts =>
    rw [acts]
    refine oneAnswer_of (k := [_, _]) request rfl (unasked_calls (by simp)) (unasked_calls ?_)
    intro a ha dest msg
    split at ha <;> simp at ha
    simp [ha]
  | @written m t _ _ _ _ _ response _ acts =>
    have called : Unasked (.saveDevice t.device :: (t.announceName env m).acts ++
        (t.applyWifi env m).acts) := by
      apply Unasked.append _ (unasked_applyWifi t env m)
      exact Unasked.append (k := [_]) (unasked_calls (by simp)) (unasked_announceName t env m)
    have pushed := called.append (unasked_push
      { t with sinks := removing t.sinks (t.linkCalls env m) }
      (.deviceSettings (t.deviceSettingsMessage env.hooks)) (some sink) true)
    have answered : OneAnswer req sink _ :=
      oneAnswer_of (b := .deviceSettings (t.deviceSettingsMessage env.hooks)) request rfl pushed
        unasked_nil
    rw [acts, response]
    rw [List.append_assoc] at answered
    exact answered

/-- What carries no id is dropped. -/
theorem onEnvelope_undecoded {pbDecode : List UInt8 → Option ClientToRadio}
    (s : CommandProcessor σ) (env : Env) {data : List UInt8} (sink : Sink)
    (undecoded : ∀ req, pbDecode data = some req → req.id = 0) :
    s.onEnvelope pbDecode env data sink = s.quiet := by
  have dropped : decodeEnvelope pbDecode data = none := by
    rw [decodeEnvelope, Option.filter_eq_none_iff]
    intro req decoded
    simp [undecoded req decoded]
  rw [onEnvelope, dropped]

/-- **Every request gets exactly one answer, on its own connection.** In every
state and for every envelope from every connection: a request that carries an id
is answered once, and anything else neither sends nor changes anything. -/
theorem one_answer (pbDecode : List UInt8 → Option ClientToRadio) (s : CommandProcessor σ)
    (env : Env) (data : List UInt8) (sink : Sink) :
    (∀ req, pbDecode data = some req → req.id ≠ 0 →
      OneAnswer req sink (s.onEnvelope pbDecode env data sink).acts) ∧
    ((∀ req, pbDecode data = some req → req.id = 0) →
      s.onEnvelope pbDecode env data sink = s.quiet) := by
  constructor
  · intro req decoded request
    have accepted : decodeEnvelope pbDecode data = some req := by
      simp [decodeEnvelope, decoded, request]
    rw [onEnvelope, accepted]
    exact (handleRequest_handled s env req sink).oneAnswer request
  · exact onEnvelope_undecoded s env sink

end MeshPigeon.CommandProcessor
