import MeshPigeon.Core.Notices
import MeshPigeon.Core.Sendable
import MeshPigeon.Framing.Stream

/-!
# The processor over the wire

Each connection is a stream of bytes in either direction, with a frame reader at
its end: what the clients write as requests is handled as those requests, and
what the processor sends is read as its responses.
-/
namespace MeshPigeon

open Nanopb

open CommandProcessor (decodeEnvelope framesTo)

variable {σ : Type}

/-! ## From the processor -/

/-- What `dispatch` puts on one connection: nothing, when the response has no encoding. -/
def RadioToClient.wire (r : RadioToClient) : List UInt8 :=
  if encodeResponse r = [] then [] else frameEncodeEnvelope (encodeResponse r)

/-- The bytes a connection is sent. -/
def bytesTo (c : Sink) (acts : List Act) : List UInt8 :=
  (framesTo c acts).flatMap RadioToClient.wire

/-- What a client makes of the bytes it has so far. -/
def clientReads (stream : List UInt8) : List (Option RadioToClientMessage) :=
  (FrameReader.new.envelopes stream).map decodeResponse

theorem clientReads_append (front back : List UInt8) :
    clientReads front <+: clientReads (front ++ back) := by
  rw [clientReads, clientReads, FrameReader.envelopes_append, List.map_append]
  exact List.prefix_append ..

theorem clientReads_wire {rs : List RadioToClient} (h : ∀ r ∈ rs, r.body.Sendable) :
    clientReads (rs.flatMap RadioToClient.wire) = rs.map fun r => some r.message.received := by
  have wires : rs.flatMap RadioToClient.wire =
      ((rs.map encodeResponse).map frameEncodeEnvelope).flatten := by
    rw [List.map_map, ← List.flatMap_def]
    refine List.flatMap_congr fun r hr => ?_
    exact if_neg (decodeResponse_encode (h r hr)).1
  have fits : ∀ e ∈ rs.map encodeResponse, e.length ≤ 512 := by
    intro e he
    obtain ⟨r, hr, rfl⟩ := List.mem_map.mp he
    exact (decodeResponse_encode (h r hr)).2.1
  have envelopes := FrameReader.envelopes_frames fits (List.not_mem_nil : (0 : UInt8) ∉ [])
  have kept : (rs.map encodeResponse).filter (· ≠ []) = rs.map encodeResponse := by
    refine List.filter_eq_self.mpr fun e he => ?_
    obtain ⟨r, hr, rfl⟩ := List.mem_map.mp he
    exact decide_eq_true (decodeResponse_encode (h r hr)).1
  rw [List.append_nil, kept] at envelopes
  rw [clientReads, wires, envelopes, List.map_map]
  exact List.map_congr_left fun r hr => (decodeResponse_encode (h r hr)).2.2

/-- Frames that can be encoded are read as they were handed out, all of them or a first part. -/
theorem reads_frames {acts : List Act} (encodable : Encodable acts) (c : Sink) :
    clientReads (bytesTo c acts) = (framesTo c acts).map (fun r => some r.message.received) ∧
      ∀ front back, bytesTo c acts = front ++ back →
        clientReads front <+: (framesTo c acts).map fun r => some r.message.received := by
  have whole : clientReads (bytesTo c acts) = _ := clientReads_wire fun r hr => by
    obtain ⟨dest, sent⟩ := CommandProcessor.mem_of_framesTo hr
    exact encodable dest r sent
  refine ⟨whole, fun front back cut => ?_⟩
  rw [← whole, cut]
  exact clientReads_append front back

namespace CommandProcessor

variable [SettingsStore σ]

/-- **A client reads what it was sent.** In every run, whichever part of its bytes a connection has
received, it reads a first part of the responses and pushes it was sent; and all of them when it
has all its bytes. -/
theorem client_reads_responses (pbDecode : List UInt8 → Option ClientToRadio)
    (s : CommandProcessor σ) {events : List Event} (sane : ∀ e ∈ events, e.Sane) (c : Sink) :
    let acts := (s.run pbDecode events).acts
    clientReads (bytesTo c acts) = (framesTo c acts).map (fun r => some r.message.received) ∧
      ∀ front back, bytesTo c acts = front ++ back →
        clientReads front <+: (framesTo c acts).map fun r => some r.message.received :=
  reads_frames (s.encodable_run pbDecode sane) c

/-- A board whose one link is up. -/
def sampleHooks : Hooks where
  batteryMv := 0xFFFF
  macSuffix := [0x41, 0x33, 0x46, 0x32, 0]
  link := ⟨fun m => { m with wifiState := .connected, wifiIpv4 := [192, 168, 1, 50] }, 0, 0, 1⟩
  wifiSupported := true
  fillCapabilities out := (out.set 0 1, 1)
  applyWifi _ := []

theorem sampleHooks_sane : sampleHooks.Sane where
  link _ _ := Nat.le_refl 4
  capabilities _ full := List.length_set.trans full
  calls _ _ none := absurd none List.not_mem_nil

/-- A client asks who is there, and hears of the link. -/
def sampleEvents : List Event := [
  .connect 1,
  .envelope ⟨some sampleHooks, true, true⟩ ((encodeRequest ⟨1, .getDeviceInfo⟩).getD []) 1,
  .wifiStateChanged (some sampleHooks.link)]

theorem client_reads_responses_sample :
    let acts := (sampleBoot.run decodeRequest sampleEvents).acts
    clientReads (bytesTo 1 acts) = (framesTo 1 acts).map fun r => some r.message.received := by
  refine (client_reads_responses decodeRequest sampleBoot ?_ 1).1
  intro e he
  simp only [sampleEvents, List.mem_cons, List.not_mem_nil, or_false] at he
  rcases he with rfl | rfl | rfl
  · trivial
  · rintro _ ⟨⟩
    exact sampleHooks_sane
  · rintro _ ⟨⟩
    exact sampleHooks_sane.link

end CommandProcessor

/-! ## What a request's strings have behind their end -/

theorem CharArray.str_clean {n : Nat} (a : CharArray n) : a.clean.str = a.str :=
  str_padded a.strlen_lt (zero_not_mem_cstr a.1)

namespace CommandProcessor

theorem pinMatches_clean (s : CommandProcessor σ) (pin : CharArray (kPinMax + 1)) :
    s.pinMatches pin.clean.1 pin.clean.strlen = s.pinMatches pin.1 pin.strlen := by
  have len : pin.clean.strlen = pin.strlen := congrArg List.length pin.str_clean
  unfold pinMatches
  rw [pin.clean.take_strlen, pin.take_strlen, pin.str_clean, len]

theorem validDevice_received (m : SetDeviceSettingsMessage) :
    validDevice m.received = validDevice m := by
  simp only [validDevice, SetDeviceSettingsMessage.received, Option.all_map, CharArray.str_clean]

theorem wifiTouched_received (m : SetDeviceSettingsMessage) :
    wifiTouched m.received = wifiTouched m := by
  simp only [wifiTouched, SetDeviceSettingsMessage.received, Option.isSome_map]

theorem candidate_received (d : DeviceSettings) (m : SetDeviceSettingsMessage) :
    candidate d m.received = candidate d m := by
  simp only [candidate, SetDeviceSettingsMessage.received, Option.elim_map, Function.comp_def,
    CharArray.str_clean]

variable [SettingsStore σ]

/-- No handler looks behind the end of a string. -/
theorem handleRequest_received (s : CommandProcessor σ) (env : Env) (req : ClientToRadio)
    (sink : Sink) : s.handleRequest env req.received sink = s.handleRequest env req sink := by
  obtain ⟨id, body⟩ := req
  cases body with
  | setDeviceSettings m =>
    show s.handleSetDeviceSettings env id m.received sink = s.handleSetDeviceSettings env id m sink
    have name : m.received.name.isSome = m.name.isSome := Option.isSome_map
    have pin : m.received.pin.isSome = m.pin.isSome := Option.isSome_map
    simp only [handleSetDeviceSettings, announceName, applyWifi, validDevice_received,
      wifiTouched_received, candidate_received, name, pin]
  | auth pin =>
    show s.handleAuth id pin.clean sink = s.handleAuth id pin sink
    rw [handleAuth, handleAuth, pinMatches_clean]
  | _ => rfl

end CommandProcessor

/-! ## To the processor -/

/-- A client's frame for a request. -/
def ClientToRadio.wire (req : ClientToRadio) : List UInt8 :=
  frameEncodeEnvelope ((encodeRequest req).getD [])

/-- What reaches the board: bytes on a connection, or anything else. -/
inductive Input where
  | bytes (env : Env) (sink : Sink) (chunk : List UInt8)
  | other (e : Event)

/-- The same with requests in place of bytes. -/
inductive Call where
  | request (env : Env) (sink : Sink) (req : ClientToRadio)
  | other (e : Event)

/-- Every connection's reader hands on the envelopes it completes. -/
def arrivals (readers : Sink → FrameReader) : List Input → List Event
  | [] => []
  | .bytes env sink chunk :: inputs =>
    ((readers sink).envelopes chunk).map (fun data => .envelope env data sink) ++
      arrivals (Function.update readers sink ((readers sink).feedAll chunk)) inputs
  | .other e :: inputs => e :: arrivals readers inputs

/-- The bytes that reach the board from one connection. -/
def deliveredFrom (c : Sink) (inputs : List Input) : List UInt8 :=
  inputs.flatMap fun
    | .bytes _ sink chunk => if sink = c then chunk else []
    | .other _ => []

/-- The requests from one connection. -/
def requestsOf (c : Sink) (calls : List Call) : List ClientToRadio :=
  calls.filterMap fun
    | .request _ sink req => if sink = c then some req else none
    | .other _ => none

def Input.event : Input → Option Event
  | .bytes .. => none
  | .other e => some e

def Call.event : Call → Option Event
  | .request .. => none
  | .other e => some e

namespace CommandProcessor

variable [SettingsStore σ]

/-- A run in which requests arrive whole. -/
def serve (s : CommandProcessor σ) : List Call → Outcome σ
  | [] => s.quiet
  | .request env sink req :: calls =>
    (s.handleRequest env req sink).andThen fun s => s.serve calls
  | .other e :: calls => (s.step decodeRequest e).andThen fun s => s.serve calls

end CommandProcessor

/-- A request a client may send. -/
def ClientToRadio.Valid (req : ClientToRadio) : Prop := req.id ≠ 0 ∧ req.body.Sendable

/-- What a client has written up to some byte is whole frames and a part of the next. -/
theorem frames_cut {es : List (List UInt8)} (fits : ∀ e ∈ es, e.length ≤ 512) {stream : List UInt8}
    (cut : stream <+: (es.map frameEncodeEnvelope).flatten) :
    ∃ part, 0 ∉ part ∧
      stream = ((es.take (stream.count 0)).map frameEncodeEnvelope).flatten ++ part := by
  induction es generalizing stream with
  | nil =>
    obtain rfl := List.prefix_nil.mp cut
    exact ⟨[], List.not_mem_nil, rfl⟩
  | cons e es ih =>
    obtain ⟨rest, whole⟩ := cut
    rw [List.map_cons, List.flatten_cons] at whole
    by_cases short : stream.length < (frameEncodeEnvelope e).length
    · have front : stream = (frameEncodeEnvelope e).take stream.length := by
        have taken := congrArg (List.take stream.length) whole
        rwa [List.take_left, List.take_append_of_le_length (Nat.le_of_lt short)] at taken
      have clean : 0 ∉ stream := by
        rw [front]
        exact clean_of_take short
      refine ⟨stream, clean, ?_⟩
      rw [List.count_eq_zero.mpr clean]
      rfl
    · have starts : frameEncodeEnvelope e <+: stream :=
        List.prefix_of_prefix_length_le ⟨_, whole.symm⟩ ⟨rest, rfl⟩ (Nat.not_lt.mp short)
      obtain ⟨tail, rfl⟩ := starts
      rw [List.append_assoc] at whole
      obtain ⟨part, clean, same⟩ := ih (fun x hx => fits x (List.mem_cons_of_mem e hx))
        ⟨rest, List.append_cancel_left whole⟩
      have one : (frameEncodeEnvelope e).count 0 = 1 := by
        rw [frameEncodeEnvelope_fits (fits e List.mem_cons_self), List.count_append,
          List.count_eq_zero.mpr (frameBody_clean e)]
        rfl
      refine ⟨part, clean, ?_⟩
      rw [List.count_append, one, Nat.add_comm, List.take_succ_cons, List.map_cons,
        List.flatten_cons, List.append_assoc, ← same]

/-- The envelopes of the frames that have come in whole. -/
theorem envelopes_cut {es : List (List UInt8)} (fits : ∀ e ∈ es, e.length ≤ 512 ∧ e ≠ [])
    {stream : List UInt8} (cut : stream <+: (es.map frameEncodeEnvelope).flatten) :
    FrameReader.new.envelopes stream = es.take (stream.count 0) := by
  obtain ⟨part, clean, same⟩ := frames_cut (fun e he => (fits e he).1) cut
  have whole : ∀ e ∈ es.take (stream.count 0), e.length ≤ 512 := fun e he =>
    (fits e (List.mem_of_mem_take he)).1
  have read := FrameReader.envelopes_frames whole clean
  rw [← same] at read
  rw [read]
  exact List.filter_eq_self.mpr fun e he => decide_eq_true (fits e (List.mem_of_mem_take he)).2

theorem ClientToRadio.Valid.encoded {req : ClientToRadio} (h : req.Valid) :
    ((encodeRequest req).getD []).length ≤ 512 ∧ (encodeRequest req).getD [] ≠ [] ∧
      decodeEnvelope decodeRequest ((encodeRequest req).getD []) = some req.received := by
  obtain ⟨data, encoded, room, decoded⟩ := decodeRequest_encode h.2
  rw [encoded, Option.getD_some]
  refine ⟨room, ?_, ?_⟩
  · rintro rfl
    have none : decodeRequest [] = some ⟨0, .unknown⟩ := rfl
    exact h.1 (congrArg ClientToRadio.id (Option.some.inj (decoded.symm.trans none)))
  · rw [decodeEnvelope, decoded]
    exact Option.filter_some_pos (decide_eq_true h.1)

namespace CommandProcessor

variable [SettingsStore σ]

theorem serve_append (s : CommandProcessor σ) (as bs : List Call) :
    s.serve (as ++ bs) = (s.serve as).andThen fun t => t.serve bs := by
  induction as generalizing s with
  | nil => simp [serve, quiet, Outcome.andThen]
  | cons call as ih => cases call <;> simp [serve, Outcome.andThen, ih]

/-- The requests of one chunk, handed on one by one. -/
theorem run_requests (s : CommandProcessor σ) (env : Env) (sink : Sink) {reqs : List ClientToRadio}
    (valid : ∀ r ∈ reqs, r.Valid) :
    s.run decodeRequest
        ((reqs.map fun r => (encodeRequest r).getD []).map fun data => .envelope env data sink) =
      s.serve (reqs.map fun r => .request env sink r) := by
  induction reqs generalizing s with
  | nil => rfl
  | cons r reqs ih =>
    have decoded := (valid r List.mem_cons_self).encoded.2.2
    have rest := fun t => ih t fun x hx => valid x (List.mem_cons_of_mem r hx)
    simp only [List.map_cons, run, serve, step, onEnvelope, decoded, handleRequest_received, rest]

/-- Whatever state the readers are in, the envelopes they complete are handled as the requests they
were encoded from. -/
theorem arrivals_served (s : CommandProcessor σ) (readers : Sink → FrameReader)
    (inputs : List Input) {reqs : Sink → List ClientToRadio} (valid : ∀ c, ∀ r ∈ reqs c, r.Valid)
    (read : ∀ c, (readers c).envelopes (deliveredFrom c inputs) =
      (reqs c).map fun r => (encodeRequest r).getD []) :
    ∃ calls, s.run decodeRequest (arrivals readers inputs) = s.serve calls ∧
      (∀ c, requestsOf c calls = reqs c) ∧
      calls.filterMap Call.event = inputs.filterMap Input.event := by
  induction inputs generalizing s readers reqs with
  | nil =>
    refine ⟨[], rfl, fun c => ?_, rfl⟩
    have none : (reqs c).map _ = [] := (read c).symm
    exact (List.map_eq_nil_iff.mp none).symm
  | cons input inputs ih =>
    cases input with
    | bytes env sink chunk =>
      have mine := read sink
      have whole : deliveredFrom sink (.bytes env sink chunk :: inputs) =
          chunk ++ deliveredFrom sink inputs := by simp [deliveredFrom]
      rw [whole, FrameReader.envelopes_append] at mine
      obtain ⟨now, later, split, first, second⟩ := List.map_eq_append_iff.mp mine.symm
      have kept : ∀ c, ∀ r ∈ Function.update reqs sink later c, r.Valid := by
        intro c r hr
        by_cases own : c = sink
        · subst own
          rw [Function.update_self] at hr
          exact valid c r (split ▸ List.mem_append_right now hr)
        · rw [Function.update_of_ne own] at hr
          exact valid c r hr
      obtain ⟨calls, run_eq, own_requests, others⟩ := ih
        (s.serve (now.map fun r => .request env sink r)).state
        (Function.update readers sink ((readers sink).feedAll chunk)) kept (by
          intro c
          by_cases own : c = sink
          · subst own
            rw [Function.update_self, Function.update_self]
            exact second.symm
          · rw [Function.update_of_ne own, Function.update_of_ne own, ← read c]
            simp [deliveredFrom, Ne.symm own])
      refine ⟨now.map (fun r => .request env sink r) ++ calls, ?_, fun c => ?_, ?_⟩
      · rw [arrivals, ← first, run_append, serve_append, run_requests s env sink fun r hr =>
          valid sink r (split ▸ List.mem_append_left later hr), Outcome.andThen, run_eq]
        rfl
      · rw [requestsOf, List.filterMap_append, List.filterMap_map]
        show _ ++ requestsOf c calls = _
        rw [own_requests c]
        by_cases own : c = sink
        · subst own
          simp [split]
        · simp [Function.update_of_ne own, Ne.symm own]
      · have silent : now.filterMap (Call.event ∘ fun r => .request env sink r) = [] :=
          List.filterMap_eq_nil_iff.mpr fun _ _ => rfl
        rw [List.filterMap_append, others, List.filterMap_map, silent]
        rfl
    | other e =>
      obtain ⟨calls, run_eq, own_requests, others⟩ :=
        ih (s.step decodeRequest e).state readers valid fun c => by
          rw [← read c]
          simp [deliveredFrom]
      refine ⟨.other e :: calls, ?_, fun c => ?_, ?_⟩
      · rw [arrivals, run, serve, Outcome.andThen, run_eq]
        rfl
      · simpa [requestsOf] using own_requests c
      · simpa [Call.event, Input.event] using others

/-- **Bytes are as good as requests.** Let every client write its requests as frames, and let the
bytes come in cut up and interleaved in any way, with anything else happening in between. Then the
processor does what it does when it is handed the requests themselves, each client's in order, up to
the last frame of each that has come in whole. -/
theorem requests_read_whole (s : CommandProcessor σ) {inputs : List Input}
    {reqs : Sink → List ClientToRadio} (valid : ∀ c, ∀ r ∈ reqs c, r.Valid)
    (written : ∀ c, deliveredFrom c inputs <+: (reqs c).flatMap ClientToRadio.wire) :
    ∃ calls, s.run decodeRequest (arrivals (fun _ => .new) inputs) = s.serve calls ∧
      (∀ c, requestsOf c calls = (reqs c).take ((deliveredFrom c inputs).count 0)) ∧
      calls.filterMap Call.event = inputs.filterMap Input.event := by
  refine s.arrivals_served (fun _ => .new) inputs
    (fun c r hr => valid c r (List.mem_of_mem_take hr)) fun c => ?_
  have wires : (reqs c).flatMap ClientToRadio.wire =
      (((reqs c).map fun r => (encodeRequest r).getD []).map frameEncodeEnvelope).flatten := by
    rw [List.map_map, ← List.flatMap_def]
    rfl
  have fits : ∀ e ∈ (reqs c).map fun r => (encodeRequest r).getD [], e.length ≤ 512 ∧ e ≠ [] := by
    intro e he
    obtain ⟨r, hr, rfl⟩ := List.mem_map.mp he
    exact ⟨(valid c r hr).encoded.1, (valid c r hr).encoded.2.1⟩
  rw [envelopes_cut fits (wires ▸ written c), List.map_take]

/-- A ping from one client. -/
def sampleRequests (c : Sink) : List ClientToRadio := if c = 1 then [⟨7, .ping [0xAA, 0]⟩] else []

/-- Its frame comes in two pieces, with a poll between them. -/
def sampleInputs : List Input :=
  let frame := ClientToRadio.wire ⟨7, .ping [0xAA, 0]⟩
  [.bytes ⟨none, true, true⟩ 1 (frame.take 3), .other (.poll 5 false),
    .bytes ⟨none, true, true⟩ 1 (frame.drop 3)]

theorem requests_read_whole_sample :
    ∃ calls, sampleBoot.run decodeRequest (arrivals (fun _ => .new) sampleInputs) =
      sampleBoot.serve calls ∧
      (∀ c, requestsOf c calls =
        (sampleRequests c).take ((deliveredFrom c sampleInputs).count 0)) ∧
      calls.filterMap Call.event = sampleInputs.filterMap Input.event := by
  refine requests_read_whole sampleBoot ?_ ?_
  · intro c r hr
    rw [sampleRequests] at hr
    split at hr
    · rw [List.mem_singleton.mp hr]
      exact ⟨by decide, by decide⟩
    · cases hr
  · intro c
    by_cases own : 1 = c
    · subst own
      simp [deliveredFrom, sampleInputs, sampleRequests]
    · simp [deliveredFrom, sampleInputs, own]

end CommandProcessor

end MeshPigeon
