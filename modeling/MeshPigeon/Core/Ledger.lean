import Mathlib.Data.List.Nodup
import MeshPigeon.Core.Transmit

/-! Every accepted transmission is reported exactly once, over whole runs. -/
namespace MeshPigeon.CommandProcessor

variable {σ : Type}

/-- The seqs accepted and not yet reported. -/
def flight (s : CommandProcessor σ) : List UInt32 := if s.txPending then [s.txPendingSeq] else []

/-- The calls so far against the state they led to. -/
structure Ledger (s : CommandProcessor σ) (acts : List Act) : Prop where
  balance : acceptedIn acts = reportedIn acts ++ s.flight
  next : s.store.1.nextSeq = UInt32.ofNat (1 + (storedIn acts).length)
  numbered : (storedIn acts).map (·.seq) = (List.range' 1 (storedIn acts).length).map UInt32.ofNat
  accepted : (acceptedIn acts).Sublist ((storedIn acts).map (·.seq))
  ordered : ∀ p, p <+: acts → ∃ open', open'.length ≤ 1 ∧ acceptedIn p = reportedIn p ++ open'

theorem silent_lists {acts : List Act} (h : ∀ a ∈ acts, a.Silent) :
    storedIn acts = [] ∧ transmittedIn acts = [] ∧ acceptedIn acts = [] ∧ reportedIn acts = [] := by
  refine ⟨?_, ?_, ?_, ?_⟩ <;> apply List.filterMap_eq_nil_iff.mpr <;> intro a ha
  · exact (h a ha).stored
  · exact (h a ha).transmitted
  · exact (h a ha).accepted
  · exact (h a ha).reported

theorem prefix_append_cases {p as bs : List Act} (h : p <+: as ++ bs) :
    p <+: as ∨ ∃ k, p = as ++ bs.take k := by
  by_cases short : p.length ≤ as.length
  · exact .inl (List.prefix_of_prefix_length_le h (List.prefix_append as bs) short)
  · right
    obtain ⟨q, rfl⟩ := List.prefix_of_prefix_length_le (List.prefix_append as bs) h (by omega)
    have taken := List.prefix_iff_eq_take.mp (List.prefix_append_right_inj as |>.mp h)
    exact ⟨q.length, by rw [← taken]⟩

theorem flight_short (s : CommandProcessor σ) : s.flight.length ≤ 1 := by
  unfold flight
  split <;> simp

theorem storedIn_append (as bs : List Act) : storedIn (as ++ bs) = storedIn as ++ storedIn bs :=
  List.filterMap_append

theorem acceptedIn_append (as bs : List Act) :
    acceptedIn (as ++ bs) = acceptedIn as ++ acceptedIn bs := List.filterMap_append

theorem reportedIn_append (as bs : List Act) :
    reportedIn (as ++ bs) = reportedIn as ++ reportedIn bs := List.filterMap_append

/-- What the new calls must satisfy for the ledger to go on. -/
structure Page (s t : CommandProcessor σ) (new : List Act) : Prop where
  balance : s.flight ++ acceptedIn new = reportedIn new ++ t.flight
  stored : storedIn new = [] ∧ t.store.1.nextSeq = s.store.1.nextSeq ∨
    ∃ e, storedIn new = [e] ∧ e.seq = s.store.1.nextSeq ∧
      t.store.1.nextSeq = s.store.1.nextSeq + 1
  accepted : (acceptedIn new).Sublist ((storedIn new).map (·.seq))
  ordered : ∀ k, ∃ open', open'.length ≤ 1 ∧
    s.flight ++ acceptedIn (new.take k) = reportedIn (new.take k) ++ open'

theorem Ledger.extend {s t : CommandProcessor σ} {acts new : List Act} (h : Ledger s acts)
    (page : Page s t new) : Ledger t (acts ++ new) := by
  have next := h.next
  constructor
  · rw [acceptedIn_append, reportedIn_append, h.balance, List.append_assoc, page.balance,
      List.append_assoc]
  · rw [storedIn_append]
    rcases page.stored with ⟨none', same⟩ | ⟨e, one, _, after⟩
    · rw [none', same, next, List.append_nil]
    · rw [one, after, next, List.length_append, List.length_singleton, ← Nat.add_assoc]
      exact (UInt32.ofNat_add _ 1).symm
  · rw [storedIn_append]
    rcases page.stored with ⟨none', _⟩ | ⟨e, one, seq, _⟩
    · rw [none', List.append_nil]
      exact h.numbered
    · rw [one, List.map_append, h.numbered, List.length_append, List.length_singleton,
        List.range'_1_concat, List.map_append, List.map_singleton, List.map_singleton, seq, next]
  · rw [acceptedIn_append, storedIn_append, List.map_append]
    exact h.accepted.append page.accepted
  · intro p hp
    rcases prefix_append_cases hp with old | ⟨k, rfl⟩
    · exact h.ordered p old
    · obtain ⟨open', short, balance⟩ := page.ordered k
      refine ⟨open', short, ?_⟩
      rw [acceptedIn_append, reportedIn_append, h.balance, List.append_assoc, balance,
        List.append_assoc]

theorem page_silent {s t : CommandProcessor σ} {new : List Act} (silent : ∀ a ∈ new, a.Silent)
    (pending : t.txPending = s.txPending) (seq : t.txPendingSeq = s.txPendingSeq)
    (next : t.store.1.nextSeq = s.store.1.nextSeq) : Page s t new := by
  have same : t.flight = s.flight := by rw [flight, flight, pending, seq]
  obtain ⟨stored, _, accepted, reported⟩ := silent_lists silent
  constructor
  · rw [accepted, reported, same, List.append_nil, List.nil_append]
  · exact .inl ⟨stored, next⟩
  · rw [accepted]
    exact List.nil_sublist _
  · intro k
    obtain ⟨_, _, accepted, reported⟩ := silent_lists fun a ha => silent a (List.mem_of_mem_take ha)
    refine ⟨s.flight, s.flight_short, ?_⟩
    rw [accepted, reported, List.append_nil, List.nil_append]

theorem page_stored {s : CommandProcessor σ} {o : Outcome σ} {entry : StoredPacket}
    (h : Stored s o entry) : Page s o.state o.acts := by
  obtain ⟨rest, acts, silent⟩ := h.acts
  have same : o.state.flight = s.flight := by rw [flight, flight, h.pending, h.pendingSeq]
  obtain ⟨stored, _, accepted, reported⟩ := silent_lists silent
  have stored' : storedIn o.acts = [entry] := by
    rw [acts]
    exact congrArg (entry :: ·) stored
  have accepted' : acceptedIn o.acts = [] := by rw [acts]; exact accepted
  have reported' : reportedIn o.acts = [] := by rw [acts]; exact reported
  constructor
  · rw [accepted', reported', same, List.append_nil, List.nil_append]
  · exact .inr ⟨entry, stored', h.seq, h.next⟩
  · rw [accepted']
    exact List.nil_sublist _
  · intro k
    refine ⟨s.flight, s.flight_short, ?_⟩
    have accepted'' : acceptedIn (o.acts.take k) = [] :=
      List.sublist_nil.mp (accepted' ▸ (List.take_sublist k o.acts).filterMap _)
    have reported'' : reportedIn (o.acts.take k) = [] :=
      List.sublist_nil.mp (reported' ▸ (List.take_sublist k o.acts).filterMap _)
    rw [accepted'', reported'', List.append_nil, List.nil_append]

theorem page_sent {s : CommandProcessor σ} {env : Env} {id : UInt32} {raw : Payload} {sink : Sink}
    {o : Outcome σ} {entry : StoredPacket} (h : Sent s env id raw sink o entry) :
    Page s o.state o.acts := by
  have idle : s.flight = [] := by rw [flight, h.idle]; rfl
  have after : o.state.flight = if env.transmitOk then [entry.seq] else [] := by
    rw [flight, h.pending]
    cases started : env.transmitOk with
    | true => rw [h.pendingSeq started]
    | false => rfl
  have acts := h.acts
  cases started : env.transmitOk with
  | true =>
    rw [started, if_pos rfl] at acts after
    rw [acts]
    constructor
    · rw [idle, after]
      rfl
    · exact .inr ⟨entry, rfl, h.seq, h.next⟩
    · exact List.Sublist.refl _
    · intro k
      rw [idle]
      rcases k with _ | _ | k
      · exact ⟨[], by decide, rfl⟩
      · exact ⟨[], by decide, rfl⟩
      · rcases k with _ | k
        · exact ⟨[entry.seq], by simp, rfl⟩
        · exact ⟨[entry.seq], by simp, by simp [acceptedIn, reportedIn]; rfl⟩
  | false =>
    rw [started, if_neg (by decide)] at acts after
    rw [acts]
    constructor
    · rw [idle, after]
      rfl
    · exact .inr ⟨entry, rfl, h.seq, h.next⟩
    · exact List.Sublist.refl _
    · intro k
      rw [idle]
      rcases k with _ | _ | _ | _ | k
      · exact ⟨[], by decide, rfl⟩
      · exact ⟨[], by decide, rfl⟩
      · exact ⟨[entry.seq], by simp, rfl⟩
      · exact ⟨[entry.seq], by simp, rfl⟩
      · exact ⟨[], by decide, by simp [acceptedIn, reportedIn]; rfl⟩

theorem page_reported {s t : CommandProcessor σ} {dest : List Sink} {ok : Bool}
    (flight' : s.txPending = true) (landed : t.txPending = false)
    (next : t.store.1.nextSeq = s.store.1.nextSeq) :
    Page s t [.frame dest ⟨0, .txResult s.txPendingSeq ok⟩] := by
  have before : s.flight = [s.txPendingSeq] := by rw [flight, flight']; rfl
  have after : t.flight = [] := by rw [flight, landed]; rfl
  constructor
  · rw [before, after]
    rfl
  · exact .inl ⟨rfl, next⟩
  · exact List.nil_sublist _
  · intro k
    rw [before]
    rcases k with _ | k
    · exact ⟨[s.txPendingSeq], by simp, rfl⟩
    · exact ⟨[], by decide, by simp [acceptedIn, reportedIn, Act.accepted, Act.reported]⟩

/-- One step keeps the ledger. -/
theorem Ledger.step {pbDecode : List UInt8 → Option ClientToRadio} {s : CommandProcessor σ}
    {e : Event} {o : Outcome σ} {acts : List Act} (h : Ledger s acts)
    (deed : Deed pbDecode s e o) : Ledger o.state (acts ++ o.acts) := by
  apply h.extend
  cases deed with
  | inert inert => exact page_silent inert.acts inert.pending inert.seq inert.next
  | store stored => exact page_stored stored
  | send _ _ _ sent => exact page_sent sent
  | report flight landed acts next =>
    rw [acts]
    exact page_reported flight landed next

theorem booted_ledger [SettingsStore σ] {s : CommandProcessor σ} (h : Booted s) : Ledger s [] := by
  obtain ⟨capacity, clock, settingsStore, boardName, fwVersion, response, beginOk, applyOk, rfl⟩ := h
  constructor
  · rfl
  · rfl
  · rfl
  · exact List.Sublist.refl _
  · intro p hp
    rw [List.prefix_nil.mp hp]
    exact ⟨[], by decide, rfl⟩

theorem run_ledger [SettingsStore σ] {pbDecode : List UInt8 → Option ClientToRadio}
    {s₀ : CommandProcessor σ} (boot : Booted s₀) (events : List Event) :
    Ledger (s₀.run pbDecode events).state (s₀.run pbDecode events).acts :=
  run_invariant (fun s _ acts => Ledger s acts) (booted_ledger boot)
    (fun s _ _ e h => h.step (step_deed s e)) events

/-- The calls account for every transmission: accepted once, reported once and
after that, at most one of them open at any time. -/
structure Accounted (acts : List Act) : Prop where
  acceptedOnce : (acceptedIn acts).Nodup
  reportedOnce : (reportedIn acts).Nodup
  reportedAfter : ∀ pre a post seq, acts = pre ++ a :: post → a.reported = some seq →
    seq ∈ acceptedIn pre
  acceptedBefore : ∀ pre a post seq, acts = pre ++ a :: post → a.accepted = some seq →
    seq ∉ reportedIn pre
  oneOpen : ∀ pre post, acts = pre ++ post →
    (acceptedIn pre).length ≤ (reportedIn pre).length + 1

/-- No number is given twice. -/
theorem Ledger.once {s : CommandProcessor σ} {acts : List Act} (h : Ledger s acts)
    (few : (storedIn acts).length < 2 ^ 32 - 1) : ((storedIn acts).map (·.seq)).Nodup := by
  rw [h.numbered]
  apply List.Nodup.map_on _ List.nodup_range'
  intro a ha b hb eq
  have ha' := List.mem_range'_1.mp ha
  have hb' := List.mem_range'_1.mp hb
  have := congrArg UInt32.toNat eq
  rw [UInt32.toNat_ofNat', UInt32.toNat_ofNat'] at this
  omega

theorem Ledger.nodup {s : CommandProcessor σ} {acts : List Act} (h : Ledger s acts)
    (few : (storedIn acts).length < 2 ^ 32 - 1) : (acceptedIn acts).Nodup :=
  h.accepted.nodup (h.once few)

theorem acceptedIn_cons (a : Act) (acts : List Act) :
    acceptedIn (a :: acts) = a.accepted.toList ++ acceptedIn acts := by
  cases h : a.accepted <;> simp [acceptedIn, h]

theorem reportedIn_cons (a : Act) (acts : List Act) :
    reportedIn (a :: acts) = a.reported.toList ++ reportedIn acts := by
  cases h : a.reported <;> simp [reportedIn, h]

theorem reported_not_accepted {a : Act} {seq : UInt32} (h : a.reported = some seq) :
    a.accepted = none := by
  cases a with
  | frame dest msg =>
    obtain ⟨id, body⟩ := msg
    cases body with
    | txResult seq ok => rfl
    | _ => cases h
  | _ => cases h

theorem Ledger.accounted {s : CommandProcessor σ} {acts : List Act} (h : Ledger s acts)
    (few : (storedIn acts).length < 2 ^ 32 - 1) : Accounted acts := by
  have nodup := h.nodup few
  constructor
  · exact nodup
  · rw [h.balance] at nodup
    exact nodup.of_append_left
  · intro pre a post seq split reported
    obtain ⟨open', _, balance⟩ := h.ordered (pre ++ [a]) ⟨post, by rw [split]; simp⟩
    rw [acceptedIn_append, acceptedIn_cons, reported_not_accepted reported, reportedIn_append,
      reportedIn_cons, reported] at balance
    have whole : acceptedIn pre = reportedIn pre ++ ([seq] ++ open') := by
      simpa [acceptedIn, reportedIn] using balance
    rw [whole]
    simp
  · intro pre a post seq split accepted early
    obtain ⟨open', _, balance⟩ := h.ordered pre ⟨a :: post, split.symm⟩
    rw [split, acceptedIn_append, acceptedIn_cons, accepted] at nodup
    have before : seq ∈ acceptedIn pre := by
      rw [balance]
      exact List.mem_append_left _ early
    exact (List.nodup_append.mp nodup).2.2 seq before seq (by simp) rfl
  · intro pre post split
    obtain ⟨open', short, balance⟩ := h.ordered pre ⟨post, split.symm⟩
    rw [balance, List.length_append]
    omega

/-! ## While a transmission is in flight -/

/-- The answers a SendPacket can get while another one is on the air. -/
theorem sendPacket_busy [SettingsStore σ] {s : CommandProcessor σ} (flight' : s.txPending = true)
    {sink : Sink} (authorized : s.isAuthorized sink = true) (env : Env) (id : UInt32)
    (raw : Payload) : ∃ code, (code = .busy ∨ code = .noRadio ∨ code = .badPayload) ∧
      s.handleRequest env ⟨id, .sendPacket raw⟩ sink = s.answer ⟨id, .error code []⟩ sink := by
  show ∃ code, _ ∧ s.handleSendPacket env id raw sink = _
  unfold handleSendPacket
  rw [requireAuth_authorized _ _ authorized]
  split
  · exact ⟨.badPayload, by simp, sendError_eq ..⟩
  split
  · exact ⟨.noRadio, by simp, sendError_eq ..⟩
  · exact ⟨.busy, by simp, sendError_eq ..⟩

theorem setRadioSettings_busy [SettingsStore σ] {s : CommandProcessor σ}
    (flight' : s.txPending = true) {sink : Sink} (authorized : s.isAuthorized sink = true)
    (env : Env) (id : UInt32) {m : RadioSettingsMessage} (valid : validTuning m = true) :
    s.handleRequest env ⟨id, .setRadioSettings (some m)⟩ sink =
      s.answer ⟨id, .error .busy []⟩ sink := by
  show s.handleSetRadioSettings env id (some m) sink = _
  unfold handleSetRadioSettings
  rw [requireAuth_authorized _ _ authorized]
  simp [valid, flight', sendError_eq]

/-- The step neither transmits nor accepts, or it is a SendPacket that was just
stored, answered and handed to the radio with the stored bytes. -/
def SendsOnly (pbDecode : List UInt8 → Option ClientToRadio) (s : CommandProcessor σ) (e : Event)
    (o : Outcome σ) : Prop :=
  transmittedIn o.acts = [] ∧ acceptedIn o.acts = [] ∨
    ∃ env data sink req raw entry, e = .envelope env data sink ∧
      decodeEnvelope pbDecode data = some req ∧ req.body = .sendPacket raw ∧
      Sent s env req.id raw sink o entry

theorem step_sendsOnly [SettingsStore σ] {pbDecode : List UInt8 → Option ClientToRadio}
    (s : CommandProcessor σ) (e : Event) : SendsOnly pbDecode s e (s.step pbDecode e) := by
  cases step_deed s e with
  | inert inert =>
    obtain ⟨_, transmitted, accepted, _⟩ := silent_lists inert.acts
    exact .inl ⟨transmitted, accepted⟩
  | store stored =>
    obtain ⟨rest, acts, silent⟩ := stored.acts
    obtain ⟨_, transmitted, accepted, _⟩ := silent_lists silent
    rw [SendsOnly, acts]
    exact .inl ⟨transmitted, accepted⟩
  | send event decoded body sent => exact .inr ⟨_, _, _, _, _, _, event, decoded, body, sent⟩
  | report flight landed acts next =>
    rw [SendsOnly, acts]
    exact .inl ⟨rfl, rfl⟩

/-- **Every accepted transmission is reported exactly once, and nothing else
is.** In every run from boot with fewer than 2^32 - 1 packets stored: only a
SendPacket that was just stored and accepted is transmitted, the results match
the acceptances one to one and come after them, an idle radio has none
outstanding, and while one is in flight the radio is left alone. -/
theorem every_transmission_reported [SettingsStore σ] (pbDecode : List UInt8 → Option ClientToRadio)
    {s₀ : CommandProcessor σ} (boot : Booted s₀) (events : List Event)
    (few : (storedIn (s₀.run pbDecode events).acts).length < 2 ^ 32 - 1) :
    (∀ pre e post, events = pre ++ e :: post →
      SendsOnly pbDecode (s₀.run pbDecode pre).state e ((s₀.run pbDecode pre).state.step pbDecode e)) ∧
    Accounted (s₀.run pbDecode events).acts ∧
    ((s₀.run pbDecode events).state.txPending = false →
      reportedIn (s₀.run pbDecode events).acts = acceptedIn (s₀.run pbDecode events).acts) ∧
    ((s₀.run pbDecode events).state.txPending = true →
      ∀ sink, (s₀.run pbDecode events).state.isAuthorized sink = true → ∀ env id,
        (∀ raw, ∃ code, (code = .busy ∨ code = .noRadio ∨ code = .badPayload) ∧
          (s₀.run pbDecode events).state.handleRequest env ⟨id, .sendPacket raw⟩ sink =
            (s₀.run pbDecode events).state.answer ⟨id, .error code []⟩ sink) ∧
        ∀ m, validTuning m = true →
          (s₀.run pbDecode events).state.handleRequest env ⟨id, .setRadioSettings (some m)⟩ sink =
            (s₀.run pbDecode events).state.answer ⟨id, .error .busy []⟩ sink) := by
  have ledger : Ledger (s₀.run pbDecode events).state (s₀.run pbDecode events).acts :=
    run_ledger boot events
  refine ⟨?_, ledger.accounted few, ?_, ?_⟩
  · intro pre e post _
    exact step_sendsOnly _ e
  · intro idle
    have balance := ledger.balance
    rw [flight, idle] at balance
    simpa using balance.symm
  · intro flight' sink authorized env id
    constructor
    · intro raw
      exact sendPacket_busy flight' authorized env id raw
    · intro m valid
      exact setRadioSettings_busy flight' authorized env id valid

/-- A login, a packet sent, its completion. -/
def oneSend : List Event := [.connect 1, sampleEvent 0 1, sampleEvent 3 1, .poll 5 true]

theorem every_transmission_reported_one_send :
    (∀ pre e post, oneSend = pre ++ e :: post →
      SendsOnly sampleDecode (sampleBoot.run sampleDecode pre).state e
        ((sampleBoot.run sampleDecode pre).state.step sampleDecode e)) ∧
    Accounted (sampleBoot.run sampleDecode oneSend).acts ∧
    ((sampleBoot.run sampleDecode oneSend).state.txPending = false →
      reportedIn (sampleBoot.run sampleDecode oneSend).acts =
        acceptedIn (sampleBoot.run sampleDecode oneSend).acts) ∧
    ((sampleBoot.run sampleDecode oneSend).state.txPending = true →
      ∀ sink, (sampleBoot.run sampleDecode oneSend).state.isAuthorized sink = true → ∀ env id,
        (∀ raw, ∃ code, (code = .busy ∨ code = .noRadio ∨ code = .badPayload) ∧
          (sampleBoot.run sampleDecode oneSend).state.handleRequest env ⟨id, .sendPacket raw⟩ sink =
            (sampleBoot.run sampleDecode oneSend).state.answer ⟨id, .error code []⟩ sink) ∧
        ∀ m, validTuning m = true →
          (sampleBoot.run sampleDecode oneSend).state.handleRequest env
              ⟨id, .setRadioSettings (some m)⟩ sink =
            (sampleBoot.run sampleDecode oneSend).state.answer ⟨id, .error .busy []⟩ sink) :=
  every_transmission_reported sampleDecode sampleBoot_booted oneSend (by decide)

end MeshPigeon.CommandProcessor
