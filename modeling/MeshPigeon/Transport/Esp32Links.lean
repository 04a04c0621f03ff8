import MeshPigeon.Transport.Esp32Callbacks

/-! Which link a connection slot serves. -/
namespace MeshPigeon.Esp32Ble.BleSink

variable {s : BleSink}

/-! ## Runs -/

/-- The condition under which slots serve their own links: no link comes up with
a handle that a slot still in use carries. -/
def EventCalm (s : BleSink) : Event → Prop
  | .onConnect handle => s.linkOf handle = none → s.Unclaimed handle
  | _ => True

def Calm (s : BleSink) : List Event → Prop
  | [] => True
  | e :: es => EventCalm s e ∧ Calm (s.step e) es

instance (s : BleSink) (handle : UInt16) : Decidable (s.Unclaimed handle) :=
  inferInstanceAs (Decidable (∀ i, (s.conns i).inUse = true → (s.conns i).handle ≠ handle))

instance (s : BleSink) : (e : Event) → Decidable (EventCalm s e)
  | .onConnect handle => inferInstanceAs (Decidable (s.linkOf handle = none → s.Unclaimed handle))
  | .onSubscribe .. => .isTrue trivial
  | .onWrite .. => .isTrue trivial
  | .onDisconnect .. => .isTrue trivial
  | .turn .. => .isTrue trivial
  | .work .. => .isTrue trivial

instance decidableCalm (s : BleSink) : (events : List Event) → Decidable (Calm s events)
  | [] => .isTrue trivial
  | e :: es =>
    have := decidableCalm (s.step e) es
    inferInstanceAs (Decidable (EventCalm s e ∧ Calm (s.step e) es))

theorem Served.step (h : Served s) {e : Event} (calm : EventCalm s e) : Served (s.step e) := by
  cases e with
  | onConnect handle => exact h.onConnect calm
  | onSubscribe link subValue => exact h.onSubscribe link subValue
  | onWrite link data => exact h.onWrite link data
  | onDisconnect link => exact h.onDisconnect link
  | turn i added => exact h.turn i added
  | work w => exact h.work w

theorem Served.run (h : Served s) {events : List Event} (calm : Calm s events) :
    Served (s.run events) := by
  induction events generalizing s with
  | nil => exact h
  | cons e es ih => exact ih (h.step calm.1) calm.2

/-! ## What a pump leaves -/

/-- The slot has had its turn: registered, unless its link is gone or was turned away. -/
structure Done (s : BleSink) (i : Slot) : Prop where
  registered : (s.conns i).inUse = true → (s.conns i).pendingDisconnect = false →
    (s.conns i).registered = true
  waits : (s.conns i).registered = true → (s.conns i).pendingDisconnect = false

theorem Done.congr {t : BleSink} {i : Slot} (h : Done s i)
    (inUse : (t.conns i).inUse = (s.conns i).inUse)
    (pending : (t.conns i).pendingDisconnect = (s.conns i).pendingDisconnect)
    (registered : (t.conns i).registered = (s.conns i).registered) : Done t i := by
  constructor
  · rw [inUse, pending, registered]
    exact h.registered
  · rw [pending, registered]
    exact h.waits

theorem turn_done (s : BleSink) (i : Slot) (added : Bool) : Done (s.turn i added) i := by
  have turned := turn_cases s i added
  generalize s.turn i added = t at turned ⊢
  cases turned with
  | release =>
    constructor <;> simp [BleSink.release]
  | unused pending unused =>
    constructor
    · intro used
      rw [unused] at used
      cases used
    · intro _
      exact pending
  | turnAway _ _ unregistered =>
    constructor <;> simp [BleSink.turnAway, unregistered]
  | register pending =>
    constructor <;> simp [BleSink.register, pending]
  | settled pending _ registered => exact ⟨fun _ _ => registered, fun _ => pending⟩

theorem turn_other {i j : Slot} (ne : j ≠ i) (added : Bool) :
    (s.turn i added).conns j = s.conns j := by
  have turned := turn_cases s i added
  generalize s.turn i added = t at turned ⊢
  cases turned with
  | release => exact if_neg ne
  | unused => rfl
  | turnAway => exact if_neg ne
  | register => exact if_neg ne
  | settled => rfl

theorem Served.works (h : Served s) (ws : List Work) :
    Served (s.run (ws.map Event.work)) ∧ ∀ i, Done s i → Done (s.run (ws.map Event.work)) i := by
  induction ws generalizing s with
  | nil => exact ⟨h, fun _ done => done⟩
  | cons w ws ih =>
    obtain ⟨served, done⟩ := ih (h.work w)
    have same := sameClaims_work s w
    exact ⟨served, fun i before =>
      done i (before.congr (same.inUse i) (same.pending i) (same.registered i))⟩

/-- A slot's turn leaves it done, and the others as they were. -/
theorem Served.block (h : Served s) (i : Slot) (t : Bool × List Work) :
    Served (s.run (.turn i t.1 :: t.2.map Event.work)) ∧
      ∀ j, j = i ∨ Done s j → Done (s.run (.turn i t.1 :: t.2.map Event.work)) j := by
  obtain ⟨served, kept⟩ := (h.turn i t.1).works t.2
  refine ⟨served, ?_⟩
  intro j either
  apply kept
  by_cases self : j = i
  · subst self
    exact turn_done s j t.1
  · have done := either.resolve_left self
    have same := turn_other (s := s) self t.1
    exact done.congr (by rw [same]) (by rw [same]) (by rw [same])

theorem Served.turns (h : Served s) (turns : Slot → Bool × List Work) (slots : List Slot) :
    Served (s.run (slots.flatMap fun i => .turn i (turns i).1 :: (turns i).2.map Event.work)) ∧
      ∀ j, j ∈ slots ∨ Done s j → Done (s.run (slots.flatMap fun i =>
        .turn i (turns i).1 :: (turns i).2.map Event.work)) j := by
  induction slots generalizing s with
  | nil => exact ⟨h, fun j either => either.resolve_left List.not_mem_nil⟩
  | cons i slots ih =>
    obtain ⟨first, done⟩ := h.block i (turns i)
    obtain ⟨rest, done'⟩ := ih first
    rw [List.flatMap_cons, BleSink.run, List.foldl_append]
    refine ⟨rest, ?_⟩
    intro j either
    apply done'
    rcases either with member | before
    · rcases List.mem_cons.mp member with rfl | later
      · exact .inr (done j (.inl rfl))
      · exact .inl later
    · exact .inr (done j (.inr before))

/-- Each live link that was admitted has one slot, registered once, and no slot
is registered without a live link. -/
structure Settled (s : BleSink) : Prop where
  served : ∀ p ∈ s.live, p.1 ∉ s.turnedAway → ∃ i,
    ((s.conns i).inUse = true ∧ (s.conns i).owner = some p.1 ∧ s.sinks.count i = 1) ∧
      ∀ j, (s.conns j).inUse = true → (s.conns j).owner = some p.1 → j = i
  linked : ∀ i ∈ s.sinks, (s.conns i).inUse = true ∧
    ∃ p ∈ s.live, (s.conns i).owner = some p.1

theorem Served.pump (h : Served s) (turns : Slot → Bool × List Work) :
    Settled (s.run (pump turns)) := by
  obtain ⟨served, done⟩ := h.turns turns (List.finRange kMaxCentrals)
  unfold BleSink.pump
  generalize s.run _ = t at served done ⊢
  have done (j : Slot) : Done t j := done j (.inl (List.mem_finRange j))
  constructor
  · intro p hp admitted
    obtain ⟨i, used, owner⟩ := served.admitted p hp admitted
    refine ⟨i, ⟨used, owner, ?_⟩, ?_⟩
    · obtain ⟨link, owned⟩ := served.owned i used
      have same : p.1 = link := Option.some.inj (owner.symm.trans owned.owner)
      have ready : (t.conns i).pendingDisconnect = false := by
        apply Bool.eq_false_iff.mpr
        intro pending
        exact admitted (same ▸ owned.gone pending p hp same)
      rw [served.sinks i, if_pos ((done i).registered used ready)]
    · intro j used' owner'
      exact served.apart j i used' used (.inr (owner'.trans owner.symm))
  · intro i member
    have registered := served.mem_sinks member
    have used := served.registered i registered
    obtain ⟨link, owned⟩ := served.owned i used
    exact ⟨used, _, owned.live ((done i).waits registered), owned.owner⟩

/-! ## Bytes and subscriptions -/

/-- What a live link writes and subscribes to goes to its own slot, or nowhere
if it was turned away; a link that was admitted has a slot. -/
structure Records (s : BleSink) : Prop where
  own : ∀ p ∈ s.live, ∀ i, (s.conns i).inUse = true → (s.conns i).owner = some p.1 →
    (∀ data, s.onWrite p.1 data =
      s.set i { s.conns i with rx := (s.conns i).rx.write data }) ∧
    ∀ subValue, s.onSubscribe p.1 subValue =
      s.set i { s.conns i with subscribed := subValue ≠ 0 }
  stray : ∀ p ∈ s.live, (∀ i, (s.conns i).inUse = true → (s.conns i).owner ≠ some p.1) →
    (∀ data, s.onWrite p.1 data = s) ∧ ∀ subValue, s.onSubscribe p.1 subValue = s
  admitted : ∀ p ∈ s.live, p.1 ∉ s.turnedAway →
    ∃ i, (s.conns i).inUse = true ∧ (s.conns i).owner = some p.1

theorem Served.records (h : Served s) : Records s := by
  constructor
  · intro p hp i used owner
    obtain ⟨link, owned⟩ := h.owned i used
    have same : p.1 = link := Option.some.inj (owner.symm.trans owned.owner)
    have handle : p.2 = (s.conns i).handle := (owned.own p hp).mpr same
    have found : (s.handleOf p.1).bind s.find = some i := by
      rw [h.handleOf hp, handle]
      exact h.find used
    constructor
    · intro data
      simp only [BleSink.onWrite, found]
    · intro subValue
      simp only [BleSink.onSubscribe, found]
  · intro p hp none'
    have missing : (s.handleOf p.1).bind s.find = none := by
      rw [h.handleOf hp]
      cases found : s.find p.2 with
      | none => exact found
      | some i =>
        obtain ⟨used, handle⟩ := of_find found
        obtain ⟨link, owned⟩ := h.owned i used
        have same : p.1 = link := (owned.own p hp).mp handle.symm
        exact absurd (owned.owner.trans (congrArg some same.symm)) (none' i used)
    constructor
    · intro data
      simp only [BleSink.onWrite, missing]
    · intro subValue
      simp only [BleSink.onSubscribe, missing]
  · exact h.admitted

/-- What a connection slot owes its link, over a run. -/
structure ServesOwnLinks (events : List Event) : Prop where
  notifies : ∀ n ∈ (run {} events).notified, n.owner = some n.dest
  records : Records (run {} events)
  pumped : ∀ turns, Settled ((run {} events).run (pump turns))

/-- **A slot serves only the link it was claimed for.** In every run in which no
link comes up with a handle that a slot in use still carries, every notification
goes to the link its slot was claimed for, what a live link sends is recorded in
its own slot, and a pump leaves every admitted link with one registered slot and
no slot registered without a link. -/
theorem slots_serve_their_links (events : List Event) (calm : Calm {} events) :
    ServesOwnLinks events := by
  have served : Served (run {} events) := served_new.run calm
  exact ⟨served.notified, served.records, served.pump⟩

/-- A central connects, subscribes and leaves; before the next pump another one
comes up with the handle given, and the core broadcasts. -/
def reconnected (handle : UInt16) : List Event :=
  [.onConnect 7, .turn 0 true, .onSubscribe 0 1, .onDisconnect 0, .onConnect handle,
    .work (.send 0 [0x08, 0x01] 23 [true])]

theorem slots_serve_their_links_other_handle : ServesOwnLinks (reconnected 8) :=
  slots_serve_their_links (reconnected 8) (by decide)

set_option maxRecDepth 2000 in
/-- With the same handle, a frame of the first link's session goes to the second link. -/
theorem reconnected_not_served : ¬ServesOwnLinks (reconnected 7) := by
  intro serves
  exact absurd serves.notifies (by decide)

end MeshPigeon.Esp32Ble.BleSink
