import MeshPigeon.Transport.Esp32Ble

/-! The link a slot was claimed for, and the steps of the board loop. -/
namespace MeshPigeon.Esp32Ble.BleSink

@[simp] theorem set_conns (s : BleSink) (i j : Slot) (c : Connection) :
    (s.set i c).conns j = if j = i then c else s.conns j := rfl

/-- What a slot in use may rely on about its link. -/
structure Owned (s : BleSink) (i : Slot) (link : Link) : Prop where
  owner : (s.conns i).owner = some link
  old : link < s.nextLink
  /-- whoever has the handle of the slot is its link -/
  own : ∀ p ∈ s.live, p.2 = (s.conns i).handle ↔ p.1 = link
  /-- a slot still waiting for its disconnect has a live link -/
  live : (s.conns i).pendingDisconnect = false → (link, (s.conns i).handle) ∈ s.live
  /-- a link that is live behind a pending slot was turned away -/
  gone : (s.conns i).pendingDisconnect = true → ∀ p ∈ s.live, p.1 = link → link ∈ s.turnedAway

structure Served (s : BleSink) : Prop where
  old : ∀ p ∈ s.live, p.1 < s.nextLink
  links : ∀ p ∈ s.live, ∀ q ∈ s.live, p.1 = q.1 → p = q
  handles : ∀ p ∈ s.live, ∀ q ∈ s.live, p.2 = q.2 → p = q
  owned : ∀ i, (s.conns i).inUse = true → ∃ link, Owned s i link
  apart : ∀ i j, (s.conns i).inUse = true → (s.conns j).inUse = true →
    (s.conns i).handle = (s.conns j).handle ∨ (s.conns i).owner = (s.conns j).owner → i = j
  pending : ∀ i, (s.conns i).pendingDisconnect = true → (s.conns i).inUse = true
  registered : ∀ i, (s.conns i).registered = true → (s.conns i).inUse = true
  sinks : ∀ i, s.sinks.count i = if (s.conns i).registered then 1 else 0
  admitted : ∀ p ∈ s.live, p.1 ∉ s.turnedAway →
    ∃ i, (s.conns i).inUse = true ∧ (s.conns i).owner = some p.1
  notified : ∀ n ∈ s.notified, n.owner = some n.dest

variable {s : BleSink}

theorem served_new : Served {} := by
  constructor <;> simp

/-! ## Looking slots and links up -/

theorem mem_of_handleOf {link : Link} {handle : UInt16} (h : s.handleOf link = some handle) :
    (link, handle) ∈ s.live := by
  obtain ⟨p, found, rfl⟩ := Option.map_eq_some_iff.mp h
  have key : p.1 = link := by simpa using List.find?_some found
  rw [← key]
  exact List.mem_of_find?_eq_some found

theorem mem_of_linkOf {link : Link} {handle : UInt16} (h : s.linkOf handle = some link) :
    (link, handle) ∈ s.live := by
  obtain ⟨p, found, rfl⟩ := Option.map_eq_some_iff.mp h
  have key : p.2 = handle := by simpa using List.find?_some found
  rw [← key]
  exact List.mem_of_find?_eq_some found

theorem unused_of_linkOf {handle : UInt16} (h : ¬(s.linkOf handle).isSome = true) :
    ∀ p ∈ s.live, p.2 ≠ handle := by
  have none' : s.linkOf handle = none := by simpa using h
  simpa [linkOf] using none'

theorem of_find {handle : UInt16} {i : Slot} (h : s.find handle = some i) :
    (s.conns i).inUse = true ∧ (s.conns i).handle = handle := by
  simpa using List.find?_some h

theorem of_find_none {handle : UInt16} (h : s.find handle = none) :
    ∀ i, (s.conns i).inUse = true → (s.conns i).handle ≠ handle := by
  simpa [find] using h

theorem of_firstFree {i : Slot} (h : s.firstFree = some i) : (s.conns i).inUse = false := by
  simpa using List.find?_some h

theorem Served.find (h : Served s) {i : Slot} (inUse : (s.conns i).inUse = true) :
    s.find (s.conns i).handle = some i := by
  cases found : s.find (s.conns i).handle with
  | none => exact absurd rfl (of_find_none found i inUse)
  | some j =>
    obtain ⟨inUse', same⟩ := of_find found
    rw [h.apart j i inUse' inUse (.inl same)]

theorem Served.handleOf (h : Served s) {link : Link} {handle : UInt16}
    (live : (link, handle) ∈ s.live) : s.handleOf link = some handle := by
  cases found : s.handleOf link with
  | none =>
    have absent : ∀ p ∈ s.live, p.1 ≠ link := by simpa [BleSink.handleOf] using found
    exact absurd rfl (absent _ live)
  | some handle' =>
    have same := h.links _ (mem_of_handleOf found) _ live rfl
    rw [(Prod.mk.inj same).2]

/-- A field of the slots that only slot `i` could have changed, and did not. -/
theorem field_same {t : BleSink} {i : Slot} (other : ∀ {j : Slot}, j ≠ i → t.conns j = s.conns j)
    {α : Type} (f : Connection → α) (self : f (t.conns i) = f (s.conns i)) (j : Slot) :
    f (t.conns j) = f (s.conns j) := by
  by_cases ne : j = i
  · rw [ne]
    exact self
  · rw [other ne]

/-- A flag that only slots in use have, still so when only slot `i` could have changed. -/
theorem inUse_set {t : BleSink} {i : Slot} (flag : Connection → Bool)
    (kept : ∀ j, flag (s.conns j) = true → (s.conns j).inUse = true)
    (other : ∀ {j : Slot}, j ≠ i → t.conns j = s.conns j)
    (here : flag (t.conns i) = true → (t.conns i).inUse = true) :
    ∀ j, flag (t.conns j) = true → (t.conns j).inUse = true := by
  intro j set
  by_cases ne : j = i
  · subst ne
    exact here set
  · rw [other ne] at *
    exact kept j set

theorem Served.apart_congr (h : Served s) {t : BleSink}
    (inUse : ∀ i, (t.conns i).inUse = (s.conns i).inUse)
    (handle : ∀ i, (t.conns i).handle = (s.conns i).handle)
    (owner : ∀ i, (t.conns i).owner = (s.conns i).owner) :
    ∀ i j, (t.conns i).inUse = true → (t.conns j).inUse = true →
      (t.conns i).handle = (t.conns j).handle ∨ (t.conns i).owner = (t.conns j).owner → i = j := by
  simpa only [inUse, handle, owner] using h.apart

theorem Served.admitted_congr (h : Served s) {t : BleSink}
    (inUse : ∀ i, (t.conns i).inUse = (s.conns i).inUse)
    (owner : ∀ i, (t.conns i).owner = (s.conns i).owner)
    (grows : ∀ l ∈ s.turnedAway, l ∈ t.turnedAway) :
    ∀ p ∈ s.live, p.1 ∉ t.turnedAway →
      ∃ i, (t.conns i).inUse = true ∧ (t.conns i).owner = some p.1 := by
  intro p hp admitted
  obtain ⟨i, used, own⟩ := h.admitted p hp fun away => admitted (grows _ away)
  exact ⟨i, (inUse i).trans used, (owner i).trans own⟩

/-- Slot `i` is new, and apart from every other slot in use. -/
theorem Served.apart_set (h : Served s) {t : BleSink} {i : Slot}
    (other : ∀ {j : Slot}, j ≠ i → t.conns j = s.conns j)
    (distinct : ∀ {j : Slot}, j ≠ i → (s.conns j).inUse = true →
      (s.conns j).handle ≠ (t.conns i).handle ∧ (s.conns j).owner ≠ (t.conns i).owner) :
    ∀ j k, (t.conns j).inUse = true → (t.conns k).inUse = true →
      (t.conns j).handle = (t.conns k).handle ∨ (t.conns j).owner = (t.conns k).owner → j = k := by
  intro j k used used' same
  by_cases ne : j = i
  · by_cases ne' : k = i
    · rw [ne, ne']
    · rw [other ne'] at used' same
      obtain ⟨handles, owners⟩ := distinct ne' used'
      rw [ne] at same
      exact absurd same (not_or.mpr ⟨handles.symm, owners.symm⟩)
  · rw [other ne] at used same
    by_cases ne' : k = i
    · obtain ⟨handles, owners⟩ := distinct ne used
      rw [ne'] at same
      exact absurd same (not_or.mpr ⟨handles, owners⟩)
    · rw [other ne'] at used' same
      exact h.apart j k used used' same

/-! ## Steps that claim and release nothing -/

/-- The stores of claims are the same. -/
structure SameClaims (s t : BleSink) : Prop where
  live : t.live = s.live
  nextLink : t.nextLink = s.nextLink
  turnedAway : t.turnedAway = s.turnedAway
  sinks : t.sinks = s.sinks
  handle : ∀ i, (t.conns i).handle = (s.conns i).handle
  inUse : ∀ i, (t.conns i).inUse = (s.conns i).inUse
  pending : ∀ i, (t.conns i).pendingDisconnect = (s.conns i).pendingDisconnect
  registered : ∀ i, (t.conns i).registered = (s.conns i).registered
  owner : ∀ i, (t.conns i).owner = (s.conns i).owner

theorem SameClaims.refl (s : BleSink) : SameClaims s s := by
  constructor <;> intros <;> rfl

theorem sameClaims_set {i : Slot} {c : Connection} (handle : c.handle = (s.conns i).handle)
    (inUse : c.inUse = (s.conns i).inUse)
    (pending : c.pendingDisconnect = (s.conns i).pendingDisconnect)
    (registered : c.registered = (s.conns i).registered) (owner : c.owner = (s.conns i).owner) :
    SameClaims s (s.set i c) := by
  constructor
  all_goals try rfl
  all_goals
    intro j
    rw [set_conns]
    split
    · rename_i self
      subst self
      assumption
    · rfl

theorem SameClaims.served {t : BleSink} (same : SameClaims s t) (h : Served s)
    (notified : ∀ n ∈ t.notified, n.owner = some n.dest) : Served t := by
  obtain ⟨live, nextLink, turnedAway, sinks, handle, inUse, pending, registered, owner⟩ := same
  constructor
  · simpa only [live, nextLink] using h.old
  · simpa only [live] using h.links
  · simpa only [live] using h.handles
  · intro i used
    rw [inUse] at used
    obtain ⟨link, owned⟩ := h.owned i used
    refine ⟨link, ?_⟩
    constructor
    · simpa only [owner] using owned.owner
    · simpa only [nextLink] using owned.old
    · simpa only [live, handle] using owned.own
    · simpa only [live, handle, pending] using owned.live
    · simpa only [live, pending, turnedAway] using owned.gone
  · exact h.apart_congr inUse handle owner
  · simpa only [pending, inUse] using h.pending
  · simpa only [registered, inUse] using h.registered
  · simpa only [sinks, registered] using h.sinks
  · simpa only [live, turnedAway, inUse, owner] using h.admitted
  · exact notified

theorem sameClaims_onSubscribe (s : BleSink) (link : Link) (subValue : UInt16) :
    SameClaims s (s.onSubscribe link subValue) := by
  unfold onSubscribe
  split
  · exact SameClaims.refl s
  · exact sameClaims_set rfl rfl rfl rfl rfl

theorem sameClaims_onWrite (s : BleSink) (link : Link) (data : List UInt8) :
    SameClaims s (s.onWrite link data) := by
  unfold onWrite
  split
  · exact SameClaims.refl s
  · exact sameClaims_set rfl rfl rfl rfl rfl

theorem sameClaims_sendFrame (s : BleSink) (i : Slot) (decoded : List UInt8) (mtu : UInt16)
    (oks : List Bool) : SameClaims s (s.sendFrame i decoded mtu oks) := by
  unfold sendFrame
  dsimp only
  split
  · exact SameClaims.refl s
  · split
    · exact SameClaims.refl s
    · constructor <;> intros <;> rfl

theorem sameClaims_work (s : BleSink) (w : Work) : SameClaims s (s.work w) := by
  cases w with
  | drain i n =>
    show SameClaims s (s.drain i n)
    unfold drain
    dsimp only
    split
    · exact sameClaims_set rfl rfl rfl rfl rfl
    · exact SameClaims.refl s
  | authenticate i flag => exact sameClaims_set rfl rfl rfl rfl rfl
  | send i decoded mtu oks =>
    show SameClaims s (if i ∈ s.sinks then s.sendFrame i decoded mtu oks else s)
    split
    · exact sameClaims_sendFrame s i decoded mtu oks
    · exact SameClaims.refl s

theorem Served.mem_sinks (h : Served s) {i : Slot} (member : i ∈ s.sinks) :
    (s.conns i).registered = true := by
  have count := h.sinks i
  have pos := List.count_pos_iff.mpr member
  apply Classical.byContradiction
  intro unregistered
  rw [if_neg unregistered] at count
  omega

/-- A slot in the registry sends to the link it was claimed for. -/
theorem Served.sendFrame (h : Served s) {i : Slot} (member : i ∈ s.sinks) (decoded : List UInt8)
    (mtu : UInt16) (oks : List Bool) :
    ∀ n ∈ (s.sendFrame i decoded mtu oks).notified, n.owner = some n.dest := by
  unfold BleSink.sendFrame
  dsimp only
  split
  · exact h.notified
  · split
    · exact h.notified
    · rename_i dest reached
      intro n hn
      rcases List.mem_append.mp hn with before | now
      · exact h.notified n before
      · obtain ⟨bytes, _, rfl⟩ := List.mem_map.mp now
        obtain ⟨link, owned⟩ := h.owned i (h.registered i (h.mem_sinks member))
        have same : dest = link := (owned.own _ (mem_of_linkOf reached)).mp rfl
        rw [owned.owner, same]

theorem Served.work (h : Served s) (w : Work) : Served (s.work w) := by
  apply (sameClaims_work s w).served h
  cases w with
  | drain i n =>
    show ∀ n' ∈ (s.drain i n).notified, _
    unfold drain
    dsimp only
    split <;> exact h.notified
  | authenticate i flag => exact h.notified
  | send i decoded mtu oks =>
    show ∀ n ∈ (if i ∈ s.sinks then s.sendFrame i decoded mtu oks else s).notified, _
    split
    · rename_i member
      exact h.sendFrame member decoded mtu oks
    · exact h.notified

theorem Served.onSubscribe (h : Served s) (link : Link) (subValue : UInt16) :
    Served (s.onSubscribe link subValue) := by
  apply (sameClaims_onSubscribe s link subValue).served h
  unfold BleSink.onSubscribe
  split <;> exact h.notified

theorem Served.onWrite (h : Served s) (link : Link) (data : List UInt8) :
    Served (s.onWrite link data) := by
  apply (sameClaims_onWrite s link data).served h
  unfold BleSink.onWrite
  split <;> exact h.notified

/-! ## The turns of a pump -/

/-- The slot of a link that left, given back. -/
def release (s : BleSink) (i : Slot) : BleSink :=
  { s with sinks := if (s.conns i).registered then s.sinks.erase i else s.sinks }.set i
    { s.conns i with
      pendingDisconnect := false
      registered := false
      rx := RxFifo.clear
      reader := FrameReader.reset
      inUse := false }

/-- The registry is full: the link is turned away. -/
def turnAway (s : BleSink) (i : Slot) : BleSink :=
  { s with turnedAway := (s.conns i).owner.toList ++ s.turnedAway }.set i
    { s.conns i with pendingDisconnect := true }

def register (s : BleSink) (i : Slot) : BleSink :=
  { s with sinks := s.sinks ++ [i] }.set i { s.conns i with registered := true }

/-- What one turn comes to. -/
inductive Turned (s : BleSink) (i : Slot) : BleSink → Prop
  | release : (s.conns i).pendingDisconnect = true → Turned s i (s.release i)
  | unused : (s.conns i).pendingDisconnect = false → (s.conns i).inUse = false → Turned s i s
  | turnAway : (s.conns i).pendingDisconnect = false → (s.conns i).inUse = true →
      (s.conns i).registered = false → Turned s i (s.turnAway i)
  | register : (s.conns i).pendingDisconnect = false → (s.conns i).inUse = true →
      (s.conns i).registered = false → Turned s i (s.register i)
  | settled : (s.conns i).pendingDisconnect = false → (s.conns i).inUse = true →
      (s.conns i).registered = true → Turned s i s

theorem turn_cases (s : BleSink) (i : Slot) (added : Bool) : Turned s i (s.turn i added) := by
  unfold turn
  dsimp only
  split
  · rename_i pending
    have same : (if (s.conns i).registered = true then { s with sinks := s.sinks.erase i } else s) =
        { s with sinks := if (s.conns i).registered then s.sinks.erase i else s.sinks } := by
      split <;> rfl
    rw [same]
    exact .release pending
  · rename_i pending
    have pending := Bool.eq_false_iff.mpr pending
    split
    · rename_i unused
      exact .unused pending (by simpa using unused)
    · rename_i used
      have inUse : (s.conns i).inUse = true := by simpa using used
      split
      · rename_i unregistered
        have registered : (s.conns i).registered = false := by simpa using unregistered
        split
        · exact .turnAway pending inUse registered
        · exact .register pending inUse registered
      · rename_i registered
        exact .settled pending inUse (by simpa using registered)

/-- The link of a slot, seen from a state in which only other slots changed. -/
theorem Owned.mono {t : BleSink} {i : Slot} {link : Link} (h : Owned s i link)
    (conn : t.conns i = s.conns i) (live : t.live = s.live) (nextLink : t.nextLink = s.nextLink)
    (turnedAway : ∀ l ∈ s.turnedAway, l ∈ t.turnedAway) : Owned t i link := by
  constructor
  · rw [conn]
    exact h.owner
  · rw [nextLink]
    exact h.old
  · rw [conn, live]
    exact h.own
  · rw [conn, live]
    exact h.live
  · rw [conn, live]
    intro pending p hp same
    exact turnedAway _ (h.gone pending p hp same)

theorem Served.release (h : Served s) {i : Slot} (pending : (s.conns i).pendingDisconnect = true) :
    Served (s.release i) := by
  have other {j : Slot} (ne : j ≠ i) : (s.release i).conns j = s.conns j := if_neg ne
  have self : (s.release i).conns i = { s.conns i with
      pendingDisconnect := false
      registered := false
      rx := RxFifo.clear
      reader := FrameReader.reset
      inUse := false } := if_pos rfl
  have rest {j : Slot} (used : ((s.release i).conns j).inUse = true) : j ≠ i := by
    rintro rfl
    rw [self] at used
    cases used
  constructor
  · exact h.old
  · exact h.links
  · exact h.handles
  · intro j used
    have ne := rest used
    rw [other ne] at used
    obtain ⟨link, owned⟩ := h.owned j used
    exact ⟨link, owned.mono (other ne) rfl rfl fun _ hl => hl⟩
  · intro j k used used'
    have ne := rest used
    have ne' := rest used'
    rw [other ne, other ne'] at *
    exact h.apart j k used used'
  · exact inUse_set Connection.pendingDisconnect h.pending other (by rw [self]; exact nofun)
  · exact inUse_set Connection.registered h.registered other (by rw [self]; exact nofun)
  · intro j
    have count := h.sinks j
    by_cases ne : j = i
    · subst ne
      rw [self]
      show List.count j (if (s.conns j).registered then s.sinks.erase j else s.sinks) = _
      split
      · rename_i registered
        rw [if_pos registered] at count
        rw [List.count_erase_self, count]
        rfl
      · rename_i registered
        rw [if_neg registered] at count
        rw [count]
        rfl
    · rw [other ne, ← count]
      show List.count j (if (s.conns i).registered then s.sinks.erase i else s.sinks) = _
      split
      · exact List.count_erase_of_ne ne
      · rfl
  · intro p hp admitted
    obtain ⟨j, used, owner⟩ := h.admitted p hp admitted
    have ne : j ≠ i := by
      rintro rfl
      obtain ⟨link, owned⟩ := h.owned j used
      have same : p.1 = link := Option.some.inj (owner.symm.trans owned.owner)
      exact admitted (same ▸ owned.gone pending p hp same)
    refine ⟨j, ?_, ?_⟩
    · rw [other ne]
      exact used
    · rw [other ne]
      exact owner
  · exact h.notified

theorem Served.turnAway (h : Served s) {i : Slot} (inUse : (s.conns i).inUse = true) :
    Served (s.turnAway i) := by
  have other {j : Slot} (ne : j ≠ i) : (s.turnAway i).conns j = s.conns j := if_neg ne
  have self : (s.turnAway i).conns i = { s.conns i with pendingDisconnect := true } := if_pos rfl
  have sameUse := field_same other Connection.inUse (by rw [self])
  have sameHandle := field_same other Connection.handle (by rw [self])
  have sameOwner := field_same other Connection.owner (by rw [self])
  have sameRegistered := field_same other Connection.registered (by rw [self])
  have grows : ∀ l ∈ s.turnedAway, l ∈ (s.turnAway i).turnedAway := by
    intro l hl
    exact List.mem_append_right _ hl
  constructor
  · exact h.old
  · exact h.links
  · exact h.handles
  · intro j used
    rw [sameUse j] at used
    obtain ⟨link, owned⟩ := h.owned j used
    refine ⟨link, ?_⟩
    by_cases ne : j = i
    · subst ne
      constructor
      · rw [self]
        exact owned.owner
      · exact owned.old
      · rw [self]
        exact owned.own
      · rw [self]
        intro waits
        cases waits
      · intro _ _ _ _
        exact List.mem_append_left _ (by simp [owned.owner])
    · exact owned.mono (other ne) rfl rfl grows
  · exact h.apart_congr sameUse sameHandle sameOwner
  · exact inUse_set Connection.pendingDisconnect h.pending other fun _ => (sameUse i).trans inUse
  · exact inUse_set Connection.registered h.registered other fun _ => (sameUse i).trans inUse
  · intro j
    rw [sameRegistered j]
    exact h.sinks j
  · exact h.admitted_congr sameUse sameOwner grows
  · exact h.notified

theorem Served.register (h : Served s) {i : Slot} (inUse : (s.conns i).inUse = true)
    (registered : (s.conns i).registered = false) : Served (s.register i) := by
  have other {j : Slot} (ne : j ≠ i) : (s.register i).conns j = s.conns j := if_neg ne
  have self : (s.register i).conns i = { s.conns i with registered := true } := if_pos rfl
  have sameUse := field_same other Connection.inUse (by rw [self])
  have sameHandle := field_same other Connection.handle (by rw [self])
  have sameOwner := field_same other Connection.owner (by rw [self])
  have samePending := field_same other Connection.pendingDisconnect (by rw [self])
  constructor
  · exact h.old
  · exact h.links
  · exact h.handles
  · intro j used
    rw [sameUse j] at used
    obtain ⟨link, owned⟩ := h.owned j used
    refine ⟨link, ?_⟩
    constructor
    · rw [sameOwner j]
      exact owned.owner
    · exact owned.old
    · rw [sameHandle j]
      exact owned.own
    · rw [sameHandle j, samePending j]
      exact owned.live
    · rw [samePending j]
      exact owned.gone
  · exact h.apart_congr sameUse sameHandle sameOwner
  · exact inUse_set Connection.pendingDisconnect h.pending other fun _ => (sameUse i).trans inUse
  · exact inUse_set Connection.registered h.registered other fun _ => (sameUse i).trans inUse
  · intro j
    have count := h.sinks j
    show List.count j (s.sinks ++ [i]) = _
    rw [List.count_append, count]
    by_cases ne : j = i
    · subst ne
      rw [self, registered]
      simp
    · rw [other ne]
      simp [Ne.symm ne]
  · exact h.admitted_congr sameUse sameOwner fun _ away => away
  · exact h.notified

theorem Served.turn (h : Served s) (i : Slot) (added : Bool) : Served (s.turn i added) := by
  have turned := turn_cases s i added
  generalize s.turn i added = t at turned ⊢
  cases turned with
  | release pending => exact h.release pending
  | unused => exact h
  | turnAway _ inUse => exact h.turnAway inUse
  | register _ inUse registered => exact h.register inUse registered
  | settled => exact h

end MeshPigeon.Esp32Ble.BleSink
