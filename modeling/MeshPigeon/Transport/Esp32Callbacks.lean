import MeshPigeon.Transport.Esp32Served

/-! Links that come up and go down. -/
namespace MeshPigeon.Esp32Ble.BleSink

variable {s : BleSink}

/-- A link has come up that no slot serves yet. -/
def linked (s : BleSink) (handle : UInt16) : BleSink :=
  { s with live := (s.nextLink, handle) :: s.live, nextLink := s.nextLink + 1 }

/-- No slot in use carries the handle. -/
def Unclaimed (s : BleSink) (handle : UInt16) : Prop :=
  ∀ i, (s.conns i).inUse = true → (s.conns i).handle ≠ handle

theorem Owned.linked {i : Slot} {link : Link} (h : Owned s i link) {handle : UInt16}
    (other : (s.conns i).handle ≠ handle) : Owned (s.linked handle) i link := by
  have older := h.old
  constructor
  · exact h.owner
  · exact Nat.lt_succ_of_lt older
  · intro p hp
    rcases List.mem_cons.mp hp with rfl | before
    · refine iff_of_false (Ne.symm other) ?_
      exact Nat.ne_of_gt older
    · exact h.own p before
  · intro waits
    exact List.mem_cons_of_mem _ (h.live waits)
  · intro pending p hp same
    rcases List.mem_cons.mp hp with rfl | before
    · exact absurd same (Nat.ne_of_gt older)
    · exact h.gone pending p before same

theorem Served.linked_old (h : Served s) (handle : UInt16) :
    ∀ p ∈ (s.linked handle).live, p.1 < (s.linked handle).nextLink := by
  intro p hp
  rcases List.mem_cons.mp hp with rfl | before
  · exact Nat.lt_succ_self _
  · exact Nat.lt_succ_of_lt (h.old p before)

theorem Served.linked_links (h : Served s) (handle : UInt16) :
    ∀ p ∈ (s.linked handle).live, ∀ q ∈ (s.linked handle).live, p.1 = q.1 → p = q := by
  intro p hp q hq same
  rcases List.mem_cons.mp hp with rfl | before
  · rcases List.mem_cons.mp hq with rfl | before'
    · rfl
    · exact absurd same (Nat.ne_of_gt (h.old q before'))
  · rcases List.mem_cons.mp hq with rfl | before'
    · exact absurd same (Nat.ne_of_lt (h.old p before))
    · exact h.links p before q before' same

theorem Served.linked_handles (h : Served s) {handle : UInt16}
    (unused : ∀ p ∈ s.live, p.2 ≠ handle) :
    ∀ p ∈ (s.linked handle).live, ∀ q ∈ (s.linked handle).live, p.2 = q.2 → p = q := by
  intro p hp q hq same
  rcases List.mem_cons.mp hp with rfl | before
  · rcases List.mem_cons.mp hq with rfl | before'
    · rfl
    · exact absurd same.symm (unused q before')
  · rcases List.mem_cons.mp hq with rfl | before'
    · exact absurd same (unused p before)
    · exact h.handles p before q before' same

/-- All slots are taken: the link is turned away at once. -/
theorem Served.turnedAway (h : Served s) {handle : UInt16} (unused : ∀ p ∈ s.live, p.2 ≠ handle)
    (unclaimed : s.Unclaimed handle) :
    Served { s.linked handle with turnedAway := s.nextLink :: s.turnedAway } := by
  constructor
  · exact h.linked_old handle
  · exact h.linked_links handle
  · exact h.linked_handles unused
  · intro i used
    obtain ⟨link, owned⟩ := h.owned i used
    exact ⟨link, (owned.linked (unclaimed i used)).mono rfl rfl rfl fun _ hl =>
      List.mem_cons_of_mem _ hl⟩
  · exact h.apart
  · exact h.pending
  · exact h.registered
  · exact h.sinks
  · intro p hp admitted
    rcases List.mem_cons.mp hp with rfl | before
    · exact absurd (List.mem_cons_self ..) admitted
    · exact h.admitted p before fun away => admitted (List.mem_cons_of_mem _ away)
  · exact h.notified

/-- A slot claimed for a link that has just come up owns it. -/
theorem Served.owned_claimed (h : Served s) {handle : UInt16}
    (unused : ∀ p ∈ s.live, p.2 ≠ handle) (i : Slot) :
    Owned ((s.linked handle).set i (claimed (s.conns i) handle s.nextLink)) i s.nextLink := by
  have self : ((s.linked handle).set i (claimed (s.conns i) handle s.nextLink)).conns i =
    claimed (s.conns i) handle s.nextLink := if_pos rfl
  constructor
  · rw [self]
    rfl
  · exact Nat.lt_succ_self _
  · rw [self]
    intro p hp
    rcases List.mem_cons.mp hp with rfl | before
    · exact iff_of_true rfl rfl
    · exact iff_of_false (unused p before) (Nat.ne_of_lt (h.old p before))
  · intro _
    rw [self]
    exact List.mem_cons_self ..
  · intro pending
    rw [self] at pending
    cases pending

theorem Served.claim (h : Served s) {handle : UInt16} (unused : ∀ p ∈ s.live, p.2 ≠ handle)
    (unclaimed : s.Unclaimed handle) {i : Slot} (free : (s.conns i).inUse = false) :
    Served ((s.linked handle).set i (claimed (s.conns i) handle s.nextLink)) := by
  have unregistered : (s.conns i).registered = false := by
    apply Bool.eq_false_iff.mpr
    intro registered
    rw [h.registered i registered] at free
    cases free
  generalize ht : (s.linked handle).set i (claimed (s.conns i) handle s.nextLink) = t
  have other {j : Slot} (ne : j ≠ i) : t.conns j = s.conns j := by
    subst ht
    exact if_neg ne
  have self : t.conns i = claimed (s.conns i) handle s.nextLink := by
    subst ht
    exact if_pos rfl
  have live : t.live = (s.linked handle).live := by
    subst ht
    rfl
  have next : t.nextLink = (s.linked handle).nextLink := by
    subst ht
    rfl
  have away : t.turnedAway = s.turnedAway := by
    subst ht
    rfl
  -- an old slot in use has another handle and another owner than the new one
  have distinct {j : Slot} (_ : j ≠ i) (used : (s.conns j).inUse = true) :
      (s.conns j).handle ≠ (t.conns i).handle ∧ (s.conns j).owner ≠ (t.conns i).owner := by
    rw [self]
    refine ⟨unclaimed j used, ?_⟩
    obtain ⟨link, owned⟩ := h.owned j used
    rw [owned.owner]
    intro same
    exact Nat.ne_of_lt owned.old (Option.some.inj same)
  constructor
  · rw [live, next]
    exact h.linked_old handle
  · rw [live]
    exact h.linked_links handle
  · rw [live]
    exact h.linked_handles unused
  · intro j used
    by_cases ne : j = i
    · subst ne
      rw [← ht]
      exact ⟨s.nextLink, h.owned_claimed unused j⟩
    · rw [other ne] at used
      obtain ⟨link, owned⟩ := h.owned j used
      refine ⟨link, (owned.linked (unclaimed j used)).mono (other ne) live next ?_⟩
      rw [away]
      exact fun _ hl => hl
  · exact h.apart_set other distinct
  · exact inUse_set Connection.pendingDisconnect h.pending other fun _ => by rw [self]; rfl
  · exact inUse_set Connection.registered h.registered other fun _ => by rw [self]; rfl
  · intro j
    have sinks : t.sinks = s.sinks := by
      subst ht
      rfl
    rw [sinks, h.sinks j]
    by_cases ne : j = i
    · subst ne
      rw [self]
      rfl
    · rw [other ne]
  · intro p hp admitted
    rw [live] at hp
    rw [away] at admitted
    rcases List.mem_cons.mp hp with rfl | before
    · exact ⟨i, by rw [self]; rfl, by rw [self]; rfl⟩
    · obtain ⟨j, used, owner⟩ := h.admitted p before admitted
      have ne : j ≠ i := by
        rintro rfl
        rw [free] at used
        cases used
      exact ⟨j, by rw [other ne]; exact used, by rw [other ne]; exact owner⟩
  · rw [← ht]
    exact h.notified

theorem Served.onConnect (h : Served s) {handle : UInt16}
    (calm : s.linkOf handle = none → s.Unclaimed handle) : Served (s.onConnect handle) := by
  unfold BleSink.onConnect
  split
  · exact h
  · rename_i fresh
    have unused := unused_of_linkOf fresh
    have unclaimed := calm (by simpa using fresh)
    dsimp only
    split
    · exact h.turnedAway unused unclaimed
    · rename_i i free
      exact h.claim unused unclaimed (of_firstFree free)

/-- The link is down, and no slot knows yet. -/
def unlinked (s : BleSink) (link : Link) : BleSink :=
  { s with live := s.live.filter fun p => p.1 ≠ link }

theorem mem_unlinked {link : Link} {p : Link × UInt16} :
    p ∈ (s.unlinked link).live ↔ p ∈ s.live ∧ p.1 ≠ link := by
  simp [unlinked]

theorem Owned.unlinked {i : Slot} {link other : Link} (h : Owned s i link) (ne : link ≠ other) :
    Owned (s.unlinked other) i link := by
  constructor
  · exact h.owner
  · exact h.old
  · intro p hp
    exact h.own p (mem_unlinked.mp hp).1
  · intro waits
    exact mem_unlinked.mpr ⟨h.live waits, ne⟩
  · intro pending p hp
    exact h.gone pending p (mem_unlinked.mp hp).1

theorem Owned.other {i : Slot} {link other : Link} {handle : UInt16} (h : Owned s i link)
    (live : (other, handle) ∈ s.live) (ne : (s.conns i).handle ≠ handle) : link ≠ other := by
  rintro rfl
  exact ne ((h.own _ live).mpr rfl).symm

/-- A link no slot serves goes down. -/
theorem Served.unlinked (h : Served s) {link : Link} {handle : UInt16}
    (live : (link, handle) ∈ s.live) (unclaimed : s.Unclaimed handle) :
    Served (s.unlinked link) := by
  constructor
  · intro p hp
    exact h.old p (mem_unlinked.mp hp).1
  · intro p hp q hq
    exact h.links p (mem_unlinked.mp hp).1 q (mem_unlinked.mp hq).1
  · intro p hp q hq
    exact h.handles p (mem_unlinked.mp hp).1 q (mem_unlinked.mp hq).1
  · intro i used
    obtain ⟨own, owned⟩ := h.owned i used
    exact ⟨own, owned.unlinked (owned.other live (unclaimed i used))⟩
  · exact h.apart
  · exact h.pending
  · exact h.registered
  · exact h.sinks
  · intro p hp
    exact h.admitted p (mem_unlinked.mp hp).1
  · exact h.notified

/-- A slot told that its link is down still owns it. -/
theorem Owned.flagged {i : Slot} {own link : Link} (h : Owned s i own)
    (live : (link, (s.conns i).handle) ∈ s.live) :
    Owned ((s.unlinked link).set i { s.conns i with pendingDisconnect := true }) i own := by
  have mine : link = own := (h.own _ live).mp rfl
  have self : ((s.unlinked link).set i { s.conns i with pendingDisconnect := true }).conns i =
    { s.conns i with pendingDisconnect := true } := if_pos rfl
  constructor
  · rw [self]
    exact h.owner
  · exact h.old
  · rw [self]
    intro p hp
    exact h.own p (mem_unlinked.mp hp).1
  · rw [self]
    intro waits
    cases waits
  · intro _ p hp gone
    exact absurd (gone.trans mine.symm) (mem_unlinked.mp hp).2

/-- The link of slot `i` goes down, and the slot is told. -/
theorem Served.flagged (h : Served s) {link : Link} {i : Slot}
    (used : (s.conns i).inUse = true) (live : (link, (s.conns i).handle) ∈ s.live) :
    Served ((s.unlinked link).set i { s.conns i with pendingDisconnect := true }) := by
  generalize ht : (s.unlinked link).set i { s.conns i with pendingDisconnect := true } = t
  have other {j : Slot} (ne : j ≠ i) : t.conns j = s.conns j := by
    subst ht
    exact if_neg ne
  have self : t.conns i = { s.conns i with pendingDisconnect := true } := by
    subst ht
    exact if_pos rfl
  have sameUse := field_same other Connection.inUse (by rw [self])
  have sameHandle := field_same other Connection.handle (by rw [self])
  have sameOwner := field_same other Connection.owner (by rw [self])
  have sameRegistered := field_same other Connection.registered (by rw [self])
  have links : t.live = (s.unlinked link).live := by
    subst ht
    rfl
  have next : t.nextLink = s.nextLink := by
    subst ht
    rfl
  have away : t.turnedAway = s.turnedAway := by
    subst ht
    rfl
  constructor
  · rw [links, next]
    intro p hp
    exact h.old p (mem_unlinked.mp hp).1
  · rw [links]
    intro p hp q hq
    exact h.links p (mem_unlinked.mp hp).1 q (mem_unlinked.mp hq).1
  · rw [links]
    intro p hp q hq
    exact h.handles p (mem_unlinked.mp hp).1 q (mem_unlinked.mp hq).1
  · intro j used'
    rw [sameUse j] at used'
    obtain ⟨own, owned⟩ := h.owned j used'
    refine ⟨own, ?_⟩
    by_cases ne : j = i
    · subst ne
      rw [← ht]
      exact owned.flagged live
    · have apart : (s.conns j).handle ≠ (s.conns i).handle := fun same' =>
        ne (h.apart j i used' used (.inl same'))
      apply (owned.unlinked (owned.other live apart)).mono (other ne) links next
      rw [away]
      exact fun _ hl => hl
  · exact h.apart_congr sameUse sameHandle sameOwner
  · exact inUse_set Connection.pendingDisconnect h.pending other fun _ => (sameUse i).trans used
  · exact inUse_set Connection.registered h.registered other fun _ => (sameUse i).trans used
  · intro j
    have sinks : t.sinks = s.sinks := by
      subst ht
      rfl
    rw [sinks, sameRegistered j]
    exact h.sinks j
  · rw [links, away]
    have admitted := h.admitted_congr sameUse sameOwner (by rw [away]; exact fun _ hl => hl)
    rw [away] at admitted
    exact fun p hp => admitted p (mem_unlinked.mp hp).1
  · rw [← ht]
    exact h.notified

theorem Served.onDisconnect (h : Served s) (link : Link) : Served (s.onDisconnect link) := by
  unfold BleSink.onDisconnect
  split
  · exact h
  · rename_i handle known
    have live := mem_of_handleOf known
    dsimp only
    split
    · rename_i missing
      exact h.unlinked live (of_find_none missing)
    · rename_i i found
      obtain ⟨used, rfl⟩ := of_find found
      exact h.flagged used live

end MeshPigeon.Esp32Ble.BleSink
