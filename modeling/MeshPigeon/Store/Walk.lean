import MeshPigeon.Store.Append

/-! What `get` and `fetch_since` read: the walk from the head visits the held
entries in order. -/
namespace MeshPigeon.PacketStore

/-- One step of the walk from `off`, at the first of the entries `L` still ahead. -/
structure At (s : PacketStore) (off : UInt32) (e : StoredPacket) : Prop where
  held : Held s off.toNat [e]
  fits : off.toNat + size e ≤ s.capacity.toNat

/-- The entries `L` lie ahead of `off` on the walk. -/
inductive Ahead (s : PacketStore) : UInt32 → List StoredPacket → Prop
  | done {off : UInt32} : Ahead s off []
  | step {off : UInt32} {e : StoredPacket} {L : List StoredPacket} : At s off e →
      Ahead s (s.nextOffset off e.raw.len) L → Ahead s off (e :: L)

/-- Records that lie in one piece below `wrap`, then at the front once they end there. -/
theorem ahead_segment {s : PacketStore} {off : UInt32} {A B : List StoredPacket}
    (held : Held s off.toNat A) (below : off.toNat + span A ≤ s.wrap.toNat)
    (inside : s.wrap.toNat ≤ s.capacity.toNat)
    (next : A ≠ [] → off.toNat + span A = s.wrap.toNat → Ahead s 0 B)
    (last : off.toNat + span A < s.wrap.toNat → B = []) (none : A = [] → B = []) :
    Ahead s off (A ++ B) := by
  induction A generalizing off with
  | nil => rw [none rfl]; exact .done
  | cons e A ih =>
    have hcap := s.capacity.toNat_lt
    simp only [span_cons] at below next last
    obtain ⟨here, rest⟩ := held_cons.mp held
    have hnext := toNat_nextOffset s off e (by omega)
    refine .step ⟨here, by omega⟩ ?_
    by_cases hA : A = []
    · subst hA
      by_cases hend : off.toNat + size e = s.wrap.toNat
      · rw [if_pos (by omega)] at hnext
        have front : s.nextOffset off e.raw.len = 0 := UInt32.toNat_inj.mp hnext
        rw [front]
        exact next (by simp) (by simpa using hend)
      · rw [last (by simp; simp at below; omega)]
        exact .done
    · have := span_pos hA
      rw [if_neg (by omega)] at hnext
      refine ih (by rw [hnext]; exact rest) (by rw [hnext]; omega) (fun _ hw => ?_) (fun hw => ?_)
        (fun h => absurd h hA)
      · exact next (by simp) (by rw [hnext] at hw; omega)
      · exact last (by rw [hnext] at hw; omega)

theorem Holds.ahead {s : PacketStore} {L : List StoredPacket} (h : Holds s L) :
    Ahead s s.headOff L := by
  obtain ⟨A, B, rfl, layout⟩ := h.layout
  cases layout with
  | empty => exact .done
  | linear ne held ends inside wrap =>
    have hw := congrArg UInt32.toNat wrap
    exact ahead_segment held (by omega) (by omega) (fun _ _ => .done) (fun _ => rfl) (fun _ => rfl)
  | wrapped ne held front len wrap btail full =>
    have := span_pos ne
    refine ahead_segment held (by omega) wrap (fun _ _ => ?_) (by omega) (fun h => absurd h ne)
    have chain := ahead_segment (B := []) (show Held s (0 : UInt32).toNat B from front)
      (by rw [UInt32.toNat_zero]; omega) wrap (fun _ _ => .done) (fun _ => rfl) (fun _ => rfl)
    simpa using chain

theorem At.readHeader_eq {s : PacketStore} {off : UInt32} {e : StoredPacket} (h : At s off e) :
    s.readHeader off = some (header e) := readHeader_held h.held h.fits

theorem At.readEntry_eq {s : PacketStore} {off : UInt32} {e : StoredPacket} (h : At s off e) :
    s.readEntry off (header e) = some e := readEntry_held h.held h.fits

theorem Ahead.walk_eq {s : PacketStore} {off : UInt32} {L : List StoredPacket} (h : Ahead s off L)
    (n : Nat) (le : n ≤ L.length) : ∃ off', s.walk n off = some off' ∧ Ahead s off' (L.drop n) := by
  induction n generalizing off L with
  | zero => exact ⟨off, rfl, h⟩
  | succ n ih =>
    cases h with
    | done => simp at le
    | @step _ e L here rest =>
      obtain ⟨off', run, ahead⟩ := ih rest (by simpa using le)
      exact ⟨off', by simp [PacketStore.walk, here.readHeader_eq, run, header], ahead⟩

/-! ## Abstract readings -/

/-- Calling `cb` on the entries in turn until it answers false: how many it
accepted, and the state it ends in. -/
def deliver {σ : Type} (cb : σ → StoredPacket → Bool × σ) : List StoredPacket → σ → Nat × σ
  | [], st => (0, st)
  | e :: L, st =>
    match cb st e with
    | (true, st) => let r := deliver cb L st; (r.1 + 1, r.2)
    | (false, st) => (0, st)

theorem Ahead.fetchLoop_eq {σ : Type} {s : PacketStore} {off : UInt32} {L : List StoredPacket}
    (h : Ahead s off L) (since max : UInt32) (cb : σ → StoredPacket → Bool × σ)
    (delivered : UInt32) (st : σ) (small : delivered.toNat + L.length < 2 ^ 32)
    (le : delivered ≤ max) :
    s.fetchLoop since max cb L.length off delivered st =
      let r := deliver cb
        ((L.filter fun e => decide (since < e.seq)).take (max.toNat - delivered.toNat)) st
      some (delivered + UInt32.ofNat r.1, r.2) := by
  induction h generalizing delivered st with
  | done => simp [PacketStore.fetchLoop, deliver]
  | @step off e L here _ ih =>
    simp only [List.length_cons] at small
    have hle := UInt32.le_iff_toNat_le.mp le
    simp only [PacketStore.fetchLoop, List.length_cons, here.readHeader_eq, Option.bind_eq_bind,
      Option.bind_some, gt_iff_lt]
    by_cases more : delivered < max
    · have hlt := UInt32.lt_iff_toNat_lt.mp more
      have hone : (delivered + 1).toNat = delivered.toNat + 1 := by
        simp only [UInt32.toNat_add, UInt32.reduceToNat]; omega
      have take : max.toNat - delivered.toNat = max.toNat - (delivered + 1).toNat + 1 := by omega
      simp only [more, if_true]
      by_cases newer : since < e.seq
      · simp only [header, newer, if_true, List.filter_cons, decide_true, take,
          List.take_succ_cons, deliver]
        have hentry := here.readEntry_eq
        simp only [header] at hentry
        rw [hentry, Option.bind_some]
        cases hcb : cb st e with
        | mk go st' =>
          cases go with
          | false => simp
          | true =>
            simp only
            rw [ih (delivered + 1) st' (by omega) (UInt32.le_iff_toNat_le.mpr (by omega))]
            simp only [UInt32.ofNat_add, UInt32.add_assoc, Option.some.injEq, Prod.mk.injEq,
              and_true]
            rw [UInt32.add_comm 1]
            rfl
      · simp only [header, newer, if_false, List.filter_cons, decide_false, Bool.false_eq_true]
        exact ih delivered st (by omega) le
    · have heq : max.toNat - delivered.toNat = 0 := by
        rw [UInt32.lt_iff_toNat_lt] at more; omega
      simp [more, heq, deliver]

end MeshPigeon.PacketStore
