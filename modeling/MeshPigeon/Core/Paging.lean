import MeshPigeon.Core.Correlation
import MeshPigeon.Core.Retained
import MeshPigeon.Store.Page

/-!
# Paging through the store

A client that asks for what follows the last packet it received, again and
again, while packets come and go.
-/
namespace MeshPigeon.CommandProcessor

variable {σ : Type}

/-- A packet as the client received it, with `oldest_seq()` at that moment. -/
structure Receipt where
  entry : PacketEntry
  oldest : UInt32

/-- The entries among some frames. -/
def entriesIn (msgs : List RadioToClient) : List PacketEntry :=
  msgs.filterMap fun msg => match msg.body with
    | .packetEntry m => some m
    | _ => none

/-- The seq of the last packet received, 0 at first. -/
def cursor (receipts : List Receipt) : UInt32 :=
  receipts.getLast?.elim 0 fun r => r.entry.seq

/-- The page a fetch was answered with: its entries, one FetchEnd with their
number, and no fewer of them than were retained and asked for. -/
structure AnswersPage (s : CommandProcessor σ) (id sinceSeq maxCount : UInt32) (sink : Sink)
    (acts : List Act) (page : List StoredPacket) : Prop where
  frames : acts = page.map (fun e => .frame [sink] ⟨id, .packetEntry (packetEntry e)⟩) ++
    [.frame [sink] ⟨id, .fetchEnd (UInt32.ofNat page.length)⟩]
  capped : page.length ≤ 64
  asked : maxCount ≠ 0 → page.length ≤ maxCount.toNat
  stored : ∀ e ∈ page, s.store.1.get e.seq = some (some e)
  drained : page.length < 64 → (maxCount ≠ 0 → page.length < maxCount.toNat) →
    ∀ seq, Store.cursorAfter sinceSeq page < seq → s.store.1.get seq = some none

variable [SettingsStore σ]

/-- What a connection receives in answer to its fetches. -/
def receipts (pbDecode : List UInt8 → Option ClientToRadio) (c : Sink) (s : CommandProcessor σ) :
    List Event → List Receipt
  | [] => []
  | e :: es =>
    (entriesIn (replies c (s.step pbDecode e).acts)).map (⟨·, s.store.1.oldestSeq⟩) ++
      receipts pbDecode c (s.step pbDecode e).state es

/-- Every fetch of the connection goes on from the last packet it received. -/
def Pages (pbDecode : List UInt8 → Option ClientToRadio) (c : Sink) (s₀ : CommandProcessor σ)
    (events : List Event) : Prop :=
  ∀ pre env data post req sinceSeq maxCount, events = pre ++ .envelope env data c :: post →
    decodeEnvelope pbDecode data = some req → req.body = .fetchPackets sinceSeq maxCount →
    sinceSeq = cursor (receipts pbDecode c s₀ pre)

variable {pbDecode : List UInt8 → Option ClientToRadio} {c : Sink}

theorem receipts_concat (s : CommandProcessor σ) (es : List Event) (e : Event) :
    receipts pbDecode c s (es ++ [e]) = receipts pbDecode c s es ++
      (entriesIn (replies c ((s.run pbDecode es).state.step pbDecode e).acts)).map
        (⟨·, (s.run pbDecode es).state.store.1.oldestSeq⟩) := by
  induction es generalizing s with
  | nil => exact List.append_nil _
  | cons e' es ih =>
    rw [List.cons_append, receipts, ih, receipts, List.append_assoc]
    rfl

/-! ## One page -/

omit [SettingsStore σ] in
theorem requestedPage_answers {s : CommandProcessor σ} {q : Fifo}
    (h : PacketStore.Simulates s.store.1 q) (id sinceSeq maxCount : UInt32) (sink : Sink) :
    AnswersPage s id sinceSeq maxCount sink
      ((s.requestedPage sinceSeq maxCount).map
          (fun e => .frame [sink] ⟨id, .packetEntry (packetEntry e)⟩) ++
        [.frame [sink]
          ⟨id, .fetchEnd (UInt32.ofNat (s.requestedPage sinceSeq maxCount).length)⟩])
      (s.requestedPage sinceSeq maxCount) := by
  unfold requestedPage
  generalize hbound : (if maxCount = 0 ∨ maxCount > kMaxFetchPerRequest then kMaxFetchPerRequest
    else maxCount) = bound
  have bound' : bound.toNat = if maxCount = 0 then 64 else min 64 maxCount.toNat := by
    have limit : kMaxFetchPerRequest.toNat = 64 := rfl
    rw [← hbound]
    by_cases all : maxCount = 0
    · rw [if_pos (.inl all), if_pos all, limit]
    · rw [if_neg all]
      split
      · rename_i clamped
        have wide := UInt32.lt_iff_toNat_lt.mp (clamped.resolve_left all)
        omega
      · rename_i free
        have under := mt (fun h => Or.inr (UInt32.lt_iff_toNat_lt.mpr h)) free
        omega
  have le := s.store.page_length_le sinceSeq bound
  constructor
  · rfl
  · split at bound' <;> omega
  · intro some
    rw [if_neg some] at bound'
    omega
  · intro e he
    exact h.get_mem (Store.page_retained h he)
  · intro short short' seq newer
    apply Store.page_short h _ newer
    split at bound'
    · omega
    · rename_i some
      have := short' some
      omega

/-! ## Who is handed entries -/

omit [SettingsStore σ] in
theorem entriesIn_map (id : UInt32) (entries : List PacketEntry) :
    entriesIn (entries.map (⟨id, .packetEntry ·⟩)) = entries := by
  induction entries with
  | nil => rfl
  | cons m entries ih => exact congrArg (m :: ·) ih

omit [SettingsStore σ] in
theorem entriesIn_terminal (id : UInt32) {body : Body} (terminal : body.terminal = true) :
    entriesIn [⟨id, body⟩] = [] := by
  cases body with
  | packetEntry m => cases terminal
  | _ => rfl

omit [SettingsStore σ] in
theorem entriesIn_append (msgs msgs' : List RadioToClient) :
    entriesIn (msgs ++ msgs') = entriesIn msgs ++ entriesIn msgs' := List.filterMap_append

/-- Only a request is answered. -/
theorem step_unasked (s : CommandProcessor σ) {e : Event}
    (other : ∀ env data sink, e ≠ .envelope env data sink) :
    Unasked (s.step pbDecode e).acts := by
  cases step_stepped pbDecode s e with
  | connected _ same | relinked _ same | disconnected _ same | ticked _ _ same | stale _ same =>
    rw [same]
    exact unasked_nil
  | dropped event _ _ | requested event _ _ _ => exact absurd event (other _ _ _)
  | unheard _ _ same =>
    rw [same]
    exact unasked_stored _
  | heard _ _ _ _ same =>
    rw [same]
    exact Unasked.append (k := [_]) (unasked_calls (by simp)) (unasked_push s _ none true)
  | finished _ _ same | reported _ _ same | linkChanged _ same =>
    rw [same]
    exact unasked_push _ _ none false

/-- A step hands a connection no entries, or it is a fetch of that connection
and they are its page. -/
theorem step_entries (s : CommandProcessor σ) (e : Event) :
    entriesIn (replies c (s.step pbDecode e).acts) = [] ∨
      ∃ env data req sinceSeq maxCount, e = .envelope env data c ∧
        decodeEnvelope pbDecode data = some req ∧ req.body = .fetchPackets sinceSeq maxCount ∧
        entriesIn (replies c (s.step pbDecode e).acts) =
          (s.requestedPage sinceSeq maxCount).map packetEntry := by
  by_cases other : ∀ env data sink, e ≠ .envelope env data sink
  · left
    rw [(step_unasked s other).replies]
    rfl
  simp only [ne_eq, not_forall, not_not] at other
  obtain ⟨env, data, sink, rfl⟩ := other
  rw [step, onEnvelope]
  cases decoded : decodeEnvelope pbDecode data with
  | none => exact .inl rfl
  | some req =>
    have request := decodeEnvelope_id decoded
    obtain ⟨⟨entries, body, terminal, fetch, own⟩, others⟩ :=
      (handleRequest_handled s env req sink).oneAnswer request
    dsimp only
    by_cases mine : c = sink
    · subst mine
      by_cases fetches : ∃ sinceSeq maxCount, req.body = .fetchPackets sinceSeq maxCount
      · obtain ⟨sinceSeq, maxCount, fetch⟩ := fetches
        have handled : s.handleRequest env req c =
            s.handleFetchPackets req.id sinceSeq maxCount c := by
          rw [handleRequest, fetch]
        rw [handled]
        by_cases authorized : s.isAuthorized c = true
        · right
          refine ⟨env, data, req, sinceSeq, maxCount, rfl, decoded, fetch, ?_⟩
          rw [fetchPackets_page authorized, replies_append,
            (replies_entries request c (s.requestedPage sinceSeq maxCount)).1, replies_own request,
            entriesIn_append, entriesIn_map, entriesIn_terminal req.id rfl, List.append_nil]
        · left
          rw [handleFetchPackets, requireAuth_stranger _ _ (Bool.eq_false_iff.mpr authorized),
            answer, replies_own request]
          rfl
      · left
        have none : entries = [] := Classical.byContradiction fun some => fetches (fetch some)
        rw [own, none]
        exact entriesIn_terminal req.id terminal
    · left
      rw [others c mine]
      rfl

/-! ## The whole session -/

/-- What a client has received against what was stored: in order, as stored, and
nothing left out that could still be had. -/
structure Lossless (receipts : List Receipt) (stored : List StoredPacket) : Prop where
  increasing : receipts.Pairwise fun r r' => r.entry.seq < r'.entry.seq
  known : ∀ r ∈ receipts, ∃ e ∈ stored, r.entry = packetEntry e
  gaps : ∀ xs r ys, receipts = xs ++ r :: ys →
    ∀ seq, cursor xs < seq → seq < r.entry.seq → seq < r.oldest

omit [SettingsStore σ] in
theorem cursor_concat (rs : List Receipt) (r : Receipt) : cursor (rs ++ [r]) = r.entry.seq := by
  simp [cursor]

omit [SettingsStore σ] in
theorem le_cursor {rs : List Receipt}
    (increasing : rs.Pairwise fun r r' => r.entry.seq < r'.entry.seq) {r : Receipt} (hr : r ∈ rs) :
    r.entry.seq ≤ cursor rs := by
  induction rs using List.reverseRecOn with
  | nil => cases hr
  | append_singleton rs last _ =>
    rw [cursor_concat]
    rcases List.mem_append.mp hr with before | last'
    · exact UInt32.le_of_lt ((List.pairwise_append.mp increasing).2.2 r before last (by simp))
    · rw [List.mem_singleton.mp last']
      exact UInt32.le_refl _

/-- The receipts of one page. -/
def pageReceipts (s : CommandProcessor σ) (page : List StoredPacket) : List Receipt :=
  page.map fun e => ⟨packetEntry e, s.store.1.oldestSeq⟩

omit [SettingsStore σ] in
/-- A receipt is an old one, or it stands on the new page. -/
theorem receipt_at {s : CommandProcessor σ} {rs xs ys : List Receipt} {r : Receipt}
    {page : List StoredPacket} (split : rs ++ s.pageReceipts page = xs ++ r :: ys) :
    (∃ front e back, page = front ++ e :: back ∧ xs = rs ++ s.pageReceipts front ∧
      r = ⟨packetEntry e, s.store.1.oldestSeq⟩) ∨ ∃ zs, rs = xs ++ r :: zs := by
  have onPage (front : List Receipt) (new : s.pageReceipts page = front ++ r :: ys)
      (after : xs = rs ++ front) : ∃ front e back, page = front ++ e :: back ∧
        xs = rs ++ s.pageReceipts front ∧ r = ⟨packetEntry e, s.store.1.oldestSeq⟩ := by
    obtain ⟨page₁, rest, rfl, rfl, tail⟩ := List.map_eq_append_iff.mp new
    obtain ⟨e, page₂, rfl, rfl, _⟩ := List.map_eq_cons_iff.mp tail
    exact ⟨page₁, e, page₂, rfl, after, rfl⟩
  rcases List.append_eq_append_iff.mp split with ⟨front, after, new⟩ | ⟨zs, before, rest⟩
  · exact .inl (onPage front new after)
  · cases zs with
    | nil => exact .inl (onPage [] rest.symm (by rw [before]; simp))
    | cons z zs =>
      obtain ⟨rfl, _⟩ := List.cons.inj rest
      exact .inr ⟨zs, before⟩

omit [SettingsStore σ] in
/-- What a page leaves out before one of its entries is older than what is retained. -/
theorem page_gap {s : CommandProcessor σ} {rs : List Receipt} {front back : List StoredPacket}
    {e : StoredPacket} {len : Nat} {seq : UInt32}
    (seqs : (front ++ e :: back).map (·.seq.toNat) =
      List.range' (max ((cursor rs).toNat + 1) s.store.1.oldestSeq.toNat) len)
    (after : cursor (rs ++ s.pageReceipts front) < seq) (before : seq < e.seq) :
    seq < s.store.1.oldestSeq := by
  rw [List.map_append, List.map_cons] at seqs
  have here := range'_at seqs
  rw [List.length_map] at here
  rw [UInt32.lt_iff_toNat_lt] at after before ⊢
  induction front using List.reverseRecOn with
  | nil =>
    have first : cursor (rs ++ s.pageReceipts []) = cursor rs := congrArg cursor (List.append_nil rs)
    rw [first] at after
    rw [List.length_nil] at here
    omega
  | append_singleton front d _ =>
    rw [List.map_append, List.map_singleton, List.append_assoc, List.singleton_append] at seqs
    have previous := range'_at seqs
    rw [List.length_map] at previous
    have last : cursor (rs ++ s.pageReceipts (front ++ [d])) = d.seq := by
      rw [pageReceipts, List.map_append, ← List.append_assoc]
      exact cursor_concat _ _
    rw [last] at after
    rw [List.length_append, List.length_singleton] at here
    omega

omit [SettingsStore σ] in
/-- A page that goes on from the cursor keeps the session lossless. -/
theorem Lossless.page {s : CommandProcessor σ} {rs : List Receipt} {stored L : List StoredPacket}
    {next : Nat} (h : Lossless rs stored) (retained : PacketStore.Simulates s.store.1 ⟨L, next⟩)
    (newest : L <:+ stored) (maxCount : UInt32) :
    Lossless (rs ++ s.pageReceipts (s.requestedPage (cursor rs) maxCount)) stored := by
  have seqs := Store.page_seqs retained (cursor rs)
    (if maxCount = 0 ∨ maxCount > kMaxFetchPerRequest then kMaxFetchPerRequest else maxCount)
  have inside : ∀ e ∈ s.requestedPage (cursor rs) maxCount, e ∈ L :=
    fun e he => Store.page_retained retained he
  change (s.requestedPage (cursor rs) maxCount).map _ = _ at seqs
  generalize s.requestedPage (cursor rs) maxCount = page at seqs inside
  have above : ∀ e ∈ page, cursor rs < e.seq := by
    intro e he
    have numbered : e.seq.toNat ∈ page.map (·.seq.toNat) := List.mem_map_of_mem he
    rw [seqs, List.mem_range'_1] at numbered
    rw [UInt32.lt_iff_toNat_lt]
    omega
  constructor
  · refine List.pairwise_append.mpr ⟨h.increasing, ?_, ?_⟩
    · have ordered : (page.map (·.seq.toNat)).Pairwise (· < ·) := by
        rw [seqs]
        exact List.pairwise_lt_range'
      exact List.pairwise_map.mpr
        ((List.pairwise_map.mp ordered).imp fun less => UInt32.lt_iff_toNat_lt.mpr less)
    · intro r hr r' hr'
      obtain ⟨e, he, rfl⟩ := List.mem_map.mp hr'
      exact UInt32.lt_of_le_of_lt (le_cursor h.increasing hr) (above e he)
  · intro r hr
    rcases List.mem_append.mp hr with old | new
    · exact h.known r old
    · obtain ⟨e, he, rfl⟩ := List.mem_map.mp new
      exact ⟨e, newest.subset (inside e he), rfl⟩
  · intro xs r ys split seq after before
    rcases receipt_at split with ⟨front, e, back, rfl, rfl, rfl⟩ | ⟨zs, old⟩
    · exact page_gap seqs after before
    · exact h.gaps xs r zs old seq after before

omit [SettingsStore σ] in
/-- What is stored later changes nothing about what was received. -/
theorem Lossless.more {rs : List Receipt} {stored : List StoredPacket} (h : Lossless rs stored)
    (later : List StoredPacket) : Lossless rs (stored ++ later) := by
  refine ⟨h.increasing, ?_, h.gaps⟩
  intro r hr
  obtain ⟨e, he, same⟩ := h.known r hr
  exact ⟨e, List.mem_append_left later he, same⟩

theorem run_lossless {s₀ : CommandProcessor σ} (boot : Booted s₀) (events : List Event)
    (few : (storedIn (s₀.run pbDecode events).acts).length < 2 ^ 32 - 1)
    (pages : Pages pbDecode c s₀ events) :
    Lossless (receipts pbDecode c s₀ events) (storedIn (s₀.run pbDecode events).acts) := by
  induction events using List.reverseRecOn with
  | nil =>
    refine ⟨List.Pairwise.nil, nofun, ?_⟩
    intro xs r ys split
    cases xs <;> cases split
  | append_singleton events e ih =>
    rw [run_concat, andThen_acts, storedIn_append] at few ⊢
    rw [List.length_append] at few
    have few' : (storedIn (s₀.run pbDecode events).acts).length < 2 ^ 32 - 1 := by omega
    have before := ih few' fun pre env data post req sinceSeq maxCount split =>
      pages pre env data (post ++ [e]) req sinceSeq maxCount (by rw [split]; simp)
    apply Lossless.more
    rw [receipts_concat]
    rcases step_entries (c := c) (s₀.run pbDecode events).state e with
      none | ⟨env, data, req, sinceSeq, maxCount, rfl, decoded, fetch, page⟩
    · rw [none, List.map_nil, List.append_nil]
      exact before
    · obtain rfl := pages events env data [] req sinceSeq maxCount rfl decoded fetch
      obtain ⟨L, newest, retained⟩ := run_simulates boot events few'
      rw [page, List.map_map]
      exact before.page retained newest maxCount

/-- **Paging through the store loses and duplicates nothing.** In every run from
boot with fewer than 2^32 - 1 packets stored, for a client whose fetches each go
on from the last packet it received: every authorized fetch is answered with a
page, the entries of all pages have increasing numbers and are what is stored
under them, what is left out between two was no longer retained, and a short
page leaves nothing behind. -/
theorem paging_lossless (pbDecode : List UInt8 → Option ClientToRadio) {s₀ : CommandProcessor σ}
    (boot : Booted s₀) (events : List Event)
    (few : (storedIn (s₀.run pbDecode events).acts).length < 2 ^ 32 - 1) (c : Sink)
    (pages : Pages pbDecode c s₀ events) :
    (∀ pre env data post req sinceSeq maxCount, events = pre ++ .envelope env data c :: post →
      decodeEnvelope pbDecode data = some req → req.body = .fetchPackets sinceSeq maxCount →
      (s₀.run pbDecode pre).state.isAuthorized c = true →
      ∃ page, AnswersPage (s₀.run pbDecode pre).state req.id sinceSeq maxCount c
        ((s₀.run pbDecode pre).state.step pbDecode (.envelope env data c)).acts page) ∧
    Lossless (receipts pbDecode c s₀ events) (storedIn (s₀.run pbDecode events).acts) ∧
    ∀ d ∈ storedIn (s₀.run pbDecode events).acts, ∀ r ∈ receipts pbDecode c s₀ events,
      d.seq = r.entry.seq → r.entry = packetEntry d := by
  have lossless := run_lossless boot events few pages
  refine ⟨?_, lossless, ?_⟩
  · intro pre env data post req sinceSeq maxCount split decoded fetch authorized
    have few' : (storedIn (s₀.run pbDecode pre).acts).length < 2 ^ 32 - 1 := by
      rw [split, run_append, andThen_acts, storedIn_append, List.length_append] at few
      omega
    obtain ⟨L, _, retained⟩ := run_simulates boot pre few'
    refine ⟨(s₀.run pbDecode pre).state.requestedPage sinceSeq maxCount, ?_⟩
    have handled : (s₀.run pbDecode pre).state.step pbDecode (.envelope env data c) =
        (s₀.run pbDecode pre).state.handleFetchPackets req.id sinceSeq maxCount c := by
      rw [step, onEnvelope, decoded]
      dsimp only
      rw [handleRequest, fetch]
    rw [handled, fetchPackets_page authorized]
    exact requestedPage_answers retained req.id sinceSeq maxCount c
  · intro d hd r hr same
    obtain ⟨e, he, entry⟩ := lossless.known r hr
    have once := (run_ledger boot events).once few
    have number : d.seq = e.seq := by rw [same, entry]; rfl
    rw [entry, List.inj_on_of_nodup_map once hd he number]

/-- Two fetches, the second one after the packet the first one ended with. -/
def pagingDecode (data : List UInt8) : Option ClientToRadio :=
  if data = [0x08, 0x05, 0x3A, 0x00] then some ⟨5, .fetchPackets 0 0⟩
  else if data = [0x08, 0x06, 0x3A, 0x02, 0x08, 0x01] then some ⟨6, .fetchPackets 1 0⟩
  else sampleDecode data

/-- A packet of one byte. -/
def onePacket (b : UInt8) : Payload := ⟨[b], Nat.le_add_left 1 254⟩

/-- A login, then a packet before each of two fetches. -/
def twoPages : List Event :=
  [.connect 1, sampleEvent 0 1, .packetReceived 0 0 (onePacket 0xAA),
    .envelope ⟨none, true, true⟩ [0x08, 0x05, 0x3A, 0x00] 1,
    .packetReceived 0 0 (onePacket 0xBB),
    .envelope ⟨none, true, true⟩ [0x08, 0x06, 0x3A, 0x02, 0x08, 0x01] 1]

theorem twoPages_pages : Pages pagingDecode 1 sampleBoot twoPages := by
  intro pre env data post req sinceSeq maxCount split decoded fetch
  have auth : pagingDecode ((samples.map Prod.fst).getD 0 []) = some ⟨1, .auth samplePin⟩ := by
    decide
  have first : pagingDecode [0x08, 0x05, 0x3A, 0x00] = some ⟨5, .fetchPackets 0 0⟩ := by decide
  have second : pagingDecode [0x08, 0x06, 0x3A, 0x02, 0x08, 0x01] =
      some ⟨6, .fetchPackets 1 0⟩ := by decide
  rcases pre with _ | ⟨_, _ | ⟨_, _ | ⟨_, _ | ⟨_, _ | ⟨_, _ | ⟨_, pre⟩⟩⟩⟩⟩⟩ <;>
    simp only [twoPages, sampleEvent, List.cons_append, List.nil_append, List.cons.injEq,
      reduceCtorEq, Event.envelope.injEq, false_and, and_false] at split
  · obtain ⟨rfl, ⟨rfl, rfl, _⟩, _⟩ := split
    rw [decodeEnvelope, auth] at decoded
    cases decoded
    cases fetch
  · obtain ⟨rfl, rfl, rfl, ⟨rfl, rfl, _⟩, _⟩ := split
    rw [decodeEnvelope, first] at decoded
    cases decoded
    cases fetch
    decide +kernel
  · obtain ⟨rfl, rfl, rfl, rfl, rfl, ⟨rfl, rfl, _⟩, _⟩ := split
    rw [decodeEnvelope, second] at decoded
    cases decoded
    cases fetch
    decide +kernel
  · obtain ⟨_, _, _, _, _, _, nil⟩ := split
    simp at nil

theorem paging_lossless_two_pages :
    (∀ pre env data post req sinceSeq maxCount, twoPages = pre ++ .envelope env data 1 :: post →
      decodeEnvelope pagingDecode data = some req → req.body = .fetchPackets sinceSeq maxCount →
      (sampleBoot.run pagingDecode pre).state.isAuthorized 1 = true →
      ∃ page, AnswersPage (sampleBoot.run pagingDecode pre).state req.id sinceSeq maxCount 1
        ((sampleBoot.run pagingDecode pre).state.step pagingDecode (.envelope env data 1)).acts
          page) ∧
    Lossless (receipts pagingDecode 1 sampleBoot twoPages)
      (storedIn (sampleBoot.run pagingDecode twoPages).acts) ∧
    ∀ d ∈ storedIn (sampleBoot.run pagingDecode twoPages).acts,
      ∀ r ∈ receipts pagingDecode 1 sampleBoot twoPages,
        d.seq = r.entry.seq → r.entry = packetEntry d :=
  paging_lossless pagingDecode sampleBoot_booted twoPages (by decide +kernel) 1 twoPages_pages

end MeshPigeon.CommandProcessor
