import OmniORB.Sockets.PollList

/-!
# Which sockets are watched

The steps of the threads keep the poll list right, as long as each peeking thread that was told that
its socket is readable reports it.
-/

namespace OmniORB

open Library

/-- With this result a thread in `Peek` that was told reports that the socket is readable, or polls again. -/
def SocketCollection.PeekResult.tells : SocketCollection.PeekResult → Bool
  | .readable revents => revents.pollin
  | .timedOut => true
  | .interrupted => true
  | .failed => false

namespace SocketCollection

variable {c c' : SocketCollection} {s i index : ℕ} {h : SocketHolder}

/-- No peeking thread that was told ends because its `poll` failed or reports no POLLIN, where its socket
is not watched otherwise; and the scan finds no data in the buffer of a socket of which a peeking thread
was told. -/
def Reported (c : SocketCollection) : SocketOp → Prop
  | .peekEnd s result => (c.holders s).peekGo = true → (c.holders s).selectable = true →
      (c.holders s).dataInBuffer = false → (c.holders s).fdIndex = none → c.changed = false → result.tells = true
  | .selectBegin timeToScan => (timeToScan || c.absTimeZero) = true → c.changed = true → ∀ s ∈ c.collection,
      (c.holders s).selectable = true → (c.holders s).dataInBuffer = true → (c.holders s).peeking = true →
        (c.holders s).peekGo = false
  | _ => True

instance Reported.decidable (c : SocketCollection) : (op : SocketOp) → Decidable (Reported c op)
  | .peekEnd _ _ => inferInstanceAs (Decidable (_ → _))
  | .selectBegin _ => inferInstanceAs (Decidable (_ → _))
  | .selectEnd _ => isTrue trivial
  | .setSelectable _ _ _ => isTrue trivial
  | .clearSelectable _ => isTrue trivial
  | .peekBegin _ => isTrue trivial
  | .addSocket _ _ => isTrue trivial
  | .removeSocket _ => isTrue trivial

/-! ### What does not touch the list -/

lemma Ok.congr (hok : Ok c) (hholders : c'.holders = c.holders) (hcollection : c'.collection = c.collection)
    (hentries : c'.entries = c.entries) (hn : c'.pollfdN = c.pollfdN) (hlen : c'.pollfdLen = c.pollfdLen)
    (hchanged : c'.changed = c.changed) (hoverrun : c'.overrun = c.overrun) : Ok c' := by
  rcases c with ⟨⟩
  rcases c' with ⟨⟩
  obtain rfl := hholders
  obtain rfl := hcollection
  obtain rfl := hentries
  obtain rfl := hn
  obtain rfl := hlen
  obtain rfl := hchanged
  obtain rfl := hoverrun
  have hl := hok.listed
  exact ⟨⟨hl.linked, hl.member, hl.fd, hl.fits, hl.pos, hl.overrun, hl.nodup⟩, hok.holders⟩

lemma Ok.wakeUp (hok : Ok c) : Ok c.wakeUp := by
  rw [SocketCollection.wakeUp]
  split_ifs
  · exact hok.congr rfl rfl rfl rfl rfl rfl rfl
  · exact hok

lemma Ok.forceScan (hok : Ok c) : Ok c.forceScan := hok.congr rfl rfl rfl rfl rfl rfl rfl

/-- A holder that changes but for its place and its file descriptor. -/
lemma Ok.setHolder (hok : Ok c) (hplace : h.fdIndex = (c.holders s).fdIndex)
    (hsocket : h.socket = (c.holders s).socket) (hh : s ∈ c.collection → SocketHolder.Ok c.changed h) :
    Ok (c.setHolder s h) := by
  refine hok.of_moved (s := s) (hok.listed.setHolder hplace (.inr hsocket)) rfl id (fun t ht => ?_) fun hs => ?_
  · rw [holders_setHolder_of_ne c ht]
    exact .refl _
  · rw [holders_setHolder_self]
    exact hh hs

/-! ### Putting a socket in the list and taking it out -/

lemma Listed.watch (hl : Listed c) (hs : s ∈ c.collection) (hnone : (c.holders s).fdIndex = none)
    (hlt : c.pollfdN < c.pollfdLen) : Listed { c.watch c.pollfdN s with pollfdN := c.pollfdN + 1 } := by
  have hslots : (c.watch c.pollfdN s).slots = Function.update c.slots c.pollfdN (some s) := slots_setEntry ..
  have hplaces : (c.watch c.pollfdN s).places = Function.update c.places s (some c.pollfdN) :=
    places_setHolder ..
  have hne : ∀ t ≠ s, ((c.watch c.pollfdN s).holders t) = c.holders t := fun t ht => holders_setHolder_of_ne _ ht _
  have hself : (c.watch c.pollfdN s).holders s = { c.holders s with fdIndex := some c.pollfdN } :=
    holders_setHolder_self ..
  refine ⟨?_, fun t i hi => ?_, fun t i hi => ?_, hlt, hl.pos, ?_, hl.nodup⟩
  · have hlinked := hl.linked.append hnone
    rw [← hslots, ← hplaces] at hlinked
    exact hlinked
  · by_cases hts : t = s
    · subst hts
      exact hs
    · change ((c.watch c.pollfdN s).holders t).fdIndex = some i at hi
      rw [hne t hts] at hi
      exact hl.member t i hi
  · change ((c.watch c.pollfdN s).holders t).fdIndex = some i at hi
    change (Function.update c.entries c.pollfdN _ i).fd = ((c.watch c.pollfdN s).holders t).socket
    by_cases hts : t = s
    · subst hts
      rw [hself] at hi ⊢
      obtain rfl := Option.some.inj hi
      rw [Function.update_self]
    · rw [hne t hts] at hi ⊢
      have hlt' := ((hl.linked t i).mp hi).1
      rw [Function.update_of_ne (by omega)]
      exact hl.fd t i hi
  · have hnot : ¬ c.pollfdLen ≤ c.pollfdN := by omega
    simp [SocketCollection.watch, modifyHolder, SocketCollection.setHolder, setEntry, hl.overrun, hnot]

lemma unwatch_eq (c : SocketCollection) (s : ℕ) : (c.unwatch s).collection = c.collection ∧
    (c.unwatch s).changed = c.changed ∧ (c.unwatch s).holders s = { c.holders s with fdIndex := none } ∧
      ∀ t ≠ s, (c.unwatch s).holders t = c.holders t := by
  rw [unwatch]
  cases hi : (c.holders s).fdIndex with
  | none =>
    exact ⟨rfl, rfl, congrArg (fun p => { c.holders s with fdIndex := p }) hi, fun t _ => rfl⟩
  | some i => exact ⟨rfl, rfl, holders_setHolder_self .., fun t ht => holders_setHolder_of_ne _ ht _⟩

lemma Listed.unwatch (hl : Listed c) (s : ℕ) : Listed (c.unwatch s) := by
  rw [SocketCollection.unwatch]
  cases hi : (c.holders s).fdIndex with
  | none => exact hl
  | some i =>
    obtain ⟨hlt, hs⟩ := (hl.linked s i).mp hi
    have hunlinked := hl.unlink hs hlt (h := { c.holders s with fdIndex := none }) rfl
    have hslots := slots_setEntry c i { c.entries i with socket := none }
    refine ⟨?_, hunlinked.member, fun t j ht => ?_, hl.fits, hl.pos, ?_, hl.nodup⟩
    · change Linked (c.setEntry i _).slots _ _
      rw [hslots]
      exact hunlinked.linked
    · have hfd := hunlinked.fd t j ht
      change (Function.update c.entries i _ j).fd = _
      by_cases hj : j = i
      · subst hj
        rw [Function.update_self]
        exact hfd
      · rw [Function.update_of_ne hj]
        exact hfd
    · have hnot : ¬ c.pollfdLen ≤ i := by
        have := hl.fits
        omega
      simp [modifyHolder, SocketCollection.setHolder, setEntry, hl.overrun, hnot]

/-- The socket is taken from the list, and changes otherwise. -/
lemma Ok.unwatch {h : SocketHolder} (hok : Ok c) (s : ℕ) (hplace : h.fdIndex = (c.holders s).fdIndex)
    (hsocket : h.socket = (c.holders s).socket)
    (hh : s ∈ c.collection → SocketHolder.Ok c.changed { h with fdIndex := none }) :
    Ok ((c.setHolder s h).unwatch s) := by
  obtain ⟨hcollection, hchanged, hself, hne⟩ := unwatch_eq (c.setHolder s h) s
  rw [holders_setHolder_self] at hself
  have hlisted : Listed ((c.setHolder s h).unwatch s) := Listed.unwatch (hok.listed.setHolder hplace (.inr hsocket)) s
  refine hok.of_moved (s := s) hlisted hcollection (fun hc => hchanged.trans hc) (fun t ht => ?_) fun hs => ?_
  · rw [hne t ht, holders_setHolder_of_ne c ht]
    exact .refl _
  · rw [hself, hchanged]
    exact hh hs

/-! ### The steps -/

lemma Ok.setSelectable (hok : Ok c) (hs : s ∈ c.collection) (now : ℕ) (dataInBuffer : Bool) :
    Ok (c.setSelectable s now dataInBuffer) := by
  rw [SocketCollection.setSelectable]
  by_cases hskip : now = 2 ∧ (!(c.holders s).selectable) = true
  · rw [if_pos hskip]
    exact hok
  · rw [if_neg hskip]
    -- the list has the socket, or the scan is forced
    have hlisted : ∀ c1 : SocketCollection, c1 = (if now ≠ 0 ∧ (c.holders s).fdIndex = none then
        if c.pollfdN < c.pollfdLen then { c.watch c.pollfdN s with pollfdN := c.pollfdN + 1 } else c.forceScan
        else c) → Listed c1 ∧ c1.collection = c.collection ∧ ∀ t ≠ s, c1.holders t = c.holders t := by
      rintro c1 rfl
      split_ifs with hnow hlt
      · exact ⟨hok.listed.watch hs hnow.2 hlt, rfl, fun t ht => holders_setHolder_of_ne _ ht _⟩
      · exact ⟨hok.forceScan.listed, rfl, fun t _ => rfl⟩
      · exact ⟨hok.listed, rfl, fun t _ => rfl⟩
    generalize hc1 : (if now ≠ 0 ∧ (c.holders s).fdIndex = none then
        if c.pollfdN < c.pollfdLen then { c.watch c.pollfdN s with pollfdN := c.pollfdN + 1 } else c.forceScan
        else c) = c1
    obtain ⟨hl, hcollection, hne⟩ := hlisted c1 hc1.symm
    have hl2 : Listed (c1.setHolder s { c1.holders s with
        selectable := true, dataInBuffer := (c1.holders s).dataInBuffer || dataInBuffer, deliveries := 0 }) :=
      hl.setHolder rfl (.inr rfl)
    have hok2 : Ok { c1.setHolder s { c1.holders s with
        selectable := true, dataInBuffer := (c1.holders s).dataInBuffer || dataInBuffer, deliveries := 0 } with
        changed := true } := by
      refine hok.of_moved (s := s) ⟨hl2.linked, hl2.member, hl2.fd, hl2.fits, hl2.pos, hl2.overrun, hl2.nodup⟩
        hcollection (fun _ => rfl) (fun t ht => ?_) fun _ => ?_
      · change SocketHolder.Moved _ ((c1.setHolder s _).holders t)
        rw [holders_setHolder_of_ne c1 ht, hne t ht]
        exact .refl _
      · change SocketHolder.Ok true ((c1.setHolder s _).holders s)
        rw [holders_setHolder_self]
        exact ⟨fun _ => .inr (.inl rfl), Nat.zero_le 1, fun hone => absurd hone (by simp)⟩
    dsimp only
    have hok3 : ∀ b : Prop, ∀ [Decidable b], ∀ c : SocketCollection, Ok c → Ok (if b then c.forceScan else c) := by
      intro b _ c hc
      split_ifs
      · exact hc.forceScan
      · exact hc
    have hok4 : ∀ b : Prop, ∀ [Decidable b], ∀ c : SocketCollection, Ok c → Ok (if b then c.wakeUp else c) := by
      intro b _ c hc
      split_ifs
      · exact hc.wakeUp
      · exact hc
    exact hok4 _ _ (hok3 _ _ hok2)

lemma Ok.clearSelectable (hok : Ok c) (s : ℕ) : Ok (c.clearSelectable s) := by
  rw [SocketCollection.clearSelectable]
  have hcleared : Ok ((c.modifyHolder s ({ · with selectable := false })).unwatch s) := by
    refine hok.unwatch s rfl rfl fun hs => ?_
    have hh := hok.holders s hs
    refine ⟨fun hsel => absurd hsel Bool.false_ne_true, hh.once, fun hone => ⟨rfl, (hh.quiet hone).2.1, fun hp => ?_⟩⟩
    exact ⟨rfl, ((hh.quiet hone).2.2 hp).2⟩
  split_ifs
  · exact hcleared.wakeUp
  · exact hcleared

lemma deliveries_deliver {changed : Bool} (hh : SocketHolder.Ok changed h) (hzero : h.deliveries ≠ 1) :
    h.deliver.deliveries ≤ 1 := by
  change h.deliveries + 1 ≤ 1
  have := hh.once
  omega

lemma Ok.peekBegin (hok : Ok c) (hs : s ∈ c.collection) (hstep : c.peekBegin s = some c') : Ok c' := by
  have hh := hok.holders s hs
  rw [SocketCollection.peekBegin] at hstep
  by_cases hgo : ((c.holders s).selectable && !(c.holders s).peeking) = true
  · rw [if_pos hgo] at hstep
    obtain ⟨hsel, hpeek⟩ := Bool.and_eq_true_iff.mp hgo
    have hpeek : (c.holders s).peeking = false := by simpa using hpeek
    have hzero : (c.holders s).deliveries ≠ 1 := by
      intro hone
      rw [(hh.quiet hone).1] at hsel
      cases hsel
    by_cases hdata : (c.holders s).dataInBuffer = true
    · rw [if_pos hdata] at hstep
      obtain rfl := Option.some.inj hstep
      refine hok.setHolder rfl rfl fun _ => ⟨fun h => absurd h Bool.false_ne_true, deliveries_deliver hh hzero, fun _ => ?_⟩
      refine ⟨rfl, rfl, fun hp => ?_⟩
      rw [show (c.holders s).deliver.peeking = false from hpeek] at hp
      cases hp
    · rw [if_neg hdata] at hstep
      obtain rfl := Option.some.inj hstep
      refine hok.setHolder rfl rfl fun _ => ⟨fun _ => ?_, hh.once, fun hone => absurd hone hzero⟩
      rcases hh.watched hsel with hin | hchanged | ⟨hp, -⟩
      · exact .inl hin
      · exact .inr (.inl hchanged)
      · rw [hpeek] at hp
        cases hp
  · rw [if_neg hgo] at hstep
    cases hstep

lemma unwatch_setPeeking (c : SocketCollection) (s : ℕ) (h : SocketHolder) :
    ((c.setHolder s h).unwatch s).modifyHolder s ({ · with peeking := false }) =
      (c.setHolder s { h with peeking := false }).unwatch s := by
  rcases h with ⟨socket, selectable, dataInBuffer, peeking, peekGo, place, deliveries⟩
  rw [SocketCollection.unwatch, SocketCollection.unwatch, holders_setHolder_self, holders_setHolder_self]
  cases place with
  | none => simp [modifyHolder, SocketCollection.setHolder]
  | some i =>
    simp only [modifyHolder, SocketCollection.setHolder, setEntry, Function.update_self, Function.update_idem]
    rfl

/-- What `Peek` reports, it has from the buffer, from its own `poll` or from the `Select` thread. -/
lemma peekRetval_true {result : PeekResult} (hretval : peekRetval h result = some true) :
    h.dataInBuffer = true ∨ h.selectable = true ∨ h.peekGo = true := by
  by_cases hdata : h.dataInBuffer = true
  · exact .inl hdata
  · cases result with
    | readable revents =>
      rw [peekRetval, if_neg hdata] at hretval
      exact .inr (.inl (Bool.and_eq_true_iff.mp (Option.some.inj hretval)).2)
    | timedOut =>
      rw [peekRetval, if_neg hdata] at hretval
      exact .inr (.inr (Option.some.inj hretval))
    | interrupted =>
      rw [peekRetval, if_neg hdata] at hretval
      cases hretval
    | failed =>
      rw [peekRetval, if_neg hdata] at hretval
      cases hretval

/-- A thread that was told does not report it only for such a result. -/
lemma peekRetval_false {result : PeekResult} (hretval : peekRetval h result = some false)
    (hsel : h.selectable = true) (hgo : h.peekGo = true) :
    h.dataInBuffer = false ∧ result.tells = false := by
  by_cases hdata : h.dataInBuffer = true
  · cases result <;> simp [peekRetval, hdata] at hretval
  · refine ⟨by simpa using hdata, ?_⟩
    cases result with
    | readable revents =>
      rw [peekRetval, if_neg hdata, hsel, Bool.and_true] at hretval
      exact Option.some.inj hretval
    | timedOut =>
      rw [peekRetval, if_neg hdata, hgo] at hretval
      cases hretval
    | interrupted =>
      rw [peekRetval, if_neg hdata] at hretval
      cases hretval
    | failed => rfl

lemma Ok.peekEnd {result : PeekResult} (hok : Ok c) (hs : s ∈ c.collection)
    (hreported : Reported c (.peekEnd s result)) (hstep : c.peekEnd s result = some c') : Ok c' := by
  have hh := hok.holders s hs
  rw [SocketCollection.peekEnd] at hstep
  by_cases hpeek : (c.holders s).peeking = true
  · rw [if_neg (by simp [hpeek])] at hstep
    match hretval : peekRetval (c.holders s) result with
    | none =>
      rw [hretval] at hstep
      obtain rfl := Option.some.inj hstep
      exact hok
    | some true =>
      rw [hretval] at hstep
      obtain rfl := Option.some.inj hstep
      have hzero : (c.holders s).deliveries ≠ 1 := by
        intro hone
        obtain ⟨hsel, hdata, hgo⟩ := hh.quiet hone
        rcases peekRetval_true hretval with h | h | h
        · rw [hdata] at h
          cases h
        · rw [hsel] at h
          cases h
        · rw [(hgo hpeek).2] at h
          cases h
      rw [if_pos rfl, show c.modifyHolder s SocketHolder.deliver = c.setHolder s (c.holders s).deliver from rfl,
        unwatch_setPeeking]
      refine hok.unwatch s rfl rfl fun _ => ⟨fun h => absurd h Bool.false_ne_true, deliveries_deliver hh hzero,
        fun _ => ⟨rfl, rfl, fun hp => absurd hp Bool.false_ne_true⟩⟩
    | some false =>
      rw [hretval] at hstep
      obtain rfl := Option.some.inj hstep
      refine hok.setHolder rfl rfl fun _ => ⟨fun hsel => ?_, hh.once, fun hone => ?_⟩
      · have hsel : (c.holders s).selectable = true := hsel
        rcases hh.watched hsel with hin | hchanged | ⟨-, hgo⟩
        · exact .inl hin
        · exact .inr (.inl hchanged)
        · obtain ⟨hdata, htells⟩ := peekRetval_false hretval hsel hgo
          by_contra hnot
          rw [not_or, not_or] at hnot
          have hnone : (c.holders s).fdIndex = none := by simpa using hnot.1
          have htrue := hreported hgo hsel hdata hnone (by simpa using hnot.2.1)
          rw [htells] at htrue
          cases htrue
      · exact ⟨(hh.quiet hone).1, (hh.quiet hone).2.1, fun hp => absurd hp Bool.false_ne_true⟩
  · rw [if_pos (by simpa using hpeek)] at hstep
    cases hstep

lemma Ok.addSocket (hok : Ok c) (hs : s ∉ c.collection) (socket : ℕ) : Ok (c.addSocket s socket) := by
  have hnone : (c.holders s).fdIndex = none := by
    cases hi : (c.holders s).fdIndex with
    | none => rfl
    | some i => exact absurd (hok.listed.member s i hi) hs
  have hl : ListedAs (c.setHolder s (.new socket)) c.slots c.pollfdN := hok.listed.setHolder hnone.symm (.inl rfl)
  refine ⟨⟨hl.linked, fun t i ht => List.mem_cons_of_mem _ (hl.member t i ht), hl.fd, hl.fits, hl.pos, hl.overrun,
    List.nodup_cons.mpr ⟨hs, hl.nodup⟩⟩, fun t ht => ?_⟩
  change SocketHolder.Ok c.changed ((c.setHolder s (.new socket)).holders t)
  by_cases hts : t = s
  · subst hts
    rw [holders_setHolder_self]
    exact ⟨fun h => absurd h Bool.false_ne_true, Nat.zero_le 1, fun hone => absurd hone (by simp [SocketHolder.new])⟩
  · rw [holders_setHolder_of_ne c hts]
    exact hok.holders t ((List.mem_cons.mp ht).resolve_left hts)

lemma clearSelectable_eq (c : SocketCollection) (s : ℕ) : (c.clearSelectable s).collection = c.collection ∧
    ((c.clearSelectable s).holders s).fdIndex = none := by
  obtain ⟨hcollection, -, hself, -⟩ := unwatch_eq (c.modifyHolder s ({ · with selectable := false })) s
  have hplace := congrArg SocketHolder.fdIndex hself
  rw [SocketCollection.clearSelectable]
  split_ifs
  · rw [SocketCollection.wakeUp]
    split_ifs
    · exact ⟨hcollection, hplace⟩
    · exact ⟨hcollection, hplace⟩
  · exact ⟨hcollection, hplace⟩

lemma Ok.removeSocket (hok : Ok c) (s : ℕ) : Ok (c.removeSocket s) := by
  have hcleared := hok.clearSelectable s
  have hl := hcleared.listed
  obtain ⟨hcollection, hnone⟩ := clearSelectable_eq c s
  refine ⟨⟨hl.linked, fun t i ht => ?_, hl.fd, hl.fits, hl.pos, hl.overrun, hl.nodup.erase s⟩, fun t ht => ?_⟩
  · have hne : t ≠ s := by
      rintro rfl
      rw [show ((c.clearSelectable t).holders t).fdIndex = some i from ht] at hnone
      cases hnone
    exact (List.mem_erase_of_ne hne).mpr (hl.member t i ht)
  · exact (hcleared.holders t (List.mem_of_mem_erase ht)).mono fun _ => rfl

/-! ### Select -/

/-- Where the list has been made anew for some of the sockets. -/
structure Scanned (c : SocketCollection) (done : List ℕ) (r : SocketCollection × ℕ) : Prop where
  linked : Linked r.1.slots (fun s => if s ∈ done then (r.1.holders s).fdIndex else none) r.2
  fd : ∀ s ∈ done, ∀ i, (r.1.holders s).fdIndex = some i → (r.1.entries i).fd = (r.1.holders s).socket
  fits : r.2 ≤ r.1.pollfdLen
  pos : 0 < r.1.pollfdLen
  overrun : r.1.overrun = false
  collection : r.1.collection = c.collection
  rest : ∀ s ∉ done, r.1.holders s = c.holders s
  holders : ∀ s ∈ done, SocketHolder.Ok false (r.1.holders s)

/-- A socket that is not put in the list. -/
lemma Scanned.leave {done : List ℕ} {r : SocketCollection × ℕ} (hr : Scanned c done r) (hs : s ∉ done)
    (hnone : h.fdIndex = none) (hh : SocketHolder.Ok false h) :
    Scanned c (s :: done) (r.1.setHolder s h, r.2) := by
  have hne : ∀ t ∈ done, t ≠ s := fun t ht hts => hs (hts ▸ ht)
  refine ⟨?_, fun t ht i hi => ?_, hr.fits, hr.pos, hr.overrun, hr.collection, fun t ht => ?_, fun t ht => ?_⟩
  · have hview : (fun t => if t ∈ s :: done then ((r.1.setHolder s h).holders t).fdIndex else none) =
        fun t => if t ∈ done then (r.1.holders t).fdIndex else none := by
      funext t
      by_cases hts : t = s
      · subst hts
        rw [if_pos List.mem_cons_self, holders_setHolder_self, if_neg hs, hnone]
      · rw [holders_setHolder_of_ne _ hts]
        exact if_congr (by simp [hts]) rfl rfl
    rw [hview]
    exact hr.linked
  · rcases List.mem_cons.mp ht with rfl | ht
    · rw [holders_setHolder_self, hnone] at hi
      cases hi
    · rw [holders_setHolder_of_ne _ (hne t ht)] at hi ⊢
      exact hr.fd t ht i hi
  · rw [List.mem_cons, not_or] at ht
    rw [holders_setHolder_of_ne _ ht.1]
    exact hr.rest t ht.2
  · rcases List.mem_cons.mp ht with rfl | ht
    · rw [holders_setHolder_self]
      exact hh
    · rw [holders_setHolder_of_ne _ (hne t ht)]
      exact hr.holders t ht

/-- A socket that is put in the list, which has room for it. -/
lemma Scanned.watch {done : List ℕ} {r : SocketCollection × ℕ} (hr : Scanned c done r) (hs : s ∉ done)
    (hlt : r.2 < r.1.pollfdLen) (hh : SocketHolder.Ok false { r.1.holders s with fdIndex := some r.2 }) :
    Scanned c (s :: done) (r.1.watch r.2 s, r.2 + 1) := by
  have hne : ∀ t ∈ done, t ≠ s := fun t ht hts => hs (hts ▸ ht)
  have hself : (r.1.watch r.2 s).holders s = { r.1.holders s with fdIndex := some r.2 } := holders_setHolder_self ..
  have hother : ∀ t ≠ s, (r.1.watch r.2 s).holders t = r.1.holders t := fun t ht => holders_setHolder_of_ne _ ht _
  have hslots : (r.1.watch r.2 s).slots = Function.update r.1.slots r.2 (some s) := slots_setEntry ..
  refine ⟨?_, fun t ht i hi => ?_, hlt, hr.pos, ?_, hr.collection, fun t ht => ?_, fun t ht => ?_⟩
  · have hview : (fun t => if t ∈ s :: done then ((r.1.watch r.2 s).holders t).fdIndex else none) =
        Function.update (fun t => if t ∈ done then (r.1.holders t).fdIndex else none) s (some r.2) := by
      funext t
      by_cases hts : t = s
      · subst hts
        rw [if_pos List.mem_cons_self, hself, Function.update_self]
      · rw [hother t hts, Function.update_of_ne hts]
        exact if_congr (by simp [hts]) rfl rfl
    rw [hview, hslots]
    exact hr.linked.append (if_neg hs)
  · change (Function.update r.1.entries r.2 _ i).fd = _
    rcases List.mem_cons.mp ht with rfl | ht
    · rw [hself] at hi ⊢
      obtain rfl := Option.some.inj hi
      rw [Function.update_self]
    · rw [hother t (hne t ht)] at hi ⊢
      have hi' := ((hr.linked t i).mp (by simpa [ht] using hi)).1
      rw [Function.update_of_ne (by omega)]
      exact hr.fd t ht i hi
  · have hnot : ¬ r.1.pollfdLen ≤ r.2 := by omega
    simp [SocketCollection.watch, modifyHolder, SocketCollection.setHolder, setEntry, hr.overrun, hnot]
  · rw [List.mem_cons, not_or] at ht
    rw [hother t ht.1]
    exact hr.rest t ht.2
  · rcases List.mem_cons.mp ht with rfl | ht
    · rw [hself]
      exact hh
    · rw [hother t (hne t ht)]
      exact hr.holders t ht

/-- The scan goes on with a socket. -/
lemma Scanned.scanSocket {done : List ℕ} {r : SocketCollection × ℕ} (hr : Scanned c done r) (hs : s ∉ done)
    (hh : SocketHolder.Ok true (c.holders s)) (hquiet : (c.holders s).selectable = true →
      (c.holders s).dataInBuffer = true → (c.holders s).peeking = true → (c.holders s).peekGo = false) :
    Scanned c (s :: done) (SocketCollection.scanSocket r s) := by
  have hholder := hr.rest s hs
  rw [SocketCollection.scanSocket]
  dsimp only
  rw [hholder]
  by_cases hsel : (c.holders s).selectable = true
  · rw [if_pos hsel]
    have hzero : (c.holders s).deliveries ≠ 1 := by
      intro hone
      rw [(hh.quiet hone).1] at hsel
      cases hsel
    by_cases hdata : (c.holders s).dataInBuffer = true
    · rw [if_pos hdata]
      exact hr.leave hs rfl ⟨fun h => absurd h Bool.false_ne_true, deliveries_deliver hh hzero,
        fun _ => ⟨rfl, rfl, fun hp => ⟨rfl, hquiet hsel hdata hp⟩⟩⟩
    · rw [if_neg hdata]
      have hok : ∀ i, SocketHolder.Ok false { c.holders s with fdIndex := some i } :=
        fun i => ⟨fun _ => .inl rfl, hh.once, fun hone => absurd hone hzero⟩
      by_cases hfull : r.2 = r.1.pollfdLen
      · rw [if_pos hfull]
        have hgrown : Scanned c done (r.1.growPollLists, r.2) := by
          have hfits : r.2 ≤ r.1.pollfdLen * 2 := by omega
          have hpos : 0 < r.1.pollfdLen * 2 := Nat.mul_pos hr.pos (by decide)
          exact ⟨hr.linked, hr.fd, hfits, hpos, hr.overrun, hr.collection, hr.rest, hr.holders⟩
        have hlt : r.2 < r.1.pollfdLen * 2 := by
          have := hr.pos
          omega
        exact hgrown.watch hs hlt (by rw [show r.1.growPollLists.holders s = c.holders s from hholder]; exact hok _)
      · rw [if_neg hfull]
        exact hr.watch hs (lt_of_le_of_ne hr.fits hfull) (by rw [hholder]; exact hok _)
  · rw [if_neg hsel]
    exact hr.leave hs rfl ⟨fun h => absurd h hsel, hh.once,
      fun hone => ⟨(hh.quiet hone).1, (hh.quiet hone).2.1, fun hp => ⟨rfl, ((hh.quiet hone).2.2 hp).2⟩⟩⟩

lemma Scanned.foldl {done todo : List ℕ} {r : SocketCollection × ℕ} (hr : Scanned c done r)
    (hnodup : todo.Nodup) (hnew : ∀ s ∈ todo, s ∉ done)
    (hh : ∀ s ∈ todo, SocketHolder.Ok true (c.holders s)) (hquiet : ∀ s ∈ todo, (c.holders s).selectable = true →
      (c.holders s).dataInBuffer = true → (c.holders s).peeking = true → (c.holders s).peekGo = false) :
    ∃ done', (∀ s, s ∈ done' ↔ s ∈ todo ∨ s ∈ done) ∧
      Scanned c done' (todo.foldl SocketCollection.scanSocket r) := by
  induction todo generalizing done r with
  | nil => exact ⟨done, by simp, hr⟩
  | cons s todo ih =>
    rw [List.forall_mem_cons] at hnew hh hquiet
    obtain ⟨hs, hnodup⟩ := List.nodup_cons.mp hnodup
    have hnext : ∀ t ∈ todo, t ∉ s :: done := by
      intro t ht hmem
      rcases List.mem_cons.mp hmem with rfl | hmem
      · exact hs ht
      · exact hnew.2 t ht hmem
    obtain ⟨done', hdone', hr'⟩ := ih (hr.scanSocket hnew.1 hh.1 hquiet.1) hnodup hnext hh.2 hquiet.2
    refine ⟨done', fun t => ?_, hr'⟩
    rw [hdone' t, List.mem_cons, List.mem_cons]
    tauto

lemma Ok.scanned_nil (hok : Ok c) : Scanned c [] c.watchPipe := by
  have hl := hok.listed
  rw [watchPipe]
  cases c.pipe with
  | some fd =>
    have hnot : ¬ c.pollfdLen ≤ 0 := not_le.mpr hl.pos
    refine ⟨?_, by simp, hl.pos, hl.pos, by simp [setEntry, hl.overrun, hnot], rfl, fun _ _ => rfl, by simp⟩
    intro s i
    refine iff_of_false (by simp) fun hboth => ?_
    obtain rfl : i = 0 := Nat.lt_one_iff.mp hboth.1
    have hslot := hboth.2
    rw [slots_setEntry, Function.update_self] at hslot
    cases hslot
  | none =>
    refine ⟨fun s i => iff_of_false (by simp) fun hboth => absurd hboth.1 (Nat.not_lt_zero i), by simp,
      Nat.zero_le _, hl.pos, hl.overrun, rfl, fun _ _ => rfl, by simp⟩

/-- The list is made anew. -/
lemma Ok.scan (hok : Ok c) (hquiet : c.changed = true → ∀ s ∈ c.collection, (c.holders s).selectable = true →
    (c.holders s).dataInBuffer = true → (c.holders s).peeking = true → (c.holders s).peekGo = false) :
    Ok c.scan := by
  rw [SocketCollection.scan]
  split_ifs with hchanged
  · have hl := hok.listed
    obtain ⟨done, hdone, hr⟩ := hok.scanned_nil.foldl hl.nodup (by simp)
      (fun s hs => hchanged ▸ hok.holders s hs) (hquiet hchanged)
    have hdone : ∀ s, s ∈ done ↔ s ∈ c.collection := fun s => by simpa using hdone s
    dsimp only
    generalize c.collection.foldl SocketCollection.scanSocket c.watchPipe = r at hr ⊢
    -- a socket that is not in the collection has no place
    have hplace : ∀ s i, (r.1.holders s).fdIndex = some i → s ∈ done := by
      intro s i hi
      by_contra hs
      rw [hr.rest s hs] at hi
      exact hs ((hdone s).mpr (hl.member s i hi))
    have hview : (fun s => if s ∈ done then (r.1.holders s).fdIndex else none) = r.1.places := by
      funext s
      by_cases hs : s ∈ done
      · rw [if_pos hs]
        rfl
      · rw [if_neg hs]
        cases hi : r.1.places s with
        | none => rfl
        | some i => exact absurd (hplace s i hi) hs
    have hlinked := hr.linked
    rw [hview] at hlinked
    have hmember : ∀ s, s ∈ done ↔ s ∈ r.1.collection := fun s => by rw [hdone s, hr.collection]
    refine ⟨⟨hlinked, fun s i hi => (hmember s).mp (hplace s i hi), fun s i hi => hr.fd s (hplace s i hi) i hi,
      hr.fits, hr.pos, hr.overrun, ?_⟩, fun s hs => hr.holders s ((hmember s).mpr hs)⟩
    change r.1.collection.Nodup
    rw [hr.collection]
    exact hl.nodup
  · exact hok

lemma Ok.selectBegin {timeToScan : Bool} (hok : Ok c) (hreported : Reported c (.selectBegin timeToScan))
    (hstep : c.selectBegin timeToScan = some c') : Ok c' := by
  rw [SocketCollection.selectBegin] at hstep
  split_ifs at hstep with hpolling hscan
  · obtain rfl := Option.some.inj hstep
    exact (hok.scan (hreported hscan)).congr rfl rfl rfl rfl rfl rfl rfl
  · obtain rfl := Option.some.inj hstep
    exact hok.congr rfl rfl rfl rfl rfl rfl rfl

lemma Ok.selectEnd {result : SelectResult} (hok : Ok c) (hstep : c.selectEnd result = some c') : Ok c' := by
  rw [SocketCollection.selectEnd] at hstep
  obtain ⟨n, -, rfl⟩ := Option.map_eq_some_iff.mp hstep
  cases result with
  | badf => exact hok.setChanged.congr rfl rfl rfl rfl rfl rfl rfl
  | failed => exact hok.congr rfl rfl rfl rfl rfl rfl rfl
  | polled count report =>
    cases count with
    | zero => exact hok.congr rfl rfl rfl rfl rfl rfl rfl
    | succ count =>
      have hl := hok.listed
      -- poll writes the events only
      have hpolled : ∀ i, ((if i < n then { c.entries i with revents := report i } else c.entries i) :
          PollEntry).socket = (c.entries i).socket ∧ ((if i < n then { c.entries i with revents := report i }
            else c.entries i) : PollEntry).fd = (c.entries i).fd := by
        intro i
        split_ifs
        · exact ⟨rfl, rfl⟩
        · exact ⟨rfl, rfl⟩
      refine Ok.findReadable _ ⟨⟨?_, hl.member, fun s i hi => ?_, hl.fits, hl.pos, hl.overrun, hl.nodup⟩, hok.holders⟩
        (Nat.zero_le _)
      · exact hl.linked.congr fun i _ => (hpolled i).1
      · exact (hpolled i).2.trans (hl.fd s i hi)

lemma Ok.init (pipe : Option ℕ) : Ok (init pipe) := by
  refine ⟨⟨Linked.nil _, fun s i hi => ?_, fun s i hi => ?_, Nat.zero_le _, Nat.succ_pos 63, rfl, List.nodup_nil⟩, ?_⟩
  · cases hi
  · cases hi
  · exact fun s hs => absurd hs List.not_mem_nil

lemma Ok.step {op : SocketOp} (hok : Ok c) (hreported : Reported c op) (hstep : c.step op = some c') : Ok c' := by
  cases op with
  | selectBegin timeToScan => exact hok.selectBegin hreported hstep
  | selectEnd result => exact hok.selectEnd hstep
  | setSelectable s now dataInBuffer =>
    rw [SocketCollection.step] at hstep
    split_ifs at hstep with hs
    obtain rfl := Option.some.inj hstep
    exact hok.setSelectable hs now dataInBuffer
  | clearSelectable s =>
    rw [SocketCollection.step] at hstep
    split_ifs at hstep with hs
    obtain rfl := Option.some.inj hstep
    exact hok.clearSelectable s
  | peekBegin s =>
    rw [SocketCollection.step] at hstep
    split_ifs at hstep with hs
    exact hok.peekBegin hs hstep
  | peekEnd s result =>
    rw [SocketCollection.step] at hstep
    split_ifs at hstep with hs
    exact hok.peekEnd hs hreported hstep
  | addSocket s socket =>
    rw [SocketCollection.step] at hstep
    split_ifs at hstep with hs
    obtain rfl := Option.some.inj hstep
    exact hok.addSocket hs socket
  | removeSocket s =>
    rw [SocketCollection.step] at hstep
    split_ifs at hstep with hs
    obtain rfl := Option.some.inj hstep
    exact hok.removeSocket s

/-! ### Runs -/

/-- Each entry of the list is that of a member that knows its place, each selectable socket is in the list, or
will be put there, or is told to a peeking thread, no place is beyond the end of the lists, and readiness is
delivered once after a socket was made selectable. -/
structure Sound (c : SocketCollection) : Prop where
  entries : ∀ i < c.pollfdN, ∀ s, (c.entries i).socket = some s → s ∈ c.collection ∧
    (c.holders s).fdIndex = some i ∧ (c.entries i).fd = (c.holders s).socket
  watched : ∀ s ∈ c.collection, (c.holders s).selectable = true →
    (∃ i < c.pollfdN, (c.entries i).socket = some s) ∨ c.changed = true ∨
      (c.holders s).peeking = true ∧ (c.holders s).peekGo = true
  places : c.pollfdN ≤ c.pollfdLen ∧ (∀ s i, (c.holders s).fdIndex = some i → i < c.pollfdLen) ∧ c.overrun = false
  once : ∀ s ∈ c.collection, (c.holders s).deliveries ≤ 1

lemma Ok.sound (hok : Ok c) : Sound c where
  entries i hi s hs := by
    have hplace := (hok.listed.linked s i).mpr ⟨hi, hs⟩
    exact ⟨hok.listed.member s i hplace, hplace, hok.listed.fd s i hplace⟩
  watched s hs hsel := by
    refine ((hok.holders s hs).watched hsel).imp_left fun hin => ?_
    obtain ⟨i, hi⟩ := Option.isSome_iff_exists.mp hin
    exact ⟨i, (hok.listed.linked s i).mp hi⟩
  places := ⟨hok.listed.fits, fun s i hi => lt_of_lt_of_le ((hok.listed.linked s i).mp hi).1 hok.listed.fits,
    hok.listed.overrun⟩
  once s hs := (hok.holders s hs).once

/-- The poll list never loses a socket, as long as the peeking threads report what they were told. -/
theorem poll_list_sound (pipe : Option ℕ) (ops : List SocketOp) (h : AllOk step Reported (init pipe) ops)
    (hs : execute step (init pipe) ops = some c) : Sound c :=
  ((ReachedBy.start.execute h hs).invariant (Ok.init pipe) fun _ _ _ hok ha hs => hok.step ha hs).sound

/-- A socket is added and watched, a thread peeks at it, and `Select` tells that thread of some events. -/
def tellPeeker (revents : Revents) : List SocketOp :=
  [.addSocket 0 7, .setSelectable 0 1 false, .selectBegin true, .peekBegin 0,
    .selectEnd (.polled 1 fun _ => revents)]

theorem poll_list_sound_told : ∃ c, execute step (init none)
    (tellPeeker ⟨true, false, false⟩ ++ [.peekEnd 0 .timedOut, .setSelectable 0 0 true]) = some c ∧ Sound c :=
  ⟨_, rfl, poll_list_sound none
    (tellPeeker ⟨true, false, false⟩ ++ [.peekEnd 0 .timedOut, .setSelectable 0 0 true]) (by decide) rfl⟩

/-- After POLLHUP alone the thread that peeks does not report what it was told, and the socket is watched no
more; or it reports the data that the scan has found in the buffer, too. -/
theorem socket_lost :
    (∃ c, execute step (init none) (tellPeeker ⟨false, true, false⟩ ++
        [.peekEnd 0 (.readable ⟨false, true, false⟩)]) = some c ∧ ¬ Sound c) ∧
      ∃ c, execute step (init none) [.addSocket 0 7, .setSelectable 0 1 false, .selectBegin true, .peekBegin 0,
        .setSelectable 0 1 true, .selectEnd (.polled 1 fun _ => ⟨true, false, false⟩), .selectBegin true,
        .peekEnd 0 .timedOut] = some c ∧ ¬ Sound c := by
  refine ⟨⟨_, rfl, fun h => ?_⟩, ⟨_, rfl, fun h => ?_⟩⟩
  · rcases h.watched 0 (by decide) (by decide) with ⟨i, hi, -⟩ | hchanged | ⟨hpeek, -⟩
    · exact absurd hi (Nat.not_lt_zero i)
    · exact absurd hchanged (by decide)
    · exact absurd hpeek (by decide)
  · exact absurd (h.once 0 (by decide)) (by decide)

end SocketCollection

end OmniORB
