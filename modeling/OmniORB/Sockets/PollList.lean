import OmniORB.Sockets.Collection

/-!
# The poll list

Each socket in the list knows its place, and each selectable socket is in the list, or will be put
there, or is one that a thread peeks at which was told.
-/

namespace OmniORB

open Library

/-- A selectable socket is in the list, or the list will be made anew, or a peeking thread was told. After
its readiness was delivered nothing is left that would deliver it again. -/
structure SocketHolder.Ok (changed : Bool) (h : SocketHolder) : Prop where
  watched : h.selectable = true → h.fdIndex.isSome = true ∨ changed = true ∨ h.peeking = true ∧ h.peekGo = true
  once : h.deliveries ≤ 1
  quiet : h.deliveries = 1 → h.selectable = false ∧ h.dataInBuffer = false ∧
    (h.peeking = true → h.fdIndex = none ∧ h.peekGo = false)

/-- Only the place in the list may have changed. -/
structure SocketHolder.Moved (h h' : SocketHolder) : Prop where
  eq : h' = { h with fdIndex := h'.fdIndex }
  isSome : h'.fdIndex.isSome = h.fdIndex.isSome

lemma SocketHolder.Moved.refl (h : SocketHolder) : SocketHolder.Moved h h := ⟨rfl, rfl⟩

lemma SocketHolder.Moved.ok {changed : Bool} {h h' : SocketHolder} (hm : SocketHolder.Moved h h')
    (hok : SocketHolder.Ok changed h) : SocketHolder.Ok changed h' := by
  have hnone : h.fdIndex = none → h'.fdIndex = none := by
    intro hn
    have := hm.isSome
    rw [hn] at this
    simpa using this
  rw [hm.eq]
  refine ⟨fun hsel => ?_, hok.once, fun hone => ?_⟩
  · rw [hm.isSome]
    exact hok.watched hsel
  · obtain ⟨hsel, hdata, hpeek⟩ := hok.quiet hone
    exact ⟨hsel, hdata, fun hp => ⟨hnone (hpeek hp).1, (hpeek hp).2⟩⟩

lemma SocketHolder.Ok.mono {changed changed' : Bool} {h : SocketHolder} (hok : SocketHolder.Ok changed h)
    (hc : changed = true → changed' = true) : SocketHolder.Ok changed' h where
  watched hsel := (hok.watched hsel).imp_right (Or.imp_left hc)
  once := hok.once
  quiet := hok.quiet

/-- A socket that was in the list is told of, or delivered. -/
lemma SocketHolder.Ok.readable {changed : Bool} {h : SocketHolder} (hok : SocketHolder.Ok changed h)
    (hplace : h.fdIndex ≠ none) : SocketHolder.Ok changed ({ h with fdIndex := none } : SocketHolder).readable := by
  have hquiet : h.deliveries = 1 → h.selectable = false ∧ h.dataInBuffer = false ∧ h.peeking = false := by
    intro hone
    obtain ⟨hsel, hdata, hpeek⟩ := hok.quiet hone
    exact ⟨hsel, hdata, Bool.eq_false_iff.mpr fun hp => hplace (hpeek hp).1⟩
  rw [SocketHolder.readable]
  split_ifs with hpeek hsel
  · have hpeek : h.peeking = true := hpeek
    refine ⟨fun _ => .inr (.inr ⟨hpeek, rfl⟩), hok.once, fun hone => ?_⟩
    rw [(hquiet hone).2.2] at hpeek
    cases hpeek
  · have hsel : h.selectable = true := hsel
    have hzero : h.deliveries ≠ 1 := by
      intro hone
      rw [(hquiet hone).1] at hsel
      cases hsel
    have hle : h.deliveries + 1 ≤ 1 := by
      have := hok.once
      omega
    exact ⟨fun hs => absurd hs Bool.false_ne_true, hle, fun _ => ⟨rfl, rfl, fun hp => absurd hp hpeek⟩⟩
  · refine ⟨fun hs => absurd hs hsel, hok.once, fun hone => ?_⟩
    exact ⟨(hquiet hone).1, (hquiet hone).2.1, fun hp => absurd hp hpeek⟩

namespace SocketCollection

variable {c : SocketCollection} {s i index : ℕ} {h : SocketHolder}

/-- The sockets of the entries. -/
def slots (c : SocketCollection) : ℕ → Option ℕ := fun i => (c.entries i).socket

def places (c : SocketCollection) : ℕ → Option ℕ := fun s => (c.holders s).fdIndex

/-- What holds of the poll list, where `slots` and `n` stand for its entries. -/
structure ListedAs (c : SocketCollection) (slots : ℕ → Option ℕ) (n : ℕ) : Prop where
  linked : Linked slots c.places n
  member : ∀ s i, (c.holders s).fdIndex = some i → s ∈ c.collection
  fd : ∀ s i, (c.holders s).fdIndex = some i → (c.entries i).fd = (c.holders s).socket
  fits : n ≤ c.pollfdLen
  pos : 0 < c.pollfdLen
  overrun : c.overrun = false
  nodup : c.collection.Nodup

/-- Each entry is that of a member of the collection that knows its place. -/
abbrev Listed (c : SocketCollection) : Prop := ListedAs c c.slots c.pollfdN

lemma places_setHolder (c : SocketCollection) (s : ℕ) (h : SocketHolder) :
    (c.setHolder s h).places = Function.update c.places s h.fdIndex := by
  funext t
  by_cases ht : t = s
  · subst ht
    simp [places, setHolder]
  · simp [places, setHolder, ht]

lemma slots_setEntry (c : SocketCollection) (i : ℕ) (e : PollEntry) :
    (c.setEntry i e).slots = Function.update c.slots i e.socket := by
  funext j
  by_cases hj : j = i
  · subst hj
    simp [slots, setEntry]
  · simp [slots, setEntry, hj]

lemma holders_setHolder_self (c : SocketCollection) (s : ℕ) (h : SocketHolder) :
    (c.setHolder s h).holders s = h := Function.update_self ..

lemma holders_setHolder_of_ne (c : SocketCollection) {s t : ℕ} (ht : t ≠ s) (h : SocketHolder) :
    (c.setHolder s h).holders t = c.holders t := Function.update_of_ne ht ..

/-- A holder whose place is the same, and if it has one, its file descriptor. -/
lemma ListedAs.setHolder {slots : ℕ → Option ℕ} {n : ℕ} (hl : ListedAs c slots n)
    (hplace : h.fdIndex = (c.holders s).fdIndex) (hsocket : h.fdIndex = none ∨ h.socket = (c.holders s).socket) :
    ListedAs (c.setHolder s h) slots n := by
  have hsame : ∀ t, ((c.setHolder s h).holders t).fdIndex = (c.holders t).fdIndex := by
    intro t
    by_cases ht : t = s
    · subst ht
      rw [holders_setHolder_self]
      exact hplace
    · rw [holders_setHolder_of_ne c ht]
  refine ⟨?_, fun t i hi => hl.member t i (hsame t ▸ hi), fun t i hi => ?_, hl.fits, hl.pos, hl.overrun, hl.nodup⟩
  · intro t i
    rw [places, hsame t]
    exact hl.linked t i
  · have hfd := hl.fd t i (hsame t ▸ hi)
    by_cases ht : t = s
    · subst ht
      rw [holders_setHolder_self] at hi ⊢
      rcases hsocket with hnone | heq
      · rw [hnone] at hi
        cases hi
      · rw [heq]
        exact hfd
    · rw [holders_setHolder_of_ne c ht]
      exact hfd

/-- A socket is taken from the list, where its entry is to be overwritten. -/
lemma ListedAs.unlink {slots : ℕ → Option ℕ} {n : ℕ} (hl : ListedAs c slots n) (hs : slots i = some s) (hi : i < n)
    (hplace : h.fdIndex = none) : ListedAs (c.setHolder s h) (Function.update slots i none) n := by
  have hother : ∀ t j, ((c.setHolder s h).holders t).fdIndex = some j →
      t ≠ s ∧ (c.holders t).fdIndex = some j := by
    intro t j ht
    by_cases hts : t = s
    · subst hts
      rw [holders_setHolder_self, hplace] at ht
      cases ht
    · rw [holders_setHolder_of_ne c hts] at ht
      exact ⟨hts, ht⟩
  refine ⟨?_, fun t j ht => hl.member t j (hother t j ht).2, fun t j ht => ?_, hl.fits, hl.pos, hl.overrun, hl.nodup⟩
  · rw [places_setHolder, hplace]
    exact hl.linked.clear ((hl.linked s i).mpr ⟨hi, hs⟩)
  · obtain ⟨hts, htj⟩ := hother t j ht
    rw [holders_setHolder_of_ne c hts]
    exact hl.fd t j htj

/-- The last entry takes the place of one that is empty. -/
lemma ListedAs.moveLast (hl : ListedAs c (Function.update c.slots index none) (c.pollfdN + 1))
    (hi : index < c.pollfdN + 1) (hlast : index = c.pollfdN → c.slots index = none) :
    Listed (c.moveLast index) ∧ ∀ t, SocketHolder.Moved (c.holders t) ((c.moveLast index).holders t) := by
  have hsame : Function.update c.slots index none c.pollfdN = c.slots c.pollfdN := by
    by_cases heq : index = c.pollfdN
    · rw [← heq, Function.update_self, hlast heq]
    · rw [Function.update_of_ne (Ne.symm heq)]
  have hlinked := hl.linked.moveLast hi (Function.update_self ..)
  rw [hsame, Function.update_idem] at hlinked
  have hoverrun : (c.setEntry index (c.entries c.pollfdN)).overrun = false := by
    have := hl.fits
    simp only [setEntry, hl.overrun, Bool.false_or, decide_eq_false_iff_not]
    omega
  have hfits : c.pollfdN ≤ c.pollfdLen := (Nat.le_succ _).trans hl.fits
  have hslots := slots_setEntry c index (c.entries c.pollfdN)
  cases hn : (c.entries c.pollfdN).socket with
  | none =>
    rw [show c.slots c.pollfdN = none from hn] at hlinked
    rw [SocketCollection.moveLast, hn]
    refine ⟨⟨?_, hl.member, fun t j ht => ?_, hfits, hl.pos, hoverrun, hl.nodup⟩, fun t => .refl _⟩
    · rw [hslots, hn]
      exact hlinked
    · have hj : j ≠ index := by
        rintro rfl
        have := ((hl.linked t j).mp ht).2
        rw [Function.update_self] at this
        cases this
      change (Function.update c.entries index _ j).fd = _
      rw [Function.update_of_ne hj]
      exact hl.fd t j ht
  | some u =>
    rw [show c.slots c.pollfdN = some u from hn] at hlinked
    have hu : (c.holders u).fdIndex = some c.pollfdN :=
      (hl.linked u c.pollfdN).mpr ⟨Nat.lt_succ_self _, by rw [hsame]; exact hn⟩
    have hmoved : c.moveLast index = (c.setEntry index (c.entries c.pollfdN)).setHolder u
        { c.holders u with fdIndex := some index } := by
      rw [SocketCollection.moveLast, hn]
      rfl
    rw [hmoved]
    refine ⟨⟨?_, fun t j ht => ?_, fun t j ht => ?_, hfits, hl.pos, hoverrun, hl.nodup⟩, fun t => ?_⟩
    · change Linked (c.setEntry index (c.entries c.pollfdN)).slots _ _
      rw [hslots, hn]
      rw [places_setHolder]
      exact hlinked
    · by_cases htu : t = u
      · subst htu
        exact hl.member t _ hu
      · rw [holders_setHolder_of_ne _ htu] at ht
        exact hl.member t j ht
    · by_cases htu : t = u
      · subst htu
        rw [holders_setHolder_self] at ht ⊢
        obtain rfl := Option.some.inj ht
        change (Function.update c.entries index _ index).fd = _
        rw [Function.update_self]
        exact hl.fd t _ hu
      · rw [holders_setHolder_of_ne _ htu] at ht ⊢
        have hj : j ≠ index := by
          rintro rfl
          have := ((hl.linked t j).mp ht).2
          rw [Function.update_self] at this
          cases this
        change (Function.update c.entries index _ j).fd = _
        rw [Function.update_of_ne hj]
        exact hl.fd t j ht
    · by_cases htu : t = u
      · subst htu
        rw [holders_setHolder_self]
        exact ⟨rfl, by simp [hu]⟩
      · rw [holders_setHolder_of_ne _ htu]
        exact .refl _

/-- What holds of a collection: of its list, and of each of its sockets. -/
structure Ok (c : SocketCollection) : Prop where
  listed : Listed c
  holders : ∀ s ∈ c.collection, SocketHolder.Ok c.changed (c.holders s)

/-! ### Select, after poll -/

lemma moveLast_eq (c : SocketCollection) (index : ℕ) :
    (c.moveLast index).collection = c.collection ∧ (c.moveLast index).changed = c.changed ∧
      (c.moveLast index).pollfdN = c.pollfdN := by
  rw [SocketCollection.moveLast]
  cases (c.entries c.pollfdN).socket with
  | none => exact ⟨rfl, rfl, rfl⟩
  | some s => exact ⟨rfl, rfl, rfl⟩

lemma takeOut_eq (c : SocketCollection) (index s : ℕ) :
    (c.takeOut index s).collection = c.collection ∧ (c.takeOut index s).changed = c.changed ∧
      (c.takeOut index s).pollfdN = c.pollfdN - 1 := by
  rw [takeOut]
  split_ifs
  · exact moveLast_eq _ index
  · exact ⟨rfl, rfl, rfl⟩

lemma Listed.takeOut (hl : Listed c) (hi : index < c.pollfdN) (hs : (c.entries index).socket = some s) :
    Listed (c.takeOut index s) ∧
      (∀ t ≠ s, SocketHolder.Moved (c.holders t) ((c.takeOut index s).holders t)) ∧
      (c.takeOut index s).holders s = { c.holders s with fdIndex := none } := by
  set c1 : SocketCollection :=
    ({ c with pollfdN := c.pollfdN - 1 } : SocketCollection).setHolder s { c.holders s with fdIndex := none }
    with hc1
  have hn : c1.pollfdN + 1 = c.pollfdN := Nat.succ_pred_eq_of_pos (Nat.zero_lt_of_lt hi)
  have hother : ∀ t ≠ s, c1.holders t = c.holders t := fun t ht => holders_setHolder_of_ne _ ht _
  have hself : c1.holders s = { c.holders s with fdIndex := none } := holders_setHolder_self ..
  have hunlinked : ListedAs c1 (Function.update c1.slots index none) (c1.pollfdN + 1) := by
    rw [hn]
    exact ListedAs.unlink (c := { c with pollfdN := c.pollfdN - 1 })
      ⟨hl.linked, hl.member, hl.fd, hl.fits, hl.pos, hl.overrun, hl.nodup⟩ hs hi rfl
  rw [SocketCollection.takeOut]
  change Listed (if index < c1.pollfdN then c1.moveLast index else c1) ∧
    (∀ t ≠ s, SocketHolder.Moved _ ((if index < c1.pollfdN then c1.moveLast index else c1).holders t)) ∧
    (if index < c1.pollfdN then c1.moveLast index else c1).holders s = _
  split_ifs with hlt
  · obtain ⟨hlisted, hmoved⟩ := hunlinked.moveLast (by omega) fun heq => absurd heq hlt.ne
    refine ⟨hlisted, fun t ht => hother t ht ▸ hmoved t, ?_⟩
    have hs' := hmoved s
    have hnone : ((c1.moveLast index).holders s).fdIndex = none := by
      have := hs'.isSome
      rw [hself] at this
      simpa using this
    rw [hs'.eq, hnone, hself]
  · have heq : index = c1.pollfdN := by omega
    refine ⟨?_, fun t ht => hother t ht ▸ .refl _, hself⟩
    have hpop := hunlinked.linked.pop (by rw [heq, Function.update_self])
    refine ⟨hpop.congr fun j hj => ?_, hunlinked.member, hunlinked.fd, ?_, hunlinked.pos, hunlinked.overrun,
      hunlinked.nodup⟩
    · rw [Function.update_of_ne (by omega)]
    · exact (Nat.le_succ _).trans hunlinked.fits

/-- What became of one socket, where the others have at most moved in the list. -/
lemma Ok.of_moved {c' : SocketCollection} (hok : Ok c) (hlisted : Listed c') (hcollection : c'.collection = c.collection)
    (hchanged : c.changed = true → c'.changed = true)
    (hother : ∀ t ≠ s, SocketHolder.Moved (c.holders t) (c'.holders t))
    (hself : s ∈ c.collection → SocketHolder.Ok c'.changed (c'.holders s)) : Ok c' := by
  refine ⟨hlisted, fun t ht => ?_⟩
  rw [hcollection] at ht
  by_cases hts : t = s
  · subst hts
    exact hself ht
  · exact ((hother t hts).ok (hok.holders t ht)).mono hchanged

/-- A readable socket is told to the thread that peeks at it, or is notified. -/
lemma Ok.entryReadable (hok : Ok c) (hi : index < c.pollfdN) : Ok (c.entryReadable index).1 ∧
    (if (c.entryReadable index).2 then index + 1 else index) ≤ (c.entryReadable index).1.pollfdN := by
  cases hs : (c.entries index).socket with
  | some s =>
    obtain ⟨hlisted, hmoved, hholder⟩ := hok.listed.takeOut hi hs
    obtain ⟨hcollection, hchanged, hn⟩ := c.takeOut_eq index s
    have hplace : (c.holders s).fdIndex = some index := (hok.listed.linked s index).mpr ⟨hi, hs⟩
    have hreadable : SocketHolder.Ok c.changed ((c.takeOut index s).holders s).readable := by
      rw [hholder]
      exact (hok.holders s (hok.listed.member s index hplace)).readable (by simp [hplace])
    have hsame : ∀ h : SocketHolder, h.readable.fdIndex = h.fdIndex ∧ h.readable.socket = h.socket := by
      intro h
      rw [SocketHolder.readable]
      split_ifs
      · exact ⟨rfl, rfl⟩
      · exact ⟨rfl, rfl⟩
      · exact ⟨rfl, rfl⟩
    rw [SocketCollection.entryReadable, hs]
    refine ⟨?_, ?_⟩
    · refine hok.of_moved (s := s) (hlisted.setHolder (hsame _).1 (.inr (hsame _).2)) hcollection
        (fun hc => hchanged.trans hc) (fun t ht => ?_) fun _ => ?_
      · change SocketHolder.Moved _ (((c.takeOut index s).setHolder s _).holders t)
        rw [holders_setHolder_of_ne _ ht]
        exact hmoved t ht
      · change SocketHolder.Ok (c.takeOut index s).changed (((c.takeOut index s).setHolder s _).holders s)
        rw [holders_setHolder_self, hchanged]
        exact hreadable
    · change index ≤ (c.takeOut index s).pollfdN
      omega
  | none =>
    rw [SocketCollection.entryReadable, hs]
    by_cases hpipe : c.pipe = some (c.entries index).fd
    · simp only [hpipe, if_true]
      exact ⟨⟨⟨hok.listed.linked, hok.listed.member, hok.listed.fd, hok.listed.fits, hok.listed.pos,
        hok.listed.overrun, hok.listed.nodup⟩, hok.holders⟩, hi⟩
    · simp only [hpipe, if_false]
      set c1 : SocketCollection := { c with pollfdN := c.pollfdN - 1 } with hc1
      have hn : c1.pollfdN + 1 = c.pollfdN := Nat.succ_pred_eq_of_pos (Nat.zero_lt_of_lt hi)
      have hsame : Function.update c1.slots index none = c1.slots := by
        rw [show none = c1.slots index from hs.symm, Function.update_eq_self]
      have hhole : ListedAs c1 (Function.update c1.slots index none) (c1.pollfdN + 1) := by
        rw [hsame, hn]
        exact ⟨hok.listed.linked, hok.listed.member, hok.listed.fd, hok.listed.fits, hok.listed.pos,
          hok.listed.overrun, hok.listed.nodup⟩
      obtain ⟨hlisted, hmoved⟩ := hhole.moveLast (by omega) fun _ => hs
      obtain ⟨hcollection, hchanged, hn'⟩ := c1.moveLast_eq index
      refine ⟨⟨hlisted, fun t ht => ?_⟩, ?_⟩
      · rw [hchanged]
        exact (hmoved t).ok (hok.holders t (hcollection ▸ ht))
      · rw [hn']
        simp only [Bool.false_eq_true, if_false]
        omega

/-- The list is to be made anew. -/
lemma Ok.setChanged (hok : Ok c) : Ok { c with changed := true, absTimeZero := true } :=
  ⟨⟨hok.listed.linked, hok.listed.member, hok.listed.fd, hok.listed.fits, hok.listed.pos, hok.listed.overrun,
    hok.listed.nodup⟩, fun t ht => (hok.holders t ht).mono fun _ => rfl⟩

lemma Ok.findReadable (n : ℕ) {count : ℕ} (hok : Ok c) (hi : index ≤ c.pollfdN) :
    Ok (SocketCollection.findReadable n c index count) := by
  induction n generalizing c index count with
  | zero => exact hok
  | succ n ih =>
    rw [SocketCollection.findReadable]
    by_cases hdone : count = 0 ∨ index = c.pollfdN
    · rw [if_pos hdone]
      exact hok
    · have hlt : index < c.pollfdN := lt_of_le_of_ne hi fun heq => hdone (.inr heq)
      rw [if_neg hdone]
      dsimp only
      by_cases hany : (c.entries index).revents.any = true
      · rw [if_pos hany]
        by_cases hin : ((c.entries index).revents.pollin || (c.entries index).revents.pollhup) = true
        · rw [if_pos hin]
          obtain ⟨hok', hi'⟩ := hok.entryReadable hlt
          exact ih hok' hi'
        · rw [if_neg hin]
          exact ih hok.setChanged hlt
      · rw [if_neg hany]
        exact ih hok hlt

end SocketCollection

end OmniORB
