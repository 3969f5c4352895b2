import OmniORB.Rope.Steps

/-!
# Strands that fail, expire or are retired

Which strands leave a rope when the scavenger looks at its lists, and that the steps that are not those
of a caller keep the accounts.
-/

namespace OmniORB

open Library ClientStrand RopeCaller

namespace ClientStrand

variable {par : RopeParameters} {x : ClientStrand} {v : GIOPVersion}

/-- The idle counter goes down. -/
def beat (x : ClientStrand) : ClientStrand :=
  if 0 ≤ x.idlebeats then { x with idlebeats := x.idlebeats - 1 } else x

/-- The next beat is the last one. -/
def expires (x : ClientStrand) : Bool := 0 ≤ x.idlebeats ∧ x.idlebeats - 1 ≤ 0

lemma beat_eq (x : ClientStrand) : x.beat = { x with idlebeats := x.beat.idlebeats } := by
  rw [beat]
  split <;> rfl

lemma isDying_beat : x.beat.isDying = x.isDying := by
  rw [beat_eq]
  rfl

lemma isBusy_beat : x.beat.isBusy v = x.isBusy v := by
  rw [beat_eq]
  rfl

lemma isIdle_beat : x.beat.isIdle v = x.isIdle v := by
  rw [beat_eq]
  rfl

lemma isLive_beat : x.beat.isLive v = x.isLive v := by
  rw [beat_eq]
  rfl

/-- The idle counter of a strand runs only if no `GIOP_C` is used. -/
lemma Ok.eq_of_idlebeats (h : x.Ok par) (hbeats : 0 ≤ x.idlebeats) : ∃ g, x.clients = [⟨g, false⟩] :=
  h.clients.resolve_right fun hused => absurd hbeats (not_le.mpr hused.2)

lemma Ok.beat (h : x.Ok par) (hexpires : x.expires = false) : x.beat.Ok par := by
  by_cases hbeats : 0 ≤ x.idlebeats
  · have hgt : 0 < x.idlebeats - 1 := by
      simpa [expires, hbeats] using hexpires
    rw [ClientStrand.beat, if_pos hbeats]
    exact ⟨h.nonempty, .inl (h.eq_of_idlebeats hbeats), h.ids, h.known, h.oneCall, hgt.ne'⟩
  · rwa [ClientStrand.beat, if_neg hbeats]

lemma Ok.not_isBusy_of_expires (h : x.Ok par) (hexpires : x.expires = true) : x.isBusy v = false := by
  obtain ⟨g, hg⟩ := h.eq_of_idlebeats (of_decide_eq_true hexpires).1
  simp [isBusy, hg]

end ClientStrand

namespace GIOPRope

variable {par : RopeParameters} {s s' : GIOPRope} {v : GIOPVersion} {k : ℕ} {src : List ℕ}

/-- What `removeIdle` does with one strand. -/
def beatStrand (s : GIOPRope) (k : ℕ) : GIOPRope :=
  let x := s.strand k
  if 0 ≤ x.idlebeats then
    let s := s.setStrand k { x with idlebeats := x.idlebeats - 1 }
    if x.idlebeats - 1 ≤ 0 then s.removeStrand k else s
  else s

lemma removeIdle_eq : s.removeIdle src = src.foldl beatStrand s := rfl

lemma beatStrand_eq : s.beatStrand k = if (s.strand k).expires
    then (s.setStrand k (s.strand k).beat).removeStrand k else s.setStrand k (s.strand k).beat := by
  rw [beatStrand]
  by_cases hbeats : 0 ≤ (s.strand k).idlebeats
  · simp [hbeats, expires, beat]
  · have hself : s.setStrand k (s.strand k) = s := by simp [setStrand]
    simp [hbeats, expires, beat, hself]

/-- The strand is in the list, and expires when the scavenger looks at it. -/
def expired (s : GIOPRope) (src : List ℕ) (k : ℕ) : Bool := decide (k ∈ src) && (s.strand k).expires

/-- The strands of a list have had a beat, and those that expired are gone. -/
structure Scavenged (s : GIOPRope) (src : List ℕ) (s' : GIOPRope) : Prop where
  rest : s' = { s with
    strand := s'.strand
    strands := s'.strands
    active := s'.active
    activeTimedout := s'.activeTimedout
    passive := s'.passive }
  strand : ∀ j, s'.strand j = if j ∈ src then (s.strand j).beat else s.strand j
  strands : s'.strands = s.strands.filter fun j => !s.expired src j
  links : ∀ j, s'.links j = if s.expired src j then 0 else s.links j
  active : ∀ j ∈ s'.active, j ∈ s.active

lemma Scavenged.trans {s1 : GIOPRope} {src' : List ℕ} (h : Scavenged s src s1) (h' : Scavenged s1 src' s')
    (hdisjoint : src.Disjoint src') : Scavenged s (src ++ src') s' := by
  have hstrand : ∀ j, j ∈ src' → s1.strand j = s.strand j := by
    intro j hj
    rw [h.strand, if_neg fun hsrc => hdisjoint hsrc hj]
  have hor : ∀ j, s.expired (src ++ src') j = (s.expired src j || s1.expired src' j) := by
    intro j
    by_cases hj : j ∈ src'
    · simp [expired, hj, hstrand j hj]
    · simp [expired, hj]
  refine ⟨by rw [h'.rest, h.rest], fun j => ?_, ?_, fun j => ?_, fun j hj => h.active j (h'.active j hj)⟩
  · rw [h'.strand]
    by_cases hj : j ∈ src'
    · simp [hj, hstrand j hj]
    · simp [hj, h.strand]
  · rw [h'.strands, h.strands, List.filter_filter]
    refine List.filter_congr fun j _ => ?_
    rw [hor, Bool.not_or, Bool.and_comm]
  · rw [h'.links, h.links, hor]
    cases s.expired src j <;> cases s1.expired src' j <;> rfl

lemma Scavenged.mem_strands (hs : Scavenged s src s') :
    k ∈ s'.strands ↔ k ∈ s.strands ∧ s.expired src k = false := by
  rw [hs.strands, List.mem_filter, Bool.not_eq_true']

lemma Scavenged.strandsOk (hs : Scavenged s src s') (h : StrandsOk par s) : StrandsOk par s' := by
  refine ⟨?_, fun j hj => ?_, fun j => ?_, fun j hj => ?_, fun v => ?_⟩
  · rw [hs.strands]
    exact h.nodup.filter _
  · rw [hs.rest]
    exact h.known j (hs.mem_strands.mp hj).1
  · rw [hs.links, h.links]
    simp only [hs.mem_strands]
    cases s.expired src j <;> simp
  · obtain ⟨hj, hstays⟩ := hs.mem_strands.mp hj
    rw [hs.strand]
    split_ifs with hsrc
    · exact (h.strand j hj).beat (by simpa [expired, hsrc] using hstays)
    · exact h.strand j hj
  · refine le_trans ?_ (h.limit v)
    rw [countStrands, hs.strands, countStrands]
    refine le_trans (List.Sublist.countP_le List.filter_sublist) (le_of_eq ?_)
    refine List.countP_congr fun j _ => ?_
    rw [hs.strand]
    split_ifs
    · rw [isLive_beat]
    · rfl

lemma StrandsOk.beatStrand (h : StrandsOk par s) (k : ℕ) : Scavenged s [k] (s.beatStrand k) := by
  rw [beatStrand_eq]
  have hstrand : ∀ j, (s.setStrand k (s.strand k).beat).strand j =
      if j ∈ [k] then (s.strand j).beat else s.strand j := by
    intro j
    by_cases hj : j = k
    · simp [hj]
    · simp [hj, strand_setStrand_of_ne]
  have hother : ∀ j ≠ k, s.expired [k] j = false := fun j hj => by simp [expired, hj]
  split_ifs with hexpires
  · have hself : s.expired [k] k = true := by simp [expired, hexpires]
    refine ⟨rfl, hstrand, ?_, fun j => ?_, fun j hj => List.mem_of_mem_erase hj⟩
    · change s.strands.erase k = _
      rw [h.nodup.erase_eq_filter]
      refine List.filter_congr fun j _ => ?_
      by_cases hj : j = k
      · simp [hj, hself]
      · simp [hj, hother j hj]
    · refine (links_removeFromStrandList (h.links_le_one k) j).trans ?_
      by_cases hj : j = k
      · simp [hj, hself]
      · simp [hj, hother j hj]
  · have hnone : ∀ j, s.expired [k] j = false := by
      intro j
      by_cases hj : j = k
      · simp [expired, hj, hexpires]
      · exact hother j hj
    refine ⟨rfl, hstrand, (List.filter_eq_self.mpr fun j _ => ?_).symm, fun j => ?_, fun j hj => hj⟩
    · rw [hnone, Bool.not_false]
    · rw [hnone]
      rfl

lemma StrandsOk.removeIdle (h : StrandsOk par s) (hnodup : src.Nodup) : Scavenged s src (s.removeIdle src) := by
  rw [removeIdle_eq]
  induction src generalizing s with
  | nil => exact ⟨rfl, by simp, by simp [expired], by simp [expired], fun _ hj => hj⟩
  | cons k src ih =>
    obtain ⟨hk, hnodup⟩ := List.nodup_cons.mp hnodup
    have hbeat := h.beatStrand k
    refine hbeat.trans (ih (hbeat.strandsOk h) hnodup) ?_
    simpa using hk

/-- No strand is twice in one of the lists. -/
lemma StrandsOk.nodup_list (h : StrandsOk par s) {l : List ℕ} (hl : ∀ k, l.count k ≤ s.links k) : l.Nodup :=
  List.nodup_iff_count_le_one.mpr fun k => (hl k).trans (h.links_le_one k)

lemma StrandsOk.scavenge (h : StrandsOk par s) : ∃ src, Scavenged s src s.scavenge := by
  have h1 := h.removeIdle (h.nodup_list (l := s.activeTimedout) fun k => by rw [GIOPRope.links]; omega)
  have hok := h1.strandsOk h
  refine ⟨_, h1.trans (hok.removeIdle (hok.nodup_list fun k => by rw [GIOPRope.links]; omega)) ?_⟩
  -- a strand in both lists would be in two lists
  intro k hk hk'
  have hle := h.links_le_one k
  have hpos := List.count_pos_iff.mpr hk
  have hpos' := List.count_pos_iff.mpr (h1.active k hk')
  rw [GIOPRope.links] at hle
  omega

/-- A strand that expires has no users. -/
lemma Scavenged.users (hs : Scavenged s src s') (h : StrandsOk par s) (k g : ℕ) :
    s'.users k g = s.users k g := by
  by_cases hk : k ∈ s.strands
  · rw [GIOPRope.users, users_of_mem hk]
    simp only [hs.mem_strands, hk, true_and]
    cases hexpired : s.expired src k
    · rw [if_pos rfl, hs.strand]
      split_ifs
      · rw [beat_eq]
      · rfl
    · have hbeats := (of_decide_eq_true (Bool.and_eq_true_iff.mp hexpired).2).1
      obtain ⟨i, hi⟩ := (h.strand k hk).eq_of_idlebeats hbeats
      simp [hi]
  · rw [GIOPRope.users, GIOPRope.users, if_neg hk, if_neg fun hk' => hk (hs.mem_strands.mp hk').1]

/-! ### The steps of others -/

/-- The callers and what is counted of them are as before. -/
lemma Ok.sameCallers (h : Ok par s) (hs : StrandsOk par s')
    (hrest : s'.callers = s.callers ∧ s'.refcount = s.refcount ∧ s'.deleted = s.deleted ∧
      s'.failed = s.failed ∧ s'.nwaiting = s.nwaiting ∧ s'.filtering = s.filtering)
    (husers : ∀ k g, s'.users k g = s.users k g) (hstrands : s.strands = [] → s'.strands = []) :
    Ok par s' := by
  obtain ⟨hcallers, hrefcount, hdeleted, hfailed, hnwaiting, hfiltering⟩ := hrest
  refine ⟨hs, hfailed.trans h.failed, fun k g => ?_, ?_, ?_, ?_, ?_, fun hd => ?_⟩
  · rw [hcallers, husers, h.calls]
  · rw [hnwaiting, hcallers, h.nwaiting]
  · rw [hcallers, hfiltering, h.filtering]
  · rw [hcallers, hfiltering]
    exact h.filterWait
  · rw [hcallers, hrefcount]
    exact h.references
  · have hold := h.deleted (hdeleted.symm.trans hd)
    exact ⟨hrefcount.trans hold.1, hstrands hold.2⟩

lemma Ok.setDying (h : Ok par s) (hk : k ∈ s.strands) :
    Ok par (s.setStrand k { s.strand k with state := .dying }) := by
  refine h.sameCallers (h.setStrand ((h.strand k hk).setState _) fun v hv => ?_)
    ⟨rfl, rfl, rfl, rfl, rfl, rfl⟩ (fun j g => ?_) fun hnil => hnil
  · simp [isLive, isDying] at hv
  · rw [users_setStrand hk]
    split_ifs with hj
    · rw [hj, users_of_mem hk]
    · rfl

lemma Ok.resetAddressOrder (h : Ok par s) : Ok par (s.resetAddressOrder par) := by
  obtain ⟨_, _, hs, -⟩ := resetAddressOrder_cases par s
  rw [hs]
  exact h.sameCallers ⟨h.nodup, h.known, h.links, h.strand, h.limit⟩ ⟨rfl, rfl, rfl, rfl, rfl, rfl⟩
    (fun _ _ => rfl) fun hnil => hnil

lemma Ok.scavenge (h : Ok par s) : Ok par s.scavenge := by
  obtain ⟨src, hs⟩ := h.toStrandsOk.scavenge
  refine h.sameCallers (hs.strandsOk h.toStrandsOk) ?_ (hs.users h.toStrandsOk) fun hnil => ?_
  · rw [hs.rest]
    exact ⟨rfl, rfl, rfl, rfl, rfl, rfl⟩
  · rw [hs.strands, hnil]
    rfl

/-- The strands that are not DYING are reactivated. -/
lemma StrandsOk.reactivateAll (h : StrandsOk par s) :
    Alike s (s.strands.foldl (fun s k => if (s.strand k).isDying then s else s.reactivate k) s) := by
  refine h.foldl _ (fun s k hok hk => ?_) fun _ hk => hk
  split_ifs with hdying
  · exact .refl s
  · exact hok.reactivate hk fun hstate => hdying (decide_eq_true hstate)

lemma StrandsOk.retireAll (h : StrandsOk par s) :
    Alike s (s.strands.foldl (fun s k => if (s.strand k).isDying then s else s.retire k) s) := by
  refine h.foldl _ (fun s k hok hk => ?_) fun _ hk => hk
  split_ifs with hdying
  · exact .refl s
  · exact hok.retire hk fun hstate => hdying (decide_eq_true hstate)

/-- `realIncrRefCount` counts one reference more, and may reactivate strands. -/
lemma StrandsOk.realIncrRefCount (h : StrandsOk par s) :
    ∃ s1, Alike s s1 ∧ s.realIncrRefCount = { s1 with refcount := s1.refcount + 1 } := by
  by_cases hzero : s.refcount = 0
  · exact ⟨_, h.reactivateAll, by rw [GIOPRope.realIncrRefCount, if_pos hzero]⟩
  · exact ⟨s, .refl s, by rw [GIOPRope.realIncrRefCount, if_neg hzero]⟩

lemma Ok.realIncrRefCount (h : Ok par s) (hdeleted : s.deleted = false) : Ok par s.realIncrRefCount := by
  obtain ⟨s1, halike, hs⟩ := h.toStrandsOk.realIncrRefCount
  have h1 := halike.ok h
  rw [hs]
  refine ⟨⟨h1.nodup, h1.known, h1.links, h1.strand, h1.limit⟩, h1.failed, h1.calls, h1.nwaiting, h1.filtering,
    h1.filterWait, fun hzero => absurd hzero (Nat.succ_ne_zero _), fun hd => ?_⟩
  rw [← halike.deleted] at hdeleted
  exact absurd (hdeleted.symm.trans hd) Bool.false_ne_true

/-- `decrRefCount` counts one reference less. It deletes the rope, or may retire strands. -/
lemma StrandsOk.decrRefCount (h : StrandsOk par s) :
    (s.refcount - 1 = 0 ∧ s.strands = [] ∧
      s.decrRefCount = { s with refcount := s.refcount - 1, deleted := true }) ∨
    ∃ s1, Alike { s with refcount := s.refcount - 1 } s1 ∧ s.decrRefCount = s1 := by
  have h1 : StrandsOk par { s with refcount := s.refcount - 1 } :=
    ⟨h.nodup, h.known, h.links, h.strand, h.limit⟩
  rw [GIOPRope.decrRefCount]
  split_ifs with hzero hnil
  · exact .inr ⟨_, .refl _, rfl⟩
  · exact .inl ⟨not_not.mp hzero, hnil.1, rfl⟩
  · exact .inr ⟨_, h1.retireAll, rfl⟩

lemma Ok.decrRefCount (h : Ok par s) (hdeleted : s.deleted = false) (hpos : s.refcount ≠ 0)
    (hdone : s.refcount = 1 → ∀ c ∈ s.callers, c.phase = .done) : Ok par s.decrRefCount := by
  have hrefs : s.refcount - 1 = 0 → ∀ c ∈ s.callers, c.phase = .done := fun hzero => hdone (by omega)
  have hstrands : StrandsOk par { s with refcount := s.refcount - 1 } :=
    ⟨h.nodup, h.known, h.links, h.strand, h.limit⟩
  rcases h.toStrandsOk.decrRefCount with ⟨hzero, hnil, hs⟩ | ⟨s1, halike, hs⟩
  · rw [hs]
    exact ⟨⟨h.nodup, h.known, h.links, h.strand, h.limit⟩, h.failed, h.calls, h.nwaiting, h.filtering,
      h.filterWait, hrefs, fun _ => ⟨hzero, hnil⟩⟩
  · rw [hs]
    refine halike.ok ⟨hstrands, h.failed, h.calls, h.nwaiting, h.filtering, h.filterWait, hrefs, fun hd => ?_⟩
    exact absurd (hdeleted.symm.trans hd) Bool.false_ne_true

lemma Ok.selectRope (h : Ok par s) (hzero : s.refcount = 0) (hnil : s.strands = []) :
    Ok par { s with deleted := true } :=
  ⟨⟨h.nodup, h.known, h.links, h.strand, h.limit⟩, h.failed, h.calls, h.nwaiting, h.filtering, h.filterWait,
    h.references, fun _ => ⟨hzero, hnil⟩⟩

end GIOPRope

end OmniORB
