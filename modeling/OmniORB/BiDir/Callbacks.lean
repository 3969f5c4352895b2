import OmniORB.BiDir.Ropes

/-!
# Calls on callback references

The invariant of bidirectional connections: each has the rope of its peer, and so has each callback
reference that came over it.
-/

namespace OmniORB.BiDir

open Library

variable {par : OrbParameters}

/-! ### Lists of ropes -/

section Ropes

variable {p : BiDirServerRope → Bool} {ropes : List BiDirServerRope} {br : BiDirServerRope}

lemma findRope_cons (p : BiDirServerRope → Bool) (br : BiDirServerRope)
    (ropes : List BiDirServerRope) :
    findRope p (br :: ropes) =
      if p br then (some br, br :: ropes)
      else if br.isGarbage then findRope p ropes
      else ((findRope p ropes).1, br :: (findRope p ropes).2) := rfl

lemma findRope_sublist (p : BiDirServerRope → Bool) (ropes : List BiDirServerRope) :
    (findRope p ropes).2.Sublist ropes := by
  induction ropes with
  | nil => exact List.Sublist.refl _
  | cons br ropes ih =>
    rw [findRope_cons]
    split_ifs
    · exact List.Sublist.refl _
    · exact ih.cons br
    · exact ih.cons_cons br

/-- Only garbage is removed. -/
lemma mem_findRope (h : br ∈ ropes) : br ∈ (findRope p ropes).2 ∨ br.isGarbage = true := by
  induction ropes with
  | nil => cases h
  | cons br' ropes ih =>
    rw [findRope_cons]
    split_ifs with hp hg
    · exact Or.inl h
    · rcases List.mem_cons.mp h with rfl | h
      · exact Or.inr hg
      · exact ih h
    · rcases List.mem_cons.mp h with rfl | h
      · exact Or.inl List.mem_cons_self
      · exact (ih h).imp (List.mem_cons_of_mem _) id

lemma findRope_some (h : (findRope p ropes).1 = some br) : p br = true ∧ br ∈ (findRope p ropes).2 := by
  induction ropes with
  | nil => cases h
  | cons br' ropes ih =>
    rw [findRope_cons] at h ⊢
    split_ifs at h ⊢ with hp hg
    · obtain rfl := Option.some.inj h
      exact ⟨hp, List.mem_cons_self⟩
    · exact ih h
    · exact ⟨(ih h).1, List.mem_cons_of_mem _ (ih h).2⟩

lemma findRope_none (h : (findRope p ropes).1 = none) (hbr : br ∈ ropes) : p br = false := by
  induction ropes with
  | nil => cases hbr
  | cons br' ropes ih =>
    rw [findRope_cons] at h
    split_ifs at h with hp hg
    · rcases List.mem_cons.mp hbr with rfl | hbr
      · exact Bool.eq_false_iff.mpr hp
      · exact ih h hbr
    · rcases List.mem_cons.mp hbr with rfl | hbr
      · exact Bool.eq_false_iff.mpr hp
      · exact ih h hbr

lemma mem_modifyRope {id : ℕ} {f : BiDirServerRope → BiDirServerRope} (h : br ∈ modifyRope id f ropes) :
    ∃ br' ∈ ropes, br = if br'.id = id then f br' else br' := by
  obtain ⟨br', hbr', rfl⟩ := List.mem_map.mp h
  exact ⟨br', hbr', rfl⟩

lemma eq_of_mem_of_length {l : List ℕ} {s s' : ℕ} (h : l.length ≤ 1) (hs : s ∈ l) (hs' : s' ∈ l) :
    s = s' := by
  obtain ⟨i, hi, rfl⟩ := List.mem_iff_getElem.mp hs
  obtain ⟨j, hj, rfl⟩ := List.mem_iff_getElem.mp hs'
  obtain rfl : i = j := by omega
  rfl

lemma nodup_of_length {l : List ℕ} (h : l.length ≤ 1) : l.Nodup := by
  rw [List.nodup_iff_injective_getElem]
  intro i j _
  exact Fin.ext (by omega)

lemma subset_redirect (br : BiDirServerRope) (l : List Text) :
    br.redirectAddresses ⊆ (br.redirect l).redirectAddresses ∧
      l ⊆ (br.redirect l).redirectAddresses := by
  rw [BiDirServerRope.redirect]
  dsimp only
  generalize br.redirectAddresses = known
  induction l generalizing known with
  | nil => exact ⟨List.Subset.refl _, List.nil_subset _⟩
  | cons a l ih =>
    rw [List.foldl_cons]
    obtain ⟨hknown, hl⟩ := ih (if a ∈ known then known else known ++ [a])
    have hadd : known ⊆ (if a ∈ known then known else known ++ [a]) ∧
        a ∈ (if a ∈ known then known else known ++ [a]) := by
      split_ifs with ha
      · exact ⟨List.Subset.refl _, ha⟩
      · exact ⟨List.subset_append_left _ _, List.mem_append_right _ List.mem_cons_self⟩
    exact ⟨List.Subset.trans hadd.1 hknown, List.cons_subset.mpr ⟨hknown hadd.2, hl⟩⟩

end Ropes

namespace World

variable {w w' : World} {c : ℕ} {ropes : List BiDirServerRope} {br br' : BiDirServerRope}

/-- What holds of a list of ropes, for the connections and references that there are. -/
structure RopesOk (w : World) (ropes : List BiDirServerRope) : Prop where
  ids : (ropes.map (·.id)).Nodup
  lt : ∀ br ∈ ropes, br.id < w.nextRope
  peers : (ropes.map (·.sendfrom)).Nodup
  strands : ∀ br ∈ ropes, ∀ s ∈ br.strands, s < w.opened ∧
    (w.strand s).peeraddress = br.sendfrom ∧ (w.strand s).state ≠ .deleted
  single : ∀ br ∈ ropes, br.strands.length ≤ 1
  silent : ∀ c < w.opened, (w.strand c).isBiDir = false → (w.strand c).announced = []
  bidir : ∀ c < w.opened, (w.strand c).isBiDir = true → (w.strand c).state ≠ .deleted →
    ∃ br ∈ ropes, c ∈ br.strands ∧ (w.strand c).announced ⊆ br.redirectAddresses
  counts : ∀ br ∈ ropes, br.refcount = w.references.countP fun r => r.rope = some br.id
  references : ∀ r ∈ w.references, ∀ id, r.rope = some id → ∃ br ∈ ropes, br.id = id
  callbacks : ∀ r ∈ w.references, r.callback = true → r.strand < w.opened ∧
    (w.strand r.strand).isBiDir = true ∧ ∃ br ∈ ropes, r.rope = some br.id ∧
      br.sendfrom = (w.strand r.strand).peeraddress ∧ ∀ s ∈ br.strands, s = r.strand

namespace RopesOk

lemma eq_of_id (h : w.RopesOk ropes) (hbr : br ∈ ropes) (hbr' : br' ∈ ropes) (hid : br.id = br'.id) :
    br = br' := List.inj_on_of_nodup_map h.ids hbr hbr' hid

lemma eq_of_sendfrom (h : w.RopesOk ropes) (hbr : br ∈ ropes) (hbr' : br' ∈ ropes)
    (hs : br.sendfrom = br'.sendfrom) : br = br' := List.inj_on_of_nodup_map h.peers hbr hbr' hs

/-- A rope that is used is no garbage. -/
lemma not_garbage (h : w.RopesOk ropes) (hbr : br ∈ ropes) (hg : br.isGarbage = true) :
    br.strands = [] ∧ ∀ r ∈ w.references, r.rope ≠ some br.id := by
  rw [BiDirServerRope.isGarbage, Bool.and_eq_true, decide_eq_true_eq] at hg
  refine ⟨List.isEmpty_iff.mp hg.2, fun r hr hrope => ?_⟩
  have hzero := h.counts br hbr
  rw [hg.1] at hzero
  have hpos : 0 < w.references.countP fun r => r.rope = some br.id :=
    List.countP_pos_iff.mpr ⟨r, hr, decide_eq_true hrope⟩
  omega

lemma dropGarbage (h : w.RopesOk ropes) {l : List BiDirServerRope} (hsub : l.Sublist ropes)
    (hg : ∀ br ∈ ropes, br ∈ l ∨ br.isGarbage = true) : w.RopesOk l where
  ids := h.ids.sublist (hsub.map _)
  lt br hbr := h.lt br (hsub.subset hbr)
  peers := h.peers.sublist (hsub.map _)
  strands br hbr := h.strands br (hsub.subset hbr)
  single br hbr := h.single br (hsub.subset hbr)
  silent := h.silent
  bidir := by
    intro c hc hbidir hstate
    obtain ⟨br, hbr, hmem, hann⟩ := h.bidir c hc hbidir hstate
    rcases hg br hbr with hl | hgarbage
    · exact ⟨br, hl, hmem, hann⟩
    · rw [(h.not_garbage hbr hgarbage).1] at hmem
      cases hmem
  counts br hbr := h.counts br (hsub.subset hbr)
  references := by
    intro r hr id hid
    obtain ⟨br, hbr, rfl⟩ := h.references r hr id hid
    rcases hg br hbr with hl | hgarbage
    · exact ⟨br, hl, rfl⟩
    · exact absurd hid ((h.not_garbage hbr hgarbage).2 r hr)
  callbacks := by
    intro r hr hcb
    obtain ⟨hlt, hbidir, br, hbr, hrope, hrest⟩ := h.callbacks r hr hcb
    rcases hg br hbr with hl | hgarbage
    · exact ⟨hlt, hbidir, br, hl, hrope, hrest⟩
    · exact absurd hrope ((h.not_garbage hbr hgarbage).2 r hr)

lemma findRope (h : w.RopesOk ropes) (p : BiDirServerRope → Bool) :
    w.RopesOk (findRope p ropes).2 :=
  h.dropGarbage (findRope_sublist p ropes) fun _ hbr => mem_findRope hbr

/-- Where the connections have changed. -/
lemma of_strands (h : w.RopesOk ropes) (hrefs : w'.references = w.references)
    (hnext : w'.nextRope = w.nextRope) (hopened : w.opened ≤ w'.opened)
    (hpeer : ∀ s < w.opened, (w'.strand s).peeraddress = (w.strand s).peeraddress)
    (hstate : ∀ br ∈ ropes, ∀ s ∈ br.strands, (w'.strand s).state ≠ .deleted)
    (hbidir : ∀ s < w.opened, (w.strand s).isBiDir = true → (w'.strand s).isBiDir = true)
    (hsilent : ∀ s < w'.opened, (w'.strand s).isBiDir = false → (w'.strand s).announced = [])
    (hnew : ∀ s < w'.opened, (w'.strand s).isBiDir = true → (w'.strand s).state ≠ .deleted →
      ∃ br ∈ ropes, s ∈ br.strands ∧ (w'.strand s).announced ⊆ br.redirectAddresses) :
    w'.RopesOk ropes where
  ids := h.ids
  lt := hnext ▸ h.lt
  peers := h.peers
  strands := by
    intro br hbr s hs
    obtain ⟨hlt, hp, -⟩ := h.strands br hbr s hs
    exact ⟨hlt.trans_le hopened, (hpeer s hlt).trans hp, hstate br hbr s hs⟩
  single := h.single
  silent := hsilent
  bidir := hnew
  counts := hrefs ▸ h.counts
  references := hrefs ▸ h.references
  callbacks := by
    rw [hrefs]
    intro r hr hcb
    obtain ⟨hlt, hb, br, hbr, hrope, hpr, hall⟩ := h.callbacks r hr hcb
    exact ⟨hlt.trans_le hopened, hbidir _ hlt hb, br, hbr, hrope, hpr.trans (hpeer _ hlt).symm, hall⟩

lemma modifyRope_mem (hbr : br ∈ ropes) (id : ℕ) (f : BiDirServerRope → BiDirServerRope) :
    (if br.id = id then f br else br) ∈ modifyRope id f ropes :=
  List.mem_map.mpr ⟨br, hbr, rfl⟩

/-- A change of one rope that keeps its name, its peer and its strands. -/
structure Mild (f : BiDirServerRope → BiDirServerRope) : Prop where
  id : ∀ br, (f br).id = br.id
  sendfrom : ∀ br, (f br).sendfrom = br.sendfrom
  strands : ∀ br, (f br).strands = br.strands
  redirect : ∀ br, br.redirectAddresses ⊆ (f br).redirectAddresses

lemma Mild.ite {f : BiDirServerRope → BiDirServerRope} (hf : Mild f) (id : ℕ) :
    Mild fun br => if br.id = id then f br else br where
  id br := by
    split_ifs
    · exact hf.id br
    · rfl
  sendfrom br := by
    split_ifs
    · exact hf.sendfrom br
    · rfl
  strands br := by
    split_ifs
    · exact hf.strands br
    · rfl
  redirect br := by
    split_ifs
    · exact hf.redirect br
    · exact List.Subset.refl _

/-- Where a rope has been changed mildly, with the references. -/
lemma map (h : w.RopesOk ropes) {f : BiDirServerRope → BiDirServerRope} (hf : Mild f)
    (refs : List Reference)
    (hcounts : ∀ br ∈ ropes, (f br).refcount = refs.countP fun r => r.rope = some br.id)
    (hrefs : ∀ r ∈ refs, ∀ id, r.rope = some id → ∃ br ∈ ropes, br.id = id)
    (hcallbacks : ∀ r ∈ refs, r.callback = true → r.strand < w.opened ∧
      (w.strand r.strand).isBiDir = true ∧ ∃ br ∈ ropes, r.rope = some br.id ∧
        br.sendfrom = (w.strand r.strand).peeraddress ∧ ∀ s ∈ br.strands, s = r.strand) :
    RopesOk { w with references := refs } (ropes.map f) where
  ids := by
    have hid : (fun br : BiDirServerRope => br.id) ∘ f = fun br => br.id := funext hf.id
    rw [List.map_map, hid]
    exact h.ids
  lt := by
    intro br hbr
    obtain ⟨br', hbr', rfl⟩ := List.mem_map.mp hbr
    rw [hf.id]
    exact h.lt br' hbr'
  peers := by
    have hs : (fun br : BiDirServerRope => br.sendfrom) ∘ f = fun br => br.sendfrom :=
      funext hf.sendfrom
    rw [List.map_map, hs]
    exact h.peers
  strands := by
    intro br hbr s hs
    obtain ⟨br', hbr', rfl⟩ := List.mem_map.mp hbr
    rw [hf.strands] at hs
    rw [hf.sendfrom]
    exact h.strands br' hbr' s hs
  single := by
    intro br hbr
    obtain ⟨br', hbr', rfl⟩ := List.mem_map.mp hbr
    rw [hf.strands]
    exact h.single br' hbr'
  silent := h.silent
  bidir := by
    intro c hc hbidir hstate
    obtain ⟨br, hbr, hmem, hann⟩ := h.bidir c hc hbidir hstate
    exact ⟨f br, List.mem_map_of_mem hbr, (hf.strands br).symm ▸ hmem,
      List.Subset.trans hann (hf.redirect br)⟩
  counts := by
    intro br hbr
    obtain ⟨br', hbr', rfl⟩ := List.mem_map.mp hbr
    rw [hf.id]
    exact hcounts br' hbr'
  references := by
    intro r hr id hid
    obtain ⟨br, hbr, rfl⟩ := hrefs r hr id hid
    exact ⟨f br, List.mem_map_of_mem hbr, hf.id br⟩
  callbacks := by
    intro r hr hcb
    obtain ⟨hlt, hb, br, hbr, hrope, hpeer, hall⟩ := hcallbacks r hr hcb
    refine ⟨hlt, hb, f br, List.mem_map_of_mem hbr, ?_, ?_, ?_⟩
    · rw [hf.id]
      exact hrope
    · rw [hf.sendfrom]
      exact hpeer
    · rw [hf.strands]
      exact hall

/-- A connection announces addresses that its rope has. -/
lemma announce (h : w.RopesOk ropes) {addresses : List Text}
    (hstrand : w'.strand = Function.update w.strand c { w.strand c with
      isBiDir := true, announced := (w.strand c).announced ++ addresses })
    (hopened : w'.opened = w.opened) (hrefs : w'.references = w.references)
    (hnext : w'.nextRope = w.nextRope)
    (hthere : ∃ br ∈ ropes, c ∈ br.strands ∧
      (w.strand c).announced ++ addresses ⊆ br.redirectAddresses) : w'.RopesOk ropes := by
  have hother : ∀ s, s ≠ c → w'.strand s = w.strand s := by
    intro s hs
    rw [hstrand]
    exact Function.update_of_ne hs ..
  have hself : w'.strand c = { w.strand c with
      isBiDir := true, announced := (w.strand c).announced ++ addresses } := by
    rw [hstrand]
    exact Function.update_self ..
  refine h.of_strands hrefs hnext hopened.ge (fun s _ => ?_) (fun br hbr s hs => ?_)
    (fun s hs hb => ?_) (fun s hs hb => ?_) (fun s hs hb hd => ?_)
  · rcases eq_or_ne s c with rfl | hne
    · rw [hself]
    · rw [hother s hne]
  · have hst := (h.strands br hbr s hs).2.2
    rcases eq_or_ne s c with rfl | hne
    · rwa [hself]
    · rwa [hother s hne]
  · rcases eq_or_ne s c with rfl | hne
    · rw [hself]
    · rwa [hother s hne]
  · rw [hopened] at hs
    rcases eq_or_ne s c with rfl | hne
    · rw [hself] at hb
      cases hb
    · rw [hother s hne] at hb ⊢
      exact h.silent s hs hb
  · rw [hopened] at hs
    rcases eq_or_ne s c with rfl | hne
    · rw [hself]
      exact hthere
    · rw [hother s hne] at hb hd ⊢
      exact h.bidir s hs hb hd

/-- A rope for a peer that has none. -/
lemma append (h : w.RopesOk ropes) (hc : c < w.opened) (hst : (w.strand c).state ≠ .deleted)
    (hnone : ∀ br ∈ ropes, br.sendfrom ≠ (w.strand c).peeraddress) (redirect : List Text) :
    RopesOk { w with nextRope := w.nextRope + 1 }
      (ropes ++ [⟨w.nextRope, (w.strand c).peeraddress, redirect, [c], 0⟩]) where
  ids := by
    rw [List.map_append, List.nodup_append]
    refine ⟨h.ids, List.nodup_singleton _, ?_⟩
    rintro id hid id' hid' rfl
    obtain ⟨br, hbr, hbrid⟩ := List.mem_map.mp hid
    have hlt := h.lt br hbr
    rw [hbrid, List.mem_singleton.mp hid'] at hlt
    exact hlt.false
  lt := by
    intro br hbr
    rcases List.mem_append.mp hbr with hbr | hbr
    · exact (h.lt br hbr).trans (Nat.lt_succ_self _)
    · obtain rfl := List.mem_singleton.mp hbr
      exact Nat.lt_succ_self _
  peers := by
    rw [List.map_append, List.nodup_append]
    refine ⟨h.peers, List.nodup_singleton _, ?_⟩
    rintro p hp p' hp' rfl
    obtain ⟨br, hbr, hbrp⟩ := List.mem_map.mp hp
    exact hnone br hbr (hbrp.trans (List.mem_singleton.mp hp'))
  strands := by
    intro br hbr s hs
    rcases List.mem_append.mp hbr with hbr | hbr
    · exact h.strands br hbr s hs
    · obtain rfl := List.mem_singleton.mp hbr
      obtain rfl := List.mem_singleton.mp hs
      exact ⟨hc, rfl, hst⟩
  single := by
    intro br hbr
    rcases List.mem_append.mp hbr with hbr | hbr
    · exact h.single br hbr
    · obtain rfl := List.mem_singleton.mp hbr
      exact le_rfl
  silent := h.silent
  bidir := by
    intro s hs hb hd
    obtain ⟨br, hbr, hrest⟩ := h.bidir s hs hb hd
    exact ⟨br, List.mem_append_left _ hbr, hrest⟩
  counts := by
    intro br hbr
    rcases List.mem_append.mp hbr with hbr | hbr
    · exact h.counts br hbr
    · obtain rfl := List.mem_singleton.mp hbr
      symm
      rw [List.countP_eq_zero]
      intro r hr hrope
      obtain ⟨br, hbr, hid⟩ := h.references r hr _ (of_decide_eq_true hrope)
      exact (h.lt br hbr).ne hid
  references := by
    intro r hr id hid
    obtain ⟨br, hbr, hbrid⟩ := h.references r hr id hid
    exact ⟨br, List.mem_append_left _ hbr, hbrid⟩
  callbacks := by
    intro r hr hcb
    obtain ⟨hlt, hb, br, hbr, hrest⟩ := h.callbacks r hr hcb
    exact ⟨hlt, hb, br, List.mem_append_left _ hbr, hrest⟩

end RopesOk

/-- The invariant of a run. -/
structure Inv (w : World) : Prop where
  ropes : w.RopesOk w.ropes
  added : ∀ e ∈ w.added, e.1 ∈ e.2

namespace Inv

lemma start : Inv World.start where
  ropes := ⟨List.nodup_nil, fun _ h => (by cases h), List.nodup_nil, fun _ h => (by cases h),
    fun _ h => (by cases h), fun _ h => (by cases h), fun _ h => (by cases h),
    fun _ h => (by cases h), fun _ h => (by cases h), fun _ h => (by cases h)⟩
  added _ h := by cases h

/-- A call on a callback reference uses the connection that the reference came over. -/
lemma right (h : w.Inv) {r : Reference} (hr : r ∈ w.references) (hcb : r.callback = true) :
    w.Right r := by
  obtain ⟨hlt, hbidir, br, hbr, hrope, hpeer, hall⟩ := h.ropes.callbacks r hr hcb
  have hserves : ∀ s, w.Serves r.strand s → s ∈ br.strands := by
    intro s hs
    obtain ⟨br', hbr', hmem, -⟩ := h.ropes.bidir s hs.lt hs.bidir (by rw [hs.active]; decide)
    have hsame : br' = br := by
      refine h.ropes.eq_of_sendfrom hbr' hbr ?_
      rw [hpeer, ← (h.ropes.strands br' hbr' s hmem).2.1, hs.peer]
    exact hsame ▸ hmem
  have hfind : w.ropes.find? (·.id = br.id) = some br := by
    obtain ⟨br', hbr'⟩ := Option.isSome_iff_exists.mp
      (List.find?_isSome (p := fun b : BiDirServerRope => decide (b.id = br.id)) |>.mpr
        ⟨br, hbr, decide_eq_true rfl⟩)
    rw [hbr', h.ropes.eq_of_id (List.mem_of_find?_eq_some hbr') hbr
      (of_decide_eq_true
        (List.find?_some (p := fun b : BiDirServerRope => decide (b.id = br.id)) hbr'))]
  have hcall : w.call r = w.acquireClient br := by
    rw [World.call, hrope, Option.bind_some, hfind]
  rw [Right, hcall, acquireClient]
  cases hstrands : br.strands with
  | nil =>
    refine Or.inr ⟨rfl, fun s hs => ?_⟩
    have hmem := hserves s hs
    rw [hstrands] at hmem
    cases hmem
  | cons s l =>
    have hs : s ∈ br.strands := hstrands ▸ List.mem_cons_self
    obtain rfl := hall s hs
    dsimp only
    split_ifs with hdying
    · refine Or.inr ⟨rfl, fun s' hs' => ?_⟩
      have heq := hall s' (hserves s' hs')
      have hactive := hs'.active
      rw [heq, hdying] at hactive
      cases hactive
    · refine Or.inl ⟨_, rfl, hlt, le_rfl, rfl, hbidir, ?_⟩
      cases hstate : (w.strand r.strand).state with
      | active => rfl
      | dying => exact absurd hstate hdying
      | deleted => exact absurd hstate (h.ropes.strands br hbr _ hs).2.2

lemma kept (h : w.Inv) : w.Kept := ⟨h.added, fun _ hr hcb => h.right hr hcb⟩

lemma openConnection (h : w.Inv) (peeraddress myaddress : Text) :
    Inv { w with
      strand := Function.update w.strand w.opened ⟨peeraddress, myaddress, false, .active, []⟩
      opened := w.opened + 1 } := by
  have hold : ∀ s < w.opened, Function.update w.strand w.opened
      ⟨peeraddress, myaddress, false, .active, []⟩ s = w.strand s := fun s hs =>
    Function.update_of_ne hs.ne ..
  refine ⟨h.ropes.of_strands rfl rfl (Nat.le_succ _) (fun s hs => ?_) (fun br hbr s hs => ?_)
    (fun s hs hb => ?_) (fun s hs hb => ?_) (fun s hs hb hst => ?_), h.added⟩
  · dsimp only
    rw [hold s hs]
  · obtain ⟨hlt, -, hst⟩ := h.ropes.strands br hbr s hs
    dsimp only
    rwa [hold s hlt]
  · dsimp only
    rwa [hold s hs]
  · dsimp only at hb ⊢
    rcases Nat.lt_succ_iff_lt_or_eq.mp hs with hlt | rfl
    · rw [hold s hlt] at hb ⊢
      exact h.ropes.silent s hlt hb
    · rw [Function.update_self]
  · dsimp only at hb hst ⊢
    rcases Nat.lt_succ_iff_lt_or_eq.mp hs with hlt | rfl
    · rw [hold s hlt] at hb hst ⊢
      exact h.ropes.bidir s hlt hb hst
    · rw [Function.update_self] at hb
      cases hb

lemma die (h : w.Inv) (hc : c < w.opened) (hst : (w.strand c).state = .active) :
    Inv (w.setStrand c { w.strand c with state := .dying }) := by
  have hother : ∀ s, s ≠ c → (w.setStrand c { w.strand c with state := .dying }).strand s =
      w.strand s := fun s hs => Function.update_of_ne hs ..
  have hself : (w.setStrand c { w.strand c with state := .dying }).strand c =
      { w.strand c with state := .dying } := Function.update_self ..
  refine ⟨h.ropes.of_strands rfl rfl le_rfl (fun s hs => ?_) (fun br hbr s hs => ?_)
    (fun s hs hb => ?_) (fun s hs hb => ?_) (fun s hs hb hd => ?_), h.added⟩
  · rcases eq_or_ne s c with rfl | hne
    · rw [hself]
    · rw [hother s hne]
  · rcases eq_or_ne s c with rfl | hne
    · rw [hself]
      exact StrandState.noConfusion
    · rw [hother s hne]
      exact (h.ropes.strands br hbr s hs).2.2
  · rcases eq_or_ne s c with rfl | hne
    · rwa [hself]
    · rwa [hother s hne]
  · rcases eq_or_ne s c with rfl | hne
    · rw [hself] at hb ⊢
      exact h.ropes.silent s hs hb
    · rw [hother s hne] at hb ⊢
      exact h.ropes.silent s hs hb
  · rcases eq_or_ne s c with rfl | hne
    · rw [hself] at hb ⊢
      exact h.ropes.bidir s hs hb (by rw [hst]; exact StrandState.noConfusion)
    · rw [hother s hne] at hb hd ⊢
      exact h.ropes.bidir s hs hb hd

lemma delete (h : w.Inv) (c : ℕ) : Inv { w.setStrand c { w.strand c with state := .deleted } with
    ropes := w.ropes.map fun br => { br with strands := br.strands.erase c } } := by
  set strand := Function.update w.strand c { w.strand c with state := .deleted } with hstrand
  have hkeeps : ∀ s, (strand s).peeraddress = (w.strand s).peeraddress ∧
      (strand s).isBiDir = (w.strand s).isBiDir ∧ (strand s).announced = (w.strand s).announced := by
    intro s
    rcases eq_or_ne s c with rfl | hne
    · rw [hstrand, Function.update_self]
      exact ⟨rfl, rfl, rfl⟩
    · rw [hstrand, Function.update_of_ne hne]
      exact ⟨rfl, rfl, rfl⟩
  have herase : ∀ br ∈ w.ropes, ∀ s, s ∈ br.strands.erase c ↔ s ≠ c ∧ s ∈ br.strands :=
    fun br hbr s => (nodup_of_length (h.ropes.single br hbr)).mem_erase_iff
  refine ⟨⟨?_, ?_, ?_, ?_, ?_, ?_, ?_, ?_, ?_, ?_⟩, h.added⟩
  · rw [List.map_map]
    exact h.ropes.ids
  · intro br hbr
    obtain ⟨br', hbr', rfl⟩ := List.mem_map.mp hbr
    exact h.ropes.lt br' hbr'
  · rw [List.map_map]
    exact h.ropes.peers
  · intro br hbr s hs
    obtain ⟨br', hbr', rfl⟩ := List.mem_map.mp hbr
    obtain ⟨hne, hin⟩ := (herase br' hbr' s).mp hs
    obtain ⟨hlt, hp, hst⟩ := h.ropes.strands br' hbr' s hin
    refine ⟨hlt, (hkeeps s).1.trans hp, ?_⟩
    change (strand s).state ≠ .deleted
    rwa [hstrand, Function.update_of_ne hne]
  · intro br hbr
    obtain ⟨br', hbr', rfl⟩ := List.mem_map.mp hbr
    exact (List.length_erase_le).trans (h.ropes.single br' hbr')
  · intro s hs hb
    rw [← h.ropes.silent s hs ((hkeeps s).2.1.symm.trans hb)]
    exact (hkeeps s).2.2
  · intro s hs hb hst
    have hne : s ≠ c := by
      rintro rfl
      refine hst ?_
      change (strand s).state = .deleted
      rw [hstrand, Function.update_self]
    have hst' : (w.strand s).state ≠ .deleted := by
      change (strand s).state ≠ .deleted at hst
      rwa [hstrand, Function.update_of_ne hne] at hst
    obtain ⟨br, hbr, hmem, hann⟩ := h.ropes.bidir s hs ((hkeeps s).2.1.symm.trans hb) hst'
    refine ⟨_, List.mem_map_of_mem hbr, (herase br hbr s).mpr ⟨hne, hmem⟩, ?_⟩
    exact (hkeeps s).2.2.symm ▸ hann
  · intro br hbr
    obtain ⟨br', hbr', rfl⟩ := List.mem_map.mp hbr
    exact h.ropes.counts br' hbr'
  · intro r hr id hid
    obtain ⟨br, hbr, rfl⟩ := h.ropes.references r hr id hid
    exact ⟨_, List.mem_map_of_mem hbr, rfl⟩
  · intro r hr hcb
    obtain ⟨hlt, hb, br, hbr, hrope, hp, hall⟩ := h.ropes.callbacks r hr hcb
    refine ⟨hlt, (hkeeps _).2.1.trans hb, _, List.mem_map_of_mem hbr, hrope,
      hp.trans (hkeeps _).1.symm, fun s hs => hall s ((herase br hbr s).mp hs).2⟩

/-- A connection becomes bidirectional, or announces more addresses. -/
lemma context (h : w.Inv) {minor : ℕ} {l : List (Text × ℕ)} (hc : c < w.opened)
    (hst : (w.strand c).state ≠ .deleted)
    (hok : w.acceptsContext par c minor l = true →
      ∀ br ∈ w.ropes, br.sendfrom = (w.strand c).peeraddress → c ∈ br.strands) :
    (w.getBiDirServiceContext par c minor l).Inv := by
  rw [getBiDirServiceContext]
  split_ifs with hacc
  swap
  · exact h
  generalize w.addrList par c l = addresses
  have hpeer : (Function.update w.strand c { w.strand c with
      isBiDir := true, announced := (w.strand c).announced ++ addresses } c).peeraddress =
      (w.strand c).peeraddress := by
    rw [Function.update_self]
  have hres := h.ropes.findRope (·.sendfrom = (w.strand c).peeraddress)
  rw [addRope, setStrand]
  dsimp only
  rw [hpeer]
  cases hfound : (findRope (·.sendfrom = (w.strand c).peeraddress) w.ropes).1 with
  | some br =>
    obtain ⟨hp, hbr⟩ := findRope_some hfound
    have hbr' : br ∈ w.ropes := (findRope_sublist _ _).subset hbr
    have hmem := hok hacc br hbr' (of_decide_eq_true hp)
    rw [← Prod.mk.eta (p := findRope _ w.ropes), hfound]
    have hann : (w.strand c).announced ⊆ br.redirectAddresses := by
      cases hb : (w.strand c).isBiDir with
      | false =>
        rw [h.ropes.silent c hc hb]
        exact List.nil_subset _
      | true =>
        obtain ⟨br0, hbr0, hmem0, hann⟩ := h.ropes.bidir c hc hb hst
        have hs0 := (h.ropes.strands br0 hbr0 c hmem0).2.1
        rwa [h.ropes.eq_of_sendfrom hbr' hbr0 ((of_decide_eq_true hp).trans hs0)]
    have hmild : RopesOk.Mild fun br' : BiDirServerRope =>
        if br'.id = br.id then br'.redirect addresses else br' :=
      RopesOk.Mild.ite (f := (·.redirect addresses))
        ⟨fun _ => rfl, fun _ => rfl, fun _ => rfl, fun br' => (subset_redirect br' addresses).1⟩ br.id
    have hmap := hres.map hmild w.references (fun br' hbr' => ?_) hres.references
      hres.callbacks
    · refine ⟨hmap.announce rfl rfl rfl rfl ⟨_, List.mem_map_of_mem hbr, ?_⟩, ?_⟩
      · rw [if_pos rfl]
        exact ⟨hmem, List.append_subset.mpr
          ⟨List.Subset.trans hann (subset_redirect br addresses).1,
            (subset_redirect br addresses).2⟩⟩
      · intro e he
        rcases List.mem_append.mp he with he | he
        · exact h.added e he
        · obtain rfl := List.mem_singleton.mp he
          exact hmem
    · split_ifs
      · exact hres.counts br' hbr'
      · exact hres.counts br' hbr'
  | none =>
    rw [← Prod.mk.eta (p := findRope _ w.ropes), hfound]
    have hnone : ∀ br ∈ w.ropes, br.sendfrom ≠ (w.strand c).peeraddress := fun br hbr =>
      of_decide_eq_false (findRope_none hfound hbr)
    have hsilent : (w.strand c).announced = [] := by
      cases hb : (w.strand c).isBiDir with
      | false => exact h.ropes.silent c hc hb
      | true =>
        obtain ⟨br0, hbr0, hmem0, -⟩ := h.ropes.bidir c hc hb hst
        exact absurd (h.ropes.strands br0 hbr0 c hmem0).2.1.symm (hnone br0 hbr0)
    have happend := hres.append hc hst (fun br hbr => hnone br ((findRope_sublist _ _).subset hbr))
      (BiDirServerRope.redirect ⟨w.nextRope, (w.strand c).peeraddress, [], [c], 0⟩
        addresses).redirectAddresses
    refine ⟨happend.announce rfl rfl rfl rfl
      ⟨_, List.mem_append_right _ List.mem_cons_self, List.mem_cons_self, ?_⟩, fun e he => ?_⟩
    · rw [hsilent]
      exact (subset_redirect _ addresses).2
    · rcases List.mem_append.mp he with he | he
      · exact h.added e he
      · obtain rfl := List.mem_singleton.mp he
        exact List.mem_cons_self

/-- A rope that is selected is for the peer that the reference names first. -/
lemma selectRope (h : w.RopesOk w.ropes) (par : OrbParameters) (info : IORInfo) :
    (∃ ropes, w.selectRope par info = (none, ropes) ∧ w.RopesOk ropes ∧
      (par.acceptBiDirectionalGIOP && info.version.1 = 1 && 2 ≤ info.version.2 →
        ∀ sendfrom ∈ info.sendfrom.head?, ∀ br ∈ w.ropes,
          br.isFor sendfrom info.addresses = false)) ∨
    ∃ br ropes, w.selectRope par info =
      (some br, modifyRope br.id (fun br => { br with refcount := br.refcount + 1 }) ropes) ∧
        w.RopesOk ropes ∧ br ∈ ropes ∧ ∀ sendfrom ∈ info.sendfrom.head?, br.sendfrom = sendfrom := by
  rw [World.selectRope]
  split_ifs with hbidir
  · cases hinfo : info.sendfrom with
    | nil => exact Or.inl ⟨w.ropes, rfl, h, fun _ sendfrom hs => by cases hs⟩
    | cons sendfrom l =>
      dsimp only
      rw [← Prod.mk.eta (p := findRope _ w.ropes)]
      cases hfound : (findRope (·.isFor sendfrom info.addresses) w.ropes).1 with
      | none =>
        refine Or.inl ⟨_, rfl, h.findRope _, fun _ sendfrom' hs br hbr => ?_⟩
        obtain rfl := Option.some.inj hs
        exact findRope_none hfound hbr
      | some br =>
        obtain ⟨hp, hbr⟩ := findRope_some hfound
        refine Or.inr ⟨br, _, rfl, h.findRope _, hbr, fun sendfrom' hs => ?_⟩
        obtain rfl := Option.some.inj hs
        rw [BiDirServerRope.isFor, Bool.and_eq_true] at hp
        exact of_decide_eq_true hp.1
  · exact Or.inl ⟨w.ropes, rfl, h, fun hb => absurd hb hbidir⟩

/-- A reference comes over a connection. -/
lemma unMarshal (h : w.Inv) {info : IORInfo} {acceptBiDirectional : Bool} (hc : c < w.opened)
    (hst : (w.strand c).state ≠ .deleted)
    (hok : w.isCallback par c info acceptBiDirectional = true →
      ∀ sendfrom ∈ info.sendfrom.head?, sendfrom = (w.strand c).peeraddress) :
    (w.unMarshal par c info acceptBiDirectional).Inv := by
  -- what is known of a callback reference: the rope of the connection is for it
  have hcallback : w.isCallback par c info acceptBiDirectional = true →
      (w.strand c).isBiDir = true ∧ acceptBiDirectional = true ∧
        (par.acceptBiDirectionalGIOP && info.version.1 = 1 && 2 ≤ info.version.2) = true ∧
        ∃ br ∈ w.ropes, c ∈ br.strands ∧
          br.isFor (w.strand c).peeraddress info.addresses = true := by
    intro hcb
    simp only [isCallback, Bool.and_eq_true, List.any_eq_true, decide_eq_true_eq] at hcb
    obtain ⟨⟨⟨⟨⟨hpar, haccept⟩, hb⟩, hmajor⟩, hminor⟩, a, ha, hann⟩ := hcb
    obtain ⟨br, hbr, hmem, hsub⟩ := h.ropes.bidir c hc hb hst
    refine ⟨hb, haccept, by simp [hpar, hmajor, hminor], br, hbr, hmem, ?_⟩
    rw [BiDirServerRope.isFor, Bool.and_eq_true]
    exact ⟨decide_eq_true (h.ropes.strands br hbr c hmem).2.1.symm,
      List.any_eq_true.mpr ⟨a, ha, decide_eq_true (hsub hann)⟩⟩
  rw [World.unMarshal]
  set info' := if (w.strand c).isBiDir && acceptBiDirectional then
    { info with sendfrom := info.sendfrom ++ [(w.strand c).peeraddress] } else info with hinfo'
  have hfirst : w.isCallback par c info acceptBiDirectional = true → info'.version = info.version ∧
      info'.addresses = info.addresses ∧ info'.sendfrom.head? = some (w.strand c).peeraddress := by
    intro hcb
    obtain ⟨hb, haccept, -⟩ := hcallback hcb
    rw [hinfo', if_pos (by rw [hb, haccept]; rfl)]
    refine ⟨rfl, rfl, ?_⟩
    dsimp only
    cases hs : info.sendfrom with
    | nil => rfl
    | cons sendfrom l =>
      rw [List.cons_append, List.head?_cons, hok hcb sendfrom (by rw [hs]; rfl)]
  rcases selectRope h.ropes par info' with ⟨ropes, hsel, hropes, hnone⟩ | ⟨br, ropes, hsel, hropes, hbr, hs⟩
  · have hcb : w.isCallback par c info acceptBiDirectional = false := by
      rw [Bool.eq_false_iff]
      intro hcb
      obtain ⟨-, -, hbidir, br, hbr, -, hfor⟩ := hcallback hcb
      obtain ⟨hversion, haddresses, hhead⟩ := hfirst hcb
      rw [hversion, haddresses] at hnone
      rw [hnone hbidir _ hhead br hbr] at hfor
      cases hfor
    rw [hsel, hcb]
    refine ⟨⟨hropes.ids, hropes.lt, hropes.peers, hropes.strands, hropes.single, hropes.silent,
      hropes.bidir, fun br hbr => ?_, fun r hr id hid => ?_, fun r hr hcb' => ?_⟩, h.added⟩
    · exact (hropes.counts br hbr).trans (List.countP_cons_of_neg (by simp)).symm
    · rcases List.mem_cons.mp hr with rfl | hr
      · cases hid
      · exact hropes.references r hr id hid
    · rcases List.mem_cons.mp hr with rfl | hr
      · cases hcb'
      · exact hropes.callbacks r hr hcb'
  · rw [hsel]
    have hmild : RopesOk.Mild fun br' : BiDirServerRope =>
        if br'.id = br.id then { br' with refcount := br'.refcount + 1 } else br' :=
      RopesOk.Mild.ite (f := fun br' => { br' with refcount := br'.refcount + 1 })
        ⟨fun _ => rfl, fun _ => rfl, fun _ => rfl, fun _ => List.Subset.refl _⟩ br.id
    have hmap := hropes.map hmild
      (⟨c, some br.id, w.isCallback par c info acceptBiDirectional⟩ :: w.references)
      (fun br' hbr' => ?_) (fun r hr id hid => ?_) (fun r hr hcb => ?_)
    · exact ⟨⟨hmap.ids, hmap.lt, hmap.peers, hmap.strands, hmap.single, hmap.silent, hmap.bidir,
        hmap.counts, hmap.references, hmap.callbacks⟩, h.added⟩
    · rw [List.countP_cons, ← hropes.counts br' hbr']
      split_ifs with hid hid' hid'
      · rfl
      · exact absurd (decide_eq_true (congrArg some hid.symm)) hid'
      · exact absurd (Option.some.inj (of_decide_eq_true hid')).symm hid
      · rfl
    · rcases List.mem_cons.mp hr with rfl | hr
      · exact ⟨br, hbr, Option.some.inj hid⟩
      · exact hropes.references r hr id hid
    · rcases List.mem_cons.mp hr with rfl | hr
      · obtain ⟨hb, -, -, br0, hbr0, hmem, -⟩ := hcallback hcb
        have hpeer := hs _ (hfirst hcb).2.2
        have hin : c ∈ br.strands := by
          obtain ⟨br1, hbr1, hmem1, -⟩ := hropes.bidir c hc hb hst
          have hpeer1 := (hropes.strands br1 hbr1 c hmem1).2.1
          rwa [hropes.eq_of_sendfrom hbr hbr1 (hpeer.trans hpeer1)]
        exact ⟨hc, hb, br, hbr, rfl, hpeer, fun s hs' =>
          eq_of_mem_of_length (hropes.single br hbr) hs' hin⟩
      · exact hropes.callbacks r hr hcb

lemma release (h : w.Inv) {r : Reference} (hr : r ∈ w.references) {id : ℕ} (hid : r.rope = some id) :
    Inv ({ w with references := w.references.erase r }.decrRefCount id) := by
  have hperm := List.perm_cons_erase hr
  have hcount : ∀ p : Reference → Bool, w.references.countP p =
      (w.references.erase r).countP p + if p r then 1 else 0 := by
    intro p
    rw [hperm.countP_eq, List.countP_cons]
  have hmild : RopesOk.Mild fun br : BiDirServerRope =>
      if br.id = id then { br with refcount := br.refcount - 1 } else br :=
    RopesOk.Mild.ite (f := fun br => { br with refcount := br.refcount - 1 })
      ⟨fun _ => rfl, fun _ => rfl, fun _ => rfl, fun _ => List.Subset.refl _⟩ id
  have hmap := h.ropes.map hmild (w.references.erase r) (fun br hbr => ?_)
    (fun r' hr' => h.ropes.references r' (List.mem_of_mem_erase hr'))
    (fun r' hr' => h.ropes.callbacks r' (List.mem_of_mem_erase hr'))
  · have hdrop := hmap.dropGarbage (List.filter_sublist (p := fun br =>
      !(decide (br.id = id) && br.isGarbage))) fun br hbr => by
        cases hg : decide (br.id = id) && br.isGarbage with
        | true => exact Or.inr (Bool.and_eq_true_iff.mp hg).2
        | false => exact Or.inl (List.mem_filter.mpr ⟨hbr, by rw [hg]; rfl⟩)
    exact ⟨⟨hdrop.ids, hdrop.lt, hdrop.peers, hdrop.strands, hdrop.single, hdrop.silent,
      hdrop.bidir, hdrop.counts, hdrop.references, hdrop.callbacks⟩, h.added⟩
  · have hbrc := h.ropes.counts br hbr
    rw [hcount] at hbrc
    split_ifs with hbrid
    · rw [if_pos (decide_eq_true (by rw [hid, hbrid]))] at hbrc
      dsimp only
      omega
    · rw [if_neg (by
        rw [decide_eq_true_eq, hid]
        exact fun heq => hbrid (Option.some.inj heq).symm)] at hbrc
      exact hbrc

lemma releaseOrdinary (h : w.Inv) {r : Reference} (hid : r.rope = none) :
    Inv { w with references := w.references.erase r } := by
  have hmem : ∀ r' ∈ w.references.erase r, r' ∈ w.references := fun _ => List.mem_of_mem_erase
  refine ⟨⟨h.ropes.ids, h.ropes.lt, h.ropes.peers, h.ropes.strands, h.ropes.single, h.ropes.silent,
    h.ropes.bidir, fun br hbr => ?_, fun r' hr' => h.ropes.references r' (hmem r' hr'),
    fun r' hr' => h.ropes.callbacks r' (hmem r' hr')⟩, h.added⟩
  rw [h.ropes.counts br hbr]
  by_cases hr : r ∈ w.references
  · rw [(List.perm_cons_erase hr).countP_eq, List.countP_cons_of_neg]
    rw [decide_eq_true_eq, hid]
    exact (Option.some_ne_none _).symm
  · rw [List.erase_of_not_mem hr]

lemma step (h : w.Inv) {e : Event} (hok : w.Ok par e) (hs : w.step par e = some w') : w'.Inv := by
  cases e with
  | openConnection peeraddress myaddress =>
    obtain rfl := Option.some.inj hs
    exact h.openConnection peeraddress myaddress
  | context c minor l =>
    rw [World.step] at hs
    split_ifs at hs with hc
    obtain rfl := Option.some.inj hs
    exact h.context hc.1 hc.2 hok
  | unMarshal c info acceptBiDirectional =>
    rw [World.step] at hs
    split_ifs at hs with hc
    obtain rfl := Option.some.inj hs
    exact h.unMarshal hc.1 hc.2 hok
  | release r =>
    rw [World.step] at hs
    split_ifs at hs with hr
    dsimp only at hs
    cases hid : r.rope with
    | none =>
      rw [hid] at hs
      obtain rfl := Option.some.inj hs
      exact h.releaseOrdinary hid
    | some id =>
      rw [hid] at hs
      obtain rfl := Option.some.inj hs
      exact h.release hr hid
  | die c =>
    rw [World.step] at hs
    split_ifs at hs with hc
    obtain rfl := Option.some.inj hs
    exact h.die hc.1 hc.2
  | delete c =>
    rw [World.step] at hs
    split_ifs at hs with hc
    obtain rfl := Option.some.inj hs
    exact h.delete c

end Inv

end World

/-- Where each step meets the condition, callbacks go to the client that asked for them. -/
theorem callbacks_kept (par : OrbParameters) {w : World}
    (h : ReachedBy (World.step par) (World.Ok par) World.start w) : w.Kept :=
  (h.invariant World.Inv.start fun _ _ _ hinv hok hstep => hinv.step hok hstep).kept

/-! ### Runs -/

/-- Every client may have its callbacks over its connection. -/
def acceptAll : OrbParameters where
  acceptBiDirectionalGIOP := true
  fromTcpAddress := fun host port => some (ascii "giop:tcp:" ++ host ++ ascii ":" ++ [port.toUInt8])
  fromSslAddress := fun _ _ => none
  serverRules := fun _ => some [ascii "tcp", ascii "bidir"]

/-- The client at a port, which listens on port 9. -/
def client (port : String) : Text := ascii "giop:tcp:10.0.0.1:" ++ ascii port

def listens : List (Text × ℕ) := [(ascii "10.0.0.1", 9)]

/-- A reference to an object of the client. -/
def callback : IORInfo := ⟨(1, 2), [ascii "giop:tcp:10.0.0.1:" ++ [9]], []⟩

/-- A client passes a callback reference, and goes. -/
def oneConnection : List Event :=
  [.openConnection (client "4711") (ascii "giop:tcp:10.0.0.9:80"), .context 0 2 listens,
    .unMarshal 0 callback true, .die 0]

theorem callbacks_kept_one_connection : ∃ w,
    execute (World.step acceptAll) World.start oneConnection = some w ∧
      w.references.map w.call = [.biDirConnIsGone] ∧ w.Kept := by
  have hok : AllOk (World.step acceptAll) (World.Ok acceptAll) World.start oneConnection := by
    refine ⟨trivial, fun w hw => ?_⟩
    cases hw
    refine ⟨fun _ br hbr => (by cases hbr), fun w hw => ?_⟩
    cases hw
    refine ⟨fun _ _ hs => (by cases hs), fun w hw => ?_⟩
    cases hw
    exact ⟨trivial, fun _ _ => trivial⟩
  exact ⟨_, rfl, rfl, callbacks_kept acceptAll (ReachedBy.start.execute hok rfl)⟩

/-- The client comes back from the same address while the server still has the old reference. -/
def twoConnections : List Event :=
  oneConnection ++ [.delete 0, .openConnection (client "4711") (ascii "giop:tcp:10.0.0.9:80"),
    .context 1 2 listens]

theorem strand_not_in_rope : ¬ ∀ w, ReachedBy (World.step acceptAll) (fun _ _ => True)
    World.start w → w.Kept := by
  intro hall
  have hstart : ReachedBy (World.step acceptAll) (fun _ _ => True) World.start World.start := .start
  have hrun := hstart.execute (AllOk.of_forall (fun _ _ => trivial) _ twoConnections) rfl
  have hadded := (hall _ hrun).added (1, []) (List.mem_cons_of_mem _ List.mem_cons_self)
  cases hadded

end OmniORB.BiDir
