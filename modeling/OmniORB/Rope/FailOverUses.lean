import OmniORB.Rope.AddressOrder
import OmniORB.Rope.FailOver

/-!
# The addresses that calls use

Each address is in one place, and what a strand or a descriptor uses is one that the rope has, as
long as no reset takes it away.
-/

namespace OmniORB.FailOver

open Library

variable {par : OrbParameters}

namespace World

variable {w w' : World} {c k : ℕ} {x : Call} {a : GiopAddress}

/-! ### The addresses -/

/-- The addresses that the rope has. -/
def known (w : World) : List GiopAddress := w.rope.addresses ++ w.rope.dead

/-- Each address is in one place, and no new one is the same. -/
structure AddressesOk (par : OrbParameters) (w : World) : Prop where
  rope : w.rope.Ok par
  nodup : (w.known ++ (w.resolved ++ w.freed)).Nodup
  objects : ∀ a ∈ w.known ++ (w.resolved ++ w.freed), a.object < w.nextObject
  resolved : w.rope.filtering = false → w.resolved = []

namespace AddressesOk

lemma start (par : OrbParameters) (l : List GiopAddress) (z : Bool) :
    AddressesOk par (World.start l z) where
  rope := ⟨rfl, Or.inl rfl, fun _ => rfl⟩
  nodup := by
    change (duplicates l ++ [] ++ []).Nodup
    rw [List.append_nil, List.append_nil, List.nodup_iff_injective_getElem]
    intro i j hij
    have hobj := congrArg GiopAddress.object hij
    simp only [duplicates, List.getElem_mapIdx] at hobj
    exact Fin.ext hobj
  objects := by
    change ∀ a ∈ duplicates l ++ [] ++ [], a.object < l.length
    rw [List.append_nil, List.append_nil]
    intro a ha
    obtain ⟨i, hi, rfl⟩ := List.mem_mapIdx.mp ha
    exact hi
  resolved _ := rfl

lemma not_mem_freed (h : w.AddressesOk par) (ha : a ∈ w.known) : a ∉ w.freed := fun hf =>
  (List.disjoint_of_nodup_append h.nodup) ha (List.mem_append_right _ hf)

/-- Where the same addresses are in other places. -/
lemma of_perm (h : w.AddressesOk par) (hrope : w'.rope.Ok par)
    (hperm : (w'.known ++ (w'.resolved ++ w'.freed)).Perm (w.known ++ (w.resolved ++ w.freed)))
    (hnext : w'.nextObject = w.nextObject)
    (hres : w'.rope.filtering = false → w'.resolved = []) : w'.AddressesOk par where
  rope := hrope
  nodup := hperm.nodup_iff.mpr h.nodup
  objects := by
    intro a ha
    rw [hnext]
    exact h.objects a (hperm.mem_iff.mp ha)
  resolved := hres

lemma resetAddressOrder (h : w.AddressesOk par) (j : Option ℕ) :
    (w.resetAddressOrder par j).AddressesOk par := by
  refine h.of_perm (h.rope.resetAddressOrder _) ?_ rfl ?_
  · have hperm := Rope.resetAddressOrder_perm par w.rope (w.held j)
    change (_ ++ _ ++ (w.resolved ++ (w.freed ++ w.deletes par j))).Perm _
    have hmove : (w.resolved ++ (w.freed ++ w.deletes par j)).Perm
        (w.deletes par j ++ (w.resolved ++ w.freed)) := by
      rw [← List.append_assoc]
      exact List.perm_append_comm
    refine (hmove.append_left _).trans ?_
    rw [← List.append_assoc]
    exact hperm.append_right _
  · intro hf
    refine h.resolved ?_
    rwa [← Rope.resetAddressOrder_filtering par w.rope (w.held j)]

lemma report (h : w.AddressesOk par) {u : ℕ} (hu : w.rope.ordered[u]? = some a) :
    AddressesOk par { w with rope := { w.rope with inUse := u } } :=
  h.of_perm (h.rope.with_inUse hu) (List.Perm.refl _) rfl h.resolved

lemma setCall (h : w.AddressesOk par) (c : ℕ) (x : Call) : (w.setCall c x).AddressesOk par :=
  ⟨h.rope, h.nodup, h.objects, h.resolved⟩

lemma startFiltering (h : w.AddressesOk par) (hf : w.rope.filtered = false)
    (hn : w.rope.filtering = false) (todo : List GiopAddress) :
    AddressesOk par { w with
      rope := { w.rope with filtering := true }, todo := todo, resolved := [] } := by
  refine h.of_perm ⟨h.rope.order, h.rope.index, fun _ => hf⟩ ?_ rfl fun _ => rfl
  rw [h.resolved hn]
  exact List.Perm.refl _

lemma addAnswers (h : w.AddressesOk par) (hn : w.rope.filtering = true) (a : GiopAddress)
    (rest : List GiopAddress) (answers : List Text) :
    (w.addAnswers par a rest answers).AddressesOk par := by
  let new := answers.mapIdx fun i => a.duplicate par (w.nextObject + i)
  have hnew : ∀ b ∈ new, w.nextObject ≤ b.object ∧ b.object < w.nextObject + answers.length := by
    intro b hb
    obtain ⟨i, hi, rfl⟩ := List.mem_mapIdx.mp hb
    exact ⟨Nat.le_add_right _ _, Nat.add_lt_add_left hi _⟩
  have hnodup : new.Nodup := by
    rw [List.nodup_iff_injective_getElem]
    intro i j hij
    have hobj := congrArg GiopAddress.object hij
    simp only [new, List.getElem_mapIdx, GiopAddress.duplicate] at hobj
    exact Fin.ext (Nat.add_left_cancel hobj)
  have hperm : (w.known ++ ((w.resolved ++ new) ++ w.freed)).Perm
      (new ++ (w.known ++ (w.resolved ++ w.freed))) := by
    refine (List.Perm.append_left _ (List.perm_append_comm.append_right _)).trans ?_
    rw [List.append_assoc, ← List.append_assoc, ← List.append_assoc new]
    exact List.perm_append_comm.append_right _
  refine ⟨h.rope, hperm.nodup_iff.mpr ?_, fun b hb => ?_, fun hf => ?_⟩
  · refine List.nodup_append.mpr ⟨hnodup, h.nodup, ?_⟩
    rintro b hb b' hb' rfl
    exact absurd (h.objects b hb') (not_lt.mpr (hnew b hb).1)
  · change b.object < w.nextObject + answers.length
    rcases List.mem_append.mp (hperm.mem_iff.mp hb) with hb | hb
    · exact (hnew b hb).2
    · exact (h.objects b hb).trans_le (Nat.le_add_right _ _)
  · rw [show w.rope.filtering = false from hf] at hn
    cases hn

lemma sortIfResolved (h : w.AddressesOk par) (hn : w.rope.filtering = true) (c : ℕ) :
    (w.sortIfResolved par c).AddressesOk par := by
  rw [World.sortIfResolved]
  split
  · let w1 : World :=
      { w with rope := w.rope.filterAndSortAddressList par w.resolved, resolved := [] }
    have h1 : w1.AddressesOk par := by
      refine h.of_perm (h.rope.filterAndSortAddressList (h.rope.filtering hn) _) ?_ rfl fun _ => rfl
      change (w.rope.addresses ++ w.resolved ++ w.rope.dead ++ ([] ++ w.freed)).Perm
        (w.rope.addresses ++ w.rope.dead ++ (w.resolved ++ w.freed))
      rw [List.nil_append, ← List.append_assoc]
      refine List.Perm.append_right _ ?_
      rw [List.append_assoc, List.append_assoc]
      exact List.perm_append_comm.append_left _
    exact h1.setCall _ _
  · exact h

end AddressesOk

/-! ### Who uses them -/

/-- Who filters, who has which strand, and that what they use is there. -/
structure UsesOk (w : World) : Prop where
  filters : ∀ c, (w.call c).phase = .filtering →
    w.rope.filtering = true ∧ ∀ c', (w.call c').phase = .filtering → c' = c
  calls : ∀ c a, (w.call c).Holds a → a ∈ w.known
  strands : ∀ k ∈ w.strands, (w.strand k).address ∈ w.known ∨ w.IsSpent k
  users : ∀ c k, (w.call c).phase.strand = some k → k ∈ w.strands
  invoked : ∀ c, (w.call c).phase ≠ .done → c ∈ w.invoked
  nodup : w.strands.Nodup
  lt : ∀ k ∈ w.strands, k < w.nextStrand

lemma HasFailed.strand (h : w.HasFailed c k) : (w.call c).phase.strand = some k := by
  obtain ⟨retry, hp⟩ := h
  rw [hp]
  rfl

@[simp] lemma call_setCall_self (w : World) (c : ℕ) (x : Call) : (w.setCall c x).call c = x :=
  Function.update_self ..

lemma call_setCall_of_ne (w : World) (x : Call) {c c' : ℕ} (h : c' ≠ c) :
    (w.setCall c x).call c' = w.call c' := Function.update_of_ne h ..

/-- The call may become `x`: it has a strand only if it had it or takes it rightly. -/
structure May (w : World) (c : ℕ) (x : Call) : Prop where
  filtering : x.phase = .filtering →
    w.rope.filtering = true ∧ ∀ c', (w.call c').phase = .filtering → c' = c
  holds : ∀ a, x.Holds a → a ∈ w.known
  strand : ∀ k, x.phase.strand = some k →
    k ∈ w.strands ∧ ((w.strand k).address ∈ w.known ∨ ∃ retry, x.phase = .failed k retry)
  failed : ∀ k, w.HasFailed c k → (∃ retry, x.phase = .failed k retry) ∨ (w.strand k).dying = true
  invoked : x.phase ≠ .done → c ∈ w.invoked

namespace UsesOk

lemma start (l : List GiopAddress) (z : Bool) : UsesOk (World.start l z) where
  filters _ h := by cases h
  calls _ _ h := by rcases h with h | h <;> cases h
  strands _ h := by cases h
  users _ _ h := by cases h
  invoked _ h := absurd rfl h
  nodup := List.nodup_nil
  lt _ h := by cases h

/-- The address of a strand is there as long as a call has yet to fail on it. -/
lemma address_known (h : w.UsesOk) (hk : (w.call c).phase.strand = some k)
    (hf : ¬ w.HasFailed c k) : (w.strand k).address ∈ w.known := by
  rcases h.strands k (h.users c k hk) with hknown | hspent
  · exact hknown
  · exact absurd (hspent.2 c hk) hf

lemma setCall (h : w.UsesOk) (hx : w.May c x) : (w.setCall c x).UsesOk where
  filters := by
    intro d hd
    rcases eq_or_ne d c with rfl | hne
    · rw [call_setCall_self] at hd
      obtain ⟨hf, hu⟩ := hx.filtering hd
      refine ⟨hf, fun e he => ?_⟩
      rcases eq_or_ne e d with rfl | hed
      · rfl
      · rw [call_setCall_of_ne w x hed] at he
        exact hu e he
    · rw [call_setCall_of_ne w x hne] at hd
      obtain ⟨hf, hu⟩ := h.filters d hd
      refine ⟨hf, fun e he => ?_⟩
      rcases eq_or_ne e c with rfl | hec
      · rw [call_setCall_self] at he
        exact absurd ((hx.filtering he).2 d hd) hne
      · rw [call_setCall_of_ne w x hec] at he
        exact hu e he
  calls := by
    intro c' a ha
    rcases eq_or_ne c' c with rfl | hne
    · rw [call_setCall_self] at ha
      exact hx.holds a ha
    · rw [call_setCall_of_ne w x hne] at ha
      exact h.calls c' a ha
  strands := by
    intro k hk
    rcases h.strands k hk with hknown | ⟨hdone, hall⟩
    · exact Or.inl hknown
    · by_cases hx' : x.phase.strand = some k ∧ ¬ ∃ retry, x.phase = .failed k retry
      · rcases (hx.strand k hx'.1).2 with hknown | hfailed
        · exact Or.inl hknown
        · exact absurd hfailed hx'.2
      refine Or.inr ⟨?_, fun c' hc' => ?_⟩
      · rcases hdone with hdying | ⟨c', hc'⟩
        · exact Or.inl hdying
        · rcases eq_or_ne c' c with rfl | hne
          · rcases hx.failed k hc' with ⟨retry, hp⟩ | hdying
            · refine Or.inr ⟨c', retry, ?_⟩
              rw [call_setCall_self, hp]
            · exact Or.inl hdying
          · obtain ⟨retry, hp⟩ := hc'
            refine Or.inr ⟨c', retry, ?_⟩
            rw [call_setCall_of_ne w x hne, hp]
      · rcases eq_or_ne c' c with rfl | hne
        · rw [call_setCall_self] at hc'
          rw [HasFailed, call_setCall_self]
          by_contra hn
          exact hx' ⟨hc', hn⟩
        · rw [call_setCall_of_ne w x hne] at hc'
          rw [HasFailed, call_setCall_of_ne w x hne]
          exact hall c' hc'
  users := by
    intro c' k hk
    rcases eq_or_ne c' c with rfl | hne
    · rw [call_setCall_self] at hk
      exact (hx.strand k hk).1
    · rw [call_setCall_of_ne w x hne] at hk
      exact h.users c' k hk
  invoked := by
    intro c' hp
    rcases eq_or_ne c' c with rfl | hne
    · rw [call_setCall_self] at hp
      exact hx.invoked hp
    · rw [call_setCall_of_ne w x hne] at hp
      exact h.invoked c' hp
  nodup := h.nodup
  lt := h.lt

/-- Where the rope has more addresses than it had, with the same strands and calls. -/
lemma of_known (h : w.UsesOk) (hsub : w.known ⊆ w'.known)
    (hf : ∀ c, (w.call c).phase = .filtering → w'.rope.filtering = true) (hcall : w'.call = w.call)
    (hstrands : w'.strands = w.strands) (hstrand : w'.strand = w.strand)
    (hinvoked : w.invoked ⊆ w'.invoked) (hnext : w'.nextStrand = w.nextStrand) : w'.UsesOk where
  filters := by
    rw [hcall]
    exact fun c hc => ⟨hf c hc, (h.filters c hc).2⟩
  calls := by
    rw [hcall]
    exact fun c a ha => hsub (h.calls c a ha)
  strands := by
    unfold IsSpent HasFailed
    rw [hcall, hstrands, hstrand]
    exact fun k hk => (h.strands k hk).imp (fun hknown => hsub hknown) id
  users := by
    rw [hcall, hstrands]
    exact h.users
  invoked := by
    rw [hcall]
    exact fun c hc => hinvoked (h.invoked c hc)
  nodup := hstrands ▸ h.nodup
  lt := by
    rw [hstrands, hnext]
    exact h.lt

lemma resetAddressOrder (h : w.UsesOk) {j : Option ℕ}
    (hheld : ∀ a ∈ w.deletes par j, ∀ c, ¬ (w.call c).Holds a)
    (hspent : ∀ k, j = some k → (w.strand k).address ∈ w.deletes par j → w.IsSpent k) :
    (w.resetAddressOrder par j).UsesOk where
  filters := by
    intro c hc
    obtain ⟨hfilt, hu⟩ := h.filters c hc
    exact ⟨(Rope.resetAddressOrder_filtering ..).trans hfilt, hu⟩
  calls c a ha := Rope.mem_resetAddressOrder (h.calls c a ha) fun hdel => hheld a hdel c ha
  strands := by
    intro k hk
    rcases h.strands k hk with hknown | hsp
    · by_cases hdel : (w.strand k).address ∈ w.deletes par j
      · by_cases hj : j = some k
        · exact Or.inr (hspent k hj hdel)
        · refine absurd hdel (Rope.not_mem_of_held (List.mem_map.mpr ⟨k, ?_, rfl⟩))
          exact List.mem_filter.mpr ⟨hk, decide_eq_true (Ne.symm hj)⟩
      · exact Or.inl (Rope.mem_resetAddressOrder hknown hdel)
    · exact Or.inr hsp
  users := h.users
  invoked := h.invoked
  nodup := h.nodup
  lt := h.lt

lemma setStrand (h : w.UsesOk) {s : GiopStrand} (ha : s.address = (w.strand k).address)
    (hd : (w.strand k).dying = true → s.dying = true) : (w.setStrand k s).UsesOk where
  filters := h.filters
  calls := h.calls
  strands := by
    intro j hj
    rcases eq_or_ne j k with rfl | hne
    · have hself : (w.setStrand j s).strand j = s := Function.update_self ..
      rcases h.strands j hj with hknown | ⟨hdone, hall⟩
      · rw [hself, ha]
        exact Or.inl hknown
      · refine Or.inr ⟨?_, hall⟩
        rw [hself]
        exact hdone.imp hd id
    · have hother : (w.setStrand k s).strand j = w.strand j := Function.update_of_ne hne ..
      rcases h.strands j hj with hknown | ⟨hdone, hall⟩
      · rw [hother]
        exact Or.inl hknown
      · refine Or.inr ⟨?_, hall⟩
        rw [hother]
        exact hdone
  users := h.users
  invoked := h.invoked
  nodup := h.nodup
  lt := h.lt

lemma erase (h : w.UsesOk) (hk : ∀ c, (w.call c).phase.strand ≠ some k) :
    UsesOk { w with strands := w.strands.erase k } where
  filters := h.filters
  calls := h.calls
  strands j hj := h.strands j (List.mem_of_mem_erase hj)
  users := by
    intro c j hj
    refine (List.mem_erase_of_ne ?_).mpr (h.users c j hj)
    rintro rfl
    exact hk c hj
  invoked := h.invoked
  nodup := h.nodup.erase k
  lt j hj := h.lt j (List.mem_of_mem_erase hj)

lemma releaseClient (h : w.UsesOk) (hx : w.May c x) (hs : x.phase.strand = none) :
    (w.releaseClient c k x).UsesOk := by
  rw [World.releaseClient]
  have hset := h.setCall hx
  split_ifs with hcond
  · refine hset.erase fun c' hc' => ?_
    have hshared : w.isShared c k = false := by
      rw [Bool.and_eq_true, Bool.not_eq_true'] at hcond
      exact hcond.2
    rcases eq_or_ne c' c with rfl | hne
    · rw [call_setCall_self, hs] at hc'
      cases hc'
    · rw [call_setCall_of_ne w x hne] at hc'
      refine absurd ?_ (Bool.eq_false_iff.mp hshared)
      refine List.any_eq_true.mpr ⟨c', h.invoked c' ?_, ?_⟩
      · intro hdone
        rw [hdone] at hc'
        cases hc'
      · rw [Bool.and_eq_true]
        exact ⟨decide_eq_true hne, decide_eq_true hc'⟩
  · exact hset

end UsesOk

end World

end OmniORB.FailOver
