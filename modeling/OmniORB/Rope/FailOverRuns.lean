import OmniORB.Rope.FailOverUses

/-!
# Runs of calls that fail over

A call that runs alone goes through the order of the addresses once. With what is used, that gives
the invariant of every run whose steps meet the condition.
-/

namespace OmniORB.FailOver

open Library

variable {par : OrbParameters}

/-! ### The tries of a call -/

section Tries

variable {r : Rope} {x : Call} {a : GiopAddress}

/-- The call has not yet tried an address. -/
def Fresh (x : Call) : Prop := x.tried = [] ∧ x.firstAddressUsed = none

/-- The call has tried `m` addresses from the one at `j` on, and the next is in use. -/
structure Passed (r : Rope) (tried : List GiopAddress) (j m : ℕ) : Prop where
  start : j < r.ordered.length
  count : m < r.ordered.length
  inUse : r.inUse = (j + m) % r.ordered.length
  tried_eq : tried = (r.ordered.rotate j).take m

/-- The descriptor has the first address, and the one in use. -/
def Described (r : Rope) (x : Call) (j : ℕ) : Prop :=
  x.firstAddressUsed = r.ordered[j]? ∧ x.currentAddress = r.ordered[r.inUse]?

/-- Some addresses have been tried, but not all. -/
def Between (r : Rope) (x : Call) : Prop :=
  r.filtered = true ∧ ∃ j m, 0 < m ∧ Passed r x.tried j m ∧ Described r x j

/-- The address in use is tried after `m` others. -/
structure Trying (r : Rope) (tried : List GiopAddress) (j m : ℕ) : Prop where
  start : j < r.ordered.length
  count : m < r.ordered.length
  inUse : r.inUse = (j + m) % r.ordered.length
  tried_eq : tried = (r.ordered.rotate j).take (m + 1)

lemma rotate_take_succ {l : List GiopAddress} {j m : ℕ} (hm : m < l.length)
    (ha : l[(j + m) % l.length]? = some a) : (l.rotate j).take (m + 1) = (l.rotate j).take m ++ [a] := by
  have hlen : m < (l.rotate j).length := by rwa [List.length_rotate]
  rw [List.take_add_one, List.getElem?_eq_getElem hlen, List.getElem_rotate]
  rw [add_comm j m, List.getElem?_eq_getElem (Nat.mod_lt _ (by omega))] at ha
  rw [Option.some.inj ha]
  rfl

lemma Passed.try_next {tried : List GiopAddress} {j m : ℕ} (h : Passed r tried j m)
    (ha : r.ordered[r.inUse]? = some a) : Trying r (tried ++ [a]) j m := by
  refine ⟨h.start, h.count, h.inUse, ?_⟩
  rw [h.inUse] at ha
  rw [h.tried_eq, rotate_take_succ h.count ha]

lemma Fresh.passed (h : Fresh x) (hlt : r.inUse < r.ordered.length) : Passed r x.tried r.inUse 0 where
  start := hlt
  count := by omega
  inUse := by rw [Nat.add_zero, Nat.mod_eq_of_lt hlt]
  tried_eq := h.1

/-- After a failure the next address is in use, which is the first one if all have been tried. -/
lemma Trying.next {tried : List GiopAddress} {j m u : ℕ} (h : Trying r tried j m)
    (hu : u = (r.inUse + 1) % r.ordered.length)
    (hnodup : r.ordered.Nodup) :
    (r.ordered[u]? = r.ordered[j]? ∧ tried.Perm r.ordered) ∨
      (r.ordered[u]? ≠ r.ordered[j]? ∧ Passed { r with inUse := u } tried j (m + 1)) := by
  have hpos := h.start.pos
  have hu' : u = (j + (m + 1)) % r.ordered.length := by
    rw [hu, h.inUse, Nat.mod_add_mod, Nat.add_assoc]
  rcases Nat.lt_or_ge (m + 1) r.ordered.length with hlt | hge
  · refine Or.inr ⟨fun heq => ?_, h.start, hlt, hu', h.tried_eq⟩
    have hult : u < r.ordered.length := hu ▸ Nat.mod_lt _ hpos
    have huj : u = j := (List.getElem?_inj hult hnodup).mp heq
    rcases Nat.lt_or_ge (j + (m + 1)) r.ordered.length with hsum | hsum
    · rw [Nat.mod_eq_of_lt hsum] at hu'
      omega
    · rw [Nat.mod_eq_sub_mod hsum, Nat.mod_eq_of_lt (by have := h.start; omega)] at hu'
      omega
  · have hm : m + 1 = r.ordered.length := le_antisymm h.count hge
    refine Or.inl ⟨?_, ?_⟩
    · rw [hu', hm, Nat.add_mod_right, Nat.mod_eq_of_lt h.start]
    · rw [h.tried_eq, hm, ← List.length_rotate r.ordered j, List.take_length]
      exact List.rotate_perm r.ordered j

end Tries

namespace World

variable {w w' : World} {c k : ℕ} {x : Call} {a : GiopAddress}

/-- No strand but one can be taken. -/
def Quiet (w : World) (k : Option ℕ) : Prop :=
  ∀ j ∈ w.strands, some j ≠ k → (w.strand j).dying = true

/-- How far a call is that has been alone. -/
def AloneAt (w : World) (x : Call) : Phase → Prop
  | .done => True
  | .out => w.Quiet none ∧ (Fresh x ∨ Between w.rope x)
  | .filtering => w.Quiet none ∧ Fresh x
  | .choosing => w.Quiet none ∧ w.rope.filtered = true ∧ (Fresh x ∨ Between w.rope x)
  | .running k => w.Quiet (some k) ∧ w.rope.filtered = true ∧
    (w.strand k).firstUse = true ∧ (w.strand k).orderlyClosed = false ∧
    w.rope.ordered[w.rope.inUse]? = some (w.strand k).address ∧
    ∃ j m, Trying w.rope x.tried j m ∧ (m = 0 ∧ x.firstAddressUsed = none ∨ Described w.rope x j)
  | .reporting k => w.Quiet (some k) ∧ w.rope.filtered = true ∧
    ∃ j m, Trying w.rope x.tried j m ∧ Described w.rope x j
  | .resetting k retry => w.Quiet (some k) ∧ retry = false
  | .failed k retry => w.Quiet (some k) ∧ (retry = true → Between w.rope x)

/-- A call is the only one. -/
def Alone (w : World) (c : ℕ) : Prop :=
  (∀ c' ≠ c, (w.call c').phase = .done) ∧ w.AloneAt (w.call c) (w.call c).phase

/-- A step of one call, if it has been alone. -/
lemma solo_step (h : ∀ c', w.solo = some c' → w.Alone c') (hc : (w.call c).phase ≠ .done)
    (hsolo : w'.solo = w.solo) (hothers : ∀ c' ≠ c, w'.call c' = w.call c')
    (hat : w.AloneAt (w.call c) (w.call c).phase → w'.AloneAt (w'.call c) (w'.call c).phase) :
    ∀ c', w'.solo = some c' → w'.Alone c' := by
  intro c' hc'
  rw [hsolo] at hc'
  obtain ⟨hdone, hthere⟩ := h c' hc'
  obtain rfl : c' = c := by
    by_contra hne
    exact hc (hdone c (Ne.symm hne))
  refine ⟨fun d hd => ?_, hat hthere⟩
  rw [hothers d hd]
  exact hdone d hd

/-- The invariant of a run. -/
structure Inv (par : OrbParameters) (w : World) : Prop where
  addresses : w.AddressesOk par
  uses : w.UsesOk
  stray : w.stray = false
  exhausted : ∀ e ∈ w.exhausted, e.1.Perm e.2
  solo : ∀ c, w.solo = some c → w.Alone c

namespace Inv

lemma start (par : OrbParameters) (l : List GiopAddress) (z : Bool) : Inv par (World.start l z) where
  addresses := .start par l z
  uses := .start l z
  stray := rfl
  exhausted _ h := by cases h
  solo _ h := by cases h

lemma nodup_ordered (h : w.Inv par) : w.rope.ordered.Nodup := by
  by_cases hf : w.rope.filtered = true
  · refine (h.addresses.rope.ordered_perm hf).nodup_iff.mpr (List.Nodup.filter _ ?_)
    exact (List.nodup_append.mp (List.nodup_append.mp h.addresses.nodup).1).1
  · have horder := h.addresses.rope.order
    rw [if_neg hf] at horder
    rw [Rope.ordered, horder]
    exact List.nodup_nil

/-! ### One lemma for each step -/

lemma invoke (h : w.Inv par) (hc : (w.call c).phase = .done) :
    Inv par ({ w with
      invoked := c :: w.invoked
      solo := if w.isQuiet then some c else none }.setCall c ⟨.out, none, none, []⟩) := by
  let w1 : World := { w with invoked := c :: w.invoked, solo := if w.isQuiet then some c else none }
  have huses : w1.UsesOk := h.uses.of_known (List.Subset.refl _)
    (fun c' hc' => (h.uses.filters c' hc').1) rfl rfl rfl (List.subset_cons_self _ _) rfl
  have hmay : w1.May c ⟨.out, none, none, []⟩ := by
    refine ⟨fun hp => (by cases hp), fun a ha => ?_, fun k hk => (by cases hk), fun k hk => ?_,
      fun _ => List.mem_cons_self⟩
    · rcases ha with ha | ha <;> cases ha
    · obtain ⟨retry, hp⟩ := hk
      rw [show (w1.call c).phase = .done from hc] at hp
      cases hp
  refine ⟨⟨h.addresses.rope, h.addresses.nodup, h.addresses.objects, h.addresses.resolved⟩,
    huses.setCall hmay, h.stray, h.exhausted, fun c' hc' => ?_⟩
  change (if w.isQuiet then some c else none) = some c' at hc'
  split_ifs at hc' with hquiet
  obtain rfl := Option.some.inj hc'
  obtain ⟨hstrands, hcalls⟩ := Bool.and_eq_true_iff.mp hquiet
  refine ⟨fun d hd => ?_, ?_⟩
  · rw [call_setCall_of_ne _ _ hd]
    by_contra hne
    exact hne (of_decide_eq_true (List.all_eq_true.mp hcalls d (h.uses.invoked d hne)))
  · rw [call_setCall_self]
    exact ⟨fun j hj _ => List.all_eq_true.mp hstrands j hj, Or.inl ⟨rfl, rfl⟩⟩

lemma May.keep (h : w.UsesOk) (hc : (w.call c).phase ≠ .done) (hnf : ∀ k, ¬ w.HasFailed c k)
    (hf : x.phase ≠ .filtering) (hh : ∀ a, x.Holds a → a ∈ w.known)
    (hs : x.phase.strand = none ∨ x.phase.strand = (w.call c).phase.strand) : w.May c x where
  filtering hp := absurd hp hf
  holds := hh
  strand := by
    intro k hk
    have hk' : (w.call c).phase.strand = some k := by
      rcases hs with hs | hs
      · rw [hs] at hk
        cases hk
      · rw [← hs, hk]
    exact ⟨h.users c k hk', Or.inl (h.address_known hk' (hnf k))⟩
  failed k hk := absurd hk (hnf k)
  invoked _ := h.invoked c hc

lemma not_holds_ended : ¬ Call.ended.Holds a := by
  rintro (h | h) <;> cases h

lemma not_hasFailed {p : Phase} (hp : (w.call c).phase = p) (hne : ∀ k retry, p ≠ .failed k retry)
    (k : ℕ) : ¬ w.HasFailed c k := by
  rintro ⟨retry, hfail⟩
  exact hne k retry (hp.symm.trans hfail)

lemma sortIfResolved (h : w.Inv par) (hc : (w.call c).phase = .filtering) :
    (w.sortIfResolved par c).Inv par := by
  obtain ⟨hn, hunique⟩ := h.uses.filters c hc
  have haddresses := h.addresses.sortIfResolved hn c
  have hne : (w.call c).phase ≠ .done := by
    rw [hc]
    exact Phase.noConfusion
  rw [World.sortIfResolved] at haddresses ⊢
  split at haddresses
  · have hmay : w.May c { w.call c with phase := .choosing } :=
      May.keep h.uses hne (not_hasFailed hc fun _ _ => Phase.noConfusion) Phase.noConfusion
        (h.uses.calls c) (Or.inl rfl)
    refine ⟨haddresses, ?_, h.stray, h.exhausted, ?_⟩
    · refine (h.uses.setCall hmay).of_known ?_ (fun c' hc' => ?_) rfl rfl rfl (List.Subset.refl _) rfl
      · intro a ha
        rcases List.mem_append.mp ha with ha | ha
        · exact List.mem_append_left _ (List.mem_append_left _ ha)
        · exact List.mem_append_right _ ha
      · rcases eq_or_ne c' c with rfl | hd
        · rw [call_setCall_self] at hc'
          cases hc'
        · rw [call_setCall_of_ne _ _ hd] at hc'
          exact absurd (hunique c' hc') hd
    · refine solo_step h.solo hne rfl (fun c' hd => call_setCall_of_ne _ _ hd) fun hat => ?_
      rw [hc] at hat
      rw [setPhase, call_setCall_self]
      exact ⟨hat.1, rfl, Or.inl hat.2⟩
  · exact h

lemma acquire (h : w.Inv par) (hc : (w.call c).phase = .out)
    (hs : w.step par (.acquire c) = some w') : w'.Inv par := by
  have hne : (w.call c).phase ≠ .done := by
    rw [hc]
    exact Phase.noConfusion
  have hmay : ∀ p, p ≠ .filtering → p.strand = none → w.May c { w.call c with phase := p } :=
    fun p hp hstrand => May.keep h.uses hne (not_hasFailed hc fun _ _ => Phase.noConfusion) hp
      (h.uses.calls c) (Or.inl hstrand)
  rw [World.step, if_pos hc] at hs
  split_ifs at hs with hf hn
  · obtain rfl := Option.some.inj hs
    refine ⟨h.addresses.setCall _ _, h.uses.setCall (hmay .choosing Phase.noConfusion rfl), h.stray,
      h.exhausted, ?_⟩
    refine solo_step h.solo hne rfl (fun c' hd => call_setCall_of_ne _ _ hd) fun hat => ?_
    rw [hc] at hat
    rw [setPhase, call_setCall_self]
    exact ⟨hat.1, hf, hat.2⟩
  · obtain rfl := Option.some.inj hs
    rw [Bool.not_eq_true] at hf hn
    refine sortIfResolved ⟨(h.addresses.startFiltering hf hn _).setCall _ _, ?_, h.stray, h.exhausted,
      ?_⟩ (by rw [setPhase, call_setCall_self])
    · have hnone : ∀ c', (w.call c').phase ≠ .filtering := by
        intro c' hc'
        rw [(h.uses.filters c' hc').1] at hn
        cases hn
      let w1 : World :=
        { w with rope := { w.rope with filtering := true }, todo := w.rope.names par, resolved := [] }
      have h1 : w1.UsesOk := h.uses.of_known (List.Subset.refl _) (fun _ _ => rfl) rfl rfl rfl
        (List.Subset.refl _) rfl
      exact h1.setCall ⟨fun _ => ⟨rfl, fun c' hc' => absurd hc' (hnone c')⟩, h.uses.calls c,
        fun k hk => (by cases hk),
        fun k hk => absurd hk (not_hasFailed hc (fun _ _ => Phase.noConfusion) k),
        fun _ => h.uses.invoked c hne⟩
    · refine solo_step h.solo hne rfl (fun c' hd => call_setCall_of_ne _ _ hd) fun hat => ?_
      rw [hc] at hat
      rw [setPhase, call_setCall_self]
      refine ⟨hat.1, hat.2.resolve_right fun hbetween => ?_⟩
      exact absurd hbetween.1 (Bool.eq_false_iff.mp hf)

lemma setCall (h : w.Inv par) (hne : (w.call c).phase ≠ .done) (hx : w.May c x)
    (hat : w.AloneAt (w.call c) (w.call c).phase → (w.setCall c x).AloneAt x x.phase) :
    (w.setCall c x).Inv par := by
  refine ⟨h.addresses.setCall c x, h.uses.setCall hx, h.stray, h.exhausted, ?_⟩
  refine solo_step h.solo hne rfl (fun c' hd => call_setCall_of_ne _ _ hd) ?_
  rwa [call_setCall_self]

lemma resolve (h : w.Inv par) {answers : List Text}
    (hs : w.step par (.resolve c answers) = some w') : w'.Inv par := by
  rw [World.step] at hs
  split_ifs at hs with hc
  split at hs
  · cases hs
  · rename_i a rest _
    obtain rfl := Option.some.inj hs
    have huses : (w.addAnswers par a rest answers).UsesOk := h.uses.of_known (List.Subset.refl _)
      (fun c' hc' => (h.uses.filters c' hc').1) rfl rfl rfl (List.Subset.refl _) rfl
    exact sortIfResolved ⟨h.addresses.addAnswers (h.uses.filters c hc).1 _ _ _, huses, h.stray,
      h.exhausted, h.solo⟩ hc

lemma take (h : w.Inv par) (hc : (w.call c).phase = .choosing) (hk : k ∈ w.strands)
    (hlive : (w.strand k).dying = false)
    (hok : (∃ c, w.HasFailed c k) → (w.strand k).address ∈ w.known) :
    (w.setPhase c (.running k)).Inv par := by
  have hknown : (w.strand k).address ∈ w.known := by
    rcases h.uses.strands k hk with hknown | ⟨hdying | hfailed, -⟩
    · exact hknown
    · rw [hlive] at hdying
      cases hdying
    · exact hok hfailed
  have hne : (w.call c).phase ≠ .done := by
    rw [hc]
    exact Phase.noConfusion
  refine h.setCall hne ⟨fun hp => (by cases hp), h.uses.calls c, ?_, fun j hj => ?_,
    fun _ => h.uses.invoked c hne⟩ fun hat => ?_
  · intro j hj
    obtain rfl := Option.some.inj hj
    exact ⟨hk, Or.inl hknown⟩
  · exact absurd hj (not_hasFailed hc (fun _ _ => Phase.noConfusion) j)
  · rw [hc] at hat
    have hdying := hat.1 k hk (Option.some_ne_none k)
    rw [hlive] at hdying
    cases hdying

lemma abandon (h : w.Inv par) (hc : (w.call c).phase = .out ∨ (w.call c).phase = .choosing) :
    (w.setCall c .ended).Inv par := by
  have hne : (w.call c).phase ≠ .done := by
    rcases hc with hc | hc <;> rw [hc] <;> exact Phase.noConfusion
  have hnf : ∀ j, ¬ w.HasFailed c j := by
    rcases hc with hc | hc
    · exact not_hasFailed hc fun _ _ => Phase.noConfusion
    · exact not_hasFailed hc fun _ _ => Phase.noConfusion
  exact h.setCall hne (May.keep h.uses hne hnf Phase.noConfusion
    (fun a ha => absurd ha not_holds_ended) (Or.inl rfl)) fun _ => trivial

lemma fail (h : w.Inv par) (hc : (w.call c).phase = .running k) : (w.fail par c k).Inv par := by
  have hne : (w.call c).phase ≠ .done := by
    rw [hc]
    exact Phase.noConfusion
  have hnf := not_hasFailed hc fun _ _ => Phase.noConfusion
  have hstrand : (w.call c).phase.strand = some k := by
    rw [hc]
    rfl
  have hknown := h.uses.address_known hstrand (hnf k)
  have hmay : ∀ x : Call, x.phase.strand = some k → (∀ a, x.Holds a → a ∈ w.known) → w.May c x := by
    intro x hx hholds
    refine May.keep h.uses hne hnf ?_ hholds (Or.inr (hx.trans hstrand.symm))
    intro hp
    rw [hp] at hx
    cases hx
  rw [World.fail]
  dsimp only
  have hclosed : ∀ {p : Prop}, ((w.strand k).orderlyClosed && !par.immediateRopeSwitch) = true →
      w.AloneAt (w.call c) (.running k) → p := by
    rintro p hcl ⟨-, -, -, horderly, -⟩
    rw [horderly] at hcl
    cases hcl
  have hreused : ∀ {p : Prop}, ¬ ((w.strand k).firstUse || par.immediateRopeSwitch) = true →
      w.AloneAt (w.call c) (.running k) → p := by
    rintro p hf ⟨-, -, hfirst, -⟩
    rw [hfirst] at hf
    exact absurd rfl hf
  have hown : ∀ a, some (w.strand k).address = some a ∨ some (w.strand k).address = some a →
      a ∈ w.known := by
    rintro a (ha | ha)
    · exact Option.some.inj ha ▸ hknown
    · exact Option.some.inj ha ▸ hknown
  split_ifs with hfirst hcl hhas hhas hcallbacks
  · exact h.setCall hne (hmay _ rfl (h.uses.calls c)) fun hat => hclosed hcl (hc ▸ hat)
  · exact h.setCall hne (hmay _ rfl hown) fun hat => hclosed hcl (hc ▸ hat)
  · refine h.setCall hne (hmay _ rfl (h.uses.calls c)) fun hat => ?_
    rw [hc] at hat
    obtain ⟨hquiet, hfilt, -, -, -, j, m, htry, hdesc⟩ := hat
    refine ⟨hquiet, hfilt, j, m, htry, hdesc.resolve_left fun hnone => ?_⟩
    rw [hnone.2] at hhas
    cases hhas
  · refine h.setCall hne (hmay _ rfl hown) fun hat => ?_
    rw [hc] at hat
    obtain ⟨hquiet, hfilt, -, -, haddr, j, m, htry, ⟨rfl, -⟩ | ⟨hdesc, -⟩⟩ := hat
    · -- the first failure: the address is the one that the tries start from
      refine ⟨hquiet, hfilt, j, 0, htry, ?_, haddr.symm⟩
      have hinUse := htry.inUse
      rw [Nat.add_zero, Nat.mod_eq_of_lt htry.start] at hinUse
      rw [← hinUse]
      exact haddr.symm
    · refine absurd ?_ hhas
      have hj := List.getElem?_eq_getElem htry.start
      rw [hdesc, hj]
      exact decide_eq_true (Rope.mem_of_ordered hj)
  · exact h.setCall hne (hmay _ rfl (h.uses.calls c)) fun hat => hreused hfirst (hc ▸ hat)
  · exact h.setCall hne (hmay _ rfl (h.uses.calls c)) fun hat => hreused hfirst (hc ▸ hat)

lemma exhaust_eq (par : OrbParameters) (w : World) (c : ℕ) :
    ∃ l, w.exhaust par c = { w with exhausted := l } := by
  rw [World.exhaust]
  split_ifs
  · exact ⟨_, rfl⟩
  · exact ⟨w.exhausted, rfl⟩

lemma exhaust (h : w.Inv par) (hperm : w.solo = some c →
    (w.call c).tried.Perm (w.rope.addresses.filter fun a => a.accepted par)) :
    ∀ e ∈ (w.exhaust par c).exhausted, e.1.Perm e.2 := by
  rw [World.exhaust]
  split_ifs with hsolo
  · intro e he
    rcases List.mem_append.mp he with he | he
    · exact h.exhausted e he
    · obtain rfl := List.mem_singleton.mp he
      exact hperm hsolo
  · exact h.exhausted

/-- The addresses are sorted, and one is in use. -/
lemma create (h : w.Inv par) (hc : (w.call c).phase = .choosing) (hne : w.rope.order ≠ []) :
    ∃ a, w.rope.current = some a ∧ (w.newStrand c a).Inv par := by
  have hlt := h.addresses.rope.inUse_lt hne
  have hcur := h.addresses.rope.current_eq
  have hget := List.getElem?_eq_getElem hlt
  set a := w.rope.ordered[w.rope.inUse]
  rw [hget] at hcur
  have hknown : a ∈ w.known := List.mem_append_left _ (Rope.mem_of_ordered hget)
  have hdone : (w.call c).phase ≠ .done := by
    rw [hc]
    exact Phase.noConfusion
  let w1 : World :=
    { w with
      strands := w.nextStrand :: w.strands
      strand := Function.update w.strand w.nextStrand ⟨a, true, false, false, false, false⟩
      nextStrand := w.nextStrand + 1 }
  have hold : ∀ j ∈ w.strands, w1.strand j = w.strand j := fun j hj =>
    Function.update_of_ne (h.uses.lt j hj).ne ..
  have hnew : w1.strand w.nextStrand = ⟨a, true, false, false, false, false⟩ :=
    Function.update_self ..
  have huses : w1.UsesOk := by
    refine ⟨h.uses.filters, h.uses.calls, fun j hj => ?_, fun c' j hj => ?_, h.uses.invoked, ?_, ?_⟩
    · rcases List.mem_cons.mp hj with rfl | hj
      · rw [hnew]
        exact Or.inl hknown
      · rw [IsSpent, hold j hj]
        exact h.uses.strands j hj
    · exact List.mem_cons_of_mem _ (h.uses.users c' j hj)
    · exact List.nodup_cons.mpr ⟨fun hmem => (h.uses.lt _ hmem).false, h.uses.nodup⟩
    · intro j hj
      rcases List.mem_cons.mp hj with rfl | hj
      · exact Nat.lt_succ_self _
      · exact (h.uses.lt j hj).trans (Nat.lt_succ_self _)
  refine ⟨a, hcur, ⟨h.addresses.rope, h.addresses.nodup, h.addresses.objects, h.addresses.resolved⟩,
    huses.setCall ⟨fun hp => (by cases hp), h.uses.calls c, fun j hj => ?_, fun j hj => ?_,
      fun _ => h.uses.invoked c hdone⟩, h.stray, h.exhausted, ?_⟩
  · obtain rfl := Option.some.inj hj
    refine ⟨List.mem_cons_self, Or.inl ?_⟩
    rw [hnew]
    exact hknown
  · exact absurd hj (not_hasFailed (w := w) hc (fun _ _ => Phase.noConfusion) j)
  · refine solo_step h.solo hdone rfl (fun c' hd => call_setCall_of_ne _ _ hd) fun hat => ?_
    rw [hc] at hat
    obtain ⟨hquiet, hfilt, htried⟩ := hat
    rw [newStrand, call_setCall_self]
    refine ⟨fun j hj hjk => ?_, hfilt, ?_⟩
    · rcases List.mem_cons.mp hj with rfl | hj
      · exact absurd rfl hjk
      · change (w1.strand j).dying = true
        rw [hold j hj]
        exact hquiet j hj (Option.some_ne_none j)
    · change (w1.strand w.nextStrand).firstUse = true ∧ (w1.strand w.nextStrand).orderlyClosed = false ∧
        w.rope.ordered[w.rope.inUse]? = some (w1.strand w.nextStrand).address ∧ _
      rw [hnew]
      refine ⟨rfl, rfl, hget, ?_⟩
      rcases htried with hfresh | ⟨-, j, m, hpos, hpassed, hdesc⟩
      · exact ⟨_, 0, (hfresh.passed hlt).try_next hget, Or.inl ⟨rfl, hfresh.2⟩⟩
      · exact ⟨j, m, hpassed.try_next hget, Or.inr hdesc⟩

lemma resetAddressOrder (h : w.Inv par) {j : Option ℕ}
    (hheld : ∀ a ∈ w.deletes par j, ∀ c, ¬ (w.call c).Holds a)
    (hspent : ∀ k, j = some k → (w.strand k).address ∈ w.deletes par j → w.IsSpent k)
    (hsolo : ∀ c, w.solo = some c → w.Alone c → (w.resetAddressOrder par j).Alone c) :
    (w.resetAddressOrder par j).Inv par :=
  ⟨h.addresses.resetAddressOrder j, h.uses.resetAddressOrder hheld hspent, h.stray, h.exhausted,
    fun c hc => hsolo c hc (h.solo c hc)⟩

lemma noUsableProfile (h : w.Inv par) (hc : (w.call c).phase = .choosing) (hnil : w.rope.order = [])
    (hheld : w.NotHeld (w.deletes par none) none) (handled : Bool) :
    (((w.exhaust par c).resetAddressOrder par none).setCall c
      (if handled then { w.call c with phase := .out } else .ended)).Inv par := by
  have hne : (w.call c).phase ≠ .done := by
    rw [hc]
    exact Phase.noConfusion
  have hnone : w.rope.ordered = [] := by
    rw [Rope.ordered, hnil]
    rfl
  have hfresh : ∀ {x : Call}, Fresh x ∨ Between w.rope x → Fresh x := by
    rintro x (hfresh | ⟨-, j, m, -, hpassed, -⟩)
    · exact hfresh
    · have hstart := hpassed.start
      rw [hnone] at hstart
      cases hstart
  have hperm : w.solo = some c →
      (w.call c).tried.Perm (w.rope.addresses.filter fun a => a.accepted par) := by
    intro hsolo
    have hat := (h.solo c hsolo).2
    rw [hc] at hat
    have hall := h.addresses.rope.ordered_perm hat.2.1
    rw [hnone] at hall
    rw [(hfresh hat.2.2).1]
    exact hall
  have hexhausted := h.exhaust hperm
  obtain ⟨l, hl⟩ := exhaust_eq par w c
  rw [hl] at hexhausted ⊢
  have hnf := not_hasFailed hc fun _ _ => Phase.noConfusion
  set x : Call := if handled then { w.call c with phase := .out } else .ended with hx
  have hmay : w.May c x := by
    rw [hx]
    split_ifs
    · exact May.keep h.uses hne hnf Phase.noConfusion (h.uses.calls c) (Or.inl rfl)
    · exact May.keep h.uses hne hnf Phase.noConfusion (fun a ha => absurd ha not_holds_ended)
        (Or.inl rfl)
  have h1 : (w.setCall c x).Inv par := by
    refine h.setCall hne hmay fun hat => ?_
    rw [hc] at hat
    rw [hx]
    split_ifs
    · exact ⟨hat.1, hat.2.2⟩
    · trivial
  have h2 := h1.resetAddressOrder (j := none) (fun a ha c' => ?_) (fun k hk => by cases hk)
    fun c' hc' halone => ?_
  · exact ⟨⟨h2.addresses.rope, h2.addresses.nodup, h2.addresses.objects, h2.addresses.resolved⟩,
      h2.uses.of_known (List.Subset.refl _) (fun c' hc' => (h2.uses.filters c' hc').1) rfl rfl rfl
        (List.Subset.refl _) rfl, h2.stray, hexhausted, h2.solo⟩
  · have hnot := hheld a ha
    rcases eq_or_ne c' c with rfl | hd
    · rw [call_setCall_self, hx]
      split_ifs
      · exact hnot c' (Option.some_ne_none _)
      · exact not_holds_ended
    · rw [call_setCall_of_ne _ _ hd]
      exact hnot c' (Option.some_ne_none _)
  · obtain rfl : c' = c := by
      by_contra hd
      exact hne ((h.solo c' hc').1 c (Ne.symm hd))
    refine ⟨halone.1, ?_⟩
    have hat := halone.2
    change AloneAt _ ((w.setCall c' x).call c') ((w.setCall c' x).call c').phase
    rw [call_setCall_self] at hat ⊢
    rw [hx] at hat ⊢
    split_ifs at hat ⊢
    · exact ⟨hat.1, Or.inl (hfresh hat.2)⟩
    · trivial

lemma report (h : w.Inv par) (hc : (w.call c).phase = .reporting k) (hne : w.rope.order ≠ []) :
    (w.report par c k).Inv par := by
  obtain ⟨u, a, hnotify, hget, hnext⟩ :=
    h.addresses.rope.notifyCommFailure hne (w.call c).currentAddress
  have hdone : (w.call c).phase ≠ .done := by
    rw [hc]
    exact Phase.noConfusion
  have hstrand : (w.call c).phase.strand = some k := by
    rw [hc]
    rfl
  have haddr := h.addresses.report hget
  let w1 : World := { w with rope := { w.rope with inUse := u } }
  have h1 : w1.UsesOk := h.uses.of_known (List.Subset.refl _)
    (fun c' hc' => (h.uses.filters c' hc').1) rfl rfl rfl (List.Subset.refl _) rfl
  have hmay : ∀ p : Phase, p.strand = some k →
      w1.May c { w.call c with phase := p, currentAddress := some a } := by
    intro p hp
    refine May.keep h1 hdone (not_hasFailed (w := w1) hc fun _ _ => Phase.noConfusion) ?_
      (fun b hb => ?_) (Or.inr (hp.trans hstrand.symm))
    · rintro rfl
      cases hp
    · rcases hb with hb | hb
      · exact h.uses.calls c b (Or.inl hb)
      · obtain rfl := Option.some.inj hb
        exact List.mem_append_left _ (Rope.mem_of_ordered hget)
  -- what is known of the tries, if the call has been alone
  have htries : w.solo = some c → w.Quiet (some k) ∧ w.rope.filtered = true ∧ ∃ j m,
      (w.call c).firstAddressUsed = w.rope.ordered[j]? ∧
        ((w.rope.ordered[u]? = w.rope.ordered[j]? ∧ (w.call c).tried.Perm w.rope.ordered) ∨
          (w.rope.ordered[u]? ≠ w.rope.ordered[j]? ∧
            Passed { w.rope with inUse := u } (w.call c).tried j (m + 1))) := by
    intro hsolo
    have hat := (h.solo c hsolo).2
    rw [hc] at hat
    obtain ⟨hquiet, hfilt, j, m, htry, hfirst, hcur⟩ := hat
    exact ⟨hquiet, hfilt, j, m, hfirst, htry.next (hnext hcur) h.nodup_ordered⟩
  have halone : ∀ c', w.solo = some c' → c' = c := by
    intro c' hc'
    by_contra hd
    exact hdone ((h.solo c' hc').1 c (Ne.symm hd))
  rw [World.report, hnotify]
  dsimp only
  split_ifs with hfirst
  · have hexhausted := h.exhaust (c := c) fun hsolo => by
      obtain ⟨-, hfilt, j, m, hj, ⟨-, hperm⟩ | ⟨hother, -⟩⟩ := htries hsolo
      · exact hperm.trans (h.addresses.rope.ordered_perm hfilt)
      · rw [hget, ← hfirst, hj] at hother
        exact absurd rfl hother
    obtain ⟨l, hl⟩ := exhaust_eq par w c
    rw [hl] at hexhausted ⊢
    refine ⟨⟨haddr.rope, haddr.nodup, haddr.objects, haddr.resolved⟩, ?_, h.stray, hexhausted, ?_⟩
    · exact (h1.setCall (hmay _ rfl)).of_known (List.Subset.refl _)
        (fun c' hc' => ((h1.setCall (hmay _ rfl)).filters c' hc').1) rfl rfl rfl (List.Subset.refl _)
        rfl
    · intro c' hc'
      obtain rfl := halone c' hc'
      refine ⟨fun d hd => ?_, ?_⟩
      · rw [call_setCall_of_ne _ _ hd]
        exact (h.solo c' hc').1 d hd
      · rw [call_setCall_self]
        exact ⟨(htries hc').1, rfl⟩
  · refine ⟨haddr.setCall _ _, h1.setCall (hmay _ rfl), h.stray, h.exhausted, ?_⟩
    intro c' hc'
    obtain rfl := halone c' hc'
    refine ⟨fun d hd => ?_, ?_⟩
    · rw [call_setCall_of_ne _ _ hd]
      exact (h.solo c' hc').1 d hd
    · rw [call_setCall_self]
      obtain ⟨hquiet, hfilt, j, m, hj, ⟨hsame, -⟩ | ⟨-, hpassed⟩⟩ := htries hc'
      · rw [hget, ← hj] at hsame
        exact absurd hsame.symm hfirst
      · exact ⟨hquiet, fun _ => ⟨hfilt, j, m + 1, Nat.succ_pos m, hpassed, hj, hget.symm⟩⟩

lemma reset (h : w.Inv par) {retry : Bool} (hc : (w.call c).phase = .resetting k retry)
    (hheld : w.NotHeld (w.deletes par (some k)) (if retry then none else some c))
    (hspent : (w.strand k).address ∈ w.deletes par (some k) →
      ∀ c' ≠ c, (w.call c').phase.strand = some k → w.HasFailed c' k) :
    (w.reset par c k retry).Inv par := by
  have hdone : (w.call c).phase ≠ .done := by
    rw [hc]
    exact Phase.noConfusion
  have hstrand : (w.call c).phase.strand = some k := by
    rw [hc]
    rfl
  have hnf := not_hasFailed hc fun _ _ => Phase.noConfusion
  set x : Call := if retry then { w.call c with phase := .failed k true }
    else { w.call c with
      phase := .failed k false, firstAddressUsed := none, currentAddress := none } with hx
  have hphase : x.phase = .failed k retry := by
    rw [hx]
    cases retry <;> rfl
  have hholds : ∀ a, x.Holds a → retry = true ∧ (w.call c).Holds a := by
    rw [hx]
    intro a ha
    cases retry with
    | true => exact ⟨rfl, ha⟩
    | false => rcases ha with ha | ha <;> cases ha
  have hmay : w.May c x := by
    refine May.keep h.uses hdone hnf ?_ (fun a ha => h.uses.calls c a (hholds a ha).2) (Or.inr ?_)
    · rw [hphase]
      exact Phase.noConfusion
    · rw [hphase, hstrand]
      rfl
  have h1 : (w.setCall c x).Inv par := by
    refine h.setCall hdone hmay fun hat => ?_
    rw [hc] at hat
    rw [hphase]
    refine ⟨hat.1, fun hretry => ?_⟩
    rw [hat.2] at hretry
    cases hretry
  have hfailed : (w.setCall c x).HasFailed c k := by
    refine ⟨retry, ?_⟩
    rw [call_setCall_self, hphase]
  refine h1.resetAddressOrder (j := some k) (fun a ha c' hc' => ?_) (fun k' hk hdel => ?_)
    fun c' hc' halone => ?_
  · rcases eq_or_ne c' c with rfl | hd
    · rw [call_setCall_self] at hc'
      obtain ⟨rfl, hown⟩ := hholds a hc'
      exact hheld a ha c' (Option.some_ne_none _) hown
    · rw [call_setCall_of_ne _ _ hd] at hc'
      refine hheld a ha c' ?_ hc'
      cases retry with
      | true => exact Option.some_ne_none _
      | false => exact fun heq => hd (Option.some.inj heq)
  · obtain rfl := Option.some.inj hk
    refine ⟨Or.inr ⟨c, hfailed⟩, fun c' hc' => ?_⟩
    rcases eq_or_ne c' c with rfl | hd
    · exact hfailed
    · rw [call_setCall_of_ne _ _ hd] at hc'
      rw [HasFailed, call_setCall_of_ne _ _ hd]
      exact hspent hdel c' hd hc'
  · obtain rfl : c' = c := by
      by_contra hd
      exact hdone ((h.solo c' hc').1 c (Ne.symm hd))
    refine ⟨halone.1, ?_⟩
    have hat := (h.solo c' hc').2
    rw [hc] at hat
    change AloneAt _ ((w.setCall c' x).call c') ((w.setCall c' x).call c').phase
    rw [call_setCall_self, hphase]
    refine ⟨hat.1, fun hretry => ?_⟩
    rw [hat.2] at hretry
    cases hretry

/-- Where strands have gone, or have begun to die. -/
lemma AloneAt.mono {p : Phase} (h : w.AloneAt x p) (hrope : w'.rope = w.rope)
    (hsub : w'.strands ⊆ w.strands)
    (hstrand : ∀ j, ((w.strand j).dying = true → (w'.strand j).dying = true) ∧
      (w'.strand j).address = (w.strand j).address ∧
      (w'.strand j).firstUse = (w.strand j).firstUse ∧
      (w'.strand j).orderlyClosed = (w.strand j).orderlyClosed) : w'.AloneAt x p := by
  have hquiet : ∀ {k}, w.Quiet k → w'.Quiet k := fun hq j hj hjk =>
    (hstrand j).1 (hq j (hsub hj) hjk)
  cases p with
  | done => trivial
  | out => exact ⟨hquiet h.1, hrope ▸ h.2⟩
  | filtering => exact ⟨hquiet h.1, h.2⟩
  | choosing => exact ⟨hquiet h.1, hrope ▸ h.2⟩
  | running k =>
    obtain ⟨-, haddr, hfirst, horderly⟩ := hstrand k
    refine ⟨hquiet h.1, ?_⟩
    rw [haddr, hfirst, horderly, hrope]
    exact h.2
  | reporting k => exact ⟨hquiet h.1, hrope ▸ h.2⟩
  | resetting k retry => exact ⟨hquiet h.1, h.2⟩
  | failed k retry => exact ⟨hquiet h.1, hrope ▸ h.2⟩

lemma setStrand (h : w.Inv par) {s : GiopStrand}
    (hs : ((w.strand k).dying = true → s.dying = true) ∧ s.address = (w.strand k).address ∧
      s.firstUse = (w.strand k).firstUse ∧ s.orderlyClosed = (w.strand k).orderlyClosed) :
    (w.setStrand k s).Inv par := by
  refine ⟨⟨h.addresses.rope, h.addresses.nodup, h.addresses.objects, h.addresses.resolved⟩,
    h.uses.setStrand hs.2.1 hs.1, h.stray, h.exhausted, fun c hc => ?_⟩
  refine ⟨(h.solo c hc).1, AloneAt.mono (h.solo c hc).2 rfl (List.Subset.refl _) fun j => ?_⟩
  rcases eq_or_ne j k with rfl | hne
  · rw [show (w.setStrand j s).strand j = s from Function.update_self ..]
    exact hs
  · rw [show (w.setStrand k s).strand j = w.strand j from Function.update_of_ne hne ..]
    exact ⟨id, rfl, rfl, rfl⟩

lemma close (h : w.Inv par) : Inv par ({ w with solo := none }.setStrand k
    { w.strand k with dying := true, orderlyClosed := true }) where
  addresses := ⟨h.addresses.rope, h.addresses.nodup, h.addresses.objects, h.addresses.resolved⟩
  uses := (h.uses.setStrand (k := k) (s := { w.strand k with dying := true, orderlyClosed := true })
    rfl fun _ => rfl).of_known (List.Subset.refl _) (fun c hc => (h.uses.filters c hc).1) rfl rfl rfl
    (List.Subset.refl _) rfl
  stray := h.stray
  exhausted := h.exhausted
  solo _ hc := by cases hc

lemma scavenge (h : w.Inv par) (hk : (w.invoked.all fun c => (w.call c).phase.strand ≠ some k) = true) :
    Inv par { w with strands := w.strands.erase k } := by
  refine ⟨⟨h.addresses.rope, h.addresses.nodup, h.addresses.objects, h.addresses.resolved⟩,
    h.uses.erase fun c hc => ?_, h.stray, h.exhausted, fun c hc => ?_⟩
  · refine absurd hc (of_decide_eq_true (List.all_eq_true.mp hk c (h.uses.invoked c fun hdone => ?_)))
    rw [hdone] at hc
    cases hc
  · exact ⟨(h.solo c hc).1, AloneAt.mono (h.solo c hc).2 rfl List.erase_subset fun _ =>
      ⟨id, rfl, rfl, rfl⟩⟩

lemma strands_releaseClient (w : World) (c k : ℕ) (x : Call) :
    (w.releaseClient c k x).strands ⊆ w.strands := by
  rw [World.releaseClient]
  split_ifs
  · exact List.erase_subset
  · exact List.Subset.refl _

lemma addresses_releaseClient (h : w.AddressesOk par) :
    (w.releaseClient c k x).AddressesOk par := ⟨h.rope, h.nodup, h.objects, h.resolved⟩

lemma complete (h : w.Inv par) (hc : (w.call c).phase = .running k) :
    ((w.setStrand k { w.strand k with firstUse := false }).releaseClient c k .ended).Inv par := by
  have hdone : (w.call c).phase ≠ .done := by
    rw [hc]
    exact Phase.noConfusion
  have h1 := h.uses.setStrand (k := k) (s := { w.strand k with firstUse := false }) rfl id
  refine ⟨addresses_releaseClient
    ⟨h.addresses.rope, h.addresses.nodup, h.addresses.objects, h.addresses.resolved⟩, ?_, h.stray,
    h.exhausted, ?_⟩
  · exact h1.releaseClient (May.keep h1 hdone (not_hasFailed (w := w.setStrand k _) hc fun _ _ =>
      Phase.noConfusion) Phase.noConfusion (fun a ha => absurd ha not_holds_ended) (Or.inl rfl)) rfl
  · refine solo_step h.solo hdone rfl (fun c' hd => Function.update_of_ne hd ..) fun _ => ?_
    rw [releaseClient, call_setCall_self]
    trivial

lemma raise (h : w.Inv par) {retry : Bool} (hc : (w.call c).phase = .failed k retry)
    (final handled : Bool) (hs : w.step par (.raise c final handled) = some w') : w'.Inv par := by
  have hdone : (w.call c).phase ≠ .done := by
    rw [hc]
    exact Phase.noConfusion
  rw [World.step, hc] at hs
  dsimp only at hs
  obtain rfl := Option.some.inj hs
  set w1 := w.setStrand k { w.strand k with dying := true } with hw1
  set x : Call := if (retry && !final) || handled then { w.call c with phase := .out } else .ended
    with hx
  have hdying : (w1.strand k).dying = true := by
    rw [show w1.strand k = _ from Function.update_self ..]
  have h1 : w1.UsesOk := h.uses.setStrand rfl fun _ => rfl
  have hnone : x.phase.strand = none := by
    rw [hx]
    split_ifs <;> rfl
  have hmay : w1.May c x := by
    refine ⟨fun hp => ?_, fun a ha => ?_, fun j hj => ?_, fun j hj => ?_, fun _ =>
      h.uses.invoked c hdone⟩
    · rw [hx] at hp
      split_ifs at hp
      cases hp
    · rw [hx] at ha
      split_ifs at ha
      · exact h.uses.calls c a ha
      · exact absurd ha not_holds_ended
    · rw [hnone] at hj
      cases hj
    · obtain ⟨r, hp⟩ := hj
      rw [show (w1.call c).phase = _ from hc] at hp
      cases hp
      exact Or.inr hdying
  have huses := h1.releaseClient (k := k) hmay hnone
  have haddr : (w1.releaseClient c k x).AddressesOk par := addresses_releaseClient
    ⟨h.addresses.rope, h.addresses.nodup, h.addresses.objects, h.addresses.resolved⟩
  split_ifs with hretry
  · refine ⟨haddr, huses, h.stray, h.exhausted, ?_⟩
    refine solo_step h.solo hdone rfl (fun c' hd => Function.update_of_ne hd ..) fun hat => ?_
    rw [hc] at hat
    have hx' : x = { w.call c with phase := .out } := by
      rw [hx, hretry]
      rfl
    rw [releaseClient, call_setCall_self, hx']
    refine ⟨fun j hj _ => ?_, Or.inr (hat.2 (Bool.and_eq_true_iff.mp hretry).1)⟩
    rcases eq_or_ne j k with rfl | hne
    · exact hdying
    · have hthere := strands_releaseClient w1 c k x hj
      have hother : w1.strand j = w.strand j := Function.update_of_ne hne ..
      change (w1.strand j).dying = true
      rw [hother]
      exact hat.1 j hthere fun heq => hne (Option.some.inj heq)
  · refine ⟨⟨haddr.rope, haddr.nodup, haddr.objects, haddr.resolved⟩, ?_, h.stray, h.exhausted,
      fun _ hc' => by cases hc'⟩
    exact huses.of_known (List.Subset.refl _) (fun c' hc' => (huses.filters c' hc').1) rfl rfl rfl
      (List.Subset.refl _) rfl

lemma idle (h : w.Inv par) (hheld : w.NotHeld (w.deletes par none) none) :
    Inv par { w.resetAddressOrder par none with solo := none } := by
  have huses : (w.resetAddressOrder par none).UsesOk := h.uses.resetAddressOrder
    (fun a ha c => hheld a ha c (Option.some_ne_none c)) fun k hk => by cases hk
  have haddr := h.addresses.resetAddressOrder none
  refine ⟨⟨haddr.rope, haddr.nodup, haddr.objects, haddr.resolved⟩, ?_, h.stray, h.exhausted,
    fun _ hc => by cases hc⟩
  exact huses.of_known (List.Subset.refl _) (fun c hc => (huses.filters c hc).1) rfl rfl rfl
    (List.Subset.refl _) rfl

lemma step (h : w.Inv par) {e : Event} (hok : w.Ok par e) (hs : w.step par e = some w') :
    w'.Inv par := by
  cases e with
  | invoke c =>
    by_cases hc : (w.call c).phase = .done
    · rw [World.step, if_pos hc] at hs
      obtain rfl := Option.some.inj hs
      exact h.invoke hc
    · rw [World.step, if_neg hc] at hs
      cases hs
  | acquire c =>
    by_cases hc : (w.call c).phase = .out
    · exact h.acquire hc hs
    · rw [World.step, if_neg hc] at hs
      cases hs
  | resolve c answers => exact h.resolve hs
  | choose c choice =>
    cases choice with
    | take k =>
      rw [World.step] at hs
      split_ifs at hs with hc
      obtain rfl := Option.some.inj hs
      exact h.take hc.1 hc.2.1 hc.2.2 hok
    | create handled =>
      by_cases hc : (w.call c).phase = .choosing
      · rw [World.step, if_pos hc] at hs
        by_cases hnil : w.rope.order = []
        · rw [if_pos hnil] at hs
          obtain rfl := Option.some.inj hs
          exact h.noUsableProfile hc hnil (hok hnil) handled
        · obtain ⟨a, hcur, hinv⟩ := h.create hc hnil
          rw [if_neg hnil, hcur] at hs
          obtain rfl := Option.some.inj hs
          exact hinv
      · rw [World.step, if_neg hc] at hs
        cases hs
  | complete c =>
    rw [World.step] at hs
    split at hs
    · rename_i k hc
      obtain rfl := Option.some.inj hs
      exact h.complete hc
    · cases hs
  | fail c =>
    rw [World.step] at hs
    split at hs
    · rename_i k hc
      obtain rfl := Option.some.inj hs
      exact h.fail hc
    · cases hs
  | report c =>
    rw [World.step] at hs
    split at hs
    · rename_i k hc
      obtain rfl := Option.some.inj hs
      exact h.report hc hok
    · cases hs
  | reset c =>
    rw [World.step] at hs
    split at hs
    · rename_i k retry hc
      obtain rfl := Option.some.inj hs
      obtain ⟨hheld, hspent⟩ := hok k retry hc
      exact h.reset hc hheld hspent
    · cases hs
  | raise c final handled =>
    cases hc : (w.call c).phase with
    | failed k retry => exact h.raise hc final handled hs
    | _ =>
      rw [World.step, hc] at hs
      cases hs
  | abandon c =>
    rw [World.step] at hs
    split_ifs at hs with hc
    obtain rfl := Option.some.inj hs
    exact h.abandon hc
  | close k =>
    obtain rfl := Option.some.inj hs
    exact h.close
  | die k =>
    obtain rfl := Option.some.inj hs
    exact h.setStrand ⟨fun _ => rfl, rfl, rfl, rfl⟩
  | biDir k callbacks =>
    obtain rfl := Option.some.inj hs
    exact h.setStrand ⟨id, rfl, rfl, rfl⟩
  | scavenge k =>
    rw [World.step] at hs
    split_ifs at hs with hk
    obtain rfl := Option.some.inj hs
    exact h.scavenge hk
  | idle =>
    rw [World.step] at hs
    split_ifs at hs
    · obtain rfl := Option.some.inj hs
      exact h
    · obtain rfl := Option.some.inj hs
      exact h.idle hok
    · obtain rfl := Option.some.inj hs
      exact h

lemma kept (h : w.Inv par) : w.Kept par where
  sorted := h.addresses.rope.sorted
  index := h.stray
  calls c a ha := h.addresses.not_mem_freed (h.uses.calls c a ha)
  strands k hk hfreed := by
    rcases h.uses.strands k hk with hknown | hspent
    · exact absurd hfreed (h.addresses.not_mem_freed hknown)
    · exact hspent
  alone := h.exhausted

end Inv

end World

/-- Every address is accepted by the first rule. -/
def acceptAll : OrbParameters where
  resolveNamesForTransportRules := true
  retainAddressOrder := false
  immediateRopeSwitch := false
  offerBiDirectionalGIOP := false
  clientRules := fun _ => some ([ascii "tcp"], 0)
  isipaddr := fun host => host.all fun o => o = 0x2e || (0x30 ≤ o && o ≤ 0x39)
  withHost := fun _ host => ascii "giop:tcp:" ++ host ++ ascii ":2810"

/-- The address of a host. -/
def tcpAddress (host : String) : GiopAddress where
  object := 0
  type := ascii "giop:tcp"
  address := ascii "giop:tcp:" ++ ascii host ++ ascii ":2810"
  host := some (ascii host)
  colon_mem := by decide

end OmniORB.FailOver
