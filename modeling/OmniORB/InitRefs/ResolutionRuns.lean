import OmniORB.InitRefs.Resolution
import OmniORB.Library.Transitions

/-!
# Initial references stay usable

What holds of the lists and of the calls of `resolve` in each state that is reached, as long as no
uri is set behind the back of a call that may store a reference over it, a configured uri leads to
a reference, and a default to anything but the nil object.
-/

namespace OmniORB.InitRefs

open Library

/-! ### The condition -/

/-- From this phase, without another look at the entry, the call may store a reference over such a
uri. -/
def Phase.MayReplace (src : Source) (uri : String) : Phase → Prop
  | .lookup searched => searched = .file ∧ src = .args
  | .resolving own uri' => own = src ∧ uri' ≠ uri
  | .storing own uri' _ => own = src ∧ uri' ≠ uri
  | .lookupDefault _ => True
  | .resolvingDefault _ _ => True
  | .storingDefault own _ => own = src
  | .askingAgent => src = .args
  | .storingBoot _ => src = .args
  | _ => False

/-- The outcomes of `stringToObject` with which `resolve` does what it should: a reference for a
configured uri, and for a default one anything but the nil object. -/
def Phase.Answers (outcome : Outcome) : Phase → Prop
  | .resolving _ _ => ∃ r, outcome = .object (.reference r)
  | .resolvingDefault _ _ => outcome ≠ .object .nil
  | _ => True

/-- The condition on a step in a state. -/
def Orderly (valid : String → Bool) (s : State) : Step → Prop
  | .setFrom src id uri =>
    valid uri → ∀ c ∈ s.threads, c.id = id → ¬c.phase.MayReplace src uri
  | .resolve _ pseudo => pseudo ≠ some .nil
  | .advance t outcome => ∀ c ∈ s.threads[t]?, c.phase.Answers outcome
  | _ => True

/-! ### What is to hold -/

/-- What came of the route is a reference. -/
def IsReference (outcome : Option Outcome) : Prop := ∃ r, outcome = some (.object (.reference r))

/-- The routes before one. -/
def before (route : Route) : List Route := routes.takeWhile fun r => r ≠ route

/-- The reference is the first that one of the routes gives. -/
def IsFirst (tried : List (Route × Option Outcome)) (r : ℕ) : Prop :=
  ∃ earlier route, tried = earlier ++ [(route, some (.object (.reference r)))] ∧
    earlier.map Prod.fst = before route ∧ ∀ p ∈ earlier, ¬IsReference p.2

/-- No route gives a reference. -/
def NoneFound (tried : List (Route × Option Outcome)) : Prop :=
  tried.map Prod.fst = routes ∧ ∀ p ∈ tried, ¬IsReference p.2

/-- What a step may do to an entry that stays: it keeps its uri, or the reference that was obtained
from the uri takes its place. -/
def Follows (answers : List (String × ℕ)) (e e' : ServiceRecord) : Prop :=
  e'.id = e.id ∧
    (e' = e ∨ (∃ uri r, e.uri = some uri ∧ (uri, r) ∈ answers ∧ e' = ⟨e.id, none, .reference r⟩) ∨
      e.uri = none ∧ e'.uri = none ∧ e'.ref ≠ .nil)

/-- What the claim promises of a state. -/
structure Usable (valid : String → Bool) (s : State) : Prop where
  distinct : ∀ src, ((s.services src).map ServiceRecord.id).Nodup
  held : ∀ src, ∀ e ∈ s.services src, e.uri ≠ none ∨ e.ref ≠ .nil
  asserted : ∀ c ∈ s.threads, c.phase ≠ .assertFailed
  removed : ∀ src id,
    (s.remFrom src id).services src = (s.services src).filter fun e => e.id ≠ id
  others : ∀ src other id, other ≠ src → (s.remFrom src id).services other = s.services other
  stored : ∀ t outcome s', s.step valid (.advance t outcome) = some s' →
    ∀ src, ∀ e ∈ s.services src, ∃ e' ∈ s'.services src, Follows s'.answers e e'
  first : ∀ c ∈ s.threads, ∀ obj, c.phase = .returned obj →
    ∃ r, obj = .reference r ∧ IsFirst c.tried r
  notFound : ∀ c ∈ s.threads, ∀ e, c.phase = .notFound e → NoneFound c.tried
  threw : ∀ c ∈ s.threads, c.phase ≠ .threw
  ends : ∀ c ∈ s.threads, ∀ outcome, 0 < c.phase.stepsLeft →
    (s.advance c outcome).2.phase.stepsLeft < c.phase.stepsLeft

/-! ### The lists -/

/-- Every entry has a uri or a reference. -/
def Held (l : List ServiceRecord) : Prop := ∀ e ∈ l, e.uri ≠ none ∨ e.ref ≠ .nil

/-- There are no uris that were not there before. -/
def Fewer (l l' : List ServiceRecord) : Prop :=
  ∀ e' ∈ l', ∀ uri, e'.uri = some uri → ∃ e ∈ l, e.id = e'.id ∧ e.uri = some uri

section

variable {id uri : String} {obj : Obj} {r : ℕ} {l : List ServiceRecord}

lemma Fewer.refl : Fewer l l := fun e he _ huri => ⟨e, he, rfl, huri⟩

lemma held_setUri (hd : Distinct l) (h : Held l) : Held (setService id (some uri) .nil l) := by
  intro e he
  rcases hd.mem_set_iff.mp he with rfl | ⟨he, _⟩
  · exact .inl (by simp)
  · exact h e he

lemma held_setObject (hd : Distinct l) (h : Held l) (hobj : obj ≠ .nil) :
    Held (setService id none obj l) := by
  intro e he
  rcases hd.mem_set_iff.mp he with rfl | ⟨he, _⟩
  · exact .inr hobj
  · exact h e he

lemma fewer_setObject (hd : Distinct l) : Fewer l (setService id none obj l) := by
  intro e he uri huri
  rcases hd.mem_set_iff.mp he with rfl | ⟨he, _⟩
  · cases huri
  · exact ⟨e, he, rfl, huri⟩

lemma held_store (hd : Distinct l) (h : Held l) : Held (storeRef id r l) := by
  intro e he
  rcases hd.mem_store_iff.mp he with ⟨he, _⟩ | ⟨rfl, _⟩
  · exact h e he
  · exact .inr (by simp)

lemma fewer_store (hd : Distinct l) : Fewer l (storeRef id r l) := by
  intro e he uri huri
  rcases hd.mem_store_iff.mp he with ⟨he, _⟩ | ⟨rfl, _⟩
  · exact ⟨e, he, rfl, huri⟩
  · cases huri

lemma held_remove (hd : Distinct l) (h : Held l) : Held (removeService id l) :=
  fun e he => h e (hd.mem_remove_iff.mp he).1

lemma fewer_remove (hd : Distinct l) : Fewer l (removeService id l) :=
  fun e he _ huri => ⟨e, (hd.mem_remove_iff.mp he).1, rfl, huri⟩

lemma held_append (h : Held l) (hobj : obj ≠ .nil) : Held (l ++ [⟨id, none, obj⟩]) := by
  intro e he
  rcases List.mem_append.mp he with he | he
  · exact h e he
  · obtain rfl := List.mem_singleton.mp he
    exact .inr hobj

lemma fewer_append : Fewer l (l ++ [⟨id, none, obj⟩]) := by
  intro e he uri huri
  rcases List.mem_append.mp he with he | he
  · exact ⟨e, he, rfl, huri⟩
  · obtain rfl := List.mem_singleton.mp he
    cases huri

end

/-! ### A step of a call -/

variable {s s' : State} {c : Resolution} {outcome : Outcome} {src : Source} {uri : String}

/-- The call is about to store the object, whatever the list holds. -/
def Phase.Overwrites (src : Source) (obj : Obj) : Phase → Prop
  | .storingDefault own obj' => own = src ∧ obj' = obj
  | .storingBoot r => src = .args ∧ obj = .reference r
  | _ => False

@[simp]
lemma services_setList (l : List ServiceRecord) :
    (s.setList src l).services src = l := Function.update_self ..

lemma services_setList_of_ne {own : Source} (h : own ≠ src) (l : List ServiceRecord) :
    (s.setList src l).services own = s.services own := Function.update_of_ne h ..

@[simp]
lemma services_answered : (s.answered uri outcome).services = s.services := by
  unfold State.answered
  split <;> rfl

/-- What a step of a call does to a list. -/
lemma services_advance (s : State) (c : Resolution) (outcome : Outcome) (src : Source) :
    (s.advance c outcome).1.services src = s.services src ∨
      (∃ uri r, c.phase = .storing src uri r ∧
        (s.advance c outcome).1.services src = storeRef c.id r (s.services src)) ∨
      ∃ obj, c.phase.Overwrites src obj ∧
        (s.advance c outcome).1.services src = setService c.id none obj (s.services src) := by
  cases hc : c.phase with
  | storing own uri r =>
    simp only [State.advance, hc]
    by_cases hown : src = own
    · subst hown
      exact .inr (.inl ⟨uri, r, rfl, services_setList _⟩)
    · exact .inl (services_setList_of_ne hown _)
  | storingDefault own obj =>
    simp only [State.advance, hc]
    by_cases hown : src = own
    · subst hown
      exact .inr (.inr ⟨obj, ⟨rfl, rfl⟩, services_setList _⟩)
    · exact .inl (services_setList_of_ne hown _)
  | storingBoot r =>
    simp only [State.advance, hc]
    by_cases hown : src = .args
    · subst hown
      exact .inr (.inr ⟨.reference r, ⟨rfl, rfl⟩, services_setList _⟩)
    · exact .inl (services_setList_of_ne hown _)
  | resolving | resolvingDefault => simp [State.advance, hc]
  | lookup | lookupDefault | askingAgent | returned | threw | notFound | assertFailed =>
    exact .inl (by simp only [State.advance, hc])

lemma answers_advance (s : State) (c : Resolution) (outcome : Outcome) :
    s.answers ⊆ (s.advance c outcome).1.answers := by
  have hasked (uri : String) : s.answers ⊆ (s.answered uri outcome).answers := by
    unfold State.answered
    split
    · exact List.subset_cons_self _ _
    · exact List.Subset.refl _
  cases hc : c.phase with
  | resolving | resolvingDefault =>
    simp only [State.advance, hc]
    exact hasked _
  | storing | storingDefault | storingBoot | lookup | lookupDefault | askingAgent | returned | threw
    | notFound | assertFailed =>
    simp only [State.advance, hc]
    exact List.Subset.refl _

lemma threads_advance (s : State) (c : Resolution) (outcome : Outcome) :
    (s.advance c outcome).1.threads = s.threads := by
  have hasked (uri : String) : (s.answered uri outcome).threads = s.threads := by
    unfold State.answered
    split <;> rfl
  cases hc : c.phase with
  | resolving | resolvingDefault =>
    simp only [State.advance, hc]
    exact hasked _
  | storing | storingDefault | storingBoot | lookup | lookupDefault | askingAgent | returned | threw
    | notFound | assertFailed =>
    simp only [State.advance, hc, State.setObject, State.setList]

/-! ### The order of the routes -/

/-- The route that a call is on. -/
def Phase.route : Phase → Option Route
  | .lookup src => some (.configured src)
  | .resolving src _ => some (.configured src)
  | .storing src _ _ => some (.configured src)
  | .lookupDefault src => some (.byDefault src)
  | .resolvingDefault src _ => some (.byDefault src)
  | .storingDefault src _ => some (.byDefault src)
  | .askingAgent => some .bootAgent
  | .storingBoot _ => some .bootAgent
  | _ => none

/-- A call has tried the routes before this one, and found no reference. -/
def Reached (c : Resolution) (route : Route) : Prop :=
  c.tried.map Prod.fst = before route ∧ ∀ p ∈ c.tried, ¬IsReference p.2

/-- The calls take the routes in their order. -/
structure InOrder (c : Resolution) : Prop where
  reached : ∀ route, c.phase.route = some route → Reached c route
  first : ∀ r, c.phase = .returned (.reference r) → IsFirst c.tried r
  notFound : ∀ e, c.phase = .notFound e → NoneFound c.tried

lemma before_next {route next : Route} (h : (c.next route).route = some next) :
    before next = before route ++ [route] := by
  rcases route with _ | (_ | _) | (_ | _) | _ <;> cases h <;> rfl

lemma routes_eq {route : Route} {e : ServiceError} (h : c.next route = .notFound e) :
    routes = before route ++ [route] := by
  rcases route with _ | (_ | _) | (_ | _) | _ <;> cases h
  rfl

lemma next_ne_returned (route : Route) (obj : Obj) : c.next route ≠ .returned obj := by
  rcases route with _ | (_ | _) | (_ | _) | _ <;> simp [Resolution.next]

lemma InOrder.fails {route : Route} {outcome : Option Outcome} (h : Reached c route)
    (ho : ¬IsReference outcome) : InOrder (c.fails route outcome) := by
  have htried : (c.fails route outcome).tried.map Prod.fst = before route ++ [route] := by
    simp only [Resolution.fails, List.map_append, h.1, List.map_cons, List.map_nil]
  have hnone : ∀ p ∈ (c.fails route outcome).tried, ¬IsReference p.2 := by
    intro p hp
    rcases List.mem_append.mp hp with hp | hp
    · exact h.2 p hp
    · obtain rfl := List.mem_singleton.mp hp
      exact ho
  constructor
  · intro next hnext
    exact ⟨htried.trans (before_next hnext).symm, hnone⟩
  · intro r hr
    exact absurd hr (next_ne_returned route _)
  · intro e he
    exact ⟨htried.trans (routes_eq he).symm, hnone⟩

lemma InOrder.returns {route : Route} (h : Reached c route) (obj : Obj) :
    InOrder (c.returns route obj) := by
  constructor
  · intro next hnext
    cases hnext
  · intro r hr
    cases hr
    exact ⟨c.tried, route, rfl, h.1, h.2⟩
  · intro e he
    cases he

/-- A call stays on its route, or ends without a result. -/
lemma InOrder.stays {phase : Phase} (h : InOrder c)
    (hroute : ∀ route, phase.route = some route → c.phase.route = some route)
    (hreturned : ∀ obj, phase ≠ .returned obj) (hfound : ∀ e, phase ≠ .notFound e) :
    InOrder { c with phase } :=
  ⟨fun route hr => h.reached route (hroute route hr), fun _ hr => absurd hr (hreturned _),
    fun _ he => absurd he (hfound _)⟩

lemma not_isReference_none : ¬IsReference none := fun ⟨_, h⟩ => by cases h

lemma not_isReference_exception : ¬IsReference (some .exception) := fun ⟨_, h⟩ => by cases h

lemma not_isReference_nil : ¬IsReference (some (.object .nil)) := fun ⟨_, h⟩ => by cases h

lemma InOrder.start (id : String) (pseudo : Option Obj) : InOrder (Resolution.start id pseudo) := by
  have hreached : Reached ⟨id, .lookup .args, []⟩ .pseudo := ⟨rfl, fun _ hp => by cases hp⟩
  cases pseudo with
  | none => exact .fails hreached not_isReference_none
  | some obj => exact .returns hreached obj

lemma InOrder.advance (h : InOrder c) (s : State) (outcome : Outcome) :
    InOrder (s.advance c outcome).2 := by
  cases hc : c.phase with
  | lookup src =>
    have hreached : Reached c (.configured src) := h.reached _ (by rw [hc]; rfl)
    simp only [State.advance, hc]
    rcases findService c.id (s.services src) with _ | ⟨_, _ | uri, _ | r⟩
    · exact .fails hreached not_isReference_none
    · exact h.stays (by simp [Phase.route]) (by simp) (by simp)
    · exact .returns hreached _
    · exact h.stays (by simp [hc, Phase.route]) (by simp) (by simp)
    · exact .returns hreached _
  | resolving src uri =>
    have hreached : Reached c (.configured src) := h.reached _ (by rw [hc]; rfl)
    simp only [State.advance, hc]
    rcases outcome with (_ | r) | _
    · exact .returns hreached _
    · exact h.stays (by simp [hc, Phase.route]) (by simp) (by simp)
    · constructor
      · exact fun _ hr => by cases hr
      · exact fun _ hr => by cases hr
      · exact fun _ he => by cases he
  | storing src uri r =>
    simp only [State.advance, hc]
    exact .returns (h.reached _ (by rw [hc]; rfl)) _
  | lookupDefault src =>
    simp only [State.advance, hc]
    cases s.defaults src with
    | none => exact .fails (h.reached _ (by rw [hc]; rfl)) not_isReference_none
    | some uri => exact h.stays (by simp [hc, Phase.route]) (by simp) (by simp)
  | resolvingDefault src uri =>
    simp only [State.advance, hc]
    cases outcome with
    | object obj => exact h.stays (by simp [hc, Phase.route]) (by simp) (by simp)
    | exception => exact .fails (h.reached _ (by rw [hc]; rfl)) not_isReference_exception
  | storingDefault src obj =>
    simp only [State.advance, hc]
    exact .returns (h.reached _ (by rw [hc]; rfl)) _
  | askingAgent =>
    have hreached : Reached c .bootAgent := h.reached _ (by rw [hc]; rfl)
    simp only [State.advance, hc, Resolution.askAgent]
    cases s.hasAgent with
    | false => exact .fails hreached not_isReference_none
    | true =>
      rcases outcome with (_ | r) | _
      · exact .fails hreached not_isReference_nil
      · exact h.stays (by simp [hc, Phase.route]) (by simp) (by simp)
      · exact .fails hreached not_isReference_exception
  | storingBoot r =>
    simp only [State.advance, hc]
    exact .returns (h.reached _ (by rw [hc]; rfl)) _
  | returned | threw | notFound | assertFailed =>
    simp only [State.advance, hc]
    exact h

/-! ### Calls -/

/-- What may not become of a call, and what it may not store. -/
def Phase.Fine : Phase → Prop
  | .storingDefault _ obj => obj ≠ .nil
  | .returned obj => obj ≠ .nil
  | .threw => False
  | .assertFailed => False
  | _ => True

/-- What holds of each call in a state. -/
structure CallOk (s : State) (c : Resolution) : Prop where
  keeps : ∀ src, ∀ e ∈ s.services src, e.id = c.id → ∀ uri, e.uri = some uri →
    ¬c.phase.MayReplace src uri
  obtained : ∀ src uri r, c.phase = .storing src uri r → (uri, r) ∈ s.answers
  fine : c.phase.Fine
  inOrder : InOrder c

structure Sound (s : State) : Prop where
  distinct : ∀ src, Distinct (s.services src)
  held : ∀ src, Held (s.services src)
  calls : ∀ c ∈ s.threads, CallOk s c

lemma CallOk.mono (h : CallOk s c) (hfewer : ∀ src, Fewer (s.services src) (s'.services src))
    (hans : s.answers ⊆ s'.answers) : CallOk s' c := by
  refine ⟨?_, fun src uri r hc => hans (h.obtained src uri r hc), h.fine, h.inOrder⟩
  intro src e' he' hid uri huri
  obtain ⟨e, he, hid', huri⟩ := hfewer src e' he' uri huri
  exact h.keeps src e he (hid'.trans hid) uri huri

@[simp]
lemma id_advance (s : State) (c : Resolution) (outcome : Outcome) :
    (s.advance c outcome).2.id = c.id := by
  cases hc : c.phase with
  | lookup src =>
    simp only [State.advance, hc]
    rcases findService c.id (s.services src) with _ | ⟨_, _ | uri, _ | r⟩ <;> rfl
  | resolving src uri =>
    simp only [State.advance, hc]
    rcases outcome with (_ | r) | _ <;> rfl
  | lookupDefault src =>
    simp only [State.advance, hc]
    cases s.defaults src <;> rfl
  | resolvingDefault src uri =>
    simp only [State.advance, hc]
    cases outcome <;> rfl
  | askingAgent =>
    simp only [State.advance, hc, Resolution.askAgent]
    cases s.hasAgent with
    | false => rfl
    | true => rcases outcome with (_ | r) | _ <;> rfl
  | storing | storingDefault | storingBoot | returned | threw | notFound | assertFailed =>
    simp only [State.advance, hc, Resolution.returns]

/-- If a call may replace a uri after its step, it might have done so before, or it has just seen
that the list does not hold the uri for it. -/
lemma mayReplace_advance (hd : ∀ src, Distinct (s.services src))
    (h : (s.advance c outcome).2.phase.MayReplace src uri) :
    c.phase.MayReplace src uri ∨ ∀ e ∈ s.services src, e.id = c.id → e.uri ≠ some uri := by
  cases hc : c.phase with
  | lookup own =>
    simp only [State.advance, hc] at h
    cases hf : findService c.id (s.services own) with
    | none =>
      have hnone := findService_eq_none.mp hf
      rw [hf] at h
      cases own with
      | args =>
        obtain ⟨-, rfl⟩ := h
        exact .inr fun e he hid => absurd hid (hnone e he)
      | file =>
        cases src with
        | args => exact .inl ⟨rfl, rfl⟩
        | file => exact .inr fun e he hid => absurd hid (hnone e he)
    | some e =>
      rw [hf] at h
      obtain ⟨he, hid⟩ := (hd own).find_iff.mp hf
      rcases e with ⟨_, _ | uri', _ | r⟩
      · cases h
      · cases h
      · obtain ⟨rfl, hne⟩ := h
        refine .inr fun e' he' hid' huri' => hne ?_
        have hsame := (hd own).find_iff.mpr ⟨he', hid'⟩
        rw [hf] at hsame
        obtain rfl := Option.some.inj hsame
        exact Option.some.inj huri'
      · cases h
  | resolving own uri' =>
    simp only [State.advance, hc] at h
    rcases outcome with (_ | r) | _
    · cases h
    · exact .inl h
    · cases h
  | lookupDefault => exact .inl trivial
  | resolvingDefault => exact .inl trivial
  | askingAgent =>
    simp only [State.advance, hc, Resolution.askAgent] at h
    cases hagent : s.hasAgent with
    | false =>
      rw [hagent] at h
      cases h
    | true =>
      rw [hagent] at h
      rcases outcome with (_ | r) | _
      · cases h
      · exact .inl h
      · cases h
  | storing | storingDefault | storingBoot =>
    simp only [State.advance, hc] at h
    cases h
  | returned | threw | notFound | assertFailed =>
    simp only [State.advance, hc] at h
    cases h

lemma obtained_advance {r : ℕ}
    (hc : (s.advance c outcome).2.phase = .storing src uri r) :
    (uri, r) ∈ (s.advance c outcome).1.answers := by
  cases hp : c.phase with
  | lookup own =>
    simp only [State.advance, hp] at hc
    generalize findService c.id (s.services own) = found at hc
    rcases found with _ | ⟨_, _ | uri', _ | r⟩
    · cases own <;> cases hc
    all_goals cases hc
  | resolving own uri' =>
    simp only [State.advance, hp] at hc ⊢
    rcases outcome with (_ | r') | _
    · cases hc
    · obtain ⟨rfl, rfl, rfl⟩ := hc
      exact List.mem_cons_self
    · cases hc
  | lookupDefault own =>
    simp only [State.advance, hp] at hc
    cases hd : s.defaults own with
    | none =>
      rw [hd] at hc
      cases own <;> cases hc
    | some uri' =>
      rw [hd] at hc
      cases hc
  | resolvingDefault own uri' =>
    simp only [State.advance, hp] at hc
    cases outcome with
    | object obj => cases hc
    | exception => cases own <;> cases hc
  | askingAgent =>
    simp only [State.advance, hp, Resolution.askAgent] at hc
    cases hagent : s.hasAgent with
    | false =>
      rw [hagent] at hc
      cases hc
    | true =>
      rw [hagent] at hc
      rcases outcome with (_ | r') | _ <;> cases hc
  | storing | storingDefault | storingBoot =>
    simp only [State.advance, hp] at hc
    cases hc
  | returned | threw | notFound | assertFailed =>
    simp only [State.advance, hp] at hc
    cases hc

lemma fine_next (route : Route) : (c.next route).Fine := by
  rcases route with _ | (_ | _) | (_ | _) | _ <;> trivial

lemma fine_advance (hs : Sound s) (h : CallOk s c) (hout : c.phase.Answers outcome) :
    (s.advance c outcome).2.phase.Fine := by
  have hfine := h.fine
  cases hc : c.phase with
  | lookup own =>
    simp only [State.advance, hc]
    cases hf : findService c.id (s.services own) with
    | none => exact fine_next _
    | some e =>
      obtain ⟨he, -⟩ := (hs.distinct own).find_iff.mp hf
      have hheld := hs.held own e he
      rcases e with ⟨_, _ | uri', _ | r⟩
      · simp at hheld
      · simp [Resolution.lookup, Resolution.returns, Phase.Fine]
      · trivial
      · simp [Resolution.lookup, Resolution.returns, Phase.Fine]
  | resolving own uri' =>
    rw [hc] at hout
    obtain ⟨r, rfl⟩ := hout
    simp only [State.advance, hc]
    trivial
  | lookupDefault own =>
    simp only [State.advance, hc]
    cases s.defaults own with
    | none => exact fine_next _
    | some uri' => trivial
  | resolvingDefault own uri' =>
    rw [hc] at hout
    simp only [State.advance, hc]
    cases outcome with
    | object obj => exact fun hnil => hout (by rw [hnil])
    | exception => exact fine_next _
  | askingAgent =>
    simp only [State.advance, hc, Resolution.askAgent]
    cases s.hasAgent with
    | false => exact fine_next (c := c) .bootAgent
    | true =>
      rcases outcome with (_ | r) | _
      · exact fine_next (c := c) .bootAgent
      · trivial
      · exact fine_next (c := c) .bootAgent
  | storingDefault own obj =>
    rw [hc] at hfine
    simp only [State.advance, hc]
    exact hfine
  | storing | storingBoot =>
    simp [State.advance, hc, Resolution.returns, Phase.Fine]
  | returned | threw | notFound | assertFailed =>
    simpa only [State.advance, hc] using hfine

/-! ### Steps -/

lemma fine_overwrites {obj : Obj} (h : CallOk s c) (ho : c.phase.Overwrites src obj) :
    obj ≠ .nil := by
  have hfine := h.fine
  cases hc : c.phase with
  | storingDefault own obj' =>
    rw [hc] at ho hfine
    obtain ⟨-, rfl⟩ := ho
    exact hfine
  | storingBoot r =>
    rw [hc] at ho
    obtain ⟨-, rfl⟩ := ho
    simp
  | _ =>
    rw [hc] at ho
    cases ho

/-- The lists stay as they should be while a call goes on, and get no new uris. -/
lemma lists_advance (hs : Sound s) (h : CallOk s c) (outcome : Outcome) (src : Source) :
    Distinct ((s.advance c outcome).1.services src) ∧
      Held ((s.advance c outcome).1.services src) ∧
        Fewer (s.services src) ((s.advance c outcome).1.services src) := by
  have hd := hs.distinct src
  have hheld := hs.held src
  rcases services_advance s c outcome src with hsame | ⟨uri, r, -, hstore⟩ | ⟨obj, ho, hset⟩
  · rw [hsame]
    exact ⟨hd, hheld, .refl⟩
  · rw [hstore]
    exact ⟨hd.store, held_store hd hheld, fewer_store hd⟩
  · rw [hset]
    exact ⟨hd.set, held_setObject hd hheld (fine_overwrites h ho), fewer_setObject hd⟩

lemma CallOk.advance (hs : Sound s) (h : CallOk s c) (hout : c.phase.Answers outcome) :
    CallOk (s.advance c outcome).1 (s.advance c outcome).2 := by
  refine ⟨?_, fun src uri r => obtained_advance, fine_advance hs h hout,
    h.inOrder.advance s outcome⟩
  intro src e' he' hid uri huri hmay
  rw [id_advance] at hid
  obtain ⟨e, he, hid', huri⟩ := (lists_advance hs h outcome src).2.2 e' he' uri huri
  rcases mayReplace_advance hs.distinct hmay with hmay | hnone
  · exact h.keeps src e he (hid'.trans hid) uri huri hmay
  · exact hnone e he (hid'.trans hid) huri

lemma CallOk.start (s : State) (id : String) {pseudo : Option Obj} (h : pseudo ≠ some .nil) :
    CallOk s (Resolution.start id pseudo) := by
  have horder := InOrder.start id pseudo
  cases pseudo with
  | none =>
    refine ⟨fun src e he hid uri huri hmay => ?_, fun src uri r hc => ?_, trivial, horder⟩
    · obtain ⟨hargs, -⟩ := hmay
      cases hargs
    · cases hc
  | some obj =>
    refine ⟨fun src e he hid uri huri hmay => ?_, fun src uri r hc => ?_, ?_, horder⟩
    · cases hmay
    · cases hc
    · exact fun hnil => h (congrArg some hnil)

/-- A change of one list that leaves no identifier twice, no entry without uri and reference, and
brings no new uri. -/
lemma Sound.setList (h : Sound s) {l : List ServiceRecord} (hd : Distinct l) (hheld : Held l)
    (hfewer : Fewer (s.services src) l) : Sound (s.setList src l) := by
  have hof (P : List ServiceRecord → Prop) (hl : P l) (hs : ∀ own, P (s.services own))
      (own : Source) : P ((s.setList src l).services own) := by
    by_cases hown : own = src
    · subst hown
      rwa [services_setList]
    · rw [services_setList_of_ne hown]
      exact hs own
  refine ⟨hof _ hd h.distinct, hof _ hheld h.held, fun c hc => (h.calls c hc).mono ?_ fun _ => id⟩
  intro own
  by_cases hown : own = src
  · subst hown
    rwa [services_setList]
  · rw [services_setList_of_ne hown]
    exact .refl

lemma Sound.setFromORB (h : Sound s) {id : String} {obj : Obj}
    (hs : s.setFromORB id obj = .ok s') : Sound s' := by
  unfold State.setFromORB at hs
  split_ifs at hs with hid hnil hfile hargs
  obtain rfl := Except.ok.inj hs
  have hnew : ∀ e ∈ s.services .args, e.id ≠ id :=
    findService_eq_none.mp (Option.not_isSome_iff_eq_none.mp hargs)
  exact h.setList ((h.distinct .args).append hnew) (held_append (h.held .args) hnil) fewer_append

lemma Sound.setFrom (h : Sound s) (valid : String → Bool) {id : String}
    (hok : Orderly valid s (.setFrom src id uri)) : Sound ((s.setFrom valid src id uri).getD s) := by
  unfold State.setFrom
  split_ifs with hvalid
  · have hd := h.distinct src
    rw [Option.getD_some]
    constructor
    · intro own
      by_cases hown : own = src
      · subst hown
        rw [services_setList]
        exact hd.set
      · rw [services_setList_of_ne hown]
        exact h.distinct own
    · intro own
      by_cases hown : own = src
      · subst hown
        rw [services_setList]
        exact held_setUri hd (h.held _)
      · rw [services_setList_of_ne hown]
        exact h.held own
    · intro c hc
      have hcall := h.calls c hc
      refine ⟨?_, hcall.obtained, hcall.fine, hcall.inOrder⟩
      intro own e he hid uri' huri
      by_cases hown : own = src
      · subst hown
        rw [services_setList] at he
        rcases hd.mem_set_iff.mp he with rfl | ⟨he, _⟩
        · obtain rfl := Option.some.inj huri
          exact hok hvalid c hc hid.symm
        · exact hcall.keeps own e he hid uri' huri
      · rw [services_setList_of_ne hown] at he
        exact hcall.keeps own e he hid uri' huri
  · exact h

lemma Sound.advance (h : Sound s) {t : ℕ} (ht : s.threads[t]? = some c)
    (hout : c.phase.Answers outcome) :
    Sound { (s.advance c outcome).1 with
      threads := (s.advance c outcome).1.threads.set t (s.advance c outcome).2 } := by
  have hcall := h.calls c (List.mem_of_getElem? ht)
  have hlists := lists_advance h hcall outcome
  refine ⟨fun src => (hlists src).1, fun src => (hlists src).2.1, fun c' hc' => ?_⟩
  rcases List.mem_or_eq_of_mem_set hc' with hmem | rfl
  · rw [threads_advance] at hmem
    have hother := (h.calls c' hmem).mono (fun src => (hlists src).2.2) (answers_advance s c outcome)
    exact ⟨hother.keeps, hother.obtained, hother.fine, hother.inOrder⟩
  · have hown := hcall.advance h hout
    exact ⟨hown.keeps, hown.obtained, hown.fine, hown.inOrder⟩

/-- A change that touches neither lists nor calls. -/
lemma Sound.of_eq (h : Sound s) (hservices : s'.services = s.services)
    (hanswers : s'.answers = s.answers) (hthreads : s'.threads = s.threads) : Sound s' := by
  refine ⟨fun src => ?_, fun src => ?_, fun c hc => ?_⟩
  · rw [hservices]
    exact h.distinct src
  · rw [hservices]
    exact h.held src
  · rw [hthreads] at hc
    refine (h.calls c hc).mono (fun src => ?_) ?_
    · rw [hservices]
      exact .refl
    · rw [hanswers]
      exact List.Subset.refl _

lemma Sound.step {valid : String → Bool} {a : Step} (h : Sound s) (hok : Orderly valid s a)
    (hs : s.step valid a = some s') : Sound s' := by
  cases a with
  | setFrom src id uri =>
    obtain rfl := Option.some.inj hs
    exact h.setFrom valid hok
  | setFromORB id obj =>
    obtain rfl := Option.some.inj hs
    cases hset : s.setFromORB id obj with
    | error e => exact h
    | ok s' => exact h.setFromORB hset
  | remFrom src id =>
    obtain rfl := Option.some.inj hs
    have hd := h.distinct src
    exact h.setList hd.remove (held_remove hd (h.held src)) (fewer_remove hd)
  | setDefault src uri =>
    obtain rfl := Option.some.inj hs
    exact h.of_eq rfl rfl rfl
  | initialiseAgent =>
    obtain rfl := Option.some.inj hs
    exact h.of_eq rfl rfl rfl
  | resolve id pseudo =>
    obtain rfl := Option.some.inj hs
    refine ⟨h.distinct, h.held, fun c hc => ?_⟩
    rcases List.mem_append.mp hc with hc | hc
    · have hcall := h.calls c hc
      exact ⟨hcall.keeps, hcall.obtained, hcall.fine, hcall.inOrder⟩
    · obtain rfl := List.mem_singleton.mp hc
      have hcall := CallOk.start s id hok
      exact ⟨hcall.keeps, hcall.obtained, hcall.fine, hcall.inOrder⟩
  | advance t outcome =>
    obtain ⟨c, ht, rfl⟩ := Option.map_eq_some_iff.mp hs
    exact h.advance ht (hok c ht)

lemma Sound.initial : Sound State.initial := by
  constructor
  · exact fun _ => List.nodup_nil
  · exact fun _ _ he => by cases he
  · exact fun _ hc => by cases hc

/-! ### What follows -/

/-- What a step of a call does to an entry. -/
lemma follows_advance (hs : Sound s) (h : CallOk s c) (outcome : Outcome) (src : Source)
    {e : ServiceRecord} (he : e ∈ s.services src) :
    ∃ e' ∈ (s.advance c outcome).1.services src,
      Follows (s.advance c outcome).1.answers e e' := by
  have hd := hs.distinct src
  rcases services_advance s c outcome src with hsame | ⟨uri, r, hc, hstore⟩ | ⟨obj, ho, hset⟩
  · rw [hsame]
    exact ⟨e, he, rfl, .inl rfl⟩
  · rw [hstore]
    by_cases hkeeps : e.id ≠ c.id ∨ e.ref ≠ .nil
    · exact ⟨e, hd.mem_store_iff.mpr (.inl ⟨he, hkeeps⟩), rfl, .inl rfl⟩
    · obtain ⟨hid, hnil⟩ : e.id = c.id ∧ e.ref = .nil := by simpa using hkeeps
      obtain ⟨uri', huri⟩ := Option.ne_none_iff_exists'.mp
        ((hs.held src e he).resolve_right fun h => h hnil)
      -- the entry still holds the uri that the call has resolved
      have hsame : uri = uri' := by
        by_contra hne
        refine h.keeps src e he hid uri' huri ?_
        rw [hc]
        exact ⟨rfl, hne⟩
      subst hsame
      refine ⟨⟨c.id, none, .reference r⟩, hd.mem_store_iff.mpr (.inr ⟨rfl, e, he, hid, hnil⟩),
        hid.symm, .inr (.inl ⟨uri, r, huri, ?_, by rw [hid]⟩)⟩
      exact answers_advance s c outcome (h.obtained src uri r hc)
  · rw [hset]
    by_cases hid : e.id = c.id
    · have hnone : e.uri = none := by
        by_contra hsome
        obtain ⟨uri, huri⟩ := Option.ne_none_iff_exists'.mp hsome
        refine h.keeps src e he hid uri huri ?_
        cases hc : c.phase with
        | storingDefault own obj' =>
          rw [hc] at ho
          exact ho.1
        | storingBoot r =>
          rw [hc] at ho
          exact ho.1
        | _ =>
          rw [hc] at ho
          cases ho
      exact ⟨⟨c.id, none, obj⟩, hd.mem_set_iff.mpr (.inl rfl), hid.symm,
        .inr (.inr ⟨hnone, rfl, fine_overwrites h ho⟩)⟩
    · exact ⟨e, hd.mem_set_iff.mpr (.inr ⟨he, hid⟩), rfl, .inl rfl⟩

/-- A call goes on at each of its steps, until it has ended. -/
lemma stepsLeft_advance (s : State) (outcome : Outcome) (h : 0 < c.phase.stepsLeft) :
    (s.advance c outcome).2.phase.stepsLeft < c.phase.stepsLeft := by
  cases hc : c.phase with
  | lookup own =>
    simp only [State.advance, hc]
    rcases findService c.id (s.services own) with _ | ⟨_, _ | uri', _ | r⟩ <;> cases own <;>
      simp [Resolution.lookup, Resolution.fails, Resolution.returns, Resolution.next,
        Phase.stepsLeft]
  | resolving own uri' =>
    simp only [State.advance, hc]
    rcases outcome with (_ | r) | _ <;>
      simp [Resolution.resolved, Resolution.returns, Phase.stepsLeft]
  | lookupDefault own =>
    simp only [State.advance, hc]
    cases s.defaults own <;> cases own <;>
      simp [Resolution.lookupDefault, Resolution.fails, Resolution.next, Phase.stepsLeft]
  | resolvingDefault own uri' =>
    simp only [State.advance, hc]
    cases outcome <;> cases own <;>
      simp [Resolution.resolvedDefault, Resolution.fails, Resolution.next, Phase.stepsLeft]
  | askingAgent =>
    simp only [State.advance, hc, Resolution.askAgent]
    rcases s.hasAgent with _ | _
    · simp [Resolution.fails, Resolution.next, Phase.stepsLeft]
    · rcases outcome with (_ | r) | _ <;>
        simp [Resolution.fails, Resolution.next, Phase.stepsLeft]
  | storing | storingDefault | storingBoot =>
    simp [State.advance, hc, Resolution.returns, Phase.stepsLeft]
  | returned | threw | notFound | assertFailed =>
    rw [hc] at h
    cases h

lemma Sound.usable (h : Sound s) (valid : String → Bool) : Usable valid s where
  distinct := h.distinct
  held := h.held
  asserted c hc hfailed := by
    have hfine := (h.calls c hc).fine
    rw [hfailed] at hfine
    exact hfine
  removed src id := by
    rw [State.remFrom, services_setList]
    exact (h.distinct src).remove_eq_filter
  others src other id hne := services_setList_of_ne hne _
  stored t outcome s' hs src e he := by
    obtain ⟨c, ht, rfl⟩ := Option.map_eq_some_iff.mp hs
    exact follows_advance h (h.calls c (List.mem_of_getElem? ht)) outcome src he
  first c hc obj hobj := by
    have hcall := h.calls c hc
    have hfine := hcall.fine
    rw [hobj] at hfine
    cases obj with
    | nil => exact absurd rfl hfine
    | reference r => exact ⟨r, rfl, hcall.inOrder.first r hobj⟩
  notFound c hc e he := (h.calls c hc).inOrder.notFound e he
  threw c hc hthrew := by
    have hfine := (h.calls c hc).fine
    rw [hthrew] at hfine
    exact hfine
  ends c _ outcome hleft := stepsLeft_advance s outcome hleft

/-- Initial references stay usable in every history whose steps meet the condition. -/
theorem references_stay_usable (valid : String → Bool) {s : State}
    (h : ReachedBy (State.step valid) (Orderly valid) State.initial s) : Usable valid s :=
  (h.invariant Sound.initial fun _ _ _ hs hok hstep => hs.step hok hstep).usable valid

/-- A reference from the arguments that is resolved once. -/
def resolvedOnce : List Step :=
  [.setFromArgs "Stocks" "corbaloc::h/k", .resolve "Stocks" none, .advance 0 .exception,
    .advance 0 (.object (.reference 7)), .advance 0 .exception]

theorem references_stay_usable_once :
    ∃ s, execute (State.step fun _ => true) State.initial resolvedOnce = some s ∧
      s.threads.map Resolution.phase = [.returned (.reference 7)] ∧ Usable (fun _ => true) s := by
  refine ⟨_, rfl, rfl, references_stay_usable _ (ReachedBy.execute (l := resolvedOnce) .start ?_ rfl)⟩
  constructor
  · exact fun _ c hc => by cases hc
  rintro _ ⟨⟩
  constructor
  · simp [Orderly]
  rintro _ ⟨⟩
  constructor
  · rintro _ ⟨⟩
    trivial
  rintro _ ⟨⟩
  constructor
  · rintro _ ⟨⟩
    exact ⟨7, rfl⟩
  rintro _ ⟨⟩
  constructor
  · rintro _ ⟨⟩
    trivial
  exact fun _ _ => trivial

/-- A default leads to the nil object, and the identifier is resolved again. -/
def nilDefault : List Step :=
  [.setDefaultInitRefFromArgs "corbaname::h#", .resolve "Stocks" none, .advance 0 .exception,
    .advance 0 .exception, .advance 0 .exception, .advance 0 (.object .nil), .advance 0 .exception,
    .resolve "Stocks" none, .advance 1 .exception]

/-- A default that leads to the nil object leaves an entry without uri and reference, and the next
resolution fails an assertion. -/
theorem nil_default_not_usable :
    ∃ s, ReachedBy (State.step fun _ => true) (fun _ _ => True) State.initial s ∧
      execute (State.step fun _ => true) State.initial nilDefault = some s ∧
      s.threads.map Resolution.phase = [.returned .nil, .assertFailed] ∧
      ¬Usable (fun _ => true) s := by
  refine ⟨_, ReachedBy.execute (l := nilDefault) .start (AllOk.of_forall (fun _ _ => trivial) _ _)
    rfl, rfl, rfl, ?_⟩
  intro h
  exact h.asserted _ (List.mem_cons_of_mem _ (List.mem_singleton.mpr rfl)) rfl

end OmniORB.InitRefs
