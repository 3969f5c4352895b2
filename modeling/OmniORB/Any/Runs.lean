import OmniORB.Any.SmallOrb
import OmniORB.Any.Values
import OmniORB.Library.Pointwise

/-!
# Programs with Anys

Each operation keeps every Any at the content that the history gives it, as long as no null pointer
is extracted or copied, every message has a TypeCode and a value of it, every Any that is given a
TypeCode with data is given a value, and no value is taken twice from one stream.
-/

namespace OmniORB.Any

open List Library

variable {TC D V Buf : Type} {orb : Orb TC D Buf} {μ : Meaning TC D V Buf}

/-- What an operation must not meet in the Anys, or be given. -/
def Event.Meets (orb : Orb TC D Buf) (μ : Meaning TC D V Buf) (st : Store TC D Buf) :
    Event TC D Buf → Prop
  | newTyped tc buf => buf = none → (orb.kind tc).isEmpty = true
  | replace _ tc buf => buf = none → (orb.kind tc).isEmpty = true
  | newCopy i => ∀ a, st.anys[i]? = some a → a.holdsNull = false
  | assign i j => i ≠ j → ∀ a, st.anys[j]? = some a → a.holdsNull = false
  | extractPointer i tc _ =>
    ∀ a, st.anys[i]? = some a → orb.equivalent tc (orb.get a.tc) = true → a.holdsNull = false
  | extractOwn i kind _ =>
    ∀ a, st.anys[i]? = some a → orb.kind (orb.get a.tc) = kind → a.holdsNull = false
  | toValue i =>
    ∀ a, st.anys[i]? = some a →
      orb.kind (orb.get a.tc) = .value ∨ orb.kind (orb.get a.tc) = .valueBox →
      a.holdsNull = false ∧ ∀ s, a.mbuf = some s → s.id ∉ st.taken
  | unmarshal i r =>
    ∀ a, st.anys[i]? = some a →
      ∃ tc r', orb.unmarshalTypeCode r = some (tc, r') ∧ (μ.decode tc r').isSome = true
  | unmarshalDataOnly i r =>
    ∀ a, st.anys[i]? = some a → (μ.decode (orb.get a.tc) r).isSome = true
  | setType i tc =>
    ∀ a, st.anys[i]? = some a → orb.equivalent (orb.get a.tc) tc = true → a.holdsNull = true →
      (orb.kind tc).hasNil = true
  | _ => True

/-- Every operation of a history meets the condition. -/
def Meets (orb : Orb TC D Buf) (μ : Meaning TC D V Buf) : List (Event TC D Buf) → Prop
  | [] => True
  | e :: h => e.Meets orb μ (.run orb h) ∧ Meets orb μ h

/-- The Anys of a program have these contents. -/
def Store.Holds (orb : Orb TC D Buf) (μ : Meaning TC D V Buf) (st : Store TC D Buf)
    (cs : List (Content TC V)) : Prop :=
  Forall₂ (Rep.Holds orb μ) st.anys cs

namespace Store

variable {st : Store TC D Buf} {cs : List (Content TC V)} {e : Event TC D Buf} {i : ℕ}

lemma Holds.exists_any (hs : st.Holds orb μ cs) {c : Content TC V} (hc : cs[i]? = some c) :
    ∃ a, st.anys[i]? = some a ∧ a.Holds orb μ c :=
  exists_getElem?_of_forall₂ hs hc

lemma Holds.no_any (hs : st.Holds orb μ cs) (hc : cs[i]? = none) : st.anys[i]? = none :=
  getElem?_eq_none_of_forall₂ hs hc

/-- An operation that changes one Any, from what it does to that one. -/
lemma Holds.change (hs : st.Holds orb μ cs) (htarget : e.target = some i)
    {f : Rep TC D Buf → Rep TC D Buf × Outcome D Buf} {g : Content TC V → Content TC V}
    (h : ∀ a c, st.anys[i]? = some a → cs[i]? = some c → a.Holds orb μ c →
      (f a).1.Holds orb μ (g c) ∧ e.Ends orb μ c (f a).2) :
    (st.change i f).1.Holds orb μ (cs.modify i g) ∧ e.Right orb μ cs (st.change i f).2 := by
  rw [Event.Right, htarget, Option.bind_some]
  cases hc : cs[i]? with
  | none =>
    simp only [Store.change, hs.no_any hc]
    refine ⟨?_, trivial⟩
    rw [List.modify_eq_self (by simpa using hc)]
    exact hs
  | some c =>
    obtain ⟨a, ha, hac⟩ := hs.exists_any hc
    obtain ⟨hholds, hends⟩ := h a c ha hc hac
    simp only [Store.change, ha]
    refine ⟨forall₂_set_modify hs ?_, hends⟩
    intro c' hc'
    rw [hc] at hc'
    cases hc'
    exact hholds

/-- An operation that leaves the contents alone. -/
lemma Holds.keep (hs : st.Holds orb μ cs) (htarget : e.target = some i)
    {f : Rep TC D Buf → Rep TC D Buf × Outcome D Buf}
    (h : ∀ a c, st.anys[i]? = some a → a.Holds orb μ c →
      (f a).1.Holds orb μ c ∧ e.Ends orb μ c (f a).2) :
    (st.change i f).1.Holds orb μ cs ∧ e.Right orb μ cs (st.change i f).2 := by
  have hchange := hs.change htarget (f := f) (g := id) fun a c ha _ hac => h a c ha hac
  rwa [List.modify_id] at hchange

/-- An operation that gives an Any a new content. -/
lemma Holds.put (hs : st.Holds orb μ cs) (htarget : e.target = some i)
    {f : Rep TC D Buf → Rep TC D Buf × Outcome D Buf} {c' : Content TC V}
    (h : ∀ a c, st.anys[i]? = some a → (f a).1.Holds orb μ c' ∧ e.Ends orb μ c (f a).2) :
    (st.change i f).1.Holds orb μ (cs.set i c') ∧ e.Right orb μ cs (st.change i f).2 := by
  rw [List.set_eq_modify]
  exact hs.change htarget fun a c ha _ _ => h a c ha

/-- An operation that adds an Any. -/
lemma Holds.push (hs : st.Holds orb μ cs) {r : Rep TC D Buf × Outcome D Buf} {c : Content TC V}
    (h : r.1.Holds orb μ c) : (st.push r).1.Holds orb μ (cs ++ [c]) :=
  forall₂_append_singleton hs h

lemma holds_replace {tc : TC} {buf : Option Buf} {id : ℕ}
    (hp : ∀ b, buf = some b → (μ.contents tc b).isSome = true)
    (hm : buf = none → (orb.kind tc).isEmpty = true) :
    (Rep.replace tc buf id : Rep TC D Buf).Holds orb μ (.ofBuf orb μ tc buf) := by
  cases buf with
  | none =>
    have hempty := hm rfl
    refine ⟨rfl, μ.empty, ?_, Rep.holdsValue_empty hempty⟩
    rw [Content.ofBuf, if_pos hempty]
  | some b =>
    obtain ⟨v, hv⟩ := Option.isSome_iff_exists.mp (hp b rfl)
    exact ⟨rfl, v, hv, Rep.holdsValue_streamOnly hv⟩

lemma holds_copy {a : Rep TC D Buf} {c : Content TC V} (ha : a.Holds orb μ c)
    (hn : a.holdsNull = false) (id : ℕ) :
    (a.copy id).1.Holds orb μ c ∧ (a.copy id).2 = .done := by
  obtain ⟨v, hv, hvalue⟩ := ha.value
  obtain ⟨htc, hcopy, hdone⟩ := hvalue.copy hn id
  exact ⟨⟨htc.trans ha.tc, v, hv, hcopy⟩, hdone⟩

/-- Every operation that meets the condition keeps the contents and ends as it has to. -/
theorem Holds.step (hs : st.Holds orb μ cs) (ho : orb.Lawful μ) (hp : e.Proper orb μ cs)
    (hm : e.Meets orb μ st) :
    (st.step orb e).1.Holds orb μ (e.effect orb μ cs) ∧ e.Right orb μ cs (st.step orb e).2 := by
  cases e with
  | new =>
    refine ⟨hs.push ⟨rfl, μ.empty, rfl, Rep.holdsValue_empty ho.isEmpty_tcNull⟩, rfl⟩
  | newTyped tc buf => exact ⟨hs.push (holds_replace hp hm), rfl⟩
  | newCopy i =>
    cases hc : cs[i]? with
    | none =>
      simp only [Store.step, Event.effect, Event.Right, Event.target, Option.bind_some, hc,
        hs.no_any hc, Option.toList_none, List.append_nil]
      exact ⟨hs, trivial⟩
    | some c =>
      obtain ⟨a, ha, hac⟩ := hs.exists_any hc
      obtain ⟨hcopy, hdone⟩ := holds_copy hac (hm a ha) st.next
      simp only [Store.step, Event.effect, Event.Right, Event.target, Option.bind_some, hc, ha]
      exact ⟨hs.push hcopy, hdone⟩
  | assign i j =>
    have hself : (Event.assign i j : Event TC D Buf).Right orb μ cs .done := by
      rw [Event.Right]
      cases (Event.assign i j : Event TC D Buf).target.bind (cs[·]?) <;> rfl
    cases hc : cs[j]? with
    | none =>
      simp only [Store.step, Event.effect, hc, hs.no_any hc]
      exact ⟨hs, hself⟩
    | some c =>
      obtain ⟨b, hb, hbc⟩ := hs.exists_any hc
      simp only [Store.step, Event.effect, hc, hb]
      by_cases hij : i = j
      · rw [if_pos hij, hij, List.set_eq_modify, modify_of_getElem?_eq hc rfl]
        rw [hij] at hself
        exact ⟨hs, hself⟩
      · rw [if_neg hij]
        exact hs.put rfl fun _ _ _ => holds_copy hbc (hm hij b hb) st.next
  | replace i tc buf =>
    exact hs.put rfl fun _ _ _ => ⟨holds_replace hp hm, rfl⟩
  | insert i tc stub data =>
    obtain ⟨hl, hd⟩ := hp
    obtain ⟨v, hv⟩ := Option.isSome_iff_exists.mp hd
    have hcontents := hl.toStream data v hv
    exact hs.put rfl fun _ _ _ => ⟨⟨rfl, v, hv, Rep.holdsValue_streamOnly hcontents⟩, rfl⟩
  | insertConsuming i tc stub data =>
    obtain ⟨hl, hd, hpointer, hnull⟩ := hp
    obtain ⟨v, hv⟩ := Option.isSome_iff_exists.mp hd
    exact hs.put rfl fun _ _ _ =>
      ⟨⟨rfl, v, hv, Rep.holdsValue_insertConsuming hl hpointer hv hnull⟩, rfl⟩
  | extract i tc stub =>
    obtain ⟨hl, hpointer, hempty⟩ := hp
    exact hs.keep rfl fun a c _ hac => ⟨hac, hac.extract ho hl hpointer hempty⟩
  | extractSimple i tc stub =>
    obtain ⟨hl, hpointer, hempty⟩ := hp
    exact hs.keep rfl fun a c _ hac => ⟨hac, hac.extractSimple ho hl hpointer hempty⟩
  | extractPointer i tc stub =>
    obtain ⟨hl, hpointer, hempty⟩ := hp
    exact hs.keep rfl fun a c ha hac => hac.extractPointer ho hl hpointer hempty (hm a ha)
  | extractOwn i kind stub =>
    obtain ⟨hempty, hl⟩ := hp
    exact hs.keep rfl fun a c ha hac => hac.extractOwn ho hempty hl (hm a ha)
  | toValue i =>
    cases hc : cs[i]? with
    | none =>
      simp only [Store.step, Event.effect, Event.Right, Event.target, Option.bind_some, hc,
        hs.no_any hc]
      exact ⟨hs, trivial⟩
    | some c =>
      obtain ⟨a, ha, hac⟩ := hs.exists_any hc
      simp only [Store.step, Event.effect, Event.Right, Event.target, Option.bind_some, hc, ha]
      exact ⟨hs, hac.toValue ho (hm a ha)⟩
  | marshal i m => exact hs.keep rfl fun a c _ hac => ⟨hac, hac.marshal ho m⟩
  | marshalDataOnly i m => exact hs.keep rfl fun a c _ hac => ⟨hac, hac.marshalDataOnly ho m⟩
  | unmarshal i r =>
    cases htc : orb.unmarshalTypeCode r with
    | none =>
      simp only [Event.effect, htc]
      refine hs.keep rfl fun a c ha _ => ?_
      obtain ⟨tc, r', hnone, -⟩ := hm a ha
      rw [htc] at hnone
      cases hnone
    | some t =>
      obtain ⟨tc, r'⟩ := t
      simp only [Event.effect, htc]
      refine hs.put rfl fun a c ha => ?_
      obtain ⟨tc', r'', hsome, hd⟩ := hm a ha
      rw [htc] at hsome
      cases hsome
      obtain ⟨⟨v, rest⟩, hdecode⟩ := Option.isSome_iff_exists.mp hd
      have hunmarshal : (a.unmarshal orb r st.next).1.tc = some tc ∧
          (a.unmarshal orb r st.next).1.HoldsValue orb μ v ∧
          (a.unmarshal orb r st.next).2 = .read rest :=
        Rep.holdsValue_unmarshal ho st.next htc hdecode
      obtain ⟨hnew, hvalue, hread⟩ := hunmarshal
      refine ⟨⟨hnew, v, ?_, hvalue⟩, tc, r', v, rest, htc, hdecode, hread⟩
      rw [hdecode]
      rfl
  | unmarshalDataOnly i r =>
    refine hs.change rfl fun a c ha _ hac => ?_
    obtain ⟨⟨v, rest⟩, hdecode⟩ := Option.isSome_iff_exists.mp (hm a ha)
    obtain ⟨htc, hvalue, hread⟩ := Rep.holdsValue_fill ho st.next hdecode
    rw [hac.tc] at hdecode
    refine ⟨⟨htc.trans hac.tc, v, ?_, hvalue⟩, v, rest, hdecode, hread⟩
    rw [hdecode]
    rfl
  | streamToRead i => exact hs.keep rfl fun a c _ hac => hac.streamToRead ho
  | streamToWrite i buf =>
    refine hs.change rfl fun a c _ hc hac => ?_
    obtain ⟨v, hv⟩ := Option.isSome_iff_exists.mp (hp c hc)
    refine ⟨⟨hac.tc, v, hv, ?_⟩, rfl⟩
    rw [← hac.tc] at hv
    exact Rep.holdsValue_streamOnly hv
  | setType i tc =>
    refine hs.change rfl fun a c ha _ hac => ?_
    obtain ⟨v, hv, hvalue⟩ := hac.value
    have hm' := hm a ha
    rw [Event.Ends, ← hac.tc]
    by_cases heq : orb.equivalent (orb.get a.tc) tc = true
    · simp only [Rep.setType, if_pos heq]
      exact ⟨⟨rfl, v, hv, hvalue.setType ho heq (hm' heq)⟩, trivial⟩
    · simp only [Rep.setType, if_neg heq]
      exact ⟨hac, trivial⟩
  | value i => exact hs.keep rfl fun a c _ hac => hac.value_spec

/-- After a history the Anys have the contents that it gives. -/
theorem holds_run {h : List (Event TC D Buf)} (ho : orb.Lawful μ) (hp : Proper orb μ h)
    (hm : Meets orb μ h) : (Store.run orb h).Holds orb μ (contentsAfter orb μ h) := by
  induction h with
  | nil => exact .nil
  | cons e h ih => exact ((ih hp.2 hm.2).step ho hp.1 hm.1).1

end Store

end OmniORB.Any
