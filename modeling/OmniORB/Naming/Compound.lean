import OmniORB.Naming.Bindings

/-!
# Compound names

An operation on a name is the operation on its last component, in the context that the components
before it lead to one by one.
-/

namespace OmniORB

open Library

namespace Naming

/-- The operations that take a name, without the name. -/
inductive NamingRequest where
  | resolve
  | bind (obj : ObjectRef) (w : Write)
  | rebind (obj : ObjectRef) (w : Write)
  | bindContext (nc : ObjectRef) (w : Write)
  | rebindContext (nc : ObjectRef) (w : Write)
  | unbind (w : Write)
  | bindNewContext (id : ObjectId) (create bind destroy : Write)

namespace NameServer

variable (orb : Orb)

/-- An operation on the context `c`; a reference is the result of some. -/
def perform (s : NameServer) (q : NamingRequest) (c : ObjectId) (n : Name) :
    Except NamingExn (Option ObjectRef) × NameServer :=
  match q with
  | .resolve => ((s.resolve orb c n).map some, s)
  | .bind obj w => (s.bind orb c n obj w).map (Except.map fun _ => none) id
  | .rebind obj w => (s.rebind orb c n obj w).map (Except.map fun _ => none) id
  | .bindContext nc w => (s.bindContext orb c n nc w).map (Except.map fun _ => none) id
  | .rebindContext nc w => (s.rebindContext orb c n nc w).map (Except.map fun _ => none) id
  | .unbind w => (s.unbind orb w c n).map (Except.map fun _ => none) id
  | .bindNewContext nc create bind destroy =>
    (s.bindNewContext orb nc create bind destroy c n).map (Except.map some) id

/-- The POA gives a new context an id that no context is activated with. -/
def Unused (s : NameServer) : NamingRequest → Prop
  | .bindNewContext id _ _ _ => s.context id = none
  | _ => True

/-! ### Resolving one component after the other -/

/-- The component is bound in `c`, and bound as a context. -/
def BoundAsContext (s : NameServer) (c : ObjectId) (x : NameComponent) : Prop :=
  ∃ ctx ob, s.context c = some ctx ∧ ctx.resolveSimple x = some ob ∧ ob.2.bindingType = .ncontext

/-- The components of a name, each resolved where the ones before it have led, lead from one context to
another. -/
inductive Leads (s : NameServer) : ObjectId → Name → ObjectId → Prop
  | here (c : ObjectId) : Leads s c [] c
  | next {c c' d : ObjectId} {x : NameComponent} {rest : Name} {r : ObjectRef}
    (hresolve : s.resolve orb c [x] = .ok r) (hbound : s.BoundAsContext c x)
    (hnarrow : orb.narrow r = .ok (some c')) (h : Leads s c' rest d) : Leads s c (x :: rest) d

/-- What stands in the way of the first component of a name, in the context that it is resolved in. -/
inductive Blocked (s : NameServer) (d : ObjectId) : Name → NamingExn → Prop
  | gone {x : NameComponent} {rest : Name}
    (hresolve : s.resolve orb d [x] = .error .objectNotExist) :
    Blocked s d (x :: rest) .objectNotExist
  | missing {x : NameComponent} {rest : Name}
    (hresolve : s.resolve orb d [x] = .error (.notFound .missingNode [x])) :
    Blocked s d (x :: rest) (.notFound .missingNode (x :: rest))
  | noContext {x : NameComponent} {rest : Name} {r : ObjectRef}
    (hresolve : s.resolve orb d [x] = .ok r) (hnarrow : orb.narrow r = .ok none) :
    Blocked s d (x :: rest) (.notFound .notContext (x :: rest))
  | boundAsObject {x : NameComponent} {rest : Name} {r : ObjectRef} {c' : ObjectId}
    (hresolve : s.resolve orb d [x] = .ok r) (hnarrow : orb.narrow r = .ok (some c'))
    (hbound : ¬ s.BoundAsContext d x) :
    Blocked s d (x :: rest) (.notFound .notContext (x :: rest))
  | noAnswer {x : NameComponent} {rest : Name} {r : ObjectRef} {e : ℕ}
    (hresolve : s.resolve orb d [x] = .ok r) (hnarrow : orb.narrow r = .error e) :
    Blocked s d (x :: rest) (.system e)

/-- What an operation on a name is to do. -/
structure Stepwise (s : NameServer) (q : NamingRequest) (c : ObjectId) (n : Name) : Prop where
  empty : ∀ ctx, s.context c = some ctx → n = [] → s.perform orb q c n = (.error .invalidName, s)
  last : ∀ lead x d, n = lead ++ [x] → s.Leads orb c lead d →
    s.perform orb q c n = s.perform orb q d [x]
  blocked : ∀ lead rest d e, n = lead ++ rest → 2 ≤ rest.length → s.Leads orb c lead d →
    s.Blocked orb d rest e → s.perform orb q c n = (.error e, s)
  either : n ≠ [] → (∃ lead x d, n = lead ++ [x] ∧ s.Leads orb c lead d) ∨
    ∃ lead rest d e, n = lead ++ rest ∧ 2 ≤ rest.length ∧ s.Leads orb c lead d ∧ s.Blocked orb d rest e
  missing : ∀ x e w, n = [x] → s.resolve orb c [x] = .error e → (q = .resolve ∨ q = .unbind w) →
    s.perform orb q c n = (.error e, s)
  ok : (s.perform orb q c n).2.Ok

variable {orb} {s : NameServer} {c c' d : ObjectId} {x y : NameComponent} {n rest : Name}
  {e : NamingExn} {q : NamingRequest}

/-! ### `resolve_compound` -/

lemma resolve_singleton_of_context {ctx : NamingContext} (hc : s.context c = some ctx) :
    s.resolve orb c [x] =
      (ctx.resolveSimple x).elim (.error (.notFound .missingNode [x])) fun ob => .ok ob.2.object := by
  rw [resolve, hc]
  rcases hx : ctx.resolveSimple x with - | ob <;> simp only [hx] <;> rfl

lemma resolve_singleton_of_none (hc : s.context c = none) :
    s.resolve orb c [x] = .error .objectNotExist := by
  rw [resolve, hc]

/-- What `resolve` comes to for one component. -/
lemma resolve_singleton_cases (orb : Orb) (s : NameServer) (c : ObjectId) (x : NameComponent) :
    (s.context c = none ∧ s.resolve orb c [x] = .error .objectNotExist) ∨
    (∃ ctx, s.context c = some ctx ∧ ctx.resolveSimple x = none ∧
      s.resolve orb c [x] = .error (.notFound .missingNode [x])) ∨
    ∃ ctx p ob, s.context c = some ctx ∧ ctx.resolveSimple x = some (p, ob) ∧
      s.resolve orb c [x] = .ok ob.object := by
  rcases hc : s.context c with - | ctx
  · exact Or.inl ⟨rfl, resolve_singleton_of_none hc⟩
  · have hresolve : s.resolve orb c [x] = _ := resolve_singleton_of_context hc
    rcases hx : ctx.resolveSimple x with - | ⟨p, ob⟩
    · rw [hx] at hresolve
      exact Or.inr (Or.inl ⟨ctx, rfl, hx, hresolve⟩)
    · rw [hx] at hresolve
      exact Or.inr (Or.inr ⟨ctx, p, ob, rfl, hx, hresolve⟩)

lemma resolveCompound_of_bound {ctx : NamingContext} {p : ℕ} {ob : ObjectBinding}
    (hc : s.context c = some ctx) (hx : ctx.resolveSimple x = some (p, ob)) (rest : Name) :
    s.resolveCompound orb c (x :: rest) = ob.context orb (x :: rest) := by
  rw [resolveCompound, hc]
  simp only [hx]

lemma boundAsContext_iff {ctx : NamingContext} {p : ℕ} {ob : ObjectBinding}
    (hc : s.context c = some ctx) (hx : ctx.resolveSimple x = some (p, ob)) :
    s.BoundAsContext c x ↔ ob.bindingType = .ncontext := by
  constructor
  · rintro ⟨ctx', ob', hc', hx', htype⟩
    obtain rfl := Option.some.inj (hc.symm.trans hc')
    obtain rfl := Option.some.inj (hx.symm.trans hx')
    exact htype
  · intro htype
    exact ⟨ctx, (p, ob), hc, hx, htype⟩

/-- Where the first component leads on, or what stands in its way. -/
lemma resolveCompound_cons (orb : Orb) (s : NameServer) (c : ObjectId) (x : NameComponent)
    (rest : Name) :
    (∃ r c', s.resolve orb c [x] = .ok r ∧ s.BoundAsContext c x ∧ orb.narrow r = .ok (some c')) ∨
    ∃ e, s.Blocked orb c (x :: rest) e := by
  rcases resolve_singleton_cases orb s c x with
    ⟨-, hresolve⟩ | ⟨-, -, -, hresolve⟩ | ⟨ctx, p, ob, hc, hx, hresolve⟩
  · exact Or.inr ⟨_, .gone hresolve⟩
  · exact Or.inr ⟨_, .missing hresolve⟩
  · rcases hnarrow : orb.narrow ob.object with e | - | c'
    · exact Or.inr ⟨_, .noAnswer hresolve hnarrow⟩
    · exact Or.inr ⟨_, .noContext hresolve hnarrow⟩
    · by_cases hbound : s.BoundAsContext c x
      · exact Or.inl ⟨ob.object, c', hresolve, hbound, hnarrow⟩
      · exact Or.inr ⟨_, .boundAsObject hresolve hnarrow hbound⟩

/-- The binding that `resolve` answers with. -/
lemma bound_of_resolve {r : ObjectRef} (h : s.resolve orb c [x] = .ok r) :
    ∃ ctx p ob, s.context c = some ctx ∧ ctx.resolveSimple x = some (p, ob) ∧ ob.object = r := by
  rcases resolve_singleton_cases orb s c x with
    ⟨-, hresolve⟩ | ⟨-, -, -, hresolve⟩ | ⟨ctx, p, ob, hc, hx, hresolve⟩
  · rw [hresolve] at h
    contradiction
  · rw [hresolve] at h
    contradiction
  · rw [hresolve] at h
    exact ⟨ctx, p, ob, hc, hx, Except.ok.inj h⟩

lemma resolveCompound_of_leads {r : ObjectRef} (hresolve : s.resolve orb c [x] = .ok r)
    (hbound : s.BoundAsContext c x) (hnarrow : orb.narrow r = .ok (some c')) (rest : Name) :
    s.resolveCompound orb c (x :: rest) = .ok c' := by
  obtain ⟨ctx, p, ob, hc, hx, rfl⟩ := bound_of_resolve hresolve
  have htype := (boundAsContext_iff hc hx).mp hbound
  rw [resolveCompound_of_bound hc hx, ObjectBinding.context, hnarrow]
  simp only [htype, ne_eq, not_true_eq_false, if_false]

lemma resolveCompound_of_blocked (h : s.Blocked orb c n e) : s.resolveCompound orb c n = .error e := by
  cases h with
  | @gone x rest hresolve =>
    rcases resolve_singleton_cases orb s c x with ⟨hc, -⟩ | ⟨-, -, -, h⟩ | ⟨_, _, _, _, _, h⟩
    · rw [resolveCompound, hc]
    · simp [hresolve] at h
    · simp [hresolve] at h
  | @missing x rest hresolve =>
    rcases resolve_singleton_cases orb s c x with ⟨-, h⟩ | ⟨ctx, hc, hx, -⟩ | ⟨_, _, _, _, _, h⟩
    · simp [hresolve] at h
    · rw [resolveCompound, hc]
      simp only [hx]
    · simp [hresolve] at h
  | noContext hresolve hnarrow =>
    obtain ⟨ctx, p, ob, hc, hx, rfl⟩ := bound_of_resolve hresolve
    rw [resolveCompound_of_bound hc hx, ObjectBinding.context, hnarrow]
  | boundAsObject hresolve hnarrow hbound =>
    obtain ⟨ctx, p, ob, hc, hx, rfl⟩ := bound_of_resolve hresolve
    have htype : ob.bindingType ≠ .ncontext := fun h => hbound ((boundAsContext_iff hc hx).mpr h)
    rw [resolveCompound_of_bound hc hx, ObjectBinding.context, hnarrow]
    simp only [htype, ne_eq, not_false_eq_true, if_true]
  | noAnswer hresolve hnarrow =>
    obtain ⟨ctx, p, ob, hc, hx, rfl⟩ := bound_of_resolve hresolve
    rw [resolveCompound_of_bound hc hx, ObjectBinding.context, hnarrow]

/-! ### The operations -/

/-- A name with more than one component is for the context of its first one. -/
lemma perform_of_leads (h : s.resolveCompound orb c (x :: y :: rest) = .ok c') :
    s.perform orb q c (x :: y :: rest) = s.perform orb q c' (y :: rest) := by
  cases q with
  | resolve => rw [perform, perform, resolve, h]
  | bind obj w => rw [perform, perform, bind, bindHelper, h]; rfl
  | rebind obj w => rw [perform, perform, rebind, bindHelper, h]; rfl
  | bindContext nc w => rw [perform, perform, bindContext, bindHelper, h]; rfl
  | rebindContext nc w => rw [perform, perform, rebindContext, bindHelper, h]; rfl
  | unbind w => rw [perform, perform, unbind, h]
  | bindNewContext id create bind destroy => rw [perform, perform, bindNewContext, h]

lemma perform_of_error (h : s.resolveCompound orb c n = .error e) (hn : n.length ≠ 1) :
    s.perform orb q c n = (.error e, s) := by
  rcases n with - | ⟨x, - | ⟨y, rest⟩⟩
  · cases q with
    | resolve => rw [perform, resolve, h]; rfl
    | bind obj w => rw [perform, bind, bindHelper, h]; rfl
    | rebind obj w => rw [perform, rebind, bindHelper, h]; rfl
    | bindContext nc w => rw [perform, bindContext, bindHelper, h]; rfl
    | rebindContext nc w => rw [perform, rebindContext, bindHelper, h]; rfl
    | unbind w => rw [perform, unbind, h]; rfl
    | bindNewContext id create bind destroy => rw [perform, bindNewContext, h]; rfl
  · exact absurd rfl hn
  · cases q with
    | resolve => rw [perform, resolve, h]; rfl
    | bind obj w => rw [perform, bind, bindHelper, h]; rfl
    | rebind obj w => rw [perform, rebind, bindHelper, h]; rfl
    | bindContext nc w => rw [perform, bindContext, bindHelper, h]; rfl
    | rebindContext nc w => rw [perform, rebindContext, bindHelper, h]; rfl
    | unbind w => rw [perform, unbind, h]; rfl
    | bindNewContext id create bind destroy => rw [perform, bindNewContext, h]; rfl

/-- The components before the last are left behind one by one. -/
lemma perform_append_of_leads {lead : Name} (h : s.Leads orb c lead d) (x : NameComponent)
    (rest : Name) : s.perform orb q c (lead ++ x :: rest) = s.perform orb q d (x :: rest) := by
  induction h with
  | here c => rfl
  | @next c c' d z lead r hresolve hbound hnarrow h ih =>
    have hcompound : ∀ l, s.resolveCompound orb c (z :: l) = .ok c' :=
      resolveCompound_of_leads hresolve hbound hnarrow
    rw [← ih]
    cases lead with
    | nil => exact perform_of_leads (hcompound (x :: rest))
    | cons y lead => exact perform_of_leads (hcompound (y :: (lead ++ x :: rest)))

lemma bindHelper_append_of_leads {lead : Name} {obj : ObjectRef} {t : BindingType} {rebind : Bool}
    {w : Write} (h : s.Leads orb c lead d) (x : NameComponent) (rest : Name) :
    s.bindHelper orb obj t rebind w c (lead ++ x :: rest) =
      s.bindHelper orb obj t rebind w d (x :: rest) := by
  induction h with
  | here c => rfl
  | @next c c' d z lead r hresolve hbound hnarrow h ih =>
    have hcompound : ∀ l, s.resolveCompound orb c (z :: l) = .ok c' :=
      resolveCompound_of_leads hresolve hbound hnarrow
    rw [← ih]
    cases lead with
    | nil =>
      show s.bindHelper orb obj t rebind w c (z :: x :: rest) = _
      rw [bindHelper, hcompound]
      rfl
    | cons y lead =>
      show s.bindHelper orb obj t rebind w c (z :: y :: (lead ++ x :: rest)) = _
      rw [bindHelper, hcompound]
      rfl

lemma leads_or_blocked (orb : Orb) (s : NameServer) (c : ObjectId) (n : Name) (hn : n ≠ []) :
    (∃ lead x d, n = lead ++ [x] ∧ s.Leads orb c lead d) ∨
    ∃ lead rest d e, n = lead ++ rest ∧ 2 ≤ rest.length ∧ s.Leads orb c lead d ∧
      s.Blocked orb d rest e := by
  induction n generalizing c with
  | nil => exact absurd rfl hn
  | cons x rest ih =>
    cases rest with
    | nil => exact Or.inl ⟨[], x, c, rfl, .here c⟩
    | cons y rest =>
      rcases resolveCompound_cons orb s c x (y :: rest) with
        ⟨r, c', hresolve, hbound, hnarrow⟩ | ⟨e, hblocked⟩
      · rcases ih c' (List.cons_ne_nil y rest) with
          ⟨lead, z, d, heq, h⟩ | ⟨lead, rest', d, e, heq, hlen, h, hblocked⟩
        · exact Or.inl ⟨x :: lead, z, d, by rw [heq]; rfl, .next hresolve hbound hnarrow h⟩
        · exact Or.inr ⟨x :: lead, rest', d, e, by rw [heq]; rfl, hlen,
            .next hresolve hbound hnarrow h, hblocked⟩
      · exact Or.inr ⟨[], x :: y :: rest, c, e, rfl, by simp, .here c, hblocked⟩

/-! ### The invariant -/

lemma bindHelper_ok {obj : ObjectRef} {t : BindingType} {rebind : Bool} {w : Write} (hs : s.Ok) :
    (s.bindHelper orb obj t rebind w c n).2.Ok := by
  obtain ⟨d, x, -, h⟩ := bindHelper_effect orb hs obj t rebind w c n
  exact h.ok hs

lemma perform_ok (hs : s.Ok) (hq : s.Unused q) : (s.perform orb q c n).2.Ok := by
  cases q with
  | resolve => exact hs
  | bind obj w => exact bindHelper_ok hs
  | rebind obj w => exact bindHelper_ok hs
  | bindContext nc w => exact bindHelper_ok hs
  | rebindContext nc w => exact bindHelper_ok hs
  | unbind w =>
    obtain ⟨d, x, -, h⟩ := unbind_effect orb hs w c n
    exact h.ok hs
  | bindNewContext id create bind destroy => exact (bindNewContext_effect orb hs hq create bind destroy c n).ok hs

/-- An operation on a name of one component that is not bound changes nothing. -/
lemma perform_of_missing {w : Write} (h : s.resolve orb c [x] = .error e)
    (hq : q = .resolve ∨ q = .unbind w) : s.perform orb q c [x] = (.error e, s) := by
  rcases hq with rfl | rfl
  · rw [perform, h]
    rfl
  · rw [perform, unbind]
    rcases resolve_singleton_cases orb s c x with
      ⟨hc, hresolve⟩ | ⟨ctx, hc, hx, hresolve⟩ | ⟨_, _, _, _, _, hresolve⟩
    · rw [h] at hresolve
      rw [hc, Except.error.inj hresolve]
      rfl
    · rw [h] at hresolve
      rw [hc, Except.error.inj hresolve]
      simp only [unbindSimple, hx]
      rfl
    · simp [h] at hresolve

/-- An operation on a name of any length, in any graph of contexts. -/
theorem compound_names_resolved_stepwise (orb : Orb) {s : NameServer} (hs : s.Ok)
    (q : NamingRequest) (hq : s.Unused q) (c : ObjectId) (n : Name) : s.Stepwise orb q c n where
  empty := by
    rintro ctx hc rfl
    apply perform_of_error
    · rw [resolveCompound, hc]
    · simp
  last := by
    rintro lead x d rfl h
    exact perform_append_of_leads h x []
  blocked := by
    rintro lead rest d e rfl hlen h hblocked
    rcases rest with - | ⟨x, rest⟩
    · simp at hlen
    · rw [perform_append_of_leads h x rest]
      exact perform_of_error (resolveCompound_of_blocked hblocked) (by omega)
  either := leads_or_blocked orb s c n
  missing := by
    rintro x e w rfl h hq
    exact perform_of_missing h hq
  ok := perform_ok hs hq

/-! ### A small graph -/

/-- An ORB that cannot reach any other object when `e` is an exception. -/
def orbWith (e : Option ℕ) : Orb := ⟨fun _ => .empty, fun _ => none, fun _ => e⟩

def nameA : NameComponent := ⟨.ofBuffer [0x61], .empty⟩

def nameB : NameComponent := ⟨.ofBuffer [0x62], .empty⟩

/-- A context that is bound in itself, and an object that is none. -/
def loopServer : NameServer where
  contexts := [((NamingContext.new []).newBinding ⟨nameA, .ncontext, .context []⟩).newBinding
    ⟨nameB, .nobject, .object 0⟩]
  port := 2809
  persistentId := []
  dataFile := []
  startingUp := false
  checkpointNeeded := true

lemma loopServer_ok : loopServer.Ok where
  contexts := by
    intro ctx hctx
    rw [List.mem_singleton.mp hctx]
    exact ((NamingContext.Ok.new []).newBinding rfl).newBinding rfl
  unique := List.nodup_singleton _

/-- `resolve` goes round the loop. -/
theorem compound_names_resolved_stepwise_loop :
    (loopServer.perform (orbWith none) .resolve [] [nameA, nameA, nameB]).1 =
        .ok (some (.object 0)) ∧
      loopServer.Stepwise (orbWith none) .resolve [] [nameA, nameA, nameB] :=
  ⟨rfl, compound_names_resolved_stepwise (orbWith none) loopServer_ok .resolve trivial []
    [nameA, nameA, nameB]⟩

/-- A component that is no context is not reported as one when the object there cannot be asked. -/
theorem compound_name_unanswered :
    loopServer.Ok ∧ ¬ loopServer.BoundAsContext [] nameB ∧
      loopServer.resolve (orbWith (some 1)) [] [nameB] = .ok (.object 0) ∧
      (loopServer.perform (orbWith (some 1)) .resolve [] [nameB, nameA]).1 = .error (.system 1) ∧
      (loopServer.perform (orbWith (some 1)) .resolve [] [nameB, nameA]).1 ≠
        .error (.notFound .notContext [nameB, nameA]) := by
  refine ⟨loopServer_ok, ?_, rfl, rfl, ?_⟩
  · rintro ⟨ctx, ob, hc, hx, htype⟩
    obtain rfl := Option.some.inj hc
    obtain rfl := Option.some.inj hx
    contradiction
  · show Except.error (NamingExn.system 1) ≠ Except.error (.notFound .notContext [nameB, nameA])
    simp

end NameServer

end Naming

end OmniORB
