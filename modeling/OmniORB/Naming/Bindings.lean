import OmniORB.Naming.Contexts

/-!
# What the operations do to the bindings

The bindings of a context are unique by their names, and the linked list of them has its size right.
An operation changes the bindings of one context, or the contexts, as its record says.
-/

namespace OmniORB

open Library

namespace Naming

namespace NamingContext

/-- The bindings in the order of the list. -/
def bindings (ctx : NamingContext) : List ObjectBinding := ctx.list.nodes.map Prod.snd

/-- The list is linked in both directions and knows its size, and no name is bound twice. -/
structure Ok (ctx : NamingContext) : Prop where
  linked : ctx.list.Linked ctx.list.nodes
  unique : (ctx.bindings.map ObjectBinding.bindingName).Nodup

variable {ctx : NamingContext} {x : NameComponent} {b : ObjectBinding} {p : ℕ}

lemma Ok.new (id : ObjectId) : (new id).Ok where
  linked := DoublyLinked.linked_empty
  unique := List.nodup_nil

lemma Ok.size (h : ctx.Ok) : ctx.list.size = ctx.bindings.length := by
  rw [h.linked.size, bindings, List.length_map]

lemma Ok.head_isSome (h : ctx.Ok) : ctx.list.head.isSome ↔ ctx.bindings ≠ [] := by
  rw [h.linked.head, bindings, Option.isSome_iff_ne_none, ne_eq, DoublyLinked.first_eq_none, ne_eq,
    List.map_eq_nil_iff]

lemma resolveSimple_eq_none : ctx.resolveSimple x = none ↔ ∀ b ∈ ctx.bindings, b.bindingName ≠ x := by
  rw [resolveSimple, List.find?_eq_none, bindings, List.forall_mem_map]
  simp only [decide_eq_true_eq]

/-- The binding that `resolve_simple` finds, among the others. -/
lemma nodes_of_resolveSimple (h : ctx.resolveSimple x = some (p, b)) :
    b.bindingName = x ∧ ∃ l1 l2, ctx.list.nodes = l1 ++ (p, b) :: l2 := by
  obtain ⟨hname, l1, l2, hnodes, -⟩ := List.find?_eq_some_iff_append.mp h
  exact ⟨of_decide_eq_true hname, l1, l2, hnodes⟩

lemma mem_of_resolveSimple (h : ctx.resolveSimple x = some (p, b)) :
    b ∈ ctx.bindings ∧ b.bindingName = x := by
  obtain ⟨hname, l1, l2, hnodes⟩ := nodes_of_resolveSimple h
  refine ⟨?_, hname⟩
  rw [bindings, hnodes]
  simp

/-! ### A new binding -/

lemma Ok.newBinding_nodes (h : ctx.Ok) (b : ObjectBinding) :
    (ctx.newBinding b).list.nodes = ctx.list.nodes ++ [(ctx.list.allocated, b)] :=
  (h.linked.insert_none b).nodes_eq

lemma Ok.newBinding_bindings (h : ctx.Ok) (b : ObjectBinding) :
    (ctx.newBinding b).bindings = ctx.bindings ++ [b] := by
  rw [bindings, h.newBinding_nodes, List.map_append]
  rfl

lemma Ok.newBinding (h : ctx.Ok) (hfree : ctx.resolveSimple b.bindingName = none) :
    (ctx.newBinding b).Ok where
  linked := by
    rw [h.newBinding_nodes]
    exact h.linked.insert_none b
  unique := by
    rw [h.newBinding_bindings, List.map_append]
    refine h.unique.append (List.nodup_singleton _) ?_
    intro n hn hb
    obtain ⟨b', hb', rfl⟩ := List.mem_map.mp hn
    exact resolveSimple_eq_none.mp hfree b' hb' (List.mem_singleton.mp hb)

/-! ### A binding goes -/

lemma Ok.deleteBinding_nodes {l1 l2 : List (ℕ × ObjectBinding)} (h : ctx.Ok)
    (hnodes : ctx.list.nodes = l1 ++ (p, b) :: l2) :
    (ctx.deleteBinding p).list.nodes = l1 ++ l2 ∧ (ctx.deleteBinding p).list.Linked (l1 ++ l2) := by
  have hlinked := h.linked
  rw [hnodes] at hlinked
  exact ⟨hlinked.remove.nodes_eq, hlinked.remove⟩

/-- The bindings that are left are those with other names. -/
lemma Ok.deleteBinding_bindings (h : ctx.Ok) (hx : ctx.resolveSimple x = some (p, b)) :
    (ctx.deleteBinding p).bindings = ctx.bindings.filter fun b => b.bindingName ≠ x := by
  obtain ⟨rfl, l1, l2, hnodes⟩ := nodes_of_resolveSimple hx
  have hunique := h.unique
  rw [bindings, hnodes, List.map_append, List.map_cons, List.map_append, List.map_cons,
    List.nodup_middle, List.nodup_cons, List.mem_append, not_or] at hunique
  have hkeep : ∀ l : List ObjectBinding, b.bindingName ∉ l.map ObjectBinding.bindingName →
      l.filter (fun b' => b'.bindingName ≠ b.bindingName) = l := by
    intro l hl
    rw [List.filter_eq_self]
    intro b' hb'
    exact decide_eq_true fun heq => hl (heq ▸ List.mem_map_of_mem hb')
  rw [bindings, (h.deleteBinding_nodes hnodes).1, bindings, hnodes, List.map_append, List.map_append,
    List.map_cons, List.filter_append, List.filter_cons_of_neg (by simp), hkeep _ hunique.1.1,
    hkeep _ hunique.1.2]

lemma Ok.deleteBinding (h : ctx.Ok) (hx : ctx.resolveSimple x = some (p, b)) :
    (ctx.deleteBinding p).Ok where
  linked := by
    obtain ⟨-, l1, l2, hnodes⟩ := nodes_of_resolveSimple hx
    obtain ⟨hleft, hlinked⟩ := h.deleteBinding_nodes hnodes
    rwa [hleft]
  unique := by
    rw [h.deleteBinding_bindings hx]
    exact h.unique.sublist (List.filter_sublist.map _)

end NamingContext

/-! ### The contexts of a server -/

/-- The contexts in their order, each with its bindings. -/
abbrev Contents := List (ObjectId × List ObjectBinding)

/-- What a record of the data file says. -/
inductive Record where
  | create (id : ObjectId)
  | destroy (c : ObjectId)
  | bind (c : ObjectId) (b : ObjectBinding)
  | unbind (c : ObjectId) (x : NameComponent)

/-- The bindings of one context are changed. -/
def Contents.modify (l : Contents) (c : ObjectId) (g : List ObjectBinding → List ObjectBinding) :
    Contents :=
  l.map fun e => if e.1 = c then (e.1, g e.2) else e

/-- What happens to the contexts as the record says. A name that is bound again goes to the end. -/
def Record.apply : Record → Contents → Contents
  | .create id, l => l ++ [(id, [])]
  | .destroy c, l => l.filter fun e => e.1 ≠ c
  | .bind c b, l => l.modify c fun bs => (bs.filter fun b' => b'.bindingName ≠ b.bindingName) ++ [b]
  | .unbind c x, l => l.modify c fun bs => bs.filter fun b => b.bindingName ≠ x

/-- The record can be followed: the context is there, and the name is bound that is unbound. -/
def Record.Valid : Record → Contents → Prop
  | .create id, l => ∀ e ∈ l, e.1 ≠ id
  | .destroy c, l => (c, []) ∈ l
  | .bind c _, l => ∃ bs, (c, bs) ∈ l
  | .unbind c x, l => ∃ bs, (c, bs) ∈ l ∧ ∃ b ∈ bs, b.bindingName = x

/-- The line of the data file. -/
def Record.text (orb : Orb) : Record → List UInt8
  | .create id => putCreate id
  | .destroy c => putDestroy orb (.context c)
  | .bind c b => putBind orb (.context c) b.bindingName b.object b.bindingType
  | .unbind c x => putUnbind orb (.context c) x

namespace NameServer

def contents (s : NameServer) : Contents := s.contexts.map fun ctx => (ctx.id, ctx.bindings)

/-- Each context is as it should be, and there are no two with the same id. -/
structure Ok (s : NameServer) : Prop where
  contexts : ∀ ctx ∈ s.contexts, ctx.Ok
  unique : (s.contexts.map NamingContext.id).Nodup

variable {s : NameServer} {c : ObjectId} {ctx : NamingContext} {x : NameComponent}

lemma mem_of_context (h : s.context c = some ctx) : ctx ∈ s.contexts ∧ ctx.id = c := by
  have hid := List.find?_some h
  exact ⟨List.mem_of_find?_eq_some h, of_decide_eq_true hid⟩

lemma Ok.context (h : s.Ok) (hc : s.context c = some ctx) : ctx.Ok :=
  h.contexts ctx (mem_of_context hc).1

lemma Ok.eq_of_context (h : s.Ok) (hc : s.context c = some ctx) {ctx' : NamingContext}
    (hmem : ctx' ∈ s.contexts) (hid : ctx'.id = c) : ctx' = ctx :=
  List.inj_on_of_nodup_map h.unique hmem (mem_of_context hc).1
    (hid.trans (mem_of_context hc).2.symm)

lemma context_eq_none : s.context c = none ↔ ∀ ctx ∈ s.contexts, ctx.id ≠ c := by
  rw [NameServer.context, List.find?_eq_none]
  simp only [decide_eq_true_eq, ne_eq]

lemma Ok.context_of_mem (h : s.Ok) (hmem : ctx ∈ s.contexts) : s.context ctx.id = some ctx := by
  rcases hc : s.context ctx.id with - | ctx'
  · exact absurd rfl (context_eq_none.mp hc ctx hmem)
  · rw [h.eq_of_context hc hmem rfl]

/-- The contexts do not depend on the rest of the state. -/
lemma Ok.congr (h : s.Ok) {s' : NameServer} (hs : s'.contexts = s.contexts) : s'.Ok where
  contexts := by
    rw [hs]
    exact h.contexts
  unique := by
    rw [hs]
    exact h.unique

lemma setContext_contents (f : NamingContext → NamingContext)
    (g : List ObjectBinding → List ObjectBinding) (h : s.Ok) (hc : s.context c = some ctx)
    (hid : (f ctx).id = ctx.id) (hg : (f ctx).bindings = g ctx.bindings) :
    (s.setContext c f).contents = s.contents.modify c g := by
  show ((s.contexts.map _).map _) = (s.contexts.map _).map _
  rw [List.map_map, List.map_map]
  apply List.map_congr_left
  intro ctx' hmem
  simp only [Function.comp_apply]
  split_ifs with heq
  · obtain rfl := h.eq_of_context hc hmem heq
    rw [hid, hg]
  · rfl

lemma Ok.setContext {f : NamingContext → NamingContext} (h : s.Ok) (hc : s.context c = some ctx)
    (hid : (f ctx).id = ctx.id) (hok : (f ctx).Ok) : (s.setContext c f).Ok where
  contexts := by
    intro ctx1 hmem
    obtain ⟨ctx', hmem', rfl⟩ := List.mem_map.mp hmem
    split_ifs with heq
    · rw [h.eq_of_context hc hmem' heq]
      exact hok
    · exact h.contexts ctx' hmem'
  unique := by
    have hids : (s.setContext c f).contexts.map NamingContext.id =
        s.contexts.map NamingContext.id := by
      show ((s.contexts.map _).map _) = _
      rw [List.map_map]
      apply List.map_congr_left
      intro ctx' hmem
      rw [Function.comp_apply]
      split_ifs with heq
      · rw [h.eq_of_context hc hmem heq, hid]
      · rfl
    rw [hids]
    exact h.unique

/-! ### Writing to the file -/

lemma log_contexts (s : NameServer) (record : List UInt8) (w : Write) :
    (s.log record w).2.contexts = s.contexts := by
  unfold log
  split
  · rfl
  · cases w <;> rfl

lemma log_contents (s : NameServer) (record : List UInt8) (w : Write) :
    (s.log record w).2.contents = s.contents := by
  rw [contents, log_contexts]
  rfl

lemma log_context (s : NameServer) (record : List UInt8) (w : Write) (c : ObjectId) :
    (s.log record w).2.context c = s.context c := by
  rw [NameServer.context, log_contexts]
  rfl

lemma Ok.log (h : s.Ok) (record : List UInt8) (w : Write) : (s.log record w).2.Ok :=
  h.congr (log_contexts s record w)

end NameServer

/-! ### The effect of an operation -/

namespace NamingContext

variable {ctx : NamingContext} {x : NameComponent} {b : ObjectBinding}

lemma replace_id (ctx : NamingContext) (ob : Option (ℕ × ObjectBinding)) (b : ObjectBinding) :
    (ctx.replace ob b).id = ctx.id := by
  cases ob <;> rfl

/-- What is left when the binding found has gone, if there was one. -/
lemma Ok.without (h : ctx.Ok) (x : NameComponent) :
    ((ctx.resolveSimple x).elim ctx fun ob => ctx.deleteBinding ob.1).Ok ∧
      ((ctx.resolveSimple x).elim ctx fun ob => ctx.deleteBinding ob.1).bindings =
        ctx.bindings.filter fun b => b.bindingName ≠ x := by
  rcases hx : ctx.resolveSimple x with - | ⟨p, b⟩
  · have hall : ∀ b ∈ ctx.bindings, decide (b.bindingName ≠ x) = true :=
      fun b hb => decide_eq_true (resolveSimple_eq_none.mp hx b hb)
    exact ⟨h, (List.filter_eq_self.mpr hall).symm⟩
  · exact ⟨h.deleteBinding hx, h.deleteBinding_bindings hx⟩

lemma Ok.replace_bindings (h : ctx.Ok) (b : ObjectBinding) :
    (ctx.replace (ctx.resolveSimple b.bindingName) b).bindings =
      (ctx.bindings.filter fun b' => b'.bindingName ≠ b.bindingName) ++ [b] := by
  obtain ⟨hok, hbindings⟩ := h.without b.bindingName
  rw [replace, hok.newBinding_bindings, hbindings]

lemma Ok.replace (h : ctx.Ok) (b : ObjectBinding) :
    (ctx.replace (ctx.resolveSimple b.bindingName) b).Ok := by
  obtain ⟨hok, hbindings⟩ := h.without b.bindingName
  apply hok.newBinding
  rw [resolveSimple_eq_none, hbindings]
  exact fun b' hb' => of_decide_eq_true (List.mem_filter.mp hb').2

end NamingContext

namespace NameServer

variable {s s' : NameServer} {c id : ObjectId} {ctx : NamingContext} {x : NameComponent} {orb : Orb}
  {w : Write}

/-- What an operation that writes the record `r` may come to: nothing is changed, the record could not
be written, or it is written and the contexts are changed as it says. -/
inductive Effect {α : Type} (orb : Orb) (s : NameServer) (w : Write) (r : Record) :
    Except NamingExn α × NameServer → Prop
  | refused (e : NamingExn) (he : e ≠ .persistStore) : Effect orb s w r (.error e, s)
  | unwritten (s1 : NameServer) (hlog : s.log (r.text orb) w = (false, s1)) :
    Effect orb s w r (.error .persistStore, s1)
  | logged (s1 : NameServer) (a : α) (contexts : List NamingContext)
    (hlog : s.log (r.text orb) w = (true, s1)) (hvalid : r.Valid s.contents)
    (hcontents : ({ s1 with contexts := contexts } : NameServer).contents = r.apply s.contents)
    (hok : ({ s1 with contexts := contexts } : NameServer).Ok) :
    Effect orb s w r (.ok a, { s1 with contexts := contexts })

lemma Effect.ok {α : Type} {a : Except NamingExn α × NameServer} {r : Record}
    (h : Effect orb s w r a) (hs : s.Ok) : a.2.Ok := by
  cases h with
  | refused e he => exact hs
  | unwritten s1 hlog =>
    have hok := hs.log (r.text orb) w
    rwa [hlog] at hok
  | logged s1 a contexts hlog hvalid hcontents hok => exact hok

lemma mem_contents (hc : s.context c = some ctx) : (c, ctx.bindings) ∈ s.contents := by
  obtain ⟨hmem, rfl⟩ := mem_of_context hc
  exact List.mem_map_of_mem hmem

/-- What has been written has the state of the contexts unchanged. -/
lemma log_spec {record : List UInt8} {written : Bool} {s1 : NameServer}
    (hlog : s.log record w = (written, s1)) : s1.contexts = s.contexts := by
  rw [← log_contexts s record w, hlog]

lemma context_ne_persistStore {ob : ObjectBinding} {n : Name} {e : NamingExn}
    (h : ob.context orb n = .error e) : e ≠ .persistStore := by
  rintro rfl
  rw [ObjectBinding.context] at h
  split at h
  case h_1 => simp at h
  case h_2 => simp at h
  case h_3 => split_ifs at h; simp at h

/-- `resolve_compound` raises no `PERSIST_STORE`. -/
lemma resolveCompound_ne_persistStore {n : Name} {e : NamingExn}
    (h : s.resolveCompound orb c n = .error e) : e ≠ .persistStore := by
  rw [resolveCompound] at h
  split at h
  case h_1 => exact Except.error.inj h ▸ (by simp)
  case h_2 ctx hctx =>
    split at h
    case h_1 => exact Except.error.inj h ▸ (by simp)
    case h_2 x rest =>
      split at h
      case h_1 => exact Except.error.inj h ▸ (by simp)
      case h_2 p ob hob => exact context_ne_persistStore h

lemma resolveCompound_nil (c : ObjectId) {c' : ObjectId} :
    s.resolveCompound orb c [] ≠ .ok c' := by
  rw [resolveCompound]
  cases s.context c <;> simp

lemma bindSimple_effect (hs : s.Ok) (hc : s.context c = some ctx) (obj : ObjectRef)
    (t : BindingType) (rebind : Bool) :
    Effect orb s w (.bind c ⟨x, t, obj⟩) (s.bindSimple orb c ctx x obj t rebind w) := by
  rw [bindSimple]
  split_ifs with hbound
  · exact .refused _ (by simp)
  · rcases hlog : s.log (putBind orb (.context c) x obj t) w with ⟨written, s1⟩
    have hcontexts := log_spec hlog
    have hcontents : s1.contents = s.contents := by rw [contents, hcontexts]; rfl
    have hs1 : s1.Ok := hs.congr hcontexts
    have hc1 : s1.context c = some ctx := by rw [NameServer.context, hcontexts]; exact hc
    cases written with
    | false => exact .unwritten s1 hlog
    | true =>
      refine .logged s1 () _ hlog ⟨ctx.bindings, mem_contents hc⟩ ?_ ?_
      · rw [← hcontents]
        exact setContext_contents (fun ctx' => ctx'.replace (ctx.resolveSimple x) ⟨x, t, obj⟩)
          (fun bs => (bs.filter fun b' => b'.bindingName ≠ x) ++ [⟨x, t, obj⟩]) hs1 hc1
          (ctx.replace_id _ _) ((hs.context hc).replace_bindings ⟨x, t, obj⟩)
      · exact hs1.setContext hc1 (ctx.replace_id _ _) ((hs.context hc).replace ⟨x, t, obj⟩)

lemma unbindSimple_effect (hs : s.Ok) (hc : s.context c = some ctx) :
    Effect orb s w (.unbind c x) (s.unbindSimple orb c ctx x w) := by
  rw [unbindSimple]
  rcases hx : ctx.resolveSimple x with - | ⟨p, b⟩
  · exact .refused _ (by simp)
  · rcases hlog : s.log (putUnbind orb (.context c) x) w with ⟨written, s1⟩
    have hcontexts := log_spec hlog
    have hcontents : s1.contents = s.contents := by rw [contents, hcontexts]; rfl
    have hs1 : s1.Ok := hs.congr hcontexts
    have hc1 : s1.context c = some ctx := by rw [NameServer.context, hcontexts]; exact hc
    simp only
    cases written with
    | false => exact .unwritten s1 hlog
    | true =>
      obtain ⟨hmem, hname⟩ := NamingContext.mem_of_resolveSimple hx
      refine .logged s1 () _ hlog ⟨ctx.bindings, mem_contents hc, b, hmem, hname⟩ ?_ ?_
      · rw [← hcontents]
        exact setContext_contents (fun ctx' => ctx'.deleteBinding p)
          (fun bs => bs.filter fun b => b.bindingName ≠ x) hs1 hc1 rfl
          ((hs.context hc).deleteBinding_bindings hx)
      · exact hs1.setContext hc1 rfl ((hs.context hc).deleteBinding hx)

lemma newNamingContext_effect (hs : s.Ok) (hfree : s.context id = none) :
    Effect orb s w (.create id) (s.newNamingContext id w) := by
  rw [newNamingContext]
  rcases hlog : s.log (putCreate id) w with ⟨written, s1⟩
  have hcontexts := log_spec hlog
  cases written with
  | false => exact .unwritten s1 hlog
  | true =>
    have hvalid : (Record.create id).Valid s.contents := by
      intro e he
      obtain ⟨ctx, hctx, rfl⟩ := List.mem_map.mp he
      exact context_eq_none.mp hfree ctx hctx
    refine .logged s1 (ObjectRef.context id) _ hlog hvalid ?_ ?_
    · show (s1.contexts ++ [NamingContext.new id]).map _ = _
      rw [List.map_append, hcontexts]
      rfl
    · constructor
      case contexts =>
        intro ctx hctx
        rcases List.mem_append.mp hctx with hold | hnew
        · exact hs.contexts ctx (hcontexts ▸ hold)
        · rw [List.mem_singleton.mp hnew]
          exact .new id
      case unique =>
        show ((s1.contexts ++ [NamingContext.new id]).map NamingContext.id).Nodup
        rw [List.map_append, hcontexts]
        refine hs.unique.append (List.nodup_singleton _) ?_
        intro id' hold hnew
        obtain ⟨ctx, hctx, rfl⟩ := List.mem_map.mp hold
        exact context_eq_none.mp hfree ctx hctx (List.mem_singleton.mp hnew)

lemma newContext_effect (hs : s.Ok) (hfree : s.context id = none) :
    Effect orb s w (.create id) (s.newContext c id w) := by
  rw [newContext]
  rcases hc : s.context c with - | ctx
  · exact .refused _ (by simp)
  · exact newNamingContext_effect hs hfree

lemma destroy_effect (hs : s.Ok) : Effect orb s w (.destroy c) (s.destroy orb c w) := by
  rw [destroy]
  rcases hc : s.context c with - | ctx
  · exact .refused _ (by simp)
  · simp only
    split_ifs with hhead
    · exact .refused _ (by simp)
    · rcases hlog : s.log (putDestroy orb (.context c)) w with ⟨written, s1⟩
      have hcontexts := log_spec hlog
      cases written with
      | false => exact .unwritten s1 hlog
      | true =>
        have hmem := mem_contents hc
        have hempty : ctx.bindings = [] := by
          by_contra hne
          exact hhead ((hs.context hc).head_isSome.mpr hne)
        rw [hempty] at hmem
        refine .logged s1 () _ hlog hmem ?_ ?_
        · show (s1.contexts.filter _).map _ = (s.contexts.map _).filter _
          rw [hcontexts, List.filter_map]
          rfl
        · constructor
          case contexts =>
            intro ctx' hctx'
            exact hs.contexts ctx' (hcontexts ▸ (List.mem_filter.mp hctx').1)
          case unique =>
            have hsub : ((s1.contexts.filter fun ctx => ctx.id ≠ c).map NamingContext.id).Sublist
                (s.contexts.map NamingContext.id) := by
              rw [← hcontexts]
              exact List.filter_sublist.map _
            exact hs.unique.sublist hsub

/-- The component is one of the name, or there is none. -/
def Named (n : Name) (x : NameComponent) : Prop := x ∈ n ∨ x = ⟨.empty, .empty⟩

lemma Named.cons {n : Name} (h : Named n x) (y : NameComponent) : Named (y :: n) x :=
  h.imp_left (List.mem_cons_of_mem y)

/-- `bind_helper`, for a name of any length. -/
theorem bindHelper_effect (orb : Orb) (hs : s.Ok) (obj : ObjectRef) (t : BindingType) (rebind : Bool)
    (w : Write) (c : ObjectId) (n : Name) :
    ∃ d x, Named n x ∧ Effect orb s w (.bind d ⟨x, t, obj⟩) (s.bindHelper orb obj t rebind w c n) := by
  induction n generalizing c with
  | nil =>
    rw [bindHelper]
    rcases hr : s.resolveCompound orb c [] with e | context
    · exact ⟨c, _, Or.inr rfl, .refused e (resolveCompound_ne_persistStore hr)⟩
    · exact absurd hr (resolveCompound_nil c)
  | cons x rest ih =>
    have hx : Named (x :: rest) x := Or.inl List.mem_cons_self
    cases rest with
    | nil =>
      rw [bindHelper]
      rcases hc : s.context c with - | ctx
      · exact ⟨c, x, hx, .refused _ (by simp)⟩
      · exact ⟨c, x, hx, bindSimple_effect hs hc obj t rebind⟩
    | cons y rest =>
      rw [bindHelper]
      rcases hr : s.resolveCompound orb c (x :: y :: rest) with e | context
      · exact ⟨c, x, hx, .refused e (resolveCompound_ne_persistStore hr)⟩
      · obtain ⟨d, z, hz, h⟩ := ih context
        exact ⟨d, z, hz.cons x, h⟩

theorem unbind_effect (orb : Orb) (hs : s.Ok) (w : Write) (c : ObjectId) (n : Name) :
    ∃ d x, Named n x ∧ Effect orb s w (.unbind d x) (s.unbind orb w c n) := by
  induction n generalizing c with
  | nil =>
    rw [unbind]
    rcases hr : s.resolveCompound orb c [] with e | context
    · exact ⟨c, _, Or.inr rfl, .refused e (resolveCompound_ne_persistStore hr)⟩
    · exact absurd hr (resolveCompound_nil c)
  | cons x rest ih =>
    have hx : Named (x :: rest) x := Or.inl List.mem_cons_self
    cases rest with
    | nil =>
      rw [unbind]
      rcases hc : s.context c with - | ctx
      · exact ⟨c, x, hx, .refused _ (by simp)⟩
      · exact ⟨c, x, hx, unbindSimple_effect hs hc⟩
    | cons y rest =>
      rw [unbind]
      rcases hr : s.resolveCompound orb c (x :: y :: rest) with e | context
      · exact ⟨c, x, hx, .refused e (resolveCompound_ne_persistStore hr)⟩
      · obtain ⟨d, z, hz, h⟩ := ih context
        exact ⟨d, z, hz.cons x, h⟩

/-- A new context and its binding, one after the other; where the binding fails, the context goes. -/
inductive BindNewEffect (orb : Orb) (s : NameServer) (id : ObjectId) (create bind destroy : Write)
    (n : Name) : Except NamingExn ObjectRef × NameServer → Prop
  | notCreated (e : NamingExn) (s1 : NameServer)
    (hnew : Effect (α := ObjectRef) orb s create (.create id) (.error e, s1)) :
    BindNewEffect orb s id create bind destroy n (.error e, s1)
  | bound (c : ObjectId) (x : NameComponent) (nc : ObjectRef) (s1 s2 : NameServer) (hx : Named n x)
    (hnew : Effect orb s create (.create id) (.ok nc, s1))
    (hbind : Effect orb s1 bind (.bind c ⟨x, .ncontext, .context id⟩) (.ok (), s2)) :
    BindNewEffect orb s id create bind destroy n (.ok nc, s2)
  | destroyed (c : ObjectId) (x : NameComponent) (nc : ObjectRef) (e : NamingExn)
    (s1 s2 s3 : NameServer) (hx : Named n x)
    (hnew : Effect orb s create (.create id) (.ok nc, s1))
    (hbind : Effect (α := Unit) orb s1 bind (.bind c ⟨x, .ncontext, .context id⟩) (.error e, s2))
    (hdestroy : Effect orb s2 destroy (.destroy id) (.ok (), s3)) :
    BindNewEffect orb s id create bind destroy n (.error e, s3)
  | left (c : ObjectId) (x : NameComponent) (nc : ObjectRef) (e e' : NamingExn)
    (s1 s2 s3 : NameServer) (hx : Named n x)
    (hnew : Effect orb s create (.create id) (.ok nc, s1))
    (hbind : Effect (α := Unit) orb s1 bind (.bind c ⟨x, .ncontext, .context id⟩) (.error e, s2))
    (hdestroy : Effect (α := Unit) orb s2 destroy (.destroy id) (.error e', s3)) :
    BindNewEffect orb s id create bind destroy n (.error e', s3)

lemma BindNewEffect.cons {create bind destroy : Write} {n : Name}
    {a : Except NamingExn ObjectRef × NameServer} (h : BindNewEffect orb s id create bind destroy n a)
    (y : NameComponent) : BindNewEffect orb s id create bind destroy (y :: n) a := by
  cases h with
  | notCreated e s1 hnew => exact .notCreated e s1 hnew
  | bound c x nc s1 s2 hx hnew hbind => exact .bound c x nc s1 s2 (hx.cons y) hnew hbind
  | destroyed c x nc e s1 s2 s3 hx hnew hbind hdestroy =>
    exact .destroyed c x nc e s1 s2 s3 (hx.cons y) hnew hbind hdestroy
  | left c x nc e e' s1 s2 s3 hx hnew hbind hdestroy =>
    exact .left c x nc e e' s1 s2 s3 (hx.cons y) hnew hbind hdestroy

/-- The reference to a new context. -/
lemma newContext_eq_ok {nc : ObjectRef} {s1 : NameServer} (h : s.newContext c id w = (.ok nc, s1)) :
    nc = .context id := by
  rw [newContext] at h
  rcases hc : s.context c with - | ctx
  · rw [hc] at h
    exact absurd (congrArg Prod.fst h) (by simp)
  · rw [hc] at h
    simp only [newNamingContext] at h
    rcases hlog : s.log (putCreate id) w with ⟨written, s2⟩
    rw [hlog] at h
    cases written with
    | false => exact absurd (congrArg Prod.fst h) (by simp)
    | true => exact (Except.ok.inj (congrArg Prod.fst h)).symm

lemma bindNewSimple_effect {create bind destroy : Write} (hs : s.Ok) (hfree : s.context id = none) :
    BindNewEffect orb s id create bind destroy [x]
      (s.bindNewSimple orb id create bind destroy c x) := by
  have hnew : Effect orb s create (.create id) (s.newContext c id create) := newContext_effect hs hfree
  rw [bindNewSimple]
  rcases hr1 : s.newContext c id create with ⟨e | nc, s1⟩
  · rw [hr1] at hnew
    exact .notCreated e s1 hnew
  · obtain rfl := newContext_eq_ok hr1
    rw [hr1] at hnew
    have hs1 : s1.Ok := hnew.ok hs
    obtain ⟨d, y, hy, hbind⟩ := bindHelper_effect orb hs1 (.context id) .ncontext false bind c [x]
    simp only
    rcases hr2 : s1.bindContext orb c [x] (.context id) bind with ⟨e | _, s2⟩
    · rw [← bindContext, hr2] at hbind
      have hs2 : s2.Ok := hbind.ok hs1
      have hdestroy : Effect orb s2 destroy (.destroy id) (s2.destroy orb id destroy) :=
        destroy_effect hs2
      simp only
      rcases hr3 : s2.destroy orb id destroy with ⟨e' | _, s3⟩
      · rw [hr3] at hdestroy
        exact .left d y (.context id) e e' s1 s2 s3 hy hnew hbind hdestroy
      · rw [hr3] at hdestroy
        exact .destroyed d y (.context id) e s1 s2 s3 hy hnew hbind hdestroy
    · rw [← bindContext, hr2] at hbind
      exact .bound d y (.context id) s1 s2 hy hnew hbind

theorem bindNewContext_effect (orb : Orb) (hs : s.Ok) (hfree : s.context id = none)
    (create bind destroy : Write) (c : ObjectId) (n : Name) :
    BindNewEffect orb s id create bind destroy n
      (s.bindNewContext orb id create bind destroy c n) := by
  induction n generalizing c with
  | nil =>
    rw [bindNewContext]
    rcases hr : s.resolveCompound orb c [] with e | context
    · exact .notCreated e s (.refused e (resolveCompound_ne_persistStore hr))
    · exact absurd hr (resolveCompound_nil c)
  | cons x rest ih =>
    cases rest with
    | nil => exact bindNewSimple_effect hs hfree
    | cons y rest =>
      rw [bindNewContext]
      rcases hr : s.resolveCompound orb c (x :: y :: rest) with e | context
      · exact .notCreated e s (.refused e (resolveCompound_ne_persistStore hr))
      · exact (ih context).cons x

lemma BindNewEffect.ok {create bind destroy : Write} {n : Name}
    {a : Except NamingExn ObjectRef × NameServer} (h : BindNewEffect orb s id create bind destroy n a)
    (hs : s.Ok) : a.2.Ok := by
  cases h with
  | notCreated e s1 hnew => exact hnew.ok hs
  | bound c x nc s1 s2 hx hnew hbind => exact hbind.ok (hnew.ok hs)
  | destroyed c x nc e s1 s2 s3 hx hnew hbind hdestroy =>
    exact hdestroy.ok (hbind.ok (hnew.ok hs))
  | left c x nc e e' s1 s2 s3 hx hnew hbind hdestroy =>
    exact hdestroy.ok (hbind.ok (hnew.ok hs))

end NameServer

end Naming

end OmniORB
