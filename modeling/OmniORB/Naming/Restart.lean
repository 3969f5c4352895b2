import OmniORB.Naming.Replay

/-!
# Restarting omniNames

Whole runs of operations, checkpoints and restarts, with writes that fail. What is read back from the data
file is what is in memory.
-/

namespace OmniORB

open Library

namespace Naming

/-- What happens to omniNames. -/
inductive NamingAction where
  | request (q : NamingRequest) (c : ObjectId) (n : Name)
  | newContext (c id : ObjectId) (w : Write)
  | destroy (c : ObjectId) (w : Write)
  | checkpoint
  | restart

/-- All writes of the action are done. -/
def NamingAction.Written : NamingAction → Prop
  | .request (.bind _ w) _ _ | .request (.rebind _ w) _ _ | .request (.bindContext _ w) _ _
  | .request (.rebindContext _ w) _ _ | .request (.unbind w) _ _ => w = .done
  | .request (.bindNewContext _ w1 w2 w3) _ _ => w1 = .done ∧ w2 = .done ∧ w3 = .done
  | .newContext _ _ w | .destroy _ w => w = .done
  | _ => True

/-- A write that leaves nothing in the file when it fails. -/
def Write.Harmless : Write → Prop
  | .done => True
  | .failed octets => octets = 0

instance : DecidablePred Write.Harmless := fun
  | .done => isTrue trivial
  | .failed octets => inferInstanceAs (Decidable (octets = 0))

/-- The names and references of an action are read back as they are written: they are short, and what is
bound as a context is one. -/
def NamingAction.Legibly (orb : Orb) : NamingAction → Prop
  | .request (.bind obj _) _ n | .request (.rebind obj _) _ n => (∀ x ∈ n, Short x) ∧ orb.Short obj
  | .request (.bindContext nc _) _ n | .request (.rebindContext nc _) _ n =>
    (∀ x ∈ n, Short x) ∧ orb.Short nc ∧ nc.IsContext
  | .request (.bindNewContext id _ _ _) _ n => (∀ x ∈ n, Short x) ∧ orb.Short (.context id)
  | .request (.unbind _) _ n => ∀ x ∈ n, Short x
  | .newContext _ id _ => orb.Short (.context id)
  | _ => True

namespace NameServer

/-- The ids of `new_context` have 12 octets, and no context is activated with a new one. -/
def Possible (s : NameServer) : NamingAction → Prop
  | .request (.bindNewContext id _ _ _) _ _ => id.length = 12 ∧ s.context id = none
  | .newContext _ id _ => id.length = 12 ∧ s.context id = none
  | _ => True

instance (s : NameServer) : DecidablePred s.Possible := fun
  | .request (.bindNewContext id _ _ _) _ _ =>
    inferInstanceAs (Decidable (id.length = 12 ∧ s.context id = none))
  | .newContext _ id _ => inferInstanceAs (Decidable (id.length = 12 ∧ s.context id = none))
  | .request .resolve _ _ => isTrue trivial
  | .request (.bind _ _) _ _ => isTrue trivial
  | .request (.rebind _ _) _ _ => isTrue trivial
  | .request (.bindContext _ _) _ _ => isTrue trivial
  | .request (.rebindContext _ _) _ _ => isTrue trivial
  | .request (.unbind _) _ _ => isTrue trivial
  | .destroy _ _ => isTrue trivial
  | .checkpoint => isTrue trivial
  | .restart => isTrue trivial

variable (orb : Orb)

def act (s : NameServer) : NamingAction → Except NamingExn (Option ObjectRef) × NameServer
  | .request q c n => s.perform orb q c n
  | .newContext c nc w => (s.newContext c nc w).map (Except.map some) id
  | .destroy c w => (s.destroy orb c w).map (Except.map fun _ => none) id
  | .checkpoint => (.ok none, s.checkpoint orb)
  | .restart => (.ok none, (init orb s.port s.dataFile).1)

/-- A step of a run: an operation that succeeds, or one that raises `PERSIST_STORE`. The others change
nothing, or are no business of a client. -/
def step (s : NameServer) (a : NamingAction) : Option NameServer :=
  if s.Possible a then
    match s.act orb a with
    | (.ok _, s') => some s'
    | (.error .persistStore, s') => some s'
    | (.error _, _) => none
  else none

/-- Starting for the first time. -/
def start (port : ℕ) (persistentId : ObjectId) : NameServer :=
  (init orb port (initialFile port persistentId)).1

/-- The record of a binding gets to the file as a whole, and says what is so already: the name is the
last one in its context, with the same binding. -/
def Repeats (s : NameServer) (obj : ObjectRef) (t : BindingType) (w : Write) (c : ObjectId)
    (n : Name) : Prop :=
  ∃ lead x d ctx octets, n = lead ++ [x] ∧ s.Leads orb c lead d ∧ s.context d = some ctx ∧
    ctx.bindings.getLast? = some ⟨x, t, obj⟩ ∧ w = .failed octets ∧
    (putBind orb (.context d) x obj t).length ≤ octets

/-- Writes that fail leave nothing in the file, and the one that takes back a new context does not
fail. -/
def FailsHarmlessly (s : NameServer) : NamingAction → Prop
  | .request (.bind _ w) _ _ | .request (.bindContext _ w) _ _ | .request (.unbind w) _ _ => w.Harmless
  | .request (.rebind obj w) c n => w.Harmless ∨ s.Repeats orb obj .nobject w c n
  | .request (.rebindContext nc w) c n => w.Harmless ∨ s.Repeats orb nc .ncontext w c n
  | .request (.bindNewContext _ create bind destroy) _ _ =>
    create.Harmless ∧ bind.Harmless ∧ destroy = .done
  | .newContext _ _ w | .destroy _ w => w.Harmless
  | _ => True

/-! ### The file and the memory -/

/-- The file is a legible history of what is in memory. -/
structure Recorded (s : NameServer) : Prop where
  ok : s.Ok
  startingUp : s.startingUp = false
  persistentId : s.persistentId.length < 2 ^ 29
  file : ∃ rs, s.dataFile = header s.port s.persistentId ++ lines orb rs ∧ Legible orb [] rs ∧
    applyAll [] rs = s.contents

variable {orb} {s s' : NameServer} {r : Record} {w : Write}

lemma Recorded.readable (h : s.Recorded orb) : s.contents.Readable orb := by
  obtain ⟨rs, -, hrs, hcontents⟩ := h.file
  rw [← hcontents]
  exact hrs.readable fun _ h => absurd h List.not_mem_nil

/-- What writing a record comes to when omniNames has started. -/
lemma log_cases (hup : s.startingUp = false) (record : List UInt8) (w : Write) :
    (w = .done ∧
      s.log record w = (true, { s with dataFile := s.dataFile ++ record, checkpointNeeded := true })) ∨
    ∃ k, w = .failed k ∧
      s.log record w = (false, { s with dataFile := s.dataFile ++ record.take k }) := by
  unfold log
  rw [hup, if_neg Bool.false_ne_true]
  cases w with
  | done => exact Or.inl ⟨rfl, rfl⟩
  | failed k => exact Or.inr ⟨k, rfl, rfl⟩

/-- A record that is written and followed. -/
lemma Recorded.logged {α : Type} {a : α} (h : s.Recorded orb)
    (heffect : Effect orb s w r ((.ok a, s') : Except NamingExn α × NameServer))
    (hread : r.Readable orb) : s'.Recorded orb := by
  obtain ⟨rs, hfile, hrs, hcontents⟩ := h.file
  cases heffect with
  | logged s1 a contexts hlog hvalid hcontents' hok =>
    rcases log_cases h.startingUp (r.text orb) w with ⟨-, hdone⟩ | ⟨k, -, hfailed⟩
    · rw [hdone] at hlog
      obtain rfl := (Prod.mk.inj hlog).2
      refine ⟨hok, h.startingUp, h.persistentId, rs ++ [r], ?_, ?_, ?_⟩
      · show s.dataFile ++ r.text orb = _
        rw [hfile, lines, lines, List.flatMap_append, List.append_assoc]
        simp
      · rw [legible_append, hcontents]
        exact ⟨hrs, hvalid, hread, trivial⟩
      · rw [applyAll_append, hcontents, hcontents']
        rfl
    · rw [hfailed] at hlog
      exact absurd (congrArg Prod.fst hlog) (by simp)

/-- A record that could not be written and has left nothing. -/
lemma Recorded.unwritten (h : s.Recorded orb) (hw : w.Harmless)
    (hlog : s.log (r.text orb) w = (false, s')) : s'.Recorded orb := by
  rcases log_cases h.startingUp (r.text orb) w with ⟨-, hdone⟩ | ⟨k, rfl, hfailed⟩
  · rw [hdone] at hlog
    exact absurd (congrArg Prod.fst hlog) (by simp)
  · obtain rfl : k = 0 := hw
    rw [hfailed, List.take_zero, List.append_nil] at hlog
    obtain rfl := (Prod.mk.inj hlog).2
    exact h

/-- What an operation leaves is recorded, when its write is. -/
lemma Recorded.effect {α : Type} {a : Except NamingExn α × NameServer} (h : s.Recorded orb)
    (heffect : Effect orb s w r a) (hread : r.Readable orb) (hw : w.Harmless) : a.2.Recorded orb := by
  cases heffect with
  | refused e he => exact h
  | unwritten s1 hlog => exact h.unwritten hw hlog
  | logged s1 a contexts hlog hvalid hcontents hok =>
    exact h.logged (.logged s1 a contexts hlog hvalid hcontents hok) hread

/-! ### A binding that is made again -/

/-- A binding that is the last one already is bound again without an effect. -/
lemma apply_bind_of_last {d : ObjectId} {ctx : NamingContext} {b : ObjectBinding} (hs : s.Ok)
    (hc : s.context d = some ctx) (hlast : ctx.bindings.getLast? = some b) :
    (Record.bind d b).apply s.contents = s.contents := by
  obtain ⟨pre, hpre⟩ : ∃ pre, ctx.bindings = pre ++ [b] :=
    ⟨_, (List.dropLast_append_getLast? b hlast).symm⟩
  have hunique := (hs.context hc).unique
  rw [hpre, List.map_append, List.nodup_append] at hunique
  have hkeep : (pre.filter fun b' => b'.bindingName ≠ b.bindingName) = pre := by
    rw [List.filter_eq_self]
    exact fun b' hb' => decide_eq_true
      (hunique.2.2 b'.bindingName (List.mem_map_of_mem hb') b.bindingName (by simp))
  rw [Record.apply, Contents.modify]
  conv_rhs => rw [← List.map_id s.contents]
  apply List.map_congr_left
  intro e he
  obtain ⟨ctx', hctx', rfl⟩ := List.mem_map.mp he
  split_ifs with heq
  · obtain rfl := hs.eq_of_context hc hctx' heq
    simp only [hpre, List.filter_append, hkeep, id_eq]
    simp
  · rfl

/-- A record that is in the file though its operation failed, and that says nothing new. -/
lemma Recorded.repeated {octets : ℕ} (h : s.Recorded orb) (hvalid : r.Valid s.contents)
    (hread : r.Readable orb) (hsame : r.apply s.contents = s.contents)
    (hlen : (r.text orb).length ≤ octets)
    (hlog : s.log (r.text orb) (.failed octets) = (false, s')) : s'.Recorded orb := by
  obtain ⟨rs, hfile, hrs, hcontents⟩ := h.file
  rcases log_cases h.startingUp (r.text orb) (.failed octets) with ⟨hw, -⟩ | ⟨k, hw, hfailed⟩
  · exact absurd hw (by simp)
  · obtain rfl := Write.failed.inj hw
    rw [hfailed, List.take_of_length_le hlen] at hlog
    obtain rfl := (Prod.mk.inj hlog).2
    refine ⟨h.ok.congr rfl, h.startingUp, h.persistentId, rs ++ [r], ?_, ?_, ?_⟩
    · show s.dataFile ++ r.text orb = _
      rw [hfile, lines, lines, List.flatMap_append, List.append_assoc]
      simp
    · rw [legible_append, hcontents]
      exact ⟨hrs, hvalid, hread, trivial⟩
    · rw [applyAll_append, hcontents]
      exact hsame

lemma Recorded.rebind {obj : ObjectRef} {t : BindingType} {c : ObjectId} {n : Name}
    (h : s.Recorded orb) (hread : ∀ x, Named n x → (⟨x, t, obj⟩ : ObjectBinding).Readable orb)
    (hw : w.Harmless ∨ s.Repeats orb obj t w c n) :
    (s.bindHelper orb obj t true w c n).2.Recorded orb := by
  rcases hw with hw | ⟨lead, x, d, ctx, octets, rfl, hleads, hc, hlast, rfl, hlen⟩
  · obtain ⟨d, x, hx, heffect⟩ := bindHelper_effect orb h.ok obj t true w c n
    exact h.effect heffect (hread x hx) hw
  · rw [bindHelper_append_of_leads hleads, bindHelper, hc]
    have heffect : Effect orb s (.failed octets) (.bind d ⟨x, t, obj⟩)
        (s.bindSimple orb d ctx x obj t true (.failed octets)) := bindSimple_effect h.ok hc obj t true
    have hreadable : (Record.bind d ⟨x, t, obj⟩).Readable orb := hread x (Or.inl (by simp))
    show (s.bindSimple orb d ctx x obj t true (.failed octets)).2.Recorded orb
    generalize s.bindSimple orb d ctx x obj t true (.failed octets) = a at heffect ⊢
    cases heffect with
    | refused e he => exact h
    | logged s1 a contexts hlog hvalid hcontents hok =>
      exact h.logged (.logged s1 a contexts hlog hvalid hcontents hok) hreadable
    | unwritten s1 hlog =>
      have hvalid : (Record.bind d ⟨x, t, obj⟩).Valid s.contents := ⟨ctx.bindings, mem_contents hc⟩
      exact h.repeated hvalid hreadable (apply_bind_of_last h.ok hc hlast) hlen hlog

/-! ### A step -/

lemma Recorded.bind {obj : ObjectRef} {t : BindingType} {c : ObjectId} {n : Name}
    (h : s.Recorded orb) (hread : ∀ x, Named n x → (⟨x, t, obj⟩ : ObjectBinding).Readable orb)
    (hw : w.Harmless) (rebind : Bool) :
    (s.bindHelper orb obj t rebind w c n).2.Recorded orb := by
  obtain ⟨d, x, hx, heffect⟩ := bindHelper_effect orb h.ok obj t rebind w c n
  exact h.effect heffect (hread x hx) hw

/-- What `bind_new_context` leaves is recorded, also when it has to take a context back. -/
lemma Recorded.bindNew {id : ObjectId} {create bind destroy : Write} {n : Name}
    {a : Except NamingExn ObjectRef × NameServer} (h : s.Recorded orb)
    (heffect : BindNewEffect orb s id create bind destroy n a) (hid : id.length = 12)
    (hshort : orb.Short (.context id)) (hn : ∀ x, Named n x → Short x) (hcreate : create.Harmless)
    (hbind : bind.Harmless) (hdestroy : destroy.Harmless) : a.2.Recorded orb := by
  have hnew : (Record.create id).Readable orb := ⟨by rw [hid]; norm_num, hshort⟩
  have hbound : ∀ c x, Named n x → (Record.bind c ⟨x, .ncontext, .context id⟩).Readable orb :=
    fun c x hx => ⟨hn x hx, hshort, fun _ => trivial⟩
  have hgone : (Record.destroy id).Readable orb := trivial
  cases heffect with
  | notCreated e s1 h1 => exact h.effect h1 hnew hcreate
  | bound c x nc s1 s2 hx h1 h2 =>
    have hs1 : s1.Recorded orb := h.effect h1 hnew hcreate
    have hs2 : s2.Recorded orb := hs1.effect h2 (hbound c x hx) hbind
    exact hs2
  | destroyed c x nc e s1 s2 s3 hx h1 h2 h3 =>
    have hs1 : s1.Recorded orb := h.effect h1 hnew hcreate
    have hs2 : s2.Recorded orb := hs1.effect h2 (hbound c x hx) hbind
    have hs3 : s3.Recorded orb := hs2.effect h3 hgone hdestroy
    exact hs3
  | left c x nc e e' s1 s2 s3 hx h1 h2 h3 =>
    have hs1 : s1.Recorded orb := h.effect h1 hnew hcreate
    have hs2 : s2.Recorded orb := hs1.effect h2 (hbound c x hx) hbind
    have hs3 : s3.Recorded orb := hs2.effect h3 hgone hdestroy
    exact hs3

lemma lines_checkpointRecords (s : NameServer) :
    header s.port s.persistentId ++ lines orb (checkpointRecords s.contents) =
      s.checkpointText orb := by
  have hcreates : lines orb (s.contents.map fun e => .create e.1) =
      s.contexts.flatMap fun ctx => putCreate ctx.id := by
    rw [lines, contents, List.map_map, List.flatMap_map]
    rfl
  have hbinds : lines orb (s.contents.flatMap fun e => e.2.map fun b => .bind e.1 b) =
      s.contexts.flatMap fun ctx => ctx.list.nodes.flatMap fun ob =>
        putBind orb (.context ctx.id) ob.2.bindingName ob.2.object ob.2.bindingType := by
    rw [lines, contents, List.flatMap_map, List.flatMap_assoc]
    congr 1
    funext ctx
    rw [NamingContext.bindings, List.map_map, List.flatMap_map]
    rfl
  rw [checkpointText, ← hcreates, ← hbinds]
  show _ = header s.port s.persistentId ++ lines orb _ ++ lines orb _
  rw [List.append_assoc, lines, checkpointRecords, List.flatMap_append]
  rfl

lemma Recorded.checkpoint (h : s.Recorded orb) : (s.checkpoint orb).Recorded orb := by
  rw [NameServer.checkpoint]
  split_ifs
  · exact h
  · have hids : (s.contents.map Prod.fst).Nodup := by
      rw [contents, List.map_map]
      exact h.ok.unique
    have hnames : ∀ e ∈ s.contents, (e.2.map ObjectBinding.bindingName).Nodup := by
      intro e he
      obtain ⟨ctx, hctx, rfl⟩ := List.mem_map.mp he
      exact (h.ok.contexts ctx hctx).unique
    obtain ⟨hlegible, happly⟩ := checkpointRecords_spec hids hnames h.readable
    exact ⟨h.ok.congr rfl, h.startingUp, h.persistentId, checkpointRecords s.contents,
      (lines_checkpointRecords s).symm, hlegible, happly⟩

lemma Recorded.restart (horb : orb.Inverse) (h : s.Recorded orb) :
    (init orb s.port s.dataFile).1.Recorded orb := by
  obtain ⟨rs, hfile, hrs, hcontents⟩ := h.file
  obtain ⟨s1, hinit, hok, hcontents1, hid, hport, hfile1, hup⟩ :=
    init_lines horb s.port h.persistentId hrs
  rw [hfile, hinit]
  exact ⟨hok, hup, hid ▸ h.persistentId, rs, by rw [hfile1, hid, hport], hrs, hcontents1.symm⟩

lemma named_short {n : Name} {x : NameComponent} (h : ∀ x ∈ n, Short x) (hx : Named n x) : Short x := by
  rcases hx with hx | rfl
  · exact h x hx
  · decide

/-- After an action the file is again a history of what is in memory, however the action has ended. -/
theorem Recorded.act (horb : orb.Inverse) {a : NamingAction} (h : s.Recorded orb)
    (hpossible : s.Possible a) (hlegibly : a.Legibly orb) (hfails : s.FailsHarmlessly orb a) :
    (s.act orb a).2.Recorded orb := by
  cases a with
  | request q c n =>
    cases q with
    | resolve => exact h
    | bind obj w =>
      obtain ⟨hn, hobj⟩ := hlegibly
      exact h.bind (fun x hx => ⟨named_short hn hx, hobj, fun h => absurd h (by simp)⟩) hfails false
    | rebind obj w =>
      obtain ⟨hn, hobj⟩ := hlegibly
      exact h.rebind (fun x hx => ⟨named_short hn hx, hobj, fun h => absurd h (by simp)⟩) hfails
    | bindContext nc w =>
      obtain ⟨hn, hobj, hcontext⟩ := hlegibly
      exact h.bind (fun x hx => ⟨named_short hn hx, hobj, fun _ => hcontext⟩) hfails false
    | rebindContext nc w =>
      obtain ⟨hn, hobj, hcontext⟩ := hlegibly
      exact h.rebind (fun x hx => ⟨named_short hn hx, hobj, fun _ => hcontext⟩) hfails
    | unbind w =>
      obtain ⟨d, x, hx, heffect⟩ := unbind_effect orb h.ok w c n
      have hread : (Record.unbind d x).Readable orb := named_short hlegibly hx
      have hdone : (s.unbind orb w c n).2.Recorded orb := h.effect heffect hread hfails
      exact hdone
    | bindNewContext id create bind destroy =>
      obtain ⟨hn, hshort⟩ := hlegibly
      obtain ⟨hcreate, hbind, rfl⟩ := hfails
      exact h.bindNew (bindNewContext_effect orb h.ok hpossible.2 create bind .done c n) hpossible.1
        hshort (fun x hx => named_short hn hx) hcreate hbind trivial
  | newContext c id w =>
    have hread : (Record.create id).Readable orb := ⟨by rw [hpossible.1]; norm_num, hlegibly⟩
    have heffect : Effect orb s w (.create id) (s.newContext c id w) :=
      newContext_effect h.ok hpossible.2
    have hdone : (s.newContext c id w).2.Recorded orb := h.effect heffect hread hfails
    exact hdone
  | destroy c w =>
    have hread : (Record.destroy c).Readable orb := trivial
    have heffect : Effect orb s w (.destroy c) (s.destroy orb c w) := destroy_effect h.ok
    have hdone : (s.destroy orb c w).2.Recorded orb := h.effect heffect hread hfails
    exact hdone
  | checkpoint => exact h.checkpoint
  | restart => exact h.restart horb

lemma Recorded.start (horb : orb.Inverse) (port : ℕ) {id : ObjectId} (hid : id.length = 8)
    (hroot : orb.Short (.context (ascii "NameService"))) :
    (NameServer.start orb port id).Recorded orb := by
  have hlegible : Legible orb [] [.create (ascii "NameService")] := by
    refine ⟨fun e he => absurd he List.not_mem_nil, ⟨by decide, hroot⟩, trivial⟩
  have hfile : initialFile port id = header port id ++ lines orb [.create (ascii "NameService")] := by
    have hne : id ≠ [] := List.ne_nil_of_length_pos (hid ▸ Nat.succ_pos 7)
    rw [initialFile, header, if_neg hne, lines, List.flatMap_singleton]
    rfl
  obtain ⟨s, hinit, hok, hcontents, hid1, hport, hfile1, hup⟩ :=
    init_lines horb port (hid ▸ by norm_num : id.length < 2 ^ 29) hlegible
  rw [NameServer.start, hfile, hinit]
  exact ⟨hok, hup, hid1 ▸ hid ▸ by norm_num, _, by rw [hfile1, hid1, hport], hlegible, hcontents.symm⟩

/-! ### What a failed write leaves in memory -/

lemma Effect.contents_of_persistStore {α : Type} {a : Except NamingExn α × NameServer}
    (h : Effect orb s w r a) (ha : a.1 = .error .persistStore) : a.2.contents = s.contents := by
  cases h with
  | refused e he => rfl
  | unwritten s1 hlog => rw [← log_contents s (r.text orb) w, hlog]
  | logged s1 a contexts hlog hvalid hcontents hok => exact absurd ha (by simp)

lemma Effect.contents_of_error {α : Type} {e : NamingExn}
    (h : Effect (α := α) orb s w r (.error e, s')) : s'.contents = s.contents := by
  cases h with
  | refused e he => rfl
  | unwritten s1 hlog => rw [← log_contents s (r.text orb) w, hlog]

lemma Effect.contents_of_ok {α : Type} {a : α} (h : Effect orb s w r (.ok a, s')) :
    s'.contents = r.apply s.contents := by
  cases h with
  | logged s1 a contexts hlog hvalid hcontents hok => exact hcontents

/-- A write that is done raises nothing. -/
lemma Effect.not_persistStore {α : Type} (hup : s.startingUp = false) :
    ¬ Effect (α := α) orb s .done r (.error .persistStore, s') := by
  intro h
  cases h with
  | refused e he => exact he rfl
  | unwritten s1 hlog =>
    rcases log_cases hup (r.text orb) .done with ⟨-, hdone⟩ | ⟨k, hw, -⟩
    · rw [hdone] at hlog
      exact absurd (congrArg Prod.fst hlog) (by simp)
    · exact absurd hw (by simp)

lemma apply_destroy_create {id : ObjectId} (hfree : s.context id = none) :
    (Record.destroy id).apply ((Record.create id).apply s.contents) = s.contents := by
  have hkeep : (s.contents.filter fun e => e.1 ≠ id) = s.contents := by
    rw [List.filter_eq_self]
    intro e he
    obtain ⟨ctx, hctx, rfl⟩ := List.mem_map.mp he
    exact decide_eq_true (context_eq_none.mp hfree ctx hctx)
  rw [Record.apply, Record.apply, List.filter_append, hkeep]
  simp

/-- `bind_new_context` takes back what it has created, when that is written. -/
lemma BindNewEffect.contents_of_persistStore {id : ObjectId} {create bind : Write} {n : Name}
    {a : Except NamingExn ObjectRef × NameServer} (hs : s.Recorded orb) (hid : id.length = 12)
    (hshort : orb.Short (.context id)) (hn : ∀ x, Named n x → Short x) (hcreate : create.Harmless)
    (hbind : bind.Harmless) (hfree : s.context id = none)
    (h : BindNewEffect orb s id create bind .done n a) (ha : a.1 = .error .persistStore) :
    a.2.contents = s.contents := by
  have hnew : (Record.create id).Readable orb := ⟨by rw [hid]; norm_num, hshort⟩
  cases h with
  | notCreated e s1 h1 => exact h1.contents_of_persistStore ha
  | bound c x nc s1 s2 hx h1 h2 => exact absurd ha (by simp)
  | destroyed c x nc e s1 s2 s3 hx h1 h2 h3 =>
    show s3.contents = s.contents
    rw [h3.contents_of_ok, h2.contents_of_error, h1.contents_of_ok, apply_destroy_create hfree]
  | left c x nc e e' s1 s2 s3 hx h1 h2 h3 =>
    have hs1 : s1.Recorded orb := hs.effect h1 hnew hcreate
    have hs2 : s2.Recorded orb := hs1.effect h2 ⟨hn x hx, hshort, fun _ => trivial⟩ hbind
    obtain rfl : e' = .persistStore := Except.error.inj ha
    exact absurd h3 (Effect.not_persistStore hs2.startingUp)

lemma error_of_map {α β : Type} {f : α → β} {a : Except NamingExn α} {e : NamingExn}
    (h : a.map f = .error e) : a = .error e := by
  cases a with
  | error e' => exact congrArg Except.error (Except.error.inj h)
  | ok x => exact absurd h (by simp [Except.map])

/-- An operation that raises `PERSIST_STORE` has changed nothing in memory. -/
theorem Recorded.contents_of_persistStore {a : NamingAction} (h : s.Recorded orb)
    (hpossible : s.Possible a) (hlegibly : a.Legibly orb) (hfails : s.FailsHarmlessly orb a)
    (hact : s.act orb a = (.error .persistStore, s')) : s'.contents = s.contents := by
  have hfst : (s.act orb a).1 = .error .persistStore := by rw [hact]
  have hsnd : (s.act orb a).2 = s' := by rw [hact]
  rw [← hsnd]
  cases a with
  | request q c n =>
    cases q with
    | resolve => rfl
    | bind obj w =>
      obtain ⟨d, x, -, heffect⟩ := bindHelper_effect orb h.ok obj .nobject false w c n
      exact heffect.contents_of_persistStore (error_of_map hfst)
    | rebind obj w =>
      obtain ⟨d, x, -, heffect⟩ := bindHelper_effect orb h.ok obj .nobject true w c n
      exact heffect.contents_of_persistStore (error_of_map hfst)
    | bindContext nc w =>
      obtain ⟨d, x, -, heffect⟩ := bindHelper_effect orb h.ok nc .ncontext false w c n
      exact heffect.contents_of_persistStore (error_of_map hfst)
    | rebindContext nc w =>
      obtain ⟨d, x, -, heffect⟩ := bindHelper_effect orb h.ok nc .ncontext true w c n
      exact heffect.contents_of_persistStore (error_of_map hfst)
    | unbind w =>
      obtain ⟨d, x, -, heffect⟩ := unbind_effect orb h.ok w c n
      exact heffect.contents_of_persistStore (error_of_map hfst)
    | bindNewContext id create bind destroy =>
      obtain ⟨hn, hshort⟩ := hlegibly
      obtain ⟨hcreate, hbind, rfl⟩ := hfails
      have heffect := bindNewContext_effect orb h.ok hpossible.2 create bind .done c n
      exact heffect.contents_of_persistStore h hpossible.1 hshort (fun x hx => named_short hn hx)
        hcreate hbind hpossible.2 (error_of_map hfst)
  | newContext c id w =>
    have heffect : Effect orb s w (.create id) (s.newContext c id w) :=
      newContext_effect h.ok hpossible.2
    exact heffect.contents_of_persistStore (error_of_map hfst)
  | destroy c w =>
    have heffect : Effect orb s w (.destroy c) (s.destroy orb c w) := destroy_effect h.ok
    exact heffect.contents_of_persistStore (error_of_map hfst)
  | checkpoint => exact absurd hfst (by simp [NameServer.act])
  | restart => exact absurd hfst (by simp [NameServer.act])

/-! ### Runs -/

variable {p : ℕ} {id : ObjectId}

end NameServer

/-! ### A small ORB -/

namespace NameServer

variable {orb : Orb} {s : NameServer} {p : ℕ} {id : ObjectId}

/-! ### What is read back -/

end NameServer

end Naming

end OmniORB
