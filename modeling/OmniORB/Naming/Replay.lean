import OmniORB.Naming.Compound
import OmniORB.Naming.Histories

/-!
# Reading the data file

`omniNameslog::init` and the functions that read a record and follow it. What a record says is done by
the operations themselves, while nothing is written.
-/

namespace OmniORB

open Library

namespace Naming

variable (orb : Orb)

/-! ### The records -/

/-- The naming context that a string stands for; an exception of `_narrow` is not caught. -/
def getContext (str : CString) : Except ReadError ObjectId :=
  match orb.stringToObject str with
  | none => .error .parseError
  | some o =>
    match orb.narrow o with
    | .error _ => .error .uncaught
    | .ok none => .error .parseError
    | .ok (some c) => .ok c

/-- An operation of a naming context, whose exceptions are not caught. -/
def uncaught {α : Type} (r : Except NamingExn α × NameServer) : Except ReadError NameServer :=
  match r.1 with
  | .error _ => .error .uncaught
  | .ok _ => .ok r.2

def getPersistent (s : NameServer) (file : List UInt8) :
    Except ReadError (NameServer × List UInt8) := do
  let (id, file) ← getKey file
  .ok ({ s with persistentId := id }, file)

/-- `getCreate`; the length of the id says which POA the context is for. A second context with the id is
refused by that POA. -/
def getCreate (s : NameServer) (file : List UInt8) : Except ReadError (NameServer × List UInt8) := do
  let (id, file) ← getKey file
  let s ← if (s.context id).isSome then .error .uncaught else uncaught (s.newNamingContext id .done)
  .ok (s, file)

def getDestroy (s : NameServer) (file : List UInt8) :
    Except ReadError (NameServer × List UInt8) := do
  let (str, file) ← getFinalString file
  let nc ← getContext orb str
  let s ← uncaught (s.destroy orb nc .done)
  .ok (s, file)

def getBind (s : NameServer) (file : List UInt8) : Except ReadError (NameServer × List UInt8) := do
  let (str, file) ← getNonfinalString file
  let nc ← getContext orb str
  let (id, file) ← getNonfinalString file
  let (kind, file) ← getNonfinalString file
  let (bindingType, file) ← getNonfinalString file
  let (str, file) ← getFinalString file
  match orb.stringToObject str with
  | none => .error .parseError
  | some o =>
    if bindingType.octets = ascii "ncontext" then do
      let nc2 ← getContext orb str
      let s ← uncaught (s.rebindContext orb nc [⟨id, kind⟩] (.context nc2) .done)
      .ok (s, file)
    else do
      let s ← uncaught (s.rebind orb nc [⟨id, kind⟩] o .done)
      .ok (s, file)

def getUnbind (s : NameServer) (file : List UInt8) :
    Except ReadError (NameServer × List UInt8) := do
  let (str, file) ← getNonfinalString file
  let nc ← getContext orb str
  let (id, file) ← getNonfinalString file
  let (kind, file) ← getFinalString file
  let s ← uncaught (s.unbind orb .done nc [⟨id, kind⟩])
  .ok (s, file)

/-- One record. `init` has no use for the port, which has been read before. -/
def getRecord (s : NameServer) (file : List UInt8) : Except ReadError (NameServer × List UInt8) := do
  let (cmd, file) ← getNonfinalString file
  if cmd.octets = ascii "port" then .ok (s, (file.dropWhile (· ≠ 0x0a)).drop 1)
  else if cmd.octets = ascii "persistent" then getPersistent s file
  else if cmd.octets = ascii "create" then getCreate s file
  else if cmd.octets = ascii "destroy" then getDestroy orb s file
  else if cmd.octets = ascii "bind" then getBind orb s file
  else if cmd.octets = ascii "unbind" then getUnbind orb s file
  else .error .parseError

/-- The loop of `init`, with the error that ends it early. It takes no more rounds than there are
octets. -/
def replay : ℕ → NameServer → List UInt8 → NameServer × Option ReadError
  | _, s, [] => (s, none)
  | 0, s, _ :: _ => (s, some .parseError)
  | fuel + 1, s, c :: file =>
    match getRecord orb s (c :: file) with
    | .error e => (s, some e)
    | .ok (s, file) => replay fuel s file

/-- An `omniNameslog` that has found out the port. -/
def starting (port : ℕ) (file : List UInt8) : NameServer where
  contexts := []
  port := port
  persistentId := []
  dataFile := file
  startingUp := true
  checkpointNeeded := true

/-- `omniNameslog::init` -/
def init (port : ℕ) (file : List UInt8) : NameServer × Option ReadError :=
  let (s, e) := replay orb file.length (starting port file) file
  ({ s with startingUp := false }, e)

/-- The file that a first start writes. -/
def initialFile (port : ℕ) (persistentId : ObjectId) : List UInt8 :=
  putPort port ++ putPersistent persistentId ++ putCreate (ascii "NameService")

/-- The lines of a history. -/
def lines (rs : List Record) : List UInt8 := rs.flatMap (Record.text orb)

/-- What a file starts with. -/
def header (port : ℕ) (persistentId : ObjectId) : List UInt8 :=
  putPort port ++ if persistentId = [] then [] else putPersistent persistentId

namespace NameServer

/-! ### Following a record -/

/-- The contexts have become what the record says, and the rest is as it was. -/
structure Follows (s s' : NameServer) (r : Record) : Prop where
  ok : s'.Ok
  contents : s'.contents = r.apply s.contents
  startingUp : s'.startingUp = true
  persistentId : s'.persistentId = s.persistentId
  port : s'.port = s.port
  dataFile : s'.dataFile = s.dataFile

variable {orb} {s s' : NameServer} {c : ObjectId} {bs : List ObjectBinding} {b : ObjectBinding}
  {x : NameComponent} {o : ObjectRef}

lemma log_of_startingUp (hup : s.startingUp = true) (record : List UInt8) (w : Write) :
    s.log record w = (true, s) := by
  unfold log
  rw [if_pos hup]

lemma Effect.follows {α : Type} {a : α} {r : Record} {w : Write} (h : Effect orb s w r (.ok a, s'))
    (hup : s.startingUp = true) : s.Follows s' r := by
  cases h with
  | logged s1 a contexts hlog hvalid hcontents hok =>
    rw [log_of_startingUp hup] at hlog
    obtain rfl := (Prod.mk.inj hlog).2
    exact ⟨hok, hcontents, hup, rfl, rfl, rfl⟩

lemma Ok.context_of_mem_contents (hs : s.Ok) (h : (c, bs) ∈ s.contents) :
    ∃ ctx, s.context c = some ctx ∧ ctx.bindings = bs := by
  obtain ⟨ctx, hmem, heq⟩ := List.mem_map.mp h
  obtain ⟨rfl, rfl⟩ := Prod.mk.inj heq
  exact ⟨ctx, hs.context_of_mem hmem, rfl⟩

lemma newNamingContext_follows (orb : Orb) (hs : s.Ok) (hup : s.startingUp = true)
    (hvalid : (Record.create c).Valid s.contents) :
    ∃ s', uncaught (s.newNamingContext c .done) = .ok s' ∧ s.context c = none ∧
      s.Follows s' (.create c) := by
  have hfree : s.context c = none := by
    rw [context_eq_none]
    exact fun ctx hctx => hvalid (ctx.id, ctx.bindings) (List.mem_map_of_mem hctx)
  have heffect : Effect orb s .done (.create c) (s.newNamingContext c .done) :=
    newNamingContext_effect hs hfree
  have hdone : s.newNamingContext c .done =
      (.ok (.context c), { s with contexts := s.contexts ++ [.new c] }) := by
    rw [newNamingContext, log_of_startingUp hup]
  rw [hdone] at heffect ⊢
  exact ⟨_, rfl, hfree, heffect.follows hup⟩

lemma destroy_follows (orb : Orb) (hs : s.Ok) (hup : s.startingUp = true)
    (hvalid : (Record.destroy c).Valid s.contents) :
    ∃ s', uncaught (s.destroy orb c .done) = .ok s' ∧ s.Follows s' (.destroy c) := by
  obtain ⟨ctx, hc, hempty⟩ := hs.context_of_mem_contents hvalid
  have heffect : Effect orb s .done (.destroy c) (s.destroy orb c .done) := destroy_effect hs
  have hhead : ¬ ctx.list.head.isSome := by
    rw [(hs.context hc).head_isSome, hempty]
    exact fun h => h rfl
  have hdone : s.destroy orb c .done =
      (.ok (), { s with contexts := s.contexts.filter fun ctx => ctx.id ≠ c }) := by
    rw [destroy, hc]
    simp only
    rw [if_neg hhead, log_of_startingUp hup]
  rw [hdone] at heffect ⊢
  exact ⟨_, rfl, heffect.follows hup⟩

lemma rebind_follows (orb : Orb) {t : BindingType} (hs : s.Ok) (hup : s.startingUp = true)
    (hvalid : (Record.bind c ⟨x, t, o⟩).Valid s.contents) :
    ∃ s', uncaught (s.bindHelper orb o t true .done c [x]) = .ok s' ∧
      s.Follows s' (.bind c ⟨x, t, o⟩) := by
  obtain ⟨bs, hmem⟩ := hvalid
  obtain ⟨ctx, hc, -⟩ := hs.context_of_mem_contents hmem
  have heffect : Effect orb s .done (.bind c ⟨x, t, o⟩) (s.bindSimple orb c ctx x o t true .done) :=
    bindSimple_effect hs hc o t true
  have hdone : s.bindSimple orb c ctx x o t true .done =
      (.ok (), s.setContext c fun ctx' => ctx'.replace (ctx.resolveSimple x) ⟨x, t, o⟩) := by
    rw [bindSimple, if_neg (by simp), log_of_startingUp hup]
  rw [bindHelper, hc]
  simp only
  rw [hdone] at heffect ⊢
  exact ⟨_, rfl, heffect.follows hup⟩

lemma unbind_follows (orb : Orb) (hs : s.Ok) (hup : s.startingUp = true)
    (hvalid : (Record.unbind c x).Valid s.contents) :
    ∃ s', uncaught (s.unbind orb .done c [x]) = .ok s' ∧ s.Follows s' (.unbind c x) := by
  obtain ⟨bs, hmem, b, hb, hname⟩ := hvalid
  obtain ⟨ctx, hc, rfl⟩ := hs.context_of_mem_contents hmem
  have heffect : Effect orb s .done (.unbind c x) (s.unbindSimple orb c ctx x .done) :=
    unbindSimple_effect hs hc
  rcases hx : ctx.resolveSimple x with - | ⟨p, b'⟩
  · exact absurd hname (NamingContext.resolveSimple_eq_none.mp hx b hb)
  · have hdone : s.unbindSimple orb c ctx x .done =
        (.ok (), s.setContext c fun ctx' => ctx'.deleteBinding p) := by
      rw [unbindSimple, hx]
      simp only
      rw [log_of_startingUp hup]
    rw [unbind, hc]
    simp only
    rw [hdone] at heffect ⊢
    exact ⟨_, rfl, heffect.follows hup⟩

/-! ### Reading a record -/

lemma ok_bind {α β : Type} (a : α) (f : α → Except ReadError β) : (Except.ok a >>= f) = f a := rfl

/-- The word for a type of binding. -/
def typeWord (t : BindingType) : List UInt8 :=
  if t = .nobject then ascii "nobject" else ascii "ncontext"

lemma putBind_split (orb : Orb) (nc : ObjectRef) (n : NameComponent) (obj : ObjectRef)
    (t : BindingType) (file : List UInt8) :
    putBind orb nc n obj t ++ file =
      ascii "bind" ++ 0x20 :: (putString (orb.objectToString nc) ++ 0x20 :: (putString n.id ++
        0x20 :: (putString n.kind ++ 0x20 :: (typeWord t ++
          0x20 :: (putString (orb.objectToString obj) ++ 0x0a :: file))))) := by
  cases t with
  | nobject =>
    simp [putBind, typeWord, show ascii "bind " = ascii "bind" ++ [0x20] from rfl,
      show ascii " nobject " = 0x20 :: ascii "nobject" ++ [0x20] from rfl]
  | ncontext =>
    simp [putBind, typeWord, show ascii "bind " = ascii "bind" ++ [0x20] from rfl,
      show ascii " ncontext " = 0x20 :: ascii "ncontext" ++ [0x20] from rfl]

lemma putUnbind_split (orb : Orb) (nc : ObjectRef) (n : NameComponent) (file : List UInt8) :
    putUnbind orb nc n ++ file =
      ascii "unbind" ++ 0x20 :: (putString (orb.objectToString nc) ++ 0x20 :: (putString n.id ++
        0x20 :: (putString n.kind ++ 0x0a :: file))) := by
  simp [putUnbind, show ascii "unbind " = ascii "unbind" ++ [0x20] from rfl]

lemma getContext_objectToString (horb : orb.Inverse) (c : ObjectId) :
    getContext orb (orb.objectToString (.context c)) = .ok c := by
  rw [getContext, horb]
  rfl

/-- The words that records and types are written with. -/
lemma plain_words : ∀ w ∈ [ascii "port", ascii "persistent", ascii "create", ascii "destroy",
    ascii "bind", ascii "unbind", typeWord .nobject, typeWord .ncontext], Plain w := by
  have hletters : ∀ w ∈ [ascii "port", ascii "persistent", ascii "create", ascii "destroy",
      ascii "bind", ascii "unbind", typeWord .nobject, typeWord .ncontext],
      w.all (fun c => 0x61 ≤ c && c ≤ 0x7a) = true := by decide
  exact fun w hw => plain_of_letters (hletters w hw)

/-- The word that a record starts with. -/
lemma getRecord_word {w : List UInt8} (hw : Plain w) (h0 : 0 ∉ w) (hlen : w.length < 2 ^ 30)
    (s : NameServer) (file : List UInt8) :
    getRecord orb s (w ++ 0x20 :: file) =
      if w = ascii "port" then .ok (s, (file.dropWhile (· ≠ 0x0a)).drop 1)
      else if w = ascii "persistent" then getPersistent s file
      else if w = ascii "create" then getCreate s file
      else if w = ascii "destroy" then getDestroy orb s file
      else if w = ascii "bind" then getBind orb s file
      else if w = ascii "unbind" then getUnbind orb s file
      else .error .parseError := by
  have hoctets : (CString.ofBuffer (w ++ [0])).octets = w := CString.ofBuffer_append_nul h0 []
  rw [getRecord, getNonfinalString_word hw hlen]
  show (if (CString.ofBuffer (w ++ [0])).octets = _ then _ else _) = _
  rw [hoctets]

lemma getRecord_putPort (s : NameServer) (p : ℕ) (file : List UInt8) :
    getRecord orb s (putPort p ++ file) = .ok (s, file) := by
  have hsplit : putPort p ++ file = ascii "port" ++ 0x20 :: (decimal p ++ 0x0a :: file) := by
    simp [putPort, show ascii "port " = ascii "port" ++ [0x20] from rfl]
  rw [hsplit, getRecord_word (plain_words _ (by simp)) (by decide) (by decide), if_pos rfl]
  have hdrop : (decimal p ++ 0x0a :: file).dropWhile (· ≠ 0x0a) = 0x0a :: file := by
    rw [List.dropWhile_append_of_pos]
    · rw [List.dropWhile_cons_of_neg (by simp)]
    · intro c hc
      exact decide_eq_true fun heq => notMem_decimal (by decide) (heq ▸ hc)
  rw [hdrop]
  rfl

lemma getRecord_putPersistent {id : ObjectId} (h : id.length < 2 ^ 29) (s : NameServer)
    (file : List UInt8) :
    getRecord orb s (putPersistent id ++ file) = .ok ({ s with persistentId := id }, file) := by
  have hsplit : putPersistent id ++ file = ascii "persistent" ++ 0x20 :: (putKey id ++ 0x0a :: file) := by
    simp [putPersistent, show ascii "persistent " = ascii "persistent" ++ [0x20] from rfl]
  rw [hsplit, getRecord_word (plain_words _ (by simp)) (by decide) (by decide),
    if_neg (by decide), if_pos rfl, getPersistent, getKey_putKey h]
  rfl

/-- A record that can be followed is read and followed. -/
theorem getRecord_text (horb : orb.Inverse) (hs : s.Ok) (hup : s.startingUp = true) {r : Record}
    (hvalid : r.Valid s.contents) (hread : r.Readable orb) (hcontents : s.contents.Readable orb)
    (file : List UInt8) :
    ∃ s', getRecord orb s (r.text orb ++ file) = .ok (s', file) ∧ s.Follows s' r := by
  cases r with
  | create id =>
    obtain ⟨s', hdone, hfree, hfollows⟩ := newNamingContext_follows orb hs hup hvalid
    have hsplit : putCreate id ++ file = ascii "create" ++ 0x20 :: (putKey id ++ 0x0a :: file) := by
      simp [putCreate, show ascii "create " = ascii "create" ++ [0x20] from rfl]
    refine ⟨s', ?_, hfollows⟩
    rw [Record.text, hsplit, getRecord_word (plain_words _ (by simp)) (by decide) (by decide),
      if_neg (by decide), if_neg (by decide), if_pos rfl, getCreate, getKey_putKey hread.1]
    show (do
      let s ← if (s.context id).isSome then Except.error ReadError.uncaught else uncaught (s.newNamingContext id .done)
      Except.ok (s, file)) = _
    rw [hfree, if_neg (by simp), hdone]
    rfl
  | destroy c =>
    obtain ⟨s', hdone, hfollows⟩ := destroy_follows orb hs hup hvalid
    have hsplit : putDestroy orb (.context c) ++ file =
        ascii "destroy" ++ 0x20 :: (putString (orb.objectToString (.context c)) ++ 0x0a :: file) := by
      simp [putDestroy, show ascii "destroy " = ascii "destroy" ++ [0x20] from rfl]
    refine ⟨s', ?_, hfollows⟩
    rw [Record.text, hsplit, getRecord_word (plain_words _ (by simp)) (by decide) (by decide),
      if_neg (by decide), if_neg (by decide), if_neg (by decide), if_pos rfl, getDestroy,
      getFinalString_putString (hcontents (c, []) hvalid).1.2]
    show (do
      let nc ← getContext orb (orb.objectToString (.context c))
      let s ← uncaught (s.destroy orb nc .done)
      Except.ok (s, file)) = _
    rw [getContext_objectToString horb]
    show (do
      let s ← uncaught (s.destroy orb c .done)
      Except.ok (s, file)) = _
    rw [hdone]
    rfl
  | bind c b =>
    obtain ⟨x, t, o⟩ := b
    obtain ⟨⟨hid, hkind⟩, hobject, hcontext⟩ := hread
    obtain ⟨s', hdone, hfollows⟩ := rebind_follows orb hs hup hvalid
    obtain ⟨bs, hmem⟩ := hvalid
    refine ⟨s', ?_, hfollows⟩
    rw [Record.text, putBind_split, getRecord_word (plain_words _ (by simp)) (by decide)
      (by decide), if_neg (by decide), if_neg (by decide),
      if_neg (by decide), if_neg (by decide), if_pos rfl, getBind,
      getNonfinalString_putString (hcontents (c, bs) hmem).1.2]
    simp only [ok_bind, getContext_objectToString horb, getNonfinalString_putString hid,
      getNonfinalString_putString hkind]
    cases t with
    | nobject =>
      have hword : (CString.ofBuffer (typeWord .nobject ++ [0])).octets ≠ ascii "ncontext" := by
        decide
      rw [getNonfinalString_word (plain_words _ (by simp)) (by decide)]
      simp only [ok_bind, getFinalString_putString hobject, horb o, if_neg hword]
      rw [rebind, hdone]
      rfl
    | ncontext =>
      have hword : (CString.ofBuffer (typeWord .ncontext ++ [0])).octets = ascii "ncontext" := by
        decide
      rw [getNonfinalString_word (plain_words _ (by simp)) (by decide)]
      simp only [ok_bind, getFinalString_putString hobject, horb o, if_pos hword]
      cases o with
      | context c' =>
        rw [getContext_objectToString horb]
        simp only [ok_bind]
        rw [rebindContext, hdone]
        rfl
      | nil => exact absurd (hcontext rfl) id
      | object o => exact absurd (hcontext rfl) id
  | unbind c x =>
    obtain ⟨hid, hkind⟩ := hread
    obtain ⟨s', hdone, hfollows⟩ := unbind_follows orb hs hup hvalid
    obtain ⟨bs, hmem, -⟩ := hvalid
    refine ⟨s', ?_, hfollows⟩
    rw [Record.text, putUnbind_split, getRecord_word (plain_words _ (by simp)) (by decide)
      (by decide), if_neg (by decide), if_neg (by decide),
      if_neg (by decide), if_neg (by decide), if_neg (by decide), if_pos rfl,
      getUnbind, getNonfinalString_putString (hcontents (c, bs) hmem).1.2]
    simp only [ok_bind, getContext_objectToString horb, getNonfinalString_putString hid,
      getFinalString_putString hkind]
    rw [hdone]
    rfl

/-! ### Reading a file -/

lemma replay_of_getRecord {file file' : List UInt8} {fuel : ℕ} (hne : file ≠ [])
    (h : getRecord orb s file = .ok (s', file')) :
    replay orb (fuel + 1) s file = replay orb fuel s' file' := by
  obtain ⟨c, rest, rfl⟩ := List.exists_cons_of_ne_nil hne
  rw [replay, h]

lemma text_ne_nil (orb : Orb) (r : Record) : r.text orb ≠ [] := by
  have hword : ∀ w l : List UInt8, w ≠ [] → w ++ l ≠ [] := fun w l hw h =>
    hw (List.append_eq_nil_iff.mp h).1
  cases r with
  | create id =>
    rw [Record.text, putCreate, List.append_assoc]
    exact hword _ _ (by decide)
  | destroy c =>
    rw [Record.text, putDestroy, List.append_assoc]
    exact hword _ _ (by decide)
  | bind c b =>
    rw [Record.text, ← List.append_nil (putBind _ _ _ _ _), putBind_split]
    exact hword _ _ (by decide)
  | unbind c x =>
    rw [Record.text, ← List.append_nil (putUnbind _ _ _), putUnbind_split]
    exact hword _ _ (by decide)

/-- A legible history is read to its end and followed. -/
theorem replay_lines (horb : orb.Inverse) {rs : List Record} {fuel : ℕ} (hs : s.Ok)
    (hup : s.startingUp = true) (hl : s.contents.Readable orb) (hrs : Legible orb s.contents rs)
    (hfuel : rs.length ≤ fuel) :
    ∃ s', replay orb fuel s (lines orb rs) = (s', none) ∧ s'.Ok ∧
      s'.contents = applyAll s.contents rs ∧ s'.persistentId = s.persistentId ∧ s'.port = s.port ∧
      s'.dataFile = s.dataFile := by
  induction rs generalizing s fuel with
  | nil =>
    refine ⟨s, ?_, hs, rfl, rfl, rfl, rfl⟩
    cases fuel <;> rfl
  | cons r rs ih =>
    obtain ⟨hvalid, hread, hrest⟩ := hrs
    obtain ⟨fuel, rfl⟩ := Nat.exists_eq_succ_of_ne_zero (Nat.ne_of_gt (Nat.lt_of_lt_of_le
      (Nat.succ_pos rs.length) hfuel))
    obtain ⟨s1, hrecord, hfollows⟩ := getRecord_text horb hs hup hvalid hread hl (lines orb rs)
    have hl1 : s1.contents.Readable orb := hfollows.contents ▸ hl.apply hread
    rw [← hfollows.contents] at hrest
    obtain ⟨s2, hreplay, hok, hcontents, hid, hport, hfile⟩ :=
      ih hfollows.ok hfollows.startingUp hl1 hrest (Nat.le_of_succ_le_succ hfuel)
    refine ⟨s2, ?_, hok, ?_, hid.trans hfollows.persistentId, hport.trans hfollows.port,
      hfile.trans hfollows.dataFile⟩
    · have hne : r.text orb ++ lines orb rs ≠ [] := fun h =>
        text_ne_nil orb r (List.append_eq_nil_iff.mp h).1
      show replay orb (fuel + 1) s (r.text orb ++ lines orb rs) = _
      rw [replay_of_getRecord hne hrecord, hreplay]
    · rw [hcontents, hfollows.contents, applyAll_cons]

lemma length_le_lines (orb : Orb) (rs : List Record) : rs.length ≤ (lines orb rs).length := by
  induction rs with
  | nil => exact Nat.zero_le _
  | cons r rs ih =>
    have hpos : 0 < (r.text orb).length := List.length_pos_of_ne_nil (text_ne_nil orb r)
    show rs.length + 1 ≤ (r.text orb ++ lines orb rs).length
    rw [List.length_append]
    omega

lemma putPort_ne_nil (port : ℕ) : putPort port ≠ [] := by
  rw [putPort, List.append_assoc]
  exact fun h => absurd (List.append_eq_nil_iff.mp h).1 (by decide)

lemma putPersistent_ne_nil (id : ObjectId) : putPersistent id ≠ [] := by
  rw [putPersistent, List.append_assoc]
  exact fun h => absurd (List.append_eq_nil_iff.mp h).1 (by decide)

lemma ok_starting (port : ℕ) (file : List UInt8) : (starting port file).Ok where
  contexts := fun _ h => absurd h List.not_mem_nil
  unique := List.nodup_nil

/-- The lines before the first record of a context. -/
lemma replay_header (orb : Orb) (port : ℕ) {id : ObjectId} (hid : id.length < 2 ^ 29) (file : List UInt8)
    (s : NameServer) (hs : s.persistentId = []) :
    ∃ fuel, file.length ≤ fuel ∧ replay orb (header port id ++ file).length s (header port id ++ file) =
      replay orb fuel { s with persistentId := id } file := by
  have hport : putPort port ++ file ≠ [] := fun h =>
    putPort_ne_nil port (List.append_eq_nil_iff.mp h).1
  have hport0 : 0 < (putPort port).length := List.length_pos_of_ne_nil (putPort_ne_nil port)
  rw [header]
  split_ifs with hnil
  · subst hnil
    rw [List.append_nil]
    refine ⟨(putPort port ++ file).length - 1, ?_, ?_⟩
    · rw [List.length_append]
      omega
    · obtain ⟨fuel, hfuel⟩ := Nat.exists_eq_succ_of_ne_zero (List.length_pos_of_ne_nil hport).ne'
      rw [hfuel, replay_of_getRecord hport (getRecord_putPort s port file), ← hs]
      rfl
  · have hid0 : 0 < (putPersistent id).length := List.length_pos_of_ne_nil (putPersistent_ne_nil id)
    have hlength : (putPort port ++ putPersistent id ++ file).length =
        (putPort port).length + (putPersistent id).length + file.length := by
      rw [List.length_append, List.length_append]
    obtain ⟨fuel, hfuel⟩ := Nat.exists_eq_add_of_le
      (show 2 ≤ (putPort port ++ putPersistent id ++ file).length by omega)
    refine ⟨fuel, by omega, ?_⟩
    have hfuel' : (putPort port ++ putPersistent id ++ file).length = fuel + 1 + 1 := by omega
    have hne : putPort port ++ (putPersistent id ++ file) ≠ [] := fun h =>
      putPort_ne_nil port (List.append_eq_nil_iff.mp h).1
    have hne' : putPersistent id ++ file ≠ [] := fun h =>
      putPersistent_ne_nil id (List.append_eq_nil_iff.mp h).1
    rw [hfuel', List.append_assoc, replay_of_getRecord hne (getRecord_putPort s port _),
      replay_of_getRecord hne' (getRecord_putPersistent hid s file)]

/-- A file of a legible history is read to its end, and the contexts are those of the history. -/
theorem init_lines (horb : orb.Inverse) {rs : List Record} (port : ℕ) {id : ObjectId}
    (hid : id.length < 2 ^ 29) (hrs : Legible orb [] rs) :
    ∃ s, init orb port (header port id ++ lines orb rs) = (s, none) ∧ s.Ok ∧
      s.contents = applyAll [] rs ∧ s.persistentId = id ∧ s.port = port ∧
      s.dataFile = header port id ++ lines orb rs ∧ s.startingUp = false := by
  obtain ⟨fuel, hfuel, hheader⟩ := replay_header orb port hid (lines orb rs)
    (starting port (header port id ++ lines orb rs)) rfl
  have hok : NameServer.Ok
      { starting port (header port id ++ lines orb rs) with persistentId := id } :=
    (ok_starting port (header port id ++ lines orb rs)).congr rfl
  obtain ⟨s, hreplay, hok', hcontents, hid', hport, hfile⟩ :=
    replay_lines horb hok rfl (fun _ h => absurd h List.not_mem_nil) hrs ((length_le_lines orb rs).trans hfuel)
  refine ⟨{ s with startingUp := false }, ?_, hok'.congr rfl, hcontents, hid', hport, hfile, rfl⟩
  rw [init, hheader, hreplay]

end NameServer

end Naming

end OmniORB
