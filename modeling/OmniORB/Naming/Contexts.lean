import OmniORB.Library.DoublyLinked
import OmniORB.Library.Transitions
import OmniORB.Naming.Records

/-!
# Naming contexts

The operations of `NamingContext_i.cc` with `ObjectBinding.h`, and what they write to the data file.
References lead from one context to another in any way.
-/

namespace OmniORB

open Library

namespace Naming

/-- `NotFoundReason` -/
inductive NotFoundReason where
  | missingNode | notContext
  deriving DecidableEq

/-- The exceptions of the operations. `persistStore` and `objectNotExist` are system exceptions, and so is
what another object raises when it is asked for its type. -/
inductive NamingExn where
  | notFound (why : NotFoundReason) (restOfName : Name)
  | alreadyBound
  | invalidName
  | notEmpty
  | persistStore
  | objectNotExist
  | system (e : ℕ)
  deriving DecidableEq

/-- The data of an `ObjectBinding`; the name has one component. -/
structure ObjectBinding where
  bindingName : NameComponent
  bindingType : BindingType
  object : ObjectRef
  deriving DecidableEq

/-- The context that the binding of the first component of `n` leads to. -/
def ObjectBinding.context (ob : ObjectBinding) (orb : Orb) (n : Name) : Except NamingExn ObjectId :=
  match orb.narrow ob.object with
  | .error e => .error (.system e)
  | .ok none => .error (.notFound .notContext n)
  | .ok (some c) => if ob.bindingType ≠ .ncontext then .error (.notFound .notContext n) else .ok c

/-- `NamingContext_i`, with the list from `headBinding` to `tailBinding` and its `size`. -/
structure NamingContext where
  id : ObjectId
  list : DoublyLinked ObjectBinding

/-- The contexts from `headContext` on, and the `omniNameslog` with its file. -/
structure NameServer where
  contexts : List NamingContext
  port : ℕ
  persistentId : ObjectId
  dataFile : List UInt8
  startingUp : Bool
  checkpointNeeded : Bool

/-- What comes of writing a record: when it fails, some octets of it may have got to the file. -/
inductive Write where
  | done
  | failed (octets : ℕ)
  deriving DecidableEq

namespace NamingContext

/-- A context without bindings. -/
def new (id : ObjectId) : NamingContext := ⟨id, .empty⟩

/-- The constructor of `ObjectBinding` -/
def newBinding (ctx : NamingContext) (b : ObjectBinding) : NamingContext :=
  { ctx with list := ctx.list.insert b none }

/-- The destructor of `ObjectBinding` -/
def deleteBinding (ctx : NamingContext) (ob : ℕ) : NamingContext :=
  { ctx with list := ctx.list.remove ob }

/-- `delete ob`, where there is one, and a new binding. -/
def replace (ctx : NamingContext) (ob : Option (ℕ × ObjectBinding)) (b : ObjectBinding) :
    NamingContext :=
  (ob.elim ctx fun ob => ctx.deleteBinding ob.1).newBinding b

/-- `resolve_simple`: the binding with its address. -/
def resolveSimple (ctx : NamingContext) (n : NameComponent) : Option (ℕ × ObjectBinding) :=
  ctx.list.nodes.find? fun ob => ob.2.bindingName = n

end NamingContext

namespace NameServer

/-- A request comes to the context that is activated with the id. -/
def context (s : NameServer) (c : ObjectId) : Option NamingContext :=
  s.contexts.find? fun ctx => ctx.id = c

def setContext (s : NameServer) (c : ObjectId) (f : NamingContext → NamingContext) : NameServer :=
  { s with contexts := s.contexts.map fun ctx => if ctx.id = c then f ctx else ctx }

/-- `create`, `destroy`, `bind` and `unbind` of `omniNameslog`: whether the record is written. -/
def log (s : NameServer) (record : List UInt8) (w : Write) : Bool × NameServer :=
  if s.startingUp then (true, s)
  else
    match w with
    | .done => (true, { s with dataFile := s.dataFile ++ record, checkpointNeeded := true })
    | .failed k => (false, { s with dataFile := s.dataFile ++ record.take k })

variable (orb : Orb)

/-- `resolve_compound`: the context of the first component. What is left of the name is its tail. -/
def resolveCompound (s : NameServer) (c : ObjectId) (n : Name) : Except NamingExn ObjectId :=
  match s.context c with
  | none => .error .objectNotExist
  | some ctx =>
    match n with
    | [] => .error .invalidName
    | x :: _ =>
      match ctx.resolveSimple x with
      | none => .error (.notFound .missingNode n)
      | some (_, ob) => ob.context orb n

/-- `resolve`; `resolve_compound` refuses a name without components. -/
def resolve (s : NameServer) : ObjectId → Name → Except NamingExn ObjectRef
  | c, [] => (s.resolveCompound orb c []).map .context
  | c, [x] =>
    match s.context c with
    | none => .error .objectNotExist
    | some ctx =>
      match ctx.resolveSimple x with
      | none => .error (.notFound .missingNode [x])
      | some (_, ob) => .ok ob.object
  | c, x :: y :: rest =>
    match s.resolveCompound orb c (x :: y :: rest) with
    | .error e => .error e
    | .ok context => s.resolve context (y :: rest)

/-- `bind_helper` for a name of one component. -/
def bindSimple (s : NameServer) (c : ObjectId) (ctx : NamingContext) (x : NameComponent)
    (obj : ObjectRef) (t : BindingType) (rebind : Bool) (w : Write) :
    Except NamingExn Unit × NameServer :=
  let ob := ctx.resolveSimple x
  if ob.isSome ∧ !rebind then (.error .alreadyBound, s)
  else
    match s.log (putBind orb (.context c) x obj t) w with
    | (false, s) => (.error .persistStore, s)
    | (true, s) => (.ok (), s.setContext c fun ctx => ctx.replace ob ⟨x, t, obj⟩)

/-- `bind_helper`. For a compound name it calls the operation that it was called for, and narrowing the
reference to the type that it has gives the same reference. -/
def bindHelper (s : NameServer) (obj : ObjectRef) (t : BindingType) (rebind : Bool) (w : Write) :
    ObjectId → Name → Except NamingExn Unit × NameServer
  | c, [] => ((s.resolveCompound orb c []).map fun _ => (), s)
  | c, [x] =>
    match s.context c with
    | none => (.error .objectNotExist, s)
    | some ctx => s.bindSimple orb c ctx x obj t rebind w
  | c, x :: y :: rest =>
    match s.resolveCompound orb c (x :: y :: rest) with
    | .error e => (.error e, s)
    | .ok context => s.bindHelper obj t rebind w context (y :: rest)

def bind (s : NameServer) (c : ObjectId) (n : Name) (obj : ObjectRef) (w : Write) :
    Except NamingExn Unit × NameServer :=
  s.bindHelper orb obj .nobject false w c n

def rebind (s : NameServer) (c : ObjectId) (n : Name) (obj : ObjectRef) (w : Write) :
    Except NamingExn Unit × NameServer :=
  s.bindHelper orb obj .nobject true w c n

def bindContext (s : NameServer) (c : ObjectId) (n : Name) (nc : ObjectRef) (w : Write) :
    Except NamingExn Unit × NameServer :=
  s.bindHelper orb nc .ncontext false w c n

def rebindContext (s : NameServer) (c : ObjectId) (n : Name) (nc : ObjectRef) (w : Write) :
    Except NamingExn Unit × NameServer :=
  s.bindHelper orb nc .ncontext true w c n

/-- `unbind` for a name of one component. -/
def unbindSimple (s : NameServer) (c : ObjectId) (ctx : NamingContext) (x : NameComponent)
    (w : Write) : Except NamingExn Unit × NameServer :=
  match ctx.resolveSimple x with
  | none => (.error (.notFound .missingNode [x]), s)
  | some (ob, _) =>
    match s.log (putUnbind orb (.context c) x) w with
    | (false, s) => (.error .persistStore, s)
    | (true, s) => (.ok (), s.setContext c fun ctx => ctx.deleteBinding ob)

def unbind (s : NameServer) (w : Write) : ObjectId → Name → Except NamingExn Unit × NameServer
  | c, [] => ((s.resolveCompound orb c []).map fun _ => (), s)
  | c, [x] =>
    match s.context c with
    | none => (.error .objectNotExist, s)
    | some ctx => s.unbindSimple orb c ctx x w
  | c, x :: y :: rest =>
    match s.resolveCompound orb c (x :: y :: rest) with
    | .error e => (.error e, s)
    | .ok context => s.unbind w context (y :: rest)

/-- The constructor of `NamingContext_i` -/
def newNamingContext (s : NameServer) (id : ObjectId) (w : Write) :
    Except NamingExn ObjectRef × NameServer :=
  match s.log (putCreate id) w with
  | (false, s) => (.error .persistStore, s)
  | (true, s) => (.ok (.context id), { s with contexts := s.contexts ++ [.new id] })

/-- `new_context`, with the id that the POA gives the reference. -/
def newContext (s : NameServer) (c id : ObjectId) (w : Write) :
    Except NamingExn ObjectRef × NameServer :=
  match s.context c with
  | none => (.error .objectNotExist, s)
  | some _ => s.newNamingContext id w

def destroy (s : NameServer) (c : ObjectId) (w : Write) : Except NamingExn Unit × NameServer :=
  match s.context c with
  | none => (.error .objectNotExist, s)
  | some ctx =>
    if ctx.list.head.isSome then (.error .notEmpty, s)
    else
      match s.log (putDestroy orb (.context c)) w with
      | (false, s) => (.error .persistStore, s)
      | (true, s) => (.ok (), { s with contexts := s.contexts.filter fun ctx => ctx.id ≠ c })

/-- `bind_new_context` for a name of one component. -/
def bindNewSimple (s : NameServer) (id : ObjectId) (create bind destroy : Write) (c : ObjectId)
    (x : NameComponent) : Except NamingExn ObjectRef × NameServer :=
  match s.newContext c id create with
  | (.error e, s) => (.error e, s)
  | (.ok nc, s) =>
    match s.bindContext orb c [x] nc bind with
    | (.ok _, s) => (.ok nc, s)
    | (.error e, s) =>
      match s.destroy orb id destroy with
      | (.ok _, s) => (.error e, s)
      | (.error e', s) => (.error e', s)

/-- `bind_new_context`, with the writes that it may make: for the new context, for its binding, and for
its destruction. -/
def bindNewContext (s : NameServer) (id : ObjectId) (create bind destroy : Write) :
    ObjectId → Name → Except NamingExn ObjectRef × NameServer
  | c, [] => ((s.resolveCompound orb c []).map .context, s)
  | c, [x] => s.bindNewSimple orb id create bind destroy c x
  | c, x :: y :: rest =>
    match s.resolveCompound orb c (x :: y :: rest) with
    | .error e => (.error e, s)
    | .ok context => s.bindNewContext id create bind destroy context (y :: rest)

/-- What `checkpoint` writes. -/
def checkpointText (s : NameServer) : List UInt8 :=
  putPort s.port ++ (if s.persistentId = [] then [] else putPersistent s.persistentId) ++
    (s.contexts.flatMap fun ctx => putCreate ctx.id) ++
    s.contexts.flatMap fun ctx => ctx.list.nodes.flatMap fun ob =>
      putBind orb (.context ctx.id) ob.2.bindingName ob.2.object ob.2.bindingType

/-- `checkpoint`, when nothing goes wrong with its files. -/
def checkpoint (s : NameServer) : NameServer :=
  if !s.checkpointNeeded then s
  else { s with dataFile := s.checkpointText orb, checkpointNeeded := false }

end NameServer

end Naming

end OmniORB
