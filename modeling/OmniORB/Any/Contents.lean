import OmniORB.Any.Representation

/-!
# What Anys are for

A TypeCode with a value of its type. What the streams, the pointers of the stubs and the messages
hold is said by a meaning that the parameters of the model respect. Over it, what each operation
does to the contents of the Anys, and how it has to end.
-/

namespace OmniORB.Any

variable {TC D V Buf : Type}

/-! ### Meaning -/

/-- The values that streams, messages and pointers hold. -/
structure Meaning (TC D V Buf : Type) where
  /-- The value in the stream of an Any. -/
  contents : TC → Buf → Option V
  /-- The value that comes next in a message. -/
  decode : TC → Reader → Option (V × Reader)
  /-- The value that a pointer refers to. -/
  denotes : TC → Option D → Option V
  /-- The value that a pointer to a `ValueBase` refers to. -/
  denotesBase : Option D → Option V
  /-- The value of the types without data. -/
  empty : V
  /-- Stubs extract values of the type by pointer. -/
  byPointer : TC → Bool

/-- The octets are an encoding of the value where they follow the message. -/
def Meaning.Encodes (μ : Meaning TC D V Buf) (tc : TC) (m o : List UInt8) (v : V) : Prop :=
  ∀ rest, μ.decode tc ⟨m, o ++ rest⟩ = some (v, ⟨m ++ o, rest⟩)

/-- The functions of a stub for the type marshal and unmarshal what the pointers refer to. -/
structure Stub.Lawful (stub : Stub D Buf) (μ : Meaning TC D V Buf) (tc : TC) : Prop where
  toStream : ∀ d v, μ.denotes tc d = some v → μ.contents tc (stub.toStream d) = some v
  toMessage : ∀ d v m, μ.denotes tc d = some v →
    ∃ o, stub.toMessage d m = m ++ o ∧ μ.Encodes tc m o v
  fromStream : ∀ buf v, μ.contents tc buf = some v → μ.denotes tc (stub.fromStream buf) = some v

/-- Values of equivalent types are held alike, and `tcParser` copies them. -/
structure Orb.Lawful (orb : Orb TC D Buf) (μ : Meaning TC D V Buf) : Prop where
  equivalent_self : ∀ tc, orb.equivalent tc tc = true
  contents_eq : ∀ tc tc', orb.equivalent tc tc' = true → μ.contents tc = μ.contents tc'
  decode_eq : ∀ tc tc', orb.equivalent tc tc' = true → μ.decode tc = μ.decode tc'
  denotes_eq : ∀ tc tc', orb.equivalent tc tc' = true → μ.denotes tc = μ.denotes tc'
  byPointer_eq : ∀ tc tc', orb.equivalent tc tc' = true → μ.byPointer tc = μ.byPointer tc'
  isEmpty_eq : ∀ tc tc', orb.equivalent tc tc' = true →
    (orb.kind tc).isEmpty = (orb.kind tc').isEmpty
  isEmpty_tcNull : (orb.kind orb.tcNull).isEmpty = true
  contents_emptyBuf : ∀ tc, (orb.kind tc).isEmpty = true →
    μ.contents tc orb.emptyBuf = some μ.empty
  decode_empty : ∀ tc r, (orb.kind tc).isEmpty = true → μ.decode tc r = some (μ.empty, r)
  copyToMessage : ∀ tc buf v m, μ.contents tc buf = some v →
    ∃ o, orb.copyToMessage tc buf m = m ++ o ∧ μ.Encodes tc m o v
  copyFromMessage : ∀ tc r v r', μ.decode tc r = some (v, r') →
    ∃ buf, orb.copyFromMessage tc r = (buf, some r') ∧ μ.contents tc buf = some v
  unmarshalValueBase : ∀ tc buf v, orb.kind tc = .value ∨ orb.kind tc = .valueBox →
    μ.contents tc buf = some v → μ.denotesBase (orb.unmarshalValueBase buf) = some v

/-! ### Contents -/

/-- The TypeCode of an Any and the value that was last put into it. -/
structure Content (TC V : Type) where
  tc : Option TC
  value : Option V

variable (orb : Orb TC D Buf) (μ : Meaning TC D V Buf)

/-- The content of an Any that is given a stream, or no value yet. -/
def Content.ofBuf (tc : TC) : Option Buf → Content TC V
  | some buf => ⟨some tc, μ.contents tc buf⟩
  | none => ⟨some tc, if (orb.kind tc).isEmpty then some μ.empty else none⟩

/-- What an operation does to the contents of the Anys. -/
def Event.effect (cs : List (Content TC V)) : Event TC D Buf → List (Content TC V)
  | new => cs ++ [⟨none, some μ.empty⟩]
  | newTyped tc buf => cs ++ [.ofBuf orb μ tc buf]
  | newCopy i => cs ++ (cs[i]?).toList
  | assign i j =>
    match cs[j]? with
    | none => cs
    | some c => cs.set i c
  | replace i tc buf => cs.set i (.ofBuf orb μ tc buf)
  | insert i tc _ data => cs.set i ⟨some tc, μ.denotes tc data⟩
  | insertConsuming i tc _ data => cs.set i ⟨some tc, μ.denotes tc data⟩
  | unmarshal i r =>
    match orb.unmarshalTypeCode r with
    | none => cs
    | some (tc, r') => cs.set i ⟨some tc, (μ.decode tc r').map Prod.fst⟩
  | unmarshalDataOnly i r =>
    cs.modify i fun c => { c with value := (μ.decode (orb.get c.tc) r).map Prod.fst }
  | streamToWrite i buf => cs.modify i fun c => { c with value := μ.contents (orb.get c.tc) buf }
  | setType i tc =>
    cs.modify i fun c => if orb.equivalent (orb.get c.tc) tc then { c with tc := some tc } else c
  | _ => cs

/-- What the caller of an operation sees to: that its stub is for the type, and that what it puts
in has a value of the type. Only functions of kinds with a nil insert a null pointer. -/
def Event.Proper (cs : List (Content TC V)) : Event TC D Buf → Prop
  | newTyped tc buf => ∀ b, buf = some b → (μ.contents tc b).isSome = true
  | replace _ tc buf => ∀ b, buf = some b → (μ.contents tc b).isSome = true
  | insert _ tc stub data => stub.Lawful μ tc ∧ (μ.denotes tc data).isSome = true
  | insertConsuming _ tc stub data =>
    stub.Lawful μ tc ∧ (μ.denotes tc data).isSome = true ∧ μ.byPointer tc = true ∧
      (data = none → (orb.kind tc).hasNil = true)
  | extract _ tc stub =>
    stub.Lawful μ tc ∧ μ.byPointer tc = false ∧ (orb.kind tc).isEmpty = false
  | extractSimple _ tc stub =>
    stub.Lawful μ tc ∧ μ.byPointer tc = false ∧ (orb.kind tc).isEmpty = false
  | extractPointer _ tc stub =>
    stub.Lawful μ tc ∧ μ.byPointer tc = true ∧ (orb.kind tc).isEmpty = false
  | extractOwn _ kind stub =>
    kind.isEmpty = false ∧
      ∀ tc, orb.kind tc = kind → stub.Lawful μ tc ∧ μ.byPointer tc = true
  | streamToWrite i buf =>
    ∀ c, cs[i]? = some c → (μ.contents (orb.get c.tc) buf).isSome = true
  | _ => True

/-! ### How operations end -/

/-- An extraction for the type gives the value, and one for another type nothing. -/
def Content.Extracts (c : Content TC V) (tc : TC) (equivalent : Bool) (o : Outcome D Buf) : Prop :=
  if equivalent then
    ∃ d v, o = .extracted true d ∧ μ.denotes tc d = some v ∧ c.value = some v
  else o = .extracted false none

/-- The value is written behind the message. -/
def Content.Writes (c : Content TC V) (m : List UInt8) (o : Outcome D Buf) : Prop :=
  ∃ v octets, c.value = some v ∧ o = .written (m ++ octets) ∧
    μ.Encodes (orb.get c.tc) m octets v

/-- The value is in the stream. -/
def Content.Streams (c : Content TC V) (o : Outcome D Buf) : Prop :=
  ∃ v buf, c.value = some v ∧ o = .stream buf ∧ μ.contents (orb.get c.tc) buf = some v

/-- How an operation on an Any with this content has to end. -/
def Event.Ends (c : Content TC V) (o : Outcome D Buf) : Event TC D Buf → Prop
  | extract _ tc _ => c.Extracts μ tc (orb.equivalent tc (orb.get c.tc)) o
  | extractSimple _ tc _ => c.Extracts μ tc (orb.equivalent (orb.get c.tc) tc) o
  | extractPointer _ tc _ => c.Extracts μ tc (orb.equivalent tc (orb.get c.tc)) o
  | extractOwn _ kind _ =>
    c.Extracts μ (orb.get c.tc) (decide (orb.kind (orb.get c.tc) = kind)) o
  | toValue _ =>
    if orb.kind (orb.get c.tc) = .value ∨ orb.kind (orb.get c.tc) = .valueBox then
      ∃ d v, o = .extracted true d ∧ μ.denotesBase d = some v ∧ c.value = some v
    else o = .extracted false none
  | marshal _ m => c.Writes orb μ (orb.marshalTypeCode (orb.written (orb.get c.tc)) m) o
  | marshalDataOnly _ m => c.Writes orb μ m o
  | unmarshal _ r =>
    ∃ tc r' v rest, orb.unmarshalTypeCode r = some (tc, r') ∧
      μ.decode tc r' = some (v, rest) ∧ o = .read rest
  | unmarshalDataOnly _ r =>
    ∃ v rest, μ.decode (orb.get c.tc) r = some (v, rest) ∧ o = .read rest
  | streamToRead _ => c.Streams orb μ o
  | setType _ tc => o = if orb.equivalent (orb.get c.tc) tc then .done else .thrown
  | value _ => if (orb.kind (orb.get c.tc)).isEmpty then o = .done else c.Streams orb μ o
  | _ => o = .done

/-- The Any that an operation is on. -/
def Event.target : Event TC D Buf → Option ℕ
  | new | newTyped _ _ => none
  | newCopy i | assign i _ | replace i _ _ | insert i _ _ _ | insertConsuming i _ _ _
  | extract i _ _ | extractSimple i _ _ | extractPointer i _ _ | extractOwn i _ _ | toValue i
  | marshal i _ | marshalDataOnly i _ | unmarshal i _ | unmarshalDataOnly i _ | streamToRead i
  | streamToWrite i _ | setType i _ | value i => some i

/-- The operation ends as it has to, which is trivial where there is no such Any. -/
def Event.Right (cs : List (Content TC V)) (o : Outcome D Buf) (e : Event TC D Buf) : Prop :=
  match e.target.bind (cs[·]?) with
  | some c => e.Ends orb μ c o
  | none => o = .done

/-! ### Histories -/

/-- The contents after a history, whose last operation comes first. -/
def contentsAfter : List (Event TC D Buf) → List (Content TC V)
  | [] => []
  | e :: h => e.effect orb μ (contentsAfter h)

/-- Every caller sees to what it has to. -/
def Proper : List (Event TC D Buf) → Prop
  | [] => True
  | e :: h => e.Proper orb μ (contentsAfter orb μ h) ∧ Proper h

/-- Every operation ends as it has to. -/
def Right : List (Event TC D Buf) → Prop
  | [] => True
  | e :: h =>
    e.Right orb μ (contentsAfter orb μ h) (((Store.run orb h).step orb e).2) ∧ Right h

end OmniORB.Any
