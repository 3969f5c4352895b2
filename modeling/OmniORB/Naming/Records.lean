import OmniORB.Uri.CorbanameRoundTrip
import OmniORB.Uri.HostPort

/-!
# The records of the data file

The functions of `log.cc` that write a record of the data file of omniNames, and those that read one
token of it.
-/

namespace OmniORB

namespace Naming

/-! ### References -/

/-- `PortableServer::ObjectId` -/
abbrev ObjectId := List UInt8

/-- A reference to a naming context, or to an object that is none. -/
inductive ObjectRef where
  | nil
  | context (id : ObjectId)
  | object (o : ℕ)
  deriving DecidableEq

/-- `CosNaming::BindingType` -/
inductive BindingType where
  | nobject | ncontext
  deriving DecidableEq

/-- What omniNames has from the ORB. `object_to_string` and `string_to_object` change references to
strings and back, and `isA` is what comes of asking another object than a naming context whether it is
one: the answer no, or a system exception. -/
structure Orb where
  objectToString : ObjectRef → CString
  stringToObject : CString → Option ObjectRef
  isA : ℕ → Option ℕ

/-- A string that stands for a reference is read as that reference. -/
def Orb.Inverse (orb : Orb) : Prop := ∀ r, orb.stringToObject (orb.objectToString r) = some r

/-- The string for the reference is shorter than the longest token. -/
def Orb.Short (orb : Orb) (r : ObjectRef) : Prop := (orb.objectToString r).octets.length < 2 ^ 30

/-- `CosNaming::NamingContext::_narrow`. A reference to a naming context has a type that says so. -/
def Orb.narrow (orb : Orb) : ObjectRef → Except ℕ (Option ObjectId)
  | .nil => .ok none
  | .context id => .ok (some id)
  | .object o => (orb.isA o).elim (.ok none) .error

/-! ### Writing -/

/-- An `int` that counts down from `n`: how often it is positive. -/
def countDown (n : ℕ) : ℕ := if n % 2 ^ 32 < 2 ^ 31 then n % 2 ^ 32 else 0

/-- What `putString` puts for one character. -/
def putChar (c : UInt8) : List UInt8 :=
  if c = 0x5c then [0x5c, 0x5c]
  else if c = 0x20 then [0x5c, 0x20]
  else if c = 0x0a then [0x5c, 0x6e]
  else if c = 0x09 then [0x5c, 0x74]
  else if c = 0x0d then [0x5c, 0x72]
  else [c]

def putString (str : CString) : List UInt8 :=
  (str.octets.take (countDown str.octets.length)).flatMap putChar

/-- Two digits for each octet. -/
def putKey (id : ObjectId) : List UInt8 :=
  id.flatMap fun c : UInt8 => [hexChar ((c &&& 0xf0) >>> 4), hexChar (c &&& 0xf)]

def putPort (p : ℕ) : List UInt8 := ascii "port " ++ decimal p ++ [0x0a]

def putPersistent (id : ObjectId) : List UInt8 := ascii "persistent " ++ putKey id ++ [0x0a]

def putCreate (id : ObjectId) : List UInt8 := ascii "create " ++ putKey id ++ [0x0a]

def putDestroy (orb : Orb) (nc : ObjectRef) : List UInt8 :=
  ascii "destroy " ++ putString (orb.objectToString nc) ++ [0x0a]

def putBind (orb : Orb) (nc : ObjectRef) (n : NameComponent) (obj : ObjectRef) (t : BindingType) :
    List UInt8 :=
  ascii "bind " ++ putString (orb.objectToString nc) ++ [0x20] ++ putString n.id ++ [0x20] ++
    putString n.kind ++ (if t = .nobject then ascii " nobject " else ascii " ncontext ") ++
    putString (orb.objectToString obj) ++ [0x0a]

def putUnbind (orb : Orb) (nc : ObjectRef) (n : NameComponent) : List UInt8 :=
  ascii "unbind " ++ putString (orb.objectToString nc) ++ [0x20] ++ putString n.id ++ [0x20] ++
    putString n.kind ++ [0x0a]

/-! ### Reading -/

/-- What ends `init` other than its return. `badAlloc` is for a buffer that cannot grow, `undefined` for
a key that is not written in hexadecimal digits, and `uncaught` for an exception of an operation. -/
inductive ReadError where
  | parseError
  | badAlloc
  | undefined
  | uncaught
  deriving DecidableEq, Repr

/-- The size of the buffer, an `int`, when the next character is read. -/
def grow (bufsz len : ℕ) : Except ReadError ℕ :=
  if len = bufsz then (if bufsz + bufsz < 2 ^ 31 then .ok (bufsz + bufsz) else .error .badAlloc)
  else .ok bufsz

/-- What stands for a character after a backslash; any other one is left out. -/
def unescaped (c : UInt8) : List UInt8 :=
  if c = 0x5c then [0x5c]
  else if c = 0x20 then [0x20]
  else if c = 0x6e then [0x0a]
  else if c = 0x74 then [0x09]
  else if c = 0x72 then [0x0d]
  else []

/-- The loop of `getString`, with what is in the buffer. The result is the token, the character that
ended it, and the rest of the file. -/
def getLoop (bufsz : ℕ) (buf : List UInt8) (backslash : Bool) :
    List UInt8 → Except ReadError (CString × UInt8 × List UInt8)
  | [] => .error .parseError
  | c :: file =>
    if backslash then do
      let buf := buf ++ unescaped c
      let bufsz ← grow bufsz buf.length
      getLoop bufsz buf false file
    else if c = 0x5c then getLoop bufsz buf true file
    else if c = 0x20 ∨ c = 0x0a then .ok (.ofBuffer (buf ++ [0]), c, file)
    else do
      let buf := buf ++ [c]
      let bufsz ← grow bufsz buf.length
      getLoop bufsz buf false file

def getString (file : List UInt8) : Except ReadError (CString × UInt8 × List UInt8) :=
  getLoop 512 [] false file

def getFinalString (file : List UInt8) : Except ReadError (CString × List UInt8) := do
  let (buf, c, file) ← getString file
  if c = 0x0a then .ok (buf, file) else .error .parseError

def getNonfinalString (file : List UInt8) : Except ReadError (CString × List UInt8) := do
  let (buf, c, file) ← getString file
  if c = 0x20 then .ok (buf, file) else .error .parseError

/-- `sscanf(p, "%02x", &n)` for two digits after each other, up to the last that has a second one. -/
def scanKey : List UInt8 → Except ReadError ObjectId
  | hi :: lo :: str =>
    match hexDigit hi, hexDigit lo with
    | some h, some l => (scanKey str).map fun id => (h <<< 4 ||| l) :: id
    | _, _ => .error .undefined
  | _ => .ok []

def getKey (file : List UInt8) : Except ReadError (ObjectId × List UInt8) := do
  let (str, file) ← getFinalString file
  let id ← scanKey str.octets
  .ok (id, file)

/-! ### What is written is read -/

lemma countDown_of_lt {n : ℕ} (h : n < 2 ^ 31) : countDown n = n := by
  have hmod : n % 2 ^ 32 = n := Nat.mod_eq_of_lt (h.trans (by norm_num))
  rw [countDown, hmod, if_pos h]

lemma putString_of_lt {str : CString} (h : str.octets.length < 2 ^ 30) :
    putString str = str.octets.flatMap putChar := by
  rw [putString, countDown_of_lt (h.trans (by norm_num)), List.take_length]

lemma grow_of_le {bufsz len : ℕ} (hpos : 0 < len) (h : len ≤ bufsz) (hlen : len < 2 ^ 30) :
    ∃ bufsz', grow bufsz len = .ok bufsz' ∧ len < bufsz' := by
  rcases h.eq_or_lt with rfl | hlt
  · exact ⟨len + len, by rw [grow, if_pos rfl, if_pos (by omega)], by omega⟩
  · exact ⟨bufsz, if_neg hlt.ne, hlt⟩

/-- A character is put after a backslash, with what stands for it, or as it is. -/
lemma putChar_cases (c : UInt8) :
    (∃ e, putChar c = [0x5c, e] ∧ unescaped e = [c]) ∨
      (putChar c = [c] ∧ c ≠ 0x5c ∧ ¬ (c = 0x20 ∨ c = 0x0a)) := by
  rw [putChar]
  split_ifs with h1 h2 h3 h4 h5
  · exact Or.inl ⟨0x5c, rfl, by rw [h1]; rfl⟩
  · exact Or.inl ⟨0x20, rfl, by rw [h2]; rfl⟩
  · exact Or.inl ⟨0x6e, rfl, by rw [h3]; rfl⟩
  · exact Or.inl ⟨0x74, rfl, by rw [h4]; rfl⟩
  · exact Or.inl ⟨0x72, rfl, by rw [h5]; rfl⟩
  · exact Or.inr ⟨rfl, h1, not_or.mpr ⟨h2, h3⟩⟩

lemma getLoop_putChar {l : List UInt8} {bufsz : ℕ} {buf : List UInt8} (hbuf : buf.length < bufsz)
    (hlen : buf.length + l.length < 2 ^ 30) {sep : UInt8} (hsep : sep = 0x20 ∨ sep = 0x0a)
    (file : List UInt8) :
    getLoop bufsz buf false (l.flatMap putChar ++ sep :: file) =
      .ok (.ofBuffer (buf ++ l ++ [0]), sep, file) := by
  induction l generalizing bufsz buf with
  | nil =>
    have hback : sep ≠ 0x5c := by
      rcases hsep with rfl | rfl <;> decide
    rw [List.flatMap_nil, List.nil_append, getLoop, if_neg Bool.false_ne_true, if_neg hback,
      if_pos hsep, List.append_nil]
  | cons c l ih =>
    rw [List.length_cons] at hlen
    have hlength : (buf ++ [c]).length = buf.length + 1 := by simp
    obtain ⟨bufsz', hgrow, hbuf'⟩ := @grow_of_le bufsz (buf ++ [c]).length (by omega)
      (by omega) (by omega)
    have hrest := ih hbuf' (by omega)
    rw [List.append_assoc buf, List.singleton_append] at hrest
    rw [List.flatMap_cons, List.append_assoc]
    rcases putChar_cases c with ⟨e, hput, hread⟩ | ⟨hput, hback, hend⟩
    · rw [hput, List.cons_append, List.singleton_append, getLoop, if_neg Bool.false_ne_true,
        if_pos rfl, getLoop, if_pos rfl, hread]
      simp only [hgrow]
      exact hrest
    · rw [hput, List.singleton_append, getLoop, if_neg Bool.false_ne_true, if_neg hback, if_neg hend]
      simp only [hgrow]
      exact hrest

/-- A string and the character that ends it are read back. -/
theorem getString_putString {str : CString} (h : str.octets.length < 2 ^ 30) {sep : UInt8}
    (hsep : sep = 0x20 ∨ sep = 0x0a) (file : List UInt8) :
    getString (putString str ++ sep :: file) = .ok (str, sep, file) := by
  rw [putString_of_lt h, getString,
    getLoop_putChar (by decide) (by rwa [List.length_nil, Nat.zero_add]) hsep, List.nil_append]
  have hstr : CString.ofBuffer (str.octets ++ [0]) = str :=
    CString.ext (CString.ofBuffer_append_nul str.noNul [])
  rw [hstr]

lemma getNonfinalString_putString {str : CString} (h : str.octets.length < 2 ^ 30)
    (file : List UInt8) : getNonfinalString (putString str ++ 0x20 :: file) = .ok (str, file) := by
  rw [getNonfinalString, getString_putString h (Or.inl rfl)]
  rfl

lemma getFinalString_putString {str : CString} (h : str.octets.length < 2 ^ 30)
    (file : List UInt8) : getFinalString (putString str ++ 0x0a :: file) = .ok (str, file) := by
  rw [getFinalString, getString_putString h (Or.inr rfl)]
  rfl

/-- Text without a character that is put after a backslash. -/
def Plain (l : List UInt8) : Prop := ∀ c ∈ l, putChar c = [c]

instance : DecidablePred Plain := fun l => inferInstanceAs (Decidable (∀ c ∈ l, putChar c = [c]))

lemma plain_of_letters {l : List UInt8} (h : l.all (fun c => 0x61 ≤ c && c ≤ 0x7a) = true) :
    Plain l := by
  intro c hc
  have hletter := List.all_eq_true.mp h c hc
  rw [Bool.and_eq_true, decide_eq_true_eq, decide_eq_true_eq] at hletter
  have hne {d : UInt8} (hd : d < 0x61) : c ≠ d := fun hcd =>
    absurd hletter.1 (hcd ▸ UInt8.not_le.mpr hd)
  have hback : c ≠ 0x5c := hne (by decide)
  rw [putChar, if_neg hback, if_neg (hne (by decide)), if_neg (hne (by decide)),
    if_neg (hne (by decide)), if_neg (hne (by decide))]

lemma Plain.flatMap_putChar {l : List UInt8} (h : Plain l) : l.flatMap putChar = l := by
  induction l with
  | nil => rfl
  | cons c l ih =>
    rw [List.flatMap_cons, h c List.mem_cons_self, ih fun c' hc' => h c' (List.mem_cons_of_mem c hc')]
    rfl

lemma Plain.getString {l : List UInt8} (h : Plain l) (hlen : l.length < 2 ^ 30) {sep : UInt8}
    (hsep : sep = 0x20 ∨ sep = 0x0a) (file : List UInt8) :
    getString (l ++ sep :: file) = .ok (.ofBuffer (l ++ [0]), sep, file) := by
  have hread := @getLoop_putChar l 512 [] (by decide) (by rwa [List.length_nil, Nat.zero_add]) sep
    hsep file
  rwa [h.flatMap_putChar] at hread

/-- The word at the start of a record. -/
lemma getNonfinalString_word {l : List UInt8} (h : Plain l) (hlen : l.length < 2 ^ 30)
    (file : List UInt8) : getNonfinalString (l ++ 0x20 :: file) = .ok (.ofBuffer (l ++ [0]), file) := by
  rw [getNonfinalString, h.getString hlen (Or.inl rfl)]
  rfl

/-! ### Keys -/

lemma putKey_cons (c : UInt8) (id : ObjectId) :
    putKey (c :: id) = hexChar ((c &&& 0xf0) >>> 4) :: hexChar (c &&& 0xf) :: putKey id := rfl

lemma length_putKey (id : ObjectId) : (putKey id).length = 2 * id.length := by
  induction id with
  | nil => rfl
  | cons c id ih =>
    rw [putKey_cons, List.length_cons, List.length_cons, List.length_cons, ih]
    omega

lemma hexChar_plain (c : UInt8) :
    (putChar (hexChar ((c &&& 0xf0) >>> 4)) = [hexChar ((c &&& 0xf0) >>> 4)] ∧
      hexChar ((c &&& 0xf0) >>> 4) ≠ 0) ∧
    putChar (hexChar (c &&& 0xf)) = [hexChar (c &&& 0xf)] ∧ hexChar (c &&& 0xf) ≠ 0 := by
  have hdigits : ∀ n : Fin 16, putChar (hexChar (UInt8.ofNat n)) = [hexChar (UInt8.ofNat n)] ∧
      hexChar (UInt8.ofNat n) ≠ 0 := by decide
  have hdigit {v : UInt8} (h : v.toNat < 16) : putChar (hexChar v) = [hexChar v] ∧ hexChar v ≠ 0 := by
    have hv := hdigits ⟨v.toNat, h⟩
    rwa [UInt8.ofNat_toNat] at hv
  exact ⟨hdigit (toNat_high_lt c), hdigit (toNat_low_lt c)⟩

lemma plain_putKey (id : ObjectId) : Plain (putKey id) ∧ 0 ∉ putKey id := by
  induction id with
  | nil => exact ⟨fun _ h => absurd h List.not_mem_nil, List.not_mem_nil⟩
  | cons c id ih =>
    obtain ⟨⟨hhigh, hhigh0⟩, hlow, hlow0⟩ := hexChar_plain c
    rw [putKey_cons]
    constructor
    · rintro c' hc'
      rcases List.mem_cons.mp hc' with rfl | hc'
      · exact hhigh
      · rcases List.mem_cons.mp hc' with rfl | hc'
        · exact hlow
        · exact ih.1 c' hc'
    · simp only [List.mem_cons, not_or]
      exact ⟨hhigh0.symm, hlow0.symm, ih.2⟩

lemma scanKey_putKey (id : ObjectId) : scanKey (putKey id) = .ok id := by
  induction id with
  | nil => rfl
  | cons c id ih =>
    rw [putKey_cons, scanKey, hexDigit_hexChar_high, hexDigit_hexChar_low]
    simp only [ih, high_or_low]
    rfl

/-- A key is read back. -/
theorem getKey_putKey {id : ObjectId} (h : id.length < 2 ^ 29) (file : List UInt8) :
    getKey (putKey id ++ 0x0a :: file) = .ok (id, file) := by
  have hlen : (putKey id).length < 2 ^ 30 := by
    rw [length_putKey]
    omega
  have hstr : (CString.ofBuffer (putKey id ++ [0])).octets = putKey id :=
    CString.ofBuffer_append_nul (plain_putKey id).2 []
  rw [getKey, getFinalString, (plain_putKey id).1.getString hlen (Or.inr rfl)]
  show ((scanKey (CString.ofBuffer (putKey id ++ [0])).octets).bind fun id => .ok (id, file)) = _
  rw [hstr, scanKey_putKey]
  rfl

end Naming

end OmniORB
