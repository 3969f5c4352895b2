import OmniORB.Library.Scan
import OmniORB.Uri.Names

/-!
# The addresses of corbaloc URIs

The escapes and the address parsers of `uri.cc`. A parser takes the octets from `c` to the
terminator and returns those that it leaves. What each of them accepts it reads the same way in
front of a `#`.
-/

namespace OmniORB

open Library

/-- The text of a literal. -/
def ascii (s : String) : List UInt8 := s.toList.map fun ch => UInt8.ofNat ch.toNat

/-- `*c`: the terminator at the end. -/
def peek (c : List UInt8) : UInt8 := c.headD 0

/-! ### Escaping -/

def validKeyChar (c : UInt8) : Bool :=
  (0x41 ≤ c && c ≤ 0x5a) || (0x61 ≤ c && c ≤ 0x7a) || (0x30 ≤ c && c ≤ 0x39) ||
    (ascii ";/?:@&=+$,-_.!~*()'").contains c

/-- The value of a hexadecimal digit. -/
def hexDigit (c : UInt8) : Option UInt8 :=
  if 0x30 ≤ c ∧ c ≤ 0x39 then some (c - 0x30)
  else if 0x41 ≤ c ∧ c ≤ 0x46 then some (c - 0x41 + 10)
  else if 0x61 ≤ c ∧ c ≤ 0x66 then some (c - 0x61 + 10)
  else none

/-- The loop of `unescape` up to `p`, with what is written so far. A digit that is missing there is
`#` or the terminator, so no digit. -/
def unescapeSpan (cap : ℕ) : List UInt8 → List UInt8 → Except UriExn (List UInt8)
  | [], key => do
    let _ ← store cap key 0
    .ok key
  | c :: rest, key =>
    if validKeyChar c then do
      let key ← store cap key c
      unescapeSpan cap rest key
    else if c = 0x25 then
      match rest with
      | hi :: lo :: rest =>
        match hexDigit hi, hexDigit lo with
        | some h, some l => do
          let key ← store cap key (h <<< 4 ||| l)
          unescapeSpan cap rest key
        | _, _ => .error (.badParam .badURIOther)
      | _ => .error (.badParam .badURIOther)
    else .error (.badParam .badURIOther)

/-- `omniURI::unescape`: the octets of the key, without the terminator. -/
def unescape (c : List UInt8) : Except UriExn (List UInt8 × List UInt8) := do
  let span := c.takeWhile (· ≠ 0x23)
  let cap ← stringAlloc (1 + span.length)
  let key ← unescapeSpan cap span []
  .ok (key, c.dropWhile (· ≠ 0x23))

/-! ### Addresses -/

/-- `IiopObjAddr` and `SsliopObjAddr`. -/
structure HostAddr where
  majver : UInt8
  minver : UInt8
  host : CString
  port : ℕ
  deriving DecidableEq

/-- `ObjAddr` and its classes. -/
inductive ObjAddr where
  | rir
  | iiop (a : HostAddr)
  | ssliop (a : HostAddr)
  | uiop (majver minver : UInt8) (filename : CString)
  deriving DecidableEq

/-- `IIOP::DEFAULT_CORBALOC_PORT` -/
def defaultCorbalocPort : ℕ := 2809

def isDigit (c : UInt8) : Bool := 0x30 ≤ c && c ≤ 0x39

/-- `strtoul` to base 10 where a digit stands, for an `unsigned long` of 64 bits. -/
def strtoul (c : List UInt8) : ℕ × List UInt8 :=
  (min ((c.takeWhile isDigit).foldl (fun l d => 10 * l + (d.toNat - 0x30)) 0) (2 ^ 64 - 1),
    c.dropWhile isDigit)

/-- A string of the octets from `c` to `p`. -/
def copyString (b : List UInt8) : Except UriExn CString := do
  let cap ← stringAlloc (1 + b.length)
  if b.length < cap then .ok (.ofBuffer (b ++ [0])) else .error .overrun

/-- A part of a version number. -/
def parseVersionPart (c : List UInt8) : Except UriExn (UInt8 × List UInt8) :=
  if isDigit (peek c) then
    if 0xff < (strtoul c).1 then .error (.badParam .badSchemeSpecificPart)
    else .ok (UInt8.ofNat (strtoul c).1, (strtoul c).2)
  else .error (.badParam .badSchemeSpecificPart)

/-- One octet that has to come next. -/
def expect (x : UInt8) (c : List UInt8) : Except UriExn (Unit × List UInt8) :=
  if peek c = x then .ok ((), c.drop 1) else .error (.badParam .badSchemeSpecificPart)

/-- The octets at which the search for `@` ends. -/
def versionEnd (c : UInt8) : Bool := c = 0x40 || c = 0x3a || c = 0x2c || c = 0x2f || c = 0x23

/-- `ParseVersionNumber` -/
def parseVersionNumber (c : List UInt8) : Except UriExn ((UInt8 × UInt8) × List UInt8) :=
  if peek (c.dropWhile fun x => !versionEnd x) = 0x40 then do
    let maj ← parseVersionPart c
    let dot ← expect 0x2e maj.2
    let min ← parseVersionPart dot.2
    let at' ← expect 0x40 min.2
    .ok ((maj.1, min.1), at'.2)
  else .ok ((1, 0), c)

/-- The octets at which a file name ends. -/
def filenameEnd (c : UInt8) : Bool := c = 0x3a || c = 0x2c || c = 0x23

/-- The octets at which a host name ends. -/
def hostEnd (c : UInt8) : Bool := c = 0x3a || c = 0x2c || c = 0x2f || c = 0x23

/-- A string of at least one octet up to one at which it ends. -/
def parseUntil (stop : UInt8 → Bool) (c : List UInt8) : Except UriExn (CString × List UInt8) :=
  if c.takeWhile (fun x => !stop x) = [] then .error (.badParam .badSchemeSpecificPart)
  else do
    let s ← copyString (c.takeWhile fun x => !stop x)
    .ok (s, c.dropWhile fun x => !stop x)

/-- `UiopObjAddr` -/
def uiopObjAddr (c : List UInt8) : Except UriExn (ObjAddr × List UInt8) := do
  let ver ← parseVersionNumber c
  let filename ← parseUntil filenameEnd ver.2
  .ok (.uiop ver.1.1 ver.1.2 filename.1,
    if peek filename.2 = 0x3a then filename.2.drop 1 else filename.2)

/-- The host of an `IiopObjAddr`, an IPv6 address in brackets or another. -/
def parseHost (c : List UInt8) : Except UriExn (CString × List UInt8) :=
  if peek c = 0x5b then do
    let host ← parseUntil (· = 0x5d) (c.drop 1)
    if peek host.2 = 0x5d then .ok (host.1, host.2.drop 1) else .error (.badParam .badAddress)
  else parseUntil hostEnd c

/-- The port of an `IiopObjAddr`. -/
def parsePort (c : List UInt8) : Except UriExn (ℕ × List UInt8) :=
  if peek c = 0x3a then
    if isDigit (peek (c.drop 1)) then
      if 0xffff < (strtoul (c.drop 1)).1 then .error (.badParam .badAddress)
      else .ok (strtoul (c.drop 1))
    else .ok (defaultCorbalocPort, c.drop 1)
  else .ok (defaultCorbalocPort, c)

/-- An `IiopObjAddr` has no host name. -/
def hostIsEmpty (c : List UInt8) : Bool :=
  peek c = 0 || peek c = 0x2c || peek c = 0x2f || peek c = 0x23

/-- `IiopObjAddr` -/
def iiopObjAddr (c : List UInt8) : Except UriExn (HostAddr × List UInt8) :=
  if hostIsEmpty c then
    .ok (⟨1, 0, .ofBuffer (ascii "localhost"), defaultCorbalocPort⟩, c)
  else do
    let ver ← parseVersionNumber c
    let host ← parseHost ver.2
    let port ← parsePort host.2
    .ok (⟨ver.1.1, ver.1.2, host.1, port.1⟩, port.2)

/-- `!strncmp(c, s, n)` for a literal `s` of `n` characters. -/
def startsWith (s : List UInt8) (c : List UInt8) : Bool := c.take s.length = s

/-- `ObjAddr::parse` -/
def ObjAddr.parse (c : List UInt8) : Except UriExn (ObjAddr × List UInt8) :=
  if startsWith (ascii ":") c then do
    let a ← iiopObjAddr (c.drop 1)
    .ok (.iiop a.1, a.2)
  else if startsWith (ascii "iiop:") c then do
    let a ← iiopObjAddr (c.drop 5)
    .ok (.iiop a.1, a.2)
  else if startsWith (ascii "ssliop:") c then do
    let a ← iiopObjAddr (c.drop 7)
    .ok (.ssliop a.1, a.2)
  else if startsWith (ascii "omniunix:") c then uiopObjAddr (c.drop 9)
  else if startsWith (ascii "rir:") c then .ok (.rir, c.drop 4)
  else .error (.badParam .badSchemeName)

/-! ### In front of a `#` -/

section Hash

variable {w : List UInt8}

lemma peek_append {x : UInt8} (h0 : x ≠ 0) (hx : x ≠ 0x23) (s : List UInt8) :
    peek (s ++ 0x23 :: w) = x ↔ peek s = x := by
  cases s with
  | nil => exact ⟨fun h => absurd h.symm hx, fun h => absurd h.symm h0⟩
  | cons c s => exact Iff.rfl

lemma isDigit_peek_append (s : List UInt8) :
    isDigit (peek (s ++ 0x23 :: w)) = isDigit (peek s) := by
  cases s with
  | nil => rfl
  | cons c s => rfl

lemma strtoul_append (s : List UInt8) :
    strtoul (s ++ 0x23 :: w) = ((strtoul s).1, (strtoul s).2 ++ 0x23 :: w) := by
  have hd : isDigit 0x23 = false := by decide
  rw [strtoul, strtoul, takeWhile_append_cons hd, dropWhile_append_cons hd]

lemma length_strtoul_le (s : List UInt8) : (strtoul s).2.length ≤ s.length :=
  (List.dropWhile_sublist _).length_le

lemma of_peek_ne_zero {s : List UInt8} (h : peek s ≠ 0) : 1 ≤ s.length := by
  cases s with
  | nil => exact absurd rfl h
  | cons c s => exact Nat.le_add_left 1 _

/-- A span up to a delimiter that `#` is one of. -/
lemma delimited_span {α : Type} {f : UInt8 → Bool} (hf : f 0x23 = false)
    (k : List UInt8 → Except UriExn α) :
    Delimited (0x23 :: w) (fun c => k (c.takeWhile f) >>= fun a => .ok (a, c.dropWhile f)) where
  append := by
    intro s a t hs
    obtain ⟨b, hb, heq⟩ := bind_eq_ok.mp hs
    rw [Except.ok.injEq, Prod.mk.injEq] at heq
    simp only [takeWhile_append_cons hf, dropWhile_append_cons hf]
    exact bind_eq_ok.mpr ⟨b, hb, by rw [heq.1, heq.2]⟩
  length_le := by
    intro s a t hs
    obtain ⟨b, hb, heq⟩ := bind_eq_ok.mp hs
    rw [Except.ok.injEq, Prod.mk.injEq] at heq
    rw [← heq.2]
    exact (List.dropWhile_sublist _).length_le

lemma parseVersionPart_delimited : Delimited (0x23 :: w) parseVersionPart where
  append := by
    intro s a t hs
    unfold parseVersionPart at hs ⊢
    rw [isDigit_peek_append, strtoul_append]
    split_ifs at hs ⊢
    simp only [Except.ok.injEq, Prod.mk.injEq] at hs ⊢
    exact ⟨hs.1, by rw [hs.2]⟩
  length_le := by
    intro s a t hs
    unfold parseVersionPart at hs
    split_ifs at hs
    simp only [Except.ok.injEq, Prod.mk.injEq] at hs
    rw [← hs.2]
    exact length_strtoul_le s

lemma expect_delimited {x : UInt8} (h0 : x ≠ 0) (hx : x ≠ 0x23) :
    Delimited (0x23 :: w) (expect x) :=
  .of_drop (c := fun s => peek s = x) (peek_append h0 hx)
    (fun s hs => of_peek_ne_zero (by rw [hs]; exact h0)) (.of_ok ()) (.of_error _)

lemma parseVersionNumber_delimited : Delimited (0x23 :: w) parseVersionNumber := by
  have hp := @parseVersionPart_delimited w
  refine .of_ite (c := fun s => peek (s.dropWhile fun x => !versionEnd x) = 0x40) ?_ ?_
    (.of_ok (1, 0))
  · intro s
    rw [dropWhile_append_cons (by decide)]
    exact peek_append (by decide) (by decide) _
  · refine .bind hp fun maj => ?_
    dsimp only
    refine .bind (expect_delimited (by decide) (by decide)) fun _ => ?_
    dsimp only
    refine .bind hp fun min => ?_
    dsimp only
    exact .bind (expect_delimited (by decide) (by decide)) fun _ => .of_ok (maj, min)

lemma length_parseUntil_le {stop : UInt8 → Bool} {s t : List UInt8} {a : CString}
    (h : parseUntil stop s = .ok (a, t)) : t.length ≤ s.length := by
  unfold parseUntil at h
  split_ifs at h
  obtain ⟨b, -, heq⟩ := bind_eq_ok.mp h
  simp only [Except.ok.injEq, Prod.mk.injEq] at heq
  rw [← heq.2]
  exact (List.dropWhile_sublist _).length_le

lemma parseUntil_delimited {stop : UInt8 → Bool} (h : stop 0x23 = true) :
    Delimited (0x23 :: w) (parseUntil stop) := by
  have hf : (fun x => !stop x) 0x23 = false := by simp [h]
  refine .of_ite (c := fun s => s.takeWhile (fun x => !stop x) = []) ?_ (.of_error _)
    (delimited_span hf copyString)
  intro s
  rw [takeWhile_append_cons (f := fun x => !stop x) hf]

lemma uiopObjAddr_delimited : Delimited (0x23 :: w) uiopObjAddr := by
  refine .bind parseVersionNumber_delimited fun ver => ?_
  dsimp only
  refine .bind (parseUntil_delimited (by decide)) fun filename => ?_
  dsimp only
  have hcolon : Delimited (0x23 :: w) (fun c => if peek c = 0x3a then
      (fun c => .ok (ObjAddr.uiop ver.1 ver.2 filename, c) : Scanner UriExn UInt8 ObjAddr) (c.drop 1)
      else .ok (ObjAddr.uiop ver.1 ver.2 filename, c)) :=
    .of_drop (peek_append (by decide) (by decide))
      (fun s hs => of_peek_ne_zero (by rw [hs]; decide)) (.of_ok _) (.of_ok _)
  convert hcolon using 3
  split_ifs <;> rfl

/-- The search for `]` does not stop at a `#`, but what is accepted has a `]`. -/
lemma parseHost_delimited : Delimited (0x23 :: w) parseHost := by
  have hbracket : ∀ s : List UInt8, peek s = 0x5b → 1 ≤ s.length :=
    fun s hs => of_peek_ne_zero (by rw [hs]; decide)
  refine .of_drop (c := fun s => peek s = 0x5b) (peek_append (by decide) (by decide)) hbracket
    (p := fun s => parseUntil (· = 0x5d) s >>= fun host => if peek host.2 = 0x5d then
      .ok (host.1, host.2.drop 1) else .error (UriExn.badParam .badAddress))
    ?_ (parseUntil_delimited (by decide))
  constructor
  · intro s a t hs
    obtain ⟨⟨host, u⟩, hu, hend⟩ := bind_eq_ok.mp hs
    unfold parseUntil at hu
    split_ifs at hu with hnil
    obtain ⟨str, hcopy, heq⟩ := bind_eq_ok.mp hu
    simp only [Except.ok.injEq, Prod.mk.injEq] at heq
    obtain ⟨rfl, rfl⟩ := heq
    split_ifs at hend with hclose
    simp only [Except.ok.injEq, Prod.mk.injEq] at hend
    obtain ⟨rfl, rfl⟩ := hend
    have hlen : 1 ≤ (s.dropWhile fun x => !decide (x = 0x5d)).length :=
      of_peek_ne_zero (by rw [hclose]; decide)
    obtain ⟨htake, hdrop⟩ := takeWhile_append_of_dropWhile (h := 0x23 :: w)
      (List.ne_nil_of_length_pos hlen)
    have hclose' : peek ((s.dropWhile fun x => !decide (x = 0x5d)) ++ 0x23 :: w) = 0x5d :=
      (peek_append (by decide) (by decide) _).mpr hclose
    refine bind_eq_ok.mpr ⟨(str, (s.dropWhile fun x => !decide (x = 0x5d)) ++ 0x23 :: w), ?_, ?_⟩
    · rw [parseUntil, htake, hdrop, if_neg hnil]
      exact bind_eq_ok.mpr ⟨str, hcopy, rfl⟩
    · dsimp only
      rw [if_pos hclose', List.drop_append_of_le_length hlen]
  · intro s a t hs
    obtain ⟨⟨host, u⟩, hu, hend⟩ := bind_eq_ok.mp hs
    have hle := length_parseUntil_le hu
    split_ifs at hend
    simp only [Except.ok.injEq, Prod.mk.injEq] at hend
    rw [← hend.2, List.length_drop]
    exact (Nat.sub_le _ _).trans hle

lemma parsePort_delimited : Delimited (0x23 :: w) parsePort := by
  have hcolon : ∀ s : List UInt8, peek s = 0x3a → 1 ≤ s.length :=
    fun s hs => of_peek_ne_zero (by rw [hs]; decide)
  refine .of_drop (c := fun s => peek s = 0x3a) (peek_append (by decide) (by decide)) hcolon
    (p := fun s => if isDigit (peek s) then
      if 0xffff < (strtoul s).1 then .error (UriExn.badParam .badAddress) else .ok (strtoul s)
      else .ok (defaultCorbalocPort, s)) ?_ (.of_ok _)
  refine .of_ite (c := fun s => isDigit (peek s) = true) (fun s => by rw [isDigit_peek_append]) ?_
    (.of_ok _)
  refine .of_ite (c := fun s => 0xffff < (strtoul s).1) (fun s => by rw [strtoul_append])
    (.of_error _) ⟨?_, ?_⟩
  · intro s a t hs
    rw [Except.ok.injEq] at hs ⊢
    rw [strtoul_append, hs]
  · intro s a t hs
    rw [Except.ok.injEq] at hs
    have hle := length_strtoul_le s
    rw [hs] at hle
    exact hle

lemma iiopObjAddr_delimited : Delimited (0x23 :: w) iiopObjAddr := by
  have hempty : ∀ s, hostIsEmpty (s ++ 0x23 :: w) = hostIsEmpty s := by
    intro s
    cases s with
    | nil => rfl
    | cons c s => rfl
  refine .of_ite (c := fun s => hostIsEmpty s = true) (fun s => by rw [hempty]) (.of_ok _) ?_
  refine .bind parseVersionNumber_delimited fun ver => ?_
  dsimp only
  refine .bind parseHost_delimited fun host => ?_
  dsimp only
  refine .bind parsePort_delimited fun port => ?_
  exact .of_ok (HostAddr.mk ver.1 ver.2 host port)

lemma startsWith_append {x : List UInt8} (hx : 0x23 ∉ x) (s : List UInt8) :
    startsWith x (s ++ 0x23 :: w) = startsWith x s := by
  rw [startsWith, startsWith, decide_eq_decide]
  induction x generalizing s with
  | nil => simp
  | cons a x ih =>
    rw [List.mem_cons, not_or] at hx
    cases s with
    | nil => simp [hx.1]
    | cons c s => simpa using fun _ => ih hx.2 s

lemma length_of_startsWith {x s : List UInt8} {n : ℕ} (hn : x.length = n)
    (h : startsWith x s = true) : n ≤ s.length := by
  rw [startsWith, decide_eq_true_eq] at h
  have hlen := congrArg List.length h
  rw [List.length_take] at hlen
  omega

lemma ObjAddr.parse_delimited : Delimited (0x23 :: w) ObjAddr.parse := by
  have hi := @iiopObjAddr_delimited w
  have hstart : ∀ x : List UInt8, 0x23 ∉ x → ∀ s,
      startsWith x (s ++ 0x23 :: w) = true ↔ startsWith x s = true := by
    intro x hx s
    rw [startsWith_append hx]
  have haddr : ∀ f : HostAddr → ObjAddr, Delimited (0x23 :: w)
      (fun s => iiopObjAddr s >>= fun a => (.ok (f a.1, a.2) : Except UriExn _)) :=
    fun f => .bind hi fun a => .of_ok (f a)
  refine .of_drop (c := fun s => startsWith (ascii ":") s = true) (hstart _ (by decide))
    (fun s => length_of_startsWith rfl) (haddr .iiop) ?_
  refine .of_drop (c := fun s => startsWith (ascii "iiop:") s = true) (hstart _ (by decide))
    (fun s => length_of_startsWith rfl) (haddr .iiop) ?_
  refine .of_drop (c := fun s => startsWith (ascii "ssliop:") s = true) (hstart _ (by decide))
    (fun s => length_of_startsWith rfl) (haddr .ssliop) ?_
  refine .of_drop (c := fun s => startsWith (ascii "omniunix:") s = true) (hstart _ (by decide))
    (fun s => length_of_startsWith rfl) uiopObjAddr_delimited ?_
  exact .of_drop (c := fun s => startsWith (ascii "rir:") s = true) (hstart _ (by decide))
    (fun s => length_of_startsWith rfl) (.of_ok ObjAddr.rir) (.of_error _)

end Hash

end OmniORB
