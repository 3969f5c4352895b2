import OmniORB.Uri.HostPort

/-!
# Validators and extractors of addresses

`validHostPort` and `validHostPortRange`, and the functions that extract what they validate. All of
them test the result of `sscanf` for 0 only: at the end of the input it is -1, and nothing has been
assigned.
-/

namespace OmniORB

open Library

/-- A variable is used that nothing was assigned to. -/
inductive Unassigned where
  | unassigned
  deriving DecidableEq, Repr

/-- What `sscanf(c, "%d%n", &v, &n)` comes to: the end of the input before anything but white space,
no number, or a number and what is left behind it. -/
inductive Scanned where
  | eof
  | mismatch
  | number (v : ℤ) (rest : List UInt8)
  deriving DecidableEq, Repr

/-- `toInt` is what `%d` stores for a number, also for one that is no `int`. -/
def sscanf (toInt : ℤ → ℤ) (c : List UInt8) : Scanned :=
  if c.dropWhile isSpace = [] then .eof
  else (scanInt c).elim .mismatch fun r => .number (toInt r.1) r.2

namespace Validators

/-- The host, and what follows its colon: all the functions begin with this. -/
def portText (addr : List UInt8) : Option (List UInt8 × List UInt8) :=
  if peek addr = 0x5b then
    let host := (addr.drop 1).takeWhile (· ≠ 0x5d)
    let p := (addr.drop 1).dropWhile (· ≠ 0x5d)
    if p = [] ∨ host = [] then none
    else if peek (p.drop 1) ≠ 0x3a then none
    else some (host, p.drop 2)
  else
    let p := addr.dropWhile (· ≠ 0x3a)
    if p = [] then none
    else some (addr.takeWhile (· ≠ 0x3a), p.drop 1)

variable (toInt : ℤ → ℤ)

/-- The port that is read, if there is one in the range, and what is left behind it. -/
def readPort (p : List UInt8) : Except Unassigned (Option (ℤ × List UInt8)) :=
  match sscanf toInt p with
  | .eof => .error .unassigned
  | .mismatch => .ok none
  | .number v rest => .ok (if v < 0 ∨ 65535 < v then none else some (v, rest))

/-- `extractHostPort` with `rest`: the host, the port and what is left. -/
def extractRest (addr : List UInt8) : Except Unassigned (Option (List UInt8 × ℤ × List UInt8)) :=
  match portText addr with
  | none => .ok none
  | some (host, p) =>
    if p ≠ [] then (readPort toInt p).map fun r => r.map fun v => (host, v.1, v.2)
    else .ok (some (host, 0, p))

/-- `extractHostPort` without `rest`: trailing characters are refused. -/
def extractHostPort (addr : List UInt8) : Except Unassigned (Option (List UInt8 × ℤ)) := do
  match ← extractRest toInt addr with
  | none => .ok none
  | some (host, port, rest) => .ok (if rest ≠ [] then none else some (host, port))

/-- `extractHostPortRange` -/
def extractHostPortRange (addr : List UInt8) : Except Unassigned (Option (List UInt8 × ℤ × ℤ)) := do
  match ← extractRest toInt addr with
  | none => .ok none
  | some (host, portMin, rest) =>
    if peek rest = 0x2d then
      match ← readPort toInt (rest.drop 1) with
      | none => .ok none
      | some (portMax, rest) =>
        if portMax < portMin then .ok none
        else .ok (if rest ≠ [] then none else some (host, portMin, portMax))
    else .ok (if rest ≠ [] then none else some (host, portMin, portMin))

/-- `validHostPortOptRange` -/
def validHostPortOptRange (addr : List UInt8) (rangeOk : Bool) : Except Unassigned Bool :=
  match portText addr with
  | none => .ok false
  | some (_, p) =>
    if p = [] then .ok true
    else do
      match ← readPort toInt p with
      | none => .ok false
      | some (v1, p) =>
        if p = [] then .ok true
        else if peek p ≠ 0x2d ∨ ¬rangeOk then .ok false
        else
          match ← readPort toInt (p.drop 1) with
          | none => .ok false
          | some (v2, p) => .ok (if v2 < v1 then false else decide (p = []))

/-- `validHostPort` -/
def validHostPort (addr : List UInt8) : Except Unassigned Bool :=
  validHostPortOptRange toInt addr false

/-- `validHostPortRange` -/
def validHostPortRange (addr : List UInt8) : Except Unassigned Bool :=
  validHostPortOptRange toInt addr true

/-- What is asked of an address: the validators and the extractors come to the same, and use nothing
that was not assigned. -/
structure Agree (addr : List UInt8) : Prop where
  single : ∃ valid a, validHostPort toInt addr = .ok valid ∧ extractHostPort toInt addr = .ok a ∧
    (valid = true ↔ a.isSome)
  range : ∃ valid a, validHostPortRange toInt addr = .ok valid ∧
    extractHostPortRange toInt addr = .ok a ∧ (valid = true ↔ a.isSome) ∧
    ∀ host portMin portMax, a = some (host, portMin, portMax) →
      0 ≤ portMin ∧ portMin ≤ portMax ∧ portMax ≤ 65535

/-- There is more than white space where a number is read: behind the colon, unless nothing at all
is there, and behind the `-` of a range. -/
structure Assigned (addr : List UInt8) : Prop where
  port : ∀ host p, portText addr = some (host, p) → p ≠ [] → p.dropWhile isSpace ≠ []
  range : ∀ host p v rest, portText addr = some (host, p) →
    readPort toInt p = .ok (some (v, rest)) → peek rest = 0x2d → (rest.drop 1).dropWhile isSpace ≠ []

variable {toInt} {addr host p rest : List UInt8} {v : ℤ}

lemma readPort_error_iff : readPort toInt p = .error .unassigned ↔ p.dropWhile isSpace = [] := by
  unfold readPort sscanf
  by_cases h : p.dropWhile isSpace = []
  · rw [if_pos h]
    exact iff_of_true rfl h
  · rw [if_neg h]
    rcases scanInt p with - | r
    · exact iff_of_false (fun h => by cases h) h
    · exact iff_of_false (fun h => by cases h) h

/-- A port that is read is in the range. -/
lemma readPort_bounds (h : readPort toInt p = .ok (some (v, rest))) : 0 ≤ v ∧ v ≤ 65535 := by
  unfold readPort at h
  rcases hs : sscanf toInt p with - | - | ⟨w, r⟩
  · rw [hs] at h
    cases h
  · rw [hs] at h
    cases h
  · rw [hs] at h
    dsimp only at h
    split_ifs at h with hrange
    · cases h
    · rw [Except.ok.injEq, Option.some.injEq, Prod.mk.injEq] at h
      omega

/-- Nothing but the end of the input is an error. -/
lemma readPort_cases (toInt : ℤ → ℤ) (p : List UInt8) :
    readPort toInt p = .error .unassigned ∨ readPort toInt p = .ok none ∨
      ∃ v rest, readPort toInt p = .ok (some (v, rest)) := by
  rcases readPort toInt p with - | - | ⟨v, rest⟩
  · exact .inl rfl
  · exact .inr (.inl rfl)
  · exact .inr (.inr ⟨v, rest, rfl⟩)

/-! ### The extractor that knows no missing value -/

lemma scanInt_blank (h : p.dropWhile isSpace = []) : scanInt p = none := by
  rw [scanInt, h]
  rfl

/-- A port that is read is the one that `scanPort` reads. -/
lemma scanPort_eq (p : List UInt8) : scanPort p =
    (readPort id p).toOption.join.map fun v => (UInt16.ofNat v.1.toNat, v.2) := by
  unfold scanPort readPort sscanf
  by_cases hp : p.dropWhile isSpace = []
  · rw [if_pos hp, scanInt_blank hp]
    rfl
  · rw [if_neg hp]
    rcases scanInt p with - | ⟨v, rest⟩
    · rfl
    · change (if v < 0 ∨ 65535 < v then none else some (UInt16.ofNat v.toNat, rest)) =
        Option.map _ (if v < 0 ∨ 65535 < v then none else some (v, rest))
      by_cases hv : v < 0 ∨ 65535 < v
      · rw [if_pos hv, if_pos hv]
        rfl
      · rw [if_neg hv, if_neg hv]
        rfl

lemma extractHostPort_portText (addr : List UInt8) : OmniORB.extractHostPort addr =
    (portText addr).bind fun a => (portAtEnd a.2).map (Address.mk (.ofBuffer a.1)) := by
  unfold OmniORB.extractHostPort portText
  dsimp only
  split_ifs <;> rfl

/-- Where every port is assigned, what is extracted is what `extractHostPort` gives. -/
lemma extractHostPort_eq (addr : List UInt8) : OmniORB.extractHostPort addr =
    (extractHostPort id addr).toOption.join.map fun a =>
      ⟨.ofBuffer a.1, UInt16.ofNat a.2.toNat⟩ := by
  rw [extractHostPort_portText]
  rcases h : portText addr with - | ⟨host, p⟩
  · rw [extractHostPort, extractRest, h]
    rfl
  · rw [extractHostPort, extractRest, h]
    dsimp only [Option.bind_some]
    by_cases hp : p = []
    · subst hp
      rfl
    · rw [if_pos hp, portAtEnd, if_neg hp, scanPort_eq]
      rcases readPort id p with - | - | ⟨v, rest⟩
      · rfl
      · rfl
      · change Option.map _ (if rest = [] then some (UInt16.ofNat v.toNat) else none) =
          Option.map _ (if rest ≠ [] then none else some (host, v))
        by_cases hrest : rest = []
        · rw [if_pos hrest, if_neg (not_not.mpr hrest)]
          rfl
        · rw [if_neg hrest, if_pos hrest]
          rfl

/-! ### What follows the colon -/

/-- Nothing follows it: the port is zero. -/
lemma agree_nil (h : portText addr = some (host, [])) : Agree toInt addr := by
  have hrest : extractRest toInt addr = .ok (some (host, 0, [])) := by
    rw [extractRest, h]
    rfl
  have hvalid (rangeOk : Bool) : validHostPortOptRange toInt addr rangeOk = .ok true := by
    rw [validHostPortOptRange, h]
    rfl
  refine ⟨⟨true, some (host, 0), hvalid false, ?_, by simp⟩,
    ⟨true, some (host, 0, 0), hvalid true, ?_, by simp, ?_⟩⟩
  · rw [extractHostPort, hrest]
    rfl
  · rw [extractHostPortRange, hrest]
    rfl
  · intro host' lo hi heq
    rw [Option.some.injEq, Prod.mk.injEq, Prod.mk.injEq] at heq
    omega

lemma agree_none (h : extractRest toInt addr = .ok none)
    (hvalid : ∀ rangeOk, validHostPortOptRange toInt addr rangeOk = .ok false) :
    Agree toInt addr := by
  refine ⟨⟨false, none, hvalid false, ?_, by simp⟩, ⟨false, none, hvalid true, ?_, by simp, ?_⟩⟩
  · rw [extractHostPort, h]
    rfl
  · rw [extractHostPortRange, h]
    rfl
  · intro host lo hi heq
    cases heq

/-! ### A port is read -/

lemma extractRest_port (h : portText addr = some (host, p)) (hp : p ≠ [])
    (hport : readPort toInt p = .ok (some (v, rest))) :
    extractRest toInt addr = .ok (some (host, v, rest)) := by
  rw [extractRest, h]
  dsimp only
  rw [if_pos hp, hport]
  rfl

/-- Without a range, what is left behind the port decides. -/
lemma single_port (h : portText addr = some (host, p)) (hp : p ≠ [])
    (hport : readPort toInt p = .ok (some (v, rest))) :
    validHostPort toInt addr = .ok (decide (rest = [])) ∧
      extractHostPort toInt addr = .ok (if rest ≠ [] then none else some (host, v)) := by
  constructor
  · rw [validHostPort, validHostPortOptRange, h]
    dsimp only
    rw [if_neg hp, hport]
    by_cases hrest : rest = []
    · rw [hrest]
      rfl
    · change (if rest = [] then Except.ok true else if peek rest ≠ 0x2d ∨ ¬false = true then _ else _) = _
      rw [if_neg hrest, if_pos (.inr (by decide)), decide_eq_false hrest]
  · rw [extractHostPort, extractRest_port h hp hport]
    rfl

/-- With one, and no `-` behind the port, it does too. -/
lemma range_port (h : portText addr = some (host, p)) (hp : p ≠ [])
    (hport : readPort toInt p = .ok (some (v, rest))) (hdash : peek rest ≠ 0x2d) :
    validHostPortRange toInt addr = .ok (decide (rest = [])) ∧
      extractHostPortRange toInt addr = .ok (if rest ≠ [] then none else some (host, v, v)) := by
  constructor
  · rw [validHostPortRange, validHostPortOptRange, h]
    dsimp only
    rw [if_neg hp, hport]
    by_cases hrest : rest = []
    · rw [hrest]
      rfl
    · change (if rest = [] then Except.ok true else if peek rest ≠ 0x2d ∨ ¬true = true then _ else _) = _
      rw [if_neg hrest, if_pos (.inl hdash), decide_eq_false hrest]
  · rw [extractHostPortRange, extractRest_port h hp hport]
    change (if peek rest = 0x2d then _ else _) = _
    rw [if_neg hdash]

lemma ne_nil_of_peek (hdash : peek rest = 0x2d) : rest ≠ [] := by
  rintro rfl
  exact absurd hdash (by decide)

/-- Behind a `-` the second port is read by both. -/
lemma range_dash (h : portText addr = some (host, p)) (hp : p ≠ [])
    (hport : readPort toInt p = .ok (some (v, rest))) (hdash : peek rest = 0x2d) :
    validHostPortRange toInt addr = (readPort toInt (rest.drop 1)).map
        (fun r => r.elim false fun q => if q.1 < v then false else decide (q.2 = [])) ∧
      extractHostPortRange toInt addr = (readPort toInt (rest.drop 1)).map
        (fun r => r.bind fun q =>
          if q.1 < v then none else if q.2 ≠ [] then none else some (host, v, q.1)) := by
  constructor
  · rw [validHostPortRange, validHostPortOptRange, h]
    dsimp only
    rw [if_neg hp, hport]
    change (if rest = [] then Except.ok true else if peek rest ≠ 0x2d ∨ ¬true = true then _ else _) = _
    rw [if_neg (ne_nil_of_peek hdash), if_neg (by simp [hdash])]
    rcases readPort toInt (rest.drop 1) with - | - | q
    · rfl
    · rfl
    · rfl
  · rw [extractHostPortRange, extractRest_port h hp hport]
    change (if peek rest = 0x2d then _ else _) = _
    rw [if_pos hdash]
    rcases readPort toInt (rest.drop 1) with - | - | q
    · rfl
    · rfl
    · change (if q.1 < v then Except.ok none else Except.ok _) = Except.ok _
      by_cases hq : q.1 < v
      · rw [if_pos hq]
        change _ = Except.ok (if q.1 < v then none else _)
        rw [if_pos hq]
      · rw [if_neg hq]
        change _ = Except.ok (if q.1 < v then none else _)
        rw [if_neg hq]

/-- A port is read: only what follows the `-` of a range can still go wrong. -/
lemma agree_port (h : portText addr = some (host, p)) (hp : p ≠ [])
    (hport : readPort toInt p = .ok (some (v, rest))) :
    Agree toInt addr ↔ (peek rest = 0x2d → (rest.drop 1).dropWhile isSpace ≠ []) := by
  have hv := readPort_bounds hport
  obtain ⟨hvalid, hextract⟩ := single_port h hp hport
  have hsingle : ∃ valid a, validHostPort toInt addr = .ok valid ∧
      extractHostPort toInt addr = .ok a ∧ (valid = true ↔ a.isSome) := by
    refine ⟨_, _, hvalid, hextract, ?_⟩
    by_cases hrest : rest = []
    · rw [if_neg (not_not.mpr hrest), decide_eq_true hrest]
      exact iff_of_true rfl rfl
    · rw [if_pos hrest, decide_eq_false hrest]
      exact iff_of_false Bool.false_ne_true Bool.false_ne_true
  by_cases hdash : peek rest = 0x2d
  · obtain ⟨hvalid, hextract⟩ := range_dash h hp hport hdash
    constructor
    · rintro ⟨-, valid, a, hok, -⟩ - hspace
      rw [hvalid, readPort_error_iff.mpr hspace] at hok
      cases hok
    · intro hspace
      refine ⟨hsingle, ?_⟩
      rw [hvalid, hextract]
      rcases readPort_cases toInt (rest.drop 1) with herror | hnone | ⟨w, left, hport'⟩
      · exact absurd (readPort_error_iff.mp herror) (hspace hdash)
      · rw [hnone]
        exact ⟨false, none, rfl, rfl, iff_of_false Bool.false_ne_true Bool.false_ne_true,
          fun _ _ _ heq => by cases heq⟩
      · have hw := readPort_bounds hport'
        rw [hport']
        refine ⟨_, _, rfl, rfl, ?_⟩
        dsimp only [Option.elim_some, Option.bind_some]
        by_cases hlt : w < v
        · rw [if_pos hlt, if_pos hlt]
          exact ⟨iff_of_false Bool.false_ne_true Bool.false_ne_true, fun _ _ _ heq => by cases heq⟩
        · rw [if_neg hlt, if_neg hlt]
          by_cases hleft : left = []
          · rw [if_neg (not_not.mpr hleft), decide_eq_true hleft]
            refine ⟨iff_of_true rfl rfl, fun host' lo hi heq => ?_⟩
            rw [Option.some.injEq, Prod.mk.injEq, Prod.mk.injEq] at heq
            omega
          · rw [if_pos hleft, decide_eq_false hleft]
            exact ⟨iff_of_false Bool.false_ne_true Bool.false_ne_true,
              fun _ _ _ heq => by cases heq⟩
  · refine iff_of_true ⟨hsingle, ?_⟩ fun hdash' => absurd hdash' hdash
    obtain ⟨hvalid, hextract⟩ := range_port h hp hport hdash
    refine ⟨_, _, hvalid, hextract, ?_⟩
    by_cases hrest : rest = []
    · rw [if_neg (not_not.mpr hrest), decide_eq_true hrest]
      refine ⟨iff_of_true rfl rfl, fun host' lo hi heq => ?_⟩
      rw [Option.some.injEq, Prod.mk.injEq, Prod.mk.injEq] at heq
      omega
    · rw [if_pos hrest, decide_eq_false hrest]
      exact ⟨iff_of_false Bool.false_ne_true Bool.false_ne_true, fun _ _ _ heq => by cases heq⟩

/-- Only white space follows the colon: `v` is used with nothing assigned to it. -/
lemma validHostPort_error (h : portText addr = some (host, p)) (hp : p ≠ [])
    (hspace : p.dropWhile isSpace = []) : validHostPort toInt addr = .error .unassigned := by
  rw [validHostPort, validHostPortOptRange, h]
  dsimp only
  rw [if_neg hp, readPort_error_iff.mpr hspace]
  rfl

end Validators

open Validators in
/-- The validators and extractors agree on an address if and only if there is more than white space
wherever they read a number. -/
theorem validators_agree_iff (toInt : ℤ → ℤ) (addr : List UInt8) :
    Agree toInt addr ↔ Assigned toInt addr := by
  rcases h : portText addr with - | ⟨host, p⟩
  · -- no colon: refused by all four
    have hassigned : Assigned toInt addr := by
      constructor
      · intro host p heq
        rw [h] at heq
        cases heq
      · intro host p v rest heq
        rw [h] at heq
        cases heq
    refine iff_of_true (agree_none ?_ fun rangeOk => ?_) hassigned
    · rw [extractRest, h]
    · rw [validHostPortOptRange, h]
  have hports : Assigned toInt addr ↔ (p ≠ [] → p.dropWhile isSpace ≠ []) ∧
      ∀ v rest, readPort toInt p = .ok (some (v, rest)) → peek rest = 0x2d →
        (rest.drop 1).dropWhile isSpace ≠ [] := by
    constructor
    · intro ha
      exact ⟨ha.port host p h, fun v rest => ha.range host p v rest h⟩
    · rintro ⟨hport, hrange⟩
      refine ⟨fun host' p' heq => ?_, fun host' p' v rest heq => ?_⟩
      all_goals
        rw [h, Option.some.injEq, Prod.mk.injEq] at heq
        obtain ⟨-, rfl⟩ := heq
      · exact hport
      · exact hrange v rest
  rw [hports]
  by_cases hp : p = []
  · subst hp
    refine iff_of_true (agree_nil h) ⟨fun hp => absurd rfl hp, fun v rest heq => ?_⟩
    rw [readPort_error_iff.mpr rfl] at heq
    cases heq
  rcases readPort_cases toInt p with herror | hnone | ⟨v, rest, hport⟩
  · have hspace := readPort_error_iff.mp herror
    refine iff_of_false (fun ha => ?_) fun ha => ha.1 hp hspace
    obtain ⟨valid, a, hvalid, -⟩ := ha.single
    rw [validHostPort_error h hp hspace] at hvalid
    cases hvalid
  · refine iff_of_true (agree_none ?_ fun rangeOk => ?_) ⟨fun _ hspace => ?_, fun v rest heq => ?_⟩
    · rw [extractRest, h]
      dsimp only
      rw [if_pos hp, hnone]
      rfl
    · rw [validHostPortOptRange, h]
      dsimp only
      rw [if_neg hp, hnone]
      rfl
    · rw [readPort_error_iff.mpr hspace] at hnone
      cases hnone
    · rw [hnone] at heq
      cases heq
  · rw [agree_port h hp hport]
    constructor
    · refine fun hdash => ⟨fun _ hspace => ?_, fun v' rest' heq => ?_⟩
      · rw [readPort_error_iff.mpr hspace] at hport
        cases hport
      · rw [hport, Except.ok.injEq, Option.some.injEq, Prod.mk.injEq] at heq
        obtain ⟨-, rfl⟩ := heq
        exact hdash
    · rintro ⟨-, hrange⟩
      exact hrange v rest hport

open Validators in
/-- `h: `, and `h:80-` as a range: nothing is assigned where a port is read. -/
theorem validators_agree_blank :
    ¬Agree id (ascii "h: ") ∧ ¬Agree id (ascii "h:80-") ∧
      validHostPort id (ascii "h: ") = .error .unassigned ∧
      Validators.extractHostPort id (ascii "h: ") = .error .unassigned ∧
      validHostPortRange id (ascii "h:80-") = .error .unassigned ∧
      extractHostPortRange id (ascii "h:80-") = .error .unassigned := by
  have hvalid : validHostPort id (ascii "h: ") = .error .unassigned := by decide
  have hrange : validHostPortRange id (ascii "h:80-") = .error .unassigned := by decide
  refine ⟨fun ha => ?_, fun ha => ?_, hvalid, by decide, hrange, by decide⟩
  · obtain ⟨valid, a, hok, -⟩ := ha.single
    rw [hvalid] at hok
    cases hok
  · obtain ⟨valid, a, hok, -⟩ := ha.range
    rw [hrange] at hok
    cases hok

end OmniORB
