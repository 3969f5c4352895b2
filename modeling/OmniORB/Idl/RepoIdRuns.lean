import OmniORB.Idl.RepoIdNesting
import OmniORB.Library.Pointwise

/-!
# Runs of the front end

The stack of prefixes holds the prefixes that are in force, and each declaration has the id that the
history gives it, as long as the versions have small numbers, no pragma is for a forward declaration
of a struct or union, and every union has a switch type.
-/

namespace OmniORB.Idl

open List Library

/-! ### Declarations -/

/-- What the front end knows of a declaration is what the history says of it. -/
structure DeclRepoId.Right (d : DeclRepoId) (a : DeclaredId) : Prop where
  kind : d.kind = a.kind
  identifier : d.identifier = a.name
  scopePrefix : d.scopePrefix = a.scopePrefix
  set : d.set = a.setting.isSome
  repoId : d.repoId = a.repoId
  ofId : ∀ repoId, a.setting = some (.id repoId) → ∃ minor, (d.maj, d.min) = idVersion repoId minor
  ofVersion : ∀ maj min : ℕ, a.setting = some (.version maj min) → d.maj = maj ∧ d.min = min

section Settings

variable {d : DeclRepoId} {a : DeclaredId}

lemma settle_of_set {s s' : Setting} (h : a.setting = some s) : a.settle s' = a := by
  rw [DeclaredId.settle, if_pos (.inr (by rw [h]; rfl))]

lemma settle_of_unset {s : Setting} (hkind : a.kind ≠ .enumerator) (h : a.setting = none) :
    a.settle s = { a with setting := some s } := by
  rw [DeclaredId.settle, if_neg]
  rw [h]
  rintro (hk | hs)
  · exact hkind hk
  · cases hs

lemma accepts_of_unset {s : Setting} (h : a.setting = none) : a.Accepts s := by
  simp [DeclaredId.Accepts, h]

lemma DeclRepoId.Right.set_eq_true (hr : d.Right a) {s : Setting} (h : a.setting = some s) :
    d.set = true := by
  rw [hr.set, h]
  rfl

lemma DeclRepoId.Right.set_eq_false (hr : d.Right a) (h : a.setting = none) : d.set = false := by
  rw [hr.set, h]
  rfl

/-- An id is taken or compared with the one that is there. -/
theorem DeclRepoId.Right.setRepoId (hr : d.Right a) (hkind : a.kind ≠ .enumerator)
    (repoId : List UInt8) :
    (d.setRepoId repoId).1.Right (a.settle (.id repoId)) ∧
      ((d.setRepoId repoId).2 = true ↔ ¬a.Accepts (.id repoId)) := by
  cases hs : a.setting with
  | none =>
    rw [settle_of_unset hkind hs, DeclRepoId.setRepoId, hr.set_eq_false hs, if_neg (by decide)]
    refine ⟨⟨hr.kind, hr.identifier, hr.scopePrefix, rfl, rfl, ?_, ?_⟩, ?_⟩
    · rintro _ ⟨⟩
      exact ⟨d.min, rfl⟩
    · rintro _ _ ⟨⟩
    · simp [accepts_of_unset hs]
  | some s =>
    rw [settle_of_set hs, DeclRepoId.setRepoId, if_pos (hr.set_eq_true hs)]
    refine ⟨hr, ?_⟩
    have haccepts : a.Accepts (.id repoId) ↔ repoId = a.repoId := by
      cases s <;> simp [DeclaredId.Accepts, hs]
    rw [haccepts, decide_eq_true_eq, hr.repoId]

/-- A version is taken, or compared with the one that is there or is in the id that is there. -/
theorem DeclRepoId.Right.setVersion (hr : d.Right a) (hkind : a.kind ≠ .enumerator)
    {maj min : ℕ} (hmaj : Small maj) (hmin : Small min)
    (hid : ∀ repoId, a.setting = some (.id repoId) → SmallVersion repoId) :
    ∃ r, d.setVersion (toShort maj) (toShort min) = some r ∧
      r.1.Right (a.settle (.version maj min)) ∧
      (r.2 = true ↔ ¬a.Accepts (.version maj min)) := by
  rw [toShort_of_small hmaj, toShort_of_small hmin]
  cases hs : a.setting with
  | none =>
    rw [DeclRepoId.setVersion, hr.set_eq_false hs, if_neg (by decide), genRepoId_of_small hmaj hmin]
    refine ⟨_, rfl, ?_, ?_⟩
    · rw [settle_of_unset hkind hs]
      refine ⟨hr.kind, hr.identifier, hr.scopePrefix, rfl, ?_, ?_, ?_⟩
      · simp only [hr.scopePrefix, hr.identifier]
        rfl
      · rintro _ ⟨⟩
      · rintro _ _ ⟨⟩
        exact ⟨rfl, rfl⟩
    · simp [accepts_of_unset hs]
  | some s =>
    rw [DeclRepoId.setVersion, if_pos (hr.set_eq_true hs)]
    refine ⟨_, rfl, ?_, ?_⟩
    · rw [settle_of_set hs]
      exact hr
    · cases s with
      | id repoId =>
        obtain ⟨minor, hversion⟩ := hr.ofId repoId hs
        have haccepts : a.Accepts (.version maj min) ↔ HasVersion repoId maj min := by
          simp [DeclaredId.Accepts, hs]
        have hread : idVersion repoId minor = ((maj : ℤ), (min : ℤ)) ↔ HasVersion repoId maj min :=
          idVersion_eq_iff (hid repoId hs)
        rw [haccepts, ← hread, ← hversion, Prod.mk.injEq, decide_eq_true_eq, not_and_or]
      | version maj' min' =>
        obtain ⟨h1, h2⟩ := hr.ofVersion maj' min' hs
        have haccepts : a.Accepts (.version maj min) ↔ maj = maj' ∧ min = min' := by
          simp [DeclaredId.Accepts, hs]
        rw [haccepts, h1, h2, decide_eq_true_eq, not_and_or, Ne, Ne, Nat.cast_inj, Nat.cast_inj]
        tauto

end Settings

/-! ### Steps -/

/-- The front end's state is the one that the history gives. -/
structure RepoState.Right (st : RepoState) (h : List Event) : Prop where
  prefixes : ∀ depth, st.prefixes[depth]? = inForce h depth
  decls : Forall₂ DeclRepoId.Right st.decls (declaredIds h)
  errors : st.errors = reports h

/-- A pragma of a version has small numbers, also where it is compared with an id; no pragma is for
a forward declaration of a struct or union; the scope of a union ends where it has a switch type. -/
def Event.Meets (h : List Event) : Event → Prop
  | .endScope noSwitchType => noSwitchType = false
  | .pragmaId k _ => ∀ a, (declaredIds h)[k]? = some a → a.kind.visited = true
  | .pragmaVersion k maj min =>
    ∀ a, (declaredIds h)[k]? = some a → a.kind ≠ .enumerator →
      a.kind.visited = true ∧ Small maj ∧ Small min ∧
        ∀ repoId, a.setting = some (.id repoId) → SmallVersion repoId
  | _ => True

/-- Every event of the history meets the condition. -/
def Meets : List Event → Prop
  | [] => True
  | e :: h => e.Meets h ∧ Meets h

namespace RepoState

variable {st : RepoState} {h : List Event}

lemma right_initial : initial.Right [] where
  prefixes := by
    intro depth
    cases depth <;> rfl
  decls := .nil
  errors := rfl

lemma Right.current (hr : st.Right h) : st.current = (inForce h 0).getD .newFile := by
  rw [← hr.prefixes 0, RepoState.current, List.headD_eq_head?_getD, List.head?_eq_getElem?]

lemma Right.current_str (hr : st.Right h) : st.current.str = prefixIn h := by
  rw [hr.current, prefixIn]

/-- There is always a prefix in force. -/
lemma isSome_inForce_zero (ho : Opened h) : (inForce h 0).isSome = true := by
  induction h with
  | nil => rfl
  | cons e h ih =>
    obtain ⟨hend, ho⟩ := ho
    cases e with
    | declare kind identifier fwd =>
      rw [inForce]
      split_ifs
      · simpa using ih ho
      · exact ih ho
    | endScope => exact hend rfl
    | newFile => rfl
    | endFile => exact hend rfl
    | pragmaPrefix => simpa [inForce] using ih ho
    | pragmaId => exact ih ho
    | pragmaVersion => exact ih ho

lemma Right.getElem?_cons_prefixes (hr : st.Right h) (p : Prefix) (depth : ℕ) :
    (p :: st.prefixes)[depth]? = nested (some p) (inForce h) depth := by
  cases depth with
  | zero => rfl
  | succ depth => exact hr.prefixes depth

/-- What is above the bottom of the stack is removed from it. -/
lemma Right.getElem?_endPrefix (hr : st.Right h) (hopen : (inForce h 1).isSome = true)
    (depth : ℕ) : (endPrefix st.prefixes)[depth]? = inForce h (depth + 1) := by
  have hlen : 1 < st.prefixes.length := by
    rw [← hr.prefixes 1] at hopen
    simpa using hopen
  rw [endPrefix, if_pos hlen, List.getElem?_tail, hr.prefixes]

/-! #### Declarations -/

lemma Right.forwardOf (hr : st.Right h) (kind : DeclKind) (fwd : Option ℕ) :
    (st.forwardOf kind fwd = none ∧ taken kind fwd (declaredIds h) = none) ∨
      ∃ d a, st.forwardOf kind fwd = some d ∧ taken kind fwd (declaredIds h) = some a ∧
        d.Right a := by
  cases fwd with
  | none => exact .inl ⟨rfl, rfl⟩
  | some i =>
    rw [RepoState.forwardOf, taken, Option.bind_some, Option.bind_some]
    cases ha : (declaredIds h)[i]? with
    | none =>
      left
      rw [getElem?_eq_none_of_forall₂ hr.decls ha]
      exact ⟨rfl, rfl⟩
    | some a =>
      obtain ⟨d, hd, hda⟩ := exists_getElem?_of_forall₂ hr.decls ha
      rw [hd]
      cases hkind : kind.takesOver a.kind with
      | false =>
        left
        simp [hda.kind, hkind]
      | true =>
        right
        exact ⟨d, a, by simp [hda.kind, hkind], by simp [hkind], hda⟩

/-- A new declaration has version 1.0, or the id of its forward declaration. -/
theorem Right.declare (hr : st.Right h) (ho : Opened h) (kind : DeclKind)
    (identifier : List UInt8) (fwd : Option ℕ) :
    ∃ st', st.declare kind identifier fwd = some st' ∧
      st'.Right (.declare kind identifier fwd :: h) := by
  have hone : Small 1 := by decide
  have hzero : Small 0 := by decide
  have hgen : genRepoId st.current.str (unescaped identifier) 1 0
      = some (omgId st.current.str (unescaped identifier) 1 0) := genRepoId_of_small hone hzero
  have hcurrent := hr.current_str
  have hlen := hr.decls.length_eq
  obtain ⟨p, hp⟩ := Option.isSome_iff_exists.mp (isSome_inForce_zero ho)
  rw [RepoState.declare, hgen]
  refine ⟨_, rfl, ?_, ?_, ?_⟩
  · intro depth
    rw [inForce, hp]
    by_cases hkind : kind.opensScope = true
    · rw [if_pos hkind, if_pos hkind, hr.getElem?_cons_prefixes, hr.current, hp]
      rfl
    · rw [if_neg hkind, if_neg hkind]
      exact hr.prefixes depth
  · rw [declaredIds]
    apply forall₂_append_singleton hr.decls
    rcases hr.forwardOf kind fwd with ⟨h1, h2⟩ | ⟨d, a, h1, h2, hda⟩
    · rw [h1, h2]
      refine ⟨rfl, rfl, hcurrent, rfl, ?_, ?_, ?_⟩
      · rw [hcurrent]
        rfl
      · rintro _ ⟨⟩
      · rintro _ _ ⟨⟩
    · rw [h1, h2]
      cases hs : a.setting with
      | none =>
        have hset : d.set = false := hda.set_eq_false hs
        simp only [hset, Option.bind_some, hs, Option.map_none]
        refine ⟨rfl, rfl, hcurrent, rfl, ?_, ?_, ?_⟩
        · rw [hcurrent]
          rfl
        · rintro _ ⟨⟩
        · rintro _ _ ⟨⟩
      | some s =>
        have hset : d.set = true := hda.set_eq_true hs
        simp only [hset, Option.bind_some, hs, Option.map_some, if_true, DeclRepoId.setRepoId]
        refine ⟨rfl, rfl, hcurrent, rfl, hda.repoId, ?_, ?_⟩
        · rintro _ ⟨⟩
          rw [hda.repoId]
          exact ⟨0, rfl⟩
        · rintro _ _ ⟨⟩
  · rw [reports, ← hr.errors]
    rcases hr.forwardOf kind fwd with ⟨h1, h2⟩ | ⟨d, a, h1, h2, hda⟩
    · simp only [h1, h2]
    · simp only [h1, h2, hda.scopePrefix, hcurrent, hlen]

/-! #### Pragmas -/

/-- A pragma of a declaration, from what its setter does. -/
lemma Right.visit (hr : st.Right h) {k : ℕ} {s : Setting}
    {f : DeclRepoId → Option (DeclRepoId × Bool)} {report : Report}
    (hf : ∀ d a, (declaredIds h)[k]? = some a → d.Right a → a.kind ≠ .enumerator →
      a.kind.visited = true ∧ s.refused k = report ∧ ∃ r, f d = some r ∧ r.1.Right (a.settle s) ∧
        (r.2 = true ↔ ¬a.Accepts s)) :
    ∃ st', st.visit k f report = some st' ∧ st'.prefixes = st.prefixes ∧
      Forall₂ DeclRepoId.Right st'.decls ((declaredIds h).modify k (DeclaredId.settle s)) ∧
      st'.errors = reports h ++ refusal (declaredIds h) k s := by
  cases ha : (declaredIds h)[k]? with
  | none =>
    have hd := getElem?_eq_none_of_forall₂ hr.decls ha
    refine ⟨{ st with errors := st.errors ++ [.unknownName] }, ?_, rfl, ?_, ?_⟩
    · simp only [RepoState.visit, hd]
    · rw [List.modify_eq_self (by simpa using ha)]
      exact hr.decls
    · simp only [refusal, ha, hr.errors]
  | some a =>
    obtain ⟨d, hd, hda⟩ := exists_getElem?_of_forall₂ hr.decls ha
    by_cases hkind : a.kind = .enumerator
    · have hdkind : d.kind = .enumerator := hda.kind.trans hkind
      refine ⟨{ st with errors := st.errors ++ [.notSettable k] }, ?_, rfl, ?_, ?_⟩
      · simp only [RepoState.visit, hd, hdkind, if_true]
      · rw [modify_of_getElem?_eq ha (by simp [DeclaredId.settle, hkind])]
        exact hr.decls
      · simp only [refusal, ha, hkind, if_true, hr.errors]
    · obtain ⟨hvisited, hreport, r, hfr, hra, haccepts⟩ := hf d a ha hda hkind
      rw [← hda.kind] at hkind hvisited
      refine ⟨{ st with
        decls := st.decls.set k r.1
        errors := st.errors ++ if r.2 then [report] else [] }, ?_, rfl, ?_, ?_⟩
      · simp only [RepoState.visit, hd, if_neg hkind, hvisited, if_true, hfr, Option.map_some]
      · apply forall₂_set_modify hr.decls
        intro b hb
        rw [ha] at hb
        cases hb
        exact hra
      · rw [hda.kind] at hkind
        simp only [refusal, ha, if_neg hkind, hr.errors, hreport]
        by_cases hacc : a.Accepts s
        · rw [if_pos hacc, if_neg (by simpa [haccepts] using hacc)]
        · rw [if_neg hacc, if_pos (haccepts.mpr hacc)]

/-- Every event that meets the condition is handled as the history says. -/
theorem Right.step (hr : st.Right h) (ho : Opened h) {e : Event}
    (hend : e.isEnd = true → (inForce h 1).isSome = true) (hm : e.Meets h) :
    ∃ st', st.step e = some st' ∧ st'.Right (e :: h) := by
  cases e with
  | declare kind identifier fwd => exact hr.declare ho kind identifier fwd
  | endScope noSwitchType =>
    cases noSwitchType with
    | true => cases hm
    | false => exact ⟨_, rfl, hr.getElem?_endPrefix (hend rfl), hr.decls, hr.errors⟩
  | newFile => exact ⟨_, rfl, hr.getElem?_cons_prefixes _, hr.decls, hr.errors⟩
  | endFile => exact ⟨_, rfl, hr.getElem?_endPrefix (hend rfl), hr.decls, hr.errors⟩
  | pragmaPrefix str =>
    refine ⟨_, rfl, ?_, hr.decls, hr.errors⟩
    intro depth
    obtain ⟨p, hp⟩ := Option.isSome_iff_exists.mp (isSome_inForce_zero ho)
    have hprefixes := hr.prefixes
    cases hst : st.prefixes with
    | nil =>
      have hzero := hprefixes 0
      rw [hst, hp] at hzero
      cases hzero
    | cons q prefixes =>
      rw [hst] at hprefixes
      cases depth with
      | zero =>
        have hzero := hprefixes 0
        rw [hp] at hzero
        cases hzero
        simp [inForce, hp]
      | succ depth => exact hprefixes (depth + 1)
  | pragmaId k repoId =>
    obtain ⟨st', hst', hprefixes, hdecls, herrors⟩ :=
      hr.visit (s := .id repoId) fun d a ha hda hkind =>
        ⟨hm a ha, rfl, _, rfl, hda.setRepoId hkind repoId⟩
    refine ⟨st', hst', ?_, hdecls, herrors⟩
    rw [hprefixes]
    exact hr.prefixes
  | pragmaVersion k maj min =>
    have hset : ∀ (d : DeclRepoId) a, (declaredIds h)[k]? = some a → d.Right a →
        a.kind ≠ .enumerator →
        a.kind.visited = true ∧
          (Setting.version maj min).refused k = .cannotSetVersion k (toShort maj) (toShort min) ∧
          ∃ r, d.setVersion (toShort maj) (toShort min) = some r ∧
            r.1.Right (a.settle (.version maj min)) ∧
            (r.2 = true ↔ ¬a.Accepts (.version maj min)) := by
      intro d a ha hda hkind
      obtain ⟨hvisited, hmaj, hmin, hid⟩ := hm a ha hkind
      refine ⟨hvisited, ?_, hda.setVersion hkind hmaj hmin hid⟩
      rw [toShort_of_small hmaj, toShort_of_small hmin]
      rfl
    obtain ⟨st', hst', hprefixes, hdecls, herrors⟩ := hr.visit hset
    refine ⟨st', hst', ?_, hdecls, herrors⟩
    rw [hprefixes]
    exact hr.prefixes

/-! ### Runs -/

/-- Every run that meets the condition is as the history says. -/
theorem right_run (ho : Opened h) (hm : Meets h) : ∃ st, run h = some st ∧ st.Right h := by
  induction h with
  | nil => exact ⟨initial, rfl, right_initial⟩
  | cons e h ih =>
    obtain ⟨hend, ho⟩ := ho
    obtain ⟨hme, hm⟩ := hm
    obtain ⟨st, hst, hr⟩ := ih ho hm
    obtain ⟨st', hst', hr'⟩ := hr.step ho hend hme
    refine ⟨st', ?_, hr'⟩
    rw [run, hst, Option.bind_some, hst']

lemma opened_of_append {body : List Event} (ho : Opened (body ++ h)) : Opened h := by
  induction body with
  | nil => exact ho
  | cons e body ih => exact ih ho.2

lemma meets_of_append {body : List Event} (hm : Meets (body ++ h)) : Meets h := by
  induction body with
  | nil => exact hm
  | cons e body ih => exact ih hm.2

end RepoState

/-! ### Repository ids -/

/-- The ids, the prefixes and the reports are those that the history gives, and the prefixes are
back as they were where a scope or a file ends. -/
structure RepoState.Follows (st : RepoState) (h : List Event) : Prop where
  repoIds : st.decls.map DeclRepoId.repoId = (declaredIds h).map DeclaredId.repoId
  prefixes : ∀ depth, st.prefixes[depth]? = inForce h depth
  restored : ∀ (opening closing : Event) (body before : List Event), opening.Pairs closing →
    WellNested body → h = closing :: (body ++ opening :: before) →
    ∃ st', RepoState.run before = some st' ∧ st.prefixes = st'.prefixes
  errors : st.errors = reports h

/-- Repository ids follow the pragmas in every run that meets the condition, and no id is written
beyond its buffer. -/
theorem repoIds_follow_pragmas {h : List Event} (ho : Opened h) (hm : Meets h) :
    ∃ st, RepoState.run h = some st ∧ st.Follows h := by
  obtain ⟨st, hst, hr⟩ := RepoState.right_run ho hm
  refine ⟨st, hst, ?_, hr.prefixes, ?_, hr.errors⟩
  · rw [← List.forall₂_eq_eq_eq, List.forall₂_map_left_iff, List.forall₂_map_right_iff]
    exact hr.decls.imp fun _ _ hda => hda.repoId
  · rintro opening closing body before hp hb rfl
    have happend : closing :: (body ++ opening :: before)
        = (closing :: body ++ [opening]) ++ before := by simp
    rw [happend] at ho hm
    obtain ⟨st', hst', hr'⟩ :=
      RepoState.right_run (RepoState.opened_of_append ho) (RepoState.meets_of_append hm)
    refine ⟨st', hst', ?_⟩
    apply List.ext_getElem?
    intro depth
    rw [hr.prefixes, hr'.prefixes, inForce_restored hp hb]

/-- A definition takes over the id of its forward declaration, and the version in it is accepted. -/
theorem repoIds_follow_pragmas_takenOver :
    ∃ st, RepoState.run
        [.endScope false, .endScope false, .pragmaVersion 2 2 0,
          .declare .interface (ascii "A") (some 1), .pragmaId 1 (ascii "IDL:X:2.0"),
          .declare .forward (ascii "A") none, .declare .module (ascii "M") none,
          .pragmaPrefix (ascii "omg.org")] = some st ∧
      st.Follows
        [.endScope false, .endScope false, .pragmaVersion 2 2 0,
          .declare .interface (ascii "A") (some 1), .pragmaId 1 (ascii "IDL:X:2.0"),
          .declare .forward (ascii "A") none, .declare .module (ascii "M") none,
          .pragmaPrefix (ascii "omg.org")] := by
  have hsmall : SmallVersion (ascii "IDL:X:2.0") := by
    have hid : ascii "IDL:X:2.0" = omgId [] (ascii "X") 2 0 := by decide
    rw [hid]
    exact smallVersion_omgId (by decide) (by decide)
  apply repoIds_follow_pragmas
  · simp [Opened, Event.isEnd, inForce, DeclKind.opensScope]
  · refine ⟨rfl, rfl, ?_, trivial, ?_, trivial, trivial, trivial, trivial⟩
    · rintro a ha -
      cases ha
      refine ⟨rfl, by decide, by decide, ?_⟩
      rintro _ ⟨⟩
      exact hsmall
    · rintro a ha
      cases ha
      rfl

/-- Two negative numbers of five digits are written beyond the buffer. -/
theorem negativeVersion_not_written :
    ¬∀ h, Opened h → ∃ st, RepoState.run h = some st ∧ st.Follows h := by
  intro hall
  obtain ⟨st, hst, -⟩ := hall [.pragmaVersion 0 40000 40000, .declare .forward (ascii "Foo") none]
    ⟨fun he => (by cases he), fun he => (by cases he), trivial⟩
  have hnone : RepoState.run [.pragmaVersion 0 40000 40000, .declare .forward (ascii "Foo") none]
      = none := by decide
  rw [hnone] at hst
  cases hst

end OmniORB.Idl
