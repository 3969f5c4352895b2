import OmniORB.Naming.Bindings

/-!
# Histories of records

What the records of a data file make of no contexts at all, one after the other, and the history that a
checkpoint writes.
-/

namespace OmniORB

open Library

namespace Naming

/-- A string that is read as it is written. -/
def Short (x : NameComponent) : Prop := x.id.octets.length < 2 ^ 30 ∧ x.kind.octets.length < 2 ^ 30

instance : DecidablePred Short := fun x =>
  inferInstanceAs (Decidable (x.id.octets.length < 2 ^ 30 ∧ x.kind.octets.length < 2 ^ 30))

def ObjectRef.IsContext : ObjectRef → Prop
  | .context _ => True
  | _ => False

instance : DecidablePred ObjectRef.IsContext := fun
  | .nil => isFalse id
  | .context _ => isTrue trivial
  | .object _ => isFalse id

variable (orb : Orb)

/-- A binding whose record is read back: what is bound as a context is a reference to one. -/
def ObjectBinding.Readable (b : ObjectBinding) : Prop :=
  Short b.bindingName ∧ orb.Short b.object ∧ (b.bindingType = .ncontext → b.object.IsContext)

/-- A record with no data of its own that are not read back as they are written. -/
def Record.Readable : Record → Prop
  | .create id => id.length < 2 ^ 29 ∧ orb.Short (.context id)
  | .destroy _ => True
  | .bind _ b => b.Readable orb
  | .unbind _ x => Short x

/-- Each record can be followed, and read, when its turn comes. -/
def Legible : Contents → List Record → Prop
  | _, [] => True
  | l, r :: rs => r.Valid l ∧ r.Readable orb ∧ Legible (r.apply l) rs

variable {orb}

/-- What a history makes of the contexts. -/
def applyAll (l : Contents) (rs : List Record) : Contents := rs.foldl (fun l r => r.apply l) l

@[simp] lemma applyAll_nil (l : Contents) : applyAll l [] = l := rfl

@[simp] lemma applyAll_cons (l : Contents) (r : Record) (rs : List Record) :
    applyAll l (r :: rs) = applyAll (r.apply l) rs := rfl

lemma applyAll_append (l : Contents) (rs rs' : List Record) :
    applyAll l (rs ++ rs') = applyAll (applyAll l rs) rs' := List.foldl_append

lemma legible_append {l : Contents} {rs rs' : List Record} :
    Legible orb l (rs ++ rs') ↔ Legible orb l rs ∧ Legible orb (applyAll l rs) rs' := by
  induction rs generalizing l with
  | nil => exact ⟨fun h => ⟨trivial, h⟩, fun h => h.2⟩
  | cons r rs ih =>
    show (r.Valid l ∧ r.Readable orb ∧ Legible orb (r.apply l) (rs ++ rs')) ↔ _
    rw [ih, applyAll_cons]
    exact ⟨fun ⟨h1, h2, h3, h4⟩ => ⟨⟨h1, h2, h3⟩, h4⟩, fun ⟨⟨h1, h2, h3⟩, h4⟩ => ⟨h1, h2, h3, h4⟩⟩

/-! ### What is in readable contents -/

/-- The ids and the bindings that a checkpoint writes are read back. -/
def Contents.Readable (orb : Orb) (l : Contents) : Prop :=
  ∀ e ∈ l, (e.1.length < 2 ^ 29 ∧ orb.Short (.context e.1)) ∧ ∀ b ∈ e.2, b.Readable orb

lemma Contents.Readable.modify {l : Contents} {c : ObjectId}
    {g : List ObjectBinding → List ObjectBinding} (h : l.Readable orb)
    (hg : ∀ bs, (∀ b ∈ bs, b.Readable orb) → ∀ b ∈ g bs, b.Readable orb) :
    (l.modify c g).Readable orb := by
  intro e he
  obtain ⟨e', he', rfl⟩ := List.mem_map.mp he
  split_ifs
  · exact ⟨(h e' he').1, hg e'.2 (h e' he').2⟩
  · exact h e' he'

/-- A readable record keeps the contents readable. -/
lemma Contents.Readable.apply {l : Contents} {r : Record} (h : l.Readable orb) (hr : r.Readable orb) :
    (r.apply l).Readable orb := by
  cases r with
  | create id =>
    intro e he
    rcases List.mem_append.mp he with hold | hnew
    · exact h e hold
    · rw [List.mem_singleton.mp hnew]
      exact ⟨hr, fun b hb => absurd hb List.not_mem_nil⟩
  | destroy c => exact fun e he => h e (List.mem_filter.mp he).1
  | bind c b =>
    rw [Record.apply]
    apply h.modify
    intro bs hbs b' hb'
    rcases List.mem_append.mp hb' with hold | hnew
    · exact hbs b' (List.mem_filter.mp hold).1
    · rw [List.mem_singleton.mp hnew]
      exact hr
  | unbind c x =>
    rw [Record.apply]
    apply h.modify
    exact fun bs hbs b hb => hbs b (List.mem_filter.mp hb).1

lemma Legible.readable {l : Contents} {rs : List Record} (h : Legible orb l rs)
    (hl : l.Readable orb) : (applyAll l rs).Readable orb := by
  induction rs generalizing l with
  | nil => exact hl
  | cons r rs ih => exact ih h.2.2 (hl.apply h.2.1)

/-! ### A checkpoint -/

/-- The records that a checkpoint writes: first the contexts, then their bindings. -/
def checkpointRecords (l : Contents) : List Record :=
  l.map (fun e => .create e.1) ++ l.flatMap fun e => e.2.map fun b => .bind e.1 b

lemma modify_append {l l' : Contents} {c : ObjectId} {g : List ObjectBinding → List ObjectBinding} :
    Contents.modify (l ++ l') c g = Contents.modify l c g ++ Contents.modify l' c g := List.map_append

lemma modify_cons_self {l : Contents} {c : ObjectId} {bs : List ObjectBinding}
    {g : List ObjectBinding → List ObjectBinding} :
    Contents.modify ((c, bs) :: l) c g = (c, g bs) :: Contents.modify l c g := by
  rw [Contents.modify, List.map_cons, if_pos rfl]
  rfl

lemma modify_of_notMem {l : Contents} {c : ObjectId} {g : List ObjectBinding → List ObjectBinding}
    (h : c ∉ l.map Prod.fst) : l.modify c g = l := by
  rw [Contents.modify]
  conv_rhs => rw [← List.map_id l]
  apply List.map_congr_left
  intro e he
  rw [if_neg fun heq : e.1 = c => h (heq ▸ List.mem_map_of_mem he)]
  rfl

/-- The contexts are there again, still without bindings. -/
lemma legible_creates (done : Contents) {l : Contents} (hids : ((done ++ l).map Prod.fst).Nodup)
    (hl : l.Readable orb) :
    Legible orb (done.map fun e => (e.1, [])) (l.map fun e => .create e.1) ∧
      applyAll (done.map fun e => (e.1, [])) (l.map fun e => .create e.1) =
        (done ++ l).map fun e => (e.1, []) := by
  induction l generalizing done with
  | nil => exact ⟨trivial, by rw [List.append_nil]; rfl⟩
  | cons e l ih =>
    have happ : done ++ e :: l = done ++ [e] ++ l := by simp
    rw [happ] at hids
    have hnext : (done.map fun e => (e.1, ([] : List ObjectBinding))) ++ [(e.1, [])] =
        (done ++ [e]).map fun e => (e.1, []) := by simp
    obtain ⟨hlegible, happly⟩ := ih (done ++ [e]) hids fun e' he' => hl e' (List.mem_cons_of_mem e he')
    have hvalid : (Record.create e.1).Valid (done.map fun e => (e.1, [])) := by
      intro e' he' heq
      obtain ⟨e1, he1, rfl⟩ := List.mem_map.mp he'
      rw [List.map_append, List.map_append, List.nodup_append, List.nodup_append] at hids
      exact hids.1.2.2 e1.1 (List.mem_map_of_mem he1) e.1 (by simp) heq
    rw [← hnext] at hlegible happly
    refine ⟨⟨hvalid, (hl e List.mem_cons_self).1, hlegible⟩, ?_⟩
    rw [happ]
    exact happly

/-- The bindings of one context come back behind those that it has. -/
lemma legible_binds {done rest : Contents} {c : ObjectId} (pre : List ObjectBinding)
    {bs : List ObjectBinding}
    (hdone : c ∉ done.map Prod.fst) (hrest : c ∉ rest.map Prod.fst)
    (hnames : ((pre ++ bs).map ObjectBinding.bindingName).Nodup) (hbs : ∀ b ∈ bs, b.Readable orb) :
    Legible orb (done ++ (c, pre) :: rest) (bs.map fun b => .bind c b) ∧
      applyAll (done ++ (c, pre) :: rest) (bs.map fun b => .bind c b) =
        done ++ (c, pre ++ bs) :: rest := by
  induction bs generalizing pre with
  | nil => exact ⟨trivial, by rw [List.append_nil]; rfl⟩
  | cons b bs ih =>
    have happ : pre ++ b :: bs = pre ++ [b] ++ bs := by simp
    rw [happ] at hnames ⊢
    have hkeep : (pre.filter fun b' => b'.bindingName ≠ b.bindingName) = pre := by
      rw [List.filter_eq_self]
      intro b' hb'
      rw [List.map_append, List.map_append, List.nodup_append, List.nodup_append] at hnames
      exact decide_eq_true
        (hnames.1.2.2 b'.bindingName (List.mem_map_of_mem hb') b.bindingName (by simp))
    have hnext : (Record.bind c b).apply (done ++ (c, pre) :: rest) =
        done ++ (c, pre ++ [b]) :: rest := by
      rw [Record.apply, modify_append, modify_of_notMem hdone]
      rw [modify_cons_self, modify_of_notMem hrest, hkeep]
    obtain ⟨hlegible, happly⟩ := ih (pre ++ [b]) hnames fun b' hb' => hbs b' (List.mem_cons_of_mem b hb')
    rw [← hnext] at hlegible happly
    exact ⟨⟨⟨pre, by simp⟩, hbs b List.mem_cons_self, hlegible⟩, happly⟩

lemma legible_all_binds (done : Contents) {l : Contents} (hids : ((done ++ l).map Prod.fst).Nodup)
    (hnames : ∀ e ∈ l, (e.2.map ObjectBinding.bindingName).Nodup) (hl : l.Readable orb) :
    Legible orb (done ++ l.map fun e => (e.1, [])) (l.flatMap fun e => e.2.map fun b => .bind e.1 b) ∧
      applyAll (done ++ l.map fun e => (e.1, []))
        (l.flatMap fun e => e.2.map fun b => .bind e.1 b) = done ++ l := by
  induction l generalizing done with
  | nil => exact ⟨trivial, rfl⟩
  | cons e l ih =>
    obtain ⟨c, bs⟩ := e
    have happ : done ++ (c, bs) :: l = done ++ [(c, bs)] ++ l := by simp
    have hmiddle := hids
    rw [List.map_append, List.map_cons, List.nodup_middle, List.nodup_cons, List.mem_append, not_or]
      at hmiddle
    have hrest : c ∉ (l.map fun e => (e.1, ([] : List ObjectBinding))).map Prod.fst := by
      rw [List.map_map]
      exact hmiddle.1.2
    obtain ⟨hlegible1, happly1⟩ := legible_binds [] hmiddle.1.1 hrest
      (hnames (c, bs) List.mem_cons_self) (hl (c, bs) List.mem_cons_self).2
    rw [happ] at hids
    obtain ⟨hlegible2, happly2⟩ := ih (done ++ [(c, bs)]) hids (fun e he => hnames e (List.mem_cons_of_mem _ he))
      fun e he => hl e (List.mem_cons_of_mem _ he)
    have hstate : done ++ [(c, bs)] ++ l.map (fun e => (e.1, [])) =
        done ++ (c, [] ++ bs) :: l.map fun e => (e.1, []) := by simp
    rw [List.flatMap_cons, List.map_cons, legible_append, applyAll_append]
    rw [hstate] at hlegible2 happly2
    rw [happly1]
    refine ⟨⟨hlegible1, hlegible2⟩, ?_⟩
    rw [happ]
    exact happly2

/-- A checkpoint of contexts without doubles is a history of the same contexts. -/
theorem checkpointRecords_spec {l : Contents} (hids : (l.map Prod.fst).Nodup)
    (hnames : ∀ e ∈ l, (e.2.map ObjectBinding.bindingName).Nodup) (hl : l.Readable orb) :
    Legible orb [] (checkpointRecords l) ∧ applyAll [] (checkpointRecords l) = l := by
  obtain ⟨hlegible1, happly1⟩ := legible_creates [] hids hl
  obtain ⟨hlegible2, happly2⟩ := legible_all_binds [] hids hnames hl
  rw [checkpointRecords, legible_append, applyAll_append]
  have happly : applyAll [] (l.map fun e => .create e.1) = l.map fun e => (e.1, []) := happly1
  rw [happly]
  exact ⟨⟨hlegible1, hlegible2⟩, happly2⟩

end Naming

end OmniORB
