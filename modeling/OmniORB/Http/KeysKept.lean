import OmniORB.Http.KeyRuns

/-!
# Keys stay with their peers

The invariant of the runs of a key manager: each stored key was made here for the URL it is stored
under, or was installed by a client under its identifier, and no identifier is a URL.
-/

namespace OmniORB.Http

open Library

/-! ### The invariant -/

variable {R : Type} {E : OpenSSL R} {w w' : World R}

/-- A key that was made here for the URL of a server. -/
def World.FromHere (w : World R) (url : Text) (sk : SessionKey) : Prop :=
  url ∈ w.urls ∧ ⟨url, sk.keyIdent, sk.key⟩ ∈ w.generated

/-- A key that a client has installed under that identifier. -/
def World.FromClient (w : World R) (keyIdent : Text) (sk : SessionKey) : Prop :=
  sk.keyIdent = keyIdent ∧ ∃ r, ⟨sk.peerIdent, r, keyIdent, sk.key⟩ ∈ w.installed

/-- A connection to a server has a key made for its URL, and one from a client the key that the
client has installed. -/
def World.Serves (w : World R) (c : Crypto R) : Prop :=
  if c.rsa.isSome then
    c.peerIdent ∈ w.urls ∧ (c.keySet → ⟨c.peerIdent, c.keyIdent, c.key⟩ ∈ w.generated)
  else ∃ r, ⟨c.peerIdent, r, c.keyIdent, c.key⟩ ∈ w.installed

structure World.Inv (w : World R) : Prop where
  keys : ∀ n sk, w.manager.sessionKeys n = some sk → w.FromHere n sk ∨ w.FromClient n sk
  pending : ∀ p ∈ w.pending, w.FromHere p.1 p.2
  connections : ∀ c ∈ w.connections, w.Serves c
  apart : ∀ k ∈ w.installed, k.keyIdent ∉ w.urls
  registered : ∀ url r, w.manager.servers url = some r → url ∈ w.urls
  uses : ∀ u ∈ w.uses, u.Kept w
  lifetime : 0 < w.manager.keyLifetime.toNat ∧ 0 < w.manager.serverLifetime

/-- The history of a world is part of that of another. -/
structure World.Before (w w' : World R) : Prop where
  urls : w.urls ⊆ w'.urls
  generated : w.generated ⊆ w'.generated
  installed : w.installed ⊆ w'.installed

namespace Manager

/-- The manager keeps the keys that it has, but for the one that shall be new. -/
lemma cryptoForServer_manager (m : Manager R) (url : Text) (newKey : Bool) (now : ℕ) :
    (∀ n sk, (m.cryptoForServer url newKey now).1.sessionKeys n = some sk →
      m.sessionKeys n = some sk) ∧
      (m.cryptoForServer url newKey now).1.servers = m.servers ∧
      (m.cryptoForServer url newKey now).1.keyLifetime = m.keyLifetime := by
  rw [cryptoForServer]
  split
  · exact ⟨fun _ _ h => h, rfl, rfl⟩
  · split_ifs
    · refine ⟨fun n sk h => ?_, rfl, rfl⟩
      rcases eq_or_ne n url with rfl | hne
      · simp at h
      · change Function.update m.sessionKeys url none n = some sk at h
        rwa [Function.update_of_ne hne] at h
    · split
      · exact ⟨fun _ _ h => h, rfl, rfl⟩
      · split_ifs <;> exact ⟨fun _ _ h => h, rfl, rfl⟩

/-- A connection to a server that is registered has the key that is stored for the URL, if any. -/
lemma cryptoForServer_crypto {m : Manager R} {url : Text} {newKey : Bool} {now : ℕ} {c : Crypto R}
    (h : (m.cryptoForServer url newKey now).2 = some c) :
    c.peerIdent = url ∧ c.rsa.isSome ∧ (∃ r, m.servers url = some r) ∧
      (c.keySet → ∃ sk, m.sessionKeys url = some sk ∧ c.key = sk.key ∧ c.keyIdent = sk.keyIdent) := by
  rw [cryptoForServer] at h
  split at h
  · cases h
  · rename_i r hr
    split_ifs at h
    · cases h
      exact ⟨rfl, rfl, ⟨r, hr⟩, fun hset => by cases hset⟩
    · split at h
      · cases h
        exact ⟨rfl, rfl, ⟨r, hr⟩, fun hset => by cases hset⟩
      · rename_i sk hsk
        split_ifs at h
        · cases h
          exact ⟨rfl, rfl, ⟨r, hr⟩, fun _ => ⟨sk, hsk, rfl, rfl⟩⟩
        · cases h
          exact ⟨rfl, rfl, ⟨r, hr⟩, fun hset => by cases hset⟩

/-- An accepted header has a key that is stored under its identifier and still lives, or stores a
key for its client. -/
lemma readAuthHeader_eq_ok {m m' : Manager R} {now : ℕ} {auth : Text} {c : Crypto R}
    (h : m.readAuthHeader E now auth = .ok (m', c)) :
    (∃ keyIdent sk, parseAuth auth = .existingKey keyIdent ∧ m.sessionKeys keyIdent = some sk ∧
      now < sk.deadline ∧ m' = m ∧
      c = ⟨sk.key, sk.keyIdent, sk.peerIdent, [], none, sk.deadline, true⟩) ∨
    ∃ fields clientRsa key, parseAuth auth = .newKey fields ∧
      m.clients fields.clientIdent = some clientRsa ∧
      sentKey E clientRsa m.selfRsa fields = .ok key ∧
      m' = m.assignedKey fields.keyIdent
        ⟨fields.clientIdent, fields.keyIdent, key, now + m.serverLifetime⟩ ∧
      c = ⟨key, fields.keyIdent, fields.clientIdent, [], none, now + m.serverLifetime, true⟩ := by
  rw [readAuthHeader] at h
  split at h
  · rename_i keyIdent hparse
    split at h
    · cases h
    · rename_i sk hsk
      split_ifs at h with hlive
      cases h
      exact Or.inl ⟨keyIdent, sk, hparse, hsk, hlive, rfl, rfl⟩
  · rename_i fields hparse
    split at h
    · cases h
    · rename_i clientRsa hclient
      cases hkey : sentKey E clientRsa m.selfRsa fields with
      | error e =>
        rw [hkey] at h
        cases h
      | ok key =>
        rw [hkey] at h
        cases h
        exact Or.inr ⟨fields, clientRsa, key, hparse, hclient, hkey, rfl, rfl⟩
  · cases h

end Manager

/-- What a header is written with: the key that there is, or a key that is made for it, and always
before its deadline. -/
structure Crypto.Written.Spec (r : Crypto.Written R) (c : Crypto R) (now : ℕ) : Prop where
  peerIdent : r.crypto.peerIdent = c.peerIdent
  rsa : r.crypto.rsa = c.rsa
  made : r.made = true ∧ r.crypto.keySet = true ∨ r.made = false ∧ r.crypto = c
  header : ∀ t, r.header = .ok t → r.crypto.keySet = true ∧ now < r.crypto.deadline
  assigned : ∀ sk, r.assigned = some sk →
    r.crypto.keySet = true ∧ sk.keyIdent = r.crypto.keyIdent ∧ sk.key = r.crypto.key

lemma Crypto.writeAuthHeader_spec (c : Crypto R) (selfRsa peerRsa : R) {lifetime : ℕ} (now : ℕ)
    (random : Option Text) (room : ℕ) (hl : 0 < lifetime) :
    (c.writeAuthHeader E selfRsa peerRsa lifetime now random room).Spec c now := by
  unfold Crypto.writeAuthHeader
  split_ifs with hset
  · exact ⟨rfl, rfl, Or.inr ⟨rfl, rfl⟩, fun _ _ => hset, fun _ h => by cases h⟩
  · split
    · exact ⟨rfl, rfl, Or.inr ⟨rfl, rfl⟩, fun _ h => (by cases h), fun _ h => by cases h⟩
    · simp only
      split
      · exact ⟨rfl, rfl, Or.inr ⟨rfl, rfl⟩, fun _ h => (by cases h), fun _ h => by cases h⟩
      · split
        · exact ⟨rfl, rfl, Or.inl ⟨rfl, rfl⟩, fun _ h => (by cases h), fun _ h => by cases h⟩
        · refine ⟨rfl, rfl, Or.inl ⟨rfl, rfl⟩, fun _ _ => ⟨rfl, Nat.lt_add_of_pos_right hl⟩, ?_⟩
          intro sk h
          cases h
          exact ⟨rfl, rfl, rfl⟩

namespace World

lemma FromHere.mono {n : Text} {sk : SessionKey} (h : w.FromHere n sk) (hb : w.Before w') :
    w'.FromHere n sk :=
  ⟨hb.urls h.1, hb.generated h.2⟩

lemma FromClient.mono {n : Text} {sk : SessionKey} (h : w.FromClient n sk) (hb : w.Before w') :
    w'.FromClient n sk := by
  obtain ⟨hn, r, hr⟩ := h
  exact ⟨hn, r, hb.installed hr⟩

lemma Serves.mono {c : Crypto R} (h : w.Serves c) (hb : w.Before w') : w'.Serves c := by
  rw [Serves] at h ⊢
  split_ifs at h ⊢
  · exact ⟨hb.urls h.1, fun hk => hb.generated (h.2 hk)⟩
  · obtain ⟨r, hr⟩ := h
    exact ⟨r, hb.installed hr⟩

end World

lemma Use.Kept.mono {u : Use R} (h : u.Kept w) (hb : w.Before w') : u.Kept w' := by
  cases u with
  | outgoing => exact ⟨hb.generated h.1, h.2⟩
  | incoming => exact ⟨hb.installed h.1, h.2⟩
  | install => exact ⟨fun sk hsk => hb.installed (h.1 sk hsk), h.2⟩

namespace World

/-- Whatever a step adds has to be as the invariant says; the rest follows from before. -/
lemma Inv.change (h : w.Inv) (hb : w.Before w')
    (hkeys : ∀ n sk, w'.manager.sessionKeys n = some sk →
      w.manager.sessionKeys n = some sk ∨ w'.FromHere n sk ∨ w'.FromClient n sk)
    (hpending : ∀ p ∈ w'.pending, p ∈ w.pending ∨ w'.FromHere p.1 p.2)
    (hconnections : ∀ c ∈ w'.connections, c ∈ w.connections ∨ w'.Serves c)
    (hapart : ∀ k ∈ w'.installed, k.keyIdent ∉ w'.urls)
    (hregistered : ∀ url r, w'.manager.servers url = some r →
      w.manager.servers url = some r ∨ url ∈ w'.urls)
    (huses : ∀ u ∈ w'.uses, u ∈ w.uses ∨ u.Kept w')
    (hlifetime : w'.manager.keyLifetime = w.manager.keyLifetime) : w'.Inv where
  keys n sk hsk := by
    rcases hkeys n sk hsk with hold | hnew
    · exact (h.keys n sk hold).imp (·.mono hb) (·.mono hb)
    · exact hnew
  pending p hp := (hpending p hp).elim (fun hold => (h.pending p hold).mono hb) id
  connections c hc := (hconnections c hc).elim (fun hold => (h.connections c hold).mono hb) id
  apart := hapart
  registered url r hr :=
    (hregistered url r hr).elim (fun hold => hb.urls (h.registered url r hold)) id
  uses u hu := (huses u hu).elim (fun hold => (h.uses u hold).mono hb) id
  lifetime := by
    rw [Manager.serverLifetime, hlifetime]
    exact h.lifetime

lemma Before.of_eq (hu : w'.urls = w.urls) (hg : w'.generated = w.generated)
    (hi : w'.installed = w.installed) : w.Before w' :=
  ⟨by rw [hu]; exact List.Subset.refl _, by rw [hg]; exact List.Subset.refl _,
    by rw [hi]; exact List.Subset.refl _⟩

lemma Inv.start {keyLifetime : UInt32} {selfIdent : Text} {selfRsa : R} {now : ℕ}
    (hl : 0 < keyLifetime.toNat) (hs : 0 < (keyLifetime * 3 / 2).toNat) :
    (World.start keyLifetime selfIdent selfRsa now).Inv where
  keys _ _ h := by cases h
  pending _ h := by cases h
  connections _ h := by cases h
  apart _ h := by cases h
  registered _ _ h := by cases h
  uses _ h := by cases h
  lifetime := ⟨hl, hs⟩

/-- A step of the manager that only removes keys, and registers no server. -/
lemma Inv.setManager (h : w.Inv) {m : Manager R}
    (hkeys : ∀ n sk, m.sessionKeys n = some sk → w.manager.sessionKeys n = some sk)
    (hservers : ∀ url r, m.servers url = some r → w.manager.servers url = some r)
    (hlifetime : m.keyLifetime = w.manager.keyLifetime) : ({ w with manager := m } : World R).Inv :=
  h.change (Before.of_eq rfl rfl rfl) (fun n sk hsk => Or.inl (hkeys n sk hsk))
    (fun _ hp => Or.inl hp) (fun _ hc => Or.inl hc) h.apart
    (fun url r hr => Or.inl (hservers url r hr)) (fun _ hu => Or.inl hu) hlifetime

lemma Inv.addServer (h : w.Inv) {url : Text} {rsa : R}
    (hnew : ∀ k ∈ w.installed, k.keyIdent ≠ url) :
    ({ w with manager := w.manager.addServer url rsa, urls := w.urls ++ [url] } : World R).Inv := by
  refine h.change ⟨List.subset_append_left _ _, List.Subset.refl _, List.Subset.refl _⟩
    (fun _ _ hsk => Or.inl hsk) (fun _ hp => Or.inl hp) (fun _ hc => Or.inl hc) ?_ ?_
    (fun _ hu => Or.inl hu) rfl
  · intro k hk hmem
    rcases List.mem_append.mp hmem with hold | hurl
    · exact h.apart k hk hold
    · exact hnew k hk (List.mem_singleton.mp hurl)
  · intro u r hr
    change Function.update w.manager.servers url (some rsa) u = some r at hr
    rcases eq_or_ne u url with rfl | hne
    · exact Or.inr (List.mem_append_right _ (List.mem_singleton_self _))
    · rw [Function.update_of_ne hne] at hr
      exact Or.inl hr

lemma Inv.scavenge (h : w.Inv) : ({ w with manager := w.manager.scavenge w.now } : World R).Inv := by
  refine h.setManager ?_ (fun _ _ hr => hr) rfl
  intro n sk hsk
  exact (Option.filter_eq_some_iff.mp hsk).1

lemma Inv.cryptoForServer (h : w.Inv) (url : Text) (newKey : Bool) :
    ({ w with
      manager := (w.manager.cryptoForServer url newKey w.now).1
      connections := w.connections ++
        (w.manager.cryptoForServer url newKey w.now).2.toList } : World R).Inv := by
  obtain ⟨hkeys, hservers, hlifetime⟩ := w.manager.cryptoForServer_manager url newKey w.now
  refine h.change (Before.of_eq rfl rfl rfl) (fun n sk hsk => Or.inl (hkeys n sk hsk))
    (fun _ hp => Or.inl hp) ?_ h.apart ?_ (fun _ hu => Or.inl hu) hlifetime
  · intro c hc
    refine (List.mem_append.mp hc).imp id fun hc => ?_
    obtain ⟨hpeer, hrsa, ⟨r, hr⟩, hkey⟩ :=
      Manager.cryptoForServer_crypto (Option.mem_toList.mp hc)
    have hurl := h.registered url r hr
    rw [Serves, if_pos hrsa, hpeer]
    refine ⟨hurl, fun hset => ?_⟩
    obtain ⟨sk, hsk, hk, hident⟩ := hkey hset
    rw [hk, hident]
    rcases h.keys url sk hsk with hhere | ⟨-, r', hclient⟩
    · exact hhere.2
    · exact absurd hurl (h.apart _ hclient)
  · intro u r hr
    rw [hservers] at hr
    exact Or.inl hr

lemma mem_uses_written {i : ℕ} {c : Crypto R} {r : Crypto.Written R} {u : Use R}
    (h : u ∈ (w.written i c r).uses) :
    u ∈ w.uses ∨ (∃ t, r.header = .ok t) ∧
      u = .outgoing c.peerIdent r.crypto.keyIdent r.crypto.key r.crypto.deadline w.now := by
  rw [written] at h
  cases hh : r.header with
  | error e =>
    rw [hh] at h
    exact Or.inl h
  | ok t =>
    rw [hh] at h
    exact (List.mem_append.mp h).imp id fun hu => ⟨⟨t, rfl⟩, List.mem_singleton.mp hu⟩

lemma Inv.written (h : w.Inv) {i : ℕ} {c : Crypto R} (hc : w.connections[i]? = some c)
    (hrsa : c.rsa.isSome) {r : Crypto.Written R} (hr : r.Spec c w.now) : (w.written i c r).Inv := by
  have hserves := h.connections c (List.mem_of_getElem? hc)
  rw [Serves, if_pos hrsa] at hserves
  obtain ⟨hurl, hkey⟩ := hserves
  have hbefore : w.Before (w.written i c r) := by
    refine ⟨List.Subset.refl _, ?_, List.Subset.refl _⟩
    rw [World.written]
    split_ifs
    · exact List.subset_append_left _ _
    · exact List.Subset.refl _
  -- a key of the connection is made here for its URL, whether there was one or it is new
  have hmade : r.crypto.keySet = true →
      ⟨c.peerIdent, r.crypto.keyIdent, r.crypto.key⟩ ∈ (w.written i c r).generated := by
    intro hset
    rw [World.written]
    rcases hr.made with ⟨hm, -⟩ | ⟨hm, hold⟩
    · rw [if_pos hm]
      exact List.mem_append_right _ (List.mem_singleton_self _)
    · rw [if_neg (by simp [hm]), hold]
      exact hkey (by rwa [hold] at hset)
  refine h.change hbefore (fun _ _ hsk => Or.inl hsk) ?_ ?_ h.apart (fun _ _ hr => Or.inl hr) ?_ rfl
  · intro p hp
    refine (List.mem_append.mp hp).imp id fun hp => ?_
    obtain ⟨sk, hsk, rfl⟩ := Option.map_eq_some_iff.mp (Option.mem_toList.mp hp)
    obtain ⟨hset, hident, hk⟩ := hr.assigned sk hsk
    refine ⟨hurl, ?_⟩
    rw [hident, hk]
    exact hmade hset
  · intro c' hc'
    refine (List.mem_or_eq_of_mem_set hc').imp id ?_
    rintro rfl
    rw [Serves, if_pos (by rw [hr.rsa]; exact hrsa), hr.peerIdent]
    exact ⟨hurl, hmade⟩
  · intro u hu
    refine (mem_uses_written hu).imp id ?_
    rintro ⟨⟨t, ht⟩, rfl⟩
    obtain ⟨hset, hlive⟩ := hr.header t ht
    exact ⟨hmade hset, hlive⟩

lemma Inv.assignedKey (h : w.Inv) {i : ℕ} {url : Text} {sk : SessionKey}
    (hp : w.pending[i]? = some (url, sk)) :
    ({ w with manager := w.manager.assignedKey url sk, pending := w.pending.eraseIdx i } :
      World R).Inv := by
  have hhere := h.pending _ (List.mem_of_getElem? hp)
  refine h.change (Before.of_eq rfl rfl rfl) ?_ (fun _ hp => Or.inl (List.mem_of_mem_eraseIdx hp))
    (fun _ hc => Or.inl hc) h.apart (fun _ _ hr => Or.inl hr) (fun _ hu => Or.inl hu) rfl
  intro n sk' hsk'
  change Function.update w.manager.sessionKeys url (some sk) n = some sk' at hsk'
  rcases eq_or_ne n url with rfl | hne
  · rw [Function.update_self] at hsk'
    cases hsk'
    exact Or.inr (Or.inl hhere)
  · rw [Function.update_of_ne hne] at hsk'
    exact Or.inl hsk'

/-- A key that is sent by its identifier alone was installed by its sender. -/
lemma Inv.existingKey (h : w.Inv) {sender : R} {own keyIdent : Text} {sk : SessionKey}
    (hok : w.OwnIdent sender own keyIdent) (hsk : w.manager.sessionKeys keyIdent = some sk) :
    sk.keyIdent = keyIdent ∧ ⟨sk.peerIdent, sender, keyIdent, sk.key⟩ ∈ w.installed ∧ sk.key = own := by
  rcases h.keys keyIdent sk hsk with hhere | ⟨hident, r, hr⟩
  · exact absurd hhere.1 hok.1
  · obtain ⟨rfl, hkey⟩ := hok.2 _ hr rfl
    exact ⟨hident, hr, hkey⟩

lemma Inv.acceptedExisting (h : w.Inv) {sender : R} {own keyIdent : Text} {sk : SessionKey}
    (hok : w.OwnIdent sender own keyIdent) (hsk : w.manager.sessionKeys keyIdent = some sk)
    (hlive : w.now < sk.deadline) :
    (w.accepted sender own (.existingKey keyIdent) w.manager
      ⟨sk.key, sk.keyIdent, sk.peerIdent, [], none, sk.deadline, true⟩).Inv := by
  obtain ⟨hident, hmem, hkey⟩ := h.existingKey hok hsk
  refine h.change (Before.of_eq rfl rfl rfl) (fun _ _ hsk => Or.inl hsk) (fun _ hp => Or.inl hp) ?_
    h.apart (fun _ _ hr => Or.inl hr) ?_ rfl
  · intro c hc
    refine (List.mem_append.mp hc).imp id fun hc => ?_
    rw [List.mem_singleton.mp hc, Serves, if_neg (by simp)]
    exact ⟨sender, by rw [hident]; exact hmem⟩
  · intro u hu
    refine (List.mem_append.mp hu).imp id fun hu => ?_
    rw [List.mem_singleton.mp hu]
    exact ⟨by rw [hident]; exact hmem, hkey, hlive⟩

/-- A key that is installed is used at once, and replaces none but the client's own. -/
lemma Inv.acceptedNew (h : w.Inv) {sender : R} {own key : Text} {fields : NewKey}
    (hurl : fields.keyIdent ∉ w.urls)
    (hok : ∀ k ∈ w.installed, k.keyIdent = fields.keyIdent →
      k.clientIdent = fields.clientIdent ∧ k.sender = sender) :
    (w.accepted sender own (.newKey fields)
      (w.manager.assignedKey fields.keyIdent
        ⟨fields.clientIdent, fields.keyIdent, key, w.now + w.manager.serverLifetime⟩)
      ⟨key, fields.keyIdent, fields.clientIdent, [], none, w.now + w.manager.serverLifetime,
        true⟩).Inv := by
  have hnew : ∀ l : List (Installed R), ⟨fields.clientIdent, sender, fields.keyIdent, key⟩ ∈
      l ++ [(⟨fields.clientIdent, sender, fields.keyIdent, key⟩ : Installed R)] :=
    fun l => List.mem_append_right _ (List.mem_singleton_self _)
  refine h.change ⟨List.Subset.refl _, List.Subset.refl _, List.subset_append_left _ _⟩ ?_
    (fun _ hp => Or.inl hp) ?_ ?_ (fun _ _ hr => Or.inl hr) ?_ rfl
  · intro n sk hsk
    change Function.update w.manager.sessionKeys fields.keyIdent _ n = some sk at hsk
    rcases eq_or_ne n fields.keyIdent with rfl | hne
    · rw [Function.update_self] at hsk
      cases hsk
      exact Or.inr (Or.inr ⟨rfl, sender, hnew _⟩)
    · rw [Function.update_of_ne hne] at hsk
      exact Or.inl hsk
  · intro c hc
    refine (List.mem_append.mp hc).imp id fun hc => ?_
    rw [List.mem_singleton.mp hc, Serves, if_neg (by simp)]
    exact ⟨sender, hnew _⟩
  · intro k hk
    rcases List.mem_append.mp hk with hk | hk
    · exact h.apart k hk
    · rw [List.mem_singleton.mp hk]
      exact hurl
  · intro u hu
    refine (List.mem_append.mp hu).imp id fun hu => ?_
    rw [List.mem_singleton.mp hu]
    refine ⟨fun sk hsk => ?_, Nat.lt_add_of_pos_right h.lifetime.2⟩
    rcases h.keys _ sk hsk with hhere | ⟨hident, r, hr⟩
    · exact absurd hhere.1 hurl
    · obtain ⟨hpeer, hsender⟩ := hok _ hr rfl
      refine List.mem_append_left _ ?_
      simp only at hpeer hsender
      rw [← hpeer, ← hsender, hident]
      exact hr

lemma Inv.matchAuthHeader (h : w.Inv) {i : ℕ} {c : Crypto R} {sender : R} {own auth : Text}
    (hc : w.connections[i]? = some c) (hrsa : ¬ c.rsa.isSome)
    (hmatch : c.matchAuthHeader w.now auth)
    (hok : ∀ keyIdent, parseAuth auth = .existingKey keyIdent → w.OwnIdent sender own keyIdent) :
    ({ w with
      uses := w.uses ++ [.incoming sender own c.peerIdent c.keyIdent c.key c.deadline w.now] } :
      World R).Inv := by
  have hserves := h.connections c (List.mem_of_getElem? hc)
  rw [Serves, if_neg hrsa] at hserves
  obtain ⟨r, hr⟩ := hserves
  simp only [Crypto.matchAuthHeader, Bool.and_eq_true, beq_iff_eq, decide_eq_true_eq] at hmatch
  obtain ⟨⟨hpre, hident⟩, hlive⟩ := hmatch
  have hparse : parseAuth auth = .existingKey c.keyIdent := by
    rw [parseAuth, if_pos hpre, hident]
  obtain ⟨rfl, hkey⟩ := (hok _ hparse).2 _ hr rfl
  refine h.change (Before.of_eq rfl rfl rfl) (fun _ _ hsk => Or.inl hsk) (fun _ hp => Or.inl hp)
    (fun _ hc => Or.inl hc) h.apart (fun _ _ hr => Or.inl hr) ?_ rfl
  intro u hu
  refine (List.mem_append.mp hu).imp id fun hu => ?_
  rw [List.mem_singleton.mp hu]
  exact ⟨hr, hkey, hlive⟩

/-! ### Runs -/

lemma Inv.step (h : w.Inv) {e : Event R} (hok : w.Ok E e) (hs : w.step E e = some w') : w'.Inv := by
  cases e with
  | addClient ident rsa =>
    cases hs
    exact h.setManager (fun _ _ hsk => hsk) (fun _ _ hr => hr) rfl
  | removeClient ident =>
    cases hs
    exact h.setManager (fun _ _ hsk => hsk) (fun _ _ hr => hr) rfl
  | addServer url rsa =>
    cases hs
    exact h.addServer hok
  | removeServer url =>
    cases hs
    refine h.setManager (fun _ _ hsk => hsk) (fun u r hr => ?_) rfl
    change Function.update w.manager.servers url none u = some r at hr
    rcases eq_or_ne u url with rfl | hne
    · rw [Function.update_self] at hr
      cases hr
    · rwa [Function.update_of_ne hne] at hr
  | cryptoForServer url newKey =>
    cases hs
    exact h.cryptoForServer url newKey
  | writeAuthHeader i random room =>
    obtain ⟨c, hc, hs⟩ := Option.bind_eq_some_iff.mp hs
    obtain ⟨⟨selfRsa, peerRsa⟩, hrsa, hs⟩ := Option.bind_eq_some_iff.mp hs
    cases hs
    exact h.written hc (by rw [hrsa]; rfl)
      (c.writeAuthHeader_spec selfRsa peerRsa w.now random room h.lifetime.1)
  | assignedKey i =>
    obtain ⟨⟨url, sk⟩, hp, hs⟩ := Option.bind_eq_some_iff.mp hs
    cases hs
    exact h.assignedKey hp
  | readAuthHeader sender own auth =>
    rw [World.step] at hs
    split at hs
    · cases hs
      exact h
    · rename_i m c hread
      cases hs
      rcases Manager.readAuthHeader_eq_ok hread with
        ⟨keyIdent, sk, hparse, hsk, hlive, rfl, rfl⟩ |
        ⟨fields, clientRsa, key, hparse, -, -, rfl, rfl⟩
      · rw [Ok, hparse] at hok
        rw [hparse]
        exact h.acceptedExisting hok hsk hlive
      · rw [Ok, hparse] at hok
        rw [hparse]
        exact h.acceptedNew hok.2.1 hok.2.2
  | matchAuthHeader i sender own auth =>
    obtain ⟨c, hc, hs⟩ := Option.bind_eq_some_iff.mp hs
    split_ifs at hs with hrsa hmatch
    · cases hs
      refine h.matchAuthHeader hc hrsa hmatch fun keyIdent hparse => ?_
      rw [Ok, hparse] at hok
      exact hok
    · cases hs
      exact h
  | scavenge =>
    cases hs
    exact h.scavenge
  | tick elapsed =>
    cases hs
    exact h.change (Before.of_eq rfl rfl rfl) (fun _ _ hsk => Or.inl hsk) (fun _ hp => Or.inl hp)
      (fun _ hc => Or.inl hc) h.apart (fun _ _ hr => Or.inl hr) (fun _ hu => Or.inl hu) rfl

lemma Inv.kept (h : w.Inv) : w.Kept E where
  stored url r sk hr hsk := by
    have hurl := h.registered url r hr
    rcases h.keys url sk hsk with hhere | ⟨-, r', hclient⟩
    · exact hhere.2
    · exact absurd hurl (h.apart _ hclient)
  uses := h.uses
  renegotiated auth keyIdent hparse hold := by
    rw [Manager.readAuthHeader, hparse]
    cases hsk : w.manager.sessionKeys keyIdent with
    | none => simp only [hsk]
    | some sk =>
      simp only [hsk]
      exact if_neg (not_lt.mpr (hold sk hsk))

end World

end OmniORB.Http
