import StateSync.Proofs.System.Closing

/-! A start that fails is undone. A server gets a transport that listens at each address of its settings, or it stays as
    it is, and so does the whole network, however many transports were open already when an address turned out to be
    taken (`Launched.openAll`, `Launched.closeAll`). A client that gets no connection stays as it is as well
    (`start_or_restore`). -/

namespace StateSync

/-! ### Entries at the end -/

namespace Assoc
variable {κ α : Type} {m m' : Assoc κ α} {k : κ} {x : α} {es before after : List (κ × α)}

theorem eq_of_entries (h : m.entries = m'.entries) : m = m' := by
  cases m
  cases m'
  cases h
  rfl

/-- No other entry has the key of an entry. -/
theorem ne_of_split (h : m.entries = before ++ (k, x) :: after) : ∀ e ∈ before ++ after, e.1 ≠ k := by
  have hnodup := m.nodup
  rw [h, (List.perm_middle.map _).nodup_iff, List.map_cons, List.nodup_cons] at hnodup
  intro e he hk
  exact hnodup.1 (List.mem_map.mpr ⟨e, he, hk⟩)

variable [DecidableEq κ]

theorem put_of_new (x : α) (h : k ∉ es.map (·.1)) : put k x es = es ++ [(k, x)] := by
  induction es with
  | nil => rfl
  | cons e es ih =>
    obtain ⟨hne, hes⟩ := not_or.mp (mt List.mem_cons.mpr h)
    rw [put, if_neg (Ne.symm hne), ih hes]
    rfl

theorem entries_modify_last (f : α → α) (h : m.entries = es ++ [(k, x)]) :
    (m.modify k f).entries = es ++ [(k, f x)] := by
  have hothers := ne_of_split h
  have hes : es.map (fun e => if e.1 = k then (e.1, f e.2) else e) = es :=
    (List.map_congr_left fun e he => if_neg (hothers e (List.mem_append_left _ he))).trans (List.map_id es)
  have hentries : (m.modify k f).entries = m.entries.map fun e => if e.1 = k then (e.1, f e.2) else e := rfl
  rw [hentries, h, List.map_append, hes, List.map_singleton, if_pos rfl]

theorem entries_erase_of_split (h : m.entries = before ++ (k, x) :: after) :
    (m.erase k).entries = before ++ after := by
  have hothers := ne_of_split h
  have hkept : (before ++ after).filter (fun e => e.1 ≠ k) = before ++ after :=
    List.filter_eq_self.mpr fun e he => decide_eq_true (hothers e he)
  have hentries : (m.erase k).entries = m.entries.filter fun e => e.1 ≠ k := rfl
  rw [hentries, h, List.filter_append, List.filter_cons_of_neg (by simp), ← List.filter_append, hkept]

theorem erase_modify (m : Assoc κ α) (k : κ) (f : α → α) : (m.modify k f).erase k = m.erase k := by
  refine eq_of_entries ?_
  have hentries : ((m.modify k f).erase k).entries =
      (m.entries.map fun e => if e.1 = k then (e.1, f e.2) else e).filter fun e => e.1 ≠ k := rfl
  have hkey : ((fun e : κ × α => decide (e.1 ≠ k)) ∘ fun e => if e.1 = k then (e.1, f e.2) else e) =
      fun e => decide (e.1 ≠ k) := by
    funext e
    by_cases he : e.1 = k <;> simp [he]
  rw [hentries, List.filter_map, hkey]
  -- An entry that is left is not the one that was modified.
  refine (List.map_congr_left fun e he => if_neg ?_).trans (List.map_id _)
  exact of_decide_eq_true (List.mem_filter.mp he).2

end Assoc

/-! ### Endpoints that are opened and given up -/

namespace Network
variable {s : Settings} {n n' : Network} {a : Address} {hs opened addrs : List Address}

theorem mem_keys_iff : a ∈ n.endpoints.keys ↔ n.isBound a = true := by
  rw [isBound_eq, Option.isSome_iff_ne_none, endpoint?, Ne, Assoc.get?_eq_none, not_not]

/-- The endpoint of a server that has just been started. -/
def listener (now : Nat) (s : Settings) : Endpoint :=
  { Endpoint.fresh now with listening := true, impairment := s.impairment, rateLimit := s.rateLimit }

/-- Endpoints that listen have come in addition, and nothing else has changed. -/
structure Launched (s : Settings) (n n' : Network) (hs : List Address) : Prop where
  entries : n'.endpoints.entries = n.endpoints.entries ++ hs.map fun a => (a, listener n.clock s)
  rest : { n' with endpoints := n.endpoints } = n

namespace Launched

theorem refl (s : Settings) (n : Network) : Launched s n n [] := ⟨(List.append_nil _).symm, rfl⟩

theorem eq_of_nil (h : Launched s n n' []) : n' = n := by
  have hendpoints : n'.endpoints = n.endpoints := Assoc.eq_of_entries (h.entries.trans (List.append_nil _))
  have hrest := h.rest
  rwa [← hendpoints] at hrest

theorem keys (h : Launched s n n' hs) : n'.endpoints.keys = n.endpoints.keys ++ hs := by
  have hentries : n'.endpoints.keys = n'.endpoints.entries.map (·.1) := rfl
  rw [hentries, h.entries, List.map_append, List.map_map]
  exact congrArg _ (List.map_id _)

theorem isBound (h : Launched s n n' hs) : n'.isBound a = true ↔ n.isBound a = true ∨ a ∈ hs := by
  rw [← mem_keys_iff, h.keys, List.mem_append, mem_keys_iff]

/-- The addresses were free, and each has been taken once. -/
theorem free (h : Launched s n n' hs) : hs.Nodup ∧ ∀ a ∈ hs, n.isBound a = false := by
  have hnodup : n'.endpoints.keys.Nodup := n'.endpoints.nodup
  rw [h.keys] at hnodup
  obtain ⟨-, hhs, hapart⟩ := List.nodup_append.mp hnodup
  exact ⟨hhs, fun a ha => eq_false_of_ne_true fun hb => hapart a (mem_keys_iff.mpr hb) a ha rfl⟩

theorem endpoint? (h : Launched s n n' hs) (ha : a ∈ hs) : n'.endpoint? a = some (listener n.clock s) := by
  refine (Assoc.lookup_eq_some_iff n'.endpoints.nodup).mpr ?_
  rw [h.entries]
  exact List.mem_append_right _ (List.mem_map_of_mem ha)

theorem listens (h : Launched s n n' hs) (ha : a ∈ hs) : n'.listens a = true := by
  rw [Network.listens, h.endpoint? ha]
  rfl

/-- One more endpoint can be opened where none is bound. -/
theorem openOne (h : Launched s n n' hs) (hfree : n'.isBound a = false) : ∃ n₁ n₂, n'.bind a = (.ok a, n₁) ∧
    (Manager.tune n₁ s a).start a = (.ok (), n₂) ∧ Launched s n n₂ (hs ++ [a]) := by
  let n₁ : Network := { n' with endpoints := n'.endpoints.insert a (Endpoint.fresh n'.clock) }
  have hbind : n'.bind a = (.ok a, n₁) := if_neg (by rw [hfree]; exact Bool.false_ne_true)
  have hbound : (Manager.tune n₁ s a).isBound a = true := by
    rw [(tune_quiet n₁ s a).isBound, isBound_eq, Network.endpoint?, Assoc.get?_insert, if_pos rfl]
    rfl
  have hclock : n'.clock = n.clock := by
    have hrest := congrArg Network.clock h.rest
    exact hrest
  have hfresh : n₁.endpoints.entries = n'.endpoints.entries ++ [(a, Endpoint.fresh n.clock)] := by
    rw [← hclock]
    refine Assoc.put_of_new _ fun hmem => ?_
    exact Bool.false_ne_true (hfree.symm.trans (mem_keys_iff.mp hmem))
  have hlistener := Assoc.entries_modify_last (fun e => { e with listening := true })
    (Assoc.entries_modify_last (fun e => { e with rateLimit := s.rateLimit })
      (Assoc.entries_modify_last (fun e => { e with impairment := s.impairment }) hfresh))
  rw [h.entries, List.append_assoc] at hlistener
  refine ⟨n₁, _, hbind, if_pos hbound, ?_, h.rest⟩
  rw [List.map_append]
  exact hlistener

/-- An endpoint that has had no link is given up without a trace. -/
theorem close (h : Launched s n n' (a :: hs)) : Launched s n (n'.close a) hs := by
  have hidle : ∀ p, n'.wire? a p = none := fun p => by
    rw [wire?, link?, h.endpoint? List.mem_cons_self]
    rfl
  rw [close_of_idle hidle]
  exact ⟨Assoc.entries_erase_of_split h.entries, h.rest⟩

theorem closeAll (h : Launched s n n' hs) : Manager.closeAll n' hs = n := by
  induction hs generalizing n' with
  | nil => exact h.eq_of_nil
  | cons a hs ih => exact ih h.close

/-- Either all endpoints are opened, or one of the addresses is taken already, by an endpoint of before or one that has
    been opened for an earlier address. The network is as before then. -/
theorem openAll (h : Launched s n n' opened) (addrs : List Address) :
    (∃ n'', Manager.openAll s n' opened addrs = (.ok (opened ++ addrs), n'') ∧ Launched s n n'' (opened ++ addrs)) ∨
    ∃ done a todo, addrs = done ++ a :: todo ∧ (n.isBound a = true ∨ a ∈ opened ++ done) ∧
      Manager.openAll s n' opened addrs = (.error (.transport (.inUse a)), n) := by
  induction addrs generalizing n' opened with
  | nil =>
    rw [List.append_nil]
    exact Or.inl ⟨n', rfl, h⟩
  | cons a addrs ih =>
    cases hbound : n'.isBound a with
    | true =>
      have hbind : n'.bind a = (.error (.transport (.inUse a)), n') := if_pos hbound
      refine Or.inr ⟨[], a, addrs, rfl, by rw [List.append_nil]; exact h.isBound.mp hbound, ?_⟩
      simp only [Manager.openAll, Medium.bind, hbind, h.closeAll]
    | false =>
      obtain ⟨n₁, n₂, hbind, hstart, hlaunched⟩ := h.openOne hbound
      have hnext : Manager.openAll s n' opened (a :: addrs) = Manager.openAll s n₂ (opened ++ [a]) addrs := by
        have hstart' : Medium.start (Manager.tune n₁ s a) a = (.ok (), n₂) := hstart
        simp only [Manager.openAll, Medium.bind, hbind, hstart']
      rw [hnext]
      rcases ih hlaunched with ⟨n'', hopen, hall⟩ | ⟨done, b, todo, rfl, htaken, hopen⟩
      · rw [List.append_assoc, List.singleton_append] at hopen hall
        exact Or.inl ⟨n'', hopen, hall⟩
      · rw [List.append_assoc, List.singleton_append] at htaken
        exact Or.inr ⟨a :: done, b, todo, rfl, htaken, hopen⟩

end Launched

theorem unbind_tune (n : Network) (s : Settings) (a : Address) : (Manager.tune n s a).unbind a = n.unbind a := by
  have hupdate : ∀ (n : Network) f, (n.update a f).unbind a = n.unbind a := fun n f =>
    congrArg (fun es => { n with endpoints := es }) (Assoc.erase_modify n.endpoints a f)
  exact (hupdate _ _).trans (hupdate _ _)

end Network

namespace Manager
open Network (Launched)

variable {δ : Type}

/-! ### Starting a server -/

theorem start_cases (m : Manager Address δ) (n : Network) :
    (∃ addrs n', m.isServer = true ∧ m.isRunning = false ∧ m.settings.addresses = .ok addrs ∧
      Launched m.settings n n' addrs ∧ m.start n = (.ok (), { m with transports := addrs }, n')) ∨
    ∃ e, m.start n = (.error e, m, n) ∧ ¬ (m.isServer = true ∧ m.isRunning = false ∧
      ∃ addrs, m.settings.addresses = .ok addrs ∧ addrs.Nodup ∧ ∀ a ∈ addrs, n.isBound a = false) := by
  unfold start
  cases hserver : m.isServer with
  | false => exact Or.inr ⟨_, rfl, fun h => nomatch h.1⟩
  | true =>
    cases hidle : m.isRunning with
    | true => exact Or.inr ⟨_, rfl, fun h => nomatch h.2.1⟩
    | false =>
      cases haddrs : m.settings.addresses with
      | error e => exact Or.inr ⟨_, rfl, fun ⟨_, _, _, h, _⟩ => nomatch h⟩
      | ok addrs =>
        rcases (Launched.refl m.settings n).openAll addrs with
          ⟨n', hopen, hlaunched⟩ | ⟨done, a, todo, rfl, htaken, hopen⟩
        · refine Or.inl ⟨addrs, n', rfl, rfl, rfl, hlaunched, ?_⟩
          dsimp only
          rw [hopen]
          rfl
        · refine Or.inr ⟨.transport (.inUse a), ?_, ?_⟩
          · dsimp only
            rw [hopen]
            rfl
          · rintro ⟨-, -, addrs, heq, hnodup, hfree⟩
            obtain rfl := Except.ok.inj heq
            rcases htaken with hbound | hmem
            · exact nomatch (hfree a (by simp)).symm.trans hbound
            · exact (List.nodup_append.mp hnodup).2.2 a hmem a List.mem_cons_self rfl

/-! ### Connecting a client -/

theorem connect_cases (m : Manager Address δ) (n : Network) (h remote : Address) (username : String) :
    ((∃ id, (m.connect n h remote username).1 = .ok id) ∧ m.isServer = false ∧ m.connections.peerCount = 0 ∧
      n.listens remote = true ∧ remote ≠ h) ∨
    ∃ e n', m.connect n h remote username = (.error e, m, n') ∧ ((∀ p, n.wire? h p = none) → n' = n.unbind h) ∧
      ¬ (m.isServer = false ∧ m.connections.peerCount = 0 ∧ n.listens remote = true ∧ remote ≠ h) := by
  unfold connect
  cases hserver : m.isServer with
  | true => exact Or.inr ⟨_, _, rfl, Network.close_of_idle, fun hall => nomatch hall.1⟩
  | false =>
    rw [if_neg Bool.false_ne_true]
    by_cases hpeers : 0 < m.connections.peerCount
    · rw [if_pos hpeers]
      exact Or.inr ⟨_, _, rfl, Network.close_of_idle, fun hall => absurd hall.2.1 (Nat.ne_of_gt hpeers)⟩
    · rw [if_neg hpeers]
      have hquiet := Network.tune_quiet n m.settings h
      have hlistens : (tune n m.settings h).listens remote = n.listens remote := hquiet.listens remote
      rcases Network.connect_cases (tune n m.settings h) h remote with ⟨e, hfails⟩ | ⟨hlistening, hne⟩
      · have hfails' : Medium.connect (tune n m.settings h) h remote = (.error e, tune n m.settings h) := hfails
        rw [hfails']
        refine Or.inr ⟨_, _, rfl, fun hidle => ?_, fun ⟨_, _, hlistening, hne⟩ => ?_⟩
        · have hidle' : ∀ p, (tune n m.settings h).wire? h p = none := fun p => (hquiet.wire? h p).trans (hidle p)
          exact (Network.close_of_idle hidle').trans (Network.unbind_tune n m.settings h)
        · rw [Network.connect_eq_lay (hlistens.trans hlistening) hne] at hfails
          cases hfails
      · have hmade : Medium.connect (tune n m.settings h) h remote = _ := Network.connect_eq_lay hlistening hne
        rw [hmade]
        exact Or.inl ⟨⟨_, rfl⟩, rfl, Nat.eq_zero_of_not_pos hpeers, hlistens.symm.trans hlistening, hne⟩

/-- Starting a server is all or nothing. It succeeds exactly if the manager is one of a server that does not run, and
    the addresses of its settings are all free and each named once. Each then has an endpoint that listens, and these
    are the transports of the server. In any other case the manager and the network stay as they are. Opening a client's
    connection succeeds exactly if the client has none and another endpoint listens at the address. In any other case
    the manager stays as it is, and of the transport that was made for it nothing is left, if it had no links. -/
theorem start_or_restore (m : Manager Address δ) (n : Network) :
    (let r := m.start n
    (r.1 = .ok () ↔ m.isServer = true ∧ m.isRunning = false ∧
      ∃ addrs, m.settings.addresses = .ok addrs ∧ addrs.Nodup ∧ ∀ a ∈ addrs, n.isBound a = false) ∧
    (r.1 = .ok () → ∃ addrs, m.settings.addresses = .ok addrs ∧ r.2.1 = { m with transports := addrs } ∧
      Launched m.settings n r.2.2 addrs ∧ ∀ a ∈ addrs, r.2.2.listens a = true) ∧
    ∀ e, r.1 = .error e → r.2 = (m, n)) ∧
    ∀ h remote username,
      let r := m.connect n h remote username
      ((∃ id, r.1 = .ok id) ↔ m.isServer = false ∧ m.connections.peerCount = 0 ∧ n.listens remote = true ∧
        remote ≠ h) ∧
      ∀ e, r.1 = .error e → r.2.1 = m ∧ ((∀ p, n.wire? h p = none) → r.2.2 = n.unbind h) := by
  refine ⟨?_, fun h remote username => ?_⟩
  · rcases m.start_cases n with ⟨addrs, n', hserver, hidle, haddrs, hlaunched, hstart⟩ | ⟨e, hstart, hnot⟩
    · obtain ⟨hnodup, hfree⟩ := hlaunched.free
      rw [hstart]
      refine ⟨iff_of_true rfl ⟨hserver, hidle, addrs, haddrs, hnodup, hfree⟩, fun _ => ?_, nofun⟩
      exact ⟨addrs, haddrs, rfl, hlaunched, fun a => hlaunched.listens⟩
    · rw [hstart]
      exact ⟨iff_of_false nofun hnot, nofun, fun _ _ => rfl⟩
  · rcases m.connect_cases n h remote username with ⟨⟨id, hmade⟩, hall⟩ | ⟨e, n', hfails, hgone, hnot⟩
    · exact ⟨iff_of_true ⟨id, hmade⟩ hall, fun e he => nomatch hmade.symm.trans he⟩
    · rw [hfails]
      exact ⟨iff_of_false nofun hnot, fun _ _ => ⟨rfl, hgone⟩⟩

/-- The second address is the first again, at which an endpoint listens by then. -/
example : ((create .server { Settings.initial with hosts := "127.0.0.1,127.0.0.1" } : Manager Address Unit).start
    Network.calm).1 = .error (.transport (.inUse ⟨Host.loopback, Settings.defaultPort⟩)) := by decide +kernel

end Manager
end StateSync
