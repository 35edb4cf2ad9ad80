import StateSync.Proofs.System.Events
import StateSync.Proofs.Transport.Opening

/-! A server that starts, a client that connects by a fresh transport, and a party that shuts down keep a system
    sound. -/

namespace StateSync
open Network (Quiet Cut Grown Asked)

variable {κ δ : Type}

theorem Network.Sound.bindAt {n n' : Network} (h : n.Sound) {addr : Option Address} {a : Address}
    (hb : n.bindAt addr = some (a, n')) : Grown n n' [a] ∧ ∀ b, n'.listens b = n.listens b := by
  cases addr with
  | none => exact h.bindAny hb
  | some addr =>
    rcases hbind : n.bind addr with ⟨e | k, n₁⟩
    · rw [Network.bindAt, hbind] at hb
      cases hb
    · rw [Network.bindAt, hbind] at hb
      obtain ⟨rfl, rfl⟩ := Prod.mk.inj (Option.some.inj hb)
      obtain ⟨rfl, hgrown⟩ := h.bind hbind
      exact hgrown

namespace Manager
variable {m : Manager Address δ}

theorem teardownAll_keeps (m : Manager Address δ) (ids : List ConnectionId) (reason : String) :
    let m' := ids.foldl (fun m id => m.teardown id reason) m
    m'.transports = m.transports ∧ m'.strings = m.strings ∧ m'.side = m.side := by
  induction ids generalizing m with
  | nil => exact ⟨rfl, rfl, rfl⟩
  | cons id ids ih =>
    obtain ⟨ht, hs, hside⟩ := teardown_keeps m id reason
    obtain ⟨ht', hs', hside'⟩ := ih (m.teardown id reason)
    exact ⟨ht'.trans ht, hs'.trans hs, hside'.trans hside⟩

/-- A manager that shuts down forgets all connections, and its transports are shut down and closed. -/
theorem shutdown_of_running (hrun : m.isRunning = true) (n : Network) (reason : String) : m.shutdown n reason =
    ({ (m.connections.live.map (·.id)).foldl (fun m id => m.teardown id reason) m with transports := [] },
      m.transports.foldl Network.close (m.transports.foldl (fun n a => n.shutdown a reason) n)) := by
  obtain ⟨ht, -⟩ := teardownAll_keeps m (m.connections.live.map (·.id)) reason
  unfold shutdown
  rw [hrun, if_neg (by decide)]
  dsimp only
  rw [ht]
  rfl

theorem shutdown_eq (hrun : m.isRunning = true) (n : Network) (reason : String) : ∃ m',
    m.shutdown n reason =
        (m', m.transports.foldl Network.close (m.transports.foldl (fun n a => n.shutdown a reason) n)) ∧
      m'.transports = [] ∧ m'.strings = m.strings ∧ m'.side = m.side := by
  obtain ⟨-, hs, hside⟩ := teardownAll_keeps m (m.connections.live.map (·.id)) reason
  exact ⟨_, shutdown_of_running hrun n reason, rfl, hs, hside⟩

end Manager

/-- A client that has asked for a connection, and what it has at its transport. -/
theorem Party.Fits.dialing {m : Manager Address δ} {k : κ} (h : Party.Fits (.client k) m)
    (hnone : ∀ id, m.connections.get? id = none) (a : Address) (username : String) (p : Peer) (remote : Address) :
    Party.Fits (.client k) (m.dialing a username p remote) ∧
      ∃ c, (m.dialing a username p remote).at? a p = some c ∧ c.phase = .connecting := by
  have hs : m.isServer = false := eq_false_of_ne_true fun hs => (nomatch h.isServer.mp hs)
  have hsound := (Manager.dialing_advances h.sound hs hnone a username p remote).sound
  have hnodup : (m.dialing a username p remote).transports.Nodup := List.nodup_singleton a
  have hget : (m.dialing a username p remote).connections.get? m.connections.nextId = some _ :=
    (Manager.get?_dialing hnone).mpr ⟨rfl, rfl⟩
  have honly : ∀ {b q c}, (m.dialing a username p remote).at? b q = some c → a = b ∧ p = q := by
    intro b q c hc
    obtain ⟨id, hid, hb, rfl⟩ := (hsound.at?_eq_some_iff hnodup).mp hc
    obtain ⟨-, rfl⟩ := (Manager.get?_dialing hnone).mp hid
    exact ⟨Option.some.inj hb, rfl⟩
  refine ⟨⟨hsound, h.side, hnodup, fun hs' => ?_, fun _ {b q b' q' c c'} hc hc' => ?_⟩, _,
    hsound.at?_of_get? hnodup hget rfl, rfl⟩
  · cases hs.symm.trans hs'
  · obtain ⟨rfl, rfl⟩ := honly hc
    exact honly hc'

namespace System
variable {s : System κ δ} {x : Party κ} {m : Manager Address δ} {n : Network} {a b : Address} {p q : Peer} {k : κ}

theorem Sound.wire?_of_idle (h : s.Sound) (hidle : ∀ a p, (s.manager (.client k)).at? a p = none)
    (ha : a ∈ (s.manager (.client k)).transports) (p : Peer) : s.net.wire? a p = none := by
  cases hw : s.net.wire? a p with
  | none => rfl
  | some w =>
    obtain ⟨b, q, st⟩ := w
    obtain ⟨-, ht⟩ := h.joins_client ha hw
    obtain ⟨c, hc⟩ := ht.client_some
    cases (hidle a p).symm.trans hc

variable [DecidableEq κ]

/-! ### Transports that are exchanged -/

/-- An idle party exchanges its transports. Those it had are without links, and those it takes have just been opened. -/
theorem Sound.adopt (h : s.Sound) (hm : x.Fits m) (hidle : ∀ a p, m.at? a p = none)
    (hcold : ∀ a ∈ (s.manager x).transports, ∀ p, s.net.wire? a p = none) (hgrown : Grown s.net n m.transports)
    (hlistens : ∀ {a}, n.listens a = true → a ∈ ((s.put x (m, n)).manager .server).transports) :
    (s.put x (m, n)).Sound := by
  have hown : ∀ {a y}, a ∈ m.transports → a ∉ (s.manager y).transports := by
    intro a y ha hy
    cases (hgrown.free a ha).symm.trans (h.bound hy)
  -- No link ends at the party, neither before nor after.
  have helse : ∀ {y a p w}, s.net.wire? a p = some w → a ∈ (s.manager y).transports →
      (s.put x (m, n)).manager y = s.manager y := by
    intro y a p w hw ha
    refine manager_put_of_ne s ?_ _
    rintro rfl
    cases (hcold a ha p).symm.trans hw
  refine ⟨hgrown.sound, fits_put h hm, fun {y a} ha => (hgrown.isBound a).mpr ?_, fun {y z a} ha ha' => ?_, hlistens,
    fun {y a p c} hc hnone => ?_, fun {a p b q st} hw => ?_⟩
  · by_cases hy : y = x
    · subst hy
      rw [manager_put_self] at ha
      exact Or.inr ha
    · rw [manager_put_of_ne s hy] at ha
      exact Or.inl (h.bound ha)
  · by_cases hy : y = x <;> by_cases hz : z = x
    · exact hy.trans hz.symm
    · subst hy
      rw [manager_put_self] at ha
      rw [manager_put_of_ne s hz] at ha'
      exact absurd ha' (hown ha)
    · subst hz
      rw [manager_put_of_ne s hy] at ha
      rw [manager_put_self] at ha'
      exact absurd ha (hown ha')
    · rw [manager_put_of_ne s hy] at ha
      rw [manager_put_of_ne s hz] at ha'
      exact h.apart ha ha'
  · by_cases hy : y = x
    · subst hy
      rw [manager_put_self] at hc
      cases (hidle a p).symm.trans hc
    · rw [manager_put_of_ne s hy] at hc
      rw [net_put, hgrown.wire?] at hnone
      rw [net_put, hgrown.notes]
      exact h.lost hc hnone
  · rw [net_put, hgrown.wire?] at hw
    have hback := h.net.paired hw
    rcases h.linked hw with hj | hj
    · exact Or.inl (hj.kept (helse hw) (fun hb _ => helse hback hb) (hgrown.notes _ _) (hgrown.notes _ _))
    · exact Or.inr (hj.kept (helse hback) (fun hb _ => helse hw hb) (hgrown.notes _ _) (hgrown.notes _ _))

theorem Sound.dial (h : s.Sound) (hm : Party.Fits (.client k) m) (hidle : ∀ a p, (s.manager (.client k)).at? a p = none)
    (htransports : m.transports = (s.manager (.client k)).transports) (hnew : m.strings = StringTable.create)
    {c : Connection} (hc : m.at? a p = some c) (hphase : c.phase = .connecting) (hn : Asked s.net n a p b q) :
    (s.put (.client k) (m, n)).Sound := by
  have ha := Manager.mem_transports_of_at? hc
  have hb := h.listens hn.listens
  have hs : m.isServer = false := eq_false_of_ne_true fun hs => (nomatch hm.isServer.mp hs)
  have hnone : (s.manager .server).at? b q = none := by
    cases hx : (s.manager .server).at? b q with
    | none => rfl
    | some x =>
      have hdown := h.lost hx hn.fresh.2
      rw [hn.fresh.1] at hdown
      cases hdown
  have hjoins : (s.put (.client k) (m, n)).Joins b q a p .awaitingApproval := by
    refine joins_put_client hb ha ?_
    rw [hnone, hc, hnew, hn.asks, hn.idle]
    exact .asked hphase rfl
  refine h.of_stays ⟨transports_put htransports, hn.alike.isBound, hn.alike.listens⟩ hn.sound (fits_put h hm)
    (fun {y d r z} hz hgone => ?_) fun {d r d' r' st} hw => ?_
  · by_cases hy : y = .client k
    · subst hy
      rw [manager_put_self] at hz
      obtain ⟨rfl, rfl⟩ := hm.single hs hz hc
      cases hgone.symm.trans hn.wire
    · rw [manager_put_of_ne s hy] at hz
      have hmem := Manager.mem_transports_of_at? hz
      have hend : ¬ ((d = a ∧ r = p) ∨ (d = b ∧ r = q)) := by
        rintro (⟨rfl, -⟩ | ⟨rfl, rfl⟩)
        · exact hy (h.apart hmem (htransports ▸ ha))
        · obtain rfl := h.apart hmem hb
          cases hnone.symm.trans hz
      rw [net_put, hn.alike.wire? hend] at hgone
      rw [net_put, hn.alike.notes hend]
      exact h.lost hz hgone
  · rw [net_put] at hw
    by_cases hend : (d = a ∧ r = p) ∨ (d = b ∧ r = q)
    · rcases hend with ⟨rfl, rfl⟩ | ⟨rfl, rfl⟩
      · obtain ⟨rfl, rfl, rfl⟩ := Network.wire_inj hw hn.wire
        exact Or.inr hjoins
      · obtain ⟨rfl, rfl, rfl⟩ := Network.wire_inj hw (hn.sound.paired hn.wire)
        exact Or.inl hjoins
    · -- Any other link is as it was, and not this client's.
      have hend' := hn.not_end hw hend
      have hother : ∀ {k' d r z}, d ∈ (s.manager (.client k')).transports → (s.manager (.client k')).at? d r = some z →
          (s.put (.client k) (m, n)).manager (.client k') = s.manager (.client k') := by
        intro k' d r z _ hz
        refine manager_put_of_ne s (fun heq => ?_) _
        rw [heq] at hz
        cases (hidle d r).symm.trans hz
      rw [hn.alike.wire? hend] at hw
      rcases h.linked hw with hj | hj
      · exact Or.inl (hj.kept (fun _ => server_put_client ..) hother (hn.alike.notes hend) (hn.alike.notes hend'))
      · exact Or.inr (hj.kept (fun _ => server_put_client ..) hother (hn.alike.notes hend') (hn.alike.notes hend))

/-! ### Starting -/

theorem Sound.start (h : s.Sound) (x : Party κ) : (s.put x ((s.manager x).start s.net).2).Sound := by
  have hm := (h.fits x).sound
  unfold Manager.start
  split
  · rw [put_same]
    exact h
  · rename_i hs
    have hserver : (s.manager x).isServer = true := by simpa using hs
    obtain rfl := (h.fits x).isServer.mp hserver
    split
    · rw [put_same]
      exact h
    · rename_i hrun
      have hnil : (s.manager .server).transports = [] := by simpa [Manager.isRunning] using hrun
      split
      · rw [put_same]
        exact h
      · rename_i addrs _
        rcases (Grown.refl h.net).openAll List.nodup_nil (s.manager .server).settings addrs with
          ⟨hs, n', hopen, hgrown, hnodup⟩ | ⟨e, n', hopen, hcut, hn', hbound⟩
        · rw [hopen]
          have hnone := hm.get?_of_not_running hrun
          have hadv : Manager.Advances (s.manager .server) { s.manager .server with transports := hs } :=
            .of_idle hm hnone rfl rfl rfl
          have hidle := hadv.sound.at?_of_idle hnodup hnone
          have hfits : Party.Fits (κ := κ) .server { s.manager .server with transports := hs } := by
            refine ⟨hadv.sound, (h.fits .server).side, hnodup, (h.fits .server).table, fun _ {a p b q c c'} hc => ?_⟩
            cases (hidle a p).symm.trans hc
          refine h.adopt (m := { s.manager .server with transports := hs }) hfits hidle (fun a ha => ?_) hgrown
            fun {a} hl => ?_
          · rw [hnil] at ha
            cases ha
          · rw [manager_put_self]
            refine (hgrown.listens hl).resolve_left fun hl' => ?_
            have ha := h.listens hl'
            rw [hnil] at ha
            cases ha
        · rw [hopen]
          rw [put_same]
          exact h.cut hcut hn' fun ha => (hbound _).trans (h.bound ha)

/-! ### Shutting down -/

theorem Sound.shutdown (h : s.Sound) (x : Party κ) (reason : String) :
    (s.put x ((s.manager x).shutdown s.net reason)).Sound := by
  cases hrun : (s.manager x).isRunning with
  | false =>
    rw [Manager.shutdown, hrun, if_pos Bool.not_false, put_same]
    exact h
  | true =>
    obtain ⟨m', hm', htransports, hstrings, hside⟩ := Manager.shutdown_eq hrun s.net reason
    have hadv := Manager.shutdown_advances (h.fits x).sound s.net reason
    rw [hm'] at hadv ⊢
    have hfits : x.Fits m' := by
      refine ⟨hadv.sound, hside.trans (h.fits x).side, htransports ▸ List.nodup_nil, fun hs => ?_,
        fun _ {a p b q c c'} hc => ?_⟩
      · rw [Manager.isServer, hside] at hs
        rw [hstrings]
        exact (h.fits x).table hs
      · cases (Manager.at?_of_no_transports htransports a p).symm.trans hc
    obtain ⟨hcut, hsound, hstays⟩ := h.net.shutdownAll (s.manager x).transports reason
    obtain ⟨hcut', hsound', hbound⟩ := hsound.closeAll (s.manager x).transports
    refine h.leave hfits htransports (hcut.trans hcut') hsound' fun a => ?_
    rw [hbound, hstays]

/-- Another manager takes the place of one that is given up without a word. -/
theorem Sound.replace (h : s.Sound) (x : Party κ) (settings : Settings) :
    (s.put x (Manager.create x.side settings, (s.manager x).discard s.net)).Sound := by
  obtain ⟨hcut, hsound, hbound⟩ := h.net.closeAll (s.manager x).transports
  exact h.leave (fits_create x settings) rfl hcut hsound hbound

/-! ### Connecting -/

theorem Sound.take (h : s.Sound) (hnone : ∀ id, (s.manager (.client k)).connections.get? id = none)
    (hgrown : Grown s.net n [a]) (hlistens : ∀ b, n.listens b = s.net.listens b) (username : String) :
    (s.put (.client k) ((s.manager (.client k)).freshClient a username, n)).Sound := by
  have hfits := h.fits (.client k)
  have hside := h.side_client k
  have hfresh : Manager.Advances (s.manager (.client k)) ((s.manager (.client k)).freshClient a username) :=
    .of_idle hfits.sound hnone rfl rfl rfl
  have hidle := hfresh.sound.at?_of_idle (List.nodup_singleton a) hnone
  have hcold : ∀ b ∈ (s.manager (.client k)).transports, ∀ p, s.net.wire? b p = none := by
    intro b hb
    exact h.wire?_of_idle (hfits.sound.at?_of_idle hfits.nodup hnone) hb
  refine h.adopt ⟨hfresh.sound, hfits.side, List.nodup_singleton a, fun hs => ?_, fun _ {b p c q z z'} hz => ?_⟩ hidle
    hcold hgrown fun {b} hl => ?_
  · cases hside.symm.trans hs
  · cases (hidle b p).symm.trans hz
  · rw [server_put_client]
    rw [hlistens] at hl
    exact h.listens hl

/-- A client takes a transport that has just been bound, asks the server for a connection by it, and closes the
    transport it had. -/
theorem Sound.reach (h : s.Sound) (hnone : ∀ id, (s.manager (.client k)).connections.get? id = none)
    (hgrown : Grown s.net n [a]) (hlistens : ∀ b, n.listens b = s.net.listens b) (username : String) {n' : Network}
    (hn : Asked n n' a p b q) (remote : Address) :
    (s.put (.client k) ((s.manager (.client k)).dialing a username p remote,
      (s.manager (.client k)).transports.foldl Network.close n')).Sound := by
  have htaken := h.take hnone hgrown hlistens username
  have hidle : ∀ b q, ((s.manager (.client k)).freshClient a username).at? b q = none := by
    have hfits := htaken.fits (.client k)
    rw [manager_put_self] at hfits
    exact hfits.sound.at?_of_idle hfits.nodup hnone
  obtain ⟨hfits, c, hc, hphase⟩ := (h.fits (.client k)).dialing hnone a username p remote
  have hdialed := htaken.dial hfits (by simpa using hidle) (by rw [manager_put_self]; rfl) rfl hc hphase hn
  rw [put_put] at hdialed
  obtain ⟨hcut, hsound, hclosed⟩ := hn.sound.closeAll (s.manager (.client k)).transports
  refine hdialed.cut hcut hsound fun {y d} hd => (hclosed d).mpr ⟨hdialed.bound hd, fun hd' => ?_⟩
  by_cases hy : y = .client k
  · subst hy
    rw [manager_put_self] at hd
    obtain rfl := List.mem_singleton.mp hd
    cases (hgrown.free d (List.mem_singleton_self d)).symm.trans (h.bound hd')
  · rw [manager_put_of_ne s hy] at hd
    exact hy (h.apart hd hd')

theorem Sound.connect (h : s.Sound) {addr : Option Address} (hb : s.net.bindAt addr = some (a, n)) (k : κ)
    (remote : Address) (username : String) :
    (s.put (.client k) ((s.manager (.client k)).connect n a remote username).2).Sound := by
  have hm := (h.fits (.client k)).sound
  obtain ⟨hgrown, hlistens⟩ := h.net.bindAt hb
  -- A transport that is closed again leaves nothing behind.
  have hclosed : ∀ {n₁ : Network}, Quiet n n₁ → Sound { s with net := n₁.close a } := by
    intro n₁ hq
    obtain ⟨hcut, hsound, hbound⟩ := (hgrown.quiet hq).closeAll
    exact h.cut hcut hsound fun ha => (hbound _).trans (h.bound ha)
  unfold Manager.connect
  rw [h.side_client k, if_neg Bool.false_ne_true]
  split
  · rw [put_same]
    exact hclosed (.refl n)
  · rename_i hpeers
    have hq := Network.tune_quiet n (s.manager (.client k)).settings a
    generalize Manager.tune n (s.manager (.client k)).settings a = n₁ at hq ⊢
    have htuned := hgrown.quiet hq
    rcases Network.connect_cases n₁ a remote with ⟨e, heq⟩ | ⟨hl, hne⟩
    · rw [show Medium.connect n₁ a remote = _ from heq]
      dsimp only
      rw [put_same]
      exact hclosed hq
    · have hbound := (htuned.isBound a).mpr (Or.inr (List.mem_singleton_self a))
      obtain ⟨p, n₂, q, heq, hasked⟩ := htuned.sound.connect hbound hl hne
      rw [show Medium.connect n₁ a remote = _ from heq]
      refine h.reach (hm.get?_of_peerCount hpeers) htuned (fun b => ?_) username hasked remote
      rw [hq.listens, hlistens]

end System
end StateSync
