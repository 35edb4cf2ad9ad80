import StateSync.Proofs.System.Duet

/-! The server and the client of a duet talk to each other across every link that joins them (`Duet.Talks`), whatever
    they do and whatever others do, as long as neither of their applications sends the name table. -/

namespace StateSync
open Network (Act Acted AtLink Cut Deals Quiet Asked)

variable {δ ε : Type}

namespace Duet
variable {s : Duet δ ε} {a b : Address} {p q : Peer} {st : LinkState} {n : Network} {m : Manager Address δ}
  {m' : Manager Address ε}

/-- A link joins a transport of the server, at the first end, and one of the client. -/
structure Links (s : Duet δ ε) (a : Address) (p : Peer) (b : Address) (q : Peer) (st : LinkState) : Prop where
  server : a ∈ s.server.transports
  client : b ∈ s.client.transports
  wire : s.net.wire? a p = some ⟨b, q, st⟩

def Talks (s : Duet δ ε) : Prop := ∀ ⦃a p b q st⦄, s.Links a p b q st →
  Talk s.server.strings s.client.strings st (s.server.at? a p) (s.client.at? b q) (s.net.notes a p) (s.net.notes b q)

theorem Talks.of_no_server (h : s.server.transports = []) : s.Talks := fun _ _ _ _ _ hl => nomatch h ▸ hl.server

theorem Talks.of_no_client (h : s.client.transports = []) : s.Talks := fun _ _ _ _ _ hl => nomatch h ▸ hl.client

/-- A link that is left after others were taken down was there before, and nothing has come in at its ends. -/
theorem Links.of_cut (hl : Links { s with net := n } a p b q st) (hn : n.Sound) (hcut : Cut s.net n) :
    s.Links a p b q st ∧ n.notes a p = s.net.notes a p ∧ n.notes b q = s.net.notes b q := by
  obtain ⟨hw, hnear⟩ := hcut.kept hl.wire
  exact ⟨⟨hl.server, hl.client, hw⟩, hnear, (hcut.kept (hn.paired hl.wire)).2⟩

theorem Talks.cut (ht : s.Talks) (hn : n.Sound) (hcut : Cut s.net n) : Talks { s with net := n } := by
  intro a p b q st hl
  obtain ⟨hl, hnear, hfar⟩ := hl.of_cut hn hcut
  show Talk _ _ st _ _ (n.notes a p) (n.notes b q)
  rw [hnear, hfar]
  exact ht hl

/-! ### What one of the two does at one end of a link -/

theorem Talks.deal_server (ht : s.Talks) (h : s.Sound) {c : Address} {r : Peer} (hc : c ∈ s.server.transports)
    (hm : System.Acts s.server m c r) (hn : Deals s.net n c r)
    (here : ∀ {b q st}, Links { s with server := m, net := n } c r b q st →
      Talk m.strings s.client.strings st (m.at? c r) (s.client.at? b q) (n.notes c r) (n.notes b q)) :
    Talks { s with server := m, net := n } := by
  intro a p b q st hl
  by_cases hend : a = c ∧ p = r
  · obtain ⟨rfl, rfl⟩ := hend
    exact here hl
  · -- A talk elsewhere goes on.
    have hfar : ¬ (b = c ∧ q = r) := by
      rintro ⟨rfl, -⟩
      exact h.apart hc hl.client
    have hlink := hn.not_atLink hl.wire hend hfar
    have hlink' := hn.not_atLink (hn.sound.paired hl.wire) hfar hend
    have ht' := ht ⟨hm.transports ▸ hl.server, hl.client, (hn.alike.wire? hlink).symm.trans hl.wire⟩
    show Talk m.strings s.client.strings st (m.at? a p) (s.client.at? b q) (n.notes a p) (n.notes b q)
    rw [hm.at? hend, hn.alike.notes hlink, hn.alike.notes hlink']
    exact ht'.retable (hm.locked h.side_server)

theorem Talks.deal_client (ht : s.Talks) (h : s.Sound) {c : Address} {r : Peer} (hc : c ∈ s.client.transports)
    (hm : System.Acts s.client m' c r) (hn : Deals s.net n c r)
    (here : ∀ {a p st}, Links { s with client := m', net := n } a p c r st →
      Talk s.server.strings m'.strings st (s.server.at? a p) (m'.at? c r) (n.notes a p) (n.notes c r)) :
    Talks { s with client := m', net := n } := by
  intro a p b q st hl
  by_cases hend : b = c ∧ q = r
  · obtain ⟨rfl, rfl⟩ := hend
    exact here hl
  · have hfar : ¬ (a = c ∧ p = r) := by
      rintro ⟨rfl, -⟩
      exact h.apart hl.server hc
    have hlink := hn.not_atLink hl.wire hfar hend
    have hlink' := hn.not_atLink (hn.sound.paired hl.wire) hend hfar
    have ht' := ht ⟨hl.server, hm.transports ▸ hl.client, (hn.alike.wire? hlink).symm.trans hl.wire⟩
    -- A client that has its connection elsewhere does nothing here.
    obtain ⟨x, hx⟩ := ht'.client_some
    obtain rfl : m' = s.client := (hm.client h.side_client).resolve_right fun ⟨y, hy⟩ =>
      hend (h.client.single h.side_client hx hy)
    show Talk s.server.strings s.client.strings st (s.server.at? a p) (s.client.at? b q) (n.notes a p) (n.notes b q)
    rw [hn.alike.notes hlink, hn.alike.notes hlink']
    exact ht'

/-! ### Packets -/

theorem Talks.sendFrame_server (ht : s.Talks) (h : s.Sound) {bytes : Bytes} (hbytes : (Note.frame bytes).IsMessage)
    (id : ConnectionId) (d : Delivery) : Talks { s with net := (s.server.sendFrame s.net id bytes d).2 } := by
  rcases Manager.sendFrame_cases h.server.sound h.server.nodup s.net id bytes d with heq | ⟨c, x, hat, -, hphase, heq⟩
  · rw [heq]
    exact ht
  · rw [heq]
    obtain ⟨hwire, hnear, hfar⟩ := h.net.send_reaches c x.peer bytes d
    have hc := Manager.mem_transports_of_at? hat
    refine ht.deal_server h hc (.refl h.server.sound c x.peer) (h.net.deals_send c x.peer bytes d) fun {b q st} hl => ?_
    have hw : s.net.wire? c x.peer = some ⟨b, q, st⟩ := hwire _ _ ▸ hl.wire
    have htalk := ht ⟨hc, hl.client, hw⟩
    rw [hat] at htalk
    rw [hat, hnear]
    rcases hfar hw with hsame | hperm
    · rw [hsame]
      exact htalk
    · exact htalk.message_down hphase hbytes hperm

theorem Talks.sendFrame_client (ht : s.Talks) (h : s.Sound) (hown : s.client.strings ≠ StringTable.create)
    (bytes : Bytes) (id : ConnectionId) (d : Delivery) :
    Talks { s with net := (s.client.sendFrame s.net id bytes d).2 } := by
  rcases Manager.sendFrame_cases h.client.sound h.client.nodup s.net id bytes d with heq | ⟨c, x, hat, -, hphase, heq⟩
  · rw [heq]
    exact ht
  · rw [heq]
    obtain ⟨hwire, hnear, hfar⟩ := h.net.send_reaches c x.peer bytes d
    have hc := Manager.mem_transports_of_at? hat
    refine ht.deal_client h hc (.refl h.client.sound c x.peer) (h.net.deals_send c x.peer bytes d) fun {a p st} hl => ?_
    have hw : s.net.wire? a p = some ⟨c, x.peer, st⟩ := hwire _ _ ▸ hl.wire
    have htalk := ht ⟨hl.server, hc, hw⟩
    rw [hnear]
    rcases hfar (h.net.paired hw) with hsame | hperm
    · rw [hsame]
      exact htalk
    · exact htalk.packet_up hown rfl hperm

theorem Sound.sendFrame_server (h : s.Sound) (id : ConnectionId) (bytes : Bytes) (d : Delivery) :
    Sound { s with net := (s.server.sendFrame s.net id bytes d).2 } :=
  h.of_server (h.server.sendFrame id bytes d) (.refl _) (s.server.sendFrame_acted s.net s.net id bytes d)
    fun _ ha => Or.inl ha

theorem Sound.sendFrame_client (h : s.Sound) (id : ConnectionId) (bytes : Bytes) (d : Delivery) :
    Sound { s with net := (s.client.sendFrame s.net id bytes d).2 } :=
  h.of_client h.client (fun hb => (s.client.isBound_sendFrame h.net id bytes d _).trans (h.bound hb))
    (fun hc => Or.inl ⟨_, hc⟩) (s.client.sendFrame_acted s.net s.net id bytes d) fun _ ha => Or.inl ha

theorem Talks.sendAll_server (ht : s.Talks) (h : s.Sound) {bytes : Bytes} (hbytes : (Note.frame bytes).IsMessage)
    (d : Delivery) (ids : List ConnectionId) : Talks { s with net := (s.server.sendAll s.net bytes d ids).2 } := by
  induction ids generalizing s with
  | nil => exact ht
  | cons id ids ih => exact ih (ht.sendFrame_server h hbytes id d) (h.sendFrame_server id bytes d)

theorem Talks.sendAll_client (ht : s.Talks) (h : s.Sound) (hown : s.client.strings ≠ StringTable.create)
    (bytes : Bytes) (d : Delivery) (ids : List ConnectionId) :
    Talks { s with net := (s.client.sendAll s.net bytes d ids).2 } := by
  induction ids generalizing s with
  | nil => exact ht
  | cons id ids ih => exact ih (ht.sendFrame_client h hown bytes id d) (h.sendFrame_client id bytes d) hown

/-! ### Calls -/

theorem Talks.serve (ht : s.Talks) (h : s.Sound) {c : Manager.Call Network Address δ} (hc : c.IsStep)
    (hord : c.IsOrdinary) : (s.serve c).Talks := by
  have hdoes := h.does_server hc
  have hserver := h.server
  show Talks { s with server := (s.serve c).server, net := (s.serve c).net }
  generalize (s.serve c).server = m at hdoes ⊢
  generalize (s.serve c).net = n at hdoes ⊢
  cases hdoes with
  | @handles i a₀ e n₁ place polled =>
    obtain ⟨hn₁, halike, hwire, hnotes⟩ := h.net.poll polled
    have hacts := Manager.acts_handleEvent hserver.sound hserver.nodup place n₁ e
    have hdeals := (Deals.of_poll h.net polled).trans h.net (Manager.handleEvent_deals (e := e) hserver.sound place hn₁)
    have ha₀ := List.mem_of_getElem? place
    refine ht.deal_server h ha₀ hacts hdeals fun {b q st} hl => ?_
    obtain ⟨st₀, hw⟩ := hdeals.leads hl.wire
    have htalk := ht ⟨ha₀, hl.client, hw⟩
    have hfar : n₁.notes b q = s.net.notes b q := halike.notes fun heq => h.net.apart hw heq.1
    rw [hnotes, ← hfar] at htalk
    rcases hserver.sound.talk_server hserver.nodup h.side_server place hn₁ ((hwire _ _).trans hw) rfl htalk with
      hends | ⟨st', hw', htalk'⟩
    · exact (nomatch hends.2.symm.trans hl.wire)
    · obtain ⟨-, -, rfl⟩ := Network.wire_inj hl.wire hw'
      exact htalk'
  | stirs connections pending side transports table own quiet acted =>
    intro a p b q st hl
    have htalk := ht ⟨transports ▸ hl.server, hl.client, (quiet.wire? a p).symm.trans hl.wire⟩
    show Talk m.strings s.client.strings st (m.at? a p) (s.client.at? b q) (n.notes a p) (n.notes b q)
    rw [Manager.at?_congr connections transports, quiet.notes, quiet.notes]
    exact htalk.retable (table h.side_server).locked
  | @sends frame given d ids =>
    obtain ⟨name, i, payload, hname, hfind, rfl⟩ := given.find? hord
    exact ht.sendAll_server h ⟨i, payload, rfl, h.table.find?_ne_bootstrapId hname hfind⟩ d ids
  | @ends id x a live place reason =>
    have hsevers := h.net.severs a x.peer reason
    refine ht.deal_server h (List.mem_of_getElem? place)
      (Manager.acts_teardown hserver.sound hserver.nodup live place reason).1 (.of_severs hsevers) fun hl => ?_
    exact (nomatch hsevers.near.symm.trans hl.wire)
  | opens server idle grown nodup acted =>
    -- No link ends at a transport that was opened just now.
    intro a p b q st hl
    have hw : s.net.wire? a p = some ⟨b, q, st⟩ := grown.wire? a p ▸ hl.wire
    exact (nomatch (grown.free a hl.server).symm.trans (Network.isBound_of_wire? hw))
  | fails server idle cut sound bound acted => exact ht.cut sound cut
  | shuts advances transports strings reason => exact .of_no_server transports

theorem Talks.engage (ht : s.Talks) (h : s.Sound) {c : Manager.Call Network Address ε} (hc : c.IsStep)
    (hord : c.IsOrdinary) : (s.engage c).Talks := by
  have hdoes := h.does_client hc
  have hclient := h.client
  show Talks { s with client := (s.engage c).client, net := (s.engage c).net }
  generalize (s.engage c).client = m at hdoes ⊢
  generalize (s.engage c).net = n at hdoes ⊢
  cases hdoes with
  | @handles i b₀ e n₁ place polled =>
    obtain ⟨hn₁, halike, hwire, hnotes⟩ := h.net.poll polled
    have hacts := Manager.acts_handleEvent hclient.sound hclient.nodup place n₁ e
    have hdeals := (Deals.of_poll h.net polled).trans h.net (Manager.handleEvent_deals (e := e) hclient.sound place hn₁)
    have hb₀ := List.mem_of_getElem? place
    refine ht.deal_client h hb₀ hacts hdeals fun {a p st} hl => ?_
    obtain ⟨st₀, hw⟩ := hdeals.leads (hdeals.sound.paired hl.wire)
    have htalk := ht ⟨hl.server, hb₀, h.net.paired hw⟩
    have hfar : n₁.notes a p = s.net.notes a p := halike.notes fun heq => h.net.apart hw heq.1
    rw [hnotes, ← hfar] at htalk
    obtain ⟨hw', htalk'⟩ := hclient.sound.talk_client hclient.nodup h.side_client place hn₁ ((hwire _ _).trans hw) rfl
      h.table htalk
    obtain ⟨-, -, rfl⟩ := Network.wire_inj (hdeals.sound.paired hl.wire) hw'
    exact htalk'
  | stirs connections pending side transports table own quiet acted =>
    intro a p b q st hl
    have htalk := ht ⟨hl.server, transports ▸ hl.client, (quiet.wire? a p).symm.trans hl.wire⟩
    show Talk s.server.strings m.strings st (s.server.at? a p) (m.at? b q) (n.notes a p) (n.notes b q)
    rw [Manager.at?_congr connections transports, own h.side_client, quiet.notes, quiet.notes]
    exact htalk
  | @sends frame given d ids =>
    obtain ⟨name, i, payload, hname, hfind, rfl⟩ := given.find? hord
    refine ht.sendAll_client h (fun hnew => ?_) _ d ids
    rw [hnew, StringTable.find?_create hname] at hfind
    cases hfind
  | @ends id x b live place reason =>
    have hsevers := h.net.severs b x.peer reason
    refine ht.deal_client h (List.mem_of_getElem? place)
      (Manager.acts_teardown hclient.sound hclient.nodup live place reason).1 (.of_severs hsevers) fun hl => ?_
    exact (nomatch hsevers.near.symm.trans (hsevers.sound.paired hl.wire))
  | opens server idle grown nodup acted => exact (nomatch h.side_client.symm.trans server)
  | fails server idle cut sound bound acted => exact (nomatch h.side_client.symm.trans server)
  | shuts advances transports strings reason => exact .of_no_client transports

/-! ### Dials and others -/

/-- A client that has asked for a link at a new transport, and has closed its others, has that link only. -/
theorem links_asked {n₁ n₂ n' : Network} {c d : Address} {r u : Peer} (hfree : s.net.isBound c = false)
    (hwire : ∀ a p, n₁.wire? a p = s.net.wire? a p) (hn : Asked n₁ n₂ c r d u) (hcut : Cut n₂ n')
    (hw : n'.wire? c q = some ⟨a, p, st⟩) : q = r ∧ a = d ∧ p = u ∧ st = .awaitingApproval := by
  have hw₂ := (hcut.kept hw).1
  by_cases hend : (c = c ∧ q = r) ∨ (c = d ∧ q = u)
  · rcases hend with ⟨-, rfl⟩ | ⟨rfl, -⟩
    · obtain ⟨rfl, rfl, rfl⟩ := Network.wire_inj hw₂ hn.wire
      exact ⟨rfl, rfl, rfl, rfl⟩
    · exact (hn.sound.apart hn.wire rfl).elim
  · -- Any other link would have been there before the transport was.
    rw [hn.alike.wire? hend, hwire] at hw₂
    exact (nomatch hfree.symm.trans (Network.isBound_of_wire? hw₂))

/-- A link that is there after a dial was there before, and nothing has come in at its ends; or the client has just
    asked for it, the server has no connection there, and nothing else is on its way. -/
theorem Links.of_dial {addr : Option Address} {remote : Address} {username : String}
    (hl : (s.dial addr remote username).Links a p b q st) (h : s.Sound) :
    let s' := s.dial addr remote username
    (s.Links a p b q st ∧ s'.client = s.client ∧ s'.net.notes a p = s.net.notes a p ∧
        s'.net.notes b q = s.net.notes b q) ∨
      (st = .awaitingApproval ∧ s.server.at? a p = none ∧ s'.net.notes a p = [.asks] ∧ s'.net.notes b q = [] ∧
        s'.client.strings = StringTable.create ∧ ∃ x, s'.client.at? b q = some x ∧ x.phase = .connecting) := by
  dsimp only
  rcases h.dial_cases addr remote username with heq | ⟨c, n, m, n', heq, hgrown, -, hdials, -⟩
  · rw [heq] at hl ⊢
    exact Or.inl ⟨hl, rfl, rfl, rfl⟩
  · rw [heq] at hl ⊢
    cases hdials with
    | refused quiet =>
      obtain ⟨hcut, hsound, -⟩ := (hgrown.quiet quiet).closeAll
      obtain ⟨hl₀, hnear, hfar⟩ := hl.of_cut hsound hcut
      exact Or.inl ⟨hl₀, rfl, hnear, hfar⟩
    | @asked n₁ n₂ r u idle quiet asked =>
      obtain ⟨hcut, hsound, -⟩ := asked.sound.closeAll s.client.transports
      obtain ⟨-, x, hx, hphase⟩ := h.client.dialing idle c username r remote
      have hwire : ∀ a p, n₁.wire? a p = s.net.wire? a p := fun a p => (quiet.wire? a p).trans (hgrown.wire? a p)
      have hback := hsound.paired hl.wire
      obtain rfl := List.mem_singleton.mp hl.client
      obtain ⟨rfl, rfl, rfl, rfl⟩ := links_asked (hgrown.free b (List.mem_singleton_self b)) hwire asked hcut hback
      have hnear := (hcut.kept hl.wire).2.trans asked.asks
      have hfar := (hcut.kept hback).2.trans asked.idle
      refine Or.inr ⟨rfl, ?_, hnear, hfar, rfl, x, hx, hphase⟩
      -- The server has no connection there yet, for it would have been told that it has lost it.
      cases hat : s.server.at? a p with
      | none => rfl
      | some y =>
        have hdown := h.server.lost hat ((hwire a p).symm.trans asked.fresh.2)
        rw [← hgrown.notes, ← quiet.notes, asked.fresh.1] at hdown
        cases hdown

@[simp] theorem server_dial (s : Duet δ ε) (addr : Option Address) (remote : Address) (username : String) :
    (s.dial addr remote username).server = s.server := by
  rw [Duet.dial]
  split <;> rfl

/-- What a client has registered and what it has been told of is left alone by a dial. -/
theorem Sound.client_dial (h : s.Sound) (addr : Option Address) (remote : Address) (username : String) :
    let s' := s.dial addr remote username
    s'.client.registry = s.client.registry ∧ s'.client.received = s.client.received ∧
      s'.client.events = s.client.events := by
  dsimp only
  rcases h.dial_cases addr remote username with heq | ⟨c, n, m, n', heq, -, -, hdials, -⟩
  · rw [heq]
    exact ⟨rfl, rfl, rfl⟩
  · rw [heq]
    cases hdials with
    | refused quiet => exact ⟨rfl, rfl, rfl⟩
    | asked idle quiet asked => exact ⟨rfl, rfl, rfl⟩

theorem Talks.dial (ht : s.Talks) (h : s.Sound) (addr : Option Address) (remote : Address) (username : String) :
    (s.dial addr remote username).Talks := by
  intro a p b q st hl
  rcases hl.of_dial h with ⟨hl₀, hclient, hnear, hfar⟩ | ⟨rfl, hnone, hnear, hfar, hown, x, hx, hphase⟩
  · rw [server_dial, hclient, hnear, hfar]
    exact ht hl₀
  · rw [server_dial, hnone, hx, hnear, hfar]
    exact .asked hphase hown

/-- A link across which others may have done something was there before, and nothing has come in at its ends. -/
theorem Links.of_disturb {x : Act} (hl : (s.disturb x).Links a p b q st) (h : s.Sound) : s.Links a p b q st ∧
    (s.disturb x).net.notes a p = s.net.notes a p ∧ (s.disturb x).net.notes b q = s.net.notes b q := by
  rcases s.disturb_cases x with heq | ⟨heq, hx⟩
  · rw [heq] at hl ⊢
    exact ⟨hl, rfl, rfl⟩
  · rw [heq] at hl ⊢
    have hspares := h.net.spares x hx
    rcases hspares.leads (Or.inl hl.server) hl.wire with ⟨st', hw⟩ | ⟨hb, -⟩
    · obtain ⟨hw', hnear⟩ := hspares.kept (Or.inl hl.server) (Or.inr hl.client) hw
      obtain ⟨-, hfar⟩ := hspares.kept (Or.inr hl.client) (Or.inl hl.server) (h.net.paired hw)
      obtain ⟨-, -, rfl⟩ := Network.wire_inj hl.wire hw'
      exact ⟨⟨hl.server, hl.client, hw⟩, hnear, hfar⟩
    · exact absurd (Or.inr hl.client) hb

@[simp] theorem server_disturb (s : Duet δ ε) (x : Act) : (s.disturb x).server = s.server := by
  unfold disturb
  split <;> rfl

@[simp] theorem client_disturb (s : Duet δ ε) (x : Act) : (s.disturb x).client = s.client := by
  unfold disturb
  split <;> rfl

theorem Talks.disturb (ht : s.Talks) (h : s.Sound) (x : Act) : (s.disturb x).Talks := by
  intro a p b q st hl
  obtain ⟨hl₀, hnear, hfar⟩ := hl.of_disturb h
  rw [server_disturb, client_disturb, hnear, hfar]
  exact ht hl₀

theorem keeps_talks : Keeps Manager.Call.IsOrdinary (Talks : Duet δ ε → Prop) where
  serve h hc hord ht := ht.serve h hc hord
  engage h hc hord ht := ht.engage h hc hord
  dial addr remote username h ht := ht.dial h addr remote username
  disturb x h ht := ht.disturb h x

end Duet
end StateSync
