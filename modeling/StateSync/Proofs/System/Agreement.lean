import StateSync.Proofs.System.Calls

/-! What the parties of a system agree on when nothing is on its way: the connections of the server and those of the
    clients belong together in pairs, and the handshake of each pair is over (`run_agreement`). -/

namespace StateSync

variable {κ δ : Type}

namespace System

/-- A connection of a client and one of the server stand at the two ends of one connected link. -/
def Linked (s : System κ δ) (k : κ) (c c' : Connection) : Prop :=
  ∃ a b l, (s.manager (.client k)).transportOf? c = some a ∧ (s.manager .server).transportOf? c' = some b ∧
    s.net.link? a c.peer = some l ∧ l.remote = b ∧ l.remotePeer = c'.peer ∧ l.state = .connected

variable {s : System κ δ} {k k' : κ} {c c' d d' : Connection} {id id' : ConnectionId} {a b : Address} {p q : Peer}
  {st : LinkState}

/-- What holds of the two connections of a link when the handshake is over. -/
structure Agreed (s : System κ δ) (k : κ) (c c' : Connection) : Prop where
  client : c.phase = .connected
  server : c'.phase = .connected
  session : c.session = c'.session
  names : (s.manager (.client k)).strings.names = (s.manager .server).strings.names

/-- A link across which nothing is on its way stands between two connections that agree. -/
theorem Joins.agreed (hj : s.Joins a p b q st) (hidle : s.net.IsIdle) : ∃ k c c',
    (s.manager .server).at? a p = some c' ∧ (s.manager (.client k)).at? b q = some c ∧ st = .connected ∧
      s.Agreed k c c' := by
  obtain ⟨k, -, -, ht⟩ := hj
  rw [hidle.notes, hidle.notes] at ht
  obtain ⟨c', c, hc', hc, hst, hserver, hclient, hsession, hnames⟩ := ht.agreed
  exact ⟨k, c, c', hc', hc, hst, hclient, hserver, hsession.symm, hnames⟩

theorem Sound.wire_of_live (h : s.Sound) (hidle : s.net.IsIdle) {x : Party κ}
    (hget : (s.manager x).connections.get? id = some c) : ∃ a b q st, (s.manager x).transportOf? c = some a ∧
      (s.manager x).at? a c.peer = some c ∧ s.net.wire? a c.peer = some ⟨b, q, st⟩ := by
  have hm := (h.fits x).sound
  obtain ⟨a, ha⟩ : ∃ a, (s.manager x).transportOf? c = some a := ⟨_, List.getElem?_eq_getElem ((hm id).carried hget)⟩
  have hat := hm.at?_of_get? (h.fits x).nodup hget ha
  cases hw : s.net.wire? a c.peer with
  | some w => exact ⟨a, w.remote, w.remotePeer, w.state, ha, hat, hw⟩
  | none =>
    have hdown := h.lost hat hw
    rw [hidle.notes] at hdown
    cases hdown

theorem Sound.live_of_at? (h : s.Sound) {x : Party κ} (hat : (s.manager x).at? a p = some c) :
    (s.manager x).connections.get? c.id = some c ∧ (s.manager x).transportOf? c = some a ∧ c.peer = p := by
  obtain ⟨id, hget, ha, hp⟩ := ((h.fits x).sound.at?_eq_some_iff (h.fits x).nodup).mp hat
  obtain rfl := ((h.fits x).sound id).own hget
  exact ⟨hget, ha, hp⟩

theorem linked_of_wire (ha : (s.manager .server).transportOf? c' = some a ∧ c'.peer = p)
    (hb : (s.manager (.client k)).transportOf? c = some b ∧ c.peer = q)
    (hw : s.net.wire? b q = some ⟨a, p, .connected⟩) : s.Linked k c c' := by
  obtain ⟨l, hl, hwire⟩ := Network.link?_of_wire? hw
  obtain ⟨hremote, hpeer, hst⟩ := Wire.mk.inj hwire
  obtain ⟨hb, rfl⟩ := hb
  obtain ⟨ha, rfl⟩ := ha
  exact ⟨b, a, l, hb, ha, hl, hremote, hpeer, hst⟩

theorem Linked.wire (h : s.Linked k c c') : ∃ a b, (s.manager .server).transportOf? c' = some a ∧
    (s.manager (.client k)).transportOf? c = some b ∧ s.net.wire? b c.peer = some ⟨a, c'.peer, .connected⟩ := by
  obtain ⟨b, a, l, hb, ha, hl, rfl, hpeer, hst⟩ := h
  refine ⟨l.remote, b, ha, hb, ?_⟩
  rw [Network.wire?_of_link? hl, Link.wire, hpeer, hst]

/-- A client's connection has one of the server at the most. -/
theorem Sound.linked_server (h : s.Sound) (hlinked : s.Linked k c c') (hlinked' : s.Linked k c d')
    (hc' : (s.manager .server).connections.get? id = some c')
    (hd' : (s.manager .server).connections.get? id' = some d') : id = id' := by
  have hm := (h.fits .server).sound
  have hnodup := (h.fits .server).nodup
  obtain ⟨a, b, ha, hb, hw⟩ := hlinked.wire
  obtain ⟨a', b', ha', hb', hw'⟩ := hlinked'.wire
  obtain rfl := Option.some.inj (hb.symm.trans hb')
  obtain ⟨rfl, hpeer, -⟩ := Network.wire_inj hw hw'
  have hat := hm.at?_of_get? hnodup hc' ha
  have hat' := hm.at?_of_get? hnodup hd' ha'
  rw [← hpeer, hat] at hat'
  obtain rfl := Option.some.inj hat'
  exact ((hm id).own hc').symm.trans ((hm id').own hd')

/-- A connection of the server has one of a client at the most. -/
theorem Sound.linked_client (h : s.Sound) (hlinked : s.Linked k c c') (hlinked' : s.Linked k' d c')
    (hc : (s.manager (.client k)).connections.get? id = some c)
    (hd : (s.manager (.client k')).connections.get? id' = some d) : k = k' ∧ id = id' := by
  obtain ⟨a, b, ha, hb, hw⟩ := hlinked.wire
  obtain ⟨a', b', ha', hb', hw'⟩ := hlinked'.wire
  obtain rfl := Option.some.inj (ha.symm.trans ha')
  have hback := h.net.paired hw
  obtain ⟨rfl, hpeer, -⟩ := Network.wire_inj hback (h.net.paired hw')
  obtain rfl := Party.client.inj (h.apart (List.mem_of_getElem? hb) (List.mem_of_getElem? hb'))
  have hm := (h.fits (.client k)).sound
  have hat := hm.at?_of_get? (h.fits _).nodup hc hb
  have hat' := hm.at?_of_get? (h.fits _).nodup hd hb'
  rw [← hpeer, hat] at hat'
  obtain rfl := Option.some.inj hat'
  exact ⟨rfl, ((hm id).own hc).symm.trans ((hm id').own hd)⟩

/-- Two connections that are the ends of one link agree when nothing is on its way. -/
theorem Sound.agreed_of_linked (h : s.Sound) (hidle : s.net.IsIdle) (hlinked : s.Linked k c c')
    (hc : (s.manager (.client k)).connections.get? id = some c)
    (hc' : (s.manager .server).connections.get? id' = some c') : s.Agreed k c c' := by
  obtain ⟨a, b, ha, hb, hw⟩ := hlinked.wire
  have hmem := List.mem_of_getElem? hb
  obtain ⟨-, ht⟩ := h.joins_client hmem hw
  rw [hidle.notes, hidle.notes, (h.fits _).sound.at?_of_get? (h.fits _).nodup hc' ha,
    (h.fits _).sound.at?_of_get? (h.fits _).nodup hc hb] at ht
  obtain ⟨x', x, hx', hx, -, hserver, hclient, hsession, hnames⟩ := ht.agreed
  obtain rfl := Option.some.inj hx'
  obtain rfl := Option.some.inj hx
  exact ⟨hclient, hserver, hsession.symm, hnames⟩

/-- A connection that has come through the handshake has its channel under its session name. -/
theorem Sound.channel (h : s.Sound) {x : Party κ} (hget : (s.manager x).connections.get? id = some c)
    (hphase : c.phase = .connected) : ∃ ch, c.channel = some ch ∧ c.session = some ch.sessionName := by
  have hin := ((h.fits x).sound id).phase hget
  simp only [Connection.InPhase, hphase] at hin
  obtain ⟨-, name, hname, hch⟩ := hin
  exact ⟨_, hch, hname⟩

variable [DecidableEq κ]

/-- Whatever the parties of a system have done, in any order: when nothing is on its way to anybody, the live
    connections of the clients and those of the server are in one-to-one correspondence through the links of the
    network; both ends of each are connected, under one session name, and the client has the server's name table. -/
theorem run_agreement (settings : Party κ → Settings) (luck : Nat → Luck) (moves : List (Move κ δ))
    (hidle : ((create settings luck).run moves).net.IsIdle) :
    let s := (create settings luck).run moves
    (∀ k id c, (s.manager (.client k)).connections.get? id = some c →
      ∃! id', ∃ c', (s.manager .server).connections.get? id' = some c' ∧ s.Linked k c c') ∧
    (∀ id' c', (s.manager .server).connections.get? id' = some c' →
      ∃! x : κ × ConnectionId, ∃ c, (s.manager (.client x.1)).connections.get? x.2 = some c ∧ s.Linked x.1 c c') ∧
    ∀ k id c id' c', (s.manager (.client k)).connections.get? id = some c →
      (s.manager .server).connections.get? id' = some c' → s.Linked k c c' →
      c.phase = .connected ∧ c'.phase = .connected ∧
      (∃ ch ch', c.channel = some ch ∧ c'.channel = some ch' ∧ ch.sessionName = ch'.sessionName) ∧
      (s.manager (.client k)).strings.entries = (s.manager .server).strings.entries := by
  have h : ((create settings luck : System κ δ).run moves).Sound := (sound_create settings luck).run moves
  revert h hidle
  generalize (create settings luck : System κ δ).run moves = s
  intro hidle h
  refine ⟨fun k id c hc => ?_, fun id' c' hc' => ?_, fun k id c id' c' hc hc' hlinked => ?_⟩
  · obtain ⟨b, a, p, st, hb, hat, hw⟩ := h.wire_of_live hidle hc
    obtain ⟨ha, ht⟩ := h.joins_client (List.mem_of_getElem? hb) hw
    rw [hidle.notes, hidle.notes] at ht
    obtain ⟨c', x, hc', -, rfl, -⟩ := ht.agreed
    obtain ⟨hget, hplace⟩ := h.live_of_at? hc'
    have hlinked := linked_of_wire hplace ⟨hb, rfl⟩ hw
    refine ⟨c'.id, ⟨c', hget, hlinked⟩, ?_⟩
    rintro id'' ⟨d', hd', hlinked'⟩
    exact h.linked_server hlinked' hlinked hd' hget
  · obtain ⟨a, b, q, st, ha, hat, hw⟩ := h.wire_of_live hidle hc'
    obtain ⟨k, c, x, -, hc, rfl, -⟩ := (h.joins_server (List.mem_of_getElem? ha) hw).agreed hidle
    obtain ⟨hget, hplace⟩ := h.live_of_at? hc
    have hlinked := linked_of_wire ⟨ha, rfl⟩ hplace (h.net.paired hw)
    refine ⟨(k, c.id), ⟨c, hget, hlinked⟩, ?_⟩
    rintro ⟨k', id''⟩ ⟨d, hd, hlinked'⟩
    obtain ⟨hk, hid⟩ := h.linked_client hlinked' hlinked hd hget
    exact Prod.ext hk hid
  · have hagreed := h.agreed_of_linked hidle hlinked hc hc'
    obtain ⟨ch, hch, hname⟩ := h.channel hc hagreed.client
    obtain ⟨ch', hch', hname'⟩ := h.channel hc' hagreed.server
    refine ⟨hagreed.client, hagreed.server, ⟨ch, ch', hch, hch', ?_⟩, ?_⟩
    · exact Option.some.inj (hname.symm.trans (hagreed.session.trans hname'))
    · rw [StringTable.entries, hagreed.names, StringTable.entries]

/-- A client comes to a server that has one message, and both take their events until there are no more. -/
def greeting : List (Move Unit Unit) :=
  [.call .server (.register MessageType.ping none) trivial,
    .call .server .start trivial,
    .connect () none ⟨.v4 0 0 0 0, Settings.defaultPort⟩ "ann",
    .call .server .process trivial,
    .call (.client ()) .process trivial,
    .call .server .process trivial,
    .call (.client ()) .process trivial,
    .call .server .process trivial,
    .call (.client ()) .process trivial]

theorem run_agreement_greeting :
    let s := (create (fun _ => Settings.initial) fun _ => ⟨0, 0, 0⟩).run greeting
    s.net.IsIdle ∧ ∃ id c c', (s.manager (.client ())).connections.get? id = some c ∧
      (s.manager .server).connections.get? ⟨0⟩ = some c' ∧ s.Linked () c c' ∧ c.phase = .connected ∧
      c'.phase = .connected := by
  intro s
  have hidle : s.net.IsIdle := by decide +kernel
  have hlive : ((s.manager .server).connections.get? ⟨0⟩).isSome := by decide +kernel
  obtain ⟨-, hpaired, hagreed⟩ := run_agreement (fun _ => Settings.initial) (fun _ => ⟨0, 0, 0⟩) greeting hidle
  obtain ⟨c', hc'⟩ := Option.isSome_iff_exists.mp hlive
  obtain ⟨⟨k, id⟩, ⟨c, hc, hlinked⟩, -⟩ := hpaired ⟨0⟩ c' hc'
  obtain ⟨hphase, hphase', -⟩ := hagreed k id c ⟨0⟩ c' hc hc' hlinked
  exact ⟨hidle, id, c, c', hc, hc', hlinked, hphase, hphase'⟩

end System
end StateSync
