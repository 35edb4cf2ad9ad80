import StateSync.Proofs.Manager.Frames
import StateSync.Proofs.System.Dialogue

/-! A server and a client that has the server's name table, on a network on which anybody else does what they like. The
    table stays the same at both for as long as the client's connection lasts, so each reads the frames of the other as
    they were meant (`frames_understood`). -/

namespace StateSync
open Network (Act Acted)

/-! ### Kinds -/

namespace Manager
variable {μ ι δ : Type} [Medium μ ι] {m m' : Manager ι δ} {name : String} {k : Registration δ}

theorem register_kinds {α : Type} {t : MessageType α} {receive : Option (α → δ)} (h : m.register t receive = .ok m')
    (hk : m.registry.kinds.get? name = some k) : m'.registry.kinds.get? name = some k := by
  obtain ⟨hnew, hkinds⟩ := kinds_register h
  have hne : t.name ≠ name := by
    rintro rfl
    exact nomatch hnew.symm.trans hk
  rw [hkinds, Assoc.get?_insert, if_neg hne]
  exact hk

/-- A kind that is registered stays as it is. -/
theorem perform_kinds (hm : m.Sound) (w : μ) (c : Call μ ι δ) (hk : m.registry.kinds.get? name = some k) :
    (perform (m, w) c).1.registry.kinds.get? name = some k := by
  rcases registry_perform hm w c with hsame | ⟨α, t, receive, -, hr⟩
  · rw [hsame]
    exact hk
  · exact register_kinds hr hk

end Manager

namespace Duet
variable {δ ε : Type} {s : Duet δ ε} {a b : Address} {p q : Peer} {st : LinkState} {n : Network} {m : Manager Address ε}
  {A : Act → Prop} {W : Bytes → Prop}

/-! ### What a client hears -/

/-- The client has the server's name table, which does not change any more. -/
def Shares (s : Duet δ ε) : Prop := s.server.strings.locked = true ∧ s.client.strings = s.server.strings

/-- All that comes in at an end of the client's comes from the server, and each name table on its way there is the one
    that the server has locked. -/
structure Hears (s : Duet δ ε) (b : Address) (q : Peer) : Prop where
  known : q.val < s.net.nextPeer
  leads : ∀ {a p st}, s.net.wire? b q = some ⟨a, p, st⟩ → a ∈ s.server.transports
  tables : ∀ {payload}, .frame (Frame.encode StringTable.bootstrapId payload) ∈ s.net.notes b q →
    s.server.strings.locked = true ∧ MessageType.stringTable.encode s.server.strings.entries = .ok payload

namespace Hears

/-- What is done elsewhere than at the server's transports puts nothing on its way to the client. -/
theorem acted (h : s.Hears b q) (hn : s.net.Sound) (hacted : Acted A s.net n)
    (hA : ∀ x, A x → x.Elsewhere (· ∈ s.server.transports)) : Hears { s with client := m, net := n } b q where
  known := Nat.lt_of_lt_of_le h.known hacted.continues.nextPeer
  leads hw := by
    obtain ⟨st', hw'⟩ := hacted.continues.leads hw h.known
    exact h.leads hw'
  tables {payload} hmem := by
    rcases hacted.frame hn h.known hmem with hmem | ⟨a, p, st, d, hsend, hw⟩
    · exact h.tables hmem
    · exact absurd (h.leads (hn.paired hw)) (hA _ hsend a rfl)

theorem serve (hh : s.Hears b q) (h : s.Sound) {c : Manager.Call Network Address δ} (hc : c.IsStep)
    (hord : c.IsOrdinary) : (s.serve c).Hears b q := by
  have hdoes := h.does_server hc
  have hacted := hdoes.acted h.server.sound
  have hgrows := hdoes.grows h.server.sound h.side_server
  refine ⟨Nat.lt_of_lt_of_le hh.known hacted.continues.nextPeer, fun {a p st} hw => ?_, fun {payload} hmem => ?_⟩
  · obtain ⟨st', hw'⟩ := hacted.continues.leads hw hh.known
    refine hdoes.remains h.server.sound h.net (hh.leads hw') ?_
    exact Network.isBound_of_wire? ((h.serve hc).net.paired hw)
  · rcases hacted.frame h.net hh.known hmem with hmem | ⟨a, p, st, d, hsend, -⟩
    · obtain ⟨hlocked, hencode⟩ := hh.tables hmem
      rw [hgrows.locked hlocked]
      exact ⟨hlocked, hencode⟩
    · rcases (hsend.words rfl).2 with hgiven | hutters
      · -- An application gives no frame that stands in the place of the table.
        obtain ⟨name, i, payload', hname, hfind, hframe⟩ := hgiven.find? hord
        obtain ⟨rfl, -⟩ := List.cons.inj hframe
        exact absurd rfl (h.table.find?_ne_bootstrapId hname hfind)
      · generalize hbytes : Frame.encode StringTable.bootstrapId payload = bytes at hutters
        cases hutters with
        | sessionName server valid taken =>
          obtain ⟨x, xs, htext, hx⟩ := SessionName.toUTF8_resolve valid taken
          obtain ⟨rfl, -⟩ := List.cons.inj (hbytes.trans htext)
          exact absurd hx (by decide)
        | table server encoded locked =>
          obtain ⟨-, rfl⟩ := List.cons.inj hbytes
          rw [show (s.serve c).server.strings = _ from locked]
          exact ⟨rfl, encoded⟩
        | username client => exact (nomatch client.symm.trans h.side_server)
        | ack client => exact (nomatch client.symm.trans h.side_server)

theorem engage (hh : s.Hears b q) (h : s.Sound) {c : Manager.Call Network Address ε} (hc : c.IsStep) :
    (s.engage c).Hears b q :=
  hh.acted h.net ((h.does_client hc).acted h.client.sound) fun _ => h.elsewhere_client

theorem dial (hh : s.Hears b q) (h : s.Sound) (addr : Option Address) (remote : Address) (username : String) :
    (s.dial addr remote username).Hears b q := by
  rcases h.dial_cases addr remote username with heq | ⟨b', n, m, n', heq, -, -, -, hacted⟩
  · rw [heq]
    exact hh
  · rw [heq]
    exact hh.acted h.net (hacted fun _ => False) fun _ => h.elsewhere_client

theorem disturb (hh : s.Hears b q) (h : s.Sound) (x : Act) : (s.disturb x).Hears b q := by
  rcases s.disturb_cases x with heq | ⟨heq, hx⟩
  · rw [heq]
    exact hh
  · rw [heq]
    refine hh.acted h.net (.one (A := (· = x)) rfl) ?_
    rintro y rfl a ha hmem
    exact hx a ha (Or.inl hmem)

/-! ### What a client learns -/

/-- While a client has its connection there, its name table changes to that of the server only. -/
theorem strings (hh : s.Hears b q) (h : s.Sound) {c : Manager.Call Network Address ε} (hc : c.IsStep)
    {c₀ : Connection} (hseat : s.client.at? b q = some c₀) :
    (s.engage c).client.strings = s.client.strings ∨ (s.engage c).Shares := by
  rcases (h.does_client hc).strings h.side_client with hsame | ⟨i, a, e, n₁, hi, hpoll, heq⟩
  · exact Or.inl hsame
  · have hm := h.client.sound
    have hdelivers := Manager.handleEvent_delivers hm n₁ i a e
    rw [← heq] at hdelivers
    generalize (s.client.handleEvent n₁ i a e).2 = n₂ at hdelivers
    generalize hm' : (s.engage c).client = m' at hdelivers ⊢
    cases hdelivers with
    | locks server leaves => exact (nomatch server.symm.trans h.side_client)
    | leaves leaves => exact Or.inl leaves.strings
    | @frame p bs id ch event found channel =>
      subst event
      -- The event is about the client's only connection.
      obtain ⟨c₁, hc₁, -⟩ := hm.at?_of_find? h.client.nodup hi found
      obtain ⟨rfl, rfl⟩ := h.client.single h.side_client hseat hc₁
      have hmem : .frame bs ∈ s.net.notes b q := by
        show _ ∈ s.net.notes b (TransportEvent.data q bs).peer
        rw [(h.net.poll hpoll).2.2.2]
        exact List.mem_cons_self
      cases bs with
      | nil => exact Or.inl rfl
      | cons x payload =>
        by_cases hx : x = StringTable.bootstrapId
        · subst hx
          obtain ⟨hlocked, hencode⟩ := hh.tables hmem
          refine Or.inr ⟨hlocked, ?_⟩
          rw [hm']
          exact (Manager.strings_receiveFrame_table h.side_client h.table hencode ch).trans
            (StringTable.lock_of_locked hlocked)
        · exact Or.inl (Manager.strings_receiveFrame hx)

end Hears

theorem Shares.serve (hs : s.Shares) (h : s.Sound) {c : Manager.Call Network Address δ} (hc : c.IsStep) :
    (s.serve c).Shares := by
  have htable : (s.serve c).server.strings = s.server.strings :=
    ((h.does_server hc).grows h.server.sound h.side_server).locked hs.1
  rw [Shares, htable]
  exact hs

/-- Where a client has a connection that leads to the server, it hears nobody else, and it has the server's name table
    or none yet. -/
def Schooled (s : Duet δ ε) : Prop := ∀ {b q c a p st}, s.client.at? b q = some c → s.net.wire? b q = some ⟨a, p, st⟩ →
  a ∈ s.server.transports → s.Hears b q ∧ (s.client.strings = StringTable.create ∨ s.Shares)

theorem schooled_create (settings settings' : Settings) (luck : Nat → Luck) :
    (create settings settings' luck : Duet δ ε).Schooled := fun hc =>
  nomatch (Manager.at?_of_no_transports rfl _ _).symm.trans hc

theorem Schooled.dial (hs : s.Schooled) (h : s.Sound) (addr : Option Address) (remote : Address) (username : String) :
    (s.dial addr remote username).Schooled := by
  intro b q c a p st hseat hw ha
  have hknown := (h.dial addr remote username).known hseat
  rcases h.dial_cases addr remote username with heq | ⟨b', n, m, n', heq, -, -, hdials, hacted⟩
  · rw [heq] at hseat hw ha ⊢
    exact hs hseat hw ha
  · rw [heq] at hseat hw ha hknown ⊢
    cases hdials with
    | refused quiet =>
      obtain ⟨st', hw'⟩ := (hacted fun _ => False).continues.leads hw (h.known hseat)
      obtain ⟨hears, hown⟩ := hs hseat hw' ha
      exact ⟨hears.acted h.net (hacted fun _ => False) fun _ => h.elsewhere_client, hown⟩
    | @asked n₁ n₂ p' q' idle quiet asked =>
      -- The only connection is the one that has been asked for, and nothing is on its way there.
      obtain ⟨hfits, c₀, hc₀, -⟩ := h.client.dialing idle b' username p' remote
      obtain ⟨rfl, rfl⟩ := hfits.single h.side_client hseat hc₀
      obtain ⟨hcut, -⟩ := asked.sound.closeAll s.client.transports
      refine ⟨⟨hknown, fun hw' => ?_, fun {payload} hmem => ?_⟩, Or.inl rfl⟩
      · obtain ⟨rfl, -, -⟩ := Network.wire_inj hw hw'
        exact ha
      · rw [show Network.notes _ b q = _ from (hcut.kept hw).2, asked.idle] at hmem
        cases hmem

theorem keeps_schooled : Keeps (fun _ => True) (Schooled : Duet δ ε → Prop) where
  serve {s c} h hc hord hs {b q c' a p st} hseat hw ha := by
    have hdoes := h.does_server hc
    obtain ⟨st', hw'⟩ := (hdoes.acted h.server.sound).continues.leads hw (h.known hseat)
    have ha' : a ∈ s.server.transports := (hdoes.commands h.server.sound a ha).resolve_right fun hfree =>
      nomatch hfree.symm.trans (Network.isBound_of_wire? (h.net.paired hw'))
    obtain ⟨hears, hown⟩ := hs hseat hw' ha'
    exact ⟨hears.serve h hc hord, hown.imp id fun hshares => hshares.serve h hc⟩
  engage {s c} h hc _ hs {b q c' a p st} hseat hw ha := by
    have hdoes := h.does_client hc
    obtain ⟨c₀, hc₀⟩ := hdoes.seat h.client hseat
    obtain ⟨st', hw'⟩ := (hdoes.acted h.client.sound).continues.leads hw (h.known hc₀)
    obtain ⟨hears, hown⟩ := hs hc₀ hw' ha
    refine ⟨hears.engage h hc, ?_⟩
    rcases hears.strings h hc hc₀ with hsame | hshares
    · rw [Shares, hsame]
      exact hown
    · exact Or.inr hshares
  dial addr remote username h hs := hs.dial h addr remote username
  disturb {s} x h hs := by
    rcases s.disturb_cases x with heq | ⟨heq, -⟩
    · rw [heq]
      exact hs
    · intro b q c a p st hseat hw ha
      have hears := fun (hh : s.Hears b q) => hh.disturb h x
      rw [heq] at hseat hw ha hears ⊢
      obtain ⟨st', hw'⟩ := (Network.continues_act s.net x).leads hw (h.known hseat)
      exact (hs hseat hw' ha).imp_left hears

/-! ### What lasts -/

/-- While a client has its connection there, it has the name table `table`, and so has the server. -/
structure Attuned (table : StringTable) (b : Address) (q : Peer) (s : Duet δ ε) : Prop where
  hears : s.Hears b q
  server : s.server.strings = table
  client : ∀ {c}, s.client.at? b q = some c → s.client.strings = table

theorem keeps_attuned {table : StringTable} (hlocked : table.locked = true) (b : Address) (q : Peer) :
    Keeps (fun _ => True) (Attuned table b q : Duet δ ε → Prop) where
  serve {s c} h hc hord hs := by
    have hgrows := (h.does_server hc).grows h.server.sound h.side_server
    exact ⟨hs.hears.serve h hc hord, (hgrows.locked (hs.server ▸ hlocked)).trans hs.server, hs.client⟩
  engage {s c} h hc _ hs := by
    refine ⟨hs.hears.engage h hc, hs.server, fun {c'} hseat => ?_⟩
    obtain ⟨c₀, hc₀⟩ := (h.does_client hc).seat h.client hseat
    rcases hs.hears.strings h hc hc₀ with hsame | hshares
    · rw [hsame]
      exact hs.client hc₀
    · exact hshares.2.trans hs.server
  dial {s} addr remote username h hs := by
    have hears := hs.hears.dial h addr remote username
    rcases h.dial_cases addr remote username with heq | ⟨b', n, m, n', heq, -, hpeers, hdials, -⟩
    · rw [heq]
      exact hs
    · rw [heq] at hears ⊢
      refine ⟨hears, hs.server, fun {c} hseat => ?_⟩
      cases hdials with
      | refused quiet => exact hs.client hseat
      | @asked n₁ n₂ p' q' idle quiet asked =>
        -- Whoever was known before is not at the other end of what has been asked for.
        obtain ⟨hfits, c₀, hc₀, -⟩ := h.client.dialing idle b' username p' remote
        obtain ⟨-, rfl⟩ := hfits.single h.side_client hseat hc₀
        have hnew := Nat.le_trans hpeers (quiet.nextPeer ▸ asked.new)
        exact absurd hs.hears.known (Nat.not_lt.mpr hnew)
  disturb {s} x h hs := by
    have hears := hs.hears.disturb h x
    rcases s.disturb_cases x with heq | ⟨heq, -⟩
    · rw [heq]
      exact hs
    · rw [heq] at hears ⊢
      exact ⟨hears, hs.server, hs.client⟩

/-! ### Frames are understood -/

theorem keeps_kinds {name : String} {k : Registration δ} {k' : Registration ε} :
    Keeps (fun _ => True) fun s : Duet δ ε =>
      s.server.registry.kinds.get? name = some k ∧ s.client.registry.kinds.get? name = some k' where
  serve h _ _ hk := ⟨Manager.perform_kinds h.server.sound _ _ hk.1, hk.2⟩
  engage h _ _ hk := ⟨hk.1, Manager.perform_kinds h.client.sound _ _ hk.2⟩
  dial {s} addr remote username h hk := by
    rcases h.dial_cases addr remote username with heq | ⟨b, n, m, n', heq, -, -, hdials, -⟩
    · rw [heq]
      exact hk
    · rw [heq]
      cases hdials <;> exact hk
  disturb {s} x h hk := by
    rcases s.disturb_cases x with heq | ⟨heq, -⟩
    · rw [heq]
      exact hk
    · rw [heq]
      exact hk

/-- From the start, neither side has a handler for the name table. -/
theorem kinds_create (settings settings' : Settings) (luck : Nat → Luck) :
    let s : Duet δ ε := create settings settings' luck
    s.server.registry.kinds.get? StringTable.bootstrapName = some ⟨.string, none⟩ ∧
      s.client.registry.kinds.get? StringTable.bootstrapName = some ⟨.string, none⟩ := ⟨rfl, rfl⟩

/-- The ends of a link at both of which the handshake is over. -/
structure Joined (s : Duet δ ε) (a : Address) (p : Peer) (b : Address) (q : Peer) : Prop where
  server : ∃ c, s.server.at? a p = some c ∧ c.phase = .connected
  client : ∃ c, s.client.at? b q = some c ∧ c.phase = .connected
  wire : s.net.wire? a p = some ⟨b, q, .connected⟩

/-- When nothing is on its way, the handshake is over across every link. If the server has given names to messages, the
    client has its table. -/
theorem Links.joined (hl : s.Links a p b q st) (h : s.Sound) (ht : s.Talks) (hs : s.Schooled) (hidle : s.net.IsIdle)
    (hnames : s.server.strings.names ≠ StringTable.create.names) :
    s.Joined a p b q ∧ s.client.strings.locked = true := by
  have htalk := ht hl
  rw [hidle.notes, hidle.notes] at htalk
  obtain ⟨c, c', hc, hc', rfl, hphase, hphase', -, hsame⟩ := htalk.agreed
  refine ⟨⟨⟨c, hc, hphase⟩, ⟨c', hc', hphase'⟩, hl.wire⟩, ?_⟩
  rcases (hs hc' (h.net.paired hl.wire) hl.server).2 with hnew | ⟨hlocked, hown⟩
  · exact absurd (hnew ▸ hsame).symm hnames
  · rw [hown]
    exact hlocked

end Duet

/-- When the frame comes on a channel of the peer, the application is handed the message on that channel, once, if it
    has a handler for the kind, and nothing else. -/
def Manager.Takes {α δ : Type} (m : Manager Address δ) (a : Address) (p : Peer) (t : MessageType α) (x : α)
    (frame : Bytes) : Prop :=
  ∀ {n : Network} {i id ch receive}, m.transports[i]? = some a → m.connections.find? i p = some id →
    m.channel? id = some ch → m.registry.Knows t receive →
      (m.handleEvent n i a (.data p frame)).1.received = m.received ++ (receive.map fun f => (ch, f x)).toList

theorem Manager.takes_of_read? {α δ : Type} {m : Manager Address δ} (hm : m.Sound) {a : Address} {p : Peer}
    {t : MessageType α} {x : α} {frame : Bytes} (hread : ∀ {i id receive}, m.transports[i]? = some a →
      m.connections.find? i p = some id → m.registry.Knows t receive →
        m.registry.read? m.strings frame = receive.map (· x)) : m.Takes a p t x frame := by
  intro n i id ch receive hi hf hch hknows
  rw [handleEvent, handleData_of_channel? hm hf hch, received_receiveFrame, hread hi hf hknows, Option.map_map]
  rfl

namespace Duet
variable {δ ε : Type}

/-- A server and a client have a connection that is over its handshake at both ends, and the client has a name table.
    Then what either of them makes of a message now, of a kind that is in the server's table, is understood by the other
    for as long as the connection lasts there, whatever the two and others do in the meantime. -/
theorem frames_understood (settings settings' : Settings) (luck : Nat → Luck) (moves later : List (Move δ ε)) {α : Type}
    (t : MessageType α) (x : α) (payload : Bytes) (a b : Address) (p q : Peer) (codec : t.RoundTrips) :
    let s := (create settings settings' luck).run moves
    s.Joined a p b q → s.client.strings.locked = true → t.name ∈ s.server.strings.names → t.encode x = .ok payload →
      (s.server.registry.isRegistered t.name = true →
        ∃ frame, s.server.build t x = .ok frame ∧ (s.run later).client.Takes b q t x frame) ∧
      (s.client.registry.isRegistered t.name = true →
        ∃ frame, s.client.build t x = .ok frame ∧ (s.run later).server.Takes a p t x frame) := by
  intro s joined table known encoded
  have hcreated := sound_create (δ := δ) (ε := ε) settings settings' luck
  obtain ⟨h, hschooled⟩ := keeps_schooled.run_all hcreated (schooled_create settings settings' luck) moves
  obtain ⟨-, hkinds⟩ := keeps_kinds.run_all hcreated (kinds_create settings settings' luck) moves
  obtain ⟨c, hc, -⟩ := joined.server
  obtain ⟨c', hc', -⟩ := joined.client
  obtain ⟨hears, hown⟩ := hschooled hc' (h.net.paired joined.wire) (Manager.mem_transports_of_at? hc)
  have hshares : s.Shares := hown.resolve_left fun hnew => by
    rw [hnew] at table
    cases table
  have hattuned : s.Attuned s.server.strings b q := ⟨hears, rfl, fun _ => hshares.2⟩
  obtain ⟨h', hattuned'⟩ := (keeps_attuned hshares.1 b q).run_all h hattuned later
  obtain ⟨-, hserver, hclient⟩ := keeps_kinds.run_all h hkinds later
  obtain ⟨id, hfind⟩ := StringTable.exists_find? known
  refine ⟨fun hreg => ⟨Frame.encode id payload, ?_, ?_⟩, fun hreg => ⟨Frame.encode id payload, ?_, ?_⟩⟩
  · exact Manager.build_ok_iff.mpr ⟨hreg, id, payload, hfind, encoded, rfl⟩
  · refine Manager.takes_of_read? h'.client.sound fun hi hf hknows => ?_
    obtain ⟨c₁, hc₁, -⟩ := h'.client.sound.at?_of_find? h'.client.nodup hi hf
    rw [hattuned'.client hc₁]
    exact hknows.read? codec hclient h.table hfind encoded
  · exact Manager.build_ok_iff.mpr ⟨hreg, id, payload, hshares.2 ▸ hfind, encoded, rfl⟩
  · refine Manager.takes_of_read? h'.server.sound fun _ _ hknows => ?_
    rw [hattuned'.server]
    exact hknows.read? codec hserver h.table hfind encoded

/-- A client comes to a server that can send lines of chat, and both take their events. -/
def welcome : List (Move Unit String) :=
  [.serve (.register MessageType.chat none) trivial,
    .serve .start trivial,
    .engage (.register MessageType.chat (some id)) trivial,
    .dial none ⟨.v4 0 0 0 0, Settings.defaultPort⟩ "ann",
    .serve .process trivial,
    .engage .process trivial,
    .serve .process trivial,
    .engage .process trivial,
    .serve .process trivial]

/-- The state in which the client takes the name table. -/
def welcomed : Duet Unit String := (create Settings.initial Settings.initial fun _ => default).run welcome

/-- All that is left to do is to take the name table. -/
def settle : List (Move Unit String) := [.engage .process trivial]

theorem joined_welcomed : (welcomed.run settle).Joined ⟨.v4 0 0 0 0, Settings.defaultPort⟩ ⟨2⟩ ⟨.v4 127 0 0 1, 50000⟩ ⟨1⟩ ∧
    (welcomed.run settle).client.strings.locked = true := by
  have hcreated := sound_create (δ := Unit) (ε := String) Settings.initial Settings.initial fun _ => default
  have hordinary : ∀ move ∈ welcome, move.Engages Manager.Call.IsOrdinary := by
    simp [welcome, Move.Engages, Manager.Call.IsOrdinary]
  have hsettle : ∀ move ∈ settle, move.Engages Manager.Call.IsOrdinary := by
    simp [settle, Move.Engages, Manager.Call.IsOrdinary]
  have ht : welcomed.Sound ∧ welcomed.Talks := keeps_talks.run (fun _ => trivial) hcreated (.of_no_server rfl) hordinary
  have hs : welcomed.Sound ∧ welcomed.Schooled :=
    keeps_schooled.run_all hcreated (schooled_create Settings.initial Settings.initial _) welcome
  obtain ⟨h', ht'⟩ := keeps_talks.run (fun _ => trivial) ht.1 ht.2 hsettle
  obtain ⟨-, hs'⟩ := keeps_schooled.run_all hs.1 hs.2 settle
  have hclient : ⟨.v4 127 0 0 1, 50000⟩ ∈ (welcomed.run settle).client.transports := by
    show _ ∈ (welcomed.client.process welcomed.net).1.transports
    rw [Manager.transports_process hs.1.client.sound]
    decide +kernel
  have hl : (welcomed.run settle).Links ⟨.v4 0 0 0 0, Settings.defaultPort⟩ ⟨2⟩ ⟨.v4 127 0 0 1, 50000⟩ ⟨1⟩ .connected :=
    ⟨by decide +kernel, hclient, by decide +kernel⟩
  exact hl.joined h' ht' hs' (by decide +kernel) (by decide +kernel)

/-- A line of chat is understood, also after somebody else has turned up and the server was asked for another kind. -/
theorem frames_understood_welcome : ∃ frame, (welcomed.run settle).server.build MessageType.chat "hi" = .ok frame ∧
    ((welcomed.run settle).run [.disturb .bindAny, .serve (.register MessageType.ping none) trivial]).client.Takes
      ⟨.v4 127 0 0 1, 50000⟩ ⟨1⟩ MessageType.chat "hi" frame := by
  have codec : MessageType.chat.RoundTrips := by
    intro text bs h
    simp only [MessageType.chat] at h ⊢
    split at h
    · cases h
    · rw [← Except.ok.inj h, Text.fromUTF8?_toUTF8]
  have hrun : welcomed.run settle =
      (create Settings.initial Settings.initial fun _ => default).run (welcome ++ settle) := by
    rw [run, run, List.foldl_append]
    rfl
  obtain ⟨joined, table⟩ := joined_welcomed
  have hnames : MessageType.chat.name ∈ (welcomed.run settle).server.strings.names := by decide +kernel
  have hkind : (welcomed.run settle).server.registry.isRegistered MessageType.chat.name = true := by decide +kernel
  rw [hrun] at joined table hnames hkind ⊢
  obtain ⟨hsend, -⟩ := frames_understood Settings.initial Settings.initial (fun _ => default) (welcome ++ settle)
    [.disturb .bindAny, .serve (.register MessageType.ping none) trivial] MessageType.chat "hi" [104, 105] _ _ _ _ codec
    joined table hnames (by decide +kernel)
  exact hsend hkind

end Duet
end StateSync
