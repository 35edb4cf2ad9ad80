import StateSync.Proofs.System.Vocabulary

/-! What a server and a client that are joined by a link hand to their applications (`Manager.Due`), what is on its way
    between them, and which connection stands where it stood before. -/

namespace StateSync
open Network (Act Acted Deals)

theorem Connection.InPhase.of_channel {c : Connection} {side : Side} {f : Option PendingFrame} {ch : Channel}
    (h : c.InPhase side f) (hch : c.channel = some ch) : c.phase = .connected ∧ ch.connection = c.id := by
  simp only [Connection.InPhase] at h
  split at h <;> simp_all
  obtain ⟨-, name, -, rfl⟩ := h
  rfl

/-! ### What two that have not sent the name table keep -/

namespace Duet
variable {δ ε : Type} {s : Duet δ ε} {c : Manager.Call Network Address δ} {d : Manager.Call Network Address ε}

/-- All that holds of a server and a client as long as neither of their applications sends the name table. -/
structure Orderly (s : Duet δ ε) : Prop where
  sound : s.Sound
  talks : s.Talks
  schooled : s.Schooled

namespace Orderly

theorem create (settings settings' : Settings) (luck : Nat → Luck) :
    (Duet.create settings settings' luck : Duet δ ε).Orderly :=
  ⟨sound_create settings settings' luck, .of_no_server rfl, schooled_create settings settings' luck⟩

theorem serve (h : s.Orderly) (hc : c.IsStep) (hord : c.IsOrdinary) : (s.serve c).Orderly :=
  ⟨h.sound.serve hc, h.talks.serve h.sound hc hord, keeps_schooled.serve h.sound hc hord h.schooled⟩

theorem engage (h : s.Orderly) (hd : d.IsStep) (hord : d.IsOrdinary) : (s.engage d).Orderly :=
  ⟨h.sound.engage hd, h.talks.engage h.sound hd hord, keeps_schooled.engage h.sound hd trivial h.schooled⟩

theorem dial (h : s.Orderly) (addr : Option Address) (remote : Address) (username : String) :
    (s.dial addr remote username).Orderly :=
  ⟨h.sound.dial addr remote username, h.talks.dial h.sound addr remote username,
    Schooled.dial h.schooled h.sound addr remote username⟩

theorem disturb (h : s.Orderly) (x : Act) : (s.disturb x).Orderly :=
  ⟨h.sound.disturb x, h.talks.disturb h.sound x, keeps_schooled.disturb x h.sound h.schooled⟩

/-- A server without transports takes the place of another. -/
theorem of_idle_server (h : s.Orderly) {m : Manager Address δ} (hm : m.Attends s.net) (htable : m.strings.Sound)
    (hidle : m.transports = []) : Orderly { s with server := m } := by
  have hnone : ∀ {a}, a ∉ m.transports := by simp [hidle]
  exact ⟨⟨hm, htable, h.sound.client, h.sound.bound, h.sound.known, fun ha => absurd ha hnone⟩, .of_no_server hidle,
    fun _ _ ha => absurd ha hnone⟩

theorem of_idle_client (h : s.Orderly) {m : Manager Address ε} (hm : Party.Fits (κ := Unit) (.client ()) m)
    (hidle : m.transports = []) : Orderly { s with client := m } := by
  have hnone : ∀ {b}, b ∉ m.transports := by simp [hidle]
  have hseat : ∀ {b q c}, m.at? b q ≠ some c := by simp [Manager.at?_of_no_transports hidle]
  exact ⟨⟨h.sound.server, h.sound.table, hm, fun hb => absurd hb hnone, fun hc => absurd hc hseat, fun _ => hnone⟩,
    .of_no_client hidle, fun hc => absurd hc hseat⟩

end Orderly
end Duet

/-! ### What the application is handed -/

namespace Manager

section
variable {μ ι δ : Type} {m : Manager ι δ} {w : μ} {c : Call μ ι δ}

/-- A call by which the application registers nothing, sends nothing, and takes nothing that was received. -/
def Call.IsQuiet : Call μ ι δ → Prop
  | .start | .next _ | .disconnect .. | .shutdown _ | .setHook _ | .changeSetting .. | .takeEvents => True
  | _ => False

theorem Call.IsQuiet.isStep (hc : c.IsQuiet) : c.IsStep := by
  cases c with
  | connect h remote username => cases hc
  | process => cases hc
  | outside w => cases hc
  | _ => trivial

theorem Call.IsQuiet.isOrdinary (hc : c.IsQuiet) : c.IsOrdinary := by
  cases c with
  | connect h remote username => cases hc
  | send id t x => cases hc
  | broadcast t x => cases hc
  | outside w => cases hc
  | _ => trivial

variable [Medium μ ι]

theorem perform_leaves (hc : c.IsQuiet) (m : Manager ι δ) (w : μ) :
    Leaves m (perform (m, w) c).1 ∨ ∃ i, c = .next i := by
  cases c with
  | start =>
    left
    rw [perform, start]
    repeat' split
    all_goals exact ⟨rfl, rfl, rfl⟩
  | next i => exact Or.inr ⟨i, rfl⟩
  | disconnect id reason =>
    left
    rw [perform, disconnect]
    split
    · exact reject_leaves m w id reason
    · exact .refl m
  | shutdown reason => exact Or.inl (shutdown_leaves m w reason)
  | setHook hook => exact Or.inl ⟨rfl, rfl, rfl⟩
  | changeSetting key value =>
    left
    obtain ⟨settings, heq⟩ := m.changeSetting_eq w key value
    rw [perform, heq]
    exact ⟨rfl, rfl, rfl⟩
  | takeEvents => exact Or.inl ⟨rfl, rfl, rfl⟩
  | _ => cases hc

theorem perform_registry (hm : m.Sound) (w : μ) (hc : c.IsQuiet) : (perform (m, w) c).1.registry = m.registry := by
  rcases registry_perform hm w c with hsame | ⟨α, t, receive, rfl, -⟩
  · exact hsame
  · cases hc

/-- A server gives no more names then. -/
theorem perform_names (hm : m.Sound) (hs : m.isServer = true) (w : μ) (hc : c.IsQuiet) :
    (perform (m, w) c).1.strings.names = m.strings.names := by
  rcases perform_leaves hc m w with hleaves | ⟨i, rfl⟩
  · rw [hleaves.strings]
  · rcases next_delivers hm w i with hleaves | ⟨h, e, w₁, -, -, hdelivers⟩
    · rw [perform, hleaves.strings]
    · rw [perform]
      generalize (m.next w i).1 = m' at hdelivers ⊢
      generalize (m.next w i).2 = w' at hdelivers
      cases hdelivers with
      | @frame p bs id ch event found channel =>
        obtain ⟨strings, received, heq, hstrings⟩ := m.receiveFrame_eq ch bs
        rw [heq]
        exact congrArg _ (hstrings hs)
      | locks server leaves => rw [leaves.strings, StringTable.lock]
      | leaves leaves => rw [leaves.strings]

end

variable {δ : Type} {m m' : Manager Address δ} {n n' : Network} {a b : Address} {p q : Peer} {i : Nat}
  {c c' : Connection} {id : ConnectionId} {bytes : Bytes}

theorem Call.IsQuiet.not_gives {c : Call Network Address δ} (hc : c.IsQuiet) : ¬ c.Gives m bytes := by
  cases c with
  | send id t x => cases hc
  | broadcast t x => cases hc
  | _ => exact id

/-- A message that waits to be handed to the application: a frame that says so has come to a connection whose handshake
    is over. -/
def Due (m : Manager Address δ) (n : Network) (a : Address) (p : Peer) (c : Connection) (r : Channel × δ) : Prop :=
  m.at? a p = some c ∧ c.phase = .connected ∧ r.1.connection = c.id ∧
    ∃ bytes, .frame bytes ∈ n.notes a p ∧ m.registry.read? m.strings bytes = some r.2

/-- Whatever the application is handed anew was due. -/
theorem perform_received (hm : m.Sound) (hnodup : m.transports.Nodup) (hn : n.Sound) {c : Call Network Address δ}
    (hc : c.IsQuiet) {r : Channel × δ} (hr : r ∈ (perform (m, n) c).1.received) :
    r ∈ m.received ∨ ∃ a p x, m.Due n a p x r := by
  rcases perform_leaves hc m n with hleaves | ⟨i, rfl⟩
  · exact Or.inl (hleaves.received ▸ hr)
  rcases next_delivers hm n i with hleaves | ⟨a, e, n₁, hi, hpoll, hdelivers⟩
  · exact Or.inl (hleaves.received ▸ hr)
  rw [perform] at hr
  generalize (m.next n i).1 = m' at hdelivers hr
  generalize (m.next n i).2 = n' at hdelivers
  cases hdelivers with
  | locks server leaves => exact Or.inl (leaves.received ▸ hr)
  | leaves leaves => exact Or.inl (leaves.received ▸ hr)
  | @frame p bs id ch event found channel =>
    subst event
    rw [received_receiveFrame] at hr
    rcases List.mem_append.mp hr with hr | hr
    · exact Or.inl hr
    · obtain ⟨x, hread, rfl⟩ := Option.map_eq_some_iff.mp (Option.mem_toList.mp hr)
      obtain ⟨c, hat, hget⟩ := hm.at?_of_find? hnodup hi found
      obtain ⟨hphase, hid⟩ := ((hm id).phase hget).of_channel (by rwa [channel?, hget] at channel)
      have hnotes := (hn.poll hpoll).2.2.2
      refine Or.inr ⟨a, p, c, hat, hphase, hid, bs, ?_, hread⟩
      show _ ∈ n.notes a (TransportEvent.data p bs).peer
      rw [hnotes]
      exact List.mem_cons_self

/-! ### What is sent -/

/-- A packet that is on its way after a message was sent was so before, or carries the message, on the connection that
    it was sent on. -/
theorem frame_of_send (hm : m.Sound) (hnodup : m.transports.Nodup) (hn : n.Sound) {α : Type} {t : MessageType α} {x : α}
    (hmem : .frame bytes ∈ (m.send n id t x).2.notes b q) : .frame bytes ∈ n.notes b q ∨
      ∃ a c i payload, m.at? a c.peer = some c ∧ c.id = id ∧ n.wire? a c.peer = some ⟨b, q, .connected⟩ ∧
        m.strings.find? t.name = some i ∧ t.encode x = .ok payload ∧ bytes = Frame.encode i payload := by
  unfold send at hmem
  split at hmem
  · exact Or.inl hmem
  · rename_i frame hbuild
    rcases sendFrame_cases hm hnodup n id frame t.delivery with heq | ⟨a, c, hat, hid, -, heq⟩
    · exact Or.inl (heq ▸ hmem)
    · rw [heq] at hmem
      rcases Network.frame_of_act (x := .send a c.peer frame t.delivery) hn hmem with hold | ⟨a', p, d, hact, hw⟩
      · exact Or.inl hold
      · obtain ⟨rfl, rfl, rfl, -⟩ := Act.send.inj hact
        obtain ⟨-, i, payload, hfind, hencode, rfl⟩ := build_ok_iff.mp hbuild
        exact Or.inr ⟨a, c, i, payload, hat, hid, hw, hfind, hencode, rfl⟩

/-- A client says nothing more by itself once its handshake is over. -/
theorem net_handleEvent (hm : m.Sound) (hnodup : m.transports.Nodup) (hs : m.isServer = false)
    (hi : m.transports[i]? = some a) (e : TransportEvent)
    (hover : ∀ {c}, m.at? a e.peer = some c → c.phase = .connected) (n : Network) : (m.handleEvent n i a e).2 = n := by
  cases hf : m.connections.find? i e.peer with
  | none =>
    cases e with
    | approvalRequest p => simp only [handleEvent, handleApproval, hs, Bool.not_false, if_true]
    | connected p reason =>
      have hf' : m.connections.find? i p = none := hf
      rw [handleEvent, handleConnected, hf']
      rfl
    | disconnected p reason => rfl
    | data p bs =>
      have hf' : m.connections.find? i p = none := hf
      rw [handleEvent, handleData, hf']
  | some id =>
    obtain ⟨c, hat, hget⟩ := hm.at?_of_find? hnodup hi hf
    have hphase := hover hat
    have hin := (hm id).phase hget
    cases e with
    | approvalRequest p => simp only [handleEvent, handleApproval, hs, Bool.not_false, if_true]
    | connected p reason =>
      have hf' : m.connections.find? i p = some id := hf
      simp only [handleEvent, handleConnected, hf', Option.bind_some, hget, side_eq_client hs, hphase]
    | disconnected p reason => rfl
    | data p bs =>
      simp only [Connection.InPhase, hphase] at hin
      obtain ⟨-, name, -, hch⟩ := hin
      have hchannel : m.channel? id = some ⟨c.id, name, c.remote⟩ := by rw [channel?, hget]; exact hch
      have hf' : m.connections.find? i p = some id := hf
      rw [handleEvent, handleData_of_channel? hm hf' hchannel]

/-! ### Seats -/

theorem Sound.lt_of_at? (hm : m.Sound) (hnodup : m.transports.Nodup) (hc : m.at? a p = some c) :
    c.id.val < m.connections.slots.length := by
  obtain ⟨id, hget, -⟩ := (hm.at?_eq_some_iff hnodup).mp hc
  rw [(hm id).own hget]
  exact ConnectionTable.lt_of_get? hget

/-- A connection stands in one place only. -/
theorem Sound.seat_unique (hm : m.Sound) (hnodup : m.transports.Nodup) (hc : m.at? a p = some c)
    (hc' : m.at? b q = some c') (hid : c.id = c'.id) : a = b ∧ p = q := by
  obtain ⟨i, hget, hplace, rfl⟩ := (hm.at?_eq_some_iff hnodup).mp hc
  obtain ⟨j, hget', hplace', rfl⟩ := (hm.at?_eq_some_iff hnodup).mp hc'
  obtain rfl : i = j := by rw [← (hm i).own hget, hid, (hm j).own hget']
  obtain rfl := Option.some.inj (hget.symm.trans hget')
  exact ⟨Option.some.inj (hplace.symm.trans hplace'), rfl⟩

/-- A connection that is there after one connection was settled was there before, or its id is new. -/
theorem Settles.seat (hs : Settles m m' id) (hm : m.Sound) (hnodup : m.transports.Nodup) (hc : m'.at? a p = some c') :
    (∃ c, m.at? a p = some c ∧ c.id = c'.id) ∨ m.connections.slots.length ≤ c'.id.val := by
  have hm' := hm.of_settles hs
  obtain ⟨j, hget, hplace, rfl⟩ := (hm'.at?_eq_some_iff (hs.transports ▸ hnodup)).mp hc
  rw [transportOf?, hs.transports] at hplace
  obtain rfl := (hm' j).own hget
  by_cases hj : c'.id = id
  · subst hj
    cases hget₀ : m.connections.get? c'.id with
    | some c =>
      obtain ⟨hi, hp⟩ := hs.connections.place hget₀ hget
      refine Or.inl ⟨c, ?_, (hm c'.id).own hget₀⟩
      rw [hp]
      exact hm.at?_of_get? hnodup hget₀ (by rw [transportOf?, ← hi, hplace])
    | none =>
      refine Or.inr (Nat.le_of_not_lt fun hlt => ?_)
      cases (hs.connections.dead ⟨hlt, hget₀⟩).symm.trans hget
  · exact Or.inl ⟨c', hm.at?_of_get? hnodup (hs.connections.get? hj ▸ hget) hplace, rfl⟩

theorem Does.seat_or_new {W : Bytes → Prop} (h : Does W m n m' n') (hm : m.Sound) (hnodup : m.transports.Nodup)
    (hc : m'.at? a p = some c') :
    (∃ c, m.at? a p = some c ∧ c.id = c'.id) ∨ m.connections.slots.length ≤ c'.id.val := by
  cases h with
  | @handles i a₀ e n₁ place polled =>
    obtain ⟨id, hid⟩ := handleEvent_handles hm (List.getElem?_eq_some_iff.mp place).1 n₁ a₀ e
    exact hid.toSettles.seat hm hnodup hc
  | stirs connections pending side transports table own quiet acted =>
    exact Or.inl ⟨c', (at?_congr connections transports a p).symm.trans hc, rfl⟩
  | @ends id x a₀ live place reason => exact ((hm id).toWired.teardown reason).seat hm hnodup hc
  | @opens hs n' server idle grown nodup acted =>
    -- Nobody has a connection before there are transports.
    have hnone : ∀ id, m.connections.get? id = none := hm.get?_of_not_running (by simp [idle])
    obtain ⟨i, -, hbind⟩ := Option.bind_eq_some_iff.mp hc
    obtain ⟨id, -, hget⟩ := Option.bind_eq_some_iff.mp hbind
    cases (hnone id).symm.trans hget
  | shuts advances transports strings reason => cases (at?_of_no_transports transports a p).symm.trans hc
  | _ => exact Or.inl ⟨c', hc, rfl⟩

end Manager

/-! ### Links -/

namespace Talk
variable {table own : StringTable} {st : LinkState} {x : Option Connection} {c : Connection} {up down : List Note}

/-- A client that has a name table has it from this server, and both are through with the handshake. -/
theorem settled_of_own (h : Talk table own st x (some c) up down) (hown : own ≠ StringTable.create) :
    own.names = table.names ∧ c.phase = .connected ∧ ∃ y, x = some y ∧ y.phase = .connected := by
  cases h with
  | asked phase new => exact absurd new hown
  | approved server client new => exact absurd new hown
  | named server session nonempty client new => exact absurd new hown
  | acked server session client new => exact absurd new hown
  | settling server session client new locked encoded perm all => exact absurd new hown
  | settled server session client names locked frames all => exact ⟨names, client, _, rfl, server⟩

/-- A server that is through with the handshake hears from a client that has its name table only. -/
theorem over_of_server {y : Connection} (h : Talk table own st (some y) (some c) up down) (hy : y.phase = .connected) :
    c.phase = .connected ∧ (own.names = table.names ∨ up = []) := by
  cases h with
  | approved server client new =>
    rw [hy] at server
    cases server
  | named server session nonempty client new => cases hy.symm.trans server
  | acked server session client new => cases hy.symm.trans server
  | settling server session client new locked encoded perm all => exact ⟨client, Or.inr rfl⟩
  | settled server session client names locked frames all => exact ⟨client, Or.inl names⟩

end Talk

namespace Duet
variable {δ ε : Type} {s : Duet δ ε} {a b : Address} {p q : Peer} {st st' : LinkState} {bytes : Bytes}
  {c : Manager.Call Network Address δ} {d : Manager.Call Network Address ε}

namespace Links

/-- A link across which the server may have done something was there before. -/
theorem of_serve (hl : (s.serve c).Links a p b q st) (h : s.Sound) (ht : s.Talks) (hc : c.IsStep)
    (hord : c.IsOrdinary) :
    ∃ st₀, s.Links a p b q st₀ := by
  have hdoes := h.does_server hc
  obtain ⟨x, hx⟩ := (ht.serve h hc hord hl).client_some
  obtain ⟨st₀, hw⟩ := (hdoes.acted h.server.sound).continues.leads ((h.serve hc).net.paired hl.wire) (h.known hx)
  have hw' := h.net.paired hw
  refine ⟨st₀, (hdoes.commands h.server.sound a hl.server).resolve_right fun hfree => ?_, hl.client, hw'⟩
  cases hfree.symm.trans (Network.isBound_of_wire? hw')

theorem of_engage (hl : (s.engage d).Links a p b q st) (h : s.Sound) (ht : s.Talks) (hd : d.IsStep)
    (hord : d.IsOrdinary) : ∃ st₀, s.Links a p b q st₀ := by
  have hdoes := h.does_client hd
  obtain ⟨x, hx⟩ := (ht.engage h hd hord hl).client_some
  obtain ⟨x₀, hx₀⟩ := hdoes.seat h.client hx
  obtain ⟨st₀, hw⟩ := (hdoes.acted h.client.sound).continues.leads ((h.engage hd).net.paired hl.wire) (h.known hx₀)
  exact ⟨st₀, hl.server, Manager.mem_transports_of_at? hx₀, h.net.paired hw⟩

/-- What the server does puts nothing on its way to the server. -/
theorem near_serve (hl : s.Links a p b q st) (h : s.Sound) (hc : c.IsStep)
    (hmem : .frame bytes ∈ (s.serve c).net.notes a p) : .frame bytes ∈ s.net.notes a p := by
  rcases ((h.does_server hc).acted h.server.sound).frame h.net (h.net.fresh hl.wire) hmem with
    hold | ⟨a', p', st', d, hsend, hw⟩
  · exact hold
  · obtain ⟨rfl, -⟩ := Network.wire_inj hl.wire (h.net.paired hw)
    exact absurd hl.client (h.apart (hsend.words rfl).1)

theorem far_engage (hl : s.Links a p b q st) (h : s.Sound) (hd : d.IsStep)
    (hmem : .frame bytes ∈ (s.engage d).net.notes b q) : .frame bytes ∈ s.net.notes b q := by
  have hback := h.net.paired hl.wire
  rcases ((h.does_client hd).acted h.client.sound).frame h.net (h.net.fresh hback) hmem with
    hold | ⟨b', q', st', d, hsend, hw⟩
  · exact hold
  · obtain ⟨rfl, -⟩ := Network.wire_inj hback (h.net.paired hw)
    exact absurd (hsend.words rfl).1 (h.apart hl.server)

/-- What a server puts on its way to the client, it was given or says by itself. -/
theorem far_serve (hl : s.Links a p b q st) (h : s.Sound) (hc : c.IsStep)
    (hmem : .frame bytes ∈ (s.serve c).net.notes b q) : .frame bytes ∈ s.net.notes b q ∨
      c.Gives s.server bytes ∨ s.server.Utters (s.serve c).server bytes := by
  have hback := h.net.paired hl.wire
  rcases ((h.does_server hc).acted h.server.sound).frame h.net (h.net.fresh hback) hmem with
    hold | ⟨a', p', st', d, hsend, -⟩
  · exact Or.inl hold
  · exact Or.inr (hsend.words rfl).2

/-- A client that is through with the handshake puts nothing on its way by itself. -/
theorem near_silent (hl : (s.engage d).Links a p b q st) (h : s.Sound) (ha : a ∈ s.server.transports) (hd : d.IsQuiet)
    {x : Connection} (hx : s.client.at? b q = some x) (hover : x.phase = .connected)
    (hmem : .frame bytes ∈ (s.engage d).net.notes a p) : .frame bytes ∈ s.net.notes a p := by
  have hdoes := h.does_client hd.isStep
  have hback := (h.engage hd.isStep).net.paired hl.wire
  have hclient := hl.client
  generalize (s.engage d).client = m at hdoes hclient
  generalize (s.engage d).net = n at hdoes hmem hback
  cases hdoes with
  | @handles i b₀ e n₁ place polled =>
    rw [Manager.net_handleEvent h.client.sound h.client.nodup h.side_client place e (fun hc => ?_) n₁] at hmem
    · have hend : ¬ (a = b₀ ∧ p = e.peer) := by
        rintro ⟨rfl, -⟩
        exact h.apart ha (List.mem_of_getElem? place)
      rwa [(h.net.poll polled).2.1.notes hend] at hmem
    · obtain ⟨rfl, rfl⟩ := h.client.single h.side_client hx hc
      rw [← Option.some.inj (hx.symm.trans hc)]
      exact hover
  | stirs connections pending side transports table own quiet acted => rwa [quiet.notes] at hmem
  | sends given _ ids => exact absurd given hd.not_gives
  | @ends id z b₀ live place reason =>
    -- The link would be gone.
    have hat := h.client.sound.at?_of_get? h.client.nodup live place
    obtain ⟨rfl, rfl⟩ := h.client.single h.side_client hx hat
    cases (h.net.severs b z.peer reason).near.symm.trans hback
  | opens server idle grown nodup acted => cases h.side_client.symm.trans server
  | fails server idle cut sound bound acted => cases h.side_client.symm.trans server
  | shuts advances transports strings reason =>
    rw [transports] at hclient
    cases hclient

/-- A client that has its name table after it has handled an event has said nothing, and had the table before anything
    was on its way from it. -/
theorem near_engage (hl : (s.engage d).Links a p b q st) (h : s.Sound) (ht : s.Talks) (hd : d.IsQuiet)
    (hnames : s.server.strings.names ≠ StringTable.create.names)
    (hown : (s.engage d).client.strings ≠ StringTable.create) (hmem : .frame bytes ∈ (s.engage d).net.notes a p) :
    .frame bytes ∈ s.net.notes a p ∧ s.client.strings ≠ StringTable.create := by
  obtain ⟨st₀, hl₀⟩ := hl.of_engage h ht hd.isStep hd.isOrdinary
  have htalk := ht hl₀
  have htalk' := ht.engage h hd.isStep hd.isOrdinary hl
  obtain ⟨x, hx⟩ := htalk.client_some
  obtain ⟨x', hx'⟩ := htalk'.client_some
  rw [hx'] at htalk'
  obtain ⟨-, -, y, hy, hphase⟩ := htalk'.settled_of_own hown
  rw [show s.server.at? a p = some y from hy, hx] at htalk
  obtain ⟨hover, hup⟩ := htalk.over_of_server hphase
  have hsame := hl.near_silent h hl₀.server hd hx hover hmem
  refine ⟨hsame, fun hnew => ?_⟩
  rcases hup with hsettled | hnil
  · exact hnames (hnew ▸ hsettled).symm
  · rw [hnil] at hsame
    cases hsame

end Links
end Duet

/-! ### The end of a client's connection -/

namespace Manager
variable {κ δ : Type} {k : κ} {m m' : Manager Address δ} {n : Network} {a b : Address} {q : Peer} {i : Nat}
  {id : ConnectionId} {x : NetEvent}

/-- Once it has been told of an end, a client has no connection. -/
def Concluded (m : Manager Address δ) : Prop := ∀ x ∈ m.events, x.isEnd = true → ∀ b q, m.at? b q = none

/-- A client has no connection when the one that it had has ended. -/
theorem Settles.at?_eq_none (hs : Settles m m' id) (hm : Party.Fits (.client k) m) {c : Connection}
    (live : m.connections.get? id = some c) (gone : m'.connections.get? id = none) : m'.at? b q = none := by
  have hclient : m.isServer = false := eq_false_of_ne_true fun hserver => by cases hm.isServer.mp hserver
  refine Option.eq_none_iff_forall_ne_some.mpr fun c' hc' => ?_
  have hm' := hm.sound.of_settles hs
  obtain ⟨j, hget, hplace, rfl⟩ := (hm'.at?_eq_some_iff (hs.transports ▸ hm.nodup)).mp hc'
  have hj : j ≠ id := by
    rintro rfl
    cases gone.symm.trans hget
  rw [transportOf?, hs.transports] at hplace
  have hget₀ := hs.connections.get? hj ▸ hget
  have hat := hm.sound.at?_of_get? hm.nodup hget₀ hplace
  have hat' := hm.sound.at?_of_get? hm.nodup live (List.getElem?_eq_getElem ((hm.sound id).carried live))
  obtain ⟨hb, hq⟩ := hm.single hclient hat hat'
  rw [hb, hq, hat'] at hat
  obtain rfl := Option.some.inj hat
  exact hj (((hm.sound j).own hget₀).symm.trans ((hm.sound id).own live))

/-- What a client is newly told of an end, it is told when it has no connection any more. -/
theorem handleEvent_ends (hm : Party.Fits (.client k) m) (hi : m.transports[i]? = some a) (e : TransportEvent)
    (hx : x ∈ (m.handleEvent n i a e).1.events) (hend : x.isEnd = true) :
    x ∈ m.events ∨ ∀ b q, (m.handleEvent n i a e).1.at? b q = none := by
  obtain ⟨id, hsettles, es, hevents, houtcome⟩ := handleEvent_concludes hm.sound hi n e
  rw [hevents] at hx
  refine (List.mem_append.mp hx).imp_right fun hx => ?_
  have hgone : ∀ {c}, m.connections.get? id = some c → (m.handleEvent n i a e).1.standing? id = none →
      ∀ b q, (m.handleEvent n i a e).1.at? b q = none :=
    fun live after _ _ => hsettles.at?_eq_none hm live (standing?_eq_none.mp after)
  cases houtcome with
  | lapsed ack session bare after unsent => exact hgone ack.live after
  | ended live after => exact hgone live after
  | opened ack session bare after encoded sent =>
    rw [List.mem_singleton.mp hx] at hend
    cases hend
  | accepted client live bare after =>
    rw [List.mem_singleton.mp hx] at hend
    cases hend
  | _ => cases hx

theorem next_ends (hm : Party.Fits (.client k) m) (n : Network) (i : Nat) (hx : x ∈ (m.next n i).1.events)
    (hend : x.isEnd = true) : x ∈ m.events ∨ ∀ b q, (m.next n i).1.at? b q = none := by
  unfold next at hx ⊢
  split at hx
  · exact Or.inl hx
  · rename_i a hi
    split at hx
    · exact Or.inl hx
    · exact handleEvent_ends hm hi _ hx hend

theorem disconnect_ends (hm : Party.Fits (.client k) m) (n : Network) (id : ConnectionId) (reason : String)
    (hx : x ∈ (m.disconnect n id reason).2.1.events) :
    x ∈ m.events ∨ ∀ b q, (m.disconnect n id reason).2.1.at? b q = none := by
  unfold disconnect at hx ⊢
  split at hx
  · rename_i hlive
    obtain ⟨c, live⟩ := Option.isSome_iff_exists.mp hlive
    rw [if_pos hlive]
    have hgone : (m.teardown id reason).connections.get? id = none := (get?_teardown ..).trans (if_pos rfl)
    exact Or.inr fun _ _ => ((hm.sound id).toWired.teardown reason).at?_eq_none hm live hgone
  · exact Or.inl hx

theorem shutdown_ends (m : Manager Address δ) (n : Network) (reason : String)
    (hx : x ∈ (m.shutdown n reason).1.events) : x ∈ m.events ∨ ∀ b q, (m.shutdown n reason).1.at? b q = none := by
  cases hrun : m.isRunning with
  | false =>
    rw [shutdown, hrun, Bool.not_false, if_pos rfl] at hx
    exact Or.inl hx
  | true =>
    obtain ⟨m', heq, htransports, -⟩ := shutdown_eq hrun n reason
    rw [heq]
    exact Or.inr (at?_of_no_transports htransports)

theorem perform_ends (hm : Party.Fits (.client k) m) (n : Network) {c : Call Network Address δ} (hc : c.IsStep)
    (hx : x ∈ (perform (m, n) c).1.events) (hend : x.isEnd = true) :
    x ∈ m.events ∨ ∀ b q, (perform (m, n) c).1.at? b q = none := by
  cases c with
  | start =>
    have hclient : m.isServer = false := eq_false_of_ne_true fun hserver => by cases hm.isServer.mp hserver
    rw [perform, Manager.start, hclient, Bool.not_false, if_pos rfl] at hx
    exact Or.inl hx
  | next i => exact next_ends hm n i hx hend
  | disconnect id reason => exact disconnect_ends hm n id reason hx
  | shutdown reason => exact shutdown_ends m n reason hx
  | register t receive =>
    rw [perform] at hx
    cases hr : m.register t receive with
    | error f =>
      rw [hr] at hx
      exact Or.inl hx
    | ok m' =>
      rw [hr] at hx
      obtain ⟨strings, registry, rfl, -⟩ := register_eq hr
      exact Or.inl hx
  | changeSetting key value =>
    obtain ⟨settings, heq⟩ := m.changeSetting_eq n key value
    rw [perform, heq] at hx
    exact Or.inl hx
  | takeEvents => cases hx
  | connect b remote username => cases hc
  | process => cases hc
  | outside n' => cases hc
  | _ => exact Or.inl hx

end Manager

theorem Duet.Sound.concluded {δ ε : Type} {s : Duet δ ε} {d : Manager.Call Network Address ε} (h : s.Sound) (hd : d.IsStep)
    (hs : s.client.Concluded) : (s.engage d).client.Concluded := by
  intro x hx hend b q
  rcases Manager.perform_ends h.client s.net hd hx hend with hold | hnone
  · refine Option.eq_none_iff_forall_ne_some.mpr fun c hc => ?_
    obtain ⟨c₀, hc₀⟩ := (h.does_client hd).seat h.client hc
    cases (hs x hold hend b q).symm.trans hc₀
  · exact hnone b q

end StateSync
