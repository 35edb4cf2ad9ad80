import StateSync.Proofs.Archive.Table
import StateSync.Proofs.Connection.Name
import StateSync.Proofs.Manager.Frames
import StateSync.Proofs.Manager.Reach
import StateSync.Proofs.Manager.Seat
import StateSync.Proofs.System.Talk
import StateSync.Proofs.Text.Utf8
import StateSync.Proofs.Transport.Exchange

/-! Each event of the handshake, at a server and at a client: the talk goes on, or the link is taken down. -/

namespace StateSync.Manager
open Network (Posts)

variable {δ : Type} {m : Manager Address δ} {n n' : Network} {a b : Address} {p q : Peer} {i : Nat} {c : Connection}
  {id : ConnectionId} {own : StringTable} {other : Option Connection} {st : LinkState}

theorem textOfBytes?_textBytes (s : String) : textOfBytes? (textBytes s) = some s := Text.fromUTF8?_toUTF8 s

/-- A connection at the near end of a connected link. -/
structure Holds (m : Manager Address δ) (n : Network) (i : Nat) (a : Address) (p : Peer) (c : Connection) (b : Address)
    (q : Peer) : Prop where
  sound : m.Sound
  nodup : m.transports.Nodup
  place : m.transports[i]? = some a
  seat : m.at? a p = some c
  net : n.Sound
  wire : n.wire? a p = some ⟨b, q, .connected⟩

/-- The connection is forgotten, and its link is taken down. -/
def Ends (m : Manager Address δ) (n : Network) (a : Address) (p : Peer) : Prop := m.at? a p = none ∧ n.wire? a p = none

namespace Holds

theorem get? (h : Holds m n i a p c b q) : m.connections.get? c.id = some c := (h.sound.seat h.nodup h.place h.seat).1

theorem find? (h : Holds m n i a p c b q) : m.connections.find? i p = some c.id :=
  (h.sound.seat h.nodup h.place h.seat).2.1

theorem carries (h : Holds m n i a p c b q) : m.Carries c.id a p := h.sound.carries h.place h.find?

theorem apart (h : Holds m n i a p c b q) : b ≠ a := h.net.apart h.wire

theorem far (h : Holds m n i a p c b q) : n.isBound b = true := Network.isBound_of_wire? (h.net.paired h.wire)

/-- What becomes of a connection stands where the connection stood. -/
theorem at?_eq {m' : Manager Address δ} (h : Holds m n i a p c b q) (hs : Settles m m' c.id) :
    m'.at? a p = m'.connections.get? c.id := by
  refine (Handles.of_settles h.sound h.find? hs).at?_eq h.sound h.nodup h.place fun {j} hj => ?_
  exact Option.some.inj (hj.symm.trans h.find?)

theorem ends {m' m₁ : Manager Address δ} {reason : String} (h : Holds m n i a p c b q) (hs : Settles m m' c.id)
    (hn : n'.Sound) (hm : m' = m₁.teardown c.id reason) : Ends m' (n'.sever a p reason) a p := by
  refine ⟨?_, (hn.severs a p reason).near⟩
  rw [h.at?_eq hs, hm, get?_teardown, if_pos rfl]

/-- What a reliable packet does to the notes at both ends. -/
theorem send (h : Holds m n i a p c b q) {d : Delivery} (hd : d.isReliable = true) (bytes : Bytes)
    (hstatus : ∀ note ∈ n.notes b q, note.isStatus = true) :
    ∃ n', Medium.send n a p bytes d = (.ok (), n') ∧ n'.Sound ∧ n'.wire? a p = some ⟨b, q, .connected⟩ ∧
      n'.notes a p = n.notes a p ∧ n'.notes b q = n.notes b q ++ [.frame bytes] := by
  obtain ⟨n', hsend, hposts⟩ := Network.send_connected h.wire hd bytes
  refine ⟨n', hsend, (Network.Deals.of_posts h.net h.wire hposts).sound, (hposts.wire? a p).trans h.wire, ?_, ?_⟩
  · exact hposts.notes_of_ne fun heq => h.apart (Prod.mk.inj heq).1
  · exact hposts.notes_last h.net h.far hstatus

end Holds

/-! ### Server -/

/-- A peer that asks and is still there is taken in. -/
theorem handleApproval_present (hm : m.Sound) (hnodup : m.transports.Nodup) (hs : m.isServer = true)
    (hi : m.transports[i]? = some a) (hat : m.at? a p = none) (hw : n.wire? a p = some ⟨b, q, st⟩)
    (happrove : n.approve a p = (.ok (), n')) :
    let r := m.handleApproval n i a p
    r.2 = n' ∧ r.1.strings = m.strings ∧ ∃ c, r.1.at? a p = some c ∧ c.phase = .approved := by
  have hf := hm.find?_of_at? hnodup hi hat
  obtain ⟨ht, hwired, hget, hpend⟩ := hm.enter (List.getElem?_eq_some_iff.mp hi).1 hf b .awaitingApproval
  let id := m.connections.nextId
  let m₁ : Manager Address δ := { m with connections := (m.connections.insert i p b .awaitingApproval).2 }
  have hrem : Medium.remoteAddress n a p = (some b, n) := by
    obtain ⟨l, hl, hwire⟩ := Network.link?_of_wire? hw
    obtain ⟨rfl, -⟩ := Wire.mk.inj hwire
    show (n.remoteAddress a p, n) = _
    rw [Network.remoteAddress, hl]
    rfl
  have hgranted : m₁.approve n a id p = (m₁.setPhase id .approved, n') := by
    have hphase : m₁.phase? id = some .awaitingApproval := by
      rw [phase?, hget]
      rfl
    unfold Manager.approve
    rw [if_neg fun hne => hne hphase, show Medium.approve n a p = (.ok (), n') from happrove]
  have heq : m.handleApproval n i a p = (m₁.setPhase id .approved, n') := by
    unfold handleApproval enroll
    rw [hs, hf]
    dsimp only
    rw [hrem]
    exact hgranted
  have hsettles := ht.settles (approve_settles hwired hget hs rfl rfl rfl hpend n a p)
  rw [show Manager.approve _ n a _ p = _ from hgranted] at hsettles
  have hget' := get?_modifyConnection hget fun c => { c with phase := .approved }
  have hat' := (hm.of_settles hsettles).at?_of_get? (h := a) (hsettles.transports ▸ hnodup) hget' hi
  dsimp only
  rw [heq]
  exact ⟨rfl, rfl, _, hat', rfl⟩

theorem handleApproval_asked (hm : m.Sound) (hnodup : m.transports.Nodup) (hs : m.isServer = true)
    (hi : m.transports[i]? = some a) (hat : m.at? a p = none) (hn : n.Sound)
    (hw : n.wire? a p = some ⟨b, q, .awaitingApproval⟩) (hnear : n.notes a p = []) (hfar : n.notes b q = []) :
    let r := m.handleApproval n i a p
    ∃ c, r.1.at? a p = some c ∧ c.phase = .approved ∧ r.1.strings = m.strings ∧
      r.2.wire? a p = some ⟨b, q, .connected⟩ ∧ r.2.notes a p = [.up] ∧ r.2.notes b q = [.up] := by
  obtain ⟨n', happrove, -, hw', hperm, hperm'⟩ := hn.approve hw
  rw [hnear] at hperm
  rw [hfar] at hperm'
  obtain ⟨hnet, hstrings, c, hat', hphase⟩ := handleApproval_present hm hnodup hs hi hat hw happrove
  dsimp only
  rw [hnet]
  exact ⟨c, hat', hphase, hstrings, hw', List.perm_singleton.mp hperm, List.perm_singleton.mp hperm'⟩

theorem handleConnected_approved (hh : Holds m n i a p c b q) (hs : m.isServer = true) (hph : c.phase = .approved) :
    let r := m.handleConnected n i p
    r.2 = n ∧ r.1.strings = m.strings ∧ r.1.at? a p = some { c with phase := .awaitingUsername } := by
  have hin := (hh.sound c.id).phase hh.get?
  have hside := side_eq_server hs
  have heq : m.handleConnected n i p = ((m.setPhase c.id .awaitingUsername).expect c.id .username, n) := by
    simp only [handleConnected, hh.find?, Option.bind_some, hh.get?, hside, hph]
  have hget' := get?_modifyConnection hh.get? fun c => { c with phase := .awaitingUsername }
  have hsettles : Settles m ((m.setPhase c.id .awaitingUsername).expect c.id .username) c.id := by
    simp only [Connection.InPhase, hside, hph] at hin
    refine (Touched.setPhase m c.id _).settles ⟨.expect _ _ _, ?_⟩
    refine Wired.soundAt (((hh.sound c.id).toWired.setPhase _).of_eq rfl rfl) hget' ?_
    simp [Connection.InPhase, setPhase, hside, hin]
  dsimp only
  rw [heq]
  exact ⟨rfl, rfl, (hh.at?_eq hsettles).trans hget'⟩

/-- The next packet of a connection that waits for a frame is that frame. -/
theorem handleData_awaited (hh : Holds m n i a p c b q) {f : PendingFrame} (hf : m.pending.get? c.id = some f)
    (bs : Bytes) : m.handleData n i p bs = (m.clearPending c.id).receiveHandshake n c.id f bs ∧
      Settles m (m.handleData n i p bs).1 c.id := by
  have heq : m.handleData n i p bs = (m.clearPending c.id).receiveHandshake n c.id f bs := by
    simp only [handleData, hh.find?, hf]
  exact ⟨heq, heq ▸ receiveHandshake_settles hh.sound hh.get? hf n bs⟩

theorem handleData_username (hh : Holds m n i a p c b q) (hs : m.isServer = true) (hph : c.phase = .awaitingUsername)
    (hfar : n.notes b q = []) (bs : Bytes) :
    let r := m.handleData n i p bs
    Ends r.1 r.2 a p ∨ ∃ name, name ≠ "" ∧ r.1.strings = m.strings ∧
      r.1.at? a p = some { c with session := some name, phase := .awaitingAck } ∧
      r.2.wire? a p = some ⟨b, q, .connected⟩ ∧ r.2.notes a p = n.notes a p ∧
      r.2.notes b q = [.frame (textBytes name)] := by
  have hin := (hh.sound c.id).phase hh.get?
  simp only [Connection.InPhase, side_eq_server hs, hph] at hin
  obtain ⟨heq, hsettles⟩ := handleData_awaited hh hin.1 bs
  obtain ⟨hook, ⟨reason, hrec⟩ | ⟨requested, name, -, hvalid, hname, -, hrec⟩⟩ :=
    receiveUsername_cases (m := m.clearPending c.id) (show _ = some c from hh.get?) n bs
  · left
    have hcarries : Carries { m.clearPending c.id with hook := hook } c.id a p := hh.carries
    have hreject : m.handleData n i p bs = _ := heq.trans (hrec.trans (reject_of_carries hcarries hh.get? n reason))
    rw [hreject] at hsettles ⊢
    exact hh.ends hsettles hh.net rfl
  · right
    have hne : name ≠ "" := hname ▸ SessionName.resolve_ne_empty (Username.ne_empty_of_valid hvalid) _
    obtain ⟨n', hsend, -, hw', hnear, hfar'⟩ := hh.send (d := .ordered) rfl (textBytes name) (by rw [hfar]; simp)
    let m₁ := modifyConnection { m.clearPending c.id with hook := hook } c.id fun c =>
      { c with session := some name, phase := .awaitingAck }
    have hget' : m₁.connections.get? c.id = some { c with session := some name, phase := .awaitingAck } :=
      get?_modifyConnection hh.get? _
    have hassign : m.handleData n i p bs = (m₁.expect c.id .ack, n') := by
      refine heq.trans (hrec.trans ?_)
      have hcarries : Carries m c.id a p := hh.carries
      have hsend' : m₁.sendTo n c (textBytes name) .ordered = (.ok (), n') :=
        (sendTo_of_carries hcarries hh.get? ..).trans hsend
      unfold assignName
      dsimp only
      rw [hsend']
    rw [hassign] at hsettles ⊢
    refine ⟨name, hne, rfl, (hh.at?_eq hsettles).trans hget', hw', hnear, ?_⟩
    rw [hfar', hfar, List.nil_append]

theorem handleData_ack (hh : Holds m n i a p c b q) (hs : m.isServer = true) (hph : c.phase = .awaitingAck)
    (hfar : n.notes b q = []) :
    let r := m.handleData n i p (textBytes ackText)
    Ends r.1 r.2 a p ∨ ∃ payload s, MessageType.stringTable.encode m.strings.entries = .ok payload ∧
      r.1.strings = m.strings.lock ∧ r.1.at? a p = some s ∧ s.phase = .connected ∧ s.session = c.session ∧
      r.2.wire? a p = some ⟨b, q, .connected⟩ ∧ r.2.notes a p = n.notes a p ∧
      r.2.notes b q = [.frame (Frame.encode StringTable.bootstrapId payload)] := by
  have hin := (hh.sound c.id).phase hh.get?
  simp only [Connection.InPhase, side_eq_server hs, hph] at hin
  obtain ⟨hpend, hsome, -⟩ := hin
  obtain ⟨name, hname⟩ := Option.isSome_iff_exists.mp hsome
  obtain ⟨heq, hsettles⟩ := handleData_awaited hh hpend (textBytes ackText)
  let m₁ := openChannel (m.clearPending c.id) c name
  let m₂ : Manager Address δ := { m₁ with strings := m₁.strings.lock }
  have hget' : m₁.connections.get? c.id = some { c with
      session := some name, channel := some ⟨c.id, name, c.remote⟩, phase := .connected } :=
    get?_modifyConnection hh.get? _
  have hcarries : Carries m₁ c.id a p := by
    have hcleared : Carries (m.clearPending c.id) c.id a p := hh.carries
    exact hcleared.touched (.modify _ c.id fun _ => ⟨rfl, rfl⟩) hh.get?
  have hget : (m.clearPending c.id).connections.get? c.id = some c := hh.get?
  cases hencode : MessageType.stringTable.encode m.strings.entries with
  | error e =>
    left
    have hreject := heq.trans (receiveAck_of_error hget hname (sendStringTable_of_error (m := m₁) hget' hencode n))
    rw [hreject.trans (reject_of_carries (m := m₂) hcarries hget' n _)] at hsettles ⊢
    exact hh.ends hsettles hh.net rfl
  | ok payload =>
    right
    obtain ⟨n', hsent, -, hw', hnear, hfar'⟩ := hh.send (d := .ordered) rfl
      (Frame.encode StringTable.bootstrapId payload) (by rw [hfar]; simp)
    rw [heq.trans (receiveAck_of_ok hget hname (sendStringTable_of_ok (m := m₁) hcarries hget' hencode hsent))]
      at hsettles ⊢
    refine ⟨payload, _, rfl, rfl, (hh.at?_eq hsettles).trans hget', rfl, hname.symm, hw', hnear, ?_⟩
    rw [hfar', hfar, List.nil_append]

/-! ### Client -/

theorem handleConnected_connecting (hh : Holds m n i a p c b q) (hs : m.isServer = false) (hph : c.phase = .connecting)
    (hstatus : ∀ note ∈ n.notes b q, note.isStatus = true) :
    let r := m.handleConnected n i p
    r.1.strings = m.strings ∧ r.1.at? a p = some { c with phase := .awaitingAssignedName } ∧
      r.2.wire? a p = some ⟨b, q, .connected⟩ ∧ r.2.notes a p = n.notes a p ∧
      r.2.notes b q = n.notes b q ++ [.frame (textBytes m.username)] := by
  have hin := (hh.sound c.id).phase hh.get?
  have hside := side_eq_client hs
  simp only [Connection.InPhase, hside, hph] at hin
  obtain ⟨n', hsend, -, hw', hnear, hfar⟩ := hh.send (d := .ordered) rfl (textBytes m.username) hstatus
  have hsend' : m.sendTo n c (textBytes m.username) .ordered = (.ok (), n') :=
    (sendTo_of_carries hh.carries hh.get? ..).trans hsend
  have heq : m.handleConnected n i p =
      ((m.setPhase c.id .awaitingAssignedName).expect c.id .assignedName, n') := by
    simp only [handleConnected, hh.find?, Option.bind_some, hh.get?, hside, hph, sendUsername, hsend']
  have hget' := get?_modifyConnection hh.get? fun c => { c with phase := .awaitingAssignedName }
  have hsettles := sendUsername_settles (hh.sound c.id).toWired hh.get? hs hin.2.1 hin.2.2 n
  rw [sendUsername, hsend'] at hsettles
  dsimp only
  rw [heq]
  exact ⟨rfl, (hh.at?_eq hsettles).trans hget', hw', hnear, hfar⟩

theorem handleData_assignedName (hh : Holds m n i a p c b q) (hs : m.isServer = false)
    (hph : c.phase = .awaitingAssignedName) (hfar : n.notes b q = []) {name : String} (hne : name ≠ "") :
    let r := m.handleData n i p (textBytes name)
    ∃ c', r.1.strings = m.strings ∧ r.1.at? a p = some c' ∧ c'.phase = .connected ∧ c'.session = some name ∧
      r.2.wire? a p = some ⟨b, q, .connected⟩ ∧ r.2.notes a p = n.notes a p ∧
      r.2.notes b q = [.frame (textBytes ackText)] := by
  have hin := (hh.sound c.id).phase hh.get?
  simp only [Connection.InPhase, side_eq_client hs, hph] at hin
  obtain ⟨heq, hsettles⟩ := handleData_awaited hh hin.1 (textBytes name)
  obtain ⟨n', hsend, -, hw', hnear, hfar'⟩ := hh.send (d := .ordered) rfl (textBytes ackText) (by rw [hfar]; simp)
  have hget : (m.clearPending c.id).connections.get? c.id = some c := hh.get?
  have hcarries : Carries (m.clearPending c.id) c.id a p := hh.carries
  have hname : (textOfBytes? (textBytes name)).filter (!·.isEmpty) = some name := by
    rw [textOfBytes?_textBytes, Option.filter_some, if_pos]
    simpa using hne
  have hopen : m.handleData n i p (textBytes name) =
      (((m.clearPending c.id).openChannel c name).pushEvent (.connected c.id name c.remote), n') := by
    rw [heq, receiveHandshake, receiveAssignedName, hname]
    dsimp only
    rw [hget]
    dsimp only
    rw [sendTo_of_carries hcarries hget, hsend]
  have hget' : ((m.clearPending c.id).openChannel c name).connections.get? c.id = some { c with
      session := some name, channel := some ⟨c.id, name, c.remote⟩, phase := .connected } :=
    get?_modifyConnection hget _
  dsimp only
  rw [hopen] at hsettles ⊢
  refine ⟨_, rfl, (hh.at?_eq hsettles).trans hget', rfl, rfl, hw', hnear, ?_⟩
  rw [hfar', hfar, List.nil_append]

/-! ### Channels -/

/-- What comes on a channel changes no connection. -/
theorem handleData_channel (hh : Holds m n i a p c b q) (hph : c.phase = .connected) (bs : Bytes) : ∃ ch,
    m.handleData n i p bs = (m.receiveFrame ch bs, n) ∧ (m.receiveFrame ch bs).at? a p = some c := by
  have hin := (hh.sound c.id).phase hh.get?
  have hpend : m.pending.get? c.id = none ∧ ∃ ch, c.channel = some ch := by
    simp only [Connection.InPhase, hph] at hin
    obtain ⟨hnone, name, -, hch⟩ := hin
    exact ⟨hnone, _, hch⟩
  obtain ⟨hnone, ch, hch⟩ := hpend
  have hchannel : m.channel? c.id = some ch := by rw [channel?, hh.get?]; exact hch
  refine ⟨ch, by simp only [handleData, hh.find?, hnone, hchannel], ?_⟩
  have hsettles := receiveFrame_settles (hh.sound c.id) ch bs
  obtain ⟨strings, received, heq, -⟩ := m.receiveFrame_eq ch bs
  rw [hh.at?_eq hsettles, heq]
  exact hh.get?

theorem strings_receiveFrame {ch : Channel} {x : UInt8} {payload : Bytes} (hx : x ≠ StringTable.bootstrapId) :
    (m.receiveFrame ch (x :: payload)).strings = m.strings := by
  rw [receiveFrame_message hx]

/-- A client takes over the table that a frame carries, and nothing else comes of it. -/
theorem receiveFrame_table (hs : m.isServer = false) {table : StringTable} (ht : table.Sound) {payload : Bytes}
    (hencode : MessageType.stringTable.encode table.entries = .ok payload) (ch : Channel) :
    m.receiveFrame ch (Frame.encode StringTable.bootstrapId payload) = { m with strings := table.lock } := by
  rw [Frame.encode, receiveFrame_bootstrap, receiveStringTable, hs, if_neg Bool.false_ne_true,
    MessageType.stringTable_decode_encode hencode]
  dsimp only
  rw [ht.replace_entries]
  rfl

theorem strings_receiveFrame_table (hs : m.isServer = false) {table : StringTable} (ht : table.Sound) {payload : Bytes}
    (hencode : MessageType.stringTable.encode table.entries = .ok payload) (ch : Channel) :
    (m.receiveFrame ch (Frame.encode StringTable.bootstrapId payload)).strings = table.lock := by
  rw [receiveFrame_table hs ht hencode]

/-! ### The talk goes on, or it ends -/

/-- What a server does when an event reaches it across a link. -/
theorem Sound.talk_server (hm : m.Sound) (hnodup : m.transports.Nodup) (hs : m.isServer = true)
    (hi : m.transports[i]? = some a) (hn : n.Sound) (hw : n.wire? a p = some ⟨b, q, st⟩) {e : TransportEvent}
    (hp : e.peer = p) (ht : Talk m.strings own st (m.at? a p) other (e.note :: n.notes a p) (n.notes b q)) :
    let r := m.handleEvent n i a e
    Ends r.1 r.2 a p ∨ ∃ st', r.2.wire? a p = some ⟨b, q, st'⟩ ∧
      Talk r.1.strings own st' (r.1.at? a p) other (r.2.notes a p) (r.2.notes b q) := by
  have hholds : ∀ {c st'}, m.at? a p = some c → st = st' → st' = .connected → Holds m n i a p c b q := by
    rintro c st' hat rfl rfl
    exact ⟨hm, hnodup, hi, hat, hn, hw⟩
  generalize hat : m.at? a p = seat at ht
  generalize hup : e.note :: n.notes a p = up at ht
  generalize hdown : n.notes b q = down at ht
  cases ht with
  | asked phase new =>
    obtain ⟨hnote, hnil⟩ := List.cons.inj hup
    cases e with
    | approvalRequest p' =>
      obtain rfl : p' = p := hp
      obtain ⟨s, hs', hph, hstr, hw', hnear, hfar⟩ := handleApproval_asked hm hnodup hs hi hat hn hw hnil hdown
      refine Or.inr ⟨_, hw', ?_⟩
      rw [handleEvent, hs', hstr, hnear, hfar]
      exact .approved (h := [.up]) (d := []) (hph ▸ .notYet) (phase ▸ .notYet) new
    | _ => cases hnote
  | approved server client new =>
    have hh := hholds hat rfl rfl
    rcases server.cases with ⟨hph, rfl⟩ | ⟨hph, rfl⟩
    · obtain ⟨hnote, hsaid⟩ := List.cons.inj hup
      cases e with
      | connected p' reason =>
        obtain rfl : p' = p := hp
        obtain ⟨hnet, hstr, hat'⟩ := handleConnected_approved hh hs hph
        refine Or.inr ⟨.connected, ?_, ?_⟩
        · rw [handleEvent, hnet, hw]
        · rw [handleEvent, hnet, hstr, hat', hsaid, hdown]
          exact .approved (h := []) .up client new
      | _ => cases hnote
    · rcases client.cases with ⟨-, -, rfl⟩ | ⟨bs, hph', rfl, rfl⟩
      · cases hup
      · obtain ⟨hnote, hnil⟩ := List.cons.inj hup
        cases e with
        | data p' bs' =>
          obtain rfl : p' = p := hp
          rcases handleData_username hh hs hph hdown bs' with hends | ⟨name, hne, hstr, hat', hw', hnear, hfar⟩
          · exact Or.inl hends
          · refine Or.inr ⟨_, hw', ?_⟩
            rw [handleEvent, hstr, hat', hnear, hfar, hnil]
            exact .named rfl rfl hne hph' new
        | _ => cases hnote
  | named server session nonempty client new => cases hup
  | acked server session client new =>
    have hh := hholds hat rfl rfl
    obtain ⟨hnote, hnil⟩ := List.cons.inj hup
    cases e with
    | data p' bs =>
      obtain rfl : p' = p := hp
      obtain rfl : bs = textBytes ackText := Note.frame.inj hnote
      rcases handleData_ack hh hs server hdown with
        hends | ⟨payload, s, hencode, hstr, hat', hph, hsame, hw', hnear, hfar⟩
      · exact Or.inl hends
      · refine Or.inr ⟨_, hw', ?_⟩
        rw [handleEvent, hstr, hat', hnear, hfar, hnil]
        exact .settling hph (hsame.trans session) client new rfl hencode (.refl _) (fun _ hx => absurd hx List.not_mem_nil)
    | _ => cases hnote
  | settling server session client new locked encoded perm all => cases hup
  | settled server session client names locked frames all =>
    have hh := hholds hat rfl rfl
    subst hup hdown
    cases e with
    | data p' bs =>
      obtain rfl : p' = p := hp
      obtain ⟨ch, heq, hat'⟩ := handleData_channel hh server bs
      obtain ⟨strings, received, hframe, hstr⟩ := m.receiveFrame_eq ch bs
      have hsame : (m.receiveFrame ch bs).strings = m.strings := by rw [hframe]; exact hstr hs
      refine Or.inr ⟨.connected, ?_, ?_⟩
      · rw [handleEvent, heq, hw]
      · rw [handleEvent, heq, hat', hsame]
        exact .settled server session client names locked (fun y hy => frames y (List.mem_cons_of_mem _ hy)) all
    | _ => cases frames _ List.mem_cons_self

/-- What a client does when an event reaches it across a link. -/
theorem Sound.talk_client (hm : m.Sound) (hnodup : m.transports.Nodup) (hs : m.isServer = false)
    (hi : m.transports[i]? = some a) (hn : n.Sound) (hw : n.wire? a p = some ⟨b, q, st⟩) {e : TransportEvent}
    (hp : e.peer = p) {table : StringTable} (htable : table.Sound)
    (ht : Talk table m.strings st other (m.at? a p) (n.notes b q) (e.note :: n.notes a p)) :
    let r := m.handleEvent n i a e
    r.2.wire? a p = some ⟨b, q, st⟩ ∧
      Talk table r.1.strings st other (r.1.at? a p) (r.2.notes b q) (r.2.notes a p) := by
  have hholds : ∀ {c st'}, m.at? a p = some c → st = st' → st' = .connected → Holds m n i a p c b q := by
    rintro c st' hat rfl rfl
    exact ⟨hm, hnodup, hi, hat, hn, hw⟩
  generalize hat : m.at? a p = seat at ht
  generalize hdown : e.note :: n.notes a p = down at ht
  generalize hup : n.notes b q = up at ht
  generalize hown : m.strings = own at ht
  cases ht with
  | asked phase new => cases hdown
  | approved server client new =>
    have hh := hholds hat rfl rfl
    rcases client.cases with ⟨hph, rfl, rfl⟩ | ⟨bs, -, rfl, -⟩
    · obtain ⟨hnote, hnil⟩ := List.cons.inj hdown
      rename_i heard
      have hheard : ∀ note ∈ heard, note.isStatus = true := by
        rcases server.cases with ⟨-, rfl⟩ | ⟨-, rfl⟩ <;> simp [Note.isStatus]
      rw [List.append_nil] at hup
      cases e with
      | connected p' reason =>
        obtain rfl : p' = p := hp
        obtain ⟨hstr, hat', hw', hnear, hfar⟩ := handleConnected_connecting hh hs hph (hup ▸ hheard)
        refine ⟨hw', ?_⟩
        rw [handleEvent, hstr, hat', hnear, hnil, hfar, hup, hown]
        exact .approved server (.username _) new
      | _ => cases hnote
    · cases hdown
  | named server session nonempty client new =>
    have hh := hholds hat rfl rfl
    obtain ⟨hnote, hnil⟩ := List.cons.inj hdown
    cases e with
    | data p' bs =>
      obtain rfl : p' = p := hp
      obtain rfl := Note.frame.inj hnote
      obtain ⟨c', hstr, hat', hph, hses, hw', hnear, hfar⟩ := handleData_assignedName hh hs client hup nonempty
      refine ⟨hw', ?_⟩
      rw [handleEvent, hstr, hat', hnear, hnil, hfar, hown]
      exact .acked server (session.trans hses.symm) hph new
    | _ => cases hnote
  | acked server session client new => cases hdown
  | settling server session client new locked encoded perm all =>
    have hh := hholds hat rfl rfl
    subst hdown
    cases e with
    | data p' bs =>
      obtain rfl : p' = p := hp
      obtain ⟨ch, heq, hat'⟩ := handleData_channel hh client bs
      refine ⟨by rw [handleEvent, heq, hw], ?_⟩
      rw [handleEvent, heq, hat', hup]
      rcases Note.next_cases perm all with ⟨htab, hall⟩ | ⟨⟨x, rest, hbs, hx⟩, messages, hrest, hall⟩
      · -- The table itself has come.
        obtain rfl := Note.frame.inj htab
        have hnames := congrArg StringTable.names (strings_receiveFrame_table hs htable encoded ch)
        exact .settled server session client hnames locked (fun _ hx => absurd hx List.not_mem_nil) hall
      · -- A message has overtaken it.
        obtain rfl := Note.frame.inj hbs
        rw [strings_receiveFrame hx, hown]
        exact .settling server session client new locked encoded hrest hall
    | _ =>
      rcases Note.next_cases perm all with ⟨htab, -⟩ | ⟨⟨x, rest, hbs, -⟩, -⟩
      · cases htab
      · cases hbs
  | settled server session client names locked frames all =>
    have hh := hholds hat rfl rfl
    subst hdown
    obtain ⟨x, rest, hbs, hx⟩ := all _ List.mem_cons_self
    cases e with
    | data p' bs =>
      obtain rfl : p' = p := hp
      obtain rfl := Note.frame.inj hbs
      obtain ⟨ch, heq, hat'⟩ := handleData_channel hh client (x :: rest)
      refine ⟨by rw [handleEvent, heq, hw], ?_⟩
      rw [handleEvent, heq, hat', strings_receiveFrame hx, hup, hown]
      exact .settled server session client names locked frames fun y hy => all y (List.mem_cons_of_mem _ hy)
    | _ => cases hbs

end StateSync.Manager
