import StateSync.Proofs.System.Draining
import StateSync.Proofs.System.Service
import StateSync.Proofs.System.Opening
import StateSync.Proofs.Transport.Others

/-! The connections of a server and the links at its transports, on a network on which anybody else does what they like.
    A connection without its link is about to be told so, and a link without a connection is about to ask for one
    (`Attends`). When all events that are due have been handled, connections and links are the same
    (`attend_links`). -/

namespace StateSync
open Network (Act Cut Deals Drained Grown Quiet Spares)

variable {δ : Type}

/-- The endpoint that somebody other than the server has a hand on in a turn. -/
def Turn.site : Turn δ → Option Address
  | .call (.connect h _ _) _ => some h
  | .call _ _ => none
  | .act x => x.site

namespace Manager
variable {m m' : Manager Address δ} {n n' : Network} {a b : Address} {p q : Peer} {i : Nat} {e : TransportEvent}
  {c : Connection} {id : ConnectionId} {w : Wire}

/-! ### The end that an event is about -/

/-- The handling of an event takes the link down together with the connection, or leaves both. A request that waits
    still waits. -/
theorem Response.at_link (hr : m.Response n i a e m' n') (hn : n.Sound) (hw : n.wire? a e.peer = some w) :
    ((∃ w', n'.wire? a e.peer = some w') ∧ (.asks ∈ n.notes a e.peer → .asks ∈ n'.notes a e.peer) ∧
        (e.note ≠ .down → m.Retains m' i e.peer)) ∨
      (n'.wire? a e.peer = none ∧ m.Drops m' i e.peer) := by
  have hnew : m.connections.find? i e.peer = none → m.Retains m' i e.peer := fun hnone id hf =>
    (nomatch hnone.symm.trans hf)
  cases hr with
  | silent kept => exact Or.inl ⟨⟨w, hw⟩, id, kept⟩
  | declined server new => exact Or.inl ⟨⟨w, hw⟩, id, fun _ => hnew new⟩
  | granted server new =>
    have hwire : ∃ w', (n.approve a e.peer).2.wire? a e.peer = some w' := by
      obtain ⟨b, q, st⟩ := w
      cases st with
      | connected =>
        rw [Network.approve_connected hw]
        exact ⟨_, hw⟩
      | awaitingApproval =>
        obtain ⟨n₁, heq, -, hw₁, -⟩ := hn.approve hw
        rw [heq]
        exact ⟨_, hw₁⟩
    exact Or.inl ⟨hwire, hn.asks_approve, fun _ => hnew new⟩
  | said words kept =>
    refine Or.inl ⟨⟨w, ?_⟩, Network.asks_send _ _, fun _ => kept⟩
    exact ((hn.send_reaches a e.peer _ _).1 a e.peer).trans hw
  | hungUp ended => exact Or.inr ⟨(hn.severs a e.peer _).near, ended⟩
  | broke words ended =>
    exact Or.inr ⟨((hn.deals_send a e.peer _ .ordered).sound.severs a e.peer _).near, ended⟩

theorem Handles.at?_of_drops (hh : Handles m m' i p id) (hm : m.Sound) (hnodup : m.transports.Nodup)
    (hi : m.transports[i]? = some a) (hd : m.Drops m' i p) : m'.at? a p = none := by
  obtain ⟨j, hf, hgone⟩ := hd
  have hj : j = id := by
    by_contra hne
    obtain ⟨c, hc, -⟩ := (hm j).found hf
    exact (nomatch (hh.connections.get? hne).symm.trans hgone |>.symm.trans hc)
  rw [hh.at?_eq hm hnodup hi fun hf' => (Option.some.inj (hf'.symm.trans hf)).trans hj, ← hj, hgone]

theorem Handles.at?_of_retains (hh : Handles m m' i p id) (hm : m.Sound) (hnodup : m.transports.Nodup)
    (hi : m.transports[i]? = some a) (hat : m.at? a p = some c) (hk : m.Retains m' i p) : ∃ c', m'.at? a p = some c' := by
  obtain ⟨hget, hf, hplace⟩ := hm.seat hnodup hi hat
  obtain ⟨c', hc'⟩ := hk c.id hf
  have hplace' : c'.transport = i ∧ c'.peer = p := by
    by_cases hid : c.id = id
    · exact hh.after (hid ▸ hc')
    · rw [hh.connections.get? hid, hget] at hc'
      obtain rfl := Option.some.inj hc'
      exact hplace
  obtain ⟨rfl, rfl⟩ := hplace'
  have htransport : m'.transportOf? c' = some a := by
    rw [transportOf?, hh.transports]
    exact hi
  exact ⟨c', (hm.of_settles hh.toSettles).at?_of_get? (hh.transports ▸ hnodup) hc' htransport⟩

/-! ### The invariant -/

/-- What holds of a server between two events, whatever others do: a connection whose link is gone has a disconnection
    on its way, and a link without a connection a request. -/
structure Attends (m : Manager Address δ) (n : Network) : Prop where
  sound : m.Sound
  server : m.isServer = true
  net : n.Sound
  nodup : m.transports.Nodup
  bound : ∀ {a}, a ∈ m.transports → n.isBound a = true
  /-- No link joins two transports of the server. -/
  foreign : ∀ {a p b q st}, a ∈ m.transports → n.wire? a p = some ⟨b, q, st⟩ → b ∉ m.transports
  lost : ∀ {a p c}, m.at? a p = some c → n.wire? a p = none → .down ∈ n.notes a p
  linked : ∀ {a p w}, a ∈ m.transports → n.wire? a p = some w → (∃ c, m.at? a p = some c) ∨ .asks ∈ n.notes a p

namespace Attends

theorem create (settings : Settings) (luck : Nat → Luck) :
    (Manager.create .server settings : Manager Address δ).Attends (Network.create luck) where
  sound := sound_create .server settings
  server := rfl
  net := Network.sound_create luck
  nodup := List.nodup_nil
  bound h := by cases h
  foreign h := by cases h
  lost h := by
    rw [at?_of_no_transports rfl] at h
    cases h
  linked h := by cases h

theorem apart (h : m.Attends n) : m.Apart n := ⟨h.sound, h.net, h.nodup, h.foreign⟩

theorem not_atLink (h : m.Attends n) (ha : a ∈ m.transports) (hb : b ∈ m.transports) (hne : ¬ (b = a ∧ q = p)) :
    ¬ Network.AtLink n a p b q := h.apart.not_atLink ha hb hne

/-- A server that handles an event of one of its transports goes on attending. -/
theorem event (h : m.Attends n) (hi : m.transports[i]? = some a) {n₁ : Network} (hpoll : n.poll a = (some e, n₁)) :
    let r := m.handleEvent n₁ i a e
    r.1.Attends r.2 ∧ r.1.transports = m.transports := by
  intro r
  have ha := List.mem_of_getElem? hi
  obtain ⟨hn₁, -, hwire, hnotes⟩ := h.net.poll hpoll
  obtain ⟨id, hh⟩ := handleEvent_handles h.sound (List.getElem?_eq_some_iff.mp hi).1 n₁ a e
  have hdeals : Deals n r.2 a e.peer := (Deals.of_poll h.net hpoll).trans h.net (handleEvent_deals h.sound hi hn₁)
  have hresponse := handleEvent_responds h.sound hi n₁ e
  have hat : ∀ {b q}, ¬ (b = a ∧ q = e.peer) → r.1.at? b q = m.at? b q := fun hne =>
    hh.at?_of_ne h.sound h.nodup hi hne
  obtain ⟨hapart, htransports, -⟩ := h.apart.event hi hpoll
  refine ⟨⟨hapart.sound, ?_, hapart.net, hapart.nodup, fun {b} hb => ?_, hapart.foreign, fun {b q c} hc hnone => ?_,
    fun {b q w} hb hw => ?_⟩, htransports⟩
  · rw [isServer, hh.side]
    exact h.server
  · rw [htransports] at hb
    exact (hdeals.alike.isBound b).trans (h.bound hb)
  · by_cases hend : b = a ∧ q = e.peer
    · obtain ⟨rfl, rfl⟩ := hend
      cases hw : n.wire? b e.peer with
      | none => exact h.sound.lost_handleEvent h.nodup hi h.net hpoll hw (fun hat => h.lost hat hw) hc
      | some w =>
        rcases hresponse.at_link hn₁ ((hwire _ _).trans hw) with ⟨⟨w', hw'⟩, -⟩ | ⟨-, hdrops⟩
        · cases hnone.symm.trans hw'
        · cases (hh.at?_of_drops h.sound h.nodup hi hdrops).symm.trans hc
    · rw [hat hend] at hc
      have hlink := h.not_atLink ha (mem_transports_of_at? hc) hend
      rw [hdeals.alike.wire? hlink] at hnone
      rw [hdeals.alike.notes hlink]
      exact h.lost hc hnone
  · rw [htransports] at hb
    by_cases hend : b = a ∧ q = e.peer
    · obtain ⟨rfl, rfl⟩ := hend
      obtain ⟨st₀, hw₀⟩ := hdeals.leads (b := w.remote) (q := w.remotePeer) hw
      have hw₁ := (hwire b e.peer).trans hw₀
      obtain ⟨-, hasks, hretains⟩ := (hresponse.at_link hn₁ hw₁).resolve_right fun hgone => by
        cases hgone.1.symm.trans hw
      cases hc : m.at? b e.peer with
      | some c =>
        refine Or.inl (hh.at?_of_retains h.sound h.nodup hi hc (hretains fun hdown => ?_))
        exact h.net.not_down hw₀ (hnotes ▸ hdown ▸ List.mem_cons_self)
      | none =>
        have hask := (h.linked ha hw₀).resolve_left fun hsome => by
          obtain ⟨c, hc'⟩ := hsome
          cases hc.symm.trans hc'
        rw [hnotes] at hask
        rcases List.mem_cons.mp hask with heq | hask
        · -- The request is handled by now, and its link is there.
          cases e with
          | approvalRequest p =>
            obtain ⟨n', happrove⟩ : ∃ n', n₁.approve b p = (.ok (), n') := by
              cases st₀ with
              | connected => exact ⟨n₁, Network.approve_connected hw₁⟩
              | awaitingApproval =>
                obtain ⟨n', happrove, -⟩ := hn₁.approve hw₁
                exact ⟨n', happrove⟩
            obtain ⟨-, -, c, hc', -⟩ := handleApproval_present h.sound h.nodup h.server hi hc hw₁ happrove
            exact Or.inl ⟨c, hc'⟩
          | _ => cases heq
        · exact Or.inr (hasks hask)
    · have hlink := h.not_atLink ha hb hend
      rw [hdeals.alike.wire? hlink] at hw
      rw [hat hend, hdeals.alike.notes hlink]
      exact h.linked hb hw

theorem next (h : m.Attends n) (i : Nat) :
    let r := m.next n i
    r.1.Attends r.2 := by
  unfold Manager.next
  split
  · exact h
  · rename_i a hi
    split
    · rename_i n' hpoll
      obtain rfl := Network.poll_none hpoll
      exact h
    · rename_i e n' hpoll
      exact (h.event hi hpoll).1

/-- What others do is no matter. -/
theorem act (h : m.Attends n) (hs : Spares n n' (· ∈ m.transports)) : m.Attends n' where
  sound := h.sound
  server := h.server
  net := hs.sound
  nodup := h.nodup
  bound ha := hs.isBound ha (h.bound ha)
  foreign {a p b q st} ha hw hb := by
    rcases hs.leads ha hw with ⟨st', hw'⟩ | ⟨hb', -⟩
    · exact h.foreign ha hw' hb
    · exact hb' hb
  lost {a p c} hat hnone := by
    have ha := mem_transports_of_at? hat
    cases hw : n.wire? a p with
    | none => exact hs.down ha (h.lost hat hw)
    | some w => exact hs.lost ha hw hnone
  linked {a p w} ha hw := by
    rcases hs.leads (b := w.remote) (q := w.remotePeer) ha hw with ⟨st', hw'⟩ | ⟨-, -, hask⟩
    · exact (h.linked ha hw').imp_right (hs.asks ha hw)
    · exact Or.inr hask

/-- The server changes in nothing that a link has to do with, and does nothing to the network that is noticed. -/
theorem of_eq (h : m.Attends n) (hc : m'.connections = m.connections) (hp : m'.pending = m.pending)
    (hs : m'.side = m.side) (ht : m'.transports = m.transports) (hq : Quiet n n') : m'.Attends n' := by
  have hat : ∀ a p, m'.at? a p = m.at? a p := by
    intro a p
    rw [at?, hc, ht, at?]
  refine ⟨fun id => (h.sound id).of_eq hc hp hs ht, ?_, h.net.quiet hq, ht ▸ h.nodup, fun ha => ?_,
    fun ha hw => ?_, fun hc' hnone => ?_, fun ha hw => ?_⟩
  · rw [isServer, hs]
    exact h.server
  · rw [ht] at ha
    exact (hq.isBound _).trans (h.bound ha)
  · rw [ht] at ha ⊢
    exact h.foreign ha (hq.wire? _ _ ▸ hw)
  · rw [hat] at hc'
    rw [hq.wire?] at hnone
    rw [hq.notes]
    exact h.lost hc' hnone
  · rw [ht] at ha
    rw [hq.wire?] at hw
    rw [hat, hq.notes]
    exact h.linked ha hw

/-! ### Calls -/

theorem send (h : m.Attends n) (a : Address) (p : Peer) (bytes : Bytes) (d : Delivery) (ha : a ∈ m.transports) :
    m.Attends (n.send a p bytes d).2 := by
  obtain ⟨hwire, hnear, -⟩ := h.net.send_reaches a p bytes d
  have hdeals := h.net.deals_send a p bytes d
  have hnotes : ∀ {b q}, b ∈ m.transports → (n.send a p bytes d).2.notes b q = n.notes b q := by
    intro b q hb
    by_cases hend : b = a ∧ q = p
    · obtain ⟨rfl, rfl⟩ := hend
      exact hnear
    · exact hdeals.alike.notes (h.not_atLink ha hb hend)
  refine ⟨h.sound, h.server, hdeals.sound, h.nodup, fun hb => (hdeals.alike.isBound _).trans (h.bound hb),
    fun hb hw => h.foreign hb (hwire _ _ ▸ hw), fun hat hnone => ?_, fun hb hw => ?_⟩
  · rw [hwire] at hnone
    rw [hnotes (mem_transports_of_at? hat)]
    exact h.lost hat hnone
  · rw [hwire] at hw
    rw [hnotes hb]
    exact h.linked hb hw

theorem sendFrame (h : m.Attends n) (id : ConnectionId) (frame : Bytes) (d : Delivery) :
    m.Attends (m.sendFrame n id frame d).2 := by
  unfold Manager.sendFrame
  split
  · exact h
  · split
    · exact h
    · rename_i c _
      unfold sendTo
      split
      · exact h
      · rename_i a ha
        exact h.send a c.peer frame d (List.mem_of_getElem? ha)

theorem sendAll (h : m.Attends n) (frame : Bytes) (d : Delivery) (ids : List ConnectionId) :
    m.Attends (m.sendAll n frame d ids).2 := by
  induction ids generalizing n with
  | nil => exact h
  | cons id ids ih => exact ih (h.sendFrame id frame d)

theorem disconnect (h : m.Attends n) (id : ConnectionId) (reason : String) :
    let r := (m.disconnect n id reason).2
    r.1.Attends r.2 := by
  unfold Manager.disconnect
  split
  · rename_i hlive
    obtain ⟨c, hget⟩ := Option.isSome_iff_exists.mp hlive
    obtain ⟨a, hi⟩ : ∃ a, m.transports[c.transport]? = some a :=
      ⟨_, List.getElem?_eq_getElem ((h.sound id).carried hget)⟩
    have ha := List.mem_of_getElem? hi
    obtain ⟨hacts, hgone⟩ := acts_teardown h.sound h.nodup hget hi reason
    have hsevers := h.net.severs a c.peer reason
    rw [reject_of_carries (h.sound.carries hi ((h.sound id).entered hget)) hget]
    refine ⟨hacts.sound, ?_, hsevers.sound, hacts.transports ▸ h.nodup, fun {b} hb => ?_,
      fun {b q d s st} hb hw => ?_, fun {b q x} hx hnone => ?_, fun {b q w} hb hw => ?_⟩
    · exact hacts.isServer.trans h.server
    · rw [hacts.transports] at hb
      exact (hsevers.alike.isBound b).trans (h.bound hb)
    · rw [hacts.transports] at hb ⊢
      exact h.foreign hb (hsevers.kept hw).1
    · have hend : ¬ (b = a ∧ q = c.peer) := by
        rintro ⟨rfl, rfl⟩
        cases hgone.symm.trans hx
      rw [hacts.at? hend] at hx
      have hlink := h.not_atLink ha (mem_transports_of_at? hx) hend
      have hnone' : n.wire? b q = none := hsevers.alike.wire? hlink ▸ hnone
      have hdown := h.lost hx hnone'
      rw [← hsevers.alike.notes hlink] at hdown
      exact hdown
    · rw [hacts.transports] at hb
      have hend : ¬ (b = a ∧ q = c.peer) := by
        rintro ⟨rfl, rfl⟩
        cases hsevers.near.symm.trans hw
      obtain ⟨hw', hnotes⟩ := hsevers.kept hw
      have hlinked := h.linked hb hw'
      rw [← hacts.at? hend, ← hnotes] at hlinked
      exact hlinked
  · exact h

theorem shutdown (h : m.Attends n) (reason : String) :
    let r := m.shutdown n reason
    r.1.Attends r.2 := by
  intro r
  cases hrun : m.isRunning with
  | false =>
    have heq : r = (m, n) := by
      show m.shutdown n reason = _
      rw [Manager.shutdown, hrun, if_pos Bool.not_false]
    rw [heq]
    exact h
  | true =>
    obtain ⟨m', heq, htransports, -, hside⟩ := shutdown_eq hrun n reason
    have hadv : Advances m m' := by
      have hadv := shutdown_advances h.sound n reason
      rwa [heq] at hadv
    have hr : r = (m', _) := heq
    obtain ⟨-, hdown, -⟩ := h.net.shutdownAll m.transports reason
    rw [hr]
    refine ⟨hadv.sound, ?_, (hdown.closeAll m.transports).2.1, htransports ▸ List.nodup_nil, fun ha => ?_,
      fun ha _ => ?_, fun hc _ => ?_, fun ha _ => ?_⟩
    · rw [isServer, hside]
      exact h.server
    · rw [htransports] at ha
      cases ha
    · rw [htransports] at ha
      cases ha
    · rw [at?_of_no_transports htransports] at hc
      cases hc
    · rw [htransports] at ha
      cases ha

theorem start (h : m.Attends n) :
    let r := (m.start n).2
    r.1.Attends r.2 := by
  unfold Manager.start
  split
  · exact h
  · split
    · exact h
    · rename_i hrun
      have hnone := h.sound.get?_of_not_running hrun
      split
      · exact h
      · rename_i addrs _
        rcases (Grown.refl h.net).openAll List.nodup_nil m.settings addrs with
          ⟨hs, n', hopen, hgrown, hnodup⟩ | ⟨e, n', hopen, -, hsound, -⟩
        · rw [hopen]
          have hadv : Advances m { m with transports := hs } := .of_idle h.sound hnone rfl rfl rfl
          have hidle := hadv.sound.at?_of_idle hnodup hnone
          -- A transport that has just been opened has no links.
          have hcold : ∀ {a p}, a ∈ hs → n'.wire? a p = none := fun {a p} ha =>
            (hgrown.wire? a p).trans (Network.wire?_of_not_bound (hgrown.free a ha) p)
          exact ⟨hadv.sound, h.server, hgrown.sound, hnodup, fun ha => (hgrown.isBound _).mpr (Or.inr ha),
            fun ha hw => (nomatch (hcold ha).symm.trans hw), fun hc _ => (nomatch (hidle _ _).symm.trans hc),
            fun ha hw => (nomatch (hcold ha).symm.trans hw)⟩
        · rw [hopen]
          have hnil : m.transports = [] := by simpa [isRunning] using hrun
          refine ⟨h.sound, h.server, hsound, h.nodup, fun ha => ?_, fun ha _ => ?_, fun hc _ => ?_, fun ha _ => ?_⟩
          · rw [hnil] at ha
            cases ha
          · rw [hnil] at ha
            cases ha
          · rw [at?_of_no_transports hnil] at hc
            cases hc
          · rw [hnil] at ha
            cases ha

theorem changeSetting (h : m.Attends n) (key value : String) :
    let r := (m.changeSetting n key value).2
    r.1.Attends r.2 := by
  unfold Manager.changeSetting
  split
  · exact h.of_eq rfl rfl rfl rfl (.refl n)
  · exact h.of_eq rfl rfl rfl rfl (Network.tuneAll_quiet n _ m.transports)

theorem register (h : m.Attends n) {α : Type} (t : MessageType α) (receive : Option (α → δ)) :
    ((m.register t receive).toOption.getD m).Attends n := by
  cases hr : m.register t receive with
  | error e => exact h
  | ok m' =>
    obtain ⟨strings, registry, rfl, -⟩ := register_eq hr
    exact h.of_eq rfl rfl rfl rfl (.refl n)

/-! ### Draining -/

/-- When a server has handled its events, none is due at any of its transports. -/
theorem process (h : m.Attends n) :
    let r := m.process n
    r.1.Attends r.2 ∧ r.1.transports = m.transports ∧ ∀ {b}, b ∈ m.transports → r.2.Drained b := by
  intro r
  obtain ⟨-, htransports, -, hdrained, -⟩ := h.apart.process
  exact ⟨process_induction (P := Attends) h.sound h fun i _ h => h.next i, htransports, hdrained⟩

end Attends

/-! ### Turns -/

/-- A turn of a server on its network. Nobody else has a hand on the transports of a server, so a turn at one of them
    is none. -/
def attend (s : Manager Address δ × Network) (t : Turn δ) : Manager Address δ × Network :=
  if t.site.any (· ∈ s.1.transports) then s
  else
    match t with
    | .call c _ => perform s c
    | .act x => (s.1, s.2.act x)

namespace Attends

theorem perform (h : m.Attends n) {c : Call Network Address δ} (hin : c.IsInside)
    (hc : ∀ a, (Turn.call c hin).site = some a → a ∉ m.transports) :
    let r := Manager.perform (m, n) c
    r.1.Attends r.2 := by
  cases c with
  | start => exact h.start
  | connect a remote username =>
    rw [Manager.perform, connect, if_pos h.server]
    exact h.act (h.net.spares_close (hc a rfl))
  | next i => exact h.next i
  | process => exact h.process.1
  | disconnect id reason => exact h.disconnect id reason
  | send id t x =>
    rw [Manager.perform, Manager.send]
    split
    · exact h
    · exact h.sendFrame id _ _
  | broadcast t x =>
    rw [Manager.perform, Manager.broadcast]
    split
    · exact h
    · exact h.sendAll _ _ _
  | shutdown reason => exact h.shutdown reason
  | register t receive => exact h.register t receive
  | setHook hook => exact h.of_eq rfl rfl rfl rfl (.refl n)
  | changeSetting key value => exact h.changeSetting key value
  | takeEvents => exact h.of_eq rfl rfl rfl rfl (.refl n)
  | takeReceived => exact h.of_eq rfl rfl rfl rfl (.refl n)
  | outside n' => cases hin

theorem turn (h : m.Attends n) (t : Turn δ) :
    let r := attend (m, n) t
    r.1.Attends r.2 := by
  unfold attend
  split
  · exact h
  · rename_i hsite
    have hsite' : ∀ a, t.site = some a → a ∉ m.transports := by
      intro a ha hmem
      rw [ha] at hsite
      exact hsite (decide_eq_true hmem)
    cases t with
    | call c hin => exact h.perform hin hsite'
    | act x => exact h.act (h.net.spares x hsite')

theorem turns {s : Manager Address δ × Network} (h : s.1.Attends s.2) (ts : List (Turn δ)) :
    let r := ts.foldl attend s
    r.1.Attends r.2 := by
  induction ts generalizing s with
  | nil => exact h
  | cons t ts ih => exact ih (h.turn t)

/-! ### Connections and links -/

theorem live_linked (h : m.Attends n) (hget : m.connections.get? id = some c) : ∃ a, m.transportOf? c = some a ∧
    ((n.link? a c.peer).isSome ∨ ∃ x ∈ n.inbox a, ∃ reason, x.event = .disconnected c.peer reason) := by
  obtain ⟨a, ha⟩ : ∃ a, m.transportOf? c = some a := ⟨_, List.getElem?_eq_getElem ((h.sound id).carried hget)⟩
  refine ⟨a, ha, ?_⟩
  cases hl : n.link? a c.peer with
  | some l => exact Or.inl rfl
  | none =>
    have hdown := h.lost (h.sound.at?_of_get? h.nodup hget ha) (Option.map_eq_none_iff.mpr hl)
    obtain ⟨x, hx, hpeer, hnote⟩ := mem_notesFor.mp hdown
    refine Or.inr ⟨x, hx, ?_⟩
    cases he : x.event with
    | disconnected p reason =>
      rw [he] at hpeer
      exact ⟨reason, by rw [← hpeer]; rfl⟩
    | _ =>
      rw [he] at hnote
      cases hnote

theorem link_attended (h : m.Attends n) (hi : m.transports[i]? = some a) {l : Link} (hl : n.link? a p = some l) :
    (∃ id c, m.connections.get? id = some c ∧ c.transport = i ∧ c.peer = p) ∨
      ∃ x ∈ n.inbox a, x.event = .approvalRequest p := by
  rcases h.linked (List.mem_of_getElem? hi) (Network.wire?_of_link? hl) with ⟨c, hat⟩ | hask
  · obtain ⟨hget, -, hplace⟩ := h.sound.seat h.nodup hi hat
    exact Or.inl ⟨c.id, c, hget, hplace⟩
  · obtain ⟨x, hx, hpeer, hnote⟩ := mem_notesFor.mp hask
    refine Or.inr ⟨x, hx, ?_⟩
    cases he : x.event with
    | approvalRequest q =>
      rw [he] at hpeer
      rw [← hpeer]
      rfl
    | _ =>
      rw [he] at hnote
      cases hnote

end Attends

/-- Whatever a server is called upon to do, and whatever others do on its network at any moment: each live connection
    has its link, or a disconnection on its way to the transport of the server; and each link at a transport has its
    connection, or a request on its way. So when a server has handled its events, the live connections are the links at
    its transports, one for each. -/
theorem attend_links (settings : Settings) (luck : Nat → Luck) (ts : List (Turn δ)) :
    let s := ts.foldl attend (create .server settings, Network.create luck)
    (∀ id c, s.1.connections.get? id = some c → ∃ a, s.1.transportOf? c = some a ∧
      ((s.2.link? a c.peer).isSome ∨ ∃ x ∈ s.2.inbox a, ∃ reason, x.event = .disconnected c.peer reason)) ∧
    (∀ i a p l, s.1.transports[i]? = some a → s.2.link? a p = some l →
      (∃ id c, s.1.connections.get? id = some c ∧ c.transport = i ∧ c.peer = p) ∨
        ∃ x ∈ s.2.inbox a, x.event = .approvalRequest p) ∧
    let r := s.1.process s.2
    (∀ id c, r.1.connections.get? id = some c →
      ∃ a, r.1.transportOf? c = some a ∧ (r.2.link? a c.peer).isSome) ∧
    ∀ i a p, r.1.transports[i]? = some a → (r.2.link? a p).isSome →
      ∃! id, ∃ c, r.1.connections.get? id = some c ∧ c.transport = i ∧ c.peer = p := by
  intro s
  have h : s.1.Attends s.2 := (Attends.create settings luck).turns ts
  refine ⟨fun id c hget => h.live_linked hget, fun i a p l hi hl => h.link_attended hi hl, ?_⟩
  intro r
  obtain ⟨hattends, htransports, hdrained⟩ := h.process
  -- Whatever tells of a link would be due.
  have hquiet : ∀ {a x}, a ∈ r.1.transports → x ∈ r.2.inbox a → x.event.note.isStatus = false := fun ha hx =>
    eq_false_of_ne_true fun hs =>
      (hdrained (htransports ▸ ha)).not_status hattends.net hs (mem_notesFor.mpr ⟨_, hx, rfl, rfl⟩)
  refine ⟨fun id c hget => ?_, fun i a p hi hl => ?_⟩
  · obtain ⟨a, ha, hcases⟩ := hattends.live_linked hget
    refine ⟨a, ha, hcases.resolve_right ?_⟩
    rintro ⟨x, hx, reason, he⟩
    have hstatus := hquiet (List.mem_of_getElem? ha) hx
    rw [he] at hstatus
    cases hstatus
  · obtain ⟨l, hl⟩ := Option.isSome_iff_exists.mp hl
    rcases hattends.link_attended hi hl with ⟨id, c, hget, htransport, hpeer⟩ | ⟨x, hx, he⟩
    · refine ⟨id, ⟨c, hget, htransport, hpeer⟩, ?_⟩
      rintro id' ⟨c', hget', rfl, rfl⟩
      have hf := (hattends.sound id').entered hget'
      rw [← htransport, ← hpeer] at hf
      exact Option.some.inj (hf.symm.trans ((hattends.sound id).entered hget))
    · have hstatus := hquiet (List.mem_of_getElem? hi) hx
      rw [he] at hstatus
      cases hstatus

end Manager
end StateSync
