import StateSync.Proofs.System.Handshake
import StateSync.Proofs.System.Sound

/-! The events of a transport keep a system sound: an event about a link carries the talk across it on or ends it, and
    an event about a link that is gone changes nothing but the connection it is about. -/

namespace StateSync
open Network (Quiet Alike Cut Deals)

variable {κ δ : Type}

namespace Manager
variable {m m' : Manager Address δ} {n : Network} {a : Address} {p : Peer} {i : Nat} {e : TransportEvent}

/-- An event about a peer without a connection changes nothing, unless a server is asked by a peer that is there. -/
theorem handleEvent_of_find?_eq_none (hf : m.connections.find? i e.peer = none)
    (hw : m.isServer = true → n.wire? a e.peer = none) : (m.handleEvent n i a e).1 = m := by
  cases e with
  | approvalRequest p =>
    cases hs : m.isServer with
    | false => simp only [handleEvent, handleApproval, hs, Bool.not_false, if_true]
    | true =>
      have hl : n.link? a p = none := Option.map_eq_none_iff.mp (hw hs)
      have hf' : m.connections.find? i p = none := hf
      have hrem : Medium.remoteAddress n a p = (none, n) := by
        show (n.remoteAddress a p, n) = _
        rw [Network.remoteAddress, hl]
        rfl
      simp only [handleEvent, handleApproval, hs, enroll, hf', hrem]
      rfl
  | connected p reason =>
    have hf' : m.connections.find? i p = none := hf
    rw [handleEvent, handleConnected, hf']
    rfl
  | disconnected p reason =>
    have hf' : m.connections.find? i p = none := hf
    rw [handleEvent, handleDisconnected, hf']
  | data p bs =>
    have hf' : m.connections.find? i p = none := hf
    rw [handleEvent, handleData, hf']

theorem at?_handleDisconnected (hm : m.Sound) (hnodup : m.transports.Nodup) (hi : m.transports[i]? = some a)
    (reason : String) : (m.handleDisconnected i p reason).at? a p = none := by
  unfold handleDisconnected
  cases hf : m.connections.find? i p with
  | none =>
    dsimp only
    rw [at?, idxOf?_eq hnodup hi, Option.bind_some, hf]
    rfl
  | some id =>
    have hs := (hm id).toWired.teardown reason
    have hh : Handles m (m.teardown id reason) i p id := .of_settles hm hf hs
    dsimp only
    rw [hh.at?_eq hm hnodup hi fun hj => Option.some.inj (hj.symm.trans hf), get?_teardown, if_pos rfl]

theorem handleEvent_deals (hm : m.Sound) (hi : m.transports[i]? = some a) (hn : n.Sound) :
    Deals n (m.handleEvent n i a e).2 a e.peer := by
  refine handleEvent_stable (P := fun w => Deals n w a e.peer) hm hi ⟨fun hw => ?_, fun reason hw => ?_,
    fun bytes d hw => ?_, fun hw => hw⟩ (.of_quiet hn (.refl n) a e.peer)
  · exact hw.trans hn (hw.sound.deals_approve a e.peer)
  · exact hw.trans hn (.of_severs (hw.sound.severs a e.peer reason))
  · exact hw.trans hn (hw.sound.deals_send a e.peer bytes d)

theorem handleEvent_quiet (hm : m.Sound) (hi : m.transports[i]? = some a) (hw : n.wire? a e.peer = none) :
    Quiet n (m.handleEvent n i a e).2 := by
  refine handleEvent_stable (P := fun w => Quiet n w) hm hi ⟨fun {w} hq => ?_, fun {w} reason hq => ?_,
    fun {w} bytes d hq => ?_, fun hq => hq⟩ (.refl n)
  · rw [show Medium.approve w a e.peer = _ from Network.approve_none ((hq.wire? _ _).trans hw)]
    exact hq
  · rw [show Medium.disconnect w a e.peer reason = _ from Network.sever_none ((hq.wire? _ _).trans hw) reason]
    exact hq
  · rcases w.send_cases a e.peer bytes d with hq' | ⟨b, q, hw', -⟩
    · exact hq.trans hq'
    · rw [hq.wire?, hw] at hw'
      cases hw'

/-- After an event about a link that is gone, the connection of the peer is gone too or has yet to be told. -/
theorem Sound.lost_handleEvent (hm : m.Sound) (hnodup : m.transports.Nodup) (hi : m.transports[i]? = some a)
    (hn : n.Sound) {n' : Network} (hpoll : n.poll a = (some e, n')) (hw : n.wire? a e.peer = none)
    (hlost : ∀ {c}, m.at? a e.peer = some c → .down ∈ n.notes a e.peer) {c : Connection}
    (hc : (m.handleEvent n' i a e).1.at? a e.peer = some c) :
    .down ∈ (m.handleEvent n' i a e).2.notes a e.peer := by
  obtain ⟨-, -, hwire, hnotes⟩ := hn.poll hpoll
  have hw' := (hwire a e.peer).trans hw
  rw [(handleEvent_quiet hm hi hw').notes]
  cases hat : m.at? a e.peer with
  | none =>
    rw [handleEvent_of_find?_eq_none (hm.find?_of_at? hnodup hi hat) fun _ => hw', hat] at hc
    cases hc
  | some c₀ =>
    have hdown := hlost hat
    rw [hnotes] at hdown
    refine (List.mem_cons.mp hdown).resolve_left fun heq => ?_
    cases e with
    | disconnected p reason => exact (nomatch (at?_handleDisconnected hm hnodup hi reason).symm.trans hc)
    | _ => cases heq

theorem acts_handleEvent (hm : m.Sound) (hnodup : m.transports.Nodup) (hi : m.transports[i]? = some a) (n : Network)
    (e : TransportEvent) : System.Acts m (m.handleEvent n i a e).1 a e.peer := by
  obtain ⟨id, hid⟩ := handleEvent_handles hm (List.getElem?_eq_some_iff.mp hi).1 n a e
  refine ⟨hm.of_settles hid.toSettles, hid.side, hid.transports, fun hne => hid.at?_of_ne hm hnodup hi hne, hid.strings,
    fun hs => ?_⟩
  cases hat : m.at? a e.peer with
  | some c => exact Or.inr ⟨c, rfl⟩
  | none =>
    have hf := hm.find?_of_at? hnodup hi hat
    exact Or.inl (handleEvent_of_find?_eq_none hf fun hs' => by rw [hs] at hs'; cases hs')

theorem acts_teardown (hm : m.Sound) (hnodup : m.transports.Nodup) {id : ConnectionId} {c : Connection}
    (hget : m.connections.get? id = some c) (ha : m.transportOf? c = some a) (reason : String) :
    System.Acts m (m.teardown id reason) a c.peer ∧ (m.teardown id reason).at? a c.peer = none := by
  have hf := (hm id).entered hget
  have hh := Handles.of_settles hm hf ((hm id).toWired.teardown reason)
  have hgone := hh.at?_eq hm hnodup ha fun hj => Option.some.inj (hj.symm.trans hf)
  rw [get?_teardown, if_pos rfl] at hgone
  exact ⟨⟨hm.of_settles hh.toSettles, hh.side, hh.transports, fun hne => hh.at?_of_ne hm hnodup ha hne, hh.strings,
    fun _ => Or.inr ⟨c, hm.at?_of_get? hnodup hget ha⟩⟩, hgone⟩

end Manager

namespace System
variable {s : System κ δ} {x : Party κ} {n : Network} {a b : Address} {p q : Peer} {st : LinkState} {i : Nat}
  {e : TransportEvent}

theorem Sound.acts_handleEvent (h : s.Sound) (hi : (s.manager x).transports[i]? = some a) (n : Network)
    (e : TransportEvent) : Acts (s.manager x) ((s.manager x).handleEvent n i a e).1 a e.peer :=
  Manager.acts_handleEvent (h.fits x).sound (h.fits x).nodup hi n e

/-- After an event about a link that is gone, its connection is gone too or has yet to be told. -/
theorem Sound.lost_handleEvent (h : s.Sound) (hi : (s.manager x).transports[i]? = some a)
    (hpoll : s.net.poll a = (some e, n)) (hw : s.net.wire? a e.peer = none) {c : Connection}
    (hc : ((s.manager x).handleEvent n i a e).1.at? a e.peer = some c) :
    .down ∈ ((s.manager x).handleEvent n i a e).2.notes a e.peer :=
  (h.fits x).sound.lost_handleEvent (h.fits x).nodup hi h.net hpoll hw (fun hat => h.lost hat hw) hc

variable [DecidableEq κ]

/-- An event about a link carries the talk across it on, or ends it. -/
theorem Sound.joins_handleEvent (h : s.Sound) (hi : (s.manager x).transports[i]? = some a)
    (hpoll : s.net.poll a = (some e, n)) (hw : s.net.wire? a e.peer = some ⟨b, q, st⟩) :
    let r := (s.manager x).handleEvent n i a e
    Manager.Ends r.1 r.2 a e.peer ∨ ∃ st', r.2.wire? a e.peer = some ⟨b, q, st'⟩ ∧
      ((s.put x r).Joins a e.peer b q st' ∨ (s.put x r).Joins b q a e.peer st') := by
  have hm := (h.fits x).sound
  have hnodup := (h.fits x).nodup
  have htransports := (h.acts_handleEvent hi n e).transports
  have ha := List.mem_of_getElem? hi
  obtain ⟨hn, halike, hwire, hnotes⟩ := h.net.poll hpoll
  have hw' := (hwire a e.peer).trans hw
  have hfar : n.notes b q = s.net.notes b q := halike.notes fun heq => h.net.apart hw heq.1
  cases x with
  | server =>
    obtain ⟨k, -, hb, ht⟩ := h.joins_server ha hw
    rw [hnotes, ← hfar] at ht
    rcases hm.talk_server hnodup h.side_server hi hn hw' rfl ht with hends | ⟨st', hw'', ht'⟩
    · exact Or.inl hends
    · exact Or.inr ⟨st', hw'', Or.inl (joins_put_server (htransports ▸ ha) hb ht')⟩
  | client k =>
    obtain ⟨hb, ht⟩ := h.joins_client ha hw
    rw [hnotes, ← hfar] at ht
    have htable := (h.fits .server).table h.side_server
    obtain ⟨hw'', ht'⟩ := hm.talk_client hnodup (h.side_client k) hi hn hw' rfl htable ht
    exact Or.inr ⟨st, hw'', Or.inr (joins_put_client hb (htransports ▸ ha) ht')⟩

theorem Sound.next (h : s.Sound) (x : Party κ) (i : Nat) : (s.put x ((s.manager x).next s.net i)).Sound := by
  have hm := (h.fits x).sound
  unfold Manager.next
  split
  · rw [put_same]
    exact h
  · rename_i a hi
    split
    · rename_i n hpoll
      obtain rfl := Network.poll_none hpoll
      rw [put_same]
      exact h
    · rename_i e n hpoll
      have hdeals := (Deals.of_poll h.net hpoll).trans h.net
        (Manager.handleEvent_deals (e := e) hm hi (h.net.poll hpoll).1)
      refine h.deal (m := ((s.manager x).handleEvent n i a e).1) (n := ((s.manager x).handleEvent n i a e).2)
        (List.mem_of_getElem? hi) (h.acts_handleEvent hi n e) hdeals (fun {c} hc hnone => ?_) fun {b q st} hw => ?_
      · cases hw : s.net.wire? a e.peer with
        | none => exact h.lost_handleEvent hi hpoll hw hc
        | some w =>
          obtain ⟨b, q, st⟩ := w
          rcases h.joins_handleEvent hi hpoll hw with hends | ⟨st', hw', -⟩
          · exact (nomatch hends.1.symm.trans hc)
          · exact (nomatch hnone.symm.trans hw')
      · obtain ⟨st₀, hw₀⟩ := hdeals.leads hw
        rcases h.joins_handleEvent hi hpoll hw₀ with hends | ⟨st', hw', hj⟩
        · exact (nomatch hends.2.symm.trans hw)
        · obtain ⟨-, -, rfl⟩ := Network.wire_inj hw hw'
          exact hj

theorem Sound.nexts (h : s.Sound) (x : Party κ) (places : List Nat) :
    (s.put x (Manager.run (s.manager x, s.net) (places.map .next))).Sound := by
  induction places generalizing s with
  | nil =>
    rw [List.map_nil, Manager.run, List.foldl_nil, put_same]
    exact h
  | cons i places ih =>
    have hrest := ih (h.next x i)
    rw [manager_put_self, put_put] at hrest
    exact hrest

theorem Sound.process (h : s.Sound) (x : Party κ) : (s.put x ((s.manager x).process s.net)).Sound := by
  obtain ⟨places, hplaces⟩ := Manager.process_eq_run (h.fits x).sound s.net
  rw [hplaces]
  exact h.nexts x places

end System
end StateSync
