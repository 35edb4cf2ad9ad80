import StateSync.Proofs.Demo.Schedule
import StateSync.Proofs.Transport.Backlog

/-! A player to whom nothing is on its way. An update that brings one tick is that tick and nothing else
    (`turn_update_tick`, `AtEase`). A state that is then sent to it comes at once, and is all that the next update finds
    (`Attends.process`). -/

namespace StateSync

namespace Network
variable {n n' : Network} {a b : Address} {p q r : Peer}

/-- Nothing is on its way to the endpoint, and no link leads from it to itself. -/
structure Lull (n : Network) (a : Address) : Prop where
  empty : n.inbox a = []
  apart : ∀ {p w}, n.wire? a p = some w → w.remote ≠ a

namespace Lull

theorem of_links (empty : n.inbox a = []) (links : ∀ e ∈ n.endpoint? a, ∀ l ∈ e.links.values, l.remote ≠ a) :
    n.Lull a := by
  refine ⟨empty, fun {p w} hw => ?_⟩
  obtain ⟨l, hl, rfl⟩ := link?_of_wire? hw
  obtain ⟨e, he, hget⟩ := Option.bind_eq_some_iff.mp hl
  exact links e he l (Assoc.mem_values.mpr ⟨p, hget⟩)

theorem quiet (h : n.Lull a) (hq : Quiet n n') : n'.Lull a :=
  ⟨(hq.inbox a).trans h.empty, fun hw => h.apart ((hq.wire? a _).symm.trans hw)⟩

theorem post (h : n.Lull a) (hne : b ≠ a) (release : Nat) (ev : TransportEvent) : (n.post b release ev).Lull a := by
  refine ⟨?_, fun hw => h.apart ((wire?_post n b release ev a _).symm.trans hw)⟩
  rw [inbox_post, if_neg fun hb => hne hb.1, h.empty]

/-- What the endpoint sends does not come back to it. -/
theorem send (h : n.Lull a) (p : Peer) (bytes : Bytes) (d : Delivery) : (n.send a p bytes d).2.Lull a := by
  rcases n.send_cases a p bytes d with hq | ⟨b, q, hw, release, -, hq⟩
  · exact h.quiet hq
  · exact (h.post (h.apart hw) release _).quiet hq

theorem poll (h : n.Lull a) : n.poll a = (none, n) := by
  have hinbox : ((n.endpoint? a).map (·.inbox)).getD [] = [] := h.empty
  rw [Network.poll]
  split
  · rename_i x xs heq
    rw [heq] at hinbox
    cases hinbox
  · rfl

end Lull

/-- What is sent over the link of this end goes at once to the other. -/
def Prompt (n : Network) (b : Address) (r : Peer) (a : Address) (q : Peer) : Prop :=
  n.isBound a = true ∧ n.wire? b r = some ⟨a, q, .connected⟩ ∧
    (n.endpoint? b).map (·.impairment.delay (n.luck n.sends)) = some 0 ∧ ∀ l ∈ n.link? b r, l.orderedRelease ≤ n.clock

instance (n : Network) (b : Address) (r : Peer) (a : Address) (q : Peer) : Decidable (n.Prompt b r a q) :=
  inferInstanceAs (Decidable (_ ∧ _))

theorem Prompt.send (h : n.Prompt b r a q) (bytes : Bytes) :
    Quiet (n.post a n.clock (.data q bytes)) (n.send b r bytes .ordered).2 := by
  obtain ⟨-, hw, hdelay, hrelease⟩ := h
  obtain ⟨l, hl, hwire⟩ := link?_of_wire? hw
  obtain ⟨rfl, rfl, hst⟩ := Wire.mk.inj hwire
  obtain ⟨e, he, hzero⟩ := Option.map_eq_some_iff.mp hdelay
  let n₁ := { n with sends := n.sends + 1 }.noteDelay e.impairment (n.luck n.sends)
  have hq : Quiet n n₁ := (Quiet.sends n).trans (.noteDelay _ _ _)
  have hl₁ : n₁.link? b r = some l := hl
  have hnow : max (n₁.clock + 0) l.orderedRelease = n.clock := Nat.max_eq_left (hrelease l hl)
  have hordered : Delivery.ordered.isOrdered = true := rfl
  have hsend : (n.send b r bytes .ordered).2 = (n₁.transmit b r bytes .ordered 0).2 := by
    rw [Network.send, he]
    dsimp only
    rw [if_pos (show Delivery.ordered.isReliable = true from rfl), hzero, Nat.zero_mul]
  rw [hsend, transmit_eq hl₁ hst]
  dsimp only
  rw [if_pos hordered, if_pos hordered, hnow]
  exact ((hq.trans (.setLink hl₁ _)).post _ _ _).trans (.update (f := countSent _) (fun _ => ⟨rfl, rfl, rfl⟩) _ b)

theorem poll_of_due {x : Parcel} {xs : List Parcel} (hin : n.inbox a = x :: xs) (hdue : x.release ≤ n.clock) :
    ∃ n', n.poll a = (some x.event, n') := by
  have hinbox : (n.endpoint? a).map (·.inbox) = some (x :: xs) := by
    rw [inbox] at hin
    cases h : (n.endpoint? a).map (·.inbox) with
    | none =>
      rw [h] at hin
      cases hin
    | some ys => rw [← hin, h, Option.getD_some]
  rw [poll, hinbox]
  dsimp only
  rw [if_pos hdue]
  split <;> exact ⟨_, rfl⟩

/-- It is the first that the other end finds, and the last. -/
theorem Lull.poll_sent (h : n.Lull a) (hprompt : n.Prompt b r a q) (bytes : Bytes) :
    ∃ n', (n.send b r bytes .ordered).2.poll a = (some (.data q bytes), n') ∧ n'.Lull a := by
  have hq := hprompt.send bytes
  generalize (n.send b r bytes .ordered).2 = n₁ at hq ⊢
  have hin : n₁.inbox a = [⟨n.clock, .data q bytes⟩] := by
    rw [hq.inbox, inbox_post, if_pos ⟨rfl, hprompt.1⟩, h.empty]
    rfl
  have hlull : ∀ {n₂ : Network}, Quiet (n₁.update a fun e => { e with inbox := [] }) n₂ → n₂.Lull a := by
    intro n₂ hq₂
    have hwire : ∀ p, n₂.wire? a p = n.wire? a p := fun p => by
      rw [hq₂.wire?, wire?_update (f := fun e => { e with inbox := [] }) fun _ => rfl, hq.wire?, wire?_post]
    refine ⟨?_, fun hw => h.apart ((hwire _).symm.trans hw)⟩
    rw [hq₂.inbox, inbox_replace n₁ a [] ((hq.isBound a).trans ((isBound_post ..).trans hprompt.1)), if_pos rfl]
  obtain ⟨n₂, hpoll⟩ := poll_of_due hin (Nat.le_of_eq hq.clock.symm)
  obtain ⟨x, xs, hx, -, -, hq₂⟩ := poll_eq hpoll
  obtain ⟨rfl, rfl⟩ := List.cons.inj (hin.symm.trans hx)
  exact ⟨n₂, hpoll, hlull hq₂⟩

end Network

/-! ### What an update finds -/

namespace Manager
variable {δ : Type} {m m' : Manager Address δ} {n n' : Network} {a : Address}

theorem process_of_lull (transports : m.transports = [a]) (lull : n.Lull a) : m.process n = (m, n) := by
  rw [process, transports, drainFrom]
  cases Medium.backlog n a with
  | zero => rfl
  | succ most =>
    rw [drain, show Medium.poll n a = (none, n) from lull.poll]
    rfl

/-- One packet is on its way, and what it brings is no cause for another. -/
theorem process_of_poll (transports : m.transports = [a]) {p : Peer} {bytes : Bytes}
    (polled : n.poll a = (some (.data p bytes), n')) (lull : n'.Lull a)
    (handled : m.handleData n' 0 p bytes = (m', n')) : m.process n = (m', n') := by
  obtain ⟨-, hbacklog, -⟩ := Network.backlog_poll polled
  rw [process, transports, drainFrom, show Medium.backlog n a = n'.backlog a + 1 from hbacklog.symm, drain,
    show Medium.poll n a = _ from polled]
  dsimp only
  rw [handleEvent, handled]
  dsimp only
  cases n'.backlog a with
  | zero => rfl
  | succ most =>
    rw [drain, show Medium.poll n' a = (none, n') from lull.poll]
    rfl

theorem lull_sendFrame (transports : m.transports = [a]) (lull : n.Lull a) (id : ConnectionId) (frame : Bytes)
    (d : Delivery) : (m.sendFrame n id frame d).2.Lull a := by
  unfold sendFrame
  split
  · exact lull
  · split
    · exact lull
    · unfold sendTo
      split
      · exact lull
      · rename_i b hb
        have hmem := List.mem_of_getElem? hb
        rw [transports] at hmem
        obtain rfl := List.mem_singleton.mp hmem
        exact lull.send _ frame d

end Manager

namespace Player
variable {p : Player} {n : Network}

theorem timestep_runTick (p : Player) (n : Network) : (p.runTick n).1.timestep = p.timestep := by
  unfold runTick carryOut
  dsimp only
  split
  · rfl
  · split <;> rfl

/-- A tick sends one frame at the most. -/
theorem net_runTick (p : Player) (n : Network) : (p.runTick n).2 = n ∨
    ∃ frame d, (p.runTick n).2 = (p.manager.takeReceived.2.sendFrame n p.connection frame d).2 := by
  unfold runTick carryOut
  dsimp only
  split
  · exact Or.inl rfl
  · split
    · exact Or.inl rfl
    · dsimp only
      rw [Manager.send]
      split
      · exact Or.inl rfl
      · exact Or.inr ⟨_, _, rfl⟩

theorem informed_of_told {m : Manager Address GameState} {n' : Network} (hprocess : p.manager.process n = (m, n'))
    (told : m.events = []) : p.informed n = { p with manager := m } := by
  simp only [informed, hprocess, handleEvents, Manager.takeEvents, told, List.foldl_nil]
  rw [← told]

/-- Nothing is on its way to the player, and it has been told all. -/
structure AtEase (p : Player) (n : Network) : Prop where
  lull : ∃ a, p.manager.transports = [a] ∧ n.Lull a
  told : p.manager.events = []

namespace AtEase

theorem process (h : p.AtEase n) : p.manager.process n = (p.manager, n) := by
  obtain ⟨a, htransports, hlull⟩ := h.lull
  exact Manager.process_of_lull htransports hlull

theorem informed (h : p.AtEase n) : p.informed n = p := informed_of_told h.process h.told

theorem runTick (h : p.AtEase n) : (p.runTick n).1.AtEase (p.runTick n).2 := by
  obtain ⟨a, htransports, hlull⟩ := h.lull
  refine ⟨⟨a, ?_, ?_⟩, ?_⟩
  · rw [manager_runTick]
    exact htransports
  · rcases p.net_runTick n with heq | ⟨frame, d, heq⟩
    · rwa [heq]
    · rw [heq]
      exact Manager.lull_sendFrame htransports hlull _ frame d
  · rw [manager_runTick]
    exact h.told

end AtEase

/-- A frame that is as long as a tick. -/
def tickLength : Nat := 16666666

theorem turn_update_tick {s : Player × Network} (h : (s.1.informed s.2).timestep = .create Settings.defaultRate) :
    turn s (.update tickLength) = (s.1.informed s.2).runTick (s.1.manager.process s.2).2 := by
  have hadvance : (Timestep.create Settings.defaultRate).advance tickLength = (1, .create Settings.defaultRate) := by
    decide +kernel
  rw [turn_update, update_eq, h, hadvance, ← h]
  rfl

/-! ### One more state -/

/-- The player's connection is open, all that has come over it was looked at, and the other end can say more. -/
def Attends (p : Player) (n : Network) (b : Address) (r : Peer) (a : Address) (q : Peer) (ch : Channel) : Prop :=
  p.manager.transports = [a] ∧ p.manager.connections.find? 0 q = some ch.connection ∧
    p.manager.pending.get? ch.connection = none ∧ p.manager.channel? ch.connection = some ch ∧
    p.manager.strings.get? Server.stateId = some MessageType.state.name ∧ p.manager.received = [] ∧
    p.manager.events = [] ∧ n.inbox a = [] ∧ (∀ e ∈ n.endpoint? a, ∀ l ∈ e.links.values, l.remote ≠ a) ∧
    n.Prompt b r a q

instance (p : Player) (n : Network) (b : Address) (r : Peer) (a : Address) (q : Peer) (ch : Channel) :
    Decidable (p.Attends n b r a q ch) :=
  inferInstanceAs (Decidable (_ ∧ _))

section
variable {a b : Address} {q r : Peer} {ch : Channel} {x : GameState}

/-- If it sends a state, that is what the next update finds. -/
theorem Attends.process (h : p.Attends n b r a q ch) (hkinds : p.manager.registry = kinds)
    (hencode : MessageType.state.encode x = .ok (Archive.encodeState x)) :
    ∃ n', p.manager.process (n.act (.send b r (stateFrame x) .ordered)) =
      ({ p.manager with received := [(ch, x)] }, n') ∧ n'.Lull a := by
  obtain ⟨transports, found, decided, channel, named, received, -, empty, links, prompt⟩ := h
  obtain ⟨n', hpoll, hlull⟩ := (Network.Lull.of_links empty links).poll_sent prompt (stateFrame x)
  have hknows : kinds.Knows MessageType.state (some id) := rfl
  have hdispatch := hknows.dispatch (MessageType.state_roundTrips x _ hencode)
  have hread : p.manager.registry.read? p.manager.strings (stateFrame x) = some x := by
    rw [stateFrame, Frame.encode, Registry.read?_of_get? (by decide) named, hkinds, hdispatch]
    rfl
  refine ⟨n', Manager.process_of_poll transports hpoll hlull ?_, hlull⟩
  rw [Manager.handleData, found]
  dsimp only
  rw [decided]
  dsimp only
  rw [channel]
  dsimp only
  rw [stateFrame, Frame.encode, Manager.receiveFrame_message (by decide)]
  rw [stateFrame, Frame.encode] at hread
  rw [hread, received]
  rfl

end

end Player
end StateSync
