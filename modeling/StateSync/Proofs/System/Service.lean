import StateSync.Proofs.Manager.Lifecycle
import StateSync.Proofs.Transport.Acts

/-! A server on a network on which anybody does what they like, at any moment: between its calls, and between two
    events that it handles. What the application is told of each connection then (`turns_told`). -/

namespace StateSync
open Network (Act Grown)

variable {δ : Type}

/-! ### What a manager does to the network -/

namespace Manager
variable {m : Manager Address δ} {n : Network}

theorem hangUp_sound (m : Manager Address δ) (h : n.Sound) (id : ConnectionId) (reason : String) :
    (m.hangUp n id reason).Sound := by
  unfold hangUp
  split
  · exact h
  · split
    · exact h
    · exact (h.severs _ _ reason).sound

theorem sendFrame_sound (m : Manager Address δ) (h : n.Sound) (id : ConnectionId) (bs : Bytes) (d : Delivery) :
    (m.sendFrame n id bs d).2.Sound := by
  unfold sendFrame
  split
  · exact h
  · split
    · exact h
    · unfold sendTo
      split
      · exact h
      · exact (h.deals_send _ _ bs d).sound

theorem sendAll_sound (m : Manager Address δ) (h : n.Sound) (bs : Bytes) (d : Delivery) (ids : List ConnectionId) :
    (m.sendAll n bs d ids).2.Sound := by
  induction ids generalizing n with
  | nil => exact h
  | cons id ids ih => exact ih (m.sendFrame_sound h id bs d)

theorem start_sound (m : Manager Address δ) (h : n.Sound) : (m.start n).2.2.Sound := by
  unfold start
  split
  · exact h
  · split
    · exact h
    · split
      · exact h
      · rename_i addrs _
        rcases (Grown.refl h).openAll List.nodup_nil m.settings addrs with
          ⟨hs, n', hopen, hgrown, -⟩ | ⟨e, n', hopen, -, hsound, -⟩
        · rw [hopen]
          exact hgrown.sound
        · rw [hopen]
          exact hsound

/-- A call that is no change of the network by others. -/
def Call.IsInside : Call Network Address δ → Prop
  | .outside _ => False
  | _ => True

theorem perform_sound (hs : m.isServer = true) (h : n.Sound) {c : Call Network Address δ} (hc : c.IsAside)
    (hin : c.IsInside) : (perform (m, n) c).2.Sound := by
  cases c with
  | start => exact m.start_sound h
  | connect a remote username =>
    rw [perform, connect, if_pos hs]
    exact (h.close a).2.1
  | next i => cases hc
  | process => cases hc
  | disconnect id reason =>
    rw [perform, disconnect]
    split
    · exact m.hangUp_sound h id reason
    · exact h
  | send id t x =>
    rw [perform, send]
    split
    · exact h
    · exact m.sendFrame_sound h id _ _
  | broadcast t x =>
    rw [perform, broadcast]
    split
    · exact h
    · exact m.sendAll_sound h _ _ _
  | shutdown reason =>
    rw [perform, shutdown]
    split
    · exact h
    · exact ((h.shutdownAll _ reason).2.1.closeAll _).2.1
  | changeSetting key value =>
    rw [perform, changeSetting]
    split
    · exact h
    · exact h.quiet (Network.tuneAll_quiet n _ _)
  | takeEvents => cases hc
  | outside n' => cases hin
  | _ => exact h

/-- The name table is not sent if there is no connected link to send it by, or if it has no encoding. -/
theorem unsent_iff {a : Address} {p : Peer} : m.Unsent n a p ↔
    (∀ b q, n.wire? a p ≠ some ⟨b, q, .connected⟩) ∨
      ∃ e, MessageType.stringTable.encode m.strings.entries = .error e := by
  constructor
  · intro hunsent
    cases hencode : MessageType.stringTable.encode m.strings.entries with
    | error e => exact Or.inr ⟨e, rfl⟩
    | ok payload =>
      refine Or.inl fun b q hw => ?_
      obtain ⟨e, he⟩ := hunsent payload hencode
      obtain ⟨n', heq, -⟩ := Network.send_connected (d := .ordered) hw rfl
        (Frame.encode StringTable.bootstrapId payload)
      cases he.symm.trans (congrArg Prod.fst heq)
  · rintro (hw | ⟨e, he⟩) payload hencode
    · exact Network.send_refused hw rfl _
    · cases he.symm.trans hencode

end Manager

/-! ### Turns -/

/-- What happens next: a call on the server, or something that somebody does on the network. -/
inductive Turn (δ : Type) : Type 1 where
  | call (c : Manager.Call Network Address δ) (inside : c.IsInside)
  | act (x : Act)

/-- The acknowledgement of a connection was handled when the link to its peer was gone, or when the name table had no
    encoding. -/
def Sight.Misses (x : Sight Network Address δ) (id : ConnectionId) : Prop :=
  ∃ c, x.manager.Acks x.place x.event id c ∧ ((∀ b q, x.medium.wire? x.transport c.peer ≠ some ⟨b, q, .connected⟩) ∨
    ∃ e, MessageType.stringTable.encode x.manager.strings.entries = .error e)

theorem Sight.lapses_iff {x : Sight Network Address δ} {id : ConnectionId} : x.Lapses id ↔ x.Misses id :=
  exists_congr fun _ => and_congr_right fun _ => Manager.unsent_iff

namespace Chronicle
variable {k : Chronicle Network Address δ}

def turn (k : Chronicle Network Address δ) : Turn δ → Chronicle Network Address δ
  | .call c _ => k.perform c
  | .act x => k.perform (.outside (k.medium.act x))

def turns (k : Chronicle Network Address δ) (ts : List (Turn δ)) : Chronicle Network Address δ := ts.foldl turn k

/-- The network is sound, and was so whenever an event was handled. -/
structure Grounded (k : Chronicle Network Address δ) : Prop where
  medium : k.medium.Sound
  sights : ∀ x ∈ k.sights, x.medium.Sound

theorem keepsEvents_grounded : KeepsEvents (Grounded : Chronicle Network Address δ → Prop) where
  poll a _ hg := ⟨hg.medium.polled a, hg.sights⟩
  handle {k i a} e hk hg hi := by
    have hafter : (k.manager.handleEvent k.medium i a e).2.Sound := by
      refine Manager.handleEvent_stable (P := Network.Sound) hk.sound hi ⟨fun h => ?_, fun reason h => ?_,
        fun bytes d h => ?_, fun h => h⟩ hg.medium
      · exact (h.deals_approve a e.peer).sound
      · exact (h.severs a e.peer reason).sound
      · exact (h.deals_send a e.peer bytes d).sound
    refine ⟨hafter, fun x hx => ?_⟩
    rcases List.mem_append.mp hx with hx | hx
    · exact hg.sights x hx
    · exact List.mem_singleton.mp hx ▸ hg.medium

theorem Grounded.turn (hg : k.Grounded) (hk : k.Fair) (t : Turn δ) : (k.turn t).Grounded := by
  cases t with
  | call c hin =>
    refine (keepsEvents_grounded.perform hk hg ⟨hg.medium, hg.sights⟩ c fun haside => ?_).2
    exact ⟨Manager.perform_sound hk.server hg.medium haside hin, hg.sights⟩
  | act x => exact ⟨hg.medium.act x, hg.sights⟩

theorem turns_kept (hk : k.Fair) (ht : k.Told) (hg : k.Grounded) (ts : List (Turn δ)) :
    (k.turns ts).Told ∧ (k.turns ts).Grounded := by
  induction ts generalizing k with
  | nil => exact ⟨ht, hg⟩
  | cons t ts ih =>
    obtain ⟨hk', ht'⟩ : (k.turn t).Fair ∧ (k.turn t).Told := by
      cases t with
      | call c _ => exact keeps_told.perform hk ht c
      | act x => exact keeps_told.perform hk ht (.outside (k.medium.act x))
    exact ih hk' ht' (hg.turn hk t)

/-- Whatever a server is called upon to do, and whatever happens on its network: of a connection the application is
    told of its beginning and then of its end, once each, as far as it has come. It is told of the beginning when the
    name table is in the inbox of the peer. But if the acknowledgement of a connection is handled when the link to its
    peer is gone, or the table has no encoding, the application is told of its end, and of nothing else. -/
theorem turns_told (settings : Settings) (luck : Nat → Luck) (ts : List (Turn δ)) :
    let k : Chronicle Network Address δ := (create .server settings (Network.create luck)).turns ts
    (∀ id, (∀ x ∈ k.sights, ¬ x.Misses id) →
      ∃ name remote reason, k.toldOf id <+: [.connected id name remote, .disconnected id name reason]) ∧
    (∀ id, (∃ x ∈ k.sights, x.Misses id) →
      ∃ name, k.toldOf id = [.disconnected id name "Failed to send string table"]) ∧
    ∀ id name remote, .connected id name remote ∈ k.told → ∃ x ∈ k.sights, ∃ c payload b q release,
      x.Opens id name c payload ∧ c.remote = remote ∧
      x.medium.wire? x.transport c.peer = some ⟨b, q, .connected⟩ ∧
      ⟨release, .data q (Frame.encode StringTable.bootstrapId payload)⟩ ∈ x.after.2.inbox b := by
  intro k
  obtain ⟨ht, hg⟩ : k.Told ∧ k.Grounded :=
    turns_kept (fair_create settings _) (told_create settings _) ⟨Network.sound_create luck, by simp [create]⟩ ts
  have hlapsed : ∀ id, k.Lapsed id ↔ ∃ x ∈ k.sights, x.Misses id := fun id =>
    exists_congr fun _ => and_congr_right fun _ => Sight.lapses_iff
  refine ⟨fun id hnone => ?_, fun id hmiss => ?_, fun id name remote hmem => ?_⟩
  · refine (ht.tale id).prefix_of_not fun hl => ?_
    obtain ⟨x, hx, hmiss⟩ := (hlapsed id).mp hl
    exact hnone x hx hmiss
  · exact (ht.tale id).eq_of_lapsed ((hlapsed id).mpr hmiss)
  · obtain ⟨x, hx, c, payload, hopens, hremote⟩ := ht.opened hmem
    obtain ⟨b, q, hw, hposts⟩ := Network.send_eq_ok rfl hopens.sent
    obtain ⟨release, hmem⟩ := hposts.mem_inbox (Network.isBound_of_wire? ((hg.sights x hx).paired hw))
    exact ⟨x, hx, c, payload, b, q, release, hopens, hremote, hw, hmem⟩

/-- A peer asks for a connection, is given its name, acknowledges it and hangs up before the server looks. -/
def hangingUp : List (Turn Unit) :=
  let server : Address := ⟨Host.loopback, Settings.defaultPort⟩
  let peer : Address := Network.loopback Network.firstPort
  [.call .start trivial,
    .act .bindAny,
    .act (.connect peer server),
    .call .process trivial,
    .act (.send peer ⟨1⟩ (Manager.textBytes "ann") .ordered),
    .call .process trivial,
    .act (.send peer ⟨1⟩ (Manager.textBytes "ok") .ordered),
    .act (.disconnect peer ⟨1⟩ "bye"),
    .call .process trivial]

/-- The application is told of the end of a connection of whose beginning it has not been told. -/
theorem turns_told_hangingUp :
    let k := (create .server { Settings.initial with hosts := "127.0.0.1" } Network.calm).turns hangingUp
    k.toldOf ⟨0⟩ = [.disconnected ⟨0⟩ "ann" "Failed to send string table"] ∧
      ¬ ∃ name remote reason, k.toldOf ⟨0⟩ <+: [.connected ⟨0⟩ name remote, .disconnected ⟨0⟩ name reason] := by
  intro k
  have htold : k.toldOf ⟨0⟩ = [.disconnected ⟨0⟩ "ann" "Failed to send string table"] := by decide +kernel
  refine ⟨htold, ?_⟩
  rintro ⟨name, remote, reason, hprefix⟩
  rw [htold] at hprefix
  cases (List.cons_prefix_cons.mp hprefix).1

end Chronicle
end StateSync
