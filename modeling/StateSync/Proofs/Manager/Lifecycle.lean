import StateSync.Proofs.Manager.Chronicle

/-! What the application of a server is told of one connection, from its beginning to its end (`Tale`). It is told of
    the beginning when the name table has been sent, and of the end if it was told of the beginning. There is one
    exception: of a connection whose acknowledgement comes when the table cannot be sent, it is told the end alone. -/

namespace StateSync
variable {μ ι δ : Type}

/-- What has been told of a connection, by whether it has its channel, still lives, or lapsed. -/
inductive Tale (id : ConnectionId) : Option (Option String × Option Channel) → Prop → List NetEvent → Prop
  | silent {standing lapsed} (hs : ∀ s, standing = some s → s.2 = none) (hl : ¬ lapsed) : Tale id standing lapsed []
  | begun {session name remote lapsed} (hl : ¬ lapsed) :
      Tale id (some (session, some ⟨id, name, remote⟩)) lapsed [.connected id name remote]
  | whole {name remote reason lapsed} (hl : ¬ lapsed) :
      Tale id none lapsed [.connected id name remote, .disconnected id name reason]
  | lapsed {name lapsed} (hl : lapsed) :
      Tale id none lapsed [.disconnected id name "Failed to send string table"]

namespace Tale
variable {id : ConnectionId} {standing : Option (Option String × Option Channel)} {lapsed : Prop}
  {told : List NetEvent}

theorem silent_inv {session : Option String} (h : Tale id (some (session, none)) lapsed told) :
    told = [] ∧ ¬ lapsed := by
  cases h with
  | silent hs hl => exact ⟨rfl, hl⟩

theorem begun_inv {session : Option String} {ch : Channel} (h : Tale id (some (session, some ch)) lapsed told) :
    ch.connection = id ∧ told = [.connected id ch.sessionName ch.remote] ∧ ¬ lapsed := by
  cases h with
  | silent hs hl => cases hs _ rfl
  | begun hl => exact ⟨rfl, rfl, hl⟩

theorem not_lapsed_of_nil (h : Tale id standing lapsed []) : ¬ lapsed := by
  cases h with
  | silent hs hl => exact hl

/-- The application is told of the end of a connection if it was told of its beginning. -/
theorem ended {m : Manager ι δ} {c : Connection} (h : Tale id (m.standing? id) lapsed told) (hm : m.Sound)
    (hs : m.isServer = true) (live : m.connections.get? id = some c) (reason : String) :
    Tale id none lapsed (told ++ (m.farewell c reason).toList) := by
  obtain rfl := (hm id).own live
  rw [Manager.standing?_of_get? live] at h
  rw [Manager.farewell_eq hs]
  cases hch : c.channel with
  | none =>
    rw [hch] at h
    obtain ⟨rfl, hl⟩ := h.silent_inv
    exact .silent (by simp) hl
  | some ch =>
    rw [hch] at h
    obtain ⟨-, rfl, hl⟩ := h.begun_inv
    exact .whole hl

/-- An event that a connection does not lapse by carries the tale on. -/
theorem outcome [Medium μ ι] {m m' : Manager ι δ} {w w' : μ} {i : Nat} {x : ι} {e : TransportEvent}
    {es : List NetEvent} (h : Tale id (m.standing? id) lapsed told) (hm : m.Sound) (hs : m.isServer = true)
    (ho : m.Outcome w i x e m' w' id es) (hnew : id = m.connections.nextId → told = [])
    (hl : ∀ c, m.Acks i e id c → ¬ m.Unsent w x c.peer) : Tale id (m'.standing? id) lapsed (told ++ es) := by
  cases ho with
  | kept same =>
    rw [same, List.append_nil]
    exact h
  | entered new after =>
    obtain rfl := hnew new
    rw [after]
    exact .silent (by simp) h.not_lapsed_of_nil
  | named live frame bare text valid resolved allowed sent after =>
    rw [Manager.standing?_of_get? live, bare.2] at h
    obtain ⟨rfl, hnot⟩ := h.silent_inv
    rw [after]
    exact .silent (by simp) hnot
  | opened ack session bare after =>
    rw [Manager.standing?_of_get? ack.live, bare] at h
    obtain ⟨rfl, hnot⟩ := h.silent_inv
    rw [after]
    exact .begun hnot
  | lapsed ack session bare after unsent => exact absurd unsent (hl _ ack)
  | accepted client => cases (Manager.side_eq_server hs).symm.trans client
  | ended live after =>
    rw [after]
    exact h.ended hm hs live _

theorem prefix_of_not (h : Tale id standing lapsed told) (hl : ¬ lapsed) :
    ∃ name remote reason, told <+: [.connected id name remote, .disconnected id name reason] := by
  cases h with
  | silent => exact ⟨"", default, "", List.nil_prefix⟩
  | @begun session name remote => exact ⟨name, remote, "", List.prefix_append [_] [_]⟩
  | @whole name remote reason => exact ⟨name, remote, reason, List.prefix_rfl⟩
  | lapsed hl' => exact absurd hl' hl

theorem eq_of_lapsed (h : Tale id standing lapsed told) (hl : lapsed) :
    ∃ name, told = [.disconnected id name "Failed to send string table"] := by
  cases h with
  | silent _ hl' => exact absurd hl hl'
  | begun hl' => exact absurd hl hl'
  | whole hl' => exact absurd hl hl'
  | @lapsed name => exact ⟨name, rfl⟩

end Tale

variable [Medium μ ι]

/-- The event is the acknowledgement of a connection whose peer cannot be sent the name table. -/
def Sight.Lapses (x : Sight μ ι δ) (id : ConnectionId) : Prop :=
  ∃ c, x.manager.Acks x.place x.event id c ∧ x.manager.Unsent x.medium x.transport c.peer

/-- The event is the acknowledgement of a connection. Its peer has been sent the name table, and the application is
    told of the beginning. -/
structure Sight.Opens (x : Sight μ ι δ) (id : ConnectionId) (name : String) (c : Connection) (payload : Bytes) :
    Prop where
  ack : x.manager.Acks x.place x.event id c
  session : c.session = some name
  encoded : MessageType.stringTable.encode x.manager.strings.entries = .ok payload
  sent : Medium.send x.medium x.transport c.peer (Frame.encode StringTable.bootstrapId payload) .ordered =
    (.ok (), x.after.2)
  tells : x.after.1.events = x.manager.events ++ [.connected id name c.remote]

/-- The application is told only of connections that there have been. -/
theorem Manager.Outcome.lt_of_told {m m' : Manager ι δ} {w w' : μ} {i : Nat} {h : ι} {e : TransportEvent}
    {id : ConnectionId} {es : List NetEvent} (ho : m.Outcome w i h e m' w' id es) (hne : es ≠ []) :
    id.val < m.connections.slots.length := by
  cases ho with
  | opened ack => exact ConnectionTable.lt_of_get? ack.live
  | lapsed ack => exact ConnectionTable.lt_of_get? ack.live
  | accepted client live => exact ConnectionTable.lt_of_get? live
  | ended live => exact ConnectionTable.lt_of_get? live
  | _ => exact absurd rfl hne

theorem Sight.opens_of_outcome {x : Sight μ ι δ} {id j : ConnectionId} {es : List NetEvent} {name : String}
    {remote : Address} (hs : x.manager.isServer = true)
    (ho : x.manager.Outcome x.medium x.place x.transport x.event x.after.1 x.after.2 id es)
    (hevents : x.after.1.events = x.manager.events ++ es) (hmem : .connected j name remote ∈ es) :
    ∃ c payload, x.Opens j name c payload ∧ c.remote = remote := by
  cases ho with
  | opened ack session bare after encoded sent =>
    obtain ⟨rfl, rfl, rfl⟩ := NetEvent.connected.inj (List.mem_singleton.mp hmem)
    exact ⟨_, _, ⟨ack, session, encoded, sent, hevents⟩, rfl⟩
  | accepted client => cases (Manager.side_eq_server hs).symm.trans client
  | ended live =>
    rw [Manager.farewell_eq hs] at hmem
    simp at hmem
  | _ => simp at hmem

namespace Chronicle
variable {k : Chronicle μ ι δ} {i : Nat} {h : ι} {s : Manager ι δ × μ} {es : List NetEvent}

def Lapsed (k : Chronicle μ ι δ) (id : ConnectionId) : Prop := ∃ x ∈ k.sights, x.Lapses id

structure Told (k : Chronicle μ ι δ) : Prop where
  tale : ∀ id, Tale id (k.manager.standing? id) (k.Lapsed id) (k.toldOf id)
  known : ∀ id, k.toldOf id ≠ [] → id.val < k.manager.connections.slots.length
  opened : ∀ {id name remote}, .connected id name remote ∈ k.told →
    ∃ x ∈ k.sights, ∃ c payload, x.Opens id name c payload ∧ c.remote = remote

theorem told_create (settings : Settings) (w : μ) : (create .server settings w : Chronicle μ ι δ).Told := by
  refine ⟨fun id => .silent ?_ ?_, fun id hne => ?_, fun hmem => ?_⟩
  · intro s hs
    cases hs
  · rintro ⟨x, hx, -⟩
    cases hx
  · exact absurd rfl hne
  · cases hmem

/-- Only the connection that an event is about can lapse. It is then gone, and the application is told of it. -/
theorem Fair.of_lapses (hk : k.Fair) (hi : k.manager.transports[i]? = some h) {e : TransportEvent} {id j : ConnectionId}
    (hsettles : Manager.Settles k.manager (k.handle i h e).manager id)
    (hevents : (k.handle i h e).manager.events = k.manager.events ++ es)
    (hl : Sight.Lapses ⟨k.manager, k.medium, i, h, e⟩ j) :
    j = id ∧ (k.handle i h e).manager.standing? j = none ∧
      (∃ session, k.manager.standing? j = some (session, none)) ∧
      ∃ name, es = [.disconnected j name "Failed to send string table"] := by
  obtain ⟨c, hack, hunsent⟩ := hl
  obtain ⟨⟨name, htold⟩, hgone⟩ := Manager.handleEvent_of_unsent hk.sound hi hack hunsent
  have hin := (hk.sound j).phase hack.live
  rw [hack.awaited] at hin
  obtain ⟨-, -, hchannel⟩ := hin.of_ack
  refine ⟨?_, Manager.standing?_eq_none.mpr hgone, ⟨c.session, ?_⟩, name, ?_⟩
  · refine Decidable.of_not_not fun hj => ?_
    have hsame := (hsettles.connections.get? hj).trans hack.live
    cases hgone.symm.trans hsame
  · rw [Manager.standing?_of_get? hack.live, hchannel]
  · exact List.append_cancel_left (hevents.symm.trans htold)

theorem Told.handle (ht : k.Told) (hk : k.Fair) (hi : k.manager.transports[i]? = some h) (e : TransportEvent) :
    (k.handle i h e).Told := by
  obtain ⟨id, es, houtcome, hsettles, hevents, htoldOf⟩ := hk.handle_outcome hi e
  let x : Sight μ ι δ := ⟨k.manager, k.medium, i, h, e⟩
  let k' := k.handle i h e
  have hlapsed : ∀ j, k'.Lapsed j ↔ k.Lapsed j ∨ x.Lapses j := by
    intro j
    simp only [Lapsed, k', Chronicle.handle, List.mem_append, List.mem_singleton, or_and_right, exists_or,
      exists_eq_left, x]
  refine ⟨fun j => ?_, fun j hne => ?_, fun {j name remote} hmem => ?_⟩
  · have hbefore := ht.tale j
    by_cases hl : x.Lapses j
    · obtain ⟨rfl, hgone, ⟨session, hsilent⟩, name, rfl⟩ := hk.of_lapses hi hsettles hevents hl
      rw [hsilent] at hbefore
      obtain ⟨hnil, -⟩ := hbefore.silent_inv
      rw [hgone, htoldOf, hnil, if_pos rfl]
      exact .lapsed ((hlapsed j).mpr (Or.inr hl))
    · have hsame : k'.Lapsed j = k.Lapsed j := propext ((hlapsed j).trans (or_iff_left hl))
      rw [htoldOf, hsame]
      by_cases hj : id = j
      · subst hj
        rw [if_pos rfl]
        refine hbefore.outcome hk.sound hk.server houtcome (fun hnew => ?_) fun c ack unsent => hl ⟨c, ack, unsent⟩
        refine Decidable.of_not_not fun hne => ?_
        exact absurd (ht.known id hne) (by rw [hnew]; exact Nat.lt_irrefl _)
      · have hget : k'.manager.connections.get? j = k.manager.connections.get? j :=
          hsettles.connections.get? fun heq => hj heq.symm
        rw [if_neg hj, List.append_nil, Manager.standing?, hget]
        exact hbefore
  · refine Nat.lt_of_lt_of_le ?_ hsettles.connections.grown
    by_cases hold : k.toldOf j = []
    · rw [htoldOf, hold, List.nil_append] at hne
      split at hne
      · rename_i hj
        exact hj ▸ houtcome.lt_of_told hne
      · exact absurd rfl hne
    · exact ht.known j hold
  · rw [told_handle hevents] at hmem
    rcases List.mem_append.mp hmem with hmem | hmem
    · obtain ⟨y, hy, hopens⟩ := ht.opened hmem
      exact ⟨y, List.mem_append_left _ hy, hopens⟩
    · exact ⟨x, List.mem_append_right _ (List.mem_singleton_self x),
        Sight.opens_of_outcome (x := x) hk.server houtcome hevents hmem⟩

theorem Told.parts (ht : k.Told) (hk : k.Fair) (hp : Manager.Parts k.manager s.1 es) : (k.withState s).Told := by
  have htold : (k.withState s).told = k.told ++ es := told_withState hp.events
  refine ⟨fun id => ?_, fun id hne => ?_, fun {id name remote} hmem => ?_⟩
  · rw [toldOf_append htold]
    rcases hp.each id with ⟨hget, hnil⟩ | ⟨c, reason, live, hgone, hes⟩
    · rw [hnil, List.append_nil, withState, Manager.standing?, hget]
      exact ht.tale id
    · rw [hes, withState, Manager.standing?, hgone]
      exact (ht.tale id).ended hk.sound hk.server live reason
  · refine Nat.lt_of_lt_of_le ?_ hp.ages.grown
    rw [toldOf_append htold] at hne
    rcases hp.each id with ⟨hget, hnil⟩ | ⟨c, reason, live, -⟩
    · rw [hnil, List.append_nil] at hne
      exact ht.known id hne
    · exact ConnectionTable.lt_of_get? live
  · rw [htold] at hmem
    rcases List.mem_append.mp hmem with hmem | hmem
    · exact ht.opened hmem
    · have habout : NetEvent.connected id name remote ∈ es.filter (·.isAbout id) :=
        List.mem_filter.mpr ⟨hmem, by simp [NetEvent.isAbout]⟩
      rcases hp.each id with ⟨-, hnil⟩ | ⟨c, reason, -, -, hes⟩
      · rw [hnil] at habout
        cases habout
      · rw [hes, Manager.farewell_eq hk.server] at habout
        simp at habout

theorem keeps_told : Keeps (Told : Chronicle μ ι δ → Prop) := by
  refine ⟨fun e hk ht hi => ht.handle hk hi e, fun hk ht hp => ht.parts hk hp, fun {k} ht => ?_⟩
  have htold := told_takeEvents k
  refine ⟨fun id => ?_, fun id hne => ?_, fun hmem => ?_⟩
  · rw [toldOf, htold]
    exact ht.tale id
  · rw [toldOf, htold] at hne
    exact ht.known id hne
  · rw [htold] at hmem
    exact ht.opened hmem

end Chronicle
end StateSync
