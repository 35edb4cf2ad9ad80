import Mathlib.Data.List.Induction
import StateSync.Proofs.Manager.Frames
import StateSync.Transport.Script

/-! What comes in on a connection whose handshake is over. It may bring a client a name table, or a message that is
    handed to the application; nothing else changes, whatever the bytes are (`handleEvent_connected`). Which bytes are a
    message depends on the kinds that a manager has, and each of those comes from a call that registered it
    (`stems_run`). -/

namespace StateSync

namespace Registry
variable {δ : Type} {r : Registry δ} {t : StringTable} {bs : Bytes} {x : δ}

/-- A frame says something if it begins with the place of a name for which there is a handler, and the handler reads
    the rest. -/
theorem read?_eq_some_iff : r.read? t bs = some x ↔ ∃ id payload name group handle, bs = id :: payload ∧
    id ≠ StringTable.bootstrapId ∧ t.get? id = some name ∧ r.kinds.get? name = some ⟨group, some handle⟩ ∧
      handle payload = .ok x := by
  constructor
  · intro h
    cases bs with
    | nil => cases h
    | cons id payload =>
      rw [read?] at h
      split at h
      · cases h
      · rename_i hid
        obtain ⟨name, hname, hdispatch⟩ := Option.bind_eq_some_iff.mp h
        unfold dispatch at hdispatch
        split at hdispatch
        · cases hdispatch
        · rename_i k hkind
          obtain ⟨group, handler⟩ := k
          cases handler with
          | none => cases hdispatch
          | some handle =>
            refine ⟨id, payload, name, group, handle, rfl, hid, hname, hkind, ?_⟩
            cases hx : handle payload with
            | error e =>
              simp only [hx] at hdispatch
              cases hdispatch
            | ok y =>
              simp only [hx] at hdispatch
              rw [Option.some.inj hdispatch]
  · rintro ⟨id, payload, name, group, handle, rfl, hid, hname, hkind, hx⟩
    rw [read?_of_get? hid hname, dispatch, hkind]
    simp only [hx]
    rfl

end Registry

theorem Connection.InPhase.of_connected {c : Connection} {side : Side} {f : Option PendingFrame}
    (h : c.InPhase side f) (phase : c.phase = .connected) :
    f = none ∧ ∃ ch, c.channel = some ch ∧ ch.connection = c.id := by
  simp only [Connection.InPhase, phase] at h
  have hin : f = none ∧ ∃ name, c.session = some name ∧ c.channel = some ⟨c.id, name, c.remote⟩ := by
    cases side <;> exact h
  obtain ⟨hawaited, name, -, hch⟩ := hin
  exact ⟨hawaited, _, hch, rfl⟩

namespace Manager
variable {μ ι δ : Type} {m : Manager ι δ} {id : ConnectionId} {c : Connection} {bs : Bytes} {ch : Channel}
  {new : StringTable}

/-! ### Name tables -/

/-- A frame brings a client a name table that it can take over, in place of the one it has. -/
def Brings (m : Manager ι δ) (bs : Bytes) (new : StringTable) : Prop :=
  m.side = .client ∧ ∃ payload entries, bs = StringTable.bootstrapId :: payload ∧
    MessageType.stringTable.decode payload = .ok entries ∧ m.strings.replace entries = .ok new

theorem strings_of_brings (h : m.Brings bs new) (ch : Channel) : (m.receiveFrame ch bs).strings = new := by
  obtain ⟨hside, payload, entries, rfl, hdecode, hreplace⟩ := h
  rw [receiveFrame_bootstrap, receiveStringTable, if_neg (by simp [isServer, hside]), hdecode]
  dsimp only
  rw [hreplace]

theorem receiveStringTable_brings (m : Manager ι δ) (payload : Bytes) :
    (m.receiveStringTable payload).strings = m.strings ∨
      m.Brings (StringTable.bootstrapId :: payload) (m.receiveStringTable payload).strings := by
  unfold receiveStringTable
  split
  · exact Or.inl rfl
  rename_i hs
  split
  · exact Or.inl rfl
  rename_i entries hdecode
  split
  · exact Or.inl rfl
  rename_i strings hreplace
  exact Or.inr ⟨side_eq_client (eq_false_of_ne_true hs), payload, entries, rfl, hdecode, hreplace⟩

/-- Nothing else changes the name table. -/
theorem receiveFrame_brings (m : Manager ι δ) (ch : Channel) (bs : Bytes) :
    (m.receiveFrame ch bs).strings = m.strings ∨ m.Brings bs (m.receiveFrame ch bs).strings := by
  cases bs with
  | nil => exact Or.inl rfl
  | cons place payload =>
    by_cases hplace : place = StringTable.bootstrapId
    · subst hplace
      rw [receiveFrame_bootstrap]
      exact receiveStringTable_brings m payload
    · rw [receiveFrame_message hplace]
      exact Or.inl rfl

/-! ### Kinds -/

/-- Each kind is that of the message that carries the name table, or was registered by one of these calls. -/
def Stems (r : Registry δ) (calls : List (Call μ ι δ)) : Prop :=
  ∀ name k, r.kinds.get? name = some k → (name = StringTable.bootstrapName ∧ k = ⟨.string, none⟩) ∨
    ∃ (α : Type) (t : MessageType α) (receive : Option (α → δ)), .register t receive ∈ calls ∧ t.name = name ∧
      k = ⟨t.group, receive.map (Registry.handlerOf t)⟩

theorem stems_create : Stems (Registry.create : Registry δ) ([] : List (Call μ ι δ)) := fun name k hk => by
  rw [Registry.create, Assoc.get?_insert, Assoc.get?_empty] at hk
  split at hk
  · rename_i hname
    exact Or.inl ⟨hname.symm, (Option.some.inj hk).symm⟩
  · cases hk

theorem Stems.mono {r : Registry δ} {calls later : List (Call μ ι δ)} (h : Stems r calls) (hsub : calls ⊆ later) :
    Stems r later := fun name k hk => by
  rcases h name k hk with hk | ⟨α, t, receive, hcall, hrest⟩
  · exact Or.inl hk
  · exact Or.inr ⟨α, t, receive, hsub hcall, hrest⟩

/-- Whoever made the handler of a frame's kind known said how to read it. -/
theorem Stems.read?_eq_some_iff {r : Registry δ} {calls : List (Call μ ι δ)} (h : Stems r calls) {t : StringTable}
    {x : δ} : r.read? t bs = some x ↔ ∃ place payload, bs = place :: payload ∧ place ≠ StringTable.bootstrapId ∧
      ∃ (α : Type) (k : MessageType α) (receive : α → δ) (y : α), t.get? place = some k.name ∧
        .register k (some receive) ∈ calls ∧ r.Knows k (some receive) ∧ k.decode payload = .ok y ∧ x = receive y := by
  rw [Registry.read?_eq_some_iff]
  constructor
  · rintro ⟨place, payload, name, group, handle, rfl, hplace, hname, hkind, hx⟩
    refine ⟨place, payload, rfl, hplace, ?_⟩
    rcases h name _ hkind with ⟨-, hk⟩ | ⟨α, k, receive, hcall, rfl, hk⟩
    · cases hk
    · obtain ⟨-, hhandler⟩ := Registration.mk.inj hk
      obtain ⟨receive, rfl, rfl⟩ := Option.map_eq_some_iff.mp hhandler.symm
      unfold Registry.handlerOf at hx
      split at hx
      · rename_i y hy
        exact ⟨α, k, receive, y, hname, hcall, hkind.trans (congrArg some hk), hy, (Except.ok.inj hx).symm⟩
      · cases hx
  · rintro ⟨place, payload, rfl, hplace, α, k, receive, y, hname, -, hknows, hy, rfl⟩
    exact ⟨place, payload, k.name, k.group, Registry.handlerOf k receive, rfl, hplace, hname, hknows,
      by rw [Registry.handlerOf, hy]⟩

variable [Medium μ ι]

theorem Stems.perform (hm : m.Sound) {calls : List (Call μ ι δ)} (h : Stems m.registry calls) (w : μ)
    (call : Call μ ι δ) : Stems (perform (m, w) call).1.registry (calls ++ [call]) := fun name k hk => by
  have hold : Stems m.registry (calls ++ [call]) := h.mono (List.subset_append_left _ _)
  rcases registry_perform hm w call with hsame | ⟨α, t, receive, rfl, hr⟩
  · exact hold name k (hsame ▸ hk)
  · rw [(kinds_register hr).2, Assoc.get?_insert] at hk
    split at hk
    · rename_i hname
      have hcall : .register t receive ∈ calls ++ [Call.register t receive] :=
        List.mem_append_right _ (List.mem_singleton_self _)
      exact Or.inr ⟨α, t, receive, hcall, hname, (Option.some.inj hk).symm⟩
    · exact hold name k hk

theorem stems_run (side : Side) (settings : Settings) (w : μ) (calls : List (Call μ ι δ)) :
    Stems (run (create side settings, w) calls).1.registry calls := by
  induction calls using List.reverseRecOn with
  | nil => exact stems_create
  | append_singleton calls call ih =>
    rw [run_append]
    exact ih.perform (run_advances (sound_create side settings) w calls).sound _ call

/-! ### Every frame -/

/-- Whatever bytes come in on a connection that is over its handshake, of a manager on which anything was called before,
    over a medium that did as it liked: the medium stays as it is, and of the manager at most the name table and what
    was received change. A message is received if the first byte is not zero and stands for a name in the table, a call
    has registered that name with a handler, and the rest can be read as such a message. Then it is received once, on
    the connection's own channel, and otherwise nothing is. The table changes if the manager is a client, the first byte
    is zero, and the rest can be read as lines that it takes over. Then it becomes theirs, and otherwise it stays. -/
theorem handleEvent_connected (side : Side) (settings : Settings) (w w' : μ) (calls : List (Call μ ι δ)) (h : ι)
    (live : (run (create side settings, w) calls).1.connections.get? id = some c) (phase : c.phase = .connected)
    (bs : Bytes) :
    let m := (run (create side settings, w) calls).1
    ∃ ch strings handed, c.channel = some ch ∧ ch.connection = id ∧
      m.handleEvent w' c.transport h (.data c.peer bs) =
        ({ m with strings := strings, received := m.received ++ handed }, w') ∧
      (handed = [] ∨ ∃ x, handed = [(ch, x)]) ∧
      (∀ x, (ch, x) ∈ handed ↔ ∃ place payload, bs = place :: payload ∧ place ≠ StringTable.bootstrapId ∧
        ∃ (α : Type) (t : MessageType α) (receive : α → δ) (y : α), m.strings.get? place = some t.name ∧
          .register t (some receive) ∈ calls ∧ m.registry.Knows t (some receive) ∧ t.decode payload = .ok y ∧
            x = receive y) ∧
      (strings ≠ m.strings → m.Brings bs strings) ∧ ∀ new, m.Brings bs new → strings = new := by
  intro m
  have hm : m.Sound := (run_advances (sound_create side settings) w calls).sound
  obtain rfl := (hm id).own live
  obtain ⟨-, ch, hch, hown⟩ := ((hm c.id).phase live).of_connected phase
  have hevent : m.handleEvent w' c.transport h (.data c.peer bs) = (m.receiveFrame ch bs, w') :=
    handleData_of_channel? hm ((hm c.id).entered live) (by rw [channel?, live]; exact hch) w' bs
  obtain ⟨strings, received, heq, -⟩ := m.receiveFrame_eq ch bs
  have hreceived := m.received_receiveFrame ch bs
  have hstrings : (m.receiveFrame ch bs).strings = strings := by rw [heq]
  rw [heq] at hreceived
  refine ⟨ch, strings, ((m.registry.read? m.strings bs).map (ch, ·)).toList, hch, hown, ?_, ?_, fun x => ?_,
    hstrings ▸ (m.receiveFrame_brings ch bs).resolve_left, fun new hbrings => ?_⟩
  · rw [hevent, heq, ← hreceived]
  · cases m.registry.read? m.strings bs with
    | none => exact Or.inl rfl
    | some x => exact Or.inr ⟨x, rfl⟩
  · rw [← (stems_run side settings w calls).read?_eq_some_iff, Option.mem_toList, Option.map_eq_some_iff]
    exact ⟨fun ⟨y, hy, heq⟩ => (Prod.mk.inj heq).2 ▸ hy, fun hx => ⟨x, hx, rfl⟩⟩
  · rw [← hstrings]
    exact strings_of_brings hbrings ch

/-- A server that takes lines of text has a peer whose handshake is over. -/
def welcoming : List (Call Script Nat String) :=
  let peer : Peer := ⟨1⟩
  let arriving : List TransportEvent := [.approvalRequest peer, .connected peer "", .data peer (textBytes "ann"),
    .data peer (textBytes ackText)]
  [.register MessageType.chat (some fun text => text), .start,
    .outside { Script.create with transports := [⟨default, arriving⟩] }, .process]

theorem handleEvent_connected_welcoming :
    let m := (run (create .server Settings.initial, Script.create) welcoming).1
    ∃ c ch strings, m.connections.get? ⟨0⟩ = some c ∧ c.phase = .connected ∧ c.channel = some ch ∧
      m.handleEvent Script.create c.transport 0 (.data c.peer (1 :: textBytes "hi")) =
        ({ m with strings := strings, received := [(ch, "hi")] }, Script.create) := by
  intro m
  have hlive : m.connections.get? ⟨0⟩ = some ⟨⟨0⟩, 0, ⟨1⟩, Script.peerAddress ⟨1⟩, .connected, some "ann",
    some ⟨⟨0⟩, "ann", Script.peerAddress ⟨1⟩⟩⟩ := by decide +kernel
  obtain ⟨ch, strings, handed, hch, -, heq, -⟩ := handleEvent_connected .server Settings.initial Script.create
    Script.create welcoming 0 hlive rfl (1 :: textBytes "hi")
  have hreceived : (m.handleEvent Script.create 0 0 (.data ⟨1⟩ (1 :: textBytes "hi"))).1.received =
    [(⟨⟨0⟩, "ann", Script.peerAddress ⟨1⟩⟩, "hi")] := by decide +kernel
  have hhanded : m.received ++ handed = [(ch, "hi")] := by
    rw [← Option.some.inj hch, ← hreceived, heq]
  exact ⟨_, ch, strings, hlive, rfl, hch, hhanded ▸ heq⟩

end Manager
end StateSync
